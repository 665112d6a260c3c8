import Mathlib.Data.List.Count
import Taomee.Anticheat.HashTable
import Taomee.Library.Runs

/-!
# anticheat: what a table keeps over a run

The user looks a key up and writes the free node it is given, works on the node of a key that
is there, and empties nodes, by their key or on a walk. The log beside the nodes says which
keys were inserted and deleted.
-/

namespace Taomee.Anticheat

open ChoiceTable Runs

/-! ## The walk -/

/-- The nodes that the calls of `hash_table_walk` return, up to the null result. -/
inductive Walks (h : HashTable) : Nat → Nat → List Addr → Prop where
  | done {row col : Nat} (ended : hashTableWalk h row col = none) : Walks h row col []
  | next {row col row' col' : Nat} {node : Addr} {rest : List Addr}
      (moved : hashTableWalk h row col = some (node, row', col')) (onward : Walks h row' col' rest) :
      Walks h row col (node :: rest)

/-- The nodes of some rows, in the order in which they lie. -/
def nodesOf (h : HashTable) (rows : List Nat) : List Addr :=
  rows.flatMap fun row => (List.range (h.nodesNum row)).map (nodeAt h row)

/-- One step of the walk. -/
theorem hashTableWalk_eq {row col : Nat} (rowIn : row < h.rowNum) (colIn : col < h.nodesNum row) :
    hashTableWalk h row col = some (nodeAt h row col,
      if col + 1 ≥ h.nodesNum row then (row + 1, 0) else (row, col + 1)) := by
  have found : hashTableGetNode h row col = some (nodeAt h row col) :=
    if_neg (by omega)
  rw [hashTableWalk, found]
  dsimp only
  split <;> rfl

/-- From a node of a row on, the walk goes through the rest of that row. -/
theorem walks_row {row col : Nat} {rest : List Addr} (rowIn : row < h.rowNum)
    (colIn : col < h.nodesNum row) (onward : Walks h (row + 1) 0 rest) :
    Walks h row col ((List.range' col (h.nodesNum row - col)).map (nodeAt h row) ++ rest) := by
  induction left : h.nodesNum row - col generalizing col with
  | zero => omega
  | succ remaining ih =>
    have moved := hashTableWalk_eq rowIn colIn
    by_cases last : col + 1 ≥ h.nodesNum row
    · rw [if_pos last] at moved
      obtain rfl : remaining = 0 := by omega
      exact .next moved onward
    · rw [if_neg last] at moved
      exact .next moved (ih (Nat.lt_of_not_le last) (by omega))

/-- The walk goes through the rows that are left. -/
theorem walks_rows (ready : Ready h) {row : Nat} (within : row ≤ h.rowNum) :
    Walks h row 0 (nodesOf h (List.range' row (h.rowNum - row))) := by
  induction left : h.rowNum - row generalizing row with
  | zero =>
    have beyond : hashTableGetNode h row 0 = none := if_pos (.inl (by omega))
    refine .done ?_
    rw [hashTableWalk, beyond]
  | succ remaining ih =>
    have rowIn : row < h.rowNum := by omega
    have positive : 0 < h.nodesNum row :=
      (ready.modsPositive row rowIn).trans_le (ready.modsFit row rowIn)
    have onward := walks_row rowIn positive (ih rowIn (by omega))
    rw [Nat.sub_zero, ← List.range_eq_range'] at onward
    exact onward

theorem mem_nodesOf {rows : List Nat} {node : Addr} :
    node ∈ nodesOf h rows ↔ ∃ row ∈ rows, ∃ col < h.nodesNum row, nodeAt h row col = node := by
  simp [nodesOf]

/-- No node is met twice. -/
theorem nodup_nodesOf (ready : Ready h) : (nodesOf h (List.range h.rowNum)).Nodup := by
  refine List.nodup_flatMap.mpr ⟨?_, ?_⟩
  · intro row member
    have rowIn : row < h.rowNum := List.mem_range.mp member
    refine List.Nodup.map_on ?_ List.nodup_range
    intro col colIn other otherIn same
    exact (ready.nodeAt_inj rowIn (List.mem_range.mp colIn) rowIn (List.mem_range.mp otherIn)
      same).2
  · refine List.nodup_range.imp_of_mem ?_
    intro row other rowMem otherMem apart node inRow inOther
    obtain ⟨col, colIn, rfl⟩ := List.mem_map.mp inRow
    obtain ⟨otherCol, otherColIn, same⟩ := List.mem_map.mp inOther
    exact apart (ready.nodeAt_inj (List.mem_range.mp rowMem) (List.mem_range.mp colIn)
      (List.mem_range.mp otherMem) (List.mem_range.mp otherColIn) same.symm).1

/-! ## The calls -/

inductive Event (Key : Type) where
  | inserted (key : Key)
  | deleted (key : Key)

def Event.key {Key : Type} : Event Key → Key
  | inserted key => key
  | deleted key => key

def Event.isInserted {Key : Type} : Event Key → Bool
  | inserted _ => true
  | deleted _ => false

structure State (Key Node : Type) where
  nodes : Addr → Node
  /-- The newest event first. -/
  log : List (Event Key)

inductive Call (Key Node : Type) where
  /-- `fresh` is written when `exist` stays 0; a node that exists is worked on. -/
  | insert (key : Key) (fresh : Node) (touch : Node → Node)
  | delete (key : Key) (erase : Node → Node)
  /-- A node met on a walk is emptied. -/
  | release (row col : Nat) (erase : Node → Node)

variable {Key Node : Type} [DecidableEq Key] {usage : Usage Key Node} {h : HashTable}
  {state : State Key Node} {nodes : Addr → Node} {key : Key}

/-- A key was inserted, and not deleted since. -/
def Present (log : List (Event Key)) (key : Key) : Prop :=
  (log.find? fun event => event.key = key).any Event.isInserted

instance (log : List (Event Key)) (key : Key) : Decidable (Present log key) :=
  inferInstanceAs (Decidable (_ = true))

theorem present_inserted {log : List (Event Key)} {other : Key} :
    Present (.inserted key :: log) other ↔ other = key ∨ Present log other := by
  by_cases same : key = other
  · simp [Present, Event.key, Event.isInserted, same]
  · simp [Present, Event.key, same, Ne.symm same]

theorem present_deleted {log : List (Event Key)} {other : Key} :
    Present (.deleted key :: log) other ↔ Present log other ∧ other ≠ key := by
  by_cases same : key = other
  · simp [Present, Event.key, Event.isInserted, same]
  · simp [Present, Event.key, same, Ne.symm same]

def step (usage : Usage Key Node) (h : HashTable) (state : State Key Node) :
    Call Key Node → State Key Node
  | .insert key fresh touch =>
    match hashTableLookupNodeEx usage h state.nodes key (some 0) with
    | (none, _) => state
    | (some node, exist) =>
      let written := if exist = some 0 then fresh else touch (state.nodes node)
      { nodes := Function.update state.nodes node written, log := .inserted key :: state.log }
  | .delete key erase =>
    match hashTableLookupNode usage h state.nodes key with
    | none => { state with log := .deleted key :: state.log }
    | some node =>
      { nodes := Function.update state.nodes node (erase (state.nodes node))
        log := .deleted key :: state.log }
  | .release row col erase =>
    match hashTableGetNode h row col with
    | none => state
    | some node =>
      { nodes := Function.update state.nodes node (erase (state.nodes node))
        log := .deleted (usage.keyOf (state.nodes node)) :: state.log }

/-- The empty key is no key of a call, a node written for a key has that key, work on a node
leaves its key, and an emptied node has the empty key. -/
def Allowed (usage : Usage Key Node) (_ : State Key Node) : Call Key Node → Prop
  | .insert key fresh touch => key ≠ usage.emptyKey ∧ usage.keyOf fresh = key ∧
      ∀ node, usage.keyOf (touch node) = usage.keyOf node
  | .delete key erase => key ≠ usage.emptyKey ∧ ∀ node, usage.keyOf (erase node) = usage.emptyKey
  | .release _ _ erase => ∀ node, usage.keyOf (erase node) = usage.emptyKey

/-! ## The invariant -/

/-- The nodes of the table. -/
def place (h : HashTable) : Set Addr :=
  {node | ∃ row < h.rowNum, ∃ col < h.nodesNum row, nodeAt h row col = node}

omit [DecidableEq Key] in
theorem slot_mem_place (ready : Ready h) {row : Nat} (rowIn : row < h.rowNum) :
    slot usage h key row ∈ place h :=
  ⟨row, rowIn, column usage h key row,
    (Nat.mod_lt _ (ready.modsPositive row rowIn)).trans_le (ready.modsFit row rowIn), rfl⟩

omit [DecidableEq Key] in
theorem slots_subset_place (ready : Ready h) : ∀ node ∈ slots usage h key, node ∈ place h := by
  intro node member
  obtain ⟨row, rowIn, rfl⟩ := List.mem_map.mp member
  exact slot_mem_place ready (List.mem_range.mp rowIn)

/-- The node found has the key. -/
theorem firstWith_eq_some {among : List Addr} {node : Addr}
    (found : firstWith usage nodes key among = some node) :
    node ∈ among ∧ usage.keyOf (nodes node) = key :=
  ⟨List.mem_of_find?_eq_some found, by simpa using List.find?_some found⟩

/-- Nothing is found when no node has the key. -/
theorem firstWith_eq_none {among : List Addr} :
    firstWith usage nodes key among = none ↔ ∀ node ∈ among, usage.keyOf (nodes node) ≠ key := by
  simp [firstWith]

/-- The key of each node. -/
def content (usage : Usage Key Node) (nodes : Addr → Node) (node : Addr) : Key :=
  usage.keyOf (nodes node)

/-- The keys lie in their slots, each in one node, and they are those that the log leaves. -/
structure Kept (usage : Usage Key Node) (h : HashTable) (state : State Key Node) : Prop where
  placed : Placed (place h) (slots usage h) usage.emptyKey (content usage state.nodes)
  logged : ∀ key, key ∈ stored (place h) usage.emptyKey (content usage state.nodes) ↔
    Present state.log key

omit [DecidableEq Key] in
/-- The keys after a node is written. -/
theorem content_update (node : Addr) (written : Node) :
    content usage (Function.update nodes node written) =
      Function.update (content usage nodes) node (usage.keyOf written) := by
  ext other
  by_cases same : other = node
  · rw [same, content, Function.update_self, Function.update_self]
  · rw [content, Function.update_of_ne same, Function.update_of_ne same, content]

namespace Kept

/-- The search through the slots misses no key of the table. -/
theorem firstWith_isSome (ready : Ready h) (kept : Kept usage h state)
    (named : key ≠ usage.emptyKey) :
    (firstWith usage state.nodes key (slots usage h key)).isSome ↔ Present state.log key := by
  rw [← kept.logged, kept.placed.mem_stored_iff (slots_subset_place ready) named, firstWith]
  simp [content]

/-- An insertion keeps every key in one node. -/
theorem insert (ready : Ready h) (kept : Kept usage h state) {fresh : Node} {touch : Node → Node}
    (named : key ≠ usage.emptyKey) (freshKey : usage.keyOf fresh = key)
    (touchKey : ∀ node, usage.keyOf (touch node) = usage.keyOf node) :
    Kept usage h (step usage h state (.insert key fresh touch)) := by
  simp only [step, hashTableLookupNodeEx_eq]
  have known := kept.firstWith_isSome ready named
  cases own : firstWith usage state.nodes key (slots usage h key) with
  | some node =>
    -- The node keeps its key, and the key is in the log already.
    obtain ⟨-, holds⟩ := firstWith_eq_some own
    rw [own] at known
    have present : Present state.log key := known.mp rfl
    have same : content usage (Function.update state.nodes node (touch (state.nodes node))) =
        content usage state.nodes := by
      rw [content_update, touchKey]
      exact Function.update_eq_self node (content usage state.nodes)
    constructor
    · simpa [same] using kept.placed
    · intro other
      simp only [Option.map_some, Option.some.injEq, one_ne_zero, if_false, same, kept.logged,
        present_inserted]
      constructor
      · exact .inr
      · rintro (rfl | before)
        · exact present
        · exact before
  | none =>
    rw [own] at known
    have absent : key ∉ stored (place h) usage.emptyKey (content usage state.nodes) := by
      rw [kept.logged, ← known]
      exact Bool.false_ne_true
    cases free : firstWith usage state.nodes usage.emptyKey (slots usage h key) with
    | none => exact kept
    | some node =>
      obtain ⟨among, holds⟩ := firstWith_eq_some free
      have member := slots_subset_place ready node among
      constructor
      · simpa [content_update, freshKey] using kept.placed.store among absent
      · intro other
        have grown : stored (place h) usage.emptyKey
            (Function.update (content usage state.nodes) node key) =
            Insert.insert key (stored (place h) usage.emptyKey (content usage state.nodes)) :=
          stored_store member holds named
        simp only [if_true, content_update, freshKey, grown, Set.mem_insert_iff, kept.logged,
          present_inserted]

/-- A node of the table is emptied. -/
theorem erase (kept : Kept usage h state) {node : Addr} (member : node ∈ place h) {written : Node}
    (empties : usage.keyOf written = usage.emptyKey) :
    Kept usage h
      { nodes := Function.update state.nodes node written
        log := .deleted (usage.keyOf (state.nodes node)) :: state.log } where
  placed := by simpa [content_update, empties] using kept.placed.erase node
  logged other := by
    have same : usage.keyOf (state.nodes node) = content usage state.nodes node := rfl
    simp only [content_update, empties, kept.placed.stored_erase member, Set.mem_sdiff,
      Set.mem_singleton_iff, kept.logged, present_deleted, same]

/-- A deletion takes its key out. -/
theorem delete (ready : Ready h) (kept : Kept usage h state) {erase : Node → Node}
    (named : key ≠ usage.emptyKey) (empties : ∀ node, usage.keyOf (erase node) = usage.emptyKey) :
    Kept usage h (step usage h state (.delete key erase)) := by
  simp only [step, hashTableLookupNode_eq]
  have known := kept.firstWith_isSome ready named
  cases own : firstWith usage state.nodes key (slots usage h key) with
  | none =>
    rw [own] at known
    refine ⟨kept.placed, fun other => ?_⟩
    rw [present_deleted, kept.logged]
    constructor
    · intro present
      refine ⟨present, ?_⟩
      rintro rfl
      exact Bool.false_ne_true (known.mpr present)
    · exact And.left
  | some node =>
    obtain ⟨among, rfl⟩ := firstWith_eq_some own
    exact kept.erase (slots_subset_place ready node among) (empties _)

/-- A node that is released takes its key out. -/
theorem release (kept : Kept usage h state) {row col : Nat} {erase : Node → Node}
    (empties : ∀ node, usage.keyOf (erase node) = usage.emptyKey) :
    Kept usage h (step usage h state (.release row col erase)) := by
  simp only [step, hashTableGetNode]
  split
  · exact kept
  · rename_i node found
    split at found
    · contradiction
    · obtain rfl := Option.some.inj found
      exact kept.erase ⟨row, by omega, col, by omega, rfl⟩ (empties _)

/-- Every call that is allowed keeps the table. -/
theorem step (ready : Ready h) (kept : Kept usage h state) {call : Call Key Node}
    (allowed : Allowed usage state call) : Kept usage h (step usage h state call) := by
  cases call with
  | insert key fresh touch => exact kept.insert ready allowed.1 allowed.2.1 allowed.2.2
  | delete key erase => exact kept.delete ready allowed.1 allowed.2
  | release row col erase => exact kept.release allowed

end Kept

/-! ## The results -/

/-- What a user of the table may rely on. -/
structure Sound (usage : Usage Key Node) (h : HashTable) (state : State Key Node) : Prop where
  /-- No key is in two nodes. -/
  once : ∀ row < h.rowNum, ∀ col < h.nodesNum row, ∀ other < h.rowNum,
    ∀ otherCol < h.nodesNum other,
    usage.keyOf (state.nodes (nodeAt h row col)) ≠ usage.emptyKey →
    usage.keyOf (state.nodes (nodeAt h row col)) =
      usage.keyOf (state.nodes (nodeAt h other otherCol)) →
    row = other ∧ col = otherCol
  found : ∀ key, key ≠ usage.emptyKey →
    ((hashTableLookupNode usage h state.nodes key).isSome ↔ Present state.log key)
  holds : ∀ key node, hashTableLookupNode usage h state.nodes key = some node →
    usage.keyOf (state.nodes node) = key
  existing : ∀ key, key ≠ usage.emptyKey →
    ((hashTableLookupNodeEx usage h state.nodes key (some 0)).2 = some 1 ↔ Present state.log key)
  refused : ∀ key exist, (hashTableLookupNodeEx usage h state.nodes key exist).1 = none →
    ∀ row < h.rowNum, usage.keyOf (state.nodes (slot usage h key row)) ≠ usage.emptyKey

/-- A table that is kept is sound. -/
theorem Kept.sound (ready : Ready h) (kept : Kept usage h state) : Sound usage h state where
  once row rowIn col colIn other otherIn otherCol otherColIn full same := by
    have one : nodeAt h row col ∈ place h := ⟨row, rowIn, col, colIn, rfl⟩
    have two : nodeAt h other otherCol ∈ place h := ⟨other, otherIn, otherCol, otherColIn, rfl⟩
    have alsoFull : content usage state.nodes (nodeAt h other otherCol) ≠ usage.emptyKey :=
      fun empty => full (same.trans empty)
    have equal := kept.placed.once ⟨one, full⟩ ⟨two, alsoFull⟩ same
    exact ready.nodeAt_inj rowIn colIn otherIn otherColIn equal
  found key named := by
    rw [hashTableLookupNode_eq]
    exact kept.firstWith_isSome ready named
  holds key node found := by
    rw [hashTableLookupNode_eq] at found
    exact (firstWith_eq_some found).2
  existing key named := by
    rw [hashTableLookupNodeEx_eq, ← kept.firstWith_isSome ready named]
    cases firstWith usage state.nodes key (slots usage h key) <;> simp
  refused key exist refused row rowIn := by
    rw [hashTableLookupNodeEx_eq] at refused
    split at refused
    · contradiction
    · exact firstWith_eq_none.mp refused _ (List.mem_map_of_mem (List.mem_range.mpr rowIn))

omit [DecidableEq Key] in
/-- The indices kept with a free node say where it is. -/
theorem lookupNodeExPosRows_eq (exist : Option Int) (rows : List Nat) (emptyNode : Option Addr)
    (erow ecol : Nat) (named : ∀ node, emptyNode = some node → nodeAt h erow ecol = node) :
    let result := lookupNodeExPosRows usage h nodes key exist rows emptyNode erow ecol
    (result.node, result.exist) = lookupNodeExRows usage h nodes key exist rows emptyNode ∧
      ∀ node, result.node = some node → nodeAt h result.rowIdx result.colIdx = node := by
  induction rows generalizing emptyNode erow ecol with
  | nil => exact ⟨rfl, named⟩
  | cons row rest ih =>
    simp only [lookupNodeExPosRows, lookupNodeExRows]
    by_cases own : usage.compare key (nodes (slot usage h key row)) = 0
    · simp only [if_pos own, true_and]
      exact fun node found => Option.some.inj found
    · simp only [if_neg own]
      split
      · exact ih _ _ _ fun node found => Option.some.inj found
      · exact ih _ _ _ named

variable {hashTable : HashTable} {table tableSize nodeSize rowNum : Nat} {nodesNum mods : Nat → Nat}

/-- In every run on a table set up with all nodes free, a key is in one node at most, a lookup
finds it when it was inserted and not deleted since, an insertion is refused only when the key's
slots are all taken, the variant with positions returns the same node and where it is, and the
walk meets every node once. -/
theorem table_sound
    (set : hashTableInit hashTable table tableSize nodeSize rowNum nodesNum mods = some h)
    (free : ∀ row < h.rowNum, ∀ col < h.nodesNum row,
      usage.keyOf (nodes (nodeAt h row col)) = usage.emptyKey)
    (run : Reaches (step usage h) (Allowed usage) { nodes, log := [] } state) :
    Configured h table nodeSize rowNum nodesNum mods ∧ Sound usage h state ∧
      (∀ key exist erow ecol,
        let result := hashTableLookupNodeExPosinfo usage h state.nodes key exist erow ecol
        (result.node, result.exist) = hashTableLookupNodeEx usage h state.nodes key exist ∧
          ∀ node, result.node = some node → nodeAt h result.rowIdx result.colIdx = node) ∧
      ∃ visited, Walks h 0 0 visited ∧
        ∀ row < h.rowNum, ∀ col < h.nodesNum row, visited.count (nodeAt h row col) = 1 := by
  obtain ⟨ready, configured⟩ := configured_hashTableInit set
  have allFree : ∀ node ∈ place h, content usage nodes node = usage.emptyKey := by
    rintro node ⟨row, rowIn, col, colIn, rfl⟩
    exact free row rowIn col colIn
  have kept : Kept usage h state := by
    apply run.invariant
    · refine ⟨placed_of_empty allFree, fun key => ?_⟩
      rw [stored_of_empty allFree]
      simp [Present]
    · intro state call kept allowed
      exact kept.step ready allowed
  refine ⟨configured, kept.sound ready, fun key exist erow ecol => ?_,
    nodesOf h (List.range h.rowNum), ?_, ?_⟩
  · exact lookupNodeExPosRows_eq exist _ none erow ecol fun node found => absurd found (by simp)
  · have walks := walks_rows ready (Nat.zero_le _)
    rwa [Nat.sub_zero, ← List.range_eq_range'] at walks
  · intro row rowIn col colIn
    refine List.count_eq_one_of_mem (nodup_nodesOf ready) ?_
    exact mem_nodesOf.mpr ⟨row, List.mem_range.mpr rowIn, col, colIn, rfl⟩

/-- Nodes that hold a user id and a count, compared by their ids; 0 marks a free node. -/
def uidNodes : Usage Nat (Nat × Nat) where
  compare key node := if key = node.1 then 0 else 1
  keyOf node := node.1
  emptyKey := 0
  shortKey key := key
  compare_eq_zero key node := by
    by_cases same : key = node.1
    · simp [same]
    · simp [same, Ne.symm same]

/-- Two users share a slot of the first row; the first one goes, the second is looked up
again, and the first comes back. -/
theorem table_sound_reinserted :
    ∃ h, hashTableInit ⟨0, 0, 0, 0, fun _ => 0, fun _ => 0, fun _ => 0, fun _ => 0⟩
        4096 48 8 2 (fun _ => 3) (fun row => 3 - row) = some h ∧
      Configured h 4096 8 2 (fun _ => 3) (fun row => 3 - row) ∧
      Sound uidNodes h ([.insert 4 (4, 1) id, .insert 7 (7, 1) id, .delete 4 fun _ => (0, 0),
        .insert 7 (7, 1) id, .release 1 1 fun _ => (0, 0), .insert 4 (4, 1) id].foldl
          (step uidNodes h) { nodes := fun _ => (0, 0), log := [] }) := by
  have set : hashTableInit ⟨0, 0, 0, 0, fun _ => 0, fun _ => 0, fun _ => 0, fun _ => 0⟩
      4096 48 8 2 (fun _ => 3) (fun row => 3 - row) = some _ := rfl
  have kept : ∀ node, uidNodes.keyOf (id node) = uidNodes.keyOf node := fun _ => rfl
  have emptied : ∀ node : Nat × Nat,
      uidNodes.keyOf ((fun _ => (0, 0)) node) = uidNodes.emptyKey := fun _ => rfl
  refine ⟨_, set, And.imp_right And.left
    (table_sound set (fun _ _ _ _ => rfl) (Reaches.refl.follow ?_))⟩
  exact ⟨⟨by decide, rfl, kept⟩, ⟨by decide, rfl, kept⟩, ⟨by decide, emptied⟩,
    ⟨by decide, rfl, kept⟩, emptied, ⟨by decide, rfl, kept⟩, trivial⟩

end Taomee.Anticheat
