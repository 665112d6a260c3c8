import Taomee.Mmtree.Traversal

/-!
# Combining two trees

`combine_tree` opens a second file and walks its tree with a callback that sets or updates one key
of this object after the other. The data flags choose the operation, `MMT_KEY_ADD` the callback.
The two files are taken to be different ones.
-/

namespace Taomee.Mmtree

open RBTree RBTree.RBNode RBTree.RBColor RedBlack

def MMT_KEY_ADD : BitVec 32 := 1
def MMT_DATA_ADD : BitVec 32 := 2
def MMT_DATA_SUB : BitVec 32 := 4
def MMT_DATA_MUL : BitVec 32 := 8
def MMT_DATA_DIV : BitVec 32 := 16

/-- `flag & bit` -/
def hasFlag (flag bit : BitVec 32) : Bool := flag &&& bit ≠ 0

/-- What `create_mmtree_instance` and `init` give for the second file. -/
inductive Opening where
  | notCreated
  | notInitialised
  | opened (source : CMmtree)

namespace CMmtree

/-- The `op` of `combine_tree`; 0 without a data flag. -/
def combineOp (flag : BitVec 32) : Int :=
  if hasFlag flag MMT_DATA_ADD then MMT_OP_ADD
  else if hasFlag flag MMT_DATA_SUB then MMT_OP_SUB
  else if hasFlag flag MMT_DATA_MUL then MMT_OP_MUL
  else if hasFlag flag MMT_DATA_DIV then MMT_OP_DIV
  else 0

/-- Whether the division of a present datum by one of the other object traps. -/
def combineTraps (flag : BitVec 32) (old : Option Int32) (data : Int32) : Bool :=
  old.any (divTraps (combineOp flag) · data)

/-- `set_cb`; `mmapOk` says of each key whether `mmap` would succeed while it is set. A division
that traps leaves no object. -/
def setCb (mmapOk : Int → Bool) (op : Int) (key : Int) (data : Int32) (t : CMmtree) :
    Option CMmtree :=
  (t.exec (mmapOk key) (.set key data op)).map Prod.fst

/-- `update_cb` -/
def updateCb (op : Int) (key : Int) (data : Int32) (t : CMmtree) : Option CMmtree :=
  (t.exec true (.update key data op)).map Prod.fst

/-- The callback of `combine_tree`, with the object as `*p_param`. -/
def combineCb (mmapOk : Int → Bool) (flag : BitVec 32) :
    Int → Int32 → CMmtree → Option CMmtree :=
  if hasFlag flag MMT_KEY_ADD then setCb mmapOk (combineOp flag) else updateCb (combineOp flag)

/-- `combine_tree`: the object, the other object when it was opened, and the return value. -/
def combineTree (mmapOk : Int → Bool) (t : CMmtree) (file : String) (second : Opening)
    (flag : BitVec 32) : Option (CMmtree × Option CMmtree × Int) :=
  t.requireInited (·, none, -1) <|
    let signed := flag.toInt
    let t :=
      if combineOp flag = 0 then t.setErr MMT_IFACE_EOP s!"flags({signed}) is invalid." else t
    match second with
    | .notCreated => some (t.setErr MMT_IFACE_EOP "create mmtree instance failed.", none, -1)
    | .notInitialised => some (t.setErr MMT_IFACE_EOP s!"file {file} init failed.", none, -1)
    | .opened source => do
        let (source, ret, t) ← source.traversal (combineCb mmapOk flag) t
        some (t, some source, if ret ≠ 0 then -1 else 0)

/-- The datum that `get` finds. -/
def lookup (t : CMmtree) (key : Int) : Option Int32 :=
  match t.get key with
  | some (_, 0, out) => out
  | _ => none

end CMmtree

/-- What becomes of the data of a key: that in the object and that in the other one. -/
def mergeDatum (flag : BitVec 32) : Option Int32 → Option Int32 → Option Int32
  | some old, some data => some ((combine (CMmtree.combineOp flag) old data).getD old)
  | some old, none => some old
  | none, some data => if hasFlag flag MMT_KEY_ADD then some data else none
  | none, none => none

theorem mergeDatum_some (flag : BitVec 32) (old data : Int32) :
    mergeDatum flag (some old) (some data) =
      some ((combine (CMmtree.combineOp flag) old data).getD old) := rfl

theorem mergeDatum_missing (flag : BitVec 32) (data : Int32) :
    mergeDatum flag none (some data) = if hasFlag flag MMT_KEY_ADD then some data else none := rfl

@[simp] theorem mergeDatum_none_right (flag : BitVec 32) (old : Option Int32) :
    mergeDatum flag old none = old := by
  cases old <;> rfl

/-! ## The map of some items -/

/-- The bindings of some items. -/
def contentsOf (items : List Slot) : Contents :=
  (items.map fun s => (⟨s.key, s.data⟩ : Sigma fun _ : Int => Int32)).toFinmap

section Contents

variable {items : List Slot} {s : Slot} {key : Int} {contents : Contents} {data : Int32} {op : Int}

@[simp] theorem lookup_contentsOf_nil : (contentsOf []).lookup key = none := rfl

theorem lookup_contentsOf_cons :
    (contentsOf (s :: items)).lookup key =
      if key = s.key then some s.data else (contentsOf items).lookup key := by
  unfold contentsOf
  rw [Finmap.dlookup_list_toFinmap, Finmap.dlookup_list_toFinmap, List.map_cons]
  split
  case isTrue same =>
    subst same
    exact List.dlookup_cons_eq _ _ _
  case isFalse different => exact List.dlookup_cons_ne _ _ different

theorem lookup_contentsOf_of_ne (absent : ∀ s ∈ items, s.key ≠ key) :
    (contentsOf items).lookup key = none := by
  induction items with
  | nil => rfl
  | cons s items ih =>
    rw [lookup_contentsOf_cons, if_neg (absent s List.mem_cons_self).symm]
    exact ih fun s' member => absent s' (List.mem_cons_of_mem _ member)

/-- The contents are the keys and data of the nodes. -/
theorem lookup_contentsOf (distinct : (items.map Slot.key).Nodup) :
    (contentsOf items).lookup key = some data ↔ ∃ id, ⟨id, key, data⟩ ∈ items := by
  induction items with
  | nil => simp
  | cons s items ih =>
    rw [List.map_cons, List.nodup_cons] at distinct
    rw [lookup_contentsOf_cons]
    by_cases same : key = s.key
    · subst same
      rw [if_pos rfl, Option.some.injEq]
      constructor
      · rintro rfl
        exact ⟨s.id, List.mem_cons_self⟩
      · rintro ⟨id, member⟩
        rcases List.mem_cons.mp member with here | later
        · rw [← here]
        · exact absurd (List.mem_map_of_mem (f := Slot.key) later) distinct.1
    · rw [if_neg same, ih distinct.2]
      refine exists_congr fun id => ?_
      rw [List.mem_cons, or_iff_right]
      rintro rfl
      exact same rfl

end Contents

/-! ## One key -/

/-- The call that the callback makes. -/
def combineCall (flag : BitVec 32) (s : Slot) : Call :=
  if hasFlag flag MMT_KEY_ADD then .set s.key s.data (CMmtree.combineOp flag)
  else .update s.key s.data (CMmtree.combineOp flag)

section OneKey

variable {t t' : CMmtree} {tree : RBNode Slot} {queue : List Nat} {flag : BitVec 32} {s : Slot}
  {key : Int} {contents : Contents} {mmapOk : Int → Bool}

/-- The callback is one call on the destination. -/
theorem combineCb_eq (mmapOk : Int → Bool) (flag : BitVec 32) (s : Slot) (t : CMmtree) :
    CMmtree.combineCb mmapOk flag s.key s.data t =
      (t.exec (mmapOk s.key) (combineCall flag s)).map Prod.fst := by
  unfold CMmtree.combineCb combineCall
  split <;> rfl

/-- With `MMT_KEY_ADD` it is `set`. -/
theorem combineCall_set (adds : hasFlag flag MMT_KEY_ADD = true) (s : Slot) :
    combineCall flag s = .set s.key s.data (CMmtree.combineOp flag) := if_pos adds

/-- Without it it is `update`. -/
theorem combineCall_update (stays : ¬hasFlag flag MMT_KEY_ADD = true) (s : Slot) :
    combineCall flag s = .update s.key s.data (CMmtree.combineOp flag) := if_neg stays

/-- Overwriting merges one binding. -/
theorem lookup_overwrite {old : Int32} (found : contents.lookup s.key = some old) :
    (contents.overwrite s.key old s.data (CMmtree.combineOp flag)).1.lookup key =
      if key = s.key then mergeDatum flag (some old) (some s.data) else contents.lookup key := by
  unfold Contents.overwrite
  rw [mergeDatum_some]
  by_cases same : key = s.key
  · rw [if_pos same, same]
    cases combine (CMmtree.combineOp flag) old s.data with
    | none => exact found
    | some new => exact Finmap.lookup_insert contents
  · rw [if_neg same]
    cases combine (CMmtree.combineOp flag) old s.data with
    | none => rfl
    | some new => exact Finmap.lookup_insert_of_ne contents same

/-- The call merges one binding. -/
theorem lookup_combineCall :
    (contents.call (combineCall flag s)).1.lookup key =
      if key = s.key then mergeDatum flag (contents.lookup s.key) (some s.data)
      else contents.lookup key := by
  cases found : contents.lookup s.key with
  | some old =>
    rw [← lookup_overwrite found, combineCall]
    split <;> simp only [Contents.call, found]
  | none =>
    rw [mergeDatum_missing]
    by_cases adds : hasFlag flag MMT_KEY_ADD = true
    · simp only [combineCall_set adds, Contents.call, found, adds, if_true]
      by_cases same : key = s.key
      · rw [if_pos same, same, Finmap.lookup_insert]
      · rw [if_neg same, Finmap.lookup_insert_of_ne _ same]
    · simp only [combineCall_update adds, Contents.call, found]
      by_cases same : key = s.key
      · rw [if_pos same, if_neg adds, same]
        exact found
      · rw [if_neg same]

/-- Whether the call adds the key. -/
theorem adds_combineCall (wf : WellFormed t tree queue) (represents : Represents contents tree)
    (flag : BitVec 32) (s : Slot) :
    (combineCall flag s).adds t = true ↔
      hasFlag flag MMT_KEY_ADD = true ∧ contents.lookup s.key = none := by
  unfold combineCall
  split
  case isFalse stays => simp [Call.adds, stays]
  case isTrue adds =>
    rcases wf.search_spec s.key with ⟨frames, c, l, x, r, rfl, same, -, searched⟩ |
      ⟨frames, rfl, searched, below, above⟩
    · have found := WellFormed.lookup_found represents
      rw [same] at found
      simp [Call.adds, searched, found]
    · have missing := WellFormed.lookup_missing represents below above
      simp [Call.adds, searched, missing, adds]

/-- Whether the call divides the least `int` by -1. -/
theorem traps_combineCall (wf : WellFormed t tree queue) (mapped : t.mapped = true)
    (represents : Represents contents tree) (flag : BitVec 32) (s : Slot) :
    t.traps (combineCall flag s) =
      CMmtree.combineTraps flag (contents.lookup s.key) s.data := by
  -- both calls look for the key first, and only one that is there is divided
  have alike : t.traps (combineCall flag s) =
      t.traps (.update s.key s.data (CMmtree.combineOp flag)) := by
    unfold combineCall
    split <;> rfl
  rw [alike, CMmtree.traps, CMmtree.combineTraps]
  rcases wf.search_spec s.key with ⟨frames, c, l, x, r, rfl, same, -, searched⟩ |
    ⟨frames, rfl, searched, below, above⟩
  · have found := WellFormed.lookup_found represents
    have dataRead : (t.map x.id).data = x.data := by rw [wf.stored.here_node, cell_data]
    rw [same] at found
    simp [searched, found, wf.inited, mapped, dataRead]
  · have missing := WellFormed.lookup_missing represents below above
    simp [searched, missing]

theorem counters_updateNodeValue (t : CMmtree) (id : Nat) (data : Int32) (op : Int) :
    (t.updateNodeValue id data op).1.state.total = t.state.total ∧
      (t.updateNodeValue id data op).1.state.left = t.state.left := by
  unfold CMmtree.updateNodeValue
  dsimp only
  split <;> exact ⟨rfl, rfl⟩

theorem counters_insertNewNode {ok : Bool} {nodeId : Nat} {data : Int32} {ret : Int}
    (room : t.state.left ≠ 0) (called : t.insertNewNode ok nodeId key data = some (t', ret)) :
    t'.state.total = t.state.total ∧ t'.state.left = t.state.left - 1 := by
  have left : t.takeSlot.1.state.left = t.state.left := by
    unfold CMmtree.takeSlot
    split <;> rfl
  simp only [CMmtree.insertNewNode, if_neg room, ne_eq, not_true_eq_false, if_false] at called
  split at called
  · cases called
  · obtain ⟨rfl, -⟩ := Prod.mk.inj (Option.some.inj called)
    exact ⟨takeSlot_total t, by rw [← left]⟩

/-- A call with room for its key does not grow the array. -/
theorem counters_combineCall {ok : Bool} {reply : Reply} (wf : WellFormed t tree queue)
    (mapped : t.mapped = true) (room : (combineCall flag s).adds t = true → t.state.left ≠ 0)
    (called : t.call ok (combineCall flag s) = some (t', reply)) :
    t'.state.total = t.state.total ∧
      t'.state.left = t.state.left - if (combineCall flag s).adds t = true then 1 else 0 := by
  rcases wf.search_spec s.key with ⟨frames, c, l, x, r, rfl, same, -, searched⟩ |
    ⟨frames, rfl, searched, below, above⟩
  · have stays : (combineCall flag s).adds t = false := by
      unfold combineCall
      split <;> simp [Call.adds, searched]
    rw [stays]
    rw [← same] at searched
    have counters := counters_updateNodeValue t x.id s.data (CMmtree.combineOp flag)
    have result : t' = (t.updateNodeValue x.id s.data (CMmtree.combineOp flag)).1 := by
      unfold combineCall at called
      split at called
      · rw [← same, call_set_found wf mapped searched] at called
        exact (Prod.mk.inj (Option.some.inj called)).1.symm
      · rw [← same, call_update_found wf mapped searched] at called
        exact (Prod.mk.inj (Option.some.inj called)).1.symm
    rw [result, counters.1, counters.2]
    simp
  · by_cases adds : hasFlag flag MMT_KEY_ADD = true
    · rw [combineCall_set adds] at *
      have missing : (Call.set s.key s.data (CMmtree.combineOp flag)).adds t = true := by
        simp [Call.adds, searched]
      rw [missing]
      simp only [CMmtree.call, CMmtree.set, CMmtree.requireInited, CMmtree.requireMapped, wf.inited,
        mapped, searched, if_true, Option.map_eq_some_iff] at called
      obtain ⟨⟨done, ret⟩, added, same⟩ := called
      obtain ⟨rfl, -⟩ := Prod.mk.inj same
      split at added
      · obtain ⟨rfl, -⟩ := Prod.mk.inj (Option.some.inj added)
        exact ⟨rfl, rfl⟩
      · exact counters_insertNewNode (room missing) added
    · rw [combineCall_update adds] at *
      obtain ⟨msg, failed⟩ := call_update_missing wf mapped searched s.data
        (CMmtree.combineOp flag) ok
      rw [failed] at called
      obtain ⟨rfl, -⟩ := Prod.mk.inj (Option.some.inj called)
      simp [Call.adds, CMmtree.setErr]

/-- With a slot left, and for the first key a slot that was never used, a call finds its slot. -/
theorem WellFormed.inRange {call : Call} {ok : Bool} (wf : WellFormed t tree queue)
    (int : t.state.total < 2 ^ 31) (room : call.adds t = true → t.state.left ≠ 0)
    (rootFits : call.RootFits t) : call.InRange t ok := by
  intro adds
  have left := wf.left
  have bounded := wf.bounded
  have available := room adds
  unfold CMmtree.nextSlot CMmtree.capacity
  by_cases empty : t.state.rootId = 0
  · simp only [empty]
    exact ⟨rootFits adds empty, int⟩
  · simp only [empty, ne_eq, not_false_eq_true, true_and]
    split
    case isTrue queued =>
      obtain ⟨id, rest, rfl⟩ : ∃ id rest, queue = id :: rest := by
        cases queue with
        | nil =>
          rw [wf.queued.length] at queued
          cases queued
        | cons id rest => exact ⟨id, rest, rfl⟩
      have slot := wf.mem_slots.mp (.inr (List.mem_cons_self : id ∈ id :: rest))
      rw [wf.queued.first id rfl]
      omega
    case isFalse => omega

/-- An open object whose tree holds these bindings. -/
structure Holds (t : CMmtree) (contents : Contents) : Prop where
  mapped : t.mapped = true
  int : t.state.total < 2 ^ 31
  stored : ∃ tree queue, WellFormed t tree queue ∧ Represents contents tree

/-- The key of the call finds a slot, and its division does not trap. -/
structure Fits (t : CMmtree) (contents : Contents) (flag : BitVec 32) (s : Slot) : Prop where
  safe : CMmtree.combineTraps flag (contents.lookup s.key) s.data = false
  room : hasFlag flag MMT_KEY_ADD = true → contents.lookup s.key = none → t.state.left ≠ 0
  first : hasFlag flag MMT_KEY_ADD = true → t.state.rootId = 0 → t.state.current + 1 < t.state.total

/-- The callback merges one binding into the map. -/
theorem Holds.combineCb (holds : Holds t contents) (fits : Fits t contents flag s)
    (mmapOk : Int → Bool) :
    ∃ t', CMmtree.combineCb mmapOk flag s.key s.data t = some t' ∧
      Holds t' (contents.call (combineCall flag s)).1 ∧
      t'.state.left = t.state.left -
        if hasFlag flag MMT_KEY_ADD = true ∧ contents.lookup s.key = none then 1 else 0 := by
  obtain ⟨mapped, int, tree, queue, wf, represents⟩ := holds
  have addsIff := adds_combineCall wf represents flag s
  have safe := (traps_combineCall wf mapped represents flag s).trans fits.safe
  have room (adds : (combineCall flag s).adds t = true) : t.state.left ≠ 0 :=
    fits.room (addsIff.mp adds).1 (addsIff.mp adds).2
  have rootFits : (combineCall flag s).RootFits t := fun adds =>
    fits.first (addsIff.mp adds).1
  obtain ⟨t', reply, tree', queue', taken⟩ := wf.step (mmapOk s.key) (combineCall flag s) rootFits
  have inRange : (combineCall flag s).InRange t (mmapOk s.key) := wf.inRange int room rootFits
  obtain ⟨total, left⟩ := counters_combineCall wf mapped room taken.called
  refine ⟨t', ?_, ⟨taken.mapped mapped inRange, total ▸ int, tree', queue', taken.wellFormed,
    (taken.refines mapped inRange contents represents).1⟩, ?_⟩
  · rw [combineCb_eq, CMmtree.exec_of_not_traps _ safe, taken.called]
    rfl
  · rw [left]
    simp only [addsIff]

/-- What `get` finds is in the map. -/
theorem WellFormed.lookup_eq (wf : WellFormed t tree queue) (mapped : t.mapped = true)
    (represents : Represents contents tree) (key : Int) : t.lookup key = contents.lookup key := by
  obtain ⟨t', reply, tree', queue', taken⟩ := @step_get t tree queue key wf mapped true
  have inRange : (Call.get key).InRange t true := by simp [Call.InRange, Call.adds]
  have replied := (taken.refines mapped inRange contents represents).2
  have called := taken.called
  rw [CMmtree.call, Option.map_eq_some_iff] at called
  obtain ⟨⟨t'', ret, out⟩, got, same⟩ := called
  obtain ⟨-, rfl⟩ := Prod.mk.inj same
  rw [CMmtree.lookup, got]
  unfold Contents.call at replied
  cases found : contents.lookup key with
  | none =>
    simp only [found, Reply.mk.injEq] at replied
    rw [← replied.1]
    rfl
  | some data =>
    simp only [found, Reply.mk.injEq] at replied
    rw [← replied.1, ← replied.2]
    rfl

theorem Holds.lookup_eq (holds : Holds t contents) (key : Int) :
    t.lookup key = contents.lookup key := by
  obtain ⟨mapped, -, tree, queue, wf, represents⟩ := holds
  exact wf.lookup_eq mapped represents key

/-- A tree with a binding has a root. -/
theorem Holds.rootId_ne_zero {data : Int32} (holds : Holds t contents)
    (found : contents.lookup key = some data) : t.state.rootId ≠ 0 := by
  obtain ⟨-, -, tree, queue, wf, represents⟩ := holds
  rw [wf.stored.rootEq, ne_eq, rootId_eq_zero wf.stored.layout]
  rintro rfl
  obtain ⟨id, member⟩ := (represents key data).mp found
  cases member

/-- The bindings of the tree. -/
theorem WellFormed.represents (wf : WellFormed t tree queue) :
    Represents (contentsOf tree.toList) tree := fun _ _ =>
  lookup_contentsOf (wf.sorted.imp fun less => less.ne)

/-! ## The walk -/

/-- How many items have keys that the map does not have. -/
def newKeys (contents : Contents) (items : List Slot) : Nat :=
  items.countP fun s => contents.lookup s.key = none

/-- The object before the callback has run over some items with different keys, for which there is
room. -/
structure Walks (t : CMmtree) (contents : Contents) (flag : BitVec 32) (items : List Slot) :
    Prop where
  holds : Holds t contents
  distinct : (items.map Slot.key).Nodup
  room : hasFlag flag MMT_KEY_ADD = true → newKeys contents items ≤ t.state.left
  first : hasFlag flag MMT_KEY_ADD = true → items ≠ [] → t.state.rootId = 0 →
    t.state.current + 1 < t.state.total

namespace Walks

variable {items : List Slot}

/-- The keys still to come are different. -/
theorem apart (walks : Walks t contents flag (s :: items)) :
    ∀ s' ∈ items, s'.key ≠ s.key := fun s' member same => by
  have distinct := walks.distinct
  rw [List.map_cons, List.nodup_cons] at distinct
  exact distinct.1 (same ▸ List.mem_map_of_mem member)

/-- One item leaves the bindings of the later ones and the room for them. -/
theorem step (walks : Walks t contents flag (s :: items))
    (safe : CMmtree.combineTraps flag (contents.lookup s.key) s.data = false)
    (mmapOk : Int → Bool) :
    ∃ t', CMmtree.combineCb mmapOk flag s.key s.data t = some t' ∧
      Walks t' (contents.call (combineCall flag s)).1 flag items ∧
      ∀ s' ∈ items, (contents.call (combineCall flag s)).1.lookup s'.key =
        contents.lookup s'.key := by
  have fits : Fits t contents flag s := by
    refine ⟨safe, fun adds missing => ?_, fun adds => walks.first adds (by simp)⟩
    have enough := walks.room adds
    rw [newKeys, List.countP_cons_of_pos (by simpa using missing)] at enough
    omega
  obtain ⟨t₁, called, holds₁, left⟩ := walks.holds.combineCb fits mmapOk
  have others (s' : Slot) (member : s' ∈ items) :
      (contents.call (combineCall flag s)).1.lookup s'.key = contents.lookup s'.key := by
    rw [lookup_combineCall, if_neg (walks.apart s' member)]
  have fewer : newKeys (contents.call (combineCall flag s)).1 items = newKeys contents items := by
    apply List.countP_congr
    intro s' member
    rw [others s' member]
  refine ⟨t₁, called, ⟨holds₁, (List.nodup_cons.mp walks.distinct).2, fun adds => ?_,
    fun adds _ empty => ?_⟩, others⟩
  · have enough := walks.room adds
    rw [newKeys, List.countP_cons] at enough
    rw [fewer, left, newKeys]
    by_cases missing : contents.lookup s.key = none
    · simp only [missing, if_true, decide_true] at enough ⊢
      omega
    · simp only [missing] at enough ⊢
      simpa using enough
  · have added : ((contents.call (combineCall flag s)).1.lookup s.key).isSome := by
      rw [lookup_combineCall, if_pos rfl]
      cases contents.lookup s.key with
      | none => simp [mergeDatum_missing, adds]
      | some old => rfl
    obtain ⟨data, found⟩ := Option.isSome_iff_exists.mp added
    exact absurd empty (holds₁.rootId_ne_zero found)

/-- Without a trapping division the callback merges the bindings of the items into the map. -/
theorem foldlM (walks : Walks t contents flag items)
    (safe : ∀ s ∈ items,
      CMmtree.combineTraps flag (contents.lookup s.key) s.data = false)
    (mmapOk : Int → Bool) :
    ∃ t' contents', items.foldlM (fun t s => CMmtree.combineCb mmapOk flag s.key s.data t) t =
        some t' ∧ Holds t' contents' ∧
      ∀ key, contents'.lookup key =
        mergeDatum flag (contents.lookup key) ((contentsOf items).lookup key) := by
  induction items generalizing t contents with
  | nil => exact ⟨t, contents, rfl, walks.holds, fun key => by simp⟩
  | cons s items ih =>
    obtain ⟨t₁, called, walks₁, others⟩ := walks.step (safe s List.mem_cons_self) mmapOk
    obtain ⟨t', contents', folded, holds', merged⟩ := ih walks₁ fun s' member => by
      rw [others s' member]
      exact safe s' (List.mem_cons_of_mem _ member)
    refine ⟨t', contents', ?_, holds', fun key => ?_⟩
    · rw [List.foldlM_cons, called]
      exact folded
    · rw [merged, lookup_contentsOf_cons, lookup_combineCall]
      by_cases same : key = s.key
      · subst same
        have absent : (contentsOf items).lookup s.key = none :=
          lookup_contentsOf_of_ne walks.apart
        rw [if_pos rfl, if_pos rfl, absent, mergeDatum_none_right]
      · simp only [same, if_false]

/-- The callback dies of a division that traps, whichever item it is. -/
theorem foldlM_eq_none (walks : Walks t contents flag items) (member : s ∈ items)
    (traps : CMmtree.combineTraps flag (contents.lookup s.key) s.data = true)
    (mmapOk : Int → Bool) :
    items.foldlM (fun t s => CMmtree.combineCb mmapOk flag s.key s.data t) t = none := by
  induction items generalizing t contents with
  | nil => cases member
  | cons s' items ih =>
    rw [List.foldlM_cons]
    cases here : CMmtree.combineTraps flag (contents.lookup s'.key) s'.data with
    | true =>
      obtain ⟨mapped, -, tree, queue, wf, represents⟩ := walks.holds
      rw [combineCb_eq, CMmtree.exec,
        if_pos ((traps_combineCall wf mapped represents flag s').trans here)]
      rfl
    | false =>
      obtain ⟨t₁, called, walks₁, others⟩ := walks.step here mmapOk
      have later : s ∈ items := by
        rcases List.mem_cons.mp member with rfl | later
        · rw [here] at traps
          cases traps
        · exact later
      rw [called]
      exact ih walks₁ later (by rw [others s later, traps])

end Walks

end OneKey

/-! ## A root behind the array -/

/-- The root has the slot behind the mapped ones: no search finds anything. -/
structure Overrun (t : CMmtree) : Prop where
  inited : t.inited = true
  mapped : t.mapped = true
  root : t.state.rootId = t.state.total
  positive : 0 < t.state.total
  rootBlack : (t.map t.state.total).color = black
  past : t.state.total ≤ t.state.current
  queued : ∃ queue, Queued t queue ∧ queue.Nodup ∧ ∀ id ∈ queue, id ≠ t.state.total

namespace Overrun

variable {t : CMmtree}

/-- In a tree that is overrun no key is found. -/
theorem search_eq (overrun : Overrun t) (key : Int) :
    t.search key = some (.missing t.state.total) := by
  have positive := overrun.positive
  rw [CMmtree.search, overrun.root]
  cases total : t.state.total with
  | zero => omega
  | succ n => simp [CMmtree.searchLoop]

/-- `get` finds nothing. -/
theorem lookup_eq (overrun : Overrun t) (key : Int) : t.lookup key = none := by
  simp [CMmtree.lookup, CMmtree.get, CMmtree.requireInited, CMmtree.requireMapped,
    overrun.inited, overrun.mapped, overrun.search_eq]

/-- The slot a further key takes is not that of the root. -/
theorem takeSlot (overrun : Overrun t) :
    t.takeSlot.2 ≠ t.state.total ∧ t.state.total ≤ t.takeSlot.1.state.current ∧
      ∃ queue, Queued t.takeSlot.1 queue ∧ queue.Nodup ∧ t.takeSlot.2 ∉ queue ∧
        ∀ id ∈ queue, id ≠ t.state.total := by
  obtain ⟨queue, queued, distinct, apart⟩ := overrun.queued
  have past := overrun.past
  have length := queued.length
  unfold CMmtree.takeSlot
  cases queue with
  | nil =>
    rw [List.length_nil] at length
    rw [if_neg (by omega)]
    refine ⟨by dsimp only; omega, by dsimp only; omega, [], ?_, .nil, by simp, by simp⟩
    exact queued.frame (fun _ _ => rfl) rfl rfl rfl
  | cons id rest =>
    rw [List.length_cons] at length
    rw [if_pos (by omega)]
    have first := queued.first id rfl
    rw [List.nodup_cons] at distinct
    refine ⟨first ▸ apart id List.mem_cons_self, past, rest, queued.tail, distinct.2, ?_, ?_⟩
    · exact first ▸ distinct.1
    · exact fun other member => apart other (List.mem_cons_of_mem _ member)

/-- A new node is red below a black root: nothing is turned. -/
theorem insertColor (overrun : Overrun t) {id : Nat} (apart : id ≠ t.state.total) (key : Int)
    (data : Int32) :
    mmtreeInsertColor t.state.total (linkNewNode t.map t.state.total id key data) t.state.total
        id = some ((linkNewNode t.map t.state.total id key data).setColor t.state.total black,
      t.state.total) := by
  have positive := overrun.positive
  have parentRead : ((linkNewNode t.map t.state.total id key data) id).parent =
      t.state.total := by
    simp only [linkNewNode, NodeMap.setColor, NodeMap.setChild, NodeMap.modify_same,
      NodeMap.modify_of_ne _ _ apart]
    rfl
  have colorRead : ((linkNewNode t.map t.state.total id key data) t.state.total).color = black := by
    simp only [linkNewNode, NodeMap.setColor, NodeMap.setChild, NodeMap.modify_same,
      NodeMap.modify_of_ne _ _ apart.symm]
    rw [← overrun.rootBlack]
    split <;> rfl
  generalize linkNewNode t.map t.state.total id key data = m at parentRead colorRead ⊢
  obtain ⟨fuel, total⟩ : ∃ n, t.state.total = n + 1 := ⟨t.state.total - 1, by omega⟩
  have stops : insertColorLoop t.state.total m t.state.total id = some (m, t.state.total) := by
    rw [total, insertColorLoop, if_neg]
    rw [parentRead, colorRead]
    exact fun goesOn => absurd goesOn.2 (by decide)
  rw [mmtreeInsertColor, stops]
  simp [positive]

/-- A further key goes below the root, and the root stays where it is. -/
theorem set (overrun : Overrun t) (room : t.state.left ≠ 0) (mmapOk : Int → Bool) (key : Int)
    (data : Int32) (op : Int) :
    ∃ t', CMmtree.setCb mmapOk op key data t = some t' ∧ Overrun t' ∧
      t'.state.left = t.state.left - 1 := by
  have safe : t.traps (.set key data op) = false := by
    simp [CMmtree.traps, overrun.search_eq]
  obtain ⟨slotApart, past, queue, queued, distinct, fresh, apart⟩ := overrun.takeSlot
  have nonempty : t.state.total ≠ 0 := overrun.positive.ne'
  have left : t.takeSlot.1.state.left = t.state.left := by
    unfold CMmtree.takeSlot
    split <;> rfl
  have colored := overrun.insertColor slotApart key data
  refine ⟨{ t.takeSlot.1 with
      state := { t.takeSlot.1.state with
        rootId := t.state.total
        left := t.takeSlot.1.state.left - 1
        nonzero := t.takeSlot.1.state.nonzero + (if data ≠ 0 then 1 else 0) }
      map := (linkNewNode t.map t.state.total t.takeSlot.2 key data).setColor
        t.state.total black }, ?_, ?_, ?_⟩
  · rw [linkNewNode] at colored
    rw [CMmtree.setCb, CMmtree.exec_of_not_traps _ safe]
    simp only [CMmtree.call, CMmtree.set, CMmtree.requireInited, CMmtree.requireMapped,
      overrun.inited, overrun.mapped, overrun.search_eq, nonempty, if_false, CMmtree.insertNewNode,
      room, takeSlot_map, takeSlot_total, takeSlot_rootId, overrun.root,
      colored]
    rfl
  · refine ⟨by simpa using overrun.inited, by simpa using overrun.mapped, by simp,
      by simpa using overrun.positive, ?_, by simpa using past, queue, ?_, distinct,
      by simpa using apart⟩
    · simp [NodeMap.setColor, MtNode.setColor]
    · refine queued.frame (fun id member => ?_) rfl rfl rfl
      have notRoot := apart id member
      have notSlot : id ≠ t.takeSlot.2 := fun same => fresh (same ▸ member)
      simp only [linkNewNode, NodeMap.setColor, NodeMap.setChild, takeSlot_map,
        NodeMap.modify_of_ne _ _ notRoot, NodeMap.modify_of_ne _ _ notSlot]
  · simp only [left]

/-- Further keys change nothing of this. -/
theorem foldlM (overrun : Overrun t) (items : List Slot)
    (room : (items.length : Int) ≤ t.state.left) (mmapOk : Int → Bool) (op : Int) :
    ∃ t', items.foldlM (fun t s => CMmtree.setCb mmapOk op s.key s.data t) t = some t' ∧
      Overrun t' := by
  induction items generalizing t with
  | nil => exact ⟨t, rfl, overrun⟩
  | cons s items ih =>
    rw [List.length_cons] at room
    obtain ⟨t₁, called, overrun₁, left⟩ := overrun.set (by omega) mmapOk s.key s.data op
    obtain ⟨t', folded, overrun'⟩ := ih overrun₁ (by omega)
    refine ⟨t', ?_, overrun'⟩
    rw [List.foldlM_cons, called]
    exact folded

end Overrun

/-- The first key of an emptied tree without a slot that was never used. -/
theorem WellFormed.overrun {t : CMmtree} {queue : List Nat} (wf : WellFormed t .nil queue)
    (mapped : t.mapped = true) (full : t.state.total ≤ t.state.current + 1) (key : Int)
    (data : Int32) : Overrun (t.insertRootNode key data) := by
  have bounded := wf.bounded
  have last : t.state.current + 1 = t.state.total := by omega
  have inQueue (id : Nat) (member : id ∈ queue) : id ≠ t.state.total := by
    have slot := wf.mem_slots.mp (.inr member)
    omega
  refine ⟨wf.inited, mapped, last, by simp only [CMmtree.insertRootNode]; omega, ?_,
    by simp only [CMmtree.insertRootNode]; omega, queue, ?_, ?_, inQueue⟩
  · simp [CMmtree.insertRootNode, last, MtNode.zero]
  · refine wf.queued.frame (fun id member => ?_) rfl rfl rfl
    exact insertRootNode_map_of_ne t key data (last ▸ inQueue id member)
  · have distinct := wf.slots.nodup_iff.mpr List.nodup_range'
    exact (List.nodup_append.mp distinct).2.1

/-- In an emptied tree without a slot that was never used the callback loses all the keys. -/
theorem WellFormed.foldlM_overrun {t : CMmtree} {queue : List Nat} {flag : BitVec 32}
    (wf : WellFormed t .nil queue) (mapped : t.mapped = true)
    (full : t.state.total ≤ t.state.current + 1) (adds : hasFlag flag MMT_KEY_ADD = true)
    (s : Slot) (items : List Slot) (room : (items.length : Int) ≤ t.state.left - 1)
    (mmapOk : Int → Bool) :
    ∃ t', (s :: items).foldlM (fun t s => CMmtree.combineCb mmapOk flag s.key s.data t) t =
      some t' ∧ ∀ key, t'.lookup key = none := by
  have empty : t.state.rootId = 0 := wf.stored.rootEq
  have searched : t.search s.key = some (.missing 0) := by
    obtain ⟨fuel, total⟩ : ∃ n, t.state.total = n + 1 :=
      ⟨t.state.total - 1, by have := wf.bounded; omega⟩
    simp [CMmtree.search, total, empty, CMmtree.searchLoop]
  have first : CMmtree.combineCb mmapOk flag s.key s.data t =
      some (t.insertRootNode s.key s.data) := by
    rw [CMmtree.combineCb, if_pos adds, CMmtree.setCb,
      CMmtree.exec_of_not_traps _ (by simp [CMmtree.traps, searched])]
    simp [CMmtree.call, CMmtree.set, CMmtree.requireInited, CMmtree.requireMapped, wf.inited,
      mapped, empty]
  obtain ⟨last, later, overrun⟩ := (wf.overrun mapped full s.key s.data).foldlM items room mmapOk
    (CMmtree.combineOp flag)
  refine ⟨last, ?_, overrun.lookup_eq⟩
  rw [List.foldlM_cons, first, Option.bind_eq_bind, Option.bind_some]
  simpa only [CMmtree.combineCb, if_pos adds] using later

/-! ## The whole call -/

/-- The first key goes to the slot behind the array. -/
def Overruns (flag : BitVec 32) (t source : CMmtree) : Prop :=
  hasFlag flag MMT_KEY_ADD = true ∧ t.state.rootId = 0 ∧ t.state.total ≤ t.state.current + 1 ∧
    source.state.rootId ≠ 0

instance (flag : BitVec 32) (t source : CMmtree) : Decidable (Overruns flag t source) :=
  inferInstanceAs (Decidable (_ ∧ _))

section Whole

variable {t source : CMmtree} {tree tree' : RBNode Slot} {queue queue' : List Nat}

/-- `combine_tree` walks the other tree with its callback. -/
theorem combineTree_eq (wf : WellFormed t tree queue) (wf' : WellFormed source tree' queue')
    (mapped' : source.mapped = true) (mmapOk : Int → Bool) (file : String) (flag : BitVec 32) :
    ∃ t₁, (t₁ = t ∨ ∃ msg, t₁ = t.setErr MMT_IFACE_EOP msg) ∧
      t.combineTree mmapOk file (.opened source) flag =
        (tree'.toList.foldlM (fun t s => CMmtree.combineCb mmapOk flag s.key s.data t) t₁).map
          fun t' => (t', some source, 0) := by
  have walk (t₁ : CMmtree) :
      (do
        let (source, ret, t) ← source.traversal (CMmtree.combineCb mmapOk flag) t₁
        some (t, some source, if ret ≠ 0 then (-1 : Int) else 0)) =
      (tree'.toList.foldlM (fun t s => CMmtree.combineCb mmapOk flag s.key s.data t) t₁).map
          fun t' => (t', some source, 0) := by
    rw [wf'.ordered.traversal_spec _ wf'.inited mapped']
    cases tree'.toList.foldlM (fun t s => CMmtree.combineCb mmapOk flag s.key s.data t) t₁ <;> rfl
  unfold CMmtree.combineTree CMmtree.requireInited
  rw [if_pos wf.inited]
  dsimp only
  by_cases invalid : CMmtree.combineOp flag = 0
  · rw [if_pos invalid]
    exact ⟨_, .inr ⟨_, rfl⟩, walk _⟩
  · rw [if_neg invalid]
    exact ⟨t, .inl rfl, walk t⟩

/-- A common key has the least `int` here and -1 there, and the one is divided by the other. -/
def Divides (flag : BitVec 32) (t source : CMmtree) : Prop :=
  ∃ key data, source.lookup key = some data ∧
    CMmtree.combineTraps flag (t.lookup key) data = true

/-- `combine_tree` merges the maps pointwise and leaves the other object as it is, unless it puts
the first key of an emptied tree behind the array or makes a division that traps. -/
theorem combineTree_merges_iff (wf : WellFormed t tree queue) (mapped : t.mapped = true)
    (int : t.state.total < 2 ^ 31) (wf' : WellFormed source tree' queue')
    (mapped' : source.mapped = true) (mmapOk : Int → Bool) (file : String) (flag : BitVec 32)
    (room : hasFlag flag MMT_KEY_ADD = true →
      (tree'.toList.countP fun s => t.lookup s.key = none) ≤ t.state.left) :
    (∃ t', t.combineTree mmapOk file (.opened source) flag = some (t', some source, 0) ∧
        ∀ key, t'.lookup key = mergeDatum flag (t.lookup key) (source.lookup key)) ↔
      ¬Overruns flag t source ∧ ¬Divides flag t source := by
  obtain ⟨t₁, error, combined⟩ := combineTree_eq wf wf' mapped' mmapOk file flag
  have wf₁ : WellFormed t₁ tree queue := by
    rcases error with rfl | ⟨msg, rfl⟩
    · exact wf
    · exact wf.setErr _ _
  obtain ⟨state, mapped₁⟩ : t₁.state = t.state ∧ t₁.mapped = true := by
    rcases error with rfl | ⟨msg, rfl⟩ <;> exact ⟨rfl, mapped⟩
  have source_eq (key : Int) := wf'.lookup_eq mapped' wf'.represents key
  have dest_eq (key : Int) := wf.lookup_eq mapped wf.represents key
  have sourceRoot : source.state.rootId ≠ 0 ↔ tree'.toList ≠ [] := by
    rw [wf'.stored.rootEq, ne_eq, rootId_eq_zero wf'.stored.layout]
    cases tree' <;> simp
  simp only [dest_eq] at room
  rw [combined]
  have walks (fits : ¬Overruns flag t source) :
      Walks t₁ (contentsOf tree.toList) flag tree'.toList := by
    refine ⟨⟨mapped₁, state ▸ int, tree, queue, wf₁, wf.represents⟩,
      wf'.sorted.imp fun less => less.ne, state ▸ room, fun adds some empty => ?_⟩
    rw [state] at empty ⊢
    by_contra full
    exact fits ⟨adds, empty, by omega, sourceRoot.mpr some⟩
  constructor
  · rintro ⟨t', result, merged⟩
    obtain ⟨t'', folded, same⟩ := Option.map_eq_some_iff.mp result
    obtain ⟨rfl, -⟩ := Prod.mk.inj same
    have fits : ¬Overruns flag t source := by
      rintro ⟨adds, empty, full, some⟩
      obtain rfl : tree = .nil := by
        rwa [wf.stored.rootEq, rootId_eq_zero wf.stored.layout] at empty
      obtain ⟨s, items, split⟩ := List.exists_cons_of_ne_nil (sourceRoot.mp some)
      have enough := room adds
      have allNew : (tree'.toList.countP fun s =>
          (contentsOf RBNode.nil.toList).lookup s.key = none) = tree'.toList.length := by
        simp
      rw [allNew, split, List.length_cons, ← state] at enough
      obtain ⟨last, later, nothing⟩ := wf₁.foldlM_overrun mapped₁ (state ▸ full) adds s items
        (by omega) mmapOk
      rw [split, later] at folded
      obtain rfl := Option.some.inj folded
      have here := merged s.key
      rw [nothing, source_eq, split, lookup_contentsOf_cons, if_pos rfl, dest_eq,
        toList_nil, lookup_contentsOf_nil, mergeDatum_missing, if_pos adds] at here
      cases here
    refine ⟨fits, ?_⟩
    rintro ⟨key, data, found, traps⟩
    rw [source_eq] at found
    rw [dest_eq] at traps
    obtain ⟨id, member⟩ := (wf'.represents key data).mp found
    rw [(walks fits).foldlM_eq_none member traps] at folded
    cases folded
  · rintro ⟨fits, divides⟩
    obtain ⟨t', contents', folded, holds', merged⟩ :=
      (walks fits).foldlM (fun s member => Bool.eq_false_iff.mpr fun traps =>
        divides ⟨s.key, s.data, by rw [source_eq, wf'.represents]; exact ⟨s.id, member⟩,
          by rw [dest_eq, traps]⟩) mmapOk
    refine ⟨t', by rw [folded]; rfl, fun key => ?_⟩
    rw [holds'.lookup_eq, merged, dest_eq, source_eq]

end Whole

/-- Two trees with a key in common: the data are added. -/
theorem combineTree_merges_iff_two :
    ∃ t replies source replies',
      CMmtree.initNewFile.run [(.insert 1 5, true), (.insert 2 6, true)] = some (t, replies) ∧
      CMmtree.initNewFile.run [(.insert 2 7, true), (.insert 3 8, true)] = some (source, replies') ∧
      ∃ t', t.combineTree (fun _ => true) "second" (.opened source) (MMT_KEY_ADD ||| MMT_DATA_ADD) =
          some (t', some source, 0) ∧
        ∀ key, t'.lookup key =
          mergeDatum (MMT_KEY_ADD ||| MMT_DATA_ADD) (t.lookup key) (source.lookup key) := by
  obtain ⟨t, replies, tree, queue, ran, wf⟩ := wellFormed_of_slotFits
    [(.insert 1 5, true), (.insert 2 6, true)] (by decide +kernel)
  obtain ⟨source, replies', tree', queue', ran', wf'⟩ := wellFormed_of_slotFits
    [(.insert 2 7, true), (.insert 3 8, true)] (by decide +kernel)
  have reached : (CMmtree.initNewFile.run [(.insert 1 5, true), (.insert 2 6, true)]).map
      (fun result => (result.1.mapped, result.1.state.total, result.1.state.rootId,
        result.1.state.left)) = some (true, 100, 1, 97) := by
    decide +kernel
  have reached' : (CMmtree.initNewFile.run [(.insert 2 7, true), (.insert 3 8, true)]).map
      (fun result => (result.1.mapped, result.1.tree.toList.length)) = some (true, 2) := by
    decide +kernel
  rw [ran] at reached
  rw [ran'] at reached'
  simp only [Option.map_some, Option.some.injEq, Prod.mk.injEq] at reached reached'
  obtain ⟨mapped, total, root, left⟩ := reached
  obtain ⟨mapped', length⟩ := reached'
  rw [wf'.tree_eq] at length
  refine ⟨t, replies, source, replies', ran, ran', ?_⟩
  have merges := combineTree_merges_iff wf mapped (by omega) wf' mapped' (fun _ => true) "second"
    (MMT_KEY_ADD ||| MMT_DATA_ADD)
  refine (merges ?_).mpr ?_
  · intro _
    have fewer := List.countP_le_length (p := fun s => t.lookup s.key = none) (l := tree'.toList)
    omega
  · refine ⟨?_, ?_⟩
    · rintro ⟨-, empty, -⟩
      omega
    · rintro ⟨key, data, -, traps⟩
      have safe (old : Option Int32) :
          CMmtree.combineTraps (MMT_KEY_ADD ||| MMT_DATA_ADD) old data = false := by
        cases old <;> rfl
      rw [safe] at traps
      cases traps

/-- After 99 pairs of an insertion and a removal all 99 nodes are free, and none was never used: the
key of the other tree goes to slot 100 of 100 and is not found. -/
theorem combined_key_lost :
    ∃ t replies source replies',
      CMmtree.initNewFile.run
          (List.replicate 99 [(Call.insert 1 5, true), (Call.remove 1, true)]).flatten =
        some (t, replies) ∧
      CMmtree.initNewFile.run [(.insert 2 7, true)] = some (source, replies') ∧
      t.state.left = 99 ∧
      ¬∃ t', t.combineTree (fun _ => true) "second" (.opened source)
          (MMT_KEY_ADD ||| MMT_DATA_ADD) = some (t', some source, 0) ∧
        ∀ key, t'.lookup key =
          mergeDatum (MMT_KEY_ADD ||| MMT_DATA_ADD) (t.lookup key) (source.lookup key) := by
  have computed : (CMmtree.initNewFile.run
      (List.replicate 99 [(Call.insert 1 5, true), (Call.remove 1, true)]).flatten).bind
      (fun first => (CMmtree.initNewFile.run [(.insert 2 7, true)]).map fun second =>
        (first.1.state.left, first.1.lookup 2, second.1.lookup 2,
          (first.1.combineTree (fun _ => true) "second" (.opened second.1)
            (MMT_KEY_ADD ||| MMT_DATA_ADD)).map fun result => result.1.lookup 2)) =
      some (99, none, some 7, some none) := by
    decide +kernel
  obtain ⟨⟨t, replies⟩, ran, rest⟩ := Option.bind_eq_some_iff.mp computed
  obtain ⟨⟨source, replies'⟩, ran', result⟩ := Option.map_eq_some_iff.mp rest
  simp only [Prod.mk.injEq] at result
  obtain ⟨left, dest, found, missed⟩ := result
  refine ⟨t, replies, source, replies', ran, ran', left, ?_⟩
  rintro ⟨t', combined, merged⟩
  rw [combined, Option.map_some, Option.some.injEq] at missed
  have here := merged 2
  rw [missed, dest, found] at here
  revert here
  decide

end Taomee.Mmtree
