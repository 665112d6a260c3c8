import Mathlib.Algebra.Order.Ring.Int
import Mathlib.Data.List.Nodup
import Taomee.Library.ChoiceTable

/-!
# anticheat: the hash table of several rows

A key has one slot in each row, by the row's own modulus. The nodes lie row after row in one
area of memory; what a node holds, and how its key is compared, is the user's. Addresses of
the area do not wrap; the count of nodes is taken modulo `2 ^ 32`.
-/

namespace Taomee.Anticheat

abbrev Addr := Nat

def hashMaxRow : Nat := 100

/-- A `uint32_t`. -/
def uint32 (n : Nat) : Nat := n % 2 ^ 32

/-- `hash_table_t`, without the comparison. -/
structure HashTable where
  table : Addr
  nodeSize : Nat
  totalNodeNum : Nat
  rowNum : Nat
  nodesNum : Nat → Nat
  mods : Nat → Nat
  rowNodesSize : Nat → Nat
  rowStarts : Nat → Addr

/-- One turn of the loop of `hash_table_init`. -/
def initRow (nodesNum mods : Nat → Nat) (progress : HashTable × Nat) (i : Nat) :
    Option (HashTable × Nat) :=
  let (h, count) := progress
  if mods i > nodesNum i then none
  else if nodesNum i = 0 then none
  else if mods i = 0 then none
  else
    let row := if i = 0 then h.table else h.rowStarts (i - 1) + h.rowNodesSize (i - 1)
    some
      ({ h with
          nodesNum := Function.update h.nodesNum i (nodesNum i)
          mods := Function.update h.mods i (mods i)
          rowNodesSize := Function.update h.rowNodesSize i (h.nodeSize * nodesNum i)
          rowStarts := Function.update h.rowStarts i row },
        uint32 (count + nodesNum i))

/-- `none` is the result `-1`. The comparison passed to it is not null. -/
def hashTableInit (hashTable : HashTable) (table tableSize nodeSize rowNum : Nat)
    (nodesNum mods : Nat → Nat) : Option HashTable :=
  if table = 0 then none
  else if nodeSize = 0 then none
  else if rowNum = 0 then none
  else if rowNum > hashMaxRow then none
  else do
    let (h, count) ← (List.range rowNum).foldlM (initRow nodesNum mods)
      ({ hashTable with table, nodeSize, rowNum }, 0)
    if tableSize ≠ nodeSize * count then none else some { h with totalNodeNum := count }

/-- Where the node of a row and a column lies. -/
def nodeAt (h : HashTable) (row col : Nat) : Addr := h.rowStarts row + h.nodeSize * col

/-- A null result is `none`. -/
def hashTableGetNode (h : HashTable) (rowIdx colIdx : Nat) : Option Addr :=
  if rowIdx ≥ h.rowNum ∨ colIdx ≥ h.nodesNum rowIdx then none else some (nodeAt h rowIdx colIdx)

/-- The node, and the indices moved on to the next one. -/
def hashTableWalk (h : HashTable) (rowIdx colIdx : Nat) : Option (Addr × Nat × Nat) :=
  match hashTableGetNode h rowIdx colIdx with
  | none => none
  | some node =>
    if colIdx + 1 ≥ h.nodesNum rowIdx then some (node, rowIdx + 1, 0)
    else some (node, rowIdx, colIdx + 1)

/-- What the user of a table brings: how a key is compared with a node's own key, the key that
marks a free node, and the number a key is hashed by. -/
structure Usage (Key Node : Type) where
  compare : Key → Node → Int
  keyOf : Node → Key
  emptyKey : Key
  shortKey : Key → Nat
  compare_eq_zero : ∀ key node, compare key node = 0 ↔ keyOf node = key

section Lookup

variable {Key Node : Type} (usage : Usage Key Node) (h : HashTable) (nodes : Addr → Node)
  (key : Key)

/-- The column of a key in a row. -/
def column (row : Nat) : Nat := usage.shortKey key % h.mods row

/-- The slot of a key in a row. -/
def slot (row : Nat) : Addr := nodeAt h row (column usage h key row)

def lookupNodeRows : List Nat → Option Addr
  | [] => none
  | i :: rest =>
    let node := slot usage h key i
    if usage.compare key (nodes node) = 0 then some node else lookupNodeRows rest

def hashTableLookupNode : Option Addr :=
  lookupNodeRows usage h nodes key (List.range h.rowNum)

/-- The rest of the loop, with the `empty_node` found before. `exist` is what the pointer of
that name points to, none for a null pointer. -/
def lookupNodeExRows (exist : Option Int) : List Nat → Option Addr → Option Addr × Option Int
  | [], emptyNode => (emptyNode, exist)
  | i :: rest, emptyNode =>
    let node := slot usage h key i
    if usage.compare key (nodes node) = 0 then (some node, exist.map fun _ => 1)
    else if emptyNode = none ∧ usage.compare usage.emptyKey (nodes node) = 0 then
      lookupNodeExRows exist rest (some node)
    else lookupNodeExRows exist rest emptyNode

def hashTableLookupNodeEx (exist : Option Int) : Option Addr × Option Int :=
  lookupNodeExRows usage h nodes key exist (List.range h.rowNum) none

/-- What the variant with positions leaves in its results. -/
structure PosInfo where
  node : Option Addr
  exist : Option Int
  rowIdx : Nat
  colIdx : Nat

def lookupNodeExPosRows (exist : Option Int) : List Nat → Option Addr → Nat → Nat → PosInfo
  | [], emptyNode, erow, ecol => { node := emptyNode, exist, rowIdx := erow, colIdx := ecol }
  | i :: rest, emptyNode, erow, ecol =>
    let col := column usage h key i
    let node := slot usage h key i
    if usage.compare key (nodes node) = 0 then
      { node := some node, exist := exist.map fun _ => 1, rowIdx := i, colIdx := col }
    else if emptyNode = none ∧ usage.compare usage.emptyKey (nodes node) = 0 then
      lookupNodeExPosRows exist rest (some node) i col
    else lookupNodeExPosRows exist rest emptyNode erow ecol

/-- `erow` and `ecol` are what the two variables happen to hold at the start. -/
def hashTableLookupNodeExPosinfo (exist : Option Int) (erow ecol : Nat) : PosInfo :=
  lookupNodeExPosRows usage h nodes key exist (List.range h.rowNum) none erow ecol

end Lookup

/-! ## The layout -/

/-- What `hash_table_init` establishes when it succeeds. -/
structure Ready (h : HashTable) : Prop where
  sized : 0 < h.nodeSize
  modsPositive : ∀ row < h.rowNum, 0 < h.mods row
  modsFit : ∀ row < h.rowNum, h.mods row ≤ h.nodesNum row
  starts : ∀ row, row + 1 < h.rowNum →
    h.rowStarts (row + 1) = h.rowStarts row + h.nodeSize * h.nodesNum row

/-- The table has the rows that it was asked for, from the start of its memory on. -/
structure Configured (h : HashTable) (table nodeSize rowNum : Nat) (nodesNum mods : Nat → Nat) :
    Prop where
  memory : h.table = table
  size : h.nodeSize = nodeSize
  number : h.rowNum = rowNum
  columns : ∀ row < rowNum, h.nodesNum row = nodesNum row
  divisors : ∀ row < rowNum, h.mods row = mods row
  first : h.rowStarts 0 = table

/-- What holds of the rows already set up. -/
structure RowsReady (nodesNum mods : Nat → Nat) (h : HashTable) (rows : Nat) : Prop where
  columns : ∀ row < rows, h.nodesNum row = nodesNum row
  divisors : ∀ row < rows, h.mods row = mods row
  first : 0 < rows → h.rowStarts 0 = h.table
  modsPositive : ∀ row < rows, 0 < h.mods row
  modsFit : ∀ row < rows, h.mods row ≤ h.nodesNum row
  sizes : ∀ row < rows, h.rowNodesSize row = h.nodeSize * h.nodesNum row
  starts : ∀ row, row + 1 < rows →
    h.rowStarts (row + 1) = h.rowStarts row + h.nodeSize * h.nodesNum row

theorem RowsReady.initRow {nodesNum mods : Nat → Nat} {h h' : HashTable} {count count' i : Nat}
    (ready : RowsReady nodesNum mods h i)
    (set : initRow nodesNum mods (h, count) i = some (h', count')) :
    RowsReady nodesNum mods h' (i + 1) ∧ h'.table = h.table ∧ h'.nodeSize = h.nodeSize ∧
      h'.rowNum = h.rowNum := by
  simp only [Anticheat.initRow] at set
  split at set
  · contradiction
  split at set
  · contradiction
  split at set
  · contradiction
  rename_i fits _ positive
  obtain ⟨rfl, -⟩ := Prod.mk.inj (Option.some.inj set)
  refine ⟨⟨?_, ?_, ?_, ?_, ?_, ?_, ?_⟩, rfl, rfl, rfl⟩
  · intro row below
    dsimp only
    obtain rfl | before := Nat.eq_or_lt_of_le (Nat.le_of_lt_succ below)
    · exact Function.update_self ..
    · rw [Function.update_of_ne before.ne]
      exact ready.columns row before
  · intro row below
    dsimp only
    obtain rfl | before := Nat.eq_or_lt_of_le (Nat.le_of_lt_succ below)
    · exact Function.update_self ..
    · rw [Function.update_of_ne before.ne]
      exact ready.divisors row before
  · intro _
    dsimp only
    obtain rfl | before := Nat.eq_zero_or_pos i
    · rw [Function.update_self, if_pos rfl]
    · rw [Function.update_of_ne before.ne]
      exact ready.first before
  · intro row below
    dsimp only
    obtain rfl | before := Nat.eq_or_lt_of_le (Nat.le_of_lt_succ below)
    · rw [Function.update_self]
      exact Nat.pos_of_ne_zero positive
    · rw [Function.update_of_ne before.ne]
      exact ready.modsPositive row before
  · intro row below
    dsimp only
    obtain rfl | before := Nat.eq_or_lt_of_le (Nat.le_of_lt_succ below)
    · rw [Function.update_self, Function.update_self]
      exact Nat.le_of_not_gt fits
    · rw [Function.update_of_ne before.ne, Function.update_of_ne before.ne]
      exact ready.modsFit row before
  · intro row below
    dsimp only
    obtain rfl | before := Nat.eq_or_lt_of_le (Nat.le_of_lt_succ below)
    · rw [Function.update_self, Function.update_self]
    · rw [Function.update_of_ne before.ne, Function.update_of_ne before.ne]
      exact ready.sizes row before
  · intro row below
    dsimp only
    have before : row < i := Nat.lt_of_succ_lt_succ below
    rw [Function.update_of_ne before.ne, Function.update_of_ne before.ne]
    obtain rfl | inner := Nat.eq_or_lt_of_le (Nat.succ_le_of_lt before)
    · rw [Function.update_self, if_neg (Nat.succ_ne_zero row), ← ready.sizes row before]
      rfl
    · rw [Function.update_of_ne inner.ne]
      exact ready.starts row inner

theorem rowsReady_foldlM {nodesNum mods : Nat → Nat} {start h : HashTable} {first count : Nat}
    (rows : Nat)
    (set : (List.range rows).foldlM (initRow nodesNum mods) (start, first) = some (h, count)) :
    RowsReady nodesNum mods h rows ∧ h.table = start.table ∧ h.nodeSize = start.nodeSize ∧
      h.rowNum = start.rowNum := by
  induction rows generalizing h count with
  | zero =>
    obtain ⟨rfl, -⟩ := Prod.mk.inj (Option.some.inj set)
    exact ⟨⟨by simp, by simp, by simp, by simp, by simp, by simp, by simp⟩, rfl, rfl, rfl⟩
  | succ rows ih =>
    rw [List.range_succ, List.foldlM_append] at set
    obtain ⟨⟨before, total⟩, earlier, last⟩ := Option.bind_eq_some_iff.mp set
    have step : initRow nodesNum mods (before, total) rows = some (h, count) := by
      simpa using last
    obtain ⟨ready, memory, size, number⟩ := ih earlier
    obtain ⟨ready', memory', size', number'⟩ := ready.initRow step
    exact ⟨ready', memory'.trans memory, size'.trans size, number'.trans number⟩

/-- A table that could be set up has the rows it was asked for, and they do not overlap. -/
theorem configured_hashTableInit {hashTable h : HashTable} {table tableSize nodeSize rowNum : Nat}
    {nodesNum mods : Nat → Nat}
    (set : hashTableInit hashTable table tableSize nodeSize rowNum nodesNum mods = some h) :
    Ready h ∧ Configured h table nodeSize rowNum nodesNum mods := by
  unfold hashTableInit at set
  split at set
  · contradiction
  split at set
  · contradiction
  rename_i sized
  split at set
  · contradiction
  rename_i someRow
  split at set
  · contradiction
  obtain ⟨⟨before, count⟩, rows, last⟩ := Option.bind_eq_some_iff.mp set
  dsimp only at last
  split at last
  · contradiction
  obtain rfl := Option.some.inj last
  obtain ⟨ready, memory, size, number⟩ := rowsReady_foldlM rowNum rows
  have same : before.rowNum = rowNum := number
  have sizeIs : before.nodeSize = nodeSize := size
  constructor
  · exact {
      sized := by
        show 0 < before.nodeSize
        rw [sizeIs]
        exact Nat.pos_of_ne_zero sized
      modsPositive row below := ready.modsPositive row (same ▸ below)
      modsFit row below := ready.modsFit row (same ▸ below)
      starts row below := ready.starts row (same ▸ below) }
  · exact {
      memory := memory
      size := size
      number := number
      columns := ready.columns
      divisors := ready.divisors
      first := (ready.first (Nat.pos_of_ne_zero someRow)).trans memory }

theorem ready_hashTableInit {hashTable h : HashTable} {table tableSize nodeSize rowNum : Nat}
    {nodesNum mods : Nat → Nat}
    (set : hashTableInit hashTable table tableSize nodeSize rowNum nodesNum mods = some h) :
    Ready h :=
  (configured_hashTableInit set).1

namespace Ready

variable {h : HashTable} {row other col otherCol : Nat}

/-- A row begins no earlier than the rows before it end. -/
theorem rowEnd_le (ready : Ready h) (below : row < other) (inside : other < h.rowNum) :
    h.rowStarts row + h.nodeSize * h.nodesNum row ≤ h.rowStarts other := by
  induction other, below using Nat.le_induction with
  | base => exact (ready.starts row inside).ge
  | succ other _ ih =>
    have before := ih (Nat.lt_of_succ_lt inside)
    rw [ready.starts other inside]
    exact before.trans (Nat.le_add_right ..)

/-- Nodes in different places do not share their address. -/
theorem nodeAt_inj (ready : Ready h) (rowIn : row < h.rowNum) (colIn : col < h.nodesNum row)
    (otherIn : other < h.rowNum) (otherColIn : otherCol < h.nodesNum other)
    (same : nodeAt h row col = nodeAt h other otherCol) : row = other ∧ col = otherCol := by
  have within {row col : Nat} (colIn : col < h.nodesNum row) :
      nodeAt h row col < h.rowStarts row + h.nodeSize * h.nodesNum row :=
    Nat.add_lt_add_left (Nat.mul_lt_mul_of_pos_left colIn ready.sized) _
  obtain before | rfl | after := Nat.lt_trichotomy row other
  · have lower := (within colIn).trans_le (ready.rowEnd_le before otherIn)
    have least : h.rowStarts other ≤ nodeAt h other otherCol := Nat.le_add_right ..
    exact absurd same (lower.trans_le least).ne
  · exact ⟨rfl, Nat.eq_of_mul_eq_mul_left ready.sized (Nat.add_left_cancel same)⟩
  · have lower := (within otherColIn).trans_le (ready.rowEnd_le after rowIn)
    have least : h.rowStarts row ≤ nodeAt h row col := Nat.le_add_right ..
    exact absurd same (lower.trans_le least).ne'

end Ready

/-! ## The lookups -/

section Lookup

variable {Key Node : Type} [DecidableEq Key] {usage : Usage Key Node} {h : HashTable}
  {nodes : Addr → Node} {key : Key}

/-- The slots of a key, row by row. -/
def slots (usage : Usage Key Node) (h : HashTable) (key : Key) : List Addr :=
  (List.range h.rowNum).map (slot usage h key)

/-- The first of some slots that holds a key. -/
def firstWith (usage : Usage Key Node) (nodes : Addr → Node) (key : Key) (among : List Addr) :
    Option Addr :=
  among.find? fun node => usage.keyOf (nodes node) = key

theorem lookupNodeRows_eq (rows : List Nat) :
    lookupNodeRows usage h nodes key rows =
      firstWith usage nodes key (rows.map (slot usage h key)) := by
  induction rows with
  | nil => rfl
  | cons row rest ih =>
    simp only [lookupNodeRows, usage.compare_eq_zero, ih, firstWith]
    split <;> simp_all

theorem hashTableLookupNode_eq :
    hashTableLookupNode usage h nodes key = firstWith usage nodes key (slots usage h key) :=
  lookupNodeRows_eq _

/-- The key's own node, before the first free one. -/
theorem lookupNodeExRows_eq (exist : Option Int) (rows : List Nat) (emptyNode : Option Addr) :
    lookupNodeExRows usage h nodes key exist rows emptyNode =
      match firstWith usage nodes key (rows.map (slot usage h key)) with
      | some node => (some node, exist.map fun _ => 1)
      | none => (emptyNode <|>
          firstWith usage nodes usage.emptyKey (rows.map (slot usage h key)), exist) := by
  induction rows generalizing emptyNode with
  | nil => simp [lookupNodeExRows, firstWith]
  | cons row rest ih =>
    simp only [lookupNodeExRows, usage.compare_eq_zero, firstWith]
    by_cases own : usage.keyOf (nodes (slot usage h key row)) = key
    · simp [own]
    · by_cases free : usage.keyOf (nodes (slot usage h key row)) = usage.emptyKey
      · have different : usage.emptyKey ≠ key := free ▸ own
        cases emptyNode <;> simp [different, free, ih, firstWith]
      · simp [own, free, ih, firstWith]

theorem hashTableLookupNodeEx_eq (exist : Option Int) :
    hashTableLookupNodeEx usage h nodes key exist =
      match firstWith usage nodes key (slots usage h key) with
      | some node => (some node, exist.map fun _ => 1)
      | none => (firstWith usage nodes usage.emptyKey (slots usage h key), exist) := by
  rw [hashTableLookupNodeEx, lookupNodeExRows_eq]
  rfl

end Lookup

end Taomee.Anticheat
