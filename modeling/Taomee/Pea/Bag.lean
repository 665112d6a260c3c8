import Mathlib.Algebra.Order.Ring.Int
import Mathlib.Data.List.Perm.Basic
import Mathlib.Data.List.Range
import Mathlib.Tactic.Common
import Taomee.Library.FreeList
import Taomee.Library.Runs

/-!
# pea: the item bag

The cells of a bag point to items, and the items of one kind are meant to be linked through
`p_next_item` and `p_prev_item`. `NULL` is 0. A call that follows `NULL` or a freed pointer has no
effect here.
-/

namespace Taomee.Pea

open FreeList Runs

abbrev Addr := Nat

/-- `item_data`, as far as the bag and the shops read it. -/
structure ItemData where
  itemId : Nat
  sellPrice : UInt32
  buyPrice : UInt32
  maxHeapNum : UInt32

/-- `item_data_mgr`, a map from item ids. -/
structure ItemDataMgr where
  getItemDataById : Nat → Option ItemData
  keyed : ∀ {itemId data}, getItemDataById itemId = some data → data.itemId = itemId

/-- `item`; `hide` is not set by the constructor. -/
structure Item where
  id : Nat
  data : ItemData
  curHeapCount : UInt32
  bagIndex : Nat
  getTime : Nat
  expireTime : Nat
  hide : Option Nat
  next : Addr
  prev : Addr

namespace Item

def setGridIndex (index : Nat) (item : Item) : Item := { item with bagIndex := index }

def toNext (next : Addr) (item : Item) : Item := { item with next }

def toPrev (prev : Addr) (item : Item) : Item := { item with prev }

def getCurRemainHeapCount (item : Item) : UInt32 := item.data.maxHeapNum - item.curHeapCount

def incCurHeapCount (count : UInt32) (item : Item) : Item :=
  if item.curHeapCount + count ≤ item.data.maxHeapNum then
    { item with curHeapCount := item.curHeapCount + count }
  else item

def decCurHeapCount (count : UInt32) (item : Item) : Item :=
  if item.curHeapCount ≥ count then { item with curHeapCount := item.curHeapCount - count }
  else item

end Item

inductive EquipPos where
  | head
  | eye
  | glass
  | body
  | tail
  | suit
deriving DecidableEq

def EquipPos.ofNat? : Nat → Option EquipPos
  | 100000 => some .head
  | 100001 => some .eye
  | 100002 => some .glass
  | 100003 => some .body
  | 100004 => some .tail
  | 100005 => some .suit
  | _ => none

/-- The items in memory, the cells of the bag of a player, and what the player wears. -/
structure Bag where
  items : Addr → Option Item
  grid : Nat → Addr
  maxGridCount : Nat
  equips : EquipPos → Addr

namespace Bag

/-- A bag as constructed, of a player that wears nothing. -/
def init (maxCount : Nat) : Bag where
  items _ := none
  grid _ := 0
  maxGridCount := maxCount
  equips _ := 0

variable (s : Bag)

/-- The item at a pointer is changed. -/
def modify (a : Addr) (change : Item → Item) : Bag :=
  { s with items := Function.update s.items a ((s.items a).map change) }

def next (a : Addr) : Addr := (s.items a).elim 0 Item.next

/-- The four cases of `clear_to_item`. -/
def clearToItem (a : Addr) : Bag :=
  match s.items a with
  | none => s
  | some item =>
    if item.prev = 0 then
      if item.next = 0 then s else (s.modify item.next (.toPrev 0)).modify a (.toNext 0)
    else if item.next = 0 then (s.modify item.prev (.toNext 0)).modify a (.toPrev 0)
    else
      ((s.modify item.prev (.toNext item.next)).modify item.next (.toPrev item.prev)).modify a
        fun item => (item.toPrev 0).toNext 0

def checkValidGridIndex (index : Nat) : Bool := 1 ≤ index ∧ index < s.maxGridCount

/-- The cells from 1 on, in order. -/
def cells : List Nat := List.range' 1 (s.maxGridCount - 1)

def getItemByGrid (index : Nat) : Addr :=
  if s.checkValidGridIndex index then s.grid index else 0

/-- The pointer is to an item of this id. -/
def holds (itemId : Nat) (a : Addr) : Bool :=
  a ≠ 0 && (s.items a).any fun item => item.data.itemId = itemId

def getFirstItem (itemId : Nat) : Addr :=
  ((s.cells.map s.grid).find? fun a =>
    s.holds itemId a && (s.items a).any fun item => item.prev = 0).getD 0

/-- The loop of `get_last_item`: it stops at an element with a next one. -/
def lastFrom : Nat → Addr → Addr
  | 0, _ => 0
  | fuel + 1, a =>
    if a = 0 then 0 else if s.next a ≠ 0 then a else lastFrom fuel (s.next a)

def getLastItem (itemId : Nat) : Addr := s.lastFrom s.maxGridCount (s.getFirstItem itemId)

/-- The loop of `get_item_count`. -/
def countFrom : Nat → Addr → UInt32
  | 0, _ => 0
  | fuel + 1, a =>
    if a = 0 then 0
    else (s.items a).elim 0 Item.curHeapCount + countFrom fuel (s.next a)

def getItemCount (itemId : Nat) : UInt32 := s.countFrom s.maxGridCount (s.getFirstItem itemId)

def setGridItem (a : Addr) (index : Nat) : Bag × Bool :=
  if s.checkValidGridIndex index = false then (s, false)
  else if a = 0 then ({ s with grid := Function.update s.grid index 0 }, true)
  else
    match s.items a with
    | none => (s, false)
    | some item =>
      let s := { s with grid := Function.update s.grid index a }.modify a (.setGridIndex index)
      let last := s.getLastItem item.data.itemId
      if last ≠ 0 then ((s.modify last (.toNext a)).modify a (.toPrev last), true) else (s, true)

/-- `create_item`, with the address that `new` returns. -/
def createItem (mgr : ItemDataMgr) (a : Addr) (id itemId : Nat) (heapCount : UInt32)
    (index getTime expireTime : Nat) : Option Bag :=
  (mgr.getItemDataById itemId).map fun data =>
    { s with
      items := Function.update s.items a (some
        { id, data, curHeapCount := heapCount, bagIndex := index, getTime, expireTime, hide := none
          next := 0, prev := 0 }) }

def destroyItem (a : Addr) : Bag := { s with items := Function.update s.items a none }

/-- `db_add_item_reply_t`. -/
structure AddItemReply where
  id : Nat
  itemId : Nat
  itemCount : UInt32
  gridIndex : Nat
  getTime : Nat
  expireTime : Nat

/-- `db_del_item_reply_t`. -/
structure DelItemReply where
  gridIndex : Nat
  itemCount : UInt32

def addItemByGrid (mgr : ItemDataMgr) (a : Addr) (reply : AddItemReply) : Bag × Bool :=
  if s.checkValidGridIndex reply.gridIndex = false then (s, false)
  else if s.getItemByGrid reply.gridIndex = 0 then
    match s.createItem mgr a reply.id reply.itemId reply.itemCount reply.gridIndex reply.getTime
        reply.expireTime with
    | none => (s, false)
    | some s => ((s.setGridItem a reply.gridIndex).1, true)
  else (s.modify (s.getItemByGrid reply.gridIndex) (.incCurHeapCount reply.itemCount), true)

def delItemByGrid (reply : DelItemReply) : Bag × Bool :=
  if s.checkValidGridIndex reply.gridIndex = false then (s, false)
  else
    let a := s.getItemByGrid reply.gridIndex
    match s.items a with
    | none => (s, false)
    | some item =>
      if item.curHeapCount = reply.itemCount then
        let s := s.clearToItem a
        ({ s with grid := Function.update s.grid item.bagIndex 0 }.destroyItem a, true)
      else (s.modify a (.decCurHeapCount reply.itemCount), true)

def getEquipByPos (pos : Nat) : Addr := (EquipPos.ofNat? pos).elim 0 s.equips

def setPlayerEquip (a : Addr) (pos : Nat) : Bag × Bool :=
  match EquipPos.ofNat? pos with
  | none => (s, false)
  | some place =>
    ({ s with equips := Function.update s.equips place a }.modify a (.setGridIndex pos), true)

/-- What putting an item on does in both callbacks: what was worn goes to its cell. -/
def putOn (a : Addr) (index pos : Nat) : Bag :=
  let equip := s.getEquipByPos pos
  let s := s.clearToItem a
  let s := (s.setGridItem equip index).1
  (s.setPlayerEquip a pos).1

/-- What taking an item off does in both callbacks. -/
def takeOff (pos index : Nat) : Bag :=
  let equip := s.getEquipByPos pos
  let s := (s.setGridItem equip index).1
  (s.setPlayerEquip 0 pos).1

def wearEquip (index pos : Nat) : Bag :=
  let a := s.getItemByGrid index
  if a = 0 then s else s.putOn a index pos

def removeEquip (pos index : Nat) : Bag := s.takeOff pos index

/-- `equip_change_t`. -/
structure EquipChange where
  bodyIndex : Nat
  emptyBagIndex : Nat
  hide : Nat

/-- One turn of the loop of `db_proto_batch_equips_opt_callback`. -/
def equipOpt (opt : EquipChange) : Bag :=
  let a := s.getItemByGrid opt.emptyBagIndex
  let equip := s.getEquipByPos opt.bodyIndex
  let hidden (item : Item) : Item := { item with hide := some opt.hide }
  if opt.emptyBagIndex = 0 then if equip ≠ 0 then s.modify equip hidden else s
  else if a = 0 then if equip ≠ 0 then s.takeOff opt.bodyIndex opt.emptyBagIndex else s
  else (s.putOn a opt.emptyBagIndex opt.bodyIndex).modify a hidden

def batchEquipsOpt (opts : List EquipChange) : Bag := opts.foldl equipOpt s

end Bag

/-! ## Runs -/

open Bag in
/-- The operations on a bag; a creation comes with the address that `new` returns. -/
inductive BagCall where
  | createItem (a : Addr) (id itemId : Nat) (heapCount : UInt32) (index getTime expireTime : Nat)
  | setGridItem (a : Addr) (index : Nat)
  | setPlayerEquip (a : Addr) (pos : Nat)
  | addItemByGrid (a : Addr) (reply : AddItemReply)
  | delItemByGrid (reply : DelItemReply)
  | wearEquip (index pos : Nat)
  | removeEquip (pos index : Nat)
  | batchEquipsOpt (opts : List EquipChange)

namespace Bag

def step (mgr : ItemDataMgr) (s : Bag) : BagCall → Bag
  | .createItem a id itemId heapCount index getTime expireTime =>
    (s.createItem mgr a id itemId heapCount index getTime expireTime).getD s
  | .setGridItem a index => (s.setGridItem a index).1
  | .setPlayerEquip a pos => (s.setPlayerEquip a pos).1
  | .addItemByGrid a reply => (s.addItemByGrid mgr a reply).1
  | .delItemByGrid reply => (s.delItemByGrid reply).1
  | .wearEquip index pos => s.wearEquip index pos
  | .removeEquip pos index => s.removeEquip pos index
  | .batchEquipsOpt opts => s.batchEquipsOpt opts

/-- `new` returns memory that is not in use. -/
def Fresh (s : Bag) (a : Addr) : Prop := a ≠ 0 ∧ (s.items a).isNone

/-- The pointer is `NULL`, or to an item that is in no cell and not worn, such as one just
created. -/
def Loose (s : Bag) (a : Addr) : Prop :=
  a = 0 ∨ (s.items a).isSome ∧ (∀ index ∈ s.cells, s.grid index ≠ a) ∧
    ∀ pos ∈ [EquipPos.head, .eye, .glass, .body, .tail, .suit], s.equips pos ≠ a

/-- The callers give new items to `set_grid_item` and `set_player_equip`. -/
def Allowed (s : Bag) : BagCall → Prop
  | .createItem a .. => s.Fresh a
  | .setGridItem a _ => s.Loose a
  | .setPlayerEquip a _ => s.Loose a
  | .addItemByGrid a _ => s.Fresh a
  | _ => True

/-- No other cell holds an item of the same id. -/
def Alone (s : Bag) (itemId index : Nat) : Prop :=
  ∀ other ∈ s.cells, other ≠ index → s.holds itemId (s.grid other) = false

/-- What is at the pointer goes to a cell without a second item of its id in the others. -/
def PutsAlone (s : Bag) (a : Addr) (index : Nat) : Prop :=
  ∀ item ∈ s.items a, s.checkValidGridIndex index → s.Alone item.data.itemId index

def optsAlone (s : Bag) : List EquipChange → Prop
  | [] => True
  | opt :: rest =>
    s.PutsAlone (s.getEquipByPos opt.bodyIndex) opt.emptyBagIndex ∧
      optsAlone (s.equipOpt opt) rest

/-- No item is put into a cell while another cell holds an item of the same id. -/
def CallAlone (s : Bag) : BagCall → Prop
  | .createItem .. => True
  | .setGridItem a index => s.PutsAlone a index
  | .setPlayerEquip .. => True
  | .addItemByGrid _ reply =>
    s.checkValidGridIndex reply.gridIndex → s.getItemByGrid reply.gridIndex = 0 →
      s.Alone reply.itemId reply.gridIndex
  | .delItemByGrid _ => True
  | .wearEquip index pos =>
    s.getItemByGrid index ≠ 0 → s.PutsAlone (s.getEquipByPos pos) index
  | .removeEquip pos index => s.PutsAlone (s.getEquipByPos pos) index
  | .batchEquipsOpt opts => s.optsAlone opts

instance (s : Bag) (a : Addr) : Decidable (s.Fresh a) := inferInstanceAs (Decidable (_ ∧ _))

instance (s : Bag) (a : Addr) : Decidable (s.Loose a) := inferInstanceAs (Decidable (_ ∨ _))

instance (s : Bag) : (call : BagCall) → Decidable (s.Allowed call)
  | .createItem a .. => inferInstanceAs (Decidable (s.Fresh a))
  | .setGridItem a _ => inferInstanceAs (Decidable (s.Loose a))
  | .setPlayerEquip a _ => inferInstanceAs (Decidable (s.Loose a))
  | .addItemByGrid a _ => inferInstanceAs (Decidable (s.Fresh a))
  | .delItemByGrid _ => inferInstanceAs (Decidable True)
  | .wearEquip .. => inferInstanceAs (Decidable True)
  | .removeEquip .. => inferInstanceAs (Decidable True)
  | .batchEquipsOpt _ => inferInstanceAs (Decidable True)

instance (s : Bag) (itemId index : Nat) : Decidable (s.Alone itemId index) :=
  inferInstanceAs (Decidable (∀ other ∈ s.cells, other ≠ index → _))

instance (s : Bag) (a : Addr) (index : Nat) : Decidable (s.PutsAlone a index) :=
  inferInstanceAs (Decidable (∀ item ∈ s.items a, s.checkValidGridIndex index →
    s.Alone item.data.itemId index))

instance decidableOptsAlone : (s : Bag) → (opts : List EquipChange) → Decidable (s.optsAlone opts)
  | _, [] => inferInstanceAs (Decidable True)
  | s, opt :: rest =>
    have := decidableOptsAlone (s.equipOpt opt) rest
    inferInstanceAs (Decidable (s.PutsAlone (s.getEquipByPos opt.bodyIndex) opt.emptyBagIndex ∧ _))

instance (s : Bag) : (call : BagCall) → Decidable (s.CallAlone call)
  | .createItem .. => inferInstanceAs (Decidable True)
  | .setGridItem a index => inferInstanceAs (Decidable (s.PutsAlone a index))
  | .setPlayerEquip .. => inferInstanceAs (Decidable True)
  | .addItemByGrid _ reply =>
    inferInstanceAs (Decidable (s.checkValidGridIndex reply.gridIndex →
      s.getItemByGrid reply.gridIndex = 0 → s.Alone reply.itemId reply.gridIndex))
  | .delItemByGrid _ => inferInstanceAs (Decidable True)
  | .wearEquip index pos =>
    inferInstanceAs (Decidable (s.getItemByGrid index ≠ 0 →
      s.PutsAlone (s.getEquipByPos pos) index))
  | .removeEquip pos index =>
    inferInstanceAs (Decidable (s.PutsAlone (s.getEquipByPos pos) index))
  | .batchEquipsOpt opts => inferInstanceAs (Decidable (s.optsAlone opts))

/-- What the cells hold of an item, in the order of the cells. -/
def held (s : Bag) (itemId : Nat) : List Addr := (s.cells.map s.grid).filter (s.holds itemId)

/-- Following `p_next_item` visits every cell with the item once, and the count adds up. -/
structure Linked (s : Bag) (itemId : Nat) : Prop where
  visits : ∃ visited, Chain 0 s.next (s.getFirstItem itemId) visited ∧
    visited.Perm (s.held itemId)
  counts : (s.getItemCount itemId).toNat =
    ((s.held itemId).map fun a => ((s.items a).elim 0 Item.curHeapCount).toNat).sum

/-- Every item is in at most one cell. -/
def Single (s : Bag) : Prop :=
  ∀ itemId, ∀ index ∈ s.cells, ∀ other ∈ s.cells, s.holds itemId (s.grid index) →
    s.holds itemId (s.grid other) → index = other

end Bag

end Taomee.Pea
