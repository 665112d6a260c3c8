import Mathlib.Algebra.BigOperators.Group.List.Basic
import Taomee.Pea.Shop

/-!
# pea: adding to and removing from the stacks of an item

`del_item`, `check_add_item` and `add_item` work on the bag in memory. A call that has followed
`NULL`, divided by zero or written outside of the cells, or that has not returned after so many
turns of its loop, is `none`.
-/

namespace Taomee.Pea.Bag

variable (mgr : ItemDataMgr) (s : Bag) (itemId : Nat) (itemCount : UInt32)

/-- `get_empty_grid_count`. -/
def getEmptyGridCount : UInt32 := UInt32.ofNat s.emptyCells.length

/-- `find_empty_bag_index`, from the first cell. -/
def findEmptyBagIndex : Option Nat := s.cells.find? fun index => s.grid index = 0

/-! ## Removing -/

def checkDelItem : Bool := s.getItemCount itemId ≥ itemCount

/-- What `del_item` does to an item that is used up. -/
def useUp (a : Addr) (item : Item) : Bag :=
  let s := s.clearToItem a
  { s with grid := Function.update s.grid item.bagIndex 0 }.destroyItem a

/-- The loop of `del_item`; the stack is compared with the whole count, not with what is left. -/
def delFrom : Nat → Bag → UInt32 → Option Bag
  | 0, _, _ => none
  | turns + 1, s, totalDelCount =>
    if totalDelCount = 0 then some s
    else
      let a := s.getFirstItem itemId
      match s.items a with
      | none => none
      | some item =>
        let s := s.modify a (.decCurHeapCount itemCount)
        if item.curHeapCount > itemCount then delFrom turns s (totalDelCount - itemCount)
        else delFrom turns (s.useUp a item) (totalDelCount - item.curHeapCount)

def delItem (turns : Nat) : Option (Bag × Bool) :=
  if s.checkDelItem itemId itemCount = false then some (s, false)
  else (delFrom itemId itemCount turns s itemCount).map (·, true)

/-! ## Adding -/

/-- What the loop of `check_add_item` leaves; without a stack it leaves the whole count. -/
def remainAfter : List Item → UInt32 → UInt32
  | [], remainCount => remainCount
  | item :: rest, remainCount =>
    let left := remainCount - item.getCurRemainHeapCount
    if left.toInt32 < 0 then 0 else remainAfter rest left

def needGridCount (count maxHeapNum : UInt32) : UInt32 :=
  count / maxHeapNum + if count % maxHeapNum ≠ 0 then 1 else 0

def checkAddItem : Option Bool :=
  (mgr.getItemDataById itemId).bind fun data =>
    if data.maxHeapNum = 0 then none
    else
      let needGridCount := needGridCount (remainAfter (s.heaps itemId) itemCount) data.maxHeapNum
      some (needGridCount ≥ s.getEmptyGridCount)

/-- A new item goes to a cell, behind the one that was created before it. -/
def putNew (a : Addr) (index : Nat) (lastItem : Addr) : Bag :=
  let s := { s with grid := Function.update s.grid index a }
  if lastItem ≠ 0 then (s.modify lastItem (.toNext a)).modify a (.toPrev lastItem) else s

/-- The loop of `add_item_to_empty_grid`; `news` are the addresses that `new` returns. -/
def fillEmptyFrom : Nat → (Nat → Addr) → Bag → Addr → UInt32 → Option Bag
  | 0, _, _, _, _ => none
  | turns + 1, news, s, lastItem, remainCount =>
    if remainCount = 0 then some s
    else
      match mgr.getItemDataById itemId, s.findEmptyBagIndex with
      | some data, some index =>
        if data.maxHeapNum = 0 then none
        else
          let curHeapCount :=
            if remainCount / data.maxHeapNum ≠ 0 then data.maxHeapNum else remainCount
          (s.createItem mgr (news 0) 0 itemId curHeapCount index 0 0).bind fun s =>
            fillEmptyFrom turns (fun k => news (k + 1)) (s.putNew (news 0) index lastItem) (news 0)
              (remainCount - data.maxHeapNum)
      | _, _ => none

def addItemToEmptyGrid (turns : Nat) (news : Nat → Addr) : Option (Bag × Bool) :=
  (fillEmptyFrom mgr itemId turns news s 0 itemCount).map (·, true)

/-- The loop of `add_item` over the stacks; at a full one `continue` begins the same turn again. -/
def fillFrom : Nat → Bag → Addr → UInt32 → Option (Bag × UInt32)
  | 0, _, _, _ => none
  | turns + 1, s, a, remainCount =>
    if a = 0 then some (s, remainCount)
    else
      match s.items a with
      | none => none
      | some item =>
        let remainHeapCount := item.getCurRemainHeapCount
        if remainHeapCount = 0 then fillFrom turns s a remainCount
        else if remainHeapCount ≤ remainCount then
          let s := s.modify a (.incCurHeapCount remainHeapCount)
          fillFrom turns s (s.next a) (remainCount - remainHeapCount)
        else some (s.modify a (.incCurHeapCount remainCount), 0)

/-- Both loops of a call may take so many turns. -/
def addItem (turns : Nat) (news : Nat → Addr) : Option (Bag × Bool) :=
  (s.checkAddItem mgr itemId itemCount).bind fun checked =>
    if checked = false then some (s, false)
    else
      let a := s.getFirstItem itemId
      if a = 0 then s.addItemToEmptyGrid mgr itemId itemCount turns news
      else
        (fillFrom turns s a itemCount).bind fun (s, remainCount) =>
          if remainCount > 0 then s.addItemToEmptyGrid mgr itemId remainCount turns news
          else some (s, true)

/-! ## What the calls are for -/

/-- The id and the count of what is in a cell. -/
def stack (index : Nat) : Option (Nat × UInt32) :=
  (s.items (s.grid index)).map fun item => (item.data.itemId, item.curHeapCount)

/-- What a cell holds of an item. -/
def amount (index : Nat) : Nat :=
  (s.stack index).elim 0 fun stack => if stack.1 = itemId then stack.2.toNat else 0

/-- What the bag holds of an item. -/
def total : Nat := (s.cells.map (s.amount itemId)).sum

/-- The items in the cells are there, know their cells, and are not more than a cell takes. -/
structure Cells (mgr : ItemDataMgr) (s : Bag) : Prop where
  null : s.items 0 = none
  there : ∀ index ∈ s.cells, s.grid index ≠ 0 → ∃ item, s.items (s.grid index) = some item ∧
    item.bagIndex = index ∧ mgr.getItemDataById item.data.itemId = some item.data ∧
    item.curHeapCount ≤ item.data.maxHeapNum

/-- A bag as the calls may find it: besides, its cells have numbers, and the next item of an item in
a cell is of the same kind, in a cell, and linked back. -/
structure Proper (mgr : ItemDataMgr) (s : Bag) : Prop extends Cells mgr s where
  small : s.maxGridCount ≤ 2 ^ 31
  links : ∀ index ∈ s.cells, ∀ item ∈ s.items (s.grid index), item.next ≠ 0 →
    ∃ later ∈ s.cells, s.grid later = item.next ∧ ∃ nextItem ∈ s.items item.next,
      nextItem.prev = s.grid index ∧ nextItem.data = item.data

/-- Of the other items the bag holds as many as before. -/
def OthersKept (s' : Bag) : Prop := ∀ other, other ≠ itemId → s'.total other = s.total other

/-- `del_item` returns, and removes so many of the item if there are so many. -/
def DelRight : Prop :=
  ∃ turns s' done, s.delItem itemId itemCount turns = some (s', done) ∧
    (done = true ↔ itemCount.toNat ≤ s.total itemId) ∧ (done = false → s' = s) ∧
    (done = true → s'.total itemId + itemCount.toNat = s.total itemId ∧ s.OthersKept itemId s')

/-- `add_item` returns what `check_add_item` foretells, and adds so many of the item if it adds any,
without a stack that is too high. -/
def AddRight (news : Nat → Addr) : Prop :=
  ∃ turns s' done, s.addItem mgr itemId itemCount turns news = some (s', done) ∧
    s.checkAddItem mgr itemId itemCount = some done ∧ (done = false → s' = s) ∧
    (done = true → s'.total itemId = s.total itemId + itemCount.toNat ∧ s.OthersKept itemId s' ∧
      s'.Cells mgr)

def CountsRight (news : Nat → Addr) : Prop :=
  s.DelRight itemId itemCount ∧ s.AddRight mgr itemId itemCount news

/-! ## Where they do it -/

/-- The bag without the item that `get_first_item` finds. -/
def withoutFirst : Bag :=
  (s.items (s.getFirstItem itemId)).elim s (s.useUp (s.getFirstItem itemId))

/-- The stacks that `get_first_item` finds when one after the other is used up. -/
inductive Leading (itemId : Nat) : Bag → List UInt32 → Prop where
  | nil {s : Bag} : Leading itemId s []
  | cons {s : Bag} {item : Item} {counts : List UInt32}
      (found : s.items (s.getFirstItem itemId) = some item)
      (later : Leading itemId (s.withoutFirst itemId) counts) :
      Leading itemId s (item.curHeapCount :: counts)

/-- So many are several leading stacks, or less than the first of them that is not empty. -/
def WholeStacks : Prop :=
  ∃ counts, Leading itemId s counts ∧
    ((counts.map UInt32.toNat).sum = itemCount.toNat ∨
      ∃ empty more, counts = empty ++ [more] ∧ (empty.map UInt32.toNat).sum = 0 ∧
        itemCount < more)

/-- The items that `get_item_count` counts. -/
def linkedTotal : Nat := ((s.heaps itemId).map fun item => item.curHeapCount.toNat).sum

/-- The places that the linked stacks of the item have left. -/
def gaps : List Nat := (s.heaps itemId).map fun item => item.getCurRemainHeapCount.toNat

/-- What is left of the count behind so many stacks, in 32 bits. -/
def leftBehind (n : Nat) : Nat :=
  (2 ^ 32 * n + itemCount.toNat - ((s.gaps itemId).take n).sum) % 2 ^ 32

/-- What `check_add_item` expects to go to empty cells; nothing where the rest turns negative. -/
def foreseen : Nat :=
  if ∃ k < (s.gaps itemId).length, 2 ^ 31 ≤ s.leftBehind itemId itemCount (k + 1) then 0
  else s.leftBehind itemId itemCount (s.gaps itemId).length

/-- With what is foreseen in full cells, another cell stays empty. -/
def SparesCell (data : ItemData) : Prop :=
  s.foreseen itemId itemCount + data.maxHeapNum.toNat ≤
    s.emptyCells.length * data.maxHeapNum.toNat

/-- No full stack is met before the count is used up, and what the stacks do not take goes to empty
cells in whole stacks. -/
structure FillsWhole (data : ItemData) : Prop where
  gaps : ∀ k, (s.gaps itemId)[k]? = some 0 → itemCount.toNat < ((s.gaps itemId).take k).sum
  whole : data.maxHeapNum.toNat ∣ itemCount.toNat - (s.gaps itemId).sum
  cells : (itemCount.toNat - (s.gaps itemId).sum) / data.maxHeapNum.toNat ≤ s.emptyCells.length

end Taomee.Pea.Bag
