import Taomee.Pea.BagLinks
import Taomee.Pea.Stacks

/-!
# pea: what changes to the cells do to the totals
-/

namespace Taomee.Pea.Bag

open FreeList

variable {mgr : ItemDataMgr} {s s' t : Bag} {a b : Addr} {item : Item} {index other itemId : Nat}
  {change : Item → Item}

/-! ## One cell -/

/-- The number of cells decides which there are. -/
theorem cells_congr (count : s'.maxGridCount = s.maxGridCount) : s'.cells = s.cells := by
  rw [Bag.cells, Bag.cells, count]

/-- A total changes by what the one cell changes. -/
theorem total_change (count : s'.maxGridCount = s.maxGridCount) (member : index ∈ s.cells)
    (same : ∀ other ∈ s.cells, other ≠ index → s'.stack other = s.stack other) :
    s'.total itemId + s.amount itemId index = s.total itemId + s'.amount itemId index := by
  have erased : (s.cells.erase index).map (s'.amount itemId) =
      (s.cells.erase index).map (s.amount itemId) := by
    refine List.map_congr_left fun other inside => ?_
    obtain ⟨apart, inside⟩ := cells_nodup.mem_erase_iff.mp inside
    rw [amount, amount, same other inside apart]
  have here := List.sum_map_erase (s.amount itemId) member
  have there := List.sum_map_erase (s'.amount itemId) member
  rw [total, total, cells_congr count, ← here, ← there, erased]
  omega

/-- Links apart, two bags are the same. -/
structure Relinked (s s' : Bag) : Prop where
  grid : s'.grid = s.grid
  count : s'.maxGridCount = s.maxGridCount
  items : ∀ b, (s'.items b).map (fun item => (item.toNext 0).toPrev 0) =
    (s.items b).map fun item => (item.toNext 0).toPrev 0

namespace Relinked

theorem refl (s : Bag) : Relinked s s := ⟨rfl, rfl, fun _ => rfl⟩

theorem trans (first : Relinked s t) (second : Relinked t s') : Relinked s s' :=
  ⟨second.grid.trans first.grid, second.count.trans first.count,
    fun b => (second.items b).trans (first.items b)⟩

/-- A change of links only. -/
theorem modify (links : ∀ item, ((change item).toNext 0).toPrev 0 = (item.toNext 0).toPrev 0) :
    Relinked s (s.modify a change) := by
  refine ⟨rfl, rfl, fun b => ?_⟩
  obtain rfl | apart := eq_or_ne b a
  · rw [modify_items_self, Option.map_map]
    exact congrArg (Option.map · (s.items b)) (funext links)
  · rw [modify_items_of_ne apart]

/-- A link forward is a link only. -/
theorem toNext (a next : Addr) : Relinked s (s.modify a (.toNext next)) := modify fun _ => rfl

/-- A link backward is a link only. -/
theorem toPrev (a prev : Addr) : Relinked s (s.modify a (.toPrev prev)) := modify fun _ => rfl

/-- Clearing links changes nothing else. -/
theorem clearToItem (s : Bag) (a : Addr) : Relinked s (s.clearToItem a) := by
  rw [Bag.clearToItem]
  cases s.items a with
  | none => exact refl s
  | some item =>
    dsimp only
    split
    · split
      · exact refl s
      · exact (toPrev _ _).trans (toNext _ _)
    · split
      · exact (toNext _ _).trans (toPrev _ _)
      · exact ((toNext _ _).trans (toPrev _ _)).trans (modify fun _ => rfl)

/-- The same addresses are free. -/
theorem none_iff (same : Relinked s s') : s'.items b = none ↔ s.items b = none := by
  rw [← Option.map_eq_none_iff, same.items, Option.map_eq_none_iff]

/-- Every item is still there, with its id, cell and count. -/
theorem found (same : Relinked s s') (here : s.items b = some item) :
    ∃ item', s'.items b = some item' ∧ item'.data = item.data ∧
      item'.bagIndex = item.bagIndex ∧ item'.curHeapCount = item.curHeapCount := by
  have both := same.items b
  rw [here, Option.map_some] at both
  obtain ⟨item', there, equal⟩ := Option.map_eq_some_iff.mp both
  exact ⟨item', there, (congrArg Item.data equal :), (congrArg Item.bagIndex equal :),
    (congrArg Item.curHeapCount equal :)⟩

/-- Every cell holds the same stack. -/
theorem stack (same : Relinked s s') (index : Nat) : s'.stack index = s.stack index := by
  rw [Bag.stack, Bag.stack, same.grid]
  cases here : s.items (s.grid index) with
  | none => rw [same.none_iff.mpr here]
  | some item =>
    obtain ⟨item', there, data, -, count⟩ := same.found here
    rw [there, Option.map_some, Option.map_some, data, count]

/-- Every item has the same total. -/
theorem total (same : Relinked s s') (itemId : Nat) : s'.total itemId = s.total itemId := by
  rw [Bag.total, Bag.total, cells_congr same.count]
  exact congrArg List.sum (List.map_congr_left fun index _ => by
    rw [amount, amount, same.stack index])

/-- The cells stay in order. -/
theorem cells (same : Relinked s s') (cells : s.Cells mgr) : s'.Cells mgr := by
  refine ⟨same.none_iff.mpr cells.null, fun index member live => ?_⟩
  rw [cells_congr same.count] at member
  rw [same.grid] at live ⊢
  obtain ⟨item, here, index, known, fits⟩ := cells.there _ member live
  obtain ⟨item', there, data, bagIndex, count⟩ := same.found here
  exact ⟨item', there, bagIndex.trans index, data ▸ known, data ▸ count ▸ fits⟩

end Relinked

/-! ## An item in its cell -/

/-- A pointer is to an item, and the item in its cell. -/
structure Placed (s : Bag) (a : Addr) (item : Item) : Prop where
  found : s.items a = some item
  member : item.bagIndex ∈ s.cells
  here : s.grid item.bagIndex = a

namespace Cells

/-- No item lies at the null address. -/
theorem live (cells : s.Cells mgr) (found : s.items a = some item) : a ≠ 0 := by
  rintro rfl
  cases cells.null.symm.trans found

/-- What is in a cell is placed. -/
theorem placed (cells : s.Cells mgr) (member : index ∈ s.cells)
    (found : s.items (s.grid index) = some item) :
    s.Placed (s.grid index) item ∧ item.bagIndex = index := by
  obtain ⟨item', found', rfl, -⟩ := cells.there index member (cells.live found)
  obtain rfl := Option.some.inj (found.symm.trans found')
  exact ⟨⟨found, member, rfl⟩, rfl⟩

/-- An item in a cell is known to the tables and its count fits. -/
theorem known (cells : s.Cells mgr) (placed : s.Placed a item) :
    mgr.getItemDataById item.data.itemId = some item.data ∧
      item.curHeapCount ≤ item.data.maxHeapNum := by
  obtain ⟨item', found, -, known⟩ := cells.there _ placed.member
    (placed.here.symm ▸ cells.live placed.found)
  obtain rfl := Option.some.inj (placed.found.symm.trans (placed.here ▸ found))
  exact known

/-- An item lies in one cell only. -/
theorem grid_ne (cells : s.Cells mgr) (placed : s.Placed a item) (member : other ∈ s.cells)
    (apart : other ≠ item.bagIndex) : s.grid other ≠ a := by
  rintro rfl
  exact apart (cells.placed member placed.found).2.symm

/-- No other cell sees a change of an item. -/
theorem stack_modify_of_ne (cells : s.Cells mgr) (placed : s.Placed a item)
    (member : other ∈ s.cells) (apart : other ≠ item.bagIndex) :
    (s.modify a change).stack other = s.stack other := by
  have same : (s.modify a change).items (s.grid other) = s.items (s.grid other) :=
    modify_items_of_ne (cells.grid_ne placed member apart)
  exact congrArg (Option.map _) same

/-- The stack of a cell after a change of its item. -/
theorem stack_modify (placed : s.Placed a item) (data : (change item).data = item.data) :
    (s.modify a change).stack item.bagIndex = some (item.data.itemId, (change item).curHeapCount) := by
  rw [stack, show (s.modify a change).grid item.bagIndex = a from placed.here, modify_items_self,
    placed.found, Option.map_some, Option.map_some, data]

/-- The stack of a cell is its item's. -/
theorem stack_placed (placed : s.Placed a item) :
    s.stack item.bagIndex = some (item.data.itemId, item.curHeapCount) := by
  rw [stack, placed.here, placed.found, Option.map_some]

/-- The count of an item changes, as its cell allows. -/
theorem modify (cells : s.Cells mgr) (placed : s.Placed a item)
    (data : (change item).data = item.data) (bagIndex : (change item).bagIndex = item.bagIndex)
    (fits : (change item).curHeapCount ≤ item.data.maxHeapNum) : (s.modify a change).Cells mgr := by
  refine ⟨?_, fun index member live => ?_⟩
  · rw [modify_items_of_ne (cells.live placed.found).symm]
    exact cells.null
  · obtain ⟨known, -⟩ := cells.known placed
    obtain ⟨item', found, rfl, known', fits'⟩ := cells.there index member live
    by_cases here : item'.bagIndex = item.bagIndex
    · have at' : s.grid item'.bagIndex = a := here ▸ placed.here
      refine ⟨change item, ?_, bagIndex.trans here.symm, data ▸ known, data ▸ fits⟩
      show (s.modify a change).items (s.grid item'.bagIndex) = _
      rw [at', modify_items_self, placed.found, Option.map_some]
    · refine ⟨item', ?_, rfl, known', fits'⟩
      exact (modify_items_of_ne (cells.grid_ne placed member here)).trans found

/-- The totals with another count of an item. -/
theorem total_modify (cells : s.Cells mgr) (placed : s.Placed a item)
    (data : (change item).data = item.data) :
    (s.modify a change).total item.data.itemId + item.curHeapCount.toNat =
      s.total item.data.itemId + (change item).curHeapCount.toNat ∧
    s.OthersKept item.data.itemId (s.modify a change) := by
  have change' (itemId : Nat) : _ + s.amount itemId item.bagIndex = _ :=
    total_change (rfl : (s.modify a change).maxGridCount = s.maxGridCount) placed.member
      fun _ member apart => cells.stack_modify_of_ne placed member apart
  constructor
  · have own := change' item.data.itemId
    rw [amount, amount, stack_placed placed, stack_modify placed data] at own
    simpa using own
  · intro other apart
    have others := change' other
    rw [amount, amount, stack_placed placed, stack_modify placed data] at others
    simpa [apart.symm] using others

end Cells

/-! ## The first item -/

/-- The first item of an id lies in a cell and has no one before it. -/
theorem mem_cells_of_getFirstItem (live : s.getFirstItem itemId ≠ 0) :
    ∃ index ∈ s.cells, s.grid index = s.getFirstItem itemId ∧
      ∃ item, s.items (s.getFirstItem itemId) = some item ∧ item.data.itemId = itemId ∧
        item.prev = 0 := by
  rw [getFirstItem] at live ⊢
  cases first : (s.cells.map s.grid).find? fun a =>
      s.holds itemId a && (s.items a).any fun item => item.prev = 0 with
  | none =>
    rw [first] at live
    exact absurd rfl live
  | some a =>
    obtain ⟨index, member, rfl⟩ := List.mem_map.mp (List.mem_of_find?_eq_some first)
    have fits := List.find?_some first
    rw [Bool.and_eq_true, holds_iff] at fits
    obtain ⟨⟨-, item, found, same⟩, unlinked⟩ := fits
    rw [found, Option.any_some, decide_eq_true_iff] at unlinked
    exact ⟨index, member, rfl, item, found, same, unlinked⟩

/-- The first item of an id is placed. -/
theorem Cells.first (cells : s.Cells mgr) (found : s.items (s.getFirstItem itemId) = some item) :
    s.Placed (s.getFirstItem itemId) item ∧ item.data.itemId = itemId ∧ item.prev = 0 := by
  obtain ⟨index, member, here, item', found', same, unlinked⟩ :=
    mem_cells_of_getFirstItem (cells.live found)
  obtain rfl := Option.some.inj (found.symm.trans found')
  rw [← here] at found ⊢
  exact ⟨(cells.placed member found).1, same, unlinked⟩

/-! ## An item that is used up -/

/-- Two bags with the same items, but for one place in memory. -/
def SameBeside (a : Addr) (s t : Bag) : Prop :=
  t.grid = s.grid ∧ t.maxGridCount = s.maxGridCount ∧ t.equips = s.equips ∧
    ∀ b, b ≠ a → t.items b = s.items b

/-- The same change on both sides. -/
theorem SameBeside.modify (same : SameBeside a s t) (b : Addr) (change : Item → Item) :
    SameBeside a (s.modify b change) (t.modify b change) := by
  obtain ⟨grid, count, equips, items⟩ := same
  refine ⟨grid, count, equips, fun c apart => ?_⟩
  obtain rfl | other := eq_or_ne c b
  · rw [modify_items_self, modify_items_self, items c apart]
  · rw [modify_items_of_ne other, modify_items_of_ne other, items c apart]

/-- A change of the count makes no difference to an item that is then used up. -/
theorem useUp_modify (found : s.items a = some item) (next : (change item).next = item.next)
    (prev : (change item).prev = item.prev) : (s.modify a change).useUp a item = s.useUp a item := by
  have start : SameBeside a s (s.modify a change) :=
    ⟨rfl, rfl, rfl, fun b apart => modify_items_of_ne apart⟩
  have cleared : SameBeside a (s.clearToItem a) ((s.modify a change).clearToItem a) := by
    simp only [clearToItem, found, modify_items_self, Option.map_some, next, prev]
    split
    · split
      · exact start
      · exact (start.modify _ _).modify _ _
    · split
      · exact (start.modify _ _).modify _ _
      · exact ((start.modify _ _).modify _ _).modify _ _
  obtain ⟨grid, count, equips, items⟩ := cleared
  simp only [useUp, destroyItem, grid, count, equips, Bag.mk.injEq, and_true]
  funext b
  obtain rfl | apart := eq_or_ne b a
  · rw [Function.update_self, Function.update_self]
  · rw [Function.update_of_ne apart, Function.update_of_ne apart, items b apart]

/-- A stack that is used up leaves its cell empty. -/
theorem Cells.stack_useUp_self (cells : s.Cells mgr) (placed : s.Placed a item) :
    (s.useUp a item).stack item.bagIndex = none := by
  have null := (Relinked.clearToItem s a).none_iff.mpr cells.null
  have live := cells.live placed.found
  simp [stack, useUp, destroyItem, Function.update_of_ne live.symm, null]

/-- The other cells keep their stacks. -/
theorem Cells.stack_useUp_of_ne (cells : s.Cells mgr) (placed : s.Placed a item)
    (member : other ∈ s.cells) (apart : other ≠ item.bagIndex) :
    (s.useUp a item).stack other = s.stack other := by
  have relinked := Relinked.clearToItem s a
  rw [← relinked.stack other]
  simp only [stack, useUp, destroyItem, Function.update_of_ne apart, relinked.grid]
  rw [Function.update_of_ne (cells.grid_ne placed member apart)]

/-- Using up a stack keeps the cells in order. -/
theorem Cells.useUp (cells : s.Cells mgr) (placed : s.Placed a item) :
    (s.useUp a item).Cells mgr := by
  have relinked := Relinked.clearToItem s a
  have cleared := relinked.cells cells
  have live := cells.live placed.found
  refine ⟨?_, fun index member filled => ?_⟩
  · show Function.update (s.clearToItem a).items a none 0 = none
    rw [Function.update_of_ne live.symm]
    exact cleared.null
  · have member' : index ∈ (s.clearToItem a).cells := member
    have apart : index ≠ item.bagIndex := by
      rintro rfl
      exact filled (Function.update_self ..)
    have same : (s.useUp a item).grid index = (s.clearToItem a).grid index :=
      Function.update_of_ne apart ..
    rw [same] at filled ⊢
    have elsewhere : (s.clearToItem a).grid index ≠ a := by
      rw [relinked.grid]
      exact cells.grid_ne placed (cells_congr relinked.count ▸ member') apart
    obtain ⟨item', found, rest⟩ := cleared.there index member' filled
    exact ⟨item', (Function.update_of_ne elsewhere ..).trans found, rest⟩

/-- The totals without an item that is used up. -/
theorem Cells.total_useUp (cells : s.Cells mgr) (placed : s.Placed a item) :
    (s.useUp a item).total item.data.itemId + item.curHeapCount.toNat = s.total item.data.itemId ∧
      s.OthersKept item.data.itemId (s.useUp a item) := by
  have change' (itemId : Nat) : (s.useUp a item).total itemId + s.amount itemId item.bagIndex =
      s.total itemId + (s.useUp a item).amount itemId item.bagIndex :=
    total_change (Relinked.clearToItem s a).count placed.member
      fun _ member apart => cells.stack_useUp_of_ne placed member apart
  constructor
  · have own := change' item.data.itemId
    rw [amount, amount, Cells.stack_placed placed, cells.stack_useUp_self placed] at own
    simpa using own
  · intro other apart
    have others := change' other
    rw [amount, amount, Cells.stack_placed placed, cells.stack_useUp_self placed] at others
    simpa [apart.symm] using others

/-! ## A new item -/

/-- The empty cell that is found is one of the bag's. -/
theorem mem_of_findEmptyBagIndex (empty : s.findEmptyBagIndex = some index) :
    index ∈ s.cells ∧ s.grid index = 0 :=
  ⟨List.mem_of_find?_eq_some empty, by simpa using List.find?_some empty⟩

/-- A new item in an empty cell, before it is linked. -/
def withNew (s : Bag) (a : Addr) (item : Item) : Bag :=
  { s with items := Function.update s.items a (some item)
           grid := Function.update s.grid item.bagIndex a }

/-- Putting in a new item is a write and some links. -/
theorem relinked_putNew (s : Bag) (a : Addr) (item : Item) (lastItem : Addr) :
    Relinked (s.withNew a item)
      ({ s with items := Function.update s.items a (some item) }.putNew a item.bagIndex lastItem) := by
  rw [putNew]
  split
  · exact (Relinked.toNext _ _).trans (Relinked.toPrev _ _)
  · exact Relinked.refl _

/-- A fresh address is in no cell. -/
theorem Cells.grid_ne_fresh (cells : s.Cells mgr) (fresh : s.Fresh a) (inside : other ∈ s.cells) :
    s.grid other ≠ a := by
  rintro rfl
  obtain ⟨item, found, -⟩ := cells.there other inside fresh.1
  rw [Option.isNone_iff_eq_none.mp fresh.2] at found
  cases found

/-- A new item keeps the cells in order. -/
theorem Cells.withNew (cells : s.Cells mgr) (fresh : s.Fresh a)
    (known : mgr.getItemDataById item.data.itemId = some item.data)
    (fits : item.curHeapCount ≤ item.data.maxHeapNum) : (s.withNew a item).Cells mgr := by
  refine ⟨?_, fun index inside filled => ?_⟩
  · show Function.update s.items a (some item) 0 = none
    rw [Function.update_of_ne fresh.1.symm]
    exact cells.null
  · obtain rfl | apart := eq_or_ne index item.bagIndex
    · have here : (s.withNew a item).grid item.bagIndex = a := Function.update_self ..
      rw [here]
      exact ⟨item, Function.update_self .., rfl, known, fits⟩
    · have same : (s.withNew a item).grid index = s.grid index := Function.update_of_ne apart ..
      rw [same] at filled ⊢
      have elsewhere : s.grid index ≠ a := cells.grid_ne_fresh fresh inside
      obtain ⟨item', found, rest⟩ := cells.there index inside filled
      exact ⟨item', (Function.update_of_ne elsewhere ..).trans found, rest⟩

/-- A new stack adds its count to its item and to no other. -/
theorem Cells.total_withNew (cells : s.Cells mgr) (fresh : s.Fresh a)
    (member : item.bagIndex ∈ s.cells) (empty : s.grid item.bagIndex = 0) :
    (s.withNew a item).total item.data.itemId =
        s.total item.data.itemId + item.curHeapCount.toNat ∧
      s.OthersKept item.data.itemId (s.withNew a item) := by
  have new : (s.withNew a item).stack item.bagIndex = some (item.data.itemId, item.curHeapCount) := by
    simp [stack, Bag.withNew]
  have old : s.stack item.bagIndex = none := by
    rw [stack, empty, cells.null, Option.map_none]
  have change' (itemId : Nat) : (s.withNew a item).total itemId + s.amount itemId item.bagIndex =
      s.total itemId + (s.withNew a item).amount itemId item.bagIndex := by
    refine total_change rfl member fun other inside apart => ?_
    have elsewhere : s.grid other ≠ a := cells.grid_ne_fresh fresh inside
    simp [stack, Bag.withNew, Function.update_of_ne apart, Function.update_of_ne elsewhere]
  constructor
  · have own := change' item.data.itemId
    rw [amount, amount, old, new] at own
    simpa using own
  · intro other apart
    have others := change' other
    rw [amount, amount, old, new] at others
    simpa [apart.symm] using others

/-- A new stack takes one empty cell. -/
theorem emptyCells_withNew (fresh : s.Fresh a) (member : item.bagIndex ∈ s.cells)
    (empty : s.grid item.bagIndex = 0) :
    (s.withNew a item).emptyCells.length + 1 = s.emptyCells.length := by
  have here : item.bagIndex ∈ s.emptyCells := List.mem_filter.mpr ⟨member, by simpa using empty⟩
  have rest : (s.withNew a item).emptyCells = s.emptyCells.erase item.bagIndex := by
    have distinct : s.emptyCells.Nodup := cells_nodup.filter _
    rw [distinct.erase_eq_filter, emptyCells, emptyCells, List.filter_filter]
    refine List.filter_congr fun index _ => ?_
    obtain rfl | apart := eq_or_ne index item.bagIndex
    · simp [Bag.withNew, fresh.1]
    · simp [Bag.withNew, apart]
  rw [rest, List.length_erase_of_mem here]
  exact Nat.sub_add_cancel (List.length_pos_of_mem here)

end Taomee.Pea.Bag
