import Mathlib.Algebra.Order.BigOperators.Group.List
import Mathlib.Algebra.Order.Group.Nat
import Taomee.Pea.StackTotals

/-!
# pea: the stacks of an item that are linked

From the first stack on, the links lead to cells that hold the item, to each of them once.
-/

namespace Taomee.Pea.Bag

open FreeList

variable {mgr : ItemDataMgr} {s : Bag} {a : Addr} {itemId : Nat} {visited : List Addr}

theorem countFrom_eq (null : s.items 0 = none) (fuel : Nat) (a : Addr) :
    (s.countFrom fuel a).toNat =
      ((s.heapsFrom fuel a).map fun item => item.curHeapCount.toNat).sum % 2 ^ 32 := by
  induction fuel generalizing a with
  | zero => rfl
  | succ fuel ih =>
    rw [countFrom, heapsFrom]
    cases found : s.items a with
    | none =>
      split
      · rfl
      · rw [Option.elim_none, UInt32.toNat_add, ih, Bag.next, found, Option.elim_none]
        cases fuel with
        | zero => rfl
        | succ fuel => rw [heapsFrom, null]; rfl
    | some item =>
      have live : a ≠ 0 := by
        rintro rfl
        cases null.symm.trans found
      rw [if_neg live, Option.elim_some, UInt32.toNat_add, ih, Bag.next, found]
      simp

theorem heapsFrom_eq (chain : Chain 0 s.next a visited) (null : s.items 0 = none)
    (there : ∀ b ∈ visited, (s.items b).isSome) {fuel : Nat} (room : visited.length ≤ fuel) :
    s.heapsFrom fuel a = visited.filterMap s.items := by
  induction fuel generalizing a visited with
  | zero =>
    obtain rfl := List.length_eq_zero_iff.mp (Nat.le_zero.mp room)
    rfl
  | succ fuel ih =>
    rw [heapsFrom]
    cases chain with
    | nil => rw [null]; rfl
    | cons live tail =>
      obtain ⟨item, found⟩ := Option.isSome_iff_exists.mp (there a List.mem_cons_self)
      have next : s.next a = item.next := by rw [Bag.next, found, Option.elim_some]
      rw [List.filterMap_cons_some found, found, Option.elim_some, ← next,
        ih tail (fun b member => there b (List.mem_cons_of_mem _ member))
          (Nat.le_of_succ_le_succ room)]

/-- The items that are linked from the first one on, each in a cell of its own. -/
structure Visits (s : Bag) (itemId : Nat) (visited : List Addr) : Prop where
  chain : Chain 0 s.next (s.getFirstItem itemId) visited
  distinct : visited.Nodup
  placed : ∀ b ∈ visited, ∃ item, s.Placed b item ∧ item.data.itemId = itemId

theorem Proper.exists_visits (proper : s.Proper mgr) (itemId : Nat) :
    ∃ visited, s.Visits itemId visited := by
  have placed_of {b : Addr} (member : b ∈ (s.cells.map s.grid).filter (s.holds itemId)) :
      ∃ item, s.Placed b item ∧ item.data.itemId = itemId := by
    obtain ⟨there, holds⟩ := List.mem_filter.mp member
    obtain ⟨index, inside, rfl⟩ := List.mem_map.mp there
    obtain ⟨-, item, found, same⟩ := holds_iff.mp holds
    exact ⟨item, (proper.placed inside found).1, same⟩
  have of_placed {b : Addr} {item : Item} (placed : s.Placed b item)
      (same : item.data.itemId = itemId) : b ∈ (s.cells.map s.grid).filter (s.holds itemId) :=
    List.mem_filter.mpr ⟨List.mem_map.mpr ⟨_, placed.member, placed.here⟩,
      holds_iff.mpr ⟨proper.live placed.found, item, placed.found, same⟩⟩
  obtain ⟨visited, chain, distinct, inside⟩ := @exists_chain _ 0 s.next (s.getFirstItem itemId)
    (fun a => (s.items a).elim 0 Item.prev) ((s.cells.map s.grid).filter (s.holds itemId))
    (by
      intro b member linked
      obtain ⟨item, placed, same⟩ := placed_of member
      have next : s.next b = item.next := by rw [Bag.next, placed.found, Option.elim_some]
      rw [next] at linked ⊢
      obtain ⟨later, inside, there, nextItem, found, back, data⟩ :=
        proper.links item.bagIndex placed.member item (placed.here ▸ placed.found) linked
      have placed' := (proper.placed inside (there ▸ found)).1
      rw [there] at placed'
      refine ⟨of_placed placed' (data ▸ same), ?_⟩
      rw [Option.mem_def.mp found, Option.elim_some, back, placed.here])
    (by
      intro live
      obtain ⟨index, inside, here, item, found, same, unlinked⟩ := mem_cells_of_getFirstItem live
      obtain ⟨placed, -, -⟩ := proper.first found
      refine ⟨of_placed placed same, ?_⟩
      rw [found, Option.elim_some, unlinked])
  exact ⟨visited, chain, distinct, fun b member => placed_of (inside b member)⟩

theorem Visits.length_le (visits : s.Visits itemId visited) : visited.length ≤ s.maxGridCount := by
  have inside : visited ⊆ s.cells.map s.grid := fun b member => by
    obtain ⟨item, placed, -⟩ := visits.placed b member
    exact List.mem_map.mpr ⟨_, placed.member, placed.here⟩
  have short := (List.subperm_of_subset visits.distinct inside).length_le
  rw [List.length_map, Bag.cells, List.length_range'] at short
  omega

theorem Visits.heaps_eq (visits : s.Visits itemId visited) (cells : s.Cells mgr) :
    s.heaps itemId = visited.filterMap s.items :=
  heapsFrom_eq visits.chain cells.null (fun b member => by
    obtain ⟨item, placed, -⟩ := visits.placed b member
    rw [placed.found, Option.isSome_some]) visits.length_le

theorem Visits.placed_of_mem {item : Item} (visits : s.Visits itemId visited) (cells : s.Cells mgr)
    (member : item ∈ s.heaps itemId) :
    s.Placed (s.grid item.bagIndex) item ∧ item.data.itemId = itemId := by
  rw [visits.heaps_eq cells] at member
  obtain ⟨b, inside, found⟩ := List.mem_filterMap.mp member
  obtain ⟨item', placed, same⟩ := visits.placed b inside
  obtain rfl := Option.some.inj (placed.found.symm.trans found)
  exact ⟨placed.here.symm ▸ placed, same⟩

/-- The linked items are in cells of their own. -/
theorem Visits.nodup_bagIndex (visits : s.Visits itemId visited) (cells : s.Cells mgr) :
    ((s.heaps itemId).map Item.bagIndex).Nodup := by
  have addresses : ((s.heaps itemId).map Item.bagIndex).map s.grid = visited := by
    rw [visits.heaps_eq cells, List.map_map, List.map_filterMap]
    refine (List.filterMap_congr fun b member => ?_).trans List.filterMap_some
    obtain ⟨item, placed, -⟩ := visits.placed b member
    rw [placed.found, Option.map_some, Function.comp_apply, placed.here]
  exact List.Nodup.of_map s.grid (addresses.symm ▸ visits.distinct)

/-- What is linked is part of what is there. -/
theorem Visits.linkedTotal_le (visits : s.Visits itemId visited) (cells : s.Cells mgr) :
    s.linkedTotal itemId ≤ s.total itemId := by
  have inside : (s.heaps itemId).map Item.bagIndex ⊆ s.cells := fun index there => by
    obtain ⟨item, member, rfl⟩ := List.mem_map.mp there
    exact (visits.placed_of_mem cells member).1.member
  obtain ⟨l, perm, sublist⟩ := List.subperm_of_subset (visits.nodup_bagIndex cells) inside
  have counts : (s.heaps itemId).map (fun item => item.curHeapCount.toNat) =
      ((s.heaps itemId).map Item.bagIndex).map (s.amount itemId) := by
    rw [List.map_map]
    refine List.map_congr_left fun item member => ?_
    obtain ⟨placed, same⟩ := visits.placed_of_mem cells member
    rw [Function.comp_apply, amount, Cells.stack_placed placed, Option.elim_some, if_pos same]
  rw [linkedTotal, counts, total, ← (perm.map (s.amount itemId)).sum_eq]
  exact (sublist.map _).sum_le_sum fun _ _ => Nat.zero_le _

end Taomee.Pea.Bag
