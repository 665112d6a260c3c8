import Taomee.Pea.BagSound

/-!
# pea: when the items of a bag are linked

Without links, following them visits at most one cell.
-/

namespace Taomee.Pea.Bag

open FreeList Runs

variable {s s' : Bag} {a : Addr} {index pos itemId : Nat} {change : Item → Item}

/-! ## Cells with one item -/

theorem cells_nodup : s.cells.Nodup := List.nodup_range'

/-- Fewer items in the cells are no less single. -/
theorem Single.mono (single : s.Single) (count : s'.maxGridCount = s.maxGridCount)
    (holds : ∀ itemId, ∀ index ∈ s.cells, s'.holds itemId (s'.grid index) →
      s.holds itemId (s.grid index)) : s'.Single := by
  have cells : s'.cells = s.cells := by rw [Bag.cells, Bag.cells, count]
  intro itemId index member other memberOther here there
  rw [cells] at member memberOther
  exact single itemId index member other memberOther (holds itemId index member here)
    (holds itemId other memberOther there)

/-- A change that keeps the ids keeps every id in one cell. -/
theorem Single.modify (single : s.Single) (keeps : ∀ item, (change item).data = item.data) :
    (s.modify a change).Single :=
  single.mono rfl fun _ _ _ held => (holds_modify keeps).symm.trans held

/-- A cell holds an id when its item has it. -/
theorem holds_iff : s.holds itemId a = true ↔
    a ≠ 0 ∧ ∃ item, s.items a = some item ∧ item.data.itemId = itemId := by
  rw [holds, Bool.and_eq_true, decide_eq_true_eq, Option.any_eq_true]
  simp only [decide_eq_true_eq]

theorem put_grid_self : (s.put a index).grid index = a := by
  show Function.update s.grid index a index = a
  exact Function.update_self ..

theorem put_grid_of_ne {other : Nat} (apart : other ≠ index) :
    (s.put a index).grid other = s.grid other := by
  show Function.update s.grid index a other = s.grid other
  exact Function.update_of_ne apart ..

/-- An item that goes where no other cell holds its like leaves every item in one cell. -/
theorem Single.put (single : s.Single) (valid : s.checkValidGridIndex index)
    (alone : s.PutsAlone a index) : (s.put a index).Single := by
  have keeps : ∀ itemId b, (s.put a index).holds itemId b = s.holds itemId b := fun _ _ =>
    holds_modify fun _ => rfl
  have clash : ∀ {itemId other}, other ∈ s.cells → other ≠ index → s.holds itemId a →
      s.holds itemId (s.grid other) → False := by
    intro itemId other member apart held there
    obtain ⟨-, item, found, same⟩ := holds_iff.mp held
    have free := alone item found valid other member apart
    rw [same, there] at free
    cases free
  intro itemId i mi j mj hi hj
  rw [keeps] at hi hj
  obtain rfl | first := eq_or_ne i index <;> obtain rfl | second := eq_or_ne j i
  · rfl
  · rw [put_grid_self] at hi
    rw [put_grid_of_ne second] at hj
    exact (clash mj second hi hj).elim
  · rfl
  · obtain rfl | third := eq_or_ne j index
    · rw [put_grid_self] at hj
      rw [put_grid_of_ne first] at hi
      exact (clash mi first hj hi).elim
    · rw [put_grid_of_ne first] at hi
      rw [put_grid_of_ne third] at hj
      exact single itemId i mi j mj hi hj

/-- An item may be put where no other cell has its id. -/
theorem Single.setGridItem (single : s.Single) (sound : s.Sound) (alone : s.PutsAlone a index) :
    (s.setGridItem a index).1.Single := by
  rw [sound.setGridItem_eq]
  split
  case isTrue fits => exact single.put fits.1 alone
  case isFalse => exact single

/-- What is worn is in no cell. -/
theorem Single.setPlayerEquip (single : s.Single) : (s.setPlayerEquip a pos).1.Single := by
  rw [Bag.setPlayerEquip]
  cases EquipPos.ofNat? pos with
  | none => exact single
  | some place =>
    have worn : ({ s with equips := Function.update s.equips place a } : Bag).Single := single
    exact worn.modify fun _ => rfl

/-- What is taken off must be alone in the bag. -/
theorem Single.takeOff (single : s.Single) (sound : s.Sound)
    (alone : s.PutsAlone (s.getEquipByPos pos) index) : (s.takeOff pos index).Single :=
  (single.setGridItem sound alone).setPlayerEquip

/-- What comes off in exchange must be alone in the bag. -/
theorem Single.putOn (single : s.Single) (sound : s.Sound)
    (alone : s.PutsAlone (s.getEquipByPos pos) index) : (s.putOn a index pos).Single := by
  rw [sound.putOn_eq]
  exact (single.takeOff sound alone).setPlayerEquip

/-- One change of equipment. -/
theorem Single.equipOpt (single : s.Single) (sound : s.Sound) {opt : EquipChange}
    (alone : s.PutsAlone (s.getEquipByPos opt.bodyIndex) opt.emptyBagIndex) :
    (s.equipOpt opt).Single := by
  rw [Bag.equipOpt]
  split
  · split
    · exact single.modify fun _ => rfl
    · exact single
  split
  · split
    · exact single.takeOff sound alone
    · exact single
  · exact (single.putOn sound alone).modify fun _ => rfl

/-- Changes of equipment, one after another. -/
theorem Single.batchEquipsOpt (single : s.Single) (sound : s.Sound) {opts : List EquipChange}
    (alone : s.optsAlone opts) : (s.batchEquipsOpt opts).Single := by
  induction opts generalizing s with
  | nil => exact single
  | cons opt rest ih => exact ih (single.equipOpt sound alone.1) (sound.equipOpt opt) alone.2

/-- Memory that no cell points to counts for nothing. -/
theorem holds_setItem {item : Option Item} (b : Addr) (apart : b ≠ a) :
    ({ s with items := Function.update s.items a item } : Bag).holds itemId b =
      s.holds itemId b := by
  rw [holds, holds]
  dsimp only
  rw [Function.update_of_ne apart]

/-- An item that is in no cell may be anything. -/
theorem Single.setItem (single : s.Single) {item : Option Item}
    (free : ∀ index, s.checkValidGridIndex index → s.grid index ≠ a) :
    ({ s with items := Function.update s.items a item } : Bag).Single :=
  single.mono rfl fun _ index member held =>
    holds_setItem (s.grid index) (free index (mem_cells.mp member)) ▸ held

/-- A new item is in no cell yet. -/
theorem Single.createItem (single : s.Single) (sound : s.Sound) {mgr : ItemDataMgr}
    {id itemId : Nat} {heapCount : UInt32} {index getTime expireTime : Nat} (fresh : s.Fresh a)
    (created : s.createItem mgr a id itemId heapCount index getTime expireTime = some s') :
    s'.Single := by
  obtain ⟨data, -, rfl⟩ := Option.map_eq_some_iff.mp created
  exact single.setItem (sound.fresh_apart fresh).1

/-- An addition to an empty cell must be alone in the bag. -/
theorem Single.addItemByGrid (single : s.Single) (sound : s.Sound) {mgr : ItemDataMgr}
    {reply : AddItemReply} (fresh : s.Fresh a)
    (alone : s.checkValidGridIndex reply.gridIndex → s.getItemByGrid reply.gridIndex = 0 →
      s.Alone reply.itemId reply.gridIndex) : (s.addItemByGrid mgr a reply).1.Single := by
  rw [Bag.addItemByGrid]
  split
  · exact single
  split
  case _ valid empty =>
    split
    case _ => exact single
    case _ s' created =>
      refine (single.createItem sound fresh created).setGridItem
        (sound.createItem fresh created).1 ?_
      obtain ⟨data, keyed, rfl⟩ := Option.map_eq_some_iff.mp created
      intro item found _ other member apart
      dsimp only at found
      rw [Function.update_self] at found
      cases found
      rw [mgr.keyed keyed]
      have away := (sound.fresh_apart fresh).1 other (mem_cells.mp member)
      exact (holds_setItem _ away).trans
        (alone (Bool.not_eq_false _ ▸ valid) empty other member apart)
  · refine single.modify fun item => ?_
    rw [Item.incCurHeapCount]
    split <;> rfl

/-- A removal leaves fewer cells. -/
theorem Single.delItemByGrid (single : s.Single) (sound : s.Sound) {reply : DelItemReply} :
    (s.delItemByGrid reply).1.Single := by
  rw [Bag.delItemByGrid]
  split
  · exact single
  dsimp only
  cases found : s.items (s.getItemByGrid reply.gridIndex) with
  | none => exact single
  | some item =>
    dsimp only
    split
    case isTrue =>
      rw [sound.clearToItem_eq]
      refine single.mono rfl fun itemId index member held => ?_
      obtain ⟨live, new, here, same⟩ := holds_iff.mp held
      rw [destroyItem] at live here
      dsimp only at live here
      have cell : index ≠ item.bagIndex := by
        rintro rfl
        exact live (Function.update_self ..)
      rw [Function.update_of_ne cell] at live here
      have apart : s.grid index ≠ s.getItemByGrid reply.gridIndex := by
        intro at'
        rw [at', Function.update_self] at here
        cases here
      rw [Function.update_of_ne apart] at here
      exact holds_iff.mpr ⟨live, new, here, same⟩
    case isFalse =>
      refine single.modify fun item => ?_
      rw [Item.decCurHeapCount]
      split <;> rfl

theorem single_step {mgr : ItemDataMgr} {call : BagCall} (single : s.Single) (sound : s.Sound)
    (allowed : s.Allowed call) (alone : s.CallAlone call) : (step mgr s call).Single := by
  cases call with
  | createItem a id itemId heapCount index getTime expireTime =>
    rw [step]
    cases created : s.createItem mgr a id itemId heapCount index getTime expireTime with
    | none => exact single
    | some s' => exact single.createItem sound allowed created
  | setGridItem a index => exact single.setGridItem sound alone
  | setPlayerEquip a pos => exact single.setPlayerEquip
  | addItemByGrid a reply => exact single.addItemByGrid sound allowed alone
  | delItemByGrid reply => exact single.delItemByGrid sound
  | wearEquip index pos =>
    rw [step, wearEquip]
    split
    · exact single
    case _ live => exact single.putOn sound (alone live)
  | removeEquip pos index => exact single.takeOff sound alone
  | batchEquipsOpt opts => exact single.batchEquipsOpt sound alone

/-! ## Links -/

/-- The cells that hold an item. -/
def holders (s : Bag) (itemId : Nat) : List Nat :=
  s.cells.filter fun index => s.holds itemId (s.grid index)

theorem held_eq : s.held itemId = (s.holders itemId).map s.grid := by
  rw [held, List.filter_map]
  rfl

theorem mem_holders : index ∈ s.holders itemId ↔
    index ∈ s.cells ∧ s.holds itemId (s.grid index) = true :=
  List.mem_filter

theorem holders_nodup : (s.holders itemId).Nodup := cells_nodup.filter _

/-- A list without repetition whose members are all the same is short. -/
theorem single_iff : s.Single ↔ ∀ itemId, (s.holders itemId).length ≤ 1 := by
  constructor
  · intro single itemId
    cases shape : s.holders itemId with
    | nil => exact Nat.zero_le _
    | cons index rest =>
      cases rest with
      | nil => exact Nat.le_refl _
      | cons other rest =>
        have first := mem_holders.mp (shape ▸ List.mem_cons_self : index ∈ s.holders itemId)
        have second := mem_holders.mp
          (shape ▸ List.mem_cons_of_mem _ List.mem_cons_self : other ∈ s.holders itemId)
        have same := single itemId index first.1 other second.1 first.2 second.2
        have apart : (index :: other :: rest).Nodup := shape ▸ holders_nodup
        exact absurd (same ▸ List.mem_cons_self) (List.nodup_cons.mp apart).1
  · intro short itemId index member other memberOther here there
    have first := mem_holders.mpr ⟨member, here⟩
    have second := mem_holders.mpr ⟨memberOther, there⟩
    have length := short itemId
    cases shape : s.holders itemId with
    | nil => exact absurd (shape ▸ first) List.not_mem_nil
    | cons one rest =>
      rw [shape] at first second length
      obtain rfl : rest = [] :=
        List.length_eq_zero_iff.mp (Nat.le_zero.mp (Nat.le_of_succ_le_succ length))
      exact (List.mem_singleton.mp first).trans (List.mem_singleton.mp second).symm

theorem Sound.getFirstItem_eq (sound : s.Sound) (itemId : Nat) :
    s.getFirstItem itemId = (s.held itemId).head?.getD 0 := by
  rw [getFirstItem, held, List.head?_filter]
  congr 2
  funext a
  rw [holds]
  cases found : s.items a with
  | none => rw [Option.any_none, Bool.and_false, Bool.false_and]
  | some item => simp [(sound.unlinked found).2]

/-- Links visit a cell at most, so they visit every cell with an item exactly if one holds it. -/
theorem Sound.linked_iff (sound : s.Sound) : (∀ itemId, s.Linked itemId) ↔ s.Single := by
  rw [single_iff]
  constructor
  · intro linked itemId
    obtain ⟨visited, chain, perm⟩ := (linked itemId).visits
    have short : visited.length ≤ 1 := by
      generalize s.getFirstItem itemId = head at chain
      cases chain with
      | nil => exact Nat.zero_le _
      | cons live tail =>
        rw [sound.next_eq] at tail
        rw [tail.eq_nil]
        exact Nat.le_refl _
    rw [perm.length_eq, held_eq, List.length_map] at short
    exact short
  · intro short itemId
    have first := sound.getFirstItem_eq itemId
    have length : (s.held itemId).length ≤ 1 := by
      rw [held_eq, List.length_map]
      exact short itemId
    cases shape : s.held itemId with
    | nil =>
      rw [shape, List.head?_nil, Option.getD_none] at first
      refine ⟨⟨[], first ▸ .nil, shape ▸ .refl _⟩, ?_⟩
      rw [getItemCount, first, shape]
      cases s.maxGridCount with
      | zero => rfl
      | succ fuel => rw [countFrom, if_pos rfl]; rfl
    | cons a rest =>
      rw [shape] at first length
      obtain rfl : rest = [] :=
        List.length_eq_zero_iff.mp (Nat.le_zero.mp (Nat.le_of_succ_le_succ length))
      rw [List.head?_cons, Option.getD_some] at first
      have member : a ∈ s.held itemId := shape ▸ List.mem_singleton_self a
      rw [held_eq, List.mem_map] at member
      obtain ⟨index, member, rfl⟩ := member
      obtain ⟨cell, holds⟩ := mem_holders.mp member
      have live := (holds_iff.mp holds).1
      have chain : Chain 0 s.next (s.grid index) [s.grid index] := by
        refine .cons live ?_
        rw [sound.next_eq]
        exact .nil
      refine ⟨⟨[s.grid index], first ▸ chain, shape ▸ .refl _⟩, ?_⟩
      have valid := mem_cells.mp cell
      rw [checkValidGridIndex, decide_eq_true_eq] at valid
      obtain ⟨fuel, room⟩ : ∃ fuel, s.maxGridCount = fuel + 1 + 1 := ⟨s.maxGridCount - 2, by omega⟩
      rw [getItemCount, first, shape, room, countFrom, if_neg live, sound.next_eq, countFrom,
        if_pos rfl]
      simp

/-! ## Runs -/

theorem single_init (maxCount : Nat) : (init maxCount).Single := by
  intro itemId index _ other _ here
  exact absurd rfl (holds_iff.mp here).1

/-- The links are right as long as no item is put into a cell while another cell holds its like. -/
theorem linked_of_alone (mgr : ItemDataMgr) (maxCount : Nat) (s : Bag) (itemId : Nat)
    (run : Reaches (step mgr) (fun s call => s.Allowed call ∧ s.CallAlone call) (init maxCount) s) :
    s.Linked itemId := by
  have both : s.Sound ∧ s.Single := by
    apply run.invariant
    · exact ⟨sound_init maxCount, single_init maxCount⟩
    · intro state call before fits
      exact ⟨sound_step before.1 fits.1, single_step before.2 before.1 fits.1 fits.2⟩
  exact both.1.linked_iff.mpr both.2 itemId

/-- Two kinds of items: the first stacks up to ten, the second is worn. -/
def twoItems : ItemDataMgr where
  getItemDataById itemId :=
    if itemId = 5 then some ⟨5, 2, 3, 10⟩ else if itemId = 7 then some ⟨7, 20, 30, 1⟩ else none
  keyed {itemId data} found := by
    split_ifs at found <;> cases found <;> exact Eq.symm ‹_›

/-- Stacks grow and are used up, and an item is worn and taken off again. -/
theorem linked_of_alone_worn : Linked
    ([.addItemByGrid 100 ⟨1, 5, 3, 1, 0, 0⟩, .createItem 101 2 7 1 2 0 0, .setGridItem 101 2,
      .wearEquip 2 100000, .addItemByGrid 102 ⟨3, 5, 4, 1, 0, 0⟩, .delItemByGrid ⟨1, 7⟩,
      .removeEquip 100000 1, .batchEquipsOpt [⟨100001, 1, 0⟩, ⟨100001, 3, 1⟩]].foldl
      (step twoItems) (init 4)) 7 :=
  linked_of_alone twoItems 4 _ 7 (Reaches.refl.follow (by decide +kernel))

/-- With an item in two cells, the links lead to the first of them only. -/
theorem second_cell_unlinked : ∃ s, Reaches (step twoItems) Allowed (init 4) s ∧ ¬ s.Linked 5 := by
  refine ⟨[.addItemByGrid 100 ⟨1, 5, 3, 1, 0, 0⟩, .addItemByGrid 101 ⟨2, 5, 4, 2, 0, 0⟩].foldl
    (step twoItems) (init 4), Reaches.refl.follow (by decide +kernel), fun linked => ?_⟩
  have counts := linked.counts
  revert counts
  decide +kernel

end Taomee.Pea.Bag
