import Taomee.Pea.Bag

/-!
# pea: where the items of a bag are

No operation links two items: `get_last_item` finds an element with a next one, and there is none.
-/

namespace Taomee.Pea.Bag

open FreeList Runs

variable {s : Bag} {a b : Addr} {index pos itemId : Nat} {change : Item → Item}

/-- The cells are the indices that pass the check. -/
theorem mem_cells : index ∈ s.cells ↔ s.checkValidGridIndex index = true := by
  simp only [cells, checkValidGridIndex, List.mem_range'_1, decide_eq_true_eq]
  omega

/-- A live item comes from a valid cell. -/
theorem getItemByGrid_ne (live : s.getItemByGrid index ≠ 0) :
    s.checkValidGridIndex index ∧ s.getItemByGrid index = s.grid index := by
  rw [getItemByGrid] at live ⊢
  split at live
  case isTrue valid => exact ⟨valid, if_pos valid⟩
  case isFalse => exact absurd rfl live

/-- There is nothing to change where no item is. -/
theorem modify_of_none (absent : s.items a = none) : s.modify a change = s := by
  have same : Function.update s.items a none = s.items := by
    rw [← absent]
    exact Function.update_eq_self a s.items
  rw [modify, absent, Option.map_none, same]

theorem modify_items_self : (s.modify a change).items a = (s.items a).map change :=
  Function.update_self a _ s.items

theorem modify_items_of_ne (apart : b ≠ a) : (s.modify a change).items b = s.items b :=
  Function.update_of_ne apart _ s.items

/-- A change that keeps the data of an item keeps what the pointers hold. -/
theorem holds_modify (keeps : ∀ item, (change item).data = item.data) :
    (s.modify a change).holds itemId b = s.holds itemId b := by
  obtain rfl | apart := eq_or_ne b a
  · rw [holds, holds, modify_items_self]
    cases s.items b with
    | none => rfl
    | some item => simp [keeps]
  · rw [holds, holds, modify_items_of_ne apart]

/-- Every item is unlinked, those in the cells know their cell, and those worn are elsewhere. -/
structure Sound (s : Bag) : Prop where
  null : s.items 0 = none
  unlinked : ∀ {a item}, s.items a = some item → item.next = 0 ∧ item.prev = 0
  placed : ∀ {index}, s.checkValidGridIndex index → s.grid index ≠ 0 →
    ∃ item, s.items (s.grid index) = some item ∧ item.bagIndex = index
  worn : ∀ {place}, s.equips place ≠ 0 → (s.items (s.equips place)).isSome ∧
    ∀ index, s.checkValidGridIndex index → s.grid index ≠ s.equips place
  once : ∀ {place other}, s.equips place ≠ 0 → s.equips place = s.equips other → place = other

/-- A new bag is empty. -/
theorem sound_init (maxCount : Nat) : (init maxCount).Sound where
  null := rfl
  unlinked found := nomatch found
  placed _ live := absurd rfl live
  worn live := absurd rfl live
  once live := absurd rfl live

namespace Sound

/-- No item of a sound bag has a next one. -/
theorem next_eq (sound : s.Sound) (a : Addr) : s.next a = 0 := by
  rw [next]
  cases found : s.items a with
  | none => rfl
  | some item => exact (sound.unlinked found).1

/-- Without links there is nothing to clear. -/
theorem clearToItem_eq (sound : s.Sound) (a : Addr) : s.clearToItem a = s := by
  rw [clearToItem]
  cases found : s.items a with
  | none => rfl
  | some item =>
    obtain ⟨next, prev⟩ := sound.unlinked found
    simp only [next, prev, if_true]

/-- A pointer to an item in one cell is in no other. -/
theorem grid_injective (sound : s.Sound) {other : Nat} (valid : s.checkValidGridIndex index)
    (validOther : s.checkValidGridIndex other) (live : s.grid index ≠ 0)
    (same : s.grid other = s.grid index) : other = index := by
  obtain ⟨item, found, here⟩ := sound.placed valid live
  obtain ⟨item', found', there⟩ := sound.placed validOther (same ▸ live)
  rw [same, found] at found'
  cases found'
  exact there.symm.trans here

/-- A change that keeps the links of an item is harmless if it keeps the place of one in a cell. -/
theorem modify (sound : s.Sound)
    (keeps : ∀ item, (change item).next = item.next ∧ (change item).prev = item.prev)
    (stays : (∀ item, (change item).bagIndex = item.bagIndex) ∨
      ∀ index, s.checkValidGridIndex index → s.grid index ≠ a) : (s.modify a change).Sound where
  null := by
    obtain rfl | apart := eq_or_ne 0 a
    · rw [modify_items_self, sound.null, Option.map_none]
    · rw [modify_items_of_ne apart, sound.null]
  unlinked {b item} found := by
    obtain rfl | apart := eq_or_ne b a
    · rw [modify_items_self, Option.map_eq_some_iff] at found
      obtain ⟨old, here, rfl⟩ := found
      rw [(keeps old).1, (keeps old).2]
      exact sound.unlinked here
    · rw [modify_items_of_ne apart] at found
      exact sound.unlinked found
  placed {index} valid live := by
    obtain ⟨item, found, here⟩ := sound.placed valid live
    show ∃ item, (s.modify a change).items (s.grid index) = some item ∧ item.bagIndex = index
    obtain same | apart := eq_or_ne (s.grid index) a
    · subst same
      have kept := stays.resolve_right fun free => free index valid rfl
      exact ⟨change item, by rw [modify_items_self, found, Option.map_some], (kept item).trans here⟩
    · exact ⟨item, by rw [modify_items_of_ne apart, found], here⟩
  worn {place} live := by
    obtain ⟨found, elsewhere⟩ := sound.worn live
    refine ⟨?_, elsewhere⟩
    show ((s.modify a change).items (s.equips place)).isSome
    obtain same | apart := eq_or_ne (s.equips place) a
    · subst same
      rw [modify_items_self, Option.isSome_map]
      exact found
    · rw [modify_items_of_ne apart]
      exact found
  once := sound.once

/-- A cell takes an item that has its index and is not worn. -/
theorem setCell (sound : s.Sound)
    (fits : a ≠ 0 → (∃ item, s.items a = some item ∧ item.bagIndex = index) ∧
      ∀ place, s.equips place ≠ a) :
    ({ s with grid := Function.update s.grid index a } : Bag).Sound where
  null := sound.null
  unlinked := sound.unlinked
  placed {other} valid live := by
    dsimp only at live ⊢
    obtain rfl | apart := eq_or_ne other index
    · rw [Function.update_self] at live ⊢
      exact (fits live).1
    · rw [Function.update_of_ne apart] at live ⊢
      exact sound.placed valid live
  worn {place} live := by
    obtain ⟨found, elsewhere⟩ := sound.worn live
    refine ⟨found, fun other valid => ?_⟩
    dsimp only at live ⊢
    obtain rfl | apart := eq_or_ne other index
    · rw [Function.update_self]
      intro same
      exact (fits (same ▸ live)).2 place same.symm
    · rw [Function.update_of_ne apart]
      exact elsewhere other valid
  once := sound.once

/-- A position takes an item that is in no cell and not worn. -/
theorem setPlace (sound : s.Sound) (place : EquipPos) (fits : a ≠ 0 → (s.items a).isSome ∧
      (∀ index, s.checkValidGridIndex index → s.grid index ≠ a) ∧ ∀ place, s.equips place ≠ a) :
    ({ s with equips := Function.update s.equips place a } : Bag).Sound where
  null := sound.null
  unlinked := sound.unlinked
  placed := sound.placed
  worn {other} live := by
    dsimp only at live ⊢
    obtain rfl | apart := eq_or_ne other place
    · rw [Function.update_self] at live ⊢
      exact ⟨(fits live).1, (fits live).2.1⟩
    · rw [Function.update_of_ne apart] at live ⊢
      exact sound.worn live
  once {p q} live same := by
    dsimp only at live same
    by_cases first : p = place <;> by_cases second : q = place
    · exact first.trans second.symm
    · subst first
      rw [Function.update_self] at live same
      rw [Function.update_of_ne second] at same
      exact absurd same.symm ((fits live).2.2 q)
    · subst second
      rw [Function.update_of_ne first] at live same
      rw [Function.update_self] at same
      exact absurd same ((fits (same ▸ live)).2.2 p)
    · rw [Function.update_of_ne first] at live same
      rw [Function.update_of_ne second] at same
      exact sound.once live same

end Sound

/-! ## Cells and positions -/

/-- What `set_grid_item` comes to where nothing is linked. -/
def put (s : Bag) (a : Addr) (index : Nat) : Bag :=
  { s with grid := Function.update s.grid index a }.modify a (.setGridIndex index)

/-- `set_player_equip` without the index of the item. -/
def wear (s : Bag) (a : Addr) (pos : Nat) : Bag :=
  { s with equips := (EquipPos.ofNat? pos).elim s.equips fun place =>
    Function.update s.equips place a }

/-- A place holds the item worn now or what it held. -/
theorem wear_equips (pos : Nat) (place : EquipPos) :
    (s.wear a pos).equips place = a ∨ (s.wear a pos).equips place = s.equips place := by
  rw [wear]
  cases EquipPos.ofNat? pos with
  | none => exact .inr rfl
  | some changed =>
    obtain rfl | apart := eq_or_ne place changed
    · exact .inl (Function.update_self ..)
    · exact .inr (Function.update_of_ne apart ..)

/-- Taking off leaves the place empty. -/
theorem setPlayerEquip_null (null : s.items 0 = none) :
    (s.setPlayerEquip 0 pos).1 = s.wear 0 pos := by
  rw [setPlayerEquip, wear]
  cases EquipPos.ofNat? pos with
  | none => rfl
  | some place => exact modify_of_none null

/-- What is put on last is what is worn. -/
theorem setPlayerEquip_wear : ((s.wear b pos).setPlayerEquip a pos).1 = (s.setPlayerEquip a pos).1 := by
  rw [setPlayerEquip, setPlayerEquip, wear]
  cases EquipPos.ofNat? pos with
  | none => rfl
  | some place =>
    dsimp only [Option.elim_some]
    rw [Function.update_idem]

/-- Without links every item is the last. -/
theorem lastFrom_eq (unlinked : ∀ a, s.next a = 0) (fuel : Nat) (a : Addr) :
    s.lastFrom fuel a = 0 := by
  induction fuel generalizing a with
  | zero => rfl
  | succ fuel ih =>
    rw [lastFrom, if_neg (not_not.mpr (unlinked a)), ih, ite_self]

/-- Putting an item into a cell links nothing. -/
theorem next_put (sound : s.Sound) (b : Addr) : (s.put a index).next b = 0 := by
  have before := sound.next_eq b
  rw [next] at before ⊢
  obtain rfl | apart := eq_or_ne b a
  · rw [put, modify_items_self]
    cases found : s.items b with
    | none => rfl
    | some item =>
      rw [found] at before
      exact before
  · rw [put, modify_items_of_ne apart]
    exact before

/-- No item lies at the null address. -/
theorem put_null (sound : s.Sound) : (s.put a index).items 0 = none := by
  rw [put]
  obtain rfl | apart := eq_or_ne 0 a
  · exact congrArg (Option.map _) sound.null
  · rw [modify_items_of_ne apart]
    exact sound.null

/-- `set_grid_item` is a plain write in a sound bag. -/
theorem Sound.setGridItem_eq (sound : s.Sound) (a : Addr) (index : Nat) :
    (s.setGridItem a index).1 =
      if s.checkValidGridIndex index ∧ (a = 0 ∨ (s.items a).isSome) then s.put a index else s := by
  cases valid : s.checkValidGridIndex index with
  | false => rw [setGridItem, if_pos valid, if_neg (by simp)]
  | true =>
    rw [setGridItem, if_neg (by rw [valid]; decide)]
    by_cases null : a = 0
    · subst null
      have same : s.put 0 index = { s with grid := Function.update s.grid index 0 } :=
        modify_of_none sound.null
      rw [if_pos rfl, if_pos ⟨rfl, .inl rfl⟩, same]
    · rw [if_neg null]
      cases s.items a with
      | none => rw [if_neg (by simp [null])]
      | some item =>
        have last : (s.put a index).getLastItem item.data.itemId = 0 := lastFrom_eq (next_put sound) _ _
        rw [if_pos ⟨rfl, .inr rfl⟩]
        dsimp only
        rw [put] at last
        rw [if_neg (not_not.mpr last), put]

/-- A loose item lies in no cell. -/
theorem Loose.grid_ne (loose : s.Loose a) (live : a ≠ 0) (valid : s.checkValidGridIndex index) :
    s.grid index ≠ a :=
  (loose.resolve_left live).2.1 index (mem_cells.mpr valid)

/-- A loose item is worn nowhere. -/
theorem Loose.equips_ne (loose : s.Loose a) (live : a ≠ 0) (place : EquipPos) :
    s.equips place ≠ a :=
  (loose.resolve_left live).2.2 place (by cases place <;> decide)

/-- A loose item exists. -/
theorem Loose.found (loose : s.Loose a) (live : a ≠ 0) : ∃ item, s.items a = some item :=
  Option.isSome_iff_exists.mp (loose.resolve_left live).1

/-- What is neither in a cell nor worn can be put anywhere. -/
theorem loose_of (found : (s.items a).isSome)
    (cells : ∀ index, s.checkValidGridIndex index → s.grid index ≠ a)
    (places : ∀ place, s.equips place ≠ a) : s.Loose a :=
  .inr ⟨found, fun index member => cells index (mem_cells.mp member), fun place _ => places place⟩

namespace Sound

/-- A loose item may be put into any cell. -/
theorem put (sound : s.Sound) (loose : s.Loose a) : (s.put a index).Sound := by
  have moved : (s.modify a (.setGridIndex index)).Sound := by
    obtain rfl | live := eq_or_ne a 0
    · rw [modify_of_none sound.null]
      exact sound
    · exact sound.modify (fun _ => ⟨rfl, rfl⟩) (.inr fun _ => loose.grid_ne live)
  refine moved.setCell fun live => ⟨?_, loose.equips_ne live⟩
  obtain ⟨item, here⟩ := loose.found live
  exact ⟨item.setGridIndex index, by rw [modify_items_self, here, Option.map_some], rfl⟩

/-- `set_grid_item` keeps the bag sound. -/
theorem setGridItem (sound : s.Sound) (loose : s.Loose a) : (s.setGridItem a index).1.Sound := by
  rw [sound.setGridItem_eq]
  split
  · exact sound.put loose
  · exact sound

/-- A loose item may be worn. -/
theorem setPlayerEquip (sound : s.Sound) (loose : s.Loose a) :
    (s.setPlayerEquip a pos).1.Sound := by
  rw [Bag.setPlayerEquip]
  cases EquipPos.ofNat? pos with
  | none => exact sound
  | some place =>
    dsimp only
    have worn := sound.setPlace place fun live =>
      ⟨(loose.resolve_left live).1, fun _ => loose.grid_ne live, loose.equips_ne live⟩
    obtain rfl | live := eq_or_ne a 0
    · rw [modify_of_none worn.null]
      exact worn
    · exact worn.modify (fun _ => ⟨rfl, rfl⟩) (.inr fun _ => loose.grid_ne live)

/-- What is worn is in no cell, so it is loose once its position is empty. -/
theorem loose_getEquipByPos (sound : s.Sound) :
    (s.setPlayerEquip 0 pos).1.Loose (s.getEquipByPos pos) := by
  rw [getEquipByPos, Bag.setPlayerEquip]
  cases EquipPos.ofNat? pos with
  | none => exact .inl rfl
  | some place =>
    dsimp only [Option.elim_some]
    obtain null | live := eq_or_ne (s.equips place) 0
    · exact .inl null
    · obtain ⟨found, elsewhere⟩ := sound.worn live
      have items : ({ s with equips := Function.update s.equips place 0 } : Bag).items 0 = none :=
        sound.null
      rw [modify_of_none items]
      refine loose_of found elsewhere fun other => ?_
      dsimp only
      obtain rfl | apart := eq_or_ne other place
      · rw [Function.update_self]
        exact live.symm
      · rw [Function.update_of_ne apart]
        exact fun same => apart (sound.once live same.symm).symm

/-- Taking an item off is emptying its position and putting the item into the cell. -/
theorem takeOff_eq (sound : s.Sound) :
    s.takeOff pos index =
      ((s.setPlayerEquip 0 pos).1.setGridItem (s.getEquipByPos pos) index).1 := by
  have emptied : (s.wear 0 pos).Sound := by
    rw [← setPlayerEquip_null sound.null]
    exact sound.setPlayerEquip (.inl rfl)
  rw [Bag.takeOff, setPlayerEquip_null sound.null, emptied.setGridItem_eq, sound.setGridItem_eq]
  have same : ((s.wear 0 pos).checkValidGridIndex index ∧
      (s.getEquipByPos pos = 0 ∨ ((s.wear 0 pos).items (s.getEquipByPos pos)).isSome)) ↔
      s.checkValidGridIndex index ∧
        (s.getEquipByPos pos = 0 ∨ (s.items (s.getEquipByPos pos)).isSome) := Iff.rfl
  by_cases fits : s.checkValidGridIndex index ∧
    (s.getEquipByPos pos = 0 ∨ (s.items (s.getEquipByPos pos)).isSome)
  · rw [if_pos fits, if_pos (same.mpr fits), setPlayerEquip_null (put_null sound)]
    rfl
  · rw [if_neg fits, if_neg (mt same.mp fits), setPlayerEquip_null sound.null]

/-- What is taken off goes into the cell. -/
theorem takeOff (sound : s.Sound) : (s.takeOff pos index).Sound := by
  rw [sound.takeOff_eq]
  exact (sound.setPlayerEquip (.inl rfl)).setGridItem sound.loose_getEquipByPos

theorem setGridItem_null (sound : s.Sound) : (s.setGridItem a index).1.items 0 = none := by
  rw [sound.setGridItem_eq]
  split
  · exact put_null sound
  · exact sound.null

/-- Putting an item on is taking off what is worn, and then wearing it. -/
theorem putOn_eq (sound : s.Sound) :
    s.putOn a index pos = ((s.takeOff pos index).setPlayerEquip a pos).1 := by
  rw [Bag.putOn, sound.clearToItem_eq, Bag.takeOff]
  rw [setPlayerEquip_null sound.setGridItem_null, setPlayerEquip_wear]

/-- What is worn lies in no cell. -/
theorem getEquipByPos_cases (sound : s.Sound) (pos : Nat) :
    s.getEquipByPos pos = 0 ∨ (s.items (s.getEquipByPos pos)).isSome ∧
      ∀ index, s.checkValidGridIndex index → s.grid index ≠ s.getEquipByPos pos := by
  rw [getEquipByPos]
  cases EquipPos.ofNat? pos with
  | none => exact .inl rfl
  | some place => exact (eq_or_ne _ 0).imp_right sound.worn

/-- An item in a cell is loose once what was worn is in its place. -/
theorem loose_takeOff (sound : s.Sound) (valid : s.checkValidGridIndex index)
    (live : s.grid index ≠ 0) : (s.takeOff pos index).Loose (s.grid index) := by
  obtain ⟨item, found, -⟩ := sound.placed valid live
  have equip := sound.getEquipByPos_cases pos
  have apart : s.getEquipByPos pos ≠ s.grid index := by
    obtain null | ⟨-, elsewhere⟩ := equip
    · exact null ▸ live.symm
    · exact (elsewhere index valid).symm
  rw [Bag.takeOff, sound.setGridItem_eq, if_pos ⟨valid, equip.imp_right And.left⟩,
    setPlayerEquip_null (put_null sound)]
  refine loose_of ?_ (fun other validOther => ?_) fun place same => ?_
  · show ((s.put (s.getEquipByPos pos) index).items (s.grid index)).isSome
    rw [Bag.put, modify_items_of_ne apart.symm, found]
    rfl
  · show Function.update s.grid index (s.getEquipByPos pos) other ≠ s.grid index
    obtain rfl | distinct := eq_or_ne other index
    · rw [Function.update_self]
      exact apart
    · rw [Function.update_of_ne distinct]
      exact fun same => distinct (sound.grid_injective valid validOther live same)
  · obtain null | kept := wear_equips (s := s.put (s.getEquipByPos pos) index) (a := 0) pos place
    · exact live (same.symm.trans null)
    · have on : s.equips place = s.grid index := kept.symm.trans same
      exact (sound.worn (on ▸ live)).2 index valid on.symm

/-- What is put on leaves its cell. -/
theorem putOn (sound : s.Sound) (valid : s.checkValidGridIndex index) (live : s.grid index ≠ 0) :
    (s.putOn (s.grid index) index pos).Sound := by
  rw [sound.putOn_eq]
  exact sound.takeOff.setPlayerEquip (sound.loose_takeOff valid live)

/-- An item found by its cell may be put on. -/
theorem putOn_getItemByGrid (sound : s.Sound) (live : s.getItemByGrid index ≠ 0) :
    (s.putOn (s.getItemByGrid index) index pos).Sound := by
  obtain ⟨valid, same⟩ := getItemByGrid_ne live
  rw [same] at live ⊢
  exact sound.putOn valid live

/-! ## Calls -/

/-- The memory at a pointer that is in no cell and not worn can change. -/
theorem setItem (sound : s.Sound) {item : Option Item} (live : a ≠ 0)
    (free : ∀ index, s.checkValidGridIndex index → s.grid index ≠ a)
    (off : ∀ place, s.equips place ≠ a)
    (links : ∀ {new}, item = some new → new.next = 0 ∧ new.prev = 0) :
    ({ s with items := Function.update s.items a item } : Bag).Sound where
  null := by
    dsimp only
    rw [Function.update_of_ne live.symm]
    exact sound.null
  unlinked {b new} found := by
    dsimp only at found
    obtain rfl | apart := eq_or_ne b a
    · rw [Function.update_self] at found
      exact links found
    · rw [Function.update_of_ne apart] at found
      exact sound.unlinked found
  placed {index} valid cell := by
    dsimp only
    rw [Function.update_of_ne (free index valid)]
    exact sound.placed valid cell
  worn {place} on := by
    dsimp only
    rw [Function.update_of_ne (off place)]
    exact sound.worn on
  once := sound.once

/-- Fresh memory is in no cell and not worn. -/
theorem fresh_apart (sound : s.Sound) (fresh : s.Fresh a) :
    (∀ index, s.checkValidGridIndex index → s.grid index ≠ a) ∧ ∀ place, s.equips place ≠ a := by
  have absent : s.items a = none := Option.isNone_iff_eq_none.mp fresh.2
  constructor
  · rintro index valid rfl
    obtain ⟨item, found, -⟩ := sound.placed valid fresh.1
    rw [absent] at found
    cases found
  · rintro place rfl
    have found := (sound.worn fresh.1).1
    rw [absent] at found
    cases found

/-- An item that is created is loose. -/
theorem createItem (sound : s.Sound) {mgr : ItemDataMgr} {s' : Bag} {id itemId' : Nat}
    {heapCount : UInt32} {index getTime expireTime : Nat} (fresh : s.Fresh a)
    (created : s.createItem mgr a id itemId' heapCount index getTime expireTime = some s') :
    s'.Sound ∧ s'.Loose a := by
  obtain ⟨data, -, rfl⟩ := Option.map_eq_some_iff.mp created
  obtain ⟨free, off⟩ := sound.fresh_apart fresh
  refine ⟨sound.setItem fresh.1 free off fun new => ?_, loose_of ?_ free off⟩
  · cases new
    exact ⟨rfl, rfl⟩
  · dsimp only
    rw [Function.update_self]
    rfl

/-- An addition that the database grants keeps the bag sound. -/
theorem addItemByGrid (sound : s.Sound) {mgr : ItemDataMgr} {reply : AddItemReply}
    (fresh : s.Fresh a) : (s.addItemByGrid mgr a reply).1.Sound := by
  rw [Bag.addItemByGrid]
  split
  · exact sound
  split
  · split
    case _ => exact sound
    case _ created =>
      obtain ⟨next, loose⟩ := sound.createItem fresh created
      exact next.setGridItem loose
  · refine sound.modify (fun item => ?_) (.inl fun item => ?_)
    all_goals
      rw [Item.incCurHeapCount]
      split
    · exact ⟨rfl, rfl⟩
    · exact ⟨rfl, rfl⟩
    · rfl
    · rfl

/-- A removal keeps the bag sound. -/
theorem delItemByGrid (sound : s.Sound) {reply : DelItemReply} :
    (s.delItemByGrid reply).1.Sound := by
  cases valid : s.checkValidGridIndex reply.gridIndex with
  | false =>
    rw [Bag.delItemByGrid, if_pos valid]
    exact sound
  | true =>
    rw [Bag.delItemByGrid, if_neg (by rw [valid]; decide), getItemByGrid, if_pos valid]
    dsimp only
    cases found : s.items (s.grid reply.gridIndex) with
    | none => exact sound
    | some item =>
      dsimp only
      split
      case isFalse =>
        refine sound.modify (fun item => ?_) (.inl fun item => ?_)
        all_goals
          rw [Item.decCurHeapCount]
          split
        · exact ⟨rfl, rfl⟩
        · exact ⟨rfl, rfl⟩
        · rfl
        · rfl
      case isTrue =>
        have live : s.grid reply.gridIndex ≠ 0 := fun null => by
          rw [null, sound.null] at found
          cases found
        obtain ⟨same, found', here⟩ := sound.placed valid live
        rw [found] at found'
        cases found'
        rw [sound.clearToItem_eq, here]
        have emptied :
            ({ s with grid := Function.update s.grid reply.gridIndex 0 } : Bag).Sound :=
          sound.setCell fun live => absurd rfl live
        refine emptied.setItem live (fun index valid' => ?_) (fun place => ?_) fun new => by cases new
        · dsimp only
          obtain rfl | apart := eq_or_ne index reply.gridIndex
          · rw [Function.update_self]
            exact live.symm
          · rw [Function.update_of_ne apart]
            exact fun same => apart (sound.grid_injective valid valid' live same)
        · intro on
          exact (sound.worn (on ▸ live)).2 _ valid on.symm

/-- One change of equipment keeps the bag sound. -/
theorem equipOpt (sound : s.Sound) (opt : EquipChange) : (s.equipOpt opt).Sound := by
  have hidden : ∀ {t : Bag} {b : Addr}, t.Sound →
      (t.modify b fun item => { item with hide := some opt.hide }).Sound := fun before =>
    before.modify (fun _ => ⟨rfl, rfl⟩) (.inl fun _ => rfl)
  rw [Bag.equipOpt]
  split
  · split
    · exact hidden sound
    · exact sound
  split
  · split
    · exact sound.takeOff
    · exact sound
  case _ live => exact hidden (sound.putOn_getItemByGrid live)

/-- Changes of equipment are done one by one. -/
theorem batchEquipsOpt (sound : s.Sound) (opts : List EquipChange) :
    (s.batchEquipsOpt opts).Sound := by
  induction opts generalizing s with
  | nil => exact sound
  | cons opt rest ih => exact ih (sound.equipOpt opt)

end Sound

/-- Every call keeps the items in their places. -/
theorem sound_step {mgr : ItemDataMgr} {call : BagCall} (sound : s.Sound)
    (allowed : s.Allowed call) : (step mgr s call).Sound := by
  cases call with
  | createItem a id itemId heapCount index getTime expireTime =>
    rw [step]
    cases created : s.createItem mgr a id itemId heapCount index getTime expireTime with
    | none => exact sound
    | some s' => exact (sound.createItem allowed created).1
  | setGridItem a index => exact sound.setGridItem allowed
  | setPlayerEquip a pos => exact sound.setPlayerEquip allowed
  | addItemByGrid a reply => exact sound.addItemByGrid allowed
  | delItemByGrid reply => exact sound.delItemByGrid
  | wearEquip index pos =>
    rw [step, wearEquip]
    split
    · exact sound
    case _ live => exact sound.putOn_getItemByGrid live
  | removeEquip pos index => exact sound.takeOff
  | batchEquipsOpt opts => exact sound.batchEquipsOpt opts

end Taomee.Pea.Bag
