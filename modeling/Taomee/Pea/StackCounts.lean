import Taomee.Pea.StackAddition

/-!
# pea: when the counts of an item come out right

A call that removes or adds a number of an item is right under conditions on the stacks before it.
-/

namespace Taomee.Pea.Bag

open FreeList

variable {mgr : ItemDataMgr} {s : Bag} {data : ItemData} {itemId : Nat} {itemCount : UInt32}
  {news : Nat → Addr}

theorem checkAddItem_eq (itemCount : UInt32) (proper : s.Proper mgr)
    (known : mgr.getItemDataById itemId = some data) (positive : 0 < data.maxHeapNum.toNat) :
    ∃ done, s.checkAddItem mgr itemId itemCount = some done ∧
      (done = true ↔ ¬s.SparesCell itemId itemCount data) := by
  have some' : data.maxHeapNum ≠ 0 := by
    rintro none'
    rw [none'] at positive
    exact absurd positive (Nat.lt_irrefl 0)
  have few : s.emptyCells.length < 2 ^ 32 := by
    have within : s.emptyCells.length ≤ s.cells.length := List.length_filter_le _ _
    have small := proper.small
    rw [Bag.cells, List.length_range'] at within
    omega
  have empty : s.getEmptyGridCount.toNat = s.emptyCells.length := by
    rw [getEmptyGridCount, UInt32.toNat_ofNat', Nat.mod_eq_of_lt few]
  refine ⟨_, by rw [checkAddItem, known, Option.bind_some, if_neg some'], ?_⟩
  rw [decide_eq_true_iff, ge_iff_le, UInt32.le_iff_toNat_le, empty, le_needGridCount_iff positive,
    SparesCell, remainAfter_eq]
  rfl

theorem Visits.gaps_eq {visited : List Addr} (visits : s.Visits itemId visited)
    (cells : s.Cells mgr) : s.gaps itemId = s.gapsOf visited := by
  rw [gaps, gapsOf, visits.heaps_eq cells]

theorem Visits.behind {visited : List Addr} (visits : s.Visits itemId visited) :
    s.Behind itemId (s.getFirstItem itemId) visited :=
  ⟨visits.chain, visits.distinct, visits.placed⟩

/-- What `add_item` does behind its check. -/
theorem addItem_eq (turns : Nat) (checked : s.checkAddItem mgr itemId itemCount = some true) :
    s.addItem mgr itemId itemCount turns news =
      if s.getFirstItem itemId = 0 then s.addItemToEmptyGrid mgr itemId itemCount turns news
      else (fillFrom turns s (s.getFirstItem itemId) itemCount).bind fun (s, remainCount) =>
        if remainCount > 0 then s.addItemToEmptyGrid mgr itemId remainCount turns news
        else some (s, true) := by
  rw [addItem, checked, Option.bind_some, if_neg (by decide)]

/-- More turns are no hindrance to a loop that ends. -/
theorem fillFrom_mono {a : Addr} {remainCount : UInt32} {turns : Nat} {result : Bag × UInt32}
    (returns : fillFrom turns s a remainCount = some result) (more : Nat) :
    fillFrom (turns + more) s a remainCount = some result := by
  induction turns generalizing s a remainCount with
  | zero => cases returns
  | succ turns ih =>
    rw [Nat.succ_add]
    rw [fillFrom] at returns ⊢
    split at returns
    case isTrue null => rwa [if_pos null]
    case isFalse live =>
      rw [if_neg live]
      cases found : s.items a with
      | none =>
        rw [found] at returns
        cases returns
      | some item =>
        simp only [found] at returns ⊢
        split at returns
        case isTrue full => rw [if_pos full, ih returns]
        case isFalse free =>
          rw [if_neg free]
          split at returns
          case isTrue less => rw [if_pos less, ih returns]
          case isFalse more' => rw [if_neg more', returns]

theorem fillEmptyFrom_mono {lastItem : Addr} {remainCount : UInt32} {turns : Nat} {result : Bag}
    (known : mgr.getItemDataById itemId = some data) (positive : 0 < data.maxHeapNum.toNat)
    (returns : fillEmptyFrom mgr itemId turns news s lastItem remainCount = some result)
    (more : Nat) :
    fillEmptyFrom mgr itemId (turns + more) news s lastItem remainCount = some result := by
  induction turns generalizing s news lastItem remainCount with
  | zero => cases returns
  | succ turns ih =>
    rw [Nat.succ_add]
    rw [fillEmptyFrom_succ known positive] at returns ⊢
    split at returns
    case isTrue last => rwa [if_pos last]
    case isFalse goes =>
      obtain ⟨index, empty, returns⟩ := Option.bind_eq_some_iff.mp returns
      obtain ⟨t, created, returns⟩ := Option.bind_eq_some_iff.mp returns
      rw [if_neg goes, empty, Option.bind_some, created, Option.bind_some, ih returns]

/-- What an addition behind the check adds exactly, it adds where no full stack stalls it and the
rest comes in whole stacks. -/
theorem fillsWhole_of_addItem (proper : s.Proper mgr) (fresh : s.FreshNews news)
    (known : mgr.getItemDataById itemId = some data) (positive : 0 < data.maxHeapNum.toNat)
    {turns : Nat} {s' : Bag} (checked : s.checkAddItem mgr itemId itemCount = some true)
    (returns : s.addItem mgr itemId itemCount turns news = some (s', true))
    (added : s'.total itemId = s.total itemId + itemCount.toNat) :
    s.FillsWhole itemId itemCount data := by
  obtain ⟨visited, visits⟩ := proper.exists_visits itemId
  have gaps := visits.gaps_eq proper.toCells
  rw [addItem_eq turns checked] at returns
  split at returns
  case isTrue none' =>
    have chain := visits.chain
    rw [none'] at chain
    obtain rfl := chain.eq_nil
    have nothing : s.gaps itemId = [] := gaps
    obtain ⟨t, ends, same⟩ := Option.map_eq_some_iff.mp returns
    obtain ⟨rfl, -⟩ := Prod.mk.inj same
    obtain ⟨whole, few, -⟩ | beyond := fillEmptyFrom_spec known positive proper.toCells fresh ends
    · refine ⟨fun k full => ?_, ?_, ?_⟩
      · rw [nothing] at full
        cases full
      · rwa [nothing, List.sum_nil, Nat.sub_zero]
      · rwa [nothing, List.sum_nil, Nat.sub_zero]
    · omega
  case isFalse =>
    obtain ⟨⟨t, left⟩, filled, returns⟩ := Option.bind_eq_some_iff.mp returns
    obtain ⟨noStall, left', spec⟩ := fillFrom_spec proper.toCells visits.behind filled
    have total := spec.total
    have rest : data.maxHeapNum.toNat ∣ left.toNat ∧
        left.toNat / data.maxHeapNum.toNat ≤ s.emptyCells.length := by
      dsimp only at returns
      split at returns
      case isTrue some' =>
        obtain ⟨u, ends, same⟩ := Option.map_eq_some_iff.mp returns
        obtain ⟨rfl, -⟩ := Prod.mk.inj same
        obtain ⟨whole, few, -⟩ | beyond :=
          fillEmptyFrom_spec known positive spec.cells (fresh.filled spec) ends
        · rw [spec.emptyCells] at few
          exact ⟨whole, few⟩
        · omega
      case isFalse none' =>
        have last : left.toNat = 0 := by
          by_contra some'
          exact none' (UInt32.lt_iff_toNat_lt.mpr (Nat.pos_of_ne_zero some'))
        rw [last]
        exact ⟨Nat.dvd_zero _, (Nat.zero_div _).trans_le (Nat.zero_le _)⟩
    rw [left', ← gaps] at rest
    refine ⟨fun k full => ?_, rest.1, rest.2⟩
    rw [gaps] at full ⊢
    exact noStall k full

theorem addItem_of_fillsWhole (proper : s.Proper mgr) (fresh : s.FreshNews news)
    (known : mgr.getItemDataById itemId = some data) (positive : 0 < data.maxHeapNum.toNat)
    (checked : s.checkAddItem mgr itemId itemCount = some true)
    (fits : s.FillsWhole itemId itemCount data) :
    ∃ turns s', s.addItem mgr itemId itemCount turns news = some (s', true) ∧
      s'.total itemId = s.total itemId + itemCount.toNat ∧ s.OthersKept itemId s' ∧
      s'.Cells mgr := by
  obtain ⟨visited, visits⟩ := proper.exists_visits itemId
  have gaps := visits.gaps_eq proper.toCells
  obtain ⟨noStall, whole, few⟩ := fits
  rw [gaps] at noStall whole few
  have cells := proper.toCells
  simp only [addItem_eq _ checked]
  by_cases none' : s.getFirstItem itemId = 0
  · have chain := visits.chain
    rw [none'] at chain
    obtain rfl := chain.eq_nil
    obtain ⟨turns, s', ends, cells', total, others⟩ := @fillEmptyFrom_of_whole _ _ 0 _ _ _ _ known
      positive cells fresh _ (Nat.mul_div_cancel' whole).symm few
    refine ⟨turns, s', ?_, total, others, cells'⟩
    rw [if_pos none', addItemToEmptyGrid, ends, Option.map_some]
  · obtain ⟨turns, t, left, filled⟩ := fillFrom_of_noStall cells visits.behind noStall
    obtain ⟨-, left', spec⟩ := fillFrom_spec cells visits.behind filled
    have total := spec.total
    rw [← left'] at whole few
    rw [← spec.emptyCells] at few
    by_cases some' : left > 0
    · obtain ⟨turns', s', ends, cells', total', others⟩ := @fillEmptyFrom_of_whole _ _ 0 _ _ _ _
        known positive spec.cells (fresh.filled spec) _ (Nat.mul_div_cancel' whole).symm few
      refine ⟨turns + turns', s', ?_, by omega, spec.others.trans others, cells'⟩
      rw [if_neg none', fillFrom_mono filled turns', Option.bind_some]
      rw [if_pos some', addItemToEmptyGrid, Nat.add_comm, fillEmptyFrom_mono known positive ends,
        Option.map_some]
    · have last : left.toNat = 0 := by
        by_contra more
        exact some' (UInt32.lt_iff_toNat_lt.mpr (Nat.pos_of_ne_zero more))
      refine ⟨turns, t, ?_, by omega, spec.others, spec.cells⟩
      rw [if_neg none', filled, Option.bind_some]
      rw [if_neg some']

/-- `add_item` goes right exactly where it refuses with a cell to spare, or where no full stack
stalls it and the rest comes in whole stacks. -/
theorem addRight_iff (proper : s.Proper mgr) (fresh : s.FreshNews news) :
    s.AddRight mgr itemId itemCount news ↔
      ∃ data, mgr.getItemDataById itemId = some data ∧ 0 < data.maxHeapNum.toNat ∧
        (s.SparesCell itemId itemCount data ∨ s.FillsWhole itemId itemCount data) := by
  constructor
  · rintro ⟨turns, s', done, returns, checked, -, adds⟩
    have checks := checked
    obtain ⟨data, known, checks⟩ := Option.bind_eq_some_iff.mp checks
    have positive : 0 < data.maxHeapNum.toNat := by
      refine Nat.pos_of_ne_zero fun none' => ?_
      rw [if_pos (UInt32.toNat_inj.mp none')] at checks
      cases checks
    refine ⟨data, known, positive, ?_⟩
    obtain ⟨done', same, spares⟩ := checkAddItem_eq itemCount proper known positive
    obtain rfl := Option.some.inj (checked.symm.trans same)
    cases done with
    | false => exact .inl (by simpa using spares)
    | true =>
      exact .inr (fillsWhole_of_addItem proper fresh known positive checked returns (adds rfl).1)
  · rintro ⟨data, known, positive, fits⟩
    obtain ⟨done, checked, spares⟩ := checkAddItem_eq itemCount proper known positive
    cases done with
    | false =>
      refine ⟨0, s, false, ?_, checked, fun _ => rfl, fun none' => absurd none' Bool.false_ne_true⟩
      rw [addItem, checked, Option.bind_some, if_pos rfl]
    | true =>
      obtain ⟨turns, s', returns, added⟩ := addItem_of_fillsWhole proper fresh known positive checked
        (fits.resolve_left (spares.mp rfl))
      exact ⟨turns, s', true, returns, checked, fun none' => absurd none'.symm Bool.false_ne_true,
        fun _ => added⟩

/-- The counts come out right exactly where too little is there or what is linked is enough and the
count is one of whole stacks, and where an addition is refused with a cell to spare or meets no full
stack and leaves whole stacks. -/
theorem countsRight_iff (mgr : ItemDataMgr) (s : Bag) (proper : s.Proper mgr) (news : Nat → Addr)
    (fresh : s.FreshNews news) (itemId : Nat) (itemCount : UInt32) :
    s.CountsRight mgr itemId itemCount news ↔
      (s.total itemId < itemCount.toNat ∨
        itemCount.toNat ≤ s.linkedTotal itemId % 2 ^ 32 ∧ s.WholeStacks itemId itemCount) ∧
      ∃ data, mgr.getItemDataById itemId = some data ∧ 0 < data.maxHeapNum.toNat ∧
        (s.SparesCell itemId itemCount data ∨ s.FillsWhole itemId itemCount data) :=
  and_congr (delRight_iff proper) (addRight_iff proper fresh)

/-- Two linked stacks of five, of an item that stacks up to ten. -/
def twoFives (maxGridCount : Nat) : Bag where
  items a :=
    if a = 100 then some ⟨1, ⟨5, 2, 3, 10⟩, 5, 1, 0, 0, none, 101, 0⟩
    else if a = 101 then some ⟨2, ⟨5, 2, 3, 10⟩, 5, 2, 0, 0, none, 0, 100⟩
    else none
  grid index := if index = 1 then 100 else if index = 2 then 101 else 0
  maxGridCount := maxGridCount
  equips _ := 0

theorem proper_twoFives {maxGridCount : Nat} (two : 2 < maxGridCount)
    (small : maxGridCount ≤ 2 ^ 31) : (twoFives maxGridCount).Proper twoItems where
  small := small
  null := rfl
  there index _ live := by
    by_cases first : index = 1
    · exact ⟨⟨1, ⟨5, 2, 3, 10⟩, 5, 1, 0, 0, none, 101, 0⟩, by simp [twoFives, first], first.symm, rfl,
        by decide⟩
    · by_cases second : index = 2
      · exact ⟨⟨2, ⟨5, 2, 3, 10⟩, 5, 2, 0, 0, none, 0, 100⟩, by simp [twoFives, second],
          second.symm, rfl, by decide⟩
      · exact absurd (by simp [twoFives, first, second]) live
  links index _ item found linked := by
    by_cases first : index = 1
    · obtain rfl : ⟨1, ⟨5, 2, 3, 10⟩, 5, 1, 0, 0, none, 101, 0⟩ = item := by
        simpa [twoFives, first] using found
      have inside : 2 ∈ (twoFives maxGridCount).cells := by
        simp only [Bag.cells, List.mem_range'_1, twoFives]
        omega
      exact ⟨2, inside, rfl, _, rfl, by simp [twoFives, first], rfl⟩
    · by_cases second : index = 2
      · obtain rfl : ⟨2, ⟨5, 2, 3, 10⟩, 5, 2, 0, 0, none, 0, 100⟩ = item := by
          simpa [twoFives, second] using found
        exact absurd rfl linked
      · simp [twoFives, first, second] at found

theorem freshNews_twoFives (maxGridCount : Nat) : (twoFives maxGridCount).FreshNews (200 + ·) where
  fresh k := by
    have first : 200 + k ≠ 100 := by omega
    have second : 200 + k ≠ 101 := by omega
    have live : 200 + k ≠ 0 := by omega
    exact ⟨live, by simp [twoFives, first, second]⟩
  distinct := add_right_injective 200

/-- Ten are removed with both stacks, and added by filling up both. -/
theorem countsRight_ten : (twoFives 5).CountsRight twoItems 5 10 (200 + ·) := by
  refine (countsRight_iff twoItems (twoFives 5) (proper_twoFives (by decide) (by decide)) (200 + ·)
    (freshNews_twoFives 5) 5 10).mpr ⟨.inr ⟨by decide, ?_⟩, ⟨5, 2, 3, 10⟩, rfl, by decide, .inr ?_⟩
  · have first : (twoFives 5).items ((twoFives 5).getFirstItem 5) =
        some ⟨1, ⟨5, 2, 3, 10⟩, 5, 1, 0, 0, none, 101, 0⟩ := rfl
    have second : ((twoFives 5).withoutFirst 5).items
        (((twoFives 5).withoutFirst 5).getFirstItem 5) =
        some ⟨2, ⟨5, 2, 3, 10⟩, 5, 2, 0, 0, none, 0, 0⟩ := rfl
    exact ⟨[5, 5], .cons first (.cons second .nil), .inl rfl⟩
  · have gaps : (twoFives 5).gaps 5 = [5, 5] := by decide
    refine ⟨fun k full => ?_, by decide, by decide⟩
    rw [gaps] at full
    have member := List.mem_of_getElem? full
    simp at member

/-- Seven of ten: both stacks are used up, and the loop goes on behind them. -/
theorem not_countsRight_seven :
    (twoFives 5).Proper twoItems ∧ (twoFives 5).FreshNews (200 + ·) ∧ (twoFives 5).total 5 = 10 ∧
      ¬(twoFives 5).CountsRight twoItems 5 7 (200 + ·) := by
  refine ⟨proper_twoFives (by decide) (by decide), freshNews_twoFives 5, by decide, ?_⟩
  rintro ⟨⟨turns, s', done, returns, -⟩, -⟩
  have stuck : (twoFives 5).delItem 5 7 turns = none := by
    match turns with
    | 0 => rfl
    | 1 => rfl
    | 2 => rfl
    | turns + 3 => rfl
  cases stuck.symm.trans returns

end Taomee.Pea.Bag
