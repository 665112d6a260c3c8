import Taomee.Pea.StackLinks

/-!
# pea: when the right number of an item is removed

The loop ends where the count is used up exactly; one that takes more goes on.
-/

namespace Taomee.Pea.Bag

open FreeList

variable {mgr : ItemDataMgr} {s s' : Bag} {a : Addr} {item : Item} {itemId : Nat}
  {itemCount totalDelCount remainCount : UInt32} {turns : Nat}

theorem OthersKept.refl (s : Bag) : s.OthersKept itemId s := fun _ _ => rfl

theorem OthersKept.trans {t : Bag} (first : s.OthersKept itemId t)
    (second : t.OthersKept itemId s') : s.OthersKept itemId s' :=
  fun other apart => (second other apart).trans (first other apart)

/-! ## Removing -/

theorem decCurHeapCount_keeps (count : UInt32) (item : Item) :
    (item.decCurHeapCount count).data = item.data ∧
      (item.decCurHeapCount count).bagIndex = item.bagIndex ∧
      (item.decCurHeapCount count).next = item.next ∧
      (item.decCurHeapCount count).prev = item.prev := by
  rw [Item.decCurHeapCount]
  split
  · exact ⟨rfl, rfl, rfl, rfl⟩
  · exact ⟨rfl, rfl, rfl, rfl⟩

theorem withoutFirst_eq (found : s.items (s.getFirstItem itemId) = some item) :
    s.withoutFirst itemId = s.useUp (s.getFirstItem itemId) item := by
  rw [withoutFirst, found, Option.elim_some]

/-- A stack of more than the count loses the count, a smaller one is used up. -/
theorem delFrom_succ : delFrom itemId itemCount (turns + 1) s totalDelCount =
    if totalDelCount = 0 then some s
    else (s.items (s.getFirstItem itemId)).bind fun item =>
      if itemCount < item.curHeapCount then
        delFrom itemId itemCount turns
          (s.modify (s.getFirstItem itemId) (.decCurHeapCount itemCount))
          (totalDelCount - itemCount)
      else
        delFrom itemId itemCount turns (s.withoutFirst itemId)
          (totalDelCount - item.curHeapCount) := by
  rw [delFrom]
  split
  · rfl
  · cases found : s.items (s.getFirstItem itemId) with
    | none => simp only [found, Option.bind_none]
    | some item =>
      obtain ⟨-, -, next, prev⟩ := decCurHeapCount_keeps itemCount item
      simp only [found, Option.bind_some]
      rw [withoutFirst_eq found, ← useUp_modify found next prev]

theorem Cells.withoutFirst (cells : s.Cells mgr)
    (found : s.items (s.getFirstItem itemId) = some item) :
    (s.withoutFirst itemId).Cells mgr ∧
      (s.withoutFirst itemId).total itemId + item.curHeapCount.toNat = s.total itemId ∧
      s.OthersKept itemId (s.withoutFirst itemId) := by
  obtain ⟨placed, rfl, -⟩ := cells.first found
  rw [withoutFirst_eq found]
  exact ⟨cells.useUp placed, cells.total_useUp placed⟩

/-- What the loop takes from a stack of more than the count. -/
theorem Cells.decFirst (cells : s.Cells mgr)
    (found : s.items (s.getFirstItem itemId) = some item) (more : itemCount < item.curHeapCount) :
    (s.modify (s.getFirstItem itemId) (.decCurHeapCount itemCount)).Cells mgr ∧
      (s.modify (s.getFirstItem itemId) (.decCurHeapCount itemCount)).total itemId +
        itemCount.toNat = s.total itemId ∧
      s.OthersKept itemId (s.modify (s.getFirstItem itemId) (.decCurHeapCount itemCount)) := by
  obtain ⟨placed, rfl, -⟩ := cells.first found
  obtain ⟨data, bagIndex, -, -⟩ := decCurHeapCount_keeps itemCount item
  obtain ⟨-, fits⟩ := cells.known placed
  have more' := UInt32.lt_iff_toNat_lt.mp more
  have enough : itemCount ≤ item.curHeapCount := UInt32.le_iff_toNat_le.mpr (Nat.le_of_lt more')
  have count : (item.decCurHeapCount itemCount).curHeapCount = item.curHeapCount - itemCount := by
    rw [Item.decCurHeapCount, if_pos enough]
  have less : (item.curHeapCount - itemCount).toNat = item.curHeapCount.toNat - itemCount.toNat :=
    UInt32.toNat_sub_of_le _ _ enough
  obtain ⟨own, others⟩ := cells.total_modify placed data
  rw [count, less] at own
  refine ⟨cells.modify placed data bagIndex ?_, by omega, others⟩
  rw [count, UInt32.le_iff_toNat_le, less]
  exact (Nat.sub_le _ _).trans (UInt32.le_iff_toNat_le.mp fits)

theorem delFrom_le (cells : s.Cells mgr)
    (returns : delFrom itemId itemCount turns s totalDelCount = some s') :
    s'.total itemId ≤ s.total itemId := by
  induction turns generalizing s totalDelCount with
  | zero => cases returns
  | succ turns ih =>
    rw [delFrom_succ] at returns
    split at returns
    case isTrue =>
      obtain rfl := Option.some.inj returns
      exact Nat.le_refl _
    case isFalse =>
      obtain ⟨item, found, returns⟩ := Option.bind_eq_some_iff.mp returns
      split at returns
      case isTrue more =>
        obtain ⟨cells', less, -⟩ := cells.decFirst found more
        have onward := ih cells' returns
        omega
      case isFalse =>
        obtain ⟨cells', less, -⟩ := cells.withoutFirst found
        have onward := ih cells' returns
        omega

/-- What the loop takes exactly; `left` is what is left of the count. -/
def Takes (s : Bag) (itemId : Nat) (itemCount : UInt32) (left : Nat) : Prop :=
  ∃ counts, Leading itemId s counts ∧ ((counts.map UInt32.toNat).sum = left ∨
    left = itemCount.toNat ∧ ∃ empty more, counts = empty ++ [more] ∧
      (empty.map UInt32.toNat).sum = 0 ∧ itemCount < more)

theorem takes_iff : s.Takes itemId itemCount itemCount.toNat ↔ s.WholeStacks itemId itemCount :=
  exists_congr fun _ => and_congr_right fun _ => or_congr_right (and_iff_right rfl)

/-- A loop that has removed what was left has taken it exactly: it cannot take too much and end. -/
theorem delFrom_takes (cells : s.Cells mgr) (short : totalDelCount.toNat ≤ itemCount.toNat)
    (returns : delFrom itemId itemCount turns s totalDelCount = some s')
    (removed : s'.total itemId + totalDelCount.toNat = s.total itemId) :
    s.Takes itemId itemCount totalDelCount.toNat := by
  induction turns generalizing s totalDelCount with
  | zero => cases returns
  | succ turns ih =>
    rw [delFrom_succ] at returns
    split at returns
    case isTrue last => exact ⟨[], .nil, .inl (by rw [last]; rfl)⟩
    case isFalse =>
      obtain ⟨item, found, returns⟩ := Option.bind_eq_some_iff.mp returns
      split at returns
      case isTrue more =>
        obtain ⟨cells', less, -⟩ := cells.decFirst found more
        have onward := delFrom_le cells' returns
        exact ⟨[item.curHeapCount], .cons found .nil, .inr ⟨by omega, [], item.curHeapCount, rfl, rfl,
          more⟩⟩
      case isFalse =>
        obtain ⟨cells', less, -⟩ := cells.withoutFirst found
        have onward := delFrom_le cells' returns
        have left : (totalDelCount - item.curHeapCount).toNat =
            totalDelCount.toNat - item.curHeapCount.toNat :=
          UInt32.toNat_sub_of_le _ _ (UInt32.le_iff_toNat_le.mpr (by omega))
        obtain ⟨counts, leading, sum | ⟨all, empty, more, rfl, nothing, much⟩⟩ :=
          ih cells' (by omega) returns (by omega)
        · exact ⟨_, .cons found leading, .inl (by rw [List.map_cons, List.sum_cons]; omega)⟩
        · refine ⟨_, .cons found leading, .inr ⟨by omega, item.curHeapCount :: empty, more, rfl, ?_,
            much⟩⟩
          rw [List.map_cons, List.sum_cons]
          omega

theorem delFrom_of_takes (cells : s.Cells mgr) (short : totalDelCount.toNat ≤ itemCount.toNat)
    (takes : s.Takes itemId itemCount totalDelCount.toNat) :
    ∃ turns s', delFrom itemId itemCount turns s totalDelCount = some s' ∧
      s'.total itemId + totalDelCount.toNat = s.total itemId ∧ s.OthersKept itemId s' := by
  obtain ⟨counts, leading, fits⟩ := takes
  by_cases last : totalDelCount = 0
  · refine ⟨1, s, ?_, by rw [last]; rfl, .refl s⟩
    rw [delFrom_succ, if_pos last]
  · have left : 0 < totalDelCount.toNat := Nat.pos_of_ne_zero fun none' => last
      (UInt32.toNat_inj.mp none')
    induction leading generalizing totalDelCount with
    | nil =>
      obtain sum | ⟨-, empty, more, shape, -⟩ := fits
      · exact absurd sum (Nat.ne_of_lt left)
      · exact absurd shape.symm (List.append_ne_nil_of_right_ne_nil _ (List.cons_ne_nil _ _))
    | @cons s item counts found later ih =>
      rw [List.map_cons, List.sum_cons] at fits
      by_cases more : itemCount < item.curHeapCount
      · have more' := UInt32.lt_iff_toNat_lt.mp more
        have all : totalDelCount.toNat = itemCount.toNat := by
          obtain sum | ⟨all, -⟩ := fits
          · omega
          · exact all
        obtain ⟨cells', less, others⟩ := cells.decFirst found more
        refine ⟨2, _, ?_, by omega, others⟩
        rw [delFrom_succ, if_neg last, found, Option.bind_some, if_pos more, delFrom_succ,
          if_pos (by rw [UInt32.toNat_inj.mp all, UInt32.sub_self])]
      · obtain ⟨cells', removed, others⟩ := cells.withoutFirst found
        -- What the later stacks hold, or the first of them that is not empty, is what is left.
        have onward : ((counts.map UInt32.toNat).sum = totalDelCount.toNat - item.curHeapCount.toNat ∨
            totalDelCount.toNat - item.curHeapCount.toNat = itemCount.toNat ∧
              ∃ empty more, counts = empty ++ [more] ∧ (empty.map UInt32.toNat).sum = 0 ∧
                itemCount < more) ∧ item.curHeapCount.toNat ≤ totalDelCount.toNat := by
          obtain sum | ⟨all, empty, most, shape, nothing, much⟩ := fits
          · exact ⟨.inl (by omega), by omega⟩
          · cases empty with
            | nil =>
              obtain ⟨rfl, -⟩ := List.cons.inj shape
              exact absurd much more
            | cons first empty =>
              obtain ⟨rfl, rfl⟩ := List.cons.inj shape
              rw [List.map_cons, List.sum_cons] at nothing
              exact ⟨.inr ⟨by omega, empty, most, rfl, by omega, much⟩, by omega⟩
        have left' : (totalDelCount - item.curHeapCount).toNat =
            totalDelCount.toNat - item.curHeapCount.toNat :=
          UInt32.toNat_sub_of_le _ _ (UInt32.le_iff_toNat_le.mpr onward.2)
        rw [← left'] at onward
        by_cases done : totalDelCount - item.curHeapCount = 0
        · have none' : totalDelCount.toNat - item.curHeapCount.toNat = 0 := by
            rw [← left', done, UInt32.toNat_zero]
          refine ⟨2, _, ?_, by omega, others⟩
          rw [delFrom_succ, if_neg last, found, Option.bind_some, if_neg more, delFrom_succ,
            if_pos done]
        · obtain ⟨turns, s', returns, removed', others'⟩ := ih cells' (by omega) onward.1 done
            (Nat.pos_of_ne_zero fun none' => done (UInt32.toNat_inj.mp none'))
          refine ⟨turns + 1, s', ?_, by omega, others.trans others'⟩
          rw [delFrom_succ, if_neg last, found, Option.bind_some, if_neg more, returns]

/-- `del_item` goes right exactly where there is too little, or where what is linked is enough and
the count is one of whole stacks. -/
theorem delRight_iff (proper : s.Proper mgr) : s.DelRight itemId itemCount ↔
    s.total itemId < itemCount.toNat ∨
      itemCount.toNat ≤ s.linkedTotal itemId % 2 ^ 32 ∧ s.WholeStacks itemId itemCount := by
  obtain ⟨visited, visits⟩ := proper.exists_visits itemId
  have cells := proper.toCells
  have linked := visits.linkedTotal_le cells
  have checked : s.checkDelItem itemId itemCount = true ↔
      itemCount.toNat ≤ s.linkedTotal itemId % 2 ^ 32 := by
    rw [checkDelItem, decide_eq_true_iff, ge_iff_le, UInt32.le_iff_toNat_le, getItemCount,
      countFrom_eq cells.null]
    rfl
  by_cases enough : itemCount.toNat ≤ s.linkedTotal itemId % 2 ^ 32
  · have runs (turns : Nat) : s.delItem itemId itemCount turns =
        (delFrom itemId itemCount turns s itemCount).map (·, true) := by
      rw [delItem, checked.mpr enough, if_neg (by decide)]
    constructor
    · rintro ⟨turns, s', done, returns, -, -, removes⟩
      rw [runs, Option.map_eq_some_iff] at returns
      obtain ⟨s', returns, same⟩ := returns
      obtain ⟨rfl, rfl⟩ := Prod.mk.inj same
      exact .inr ⟨enough, takes_iff.mp (delFrom_takes cells (Nat.le_refl _) returns (removes rfl).1)⟩
    · intro fits
      have whole : s.WholeStacks itemId itemCount := by
        obtain lacking | ⟨-, whole⟩ := fits
        · omega
        · exact whole
      obtain ⟨turns, s', returns, removed, others⟩ :=
        delFrom_of_takes cells (Nat.le_refl _) (takes_iff.mpr whole)
      refine ⟨turns, s', true, ?_, iff_of_true rfl (by omega), by simp, fun _ => ⟨removed, others⟩⟩
      rw [runs, returns, Option.map_some]
  · have runs (turns : Nat) : s.delItem itemId itemCount turns = some (s, false) := by
      rw [delItem, Bool.eq_false_iff.mpr (mt checked.mp enough), if_pos rfl]
    constructor
    · rintro ⟨turns, s', done, returns, agrees, -⟩
      rw [runs] at returns
      obtain ⟨rfl, rfl⟩ := Prod.mk.inj (Option.some.inj returns)
      exact .inl (Nat.lt_of_not_le fun there => Bool.false_ne_true (agrees.mpr there))
    · intro fits
      have lacking : s.total itemId < itemCount.toNat := by
        obtain lacking | ⟨enough', -⟩ := fits
        · exact lacking
        · exact absurd enough' enough
      exact ⟨0, s, false, runs 0, iff_of_false Bool.false_ne_true (Nat.not_le.mpr lacking),
        fun _ => rfl, fun none' => absurd none' Bool.false_ne_true⟩

end Taomee.Pea.Bag
