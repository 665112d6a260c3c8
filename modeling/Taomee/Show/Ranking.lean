import Taomee.Library.Ranking
import Taomee.Show.Board

/-!
# How a record finds its rank

The loops of `process_join_show` write the index and the ranks one by one. What comes out is the
old index with room made for the new record.
-/

namespace Taomee.Show

open Ranking

variable {ρ : Type}

section Loops

variable {ranks : Ranks ρ} {i j k p last position score left : Nat}

@[simp] theorem Ranks.topIndex_setTop (ranks : Ranks ρ) (p top : Nat) :
    (ranks.setTop p top).topIndex = ranks.topIndex := rfl

@[simp] theorem Ranks.records_setIndex (ranks : Ranks ρ) (place p : Nat) :
    (ranks.setIndex place p).records = ranks.records := rfl

theorem Ranks.topIndex_setIndex_self (ranks : Ranks ρ) (place p : Nat) :
    (ranks.setIndex place p).topIndex place = p := Function.update_self ..

theorem Ranks.topIndex_setIndex_of_ne (apart : k ≠ p) :
    (ranks.setIndex p position).topIndex k = ranks.topIndex k := Function.update_of_ne apart ..

theorem Ranks.records_setTop_self (ranks : Ranks ρ) (p top : Nat) :
    (ranks.setTop p top).records p = (ranks.records p).ranked top := Function.update_self ..

theorem Ranks.records_setTop_of_ne {top : Nat} (apart : p ≠ position) :
    (ranks.setTop position top).records p = ranks.records p := Function.update_of_ne apart ..

theorem topIndex_shift : (Ranks.shift i j ranks).topIndex k =
    if i + 1 < k ∧ k ≤ j then ranks.topIndex (k - 1) else ranks.topIndex k := by
  induction j generalizing ranks with
  | zero => rw [Ranks.shift, if_neg (by omega)]
  | succ j ih =>
    rw [Ranks.shift]
    split
    · rw [ih, Ranks.topIndex_setTop]
      obtain rfl | apart := eq_or_ne k (j + 1)
      · rw [if_neg (by omega), if_pos (by omega), Ranks.topIndex_setIndex_self]
        rfl
      · rw [Ranks.topIndex_setIndex_of_ne apart]
        by_cases moved : i + 1 < k ∧ k ≤ j
        · rw [if_pos moved, if_pos (by omega), Ranks.topIndex_setIndex_of_ne (by omega)]
        · rw [if_neg moved, if_neg (by omega)]
    · rw [if_neg (by omega)]

/-- Records that do not move keep their ranks. -/
theorem records_shift_of_ne (apart : ∀ k, i < k → k < j → ranks.topIndex k ≠ p) :
    (Ranks.shift i j ranks).records p = ranks.records p := by
  induction j generalizing ranks with
  | zero => rw [Ranks.shift]
  | succ j ih =>
    rw [Ranks.shift]
    split
    · rw [ih, Ranks.records_setTop_of_ne]
      · rfl
      · rw [Ranks.topIndex_setIndex_of_ne (by omega)]
        exact (apart j (by omega) (by omega)).symm
      · intro k after within
        rw [Ranks.topIndex_setTop, Ranks.topIndex_setIndex_of_ne (by omega)]
        exact apart k after (by omega)
    · rfl

/-- The records that move up get their new ranks. -/
theorem records_shift (distinct : ∀ a b, i < a → a < b → b < j →
      ranks.topIndex a ≠ ranks.topIndex b) (after : i < k) (within : k < j) :
    (Ranks.shift i j ranks).records (ranks.topIndex k) =
      (ranks.records (ranks.topIndex k)).ranked (k + 2) := by
  induction j generalizing ranks with
  | zero => omega
  | succ j ih =>
    rw [Ranks.shift, if_pos (by omega)]
    dsimp only
    have same : ∀ a, a ≤ j → (ranks.setIndex (j + 1) (ranks.topIndex j)).topIndex a =
        ranks.topIndex a := fun a small => Ranks.topIndex_setIndex_of_ne (by omega)
    rw [same j (Nat.le_refl j)]
    obtain rfl | before := Nat.eq_or_lt_of_le (Nat.le_of_lt_succ within)
    · rw [records_shift_of_ne, Ranks.records_setTop_self]
      · rfl
      · intro a above below
        rw [Ranks.topIndex_setTop, same a (by omega)]
        exact distinct a k above below (Nat.lt_succ_self k)
    · have moved := @ih ((ranks.setIndex (j + 1) (ranks.topIndex j)).setTop
        (ranks.topIndex j) (j + 1 + 1)) ?_ before
      · rw [Ranks.topIndex_setTop, same k (by omega)] at moved
        rw [moved, Ranks.records_setTop_of_ne (distinct k j after before (Nat.lt_succ_self j))]
        rfl
      · intro a b above below inside
        rw [Ranks.topIndex_setTop, same a (by omega), same b (by omega)]
        exact distinct a b above below (by omega)

/-- The others move up and the record comes to its rank. -/
theorem topIndex_place (rank : i < last) :
    (ranks.place position last i).topIndex = makeRoom ranks.topIndex i last position := by
  funext k
  rw [Ranks.place, Ranks.topIndex_setTop]
  obtain rfl | apart := eq_or_ne k (i + 1)
  · rw [Ranks.topIndex_setIndex_self, makeRoom_moved (Nat.lt_succ_self i) rank]
    rfl
  · rw [Ranks.topIndex_setIndex_of_ne apart, topIndex_shift]
    split
    · rename_i moved
      rw [Ranks.topIndex_setTop, Ranks.topIndex_setIndex_of_ne (by omega),
        makeRoom_moved (by omega) moved.2]
    · rw [Ranks.topIndex_setTop]
      obtain rfl | other := eq_or_ne k i
      · rw [Ranks.topIndex_setIndex_self, makeRoom_self]
      · rw [Ranks.topIndex_setIndex_of_ne other, makeRoom, if_neg other, if_neg (by omega)]

variable (distinct : ∀ a b, a < b → b < last → ranks.topIndex a ≠ ranks.topIndex b)
  (apart : ∀ a < last, ranks.topIndex a ≠ position)

include apart in
theorem records_place_self (rank : i < last) :
    (ranks.place position last i).records position =
      (ranks.records position).ranked (i + 1) := by
  rw [Ranks.place, Ranks.records_setTop_of_ne (apart i rank).symm, Ranks.records_setIndex,
    records_shift_of_ne, Ranks.records_setTop_self, Ranks.records_setIndex]
  intro k after within
  rw [Ranks.topIndex_setTop, Ranks.topIndex_setIndex_of_ne (by omega)]
  exact apart k within

include distinct apart in
/-- Better records keep their ranks, and the others go down by one. -/
theorem records_place (rank : i < last) (within : k < last) :
    (ranks.place position last i).records (ranks.topIndex k) =
      if k < i then ranks.records (ranks.topIndex k)
      else (ranks.records (ranks.topIndex k)).ranked (k + 2) := by
  have index : ∀ a, i < a → ((ranks.setIndex i position).setTop position (i + 1)).topIndex a =
      ranks.topIndex a := fun a after => by
    rw [Ranks.topIndex_setTop, Ranks.topIndex_setIndex_of_ne (by omega)]
  have record : ((ranks.setIndex i position).setTop position (i + 1)).records (ranks.topIndex k) =
      ranks.records (ranks.topIndex k) := by
    rw [Ranks.records_setTop_of_ne (apart k within), Ranks.records_setIndex]
  rw [Ranks.place]
  obtain before | rfl | after := Nat.lt_trichotomy k i
  · rw [Ranks.records_setTop_of_ne (distinct k i before rank), Ranks.records_setIndex,
      records_shift_of_ne, record, if_pos before]
    intro a above below
    rw [index a above]
    exact (distinct k a (by omega) below).symm
  · rw [Ranks.records_setTop_self, Ranks.records_setIndex, records_shift_of_ne, record,
      if_neg (Nat.lt_irrefl k)]
    intro a above below
    rw [index a above]
    exact (distinct k a above below).symm
  · rw [Ranks.records_setTop_of_ne (distinct i k after within).symm, Ranks.records_setIndex,
      ← index k after, records_shift _ after within, index k after, record,
      if_neg (by omega)]
    intro a b above below inside
    rw [index a above, index b (by omega)]
    exact distinct a b below inside

/-- The loop places the record before the first one with a lower score, if there is one. -/
theorem search_cases (score position last left i : Nat) (ranks : Ranks ρ) :
    (∃ rank, i ≤ rank ∧ rank < i + left ∧
        (∀ k, i ≤ k → k < rank → score ≤ (ranks.records (ranks.topIndex k)).npcScore) ∧
        (ranks.records (ranks.topIndex rank)).npcScore < score ∧
        Ranks.search score position last left i ranks = ranks.place position last rank) ∨
      (∀ k, i ≤ k → k < i + left → score ≤ (ranks.records (ranks.topIndex k)).npcScore) ∧
        Ranks.search score position last left i ranks = ranks := by
  induction left generalizing i with
  | zero =>
    refine .inr ⟨fun k least below => ?_, rfl⟩
    omega
  | succ left ih =>
    rw [Ranks.search]
    split
    · rename_i lower
      refine .inl ⟨i, Nat.le_refl i, by omega, fun k least below => ?_, lower, rfl⟩
      omega
    · rename_i higher
      have first : ∀ k, k = i → score ≤ (ranks.records (ranks.topIndex k)).npcScore :=
        fun k same => same ▸ Nat.le_of_not_lt higher
      obtain ⟨rank, least, below, before, lower, placed⟩ | ⟨none, same⟩ := ih (i + 1)
      · refine .inl ⟨rank, by omega, by omega, fun k start earlier => ?_, lower, placed⟩
        obtain same | later := Nat.eq_or_lt_of_le start
        · exact first k same.symm
        · exact before k later earlier
      · refine .inr ⟨fun k start below => ?_, same⟩
        obtain same | later := Nat.eq_or_lt_of_le start
        · exact first k same.symm
        · exact none k later (by omega)

/-! ## Who is where -/

theorem userId_setTop (ranks : Ranks ρ) (position top p : Nat) :
    ((ranks.setTop position top).records p).userId = (ranks.records p).userId := by
  obtain rfl | apart := eq_or_ne p position
  · rw [Ranks.records_setTop_self]
    rfl
  · rw [Ranks.records_setTop_of_ne apart]

theorem userId_shift (i j : Nat) (ranks : Ranks ρ) (p : Nat) :
    ((Ranks.shift i j ranks).records p).userId = (ranks.records p).userId := by
  induction j generalizing ranks with
  | zero => rfl
  | succ j ih =>
    rw [Ranks.shift]
    split
    · rw [ih, userId_setTop, Ranks.records_setIndex]
    · rfl

theorem userId_search (score position last left i : Nat) (ranks : Ranks ρ) (p : Nat) :
    ((Ranks.search score position last left i ranks).records p).userId =
      (ranks.records p).userId := by
  obtain ⟨rank, -, -, -, -, placed⟩ | ⟨-, same⟩ := search_cases score position last left i ranks
  · rw [placed, Ranks.place, userId_setTop, Ranks.records_setIndex, userId_shift, userId_setTop,
      Ranks.records_setIndex]
  · rw [same]

/-- The newcomer is written at one position, and the others stay at theirs. -/
theorem userId_enter (board : Board ρ) (topIndex : Nat → Nat) (record : Record ρ) {p : Nat}
    (used : p < (board.enter topIndex record).1.userNum) :
    ((board.enter topIndex record).1.records p).userId = record.userId ∨
      p < board.userNum ∧
        ((board.enter topIndex record).1.records p).userId = (board.records p).userId := by
  rw [Board.enter] at used ⊢
  dsimp only at used ⊢
  split at used
  · rename_i room
    rw [if_pos room]
    have written : ((Function.update board.records board.userNum record p).userId =
        record.userId) ∨ p < board.userNum ∧
          (Function.update board.records board.userNum record p).userId =
            (board.records p).userId := by
      obtain rfl | apart := eq_or_ne p board.userNum
      · rw [Function.update_self]
        exact .inl rfl
      · rw [Function.update_of_ne apart]
        exact .inr ⟨Nat.lt_of_le_of_ne (Nat.le_of_lt_succ used) apart, rfl⟩
    split
    · rw [Ranks.records_setIndex, userId_setTop]
      exact written
    · rw [userId_search, userId_setTop, Ranks.records_setIndex]
      exact written
  · rename_i full
    rw [if_neg full]
    split at used
    · rename_i beats
      rw [if_pos beats]
      rw [userId_search]
      dsimp only
      obtain rfl | apart := eq_or_ne p (topIndex (showUserNum - 1))
      · rw [Function.update_self]
        exact .inl rfl
      · rw [Function.update_of_ne apart]
        exact .inr ⟨used, rfl⟩
    · rename_i worse
      rw [if_neg worse]
      exact .inr ⟨used, rfl⟩

end Loops

end Taomee.Show
