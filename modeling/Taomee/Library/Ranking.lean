import Mathlib.Order.Basic
import Mathlib.Tactic.Common

/-!
# The best of a growing number of candidates

Candidates are numbered as they come and each has a score. Of two with the same score the earlier
one is better. An array of bounded size lists the best so far by making room for a newcomer at its
rank, and drops the last one if it is full.
-/

namespace Taomee.Ranking

section

variable {α : Type*} {f : Nat → α} {i k last : Nat} {x : α}

/-- The entries from rank `i` to before `last` move up by one, and `x` comes to rank `i`. -/
def makeRoom (f : Nat → α) (i last : Nat) (x : α) : Nat → α := fun k =>
  if k = i then x else if i < k ∧ k ≤ last then f (k - 1) else f k

@[simp] theorem makeRoom_self : makeRoom f i last x i = x := if_pos rfl

theorem makeRoom_before (before : k < i) : makeRoom f i last x k = f k := by
  rw [makeRoom, if_neg (by omega), if_neg (by omega)]

theorem makeRoom_moved (after : i < k) (within : k ≤ last) : makeRoom f i last x k = f (k - 1) := by
  rw [makeRoom, if_neg (by omega), if_pos ⟨after, within⟩]

/-- An entry is the newcomer or an old one, which comes before its rank or has moved. -/
theorem makeRoom_cases (f : Nat → α) (i last : Nat) (x : α) (k : Nat) (within : k ≤ last) :
    (k = i ∧ makeRoom f i last x k = x) ∨ (k < i ∧ makeRoom f i last x k = f k) ∨
      (i < k ∧ makeRoom f i last x k = f (k - 1)) := by
  obtain before | rfl | after := Nat.lt_trichotomy k i
  · exact .inr (.inl ⟨before, makeRoom_before before⟩)
  · exact .inl ⟨rfl, makeRoom_self⟩
  · exact .inr (.inr ⟨after, makeRoom_moved after within⟩)

/-- An old entry before `last` is still there. -/
theorem exists_makeRoom (f : Nat → α) (i last : Nat) (x : α) (k : Nat) (within : k < last) :
    ∃ k' ≤ last, makeRoom f i last x k' = f k := by
  by_cases before : k < i
  · exact ⟨k, Nat.le_of_lt within, makeRoom_before before⟩
  · refine ⟨k + 1, within, ?_⟩
    rw [makeRoom_moved (by omega) within]
    rfl

/-- Entries stay apart if those before `last` are apart and `x` is none of them. -/
theorem makeRoom_ne (distinct : ∀ k k', k < k' → k' < last → f k ≠ f k')
    (new : ∀ k < last, f k ≠ x) (rank : i ≤ last) {k' : Nat} (before : k < k')
    (within : k' ≤ last) : makeRoom f i last x k ≠ makeRoom f i last x k' := by
  obtain ⟨rfl, same⟩ | ⟨early, same⟩ | ⟨late, same⟩ := makeRoom_cases f i last x k (by omega)
  · rw [same, makeRoom_moved before within]
    exact (new (k' - 1) (by omega)).symm
  · obtain ⟨rfl, same'⟩ | ⟨early', same'⟩ | ⟨late', same'⟩ := makeRoom_cases f i last x k' within
    · rw [same, same']
      exact new k (by omega)
    · rw [same, same']
      exact distinct k k' before (by omega)
    · rw [same, same']
      exact distinct k (k' - 1) (by omega) (by omega)
  · rw [same, makeRoom_moved (Nat.lt_trans late before) within]
    exact distinct (k - 1) (k' - 1) (by omega) (by omega)

end

section

variable {score later : Nat → Nat} {a b c count n size i : Nat} {order : Nat → Nat}

/-- The first candidate is the better one. -/
def Beats (score : Nat → Nat) (a b : Nat) : Prop :=
  score b < score a ∨ score a = score b ∧ a < b

theorem Beats.trans (first : Beats score a b) (second : Beats score b c) : Beats score a c := by
  unfold Beats at *
  omega

theorem Beats.score_le (beats : Beats score a b) : score b ≤ score a := by
  unfold Beats at beats
  omega

/-- The first `n` places of `order` list the best of `count` candidates, at most `size`. -/
structure Top (score : Nat → Nat) (size count n : Nat) (order : Nat → Nat) : Prop where
  length : n = min size count
  known : ∀ k < n, order k < count
  ranked : ∀ k k', k < k' → k' < n → Beats score (order k) (order k')
  complete : n < size → ∀ m < count, ∃ k < n, order k = m
  best : ∀ m < count, (∀ k < n, order k ≠ m) → ∀ k < n, Beats score (order k) m

namespace Top

theorem nil (score : Nat → Nat) (size : Nat) (order : Nat → Nat) : Top score size 0 0 order where
  length := (Nat.min_zero size).symm
  known k within := absurd within (Nat.not_lt_zero k)
  ranked _ k' _ within := absurd within (Nat.not_lt_zero k')
  complete _ m within := absurd within (Nat.not_lt_zero m)
  best m within := absurd within (Nat.not_lt_zero m)

/-- Only the scores of the candidates count. -/
theorem congr (top : Top score size count n order) (same : ∀ m < count, later m = score m) :
    Top later size count n order where
  length := top.length
  known := top.known
  complete := top.complete
  ranked k k' before within := by
    have beats := top.ranked k k' before within
    rw [Beats, same _ (top.known k (by omega)), same _ (top.known k' within)]
    exact beats
  best m member out k within := by
    have beats := top.best m member out k within
    rw [Beats, same _ (top.known k within), same _ member]
    exact beats

/-- A newcomer among the first entries: `last` is the place behind them, or the one of the worst
entry if there is no room. -/
theorem enter (top : Top score size count n order) {last : Nat}
    (places : (n < size ∧ last = n) ∨ (n = size ∧ last + 1 = n)) (rank : i ≤ last)
    (before : ∀ k < i, score count ≤ score (order k))
    (after : ∀ k, i ≤ k → k < n → score (order k) < score count) :
    Top score size (count + 1) (last + 1) (makeRoom order i last count) := by
  have length := top.length
  have above : ∀ k < i, k < n → Beats score (order k) count := fun k first within => by
    have := before k first
    have := top.known k within
    unfold Beats
    omega
  have below : ∀ k, i ≤ k → k < n → Beats score count (order k) := fun k behind within =>
    .inl (after k behind within)
  refine ⟨by omega, fun k within => ?_, fun k k' first within => ?_, fun room m member => ?_,
    fun m member out k within => ?_⟩
  · obtain ⟨-, same⟩ | ⟨early, same⟩ | ⟨late, same⟩ :=
      makeRoom_cases order i last count k (by omega)
    · omega
    · rw [same]
      exact Nat.lt_succ_of_lt (top.known k (by omega))
    · rw [same]
      exact Nat.lt_succ_of_lt (top.known (k - 1) (by omega))
  · obtain ⟨rfl, same⟩ | ⟨early, same⟩ | ⟨late, same⟩ :=
      makeRoom_cases order i last count k (by omega)
    · obtain ⟨rfl, -⟩ | ⟨early', -⟩ | ⟨late', same'⟩ :=
        makeRoom_cases order k last count k' (by omega)
      · omega
      · omega
      · rw [same, same']
        exact below (k' - 1) (by omega) (by omega)
    · obtain ⟨rfl, same'⟩ | ⟨early', same'⟩ | ⟨late', same'⟩ :=
        makeRoom_cases order i last count k' (by omega)
      · rw [same, same']
        exact above k early (by omega)
      · rw [same, same']
        exact top.ranked k k' first (by omega)
      · rw [same, same']
        exact top.ranked k (k' - 1) (by omega) (by omega)
    · obtain ⟨rfl, -⟩ | ⟨early', -⟩ | ⟨late', same'⟩ :=
        makeRoom_cases order i last count k' (by omega)
      · omega
      · omega
      · rw [same, same']
        exact top.ranked (k - 1) (k' - 1) (by omega) (by omega)
  · by_cases new : m = count
    · exact ⟨i, by omega, new ▸ makeRoom_self⟩
    · obtain ⟨k, within, rfl⟩ := top.complete (by omega) m (by omega)
      obtain ⟨k', inside, there⟩ := exists_makeRoom order i last count k (by omega)
      exact ⟨k', by omega, there⟩
  · have candidate : m < count := by
      have apart : m ≠ count := fun same =>
        out i (by omega) (makeRoom_self.trans same.symm)
      omega
    have kept : ∀ k < last, order k ≠ m := fun k within same => by
      obtain ⟨k', inside, there⟩ := exists_makeRoom order i last count k within
      exact out k' (by omega) (there.trans same)
    have beaten : ∀ k < last, Beats score (order k) m := fun k within => by
      by_cases dropped : n = last + 1 ∧ order last = m
      · exact dropped.2 ▸ top.ranked k last within (by omega)
      · refine top.best m candidate (fun k' inside => ?_) k (by omega)
        by_cases final : k' < last
        · exact kept k' final
        · have : k' = last := by omega
          exact this ▸ fun same => dropped ⟨by omega, same⟩
    have full : n = last + 1 := by
      by_contra room
      obtain ⟨k', inside, there⟩ := top.complete (by omega) m candidate
      exact kept k' (by omega) there
    have lastBeaten : order last = m ∨ Beats score (order last) m := by
      by_cases dropped : order last = m
      · exact .inl dropped
      · refine .inr (top.best m candidate (fun k' inside => ?_) last (by omega))
        by_cases final : k' < last
        · exact kept k' final
        · have : k' = last := by omega
          exact this ▸ dropped
    obtain ⟨rfl, same⟩ | ⟨early, same⟩ | ⟨late, same⟩ :=
      makeRoom_cases order i last count k (by omega)
    · rw [same]
      have newer := below last (by omega) (by omega)
      obtain rfl | beats := lastBeaten
      · exact newer
      · exact newer.trans beats
    · rw [same]
      exact beaten k (by omega)
    · rw [same]
      exact beaten (k - 1) (by omega)

/-- A newcomer who is not better than any of a full list stays out. -/
theorem refuse (top : Top score size count n order) (full : n = size)
    (worse : ∀ k < n, score count ≤ score (order k)) : Top score size (count + 1) n order where
  length := by
    have length := top.length
    omega
  known k within := Nat.lt_succ_of_lt (top.known k within)
  ranked := top.ranked
  complete room := absurd full (Nat.ne_of_lt room)
  best m member out k within := by
    by_cases new : m = count
    · have known := top.known k within
      have least := worse k within
      rw [new]
      unfold Beats
      omega
    · exact top.best m (by omega) out k within

end Top

end

end Taomee.Ranking
