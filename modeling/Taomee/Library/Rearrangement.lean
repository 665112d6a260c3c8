import Mathlib.Data.List.Nodup
import Mathlib.Data.List.Perm.Basic
import Mathlib.Logic.Equiv.Basic

/-!
# Rearranging the cells of a range

A program that only swaps cells of an array with each other leaves it with the same contents in
another order. What holds of all cells of the range goes on to hold of them, and the cells outside
are as they were.
-/

namespace Taomee.Rearrangement

variable {β : Type*} {p q r : Nat → β} {lo hi lo' hi' i j : Nat}

/-- The cells from `lo` to `hi` of `q` are those of `p` in another order, and the others the
same. -/
def Rearranges (p q : Nat → β) (lo hi : Nat) : Prop :=
  ∃ σ : Equiv.Perm Nat, q = p ∘ σ ∧ ∀ i, i < lo ∨ hi < i → σ i = i

namespace Rearranges

theorem refl : Rearranges p p lo hi := ⟨Equiv.refl Nat, rfl, fun _ _ => rfl⟩

theorem symm (rearranges : Rearranges p q lo hi) : Rearranges q p lo hi := by
  obtain ⟨σ, rfl, fixed⟩ := rearranges
  refine ⟨σ.symm, ?_, ?_⟩
  · funext i
    rw [Function.comp_apply, Function.comp_apply, σ.apply_symm_apply]
  · intro i outside
    rw [Equiv.symm_apply_eq, fixed i outside]

theorem trans (first : Rearranges p q lo hi) (second : Rearranges q r lo hi) :
    Rearranges p r lo hi := by
  obtain ⟨σ, rfl, fixed⟩ := first
  obtain ⟨τ, rfl, fixed'⟩ := second
  refine ⟨τ.trans σ, rfl, ?_⟩
  intro i outside
  rw [Equiv.trans_apply, fixed' i outside, fixed i outside]

theorem widen (inner : Rearranges p q lo hi) (below : lo' ≤ lo) (above : hi ≤ hi') :
    Rearranges p q lo' hi' := by
  obtain ⟨σ, same, fixed⟩ := inner
  exact ⟨σ, same, fun i outside => fixed i (by omega)⟩

/-- Two cells change places. -/
theorem swap (first : lo ≤ i ∧ i ≤ hi) (second : lo ≤ j ∧ j ≤ hi) :
    Rearranges p (p ∘ Equiv.swap i j) lo hi := by
  refine ⟨Equiv.swap i j, rfl, ?_⟩
  intro other outside
  exact Equiv.swap_apply_of_ne_of_ne (by omega) (by omega)

theorem outside (rearranges : Rearranges p q lo hi) (out : i < lo ∨ hi < i) : q i = p i := by
  obtain ⟨σ, rfl, fixed⟩ := rearranges
  rw [Function.comp_apply, fixed i out]

/-- A cell of the range comes from the range. -/
theorem exists_cell (rearranges : Rearranges p q lo hi) (inside : lo ≤ i ∧ i ≤ hi) :
    ∃ j, (lo ≤ j ∧ j ≤ hi) ∧ q i = p j := by
  obtain ⟨σ, rfl, fixed⟩ := rearranges
  refine ⟨σ i, ?_, rfl⟩
  by_contra apart
  have moved : σ (σ i) = σ i := fixed (σ i) (by omega)
  have same : σ i = i := σ.injective moved
  omega

/-- What holds of all cells of the range still does. -/
theorem all (rearranges : Rearranges p q lo hi) (holds : β → Prop)
    (before : ∀ i, lo ≤ i → i ≤ hi → holds (p i)) (low : lo ≤ i) (high : i ≤ hi) : holds (q i) := by
  obtain ⟨j, ⟨below, above⟩, same⟩ := rearranges.exists_cell ⟨low, high⟩
  exact same ▸ before j below above

/-- As lists, the cells are a permutation. -/
theorem perm {count : Nat} (rearranges : Rearranges p q lo hi) (within : hi < count) :
    ((List.range count).map q).Perm ((List.range count).map p) := by
  obtain ⟨σ, rfl, fixed⟩ := rearranges
  have permuted : ((List.range count).map σ).Perm (List.range count) := by
    have distinct : (List.map σ (List.range count)).Nodup :=
      List.Nodup.map σ.injective List.nodup_range
    refine (List.perm_ext_iff_of_nodup distinct List.nodup_range).mpr ?_
    intro i
    have inside (j : Nat) : σ j < count ↔ j < count := by
      constructor
      · intro below
        by_contra above
        rw [fixed j (by omega)] at below
        exact above below
      · by_contra above
        have moved : σ (σ j) = σ j := fixed (σ j) (by omega)
        have same : σ j = j := σ.injective moved
        omega
    rw [List.mem_map, List.mem_range]
    constructor
    · rintro ⟨j, member, rfl⟩
      exact (inside j).mpr (List.mem_range.mp member)
    · intro below
      refine ⟨σ.symm i, List.mem_range.mpr ?_, σ.apply_symm_apply i⟩
      rw [← inside, σ.apply_symm_apply]
      exact below
  have mapped := permuted.map p
  rw [List.map_map] at mapped
  exact mapped

end Rearranges

end Taomee.Rearrangement
