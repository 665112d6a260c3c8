import Mathlib.Data.Set.Function
import Mathlib.Tactic.Common

/-!
# Tables with several candidate slots for a key

A key may be kept in any of its candidate slots, and slots that hold the empty key are free.
A key is looked for in all of its candidates before a free one is taken.
-/

namespace Taomee.ChoiceTable

variable {κ σ : Type*} {place : Set σ} {candidates : κ → List σ} {empty key : κ}
  {content : σ → κ} {slot : σ}

/-- The keys kept in the slots of a table. -/
def stored (place : Set σ) (empty : κ) (content : σ → κ) : Set κ :=
  {key | key ≠ empty ∧ ∃ slot ∈ place, content slot = key}

/-- Every key that is kept is in one of its candidates, and in no other slot. -/
structure Placed (place : Set σ) (candidates : κ → List σ) (empty : κ) (content : σ → κ) :
    Prop where
  home : ∀ slot ∈ place, content slot ≠ empty → slot ∈ candidates (content slot)
  once : Set.InjOn content {slot ∈ place | content slot ≠ empty}

theorem placed_of_empty (free : ∀ slot ∈ place, content slot = empty) :
    Placed place candidates empty content where
  home slot member kept := absurd (free slot member) kept
  once slot member _ _ _ := absurd (free slot member.1) member.2

theorem stored_of_empty (free : ∀ slot ∈ place, content slot = empty) :
    stored place empty content = ∅ := by
  ext key
  constructor
  · rintro ⟨named, slot, member, rfl⟩
    exact named (free slot member)
  · exact False.elim

namespace Placed

/-- It is enough to look in the candidates. -/
theorem mem_stored_iff (placed : Placed place candidates empty content)
    (inside : ∀ slot ∈ candidates key, slot ∈ place) (named : key ≠ empty) :
    key ∈ stored place empty content ↔ ∃ slot ∈ candidates key, content slot = key := by
  constructor
  · rintro ⟨-, slot, member, rfl⟩
    exact ⟨slot, placed.home slot member named, rfl⟩
  · rintro ⟨slot, candidate, holds⟩
    exact ⟨named, slot, inside slot candidate, holds⟩

variable [DecidableEq σ]

/-- A key that is not kept anywhere goes into a free candidate. -/
theorem store (placed : Placed place candidates empty content) (candidate : slot ∈ candidates key)
    (absent : key ∉ stored place empty content) :
    Placed place candidates empty (Function.update content slot key) := by
  have fresh : ∀ other ∈ place, content other ≠ empty → content other ≠ key := by
    rintro other member kept rfl
    exact absent ⟨kept, other, member, rfl⟩
  constructor
  · intro other member kept
    by_cases same : other = slot
    · subst same
      rwa [Function.update_self]
    · rw [Function.update_of_ne same] at kept ⊢
      exact placed.home other member kept
  · rintro one ⟨oneIn, oneKept⟩ two ⟨twoIn, twoKept⟩ equal
    by_cases first : one = slot <;> by_cases second : two = slot
    · rw [first, second]
    · subst first
      rw [Function.update_self, Function.update_of_ne second] at equal
      rw [Function.update_of_ne second] at twoKept
      exact absurd equal.symm (fresh two twoIn twoKept)
    · subst second
      rw [Function.update_self, Function.update_of_ne first] at equal
      rw [Function.update_of_ne first] at oneKept
      exact absurd equal (fresh one oneIn oneKept)
    · rw [Function.update_of_ne first, Function.update_of_ne second] at equal
      rw [Function.update_of_ne first] at oneKept
      rw [Function.update_of_ne second] at twoKept
      exact placed.once ⟨oneIn, oneKept⟩ ⟨twoIn, twoKept⟩ equal

theorem erase (placed : Placed place candidates empty content) (slot : σ) :
    Placed place candidates empty (Function.update content slot empty) := by
  have kept_of {other : σ} (kept : Function.update content slot empty other ≠ empty) :
      other ≠ slot ∧ Function.update content slot empty other = content other := by
    have apart : other ≠ slot := by
      rintro rfl
      exact kept (Function.update_self ..)
    exact ⟨apart, Function.update_of_ne apart ..⟩
  constructor
  · intro other member kept
    obtain ⟨-, same⟩ := kept_of kept
    rw [same] at kept ⊢
    exact placed.home other member kept
  · rintro one ⟨oneIn, oneKept⟩ two ⟨twoIn, twoKept⟩ equal
    obtain ⟨-, oneSame⟩ := kept_of oneKept
    obtain ⟨-, twoSame⟩ := kept_of twoKept
    rw [oneSame] at oneKept equal
    rw [twoSame] at twoKept equal
    exact placed.once ⟨oneIn, oneKept⟩ ⟨twoIn, twoKept⟩ equal

/-- Freeing a slot forgets its key, which is nowhere else. -/
theorem stored_erase (placed : Placed place candidates empty content) (member : slot ∈ place) :
    stored place empty (Function.update content slot empty) =
      stored place empty content \ {content slot} := by
  ext key
  constructor
  · rintro ⟨named, other, otherIn, rfl⟩
    have apart : other ≠ slot := by
      rintro rfl
      exact named (Function.update_self ..)
    rw [Function.update_of_ne apart] at named ⊢
    refine ⟨⟨named, other, otherIn, rfl⟩, fun equal => apart ?_⟩
    have same : content other = content slot := equal
    exact placed.once ⟨otherIn, named⟩ ⟨member, same ▸ named⟩ same
  · rintro ⟨⟨named, other, otherIn, rfl⟩, different⟩
    have apart : other ≠ slot := by
      rintro rfl
      exact different rfl
    exact ⟨named, other, otherIn, Function.update_of_ne apart ..⟩

end Placed

/-- Filling a free slot adds its key to those kept. -/
theorem stored_store [DecidableEq σ] (member : slot ∈ place) (free : content slot = empty)
    (named : key ≠ empty) :
    stored place empty (Function.update content slot key) =
      insert key (stored place empty content) := by
  ext other
  constructor
  · rintro ⟨otherNamed, spot, atIn, rfl⟩
    by_cases same : spot = slot
    · left
      rw [same, Function.update_self]
    · right
      rw [Function.update_of_ne same] at otherNamed ⊢
      exact ⟨otherNamed, spot, atIn, rfl⟩
  · rintro (rfl | ⟨otherNamed, spot, atIn, rfl⟩)
    · exact ⟨named, slot, member, Function.update_self ..⟩
    · have apart : spot ≠ slot := by
        rintro rfl
        exact otherNamed free
      exact ⟨otherNamed, spot, atIn, Function.update_of_ne apart ..⟩

end Taomee.ChoiceTable
