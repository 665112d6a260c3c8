import Mathlib.Data.List.Nodup

/-!
# A list edited during a walk

A walk along a list without duplicates stands at an entry. What is still to come begins there, and
erasing other entries or appending new ones does not lose the place.
-/

namespace Taomee.EditedList

variable {α : Type*} [DecidableEq α] {l m : List α} {a b p : α}

/-- The list from an entry on. -/
def onward (l : List α) (a : α) : List α := l.dropWhile (· ≠ a)

theorem onward_cons_self (a : α) (l : List α) : onward (a :: l) a = a :: l := by
  simp [onward]

theorem onward_cons_of_ne (differs : b ≠ a) (l : List α) : onward (b :: l) a = onward l a := by
  simp [onward, differs]

theorem onward_sublist (l : List α) (a : α) : List.Sublist (onward l a) l :=
  List.dropWhile_sublist _

theorem onward_of_mem (member : a ∈ l) : ∃ later, onward l a = a :: later := by
  induction l with
  | nil => exact absurd member List.not_mem_nil
  | cons b l ih =>
    by_cases same : b = a
    · subst same
      exact ⟨l, onward_cons_self b l⟩
    · rw [onward_cons_of_ne same]
      exact ih ((List.mem_cons.mp member).resolve_left (Ne.symm same))

/-- The entry after an entry, and what comes from there on. -/
theorem onward_next {later : List α} (nodup : l.Nodup) (here : onward l a = a :: p :: later) :
    onward l p = p :: later := by
  induction l with
  | nil => exact nomatch here
  | cons b l ih =>
    have inside : p ∈ onward (b :: l) a := by simp [here]
    by_cases same : b = a
    · subst same
      rw [onward_cons_self] at here
      obtain rfl : l = p :: later := (List.cons.inj here).2
      have differs : b ≠ p := fun equal => (List.nodup_cons.mp nodup).1 (by simp [equal])
      rw [onward_cons_of_ne differs, onward_cons_self]
    · rw [onward_cons_of_ne same] at here inside
      have differs : b ≠ p := by
        rintro rfl
        exact (List.nodup_cons.mp nodup).1 ((onward_sublist l a).subset inside)
      rw [onward_cons_of_ne differs]
      exact ih (List.nodup_cons.mp nodup).2 here

theorem onward_append (member : p ∈ l) (m : List α) : onward (l ++ m) p = onward l p ++ m := by
  induction l with
  | nil => exact absurd member List.not_mem_nil
  | cons b l ih =>
    rw [List.cons_append]
    by_cases same : b = p
    · subst same
      rw [onward_cons_self, onward_cons_self, List.cons_append]
    · rw [onward_cons_of_ne same, onward_cons_of_ne same]
      exact ih ((List.mem_cons.mp member).resolve_left (Ne.symm same))

theorem onward_erase (nodup : l.Nodup) (differs : b ≠ p) :
    onward (l.erase b) p = (onward l p).erase b := by
  induction l with
  | nil => rfl
  | cons c l ih =>
    obtain ⟨new, nodup⟩ := List.nodup_cons.mp nodup
    by_cases same : c = b
    · subst same
      have absent : c ∉ onward l p := fun inside => new ((onward_sublist l p).subset inside)
      rw [List.erase_cons_head, onward_cons_of_ne differs, List.erase_of_not_mem absent]
    · have kept : (c :: l).erase b = c :: l.erase b := List.erase_cons_tail (by simpa using same)
      rw [kept]
      by_cases found : c = p
      · subst found
        rw [onward_cons_self, onward_cons_self, kept]
      · rw [onward_cons_of_ne found, onward_cons_of_ne found, ih nodup]

theorem mem_onward_erase (nodup : l.Nodup) (differs : b ≠ p) :
    a ∈ onward (l.erase b) p ↔ a ≠ b ∧ a ∈ onward l p := by
  rw [onward_erase nodup differs]
  exact (nodup.sublist (onward_sublist l p)).mem_erase_iff

end Taomee.EditedList
