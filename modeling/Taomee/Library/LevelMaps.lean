import Mathlib.Data.List.Basic

/-!
# One map kept as several, by level

A key is looked for in the map of each level in turn. As long as every key is in one of them
at most, the maps are one map that says for each key its level and its value.
-/

namespace Taomee.LevelMaps

variable {κ ν : Type*} {levels level : Nat} {maps : Nat → κ → Option ν} {key other : κ}
  {value : ν} {entry : Option (Nat × ν)}

/-- The first level that has a key, and what it has there. -/
def find (levels : Nat) (maps : Nat → κ → Option ν) (key : κ) : Option (Nat × ν) :=
  (List.range levels).findSome? fun level => (maps level key).map fun value => (level, value)

/-- What all levels together hold of a key. -/
inductive Holds (levels : Nat) (maps : Nat → κ → Option ν) (key : κ) : Option (Nat × ν) → Prop where
  | absent (missing : ∀ level, maps level key = none) : Holds levels maps key none
  | filed {level : Nat} {value : ν} (below : level < levels) (here : maps level key = some value)
      (only : ∀ other, other ≠ level → maps other key = none) :
      Holds levels maps key (some (level, value))

/-- No key is at two levels. -/
def Filed (levels : Nat) (maps : Nat → κ → Option ν) : Prop :=
  ∀ key, Holds levels maps key (find levels maps key)

/-- What the levels hold for a key is found. -/
theorem Holds.find_eq (holds : Holds levels maps key entry) : find levels maps key = entry := by
  cases holds with
  | absent missing =>
    refine List.findSome?_eq_none_iff.mpr fun level _ => ?_
    rw [missing level, Option.map_none]
  | @filed level value below here only =>
    cases found : find levels maps key with
    | none =>
      have skipped := List.findSome?_eq_none_iff.mp found level (List.mem_range.mpr below)
      rw [here] at skipped
      contradiction
    | some first =>
      obtain ⟨place, -, there⟩ := List.exists_of_findSome?_eq_some found
      by_cases same : place = level
      · subst same
        rw [here] at there
        exact there.symm
      · rw [only place same] at there
        contradiction

theorem find_empty : find levels (fun _ _ => none : Nat → κ → Option ν) key = none :=
  (Holds.absent fun _ => rfl).find_eq

theorem filed_empty : Filed levels (fun _ _ => none : Nat → κ → Option ν) := by
  intro key
  rw [find_empty]
  exact .absent fun _ => rfl

theorem Holds.filed_of (all : ∀ key, ∃ entry, Holds levels maps key entry) : Filed levels maps := by
  intro key
  obtain ⟨entry, holds⟩ := all key
  rw [holds.find_eq]
  exact holds

namespace Filed

/-- A key is found where its map has it. -/
theorem find_eq_some (filed : Filed levels maps) :
    find levels maps key = some (level, value) ↔ maps level key = some value := by
  constructor
  · intro found
    have holds := filed key
    rw [found] at holds
    cases holds with
    | filed _ here _ => exact here
  · intro here
    cases found : find levels maps key with
    | none =>
      have holds := filed key
      rw [found] at holds
      cases holds with
      | absent missing =>
        rw [missing level] at here
        contradiction
    | some entry =>
      have holds := filed key
      rw [found] at holds
      cases holds with
      | @filed place there _ there' only =>
        by_cases same : level = place
        · subst same
          rw [there'] at here
          rw [Option.some.inj here]
        · rw [only level same] at here
          contradiction

/-- A key is not found when no map has it. -/
theorem find_eq_none (filed : Filed levels maps) :
    find levels maps key = none ↔ ∀ level, maps level key = none := by
  constructor
  · intro missing
    have holds := filed key
    rw [missing] at holds
    cases holds with
    | absent missing => exact missing
  · intro missing
    exact (Holds.absent missing).find_eq

/-- The level found is one of the levels. -/
theorem below (filed : Filed levels maps) (found : find levels maps key = some (level, value)) :
    level < levels := by
  have holds := filed key
  rw [found] at holds
  cases holds with
  | filed below _ _ => exact below

end Filed

/-! ## Changes of one key -/

section

variable [DecidableEq κ]

/-- What a level has for a key is set, or dropped. -/
def store (maps : Nat → κ → Option ν) (level : Nat) (key : κ) (value : Option ν) :
    Nat → κ → Option ν :=
  Function.update maps level (Function.update (maps level) key value)

theorem store_self (stored : Option ν) : store maps level key stored level key = stored := by
  rw [store, Function.update_self, Function.update_self]

theorem store_of_level_ne {place : Nat} (apart : place ≠ level) (stored : Option ν) :
    store maps level key stored place = maps place := by
  rw [store, Function.update_of_ne apart]

theorem store_of_key_ne {place : Nat} (apart : other ≠ key) (stored : Option ν) :
    store maps level key stored place other = maps place other := by
  by_cases same : place = level
  · rw [same, store, Function.update_self, Function.update_of_ne apart]
  · rw [store_of_level_ne same]

/-- A change at one key, with what the levels then hold of it. -/
theorem Filed.edit (filed : Filed levels maps) {stored : Option ν}
    (holds : Holds levels (store maps level key stored) key entry) :
    Filed levels (store maps level key stored) ∧
      find levels (store maps level key stored) = Function.update (find levels maps) key entry := by
  have others (other : κ) (apart : other ≠ key) :
      Holds levels (store maps level key stored) other (find levels maps other) := by
    cases found : find levels maps other with
    | none =>
      refine .absent fun place => ?_
      rw [store_of_key_ne apart]
      exact filed.find_eq_none.mp found place
    | some pair =>
      have before := filed other
      rw [found] at before
      cases before with
      | filed below here only =>
        refine .filed below ?_ fun place different => ?_
        · rw [store_of_key_ne apart]
          exact here
        · rw [store_of_key_ne apart]
          exact only place different
  constructor
  · apply Holds.filed_of
    intro other
    by_cases same : other = key
    · subst same
      exact ⟨entry, holds⟩
    · exact ⟨_, others other same⟩
  · ext1 other
    by_cases same : other = key
    · subst same
      rw [Function.update_self, holds.find_eq]
    · rw [Function.update_of_ne same, (others other same).find_eq]

/-- A new key is stored on one level and found there. -/
theorem Filed.insert (filed : Filed levels maps) (missing : find levels maps key = none)
    (below : level < levels) (value : ν) :
    Filed levels (store maps level key (some value)) ∧
      find levels (store maps level key (some value)) =
        Function.update (find levels maps) key (some (level, value)) := by
  refine filed.edit (.filed below (store_self _) fun place different => ?_)
  rw [store_of_level_ne different]
  exact filed.find_eq_none.mp missing place

/-- A key that is removed from its level is found no more. -/
theorem Filed.remove (filed : Filed levels maps)
    (found : find levels maps key = some (level, value)) :
    Filed levels (store maps level key none) ∧
      find levels (store maps level key none) = Function.update (find levels maps) key none := by
  have holds := filed key
  rw [found] at holds
  cases holds with
  | filed _ _ only =>
    refine filed.edit (.absent fun place => ?_)
    by_cases same : place = level
    · rw [same, store_self]
    · rw [store_of_level_ne same]
      exact only place same

/-- A new value on the same level is found instead. -/
theorem Filed.replace (filed : Filed levels maps)
    (found : find levels maps key = some (level, value)) (changed : ν) :
    Filed levels (store maps level key (some changed)) ∧
      find levels (store maps level key (some changed)) =
        Function.update (find levels maps) key (some (level, changed)) := by
  have holds := filed key
  rw [found] at holds
  cases holds with
  | filed below _ only =>
    refine filed.edit (.filed below (store_self _) fun place different => ?_)
    rw [store_of_level_ne different]
    exact only place different

/-- A key goes from its level to another. -/
theorem Filed.move (filed : Filed levels maps)
    (found : find levels maps key = some (level, value)) {target : Nat} (below : target < levels)
    (changed : ν) :
    Filed levels (store (store maps level key none) target key (some changed)) ∧
      find levels (store (store maps level key none) target key (some changed)) =
        Function.update (find levels maps) key (some (target, changed)) := by
  obtain ⟨removed, without⟩ := filed.remove found
  have missing : find levels (store maps level key none) key = none := by
    rw [without, Function.update_self]
  obtain ⟨inserted, whole⟩ := removed.insert missing below changed
  refine ⟨inserted, ?_⟩
  rw [whole, without, Function.update_idem]

end

end Taomee.LevelMaps
