import Mathlib.Tactic.Common

/-!
# Records in memory and maps of pointers to them

A heap holds a record at each address in use. A map keeps what is stored first under a key.
-/

namespace Taomee.Records

/-- Addresses; `NULL` is 0. -/
abbrev Addr := Nat

abbrev Heap (α : Type*) := Addr → Option α

section

variable {α β : Type*} {heap : Heap α} {a b : Addr} {change : α → α} {old new : α}

/-- A record is changed where it is; nothing happens to memory that is not in use. -/
def modify (heap : Heap α) (a : Addr) (change : α → α) : Heap α :=
  Function.update heap a ((heap a).map change)

theorem modify_self : modify heap a change a = (heap a).map change := Function.update_self ..

theorem modify_of_ne (apart : b ≠ a) : modify heap a change b = heap b :=
  Function.update_of_ne apart ..

theorem modify_of_some (here : heap a = some old) : modify heap a change a = some (change old) := by
  rw [modify_self, here, Option.map_some]

/-- A record after a change is the changed one, or one elsewhere. -/
theorem modify_eq_some_iff : modify heap a change b = some new ↔
    b = a ∧ (∃ old, heap a = some old ∧ change old = new) ∨ b ≠ a ∧ heap b = some new := by
  obtain rfl | apart := eq_or_ne b a
  · rw [modify_self, Option.map_eq_some_iff]
    simp
  · rw [modify_of_ne apart]
    simp [apart]

theorem isSome_modify : (modify heap a change b).isSome = (heap b).isSome := by
  obtain rfl | apart := eq_or_ne b a
  · rw [modify_self, Option.isSome_map]
  · rw [modify_of_ne apart]

theorem modify_modify {next : α → α} :
    modify (modify heap a change) a next = modify heap a (next ∘ change) := by
  funext b
  obtain rfl | apart := eq_or_ne b a
  · rw [modify_self, modify_self, modify_self, Option.map_map]
  · rw [modify_of_ne apart, modify_of_ne apart, modify_of_ne apart]

/-- Only the record that is there counts. -/
theorem modify_congr {other : α → α} (here : heap a = some old) (same : change old = other old) :
    modify heap a change = modify heap a other := by
  rw [modify, modify, here, Option.map_some, Option.map_some, same]

theorem modify_of_none (free : heap a = none) : modify heap a change = heap := by
  rw [modify, free, Option.map_none, ← free, Function.update_eq_self]

/-- What a change keeps of its record is kept of every record. -/
theorem map_modify {view : α → β} (keeps : ∀ record, view (change record) = view record) :
    (modify heap a change b).map view = (heap b).map view := by
  obtain rfl | apart := eq_or_ne b a
  · rw [modify_self, Option.map_map]
    congr 1
    exact funext keeps
  · rw [modify_of_ne apart]

end

/-- A map from keys to pointers, in the order of the keys. -/
abbrev PtrMap (κ : Type*) [Ord κ] := Std.TreeMap κ Addr

namespace PtrMap

variable {κ : Type*} [Ord κ] [Std.TransOrd κ] [Std.LawfulEqOrd κ] [DecidableEq κ] {map : PtrMap κ}
  {key other : κ} {a : Addr}

theorem getElem?_erase : (map.erase key)[other]? = if key = other then none else map[other]? := by
  rw [Std.TreeMap.getElem?_erase]
  simp

theorem getElem?_insertIfNew : (map.insertIfNew key a)[other]? =
    if key = other ∧ map[key]? = none then some a else map[other]? := by
  rw [Std.TreeMap.getElem?_insertIfNew]
  simp

theorem erase_eq_some_iff :
    (map.erase key)[other]? = some a ↔ key ≠ other ∧ map[other]? = some a := by
  rw [getElem?_erase]
  split
  case isTrue same => simp [same]
  case isFalse apart => simp [apart]

theorem insertIfNew_eq_some_iff {b : Addr} (free : map[key]? = none) :
    (map.insertIfNew key a)[other]? = some b ↔ b = a ∧ key = other ∨ map[other]? = some b := by
  rw [getElem?_insertIfNew]
  split
  case isTrue same =>
    rw [← same.1, free]
    simp [eq_comm]
  case isFalse occupied =>
    have apart : key ≠ other := fun same => occupied ⟨same, free⟩
    simp [apart]

omit [DecidableEq κ] in
/-- The pointers of a map. -/
theorem mem_values_iff : a ∈ map.toList.map Prod.snd ↔ ∃ key : κ, map[key]? = some a := by
  constructor
  · intro member
    obtain ⟨⟨key, a⟩, entry, rfl⟩ := List.mem_map.mp member
    exact ⟨key, Std.TreeMap.mem_toList_iff_getElem?_eq_some.mp entry⟩
  · rintro ⟨key, found⟩
    exact List.mem_map.mpr ⟨(key, a), Std.TreeMap.mem_toList_iff_getElem?_eq_some.mpr found, rfl⟩

end PtrMap

end Taomee.Records
