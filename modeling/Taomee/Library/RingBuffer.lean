import Mathlib.Data.List.Range

/-!
# Ring buffers

A stream of items written round and round a buffer of `size` slots. Positions count
from the start of the stream and never wrap; slot `position % size` holds the item.
`store` and `load` are the ideal accesses, `copyIn` and `copyOut` the straight copies
that a program splits them into.
-/

namespace Taomee.RingBuffer

variable {β : Type*} {size position : Nat} {buffer : Nat → β} {data : List β}

/-- How far a slot lies after the slot of a position, going round the buffer. -/
def offset (size position slot : Nat) : Nat :=
  if position % size ≤ slot then slot - position % size else slot + size - position % size

/-- Write `data` from `position` on, going round the buffer. -/
def store (size : Nat) (buffer : Nat → β) (position : Nat) (data : List β) : Nat → β :=
  fun slot =>
    if slot < size then (data[offset size position slot]?).getD (buffer slot) else buffer slot

/-- Read `count` items from `position` on, going round the buffer. -/
def load (size : Nat) (buffer : Nat → β) (position count : Nat) : List β :=
  (List.range count).map fun step => buffer ((position + step) % size)

/-- A straight copy into the buffer. -/
def copyIn (buffer : Nat → β) (start : Nat) (data : List β) : Nat → β :=
  fun slot => if start ≤ slot then (data[slot - start]?).getD (buffer slot) else buffer slot

/-- A straight copy out of the buffer. -/
def copyOut (buffer : Nat → β) (start count : Nat) : List β :=
  (List.range count).map fun step => buffer (start + step)

@[simp] theorem length_load (size : Nat) (buffer : Nat → β) (position count : Nat) :
    (load size buffer position count).length = count := by
  simp [load]

@[simp] theorem length_copyOut (buffer : Nat → β) (start count : Nat) :
    (copyOut buffer start count).length = count := by
  simp [copyOut]

/-- A read may start from the slot. -/
theorem load_mod (size : Nat) (buffer : Nat → β) (position count : Nat) :
    load size buffer (position % size) count = load size buffer position count := by
  simp [load]

/-- A shorter read gives the front of a longer one. -/
theorem take_load (size : Nat) (buffer : Nat → β) (position count first : Nat) :
    (load size buffer position count).take first = load size buffer position (min first count) := by
  simp [load, ← List.map_take]

/-- One step round the buffer is at most one wrap. -/
theorem add_mod_cases (position : Nat) {step : Nat} (inside : step < size) :
    (position + step) % size =
      if position % size + step < size then position % size + step
      else position % size + step - size := by
  have positive : 0 < size := by omega
  have bounded := Nat.mod_lt position positive
  rw [Nat.add_mod, Nat.mod_eq_of_lt inside]
  split
  case isTrue fits => exact Nat.mod_eq_of_lt fits
  case isFalse wraps =>
    rw [Nat.mod_eq_sub_mod (by omega), Nat.mod_eq_of_lt (by omega)]

theorem offset_add_mod {step : Nat} (inside : step < size) :
    offset size position ((position + step) % size) = step := by
  rw [add_mod_cases _ inside]
  unfold offset
  split <;> split <;> omega

theorem offset_lt {slot : Nat} (position : Nat) (inside : slot < size) :
    offset size position slot < size := by
  unfold offset
  split <;> omega

theorem add_offset_mod {slot : Nat} (inside : slot < size) :
    (position + offset size position slot) % size = slot := by
  have bounded := Nat.mod_lt position (show 0 < size by omega)
  rw [add_mod_cases _ (offset_lt position inside)]
  unfold offset
  split <;> split <;> omega

/-- The slots of a stretch hold its items. -/
theorem store_at {step : Nat} (fits : data.length ≤ size) (inside : step < data.length) :
    store size buffer position data ((position + step) % size) = data[step] := by
  have short : step < size := by omega
  have slot : (position + step) % size < size := Nat.mod_lt _ (by omega)
  simp [store, slot, offset_add_mod short, inside]

/-- The slots outside a stretch are left alone. -/
theorem store_apart {slot : Nat} (apart : ∀ step < data.length, (position + step) % size ≠ slot) :
    store size buffer position data slot = buffer slot := by
  unfold store
  split
  case isFalse => rfl
  case isTrue inside =>
    have beyond : data.length ≤ offset size position slot := by
      by_contra short
      exact apart _ (by omega) (add_offset_mod inside)
    simp [beyond]

/-- What was stored is loaded back. -/
theorem load_store (fits : data.length ≤ size) :
    load size (store size buffer position data) position data.length = data := by
  apply List.ext_getElem
  · simp
  · intro step _ inside
    simp [load, store_at fits inside]

/-- Two stretches of one lap use different slots. -/
theorem slots_differ {first second : Nat} (before : first < second) (lap : second < first + size) :
    first % size ≠ second % size := by
  intro same
  have step : second = first + (second - first) := by omega
  rw [step, add_mod_cases _ (show second - first < size by omega)] at same
  split at same <;> omega

/-- A stretch earlier in the lap keeps its items. -/
theorem load_store_apart {earlier count : Nat} (before : earlier + count ≤ position)
    (lap : position + data.length ≤ earlier + size) :
    load size (store size buffer position data) earlier count
      = load size buffer earlier count := by
  apply List.map_congr_left
  intro step member
  have inside := List.mem_range.mp member
  apply store_apart
  intro other short
  exact (slots_differ (by omega) (by omega)).symm

/-- A stretch that does not pass the end of the buffer is one straight copy. -/
theorem copyIn_eq_store (straight : position % size + data.length ≤ size) :
    copyIn buffer (position % size) data = store size buffer position data := by
  funext slot
  unfold copyIn store offset
  by_cases after : position % size ≤ slot
  · by_cases inside : slot < size
    · simp [after, inside]
    · have beyond : data.length ≤ slot - position % size := by omega
      simp [inside, beyond]
  · by_cases inside : slot < size
    · have beyond : data.length ≤ slot + size - position % size := by omega
      simp [after, beyond]
    · simp [after, inside]

/-- Any stretch is two straight copies, cut at the end of the buffer. -/
theorem copyIn_copyIn_eq_store (positive : 0 < size) (fits : data.length ≤ size) :
    copyIn (copyIn buffer (position % size) (data.take (size - position % size))) 0
        (data.drop (size - position % size))
      = store size buffer position data := by
  have bounded := Nat.mod_lt position positive
  funext slot
  unfold copyIn store offset
  by_cases inside : slot < size
  · by_cases after : position % size ≤ slot
    · have short : slot - position % size < size - position % size := by omega
      have beyond : data.length ≤ size - position % size + slot := by omega
      simp [after, inside, short, beyond]
    · have shift : size - position % size + slot = slot + size - position % size := by omega
      simp [after, inside, shift]
  · have first : data.length ≤ size - position % size + slot := by omega
    have second : ¬ slot - position % size < size - position % size := by omega
    simp [inside, first, List.getElem?_take, second]

theorem copyOut_eq_load {count : Nat} (straight : position % size + count ≤ size) :
    copyOut buffer (position % size) count = load size buffer position count := by
  apply List.map_congr_left
  intro step member
  have inside := List.mem_range.mp member
  by_cases single : step < size
  · rw [add_mod_cases _ single]
    split
    · rfl
    · omega
  · omega

theorem copyOut_append_eq_load {count : Nat} (positive : 0 < size)
    (wraps : size - position % size ≤ count) (fits : count ≤ size) :
    copyOut buffer (position % size) (size - position % size)
        ++ copyOut buffer 0 (count - (size - position % size))
      = load size buffer position count := by
  have bounded := Nat.mod_lt position positive
  apply List.ext_getElem
  · simp
    omega
  · intro step left right
    have short : step < size := by
      simp at right
      omega
    simp only [load, List.getElem_map, List.getElem_range, add_mod_cases _ short]
    by_cases inside : step < size - position % size
    · have straight : position % size + step < size := by omega
      simp [copyOut, inside, straight]
    · have wrapped : ¬ position % size + step < size := by omega
      have shift : step - (size - position % size) = position % size + step - size := by omega
      simp [List.getElem_append, copyOut, inside, wrapped, shift]

theorem load_append (size : Nat) (buffer : Nat → β) (position first second : Nat) :
    load size buffer position (first + second)
      = load size buffer position first ++ load size buffer (position + first) second := by
  simp [load, List.range_add, Nat.add_assoc]

section Cursor

/-! A cursor that goes back to the front only with the next item, and so may stand at the
end of the buffer. -/

/-- Where such a cursor stands at a position of the stream. -/
def cursor (size position : Nat) : Nat :=
  if position = 0 then 0 else (position - 1) % size + 1

variable {size position step : Nat} {buffer : Nat → β} {data : List β}

theorem cursor_le (positive : 0 < size) : cursor size position ≤ size := by
  unfold cursor
  split
  · exact Nat.zero_le _
  · exact Nat.mod_lt _ positive

/-- It stands at the slot of the position, or at the end instead of the first slot. -/
theorem cursor_cases (positive : 0 < size) (position : Nat) :
    cursor size position = position % size ∨ cursor size position = size ∧ position % size = 0 := by
  unfold cursor
  split
  case isTrue zero => exact .inl (by rw [zero, Nat.zero_mod])
  case isFalse some' =>
    have bound := Nat.mod_lt (position - 1) positive
    have next : position % size = ((position - 1) % size + 1) % size := by
      rw [Nat.mod_add_mod, Nat.sub_add_cancel (by omega)]
    rw [next]
    by_cases inside : (position - 1) % size + 1 < size
    · exact .inl (Nat.mod_eq_of_lt inside).symm
    · have atEnd : (position - 1) % size + 1 = size := by omega
      exact .inr ⟨atEnd, by rw [atEnd, Nat.mod_self]⟩

theorem cursor_add (short : step < size) (position : Nat) :
    cursor size (position + step) =
      if cursor size position + step ≤ size then cursor size position + step
      else cursor size position + step - size := by
  have bound : cursor size position ≤ size := cursor_le (by omega)
  by_cases zero : step = 0
  · subst zero
    rw [if_pos (by omega)]
    rfl
  · unfold cursor
    rw [if_neg (by omega)]
    by_cases start : position = 0
    · subst start
      rw [if_pos rfl, if_pos (by omega), Nat.mod_eq_of_lt (by omega)]
      omega
    · rw [if_neg start, show position + step - 1 = position - 1 + step by omega,
        add_mod_cases _ short]
      split <;> split <;> omega

/-- A stretch written from the cursor on, in two copies where it passes the end. -/
theorem copyIn_cursor (positive : 0 < size) (fits : data.length ≤ size) :
    (if cursor size position + data.length ≤ size then
        copyIn buffer (cursor size position) data
      else
        copyIn (copyIn buffer (cursor size position) (data.take (size - cursor size position))) 0
          (data.drop (size - cursor size position)))
      = store size buffer position data := by
  rcases cursor_cases positive position with same | ⟨atEnd, front⟩
  · rw [same]
    split
    case isTrue straight => exact copyIn_eq_store straight
    case isFalse => exact copyIn_copyIn_eq_store positive fits
  · rw [atEnd]
    have fromFront : copyIn buffer 0 data = store size buffer position data := by
      rw [← copyIn_eq_store (by omega), front]
    split
    case isTrue empty =>
      have none : data = [] := List.length_eq_zero_iff.mp (by omega)
      subst none
      rw [← fromFront]
      funext slot
      simp [copyIn]
    case isFalse =>
      rw [Nat.sub_self, List.take_zero, List.drop_zero, ← fromFront]
      funext slot
      simp [copyIn]

/-- A stretch read from the cursor on. -/
theorem copyOut_cursor {count : Nat} (positive : 0 < size) (fits : count ≤ size) :
    (if cursor size position + count ≤ size then copyOut buffer (cursor size position) count
      else
        copyOut buffer (cursor size position) (size - cursor size position)
          ++ copyOut buffer 0 (count - (size - cursor size position)))
      = load size buffer position count := by
  rcases cursor_cases positive position with same | ⟨atEnd, front⟩
  · rw [same]
    split
    case isTrue straight => exact copyOut_eq_load straight
    case isFalse => exact copyOut_append_eq_load positive (by omega) fits
  · rw [atEnd]
    split
    case isTrue empty =>
      have none : count = 0 := by omega
      subst none
      rfl
    case isFalse =>
      rw [Nat.sub_self, Nat.sub_zero, ← copyOut_eq_load (by omega), front]
      rfl

end Cursor

end Taomee.RingBuffer
