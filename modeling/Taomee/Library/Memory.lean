import Mathlib.Data.List.Range
import Mathlib.Tactic.Common

/-!
# Straight copies

Memory cells at addresses relative to some base, on either side of it. A stretch is copied
in or out without going round anything.
-/

namespace Taomee.Memory

variable {β : Type*} {mem : Int → β} {start from' : Int} {count : Nat} {data : List β}

def write (mem : Int → β) (start : Int) (data : List β) : Int → β :=
  fun cell =>
    if start ≤ cell then (data[(cell - start).toNat]?).getD (mem cell) else mem cell

def read (mem : Int → β) (start : Int) (count : Nat) : List β :=
  (List.range count).map fun step : Nat => mem (start + step)

@[simp] theorem length_read (mem : Int → β) (start : Int) (count : Nat) :
    (read mem start count).length = count := by
  simp [read]

theorem read_add (mem : Int → β) (start : Int) (first second : Nat) :
    read mem start (first + second)
      = read mem start first ++ read mem (start + first) second := by
  simp [read, List.range_add, Int.add_assoc]

/-- The stretch that was written holds its data. -/
theorem read_write (mem : Int → β) (start : Int) (data : List β) :
    read (write mem start data) start data.length = data := by
  apply List.ext_getElem
  · simp
  · intro step _ inside
    have after : start ≤ start + step := by omega
    have back : (start + (step : Int) - start).toNat = step := by omega
    simp [read, write, after, back, inside]

/-- A cell outside the stretch is left alone. -/
theorem write_apart {cell : Int} (apart : cell < start ∨ start + data.length ≤ cell) :
    write mem start data cell = mem cell := by
  unfold write
  split
  case isTrue after =>
    have beyond : data.length ≤ (cell - start).toNat := by omega
    simp [beyond]
  case isFalse => rfl

/-- A stretch on one side of the one written keeps its items. -/
theorem read_write_apart (apart : from' + count ≤ start ∨ start + data.length ≤ from') :
    read (write mem start data) from' count = read mem from' count := by
  apply List.map_congr_left
  intro step member
  have inside := List.mem_range.mp member
  exact write_apart (by omega)

/-- What a stretch holds, cell by cell. -/
theorem cell_of_read (holds : read mem start data.length = data) {step : Nat}
    (inside : step < data.length) : mem (start + step) = data[step] := by
  have cell := List.getElem_of_eq holds (by simpa using inside)
  simpa [read] using cell

end Taomee.Memory
