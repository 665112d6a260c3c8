import Mathlib.Algebra.Order.Ring.Int
import Mathlib.Tactic.Common

/-!
# Little-endian numbers

The bytes of a number in memory, lowest first.
-/

namespace Taomee.LittleEndian

/-- The low `count` bytes of a number. -/
def toLe : Nat → Nat → List UInt8
  | 0, _ => []
  | count + 1, n => UInt8.ofNat n :: toLe count (n / 256)

def ofLe : List UInt8 → Nat
  | [] => 0
  | byte :: rest => byte.toNat + 256 * ofLe rest

@[simp] theorem length_toLe (count n : Nat) : (toLe count n).length = count := by
  induction count generalizing n with
  | zero => rfl
  | succ count ih => simp [toLe, ih]

/-- What is read back is the number in so many bytes. -/
theorem ofLe_toLe_mod (count n : Nat) : ofLe (toLe count n) = n % 256 ^ count := by
  induction count generalizing n with
  | zero => simp [toLe, ofLe, Nat.mod_one]
  | succ count ih =>
    have byte : n % 2 ^ 8 = n % 256 := rfl
    rw [toLe, ofLe, ih, UInt8.toNat_ofNat', byte, Nat.pow_succ', Nat.mod_mul]

/-- A number that fits is read back. -/
theorem ofLe_toLe {count n : Nat} (fits : n < 256 ^ count) : ofLe (toLe count n) = n := by
  rw [ofLe_toLe_mod, Nat.mod_eq_of_lt fits]

end Taomee.LittleEndian
