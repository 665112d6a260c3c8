import Mathlib.Data.Nat.Digits.Defs

/-!
# Decimal numbers

A number as its ASCII digits, highest first.
-/

namespace Taomee.Decimal

def digit (n : Nat) : UInt8 := UInt8.ofNat (48 + n)

def isDigit (c : UInt8) : Bool := 48 ≤ c && c ≤ 57

/-- The number that a sequence of digits stands for. -/
def number (digits : List UInt8) : Nat := digits.foldl (fun n c => (c.toNat - 48) + 10 * n) 0

/-- The digits of a number, one for zero. -/
def text (n : Nat) : List UInt8 := if n = 0 then [48] else (Nat.digits 10 n).reverse.map digit

theorem toNat_digit {n : Nat} (small : n < 10) : (digit n).toNat = 48 + n := by
  rw [digit, UInt8.toNat_ofNat']
  omega

theorem isDigit_digit {n : Nat} (small : n < 10) : isDigit (digit n) = true := by
  have value := toNat_digit small
  simp only [isDigit, Bool.and_eq_true, decide_eq_true_eq, UInt8.le_iff_toNat_le, value]
  exact ⟨Nat.le_add_right 48 n, show 48 + n ≤ 57 by omega⟩

theorem text_ne_nil (n : Nat) : text n ≠ [] := by
  unfold text
  split
  · exact List.cons_ne_nil _ _
  case isFalse positive =>
    simpa [List.map_eq_nil_iff, Nat.digits_eq_nil_iff_eq_zero] using positive

theorem isDigit_of_mem_text {n : Nat} {c : UInt8} (among : c ∈ text n) : isDigit c = true := by
  unfold text at among
  split at among
  · obtain rfl := List.mem_singleton.mp among
    rfl
  · obtain ⟨k, member, rfl⟩ := List.mem_map.mp among
    exact isDigit_digit (Nat.digits_lt_base (by decide) (List.mem_reverse.mp member))

/-- The digits of a number stand for it. -/
theorem number_text (n : Nat) : number (text n) = n := by
  unfold text
  split
  case isTrue zero => rw [zero]; rfl
  case isFalse =>
    have digits : ∀ k ∈ Nat.digits 10 n, k < 10 := fun k => Nat.digits_lt_base (by decide)
    rw [number, List.foldl_map, List.foldl_reverse]
    conv_rhs => rw [← Nat.ofDigits_digits 10 n, Nat.ofDigits_eq_foldr]
    generalize Nat.digits 10 n = ds at digits
    induction ds with
    | nil => rfl
    | cons d ds ih =>
      have here := toNat_digit (digits d List.mem_cons_self)
      have rest := ih fun k among => digits k (List.mem_cons_of_mem d among)
      rw [List.foldr_cons, List.foldr_cons, rest, here]
      simp

end Taomee.Decimal
