import Mathlib.Data.List.Basic

/-!
# A queue of items in fixed-size blocks

The items of a queue are laid out one after the other in blocks of `size` items, from
an offset in the first block on. `Holds` says that the blocks hold a given list, with
no block more than it takes.
-/

namespace Taomee.BlockBuffer

variable {β : Type*}

/-- The blocks hold `content` from `offset` on, and are as many as that takes. -/
structure Holds (size : Nat) (blocks : List (List β)) (offset : Nat) (content : List β) :
    Prop where
  positive : 0 < size
  full : ∀ block ∈ blocks, block.length = size
  enough : offset + content.length ≤ blocks.length * size
  tight : blocks.length * size < offset + content.length + size
  content : (blocks.flatten.drop offset).take content.length = content

/-- Overwrite the last block from `start` on. -/
def writeLast (blocks : List (List β)) (start : Nat) (data : List β) : List (List β) :=
  match blocks.getLast? with
  | none => blocks
  | some last => blocks.dropLast ++ [last.take start ++ data ++ last.drop (start + data.length)]

variable {size offset : Nat} {blocks : List (List β)} {content data spare : List β}

theorem length_flatten (full : ∀ block ∈ blocks, block.length = size) :
    blocks.flatten.length = blocks.length * size := by
  induction blocks with
  | nil => simp
  | cons first rest ih =>
    have here := full first List.mem_cons_self
    have later := ih fun block member => full block (List.mem_cons_of_mem _ member)
    rw [List.flatten_cons, List.length_append, here, later, List.length_cons, Nat.succ_mul,
      Nat.add_comm]

/-- Dropping whole blocks drops their items. -/
theorem flatten_drop (full : ∀ block ∈ blocks, block.length = size) (count : Nat) :
    (blocks.drop count).flatten = blocks.flatten.drop (count * size) := by
  induction count generalizing blocks with
  | zero => simp
  | succ count ih =>
    cases blocks with
    | nil => simp
    | cons first rest =>
      have here := full first List.mem_cons_self
      have later := ih fun block member => full block (List.mem_cons_of_mem _ member)
      have past : first.length ≤ (count + 1) * size := by
        rw [here, Nat.succ_mul]
        exact Nat.le_add_left _ _
      have left : (count + 1) * size - first.length = count * size := by
        rw [here, Nat.succ_mul, Nat.add_sub_cancel]
      rw [List.drop_succ_cons, later, List.flatten_cons, List.drop_append,
        List.drop_eq_nil_of_le past, List.nil_append, left]

theorem holds_nil (positive : 0 < size) : Holds size ([] : List (List β)) 0 [] where
  positive := positive
  full := nofun
  enough := Nat.zero_le _
  tight := by simpa using positive
  content := rfl

namespace Holds

/-- There is a partly used last block exactly when the used length is no multiple. -/
theorem length_eq (holds : Holds size blocks offset content) :
    blocks.length * size =
      if (offset + content.length) % size = 0 then offset + content.length
      else offset + content.length - (offset + content.length) % size + size := by
  have positive := holds.positive
  have enough := holds.enough
  have tight := holds.tight
  have euclid := Nat.div_add_mod (offset + content.length) size
  have bound := Nat.mod_lt (offset + content.length) positive
  rw [Nat.mul_comm] at euclid
  generalize (offset + content.length) / size = quotient at euclid
  generalize blocks.length = count at enough tight ⊢
  split
  case isTrue aligned =>
    have low : quotient ≤ count := by
      by_contra fewer
      have := Nat.mul_le_mul_right size (show count + 1 ≤ quotient by omega)
      rw [Nat.succ_mul] at this
      omega
    have high : count ≤ quotient := by
      by_contra more
      have := Nat.mul_le_mul_right size (show quotient + 1 ≤ count by omega)
      rw [Nat.succ_mul] at this
      omega
    have : quotient = count := by omega
    subst this
    omega
  case isFalse partly =>
    have low : quotient + 1 ≤ count := by
      by_contra fewer
      have := Nat.mul_le_mul_right size (show count ≤ quotient by omega)
      omega
    have high : count ≤ quotient + 1 := by
      by_contra more
      have := Nat.mul_le_mul_right size (show quotient + 2 ≤ count by omega)
      rw [show quotient + 2 = quotient + 1 + 1 from rfl, Nat.succ_mul, Nat.succ_mul] at this
      omega
    have : count = quotient + 1 := by omega
    subst this
    rw [Nat.succ_mul]
    omega

/-- The used items, with whatever stands before the offset. -/
theorem take_flatten (holds : Holds size blocks offset content) :
    (blocks.flatten.take (offset + content.length)).drop offset = content := by
  rw [List.drop_take, Nat.add_sub_cancel_left]
  exact holds.content

/-- Replacing the items of the last block from the end of the used ones on. -/
theorem write (holds : Holds size blocks offset content) {start : Nat} {front : List (List β)}
    {last : List β} (shape : blocks = front ++ [last])
    (place : front.length * size + start = offset + content.length)
    (fits : start + data.length ≤ size) (some : 0 < data.length) :
    Holds size (writeLast blocks start data) offset (content ++ data) := by
  subst shape
  have lastFull : last.length = size := holds.full last (by simp)
  have frontFull : ∀ block ∈ front, block.length = size :=
    fun block member => holds.full block (by simp [member])
  have frontLength := length_flatten frontFull
  have written : writeLast (front ++ [last]) start data
      = front ++ [last.take start ++ data ++ last.drop (start + data.length)] := by
    simp [writeLast]
  have countedToo : (front ++ [last.take start ++ data ++ last.drop (start + data.length)]).length
      * size = front.length * size + size := by
    rw [List.length_append, List.length_singleton, Nat.succ_mul]
  rw [written]
  constructor
  case positive => exact holds.positive
  case full =>
    intro block member
    rcases List.mem_append.mp member with old | new
    · exact frontFull block old
    · rw [List.mem_singleton.mp new]
      simp only [List.length_append, List.length_take, List.length_drop]
      omega
  case enough =>
    rw [countedToo, List.length_append]
    omega
  case tight =>
    rw [countedToo, List.length_append]
    omega
  case content =>
    have kept := holds.take_flatten
    rw [List.flatten_append, List.flatten_singleton] at kept ⊢
    have prefixSame : (front.flatten ++ last).take (offset + content.length)
        = front.flatten ++ last.take start := by
      rw [← place, List.take_append, List.take_of_length_le (by omega)]
      congr 2
      omega
    rw [prefixSame] at kept
    have within : offset ≤ (front.flatten ++ last.take start).length := by
      rw [List.length_append, List.length_take]
      omega
    rw [← List.append_assoc, ← List.append_assoc, List.append_assoc, List.append_assoc,
      ← List.append_assoc, List.drop_append_of_le_length within, kept, List.length_append,
      ← List.append_assoc]
    rw [List.take_append_of_le_length (by simp), ← List.length_append, List.take_length]

/-- Items go on after the last used one, in a new block when the last one is full. -/
theorem append (holds : Holds size blocks offset content) (spareFull : spare.length = size)
    (fits : data.length ≤ size - (offset + content.length) % size) (some : 0 < data.length) :
    Holds size
      (writeLast (if (offset + content.length) % size = 0 then blocks ++ [spare] else blocks)
        ((offset + content.length) % size) data) offset (content ++ data) := by
  have positive := holds.positive
  have count := holds.length_eq
  split
  case isTrue aligned =>
    rw [if_pos aligned] at count
    rw [aligned] at fits ⊢
    -- the new block makes room, and is not tight before it is written to
    have flat : blocks.flatten.length = offset + content.length := by
      rw [length_flatten holds.full, count]
    have written : writeLast (blocks ++ [spare]) 0 data
        = blocks ++ [data ++ spare.drop data.length] := by
      simp [writeLast]
    have counted : (blocks ++ [data ++ spare.drop data.length]).length * size
        = offset + content.length + size := by
      rw [List.length_append, List.length_singleton, Nat.succ_mul, count]
    rw [written]
    constructor
    case positive => exact positive
    case full =>
      intro block member
      rcases List.mem_append.mp member with old | new
      · exact holds.full block old
      · rw [List.mem_singleton.mp new]
        simp only [List.length_append, List.length_drop]
        omega
    case enough =>
      rw [counted, List.length_append]
      omega
    case tight =>
      rw [counted, List.length_append]
      omega
    case content =>
      have kept := holds.take_flatten
      rw [List.take_of_length_le (by omega)] at kept
      rw [List.flatten_append, List.flatten_singleton,
        List.drop_append_of_le_length (by omega), kept, ← List.append_assoc,
        List.take_append_of_le_length (Nat.le_refl _), List.take_length]
  case isFalse partly =>
    rw [if_neg partly] at count
    have nonempty : blocks ≠ [] := by
      rintro rfl
      simp at count
      omega
    obtain ⟨front, last, shape⟩ : ∃ front last, blocks = front ++ [last] :=
      ⟨blocks.dropLast, blocks.getLast nonempty, (List.dropLast_append_getLast nonempty).symm⟩
    apply holds.write shape _ (by omega) some
    rw [shape, List.length_append, List.length_singleton, Nat.succ_mul] at count
    have below := Nat.mod_le (offset + content.length) size
    omega

/-- Items leave from the front, and the blocks that they leave empty go. -/
theorem consume (holds : Holds size blocks offset content) {count : Nat}
    (within : count ≤ content.length) :
    Holds size (blocks.drop ((count + offset) / size)) ((count + offset) % size)
      (content.drop count) := by
  have positive := holds.positive
  have enough := holds.enough
  have tight := holds.tight
  have euclid := Nat.div_add_mod (count + offset) size
  rw [Nat.mul_comm] at euclid
  have past : (count + offset) / size ≤ blocks.length := by
    by_contra beyond
    have := Nat.mul_le_mul_right size (show blocks.length + 1 ≤ (count + offset) / size by omega)
    rw [Nat.succ_mul] at this
    omega
  have remaining : (content.drop count).length = content.length - count := List.length_drop
  have left : (blocks.drop ((count + offset) / size)).length * size + (count + offset) / size * size
      = blocks.length * size := by
    rw [← Nat.add_mul, List.length_drop, Nat.sub_add_cancel past]
  constructor
  case positive => exact positive
  case full => exact fun block member => holds.full block (List.mem_of_mem_drop member)
  case enough =>
    omega
  case tight =>
    omega
  case content =>
    rw [flatten_drop holds.full, List.drop_drop, euclid, Nat.add_comm count offset,
      ← List.drop_drop, List.length_drop, ← List.drop_take, holds.content]

/-- With nothing left, a partly used block can go too. -/
theorem reset (holds : Holds size blocks offset content) (nothing : content = [])
    (offsetSome : offset ≠ 0) (offsetLt : offset < size) : Holds size (blocks.drop 1) 0 [] := by
  subst nothing
  have enough := holds.enough
  have tight := holds.tight
  have one : blocks.length = 1 := by
    simp only [List.length_nil] at enough tight
    have low : blocks.length ≠ 0 := by
      intro zero
      rw [zero] at enough
      omega
    have high : ¬ 2 ≤ blocks.length := by
      intro more
      have := Nat.mul_le_mul_right size more
      omega
    omega
  have none : blocks.drop 1 = [] := List.drop_eq_nil_of_le (by omega)
  rw [none]
  exact holds_nil holds.positive

end Holds

end Taomee.BlockBuffer
