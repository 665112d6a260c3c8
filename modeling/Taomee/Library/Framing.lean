import Mathlib.Data.List.Basic

/-!
# Framing a byte stream

A framer looks at the bytes at the start of a stream and says that it cannot decide yet,
that the first frame has a certain length, or that the stream is broken there. When more
bytes never change what it has decided, the frames of a stream do not depend on the
chunks in which the stream arrives.
-/

namespace Taomee.Framing

variable {β : Type*}

/-- What a framer says of the bytes at the start of a stream. -/
inductive Verdict where
  | undecided
  | frame (length : Nat)
  | broken
  deriving DecidableEq

/-- More bytes do not change a decision, and a frame is not empty. -/
structure Stable (framer : List β → Verdict) : Prop where
  stable : ∀ bytes more, framer bytes ≠ .undecided → framer (bytes ++ more) = framer bytes
  positive : ∀ bytes length, framer bytes = .frame length → 0 < length

/-- The complete frames at the start of a stream, and the bytes after them. -/
def split (framer : List β → Verdict) : Nat → List β → List (List β) × List β
  | 0, bytes => ([], bytes)
  | fuel + 1, bytes =>
    if bytes = [] then ([], bytes)
    else
      match framer bytes with
      | .frame length =>
        if length ≤ bytes.length then
          let later := split framer fuel (bytes.drop length)
          (bytes.take length :: later.1, later.2)
        else ([], bytes)
      | _ => ([], bytes)

def frames (framer : List β → Verdict) (bytes : List β) : List (List β) :=
  (split framer bytes.length bytes).1

/-- What the complete frames leave over. -/
def rest (framer : List β → Verdict) (bytes : List β) : List β :=
  (split framer bytes.length bytes).2

/-- The bytes start with a complete frame of this length. -/
def Starts (framer : List β → Verdict) (bytes : List β) (length : Nat) : Prop :=
  framer bytes = .frame length ∧ length ≤ bytes.length

variable {framer : List β → Verdict} {bytes more : List β} {length : Nat}

@[simp] theorem frames_nil : frames framer [] = [] := rfl

@[simp] theorem rest_nil : rest framer [] = [] := rfl

/-- Enough fuel is enough. -/
theorem split_eq (stable : Stable framer) {fuel : Nat} (enough : bytes.length ≤ fuel) :
    split framer fuel bytes = (frames framer bytes, rest framer bytes) := by
  suffices same : ∀ first second : Nat, ∀ bytes : List β, bytes.length ≤ first →
      bytes.length ≤ second → split framer first bytes = split framer second bytes from
    same fuel bytes.length bytes enough (Nat.le_refl _)
  intro first
  induction first with
  | zero =>
    intro second bytes short _
    have empty : bytes = [] := List.length_eq_zero_iff.mp (by omega)
    subst empty
    cases second <;> simp [split]
  | succ first ih =>
    intro second bytes firstEnough secondEnough
    cases second with
    | zero =>
      have empty : bytes = [] := List.length_eq_zero_iff.mp (by omega)
      subst empty
      simp [split]
    | succ second =>
      simp only [split]
      split
      · rfl
      · split
        case h_1 length decided =>
          split
          · have positive := stable.positive _ _ decided
            rw [ih second (bytes.drop length) (by rw [List.length_drop]; omega)
              (by rw [List.length_drop]; omega)]
          · rfl
        case h_2 => rfl

/-- A complete frame comes off the front. -/
theorem frames_of_starts (stable : Stable framer) (starts : Starts framer bytes length) :
    frames framer bytes = bytes.take length :: frames framer (bytes.drop length) ∧
      rest framer bytes = rest framer (bytes.drop length) := by
  obtain ⟨decided, complete⟩ := starts
  have positive := stable.positive _ _ decided
  obtain ⟨fuel, shape⟩ : ∃ fuel, bytes.length = fuel + 1 := ⟨bytes.length - 1, by omega⟩
  have nonempty : bytes ≠ [] := by
    rintro rfl
    simp at shape
  have later := split_eq stable
    (show (bytes.drop length).length ≤ fuel by rw [List.length_drop]; omega)
  have whole : split framer bytes.length bytes
      = (bytes.take length :: frames framer (bytes.drop length),
        rest framer (bytes.drop length)) := by
    rw [shape]
    simp only [split, if_neg nonempty, decided, if_pos complete, later]
  constructor
  · calc
      frames framer bytes = (split framer bytes.length bytes).1 := rfl
      _ = _ := by rw [whole]
  · calc
      rest framer bytes = (split framer bytes.length bytes).2 := rfl
      _ = _ := by rw [whole]

/-- Without a complete frame at the front there is none at all. -/
theorem frames_of_not_starts (never : ∀ length, ¬ Starts framer bytes length) :
    frames framer bytes = [] ∧ rest framer bytes = bytes := by
  have whole : split framer bytes.length bytes = ([], bytes) := by
    cases shape : bytes.length with
    | zero => rfl
    | succ fuel =>
      simp only [split]
      split
      · rfl
      · split
        case h_1 length decided =>
          rw [if_neg fun complete => never length ⟨decided, complete⟩]
        case h_2 => rfl
  exact ⟨congrArg Prod.fst whole, congrArg Prod.snd whole⟩

theorem Starts.append (stable : Stable framer) (starts : Starts framer bytes length)
    (more : List β) : Starts framer (bytes ++ more) length := by
  obtain ⟨decided, complete⟩ := starts
  constructor
  · rw [stable.stable bytes more (by simp [decided]), decided]
  · rw [List.length_append]
    omega

/-- The frames of a stream are those of its first part, and then those of what that part
leaves over with the bytes that follow. -/
theorem frames_append (stable : Stable framer) (bytes more : List β) :
    frames framer (bytes ++ more) = frames framer bytes ++ frames framer (rest framer bytes ++ more) ∧
      rest framer (bytes ++ more) = rest framer (rest framer bytes ++ more) := by
  induction size : bytes.length using Nat.strongRecOn generalizing bytes with
  | _ size ih =>
    by_cases starts : ∃ length, Starts framer bytes length
    · obtain ⟨length, starts⟩ := starts
      have positive := stable.positive _ _ starts.1
      have complete := starts.2
      obtain ⟨framesHere, restHere⟩ := frames_of_starts stable starts
      obtain ⟨framesAll, restAll⟩ := frames_of_starts stable (starts.append stable more)
      obtain ⟨framesLater, restLater⟩ := ih (bytes.drop length).length
        (by rw [List.length_drop]; omega) (bytes.drop length) rfl
      rw [List.take_append_of_le_length complete, List.drop_append_of_le_length complete]
        at framesAll
      rw [List.drop_append_of_le_length complete] at restAll
      rw [framesAll, framesLater, framesHere, restAll, restLater, restHere]
      exact ⟨rfl, rfl⟩
    · obtain ⟨none, all⟩ := frames_of_not_starts (not_exists.mp starts)
      rw [none, all]
      exact ⟨rfl, rfl⟩

/-- The frames and what they leave over are the stream. -/
theorem flatten_frames_append_rest (stable : Stable framer) (bytes : List β) :
    (frames framer bytes).flatten ++ rest framer bytes = bytes := by
  induction size : bytes.length using Nat.strongRecOn generalizing bytes with
  | _ size ih =>
    by_cases starts : ∃ length, Starts framer bytes length
    · obtain ⟨length, starts⟩ := starts
      have positive := stable.positive _ _ starts.1
      have complete := starts.2
      obtain ⟨framesHere, restHere⟩ := frames_of_starts stable starts
      rw [framesHere, restHere, List.flatten_cons, List.append_assoc,
        ih _ (by rw [List.length_drop]; omega) (bytes.drop length) rfl, List.take_append_drop]
    · obtain ⟨none, all⟩ := frames_of_not_starts (not_exists.mp starts)
      rw [none, all]
      rfl

/-- The frames of a part of a stream come first among those of the stream. -/
theorem frames_prefix (stable : Stable framer) (part : bytes <+: more) :
    frames framer bytes <+: frames framer more := by
  obtain ⟨later, rfl⟩ := part
  rw [(frames_append stable bytes later).1]
  exact List.prefix_append _ _

/-- A stream of whole frames is parsed into them. -/
theorem frames_flatten (stable : Stable framer) {packets : List (List β)}
    (whole : ∀ packet ∈ packets, Starts framer packet packet.length) :
    frames framer packets.flatten = packets := by
  induction packets with
  | nil => rfl
  | cons packet later ih =>
    obtain ⟨first, rest⟩ := List.forall_mem_cons.mp whole
    rw [List.flatten_cons, (frames_of_starts stable (first.append stable later.flatten)).1,
      List.take_left, List.drop_left, ih rest]

theorem rest_length_le (stable : Stable framer) (bytes : List β) :
    (rest framer bytes).length ≤ bytes.length := by
  have whole := congrArg List.length (flatten_frames_append_rest stable bytes)
  rw [List.length_append] at whole
  omega

/-- What is left over is the end of the stream. -/
theorem drop_eq_rest (stable : Stable framer) (bytes : List β) :
    bytes.drop (bytes.length - (rest framer bytes).length) = rest framer bytes := by
  have whole := flatten_frames_append_rest stable bytes
  have lengths := congrArg List.length whole
  rw [List.length_append] at lengths
  have front : bytes.length - (rest framer bytes).length = (frames framer bytes).flatten.length := by
    omega
  calc bytes.drop (bytes.length - (rest framer bytes).length)
      = ((frames framer bytes).flatten ++ rest framer bytes).drop
          (frames framer bytes).flatten.length := by rw [front, whole]
    _ = rest framer bytes := List.drop_left

section Callback

/-- The parse of a stream by a callback that answers 0 until it can decide, a negative
number for a broken stream, and otherwise the length of the first packet. -/
def parserOf (packetLength : List β → Int) (bytes : List β) : Verdict :=
  if packetLength bytes < 0 then .broken
  else if packetLength bytes = 0 then .undecided
  else .frame (packetLength bytes).toNat

/-- The callback answers 0 until it can decide, and then always the same. -/
def PrefixStable (packetLength : List β → Int) : Prop :=
  ∀ bytes more, packetLength bytes ≠ 0 → packetLength (bytes ++ more) = packetLength bytes

variable {packetLength : List β → Int}

theorem parserOf_stable (prefixStable : PrefixStable packetLength) :
    Stable (parserOf packetLength) where
  stable bytes more decided := by
    have nonzero : packetLength bytes ≠ 0 := by
      intro zero
      apply decided
      simp [parserOf, zero]
    simp [parserOf, prefixStable bytes more nonzero]
  positive bytes length verdict := by
    unfold parserOf at verdict
    split at verdict
    · cases verdict
    · split at verdict
      · cases verdict
      · cases verdict
        omega

theorem starts_parserOf (positive : 0 < packetLength bytes)
    (complete : packetLength bytes ≤ bytes.length) :
    Starts (parserOf packetLength) bytes (packetLength bytes).toNat := by
  constructor
  · unfold parserOf
    rw [if_neg (by omega), if_neg (by omega)]
  · omega

/-- Nothing starts where the callback breaks off, waits, or wants more than there is. -/
theorem not_starts_parserOf
    (waits : packetLength bytes ≤ 0 ∨ packetLength bytes > bytes.length) (length : Nat) :
    ¬ Starts (parserOf packetLength) bytes length := by
  rintro ⟨decided, complete⟩
  unfold parserOf at decided
  split at decided
  · cases decided
  · split at decided
    · cases decided
    · cases decided
      omega

/-- A callback that takes a stream for broken where it asks for more than a bound. -/
def limited (bound : Nat) (packetLength : List β → Int) (bytes : List β) : Int :=
  if (bound : Int) < packetLength bytes then -1 else packetLength bytes

theorem limited_prefixStable {bound : Nat} (prefixStable : PrefixStable packetLength) :
    PrefixStable (limited bound packetLength) := by
  intro bytes more decided
  have nonzero : packetLength bytes ≠ 0 := by
    intro zero
    apply decided
    unfold limited
    rw [if_neg (by omega)]
    exact zero
  unfold limited
  rw [prefixStable bytes more nonzero]

theorem starts_limited {bound : Nat}
    (starts : Starts (parserOf (limited bound packetLength)) bytes length) :
    Starts (parserOf packetLength) bytes length := by
  obtain ⟨decided, complete⟩ := starts
  refine ⟨?_, complete⟩
  unfold parserOf limited at decided
  by_cases above : (bound : Int) < packetLength bytes
  · simp [above] at decided
  · rw [if_neg above] at decided
    exact decided

/-- Frames that are left over incomplete in so many bytes do not need a greater bound. -/
theorem frames_limited {bound : Nat} (prefixStable : PrefixStable packetLength)
    (short : (rest (parserOf (limited bound packetLength)) bytes).length ≤ bound) :
    frames (parserOf (limited bound packetLength)) bytes =
      frames (parserOf packetLength) bytes := by
  have stable := parserOf_stable prefixStable
  have within : Stable (parserOf (limited bound packetLength)) :=
    parserOf_stable (limited_prefixStable prefixStable)
  induction size : bytes.length using Nat.strongRecOn generalizing bytes with
  | _ size ih =>
    by_cases starts : ∃ length, Starts (parserOf (limited bound packetLength)) bytes length
    · obtain ⟨length, starts⟩ := starts
      have positive := stable.positive _ _ (starts_limited starts).1
      have complete := starts.2
      obtain ⟨first, later⟩ := frames_of_starts within starts
      rw [first, (frames_of_starts stable (starts_limited starts)).1,
        ih _ (by rw [List.length_drop]; omega) (later ▸ short) rfl]
    · obtain ⟨none, all⟩ := frames_of_not_starts (not_exists.mp starts)
      rw [all] at short
      rw [none]
      symm
      refine (frames_of_not_starts ?_).1
      rintro length ⟨decided, complete⟩
      refine starts ⟨length, ?_, complete⟩
      have given : packetLength bytes = length := by
        unfold parserOf at decided
        split at decided
        · cases decided
        · split at decided
          · cases decided
          · cases decided
            omega
      have same : limited bound packetLength bytes = packetLength bytes :=
        if_neg (by omega)
      unfold parserOf at decided ⊢
      rw [same]
      exact decided

end Callback

end Taomee.Framing
