import Taomee.IniFile.Edits

/-!
# ini-file: the text read byte by byte

`parse_file` is a scanner with loops inside loops, and some of its steps may lead behind the NUL of
the text. `Reading` takes the text one byte at a time. It says how a text may end for the parser to
stay inside it, and what the parser then finds.
-/

namespace Taomee.IniFile

/-! ## The parser with its place -/

/-- `lineLoop`, with the `i` at which the loop is left. -/
def lineLoopAt (p : Int → UInt8) (key : List UInt8) : Nat → Nat → Option (Lines × Nat)
  | 0, _ => none
  | fuel + 1, i =>
    if newline (p (i - 1)) && leftBrace (p i) || endOfString (p i) then some (.ended i, i)
    else
      match scan (fun c => !newline c && !endOfString c) p steps i with
      | none => none
      | some lineEnd =>
        match lineEntry p key i lineEnd with
        | some entry => some (.found entry, lineEnd)
        | none => lineLoopAt p key fuel (lineEnd + 1)

/-- `parseLoop`, with the `i` at which `parse_file` returns. -/
def parseLoopAt (p : Int → UInt8) (sect key : List UInt8) :
    Nat → Nat → Option Span → Option (Parsed × Nat)
  | 0, _, _ => none
  | fuel + 1, i, found =>
    if endOfString (p i) then some (⟨found, none⟩, i)
    else if i = 0 || newline (p (i - 1)) then
      match scan isspace p steps i with
      | none => none
      | some i =>
        if leftBrace (p i) then
          match scan (fun c => !isRightBrace c && !endOfString c) p steps (i + 1) with
          | none => none
          | some brace =>
            if spanIs p (trimToken p (i + 1) (brace - 1)) sect then
              match scan isspace p steps (brace + 1) with
              | none => none
              | some body =>
                let found := some ⟨i + 1, body⟩
                match lineLoopAt p key steps body with
                | none => none
                | some (.found entry, stop) => some (⟨found, some entry⟩, stop)
                | some (.ended i, _) => parseLoopAt p sect key fuel i found
            else parseLoopAt p sect key fuel brace found
        else parseLoopAt p sect key fuel (i + 1) found
    else parseLoopAt p sect key fuel (i + 1) found

def parseFileAt (p : Int → UInt8) (sect key : List UInt8) : Option (Parsed × Nat) :=
  parseLoopAt p sect key steps 0 none

variable {p : Int → UInt8} {sect key text : List UInt8}

/-- Where the loop stops is extra to what it finds. -/
theorem lineLoopAt_fst (fuel i : Nat) :
    (lineLoopAt p key fuel i).map Prod.fst = lineLoop p key fuel i := by
  induction fuel generalizing i with
  | zero => rfl
  | succ fuel ih =>
    rw [lineLoopAt, lineLoop]
    split
    · rfl
    cases scan (fun c => !newline c && !endOfString c) p steps i with
    | none => rfl
    | some lineEnd =>
      dsimp only
      cases lineEntry p key i lineEnd with
      | none => exact ih (lineEnd + 1)
      | some entry => rfl

/-- Where the loop stops is extra to what it finds. -/
theorem parseLoopAt_fst (fuel i : Nat) (found : Option Span) :
    (parseLoopAt p sect key fuel i found).map Prod.fst = parseLoop p sect key fuel i found := by
  induction fuel generalizing i found with
  | zero => rfl
  | succ fuel ih =>
    rw [parseLoopAt, parseLoop]
    split
    · rfl
    split
    case isFalse => exact ih _ _
    cases scan isspace p steps i with
    | none => rfl
    | some i =>
      dsimp only
      split
      case isFalse => exact ih _ _
      cases scan (fun c => !isRightBrace c && !endOfString c) p steps (i + 1) with
      | none => rfl
      | some brace =>
        dsimp only
        split
        case isFalse => exact ih _ _
        cases scan isspace p steps (brace + 1) with
        | none => rfl
        | some body =>
          dsimp only
          rw [← lineLoopAt_fst]
          rcases lineLoopAt p key steps body with _ | ⟨_ | ended, stop⟩
          · rfl
          · rfl
          · exact ih _ _

/-- The parser with its place finds what the parser finds. -/
theorem parseFileAt_fst (p : Int → UInt8) (sect key : List UInt8) :
    (parseFileAt p sect key).map Prod.fst = parseFile p sect key := parseLoopAt_fst ..

/-! ## One byte at a time -/

/-- The bytes of a stretch that begins at `start`. -/
def cellsAt (start : Nat) (bytes : List UInt8) (x : Int) : UInt8 := bytes.getD (x - start).toNat 0

/-- The name between the braces of a header is the section's. -/
def nameIs (sect : List UInt8) (start : Nat) (name : List UInt8) : Bool :=
  let p := cellsAt start name
  spanIs p (trimToken p start (start + name.length - 1)) sect

/-- The key and the value in a line, if it has the key. -/
def entryOf (key : List UInt8) (start : Nat) (line : List UInt8) : Option Entry :=
  lineEntry (cellsAt start line) key start (start + line.length)

/-- Where the reading is: outside of the section at the start of a line, behind white space at the
start of a line, or elsewhere in it; in the name of a header; in the white space behind the header
of the section, which started at a place, and whether a line has just ended; in a line of the
section, with what was read of it; or behind the entry. -/
inductive Mode where
  | start
  | blank
  | mid
  | header (name : List UInt8)
  | behind (start : Nat) (broken : Bool)
  | line (bytes : List UInt8)
  | found (entry : Entry) (stop : Nat)
  deriving DecidableEq

structure Reading where
  index : Nat
  mode : Mode
  sec : Option Span
  deriving DecidableEq

namespace Reading

/-- The mode behind a byte; the section is entered at the first byte that is not white space. -/
def next (sect key : List UInt8) (r : Reading) (c : UInt8) : Reading :=
  let go (mode : Mode) : Reading := { r with index := r.index + 1, mode := mode }
  match r.mode with
  | .start | .blank =>
    go (if isspace c then .blank else if leftBrace c then .header [] else .mid)
  | .mid => go (if newline c then .start else .mid)
  | .header name =>
    let start := r.index - name.length
    go (if !isRightBrace c then .header (name ++ [c])
      else if nameIs sect start name then .behind start false else .mid)
  | .behind start broken =>
    if isspace c then go (.behind start (newline c))
    else
      { index := r.index + 1
        mode := if broken && leftBrace c then .header [] else .line [c]
        sec := some ⟨start, r.index⟩ }
  | .line bytes =>
    go (if newline c then
        match entryOf key (r.index - bytes.length) bytes with
        | some entry => .found entry r.index
        | none => .line []
      else if bytes = [] && leftBrace c then .header []
      else .line (bytes ++ [c]))
  | .found entry stop => go (.found entry stop)

/-- What the parser finds in a text that ends here, and where it stops. -/
def finish (key : List UInt8) (r : Reading) : Parsed × Nat :=
  match r.mode with
  | .behind start _ => (⟨some ⟨start, r.index⟩, none⟩, r.index)
  | .line bytes => (⟨r.sec, entryOf key (r.index - bytes.length) bytes⟩, r.index)
  | .found entry stop => (⟨r.sec, some entry⟩, stop)
  | _ => (⟨r.sec, none⟩, r.index)

/-- A text may end here: not in white space at the start of a line outside of the section, not in
a header with the name of the section, and not in a line of the section that lacks the key. -/
def Fine (sect key : List UInt8) (r : Reading) : Prop :=
  match r.mode with
  | .blank => False
  | .header name => nameIs sect (r.index - name.length) name = false
  | .line bytes => bytes = [] ∨ (entryOf key (r.index - bytes.length) bytes).isSome
  | _ => True

instance (sect key : List UInt8) (r : Reading) : Decidable (r.Fine sect key) := by
  unfold Fine
  split <;> infer_instance

end Reading

/-- The reading of a text from its first byte on. -/
def reading (sect key text : List UInt8) : Reading :=
  text.foldl (Reading.next sect key) ⟨0, .start, none⟩

/-! ## What the pieces look at -/

section Congr

variable {q : Int → UInt8} {s e n i lineEnd : Nat}

/-- Only the bytes looked at matter. -/
theorem trimStart_congr (same : ∀ x : Nat, s ≤ x → x < s + n → p x = q x) :
    trimStart p n s = trimStart q n s := by
  induction n generalizing s with
  | zero => rfl
  | succ n ih =>
    rw [trimStart, trimStart, same s (Nat.le_refl s) (by omega)]
    rw [ih fun x low high => same x (by omega) (by omega)]

/-- Only the bytes looked at matter. -/
theorem trimStop_congr (inside : n ≤ e) (same : ∀ x : Nat, e - n < x → x ≤ e → p x = q x) :
    trimStop p n e = trimStop q n e := by
  induction n generalizing e with
  | zero => rfl
  | succ n ih =>
    rw [trimStop, trimStop, same e (by omega) (Nat.le_refl e)]
    rw [ih (by omega) fun x low high => same x (by omega) (by omega)]

/-- Only the bytes of the span matter. -/
theorem trimToken_congr (same : ∀ x : Nat, s ≤ x → x ≤ e → p x = q x) :
    trimToken p s e = trimToken q s e := by
  have first : trimStart p (e - s) s = trimStart q (e - s) s :=
    trimStart_congr fun x low high => same x low (by omega)
  have bounds := trimStart_bounds q (e - s) s
  simp only [trimToken, first]
  congr 1
  exact trimStop_congr (Nat.sub_le _ _) fun x low high => same x (by omega) high

/-- Only as many bytes as the token has matter. -/
theorem sameBytes_congr {token : List UInt8}
    (same : ∀ x : Nat, s ≤ x → x < s + token.length → p x = q x) :
    sameBytes p s token = sameBytes q s token := by
  induction token generalizing s with
  | nil => rfl
  | cons c rest ih =>
    simp only [List.length_cons] at same
    rw [sameBytes, sameBytes, same s (Nat.le_refl s) (by omega)]
    rw [ih fun x low high => same x (by omega) (by omega)]

/-- A trimmed token lies between the two ends. -/
theorem trimToken_inside (p : Int → UInt8) (s e : Nat) :
    s ≤ (trimToken p s e).start ∧ (trimToken p s e).stop ≤ e :=
  ⟨(trimStart_bounds p (e - s) s).1, (trimStop_bounds p (e - trimStart p (e - s) s) e).2⟩

/-- Only the bytes of the span matter. -/
theorem spanIs_congr {token : List UInt8} (same : ∀ x : Nat, s ≤ x → x ≤ e → p x = q x) :
    spanIs p (trimToken p s e) token = spanIs q (trimToken q s e) token := by
  obtain ⟨low, high⟩ := trimToken_inside q s e
  rw [trimToken_congr same, spanIs, spanIs]
  by_cases whole : token.length = (trimToken q s e).length
  · rw [sameBytes_congr]
    intro x behind before
    simp only [Span.length] at whole
    exact same x (by omega) (by omega)
  · simp [whole]

/-- Only the equals signs in the line matter. -/
theorem findEquals_congr (same : ∀ x : Nat, i ≤ x → x ≤ i + n → (p x = equals ↔ q x = equals)) :
    findEquals p n i = findEquals q n i := by
  induction n generalizing i with
  | zero => rfl
  | succ n ih =>
    rw [findEquals, findEquals]
    simp only [same i (Nat.le_refl i) (by omega), same (i + 1) (by omega) (by omega)]
    rw [ih fun x low high => same x (by omega) (by omega)]

/-- Only the bytes of the line count. -/
theorem lineEntry_congr (same : ∀ x : Nat, i ≤ x → x < lineEnd → p x = q x)
    (ends : p lineEnd ≠ equals) (ends' : q lineEnd ≠ equals) :
    lineEntry p key i lineEnd = lineEntry q key i lineEnd := by
  unfold lineEntry
  by_cases empty : lineEnd ≤ i
  · have none_ : lineEnd - i = 0 := by omega
    simp only [none_, findEquals, ite_self]
  · have positions : findEquals p (lineEnd - i) i = findEquals q (lineEnd - i) i := by
      refine findEquals_congr fun x low high => ?_
      by_cases last : x = lineEnd
      · subst last
        exact iff_of_false ends ends'
      · rw [same x low (by omega)]
    rw [same i (Nat.le_refl i) (by omega), positions]
    split
    · rfl
    split
    · rfl
    case h_2 j found =>
      obtain ⟨behind, within, here⟩ := findEquals_spec found
      have keySame : ∀ x : Nat, i ≤ x → x ≤ j - 1 → p x = q x :=
        fun x low high => same x low (by omega)
      have valueSame : ∀ x : Nat, j + 1 ≤ x → x ≤ lineEnd - 1 → p x = q x :=
        fun x low high => same x (by omega) (by omega)
      simp only
      rw [spanIs_congr keySame, trimToken_congr keySame, trimToken_congr valueSame]

end Congr

/-! ## The text in memory -/

/-- A text and its NUL. -/
structure Holds (p : Int → UInt8) (text : List UInt8) : Prop where
  bytes : ∀ (k : Nat) (inside : k < text.length), p k = text[k]
  ends : p text.length = 0
  nonzero : 0 ∉ text

/-- The stretch of a text between two places. -/
def slice (text : List UInt8) (a b : Nat) : List UInt8 := (text.take b).drop a

section Stretch

variable {a b k : Nat} (holds : Holds p text)

@[simp] theorem slice_self (text : List UInt8) (a : Nat) : slice text a a = [] := by
  rw [slice, List.drop_eq_nil_iff, List.length_take]
  omega

/-- A slice inside of the text has the length of its range. -/
theorem length_slice (inside : b ≤ text.length) : (slice text a b).length = b - a := by
  rw [slice, List.length_drop, List.length_take, Nat.min_eq_left inside]

include holds

/-- One byte more at the end of a slice. -/
theorem Holds.slice_succ (forward : a ≤ b) (inside : b < text.length) :
    slice text a (b + 1) = slice text a b ++ [p b] := by
  have length : (text.take b).length = b := by
    rw [List.length_take]
    omega
  rw [slice, slice, holds.bytes b inside, ← List.take_append_getElem inside,
    List.drop_append_of_le_length (by omega)]

/-- The bytes of a stretch are those in memory. -/
theorem Holds.cellsAt_slice (inside : b ≤ text.length) (low : a ≤ k) (high : k < b) :
    cellsAt a (slice text a b) k = p k := by
  have index : ((k : Int) - a).toNat = k - a := by omega
  have place : k - a < (slice text a b).length := by
    rw [length_slice inside]
    omega
  rw [cellsAt, index, List.getD_eq_getElem _ _ place, holds.bytes k (by omega)]
  simp only [slice, List.getElem_drop, List.getElem_take]
  congr 1
  omega

/-- The text has no zero byte. -/
theorem Holds.byte_ne_zero (inside : k < text.length) : p k ≠ 0 := by
  rw [holds.bytes k inside]
  exact fun nul => holds.nonzero (nul ▸ List.getElem_mem _)

/-- The string ends where the text does. -/
theorem Holds.endOfString_eq (inside : k ≤ text.length) :
    endOfString (p k) = true ↔ k = text.length := by
  rw [endOfString, decide_eq_true_eq]
  constructor
  · intro nul
    by_contra before
    exact holds.byte_ne_zero (by omega) nul
  · rintro rfl
    exact holds.ends

end Stretch

/-- An empty line is no entry. -/
theorem entryOf_nil (key : List UInt8) (start : Nat) : entryOf key start [] = none := by
  simp [entryOf, lineEntry, findEquals]

theorem cellsAt_length (a : Nat) (bytes : List UInt8) :
    cellsAt a bytes (a + bytes.length : Nat) = 0 := by
  have index : ((a + bytes.length : Nat) - a : Int).toNat = bytes.length := by omega
  rw [cellsAt, index, List.getD_eq_default _ _ (Nat.le_refl _)]

/-! ## The parser and the reading -/

/-- A line break is a space. -/
theorem isspace_of_newline {c : UInt8} (broken : newline c = true) : isspace c = true := by
  simp only [newline, Bool.or_eq_true, decide_eq_true_eq] at broken
  rcases broken with rfl | rfl <;> rfl

/-- A brace does not break the line. -/
theorem not_newline_of_leftBrace {c : UInt8} (brace : leftBrace c = true) : newline c = false := by
  rw [leftBrace, decide_eq_true_eq] at brace
  subst brace
  rfl

/-- Every byte that a scan goes over passes its test. -/
theorem scan_goes {goes : UInt8 → Bool} {fuel i j k : Nat}
    (scanned : scan goes p fuel i = some j) (low : i ≤ k) (high : k < j) : goes (p k) = true := by
  induction fuel generalizing i with
  | zero => cases scanned
  | succ fuel ih =>
    rw [scan] at scanned
    split at scanned
    case isTrue here =>
      by_cases first : k = i
      · exact first ▸ here
      · exact ih scanned (by omega)
    case isFalse =>
      obtain rfl := Option.some.inj scanned
      omega

/-- The parser never goes back. -/
theorem lineLoopAt_forward {fuel i : Nat} {result : Lines × Nat}
    (left : lineLoopAt p key fuel i = some result) :
    i ≤ result.2 ∧ ∀ j, result.1 = .ended j → j = result.2 := by
  induction fuel generalizing i with
  | zero => cases left
  | succ fuel ih =>
    rw [lineLoopAt] at left
    split at left
    · obtain rfl := Option.some.inj left
      exact ⟨Nat.le_refl _, fun j same => (Lines.ended.inj same).symm⟩
    split at left
    · cases left
    case h_2 lineEnd scanned =>
      have forward := (scan_stops scanned).1
      split at left
      · obtain rfl := Option.some.inj left
        exact ⟨forward, nofun⟩
      · obtain ⟨behind, ended⟩ := ih left
        exact ⟨by omega, ended⟩

/-- The loop goes forward only. -/
theorem parseLoopAt_forward {fuel i : Nat} {found : Option Span} {result : Parsed × Nat}
    (done : parseLoopAt p sect key fuel i found = some result) : i ≤ result.2 := by
  induction fuel generalizing i found with
  | zero => cases done
  | succ fuel ih =>
    rw [parseLoopAt] at done
    split at done
    · obtain rfl := Option.some.inj done
      exact Nat.le_refl _
    split at done
    case isFalse =>
      have behind := ih done
      omega
    split at done
    · cases done
    case h_2 first skipped =>
      have blank := (scan_stops skipped).1
      split at done
      case isFalse =>
        have behind := ih done
        omega
      split at done
      · cases done
      case h_2 brace named =>
        have header := (scan_stops named).1
        split at done
        case isFalse =>
          have behind := ih done
          omega
        split at done
        · cases done
        case h_2 body space =>
          have white := (scan_stops space).1
          split at done
          · cases done
          case h_2 entry stop lines =>
            have behind := (lineLoopAt_forward lines).1
            obtain rfl := Option.some.inj done
            omega
          case h_3 ended stop lines =>
            obtain ⟨behind, same⟩ := lineLoopAt_forward lines
            have there := same _ rfl
            have last := ih done
            omega

/-- A scan in the text goes on to a byte in it or to its NUL. -/
theorem Holds.scan_inside (holds : Holds p text) (fits : text.length < MAX_FILE_BUF_SIZE)
    (goes : UInt8 → Bool) (nul : goes 0 = false) {i : Nat} (inside : i ≤ text.length) :
    ∃ j, scan goes p steps i = some j ∧ i ≤ j ∧ j ≤ text.length ∧ goes (p j) = false := by
  have last : goes (p text.length) = false := by
    rw [holds.ends]
    exact nul
  obtain ⟨j, before, scanned⟩ := scan_finds last inside
    (show text.length < i + steps by simp only [steps]; omega)
  obtain ⟨forward, stops⟩ := scan_stops scanned
  exact ⟨j, scanned, forward, before, stops⟩

/-- The reading of the first bytes. -/
def upTo (sect key text : List UInt8) (k : Nat) : Reading := reading sect key (text.take k)

section Simulation

variable (holds : Holds p text) (fits : text.length < MAX_FILE_BUF_SIZE)
include holds

/-- The reading goes one byte further. -/
theorem Holds.upTo_succ (sect key : List UInt8) {k : Nat} (inside : k < text.length) :
    upTo sect key text (k + 1) = (upTo sect key text k).next sect key (p k) := by
  rw [upTo, upTo, reading, reading, List.take_succ_eq_append_getElem inside, List.foldl_append,
    holds.bytes k inside]
  rfl

/-- A stretch is read byte by byte. -/
theorem Holds.upTo_stretch {i j : Nat} (at_ : Nat → Reading) (forward : i ≤ j)
    (inside : j ≤ text.length) (start : upTo sect key text i = at_ i)
    (step : ∀ k, i ≤ k → k < j → (at_ k).next sect key (p k) = at_ (k + 1)) :
    upTo sect key text j = at_ j := by
  have all : ∀ k, i ≤ k → k ≤ j → upTo sect key text k = at_ k := by
    intro k low
    induction k, low using Nat.le_induction with
    | base => exact fun _ => start
    | succ k low ih =>
      intro high
      rw [holds.upTo_succ sect key (by omega), ih (by omega)]
      exact step k low (by omega)
  exact all j forward (Nat.le_refl j)

/-- What the parser is to answer: what the reading finds where the text may end, and otherwise
something that it found behind the NUL, if it comes back at all. -/
structure Agrees (sect key text : List UInt8) (answer : Option (Parsed × Nat)) : Prop where
  fine : (reading sect key text).Fine sect key →
    answer = some ((reading sect key text).finish key) ∧
      ((reading sect key text).finish key).2 ≤ text.length
  astray : ¬ (reading sect key text).Fine sect key →
    ∀ result, answer = some result → text.length < result.2

/-- Places of the outer loop. -/
inductive Ready (p : Int → UInt8) (sect key text : List UInt8) (i : Nat) (sec : Option Span) :
    Prop where
  | start (inside : i ≤ text.length) (place : upTo sect key text i = ⟨i, .start, sec⟩)
      (first : i = 0 ∨ newline (p (i - 1)) = true)
  | mid (inside : i ≤ text.length) (place : upTo sect key text i = ⟨i, .mid, sec⟩)
      (within : i ≠ 0) (unbroken : newline (p (i - 1)) = false)
  | brace (inside : i < text.length) (byte : isRightBrace (p i) = true)
      (place : upTo sect key text (i + 1) = ⟨i + 1, .mid, sec⟩)
  | bracket (inside : i < text.length) (byte : leftBrace (p i) = true)
      (broken : newline (p (i - 1)) = true)
      (place : upTo sect key text (i + 1) = ⟨i + 1, .header [], sec⟩)
  | ended (past : i = text.length) (fine : (reading sect key text).Fine sect key)
      (last : (reading sect key text).finish key = (⟨sec, none⟩, i))

/-- Places of the inner loop. -/
inductive LineStart (p : Int → UInt8) (sect key text : List UInt8) (i : Nat) (sec : Option Span) :
    Prop where
  | body (start : Nat) (broken : Bool) (before : Option Span)
      (place : upTo sect key text i = ⟨i, .behind start broken, before⟩)
      (last : newline (p (i - 1)) = broken) (solid : isspace (p i) = false)
      (here : sec = some ⟨start, i⟩)
  | line (place : upTo sect key text i = ⟨i, .line [], sec⟩)
      (broken : newline (p (i - 1)) = true)

omit holds in
/-- Up to its end the text is read as a whole. -/
theorem upTo_length (sect key : List UInt8) :
    upTo sect key text text.length = reading sect key text := by
  rw [upTo, List.take_length]

/-- Where the first byte of a line leads. -/
theorem LineStart.next {i : Nat} {sec : Option Span} (at_ : LineStart p sect key text i sec)
    (inside : i < text.length) :
    upTo sect key text (i + 1) =
      if newline (p (i - 1)) && leftBrace (p i) then ⟨i + 1, .header [], sec⟩
      else if newline (p i) then ⟨i + 1, .line [], sec⟩
      else ⟨i + 1, .line [p i], sec⟩ := by
  rw [holds.upTo_succ sect key inside]
  cases at_ with
  | body start broken before place last solid here =>
    have unbroken : newline (p i) = false := by
      by_contra broken
      rw [isspace_of_newline (Bool.eq_true_of_not_eq_false broken)] at solid
      cases solid
    rw [place, last]
    simp only [Reading.next, solid, unbroken, here, Bool.false_eq_true, if_false]
    split <;> rfl
  | line place broken =>
    rw [place, broken]
    simp only [Reading.next, entryOf_nil]
    by_cases brace : leftBrace (p i) = true
    · simp [brace, not_newline_of_leftBrace brace]
    · simp only [brace]
      split <;> rfl

/-- A line of the section from its first byte to a place behind it. -/
structure LineTo (p : Int → UInt8) (sect key text : List UInt8) (i k : Nat) (sec : Option Span) :
    Prop where
  at_ : LineStart p sect key text i sec
  within : (newline (p (i - 1)) && leftBrace (p i)) = false
  before : i < k
  inside : k ≤ text.length
  unbroken : ∀ x : Nat, i ≤ x → x < k → newline (p x) = false

/-- Inside of a line the reading keeps the line so far. -/
theorem LineTo.place {i k : Nat} {sec : Option Span} (line : LineTo p sect key text i k sec) :
    upTo sect key text k = ⟨k, .line (slice text i k), sec⟩ := by
  obtain ⟨at_, within, before, inside, unbroken⟩ := line
  have next := at_.next holds (by omega)
  rw [within, unbroken i (Nat.le_refl i) before] at next
  refine holds.upTo_stretch (fun k => ⟨k, .line (slice text i k), sec⟩) before inside ?_ ?_
  · rw [next, holds.slice_succ (Nat.le_refl i) (by omega), slice_self]
    rfl
  · intro x low high
    have some_ : slice text i x ≠ [] := by
      refine List.ne_nil_of_length_pos ?_
      rw [length_slice (by omega)]
      omega
    simp only [Reading.next, unbroken x (by omega) high, some_, decide_false, Bool.false_and,
      Bool.false_eq_true, if_false]
    rw [holds.slice_succ (by omega) (by omega)]

omit holds in
/-- The line so far begins where the line does. -/
theorem LineTo.index {i k : Nat} {sec : Option Span} (line : LineTo p sect key text i k sec) :
    k - (slice text i k).length = i := by
  have before := line.before
  rw [length_slice line.inside]
  omega

/-- A line is an entry to the reading exactly as to the loop. -/
theorem Holds.entryOf_slice {i lineEnd : Nat} (forward : i ≤ lineEnd)
    (inside : lineEnd ≤ text.length) (ends : p lineEnd ≠ equals) :
    entryOf key i (slice text i lineEnd) = lineEntry p key i lineEnd := by
  have length : i + (slice text i lineEnd).length = lineEnd := by
    rw [length_slice inside]
    omega
  rw [entryOf, length]
  refine lineEntry_congr (fun x low high => holds.cellsAt_slice inside low high) ?_ ends
  have nul := cellsAt_length i (slice text i lineEnd)
  rw [length] at nul
  rw [nul]
  decide

/-- The name of a header is read up to its brace. -/
theorem Holds.header_name {i k : Nat} {sec : Option Span}
    (place : upTo sect key text i = ⟨i, .header [], sec⟩) (forward : i ≤ k)
    (inside : k ≤ text.length) (open_ : ∀ x : Nat, i ≤ x → x < k → isRightBrace (p x) = false) :
    upTo sect key text k = ⟨k, .header (slice text i k), sec⟩ := by
  refine holds.upTo_stretch (fun k => ⟨k, .header (slice text i k), sec⟩) forward inside ?_
    fun x low high => ?_
  · rw [place, slice_self]
  · simp only [Reading.next, open_ x low high, Bool.not_false, if_true]
    rw [holds.slice_succ low (by omega)]

/-- The name of a section is compared as the loop compares it. -/
theorem Holds.nameIs_slice {i k : Nat} (positive : 0 < i) (forward : i ≤ k)
    (inside : k ≤ text.length) :
    nameIs sect i (slice text i k) = spanIs p (trimToken p i (k - 1)) sect := by
  have length : i + (slice text i k).length - 1 = k - 1 := by
    rw [length_slice inside]
    omega
  rw [nameIs, length]
  exact spanIs_congr fun x low high => holds.cellsAt_slice inside low (by omega)

/-- Behind the entry nothing changes any more. -/
theorem Holds.reading_found {i stop : Nat} {sec : Option Span} {entry : Entry}
    (inside : i ≤ text.length) (found : upTo sect key text i = ⟨i, .found entry stop, sec⟩) :
    reading sect key text = ⟨text.length, .found entry stop, sec⟩ := by
  rw [← upTo_length]
  exact holds.upTo_stretch (fun k => ⟨k, .found entry stop, sec⟩) inside (Nat.le_refl _) found
    fun _ _ _ => rfl

/-- A line of the section that has the key. -/
structure EntryAt (p : Int → UInt8) (sect key text : List UInt8) (i stop : Nat)
    (sec : Option Span) (entry : Entry) : Prop extends LineTo p sect key text i stop sec where
  ends : newline (p stop) = true ∨ stop = text.length
  line : lineEntry p key i stop = some entry

/-- At the stop the line is the entry. -/
theorem EntryAt.entryOf_eq {i stop : Nat} {sec : Option Span} {entry : Entry}
    (at_ : EntryAt p sect key text i stop sec entry) :
    entryOf key i (slice text i stop) = some entry := by
  rw [← at_.line]
  refine holds.entryOf_slice at_.before.le at_.inside ?_
  rcases at_.ends with broken | past
  · intro same
    rw [same] at broken
    cases broken
  · rw [past, holds.ends]
    decide

/-- The parser stops at the end of the line with the entry. -/
theorem EntryAt.reads {i stop : Nat} {sec : Option Span} {entry : Entry}
    (at_ : EntryAt p sect key text i stop sec entry) :
    (reading sect key text).Fine sect key ∧
      (reading sect key text).finish key = (⟨sec, some entry⟩, stop) := by
  have place := at_.toLineTo.place holds
  have index := at_.toLineTo.index
  have entryOf_eq := at_.entryOf_eq holds
  by_cases past : stop = text.length
  · rw [past, upTo_length] at place
    rw [past] at index entryOf_eq
    simp [Reading.Fine, Reading.finish, place, index, entryOf_eq, past]
  · have room : stop < text.length := Nat.lt_of_le_of_ne at_.inside past
    have broken := at_.ends.resolve_right past
    have next := holds.upTo_succ sect key room
    rw [place] at next
    simp only [Reading.next, broken, index, entryOf_eq] at next
    simp only [Reading.Fine, Reading.finish, holds.reading_found room next, and_self]

omit holds in
/-- A line with an entry is not empty. -/
theorem lt_of_lineEntry {i lineEnd : Nat} {entry : Entry}
    (line : lineEntry p key i lineEnd = some entry) : i < lineEnd := by
  by_contra behind
  have none_ : lineEnd - i = 0 := by omega
  simp [lineEntry, none_, findEquals] at line

include fits

/-- The lines of the section: the next header or the end of the text, the entry, or a last line
that leads behind the NUL. -/
theorem Holds.lineLoopAt_reads {fuel i : Nat} {sec : Option Span}
    (at_ : LineStart p sect key text i sec) (inside : i ≤ text.length)
    (enough : text.length < i + fuel) :
    (∃ j, lineLoopAt p key fuel i = some (.ended j, j) ∧ i ≤ j ∧ Ready p sect key text j sec) ∨
    (∃ entry stop, lineLoopAt p key fuel i = some (.found entry, stop) ∧ stop ≤ text.length ∧
      (reading sect key text).Fine sect key ∧
      (reading sect key text).finish key = (⟨sec, some entry⟩, stop)) ∨
    (¬ (reading sect key text).Fine sect key ∧
      ∀ result, lineLoopAt p key fuel i = some result → text.length < result.2) := by
  induction fuel generalizing i with
  | zero => omega
  | succ fuel ih =>
    rw [lineLoopAt]
    by_cases past : i = text.length
    · subst past
      left
      refine ⟨text.length, by simp [(holds.endOfString_eq (Nat.le_refl _)).mpr rfl],
        Nat.le_refl _, .ended rfl ?_ ?_⟩ <;> rw [← upTo_length]
      · cases at_ with
        | body _ _ _ place _ _ _ => simp only [Reading.Fine, place]
        | line place _ => simp [Reading.Fine, place]
      · cases at_ with
        | body _ _ _ place _ _ here => simp only [Reading.finish, place, here]
        | line place _ => simp only [Reading.finish, place, entryOf_nil]
    have before : i < text.length := by omega
    have still : endOfString (p i) = false :=
      Bool.eq_false_iff.mpr (mt (holds.endOfString_eq inside).mp past)
    rw [still, Bool.or_false]
    split
    case isTrue header =>
      have next := at_.next holds before
      rw [if_pos header] at next
      simp only [Bool.and_eq_true] at header
      exact .inl ⟨i, rfl, Nat.le_refl i, .bracket before header.2 header.1 next⟩
    case isFalse within =>
      obtain ⟨lineEnd, scanned, forward, last, stops⟩ :=
        holds.scan_inside fits (fun c => !newline c && !endOfString c) rfl inside
      have ends : newline (p lineEnd) = true ∨ lineEnd = text.length := by
        rw [← holds.endOfString_eq last]
        simpa [or_iff_not_imp_left] using stops
      have unbroken (x : Nat) (low : i ≤ x) (high : x < lineEnd) : newline (p x) = false := by
        have goes := scan_goes scanned low high
        simp only [Bool.and_eq_true, Bool.not_eq_true'] at goes
        exact goes.1
      have toEnd (before : i < lineEnd) : LineTo p sect key text i lineEnd sec :=
        ⟨at_, Bool.eq_false_iff.mpr within, before, last, unbroken⟩
      rw [scanned]
      dsimp only
      cases line : lineEntry p key i lineEnd with
      | some entry =>
        have found : EntryAt p sect key text i lineEnd sec entry :=
          { toEnd (lt_of_lineEntry line) with ends, line }
        obtain ⟨fine, finish⟩ := found.reads holds
        exact .inr (.inl ⟨entry, lineEnd, rfl, last, fine, finish⟩)
      | none =>
        have entryOf_eq (noEquals : p lineEnd ≠ equals) :
            entryOf key i (slice text i lineEnd) = none :=
          (holds.entryOf_slice forward last noEquals).trans line
        by_cases final : lineEnd = text.length
        · subst final
          have place := (toEnd before).place holds
          have some_ : slice text i text.length ≠ [] := by
            refine List.ne_nil_of_length_pos ?_
            rw [length_slice last]
            omega
          refine .inr (.inr ⟨?_, fun result left => ?_⟩)
          · rw [upTo_length] at place
            have none_ := entryOf_eq (by rw [holds.ends]; decide)
            simp [Reading.Fine, place, (toEnd before).index, none_, some_]
          · have behind := (lineLoopAt_forward left).1
            omega
        · have room : lineEnd < text.length := by omega
          have broken := ends.resolve_right final
          have next : upTo sect key text (lineEnd + 1) = ⟨lineEnd + 1, .line [], sec⟩ := by
            by_cases empty : i = lineEnd
            · have first := at_.next holds before
              rw [if_neg within, empty, if_pos broken] at first
              exact first
            · have line' := toEnd (by omega)
              have none_ := entryOf_eq fun same => by rw [same] at broken; cases broken
              rw [holds.upTo_succ sect key room, line'.place holds]
              simp only [Reading.next, broken, if_true, line'.index, none_]
          have again : LineStart p sect key text (lineEnd + 1) sec := by
            refine .line next ?_
            have back : ((lineEnd + 1 : Nat) - 1 : Int) = lineEnd := by omega
            rw [back]
            exact broken
          rcases ih again room (by omega) with ⟨j, ended, further, ready⟩ | found | astray
          · exact .inl ⟨j, ended, by omega, ready⟩
          · exact .inr (.inl found)
          · exact .inr (.inr astray)

/-- The lines behind the header of the section, and what comes after them. -/
theorem Holds.section_reads {fuel start brace : Nat} {sec : Option Span}
    (again : ∀ {i sec}, Ready p sect key text i sec → text.length < i + fuel →
      Agrees sect key text (parseLoopAt p sect key fuel i sec))
    (inside : brace < text.length) (enough : text.length ≤ brace + fuel)
    (byte : isRightBrace (p brace) = true)
    (place : upTo sect key text (brace + 1) = ⟨brace + 1, .behind start false, sec⟩) :
    Agrees sect key text
      (match scan isspace p steps (brace + 1) with
      | none => none
      | some body =>
        let found := some ⟨start, body⟩
        match lineLoopAt p key steps body with
        | none => none
        | some (.found entry, stop) => some (⟨found, some entry⟩, stop)
        | some (.ended i, _) => parseLoopAt p sect key fuel i found) := by
  obtain ⟨body, scanned, forward, last, solid⟩ :=
    holds.scan_inside fits isspace rfl (show brace + 1 ≤ text.length from inside)
  have back (k : Nat) : ((k + 1 : Nat) - 1 : Int) = k := by omega
  have unbroken : newline (p brace) = false := by
    rw [isRightBrace, decide_eq_true_eq] at byte
    rw [byte]
    rfl
  have white : upTo sect key text body = ⟨body, .behind start (newline (p (body - 1))), sec⟩ := by
    refine holds.upTo_stretch (fun k : Nat => ⟨k, .behind start (newline (p (k - 1))), sec⟩)
      forward last ?_ fun k low high => ?_
    · rw [place, back, unbroken]
    · simp only [Reading.next, scan_goes scanned low high, if_true, back]
  have at_ : LineStart p sect key text body (some ⟨start, body⟩) :=
    .body start _ sec white rfl solid rfl
  have lines := @Holds.lineLoopAt_reads p sect key text holds fits steps body _ at_ last
    (by simp only [steps]; omega)
  rw [scanned]
  dsimp only
  rcases lines with ⟨j, ended, behind, ready⟩ | ⟨entry, stop, found, before, fine, finish⟩ |
    ⟨stray, behind⟩
  · rw [ended]
    exact again ready (by omega)
  · rw [found]
    refine ⟨fun _ => ⟨congrArg some finish.symm, by rw [finish]; exact before⟩, fun stray => ?_⟩
    exact absurd fine stray
  · refine ⟨fun fine => absurd fine stray, fun _ result done => ?_⟩
    split at done
    · cases done
    case h_2 entry stop left =>
      obtain rfl := Option.some.inj done
      exact behind _ left
    case h_3 j stop left =>
      have far := behind _ left
      have there := (lineLoopAt_forward left).2 j rfl
      have later := parseLoopAt_forward done
      omega

/-- A header that starts at `j`. -/
theorem Holds.header_reads {fuel j : Nat} {sec : Option Span}
    (again : ∀ {i sec}, Ready p sect key text i sec → text.length < i + fuel →
      Agrees sect key text (parseLoopAt p sect key fuel i sec))
    (inside : j < text.length) (enough : text.length ≤ j + fuel)
    (place : upTo sect key text (j + 1) = ⟨j + 1, .header [], sec⟩) :
    Agrees sect key text
      (match scan (fun c => !isRightBrace c && !endOfString c) p steps (j + 1) with
      | none => none
      | some brace =>
        if spanIs p (trimToken p (j + 1) (brace - 1)) sect then
          match scan isspace p steps (brace + 1) with
          | none => none
          | some body =>
            let found := some ⟨j + 1, body⟩
            match lineLoopAt p key steps body with
            | none => none
            | some (.found entry, stop) => some (⟨found, some entry⟩, stop)
            | some (.ended i, _) => parseLoopAt p sect key fuel i found
        else parseLoopAt p sect key fuel brace sec) := by
  obtain ⟨brace, scanned, forward, last, ends⟩ :=
    holds.scan_inside fits (fun c => !isRightBrace c && !endOfString c) rfl
      (show j + 1 ≤ text.length from inside)
  have name := holds.header_name place forward last fun x low high => by
    have goes := scan_goes scanned low high
    simp only [Bool.and_eq_true, Bool.not_eq_true'] at goes
    exact goes.1
  have index : brace - (slice text (j + 1) brace).length = j + 1 := by
    rw [length_slice last]
    omega
  have same : nameIs sect (j + 1) (slice text (j + 1) brace) =
      spanIs p (trimToken p (j + 1) (brace - 1)) sect :=
    holds.nameIs_slice (Nat.succ_pos j) forward last
  rw [scanned]
  dsimp only
  by_cases past : brace = text.length
  · subst past
    rw [upTo_length] at name
    split
    case isTrue is =>
      refine ⟨fun fine => ?_, fun _ result done => ?_⟩
      · rw [Reading.Fine, name] at fine
        dsimp only at fine
        rw [index, same, is] at fine
        cases fine
      · split at done
        · cases done
        case h_2 body white =>
          have behind := (scan_stops white).1
          split at done
          · cases done
          case h_2 entry stop left =>
            have further := (lineLoopAt_forward left).1
            obtain rfl := Option.some.inj done
            omega
          case h_3 k stop left =>
            obtain ⟨further, there⟩ := lineLoopAt_forward left
            have here := there k rfl
            have later := parseLoopAt_forward done
            omega
    case isFalse other =>
      refine again (.ended rfl ?_ ?_) (by omega)
      · rw [Reading.Fine, name]
        dsimp only
        rw [index, same]
        exact Bool.eq_false_iff.mpr other
      · rw [Reading.finish, name]
  · have before : brace < text.length := by omega
    have byte : isRightBrace (p brace) = true := by
      have some_ := holds.byte_ne_zero before
      simpa [endOfString, some_] using ends
    have next := holds.upTo_succ sect key before
    rw [name] at next
    simp only [Reading.next, byte, index, same] at next
    split
    case isTrue is =>
      rw [if_pos is] at next
      exact holds.section_reads fits again before (by omega) byte next
    case isFalse other =>
      rw [if_neg other] at next
      exact again (.brace before byte next) (by omega)

omit holds fits in
/-- A scan stops where its test fails. -/
theorem scan_self {goes : UInt8 → Bool} {i : Nat} (stops : goes (p i) = false) :
    scan goes p steps i = some i := by
  simp [steps, scan, stops]

/-- The outer loop at the start of a line, with what is left of its turn. -/
theorem Holds.lineStart_reads {fuel i : Nat} {sec : Option Span}
    (again : ∀ {i sec}, Ready p sect key text i sec → text.length < i + fuel →
      Agrees sect key text (parseLoopAt p sect key fuel i sec))
    (inside : i < text.length) (enough : text.length ≤ i + fuel)
    (place : upTo sect key text i = ⟨i, .start, sec⟩) :
    Agrees sect key text
      (match scan isspace p steps i with
      | none => none
      | some i =>
        if leftBrace (p i) then
          match scan (fun c => !isRightBrace c && !endOfString c) p steps (i + 1) with
          | none => none
          | some brace =>
            if spanIs p (trimToken p (i + 1) (brace - 1)) sect then
              match scan isspace p steps (brace + 1) with
              | none => none
              | some body =>
                let found := some ⟨i + 1, body⟩
                match lineLoopAt p key steps body with
                | none => none
                | some (.found entry, stop) => some (⟨found, some entry⟩, stop)
                | some (.ended i, _) => parseLoopAt p sect key fuel i found
            else parseLoopAt p sect key fuel brace sec
        else parseLoopAt p sect key fuel (i + 1) sec) := by
  obtain ⟨j, scanned, forward, last, solid⟩ := holds.scan_inside fits isspace rfl inside.le
  have white : upTo sect key text j = ⟨j, if j = i then .start else .blank, sec⟩ := by
    refine holds.upTo_stretch (fun k => ⟨k, if k = i then .start else .blank, sec⟩) forward last ?_
      fun k low high => ?_
    · rw [place, if_pos rfl]
    · have space := scan_goes scanned low high
      rw [if_neg (show k + 1 ≠ i by omega)]
      by_cases first : k = i
      · simp only [Reading.next, first, if_true]
        rw [first] at space
        rw [if_pos space]
      · simp only [Reading.next, first, if_false, space, if_true]
  have mode : (upTo sect key text j).mode = .start ∨ (upTo sect key text j).mode = .blank := by
    rw [white]
    by_cases first : j = i <;> simp [first]
  rw [scanned]
  dsimp only
  by_cases past : j = text.length
  · subst past
    have noBrace : leftBrace (p text.length) = false := by
      rw [holds.ends]
      rfl
    rw [if_neg (show text.length ≠ i by omega), upTo_length] at white
    rw [noBrace]
    refine ⟨fun fine => ?_, fun _ result done => ?_⟩
    · rw [Reading.Fine, white] at fine
      exact fine.elim
    · have behind := parseLoopAt_forward done
      omega
  · have before : j < text.length := by omega
    have next := holds.upTo_succ sect key before
    have step : (upTo sect key text j).next sect key (p j) =
        ⟨j + 1, if leftBrace (p j) then .header [] else .mid, sec⟩ := by
      rcases mode with start | blank
      · simp only [Reading.next, start, solid, Bool.false_eq_true, if_false]
        rw [white]
      · simp only [Reading.next, blank, solid, Bool.false_eq_true, if_false]
        rw [white]
    rw [step] at next
    split
    case isTrue header =>
      rw [if_pos header] at next
      exact holds.header_reads fits again before (by omega) next
    case isFalse other =>
      rw [if_neg other] at next
      refine again (.mid before next (by omega) ?_) (by omega)
      have back : ((j + 1 : Nat) - 1 : Int) = j := by omega
      rw [back]
      by_contra broken
      rw [isspace_of_newline (Bool.eq_true_of_not_eq_false broken)] at solid
      cases solid

/-- By induction over the steps left: the loop finds what the reading says. -/
theorem Holds.parseLoopAt_reads {fuel i : Nat} {sec : Option Span}
    (ready : Ready p sect key text i sec) (enough : text.length < i + fuel) :
    Agrees sect key text (parseLoopAt p sect key fuel i sec) := by
  induction fuel generalizing i sec with
  | zero =>
    cases ready <;> omega
  | succ fuel ih =>
    have back : ((i + 1 : Nat) - 1 : Int) = i := by omega
    rw [parseLoopAt]
    by_cases past : i = text.length
    · subst past
      have nul : endOfString (p text.length) = true :=
        (holds.endOfString_eq (Nat.le_refl _)).mpr rfl
      have last : (reading sect key text).Fine sect key ∧
          (reading sect key text).finish key = (⟨sec, none⟩, text.length) := by
        cases ready with
        | start _ place _ =>
          rw [upTo_length] at place
          simp [Reading.Fine, Reading.finish, place]
        | mid _ place _ _ =>
          rw [upTo_length] at place
          simp [Reading.Fine, Reading.finish, place]
        | brace inside _ _ => exact absurd inside (Nat.lt_irrefl _)
        | bracket inside _ _ _ => exact absurd inside (Nat.lt_irrefl _)
        | ended _ fine last => exact ⟨fine, last⟩
      rw [if_pos nul]
      exact ⟨fun _ => ⟨congrArg some last.2.symm, by rw [last.2]⟩, fun stray => absurd last.1 stray⟩
    have inside : i < text.length := by cases ready <;> omega
    have still : endOfString (p i) = false :=
      Bool.eq_false_iff.mpr (mt (holds.endOfString_eq inside.le).mp past)
    rw [still]
    simp only [Bool.false_eq_true, if_false]
    cases ready with
    | start _ place first =>
      rw [if_pos (by simpa using first)]
      exact holds.lineStart_reads fits ih inside (by omega) place
    | mid _ place within unbroken =>
      have next := holds.upTo_succ sect key inside
      simp only [place, Reading.next] at next
      rw [if_neg (by simp [within, unbroken])]
      refine ih ?_ (by omega)
      by_cases broken : newline (p i) = true
      · rw [if_pos broken] at next
        exact .start inside next (.inr (by rw [back, broken]))
      · rw [if_neg broken] at next
        exact .mid inside next (by omega) (by rw [back]; exact Bool.eq_false_iff.mpr broken)
    | brace _ byte place =>
      rw [isRightBrace, decide_eq_true_eq] at byte
      have ready : Ready p sect key text (i + 1) sec :=
        .mid inside place (by omega) (by rw [back, byte]; rfl)
      have onward := ih ready (by omega)
      split
      · rw [scan_self (by rw [byte]; rfl)]
        simpa [leftBrace, byte] using onward
      · exact onward
    | bracket _ byte broken place =>
      have solid : isspace (p i) = false := by
        rw [leftBrace, decide_eq_true_eq] at byte
        rw [byte]
        rfl
      rw [if_pos (by simp [broken]), scan_self solid]
      simp only [byte]
      exact holds.header_reads fits ih inside (by omega) place
    | ended last _ _ => exact absurd last past

/-- The parser does what the reading says. -/
theorem Holds.parseFileAt_reads (sect key : List UInt8) :
    Agrees sect key text (parseFileAt p sect key) := by
  refine holds.parseLoopAt_reads fits (.start (Nat.zero_le _) ?_ (.inl rfl)) ?_
  · rfl
  · simp only [steps]
    omega

end Simulation

/-! ## Texts that the parser stays in -/

/-- In every memory that holds the text up to its NUL, the parser finds the same and stops at the
NUL or before it. -/
def StaysInside (sect key text : List UInt8) : Prop :=
  ∃ parsed, ∃ stop ≤ text.length, ∀ p, Holds p text →
    parseFile p sect key = some parsed ∧ parseFileAt p sect key = some (parsed, stop)

/-- A text at the start of memory, and zeros. -/
theorem holds_cellsAt (nonzero : 0 ∉ text) : Holds (cellsAt 0 text) text where
  bytes k inside := by
    have index : ((k : Int) - (0 : Nat)).toNat = k := by omega
    rw [cellsAt, index, List.getD_eq_getElem _ _ inside]
  ends := by simpa using cellsAt_length 0 text
  nonzero := nonzero

/-- `parse_file` finds what the reading of the text says. -/
theorem Holds.parseFile_reads (holds : Holds p text) (fits : text.length < MAX_FILE_BUF_SIZE)
    (fine : (reading sect key text).Fine sect key) :
    parseFile p sect key = some ((reading sect key text).finish key).1 := by
  rw [← parseFileAt_fst, ((holds.parseFileAt_reads fits sect key).fine fine).1]
  rfl

/-- The parser stays in a text, whatever is behind its NUL, if and only if the text does not end in
white space at the start of a line outside of the section, in an open header with the name of the
section, or in a line of the section without the key and without a line break. -/
theorem staysInside_iff (nonzero : 0 ∉ text) (fits : text.length < MAX_FILE_BUF_SIZE) :
    StaysInside sect key text ↔ (reading sect key text).Fine sect key := by
  constructor
  · rintro ⟨parsed, stop, inside, same⟩
    by_contra stray
    have holds := holds_cellsAt nonzero
    have behind := (holds.parseFileAt_reads fits sect key).astray stray _ (same _ holds).2
    exact absurd behind (Nat.not_lt.mpr inside)
  · intro fine
    have inside := ((holds_cellsAt nonzero).parseFileAt_reads fits sect key).fine fine
    exact ⟨_, _, inside.2, fun p holds =>
      ⟨holds.parseFile_reads fits fine, ((holds.parseFileAt_reads fits sect key).fine fine).1⟩⟩

/-- `[s]`, a comment, a line without `=` and `k=v` without a line break, and then for another key
with one. -/
theorem staysInside_iff_malformed :
    StaysInside [115] [107] [91, 115, 93, 10, 58, 61, 10, 120, 10, 107, 61, 118] ∧
      StaysInside [115] [120] [91, 115, 93, 10, 58, 61, 10, 120, 10, 107, 61, 118, 10] ∧
      ¬ StaysInside [115] [120] [91, 115, 93, 10, 58, 61, 10, 120, 10, 107, 61, 118] :=
  ⟨(staysInside_iff (by decide) (by decide)).mpr (by decide +kernel),
    (staysInside_iff (by decide) (by decide)).mpr (by decide +kernel),
    (staysInside_iff (by decide) (by decide)).not.mpr (by decide +kernel)⟩

/-- A text of one line break, with `[s]` and `k=v` left in memory behind its NUL. -/
theorem stale_entry_found :
    let p := cellsAt 0 [10, 0, 10, 91, 115, 93, 10, 107, 61, 118, 10]
    Holds (cellsAt 0 [10]) [10] ∧ Holds p [10] ∧
      parseFileAt (cellsAt 0 [10]) [115] [107] = some (⟨none, none⟩, 2) ∧
      parseFileAt p [115] [107] = some (⟨some ⟨4, 7⟩, some ⟨⟨7, 7⟩, ⟨9, 9⟩⟩⟩, 10) := by
  refine ⟨holds_cellsAt (by decide), ⟨by decide, by decide, by decide⟩, by decide +kernel,
    by decide +kernel⟩

/-- The parser does not stay inside every text. -/
theorem not_staysInside :
    ¬ ∀ sect key text : List UInt8, 0 ∉ text → text.length < MAX_FILE_BUF_SIZE →
      StaysInside sect key text := by
  intro claim
  obtain ⟨parsed, stop, inside, same⟩ := claim [115] [107] [10] (by decide) (by decide)
  obtain ⟨first, second, found, other⟩ := stale_entry_found
  have clean := (same _ first).2.symm.trans found
  have stale := (same _ second).2.symm.trans other
  rw [clean] at stale
  revert stale
  decide

end Taomee.IniFile
