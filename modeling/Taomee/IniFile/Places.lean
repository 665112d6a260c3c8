import Taomee.IniFile.Failure
import Taomee.IniFile.Reading

/-!
# ini-file: the places of an edit

Where the parser finds a section and an entry, the text in front of them is read as before the
edit. So in each of the three edits a value that is one line is found again.
-/

namespace Taomee.IniFile

variable {p p' : Int → UInt8} {sect key text text' : List UInt8} {sec : Option Span}
  {entry : Entry} {k : Nat}

/-! ## What a reading comes from -/

/-- The section was entered behind its header, a line is being read from its first byte on, and the
entry was in a line of the section. -/
structure Traced (p : Int → UInt8) (sect key text : List UInt8) (k : Nat) (r : Reading) : Prop where
  index : r.index = k
  sec : ∀ span ∈ r.sec, span.stop ≤ k ∧ ∃ broken before, newline (p (span.stop - 1)) = broken ∧
    upTo sect key text span.stop = ⟨span.stop, .behind span.start broken, before⟩
  behind : ∀ start broken, r.mode = .behind start broken → newline (p (k - 1)) = broken
  line : ∀ bytes, r.mode = .line bytes → r.sec.isSome ∧
    (bytes = [] ∧ newline (p (k - 1)) = true ∨
      ∃ i, LineTo p sect key text i k r.sec ∧ bytes = slice text i k)
  found : ∀ entry stop, r.mode = .found entry stop → r.sec.isSome ∧
    ∃ i, EntryAt p sect key text i stop r.sec entry

/-- Outside of the lines of the section only the place of the section is remembered. -/
def Mode.Outside : Mode → Prop
  | .start | .blank | .mid | .header _ => True
  | _ => False

/-- A byte outside of every line is passed over. -/
theorem Traced.step_outside {r : Reading} (traced : Traced p sect key text k r)
    {mode : Mode} (outside : mode.Outside) :
    Traced p sect key text (k + 1) { r with index := r.index + 1, mode := mode } where
  index := congrArg (· + 1) traced.index
  sec span among := ⟨Nat.le_succ_of_le (traced.sec span among).1, (traced.sec span among).2⟩
  behind start broken same := by
    dsimp only at same
    rw [same] at outside
    exact outside.elim
  line bytes same := by
    dsimp only at same
    rw [same] at outside
    exact outside.elim
  found entry stop same := by
    dsimp only at same
    rw [same] at outside
    exact outside.elim

/-- The reading so far is at this byte and in this mode. -/
theorem Traced.eq {r : Reading} (traced : Traced p sect key text k r) {mode : Mode}
    (same : r.mode = mode) : r = ⟨k, mode, r.sec⟩ := by
  obtain rfl := traced.index
  subst same
  rfl

section Trace

variable (holds : Holds p text) (inside : k < text.length)
  (traced : Traced p sect key text k (upTo sect key text k))
include holds inside traced

/-- A byte in the white space behind the header, or the first of the first line. -/
theorem Traced.step_behind {start : Nat} {broken : Bool}
    (mode : (upTo sect key text k).mode = .behind start broken) :
    Traced p sect key text (k + 1) ((upTo sect key text k).next sect key (p k)) := by
  have back : ((k + 1 : Nat) - 1 : Int) = k := by omega
  have last := traced.behind start broken mode
  have place : upTo sect key text k = ⟨k, .behind start broken, (upTo sect key text k).sec⟩ :=
    traced.eq mode
  simp only [Reading.next, mode, traced.index]
  by_cases space : isspace (p k) = true
  · rw [if_pos space]
    refine ⟨rfl, fun span among => ?_, fun _ _ same => ?_, by intros; contradiction,
      by intros; contradiction⟩
    · exact ⟨Nat.le_succ_of_le (traced.sec span among).1, (traced.sec span among).2⟩
    · obtain ⟨-, rfl⟩ := Mode.behind.inj same
      rw [back]
  · rw [if_neg space]
    have solid := Bool.eq_false_iff.mpr space
    refine ⟨rfl, ?_, ?_, ?_, ?_⟩
    · rintro span among
      obtain rfl := Option.some.inj among
      exact ⟨Nat.le_succ k, broken, _, last, place⟩
    · intro start' broken' same
      split at same <;> cases same
    · intro bytes same
      split at same
      · cases same
      case isFalse within =>
        obtain rfl := Mode.line.inj same
        have at_ : LineStart p sect key text k (some ⟨start, k⟩) :=
          .body start broken _ place last solid rfl
        have unbroken (x : Nat) (low : k ≤ x) (high : x < k + 1) : newline (p x) = false := by
          obtain rfl : x = k := by omega
          by_contra some_
          exact space (isspace_of_newline (Bool.eq_true_of_not_eq_false some_))
        refine ⟨rfl, .inr ⟨k, ⟨at_, ?_, Nat.lt_succ_self k, inside, unbroken⟩, ?_⟩⟩
        · rw [last]
          exact Bool.eq_false_iff.mpr within
        · rw [holds.slice_succ (Nat.le_refl k) inside, slice_self]
          rfl
    · intro entry stop same
      split at same <;> cases same

/-- A byte of a line, or its end. -/
theorem Traced.step_line {bytes : List UInt8} (mode : (upTo sect key text k).mode = .line bytes) :
    Traced p sect key text (k + 1) ((upTo sect key text k).next sect key (p k)) := by
  have back : ((k + 1 : Nat) - 1 : Int) = k := by omega
  obtain ⟨entered, read⟩ := traced.line bytes mode
  have place : upTo sect key text k = ⟨k, .line bytes, (upTo sect key text k).sec⟩ := traced.eq mode
  simp only [Reading.next, mode, traced.index]
  have sec (span : Span) (among : span ∈ (upTo sect key text k).sec) :=
    And.intro (Nat.le_succ_of_le (traced.sec span among).1) (traced.sec span among).2
  by_cases broken : newline (p k) = true
  · rw [if_pos broken]
    cases found : entryOf key (k - bytes.length) bytes with
    | none =>
      refine ⟨rfl, sec, by intros; contradiction, fun _ same => ⟨entered, .inl ?_⟩,
        by intros; contradiction⟩
      rw [back]
      exact ⟨(Mode.line.inj same).symm, broken⟩
    | some entry =>
      refine ⟨rfl, sec, by intros; contradiction, by intros; contradiction,
        fun _ _ same => ⟨entered, ?_⟩⟩
      obtain ⟨rfl, rfl⟩ := Mode.found.inj same
      rcases read with ⟨rfl, -⟩ | ⟨i, line, rfl⟩
      · rw [entryOf_nil] at found
        cases found
      · rw [line.index, holds.entryOf_slice line.before.le line.inside] at found
        · exact ⟨i, { line with ends := .inl broken, line := found }⟩
        · intro same
          rw [same] at broken
          cases broken
  · rw [if_neg broken]
    have unbroken := Bool.eq_false_iff.mpr broken
    by_cases header : (decide (bytes = []) && leftBrace (p k)) = true
    · rw [if_pos header]
      have onward : Traced p sect key text (k + 1)
          { upTo sect key text k with
            index := (upTo sect key text k).index + 1, mode := .header [] } :=
        traced.step_outside trivial
      rwa [traced.index] at onward
    · rw [if_neg header]
      refine ⟨rfl, sec, by intros; contradiction, fun _ same => ⟨entered, .inr ?_⟩,
        by intros; contradiction⟩
      obtain rfl := Mode.line.inj same
      rcases read with ⟨rfl, last⟩ | ⟨i, line, rfl⟩
      · refine ⟨k, ⟨.line place last, ?_, Nat.lt_succ_self k, inside, fun x low high => ?_⟩, ?_⟩
        · simpa [last] using header
        · obtain rfl : x = k := by omega
          exact unbroken
        · rw [holds.slice_succ (Nat.le_refl k) inside, slice_self]
      · have before := line.before
        refine ⟨i, ⟨line.at_, line.within, by omega, inside, fun x low high => ?_⟩, ?_⟩
        · by_cases here : x = k
          · exact here ▸ unbroken
          · exact line.unbroken x low (by omega)
        · rw [holds.slice_succ before.le inside]

end Trace

/-- By induction over the bytes read. -/
theorem Holds.traced (holds : Holds p text) (sect key : List UInt8) (inside : k ≤ text.length) :
    Traced p sect key text k (upTo sect key text k) := by
  induction k with
  | zero => constructor <;> intros <;> first | rfl | contradiction
  | succ k ih =>
    have traced := ih (by omega)
    rw [holds.upTo_succ sect key inside]
    cases mode : (upTo sect key text k).mode with
    | behind start broken => exact traced.step_behind holds inside mode
    | line bytes => exact traced.step_line holds inside mode
    | start =>
      simp only [Reading.next, mode]
      refine traced.step_outside ?_
      split
      · trivial
      · split <;> trivial
    | blank =>
      simp only [Reading.next, mode]
      refine traced.step_outside ?_
      split
      · trivial
      · split <;> trivial
    | mid =>
      simp only [Reading.next, mode]
      refine traced.step_outside ?_
      split <;> trivial
    | header name =>
      simp only [Reading.next, mode]
      by_cases open_ : (!isRightBrace (p k)) = true
      · rw [if_pos open_]
        exact traced.step_outside trivial
      rw [if_neg open_]
      by_cases is : nameIs sect ((upTo sect key text k).index - name.length) name = true
      · rw [if_pos is]
        refine ⟨congrArg (· + 1) traced.index, fun span among => ?_, fun _ _ same => ?_,
          by intros; contradiction, by intros; contradiction⟩
        · exact ⟨Nat.le_succ_of_le (traced.sec span among).1, (traced.sec span among).2⟩
        · obtain ⟨-, rfl⟩ := Mode.behind.inj same
          have back : ((k + 1 : Nat) - 1 : Int) = k := by omega
          simp only [Bool.not_eq_true', Bool.not_eq_false, isRightBrace, decide_eq_true_eq] at open_
          rw [back, open_]
          rfl
      · rw [if_neg is]
        exact traced.step_outside trivial
    | found entry stop =>
      simp only [Reading.next, mode]
      refine ⟨congrArg (· + 1) traced.index, fun span among => ?_, by intros; contradiction,
        by intros; contradiction, fun _ _ same => ?_⟩
      · exact ⟨Nat.le_succ_of_le (traced.sec span among).1, (traced.sec span among).2⟩
      · obtain ⟨rfl, rfl⟩ := Mode.found.inj same
        exact traced.found entry stop mode

/-- The places that an edit starts from. -/
def Places (p : Int → UInt8) (sect key text : List UInt8) : Parsed → Prop
  | ⟨none, entry⟩ => entry = none ∧ (reading sect key text).sec = none ∧
    ((reading sect key text).mode = .start ∨ (reading sect key text).mode = .mid ∨
      ∃ name, (reading sect key text).mode = .header name)
  | ⟨some sec, none⟩ => sec.stop ≤ text.length ∧
    ∃ broken before, newline (p (sec.stop - 1)) = broken ∧
      upTo sect key text sec.stop = ⟨sec.stop, .behind sec.start broken, before⟩
  | ⟨some sec, some entry⟩ => ∃ i stop, EntryAt p sect key text i stop (some sec) entry

/-- Where section, line and value are, when the reading is fine. -/
theorem Holds.places (holds : Holds p text) (fine : (reading sect key text).Fine sect key) :
    Places p sect key text ((reading sect key text).finish key).1 := by
  have traced := holds.traced sect key (Nat.le_refl text.length)
  rw [upTo_length] at traced
  have entered (outside : (reading sect key text).mode = .start ∨
      (reading sect key text).mode = .mid ∨ ∃ name, (reading sect key text).mode = .header name) :
      Places p sect key text ⟨(reading sect key text).sec, none⟩ := by
    cases sec : (reading sect key text).sec with
    | none => exact ⟨rfl, sec, outside⟩
    | some span => exact traced.sec span sec
  cases mode : (reading sect key text).mode with
  | start =>
    simp only [Reading.finish, mode]
    exact entered (.inl mode)
  | mid =>
    simp only [Reading.finish, mode]
    exact entered (.inr (.inl mode))
  | header name =>
    simp only [Reading.finish, mode]
    exact entered (.inr (.inr ⟨name, mode⟩))
  | blank =>
    rw [Reading.Fine, mode] at fine
    exact fine.elim
  | behind start broken =>
    simp only [Reading.finish, mode, traced.index]
    have place := traced.eq mode
    rw [← upTo_length] at place
    exact ⟨Nat.le_refl _, broken, _, traced.behind start broken mode, place⟩
  | line bytes =>
    obtain ⟨isSome, read⟩ := traced.line bytes mode
    obtain ⟨span, sec⟩ := Option.isSome_iff_exists.mp isSome
    simp only [Reading.finish, mode, traced.index, sec]
    cases found : entryOf key (text.length - bytes.length) bytes with
    | none => exact traced.sec span sec
    | some entry =>
      rcases read with ⟨rfl, -⟩ | ⟨i, line, rfl⟩
      · rw [entryOf_nil] at found
        cases found
      · have noEquals : p text.length ≠ equals := by
          rw [holds.ends]
          decide
        rw [line.index, holds.entryOf_slice line.before.le line.inside noEquals] at found
        rw [sec] at line
        exact ⟨i, text.length, { line with ends := .inr rfl, line := found }⟩
  | found entry stop =>
    obtain ⟨isSome, i, at_⟩ := traced.found entry stop mode
    obtain ⟨span, sec⟩ := Option.isSome_iff_exists.mp isSome
    simp only [Reading.finish, mode, sec]
    rw [sec] at at_
    exact ⟨i, stop, at_⟩

/-! ## Tokens and lines -/

section Lines

variable {s e a b n i j lineEnd : Nat}

/-- The start is trimmed to the first byte that is no space. -/
theorem trimStart_eq (low : s ≤ a) (high : a ≤ s + n)
    (front : ∀ x : Nat, s ≤ x → x < a → isSpace (p x) = true) (first : isSpace (p a) = false) :
    trimStart p n s = a := by
  induction n generalizing s with
  | zero =>
    have same : s = a := by omega
    exact same
  | succ n ih =>
    rw [trimStart]
    by_cases here : s = a
    · subst here
      rw [first]
      rfl
    · rw [front s (Nat.le_refl s) (by omega), if_pos rfl]
      exact ih (by omega) (by omega) fun x behind => front x (by omega)

/-- The end is trimmed to the last byte that is no space. -/
theorem trimStop_eq (high : b ≤ e) (low : e ≤ b + n)
    (back : ∀ x : Nat, b < x → x ≤ e → isSpace (p x) = true) (last : isSpace (p b) = false) :
    trimStop p n e = b := by
  induction n generalizing e with
  | zero =>
    have same : e = b := by omega
    exact same
  | succ n ih =>
    rw [trimStop]
    by_cases here : e = b
    · subst here
      rw [last]
      rfl
    · rw [back e (by omega) (Nat.le_refl e), if_pos rfl]
      exact ih (by omega) (by omega) fun x behind before => back x behind (by omega)

/-- Blanks are trimmed off a token whose ends are none. -/
theorem trimToken_eq (low : s ≤ a) (mid : a ≤ b) (high : b ≤ e)
    (front : ∀ x : Nat, s ≤ x → x < a → isSpace (p x) = true) (first : isSpace (p a) = false)
    (back : ∀ x : Nat, b < x → x ≤ e → isSpace (p x) = true) (last : isSpace (p b) = false) :
    trimToken p s e = ⟨a, b⟩ := by
  have start : trimStart p (e - s) s = a := trimStart_eq low (by omega) front first
  simp only [trimToken, start]
  rw [trimStop_eq high (by omega) back last]

/-- Only spaces are trimmed in front. -/
theorem trimStart_front (n s : Nat) :
    ∀ x : Nat, s ≤ x → x < trimStart p n s → isSpace (p x) = true := by
  induction n generalizing s with
  | zero =>
    intro x low high
    rw [trimStart] at high
    omega
  | succ n ih =>
    intro x low high
    rw [trimStart] at high
    split at high
    case isTrue space =>
      by_cases here : x = s
      · exact here ▸ space
      · exact ih (s + 1) x (by omega) high
    case isFalse => omega

/-- Only spaces are trimmed behind. -/
theorem trimStop_back (n e : Nat) :
    ∀ x : Nat, trimStop p n e < x → x ≤ e → isSpace (p x) = true := by
  induction n generalizing e with
  | zero =>
    intro x low high
    rw [trimStop] at low
    omega
  | succ n ih =>
    intro x low high
    rw [trimStop] at low
    split at low
    case isTrue space =>
      by_cases here : x = e
      · exact here ▸ space
      · exact ih (e - 1) x low (by omega)
    case isFalse => omega

/-- What is trimmed off is blank. -/
theorem trimToken_blank (s e : Nat) :
    (∀ x : Nat, s ≤ x → x < (trimToken p s e).start → isSpace (p x) = true) ∧
      ∀ x : Nat, (trimToken p s e).stop < x → x ≤ e → isSpace (p x) = true :=
  ⟨trimStart_front (e - s) s, trimStop_back _ e⟩

/-- The first equals sign is found. -/
theorem findEquals_eq (low : i < j) (high : j ≤ i + n) (here : p j = equals)
    (only : ∀ x : Nat, i ≤ x → x < j → p x ≠ equals) : findEquals p n i = some j := by
  induction n generalizing i with
  | zero => omega
  | succ n ih =>
    rw [findEquals, if_neg (only i (Nat.le_refl i) low)]
    by_cases next : i + 1 = j
    · rw [next, if_pos here]
    · rw [if_neg (only (i + 1) (by omega) (by omega))]
      exact ih (by omega) (by omega) fun x behind => only x (by omega)

/-- There is no equals sign before the one found. -/
theorem findEquals_only (found : findEquals p n i = some j) :
    ∀ x : Nat, i ≤ x → x < j → p x ≠ equals := by
  induction n generalizing i with
  | zero => cases found
  | succ n ih =>
    rw [findEquals] at found
    split at found
    · cases found
    case isFalse first =>
      intro x low high
      by_cases here : x = i
      · exact here ▸ first
      split at found
      · obtain rfl := Option.some.inj found
        omega
      · exact ih found x (by omega) high

/-- The first `=` of a line parts the key from the value. -/
theorem lineEntry_eq (comment : p i ≠ colon) (low : i < j) (high : j < lineEnd)
    (here : p j = equals) (only : ∀ x : Nat, i ≤ x → x < j → p x ≠ equals)
    (is : spanIs p (trimToken p i (j - 1)) key = true) :
    lineEntry p key i lineEnd =
      some ⟨trimToken p i (j - 1), trimToken p (j + 1) (lineEnd - 1)⟩ := by
  have place : findEquals p (lineEnd - i) i = some j := findEquals_eq low (by omega) here only
  simp only [lineEntry, if_neg comment, place, is, if_true]

/-- What a line with an entry looks like. -/
theorem lineEntry_spec (ends : p lineEnd ≠ equals)
    (found : lineEntry p key i lineEnd = some entry) :
    p i ≠ colon ∧ ∃ j, i < j ∧ j < lineEnd ∧ p j = equals ∧
      (∀ x : Nat, i ≤ x → x < j → p x ≠ equals) ∧
      spanIs p (trimToken p i (j - 1)) key = true ∧
      entry = ⟨trimToken p i (j - 1), trimToken p (j + 1) (lineEnd - 1)⟩ := by
  unfold lineEntry at found
  split at found
  · cases found
  case isFalse comment =>
    split at found
    · cases found
    case h_2 j place =>
      dsimp only at found
      split at found
      case isTrue is =>
        obtain ⟨low, high, here⟩ := findEquals_spec place
        have before : j ≠ lineEnd := by
          rintro rfl
          exact ends here
        exact ⟨comment, j, low, by omega, here, findEquals_only place, is,
          (Option.some.inj found).symm⟩
      case isFalse => cases found

/-- The place of a value is in one line. -/
theorem value_unbroken (found : parseFile p sect key = some ⟨sec, some entry⟩)
    (inside : k < entry.value.length) : newline (p (entry.value.start + k : Nat)) = false := by
  obtain ⟨i, lineEnd, scanned, line⟩ := parseLoop_line found
  have ends := (scan_stops scanned).2
  have noEquals : p lineEnd ≠ equals := by
    intro here
    rw [here] at ends
    cases ends
  obtain ⟨-, j, low, high, -, -, -, rfl⟩ := lineEntry_spec noEquals line
  have bounds := trimToken_inside p (j + 1) (lineEnd - 1)
  dsimp only [Span.length] at inside ⊢
  have goes := scan_goes scanned (show i ≤ (trimToken p (j + 1) (lineEnd - 1)).start + k by omega)
    (by omega)
  simp only [Bool.and_eq_true, Bool.not_eq_true'] at goes
  exact goes.1

end Lines

/-! ## What is written -/

/-- A text whose ends are not trimmed off. -/
structure Trimmed (token : List UInt8) : Prop where
  some_ : token ≠ []
  first : ∀ c ∈ token.head?, isSpace c = false
  last : ∀ c ∈ token.getLast?, isSpace c = false

/-- A name that a header keeps as it is. -/
structure CleanSection (sect : List UInt8) : Prop extends Trimmed sect where
  nonzero : 0 ∉ sect
  open_ : ∀ c ∈ sect, isRightBrace c = false

/-- A key that a line keeps as it is, wherever in the section the line is. -/
structure CleanKey (key : List UInt8) : Prop extends Trimmed key where
  nonzero : 0 ∉ key
  unbroken : ∀ c ∈ key, newline c = false
  noEquals : equals ∉ key
  start : ∀ c ∈ key.head?, isspace c = false ∧ leftBrace c = false ∧ c ≠ colon

/-- A value that is one line. -/
structure OneLine (value : List UInt8) : Prop extends Trimmed value where
  nonzero : 0 ∉ value
  unbroken : ∀ c ∈ value, newline c = false

/-- A text is in memory from a place on. -/
def At (p : Int → UInt8) (start : Nat) (bytes : List UInt8) : Prop :=
  ∀ (k : Nat) (inside : k < bytes.length), p (start + k : Nat) = bytes[k]

section Written

variable {start : Nat} {bytes more token value : List UInt8}

/-- Two parts lie one behind the other. -/
theorem At.append (at_ : At p start (bytes ++ more)) :
    At p start bytes ∧ At p (start + bytes.length) more := by
  constructor
  · intro k inside
    rw [at_ k (by rw [List.length_append]; omega), List.getElem_append_left inside]
  · intro k inside
    have byte := at_ (bytes.length + k) (by rw [List.length_append]; omega)
    rw [Nat.add_assoc, byte, List.getElem_append_right (by omega)]
    simp

/-- The bytes between are those of the text. -/
theorem At.byte (at_ : At p start bytes) {x : Nat} (low : start ≤ x)
    (high : x < start + bytes.length) : ∃ c ∈ bytes, p x = c := by
  have here := at_ (x - start) (by omega)
  rw [show start + (x - start) = x by omega] at here
  exact ⟨_, List.getElem_mem _, here⟩

/-- The first byte. -/
theorem At.first (at_ : At p start bytes) (some_ : bytes ≠ []) : p start ∈ bytes.head? := by
  have byte := at_ 0 (List.length_pos_iff.mpr some_)
  rw [Nat.add_zero] at byte
  rw [byte, List.head?_eq_getElem?, List.getElem?_eq_getElem (List.length_pos_iff.mpr some_)]
  rfl

/-- The last byte. -/
theorem At.last (at_ : At p start bytes) (some_ : bytes ≠ []) :
    p (start + bytes.length - 1 : Nat) ∈ bytes.getLast? := by
  have positive := List.length_pos_iff.mpr some_
  have byte := at_ (bytes.length - 1) (by omega)
  rw [show start + (bytes.length - 1) = start + bytes.length - 1 by omega] at byte
  rw [byte, List.getLast?_eq_getElem?, List.getElem?_eq_getElem (by omega)]
  rfl

/-- Between blanks a trimmed text is found again. -/
theorem At.trimToken_eq {s e : Nat} (at_ : At p start token) (trimmed : Trimmed token)
    (low : s ≤ start) (high : start + token.length ≤ e + 1)
    (front : ∀ x : Nat, s ≤ x → x < start → isSpace (p x) = true)
    (back : ∀ x : Nat, start + token.length ≤ x → x ≤ e → isSpace (p x) = true) :
    trimToken p s e = ⟨start, start + token.length - 1⟩ := by
  have positive := List.length_pos_iff.mpr trimmed.some_
  refine IniFile.trimToken_eq low (by omega) (by omega) front ?_
    (fun x behind => back x (by omega)) ?_
  · exact trimmed.first _ (at_.first trimmed.some_)
  · exact trimmed.last _ (at_.last trimmed.some_)

/-- The span of a token is the token. -/
theorem At.spanIs (at_ : At p start token) (some_ : token ≠ []) :
    spanIs p ⟨start, start + token.length - 1⟩ token = true := by
  have positive := List.length_pos_iff.mpr some_
  rw [IniFile.spanIs, Bool.and_eq_true, decide_eq_true_eq, CIniFile.sameBytes_iff]
  refine ⟨?_, fun k inside => ?_⟩
  · simp only [Span.length]
    omega
  · have byte := at_ k inside
    exact byte

/-- The line of a key, at the start of the section's lines. -/
theorem keyLine_entry {body : Nat} {broken : Bool} {before : Option Span}
    (place : upTo sect key text body = ⟨body, .behind start broken, before⟩)
    (last : newline (p (body - 1)) = broken) (clean : CleanKey key) (oneLine : OneLine value)
    (at_ : At p body (CIniFile.keyLine key value))
    (inside : body + key.length + value.length + 2 ≤ text.length) :
    EntryAt p sect key text body (body + key.length + 1 + value.length) (some ⟨start, body⟩)
      ⟨⟨body, body + key.length - 1⟩,
        ⟨body + key.length + 1, body + key.length + 1 + value.length - 1⟩⟩ := by
  have keyPositive := List.length_pos_iff.mpr clean.some_
  obtain ⟨atLine, atEnd⟩ := At.append at_
  obtain ⟨atSign, atValue⟩ := atLine.append
  obtain ⟨atKey, atEquals⟩ := atSign.append
  simp only [List.length_append, List.length_singleton] at atValue atEnd
  have first := clean.start _ (atKey.first clean.some_)
  have here : p (body + key.length : Nat) = equals := by simpa using atEquals 0 (by simp)
  have feed : p (body + key.length + 1 + value.length : Nat) = lineFeed := by
    have byte := atEnd 0 (by simp)
    rw [← Nat.add_assoc, ← Nat.add_assoc, Nat.add_zero] at byte
    simpa using byte
  constructor
  case toLineTo =>
    refine ⟨.body start broken before place last first.1 rfl, ?_, by omega, by omega, ?_⟩
    · rw [first.2.1, Bool.and_false]
    · intro x low high
      rcases Nat.lt_trichotomy x (body + key.length) with inKey | rfl | behind
      · obtain ⟨c, among, byte⟩ := atKey.byte low inKey
        rw [byte]
        exact clean.unbroken c among
      · rw [here]
        rfl
      · obtain ⟨c, among, byte⟩ := atValue.byte (x := x) (by omega) high
        rw [byte]
        exact oneLine.unbroken c among
  case ends =>
    rw [feed]
    exact .inl rfl
  case line =>
    have keySpan : trimToken p body (body + key.length - 1) = ⟨body, body + key.length - 1⟩ :=
      atKey.trimToken_eq clean.toTrimmed (Nat.le_refl _) (by omega) (fun x _ _ => by omega)
        (fun x _ _ => by omega)
    have valueSpan :
        trimToken p (body + key.length + 1) (body + key.length + 1 + value.length - 1) =
          ⟨body + key.length + 1, body + key.length + 1 + value.length - 1⟩ :=
      atValue.trimToken_eq oneLine.toTrimmed (Nat.le_refl _) (by omega) (fun x _ _ => by omega)
        (fun x _ _ => by omega)
    rw [lineEntry_eq (j := body + key.length) first.2.2 (by omega) (by omega) here, keySpan,
      valueSpan]
    · intro x low high same
      obtain ⟨c, among, byte⟩ := atKey.byte low high
      exact clean.noEquals (same ▸ byte ▸ among)
    · rw [keySpan]
      exact atKey.spanIs clean.some_

/-- A header at the start of a line outside of the section. -/
theorem Holds.header_place (holds : Holds p text) {a : Nat} {mode : Mode}
    (place : upTo sect key text a = ⟨a, mode, sec⟩) (outside : mode = .start ∨ mode = .blank)
    (clean : CleanSection sect) (at_ : At p a ([91] ++ sect ++ [93, lineFeed]))
    (inside : a + sect.length + 3 ≤ text.length) :
    upTo sect key text (a + sect.length + 3) =
      ⟨a + sect.length + 3, .behind (a + 1) true, sec⟩ := by
  obtain ⟨atName, atEnd⟩ := at_.append
  obtain ⟨atBrace, atSect⟩ := atName.append
  simp only [List.length_append, List.length_singleton] at atSect atEnd
  have brace : p a = 91 := by simpa using atBrace 0 (by simp)
  have close : p (a + 1 + sect.length : Nat) = 93 := by
    have byte := atEnd 0 (by simp)
    rw [← Nat.add_assoc, Nat.add_zero] at byte
    simpa using byte
  have feed : p (a + 1 + sect.length + 1 : Nat) = lineFeed := by
    have byte := atEnd 1 (by simp)
    rw [← Nat.add_assoc] at byte
    simpa using byte
  have opened : upTo sect key text (a + 1) = ⟨a + 1, .header [], sec⟩ := by
    rw [holds.upTo_succ sect key (by omega), place, brace]
    rcases outside with rfl | rfl <;> rfl
  have named := holds.header_name opened (show a + 1 ≤ a + 1 + sect.length by omega) (by omega)
    fun x low high => by
      obtain ⟨c, among, byte⟩ := atSect.byte low high
      rw [byte]
      exact clean.open_ c among
  have is : nameIs sect (a + 1) (slice text (a + 1) (a + 1 + sect.length)) = true := by
    rw [holds.nameIs_slice (Nat.succ_pos a) (by omega) (by omega),
      atSect.trimToken_eq clean.toTrimmed (Nat.le_refl _) (by omega) (fun x _ _ => by omega)
        (fun x _ _ => by omega)]
    exact atSect.spanIs clean.some_
  have index : a + 1 + sect.length - (slice text (a + 1) (a + 1 + sect.length)).length = a + 1 := by
    rw [length_slice (by omega)]
    omega
  have closed : upTo sect key text (a + 1 + sect.length + 1) =
      ⟨a + 1 + sect.length + 1, .behind (a + 1) false, sec⟩ := by
    rw [holds.upTo_succ sect key (by omega), named, close]
    simp only [Reading.next, index, is]
    rfl
  have next := holds.upTo_succ sect key (show a + 1 + sect.length + 1 < text.length by omega)
  rw [closed, feed] at next
  rw [show a + sect.length + 3 = a + 1 + sect.length + 1 + 1 by omega]
  exact next

end Written

/-! ## The text behind an edit -/

/-- A text with a stretch replaced. -/
def spliced (text : List UInt8) (start gone : Nat) (more : List UInt8) : List UInt8 :=
  text.take start ++ more ++ text.drop (start + gone)

/-- The parser finds an entry with this value. -/
def Reads (p : Int → UInt8) (sect key value : List UInt8) : Prop :=
  ∃ sec entry, parseFile p sect key = some ⟨sec, some entry⟩ ∧ spanIs p entry.value value = true

section Spliced

variable {start gone : Nat} {more value : List UInt8}

/-- The text after a splice. -/
theorem length_spliced (more : List UInt8) (within : start + gone ≤ text.length) :
    (spliced text start gone more).length = text.length - gone + more.length := by
  simp only [spliced, List.length_append, List.length_take, List.length_drop]
  omega

/-- In front of the stretch the text is read as before. -/
theorem upTo_spliced (within : start ≤ text.length) (front : k ≤ start) :
    upTo sect key (spliced text start gone more) k = upTo sect key text k := by
  have length : k ≤ (text.take start).length := by
    rw [List.length_take]
    omega
  rw [upTo, upTo, spliced, List.append_assoc, List.take_append_of_le_length length,
    List.take_take, Nat.min_eq_left front]

/-- What is spliced in lies there. -/
theorem Splices.at_ {last : Int} (splices : Splices p p' start gone more last) : At p' start more :=
  fun k inside => by simpa using splices.inside k inside

/-- The buffer holds the spliced text. -/
theorem Splices.holds (splices : Splices p p' start gone more text.length) (holds : Holds p text)
    (within : start + gone ≤ text.length) (nonzero : 0 ∉ more) :
    Holds p' (spliced text start gone more) where
  bytes k inside := by
    rw [length_spliced more within] at inside
    simp only [spliced, List.append_assoc, List.getElem_append, List.getElem_take,
      List.getElem_drop, List.length_take]
    split
    case isTrue front =>
      rw [splices.front k (by omega), holds.bytes k (by omega)]
    case isFalse behind =>
      have place : min start text.length = start := by omega
      simp only [place] at behind ⊢
      split
      case isTrue among =>
        rw [← splices.inside (k - start) among]
        congr 1
        omega
      case isFalse later =>
        have moved := splices.behind (k - more.length + gone : Nat) (by omega) (by omega)
        rw [show ((k - more.length + gone : Nat) + (more.length - gone) : Int) = k
          by omega] at moved
        rw [moved, holds.bytes _ (by omega)]
        congr 1
        omega
  ends := by
    have moved := splices.behind text.length (by omega) (Int.le_refl _)
    rw [length_spliced more within]
    rw [show (text.length + (more.length - gone) : Int) =
      (text.length - gone + more.length : Nat) by omega, holds.ends] at moved
    exact moved
  nonzero := by
    intro nul
    rcases List.mem_append.mp nul with front | behind
    · rcases List.mem_append.mp front with before | among
      · exact holds.nonzero (List.mem_of_mem_take before)
      · exact nonzero among
    · exact holds.nonzero (List.mem_of_mem_drop behind)

/-- An entry at its place is what the parser finds. -/
theorem EntryAt.found {i stop : Nat} (at_ : EntryAt p sect key text i stop sec entry)
    (holds : Holds p text) (fits : text.length < MAX_FILE_BUF_SIZE) :
    parseFile p sect key = some ⟨sec, some entry⟩ := by
  obtain ⟨fine, finish⟩ := at_.reads holds
  rw [holds.parseFile_reads fits fine, finish]

/-- A clean line behind its section is what is read for its key. -/
theorem reads_keyLine {body : Nat} {broken : Bool} {before : Option Span} (holds : Holds p text)
    (fits : text.length < MAX_FILE_BUF_SIZE)
    (place : upTo sect key text body = ⟨body, .behind start broken, before⟩)
    (last : newline (p (body - 1)) = broken) (clean : CleanKey key) (oneLine : OneLine value)
    (at_ : At p body (CIniFile.keyLine key value))
    (inside : body + key.length + value.length + 2 ≤ text.length) : Reads p sect key value := by
  have entry := keyLine_entry place last clean oneLine at_ inside
  refine ⟨_, _, entry.found holds fits, ?_⟩
  obtain ⟨atLine, -⟩ := At.append at_
  obtain ⟨-, atValue⟩ := atLine.append
  simp only [List.length_append] at atValue
  exact atValue.spanIs oneLine.some_

/-- A section of its own, at the start of a line outside of it. -/
theorem reads_sectionText {a : Nat} {mode : Mode} (holds : Holds p text)
    (fits : text.length < MAX_FILE_BUF_SIZE) (place : upTo sect key text a = ⟨a, mode, sec⟩)
    (outside : mode = .start ∨ mode = .blank) (cleanSect : CleanSection sect)
    (cleanKey : CleanKey key) (oneLine : OneLine value) (at_ : At p a (sectionText sect key value))
    (inside : a + (sectionText sect key value).length ≤ text.length) : Reads p sect key value := by
  rw [CIniFile.length_sectionText] at inside
  have parts : sectionText sect key value =
      [91] ++ sect ++ [93, lineFeed] ++ CIniFile.keyLine key value := by
    simp only [sectionText, CIniFile.keyLine, List.append_assoc]
  rw [parts] at at_
  obtain ⟨atHeader, atLine⟩ := At.append at_
  have length : ([91] ++ sect ++ [93, lineFeed]).length = sect.length + 3 := by
    simp only [List.length_append, List.length_cons, List.length_nil]
    omega
  rw [length, ← Nat.add_assoc] at atLine
  have behind := holds.header_place place outside cleanSect atHeader (by omega)
  have feed : newline (p ((a + sect.length + 3 : Nat) - 1)) = true := by
    obtain ⟨-, atEnd⟩ := atHeader.append
    have byte := atEnd 1 (by simp)
    simp only [List.length_append, List.length_singleton] at byte
    rw [show ((a + sect.length + 3 : Nat) - 1 : Int) = (a + (1 + sect.length) + 1 : Nat) by omega,
      byte]
    rfl
  exact reads_keyLine holds fits behind feed cleanKey oneLine atLine (by omega)

/-- A line starts where it did when the edit is behind its first byte. -/
theorem LineStart.congr {i : Nat} (at_ : LineStart p sect key text i sec)
    (same : upTo sect key text' i = upTo sect key text i) (here : p' i = p i)
    (last : p' (i - 1) = p (i - 1)) : LineStart p' sect key text' i sec := by
  cases at_ with
  | body start broken before place last' solid is =>
    exact .body start broken before (same.trans place) (by rw [last, last'])
      (by rw [here, solid]) is
  | line place broken => exact .line (same.trans place) (by rw [last, broken])

/-- A value put in the place of another. -/
theorem reads_setValue {i stop : Nat} (at_ : EntryAt p sect key text i stop sec entry)
    (holds : Holds p text) (oneLine : OneLine value)
    (splices : Splices p p' entry.value.start entry.value.length value text.length)
    (fits : text.length - entry.value.length + value.length < MAX_FILE_BUF_SIZE) :
    Reads p' sect key value := by
  have noEquals : p stop ≠ equals := by
    rcases at_.ends with broken | past
    · intro same
      rw [same] at broken
      cases broken
    · rw [past, holds.ends]
      decide
  obtain ⟨comment, j, low, high, here, only, is, rfl⟩ := lineEntry_spec noEquals at_.line
  have inside := at_.inside
  obtain ⟨blankFront, blankBack⟩ := trimToken_blank (p := p) (j + 1) (stop - 1)
  have bounds := trimToken_inside p (j + 1) (stop - 1)
  have ordered := trimToken_ordered (p := p) (show j + 1 ≤ stop - 1 + 1 by omega)
  dsimp only at splices fits
  generalize trimToken p (j + 1) (stop - 1) = old at *
  have length : old.length = old.stop + 1 - old.start := rfl
  have within : old.start + old.length ≤ text.length := by omega
  have atValue := splices.at_
  have front (x : Nat) (before : x < old.start) : p' x = p x := splices.front x (by omega)
  have behind (y : Nat) (low : old.start + value.length ≤ y)
      (high : y ≤ text.length - old.length + value.length) :
      p' y = p (y - value.length + old.length : Nat) := by
    have moved := splices.behind (y - value.length + old.length : Nat) (by omega) (by omega)
    rw [show ((y - value.length + old.length : Nat) + (value.length - old.length) : Int) = y
      by omega] at moved
    exact moved
  have valueSpan : trimToken p' (j + 1) (stop - old.length + value.length - 1) =
      ⟨old.start, old.start + value.length - 1⟩ := by
    refine atValue.trimToken_eq oneLine.toTrimmed (by omega) (by omega) ?_ ?_
    · intro x low high
      rw [front x high]
      exact blankFront x low high
    · intro x low high
      rw [behind x low (by omega)]
      exact blankBack _ (by omega) (by omega)
  have keySpan : spanIs p' (trimToken p' i (j - 1)) key = true := by
    rw [spanIs_congr fun x low high => front x (by omega)]
    exact is
  have holds' := splices.holds holds within oneLine.nonzero
  have size : (spliced text old.start old.length value).length =
      text.length - old.length + value.length := length_spliced value within
  have entry : EntryAt p' sect key (spliced text old.start old.length value) i
      (stop - old.length + value.length) sec
      ⟨trimToken p' i (j - 1), ⟨old.start, old.start + value.length - 1⟩⟩ := by
    have first : p' ((i : Int) - 1) = p ((i : Int) - 1) := splices.front _ (by omega)
    constructor
    case toLineTo =>
      refine ⟨at_.at_.congr (upTo_spliced (by omega) (by omega)) (front i (by omega)) first, ?_,
        by omega, by omega, ?_⟩
      · rw [first, front i (by omega)]
        exact at_.within
      · intro x low high
        by_cases before : x < old.start
        · rw [front x before]
          exact at_.unbroken x low (by omega)
        by_cases among : x < old.start + value.length
        · obtain ⟨c, member, byte⟩ := atValue.byte (by omega) among
          rw [byte]
          exact oneLine.unbroken c member
        · rw [behind x (by omega) (by omega)]
          exact at_.unbroken _ (by omega) (by omega)
    case ends =>
      rcases at_.ends with broken | past
      · left
        rw [behind _ (by omega) (by omega),
          show stop - old.length + value.length - value.length + old.length = stop by omega]
        exact broken
      · omega
    case line =>
      rw [lineEntry_eq (j := j) (by rw [front i (by omega)]; exact comment) low (by omega)
        (by rw [front j (by omega)]; exact here) ?_ keySpan, valueSpan]
      intro x low high
      rw [front x (by omega)]
      exact only x low high
  exact ⟨_, _, entry.found holds' (by omega), atValue.spanIs oneLine.some_⟩

end Spliced

end Taomee.IniFile
