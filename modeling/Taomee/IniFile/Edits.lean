import Mathlib.Data.List.GetD
import Taomee.IniFile.Model

/-!
# ini-file: what the edits do to the buffer

Cell by cell, for each of the loops of `write_string` and then for its four branches.
-/

namespace Taomee.IniFile

namespace Buffer

variable {b : Buffer} {idx start stop len : Int} {n : Nat} {text : List UInt8}

/-- Writing the cells from `first` up to `last` leaves the buffer where one of them lies outside. -/
def Outside (first last : Int) : Prop := first ≤ last ∧ (first < 0 ∨ MAX_FILE_BUF_SIZE ≤ last)

@[simp] theorem store_self (c : UInt8) : (b.store idx c).cells idx = c := Function.update_self ..

/-- Other cells keep their bytes. -/
theorem store_of_ne (c : UInt8) {x : Int} (ne : x ≠ idx) :
    (b.store idx c).cells x = b.cells x := Function.update_of_ne ne ..

/-- The cells after a write. -/
theorem store_cells (c : UInt8) (x : Int) :
    (b.store idx c).cells x = if x = idx then c else b.cells x := Function.update_apply ..

/-- A write overruns the buffer when its index is outside. -/
theorem store_overrun (c : UInt8) :
    (b.store idx c).overrun = true ↔ b.overrun = true ∨ Outside idx idx := by
  simp [store, Outside, or_assoc]

/-- Text printed overruns with its last byte, the zero behind it. -/
theorem print_overrun :
    (b.print idx text).overrun = true ↔ b.overrun = true ∨ Outside idx (idx + text.length) := by
  induction text generalizing b idx with
  | nil => simpa [print] using store_overrun 0
  | cons c rest ih =>
    rw [print, ih, store_overrun, or_assoc]
    refine or_congr_right ?_
    simp only [Outside, List.length_cons]
    omega

/-- A copy upward overruns when one of its cells is outside. -/
theorem upward_overrun (byte : Buffer → Int → UInt8) :
    (upward byte n idx b).overrun = true ↔ b.overrun = true ∨ Outside idx (idx + n - 1) := by
  induction n generalizing b idx with
  | zero =>
    have none : ¬ Outside idx (idx + (0 : Nat) - 1) := by
      simp only [Outside]
      omega
    simp only [upward, none, or_false]
  | succ n ih =>
    rw [upward, ih, store_overrun, or_assoc]
    refine or_congr_right ?_
    simp only [Outside]
    omega

/-- A copy downward overruns when one of its cells is outside. -/
theorem downward_overrun (byte : Buffer → Int → UInt8) :
    (downward byte n idx b).overrun = true ↔ b.overrun = true ∨ Outside (idx - n + 1) idx := by
  induction n generalizing b idx with
  | zero =>
    have none : ¬ Outside (idx - (0 : Nat) + 1) idx := by
      simp only [Outside]
      omega
    simp only [downward, none, or_false]
  | succ n ih =>
    rw [downward, ih, store_overrun, or_assoc]
    refine or_congr_right ?_
    simp only [Outside]
    omega

/-- A printed text is there with its NUL, and nothing else is written. -/
theorem print_cells (x : Int) :
    (b.print idx text).cells x =
      if idx ≤ x ∧ x ≤ idx + text.length then text.getD (x - idx).toNat 0 else b.cells x := by
  induction text generalizing b idx with
  | nil =>
    rw [print]
    by_cases here : x = idx
    · subst here
      simp
    · have apart : ¬ (idx ≤ x ∧ x ≤ idx + (0 : Nat)) := by omega
      rw [List.length_nil, if_neg apart, store_of_ne 0 here]
  | cons c rest ih =>
    rw [print, ih]
    by_cases here : x = idx
    · have apart : ¬ (idx + 1 ≤ x ∧ x ≤ idx + 1 + rest.length) := by omega
      have inside : idx ≤ x ∧ x ≤ idx + (c :: rest).length := by omega
      have first : (x - idx).toNat = 0 := by omega
      rw [if_neg apart, if_pos inside, first, here, store_self, List.getD_cons_zero]
    · by_cases behind : idx + 1 ≤ x ∧ x ≤ idx + 1 + rest.length
      · have inside : idx ≤ x ∧ x ≤ idx + (c :: rest).length := by
          simp only [List.length_cons]
          omega
        obtain ⟨k, rfl⟩ : ∃ k : Nat, x = idx + 1 + k := ⟨(x - idx - 1).toNat, by omega⟩
        rw [if_pos behind, if_pos inside]
        have first : (idx + 1 + (k : Int) - (idx + 1)).toNat = k := by omega
        have second : (idx + 1 + (k : Int) - idx).toNat = k + 1 := by omega
        rw [first, second, List.getD_cons_succ]
      · have outside : ¬ (idx ≤ x ∧ x ≤ idx + (c :: rest).length) := by
          simp only [List.length_cons]
          omega
        rw [if_neg behind, if_neg outside, store_of_ne c here]

/-- A loop that stores bytes which do not depend on the buffer. -/
theorem upward_cells (byte : Int → UInt8) (x : Int) :
    (upward (fun _ => byte) n idx b).cells x =
      if idx ≤ x ∧ x < idx + n then byte x else b.cells x := by
  induction n generalizing b idx with
  | zero =>
    have none : ¬ (idx ≤ x ∧ x < idx + (0 : Nat)) := by omega
    rw [if_neg none, upward]
  | succ n ih =>
    rw [upward, ih]
    by_cases here : x = idx
    · have later : ¬ (idx + 1 ≤ x ∧ x < idx + 1 + n) := by omega
      have now : idx ≤ x ∧ x < idx + (n + 1 : Nat) := by omega
      rw [if_neg later, if_pos now, here, store_self]
    · have same : (idx + 1 ≤ x ∧ x < idx + 1 + n) ↔ (idx ≤ x ∧ x < idx + (n + 1 : Nat)) := by
        omega
      simp only [same, store_of_ne _ here]

/-- The cells filled hold the text, the others what they held. -/
theorem fill_cells (base : Int) (x : Int) :
    (b.fill start stop base text).cells x =
      if start ≤ x ∧ x < stop then text.getD (x - base).toNat 0 else b.cells x := by
  have same : (start ≤ x ∧ x < start + ((stop - start).toNat : Nat)) ↔ (start ≤ x ∧ x < stop) := by
    omega
  simp only [fill, upward_cells, same]

/-- Cells move towards the front without being overwritten first. -/
theorem moveForward_cells (front : len ≤ 0) (x : Int) :
    (b.moveForward start stop len).cells x =
      if start ≤ x ∧ x ≤ stop then b.cells (x - len) else b.cells x := by
  have moved : ∀ (n : Nat) (idx : Int) (b : Buffer),
      (upward (fun b idx => b.cells (idx - len)) n idx b).cells x =
        if idx ≤ x ∧ x < idx + n then b.cells (x - len) else b.cells x := by
    intro n
    induction n with
    | zero =>
      intro idx b
      have none : ¬ (idx ≤ x ∧ x < idx + (0 : Nat)) := by omega
      rw [if_neg none, upward]
    | succ n ih =>
      intro idx b
      rw [upward, ih]
      by_cases here : x = idx
      · have later : ¬ (idx + 1 ≤ x ∧ x < idx + 1 + n) := by omega
        have now : idx ≤ x ∧ x < idx + (n + 1 : Nat) := by omega
        rw [if_neg later, if_pos now, here, store_self]
      · have same : (idx + 1 ≤ x ∧ x < idx + 1 + n) ↔ (idx ≤ x ∧ x < idx + (n + 1 : Nat)) := by
          omega
        simp only [same, store_of_ne _ here]
        split
        · have unwritten : x - len ≠ idx := by omega
          rw [store_of_ne _ unwritten]
        · rfl
  have same : (start ≤ x ∧ x < start + ((stop + 1 - start).toNat : Nat)) ↔
      (start ≤ x ∧ x ≤ stop) := by
    omega
  simp only [moveForward, moved, same]

/-- Cells move towards the back without being overwritten first. -/
theorem moveBackward_cells (back : 0 ≤ len) (x : Int) :
    (b.moveBackward start stop len).cells x =
      if stop ≤ x ∧ x ≤ start then b.cells (x - len) else b.cells x := by
  have moved : ∀ (n : Nat) (idx : Int) (b : Buffer),
      (downward (fun b idx => b.cells (idx - len)) n idx b).cells x =
        if idx - n < x ∧ x ≤ idx then b.cells (x - len) else b.cells x := by
    intro n
    induction n with
    | zero =>
      intro idx b
      have none : ¬ (idx - (0 : Nat) < x ∧ x ≤ idx) := by omega
      rw [if_neg none, downward]
    | succ n ih =>
      intro idx b
      rw [downward, ih]
      by_cases here : x = idx
      · have later : ¬ (idx - 1 - n < x ∧ x ≤ idx - 1) := by omega
        have now : idx - (n + 1 : Nat) < x ∧ x ≤ idx := by omega
        rw [if_neg later, if_pos now, here, store_self]
      · have same : (idx - 1 - n < x ∧ x ≤ idx - 1) ↔ (idx - (n + 1 : Nat) < x ∧ x ≤ idx) := by
          omega
        simp only [same, store_of_ne _ here]
        split
        · have unwritten : x - len ≠ idx := by omega
          rw [store_of_ne _ unwritten]
        · rfl
  have same : (start - ((start + 1 - stop).toNat : Nat) < x ∧ x ≤ start) ↔
      (stop ≤ x ∧ x ≤ start) := by
    omega
  simp only [moveBackward, moved, same]

/-- A fill overruns when one of its cells is outside. -/
theorem fill_overrun (base : Int) :
    (b.fill start stop base text).overrun = true ↔
      b.overrun = true ∨ Outside start (stop - 1) := by
  rw [fill, upward_overrun]
  refine or_congr_right ?_
  simp only [Outside]
  omega

/-- A move forward overruns when one of its cells is outside. -/
theorem moveForward_overrun :
    (b.moveForward start stop len).overrun = true ↔ b.overrun = true ∨ Outside start stop := by
  rw [moveForward, upward_overrun]
  refine or_congr_right ?_
  simp only [Outside]
  omega

/-- A move backward overruns when one of its cells is outside. -/
theorem moveBackward_overrun :
    (b.moveBackward start stop len).overrun = true ↔ b.overrun = true ∨ Outside stop start := by
  rw [moveBackward, downward_overrun]
  refine or_congr_right ?_
  simp only [Outside]
  omega

end Buffer

/-! ## What the parser finds -/

section Found

variable {p : Int → UInt8} {key : List UInt8} {entry : Entry} {fuel i : Nat}

/-- A scan goes forward and stops where it does not go on. -/
theorem scan_stops {goes : UInt8 → Bool} {j : Nat} (stops : scan goes p fuel i = some j) :
    i ≤ j ∧ goes (p j) = false := by
  induction fuel generalizing i with
  | zero => cases stops
  | succ fuel ih =>
    rw [scan] at stops
    split at stops
    · obtain ⟨forward, here⟩ := ih stops
      exact ⟨by omega, here⟩
    case isFalse still =>
      obtain rfl := Option.some.inj stops
      exact ⟨Nat.le_refl _, Bool.eq_false_iff.mpr still⟩

/-- A scan stops no later than the first place at which it has to. -/
theorem scan_finds {goes : UInt8 → Bool} {n : Nat} (stops : goes (p n) = false) (ahead : i ≤ n)
    (enough : n < i + fuel) : ∃ j ≤ n, scan goes p fuel i = some j := by
  induction fuel generalizing i with
  | zero => omega
  | succ fuel ih =>
    rw [scan]
    split
    case isTrue goesOn =>
      have further : i ≠ n := by
        rintro rfl
        rw [goesOn] at stops
        cases stops
      exact ih (by omega) (by omega)
    case isFalse => exact ⟨i, ahead, rfl⟩

/-- The start goes forward by at most `n` bytes. -/
theorem trimStart_bounds (p : Int → UInt8) (n s : Nat) :
    s ≤ trimStart p n s ∧ trimStart p n s ≤ s + n := by
  induction n generalizing s with
  | zero => exact ⟨Nat.le_refl _, Nat.le_refl _⟩
  | succ n ih =>
    rw [trimStart]
    have next := ih (s + 1)
    split <;> omega

/-- The end goes back by at most `n` bytes. -/
theorem trimStop_bounds (p : Int → UInt8) (n e : Nat) :
    e - n ≤ trimStop p n e ∧ trimStop p n e ≤ e := by
  induction n generalizing e with
  | zero => exact ⟨Nat.sub_le _ _, Nat.le_refl _⟩
  | succ n ih =>
    rw [trimStop]
    have next := ih (e - 1)
    split <;> omega

/-- A trimmed token does not stop before the place in front of its start. -/
theorem trimToken_ordered {s e : Nat} (ordered : s ≤ e + 1) :
    (trimToken p s e).start ≤ (trimToken p s e).stop + 1 := by
  have first := trimStart_bounds p (e - s) s
  have second := trimStop_bounds p (e - trimStart p (e - s) s) e
  dsimp only [trimToken]
  omega

/-- The sign that is found is one of the next `n` bytes. -/
theorem findEquals_spec {n j : Nat} (found : findEquals p n i = some j) :
    i < j ∧ j ≤ i + n ∧ p j = equals := by
  induction n generalizing i with
  | zero => cases found
  | succ n ih =>
    rw [findEquals] at found
    split at found
    · cases found
    split at found
    case isTrue here =>
      obtain rfl := Option.some.inj found
      exact ⟨by omega, by omega, here⟩
    case isFalse =>
      obtain ⟨behind, within, here⟩ := ih found
      exact ⟨by omega, by omega, here⟩

/-- The value of an entry is a span, empty at the least. -/
theorem lineEntry_ordered {lineEnd : Nat} (forward : i ≤ lineEnd) (ends : p lineEnd ≠ equals)
    (found : lineEntry p key i lineEnd = some entry) :
    entry.value.start ≤ entry.value.stop + 1 := by
  unfold lineEntry at found
  split at found
  · cases found
  split at found
  · cases found
  case h_2 j equalsAt =>
    dsimp only at found
    split at found
    · obtain rfl := Option.some.inj found
      obtain ⟨behind, within, here⟩ := findEquals_spec equalsAt
      have inside : j ≠ lineEnd := by
        rintro rfl
        exact ends here
      exact trimToken_ordered (by omega)
    · cases found

/-- An entry is in a line, which ends at the first line break or NUL. -/
theorem lineLoop_line (found : lineLoop p key fuel i = some (.found entry)) :
    ∃ i lineEnd, scan (fun c => !newline c && !endOfString c) p steps i = some lineEnd ∧
      lineEntry p key i lineEnd = some entry := by
  induction fuel generalizing i with
  | zero => cases found
  | succ fuel ih =>
    rw [lineLoop] at found
    split at found
    · cases found
    split at found
    · cases found
    case h_2 lineEnd scanned =>
      split at found
      case h_1 entry' line =>
        obtain rfl : entry' = entry := by simpa using found
        exact ⟨i, lineEnd, scanned, line⟩
      case h_2 => exact ih found

/-- An entry that the loop finds is that of one line. -/
theorem parseLoop_line {sect : List UInt8} {before sec : Option Span}
    (found : parseLoop p sect key fuel i before = some ⟨sec, some entry⟩) :
    ∃ i lineEnd, scan (fun c => !newline c && !endOfString c) p steps i = some lineEnd ∧
      lineEntry p key i lineEnd = some entry := by
  induction fuel generalizing i before with
  | zero => cases found
  | succ fuel ih =>
    rw [parseLoop] at found
    split at found
    · cases found
    split at found
    case isFalse => exact ih found
    split at found
    · cases found
    split at found
    case isFalse => exact ih found
    split at found
    · cases found
    split at found
    case isFalse => exact ih found
    split at found
    · cases found
    split at found
    · cases found
    case h_2 line =>
      obtain ⟨-, rfl⟩ : _ ∧ _ = entry := by simpa using found
      exact lineLoop_line line
    case h_3 => exact ih found

/-- The value that the loop finds is a span, empty at the least. -/
theorem parseLoop_ordered {sect : List UInt8} {before sec : Option Span}
    (found : parseLoop p sect key fuel i before = some ⟨sec, some entry⟩) :
    entry.value.start ≤ entry.value.stop + 1 := by
  obtain ⟨i, lineEnd, scanned, line⟩ := parseLoop_line found
  obtain ⟨forward, ends⟩ := scan_stops scanned
  refine lineEntry_ordered forward (fun here => ?_) line
  rw [here] at ends
  cases ends

end Found

/-! ## The branches of `write_string` -/

/-- A number that fits an `int`. -/
theorem int_eq {n : Int} (low : -2 ^ 31 ≤ n) (high : n < 2 ^ 31) : int n = n := by
  unfold int
  rw [Int.bmod_eq_of_le] <;> omega

/-- A short text has its length as an `int`. -/
theorem intLen_eq {text : List UInt8} (short : (text.length : Int) < 2 ^ 31) :
    intLen text = text.length := int_eq (by omega) short

/-- From `start` on, so many bytes are replaced by the text, and what is behind them, up to
`last`, moves along. -/
structure Splices (before after : Int → UInt8) (start gone : Nat) (text : List UInt8)
    (last : Int) : Prop where
  front : ∀ x < (start : Int), after x = before x
  inside : ∀ (k : Nat) (h : k < text.length), after (start + k) = text[k]
  behind : ∀ x, (start + gone : Int) ≤ x → x ≤ last →
    after (x + (text.length - gone)) = before x

namespace CIniFile

variable {f : CIniFile} {sect key value : List UInt8} {secE : Nat} {old : Span} {b : Buffer}

/-- A text printed over the NUL at the end. -/
theorem print_splices {text : List UInt8} (ends : f.buf.cells f.mFileSize = 0) :
    Splices f.buf.cells (f.buf.print f.mFileSize text).cells f.mFileSize 0 text f.mFileSize where
  front x before := by
    have apart : ¬ ((f.mFileSize : Int) ≤ x ∧ x ≤ f.mFileSize + text.length) := by omega
    rw [Buffer.print_cells, if_neg apart]
  inside k inside := by
    have here : (f.mFileSize : Int) ≤ f.mFileSize + k ∧
        (f.mFileSize + k : Int) ≤ f.mFileSize + text.length := by omega
    have index : (f.mFileSize + k - f.mFileSize : Int).toNat = k := by omega
    rw [Buffer.print_cells, if_pos here, index, List.getD_eq_getElem _ _ inside]
  behind x after before := by
    obtain rfl : x = f.mFileSize := by omega
    have here : (f.mFileSize : Int) ≤ f.mFileSize + (text.length - (0 : Nat)) ∧
        (f.mFileSize + (text.length - (0 : Nat)) : Int) ≤ f.mFileSize + text.length := by omega
    have index : (f.mFileSize + (text.length - (0 : Nat)) - f.mFileSize : Int).toNat =
        text.length := by omega
    rw [Buffer.print_cells, if_pos here, index, ends, List.getD_eq_default _ _ (Nat.le_refl _)]

/-- The line that `addKey` puts in. -/
def keyLine (key value : List UInt8) : List UInt8 := key ++ [equals] ++ value ++ [lineFeed]

@[simp] theorem length_keyLine (key value : List UInt8) :
    (keyLine key value).length = key.length + value.length + 2 := by
  simp only [keyLine, List.length_append, List.length_singleton]
  omega

/-- Where the bytes of the value stand in a line. -/
theorem keyLine_value {j : Nat} (inside : j < value.length) :
    (keyLine key value)[key.length + 1 + j]? = some value[j] := by
  have first : key.length + 1 + j - key.length = j + 1 := by omega
  rw [keyLine, List.append_assoc, List.append_assoc, List.getElem?_append_right (by omega), first]
  simp only [List.singleton_append, List.getElem?_cons_succ]
  rw [List.getElem?_append_left inside, List.getElem?_eq_getElem inside]

/-- Where the line break stands in a line. -/
theorem keyLine_end : (keyLine key value)[key.length + 1 + value.length]? = some lineFeed := by
  have first : key.length + 1 + value.length - key.length = value.length + 1 := by omega
  rw [keyLine, List.append_assoc, List.append_assoc, List.getElem?_append_right (by omega), first]
  simp

/-- The lengths of the arguments and of the text do not overflow an `int`. -/
def Lengths (f : CIniFile) (sect key value : List UInt8) : Prop :=
  (f.mFileSize + sect.length + key.length + value.length + 6 : Int) < 2 ^ 31

/-- `add_section` prints at the end of the text, or refuses. -/
theorem addSection_eq (lengths : f.Lengths sect key value) :
    f.addSection sect key value =
      if (f.mFileSize + sect.length + key.length + value.length + 6 : Int) > MAX_FILE_BUF_SIZE then
        .error .bufOverflow
      else .ok (f.buf.print f.mFileSize ([lineFeed] ++ sectionText sect key value)) := by
  unfold Lengths at lengths
  have sectLen : intLen sect = sect.length := intLen_eq (by omega)
  have keyLen : intLen key = key.length := intLen_eq (by omega)
  have valueLen : intLen value = value.length := intLen_eq (by omega)
  have whole : int (f.mFileSize + sect.length + key.length + value.length + 6) =
      f.mFileSize + sect.length + key.length + value.length + 6 := int_eq (by omega) lengths
  simp only [addSection, sectLen, keyLen, valueLen, whole]

/-- `add_key` makes room behind the section's line and fills it, or refuses. -/
theorem addKey_eq (lengths : f.Lengths sect key value) :
    f.addKey secE key value =
      if (f.mFileSize + key.length + value.length + 2 : Int) > MAX_FILE_BUF_SIZE then
        .error .bufOverflow
      else
        let appendLen : Int := key.length + value.length + 2
        let b := f.buf.moveBackward (f.mFileSize + appendLen) (secE + appendLen) appendLen
        let b := b.fill secE (secE + key.length) secE key
        let b := b.store (secE + key.length) equals
        let b := b.fill (secE + key.length + 1) (secE + key.length + value.length + 1)
          (secE + key.length + 1) value
        .ok (b.store (secE + key.length + value.length + 1) lineFeed) := by
  unfold Lengths at lengths
  have keyLen : intLen key = key.length := intLen_eq (by omega)
  have valueLen : intLen value = value.length := intLen_eq (by omega)
  have appended : int (key.length + value.length + 2) = key.length + value.length + 2 :=
    int_eq (by omega) (by omega)
  have whole : int (f.mFileSize + (key.length + value.length + 2)) =
      f.mFileSize + key.length + value.length + 2 := by
    rw [int_eq (by omega) (by omega)]
    omega
  have first : max 0 (key.length : Int) = key.length := by omega
  have second : max (secE + key.length + 1 : Int) (secE + key.length + value.length + 1) =
      secE + key.length + value.length + 1 := by omega
  simp only [addKey, keyLen, valueLen, appended, whole, first, second]

/-- `set_value` moves the rest of the text and fills the value in, or refuses. -/
theorem setValue_eq (lengths : f.Lengths sect key value)
    (inside : old.stop < f.mFileSize) (ordered : old.start ≤ old.stop + 1) :
    f.setValue old value =
      let appendLen : Int := value.length - old.length
      if f.mFileSize + appendLen > MAX_FILE_BUF_SIZE then .error .bufOverflow
      else
        let b :=
          if appendLen ≤ 0 then
            f.buf.moveForward (old.stop + appendLen + 1) (f.mFileSize + appendLen) appendLen
          else f.buf.moveBackward (f.mFileSize + appendLen) (old.stop + appendLen + 1) appendLen
        .ok (b.fill old.start (old.start + value.length) old.start value) := by
  unfold Lengths at lengths
  have valueLen : intLen value = value.length := intLen_eq (by omega)
  have difference : (value.length - old.stop + old.start - 1 : Int) =
      value.length - old.length := by
    simp only [Span.length]
    omega
  have appended : int (value.length - old.length) = value.length - old.length :=
    int_eq (by omega) (by omega)
  have whole : int (f.mFileSize + (value.length - old.length)) =
      f.mFileSize + (value.length - old.length) := int_eq (by omega) (by omega)
  simp only [setValue, valueLen, difference, appended, whole]

/-- A byte of a text, counted from a position. -/
theorem getD_at {text : List UInt8} {start x : Int} {k : Nat} (inside : k < text.length)
    (here : x - start = k) : text.getD (x - start).toNat 0 = text[k] := by
  have index : (x - start).toNat = k := by omega
  rw [index, List.getD_eq_getElem _ _ inside]

/-- A key that is added is spliced in. -/
theorem addKey_splices (lengths : f.Lengths sect key value)
    (done : f.addKey secE key value = .ok b) :
    Splices f.buf.cells b.cells secE 0 (keyLine key value) f.mFileSize := by
  rw [addKey_eq lengths] at done
  split at done
  case isTrue => cases done
  case isFalse room =>
    obtain rfl := Except.ok.inj done
    have back : (0 : Int) ≤ key.length + value.length + 2 := by omega
    have length := length_keyLine key value
    simp only [keyLine] at length
    constructor
    · intro x before
      rw [Buffer.store_cells, if_neg (by omega), Buffer.fill_cells, if_neg (by omega),
        Buffer.store_cells, if_neg (by omega), Buffer.fill_cells, if_neg (by omega),
        Buffer.moveBackward_cells back, if_neg (by omega)]
    · intro k within
      simp only [keyLine] at within ⊢
      rw [Buffer.store_cells, Buffer.fill_cells, Buffer.store_cells, Buffer.fill_cells]
      rcases Nat.lt_trichotomy k key.length with inKey | rfl | behindKey
      · rw [if_neg (by omega), if_neg (by omega), if_neg (by omega), if_pos (by omega),
          getD_at inKey (by omega)]
        simp [inKey]
      · rw [if_neg (by omega), if_neg (by omega), if_pos rfl]
        simp
      · obtain ⟨j, rfl⟩ : ∃ j, k = key.length + 1 + j := ⟨k - key.length - 1, by omega⟩
        by_cases inValue : j < value.length
        · rw [if_neg (by omega), if_pos (by omega), getD_at inValue (by omega)]
          exact (List.getElem_eq_iff _).mpr (keyLine_value inValue) |>.symm
        · obtain rfl : j = value.length := by omega
          rw [if_pos (by push_cast; omega)]
          exact (List.getElem_eq_iff _).mpr keyLine_end |>.symm
    · intro x after before
      simp only [keyLine]
      rw [Buffer.store_cells, if_neg (by omega), Buffer.fill_cells, if_neg (by omega),
        Buffer.store_cells, if_neg (by omega), Buffer.fill_cells, if_neg (by omega),
        Buffer.moveBackward_cells back, if_pos (by omega)]
      congr 1
      omega

/-- A value that is set takes the place of the old one. -/
theorem setValue_splices (lengths : f.Lengths sect key value)
    (inside : old.stop < f.mFileSize) (ordered : old.start ≤ old.stop + 1)
    (done : f.setValue old value = .ok b) :
    Splices f.buf.cells b.cells old.start old.length value f.mFileSize := by
  rw [setValue_eq lengths inside ordered] at done
  dsimp only at done
  split at done
  case isTrue => cases done
  case isFalse room =>
    obtain rfl := Except.ok.inj done
    have whole : (old.length : Int) = old.stop + 1 - old.start := by
      simp only [Span.length]
      omega
    have moved : ∀ x, (if (value.length - old.length : Int) ≤ 0 then
          f.buf.moveForward (old.stop + (value.length - old.length) + 1)
            (f.mFileSize + (value.length - old.length)) (value.length - old.length)
        else f.buf.moveBackward (f.mFileSize + (value.length - old.length))
          (old.stop + (value.length - old.length) + 1) (value.length - old.length)).cells x =
        if old.stop + (value.length - old.length) + 1 ≤ x ∧
          x ≤ f.mFileSize + (value.length - old.length) then
          f.buf.cells (x - (value.length - old.length)) else f.buf.cells x := by
      intro x
      split
      · exact Buffer.moveForward_cells ‹_› x
      · exact Buffer.moveBackward_cells (by omega) x
    constructor
    · intro x before
      rw [Buffer.fill_cells, if_neg (by omega), moved, if_neg (by omega)]
    · intro k within
      rw [Buffer.fill_cells, if_pos (by omega), getD_at within (by omega)]
    · intro x after before
      rw [Buffer.fill_cells, if_neg (by omega), moved, if_pos (by omega)]
      congr 1
      omega

theorem length_sectionText (sect key value : List UInt8) :
    (sectionText sect key value).length = sect.length + key.length + value.length + 5 := by
  simp only [sectionText, List.length_append, List.length_cons, List.length_nil]
  omega

/-! The last byte that a branch writes is the NUL behind the new text. -/

/-- When `add_section` leaves the buffer. -/
theorem addSection_overrun (lengths : f.Lengths sect key value)
    (done : f.addSection sect key value = .ok b) :
    b.overrun = true ↔ f.buf.overrun = true ∨
      (MAX_FILE_BUF_SIZE : Int) ≤ f.mFileSize + sect.length + key.length + value.length + 6 := by
  rw [addSection_eq lengths] at done
  split at done
  case isTrue => cases done
  case isFalse room =>
    obtain rfl := Except.ok.inj done
    rw [Buffer.print_overrun]
    refine or_congr_right ?_
    simp only [Buffer.Outside, List.length_append, List.length_singleton, length_sectionText]
    omega

/-- When `add_key` leaves the buffer. -/
theorem addKey_overrun (lengths : f.Lengths sect key value) (inside : secE ≤ f.mFileSize)
    (done : f.addKey secE key value = .ok b) :
    b.overrun = true ↔ f.buf.overrun = true ∨
      (MAX_FILE_BUF_SIZE : Int) ≤ f.mFileSize + key.length + value.length + 2 := by
  rw [addKey_eq lengths] at done
  split at done
  case isTrue => cases done
  case isFalse room =>
    obtain rfl := Except.ok.inj done
    rw [Buffer.store_overrun, Buffer.fill_overrun, Buffer.store_overrun, Buffer.fill_overrun,
      Buffer.moveBackward_overrun]
    simp only [or_assoc]
    refine or_congr_right ?_
    simp only [Buffer.Outside]
    omega

/-- When `set_value` leaves the buffer. -/
theorem setValue_overrun (lengths : f.Lengths sect key value) (inside : old.stop < f.mFileSize)
    (ordered : old.start ≤ old.stop + 1) (bounded : f.mFileSize < MAX_FILE_BUF_SIZE)
    (done : f.setValue old value = .ok b) :
    b.overrun = true ↔ f.buf.overrun = true ∨
      (MAX_FILE_BUF_SIZE : Int) ≤ f.mFileSize + (value.length - old.length) := by
  rw [setValue_eq lengths inside ordered] at done
  dsimp only at done
  split at done
  case isTrue => cases done
  case isFalse room =>
    obtain rfl := Except.ok.inj done
    have whole : (old.length : Int) = old.stop + 1 - old.start := by
      simp only [Span.length]
      omega
    rw [Buffer.fill_overrun]
    split
    · rw [Buffer.moveForward_overrun, or_assoc]
      refine or_congr_right ?_
      simp only [Buffer.Outside]
      omega
    · rw [Buffer.moveBackward_overrun, or_assoc]
      refine or_congr_right ?_
      simp only [Buffer.Outside]
      omega

end CIniFile

end Taomee.IniFile
