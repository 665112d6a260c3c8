import Taomee.IniFile.Edits
import Taomee.Library.Runs

/-!
# ini-file: the buffer bound

The check of each branch lets a text in whose NUL is one byte behind the buffer, and the branch
for an empty file checks nothing. Away from these the text and its NUL stay in the buffer.
-/

namespace Taomee.IniFile

open Runs

/-- A call of `write_string` with what `fopen` and `fputs` answer. -/
structure WriteCall where
  sect : Option (List UInt8)
  key : Option (List UInt8)
  value : Option (List UInt8)
  fopenOk : Bool
  fputsOk : Bool

/-- The strings of a call whose arguments are accepted. -/
structure WriteCall.Gives (call : WriteCall) (sect key value : List UInt8) : Prop where
  sect_eq : call.sect = some sect
  key_eq : call.key = some key
  value_eq : call.value = some value
  sect_ne : sect ≠ []
  key_ne : key ≠ []
  value_ne : value ≠ []

theorem WriteCall.Gives.unique {call : WriteCall} {sect key value sect' key' value' : List UInt8}
    (gives : call.Gives sect key value) (given : call.Gives sect' key' value') :
    sect = sect' ∧ key = key' ∧ value = value' :=
  ⟨Option.some.inj (gives.sect_eq.symm.trans given.sect_eq),
    Option.some.inj (gives.key_eq.symm.trans given.key_eq),
    Option.some.inj (gives.value_eq.symm.trans given.value_eq)⟩

/-- The place that the parser finds for the edit lies in the text. -/
def Parsed.Within (size : Nat) : Parsed → Prop
  | ⟨none, _⟩ => True
  | ⟨some sec, none⟩ => sec.stop ≤ size
  | ⟨some _, some entry⟩ => entry.value.stop < size

namespace CIniFile

variable {f : CIniFile} {call : WriteCall} {sect key value : List UInt8}

def attempt (f : CIniFile) (call : WriteCall) : Option (Int × CIniFile) :=
  f.writeString call.sect call.key call.value call.fopenOk call.fputsOk

/-- The object after a call. -/
def write (f : CIniFile) (call : WriteCall) : CIniFile :=
  match f.attempt call with
  | some (_, f) => f
  | none => f

/-- The text and its NUL fit the buffer, and no byte outside of it was written. -/
structure Bounded (f : CIniFile) : Prop where
  inside : f.buf.overrun = false
  size : f.mFileSize < MAX_FILE_BUF_SIZE
  ends : ∃ n < MAX_FILE_BUF_SIZE, f.buf.cells (n : Nat) = 0

/-- The length of the text that a write makes of what the parser finds. -/
def newSize (f : CIniFile) (sect key value : List UInt8) : Parsed → Int
  | ⟨none, _⟩ => f.mFileSize + sect.length + key.length + value.length + 6
  | ⟨some _, none⟩ => f.mFileSize + key.length + value.length + 2
  | ⟨some _, some entry⟩ => f.mFileSize + (value.length - entry.value.length)

/-- A stretch of the text, and what it is replaced by. -/
structure Stretch where
  start : Nat
  gone : Nat
  text : List UInt8

/-- What a write does to the text, by what the parser finds. -/
def stretch (f : CIniFile) (sect key value : List UInt8) : Parsed → Stretch
  | ⟨none, _⟩ => ⟨f.mFileSize, 0, [lineFeed] ++ sectionText sect key value⟩
  | ⟨some sec, none⟩ => ⟨sec.stop, 0, keyLine key value⟩
  | ⟨some _, some entry⟩ => ⟨entry.value.start, entry.value.length, value⟩

/-- The recorded size is where the text ends, what the parser finds lies in the text, and no
length overflows an `int`. -/
def InText (f : CIniFile) (call : WriteCall) : Prop :=
  ∀ sect key value, call.Gives sect key value → f.Lengths sect key value ∧
    (f.mFileSize ≠ 0 → f.buf.cells f.mFileSize = 0 ∧
      ∃ parsed, parseFile f.buf.cells sect key = some parsed ∧ parsed.Within f.mFileSize)

/-- An empty file gets a text that fits; another one does not get a text as long as the buffer. -/
def Room (f : CIniFile) (call : WriteCall) : Prop :=
  ∀ sect key value, call.Gives sect key value →
    if f.mFileSize = 0 then sect.length + key.length + value.length + 5 < MAX_FILE_BUF_SIZE
    else ∀ parsed, parseFile f.buf.cells sect key = some parsed →
      f.newSize sect key value parsed ≠ MAX_FILE_BUF_SIZE

/-! ## One call -/

theorem newSize_eq (f : CIniFile) (sect key value : List UInt8) (parsed : Parsed) :
    f.newSize sect key value parsed = f.mFileSize + ((f.stretch sect key value parsed).text.length -
      (f.stretch sect key value parsed).gone) := by
  rcases parsed with ⟨_ | sec, _ | entry⟩ <;>
    simp only [newSize, stretch, List.length_append, List.length_singleton, length_sectionText,
      length_keyLine] <;> omega

/-- An edit of a text is refused for want of room, or replaces a stretch of the text. -/
theorem edit_spec (filled : f.mFileSize ≠ 0) (bounded : f.mFileSize < MAX_FILE_BUF_SIZE)
    (lengths : f.Lengths sect key value) (ends : f.buf.cells f.mFileSize = 0) {parsed : Parsed}
    (found : parseFile f.buf.cells sect key = some parsed) (within : parsed.Within f.mFileSize) :
    let stretch := f.stretch sect key value parsed
    stretch.start + stretch.gone ≤ f.mFileSize ∧
      (f.edit sect key value = some (.error .bufOverflow) ∧
          MAX_FILE_BUF_SIZE < f.newSize sect key value parsed ∨
        ∃ b, f.edit sect key value = some (.ok b) ∧
          Splices f.buf.cells b.cells stretch.start stretch.gone stretch.text f.mFileSize ∧
          f.newSize sect key value parsed ≤ MAX_FILE_BUF_SIZE ∧
          (b.overrun = true ↔ f.buf.overrun = true ∨
            f.newSize sect key value parsed = MAX_FILE_BUF_SIZE)) := by
  rcases parsed with ⟨_ | sec, entry⟩
  · have edited : f.edit sect key value = some (f.addSection sect key value) := by
      simp only [edit, filled, if_false, found]
    have done := addSection_eq lengths
    refine ⟨Nat.le_refl _, ?_⟩
    rw [edited]
    split at done
    case isTrue full => exact .inl ⟨congrArg some done, full⟩
    case isFalse room =>
      refine .inr ⟨_, congrArg some done, print_splices ends, by dsimp only [newSize]; omega, ?_⟩
      rw [addSection_overrun lengths done]
      exact or_congr_right (by dsimp only [newSize]; omega)
  rcases entry with _ | entry
  · have edited : f.edit sect key value = some (f.addKey sec.stop key value) := by
      simp only [edit, filled, if_false, found]
    have done : f.addKey sec.stop key value = _ := addKey_eq lengths
    refine ⟨within, ?_⟩
    rw [edited]
    split at done
    case isTrue full => exact .inl ⟨congrArg some done, full⟩
    case isFalse room =>
      refine .inr ⟨_, congrArg some done, addKey_splices lengths done,
        by dsimp only [newSize]; omega, ?_⟩
      rw [addKey_overrun lengths within done]
      exact or_congr_right (by dsimp only [newSize]; omega)
  · have edited : f.edit sect key value = some (f.setValue entry.value value) := by
      simp only [edit, filled, if_false, found]
    have ordered : entry.value.start ≤ entry.value.stop + 1 := parseLoop_ordered found
    have inside : entry.value.stop < f.mFileSize := within
    have whole : entry.value.start + entry.value.length ≤ f.mFileSize := by
      simp only [Span.length]
      omega
    have done := setValue_eq lengths inside ordered
    refine ⟨whole, ?_⟩
    rw [edited]
    dsimp only at done
    split at done
    case isTrue full => exact .inl ⟨congrArg some done, full⟩
    case isFalse room =>
      refine .inr ⟨_, congrArg some done, setValue_splices lengths inside ordered done,
        by dsimp only [newSize]; omega, ?_⟩
      rw [setValue_overrun lengths inside ordered bounded done]
      exact or_congr_right (by dsimp only [newSize]; omega)

/-- A text printed to an empty file. -/
theorem edit_empty (empty : f.mFileSize = 0) :
    f.edit sect key value = some (.ok (f.buf.print 0 (sectionText sect key value))) := by
  simp only [edit, empty, if_true]

/-- Reading the size back finds the first NUL. -/
theorem save_bounded {buf : Buffer} (inside : buf.overrun = false)
    (size : f.mFileSize < MAX_FILE_BUF_SIZE)
    (ends : ∃ n < MAX_FILE_BUF_SIZE, buf.cells (n : Nat) = 0) (fopenOk fputsOk : Bool) :
    ∃ ret f', save { f with buf := buf } fopenOk fputsOk = some (ret, f') ∧ f'.Bounded := by
  unfold save
  split
  · exact ⟨_, _, rfl, inside, size, ends⟩
  split
  · exact ⟨_, _, rfl, inside, size, ends⟩
  · obtain ⟨n, within, nul⟩ := ends
    obtain ⟨j, before, scanned⟩ : ∃ j ≤ n, scan (fun c => !endOfString c) buf.cells steps 0 =
        some j :=
      scan_finds (by simp [endOfString, nul]) (Nat.zero_le n) (by simp only [steps]; omega)
    rw [scanned]
    exact ⟨_, _, rfl, inside, by dsimp only; omega, n, within, nul⟩

/-- Saving leaves the buffer alone. -/
theorem save_buf {f' : CIniFile} {fopenOk fputsOk : Bool} {ret : Int}
    (saved : f.save fopenOk fputsOk = some (ret, f')) : f'.buf = f.buf ∧ f'.inited = f.inited := by
  unfold save at saved
  split at saved
  · obtain ⟨-, rfl⟩ := Prod.mk.inj (Option.some.inj saved)
    exact ⟨rfl, rfl⟩
  split at saved
  · obtain ⟨-, rfl⟩ := Prod.mk.inj (Option.some.inj saved)
    exact ⟨rfl, rfl⟩
  split at saved
  · cases saved
  · obtain ⟨-, rfl⟩ := Prod.mk.inj (Option.some.inj saved)
    exact ⟨rfl, rfl⟩

/-- A call with accepted strings edits the text. -/
theorem attempt_eq (inited : f.inited = true) (gives : call.Gives sect key value)
    (lengths : f.Lengths sect key value) :
    f.attempt call = f.finish (f.edit sect key value) call.fopenOk call.fputsOk := by
  unfold Lengths at lengths
  have sectLen : intLen sect = sect.length := intLen_eq (by omega)
  have keyLen : intLen key = key.length := intLen_eq (by omega)
  have valueLen : intLen value = value.length := intLen_eq (by omega)
  have given : ¬ (intLen sect = 0 ∨ intLen key = 0 ∨ intLen value = 0) := by
    have first := List.length_pos_iff.mpr gives.sect_ne
    have second := List.length_pos_iff.mpr gives.key_ne
    have third := List.length_pos_iff.mpr gives.value_ne
    omega
  rw [attempt, gives.sect_eq, gives.key_eq, gives.value_eq, writeString,
    if_neg (by simp [inited]), if_neg given]

/-- A call that is not accepted changes the error only. -/
theorem attempt_refused (inited : f.inited = true)
    (refused : ∀ sect key value, ¬ call.Gives sect key value) :
    f.attempt call = some (f.fail .parameter) := by
  unfold attempt writeString
  rw [if_neg (by simp [inited])]
  cases sectEq : call.sect with
  | none => rfl
  | some sect =>
    cases keyEq : call.key with
    | none => rfl
    | some key =>
      cases valueEq : call.value with
      | none => rfl
      | some value =>
        refine if_pos ?_
        by_contra given
        simp only [not_or] at given
        have nonempty : ∀ text : List UInt8, intLen text ≠ 0 → text ≠ [] := by
          rintro _ some' rfl
          exact some' rfl
        exact refused sect key value ⟨sectEq, keyEq, valueEq, nonempty _ given.1,
          nonempty _ given.2.1, nonempty _ given.2.2⟩

theorem writeString_inited {f' : CIniFile} {sect key value : Option (List UInt8)}
    {fopenOk fputsOk : Bool} {ret : Int}
    (written : f.writeString sect key value fopenOk fputsOk = some (ret, f')) :
    f'.inited = f.inited := by
  have failed : ∀ errno, some (f.fail errno) = some (ret, f') → f'.inited = f.inited := by
    intro errno same
    obtain ⟨-, rfl⟩ := Prod.mk.inj (Option.some.inj same)
    rfl
  unfold writeString at written
  split at written
  · exact failed _ written
  split at written
  · split at written
    · exact failed _ written
    unfold finish at written
    split at written
    · cases written
    · exact failed _ written
    · exact (save_buf written).2
  · exact failed _ written

theorem Bounded.withErrno (bounded : f.Bounded) (errno : Errno) :
    Bounded { f with mErrno := errno } := ⟨bounded.inside, bounded.size, bounded.ends⟩

theorem room_iff (gives : call.Gives sect key value) :
    f.Room call ↔
      if f.mFileSize = 0 then sect.length + key.length + value.length + 5 < MAX_FILE_BUF_SIZE
      else ∀ parsed, parseFile f.buf.cells sect key = some parsed →
        f.newSize sect key value parsed ≠ MAX_FILE_BUF_SIZE := by
  constructor
  · exact fun room => room sect key value gives
  · intro room sect' key' value' given
    obtain ⟨rfl, rfl, rfl⟩ := gives.unique given
    exact room

/-- An edit that leaves the buffer is not undone. -/
theorem not_bounded_of_overrun {buf : Buffer} (outside : buf.overrun = true)
    {fopenOk fputsOk : Bool} :
    ¬ ∃ ret f', save { f with buf := buf } fopenOk fputsOk = some (ret, f') ∧ f'.Bounded := by
  rintro ⟨ret, f', saved, bounded⟩
  have same := (save_buf saved).1
  have inside := bounded.inside
  rw [same, outside] at inside
  cases inside

/-- A call whose parser stays in the text keeps the bound exactly when there is room. -/
theorem attempt_bounded_iff (inited : f.inited = true) (bounded : f.Bounded)
    (inText : f.InText call) :
    (∃ ret f', f.attempt call = some (ret, f') ∧ f'.Bounded) ↔ f.Room call := by
  by_cases accepted : ∃ sect key value, call.Gives sect key value
  case neg =>
    have refused : ∀ sect key value, ¬ call.Gives sect key value :=
      fun sect key value gives => accepted ⟨sect, key, value, gives⟩
    rw [attempt_refused inited refused]
    refine iff_of_true ⟨_, _, rfl, bounded.withErrno _⟩ ?_
    exact fun sect key value gives => absurd gives (refused sect key value)
  obtain ⟨sect, key, value, gives⟩ := accepted
  obtain ⟨lengths, text⟩ := inText sect key value gives
  have inside := bounded.inside
  rw [attempt_eq inited gives lengths, room_iff gives]
  by_cases empty : f.mFileSize = 0
  · rw [if_pos empty, edit_empty empty]
    have printed : (f.buf.print 0 (sectionText sect key value)).overrun = true ↔ _ :=
      Buffer.print_overrun
    rw [length_sectionText, inside] at printed
    simp only [Buffer.Outside, Bool.false_eq_true, false_or] at printed
    constructor
    · intro done
      by_contra full
      exact not_bounded_of_overrun (printed.mpr (by omega)) done
    · intro room
      have within : (f.buf.print 0 (sectionText sect key value)).overrun = false := by
        rw [Bool.eq_false_iff]
        exact fun outside => by have := printed.mp outside; omega
      have ends : (f.buf.print 0 (sectionText sect key value)).cells
          (sect.length + key.length + value.length + 5 : Nat) = 0 := by
        have here : (0 : Int) ≤ (sect.length + key.length + value.length + 5 : Nat) ∧
            ((sect.length + key.length + value.length + 5 : Nat) : Int) ≤
              0 + (sectionText sect key value).length := by
          rw [length_sectionText]
          omega
        rw [Buffer.print_cells, if_pos here, List.getD_eq_default]
        rw [length_sectionText]
        omega
      exact save_bounded within bounded.size ⟨_, room, ends⟩ call.fopenOk call.fputsOk
  · obtain ⟨ends, parsed, found, within⟩ := text empty
    rw [if_neg empty]
    have room_iff' : (∀ parsed', parseFile f.buf.cells sect key = some parsed' →
        f.newSize sect key value parsed' ≠ MAX_FILE_BUF_SIZE) ↔
          f.newSize sect key value parsed ≠ MAX_FILE_BUF_SIZE := by
      rw [found]
      simp
    rw [room_iff']
    have size := f.newSize_eq sect key value parsed
    obtain ⟨before, ⟨refused, full⟩ | ⟨b, edited, splices, fits, outside⟩⟩ :=
      edit_spec empty bounded.size lengths ends found within
    · rw [refused]
      exact iff_of_true ⟨_, _, rfl, bounded.withErrno _⟩ (by omega)
    · rw [edited]
      rw [inside] at outside
      simp only [Bool.false_eq_true, false_or] at outside
      constructor
      · intro done full
        exact not_bounded_of_overrun (outside.mpr full) done
      · intro room
        have within : b.overrun = false := Bool.eq_false_iff.mpr (mt outside.mp room)
        have nul : b.cells (f.mFileSize + (f.stretch sect key value parsed).text.length -
            (f.stretch sect key value parsed).gone : Nat) = 0 := by
          have moved := splices.behind f.mFileSize (by omega) (Int.le_refl _)
          rw [ends] at moved
          rw [← moved]
          congr 1
          omega
        exact save_bounded within bounded.size ⟨_, by omega, nul⟩ call.fopenOk call.fputsOk

/-! ## Runs -/

theorem loadLoop_spec {buf buf' : Buffer} {i n : Nat} {bytes : List UInt8}
    (loaded : loadLoop buf i bytes = .ok (buf', n)) (inside : buf.overrun = false)
    (start : i < MAX_FILE_BUF_SIZE) : n < MAX_FILE_BUF_SIZE ∧ buf'.overrun = false := by
  have stored : ∀ c, (buf.store i c).overrun = false := by
    intro c
    rw [Bool.eq_false_iff, Ne, Buffer.store_overrun, inside]
    simp only [Buffer.Outside, Bool.false_eq_true, false_or]
    omega
  induction bytes generalizing buf i with
  | nil =>
    obtain ⟨rfl, rfl⟩ := Prod.mk.inj (Except.ok.inj loaded)
    exact ⟨start, stored 255⟩
  | cons c rest ih =>
    rw [loadLoop] at loaded
    split at loaded
    · obtain ⟨rfl, rfl⟩ := Prod.mk.inj (Except.ok.inj loaded)
      exact ⟨start, stored c⟩
    split at loaded
    · cases loaded
    case isFalse room =>
      refine ih loaded (stored c) (by omega) fun c' => ?_
      rw [Bool.eq_false_iff, Ne, Buffer.store_overrun, stored c]
      simp only [Buffer.Outside, Bool.false_eq_true, false_or]
      omega

/-- A file that is loaded leaves room for its NUL. -/
theorem loadIniFile_bounded {file : Option (List UInt8)} (inside : f.buf.overrun = false)
    (loaded : (f.loadIniFile file).1 = 0) : (f.loadIniFile file).2.Bounded := by
  have positive : 0 < MAX_FILE_BUF_SIZE := by decide
  have last : ∀ {buf : Buffer} {n : Nat}, buf.overrun = false → n < MAX_FILE_BUF_SIZE →
      (buf.store n 0).overrun = false := by
    intro buf n inside within
    rw [Bool.eq_false_iff, Ne, Buffer.store_overrun, inside]
    simp only [Buffer.Outside, Bool.false_eq_true, false_or]
    omega
  cases file with
  | none => exact ⟨last inside positive, positive, 0, positive, Buffer.store_self 0⟩
  | some bytes =>
    unfold loadIniFile at loaded ⊢
    dsimp only at loaded ⊢
    split at loaded
    · cases loaded
    case h_2 buf n looped =>
      obtain ⟨within, kept⟩ := loadLoop_spec looped inside positive
      exact ⟨last kept within, within, n, within, Buffer.store_self 0⟩

theorem loadIniFile_inited (f : CIniFile) (file : Option (List UInt8)) :
    (f.loadIniFile file).2.inited = f.inited := by
  unfold loadIniFile
  split
  · rfl
  · split <;> rfl

/-- From a loaded file on, while every call finds its place in the text and has room, the text
and its NUL stay in the buffer; a call that finds its place without room leaves it. -/
theorem buffer_bounded_iff {f₀ : CIniFile} {file : Option (List UInt8)}
    (inited : f₀.inited = true) (inside : f₀.buf.overrun = false)
    (loaded : (f₀.loadIniFile file).1 = 0)
    (run : Reaches write (fun f call => f.InText call ∧ f.Room call) (f₀.loadIniFile file).2 f) :
    f.Bounded ∧ ∀ call, f.InText call →
      ((∃ ret f', f.attempt call = some (ret, f') ∧ f'.Bounded) ↔ f.Room call) := by
  have kept : f.Bounded ∧ f.inited = true := by
    apply run.invariant
    · exact ⟨loadIniFile_bounded inside loaded, (loadIniFile_inited _ _).trans inited⟩
    · rintro before call ⟨bounded, inited⟩ ⟨inText, room⟩
      obtain ⟨ret, f', done, after⟩ := (attempt_bounded_iff inited bounded inText).mpr room
      rw [write, done]
      exact ⟨after, (writeString_inited done).trans inited⟩
  obtain ⟨bounded, inited⟩ := kept
  exact ⟨bounded, fun call inText => attempt_bounded_iff inited bounded inText⟩

/-- A new object at a missing file. -/
def missingFile : CIniFile :=
  (loadIniFile ⟨true, ⟨fun _ => 0, false⟩, 0, .success⟩ none).2

/-- `k=v` in section `s`. -/
def firstWrite : WriteCall := ⟨some [115], some [107], some [118], true, true⟩

/-- `k=vv`, with a failing `fputs`. -/
def secondWrite : WriteCall := ⟨some [115], some [107], some [118, 118], true, false⟩

theorem firstWrite_size : (missingFile.write firstWrite).mFileSize = 8 := by decide +kernel

theorem firstWrite_parses : parseFile (missingFile.write firstWrite).buf.cells [115] [107] =
    some ⟨some ⟨1, 4⟩, some ⟨⟨4, 4⟩, ⟨6, 6⟩⟩⟩ := by
  decide +kernel

/-- After the first write the value is found in the text. -/
theorem firstWrite_inText {call : WriteCall} (short : value.length < 8)
    (gives : call.Gives [115] [107] value) : (missingFile.write firstWrite).InText call := by
  intro sect' key' value' given
  obtain ⟨rfl, rfl, rfl⟩ := gives.unique given
  refine ⟨?_, fun _ => ⟨by decide +kernel, _, firstWrite_parses, ?_⟩⟩
  · simp only [Lengths, firstWrite_size, List.length_singleton]
    omega
  · exact (by decide : 6 < 8)

theorem buffer_bounded_iff_short : ((missingFile.write firstWrite).write secondWrite).Bounded := by
  have loaded : (loadIniFile ⟨true, ⟨fun _ => 0, false⟩, 0, .success⟩ none).1 = 0 := rfl
  have first : missingFile.InText firstWrite ∧ missingFile.Room firstWrite := by
    constructor
    · rintro _ _ _ ⟨⟨⟩, ⟨⟩, ⟨⟩, -, -, -⟩
      exact ⟨by simp [Lengths, missingFile, loadIniFile], fun filled => absurd rfl filled⟩
    · rintro _ _ _ ⟨⟨⟩, ⟨⟩, ⟨⟩, -, -, -⟩
      decide
  have second : (missingFile.write firstWrite).InText secondWrite ∧
      (missingFile.write firstWrite).Room secondWrite := by
    have gives : secondWrite.Gives [115] [107] [118, 118] :=
      ⟨rfl, rfl, rfl, List.cons_ne_nil _ _, List.cons_ne_nil _ _, List.cons_ne_nil _ _⟩
    refine ⟨firstWrite_inText (by decide) gives, (room_iff gives).mpr ?_⟩
    rw [if_neg (by rw [firstWrite_size]; decide)]
    intro parsed found
    obtain rfl := Option.some.inj (firstWrite_parses.symm.trans found)
    simp only [newSize, firstWrite_size]
    decide
  have opened : Reaches write (fun f call => f.InText call ∧ f.Room call) missingFile
      (missingFile.write firstWrite) := .call .refl first
  exact (buffer_bounded_iff rfl rfl loaded (.call opened second)).1

/-- A write to an empty file whose text fits prints it at the start of the buffer. -/
theorem missingFile_printed (sectNe : sect ≠ []) (keyNe : key ≠ []) (valueNe : value ≠ [])
    (fits : sect.length + key.length + value.length + 5 ≤ MAX_FILE_BUF_SIZE) :
    ∃ f', missingFile.attempt ⟨some sect, some key, some value, true, true⟩ = some (0, f') ∧
      f'.buf = missingFile.buf.print 0 (sectionText sect key value) := by
  have gives : WriteCall.Gives ⟨some sect, some key, some value, true, true⟩ sect key value :=
    ⟨rfl, rfl, rfl, sectNe, keyNe, valueNe⟩
  have limit : MAX_FILE_BUF_SIZE = 1048576 := rfl
  have empty : missingFile.mFileSize = 0 := rfl
  have lengths : missingFile.Lengths sect key value := by
    simp only [Lengths]
    omega
  have length := length_sectionText sect key value
  rw [attempt_eq rfl gives lengths, edit_empty empty]
  generalize sectionText sect key value = text at length
  have nul : (missingFile.buf.print 0 text).cells (text.length : Nat) = 0 := by
    rw [Buffer.print_cells, if_pos (by omega), List.getD_eq_default]
    omega
  obtain ⟨j, -, scanned⟩ : ∃ j ≤ text.length,
      scan (fun c => !endOfString c) (missingFile.buf.print 0 text).cells steps 0 = some j :=
    scan_finds (by simp [endOfString, nul]) (Nat.zero_le _) (by simp only [steps]; omega)
  simp only [finish, save, scanned]
  exact ⟨_, rfl, rfl⟩

/-- A text that fills the whole buffer of an empty file has its NUL behind it. -/
theorem missingFile_overrun (sectNe : sect ≠ []) (keyNe : key ≠ []) (valueNe : value ≠ [])
    (full : sect.length + key.length + value.length + 5 = MAX_FILE_BUF_SIZE) :
    ∃ ret f', missingFile.attempt ⟨some sect, some key, some value, true, true⟩ =
      some (ret, f') ∧ f'.buf.overrun = true := by
  obtain ⟨f', done, printed⟩ := missingFile_printed sectNe keyNe valueNe (Nat.le_of_eq full)
  have length := length_sectionText sect key value
  refine ⟨0, f', done, ?_⟩
  rw [printed]
  refine Buffer.print_overrun.mpr (.inr ⟨?_, .inr ?_⟩) <;> omega

theorem empty_file_overrun :
    ∃ ret f', missingFile.attempt
      ⟨some [115], some [107], some (List.replicate 1048569 118), true, true⟩ = some (ret, f') ∧
        f'.buf.overrun = true := by
  have value_ne : List.replicate 1048569 (118 : UInt8) ≠ [] :=
    List.ne_nil_of_length_pos (by rw [List.length_replicate]; omega)
  refine missingFile_overrun (List.cons_ne_nil _ _) (List.cons_ne_nil _ _) value_ne ?_
  rw [List.length_replicate]
  rfl

end CIniFile

end Taomee.IniFile
