import Mathlib.Data.List.TakeWhile
import Taomee.IniFile.Places

/-!
# ini-file: what was written is read back

A write to a text that may end where it does, and a read of the same section and key.
-/

namespace Taomee.IniFile

/-- What holds of every byte holds of 256 numbers, which can be gone through. -/
theorem forall_byte {holds : UInt8 → Prop} (all : ∀ n : Fin 256, holds (UInt8.ofFin n))
    (c : UInt8) : holds c := all c.toFin

namespace CIniFile

def text (f : CIniFile) : List UInt8 := (List.range f.mFileSize).map fun i : Nat => f.buf.cells i

variable {f f' : CIniFile} {call : WriteCall} {sect key value : List UInt8}

@[simp] theorem length_text (f : CIniFile) : f.text.length = f.mFileSize := by
  rw [text, List.length_map, List.length_range]

theorem Sized.holds (sized : f.Sized) : Holds f.buf.cells f.text where
  bytes k inside := by simp [CIniFile.text]
  ends := by
    rw [length_text]
    exact sized.ends
  nonzero := by
    intro nul
    simp only [CIniFile.text, List.mem_map, List.mem_range] at nul
    obtain ⟨k, inside, zero⟩ := nul
    exact sized.text k inside zero

/-- The recorded size is that of the text, the parser stays in it, and where it does not have the
section it does not end in an open header. -/
structure Editable (f : CIniFile) (sect key : List UInt8) : Prop where
  inited : f.inited = true
  sized : f.Sized
  bounded : f.mFileSize < MAX_FILE_BUF_SIZE
  fine : (reading sect key f.text).Fine sect key
  closed : (reading sect key f.text).sec = none →
    ∀ name, (reading sect key f.text).mode ≠ .header name

/-- Where the parser stays in the text, it finds places in it. -/
theorem Editable.within (ready : f.Editable sect key) :
    ((reading sect key f.text).finish key).1.Within f.mFileSize := by
  have places := ready.sized.holds.places ready.fine
  generalize ((reading sect key f.text).finish key).1 = parsed at places ⊢
  rcases parsed with ⟨_ | sec, _ | entry⟩
  · trivial
  · trivial
  · rw [← length_text]
    exact places.1
  · obtain ⟨i, stop, at_⟩ := places
    have noEquals : f.buf.cells stop ≠ equals := by
      rcases at_.ends with broken | past
      · intro same
        rw [same] at broken
        cases broken
      · rw [past, ready.sized.holds.ends]
        decide
    obtain ⟨-, j, low, high, -, -, -, rfl⟩ := lineEntry_spec noEquals at_.line
    have inside := at_.inside
    rw [length_text] at inside
    have bound := (trimToken_inside f.buf.cells (j + 1) (stop - 1)).2
    show (trimToken f.buf.cells (j + 1) (stop - 1)).stop < f.mFileSize
    omega

/-- The three edits of a text put the value where the parser finds it. -/
theorem Editable.reads_splices (ready : f.Editable sect key) {parsed : Parsed} {b : Buffer}
    (found : ((reading sect key f.text).finish key).1 = parsed) (cleanSect : CleanSection sect)
    (cleanKey : CleanKey key) (oneLine : OneLine value)
    (splices : Splices f.buf.cells b.cells (f.stretch sect key value parsed).start
      (f.stretch sect key value parsed).gone (f.stretch sect key value parsed).text f.mFileSize)
    (fits : f.newSize sect key value parsed < MAX_FILE_BUF_SIZE) :
    Reads b.cells sect key value := by
  have holds := ready.sized.holds
  have places := holds.places ready.fine
  rw [found] at places
  rw [← length_text] at splices
  rcases parsed with ⟨_ | sec, _ | entry⟩
  · obtain ⟨-, noSec, mode⟩ := places
    have traced := holds.traced sect key (Nat.le_refl f.text.length)
    rw [upTo_length] at traced
    have nonzero : 0 ∉ [lineFeed] ++ sectionText sect key value :=
      not_mem_stretch cleanSect.nonzero cleanKey.nonzero oneLine.nonzero f ⟨none, none⟩
    have splices : Splices f.buf.cells b.cells f.text.length 0
        ([lineFeed] ++ sectionText sect key value) f.text.length := by
      simpa only [stretch, length_text] using splices
    have holds' := splices.holds holds (Nat.le_refl _) nonzero
    have length := length_spliced ([lineFeed] ++ sectionText sect key value)
      (Nat.le_refl (f.text.length + 0))
    have section_ := length_sectionText sect key value
    obtain ⟨atFeed, atSection⟩ := At.append splices.at_
    have feed : b.cells (f.text.length : Nat) = lineFeed := by simpa using atFeed 0 (by simp)
    simp only [List.length_append, List.length_singleton] at length
    have next := holds'.upTo_succ sect key (show f.text.length < _ by omega)
    rw [upTo_spliced (Nat.le_refl _) (Nat.le_refl _), upTo_length, feed] at next
    have place : ∃ mode, upTo sect key
        (spliced f.text f.text.length 0 ([lineFeed] ++ sectionText sect key value))
        (f.text.length + 1) = ⟨f.text.length + 1, mode, none⟩ ∧
        (mode = .start ∨ mode = .blank) := by
      rcases mode with start | mid | ⟨name, header⟩
      · rw [traced.eq start, noSec] at next
        exact ⟨.blank, next, .inr rfl⟩
      · rw [traced.eq mid, noSec] at next
        exact ⟨.start, next, .inl rfl⟩
      · exact absurd header (ready.closed noSec name)
    obtain ⟨mode', place, outside⟩ := place
    simp only [newSize] at fits
    have whole := length_text f
    exact reads_sectionText holds' (by omega) place outside cleanSect cleanKey oneLine atSection
      (by omega)
  · cases places.1
  · obtain ⟨inside, broken, before, last, place⟩ := places
    have nonzero : 0 ∉ keyLine key value :=
      not_mem_stretch cleanSect.nonzero cleanKey.nonzero oneLine.nonzero f ⟨some sec, none⟩
    have splices : Splices f.buf.cells b.cells sec.stop 0 (keyLine key value) f.text.length :=
      splices
    have holds' := splices.holds holds inside nonzero
    have length := length_spliced (keyLine key value) (show sec.stop + 0 ≤ _ from inside)
    rw [length_keyLine, length_text] at length
    simp only [newSize] at fits
    have first : b.cells (sec.stop - 1) = f.buf.cells (sec.stop - 1) :=
      splices.front _ (by show _ < (sec.stop : Int); omega)
    refine reads_keyLine holds' (by omega) ((upTo_spliced inside (Nat.le_refl _)).trans place)
      (by rw [first]; exact last) cleanKey oneLine splices.at_ ?_
    rw [length_text] at inside
    omega
  · obtain ⟨i, stop, at_⟩ := places
    refine reads_setValue at_ holds oneLine splices ?_
    have within := ready.within
    rw [found] at within
    have bound : entry.value.stop < f.mFileSize := within
    simp only [newSize] at fits
    rw [length_text]
    simp only [Span.length] at fits ⊢
    omega

theorem length_le_stretch (f : CIniFile) (sect key value : List UInt8) (parsed : Parsed) :
    value.length ≤ (f.stretch sect key value parsed).text.length := by
  rcases parsed with ⟨_ | sec, _ | entry⟩ <;>
    simp only [stretch, List.length_append, length_sectionText, length_keyLine] <;> omega

/-- An empty value is refused. -/
theorem value_ne_nil_of_writeString {fopenOk fputsOk : Bool} {sect key : Option (List UInt8)}
    (done : f.writeString sect key (some value) fopenOk fputsOk = some (0, f')) : value ≠ [] := by
  rintro rfl
  have none_ : intLen [] = 0 := by decide
  unfold writeString at done
  split at done
  · cases done
  rcases sect with _ | sect <;> rcases key with _ | key
  · cases done
  · cases done
  · cases done
  · dsimp only at done
    rw [if_pos (.inr (.inr none_))] at done
    cases done

/-- What was written is what the parser finds. -/
theorem attempt_reads (ready : f.Editable sect key) (gives : call.Gives sect key value)
    (cleanSect : CleanSection sect) (cleanKey : CleanKey key) (oneLine : OneLine value)
    (lengths : f.Lengths sect key value) (room : f.Room call)
    (done : f.attempt call = some (0, f')) :
    f'.inited = true ∧ value.length < MAX_FILE_BUF_SIZE ∧ Reads f'.buf.cells sect key value := by
  have inited : f'.inited = true := (writeString_inited done).trans ready.inited
  refine ⟨inited, ?_⟩
  rw [attempt_eq ready.inited gives lengths] at done
  rw [room_iff gives] at room
  by_cases empty : f.mFileSize = 0
  · rw [if_pos empty] at room
    rw [edit_empty empty] at done
    have saved : save { f with buf := f.buf.print 0 (sectionText sect key value) } call.fopenOk
      call.fputsOk = some (0, f') := done
    rw [(save_buf saved).1]
    have printed : Splices f.buf.cells (f.buf.print f.mFileSize (sectionText sect key value)).cells
        f.mFileSize 0 (sectionText sect key value) f.mFileSize := print_splices ready.sized.ends
    have whole := length_text f
    rw [empty] at printed whole
    have splices : Splices f.buf.cells (f.buf.print 0 (sectionText sect key value)).cells 0 0
        (sectionText sect key value) f.text.length := by rwa [whole]
    have nonzero : 0 ∉ sectionText sect key value := fun nul =>
      not_mem_stretch cleanSect.nonzero cleanKey.nonzero oneLine.nonzero f ⟨none, none⟩
        (List.mem_append_right _ nul)
    have holds := splices.holds ready.sized.holds (Nat.zero_le _) nonzero
    have length := length_spliced (sectionText sect key value)
      (show 0 + 0 ≤ f.text.length from Nat.zero_le _)
    have section_ := length_sectionText sect key value
    refine ⟨by omega, ?_⟩
    exact reads_sectionText holds (by omega) rfl (.inl rfl) cleanSect cleanKey oneLine splices.at_
      (by omega)
  · have found := ready.sized.holds.parseFile_reads (by rw [length_text]; exact ready.bounded)
      ready.fine
    rw [if_neg empty] at room
    obtain ⟨inside, ⟨refused, -⟩ | ⟨b, edited, splices, fits, -⟩⟩ :=
      edit_spec empty ready.bounded lengths ready.sized.ends found ready.within
    · rw [refused] at done
      cases done
    · rw [edited] at done
      have saved : save { f with buf := b } call.fopenOk call.fputsOk = some (0, f') := done
      rw [(save_buf saved).1]
      have short := room _ found
      have size := f.newSize_eq sect key value ((reading sect key f.text).finish key).1
      have longer := f.length_le_stretch sect key value ((reading sect key f.text).finish key).1
      refine ⟨by omega, ?_⟩
      exact ready.reads_splices rfl cleanSect cleanKey oneLine splices (by omega)

/-- Reading gives the value, cut off where the buffer ends, and zeros. -/
theorem readString_of_reads (inited : f.inited = true) (reads : Reads f.buf.cells sect key value)
    (sectNe : sect ≠ []) (keyNe : key ≠ []) {old : List UInt8} (oldNe : old ≠ [])
    (default : Option (List UInt8)) :
    f.readString (some sect) (some key) (some old) default =
      some (⟨0, strncpy (value.take (old.length - 1)) old.length⟩,
        { f with mErrno := .success }) := by
  obtain ⟨sec, entry, found, is⟩ := reads
  rw [spanIs, Bool.and_eq_true, decide_eq_true_eq, sameBytes_iff] at is
  obtain ⟨length, bytes⟩ := is
  have copied : (List.range (min entry.value.length (old.length - 1))).map
      (fun step : Nat => f.buf.cells (entry.value.start + step)) = value.take (old.length - 1) := by
    refine List.ext_getElem ?_ fun k first second => ?_
    · rw [List.length_map, List.length_range, List.length_take, ← length, Nat.min_comm]
    · simp only [List.length_take] at second
      simp only [List.getElem_map, List.getElem_range, List.getElem_take]
      exact bytes k (by omega)
  have given : ¬ (sect.length = 0 ∨ key.length = 0 ∨ old.length = 0) := by
    simp only [List.length_eq_zero_iff]
    tauto
  simp only [readString, if_neg given, inited, Bool.not_true, Bool.false_eq_true, if_false, found,
    copied]

/-- A string up to its NUL. -/
def cString (bytes : List UInt8) : List UInt8 := bytes.takeWhile fun c => !endOfString c

/-- `read_string` into `m_working_buf`, and the string it leaves there. -/
def readWorking (f : CIniFile) (sect key : Option (List UInt8)) :
    Option ((Int × List UInt8) × CIniFile) :=
  (f.readString sect key (some (List.replicate MAX_FILE_BUF_SIZE 0)) none).map
    fun (reply, f) => ((reply.ret, cString reply.value), f)

theorem cString_append (nonzero : 0 ∉ value) (rest : List UInt8) :
    cString (value ++ 0 :: rest) = value := by
  rw [cString, List.takeWhile_append_of_pos]
  · simp [endOfString]
  · intro c among
    have some_ : c ≠ 0 := fun zero => nonzero (zero ▸ among)
    simp [endOfString, some_]

theorem readWorking_of_reads (inited : f.inited = true)
    (reads : Reads f.buf.cells sect key value) (sectNe : sect ≠ []) (keyNe : key ≠ [])
    (nonzero : 0 ∉ value) (fits : value.length < MAX_FILE_BUF_SIZE) :
    f.readWorking (some sect) (some key) = some ((0, value), { f with mErrno := .success }) := by
  have oldNe : List.replicate MAX_FILE_BUF_SIZE (0 : UInt8) ≠ [] :=
    List.ne_nil_of_length_pos (by rw [List.length_replicate]; decide)
  rw [readWorking, readString_of_reads inited reads sectNe keyNe oldNe none, Option.map_some]
  have whole : value.take (MAX_FILE_BUF_SIZE - 1) = value := List.take_of_length_le (by omega)
  have zeros : List.replicate (MAX_FILE_BUF_SIZE - value.length) (0 : UInt8) =
      0 :: List.replicate (MAX_FILE_BUF_SIZE - value.length - 1) 0 := by
    rw [← List.replicate_succ]
    congr 1
    omega
  simp only [List.length_replicate, whole, strncpy]
  rw [List.take_of_length_le (by omega), zeros, cString_append nonzero]

theorem readWorking_eq (sectNe : sect ≠ []) (keyNe : key ≠ []) :
    f.readWorking (some sect) (some key) =
      let zeros := List.replicate MAX_FILE_BUF_SIZE 0
      if !f.inited then some ((-1, cString zeros), { f with mErrno := .notInited })
      else
        match parseFile f.buf.cells sect key with
        | none => none
        | some ⟨_, none⟩ => some ((-1, cString zeros), { f with mErrno := .keyNotFound })
        | some ⟨_, some entry⟩ =>
          let bytes := (List.range (min entry.value.length (MAX_FILE_BUF_SIZE - 1))).map
            fun step : Nat => f.buf.cells (entry.value.start + step)
          some ((0, cString (strncpy bytes MAX_FILE_BUF_SIZE)), { f with mErrno := .success }) := by
  have given : ¬ (sect.length = 0 ∨ key.length = 0 ∨ MAX_FILE_BUF_SIZE = 0) := by
    simp only [List.length_eq_zero_iff]
    tauto
  rw [readWorking, readString, List.length_replicate, if_neg given]
  split
  · rfl
  · rcases parseFile f.buf.cells sect key with _ | ⟨sec, _ | entry⟩ <;> rfl

/-- Without the key nothing is read. -/
theorem readWorking_absent (inited : f.inited = true) (sectNe : sect ≠ []) (keyNe : key ≠ [])
    {sec : Option Span} (found : parseFile f.buf.cells sect key = some ⟨sec, none⟩) :
    ∃ text f', f.readWorking (some sect) (some key) = some ((-1, text), f') := by
  simp only [readWorking_eq sectNe keyNe, inited, found]
  exact ⟨_, _, rfl⟩

/-- A value that is found is read, with what its place holds. -/
theorem readWorking_present (inited : f.inited = true) (sectNe : sect ≠ []) (keyNe : key ≠ [])
    {sec : Option Span} {entry : Entry}
    (found : parseFile f.buf.cells sect key = some ⟨sec, some entry⟩) :
    ∃ text, f.readWorking (some sect) (some key) =
        some ((0, text), { f with mErrno := .success }) ∧
      ∀ c ∈ text, c ≠ 0 ∧
        ∃ k < entry.value.length, c = f.buf.cells (entry.value.start + k : Nat) := by
  simp only [readWorking_eq sectNe keyNe, inited, found]
  refine ⟨_, rfl, fun c among => ?_⟩
  have some_ : c ≠ 0 := by
    have nonzero := List.mem_takeWhile_imp among
    simpa [endOfString] using nonzero
  refine ⟨some_, ?_⟩
  have inside := (List.takeWhile_prefix _).subset among
  rcases List.mem_append.mp inside with front | zeros
  · obtain ⟨k, member, rfl⟩ := List.mem_map.mp (List.mem_of_mem_take front)
    have bound := List.mem_range.mp member
    exact ⟨k, by omega, by push_cast; rfl⟩
  · exact absurd (List.eq_of_mem_replicate zeros) some_

/-- What is read is one line. -/
theorem readWorking_plain (sectNe : sect ≠ []) (keyNe : key ≠ [])
    (working : f.readWorking (some sect) (some key) = some ((0, value), f')) :
    ∀ c ∈ value, c ≠ 0 ∧ newline c = false := by
  have inited : f.inited = true := by
    cases missing : f.inited with
    | false => simp [readWorking_eq sectNe keyNe, missing] at working
    | true => rfl
  rcases found : parseFile f.buf.cells sect key with _ | ⟨sec, _ | entry⟩
  · simp [readWorking_eq sectNe keyNe, found] at working
  · obtain ⟨text, after, absent⟩ := readWorking_absent inited sectNe keyNe found
    rw [absent] at working
    cases working
  · obtain ⟨text, present, bytes⟩ := readWorking_present inited sectNe keyNe found
    obtain ⟨same, -⟩ := Prod.mk.inj (Option.some.inj (present.symm.trans working))
    obtain rfl : text = value := congrArg Prod.snd same
    intro c among
    obtain ⟨some_, k, inside, rfl⟩ := bytes c among
    exact ⟨some_, value_unbroken found inside⟩

/-- A value that is one line comes back after it was written. -/
theorem attempt_readWorking (ready : f.Editable sect key) (gives : call.Gives sect key value)
    (cleanSect : CleanSection sect) (cleanKey : CleanKey key) (oneLine : OneLine value)
    (lengths : f.Lengths sect key value) (room : f.Room call)
    (done : f.attempt call = some (0, f')) :
    f'.inited = true ∧ f'.readWorking (some sect) (some key) =
      some ((0, value), { f' with mErrno := .success }) := by
  obtain ⟨inited, fits, reads⟩ :=
    attempt_reads ready gives cleanSect cleanKey oneLine lengths room done
  exact ⟨inited, readWorking_of_reads inited reads gives.sect_ne gives.key_ne oneLine.nonzero fits⟩

/-! ## A key `k` in section `s` of a missing file -/

theorem cleanSection_s : CleanSection [115] :=
  ⟨⟨by simp, by simp [isSpace], by simp [isSpace]⟩, by simp, by simp [isRightBrace]⟩

theorem cleanKey_k : CleanKey [107] :=
  ⟨⟨by simp, by simp [isSpace], by simp [isSpace]⟩, by simp, by simp [newline], by simp [equals],
    by simp [isspace, leftBrace, colon]⟩

theorem missingFile_lengths (short : value.length < 1024) :
    missingFile.Lengths [115] [107] value := by
  have empty : missingFile.mFileSize = 0 := rfl
  simp only [Lengths, List.length_singleton]
  omega

theorem missingFile_room (short : value.length < 1024) (valueNe : value ≠ []) :
    missingFile.Room ⟨some [115], some [107], some value, true, true⟩ := by
  have gives : WriteCall.Gives ⟨some [115], some [107], some value, true, true⟩ [115] [107] value :=
    ⟨rfl, rfl, rfl, by simp, by simp, valueNe⟩
  have limit : MAX_FILE_BUF_SIZE = 1048576 := rfl
  refine (room_iff gives).mpr ?_
  have empty : missingFile.mFileSize = 0 := rfl
  rw [if_pos empty, List.length_singleton, List.length_singleton]
  omega

theorem missingFile_writeString (short : value.length < 1024) (valueNe : value ≠ []) :
    ∃ f', missingFile.writeString (some [115]) (some [107]) (some value) true true =
      some (0, f') := by
  have fits : ([115] : List UInt8).length + ([107] : List UInt8).length + value.length + 5 ≤
      MAX_FILE_BUF_SIZE := by
    have limit : MAX_FILE_BUF_SIZE = 1048576 := rfl
    simp only [List.length_singleton]
    omega
  obtain ⟨f', done, -⟩ := missingFile_printed (by simp) (by simp) valueNe fits
  exact ⟨f', done⟩

/-- A new object at a missing file may be edited. -/
theorem missingFile_editable (sect key : List UInt8) : missingFile.Editable sect key where
  inited := rfl
  sized := ⟨fun _ inside => absurd inside (Nat.not_lt_zero _), rfl⟩
  bounded := by decide
  fine := trivial
  closed _ _ same := nomatch same

end CIniFile

end Taomee.IniFile
