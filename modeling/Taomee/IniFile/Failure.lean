import Taomee.IniFile.Bounds

/-!
# ini-file: writes that fail

`write_string` edits the text before it opens the file, and none of its failing exits behind the
edit undoes it. A write that is refused before the edit leaves the object as it was.
-/

namespace Taomee.IniFile

namespace CIniFile

variable {f f' : CIniFile} {call : WriteCall} {sect key value : List UInt8} {ret : Int}

/-- The text, its recorded size and what `read_string` finds are as they were. -/
structure Kept (f f' : CIniFile) : Prop where
  text : ∀ i ≤ f.mFileSize, f'.buf.cells (i : Nat) = f.buf.cells i
  size : f'.mFileSize = f.mFileSize
  reads : ∀ sect key old default, (f'.readString sect key old default).map Prod.fst =
    (f.readString sect key old default).map Prod.fst

/-- The check for room. -/
def NoRoom (f : CIniFile) (sect key value : List UInt8) : Parsed → Prop
  | ⟨none, _⟩ =>
    int (f.mFileSize + intLen sect + intLen key + intLen value + 6) > MAX_FILE_BUF_SIZE
  | ⟨some _, none⟩ => int (f.mFileSize + int (intLen key + intLen value + 2)) > MAX_FILE_BUF_SIZE
  | ⟨some _, some entry⟩ =>
    int (f.mFileSize + int (intLen value - entry.value.stop + entry.value.start - 1)) >
      MAX_FILE_BUF_SIZE

/-- The call is refused before the text is edited. -/
def Refuses (f : CIniFile) (call : WriteCall) : Prop :=
  f.inited = false ∨ (∀ sect key value, ¬ call.Gives sect key value) ∨
    ∃ sect key value, call.Gives sect key value ∧ f.mFileSize ≠ 0 ∧
      ∃ parsed, parseFile f.buf.cells sect key = some parsed ∧ f.NoRoom sect key value parsed

/-- The key is there with the value that is to be written. -/
def HasValue (f : CIniFile) (call : WriteCall) : Prop :=
  ∃ sect key value, call.Gives sect key value ∧ f.mFileSize ≠ 0 ∧
    ∃ sec entry, parseFile f.buf.cells sect key = some ⟨some sec, some entry⟩ ∧
      spanIs f.buf.cells entry.value value = true

/-- The recorded size is the length of the text. -/
structure Sized (f : CIniFile) : Prop where
  text : ∀ i < f.mFileSize, f.buf.cells (i : Nat) ≠ 0
  ends : f.buf.cells f.mFileSize = 0

/-! ## What a failed call leaves -/

/-- The parser sees the bytes of the buffer and nothing else. -/
theorem kept_of_cells (cells : f'.buf.cells = f.buf.cells) (inited : f'.inited = f.inited)
    (size : f'.mFileSize = f.mFileSize) : f.Kept f' where
  text _ _ := by rw [cells]
  size := size
  reads sect key old default := by
    unfold readString
    rw [cells, inited]
    split
    · split
      · rfl
      split
      · simp only [orDefault]
        split <;> rfl
      split
      · rfl
      · simp only [orDefault]
        split <;> rfl
      · rfl
    · rfl

/-- A call fails before the edit, or makes the edit and saves. -/
theorem attempt_cases (done : f.attempt call = some (ret, f')) :
    (∃ errno, f' = { f with mErrno := errno }) ∨
      f.inited = true ∧ ∃ sect key value buf, call.Gives sect key value ∧
        f.edit sect key value = some (.ok buf) ∧
        save { f with buf := buf } call.fopenOk call.fputsOk = some (ret, f') := by
  have failed : ∀ errno, some (f.fail errno) = some (ret, f') →
      ∃ errno, f' = { f with mErrno := errno } := by
    intro errno same
    obtain ⟨-, rfl⟩ := Prod.mk.inj (Option.some.inj same)
    exact ⟨errno, rfl⟩
  unfold attempt writeString at done
  split at done
  · exact .inl (failed _ done)
  case isFalse opened =>
  split at done
  case h_1 sect key value sectEq keyEq valueEq =>
    split at done
    · exact .inl (failed _ done)
    case isFalse given =>
      simp only [not_or] at given
      have nonempty : ∀ text : List UInt8, intLen text ≠ 0 → text ≠ [] := by
        rintro _ some' rfl
        exact some' rfl
      unfold finish at done
      split at done
      · cases done
      · exact .inl (failed _ done)
      case h_3 buf edited =>
        exact .inr ⟨by simpa using opened, sect, key, value, buf,
          ⟨sectEq, keyEq, valueEq, nonempty _ given.1, nonempty _ given.2.1,
            nonempty _ given.2.2⟩, edited, done⟩
  case h_2 => exact .inl (failed _ done)

/-- A failing save keeps the edit and the old size. -/
theorem save_failed {buf : Buffer} {fopenOk fputsOk : Bool} (failed : ret ≠ 0)
    (saved : save { f with buf := buf } fopenOk fputsOk = some (ret, f')) :
    f'.buf = buf ∧ f'.inited = f.inited ∧ f'.mFileSize = f.mFileSize := by
  unfold save at saved
  split at saved
  · obtain ⟨-, rfl⟩ := Prod.mk.inj (Option.some.inj saved)
    exact ⟨rfl, rfl, rfl⟩
  split at saved
  · obtain ⟨-, rfl⟩ := Prod.mk.inj (Option.some.inj saved)
    exact ⟨rfl, rfl, rfl⟩
  split at saved
  · cases saved
  · obtain ⟨rfl, -⟩ := Prod.mk.inj (Option.some.inj saved)
    exact absurd rfl failed

/-- The same bytes put over a span change nothing. -/
theorem sameBytes_iff {p : Int → UInt8} {s : Nat} {token : List UInt8} :
    sameBytes p s token = true ↔ ∀ (k : Nat) (inside : k < token.length), p (s + k) = token[k] := by
  induction token generalizing s with
  | nil => simp [sameBytes]
  | cons c rest ih =>
    rw [sameBytes, Bool.and_eq_true, ih, decide_eq_true_eq]
    constructor
    · rintro ⟨here, behind⟩ k inside
      cases k with
      | zero => simpa using here
      | succ k =>
        have next := behind k (by simpa using inside)
        have index : ((s + 1 : Nat) + k : Int) = s + (k + 1 : Nat) := by omega
        rw [index] at next
        simpa using next
    · intro all
      have here := all 0 (Nat.zero_lt_succ _)
      refine ⟨here, fun k inside => ?_⟩
      have next := all (k + 1) (by simpa using inside)
      have index : ((s + 1 : Nat) + k : Int) = s + (k + 1 : Nat) := by omega
      rw [index]
      simpa using next

theorem setValue_same {old : Span} {b : Buffer} (some' : value ≠ [])
    (same : spanIs f.buf.cells old value = true) (done : f.setValue old value = .ok b) :
    b.cells = f.buf.cells := by
  rw [spanIs, Bool.and_eq_true, decide_eq_true_eq, sameBytes_iff] at same
  obtain ⟨length, bytes⟩ := same
  have positive := List.length_pos_iff.mpr some'
  simp only [Span.length] at length
  have still : int (intLen value - old.stop + old.start - 1) = 0 := by
    have difference : intLen value - old.stop + old.start - 1 = intLen value - value.length := by
      omega
    rw [difference, int, intLen, int, Int.bmod_sub_bmod, Int.sub_self]
    rfl
  have short : intLen value ≤ value.length := by
    rw [intLen, int, Int.bmod_def]
    split <;> omega
  unfold setValue at done
  rw [still] at done
  dsimp only at done
  split at done
  · cases done
  · obtain rfl := Except.ok.inj done
    funext x
    rw [if_pos (Int.le_refl 0), Buffer.fill_cells, Buffer.moveForward_cells (Int.le_refl 0)]
    split
    case isTrue within =>
      have inside : (x - old.start).toNat < value.length := by omega
      have index : (old.start : Int) + (x - old.start).toNat = x := by omega
      have byte := bytes _ inside
      rw [List.getD_eq_getElem _ _ inside, ← byte, index]
    case isFalse =>
      rw [Int.sub_zero, ite_self]

/-- Without room there is no edit. -/
theorem edit_of_noRoom (filled : f.mFileSize ≠ 0) {parsed : Parsed}
    (found : parseFile f.buf.cells sect key = some parsed)
    (noRoom : f.NoRoom sect key value parsed) :
    f.edit sect key value = some (.error .bufOverflow) := by
  rcases parsed with ⟨_ | sec, _ | entry⟩ <;> dsimp only [NoRoom] at noRoom <;>
    simp [edit, filled, found, addSection, addKey, setValue, noRoom]

/-- A refused call and a write of what is there change nothing. -/
theorem kept_of_refuses_or_hasValue (done : f.attempt call = some (ret, f')) (failed : ret ≠ 0)
    (harmless : f.Refuses call ∨ f.HasValue call) : f.Kept f' := by
  rcases attempt_cases done with ⟨errno, rfl⟩ |
    ⟨opened, sect, key, value, buf, gives, edited, saved⟩
  · exact kept_of_cells rfl rfl rfl
  obtain ⟨same, inited, size⟩ := save_failed failed saved
  suffices cells : buf.cells = f.buf.cells by
    exact kept_of_cells (by rw [same, cells]) inited size
  rcases harmless with (notInited | refused | noRoom) | hasValue
  · rw [opened] at notInited
    cases notInited
  · exact absurd gives (refused sect key value)
  · obtain ⟨sect', key', value', given, filled, parsed, found, full⟩ := noRoom
    obtain ⟨rfl, rfl, rfl⟩ := gives.unique given
    rw [edit_of_noRoom filled found full] at edited
    cases edited
  · obtain ⟨sect', key', value', given, filled, sec, entry, found, same⟩ := hasValue
    obtain ⟨rfl, rfl, rfl⟩ := gives.unique given
    simp only [edit, filled, if_false, found, Option.some.injEq] at edited
    exact setValue_same gives.value_ne same edited

/-- The arguments are strings: none of their bytes is 0. -/
def Strings (call : WriteCall) : Prop :=
  ∀ sect key value, call.Gives sect key value → 0 ∉ sect ∧ 0 ∉ key ∧ 0 ∉ value

theorem not_mem_stretch (sectText : 0 ∉ sect) (keyText : 0 ∉ key) (valueText : 0 ∉ value)
    (f : CIniFile) (parsed : Parsed) : 0 ∉ (f.stretch sect key value parsed).text := by
  rcases parsed with ⟨_ | sec, _ | entry⟩ <;>
    simp [stretch, sectionText, keyLine, lineFeed, equals, sectText, keyText, valueText]

/-- A stretch that is replaced by one of another length moves the end of the text. -/
theorem ends_moved {after : Int → UInt8} {start gone : Nat} {text : List UInt8} (sized : f.Sized)
    (splices : Splices f.buf.cells after start gone text f.mFileSize)
    (within : start + gone ≤ f.mFileSize) (nonzero : 0 ∉ text)
    (same : ∀ i ≤ f.mFileSize, after (i : Nat) = f.buf.cells i) : text.length = gone := by
  rcases Nat.lt_trichotomy text.length gone with shorter | equal | longer
  · have moved := splices.behind f.mFileSize (by omega) (Int.le_refl _)
    have index : (f.mFileSize + (text.length - gone) : Int) =
        (f.mFileSize - (gone - text.length) : Nat) := by omega
    rw [index, same _ (by omega), sized.ends] at moved
    exact absurd moved (sized.text _ (by omega))
  · exact equal
  · have nul := (same f.mFileSize (Nat.le_refl _)).trans sized.ends
    by_cases inside : f.mFileSize < start + text.length
    · have byte := splices.inside (f.mFileSize - start) (by omega)
      have index : (start + (f.mFileSize - start : Nat) : Int) = f.mFileSize := by omega
      rw [index, nul] at byte
      exact absurd (byte ▸ List.getElem_mem _) nonzero
    · have moved := splices.behind (f.mFileSize - (text.length - gone : Nat) : Nat) (by omega)
        (by omega)
      have index : ((f.mFileSize - (text.length - gone : Nat) : Nat) + (text.length - gone) : Int) =
          f.mFileSize := by omega
      rw [index, nul] at moved
      exact absurd moved.symm (sized.text _ (by omega))

theorem noRoom_of_edit (filled : f.mFileSize ≠ 0) {parsed : Parsed}
    (found : parseFile f.buf.cells sect key = some parsed) {errno : Errno}
    (refused : f.edit sect key value = some (.error errno)) : f.NoRoom sect key value parsed := by
  by_contra room
  rcases parsed with ⟨_ | sec, _ | entry⟩ <;> dsimp only [NoRoom] at room <;>
    simp [edit, filled, found, addSection, addKey, setValue, room] at refused

/-- A failed write that does not change the text was refused or wrote the value that is there. -/
theorem refuses_or_hasValue_of_kept (done : f.attempt call = some (ret, f')) (failed : ret ≠ 0)
    (bounded : f.mFileSize < MAX_FILE_BUF_SIZE) (sized : f.Sized) (inText : f.InText call)
    (strings : Strings call) (kept : f.Kept f') : f.Refuses call ∨ f.HasValue call := by
  by_cases opened : f.inited = true
  case neg => exact .inl (.inl (Bool.eq_false_iff.mpr opened))
  by_cases accepted : ∃ sect key value, call.Gives sect key value
  case neg =>
    exact .inl (.inr (.inl fun sect key value gives => accepted ⟨sect, key, value, gives⟩))
  obtain ⟨sect, key, value, gives⟩ := accepted
  obtain ⟨lengths, text⟩ := inText sect key value gives
  obtain ⟨sectText, keyText, valueText⟩ := strings sect key value gives
  rw [attempt_eq opened gives lengths] at done
  by_cases empty : f.mFileSize = 0
  · rw [edit_empty empty] at done
    obtain ⟨same, -, -⟩ := save_failed failed done
    have first := kept.text 0 (Nat.zero_le _)
    have nul := sized.ends
    rw [empty] at nul
    rw [same, nul, Buffer.print_cells, if_pos (by omega)] at first
    cases first
  · obtain ⟨ends, parsed, found, within⟩ := text empty
    obtain ⟨inside, ⟨refused, -⟩ | ⟨b, edited, splices, -, -⟩⟩ :=
      edit_spec empty bounded lengths ends found within
    · exact .inl (.inr (.inr ⟨sect, key, value, gives, empty, parsed, found,
        noRoom_of_edit empty found refused⟩))
    · rw [edited] at done
      obtain ⟨same, -, -⟩ := save_failed failed done
      have unchanged : ∀ i ≤ f.mFileSize, b.cells (i : Nat) = f.buf.cells i := by
        rw [← same]
        exact kept.text
      have equal := ends_moved sized splices inside
        (not_mem_stretch sectText keyText valueText f parsed) unchanged
      refine .inr ⟨sect, key, value, gives, empty, ?_⟩
      rcases parsed with ⟨_ | sec, entry⟩
      · simp [stretch] at equal
      rcases entry with _ | entry
      · simp [stretch] at equal
      · refine ⟨sec, entry, found, ?_⟩
        rw [spanIs, Bool.and_eq_true, decide_eq_true_eq, sameBytes_iff]
        refine ⟨equal, fun k inValue => ?_⟩
        dsimp only [stretch] at equal inside
        have there := unchanged (entry.value.start + k) (by omega)
        exact there.symm.trans (splices.inside k inValue)

/-- A failed write leaves the text, its size and what is read as they were if it was refused
before the edit or wrote the value that is there; and only then, where the recorded size is the
length of the text and the parser stays in the text. -/
theorem failed_write_kept_iff (done : f.attempt call = some (ret, f')) (failed : ret ≠ 0) :
    (f.Refuses call ∨ f.HasValue call → f.Kept f') ∧
      (f.mFileSize < MAX_FILE_BUF_SIZE → f.Sized → f.InText call → Strings call →
        f.Kept f' → f.Refuses call ∨ f.HasValue call) :=
  ⟨kept_of_refuses_or_hasValue done failed, refuses_or_hasValue_of_kept done failed⟩

/-- `k=` and a value of one byte, with a failing `fopen`. -/
def failingWrite (c : UInt8) : WriteCall := ⟨some [115], some [107], some [c], false, true⟩

theorem failingWrite_gives (c : UInt8) : (failingWrite c).Gives [115] [107] [c] :=
  ⟨rfl, rfl, rfl, List.cons_ne_nil _ _, List.cons_ne_nil _ _, List.cons_ne_nil _ _⟩

/-- With `k=v` in the file the value is replaced, and then `fopen` fails. -/
theorem failingWrite_fails (c : UInt8) :
    ∃ f', (missingFile.write firstWrite).attempt (failingWrite c) = some (-1, f') := by
  have gives := failingWrite_gives c
  obtain ⟨lengths, -⟩ := firstWrite_inText (by simp) gives _ _ _ gives
  rw [attempt_eq rfl gives lengths]
  have edited : (missingFile.write firstWrite).edit [115] [107] [c] =
      some ((missingFile.write firstWrite).setValue ⟨6, 6⟩ [c]) := by
    have filled : (missingFile.write firstWrite).mFileSize ≠ 0 := by
      decide
    simp only [edit, filled, if_false, firstWrite_parses]
  rw [edited]
  cases (missingFile.write firstWrite).setValue ⟨6, 6⟩ [c] with
  | error errno => exact ⟨_, rfl⟩
  | ok buf => exact ⟨_, rfl⟩

theorem failed_write_kept_iff_value :
    (∃ f', (missingFile.write firstWrite).attempt (failingWrite 118) = some (-1, f') ∧
      (missingFile.write firstWrite).Kept f') ∧
    ∃ f', (missingFile.write firstWrite).attempt (failingWrite 119) = some (-1, f') ∧
      ¬ (missingFile.write firstWrite).Kept f' := by
  have failed : (-1 : Int) ≠ 0 := by decide
  have filled : (missingFile.write firstWrite).mFileSize ≠ 0 := by
    rw [firstWrite_size]
    decide
  obtain ⟨same, kept⟩ := failingWrite_fails 118
  obtain ⟨other, lost⟩ := failingWrite_fails 119
  refine ⟨⟨same, kept, (failed_write_kept_iff kept failed).1 (.inr ?_)⟩, other, lost, ?_⟩
  · exact ⟨_, _, _, failingWrite_gives 118, filled, _, _, firstWrite_parses, by decide +kernel⟩
  intro unchanged
  have bounded : (missingFile.write firstWrite).mFileSize < MAX_FILE_BUF_SIZE := by
    rw [firstWrite_size]
    decide
  have sized : (missingFile.write firstWrite).Sized := by
    constructor
    · rw [firstWrite_size]
      decide +kernel
    · decide +kernel
  have strings : Strings (failingWrite 119) := by
    intro sect key value gives
    obtain ⟨rfl, rfl, rfl⟩ := (failingWrite_gives 119).unique gives
    decide
  rcases (failed_write_kept_iff lost failed).2 bounded sized
    (firstWrite_inText (by decide) (failingWrite_gives 119)) strings unchanged with
    (notInited | refused | noRoom) | hasValue
  · cases notInited
  · exact refused _ _ _ (failingWrite_gives 119)
  · obtain ⟨_, _, _, gives, -, parsed, found, full⟩ := noRoom
    obtain ⟨rfl, rfl, rfl⟩ := (failingWrite_gives 119).unique gives
    obtain rfl := Option.some.inj (firstWrite_parses.symm.trans found)
    simp only [NoRoom, firstWrite_size] at full
    revert full
    decide
  · obtain ⟨_, _, _, gives, -, sec, entry, found, is⟩ := hasValue
    obtain ⟨rfl, rfl, rfl⟩ := (failingWrite_gives 119).unique gives
    cases Option.some.inj (firstWrite_parses.symm.trans found)
    revert is
    decide +kernel

/-- `fopen` fails in the first write to an empty file, and the value can be read. -/
theorem failed_write_read :
    ∃ f', missingFile.attempt (failingWrite 118) = some (-1, f') ∧
      (missingFile.readString (some [115]) (some [107]) (some [0, 0]) none).map Prod.fst =
        some ⟨-1, [0, 0]⟩ ∧
      (f'.readString (some [115]) (some [107]) (some [0, 0]) none).map Prod.fst =
        some ⟨0, [118, 0]⟩ := by
  have done : (missingFile.attempt (failingWrite 118)).map
      (fun result => (result.1, (result.2.readString (some [115]) (some [107]) (some [0, 0])
        none).map Prod.fst)) = some (-1, some ⟨0, [118, 0]⟩) := by
    decide +kernel
  obtain ⟨⟨ret, f'⟩, attempted, result⟩ := Option.map_eq_some_iff.mp done
  obtain ⟨rfl, read⟩ := Prod.mk.inj result
  exact ⟨f', attempted, by decide +kernel, read⟩

end CIniFile

end Taomee.IniFile
