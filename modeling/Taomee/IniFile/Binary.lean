import Taomee.IniFile.RoundTrip

/-!
# ini-file: binary values

A byte is written as two characters, by arithmetic on `char`, which is signed.
-/

namespace Taomee.IniFile

variable {bin : List UInt8}

/-- A byte as a `char`. -/
def char (c : UInt8) : Int := Int.bmod c.toNat (2 ^ 8)

/-- A number that is stored in a `char`. -/
def toChar (n : Int) : UInt8 := UInt8.ofNat (n % 2 ^ 8).toNat

/-- `is_hex` -/
def isHex (hex : UInt8) : Bool :=
  48 ≤ char hex && char hex ≤ 57 || 65 ≤ char hex && char hex ≤ 70 ||
    97 ≤ char hex && char hex ≤ 102

/-- `n > 9 ? ('A' + n - 10): ('0' + n)` -/
def hexChar (n : Int) : UInt8 := toChar (if n > 9 then 65 + n - 10 else 48 + n)

/-- `byte2hexstr` without its NUL; `byte >> 4` and `byte & 15` are of an `int`. -/
def byte2hexstr (byte : UInt8) : List UInt8 := [hexChar (char byte / 16), hexChar (char byte % 16)]

/-- `hexchar2byte` -/
def hexchar2byte (hex1 hex2 : UInt8) : UInt8 :=
  let digit (hex : UInt8) : Int := char hex + if char hex > 64 then 9 else 0
  toChar (digit hex1 * 16 + digit hex2 % 16)

/-- The characters that `write_bin` puts in `m_working_buf`. -/
def hexText (bin : List UInt8) : List UInt8 := bin.flatMap byte2hexstr

/-- The loop of `read_bin`, with the character before where it is the first of a pair: whether it
comes to the end, and the bytes that it stored. -/
def binLoop : Option UInt8 → List UInt8 → List UInt8 → Bool × List UInt8
  | _, [], out => (true, out)
  | before, c :: rest, out =>
    if !isHex c then (false, out)
    else
      match before with
      | none => binLoop (some c) rest out
      | some first => binLoop none rest (out ++ [hexchar2byte first c])

/-- What `read_bin` returns, and the bytes it stored from `bin` on. -/
structure BinReply where
  ret : Int
  written : List UInt8
  deriving DecidableEq

namespace CIniFile

/-- `write_bin`; a text that is longer than `m_working_buf` has no result. -/
def writeBin (f : CIniFile) (sect key : Option (List UInt8)) (bin : List UInt8)
    (fopenOk fputsOk : Bool) : Option (Int × CIniFile) :=
  if !f.inited then some (f.fail .notInited)
  else if MAX_FILE_BUF_SIZE ≤ (hexText bin).length then none
  else f.writeString sect key (some (hexText bin)) fopenOk fputsOk

/-- `read_bin`, which does not look at `bin_bytes`. -/
def readBin (f : CIniFile) (sect key : Option (List UInt8)) (_binBytes : Nat) :
    Option (BinReply × CIniFile) :=
  if !f.inited then some (⟨-1, []⟩, { f with mErrno := .notInited })
  else
    match f.readWorking sect key with
    | none => none
    | some ((0, text), f) =>
      match binLoop none text [] with
      | (true, written) => some (⟨written.length, written⟩, f)
      | (false, written) => some (⟨-1, written⟩, { f with mErrno := .illegalFormat })
    | some (_, f) => some (⟨0, []⟩, f)

/-- A buffer of the length of the bytes or more gets them, and behind a shorter one nothing is
written. -/
def BinComesBack (f : CIniFile) (sect key bin : List UInt8) (binBytes : Nat) : Prop :=
  ∃ reply f', f.readBin (some sect) (some key) binBytes = some (reply, f') ∧
    if bin.length ≤ binBytes then reply = ⟨bin.length, bin⟩
    else reply.written.length ≤ binBytes

end CIniFile

/-! ## Pairs of characters -/

/-- The pair of a byte below 128 is that of its hexadecimal digits. -/
theorem byte2hexstr_low : ∀ c : UInt8, c < 128 → ∃ a b, byte2hexstr c = [a, b] ∧ isHex a = true ∧
    isHex b = true ∧ hexchar2byte a b = c := by
  have pairs : ∀ c : UInt8, c < 128 → isHex (hexChar (char c / 16)) = true ∧
      isHex (hexChar (char c % 16)) = true ∧
      hexchar2byte (hexChar (char c / 16)) (hexChar (char c % 16)) = c :=
    forall_byte (by decide +kernel)
  exact fun c low => ⟨_, _, rfl, pairs c low⟩

/-- The shift of another byte is negative, and its first character is none of the digits. -/
theorem byte2hexstr_high : ∀ c : UInt8, 128 ≤ c → ∃ a b, byte2hexstr c = [a, b] ∧
    isHex a = false := by
  have pairs : ∀ c : UInt8, 128 ≤ c → isHex (hexChar (char c / 16)) = false :=
    forall_byte (by decide +kernel)
  exact fun c high => ⟨_, _, rfl, pairs c high⟩

/-- No character is white space, a line break or a NUL. -/
theorem byte2hexstr_plain (c : UInt8) {a : UInt8} (among : a ∈ byte2hexstr c) :
    isSpace a = false ∧ newline a = false ∧ a ≠ 0 := by
  have first : ∀ c : UInt8, isSpace (hexChar (char c / 16)) = false ∧
      newline (hexChar (char c / 16)) = false ∧ hexChar (char c / 16) ≠ 0 :=
    forall_byte (by decide +kernel)
  have second : ∀ c : UInt8, isSpace (hexChar (char c % 16)) = false ∧
      newline (hexChar (char c % 16)) = false ∧ hexChar (char c % 16) ≠ 0 :=
    forall_byte (by decide +kernel)
  rcases List.mem_cons.mp among with rfl | among
  · exact first c
  · rw [List.mem_singleton.mp among]
    exact second c

theorem hexText_cons (c : UInt8) (bin : List UInt8) :
    hexText (c :: bin) = byte2hexstr c ++ hexText bin := List.flatMap_cons

theorem hexText_plain {a : UInt8} (among : a ∈ hexText bin) :
    isSpace a = false ∧ newline a = false ∧ a ≠ 0 := by
  obtain ⟨c, -, pair⟩ := List.mem_flatMap.mp among
  exact byte2hexstr_plain c pair

theorem oneLine_hexText (some_ : hexText bin ≠ []) : OneLine (hexText bin) where
  some_ := some_
  first _ among := (hexText_plain (List.mem_of_mem_head? among)).1
  last _ among := (hexText_plain (List.mem_of_mem_getLast? among)).1
  nonzero nul := (hexText_plain nul).2.2 rfl
  unbroken _ among := (hexText_plain among).2.1

/-- Bytes below 128 are stored as they were. -/
theorem binLoop_low (low : ∀ c ∈ bin, c < 128) (rest out : List UInt8) :
    binLoop none (hexText bin ++ rest) out = binLoop none rest (out ++ bin) := by
  induction bin generalizing out with
  | nil => rw [List.append_nil]; rfl
  | cons c bin ih =>
    obtain ⟨a, b, pair, first, second, same⟩ := byte2hexstr_low c (low c List.mem_cons_self)
    have onward := ih (fun c among => low c (List.mem_cons_of_mem _ among)) (out ++ [c])
    rw [hexText_cons, pair]
    simp only [List.cons_append, List.nil_append, binLoop, first, second, Bool.not_true,
      Bool.false_eq_true, if_false, same]
    rw [onward, List.append_assoc, List.singleton_append]

/-- The loop ends at the first byte from 128 on. -/
theorem binLoop_high {c : UInt8} (high : 128 ≤ c) (rest out : List UInt8) :
    binLoop none (hexText (c :: rest)) out = (false, out) := by
  obtain ⟨a, b, pair, other⟩ := byte2hexstr_high c high
  rw [hexText_cons, pair]
  simp only [List.cons_append, binLoop, other, Bool.not_false, if_true]

/-- What `read_bin` makes of the characters of the bytes. -/
def binReply (bin : List UInt8) : BinReply :=
  match binLoop none (hexText bin) [] with
  | (true, written) => ⟨written.length, written⟩
  | (false, written) => ⟨-1, written⟩

theorem binReply_low (low : ∀ c ∈ bin, c < 128) : binReply bin = ⟨bin.length, bin⟩ := by
  have stored := binLoop_low low [] []
  rw [List.append_nil, List.nil_append] at stored
  rw [binReply, stored]
  rfl

theorem binReply_high {front rest : List UInt8} {c : UInt8} (low : ∀ d ∈ front, d < 128)
    (high : 128 ≤ c) : binReply (front ++ c :: rest) = ⟨-1, front⟩ := by
  have parts : hexText (front ++ c :: rest) = hexText front ++ hexText (c :: rest) :=
    List.flatMap_append
  rw [binReply, parts, binLoop_low low, binLoop_high high, List.nil_append]

theorem exists_first_high (high : ∃ c ∈ bin, 128 ≤ c) :
    ∃ front c rest, bin = front ++ c :: rest ∧ (∀ d ∈ front, d < 128) ∧ 128 ≤ c := by
  induction bin with
  | nil =>
    obtain ⟨c, among, -⟩ := high
    cases among
  | cons c bin ih =>
    by_cases here : 128 ≤ c
    · exact ⟨[], c, bin, rfl, List.forall_mem_nil _, here⟩
    · obtain ⟨d, among, later⟩ := high
      have behind : d ∈ bin := by
        rcases List.mem_cons.mp among with rfl | behind
        · exact absurd later here
        · exact behind
      obtain ⟨front, e, rest, rfl, low, high⟩ := ih ⟨d, behind, later⟩
      exact ⟨c :: front, e, rest, rfl, List.forall_mem_cons.mpr ⟨UInt8.not_le.mp here, low⟩, high⟩

namespace CIniFile

variable {f f' : CIniFile} {sect key bin : List UInt8} {fopenOk fputsOk : Bool}

/-- The text of the bytes comes back. -/
theorem writeBin_readWorking (ready : f.Editable sect key) (cleanSect : CleanSection sect)
    (cleanKey : CleanKey key) (lengths : f.Lengths sect key (hexText bin))
    (room : f.Room ⟨some sect, some key, some (hexText bin), fopenOk, fputsOk⟩)
    (done : f.writeBin (some sect) (some key) bin fopenOk fputsOk = some (0, f')) :
    f'.inited = true ∧ f'.readWorking (some sect) (some key) =
      some ((0, hexText bin), { f' with mErrno := .success }) := by
  unfold writeBin at done
  split at done
  · cases done
  split at done
  · cases done
  have some_ := value_ne_nil_of_writeString done
  exact attempt_readWorking ready ⟨rfl, rfl, rfl, cleanSect.some_, cleanKey.some_, some_⟩ cleanSect
    cleanKey (oneLine_hexText some_) lengths room done

/-- What was written comes back to a long enough buffer if and only if every byte is below 128;
a shorter one is not overrun if and only if a byte from 128 on ends the loop in time. -/
theorem binComesBack_iff (ready : f.Editable sect key) (cleanSect : CleanSection sect)
    (cleanKey : CleanKey key) (lengths : f.Lengths sect key (hexText bin))
    (room : f.Room ⟨some sect, some key, some (hexText bin), fopenOk, fputsOk⟩)
    (done : f.writeBin (some sect) (some key) bin fopenOk fputsOk = some (0, f')) (binBytes : Nat) :
    f'.BinComesBack sect key bin binBytes ↔
      if bin.length ≤ binBytes then ∀ c ∈ bin, c < 128
      else ∃ c ∈ bin.take (binBytes + 1), 128 ≤ c := by
  obtain ⟨inited, working⟩ := writeBin_readWorking ready cleanSect cleanKey lengths room done
  have reads : ∃ after, f'.readBin (some sect) (some key) binBytes =
      some (binReply bin, after) := by
    simp only [readBin, inited, Bool.not_true, Bool.false_eq_true, if_false, working, binReply]
    rcases binLoop none (hexText bin) [] with ⟨_ | _, written⟩ <;> exact ⟨_, rfl⟩
  obtain ⟨after, reads⟩ := reads
  have comesBack : f'.BinComesBack sect key bin binBytes ↔
      if bin.length ≤ binBytes then binReply bin = ⟨bin.length, bin⟩
      else (binReply bin).written.length ≤ binBytes := by
    refine ⟨?_, fun holds => ⟨_, after, reads, holds⟩⟩
    rintro ⟨reply, after', reads', holds⟩
    obtain ⟨rfl, -⟩ := Prod.mk.inj (Option.some.inj (reads.symm.trans reads'))
    exact holds
  rw [comesBack]
  by_cases high : ∃ c ∈ bin, 128 ≤ c
  · obtain ⟨front, c, rest, rfl, low, high⟩ := exists_first_high high
    rw [binReply_high low high]
    split
    · refine iff_of_false (fun same => ?_) fun low => ?_
      · have negative := congrArg BinReply.ret same
        dsimp only at negative
        omega
      · exact absurd (low c (by simp)) (UInt8.not_lt.mpr high)
    · constructor
      · intro inTime
        refine ⟨c, ?_, high⟩
        have next : binBytes + 1 - front.length = binBytes - front.length + 1 := Nat.succ_sub inTime
        rw [List.take_append, next, List.take_succ_cons]
        exact List.mem_append_right _ List.mem_cons_self
      · rintro ⟨d, among, high'⟩
        by_contra late
        rw [List.take_append_of_le_length (by dsimp only at late; omega)] at among
        exact absurd (low d (List.mem_of_mem_take among)) (UInt8.not_lt.mpr high')
  · have low : ∀ c ∈ bin, c < 128 := fun c among => by
      by_contra other
      exact high ⟨c, among, UInt8.not_lt.mp other⟩
    rw [binReply_low low]
    split
    case isTrue => exact iff_of_true rfl low
    case isFalse longer =>
      refine iff_of_false longer ?_
      rintro ⟨c, among, other⟩
      exact high ⟨c, List.mem_of_mem_take among, other⟩

theorem missingFile_writeBin {text : List UInt8} (is : hexText bin = text)
    (short : text.length < 1024) (textNe : text ≠ []) :
    ∃ f', missingFile.writeBin (some [115]) (some [107]) bin true true = some (0, f') := by
  have fits : ¬ MAX_FILE_BUF_SIZE ≤ text.length := by
    have limit : MAX_FILE_BUF_SIZE = 1048576 := rfl
    omega
  have inited : missingFile.inited = true := rfl
  simp only [writeBin, inited, is, Bool.not_true, Bool.false_eq_true, if_false, if_neg fits]
  exact missingFile_writeString short textNe

/-- The bytes `7f 00`, and a buffer of two and one of one. -/
theorem binComesBack_iff_low : ∃ f',
    missingFile.writeBin (some [115]) (some [107]) [127, 0] true true = some (0, f') ∧
      f'.BinComesBack [115] [107] [127, 0] 2 ∧ ¬ f'.BinComesBack [115] [107] [127, 0] 1 := by
  have text : hexText [127, 0] = [55, 70, 48, 48] := by decide +kernel
  obtain ⟨f', done⟩ := missingFile_writeBin text (by simp) (by simp)
  have iff := binComesBack_iff (missingFile_editable _ _) cleanSection_s cleanKey_k
    (missingFile_lengths (by rw [text]; simp)) (missingFile_room (by rw [text]; simp)
    (by rw [text]; simp)) done
  refine ⟨f', done, (iff 2).mpr ?_, fun comesBack => ?_⟩
  · simp
  · have high := (iff 1).mp comesBack
    simp at high

/-- The byte 128 is written as `(0`, which is not hexadecimal. -/
theorem byte_128_lost : ∃ f',
    missingFile.writeBin (some [115]) (some [107]) [128] true true = some (0, f') ∧
      ¬ f'.BinComesBack [115] [107] [128] 1 := by
  have text : hexText [128] = [40, 48] := by decide +kernel
  have oneLine : OneLine [40, 48] :=
    ⟨⟨by simp, by simp [isSpace], by simp [isSpace]⟩, by simp, by simp [newline]⟩
  obtain ⟨f', done⟩ := missingFile_writeBin text (by simp) (by simp)
  refine ⟨f', done, ?_⟩
  obtain ⟨inited, working⟩ := writeBin_readWorking (missingFile_editable _ _) cleanSection_s
    cleanKey_k (missingFile_lengths (by rw [text]; simp)) (missingFile_room (by rw [text]; simp)
    (by rw [text]; simp)) done
  rintro ⟨reply, after, reads, comesBack⟩
  have refused : binLoop none [40, 48] [] = (false, []) := by decide +kernel
  simp only [readBin, inited, working, text, refused, Bool.not_true, Bool.false_eq_true, if_false,
    Option.some.injEq, Prod.mk.injEq] at reads
  rw [if_pos (by simp), ← reads.1] at comesBack
  simp at comesBack

end CIniFile

end Taomee.IniFile
