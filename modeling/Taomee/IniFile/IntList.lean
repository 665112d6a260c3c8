import Taomee.IniFile.Lists
import Taomee.Library.Decimal

/-!
# ini-file: lists of numbers

Each number is printed by `sprintf` and read by `atoi`.
-/

namespace Taomee.IniFile

/-- `-` -/
def minus : UInt8 := 45

/-- `sprintf(str, "%d", n)` -/
def decimal (n : Int) : List UInt8 := (if n < 0 then [minus] else []) ++ Decimal.text n.natAbs

/-- The digits at the start of a string. -/
def leadingNumber (str : List UInt8) : Nat := Decimal.number (str.takeWhile Decimal.isDigit)

/-- `atoi`: a `long`, which stays in its range, as an `int`. -/
def atoi (str : List UInt8) : Int :=
  let str := str.dropWhile isspace
  if str.head? = some minus then int (max (-2 ^ 63) (-leadingNumber str.tail))
  else int (min (2 ^ 63 - 1) (leadingNumber (if str.head? = some 43 then str.tail else str)))

/-- What `write_int_list` prints to `str`, for one number after the other. -/
def intPieces (delimiter : UInt8) : List Int → List (List UInt8)
  | [] => []
  | [n] => [decimal n]
  | n :: rest => CIniFile.cString (decimal n ++ [delimiter]) :: intPieces delimiter rest

namespace CIniFile

/-- `write_int_list` -/
def writeIntList (f : CIniFile) (sect key : Option (List UInt8)) (list : List Int)
    (delimiter : UInt8) (fopenOk fputsOk : Bool) : Option (Int × CIniFile) :=
  f.writePieces sect key (intPieces delimiter list) fopenOk fputsOk

/-- `read_int_list`, with what it stored from `list` on. -/
def readIntList (f : CIniFile) (sect key : Option (List UInt8)) (listCnt : Int)
    (delimiter : UInt8) : Option ((Int × List Int) × CIniFile) :=
  f.readItems sect key (fun _ item list => some (list ++ [atoi item])) delimiter listCnt []

/-- The list is read up to the length of the array. -/
def IntsComeBack (f : CIniFile) (sect key : List UInt8) (list : List Int) (listCnt : Int)
    (delimiter : UInt8) : Prop :=
  ∃ f', f.readIntList (some sect) (some key) listCnt delimiter =
    some ((((list.take listCnt.toNat).length : Int), list.take listCnt.toNat), f')

end CIniFile

/-! ## One number -/

theorem isDigit_plain : ∀ c : UInt8, Decimal.isDigit c = true → isspace c = false ∧
    isSpace c = false ∧ newline c = false ∧ c ≠ 0 ∧ c ≠ minus ∧ c ≠ 43 :=
  forall_byte (by decide +kernel)

theorem decimal_ne_nil (n : Int) : decimal n ≠ [] := by
  rw [decimal, ne_eq, List.append_eq_nil_iff]
  exact fun empty => Decimal.text_ne_nil _ empty.2

theorem mem_decimal {n : Int} {c : UInt8} (among : c ∈ decimal n) :
    c = minus ∨ Decimal.isDigit c = true := by
  rw [decimal, List.mem_append] at among
  rcases among with sign | digit
  · split at sign
    · exact .inl (List.mem_singleton.mp sign)
    · cases sign
  · exact .inr (Decimal.isDigit_of_mem_text digit)

theorem mem_decimal_plain {n : Int} {c : UInt8} (among : c ∈ decimal n) :
    isSpace c = false ∧ newline c = false ∧ c ≠ 0 := by
  rcases mem_decimal among with rfl | digit
  · decide
  · obtain ⟨-, blank, broken, nul, -, -⟩ := isDigit_plain c digit
    exact ⟨blank, broken, nul⟩

theorem leadingNumber_text (n : Nat) : leadingNumber (Decimal.text n) = n := by
  have whole : (Decimal.text n).takeWhile Decimal.isDigit = Decimal.text n :=
    List.takeWhile_eq_self_iff.mpr fun c => Decimal.isDigit_of_mem_text
  rw [leadingNumber, whole, Decimal.number_text]

/-- An `int` that is printed is read back. -/
theorem atoi_decimal {n : Int} (low : -2 ^ 31 ≤ n) (high : n < 2 ^ 31) : atoi (decimal n) = n := by
  have kept : int n = n := int_eq low high
  by_cases negative : n < 0
  · have text : decimal n = minus :: Decimal.text n.natAbs := by
      rw [decimal, if_pos negative, List.singleton_append]
    have start : (minus :: Decimal.text n.natAbs).dropWhile isspace =
        minus :: Decimal.text n.natAbs := rfl
    simp only [atoi, text, start, List.head?_cons, if_true, List.tail_cons, leadingNumber_text]
    rw [show max (-2 ^ 63) (-(n.natAbs : Int)) = n by omega, kept]
  · have text : decimal n = Decimal.text n.natAbs := by
      rw [decimal, if_neg negative, List.nil_append]
    obtain ⟨c, rest, first⟩ := List.exists_cons_of_ne_nil (Decimal.text_ne_nil n.natAbs)
    have digit : Decimal.isDigit c = true :=
      Decimal.isDigit_of_mem_text (by rw [first]; exact List.mem_cons_self)
    obtain ⟨blank, -, -, -, sign, plus⟩ := isDigit_plain c digit
    have start : (c :: rest).dropWhile isspace = c :: rest := by
      rw [List.dropWhile_cons_of_neg (by simp [blank])]
    have number : leadingNumber (c :: rest) = n.natAbs := by
      rw [← first, leadingNumber_text]
    simp only [atoi, text, first, start, List.head?_cons, Option.some.injEq, if_neg sign,
      if_neg plus, number]
    rw [show min (2 ^ 63 - 1) (n.natAbs : Int) = n by omega, kept]

/-! ## A list -/

section Text

variable {delimiter : UInt8} {list : List Int}

/-- The pieces make the numbers with the delimiter between them. -/
theorem flatten_intPieces (printed : 1 < list.length → delimiter ≠ 0) :
    (intPieces delimiter list).flatten = [delimiter].intercalate (list.map decimal) := by
  induction list with
  | nil => rfl
  | cons n rest ih =>
    rcases rest with _ | ⟨next, rest⟩
    · simp [intPieces]
    · have nonzero : delimiter ≠ 0 := printed (by simp)
      have whole : CIniFile.cString (decimal n ++ [delimiter]) = decimal n ++ [delimiter] := by
        refine List.takeWhile_eq_self_iff.mpr fun c among => ?_
        have some_ : c ≠ 0 := by
          rcases List.mem_append.mp among with inside | behind
          · exact (mem_decimal_plain inside).2.2
          · rw [List.mem_singleton.mp behind]
            exact nonzero
        simp [endOfString, some_]
      have onward := ih fun _ => nonzero
      rw [intPieces, List.flatten_cons, whole, onward, List.map_cons, List.map_cons,
        List.map_cons, List.intercalate_cons_cons]
      exact List.cons_ne_nil _ _

/-- The text of a list is one line. -/
theorem oneLine_intPieces (some_ : list ≠ []) (plain : isSpace delimiter = false)
    (inLine : 1 < list.length → delimiter ≠ 0 ∧ newline delimiter = false) :
    OneLine (intPieces delimiter list).flatten := by
  rw [flatten_intPieces fun more => (inLine more).1]
  rcases list with _ | ⟨n, rest⟩
  · exact absurd rfl some_
  refine oneLine_joined ?_ plain ?_ ?_ ?_
  · obtain ⟨c, digits, first⟩ := List.exists_cons_of_ne_nil (decimal_ne_nil n)
    rw [List.map_cons, first, List.intercalate_cons_cons_left]
    exact List.cons_ne_nil _ _
  · intro item member c among
    obtain ⟨k, -, rfl⟩ := List.mem_map.mp member
    exact (mem_decimal_plain (List.mem_of_mem_head? among)).1
  · intro item member c among
    obtain ⟨k, -, rfl⟩ := List.mem_map.mp member
    exact (mem_decimal_plain (List.mem_of_mem_getLast? among)).1
  · intro c among
    rcases rest with _ | ⟨next, rest⟩
    · rw [List.map_singleton, List.intercalate_singleton] at among
      exact ⟨(mem_decimal_plain among).2.2, (mem_decimal_plain among).2.1⟩
    · rcases mem_joined among with rfl | ⟨item, member, inside⟩
      · exact inLine (by simp)
      · obtain ⟨k, -, rfl⟩ := List.mem_map.mp member
        exact ⟨(mem_decimal_plain inside).2.2, (mem_decimal_plain inside).2.1⟩

end Text

/-- Every item is read by `atoi`. -/
theorem putAll_atoi (items : List (List UInt8)) (cnt : Nat) (list : List Int) :
    putAll (fun _ item list => some (list ++ [atoi item])) items cnt list =
      (true, cnt + items.length, list ++ items.map atoi) := by
  induction items generalizing cnt list with
  | nil => simp [putAll]
  | cons item rest ih =>
    have onward := ih (cnt + 1) (list ++ [atoi item])
    rw [List.append_assoc, List.singleton_append, Nat.add_assoc, Nat.add_comm 1] at onward
    exact onward

namespace CIniFile

variable {f f' : CIniFile} {sect key text : List UInt8} {fopenOk fputsOk : Bool}

theorem readIntList_of_working (inited : f.inited = true)
    (working : f.readWorking (some sect) (some key) = some ((0, text), f')) {listCnt : Int}
    {delimiter : UInt8} {list : List Int}
    (numbers : ((text.splitOn delimiter).take listCnt.toNat).map atoi = list) :
    ∃ after, f.readIntList (some sect) (some key) listCnt delimiter =
      some (((list.length : Int), list), after) := by
  refine ⟨f', ?_⟩
  rw [readIntList, readItems_eq _ _ _ _ inited working, putAll_atoi, ← numbers, List.length_map]
  simp only [Nat.zero_add, List.nil_append]

/-- A list that was written comes back. -/
theorem intsComeBack_of_writeIntList {list : List Int} {delimiter : UInt8}
    (ready : f.Editable sect key) (cleanSect : CleanSection sect) (cleanKey : CleanKey key)
    (some_ : list ≠ []) (ints : ∀ n ∈ list, -2 ^ 31 ≤ n ∧ n < 2 ^ 31)
    (noDigit : Decimal.isDigit delimiter = false) (noMinus : delimiter ≠ minus)
    (noBlank : isSpace delimiter = false)
    (inLine : 1 < list.length → delimiter ≠ 0 ∧ newline delimiter = false)
    (lengths : f.Lengths sect key (intPieces delimiter list).flatten) (room : f.Room
      ⟨some sect, some key, some (intPieces delimiter list).flatten, fopenOk, fputsOk⟩)
    (done : f.writeIntList (some sect) (some key) list delimiter fopenOk fputsOk = some (0, f'))
    (listCnt : Int) : f'.IntsComeBack sect key list listCnt delimiter := by
  obtain ⟨inited, working⟩ := writePieces_readWorking ready cleanSect cleanKey
    (oneLine_intPieces some_ noBlank inLine) lengths room done
  have apart : ∀ item ∈ list.map decimal, delimiter ∉ item := by
    intro item member among
    obtain ⟨n, -, rfl⟩ := List.mem_map.mp member
    rcases mem_decimal among with same | digit
    · exact noMinus same
    · rw [noDigit] at digit
      cases digit
  have split : (intPieces delimiter list).flatten.splitOn delimiter = list.map decimal := by
    rw [flatten_intPieces fun more => (inLine more).1]
    exact List.splitOn_intercalate delimiter apart (by simpa using some_)
  have numbers : (list.map decimal).map atoi = list := by
    rw [List.map_map]
    exact (List.map_congr_left fun n member => atoi_decimal (ints n member).1
      (ints n member).2).trans (List.map_id list)
  refine readIntList_of_working inited working ?_
  rw [split, ← List.map_take, List.map_take, List.map_take, numbers]

/-- `-5;70`, read into an array of one. -/
theorem intsComeBack_of_writeIntList_first : ∃ f',
    missingFile.writeIntList (some [115]) (some [107]) [-5, 70] 59 true true = some (0, f') ∧
      f'.IntsComeBack [115] [107] [-5, 70] 1 59 := by
  have text : (intPieces 59 [-5, 70]).flatten = [45, 53, 59, 55, 48] := by decide +kernel
  obtain ⟨f', done⟩ := missingFile_writePieces text (by simp) (by simp)
  exact ⟨f', done, intsComeBack_of_writeIntList (missingFile_editable _ _) cleanSection_s
    cleanKey_k (by simp) (by simp) (by decide) (by decide) (by decide) (fun _ => by decide)
    (missingFile_lengths (by rw [text]; simp)) (missingFile_room (by rw [text]; simp)
    (by rw [text]; simp)) done 1⟩

theorem not_intsComeBack_of_read {list : List Int} {listCnt : Int} {delimiter : UInt8}
    (read : List Int) (reads : ∃ after, f.readIntList (some sect) (some key) listCnt delimiter =
      some (((read.length : Int), read), after))
    (other : read ≠ list.take listCnt.toNat) :
    ¬ f.IntsComeBack sect key list listCnt delimiter := by
  obtain ⟨after, reads⟩ := reads
  rintro ⟨after', reads'⟩
  have same := congrArg (·.1.2) (Option.some.inj (reads.symm.trans reads'))
  exact other same

/-- Where the parser does not find a list after it was written, it does not come back. -/
theorem lost_of_absent (sec : Option Span) (sectNe : sect ≠ []) (keyNe : key ≠ [])
    (absent : ((f.writeIntList (some sect) (some key) [1] 44 true true).map fun done =>
      (done.1, done.2.inited, parseFile done.2.buf.cells sect key)) =
        some (0, true, some ⟨sec, none⟩)) :
    ∃ f', f.writeIntList (some sect) (some key) [1] 44 true true = some (0, f') ∧
      ¬ f'.IntsComeBack sect key [1] 1 44 := by
  obtain ⟨⟨ret, f'⟩, done, same⟩ := Option.map_eq_some_iff.mp absent
  obtain ⟨rfl, inited, found⟩ : ret = 0 ∧ f'.inited = true ∧
      parseFile f'.buf.cells sect key = some ⟨sec, none⟩ := by simpa using same
  obtain ⟨text, after, working⟩ := readWorking_absent inited sectNe keyNe found
  refine ⟨f', done, not_intsComeBack_of_read [] ⟨after, ?_⟩ (by simp)⟩
  simp only [readIntList, readItems, inited, working]
  rfl

/-- A file that ends in the header `[x`. -/
def openHeader : CIniFile :=
  (loadIniFile ⟨true, ⟨fun _ => 0, false⟩, 0, .success⟩ (some [91, 120])).2

/-- What does not come back: numbers with a NUL or a line break between them, an empty list where
one is there, a list under a key that starts a comment, in a section with a `]` in its name, and
behind an open header. -/
theorem intLists_lost :
    (∃ f', missingFile.writeIntList (some [115]) (some [107]) [1, 2] 0 true true =
      some (0, f') ∧ ¬ f'.IntsComeBack [115] [107] [1, 2] 2 0) ∧
    (∃ f', missingFile.writeIntList (some [115]) (some [107]) [1, 2] 10 true true =
      some (0, f') ∧ ¬ f'.IntsComeBack [115] [107] [1, 2] 2 10) ∧
    (∃ f f', missingFile.writeIntList (some [115]) (some [107]) [7] 44 true true = some (0, f) ∧
      f.writeIntList (some [115]) (some [107]) [] 44 true true = some (0, f') ∧
        ¬ f'.IntsComeBack [115] [107] [] 1 44) ∧
    (∃ f', missingFile.writeIntList (some [115]) (some [58, 107]) [1] 44 true true =
      some (0, f') ∧ ¬ f'.IntsComeBack [115] [58, 107] [1] 1 44) ∧
    (∃ f', missingFile.writeIntList (some [115, 93]) (some [107]) [1] 44 true true =
      some (0, f') ∧ ¬ f'.IntsComeBack [115, 93] [107] [1] 1 44) ∧
    ∃ f', openHeader.writeIntList (some [115]) (some [107]) [1] 44 true true =
      some (0, f') ∧ ¬ f'.IntsComeBack [115] [107] [1] 1 44 := by
  refine ⟨?nul, ?broken, ?empty, ?comment, ?section_, ?header⟩
  case nul =>
    have text : (intPieces 0 [1, 2]).flatten = [49, 50] := by decide +kernel
    obtain ⟨f', done, inited, working⟩ := missingFile_readWorking text (by simp)
      ⟨⟨by simp, by simp [isSpace], by simp [isSpace]⟩, by simp, by simp [newline]⟩
    have read := readIntList_of_working inited working
      (show (([49, 50].splitOn 0).take (2 : Int).toNat).map atoi = [12] by decide +kernel)
    exact ⟨f', done, not_intsComeBack_of_read _ read (by simp)⟩
  case broken =>
    have text : (intPieces 10 [1, 2]).flatten = [49, 10, 50] := by decide +kernel
    obtain ⟨f', done⟩ := missingFile_writePieces text (by simp) (by simp)
    obtain ⟨f'', attempted, printed⟩ := missingFile_printed (show [115] ≠ [] by simp)
      (show [107] ≠ [] by simp) (show [49, 10, 50] ≠ [] by simp) (by decide)
    have written := writePieces_text (by simp [intPieces]) done
    rw [text] at written
    obtain rfl : f' = f'' := (Prod.mk.inj (Option.some.inj (written.symm.trans attempted))).2
    have inited : f'.inited = true := writeString_inited written
    have reads : Reads f'.buf.cells [115] [107] [49] := by
      rw [printed]
      exact ⟨some ⟨1, 4⟩, ⟨⟨4, 4⟩, ⟨6, 6⟩⟩, by decide +kernel, by decide +kernel⟩
    have working := readWorking_of_reads inited reads (by simp) (by simp) (by simp) (by decide)
    have read := readIntList_of_working inited working
      (show (([49].splitOn 10).take (2 : Int).toNat).map atoi = [1] by decide +kernel)
    exact ⟨f', done, not_intsComeBack_of_read _ read (by simp)⟩
  case empty =>
    have text : (intPieces 44 [7]).flatten = [55] := by decide +kernel
    obtain ⟨f', done, inited, working⟩ := missingFile_readWorking text (by simp)
      ⟨⟨by simp, by simp [isSpace], by simp [isSpace]⟩, by simp, by simp [newline]⟩
    have read := readIntList_of_working inited working
      (show (([55].splitOn 44).take (1 : Int).toNat).map atoi = [7] by decide +kernel)
    exact ⟨f', f', done, rfl, not_intsComeBack_of_read _ read (by simp)⟩
  case comment =>
    exact lost_of_absent (some ⟨1, 4⟩) (by simp) (by simp) (by decide +kernel)
  case section_ =>
    exact lost_of_absent none (by simp) (by simp) (by decide +kernel)
  case header =>
    exact lost_of_absent none (by simp) (by simp) (by decide +kernel)

end CIniFile

end Taomee.IniFile
