import Taomee.IniFile.Lists

/-!
# ini-file: lists of strings

The items are copied to slots of one length in the caller's buffer.
-/

namespace Taomee.IniFile

/-- `,` -/
def comma : UInt8 := 44

/-- What `write_string_list` appends, whatever its delimiter is. -/
def stringPieces : List (List UInt8) → List (List UInt8)
  | [] => []
  | first :: rest => first :: rest.map fun item => comma :: item

/-- The bytes at and around `list`, and whether an item was copied past the end of its slot. -/
structure Slots where
  cells : Int → UInt8
  crossed : Bool

namespace Slots

/-- `strcpy` to a place. -/
def strcpy (cells : Int → UInt8) (start : Int) (item : List UInt8) (x : Int) : UInt8 :=
  if start ≤ x ∧ x ≤ start + item.length then item.getD (x - start).toNat 0 else cells x

/-- The check of the length, and `strcpy(list + cnt * list_len, cur_pos)`. -/
def put (listLen : Int) (cnt : Nat) (item : List UInt8) (slots : Slots) : Option Slots :=
  if intLen item > listLen then none
  else
    some ⟨strcpy slots.cells (cnt * listLen) item, slots.crossed || listLen < item.length + 1⟩

/-- A string and its NUL are there from a place on. -/
def Has (cells : Int → UInt8) (start : Int) (item : List UInt8) : Prop :=
  ∀ k : Nat, k ≤ item.length → cells (start + k) = item.getD k 0

end Slots

namespace CIniFile

/-- `write_string_list`, which does not look at its delimiter. -/
def writeStringList (f : CIniFile) (sect key : Option (List UInt8)) (list : List (List UInt8))
    (_delimiter : UInt8) (fopenOk fputsOk : Bool) : Option (Int × CIniFile) :=
  f.writePieces sect key (stringPieces list) fopenOk fputsOk

/-- `read_string_list` -/
def readStringList (f : CIniFile) (sect key : Option (List UInt8)) (cells : Int → UInt8)
    (listCnt listLen : Int) (delimiter : UInt8) : Option ((Int × Slots) × CIniFile) :=
  f.readItems sect key (Slots.put listLen) delimiter listCnt ⟨cells, false⟩

/-- All items are read, each into its slot. -/
def StringsComeBack (f : CIniFile) (sect key : List UInt8) (list : List (List UInt8))
    (cells : Int → UInt8) (listCnt listLen : Int) (delimiter : UInt8) : Prop :=
  ∃ slots f', f.readStringList (some sect) (some key) cells listCnt listLen delimiter =
      some (((list.length : Int), slots), f') ∧
    (∀ (cnt : Nat) item, list[cnt]? = some item → Slots.Has slots.cells (cnt * listLen) item) ∧
      slots.crossed = false

end CIniFile

/-- An item without the delimiter and without blanks at its ends, not longer than a slot. -/
structure Plain (delimiter : UInt8) (listLen : Int) (item : List UInt8) : Prop where
  first : ∀ c ∈ item.head?, isSpace c = false
  last : ∀ c ∈ item.getLast?, isSpace c = false
  nonzero : 0 ∉ item
  apart : delimiter ∉ item
  short : item.length ≤ listLen

/-! ## The slots -/

/-- A length that is converted to `int` does not grow. -/
theorem intLen_le (text : List UInt8) : intLen text ≤ text.length := by
  have remainder : (text.length : Int) % 2 ^ 32 ≤ text.length := by omega
  rw [intLen, int, Int.bmod_def]
  split
  · exact_mod_cast remainder
  · omega

namespace Slots

variable {listLen : Int} {cnt cnt' : Nat} {item other : List UInt8} {items : List (List UInt8)}
  {cells : Int → UInt8} {start : Int} {slots after : Slots}

/-- Two strings at one place are one. -/
theorem Has.unique (has : Has cells start item) (has' : Has cells start other)
    (nonzero : 0 ∉ item) (nonzero' : 0 ∉ other) : item = other := by
  have shorter {a b : List UInt8} (hasA : Has cells start a) (hasB : Has cells start b)
      (some_ : 0 ∉ b) : b.length ≤ a.length := by
    by_contra longer
    have nul := hasA a.length (Nat.le_refl _)
    have byte := hasB a.length (by omega)
    rw [List.getD_eq_default _ _ (Nat.le_refl _)] at nul
    rw [nul, List.getD_eq_getElem _ _ (by omega)] at byte
    exact some_ (byte ▸ List.getElem_mem _)
  have length : item.length = other.length :=
    Nat.le_antisymm (shorter has' has nonzero) (shorter has has' nonzero')
  refine List.ext_getElem length fun k inside inside' => ?_
  have first := has k (Nat.le_of_lt inside)
  have second := has' k (Nat.le_of_lt inside')
  rw [List.getD_eq_getElem _ _ inside] at first
  rw [List.getD_eq_getElem _ _ inside'] at second
  exact first.symm.trans second

theorem strcpy_has (cells : Int → UInt8) (start : Int) (item : List UInt8) :
    Has (strcpy cells start item) start item := by
  intro k inside
  rw [strcpy, if_pos (by omega), show (start + k - start).toNat = k by omega]

theorem strcpy_outside {x : Int} (before : x < start) : strcpy cells start item x = cells x := by
  rw [strcpy, if_neg (by omega)]

theorem put_fits (fits : (item.length : Int) < listLen) :
    put listLen cnt item slots = some ⟨strcpy slots.cells (cnt * listLen) item, slots.crossed⟩ := by
  have length := intLen_le item
  have inside : ¬ listLen < item.length + 1 := by omega
  rw [put, if_neg (by omega), decide_eq_false inside, Bool.or_false]

/-- Items that fit with their NUL end in their slots. -/
theorem putAll_fits (cnt : Nat) (slots : Slots)
    (fits : ∀ item ∈ items, (item.length : Int) < listLen) :
    ∃ after, putAll (put listLen) items cnt slots = (true, cnt + items.length, after) ∧
      after.crossed = slots.crossed ∧ (∀ x < cnt * listLen, after.cells x = slots.cells x) ∧
        ∀ (k : Nat) item, items[k]? = some item →
          Has after.cells ((cnt + k : Nat) * listLen) item := by
  induction items generalizing cnt slots with
  | nil => exact ⟨slots, rfl, rfl, fun _ _ => rfl, fun k item none_ => by simp at none_⟩
  | cons item rest ih =>
    have here := fits item List.mem_cons_self
    have next : ((cnt + 1 : Nat) : Int) * listLen = cnt * listLen + listLen := by
      push_cast
      rw [Int.add_mul, Int.one_mul]
    have later := fun item member => fits item (List.mem_cons_of_mem _ member)
    obtain ⟨after, loop, crossed, before, has⟩ :=
      ih (cnt + 1) ⟨strcpy slots.cells (cnt * listLen) item, slots.crossed⟩ later
    refine ⟨after, ?_, crossed, fun x below => ?_, fun k other found => ?_⟩
    · rw [putAll, put_fits here]
      simp only [loop, List.length_cons]
      congr 2
      omega
    · rw [before x (by omega)]
      exact strcpy_outside below
    · cases k with
      | zero =>
        obtain rfl : item = other := by simpa using found
        intro k inside
        rw [Nat.add_zero, before _ (by omega)]
        exact strcpy_has _ _ _ k inside
      | succ k =>
        have place := has k other (by simpa using found)
        rw [show cnt + 1 + k = cnt + (k + 1) by omega] at place
        exact place

/-- Where no slot was crossed all items fit with their NUL. -/
theorem fits_of_putAll (done : putAll (put listLen) items cnt slots = (true, cnt', after))
    (inside : after.crossed = false) :
    slots.crossed = false ∧ ∀ item ∈ items, (item.length : Int) < listLen := by
  induction items generalizing cnt slots with
  | nil =>
    obtain ⟨-, -, rfl⟩ : True ∧ cnt = cnt' ∧ slots = after := by simpa [putAll] using done
    exact ⟨inside, List.forall_mem_nil _⟩
  | cons item rest ih =>
    rw [putAll, put] at done
    split at done
    · cases done
    case h_2 next first =>
      obtain ⟨before, later⟩ := ih done
      split at first
      · cases first
      · obtain rfl := Option.some.inj first
        obtain ⟨outside, short⟩ := Bool.or_eq_false_iff.mp before
        have fits := of_decide_eq_false short
        exact ⟨outside, List.forall_mem_cons.mpr ⟨by omega, later⟩⟩

end Slots

/-! ## A list -/

theorem flatten_stringPieces (list : List (List UInt8)) :
    (stringPieces list).flatten = [comma].intercalate list := by
  rcases list with _ | ⟨first, rest⟩
  · rfl
  rw [stringPieces, List.flatten_cons]
  induction rest generalizing first with
  | nil => simp
  | cons next rest ih =>
    rw [List.map_cons, List.flatten_cons, List.cons_append, ih, List.intercalate_cons_cons,
      List.append_assoc, List.singleton_append]

namespace CIniFile

variable {f f' : CIniFile} {sect key text : List UInt8} {list : List (List UInt8)}
  {cells : Int → UInt8} {listCnt listLen : Int} {delimiter : UInt8} {fopenOk fputsOk : Bool}

/-- A text comes back as a list if and only if its parts are the items and each leaves a place
for its NUL. -/
theorem stringsComeBack_iff_splitOn (inited : f.inited = true)
    (working : f.readWorking (some sect) (some key) = some ((0, text), f'))
    (nonzero : 0 ∉ text) (plain : ∀ item ∈ list, 0 ∉ item) :
    f.StringsComeBack sect key list cells listCnt listLen delimiter ↔
      (text.splitOn delimiter).take listCnt.toNat = list ∧
        ∀ item ∈ list, (item.length : Int) < listLen := by
  have reads := readItems_eq (Slots.put listLen) delimiter listCnt ⟨cells, false⟩ inited working
  have noNul : ∀ item ∈ (text.splitOn delimiter).take listCnt.toNat, 0 ∉ item := by
    intro item member among
    exact nonzero (mem_of_mem_splitOn (List.mem_of_mem_take member) among)
  generalize (text.splitOn delimiter).take listCnt.toNat = items at reads noNul
  constructor
  · rintro ⟨slots, after, same, has, inside⟩
    rw [readStringList, reads] at same
    split at same
    case h_2 =>
      have negative : (-1 : Int) = list.length := congrArg (·.1.1) (Option.some.inj same)
      omega
    case h_1 cnt slots' loop =>
      obtain ⟨length, rfl⟩ : (cnt : Int) = list.length ∧ slots' = slots := by
        simpa using congrArg Prod.fst (Option.some.inj same)
      obtain ⟨-, fits⟩ := Slots.fits_of_putAll loop inside
      obtain ⟨slots, loop', -, -, places⟩ := Slots.putAll_fits 0 ⟨cells, false⟩ fits
      obtain ⟨-, count, rfl⟩ : True ∧ cnt = items.length ∧ slots' = slots := by
        simpa using loop.symm.trans loop'
      have equal : items = list := by
        refine List.ext_getElem (by omega) fun k first second => ?_
        have place := places k _ (List.getElem?_eq_getElem first)
        rw [Nat.zero_add] at place
        exact place.unique (has k _ (List.getElem?_eq_getElem second))
          (noNul _ (List.getElem_mem first)) (plain _ (List.getElem_mem second))
      exact ⟨equal, equal ▸ fits⟩
  · rintro ⟨rfl, fits⟩
    obtain ⟨slots, loop, inside, -, places⟩ := Slots.putAll_fits 0 ⟨cells, false⟩ fits
    refine ⟨slots, f', ?_, fun cnt item found => ?_, inside⟩
    · rw [readStringList, reads, loop]
      simp only [Nat.zero_add]
    · have place := places cnt item found
      rw [Nat.zero_add] at place
      exact place

/-- A text that is read has no line break, and items that come back are parts of it. -/
theorem unbroken_of_stringsComeBack (sectNe : sect ≠ []) (keyNe : key ≠ []) (some_ : list ≠ [])
    (noNul : ∀ item ∈ list, 0 ∉ item)
    (comesBack : f.StringsComeBack sect key list cells listCnt listLen delimiter) :
    ∀ item ∈ list, ∀ c ∈ item, newline c = false := by
  obtain ⟨slots, after, reads, -, -⟩ := id comesBack
  have positive := List.length_pos_iff.mpr some_
  obtain ⟨inited, text, after', working⟩ := readWorking_of_readItems (by omega) reads
  have line := readWorking_plain sectNe keyNe working
  have parts := ((stringsComeBack_iff_splitOn inited working (fun nul => (line 0 nul).1 rfl)
    noNul).mp comesBack).1
  intro item member c inside
  rw [← parts] at member
  exact (line c (mem_of_mem_splitOn (List.mem_of_mem_take member) inside)).2

/-- The text of items without line breaks is one line. -/
theorem oneLine_stringPieces (plain : ∀ item ∈ list, Plain delimiter listLen item)
    (unbroken : ∀ item ∈ list, ∀ c ∈ item, newline c = false)
    (some_ : [comma].intercalate list ≠ []) : OneLine ([comma].intercalate list) := by
  refine oneLine_joined some_ rfl (fun item member => (plain item member).first)
    (fun item member => (plain item member).last) fun c among => ?_
  rcases mem_joined among with rfl | ⟨item, member, inside⟩
  · decide
  · refine ⟨fun nul => (plain item member).nonzero (nul ▸ inside), unbroken item member c inside⟩

/-- A comma between the items is between them again where it is the delimiter, or there is one. -/
theorem splitOn_stringPieces (some_ : list ≠ [])
    (plain : ∀ item ∈ list, Plain delimiter listLen item) (enough : (list.length : Int) ≤ listCnt) :
    (([comma].intercalate list).splitOn delimiter).take listCnt.toNat = list ↔
      list.length = 1 ∨ delimiter = comma := by
  constructor
  · intro same
    by_contra neither
    obtain ⟨more, other⟩ := not_or.mp neither
    have apart : delimiter ∉ [comma].intercalate list := by
      intro among
      rcases mem_joined among with here | ⟨item, member, inside⟩
      · exact other here
      · exact (plain item member).apart inside
    rw [List.splitOn_eq_singleton apart] at same
    have length := congrArg List.length same
    have positive := List.length_pos_iff.mpr some_
    rw [List.length_take, List.length_singleton] at length
    omega
  · intro either
    have split : ([comma].intercalate list).splitOn delimiter = list := by
      rcases either with one | rfl
      · obtain ⟨item, rfl⟩ := List.length_eq_one_iff.mp one
        rw [List.intercalate_singleton]
        exact List.splitOn_eq_singleton (plain item List.mem_cons_self).apart
      · exact List.splitOn_intercalate comma (fun item member => (plain item member).apart) some_
    rw [split, List.take_of_length_le (by omega)]

/-- The items of a list come back if and only if there is one or the delimiter is the comma, none
has a line break, and each leaves a place for its NUL. After an empty list nothing is read if and
only if nothing is asked for, or nothing was there. -/
theorem stringsComeBack_iff (ready : f.Editable sect key) (cleanSect : CleanSection sect)
    (cleanKey : CleanKey key) (plain : ∀ item ∈ list, Plain delimiter listLen item)
    (lengths : f.Lengths sect key ([comma].intercalate list))
    (room : f.Room ⟨some sect, some key, some ([comma].intercalate list), fopenOk, fputsOk⟩)
    (done : f.writeStringList (some sect) (some key) list delimiter fopenOk fputsOk =
      some (0, f'))
    (enough : (list.length : Int) ≤ listCnt) :
    f'.StringsComeBack sect key list cells listCnt listLen delimiter ↔
      if list = [] then listCnt = 0 ∨ ∃ sec, parseFile f.buf.cells sect key = some ⟨sec, none⟩
      else (list.length = 1 ∨ delimiter = comma) ∧
        ∀ item ∈ list, (item.length : Int) < listLen ∧ ∀ c ∈ item, newline c = false := by
  have noNul : ∀ item ∈ list, 0 ∉ item := fun item member => (plain item member).nonzero
  split
  case isTrue empty =>
    -- nothing was written
    subst empty
    obtain rfl : f = f' := by simpa [writeStringList, writePieces, stringPieces] using done
    have found := ready.sized.holds.parseFile_reads
      (by rw [length_text]; exact ready.bounded) ready.fine
    generalize ((reading sect key f.text).finish key).1 = parsed at found
    rcases parsed with ⟨sec, _ | entry⟩
    · obtain ⟨text, after, working⟩ :=
        readWorking_absent ready.inited cleanSect.some_ cleanKey.some_ found
      have none_ : ∀ (cnt : Nat) item, ([] : List (List UInt8))[cnt]? = some item →
          Slots.Has cells (cnt * listLen) item := by
        intro cnt item found
        cases found
      refine iff_of_true ⟨⟨cells, false⟩, after, ?_, none_, rfl⟩ (.inr ⟨sec, found⟩)
      simp only [readStringList, readItems, ready.inited, working, Bool.not_true,
        Bool.false_eq_true, if_false]
      rfl
    · obtain ⟨text, working, bytes⟩ :=
        readWorking_present ready.inited cleanSect.some_ cleanKey.some_ found
      rw [stringsComeBack_iff_splitOn ready.inited working (fun nul => (bytes 0 nul).1 rfl) noNul]
      have notAbsent : ¬ ∃ sec, parseFile f.buf.cells sect key = some ⟨sec, none⟩ := by
        rintro ⟨sec', absent⟩
        rw [found] at absent
        cases absent
      have parts := List.splitOn_ne_nil delimiter text
      have all : ∀ item ∈ ([] : List (List UInt8)), (item.length : Int) < listLen :=
        List.forall_mem_nil _
      rw [or_iff_left notAbsent, and_iff_left all, List.take_eq_nil_iff, or_iff_left parts]
      rw [List.length_nil] at enough
      omega
  case isFalse some_ =>
    rw [← flatten_stringPieces] at lengths room
    have pieces : stringPieces list ≠ [] := by
      intro none_
      cases list with
      | nil => exact some_ rfl
      | cons item rest => cases none_
    have textNe := value_ne_nil_of_writeString (writePieces_text pieces done)
    have comesBack_iff (unbroken : ∀ item ∈ list, ∀ c ∈ item, newline c = false) :
        f'.StringsComeBack sect key list cells listCnt listLen delimiter ↔
          (list.length = 1 ∨ delimiter = comma) ∧ ∀ item ∈ list, (item.length : Int) < listLen := by
      rw [flatten_stringPieces] at textNe
      have oneLine := oneLine_stringPieces plain unbroken textNe
      rw [← flatten_stringPieces] at oneLine
      obtain ⟨inited, working⟩ :=
        writePieces_readWorking ready cleanSect cleanKey oneLine lengths room done
      rw [stringsComeBack_iff_splitOn inited working oneLine.nonzero noNul, flatten_stringPieces,
        splitOn_stringPieces some_ plain enough]
    constructor
    · intro comesBack
      have unbroken :=
        unbroken_of_stringsComeBack cleanSect.some_ cleanKey.some_ some_ noNul comesBack
      obtain ⟨either, fits⟩ := (comesBack_iff unbroken).mp comesBack
      exact ⟨either, fun item member => ⟨fits item member, unbroken item member⟩⟩
    · rintro ⟨either, fits⟩
      exact (comesBack_iff fun item member => (fits item member).2).mpr
        ⟨either, fun item member => (fits item member).1⟩

/-- `a,b` in slots of two bytes. -/
theorem stringsComeBack_iff_two : ∃ f',
    missingFile.writeStringList (some [115]) (some [107]) [[97], [98]] 44 true true =
      some (0, f') ∧ f'.StringsComeBack [115] [107] [[97], [98]] (fun _ => 0) 2 2 44 := by
  have text : ([comma].intercalate [[97], [98]]) = [97, 44, 98] := by decide
  have pieces := (flatten_stringPieces [[97], [98]]).trans text
  have plain : ∀ item ∈ ([[97], [98]] : List (List UInt8)), Plain 44 2 item := by
    intro item member
    obtain rfl | rfl : item = [97] ∨ item = [98] := by simpa using member
    all_goals
      exact ⟨by simp [isSpace], by simp [isSpace], by simp, by simp, by simp⟩
  obtain ⟨f', done⟩ := missingFile_writePieces pieces (by simp) (by simp)
  refine ⟨f', done, ?_⟩
  refine (stringsComeBack_iff (missingFile_editable _ _) cleanSection_s cleanKey_k plain
    (missingFile_lengths (by rw [text]; simp)) (missingFile_room (by rw [text]; simp)
    (by rw [text]; simp)) done (by simp)).mpr ?_
  rw [if_neg (by simp)]
  exact ⟨.inr rfl, by simp [newline]⟩

/-- `a` and `b` with the delimiter `;`, an item of the length of its slot, and one with a line
break. -/
theorem stringLists_lost :
    (∃ f', missingFile.writeStringList (some [115]) (some [107]) [[97], [98]] 59 true true =
      some (0, f') ∧ ¬ f'.StringsComeBack [115] [107] [[97], [98]] (fun _ => 0) 2 2 59) ∧
    (∃ f', missingFile.writeStringList (some [115]) (some [107]) [[97, 98]] 44 true true =
      some (0, f') ∧ ¬ f'.StringsComeBack [115] [107] [[97, 98]] (fun _ => 0) 1 2 44) ∧
    ∃ f', missingFile.writeStringList (some [115]) (some [107]) [[97, 10, 98]] 44 true true =
      some (0, f') ∧ ¬ f'.StringsComeBack [115] [107] [[97, 10, 98]] (fun _ => 0) 1 4 44 := by
  refine ⟨?delimiter, ?slot, ?broken⟩
  case delimiter =>
    have text : (stringPieces [[97], [98]]).flatten = [97, 44, 98] := by decide
    obtain ⟨f', done, inited, working⟩ := missingFile_readWorking text (by simp)
      ⟨⟨by simp, by simp [isSpace], by simp [isSpace]⟩, by simp, by simp [newline]⟩
    refine ⟨f', done, ?_⟩
    rw [stringsComeBack_iff_splitOn inited working (by simp) (by simp)]
    intro same
    have parts : (([97, 44, 98] : List UInt8).splitOn 59).take (2 : Int).toNat =
        [[97, 44, 98]] := by
      decide
    rw [parts] at same
    simp at same
  case slot =>
    have text : (stringPieces [[97, 98]]).flatten = [97, 98] := by decide
    obtain ⟨f', done, inited, working⟩ := missingFile_readWorking text (by simp)
      ⟨⟨by simp, by simp [isSpace], by simp [isSpace]⟩, by simp, by simp [newline]⟩
    refine ⟨f', done, ?_⟩
    rw [stringsComeBack_iff_splitOn inited working (by simp) (by simp)]
    intro same
    have fits := same.2 [97, 98] List.mem_cons_self
    simp at fits
  case broken =>
    have text : (stringPieces [[97, 10, 98]]).flatten = [97, 10, 98] := by decide
    obtain ⟨f', done⟩ := missingFile_writePieces text (by simp) (by simp)
    refine ⟨f', done, fun comesBack => ?_⟩
    have unbroken := unbroken_of_stringsComeBack (by simp) (by simp) (by simp) (by simp) comesBack
      _ List.mem_cons_self 10 (by simp)
    cases unbroken

end CIniFile

end Taomee.IniFile
