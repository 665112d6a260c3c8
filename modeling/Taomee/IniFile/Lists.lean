import Taomee.IniFile.RoundTrip

/-!
# ini-file: the lists of a value

A list is written as one value, with a character between its items.
-/

namespace Taomee.IniFile

/-! ## The loops -/

/-- A check, and `strcat(m_working_buf, str)`; a text that fills the buffer has no room for its
NUL, and no result. -/
def appendWorking (working str : List UInt8) : Option (Except Errno (List UInt8)) :=
  if working.length + str.length > MAX_FILE_BUF_SIZE then some (.error .bufOverflow)
  else if working.length + str.length = MAX_FILE_BUF_SIZE then none
  else some (.ok (working ++ str))

/-- The loop of `write_int_list` and that of `write_string_list`, with what they append. -/
def appendAll : List (List UInt8) → List UInt8 → Option (Except Errno (List UInt8))
  | [], working => some (.ok working)
  | str :: rest, working =>
    match appendWorking working str with
    | some (.ok working) => appendAll rest working
    | stopped => stopped

/-- The loop of `read_int_list` and that of `read_string_list` over the rest of a text, with the
characters from `cur_pos` on: whether it ended without an error, `cnt`, and what `put` stored. -/
def itemLoop {σ : Type} (put : Nat → List UInt8 → σ → Option σ) (delimiter : UInt8)
    (listCnt : Int) : List UInt8 → List UInt8 → Nat → σ → Bool × Nat × σ
  | [], item, cnt, s =>
    if listCnt ≤ cnt then (true, cnt, s)
    else
      match put cnt item s with
      | none => (false, cnt, s)
      | some s => (true, cnt + 1, s)
  | c :: rest, item, cnt, s =>
    if listCnt ≤ cnt then (true, cnt, s)
    else if c = delimiter then
      match put cnt item s with
      | none => (false, cnt, s)
      | some s => itemLoop put delimiter listCnt rest [] (cnt + 1) s
    else itemLoop put delimiter listCnt rest (item ++ [c]) cnt s

namespace CIniFile

/-- The body of `write_int_list` and of `write_string_list`; without a piece `list_cnt` is 0. -/
def writePieces (f : CIniFile) (sect key : Option (List UInt8)) (pieces : List (List UInt8))
    (fopenOk fputsOk : Bool) : Option (Int × CIniFile) :=
  if pieces = [] then some (0, f)
  else if !f.inited then some (f.fail .notInited)
  else
    match appendAll pieces [] with
    | none => none
    | some (.error errno) => some (f.fail errno)
    | some (.ok working) => f.writeString sect key (some working) fopenOk fputsOk

/-- The body of `read_int_list` and of `read_string_list`. -/
def readItems {σ : Type} (f : CIniFile) (sect key : Option (List UInt8))
    (put : Nat → List UInt8 → σ → Option σ) (delimiter : UInt8) (listCnt : Int) (s : σ) :
    Option ((Int × σ) × CIniFile) :=
  if !f.inited then some ((-1, s), { f with mErrno := .notInited })
  else
    match f.readWorking sect key with
    | none => none
    | some ((0, text), f) =>
      match itemLoop put delimiter listCnt text [] 0 s with
      | (true, cnt, s) => some ((cnt, s), f)
      | (false, _, s) => some ((-1, s), { f with mErrno := .bufOverflow })
    | some (_, f) => some ((0, s), f)

end CIniFile

/-! ## What is written -/

theorem appendAll_text {pieces : List (List UInt8)} {working text : List UInt8}
    (appended : appendAll pieces working = some (.ok text)) : text = working ++ pieces.flatten := by
  induction pieces generalizing working with
  | nil =>
    obtain rfl : working = text := by simpa [appendAll] using appended
    simp
  | cons str rest ih =>
    rw [appendAll, appendWorking] at appended
    split at appended
    case h_1 working' first =>
      have onward := ih appended
      split at first
      · cases first
      split at first
      · cases first
      obtain rfl : working ++ str = working' := by simpa using first
      rw [onward, List.flatten_cons, List.append_assoc]
    case h_2 stopped other =>
      exact absurd appended (other text)

section Joined

variable {separator c : UInt8} {items : List (List UInt8)}

theorem mem_joined (among : c ∈ [separator].intercalate items) :
    c = separator ∨ ∃ item ∈ items, c ∈ item := by
  induction items with
  | nil => cases among
  | cons item rest ih =>
    rcases rest with _ | ⟨next, rest⟩
    · rw [List.intercalate_singleton] at among
      exact .inr ⟨item, List.mem_cons_self, among⟩
    · rw [List.intercalate_cons_cons, List.mem_append, List.mem_append, List.mem_singleton] at among
      rcases among with (here | between) | later
      · exact .inr ⟨item, List.mem_cons_self, here⟩
      · exact .inl between
      · rcases ih later with between | ⟨other, member, inside⟩
        · exact .inl between
        · exact .inr ⟨other, List.mem_cons_of_mem _ member, inside⟩

/-- No blank is in front of the first item. -/
theorem head_joined (plain : isSpace separator = false)
    (first : ∀ item ∈ items, ∀ c ∈ item.head?, isSpace c = false)
    (among : c ∈ ([separator].intercalate items).head?) : isSpace c = false := by
  rcases items with _ | ⟨item, _ | ⟨next, rest⟩⟩
  · cases among
  · rw [List.intercalate_singleton] at among
    exact first item List.mem_cons_self c among
  · rcases item with _ | ⟨d, item⟩
    · obtain rfl : separator = c := by simpa using among
      exact plain
    · obtain rfl : d = c := by simpa using among
      exact first _ List.mem_cons_self d rfl

/-- No blank is behind the last item. -/
theorem last_joined (plain : isSpace separator = false)
    (last : ∀ item ∈ items, ∀ c ∈ item.getLast?, isSpace c = false)
    (among : c ∈ ([separator].intercalate items).getLast?) : isSpace c = false := by
  induction items with
  | nil => cases among
  | cons item rest ih =>
    rcases rest with _ | ⟨next, rest⟩
    · rw [List.intercalate_singleton] at among
      exact last item List.mem_cons_self c among
    · have onward := ih fun item member => last item (List.mem_cons_of_mem _ member)
      rw [List.intercalate_cons_cons, List.getLast?_append] at among
      rcases ends : ([separator].intercalate (next :: rest)).getLast? with _ | d
      · rw [ends] at among
        obtain rfl : separator = c := by simpa using among
        exact plain
      · rw [ends] at among onward
        obtain rfl : d = c := by simpa using among
        exact onward rfl

/-- Items without blanks at their ends are one line, together. -/
theorem oneLine_joined (some_ : [separator].intercalate items ≠ [])
    (plain : isSpace separator = false)
    (first : ∀ item ∈ items, ∀ c ∈ item.head?, isSpace c = false)
    (last : ∀ item ∈ items, ∀ c ∈ item.getLast?, isSpace c = false)
    (unbroken : ∀ c ∈ [separator].intercalate items, c ≠ 0 ∧ newline c = false) :
    OneLine ([separator].intercalate items) where
  some_ := some_
  first _ among := head_joined plain first among
  last _ among := last_joined plain last among
  nonzero nul := (unbroken 0 nul).1 rfl
  unbroken c among := (unbroken c among).2

end Joined

/-! ## What is read -/

/-- One item after the other. -/
def putAll {σ : Type} (put : Nat → List UInt8 → σ → Option σ) :
    List (List UInt8) → Nat → σ → Bool × Nat × σ
  | [], cnt, s => (true, cnt, s)
  | item :: rest, cnt, s =>
    match put cnt item s with
    | none => (false, cnt, s)
    | some s => putAll put rest (cnt + 1) s

theorem modifyHead_nil_append (parts : List (List UInt8)) : parts.modifyHead ([] ++ ·) = parts := by
  cases parts <;> rfl

/-- The loop puts the first `listCnt` parts of the text between the delimiters. -/
theorem itemLoop_eq {σ : Type} (put : Nat → List UInt8 → σ → Option σ) (delimiter : UInt8)
    (listCnt : Int) (text item : List UInt8) (cnt : Nat) (s : σ) :
    itemLoop put delimiter listCnt text item cnt s =
      putAll put (((text.splitOn delimiter).modifyHead (item ++ ·)).take (listCnt - cnt).toNat)
        cnt s := by
  induction text generalizing item cnt s with
  | nil =>
    rw [itemLoop, List.splitOn_nil, List.modifyHead_cons, List.append_nil]
    by_cases full : listCnt ≤ cnt
    · rw [if_pos full, Int.toNat_of_nonpos (by omega)]
      rfl
    · obtain ⟨left, more⟩ : ∃ left, (listCnt - cnt).toNat = left + 1 :=
        ⟨(listCnt - cnt).toNat - 1, by omega⟩
      rw [if_neg full, more, List.take_succ_cons, List.take_nil, putAll]
      cases put cnt item s <;> rfl
  | cons c rest ih =>
    rw [itemLoop]
    by_cases full : listCnt ≤ cnt
    · rw [if_pos full, Int.toNat_of_nonpos (by omega)]
      rfl
    rw [if_neg full, List.splitOn_cons_eq_if_modifyHead]
    by_cases here : c = delimiter
    · obtain ⟨left, more, next⟩ : ∃ left, (listCnt - cnt).toNat = left + 1 ∧
          (listCnt - (cnt + 1 : Nat)).toNat = left :=
        ⟨(listCnt - cnt).toNat - 1, by omega, by omega⟩
      rw [if_pos here, if_pos (beq_iff_eq.mpr here), List.modifyHead_cons, List.append_nil, more,
        List.take_succ_cons, putAll]
      cases put cnt item s with
      | none => rfl
      | some s =>
        have onward := ih [] (cnt + 1) s
        rw [next, modifyHead_nil_append] at onward
        exact onward
    · have apart : ¬ (c == delimiter) = true := fun same => here (beq_iff_eq.mp same)
      have joined : ((rest.splitOn delimiter).modifyHead (List.cons c)).modifyHead (item ++ ·) =
          (rest.splitOn delimiter).modifyHead (item ++ [c] ++ ·) := by
        cases rest.splitOn delimiter with
        | nil => rfl
        | cons first others => simp
      rw [if_neg here, if_neg apart, joined, ih]

/-- The characters between the delimiters are characters of the text. -/
theorem mem_of_mem_splitOn {delimiter c : UInt8} {text item : List UInt8}
    (member : item ∈ text.splitOn delimiter) (inside : c ∈ item) : c ∈ text := by
  induction text generalizing item with
  | nil =>
    rw [List.splitOn_nil, List.mem_singleton] at member
    rw [member] at inside
    cases inside
  | cons d rest ih =>
    rw [List.splitOn_cons_eq_if_modifyHead] at member
    split at member
    · rcases List.mem_cons.mp member with rfl | member
      · cases inside
      · exact List.mem_cons_of_mem _ (ih member inside)
    · obtain ⟨first, others, parts⟩ :=
        List.exists_cons_of_ne_nil (List.splitOn_ne_nil delimiter rest)
      rw [parts, List.modifyHead_cons] at member
      rcases List.mem_cons.mp member with rfl | member
      · rcases List.mem_cons.mp inside with rfl | inside
        · exact List.mem_cons_self
        · have here : first ∈ rest.splitOn delimiter := by
            rw [parts]
            exact List.mem_cons_self
          exact List.mem_cons_of_mem _ (ih here inside)
      · have later : item ∈ rest.splitOn delimiter := by
          rw [parts]
          exact List.mem_cons_of_mem _ member
        exact List.mem_cons_of_mem _ (ih later inside)

namespace CIniFile

variable {f f' f'' : CIniFile} {sect key value text : List UInt8} {pieces : List (List UInt8)}
  {fopenOk fputsOk : Bool}

/-- What is written to the file is one piece behind the other. -/
theorem writePieces_text (some_ : pieces ≠ []) {sect key : Option (List UInt8)}
    (done : f.writePieces sect key pieces fopenOk fputsOk = some (0, f')) :
    f.writeString sect key (some pieces.flatten) fopenOk fputsOk = some (0, f') := by
  rw [writePieces, if_neg some_] at done
  split at done
  · cases done
  split at done
  · cases done
  · cases done
  case h_3 working appended =>
    rw [appendAll_text appended, List.nil_append] at done
    exact done

theorem appendAll_short {working : List UInt8}
    (short : working.length + pieces.flatten.length < MAX_FILE_BUF_SIZE) :
    appendAll pieces working = some (.ok (working ++ pieces.flatten)) := by
  induction pieces generalizing working with
  | nil => simp [appendAll]
  | cons str rest ih =>
    rw [List.flatten_cons, List.length_append] at short
    have first : appendWorking working str = some (.ok (working ++ str)) := by
      rw [appendWorking, if_neg (by omega), if_neg (by omega)]
    simp only [appendAll, first]
    rw [ih (by rw [List.length_append]; omega), List.flatten_cons, List.append_assoc]

theorem missingFile_writePieces (is : pieces.flatten = text) (short : text.length < 1024)
    (textNe : text ≠ []) :
    ∃ f', missingFile.writePieces (some [115]) (some [107]) pieces true true = some (0, f') := by
  have some_ : pieces ≠ [] := by
    rintro rfl
    exact textNe is.symm
  have limit : MAX_FILE_BUF_SIZE = 1048576 := rfl
  have inited : missingFile.inited = true := rfl
  have appended : appendAll pieces [] = some (.ok text) := by
    rw [appendAll_short (by rw [is, List.length_nil]; omega), List.nil_append, is]
  simp only [writePieces, if_neg some_, inited, Bool.not_true, Bool.false_eq_true, if_false,
    appended]
  exact missingFile_writeString short textNe

/-- A list whose text is one line comes back as that text. -/
theorem writePieces_readWorking (ready : f.Editable sect key) (cleanSect : CleanSection sect)
    (cleanKey : CleanKey key) (oneLine : OneLine pieces.flatten)
    (lengths : f.Lengths sect key pieces.flatten)
    (room : f.Room ⟨some sect, some key, some pieces.flatten, fopenOk, fputsOk⟩)
    (done : f.writePieces (some sect) (some key) pieces fopenOk fputsOk = some (0, f')) :
    f'.inited = true ∧ f'.readWorking (some sect) (some key) =
      some ((0, pieces.flatten), { f' with mErrno := .success }) := by
  have some_ : pieces ≠ [] := by
    rintro rfl
    exact oneLine.some_ rfl
  exact attempt_readWorking ready
    ⟨rfl, rfl, rfl, cleanSect.some_, cleanKey.some_, oneLine.some_⟩ cleanSect cleanKey oneLine
    lengths room (writePieces_text some_ done)

/-- Where something is counted a text was read. -/
theorem readWorking_of_readItems {σ : Type} {put : Nat → List UInt8 → σ → Option σ}
    {delimiter : UInt8} {listCnt ret : Int} {s s' : σ} (counted : 0 < ret)
    (reads : f.readItems (some sect) (some key) put delimiter listCnt s =
      some ((ret, s'), f')) :
    f.inited = true ∧
      ∃ text f', f.readWorking (some sect) (some key) = some ((0, text), f') := by
  unfold readItems at reads
  split at reads
  · obtain ⟨⟨rfl, -⟩, -⟩ : ((-1 = ret) ∧ _) ∧ _ := by simpa using reads
    omega
  case isFalse inited =>
    split at reads
    · cases reads
    case h_2 text after working => exact ⟨by simpa using inited, text, after, working⟩
    · obtain ⟨⟨rfl, -⟩, -⟩ : ((0 = ret) ∧ _) ∧ _ := by simpa using reads
      omega

theorem missingFile_readWorking (is : pieces.flatten = text) (short : text.length < 1024)
    (oneLine : OneLine text) :
    ∃ f', missingFile.writePieces (some [115]) (some [107]) pieces true true = some (0, f') ∧
      f'.inited = true ∧ f'.readWorking (some [115]) (some [107]) =
        some ((0, text), { f' with mErrno := .success }) := by
  obtain ⟨f', done⟩ := missingFile_writePieces is short oneLine.some_
  subst is
  exact ⟨f', done, writePieces_readWorking (missingFile_editable _ _) cleanSection_s cleanKey_k
    oneLine (missingFile_lengths short) (missingFile_room short oneLine.some_) done⟩

/-- A read of a list puts the parts of the text between the delimiters. -/
theorem readItems_eq {σ : Type} (put : Nat → List UInt8 → σ → Option σ) (delimiter : UInt8)
    (listCnt : Int) (s : σ) (inited : f.inited = true)
    (working : f.readWorking (some sect) (some key) = some ((0, text), f')) :
    f.readItems (some sect) (some key) put delimiter listCnt s =
      match putAll put ((text.splitOn delimiter).take listCnt.toNat) 0 s with
      | (true, cnt, s) => some ((cnt, s), f')
      | (false, _, s) => some ((-1, s), { f' with mErrno := .bufOverflow }) := by
  have loop := itemLoop_eq put delimiter listCnt text [] 0 s
  rw [modifyHead_nil_append, Nat.cast_zero, Int.sub_zero] at loop
  simp only [readItems, inited, Bool.not_true, Bool.false_eq_true, if_false, working, loop]

end CIniFile

end Taomee.IniFile
