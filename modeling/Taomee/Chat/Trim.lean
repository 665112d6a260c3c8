import Mathlib.Data.Finset.Insert
import Taomee.Library.LittleEndian
import Taomee.Library.Memory

/-!
# chat: the trim of abnormal characters

Before a message is hashed, `trim_abnormal_utf8` takes characters out of it in place: it reads
at `i` and writes behind `j`. A set holds the abnormal characters of each length, as the numbers
that their bytes are in memory.
-/

namespace Taomee.Chat

open LittleEndian Memory

/-- What the first byte of a character says; no character of up to three bytes starts with one
of the other bytes. -/
inductive Lead where
  | one
  | two
  | three
  | other
deriving DecidableEq

def lead (c : UInt8) : Lead :=
  if c &&& 0x80 = 0 then .one
  else if c &&& 0xE0 = 0xC0 then .two
  else if c &&& 0xF0 = 0xE0 then .three
  else .other

/-- The bytes that the scan goes on by. -/
def Lead.size : Lead → Nat
  | .one => 1
  | .two => 2
  | .three => 3
  | .other => 1

/-- `CTrimAbnormal`; the numbers of two bytes are those of characters. -/
structure TrimAbnormal where
  abnormalSet1 : Finset UInt8
  abnormalSet2 : Finset Nat
  abnormalSet3 : Finset Nat
  leads : ∀ val ∈ abnormalSet2, lead (UInt8.ofNat val) = .two

/-- The bytes of a string, with the NUL at its end and nothing known behind it. -/
def stored (text : List UInt8) : Int → UInt8 := write (fun _ => 0) 0 text

/-- The first byte is the low one. -/
theorem low_byte (s : Int → UInt8) : UInt8.ofNat (ofLe (read s 0 2)) = s 0 := by
  simp [Memory.read, ofLe, List.range_succ]

/-- `add_abnormal` -/
def TrimAbnormal.addAbnormal (t : TrimAbnormal) (s : Int → UInt8) : TrimAbnormal :=
  match first : lead (s 0) with
  | .other => t
  | .three => { t with abnormalSet3 := insert (ofLe (read s 0 3)) t.abnormalSet3 }
  | .two =>
    { t with
      abnormalSet2 := insert (ofLe (read s 0 2)) t.abnormalSet2
      leads := by
        intro val member
        rcases Finset.mem_insert.mp member with rfl | member
        · rw [low_byte, first]
        · exact t.leads val member }
  | .one => { t with abnormalSet1 := insert (s 0) t.abnormalSet1 }

/-- The characters that the constructor adds to the codes from 1 to 127. -/
def abnormalWords : List String :=
  ["，", "。", "！", "⊙ ", "﹏", "１", "２", "３", "４", "５", "６", "７", "８", "９", "０", "·", "丶",
    "∩", "☆", "★", "▽", "゛", "┣", "≦", "≧", "、", "【", "”", "“", "﹏", "？", "－", "（", "）", "＋",
    "；", "～", "ｉ", "Ａ", "Ｂ", "Ｃ", "Ｄ", "Ｅ", "Ｆ", "Ｇ", "Ｈ", "Ｉ", "Ｊ", "Ｋ", "Ｌ", "Ｍ", "Ｏ",
    "Ｐ", "Ｑ", "Ｒ", "Ｓ", "Ｔ", "Ｕ", "Ｖ", "Ｗ", "Ｘ", "Ｙ", "Ｚ", "ａ", "ｂ", "ｃ", "ｄ", "ｅ", "ｆ",
    "ｇ", "ｈ", "ｉ", "ｊ", "ｋ", "ｌ", "ｍ", "ｏ", "ｐ", "ｑ", "ｒ", "ｓ", "ｔ", "ｕ", "ｖ", "ｗ", "ｘ",
    "ｙ", "ｚ"]

/-- The constructor. -/
def TrimAbnormal.new : TrimAbnormal :=
  abnormalWords.foldl (fun t word => t.addAbnormal (stored word.toUTF8.data.toList))
    ⟨((List.range 127).map fun c => UInt8.ofNat (c + 1)).toFinset, ∅, ∅, by simp⟩

/-- The state of the scan: `k` is one more than the `j` of the source, and `reach` the furthest
byte that has been read. -/
structure Pass where
  s : Int → UInt8
  i : Nat
  k : Nat
  reach : Nat

namespace Pass

def look (p : Pass) (at' : Nat) : Pass := { p with reach := max p.reach at' }

/-- Go over a character. -/
def skip (p : Pass) (count : Nat) : Pass := { p with i := p.i + count }

/-- Go over a character that stays, and copy it where it has to move. -/
def keep (p : Pass) (count : Nat) : Pass :=
  if p.k < p.i then
    { p.look (p.i + count - 1) with
      s := write p.s p.k (read p.s p.i count)
      i := p.i + count
      k := p.k + count }
  else { p with i := p.i + count, k := p.k + count }

end Pass

namespace TrimAbnormal

/-- A pass of the loop. The number of a character of two bytes is read at the start of the string,
not at `i`. -/
def step (t : TrimAbnormal) (p : Pass) : Pass :=
  match lead (p.s p.i) with
  | .one => if p.s p.i ∈ t.abnormalSet1 then p.skip 1 else p.keep 1
  | .two =>
    let p := p.look 1
    if ofLe (read p.s 0 2) ∈ t.abnormalSet2 then p.skip 2 else p.keep 2
  | .three =>
    let p := p.look (p.i + 2)
    if ofLe (read p.s p.i 3) ∈ t.abnormalSet3 then p.skip 3 else p.keep 3
  | .other => p.skip 1

def trimLoop (t : TrimAbnormal) : Nat → Pass → Option Pass
  | 0, _ => none
  | fuel + 1, p =>
    let p := p.look p.i
    if p.s p.i = 0 then some p else trimLoop t fuel (t.step p)

/-- `trim_abnormal_utf8` -/
def trimAbnormalUtf8 (t : TrimAbnormal) (fuel : Nat) (s : Int → UInt8) : Option Pass :=
  (t.trimLoop fuel ⟨s, 0, 0, 0⟩).map fun p => { p with s := write p.s p.k [0] }

end TrimAbnormal

/-! ## Characters -/

/-- The bytes that the scan goes over together. -/
structure Character where
  first : UInt8
  more : List UInt8
  whole : more.length + 1 = (lead first).size
  noNul : ∀ byte ∈ first :: more, byte ≠ 0

def Character.bytes (c : Character) : List UInt8 := c.first :: c.more

def bytesOf (cs : List Character) : List UInt8 := cs.flatMap Character.bytes

namespace Character

@[simp] theorem length_bytes (c : Character) : c.bytes.length = (lead c.first).size := c.whole

theorem bytes_pos (c : Character) : 0 < (lead c.first).size := by
  rw [← c.whole]
  omega

end Character

@[simp] theorem bytesOf_nil : bytesOf [] = [] := rfl

@[simp] theorem bytesOf_cons (c : Character) (cs : List Character) :
    bytesOf (c :: cs) = c.bytes ++ bytesOf cs := rfl

@[simp] theorem bytesOf_append (cs more : List Character) :
    bytesOf (cs ++ more) = bytesOf cs ++ bytesOf more := List.flatMap_append

/-- The text ends inside a character. -/
def Truncated (text : List UInt8) : Prop :=
  ∃ cs first more, text = bytesOf cs ++ first :: more ∧ more.length + 1 < (lead first).size

/-- A text without a NUL is made of characters, up to one that it may break off. -/
theorem exists_characters {text : List UInt8} (noNul : ∀ byte ∈ text, byte ≠ 0)
    (whole : ¬ Truncated text) : ∃ cs, text = bytesOf cs := by
  induction length : text.length using Nat.strong_induction_on generalizing text with
  | _ n ih =>
    subst length
    cases text with
    | nil => exact ⟨[], rfl⟩
    | cons first rest =>
      have fits : (lead first).size ≤ rest.length + 1 := by
        by_contra short
        exact whole ⟨[], first, rest, rfl, by omega⟩
      have positive : 0 < (lead first).size := by cases lead first <;> decide
      let c : Character :=
        { first
          more := rest.take ((lead first).size - 1)
          whole := by
            rw [List.length_take]
            omega
          noNul := fun byte member => noNul byte (by
            rcases List.mem_cons.mp member with rfl | member
            · exact List.mem_cons_self
            · exact List.mem_cons_of_mem _ (List.mem_of_mem_take member)) }
      have split : first :: rest = c.bytes ++ rest.drop ((lead first).size - 1) := by
        simp [c, Character.bytes]
      obtain ⟨cs, same⟩ := ih (rest.drop ((lead first).size - 1)).length
        (by rw [List.length_drop, List.length_cons]; omega)
        (fun byte member => noNul byte (List.mem_cons_of_mem _ (List.mem_of_mem_drop member)))
        (by
          rintro ⟨cs, first', more, same, cut⟩
          exact whole ⟨c :: cs, first', more, by rw [split, same]; simp, cut⟩)
        rfl
      exact ⟨c :: cs, by rw [split, same, bytesOf_cons]⟩

/-- The first byte says how long a character is, so that a text has one reading. -/
theorem bytesOf_not_truncated (cs : List Character) : ¬ Truncated (bytesOf cs) := by
  rintro ⟨ds, first, more, same, cut⟩
  induction cs generalizing ds with
  | nil => simpa using congrArg List.length same
  | cons c rest ih =>
    cases ds with
    | nil =>
      have later : c.first = first ∧ c.more ++ bytesOf rest = more := List.cons.inj same
      obtain ⟨rfl, rfl⟩ := later
      have whole := c.whole
      rw [List.length_append] at cut
      omega
    | cons d ds =>
      have heads : c.first = d.first := (List.cons.inj same).1
      rw [bytesOf_cons, bytesOf_cons, List.append_assoc] at same
      exact ih ds (List.append_inj same (by simp [heads])).2

namespace TrimAbnormal

variable {t : TrimAbnormal}

/-- The character belongs to a set. -/
def abnormal (t : TrimAbnormal) (c : Character) : Bool :=
  match lead c.first with
  | .one => c.first ∈ t.abnormalSet1
  | .two => ofLe c.bytes ∈ t.abnormalSet2
  | .three => ofLe c.bytes ∈ t.abnormalSet3
  | .other => false

/-- The characters that may stay. -/
def normal (t : TrimAbnormal) (c : Character) : Bool := lead c.first ≠ .other && !t.abnormal c

/-- Whether a character stays while another is at the front of the buffer. -/
def keeps (t : TrimAbnormal) (front c : Character) : Bool :=
  match lead c.first with
  | .two => !(lead front.first = .two && t.abnormal front)
  | _ => t.normal c

/-- The characters that stay; the first of them comes to the front of the buffer. -/
def sift (t : TrimAbnormal) (front : Character) : List Character → List Character
  | [] => []
  | c :: rest => if t.keeps front c then c :: rest.filter (t.keeps c) else sift t front rest

/-- What a character at the front of the buffer makes of those of two bytes. -/
theorem front_number {s : Int → UInt8} {front : Character}
    (starts : read s 0 front.bytes.length = front.bytes) :
    ofLe (read s 0 2) ∈ t.abnormalSet2 ↔ lead front.first = .two ∧ t.abnormal front := by
  by_cases two : lead front.first = .two
  · rw [front.length_bytes, two] at starts
    have number : read s 0 2 = front.bytes := starts
    simp [abnormal, two, number]
  · refine iff_of_false (fun member => ?_) fun both => two both.1
    have first : s 0 = front.first := by
      have cell := cell_of_read starts (Nat.lt_of_lt_of_eq front.bytes_pos front.length_bytes.symm)
      simpa [Character.bytes] using cell
    have leads := t.leads _ member
    rw [low_byte, first] at leads
    exact two leads

end TrimAbnormal

/-! ## The scan -/

/-- Between two passes: the kept bytes are at the front, those to come at their old place. -/
structure Pass.Between (p : Pass) (kept rest : List Character) (n : Nat) : Prop where
  behind : p.k ≤ p.i
  stays : read p.s 0 p.k = bytesOf kept
  comes : read p.s p.i (bytesOf rest).length = bytesOf rest
  ends : p.i + (bytesOf rest).length = n
  nul : p.s n = 0
  reach : p.reach ≤ n

namespace Pass.Between

variable {p : Pass} {kept rest : List Character} {c : Character} {n : Nat}

theorem look (between : p.Between kept rest n) {at' : Nat} (inside : at' ≤ n) :
    (p.look at').Between kept rest n :=
  { between with reach := max_le between.reach inside }

/-- The next character and what comes after it. -/
theorem next (between : p.Between kept (c :: rest) n) :
    read p.s p.i (lead c.first).size = c.bytes ∧
      read p.s (p.i + (lead c.first).size : Nat) (bytesOf rest).length = bytesOf rest ∧
      p.i + (lead c.first).size + (bytesOf rest).length = n := by
  have ends := between.ends
  have comes := between.comes
  rw [bytesOf_cons, List.length_append, read_add, c.length_bytes] at comes
  rw [bytesOf_cons, List.length_append, c.length_bytes] at ends
  obtain ⟨first, second⟩ := List.append_inj comes (by simp)
  exact ⟨first, by simpa using second, by omega⟩

theorem skip (between : p.Between kept (c :: rest) n) :
    (p.skip (lead c.first).size).Between kept rest n := by
  obtain ⟨-, later, ends⟩ := between.next
  have behind := between.behind
  exact ⟨by dsimp only [Pass.skip]; omega, between.stays, later, ends, between.nul, between.reach⟩

theorem keep (between : p.Between kept (c :: rest) n) :
    (p.keep (lead c.first).size).Between (kept ++ [c]) rest n := by
  obtain ⟨first, later, ends⟩ := between.next
  have behind := between.behind
  have length := c.length_bytes
  have stays : bytesOf (kept ++ [c]) = bytesOf kept ++ c.bytes := by simp
  unfold Pass.keep
  split
  case isTrue before =>
    rw [first]
    constructor
    case behind => exact Nat.add_le_add_right behind _
    case stays =>
      rw [read_add, read_write_apart (by omega), between.stays, stays, ← length, zero_add,
        read_write]
    case comes =>
      rw [read_write_apart (by push_cast; omega), later]
    case ends => exact ends
    case nul =>
      dsimp only
      rw [write_apart (by omega), between.nul]
    case reach =>
      exact max_le between.reach (by omega)
  case isFalse there =>
    have same : p.k = p.i := by omega
    constructor
    case behind => exact Nat.add_le_add_right behind _
    case stays =>
      rw [read_add, between.stays, stays, zero_add, same, first]
    case comes => exact later
    case ends => exact ends
    case nul => exact between.nul
    case reach => exact between.reach

/-- The byte at `i` starts the next character, and it is not the NUL. -/
theorem first (between : p.Between kept (c :: rest) n) : p.s p.i = c.first ∧ p.s p.i ≠ 0 := by
  obtain ⟨here, -, -⟩ := between.next
  have positive : 0 < c.bytes.length := c.length_bytes ▸ c.bytes_pos
  have cell := cell_of_read (by rw [c.length_bytes, here]) positive
  have same : p.s p.i = c.first := by simpa [Character.bytes] using cell
  exact ⟨same, same ▸ c.noNul _ List.mem_cons_self⟩

/-- The first character that was kept is at the front. -/
theorem starts {more : List Character} (between : p.Between (c :: more) rest n) :
    read p.s 0 c.bytes.length = c.bytes := by
  have stays := between.stays
  have length : p.k = c.bytes.length + (bytesOf more).length := by
    simpa using congrArg List.length stays
  rw [length, bytesOf_cons, read_add] at stays
  exact (List.append_inj stays (by simp)).1

/-- What a pass makes of the next character. -/
theorem step {t : TrimAbnormal} {front : Character} (between : p.Between kept (c :: rest) n)
    (starts : read p.s 0 front.bytes.length = front.bytes) :
    if t.keeps front c then (t.step p).Between (kept ++ [c]) rest n
    else (t.step p).Between kept rest n ∧ (t.step p).s = p.s := by
  obtain ⟨first, -⟩ := between.first
  obtain ⟨here, -, ends⟩ := between.next
  unfold TrimAbnormal.step TrimAbnormal.keeps
  rw [first]
  cases kind : lead c.first with
  | one =>
    have kept' := between.keep
    have skipped := between.skip
    simp only [kind, Lead.size] at kept' skipped
    by_cases bad : c.first ∈ t.abnormalSet1
    · simpa [TrimAbnormal.normal, TrimAbnormal.abnormal, kind, bad] using ⟨skipped, rfl⟩
    · simpa [TrimAbnormal.normal, TrimAbnormal.abnormal, kind, bad] using kept'
  | two =>
    rw [kind, Lead.size] at ends
    have looked : (p.look 1).Between kept (c :: rest) n := between.look (by omega)
    have kept' := looked.keep
    have skipped := looked.skip
    have number := TrimAbnormal.front_number (t := t) starts
    simp only [kind, Lead.size] at kept' skipped
    by_cases bad : lead front.first = .two ∧ t.abnormal front = true
    · have listed : ofLe (read (p.look 1).s 0 2) ∈ t.abnormalSet2 := number.mpr bad
      simpa [bad, listed] using ⟨skipped, rfl⟩
    · have unlisted : ofLe (read (p.look 1).s 0 2) ∉ t.abnormalSet2 := fun member =>
        bad (number.mp member)
      have stays : (!(decide (lead front.first = .two) && t.abnormal front)) = true := by
        simpa [Decidable.imp_iff_not_or] using bad
      simpa [stays, unlisted] using kept'
  | three =>
    rw [kind, Lead.size] at ends here
    have looked : (p.look (p.i + 2)).Between kept (c :: rest) n := between.look (by omega)
    have kept' := looked.keep
    have skipped := looked.skip
    simp only [kind, Lead.size] at kept' skipped
    have number : read (p.look (p.i + 2)).s (p.look (p.i + 2)).i 3 = c.bytes := here
    simp only [TrimAbnormal.normal, TrimAbnormal.abnormal, kind, number]
    by_cases bad : ofLe c.bytes ∈ t.abnormalSet3
    · simpa [bad] using ⟨skipped, rfl⟩
    · simpa [bad] using kept'
  | other =>
    have skipped := between.skip
    rw [kind] at skipped
    simpa [TrimAbnormal.normal, kind] using ⟨skipped, rfl⟩

end Pass.Between

namespace TrimAbnormal

variable {t : TrimAbnormal} {p : Pass} {kept rest : List Character} {front : Character} {n : Nat}

theorem trimLoop_nil (between : p.Between kept [] n) (fuel : Nat) :
    t.trimLoop (fuel + 1) p = some (p.look p.i) ∧ (p.look p.i).Between kept [] n := by
  have ends : p.i = n := by simpa using between.ends
  have looked : (p.look p.i).Between kept [] n := between.look (by omega)
  refine ⟨?_, looked⟩
  rw [trimLoop, if_pos]
  exact ends ▸ between.nul

theorem trimLoop_cons {c : Character} (between : p.Between kept (c :: rest) n) (fuel : Nat) :
    t.trimLoop (fuel + 1) p = t.trimLoop fuel (t.step (p.look p.i)) ∧
      (p.look p.i).Between kept (c :: rest) n := by
  obtain ⟨-, -, ends⟩ := between.next
  refine ⟨?_, between.look (by omega)⟩
  rw [trimLoop, if_neg]
  exact between.first.2

/-- The scan once a character is at the front of the buffer. -/
theorem trimLoop_kept {more : List Character} (between : p.Between (front :: more) rest n) :
    ∃ p', t.trimLoop (rest.length + 1) p = some p' ∧
      p'.Between (front :: more ++ rest.filter (t.keeps front)) [] n := by
  induction rest generalizing p more with
  | nil =>
    obtain ⟨ran, looked⟩ := trimLoop_nil (t := t) between 0
    exact ⟨_, ran, by simpa using looked⟩
  | cons c rest ih =>
    obtain ⟨ran, looked⟩ := trimLoop_cons (t := t) between (rest.length + 1)
    have stepped := looked.step (t := t) looked.starts
    rw [List.length_cons, ran]
    by_cases keeps : t.keeps front c
    · rw [if_pos keeps] at stepped
      rw [List.filter_cons_of_pos keeps]
      obtain ⟨p', done, after⟩ := ih stepped
      exact ⟨p', done, by simpa using after⟩
    · rw [if_neg keeps] at stepped
      rw [List.filter_cons_of_neg keeps]
      exact ih stepped.1

/-- The scan while nothing has been kept. -/
theorem trimLoop_start (between : p.Between [] rest n)
    (starts : read p.s 0 front.bytes.length = front.bytes) :
    ∃ p', t.trimLoop (rest.length + 1) p = some p' ∧ p'.Between (t.sift front rest) [] n := by
  induction rest generalizing p with
  | nil =>
    obtain ⟨ran, looked⟩ := trimLoop_nil (t := t) between 0
    exact ⟨_, ran, looked⟩
  | cons c rest ih =>
    obtain ⟨ran, looked⟩ := trimLoop_cons (t := t) between (rest.length + 1)
    have stepped := looked.step (t := t) starts
    rw [List.length_cons, ran, sift]
    by_cases keeps : t.keeps front c
    · rw [if_pos keeps] at stepped ⊢
      exact trimLoop_kept stepped
    · rw [if_neg keeps] at stepped ⊢
      obtain ⟨skipped, same⟩ := stepped
      exact ih skipped (by rw [same]; exact starts)

/-! ## What stays -/

theorem keeps_of_not_two {c : Character} (other : lead c.first ≠ .two) :
    t.keeps front c = t.normal c := by
  unfold keeps
  split
  case h_1 two => exact absurd two other
  case h_2 => rfl

/-- A character at the front of the buffer that is none of the abnormal ones of two bytes lets
all others of two bytes stay. -/
theorem keeps_of_fine {c : Character} (fine : lead front.first = .two → ¬ t.abnormal front)
    (also : lead c.first = .two → ¬ t.abnormal c) : t.keeps front c = t.normal c := by
  by_cases two : lead c.first = .two
  · simp only [keeps, normal, two, also two]
    simpa [Decidable.imp_iff_not_or] using fine
  · exact keeps_of_not_two two

theorem sift_sublist (t : TrimAbnormal) (front : Character) (cs : List Character) :
    (t.sift front cs).Sublist cs := by
  induction cs with
  | nil => exact List.Sublist.refl []
  | cons c rest ih =>
    rw [sift]
    split
    · exact (List.filter_sublist).cons_cons c
    · exact ih.cons c

theorem sift_filter (t : TrimAbnormal) (front : Character) (cs : List Character) :
    (t.sift front cs).filter (fun c => lead c.first ≠ .two) =
      cs.filter fun c => lead c.first ≠ .two && t.normal c := by
  have alike (front c : Character) : (decide (lead c.first ≠ .two) && t.keeps front c) =
      (decide (lead c.first ≠ .two) && t.normal c) := by
    by_cases two : lead c.first = .two
    · simp [two]
    · rw [keeps_of_not_two two]
  induction cs with
  | nil => rfl
  | cons c rest ih =>
    have here := alike front c
    rw [sift]
    split
    case isTrue keeps =>
      rw [keeps, Bool.and_true] at here
      rw [List.filter_cons, List.filter_cons, ← here, List.filter_filter]
      simp only [alike c]
    case isFalse drops =>
      rw [Bool.not_eq_true] at drops
      rw [drops, Bool.and_false] at here
      rw [List.filter_cons, ← here, ih]
      simp

theorem sift_eq {cs : List Character} (fine : lead front.first = .two → ¬ t.abnormal front)
    (all : ∀ c ∈ cs, lead c.first = .two → ¬ t.abnormal c) :
    t.sift front cs = cs.filter t.normal := by
  induction cs with
  | nil => rfl
  | cons c rest ih =>
    have here := all c List.mem_cons_self
    have later : ∀ d ∈ rest, lead d.first = .two → ¬ t.abnormal d := fun d member =>
      all d (List.mem_cons_of_mem c member)
    rw [sift, keeps_of_fine fine here, List.filter_cons]
    have same : rest.filter (t.keeps c) = rest.filter t.normal :=
      List.filter_congr fun d member => keeps_of_fine here (later d member)
    rw [same, ih later]

end TrimAbnormal

/-! ## The whole trim -/

/-- The NUL of a string. -/
structure Terminated (s : Int → UInt8) (n : Nat) : Prop where
  noNul : ∀ byte ∈ read s 0 n, byte ≠ 0
  nul : s n = 0

/-- What a trim makes of a string of characters: nothing behind the NUL is read; characters of one
and of three bytes stay if they are in no set, bytes that start none go, and the others keep their
order. Where no character of two bytes is abnormal all of those stay. -/
structure Trimmed (t : TrimAbnormal) (cs kept : List Character) (p : Pass) : Prop where
  reach : p.reach ≤ (bytesOf cs).length
  text : read p.s 0 (bytesOf kept).length = bytesOf kept
  nul : p.s (bytesOf kept).length = 0
  sublist : kept.Sublist cs
  sets : kept.filter (fun c => lead c.first ≠ .two) =
    cs.filter fun c => lead c.first ≠ .two && t.normal c
  fine : (∀ c ∈ cs, lead c.first = .two → ¬ t.abnormal c) → kept = cs.filter t.normal

/-- The string behind the scan, with its new NUL. -/
theorem Pass.Between.text {p : Pass} {kept : List Character} {n : Nat}
    (between : p.Between kept [] n) :
    read (write p.s p.k [0]) 0 (bytesOf kept).length = bytesOf kept ∧
      write p.s p.k [0] (bytesOf kept).length = 0 := by
  have stays := between.stays
  have length : p.k = (bytesOf kept).length := by simpa using congrArg List.length stays
  rw [← length]
  refine ⟨?_, ?_⟩
  · rw [read_write_apart (by omega), stays]
  · simp [write]

/-- For all sets and every string that does not end inside a character. -/
theorem TrimAbnormal.trimAbnormalUtf8_trims (t : TrimAbnormal) {s : Int → UInt8} {n : Nat}
    (terminated : Terminated s n) (whole : ¬ Truncated (read s 0 n)) :
    ∃ cs kept fuel p, read s 0 n = bytesOf cs ∧ t.trimAbnormalUtf8 fuel s = some p ∧
      Trimmed t cs kept p := by
  obtain ⟨cs, text⟩ := exists_characters terminated.noNul whole
  have length : n = (bytesOf cs).length := by simpa using congrArg List.length text
  have start : (⟨s, 0, 0, 0⟩ : Pass).Between [] cs n := by
    constructor
    case behind => exact Nat.le_refl 0
    case stays => rfl
    case comes => rw [← length]; exact text
    case ends => rw [← length]; exact zero_add n
    case nul => exact terminated.nul
    case reach => exact Nat.zero_le n
  refine ⟨cs, ?_⟩
  cases cs with
  | nil =>
    obtain ⟨ran, after⟩ := trimLoop_nil (t := t) start 0
    refine ⟨[], 1, _, text, congrArg (Option.map _) ran, ?_⟩
    obtain ⟨kept, nul⟩ := after.text
    exact ⟨length ▸ after.reach, kept, nul, .refl [], rfl, fun _ => rfl⟩
  | cons front rest =>
    have starts : read s 0 front.bytes.length = front.bytes := by
      rw [length, bytesOf_cons, List.length_append, read_add] at text
      exact (List.append_inj text (by simp)).1
    obtain ⟨p, ran, after⟩ := trimLoop_start (t := t) start starts
    refine ⟨t.sift front (front :: rest), _, _, text, congrArg (Option.map _) ran, ?_⟩
    obtain ⟨kept, nul⟩ := after.text
    exact ⟨length ▸ after.reach, kept, nul, t.sift_sublist front _, t.sift_filter front _,
      fun fine => sift_eq (fine front List.mem_cons_self) fine⟩

/-- 中a -/
def mixed : List Character :=
  [⟨0xE4, [0xB8, 0xAD], by decide, by simp⟩,
    ⟨0x61, [], by decide, by simp⟩]

theorem trimAbnormalUtf8_trims_mixed :
    ∃ cs kept fuel p, read (stored (bytesOf mixed)) 0 4 = bytesOf cs ∧
      TrimAbnormal.new.trimAbnormalUtf8 fuel (stored (bytesOf mixed)) = some p ∧
      Trimmed .new cs kept p :=
  have noNul : ∀ byte ∈ read (stored (bytesOf mixed)) 0 4, byte ≠ 0 := by
    have text : read (stored (bytesOf mixed)) 0 4 = [0xE4, 0xB8, 0xAD, 0x61] := by decide
    simp [text]
  TrimAbnormal.new.trimAbnormalUtf8_trims ⟨noNul, by decide⟩ (bytesOf_not_truncated mixed)

/-- What a trim leaves of a string, and the furthest byte that it has read. -/
def trimmed (t : TrimAbnormal) (text : List UInt8) : Option (List UInt8 × Nat) :=
  (t.trimAbnormalUtf8 (text.length + 1) (stored text)).map fun p => (read p.s 0 p.k, p.reach)

/-- 😀 goes, which no set holds; · stays behind 中, which a set holds; and where 中 breaks off
after two bytes, one byte behind the NUL is read. -/
theorem not_trimmed_exactly :
    (¬ ∀ (t : TrimAbnormal) (cs : List Character),
      (trimmed t (bytesOf cs)).map Prod.fst = some (bytesOf (cs.filter fun c => !t.abnormal c))) ∧
    trimmed .new [0xE4, 0xB8, 0xAD, 0xC2, 0xB7] = some ([0xE4, 0xB8, 0xAD, 0xC2, 0xB7], 5) ∧
    ofLe [0xC2, 0xB7] ∈ TrimAbnormal.new.abnormalSet2 ∧
    (trimmed .new [0xE4, 0xB8]).map Prod.snd = some 3 := by
  refine ⟨fun exact' => ?_, by decide +kernel, by decide +kernel, by decide +kernel⟩
  have gone := exact' .new [⟨0xF0, [], by decide, by simp⟩,
    ⟨0x9F, [], by decide, by simp⟩,
    ⟨0x98, [], by decide, by simp⟩,
    ⟨0x80, [], by decide, by simp⟩]
  exact absurd gone (by decide +kernel)

end Taomee.Chat
