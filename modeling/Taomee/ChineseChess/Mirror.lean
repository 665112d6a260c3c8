import Mathlib.Data.Fintype.Basic
import Taomee.ChineseChess.Rule
import Taomee.Library.Runs

/-!
# Chinese chess: the board and its copies

The multimaps and the two general positions mirror the board after every run of calls.
-/

namespace Taomee.ChineseChess

open Runs

variable {rule : Rule}

section Lists

variable {α : Type*} [BEq α] [LawfulBEq α] {a b : α} {l : List α}

/-- Replacing an entry is erasing it and adding the other. -/
theorem replace_perm (member : a ∈ l) : (l.replace a b).Perm (b :: l.erase a) := by
  induction l with
  | nil => exact absurd member List.not_mem_nil
  | cons head tail ih =>
    rcases eq_or_ne a head with same | differs
    · subst same
      simp
    · have later : a ∈ tail := by simpa [differs] using member
      simp only [List.replace_cons, beq_eq_false_iff_ne.mpr differs,
        List.erase_cons_tail (beq_iff_eq.not.mpr (Ne.symm differs))]
      exact ((ih later).cons head).trans (List.Perm.swap b head _)

/-- The entries are the new one and the others. -/
theorem mem_replace {x : α} (nodup : l.Nodup) (member : a ∈ l) :
    x ∈ l.replace a b ↔ x = b ∨ (x ∈ l ∧ x ≠ a) := by
  rw [(replace_perm member).mem_iff, List.mem_cons, nodup.mem_erase_iff, and_comm]

/-- A fresh entry keeps the list free of repeats. -/
theorem nodup_replace (nodup : l.Nodup) (member : a ∈ l) (fresh : b ∉ l) :
    (l.replace a b).Nodup := by
  rw [(replace_perm member).nodup_iff, List.nodup_cons]
  exact ⟨fun inside => fresh (List.mem_of_mem_erase inside), nodup.erase a⟩

end Lists

/-! ## Codes -/

instance : Fintype Side where
  elems := {.red, .black}
  complete side := by cases side <;> decide

instance : Fintype ChessType where
  elems := {.noChess, .chariot, .horse, .elephant, .mandarin, .general, .cannon, .soldier}
  complete kind := by cases kind <;> decide

/-- The kinds that `chess_multimap_` files. -/
def ChessType.filed : ChessType → Bool
  | .chariot | .horse | .cannon | .soldier => true
  | _ => false

/-- A piece of the side that belongs into its multimap. -/
def Filed (side : Side) (cell : UInt8) : Prop :=
  ∃ kind : ChessType, kind.filed = true ∧ cell = code side kind

/-- What a cell can hold. -/
def Coded (cell : UInt8) : Prop :=
  cell = 0 ∨ ∃ side kind, kind ≠ .noChess ∧ cell = code side kind

@[simp] theorem Side.other_ne (side : Side) : side.other ≠ side := by
  cases side <;> decide

@[simp] theorem Side.ne_other (side : Side) : side ≠ side.other := (Side.other_ne side).symm

/-- There are two sides. -/
theorem Side.eq_or_eq_other (side mover : Side) : side = mover ∨ side = mover.other := by
  cases side <;> cases mover <;> decide

@[simp] theorem chess_code (side : Side) (kind : ChessType) : chess (code side kind) = kind := by
  cases side <;> cases kind <;> decide

@[simp] theorem chess_zero : chess 0 = .noChess := by decide

@[simp] theorem code_ne_zero (side : Side) (kind : ChessType) : code side kind ≠ 0 := by
  cases side <;> cases kind <;> decide

@[simp] theorem zero_ne_code (side : Side) (kind : ChessType) : 0 ≠ code side kind :=
  (code_ne_zero side kind).symm

@[simp] theorem isyourchess_code (side owner : Side) (kind : ChessType) :
    isyourchess side (code owner kind) = decide (owner = side) := by
  cases side <;> cases owner <;> cases kind <;> decide

@[simp] theorem isyourchess_zero (side : Side) : isyourchess side 0 = false := by
  cases side <;> decide

@[simp] theorem code_inj {side owner : Side} {kind other : ChessType} :
    code side kind = code owner other ↔ side = owner ∧ kind = other := by
  constructor
  · intro same
    refine ⟨?_, by simpa using congrArg chess same⟩
    simpa using congrArg (isyourchess owner) same
  · rintro ⟨rfl, rfl⟩
    rfl

@[simp] theorem filed_code (side owner : Side) (kind : ChessType) :
    Filed side (code owner kind) ↔ owner = side ∧ kind.filed = true := by
  constructor
  · rintro ⟨_, filed, same⟩
    obtain ⟨rfl, rfl⟩ := code_inj.mp same
    exact ⟨rfl, filed⟩
  · rintro ⟨rfl, filed⟩
    exact ⟨kind, filed, rfl⟩

@[simp] theorem not_filed_zero (side : Side) : ¬ Filed side 0 := by
  rintro ⟨kind, -, same⟩
  exact zero_ne_code side kind same

/-! ## The mirror -/

/-- The general of a side stands somewhere on the board. -/
def HasGeneral (rule : Rule) (side : Side) : Prop :=
  ∃ x y, x < 10 ∧ y < 9 ∧ rule.board x y = code side .general

/-- The three representations agree. -/
structure Mirror (rule : Rule) : Prop where
  coded : ∀ x y, x < 10 → y < 9 → Coded (rule.board x y)
  nodup : ∀ side, (rule.chessMultimap side).Nodup
  entries : ∀ side cell x y, (cell, ⟨x, y⟩) ∈ rule.chessMultimap side ↔
    x < 10 ∧ y < 9 ∧ rule.board x y = cell ∧ Filed side cell
  generals : ∀ side x y, x < 10 → y < 9 → rule.board x y = code side .general →
    rule.generalPos side = ⟨x, y⟩

/-- What `isvalid` and `movable` establish about a move of a piece of this kind. -/
structure Accepted (rule : Rule) (side : Side) (move : Move) (kind : ChessType) : Prop where
  fromX : move.fromX < 10
  fromY : move.fromY < 9
  toX : move.toX < 10
  toY : move.toY < 9
  apart : ¬ (move.fromX = move.toX ∧ move.fromY = move.toY)
  own : rule.board move.fromX move.fromY = code side kind
  target : rule.board move.toX move.toY = 0 ∨
    ∃ taken, taken ≠ .noChess ∧ rule.board move.toX move.toY = code side.other taken
  movable : rule.movable side move = true

namespace Mirror

variable {rule : Rule} {side : Side} {move : Move}

/-- A move is valid when it stays on the board, moves an own piece and takes none of its own. -/
theorem isvalid_iff : rule.isvalid side move = true ↔
    move.fromX < 10 ∧ move.fromY < 9 ∧ move.toX < 10 ∧ move.toY < 9 ∧
      ¬ (move.fromX = move.toX ∧ move.fromY = move.toY) ∧
      isyourchess side (rule.board move.fromX move.fromY) = true ∧
      isyourchess side (rule.board move.toX move.toY) = false := by
  simp only [Rule.isvalid, Bool.not_eq_true', Bool.or_eq_false_iff, Bool.and_eq_false_iff,
    decide_eq_false_iff_not, Bool.not_eq_false']
  constructor
  · rintro ⟨⟨⟨⟨⟨⟨fromX, fromY⟩, toX⟩, toY⟩, apart⟩, own⟩, target⟩
    exact ⟨by omega, by omega, by omega, by omega, by omega, own, target⟩
  · rintro ⟨fromX, fromY, toX, toY, apart, own, target⟩
    exact ⟨⟨⟨⟨⟨⟨by omega, by omega⟩, by omega⟩, by omega⟩, by omega⟩, own⟩, target⟩

/-- A cell with a piece of the side. -/
theorem own_cell (mirror : Mirror rule) {x y : Nat} (inX : x < 10) (inY : y < 9)
    (own : isyourchess side (rule.board x y) = true) :
    ∃ kind, kind ≠ .noChess ∧ rule.board x y = code side kind := by
  rcases mirror.coded x y inX inY with empty | ⟨owner, kind, piece, holds⟩
  · simp [empty] at own
  · have same : owner = side := by simpa [holds] using own
    exact ⟨kind, piece, same ▸ holds⟩

/-- A cell without a piece of the side. -/
theorem other_cell (mirror : Mirror rule) {x y : Nat} (inX : x < 10) (inY : y < 9)
    (notOwn : isyourchess side (rule.board x y) = false) :
    rule.board x y = 0 ∨
      ∃ taken, taken ≠ .noChess ∧ rule.board x y = code side.other taken := by
  rcases mirror.coded x y inX inY with empty | ⟨owner, kind, piece, holds⟩
  · exact .inl empty
  · have differs : owner ≠ side := by simpa [holds] using notOwn
    have foe : owner = side.other := (Side.eq_or_eq_other owner side).resolve_left differs
    exact .inr ⟨kind, piece, foe ▸ holds⟩

/-- An accepted move moves a piece of the side that moves. -/
theorem accepted (mirror : Mirror rule) (valid : rule.isvalid side move = true)
    (movable : rule.movable side move = true) :
    ∃ kind, kind ≠ .noChess ∧ Accepted rule side move kind := by
  obtain ⟨fromX, fromY, toX, toY, apart, own, target⟩ := isvalid_iff.mp valid
  obtain ⟨kind, piece, holds⟩ := mirror.own_cell fromX fromY own
  exact ⟨kind, piece, fromX, fromY, toX, toY, apart, holds, mirror.other_cell toX toY target,
    movable⟩

end Mirror

/-! ## What a move does -/

section Move

variable {rule : Rule} {side : Side} {move : Move} {kind : ChessType}

@[simp] theorem carryOut_board (rule : Rule) (side : Side) (move : Move) :
    (rule.carryOut side move).board =
      setCell (setCell rule.board move.toX move.toY (rule.board move.fromX move.fromY))
        move.fromX move.fromY 0 := by
  simp only [Rule.carryOut]
  split <;> rfl

@[simp] theorem carryOut_chessMultimap (rule : Rule) (side : Side) (move : Move) :
    (rule.carryOut side move).chessMultimap = (rule.adjustChessmap side move).chessMultimap := by
  simp only [Rule.carryOut]
  split <;> rfl

@[simp] theorem carryOut_generalPos (rule : Rule) (side : Side) (move : Move) :
    (rule.carryOut side move).generalPos = (rule.adjustChessmap side move).generalPos := by
  simp only [Rule.carryOut]
  split <;> rfl

/-- The general's place is followed when the general moves. -/
theorem adjustChessmap_generalPos (rule : Rule) (side : Side) (move : Move) :
    (rule.adjustChessmap side move).generalPos =
      if chess (rule.board move.fromX move.fromY) = .general then
        Function.update rule.generalPos side ⟨move.toX, move.toY⟩ else rule.generalPos := by
  simp only [Rule.adjustChessmap]
  split <;> split <;> rfl

/-- The mover's multimap: a general is not filed, any other piece changes its square. -/
theorem adjustChessmap_own (rule : Rule) (side : Side) (move : Move) :
    (rule.adjustChessmap side move).chessMultimap side =
      if chess (rule.board move.fromX move.fromY) = .general then rule.chessMultimap side
      else (rule.chessMultimap side).replace
        (rule.board move.fromX move.fromY, ⟨move.fromX, move.fromY⟩)
        (rule.board move.fromX move.fromY, ⟨move.toX, move.toY⟩) := by
  simp only [Rule.adjustChessmap]
  split <;> split <;> simp

/-- The opponent's multimap loses the piece taken. -/
theorem adjustChessmap_other (rule : Rule) (side : Side) (move : Move) :
    (rule.adjustChessmap side move).chessMultimap side.other =
      if rule.board move.toX move.toY ≠ 0 then
        (rule.chessMultimap side.other).erase
          (rule.board move.toX move.toY, ⟨move.toX, move.toY⟩)
      else rule.chessMultimap side.other := by
  simp only [Rule.adjustChessmap]
  split <;> split <;> simp

/-- The board after a move, square by square. -/
theorem Accepted.board_eq (accepted : Accepted rule side move kind) (x y : Nat) :
    (rule.carryOut side move).board x y =
      if x = move.fromX ∧ y = move.fromY then 0
      else if x = move.toX ∧ y = move.toY then code side kind else rule.board x y := by
  simp only [carryOut_board, setCell, accepted.own]

/-- The mover's entries: the moved piece at its new place, the others as before. -/
theorem Accepted.mem_own (accepted : Accepted rule side move kind) (mirror : Mirror rule)
    (entry : UInt8 × Coordinate) :
    entry ∈ (rule.carryOut side move).chessMultimap side ↔
      (kind.filed = true ∧ entry = (code side kind, ⟨move.toX, move.toY⟩)) ∨
        (entry ∈ rule.chessMultimap side ∧
          entry ≠ (code side kind, ⟨move.fromX, move.fromY⟩)) := by
  have listed := mirror.entries side (code side kind) move.fromX move.fromY
  simp only [accepted.fromX, accepted.fromY, accepted.own, filed_code, true_and] at listed
  simp only [carryOut_chessMultimap, adjustChessmap_own, accepted.own, chess_code]
  cases filed : kind.filed with
  | true =>
    have ordinary : kind ≠ .general := by
      rintro rfl
      cases filed
    simp only [if_neg ordinary, mem_replace (mirror.nodup side) (listed.mpr filed), true_and]
  | false =>
    have absent : (code side kind, ⟨move.fromX, move.fromY⟩) ∉ rule.chessMultimap side := by
      simp [listed, filed]
    have others : entry ∈ rule.chessMultimap side ↔ entry ∈ rule.chessMultimap side ∧
        entry ≠ (code side kind, ⟨move.fromX, move.fromY⟩) :=
      ⟨fun member => ⟨member, fun same => absent (same ▸ member)⟩, And.left⟩
    split <;> simpa [List.replace_of_not_mem absent] using others

/-- The other side's entries: all but the piece that is taken. -/
theorem Mirror.mem_other (mirror : Mirror rule) (side : Side) (move : Move)
    (entry : UInt8 × Coordinate) :
    entry ∈ (rule.carryOut side move).chessMultimap side.other ↔
      entry ∈ rule.chessMultimap side.other ∧
        entry ≠ (rule.board move.toX move.toY, ⟨move.toX, move.toY⟩) := by
  simp only [carryOut_chessMultimap, adjustChessmap_other]
  split
  case isTrue => rw [(mirror.nodup side.other).mem_erase_iff, and_comm]
  case isFalse empty =>
    refine ⟨fun member => ⟨member, fun same => ?_⟩, And.left⟩
    obtain ⟨-, -, -, filed⟩ := (mirror.entries _ _ _ _).mp (same ▸ member)
    simp [not_not.mp empty] at filed

/-- No piece is entered twice. -/
theorem Accepted.nodup (accepted : Accepted rule side move kind) (mirror : Mirror rule)
    (owner : Side) : ((rule.carryOut side move).chessMultimap owner).Nodup := by
  rcases Side.eq_or_eq_other owner side with rfl | rfl
  · simp only [carryOut_chessMultimap, adjustChessmap_own]
    split
    case isTrue => exact mirror.nodup owner
    case isFalse =>
      by_cases member : (rule.board move.fromX move.fromY, ⟨move.fromX, move.fromY⟩) ∈
          rule.chessMultimap owner
      · refine nodup_replace (mirror.nodup owner) member fun inside => ?_
        have there := ((mirror.entries _ _ _ _).mp inside).2.2.1
        rcases accepted.target with empty | ⟨taken, -, foe⟩
        · simp [accepted.own, empty] at there
        · simp [accepted.own, foe] at there
      · simpa [List.replace_of_not_mem member] using mirror.nodup owner
  · simp only [carryOut_chessMultimap, adjustChessmap_other]
    split
    case isTrue => exact (mirror.nodup _).erase _
    case isFalse => exact mirror.nodup _

/-- Every cell still holds a piece or nothing. -/
theorem Accepted.coded (accepted : Accepted rule side move kind) (piece : kind ≠ .noChess)
    (mirror : Mirror rule) {x y : Nat} (inX : x < 10) (inY : y < 9) :
    Coded ((rule.carryOut side move).board x y) := by
  rw [accepted.board_eq]
  split
  case isTrue => exact .inl rfl
  case isFalse =>
    split
    case isTrue => exact .inr ⟨side, kind, piece, rfl⟩
    case isFalse => exact mirror.coded x y inX inY

/-- An entry of the mover's multimap after the move is on the board, and only such ones. -/
theorem Accepted.entries_own (accepted : Accepted rule side move kind) (mirror : Mirror rule)
    (cell : UInt8) (x y : Nat) :
    (cell, ⟨x, y⟩) ∈ (rule.carryOut side move).chessMultimap side ↔
      x < 10 ∧ y < 9 ∧ (rule.carryOut side move).board x y = cell ∧ Filed side cell := by
  rw [accepted.mem_own mirror, mirror.entries, accepted.board_eq]
  simp only [ne_eq, Prod.mk.injEq, Coordinate.mk.injEq]
  by_cases left : x = move.fromX ∧ y = move.fromY
  · obtain ⟨rfl, rfl⟩ := left
    have apart := accepted.apart
    simp only [accepted.own, and_self]
    constructor
    · rintro (⟨-, -, arrived⟩ | ⟨⟨-, -, same, -⟩, other⟩)
      · exact absurd arrived apart
      · exact absurd ⟨same.symm, trivial⟩ other
    · rintro ⟨-, -, rfl, filed⟩
      exact absurd filed (not_filed_zero side)
  · by_cases arrived : x = move.toX ∧ y = move.toY
    · obtain ⟨rfl, rfl⟩ := arrived
      rw [if_neg left, if_pos ⟨rfl, rfl⟩]
      constructor
      · rintro (⟨filed, rfl, -⟩ | ⟨⟨-, -, rfl, filed⟩, -⟩)
        · exact ⟨accepted.toX, accepted.toY, rfl, (filed_code _ _ _).mpr ⟨rfl, filed⟩⟩
        · rcases accepted.target with empty | ⟨taken, -, foe⟩
          · simp [empty] at filed
          · simp [foe] at filed
      · rintro ⟨-, -, rfl, filed⟩
        exact .inl ⟨((filed_code _ _ _).mp filed).2, rfl, rfl, rfl⟩
    · rw [if_neg left, if_neg arrived]
      constructor
      · rintro (⟨-, -, here⟩ | ⟨there, -⟩)
        · exact absurd here arrived
        · exact there
      · intro there
        exact .inr ⟨there, fun same => left same.2⟩

/-- The other side's map mirrors the board after the move. -/
theorem Accepted.entries_other (accepted : Accepted rule side move kind) (mirror : Mirror rule)
    (cell : UInt8) (x y : Nat) :
    (cell, ⟨x, y⟩) ∈ (rule.carryOut side move).chessMultimap side.other ↔
      x < 10 ∧ y < 9 ∧ (rule.carryOut side move).board x y = cell ∧
        Filed side.other cell := by
  rw [mirror.mem_other, mirror.entries, accepted.board_eq]
  simp only [ne_eq, Prod.mk.injEq, Coordinate.mk.injEq]
  by_cases left : x = move.fromX ∧ y = move.fromY
  · obtain ⟨rfl, rfl⟩ := left
    rw [if_pos ⟨rfl, rfl⟩]
    constructor
    · rintro ⟨⟨-, -, rfl, filed⟩, -⟩
      simp [accepted.own] at filed
    · rintro ⟨-, -, rfl, filed⟩
      exact absurd filed (not_filed_zero side.other)
  · by_cases arrived : x = move.toX ∧ y = move.toY
    · obtain ⟨rfl, rfl⟩ := arrived
      rw [if_neg left, if_pos ⟨rfl, rfl⟩]
      constructor
      · rintro ⟨⟨-, -, same, -⟩, other⟩
        exact absurd ⟨same.symm, rfl, rfl⟩ other
      · rintro ⟨-, -, rfl, filed⟩
        simp at filed
    · rw [if_neg left, if_neg arrived]
      exact ⟨And.left, fun there => ⟨there, fun same => arrived same.2⟩⟩

/-- The place noted for a general is where it stands. -/
theorem Accepted.generals (accepted : Accepted rule side move kind) (mirror : Mirror rule)
    (owner : Side) {x y : Nat} (inX : x < 10) (inY : y < 9)
    (stands : (rule.carryOut side move).board x y = code owner .general) :
    (rule.carryOut side move).generalPos owner = ⟨x, y⟩ := by
  rw [accepted.board_eq] at stands
  rw [carryOut_generalPos, adjustChessmap_generalPos, accepted.own, chess_code]
  split at stands
  case isTrue => exact absurd stands (zero_ne_code owner .general)
  case isFalse left =>
    split at stands
    case isTrue arrived =>
      obtain ⟨rfl, rfl⟩ := code_inj.mp stands
      rw [if_pos rfl, Function.update_self, arrived.1, arrived.2]
    case isFalse arrived =>
      have before := mirror.generals owner x y inX inY stands
      split
      case isFalse => exact before
      case isTrue general =>
        subst general
        -- a side's other general would stand on the square that is left
        have elsewhere : owner ≠ side := by
          rintro rfl
          have here := mirror.generals owner _ _ accepted.fromX accepted.fromY accepted.own
          exact left (by simpa using before.symm.trans here)
        rw [Function.update_of_ne elsewhere, before]

/-- An accepted move keeps the maps a mirror of the board. -/
theorem Accepted.mirror (accepted : Accepted rule side move kind) (piece : kind ≠ .noChess)
    (mirror : Mirror rule) : Mirror (rule.carryOut side move) where
  coded _ _ := accepted.coded piece mirror
  nodup := accepted.nodup mirror
  entries owner cell x y := by
    rcases Side.eq_or_eq_other owner side with rfl | rfl
    · exact accepted.entries_own mirror cell x y
    · exact accepted.entries_other mirror cell x y
  generals owner _ _ := accepted.generals mirror owner

end Move

/-! ## Calls -/

namespace Rule

/-- The bytes ask for a move that `isvalid` and `movable` let pass. -/
structure Passes (rule : Rule) (side : Side) (inbuf : List UInt8) (move : Move) : Prop where
  reads : unpack inbuf = some move
  valid : rule.isvalid side move = true
  movable : rule.movable side move = true

/-- A call is refused and changes nothing, or carries out a move that passes. -/
theorem placeChess_cases (rule : Rule) (side : Side) (inbuf : List UInt8) :
    (∃ err, rule.placeChess side inbuf = (.error err, rule)) ∨
      ∃ move : Move, Passes rule side inbuf move ∧
        rule.placeChess side inbuf =
          (.placed (if (rule.carryOut side move).flag ≠ 0 then some false
              else (rule.carryOut side move).ischeck side),
            { rule.carryOut side move with
              nsteps := ((rule.carryOut side move).nsteps + 1) % 256 }) := by
  unfold placeChess
  split
  case h_1 => exact .inl ⟨-1, rfl⟩
  case h_2 move reads =>
    split
    case isTrue => exact .inl ⟨-2, rfl⟩
    case isFalse valid =>
      split
      case isTrue movable => exact .inr ⟨move, ⟨reads, by simpa using valid, movable⟩, rfl⟩
      case isFalse => exact .inl ⟨-2, rfl⟩

/-- A call of `place_chess` by the player of a side. -/
def call (rule : Rule) (request : Side × List UInt8) : Rule :=
  (rule.placeChess request.1 request.2).2

end Rule

/-! ## Runs -/

instance (side : Side) (cell : UInt8) : Decidable (Filed side cell) :=
  inferInstanceAs (Decidable (∃ _ : ChessType, _))

instance (cell : UInt8) : Decidable (Coded cell) :=
  inferInstanceAs (Decidable (_ ∨ ∃ _ : Side, ∃ _ : ChessType, _))

/-- Every entry of the first position is on the board. -/
theorem init_entries_board : ∀ side, ∀ entry ∈ Rule.init.chessMultimap side,
    entry.2.x < 10 ∧ entry.2.y < 9 ∧ Rule.init.board entry.2.x entry.2.y = entry.1 ∧
      Filed side entry.1 := by
  decide +kernel

/-- Every piece of the first position is entered. -/
theorem init_board_entries : ∀ side, ∀ x < 10, ∀ y < 9,
    ¬ Filed side (Rule.init.board x y) ∨
      (Rule.init.board x y, ⟨x, y⟩) ∈ Rule.init.chessMultimap side := by
  decide +kernel

/-- The cells of the first position are pieces or empty. -/
theorem init_coded : ∀ x < 10, ∀ y < 9, Coded (Rule.init.board x y) := by
  decide +kernel

/-- The generals stand where they are noted. -/
theorem init_generals : ∀ side, ∀ x < 10, ∀ y < 9,
    Rule.init.board x y = code side .general → Rule.init.generalPos side = ⟨x, y⟩ := by
  decide +kernel

/-- The game starts with a mirrored board. -/
theorem mirror_init : Mirror Rule.init where
  coded x y inX inY := init_coded x inX y inY
  nodup := by decide +kernel
  entries side cell x y := by
    constructor
    · intro member
      exact init_entries_board side _ member
    · rintro ⟨inX, inY, rfl, filed⟩
      exact (init_board_entries side x inX y inY).resolve_left (not_not.mpr filed)
  generals side x y inX inY := init_generals side x inX y inY

/-- The number of steps is not mirrored. -/
theorem Mirror.nsteps (mirror : Mirror rule) (nsteps : Nat) :
    Mirror { rule with nsteps := nsteps } :=
  ⟨mirror.coded, mirror.nodup, mirror.entries, mirror.generals⟩

/-- A message keeps the mirror, whether the move is accepted or not. -/
theorem Mirror.placeChess (mirror : Mirror rule) (side : Side) (inbuf : List UInt8) :
    Mirror (rule.placeChess side inbuf).2 := by
  obtain ⟨_, refused⟩ | ⟨move, passes, carried⟩ := rule.placeChess_cases side inbuf
  · rw [refused]
    exact mirror
  · obtain ⟨_, piece, accepted⟩ := mirror.accepted passes.valid passes.movable
    rw [carried]
    exact (accepted.mirror piece mirror).nsteps _

/-- The positions that calls of `place_chess` reach, in whatever order the players move. -/
abbrev Reachable : Rule → Prop := Reaches Rule.call (fun _ _ => True) Rule.init

/-- By induction over the messages. -/
theorem Reachable.mirror (run : Reachable rule) : Mirror rule :=
  run.invariant mirror_init fun mirror _ => mirror.placeChess _ _

/-- A multimap has exactly one entry for each filed piece, and no others. -/
theorem Mirror.count (mirror : Mirror rule) (side : Side) (cell : UInt8) (x y : Nat) :
    (rule.chessMultimap side).count (cell, ⟨x, y⟩) =
      if x < 10 ∧ y < 9 ∧ rule.board x y = cell ∧ Filed side cell then 1 else 0 := by
  split
  case isTrue filed =>
    exact List.count_eq_one_of_mem (mirror.nodup side) ((mirror.entries side cell x y).mpr filed)
  case isFalse absent =>
    exact List.count_eq_zero.mpr fun member => absent ((mirror.entries side cell x y).mp member)

/-- The call does not capture a general. -/
def Spares (rule : Rule) (request : Side × List UInt8) : Prop :=
  ∀ move, rule.Passes request.1 request.2 move →
    chess (rule.board move.toX move.toY) ≠ .general

/-- A general that is not taken stays on the board. -/
theorem Accepted.hasGeneral {side : Side} {move : Move} {kind : ChessType}
    (accepted : Accepted rule side move kind)
    (spared : chess (rule.board move.toX move.toY) ≠ .general) {owner : Side}
    (before : HasGeneral rule owner) : HasGeneral (rule.carryOut side move) owner := by
  obtain ⟨x, y, inX, inY, stands⟩ := before
  by_cases left : x = move.fromX ∧ y = move.fromY
  · obtain ⟨rfl, rfl⟩ := left
    obtain ⟨rfl, rfl⟩ := code_inj.mp (accepted.own.symm.trans stands)
    refine ⟨move.toX, move.toY, accepted.toX, accepted.toY, ?_⟩
    have apart : ¬ (move.toX = move.fromX ∧ move.toY = move.fromY) :=
      fun same => accepted.apart ⟨same.1.symm, same.2.symm⟩
    rw [accepted.board_eq, if_neg apart, if_pos ⟨rfl, rfl⟩]
  · refine ⟨x, y, inX, inY, ?_⟩
    have stays : ¬ (x = move.toX ∧ y = move.toY) := by
      rintro ⟨rfl, rfl⟩
      exact spared (by rw [stands, chess_code])
    rw [accepted.board_eq, if_neg left, if_neg stays, stands]

/-- A message that takes no general leaves both on the board. -/
theorem HasGeneral.placeChess {side owner : Side} {inbuf : List UInt8}
    (before : HasGeneral rule owner) (mirror : Mirror rule) (spares : Spares rule (side, inbuf)) :
    HasGeneral (rule.placeChess side inbuf).2 owner := by
  obtain ⟨_, refused⟩ | ⟨move, passes, carried⟩ := rule.placeChess_cases side inbuf
  · rw [refused]
    exact before
  · obtain ⟨_, -, accepted⟩ := mirror.accepted passes.valid passes.movable
    rw [carried]
    exact accepted.hasGeneral (spares move passes) before

/-- Until a general is captured both generals are on the board. -/
theorem hasGeneral_of_spared (run : Reaches Rule.call Spares Rule.init rule) (owner : Side) :
    HasGeneral rule owner := by
  have initial : HasGeneral Rule.init owner := by
    cases owner
    · exact ⟨0, 4, by decide⟩
    · exact ⟨9, 4, by decide⟩
  have both : Mirror rule ∧ HasGeneral rule owner := by
    apply run.invariant
    · exact ⟨mirror_init, initial⟩
    · intro before request both spares
      exact ⟨both.1.placeChess _ _, both.2.placeChess both.1 spares⟩
  exact both.2

/-- A general on the board stands exactly at its noted place. -/
theorem Mirror.generalPos_iff (mirror : Mirror rule) {side : Side} (stands : HasGeneral rule side)
    {x y : Nat} (inX : x < 10) (inY : y < 9) :
    rule.board x y = code side .general ↔ rule.generalPos side = ⟨x, y⟩ := by
  refine ⟨mirror.generals side x y inX inY, fun position => ?_⟩
  obtain ⟨i, j, inI, inJ, holds⟩ := stands
  have same := (mirror.generals side i j inI inJ holds).symm.trans position
  obtain ⟨rfl, rfl⟩ := Coordinate.mk.inj same
  exact holds

/-- In every position that calls reach, the multimaps hold exactly the chariots, horses, cannons
and soldiers of the board, each once, under its code and with its square; until a general is
captured, each side's general position is exactly its general's square; and a call that answers
with an error changes nothing. -/
theorem board_mirrored {rule : Rule} (run : Reachable rule) :
    (∀ side cell x y, (rule.chessMultimap side).count (cell, ⟨x, y⟩) =
      if x < 10 ∧ y < 9 ∧ rule.board x y = cell ∧ Filed side cell then 1 else 0) ∧
    (Reaches Rule.call Spares Rule.init rule → ∀ side x y, x < 10 → y < 9 →
      (rule.board x y = code side .general ↔ rule.generalPos side = ⟨x, y⟩)) ∧
    ∀ side inbuf err, (rule.placeChess side inbuf).1 = .error err →
      (rule.placeChess side inbuf).2 = rule := by
  refine ⟨run.mirror.count, ?_, ?_⟩
  · intro spared side x y inX inY
    exact run.mirror.generalPos_iff (hasGeneral_of_spared spared side) inX inY
  · intro side inbuf err answer
    obtain ⟨_, refused⟩ | ⟨move, -, carried⟩ := rule.placeChess_cases side inbuf
    · rw [refused]
    · rw [carried] at answer
      cases answer

/-- After red's cannon has gone to the middle column. -/
theorem board_mirrored_cannon :
    (Rule.call Rule.init (.red, [2, 1, 2, 4])).board 2 4 = code .red .cannon ∧
      ((Rule.call Rule.init (.red, [2, 1, 2, 4])).chessMultimap .red).count
        (code .red .cannon, ⟨2, 4⟩) = 1 := by
  have moved : (Rule.call Rule.init (.red, [2, 1, 2, 4])).board 2 4 = code .red .cannon := by
    decide
  have run : Reachable (Rule.call Rule.init (.red, [2, 1, 2, 4])) := .call .refl trivial
  refine ⟨moved, ?_⟩
  rw [(board_mirrored run).1, if_pos]
  exact ⟨by decide, by decide, moved, .cannon, rfl, rfl⟩

end Taomee.ChineseChess
