import Taomee.Gobang.Winner

/-!
# Gobang: the course of a game

What holds of the board and of the turn as long as a game goes on.
-/

namespace Taomee.Gobang

open ChessGame (Sprite)
open Runs

/-- The stones of a color. -/
def stonesOf (color : UInt8) (board : Chessboard) : Nat :=
  cells.countP fun cell => board cell.1 cell.2 = color

/-- How the board stands and whose turn it is. -/
structure Fair (group : Group) (game : Game) : Prop where
  noFive : ∀ color ≠ 0, ∀ row col, ¬ Five game.chessboard color row col
  free : ¬ Full game.chessboard
  turn : (game.nxmover = group.player0 ∧
      stonesOf 1 game.chessboard = stonesOf 2 game.chessboard) ∨
    (game.nxmover = group.player1 ∧
      stonesOf 1 game.chessboard = stonesOf 2 game.chessboard + 1)

section Placing

variable {board after : Chessboard} {row col : Nat}

theorem Five.colored {color : UInt8} (five : Five board color row col) : board row col = color := by
  obtain ⟨_, _, _, low, below, above, stones⟩ := five
  obtain ⟨x, y, atX, atY, -, -, colored⟩ := stones 0 below (by omega)
  obtain rfl : x = row := by omega
  obtain rfl : y = col := by omega
  exact colored

/-- Five in a row after a stone was set have it among them, or were there before. -/
theorem five_before {color : UInt8} {row' col' : Nat}
    (others : ∀ i j, ¬ (i = row ∧ j = col) → after i j = board i j)
    (five : Five after color row' col') :
    Five board color row' col' ∨ Five after color row col := by
  obtain ⟨adjRow, adjCol, direction, low, below, above, stones⟩ := five
  by_cases among : ∃ k, low ≤ k ∧ k < low + 5 ∧ row' + k * adjRow = row ∧ col' + k * adjCol = col
  · obtain ⟨k, lower, upper, sameRow, sameCol⟩ := among
    refine .inr ⟨adjRow, adjCol, direction, low - k, by omega, by omega, fun step from' to' => ?_⟩
    have there := stones (k + step) (by omega) (by omega)
    rw [Int.add_mul, Int.add_mul, ← Int.add_assoc, ← Int.add_assoc, sameRow, sameCol] at there
    exact there
  · refine .inl ⟨adjRow, adjCol, direction, low, below, above, fun k lower upper => ?_⟩
    obtain ⟨x, y, atX, atY, inX, inY, colored⟩ := stones k lower upper
    refine ⟨x, y, atX, atY, inX, inY, ?_⟩
    rw [← others x y fun same => among ⟨k, lower, upper, by omega, by omega⟩, colored]

theorem stonesOf_place {color color' : UInt8} (inRow : row < maxrows) (inCol : col < maxcols)
    (empty : board row col = 0) (placed : after row col = color') (nonzero : color ≠ 0)
    (others : ∀ i j, ¬ (i = row ∧ j = col) → after i j = board i j) :
    stonesOf color after = stonesOf color board + if color' = color then 1 else 0 := by
  simpa [stonesOf, empty, placed, nonzero.symm] using
    countP_place (fun color' => color' = color) inRow inCol others

theorem stones_of_full (full : Full board) : stones board = maxsteps := by
  rw [← length_cells, stones, List.countP_eq_length]
  intro cell member
  obtain ⟨inRow, inCol⟩ := mem_cells.mp member
  exact decide_eq_true (full _ _ inRow inCol)

end Placing

section Turns

variable {group : Group} {game : Game} {p : Sprite} {body : List UInt8}

/-- An action ends the game, is refused, or sets a stone that makes no five and is not the last. -/
theorem handlePlayerAction_goesOn (group : Group) (game : Game) (p : Sprite) (body : List UInt8) :
    0 < (game.handlePlayerAction group p body).err ∨
      (game.handlePlayerAction group p body).game = game ∨
      ∃ row col, row < maxrows ∧ col < maxcols ∧ game.chessboard row col = 0 ∧
        ¬ Five (placed group game row col).chessboard (chesscolor group game.nxmover) row col ∧
        (placed group game row col).nsteps ≠ maxsteps ∧
        (game.handlePlayerAction group p body).game =
          (placed group game row col).setNxmover group := by
  unfold Game.handlePlayerAction
  split
  case h_2 => exact .inr (.inl rfl)
  case h_1 apkg player reads =>
    split
    case isTrue => exact .inr (.inl rfl)
    case isFalse turn =>
      split
      case h_1 => exact .inr (.inl rfl)
      case h_2 after places =>
        obtain ⟨inRow, inCol, empty, rfl⟩ := placeChess_eq places
        obtain ⟨found, ends, line⟩ := determineWinner_finds
          (placed group game apkg.row apkg.col).chessboard ⟨inRow, inCol⟩
        have own : (placed group game apkg.row apkg.col).chessboard apkg.row apkg.col =
            chesscolor group game.nxmover := if_pos ⟨rfl, rfl⟩
        rw [own] at line
        simp only [placed] at ends line ⊢
        rw [ends]
        cases found with
        | cons => exact .inl Int.one_pos
        | nil =>
          dsimp only
          split
          case isTrue => exact .inl (Int.natCast_pos.mpr (Nat.succ_pos 3))
          case isFalse draw =>
            have none' := line.resolve_left fun some' => some'.1 rfl
            exact .inr (.inr ⟨apkg.row, apkg.col, inRow, inCol, empty, none'.2,
              fun last => draw (decide_eq_true last), rfl⟩)

theorem setNxmover_turns (group : Group) (game : Game) :
    (game.nxmover = group.player0 → (game.setNxmover group).nxmover = group.player1) ∧
      (game.nxmover = group.player1 → (game.setNxmover group).nxmover = group.player0) := by
  have apart := group.apart
  constructor <;> intro turn
  · simp [Game.setNxmover, Group.players, turn, apart.symm]
  · simp [Game.setNxmover, Group.players, turn, apart]

/-- A stone that makes no five and is not the last leaves the board fair. -/
theorem Fair.place (fair : Fair group game) {row col : Nat} (inRow : row < maxrows)
    (inCol : col < maxcols) (empty : game.chessboard row col = 0)
    (none' : ¬ Five (placed group game row col).chessboard (chesscolor group game.nxmover) row col)
    (counted : (placed group game row col).nsteps = stones (placed group game row col).chessboard)
    (last : (placed group game row col).nsteps ≠ maxsteps) :
    Fair group ((placed group game row col).setNxmover group) := by
  obtain ⟨-, -, board⟩ := setNxmover_rest group (placed group game row col)
  have others : ∀ i j, ¬ (i = row ∧ j = col) →
      (placed group game row col).chessboard i j = game.chessboard i j :=
    fun _ _ other => if_neg other
  have own : (placed group game row col).chessboard row col = chesscolor group game.nxmover :=
    if_pos ⟨rfl, rfl⟩
  refine ⟨?_, ?_, ?_⟩
  · intro color nonzero row' col' five
    rw [board] at five
    obtain before | through := five_before others five
    · exact fair.noFive color nonzero row' col' before
    · -- the stone that was set is one of the five
      rw [← own, through.colored] at none'
      exact none' through
  · rw [board]
    intro full
    exact last (counted.trans (stones_of_full full))
  · obtain ⟨white, black⟩ := setNxmover_turns group (placed group game row col)
    rw [board, stonesOf_place inRow inCol empty own (by decide) others,
      stonesOf_place inRow inCol empty own (by decide) others]
    rcases fair.turn with ⟨turn, same⟩ | ⟨turn, more⟩
    · refine .inr ⟨white turn, ?_⟩
      rw [turn, chesscolor, if_pos rfl, same]
      rfl
    · refine .inl ⟨black turn, ?_⟩
      rw [turn, chesscolor, if_neg group.apart.symm, if_pos rfl, more]
      rfl

theorem Fair.step {history : History} {message : Message} (fair : Fair group history.game)
    (sound : Sound group history) (goesOn : GoesOn group history message) :
    Fair group (history.step group message).game := by
  obtain ⟨p, command⟩ := message
  obtain ⟨game, asked⟩ := history
  obtain ⟨member, continues⟩ := goesOn
  have askers := sound.askers
  rw [← sound.req] at askers
  cases command with
  | gobangAction body =>
    obtain ended | same | ⟨row, col, inRow, inCol, empty, none', last, goes⟩ :=
      handlePlayerAction_goesOn group game p body
    · exact absurd continues (Int.not_le.mpr ended)
    · exact (congrArg (Fair group) same).mpr fair
    · exact (congrArg (Fair group) goes).mpr (fair.place inRow inCol empty none'
        (stones_placed inRow inCol empty sound.mover sound.nsteps) last)
  | playerReq body =>
    exact (congrArg (Fair group) (handlePlayerReq_eq game p body).1).mpr
      ⟨fair.noFive, fair.free, fair.turn⟩
  | notifyPlayerReq body =>
    exact (congrArg (Fair group) (handleRspPlayerReq_game askers)).mpr
      ⟨fair.noFive, fair.free, fair.turn⟩
  | playerLeave => exact fair
  | other => exact fair

end Turns

theorem fair_init (group : Group) : Fair group (.init group) where
  noFive color nonzero row col five := nonzero five.colored.symm
  free full := full 0 0 (by decide) (by decide) rfl
  turn := .inl ⟨rfl, by simp [stonesOf, Game.init]⟩

/-- In every game that goes on, nobody has five in a row, there is a free cell, and the players
have set their stones in turn. -/
theorem fair_of_plays {group : Group} {history : History} (plays : Plays group history) :
    Fair group history.game := by
  have both : Sound group history ∧ Fair group history.game := by
    induction plays with
    | refl => exact ⟨Plays.sound .refl, fair_init group⟩
    | call _ goesOn ih => exact ⟨sound_step ih.1 goesOn, ih.2.step ih.1 goesOn⟩
  exact both.2

/-- Three white stones and two black ones are set. -/
theorem fair_of_plays_surrendering : Fair pair surrendering.game ∧
    stonesOf 1 surrendering.game.chessboard = 3 ∧ stonesOf 2 surrendering.game.chessboard = 2 :=
  ⟨fair_of_plays surrendering_plays, by decide +kernel, by decide +kernel⟩

end Taomee.Gobang
