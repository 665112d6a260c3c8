import Mathlib.Algebra.Order.Ring.Int
import Mathlib.Data.List.ProdSigma
import Mathlib.Tactic.Ring
import Taomee.Gobang.Game

/-!
# Gobang: the board

What `determine_winner` finds is five stones in a row, and `m_nsteps` counts the stones on the
board.
-/

namespace Taomee.Gobang

variable {board : Chessboard} {row col : Nat}

/-- The cell at a place of the plane is on the board and has this stone. -/
def Stone (board : Chessboard) (color : UInt8) (row col : ℤ) : Prop :=
  ∃ x y : Nat, row = x ∧ col = y ∧ x < maxrows ∧ y < maxcols ∧ board x y = color

/-- Five stones of one color in a row, one of them at `row`, `col`. -/
def Five (board : Chessboard) (color : UInt8) (row col : Nat) : Prop :=
  ∃ adjRow adjCol : ℤ, (adjRow, adjCol) ∈ [(1, 1), (0, 1), (-1, 1), (-1, 0)] ∧
    ∃ low : ℤ, low ≤ 0 ∧ 0 < low + 5 ∧ ∀ k, low ≤ k → k < low + 5 →
      Stone board color (row + k * adjRow) (col + k * adjCol)

/-- At least five stones of one color next to each other on a row, a column or a diagonal, the
one at `row`, `col` among them. -/
def FiveOrMore (board : Chessboard) (color : UInt8) (row col : Nat) : Prop :=
  ∃ adjRow adjCol : ℤ, (adjRow, adjCol) ∈ [(1, 1), (0, 1), (-1, 1), (-1, 0)] ∧
    ∃ low high : ℤ, low ≤ 0 ∧ 0 ≤ high ∧ low + 5 ≤ high + 1 ∧ ∀ k, low ≤ k → k ≤ high →
      Stone board color (row + k * adjRow) (col + k * adjCol)

/-- Of five and more stones some five have the one at `row`, `col` among them. -/
theorem fiveOrMore_iff {color : UInt8} :
    FiveOrMore board color row col ↔ Five board color row col := by
  constructor
  · rintro ⟨adjRow, adjCol, direction, low, high, below, above, many, stones⟩
    by_cases near : 0 < low + 5
    · exact ⟨adjRow, adjCol, direction, low, below, near,
        fun k lower upper => stones k lower (by omega)⟩
    · exact ⟨adjRow, adjCol, direction, -4, by decide, by decide,
        fun k lower upper => stones k (by omega) (by omega)⟩
  · rintro ⟨adjRow, adjCol, direction, low, below, near, stones⟩
    exact ⟨adjRow, adjCol, direction, low, low + 4, below, by omega, by omega,
      fun k lower upper => stones k lower (by omega)⟩

/-- A square of the board as a place of the plane. -/
def place (square : Nat × Nat) : ℤ × ℤ := (square.1, square.2)

/-- So many places one step after the other. -/
def onLine (start step : ℤ × ℤ) (count : Nat) : List (ℤ × ℤ) :=
  (List.range count).map fun k : Nat => (start.1 + k * step.1, start.2 + k * step.2)

theorem onLine_succ (start step : ℤ × ℤ) (count : Nat) :
    onLine start step (count + 1) =
      onLine start step count ++ [(start.1 + count * step.1, start.2 + count * step.2)] := by
  rw [onLine, List.range_succ, List.map_append, List.map_singleton]
  rfl

theorem onLine_cons (start step : ℤ × ℤ) (count : Nat) :
    onLine start step (count + 1) =
      start :: onLine (start.1 + step.1, start.2 + step.2) step count := by
  simp only [onLine, List.range_succ_eq_map, List.map_cons, List.map_map]
  refine congrArg₂ List.cons (by simp) (List.map_congr_left fun k _ => ?_)
  simp only [Function.comp_apply, Nat.succ_eq_add_one, Nat.cast_add, Prod.mk.injEq]
  exact ⟨by ring, by ring⟩

/-- Five squares of the board next to each other on a row, a column or a diagonal, in any order,
all with this stone. -/
def FiveSquares (board : Chessboard) (color : UInt8) (squares : List (Nat × Nat)) : Prop :=
  (∃ adj ∈ [((1 : ℤ), (1 : ℤ)), (0, 1), (-1, 1), (-1, 0)], ∃ start,
    (squares.map place).Perm (onLine start adj 5)) ∧
  ∀ square ∈ squares, square.1 < maxrows ∧ square.2 < maxcols ∧
    board square.1 square.2 = color

/-- A `uint16_t` stands for a step of the plane. -/
def Steps (adj : Nat) (step : ℤ) : Prop :=
  (step = 0 ∧ adj = 0) ∨ (step = 1 ∧ adj = 1) ∨ (step = -1 ∧ adj = 65535)

theorem Steps.negate {adj : Nat} {step : ℤ} (steps : Steps adj step) :
    Steps (negate adj) (-step) := by
  unfold Steps Gobang.negate at *
  omega

/-- A step that stays on the board is a step of the plane. -/
theorem Steps.add {adj x : Nat} {step : ℤ} (steps : Steps adj step) (small : x < 15)
    (stays : (x + adj) % 65536 < 15) : (((x + adj) % 65536 : Nat) : ℤ) = x + step := by
  unfold Steps at steps
  omega

/-- Where the next place of the plane is on the board, the scan looks there. -/
theorem Steps.next {adj x place : Nat} {step : ℤ} (steps : Steps adj step)
    (inside : place < 15) (next : (x : ℤ) + step = place) : (x + adj) % 65536 = place := by
  unfold Steps at steps
  omega

section Scan

variable {board : Chessboard} {color : UInt8} {row col : Nat} {stepRow stepCol : ℤ}
variable {adjchesses : List (Nat × Nat)} {adjRow adjCol : Nat}

/-- The stones found so far: a stretch of the line with the first stone, and the scan stands at
the end of it where it goes on, first upwards and then downwards. -/
structure Stretch (board : Chessboard) (color : UInt8) (row col : Nat) (stepRow stepCol : ℤ)
    (j : Nat) (x y : Nat) (count : Nat) (low high : ℤ) : Prop where
  below : low ≤ 0
  above : 0 ≤ high
  size : (count : ℤ) = high - low + 1
  stones : ∀ k, low ≤ k → k ≤ high → Stone board color (row + k * stepRow) (col + k * stepCol)
  inRow : x < 15
  inCol : y < 15
  atEnd : (j = 0 ∧ low = 0 ∧ (x : ℤ) = row + high * stepRow ∧ (y : ℤ) = col + high * stepCol) ∨
    (j = 1 ∧ (x : ℤ) = row + low * stepRow ∧ (y : ℤ) = col + low * stepCol)

/-- The step in use: forwards first, then backwards. -/
def facing (j : Nat) (step : ℤ) : ℤ := if j = 0 then step else -step

/-- One more stone where the scan goes on. -/
theorem Stretch.grow {j x y count x' y' : Nat} {low high : ℤ}
    (stretch : Stretch board color row col stepRow stepCol j x y count low high)
    (inX : x' < 15) (inY : y' < 15) (nextX : (x' : ℤ) = x + facing j stepRow)
    (nextY : (y' : ℤ) = y + facing j stepCol) (colored : board x' y' = color) :
    ∃ low' high', (j = 0 ∧ low' = low ∧ high' = high + 1 ∨ j = 1 ∧ low' = low - 1 ∧ high' = high) ∧
      Stretch board color row col stepRow stepCol j x' y' (count + 1) low' high' := by
  have size := stretch.size
  have below := stretch.below
  have above := stretch.above
  have stone : Stone board color x' y' := ⟨x', y', rfl, rfl, inX, inY, colored⟩
  rcases stretch.atEnd with ⟨rfl, rfl, atX, atY⟩ | ⟨rfl, atX, atY⟩
  · simp only [facing, if_true] at nextX nextY
    have placeX : (x' : ℤ) = row + (high + 1) * stepRow := by rw [nextX, atX]; ring
    have placeY : (y' : ℤ) = col + (high + 1) * stepCol := by rw [nextY, atY]; ring
    refine ⟨0, high + 1, .inl ⟨rfl, rfl, rfl⟩, below, by omega, by push_cast; omega,
      fun k lower upper => ?_, inX, inY, .inl ⟨rfl, rfl, placeX, placeY⟩⟩
    by_cases last : k = high + 1
    · rw [last, ← placeX, ← placeY]
      exact stone
    · exact stretch.stones k lower (by omega)
  · simp only [facing, Nat.one_ne_zero, if_false] at nextX nextY
    have placeX : (x' : ℤ) = row + (low - 1) * stepRow := by rw [nextX, atX]; ring
    have placeY : (y' : ℤ) = col + (low - 1) * stepCol := by rw [nextY, atY]; ring
    refine ⟨low - 1, high, .inr ⟨rfl, rfl, rfl⟩, by omega, above, by push_cast; omega,
      fun k lower upper => ?_, inX, inY, .inr ⟨rfl, placeX, placeY⟩⟩
    by_cases last : k = low - 1
    · rw [last, ← placeX, ← placeY]
      exact stone
    · exact stretch.stones k (by omega) upper

/-- The squares of the line that the scan has listed, and downwards why it does not go up. -/
structure Listed (board : Chessboard) (color : UInt8) (row col : Nat) (stepRow stepCol : ℤ)
    (j : Nat) (adjchesses : List (Nat × Nat)) (low high : ℤ) : Prop where
  squares : (adjchesses.map place).Perm
    (onLine (row + low * stepRow, col + low * stepCol) (stepRow, stepCol) adjchesses.length)
  blocked : j = 1 →
    ¬ Stone board color (row + (high + 1) * stepRow) (col + (high + 1) * stepCol)

/-- One more square at one of the ends. -/
theorem Listed.grow {j x y x' y' : Nat} {low high low' high' : ℤ}
    (listed : Listed board color row col stepRow stepCol j adjchesses low high)
    (stretch : Stretch board color row col stepRow stepCol j x y adjchesses.length low high)
    (grown : j = 0 ∧ low' = low ∧ high' = high + 1 ∨ j = 1 ∧ low' = low - 1 ∧ high' = high)
    (nextX : (x' : ℤ) = x + facing j stepRow) (nextY : (y' : ℤ) = y + facing j stepCol) :
    Listed board color row col stepRow stepCol j (adjchesses ++ [(x', y')]) low' high' := by
  have size := stretch.size
  have squares := listed.squares
  rcases grown with ⟨rfl, rfl, rfl⟩ | ⟨rfl, rfl, rfl⟩
  · refine ⟨?_, fun never => absurd never (by decide)⟩
    obtain ⟨-, rfl, atX, atY⟩ | ⟨never, -⟩ := stretch.atEnd
    · have last : place (x', y') =
          (row + 0 * stepRow + adjchesses.length * stepRow,
            col + 0 * stepCol + adjchesses.length * stepCol) := by
        simp only [facing, if_true] at nextX nextY
        rw [place, nextX, nextY, atX, atY, size]
        refine Prod.ext ?_ ?_ <;> ring
      rw [List.map_append, List.length_append, List.length_singleton, onLine_succ,
        List.map_singleton, last]
      exact squares.append_right _
    · exact absurd never (by decide)
  · refine ⟨?_, listed.blocked⟩
    obtain ⟨never, -⟩ | ⟨-, atX, atY⟩ := stretch.atEnd
    · exact absurd never (by decide)
    · have first : place (x', y') = (row + (low - 1) * stepRow, col + (low - 1) * stepCol) := by
        simp only [facing, Nat.one_ne_zero, if_false] at nextX nextY
        rw [place, nextX, nextY, atX, atY]
        refine Prod.ext ?_ ?_ <;> ring
      have rest : ((row : ℤ) + (low - 1) * stepRow + stepRow,
          (col : ℤ) + (low - 1) * stepCol + stepCol) =
          (row + low * stepRow, col + low * stepCol) := by
        refine Prod.ext ?_ ?_ <;> ring
      rw [List.map_append, List.length_append, List.length_singleton, onLine_cons, rest,
        List.map_singleton, first]
      exact (List.perm_append_singleton _ _).trans (squares.cons _)

/-- Where the scan does not go on there is no stone. -/
theorem not_stone_of_edge {x y : Nat} {stepX stepY : ℤ} (rows : Steps adjRow stepX)
    (cols : Steps adjCol stepY)
    (edge : (x + adjRow) % 65536 ≥ maxrows ∨ (y + adjCol) % 65536 ≥ maxcols ∨
      board ((x + adjRow) % 65536) ((y + adjCol) % 65536) ≠ color) :
    ¬ Stone board color (x + stepX) (y + stepY) := by
  rintro ⟨x', y', atX, atY, inX, inY, colored⟩
  rw [rows.next inX atX, cols.next inY atY] at edge
  rcases edge with beyond | beyond | other
  · omega
  · omega
  · exact other colored

/-- Some five of the stones of a line have the first stone among them. -/
def Window (board : Chessboard) (color : UInt8) (row col : Nat) (stepRow stepCol low : ℤ) : Prop :=
  low ≤ 0 ∧ 0 < low + 5 ∧ ∀ k, low ≤ k → k < low + 5 →
    Stone board color (row + k * stepRow) (col + k * stepCol)

/-- What a scan of a line found: the squares of five stones, or that there are none. -/
def Finds (board : Chessboard) (color : UInt8) (row col : Nat) (stepRow stepCol : ℤ)
    (found : List (Nat × Nat)) : Prop :=
  (∃ low, Window board color row col stepRow stepCol low ∧
    (found.map place).Perm
      (onLine (row + low * stepRow, col + low * stepCol) (stepRow, stepCol) 5)) ∨
  (found = [] ∧ ∀ low, ¬ Window board color row col stepRow stepCol low)

theorem scanLine_finds {fuel j x y : Nat} {found : List (Nat × Nat)} {low high : ℤ}
    (stretch : Stretch board color row col stepRow stepCol j x y adjchesses.length low high)
    (listed : Listed board color row col stepRow stepCol j adjchesses low high)
    (rows : Steps adjRow (facing j stepRow)) (cols : Steps adjCol (facing j stepCol))
    (short : adjchesses.length < 5) (start : row < 15 ∧ col < 15)
    (scanned : scanLine board color row col fuel j adjRow adjCol x y adjchesses = some found) :
    Finds board color row col stepRow stepCol found := by
  induction fuel generalizing j adjRow adjCol x y adjchesses low high with
  | zero => cases scanned
  | succ fuel ih =>
    unfold scanLine at scanned
    dsimp only at scanned
    split at scanned
    case isTrue edge =>
      have ended := not_stone_of_edge rows cols edge
      split at scanned
      case isTrue last =>
        -- both ends of the stretch are reached, and it is shorter than five
        cases scanned
        obtain rfl : j = 1 := by omega
        obtain ⟨never, -⟩ | ⟨-, atX, atY⟩ := stretch.atEnd
        · exact absurd never (by decide)
        refine .inr ⟨rfl, fun bottom window => ?_⟩
        obtain ⟨below, above, stones⟩ := window
        have size := stretch.size
        have notAbove : ¬ (bottom ≤ high + 1 ∧ high + 1 < bottom + 5) :=
          fun inside => listed.blocked rfl (stones _ inside.1 inside.2)
        have notBelow : ¬ (bottom ≤ low - 1 ∧ low - 1 < bottom + 5) := by
          intro inside
          have stone := stones _ inside.1 inside.2
          simp only [facing, Nat.one_ne_zero, if_false, atX, atY] at ended
          refine ended ?_
          convert stone using 1 <;> ring
        have low_le := stretch.below
        have le_high := stretch.above
        omega
      case isFalse turns =>
        -- the other way, from the first stone again
        obtain ⟨rfl, rfl, atX, atY⟩ | ⟨one, -⟩ := stretch.atEnd
        · have back :
              Stretch board color row col stepRow stepCol 1 row col adjchesses.length 0 high :=
            ⟨stretch.below, stretch.above, stretch.size, stretch.stones, start.1, start.2,
              .inr ⟨rfl, by simp, by simp⟩⟩
          have stopped : Listed board color row col stepRow stepCol 1 adjchesses 0 high := by
            refine ⟨listed.squares, fun _ stone => ended ?_⟩
            simp only [facing, if_true, atX, atY]
            convert stone using 1 <;> ring
          exact ih back stopped rows.negate cols.negate short scanned
        · omega
    case isFalse onward =>
      have inX : (x + adjRow) % 65536 < 15 := by
        simp only [maxrows] at onward
        omega
      have inY : (y + adjCol) % 65536 < 15 := by
        simp only [maxcols] at onward
        omega
      have colored : board ((x + adjRow) % 65536) ((y + adjCol) % 65536) = color := by
        by_contra other
        exact onward (.inr (.inr other))
      have nextX := rows.add stretch.inRow inX
      have nextY := cols.add stretch.inCol inY
      obtain ⟨low', high', grows, grown⟩ := stretch.grow inX inY nextX nextY colored
      have listed' := listed.grow stretch grows nextX nextY
      split at scanned
      case isTrue full =>
        cases scanned
        have size := grown.size
        have above := grown.above
        have squares := listed'.squares
        rw [full] at squares
        simp only [List.length_append, List.length_singleton] at full
        refine .inl ⟨low', ⟨grown.below, by omega, fun k lower upper => ?_⟩, squares⟩
        exact grown.stones k lower (by omega)
      case isFalse more =>
        refine ih (by simpa using grown) listed' rows cols ?_ scanned
        simp only [List.length_append, List.length_singleton] at more ⊢
        omega

/-- One direction, from the first stone. -/
theorem scanLine_start {found : List (Nat × Nat)} (start : row < 15 ∧ col < 15)
    (colored : board row col = color) (rows : Steps adjRow stepRow) (cols : Steps adjCol stepCol)
    (scanned : scanLine board color row col 6 0 adjRow adjCol row col [(row, col)] = some found) :
    Finds board color row col stepRow stepCol found := by
  have stretch : Stretch board color row col stepRow stepCol 0 row col 1 0 0 := by
    refine ⟨le_refl 0, le_refl 0, rfl, fun k lower upper => ?_, start.1, start.2,
      .inl ⟨rfl, rfl, by simp, by simp⟩⟩
    obtain rfl : k = 0 := by omega
    exact ⟨row, col, by simp, by simp, start.1, start.2, colored⟩
  have listed : Listed board color row col stepRow stepCol 0 [(row, col)] 0 0 :=
    ⟨by simp [onLine, place], fun never => absurd never (by decide)⟩
  exact scanLine_finds stretch listed rows cols (by simp) start scanned

/-- Six rounds are enough for the inner loop: four stones and two ends. -/
theorem scanLine_some {fuel j x y : Nat} (first : j < 2) (short : adjchesses.length < 5)
    (enough : 7 ≤ fuel + j + adjchesses.length) :
    ∃ found, scanLine board color row col fuel j adjRow adjCol x y adjchesses = some found := by
  induction fuel generalizing j adjRow adjCol x y adjchesses with
  | zero => omega
  | succ fuel ih =>
    unfold scanLine
    dsimp only
    split
    case isTrue =>
      split
      case isTrue => exact ⟨_, rfl⟩
      case isFalse turns => exact ih (by omega) short (by omega)
    case isFalse =>
      split
      case isTrue => exact ⟨_, rfl⟩
      case isFalse more =>
        simp only [List.length_append, List.length_singleton] at more
        refine ih first ?_ ?_ <;> simp only [List.length_append, List.length_singleton] <;> omega

end Scan

/-- The pair of a direction stands for one of the four of the plane. -/
def Direction (line : Nat × Nat) : Prop :=
  ∃ stepRow stepCol : ℤ, Steps line.1 stepRow ∧ Steps line.2 stepCol ∧
    (stepRow, stepCol) ∈ [((1 : ℤ), (1 : ℤ)), (0, 1), (-1, 1), (-1, 0)]

/-- What the scan of some directions found: five stones in one of them, or none in any. -/
theorem scanLines_finds (board : Chessboard) (start : row < 15 ∧ col < 15)
    {lines : List (Nat × Nat)} (known : ∀ line ∈ lines, Direction line) :
    ∃ adjchesses, scanLines board (board row col) row col lines = some adjchesses ∧
      ((adjchesses ≠ [] ∧ ∃ stepRow stepCol,
          (stepRow, stepCol) ∈ [((1 : ℤ), (1 : ℤ)), (0, 1), (-1, 1), (-1, 0)] ∧
            Finds board (board row col) row col stepRow stepCol adjchesses) ∨
        (adjchesses = [] ∧ ∀ line ∈ lines, ∀ stepRow stepCol, Steps line.1 stepRow →
          Steps line.2 stepCol →
            ∀ low, ¬ Window board (board row col) row col stepRow stepCol low)) := by
  induction lines with
  | nil => exact ⟨[], rfl, .inr ⟨rfl, by simp⟩⟩
  | cons line rest ih =>
    have ends : ∃ found, scanLine board (board row col) row col 6 0 line.1 line.2 row col
        [(row, col)] = some found :=
      scanLine_some (by decide) (by simp) (by simp)
    obtain ⟨found, scanned⟩ := ends
    cases found with
    | nil =>
      obtain ⟨adjchesses, later, found⟩ :=
        ih fun other member => known other (List.mem_cons_of_mem line member)
      refine ⟨adjchesses, by simp only [scanLines, scanned, later], found.imp_right ?_⟩
      rintro ⟨nothing, others⟩
      refine ⟨nothing, fun other member stepRow stepCol rows cols low window => ?_⟩
      rcases List.mem_cons.mp member with rfl | member
      · rcases scanLine_start start rfl rows cols scanned with ⟨_, -, squares⟩ | ⟨-, none⟩
        · exact absurd squares.length_eq (by simp [onLine])
        · exact none low window
      · exact others other member stepRow stepCol rows cols low window
    | cons stone stones =>
      obtain ⟨stepRow, stepCol, rows, cols, direction⟩ := known line List.mem_cons_self
      exact ⟨stone :: stones, by simp only [scanLines, scanned],
        .inl ⟨List.cons_ne_nil stone stones, stepRow, stepCol, direction,
          scanLine_start start rfl rows cols scanned⟩⟩

/-- The four directions of `determine_winner`. -/
theorem direction_of_mem {line : Nat × Nat}
    (member : line ∈ [(1, 1), (0, 1), (65535, 1), (65535, 0)]) : Direction line := by
  simp only [List.mem_cons, List.not_mem_nil, or_false] at member
  rcases member with rfl | rfl | rfl | rfl
  · exact ⟨1, 1, .inr (.inl ⟨rfl, rfl⟩), .inr (.inl ⟨rfl, rfl⟩), by decide⟩
  · exact ⟨0, 1, .inl ⟨rfl, rfl⟩, .inr (.inl ⟨rfl, rfl⟩), by decide⟩
  · exact ⟨-1, 1, .inr (.inr ⟨rfl, rfl⟩), .inr (.inl ⟨rfl, rfl⟩), by decide⟩
  · exact ⟨-1, 0, .inr (.inr ⟨rfl, rfl⟩), .inl ⟨rfl, rfl⟩, by decide⟩

/-- Each direction of the plane is one of them. -/
theorem exists_line {stepRow stepCol : ℤ}
    (direction : (stepRow, stepCol) ∈ [((1 : ℤ), (1 : ℤ)), (0, 1), (-1, 1), (-1, 0)]) :
    ∃ line ∈ [((1 : Nat), (1 : Nat)), (0, 1), (65535, 1), (65535, 0)],
      Steps line.1 stepRow ∧ Steps line.2 stepCol := by
  simp only [List.mem_cons, List.not_mem_nil, or_false] at direction
  rcases direction with ⟨rfl, rfl⟩ | ⟨rfl, rfl⟩ | ⟨rfl, rfl⟩ | ⟨rfl, rfl⟩
  · exact ⟨(1, 1), by decide, .inr (.inl ⟨rfl, rfl⟩), .inr (.inl ⟨rfl, rfl⟩)⟩
  · exact ⟨(0, 1), by decide, .inl ⟨rfl, rfl⟩, .inr (.inl ⟨rfl, rfl⟩)⟩
  · exact ⟨(65535, 1), by decide, .inr (.inr ⟨rfl, rfl⟩), .inr (.inl ⟨rfl, rfl⟩)⟩
  · exact ⟨(65535, 0), by decide, .inr (.inr ⟨rfl, rfl⟩), .inl ⟨rfl, rfl⟩⟩

/-- The squares of a window hold its stones. -/
theorem fiveSquares_of_window {color : UInt8} {stepRow stepCol low : ℤ} {squares : List (Nat × Nat)}
    (direction : (stepRow, stepCol) ∈ [((1 : ℤ), (1 : ℤ)), (0, 1), (-1, 1), (-1, 0)])
    (window : Window board color row col stepRow stepCol low) (line : (squares.map place).Perm
      (onLine (row + low * stepRow, col + low * stepCol) (stepRow, stepCol) 5)) :
    FiveSquares board color squares := by
  refine ⟨⟨_, direction, _, line⟩, fun square member => ?_⟩
  have listed := line.mem_iff.mp (List.mem_map_of_mem member)
  simp only [onLine, List.mem_map, List.mem_range] at listed
  obtain ⟨k, inside, same⟩ := listed
  obtain ⟨atRow, atCol⟩ := Prod.ext_iff.mp same
  obtain ⟨x, y, atX, atY, inRow, inCol, colored⟩ := window.2.2 (low + k) (by omega) (by omega)
  have first : (square.1 : ℤ) = x := by
    rw [← atX, show (square.1 : ℤ) = (place square).1 from rfl, ← atRow]
    ring
  have second : (square.2 : ℤ) = y := by
    rw [← atY, show (square.2 : ℤ) = (place square).2 from rfl, ← atCol]
    ring
  rw [Int.natCast_inj] at first second
  rw [first, second]
  exact ⟨inRow, inCol, colored⟩

/-- `determine_winner` ends, with five stones of the line of the last stone where there are any. -/
theorem determineWinner_finds (board : Chessboard) (start : row < 15 ∧ col < 15) :
    ∃ adjchesses, determineWinner board row col = some adjchesses ∧
      ((adjchesses ≠ [] ∧ Five board (board row col) row col ∧
          FiveSquares board (board row col) adjchesses) ∨
        (adjchesses = [] ∧ ¬ Five board (board row col) row col)) := by
  obtain ⟨adjchesses, scanned, found⟩ := scanLines_finds board start fun line => direction_of_mem
  refine ⟨adjchesses, scanned, ?_⟩
  rcases found with ⟨some', stepRow, stepCol, direction, finds⟩ | ⟨nothing, none⟩
  · rcases finds with ⟨low, window, line⟩ | ⟨never, -⟩
    · exact .inl ⟨some', ⟨stepRow, stepCol, direction, low, window⟩,
        fiveSquares_of_window direction window line⟩
    · exact absurd never some'
  · refine .inr ⟨nothing, ?_⟩
    rintro ⟨stepRow, stepCol, direction, low, window⟩
    obtain ⟨line, member, rows, cols⟩ := exists_line direction
    exact none line member stepRow stepCol rows cols low window

/-- `determine_winner` ends, and what it finds is five in a row through the last stone. -/
theorem determineWinner_sound (board : Chessboard) (start : row < 15 ∧ col < 15) :
    ∃ adjchesses, determineWinner board row col = some adjchesses ∧
      (adjchesses ≠ [] → Five board (board row col) row col) := by
  obtain ⟨adjchesses, scanned, ⟨-, five, -⟩ | ⟨nothing, -⟩⟩ := determineWinner_finds board start
  · exact ⟨adjchesses, scanned, fun _ => five⟩
  · exact ⟨adjchesses, scanned, fun some' => absurd nothing some'⟩

/-- For every board and every stone on it: `determine_winner` reports a win exactly when five or
more stones of its color stand in a row through it, and then five of their squares. -/
theorem determineWinner_iff (board : Chessboard) {row col : Nat}
    (start : row < maxrows ∧ col < maxcols) :
    ∃ adjchesses, determineWinner board row col = some adjchesses ∧
      (adjchesses ≠ [] ↔ FiveOrMore board (board row col) row col) ∧
      (adjchesses ≠ [] → FiveSquares board (board row col) adjchesses) := by
  obtain ⟨adjchesses, scanned, ⟨some', five, squares⟩ | ⟨nothing, none⟩⟩ :=
    determineWinner_finds board start
  · exact ⟨adjchesses, scanned, iff_of_true some' (fiveOrMore_iff.mpr five), fun _ => squares⟩
  · exact ⟨adjchesses, scanned,
      iff_of_false (not_not.mpr nothing) fun more => none (fiveOrMore_iff.mp more),
      fun some' => absurd nothing some'⟩

/-- Six white stones up the last column, the last set in the corner. -/
def cornerBoard : Chessboard := fun row col => if col = 14 ∧ 9 ≤ row then 1 else 0

theorem determineWinner_iff_corner :
    determineWinner cornerBoard 14 14 = some [(14, 14), (13, 14), (12, 14), (11, 14), (10, 14)] ∧
      FiveOrMore cornerBoard 1 14 14 := by
  have found : determineWinner cornerBoard 14 14 =
      some [(14, 14), (13, 14), (12, 14), (11, 14), (10, 14)] := by
    decide
  obtain ⟨adjchesses, scanned, wins, -⟩ := @determineWinner_iff cornerBoard 14 14 (by decide)
  rw [found, Option.some.injEq] at scanned
  exact ⟨found, wins.mp (by simp [← scanned])⟩

/-! ## The number of stones -/

/-- The cells of the board. -/
def cells : List (Nat × Nat) := List.range maxrows ×ˢ List.range maxcols

theorem mem_cells : (row, col) ∈ cells ↔ row < maxrows ∧ col < maxcols := by
  simp [cells]

theorem nodup_cells : cells.Nodup := List.nodup_range.product List.nodup_range

def stones (board : Chessboard) : Nat := cells.countP fun cell => board cell.1 cell.2 ≠ 0

/-- Every cell has a stone. -/
def Full (board : Chessboard) : Prop := ∀ row col, row < maxrows → col < maxcols → board row col ≠ 0

theorem length_cells : cells.length = maxsteps := by
  rw [cells, List.length_product, List.length_range, List.length_range, maxsteps]

theorem stones_le (board : Chessboard) : stones board ≤ maxsteps := by
  rw [← length_cells]
  exact List.countP_le_length

theorem full_of_stones (all : stones board = maxsteps) : Full board := by
  rw [← length_cells, stones, List.countP_eq_length] at all
  intro row col inRow inCol
  simpa using all (row, col) (mem_cells.mpr ⟨inRow, inCol⟩)

/-- Where one cell changes, the count of the cells of a kind changes by it alone. -/
theorem countP_place {after : Chessboard} (kind : UInt8 → Bool) (inRow : row < maxrows)
    (inCol : col < maxcols) (others : ∀ i j, ¬ (i = row ∧ j = col) → after i j = board i j) :
    cells.countP (fun cell => kind (after cell.1 cell.2)) + (if kind (board row col) then 1 else 0) =
      cells.countP (fun cell => kind (board cell.1 cell.2)) +
        if kind (after row col) then 1 else 0 := by
  have split : cells.Perm ((row, col) :: cells.erase (row, col)) :=
    List.perm_cons_erase (mem_cells.mpr ⟨inRow, inCol⟩)
  rw [split.countP_eq, split.countP_eq, List.countP_cons, List.countP_cons]
  have same : (cells.erase (row, col)).countP (fun cell => kind (after cell.1 cell.2)) =
      (cells.erase (row, col)).countP (fun cell => kind (board cell.1 cell.2)) := by
    refine List.countP_congr fun cell inside => ?_
    have other := (nodup_cells.mem_erase_iff.mp inside).1
    rw [others cell.1 cell.2 fun same => other (Prod.ext same.1 same.2)]
  rw [same]
  exact Nat.add_right_comm ..

/-- A stone on an empty cell is one more. -/
theorem stones_place {after : Chessboard} (inRow : row < maxrows) (inCol : col < maxcols)
    (empty : board row col = 0) (placed : after row col ≠ 0)
    (others : ∀ i j, ¬ (i = row ∧ j = col) → after i j = board i j) :
    stones after = stones board + 1 := by
  simpa [stones, empty, placed] using countP_place (fun color => color ≠ 0) inRow inCol others

end Taomee.Gobang
