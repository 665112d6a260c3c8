import Mathlib.Data.Int.Notation
import Mathlib.Logic.Function.Basic

/-!
# Chinese chess: the rule

`ChineseChessRule` keeps its pieces three times: on the board, in one multimap a side from
codes to squares, and, for the generals, in `general_pos_`. `place_chess` checks a move on the
board and updates all three; `ischeck` and `general_face_to_face` start from the other two.

Coordinates are `uint8_t`; what the source computes modulo 256 is computed so here. The squares
of the move that the source keeps in `from_x_` to `to_y_` are a `Move`.
-/

namespace Taomee.ChineseChess

/-- A sprite with `pos_id` 1 plays red, one with `pos_id` 2 black. -/
inductive Side where
  | red
  | black
  deriving DecidableEq

/-- The other player: `p->pos_id % 2` as an index. -/
def Side.other : Side → Side
  | .red => .black
  | .black => .red

/-- `CNCHESS_RedSide` and `CNCHESS_BlackSide`, `types[p->pos_id - 1]`. -/
def Side.bit : Side → UInt8
  | .red => 64
  | .black => 128

inductive ChessType where
  | noChess
  | chariot
  | horse
  | elephant
  | mandarin
  | general
  | cannon
  | soldier
  deriving DecidableEq

def ChessType.value : ChessType → UInt8
  | .noChess => 0
  | .chariot => 1
  | .horse => 2
  | .elephant => 3
  | .mandarin => 4
  | .general => 5
  | .cannon => 6
  | .soldier => 7

/-- A piece as the board holds it. -/
def code (side : Side) (kind : ChessType) : UInt8 := kind.value ||| side.bit

/-- `chess`: the low bits under `CNCHESS_Mask`. -/
def chess (cell : UInt8) : ChessType :=
  match (cell &&& 7).toNat with
  | 1 => .chariot
  | 2 => .horse
  | 3 => .elephant
  | 4 => .mandarin
  | 5 => .general
  | 6 => .cannon
  | 7 => .soldier
  | _ => .noChess

/-- `isyourchess` on a code. -/
def isyourchess (side : Side) (cell : UInt8) : Bool := cell &&& side.bit ≠ 0

/-- `ant::Coordinate2D<uint8_t>`. -/
structure Coordinate where
  x : Nat
  y : Nat
  deriving DecidableEq

/-- A `std::multimap` in the order of its iteration. -/
abbrev ChessMultiMap := List (UInt8 × Coordinate)

/-- A new entry goes behind the entries whose keys are not greater. -/
def ChessMultiMap.insert (map : ChessMultiMap) (entry : UInt8 × Coordinate) : ChessMultiMap :=
  map.takeWhile (fun old => old.1 ≤ entry.1) ++ entry :: map.dropWhile (fun old => old.1 ≤ entry.1)

/-- The fields of `ChineseChessRule` that a game changes. `flag` is 1 once a general is taken
and 9 once the generals face each other. -/
structure Rule where
  board : Nat → Nat → UInt8
  flag : Nat
  nsteps : Nat
  chessMultimap : Side → ChessMultiMap
  generalPos : Side → Coordinate

/-- `from_x_`, `from_y_`, `to_x_` and `to_y_`. -/
structure Move where
  fromX : Nat
  fromY : Nat
  toX : Nat
  toY : Nat
  deriving DecidableEq

/-- `abs(a - b)`, computed in `int`. -/
def absDiff (a b : Nat) : Nat := ((a : ℤ) - b).natAbs

/-- One cell of a board is overwritten. -/
def setCell (board : Nat → Nat → UInt8) (x y : Nat) (cell : UInt8) : Nat → Nat → UInt8 :=
  fun i j => if i = x ∧ j = y then cell else board i j

namespace Rule

/-! ## Setting up -/

/-- A piece is written to the board and filed: chariots, horses, cannons and soldiers in the
multimap, a general in `general_pos_`. -/
def setPiece (rule : Rule) (side : Side) (x y : Nat) (kind : ChessType) : Rule :=
  let placed := { rule with board := setCell rule.board x y (code side kind) }
  match kind with
  | .chariot | .horse | .cannon | .soldier =>
    { placed with
      chessMultimap := Function.update rule.chessMultimap side
        ((rule.chessMultimap side).insert (code side kind, ⟨x, y⟩)) }
  | .general => { placed with generalPos := Function.update rule.generalPos side ⟨x, y⟩ }
  | _ => placed

/-- `setbaseline`: up to the general from one edge, and down again. -/
def setbaseline (rule : Rule) (idx : Nat) (side : Side) : Rule :=
  [(0, .chariot), (1, .horse), (2, .elephant), (3, .mandarin), (4, .general), (5, .mandarin),
    (6, .elephant), (7, .horse), (8, .chariot)].foldl
    (fun rule piece => rule.setPiece side idx piece.1 piece.2) rule

def setsoldiers (rule : Rule) (idx : Nat) (side : Side) : Rule :=
  [0, 2, 4, 6, 8].foldl (fun rule i => rule.setPiece side idx i .soldier) rule

def setcannons (rule : Rule) (idx : Nat) (side : Side) : Rule :=
  [1, 7].foldl (fun rule i => rule.setPiece side idx i .cannon) rule

/-- The constructor. -/
def init : Rule :=
  let empty : Rule := ⟨fun _ _ => 0, 0, 0, fun _ => [], fun _ => ⟨0, 0⟩⟩
  let based := (empty.setbaseline 0 .red).setbaseline 9 .black
  let soldiers := (based.setsoldiers 3 .red).setsoldiers 6 .black
  (soldiers.setcannons 2 .red).setcannons 7 .black

/-! ## Moves -/

/-- `isvalid`. -/
def isvalid (rule : Rule) (side : Side) (move : Move) : Bool :=
  !(move.fromX > 9 || move.fromY > 8 || move.toX > 9 || move.toY > 8
    || (move.fromX = move.toX && move.fromY = move.toY)
    || !isyourchess side (rule.board move.fromX move.fromY)
    || isyourchess side (rule.board move.toX move.toY))

def offpalace (side : Side) (move : Move) : Bool :=
  move.toY < 3 || move.toY > 5 ||
    match side with
    | .red => move.toX > 2
    | .black => move.toX < 7

def offriver (side : Side) (move : Move) : Bool :=
  match side with
  | .red => move.toX > 4
  | .black => move.toX < 5

/-- The squares strictly between two of one line, from `i` up to `upbound`. -/
def between (beg stop : Nat) : List Nat :=
  if stop > beg then List.range' (beg + 1) (stop - (beg + 1))
  else List.range' (stop + 1) (beg - (stop + 1))

/-- `chariot_movable`. With `flag` the move is along a column. -/
def chariotMovable (rule : Rule) (move : Move) (beg stop : Nat) (flag : Bool) : Bool :=
  let cell := fun i => if flag then rule.board i move.toY else rule.board move.toX i
  (between beg stop).all fun i => cell i = 0

/-- `cannon_movable`: two pieces in between end the loop. -/
def cannonMovable (rule : Rule) (move : Move) (beg stop : Nat) (flag : Bool) : Bool :=
  let cell := fun i => if flag then rule.board i move.toY else rule.board move.toX i
  let cnt := (between beg stop).countP fun i => cell i ≠ 0
  if cnt ≥ 2 then false
  else if chess (rule.board move.toX move.toY) ≠ .noChess then cnt ≠ 0
  else cnt = 0

/-- Both overloads of `horse_movable`. -/
def horseMovable (rule : Rule) (move : Move) : Bool :=
  (absDiff move.toY move.fromY = 1 &&
    ((move.toX = move.fromX + 2 && rule.board (move.fromX + 1) move.fromY = 0) ||
      (move.fromX = move.toX + 2 && rule.board (move.fromX - 1) move.fromY = 0))) ||
  (absDiff move.toX move.fromX = 1 &&
    ((move.toY = move.fromY + 2 && rule.board move.fromX (move.fromY + 1) = 0) ||
      (move.fromY = move.toY + 2 && rule.board move.fromX (move.fromY - 1) = 0)))

/-- `adj[...]` of `elephant_movable`; -1 is 255 there. -/
def elephantAdj (forward : Bool) : Nat := if forward then 1 else 255

def elephantMovable (rule : Rule) (side : Side) (move : Move) : Bool :=
  absDiff move.fromX move.toX = 2 && absDiff move.fromY move.toY = 2 && !offriver side move &&
    chess (rule.board ((move.fromX + elephantAdj (move.toX > move.fromX)) % 256)
      ((move.fromY + elephantAdj (move.toY > move.fromY)) % 256)) = .noChess

def mandarinMovable (side : Side) (move : Move) : Bool :=
  absDiff move.fromX move.toX = 1 && absDiff move.fromY move.toY = 1 && !offpalace side move

def soldierMovable (side : Side) (move : Move) : Bool :=
  if move.fromX = move.toX then absDiff move.fromY move.toY = 1 && offriver side move
  else if move.fromY = move.toY then
    match side with
    | .red => move.toX = move.fromX + 1
    | .black => move.fromX = move.toX + 1
  else false

def generalMovable (side : Side) (move : Move) : Bool :=
  !offpalace side move &&
    if move.fromX = move.toX then absDiff move.fromY move.toY = 1
    else if move.fromY = move.toY then absDiff move.fromX move.toX = 1
    else false

/-- `movable`. -/
def movable (rule : Rule) (side : Side) (move : Move) : Bool :=
  match chess (rule.board move.fromX move.fromY) with
  | .chariot =>
    if move.fromX ≠ move.toX ∧ move.fromY ≠ move.toY then false
    else if move.fromX ≠ move.toX then rule.chariotMovable move move.fromX move.toX true
    else rule.chariotMovable move move.fromY move.toY false
  | .horse => rule.horseMovable move
  | .cannon =>
    if move.fromX ≠ move.toX ∧ move.fromY ≠ move.toY then false
    else if move.fromX ≠ move.toX then rule.cannonMovable move move.fromX move.toX true
    else rule.cannonMovable move move.fromY move.toY false
  | .elephant => rule.elephantMovable side move
  | .mandarin => mandarinMovable side move
  | .soldier => soldierMovable side move
  | .general => generalMovable side move
  | .noChess => false

/-- `adjust_chessmap`: in a range of equal keys the first entry with the square is set or
erased. -/
def adjustChessmap (rule : Rule) (side : Side) (move : Move) : Rule :=
  let cell := rule.board move.fromX move.fromY
  let target := rule.board move.toX move.toY
  let active :=
    if chess cell = .general then
      { rule with generalPos := Function.update rule.generalPos side ⟨move.toX, move.toY⟩ }
    else
      { rule with
        chessMultimap := Function.update rule.chessMultimap side
          ((rule.chessMultimap side).replace (cell, ⟨move.fromX, move.fromY⟩)
            (cell, ⟨move.toX, move.toY⟩)) }
  if target ≠ 0 then
    { active with
      chessMultimap := Function.update active.chessMultimap side.other
        ((active.chessMultimap side.other).erase (target, ⟨move.toX, move.toY⟩)) }
  else active

/-! ## Check -/

/-- The next square of a walk, `i += adjs[...]` in a `uint8_t`. -/
def walk (backward : Bool) (i : Nat) : Nat := (i + if backward then 255 else 1) % 256

/-- The walk of `checked_by_chariot` along a line, from `i` on: the first cell that holds a
piece, or `none` if the walk leaves the board. -/
def firstPiece (cell : Nat → UInt8) (length : Nat) (backward : Bool) : Nat → Nat → Option UInt8
  | 0, _ => none
  | fuel + 1, i =>
    if i ≥ length then none
    else if chess (cell i) = .noChess then firstPiece cell length backward fuel (walk backward i)
    else some (cell i)

/-- A general that is not one's own. -/
def enemyGeneral (side : Side) (cell : UInt8) : Bool :=
  chess cell = .general && !isyourchess side cell

/-- The walk of `checked_by_cannon` and its `cnt`, or `none` if the walk leaves the board. -/
def cannonWalk (side : Side) (cell : Nat → UInt8) (length : Nat) (backward : Bool) :
    Nat → Nat → Nat → Option Nat
  | 0, _, _ => none
  | fuel + 1, cnt, tmp =>
    if tmp ≥ length then none
    else if chess (cell tmp) = .noChess then
      cannonWalk side cell length backward fuel cnt (walk backward tmp)
    else if cnt ≠ 0 then some (cnt + if enemyGeneral side (cell tmp) then 1 else 0)
    else if enemyGeneral side (cell tmp) then some cnt
    else cannonWalk side cell length backward fuel (cnt + 1) (walk backward tmp)

/-- `straight_check`. -/
def straightCheck (rule : Rule) (x y : Nat) (side : Side) : Bool :=
  x = (rule.generalPos side).x || y = (rule.generalPos side).y

def checkedByChariot (rule : Rule) (side : Side) (x y : Nat) : Option Bool :=
  let general := rule.generalPos side.other
  if !rule.straightCheck x y side.other then some false
  else if y = general.y then
    (firstPiece (fun i => rule.board i y) 10 (x > general.x) 10 (walk (x > general.x) x)).map
      (enemyGeneral side)
  else
    (firstPiece (rule.board x) 9 (y > general.y) 9 (walk (y > general.y) y)).map
      (enemyGeneral side)

/-- `adjs[...][i]` of `checked_by_horse` as a `uint8_t`. -/
def horseAdj (size : Nat) (backward : Bool) : Nat := if backward then 256 - size else size

def checkedByHorse (rule : Rule) (side : Side) (x y : Nat) : Bool :=
  let general := rule.generalPos side.other
  if x = general.x ∨ y = general.y then false
  else
    let i : Bool := y > general.y
    let tmp := (x + 256 - general.x) % 256
    let jump := fun toX toY =>
      rule.horseMovable ⟨x, y, toX, toY⟩ && enemyGeneral side (rule.board toX toY)
    if tmp = 1 then jump ((x + 255) % 256) ((y + horseAdj 2 i) % 256)
    else if tmp = 255 then jump ((x + 1) % 256) ((y + horseAdj 2 i) % 256)
    else if tmp = 2 then jump ((x + 254) % 256) ((y + horseAdj 1 i) % 256)
    else if tmp = 254 then jump ((x + 2) % 256) ((y + horseAdj 1 i) % 256)
    else false

def checkedByCannon (rule : Rule) (side : Side) (x y : Nat) : Option Bool :=
  let general := rule.generalPos side.other
  if !rule.straightCheck x y side.other then some false
  else if y = general.y then
    (cannonWalk side (fun i => rule.board i y) 10 (x > general.x) 10 0
      (walk (x > general.x) x)).map fun cnt => cnt = 2
  else
    (cannonWalk side (rule.board x) 9 (y > general.y) 9 0 (walk (y > general.y) y)).map
      fun cnt => cnt = 2

/-- `checked_by_soldier`. Whose general it is is not asked here. -/
def checkedBySoldier (rule : Rule) (side : Side) (x y : Nat) : Bool :=
  let general := rule.generalPos side.other
  if !rule.straightCheck x y side.other then false
  else if y = general.y then
    let i : Bool := x > general.x
    i = (side = .black : Bool) && chess (rule.board (walk i x) y) = .general
  else chess (rule.board x (walk (y > general.y) y)) = .general

/-- One entry of the loop of `ischeck`. -/
def checkedBy (rule : Rule) (side : Side) (entry : UInt8 × Coordinate) : Option Bool :=
  if !isyourchess side entry.1 then some false
  else
    match chess entry.1 with
    | .chariot => rule.checkedByChariot side entry.2.x entry.2.y
    | .horse => some (rule.checkedByHorse side entry.2.x entry.2.y)
    | .cannon => rule.checkedByCannon side entry.2.x entry.2.y
    | .soldier => some (rule.checkedBySoldier side entry.2.x entry.2.y)
    | _ => some false

/-- The loop of `ischeck`, which stops at the first piece that gives check. -/
def anyChecks (rule : Rule) (side : Side) : ChessMultiMap → Option Bool
  | [] => some false
  | entry :: rest =>
    match rule.checkedBy side entry with
    | none => none
    | some true => some true
    | some false => rule.anyChecks side rest

/-- `ischeck`; `none` where a walk leaves the board. -/
def ischeck (rule : Rule) (side : Side) : Option Bool :=
  rule.anyChecks side (rule.chessMultimap side)

/-- `general_face_to_face`. -/
def generalFaceToFace (rule : Rule) : Bool :=
  let red := rule.generalPos .red
  let black := rule.generalPos .black
  if red.y = black.y then
    let low := if black.x < red.x then black.x else red.x
    let high := if black.x < red.x then red.x else black.x
    (List.range' (low + 1) (high - (low + 1))).all fun i => rule.board i black.y = 0
  else false

/-! ## A call -/

/-- What `place_chess` returns: an error, or 0 with the byte in `outbuf`, which is `none` if
`ischeck` runs off the board. -/
inductive Answer where
  | error (err : Int)
  | placed (outbuf : Option Bool)
  deriving DecidableEq

/-- The move itself, with flag 1 when it takes a general. -/
def relocate (rule : Rule) (side : Side) (move : Move) : Rule :=
  let taken := chess (rule.board move.toX move.toY) = .general
  let cell := rule.board move.fromX move.fromY
  { rule.adjustChessmap side move with
    board := setCell (setCell rule.board move.toX move.toY cell) move.fromX move.fromY 0
    flag := if taken then 1 else rule.flag }

/-- An accepted move up to the answer. -/
def carryOut (rule : Rule) (side : Side) (move : Move) : Rule :=
  let placed := rule.relocate side move
  if placed.generalFaceToFace then { placed with flag := 9 } else placed

/-- `CHECK_BODY_LEN` and the `unpack`s of `place_chess`. -/
def unpack : List UInt8 → Option Move
  | [fromX, fromY, toX, toY] => some ⟨fromX.toNat, fromY.toNat, toX.toNat, toY.toNat⟩
  | _ => none

/-- `place_chess` with `inbuf` as the `inlen` bytes of the body. -/
def placeChess (rule : Rule) (side : Side) (inbuf : List UInt8) : Answer × Rule :=
  match unpack inbuf with
  | none => (.error (-1), rule)
  | some move =>
    if !rule.isvalid side move then (.error (-2), rule)
    else if rule.movable side move then
      let placed := rule.carryOut side move
      (.placed (if placed.flag ≠ 0 then some false else placed.ischeck side),
        { placed with nsteps := (placed.nsteps + 1) % 256 })
    else (.error (-2), rule)

end Rule

end Taomee.ChineseChess
