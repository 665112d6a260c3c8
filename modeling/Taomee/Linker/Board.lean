import Mathlib.Data.List.Range

/-!
# Linker: the board and the end of the game

The board has `mapSize` rows of `mapSize` cells in one array; `map` is the memory from its start
on. A position is `y * mapSize + x`. The search marks cells with a bit of their own, and
recursion is bounded by fuel: `none` is a search that has run out of it.
-/

namespace Taomee

namespace Linker

/-- A `char` of the board. -/
abbrev Cell := BitVec 8

def cfBlank : Cell := 0
def cfWinter : Cell := 1
def cfSpring : Cell := 2
def cfGold200 : Cell := 3
def cfChessS50 : Cell := 11
def cfBeAdd : Cell := 128

def wHavntOver : Cell := 0
def wWinter : Cell := 1
def wSpring : Cell := 2

def linkerGameMaxChessCnt : Nat := 25

structure PlayerInfo where
  chessCntIni : Nat
  chessCntCur : Nat
  chessUsed : Nat
  goldAdd : Nat
  flag : Cell
  getRes : Bool

/-- The places of `m_player`. -/
inductive Seat where
  | first
  | second
  deriving DecidableEq

def Seat.other : Seat → Seat
  | .first => .second
  | .second => .first

inductive GameState where
  | gsIni
  | gsResouceLoad
  | gsIngame
  | gsOver
  deriving DecidableEq

inductive TimerEvent where
  | playerSit
  | playerLoad
  deriving DecidableEq

end Linker

open Linker in
/-- `testList` holds the entries of `m_pTestList` below `m_cTestListCnt`, `timing` says that a
timer is set. What is beside the fields of the class, the positions that `Sitting` wrote and the
indexes it used in `randAward`, is kept for the statements only. -/
structure Linker where
  mapSize : Nat
  map : Nat → Cell
  testList : List Int
  player : Seat → PlayerInfo
  gameState : GameState
  stepCnt : Nat
  curOperator : Cell
  resloadCnt : Int
  dbRetCntNeed : Nat
  timerEvent : TimerEvent
  timing : Bool
  cellWrites : List Nat
  awardReads : List Nat

namespace Linker

def map3x3GameId : Nat := 91
def map5x5GameId : Nat := 92

/-- The constructor and `init`, for two players; `memory` is what `new` found. The fields that
neither sets are zero. -/
def start (gameId : Nat) (memory : Nat → Cell) : Linker :=
  let mapSize := if gameId = map3x3GameId then 3 else if gameId = map5x5GameId then 5 else 7
  let player (flag : Cell) : PlayerInfo :=
    { chessCntIni := 0, chessCntCur := 0, chessUsed := 0, goldAdd := 0, flag, getRes := false }
  { mapSize
    map := fun pos => if pos < mapSize * mapSize then cfBlank else memory pos
    testList := []
    player := fun
      | .first => player cfWinter
      | .second => player cfSpring
    gameState := .gsIni
    stepCnt := 0
    curOperator := 0
    resloadCnt := 0
    dbRetCntNeed := 2
    timerEvent := .playerSit
    timing := false
    cellWrites := []
    awardReads := [] }

def setCell (l : Linker) (pos : Nat) (cell : Cell) : Linker :=
  { l with map := Function.update l.map pos cell }

/-- A position as the `char` that the test list stores. -/
def toChar (pos : Nat) : Int := Int.bmod pos 256

/-- The entry is kept wherever it goes: the block of `m_pTestList` has `mapSize * mapSize / 2`
entries, and one behind them is a write out of bounds. -/
def testAdd (l : Linker) (pos : Nat) : Linker := { l with testList := l.testList ++ [toChar pos] }

def testListClear (l : Linker) : Linker := { l with testList := [] }

/-- In the order `{y, x}`. -/
def sideOffset : List (Int × Int) := [(-1, 0), (-1, 1), (0, -1), (0, 1), (1, -1), (1, 0)]

inductive IsPassRet where
  | error
  | pass
  | end_
  deriving DecidableEq

/-- The first loop of `IsPass`: marks the neighbours of the colour and lists them. -/
def sign (flag : Cell) (x y : Nat) : List (Int × Int) → Linker → List Nat × Linker
  | [], l => ([], l)
  | (offY, offX) :: offsets, l =>
    let curX := x + offX
    let curY := y + offY
    let testPos := (curY * l.mapSize + curX).toNat
    if (0 ≤ curX ∧ curX < l.mapSize ∧ 0 ≤ curY ∧ curY < l.mapSize) ∧ l.map testPos = flag then
      let (testPosList, l') := sign flag x y offsets (l.setCell testPos (l.map testPos ||| cfBeAdd))
      (testPos :: testPosList, l')
    else sign flag x y offsets l

/-- The second loop of `IsPass`. -/
def check (isPass : Nat → Linker → Option (IsPassRet × Linker)) :
    List Nat → Linker → Option (IsPassRet × Linker)
  | [], l => some (.end_, l)
  | testPos :: testPosList, l =>
    match isPass testPos l with
    | none => none
    | some (ret, l') =>
      if ret ≠ .end_ then some (ret, l'.testAdd testPos) else check isPass testPosList l'

def isPass (flag : Cell) : Nat → Nat → Linker → Option (IsPassRet × Linker)
  | 0, _, _ => none
  | fuel + 1, pos, l =>
    let x := pos % l.mapSize
    let y := pos / l.mapSize
    if y > l.mapSize then some (.error, l)
    else if flag = cfWinter ∧ l.mapSize = y + 1 then some (.pass, l)
    else if flag = cfSpring ∧ l.mapSize = x + 1 then some (.pass, l)
    else
      let (testPosList, l') := sign flag x y sideOffset l
      check (isPass flag fuel) testPosList l'

/-- The two loops of `CheckGameOver` over the cells of a side. -/
def checkSide (flag : Cell) (fuel : Nat) : List Nat → Linker → Option (Bool × Linker)
  | [], l => some (false, l)
  | pos :: side, l =>
    if l.map pos = flag then
      match isPass flag fuel pos (l.setCell pos (l.map pos ||| cfBeAdd)) with
      | none => none
      | some (ret, l') =>
        if ret ≠ .pass then checkSide flag fuel side l'.testListClear
        else some (true, l'.testAdd pos)
    else checkSide flag fuel side l

/-- The first column, and the first row. -/
def springSide (mapSize : Nat) : List Nat := (List.range mapSize).map fun y => y * mapSize
def winterSide (mapSize : Nat) : List Nat := List.range mapSize

/-- The loop that clears every mark. -/
def clearMarks (l : Linker) : Linker :=
  { l with
    map := fun pos => if pos < l.mapSize * l.mapSize then l.map pos &&& ~~~cfBeAdd else l.map pos }

/-- The winner by chess used up, where the board has none. -/
def winnerByChess (l : Linker) : Cell :=
  if linkerGameMaxChessCnt ≤ (l.player .first).chessUsed then (l.player .second).flag
  else if linkerGameMaxChessCnt ≤ (l.player .second).chessUsed then (l.player .first).flag
  else wHavntOver

def checkGameOver (l : Linker) : Option (Cell × Linker) := do
  let fuel := l.mapSize * l.mapSize + 1
  let (spring, l) ← checkSide cfSpring fuel (springSide l.mapSize) l.testListClear
  if spring then return (wSpring, clearMarks l)
  let (winter, l) ← checkSide cfWinter fuel (winterSide l.mapSize) l
  if winter then return (wWinter, clearMarks l)
  return (winnerByChess l, clearMarks l)

end Linker

end Taomee
