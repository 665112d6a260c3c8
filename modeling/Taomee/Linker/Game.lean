import Mathlib.Algebra.Order.Ring.Int
import Taomee.Linker.Board

/-!
# Linker: the game

Messages to the players and the database are left out, and with them what a game is won by.
Each call brings along the values of the `rand` calls it may make.
-/

namespace Taomee.Linker

def lgpSitting : Int := 1
def lgpWin : Int := 2
def lgpLoadOk : Int := 6

def linkerGameWinterChessItemId : Nat := 1351289
def linkerGameAwardStepCnt : Nat := 3

def gerEndOfGame : Int := 1
def gerGameSystemErr : Int := 255

/-- A sum of `uint32_t`. -/
def uint32 (n : Nat) : Nat := n % 2 ^ 32

/-- The entries of `randAward`, as `itemID` and `itemCnt`. -/
def randAward : List (Nat × Nat) := [(0, 5), (0, 10), (0, 20), (0, 30), (0, 50), (0, 100)]

def setPlayer (l : Linker) (seat : Seat) (player : PlayerInfo) : Linker :=
  { l with player := Function.update l.player seat player }

def beginTimer (l : Linker) (evt : TimerEvent) : Linker :=
  { l with timerEvent := evt, timing := true }

def endTimer (l : Linker) : Linker := { l with timing := false }

def gameOver (l : Linker) : Int × Linker := (gerEndOfGame, { l.endTimer with gameState := .gsOver })

/-- The loop of `CreateRandomAward`, with how many turns are left. -/
def findBlank (map : Nat → Cell) (cells : Nat) : Nat → Nat → Nat
  | 0, pos => pos
  | left + 1, pos => if map pos ≠ cfBlank then findBlank map cells left ((pos + 1) % cells) else pos

def createRandomAward (l : Linker) (rand : Nat × Nat) : Linker :=
  let cells := l.mapSize * l.mapSize
  if (l.player .first).chessUsed + (l.player .second).chessUsed = cells then l
  else
    let pos := findBlank l.map cells cells (rand.1 % cells)
    if l.map pos = cfBlank then
      l.setCell pos (cfGold200 + BitVec.ofNat 8 (rand.2 % (cfChessS50 - cfGold200).toNat))
    else l

section

-- What is in memory behind the table `randAward`.
variable (beyond : Nat → Nat × Nat)

/-- The player picks up what lies in the cell. Item ids of chess end in the colour. -/
def takeAward (l : Linker) (seat : Seat) (pos : Nat) : Linker :=
  let index := (l.map pos - cfGold200).toNat
  let (itemID, itemCnt) := (randAward[index]?).getD (beyond index)
  let player := l.player seat
  let colour : Cell := BitVec.ofNat 8 (2 ^ 32 + itemID - linkerGameWinterChessItemId + 1)
  let player :=
    if itemID = 0 then { player with goldAdd := uint32 (player.goldAdd + itemCnt) }
    else if colour = player.flag then
      { player with chessCntCur := uint32 (player.chessCntCur + itemCnt) }
    else player
  { l.setPlayer seat player with awardReads := index :: l.awardReads }

/-- The chess is put down and counted; every third step brings an award. -/
def putChess (l : Linker) (seat : Seat) (pos : Nat) (rand : Nat × Nat) : Linker :=
  let player := l.player seat
  let l := { l.setCell pos player.flag with cellWrites := pos :: l.cellWrites }
  let l := l.setPlayer seat
    { player with
      chessCntCur := uint32 (2 ^ 32 + player.chessCntCur - 1)
      chessUsed := player.chessUsed + 1 }
  let l := { l with stepCnt := l.stepCnt + 1 }
  if linkerGameAwardStepCnt ≤ l.stepCnt then
    createRandomAward { l with stepCnt := 0 } rand
  else l

/-- After a chess was put down: the end of the game, or the turn of the other player. -/
def nextTurn (l : Linker) (seat : Seat) : Int × Linker :=
  let l := l.endTimer
  if (l.player seat).chessUsed = l.mapSize * l.mapSize / 2 + 1 then
    match l.checkGameOver with
    | none => (0, l)
    | some (_, l) => l.gameOver
  else if (l.player seat.other).chessCntCur = 0 then l.gameOver
  else
    let curOperator := if cfSpring < l.curOperator + 1 then cfWinter else l.curOperator + 1
    (0, { l with curOperator }.beginTimer .playerSit)

/-- A marked cell is negative as a `char`; compared without a sign it is above the awards, and
refused all the same. -/
def sitting (l : Linker) (seat : Seat) (pos : Int) (rand : Nat × Nat) : Int × Linker :=
  if pos < 0 ∨ (l.mapSize * l.mapSize : Nat) < pos ∨ l.map pos.toNat = cfWinter ∨
      l.map pos.toNat = cfSpring then (0, l)
  else
    let pos := pos.toNat
    if cfGold200 ≤ l.map pos ∧ l.map pos ≤ cfChessS50 then
      ((l.takeAward beyond seat pos).putChess seat pos rand).nextTurn seat
    else if l.map pos ≠ cfBlank then (0, l)
    else (l.putChess seat pos rand).nextTurn seat

def gameStart (l : Linker) (rand : Nat) : Linker :=
  { (l.endTimer).beginTimer .playerSit with
    curOperator := BitVec.ofNat 8 (rand % 2 + 1)
    gameState := .gsIngame }

def sendGameInfo (l : Linker) : Linker :=
  { l.beginTimer .playerLoad with gameState := .gsResouceLoad, resloadCnt := 2 }

/-- The answer of the database for a player; `items` is `none` where its length is wrong. -/
def handleDbReturn (l : Linker) (seat : Seat) (items : Option (List (Nat × Nat))) : Int × Linker :=
  if l.gameState = .gsIni then
    match items with
    | none => (-1, l)
    | some items =>
      let player := l.player seat
      let chess := items.filter fun item =>
        item.1 = uint32 (linkerGameWinterChessItemId + player.flag.toNat - 1)
      let cnt := (chess.getLast?.map Prod.snd)
      let player :=
        { player with
          chessCntIni := cnt.getD player.chessCntIni
          chessCntCur := max 25 (cnt.getD player.chessCntCur)
          chessUsed := 0 }
      let l : Linker :=
        { l.setPlayer seat player with dbRetCntNeed := uint32 (2 ^ 32 + l.dbRetCntNeed - 1) }
      (0, if l.dbRetCntNeed = 0 then l.sendGameInfo else l)
  else (0, l)

/-- What a player sends: leaving, or a command of this game with the number it carries when its
length is that of one; `none` is a body too short for a command. -/
inductive Message where
  | playerLeave
  | linkerGameCmd (body : Option (Int × Option Int))
  | other

def handleData (l : Linker) (seat : Option Seat) (message : Message) (rand : Nat × Nat) :
    Int × Linker :=
  match seat with
  | none => (gerGameSystemErr, l)
  | some seat =>
    match message with
    | .playerLeave => l.gameOver
    | .other => (0, l)
    | .linkerGameCmd none => (-1, l)
    | .linkerGameCmd (some (localCmd, number)) =>
      match l.gameState with
      | .gsIni => (0, l)
      | .gsResouceLoad =>
        if localCmd = lgpLoadOk ∧ (l.player seat).getRes = false then
          let l := l.setPlayer seat { l.player seat with getRes := true }
          let l : Linker := { l with resloadCnt := l.resloadCnt - 1 }
          (0, if l.resloadCnt = 0 then l.gameStart rand.1 else l)
        else (0, l)
      | .gsIngame =>
        if localCmd = lgpSitting then
          if (l.player seat).flag = l.curOperator then
            match number with
            | none => (-1, l)
            | some sitPos => l.sitting beyond seat sitPos rand
          else (0, l)
        else if localCmd = lgpWin then
          match l.checkGameOver with
          | none => (0, l)
          | some (_, l) => l.gameOver
        else (0, l)
      | .gsOver => (0, l)

def handleTimeout (l : Linker) (rand : Nat) : Int × Linker :=
  match l.timerEvent with
  | .playerSit => l.endTimer.gameOver
  | .playerLoad => (0, l.endTimer.gameStart rand)

/-- A call from outside. A timeout comes only while a timer is set. -/
inductive Event where
  | dbReturn (seat : Seat) (items : Option (List (Nat × Nat)))
  | data (seat : Option Seat) (message : Message) (rand : Nat × Nat)
  | timeout (rand : Nat)

def step (l : Linker) : Event → Linker
  | .dbReturn seat items => (l.handleDbReturn seat items).2
  | .data seat message rand => (l.handleData beyond seat message rand).2
  | .timeout rand => if l.timing then (l.handleTimeout rand).2 else l

end

end Taomee.Linker
