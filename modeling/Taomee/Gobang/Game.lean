import Taomee.ChessGame.Game

/-!
# Gobang

Two players set stones on a board of 15 by 15. `handle_player_action` places a stone and looks for
five in a row; `handle_player_req` and `handle_rsp_player_req` keep requests to draw or to
surrender in `m_req`, by uid.

The group is started, connections are up, and scores and timers are left out.
-/

namespace Taomee.Gobang

open ChessGame (Sprite)

/-- The two players of the group. -/
structure Group where
  player0 : UInt32
  player1 : UInt32
  apart : player0 ≠ player1
  nonzero0 : player0 ≠ 0
  nonzero1 : player1 ≠ 0

def Group.players (group : Group) : List UInt32 := [group.player0, group.player1]

/-- A packet to the group. -/
inductive Packet where
  | action (uid : UInt32) (row col : Nat)
  | winner (uid : UInt32) (coords : List (Nat × Nat))
  | notifyPlayerReq (uid : UInt32) (reason : UInt8)
  | playerReq (approver asker : UInt32) (result : UInt8)
  deriving DecidableEq

def maxrows : Nat := 15
def maxcols : Nat := 15
def maxsteps : Nat := maxrows * maxcols

abbrev Chessboard := Nat → Nat → UInt8

/-- The fields of `Gobang` that a game changes. `req` is `m_req`. -/
structure Game where
  nxmover : UInt32
  nsteps : Nat
  req : UInt32 → Option UInt8
  chessboard : Chessboard

/-- `m_chesscolor`, which the constructor fills: white is 1 and black 2. -/
def chesscolor (group : Group) (uid : UInt32) : UInt8 :=
  if uid = group.player0 then 1 else if uid = group.player1 then 2 else 0

/-- What handling a message returns, sends and leaves. -/
structure Reply where
  err : Int
  packets : List Packet
  game : Game

def gerEndOfGame : Int := 1
def gerPlayerReqDraw : Int := 4
def gerPlayerSurrender : Int := 5

/-! ## Five in a row -/

/-- `-adj` in a `uint16_t`. -/
def negate (step : Nat) : Nat := (65536 - step) % 65536

/-- The inner loop of `determine_winner`: from the stone at `row`, `col` one way and then the
other. It ends with five stones, or with none where the line is shorter; `none` when the fuel is
spent. -/
def scanLine (board : Chessboard) (color : UInt8) (row col : Nat) :
    Nat → Nat → Nat → Nat → Nat → Nat → List (Nat × Nat) → Option (List (Nat × Nat))
  | 0, _, _, _, _, _, _ => none
  | fuel + 1, j, adjRow, adjCol, x, y, adjchesses =>
    let x := (x + adjRow) % 65536
    let y := (y + adjCol) % 65536
    if x ≥ maxrows ∨ y ≥ maxcols ∨ board x y ≠ color then
      if j + 1 = 2 then some []
      else
        scanLine board color row col fuel (j + 1) (negate adjRow) (negate adjCol) row col adjchesses
    else
      let adjchesses := adjchesses ++ [(x, y)]
      if adjchesses.length = 5 then some adjchesses
      else scanLine board color row col fuel j adjRow adjCol x y adjchesses

/-- The outer loop, over the directions that are left. -/
def scanLines (board : Chessboard) (color : UInt8) (row col : Nat) :
    List (Nat × Nat) → Option (List (Nat × Nat))
  | [] => some []
  | (adjRow, adjCol) :: rest =>
    match scanLine board color row col 6 0 adjRow adjCol row col [(row, col)] with
    | none => none
    | some [] => scanLines board color row col rest
    | some adjchesses => some adjchesses

/-- `determine_winner`: five stones in `adjchesses` where it returns true, none where it returns
false. -/
def determineWinner (board : Chessboard) (row col : Nat) : Option (List (Nat × Nat)) :=
  scanLines board (board row col) row col [(1, 1), (0, 1), (65535, 1), (65535, 0)]

/-! ## Messages -/

/-- A big-endian field of a packet. -/
def unpack (bytes : List UInt8) : Nat := bytes.foldl (fun value byte => value * 256 + byte.toNat) 0

structure ActPkg where
  uid : UInt32
  row : Nat
  col : Nat

/-- `started_check` and the fields of an `actpkg`. -/
def unpackAct : List UInt8 → Option ActPkg
  | [a, b, c, d, row₀, row₁, col₀, col₁] =>
    some ⟨.ofNat (unpack [a, b, c, d]), unpack [row₀, row₁], unpack [col₀, col₁]⟩
  | _ => none

/-- The fields of a `rsp_reqpkg`. -/
def unpackRsp : List UInt8 → Option (UInt32 × UInt8)
  | [a, b, c, d, result] => some (.ofNat (unpack [a, b, c, d]), result)
  | _ => none

inductive Command where
  | gobangAction (body : List UInt8)
  | playerReq (body : List UInt8)
  | notifyPlayerReq (body : List UInt8)
  | playerLeave
  | other

namespace Game

/-- The constructor. -/
def init (group : Group) : Game := ⟨group.player0, 0, fun _ => none, fun _ _ => 0⟩

/-- `place_chess`, or `none` for -1. -/
def placeChess (group : Group) (game : Game) (row col : Nat) : Option Game :=
  if row ≥ maxrows ∨ col ≥ maxcols ∨ game.chessboard row col ≠ 0 then none
  else
    some { game with
      chessboard := fun i j =>
        if i = row ∧ j = col then chesscolor group game.nxmover else game.chessboard i j }

/-- `set_nxmover`. -/
def setNxmover (group : Group) (game : Game) : Game :=
  match group.players.find? fun uid => uid ≠ game.nxmover with
  | some uid => { game with nxmover := uid }
  | none => game

def draw (game : Game) : Bool := game.nsteps = maxsteps

/-- `handle_player_action`. The search for five stones that runs out of fuel would return no
result, which it never does. -/
def handlePlayerAction (group : Group) (game : Game) (p : Sprite) (body : List UInt8) : Reply :=
  match p.isPlayer, unpackAct body with
  | true, some apkg =>
    if p.id ≠ apkg.uid ∨ game.nxmover ≠ apkg.uid then ⟨-1, [], game⟩
    else
      match game.placeChess group apkg.row apkg.col with
      | none => ⟨-1, [], game⟩
      | some placed =>
        let game := { placed with nsteps := (placed.nsteps + 1) % 256 }
        let action := Packet.action p.id apkg.row apkg.col
        match determineWinner game.chessboard apkg.row apkg.col with
        | none => ⟨-1, [], game⟩
        | some [] =>
          if game.draw then ⟨gerPlayerReqDraw, [action, .winner 0 []], { game with nxmover := 0 }⟩
          else ⟨0, [action], game.setNxmover group⟩
        | some adjchesses =>
          ⟨gerEndOfGame, [action, .winner p.id adjchesses], { game with nxmover := 0 }⟩
  | _, _ => ⟨-1, [], game⟩

/-- `add_player_req`, or `none` where it returns false. -/
def addPlayerReq (game : Game) (uid : UInt32) (reason : UInt8) : Option Game :=
  if game.req uid ≠ none then none
  else some { game with req := Function.update game.req uid (some reason) }

/-- `chk_player_req`, or `none` where it returns false. -/
def chkPlayerReq (game : Game) (uid : UInt32) (result : UInt8) : Option Game :=
  match game.req uid with
  | none => none
  | some reason =>
    if reason = result ∨ result = 0 then
      some { game with req := Function.update game.req uid none }
    else none

/-- `handle_player_req`. -/
def handlePlayerReq (game : Game) (p : Sprite) (body : List UInt8) : Reply :=
  match p.isPlayer, body with
  | true, [reason] =>
    if reason ≠ 1 ∧ reason ≠ 2 then ⟨-1, [], game⟩
    else
      match game.addPlayerReq p.id reason with
      | none => ⟨-1, [], game⟩
      | some added => ⟨0, [.notifyPlayerReq p.id reason], added⟩
  | _, _ => ⟨-1, [], game⟩

/-- `handle_rsp_player_req`. -/
def handleRspPlayerReq (game : Game) (p : Sprite) (body : List UInt8) : Reply :=
  match p.isPlayer, unpackRsp body with
  | true, some (uid, result) =>
    if result > 2 then ⟨-1, [], game⟩
    else
      match game.chkPlayerReq uid result with
      | none => ⟨-1, [], game⟩
      | some answered =>
        let response := Packet.playerReq p.id uid result
        if result = 1 then ⟨gerPlayerReqDraw, [response, .winner 0 []], answered⟩
        else if result = 2 then ⟨gerPlayerSurrender, [response, .winner p.id []], answered⟩
        else ⟨0, [response], answered⟩
  | _, _ => ⟨-1, [], game⟩

/-- `handle_player_leave`. -/
def handlePlayerLeave (game : Game) (p : Sprite) : Reply :=
  ⟨if p.isPlayer then 1 else 0, [], game⟩

/-- `handle_data`. -/
def handleData (group : Group) (game : Game) (p : Sprite) : Command → Reply
  | .gobangAction body => game.handlePlayerAction group p body
  | .playerReq body => game.handlePlayerReq p body
  | .notifyPlayerReq body => game.handleRspPlayerReq p body
  | .playerLeave => game.handlePlayerLeave p
  | .other => ⟨-1, [], game⟩

end Game

end Taomee.Gobang
