import Mathlib.Data.List.Nodup

/-!
# Board games

`ChessGame` runs a board game over a rule and a request handler. The rule is a parameter; the
request handler is `ReqHandler`, which lets the other players vote on a draw or a surrender.

The group is full and started, connections are up, and scores and timers are left out.
-/

namespace Taomee.ChessGame

/-- `sprite_t` as far as a game reads it. A sprite that is no player is a watcher. -/
structure Sprite where
  id : UInt32
  posId : Nat
  isPlayer : Bool
  deriving DecidableEq

/-- The players of a full `game_group_t`. Logging in refuses the id 0, and logs out the sprite
that had the same id before. -/
structure Group where
  players : List UInt32
  nodup : players.Nodup
  nonzero : 0 ∉ players
  least : 2 ≤ players.length
  most : players.length ≤ 10

/-- A packet to the group. In `playerReq` the approver is 0 for the decision on a request. -/
inductive Packet where
  | playerAction (uid : UInt32) (buf outbuf : List UInt8)
  | notifyGameWinner (uid : UInt32)
  | notifyPlayerReq (uid : UInt32) (reason : UInt8)
  | playerReq (approver asker : UInt32) (result : UInt8)
  deriving DecidableEq

/-! ## Requests -/

def reqRejected : UInt8 := 0
def reqDraw : UInt8 := 1
def reqSurrender : UInt8 := 2
def reqMax : UInt8 := reqSurrender
def reqInvalid : UInt8 := 0xFF
def reqUnconfirmed : UInt8 := 0xFF

structure UidReq where
  uid : UInt32
  req : UInt8
  deriving DecidableEq

/-- The request that is pending, if `uid` is not 0, and the answers to it. The constructor
leaves `cntneeded` as it finds it. -/
structure ReqAndRspCount where
  uid : UInt32
  req : UInt8
  nagree : Nat
  ndisagree : Nat
  cntneeded : Nat
  rsp : List UInt32
  deriving DecidableEq

def ReqAndRspCount.reset (count : ReqAndRspCount) : ReqAndRspCount :=
  { count with uid := 0, nagree := 0, ndisagree := 0, req := reqInvalid, rsp := [] }

/-- `ReqHandler`: the pending request and the requests made in this turn. -/
structure ReqHandler where
  pending : ReqAndRspCount
  reqsMade : List UInt8
  deriving DecidableEq

namespace ReqHandler

/-- The constructor, with what the memory of `cntneeded` held. -/
def init (cntneeded : Nat) : ReqHandler := ⟨⟨0, reqInvalid, 0, 0, cntneeded, []⟩, []⟩

def reset (handler : ReqHandler) : ReqHandler := { handler with reqsMade := [] }

def hasPendingReq (handler : ReqHandler) : Bool := handler.pending.uid ≠ 0

def isvalid (req : UInt8) : Bool := req = reqDraw || req = reqSurrender

/-- `add_req`, or `none` where it returns false. The request is entered in `reqs_made_` only if
nothing is pending. -/
def addReq (group : Group) (handler : ReqHandler) (uid : UInt32) (req : UInt8) :
    Option ReqHandler :=
  if handler.pending.uid ≠ 0 then none
  else if req ∈ handler.reqsMade then none
  else
    some
      { pending :=
          { handler.pending with
            uid := uid
            req := req
            cntneeded := (group.players.length - 1) % 256 }
        reqsMade := req :: handler.reqsMade }

/-- `handle_player_req`: the return value, the packets and the handler. -/
def handlePlayerReq (group : Group) (handler : ReqHandler) (p : Sprite) (body : List UInt8) :
    Int × List Packet × ReqHandler :=
  match p.isPlayer, body with
  | true, [req] =>
    if !isvalid req then (-1, [], handler)
    else
      match handler.addReq group p.id req with
      | none => (-1, [], handler)
      | some added => (0, [.notifyPlayerReq p.id req], added)
  | _, _ => (-1, [], handler)

/-- `add_rsp`, or `none` where it returns false. -/
def addRsp (handler : ReqHandler) (ruid uid : UInt32) (result : UInt8) : Option ReqHandler :=
  let count := handler.pending
  if count.uid ≠ uid then none
  else if result ≠ count.req ∧ result ≠ reqRejected then none
  else if ruid ∈ count.rsp then none
  else if result ≠ 0 then
    some { handler with
      pending := { count with rsp := ruid :: count.rsp, nagree := (count.nagree + 1) % 256 } }
  else
    some { handler with
      pending := { count with rsp := ruid :: count.rsp, ndisagree := (count.ndisagree + 1) % 256 } }

/-- A `uint32_t` of a packet. -/
def unpackUid (b₀ b₁ b₂ b₃ : UInt8) : UInt32 :=
  b₀.toUInt32 <<< 24 ||| b₁.toUInt32 <<< 16 ||| b₂.toUInt32 <<< 8 ||| b₃.toUInt32

/-- The two `unpack`s of a response. -/
def unpackRsp : List UInt8 → Option (UInt32 × UInt8)
  | [b₀, b₁, b₂, b₃, result] => some (unpackUid b₀ b₁ b₂ b₃, result)
  | _ => none

/-- `handle_rsp_player_req`. -/
def handleRspPlayerReq (handler : ReqHandler) (p : Sprite) (body : List UInt8) :
    Int × List Packet × ReqHandler :=
  match p.isPlayer, unpackRsp body with
  | true, some (uid, result) =>
    if p.id = uid ∨ result > reqMax then (-1, [], handler)
    else
      match handler.addRsp p.id uid result with
      | none => (-1, [], handler)
      | some added => (0, [.playerReq p.id uid result], added)
  | _, _ => (-1, [], handler)

/-- `handle_player_leave`: whether the state of the request has changed. -/
def handlePlayerLeave (handler : ReqHandler) (uid : UInt32) : Bool × ReqHandler :=
  let count := handler.pending
  if handler.hasPendingReq ∧ count.uid ≠ uid ∧ uid ∉ count.rsp then
    (true, { handler with pending := { count with cntneeded := (count.cntneeded + 255) % 256 } })
  else (false, handler)

/-- `req_confirmed`. -/
def reqConfirmed (handler : ReqHandler) : UidReq × List Packet × ReqHandler :=
  let count := handler.pending
  if count.nagree + count.ndisagree = count.cntneeded then
    let req := if count.nagree > count.ndisagree then count.req else reqRejected
    (⟨count.uid, req⟩, [.playerReq 0 count.uid req], { handler with pending := count.reset })
  else (⟨count.uid, reqUnconfirmed⟩, [], handler)

end ReqHandler

/-! ## Games -/

/-- What `ChessGame` asks of its rule. `placeChess` returns an error code, the bytes in `outbuf`
and the rule; the others have the packets they send beside their return value. -/
structure RulePolicy (ρ : Type) where
  placeChess : ρ → Sprite → List UInt8 → Int × List UInt8 × ρ
  handleConfirmedReq : ρ → Sprite → UidReq → Int × List Packet × ρ
  handlePlayerLeave : ρ → Sprite → Int × ρ
  winnerDeterminate : ρ → Bool
  draw : ρ → Bool
  notifyWinner : ρ → Sprite → List Packet
  ended : ρ → Int
  nextmover : ρ → UInt32 × ρ

structure Game (ρ : Type) where
  rule : ρ
  nxmover : UInt32
  reqhandler : ReqHandler

/-- What handling a message returns: the error code or reason to end the game, the packets sent,
and the game. -/
structure Reply (ρ : Type) where
  err : Int
  packets : List Packet
  game : Game ρ

def gerEndOfGame : Int := 1
def gerDrawGame : Int := 4

inductive Command where
  | playerAction (body : List UInt8)
  | playerReq (body : List UInt8)
  | notifyPlayerReq (body : List UInt8)
  | playerLeave
  | other

namespace Game

variable {ρ : Type}

/-- The constructor. -/
def init (policy : RulePolicy ρ) (rule : ρ) (cntneeded : Nat) : Game ρ :=
  let next := policy.nextmover rule
  ⟨next.2, next.1, .init cntneeded⟩

/-- The next player's turn. -/
def advance (policy : RulePolicy ρ) (game : Game ρ) : Game ρ :=
  let next := policy.nextmover game.rule
  { rule := next.2, nxmover := next.1, reqhandler := game.reqhandler.reset }

/-- `handle_player_action` once the chess is placed. -/
def settle (policy : RulePolicy ρ) (game : Game ρ) (curSp : Sprite) (action : List Packet) :
    Reply ρ :=
  if policy.winnerDeterminate game.rule then
    let packets := action ++ policy.notifyWinner game.rule curSp
    if policy.ended game.rule ≠ 0 then ⟨gerEndOfGame, packets, game⟩
    else ⟨0, packets, game.advance policy⟩
  else if policy.draw game.rule then
    ⟨gerDrawGame, action ++ policy.notifyWinner game.rule curSp, game⟩
  else ⟨0, action, game.advance policy⟩

/-- The player may move now. -/
def MayMove (game : Game ρ) (curSp : Sprite) (body : List UInt8) : Prop :=
  1 ≤ body.length ∧ curSp.isPlayer = true ∧ game.nxmover = curSp.id ∧
    game.reqhandler.hasPendingReq = false

instance (game : Game ρ) (curSp : Sprite) (body : List UInt8) :
    Decidable (game.MayMove curSp body) :=
  inferInstanceAs (Decidable (_ ∧ _))

def handlePlayerAction (policy : RulePolicy ρ) (game : Game ρ) (curSp : Sprite)
    (body : List UInt8) : Reply ρ :=
  if ¬ game.MayMove curSp body then ⟨-1, [], game⟩
  else
    let answer := policy.placeChess game.rule curSp body
    let placed := { game with rule := answer.2.2 }
    if answer.1 = -2 then ⟨0, [], placed⟩
    else if answer.1 = -1 then ⟨-1, [], placed⟩
    else placed.settle policy curSp [.playerAction curSp.id body answer.2.1]

/-- The second half of `handle_rsp_player_req`. -/
def confirm (policy : RulePolicy ρ) (game : Game ρ) (curSp : Sprite) : Reply ρ :=
  let ret := game.reqhandler.reqConfirmed
  let decided := { game with reqhandler := ret.2.2 }
  if ret.1.req ≠ reqUnconfirmed ∧ ret.1.req ≠ reqRejected then
    let confirmed := policy.handleConfirmedReq decided.rule curSp ret.1
    ⟨confirmed.1, ret.2.1 ++ confirmed.2.1, { decided with rule := confirmed.2.2 }.advance policy⟩
  else ⟨0, ret.2.1, decided⟩

/-- `handle_rsp_player_req` with a body. -/
def handleRspPlayerReq (policy : RulePolicy ρ) (game : Game ρ) (curSp : Sprite)
    (body : List UInt8) : Reply ρ :=
  let response := game.reqhandler.handleRspPlayerReq curSp body
  let added := { game with reqhandler := response.2.2 }
  if response.1 ≠ 0 then ⟨response.1, response.2.1, added⟩
  else
    let reply := added.confirm policy curSp
    { reply with packets := response.2.1 ++ reply.packets }

def handlePlayerLeave (policy : RulePolicy ρ) (game : Game ρ) (curSp : Sprite) : Reply ρ :=
  let left := policy.handlePlayerLeave game.rule curSp
  let stays := { game with rule := left.2 }
  if left.1 ≠ 0 then ⟨left.1, [], stays⟩
  else
    let changed := stays.reqhandler.handlePlayerLeave curSp.id
    let counted := { stays with reqhandler := changed.2 }
    if changed.1 then counted.confirm policy curSp else ⟨0, [], counted⟩

def handlePlayerReq (group : Group) (game : Game ρ) (curSp : Sprite) (body : List UInt8) :
    Reply ρ :=
  if game.nxmover = curSp.id then
    let asked := game.reqhandler.handlePlayerReq group curSp body
    ⟨asked.1, asked.2.1, { game with reqhandler := asked.2.2 }⟩
  else ⟨-1, [], game⟩

/-- `handle_data`. -/
def handleData (policy : RulePolicy ρ) (group : Group) (game : Game ρ) (p : Sprite) :
    Command → Reply ρ
  | .playerAction body => game.handlePlayerAction policy p body
  | .playerReq body => game.handlePlayerReq group p body
  | .notifyPlayerReq body => game.handleRspPlayerReq policy p body
  | .playerLeave => game.handlePlayerLeave policy p
  | .other => ⟨-1, [], game⟩

section Specs

variable {policy : RulePolicy ρ} {group : Group} {game : Game ρ} {curSp : Sprite}
  {body : List UInt8}

theorem handleRspPlayerReq_refused
    (refused : game.reqhandler.handleRspPlayerReq curSp body = (-1, [], game.reqhandler)) :
    game.handleRspPlayerReq policy curSp body = ⟨-1, [], game⟩ := by
  rw [handleRspPlayerReq, refused]
  rfl

theorem handleRspPlayerReq_added {packets : List Packet} {after : ReqHandler}
    (added : game.reqhandler.handleRspPlayerReq curSp body = (0, packets, after)) :
    game.handleRspPlayerReq policy curSp body =
      let reply := { game with reqhandler := after }.confirm policy curSp
      { reply with packets := packets ++ reply.packets } := by
  rw [handleRspPlayerReq, added]
  rfl

theorem handlePlayerReq_eq (turn : game.nxmover = curSp.id) :
    game.handlePlayerReq group curSp body =
      ⟨(game.reqhandler.handlePlayerReq group curSp body).1,
        (game.reqhandler.handlePlayerReq group curSp body).2.1,
        { game with reqhandler := (game.reqhandler.handlePlayerReq group curSp body).2.2 }⟩ := by
  rw [handlePlayerReq, if_pos turn]

end Specs

end Game

end Taomee.ChessGame
