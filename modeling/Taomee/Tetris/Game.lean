import Mathlib.Data.List.Nodup
import Taomee.Library.Runs

/-!
# Tetris for a group

The server checks the session number in each message, waits until the players have asked for the
new bout and relays play data. The group is full and started; the points that a bout yields, the
clock and failing sends are left out.
-/

namespace Taomee.Tetris

/-- The sprites of a full `game_group_t`. Logging in refuses the id 0, and logs out the sprite
that had the same id before. -/
structure Group where
  players : List UInt32
  watchers : List UInt32
  nodup : (players ++ watchers).Nodup
  nonzero : 0 ∉ players ++ watchers
  least : 1 ≤ players.length
  most : players.length ≤ 10

/-- Two players. -/
def pair : Group where
  players := [100001, 100002]
  watchers := []
  nodup := by decide
  nonzero := by decide
  least := by decide
  most := by decide

def Group.sprites (group : Group) : List UInt32 := group.players ++ group.watchers

/-- `suser_session`; the slot is free if `userId` is 0. -/
structure UserSession where
  userId : UInt32
  sessionId : UInt32
  deriving DecidableEq

/-- What the game sends. A bout that ends in a group of several also has the database give the
winner an item. -/
inductive Packet where
  | newBout
  | transData (sender : UInt32) (data : List UInt8)
  | modifyItems (winner : UInt32)
  | endBout (receiver : UInt32) (winLost : Bool)
  deriving DecidableEq

/-- `gameSessions` are the slots within `session_count`; `scores` are the sprites' own. -/
structure Game where
  gameSessions : List UserSession
  readyToTransdata : Bool
  playerReadyCount : Nat
  hasEndGame : Bool
  scores : UInt32 → Int

/-- What handling a message returns: the error code or reason to end the game, the packets sent,
and the game. -/
structure Reply where
  err : Int
  packets : List Packet
  game : Game

def protoVersion : Nat := 200
def protoTestAlive : Nat := 30000
def protoPlayerLeave : Nat := 30003
def gameNewBout : Nat := 32000
def transData : Nat := 32001
def gameEndBout : Nat := 32002

def gerEndOfGame : Int := 1
def gerPlayerOffline : Int := 2

/-- A `uint32_t` in network order. -/
def ntohl (b₀ b₁ b₂ b₃ : UInt8) : UInt32 :=
  b₀.toUInt32 <<< 24 ||| b₁.toUInt32 <<< 16 ||| b₂.toUInt32 <<< 8 ||| b₃.toUInt32

/-- The session number in a message, if the body is long enough. -/
def sessionOf : List UInt8 → Option UInt32
  | b₀ :: b₁ :: b₂ :: b₃ :: _ => some (ntohl b₀ b₁ b₂ b₃)
  | _ => none

/-- The score that comes after the session number. -/
def scoreOf (body : List UInt8) : Option UInt32 := sessionOf (body.drop 4)

/-! ## Sessions -/

/-- The first loop of `check_player_session` takes the first free slot. -/
def takeSlot (uid session : UInt32) : List UserSession → Option (List UserSession)
  | [] => none
  | slot :: rest =>
    if slot.userId = 0 then some (⟨uid, session⟩ :: rest)
    else (takeSlot uid session rest).map (slot :: ·)

/-- The second loop looks for the sender's slot, and lets only its next number pass. -/
def nextSession (uid session : UInt32) : List UserSession → Option (List UserSession)
  | [] => none
  | slot :: rest =>
    if slot.userId = uid then
      if slot.sessionId = session - 1 then some (⟨uid, slot.sessionId + 1⟩ :: rest) else none
    else (nextSession uid session rest).map (slot :: ·)

/-- `check_player_session`, or `none` where it returns false. -/
def checkPlayerSession (game : Game) (uid : UInt32) (body : List UInt8) : Option Game :=
  match sessionOf body with
  | none => none
  | some session =>
    match takeSlot uid session game.gameSessions with
    | some slots => some { game with gameSessions := slots }
    | none =>
      (nextSession uid session game.gameSessions).map fun slots =>
        { game with gameSessions := slots }

/-! ## Messages -/

section

variable (group : Group) (game : Game) (uid : UInt32) (body : List UInt8)

/-- `init`. -/
def Game.init (scores : UInt32 → Int) : Game where
  gameSessions := List.replicate (min 2 group.players.length) ⟨0, 0⟩
  readyToTransdata := false
  playerReadyCount := 0
  hasEndGame := false
  scores := scores

/-- `get_client_submit_result`, or `none` where it returns false. Watchers have no score. -/
def getClientSubmitResult : Option Game :=
  match scoreOf body with
  | none => none
  | some score =>
    if uid ∈ group.players then
      if score > 800 then none
      else
        some { game with
          scores := Function.update game.scores uid (game.scores uid + score.toNat) }
    else some game

def notifyPlayerWin (winner : UInt32) : List Packet :=
  if group.players.length > 1 then
    group.players.flatMap fun player =>
      if player = winner then [.modifyItems winner, .endBout player true]
      else [.endBout player false]
  else [.endBout winner (game.scores winner > 16000)]

/-- The common part of `game_player_leave` and `tetris_end_bout`: the first other player wins. A
player alone wins always. -/
def finishBout : List Packet × Game :=
  if game.hasEndGame then ([], game)
  else
    let winner :=
      if group.players.length > 1 then group.players.find? (· ≠ uid) else group.players.head?
    (winner.elim [] (notifyPlayerWin group game), { game with hasEndGame := true })

def gamePlayerLeave : Reply :=
  let finished := finishBout group game uid
  ⟨gerPlayerOffline, finished.1, finished.2⟩

def tetrisNewBout : Reply :=
  match checkPlayerSession game uid body with
  | none => ⟨-1, [], game⟩
  | some game =>
    let count := game.playerReadyCount + 1
    if group.players.length = count then
      ⟨0, [.newBout], { game with playerReadyCount := count, readyToTransdata := true }⟩
    else if group.players.length > count then
      ⟨0, [], { game with playerReadyCount := count, readyToTransdata := false }⟩
    else ⟨-1, [], game⟩

def tetrisTransData : Reply :=
  match checkPlayerSession game uid body with
  | none => ⟨-1, [], game⟩
  | some game =>
    match getClientSubmitResult group game uid body with
    | none => ⟨-1, [], game⟩
    | some game =>
      if uid ∈ group.players then
        if game.readyToTransdata ∧ group.players.length > 1 then
          ⟨0, [.transData uid (body.drop 8)], game⟩
        else ⟨0, [], game⟩
      else ⟨-1, [], game⟩

def tetrisEndBout : Reply :=
  match checkPlayerSession game uid body with
  | none => ⟨-1, [], game⟩
  | some game =>
    let finished := finishBout group game uid
    ⟨gerEndOfGame, finished.1, finished.2⟩

/-- `handle_data`. -/
def handleData (cmd : Nat) : Reply :=
  if cmd = protoPlayerLeave then gamePlayerLeave group game uid
  else if cmd = gameNewBout then tetrisNewBout group game uid body
  else if cmd = transData then tetrisTransData group game uid body
  else if cmd = gameEndBout then tetrisEndBout group game uid body
  else ⟨-1, [], game⟩

/-- `handle_timeout`; the player with the first of the best scores is told to have won. -/
def handleTimeout : Reply :=
  if game.hasEndGame then ⟨gerEndOfGame, [], game⟩
  else
    let best := group.players.foldl (fun best player =>
      match best with
      | none => some player
      | some winner => if game.scores player > game.scores winner then some player else best) none
    ⟨gerEndOfGame, best.elim [] (notifyPlayerWin group game), { game with hasEndGame := true }⟩

end

/-! ## Groups -/

/-- A message that a sprite of the group has sent, and whether its session number was checked and
let pass. -/
structure Received where
  sender : UInt32
  cmd : Nat
  body : List UInt8
  passed : Bool
  deriving DecidableEq

/-- A group that plays. `sent` and `received` are what has been sent and received, the latest
first; they are not part of the program's state. -/
structure Table where
  game : Game
  ended : Bool
  sent : List Packet
  received : List Received

inductive Event where
  /-- A message of a sprite. -/
  | message (uid : UInt32) (cmd : Nat) (body : List UInt8)
  /-- The server takes a sprite out: its connection is lost or its timer has expired. -/
  | leave (uid : UInt32)
  /-- The timer set when the bout started. -/
  | timeout
  /-- The timer set when the group was made. -/
  | expire
  deriving DecidableEq

/-- The handlers of these commands check the session number. -/
def Checked (cmd : Nat) : Prop := cmd = gameNewBout ∨ cmd = transData ∨ cmd = gameEndBout

instance (cmd : Nat) : Decidable (Checked cmd) := inferInstanceAs (Decidable (_ ∨ _ ∨ _))

namespace Table

def init (group : Group) : Table := ⟨.init group fun _ => 0, false, [], []⟩

/-- A reply greater than 0 ends the game for the group. -/
def settle (table : Table) (reply : Reply) : Table :=
  { table with
    game := reply.game
    ended := reply.err > 0
    sent := reply.packets.reverse ++ table.sent }

/-- `leave_game_cmd`. -/
def leaveGameCmd (group : Group) (table : Table) (uid : UInt32) : Table :=
  table.settle (handleData group table.game uid [] protoPlayerLeave)

def receive (table : Table) (uid : UInt32) (cmd : Nat) (body : List UInt8) : Table :=
  { table with
    received :=
      { sender := uid
        cmd := cmd
        body := body
        passed := decide (Checked cmd) && (checkPlayerSession table.game uid body).isSome } ::
      table.received }

/-- `dispatch_protocol`; whoever sends an invalid message is made to leave the game. -/
def dispatchProtocol (group : Group) (table : Table) (uid : UInt32) (cmd : Nat)
    (body : List UInt8) : Table :=
  let reply := handleData group table.game uid body cmd
  let after := (table.receive uid cmd body).settle reply
  if reply.err < 0 then after.leaveGameCmd group uid else after

/-- Sprites that are not in the group have no part in the game, and nobody has after its end. Two
commands are answered before the game sees them. -/
def step (group : Group) (table : Table) (event : Event) : Table :=
  if table.ended then table
  else
    match event with
    | .message uid cmd body =>
      if uid ∈ group.sprites ∧ cmd ≠ protoVersion ∧ cmd ≠ protoTestAlive then
        table.dispatchProtocol group uid cmd body
      else table
    | .leave uid => if uid ∈ group.sprites then table.leaveGameCmd group uid else table
    | .timeout => table.settle (handleTimeout group table.game)
    | .expire => { table with ended := true }

end Table

/-! ## What a handler changes -/

/-- The sessions and the start of the bout are the same. -/
structure Keeps (game after : Game) : Prop where
  gameSessions : after.gameSessions = game.gameSessions
  ready : after.readyToTransdata = game.readyToTransdata
  count : after.playerReadyCount = game.playerReadyCount

/-- A packet with play data. -/
def Packet.Relays (packet : Packet) : Prop := ∃ sender data, packet = .transData sender data

section Specs

variable {group : Group} {game after : Game} {uid : UInt32} {body : List UInt8} {cmd : Nat}
  {packet : Packet}

theorem Keeps.refl (game : Game) : Keeps game game := ⟨rfl, rfl, rfl⟩

theorem checkPlayerSession_eq (passed : checkPlayerSession game uid body = some after) :
    after = { game with gameSessions := after.gameSessions } := by
  rw [checkPlayerSession] at passed
  split at passed
  · cases passed
  · split at passed
    · cases passed
      rfl
    · obtain ⟨slots, -, rfl⟩ := Option.map_eq_some_iff.mp passed
      rfl

/-- A result that is submitted keeps the sessions. -/
theorem getClientSubmitResult_keeps
    (submitted : getClientSubmitResult group game uid body = some after) : Keeps game after := by
  rw [getClientSubmitResult] at submitted
  split at submitted
  · cases submitted
  · split at submitted
    · split at submitted
      · cases submitted
      · cases submitted
        exact ⟨rfl, rfl, rfl⟩
    · cases submitted
      exact .refl game

theorem not_relays_of_mem_notifyPlayerWin {winner : UInt32}
    (sent : packet ∈ notifyPlayerWin group game winner) : ¬ packet.Relays := by
  rintro ⟨sender, data, rfl⟩
  rw [notifyPlayerWin] at sent
  split at sent
  · obtain ⟨player, -, there⟩ := List.mem_flatMap.mp sent
    split at there <;> simp at there
  · simp at sent

/-- The end of a bout keeps the sessions. -/
theorem finishBout_keeps : Keeps game (finishBout group game uid).2 := by
  rw [finishBout]
  split
  · exact .refl game
  · exact ⟨rfl, rfl, rfl⟩

theorem not_relays_of_mem_finishBout (sent : packet ∈ (finishBout group game uid).1) :
    ¬ packet.Relays := by
  rw [finishBout] at sent
  split at sent
  · exact absurd sent List.not_mem_nil
  · generalize (if group.players.length > 1 then group.players.find? (· ≠ uid)
      else group.players.head?) = winner at sent
    cases winner with
    | none => exact absurd sent List.not_mem_nil
    | some winner => exact not_relays_of_mem_notifyPlayerWin sent

/-- A timeout keeps the sessions. -/
theorem handleTimeout_keeps : Keeps game (handleTimeout group game).game := by
  rw [handleTimeout]
  split
  · exact .refl game
  · exact ⟨rfl, rfl, rfl⟩

/-- A timeout relays no data. -/
theorem not_relays_of_mem_handleTimeout (sent : packet ∈ (handleTimeout group game).packets) :
    ¬ packet.Relays := by
  rw [handleTimeout] at sent
  split at sent
  · exact absurd sent List.not_mem_nil
  · generalize List.foldl _ none group.players = best at sent
    cases best with
    | none => exact absurd sent List.not_mem_nil
    | some winner => exact not_relays_of_mem_notifyPlayerWin sent

/-- Nothing is done on a message whose session number is wrong, but its sender has to leave. -/
theorem handleData_of_not_passed (checked : Checked cmd)
    (wrong : checkPlayerSession game uid body = none) :
    handleData group game uid body cmd = ⟨-1, [], game⟩ := by
  obtain rfl | rfl | rfl := checked
  · exact (if_neg (by decide)).trans ((if_pos rfl).trans (by rw [tetrisNewBout, wrong]))
  · exact (if_neg (by decide)).trans ((if_neg (by decide)).trans ((if_pos rfl).trans
      (by rw [tetrisTransData, wrong])))
  · exact (if_neg (by decide)).trans ((if_neg (by decide)).trans ((if_neg (by decide)).trans
      ((if_pos rfl).trans (by rw [tetrisEndBout, wrong]))))

/-- Other commands end the sender's game. -/
theorem handleData_of_not_checked (group : Group) (game : Game) (uid : UInt32) (body : List UInt8)
    (unchecked : ¬ Checked cmd) :
    Keeps game (handleData group game uid body cmd).game ∧
      ∀ packet ∈ (handleData group game uid body cmd).packets, ¬ packet.Relays := by
  obtain ⟨newBout, trans, endBout⟩ : cmd ≠ gameNewBout ∧ cmd ≠ transData ∧ cmd ≠ gameEndBout :=
    ⟨fun same => unchecked (.inl same), fun same => unchecked (.inr (.inl same)),
      fun same => unchecked (.inr (.inr same))⟩
  rw [handleData, if_neg newBout, if_neg trans, if_neg endBout]
  split
  · exact ⟨finishBout_keeps, fun packet => not_relays_of_mem_finishBout⟩
  · exact ⟨.refl game, fun packet sent => absurd sent List.not_mem_nil⟩

/-- A message is received and handled, and an error makes its player leave. -/
theorem Table.dispatchProtocol_eq {table : Table} {reply : Reply}
    (handled : handleData group table.game uid body cmd = reply) :
    table.dispatchProtocol group uid cmd body =
      if reply.err < 0 then ((table.receive uid cmd body).settle reply).leaveGameCmd group uid
      else (table.receive uid cmd body).settle reply := by
  subst handled
  rfl

/-- After its session number has passed, a message that asks for no bout has play data relayed
only if the bout has started. -/
theorem handleData_of_passed (group : Group) (checked : Checked cmd) (other : cmd ≠ gameNewBout)
    (passed : checkPlayerSession game uid body = some after) :
    Keeps after (handleData group game uid body cmd).game ∧
      ∀ packet ∈ (handleData group game uid body cmd).packets, packet.Relays →
        game.readyToTransdata = true := by
  have same : after.readyToTransdata = game.readyToTransdata := by
    rw [checkPlayerSession_eq passed]
  obtain rfl | rfl | rfl := checked
  · exact absurd rfl other
  · have handled : handleData group game uid body transData =
        tetrisTransData group game uid body := rfl
    rw [handled, tetrisTransData, passed]
    dsimp only
    split
    · exact ⟨.refl after, fun packet sent => absurd sent List.not_mem_nil⟩
    · rename_i scored submitted
      have kept := getClientSubmitResult_keeps submitted
      split
      · split
        · rename_i started
          exact ⟨kept, fun _ _ _ => same ▸ kept.ready ▸ started.1⟩
        · exact ⟨kept, fun packet sent => absurd sent List.not_mem_nil⟩
      · exact ⟨kept, fun packet sent => absurd sent List.not_mem_nil⟩
  · have handled : handleData group game uid body gameEndBout =
        tetrisEndBout group game uid body := rfl
    rw [handled, tetrisEndBout, passed]
    exact ⟨finishBout_keeps, fun packet sent relays =>
      absurd relays (not_relays_of_mem_finishBout sent)⟩

end Specs

end Taomee.Tetris
