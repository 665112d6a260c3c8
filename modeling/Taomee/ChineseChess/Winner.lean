import Taomee.ChessGame.Game
import Taomee.ChineseChess.Check

/-!
# Chinese chess: who wins

`cnchess` is `ChineseChessRule` as the rule of a `ChessGame`. A general that is taken leaves its
square behind in `general_pos_`, and `general_face_to_face` still reads it.
-/

namespace Taomee.ChineseChess

open ChessGame Rule Runs

/-- `ChineseChessRule` with `move_order_` and the iterator `nxmover_`. -/
structure CnChess where
  rule : Rule
  moveOrder : List UInt32
  nxmover : Nat

/-- The side of a player. -/
def sideOf (p : Sprite) : Side := if p.posId = 1 then .red else .black

namespace CnChess

/-- The constructor for players in the order of their `pos_id`. -/
def init (players : List UInt32) : CnChess := ⟨.init, players, 0⟩

/-- `notify_winner`. -/
def notifyWinner (state : CnChess) (p : Sprite) (isdraw : Bool) : List Packet :=
  let uid :=
    if state.rule.flag = 7 ∨ state.rule.flag = 9 then state.moveOrder.getD (p.posId % 2) 0
    else p.id
  [.notifyGameWinner (if state.rule.flag = 3 ∨ isdraw then 0 else uid)]

/-- `place_chess`. -/
def placeChess (state : CnChess) (p : Sprite) (inbuf : List UInt8) :
    Int × List UInt8 × CnChess :=
  match state.rule.placeChess (sideOf p) inbuf with
  | (.error err, rule) => (err, [], { state with rule := rule })
  | (.placed outbuf, rule) =>
    (0, outbuf.toList.map fun check => if check then 1 else 0, { state with rule := rule })

/-- `handle_confirmed_req`. -/
def handleConfirmedReq (state : CnChess) (p : Sprite) (ur : UidReq) :
    Int × List Packet × CnChess :=
  if ur.req = reqDraw then
    (gerEndOfGame, state.notifyWinner p true, { state with rule := { state.rule with flag := 3 } })
  else if ur.req = reqSurrender then
    (gerEndOfGame, state.notifyWinner p false, { state with rule := { state.rule with flag := 5 } })
  else (gerEndOfGame, [], state)

/-- `handle_player_leave`. -/
def handlePlayerLeave (state : CnChess) (p : Sprite) : Int × CnChess :=
  if p.isPlayer then (gerEndOfGame, { state with rule := { state.rule with flag := 7 } })
  else (0, state)

/-- `nextmover`. -/
def nextmover (state : CnChess) : UInt32 × CnChess :=
  let nxmover := if state.nxmover = state.moveOrder.length then 0 else state.nxmover
  (state.moveOrder.getD nxmover 0, { state with nxmover := nxmover + 1 })

end CnChess

/-- `ChineseChessRule` as a `RulePolicy`. -/
def cnchess : RulePolicy CnChess where
  placeChess := CnChess.placeChess
  handleConfirmedReq := CnChess.handleConfirmedReq
  handlePlayerLeave := CnChess.handlePlayerLeave
  winnerDeterminate state := state.rule.flag = 1 || state.rule.flag = 9
  draw state := state.rule.flag = 3
  notifyWinner state p := state.notifyWinner p false
  ended _ := gerEndOfGame
  nextmover := CnChess.nextmover

/-- The capture leaves nothing between the mover's general and the square of the other: the
generals' column is open once the capturing piece has left its place. -/
def Exposed (rule : Rule) (side : Side) (move : Move) : Prop :=
  (rule.generalPos side).y = move.toY ∧
    ∀ i, ((rule.generalPos side).x < i ∧ i < move.toX ∨
        move.toX < i ∧ i < (rule.generalPos side).x) →
      (i = move.fromX ∧ move.toY = move.fromY) ∨ rule.board i move.toY = 0

/-- The game ends, and the group is told that this player has won. -/
def Wins (reply : Reply CnChess) (p : Sprite) : Prop :=
  reply.err = gerEndOfGame ∧ ∀ uid, .notifyGameWinner uid ∈ reply.packets ↔ uid = p.id

section Capture

variable {rule : Rule} {side : Side} {move : Move} {kind : ChessType}

/-- `general_face_to_face`, from the side of one general. -/
theorem generalFaceToFace_iff (rule : Rule) (side : Side) :
    rule.generalFaceToFace = true ↔
      (rule.generalPos side).y = (rule.generalPos side.other).y ∧
        ∀ i, ((rule.generalPos side).x < i ∧ i < (rule.generalPos side.other).x ∨
            (rule.generalPos side.other).x < i ∧ i < (rule.generalPos side).x) →
          rule.board i (rule.generalPos side.other).y = 0 := by
  have key : rule.generalFaceToFace = true ↔
      (rule.generalPos .red).y = (rule.generalPos .black).y ∧
        ∀ i, ((rule.generalPos .red).x < i ∧ i < (rule.generalPos .black).x ∨
            (rule.generalPos .black).x < i ∧ i < (rule.generalPos .red).x) →
          rule.board i (rule.generalPos .black).y = 0 := by
    simp only [generalFaceToFace]
    split
    case isFalse apart => simp [apart]
    case isTrue same =>
      simp only [List.all_eq_true, List.mem_range'_1, decide_eq_true_eq, same, true_and]
      constructor
      · intro clear i inside
        exact clear i (by split <;> omega)
      · intro clear i inside
        exact clear i (by split at inside <;> omega)
  cases side with
  | red => exact key
  | black =>
    rw [key]
    constructor
    · rintro ⟨same, clear⟩
      exact ⟨same.symm, fun i inside => by simpa [Side.other, same] using clear i inside.symm⟩
    · rintro ⟨same, clear⟩
      refine ⟨same.symm, fun i inside => ?_⟩
      have empty := clear i inside.symm
      rwa [← same] at empty

/-- A general's square is out of reach of the other general. -/
theorem Accepted.taken_by_other (accepted : Accepted rule side move kind) (zones : Zones rule)
    (takes : rule.board move.toX move.toY = code side.other .general) : kind ≠ .general := by
  rintro rfl
  have mine := accepted.inZone zones
  have theirs := zones side.other .general _ _ accepted.toX accepted.toY takes
  cases side <;> simp only [InZone, Side.other] at mine theirs <;> omega

theorem Accepted.flag_of_capture (accepted : Accepted rule side move kind) (mirror : Mirror rule)
    (zones : Zones rule) (takes : rule.board move.toX move.toY = code side.other .general) :
    (Exposed rule side move → (rule.carryOut side move).flag = 9) ∧
      (¬ Exposed rule side move → (rule.carryOut side move).flag = 1) := by
  have ordinary := accepted.taken_by_other zones takes
  have positions : (rule.relocate side move).generalPos = rule.generalPos := by
    simp only [relocate, adjustChessmap_generalPos, accepted.own, chess_code, if_neg ordinary]
  have theirs : rule.generalPos side.other = ⟨move.toX, move.toY⟩ :=
    mirror.generals side.other _ _ accepted.toX accepted.toY takes
  have board : ∀ i, i ≠ move.toX → (rule.relocate side move).board i move.toY =
      if i = move.fromX ∧ move.toY = move.fromY then 0 else rule.board i move.toY := by
    intro i apart
    simp only [relocate, setCell, apart, false_and, if_false]
  have faces : (rule.relocate side move).generalFaceToFace = true ↔ Exposed rule side move := by
    rw [generalFaceToFace_iff _ side, positions, theirs, Exposed]
    refine and_congr_right fun _ => forall_congr' fun i => ?_
    refine imp_congr_right fun inside => ?_
    rw [board i (by dsimp only at inside; omega)]
    split
    case isTrue left => simp [left]
    case isFalse stays => simp [stays]
  have flag : (rule.relocate side move).flag = 1 := by
    simp [relocate, takes]
  simp only [carryOut]
  constructor
  · intro exposed
    rw [if_pos (faces.mpr exposed)]
  · intro covered
    rw [if_neg fun faced => covered (faces.mp faced), flag]

end Capture

/-! ## Games -/

/-- A player of the group, or a watcher. -/
structure Member (group : Group) (p : Sprite) : Prop where
  seat : p.isPlayer = true → (p.posId = 1 ∨ p.posId = 2) ∧
    group.players[p.posId - 1]? = some p.id
  watcher : p.isPlayer = false → p.id ∉ group.players

/-- The message of a sprite to the game. -/
abbrev Message := Sprite × Command

def handle (group : Group) (game : Game CnChess) (message : Message) : Game CnChess :=
  (game.handleData cnchess group message.1 message.2).game

/-- The message comes from a member of the group and does not end the game. -/
def GoesOn (group : Group) (game : Game CnChess) (message : Message) : Prop :=
  Member group message.1 ∧ (game.handleData cnchess group message.1 message.2).err ≤ 0

/-- The positions of the games of a group. -/
abbrev Plays (group : Group) : Game CnChess → Prop :=
  fun game => ∃ cntneeded,
    Reaches (handle group) (GoesOn group) (.init cnchess (.init group.players) cntneeded) game

theorem CnChess.placeChess_rule (state : CnChess) (p : Sprite) (inbuf : List UInt8) :
    (state.placeChess p inbuf).2.2.rule = state.rule.call (sideOf p, inbuf) ∧
      (state.placeChess p inbuf).2.2.moveOrder = state.moveOrder := by
  unfold CnChess.placeChess Rule.call
  split <;> simp_all

/-- What a message may do to the position. -/
def SamePlay (before after : CnChess) : Prop :=
  after.moveOrder = before.moveOrder ∧
    (after.rule = before.rule ∨ ∃ request, after.rule = before.rule.call request)

theorem SamePlay.refl (state : CnChess) : SamePlay state state := ⟨rfl, .inl rfl⟩

section Handle

variable {group : Group} {game : Game CnChess} {p : Sprite}

theorem settle_rule (game : Game CnChess) (p : Sprite) (action : List Packet) :
    (game.settle cnchess p action).game.rule.rule = game.rule.rule ∧
      (game.settle cnchess p action).game.rule.moveOrder = game.rule.moveOrder := by
  simp only [Game.settle]
  split
  case isTrue => split <;> exact ⟨rfl, rfl⟩
  case isFalse => split <;> exact ⟨rfl, rfl⟩

theorem handlePlayerAction_samePlay (body : List UInt8) :
    SamePlay game.rule (game.handlePlayerAction cnchess p body).game.rule := by
  have placed : SamePlay game.rule (cnchess.placeChess game.rule p body).2.2 :=
    ⟨(game.rule.placeChess_rule p body).2, .inr ⟨_, (game.rule.placeChess_rule p body).1⟩⟩
  simp only [Game.handlePlayerAction]
  split
  case isTrue => exact SamePlay.refl game.rule
  case isFalse =>
    split
    case isTrue => exact placed
    case isFalse =>
      split
      case isTrue => exact placed
      case isFalse =>
        have settled := settle_rule { game with rule := (cnchess.placeChess game.rule p body).2.2 }
          p [.playerAction p.id body (cnchess.placeChess game.rule p body).2.1]
        exact ⟨settled.2.trans placed.1, by rw [settled.1]; exact placed.2⟩

theorem confirm_samePlay (game : Game CnChess) (goesOn : (game.confirm cnchess p).err ≤ 0) :
    SamePlay game.rule (game.confirm cnchess p).game.rule := by
  revert goesOn
  simp only [Game.confirm, cnchess]
  split
  case isTrue =>
    simp only [CnChess.handleConfirmedReq]
    intro goesOn
    split at goesOn
    case isTrue => simp [gerEndOfGame] at goesOn
    case isFalse =>
      split at goesOn <;> simp [gerEndOfGame] at goesOn
  case isFalse => exact fun _ => SamePlay.refl game.rule

theorem handleData_samePlay (command : Command)
    (goesOn : (game.handleData cnchess group p command).err ≤ 0) :
    SamePlay game.rule (handle group game (p, command)).rule := by
  cases command with
  | playerAction body => exact handlePlayerAction_samePlay body
  | playerReq body =>
    simp only [handle, Game.handleData, Game.handlePlayerReq]
    split <;> exact SamePlay.refl game.rule
  | notifyPlayerReq body =>
    revert goesOn
    simp only [handle, Game.handleData, Game.handleRspPlayerReq]
    split
    case isTrue => exact fun _ => SamePlay.refl game.rule
    case isFalse =>
      exact fun goesOn => confirm_samePlay ⟨game.rule, game.nxmover, _⟩ goesOn
  | playerLeave =>
    revert goesOn
    simp only [handle, Game.handleData, Game.handlePlayerLeave, cnchess, CnChess.handlePlayerLeave]
    cases p.isPlayer with
    | true =>
      intro goesOn
      simp [gerEndOfGame] at goesOn
    | false =>
      simp only [Bool.false_eq_true, if_false, ne_eq, not_true_eq_false]
      split
      case isTrue =>
        exact fun goesOn => confirm_samePlay ⟨game.rule, game.nxmover, _⟩ goesOn
      case isFalse => exact fun _ => SamePlay.refl game.rule
  | other => exact SamePlay.refl game.rule

end Handle

/-- A game goes through positions of its rule, with the players in their seats. -/
theorem Plays.rule {group : Group} {game : Game CnChess} (plays : Plays group game) :
    Reachable game.rule.rule ∧ game.rule.moveOrder = group.players := by
  obtain ⟨cntneeded, run⟩ := plays
  apply run.invariant
  · exact ⟨.refl, rfl⟩
  · rintro before ⟨p, command⟩ ⟨position, order⟩ ⟨-, goesOn⟩
    obtain ⟨seats, same | ⟨request, moved⟩⟩ := handleData_samePlay command goesOn
    · exact ⟨same ▸ position, seats.trans order⟩
    · exact ⟨moved ▸ position.call trivial, seats.trans order⟩

section Capture

variable {group : Group} {game : Game CnChess} {p : Sprite} {body : List UInt8} {move : Move}

/-- The other player's place in `move_order_`. -/
theorem Member.opponent (member : Member group p) (player : p.isPlayer = true) :
    group.players.getD (p.posId % 2) 0 ≠ p.id := by
  obtain ⟨seat, mine⟩ := member.seat player
  obtain ⟨_, mine⟩ := List.getElem?_eq_some_iff.mp mine
  have two := group.least
  have inside : p.posId % 2 < group.players.length := by omega
  rw [List.getD_eq_getElem?_getD, List.getElem?_eq_getElem inside, Option.getD_some, ← mine,
    ne_eq, group.nodup.getElem_inj_iff]
  omega

theorem placeChess_of_passes {rule : Rule} {side : Side} (passes : rule.Passes side body move) :
    ∃ out, rule.placeChess side body =
      (.placed out, { rule.carryOut side move with
        nsteps := ((rule.carryOut side move).nsteps + 1) % 256 }) := by
  simp only [Rule.placeChess, passes.reads, passes.valid, passes.movable]
  exact ⟨_, rfl⟩

/-- The reply to an accepted move that settles the game. -/
theorem handlePlayerAction_settled (mayMove : game.MayMove p body)
    (passes : game.rule.rule.Passes (sideOf p) body move)
    (settled : (game.rule.rule.carryOut (sideOf p) move).flag = 1 ∨
      (game.rule.rule.carryOut (sideOf p) move).flag = 9) :
    (game.handlePlayerAction cnchess p body).err = gerEndOfGame ∧
      ∃ out, (game.handlePlayerAction cnchess p body).packets =
        [.playerAction p.id body out,
          .notifyGameWinner
            (if (game.rule.rule.carryOut (sideOf p) move).flag = 9 then
              game.rule.moveOrder.getD (p.posId % 2) 0 else p.id)] := by
  obtain ⟨out, carried⟩ := placeChess_of_passes passes
  simp only [Game.handlePlayerAction, mayMove, cnchess, CnChess.placeChess, carried]
  rcases settled with taken | faced
  · simp [Game.settle, taken, gerEndOfGame, CnChess.notifyWinner]
  · simp [Game.settle, faced, gerEndOfGame, CnChess.notifyWinner]

/-- A capture of the general ends the game. The mover is declared the winner exactly if the
mover's own general does not stand in the column of the captured one with no piece between them
but the capturing one. -/
theorem capture_wins_iff (plays : Plays group game) (member : Member group p)
    (mayMove : game.MayMove p body) (passes : game.rule.rule.Passes (sideOf p) body move)
    (takes : chess (game.rule.rule.board move.toX move.toY) = .general) :
    (game.handlePlayerAction cnchess p body).err = gerEndOfGame ∧
      (Wins (game.handlePlayerAction cnchess p body) p ↔
        ¬ Exposed game.rule.rule (sideOf p) move) := by
  obtain ⟨position, order⟩ := plays.rule
  obtain ⟨kind, -, accepted⟩ := position.mirror.accepted passes.valid passes.movable
  have general : game.rule.rule.board move.toX move.toY = code (sideOf p).other .general := by
    rcases accepted.target with empty | ⟨taken, -, holds⟩
    · simp [empty] at takes
    · rw [holds, chess_code] at takes
      rw [holds, takes]
  obtain ⟨exposed, covered⟩ := accepted.flag_of_capture position.mirror position.zones general
  by_cases open_ : Exposed game.rule.rule (sideOf p) move
  · obtain ⟨ends, out, packets⟩ :=
      handlePlayerAction_settled mayMove passes (.inr (exposed open_))
    refine ⟨ends, ?_⟩
    simp only [open_, not_true_eq_false, iff_false]
    rintro ⟨-, winners⟩
    rw [if_pos (exposed open_), order] at packets
    have told := (winners (group.players.getD (p.posId % 2) 0)).mp (by simp [packets])
    exact member.opponent mayMove.2.1 told
  · obtain ⟨ends, out, packets⟩ :=
      handlePlayerAction_settled mayMove passes (.inl (covered open_))
    refine ⟨ends, ?_⟩
    simp only [open_, not_false_eq_true, iff_true]
    rw [covered open_, if_neg (by decide)] at packets
    exact ⟨ends, fun uid => by simp [packets]⟩

end Capture

/-! ## A lost win -/

/-- Two players with the ids 11 and 22. -/
def pair : Group := ⟨[11, 22], by decide, by decide, by decide, by decide⟩

def redPlayer : Sprite := ⟨11, 1, true⟩
def blackPlayer : Sprite := ⟨22, 2, true⟩

instance (group : Group) (p : Sprite) : Decidable (Member group p) :=
  decidable_of_iff
    ((p.isPlayer = true → (p.posId = 1 ∨ p.posId = 2) ∧
        group.players[p.posId - 1]? = some p.id) ∧
      (p.isPlayer = false → p.id ∉ group.players))
    ⟨fun both => ⟨both.1, both.2⟩, fun member => ⟨member.seat, member.watcher⟩⟩

instance (group : Group) (game : Game CnChess) (message : Message) :
    Decidable (GoesOn group game message) :=
  inferInstanceAs (Decidable (_ ∧ _))

/-- Red's middle soldier marches up to the black general, while a black chariot goes to and
fro. -/
def march : List Message :=
  [(redPlayer, .playerAction [3, 4, 4, 4]), (blackPlayer, .playerAction [9, 0, 8, 0]),
    (redPlayer, .playerAction [4, 4, 5, 4]), (blackPlayer, .playerAction [8, 0, 9, 0]),
    (redPlayer, .playerAction [5, 4, 6, 4]), (blackPlayer, .playerAction [9, 0, 8, 0]),
    (redPlayer, .playerAction [6, 4, 7, 4]), (blackPlayer, .playerAction [8, 0, 9, 0]),
    (redPlayer, .playerAction [7, 4, 8, 4]), (blackPlayer, .playerAction [9, 0, 8, 0])]

def marched : Game CnChess :=
  march.foldl (handle pair) (.init cnchess (.init pair.players) 0)

theorem marched_plays : Plays pair marched :=
  ⟨0, Reaches.refl.follow (by decide +kernel)⟩

/-- The soldier takes the general and red loses: the column up to the red general is open. -/
theorem capture_loses : ¬ ∀ (group : Group) (game : Game CnChess) (p : Sprite)
    (body : List UInt8) (move : Move), Plays group game → Member group p →
      game.MayMove p body → game.rule.rule.Passes (sideOf p) body move →
      chess (game.rule.rule.board move.toX move.toY) = .general →
      Wins (game.handlePlayerAction cnchess p body) p := by
  intro claim
  have passes : marched.rule.rule.Passes (sideOf redPlayer) [8, 4, 9, 4] ⟨8, 4, 9, 4⟩ :=
    ⟨by decide, by decide +kernel, by decide +kernel⟩
  have wins := claim pair marched redPlayer [8, 4, 9, 4] ⟨8, 4, 9, 4⟩ marched_plays (by decide)
    (by decide +kernel) passes (by decide +kernel)
  have told : Packet.notifyGameWinner 22 ∈
      (marched.handlePlayerAction cnchess redPlayer [8, 4, 9, 4]).packets := by
    decide +kernel
  have same := (wins.2 22).mp told
  revert same
  decide

/-- The same capture: it ends the game, and red's general is exposed. -/
theorem capture_wins_iff_marched :
    (marched.handlePlayerAction cnchess redPlayer [8, 4, 9, 4]).err = gerEndOfGame ∧
      (Wins (marched.handlePlayerAction cnchess redPlayer [8, 4, 9, 4]) redPlayer ↔
        ¬ Exposed marched.rule.rule (sideOf redPlayer) ⟨8, 4, 9, 4⟩) :=
  capture_wins_iff marched_plays (by decide) (by decide +kernel)
    ⟨by decide, by decide +kernel, by decide +kernel⟩ (by decide +kernel)

end Taomee.ChineseChess
