import Taomee.ChessGame.Ballot
import Taomee.ChineseChess.Winner

/-!
# Chinese chess: votes

Requests in a game of Chinese chess, over runs of messages. A history keeps the ballot on the
open request and the decisions due beside the game, and the decisions that the game announces.
-/

namespace Taomee.ChineseChess

open ChessGame Runs

/-- What a message does to the ballot, given whether the game accepts it: the ballot afterwards,
and the decision that is due. -/
def nextBallot (group : Group) (p : Sprite) (accepted : Bool) :
    Option Ballot → Command → Option Ballot × List (UInt32 × UInt8)
  | ballot, .playerReq [req] => if accepted then (some ⟨p.id, req, []⟩, []) else (ballot, [])
  | some ballot, .notifyPlayerReq body =>
    match ballot.answerOf p body with
    | none => (some ballot, [])
    | some agrees =>
      let counted := ballot.answered p.id agrees
      if counted.Complete group then (none, [(counted.asker, counted.decision)])
      else (some counted, [])
  | ballot, _ => (ballot, [])

/-- The decision in a packet. -/
def announcement : Packet → Option (UInt32 × UInt8)
  | .playerReq approver asker result => if approver = 0 then some (asker, result) else none
  | _ => none

structure History where
  game : Game CnChess
  ballot : Option Ballot
  due : List (UInt32 × UInt8)
  announced : List (UInt32 × UInt8)

namespace History

def init (group : Group) (cntneeded : Nat) : History :=
  ⟨.init cnchess (.init group.players) cntneeded, none, [], []⟩

def step (group : Group) (history : History) (message : Message) : History :=
  let reply := history.game.handleData cnchess group message.1 message.2
  let next := nextBallot group message.1 (reply.err = 0) history.ballot message.2
  ⟨reply.game, next.1, history.due ++ next.2,
    history.announced ++ reply.packets.filterMap announcement⟩

end History

/-- Messages of members. Only watchers depart. -/
def Stays (group : Group) (_ : History) (message : Message) : Prop :=
  Member group message.1 ∧ (message.2 = .playerLeave → message.1.isPlayer = false)

/-- A response names the uid 0 and rejects, which is what stands for no request. -/
def AnswersNobody (message : Message) : Prop :=
  ∃ body, message.2 = .notifyPlayerReq body ∧ ReqHandler.unpackRsp body = some (0, reqRejected)

/-- While a request is pending no watcher departs, and while none is pending no player answers
nobody. -/
def Considerate (group : Group) (history : History) (message : Message) : Prop :=
  Stays group history message ∧
    (message.2 = .playerLeave → history.game.reqhandler.hasPendingReq = false) ∧
    (message.1.isPlayer = true → AnswersNobody message →
      history.game.reqhandler.hasPendingReq = true)

/-- The counts are those of the distinct other players that answered the request that is pending,
and the decisions announced are those due. -/
structure Counted (group : Group) (history : History) : Prop where
  idle : history.ballot = none → history.game.reqhandler.pending.uid = 0 ∧
    history.game.reqhandler.pending.nagree = 0 ∧ history.game.reqhandler.pending.ndisagree = 0
  opened : ∀ ballot, history.ballot = some ballot →
    history.game.reqhandler.pending.uid = ballot.asker ∧
      history.game.reqhandler.pending.nagree = ballot.agreed ∧
      history.game.reqhandler.pending.ndisagree = ballot.disagreed ∧
      ballot.Fair group ∧ ¬ ballot.Complete group
  decided : history.announced = history.due

/-! ## Messages -/

section Messages

variable {group : Group} {game : Game CnChess} {p : Sprite} {body : List UInt8}
variable {ballot : Option Ballot}

theorem settle_reqhandler (game : Game CnChess) (p : Sprite) {action : List Packet}
    (silent : action.filterMap announcement = []) :
    (game.settle cnchess p action).game.reqhandler.pending = game.reqhandler.pending ∧
      (game.settle cnchess p action).packets.filterMap announcement = [] := by
  have winner : (action ++ cnchess.notifyWinner game.rule p).filterMap announcement = [] := by
    rw [List.filterMap_append, silent]
    rfl
  simp only [Game.settle]
  split
  case isTrue => split <;> exact ⟨rfl, winner⟩
  case isFalse =>
    split
    case isTrue => exact ⟨rfl, winner⟩
    case isFalse => exact ⟨rfl, silent⟩

theorem handlePlayerAction_reqhandler (game : Game CnChess) (p : Sprite) (body : List UInt8) :
    (game.handlePlayerAction cnchess p body).game.reqhandler.pending = game.reqhandler.pending ∧
      (game.handlePlayerAction cnchess p body).packets.filterMap announcement = [] := by
  simp only [Game.handlePlayerAction]
  split
  case isTrue => exact ⟨rfl, rfl⟩
  case isFalse =>
    split
    case isTrue => exact ⟨rfl, rfl⟩
    case isFalse =>
      split
      case isTrue => exact ⟨rfl, rfl⟩
      case isFalse => exact settle_reqhandler _ p rfl

/-- A response while no request is pending is refused, unless it answers nobody. -/
theorem handleRspPlayerReq_idle {handler : ReqHandler} {cntneeded : Nat}
    (idle : handler.pending = ⟨0, reqInvalid, 0, 0, cntneeded, []⟩)
    (somebody : p.isPlayer = true → ReqHandler.unpackRsp body ≠ some (0, reqRejected)) :
    handler.handleRspPlayerReq p body = (-1, [], handler) := by
  unfold ReqHandler.handleRspPlayerReq
  split
  case h_2 => rfl
  case h_1 uid result player reads =>
    split
    case isTrue => rfl
    case isFalse wellFormed =>
      have refused : handler.addRsp p.id uid result = none := by
        simp only [ReqHandler.addRsp, idle]
        split
        case isTrue => rfl
        case isFalse nobody =>
          split
          case isTrue => rfl
          case isFalse known =>
            exfalso
            have named : uid = 0 := (not_not.mp nobody).symm
            have rejects : result = reqRejected := by
              by_contra other
              refine known ⟨fun invalid => wellFormed (.inr ?_), other⟩
              rw [invalid]
              decide
            exact somebody player (by rw [reads, named, rejects])
      rw [refused]

/-- `req_confirmed` and what follows it, for the counts of a fair ballot. -/
theorem confirm_counts {ballot : Ballot} (game : Game CnChess) (p : Sprite)
    (counted : game.reqhandler.pending = ballot.counts group) (fair : ballot.Fair group) :
    Tally group (if ballot.Complete group then none else some ballot)
        (game.confirm cnchess p).game.reqhandler.pending ∧
      (game.confirm cnchess p).packets.filterMap announcement =
        if ballot.Complete group then [(ballot.asker, ballot.decision)] else [] := by
  simp only [Game.confirm, reqConfirmed_counts counted fair]
  by_cases complete : ballot.Complete group
  · simp only [if_pos complete]
    have confirmed : ∀ state : CnChess, ∀ ur,
        (cnchess.handleConfirmedReq state p ur).2.1.filterMap announcement = [] := by
      intro state ur
      simp only [cnchess, CnChess.handleConfirmedReq]
      split
      case isTrue => rfl
      case isFalse => split <;> rfl
    split
    case isTrue =>
      refine ⟨.idle _, ?_⟩
      rw [List.filterMap_append, confirmed]
      rfl
    case isFalse => exact ⟨.idle _, rfl⟩
  · simp only [if_neg complete]
    split
    case isTrue unconfirmed => exact absurd rfl unconfirmed.1
    case isFalse =>
      rw [counted]
      exact ⟨.opened ballot fair complete, rfl⟩

/-- What a message leaves: counts that fit the next ballot, and the decision that is due. -/
def Keeps (group : Group) (p : Sprite) (ballot : Option Ballot) (command : Command)
    (reply : Reply CnChess) : Prop :=
  Tally group (nextBallot group p (reply.err = 0) ballot command).1
      reply.game.reqhandler.pending ∧
    reply.packets.filterMap announcement =
      (nextBallot group p (reply.err = 0) ballot command).2

theorem nextBallot_playerReq_refused (ballot : Option Ballot) :
    nextBallot group p false ballot (.playerReq body) = (ballot, []) := by
  unfold nextBallot
  split
  case h_1 same =>
    rfl
  case h_2 never => cases never
  case h_3 => rfl

theorem keeps_refused {command : Command} (tally : Tally group ballot game.reqhandler.pending)
    (stays : nextBallot group p false ballot command = (ballot, [])) :
    Keeps group p ballot command ⟨-1, [], game⟩ := by
  have failed : decide ((-1 : Int) = 0) = false := rfl
  simp only [Keeps, failed, stays]
  exact ⟨tally, rfl⟩

theorem keeps_playerReq (tally : Tally group ballot game.reqhandler.pending)
    (member : p.isPlayer = true → p.id ∈ group.players) :
    Keeps group p ballot (.playerReq body) (game.handlePlayerReq group p body) := by
  by_cases turn : game.nxmover = p.id
  · by_cases accepted : (game.reqhandler.handlePlayerReq group p body).1 = 0
    · obtain ⟨rfl, req, rfl, packets, opened⟩ := tally.request member accepted
      simp only [Game.handlePlayerReq_eq turn, accepted, packets]
      exact ⟨opened, rfl⟩
    · rw [Game.handlePlayerReq_eq turn, handlePlayerReq_refused accepted]
      exact keeps_refused tally (nextBallot_playerReq_refused ballot)
  · rw [Game.handlePlayerReq, if_neg turn]
    exact keeps_refused tally (nextBallot_playerReq_refused ballot)

theorem keeps_notifyPlayerReq (tally : Tally group ballot game.reqhandler.pending)
    (member : p.isPlayer = true → p.id ∈ group.players)
    (somebody : p.isPlayer = true → ReqHandler.unpackRsp body = some (0, reqRejected) →
      game.reqhandler.hasPendingReq = true) :
    Keeps group p ballot (.notifyPlayerReq body) (game.handleRspPlayerReq cnchess p body) := by
  have tallied := tally
  generalize counts : game.reqhandler.pending = pending at tally
  cases tally with
  | idle cntneeded =>
    have named : p.isPlayer = true → ReqHandler.unpackRsp body ≠ some (0, reqRejected) := by
      intro player reads
      simpa [ReqHandler.hasPendingReq, counts] using somebody player reads
    have refused := handleRspPlayerReq_idle counts named
    rw [Game.handleRspPlayerReq_refused refused]
    exact keeps_refused tallied rfl
  | opened ballot fair unfinished =>
    cases answers : ballot.answerOf p body with
    | none =>
      rw [Game.handleRspPlayerReq_refused (respond_none counts answers)]
      exact keeps_refused tallied (by simp only [nextBallot, answers])
    | some agrees =>
      obtain ⟨player, other, first, result, counted⟩ := respond_some counts fair answers
      have nonzero : p.id ≠ 0 := fun zero => group.nonzero (zero ▸ member player)
      obtain ⟨tally, announced⟩ := confirm_counts
        { game with reqhandler := { game.reqhandler with
          pending := (ballot.answered p.id agrees).counts group } } p
        rfl (fair.answered (member player) other first agrees)
      rw [Game.handleRspPlayerReq_added counted]
      simp only [Keeps, nextBallot, answers, List.filterMap_append, announced]
      have quiet : [Packet.playerReq p.id ballot.asker result].filterMap announcement = [] := by
        simp [announcement, nonzero]
      rw [quiet]
      split at tally
      case isTrue complete => exact ⟨by rwa [if_pos complete], by simp [complete]⟩
      case isFalse unfinished => exact ⟨by rwa [if_neg unfinished], by simp [unfinished]⟩

/-- While nothing is pending a watcher's departure changes nothing. -/
theorem handlePlayerLeave_idle (game : Game CnChess) (watcher : p.isPlayer = false)
    (idle : game.reqhandler.hasPendingReq = false) :
    game.handlePlayerLeave cnchess p = ⟨0, [], game⟩ := by
  simp [Game.handlePlayerLeave, cnchess, CnChess.handlePlayerLeave, watcher,
    ReqHandler.handlePlayerLeave, idle]

end Messages

/-! ## Runs -/

theorem keeps_handleData {group : Group} {history : History} {message : Message}
    (tally : Tally group history.ballot history.game.reqhandler.pending)
    (considerate : Considerate group history message) :
    Keeps group message.1 history.ballot message.2
      (history.game.handleData cnchess group message.1 message.2) := by
  obtain ⟨p, command⟩ := message
  obtain ⟨⟨member, watchers⟩, departs, somebody⟩ := considerate
  have player : p.isPlayer = true → p.id ∈ group.players := fun plays =>
    List.mem_of_getElem? (member.seat plays).2
  cases command with
  | playerAction body =>
    have quiet := handlePlayerAction_reqhandler history.game p body
    have stays : ∀ accepted, nextBallot group p accepted history.ballot (.playerAction body) =
        (history.ballot, []) := by
      unfold nextBallot
      split <;> simp_all
    simp only [Keeps, Game.handleData, stays, quiet.1, quiet.2]
    exact ⟨tally, trivial⟩
  | playerReq body => exact keeps_playerReq tally player
  | notifyPlayerReq body =>
    exact keeps_notifyPlayerReq tally player fun plays reads => somebody plays ⟨body, rfl, reads⟩
  | playerLeave =>
    have gone := handlePlayerLeave_idle history.game (watchers rfl) (departs rfl)
    have stays : ∀ accepted, nextBallot group p accepted history.ballot .playerLeave =
        (history.ballot, []) := by
      unfold nextBallot
      split <;> simp_all
    simp only [Game.handleData, gone]
    exact ⟨tally, rfl⟩
  | other =>
    exact keeps_refused tally (by
      unfold nextBallot
      split <;> simp_all)

theorem counted_of_tally {group : Group} {history : History}
    (tally : Tally group history.ballot history.game.reqhandler.pending)
    (decided : history.announced = history.due) : Counted group history := by
  obtain ⟨game, ballot, due, announced⟩ := history
  generalize counts : game.reqhandler.pending = pending at tally
  refine ⟨fun idle => ?_, fun opened same => ?_, decided⟩
  · subst idle
    cases tally with
    | idle cntneeded => simp [counts]
  · subst same
    cases tally with
    | opened _ fair unfinished => simp [counts, Ballot.counts, fair, unfinished]

/-- In every run in which no watcher departs while a request is pending, and no player answers
nobody while none is: the counts are those of the distinct other players that answered the
pending request, and a request is confirmed or rejected as soon as all of them have answered, by
strict majority. -/
theorem votes_counted {group : Group} {cntneeded : Nat} {history : History}
    (run : Reaches (History.step group) (Considerate group) (.init group cntneeded) history) :
    Counted group history := by
  have kept : Tally group history.ballot history.game.reqhandler.pending ∧
      history.announced = history.due := by
    apply run.invariant
    · exact ⟨.idle cntneeded, rfl⟩
    · rintro before message ⟨tally, decided⟩ considerate
      obtain ⟨after, announced⟩ := keeps_handleData tally considerate
      exact ⟨after, by simp only [History.step, decided, announced]⟩
  exact counted_of_tally kept.1 kept.2

/-- Red asks for a draw and black agrees. -/
theorem votes_counted_draw :
    Counted pair ((History.init pair 0).step pair (redPlayer, .playerReq [1]) |>.step pair
      (blackPlayer, .notifyPlayerReq [0, 0, 0, 11, 1])) := by
  have asks : Considerate pair (.init pair 0) (redPlayer, .playerReq [1]) :=
    ⟨⟨by decide, nofun⟩, nofun, fun _ ⟨_, never, _⟩ => by cases never⟩
  refine votes_counted (.call (.call .refl asks) ⟨⟨by decide, nofun⟩, nofun, ?_⟩)
  rintro - ⟨body, same, reads⟩
  cases same
  exact absurd reads (by decide)

def watcher : Sprite := ⟨33, 0, false⟩

/-- Red asks for a draw and a watcher departs: the request is rejected before black has
answered. -/
theorem votes_miscounted : ¬ ∀ (group : Group) (cntneeded : Nat) (history : History),
    Reaches (History.step group) (Stays group) (.init group cntneeded) history →
      Counted group history := by
  intro claim
  have asks : Stays pair (.init pair 0) (redPlayer, .playerReq [1]) := ⟨by decide, nofun⟩
  have departs : Stays pair ((History.init pair 0).step pair (redPlayer, .playerReq [1]))
      (watcher, .playerLeave) := ⟨by decide, fun _ => rfl⟩
  have departed := claim pair 0 _ (.call (.call .refl asks) departs)
  exact absurd departed.decided (by decide)

end Taomee.ChineseChess
