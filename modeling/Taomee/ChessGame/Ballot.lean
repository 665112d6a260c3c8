import Mathlib.Data.List.Perm.Subperm
import Taomee.ChessGame.Game

/-!
# Votes on a request

A `Ballot` is what `ReqHandler` is for: the question of one player, and the answers of the
others. `Tally` says how the handler's counters stand for a ballot.
-/

namespace Taomee.ChessGame

/-- A question to the other players, with their answers: whether they agree. -/
structure Ballot where
  asker : UInt32
  question : UInt8
  answers : List (UInt32 × Bool)
  deriving DecidableEq

namespace Ballot

def voters (ballot : Ballot) : List UInt32 := ballot.answers.map Prod.fst

def agreed (ballot : Ballot) : Nat := ballot.answers.countP fun answer => answer.2

def disagreed (ballot : Ballot) : Nat := ballot.answers.countP fun answer => !answer.2

/-- All other players have answered. -/
def Complete (group : Group) (ballot : Ballot) : Prop :=
  ∀ uid ∈ group.players, uid ≠ ballot.asker → uid ∈ ballot.voters

instance (group : Group) (ballot : Ballot) : Decidable (ballot.Complete group) :=
  inferInstanceAs (Decidable (∀ uid ∈ group.players, _))

/-- The question is granted by a strict majority of the answers. -/
def decision (ballot : Ballot) : UInt8 :=
  if ballot.agreed > ballot.disagreed then ballot.question else reqRejected

/-- What a response says to the question: a first answer of another player. -/
def answerOf (ballot : Ballot) (p : Sprite) (body : List UInt8) : Option Bool :=
  match ReqHandler.unpackRsp body with
  | none => none
  | some (uid, result) =>
    if p.isPlayer ∧ p.id ≠ ballot.asker ∧ p.id ∉ ballot.voters ∧ uid = ballot.asker then
      if result = ballot.question then some true
      else if result = reqRejected then some false
      else none
    else none

def answered (ballot : Ballot) (uid : UInt32) (agrees : Bool) : Ballot :=
  { ballot with answers := (uid, agrees) :: ballot.answers }

/-- The answers of distinct other players of the group. -/
structure Fair (group : Group) (ballot : Ballot) : Prop where
  asker : ballot.asker ∈ group.players
  question : ballot.question = reqDraw ∨ ballot.question = reqSurrender
  distinct : ballot.voters.Nodup
  others : ∀ uid ∈ ballot.voters, uid ∈ group.players ∧ uid ≠ ballot.asker

variable {group : Group} {ballot : Ballot}

theorem agreed_add_disagreed (ballot : Ballot) :
    ballot.agreed + ballot.disagreed = ballot.voters.length := by
  rw [voters, List.length_map,
    List.length_eq_countP_add_countP (fun answer : UInt32 × Bool => answer.2)]
  simp [agreed, disagreed]

@[simp] theorem voters_answered (ballot : Ballot) (uid : UInt32) (agrees : Bool) :
    (ballot.answered uid agrees).voters = uid :: ballot.voters := rfl

@[simp] theorem agreed_answered (ballot : Ballot) (uid : UInt32) (agrees : Bool) :
    (ballot.answered uid agrees).agreed = ballot.agreed + if agrees then 1 else 0 := by
  cases agrees <;> simp [answered, agreed]

@[simp] theorem disagreed_answered (ballot : Ballot) (uid : UInt32) (agrees : Bool) :
    (ballot.answered uid agrees).disagreed = ballot.disagreed + if agrees then 0 else 1 := by
  cases agrees <;> simp [answered, disagreed]

theorem Fair.subset (fair : ballot.Fair group) :
    ballot.voters ⊆ group.players.erase ballot.asker := by
  intro uid member
  obtain ⟨player, other⟩ := fair.others uid member
  exact (group.nodup.mem_erase_iff).mpr ⟨other, player⟩

/-- The number of answers tells whether all have answered. -/
theorem Fair.complete_iff (fair : ballot.Fair group) :
    ballot.Complete group ↔ ballot.voters.length = group.players.length - 1 := by
  have within := List.subperm_of_subset fair.distinct fair.subset
  have size : (group.players.erase ballot.asker).length = group.players.length - 1 :=
    List.length_erase_of_mem fair.asker
  constructor
  · intro complete
    have back : (group.players.erase ballot.asker).Subperm ballot.voters := by
      refine List.subperm_of_subset (group.nodup.erase _) fun uid member => ?_
      obtain ⟨other, player⟩ := (group.nodup.mem_erase_iff).mp member
      exact complete uid player other
    rw [← size]
    exact Nat.le_antisymm within.length_le back.length_le
  · intro full uid player other
    have same := within.perm_of_length_le (by omega)
    exact same.mem_iff.mpr ((group.nodup.mem_erase_iff).mpr ⟨other, player⟩)

theorem Fair.length_le (fair : ballot.Fair group) : ballot.voters.length ≤ 9 := by
  have within := List.subperm_of_subset fair.distinct fair.subset
  have bound := within.length_le
  rw [List.length_erase_of_mem fair.asker] at bound
  have := group.most
  omega

theorem Fair.answered (fair : ballot.Fair group) {p : Sprite} (player : p.id ∈ group.players)
    (other : p.id ≠ ballot.asker) (first : p.id ∉ ballot.voters) (agrees : Bool) :
    (ballot.answered p.id agrees).Fair group where
  asker := fair.asker
  question := fair.question
  distinct := List.nodup_cons.mpr ⟨first, fair.distinct⟩
  others uid member := by
    rcases List.mem_cons.mp member with rfl | earlier
    · exact ⟨player, other⟩
    · exact fair.others uid earlier

/-- In a group of at least two a new question is open. -/
theorem not_complete_new (group : Group) (asker : UInt32) (question : UInt8) :
    ¬ (Ballot.mk asker question []).Complete group := by
  intro complete
  have only : ∀ uid ∈ group.players, uid = asker := by
    intro uid player
    by_contra other
    exact absurd (complete uid player other) List.not_mem_nil
  have small := (List.subperm_of_subset group.nodup
    (fun uid member => List.mem_singleton.mpr (only uid member))).length_le
  have := group.least
  simp at small
  omega

end Ballot

/-- The handler's counters for an open question. -/
def Ballot.counts (group : Group) (ballot : Ballot) : ReqAndRspCount :=
  ⟨ballot.asker, ballot.question, ballot.agreed, ballot.disagreed, group.players.length - 1,
    ballot.voters⟩

/-- How the handler's counters stand for the question that is open, if one is. -/
inductive Tally (group : Group) : Option Ballot → ReqAndRspCount → Prop where
  | idle (cntneeded : Nat) : Tally group none ⟨0, reqInvalid, 0, 0, cntneeded, []⟩
  | opened (ballot : Ballot) (fair : ballot.Fair group) (unfinished : ¬ ballot.Complete group) :
      Tally group (some ballot) (ballot.counts group)

section Tally

variable {group : Group} {ballot : Ballot} {handler after : ReqHandler} {p : Sprite}
  {body : List UInt8}

theorem Ballot.Fair.asker_ne_zero (fair : ballot.Fair group) : ballot.asker ≠ 0 := by
  intro zero
  exact group.nonzero (zero ▸ fair.asker)

theorem Tally.hasPendingReq_iff {question : Option Ballot}
    (tally : Tally group question handler.pending) :
    handler.hasPendingReq = true ↔ question ≠ none := by
  obtain ⟨pending, made⟩ := handler
  cases tally with
  | idle cntneeded => simp [ReqHandler.hasPendingReq]
  | opened ballot fair => simp [ReqHandler.hasPendingReq, fair.asker_ne_zero]

theorem handlePlayerReq_refused (refused : (handler.handlePlayerReq group p body).1 ≠ 0) :
    handler.handlePlayerReq group p body = (-1, [], handler) := by
  unfold ReqHandler.handlePlayerReq at refused ⊢
  split at refused
  case h_2 => rfl
  case h_1 req player =>
    split at refused
    case isTrue invalid => rw [if_pos invalid]
    case isFalse valid =>
      rw [if_neg valid]
      split at refused
      case h_1 => rfl
      case h_2 => exact absurd rfl refused

/-- A request that is accepted opens a new question, where none was open. -/
theorem Tally.request {question : Option Ballot} (tally : Tally group question handler.pending)
    (member : p.isPlayer = true → p.id ∈ group.players)
    (accepted : (handler.handlePlayerReq group p body).1 = 0) :
    question = none ∧ ∃ req, body = [req] ∧
      (handler.handlePlayerReq group p body).2.1 = [.notifyPlayerReq p.id req] ∧
      Tally group (some ⟨p.id, req, []⟩) (handler.handlePlayerReq group p body).2.2.pending := by
  unfold ReqHandler.handlePlayerReq at accepted ⊢
  split at accepted
  case h_2 => cases accepted
  case h_1 req player =>
    split at accepted
    case isTrue => cases accepted
    case isFalse valid =>
      split at accepted
      case h_1 => cases accepted
      case h_2 added entered =>
        simp only [if_neg valid]
        unfold ReqHandler.addReq at entered
        split at entered
        case isTrue => cases entered
        case isFalse idle =>
          split at entered
          case isTrue => cases entered
          case isFalse =>
            obtain rfl := Option.some.inj entered
            have none_open : question = none := by
              by_contra open_
              have pending := tally.hasPendingReq_iff.mpr open_
              exact idle (by simpa [ReqHandler.hasPendingReq] using pending)
            subst none_open
            have most := group.most
            have valid_req : req = reqDraw ∨ req = reqSurrender := by
              simpa only [ReqHandler.isvalid, Bool.not_eq_true', Bool.not_eq_false,
                Bool.or_eq_true, decide_eq_true_eq] using valid
            have fair : (Ballot.mk p.id req []).Fair group :=
              ⟨member player, valid_req, List.nodup_nil,
                fun _ => nofun⟩
            have opened := Tally.opened _ fair (Ballot.not_complete_new group p.id req)
            have size : (group.players.length - 1) % 256 = group.players.length - 1 := by omega
            obtain ⟨pending, made⟩ := handler
            cases tally with
            | idle cntneeded => simpa [Ballot.counts, Ballot.agreed, Ballot.disagreed,
                Ballot.voters, size] using opened

/-- A response that is no answer to the open question is refused. -/
theorem respond_none (counted : handler.pending = ballot.counts group)
    (silent : ballot.answerOf p body = none) :
    handler.handleRspPlayerReq p body = (-1, [], handler) := by
  unfold ReqHandler.handleRspPlayerReq
  split
  case h_2 => rfl
  case h_1 uid result player reads =>
    split
    case isTrue => rfl
    case isFalse wellFormed =>
      have refused : handler.addRsp p.id uid result = none := by
        simp only [Ballot.answerOf, reads, player, true_and] at silent
        simp only [ReqHandler.addRsp, counted]
        split
        case isTrue => rfl
        case isFalse same =>
          have asked : uid = ballot.asker := (not_not.mp same).symm
          have other : p.id ≠ ballot.asker := fun own => wellFormed (.inl (own.trans asked.symm))
          split
          case isTrue => rfl
          case isFalse known =>
            split
            case isTrue => rfl
            case isFalse first =>
              rw [if_pos ⟨other, first, asked⟩] at silent
              split at silent
              case isTrue => cases silent
              case isFalse disagrees =>
                split at silent
                case isTrue => cases silent
                case isFalse rejects => exact absurd ⟨disagrees, rejects⟩ known
      rw [refused]

/-- An answer is counted. -/
theorem respond_some {agrees : Bool} (counted : handler.pending = ballot.counts group)
    (fair : ballot.Fair group) (answers : ballot.answerOf p body = some agrees) :
    p.isPlayer = true ∧ p.id ≠ ballot.asker ∧ p.id ∉ ballot.voters ∧
      ∃ result, handler.handleRspPlayerReq p body =
        (0, [.playerReq p.id ballot.asker result],
          { handler with pending := (ballot.answered p.id agrees).counts group }) := by
  unfold Ballot.answerOf at answers
  split at answers
  case h_1 => cases answers
  case h_2 uid result reads =>
    split at answers
    case isFalse => cases answers
    case isTrue fits =>
      obtain ⟨player, other, first, rfl⟩ := fits
      refine ⟨player, other, first, result, ?_⟩
      have few := fair.length_le
      have total := ballot.agreed_add_disagreed
      have said : (result = ballot.question ∧ agrees = true) ∨
          (result = reqRejected ∧ result ≠ ballot.question ∧ agrees = false) := by
        split at answers
        case isTrue agreed => exact .inl ⟨agreed, (Option.some.inj answers).symm⟩
        case isFalse other =>
          split at answers
          case isTrue rejects => exact .inr ⟨rejects, other, (Option.some.inj answers).symm⟩
          case isFalse => cases answers
      have small : ¬ result > reqMax := by
        rcases said with ⟨rfl, -⟩ | ⟨rfl, -⟩
        · rcases fair.question with same | same <;> rw [same] <;> decide
        · decide
      have known : ¬ (p.id = ballot.asker ∨ result > reqMax) := fun bad => bad.elim other small
      simp only [ReqHandler.handleRspPlayerReq, player, reads, if_neg known]
      rcases said with ⟨rfl, rfl⟩ | ⟨rfl, differs, rfl⟩
      · have question : ballot.question ≠ 0 := by
          rcases fair.question with same | same <;> rw [same] <;> decide
        have count : (ballot.agreed + 1) % 256 = ballot.agreed + 1 := by omega
        simp [ReqHandler.addRsp, counted, Ballot.counts, first, question, count]
        exact ⟨rfl, rfl⟩
      · have count : (ballot.disagreed + 1) % 256 = ballot.disagreed + 1 := by omega
        simp [ReqHandler.addRsp, counted, Ballot.counts, first, count, reqRejected]
        exact ⟨rfl, rfl⟩

/-- The decision falls with the last answer. -/
theorem reqConfirmed_counts (counted : handler.pending = ballot.counts group)
    (fair : ballot.Fair group) :
    handler.reqConfirmed =
      if ballot.Complete group then
        (⟨ballot.asker, ballot.decision⟩, [.playerReq 0 ballot.asker ballot.decision],
          { handler with
            pending := ⟨0, reqInvalid, 0, 0, group.players.length - 1, []⟩ })
      else (⟨ballot.asker, reqUnconfirmed⟩, [], handler) := by
  have total := ballot.agreed_add_disagreed
  simp only [ReqHandler.reqConfirmed, counted, Ballot.counts, fair.complete_iff, ← total]
  split <;> rfl

end Tally

end Taomee.ChessGame
