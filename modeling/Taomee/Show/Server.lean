import Mathlib.Data.Finset.Basic
import Mathlib.Data.List.Range
import Taomee.Show.Board

/-!
# The process of the shows

A show lasts a week. Its board is a file that the process maps, and redis keeps who has joined and
who has voted. The process maps another file only when someone enters in the phase of joining.
-/

namespace Taomee.Show

def showBeginTimestamp : Nat := 1339884000

def weekSeconds : Nat := 7 * 24 * 60 * 60

def top1RewardCoin : Nat := 1000

def voteTop1Coin : Nat := 100

/-- `GET_SHOW_PERIOD`, for a time after the beginning. -/
def getShowPeriod (time : Nat) : Nat := (time - showBeginTimestamp) / weekSeconds + 1

/-- `struct tm`. -/
structure Tm where
  wday : Nat
  hour : Nat
  min : Nat
  sec : Nat

inductive Phase where
  | enter | vote | undefined
  deriving DecidableEq

/-- What `localtime` finds, and a record of a new file. -/
structure Env (ρ : Type) where
  localtime : Nat → Option Tm
  blank : Record ρ

section

variable {ρ : Type}

namespace Env

def getPhaseOfShow (env : Env ρ) (time : Nat) : Phase :=
  match env.localtime time with
  | none => .undefined
  | some tm =>
    if ¬ (tm.wday = 0 ∨ tm.wday = 6) then .enter
    else if tm.wday = 0 ∧ tm.hour ≥ 6 then .enter
    else if tm.wday = 6 ∧ tm.hour < 6 then .enter
    else .vote

def timestampBeginDay (env : Env ρ) (time : Nat) : Nat :=
  match env.localtime time with
  | none => 0
  | some tm => time - tm.hour * 60 * 60 - tm.min * 60 - tm.sec

end Env

/-! ## Redis -/

inductive Key where
  | joiner (showId : Nat)
  | vote (showId : Nat)
  | voteFor (showId peerId : Nat)
  deriving DecidableEq

/-- `m_p_rc`: connected, after an error, or `NULL`. -/
inductive Context where
  | up | err | null
  deriving DecidableEq

/-- How a command ends: with its result, with an error reply, or without a reply. -/
inductive Outcome where
  | answered | refused | silent
  deriving DecidableEq

structure Redis where
  context : Context
  sets : Key → Finset Nat

inductive RedisReply where
  | integer (value : Nat) | error | null
  deriving DecidableEq

namespace Redis

/-- `redisCommand`. There is no result if it is called with `NULL`. A command that fails has no
effect on the sets. -/
def command (redis : Redis) (outcome : Outcome) (value : Nat) (sets : Key → Finset Nat) :
    Option (RedisReply × Redis) :=
  match redis.context, outcome with
  | .null, _ => none
  | .err, _ => some (.null, redis)
  | .up, .answered => some (.integer value, { redis with sets })
  | .up, .refused => some (.error, redis)
  | .up, .silent => some (.null, { redis with context := .err })

def sismember (redis : Redis) (outcome : Outcome) (key : Key) (user : Nat) :
    Option (RedisReply × Redis) :=
  redis.command outcome (if user ∈ redis.sets key then 1 else 0) redis.sets

def sadd (redis : Redis) (outcome : Outcome) (key : Key) (user : Nat) :
    Option (RedisReply × Redis) :=
  redis.command outcome (if user ∈ redis.sets key then 0 else 1)
    (Function.update redis.sets key (insert user (redis.sets key)))

def srem (redis : Redis) (outcome : Outcome) (key : Key) (user : Nat) :
    Option (RedisReply × Redis) :=
  redis.command outcome (if user ∈ redis.sets key then 1 else 0)
    (Function.update redis.sets key ((redis.sets key).erase user))

end Redis

/-! ## The process -/

/-- The file of a period. One that is opened before there was a board is empty. -/
inductive File (ρ : Type) where
  | absent
  | empty
  | board (board : Board ρ)

def File.board? : File ρ → Option (Board ρ)
  | .absent => none
  | .empty => none
  | .board content => some content

inductive Reward where
  | champion (showId : Nat)
  | voter (showId userId : Nat)
  deriving DecidableEq

/-- The files and redis, and the process that `curShowId`, `lastTop` and `topIndex` belong to. The
period of the file at `m_p_last_top_start` is `lastTop`. The last two fields are history: whose
votes have been counted in which period, and what has been handed out. -/
structure Server (ρ : Type) where
  files : Nat → File ρ
  redis : Redis
  curShowId : Nat
  lastTop : Option Nat
  topIndex : Nat → Nat
  counted : List (Nat × Nat)
  rewards : List Reward

inductive Err where
  | msgLen | reqShowId | notPhaseEnter | notPhaseVote | npcNotScored | repeatJoin | repeatVote
  | notCandidate | systemErr
  deriving DecidableEq

inductive Reply (ρ : Type) where
  | joined (showId : Nat)
  | voted (showId : Nat)
  | entered (showId : Nat) (phase : Phase) (totalNum : Nat) (entries : List (Record ρ))
    (done : Bool) (reward : Option (Nat × Reward × Nat))
  | history (showId totalNum : Nat) (entries : List (Record ρ))
  | error (err : Err)

/-- How redis takes the first, the second and the third command of a request. -/
structure Plan where
  first : Outcome
  second : Outcome
  third : Outcome
  deriving DecidableEq

inductive Request (ρ : Type) where
  | malformed
  | join (showId : Nat) (record : Record ρ)
  | vote (showId peerId : Nat)
  | enter (lastShowId : Nat)
  | history (showId : Nat)

/-- What a board shows. -/
def Board.entries (board : Board ρ) : List (Record ρ) :=
  (List.range board.userNum).map board.records

/-- The first position with such a record. -/
def Board.find? (board : Board ρ) (is : Record ρ → Bool) : Option Nat :=
  (List.range board.userNum).find? fun position => is (board.records position)

def Board.change (board : Board ρ) (position : Nat) (f : Record ρ → Record ρ) : Board ρ :=
  { board with records := Function.update board.records position (f (board.records position)) }

instance (board : Board ρ) (userId : Nat) :
    Decidable (∃ position < board.userNum, (board.records position).userId = userId) :=
  Nat.decidableExistsLT _

namespace Server

variable (env : Env ρ) (time user : Nat) (plan : Plan)

def setFile (s : Server ρ) (showId : Nat) (file : File ρ) : Server ρ :=
  { s with files := Function.update s.files showId file }

/-- The file of the current show is made if it has no board yet. -/
def openCurrent (s : Server ρ) (showId : Nat) : Server ρ :=
  match s.files showId with
  | .board _ => s
  | _ => s.setFile showId (.board (.fresh fun _ => env.blank))

/-- The file of the last show is opened with `O_CREAT`. -/
def openLast (s : Server ρ) (showId : Nat) : Server ρ :=
  match s.files showId with
  | .absent => s.setFile showId .empty
  | _ => s

/-- `init_show_file`. No file operation fails. -/
def initShowFile (s : Server ρ) : Server ρ :=
  let cur := getShowPeriod time
  let s := { s with curShowId := cur, lastTop := none }.openCurrent env cur
  if cur > 1 then { s.openLast (cur - 1) with lastTop := some (cur - 1) } else s

/-- A redis command and the check of its reply: a reply that is no integer ends the request. -/
def checked (s : Server ρ) (called : Option (RedisReply × Redis))
    (next : Nat → Server ρ → Option (Reply ρ × Server ρ)) : Option (Reply ρ × Server ρ) :=
  match called with
  | none => none
  | some (.integer value, redis) => next value { s with redis := redis }
  | some (.error, redis) => some (.error .systemErr, { s with redis := redis })
  | some (.null, redis) =>
    some (.error .systemErr, { s with redis := { redis with context := .null } })

def processJoinShow (s : Server ρ) (showId : Nat) (record : Record ρ) :
    Option (Reply ρ × Server ρ) :=
  let svrShowId := getShowPeriod time
  if svrShowId ≠ showId then some (.error .reqShowId, s)
  else if env.getPhaseOfShow time ≠ .enter then some (.error .notPhaseEnter, s)
  else if env.timestampBeginDay time ≠ record.npcTimestamp then some (.error .npcNotScored, s)
  else
    s.checked (s.redis.sismember plan.first (.joiner svrShowId) user) fun value s =>
    if value = 1 then some (.error .repeatJoin, s)
    else
      s.checked (s.redis.sadd plan.second (.joiner svrShowId) user) fun _ s =>
      match (s.files s.curShowId).board? with
      | none => none
      | some board =>
        if ∃ position < board.userNum, (board.records position).userId = user then
          some (.error .repeatJoin, s)
        else
          let (board, topIndex) := board.enter s.topIndex record
          some (.joined showId, { s.setFile s.curShowId (.board board) with topIndex })

/-- `votes++`. -/
def countVote (s : Server ρ) (svrShowId user : Nat) (board : Board ρ) (idx : Nat) : Server ρ :=
  let board := board.change idx fun record => { record with votes := record.votes + 1 }
  { s.setFile s.curShowId (.board board) with counted := (svrShowId, user) :: s.counted }

def processVoteShow (s : Server ρ) (showId peerId : Nat) : Option (Reply ρ × Server ρ) :=
  let svrShowId := getShowPeriod time
  if svrShowId ≠ showId then some (.error .reqShowId, s)
  else if env.getPhaseOfShow time ≠ .vote then some (.error .notPhaseVote, s)
  else
    s.checked (s.redis.sismember plan.first (.vote svrShowId) user) fun value s =>
    if value = 1 then some (.error .repeatVote, s)
    else
      match (s.files s.curShowId).board? with
      | none => none
      | some board =>
        match board.find? fun record => record.userId = peerId with
        | none => some (.error .notCandidate, s)
        | some idx =>
          let s := s.countVote svrShowId user board idx
          s.checked (s.redis.sadd plan.second (.voteFor svrShowId peerId) user) fun _ s =>
          s.checked (s.redis.sadd plan.third (.vote svrShowId) user) fun _ s =>
          some (.voted showId, s)

/-- The file that is asked for rewards, if there is one. -/
def lastTopStart (s : Server ρ) (lastShowId : Nat) : Option Nat :=
  let svrShowId := getShowPeriod time
  if lastShowId = svrShowId - 1 ∧ s.lastTop.isSome then s.lastTop
  else if lastShowId = 0 ∨ lastShowId = svrShowId then none
  else
    match s.files lastShowId with
    | .absent => none
    | _ => some lastShowId

def reward (s : Server ρ) (reward : Reward) : Server ρ :=
  { s with rewards := reward :: s.rewards }

/-- The end of `process_enter_show`: the reward that the user has not been given. -/
def giveReward (s : Server ρ) (lastShowId : Nat) :
    Option (Option (Nat × Reward × Nat) × Server ρ) :=
  match s.lastTopStart time lastShowId with
  | none => some (none, s)
  | some showId =>
    match (s.files showId).board? with
    | none => none
    | some board =>
      match board.find? fun record => record.isTop = 1 with
      | none => some (none, s)
      | some idx =>
        if user = (board.records idx).userId then
          if (board.records idx).isNotice = 0 then
            let board := board.change idx fun record => { record with isNotice := 1 }
            let given := Reward.champion lastShowId
            some (some (lastShowId, given, top1RewardCoin),
              (s.setFile showId (.board board)).reward given)
          else some (none, s)
        else
          let key := Key.voteFor lastShowId (board.records idx).userId
          match s.redis.sismember plan.second key user with
          | none => none
          | some (.null, redis) =>
            some (none, { s with redis := { redis with context := .null } })
          | some (.error, redis) => some (none, { s with redis := redis })
          | some (.integer value, redis) =>
            if value = 1 then
              -- the reply is not looked at
              match redis.srem plan.third key user with
              | none => none
              | some (_, redis) =>
                let given := Reward.voter lastShowId user
                some (some (lastShowId, given, voteTop1Coin),
                  { s with redis := redis }.reward given)
            else some (none, { s with redis := redis })

/-- The file whose records are shown in the phase of joining, after `init_show_file`. -/
def openFiles (s : Server ρ) : Server ρ :=
  let svrShowId := getShowPeriod time
  let s := if s.curShowId ≠ svrShowId then s.initShowFile env time else s
  if s.lastTop.isNone ∧ svrShowId > 1 then
    match s.files (svrShowId - 1) with
    | .absent => s
    | _ => { s with lastTop := some (svrShowId - 1) }
  else s

/-- From the packing of the records on. -/
def showRecords (s : Server ρ) (phase : Phase) (shown : Option Nat) (key : Key)
    (lastShowId : Nat) : Option (Reply ρ × Server ρ) :=
  match (s.files s.curShowId).board?, shown.map fun showId => (s.files showId).board? with
  | none, _ => none
  | _, some none => none
  | some current, board =>
    let entries := (board.bind id).elim [] Board.entries
    s.checked (s.redis.sismember plan.first key user) fun value s =>
    match s.giveReward time user plan lastShowId with
    | none => none
    | some (reward, s) =>
      some (.entered (getShowPeriod time) phase current.totalNum entries (value = 1) reward, s)

def processEnterShow (s : Server ρ) (lastShowId : Nat) : Option (Reply ρ × Server ρ) :=
  let svrShowId := getShowPeriod time
  match env.getPhaseOfShow time with
  | .vote => s.showRecords time user plan .vote (some s.curShowId) (.vote svrShowId) lastShowId
  | .enter =>
    let s := s.openFiles env time
    s.showRecords time user plan .enter s.lastTop (.joiner svrShowId) lastShowId
  | .undefined => some (.error .systemErr, s)

def processHistoryShow (s : Server ρ) (showId : Nat) : Option (Reply ρ × Server ρ) :=
  let svrShowId := getShowPeriod time
  if showId < 1 ∨ showId ≥ svrShowId then some (.error .reqShowId, s)
  else
    let shown :=
      if showId = svrShowId - 1 ∧ s.lastTop.isSome then s.lastTop
      else
        match s.files showId with
        | .absent => none
        | _ => some showId
    match shown with
    | none => some (.error .systemErr, s)
    | some file =>
      match (s.files file).board? with
      | none => none
      | some board => some (.history showId board.totalNum board.entries, s)

/-- `process`. There is no result if the process fails. -/
def process (s : Server ρ) : Request ρ → Option (Reply ρ × Server ρ)
  | .malformed => some (.error .msgLen, s)
  | .join showId record => s.processJoinShow env time user plan showId record
  | .vote showId peerId => s.processVoteShow env time user plan showId peerId
  | .enter lastShowId => s.processEnterShow env time user plan lastShowId
  | .history showId => s.processHistoryShow time showId

end Server

end

end Taomee.Show
