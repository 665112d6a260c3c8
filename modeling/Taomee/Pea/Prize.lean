import Mathlib.Algebra.Order.Ring.Int
import Mathlib.Data.List.Count
import Mathlib.Data.List.Infix
import Mathlib.Data.List.Nodup
import Mathlib.Data.Nat.Find
import Mathlib.Tactic.Common
import Mathlib.Tactic.IntervalCases

/-!
# pea: the collection of a prize

The items of a prize are granted one after the other, each by a request to the database whose
reply calls for the next one. Places in the list of items are counted from 1.
-/

namespace Taomee.Pea

inductive PrizeType where
  | exp
  | gold
  | item
  | equip
deriving DecidableEq

/-- `prize_t`. -/
structure Prize where
  fixed : Bool
  type : PrizeType
  id : Nat
  num : Nat
deriving DecidableEq

/-- `prize_config_map`, with the items of each prize. -/
abbrev PrizeConfig := Nat → Option (List Prize)

/-- The command that a player waits for, as far as the end of a prize tells them apart. -/
inductive Waitcmd where
  | finishTask
  | getPrize
  | other
deriving DecidableEq

/-- What a player has of its prizes. -/
structure PrizePlayer where
  waitcmd : Waitcmd
  playerPrize : Nat → Option Nat
  processPrizeState : Bool
  cachePrizeId : Nat
  cachePrizeSeq : Nat
  cacheOptionalPrizePos : Nat
  cacheTskid : Nat

inductive PrizeReply where
  | finishTask (tskid optionalPos : Nat)
  | getPrize (prizeId optionalPos : Nat)
deriving DecidableEq

/-- What is asked of the database. -/
inductive PrizeRequest where
  | changeExp (num : Nat)
  | changeGold (num : Nat)
  | addItem (id num : Nat)
deriving DecidableEq

/-- How a step ends: the request, with the place of the item it is for, the end of the prize with
the reply to the player, or the result `-1`. -/
inductive PrizeOutcome where
  | requested (seq : Nat) (request : PrizeRequest)
  | finished (reply : Option PrizeReply)
  | invalid
  | bagFull

def prizeSeqStart : Nat := 1

def prizeFinished (p : PrizePlayer) (prizeId : Nat) : PrizePlayer × PrizeOutcome :=
  let optionalPos := p.cacheOptionalPrizePos
  let tskid := p.cacheTskid
  let p := { p with
    cachePrizeId := 0, cachePrizeSeq := 1, cacheOptionalPrizePos := 0, cacheTskid := 0
    processPrizeState := false }
  match p.waitcmd with
  | .finishTask => (p, .finished (some (.finishTask tskid optionalPos)))
  | .getPrize => (p, .finished (some (.getPrize prizeId optionalPos)))
  | .other => (p, .finished none)

/-- The items before the chosen one that are optional are passed over, up to the last item. -/
def skipOptional (prizes : List Prize) (optionalPos : Nat) : Nat → Nat → Nat
  | 0, seq => seq
  | fuel + 1, seq =>
    if (prizes[seq - 1]?.all fun prize => !prize.fixed) ∧ seq ≠ optionalPos then
      skipOptional prizes optionalPos fuel (seq + 1)
    else seq

/-- The loop of `get_prize`; it ends with the last item at the latest. -/
def skipFrom (prizes : List Prize) (optionalPos seq : Nat) : Nat :=
  skipOptional prizes optionalPos (prizes.length - seq) seq

def Prize.request (prize : Prize) : PrizeRequest :=
  match prize.type with
  | .exp => .changeExp prize.num
  | .gold => .changeGold prize.num
  | .item => .addItem prize.id prize.num
  | .equip => .addItem prize.id prize.num

/-- `fits` is whether `prepare_item_for_db` finds room for an item. -/
def getPrize (config : PrizeConfig) (fits : Prize → Bool) (p : PrizePlayer) (prizeId seq : Nat) :
    PrizePlayer × PrizeOutcome :=
  let p := { p with processPrizeState := true }
  match config prizeId with
  | none => (p, .invalid)
  | some prizes =>
    if seq ≥ prizes.length then prizeFinished p prizeId
    else
      let p := { p with cachePrizeSeq := seq + 1 }
      let seq := skipFrom prizes p.cacheOptionalPrizePos seq
      if seq ≥ prizes.length then prizeFinished p prizeId
      else
        match prizes[seq - 1]? with
        | none => (p, .invalid)
        | some prize =>
          if (prize.type = .item ∨ prize.type = .equip) ∧ fits prize = false then (p, .bagFull)
          else (p, .requested seq prize.request)

inductive PrizeErr where
  | idNotExist
  | opPosInvalid

/-- The item at a place, none for the place 0 and for those past the end. -/
def prizeAt (prizes : List Prize) (pos : Nat) : Option Prize :=
  if pos = 0 then none else prizes[pos - 1]?

/-- The errors do not end the request; each clears the command that is waited for. Nothing is said
of a prize that is not in the configuration, and of an item outside the list. -/
def cliProtoGetPrize (config : PrizeConfig) (p : PrizePlayer) (prizeId optionalPos : Nat) :
    Option (PrizePlayer × List PrizeErr) := do
  let unknown := if (p.playerPrize prizeId).isNone then [PrizeErr.idNotExist] else []
  let prizes ← config prizeId
  let beyond := if optionalPos > prizes.length then [PrizeErr.opPosInvalid] else []
  let prize ← prizeAt prizes optionalPos
  let notOptional := if prize.fixed then [PrizeErr.opPosInvalid] else []
  let errors := unknown ++ beyond ++ notOptional
  let waitcmd := if errors.isEmpty then p.waitcmd else .other
  some ({ p with waitcmd, cachePrizeId := prizeId, cacheOptionalPrizePos := optionalPos }, errors)

/-- The reply to the deletion of the prize from those the player has. -/
def dbProtoDelPrizeCallback (config : PrizeConfig) (fits : Prize → Bool) (p : PrizePlayer)
    (prizeId : Nat) : PrizePlayer × PrizeOutcome :=
  let left := (p.playerPrize prizeId).bind fun count => if count = 1 then none else some (count - 1)
  getPrize config fits { p with playerPrize := Function.update p.playerPrize prizeId left } prizeId
    prizeSeqStart

inductive TaskErr where
  | unable (err : Nat)
  | prizeIllegal

/-- `able` is the result of `task_finish_able`, and `prizeId` the prize of the task. -/
def taskFinish (config : PrizeConfig) (able : Nat) (p : PrizePlayer) (prizeId optionalPos : Nat) :
    Option (Except TaskErr PrizePlayer) :=
  let asked := { p with cachePrizeId := prizeId, cacheOptionalPrizePos := optionalPos }
  if able ≠ 0 then some (.error (.unable able))
  else if prizeId ≠ 0 then do
    let prizes ← config prizeId
    if optionalPos > prizes.length then some (.error .prizeIllegal)
    else do
      let prize ← prizeAt prizes optionalPos
      if prize.fixed then some (.error .prizeIllegal) else some (.ok asked)
  else some (.ok asked)

/-- The reply to the end of a task. -/
def dbProtoFinishTaskCallback (config : PrizeConfig) (fits : Prize → Bool) (p : PrizePlayer)
    (tskid : Nat) : PrizePlayer × PrizeOutcome :=
  if p.cachePrizeId = 0 then
    ({ p with cacheTskid := 0, cachePrizeId := 0 },
      .finished (some (.finishTask tskid p.cacheOptionalPrizePos)))
  else getPrize config fits { p with cacheTskid := tskid } p.cachePrizeId prizeSeqStart

/-! ## A collection -/

/-- A prize is asked for, by the player or as that of a task, with an optional item chosen; this
is the first step. -/
inductive Started (config : PrizeConfig) (prizeId optionalPos : Nat) (fits : Prize → Bool) :
    PrizePlayer × PrizeOutcome → Prop where
  | claimed {p p' : PrizePlayer}
      (asked : cliProtoGetPrize config p prizeId optionalPos = some (p', [])) :
      Started config prizeId optionalPos fits (dbProtoDelPrizeCallback config fits p' prizeId)
  | task {p p' : PrizePlayer} {tskid : Nat} (named : prizeId ≠ 0)
      (asked : taskFinish config 0 p prizeId optionalPos = some (.ok p')) :
      Started config prizeId optionalPos fits (dbProtoFinishTaskCallback config fits p' tskid)

/-- The item at a place is fixed, or the one that was chosen. -/
def Wanted (prizes : List Prize) (optionalPos seq : Nat) : Prop :=
  (prizes[seq - 1]?.any fun prize => prize.fixed) ∨ seq = optionalPos

instance (prizes : List Prize) (optionalPos seq : Nat) :
    Decidable (Wanted prizes optionalPos seq) := inferInstanceAs (Decidable (_ ∨ _))

section

variable {prizes : List Prize} {pos seq fuel : Nat}

/-- The loop stops at the first wanted item, or at the last one. -/
structure Stops (prizes : List Prize) (pos seq stop : Nat) : Prop where
  after : seq ≤ stop
  upTo : stop ≤ prizes.length
  passed : ∀ other, seq ≤ other → other < stop → ¬ Wanted prizes pos other
  wanted : stop < prizes.length → Wanted prizes pos stop

namespace Stops

variable {stop : Nat}

/-- A loop that starts later, before the stop, stops at the same place. -/
theorem unique {other : Nat} (stops : Stops prizes pos seq stop) (also : Stops prizes pos seq other) :
    stop = other := by
  obtain less | same | more := Nat.lt_trichotomy stop other
  · exact absurd (stops.wanted (less.trans_le also.upTo)) (also.passed stop stops.after less)
  · exact same
  · exact absurd (also.wanted (more.trans_le stops.upTo)) (stops.passed other also.after more)

theorem mono {later laterStop : Nat} (stops : Stops prizes pos seq stop)
    (also : Stops prizes pos later laterStop) (order : seq ≤ later) : stop ≤ laterStop := by
  by_contra more
  have less := Nat.lt_of_not_le more
  exact absurd (also.wanted (less.trans_le stops.upTo))
    (stops.passed laterStop (order.trans also.after) less)

end Stops

end

/-! ## Collections -/

section

variable {config : PrizeConfig} {fits : Prize → Bool} {prizes : List Prize} {prizeId pos : Nat}
  {p q : PrizePlayer} {seq : Nat} {granted : List Nat}

/-- A collection at the step for a place. -/
structure At (p : PrizePlayer) (prizeId pos seq : Nat) : Prop where
  prize : p.cachePrizeId = prizeId
  chosen : p.cacheOptionalPrizePos = pos
  next : p.cachePrizeSeq = seq
  processing : p.processPrizeState = true

theorem prizeAt_lt {item : Prize} (there : prizeAt prizes pos = some item) :
    1 ≤ pos ∧ pos ≤ prizes.length := by
  rw [prizeAt] at there
  split at there
  · contradiction
  · obtain ⟨inside, -⟩ := List.getElem?_eq_some_iff.mp there
    omega

/-- Both ways lead to the first step, with the choice kept. -/
theorem Started.eq {start : PrizePlayer × PrizeOutcome}
    (started : Started config prizeId pos fits start) (found : config prizeId = some prizes) :
    0 < prizes.length ∧ ∃ p, p.cachePrizeId = prizeId ∧ p.cacheOptionalPrizePos = pos ∧
      start = getPrize config fits p prizeId 1 := by
  cases started with
  | @claimed p p' asked =>
    simp only [cliProtoGetPrize, found, Option.bind_eq_bind, Option.bind_some,
      Option.bind_eq_some_iff, Option.some.injEq, Prod.mk.injEq] at asked
    obtain ⟨item, there, rfl, -⟩ := asked
    have within := prizeAt_lt there
    exact ⟨by omega, _, rfl, rfl, rfl⟩
  | @task p p' tskid named asked =>
    simp only [taskFinish, found, ne_eq, not_true, if_false, named, not_false_eq_true, if_true,
      Option.bind_eq_bind, Option.bind_some] at asked
    split at asked
    · simp at asked
    · obtain ⟨item, there, kept⟩ := Option.bind_eq_some_iff.mp asked
      have within := prizeAt_lt there
      split at kept
      · simp at kept
      · obtain rfl := Except.ok.inj (Option.some.inj kept)
        refine ⟨by omega, { p with
          cachePrizeId := prizeId, cacheOptionalPrizePos := pos, cacheTskid := tskid }, rfl, rfl, ?_⟩
        rw [dbProtoFinishTaskCallback, if_neg named]
        rfl

end

end Taomee.Pea
