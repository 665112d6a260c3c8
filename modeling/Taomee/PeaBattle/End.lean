import Mathlib.Data.List.Sort
import Taomee.Library.Runs

/-!
# The end of a pvp battle

Two teams play in turns, and after an attack, a deadly fall or a departure the battle asks whether
it is over. Nothing else brings it to its end.
-/

namespace Taomee.PeaBattle

/-- `TEAM_ONE` and `TEAM_TWO`; no team is `none`. -/
inductive Team where
  | one
  | two
deriving DecidableEq

/-- The states from the start of the battle on. -/
inductive BtlState where
  | running
  | ended
  | destroyed
deriving DecidableEq

structure PvpPlayer where
  id : UInt32
  team : Team
  dead : Bool
  turnValue : Int32
deriving DecidableEq

structure PvpBattle where
  playerlist : List PvpPlayer
  turnQueue : List UInt32
  curTurnPlayer : Option UInt32
  state : BtlState
  winTeam : Option Team

/-- The result, and the team it sets as the winner. -/
def checkBattleEnd (playerlist : List PvpPlayer) : Bool × Option Team :=
  let redList := playerlist.filter (·.team = .one)
  let blueList := playerlist.filter (·.team = .two)
  let redDeadCount := redList.countP (·.dead)
  let blueDeadCount := blueList.countP (·.dead)
  if redList.length = 0 ∧ blueList.length > 0 then (true, some .two)
  else if blueList.length = 0 ∧ redList.length > 0 then (true, some .one)
  else if blueList.length = blueDeadCount ∧ redList.length > redDeadCount then (true, some .one)
  else if redList.length = redDeadCount ∧ blueList.length > blueDeadCount then (true, some .two)
  else (false, none)

namespace PvpBattle

/-- `set_dead` and `del_player_from_queue`, for hits, damage to oneself and falls alike. -/
def kill (b : PvpBattle) (deaths : List UInt32) : PvpBattle :=
  { b with
    playerlist := b.playerlist.map fun p => if p.id ∈ deaths then { p with dead := true } else p
    turnQueue := deaths.foldl List.erase b.turnQueue }

def delPlayer (b : PvpBattle) (id : UInt32) : PvpBattle :=
  if b.playerlist.any (·.id = id) then
    { b with
      playerlist := b.playerlist.eraseP (·.id = id)
      turnQueue := b.turnQueue.erase id
      curTurnPlayer := if b.curTurnPlayer = some id then none else b.curTurnPlayer }
  else b

def addPlayer (b : PvpBattle) (p : PvpPlayer) : PvpBattle :=
  if b.playerlist.any (·.id = p.id) then b
  else { b with playerlist := b.playerlist ++ [{ p with dead := false }] }

/-- What the handlers do with `check_battle_end`. -/
def checked (b : PvpBattle) (onEnd : BtlState) : PvpBattle :=
  let (isEnd, winTeam) := checkBattleEnd b.playerlist
  { b with winTeam, state := if isEnd then onEnd else b.state }

def gotoNextRound (b : PvpBattle) : PvpBattle := { b with curTurnPlayer := none }

/-- An empty queue is filled up with the living, and its first is taken. -/
def calcPlayerTurn (b : PvpBattle) : PvpBattle :=
  let turnQueue :=
    if b.turnQueue = [] then
      ((b.playerlist.filter (!·.dead)).insertionSort (·.turnValue ≤ ·.turnValue)).map (·.id)
    else b.turnQueue
  { b with turnQueue := turnQueue.tail, curTurnPlayer := turnQueue.head? }

/-- `on_battle_timer`, after the delay of a round; `timeout` is that the player's time is over. -/
def onBattleTimer (b : PvpBattle) (timeout : Bool) : PvpBattle :=
  match b.state with
  | .destroyed => b
  | .ended => { b with state := .destroyed }
  | .running =>
    match b.curTurnPlayer with
    | none => b.calcPlayerTurn
    | some _ => if timeout then b.gotoNextRound else b

end PvpBattle

/-- What happens to a battle: what the players send, the loss of a player without a word (he
creates another battle, or the connection is lost), and the timer. The physics of an attack is in
who dies of it. -/
inductive BattleCall where
  | playerAttack (id : UInt32) (deaths : List UInt32)
  | playerMove (id : UInt32) (falls : Bool)
  | playerCancelBattle (id : UInt32)
  | playerLost (id : UInt32)
  | synPlayerInfo (p : PvpPlayer)
  | loadResource (allLoaded : Bool)
  | playerCancelTurn
  | playerFinishTurn (allFinished : Bool)
  | battleTimer (timeout : Bool)

def battleStep (b : PvpBattle) : BattleCall → PvpBattle
  | .playerAttack id deaths =>
    if b.curTurnPlayer = some id ∧ b.state = .running then
      ((b.kill deaths).checked .ended).gotoNextRound
    else b
  | .playerMove id falls =>
    if b.curTurnPlayer = some id ∧ b.state = .running ∧ falls then
      ((b.kill [id]).checked .ended).gotoNextRound
    else b
  | .playerCancelBattle id => (b.delPlayer id).checked .destroyed
  | .playerLost id => b.delPlayer id
  | .synPlayerInfo p => b.addPlayer p
  | .loadResource allLoaded =>
    { b with state := if allLoaded then .running else b.state }.checked .destroyed
  | .playerCancelTurn => if b.state = .running then b.gotoNextRound else b
  | .playerFinishTurn allFinished =>
    if allFinished = false then b
    else if b.state = .ended then { b with state := .destroyed }
    else b.gotoNextRound
  | .battleTimer timeout => b.onBattleTimer timeout

/-- The battle starts when its players have loaded, all of them alive. -/
def startBattle (playerlist : List PvpPlayer) : PvpBattle :=
  { playerlist := playerlist.map fun p => { p with dead := false }
    turnQueue := [], curTurnPlayer := none, state := .running, winTeam := none : PvpBattle }.checked
    .destroyed

/-! ## What should hold -/

/-- A team has a living player. -/
def Lives (playerlist : List PvpPlayer) (team : Team) : Prop :=
  ∃ p ∈ playerlist, p.team = team ∧ p.dead = false

def Team.other : Team → Team
  | .one => .two
  | .two => .one

/-- The end is reported exactly where at most one team has a living player, and a team that alone
has one is the winner. -/
structure EndsRight (playerlist : List PvpPlayer) : Prop where
  ends : (checkBattleEnd playerlist).1 = true ↔ ¬(Lives playerlist .one ∧ Lives playerlist .two)
  wins : ∀ team, Lives playerlist team → ¬Lives playerlist team.other →
    (checkBattleEnd playerlist).2 = some team

/-- The battle goes on with nobody to take a turn. -/
def PvpBattle.Stuck (b : PvpBattle) : Prop :=
  b.state = .running ∧ b.turnQueue = [] ∧ ∀ p ∈ b.playerlist, p.dead = true

def BothTeams (playerlist : List PvpPlayer) : Prop :=
  (∃ p ∈ playerlist, p.team = .one) ∧ ∃ p ∈ playerlist, p.team = .two

/-! ## One question -/

section

variable {playerlist : List PvpPlayer} {team : Team}

theorem team_length_pos_iff :
    0 < (playerlist.filter (·.team = team)).length ↔ ∃ p ∈ playerlist, p.team = team := by
  simp

theorem team_countP_lt_iff :
    (playerlist.filter (·.team = team)).countP (·.dead) <
      (playerlist.filter (·.team = team)).length ↔ Lives playerlist team := by
  rw [Nat.lt_iff_le_and_ne, Ne, List.countP_eq_length]
  simp [List.countP_le_length, Lives]

theorem Lives.exists_team (lives : Lives playerlist team) : ∃ p ∈ playerlist, p.team = team := by
  obtain ⟨p, member, team, -⟩ := lives
  exact ⟨p, member, team⟩

theorem exists_living_iff : (∃ p ∈ playerlist, p.dead = false) ↔
    Lives playerlist .one ∨ Lives playerlist .two := by
  constructor
  · rintro ⟨p, member, living⟩
    cases team : p.team with
    | one => exact .inl ⟨p, member, team, living⟩
    | two => exact .inr ⟨p, member, team, living⟩
  · rintro (⟨p, member, -, living⟩ | ⟨p, member, -, living⟩)
    · exact ⟨p, member, living⟩
    · exact ⟨p, member, living⟩

open Classical in
/-- The chain of cases, by who is there and who lives. -/
theorem checkBattleEnd_eq : checkBattleEnd playerlist =
    if ¬(∃ p ∈ playerlist, p.team = .one) ∧ ∃ p ∈ playerlist, p.team = .two then (true, some .two)
    else if ¬(∃ p ∈ playerlist, p.team = .two) ∧ ∃ p ∈ playerlist, p.team = .one then
      (true, some .one)
    else if ¬Lives playerlist .two ∧ Lives playerlist .one then (true, some .one)
    else if ¬Lives playerlist .one ∧ Lives playerlist .two then (true, some .two)
    else (false, none) := by
  have none' (team : Team) : (playerlist.filter (·.team = team)).length = 0 ↔
      ¬∃ p ∈ playerlist, p.team = team := by
    rw [← team_length_pos_iff, Nat.pos_iff_ne_zero, not_not]
  have allDead (team : Team) : (playerlist.filter (·.team = team)).length =
      (playerlist.filter (·.team = team)).countP (·.dead) ↔ ¬Lives playerlist team := by
    have most := List.countP_le_length (p := (·.dead)) (l := playerlist.filter (·.team = team))
    rw [← team_countP_lt_iff]
    omega
  simp only [checkBattleEnd, none', allDead, gt_iff_lt, team_length_pos_iff, team_countP_lt_iff]

/-- Where one team is left the battle is over, whoever of it lives. -/
theorem checkBattleEnd_of_not_bothTeams (some' : playerlist ≠ []) (alone : ¬BothTeams playerlist) :
    (checkBattleEnd playerlist).1 = true := by
  obtain ⟨p, member⟩ := List.exists_mem_of_ne_nil _ some'
  rw [checkBattleEnd_eq]
  cases team : p.team with
  | one =>
    have red : ∃ p ∈ playerlist, p.team = .one := ⟨p, member, team⟩
    rw [if_neg (fun none' => none'.1 red), if_pos ⟨fun blue => alone ⟨red, blue⟩, red⟩]
  | two =>
    have blue : ∃ p ∈ playerlist, p.team = .two := ⟨p, member, team⟩
    rw [if_pos ⟨fun red => alone ⟨red, blue⟩, blue⟩]

/-- The answer is wrong only where both teams are there and all are dead. -/
theorem endsRight_iff (some' : playerlist ≠ []) : EndsRight playerlist ↔
    (BothTeams playerlist → ∃ p ∈ playerlist, p.dead = false) := by
  have one : Lives playerlist .one → ∃ p ∈ playerlist, p.team = .one := Lives.exists_team
  have two : Lives playerlist .two → ∃ p ∈ playerlist, p.team = .two := Lives.exists_team
  rw [exists_living_iff]
  constructor
  · rintro ⟨ends, -⟩ ⟨red, blue⟩
    by_contra dead
    obtain ⟨redDead, blueDead⟩ := not_or.mp dead
    simp [checkBattleEnd_eq, red, blue, redDead, blueDead] at ends
  · intro fits
    by_cases red : Lives playerlist .one
    · by_cases blue : Lives playerlist .two
      · refine ⟨by simp [checkBattleEnd_eq, red, blue, one red, two blue], fun team _ alone => ?_⟩
        cases team with
        | one => exact absurd blue alone
        | two => exact absurd red alone
      · have answer : checkBattleEnd playerlist = (true, some .one) := by
          simp only [checkBattleEnd_eq, red, blue, one red]
          simp
        refine ⟨by simp [answer, blue], fun team lives _ => ?_⟩
        cases team with
        | one => rw [answer]
        | two => exact absurd lives blue
    · by_cases blue : Lives playerlist .two
      · have answer : checkBattleEnd playerlist = (true, some .two) := by
          simp only [checkBattleEnd_eq, red, blue, two blue]
          simp
        refine ⟨by simp [answer, red], fun team lives _ => ?_⟩
        cases team with
        | one => exact absurd lives red
        | two => rw [answer]
      · have answer := checkBattleEnd_of_not_bothTeams some' fun both => not_or.mpr ⟨red, blue⟩
          (fits both)
        refine ⟨by simp [answer, red], fun team lives _ => ?_⟩
        cases team with
        | one => exact absurd lives red
        | two => exact absurd lives blue

end

/-! ## Whole battles -/

/-- The handlers that ask whether the battle is over. -/
def BattleCall.checks : BattleCall → Bool
  | .playerAttack .. => true
  | .playerMove .. => true
  | .playerCancelBattle _ => true
  | .loadResource _ => true
  | _ => false

/-- Of the players that a call leaves in the battle one is alive; or they are of one team, and the
call asks or the battle is not running; or there are none left. -/
def Spares (b : PvpBattle) (call : BattleCall) : Prop :=
  let playerlist := (battleStep b call).playerlist
  playerlist = [] ∨ (∃ p ∈ playerlist, p.dead = false) ∨
    ¬BothTeams playerlist ∧ (call.checks = true ∨ b.state ≠ .running)

/-- What the calls keep. -/
def PvpBattle.Kept (b : PvpBattle) : Prop :=
  b.playerlist = [] ∨ (∃ p ∈ b.playerlist, p.dead = false) ∨
    ¬BothTeams b.playerlist ∧ b.state ≠ .running

section

variable {b : PvpBattle} {call : BattleCall} {playerlist : List PvpPlayer}

theorem PvpBattle.Kept.right (kept : b.Kept) (some' : b.playerlist ≠ []) :
    EndsRight b.playerlist ∧ ¬b.Stuck := by
  obtain none' | living | ⟨alone, rests⟩ := kept
  · exact absurd none' some'
  · refine ⟨(endsRight_iff some').mpr fun _ => living, fun ⟨_, _, dead⟩ => ?_⟩
    obtain ⟨p, member, living⟩ := living
    rw [dead p member] at living
    cases living
  · exact ⟨(endsRight_iff some').mpr fun both => absurd both alone, fun stuck => rests stuck.1⟩

/-- After a question the battle of one team is not running. -/
theorem kept_checked (b : PvpBattle) (onEnd : BtlState) (rests : onEnd ≠ .running)
    (spared : b.playerlist = [] ∨ (∃ p ∈ b.playerlist, p.dead = false) ∨ ¬BothTeams b.playerlist) :
    (b.checked onEnd).Kept := by
  by_cases some' : b.playerlist = []
  · exact .inl some'
  · obtain none' | living | alone := spared
    · exact absurd none' some'
    · exact .inr (.inl living)
    · refine .inr (.inr ⟨alone, ?_⟩)
      simp only [PvpBattle.checked, checkBattleEnd_of_not_bothTeams some' alone]
      exact rests

/-- What a call spares, without the question. -/
theorem Spares.weaken (spares : Spares b call) : (battleStep b call).playerlist = [] ∨
    (∃ p ∈ (battleStep b call).playerlist, p.dead = false) ∨
      ¬BothTeams (battleStep b call).playerlist :=
  spares.imp_right fun spared => spared.imp_right And.left

theorem kept_timer (kept : b.Kept) (timeout : Bool) : (b.onBattleTimer timeout).Kept := by
  have rests : b.state ≠ .running → BtlState.destroyed ≠ .running := fun _ => by decide
  cases state : b.state with
  | running =>
    simp only [PvpBattle.onBattleTimer, state]
    split
    · exact kept.imp_right fun spared => spared.imp_right fun alone => ⟨alone.1, alone.2⟩
    · split
      · exact kept
      · exact kept
  | ended =>
    simp only [PvpBattle.onBattleTimer, state]
    exact kept.imp_right fun spared => spared.imp_right fun alone => ⟨alone.1, rests alone.2⟩
  | destroyed =>
    simp only [PvpBattle.onBattleTimer, state]
    exact kept

theorem kept_addPlayer (kept : b.Kept) (p : PvpPlayer) : (b.addPlayer p).Kept := by
  unfold PvpBattle.addPlayer
  split
  · exact kept
  · exact .inr (.inl ⟨{ p with dead := false }, by simp, rfl⟩)

theorem delPlayer_state (id : UInt32) : (b.delPlayer id).state = b.state := by
  unfold PvpBattle.delPlayer
  split
  · rfl
  · rfl

theorem kept_step (kept : b.Kept) (spares : Spares b call) : (battleStep b call).Kept := by
  cases call with
  | playerAttack id deaths =>
    have spared := spares.weaken
    by_cases turn : b.curTurnPlayer = some id ∧ b.state = .running
    · rw [show battleStep b (.playerAttack id deaths) = _ from if_pos turn] at spared ⊢
      exact kept_checked (b.kill deaths) .ended (by decide) spared
    · rwa [show battleStep b (.playerAttack id deaths) = b from if_neg turn]
  | playerMove id falls =>
    have spared := spares.weaken
    by_cases turn : b.curTurnPlayer = some id ∧ b.state = .running ∧ falls
    · rw [show battleStep b (.playerMove id falls) = _ from if_pos turn] at spared ⊢
      exact kept_checked (b.kill [id]) .ended (by decide) spared
    · rwa [show battleStep b (.playerMove id falls) = b from if_neg turn]
  | playerCancelBattle id => exact kept_checked _ _ (by decide) spares.weaken
  | playerLost id =>
    have asks (rests : false = true ∨ b.state ≠ .running) : (b.delPlayer id).state ≠ .running := by
      rw [delPlayer_state]
      exact rests.resolve_left Bool.false_ne_true
    exact spares.imp_right fun spared => spared.imp_right fun alone => ⟨alone.1, asks alone.2⟩
  | synPlayerInfo p => exact kept_addPlayer kept p
  | loadResource allLoaded => exact kept_checked _ _ (by decide) spares.weaken
  | playerCancelTurn =>
    by_cases running : b.state = .running
    · rwa [show battleStep b .playerCancelTurn = b.gotoNextRound from if_pos running]
    · rwa [show battleStep b .playerCancelTurn = b from if_neg running]
  | playerFinishTurn allFinished =>
    by_cases waits : allFinished = false
    · rwa [show battleStep b (.playerFinishTurn allFinished) = b from if_pos waits]
    · have goesOn : battleStep b (.playerFinishTurn allFinished) = _ := if_neg waits
      rw [goesOn]
      split
      · exact kept.imp_right fun spared => spared.imp_right fun alone =>
        ⟨alone.1, show BtlState.destroyed ≠ .running by decide⟩
      · exact kept
  | battleTimer timeout => exact kept_timer kept timeout

theorem kept_start : (startBattle playerlist).Kept := by
  refine kept_checked _ _ (by decide) ?_
  cases playerlist with
  | nil => exact .inl rfl
  | cons p rest => exact .inr (.inl ⟨{ p with dead := false }, by simp, rfl⟩)

/-- In a battle in which every call spares somebody, the end is reported where it should be, and
the battle never is stuck. -/
theorem battle_endsRight (playerlist : List PvpPlayer) (b : PvpBattle)
    (run : Runs.Reaches battleStep Spares (startBattle playerlist) b) (some' : b.playerlist ≠ []) :
    EndsRight b.playerlist ∧ ¬b.Stuck :=
  (run.invariant kept_start kept_step).right some'

end

/-- One player of each team. -/
def duel : List PvpPlayer := [⟨1, .one, false, 0⟩, ⟨2, .two, false, 0⟩]

/-- Player 1 takes his turn and kills the other one. -/
theorem battle_endsRight_duel :
    let b := battleStep (battleStep (startBattle duel) (.battleTimer false)) (.playerAttack 1 [2])
    EndsRight b.playerlist ∧ ¬b.Stuck := by
  refine battle_endsRight duel _ (.call (.call .refl ?_) ?_) (by decide)
  · exact .inr (.inl ⟨⟨1, .one, false, 0⟩, by decide, rfl⟩)
  · exact .inr (.inl ⟨⟨1, .one, false, 0⟩, by decide, rfl⟩)

/-- Player 1 takes his turn, and kills the other one and himself. -/
def bothDead : PvpBattle :=
  battleStep (battleStep (startBattle duel) (.battleTimer false)) (.playerAttack 1 [1, 2])

/-- The end is not reported, and no turn comes again. -/
theorem battle_stuck_duel : ∃ b, Runs.Reaches battleStep (fun _ _ => True) (startBattle duel) b ∧
    b.playerlist ≠ [] ∧ ¬EndsRight b.playerlist ∧ b.Stuck ∧
      ∀ timeout, battleStep b (.battleTimer timeout) = b := by
  have dead : ∀ p ∈ bothDead.playerlist, p.dead = true := by decide
  refine ⟨bothDead, (Runs.Reaches.refl.call trivial).call trivial, by decide, fun right => ?_,
    ⟨by decide, by decide, dead⟩, fun _ => rfl⟩
  have nobody : ¬(Lives bothDead.playerlist .one ∧ Lives bothDead.playerlist .two) := by
    rintro ⟨⟨p, member, -, living⟩, -⟩
    rw [dead p member] at living
    cases living
  exact absurd (right.ends.mpr nobody) (by decide)

end Taomee.PeaBattle
