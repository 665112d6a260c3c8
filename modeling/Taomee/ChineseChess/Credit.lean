import Taomee.ChineseChess.Winner

/-!
# Chinese chess: credit

`send_gamescore` is called where a game ends. It gives credit once `nsteps_` is above 25, and
`nsteps_` counts the moves of the game in a `uint8_t`.
-/

namespace Taomee.ChineseChess

open ChessGame Rule Runs

/-- What a `game_score_t` is filled with: nothing, -1 for an escape, or the game's intelligence,
experience and coins at a rate in tenths. -/
inductive Score where
  | none
  | escape
  | credit (rate : Nat)
  deriving DecidableEq

def rates : List Nat := [10, 4, 5, 5, 10, 4, 0, 10, 4, 10]

namespace Rule

/-- `credit_cond_met`. -/
def creditCondMet (rule : Rule) : Bool := rule.nsteps > 25

/-- The score of one player. `own` says that it is the player that the call is about, and `escape`
is `IS_SPRITE_ESCAPE` of that one. -/
def gamescore (rule : Rule) (own escape : Bool) : Score :=
  if rule.creditCondMet || (escape && own) then
    if own then
      if escape then .escape else .credit (rates.getD (rule.flag - 1) 0)
    else .credit (rates.getD rule.flag 0)
  else .none

/-- `send_gamescore`: what is submitted for each player of the group. -/
def sendGamescore (rule : Rule) (group : Group) (p : Sprite) (escape : Bool) :
    List (UInt32 × Score) :=
  group.players.map fun uid => (uid, rule.gamescore (uid = p.id) escape)

end Rule

/-- The scores that a message has sent: those of a game that it ends. -/
def sentScores (group : Group) (game : Game CnChess) (message : Message) (escape : Bool) :
    List (UInt32 × Score) :=
  let reply := game.handleData cnchess group message.1 message.2
  if reply.err > 0 then reply.game.rule.rule.sendGamescore group message.1 escape else []

/-- The message is a move that `place_chess` accepts. -/
def accepts (game : Game CnChess) : Message → Bool
  | (p, .playerAction body) => game.MayMove p body ∧ (game.rule.placeChess p body).1 = 0
  | _ => false

/-- A game, with the number of its accepted moves. -/
structure Moves where
  game : Game CnChess
  accepted : Nat

def Moves.init (group : Group) (cntneeded : Nat) : Moves :=
  ⟨.init cnchess (.init group.players) cntneeded, 0⟩

def Moves.step (group : Group) (tally : Moves) (message : Message) : Moves :=
  ⟨handle group tally.game message, tally.accepted + if accepts tally.game message then 1 else 0⟩

/-- The games of a group as they go on. -/
abbrev Tallied (group : Group) : Moves → Prop :=
  fun tally => ∃ cntneeded,
    Reaches (Moves.step group) (fun tally => GoesOn group tally.game) (.init group cntneeded) tally

/-! ## The counter -/

section Counter

variable {group : Group} {game : Game CnChess} {p : Sprite} {tally : Moves}

theorem Rule.carryOut_nsteps (rule : Rule) (side : Side) (move : Move) :
    (rule.carryOut side move).nsteps = rule.nsteps := by
  have kept : (rule.relocate side move).nsteps = rule.nsteps := by
    unfold relocate adjustChessmap
    dsimp only
    split <;> split <;> rfl
  unfold carryOut
  dsimp only
  split
  · exact kept
  · exact kept

/-- A move is refused, which changes nothing, or it counts. -/
theorem CnChess.placeChess_cases (state : CnChess) (p : Sprite) (body : List UInt8) :
    ((state.placeChess p body).1 ≠ 0 ∧ (state.placeChess p body).2.2 = state) ∨
      ∃ move out, state.rule.Passes (sideOf p) body move ∧
        state.placeChess p body = (0, out,
          { state with
            rule := { state.rule.carryOut (sideOf p) move with
              nsteps := (state.rule.nsteps + 1) % 256 } }) := by
  unfold CnChess.placeChess
  obtain ⟨err, refused⟩ | ⟨move, passes, -⟩ := state.rule.placeChess_cases (sideOf p) body
  · have nonzero : err ≠ 0 := by
      rintro rfl
      revert refused
      unfold Rule.placeChess
      split
      · simp
      · split
        · simp
        · split <;> simp
    rw [refused]
    exact .inl ⟨nonzero, rfl⟩
  · obtain ⟨out, carried⟩ := placeChess_of_passes passes
    rw [carried, Rule.carryOut_nsteps]
    exact .inr ⟨move, _, passes, rfl⟩

/-- What a game makes of a move is what its rule makes of it. -/
theorem handlePlayerAction_rule {body : List UInt8} (may : game.MayMove p body) :
    (game.handlePlayerAction cnchess p body).game.rule.rule =
      (game.rule.placeChess p body).2.2.rule := by
  unfold Game.handlePlayerAction
  rw [if_neg (not_not.mpr may)]
  dsimp only
  split
  · rfl
  · split
    · rfl
    · exact (settle_rule _ p _).1

theorem handlePlayerAction_nsteps (body : List UInt8) :
    (game.handlePlayerAction cnchess p body).game.rule.rule.nsteps =
      if accepts game (p, .playerAction body) then (game.rule.rule.nsteps + 1) % 256
      else game.rule.rule.nsteps := by
  by_cases may : game.MayMove p body
  · rw [handlePlayerAction_rule may]
    obtain ⟨refused, same⟩ | ⟨move, out, -, placed⟩ := game.rule.placeChess_cases p body
    · simp [accepts, refused, same]
    · simp [accepts, may, placed]
  · simp [accepts, may, Game.handlePlayerAction]

/-- A decision changes the flag at most. -/
theorem confirm_nsteps (game : Game CnChess) (p : Sprite) :
    (game.confirm cnchess p).game.rule.rule.nsteps = game.rule.rule.nsteps := by
  simp only [Game.confirm, cnchess, CnChess.handleConfirmedReq]
  split
  case isTrue =>
    split
    case isTrue => rfl
    case isFalse => split <;> rfl
  case isFalse => rfl

theorem handleData_nsteps (command : Command) :
    (game.handleData cnchess group p command).game.rule.rule.nsteps =
      if accepts game (p, command) then (game.rule.rule.nsteps + 1) % 256
      else game.rule.rule.nsteps := by
  cases command with
  | playerAction body => exact handlePlayerAction_nsteps body
  | playerReq body =>
    simp only [Game.handleData, Game.handlePlayerReq]
    split <;> rfl
  | notifyPlayerReq body =>
    simp only [Game.handleData, Game.handleRspPlayerReq]
    split
    case isTrue => rfl
    case isFalse => exact confirm_nsteps _ p
  | playerLeave =>
    simp only [Game.handleData, Game.handlePlayerLeave, cnchess, CnChess.handlePlayerLeave]
    cases p.isPlayer with
    | true => rfl
    | false =>
      simp only [Bool.false_eq_true, if_false, ne_eq, not_true_eq_false]
      split
      case isTrue => exact confirm_nsteps _ p
      case isFalse => rfl
  | other => rfl

theorem Moves.step_counts (counts : tally.game.rule.rule.nsteps = tally.accepted % 256)
    (message : Message) :
    (tally.step group message).game.rule.rule.nsteps =
      (tally.step group message).accepted % 256 := by
  obtain ⟨p, command⟩ := message
  have counted := @handleData_nsteps group tally.game p command
  simp only [Moves.step, handle, counted]
  split <;> omega

/-- The counter of a game is the number of its accepted moves modulo 256. -/
theorem Tallied.nsteps (tallied : Tallied group tally) :
    tally.game.rule.rule.nsteps = tally.accepted % 256 := by
  obtain ⟨cntneeded, run⟩ := tallied
  apply run.invariant
  · rfl
  · exact fun counts _ => Moves.step_counts counts _

end Counter

/-! ## Who gets credit -/

/-- The player is submitted a score at a rate. The rate 0.0 of one who leaves counts as well. -/
def Credited (scores : List (UInt32 × Score)) (uid : UInt32) : Prop :=
  ∃ rate, (uid, .credit rate) ∈ scores

/-- The players who do not escape get credit if and only if more than 25 moves were accepted. -/
def CreditsRight (group : Group) (tally : Moves) (message : Message) (escape : Bool) : Prop :=
  ∀ uid ∈ group.players, ¬ (uid = message.1.id ∧ escape = true) →
    (Credited (sentScores group tally.game message escape) uid ↔
      25 < (tally.step group message).accepted)

section Credit

variable {group : Group} {tally : Moves} {message : Message} {escape : Bool} {uid : UInt32}

/-- There is a player beside the one that a call is about. -/
theorem exists_other (group : Group) (uid : UInt32) : ∃ other ∈ group.players, other ≠ uid := by
  by_contra none
  push Not at none
  have short : group.players.length ≤ 1 := by
    have same := List.eq_replicate_iff.mpr ⟨rfl, none⟩
    have nodup := group.nodup
    rw [same, List.nodup_replicate] at nodup
    exact nodup
  have least := group.least
  omega

theorem credited_iff (rule : Rule) (member : uid ∈ group.players) (p : Sprite)
    (stays : ¬ (uid = p.id ∧ escape = true)) :
    Credited (rule.sendGamescore group p escape) uid ↔ 25 < rule.nsteps := by
  have scores (score : Score) : (uid, score) ∈ rule.sendGamescore group p escape ↔
      score = rule.gamescore (uid = p.id) escape := by
    constructor
    · intro listed
      obtain ⟨_, -, same⟩ := List.mem_map.mp listed
      obtain ⟨rfl, rfl⟩ := Prod.mk.inj same
      rfl
    · rintro rfl
      exact List.mem_map_of_mem member
  simp only [Credited, scores, gamescore, creditCondMet]
  by_cases enough : 25 < rule.nsteps
  · refine iff_of_true ?_ enough
    by_cases own : uid = p.id
    · have stays' : escape = false := by simpa [own] using stays
      exact ⟨rates.getD (rule.flag - 1) 0, by simp [enough, own, stays']⟩
    · exact ⟨rates.getD rule.flag 0, by simp [enough, own]⟩
  · refine iff_of_false ?_ enough
    rintro ⟨rate, same⟩
    have none : (escape && decide (uid = p.id)) = false := by
      by_contra both
      rw [Bool.not_eq_false, Bool.and_eq_true, decide_eq_true_iff] at both
      exact stays both.symm
    simp [enough, none] at same

/-- In every game, when it ends: the players who do not escape get credit if and only if more than
25 moves were accepted, exactly when the number of the accepted moves, modulo 256, is on the same
side of 25. -/
theorem creditsRight_iff (tallied : Tallied group tally)
    (ends : 0 < (tally.game.handleData cnchess group message.1 message.2).err) :
    CreditsRight group tally message escape ↔
      ((tally.step group message).accepted ≤ 25 ∨
        25 < (tally.step group message).accepted % 256) := by
  have counts := @Moves.step_counts group tally tallied.nsteps message
  have sent : sentScores group tally.game message escape =
      (tally.step group message).game.rule.rule.sendGamescore group message.1 escape := by
    rw [sentScores, if_pos ends]
    rfl
  have credited (uid : UInt32) (member : uid ∈ group.players)
      (stays : ¬ (uid = message.1.id ∧ escape = true)) :
      Credited (sentScores group tally.game message escape) uid ↔
        25 < (tally.step group message).accepted % 256 := by
    rw [sent, credited_iff _ member _ stays, counts]
  have least := Nat.mod_le (tally.step group message).accepted 256
  constructor
  · intro right
    obtain ⟨uid, member, other⟩ := exists_other group message.1.id
    have stays : ¬ (uid = message.1.id ∧ escape = true) := fun both => other both.1
    have both := (credited uid member stays).symm.trans (right uid member stays)
    omega
  · intro fits uid member stays
    rw [credited uid member stays]
    omega

end Credit

/-! ## A long game -/

section Long

variable {group : Group} {game : Game CnChess} {nsteps accepted : Nat}

/-- A game with another value of the counter. -/
def withSteps (game : Game CnChess) (nsteps : Nat) : Game CnChess :=
  { game with rule := { game.rule with rule := { game.rule.rule with nsteps := nsteps } } }

/-- A move that is carried out, and the next player's turn, without the counter. -/
def quiet (game : Game CnChess) (side : Side) (move : Move) : Game CnChess :=
  { game with rule := { game.rule with rule := game.rule.rule.carryOut side move } }.advance cnchess

theorem Rule.carryOut_withSteps (rule : Rule) (side : Side) (move : Move) (nsteps : Nat) :
    { rule with nsteps := nsteps }.carryOut side move =
      { rule.carryOut side move with nsteps := nsteps } := by
  have adjusted : { rule with nsteps := nsteps }.adjustChessmap side move =
      { rule.adjustChessmap side move with nsteps := nsteps } := by
    unfold adjustChessmap
    dsimp only
    split
    · split <;> rfl
    · split <;> rfl
  have same : { rule with nsteps := nsteps }.relocate side move =
      { rule.relocate side move with nsteps := nsteps } := by
    unfold relocate
    rw [adjusted]
  have faces : { rule.relocate side move with nsteps := nsteps }.generalFaceToFace =
      (rule.relocate side move).generalFaceToFace := rfl
  unfold carryOut
  rw [same]
  dsimp only
  rw [faces]
  split <;> rfl

/-- A move that settles nothing. -/
theorem Tallied.quiet (tallied : Tallied group ⟨withSteps game nsteps, accepted⟩) (p : Sprite)
    (body : List UInt8) (move : Move) (member : Member group p) (may : game.MayMove p body)
    (passes : game.rule.rule.Passes (sideOf p) body move)
    (calm : (game.rule.rule.carryOut (sideOf p) move).flag = 0) :
    Tallied group ⟨withSteps (quiet game (sideOf p) move) ((nsteps + 1) % 256), accepted + 1⟩ := by
  have also : (withSteps game nsteps).rule.rule.Passes (sideOf p) body move :=
    ⟨passes.reads, passes.valid, passes.movable⟩
  have mayAlso : (withSteps game nsteps).MayMove p body := may
  have after : (withSteps game nsteps).rule.rule.carryOut (sideOf p) move =
      { game.rule.rule.carryOut (sideOf p) move with nsteps := nsteps } :=
    game.rule.rule.carryOut_withSteps (sideOf p) move nsteps
  obtain ⟨checks, carried⟩ := placeChess_of_passes also
  rw [after] at carried
  obtain ⟨out, placed⟩ : ∃ out, (withSteps game nsteps).rule.placeChess p body = (0, out,
      { game.rule with
        rule := { game.rule.rule.carryOut (sideOf p) move with
          nsteps := (nsteps + 1) % 256 } }) := by
    unfold CnChess.placeChess
    rw [carried]
    exact ⟨_, rfl⟩
  have handled : (withSteps game nsteps).handlePlayerAction cnchess p body =
      ⟨0, [.playerAction p.id body out],
        withSteps (ChineseChess.quiet game (sideOf p) move) ((nsteps + 1) % 256)⟩ := by
    unfold Game.handlePlayerAction
    rw [if_neg (not_not.mpr mayAlso)]
    dsimp only [cnchess]
    rw [placed, if_neg (by simp), if_neg (by simp), Game.settle, if_neg (by simp [calm]),
      if_neg (by simp [calm])]
    rfl
  have counted : accepts (withSteps game nsteps) (p, .playerAction body) = true := by
    simp [accepts, mayAlso, placed]
  obtain ⟨cntneeded, run⟩ := tallied
  have goesOn : GoesOn group (withSteps game nsteps) (p, .playerAction body) := by
    refine ⟨member, ?_⟩
    dsimp only [Game.handleData]
    rw [handled]
  refine ⟨cntneeded, ?_⟩
  have next := run.call goesOn
  rw [Moves.step, counted, handle] at next
  dsimp only [Game.handleData] at next
  rw [handled] at next
  exact next

end Long

attribute [ext] Rule CnChess Game

/-- Both sides move a chariot to and fro. -/
def begun : Game CnChess := .init cnchess (.init pair.players) 0

def forth : Game CnChess :=
  quiet (quiet begun .red ⟨0, 0, 1, 0⟩) .black ⟨9, 0, 8, 0⟩

def andBack : Game CnChess :=
  quiet (quiet forth .red ⟨1, 0, 0, 0⟩) .black ⟨8, 0, 9, 0⟩

theorem quiet_rule (game : Game CnChess) (side : Side) (move : Move) :
    (quiet game side move).rule.rule = game.rule.rule.carryOut side move := rfl

theorem andBack_board : andBack.rule.rule.board = begun.rule.rule.board := by
  have corners : begun.rule.rule.board 1 0 = 0 ∧ begun.rule.rule.board 8 0 = 0 := by
    decide +kernel
  funext i j
  simp only [andBack, forth, quiet_rule]
  by_cases column : j = 0
  · subst column
    by_cases near : i = 0 ∨ i = 1 ∨ i = 8 ∨ i = 9
    · rcases near with rfl | rfl | rfl | rfl <;> simp [setCell, corners]
    · simp only [not_or] at near
      simp [setCell, near]
  · simp [setCell, column]

/-- After four moves the game is where it was, but for the counter. -/
theorem andBack_eq : andBack = begun := by
  ext : 1
  case rule =>
    ext : 1
    case rule =>
      ext : 1
      case board => exact andBack_board
      case flag => decide +kernel
      case nsteps => decide +kernel
      case chessMultimap =>
        funext side
        cases side <;> decide +kernel
      case generalPos =>
        funext side
        cases side <;> decide +kernel
    case moveOrder => decide +kernel
    case nxmover => decide +kernel
  case nxmover => decide +kernel
  case reqhandler => decide +kernel

theorem Tallied.andBack {nsteps accepted : Nat}
    (tallied : Tallied pair ⟨withSteps begun nsteps, accepted⟩) :
    Tallied pair ⟨withSteps begun ((nsteps + 4) % 256), accepted + 4⟩ := by
  have first := tallied.quiet redPlayer [0, 0, 1, 0] ⟨0, 0, 1, 0⟩ (by decide)
    (by decide +kernel) ⟨by decide, by decide +kernel, by decide +kernel⟩ (by decide +kernel)
  have second := first.quiet blackPlayer [9, 0, 8, 0] ⟨9, 0, 8, 0⟩ (by decide)
    (by decide +kernel) ⟨by decide, by decide +kernel, by decide +kernel⟩ (by decide +kernel)
  have third := second.quiet redPlayer [1, 0, 0, 0] ⟨1, 0, 0, 0⟩ (by decide)
    (by decide +kernel) ⟨by decide, by decide +kernel, by decide +kernel⟩ (by decide +kernel)
  have fourth := third.quiet blackPlayer [8, 0, 9, 0] ⟨8, 0, 9, 0⟩ (by decide)
    (by decide +kernel) ⟨by decide, by decide +kernel, by decide +kernel⟩ (by decide +kernel)
  have back : Tallied pair ⟨withSteps ChineseChess.andBack
      (((((nsteps + 1) % 256 + 1) % 256 + 1) % 256 + 1) % 256), accepted + 4⟩ := fourth
  rw [andBack_eq] at back
  have same : ((((nsteps + 1) % 256 + 1) % 256 + 1) % 256 + 1) % 256 = (nsteps + 4) % 256 := by
    omega
  rwa [same] at back

/-- The game can go on for ever. -/
theorem tallied_begun (rounds : Nat) :
    Tallied pair ⟨withSteps begun (4 * rounds % 256), 4 * rounds⟩ := by
  induction rounds with
  | zero => exact ⟨0, .refl⟩
  | succ rounds ih =>
    have next := ih.andBack
    have steps : (4 * rounds % 256 + 4) % 256 = 4 * (rounds + 1) % 256 := by omega
    rwa [steps, ← Nat.mul_succ] at next

/-- 28 moves are accepted, red leaves, and black gets credit. -/
theorem creditsRight_iff_moves :
    Tallied pair ⟨withSteps begun 28, 28⟩ ∧
      CreditsRight pair ⟨withSteps begun 28, 28⟩ (redPlayer, .playerLeave) true ∧
      sentScores pair (withSteps begun 28) (redPlayer, .playerLeave) true =
        [(11, .escape), (22, .credit 10)] :=
  ⟨tallied_begun 7,
    (creditsRight_iff (tallied_begun 7) (by decide +kernel)).mpr (.inr (by decide +kernel)),
    by decide +kernel⟩

/-- 256 moves are accepted, red leaves, and black gets nothing. -/
theorem no_credit_after_256 :
    ¬ ∀ (group : Group) (tally : Moves) (message : Message) (escape : Bool), Tallied group tally →
      0 < (tally.game.handleData cnchess group message.1 message.2).err →
      CreditsRight group tally message escape := by
  intro claim
  have right := claim pair ⟨withSteps begun 0, 256⟩ (redPlayer, .playerLeave) true
    (tallied_begun 64) (by decide +kernel)
  have scores : sentScores pair (withSteps begun 0) (redPlayer, .playerLeave) true =
      [(11, .escape), (22, .none)] := by
    decide +kernel
  obtain ⟨rate, listed⟩ := (right 22 (by decide) (by decide)).mpr (by decide +kernel)
  rw [scores] at listed
  simp at listed

end Taomee.ChineseChess
