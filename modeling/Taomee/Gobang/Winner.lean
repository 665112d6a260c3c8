import Taomee.Gobang.Five
import Taomee.Library.Runs

/-!
# Gobang: who wins

A history keeps the requests that wait for an answer beside the game, as the messages make them.
A result that the game announces is compared with the messages behind it.
-/

namespace Taomee.Gobang

open ChessGame (Sprite)
open Runs

abbrev Message := Sprite × Command

/-- The sprites of the group: its two players, and watchers. -/
def Member (group : Group) (p : Sprite) : Prop := p.isPlayer = true → p.id ∈ group.players

/-- The request of each player that waits for an answer. -/
abbrev Asked := UInt32 → Option UInt8

/-- The message answers the request of `asker` with this result. -/
def Answers (message : Message) (asker : UInt32) (result : UInt8) : Prop :=
  ∃ body, message.2 = .notifyPlayerReq body ∧ unpackRsp body = some (asker, result)

/-- A player asks to draw (1) or to surrender (2), unless an earlier request of that player is
still open; an answer that agrees or rejects closes a request. -/
def nextAsked (asked : Asked) (p : Sprite) : Command → Asked
  | .playerReq [reason] =>
    if p.isPlayer ∧ (reason = 1 ∨ reason = 2) ∧ asked p.id = none then
      Function.update asked p.id (some reason)
    else asked
  | .notifyPlayerReq body =>
    match unpackRsp body with
    | none => asked
    | some (uid, result) =>
      if p.isPlayer ∧ asked uid ≠ none ∧ (asked uid = some result ∨ result = 0) then
        Function.update asked uid none
      else asked
  | _ => asked

structure History where
  game : Game
  asked : Asked

namespace History

def init (group : Group) : History := ⟨.init group, fun _ => none⟩

def reply (group : Group) (history : History) (message : Message) : Reply :=
  history.game.handleData group message.1 message.2

def step (group : Group) (history : History) (message : Message) : History :=
  ⟨(history.reply group message).game, nextAsked history.asked message.1 message.2⟩

end History

/-- A message of a member that does not end the game. -/
def GoesOn (group : Group) (history : History) (message : Message) : Prop :=
  Member group message.1 ∧ (history.reply group message).err ≤ 0

/-- The sender has set a stone that makes five of the sender's stones in a row. -/
def CompletesFive (group : Group) (history : History) (message : Message) : Prop :=
  ∃ body row col, message.2 = .gobangAction body ∧ history.game.chessboard row col = 0 ∧
    Five (history.reply group message).game.chessboard (chesscolor group message.1.id) row col

/-- The sender has set the last stone of the board. -/
def FillsBoard (group : Group) (history : History) (message : Message) : Prop :=
  ∃ body, message.2 = .gobangAction body ∧ Full (history.reply group message).game.chessboard

/-- The sender, a player, has agreed to what the other player asked for. -/
def AgreesToOther (group : Group) (history : History) (message : Message) (result : UInt8) :
    Prop :=
  message.1.isPlayer = true ∧ ∃ asker ∈ group.players, asker ≠ message.1.id ∧
    history.asked asker = some result ∧ Answers message asker result

/-- The reasons for a result: the uid 0 stands for a draw. -/
structure Justified (group : Group) (history : History) (message : Message) : Prop where
  wins : ∀ uid coords, .winner uid coords ∈ (history.reply group message).packets → uid ≠ 0 →
    uid = message.1.id ∧
      (CompletesFive group history message ∨ AgreesToOther group history message 2)
  draws : ∀ coords, .winner 0 coords ∈ (history.reply group message).packets →
    FillsBoard group history message ∨ AgreesToOther group history message 1

/-- A player agrees to the own request. -/
def AgreesToOwn (history : History) (message : Message) : Prop :=
  message.1.isPlayer = true ∧ ∃ result, result ≠ 0 ∧
    history.asked message.1.id = some result ∧ Answers message message.1.id result

/-! ## The invariant -/

/-- Only requests of players are open, to draw or to surrender. -/
def Open (group : Group) (asked : Asked) : Prop :=
  ∀ uid result, asked uid = some result → uid ∈ group.players ∧ (result = 1 ∨ result = 2)

structure Sound (group : Group) (history : History) : Prop where
  req : history.game.req = history.asked
  askers : Open group history.asked
  mover : history.game.nxmover ∈ group.players
  nsteps : history.game.nsteps = stones history.game.chessboard

theorem zero_not_player (group : Group) : 0 ∉ group.players := by
  simp only [Group.players, List.mem_cons, List.not_mem_nil, or_false, not_or]
  exact ⟨group.nonzero0.symm, group.nonzero1.symm⟩

theorem chesscolor_ne_zero {group : Group} {uid : UInt32} (player : uid ∈ group.players) :
    chesscolor group uid ≠ 0 := by
  simp only [Group.players, List.mem_cons, List.not_mem_nil, or_false] at player
  unfold chesscolor
  split
  case isTrue => decide
  case isFalse other =>
    rw [if_pos (player.resolve_left other)]
    decide

section Steps

variable {group : Group} {game : Game} {p : Sprite} {body : List UInt8} {row col : Nat}

theorem placeChess_eq {placed : Game} (places : game.placeChess group row col = some placed) :
    row < maxrows ∧ col < maxcols ∧ game.chessboard row col = 0 ∧
      placed = { game with
        chessboard := fun i j =>
          if i = row ∧ j = col then chesscolor group game.nxmover else game.chessboard i j } := by
  unfold Game.placeChess at places
  split at places
  case isTrue => cases places
  case isFalse free =>
    simp only [not_or, Nat.not_le, not_not] at free
    exact ⟨free.1, free.2.1, free.2.2, (Option.some.inj places).symm⟩

theorem setNxmover_mem (mover : game.nxmover ∈ group.players) :
    (game.setNxmover group).nxmover ∈ group.players := by
  unfold Game.setNxmover
  split
  case h_1 uid found => exact List.mem_of_find?_eq_some found
  case h_2 => exact mover

@[simp] theorem setNxmover_rest (group : Group) (game : Game) :
    (game.setNxmover group).req = game.req ∧ (game.setNxmover group).nsteps = game.nsteps ∧
      (game.setNxmover group).chessboard = game.chessboard := by
  unfold Game.setNxmover
  split <;> exact ⟨rfl, rfl, rfl⟩

/-- A stone of the mover at `row`, `col`, counted. -/
def placed (group : Group) (game : Game) (row col : Nat) : Game :=
  { game with
    nsteps := (game.nsteps + 1) % 256
    chessboard := fun i j =>
      if i = row ∧ j = col then chesscolor group game.nxmover else game.chessboard i j }

/-- An action is refused, or sets the stone of the sender, whose turn it is. -/
theorem handlePlayerAction_cases (group : Group) (game : Game) (p : Sprite) (body : List UInt8) :
    game.handlePlayerAction group p body = ⟨-1, [], game⟩ ∨
      ∃ row col, row < maxrows ∧ col < maxcols ∧ game.chessboard row col = 0 ∧
        game.nxmover = p.id ∧
        ((∃ five, Five (placed group game row col).chessboard (chesscolor group p.id) row col ∧
            game.handlePlayerAction group p body = ⟨gerEndOfGame,
              [.action p.id row col, .winner p.id five],
              { placed group game row col with nxmover := 0 }⟩) ∨
          ((placed group game row col).draw = true ∧
            game.handlePlayerAction group p body = ⟨gerPlayerReqDraw,
              [.action p.id row col, .winner 0 []],
              { placed group game row col with nxmover := 0 }⟩) ∨
          game.handlePlayerAction group p body =
            ⟨0, [.action p.id row col], (placed group game row col).setNxmover group⟩) := by
  unfold Game.handlePlayerAction
  split
  case h_2 => exact .inl rfl
  case h_1 apkg player reads =>
    split
    case isTrue => exact .inl rfl
    case isFalse turn =>
      simp only [not_or, not_not] at turn
      split
      case h_1 => exact .inl rfl
      case h_2 after places =>
        obtain ⟨inRow, inCol, empty, rfl⟩ := placeChess_eq places
        refine .inr ⟨apkg.row, apkg.col, inRow, inCol, empty, turn.2.trans turn.1.symm, ?_⟩
        obtain ⟨adjchesses, ends, five⟩ := determineWinner_sound
          (placed group game apkg.row apkg.col).chessboard ⟨inRow, inCol⟩
        have own : (placed group game apkg.row apkg.col).chessboard apkg.row apkg.col =
            chesscolor group p.id := by
          simp [placed, turn]
        rw [own] at five
        simp only [placed] at ends five ⊢
        rw [ends]
        cases adjchesses with
        | nil =>
          dsimp only
          split
          case isTrue draw => exact .inr (.inl ⟨draw, rfl⟩)
          case isFalse => exact .inr (.inr rfl)
        | cons stone stones => exact .inl ⟨_, five (List.cons_ne_nil stone stones), rfl⟩

theorem stones_placed (inRow : row < maxrows) (inCol : col < maxcols)
    (empty : game.chessboard row col = 0) (mover : game.nxmover ∈ group.players)
    (counted : game.nsteps = stones game.chessboard) :
    (placed group game row col).nsteps = stones (placed group game row col).chessboard := by
  have more : stones (placed group game row col).chessboard = stones game.chessboard + 1 := by
    refine stones_place inRow inCol empty ?_ fun i j other => ?_
    · simpa [placed] using chesscolor_ne_zero mover
    · simp [placed, other]
  have few := stones_le (placed group game row col).chessboard
  have bound : maxsteps = 225 := rfl
  rw [more] at few ⊢
  simp only [placed]
  omega

theorem open_nextAsked {asked : Asked} (open_ : Open group asked) (member : Member group p)
    (command : Command) : Open group (nextAsked asked p command) := by
  intro uid result
  unfold nextAsked
  split
  case h_1 reason =>
    split
    case isFalse => exact open_ uid result
    case isTrue asks =>
      by_cases same : uid = p.id
      · subst same
        rw [Function.update_self]
        rintro ⟨rfl⟩
        exact ⟨member asks.1, asks.2.1⟩
      · rw [Function.update_of_ne same]
        exact open_ uid result
  case h_2 body =>
    cases unpackRsp body with
    | none => exact open_ uid result
    | some answer =>
      obtain ⟨asker, said⟩ := answer
      dsimp only
      split
      case isFalse => exact open_ uid result
      case isTrue =>
        by_cases same : uid = asker
        · subst same
          rw [Function.update_self]
          exact nofun
        · rw [Function.update_of_ne same]
          exact open_ uid result
  case h_3 => exact open_ uid result

/-- A request changes nothing but `m_req`, which it changes as it should. -/
theorem handlePlayerReq_eq (game : Game) (p : Sprite) (body : List UInt8) :
    (game.handlePlayerReq p body).game =
        { game with req := nextAsked game.req p (.playerReq body) } ∧
      ∀ uid coords, .winner uid coords ∉ (game.handlePlayerReq p body).packets := by
  cases player : p.isPlayer with
  | false =>
    have refused : nextAsked game.req p (.playerReq body) = game.req := by
      unfold nextAsked
      split <;> simp_all
    rw [refused]
    simp [Game.handlePlayerReq, player]
  | true =>
    rcases body with _ | ⟨reason, _ | ⟨second, rest⟩⟩
    · simp [Game.handlePlayerReq, nextAsked]
    · by_cases valid : reason = 1 ∨ reason = 2
      · have asks : ¬ (reason ≠ 1 ∧ reason ≠ 2) := fun neither => valid.elim neither.1 neither.2
        by_cases free : game.req p.id = none
        · simp [Game.handlePlayerReq, player, nextAsked, asks, Game.addPlayerReq, free]
        · simp [Game.handlePlayerReq, player, nextAsked, Game.addPlayerReq, free]
      · have wrong : reason ≠ 1 ∧ reason ≠ 2 := not_or.mp valid
        simp [Game.handlePlayerReq, player, nextAsked, wrong]
    · simp [Game.handlePlayerReq, nextAsked]

/-- A response changes nothing but `m_req`, which it changes as it should. -/
theorem handleRspPlayerReq_game (open_ : Open group game.req) :
    (game.handleRspPlayerReq p body).game =
      { game with req := nextAsked game.req p (.notifyPlayerReq body) } := by
  simp only [Game.handleRspPlayerReq, nextAsked]
  cases p.isPlayer with
  | false => cases unpackRsp body <;> simp
  | true =>
    cases unpackRsp body with
    | none => simp
    | some answer =>
      obtain ⟨asker, said⟩ := answer
      cases asks : game.req asker with
      | none => simp [Game.chkPlayerReq, asks]
      | some reason =>
        have small : reason = said ∨ said = 0 → ¬ said > 2 := by
          rintro (rfl | rfl)
          · rcases (open_ asker reason asks).2 with rfl | rfl <;> decide
          · decide
        by_cases agrees : reason = said ∨ said = 0
        · simp only [small agrees, Game.chkPlayerReq, asks, agrees, if_true, if_false]
          split
          case isTrue => simp [agrees]
          case isFalse => split <;> simp [agrees]
        · by_cases large : said > 2
          · simp [large, asks, agrees]
          · simp [Game.chkPlayerReq, asks, agrees]

/-- The results that a response announces. -/
theorem handleRspPlayerReq_winner (uid : UInt32) (coords : List (Nat × Nat)) :
    .winner uid coords ∈ (game.handleRspPlayerReq p body).packets ↔
      p.isPlayer = true ∧ coords = [] ∧ ∃ asker result, unpackRsp body = some (asker, result) ∧
        game.req asker = some result ∧
        ((result = 1 ∧ uid = 0) ∨ (result = 2 ∧ uid = p.id)) := by
  simp only [Game.handleRspPlayerReq]
  cases p.isPlayer with
  | false => cases unpackRsp body <;> simp
  | true =>
    cases unpackRsp body with
    | none => simp
    | some answer =>
      obtain ⟨asker, said⟩ := answer
      simp only [Option.some.injEq, Prod.mk.injEq, true_and]
      constructor
      · intro told
        split at told
        case isTrue => simp at told
        case isFalse =>
          split at told
          case h_1 => simp at told
          case h_2 answered checked =>
            -- an open request that the response agrees to or rejects
            unfold Game.chkPlayerReq at checked
            split at checked
            case h_1 => cases checked
            case h_2 reason asks =>
              split at checked
              case isFalse => cases checked
              case isTrue agrees =>
                split at told
                case isTrue draw =>
                  subst draw
                  have same : reason = 1 := agrees.resolve_right (by decide)
                  have what : uid = 0 ∧ coords = [] := by simpa using told
                  exact ⟨what.2, asker, 1, ⟨rfl, rfl⟩, same ▸ asks, .inl ⟨rfl, what.1⟩⟩
                case isFalse =>
                  split at told
                  case isTrue surrender =>
                    subst surrender
                    have same : reason = 2 := agrees.resolve_right (by decide)
                    have what : uid = p.id ∧ coords = [] := by simpa using told
                    exact ⟨what.2, asker, 2, ⟨rfl, rfl⟩, same ▸ asks, .inr ⟨rfl, what.1⟩⟩
                  case isFalse => simp at told
      · rintro ⟨rfl, _, result, ⟨rfl, rfl⟩, asks, rest⟩
        rcases rest with ⟨rfl, rfl⟩ | ⟨rfl, rfl⟩ <;> simp [Game.chkPlayerReq, asks]

end Steps

theorem sound_step {group : Group} {history : History} {message : Message}
    (sound : Sound group history) (goesOn : GoesOn group history message) :
    Sound group (history.step group message) := by
  obtain ⟨p, command⟩ := message
  obtain ⟨game, asked⟩ := history
  obtain ⟨member, continues⟩ := goesOn
  obtain ⟨req, askers, mover, nsteps⟩ := sound
  dsimp only at req askers mover nsteps
  subst req
  cases command with
  | gobangAction body =>
    simp only [History.step, History.reply, Game.handleData] at continues ⊢
    rcases handlePlayerAction_cases group game p body with
      refused | ⟨row, col, inRow, inCol, empty, turn, ended | ended | goes⟩
    · rw [refused]
      exact ⟨rfl, askers, mover, nsteps⟩
    · obtain ⟨five, -, ended⟩ := ended
      rw [ended] at continues
      exact absurd continues (by simp [gerEndOfGame])
    · rw [ended.2] at continues
      exact absurd continues (by simp [gerPlayerReqDraw])
    · rw [goes]
      obtain ⟨sameReq, sameSteps, sameBoard⟩ := setNxmover_rest group (placed group game row col)
      refine ⟨sameReq, askers, setNxmover_mem mover, ?_⟩
      rw [sameSteps, sameBoard]
      exact stones_placed inRow inCol empty mover nsteps
  | playerReq body =>
    simp only [History.step, History.reply, Game.handleData, (handlePlayerReq_eq game p body).1]
    exact ⟨rfl, open_nextAsked askers member (.playerReq body), mover, nsteps⟩
  | notifyPlayerReq body =>
    simp only [History.step, History.reply, Game.handleData, handleRspPlayerReq_game askers]
    exact ⟨rfl, open_nextAsked askers member (.notifyPlayerReq body), mover, nsteps⟩
  | playerLeave => exact ⟨rfl, askers, mover, nsteps⟩
  | other => exact ⟨rfl, askers, mover, nsteps⟩

/-- The states of the games of a group. -/
abbrev Plays (group : Group) : History → Prop :=
  Reaches (History.step group) (GoesOn group) (.init group)

theorem Plays.sound {group : Group} {history : History} (plays : Plays group history) :
    Sound group history := by
  apply plays.invariant
  · refine ⟨rfl, fun _ _ => nofun, ?_, ?_⟩
    · exact List.mem_cons_self
    · exact (List.countP_eq_zero.mpr (by simp [History.init, Game.init])).symm
  · intro before message sound goesOn
    exact sound_step sound goesOn

section Results

variable {group : Group} {history : History} {message : Message} {p : Sprite} {body : List UInt8}

theorem justified_of_silent
    (silent : ∀ uid coords, .winner uid coords ∉ (history.reply group message).packets) :
    Justified group history message where
  wins uid coords told := absurd told (silent uid coords)
  draws coords told := absurd told (silent 0 coords)

theorem not_agreesToOwn (other : ∀ body, message.2 ≠ .notifyPlayerReq body) :
    ¬ AgreesToOwn history message := by
  rintro ⟨-, _, -, -, body, response, -⟩
  exact other body response

/-- The result of an action is justified by the board. -/
theorem justified_action (sound : Sound group history) :
    Justified group history (p, .gobangAction body) := by
  rcases handlePlayerAction_cases group history.game p body with
    refused | ⟨row, col, inRow, inCol, empty, turn, ended | ended | goes⟩
  · apply justified_of_silent
    simp [History.reply, Game.handleData, refused]
  · obtain ⟨five, line, ended⟩ := ended
    have nonzero : p.id ≠ 0 := by
      intro zero
      exact zero_not_player group (zero ▸ turn ▸ sound.mover)
    constructor
    · intro uid coords told _
      have same : uid = p.id := by
        simp only [History.reply, Game.handleData, ended, List.mem_cons, List.not_mem_nil,
          or_false, reduceCtorEq, false_or, Packet.winner.injEq] at told
        exact told.1
      refine ⟨same, .inl ⟨body, row, col, rfl, empty, ?_⟩⟩
      simpa only [History.reply, Game.handleData, ended] using line
    · intro coords told
      simp only [History.reply, Game.handleData, ended, List.mem_cons, List.not_mem_nil,
        or_false, reduceCtorEq, false_or, Packet.winner.injEq] at told
      exact absurd told.1.symm nonzero
  · obtain ⟨draw, ended⟩ := ended
    have full : Full (placed group history.game row col).chessboard := by
      apply full_of_stones
      rw [← stones_placed inRow inCol empty sound.mover sound.nsteps]
      exact of_decide_eq_true draw
    constructor
    · intro uid coords told other
      simp only [History.reply, Game.handleData, ended, List.mem_cons, List.not_mem_nil,
        or_false, reduceCtorEq, false_or, Packet.winner.injEq] at told
      exact absurd told.1 other
    · intro coords _
      refine .inl ⟨body, rfl, ?_⟩
      simpa only [History.reply, Game.handleData, ended] using full
  · apply justified_of_silent
    simp [History.reply, Game.handleData, goes]

/-- The result of a response is justified if the request is the other player's. -/
theorem justified_response_iff (sound : Sound group history) (member : Member group p) :
    Justified group history (p, .notifyPlayerReq body) ↔
      ¬ AgreesToOwn history (p, .notifyPlayerReq body) := by
  have told (uid : UInt32) (coords : List (Nat × Nat)) :
      .winner uid coords ∈ (history.game.handleRspPlayerReq p body).packets ↔
        p.isPlayer = true ∧ coords = [] ∧ ∃ asker result, unpackRsp body = some (asker, result) ∧
          history.game.req asker = some result ∧
          ((result = 1 ∧ uid = 0) ∨ (result = 2 ∧ uid = p.id)) :=
    handleRspPlayerReq_winner uid coords
  rw [sound.req] at told
  constructor
  · rintro justified ⟨player, result, nonzero, asked, _, same, reads⟩
    cases same
    have mine : p.id ≠ 0 := fun zero => zero_not_player group (zero ▸ member player)
    -- the other player would have to be the sender
    have other : ∀ said, ¬ AgreesToOther group history (p, .notifyPlayerReq body) said := by
      rintro said ⟨-, asker, -, apart, -, _, same, answers⟩
      cases same
      rw [reads] at answers
      cases answers
      exact apart rfl
    rcases (sound.askers p.id result asked).2 with rfl | rfl
    · have draw := (told 0 []).mpr ⟨player, rfl, p.id, 1, reads, asked, .inl ⟨rfl, rfl⟩⟩
      rcases justified.draws [] draw with ⟨_, never, -⟩ | agrees
      · cases never
      · exact other 1 agrees
    · have wins := (told p.id []).mpr ⟨player, rfl, p.id, 2, reads, asked, .inr ⟨rfl, rfl⟩⟩
      rcases (justified.wins p.id [] wins mine).2 with ⟨_, _, _, never, -⟩ | agrees
      · cases never
      · exact other 2 agrees
  · intro foreign
    -- whoever asked is a player, and not the sender
    have other : ∀ said, said ≠ 0 → ∀ asker, p.isPlayer = true →
        history.asked asker = some said → unpackRsp body = some (asker, said) →
        AgreesToOther group history (p, .notifyPlayerReq body) said := by
      intro said nonzero asker player asked reads
      refine ⟨player, asker, (sound.askers asker said asked).1, ?_, asked, body, rfl, reads⟩
      rintro rfl
      exact foreign ⟨player, said, nonzero, asked, body, rfl, reads⟩
    constructor
    · intro uid coords announced nonzero
      obtain ⟨player, -, asker, said, reads, asked, what⟩ := (told uid coords).mp announced
      rcases what with ⟨-, zero⟩ | ⟨rfl, same⟩
      · exact absurd zero nonzero
      · exact ⟨same, .inr (other 2 (by decide) asker player asked reads)⟩
    · intro coords announced
      obtain ⟨player, -, asker, said, reads, asked, what⟩ := (told 0 coords).mp announced
      rcases what with ⟨rfl, -⟩ | ⟨-, zero⟩
      · exact .inr (other 1 (by decide) asker player asked reads)
      · exact absurd (zero ▸ member player) (zero_not_player group)

end Results

/-- In every game, a result that a message brings about is justified exactly if the message is
not a player's agreement to the player's own request. -/
theorem justified_iff {group : Group} {history : History} {message : Message}
    (plays : Plays group history) (member : Member group message.1) :
    Justified group history message ↔ ¬ AgreesToOwn history message := by
  obtain ⟨p, command⟩ := message
  cases command with
  | gobangAction body =>
    exact iff_of_true (justified_action plays.sound) (not_agreesToOwn nofun)
  | playerReq body =>
    exact iff_of_true (justified_of_silent (handlePlayerReq_eq history.game p body).2)
      (not_agreesToOwn nofun)
  | notifyPlayerReq body => exact justified_response_iff plays.sound member
  | playerLeave =>
    exact iff_of_true (justified_of_silent fun _ _ => List.not_mem_nil) (not_agreesToOwn nofun)
  | other =>
    exact iff_of_true (justified_of_silent fun _ _ => List.not_mem_nil) (not_agreesToOwn nofun)

/-- Two players with the ids 11 and 22. -/
def pair : Group := ⟨11, 22, by decide, by decide, by decide⟩

def whitePlayer : Sprite := ⟨11, 1, true⟩

def blackPlayer : Sprite := ⟨22, 2, true⟩

instance (group : Group) (p : Sprite) : Decidable (Member group p) :=
  inferInstanceAs (Decidable (_ → _))

instance (group : Group) (history : History) (message : Message) :
    Decidable (GoesOn group history message) :=
  inferInstanceAs (Decidable (_ ∧ _))

/-- White sets three stones in a row and black two, and then white asks to surrender. -/
def surrendering : History :=
  [(whitePlayer, .gobangAction [0, 0, 0, 11, 0, 7, 0, 7]),
    (blackPlayer, .gobangAction [0, 0, 0, 22, 0, 6, 0, 7]),
    (whitePlayer, .gobangAction [0, 0, 0, 11, 0, 7, 0, 8]),
    (blackPlayer, .gobangAction [0, 0, 0, 22, 0, 6, 0, 8]),
    (whitePlayer, .gobangAction [0, 0, 0, 11, 0, 7, 0, 9]),
    (whitePlayer, .playerReq [2])].foldl (History.step pair) (.init pair)

theorem surrendering_plays : Plays pair surrendering := Reaches.refl.follow (by decide +kernel)

/-- White agrees to its own surrender and wins. -/
theorem surrender_wins : ¬ ∀ (group : Group) (history : History) (message : Message),
    Plays group history → Member group message.1 → Justified group history message := by
  intro claim
  have justified := claim pair surrendering (whitePlayer, .notifyPlayerReq [0, 0, 0, 11, 2])
    surrendering_plays fun _ => by decide
  obtain ⟨-, ⟨_, _, _, never, -⟩ | ⟨-, asker, -, apart, -, _, same, reads⟩⟩ :=
    justified.wins 11 [] (by decide +kernel) (by decide)
  · cases never
  · cases same
    have own : unpackRsp [0, 0, 0, 11, 2] = some (11, 2) := by decide
    rw [own] at reads
    cases reads
    exact apart rfl

/-- Black accepts white's surrender and wins. -/
theorem justified_iff_surrendering :
    (Justified pair surrendering (blackPlayer, .notifyPlayerReq [0, 0, 0, 11, 2]) ↔
      ¬ AgreesToOwn surrendering (blackPlayer, .notifyPlayerReq [0, 0, 0, 11, 2])) ∧
      .winner 22 [] ∈
        (surrendering.reply pair (blackPlayer, .notifyPlayerReq [0, 0, 0, 11, 2])).packets :=
  ⟨justified_iff surrendering_plays fun _ => by decide, by decide +kernel⟩

end Taomee.Gobang
