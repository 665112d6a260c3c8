import Taomee.Library.Runs
import Taomee.Linker.Game
import Taomee.Linker.Path

/-!
# Linker: cells, awards and entries in bounds

A position equal to the number of cells passes the check of `Sitting`; `CreateRandomAward` draws
from eight awards where the table has six; the test list has room for half the board, rounded
down, and a player may use one chess more.
-/

namespace Taomee.Linker

open Runs DepthFirst

variable {l l' : Linker} {beyond : Nat → Nat × Nat} {seat : Seat} {pos : Nat} {rand : Nat × Nat}

/-- What the calls so far touched is inside the board, the table and the test list. -/
structure Within (l : Linker) : Prop where
  writes : ∀ pos ∈ l.cellWrites, pos < l.mapSize * l.mapSize
  reads : ∀ index ∈ l.awardReads, index < randAward.length
  list : l.testList.length ≤ l.mapSize * l.mapSize / 2

/-! ## The condition -/

/-- No line of a colour from side to side, each cell next to no cell of the line but the one
before and the one after it, with more than half the cells. -/
structure Short (l : Linker) : Prop where
  spring : ∀ path, Found cfSpring l (springSide l.mapSize) path →
    path.length ≤ l.mapSize * l.mapSize / 2
  winter : ∀ path, Found cfWinter l (winterSide l.mapSize) path →
    path.length ≤ l.mapSize * l.mapSize / 2

/-- Only the cells of the two colours count. -/
theorem Short.congr (short : Short l) (size : l'.mapSize = l.mapSize)
    (winter : ∀ pos, l'.map pos = cfWinter ↔ l.map pos = cfWinter)
    (spring : ∀ pos, l'.map pos = cfSpring ↔ l.map pos = cfSpring) : Short l' where
  spring := by
    rw [size]
    exact fun path found => short.spring path (found.congr size spring)
  winter := by
    rw [size]
    exact fun path found => short.winter path (found.congr size winter)

/-- Half the board is enough for as many cells. -/
theorem Found.length_le {flag : Cell} {side path : List Nat} (found : Found flag l side path) :
    path.length ≤ (openCells flag l).card := by
  rw [← List.toFinset_card_of_nodup found.nodup]
  apply Finset.card_le_card
  intro pos member
  exact found.cells pos (List.mem_toFinset.mp member)

/-- Few cells of a colour make short lines only. -/
theorem Short.of_few (spring : (openCells cfSpring l).card ≤ l.mapSize * l.mapSize / 2)
    (winter : (openCells cfWinter l).card ≤ l.mapSize * l.mapSize / 2) : Short l where
  spring := fun _ found => found.length_le.trans spring
  winter := fun _ found => found.length_le.trans winter

/-- A sitting that is not refused for its position or a chess on it. -/
structure SittingFits (l : Linker) (seat : Seat) (pos : Int) (rand : Nat × Nat) : Prop where
  inside : pos ≠ (l.mapSize * l.mapSize : Nat)
  award : linkerGameAwardStepCnt ≤ l.stepCnt + 1 → rand.2 % 8 < randAward.length
  short : (l.player seat).chessUsed = l.mapSize * l.mapSize / 2 →
    Short (l.setCell pos.toNat (l.player seat).flag)

/-- A call that runs into none of the three slips. -/
def Fits (l : Linker) : Event → Prop
  | .data (some seat) (.linkerGameCmd (some (localCmd, number))) rand =>
    l.gameState = .gsIngame →
      (localCmd = lgpWin → Short l) ∧
      (localCmd = lgpSitting → (l.player seat).flag = l.curOperator → ∀ pos ∈ number,
        0 ≤ pos → pos ≤ (l.mapSize * l.mapSize : Nat) → l.map pos.toNat ≠ cfWinter →
          l.map pos.toNat ≠ cfSpring → SittingFits l seat pos rand)
  | _ => True

theorem Fits.sitting {pos : Int} (fits : SittingFits l seat pos rand) :
    Fits l (.data (some seat) (.linkerGameCmd (some (lgpSitting, some pos))) rand) := by
  intro _
  refine ⟨fun same => absurd same (by decide), ?_⟩
  intro _ _ pos' given _ _ _ _
  obtain rfl : pos = pos' := Option.mem_some.mp given
  exact fits

/-! ## What every call keeps -/

/-- Awards on the board are in the table. -/
structure Kept (l : Linker) : Prop extends Within l where
  cells : ∀ pos < l.mapSize * l.mapSize, (l.map pos).toNat < cfGold200.toNat + randAward.length
  flags : ∀ seat, (l.player seat).flag = cfWinter ∨ (l.player seat).flag = cfSpring

/-- The cells have no marks between messages. -/
theorem Kept.plain (kept : Kept l) (inside : pos < l.mapSize * l.mapSize) :
    l.map pos ≤ cfChessS50 :=
  Nat.le_trans (Nat.le_of_lt (kept.cells pos inside)) (by decide)

/-- A new game has a blank board. -/
theorem kept_start (gameId : Nat) (memory : Nat → Cell) : Kept (start gameId memory) where
  cells := by
    intro pos inside
    have blank : (start gameId memory).map pos = cfBlank := if_pos inside
    rw [blank]
    decide
  flags := by
    intro seat
    cases seat
    · exact .inl rfl
    · exact .inr rfl
  writes := nofun
  reads := nofun
  list := Nat.zero_le _

/-- A short line fits the test list. -/
theorem Short.outcome {winner : Cell} (short : Short l) (outcome : Outcome l winner l') :
    l'.testList.length ≤ l.mapSize * l.mapSize / 2 := by
  cases outcome with
  | spring found _ => simpa using short.spring _ found
  | winter apart found _ _ => simpa using short.winter _ found
  | neither => exact Nat.zero_le _

/-- A check of a board without long lines. -/
theorem Kept.checkGameOver (kept : Kept l) (short : Short l) :
    ∃ winner l', Linker.checkGameOver l = some (winner, l') ∧ Kept l' := by
  obtain ⟨winner, l', answer, outcome⟩ := checkGameOver_outcome l
  refine ⟨winner, l', answer, ?_⟩
  have room := short.outcome outcome
  have clear := clearMarks_eq fun pos inside => kept.plain inside
  have same : l' = { l with testList := l'.testList } := by
    cases outcome <;> rw [clear]
  rw [same]
  exact { kept with list := room }

/-- The end of a game keeps the board. -/
theorem Kept.gameOver (kept : Kept l) : Kept l.gameOver.2 := { kept with }

theorem Kept.gameStart (kept : Kept l) (rand : Nat) : Kept (l.gameStart rand) := { kept with }

theorem Kept.sendGameInfo (kept : Kept l) : Kept l.sendGameInfo := { kept with }

theorem Kept.setPlayer (kept : Kept l) (seat : Seat) {player : PlayerInfo}
    (flag : player.flag = (l.player seat).flag) : Kept (l.setPlayer seat player) where
  cells := kept.cells
  flags := by
    intro other
    by_cases same : other = seat
    · subst same
      simpa [Linker.setPlayer, flag] using kept.flags other
    · simpa [Linker.setPlayer, same] using kept.flags other
  writes := kept.writes
  reads := kept.reads
  list := kept.list

/-- The next turn looks for a line when enough chess is used. -/
theorem Kept.nextTurn (kept : Kept l) (seat : Seat)
    (short : (l.player seat).chessUsed = l.mapSize * l.mapSize / 2 + 1 → Short l) :
    Kept (l.nextTurn seat).2 := by
  simp only [Linker.nextTurn]
  split
  case isTrue all =>
    have ended : Kept l.endTimer := { kept with }
    have short' : Short l.endTimer := by
      obtain ⟨spring, winter⟩ := short all
      exact ⟨fun path found => spring path (found.congr rfl fun _ => Iff.rfl),
        fun path found => winter path (found.congr rfl fun _ => Iff.rfl)⟩
    obtain ⟨winner, l', answer, kept'⟩ := ended.checkGameOver short'
    simp only [answer]
    exact kept'.gameOver
  case isFalse =>
    split
    · exact { kept with }
    · exact { kept with }

/-- An award goes to a blank cell and is one of those drawn. -/
theorem createRandomAward_map (l : Linker) (rand : Nat × Nat) :
    ∃ map, l.createRandomAward rand = { l with map } ∧ ∀ pos, map pos = l.map pos ∨
      l.map pos = cfBlank ∧ map pos = cfGold200 + BitVec.ofNat 8 (rand.2 % 8) := by
  simp only [createRandomAward]
  split
  case isTrue => exact ⟨l.map, rfl, fun _ => .inl rfl⟩
  case isFalse =>
    split
    case isTrue blank =>
      refine ⟨_, rfl, fun pos => ?_⟩
      generalize findBlank l.map _ _ _ = place at blank ⊢
      by_cases same : pos = place
      · subst same
        exact .inr ⟨blank, by simp [show (cfChessS50 - cfGold200).toNat = 8 by decide]⟩
      · exact .inl (Function.update_of_ne same ..)
    case isFalse => exact ⟨l.map, rfl, fun _ => .inl rfl⟩

/-- An award is a plain cell. -/
theorem award_plain {draw : Nat} (low : draw < randAward.length) :
    (cfGold200 + BitVec.ofNat 8 draw).toNat < cfGold200.toNat + randAward.length := by
  revert draw
  decide

/-- An award is of no colour. -/
theorem award_colourless {draw : Nat} (low : draw < 8) :
    cfGold200 + BitVec.ofNat 8 draw ≠ cfWinter ∧ cfGold200 + BitVec.ofNat 8 draw ≠ cfSpring := by
  revert draw
  decide

/-- What `putChess` leaves: the chess, perhaps an award where the board was blank, and the count. -/
theorem putChess_spec (l : Linker) (seat : Seat) (pos : Nat) (rand : Nat × Nat) :
    let l' := l.putChess seat pos rand
    l'.mapSize = l.mapSize ∧ l'.cellWrites = pos :: l.cellWrites ∧ l'.awardReads = l.awardReads ∧
      l'.testList = l.testList ∧ (l'.player seat).chessUsed = (l.player seat).chessUsed + 1 ∧
      (∀ other, (l'.player other).flag = (l.player other).flag) ∧
      ∀ other, l'.map other = (l.setCell pos (l.player seat).flag).map other ∨
        linkerGameAwardStepCnt ≤ l.stepCnt + 1 ∧
        (l.setCell pos (l.player seat).flag).map other = cfBlank ∧
        l'.map other = cfGold200 + BitVec.ofNat 8 (rand.2 % 8) := by
  have flags (player : PlayerInfo) (same : player.flag = (l.player seat).flag) (other : Seat) :
      (Function.update l.player seat player other).flag = (l.player other).flag := by
    by_cases here : other = seat
    · simp [here, same]
    · simp [here]
  simp only [putChess]
  split
  case isTrue due =>
    obtain ⟨map, award, cells⟩ := createRandomAward_map _ rand
    rw [award]
    refine ⟨rfl, rfl, rfl, rfl, by simp [Linker.setPlayer], flags _ rfl, fun other => ?_⟩
    rcases cells other with same | ⟨blank, drawn⟩
    · exact .inl same
    · exact .inr ⟨due, blank, drawn⟩
  case isFalse =>
    exact ⟨rfl, rfl, rfl, rfl, by simp [Linker.setPlayer], flags _ rfl, fun other => .inl rfl⟩

/-- A chess is put down inside the board. -/
theorem Kept.putChess (kept : Kept l) (inside : pos < l.mapSize * l.mapSize)
    (award : linkerGameAwardStepCnt ≤ l.stepCnt + 1 → rand.2 % 8 < randAward.length) :
    Kept (l.putChess seat pos rand) := by
  obtain ⟨size, writes, reads, list, -, flags, cells⟩ := putChess_spec l seat pos rand
  refine {
    cells := ?cells
    flags := fun other => by simpa only [flags] using kept.flags other
    writes := ?writes
    reads := by simpa only [reads] using kept.reads
    list := by simpa only [list, size] using kept.list }
  case cells =>
    intro other within
    rw [size] at within
    rcases cells other with same | ⟨due, -, drawn⟩
    · rw [same]
      by_cases here : other = pos
      · have chess : (l.setCell pos (l.player seat).flag).map other = (l.player seat).flag := by
          simp [setCell, here]
        rw [chess]
        rcases kept.flags seat with winter | spring
        · rw [winter]
          decide
        · rw [spring]
          decide
      · have other' : (l.setCell pos (l.player seat).flag).map other = l.map other := by
          simp [setCell, here]
        rw [other']
        exact kept.cells other within
    · rw [drawn]
      exact award_plain (award due)
  case writes =>
    rw [writes, size]
    exact List.forall_mem_cons.mpr ⟨inside, kept.writes⟩

/-- An award changes what the player has, and is noted. -/
theorem takeAward_spec (beyond : Nat → Nat × Nat) (l : Linker) (seat : Seat) (pos : Nat) :
    ∃ player : PlayerInfo, player.flag = (l.player seat).flag ∧
      player.chessUsed = (l.player seat).chessUsed ∧
      l.takeAward beyond seat pos =
        { l.setPlayer seat player with
          awardReads := (l.map pos - cfGold200).toNat :: l.awardReads } := by
  simp only [Linker.takeAward]
  generalize (randAward[(l.map pos - cfGold200).toNat]?).getD _ = entry
  generalize BitVec.ofNat 8 _ = colour
  by_cases gold : entry.1 = 0
  · rw [if_pos gold]
    refine ⟨_, ?_, ?_, rfl⟩ <;> rfl
  · rw [if_neg gold]
    by_cases own : colour = (l.player seat).flag
    · rw [if_pos own]
      refine ⟨_, ?_, ?_, rfl⟩ <;> rfl
    · rw [if_neg own]
      refine ⟨_, ?_, ?_, rfl⟩ <;> rfl

/-- An award of the board is read inside the table. -/
theorem Kept.takeAward (kept : Kept l) (inside : pos < l.mapSize * l.mapSize)
    (award : cfGold200 ≤ l.map pos) : Kept (l.takeAward beyond seat pos) := by
  obtain ⟨player, flag, -, taken⟩ := takeAward_spec beyond l seat pos
  have low := kept.cells pos inside
  have high : cfGold200.toNat ≤ (l.map pos).toNat := award
  have index : (l.map pos - cfGold200).toNat < randAward.length := by
    rw [BitVec.toNat_sub_of_le award]
    omega
  rw [taken]
  exact { kept.setPlayer seat flag with
    reads := List.forall_mem_cons.mpr ⟨index, kept.reads⟩ }

/-- Putting a chess down and passing the turn on. -/
theorem Kept.putNext (kept : Kept l) (inside : pos < l.mapSize * l.mapSize)
    (award : linkerGameAwardStepCnt ≤ l.stepCnt + 1 → rand.2 % 8 < randAward.length)
    (short : (l.player seat).chessUsed = l.mapSize * l.mapSize / 2 →
      Short (l.setCell pos (l.player seat).flag)) :
    Kept ((l.putChess seat pos rand).nextTurn seat).2 := by
  obtain ⟨size, -, -, -, used, -, cells⟩ := putChess_spec l seat pos rand
  refine (kept.putChess inside award).nextTurn seat fun all => ?_
  rw [used, size] at all
  have colourless := award_colourless (Nat.mod_lt rand.2 (show 0 < 8 by decide))
  refine (short (by omega)).congr size (fun other => ?_) fun other => ?_
  · rcases cells other with same | ⟨-, blank, drawn⟩
    · rw [same]
    · rw [drawn, blank]
      exact iff_of_false colourless.1 (by decide)
  · rcases cells other with same | ⟨-, blank, drawn⟩
    · rw [same]
    · rw [drawn, blank]
      exact iff_of_false colourless.2 (by decide)

/-- A piece that is set keeps the board. -/
theorem Kept.sitting (kept : Kept l) {pos : Int}
    (fits : 0 ≤ pos → pos ≤ (l.mapSize * l.mapSize : Nat) → l.map pos.toNat ≠ cfWinter →
      l.map pos.toNat ≠ cfSpring → SittingFits l seat pos rand) :
    Kept (l.sitting beyond seat pos rand).2 := by
  simp only [Linker.sitting]
  split
  case isTrue => exact kept
  case isFalse accepted =>
    simp only [not_or, Int.not_lt] at accepted
    obtain ⟨low, high, winter, spring⟩ := accepted
    obtain ⟨inside, award, short⟩ := fits low high winter spring
    have inside' : pos.toNat < l.mapSize * l.mapSize := by omega
    split
    case isTrue award' =>
      obtain ⟨player, flag, used, taken⟩ := takeAward_spec beyond l seat pos.toNat
      refine (kept.takeAward inside' award'.1).putNext ?_ ?_ ?_
      · exact inside'
      · exact award
      · intro all
        have flag' : ((l.takeAward beyond seat pos.toNat).player seat).flag =
            (l.player seat).flag := by
          rw [taken]
          simpa [Linker.setPlayer] using flag
        have used' : ((l.takeAward beyond seat pos.toNat).player seat).chessUsed =
            (l.player seat).chessUsed := by
          rw [taken]
          simpa [Linker.setPlayer] using used
        rw [used'] at all
        rw [flag']
        exact (short all).congr rfl (fun _ => Iff.rfl) fun _ => Iff.rfl
    case isFalse =>
      split
      case isTrue => exact kept
      case isFalse => exact kept.putNext inside' award short

/-! ## Runs -/

/-- What the database returns keeps the board. -/
theorem Kept.handleDbReturn (kept : Kept l) (seat : Seat) (items : Option (List (Nat × Nat))) :
    Kept (l.handleDbReturn seat items).2 := by
  unfold Linker.handleDbReturn
  split
  case isTrue =>
    split
    case h_1 => exact kept
    case h_2 items =>
      have counted {player : PlayerInfo} (flag : player.flag = (l.player seat).flag) (need : Nat) :
          Kept { l.setPlayer seat player with dbRetCntNeed := need } :=
        { kept.setPlayer seat flag with }
      simp only
      split
      · exact Kept.sendGameInfo (counted (by rfl) _)
      · exact counted (by rfl) _
  case isFalse => exact kept

/-- Every message keeps the board. -/
theorem Kept.handleData (kept : Kept l) {seat : Option Seat} {message : Message}
    (fits : Fits l (.data seat message rand)) : Kept (l.handleData beyond seat message rand).2 := by
  cases seat with
  | none => exact kept
  | some seat =>
    cases message with
    | playerLeave => exact kept.gameOver
    | other => exact kept
    | linkerGameCmd body =>
      cases body with
      | none => exact kept
      | some command =>
        obtain ⟨localCmd, number⟩ := command
        simp only [Linker.handleData]
        cases state : l.gameState with
        | gsIni => exact kept
        | gsOver => exact kept
        | gsResouceLoad =>
          simp only
          have loaded {player : PlayerInfo} (flag : player.flag = (l.player seat).flag)
              (left : Int) : Kept { l.setPlayer seat player with resloadCnt := left } :=
            { kept.setPlayer seat flag with }
          split
          · split
            · exact Kept.gameStart (loaded (by rfl) _) rand.1
            · exact loaded (by rfl) _
          · exact kept
        | gsIngame =>
          obtain ⟨win, sit⟩ := fits state
          simp only
          split
          case isTrue sitting =>
            split
            case isTrue turn =>
              cases number with
              | none => exact kept
              | some sitPos => exact kept.sitting (sit sitting turn sitPos rfl)
            case isFalse => exact kept
          case isFalse =>
            split
            case isTrue won =>
              obtain ⟨winner, l', answer, kept'⟩ := kept.checkGameOver (win won)
              simp only [answer]
              exact kept'.gameOver
            case isFalse => exact kept

/-- Every call that fits keeps what is touched in bounds. -/
theorem Kept.step (kept : Kept l) {event : Event} (fits : Fits l event) :
    Kept (Linker.step beyond l event) := by
  cases event with
  | dbReturn seat items => exact kept.handleDbReturn seat items
  | data seat message rand => exact kept.handleData fits
  | timeout rand =>
    simp only [Linker.step, Linker.handleTimeout]
    split
    · split
      · exact { kept with }
      · exact { kept with }
    · exact kept

/-- In every run of calls that run into none of the slips, sittings write cells of the board,
awards are read inside their table and the test list holds no more than half the board. -/
theorem accesses_within (gameId : Nat) (memory : Nat → Cell) (beyond : Nat → Nat × Nat)
    (run : Reaches (Linker.step beyond) Fits (start gameId memory) l) : Within l := by
  have kept : Kept l := by
    apply run.invariant (kept_start gameId memory)
    intro l event kept fits
    exact kept.step fits
  exact kept.toWithin

/-- The calls up to the start of a game in which spring begins. -/
def opening : List Event :=
  [.dbReturn .first (some []), .dbReturn .second (some []),
    .data (some .first) (.linkerGameCmd (some (lgpLoadOk, none))) (1, 0),
    .data (some .second) (.linkerGameCmd (some (lgpLoadOk, none))) (1, 0)]

def sit (seat : Seat) (pos : Int) (rand : Nat × Nat) : Event :=
  .data (some seat) (.linkerGameCmd (some (lgpSitting, some pos))) rand

/-- An award comes, is picked up, and spring asks for a check. -/
theorem accesses_within_checked :
    Within ((opening ++ [sit .second 0 (0, 0), sit .first 1 (0, 0), sit .second 3 (2, 0),
        sit .first 2 (0, 0),
        .data (some .second) (.linkerGameCmd (some (lgpWin, none))) (0, 0)]).foldl
      (Linker.step fun _ => (0, 0)) (start 91 fun _ => 0)) := by
  refine accesses_within 91 (fun _ => 0) (fun _ => (0, 0)) (Reaches.refl.follow
    ⟨trivial, trivial, ?_, ?_, ?_, ?_, ?_, ?_, ?_, trivial⟩)
  · exact fun state => absurd state (by decide +kernel)
  · exact fun state => absurd state (by decide +kernel)
  · exact .sitting ⟨by decide +kernel, fun _ => by decide,
      fun all => absurd all (by decide +kernel)⟩
  · exact .sitting ⟨by decide +kernel, fun _ => by decide,
      fun all => absurd all (by decide +kernel)⟩
  · exact .sitting ⟨by decide +kernel, fun _ => by decide,
      fun all => absurd all (by decide +kernel)⟩
  · exact .sitting ⟨by decide +kernel, fun _ => by decide,
      fun all => absurd all (by decide +kernel)⟩
  · exact fun _ => ⟨fun _ => .of_few (by decide +kernel) (by decide +kernel),
      fun same => absurd same (by decide)⟩

/-- Position 9 of a board of 3 rows, the seventh award of six, and five cells in a test list for
four. -/
theorem accesses_outside :
    (¬ ∀ (gameId : Nat) (memory : Nat → Cell) (beyond : Nat → Nat × Nat) (l : Linker),
      Reaches (Linker.step beyond) (fun _ _ => True) (start gameId memory) l →
      ∀ pos ∈ l.cellWrites, pos < l.mapSize * l.mapSize) ∧
    (¬ ∀ (gameId : Nat) (memory : Nat → Cell) (beyond : Nat → Nat × Nat) (l : Linker),
      Reaches (Linker.step beyond) (fun _ _ => True) (start gameId memory) l →
      ∀ index ∈ l.awardReads, index < randAward.length) ∧
    ¬ ∀ (gameId : Nat) (memory : Nat → Cell) (beyond : Nat → Nat × Nat) (l : Linker),
      Reaches (Linker.step beyond) (fun _ _ => True) (start gameId memory) l →
      l.testList.length ≤ l.mapSize * l.mapSize / 2 := by
  have run (calls : List Event) : Reaches (Linker.step fun _ => (0, 0)) (fun _ _ => True)
      (start 91 fun _ => 0) (calls.foldl (Linker.step fun _ => (0, 0)) (start 91 fun _ => 0)) :=
    Reaches.of_list fun _ _ _ => trivial
  refine ⟨fun claim => ?_, fun claim => ?_, fun claim => ?_⟩
  · have all := claim _ _ _ _ (run (opening ++ [sit .second 9 (0, 0)]))
    exact absurd all (by decide +kernel)
  · have all := claim _ _ _ _ (run (opening ++ [sit .second 0 (0, 0), sit .first 1 (0, 0),
      sit .second 3 (2, 6), sit .first 2 (0, 0)]))
    exact absurd all (by decide +kernel)
  · have all := claim _ _ _ _ (run (opening ++ [sit .second 0 (0, 0), sit .first 1 (0, 0),
      sit .second 3 (2, 0), sit .first 2 (0, 0), sit .second 6 (4, 0), sit .first 4 (5, 0),
      sit .second 7 (5, 0), sit .first 5 (5, 0), sit .second 8 (0, 0)]))
    exact absurd all (by decide +kernel)

end Taomee.Linker
