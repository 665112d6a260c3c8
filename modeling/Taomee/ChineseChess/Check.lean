import Taomee.ChineseChess.Mirror

/-!
# Chinese chess: check

`ischeck` walks from each filed piece towards the enemy general. Here it is compared with
`movable`, the rule for moves, piece by piece.
-/

namespace Taomee.ChineseChess

open Runs Rule

/-! ## Zones -/

/-- Generals stay in their palaces, and soldiers never fall back behind their first row. -/
def InZone (side : Side) (kind : ChessType) (x y : Nat) : Prop :=
  match kind, side with
  | .general, .red => x ≤ 2 ∧ 3 ≤ y ∧ y ≤ 5
  | .general, .black => 7 ≤ x ∧ 3 ≤ y ∧ y ≤ 5
  | .soldier, .red => 3 ≤ x
  | .soldier, .black => x ≤ 6
  | _, _ => True

def Zones (rule : Rule) : Prop :=
  ∀ side kind x y, x < 10 → y < 9 → rule.board x y = code side kind → InZone side kind x y

instance (side : Side) (kind : ChessType) (x y : Nat) : Decidable (InZone side kind x y) := by
  unfold InZone
  split <;> infer_instance

/-- The pieces of the first position stand in their zones. -/
theorem init_zones : ∀ x < 10, ∀ y < 9, ∀ side kind,
    ¬ Rule.init.board x y = code side kind ∨ InZone side kind x y := by
  decide +kernel

section Step

variable {rule : Rule} {side : Side} {move : Move} {kind : ChessType}

/-- The rule for the kind of the piece that is moved. -/
theorem Accepted.movable_general (accepted : Accepted rule side move .general) :
    offpalace side move = false := by
  have movable := accepted.movable
  simp only [Rule.movable, accepted.own, chess_code, generalMovable, Bool.and_eq_true,
    Bool.not_eq_true'] at movable
  exact movable.1

/-- An accepted move of a soldier is one that `movable` allows a soldier. -/
theorem Accepted.movable_soldier (accepted : Accepted rule side move .soldier) :
    soldierMovable side move = true := by
  simpa only [Rule.movable, accepted.own, chess_code] using accepted.movable

/-- A piece arrives in its zone. -/
theorem Accepted.inZone (accepted : Accepted rule side move kind) (zones : Zones rule) :
    InZone side kind move.toX move.toY := by
  have before := zones side kind _ _ accepted.fromX accepted.fromY accepted.own
  cases kind with
  | general =>
    have inside := accepted.movable_general
    cases side <;>
      simp only [offpalace, Bool.or_eq_false_iff, decide_eq_false_iff_not] at inside <;>
      simp only [InZone] <;> omega
  | soldier =>
    have forward := accepted.movable_soldier
    cases side with
    | red =>
      simp only [InZone, soldierMovable] at before forward ⊢
      split at forward
      · omega
      · split at forward
        · have := of_decide_eq_true forward
          omega
        · cases forward
    | black =>
      simp only [InZone, soldierMovable] at before forward ⊢
      split at forward
      · omega
      · split at forward
        · have := of_decide_eq_true forward
          omega
        · cases forward
  | _ => cases side <;> trivial

/-- An accepted move keeps every piece in its zone. -/
theorem Accepted.zones (accepted : Accepted rule side move kind) (zones : Zones rule) :
    Zones (rule.carryOut side move) := by
  intro owner other x y inX inY stands
  rw [accepted.board_eq] at stands
  split at stands
  case isTrue => exact absurd stands (zero_ne_code owner other)
  case isFalse =>
    split at stands
    case isTrue arrived =>
      obtain ⟨rfl, rfl⟩ := code_inj.mp stands
      rw [arrived.1, arrived.2]
      exact accepted.inZone zones
    case isFalse => exact zones owner other x y inX inY stands

end Step

/-- A message keeps every piece in its zone. -/
theorem Zones.placeChess {rule : Rule} (zones : Zones rule) (mirror : Mirror rule) (side : Side)
    (inbuf : List UInt8) : Zones (rule.placeChess side inbuf).2 := by
  obtain ⟨_, refused⟩ | ⟨move, passes, carried⟩ := rule.placeChess_cases side inbuf
  · rw [refused]
    exact zones
  · obtain ⟨_, -, accepted⟩ := mirror.accepted passes.valid passes.movable
    rw [carried]
    exact accepted.zones zones

/-- By induction over the messages. -/
theorem Reachable.zones {rule : Rule} (run : Reachable rule) : Zones rule := by
  have both : Mirror rule ∧ Zones rule := by
    apply run.invariant
    · refine ⟨mirror_init, fun side kind x y inX inY stands => ?_⟩
      exact (init_zones x inX y inY side kind).resolve_left (not_not.mpr stands)
    · intro before request both _
      exact ⟨both.1.placeChess _ _, both.2.placeChess both.1 _ _⟩
  exact both.2

/-! ## Walks -/

/-- The walk from `i` passes these squares and then comes to `t`. -/
def Visits (backward : Bool) : Nat → List Nat → Nat → Prop
  | i, [], t => i = t
  | i, j :: rest, t => i = j ∧ Visits backward (walk backward i) rest t

/-- A walk forward visits the cells up to its stop. -/
theorem visits_forward {i d : Nat} (small : i + d < 256) :
    Visits false i (List.range' i d) (i + d) := by
  induction d generalizing i with
  | zero => rfl
  | succ d ih =>
    have next : walk false i = i + 1 := by
      simp only [walk, Bool.false_eq_true, if_false]
      omega
    refine ⟨rfl, ?_⟩
    rw [next, show i + (d + 1) = i + 1 + d by omega]
    exact ih (by omega)

/-- A walk backward visits the cells down to its stop. -/
theorem visits_backward {t d : Nat} (small : t + d < 256) :
    Visits true (t + d) (List.range' (t + 1) d).reverse t := by
  induction d with
  | zero => rfl
  | succ d ih =>
    have next : walk true (t + (d + 1)) = t + d := by
      simp only [walk, if_true]
      omega
    rw [List.range'_concat, List.reverse_append]
    refine ⟨by omega, ?_⟩
    rw [next]
    exact ih (by omega)

/-- The squares that the walk from `beg` passes before it comes to `stop`. -/
def passed (beg stop : Nat) : List Nat :=
  if stop > beg then between beg stop else (between beg stop).reverse

/-- A walk visits the cells between its ends. -/
theorem visits_passed {beg stop : Nat} (apart : beg ≠ stop) (begSmall : beg < 256)
    (stopSmall : stop < 256) :
    Visits (beg > stop) (walk (beg > stop) beg) (passed beg stop) stop := by
  by_cases ahead : stop > beg
  · have start : walk (beg > stop) beg = beg + 1 := by
      simp only [walk, show ¬ stop < beg by omega, decide_false, Bool.false_eq_true,
        if_false]
      omega
    rw [start, passed, if_pos ahead, between, if_pos ahead, decide_eq_false (by omega)]
    have visits := visits_forward (i := beg + 1) (d := stop - (beg + 1)) (by omega)
    rwa [show beg + 1 + (stop - (beg + 1)) = stop by omega] at visits
  · have start : walk (beg > stop) beg = stop + (beg - (stop + 1)) := by
      simp only [walk, show stop < beg by omega, decide_true, if_true]
      omega
    rw [start, passed, if_neg ahead, between, if_neg ahead, decide_eq_true (by omega)]
    exact visits_backward (by omega)

/-- The cells passed lie between the ends. -/
theorem mem_passed {beg stop i : Nat} : i ∈ passed beg stop ↔
    (beg < i ∧ i < stop) ∨ (stop < i ∧ i < beg) := by
  unfold passed between
  split <;> simp only [List.mem_reverse, List.mem_range'_1] <;> omega

/-- As many cells are passed as lie between the ends. -/
theorem length_passed (beg stop : Nat) :
    (passed beg stop).length = if stop > beg then stop - (beg + 1) else beg - (stop + 1) := by
  unfold passed between
  split <;> simp

/-- The direction does not matter to what holds of all cells passed. -/
theorem all_passed (beg stop : Nat) (p : Nat → Bool) :
    (passed beg stop).all p = (between beg stop).all p := by
  unfold passed
  split <;> simp

/-- The direction does not matter to a count of the cells passed. -/
theorem countP_passed (beg stop : Nat) (p : Nat → Bool) :
    (passed beg stop).countP p = (between beg stop).countP p := by
  unfold passed
  split <;> simp

/-- A line of cells on which the enemy general stands at `t`. -/
structure Line (side : Side) (cell : Nat → UInt8) (length t : Nat) : Prop where
  inside : t < length
  coded : ∀ j < length, Coded (cell j)
  general : ∀ j < length, enemyGeneral side (cell j) = true ↔ j = t

section Walks

variable {side : Side} {cell : Nat → UInt8} {length t i : Nat} {backward : Bool}
  {squares : List Nat}

/-- A cell without a kind is empty. -/
theorem Coded.chess_eq_noChess {piece : UInt8} (coded : Coded piece) :
    chess piece = .noChess ↔ piece = 0 := by
  rcases coded with rfl | ⟨side, kind, piece, rfl⟩
  · simp
  · simpa using piece

/-- A piece stands at the end of the line. -/
theorem Line.piece (line : Line side cell length t) : chess (cell t) ≠ .noChess := by
  have there := (line.general t line.inside).mpr rfl
  intro empty
  simp [enemyGeneral, empty] at there

/-- The first piece on the walk is the general exactly if nothing stands before it. -/
theorem firstPiece_eq (line : Line side cell length t) (visits : Visits backward i squares t)
    (inside : ∀ j ∈ squares, j < length ∧ j ≠ t) {fuel : Nat} (enough : squares.length < fuel) :
    (firstPiece cell length backward fuel i).map (enemyGeneral side) =
      some (squares.all fun j => cell j = 0) := by
  induction squares generalizing i fuel with
  | nil =>
    obtain ⟨fuel, rfl⟩ := Nat.exists_eq_add_of_lt enough
    obtain rfl : i = t := visits
    have there := (line.general i line.inside).mpr rfl
    simp [firstPiece, line.inside, line.piece, there]
  | cons j rest ih =>
    obtain ⟨rfl, onward⟩ := visits
    obtain ⟨fuel, rfl⟩ : ∃ left, fuel = left + 1 := ⟨fuel - 1, by omega⟩
    have here := inside i List.mem_cons_self
    simp only [firstPiece, Nat.not_le.mpr here.1, if_false,
      (line.coded i here.1).chess_eq_noChess]
    split
    case isTrue empty =>
      rw [ih onward (fun j member => inside j (List.mem_cons_of_mem i member))
        (by simpa using enough)]
      simp [empty]
    case isFalse piece =>
      have other : enemyGeneral side (cell i) = false := by
        rw [Bool.eq_false_iff]
        exact fun general => here.2 ((line.general i here.1).mp general)
      simp [piece, other]

/-- The walk of a cannon counts two exactly if one piece stands before the general. -/
theorem cannonWalk_eq (line : Line side cell length t) (visits : Visits backward i squares t)
    (inside : ∀ j ∈ squares, j < length ∧ j ≠ t) {fuel cnt : Nat} (few : cnt ≤ 1)
    (enough : squares.length < fuel) :
    (cannonWalk side cell length backward fuel cnt i).map (fun cnt => decide (cnt = 2)) =
      some (decide (cnt + squares.countP (fun j => cell j ≠ 0) = 1)) := by
  induction squares generalizing i fuel cnt with
  | nil =>
    obtain ⟨fuel, rfl⟩ : ∃ left, fuel = left + 1 := ⟨fuel - 1, by omega⟩
    obtain rfl : i = t := visits
    have there := (line.general i line.inside).mpr rfl
    obtain rfl | rfl : cnt = 0 ∨ cnt = 1 := by omega
    · simp [cannonWalk, line.inside, line.piece, there]
    · simp [cannonWalk, line.inside, line.piece, there]
  | cons j rest ih =>
    obtain ⟨rfl, onward⟩ := visits
    obtain ⟨fuel, rfl⟩ : ∃ left, fuel = left + 1 := ⟨fuel - 1, by omega⟩
    have here := inside i List.mem_cons_self
    have later := fun j member => inside j (List.mem_cons_of_mem i member)
    have short : rest.length < fuel := by simpa using enough
    simp only [cannonWalk, Nat.not_le.mpr here.1, if_false,
      (line.coded i here.1).chess_eq_noChess]
    split
    case isTrue empty =>
      rw [ih onward later few short, List.countP_cons_of_neg (by simp [empty])]
    case isFalse piece =>
      have other : enemyGeneral side (cell i) = false := by
        rw [Bool.eq_false_iff]
        exact fun general => here.2 ((line.general i here.1).mp general)
      rw [List.countP_cons_of_pos (by simp [piece])]
      obtain rfl | rfl : cnt = 0 ∨ cnt = 1 := by omega
      · rw [if_neg (by simp), other, if_neg (by simp), ih onward later (by omega) short,
          Nat.zero_add, Nat.zero_add, Nat.add_comm 1]
      · simp [other]

end Walks

/-! ## Pieces -/

/-- A position whose enemy general stands where `general_pos_` says. -/
structure Target (rule : Rule) (side : Side) (g : Coordinate) : Prop where
  mirror : Mirror rule
  zones : Zones rule
  position : rule.generalPos side.other = g
  onX : g.x < 10
  onY : g.y < 9
  stands : rule.board g.x g.y = code side.other .general

/-- The general of the other side is a target. -/
theorem Mirror.target {rule : Rule} {side : Side} (mirror : Mirror rule) (zones : Zones rule)
    (stands : HasGeneral rule side.other) : Target rule side (rule.generalPos side.other) := by
  obtain ⟨x, y, inX, inY, holds⟩ := stands
  have position := mirror.generals side.other x y inX inY holds
  rw [position]
  exact ⟨mirror, zones, position, inX, inY, holds⟩

namespace Target

variable {rule : Rule} {side : Side} {g : Coordinate} {x y : Nat} {kind : ChessType}

/-- The target is the only general of its side. -/
theorem general_iff (target : Target rule side g) (inX : x < 10) (inY : y < 9) :
    enemyGeneral side (rule.board x y) = true ↔ x = g.x ∧ y = g.y := by
  constructor
  · intro general
    rcases target.mirror.coded x y inX inY with empty | ⟨owner, kind, -, holds⟩
    · simp [enemyGeneral, empty] at general
    · simp only [enemyGeneral, holds, chess_code, isyourchess_code, Bool.and_eq_true,
        decide_eq_true_eq, Bool.not_eq_true', decide_eq_false_iff_not] at general
      obtain ⟨rfl, foe⟩ := general
      obtain rfl : owner = side.other := (Side.eq_or_eq_other owner side).resolve_left foe
      have here := target.mirror.generals _ x y inX inY holds
      rw [← target.position, here]
      exact ⟨rfl, rfl⟩
  · rintro ⟨rfl, rfl⟩
    simp [enemyGeneral, target.stands]

/-- The target stands in its palace. -/
theorem zone (target : Target rule side g) : InZone side.other .general g.x g.y :=
  target.zones side.other .general g.x g.y target.onX target.onY target.stands

/-- No own piece stands on the target. -/
theorem apart (target : Target rule side g) (own : rule.board x y = code side kind) :
    ¬ (x = g.x ∧ y = g.y) := by
  rintro ⟨rfl, rfl⟩
  simpa using target.stands.symm.trans own

/-- The column of the target, seen from it. -/
theorem column (target : Target rule side g) :
    Line side (fun i => rule.board i g.y) 10 g.x where
  inside := target.onX
  coded j inside := target.mirror.coded j g.y inside target.onY
  general j inside := by simpa using target.general_iff inside target.onY

/-- The row of the target, seen from it. -/
theorem row (target : Target rule side g) : Line side (rule.board g.x) 9 g.y where
  inside := target.onY
  coded j inside := target.mirror.coded g.x j target.onX inside
  general j inside := by simpa using target.general_iff target.onX inside

/-- `straight_check` asks for the row or the column of the general. -/
theorem straightCheck_iff (target : Target rule side g) :
    rule.straightCheck x y side.other = true ↔ x = g.x ∨ y = g.y := by
  simp [straightCheck, target.position]

/-- The squares between a piece and the general on a line of this length. -/
theorem passed_inside {length beg stop : Nat} (begIn : beg < length) (stopIn : stop < length) :
    ∀ j ∈ passed beg stop, j < length ∧ j ≠ stop := by
  intro j member
  have := mem_passed.mp member
  omega

/-- Fewer cells are passed than the line has. -/
theorem passed_short {length beg stop : Nat} (begIn : beg < length) (stopIn : stop < length) :
    (passed beg stop).length < length := by
  rw [length_passed]
  split <;> omega

/-- A chariot checks exactly when it may move onto the general. -/
theorem chariot (target : Target rule side g) (inX : x < 10) (inY : y < 9)
    (own : rule.board x y = code side .chariot) :
    rule.checkedByChariot side x y = some (rule.movable side ⟨x, y, g.x, g.y⟩) := by
  have apart := target.apart own
  have onX := target.onX
  have onY := target.onY
  simp only [checkedByChariot, movable, own, target.position]
  by_cases sameY : y = g.y
  · subst sameY
    have differs : x ≠ g.x := fun sameX => apart ⟨sameX, rfl⟩
    have walked := firstPiece_eq target.column (visits_passed differs (by omega) (by omega))
      (passed_inside inX onX) (passed_short inX onX)
    simp only [target.straightCheck_iff.mpr (.inr rfl), walked, all_passed]
    simp [chariotMovable, differs]
  · by_cases sameX : x = g.x
    · subst sameX
      have walked := firstPiece_eq target.row (visits_passed sameY (by omega) (by omega))
        (passed_inside inY onY) (passed_short inY onY)
      simp only [target.straightCheck_iff.mpr (.inl rfl), walked, all_passed]
      simp [chariotMovable, sameY]
    · have crooked : rule.straightCheck x y side.other = false := by
        rw [Bool.eq_false_iff, ne_eq, target.straightCheck_iff]
        exact fun straight => straight.elim sameX sameY
      simp [crooked, sameX, sameY]

/-- A cannon checks exactly when it may move onto the general. -/
theorem cannon (target : Target rule side g) (inX : x < 10) (inY : y < 9)
    (own : rule.board x y = code side .cannon) :
    rule.checkedByCannon side x y = some (rule.movable side ⟨x, y, g.x, g.y⟩) := by
  have apart := target.apart own
  have onX := target.onX
  have onY := target.onY
  -- at the general `cannon_movable` wants exactly one piece in between
  have single : ∀ cnt : Nat, (if cnt ≥ 2 then false
      else if chess (rule.board g.x g.y) ≠ .noChess then decide (cnt ≠ 0)
      else decide (cnt = 0)) = decide (0 + cnt = 1) := by
    intro cnt
    rw [target.stands, chess_code, if_pos (by decide : ChessType.general ≠ .noChess)]
    split
    · exact (decide_eq_false (by omega)).symm
    · exact decide_eq_decide.mpr (by omega)
  simp only [checkedByCannon, movable, own, chess_code, target.position]
  by_cases sameY : y = g.y
  · subst sameY
    have differs : x ≠ g.x := fun sameX => apart ⟨sameX, rfl⟩
    have walked := cannonWalk_eq target.column (visits_passed differs (by omega) (by omega))
      (passed_inside inX onX) (Nat.zero_le 1) (passed_short inX onX)
    simp only [target.straightCheck_iff.mpr (.inr rfl), Bool.not_true, Bool.false_eq_true,
      if_false, if_true, walked, countP_passed]
    rw [if_neg (by simp), if_pos differs, cannonMovable]
    simp only [if_true, single]
  · by_cases sameX : x = g.x
    · subst sameX
      have walked := cannonWalk_eq target.row (visits_passed sameY (by omega) (by omega))
        (passed_inside inY onY) (Nat.zero_le 1) (passed_short inY onY)
      simp only [target.straightCheck_iff.mpr (.inl rfl), Bool.not_true, Bool.false_eq_true,
        if_false, sameY, walked, countP_passed]
      rw [if_neg (by simp), if_neg (by simp), cannonMovable]
      simp only [Bool.false_eq_true, if_false, single]
    · have crooked : rule.straightCheck x y side.other = false := by
        rw [Bool.eq_false_iff, ne_eq, target.straightCheck_iff]
        exact fun straight => straight.elim sameX sameY
      simp [crooked, sameX, sameY]

/-- A horse jumps one cell one way and two the other. -/
theorem horseMovable_jump {move : Move} (movable : rule.horseMovable move = true) :
    (absDiff move.toX move.fromX = 1 ∧ absDiff move.toY move.fromY = 2) ∨
      (absDiff move.toX move.fromX = 2 ∧ absDiff move.toY move.fromY = 1) := by
  simp only [horseMovable, Bool.or_eq_true, Bool.and_eq_true, decide_eq_true_eq] at movable
  unfold absDiff at *
  omega

/-- A jump to another square does not meet the general. -/
theorem jump_iff (target : Target rule side g) {toX toY : Nat} (inX : toX < 10) (inY : toY < 9) :
    (rule.horseMovable ⟨x, y, toX, toY⟩ && enemyGeneral side (rule.board toX toY)) = true ↔
      (toX = g.x ∧ toY = g.y) ∧ rule.horseMovable ⟨x, y, g.x, g.y⟩ = true := by
  rw [Bool.and_eq_true, target.general_iff inX inY, and_comm]
  constructor
  · rintro ⟨⟨rfl, rfl⟩, movable⟩
    exact ⟨⟨rfl, rfl⟩, movable⟩
  · rintro ⟨⟨rfl, rfl⟩, movable⟩
    exact ⟨⟨rfl, rfl⟩, movable⟩

/-- The palace lies in the middle columns. -/
theorem zoneY (target : Target rule side g) : 3 ≤ g.y ∧ g.y ≤ 5 := by
  have zone := target.zone
  cases side <;> exact zone.2

/-- Where `checked_by_horse` lets the horse land: towards the general. -/
theorem horseAdj_eq (target : Target rule side g) {size : Nat} (small : size ≤ 2) (inY : y < 9) :
    (y + horseAdj size (y > g.y)) % 256 = (if y > g.y then y - size else y + size) ∧
      (if y > g.y then y - size else y + size) < 9 := by
  have zone := target.zoneY
  by_cases above : y > g.y
  · simp only [horseAdj, above, decide_true, if_true]
    omega
  · simp only [horseAdj, above, decide_false, Bool.false_eq_true, if_false]
    omega

/-- A horse checks exactly when it may move onto the general. -/
theorem horse (target : Target rule side g) (inY : y < 9)
    (own : rule.board x y = code side .horse) :
    rule.checkedByHorse side x y = rule.movable side ⟨x, y, g.x, g.y⟩ := by
  have onX := target.onX
  obtain ⟨two, twoIn⟩ := target.horseAdj_eq (Nat.le_refl 2) inY
  obtain ⟨one, oneIn⟩ := target.horseAdj_eq (Nat.le_succ 1) inY
  rw [Bool.eq_iff_iff]
  simp only [movable, own, chess_code, checkedByHorse, target.position, one, two]
  -- the shape of a jump decides which of the four cases can meet the general
  have shape : rule.horseMovable ⟨x, y, g.x, g.y⟩ = true →
      (absDiff g.x x = 1 ∧ absDiff g.y y = 2) ∨ (absDiff g.x x = 2 ∧ absDiff g.y y = 1) :=
    horseMovable_jump
  unfold absDiff at shape
  by_cases straight : x = g.x ∨ y = g.y
  · rw [if_pos straight]
    constructor
    · intro never
      cases never
    · intro movable
      have := shape movable
      omega
  · rw [if_neg straight]
    have meets : ∀ toX toY, toX < 10 → toY < 9 →
        (rule.horseMovable ⟨x, y, g.x, g.y⟩ = true → toX = g.x ∧ toY = g.y) →
        ((rule.horseMovable ⟨x, y, toX, toY⟩ && enemyGeneral side (rule.board toX toY)) = true ↔
          rule.horseMovable ⟨x, y, g.x, g.y⟩ = true) := by
      intro toX toY inToX inToY lands
      rw [target.jump_iff inToX inToY]
      exact ⟨And.right, fun movable => ⟨lands movable, movable⟩⟩
    split
    case isTrue tmp =>
      refine meets _ _ (by omega) twoIn fun movable => ⟨by omega, ?_⟩
      have := shape movable
      split <;> omega
    case isFalse =>
      split
      case isTrue tmp =>
        refine meets _ _ (by omega) twoIn fun movable => ⟨by omega, ?_⟩
        have := shape movable
        split <;> omega
      case isFalse =>
        split
        case isTrue tmp =>
          refine meets _ _ (by omega) oneIn fun movable => ⟨by omega, ?_⟩
          have := shape movable
          split <;> omega
        case isFalse =>
          split
          case isTrue tmp =>
            refine meets _ _ (by omega) oneIn fun movable => ⟨by omega, ?_⟩
            have := shape movable
            split <;> omega
          case isFalse =>
            constructor
            · intro never
              cases never
            · intro movable
              have := shape movable
              omega

/-- Where the own general cannot stand, any general is the enemy's. -/
theorem general_ahead (target : Target rule side g) (inX : x < 10) (inY : y < 9)
    (ahead : ¬ InZone side .general x y) :
    chess (rule.board x y) = .general ↔ x = g.x ∧ y = g.y := by
  rw [← target.general_iff inX inY]
  constructor
  · intro general
    rcases target.mirror.coded x y inX inY with empty | ⟨owner, kind, -, holds⟩
    · simp [empty] at general
    · have stands : kind = .general := by simpa [holds] using general
      subst stands
      have foe : owner ≠ side := by
        rintro rfl
        exact ahead (target.zones owner .general x y inX inY holds)
      simp [enemyGeneral, holds, foe]
  · intro enemy
    simp only [enemyGeneral, Bool.and_eq_true, decide_eq_true_eq] at enemy
    exact enemy.1

/-- One step of the walk, on the board. -/
theorem walk_eq {i : Nat} (small : i < 10) (backward : Bool) (positive : backward = true → 0 < i) :
    walk backward i = if backward then i - 1 else i + 1 := by
  unfold walk
  cases backward with
  | true =>
    have := positive rfl
    simp only [if_true]
    omega
  | false =>
    simp only [Bool.false_eq_true, if_false]
    omega

/-- A soldier checks exactly when it may move onto the general. -/
theorem soldier (target : Target rule side g) (inX : x < 10) (inY : y < 9)
    (own : rule.board x y = code side .soldier) :
    rule.checkedBySoldier side x y = rule.movable side ⟨x, y, g.x, g.y⟩ := by
  have apart := target.apart own
  have onX := target.onX
  have zoneY := target.zoneY
  have zone := target.zone
  have behind := target.zones side .soldier x y inX inY own
  simp only [movable, own, chess_code, soldierMovable, checkedBySoldier, target.position]
  by_cases sameY : y = g.y
  · subst sameY
    have differs : x ≠ g.x := fun sameX => apart ⟨sameX, rfl⟩
    rw [target.straightCheck_iff.mpr (.inr rfl), if_neg (by decide), if_pos rfl,
      if_neg differs, if_pos rfl, Bool.eq_iff_iff]
    by_cases above : x > g.x
    · have back : walk true x = x - 1 := walk_eq inX true fun _ => by omega
      rw [decide_eq_true above, back]
      cases side with
      | red =>
        simp
        omega
      | black =>
        simp only [InZone] at zone behind
        have ahead := target.general_ahead (x := x - 1) (by omega) inY (by simp [InZone]; omega)
        simp [ahead]
        omega
    · have forth : walk false x = x + 1 := walk_eq inX false fun never => by cases never
      rw [decide_eq_false above, forth]
      cases side with
      | red =>
        simp only [InZone] at zone behind
        have ahead := target.general_ahead (x := x + 1) (by omega) inY (by simp [InZone]; omega)
        simp [ahead]
        omega
      | black =>
        simp
        omega
  · by_cases sameX : x = g.x
    · rw [target.straightCheck_iff.mpr (.inl sameX), if_neg (by decide), if_neg sameY,
        if_pos sameX, Bool.eq_iff_iff]
      have crossed : offriver side ⟨x, y, g.x, g.y⟩ = true := by
        cases side <;> simp only [InZone, Side.other] at zone <;> simp [offriver] <;> omega
      have ahead : ∀ toY < 9, chess (rule.board x toY) = .general ↔ toY = g.y := by
        intro toY inToY
        have foreign : ¬ InZone side .general x toY := by
          cases side <;> simp only [InZone, Side.other] at zone ⊢ <;> omega
        rw [target.general_ahead inX inToY foreign]
        exact ⟨And.right, fun same => ⟨sameX, same⟩⟩
      have next : walk (y > g.y) y = if y > g.y then y - 1 else y + 1 := by
        simpa using walk_eq (by omega : y < 10) (y > g.y) fun above => by
          have := of_decide_eq_true above
          omega
      rw [decide_eq_true_eq, next, ahead _ (by split <;> omega), crossed, Bool.and_true,
        decide_eq_true_eq, absDiff]
      split <;> omega
    · have crooked : rule.straightCheck x y side.other = false := by
        rw [Bool.eq_false_iff, ne_eq, target.straightCheck_iff]
        exact fun straight => straight.elim sameX sameY
      simp [crooked, sameX, sameY]

/-- A filed piece gives check exactly if it may move onto the general. -/
theorem checkedBy_eq (target : Target rule side g) {entry : UInt8 × Coordinate}
    (member : entry ∈ rule.chessMultimap side) :
    rule.checkedBy side entry = some (rule.movable side ⟨entry.2.x, entry.2.y, g.x, g.y⟩) := by
  obtain ⟨cell, x, y⟩ := entry
  obtain ⟨inX, inY, own, kind, filed, rfl⟩ := (target.mirror.entries side cell x y).mp member
  simp only [checkedBy, isyourchess_code, chess_code]
  cases kind with
  | chariot => exact target.chariot inX inY own
  | horse => exact congrArg some (target.horse inY own)
  | cannon => exact target.cannon inX inY own
  | soldier => exact congrArg some (target.soldier inX inY own)
  | _ => cases filed

/-- Some entry checks exactly when its piece may move onto the general. -/
theorem anyChecks_eq (target : Target rule side g) {entries : ChessMultiMap}
    (filed : ∀ entry ∈ entries, entry ∈ rule.chessMultimap side) :
    rule.anyChecks side entries =
      some (entries.any fun entry => rule.movable side ⟨entry.2.x, entry.2.y, g.x, g.y⟩) := by
  induction entries with
  | nil => rfl
  | cons entry rest ih =>
    rw [anyChecks, target.checkedBy_eq (filed entry List.mem_cons_self), List.any_cons]
    cases rule.movable side ⟨entry.2.x, entry.2.y, g.x, g.y⟩ with
    | true => simp
    | false => simpa using ih fun later member => filed later (List.mem_cons_of_mem entry member)

/-- Elephants, mandarins and the other general never reach the general's palace. -/
theorem attacker_filed (target : Target rule side g) (own : rule.board x y = code side kind)
    (movable : rule.movable side ⟨x, y, g.x, g.y⟩ = true) : kind.filed = true := by
  have zone := target.zone
  simp only [Rule.movable, own, chess_code] at movable
  cases kind with
  | noChess => cases movable
  | elephant =>
    cases side <;> simp only [InZone, Side.other] at zone <;>
      simp [elephantMovable, offriver] at movable <;> omega
  | mandarin =>
    cases side <;> simp only [InZone, Side.other] at zone <;>
      simp [mandarinMovable, offpalace] at movable <;> omega
  | general =>
    cases side <;> simp only [InZone, Side.other] at zone <;>
      simp [generalMovable, offpalace] at movable <;> omega
  | _ => rfl

end Target

/-- In every position that calls reach, with the enemy general on the board at `x`, `y`:
`ischeck` stays on the board and holds exactly if `place_chess` would let some piece of the side
move onto that square. -/
theorem ischeck_iff_movable {rule : Rule} (run : Reachable rule) (side : Side) {x y : Nat}
    (inX : x < 10) (inY : y < 9) (stands : rule.board x y = code side.other .general) :
    ∃ check, rule.ischeck side = some check ∧
      (check = true ↔ ∃ fromX fromY, rule.isvalid side ⟨fromX, fromY, x, y⟩ = true ∧
        rule.movable side ⟨fromX, fromY, x, y⟩ = true) := by
  have target := run.mirror.target run.zones ⟨x, y, inX, inY, stands⟩
  rw [run.mirror.generals side.other x y inX inY stands] at target
  refine ⟨_, target.anyChecks_eq fun _ => id, ?_⟩
  rw [List.any_eq_true]
  constructor
  · rintro ⟨⟨cell, fromX, fromY⟩, member, movable⟩
    obtain ⟨inFromX, inFromY, own, kind, -, rfl⟩ := (run.mirror.entries _ _ _ _).mp member
    refine ⟨fromX, fromY, ?_, movable⟩
    rw [Mirror.isvalid_iff]
    exact ⟨inFromX, inFromY, inX, inY, target.apart own, by simp [own], by simp [stands]⟩
  · rintro ⟨fromX, fromY, valid, movable⟩
    obtain ⟨inFromX, inFromY, -, -, -, mine, -⟩ := Mirror.isvalid_iff.mp valid
    obtain ⟨kind, -, own⟩ := run.mirror.own_cell inFromX inFromY mine
    have filed := target.attacker_filed own movable
    refine ⟨(code side kind, ⟨fromX, fromY⟩), ?_, movable⟩
    exact (run.mirror.entries _ _ _ _).mpr
      ⟨inFromX, inFromY, own, (filed_code _ _ _).mpr ⟨rfl, filed⟩⟩

/-- Red's cannon has taken a soldier in the column of black's general, and black's cannon steps
between them. -/
def screened : Rule :=
  [(.red, [2, 1, 2, 4]), (.black, [6, 0, 5, 0]), (.red, [2, 4, 6, 4]),
    (.black, [7, 1, 7, 4])].foldl Rule.call Rule.init

/-- Over black's cannon red's cannon gives check. -/
theorem ischeck_iff_movable_screened :
    screened.ischeck .red = some true ∧ ∃ check, screened.ischeck .red = some check ∧
      (check = true ↔ ∃ fromX fromY, screened.isvalid .red ⟨fromX, fromY, 9, 4⟩ = true ∧
        screened.movable .red ⟨fromX, fromY, 9, 4⟩ = true) :=
  ⟨by decide +kernel, ischeck_iff_movable (.call (.call (.call (.call .refl trivial) trivial)
    trivial) trivial) .red (by decide) (by decide) (by decide +kernel)⟩

end Taomee.ChineseChess
