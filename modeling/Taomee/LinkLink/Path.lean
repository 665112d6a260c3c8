import Mathlib.Data.List.Perm.Subperm
import Taomee.Library.TreeSearch
import Taomee.LinkLink.Model

/-!
# Link-link: which pairs are joined

`travel` is a search through the lines from the first tile: it finds the second one exactly when a
line with at most two corners leads there. When it fails it leaves everything as it was.
-/

namespace Taomee.LinkLink

open TreeSearch

/-! ## Lines -/

def Inside (p : Point) : Prop := p.x < rows ∧ p.y < cols

instance (p : Point) : Decidable (Inside p) := inferInstanceAs (Decidable (_ ∧ _))

theorem mem_cells {p : Point} : p ∈ cells ↔ Inside p := by
  obtain ⟨x, y⟩ := p
  simp [cells, Inside]

/-- Cells with a side in common. -/
def Beside (p q : Point) : Prop :=
  p.x = q.x ∧ (p.y + 1 = q.y ∨ q.y + 1 = p.y) ∨ p.y = q.y ∧ (p.x + 1 = q.x ∨ q.x + 1 = p.x)

theorem uint8_same_iff {x x' : Nat} (here : x < 14) : uint8 (0 + x : Int) = x' ↔ x = x' := by
  simp only [uint8]
  omega

theorem uint8_up_iff {x x' : Nat} (here : x < 14) : uint8 (1 + x : Int) = x' ↔ x + 1 = x' := by
  simp only [uint8]
  omega

/-- A step off the board ends beyond its other edge, never inside. -/
theorem uint8_down_iff {x x' : Nat} (here : x < 14) (there : x' < 14) :
    uint8 (-1 + x : Int) = x' ↔ x' + 1 = x := by
  simp only [uint8]
  omega

/-- The steps in the four directions lead to the cells beside a cell. -/
theorem exists_move_iff {p q : Point} (here : Inside p) (there : Inside q) :
    (∃ direction ∈ directions, p.move direction = q) ↔ Beside p q := by
  obtain ⟨x, y⟩ := p
  obtain ⟨x', y'⟩ := q
  obtain ⟨short, narrow⟩ : x < 14 ∧ y < 14 := ⟨Nat.lt_of_lt_of_le here.1 (by decide), here.2⟩
  obtain ⟨short', narrow'⟩ : x' < 14 ∧ y' < 14 := ⟨Nat.lt_of_lt_of_le there.1 (by decide), there.2⟩
  simp only [directions, List.exists_mem_cons_iff, Point.move, Direction.stepX, Direction.stepY,
    Point.mk.injEq, Beside,
    uint8_same_iff short, uint8_same_iff narrow, uint8_up_iff short, uint8_up_iff narrow,
    uint8_down_iff short short', uint8_down_iff narrow narrow']
  tauto

/-- A line on the board from `start` on, the newest cell first: its cells are beside each other,
blank or of the kind of `end_`, and none comes twice. -/
inductive Line (map : Point → Nat) (start end_ : Point) : List Point → Prop where
  | here (inside : Inside start) : Line map start end_ [start]
  | onward {p q : Point} {before : List Point} (line : Line map start end_ (p :: before))
      (beside : Beside p q) (inside : Inside q) (open_ : map q = 0 ∨ map q = map end_)
      (fresh : q ∉ p :: before) : Line map start end_ (q :: p :: before)

/-- Whether the line turns at its last but one cell. -/
def turns (before : List Point) (cur : Point) : Nat :=
  match before with
  | prev :: _ => if prev.x ≠ cur.x ∧ prev.y ≠ cur.y then 1 else 0
  | [] => 0

def corners : List Point → Nat
  | cur :: last :: before => turns before cur + corners (last :: before)
  | _ => 0

/-- A line with at most two corners leads from one cell to the other. -/
def Joined (map : Point → Nat) (start end_ : Point) : Prop :=
  ∃ before, Line map start end_ (end_ :: before) ∧ corners (end_ :: before) ≤ 2

variable {map : Point → Nat} {start end_ : Point}

namespace Line

variable {line : List Point}

theorem inside (drawn : Line map start end_ line) : ∀ p ∈ line, Inside p := by
  induction drawn with
  | here inside => simpa using inside
  | onward line beside inside open_ fresh ih => simpa [inside] using ih

theorem nodup (drawn : Line map start end_ line) : line.Nodup := by
  induction drawn with
  | here => simp
  | onward line beside inside open_ fresh ih => exact List.nodup_cons.mpr ⟨fresh, ih⟩

theorem getLast? (drawn : Line map start end_ line) : line.getLast? = some start := by
  induction drawn with
  | here => rfl
  | onward line beside inside open_ fresh ih => rwa [List.getLast?_cons_cons]

/-- A line is no longer than the board has cells. -/
theorem length_le (drawn : Line map start end_ line) : line.length ≤ rows * cols := by
  have listed : line ⊆ cells := fun p member => mem_cells.mpr (drawn.inside p member)
  have count : cells.length = rows * cols := by simp [cells]
  exact count ▸ (drawn.nodup.subperm listed).length_le

end Line

/-! ## The search through the lines -/

/-- The line drawn on in a direction, where that is allowed. -/
def extend (map : Point → Nat) (end_ : Point) (route : Route) (direction : Direction) :
    Option Route :=
  match route.alreadyPath with
  | [] => none
  | last :: before =>
    let cur := last.move direction
    if (Inside cur ∧ (map cur = 0 ∨ map cur = map end_) ∧ cur ∉ last :: before) ∧
        route.corner + turns before cur ≤ 2 then
      some ⟨route.corner + turns before cur, cur :: last :: before⟩
    else none

def extensions (map : Point → Nat) (end_ : Point) (route : Route) : List Route :=
  directions.filterMap (extend map end_ route)

/-- The line has come to its end. -/
def Arrived (end_ : Point) (route : Route) : Prop := route.alreadyPath.head? = some end_

instance (end_ : Point) : DecidablePred (Arrived end_) :=
  fun route => inferInstanceAs (Decidable (route.alreadyPath.head? = some end_))

theorem mem_extensions {corner : Nat} {last : Point} {before : List Point} {route : Route}
    (inside : Inside last) :
    route ∈ extensions map end_ ⟨corner, last :: before⟩ ↔
      ∃ cur, (Beside last cur ∧ Inside cur ∧ (map cur = 0 ∨ map cur = map end_) ∧
        cur ∉ last :: before) ∧ corner + turns before cur ≤ 2 ∧
        route = ⟨corner + turns before cur, cur :: last :: before⟩ := by
  simp only [extensions, extend, List.mem_filterMap, Option.ite_none_right_eq_some,
    Option.some.injEq]
  constructor
  · rintro ⟨direction, listed, ⟨⟨within, free, fresh⟩, few⟩, rfl⟩
    have beside : Beside last (last.move direction) :=
      (exists_move_iff inside within).mp ⟨direction, listed, rfl⟩
    exact ⟨_, ⟨beside, within, free, fresh⟩, few, rfl⟩
  · rintro ⟨cur, ⟨beside, within, free, fresh⟩, few, rfl⟩
    obtain ⟨direction, listed, rfl⟩ := (exists_move_iff inside within).mpr beside
    exact ⟨direction, listed, ⟨⟨within, free, fresh⟩, few⟩, rfl⟩

/-- A route of the search: a line with its corners counted. -/
structure Drawn (map : Point → Nat) (start end_ : Point) (route : Route) : Prop where
  line : Line map start end_ route.alreadyPath
  counted : route.corner = corners route.alreadyPath
  few : route.corner ≤ 2

theorem Drawn.single (inside : Inside start) : Drawn map start end_ ⟨0, [start]⟩ :=
  ⟨.here inside, rfl, Nat.zero_le 2⟩

theorem Drawn.extension {route longer : Route} (drawn : Drawn map start end_ route)
    (listed : longer ∈ extensions map end_ route) :
    Drawn map start end_ longer ∧
      longer.alreadyPath.length = route.alreadyPath.length + 1 := by
  obtain ⟨corner, line⟩ := route
  cases line with
  | nil => cases drawn.line
  | cons last before =>
    have inside := drawn.line.inside last (List.mem_cons_self ..)
    obtain ⟨cur, ⟨beside, within, free, fresh⟩, few, rfl⟩ := (mem_extensions inside).mp listed
    refine ⟨⟨.onward drawn.line beside within free fresh, ?_, few⟩, rfl⟩
    rw [corners, ← drawn.counted, Nat.add_comm]

/-- The search meets the lines with at most two corners, and no others. -/
theorem below_iff (inside : Inside start) {route : Route} :
    Below (extensions map end_) ⟨0, [start]⟩ route ↔ Drawn map start end_ route := by
  constructor
  · intro below
    induction below with
    | refl => exact .single inside
    | tail _ listed ih => exact (ih.extension listed).1
  · obtain ⟨corner, line⟩ := route
    rintro ⟨line, counted, few⟩
    simp only at line counted few
    induction line generalizing corner with
    | here =>
      obtain rfl : corner = 0 := counted
      exact .refl _
    | @onward p q before line beside within free fresh ih =>
      rw [corners] at counted
      have prior := ih (corners (p :: before)) rfl (by omega)
      rw [Nat.add_comm] at counted
      subst counted
      have listed := (mem_extensions (line.inside p (List.mem_cons_self ..))).mpr
        ⟨q, ⟨beside, within, free, fresh⟩, few, rfl⟩
      exact Relation.ReflTransGen.tail prior listed

/-- Some goal lies below the first cell exactly when the cells are joined. -/
theorem exists_arrived_iff (inside : Inside start) :
    (∃ route, Arrived end_ route ∧ Below (extensions map end_) ⟨0, [start]⟩ route) ↔
      Joined map start end_ := by
  simp only [below_iff inside]
  constructor
  · rintro ⟨⟨corner, line⟩, arrived, drawn⟩
    cases line with
    | nil => cases arrived
    | cons last before =>
      obtain rfl : last = end_ := Option.some.inj arrived
      exact ⟨before, drawn.line, drawn.counted ▸ drawn.few⟩
  · rintro ⟨before, line, few⟩
    exact ⟨⟨_, end_ :: before⟩, rfl, line, rfl, few⟩

/-! ## What `travel` answers -/

namespace LLink

variable {l : LLink}

/-- An answer of the search as `travel` gives it, with what follows a failure. -/
def answer (l : LLink) (end_ : Point) (failed : Option (Int × LLink)) :
    Option (Option Route) → Option (Int × LLink)
  | none => none
  | some none => failed
  | some (some route) => some (0, { l with path := route }.remove end_)

theorem checkCorners_eq {last : Point} {before : List Point}
    (line : l.path.alreadyPath = last :: before) (cur : Point) :
    l.checkCorners cur =
      if turns before cur = 0 then (0, l)
      else if l.path.corner < 2 then
        (1, { l with path := { l.path with corner := l.path.corner + 1 } })
      else (-1, l) := by
  cases before with
  | nil => simp [checkCorners, line, turns]
  | cons prev before =>
    simp only [checkCorners, line, turns]
    split <;> simp

theorem turns_le (before : List Point) (cur : Point) : turns before cur ≤ 1 := by
  unfold turns
  split
  · split <;> simp
  · simp

/-- Whether the line may be drawn on to a cell. -/
def Allowed (end_ : Point) (l : LLink) (last : Point) (before : List Point) (cur : Point) : Prop :=
  (Inside cur ∧ (l.map cur = 0 ∨ l.map cur = l.map end_) ∧ cur ∉ last :: before) ∧
    l.path.corner + turns before cur ≤ 2

section

variable {travel : Point → LLink → Option (Int × LLink)} {before : List Point}
  {direction : Direction} {cur : Point}

/-- A direction that is not allowed is passed over. -/
theorem tryDirections_refused (line : l.path.alreadyPath = start :: before)
    (few : l.path.corner ≤ 2) (place : start.move direction = cur)
    (refused : ¬ Allowed end_ l start before cur) (rest : List Direction) :
    tryDirections travel start end_ (direction :: rest) l =
      tryDirections travel start end_ rest l := by
  simp only [tryDirections, place, line]
  split
  case isTrue => rfl
  case isFalse onBoard =>
    split
    case isTrue => rfl
    case isFalse free =>
      split
      case isTrue => rfl
      case isFalse fresh =>
        have full : ¬ l.path.corner + turns before cur ≤ 2 := by
          intro more
          refine refused ⟨⟨?_, ?_, fresh⟩, more⟩
          · exact ⟨by omega, by omega⟩
          · tauto
        have atMost := turns_le before cur
        have turning : turns before cur ≠ 0 := by omega
        have noMore : ¬ l.path.corner < 2 := by omega
        simp [checkCorners_eq line, turning, noMore]

/-- An allowed one is followed to the end; after a failure the others are tried. -/
theorem tryDirections_allowed (line : l.path.alreadyPath = start :: before)
    (place : start.move direction = cur) (allowed : Allowed end_ l start before cur)
    {found : Option (Option Route)} (deeper : ∀ l' : LLink, l' = { l with path := { l.path with
        corner := l.path.corner + turns before cur } } →
      travel cur l' = l'.answer end_ (some (-1, l')) found)
    (rest : List Direction) :
    tryDirections travel start end_ (direction :: rest) l =
      l.answer end_ (tryDirections travel start end_ rest l) found := by
  obtain ⟨⟨⟨row, column⟩, free, fresh⟩, more⟩ := allowed
  have onBoard : ¬ (rows ≤ cur.x ∨ cols ≤ cur.y) := by omega
  have free' : ¬ (l.map cur ≠ 0 ∧ l.map cur ≠ l.map end_) := by tauto
  rw [← line] at fresh
  simp only [tryDirections, place, if_neg onBoard, if_neg free', if_neg fresh,
    checkCorners_eq line]
  have atMost := turns_le before cur
  by_cases straight : turns before cur = 0
  · simp only [straight] at deeper
    have answered := deeper l rfl
    cases found with
    | none => simp [straight, answered, answer]
    | some found => cases found <;> simp [straight, answered, answer]
  · have turning : turns before cur = 1 := by omega
    have room : l.path.corner < 2 := by omega
    simp only [turning] at deeper
    have answered := deeper _ rfl
    cases found with
    | none => simp [turning, room, answered, answer]
    | some found => cases found <;> simp [turning, room, answered, answer]

/-- The loop over the directions tries the extensions of the line. -/
theorem tryDirections_eq {attempt : Route → Option (Option Route)}
    (each : ∀ (l : LLink) (cur : Point), l.path.corner ≤ 2 → l.map = map →
      travel cur l = l.answer end_ (some (-1, l)) (attempt (l.pushBack cur).path))
    (same : l.map = map) (line : l.path.alreadyPath = start :: before)
    (few : l.path.corner ≤ 2) (left : List Direction) :
    tryDirections travel start end_ left l =
      l.answer end_ (some (-1, l.popBack))
        (firstOf attempt (left.filterMap (extend map end_ l.path))) := by
  subst same
  induction left with
  | nil => rfl
  | cons direction rest ih =>
    generalize place : start.move direction = cur
    by_cases allowed : Allowed end_ l start before cur
    · obtain ⟨route, routeEq⟩ : ∃ route : Route,
          route = ⟨l.path.corner + turns before cur, cur :: start :: before⟩ := ⟨_, rfl⟩
      have extended : extend l.map end_ l.path direction = some route := by
        simp only [extend, line, place, routeEq]
        exact if_pos allowed
      have deeper (l' : LLink) (turned : l' = { l with path := { l.path with
          corner := l.path.corner + turns before cur } }) :
          travel cur l' = l'.answer end_ (some (-1, l')) (attempt route) := by
        rw [each l' cur (turned ▸ allowed.2) (turned ▸ rfl), turned, routeEq]
        simp [pushBack, line]
      rw [List.filterMap_cons_some extended, tryDirections_allowed line place allowed deeper,
        firstOf]
      cases attempt route with
      | none => rfl
      | some answer =>
        cases answer with
        | none => exact ih
        | some found => rfl
    · have refused : extend l.map end_ l.path direction = none := by
        simp only [extend, line, place]
        exact if_neg allowed
      rw [List.filterMap_cons_none refused, ← ih, tryDirections_refused line few place allowed]

end

/-- `travel` is the search through the lines; without success nothing has changed. -/
theorem travel_eq {fuel : Nat} (few : l.path.corner ≤ 2) :
    travel end_ fuel start l =
      l.answer end_ (some (-1, l)) (descend (extensions l.map end_) (Arrived end_) fuel
        (l.pushBack start).path) := by
  induction fuel generalizing l start with
  | zero => rfl
  | succ fuel ih =>
    rw [travel, descend]
    by_cases arrived : start = end_
    · have goal : Arrived end_ (l.pushBack start).path := congrArg some arrived
      rw [if_pos arrived, if_pos goal]
      rfl
    · have short : ¬ Arrived end_ (l.pushBack start).path :=
        fun goal => arrived (Option.some.inj goal)
      rw [if_neg arrived, if_neg short,
        tryDirections_eq (l := l.pushBack start) (fun l' cur few' same => same ▸ ih few') rfl rfl
          few]
      rfl

/-- A board without two cells of a pair. -/
def clear (l : LLink) (start end_ : Point) : LLink :=
  { l with
    map := Function.update (Function.update l.map end_ 0) start 0
    findPairs := uint32 (l.findPairs + 1) }

/-- From a cell of the board `travel` comes to an end, and it arrives where a line does. -/
theorem travel_new (inside : Inside start) :
    (Joined l.map start end_ ∧ ∃ path,
        travel end_ (rows * cols + 1) start { l with path := ⟨0, []⟩ } =
          some (0, { l.clear start end_ with path })) ∨
      ¬ Joined l.map start end_ ∧
        travel end_ (rows * cols + 1) start { l with path := ⟨0, []⟩ } =
          some (-1, { l with path := ⟨0, []⟩ }) := by
  have lowers {route longer : Route} (drawn : Drawn l.map start end_ route)
      (listed : longer ∈ extensions l.map end_ route) : Drawn l.map start end_ longer ∧
        rows * cols - longer.alreadyPath.length < rows * cols - route.alreadyPath.length := by
    obtain ⟨next, length⟩ := drawn.extension listed
    have bound := next.line.length_le
    exact ⟨next, by omega⟩
  have ended : (descend (extensions l.map end_) (Arrived end_) (rows * cols + 1)
      ⟨0, [start]⟩).isSome :=
    descend_isSome lowers (.single inside) (by omega)
  obtain ⟨found, answered⟩ := Option.isSome_iff_exists.mp ended
  rw [travel_eq (Nat.zero_le 2), show (pushBack { l with path := ⟨0, []⟩ } start).path =
    ⟨0, [start]⟩ from rfl, answered, ← exists_arrived_iff inside]
  cases found with
  | none =>
    refine .inr ⟨?_, rfl⟩
    rintro ⟨route, arrived, below⟩
    exact descend_failed answered below arrived
  | some route =>
    obtain ⟨arrived, below⟩ := descend_found answered
    have first := ((below_iff inside).mp below).line.getLast?
    refine .inl ⟨⟨route, arrived, below⟩, route, ?_⟩
    simp only [answer, remove, first]
    rfl

/-- A pair that may go: two cells of one kind, joined by a line. -/
structure Matches (l : LLink) (start end_ : Point) : Prop where
  onBoard : onBoard start ∧ onBoard end_
  apart : start ≠ end_
  same : l.map start = l.map end_
  joined : Joined l.map start end_

theorem inside_of_onBoard {p : Point} (onBoard : onBoard p) : Inside p := by
  unfold LLink.onBoard at onBoard
  exact ⟨by omega, by omega⟩

theorem findPath_matches (matched : l.Matches start end_) :
    ∃ path, l.findPath start end_ =
      (if l.pairCount = uint32 (l.findPairs + 1) then 2 else 0,
        { l.clear start end_ with path }) := by
  obtain ⟨⟨_, path, travelled⟩⟩ | ⟨apart, -⟩ := travel_new (inside_of_onBoard matched.onBoard.1)
  · refine ⟨path, ?_⟩
    rw [findPath, if_neg (not_not.mpr matched.onBoard.1), if_neg (not_not.mpr matched.onBoard.2),
      if_neg matched.apart, if_neg (not_not.mpr matched.same), travelled]
    rfl
  · exact absurd matched.joined apart

theorem findPath_refused (refused : ¬ l.Matches start end_) :
    ∃ path, l.findPath start end_ = (-1, { l with path }) := by
  unfold findPath
  split
  case isTrue => exact ⟨l.path, rfl⟩
  case isFalse first =>
    split
    case isTrue => exact ⟨l.path, rfl⟩
    case isFalse second =>
      split
      case isTrue => exact ⟨l.path, rfl⟩
      case isFalse apart =>
        split
        case isTrue => exact ⟨l.path, rfl⟩
        case isFalse same =>
          rw [not_not] at first second same
          obtain ⟨joined, -⟩ | ⟨-, travelled⟩ := travel_new (l := l) (inside_of_onBoard first)
          · exact absurd ⟨⟨first, second⟩, apart, same, joined⟩ refused
          · exact ⟨⟨0, []⟩, by rw [travelled]; rfl⟩

end LLink

end Taomee.LinkLink
