import Mathlib.Data.List.Chain
import Taomee.Library.DepthFirst
import Taomee.Linker.Board

/-!
# Linker: what the end of the game answers

The search on the marked board is a depth-first search over the cells of one colour: the free
points are the cells without a mark.
-/

namespace Taomee.Linker

open DepthFirst

/-! ## Cells next to a cell -/

/-- The positions that the offsets lead to inside the board. -/
def within (mapSize x y : Nat) (offsets : List (Int × Int)) : List Nat :=
  offsets.filterMap fun offset =>
    let curX : Int := x + offset.2
    let curY : Int := y + offset.1
    if 0 ≤ curX ∧ curX < mapSize ∧ 0 ≤ curY ∧ curY < mapSize then
      some (curY * mapSize + curX).toNat
    else none

def neighbours (mapSize pos : Nat) : List Nat :=
  within mapSize (pos % mapSize) (pos / mapSize) sideOffset

/-- A step to one of the six cells next to a cell. -/
def SixNeighbours (mapSize pos pos' : Nat) : Prop :=
  (((pos' / mapSize : Nat) : Int) - (pos / mapSize : Nat),
    ((pos' % mapSize : Nat) : Int) - (pos % mapSize : Nat)) ∈ sideOffset

/-- The position with given coordinates inside the board. -/
theorem position_parts {mapSize : Nat} {curX curY : Int} (left : 0 ≤ curX) (right : curX < mapSize)
    (top : 0 ≤ curY) (bottom : curY < mapSize) :
    let pos := (curY * mapSize + curX).toNat
    pos < mapSize * mapSize ∧ ((pos / mapSize : Nat) : Int) = curY ∧
      ((pos % mapSize : Nat) : Int) = curX := by
  lift curX to Nat using left
  lift curY to Nat using top
  have x : curX < mapSize := by omega
  have y : curY < mapSize := by omega
  have place : ((curY : Int) * mapSize + curX).toNat = curY * mapSize + curX := by
    rw [← Int.natCast_mul, ← Int.natCast_add, Int.toNat_natCast]
  have row : (curY + 1) * mapSize ≤ mapSize * mapSize := Nat.mul_le_mul_right _ y
  rw [Nat.succ_mul] at row
  simp only [place]
  refine ⟨by omega, ?_, ?_⟩
  · rw [Nat.mul_comm, Nat.mul_add_div (by omega), Nat.div_eq_of_lt x, Nat.add_zero]
  · rw [Nat.mul_comm, Nat.mul_add_mod, Nat.mod_eq_of_lt x]

/-- Cells of the board at one of the offsets. -/
theorem mem_within {mapSize x y pos : Nat} {offsets : List (Int × Int)} :
    pos ∈ within mapSize x y offsets ↔ pos < mapSize * mapSize ∧
      (((pos / mapSize : Nat) : Int) - y, ((pos % mapSize : Nat) : Int) - x) ∈ offsets := by
  simp only [within, List.mem_filterMap, Option.ite_none_right_eq_some, Option.some.injEq]
  constructor
  · rintro ⟨⟨offY, offX⟩, listed, ⟨left, right, top, bottom⟩, rfl⟩
    obtain ⟨inside, row, column⟩ := position_parts left right top bottom
    refine ⟨inside, ?_⟩
    rw [row, column, Int.add_comm, Int.add_sub_cancel, Int.add_comm, Int.add_sub_cancel]
    exact listed
  · rintro ⟨inside, listed⟩
    have row : pos / mapSize < mapSize := Nat.div_lt_of_lt_mul inside
    have column : pos % mapSize < mapSize :=
      Nat.mod_lt _ (Nat.pos_of_ne_zero fun empty => by simp [empty] at inside)
    have whole := Nat.div_add_mod' pos mapSize
    generalize pos / mapSize = curY at *
    refine ⟨_, listed, ⟨by omega, by omega, by omega, by omega⟩, ?_⟩
    rw [Int.add_comm (y : Int), Int.sub_add_cancel, Int.add_comm (x : Int), Int.sub_add_cancel,
      ← Int.natCast_mul, ← Int.natCast_add, Int.toNat_natCast, whole]

/-- The neighbours of a cell are its six, on the board. -/
theorem mem_neighbours {mapSize pos pos' : Nat} :
    pos' ∈ neighbours mapSize pos ↔
      pos' < mapSize * mapSize ∧ SixNeighbours mapSize pos pos' :=
  mem_within

/-! ## Marks -/

variable {flag : Cell} {l l' l'' : Linker}

/-- The cells of a colour without a mark. -/
def openCells (flag : Cell) (l : Linker) : Finset Nat :=
  (Finset.range (l.mapSize * l.mapSize)).filter (l.map · = flag)

/-- The cells of a colour without a mark. -/
theorem mem_openCells {pos : Nat} :
    pos ∈ openCells flag l ↔ pos < l.mapSize * l.mapSize ∧ l.map pos = flag := by
  simp [openCells]

/-- Nothing but marks on cells of the colour, and the test list. -/
structure Marked (flag : Cell) (l l' : Linker) : Prop where
  cells : ∀ pos, l'.map pos = l.map pos ∨
    pos < l.mapSize * l.mapSize ∧ l.map pos = flag ∧ l'.map pos = flag ||| cfBeAdd
  rest : l' = { l with map := l'.map, testList := l'.testList }

theorem Marked.refl (flag : Cell) (l : Linker) : Marked flag l l := ⟨fun _ => .inl rfl, rfl⟩

/-- Marks leave the size of the board. -/
theorem Marked.mapSize (marked : Marked flag l l') : l'.mapSize = l.mapSize := by
  rw [marked.rest]

theorem Marked.trans (colour : flag ||| cfBeAdd ≠ flag) (first : Marked flag l l')
    (second : Marked flag l' l'') : Marked flag l l'' where
  cells := by
    intro pos
    rcases second.cells pos with same | ⟨inside, before, mark⟩
    · rw [same]
      exact first.cells pos
    · rcases first.cells pos with same | ⟨-, -, already⟩
      · exact .inr ⟨first.mapSize ▸ inside, same ▸ before, mark⟩
      · exact absurd (already.symm.trans before) colour
  rest := by
    rw [second.rest, first.rest]

/-- Marking one cell of the colour. -/
theorem Marked.setCell {pos : Nat} (inside : pos < l.mapSize * l.mapSize)
    (cell : l.map pos = flag) :
    Marked flag l (l.setCell pos (l.map pos ||| cfBeAdd)) where
  cells := by
    intro other
    by_cases same : other = pos
    · subst same
      exact .inr ⟨inside, cell, by simp [Linker.setCell, cell]⟩
    · exact .inl (by simp [Linker.setCell, same])
  rest := rfl

/-- A marked cell is open no more. -/
theorem openCells_setCell {pos : Nat} (colour : flag ||| cfBeAdd ≠ flag) (cell : l.map pos = flag) :
    openCells flag (l.setCell pos (l.map pos ||| cfBeAdd)) = (openCells flag l).erase pos := by
  ext other
  simp only [mem_openCells, Finset.mem_erase, Linker.setCell]
  by_cases same : other = pos
  · simp [same, cell, colour]
  · simp [same]

/-- Marking the neighbours claims the free ones among them. -/
theorem sign_claims (colour : flag ||| cfBeAdd ≠ flag) (x y : Nat) (offsets : List (Int × Int))
    (l : Linker) :
    let free := claim (openCells flag l) (within l.mapSize x y offsets)
    (sign flag x y offsets l).1 = free.1 ∧ openCells flag (sign flag x y offsets l).2 = free.2 ∧
      Marked flag l (sign flag x y offsets l).2 ∧
      (sign flag x y offsets l).2.testList = l.testList := by
  induction offsets generalizing l with
  | nil => exact ⟨rfl, rfl, .refl flag l, rfl⟩
  | cons offset offsets ih =>
    obtain ⟨offY, offX⟩ := offset
    by_cases inside : 0 ≤ (x : Int) + offX ∧ x + offX < l.mapSize ∧ 0 ≤ (y : Int) + offY ∧
        y + offY < l.mapSize
    · obtain ⟨place, -, -⟩ := position_parts inside.1 inside.2.1 inside.2.2.1 inside.2.2.2
      have here : within l.mapSize x y ((offY, offX) :: offsets) =
          (((y : Int) + offY) * l.mapSize + (x + offX)).toNat :: within l.mapSize x y offsets :=
        List.filterMap_cons_some (if_pos inside)
      obtain ⟨testPos, same⟩ :
        ∃ testPos, testPos = (((y : Int) + offY) * l.mapSize + (x + offX)).toNat := ⟨_, rfl⟩
      rw [← same] at here place
      rw [here]
      by_cases cell : l.map testPos = flag
      · have mark : sign flag x y ((offY, offX) :: offsets) l =
            (testPos :: (sign flag x y offsets (l.setCell testPos (l.map testPos ||| cfBeAdd))).1,
              (sign flag x y offsets (l.setCell testPos (l.map testPos ||| cfBeAdd))).2) := by
          simp only [sign, ← same]
          exact if_pos ⟨inside, cell⟩
        have member : testPos ∈ openCells flag l := mem_openCells.mpr ⟨place, cell⟩
        obtain ⟨listed, left, marked, kept⟩ := ih (l.setCell testPos (l.map testPos ||| cfBeAdd))
        rw [openCells_setCell colour cell] at listed left
        rw [mark, claim, if_pos member]
        exact ⟨congrArg (testPos :: ·) listed, left,
          (Marked.setCell place cell).trans colour marked, kept⟩
      · have skip : sign flag x y ((offY, offX) :: offsets) l = sign flag x y offsets l := by
          simp only [sign, ← same]
          exact if_neg fun both => cell both.2
        have absent : testPos ∉ openCells flag l := fun member => cell (mem_openCells.mp member).2
        rw [skip, claim, if_neg absent]
        exact ih l
    · have here : within l.mapSize x y ((offY, offX) :: offsets) = within l.mapSize x y offsets :=
        List.filterMap_cons_none (if_neg inside)
      have skip : sign flag x y ((offY, offX) :: offsets) l = sign flag x y offsets l :=
        if_neg fun both => inside both.1
      rw [here, skip]
      exact ih l

/-! ## The search on the board -/

/-- The answer of a visit, and what the board and the test list are after it. -/
inductive Matches (flag : Cell) (l : Linker) :
    Option (Option (List Nat) × Finset Nat) → Option (IsPassRet × Linker) → Prop where
  | spent : Matches flag l none none
  | pass {path : List Nat} {l' : Linker} (marked : Marked flag l l')
      (listed : l'.testList = l.testList ++ path.map toChar) :
      Matches flag l (some (some path, openCells flag l')) (some (.pass, l'))
  | end_ {l' : Linker} (marked : Marked flag l l') (listed : l'.testList = l.testList) :
      Matches flag l (some (none, openCells flag l')) (some (.end_, l'))

variable {answer : Option (Option (List Nat) × Finset Nat)} {result : Option (IsPassRet × Linker)}

/-- Marks made before the call count as visited. -/
theorem Matches.after (colour : flag ||| cfBeAdd ≠ flag) (marked : Marked flag l l')
    (listed : l'.testList = l.testList) (agrees : Matches flag l' answer result) :
    Matches flag l answer result := by
  cases agrees with
  | spent => exact .spent
  | pass marked' listed' => exact .pass (marked.trans colour marked') (listed ▸ listed')
  | end_ marked' listed' => exact .end_ (marked.trans colour marked') (listed'.trans listed)

/-- The cell that led on is added behind the cells found from it. -/
theorem testList_testAdd {path : List Nat} (listed : l'.testList = l.testList ++ path.map toChar)
    (pos : Nat) : (l'.testAdd pos).testList = l.testList ++ (path ++ [pos]).map toChar := by
  simp [testAdd, listed]

/-- The test list is beside the board. -/
theorem Marked.testAdd (marked : Marked flag l l') (pos : Nat) :
    Marked flag l (l'.testAdd pos) where
  cells := marked.cells
  rest := by
    rw [Linker.testAdd, marked.rest]

/-- The loop over the neighbours agrees if each visit does. -/
theorem check_matches (colour : flag ||| cfBeAdd ≠ flag)
    {attempt : Nat → Finset Nat → Option (Option (List Nat) × Finset Nat)}
    {pass : Nat → Linker → Option (IsPassRet × Linker)}
    {mapSize : Nat} (single : ∀ {pos l}, l.mapSize = mapSize → pos < mapSize * mapSize →
      Matches flag l (attempt pos (openCells flag l)) (pass pos l))
    (size : l.mapSize = mapSize) {testPosList : List Nat}
    (inside : ∀ pos ∈ testPosList, pos < mapSize * mapSize) :
    Matches flag l (tryEach attempt testPosList (openCells flag l)) (check pass testPosList l) := by
  induction testPosList generalizing l with
  | nil => exact .end_ (.refl flag l) rfl
  | cons testPos testPosList ih =>
    have first := single size (inside testPos (List.mem_cons_self ..))
    simp only [tryEach, check]
    generalize attempt testPos (openCells flag l) = answer at first ⊢
    generalize pass testPos l = result at first ⊢
    cases first with
    | spent => exact .spent
    | pass marked listed => exact .pass (marked.testAdd testPos) (testList_testAdd listed testPos)
    | end_ marked listed =>
      refine Matches.after colour marked listed
        (ih (marked.mapSize.trans size) fun pos member => ?_)
      exact inside pos (List.mem_cons_of_mem _ member)

/-- The side that a colour goes for: the last row, or the last column. -/
def Reached (flag : Cell) (mapSize pos : Nat) : Prop :=
  flag = cfWinter ∧ mapSize = pos / mapSize + 1 ∨ flag = cfSpring ∧ mapSize = pos % mapSize + 1

instance (flag : Cell) (mapSize : Nat) : DecidablePred (Reached flag mapSize) :=
  fun _ => inferInstanceAs (Decidable (_ ∨ _))

/-- By induction on the fuel: `IsPass` is the visit of the search. -/
theorem isPass_matches (colour : flag ||| cfBeAdd ≠ flag) {fuel pos mapSize : Nat}
    (size : l.mapSize = mapSize) (inside : pos < mapSize * mapSize) :
    Matches flag l (visit (neighbours mapSize) (Reached flag mapSize) fuel pos (openCells flag l))
      (isPass flag fuel pos l) := by
  induction fuel generalizing l pos with
  | zero => exact .spent
  | succ fuel ih =>
    have row : pos / mapSize < mapSize := Nat.div_lt_of_lt_mul inside
    simp only [visit, isPass, size, if_neg (Nat.not_lt.mpr (Nat.le_of_lt row))]
    by_cases reached : Reached flag mapSize pos
    · rw [if_pos reached]
      have pass : Matches flag l (some (some [], openCells flag l)) (some (.pass, l)) :=
        .pass (.refl flag l) (by simp)
      split
      · exact pass
      · rename_i winter
        rw [if_pos (reached.resolve_left winter)]
        exact pass
    · rw [if_neg reached, if_neg fun here => reached (.inl here),
        if_neg fun here => reached (.inr here)]
      obtain ⟨listed, left, marked, kept⟩ :=
        sign_claims colour (pos % mapSize) (pos / mapSize) sideOffset l
      rw [size] at listed left
      have claimed : claim (openCells flag l) (neighbours mapSize pos) =
          ((sign flag (pos % mapSize) (pos / mapSize) sideOffset l).1,
            openCells flag (sign flag (pos % mapSize) (pos / mapSize) sideOffset l).2) :=
        Prod.ext listed.symm left.symm
      rw [claimed]
      refine Matches.after colour marked kept
        (check_matches colour ih (marked.mapSize.trans size) fun testPos member => ?_)
      rw [listed] at member
      have free := (mem_openCells.mp (mem_claim.mp member).1).1
      rwa [size] at free

/-- The answer of a search from a side, and what the board and the test list are after it. -/
inductive SideMatches (flag : Cell) (l : Linker) :
    Option (Option (List Nat) × Finset Nat) → Option (Bool × Linker) → Prop where
  | spent : SideMatches flag l none none
  | joined {path : List Nat} {l' : Linker} {free : Finset Nat} (marked : Marked flag l l')
      (listed : l'.testList = path.map toChar) :
      SideMatches flag l (some (some path, free)) (some (true, l'))
  | apart {l' : Linker} {free : Finset Nat} (marked : Marked flag l l')
      (listed : l'.testList = []) :
      SideMatches flag l (some (none, free)) (some (false, l'))

/-- Marks made before the search count as visited. -/
theorem SideMatches.after {result : Option (Bool × Linker)} (colour : flag ||| cfBeAdd ≠ flag)
    (marked : Marked flag l l') (agrees : SideMatches flag l' answer result) :
    SideMatches flag l answer result := by
  cases agrees with
  | spent => exact .spent
  | joined marked' listed => exact .joined (marked.trans colour marked') listed
  | apart marked' listed => exact .apart (marked.trans colour marked') listed

/-- An empty list is clear. -/
theorem testListClear_eq (empty : l.testList = []) : l.testListClear = l := by
  cases l
  simp_all [testListClear]

/-- The loop over a side is the search from it. -/
theorem checkSide_matches (colour : flag ||| cfBeAdd ≠ flag) {fuel mapSize : Nat}
    (size : l.mapSize = mapSize) (empty : l.testList = []) {side : List Nat}
    (inside : ∀ pos ∈ side, pos < mapSize * mapSize) :
    SideMatches flag l
      (search (neighbours mapSize) (Reached flag mapSize) fuel side (openCells flag l))
      (checkSide flag fuel side l) := by
  induction side generalizing l with
  | nil => exact .apart (.refl flag l) empty
  | cons pos side ih =>
    have here := inside pos (List.mem_cons_self ..)
    have others := fun other member => inside other (List.mem_cons_of_mem pos member)
    simp only [search, checkSide, mem_openCells, size]
    by_cases cell : l.map pos = flag
    · rw [if_pos ⟨here, cell⟩, if_pos cell, ← openCells_setCell colour cell]
      have mark := Marked.setCell (size ▸ here) cell
      have none' : (l.setCell pos (l.map pos ||| cfBeAdd)).testList = [] := empty
      generalize l.setCell pos (l.map pos ||| cfBeAdd) = l₁ at mark none' ⊢
      have first : Matches flag l₁ (visit (neighbours mapSize) (Reached flag mapSize) fuel pos
          (openCells flag l₁)) (isPass flag fuel pos l₁) :=
        isPass_matches colour (mark.mapSize.trans size) here
      refine SideMatches.after colour mark ?_
      generalize visit (neighbours mapSize) (Reached flag mapSize) fuel pos (openCells flag l₁) =
        answer at first ⊢
      generalize isPass flag fuel pos l₁ = result at first ⊢
      cases first with
      | spent => exact .spent
      | pass marked listed =>
        refine .joined (marked.testAdd pos) ?_
        rw [testList_testAdd listed, none', List.nil_append]
      | end_ marked listed =>
        have still := listed.trans none'
        simp only [testListClear_eq still]
        exact .after colour marked
          (ih (marked.mapSize.trans (mark.mapSize.trans size)) still others)
    · rw [if_neg fun both => cell both.2, if_neg cell]
      exact ih size empty others

/-! ## Lines from side to side -/

/-- Cells of a colour in six-neighbour steps, from coordinate 0 to the last. -/
structure Path (l : Linker) (flag : Cell) (coord : Nat → Nat) (path : List Nat) : Prop where
  cells : ∀ pos ∈ path, pos < l.mapSize * l.mapSize ∧ l.map pos = flag
  steps : path.IsChain (SixNeighbours l.mapSize)
  starts : ∃ pos, path.head? = some pos ∧ coord pos = 0
  ends : ∃ pos, path.getLast? = some pos ∧ coord pos + 1 = l.mapSize

/-- From the column `x = 0` to the last. -/
def SpringPath (l : Linker) (path : List Nat) : Prop := Path l cfSpring (· % l.mapSize) path

/-- From the row `y = 0` to the last. -/
def WinterPath (l : Linker) (path : List Nat) : Prop := Path l cfWinter (· / l.mapSize) path

/-- The cells that a colour starts from, and the coordinate it goes along. -/
structure Goes (flag : Cell) (mapSize : Nat) (side : List Nat) (coord : Nat → Nat) : Prop where
  starts : ∀ pos, pos ∈ side ↔ pos < mapSize * mapSize ∧ coord pos = 0
  ends : ∀ pos, Reached flag mapSize pos ↔ mapSize = coord pos + 1

/-- Spring goes from the first column to the last. -/
theorem spring_goes (mapSize : Nat) :
    Goes cfSpring mapSize (springSide mapSize) (· % mapSize) where
  starts := by
    intro pos
    simp only [springSide, List.mem_map, List.mem_range]
    constructor
    · rintro ⟨y, row, rfl⟩
      exact ⟨Nat.mul_lt_mul_of_pos_right row (Nat.zero_lt_of_lt row), Nat.mul_mod_left y mapSize⟩
    · rintro ⟨inside, first⟩
      exact ⟨pos / mapSize, Nat.div_lt_of_lt_mul inside,
        Nat.div_mul_cancel (Nat.dvd_of_mod_eq_zero first)⟩
  ends := by
    simp [Reached, show cfSpring ≠ cfWinter by decide]

/-- Winter goes from the first row to the last. -/
theorem winter_goes (mapSize : Nat) :
    Goes cfWinter mapSize (winterSide mapSize) (· / mapSize) where
  starts := by
    intro pos
    simp only [winterSide, List.mem_range]
    constructor
    · intro column
      have cells := Nat.le_mul_of_pos_left mapSize (Nat.zero_lt_of_lt column)
      exact ⟨column.trans_le cells, Nat.div_eq_of_lt column⟩
    · rintro ⟨inside, first⟩
      have positive : 0 < mapSize := Nat.pos_of_ne_zero fun empty => by simp [empty] at inside
      exact (Nat.div_eq_zero_iff_lt positive).mp first
  ends := by
    simp [Reached, show cfWinter ≠ cfSpring by decide]

/-- What a successful search lists, read from the start on: a thread of cells of the colour that
uses no cell of the side before its first one. -/
structure Found (flag : Cell) (l : Linker) (side path : List Nat) : Prop where
  thread : Thread (neighbours l.mapSize) (Reached flag l.mapSize) path
  nodup : path.Nodup
  cells : ∀ pos ∈ path, pos ∈ openCells flag l
  first : ∃ before pos after rest, side = before ++ pos :: after ∧ path = pos :: rest ∧
    ∀ other ∈ before, other ∉ rest

variable {side : List Nat} {coord : Nat → Nat}

/-- What the search finds is a path of the colour. -/
theorem Found.path {path : List Nat} (found : Found flag l side path)
    (goes : Goes flag l.mapSize side coord) : Path l flag coord path where
  cells := fun pos member => mem_openCells.mp (found.cells pos member)
  steps := found.thread.chain.imp fun _ _ linked => (mem_neighbours.mp linked).2
  starts := by
    obtain ⟨before, pos, after, rest, parts, rfl, -⟩ := found.first
    refine ⟨pos, rfl, ((goes.starts pos).mp ?_).2⟩
    simp [parts]
  ends := by
    obtain ⟨before, pos, after, rest, -, rfl, -⟩ := found.first
    have last := List.getLast?_eq_some_getLast (List.cons_ne_nil pos rest)
    exact ⟨_, last, ((goes.ends _).mp (found.thread.goal_of_getLast? last)).symm⟩

/-- Only the cells of the colour count. -/
theorem Found.congr {path : List Nat} (found : Found flag l' side path)
    (size : l'.mapSize = l.mapSize) (same : ∀ pos, l'.map pos = flag ↔ l.map pos = flag) :
    Found flag l side path := by
  obtain ⟨thread, nodup, cells, first⟩ := found
  rw [size] at thread
  refine ⟨thread, nodup, fun pos member => ?_, first⟩
  have cell := mem_openCells.mp (cells pos member)
  rw [size, same] at cell
  exact mem_openCells.mpr cell

/-- How many cells the line has that a depth-first search from a side finds, which looks at the
cells next to a cell in the order of `sideOffset`; 0 without a line. -/
def lineLength (flag : Cell) (side : List Nat) (l : Linker) : Nat :=
  match search (neighbours l.mapSize) (Reached flag l.mapSize) (l.mapSize * l.mapSize + 1) side
      (openCells flag l) with
  | some (some path, _) => path.length
  | _ => 0

/-- What a search from a side comes to. -/
theorem checkSide_spec (colour : flag ||| cfBeAdd ≠ flag) (goes : Goes flag l.mapSize side coord)
    (empty : l.testList = []) :
    ∃ joined l', checkSide flag (l.mapSize * l.mapSize + 1) side l = some (joined, l') ∧
      Marked flag l l' ∧ l'.testList.length = lineLength flag side l ∧
      (joined = true → ∃ path, Found flag l side path ∧ l'.testList = path.reverse.map toChar) ∧
      (joined = false → l'.testList = [] ∧ ¬ ∃ path, Path l flag coord path) := by
  have bound : (openCells flag l).card < l.mapSize * l.mapSize + 1 := by
    have all := Finset.card_filter_le (Finset.range (l.mapSize * l.mapSize)) (l.map · = flag)
    rw [Finset.card_range] at all
    exact Nat.lt_succ_of_le all
  have answered : (search (neighbours l.mapSize) (Reached flag l.mapSize)
      (l.mapSize * l.mapSize + 1) side (openCells flag l)).isSome := search_isSome bound
  have agrees : SideMatches flag l
      (search (neighbours l.mapSize) (Reached flag l.mapSize) (l.mapSize * l.mapSize + 1) side
        (openCells flag l))
      (checkSide flag (l.mapSize * l.mapSize + 1) side l) :=
    checkSide_matches colour rfl empty fun pos member => ((goes.starts pos).mp member).1
  generalize result : checkSide flag (l.mapSize * l.mapSize + 1) side l = out at agrees
  generalize answer : search (neighbours l.mapSize) (Reached flag l.mapSize)
    (l.mapSize * l.mapSize + 1) side (openCells flag l) = got at agrees answered
  cases agrees with
  | spent => simp at answered
  | @joined path l' free marked listed =>
    refine ⟨true, l', rfl, marked, by rw [lineLength, answer, listed, List.length_map],
      fun _ => ?_, nofun⟩
    obtain ⟨before, pos, after, middle, tail, parts, start, fewer, gone, rfl, trail⟩ :=
      search_found answer
    have used : pos ∉ middle := fun member => (Finset.mem_erase.mp (fewer member)).1 rfl
    refine ⟨pos :: tail.reverse, {
      thread := trail.thread
      nodup := trail.nodup used
      cells := ?cells
      first := ⟨before, pos, after, tail.reverse, parts, rfl, ?first⟩ }, by simpa using listed⟩
    case cells =>
      intro other member
      rcases List.mem_cons.mp member with rfl | later
      · exact start
      · exact Finset.mem_of_mem_erase (fewer (trail.subset other (List.mem_reverse.mp later)))
    case first =>
      intro other earlier member
      exact gone other earlier (trail.subset other (List.mem_reverse.mp member))
  | @apart l' free marked listed =>
    refine ⟨false, l', rfl, marked, by rw [lineLength, answer, listed, List.length_nil], nofun,
      fun _ => ⟨listed, ?_⟩⟩
    rintro ⟨path, joins⟩
    obtain ⟨start, head, first⟩ := joins.starts
    obtain ⟨stop, last, reached⟩ := joins.ends
    obtain ⟨rest, rfl⟩ : ∃ rest, path = start :: rest := List.head?_eq_some_iff.mp head
    have inside := joins.cells start (List.mem_cons_self ..)
    have steps : (start :: rest).IsChain fun pos pos' =>
        pos' ∈ neighbours l.mapSize pos ∧ pos' ∈ openCells flag l := by
      refine joins.steps.imp_of_mem_imp fun pos pos' _ member linked => ?_
      have cell := joins.cells pos' member
      exact ⟨mem_neighbours.mpr ⟨cell.1, linked⟩, mem_openCells.mpr cell⟩
    have along := List.relationReflTransGen_of_exists_isChain_cons rest steps
      (List.getLast_of_mem_getLast? last)
    exact search_complete answer ((goes.starts start).mpr ⟨inside.1, first⟩)
      (mem_openCells.mpr inside) along ((goes.ends stop).mpr reached.symm)

/-! ## The whole check -/

theorem spring_colour : cfSpring ||| cfBeAdd ≠ cfSpring := by decide

theorem winter_colour : cfWinter ||| cfBeAdd ≠ cfWinter := by decide

/-- A marked cell is unmarked as it was. -/
theorem unmark (cell : Cell) : (cell ||| cfBeAdd) &&& ~~~cfBeAdd = cell &&& ~~~cfBeAdd := by
  revert cell
  decide

/-- A plain cell has no mark to take away. -/
theorem unmarked {cell : Cell} (plain : cell ≤ cfChessS50) : cell &&& ~~~cfBeAdd = cell := by
  revert cell
  decide

/-- Clearing the marks undoes a search. -/
theorem Marked.clear (marked : Marked flag l l') : clearMarks l' =
    { clearMarks l with testList := l'.testList } := by
  have cells : (clearMarks l').map = (clearMarks l).map := by
    funext pos
    simp only [clearMarks, marked.mapSize]
    rcases marked.cells pos with same | ⟨inside, before, mark⟩
    · rw [same]
    · rw [if_pos inside, if_pos inside, mark, before, unmark]
  have same : clearMarks l' = { l' with map := (clearMarks l').map } := rfl
  rw [same, cells, marked.rest]
  rfl

/-- Without marks there is nothing to clear. -/
theorem clearMarks_eq (plain : ∀ pos < l.mapSize * l.mapSize, l.map pos ≤ cfChessS50) :
    clearMarks l = l := by
  have cells : (clearMarks l).map = l.map := by
    funext pos
    simp only [clearMarks]
    split
    case isTrue inside => exact unmarked (plain pos inside)
    case isFalse => rfl
  have same : clearMarks l = { l with map := (clearMarks l).map } := rfl
  rw [same, cells]

/-- Marks on spring cells leave the winter cells alone. -/
theorem Marked.winter_iff (marked : Marked cfSpring l l') (pos : Nat) :
    l'.map pos = cfWinter ↔ l.map pos = cfWinter := by
  rcases marked.cells pos with same | ⟨-, before, mark⟩
  · rw [same]
  · rw [before, mark]
    decide

/-- Marks on spring leave the paths of winter. -/
theorem Marked.winterPath_iff (marked : Marked cfSpring l l') (path : List Nat) :
    WinterPath l' path ↔ WinterPath l path := by
  constructor
  · rintro ⟨cells, steps, starts, ends⟩
    simp only [marked.mapSize, marked.winter_iff] at cells steps starts ends
    exact ⟨cells, steps, starts, ends⟩
  · rintro ⟨cells, steps, starts, ends⟩
    refine ⟨?_, ?_, ?_, ?_⟩ <;> simp only [marked.mapSize, marked.winter_iff]
    · exact cells
    · exact steps
    · exact starts
    · exact ends

/-- How a check comes out. -/
inductive Outcome (l : Linker) : Cell → Linker → Prop where
  | spring {path : List Nat} (found : Found cfSpring l (springSide l.mapSize) path)
      (length : path.length = lineLength cfSpring (springSide l.mapSize) l) :
      Outcome l wSpring { clearMarks l with testList := path.reverse.map toChar }
  | winter {path : List Nat} (apart : ¬ ∃ path, SpringPath l path)
      (found : Found cfWinter l (winterSide l.mapSize) path)
      (none : lineLength cfSpring (springSide l.mapSize) l = 0)
      (length : path.length = lineLength cfWinter (winterSide l.mapSize) l) :
      Outcome l wWinter { clearMarks l with testList := path.reverse.map toChar }
  | neither (apart : ¬ ∃ path, SpringPath l path) (apart' : ¬ ∃ path, WinterPath l path)
      (none : lineLength cfSpring (springSide l.mapSize) l = 0)
      (none' : lineLength cfWinter (winterSide l.mapSize) l = 0) :
      Outcome l (winnerByChess l) { clearMarks l with testList := [] }

/-- The fuel of a check lasts, and the search is sound and complete. -/
theorem checkGameOver_outcome (l : Linker) :
    ∃ winner l', checkGameOver l = some (winner, l') ∧ Outcome l winner l' := by
  obtain ⟨spring, l₁, first, marked₁, length₁, joined₁, apart₁⟩ :=
    checkSide_spec (l := l.testListClear) spring_colour (spring_goes l.mapSize) rfl
  have same₁ : lineLength cfSpring (springSide l.mapSize) l.testListClear =
      lineLength cfSpring (springSide l.mapSize) l := rfl
  rw [same₁] at length₁
  have marks : Marked cfSpring l l₁ := ⟨marked₁.cells, marked₁.rest⟩
  simp only [checkGameOver]
  rw [show l.testListClear.mapSize = l.mapSize from rfl] at first
  rw [first]
  cases spring with
  | true =>
    obtain ⟨path, found, listed⟩ := joined₁ rfl
    refine ⟨wSpring, clearMarks l₁, rfl, ?_⟩
    rw [listed, List.length_map, List.length_reverse] at length₁
    rw [marks.clear, listed]
    exact .spring ⟨found.thread, found.nodup, found.cells, found.first⟩ length₁
  | false =>
    obtain ⟨listed₁, none₁⟩ := apart₁ rfl
    rw [listed₁, List.length_nil] at length₁
    have noSpring : ¬ ∃ path, SpringPath l path := by
      rintro ⟨path, joins⟩
      exact none₁ ⟨path, joins.cells, joins.steps, joins.starts, joins.ends⟩
    have goes : Goes cfWinter l₁.mapSize (winterSide l.mapSize) (· / l₁.mapSize) := by
      rw [marks.mapSize]
      exact winter_goes l.mapSize
    obtain ⟨winter, l₂, second, marked₂, length₂, joined₂, apart₂⟩ :=
      checkSide_spec winter_colour goes listed₁
    have same₂ : openCells cfWinter l₁ = openCells cfWinter l := by
      simp only [openCells, marks.mapSize, marks.winter_iff]
    rw [lineLength, marks.mapSize, same₂, ← lineLength] at length₂
    have cleared : clearMarks l₂ = { clearMarks l with testList := l₂.testList } := by
      rw [marked₂.clear, marks.clear]
    rw [marks.mapSize] at second
    simp only [Option.bind_eq_bind, Option.bind_some, marks.mapSize]
    rw [if_neg (by decide), second]
    cases winter with
    | true =>
      obtain ⟨path, found, listed₂⟩ := joined₂ rfl
      refine ⟨wWinter, clearMarks l₂, rfl, ?_⟩
      rw [listed₂, List.length_map, List.length_reverse] at length₂
      rw [cleared, listed₂]
      exact .winter noSpring (found.congr marks.mapSize marks.winter_iff) length₁.symm length₂
    | false =>
      obtain ⟨listed₂, none₂⟩ := apart₂ rfl
      have noWinter : ¬ ∃ path, WinterPath l path := by
        rintro ⟨path, joins⟩
        exact none₂ ⟨path, (marks.winterPath_iff path).mpr joins⟩
      have players : winnerByChess l₂ = winnerByChess l := by
        rw [marked₂.rest, marks.rest]
        rfl
      refine ⟨winnerByChess l₂, clearMarks l₂, rfl, ?_⟩
      rw [listed₂, List.length_nil] at length₂
      rw [players, cleared, listed₂]
      exact .neither noSpring noWinter length₁.symm length₂.symm

/-- The test list holds a line from its end on; the positions of a board of at most 11 rows fit
in a `char`. -/
structure Listed (l : Linker) (path : List Nat) : Prop where
  chars : l.testList = path.reverse.map toChar
  positions : l.mapSize ≤ 11 → l.testList = path.reverse.map fun pos : Nat => (pos : Int)

/-- A small position is its own `char`. -/
theorem toChar_eq {pos : Nat} (small : pos < 128) : toChar pos = pos :=
  Int.bmod_eq_of_le (by omega) (by omega)

/-- The test list holds the path from its end. -/
theorem Path.listed {path : List Nat} (joins : Path l flag coord path) (l' : Linker)
    (size : l'.mapSize = l.mapSize) (chars : l'.testList = path.reverse.map toChar) :
    Listed l' path where
  chars := chars
  positions := by
    intro small
    rw [chars]
    refine List.map_congr_left fun pos member => toChar_eq ?_
    have inside := (joins.cells pos (List.mem_reverse.mp member)).1
    have square : l.mapSize * l.mapSize ≤ 11 * 11 := Nat.mul_le_mul (size ▸ small) (size ▸ small)
    omega

/-- The winner and the test list of a check of the board. -/
structure Reports (l : Linker) (winner : Cell) (l' : Linker) : Prop where
  spring : winner = wSpring ↔ ∃ path, SpringPath l path
  winter : winner = wWinter ↔ (¬ ∃ path, SpringPath l path) ∧ ∃ path, WinterPath l path
  neither : winner = wHavntOver ↔ (¬ ∃ path, SpringPath l path) ∧ ¬ ∃ path, WinterPath l path
  springList : winner = wSpring →
    ∃ path, SpringPath l path ∧ Listed l' path
  winterList : winner = wWinter →
    ∃ path, WinterPath l path ∧ Listed l' path
  kept : l' = { l with testList := l'.testList }

/-- The line that decides the game has no more cells than the block of the test list has entries. -/
def LineFits (l : Linker) : Prop :=
  lineLength cfSpring (springSide l.mapSize) l ≤ l.mapSize * l.mapSize / 2 ∧
    (lineLength cfSpring (springSide l.mapSize) l = 0 →
      lineLength cfWinter (winterSide l.mapSize) l ≤ l.mapSize * l.mapSize / 2)

instance (l : Linker) : Decidable (LineFits l) := inferInstanceAs (Decidable (_ ∧ _))

/-- A path has a cell. -/
theorem Found.length_ne_zero {path : List Nat} (found : Found flag l side path) :
    path.length ≠ 0 := by
  obtain ⟨before, pos, after, rest, -, rfl, -⟩ := found.first
  exact Nat.succ_ne_zero _

/-- A check stores the cells of the line that decides the game. -/
theorem Outcome.room_iff {winner : Cell} (outcome : Outcome l winner l') :
    l'.testList.length ≤ l.mapSize * l.mapSize / 2 ↔ LineFits l := by
  cases outcome with
  | spring found length =>
    have some' := found.length_ne_zero
    simp only [List.length_map, List.length_reverse, LineFits, ← length, some', false_implies,
      and_true]
  | winter apart found none length =>
    simp [LineFits, none, ← length]
  | neither apart apart' none none' => simp [LineFits, none, none']

/-- A check of a board of blank, award and player cells, while no player has used 25 chess. It
reports spring where spring cells join their sides, else winter where winter cells do, else no
winner; the test list holds the cells of such a line from its end to its start, and nothing but
the test list has changed. -/
theorem Outcome.reports {winner : Cell} (outcome : Outcome l winner l')
    (plain : ∀ pos < l.mapSize * l.mapSize, l.map pos ≤ cfChessS50)
    (few : ∀ seat, (l.player seat).chessUsed < linkerGameMaxChessCnt) : Reports l winner l' := by
  have clear := clearMarks_eq plain
  have open_ : winnerByChess l = wHavntOver := by
    unfold winnerByChess
    rw [if_neg (Nat.not_le.mpr (few .first)), if_neg (Nat.not_le.mpr (few .second))]
  cases outcome with
  | @spring path found =>
    have joins := found.path (spring_goes l.mapSize)
    have joined : ∃ path, SpringPath l path := ⟨path, joins⟩
    exact {
      spring := iff_of_true rfl joined
      winter := iff_of_false (by decide) fun both => both.1 joined
      neither := iff_of_false (by decide) fun both => both.1 joined
      springList := fun _ => ⟨path, joins, joins.listed _ rfl rfl⟩
      winterList := fun same => absurd same (by decide)
      kept := by rw [clear] }
  | @winter path apart found =>
    have joins := found.path (winter_goes l.mapSize)
    have joined : ∃ path, WinterPath l path := ⟨path, joins⟩
    exact {
      spring := iff_of_false (by decide) apart
      winter := iff_of_true rfl ⟨apart, joined⟩
      neither := iff_of_false (by decide) fun both => both.2 joined
      springList := fun same => absurd same (by decide)
      winterList := fun _ => ⟨path, joins, joins.listed _ rfl rfl⟩
      kept := by rw [clear] }
  | neither apart apart' =>
    rw [open_]
    exact {
      spring := iff_of_false (by decide) apart
      winter := iff_of_false (by decide) fun both => apart' both.2
      neither := iff_of_true rfl ⟨apart, apart'⟩
      springList := fun same => absurd same (by decide)
      winterList := fun same => absurd same (by decide)
      kept := by rw [clear] }

end Taomee.Linker
