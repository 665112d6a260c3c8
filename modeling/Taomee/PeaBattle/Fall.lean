import Mathlib.Data.Nat.Find
import Taomee.PeaBattle.MapData

/-!
# Falling

A player without ground falls row by row, until there is a solid cell below or he has left the map.
-/

namespace Taomee.PeaBattle

/-- What falling reads and writes of a player, at a whole position. -/
structure Faller where
  id : UInt32
  x : Nat
  y : Nat
  width : UInt32
  dead : Bool

/-- The test of a column in the loop. -/
def blocks (map : MapData) (y i : UInt32) : Bool :=
  let index := getIndexFromPos map i y
  map.checkValidIndex index && map.grid index != 0

/-- `none` where the counter, which never is more than the greatest number, goes round for ever. -/
def checkMapDataFallDown (map : MapData) (beginX endX y : UInt32) : Option Bool :=
  if (upThrough beginX endX).any (blocks map y) then some false
  else if endX = 4294967295 then
    if (upThrough 0 endX).any (blocks map y) then some false else none
  else some true

def outOfArea (map : MapData) (x y : Nat) : Bool :=
  (map.height * map.pixelY).toNat < y || (map.width * map.pixelX).toNat < x

/-- `btl_turn_queue`, by the players' ids; nobody stands in it twice. -/
abbrev TurnQueue := { queue : List UInt32 // queue.Nodup }

def delPlayerFromQueue (queue : TurnQueue) (uid : UInt32) : TurnQueue :=
  ⟨queue.1.erase uid, queue.2.erase uid⟩

/-- The loop; the columns are kept without a sign, as the callee takes them. -/
def fallFrom (map : MapData) (beginX endX : UInt32) (p : Faller) (queue : TurnQueue)
    (fallDown : Bool) : Option (Faller × TurnQueue × Bool) :=
  let curY := p.y + 1
  match checkMapDataFallDown map beginX endX (UInt32.ofNat curY) with
  | none => none
  | some false => some (p, queue, fallDown)
  | some true =>
    if _out : outOfArea map p.x curY then
      some ({ p with y := curY, dead := true }, delPlayerFromQueue queue p.id, true)
    else fallFrom map beginX endX { p with y := curY } queue true
termination_by map.height.toNat + 1 - p.y
decreasing_by
  simp only [outOfArea, map.onePixelY, UInt32.mul_one, Bool.or_eq_true, decide_eq_true_eq] at _out
  omega

def playerFallDown (map : MapData) (p : Faller) (queue : TurnQueue) :
    Option (Faller × TurnQueue × Bool) :=
  let beginX := UInt32.ofNat p.x - p.width / 2
  let endX := beginX + p.width
  fallFrom map beginX endX p queue false

/-! ## What falling should come to -/

/-- A row has a solid cell under the player. -/
def SolidRow (map : MapData) (p : Faller) (row : Nat) : Prop :=
  ∃ column, p.x ≤ column + p.width.toNat / 2 ∧
    column + p.width.toNat / 2 ≤ p.x + p.width.toNat ∧ map.Solid column row

/-- From `y` on, `floor` is the first row above one that is hit. -/
def FirstAbove (hit : Nat → Prop) (y floor : Nat) : Prop :=
  y ≤ floor ∧ hit (floor + 1) ∧ ∀ row, y < row → row ≤ floor → ¬hit row

/-- The player comes to rest on the first ground, or is dead and out of the queue where there is
none. -/
def FallsRight (map : MapData) (p : Faller) (queue : TurnQueue) : Prop :=
  ∃ p' queue' fell, playerFallDown map p queue = some (p', queue', fell) ∧
    ((∃ floor, FirstAbove (SolidRow map p) p.y floor ∧ p' = { p with y := floor } ∧
        queue' = queue) ∨
      (∀ row, p.y < row → ¬SolidRow map p row) ∧ p'.dead = true ∧ p.id ∉ queue'.1)

/-! ## What it comes to -/

/-- The loop goes over the columns: the first of them is not left of the map, and the indices are
valid as numbers with a sign. -/
def Reads (map : MapData) (p : Faller) : Prop :=
  p.width.toNat / 2 ≤ p.x ∧ map.gridCount.toNat < 2 ^ 31

/-- A column right of the map has the index of a solid cell. -/
def SeenOutside (map : MapData) (p : Faller) (row : Nat) : Prop :=
  ∃ column cell, map.width.toNat ≤ column ∧
    column + p.width.toNat / 2 ≤ p.x + p.width.toNat ∧
    map.Lands (UInt32.ofNat column) (UInt32.ofNat row) cell ∧ map.grids cell ≠ 0

/-- A player who has no ground, and is dead and out of the queue before he falls. -/
def AlreadyOut (map : MapData) (p : Faller) (queue : TurnQueue) : Prop :=
  (∀ row, p.y < row → ¬SolidRow map p row) ∧ p.dead = true ∧ p.id ∉ queue.1

/-- A whole position on the map is exact as a `float`. -/
structure FloatExact (map : MapData) : Prop where
  width : map.width.toNat ≤ 2 ^ 24
  height : map.height.toNat < 2 ^ 24

/-- What the loop finds in a row. -/
def Seen (map : MapData) (p : Faller) (row : Nat) : Prop :=
  p.width.toNat / 2 ≤ p.x ∧ ∃ column, p.x ≤ column + p.width.toNat / 2 ∧
    column + p.width.toNat / 2 ≤ p.x + p.width.toNat ∧
    ∃ cell, map.Lands (UInt32.ofNat column) (UInt32.ofNat row) cell ∧ map.grids cell ≠ 0

section

variable {map : MapData} {p : Faller} {queue : TurnQueue} {row y floor : Nat} {i : UInt32}

theorem blocks_iff {y : UInt32} :
    blocks map y i ↔ ∃ cell, map.Lands i y cell ∧ map.grids cell ≠ 0 := by
  unfold blocks MapData.Lands MapData.grid
  simp only [Bool.and_eq_true, bne_iff_ne]
  constructor
  · rintro ⟨valid, solid⟩
    exact ⟨_, ⟨valid, rfl⟩, solid⟩
  · rintro ⟨cell, ⟨valid, rfl⟩, solid⟩
    exact ⟨valid, solid⟩

/-! ## The columns -/

theorem toNat_half_width : (p.width / 2).toNat = p.width.toNat / 2 := UInt32.toNat_div _ _

/-- Where the first column is left of the map, the loop ends before it begins. -/
theorem mem_columns_iff (inside : p.x < 2 ^ 24) :
    i ∈ upThrough (UInt32.ofNat p.x - p.width / 2) (UInt32.ofNat p.x - p.width / 2 + p.width) ↔
      p.width.toNat / 2 ≤ p.x ∧ p.x ≤ i.toNat + p.width.toNat / 2 ∧
        i.toNat + p.width.toNat / 2 ≤ p.x + p.width.toNat := by
  have bound := p.width.toNat_lt
  rw [mem_upThrough, UInt32.toNat_add, UInt32.toNat_sub, toNat_half_width, UInt32.toNat_ofNat']
  omega

theorem columns_end (inside : p.x < 2 ^ 24) :
    UInt32.ofNat p.x - p.width / 2 + p.width ≠ 4294967295 := by
  have bound := p.width.toNat_lt
  intro same
  have ends := congrArg UInt32.toNat same
  rw [UInt32.toNat_add, UInt32.toNat_sub, toNat_half_width, UInt32.toNat_ofNat'] at ends
  have greatest : (4294967295 : UInt32).toNat = 4294967295 := rfl
  omega

theorem checkMapDataFallDown_iff (map : MapData) (row : Nat) (inside : p.x < 2 ^ 24) :
    checkMapDataFallDown map (UInt32.ofNat p.x - p.width / 2)
        (UInt32.ofNat p.x - p.width / 2 + p.width) (UInt32.ofNat row) = some false ∧
        Seen map p row ∨
      checkMapDataFallDown map (UInt32.ofNat p.x - p.width / 2)
        (UInt32.ofNat p.x - p.width / 2 + p.width) (UInt32.ofNat row) = some true ∧
        ¬Seen map p row := by
  have seen : (upThrough (UInt32.ofNat p.x - p.width / 2)
      (UInt32.ofNat p.x - p.width / 2 + p.width)).any (blocks map (UInt32.ofNat row)) ↔
        Seen map p row := by
    rw [List.any_eq_true]
    constructor
    · rintro ⟨i, member, blocked⟩
      obtain ⟨half, left, right⟩ := (mem_columns_iff inside).mp member
      refine ⟨half, i.toNat, left, right, ?_⟩
      rw [UInt32.ofNat_toNat]
      exact blocks_iff.mp blocked
    · rintro ⟨half, column, left, right, found⟩
      have number : (UInt32.ofNat column).toNat = column := by
        rw [UInt32.toNat_ofNat', Nat.mod_eq_of_lt (by omega)]
      exact ⟨_, (mem_columns_iff inside).mpr (by rw [number]; exact ⟨half, left, right⟩),
        blocks_iff.mpr found⟩
  unfold checkMapDataFallDown
  rw [if_neg (columns_end inside)]
  split
  case isTrue found => exact .inl ⟨rfl, seen.mp found⟩
  case isFalse free => exact .inr ⟨rfl, fun found => free (seen.mpr found)⟩

/-! ## The rows -/

theorem fallFrom_of_blocked {beginX endX : UInt32} {fell : Bool}
    (blocked : checkMapDataFallDown map beginX endX (UInt32.ofNat (p.y + 1)) = some false) :
    fallFrom map beginX endX p queue fell = some (p, queue, fell) := by
  rw [fallFrom]
  simp only [blocked]

/-- The loop ends at the first row where it finds something, or below the map. -/
theorem fallFrom_spec {p : Faller} (queue : TurnQueue) (fell : Bool) (insideX : p.x ≤ map.width.toNat)
    (inside : p.x < 2 ^ 24) (above : p.y ≤ map.height.toNat) :
    ∃ p' queue' fell', fallFrom map (UInt32.ofNat p.x - p.width / 2)
        (UInt32.ofNat p.x - p.width / 2 + p.width) p queue fell = some (p', queue', fell') ∧
      ((∃ floor, FirstAbove (Seen map p) p.y floor ∧ floor ≤ map.height.toNat ∧
          p' = { p with y := floor } ∧ queue' = queue) ∨
        (∀ row, p.y < row → row ≤ map.height.toNat + 1 → ¬Seen map p row) ∧
          p' = { p with y := map.height.toNat + 1, dead := true } ∧
          queue' = delPlayerFromQueue queue p.id) := by
  induction left : map.height.toNat - p.y using Nat.strong_induction_on generalizing p fell with
  | _ left ih =>
    obtain ⟨checked, seen⟩ | ⟨checked, free⟩ := checkMapDataFallDown_iff map (p.y + 1) inside
    · exact ⟨p, queue, fell, fallFrom_of_blocked checked,
        .inl ⟨p.y, ⟨Nat.le_refl _, seen, by omega⟩, above, rfl, rfl⟩⟩
    · rw [fallFrom]
      simp only [checked]
      have out : outOfArea map p.x (p.y + 1) ↔ map.height.toNat < p.y + 1 := by
        simp [outOfArea, map.onePixelX, map.onePixelY, insideX]
      by_cases bottom : map.height.toNat < p.y + 1
      · have last : p.y = map.height.toNat := by omega
        rw [dif_pos (out.mpr bottom)]
        refine ⟨_, _, _, rfl, .inr ⟨fun row below within => ?_, by rw [last], rfl⟩⟩
        obtain rfl : row = p.y + 1 := by omega
        exact free
      · rw [dif_neg (mt out.mp bottom)]
        let next : Faller := { p with y := p.y + 1 }
        have insideX' : next.x ≤ map.width.toNat := insideX
        obtain ⟨p', queue', fell', falls, result⟩ := ih (map.height.toNat - (p.y + 1)) (by omega)
          true insideX' inside (Nat.not_lt.mp bottom) rfl
        refine ⟨p', queue', fell', falls, ?_⟩
        have next (row : Nat) (below : p.y < row) : row = p.y + 1 ∨ p.y + 1 < row := by omega
        obtain ⟨floor, ⟨later, seen, before⟩, within, rfl, rfl⟩ | ⟨nothing, rfl, rfl⟩ := result
        · refine .inl ⟨floor, ⟨Nat.le_of_succ_le later, seen, fun row below short => ?_⟩, within, rfl,
            rfl⟩
          obtain rfl | below := next row below
          · exact free
          · exact before row below short
        · refine .inr ⟨fun row below short => ?_, rfl, rfl⟩
          obtain rfl | below := next row below
          · exact free
          · exact nothing row below short

/-! ## What is seen and what is there -/

theorem seen_iff (exact' : FloatExact map) (insideX : p.x < map.width.toNat)
    (within : row ≤ map.height.toNat + 1) :
    Seen map p row ↔ Reads map p ∧ (SolidRow map p row ∨ SeenOutside map p row) := by
  obtain ⟨width, height⟩ := exact'
  have number : (UInt32.ofNat row).toNat = row := by
    rw [UInt32.toNat_ofNat', Nat.mod_eq_of_lt (by omega)]
  have bound := p.width.toNat_lt
  have number' {column : Nat} (right : column + p.width.toNat / 2 ≤ p.x + p.width.toNat) :
      (UInt32.ofNat column).toNat = column := by
    rw [UInt32.toNat_ofNat', Nat.mod_eq_of_lt (by omega)]
  constructor
  · rintro ⟨half, column, left, right, cell, lands, solid⟩
    obtain ⟨near, small, index, inside⟩ := lands_iff.mp lands
    refine ⟨⟨half, small⟩, ?_⟩
    rw [number, number' right] at index
    by_cases outside : map.width.toNat ≤ column
    · exact .inr ⟨column, cell, outside, right, lands, solid⟩
    · have rowInside : row < map.height.toNat := by
        by_contra below
        have least : map.height.toNat * map.width.toNat ≤ row * map.width.toNat :=
          Nat.mul_le_mul_right _ (Nat.not_lt.mp below)
        have most : row * map.width.toNat ≤ map.height.toNat * map.width.toNat + map.width.toNat := by
          rw [← Nat.succ_mul]
          exact Nat.mul_le_mul_right _ within
        rw [map.count, Nat.mul_comm] at small inside
        omega
      have there : map.Lands (UInt32.ofNat column) (UInt32.ofNat row) _ :=
        lands_of_inside small (by rw [number' right]; omega) (by rwa [number])
      rw [number, number' right] at there
      refine .inl ⟨column, left, right, by omega, rowInside, ?_⟩
      rwa [← lands.unique there]
  · rintro ⟨⟨half, small⟩, ⟨column, left, right, columnInside, rowInside, solid⟩ |
      ⟨column, cell, outside, right, lands, solid⟩⟩
    · have there : map.Lands (UInt32.ofNat column) (UInt32.ofNat row) _ :=
        lands_of_inside small (by rwa [number' right]) (by rwa [number])
      rw [number, number' right] at there
      exact ⟨half, column, left, right, _, there, solid⟩
    · exact ⟨half, column, by omega, right, cell, lands, solid⟩

theorem SolidRow.inside (solid : SolidRow map p row) : row < map.height.toNat := by
  obtain ⟨column, -, -, -, inside, -⟩ := solid
  exact inside

theorem notMem_delPlayerFromQueue {id : UInt32} : id ∉ (delPlayerFromQueue queue id).1 :=
  List.Nodup.not_mem_erase queue.2

/-- Ground that the loop finds is the first ground there is. -/
theorem firstAbove_solidRow (exact' : FloatExact map) (insideX : p.x < map.width.toNat)
    (reads : Reads map p) (first : FirstAbove (Seen map p) y floor)
    (within : floor ≤ map.height.toNat)
    (harmless : ∀ row, y < row → row ≤ map.height.toNat + 1 → SeenOutside map p row →
      ∃ row', y < row' ∧ row' ≤ row ∧ SolidRow map p row') :
    FirstAbove (SolidRow map p) y floor := by
  obtain ⟨above, seen, before⟩ := first
  have bare (row : Nat) (below : y < row) (short : row ≤ floor) : ¬SolidRow map p row :=
    fun solid => before row below short ((seen_iff exact' insideX (by omega)).mpr
      ⟨reads, .inl solid⟩)
  refine ⟨above, ?_, bare⟩
  obtain ⟨-, solid | outside⟩ := (seen_iff exact' insideX (by omega)).mp seen
  · exact solid
  · obtain ⟨row', below, short, solid⟩ := harmless _ (by omega) (by omega) outside
    obtain short | rfl := Nat.lt_or_eq_of_le short
    · exact absurd solid (bare row' below (by omega))
    · exact solid

/-- The player falls as he should exactly where the loop goes over the columns and finds nothing
outside of the map before it finds ground, or where it does not go over them and there is no
ground. -/
theorem fallsRight_iff (map : MapData) (p : Faller) (queue : TurnQueue) (exact' : FloatExact map)
    (insideX : p.x < map.width.toNat) (insideY : p.y < map.height.toNat) :
    FallsRight map p queue ↔ AlreadyOut map p queue ∨
      (Reads map p → ∀ row, p.y < row → row ≤ map.height.toNat + 1 → SeenOutside map p row →
        ∃ row', p.y < row' ∧ row' ≤ row ∧ SolidRow map p row') ∧
      (¬Reads map p → ∀ row, p.y < row → ¬SolidRow map p row) := by
  have small : p.x < 2 ^ 24 := Nat.lt_of_lt_of_le insideX exact'.width
  obtain ⟨p', queue', fell, falls, result⟩ := fallFrom_spec queue false insideX.le small insideY.le
  constructor
  · rintro ⟨p'', queue'', fell', falls', right⟩
    obtain ⟨rfl, rfl, rfl⟩ : p' = p'' ∧ queue' = queue'' ∧ fell = fell' := by
      simpa using falls.symm.trans falls'
    by_cases out : AlreadyOut map p queue
    · exact .inl out
    refine .inr ⟨fun reads row below within outside => ?_, fun blind row below solid => ?_⟩
    · have seen := (seen_iff exact' insideX within).mpr ⟨reads, .inr outside⟩
      obtain ⟨floor, first, -, rfl, rfl⟩ | ⟨nothing, -, -⟩ := result
      · obtain ⟨floor', first', same, -⟩ | ⟨bare, dead, gone⟩ := right
        · obtain rfl : floor = floor' := congrArg Faller.y same
          have short : ¬row ≤ floor := fun short => first.2.2 row below short seen
          exact ⟨floor + 1, by have := first.1; omega, by omega, first'.2.1⟩
        · exact absurd ⟨bare, dead, gone⟩ out
      · exact absurd seen (nothing row below within)
    · obtain ⟨floor, first, within, -, -⟩ | ⟨-, rfl, rfl⟩ := result
      · exact blind ((seen_iff exact' insideX (by omega)).mp first.2.1).1
      · obtain ⟨floor', first', same, -⟩ | ⟨bare, -, -⟩ := right
        · obtain rfl : map.height.toNat + 1 = floor' := congrArg Faller.y same
          exact absurd first'.2.1.inside (by omega)
        · exact bare row below solid
  · intro condition
    refine ⟨p', queue', fell, falls, ?_⟩
    by_cases bare : ∀ row, p.y < row → ¬SolidRow map p row
    · obtain ⟨floor, first, within, rfl, rfl⟩ | ⟨-, rfl, rfl⟩ := result
      · obtain ⟨-, dead, gone⟩ | ⟨harmless, -⟩ := condition
        · exact .inr ⟨bare, dead, gone⟩
        · have reads := ((seen_iff exact' insideX (by omega)).mp first.2.1).1
          have ground := firstAbove_solidRow exact' insideX reads first within (harmless reads)
          exact absurd ground.2.1 (bare _ (Nat.lt_succ_of_le ground.1))
      · exact .inr ⟨bare, rfl, notMem_delPlayerFromQueue⟩
    · obtain ⟨harmless, blind⟩ := condition.resolve_left fun out => bare out.1
      have reads : Reads map p := by
        by_contra unread
        exact bare (blind unread)
      obtain ⟨floor, first, within, rfl, rfl⟩ | ⟨nothing, -, -⟩ := result
      · exact .inl ⟨floor, firstAbove_solidRow exact' insideX reads first within (harmless reads),
          rfl, rfl⟩
      · refine absurd (fun row below solid => ?_) bare
        have inside := solid.inside
        exact nothing row below (by omega) ((seen_iff exact' insideX (by omega)).mpr
          ⟨reads, .inl solid⟩)

end

/-- An empty map of nine columns and three rows with a solid cell at the left end of the last. -/
def leftGround : MapData :=
  { width := 9, height := 3, pixelX := 1, pixelY := 1, gridCount := 27
    grids := fun n => if n = 18 then 1 else 0, onePixelX := onePixel, onePixelY := onePixel
    count := rfl }

/-- A player of width 2. -/
def fallerAt (x y : Nat) : Faller := { id := 1, x, y, width := 2, dead := false }

theorem leftGround_floatExact : FloatExact leftGround := ⟨by decide, by decide⟩

theorem fallsRight_iff_middle : FallsRight leftGround (fallerAt 4 0) ⟨[1], by decide⟩ ↔
    AlreadyOut leftGround (fallerAt 4 0) ⟨[1], by decide⟩ ∨
      (Reads leftGround (fallerAt 4 0) → ∀ row, (fallerAt 4 0).y < row →
        row ≤ leftGround.height.toNat + 1 → SeenOutside leftGround (fallerAt 4 0) row →
        ∃ row', (fallerAt 4 0).y < row' ∧ row' ≤ row ∧ SolidRow leftGround (fallerAt 4 0) row') ∧
      (¬Reads leftGround (fallerAt 4 0) → ∀ row, (fallerAt 4 0).y < row →
        ¬SolidRow leftGround (fallerAt 4 0) row) :=
  fallsRight_iff leftGround (fallerAt 4 0) ⟨[1], by decide⟩ leftGround_floatExact (by decide)
    (by decide)

/-- At the right edge a player stands on a cell at the left one. -/
theorem not_fallsRight_rightEdge : ¬FallsRight leftGround (fallerAt 8 0) ⟨[1], by decide⟩ := by
  rintro ⟨p', queue', fell, falls, right⟩
  have stays : playerFallDown leftGround (fallerAt 8 0) ⟨[1], by decide⟩ =
      some (fallerAt 8 0, ⟨[1], by decide⟩, false) :=
    fallFrom_of_blocked (by decide)
  rw [stays] at falls
  obtain ⟨rfl, rfl, rfl⟩ : fallerAt 8 0 = p' ∧ _ = queue' ∧ false = fell := by simpa using falls
  obtain ⟨floor, ⟨-, ⟨column, left, right, inside, rowInside, solid⟩, -⟩, -⟩ | ⟨-, dead, -⟩ := right
  · simp [fallerAt, leftGround] at left inside rowInside solid
    omega
  · cases dead

end Taomee.PeaBattle
