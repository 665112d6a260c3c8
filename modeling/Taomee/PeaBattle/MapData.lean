import Mathlib.Algebra.Order.Ring.Int
import Mathlib.Tactic.Common

/-!
# The maps of the pea battle server

A map and the crater of a bullet are bitmaps of the same kind. Their cells lie row by row in one
array, and a position becomes an index without a test that it is inside of its row.
-/

namespace Taomee.PeaBattle

/-- `map_data`, with what the loader makes sure of: a pixel for each cell, and a grid. -/
structure MapData where
  width : UInt32
  height : UInt32
  pixelX : UInt32
  pixelY : UInt32
  gridCount : UInt32
  grids : Nat → UInt8
  onePixelX : pixelX = 1
  onePixelY : pixelY = 1
  count : gridCount.toNat = width.toNat * height.toNat

theorem onePixel : (1 : UInt32) = 1 := rfl

abbrev BulletCraterData := MapData

def MapData.checkValidIndex (map : MapData) (index : Int32) : Bool :=
  0 ≤ index ∧ index < map.gridCount.toInt32

/-- The grid at an index that is valid. -/
def MapData.grid (map : MapData) (index : Int32) : UInt8 := map.grids index.toNatClampNeg

def getYIndexFromPixPos (map : MapData) (y : UInt32) : UInt32 := y / map.pixelY + y % map.pixelY

/-- Both indices are taken by `get_y_index_from_pix_pos`. -/
def getIndexFromPos (map : MapData) (x y : UInt32) : Int32 :=
  if x > map.width * map.pixelX ∧ y > map.height * map.pixelY then -1
  else
    let xIndex := getYIndexFromPixPos map x
    let yIndex := getYIndexFromPixPos map y
    (xIndex + yIndex * map.width).toInt32

/-- The values that a counter takes from `start` on. -/
def counter (start : UInt32) (times : Nat) : List UInt32 :=
  (List.range times).map fun n => start + UInt32.ofNat n

/-- A loop with `i < stop`. -/
def upTo (start stop : UInt32) : List UInt32 := counter start (stop.toNat - start.toNat)

/-- A loop with `i <= last`, where that is not the greatest number. -/
def upThrough (start last : UInt32) : List UInt32 := counter start (last.toNat + 1 - start.toNat)

/-- A cell that is there and not empty. -/
def MapData.Solid (map : MapData) (column row : Nat) : Prop :=
  column < map.width.toNat ∧ row < map.height.toNat ∧
    map.grids (column + row * map.width.toNat) ≠ 0

/-! ## Where a position lands -/

/-- A position has a valid index. -/
def MapData.Lands (map : MapData) (x y : UInt32) (cell : Nat) : Prop :=
  map.checkValidIndex (getIndexFromPos map x y) ∧
    (getIndexFromPos map x y).toNatClampNeg = cell

section

variable {map : MapData} {x y start stop i : UInt32} {cell : Nat}

theorem getYIndexFromPixPos_eq : getYIndexFromPixPos map y = y := by
  rw [getYIndexFromPixPos, map.onePixelY]
  simp

/-- An index from 2^31 on is read as a negative one. -/
theorem toInt_toInt32 (n : UInt32) :
    n.toInt32.toInt = if n.toNat < 2 ^ 31 then (n.toNat : Int) else n.toNat - 2 ^ 32 := by
  have bound := n.toNat_lt
  have wraps : n.toInt32.toInt = (n.toNat : Int).bmod (2 ^ 32) := by
    rw [← Int32.toInt_toBitVec, UInt32.toBitVec_toInt32, BitVec.toInt_eq_toNat_bmod]
    rfl
  rw [wraps, Int.bmod_def]
  split <;> omega

/-- A valid index is a cell, and there are fewer than 2^31 cells. -/
theorem checkValidIndex_iff {n : UInt32} : map.checkValidIndex n.toInt32 ↔
    map.gridCount.toNat < 2 ^ 31 ∧ n.toNat < map.gridCount.toNat := by
  have bound := n.toNat_lt
  have bound' := map.gridCount.toNat_lt
  rw [MapData.checkValidIndex, decide_eq_true_iff, Int32.le_iff_toInt_le, Int32.lt_iff_toInt_lt,
    toInt_toInt32, toInt_toInt32, Int32.toInt_zero]
  split <;> split <;> omega

/-- Which cell a point lands on. -/
theorem lands_iff : map.Lands x y cell ↔
    ¬(map.width < x ∧ map.height < y) ∧ map.gridCount.toNat < 2 ^ 31 ∧
      cell = (x.toNat + y.toNat * map.width.toNat) % 2 ^ 32 ∧ cell < map.gridCount.toNat := by
  unfold MapData.Lands getIndexFromPos
  simp only [map.onePixelX, map.onePixelY, UInt32.mul_one, getYIndexFromPixPos_eq]
  split
  case isTrue away =>
    have invalid : ¬map.checkValidIndex (-1) := by
      simp [MapData.checkValidIndex]
    simp [invalid, away]
  case isFalse near =>
    have index : (x + y * map.width).toNat =
        (x.toNat + y.toNat * map.width.toNat) % 2 ^ 32 := by
      simp
    rw [checkValidIndex_iff, ← index]
    have read : map.gridCount.toNat < 2 ^ 31 → (x + y * map.width).toNat < map.gridCount.toNat →
        (x + y * map.width).toInt32.toNatClampNeg = (x + y * map.width).toNat := by
      intro small inside
      rw [← Int32.toNat_toInt, toInt_toInt32, if_pos (by omega), Int.toNat_natCast]
    constructor
    · rintro ⟨⟨small, inside⟩, rfl⟩
      rw [read small inside]
      exact ⟨near, small, rfl, inside⟩
    · rintro ⟨-, small, rfl, inside⟩
      exact ⟨⟨small, inside⟩, read small inside⟩

/-- A point lands on one cell. -/
theorem MapData.Lands.unique {cell' : Nat} (lands : map.Lands x y cell)
    (lands' : map.Lands x y cell') : cell = cell' :=
  lands.2.symm.trans lands'.2

/-- No side is longer than the map has cells. -/
theorem MapData.sides_le (some' : 0 < map.gridCount.toNat) :
    map.width.toNat ≤ map.gridCount.toNat ∧ map.height.toNat ≤ map.gridCount.toNat := by
  rw [map.count] at some' ⊢
  exact ⟨Nat.le_mul_of_pos_right _ (Nat.pos_of_mul_pos_left some'),
    Nat.le_mul_of_pos_left _ (Nat.pos_of_mul_pos_right some')⟩

/-- A point inside of the map is a cell. -/
theorem MapData.index_lt {column row : Nat} (insideX : column < map.width.toNat)
    (insideY : row < map.height.toNat) : column + row * map.width.toNat < map.gridCount.toNat := by
  rw [map.count]
  calc column + row * map.width.toNat < map.width.toNat + row * map.width.toNat :=
        Nat.add_lt_add_right insideX _
    _ = map.width.toNat * (row + 1) := by rw [Nat.mul_add_one, Nat.mul_comm, Nat.add_comm]
    _ ≤ map.width.toNat * map.height.toNat := Nat.mul_le_mul_left _ insideY

/-- Inside of the bitmap the index is the one it should be. -/
theorem lands_of_inside (small : map.gridCount.toNat < 2 ^ 31)
    (insideX : x.toNat < map.width.toNat) (insideY : y.toNat < map.height.toNat) :
    map.Lands x y (x.toNat + y.toNat * map.width.toNat) := by
  have index := MapData.index_lt insideX insideY
  refine lands_iff.mpr ⟨fun away => ?_, small, (Nat.mod_eq_of_lt (by omega)).symm, index⟩
  exact absurd (UInt32.lt_iff_toNat_lt.mp away.1) (by omega)

/-- What a counter that does not wrap runs over. -/
theorem mem_counter {times : Nat} (room : start.toNat + times ≤ 2 ^ 32) :
    i ∈ counter start times ↔ start.toNat ≤ i.toNat ∧ i.toNat < start.toNat + times := by
  rw [counter, List.mem_map]
  simp only [List.mem_range]
  constructor
  · rintro ⟨n, inside, rfl⟩
    rw [UInt32.toNat_add, UInt32.toNat_ofNat']
    omega
  · rintro ⟨first, inside⟩
    refine ⟨i.toNat - start.toNat, by omega, UInt32.toNat_inj.mp ?_⟩
    rw [UInt32.toNat_add, UInt32.toNat_ofNat']
    omega

/-- A loop up to its end. -/
theorem mem_upTo : i ∈ upTo start stop ↔ start.toNat ≤ i.toNat ∧ i.toNat < stop.toNat := by
  have bound := start.toNat_lt
  have bound' := stop.toNat_lt
  rw [upTo, mem_counter (by omega)]
  omega

/-- A loop through its end. -/
theorem mem_upThrough : i ∈ upThrough start stop ↔
    start.toNat ≤ i.toNat ∧ i.toNat ≤ stop.toNat := by
  have bound := start.toNat_lt
  have bound' := stop.toNat_lt
  obtain fits | none' := Nat.le_total start.toNat (stop.toNat + 1)
  · rw [upThrough, mem_counter (by omega)]
    omega
  · rw [upThrough, Nat.sub_eq_zero_of_le none', mem_counter (by omega)]
    omega

end

end Taomee.PeaBattle
