import Mathlib.Logic.Function.Basic
import Taomee.PeaBattle.MapData

/-!
# Craters

Where a bullet ends, the solid cells of its crater are cleared from the map. The crater is laid
with its middle on the bullet, so that at an edge a part of it is outside of the map.
-/

namespace Taomee.PeaBattle

/-- What the loops of `merge_area` do at one position. -/
def mergeCell (data : BulletCraterData) (map : MapData) (leftTopX leftTopY : UInt32)
    (grids : Nat → UInt8) (i j : UInt32) : Nat → UInt8 :=
  let mapIndex := getIndexFromPos map i j
  if map.checkValidIndex mapIndex = false then grids
  else
    let dataIndex := getIndexFromPos data (i - leftTopX) (j - leftTopY)
    if data.checkValidIndex dataIndex = false then grids
    else if data.grid dataIndex = 0 then grids
    else Function.update grids mapIndex.toNatClampNeg 0

def mergeArea (data : BulletCraterData) (x y : UInt32) (map : MapData) : MapData :=
  let leftTopX := x - data.width / 2
  let leftTopY := y - data.height / 2
  { map with
    grids := (upTo leftTopX (leftTopX + data.width)).foldl (fun grids i =>
      (upTo leftTopY (leftTopY + data.height)).foldl (fun grids j =>
        mergeCell data map leftTopX leftTopY grids i j) grids) map.grids }

/-! ## What it should do -/

/-- A cell of the map lies under a solid cell of the crater, whose left top corner is at
`(x - width / 2, y - height / 2)`. -/
def Under (data : BulletCraterData) (x y : UInt32) (column row : Nat) : Prop :=
  ∃ a b, data.Solid a b ∧ column + data.width.toNat / 2 = x.toNat + a ∧
    row + data.height.toNat / 2 = y.toNat + b

/-- An index of the map is that of a cell under the crater. -/
def MapData.Covered (map : MapData) (data : BulletCraterData) (x y : UInt32) (cell : Nat) : Prop :=
  ∃ column row, column < map.width.toNat ∧ row < map.height.toNat ∧
    cell = column + row * map.width.toNat ∧ Under data x y column row

structure IsMerged (data : BulletCraterData) (x y : UInt32) (map map' : MapData) : Prop where
  same : map' = { map with grids := map'.grids }
  cleared : ∀ cell, map.Covered data x y cell → map'.grids cell = 0
  kept : ∀ cell, ¬map.Covered data x y cell → map'.grids cell = map.grids cell

/-! ## What it does -/

/-- A position where the loops clear a cell. -/
def Hits (data : BulletCraterData) (map : MapData) (leftTopX leftTopY i j : UInt32)
    (cell : Nat) : Prop :=
  map.Lands i j cell ∧ ∃ n, data.Lands (i - leftTopX) (j - leftTopY) n ∧ data.grids n ≠ 0

/-- The loops go over the crater: its corner is not left of the map or above it, and the indices
of both bitmaps are valid as numbers with a sign. -/
def Swept (data : BulletCraterData) (x y : UInt32) (map : MapData) : Prop :=
  data.width.toNat / 2 ≤ x.toNat ∧ data.height.toNat / 2 ≤ y.toNat ∧
    map.gridCount.toNat < 2 ^ 31 ∧ data.gridCount.toNat < 2 ^ 31

/-- A solid cell of the crater that is right of the map or below it has the index of a cell. -/
def Spills (data : BulletCraterData) (x y : UInt32) (map : MapData) (cell : Nat) : Prop :=
  ∃ a b : UInt32, data.Solid a.toNat b.toNat ∧
    (map.width.toNat + data.width.toNat / 2 ≤ x.toNat + a.toNat ∨
      map.height.toNat + data.height.toNat / 2 ≤ y.toNat + b.toNat) ∧
    map.Lands (x - data.width / 2 + a) (y - data.height / 2 + b) cell

/-- Some cells are set to zero and the others are left alone. -/
def Clears (step : (Nat → UInt8) → Nat → UInt8) (hit : Nat → Prop) : Prop :=
  ∀ grids cell, (hit cell → step grids cell = 0) ∧ (¬hit cell → step grids cell = grids cell)

section

variable {data : BulletCraterData} {map map' : MapData} {x y leftTopX leftTopY i j : UInt32}
  {cell : Nat}

theorem Clears.foldl {α : Type} {step : (Nat → UInt8) → α → Nat → UInt8} {hit : α → Nat → Prop}
    (clears : ∀ a, Clears (step · a) (hit a)) (l : List α) :
    Clears (l.foldl step) fun cell => ∃ a ∈ l, hit a cell := by
  induction l with
  | nil => exact fun grids cell => ⟨by simp, fun _ => rfl⟩
  | cons first rest ih =>
    intro grids cell
    obtain ⟨cleared, kept⟩ := ih (step grids first) cell
    constructor
    · rintro ⟨a, member, hits⟩
      by_cases later : ∃ a ∈ rest, hit a cell
      · exact cleared later
      · obtain rfl | member := List.mem_cons.mp member
        · exact (kept later).trans ((clears a grids cell).1 hits)
        · exact absurd ⟨a, member, hits⟩ later
    · intro missed
      have later := kept fun ⟨a, member, hits⟩ => missed ⟨a, List.mem_cons_of_mem _ member, hits⟩
      exact later.trans <| (clears first grids cell).2 fun hits =>
        missed ⟨first, List.mem_cons_self .., hits⟩

theorem mergeCell_clears : Clears (fun grids => mergeCell data map leftTopX leftTopY grids i j)
    (Hits data map leftTopX leftTopY i j) := by
  intro grids cell
  unfold mergeCell Hits MapData.Lands MapData.grid
  by_cases valid : map.checkValidIndex (getIndexFromPos map i j)
  · by_cases valid' : data.checkValidIndex (getIndexFromPos data (i - leftTopX) (j - leftTopY))
    · by_cases empty : data.grids
        (getIndexFromPos data (i - leftTopX) (j - leftTopY)).toNatClampNeg = 0
      · simp [empty]
      · simp only [valid, valid', empty]
        constructor
        · rintro ⟨⟨-, rfl⟩, -⟩
          simp
        · intro other
          have elsewhere : cell ≠ (getIndexFromPos map i j).toNatClampNeg := fun here =>
            other ⟨⟨trivial, here.symm⟩, _, ⟨trivial, rfl⟩, empty⟩
          simp [elsewhere]
    · simp [valid']
  · simp [valid]

/-- The cells that the loops clear. -/
def HitBy (data : BulletCraterData) (x y : UInt32) (map : MapData) (cell : Nat) : Prop :=
  let leftTopX := x - data.width / 2
  let leftTopY := y - data.height / 2
  ∃ i ∈ upTo leftTopX (leftTopX + data.width), ∃ j ∈ upTo leftTopY (leftTopY + data.height),
    Hits data map leftTopX leftTopY i j cell

theorem mergeArea_clears :
    (HitBy data x y map cell → (mergeArea data x y map).grids cell = 0) ∧
      (¬HitBy data x y map cell → (mergeArea data x y map).grids cell = map.grids cell) :=
  Clears.foldl (fun _ => Clears.foldl (fun _ => mergeCell_clears) _) _ map.grids cell

/-! ## The loops -/

theorem toNat_half (n : UInt32) : (n / 2).toNat = n.toNat / 2 := UInt32.toNat_div _ _

/-- Where the corner is off the map, the loop ends before it begins. -/
theorem half_le_of_mem {centre size : UInt32}
    (member : i ∈ upTo (centre - size / 2) (centre - size / 2 + size)) :
    size.toNat / 2 ≤ centre.toNat := by
  obtain ⟨first, last⟩ := mem_upTo.mp member
  have order := Nat.lt_of_le_of_lt first last
  rw [UInt32.toNat_add, UInt32.toNat_sub, toNat_half] at order
  have bound := size.toNat_lt
  omega

theorem swept_of_hitBy (hit : HitBy data x y map cell) : Swept data x y map := by
  obtain ⟨i, member, j, member', lands, n, lands', -⟩ := hit
  exact ⟨half_le_of_mem member, half_le_of_mem member', (lands_iff.mp lands).2.1,
    (lands_iff.mp lands').2.1⟩

/-- A corner on the map leaves room for the crater among the numbers of 32 bits. -/
theorem mem_upTo_iff_of_half_le {centre size bound : UInt32} (half : size.toNat / 2 ≤ centre.toNat)
    (inside : centre < bound) (small : bound.toNat < 2 ^ 31) (small' : size.toNat < 2 ^ 31) :
    i ∈ upTo (centre - size / 2) (centre - size / 2 + size) ↔
      (i - (centre - size / 2)).toNat < size.toNat := by
  have order := UInt32.lt_iff_toNat_lt.mp inside
  have corner : (centre - size / 2).toNat = centre.toNat - size.toNat / 2 := by
    rw [UInt32.toNat_sub, toNat_half]
    omega
  have bound' := i.toNat_lt
  rw [mem_upTo, UInt32.toNat_add, UInt32.toNat_sub i, corner]
  omega

theorem add_sub_corner (corner : UInt32) : corner + (i - corner) = i := by
  rw [UInt32.add_comm, UInt32.sub_add_cancel]

/-- What the loops clear, by the cells of the crater. -/
theorem hitBy_iff (swept : Swept data x y map) (insideX : x < map.width)
    (insideY : y < map.height) :
    HitBy data x y map cell ↔ ∃ a b : UInt32, data.Solid a.toNat b.toNat ∧
      map.Lands (x - data.width / 2 + a) (y - data.height / 2 + b) cell := by
  obtain ⟨halfX, halfY, small, small'⟩ := swept
  have corner := MapData.index_lt (UInt32.lt_iff_toNat_lt.mp insideX)
    (UInt32.lt_iff_toNat_lt.mp insideY)
  have sides := MapData.sides_le (Nat.zero_lt_of_lt corner)
  have sides' (some' : 0 < data.gridCount.toNat) := MapData.sides_le some'
  constructor
  · rintro ⟨i, member, j, member', lands, n, lands', solid⟩
    have index := (lands_iff.mp lands').2.2.2
    have column := (mem_upTo_iff_of_half_le halfX insideX (by omega) (by omega)).mp member
    have row := (mem_upTo_iff_of_half_le halfY insideY (by omega) (by omega)).mp member'
    obtain rfl := lands'.unique (lands_of_inside small' column row)
    refine ⟨_, _, ⟨column, row, solid⟩, ?_⟩
    rwa [add_sub_corner, add_sub_corner]
  · rintro ⟨a, b, ⟨column, row, solid⟩, lands⟩
    have index := MapData.index_lt column row
    have back (corner n : UInt32) : corner + n - corner = n := by
      rw [UInt32.add_comm, UInt32.add_sub_cancel]
    refine ⟨_, (mem_upTo_iff_of_half_le halfX insideX (by omega) (by omega)).mpr ?_, _,
      (mem_upTo_iff_of_half_le halfY insideY (by omega) (by omega)).mpr ?_, lands,
      a.toNat + b.toNat * data.width.toNat, ?_, solid⟩
    · rwa [back]
    · rwa [back]
    · rw [back, back]
      exact lands_of_inside small' column row

theorem toNat_corner_add {centre size a : UInt32} {place : Nat}
    (under : place + size.toNat / 2 = centre.toNat + a.toNat) (short : place < 2 ^ 32) :
    (centre - size / 2 + a).toNat = place := by
  have bound' := size.toNat_lt
  rw [UInt32.toNat_add, UInt32.toNat_sub, toNat_half]
  omega

/-- A cell under the crater is cleared where the loops go over it. -/
theorem hitBy_of_covered (swept : Swept data x y map) (insideX : x < map.width)
    (insideY : y < map.height) (covered : map.Covered data x y cell) : HitBy data x y map cell := by
  obtain ⟨column, row, columnInside, rowInside, rfl, a, b, solid, underX, underY⟩ := covered
  have columnA : (UInt32.ofNat a).toNat = a := by
    rw [UInt32.toNat_ofNat', Nat.mod_eq_of_lt (solid.1.trans data.width.toNat_lt)]
  have rowB : (UInt32.ofNat b).toNat = b := by
    rw [UInt32.toNat_ofNat', Nat.mod_eq_of_lt (solid.2.1.trans data.height.toNat_lt)]
  have placeX : (x - data.width / 2 + UInt32.ofNat a).toNat = column :=
    toNat_corner_add (by rwa [columnA]) (columnInside.trans map.width.toNat_lt)
  have placeY : (y - data.height / 2 + UInt32.ofNat b).toNat = row :=
    toNat_corner_add (by rwa [rowB]) (rowInside.trans map.height.toNat_lt)
  refine (hitBy_iff swept insideX insideY).mpr
    ⟨UInt32.ofNat a, UInt32.ofNat b, by rwa [columnA, rowB], ?_⟩
  have lands := lands_of_inside (x := x - data.width / 2 + UInt32.ofNat a)
    (y := y - data.height / 2 + UInt32.ofNat b) swept.2.2.1 (by rwa [placeX]) (by rwa [placeY])
  rwa [placeX, placeY] at lands

/-- What the loops clear lies under the crater, or the crater spills over there. -/
theorem covered_or_spills (swept : Swept data x y map) (insideX : x < map.width)
    (insideY : y < map.height) (hit : HitBy data x y map cell) :
    map.Covered data x y cell ∨ Spills data x y map cell := by
  obtain ⟨a, b, solid, lands⟩ := (hitBy_iff swept insideX insideY).mp hit
  by_cases outside : map.width.toNat + data.width.toNat / 2 ≤ x.toNat + a.toNat ∨
      map.height.toNat + data.height.toNat / 2 ≤ y.toNat + b.toNat
  · exact .inr ⟨a, b, solid, outside, lands⟩
  · obtain ⟨halfX, halfY, small, -⟩ := swept
    have boundX := map.width.toNat_lt
    have boundY := map.height.toNat_lt
    have placeX : (x - data.width / 2 + a).toNat = x.toNat + a.toNat - data.width.toNat / 2 :=
      toNat_corner_add (by omega) (by omega)
    have placeY : (y - data.height / 2 + b).toNat = y.toNat + b.toNat - data.height.toNat / 2 :=
      toNat_corner_add (by omega) (by omega)
    have there : map.Lands (x - data.width / 2 + a) (y - data.height / 2 + b) _ :=
      lands_of_inside small (by omega) (by omega)
    refine .inl ⟨_, _, ?_, ?_, lands.unique there, a.toNat, b.toNat, solid, ?_, ?_⟩ <;> omega

/-- The crater is merged exactly where the loops go over it and what is outside of the map does no
harm, or where they do not go over it and there is nothing to clear. -/
theorem isMerged_iff (data : BulletCraterData) (x y : UInt32) (map : MapData)
    (insideX : x < map.width) (insideY : y < map.height) :
    IsMerged data x y map (mergeArea data x y map) ↔
      (Swept data x y map → ∀ cell, Spills data x y map cell →
        map.grids cell = 0 ∨ map.Covered data x y cell) ∧
      (¬Swept data x y map → ∀ cell, map.Covered data x y cell → map.grids cell = 0) := by
  constructor
  · intro merged
    constructor
    · rintro swept cell ⟨a, b, solid, outside, lands⟩
      have hit := (hitBy_iff swept insideX insideY).mpr ⟨a, b, solid, lands⟩
      by_cases covered : map.Covered data x y cell
      · exact .inr covered
      · exact .inl ((merged.kept cell covered).symm.trans (mergeArea_clears.1 hit))
    · intro unswept cell covered
      have missed : ¬HitBy data x y map cell := fun hit => unswept (swept_of_hitBy hit)
      exact (mergeArea_clears.2 missed).symm.trans (merged.cleared cell covered)
  · rintro ⟨harmless, nothing⟩
    refine ⟨rfl, fun cell covered => ?_, fun cell bare => ?_⟩
    · by_cases swept : Swept data x y map
      · exact mergeArea_clears.1 (hitBy_of_covered swept insideX insideY covered)
      · rw [mergeArea_clears.2 fun hit => swept (swept_of_hitBy hit)]
        exact nothing swept cell covered
    · by_cases hit : HitBy data x y map cell
      · have swept := swept_of_hitBy hit
        obtain covered | spills := covered_or_spills swept insideX insideY hit
        · exact absurd covered bare
        · rw [mergeArea_clears.1 hit]
          exact ((harmless swept cell spills).resolve_right bare).symm
      · exact mergeArea_clears.2 hit

end

/-- A bitmap of these sides without an empty cell. -/
def full (width height gridCount : UInt32)
    (count : gridCount.toNat = width.toNat * height.toNat) : MapData :=
  { width, height, pixelX := 1, pixelY := 1, gridCount, grids := fun _ => 1, onePixelX := rfl
    onePixelY := rfl, count }

theorem isMerged_iff_middle :
    IsMerged (full 3 1 3 rfl) 4 1 (full 9 3 27 rfl)
        (mergeArea (full 3 1 3 rfl) 4 1 (full 9 3 27 rfl)) ↔
      (Swept (full 3 1 3 rfl) 4 1 (full 9 3 27 rfl) →
        ∀ cell, Spills (full 3 1 3 rfl) 4 1 (full 9 3 27 rfl) cell →
          (full 9 3 27 rfl).grids cell = 0 ∨ (full 9 3 27 rfl).Covered (full 3 1 3 rfl) 4 1 cell) ∧
      (¬Swept (full 3 1 3 rfl) 4 1 (full 9 3 27 rfl) →
        ∀ cell, (full 9 3 27 rfl).Covered (full 3 1 3 rfl) 4 1 cell →
          (full 9 3 27 rfl).grids cell = 0) :=
  isMerged_iff (full 3 1 3 rfl) 4 1 (full 9 3 27 rfl) (by decide) (by decide)

/-- At the right edge the last column of the crater clears a cell at the left edge. -/
theorem not_isMerged_right : ¬IsMerged (full 3 1 3 rfl) 8 1 (full 9 3 27 rfl)
    (mergeArea (full 3 1 3 rfl) 8 1 (full 9 3 27 rfl)) := by
  intro merged
  have kept := merged.kept 18 ?_
  · exact absurd kept (by decide)
  · rintro ⟨column, row, columnInside, rowInside, place, a, b, ⟨-, bInside, -⟩, -, underY⟩
    simp [full] at columnInside rowInside place bInside underY
    omega

end Taomee.PeaBattle
