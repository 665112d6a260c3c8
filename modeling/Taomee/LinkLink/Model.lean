import Mathlib.Algebra.Order.Ring.Int

/-!
# Link-link: the board of a player

A pair of equal tiles goes when a line with at most two corners joins them.
-/

namespace Taomee.LinkLink

def rows : Nat := 10
def cols : Nat := 14

/-- A `uint8_t`. -/
def uint8 (n : Int) : Nat := (n % 256).toNat

/-- A `uint32_t`. -/
def uint32 (n : Nat) : Nat := n % 2 ^ 32

structure Point where
  x : Nat
  y : Nat
  deriving DecidableEq

inductive Direction where
  | north
  | south
  | west
  | east

/-- The constructor of `l_link` fills the array in this order. -/
def directions : List Direction := [.east, .south, .west, .north]

def Direction.stepX : Direction → Int
  | .south => 1
  | .north => -1
  | _ => 0

def Direction.stepY : Direction → Int
  | .east => 1
  | .west => -1
  | _ => 0

def Point.move (start : Point) (direction : Direction) : Point :=
  ⟨uint8 (direction.stepX + start.x), uint8 (direction.stepY + start.y)⟩

/-- The line under way. `alreadyPath` has the newest point first. -/
structure Route where
  corner : Nat
  alreadyPath : List Point

structure LLink where
  map : Point → Nat
  pairCount : Nat
  findPairs : Nat
  path : Route

namespace LLink

def checkCorners (l : LLink) (cur : Point) : Int × LLink :=
  match l.path.alreadyPath with
  | _ :: prev :: _ =>
    if prev.x ≠ cur.x ∧ prev.y ≠ cur.y then
      if l.path.corner < 2 then
        (1, { l with path := { l.path with corner := l.path.corner + 1 } })
      else (-1, l)
    else (0, l)
  | _ => (0, l)

def pushBack (l : LLink) (start : Point) : LLink :=
  { l with path := { l.path with alreadyPath := start :: l.path.alreadyPath } }

def popBack (l : LLink) : LLink :=
  { l with path := { l.path with alreadyPath := l.path.alreadyPath.tail } }

/-- The last tile of the line and the first one go. -/
def remove (l : LLink) (end_ : Point) : LLink :=
  { l with
    map := Function.update (Function.update l.map end_ 0)
      ((l.path.alreadyPath.getLast?).getD end_) 0
    findPairs := uint32 (l.findPairs + 1) }

/-- The loop over the directions from `start` on. -/
def tryDirections (travel : Point → LLink → Option (Int × LLink)) (start end_ : Point) :
    List Direction → LLink → Option (Int × LLink)
  | [], l => some (-1, l.popBack)
  | direction :: rest, l =>
    let newStart := start.move direction
    if rows ≤ newStart.x ∨ cols ≤ newStart.y then tryDirections travel start end_ rest l
    else if l.map newStart ≠ 0 ∧ l.map newStart ≠ l.map end_ then
      tryDirections travel start end_ rest l
    else if newStart ∈ l.path.alreadyPath then tryDirections travel start end_ rest l
    else
      let (ableCorner, l) := l.checkCorners newStart
      if ableCorner = -1 then tryDirections travel start end_ rest l
      else
        match travel newStart l with
        | none => none
        | some (ret, l) =>
          if ret = 0 then some (ret, l)
          else
            tryDirections travel start end_ rest
              (if ableCorner = 1 then { l with path := { l.path with corner := l.path.corner - 1 } }
              else l)

/-- `none` is a search that has run out of fuel. -/
def travel (end_ : Point) : Nat → Point → LLink → Option (Int × LLink)
  | 0, _, _ => none
  | fuel + 1, start, l =>
    let l := l.pushBack start
    if start = end_ then some (0, l.remove end_)
    else tryDirections (travel end_ fuel) start end_ directions l

def onBoard (p : Point) : Prop := ¬ (p.x = 0 ∨ rows ≤ p.x ∨ p.y = 0 ∨ cols ≤ p.y)

instance (p : Point) : Decidable (onBoard p) := inferInstanceAs (Decidable (¬ _))

/-- A line has no cell twice, so the fuel is never used up. -/
def findPath (l : LLink) (start end_ : Point) : Int × LLink :=
  if ¬ onBoard start then (-1, l)
  else if ¬ onBoard end_ then (-1, l)
  else if start = end_ then (-1, l)
  else if l.map start ≠ l.map end_ then (-1, l)
  else
    match travel end_ (rows * cols + 1) start { l with path := ⟨0, []⟩ } with
    | none => (-1, l)
    | some (ret, l) =>
      if ret = 0 then (if l.pairCount = l.findPairs then 2 else ret, l) else (-1, l)

end LLink

/-- The cells row by row. -/
def cells : List Point :=
  (List.range rows).flatMap fun i => (List.range cols).map fun j => ⟨i, j⟩

end Taomee.LinkLink
