import Taomee.LinkLink.Path

/-!
# Link-link: which pairs should go

The rules of the game let two tiles of one picture go when a path over blank squares joins them
with at most two corners. `find_path` asks neither whether the two squares hold tiles nor, on the
way, whether a tile of the same picture is the second one.
-/

namespace Taomee.LinkLink

/-- A path of squares of the board, written down backwards: each has a side in common with the
next, none comes twice, there are at most two corners, and what lies between the ends is blank. -/
structure BlankPath (map : Point → Nat) (start end_ : Point) (path : List Point) : Prop where
  last : path.head? = some end_
  first : path.getLast? = some start
  beside : path.IsChain Beside
  nodup : path.Nodup
  inside : ∀ p ∈ path, Inside p
  few : corners path ≤ 2
  blank : ∀ p ∈ path, p ≠ start → p ≠ end_ → map p = 0

variable {map : Point → Nat} {start end_ : Point}

theorem Beside.symm {p q : Point} (beside : Beside p q) : Beside q p := by
  unfold Beside at *
  omega

/-- Any part of a path from its first square on is a line of the search. -/
theorem line_of_chain {path : List Point} (first : path.getLast? = some start)
    (beside : path.IsChain Beside) (nodup : path.Nodup) (inside : ∀ p ∈ path, Inside p)
    (open_ : ∀ p ∈ path, p ≠ start → map p = 0 ∨ map p = map end_) : Line map start end_ path := by
  induction path with
  | nil => cases first
  | cons p rest ih =>
    cases rest with
    | nil =>
      obtain rfl : p = start := Option.some.inj first
      exact .here (inside p List.mem_cons_self)
    | cons q before =>
      obtain ⟨fresh, nodup⟩ := List.nodup_cons.mp nodup
      obtain ⟨near, beside⟩ := List.isChain_cons_cons.mp beside
      have apart : p ≠ start := by
        rintro rfl
        exact fresh (List.mem_of_getLast? first)
      have line := ih first beside nodup (fun r member => inside r (List.mem_cons_of_mem p member))
        fun r member => open_ r (List.mem_cons_of_mem p member)
      exact line.onward near.symm (inside p List.mem_cons_self)
        (open_ p List.mem_cons_self apart) fresh

theorem BlankPath.joined {path : List Point} (blankPath : BlankPath map start end_ path) :
    Joined map start end_ := by
  cases path with
  | nil => cases blankPath.last
  | cons p before =>
    obtain rfl : p = end_ := Option.some.inj blankPath.last
    refine ⟨before, ?_, blankPath.few⟩
    refine line_of_chain blankPath.first blankPath.beside blankPath.nodup blankPath.inside
      fun q member apart => ?_
    by_cases last : q = p
    · exact .inr (congrArg map last)
    · exact .inl (blankPath.blank q member apart last)

/-- Two blank squares that a line joins. -/
def BlankPair (map : Point → Nat) (start end_ : Point) : Prop :=
  map start = 0 ∧ map end_ = 0 ∧ Joined map start end_

/-- Two tiles of one picture that are joined, but only over others of that picture. -/
def OverTwins (map : Point → Nat) (start end_ : Point) : Prop :=
  map start ≠ 0 ∧ map start = map end_ ∧ Joined map start end_ ∧
    ¬ ∃ path, BlankPath map start end_ path

namespace LLink

/-- A pair that the rules let go. -/
structure MayGo (l : LLink) (start end_ : Point) : Prop where
  apart : start ≠ end_
  startOn : 1 ≤ start.x ∧ start.x < rows ∧ 1 ≤ start.y ∧ start.y < cols
  endOn : 1 ≤ end_.x ∧ end_.x < rows ∧ 1 ≤ end_.y ∧ end_.y < cols
  tiles : l.map start ≠ 0 ∧ l.map end_ ≠ 0
  same : l.map start = l.map end_
  joined : ∃ path, BlankPath l.map start end_ path

/-- What `find_path` should do: it comes to an end, it succeeds for the pairs that may go and for
no others, then the two squares are blank and there is one pair more, and else nothing changes. -/
structure FindsPairs (l : LLink) (start end_ : Point) : Prop where
  ends : onBoard start →
    (travel end_ (rows * cols + 1) start { l with path := ⟨0, []⟩ }).isSome
  succeeds : (l.findPath start end_).1 ≠ -1 ↔ l.MayGo start end_
  cleared : (l.findPath start end_).1 ≠ -1 →
    (l.findPath start end_).2.map =
        Function.update (Function.update l.map end_ 0) start 0 ∧
      (l.findPath start end_).2.findPairs = uint32 (l.findPairs + 1)
  kept : (l.findPath start end_).1 = -1 →
    (l.findPath start end_).2.map = l.map ∧ (l.findPath start end_).2.findPairs = l.findPairs

variable {l : LLink}

theorem onBoard_iff {p : Point} : onBoard p ↔ 1 ≤ p.x ∧ p.x < rows ∧ 1 ≤ p.y ∧ p.y < cols := by
  unfold onBoard
  omega

theorem MayGo.matches (mayGo : l.MayGo start end_) : l.Matches start end_ := by
  obtain ⟨path, blankPath⟩ := mayGo.joined
  exact ⟨⟨onBoard_iff.mpr mayGo.startOn, onBoard_iff.mpr mayGo.endOn⟩, mayGo.apart, mayGo.same,
    blankPath.joined⟩

/-- What goes without being allowed to. -/
theorem mayGo_iff_of_matches (matched : l.Matches start end_) :
    l.MayGo start end_ ↔ ¬ BlankPair l.map start end_ ∧ ¬ OverTwins l.map start end_ := by
  have same := matched.same
  constructor
  · intro mayGo
    exact ⟨fun blank => mayGo.tiles.1 blank.1, fun ended => ended.2.2.2 mayGo.joined⟩
  · rintro ⟨notBlank, notOver⟩
    have tile : l.map start ≠ 0 := fun blank => notBlank ⟨blank, same ▸ blank, matched.joined⟩
    refine ⟨matched.apart, onBoard_iff.mp matched.onBoard.1, onBoard_iff.mp matched.onBoard.2,
      ⟨tile, same ▸ tile⟩, same, ?_⟩
    by_contra none
    exact notOver ⟨tile, same, matched.joined, none⟩

theorem findPath_succeeds_iff : (l.findPath start end_).1 ≠ -1 ↔ l.Matches start end_ := by
  by_cases matched : l.Matches start end_
  · obtain ⟨path, found⟩ := findPath_matches matched
    refine iff_of_true ?_ matched
    rw [found]
    dsimp only
    split <;> decide
  · obtain ⟨path, refused⟩ := findPath_refused matched
    refine iff_of_false ?_ matched
    rw [refused]
    exact not_not.mpr rfl

/-- `find_path` does what it should exactly when the squares, being two of the board, are no blank
pair and no tiles that are joined only over others of their picture. -/
theorem findsPairs_iff (l : LLink) (start end_ : Point) :
    l.FindsPairs start end_ ↔
      (onBoard start → onBoard end_ → start ≠ end_ →
        ¬ BlankPair l.map start end_ ∧ ¬ OverTwins l.map start end_) := by
  constructor
  · intro finds startOn endOn apart
    by_cases matched : l.Matches start end_
    · exact (mayGo_iff_of_matches matched).mp
        (finds.succeeds.mp (findPath_succeeds_iff.mpr matched))
    · refine ⟨fun blank => matched ?_, fun ended => matched ?_⟩
      · exact ⟨⟨startOn, endOn⟩, apart, blank.1.trans blank.2.1.symm, blank.2.2⟩
      · exact ⟨⟨startOn, endOn⟩, apart, ended.2.1, ended.2.2.1⟩
  · intro fits
    refine ⟨fun startOn => ?_, ?_, fun succeeded => ?_, fun failed => ?_⟩
    · obtain ⟨-, path, travelled⟩ | ⟨-, travelled⟩ :=
        @travel_new start end_ l (inside_of_onBoard startOn)
      · exact travelled ▸ rfl
      · exact travelled ▸ rfl
    · rw [findPath_succeeds_iff]
      constructor
      · intro matched
        exact (mayGo_iff_of_matches matched).mpr
          (fits matched.onBoard.1 matched.onBoard.2 matched.apart)
      · exact MayGo.matches
    · obtain ⟨path, found⟩ := findPath_matches (findPath_succeeds_iff.mp succeeded)
      rw [found]
      exact ⟨rfl, rfl⟩
    · obtain ⟨path, refused⟩ :=
        findPath_refused (fun matched => findPath_succeeds_iff.mpr matched failed)
      rw [refused]
      exact ⟨rfl, rfl⟩

/-- A row of three equal tiles. -/
def threeTiles : LLink :=
  { map := fun p => if p.x = 1 ∧ 1 ≤ p.y ∧ p.y ≤ 3 then 7 else 0
    pairCount := 2
    findPairs := 0
    path := ⟨0, []⟩ }

/-- Two blank squares beside each other count as a pair. -/
theorem blank_pair_found : ¬ ∀ (l : LLink) (start end_ : Point), l.FindsPairs start end_ := by
  intro claim
  have blank : (threeTiles.findPath ⟨3, 1⟩ ⟨3, 2⟩).1 ≠ -1 := by decide +kernel
  exact ((claim threeTiles ⟨3, 1⟩ ⟨3, 2⟩).succeeds.mp blank).tiles.1 rfl

end LLink

end Taomee.LinkLink
