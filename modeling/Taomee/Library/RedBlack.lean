import Mathlib

/-!
# Red-black trees under a cursor

A cursor into a tree is the subtree at the cursor together with the frames on
the way up from it. Every frame records on which side the hole is, so that an
algorithm and its mirror image are one definition and one proof. The tree type
and its balance predicate are `RBTree.RBNode` and `RBTree.RBNode.Balanced`.
-/

namespace Taomee.RedBlack

open RBTree RBTree.RBNode RBTree.RBColor

universe u
variable {α : Type u}

instance decidableEqColor : DecidableEq RBColor
  | .red, .red | .black, .black => .isTrue rfl
  | .red, .black | .black, .red => .isFalse nofun

instance decidableEqTree [DecidableEq α] : DecidableEq (RBNode α)
  | .nil, .nil => .isTrue rfl
  | .nil, .node .. | .node .., .nil => .isFalse nofun
  | .node c l v r, .node c' l' v' r' =>
    haveI := decidableEqTree l l'
    haveI := decidableEqTree r r'
    decidable_of_iff (c = c' ∧ l = l' ∧ v = v' ∧ r = r') (by simp)

/-- One of the two children of a node. -/
inductive Side where
  | left
  | right
  deriving DecidableEq, Repr

/-- The opposite side. -/
def Side.other : Side → Side
  | .left => .right
  | .right => .left

@[simp] theorem Side.other_other (side : Side) : side.other.other = side := by
  cases side <;> rfl

theorem Side.eq_other_of_ne {first second : Side} (different : first ≠ second) :
    first = second.other := by
  cases first <;> cases second <;> first | rfl | exact absurd rfl different

/-- The node whose child on `side` is `near`. -/
def sided (side : Side) (color : RBColor) (near : RBNode α) (item : α)
    (far : RBNode α) : RBNode α :=
  match side with
  | .left => .node color near item far
  | .right => .node color far item near

/-- Swapping the two children names the same node from its other side. -/
theorem sided_other (side : Side) (color : RBColor) (near far : RBNode α) (item : α) :
    sided side.other color near item far = sided side color far item near := by
  cases side <;> rfl

/-- Every node can be read from either side. -/
theorem exists_sided (side : Side) (color : RBColor) (left right : RBNode α) (item : α) :
    ∃ near far, RBNode.node color left item right = sided side color near item far := by
  cases side
  · exact ⟨left, right, rfl⟩
  · exact ⟨right, left, rfl⟩

@[simp] theorem setBlack_sided (side : Side) (color : RBColor) (near far : RBNode α) (item : α) :
    (sided side color near item far).setBlack = sided side black near item far := by
  cases side <;> rfl

@[simp] theorem isRed_sided (side : Side) (color : RBColor) (near far : RBNode α)
    (item : α) : (sided side color near item far).isRed = color := by
  cases side <;> rfl

/-- In-order contents do not depend on the colours of a node. -/
theorem toList_sided_congr {side : Side} {color color' : RBColor} {item : α}
    {near near' far far' : RBNode α} (nearSame : near.toList = near'.toList)
    (farSame : far.toList = far'.toList) :
    (sided side color near item far).toList = (sided side color' near' item far').toList := by
  cases side <;> simp [sided, nearSame, farSame]

/-- A rotation keeps the in-order contents. -/
theorem toList_rotate (side : Side) (outer inner outer' inner' : RBColor)
    (a b e : RBNode α) (v w : α) :
    (sided side inner (sided side outer a v b) w e).toList =
      (sided side outer' a v (sided side inner' b w e)).toList := by
  cases side <;> simp [sided]

/-- A red node is balanced when both children are black and equally high. -/
theorem balanced_sided_red {side : Side} {near far : RBNode α} {item : α} {n : Nat}
    (nearBalanced : near.Balanced black n) (farBalanced : far.Balanced black n) :
    (sided side red near item far).Balanced red n := by
  cases side
  · exact .red nearBalanced farBalanced
  · exact .red farBalanced nearBalanced

/-- A black node is balanced when both children are equally high. -/
theorem balanced_sided_black {side : Side} {near far : RBNode α} {item : α} {n : Nat}
    {c c' : RBColor} (nearBalanced : near.Balanced c n) (farBalanced : far.Balanced c' n) :
    (sided side black near item far).Balanced black (n + 1) := by
  cases side
  · exact .black nearBalanced farBalanced
  · exact .black farBalanced nearBalanced

theorem balanced_sided_red_inv {side : Side} {near far : RBNode α} {item : α} {n : Nat}
    {c : RBColor} (balanced : (sided side red near item far).Balanced c n) :
    c = red ∧ near.Balanced black n ∧ far.Balanced black n := by
  cases side <;> cases balanced with
  | red first second => exact ⟨rfl, by assumption, by assumption⟩

theorem balanced_sided_black_inv {side : Side} {near far : RBNode α} {item : α} {n : Nat}
    {c : RBColor} (balanced : (sided side black near item far).Balanced c n) :
    c = black ∧ ∃ m c₁ c₂, n = m + 1 ∧ near.Balanced c₁ m ∧ far.Balanced c₂ m := by
  cases side <;> cases balanced with
  | black first second => exact ⟨rfl, _, _, _, rfl, by assumption, by assumption⟩

/-- The colour index of a balanced tree is the colour of its root. -/
theorem isRed_eq_of_balanced {tree : RBNode α} {c : RBColor} {n : Nat}
    (balanced : tree.Balanced c n) : tree.isRed = c := by
  cases balanced <;> rfl

theorem eq_black_of_isRed_ne {tree : RBNode α} {c : RBColor} {n : Nat}
    (balanced : tree.Balanced c n) (notRed : tree.isRed ≠ red) : c = black := by
  cases balanced <;> first | rfl | exact absurd rfl notRed

/-- A node on the way from a cursor to the root: the side the hole is on, and
everything else of the node. -/
structure Frame (α : Type u) where
  side : Side
  color : RBColor
  item : α
  sibling : RBNode α

/-- Put a tree in the hole of a frame. -/
def Frame.fill (frame : Frame α) (hole : RBNode α) : RBNode α :=
  sided frame.side frame.color hole frame.item frame.sibling

/-- Put a tree at the cursor; the innermost frame comes first. -/
def plug : List (Frame α) → RBNode α → RBNode α
  | [], tree => tree
  | frame :: rest, tree => plug rest (frame.fill tree)

@[simp] theorem plug_nil (tree : RBNode α) : plug [] tree = tree := rfl

@[simp] theorem plug_cons (frame : Frame α) (rest : List (Frame α)) (tree : RBNode α) :
    plug (frame :: rest) tree = plug rest (frame.fill tree) := rfl

theorem plug_append (inner outer : List (Frame α)) (tree : RBNode α) :
    plug (inner ++ outer) tree = plug outer (plug inner tree) := by
  induction inner generalizing tree with
  | nil => rfl
  | cons frame rest ih => exact ih _

/-- The items in order before the hole. -/
def itemsBefore : List (Frame α) → List α
  | [] => []
  | ⟨.left, _, _, _⟩ :: rest => itemsBefore rest
  | ⟨.right, _, item, sibling⟩ :: rest => itemsBefore rest ++ (sibling.toList ++ [item])

/-- The items in order after the hole. -/
def itemsAfter : List (Frame α) → List α
  | [] => []
  | ⟨.left, _, item, sibling⟩ :: rest => item :: sibling.toList ++ itemsAfter rest
  | ⟨.right, _, _, _⟩ :: rest => itemsAfter rest

theorem itemsAfter_append (inner outer : List (Frame α)) :
    itemsAfter (inner ++ outer) = itemsAfter inner ++ itemsAfter outer := by
  induction inner with
  | nil => rfl
  | cons frame rest ih =>
    obtain ⟨side, color, item, sibling⟩ := frame
    cases side <;> simp [itemsAfter, ih]

/-- The contents of a plugged tree surround the contents at the cursor. -/
theorem toList_plug (frames : List (Frame α)) (tree : RBNode α) :
    (plug frames tree).toList = itemsBefore frames ++ tree.toList ++ itemsAfter frames := by
  induction frames generalizing tree with
  | nil => simp [itemsBefore, itemsAfter]
  | cons frame rest ih =>
    obtain ⟨side, color, item, sibling⟩ := frame
    cases side <;> simp [ih, Frame.fill, sided, itemsBefore, itemsAfter]

/-- Contents of a plugged tree depend on the cursor's subtree only through its contents. -/
theorem toList_plug_congr (frames : List (Frame α)) {tree tree' : RBNode α}
    (same : tree.toList = tree'.toList) :
    (plug frames tree).toList = (plug frames tree').toList := by
  rw [toList_plug, toList_plug, same]

/-- The colour of the root depends on the cursor's subtree only through its colour. -/
theorem isRed_plug_congr (frames : List (Frame α)) {tree tree' : RBNode α}
    (same : tree.isRed = tree'.isRed) : (plug frames tree).isRed = (plug frames tree').isRed := by
  induction frames generalizing tree tree' with
  | nil => exact same
  | cons frame rest ih => exact ih (by simp [Frame.fill])

/-! ## Balance around a cursor -/

/-- `Fits frames parent n`: a tree of black height `n` at the cursor completes a
balanced tree with a black root. `parent` is the colour of the innermost frame;
above the root it counts as red, which is what forces the root to be black. -/
inductive Fits : List (Frame α) → RBColor → Nat → Prop where
  | root {n : Nat} : Fits [] red n
  | underRed {side : Side} {item : α} {sibling : RBNode α} {rest : List (Frame α)} {n : Nat}
      (siblingBalanced : sibling.Balanced black n) (above : Fits rest black n) :
      Fits (⟨side, red, item, sibling⟩ :: rest) red n
  | underBlack {side : Side} {item : α} {sibling : RBNode α} {rest : List (Frame α)} {n : Nat}
      {c p : RBColor} (siblingBalanced : sibling.Balanced c n) (above : Fits rest p (n + 1)) :
      Fits (⟨side, black, item, sibling⟩ :: rest) black n

/-- Completing a fitting cursor by a balanced tree gives a balanced tree. -/
theorem Fits.plug {frames : List (Frame α)} {p c : RBColor} {n : Nat} {tree : RBNode α}
    (fits : Fits frames p n) (balanced : tree.Balanced c n) (alternates : p = red → c = black) :
    ∃ m, (plug frames tree).Balanced black m := by
  induction fits generalizing tree c with
  | root => exact ⟨_, alternates rfl ▸ balanced⟩
  | underRed siblingBalanced above ih =>
    cases alternates rfl
    exact ih (balanced_sided_red balanced siblingBalanced) (by simp)
  | underBlack siblingBalanced above ih =>
    exact ih (balanced_sided_black balanced siblingBalanced) (fun _ => rfl)

/-- A balanced tree with a black root fits around every cursor into it. -/
theorem fits_of_plug {frames : List (Frame α)} {tree : RBNode α} {m : Nat}
    (balanced : (plug frames tree).Balanced black m) :
    ∃ p c n, Fits frames p n ∧ tree.Balanced c n ∧ (p = red → c = black) := by
  induction frames generalizing tree with
  | nil => exact ⟨_, _, _, .root, balanced, fun _ => rfl⟩
  | cons frame rest ih =>
    obtain ⟨side, color, item, sibling⟩ := frame
    obtain ⟨p, c, n, above, filled, alternates⟩ := ih balanced
    cases color with
    | red =>
      obtain ⟨rfl, hole, siblingBalanced⟩ := balanced_sided_red_inv filled
      have parent : p = black := by cases p <;> simp_all
      exact ⟨_, _, _, .underRed siblingBalanced (parent ▸ above), hole, fun _ => rfl⟩
    | black =>
      obtain ⟨rfl, n', _, _, rfl, hole, siblingBalanced⟩ := balanced_sided_black_inv filled
      exact ⟨_, _, _, .underBlack siblingBalanced above, hole, by simp⟩

/-! ## Repair after an insertion -/

/-- The child on one side; a leaf has only leaves below it. -/
def childOn (side : Side) : RBNode α → RBNode α
  | .nil => .nil
  | .node _ left _ right =>
    match side with
    | .left => left
    | .right => right

@[simp] theorem childOn_sided (side : Side) (color : RBColor) (near far : RBNode α)
    (item : α) : childOn side (sided side color near item far) = near := by
  cases side <;> rfl

@[simp] theorem childOn_other_sided (side : Side) (color : RBColor) (near far : RBNode α)
    (item : α) : childOn side.other (sided side color near item far) = far := by
  cases side <;> rfl

/-- Blackening a balanced red tree makes it one higher. -/
theorem balanced_setBlack_of_red {tree : RBNode α} {n : Nat} (balanced : tree.Balanced red n) :
    tree.setBlack.Balanced black (n + 1) := by
  cases balanced with
  | red left right => exact .black left right

/-- The two rotations that lift an inner grandchild above its parent and its
grandparent. -/
def liftInner (frame grand : Frame α) : RBNode α → RBNode α
  | .nil => grand.fill (frame.fill .nil)
  | .node color left item right =>
    sided grand.side black
      (sided grand.side red frame.sibling frame.item
        (childOn grand.side (.node color left item right)))
      item
      (sided grand.side red (childOn grand.side.other (.node color left item right))
        grand.item grand.sibling)

/-- Bottom-up repair of a red cursor. While parent and uncle are red, recolour
and move two levels up; once the uncle is black one or two rotations finish. The
root may come out red. -/
def fixInsert : List (Frame α) → RBNode α → RBNode α
  | [], tree => tree
  | [frame], tree => frame.fill tree
  | frame :: grand :: rest, tree =>
    if frame.color = black then plug (frame :: grand :: rest) tree
    else if grand.sibling.isRed = red then
      fixInsert rest (sided grand.side red ({ frame with color := black }.fill tree)
        grand.item grand.sibling.setBlack)
    else if frame.side = grand.side then
      plug rest (sided grand.side black tree frame.item
        (sided grand.side red frame.sibling grand.item grand.sibling))
    else plug rest (liftInner frame grand tree)

/-- Lifting a balanced red grandchild leaves a black node above two red ones. -/
theorem balanced_liftInner {frame grand : Frame α} {tree : RBNode α} {n : Nat}
    (inner : frame.side ≠ grand.side) (balanced : tree.Balanced red n)
    (siblingBalanced : frame.sibling.Balanced black n)
    (uncleBalanced : grand.sibling.Balanced black n) :
    (liftInner frame grand tree).Balanced black (n + 1) := by
  cases balanced with
  | red left right =>
    obtain ⟨side', _, _, _⟩ := grand
    cases side'
    · exact .black (.red siblingBalanced left) (.red right uncleBalanced)
    · exact .black (.red uncleBalanced left) (.red right siblingBalanced)

/-- Repairing a red tree of the right height in a fitting cursor restores the
balance; blackening the root then makes the whole tree red-black. -/
theorem balanced_fixInsert {frames : List (Frame α)} {p : RBColor} {n : Nat}
    {tree : RBNode α} (fits : Fits frames p n) (balanced : tree.Balanced red n) :
    ∃ m, (fixInsert frames tree).setBlack.Balanced black m := by
  induction frames, tree using fixInsert.induct generalizing p n with
  | case1 tree => exact balanced.setBlack
  | case2 frame tree =>
    cases fits with
    | underRed _ above => cases above
    | underBlack siblingBalanced above =>
      exact (balanced_sided_black balanced siblingBalanced).setBlack
  | case3 frame grand rest tree parentBlack =>
    cases fits with
    | underRed => cases parentBlack
    | underBlack siblingBalanced above =>
      obtain ⟨m, whole⟩ := (Fits.underBlack siblingBalanced above).plug balanced (by simp)
      exact whole.setBlack
  | case4 frame grand rest tree parentRed uncleRed ih =>
    rw [fixInsert, if_neg parentRed, if_pos uncleRed]
    cases fits with
    | underBlack => exact absurd rfl parentRed
    | underRed siblingBalanced above =>
      cases above with
      | underBlack uncleBalanced above =>
        cases (isRed_eq_of_balanced uncleBalanced).symm.trans uncleRed
        exact ih above (balanced_sided_red
          (balanced_sided_black balanced siblingBalanced)
          (balanced_setBlack_of_red uncleBalanced))
  | case5 frame grand rest tree parentRed uncleBlack outer =>
    rw [fixInsert, if_neg parentRed, if_neg uncleBlack, if_pos outer]
    cases fits with
    | underBlack => exact absurd rfl parentRed
    | underRed siblingBalanced above =>
      cases above with
      | underBlack uncleBalanced above =>
        cases eq_black_of_isRed_ne uncleBalanced uncleBlack
        obtain ⟨m, whole⟩ := above.plug (balanced_sided_black balanced
          (balanced_sided_red siblingBalanced uncleBalanced)) (fun _ => rfl)
        exact whole.setBlack
  | case6 frame grand rest tree parentRed uncleBlack inner =>
    rw [fixInsert, if_neg parentRed, if_neg uncleBlack]
    cases fits with
    | underBlack => exact absurd rfl parentRed
    | underRed siblingBalanced above =>
      cases above with
      | underBlack uncleBalanced above =>
        cases eq_black_of_isRed_ne uncleBalanced uncleBlack
        have lifted := balanced_liftInner inner balanced siblingBalanced uncleBalanced
        obtain ⟨m, whole⟩ := above.plug lifted (fun _ => rfl)
        rw [if_neg inner]
        exact whole.setBlack

/-! ## Search -/

section Search

variable {κ : Type*} [LinearOrder κ] (key : α → κ)

/-- Move the cursor to the node with the key, or to the leaf where it belongs. -/
def zoom (wanted : κ) : RBNode α → List (Frame α) → RBNode α × List (Frame α)
  | .nil, frames => (.nil, frames)
  | .node color left item right, frames =>
    if wanted = key item then (.node color left item right, frames)
    else if key item < wanted then zoom wanted right (⟨.right, color, item, left⟩ :: frames)
    else zoom wanted left (⟨.left, color, item, right⟩ :: frames)

/-- Moving the cursor does not change the tree it is in. -/
theorem plug_zoom (wanted : κ) (tree : RBNode α) (frames : List (Frame α)) :
    plug (zoom key wanted tree frames).2 (zoom key wanted tree frames).1 =
      plug frames tree := by
  induction tree generalizing frames with
  | nil => rfl
  | node color left item right leftHyp rightHyp =>
    unfold zoom
    split
    · rfl
    · split
      · exact rightHyp _
      · exact leftHyp _

/-- The cursor stops at a leaf or at a node that carries the wanted key. -/
theorem zoom_stops (wanted : κ) (tree : RBNode α) (frames : List (Frame α)) :
    (zoom key wanted tree frames).1 = .nil ∨
      ∃ color left item right,
        (zoom key wanted tree frames).1 = .node color left item right ∧ wanted = key item := by
  induction tree generalizing frames with
  | nil => exact .inl rfl
  | node color left item right leftHyp rightHyp =>
    unfold zoom
    split
    · exact .inr ⟨_, _, _, _, rfl, by assumption⟩
    · split
      · exact rightHyp _
      · exact leftHyp _

/-- In a sorted tree, a search leaves smaller keys before the cursor and larger
keys after it. -/
theorem zoom_bounds (wanted : κ) {tree : RBNode α} (frames : List (Frame α))
    (sorted : ((plug frames tree).toList.map key).Pairwise (· < ·))
    (below : ∀ x ∈ itemsBefore frames, key x < wanted)
    (above : ∀ x ∈ itemsAfter frames, wanted < key x) :
    (∀ x ∈ itemsBefore (zoom key wanted tree frames).2, key x < wanted) ∧
      ∀ x ∈ itemsAfter (zoom key wanted tree frames).2, wanted < key x := by
  induction tree generalizing frames with
  | nil => exact ⟨below, above⟩
  | node color left item right leftHyp rightHyp =>
    have parts := sorted
    rw [toList_plug, toList_node, List.map_append, List.map_append, List.map_append,
      List.map_cons, List.pairwise_append, List.pairwise_append, List.pairwise_append,
      List.pairwise_cons] at parts
    obtain ⟨⟨_, ⟨_, ⟨itemRight, _⟩, leftItem⟩, _⟩, _, _⟩ := parts
    unfold zoom
    split
    · exact ⟨below, above⟩
    · rename_i different
      split
      · rename_i less
        refine rightHyp _ sorted ?_ above
        intro x member
        simp only [itemsBefore, List.mem_append, List.mem_singleton] at member
        rcases member with old | inLeft | rfl
        · exact below x old
        · exact (leftItem (key x) (List.mem_map_of_mem inLeft) (key item)
            List.mem_cons_self).trans less
        · exact less
      · rename_i notLess
        have greater : wanted < key item := lt_of_le_of_ne (not_lt.mp notLess) different
        refine leftHyp _ sorted below ?_
        intro x member
        simp only [itemsAfter, List.cons_append, List.mem_cons, List.mem_append] at member
        rcases member with rfl | inRight | old
        · exact greater
        · exact greater.trans (itemRight (key x) (List.mem_map_of_mem inRight))
        · exact above x old

end Search

/-! ## The in-order successor -/

/-- Move the cursor down the left spine to its last node. -/
def descendLeft : RBNode α → List (Frame α) → RBNode α × List (Frame α)
  | .node color (.node color' left' item' right') item right, frames =>
    descendLeft (.node color' left' item' right') (⟨.left, color, item, right⟩ :: frames)
  | tree, frames => (tree, frames)

/-- The left spine of a node ends at a node without a left child, and every frame
on the way has its hole on the left. -/
theorem descendLeft_spec (color : RBColor) (left right : RBNode α) (item : α) :
    ∃ spine c s rest,
      (∀ frames, descendLeft (.node color left item right) frames =
        (.node c .nil s rest, spine ++ frames)) ∧
      plug spine (.node c .nil s rest) = .node color left item right ∧
      ∀ frame ∈ spine, frame.side = .left := by
  induction left generalizing color item right with
  | nil => exact ⟨[], color, item, right, fun _ => rfl, rfl, by simp⟩
  | node color' left' item' right' leftHyp =>
    obtain ⟨spine, c, s, rest, found, whole, lefts⟩ := leftHyp color' right' item'
    refine ⟨spine ++ [⟨.left, color, item, right⟩], c, s, rest, ?_, ?_, ?_⟩
    · intro frames
      rw [descendLeft, found, List.append_assoc, List.singleton_append]
    · rw [plug_append, whole]; rfl
    · intro frame member
      rcases List.mem_append.mp member with inSpine | last
      · exact lefts frame inSpine
      · rw [List.mem_singleton.mp last]

/-- Nothing comes before the end of a left spine. -/
theorem itemsBefore_eq_nil {frames : List (Frame α)}
    (lefts : ∀ frame ∈ frames, frame.side = .left) : itemsBefore frames = [] := by
  induction frames with
  | nil => rfl
  | cons frame rest ih =>
    obtain ⟨side, color, item, sibling⟩ := frame
    cases lefts _ List.mem_cons_self
    exact ih fun other member => lefts other (List.mem_cons_of_mem _ member)

end Taomee.RedBlack
