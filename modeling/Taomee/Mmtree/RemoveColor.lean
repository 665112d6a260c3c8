import Taomee.Mmtree.InsertColor

/-!
# Repair after a removal

`mmt_remove_color` on the node array computes `fixRemove` on the tree the array
encodes. The code reads and colours the sentinel slot as if it were a node, so
the colour of the sentinel is carried along. Nothing here assumes that the tree is
balanced.
-/

namespace Taomee.Mmtree

open RBTree RBTree.RBNode RBTree.RBColor RedBlack

variable {frames rest : List (Frame Slot)} {tree tree₀ : RBNode Slot} {m₀ m : NodeMap} {root : Nat}

/-- The last rotation of the repair, below `f` with the red node `x` as sibling: the
red child of `x`, or else its inner child, goes up. -/
def raiseRedSibling (side : Side) (c : RBColor) (tree : RBNode Slot) (f : Slot)
    (inner : RBNode Slot) (x : Slot) (outer : RBNode Slot) : RBNode Slot :=
  if outer.isRed = red then
    sided side c (sided side black tree f inner) x outer.setBlack
  else
    match inner with
    | .nil => sided side c (sided side black tree f .nil) x outer
    | .node c' l y r =>
      sided side c (sided side black tree f (childOn side (.node c' l y r))) y
        (sided side black (childOn side.other (.node c' l y r)) x outer)

/-- Repair below the red node `f`, whose red sibling has gone up; `sibling` is the
new sibling. -/
def fixBelowRed (side : Side) (above : List (Frame Slot)) (tree : RBNode Slot) (f : Slot) :
    RBNode Slot → RBNode Slot
  | .nil => plug above (sided side black tree f .nil)
  | .node black l x r => plug above (sided side black tree f (.node red l x r))
  | .node red .nil x .nil => plug above (sided side black tree f (.node red .nil x .nil))
  | .node red l x r =>
    (plug above (raiseRedSibling side red tree f (childOn side (.node red l x r)) x
      (childOn side.other (.node red l x r)))).setBlack

/-- The repair of a cursor that is one black node short. A black sibling turns
red whatever its children are. -/
def fixRemove : RBColor → List (Frame Slot) → RBNode Slot → RBNode Slot
  | _, [], tree => tree.setBlack
  | sentinel, frame :: rest, tree =>
    if tree.isRed = red then plug (frame :: rest) tree.setBlack
    else
      match frame.sibling with
      | .nil =>
        fixRemove red rest
          (sided frame.side (if sentinel = red then red else frame.color) tree frame.item .nil)
      | .node black l u r =>
        fixRemove sentinel rest
          (sided frame.side frame.color tree frame.item (.node red l u r))
      | .node red l u r =>
        fixBelowRed frame.side
          (⟨frame.side, black, u, childOn frame.side.other (.node red l u r)⟩ :: rest)
          tree frame.item (childOn frame.side (.node red l u r))

/-! ## Contents -/

theorem toList_setBlack_plug (frames : List (Frame Slot)) (tree : RBNode Slot) :
    (plug frames tree.setBlack).toList = (plug frames tree).toList :=
  toList_plug_congr frames (by simp)

theorem toList_raiseRedSibling (side : Side) (c c' c'' : RBColor)
    (tree inner outer : RBNode Slot) (f x : Slot) :
    (raiseRedSibling side c tree f inner x outer).toList =
      (sided side c' tree f (sided side c'' inner x outer)).toList := by
  unfold raiseRedSibling
  split
  · cases side <;> simp [sided]
  · cases inner with
    | nil => cases side <;> simp [sided]
    | node => cases side <;> simp [sided, childOn, Side.other]

theorem toList_fixBelowRed (side : Side) (above : List (Frame Slot)) (c : RBColor)
    (tree sibling : RBNode Slot) (f : Slot) :
    (fixBelowRed side above tree f sibling).toList =
      (plug above (sided side c tree f sibling)).toList := by
  unfold fixBelowRed
  split
  · exact toList_plug_congr above (toList_sided_congr rfl rfl)
  · exact toList_plug_congr above (toList_sided_congr rfl rfl)
  · exact toList_plug_congr above (toList_sided_congr rfl rfl)
  · rw [setBlack_toList]
    refine toList_plug_congr above ((toList_raiseRedSibling _ _ c red _ _ _ _ _).trans ?_)
    exact toList_sided_congr rfl (by cases side <;> rfl)

/-- The repair keeps the in-order contents. -/
theorem toList_fixRemove (sentinel : RBColor) (frames : List (Frame Slot)) (tree : RBNode Slot) :
    (fixRemove sentinel frames tree).toList = (plug frames tree).toList := by
  induction frames generalizing sentinel tree with
  | nil => simp [fixRemove]
  | cons frame rest ih =>
    obtain ⟨side, c, f, sibling⟩ := frame
    rw [fixRemove]
    split
    · exact toList_setBlack_plug _ tree
    · simp only
      split
      · rw [ih]
        exact toList_plug_congr rest (toList_sided_congr rfl rfl)
      · rw [ih]
        exact toList_plug_congr rest (toList_sided_congr rfl rfl)
      · rw [toList_fixBelowRed side _ red, plug_cons]
        refine toList_plug_congr rest ?_
        cases side <;> simp [Frame.fill, sided, childOn, Side.other]

/-! ## The root -/

theorem isRed_setBlack (tree : RBNode Slot) : tree.setBlack.isRed = black := by
  cases tree <;> rfl

/-- Below a black outermost frame the root is black. -/
theorem isRed_plug_of_outermost (outermost : OutermostBlack frames) (nonempty : frames ≠ []) :
    (plug frames tree).isRed = black := by
  induction frames generalizing tree with
  | nil => exact absurd rfl nonempty
  | cons frame rest ih =>
    cases rest with
    | nil => simpa [Frame.fill] using outermost frame rfl
    | cons next rest => exact ih outermost.tail (by simp)

theorem isRed_fixBelowRed {above : List (Frame Slot)} (outermost : OutermostBlack above)
    (nonempty : above ≠ []) (side : Side) (tree sibling : RBNode Slot) (f : Slot) :
    (fixBelowRed side above tree f sibling).isRed = black := by
  unfold fixBelowRed
  split
  · exact isRed_plug_of_outermost outermost nonempty
  · exact isRed_plug_of_outermost outermost nonempty
  · exact isRed_plug_of_outermost outermost nonempty
  · exact isRed_setBlack _

/-- The repair keeps the root black. -/
theorem isRed_fixRemove (outermost : OutermostBlack frames) (sentinel : RBColor)
    (tree : RBNode Slot) : (fixRemove sentinel frames tree).isRed = black := by
  induction frames generalizing sentinel tree with
  | nil => exact isRed_setBlack tree
  | cons frame rest ih =>
    rw [fixRemove]
    split
    · exact isRed_plug_of_outermost outermost (by simp)
    · split
      · exact ih outermost.tail _ _
      · exact ih outermost.tail _ _
      · refine isRed_fixBelowRed ?_ (by simp) _ _ _ _
        intro last isLast
        cases rest with
        | nil =>
          simp only [List.getLast?_singleton, Option.some.injEq] at isLast
          rw [← isLast]
        | cons next rest => exact outermost last (by rwa [List.getLast?_cons_cons] at isLast ⊢)

/-! ## One iteration -/

section Step

variable {m₀ m : NodeMap} {tree₀ : RBNode Slot} {root : Nat} {frames rest : List (Frame Slot)}
  {side : Side} {c : RBColor} {f x y : Slot} {tree sibling inner outer near far : RBNode Slot}
variable {c' : RBColor}

namespace Rearranged

/-- Colouring the sentinel changes nothing else. -/
theorem setColor_zero (color : RBColor) {whole : RBNode Slot}
    (arranged : Rearranged m₀ tree₀ m root whole) :
    Rearranged (m₀.setColor 0 color) tree₀ (m.setColor 0 color) root whole where
  layout := by
    refine arranged.layout.frame fun i member => NodeMap.modify_of_ne _ _ ?_
    exact (arranged.layout.positive member).ne'
  rootEq := arranged.rootEq
  distinct := arranged.distinct
  items := arranged.items
  kept i outside := by
    rcases eq_or_ne i 0 with rfl | nonzero
    · simp only [NodeMap.setColor, NodeMap.modify_same, arranged.kept 0 outside]
    · simp only [NodeMap.setColor, NodeMap.modify_of_ne _ _ nonzero, arranged.kept i outside]

/-- What the code reads at the sibling of the cursor. -/
theorem at_far {side' : Side} {c' : RBColor} (arranged : Rearranged m₀ tree₀ m root
      (plug rest (sided side c tree f (sided side' c' near x far)))) :
    m x.id = cell side' x (rootId near) (rootId far) f.id c' := by
  have stored := arranged.toStored
  rw [plug_far] at stored
  exact stored.here

end Rearranged

/-- Both links of the sentinel are null. -/
def SentinelLinks (m : NodeMap) : Prop := (m 0).left = 0 ∧ (m 0).right = 0

theorem NodeMap.setColor_self (m : NodeMap) (id : Nat) : m.setColor id (m id).color = m := by
  simp [NodeMap.setColor, NodeMap.modify, MtNode.setColor]

theorem NodeMap.setColor_setColor (m : NodeMap) (id : Nat) (color color' : RBColor) :
    (m.setColor id color).setColor id color' = m.setColor id color' := by
  simp [NodeMap.setColor, NodeMap.modify, MtNode.setColor]

/-- The second test asks for a black or childless slot. -/
theorem secondTest_cell (side : Side) (slot : Slot) (near far parent : Nat) (color : RBColor) :
    (((cell side slot near far parent color).left = 0 ∨ color = black) ∧
        ((cell side slot near far parent color).right = 0 ∨ color = black)) ↔
      color = black ∨ near = 0 ∧ far = 0 := by
  cases side <;> simp only [cell] <;> tauto

theorem rootId_eq_zero {parent : Nat} (layout : Layout m parent tree) :
    rootId tree = 0 ↔ tree = .nil := by
  cases tree with
  | nil => simp
  | node c l s r => simp [layout.1.ne']

theorem SentinelLinks.setColor {color : RBColor} (links : SentinelLinks m) :
    SentinelLinks (m.setColor 0 color) := by
  simpa [SentinelLinks, NodeMap.setColor, MtNode.setColor] using links

/-- Writing its own colour to the sentinel changes nothing. -/
theorem Rearranged.setColor_self {whole : RBNode Slot}
    (arranged : Rearranged m₀ tree₀ m root whole) :
    Rearranged (m₀.setColor 0 (m₀ 0).color) tree₀ m root whole := by
  rwa [NodeMap.setColor_self]

/-- Without a sibling, the second test passes on the sentinel. -/
theorem recolorSibling_nil
    (arranged : Rearranged m₀ tree₀ m root (plug rest (sided side c tree f .nil)))
    (links : SentinelLinks m) :
    recolorSibling side m root f.id = .more (m.setColor 0 red) root f.id (parentId rest) := by
  have atParent := arranged.here
  have elsewhere : (m.setColor 0 red) f.id = m f.id :=
    NodeMap.modify_of_ne _ _ arranged.positive.ne'
  simp [recolorSibling, atParent, links.1, links.2, elsewhere]

/-- A black or childless sibling turns red and the repair moves up. -/
theorem recolorSibling_more {side' : Side} (arranged : Rearranged m₀ tree₀ m root
      (plug rest (sided side c tree f (sided side' c' near x far))))
    (passes : c' = black ∨ near = .nil ∧ far = .nil) :
    ∃ m', recolorSibling side m root f.id = .more m' root f.id (parentId rest) ∧
      Rearranged m₀ tree₀ m' root
        (plug rest (sided side c tree f (sided side' red near x far))) := by
  have atParent := arranged.here
  have atSibling := arranged.at_far
  have recolored := arranged.setColor_far red
  have atParent' := recolored.here
  have test : c' = black ∨ rootId near = 0 ∧ rootId far = 0 := by
    rcases passes with isBlack | ⟨rfl, rfl⟩
    · exact .inl isBlack
    · exact .inr ⟨rfl, rfl⟩
  refine ⟨_, ?_, recolored⟩
  rw [recolorSibling, atParent, cell_child_other, rootId_sided, atSibling, cell_color]
  simp only [secondTest_cell, test, if_true, atParent', cell_parent]

namespace Rearranged

/-- Rotating the far child of the cursor the other way lifts its near child. -/
theorem rotate_far_other {side' : Side} {c' c'' : RBColor} {a b e : RBNode Slot} {v w : Slot}
    (arranged : Rearranged m₀ tree₀ m root
      (plug rest (sided side c near f (sided side' c' (sided side' c'' e w b) v a)))) :
    Rearranged m₀ tree₀ (mmtreeRotate side'.other m root v.id).1
      (mmtreeRotate side'.other m root v.id).2
      (plug rest (sided side c near f (sided side' c'' e w (sided side' c' b v a)))) := by
  rw [plug_far] at arranged ⊢
  exact arranged.rotate_other

/-- Colouring the near child of the far child of the cursor. -/
theorem setColor_far_near {side' side'' : Side} {c' c'' : RBColor} {a b e : RBNode Slot}
    {v w : Slot} (color : RBColor) (arranged : Rearranged m₀ tree₀ m root
      (plug rest (sided side c near f (sided side' c' (sided side'' c'' a w b) v e)))) :
    Rearranged m₀ tree₀ (m.setColor w.id color) root
      (plug rest (sided side c near f (sided side' c' (sided side'' color a w b) v e))) := by
  rw [plug_far] at arranged ⊢
  exact arranged.setColor_near color

/-- Colouring the far child of the far child of the cursor. -/
theorem setColor_far_far {side' side'' : Side} {c' c'' : RBColor} {a b e : RBNode Slot}
    {v w : Slot} (color : RBColor) (arranged : Rearranged m₀ tree₀ m root
      (plug rest (sided side c near f (sided side' c' e v (sided side'' c'' a w b))))) :
    Rearranged m₀ tree₀ (m.setColor w.id color) root
      (plug rest (sided side c near f (sided side' c' e v (sided side'' color a w b)))) := by
  rw [plug_far] at arranged ⊢
  exact arranged.setColor_far color

end Rearranged

/-- After the third test, colouring and the last rotation. -/
theorem raise_outer {side' : Side} {c'' : RBColor} {a b : RBNode Slot} {w : Slot}
    (arranged : Rearranged m₀ tree₀ m root
      (plug rest (sided side c tree f (sided side c' inner x (sided side' c'' a w b))))) :
    let uid := (m f.id).child side.other
    let m := (m.setColor uid (m f.id).color).setColor f.id black
    let rid := (m uid).child side.other
    let m := if 0 < rid then m.setColor rid black else m
    Rearranged m₀ tree₀ (mmtreeRotate side m root f.id).1 (mmtreeRotate side m root f.id).2
      (plug rest (sided side c (sided side black tree f inner) x (sided side' black a w b))) := by
  have atParent := arranged.here
  simp only [atParent, cell_color]
  have siblingColored := arranged.setColor_far c
  have parentBlack := siblingColored.setColor black
  have outerPositive : 0 < w.id := by
    have stored := parentBlack.toStored
    rw [plug_far, plug_far] at stored
    exact stored.positive
  simp only [parentBlack.at_far, cell_child_other, rootId_sided, outerPositive]
  exact (parentBlack.setColor_far_far black).rotate

/-- The third test asks for a red outer child. -/
theorem thirdTest_iff (arranged : Rearranged m₀ tree₀ m root
      (plug rest (sided side c tree f (sided side c' inner x outer)))) :
    (rootId outer = 0 ∨ (m (rootId outer)).color = black) ↔ outer.isRed ≠ red := by
  have stored := arranged.toStored
  rw [plug_far, plug_far] at stored
  have below := (layout_plug.mp stored.layout).2
  cases outer with
  | nil => exact iff_of_true (.inl rfl) (by decide)
  | node co l s r =>
    rw [rootId_node, below.2.1, cell_color]
    have positive := below.1
    cases co
    · exact iff_of_false (by simp [positive.ne']) (not_not.mpr rfl)
    · exact iff_of_true (.inr rfl) (by simp [isRed])

/-- A red outer child: the third test fails. -/
theorem liftInnerChild_of_red (arranged : Rearranged m₀ tree₀ m root
      (plug rest (sided side c tree f (sided side c' inner x outer))))
    (outerRed : outer.isRed = red) : liftInnerChild side m root x.id = (m, root) := by
  have test := mt (thirdTest_iff arranged).mp (not_not.mpr outerRed)
  rw [liftInnerChild, arranged.at_far, cell_child_other, cell_child]
  simp only [test, if_false]

/-- A black or missing outer child: the inner child goes up, or, when there is
none, the sentinel turns black. -/
theorem liftInnerChild_of_ne_red (arranged : Rearranged m₀ tree₀ m root
      (plug rest (sided side c tree f (sided side c' inner x outer))))
    (outerBlack : outer.isRed ≠ red) :
    liftInnerChild side m root x.id =
      mmtreeRotate side.other ((m.setColor (rootId inner) black).setColor x.id red) root x.id := by
  have test := (thirdTest_iff arranged).mpr outerBlack
  rw [liftInnerChild, arranged.at_far, cell_child_other, cell_child]
  simp only [test, if_true]

/-- A red sibling with a child: the loop ends with the last rotation. -/
theorem recolorSibling_done (arranged : Rearranged m₀ tree₀ m root
      (plug rest (sided side c tree f (sided side red inner x outer))))
    (fails : ¬(inner = .nil ∧ outer = .nil)) :
    ∃ m' root' color, recolorSibling side m root f.id = .done m' root' ∧
      Rearranged (m₀.setColor 0 color) tree₀ m' root'
        (plug rest (raiseRedSibling side c tree f inner x outer)) := by
  have atParent := arranged.here
  have atSibling := arranged.at_far
  have test : ¬(red = black ∨ rootId inner = 0 ∧ rootId outer = 0) := by
    have stored := arranged.toStored
    rw [plug_far] at stored
    obtain ⟨_, _, innerLayout, outerLayout⟩ := layout_sided.mp (layout_plug.mp stored.layout).2
    rw [rootId_eq_zero innerLayout, rootId_eq_zero outerLayout]
    simpa using fails
  have unfolded : recolorSibling side m root f.id =
      let lifted := liftInnerChild side m root x.id
      let uid := (lifted.1 f.id).child side.other
      let m := (lifted.1.setColor uid (lifted.1 f.id).color).setColor f.id black
      let rid := (m uid).child side.other
      let m := if 0 < rid then m.setColor rid black else m
      .done (mmtreeRotate side m lifted.2 f.id).1 (mmtreeRotate side m lifted.2 f.id).2 := by
    rw [recolorSibling, atParent, cell_child_other, rootId_sided, atSibling, cell_color,
      if_neg (by rw [secondTest_cell]; exact test)]
  rw [unfolded]
  by_cases outerRed : outer.isRed = red
  · obtain ⟨a, w, b, rfl⟩ := exists_of_isRed outerRed side
    rw [liftInnerChild_of_red arranged outerRed]
    refine ⟨_, _, (m₀ 0).color, rfl, ?_⟩
    rw [raiseRedSibling.eq_def, if_pos outerRed, setBlack_sided]
    exact (raise_outer arranged).setColor_self
  · rw [liftInnerChild_of_ne_red arranged outerRed, raiseRedSibling.eq_def, if_neg outerRed]
    cases inner with
    | nil =>
      obtain ⟨co, l, w, r, rfl⟩ : ∃ co l w r, outer = .node co l w r := by
        cases outer with
        | nil => exact absurd ⟨rfl, rfl⟩ fails
        | node => exact ⟨_, _, _, _, rfl⟩
      obtain rfl : co = black := by cases co <;> first | rfl | exact absurd rfl outerRed
      have colored := (arranged.setColor_zero black).setColor_far red
      have leaf : (((m.setColor 0 black).setColor x.id red) x.id).child side.other.other = 0 := by
        rw [colored.at_far, Side.other_other, cell_child, rootId_nil]
      rw [rootId_nil, mmtreeRotate_of_child_eq_zero leaf]
      have colored' : Rearranged (m₀.setColor 0 black) tree₀
          ((m.setColor 0 black).setColor x.id red) root
          (plug rest (sided side c tree f (sided side red .nil x (sided .left black l w r)))) :=
        colored
      exact ⟨_, _, black, rfl, raise_outer colored'⟩
    | node ci l y r =>
      obtain ⟨al, ar, sameNode⟩ := exists_sided side ci l r y
      rw [rootId_node]
      have lifted := by
        rw [sameNode] at arranged
        exact ((arranged.setColor_far_near black).setColor_far red).rotate_far_other
      refine ⟨_, _, (m₀ 0).color, rfl, ?_⟩
      simp only [sameNode, childOn_sided, childOn_other_sided]
      exact (raise_outer lifted).setColor_self

/-- The first test leaves a black sibling alone. -/
theorem liftRedSibling_of_ne_red (notRed : (m ((m f.id).child side.other)).color ≠ red) :
    liftRedSibling side m root f.id = (m, root) := by
  rw [liftRedSibling, if_neg notRed]

/-- A red sibling goes up and the node above the cursor turns red. -/
theorem liftRedSibling_of_red (arranged : Rearranged m₀ tree₀ m root
      (plug rest (sided side c tree f (sided side red near x far)))) :
    ∃ m' root', liftRedSibling side m root f.id = (m', root') ∧
      Rearranged m₀ tree₀ m' root'
        (plug (⟨side, black, x, far⟩ :: rest) (sided side red tree f near)) := by
  have atParent := arranged.here
  have atSibling := arranged.at_far
  refine ⟨_, _, ?_, ((arranged.setColor_far black).setColor red).rotate⟩
  simp only [liftRedSibling, atParent, cell_child_other, rootId_sided, atSibling, cell_color,
    if_true]

/-- The sentinel lies outside the tree. -/
theorem Rearranged.at_zero {whole : RBNode Slot}
    (arranged : Rearranged m₀ tree₀ m root whole) : m 0 = m₀ 0 :=
  arranged.kept 0 fun member =>
    (arranged.layout.positive (arranged.ids_eq ▸ member)).ne' rfl

/-- An iteration without a sibling: the sentinel is taken for the sibling. -/
theorem removeColorStep_nil
    (arranged : Rearranged m₀ tree₀ m root (plug rest (sided side c tree f .nil)))
    (links : SentinelLinks m₀) :
    ∃ m', removeColorStep side m root f.id = .more m' root f.id (parentId rest) ∧
      Rearranged (m₀.setColor 0 red) tree₀ m' root
        (plug rest (sided side (if (m₀ 0).color = red then red else c) tree f .nil)) := by
  have atParent := arranged.here
  have atZero := arranged.at_zero
  have linksHere : SentinelLinks m := by rw [SentinelLinks, atZero]; exact links
  by_cases sentinelRed : (m₀ 0).color = red
  · have colored := (arranged.setColor_zero black).setColor red
    have leaf : (((m.setColor 0 black).setColor f.id red) f.id).child side.other = 0 := by
      rw [colored.here, cell_child_other, rootId_nil]
    have lifted : liftRedSibling side m root f.id =
        ((m.setColor 0 black).setColor f.id red, root) := by
      rw [liftRedSibling, atParent, cell_child_other, rootId_nil, atZero, if_pos sentinelRed,
        mmtreeRotate_of_child_eq_zero leaf]
    have linksColored : SentinelLinks ((m.setColor 0 black).setColor f.id red) := by
      rw [SentinelLinks, colored.at_zero]
      exact links.setColor
    refine ⟨((m.setColor 0 black).setColor f.id red).setColor 0 red, ?_, ?_⟩
    · rw [removeColorStep, lifted]
      exact recolorSibling_nil colored linksColored
    · simpa [NodeMap.setColor_setColor, sentinelRed] using colored.setColor_zero red
  · have lifted : liftRedSibling side m root f.id = (m, root) := by
      apply liftRedSibling_of_ne_red
      rwa [atParent, cell_child_other, rootId_nil, atZero]
    refine ⟨m.setColor 0 red, ?_, ?_⟩
    · rw [removeColorStep, lifted]
      exact recolorSibling_nil arranged linksHere
    · rw [if_neg sentinelRed]
      exact arranged.setColor_zero red

/-- An iteration with a black sibling. -/
theorem removeColorStep_black {side' : Side} (arranged : Rearranged m₀ tree₀ m root
      (plug rest (sided side c tree f (sided side' black near x far)))) :
    ∃ m', removeColorStep side m root f.id = .more m' root f.id (parentId rest) ∧
      Rearranged m₀ tree₀ m' root
        (plug rest (sided side c tree f (sided side' red near x far))) := by
  have lifted : liftRedSibling side m root f.id = (m, root) := by
    apply liftRedSibling_of_ne_red
    rw [arranged.here, cell_child_other, rootId_sided, arranged.at_far, cell_color]
    decide
  rw [removeColorStep, lifted]
  exact recolorSibling_more arranged (.inl rfl)

end Step

/-! ## The loop -/

/-- The loop does not go on at a red cursor or at the root. -/
theorem cursor_stops (arranged : Rearranged m₀ tree₀ m root (plug frames tree))
    (stops : frames = [] ∨ tree.isRed = red) :
    ¬((rootId tree = 0 ∨ (m (rootId tree)).color = black) ∧ rootId tree ≠ root) := by
  rintro ⟨notRed, notRoot⟩
  rcases stops with rfl | treeRed
  · exact notRoot arranged.rootEq.symm
  · obtain ⟨near, s, far, rfl⟩ := exists_of_isRed treeRed .left
    rw [rootId_sided, arranged.here, cell_color] at notRed
    rcases notRed with zero | isBlack
    · exact arranged.toStored.positive.ne' zero
    · exact absurd isBlack (by decide)

/-- A red cursor, or the root, ends the loop. -/
theorem removeColorLoop_stop (fuel pid : Nat)
    (arranged : Rearranged m₀ tree₀ m root (plug frames tree))
    (stops : frames = [] ∨ tree.isRed = red) :
    removeColorLoop (fuel + 1) m root (rootId tree) pid = some (m, root, rootId tree) := by
  rw [removeColorLoop, if_neg (cursor_stops arranged stops)]

/-- The root of a plugged tree belongs to its frames. -/
theorem rootId_plug_mem (frame : Frame Slot) (rest : List (Frame Slot)) (tree : RBNode Slot) :
    rootId (plug (frame :: rest) tree) ∈ frameIds (frame :: rest) := by
  induction rest generalizing frame tree with
  | nil => simp [frameIds]
  | cons next rest ih =>
    exact List.mem_cons_of_mem _ (List.mem_append_right _ (ih next _))

/-- At any other cursor the loop goes on, on the side of its frame. -/
theorem cursor_reads {frame : Frame Slot}
    (arranged : Rearranged m₀ tree₀ m root (plug (frame :: rest) tree)) (notRed : tree.isRed ≠ red)
    (sideRead : rootId frame.sibling = rootId tree → frame.side = .left) :
    ((rootId tree = 0 ∨ (m (rootId tree)).color = black) ∧ rootId tree ≠ root) ∧
      (if (m frame.item.id).left = rootId tree then Side.left else .right) = frame.side := by
  have blackOrNull : rootId tree = 0 ∨ (m (rootId tree)).color = black := by
    cases tree with
    | nil => exact .inl rfl
    | node c l s r =>
      cases c
      · exact absurd rfl notRed
      · right
        rw [rootId_node, arranged.toStored.here_node, cell_color]
  have notRoot : rootId tree ≠ root := by
    intro same
    have inFrames : rootId tree ∈ frameIds (frame :: rest) := by
      rw [same, arranged.rootEq]
      exact rootId_plug_mem frame rest tree
    have positive := (layout_plug.mp arranged.layout).1.positive inFrames
    exact (List.nodup_append.mp arranged.distinct_cursor).2.2 _
      (rootId_mem_ids positive.ne') _ inFrames rfl
  refine ⟨⟨blackOrNull, notRoot⟩, ?_⟩
  rw [arranged.toStored.parent_here frame rest]
  by_cases bothNull : rootId frame.sibling = rootId tree
  · simp [sideRead bothNull, cell]
  · rw [if_congr eq_comm rfl rfl]
    exact side_of_cell bothNull

/-- Any other cursor goes through an iteration. -/
theorem removeColorLoop_more {fuel : Nat} {frame : Frame Slot}
    (arranged : Rearranged m₀ tree₀ m root (plug (frame :: rest) tree)) (notRed : tree.isRed ≠ red)
    (sideRead : rootId frame.sibling = rootId tree → frame.side = .left) :
    removeColorLoop (fuel + 1) m root (rootId tree) frame.item.id =
      match removeColorStep frame.side m root frame.item.id with
      | .more m root id pid => removeColorLoop fuel m root id pid
      | .done m root => some (m, root, root) := by
  obtain ⟨goesOn, sideEq⟩ := cursor_reads arranged notRed sideRead
  have unfolded : removeColorLoop (fuel + 1) m root (rootId tree) frame.item.id =
      if (rootId tree = 0 ∨ (m (rootId tree)).color = black) ∧ rootId tree ≠ root then
        match removeColorStep
          (if (m frame.item.id).left = rootId tree then Side.left else .right)
          m root frame.item.id with
        | .more m root id pid => removeColorLoop fuel m root id pid
        | .done m root => some (m, root, root)
      else some (m, root, rootId tree) := rfl
  rw [unfolded, if_pos goesOn, sideEq]

/-- Without cursor and sibling, the side of a frame makes no difference, and the
code takes it for the left one. -/
theorem exists_frame_read {frame : Frame Slot} (sentinel : RBColor)
    (arranged : Rearranged m₀ tree₀ m root (plug (frame :: rest) tree)) :
    ∃ read : Frame Slot, read.fill tree = frame.fill tree ∧ read.item = frame.item ∧
      fixRemove sentinel (read :: rest) tree = fixRemove sentinel (frame :: rest) tree ∧
      (rootId read.sibling = rootId tree → read.side = .left) ∧
      (read = frame ∨ read.sibling = .nil ∧ frame.sibling = .nil) := by
  by_cases same : rootId frame.sibling = rootId tree
  · have treeNil : tree = .nil := by
      by_contra nonempty
      have layout := (layout_plug.mp arranged.layout).2
      have positive := Nat.pos_of_ne_zero (mt (rootId_eq_zero layout).mp nonempty)
      exact arranged.toStored.sibling_ne frame rest positive same
    subst treeNil
    have siblingNil : frame.sibling = .nil :=
      (rootId_eq_zero (layout_plug.mp arranged.layout).1.2.2.1).mp same
    obtain ⟨side, c, f, sibling⟩ := frame
    subst siblingNil
    refine ⟨⟨.left, c, f, .nil⟩, ?_, rfl, ?_, fun _ => rfl, .inr ⟨rfl, rfl⟩⟩
    · cases side <;> rfl
    · cases side <;> simp [fixRemove, sided, isRed]
  · exact ⟨frame, rfl, rfl, rfl, fun clash => absurd clash same, .inl rfl⟩

/-- The loop with a red sibling next to the cursor: the sibling goes up, and then
the loop ends after one more recolouring or with the last rotation. -/
theorem removeColorStep_red {near far : RBNode Slot} {side : Side} {c : RBColor} {f x : Slot}
    (arranged : Rearranged m₀ tree₀ m root
      (plug rest (sided side c tree f (sided side red near x far)))) (links : SentinelLinks m₀) :
    (∃ m' root' color sibling',
      removeColorStep side m root f.id = .more m' root' f.id x.id ∧
      Rearranged (m₀.setColor 0 color) tree₀ m' root'
        (plug (⟨side, black, x, far⟩ :: rest) (sided side red tree f sibling')) ∧
      fixBelowRed side (⟨side, black, x, far⟩ :: rest) tree f near =
        plug (⟨side, black, x, far⟩ :: rest) (sided side black tree f sibling')) ∨
    ∃ m' root' color tree',
      removeColorStep side m root f.id = .done m' root' ∧
      Rearranged (m₀.setColor 0 color) tree₀ m' root' tree' ∧
      fixBelowRed side (⟨side, black, x, far⟩ :: rest) tree f near = tree'.setBlack := by
  obtain ⟨m₁, root₁, lifted, arranged₁⟩ := liftRedSibling_of_red arranged
  have stepEq : removeColorStep side m root f.id = recolorSibling side m₁ root₁ f.id := by
    rw [removeColorStep, lifted]
  rw [stepEq]
  cases near with
  | nil =>
    have links₁ : SentinelLinks m₁ := by rw [SentinelLinks, arranged₁.at_zero]; exact links
    exact .inl ⟨_, _, red, .nil, recolorSibling_nil arranged₁ links₁,
      arranged₁.setColor_zero red, rfl⟩
  | node c' l y r =>
    by_cases passes : c' = black ∨ l = .nil ∧ r = .nil
    · have leftRead : Rearranged m₀ tree₀ m₁ root₁ (plug (⟨side, black, x, far⟩ :: rest)
          (sided side red tree f (sided .left c' l y r))) := arranged₁
      obtain ⟨m', recolored, arranged'⟩ := recolorSibling_more leftRead passes
      refine .inl ⟨m', root₁, _, .node red l y r, recolored, arranged'.setColor_self, ?_⟩
      rcases passes with rfl | ⟨rfl, rfl⟩
      · rfl
      · cases c' <;> rfl
    · obtain ⟨notBlack, fails⟩ := not_or.mp passes
      obtain rfl : c' = red := by cases c' <;> first | rfl | exact absurd rfl notBlack
      obtain ⟨inner, outer, sameNode⟩ := exists_sided side red l r y
      have notBoth : ¬(inner = .nil ∧ outer = .nil) := by
        rintro ⟨rfl, rfl⟩
        cases side <;> cases sameNode <;> exact fails ⟨rfl, rfl⟩
      rw [sameNode] at arranged₁
      obtain ⟨m', root', color, finished, arranged'⟩ := recolorSibling_done arranged₁ notBoth
      refine .inr ⟨m', root', color, _, finished, arranged', ?_⟩
      have unfolded : fixBelowRed side (⟨side, black, x, far⟩ :: rest) tree f (.node red l y r) =
          (plug (⟨side, black, x, far⟩ :: rest) (raiseRedSibling side red tree f
            (childOn side (.node red l y r)) y
            (childOn side.other (.node red l y r)))).setBlack := by
        cases l <;> cases r <;> first | rfl | exact absurd ⟨rfl, rfl⟩ fails
      rw [unfolded, sameNode, childOn_sided, childOn_other_sided]

/-- The loop computes `fixRemove`, up to the last colouring of its cursor. The
induction is on the frames: every iteration but the last drops one. -/
theorem removeColorLoop_spec {fuel : Nat} (arranged : Rearranged m₀ tree₀ m root (plug frames tree))
    (links : SentinelLinks m₀) (enough : frames.length < fuel) :
    ∃ m' root' color frames' tree',
      removeColorLoop fuel m root (rootId tree) (parentId frames) =
        some (m', root', rootId tree') ∧
      Rearranged (m₀.setColor 0 color) tree₀ m' root' (plug frames' tree') ∧
      fixRemove (m₀ 0).color frames tree = plug frames' tree'.setBlack := by
  obtain ⟨fuel, rfl⟩ : ∃ n, fuel = n + 1 := ⟨fuel - 1, by omega⟩
  induction frames generalizing m₀ m root fuel tree with
  | nil =>
    exact ⟨m, root, _, [], tree, removeColorLoop_stop fuel _ arranged (.inl rfl),
      arranged.setColor_self, rfl⟩
  | cons frame rest ih =>
    by_cases treeRed : tree.isRed = red
    · refine ⟨m, root, _, frame :: rest, tree, removeColorLoop_stop fuel _ arranged (.inr treeRed),
        arranged.setColor_self, ?_⟩
      rw [fixRemove, if_pos treeRed]
    · obtain ⟨read, sameFill, sameItem, sameFix, sideRead, -⟩ :=
        exists_frame_read (m₀ 0).color arranged
      rw [plug_cons, ← sameFill, ← plug_cons] at arranged
      rw [parentId_cons, ← sameItem, ← sameFix, removeColorLoop_more arranged treeRed sideRead,
        fixRemove, if_neg treeRed]
      simp only [List.length_cons] at enough
      obtain ⟨fuel, rfl⟩ : ∃ n, fuel = n + 1 := ⟨fuel - 1, by omega⟩
      obtain ⟨side, c, f, sibling⟩ := read
      cases sibling with
      | nil =>
        obtain ⟨m', stepEq, arranged'⟩ := removeColorStep_nil arranged links
        obtain ⟨m'', root'', color, frames', tree', looped, arranged'', fixed⟩ :=
          ih arranged' links.setColor fuel (by omega)
        rw [rootId_sided] at looped
        rw [NodeMap.setColor_setColor] at arranged''
        refine ⟨m'', root'', color, frames', tree', ?_, arranged'', ?_⟩
        · rw [stepEq]; exact looped
        · rw [← fixed]; simp [NodeMap.setColor, MtNode.setColor]
      | node c' l u r =>
        cases c' with
        | black =>
          have leftRead : Rearranged m₀ tree₀ m root (plug rest
              (sided side c tree f (sided .left black l u r))) := arranged
          obtain ⟨m', stepEq, arranged'⟩ := removeColorStep_black leftRead
          obtain ⟨m'', root'', color, frames', tree', looped, arranged'', fixed⟩ :=
            ih arranged' links fuel (by omega)
          rw [rootId_sided] at looped
          refine ⟨m'', root'', color, frames', tree', ?_, arranged'', ?_⟩
          · rw [stepEq]; exact looped
          · rw [← fixed]; rfl
        | red =>
          obtain ⟨near, far, sameNode⟩ := exists_sided side red l r u
          rw [sameNode] at arranged
          simp only [sameNode, childOn_sided, childOn_other_sided]
          rcases removeColorStep_red arranged links with
            ⟨m', root', color, sibling', stepEq, arranged', fixed⟩ |
            ⟨m', root', color, tree', stepEq, arranged', fixed⟩
          · refine ⟨m', root', color, _, _, ?_, arranged', ?_⟩
            · rw [stepEq]
              have stopped := removeColorLoop_stop fuel u.id arranged'
                (.inr (isRed_sided _ _ _ _ _))
              rw [rootId_sided] at stopped ⊢
              exact stopped
            · rw [fixed, setBlack_sided]
          · refine ⟨m', root', color, [], tree', ?_, arranged', fixed⟩
            rw [stepEq]
            simp only [arranged'.rootEq]

/-- `mmt_remove_color` computes `fixRemove`; besides the tree it may only recolour
the sentinel. -/
theorem mmtRemoveColor_spec {fuel : Nat} (arranged : Rearranged m₀ tree₀ m root (plug frames tree))
    (links : SentinelLinks m₀) (enough : frames.length < fuel) :
    ∃ m' root' color,
      mmtRemoveColor fuel m root (rootId tree) (parentId frames) = some (m', root') ∧
      Rearranged (m₀.setColor 0 color) tree₀ m' root'
        (fixRemove (m₀ 0).color frames tree) := by
  obtain ⟨m₁, root₁, color, frames', tree', looped, arranged', fixed⟩ :=
    removeColorLoop_spec arranged links enough
  rw [mmtRemoveColor, looped, fixed]
  cases tree' with
  | nil => exact ⟨m₁, root₁, color, rfl, arranged'⟩
  | node c l s r =>
    have whole : Rearranged (m₀.setColor 0 color) tree₀ m₁ root₁
      (plug frames' (sided .left c l s r)) := arranged'
    exact ⟨m₁.setColor s.id black, root₁, color, by simp [whole.toStored.positive],
      whole.setColor black⟩

end Taomee.Mmtree
