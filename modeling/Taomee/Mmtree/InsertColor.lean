import Taomee.Mmtree.Layout

/-!
# Repair after an insertion

`mmtree_insert_color` on the node array computes `fixInsert` on the tree the
array encodes. Each way through one iteration is a lemma; the loop follows by
taking the frames two at a time.
-/

namespace Taomee.Mmtree

open RBTree RBTree.RBNode RBTree.RBColor RedBlack

variable {frames : List (Frame Slot)} {tree tree₀ : RBNode Slot}

/-- Above a red node there is another frame: the outermost one is black. -/
def OutermostBlack (frames : List (Frame Slot)) : Prop :=
  ∀ frame, frames.getLast? = some frame → frame.color = black

theorem OutermostBlack.tail {frame : Frame Slot} {rest : List (Frame Slot)}
    (outermost : OutermostBlack (frame :: rest)) : OutermostBlack rest := by
  intro last isLast
  cases rest with
  | nil => simp at isLast
  | cons next rest => exact outermost last (by rwa [List.getLast?_cons_cons])

theorem outermostBlack_of_plug (rootBlack : (plug frames tree).isRed = black) :
    OutermostBlack frames := by
  induction frames generalizing tree with
  | nil => simp [OutermostBlack]
  | cons frame rest ih =>
    cases rest with
    | nil =>
      intro last isLast
      obtain rfl : frame = last := by simpa using isLast
      simpa [Frame.fill] using rootBlack
    | cons next rest =>
      intro last isLast
      exact ih rootBlack last isLast

/-- The side of the hole, read off the parent the way the loops test it. -/
theorem side_of_cell {side : Side} {slot : Slot} {hole sibling parent : Nat} {color : RBColor}
    (different : sibling ≠ hole) :
    (if hole = (cell side slot hole sibling parent color).left then Side.left else .right) =
      side := by
  cases side <;> simp [cell, different.symm]

namespace Stored

variable {m : NodeMap} {root : Nat} {tree : RBNode Slot} (frame : Frame Slot)
  (rest : List (Frame Slot))

/-- A sibling's root is not the slot of the hole. -/
theorem sibling_ne (stored : Stored m root (plug (frame :: rest) tree))
    (nonempty : 0 < rootId tree) : rootId frame.sibling ≠ rootId tree := by
  intro same
  have distinct := stored.distinct_cursor
  have inTree := rootId_mem_ids nonempty.ne'
  have inFrames : rootId tree ∈ frameIds (frame :: rest) := by
    rw [← same, frameIds]
    simp [rootId_mem_ids (same ▸ nonempty.ne')]
  exact (List.nodup_append.mp distinct).2.2 _ inTree _ inFrames rfl

/-- What the code reads at the parent of the cursor. -/
theorem parent_here (stored : Stored m root (plug (frame :: rest) tree)) :
    m frame.item.id =
      cell frame.side frame.item (rootId tree) (rootId frame.sibling) (parentId rest)
        frame.color :=
  here stored

theorem parent_positive (stored : Stored m root (plug (frame :: rest) tree)) : 0 < frame.item.id :=
  positive stored

/-- Whether the sibling of the cursor is a red node, as the code tests it. -/
theorem sibling_red (stored : Stored m root (plug (frame :: rest) tree)) :
    (0 < rootId frame.sibling ∧ (m (rootId frame.sibling)).color = red) ↔
      frame.sibling.isRed = red :=
  (layout_plug.mp stored.layout).1.2.2.1.color_root

end Stored

section Step

variable {m₀ m : NodeMap} {tree₀ : RBNode Slot} {root : Nat} {rest : List (Frame Slot)}
  {side frameSide : Side} {grandColor frameColor : RBColor} {f g s u : Slot}
  {tree sibling uncle left right near far : RBNode Slot}

/-- A red uncle: recolour. -/
theorem insertColorStep_recolor (arranged : Rearranged m₀ tree₀ m root (plug rest
      (sided side grandColor (sided frameSide frameColor tree f sibling) g
        (.node red left u right)))) :
    ∃ m', insertColorStep side m root (rootId tree) f.id g.id = (m', root, g.id) ∧
      Rearranged m₀ tree₀ m' root (plug rest
        (sided side red (sided frameSide black tree f sibling) g (.node black left u right))) := by
  have atGrand := arranged.here
  have uncleRed : 0 < u.id ∧ (m u.id).color = red := by
    have stored := arranged.toStored
    rw [plug_far] at stored
    exact ⟨stored.positive_node, by rw [stored.here_node, cell_color]⟩
  have uncleNode : Rearranged m₀ tree₀ m root (plug rest
      (sided side grandColor (sided frameSide frameColor tree f sibling) g
        (sided .left red left u right))) := arranged
  have uncleBlack := uncleNode.setColor_far black
  have parentBlack := uncleBlack.setColor_near black
  refine ⟨_, ?_, parentBlack.setColor red⟩
  simp only [insertColorStep, atGrand, cell_child_other, rootId_node, uncleRed, and_self, if_true]

/-- A black uncle and the new node on the outer side: one rotation. -/
theorem insertColorStep_outer (arranged : Rearranged m₀ tree₀ m root (plug rest
      (sided side grandColor (sided side frameColor tree f sibling) g uncle)))
    (nonempty : 0 < rootId tree) (uncleBlack : uncle.isRed ≠ red) :
    ∃ m' root', insertColorStep side m root (rootId tree) f.id g.id =
        (m', root', rootId tree) ∧
      Rearranged m₀ tree₀ m' root' (plug rest
        (sided side black tree f (sided side red sibling g uncle))) := by
  have atGrand := arranged.here
  have atParent := arranged.toStored.parent_here
    ⟨side, frameColor, f, sibling⟩ (⟨side, grandColor, g, uncle⟩ :: rest)
  have notInner : rootId sibling ≠ rootId tree := arranged.toStored.sibling_ne
    ⟨side, frameColor, f, sibling⟩ (⟨side, grandColor, g, uncle⟩ :: rest)
    nonempty
  have notRed := mt (arranged.toStored.sibling_red ⟨side, grandColor, g, uncle⟩ rest).mp uncleBlack
  have parentBlack := arranged.setColor_near black
  have grandRed := parentBlack.setColor red
  refine ⟨_, _, ?_, grandRed.rotate_other⟩
  simp only [insertColorStep, atGrand, atParent, cell_child_other, if_neg notRed, if_neg notInner]

/-- A black uncle and the new node on the inner side: two rotations. -/
theorem insertColorStep_inner (arranged : Rearranged m₀ tree₀ m root (plug rest
      (sided side grandColor (sided side red sibling f (sided side red near s far)) g uncle)))
    (uncleBlack : uncle.isRed ≠ red) :
    ∃ m' root', insertColorStep side m root s.id f.id g.id = (m', root', f.id) ∧
      Rearranged m₀ tree₀ m' root' (plug rest
        (sided side black (sided side red sibling f near) s (sided side red far g uncle))) := by
  have atGrand := arranged.here
  have below : Stored m root (plug (⟨side, grandColor, g, uncle⟩ :: rest)
      (sided side red sibling f (sided side red near s far))) := arranged.toStored
  have atParent := below.here
  have notRed := mt (arranged.toStored.sibling_red ⟨side, grandColor, g, uncle⟩ rest).mp uncleBlack
  have turned := arranged.rotate_near
  have liftedBlack := turned.setColor_near black
  have grandRed := liftedBlack.setColor red
  refine ⟨_, _, ?_, grandRed.rotate_other⟩
  simp only [insertColorStep, atGrand, atParent, cell_child_other, rootId_sided, if_neg notRed,
    if_true]

end Step

/-- The loop stops below a black frame. -/
theorem insertColorLoop_of_black {m₀ m : NodeMap} {near far : RBNode Slot} {root fuel : Nat}
    (frames : List (Frame Slot)) {side : Side} {c : RBColor} {s : Slot}
    (arranged : Rearranged m₀ tree₀ m root (plug frames (sided side c near s far)))
    (parentBlack : ∀ frame, frames.head? = some frame → frame.color = black) :
    insertColorLoop (fuel + 1) m root s.id = some (m, root) := by
  cases frames with
  | nil => simp [insertColorLoop, arranged.here]
  | cons frame rest =>
    have frameBlack := parentBlack frame rfl
    simp [insertColorLoop, arranged.here, arranged.toStored.parent_here frame rest, frameBlack]

theorem exists_of_isRed (treeRed : tree.isRed = red) (side : Side) :
    ∃ near s far, tree = sided side red near s far := by
  cases tree with
  | nil => cases treeRed
  | node c l s r =>
    cases treeRed
    obtain ⟨near, far, same⟩ := exists_sided side red l r s
    exact ⟨near, s, far, same⟩

/-- The loop computes `fixInsert`. The induction follows `fixInsert`, two frames at
a time, so the number of frames is enough fuel. -/
theorem insertColorLoop_spec {m₀ m : NodeMap} {root fuel : Nat}
    (arranged : Rearranged m₀ tree₀ m root (plug frames tree)) (treeRed : tree.isRed = red)
    (outermost : OutermostBlack frames) (enough : frames.length < fuel) :
    ∃ m' root', insertColorLoop fuel m root (rootId tree) = some (m', root') ∧
      Rearranged m₀ tree₀ m' root' (fixInsert frames tree) := by
  obtain ⟨fuel, rfl⟩ : ∃ n, fuel = n + 1 := ⟨fuel - 1, by omega⟩
  induction frames using List.twoStepInduction generalizing m root fuel tree with
  | nil =>
    obtain ⟨near, s, far, rfl⟩ := exists_of_isRed treeRed .left
    exact ⟨m, root, insertColorLoop_of_black [] arranged (by simp), arranged⟩
  | singleton frame =>
    obtain ⟨near, s, far, rfl⟩ := exists_of_isRed treeRed .left
    refine ⟨m, root, insertColorLoop_of_black [frame] arranged ?_, arranged⟩
    simpa using outermost frame rfl
  | cons_cons frame grand rest ih _ =>
    have parentPositive := arranged.toStored.parent_positive frame (grand :: rest)
    have uncleNe := arranged.toStored.sibling_ne grand rest (by simpa using parentPositive)
    have atGrand := arranged.toStored.parent_here grand rest
    have atParent := arranged.toStored.parent_here frame (grand :: rest)
    obtain ⟨near, s, far, rfl⟩ := exists_of_isRed treeRed grand.side
    have atNode := arranged.here
    have nodePositive := arranged.toStored.positive
    obtain ⟨frameSide, frameColor, f, sibling⟩ := frame
    obtain ⟨side, grandColor, g, uncle⟩ := grand
    simp only [rootId_fill] at uncleNe atGrand
    simp only [List.length_cons] at enough
    rw [rootId_sided]
    cases frameColor with
    | black =>
      refine ⟨m, root, insertColorLoop_of_black _ arranged (by simp), ?_⟩
      simpa [fixInsert] using arranged
    | red =>
      have unfolded : insertColorLoop (fuel + 1) m root s.id =
          insertColorLoop fuel (insertColorStep side m root s.id f.id g.id).1
            (insertColorStep side m root s.id f.id g.id).2.1
            (insertColorStep side m root s.id f.id g.id).2.2 := by
        rw [insertColorLoop, atNode]
        simp only [cell_parent, parentId_cons, atParent, cell_color, parentPositive, and_self,
          if_true]
        rw [atGrand, side_of_cell uncleNe]
      rw [unfolded]
      obtain ⟨fuel, rfl⟩ : ∃ n, fuel = n + 1 := ⟨fuel - 1, by omega⟩
      rw [fixInsert, if_neg (by simp)]
      by_cases uncleRed : uncle.isRed = red
      · obtain ⟨left, u, right, rfl⟩ := exists_of_isRed uncleRed .left
        have recolorable : Rearranged m₀ tree₀ m root (plug rest
            (sided side grandColor (sided frameSide red (sided side red near s far) f sibling)
              g (.node red left u right))) := arranged
        obtain ⟨m', stepEq, arranged'⟩ := insertColorStep_recolor recolorable
        rw [rootId_sided] at stepEq
        rw [stepEq, if_pos uncleRed]
        have continued := ih arranged' (by simp) outermost.tail.tail fuel (by omega)
        rwa [rootId_sided] at continued
      · rw [if_neg uncleRed]
        by_cases outer : frameSide = side
        · subst outer
          have outerArranged : Rearranged m₀ tree₀ m root (plug rest
              (sided frameSide grandColor (sided frameSide red
                (sided frameSide red near s far) f sibling) g uncle)) := arranged
          obtain ⟨m', root', stepEq, arranged'⟩ :=
            insertColorStep_outer outerArranged (by simpa using nodePositive) uncleRed
          rw [rootId_sided] at stepEq
          rw [stepEq, if_pos rfl]
          exact ⟨m', root', insertColorLoop_of_black
            (⟨frameSide, black, f, _⟩ :: rest) arranged' (by simp), arranged'⟩
        · obtain rfl := Side.eq_other_of_ne outer
          rw [if_neg outer]
          have lifted : liftInner ⟨side.other, red, f, sibling⟩ ⟨side, grandColor, g, uncle⟩
              (sided side red near s far) =
              sided side black (sided side red sibling f near) s
                (sided side red far g uncle) := by
            cases side <;> rfl
          have inner : Rearranged m₀ tree₀ m root (plug rest
              (sided side grandColor
                (sided side red sibling f (sided side red near s far)) g uncle)) := by
            simpa only [plug_cons, Frame.fill, sided_other] using arranged
          obtain ⟨m', root', stepEq, arranged'⟩ := insertColorStep_inner inner uncleRed
          rw [stepEq, lifted]
          exact ⟨m', root', insertColorLoop_of_black
            (⟨side, black, s, _⟩ :: rest) arranged' (by simp), arranged'⟩

/-- `mmtree_insert_color` computes `fixInsert` and blackens the root. -/
theorem mmtreeInsertColor_spec {m₀ m : NodeMap} {root fuel : Nat}
    (arranged : Rearranged m₀ tree₀ m root (plug frames tree)) (treeRed : tree.isRed = red)
    (outermost : OutermostBlack frames) (enough : frames.length < fuel) :
    ∃ m' root', mmtreeInsertColor fuel m root (rootId tree) = some (m', root') ∧
      Rearranged m₀ tree₀ m' root' (fixInsert frames tree).setBlack := by
  obtain ⟨m₁, root₁, looped, repaired⟩ := insertColorLoop_spec arranged treeRed outermost enough
  rw [mmtreeInsertColor, looped]
  cases result : fixInsert frames tree with
  | nil =>
    rw [result] at repaired
    have empty : root₁ = 0 := repaired.rootEq
    exact ⟨m₁, root₁, by simp [empty], repaired⟩
  | node c l s r =>
    rw [result] at repaired
    have whole : Rearranged m₀ tree₀ m₁ root₁ (plug [] (sided .left c l s r)) := repaired
    have rootEq : root₁ = s.id := repaired.rootEq
    subst rootEq
    exact ⟨m₁.setColor s.id black, s.id, by simp [whole.positive], whole.setColor black⟩

end Taomee.Mmtree
