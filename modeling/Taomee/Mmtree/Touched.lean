import Taomee.Mmtree.Traversal

/-!
# The slots a repair touches

The repair of `mmt_remove_color` ends in every search tree, whatever its colours. It takes a
missing sibling, or a missing child of one, for a node: then it recolours slot 0. The functions here
follow the loop and list the slots it recolours or rotates around.
-/

namespace Taomee.Mmtree

open RBTree RBTree.RBNode RBTree.RBColor RedBlack

variable {m₀ : NodeMap} {tree₀ tree : RBNode Slot} {frames : List (Frame Slot)}

/-- What the third test of an iteration touches. -/
def innerTouched (side : Side) (m : NodeMap) (uid : Nat) : List Nat :=
  let rid := (m uid).child side.other
  let lid := (m uid).child side
  if rid = 0 ∨ (m rid).color = black then [lid, uid] else []

/-- What an iteration touches from its second test on. -/
def siblingTouched (side : Side) (m : NodeMap) (root pid : Nat) : List Nat :=
  let uid := (m pid).child side.other
  if ((m uid).left = 0 ∨ (m uid).color = black) ∧
      ((m uid).right = 0 ∨ (m uid).color = black) then [uid]
  else
    let inner := innerTouched side m uid
    let (m, _) := liftInnerChild side m root uid
    let uid := (m pid).child side.other
    let rid := (m uid).child side.other
    inner ++ ([uid, pid] ++ if 0 < rid then [rid] else [])

/-- What an iteration touches. -/
def stepTouched (side : Side) (m : NodeMap) (root pid : Nat) : List Nat :=
  let uid := (m pid).child side.other
  let (lifted, root') := liftRedSibling side m root pid
  (if (m uid).color = red then [uid, pid] else []) ++ siblingTouched side lifted root' pid

/-- What `mmt_remove_color` touches, its last colouring included. -/
def removeColorTouched : Nat → NodeMap → Nat → Nat → Nat → List Nat
  | 0, _, _, _, _ => []
  | fuel + 1, m, root, id, pid =>
    if (id = 0 ∨ (m id).color = black) ∧ id ≠ root then
      let side := if (m pid).left = id then Side.left else Side.right
      stepTouched side m root pid ++
        match removeColorStep side m root pid with
        | .more m root id pid => removeColorTouched fuel m root id pid
        | .done _ root => if 0 < root then [root] else []
    else if 0 < id then [id] else []

/-- What the repair of `remove_node` touches. -/
def CMmtree.removeNodeTouched (t : CMmtree) (root nodeId : Nat) : List Nat :=
  if nodeId < t.state.total then
    match detachNode t.map t.state.total root nodeId with
    | none => []
    | some (m, root, child, parent, color) =>
      if color = black then removeColorTouched t.state.total m root child parent else []
  else []

/-- What the repair of `remove` touches. -/
def CMmtree.removeTouched (t : CMmtree) (key : Int) : List Nat :=
  match t.findNode key with
  | none => []
  | some (t, ret, nodeId) =>
    if ret = 0 ∧ 0 < t.state.rootId then t.removeNodeTouched t.state.rootId nodeId else []

/-! ## Where the repair finds its siblings -/

/-- The sibling that came down from a red one is there and, when it has children, has an inner
child or a red outer one. -/
def InnerPresent (side : Side) : RBNode Slot → Prop
  | .nil => False
  | .node black _ _ _ => True
  | .node red l x r =>
    childOn side (.node red l x r) = .nil →
      childOn side.other (.node red l x r) = .nil ∨
        (childOn side.other (.node red l x r)).isRed = red

instance (side : Side) : DecidablePred (InnerPresent side)
  | .nil => .isFalse id
  | .node black _ _ _ => .isTrue trivial
  | .node red _ _ _ => inferInstanceAs (Decidable (_ → _))

/-- On its way up the repair finds a sibling each time, and below a red one it finds what it
needs. -/
def SiblingsPresent : List (Frame Slot) → Prop
  | [] => True
  | frame :: rest =>
    match frame.sibling with
    | .nil => False
    | .node black _ _ _ => frame.color = black → SiblingsPresent rest
    | .node red l x r => InnerPresent frame.side (childOn frame.side (.node red l x r))

instance decidableSiblingsPresent : DecidablePred SiblingsPresent
  | [] => .isTrue trivial
  | ⟨_, _, _, .nil⟩ :: _ => .isFalse id
  | ⟨_, _, _, .node black _ _ _⟩ :: rest =>
    haveI := decidableSiblingsPresent rest
    inferInstanceAs (Decidable (_ → _))
  | ⟨side, _, _, .node red l x r⟩ :: _ =>
    inferInstanceAs (Decidable (InnerPresent side (childOn side (.node red l x r))))

/-- Removing the node at a cursor meets siblings only. -/
def StaysInTree (frames : List (Frame Slot)) (tree : RBNode Slot) : Prop :=
  (vacate frames tree).2.2 = black → (vacate frames tree).2.1.isRed = black →
    SiblingsPresent (vacate frames tree).1

instance (frames : List (Frame Slot)) (tree : RBNode Slot) : Decidable (StaysInTree frames tree) :=
  inferInstanceAs (Decidable (_ → _))

/-! ## One iteration -/

section Step

variable {m₀ m : NodeMap} {tree₀ whole : RBNode Slot} {root : Nat} {frames rest : List (Frame Slot)}
  {side side' : Side} {c c' : RBColor} {f x : Slot} {tree inner outer near far : RBNode Slot}

theorem innerPresent_sided_red :
    InnerPresent side (sided side red inner x outer) ↔
      (inner = .nil → outer = .nil ∨ outer.isRed = red) := by
  cases side <;> exact Iff.rfl

/-- A child of a node is null or a node. -/
theorem layout_child {parent id : Nat} (layout : Layout m parent whole) (member : id ∈ ids whole)
    (side : Side) : (m id).child side = 0 ∨ (m id).child side ∈ ids whole := by
  induction whole generalizing parent with
  | nil => cases member
  | node c l s r leftHyp rightHyp =>
    obtain ⟨-, here, left, right⟩ := layout
    simp only [ids_node, List.mem_append, List.mem_cons] at member ⊢
    rcases member with inLeft | rfl | inRight
    · exact (leftHyp left inLeft).imp_right .inl
    · rw [here]
      cases side with
      | left =>
        rcases eq_or_ne (rootId l) 0 with none | some
        · exact .inl none
        · exact .inr (.inl (rootId_mem_ids some))
      | right =>
        rcases eq_or_ne (rootId r) 0 with none | some
        · exact .inl none
        · exact .inr (.inr (.inr (rootId_mem_ids some)))
    · exact (rightHyp right inRight).imp_right fun inside => .inr (.inr inside)

namespace Rearranged

theorem zero_not_mem (arranged : Rearranged m₀ tree₀ m root whole) : 0 ∉ ids tree₀ := by
  intro member
  rw [← arranged.ids_eq] at member
  exact (arranged.layout.positive member).ne' rfl

/-- The cursor, its parent and its sibling are nodes. -/
theorem cursor_mem (arranged : Rearranged m₀ tree₀ m root (plug rest (sided side c tree f far))) :
    f.id ∈ ids tree₀ ∧ (rootId far ≠ 0 → rootId far ∈ ids tree₀) := by
  rw [← arranged.ids_eq]
  constructor
  · rw [mem_ids_plug]
    simp [(ids_sided_perm _ _ _ _ _).mem_iff]
  · intro some
    rw [mem_ids_plug]
    simp [(ids_sided_perm _ _ _ _ _).mem_iff, rootId_mem_ids some]

end Rearranged

/-- Without a sibling slot 0 turns red. -/
theorem siblingTouched_nil
    (arranged : Rearranged m₀ tree₀ m root (plug rest (sided side c tree f .nil)))
    (links : SentinelLinks m) : siblingTouched side m root f.id = [0] := by
  have atParent := arranged.here
  simp [siblingTouched, atParent, links.1, links.2]

/-- A black or childless sibling turns red. -/
theorem siblingTouched_more (arranged : Rearranged m₀ tree₀ m root
      (plug rest (sided side c tree f (sided side' c' near x far))))
    (passes : c' = black ∨ near = .nil ∧ far = .nil) :
    siblingTouched side m root f.id = [x.id] := by
  have atParent := arranged.here
  have atSibling := arranged.at_far
  have test : c' = black ∨ rootId near = 0 ∧ rootId far = 0 := by
    rcases passes with isBlack | ⟨rfl, rfl⟩
    · exact .inl isBlack
    · exact .inr ⟨rfl, rfl⟩
  rw [siblingTouched, atParent, cell_child_other, rootId_sided, atSibling, cell_color]
  simp only [secondTest_cell, test, if_true]

/-- The last colourings and the last rotation stay in the tree when there is a sibling. -/
theorem lastTouched_mem
    (arranged : Rearranged m₀ tree₀ m root (plug rest (sided side c tree f far)))
    (some : rootId far ≠ 0) {id : Nat} :
    let uid := (m f.id).child side.other
    let rid := (m uid).child side.other
    id ∈ [uid, f.id] ++ (if 0 < rid then [rid] else []) → id ∈ ids tree₀ := by
  have atParent := arranged.here
  obtain ⟨parentMem, siblingMem⟩ := arranged.cursor_mem
  have siblingMem := siblingMem some
  have children := layout_child arranged.layout (arranged.ids_eq.symm ▸ siblingMem) side.other
  rw [arranged.ids_eq] at children
  simp only [atParent, cell_child_other]
  intro member
  rcases List.mem_append.mp member with here | below
  · rcases List.mem_cons.mp here with rfl | here
    · exact siblingMem
    · obtain rfl := List.mem_singleton.mp here
      exact parentMem
  · split at below
    · obtain rfl := List.mem_singleton.mp below
      exact children.resolve_left (by omega)
    · cases below

/-- A red sibling with a child: the rest stays in the tree when there is an inner child or a red
outer one. -/
theorem siblingTouched_done (arranged : Rearranged m₀ tree₀ m root
      (plug rest (sided side c tree f (sided side red inner x outer))))
    (fails : ¬(inner = .nil ∧ outer = .nil)) :
    (∀ id ∈ siblingTouched side m root f.id, id ∈ ids tree₀) ↔
      (inner = .nil → outer.isRed = red) := by
  have atParent := arranged.here
  have atSibling := arranged.at_far
  have xPositive : 0 < x.id := by
    have stored := arranged.toStored
    rw [plug_far] at stored
    exact stored.positive
  have test : ¬(red = black ∨ rootId inner = 0 ∧ rootId outer = 0) := by
    have stored := arranged.toStored
    rw [plug_far] at stored
    obtain ⟨_, _, innerLayout, outerLayout⟩ := layout_sided.mp (layout_plug.mp stored.layout).2
    rw [rootId_eq_zero innerLayout, rootId_eq_zero outerLayout]
    simpa using fails
  have unfolded : siblingTouched side m root f.id =
      innerTouched side m x.id ++
        let lifted := liftInnerChild side m root x.id
        let uid := (lifted.1 f.id).child side.other
        let rid := (lifted.1 uid).child side.other
        [uid, f.id] ++ if 0 < rid then [rid] else [] := by
    rw [siblingTouched, atParent, cell_child_other, rootId_sided, atSibling, cell_color,
      if_neg (by rw [secondTest_cell]; exact test)]
  rw [unfolded]
  have inner_eq : innerTouched side m x.id =
      if outer.isRed ≠ red then [rootId inner, x.id] else [] := by
    rw [innerTouched, atSibling, cell_child_other, cell_child]
    simp only [thirdTest_iff arranged]
  by_cases outerRed : outer.isRed = red
  · rw [inner_eq, if_neg (not_not.mpr outerRed), liftInnerChild_of_red arranged outerRed]
    refine iff_of_true (fun id member => ?_) fun _ => outerRed
    exact lastTouched_mem arranged (by simpa using xPositive.ne') member
  rw [inner_eq, if_pos outerRed]
  cases inner with
  | nil =>
    refine iff_of_false (fun inTree => ?_) fun redOuter => outerRed (redOuter rfl)
    exact arranged.zero_not_mem (inTree 0 (by simp))
  | node ci l y r =>
    refine iff_of_true (fun id member => ?_) fun empty => absurd empty (by simp)
    have innerMem : y.id ∈ ids tree₀ ∧ x.id ∈ ids tree₀ := by
      rw [← arranged.ids_eq]
      constructor <;> rw [mem_ids_plug] <;> left <;>
        simp [(ids_sided_perm _ _ _ _ _).mem_iff]
    rw [liftInnerChild_of_ne_red arranged outerRed] at member
    rcases List.mem_append.mp member with here | later
    · simp only [List.mem_cons, List.not_mem_nil, or_false] at here
      rcases here with rfl | rfl
      · exact innerMem.1
      · exact innerMem.2
    · obtain ⟨al, ar, sameNode⟩ := exists_sided side ci l r y
      rw [sameNode] at arranged
      have lifted := ((arranged.setColor_far_near black).setColor_far red).rotate_far_other
      refine lastTouched_mem lifted ?_ later
      rw [rootId_sided]
      have stored := lifted.toStored
      rw [plug_far] at stored
      exact stored.positive.ne'

/-- Without a sibling an iteration touches slot 0. -/
theorem stepTouched_nil
    (arranged : Rearranged m₀ tree₀ m root (plug rest (sided side c tree f .nil)))
    (links : SentinelLinks m₀) : 0 ∈ stepTouched side m root f.id := by
  have atParent := arranged.here
  have atZero := arranged.at_zero
  rw [stepTouched, atParent, cell_child_other, rootId_nil]
  by_cases sentinelRed : (m 0).color = red
  · simp [sentinelRed]
  · have lifted : liftRedSibling side m root f.id = (m, root) := by
      apply liftRedSibling_of_ne_red
      rwa [atParent, cell_child_other, rootId_nil]
    have linksHere : SentinelLinks m := by
      rw [SentinelLinks, atZero]
      exact links
    simp [lifted, siblingTouched_nil arranged linksHere]

/-- An iteration with a black sibling touches only that. -/
theorem stepTouched_black (arranged : Rearranged m₀ tree₀ m root
      (plug rest (sided side c tree f (sided side' black near x far)))) :
    stepTouched side m root f.id = [x.id] := by
  have notRed : (m ((m f.id).child side.other)).color ≠ red := by
    rw [arranged.here, cell_child_other, rootId_sided, arranged.at_far, cell_color]
    decide
  rw [stepTouched, liftRedSibling_of_ne_red notRed, if_neg notRed]
  exact siblingTouched_more arranged (.inl rfl)

/-- An iteration with a red sibling. -/
theorem stepTouched_red (arranged : Rearranged m₀ tree₀ m root
      (plug rest (sided side c tree f (sided side red near x far))))
    (links : SentinelLinks m₀) :
    (∀ id ∈ stepTouched side m root f.id, id ∈ ids tree₀) ↔ InnerPresent side near := by
  have isRed : (m ((m f.id).child side.other)).color = red := by
    rw [arranged.here, cell_child_other, rootId_sided, arranged.at_far, cell_color]
  obtain ⟨m₁, root₁, lifted, arranged₁⟩ := liftRedSibling_of_red arranged
  have siblingRead : (m f.id).child side.other = x.id := by
    rw [arranged.here, cell_child_other, rootId_sided]
  have around : x.id ∈ ids tree₀ ∧ f.id ∈ ids tree₀ := by
    rw [← arranged.ids_eq]
    constructor <;> rw [mem_ids_plug] <;> left <;> simp [(ids_sided_perm _ _ _ _ _).mem_iff]
  have unfolded : stepTouched side m root f.id =
      [x.id, f.id] ++ siblingTouched side m₁ root₁ f.id := by
    rw [stepTouched, lifted, if_pos isRed, siblingRead]
  have front (later : List Nat) : (∀ id ∈ [x.id, f.id] ++ later, id ∈ ids tree₀) ↔
      ∀ id ∈ later, id ∈ ids tree₀ := by
    simp [around]
  rw [unfolded, front]
  cases near with
  | nil =>
    have links₁ : SentinelLinks m₁ := by
      rw [SentinelLinks, arranged₁.at_zero]
      exact links
    rw [siblingTouched_nil arranged₁ links₁]
    exact iff_of_false (fun inTree => arranged₁.zero_not_mem (inTree 0 (by simp))) id
  | node c' l y r =>
    by_cases passes : c' = black ∨ l = .nil ∧ r = .nil
    · have leftRead : Rearranged m₀ tree₀ m₁ root₁ (plug (⟨side, black, x, far⟩ :: rest)
          (sided side red tree f (sided .left c' l y r))) := arranged₁
      have sibling : y.id ∈ ids tree₀ := by
        rw [← arranged₁.ids_eq, mem_ids_plug]
        simp [(ids_sided_perm _ _ _ _ _).mem_iff]
      rw [siblingTouched_more leftRead passes]
      refine iff_of_true (by simpa using sibling) ?_
      rcases passes with rfl | ⟨rfl, rfl⟩
      · trivial
      · cases c'
        · exact fun _ => .inl (by cases side <;> rfl)
        · trivial
    · obtain ⟨notBlack, fails⟩ := not_or.mp passes
      obtain rfl : c' = red := by cases c' <;> first | rfl | exact absurd rfl notBlack
      obtain ⟨inner, outer, sameNode⟩ := exists_sided side red l r y
      have notBoth : ¬(inner = .nil ∧ outer = .nil) := by
        rintro ⟨rfl, rfl⟩
        cases side <;> cases sameNode <;> exact fails ⟨rfl, rfl⟩
      rw [sameNode] at arranged₁ ⊢
      rw [siblingTouched_done arranged₁ notBoth, innerPresent_sided_red]
      constructor
      · exact fun redOuter empty => .inr (redOuter empty)
      · exact fun present empty =>
        (present empty).resolve_left fun empty' => notBoth ⟨empty, empty'⟩

end Step

/-! ## The loop -/

/-- A red cursor, or the root, is coloured at the end. -/
theorem removeColorTouched_stop {m : NodeMap} {root : Nat} (fuel pid : Nat)
    (arranged : Rearranged m₀ tree₀ m root (plug frames tree))
    (stops : frames = [] ∨ tree.isRed = red) :
    removeColorTouched (fuel + 1) m root (rootId tree) pid =
      if 0 < rootId tree then [rootId tree] else [] := by
  rw [removeColorTouched, if_neg (cursor_stops arranged stops)]

/-- Any other cursor goes through an iteration. -/
theorem removeColorTouched_more {m : NodeMap} {root fuel : Nat} {frame : Frame Slot}
    {rest : List (Frame Slot)} (arranged : Rearranged m₀ tree₀ m root (plug (frame :: rest) tree))
    (notRed : tree.isRed ≠ red) (sideRead : rootId frame.sibling = rootId tree → frame.side = .left)
    :
    removeColorTouched (fuel + 1) m root (rootId tree) frame.item.id =
      stepTouched frame.side m root frame.item.id ++
        match removeColorStep frame.side m root frame.item.id with
        | .more m root id pid => removeColorTouched fuel m root id pid
        | .done _ root => if 0 < root then [root] else [] := by
  obtain ⟨goesOn, sideEq⟩ := cursor_reads arranged notRed sideRead
  rw [removeColorTouched, if_pos goesOn]
  simp only [sideEq]

/-- The last colouring stays in the tree. -/
theorem lastColored_mem {m : NodeMap} {root : Nat}
    (arranged : Rearranged m₀ tree₀ m root (plug frames tree)) :
    ∀ id ∈ (if 0 < rootId tree then [rootId tree] else []), id ∈ ids tree₀ := by
  intro id member
  split at member
  case isTrue positive =>
    obtain rfl := List.mem_singleton.mp member
    rw [← arranged.ids_eq, mem_ids_plug]
    exact .inl (rootId_mem_ids positive.ne')
  case isFalse => cases member

/-- In the loop the repair stays in the tree precisely when it finds its siblings. The induction
is on the frames, as in `removeColorLoop_spec`. -/
theorem removeColorTouched_iff {m : NodeMap} {root fuel : Nat}
    (arranged : Rearranged m₀ tree₀ m root (plug frames tree)) (links : SentinelLinks m₀)
    (enough : frames.length < fuel) :
    (∀ id ∈ removeColorTouched fuel m root (rootId tree) (parentId frames), id ∈ ids tree₀) ↔
      (tree.isRed = black → SiblingsPresent frames) := by
  obtain ⟨fuel, rfl⟩ : ∃ n, fuel = n + 1 := ⟨fuel - 1, by omega⟩
  induction frames generalizing m root fuel tree with
  | nil =>
    rw [removeColorTouched_stop fuel _ arranged (.inl rfl)]
    exact iff_of_true (lastColored_mem arranged) fun _ => trivial
  | cons frame rest ih =>
    by_cases treeRed : tree.isRed = red
    · rw [removeColorTouched_stop fuel _ arranged (.inr treeRed)]
      refine iff_of_true (lastColored_mem arranged) fun isBlack => ?_
      rw [treeRed] at isBlack
      cases isBlack
    have treeBlack : tree.isRed = black := by
      cases read : tree.isRed
      · exact absurd read treeRed
      · rfl
    obtain ⟨read, sameFill, sameItem, -, sideRead, sameFrame⟩ :=
      exists_frame_read (m₀ 0).color arranged
    rw [plug_cons, ← sameFill, ← plug_cons] at arranged
    rw [parentId_cons, ← sameItem, removeColorTouched_more arranged treeRed sideRead]
    simp only [treeBlack, true_implies, List.forall_mem_append]
    simp only [List.length_cons] at enough
    obtain ⟨fuel, rfl⟩ : ∃ n, fuel = n + 1 := ⟨fuel - 1, by omega⟩
    have samePresent : SiblingsPresent (frame :: rest) ↔ SiblingsPresent (read :: rest) := by
      rcases sameFrame with rfl | ⟨none, none'⟩
      · exact Iff.rfl
      · simp only [SiblingsPresent, none, none']
    rw [samePresent]
    obtain ⟨side, c, f, sibling⟩ := read
    cases sibling with
    | nil =>
      refine iff_of_false (fun inTree => ?_) id
      exact arranged.zero_not_mem (inTree.1 0 (stepTouched_nil arranged links))
    | node c' l u r =>
      cases c' with
      | black =>
        have leftRead : Rearranged m₀ tree₀ m root (plug rest
            (sided side c tree f (sided .left black l u r))) := arranged
        obtain ⟨m', stepEq, arranged'⟩ := removeColorStep_black leftRead
        have above := ih arranged' fuel (by omega)
        have sibling : u.id ∈ ids tree₀ := by
          rw [← leftRead.ids_eq, mem_ids_plug]
          simp [(ids_sided_perm _ _ _ _ _).mem_iff]
        rw [rootId_sided, isRed_sided] at above
        rw [stepTouched_black leftRead, stepEq]
        simp only [List.forall_mem_singleton, sibling, true_and]
        exact above
      | red =>
        obtain ⟨near, far, sameNode⟩ := exists_sided side red l r u
        have present : SiblingsPresent (⟨side, c, f, .node red l u r⟩ :: rest) ↔
            InnerPresent side near := by
          show InnerPresent side (childOn side (.node red l u r)) ↔ _
          rw [sameNode, childOn_sided]
        rw [present]
        rw [sameNode] at arranged
        rw [← stepTouched_red arranged links]
        refine and_iff_left ?_
        rcases removeColorStep_red arranged links with
          ⟨m', root', color, sibling', stepEq, arranged', -⟩ |
          ⟨m', root', color, tree', stepEq, arranged', -⟩
        · have stopped := removeColorTouched_stop fuel u.id arranged'
            (.inr (isRed_sided _ _ _ _ _))
          rw [stepEq]
          dsimp only
          rw [rootId_sided] at stopped
          rw [stopped, ← rootId_sided side red tree sibling' f]
          exact lastColored_mem arranged'
        · have whole : Rearranged (m₀.setColor 0 color) tree₀ m' root' (plug [] tree') :=
            arranged'
          rw [stepEq, arranged'.rootEq]
          exact lastColored_mem whole

/-! ## The whole removal -/

/-- The object is open on an array with a sentinel. -/
structure Opened (t : CMmtree) : Prop where
  inited : t.inited = true
  mapped : t.mapped = true
  hasSentinel : 0 < t.state.total
  links : SentinelLinks t.map

theorem WellFormed.opened {t : CMmtree} {queue : List Nat} (wf : WellFormed t tree queue)
    (mapped : t.mapped = true) : Opened t :=
  ⟨wf.inited, mapped, Nat.zero_lt_of_lt wf.bounded, wf.sentinel⟩

/-- Without one item, the others are those with another key. -/
theorem mem_without {before after : List Slot} {s : Slot}
    (sorted : ((before ++ s :: after).map Slot.key).Pairwise (· < ·)) (x : Slot) :
    x ∈ before ++ after ↔ x ∈ before ++ s :: after ∧ x.key ≠ s.key := by
  simp only [List.map_append, List.map_cons, List.pairwise_append, List.pairwise_cons,
    List.mem_map, List.mem_cons, forall_exists_index, and_imp, forall_apply_eq_imp_iff₂] at sorted
  obtain ⟨-, ⟨above, -⟩, apart⟩ := sorted
  simp only [List.mem_append, List.mem_cons]
  constructor
  · rintro (early | late)
    · exact ⟨.inl early, (apart x early _ (.inl rfl)).ne⟩
    · exact ⟨.inr (.inr late), (above x late).ne'⟩
  · rintro ⟨early | rfl | late, different⟩
    · exact .inl early
    · exact absurd rfl different
    · exact .inr late

section Remove

variable {t : CMmtree} {tree : RBNode Slot}

/-- Taking out the node at a cursor ends, and its repair stays in the tree precisely when it finds
its siblings. -/
theorem Ordered.removeNode_spec {frames : List (Frame Slot)} {c : RBColor} {l r : RBNode Slot}
    {s : Slot} (ordered : Ordered t (plug frames (.node c l s r))) (opened : Opened t) :
    (∃ t' root', t.removeNode t.state.rootId s.id = some (t', root', 0)) ∧
      ((∀ id ∈ t.removeNodeTouched t.state.rootId s.id,
          ∃ x ∈ (plug frames (.node c l s r)).toList, x.id = id ∧ x.key ≠ s.key) ↔
        StaysInTree frames (.node c l s r)) := by
  have inTree : s.id ∈ ids (plug frames (.node c l s r)) := by simp [mem_ids_plug]
  have inTotal := ordered.inTotal s.id inTree
  have short : (ids (plug frames (.node c l s r))).length < t.state.total := by
    rcases ordered.length_lt [] rfl with short | empty
    · simpa using short
    · rw [empty] at inTree
      cases inTree
  have shortHere := length_le_ids_plug frames (.node c l s r)
  obtain ⟨m', root', frames', child, color, vacated, detached, stored', items, kept⟩ :=
    ordered.stored.detach (lt_of_le_of_lt (by omega) short)
  have sorted := ordered.sorted
  have whole : (plug frames (.node c l s r)).toList =
      (itemsBefore frames ++ l.toList) ++ s :: (r.toList ++ itemsAfter frames) := by
    simp [toList_plug]
  rw [whole] at sorted
  have others (id : Nat) : id ∈ ids (plug frames' child) ↔
      ∃ x ∈ (plug frames (.node c l s r)).toList, x.id = id ∧ x.key ≠ s.key := by
    have remaining : (plug frames' child).toList =
        (itemsBefore frames ++ l.toList) ++ (r.toList ++ itemsAfter frames) := by
      simp [items]
    rw [ids, remaining, List.mem_map, whole]
    simp only [mem_without sorted, and_assoc, and_comm]
  have fewer : (ids (plug frames' child)).length < t.state.total := by
    have lengths := congrArg List.length whole
    simp only [ids, List.length_map, lengths] at short
    simp only [ids, List.length_map, items, List.length_append, List.length_cons] at short ⊢
    omega
  have links' : SentinelLinks m' := by
    rw [SentinelLinks, kept 0 fun member => (ordered.stored.layout.positive member).ne' rfl]
    exact opened.links
  have enough := length_le_ids_plug frames' child
  have stays : StaysInTree frames (.node c l s r) ↔
      (color = black → child.isRed = black → SiblingsPresent frames') := by
    rw [StaysInTree, vacated]
  rw [stays]
  simp only [CMmtree.removeNode, CMmtree.removeNodeTouched, inTotal, if_true, detached, ← others]
  cases color with
  | red =>
    simp
  | black =>
    obtain ⟨m₂, root₂, sentinel, repaired, -⟩ :=
      mmtRemoveColor_spec stored'.rearranged links' (show frames'.length < t.state.total by omega)
    rw [if_pos rfl, if_pos rfl, repaired]
    rw [removeColorTouched_iff stored'.rearranged links' (by omega)]
    simp

/-- In a search tree whose parent fields point back, whatever its colours, every removal ends. Its
repair recolours and rotates nodes of the tree only, precisely when it finds the siblings it looks
for. -/
theorem remove_stays_iff (ordered : Ordered t tree) (opened : Opened t) (key : Int) :
    (∃ t' ret, t.remove key = some (t', ret)) ∧
      ((∀ id ∈ t.removeTouched key, ∃ s ∈ tree.toList, s.id = id ∧ s.key ≠ key) ↔
        StaysInTree (RedBlack.zoom Slot.key key tree []).2
          (RedBlack.zoom Slot.key key tree []).1) := by
  have enough : (ids tree).length < t.state.total := by
    rcases ordered.length_lt [] rfl with short | rfl
    · simpa using short
    · simpa using opened.hasSentinel
  rcases search_of_sorted ordered.stored ordered.sorted ordered.inTotal enough key with
    ⟨frames, c, l, s, r, rfl, rfl, zoomed, searched⟩ | ⟨frames, rfl, zoomed, searched, -⟩
  · obtain ⟨⟨t', root', removed⟩, stays⟩ := ordered.removeNode_spec opened
    have nonempty : 0 < t.state.rootId := by
      rw [ordered.stored.rootEq, Nat.pos_iff_ne_zero, ne_eq, rootId_eq_zero ordered.stored.layout]
      intro empty
      have items := congrArg RBNode.toList empty
      simp [toList_plug] at items
    have found : t.findNode s.key = some (t, 0, s.id) := by
      simp [CMmtree.findNode, CMmtree.requireMapped, opened.mapped, searched]
    rw [zoomed, CMmtree.removeTouched, found]
    simp only [nonempty, and_self, if_true]
    refine ⟨?_, stays⟩
    rw [CMmtree.remove, CMmtree.requireInited, if_pos opened.inited, found]
    simp [nonempty, removed]
  · have missing : t.findNode key = some (t.setErr MMT_IFACE_EFIND
        s!"not found key({key}) in tree.", 1, 0) := by
      simp [CMmtree.findNode, CMmtree.requireMapped, opened.mapped, searched]
    rw [zoomed, CMmtree.removeTouched, missing]
    constructor
    · rw [CMmtree.remove, CMmtree.requireInited, if_pos opened.inited, missing]
      exact ⟨_, _, rfl⟩
    · refine iff_of_true (by simp) fun isBlack => ?_
      cases isBlack

/-- The last node but one of a level. -/
theorem remove_stays_iff_level :
    ∃ t replies, CMmtree.initNewFile.run
        [(.insert 2 0, true), (.insert 1 0, true), (.insert 3 0, true), (.insert 4 0, true)] =
      some (t, replies) ∧
      ∀ id ∈ t.removeTouched 1, ∃ s ∈ t.tree.toList, s.id = id ∧ s.key ≠ 1 := by
  obtain ⟨t, replies, tree, queue, ran, wf⟩ := wellFormed_of_slotFits
    [(.insert 2 0, true), (.insert 1 0, true), (.insert 3 0, true), (.insert 4 0, true)]
    (by decide +kernel)
  have reached : (CMmtree.initNewFile.run
      [(.insert 2 0, true), (.insert 1 0, true), (.insert 3 0, true), (.insert 4 0, true)]).all
      (fun result => result.1.mapped && decide (StaysInTree
        (RedBlack.zoom Slot.key 1 result.1.tree []).2
        (RedBlack.zoom Slot.key 1 result.1.tree []).1)) = true := by
    decide +kernel
  rw [ran] at reached
  obtain ⟨mapped, stays⟩ := (Bool.and_eq_true _ _).mp reached
  rw [decide_eq_true_eq, wf.tree_eq] at stays
  refine ⟨t, replies, ran, ?_⟩
  rw [wf.tree_eq]
  exact (remove_stays_iff wf.ordered (wf.opened mapped) 1).2.mpr stays

/-- A run that leads to a node without a sibling: removing it turns slot 0 red. -/
theorem sentinel_recolored :
    ∃ t replies, CMmtree.initNewFile.run
        [(.insert 6 0, true), (.insert 1 0, true), (.insert 7 0, true), (.insert 2 0, true),
          (.remove 6, true), (.insert 6 0, true), (.remove 1, true), (.remove 2, true)] =
      some (t, replies) ∧ Ordered t t.tree ∧ Opened t ∧
      (t.remove 6).map (fun result => (result.1.map 0).color) = some red ∧
      ¬ ∀ id ∈ t.removeTouched 6, ∃ s ∈ t.tree.toList, s.id = id ∧ s.key ≠ 6 := by
  obtain ⟨t, replies, tree, queue, ran, wf⟩ := wellFormed_of_slotFits
    [(.insert 6 0, true), (.insert 1 0, true), (.insert 7 0, true), (.insert 2 0, true),
      (.remove 6, true), (.insert 6 0, true), (.remove 1, true), (.remove 2, true)]
    (by decide +kernel)
  have reached : (CMmtree.initNewFile.run
      [(.insert 6 0, true), (.insert 1 0, true), (.insert 7 0, true), (.insert 2 0, true),
        (.remove 6, true), (.insert 6 0, true), (.remove 1, true), (.remove 2, true)]).map
      (fun result => (result.1.mapped, decide (0 ∈ result.1.removeTouched 6),
        (result.1.remove 6).map (fun result => (result.1.map 0).color))) =
      some (true, true, some red) := by
    decide +kernel
  rw [ran, Option.map_some, Option.some.injEq, Prod.mk.injEq, Prod.mk.injEq] at reached
  obtain ⟨mapped, touched, turned⟩ := reached
  refine ⟨t, replies, ran, wf.tree_eq ▸ wf.ordered, wf.opened mapped, turned, ?_⟩
  intro inTree
  obtain ⟨s, member, zero, -⟩ := inTree 0 (of_decide_eq_true touched)
  rw [wf.tree_eq] at member
  have positive := (wf.ordered.map_item member).1
  omega

end Remove

end Taomee.Mmtree
