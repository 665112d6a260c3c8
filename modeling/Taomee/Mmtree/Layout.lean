import Taomee.Mmtree.Model

/-!
# The tree an array of nodes encodes

`Layout` says that a slot-labelled red-black tree lies in the node array, with
every `parent` field pointing back. `Stored` adds the root and that no slot is
used twice. Each elementary write of the code becomes one lemma about `Stored`
at a cursor; the proofs about the loops only compose these.
-/

namespace Taomee.Mmtree

open RBTree RBTree.RBNode RBTree.RBColor RedBlack

variable {m m' : NodeMap} {parent : Nat}

/-- What the abstract tree keeps of a node: its slot id, key and data. -/
structure Slot where
  id : Nat
  key : Int
  data : Int32
  deriving DecidableEq

/-- The slot id of the root, 0 for the empty tree. -/
def rootId : RBNode Slot → Nat
  | .nil => 0
  | .node _ _ slot _ => slot.id

@[simp] theorem rootId_nil : rootId .nil = 0 := rfl

@[simp] theorem rootId_node (c : RBColor) (l r : RBNode Slot) (s : Slot) :
    rootId (.node c l s r) = s.id := rfl

@[simp] theorem rootId_sided (side : Side) (c : RBColor) (near far : RBNode Slot) (s : Slot) :
    rootId (sided side c near s far) = s.id := by
  cases side <;> rfl

@[simp] theorem rootId_fill (frame : Frame Slot) (hole : RBNode Slot) :
    rootId (frame.fill hole) = frame.item.id := by
  simp [Frame.fill]

/-- The slot ids of a tree, in key order. -/
def ids (tree : RBNode Slot) : List Nat := tree.toList.map Slot.id

@[simp] theorem ids_nil : ids .nil = [] := rfl

@[simp] theorem ids_node (c : RBColor) (l r : RBNode Slot) (s : Slot) :
    ids (.node c l s r) = ids l ++ s.id :: ids r := by
  simp [ids]

/-- The slots of a node and its two subtrees, in some order. -/
theorem ids_sided_perm (side : Side) (c : RBColor) (near far : RBNode Slot) (s : Slot) :
    (ids (sided side c near s far)).Perm (s.id :: (ids near ++ ids far)) := by
  cases side <;> simp only [sided, ids_node]
  · exact List.perm_middle
  · exact List.perm_middle.trans (List.perm_append_comm.cons _)

variable {tree : RBNode Slot}

/-- The root of a tree that is not empty is one of its slots. -/
theorem rootId_mem_ids (nonempty : rootId tree ≠ 0) : rootId tree ∈ ids tree := by
  cases tree with
  | nil => exact absurd rfl nonempty
  | node => simp

/-- A slot occurs in the node or in one of the subtrees. -/
theorem count_ids_sided (side : Side) (c : RBColor) (near far : RBNode Slot) (s : Slot) (i : Nat) :
    (ids (sided side c near s far)).count i =
      (ids near).count i + (ids far).count i + if s.id = i then 1 else 0 := by
  simp [(ids_sided_perm side c near far s).count_eq i, List.count_cons]

/-- A slot outside of a tree is not its root. -/
theorem ne_rootId {i : Nat} (fresh : i ∉ ids tree) (positive : 0 < rootId tree) :
    i ≠ rootId tree := fun same =>
  fresh (same ▸ rootId_mem_ids positive.ne')

/-- The contents of a slot, read from one side. -/
def cell (side : Side) (slot : Slot) (near far parent : Nat) (color : RBColor) : MtNode :=
  match side with
  | .left => ⟨slot.key, slot.data, near, far, parent, color⟩
  | .right => ⟨slot.key, slot.data, far, near, parent, color⟩

section Cell

variable (side : Side) (slot : Slot) (near far parent other : Nat) (color color' : RBColor)

@[simp] theorem cell_key : (cell side slot near far parent color).key = slot.key := by
  cases side <;> rfl

@[simp] theorem cell_data : (cell side slot near far parent color).data = slot.data := by
  cases side <;> rfl

@[simp] theorem cell_parent : (cell side slot near far parent color).parent = parent := by
  cases side <;> rfl

@[simp] theorem cell_color : (cell side slot near far parent color).color = color := by
  cases side <;> rfl

@[simp] theorem cell_child : (cell side slot near far parent color).child side = near := by
  cases side <;> rfl

@[simp] theorem cell_child_other :
    (cell side slot near far parent color).child side.other = far := by
  cases side <;> rfl

@[simp] theorem cell_setChild :
    (cell side slot near far parent color).setChild side other =
      cell side slot other far parent color := by
  cases side <;> rfl

@[simp] theorem cell_setChild_other :
    (cell side slot near far parent color).setChild side.other other =
      cell side slot near other parent color := by
  cases side <;> rfl

@[simp] theorem cell_setParent :
    (cell side slot near far parent color).setParent other =
      cell side slot near far other color := by
  cases side <;> rfl

@[simp] theorem cell_setColor :
    (cell side slot near far parent color).setColor color' =
      cell side slot near far parent color' := by
  cases side <;> rfl

end Cell

/-- `Layout m parent tree`: the tree lies in the array below `parent`. -/
def Layout (m : NodeMap) : Nat → RBNode Slot → Prop
  | _, .nil => True
  | parent, .node c l s r =>
    0 < s.id ∧ m s.id = cell .left s (rootId l) (rootId r) parent c ∧
      Layout m s.id l ∧ Layout m s.id r

/-- The layout of a node does not depend on the side it is read from. -/
theorem layout_sided {side : Side} {c : RBColor} {near far : RBNode Slot} {s : Slot} :
    Layout m parent (sided side c near s far) ↔
      0 < s.id ∧ m s.id = cell side s (rootId near) (rootId far) parent c ∧
        Layout m s.id near ∧ Layout m s.id far := by
  cases side
  · rfl
  · simp only [sided, Layout]
    tauto

/-- A layout only looks at the slots of its tree. -/
theorem Layout.frame (layout : Layout m parent tree) (same : ∀ i ∈ ids tree, m' i = m i) :
    Layout m' parent tree := by
  induction tree generalizing parent with
  | nil => trivial
  | node c l s r leftHyp rightHyp =>
    obtain ⟨positive, here, left, right⟩ := layout
    simp only [ids_node, List.mem_append, List.mem_cons] at same
    exact ⟨positive, (same s.id (by simp)).trans here,
      leftHyp left fun i member => same i (.inl member),
      rightHyp right fun i member => same i (.inr (.inr member))⟩

/-- Redirecting the `parent` field of the root moves a layout below another parent. -/
theorem Layout.reparent {parent' : Nat} (layout : Layout m parent tree)
    (distinct : (ids tree).Nodup)
    (root : rootId tree ≠ 0 → m' (rootId tree) = (m (rootId tree)).setParent parent')
    (same : ∀ i ∈ ids tree, i ≠ rootId tree → m' i = m i) : Layout m' parent' tree := by
  cases tree with
  | nil => trivial
  | node c l s r =>
    obtain ⟨positive, here, left, right⟩ := layout
    simp only [ids_node, List.nodup_append, List.nodup_cons] at distinct
    obtain ⟨_, ⟨notRight, _⟩, disjoint⟩ := distinct
    refine ⟨positive, ?_, left.frame ?_, right.frame ?_⟩
    · rw [rootId_node] at root
      rw [root (by omega), here]
      rfl
    · intro i member
      refine same i (by simp [member]) ?_
      exact disjoint i member s.id List.mem_cons_self
    · intro i member
      refine same i (by simp [member]) ?_
      rintro rfl
      exact notRight member

/-- The slot of the innermost frame, 0 above the root. -/
def parentId : List (Frame Slot) → Nat
  | [] => 0
  | frame :: _ => frame.item.id

@[simp] theorem parentId_nil : parentId [] = 0 := rfl

@[simp] theorem parentId_cons (frame : Frame Slot) (rest : List (Frame Slot)) :
    parentId (frame :: rest) = frame.item.id := rfl

/-- The slot ids of the frames around a cursor, with those of their siblings. -/
def frameIds : List (Frame Slot) → List Nat
  | [] => []
  | frame :: rest => frame.item.id :: (ids frame.sibling ++ frameIds rest)

/-- The slots of a tree are those at the hole and those of the frames. -/
theorem ids_plug_perm (frames : List (Frame Slot)) (tree : RBNode Slot) :
    (ids (plug frames tree)).Perm (ids tree ++ frameIds frames) := by
  induction frames generalizing tree with
  | nil => simp [frameIds]
  | cons frame rest ih =>
    refine (ih _).trans ?_
    refine ((ids_sided_perm _ _ _ _ _).append_right _).trans ?_
    simp only [List.cons_append, List.append_assoc]
    exact List.perm_middle.symm

/-- A slot occurs at the hole or in the frames. -/
theorem count_ids_plug (frames : List (Frame Slot)) (tree : RBNode Slot) (i : Nat) :
    (ids (plug frames tree)).count i = (ids tree).count i + (frameIds frames).count i := by
  rw [(ids_plug_perm frames tree).count_eq i, List.count_append]

variable {frames : List (Frame Slot)}

/-- The slots at the hole and of the frames are the slots of the whole. -/
theorem mem_ids_plug {i : Nat} :
    i ∈ ids (plug frames tree) ↔ i ∈ ids tree ∨ i ∈ frameIds frames := by
  rw [(ids_plug_perm frames tree).mem_iff, List.mem_append]

/-- A tree has at least as many slots as there are frames and slots at a cursor. -/
theorem length_le_ids_plug (frames : List (Frame Slot)) (tree : RBNode Slot) :
    frames.length + (ids tree).length ≤ (ids (plug frames tree)).length := by
  rw [(ids_plug_perm frames tree).length_eq, List.length_append]
  induction frames with
  | nil => simp
  | cons frame rest ih =>
    simp only [frameIds, List.length_cons, List.length_append]
    omega

theorem frameIds_append (inner outer : List (Frame Slot)) :
    frameIds (inner ++ outer) = frameIds inner ++ frameIds outer := by
  induction inner with
  | nil => rfl
  | cons frame rest ih => simp [frameIds, ih]

/-- A slot outside of the frames is not the parent of the hole. -/
theorem ne_parentId {i : Nat} (fresh : i ∉ frameIds frames) (positive : 0 < parentId frames) :
    i ≠ parentId frames := by
  rintro rfl
  cases frames with
  | nil => simp at positive
  | cons frame rest => simp [frameIds] at fresh

/-- `Around m frames hole`: the frames lie in the array around a hole whose slot
id is `hole`. -/
def Around (m : NodeMap) : List (Frame Slot) → Nat → Prop
  | [], _ => True
  | frame :: rest, hole =>
    0 < frame.item.id ∧
      m frame.item.id =
        cell frame.side frame.item hole (rootId frame.sibling) (parentId rest) frame.color ∧
      Layout m frame.item.id frame.sibling ∧ Around m rest frame.item.id

/-- A plugged tree lies in the array when its frames and its cursor do. -/
theorem layout_plug :
    Layout m 0 (plug frames tree) ↔
      Around m frames (rootId tree) ∧ Layout m (parentId frames) tree := by
  induction frames generalizing tree with
  | nil => simp [Around]
  | cons frame rest ih =>
    rw [plug_cons, ih, Frame.fill, layout_sided, rootId_sided, Around, parentId_cons]
    tauto

/-- Slot 0 is the null node and no slot of a tree. -/
theorem Layout.positive {i : Nat} (layout : Layout m parent tree) (member : i ∈ ids tree) :
    0 < i := by
  induction tree generalizing parent with
  | nil => simp at member
  | node c l s r leftHyp rightHyp =>
    obtain ⟨positive, _, left, right⟩ := layout
    rw [ids_node, List.mem_append, List.mem_cons] at member
    rcases member with inLeft | rfl | inRight
    · exact leftHyp left inLeft
    · exact positive
    · exact rightHyp right inRight

/-- Frames only look at their own slots. -/
theorem Around.frame {hole : Nat} (around : Around m frames hole)
    (same : ∀ i ∈ frameIds frames, m' i = m i) : Around m' frames hole := by
  induction frames generalizing hole with
  | nil => trivial
  | cons frame rest ih =>
    obtain ⟨positive, here, sibling, above⟩ := around
    simp only [frameIds, List.mem_cons, List.mem_append] at same
    exact ⟨positive, (same _ (.inl rfl)).trans here,
      sibling.frame fun i member => same i (.inr (.inl member)),
      ih above fun i member => same i (.inr (.inr member))⟩

/-- Slot 0 is the null node and no slot of a frame. -/
theorem Around.positive {hole i : Nat} (around : Around m frames hole)
    (member : i ∈ frameIds frames) : 0 < i := by
  induction frames generalizing hole with
  | nil => simp [frameIds] at member
  | cons frame rest ih =>
    obtain ⟨positive, _, sibling, above⟩ := around
    rw [frameIds, List.mem_cons, List.mem_append] at member
    rcases member with rfl | inSibling | inRest
    · exact positive
    · exact sibling.positive inSibling
    · exact ih above inRest

/-- Redirecting the link to the hole gives the same frames around another hole. -/
theorem Around.relink {hole hole' : Nat} (around : Around m frames hole)
    (distinct : (frameIds frames).Nodup) (parent : ∀ frame rest, frames = frame :: rest →
      m' frame.item.id = (m frame.item.id).setChild frame.side hole')
    (same : ∀ i ∈ frameIds frames, i ≠ parentId frames → m' i = m i) : Around m' frames hole' := by
  cases frames with
  | nil => trivial
  | cons frame rest =>
    obtain ⟨positive, here, sibling, above⟩ := around
    rw [frameIds, List.nodup_cons] at distinct
    refine ⟨positive, ?_, sibling.frame ?_, above.frame ?_⟩
    · rw [parent frame rest rfl, here, cell_setChild]
    · intro i member
      refine same i (by simp [frameIds, member]) fun clash => distinct.1 ?_
      rw [parentId_cons] at clash
      simp [← clash, member]
    · intro i member
      refine same i (by simp [frameIds, member]) fun clash => distinct.1 ?_
      rw [parentId_cons] at clash
      simp [← clash, member]

/-- The array with this root id encodes this tree, using no slot twice. -/
structure Stored (m : NodeMap) (root : Nat) (tree : RBNode Slot) : Prop where
  layout : Layout m 0 tree
  rootEq : root = rootId tree
  distinct : (ids tree).Nodup

/-- The array `m` encodes `tree`, which holds the items of `tree₀` in the same
order, and outside the slots of `tree₀` it is still `m₀`. -/
structure Rearranged (m₀ : NodeMap) (tree₀ : RBNode Slot) (m : NodeMap) (root : Nat)
    (tree : RBNode Slot) : Prop extends Stored m root tree where
  items : tree.toList = tree₀.toList
  kept : ∀ i ∉ ids tree₀, m i = m₀ i

/-- Nothing has moved yet. -/
theorem Stored.rearranged {root : Nat} (stored : Stored m root tree) :
    Rearranged m tree m root tree :=
  ⟨stored, rfl, fun _ _ => rfl⟩

namespace Stored

variable {m m' : NodeMap} {root : Nat} {frames : List (Frame Slot)} {side : Side}
  {c c' : RBColor} {near far tree : RBNode Slot} {s s' : Slot}

/-- The cursor and its frames share no slot. -/
theorem distinct_cursor (stored : Stored m root (plug frames tree)) :
    (ids tree ++ frameIds frames).Nodup :=
  (ids_plug_perm frames tree).nodup_iff.mp stored.distinct

/-- What the code reads at the cursor. -/
theorem here (stored : Stored m root (plug frames (sided side c near s far))) :
    m s.id = cell side s (rootId near) (rootId far) (parentId frames) c :=
  (layout_sided.mp (layout_plug.mp stored.layout).2).2.1

/-- The node at the hole is not the null node. -/
theorem positive (stored : Stored m root (plug frames (sided side c near s far))) : 0 < s.id :=
  (layout_sided.mp (layout_plug.mp stored.layout).2).1

/-- `here` and `positive` for a node written with its left child first. -/
theorem here_node (stored : Stored m root (plug frames (.node c near s far))) :
    m s.id = cell .left s (rootId near) (rootId far) (parentId frames) c :=
  (layout_plug.mp stored.layout).2.2.1

/-- The node at the hole is not the null node. -/
theorem positive_node (stored : Stored m root (plug frames (.node c near s far))) : 0 < s.id :=
  (layout_plug.mp stored.layout).2.1

/-- What is plugged in counts with its root only. -/
theorem rootId_plug_congr (frames : List (Frame Slot)) {tree' : RBNode Slot}
    (same : rootId tree = rootId tree') :
    rootId (plug frames tree) = rootId (plug frames tree') := by
  induction frames generalizing tree tree' with
  | nil => exact same
  | cons frame rest ih => exact ih (by simp)

/-- Rewriting the colour, key or data of the slot at the cursor. -/
theorem recell (stored : Stored m root (plug frames (sided side c near s far)))
    (sameId : s'.id = s.id) (others : ∀ i, i ≠ s.id → m' i = m i)
    (rewritten : m' s.id = cell side s' (rootId near) (rootId far) (parentId frames) c') :
    Stored m' root (plug frames (sided side c' near s' far)) := by
  have distinct := stored.distinct_cursor
  have perm := ids_sided_perm side c near far s
  have perm' := ids_sided_perm side c' near far s'
  rw [sameId] at perm'
  obtain ⟨around, below⟩ := layout_plug.mp stored.layout
  obtain ⟨positive, _, nearLayout, farLayout⟩ := layout_sided.mp below
  have fresh : s.id ∉ ids near ++ ids far ++ frameIds frames := by
    have split := (perm.append_right (frameIds frames)).nodup_iff.mp distinct
    exact (List.nodup_cons.mp split).1
  simp only [List.mem_append, not_or] at fresh
  refine ⟨layout_plug.mpr ⟨?_, layout_sided.mpr ⟨?_, ?_, ?_, ?_⟩⟩, ?_, ?_⟩
  · rw [rootId_sided, sameId]
    rw [rootId_sided] at around
    exact around.frame fun i member => others i fun clash => fresh.2 (clash ▸ member)
  · rwa [sameId]
  · rwa [sameId]
  · rw [sameId]
    exact nearLayout.frame fun i member => others i fun clash => fresh.1.1 (clash ▸ member)
  · rw [sameId]
    exact farLayout.frame fun i member => others i fun clash => fresh.1.2 (clash ▸ member)
  · exact stored.rootEq.trans (rootId_plug_congr frames (by simp [sameId]))
  · refine (ids_plug_perm _ _).nodup_iff.mpr ?_
    exact ((perm'.trans perm.symm).append_right _).nodup_iff.mpr distinct

end Stored

/-- The colour the code reads at the root of a subtree. -/
theorem Layout.color_root (layout : Layout m parent tree) :
    (0 < rootId tree ∧ (m (rootId tree)).color = red) ↔ tree.isRed = red := by
  cases tree with
  | nil => simp [isRed]
  | node c l s r =>
    obtain ⟨positive, here, _, _⟩ := layout
    simp [positive, here, isRed]

/-! ## Rotation -/

/-- `replaceChild` writes the parent's link, or the root when there is no parent. -/
theorem replaceChild_eq (m : NodeMap) (root pid id new : Nat) :
    replaceChild m root pid id new =
      (if 0 < pid then m.setChild (if (m pid).left = id then .left else .right) pid new else m,
        if 0 < pid then root else new) := by
  unfold replaceChild
  split
  · split <;> simp_all
  · rfl

/-- A rotation without a child to lift does nothing. -/
theorem mmtreeRotate_of_child_eq_zero {side : Side} {root id : Nat}
    (leaf : (m id).child side.other = 0) : mmtreeRotate side m root id = (m, root) := by
  simp [mmtreeRotate, leaf]

/-- What a rotation of `x` over its child `y` writes, slot by slot: `z` is the
child that moves across and `p` the parent, either of which may be 0. -/
theorem mmtreeRotate_slots {side : Side} {x y z p a e : Nat} {v w : Slot} {c c' : RBColor}
    (root : Nat) (atX : m x = cell side v a y p c) (atY : m y = cell side w z e x c') (xy : x ≠ y)
    (xz : 0 < z → x ≠ z) (yz : 0 < z → y ≠ z) (xp : 0 < p → x ≠ p) (yp : 0 < p → y ≠ p)
    (zp : 0 < z → 0 < p → z ≠ p) (positive : 0 < y) :
    let m' := (mmtreeRotate side m root x).1
    (mmtreeRotate side m root x).2 = (if 0 < p then root else y) ∧
      m' x = cell side v a z y c ∧ m' y = cell side w x e p c' ∧
      (0 < z → m' z = (m z).setParent x) ∧
      (0 < p → m' p = (m p).setChild (if (m p).left = x then .left else .right) y) ∧
      ∀ i, i ≠ x → i ≠ y → (0 < z → i ≠ z) → (0 < p → i ≠ p) → m' i = m i := by
  simp only [mmtreeRotate,
    replaceChild_eq, NodeMap.setChild, NodeMap.setParent, NodeMap.modify]
  have yx := xy.symm
  have zx := fun zPositive => (xz zPositive).symm
  have zy := fun zPositive => (yz zPositive).symm
  have px := fun pPositive => (xp pPositive).symm
  have py := fun pPositive => (yp pPositive).symm
  have pz := fun zPositive pPositive => (zp zPositive pPositive).symm
  rcases Nat.eq_zero_or_pos z with rfl | zPositive <;>
    rcases Nat.eq_zero_or_pos p with rfl | pPositive <;>
    simp [*]
  all_goals simp +contextual [*]

/-- The reading of the parent's link that `replaceChild` makes finds the hole. -/
theorem setChild_cell_of_ne {side : Side} {slot : Slot} {hole hole' sibling : Nat} {color : RBColor}
    (different : sibling ≠ hole) :
    (cell side slot hole sibling parent color).setChild
        (if (cell side slot hole sibling parent color).left = hole then .left else .right) hole' =
      cell side slot hole' sibling parent color := by
  cases side <;> simp [cell, different, MtNode.setChild]

namespace Stored

variable {m m' : NodeMap} {root : Nat} {frames : List (Frame Slot)} {side : Side}
  {c c' : RBColor} {a b e : RBNode Slot} {v w : Slot}

/-- Rotating at the cursor: the rotated tree is stored, and no slot outside the
tree is written. -/
theorem rotate_stored
    (stored : Stored m root (plug frames (sided side c a v (sided side c' b w e)))) :
    Stored (mmtreeRotate side m root v.id).1 (mmtreeRotate side m root v.id).2
        (plug frames (sided side c' (sided side c a v b) w e)) ∧
      ∀ i ∉ ids (plug frames (sided side c a v (sided side c' b w e))),
        (mmtreeRotate side m root v.id).1 i = m i := by
  obtain ⟨around, below⟩ := layout_plug.mp stored.layout
  obtain ⟨vPositive, atV, aLayout, rest⟩ := layout_sided.mp below
  obtain ⟨wPositive, atW, bLayout, eLayout⟩ := layout_sided.mp rest
  rw [rootId_sided] at atV around
  -- Every slot of the tree is named once, so the slots the rotation writes differ.
  have perm : (ids (plug frames (sided side c a v (sided side c' b w e)))).Perm
      (v.id :: w.id :: (ids a ++ (ids b ++ (ids e ++ frameIds frames)))) := by
    refine List.perm_iff_count.mpr fun i => ?_
    simp only [count_ids_plug, count_ids_sided, List.count_cons, List.count_append, beq_iff_eq]
    omega
  have perm' : (ids (plug frames (sided side c' (sided side c a v b) w e))).Perm
      (ids (plug frames (sided side c a v (sided side c' b w e)))) := by
    refine List.perm_iff_count.mpr fun i => ?_
    simp only [count_ids_plug, count_ids_sided]
    omega
  have distinct := perm.nodup_iff.mp stored.distinct
  simp only [List.nodup_cons, List.mem_cons, List.mem_append, List.nodup_append,
    not_or] at distinct
  obtain ⟨⟨vw, va, vb, ve, vf⟩, ⟨wa, wb, we, wf⟩, _, ⟨bDistinct, ⟨_, fDistinct, ef⟩, bef⟩, abef⟩ :=
    distinct
  have bParent : 0 < rootId b → 0 < parentId frames → rootId b ≠ parentId frames :=
    fun positive => ne_parentId fun member =>
      bef _ (rootId_mem_ids positive.ne') _ (.inr member) rfl
  obtain ⟨rootAfter, atV', atW', atB', atParent', others⟩ :=
    mmtreeRotate_slots root atV atW vw (ne_rootId vb) (ne_rootId wb)
      (ne_parentId vf) (ne_parentId wf) bParent wPositive
  have untouched : ∀ i, i ≠ v.id → i ≠ w.id → i ∉ ids b → i ∉ frameIds frames →
      (mmtreeRotate side m root v.id).1 i = m i := fun i notV notW notB notF =>
    others i notV notW (ne_rootId notB) (ne_parentId notF)
  refine ⟨⟨layout_plug.mpr ⟨?_, layout_sided.mpr ⟨wPositive, ?_, ?_, ?_⟩⟩, ?_,
    perm'.nodup_iff.mpr stored.distinct⟩, ?_⟩
  · rw [rootId_sided]
    refine around.relink fDistinct ?_ ?_
    · rintro frame rest rfl
      obtain ⟨positive, here, _, _⟩ := around
      have notSibling : rootId frame.sibling ≠ v.id :=
        fun same => vf (by
          rw [← same, frameIds]
          simp [rootId_mem_ids (same ▸ vPositive.ne')])
      have written := atParent' positive
      rw [parentId_cons, here, setChild_cell_of_ne notSibling] at written
      rw [written, here, cell_setChild]
    · intro i member notParent
      refine others i (fun same => vf (same ▸ member)) (fun same => wf (same ▸ member)) ?_
        (fun _ => notParent)
      exact ne_rootId fun inB => bef i inB i (.inr member) rfl
  · rw [atW', rootId_sided]
  · refine layout_sided.mpr ⟨vPositive, atV', ?_, ?_⟩
    · refine aLayout.frame fun i member => ?_
      exact untouched i (fun same => va (same ▸ member))
        (fun same => wa (same ▸ member)) (fun inB => abef i member i (.inl inB) rfl)
        (fun inF => abef i member i (.inr (.inr inF)) rfl)
    · refine bLayout.reparent bDistinct (fun nonzero => atB' (Nat.pos_of_ne_zero nonzero)) ?_
      intro i member notRoot
      exact others i (fun same => vb (same ▸ member)) (fun same => wb (same ▸ member))
        (fun _ => notRoot) (ne_parentId fun inF => bef i member i (.inr inF) rfl)
  · refine eLayout.frame fun i member => ?_
    exact untouched i (fun same => ve (same ▸ member))
      (fun same => we (same ▸ member)) (fun inB => bef i inB i (.inl member) rfl)
      (fun inF => ef i member i inF rfl)
  · rw [rootAfter]
    cases frames with
    | nil => simp
    | cons frame rest =>
      rw [parentId_cons, if_pos around.1, stored.rootEq, plug_cons, plug_cons]
      exact rootId_plug_congr rest (by simp)
  · intro i outside
    simp only [perm.mem_iff, List.mem_cons, List.mem_append, not_or] at outside
    obtain ⟨notV, notW, _, notB, _, notF⟩ := outside
    exact untouched i notV notW notB notF

end Stored

/-! ## Elementary writes -/

/-- Moving the cursor from a node to its near child. -/
theorem plug_near (frames : List (Frame Slot)) (side : Side) (c : RBColor)
    (near far : RBNode Slot) (s : Slot) :
    plug frames (sided side c near s far) = plug (⟨side, c, s, far⟩ :: frames) near := rfl

/-- Moving the cursor from a node to its far child. -/
theorem plug_far (frames : List (Frame Slot)) (side : Side) (c : RBColor)
    (near far : RBNode Slot) (s : Slot) :
    plug frames (sided side c near s far) = plug (⟨side.other, c, s, near⟩ :: frames) far := by
  rw [plug_cons, Frame.fill, sided_other]

namespace Rearranged

variable {m₀ m : NodeMap} {tree₀ : RBNode Slot} {root : Nat} {frames : List (Frame Slot)}
  {side side' : Side} {c c' c'' : RBColor} {near far a b e : RBNode Slot} {s u v w : Slot}

/-- Rotations and colours keep the slots in order. -/
theorem ids_eq {tree : RBNode Slot} (arranged : Rearranged m₀ tree₀ m root tree) :
    ids tree = ids tree₀ := by
  rw [ids, ids, arranged.items]

/-- Colouring the slot at the cursor. -/
theorem setColor (color : RBColor)
    (arranged : Rearranged m₀ tree₀ m root (plug frames (sided side c near s far))) :
    Rearranged m₀ tree₀ (m.setColor s.id color) root
      (plug frames (sided side color near s far)) where
  toStored := by
    refine arranged.recell rfl (fun i different => NodeMap.modify_of_ne _ _ different) ?_
    rw [NodeMap.setColor, NodeMap.modify_same, arranged.here, cell_setColor]
  items := (toList_plug_congr _ (toList_sided_congr rfl rfl)).trans arranged.items
  kept i outside := by
    refine (NodeMap.modify_of_ne _ _ fun same => outside ?_).trans (arranged.kept i outside)
    rw [← arranged.ids_eq, (ids_plug_perm _ _).mem_iff, List.mem_append,
      (ids_sided_perm _ _ _ _ _).mem_iff]
    simp [same]

/-- Colouring the near child of the cursor. -/
theorem setColor_near (color : RBColor) (arranged : Rearranged m₀ tree₀ m root
      (plug frames (sided side c (sided side' c' a v b) s far))) :
    Rearranged m₀ tree₀ (m.setColor v.id color) root
      (plug frames (sided side c (sided side' color a v b) s far)) := by
  rw [plug_near] at arranged ⊢
  exact arranged.setColor color

/-- Colouring the far child of the cursor. -/
theorem setColor_far (color : RBColor) (arranged : Rearranged m₀ tree₀ m root
      (plug frames (sided side c near s (sided side' c' a v b)))) :
    Rearranged m₀ tree₀ (m.setColor v.id color) root
      (plug frames (sided side c near s (sided side' color a v b))) := by
  rw [plug_far] at arranged ⊢
  exact arranged.setColor color

/-- Rotating at the cursor. -/
theorem rotate (arranged : Rearranged m₀ tree₀ m root
      (plug frames (sided side c a v (sided side c' b w e)))) :
    Rearranged m₀ tree₀ (mmtreeRotate side m root v.id).1 (mmtreeRotate side m root v.id).2
      (plug frames (sided side c' (sided side c a v b) w e)) where
  toStored := arranged.rotate_stored.1
  items := (toList_plug_congr _ (toList_rotate _ _ _ _ _ _ _ _ _ _)).trans arranged.items
  kept i outside :=
    (arranged.rotate_stored.2 i (arranged.ids_eq ▸ outside)).trans (arranged.kept i outside)

/-- Rotating at the cursor the other way lifts the near child. -/
theorem rotate_other (arranged : Rearranged m₀ tree₀ m root
      (plug frames (sided side c (sided side c' e w b) v a))) :
    Rearranged m₀ tree₀ (mmtreeRotate side.other m root v.id).1
      (mmtreeRotate side.other m root v.id).2
      (plug frames (sided side c' e w (sided side c b v a))) := by
  have mirrored : Rearranged m₀ tree₀ m root
      (plug frames (sided side.other c a v (sided side.other c' b w e))) := by
    simpa only [sided_other] using arranged
  simpa only [sided_other] using mirrored.rotate

/-- Rotating the near child of the cursor. -/
theorem rotate_near (arranged : Rearranged m₀ tree₀ m root
      (plug frames (sided side c (sided side' c' a v (sided side' c'' b w e)) s far))) :
    Rearranged m₀ tree₀ (mmtreeRotate side' m root v.id).1 (mmtreeRotate side' m root v.id).2
      (plug frames (sided side c (sided side' c'' (sided side' c' a v b) w e) s far)) := by
  rw [plug_near] at arranged ⊢
  exact arranged.rotate

end Rearranged

end Taomee.Mmtree
