import Taomee.Mmtree.RemoveColor

/-!
# Taking a node out of the tree

`remove_node` before its repair: a node with at most one child is unlinked, and a
node with two children gives its place to its in-order successor, which is
unlinked first.
-/

namespace Taomee.Mmtree

open RBTree RBTree.RBNode RBTree.RBColor RedBlack CMmtree

variable {m : NodeMap} {c : RBColor} {root : Nat} {frames : List (Frame Slot)} {s : Slot}
  {l r : RBNode Slot}

/-! ## Unlinking -/

/-- What unlinking `x` writes, slot by slot: `z` is its child and `p` its parent,
either of which may be 0. -/
theorem unlinkNode_slots {x z p : Nat} (root : Nat) (parentRead : (m x).parent = p)
    (colorRead : (m x).color = c) (xz : 0 < z → x ≠ z) (zp : 0 < z → 0 < p → z ≠ p) :
    ∃ m' root', unlinkNode m root x z = (m', root', z, p, c) ∧
      root' = (if 0 < p then root else z) ∧
      (0 < z → m' z = (m z).setParent p) ∧
      (0 < p → m' p = (m p).setChild (if (m p).left = x then .left else .right) z) ∧
      ∀ i, (0 < z → i ≠ z) → (0 < p → i ≠ p) → m' i = m i := by
  have pz := fun zPositive pPositive => (zp zPositive pPositive).symm
  have unlinked : unlinkNode m root x z =
      ((replaceChild (if 0 < z then m.setParent z p else m) root p x z).1,
        (replaceChild (if 0 < z then m.setParent z p else m) root p x z).2, z, p, c) := by
    have kept : ((if 0 < z then m.setParent z p else m) x).parent = p := by
      split
      · rename_i zPositive
        rw [NodeMap.setParent, NodeMap.modify_of_ne _ _ (xz zPositive), parentRead]
      · exact parentRead
    simp only [unlinkNode, parentRead, colorRead, kept]
  refine ⟨_, _, unlinked, ?_⟩
  simp only [replaceChild_eq, NodeMap.setChild, NodeMap.setParent, NodeMap.modify]
  rcases Nat.eq_zero_or_pos z with rfl | zPositive <;>
    rcases Nat.eq_zero_or_pos p with rfl | pPositive <;>
  all_goals simp +contextual [*]

/-- Unlinking a node without a far child stores the tree with its near child in
its place; the slot itself keeps its contents. -/
theorem Stored.unlink {side : Side} {near : RBNode Slot}
    (stored : Stored m root (plug frames (sided side c near s .nil))) :
    ∃ m' root', unlinkNode m root s.id (rootId near) =
        (m', root', rootId near, parentId frames, c) ∧
      Stored m' root' (plug frames near) ∧
      ∀ i ∉ ids (plug frames near), m' i = m i := by
  obtain ⟨around, below⟩ := layout_plug.mp stored.layout
  obtain ⟨sPositive, atS, nearLayout, _⟩ := layout_sided.mp below
  rw [rootId_sided] at around
  have perm : (ids (plug frames (sided side c near s .nil))).Perm
      (s.id :: (ids near ++ frameIds frames)) := by
    refine List.perm_iff_count.mpr fun i => ?_
    simp only [count_ids_plug, count_ids_sided, List.count_cons, List.count_append, beq_iff_eq,
      ids_nil, List.count_nil]
    omega
  have distinct := perm.nodup_iff.mp stored.distinct
  simp only [List.nodup_cons, List.mem_append, not_or, List.nodup_append] at distinct
  obtain ⟨⟨sNear, sFrames⟩, nearDistinct, framesDistinct, apart⟩ := distinct
  have nearParent : 0 < rootId near → 0 < parentId frames → rootId near ≠ parentId frames :=
    fun positive => ne_parentId fun member => apart _ (rootId_mem_ids positive.ne') _ member rfl
  obtain ⟨m', root', unlinked, rootAfter, atNear, atParent, others⟩ :=
    unlinkNode_slots (x := s.id) (z := rootId near) (p := parentId frames) (c := c) root
      (by rw [atS, cell_parent]) (by rw [atS, cell_color]) (ne_rootId sNear) nearParent
  refine ⟨m', root', unlinked, ⟨layout_plug.mpr ⟨?_, ?_⟩, ?_, ?_⟩, ?_⟩
  · refine around.relink framesDistinct ?_ ?_
    · rintro frame rest rfl
      obtain ⟨positive, here, _, _⟩ := around
      have notSibling : rootId frame.sibling ≠ s.id := fun same => sFrames (by
        rw [← same, frameIds]
        simp [rootId_mem_ids (same ▸ sPositive.ne')])
      have written := atParent positive
      rw [parentId_cons, here, setChild_cell_of_ne notSibling] at written
      rw [written, here, cell_setChild]
    · intro i member notParent
      refine others i (ne_rootId fun inNear => apart i inNear i member rfl) (fun _ => notParent)
  · refine nearLayout.reparent nearDistinct (fun nonzero => atNear (Nat.pos_of_ne_zero nonzero)) ?_
    intro i member notRoot
    exact others i (fun _ => notRoot) (ne_parentId fun inFrames => apart i member i inFrames rfl)
  · rw [rootAfter]
    cases frames with
    | nil => simp
    | cons frame rest =>
      rw [parentId_cons, if_pos around.1, stored.rootEq, plug_cons, plug_cons]
      exact Stored.rootId_plug_congr rest (by simp)
  · refine (ids_plug_perm frames near).nodup_iff.mpr ?_
    exact List.nodup_append.mpr ⟨nearDistinct, framesDistinct, apart⟩
  · intro i outside
    simp only [(ids_plug_perm frames near).mem_iff, List.mem_append, not_or] at outside
    exact others i (ne_rootId outside.1) (ne_parentId outside.2)

/-! ## Splicing the successor -/

/-- The second half of `spliceSuccessor`: slot `id` takes the links and the colour
of `nodeId`. -/
def takePlace (m : NodeMap) (root nodeId id : Nat) : NodeMap × Nat :=
  let node := m nodeId
  let m := m.modify id fun successor =>
    { successor with
      color := node.color, parent := node.parent, left := node.left, right := node.right }
  let (m, root) := replaceChild m root (m nodeId).parent nodeId id
  let m := m.setParent (m nodeId).left id
  let rid := (m nodeId).right
  (if 0 < rid then m.setParent rid id else m, root)

theorem spliceSuccessor_eq (m : NodeMap) (root nodeId id : Nat) :
    spliceSuccessor m root nodeId id =
      let (m, root, child, parent, color) := unlinkNode m root id (m id).right
      ((takePlace m root nodeId id).1, (takePlace m root nodeId id).2, child,
        if (m id).parent = nodeId then id else parent, color) := rfl

/-- Only the parent of the replaced link is written. -/
theorem replaceChild_of_ne (m : NodeMap) (root id new : Nat) {pid i : Nat}
    (notParent : 0 < pid → i ≠ pid) : (replaceChild m root pid id new).1 i = m i := by
  rw [replaceChild_eq]
  simp only
  split
  · exact NodeMap.modify_of_ne _ _ (notParent (by assumption))
  · rfl

/-- What taking the place of `x` writes, slot by slot: `y` is the slot that takes
it, `a` and `b` are the children of `x` and `p` is its parent; `b` and `p` may be 0. -/
theorem takePlace_slots {x y a b p : Nat} {v w : Slot} (root : Nat)
    (atX : m x = cell .left v a b p c) (keyRead : (m y).key = w.key)
    (dataRead : (m y).data = w.data) (xy : x ≠ y) (xa : x ≠ a) (ya : y ≠ a) (yb : 0 < b → y ≠ b)
    (ab : 0 < b → a ≠ b) (xp : 0 < p → x ≠ p) (yp : 0 < p → y ≠ p) (ap : 0 < p → a ≠ p)
    (bp : 0 < b → 0 < p → b ≠ p) :
    let m' := (takePlace m root x y).1
    (takePlace m root x y).2 = (if 0 < p then root else y) ∧
      m' y = cell .left w a b p c ∧ m' a = (m a).setParent y ∧
      (0 < b → m' b = (m b).setParent y) ∧
      (0 < p → m' p = (m p).setChild (if (m p).left = x then .left else .right) y) ∧
      ∀ i, i ≠ y → i ≠ a → (0 < b → i ≠ b) → (0 < p → i ≠ p) → m' i = m i := by
  let m₁ := m.modify y fun successor =>
    { successor with
      color := (m x).color, parent := (m x).parent, left := (m x).left, right := (m x).right }
  let m₂ := (replaceChild m₁ root (m₁ x).parent x y).1
  let m₃ := m₂.setParent (m₂ x).left y
  have x₁ : m₁ x = m x := NodeMap.modify_of_ne _ _ xy
  have parent₁ : (m₁ x).parent = p := by rw [x₁, atX, cell_parent]
  have same₂ : ∀ i, (0 < p → i ≠ p) → m₂ i = m₁ i := by
    intro i notParent
    simp only [m₂, parent₁]
    exact replaceChild_of_ne m₁ root x y notParent
  have left₂ : (m₂ x).left = a := by rw [same₂ x xp, x₁, atX]; rfl
  have same₃ : ∀ i, i ≠ a → m₃ i = m₂ i := by
    intro i notLeft
    simp only [m₃, left₂]
    exact NodeMap.modify_of_ne _ _ notLeft
  have right₃ : (m₃ x).right = b := by rw [same₃ x xa, same₂ x xp, x₁, atX]; rfl
  have result : Mmtree.takePlace m root x y =
      (if 0 < b then m₃.setParent b y else m₃, (replaceChild m₁ root p x y).2) := by
    rw [← right₃, ← parent₁]
    rfl
  have same₄ : ∀ i, (0 < b → i ≠ b) → (Mmtree.takePlace m root x y).1 i = m₃ i := by
    intro i notRight
    rw [result]
    simp only
    split
    · exact NodeMap.modify_of_ne _ _ (notRight (by assumption))
    · rfl
  refine ⟨?_, ?_, ?_, ?_, ?_, ?_⟩
  · rw [result, replaceChild_eq]
  · rw [same₄ y yb, same₃ y ya, same₂ y yp]
    simp [m₁, atX, cell, keyRead, dataRead]
  · have same₁ : m₁ a = m a := NodeMap.modify_of_ne _ _ ya.symm
    rw [same₄ a ab]
    simp only [m₃, left₂, NodeMap.setParent, NodeMap.modify_same, same₂ a ap, same₁]
  · intro bPositive
    have same₁ : m₁ b = m b := NodeMap.modify_of_ne _ _ (yb bPositive).symm
    rw [result]
    simp only [bPositive, if_true, NodeMap.setParent, NodeMap.modify_same]
    rw [same₃ b (ab bPositive).symm, same₂ b (bp bPositive), same₁]
  · intro pPositive
    have same₁ : m₁ p = m p := NodeMap.modify_of_ne _ _ (yp pPositive).symm
    rw [same₄ p fun bPositive => (bp bPositive pPositive).symm, same₃ p (ap pPositive).symm]
    simp only [m₂, parent₁, replaceChild_eq, pPositive, if_true, NodeMap.setChild,
      NodeMap.modify_same, same₁]
  · intro i notY notA notB notP
    have same₁ : m₁ i = m i := NodeMap.modify_of_ne _ _ notY
    rw [same₄ i notB, same₃ i notA, same₂ i notP, same₁]

/-- A fresh slot with the key and the data of `t` takes the place of the node at
the cursor. -/
theorem Stored.takePlace {t : Slot} (stored : Stored m root (plug frames (.node c l s r)))
    (leftChild : 0 < rootId l) (fresh : t.id ∉ ids (plug frames (.node c l s r)))
    (tPositive : 0 < t.id) (keyRead : (m t.id).key = t.key) (dataRead : (m t.id).data = t.data) :
    Stored (takePlace m root s.id t.id).1 (takePlace m root s.id t.id).2
        (plug frames (.node c l t r)) ∧
      ∀ i ∉ ids (plug frames (.node c l t r)),
        (Mmtree.takePlace m root s.id t.id).1 i = m i := by
  obtain ⟨around, below⟩ := layout_plug.mp stored.layout
  obtain ⟨sPositive, atS, lLayout, rLayout⟩ := below
  rw [rootId_node] at around
  have perm : ∀ slot : Slot, (ids (plug frames (.node c l slot r))).Perm
      (slot.id :: (ids l ++ (ids r ++ frameIds frames))) := by
    intro slot
    refine List.perm_iff_count.mpr fun i => ?_
    simp only [count_ids_plug, ids_node, List.count_cons, List.count_append]
    omega
  have distinct := (perm s).nodup_iff.mp stored.distinct
  simp only [List.nodup_cons, List.mem_append, not_or, List.nodup_append] at distinct
  simp only [(perm s).mem_iff, List.mem_cons, List.mem_append, not_or] at fresh
  obtain ⟨⟨sl, sr, sf⟩, lDistinct, ⟨rDistinct, fDistinct, rf⟩, lrf⟩ := distinct
  obtain ⟨ts, tl, tr, tf⟩ := fresh
  have lr : 0 < rootId r → rootId l ≠ rootId r := fun positive =>
    lrf _ (rootId_mem_ids leftChild.ne') _ (.inl (rootId_mem_ids positive.ne'))
  have lp : 0 < parentId frames → rootId l ≠ parentId frames :=
    ne_parentId fun member => lrf _ (rootId_mem_ids leftChild.ne') _ (.inr member) rfl
  have rp : 0 < rootId r → 0 < parentId frames → rootId r ≠ parentId frames :=
    fun positive => ne_parentId fun member => rf _ (rootId_mem_ids positive.ne') _ member rfl
  obtain ⟨rootAfter, atT', atL', atR', atParent', others⟩ :=
    takePlace_slots (w := t) root atS keyRead dataRead (Ne.symm ts) (ne_rootId sl leftChild)
      (ne_rootId tl leftChild) (ne_rootId tr) lr (ne_parentId sf) (ne_parentId tf)
      lp rp
  have untouched : ∀ i, i ≠ t.id → i ∉ ids l → i ∉ ids r → i ∉ frameIds frames →
      (Mmtree.takePlace m root s.id t.id).1 i = m i := fun i notT notL notR notF =>
    others i notT (ne_rootId notL leftChild) (ne_rootId notR) (ne_parentId notF)
  refine ⟨⟨layout_plug.mpr ⟨?_, tPositive, atT', ?_, ?_⟩, ?_, ?_⟩, ?_⟩
  · rw [rootId_node]
    refine around.relink fDistinct ?_ ?_
    · rintro frame rest rfl
      obtain ⟨positive, here, _, _⟩ := around
      have notSibling : rootId frame.sibling ≠ s.id := fun same => sf (by
        rw [← same, frameIds]
        simp [rootId_mem_ids (same ▸ sPositive.ne')])
      have written := atParent' positive
      rw [parentId_cons, here, setChild_cell_of_ne notSibling] at written
      rw [written, here, cell_setChild]
    · intro i member notParent
      refine others i (fun same => tf (same ▸ member)) ?_ ?_ (fun _ => notParent)
      · exact ne_rootId (fun inL => lrf i inL i (.inr member) rfl) leftChild
      · exact ne_rootId fun inR => rf i inR i member rfl
  · refine lLayout.reparent lDistinct (fun _ => atL') ?_
    intro i member notRoot
    exact others i (fun same => tl (same ▸ member)) notRoot
      (ne_rootId fun inR => lrf i member i (.inl inR) rfl)
      (ne_parentId fun inF => lrf i member i (.inr inF) rfl)
  · refine rLayout.reparent rDistinct (fun nonzero => atR' (Nat.pos_of_ne_zero nonzero)) ?_
    intro i member notRoot
    exact others i (fun same => tr (same ▸ member))
      (ne_rootId (fun inL => lrf i inL i (.inl member) rfl) leftChild) (fun _ => notRoot)
      (ne_parentId fun inF => rf i member i inF rfl)
  · rw [rootAfter]
    cases frames with
    | nil => simp
    | cons frame rest =>
      rw [parentId_cons, if_pos around.1, stored.rootEq, plug_cons, plug_cons]
      exact Stored.rootId_plug_congr rest (by simp)
  · refine (perm t).nodup_iff.mpr ?_
    simp only [List.nodup_cons, List.mem_append, not_or, List.nodup_append]
    exact ⟨⟨tl, tr, tf⟩, lDistinct, ⟨rDistinct, fDistinct, rf⟩, lrf⟩
  · intro i outside
    simp only [(perm t).mem_iff, List.mem_cons, List.mem_append, not_or] at outside
    exact untouched i outside.1 outside.2.1 outside.2.2.1 outside.2.2.2

/-- `while (m_map[id].left > 0) id = m_map[id].left;` goes down the left spine. -/
theorem leftmostLoop_spec {fuel : Nat} (stored : Stored m root (plug frames (.node c l s r)))
    (enough : (ids l).length < fuel) :
    leftmostLoop m fuel s.id = some (rootId (descendLeft (.node c l s r) frames).1) := by
  obtain ⟨fuel, rfl⟩ : ∃ n, fuel = n + 1 := ⟨fuel - 1, by omega⟩
  have atNode := stored.here_node
  induction l generalizing c s r frames fuel with
  | nil => simp [leftmostLoop, atNode, cell, descendLeft]
  | node c' l' s' r' leftHyp =>
    have below : Stored m root (plug (⟨.left, c, s, r⟩ :: frames) (.node c' l' s' r')) := stored
    simp only [ids_node, List.length_append, List.length_cons] at enough
    obtain ⟨fuel, rfl⟩ : ∃ n, fuel = n + 1 := ⟨fuel - 1, by omega⟩
    rw [leftmostLoop, descendLeft, atNode]
    simp only [cell, rootId_node, below.positive_node]
    exact leftHyp below fuel (by omega) below.here_node

/-- Cutting the successor `t` out and giving it the place of `s`. -/
theorem Stored.splice {spine : List (Frame Slot)} {cs : RBColor} {rest : RBNode Slot} {t : Slot}
    (stored : Stored m root (plug frames (.node c l s (plug spine (.node cs .nil t rest)))))
    (leftChild : 0 < rootId l) :
    ∃ m' root', spliceSuccessor m root s.id t.id =
        (m', root', rootId rest, parentId (spine ++ ⟨.right, c, t, l⟩ :: frames), cs) ∧
      Stored m' root' (plug (spine ++ ⟨.right, c, t, l⟩ :: frames) rest) ∧
      ∀ i ∉ ids (plug frames (.node c l s (plug spine (.node cs .nil t rest)))),
        m' i = m i := by
  have focused : Stored m root
      (plug (spine ++ ⟨.right, c, s, l⟩ :: frames) (sided .right cs rest t .nil)) := by
    rw [plug_append]
    exact stored
  have atT := focused.here
  obtain ⟨m₁, root₁, unlinked, stored₁, kept₁⟩ := focused.unlink
  have fresh : t.id ∉ ids (plug (spine ++ ⟨.right, c, s, l⟩ :: frames) rest) := by
    have distinct := focused.distinct_cursor
    rw [((ids_sided_perm _ _ _ _ _).append_right _).nodup_iff] at distinct
    rw [(ids_plug_perm _ _).mem_iff]
    simpa using (List.nodup_cons.mp distinct).1
  have atT₁ : m₁ t.id = m t.id := kept₁ _ fresh
  have whole : Stored m₁ root₁ (plug frames (.node c l s (plug spine rest))) := by
    rw [plug_append] at stored₁
    exact stored₁
  rw [plug_append] at fresh
  obtain ⟨stored₂, kept₂⟩ := whole.takePlace leftChild fresh focused.positive
    (by rw [atT₁, atT, cell_key]) (by rw [atT₁, atT, cell_data])
  have parentRead : (if (m₁ t.id).parent = s.id then t.id
      else parentId (spine ++ ⟨.right, c, s, l⟩ :: frames)) =
      parentId (spine ++ ⟨.right, c, t, l⟩ :: frames) := by
    rw [atT₁, atT, cell_parent]
    cases spine with
    | nil => simp
    | cons frame others =>
      have different : frame.item.id ≠ s.id := by
        have distinct := (List.nodup_append.mp focused.distinct_cursor).2.1
        rw [List.cons_append, frameIds, List.nodup_cons] at distinct
        intro same
        exact distinct.1 (by simp [frameIds_append, frameIds, same])
      simp [different]
  refine ⟨(Mmtree.takePlace m₁ root₁ s.id t.id).1, (Mmtree.takePlace m₁ root₁ s.id t.id).2,
    ?_, ?_, ?_⟩
  · have childRead : (m t.id).right = rootId rest := by rw [atT]; rfl
    rw [spliceSuccessor_eq, childRead, unlinked]
    simp only [parentRead]
  · rw [plug_append]
    exact stored₂
  · intro i outside
    simp only [mem_ids_plug, ids_node, List.mem_append, List.mem_cons, not_or] at outside
    refine (kept₂ i ?_).trans (kept₁ i ?_)
    · simp only [mem_ids_plug, ids_node, List.mem_append, List.mem_cons]
      tauto
    · simp only [mem_ids_plug, frameIds_append, frameIds, List.mem_append, List.mem_cons]
      tauto

/-! ## Detaching -/

/-- The cursor at the place that becomes vacant when the node at a cursor is taken
out, with the colour that goes: the place of the node itself or that of its
in-order successor. Sides, colours and siblings on the way up are those of the tree
before. -/
def vacate (frames : List (Frame Slot)) : RBNode Slot → List (Frame Slot) × RBNode Slot × RBColor
  | .nil => (frames, .nil, red)
  | .node c .nil _ r => (frames, r, c)
  | .node c l _ .nil => (frames, l, c)
  | .node c l _ r =>
    match descendLeft r [] with
    | (.nil, spine) => (spine ++ frames, .nil, red)
    | (.node cs _ t rest, spine) => (spine ++ ⟨.right, c, t, l⟩ :: frames, rest, cs)

/-- `remove_node` before its repair leaves the tree without the item, with the
cursor at the vacant place. -/
theorem Stored.detach {total : Nat} (stored : Stored m root (plug frames (.node c l s r)))
    (enough : (ids (.node c l s r)).length < total) :
    ∃ m' root' frames' child color, vacate frames (.node c l s r) = (frames', child, color) ∧
      detachNode m total root s.id = some (m', root', rootId child, parentId frames', color) ∧
      Stored m' root' (plug frames' child) ∧
      (plug frames' child).toList =
        itemsBefore frames ++ (l.toList ++ r.toList) ++ itemsAfter frames ∧
      ∀ i ∉ ids (plug frames (.node c l s r)), m' i = m i := by
  have atNode := stored.here_node
  have shrunk : ∀ child i, i ∉ ids (plug frames (.node c l s r)) →
      (∀ j ∈ ids child, j ∈ ids (.node c l s r)) → i ∉ ids (plug frames child) := by
    intro child i outside fewer member
    rw [mem_ids_plug] at outside member
    exact outside (member.imp_left (fewer i))
  have leftStored : Stored m root (plug (⟨.left, c, s, r⟩ :: frames) l) := stored
  have rightStored : Stored m root (plug (⟨.right, c, s, l⟩ :: frames) r) := stored
  rw [detachNode, atNode]
  simp only [cell]
  cases l with
  | nil =>
    have oneChild : Stored m root (plug frames (sided .right c r s .nil)) := stored
    obtain ⟨m', root', unlinked, stored', kept⟩ := oneChild.unlink
    refine ⟨m', root', frames, r, c, rfl, by simp [unlinked], stored', ?_, ?_⟩
    · simp [toList_plug]
    · exact fun i outside => kept i (shrunk r i outside (by simp +contextual))
  | node cl ll sl lr =>
    have leftPositive := leftStored.positive_node
    simp only [rootId_node, leftPositive.ne']
    cases r with
    | nil =>
      have oneChild : Stored m root (plug frames (sided .left c (.node cl ll sl lr) s .nil)) :=
        stored
      obtain ⟨m', root', unlinked, stored', kept⟩ := oneChild.unlink
      rw [rootId_node] at unlinked
      refine ⟨m', root', frames, _, c, rfl, by simp [unlinked], stored', ?_, ?_⟩
      · simp [toList_plug]
      · refine fun i outside => kept i (shrunk _ i outside fun j inLeft => ?_)
        rw [ids_node]
        exact List.mem_append_left _ inLeft
    | node cr rl sr rr =>
      have rightPositive := rightStored.positive_node
      obtain ⟨spine, cs, t, rest, found, whole, lefts⟩ := descendLeft_spec cr rl rr sr
      have leftmost : leftmostLoop m total sr.id = some t.id := by
        rw [leftmostLoop_spec rightStored, found, rootId_node]
        simp only [ids_node, List.length_append, List.length_cons] at enough
        omega
      have twoChildren : Stored m root (plug frames
          (.node c (.node cl ll sl lr) s (plug spine (.node cs .nil t rest)))) := by
        rw [whole]
        exact stored
      obtain ⟨m', root', spliced, stored', kept⟩ := twoChildren.splice leftPositive
      rw [whole] at kept
      refine ⟨m', root', spine ++ ⟨.right, c, t, .node cl ll sl lr⟩ :: frames, rest, cs, ?_, ?_,
        stored', ?_, kept⟩
      · simp [vacate, found]
      · simp [rightPositive.ne', leftmost, spliced]
      · have items := congrArg RBNode.toList whole
        rw [toList_plug, itemsBefore_eq_nil lefts] at items
        rw [plug_append, toList_plug, toList_plug spine, itemsBefore_eq_nil lefts, ← items]
        simp [itemsBefore, itemsAfter]

/-- A black root stays the outermost frame of the vacant place. -/
theorem outermostBlack_vacate {tree : RBNode Slot} (rootBlack : (plug frames tree).isRed = black) :
    OutermostBlack (vacate frames tree).1 := by
  have outermost := outermostBlack_of_plug rootBlack
  cases tree with
  | nil => exact outermost
  | node c l s r =>
    cases l with
    | nil => exact outermost
    | node cl ll sl lr =>
      cases r with
      | nil => exact outermost
      | node cr rl sr rr =>
        obtain ⟨spine, cs, t, rest, found, _, _⟩ := descendLeft_spec cr rl rr sr
        simp only [vacate, found]
        have renamed : OutermostBlack (⟨.right, c, t, .node cl ll sl lr⟩ :: frames) := by
          have sameRoot : (plug (⟨.right, c, t, .node cl ll sl lr⟩ :: frames) .nil).isRed =
              black := Eq.trans (isRed_plug_congr frames (by rfl)) rootBlack
          exact outermostBlack_of_plug sameRoot
        intro last isLast
        rw [List.getLast?_append_of_ne_nil _ (by simp)] at isLast
        exact renamed last isLast

/-- Only a black root can become vacant. -/
theorem vacate_ne_nil (rootBlack : (plug frames (.node c l s r)).isRed = black)
    (takesRed : (vacate frames (.node c l s r)).2.2 ≠ black) :
    (vacate frames (.node c l s r)).1 ≠ [] := by
  have atRoot : frames = [] → c = black := by
    rintro rfl
    exact rootBlack
  cases l with
  | nil => exact fun empty => takesRed (atRoot empty)
  | node cl ll sl lr =>
    cases r with
    | nil => exact fun empty => takesRed (atRoot empty)
    | node cr rl sr rr =>
      obtain ⟨spine, cs, t, rest, found, _, _⟩ := descendLeft_spec cr rl rr sr
      simp [vacate, found]

/-- The tree `remove_node` leaves after its repair. -/
def erase (sentinel : RBColor) (frames : List (Frame Slot)) (tree : RBNode Slot) :
    RBNode Slot :=
  let (frames', child, color) := vacate frames tree
  if color = black then fixRemove sentinel frames' child else plug frames' child

end Taomee.Mmtree
