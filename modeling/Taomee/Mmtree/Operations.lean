import Taomee.Mmtree.Invariant

/-!
# One call

What each private operation of `c_mmtree` does to a well-formed object: the
invariant holds again, the items change in one place, and an insertion or an
overwrite keeps the balance.
-/

namespace Taomee.Mmtree

open RBTree RBTree.RBNode RBTree.RBColor RedBlack

variable {t : CMmtree} {tree : RBNode Slot} {queue : List Nat} {rest : List (Frame Slot)}
  {frame : Frame Slot}

/-- The tree is balanced as a red-black tree with a black root. -/
def Balances (tree : RBNode Slot) : Prop := ∃ n, tree.Balanced black n

/-! ## Growing -/

/-- Growing succeeds exactly when the mapping does, and moves no slot. -/
theorem WellFormed.increment (wf : WellFormed t tree queue) (mmapOk : Bool) :
    WellFormed (t.mmtreeIncrement mmapOk).1 tree queue := by
  have bounded := wf.bounded
  have growing := wf.growing
  unfold CMmtree.mmtreeIncrement
  cases mmapOk with
  | false => exact { wf with queued := wf.queued.frame (fun _ _ => rfl) rfl rfl rfl }
  | true =>
    refine { wf with
      queued := wf.queued.frame (fun _ _ => rfl) rfl rfl rfl
      left := ?_, bounded := ?_, growing := ?_ }
    · simp only [wf.left, if_true]
      omega
    · simp only [if_true]
      omega
    · simp only [if_true]
      split
      · decide
      · omega

/-! ## Allocation -/

/-- A slot has been taken for a node that is not in the tree yet. -/
structure Taken (t : CMmtree) (tree : RBNode Slot) (queue : List Nat) (id : Nat) : Prop where
  positive : 0 < id
  unused : id ∉ ids tree
  unqueued : id ∉ queue
  links : (t.map id).left = 0 ∧ (t.map id).right = 0
  queued : Queued t queue
  slots : (id :: ids tree ++ queue).Perm (List.range' 1 t.state.current)
  fresh : ∀ i, t.state.current < i → t.map i = .zero
  left : t.state.left = (t.state.total : Int) - 1 - t.state.current + t.state.qleft + 1
  bounded : t.state.current < t.state.total

namespace Taken

variable {t : CMmtree} {tree : RBNode Slot} {queue : List Nat} {id i : Nat}

theorem apart (taken : Taken t tree queue id) (member : i ∈ queue) : i ∉ ids tree := by
  have distinct := taken.slots.nodup_iff.mpr List.nodup_range'
  rw [List.cons_append, List.nodup_cons, List.nodup_append] at distinct
  exact fun inTree => distinct.2.2.2 i inTree i member rfl

theorem le_current (taken : Taken t tree queue id) (used : i = id ∨ i ∈ ids tree) :
    i ≤ t.state.current := by
  have member : i ∈ List.range' 1 t.state.current := by
    rw [← taken.slots.mem_iff, List.cons_append, List.mem_cons, List.mem_append]
    tauto
  rw [List.mem_range'_1] at member
  omega

end Taken

/-- The queue without its first slot. -/
theorem Queued.tail {id : Nat} {rest : List Nat} (queued : Queued t (id :: rest)) :
    Queued { t with state := { t.state with
      qfirst := (t.map t.state.qfirst).parent, qleft := t.state.qleft - 1 } } rest := by
  have first := queued.first id rfl
  have length := queued.length
  rw [List.length_cons] at length
  refine ⟨queued.chain.tail, ?_, ?_, ?_, ?_⟩
  · intro next isNext
    simp only [first]
    obtain ⟨others, rfl⟩ : ∃ others, rest = next :: others := by
      cases rest <;> simp_all
    exact (List.isChain_cons_cons.mp queued.chain).1
  · intro last isLast
    refine queued.last last ?_
    cases rest with
    | nil => simp at isLast
    | cons next others => rwa [List.getLast?_cons_cons]
  · simp only
    omega
  · exact fun i member => queued.links i (List.mem_cons_of_mem _ member)

/-- With a slot left, `takeSlot` finds one that nothing else uses. -/
theorem WellFormed.takeSlot (wf : WellFormed t tree queue) (available : t.state.left ≠ 0) :
    ∃ queue', Taken t.takeSlot.1 tree queue' t.takeSlot.2 := by
  have left := wf.left
  have bounded := wf.bounded
  have length := wf.queued.length
  unfold CMmtree.takeSlot
  cases queue with
  | nil =>
    rw [List.length_nil] at length
    simp only [length, lt_irrefl, if_false]
    have above : t.state.current < t.state.current + 1 := by omega
    have notInTree : t.state.current + 1 ∉ ids tree := fun member => by
      have inRange := wf.mem_slots.mp (.inl member)
      omega
    refine ⟨[], by omega, notInTree, by simp, ?_, ?_, ?_, fun i later => wf.fresh i ?_, ?_, ?_⟩
    · rw [wf.fresh _ above]
      exact ⟨rfl, rfl⟩
    · exact wf.queued.frame (fun _ _ => rfl) rfl rfl length.symm
    · have slots := wf.slots
      rw [List.range'_1_concat]
      refine (slots.cons _).trans ?_
      rw [Nat.add_comm 1]
      exact (List.perm_append_singleton _ _).symm
    · simp only at later
      omega
    · simp only
      omega
    · simp only
      omega
  | cons id rest =>
    rw [List.length_cons] at length
    have first := wf.queued.first id rfl
    rw [if_pos (by omega)]
    have distinct : (ids tree ++ id :: rest).Nodup := wf.slots.nodup_iff.mpr (List.nodup_range' ..)
    obtain ⟨_, restDistinct, apart⟩ := List.nodup_append.mp distinct
    rw [List.nodup_cons] at restDistinct
    have inRange := wf.mem_slots.mp (.inr (List.mem_cons_self : id ∈ id :: rest))
    refine ⟨rest, ?_, ?_, ?_, ?_, ?_, ?_, wf.fresh, ?_, wf.bounded⟩
    · simp only [first]
      omega
    · simp only [first]
      exact fun member => apart id member id List.mem_cons_self rfl
    · simp only [first]
      exact restDistinct.1
    · simp only [first]
      exact wf.queued.links id List.mem_cons_self
    · exact wf.queued.tail
    · simp only [first]
      exact List.perm_middle.symm.trans wf.slots
    · simp only
      omega

section TakeSlot

variable (t : CMmtree)

@[simp] theorem takeSlot_inited : t.takeSlot.1.inited = t.inited := by
  unfold CMmtree.takeSlot; split <;> rfl

@[simp] theorem takeSlot_mapped : t.takeSlot.1.mapped = t.mapped := by
  unfold CMmtree.takeSlot; split <;> rfl

@[simp] theorem takeSlot_map : t.takeSlot.1.map = t.map := by
  unfold CMmtree.takeSlot; split <;> rfl

@[simp] theorem takeSlot_incrementNum : t.takeSlot.1.incrementNum = t.incrementNum := by
  unfold CMmtree.takeSlot; split <;> rfl

@[simp] theorem takeSlot_rootId : t.takeSlot.1.state.rootId = t.state.rootId := by
  unfold CMmtree.takeSlot; split <;> rfl

@[simp] theorem takeSlot_total : t.takeSlot.1.state.total = t.state.total := by
  unfold CMmtree.takeSlot; split <;> rfl

end TakeSlot

/-! ## Insertion -/

/-- Linking a written slot at a leaf. -/
theorem Stored.attach {m m' : NodeMap} {root : Nat} {s : Slot}
    (stored : Stored m root (plug (frame :: rest) .nil))
    (fresh : s.id ∉ ids (plug (frame :: rest) .nil)) (positive : 0 < s.id)
    (atNode : m' s.id = cell .left s 0 0 frame.item.id red)
    (atParent : m' frame.item.id = (m frame.item.id).setChild frame.side s.id)
    (others : ∀ i, i ≠ s.id → i ≠ frame.item.id → m' i = m i) :
    Stored m' root (plug (frame :: rest) (.node red .nil s .nil)) := by
  obtain ⟨around, _⟩ := layout_plug.mp stored.layout
  have distinct := stored.distinct_cursor
  simp only [mem_ids_plug, ids_nil, List.not_mem_nil, false_or] at fresh
  refine ⟨layout_plug.mpr ⟨?_, positive, ?_, trivial, trivial⟩, ?_, ?_⟩
  · refine around.relink distinct ?_ fun i member notParent => ?_
    · rintro frame' rest' same
      cases same
      exact atParent
    · exact others i (fun same => fresh (same ▸ member)) notParent
  · simpa using atNode
  · rw [stored.rootEq]
    exact Stored.rootId_plug_congr rest (by simp)
  · refine (ids_plug_perm _ _).nodup_iff.mpr ?_
    simpa using ⟨fresh, distinct⟩

/-- A new red leaf in a sorted place keeps the order. -/
theorem sorted_insert {before after : List Slot} {s : Slot}
    (sorted : ((before ++ after).map Slot.key).Pairwise (· < ·))
    (below : ∀ x ∈ before, x.key < s.key) (above : ∀ x ∈ after, s.key < x.key) :
    ((before ++ s :: after).map Slot.key).Pairwise (· < ·) := by
  simp only [List.map_append, List.map_cons, List.pairwise_append, List.pairwise_cons,
    List.mem_map, List.mem_cons, forall_exists_index, and_imp, forall_apply_eq_imp_iff₂] at sorted ⊢
  obtain ⟨beforeSorted, afterSorted, apart⟩ := sorted
  refine ⟨beforeSorted, ⟨above, afterSorted⟩, ?_⟩
  rintro x member y (rfl | ⟨z, inAfter, rfl⟩)
  · exact below x member
  · exact apart x member z inAfter

/-- The side of the leaf is the side the code compares for. -/
theorem side_of_bounds {key : Int} (below : ∀ x ∈ itemsBefore (frame :: rest), x.key < key)
    (above : ∀ x ∈ itemsAfter (frame :: rest), key < x.key) :
    (if key > frame.item.key then Side.right else .left) = frame.side := by
  obtain ⟨side, color, item, sibling⟩ := frame
  cases side with
  | left =>
    have less := above item (by simp [itemsAfter])
    rw [if_neg (by simp only; omega)]
  | right =>
    have greater := below item (by simp [itemsBefore])
    rw [if_pos (by simpa using greater)]

/-- The three writes that link slot `id` below the parent of a leaf. -/
def linkNewNode (m : NodeMap) (nodeId id : Nat) (key : Int) (data : Int32) : NodeMap :=
  let m := m.modify id fun node => { node with parent := nodeId, key := key, data := data }
  let m := m.setChild (if key > (m nodeId).key then .right else .left) nodeId id
  m.setColor id red

theorem Stored.linkNewNode {m : NodeMap} {root : Nat} {id : Nat} {key : Int} (data : Int32)
    (stored : Stored m root (plug (frame :: rest) .nil))
    (fresh : id ∉ ids (plug (frame :: rest) .nil)) (positive : 0 < id)
    (links : (m id).left = 0 ∧ (m id).right = 0)
    (below : ∀ x ∈ itemsBefore (frame :: rest), x.key < key)
    (above : ∀ x ∈ itemsAfter (frame :: rest), key < x.key) :
    Stored (linkNewNode m frame.item.id id key data) root
        (plug (frame :: rest) (.node red .nil ⟨id, key, data⟩ .nil)) ∧
      ∀ i, i ≠ id → i ≠ frame.item.id →
        (Mmtree.linkNewNode m frame.item.id id key data) i = m i := by
  have different : frame.item.id ≠ id := by
    rintro rfl
    exact fresh (by simp [mem_ids_plug, Frame.fill, (ids_sided_perm _ _ _ _ _).mem_iff])
  have keyRead : (m frame.item.id).key = frame.item.key := by
    rw [stored.parent_here, cell_key]
  have others : ∀ i, i ≠ id → i ≠ frame.item.id →
      (Mmtree.linkNewNode m frame.item.id id key data) i = m i := by
    intro i notNew notParent
    simp only [Mmtree.linkNewNode, NodeMap.setColor, NodeMap.setChild,
      NodeMap.modify_of_ne _ _ notNew, NodeMap.modify_of_ne _ _ notParent]
  refine ⟨stored.attach (s := ⟨id, key, data⟩) fresh positive ?_ ?_ others, others⟩
  · simp only [Mmtree.linkNewNode, NodeMap.setColor, NodeMap.setChild, NodeMap.modify_same,
      NodeMap.modify_of_ne _ _ different.symm]
    simp [MtNode.setColor, cell, links]
  · simp only [Mmtree.linkNewNode, NodeMap.setColor, NodeMap.setChild, NodeMap.modify_same,
      NodeMap.modify_of_ne _ _ different, keyRead, side_of_bounds below above]

/-- Inserting with a slot left. -/
theorem WellFormed.insertNewNode_of_left {key : Int} (data : Int32) (wf : WellFormed t tree queue)
    (available : t.state.left ≠ 0) (whole : plug (frame :: rest) .nil = tree)
    (below : ∀ x ∈ itemsBefore (frame :: rest), x.key < key)
    (above : ∀ x ∈ itemsAfter (frame :: rest), key < x.key) (mmapOk : Bool) :
    ∃ t' tree' queue' id, t.insertNewNode mmapOk frame.item.id key data = some (t', 0) ∧
      WellFormed t' tree' queue' ∧ t'.mapped = t.mapped ∧
      tree'.toList = itemsBefore (frame :: rest) ++ ⟨id, key, data⟩ :: itemsAfter (frame :: rest) ∧
      (Balances tree → Balances tree') := by
  subst whole
  obtain ⟨queue', taken⟩ := wf.takeSlot available
  obtain ⟨stored, others⟩ := Stored.linkNewNode data wf.stored taken.unused
    taken.positive (by simpa using taken.links) below above
  have enough : (frame :: rest).length < t.state.total := by
    have bound := wf.length_frames_lt (frame :: rest) rfl
    omega
  obtain ⟨m', root', colored, arranged⟩ := mmtreeInsertColor_spec stored.rearranged rfl
    (outermostBlack_of_plug wf.rootBlack) enough
  have sameIds : ids (fixInsert (frame :: rest)
      (.node red .nil ⟨t.takeSlot.2, key, data⟩ .nil)).setBlack =
      ids (plug (frame :: rest) (.node red .nil ⟨t.takeSlot.2, key, data⟩ .nil)) := by
    rw [arranged.ids_eq]
  have parentInTree : frame.item.id ∈ ids (plug (frame :: rest) .nil) := by
    simp [mem_ids_plug, Frame.fill, (ids_sided_perm _ _ _ _ _).mem_iff]
  have kept : ∀ i ∉ ids (plug (frame :: rest) .nil), i ≠ t.takeSlot.2 → m' i = t.map i := by
    intro i outside notNew
    refine (arranged.kept i ?_).trans (others i notNew fun same => outside (same ▸ parentInTree))
    simp only [mem_ids_plug, ids_nil, ids_node, List.nil_append, List.mem_singleton,
      List.not_mem_nil, false_or, not_or] at outside ⊢
    exact ⟨notNew, outside⟩
  have items : (fixInsert (frame :: rest)
      (.node red .nil ⟨t.takeSlot.2, key, data⟩ .nil)).setBlack.toList =
      itemsBefore (frame :: rest) ++ ⟨t.takeSlot.2, key, data⟩ :: itemsAfter (frame :: rest) := by
    rw [arranged.items, toList_plug]
    simp
  have newSlots : (ids (fixInsert (frame :: rest)
      (.node red .nil ⟨t.takeSlot.2, key, data⟩ .nil)).setBlack).Perm
      (t.takeSlot.2 :: ids (plug (frame :: rest) .nil)) := by
    rw [sameIds]
    refine (ids_plug_perm _ _).trans ?_
    exact ((ids_plug_perm (frame :: rest) (RBNode.nil : RBNode Slot)).symm.cons _)
  refine ⟨{ t.takeSlot.1 with
      state := { t.takeSlot.1.state with
        rootId := root'
        left := t.takeSlot.1.state.left - 1
        nonzero := t.takeSlot.1.state.nonzero + (if data ≠ 0 then 1 else 0) }
      map := m' }, _, queue', t.takeSlot.2, ?_, ?_, by simp, items, ?_⟩
  · rw [rootId_node, linkNewNode] at colored
    simp only [CMmtree.insertNewNode, available, if_false, ne_eq, not_true_eq_false,
      takeSlot_map, takeSlot_total, takeSlot_rootId, colored]
  · refine ⟨by simpa using wf.inited, arranged.toStored, isRed_setBlack _, ?_, ?_, ?_, ?_, ?_, ?_,
      taken.bounded, by simpa using wf.growing⟩
    · rw [items]
      refine sorted_insert ?_ below above
      have sorted := wf.sorted
      rw [toList_plug] at sorted
      simpa using sorted
    · have zeroKept : m' 0 = t.map 0 := kept 0
        (fun member => (wf.stored.layout.positive member).ne' rfl) taken.positive.ne
      rw [SentinelLinks, zeroKept]
      exact wf.sentinel
    · refine taken.queued.frame (fun i member => ?_) rfl rfl rfl
      rw [takeSlot_map]
      exact kept i (taken.apart member) fun same => taken.unqueued (same ▸ member)
    · exact (newSlots.append_right _).trans taken.slots
    · intro i later
      have atFresh := taken.fresh i later
      rw [takeSlot_map] at atFresh
      have above := taken.le_current (i := i)
      refine (kept i (fun inTree => ?_) fun same => ?_).trans atFresh
      · exact absurd (above (.inr inTree)) (by simpa using later)
      · exact absurd (above (.inl same)) (by simpa using later)
    · have left := taken.left
      simp only
      omega
  · rintro ⟨n, balanced⟩
    obtain ⟨p, c, n', fits, leaf, _⟩ := fits_of_plug balanced
    cases leaf
    exact balanced_fixInsert fits (.red .nil .nil)

/-- `insert_new_node`: it fails exactly when the tree has to grow and the mapping
fails. -/
theorem WellFormed.insertNewNode {key : Int} (data : Int32) (wf : WellFormed t tree queue)
    (whole : plug (frame :: rest) .nil = tree)
    (below : ∀ x ∈ itemsBefore (frame :: rest), x.key < key)
    (above : ∀ x ∈ itemsAfter (frame :: rest), key < x.key) (mmapOk : Bool) :
    (t.state.left = 0 ∧ mmapOk = false ∧
      ∃ t', t.insertNewNode mmapOk frame.item.id key data = some (t', -1) ∧
        WellFormed t' tree queue) ∨
    ∃ t' tree' queue' id, t.insertNewNode mmapOk frame.item.id key data = some (t', 0) ∧
      WellFormed t' tree' queue' ∧ (t.mapped = true → t'.mapped = true) ∧
      tree'.toList = itemsBefore (frame :: rest) ++ ⟨id, key, data⟩ :: itemsAfter (frame :: rest) ∧
      (Balances tree → Balances tree') := by
  by_cases full : t.state.left = 0
  · have grown := wf.increment mmapOk
    cases mmapOk with
    | false =>
      refine .inl ⟨full, rfl, _, ?_, grown⟩
      simp [CMmtree.insertNewNode, full, CMmtree.mmtreeIncrement]
    | true =>
      right
      have available : (t.mmtreeIncrement true).1.state.left ≠ 0 := by
        have bounded := wf.bounded
        have growing := wf.growing
        simp only [CMmtree.mmtreeIncrement, if_true]
        omega
      have afterGrowth : t.insertNewNode true frame.item.id key data =
          (t.mmtreeIncrement true).1.insertNewNode true frame.item.id key data := by
        have returned : (t.mmtreeIncrement true).2 = 0 := rfl
        simp only [CMmtree.insertNewNode, full, available, if_true, if_false, returned]
      obtain ⟨t', tree', queue', id, result, wf', mapped, items, balances⟩ :=
        grown.insertNewNode_of_left data available whole below above true
      exact ⟨t', tree', queue', id, afterGrowth.trans result, wf', fun _ => mapped, items, balances⟩
  · right
    obtain ⟨t', tree', queue', id, result, wf', mapped, items, balances⟩ :=
      wf.insertNewNode_of_left data full whole below above mmapOk
    exact ⟨t', tree', queue', id, result, wf', mapped.trans, items, balances⟩

theorem insertRootNode_map_of_ne (t : CMmtree) (key : Int) (data : Int32) {i : Nat}
    (different : i ≠ t.state.current + 1) : (t.insertRootNode key data).map i = t.map i := by
  simp only [CMmtree.insertRootNode, NodeMap.modify_of_ne _ _ different]

/-- `insert_root_node`, which takes a slot that was never used. -/
theorem WellFormed.insertRootNode (wf : WellFormed t .nil queue) (key : Int) (data : Int32)
    (fits : t.state.current + 1 < t.state.total) :
    WellFormed (t.insertRootNode key data)
      (.node black .nil ⟨t.state.current + 1, key, data⟩ .nil) queue where
  inited := wf.inited
  stored := by
    refine ⟨⟨by simp, ?_, trivial, trivial⟩, rfl, by simp⟩
    simp [CMmtree.insertRootNode, MtNode.zero, cell]
  rootBlack := rfl
  sorted := by simp
  sentinel := by
    exact wf.sentinel
  queued := by
    refine wf.queued.frame (fun id member => ?_) rfl rfl rfl
    have inRange := wf.mem_slots.mp (.inr member)
    exact insertRootNode_map_of_ne t key data (by omega)
  slots := by
    have slots := wf.slots
    simp only [CMmtree.insertRootNode]
    rw [List.range'_1_concat]
    refine (slots.cons _).trans ?_
    rw [Nat.add_comm 1]
    exact (List.perm_append_singleton _ _).symm
  fresh id later := by
    simp only [CMmtree.insertRootNode] at later
    exact (insertRootNode_map_of_ne t key data (by omega)).trans (wf.fresh id (by omega))
  left := by
    have left := wf.left
    simp only [CMmtree.insertRootNode]
    omega
  bounded := fits
  growing := wf.growing

/-! ## Overwriting -/

/-- The tree with other data at the cursor. -/
def overwrite (frames : List (Frame Slot)) (c : RBColor) (l : RBNode Slot) (s : Slot)
    (r : RBNode Slot) (data : Int32) : RBNode Slot :=
  plug frames (.node c l { s with data := data } r)

/-- `update_node_value`: an operation without a result changes nothing but the
error, any other rewrites one datum. -/
theorem WellFormed.updateNodeValue {frames : List (Frame Slot)} {c : RBColor} {l r : RBNode Slot}
    {s : Slot} (wf : WellFormed t (plug frames (.node c l s r)) queue) (data : Int32) (op : Int) :
    match CMmtree.opResult op s.data data with
    | .error msg =>
      t.updateNodeValue s.id data op = (t.setErr MMT_IFACE_EOP msg, -1)
    | .ok new =>
      ∃ t', t.updateNodeValue s.id data op = (t', 0) ∧ t'.mapped = t.mapped ∧
        WellFormed t' (overwrite frames c l s r new) queue := by
  have atNode := wf.stored.here_node
  have dataRead : (t.map s.id).data = s.data := by rw [atNode, cell_data]
  cases result : CMmtree.opResult op s.data data with
  | error msg => simp only [CMmtree.updateNodeValue, dataRead, result]
  | ok new =>
    have written : (t.map.modify s.id fun node => { node with data := new }) s.id =
        cell .left { s with data := new } (rootId l) (rootId r) (parentId frames) c := by
      rw [NodeMap.modify_same, atNode]
      rfl
    have leftRead : Stored t.map t.state.rootId (plug frames (sided .left c l s r)) := wf.stored
    have changed : Stored (t.map.modify s.id fun node => { node with data := new })
        t.state.rootId (overwrite frames c l s r new) :=
      leftRead.recell rfl (fun i different => NodeMap.modify_of_ne _ _ different) written
    have sameIds : ids (overwrite frames c l s r new) = ids (plug frames (.node c l s r)) := by
      simp [ids, overwrite, toList_plug]
    have sameKeys : (overwrite frames c l s r new).toList.map Slot.key =
        (plug frames (.node c l s r)).toList.map Slot.key := by
      simp [overwrite, toList_plug]
    have elsewhere : ∀ i ∉ ids (plug frames (.node c l s r)),
        (t.map.modify s.id fun node => { node with data := new }) i = t.map i := by
      intro i outside
      refine NodeMap.modify_of_ne _ _ fun same => outside ?_
      simp [mem_ids_plug, same]
    simp only [CMmtree.updateNodeValue, dataRead, result]
    refine ⟨_, rfl, rfl, ?_⟩
    refine ⟨wf.inited, changed, ?_, sameKeys ▸ wf.sorted, ?_, ?_, sameIds ▸ wf.slots, ?_,
      wf.left, wf.bounded, wf.growing⟩
    · exact Eq.trans (isRed_plug_congr frames (by rfl)) wf.rootBlack
    · have zeroKept := elsewhere 0 fun member => (wf.stored.layout.positive member).ne' rfl
      rw [SentinelLinks, zeroKept]
      exact wf.sentinel
    · exact wf.queued.frame (fun i member => elsewhere i (wf.apart member)) rfl rfl rfl
    · exact fun i later => (elsewhere i fun member => absurd (wf.mem_slots.mp (.inl member)).2
        (by simpa using later)).trans (wf.fresh i later)

/-- Balance does not depend on what the slots hold. -/
theorem Balances.replace {frames : List (Frame Slot)} {c : RBColor} {l r : RBNode Slot}
    {s : Slot} (balances : Balances (plug frames (.node c l s r))) (other : Slot) :
    Balances (plug frames (.node c l other r)) := by
  obtain ⟨n, balanced⟩ := balances
  obtain ⟨p, c', n', fits, here, alternates⟩ := fits_of_plug balanced
  refine fits.plug (c := c') ?_ alternates
  cases here with
  | red left right => exact .red left right
  | black left right => exact .black left right

/-! ## Removal -/

/-- Appending a cleared slot to the queue. -/
theorem Queued.push {t' : CMmtree} {id : Nat} (queued : Queued t queue) (distinct : queue.Nodup)
    (others : ∀ i ∈ queue, i ≠ t.state.qlast → t'.map i = t.map i)
    (linked : queue ≠ [] → t'.map t.state.qlast = (t.map t.state.qlast).setParent id)
    (cleared : t'.map id = .zero)
    (first : t'.state.qfirst = if t.state.qleft = 0 then id else t.state.qfirst)
    (last : t'.state.qlast = id) (length : t'.state.qleft = t.state.qleft + 1) :
    Queued t' (queue ++ [id]) := by
  have counted := queued.length
  rcases List.eq_nil_or_concat queue with rfl | ⟨front, final, rfl⟩
  · refine ⟨by simp, ?_, ?_, by simp [length, counted], ?_⟩
    · simp [first, counted]
    · simp [last]
    · simp [cleared, MtNode.zero]
  · have isLast : t.state.qlast = final := queued.last final (by simp)
    rw [List.concat_eq_append] at *
    have notLast : ∀ i ∈ front, i ≠ final := by
      rw [List.nodup_append] at distinct
      exact fun i member => distinct.2.2 i member final (by simp)
    have frontKept : ∀ i ∈ front, t'.map i = t.map i := fun i member =>
      others i (by simp [member]) (isLast ▸ notLast i member)
    have lastLinked : t'.map final = (t.map final).setParent id := by
      rw [← isLast]
      exact linked (by simp)
    obtain ⟨frontChain, _, joint⟩ := List.isChain_append.mp queued.chain
    refine ⟨?_, ?_, by simp [last], by simp [length, counted], ?_⟩
    · refine List.isChain_append.mpr ⟨List.isChain_append.mpr ⟨?_, by simp, ?_⟩, by simp, ?_⟩
      · refine frontChain.imp_of_mem_imp fun i next member _ linkedHere => ?_
        rw [frontKept i member, linkedHere]
      · intro i isEnd next isNext
        rw [frontKept i (List.mem_of_mem_getLast? isEnd)]
        exact joint i isEnd next isNext
      · simp [lastLinked, MtNode.setParent]
    · intro i isFirst
      rw [first, if_neg (by simp [counted])]
      refine queued.first i ?_
      rwa [List.head?_append_of_ne_nil _ (by simp)] at isFirst
    · intro i member
      rw [List.mem_append, List.mem_append, List.mem_singleton, List.mem_singleton] at member
      rcases member with (inFront | rfl) | rfl
      · rw [frontKept i inFront]
        exact queued.links i (by simp [inFront])
      · rw [lastLinked]
        exact queued.links i (by simp)
      · simp [cleared, MtNode.zero]

section Removal

variable {t : CMmtree} {queue : List Nat} {frames : List (Frame Slot)} {c : RBColor}
  {l r : RBNode Slot} {s : Slot}

/-- The items that are left. -/
theorem toList_erase (wf : WellFormed t (plug frames (.node c l s r)) queue) :
    (erase (t.map 0).color frames (.node c l s r)).toList =
      itemsBefore frames ++ (l.toList ++ r.toList) ++ itemsAfter frames := by
  have enough : (ids (.node c l s r)).length < (ids (.node c l s r)).length + 1 := by omega
  obtain ⟨_, _, frames', child, color, vacated, _, _, items, _⟩ := wf.stored.detach enough
  rw [erase, vacated, ← items]
  simp only
  split
  · exact toList_fixRemove _ _ _
  · rfl

/-- The slots of the tree before are those of the tree after and the removed one. -/
theorem ids_erase_perm (wf : WellFormed t (plug frames (.node c l s r)) queue) :
    (ids (plug frames (.node c l s r))).Perm
      (s.id :: ids (erase (t.map 0).color frames (.node c l s r))) := by
  refine List.perm_iff_count.mpr fun i => ?_
  simp only [ids, toList_erase wf, toList_plug, toList_node, List.map_append, List.map_cons,
    List.count_append, List.count_cons]
  omega

/-- `remove_node` up to the end of its repair. -/
theorem WellFormed.repair (wf : WellFormed t (plug frames (.node c l s r)) queue) :
    ∃ m₁ root₁ child parent color m₂ root₂,
      CMmtree.detachNode t.map t.state.total t.state.rootId s.id =
        some (m₁, root₁, child, parent, color) ∧
      (if color = black then mmtRemoveColor t.state.total m₁ root₁ child parent
        else some (m₁, root₁)) = some (m₂, root₂) ∧
      Stored m₂ root₂ (erase (t.map 0).color frames (.node c l s r)) ∧ SentinelLinks m₂ ∧
      ∀ i, i ≠ 0 → i ∉ ids (plug frames (.node c l s r)) → m₂ i = t.map i := by
  have enough : (ids (.node c l s r)).length < t.state.total := by
    have bound := wf.length_frames_lt frames rfl
    omega
  obtain ⟨m₁, root₁, frames', child, color, vacated, detached, stored₁, items₁, kept₁⟩ :=
    wf.stored.detach enough
  have notZero : ∀ i ∈ ids (plug frames (.node c l s r)), i ≠ 0 := fun i member =>
    (wf.stored.layout.positive member).ne'
  have zero₁ : m₁ 0 = t.map 0 := kept₁ 0 fun member => notZero 0 member rfl
  have links₁ : SentinelLinks m₁ := by
    rw [SentinelLinks, zero₁]
    exact wf.sentinel
  have repaired : ∃ m₂ root₂ color₂,
      (if color = black then mmtRemoveColor t.state.total m₁ root₁ (rootId child) (parentId frames')
        else some (m₁, root₁)) = some (m₂, root₂) ∧
      Rearranged (m₁.setColor 0 color₂) (plug frames' child) m₂ root₂
        (erase (t.map 0).color frames (.node c l s r)) := by
    rw [erase, vacated]
    simp only
    split
    · have fuel : frames'.length < t.state.total := by
        have counted := length_le_ids_plug frames' child
        have whole := wf.length_frames_lt [] rfl
        have sameLength : (ids (plug frames' child)).length + 1 =
            (ids (plug frames (.node c l s r))).length := by
          simp only [ids, items₁, toList_plug, toList_node, List.length_map, List.length_append,
            List.length_cons]
          omega
        omega
      obtain ⟨m₂, root₂, color₂, result, arranged⟩ :=
        mmtRemoveColor_spec stored₁.rearranged links₁ fuel
      rw [zero₁] at arranged
      exact ⟨m₂, root₂, color₂, result, arranged⟩
    · exact ⟨m₁, root₁, _, rfl, stored₁.rearranged.setColor_self⟩
  obtain ⟨m₂, root₂, color₂, result, arranged⟩ := repaired
  refine ⟨m₁, root₁, _, _, color, m₂, root₂, detached, result, arranged.toStored, ?_, ?_⟩
  · rw [SentinelLinks, arranged.at_zero]
    exact links₁.setColor
  · intro i nonzero outside
    have slots := ids_erase_perm wf
    have outsideAfter : i ∉ ids (plug frames' child) := by
      rw [slots.mem_iff, List.mem_cons, not_or, arranged.ids_eq] at outside
      exact outside.2
    rw [arranged.kept i outsideAfter, NodeMap.setColor, NodeMap.modify_of_ne _ _ nonzero]
    exact kept₁ i outside

/-- The tree stays black at the root. -/
theorem isRed_erase (wf : WellFormed t (plug frames (.node c l s r)) queue) :
    (erase (t.map 0).color frames (.node c l s r)).isRed = black := by
  rw [erase]
  simp only
  split
  · exact isRed_fixRemove (outermostBlack_vacate wf.rootBlack) _ _
  · rename_i takesRed
    exact isRed_plug_of_outermost (outermostBlack_vacate wf.rootBlack)
      (vacate_ne_nil wf.rootBlack takesRed)

/-- `remove_node` takes the item out of the tree and queues its slot. -/
theorem WellFormed.removeNode (wf : WellFormed t (plug frames (.node c l s r)) queue) :
    ∃ t' root', t.removeNode t.state.rootId s.id = some (t', root', 0) ∧
      t'.mapped = t.mapped ∧ t'.state.rootId = t.state.rootId ∧
      WellFormed { t' with state := { t'.state with rootId := root' } }
        (erase (t.map 0).color frames (.node c l s r)) (queue ++ [s.id]) := by
  obtain ⟨m₁, root₁, child, parent, color, m₂, root₂, detached, result, stored₂, links₂, kept₂⟩ :=
    wf.repair
  have inTree : s.id ∈ ids (plug frames (.node c l s r)) := by simp [mem_ids_plug]
  have inTotal := wf.id_lt_total inTree
  have slots := ids_erase_perm wf
  have distinct := wf.slots.nodup_iff.mpr List.nodup_range'
  rw [(slots.append_right queue).nodup_iff, List.cons_append, List.nodup_cons,
    List.nodup_append, List.mem_append, not_or] at distinct
  obtain ⟨⟨notInTree, notQueued⟩, _, queueDistinct, apart⟩ := distinct
  have lastQueued : t.state.qleft ≠ 0 → t.state.qlast ∈ queue := by
    intro some
    rw [wf.queued.length, ne_eq, List.length_eq_zero_iff] at some
    rw [wf.queued.last _ (List.getLast?_eq_some_getLast some)]
    exact List.getLast_mem some
  have same₄ : ∀ i, i ≠ s.id → (t.state.qleft ≠ 0 → i ≠ t.state.qlast) →
      (t.queueNode m₂ s.id).map i = m₂ i := by
    intro i notHere notLast
    have same₃ := NodeMap.modify_of_ne m₂ (fun _ => MtNode.zero) notHere
    by_cases empty : t.state.qleft = 0
    · simp only [CMmtree.queueNode, if_pos empty, same₃]
    · simp only [CMmtree.queueNode, if_neg empty, NodeMap.setParent,
        NodeMap.modify_of_ne _ _ (notLast empty), same₃]
  have outside₄ : ∀ i, i ≠ 0 → i ∉ ids (plug frames (.node c l s r)) →
      (t.state.qleft ≠ 0 → i ≠ t.state.qlast) → (t.queueNode m₂ s.id).map i = t.map i := by
    intro i nonzero outside notLast
    exact (same₄ i (fun same => outside (same ▸ inTree)) notLast).trans (kept₂ i nonzero outside)
  have queuedNonzero : ∀ i ∈ queue, i ≠ 0 := fun i member =>
    Nat.pos_iff_ne_zero.mp (wf.mem_slots.mp (.inr member)).1
  refine ⟨t.queueNode m₂ s.id, root₂, ?_, rfl, rfl,
    ⟨wf.inited, ?_, isRed_erase wf, ?_, ?_, ?_, ?_, ?_, ?_, wf.bounded, wf.growing⟩⟩
  · simp only [CMmtree.removeNode, inTotal, if_true, detached, result]
  · refine ⟨stored₂.layout.frame fun i member => ?_, stored₂.rootEq, stored₂.distinct⟩
    refine same₄ i (fun same => notInTree (same ▸ member)) fun some same => ?_
    exact apart i member _ (lastQueued some) same
  · have sorted := wf.sorted
    rw [toList_plug, toList_node] at sorted
    rw [toList_erase wf]
    refine sorted.sublist (List.Sublist.map _ ?_)
    refine List.Sublist.append (List.Sublist.append_left ?_ _) (List.Sublist.refl _)
    exact List.Sublist.append_left (List.sublist_cons_self _ _) _
  · rw [SentinelLinks, same₄ 0]
    · exact links₂
    · exact (wf.stored.layout.positive inTree).ne
    · exact fun some => (queuedNonzero _ (lastQueued some)).symm
  · refine wf.queued.push queueDistinct ?_ ?_ ?_ rfl rfl rfl
    · intro i member notLast
      exact outside₄ i (queuedNonzero i member) (wf.apart member) fun _ => notLast
    · intro nonempty
      have some : t.state.qleft ≠ 0 := by
        rw [wf.queued.length, ne_eq, List.length_eq_zero_iff]
        exact nonempty
      have lastIn := lastQueued some
      have notHere : t.state.qlast ≠ s.id := fun same => notQueued (same ▸ lastIn)
      simp only [CMmtree.queueNode, if_neg some, NodeMap.setParent, NodeMap.modify_same,
        NodeMap.modify_of_ne _ _ notHere, kept₂ _ (queuedNonzero _ lastIn) (wf.apart lastIn)]
    · by_cases empty : t.state.qleft = 0
      · simp only [CMmtree.queueNode, if_pos empty, NodeMap.modify_same]
      · have notLast : s.id ≠ t.state.qlast := fun same => notQueued (same ▸ lastQueued empty)
        simp only [CMmtree.queueNode, if_neg empty, NodeMap.setParent,
          NodeMap.modify_of_ne _ _ notLast, NodeMap.modify_same]
  · rw [← List.append_assoc]
    refine (List.perm_append_singleton _ _).trans ?_
    exact (slots.symm.append_right queue).trans wf.slots
  · intro i later
    have outside : i ∉ ids (plug frames (.node c l s r)) := fun member =>
      absurd (wf.mem_slots.mp (.inl member)).2 (by simpa [CMmtree.queueNode] using later)
    have unqueued : i ∉ queue := fun member =>
      absurd (wf.mem_slots.mp (.inr member)).2 (by simpa [CMmtree.queueNode] using later)
    refine (outside₄ i ?_ outside fun some same => unqueued (same ▸ lastQueued some)).trans
      (wf.fresh i later)
    exact Nat.pos_iff_ne_zero.mp (Nat.zero_lt_of_lt later)
  · have left := wf.left
    simp only [CMmtree.queueNode]
    omega

end Removal

end Taomee.Mmtree
