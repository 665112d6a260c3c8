import Taomee.Mmtree.Runs

/-!
# Walking the tree in key order

`next` finds the in-order successor of a node without a stack: the leftmost node on its right, or
the first slot on the way up with a greater key. It tells the sides apart by comparing keys, at
the root with whatever key the sentinel has. `traversal` calls back on one node after the other.
-/

namespace Taomee.Mmtree

open RBTree RBTree.RBNode RBTree.RBColor RedBlack

namespace CMmtree

/-- The loop of `next` that goes up. -/
def climbLoop (m : NodeMap) : Nat → Nat → Option Nat
  | 0, _ => none
  | fuel + 1, id =>
    if 0 < id then
      let parentId := (m id).parent
      if (m id).key < (m parentId).key then some parentId else climbLoop m fuel parentId
    else some id

/-- `next`; -1 stands for an id outside the array. -/
def next (t : CMmtree) (nodeId : Nat) : Option Int :=
  if 0 < nodeId ∧ nodeId < t.state.total then
    if 0 < (t.map nodeId).right then
      (leftmostLoop t.map t.state.total (t.map nodeId).right).map Int.ofNat
    else (climbLoop t.map t.state.total nodeId).map Int.ofNat
  else some (-1)

section Callback

variable {σ : Type} (cb : Int → Int32 → σ → Option σ)

/-- The loop of `traversal`, with `*p_param`. -/
def traversalLoop (t : CMmtree) : Nat → Int → σ → Option σ
  | 0, _, _ => none
  | fuel + 1, nextId, param =>
    if 0 < nextId then do
      let node := t.map nextId.toNat
      let param ← cb node.key node.data param
      let nextId ← t.next nextId.toNat
      traversalLoop t fuel nextId param
    else some param

/-- `traversal`; the third component is `*p_param`. -/
def traversal (t : CMmtree) (param : σ) : Option (CMmtree × Int × σ) :=
  t.requireInited (·, -1, param) <| t.requireMapped (·, -1, param) <|
    if t.state.rootId = 0 then some (t, 0, param)
    else do
      let id ← leftmostLoop t.map t.state.total t.state.rootId
      let param ← cb (t.map id).key (t.map id).data param
      let nextId ← t.next id
      let param ← traversalLoop cb t t.state.total nextId param
      some (t, 0, param)

end Callback

end CMmtree

/-- The array encodes a search tree in slots that are mapped. -/
structure Ordered (t : CMmtree) (tree : RBNode Slot) : Prop where
  stored : Stored t.map t.state.rootId tree
  sorted : (tree.toList.map Slot.key).Pairwise (· < ·)
  inTotal : ∀ id ∈ ids tree, id < t.state.total

theorem WellFormed.ordered {queue : List Nat} (wf : WellFormed t tree queue) : Ordered t tree :=
  ⟨wf.stored, wf.sorted, fun _ member => wf.id_lt_total member⟩

/-- The slot of the first of some items, 0 for none. -/
def firstId (items : List Slot) : Nat := (items.head?.map Slot.id).getD 0

@[simp] theorem firstId_nil : firstId [] = 0 := rfl

@[simp] theorem firstId_cons (s : Slot) (items : List Slot) : firstId (s :: items) = s.id := rfl

/-! ## One step -/

variable {t : CMmtree} {m : NodeMap} {root : Nat} {tree here : RBNode Slot}
  {frames : List (Frame Slot)} {c : RBColor} {l r : RBNode Slot} {s : Slot}

theorem sorted_cursor (frames : List (Frame Slot)) (here : RBNode Slot)
    (sorted : ((plug frames here).toList.map Slot.key).Pairwise (· < ·)) :
    (here.toList.map Slot.key).Pairwise (· < ·) := by
  rw [toList_plug, List.map_append, List.map_append] at sorted
  exact (List.pairwise_append.mp (List.pairwise_append.mp sorted).1).2.1

/-- The way up from a cursor ends at the first item after it. -/
theorem climbLoop_spec {fuel : Nat} (stored : Stored m root (plug frames (.node c l s r)))
    (sorted : ((plug frames (.node c l s r)).toList.map Slot.key).Pairwise (· < ·))
    (enough : frames.length + 1 < fuel) :
    CMmtree.climbLoop m fuel s.id = some (firstId (itemsAfter frames)) := by
  obtain ⟨fuel, rfl⟩ : ∃ n, fuel = n + 1 := ⟨fuel - 1, by omega⟩
  have positive := stored.positive_node
  have atNode := stored.here_node
  induction frames generalizing c l s r fuel with
  | nil =>
    -- Above the root both ways lead to 0, whatever the key of the sentinel is.
    obtain ⟨fuel, rfl⟩ : ∃ n, fuel = n + 1 := ⟨fuel - 1, by simp at enough; omega⟩
    simp [CMmtree.climbLoop, atNode, itemsAfter]
  | cons frame rest ih =>
    have atParent := stored.parent_here frame rest
    rw [CMmtree.climbLoop, if_pos positive, atNode]
    simp only [cell_parent, cell_key, parentId_cons, atParent]
    simp only [List.length_cons] at enough
    obtain ⟨fuel, rfl⟩ : ∃ n, fuel = n + 1 := ⟨fuel - 1, by omega⟩
    have filled := sorted_cursor rest (frame.fill (.node c l s r)) sorted
    obtain ⟨side, c', f, sibling⟩ := frame
    cases side with
    | left =>
      have less : s.key < f.key := by
        simp only [Frame.fill, sided, toList_node, List.map_append] at filled
        exact (List.pairwise_append.mp filled).2.2 _ (by simp) _ (by simp)
      rw [if_pos less]
      rfl
    | right =>
      have greater : f.key < s.key := by
        simp only [Frame.fill, sided, toList_node, List.map_append] at filled
        exact (List.pairwise_cons.mp (List.pairwise_append.mp filled).2.1).1 _ (by simp)
      rw [if_neg greater.not_gt]
      have above : Stored m root (plug rest (.node c' sibling f (.node c l s r))) := stored
      exact ih above sorted fuel (by omega) above.positive_node above.here_node

/-- The leftmost node of a tree holds its first item. -/
theorem leftmostLoop_first {fuel : Nat} (stored : Stored m root (plug frames (.node c l s r)))
    (enough : (ids l).length < fuel) :
    CMmtree.leftmostLoop m fuel s.id = some (firstId (RBNode.node c l s r).toList) := by
  obtain ⟨spine, c', first, rest, found, whole, lefts⟩ := descendLeft_spec c l r s
  rw [leftmostLoop_spec stored enough, found, rootId_node, ← whole, toList_plug,
    itemsBefore_eq_nil lefts]
  rfl

namespace Ordered

/-- A cursor has fewer nodes and frames than there are slots. -/
theorem length_lt (ordered : Ordered t tree) (frames : List (Frame Slot))
    (whole : plug frames here = tree) :
    frames.length + (ids here).length + 1 ≤ t.state.total ∨ tree = .nil := by
  cases tree with
  | nil => exact .inr rfl
  | node c l s r =>
    have counted := length_le_ids_plug frames here
    rw [whole] at counted
    have inside : ∀ id ∈ ids (.node c l s r), id ∈ List.range' 1 (t.state.total - 1) := by
      intro id member
      have positive := ordered.stored.layout.positive member
      have below := ordered.inTotal id member
      rw [List.mem_range'_1]
      omega
    have fewer := (ordered.stored.distinct.subperm inside).length_le
    rw [List.length_range'] at fewer
    have some : 0 < (ids (RBNode.node c l s r)).length := by simp
    omega

/-- `next` goes to the next item in key order, and to 0 from the last. -/
theorem next_spec (ordered : Ordered t (plug frames (.node c l s r))) :
    t.next s.id = some (firstId (r.toList ++ itemsAfter frames) : Int) := by
  have stored := ordered.stored
  have positive := stored.positive_node
  have member : s.id ∈ ids (plug frames (.node c l s r)) := by simp [mem_ids_plug]
  have below := ordered.inTotal s.id member
  have short : frames.length + (ids (.node c l s r)).length + 1 ≤ t.state.total := by
    refine (ordered.length_lt frames rfl).resolve_right fun empty => ?_
    rw [empty] at member
    cases member
  simp only [ids_node, List.length_append, List.length_cons] at short
  have rightRead : (t.map s.id).right = rootId r := by rw [stored.here_node]; rfl
  rw [CMmtree.next, if_pos ⟨positive, below⟩, rightRead]
  cases r with
  | nil =>
    rw [climbLoop_spec stored ordered.sorted (by omega)]
    rfl
  | node c' l' s' r' =>
    have rightStored : Stored t.map t.state.rootId
      (plug (⟨.right, c, s, l⟩ :: frames) (.node c' l' s' r')) := stored
    simp only [ids_node, List.length_append] at short
    rw [rootId_node, if_pos rightStored.positive_node,
      leftmostLoop_first rightStored (by omega)]
    cases l' <;> simp [firstId]

end Ordered

/-! ## The whole walk -/

/-- There is a cursor at every item of a tree. -/
theorem exists_cursor {α : Type*} {tree : RBNode α} {before after : List α} {item : α}
    (split : tree.toList = before ++ item :: after) :
    ∃ frames c l r, plug frames (.node c l item r) = tree ∧
      r.toList ++ itemsAfter frames = after := by
  induction tree generalizing before after with
  | nil => simp at split
  | node c l s r leftHyp rightHyp =>
    rw [toList_node] at split
    rcases List.append_eq_append_iff.mp split with
      ⟨more, rfl, tail⟩ | ⟨more, whole, tail⟩
    · cases more with
      | nil =>
        obtain ⟨rfl, rfl⟩ := List.cons_eq_cons.mp tail
        exact ⟨[], c, l, r, rfl, by simp [itemsAfter]⟩
      | cons first more =>
        obtain ⟨rfl, inRight⟩ := List.cons_eq_cons.mp tail
        obtain ⟨frames, c', l', r', same, rest⟩ := rightHyp inRight
        refine ⟨frames ++ [⟨.right, c, s, l⟩], c', l', r', ?_, ?_⟩
        · rw [plug_append, same]
          rfl
        · rw [itemsAfter_append]
          simpa [itemsAfter] using rest
    · cases more with
      | nil =>
        obtain ⟨rfl, rfl⟩ := List.cons_eq_cons.mp tail.symm
        exact ⟨[], c, l, r, rfl, by simp [itemsAfter]⟩
      | cons first more =>
        obtain ⟨rfl, rfl⟩ := List.cons_eq_cons.mp tail
        obtain ⟨frames, c', l', r', same, rest⟩ := leftHyp whole
        refine ⟨frames ++ [⟨.left, c, s, r⟩], c', l', r', ?_, ?_⟩
        · rw [plug_append, same]
          rfl
        · rw [itemsAfter_append, ← List.append_assoc, rest]
          simp [itemsAfter]

namespace Ordered

/-- What follows an item in the tree follows its slot in the walk. -/
theorem next_after (ordered : Ordered t tree) (before : List Slot) {after : List Slot}
    (split : tree.toList = before ++ s :: after) : t.next s.id = some (firstId after : Int) := by
  obtain ⟨frames, c, l, r, rfl, rfl⟩ := exists_cursor split
  exact ordered.next_spec

/-- What an item's slot holds. -/
theorem map_item (ordered : Ordered t tree) (member : s ∈ tree.toList) :
    0 < s.id ∧ (t.map s.id).key = s.key ∧ (t.map s.id).data = s.data := by
  obtain ⟨before, after, split⟩ := List.append_of_mem member
  obtain ⟨frames, c, l, r, rfl, -⟩ := exists_cursor split
  rw [ordered.stored.here_node]
  exact ⟨ordered.stored.positive_node, rfl, rfl⟩

theorem length_lt_total (ordered : Ordered t tree) (nonempty : tree ≠ .nil) :
    tree.toList.length < t.state.total := by
  have short := (ordered.length_lt [] rfl).resolve_right nonempty
  simp only [ids, List.length_map] at short
  omega

section Callback

variable {σ : Type} (cb : Int → Int32 → σ → Option σ)

theorem traversalLoop_spec (ordered : Ordered t tree) (before : List Slot) {items : List Slot}
    (split : tree.toList = before ++ items) {fuel : Nat} (enough : items.length < fuel)
    (param : σ) :
    t.traversalLoop cb fuel (firstId items) param =
      items.foldlM (fun param s => cb s.key s.data param) param := by
  obtain ⟨fuel, rfl⟩ : ∃ n, fuel = n + 1 := ⟨fuel - 1, by omega⟩
  induction items generalizing before fuel param with
  | nil => rfl
  | cons s rest ih =>
    obtain ⟨positive, key, data⟩ := ordered.map_item (s := s) (by simp [split])
    simp only [List.length_cons] at enough
    obtain ⟨fuel, rfl⟩ : ∃ n, fuel = n + 1 := ⟨fuel - 1, by omega⟩
    rw [CMmtree.traversalLoop, firstId_cons, if_pos (by exact_mod_cast positive)]
    simp only [Int.toNat_natCast, key, data, ordered.next_after before split, List.foldlM_cons]
    cases cb s.key s.data param with
    | none => rfl
    | some param => exact ih (before ++ [s]) (by simp [split]) param fuel (by omega)

/-- `traversal` calls back on the items in order. -/
theorem traversal_spec (ordered : Ordered t tree) (inited : t.inited = true)
    (mapped : t.mapped = true) (param : σ) :
    t.traversal cb param =
      (tree.toList.foldlM (fun param s => cb s.key s.data param) param).map fun param =>
        (t, 0, param) := by
  have rootEq := ordered.stored.rootEq
  simp only [CMmtree.traversal, CMmtree.requireInited, CMmtree.requireMapped, inited, mapped,
    if_true]
  cases tree with
  | nil => simp [rootEq]
  | node c l s r =>
    have start : Stored t.map t.state.rootId (plug [] (.node c l s r)) := ordered.stored
    have short := ordered.length_lt_total (by simp)
    have shortLeft : (ids l).length < t.state.total := by
      simp only [toList_node, List.length_append] at short
      rw [ids, List.length_map]
      omega
    rw [if_neg (by rw [rootEq]; exact start.positive_node.ne'), rootEq, rootId_node,
      leftmostLoop_first start shortLeft]
    obtain ⟨first, rest, items⟩ := List.exists_cons_of_ne_nil
      (show (RBNode.node c l s r).toList ≠ [] by simp)
    obtain ⟨-, key, data⟩ := ordered.map_item (s := first) (by simp [items])
    rw [items] at short ⊢
    simp only [firstId_cons, Option.bind_eq_bind, Option.bind_some, key, data,
      ordered.next_after [] items, List.foldlM_cons]
    cases cb first.key first.data param with
    | none => rfl
    | some param =>
      simp only [Option.bind_some]
      rw [ordered.traversalLoop_spec cb [first] items (by simp at short; omega)]
      cases rest.foldlM (fun param s => cb s.key s.data param) param <;> rfl

end Callback

end Ordered

/-- In a search tree whose parent fields point back, `traversal` calls back on every key once, in
ascending order, with its datum, and repeated `next` takes one item to the one after it and the
last to 0. -/
theorem traversal_in_order (ordered : Ordered t tree) (inited : t.inited = true)
    (mapped : t.mapped = true) :
    (∃ visited : List (Int × Int32),
      t.traversal (fun key data visited => some (visited ++ [(key, data)])) [] =
          some (t, 0, visited) ∧
        (visited.map Prod.fst).Pairwise (· < ·) ∧
        ∀ key data, (key, data) ∈ visited ↔ ∃ id, ⟨id, key, data⟩ ∈ tree.toList) ∧
      (t.state.rootId ≠ 0 →
        CMmtree.leftmostLoop t.map t.state.total t.state.rootId = some (firstId tree.toList)) ∧
      ∀ before s after, tree.toList = before ++ s :: after →
        t.next s.id = some (firstId after : Int) := by
  refine ⟨⟨tree.toList.map fun s => (s.key, s.data), ?_, ?_, ?_⟩, ?_, ?_⟩
  · have collects (items : List Slot) (visited : List (Int × Int32)) :
        items.foldlM (fun visited s => some (visited ++ [(s.key, s.data)])) visited =
          some (visited ++ items.map fun s => (s.key, s.data)) := by
      induction items generalizing visited with
      | nil => simp
      | cons s rest ih => simp [ih]
    rw [ordered.traversal_spec _ inited mapped, collects]
    rfl
  · rw [List.map_map]
    exact ordered.sorted
  · intro key data
    simp only [List.mem_map, Prod.mk.injEq]
    constructor
    · rintro ⟨s, member, rfl, rfl⟩
      exact ⟨s.id, member⟩
    · rintro ⟨id, member⟩
      exact ⟨_, member, rfl, rfl⟩
  · intro nonempty
    cases tree with
    | nil => exact absurd ordered.stored.rootEq nonempty
    | node c l s r =>
      have start : Stored t.map t.state.rootId (plug [] (.node c l s r)) := ordered.stored
      have short := ordered.length_lt_total (by simp)
      rw [ordered.stored.rootEq, rootId_node, leftmostLoop_first start]
      simp only [toList_node, List.length_append, List.length_cons] at short
      rw [ids, List.length_map]
      omega
  · exact fun before s after split => ordered.next_after before split

/-- A tree with a child on the left and two nodes on the right: from slot 2 the walk climbs to the
root, from slot 4 it ends. -/
theorem traversal_in_order_four :
    ∃ t replies visited, CMmtree.initNewFile.run [(.insert 2 5, true), (.insert 1 7, true),
          (.insert 3 9, true), (.insert 4 6, true)] = some (t, replies) ∧
      t.traversal (fun key data visited => some (visited ++ [(key, data)])) [] =
        some (t, 0, visited) ∧
      (visited.map Prod.fst).Pairwise (· < ·) ∧ (1, 7) ∈ visited ∧ (4, 6) ∈ visited ∧
      t.next 2 = some 1 ∧ t.next 4 = some 0 := by
  obtain ⟨t, replies, tree, queue, ran, wf⟩ := wellFormed_of_slotFits
    [(.insert 2 5, true), (.insert 1 7, true), (.insert 3 9, true), (.insert 4 6, true)]
    (by decide +kernel)
  have reached : (CMmtree.initNewFile.run [(.insert 2 5, true), (.insert 1 7, true),
      (.insert 3 9, true), (.insert 4 6, true)]).map
        (fun result => (result.1.mapped, result.1.tree.toList)) =
      some (true, [⟨2, 1, 7⟩, ⟨1, 2, 5⟩, ⟨3, 3, 9⟩, ⟨4, 4, 6⟩]) := by
    decide +kernel
  rw [ran, Option.map_some, Option.some.injEq, Prod.mk.injEq, wf.tree_eq] at reached
  obtain ⟨mapped, items⟩ := reached
  obtain ⟨⟨visited, walked, sorted, stored⟩, -, next⟩ :=
    traversal_in_order wf.ordered wf.inited mapped
  rw [items] at stored next
  exact ⟨t, replies, visited, ran, walked, sorted, (stored 1 7).mpr ⟨2, by decide⟩,
    (stored 4 6).mpr ⟨4, by decide⟩, next [] ⟨2, 1, 7⟩ _ rfl,
    next [⟨2, 1, 7⟩, ⟨1, 2, 5⟩, ⟨3, 3, 9⟩] ⟨4, 4, 6⟩ [] rfl⟩

end Taomee.Mmtree
