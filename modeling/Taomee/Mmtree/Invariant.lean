import Taomee.Mmtree.Remove

/-!
# What every call preserves

`WellFormed` ties the mapped array to an abstract tree and an abstract free queue.
The claims about contents, balance and slot accounting are all read off it.
-/

namespace Taomee.Mmtree

open RBTree RBTree.RBNode RBTree.RBColor RedBlack

/-- The free queue: slots linked through their `parent` fields, with null children. -/
structure Queued (t : CMmtree) (queue : List Nat) : Prop where
  chain : queue.IsChain fun id next => (t.map id).parent = next
  first : ∀ id, queue.head? = some id → t.state.qfirst = id
  last : ∀ id, queue.getLast? = some id → t.state.qlast = id
  length : t.state.qleft = queue.length
  links : ∀ id ∈ queue, (t.map id).left = 0 ∧ (t.map id).right = 0

/-- The object stores `tree` and keeps `queue` for reuse. A slot above `current`
has never been written. -/
structure WellFormed (t : CMmtree) (tree : RBNode Slot) (queue : List Nat) : Prop where
  inited : t.inited = true
  stored : Stored t.map t.state.rootId tree
  rootBlack : tree.isRed = black
  sorted : (tree.toList.map Slot.key).Pairwise (· < ·)
  sentinel : SentinelLinks t.map
  queued : Queued t queue
  slots : (ids tree ++ queue).Perm (List.range' 1 t.state.current)
  fresh : ∀ id, t.state.current < id → t.map id = .zero
  left : t.state.left = (t.state.total : Int) - 1 - t.state.current + t.state.qleft
  bounded : t.state.current < t.state.total
  growing : 0 < t.incrementNum

namespace WellFormed

variable {t : CMmtree} {tree : RBNode Slot} {queue : List Nat}

theorem mem_slots (wf : WellFormed t tree queue) {id : Nat} :
    id ∈ ids tree ∨ id ∈ queue ↔ 1 ≤ id ∧ id ≤ t.state.current := by
  rw [← List.mem_append, wf.slots.mem_iff, List.mem_range'_1]
  omega

theorem length_slots (wf : WellFormed t tree queue) :
    (ids tree).length + t.state.qleft = t.state.current := by
  rw [wf.queued.length, ← List.length_append, wf.slots.length_eq, List.length_range']

/-- A queued slot is not in the tree. -/
theorem apart (wf : WellFormed t tree queue) {id : Nat} (member : id ∈ queue) : id ∉ ids tree := by
  have distinct := wf.slots.nodup_iff.mpr List.nodup_range'
  exact fun inTree => (List.nodup_append.mp distinct).2.2 id inTree id member rfl

theorem id_lt_total (wf : WellFormed t tree queue) {id : Nat} (member : id ∈ ids tree) :
    id < t.state.total := by
  have inRange := wf.mem_slots.mp (.inl member)
  have bounded := wf.bounded
  omega

/-- A cursor has fewer frames than there are slots. -/
theorem length_frames_lt (wf : WellFormed t tree queue) (frames : List (Frame Slot))
    {here : RBNode Slot} (whole : plug frames here = tree) :
    frames.length + (ids here).length < t.state.total := by
  have slots := wf.length_slots
  have bounded := wf.bounded
  have counted := length_le_ids_plug frames here
  rw [whole] at counted
  omega

end WellFormed

/-- The queue only looks at its own slots and counters. -/
theorem Queued.frame {t t' : CMmtree} {queue : List Nat} (queued : Queued t queue)
    (same : ∀ id ∈ queue, t'.map id = t.map id) (first : t'.state.qfirst = t.state.qfirst)
    (last : t'.state.qlast = t.state.qlast) (length : t'.state.qleft = t.state.qleft) :
    Queued t' queue where
  chain := by
    refine queued.chain.imp_of_mem_imp fun id next member _ linked => ?_
    rw [same id member, linked]
  first id isFirst := first.trans (queued.first id isFirst)
  last id isLast := last.trans (queued.last id isLast)
  length := length.trans queued.length
  links id member := by rw [same id member]; exact queued.links id member

/-! ## Search -/

/-- The search loop stops where `zoom` stops: at the node with the key, or at the
parent of the leaf where the key belongs. -/
theorem searchLoop_spec {m : NodeMap} {root total fuel : Nat} (key : Int)
    (frames : List (Frame Slot)) {tree : RBNode Slot}
    (stored : Stored m root (plug frames tree)) (inTotal : ∀ id ∈ ids tree, id < total)
    (enough : (ids tree).length < fuel) (started : tree = .nil → frames = []) :
    CMmtree.searchLoop m total key fuel (rootId tree) =
      match RedBlack.zoom Slot.key key tree frames with
      | (.node _ _ s _, _) => some (.found s.id)
      | (.nil, frames') => some (.missing (parentId frames')) := by
  obtain ⟨fuel, rfl⟩ : ∃ n, fuel = n + 1 := ⟨fuel - 1, by omega⟩
  induction tree generalizing frames fuel with
  | nil => simp [CMmtree.searchLoop, RedBlack.zoom, started rfl]
  | node c l s r leftHyp rightHyp =>
    have positive := stored.positive_node
    have atNode := stored.here_node
    have inTotalHere : s.id < total := inTotal s.id (by simp)
    have leftStored : Stored m root (plug (⟨.left, c, s, r⟩ :: frames) l) := stored
    have rightStored : Stored m root (plug (⟨.right, c, s, l⟩ :: frames) r) := stored
    simp only [ids_node, List.length_append, List.length_cons] at enough
    simp only [ids_node, List.mem_append, List.mem_cons] at inTotal
    obtain ⟨fuel, rfl⟩ : ∃ n, fuel = n + 1 := ⟨fuel - 1, by omega⟩
    rw [rootId_node, CMmtree.searchLoop, if_pos ⟨positive, inTotalHere⟩, atNode,
      RedBlack.zoom]
    simp only [cell]
    by_cases same : key = s.key
    · simp [same]
    · simp only [same]
      by_cases greater : key > s.key
      · simp only [greater]
        cases r with
        | nil => simp [RedBlack.zoom]
        | node c' l' s' r' =>
          have nonzero : rootId (.node c' l' s' r') ≠ 0 := rightStored.positive_node.ne'
          simp only [nonzero]
          exact rightHyp _ rightStored (fun id member => inTotal id (.inr (.inr member)))
            (by simp) fuel (by omega)
      · simp only [greater]
        cases l with
        | nil => simp [RedBlack.zoom]
        | node c' l' s' r' =>
          have nonzero : rootId (.node c' l' s' r') ≠ 0 := leftStored.positive_node.ne'
          simp only [nonzero]
          exact leftHyp _ leftStored (fun id member => inTotal id (.inl member))
            (by simp) fuel (by omega)

/-- Where a search of a sorted tree ends. -/
theorem search_of_sorted {t : CMmtree} {tree : RBNode Slot}
    (stored : Stored t.map t.state.rootId tree)
    (sorted : (tree.toList.map Slot.key).Pairwise (· < ·))
    (inTotal : ∀ id ∈ ids tree, id < t.state.total)
    (enough : (ids tree).length < t.state.total) (key : Int) :
    (∃ frames c l s r, plug frames (.node c l s r) = tree ∧ s.key = key ∧
      RedBlack.zoom Slot.key key tree [] = (.node c l s r, frames) ∧
      t.search key = some (.found s.id)) ∨
    ∃ frames, plug frames .nil = tree ∧ RedBlack.zoom Slot.key key tree [] = (.nil, frames) ∧
      t.search key = some (.missing (parentId frames)) ∧
      (∀ x ∈ itemsBefore frames, x.key < key) ∧ ∀ x ∈ itemsAfter frames, key < x.key := by
  have searched := searchLoop_spec key [] stored inTotal enough (fun _ => rfl)
  have whole := plug_zoom Slot.key key tree []
  have bounds := zoom_bounds Slot.key key [] sorted (by simp [itemsBefore]) (by simp [itemsAfter])
  have stops := zoom_stops Slot.key key tree []
  rw [← stored.rootEq, ← CMmtree.search] at searched
  generalize RedBlack.zoom Slot.key key tree [] = found at searched whole bounds stops ⊢
  obtain ⟨here, frames⟩ := found
  rcases stops with rfl | ⟨c, l, s, r, rfl, sameKey⟩
  · exact .inr ⟨frames, whole, rfl, searched, bounds⟩
  · exact .inl ⟨frames, c, l, s, r, whole, sameKey.symm, rfl, searched⟩

namespace WellFormed

variable {t : CMmtree} {tree : RBNode Slot} {queue : List Nat}

/-- Where a search ends in a well-formed object. -/
theorem search_spec (wf : WellFormed t tree queue) (key : Int) :
    (∃ frames c l s r, plug frames (.node c l s r) = tree ∧ s.key = key ∧
      RedBlack.zoom Slot.key key tree [] = (.node c l s r, frames) ∧
      t.search key = some (.found s.id)) ∨
    ∃ frames, plug frames .nil = tree ∧ t.search key = some (.missing (parentId frames)) ∧
      (∀ x ∈ itemsBefore frames, x.key < key) ∧ ∀ x ∈ itemsAfter frames, key < x.key := by
  have enough : (ids tree).length < t.state.total := by
    simpa using wf.length_frames_lt [] rfl
  rcases search_of_sorted wf.stored wf.sorted (fun _ member => wf.id_lt_total member) enough key
    with found | ⟨frames, whole, -, missing⟩
  · exact .inl found
  · exact .inr ⟨frames, whole, missing⟩

end WellFormed

end Taomee.Mmtree
