import Taomee.Mmtree.Steps

/-!
# Runs of a new tree

From a new file on, every run of calls keeps the invariant, as long as no call
fills an empty tree without a never-used slot. Contents, balance and slot
accounting of the reachable objects follow.
-/

namespace Taomee.Mmtree

open RBTree RBTree.RBNode RBTree.RBColor RedBlack

variable {t : CMmtree} {tree : RBNode Slot} {queue : List Nat}

theorem wellFormed_initNewFile : WellFormed CMmtree.initNewFile .nil [] where
  inited := rfl
  stored := ⟨trivial, rfl, by simp⟩
  rootBlack := rfl
  sorted := by simp
  sentinel := ⟨rfl, rfl⟩
  queued := ⟨by simp, by simp, by simp, rfl, by simp⟩
  slots := by simp [CMmtree.initNewFile, CMmtree.mmtreeIncrement]
  fresh _ _ := rfl
  left := by decide
  bounded := by decide
  growing := by decide

/-- Every call that finds a slot for the first key of an empty tree keeps the invariant. -/
theorem WellFormed.step (wf : WellFormed t tree queue) (mmapOk : Bool) (call : Call)
    (rootFits : call.RootFits t) :
    ∃ t' reply tree' queue', Step t tree mmapOk call t' reply tree' queue' := by
  cases mapped : t.mapped with
  | false =>
    obtain ⟨t', reply, step⟩ := step_unmapped wf mapped mmapOk call
    exact ⟨t', reply, tree, queue, step⟩
  | true =>
    cases call with
    | insert key data => exact step_insert wf mapped data mmapOk rootFits
    | update key data op => exact step_update wf mapped data op mmapOk
    | set key data op => exact step_set wf mapped data op mmapOk rootFits
    | get key => exact step_get wf mapped mmapOk
    | find key => exact step_find wf mapped mmapOk
    | remove key => exact step_remove wf mapped mmapOk

/-! ## Contents -/

/-- Keys are ordered left < node < right. -/
def SearchOrdered : RBNode Slot → Prop
  | .nil => True
  | .node _ l s r =>
    (∀ x ∈ l.toList, x.key < s.key) ∧ (∀ x ∈ r.toList, s.key < x.key) ∧
      SearchOrdered l ∧ SearchOrdered r

theorem searchOrdered_of_sorted (sorted : (tree.toList.map Slot.key).Pairwise (· < ·)) :
    SearchOrdered tree := by
  induction tree with
  | nil => trivial
  | node c l s r leftHyp rightHyp =>
    simp only [toList_node, List.map_append, List.map_cons, List.pairwise_append,
      List.pairwise_cons, List.mem_map, List.mem_cons, forall_exists_index, and_imp,
      forall_apply_eq_imp_iff₂] at sorted
    obtain ⟨left, ⟨above, right⟩, apart⟩ := sorted
    exact ⟨fun x member => apart x member _ (.inl rfl), above, leftHyp left, rightHyp right⟩

/-- An in-range call needs no reused slot for the root of an empty tree. -/
theorem Call.InRange.rootFits {mmapOk : Bool} {call : Call} (inRange : call.InRange t mmapOk) :
    call.RootFits t := by
  intro adds empty
  simpa [CMmtree.nextSlot, CMmtree.capacity, empty] using (inRange adds).1

/-- A run of in-range calls from a well-formed object follows the finite map. -/
theorem run_refines {contents : Contents} {calls : List (Call × Bool)}
    (wf : WellFormed t tree queue) (mapped : t.mapped = true)
    (represents : Represents contents tree)
    (inRange : Throughout (fun t step => step.1.InRange t step.2) t calls) :
    ∃ t' tree' queue', t.run calls = some (t', (contents.run (calls.map Prod.fst)).2) ∧
      WellFormed t' tree' queue' ∧ t'.mapped = true ∧
      Represents (contents.run (calls.map Prod.fst)).1 tree' := by
  induction calls generalizing t tree queue contents with
  | nil => exact ⟨t, tree, queue, rfl, wf, mapped, represents⟩
  | cons step rest ih =>
    obtain ⟨call, mmapOk⟩ := step
    obtain ⟨here, later⟩ := inRange
    obtain ⟨t₁, reply, tree₁, queue₁, taken⟩ := wf.step mmapOk call here.rootFits
    obtain ⟨represents₁, replied⟩ := taken.refines mapped here contents represents
    rw [taken.called] at later
    obtain ⟨t₂, tree₂, queue₂, ran, wf₂, mapped₂, represents₂⟩ :=
      ih taken.wellFormed (taken.mapped mapped here) represents₁ later
    refine ⟨t₂, tree₂, queue₂, ?_, wf₂, mapped₂, represents₂⟩
    simp only [CMmtree.run, taken.called, ran, List.map_cons, Contents.run, replied]

theorem represents_empty : Represents ∅ .nil := by
  intro key data
  simp

theorem Contents.lookup_remove {contents : Contents} {key other : Int} (different : other ≠ key) :
    (contents.call (.remove key)).1.lookup other = contents.lookup other := by
  rw [Contents.call]
  split
  · rfl
  · exact Finmap.lookup_erase_ne different

/-- A remove of one key leaves the data of every other key. -/
def RemoveFrame (t : CMmtree) : Prop :=
  ∀ key mmapOk, ∃ t' reply, t.call mmapOk (.remove key) = some (t', reply) ∧
    ∀ other data, other ≠ key →
      ((∃ id, ⟨id, other, data⟩ ∈ t'.tree.toList) ↔ ∃ id, ⟨id, other, data⟩ ∈ t.tree.toList)

theorem WellFormed.removeFrame {contents : Contents} (wf : WellFormed t tree queue)
    (mapped : t.mapped = true) (represents : Represents contents tree) : RemoveFrame t := by
  intro key mmapOk
  obtain ⟨t', reply, tree', queue', taken⟩ :=
    wf.step mmapOk (.remove key) (by simp [Call.RootFits, Call.adds])
  obtain ⟨represents', _⟩ :=
    taken.refines mapped (by simp [Call.InRange, Call.adds]) contents represents
  refine ⟨t', reply, taken.called, fun other data different => ?_⟩
  rw [taken.wellFormed.tree_eq, wf.tree_eq, ← represents' other data, ← represents other data,
    Contents.lookup_remove different]

/-- Every run from a new file whose calls find their slots, and none of which divides the least
`int` by -1, replies like the finite map and leaves a search tree in the array that holds exactly
the map's bindings. -/
theorem mmtree_refines_finmap (calls : List (Call × Bool))
    (meets : Throughout (fun t step => step.1.InRange t step.2 ∧ t.traps step.1 = false)
      CMmtree.initNewFile calls) :
    ∃ t, CMmtree.initNewFile.execAll calls =
        some (t, (Contents.run ∅ (calls.map Prod.fst)).2) ∧
      Represents (Contents.run ∅ (calls.map Prod.fst)).1 t.tree ∧
      Stored t.map t.state.rootId t.tree ∧ SearchOrdered t.tree ∧ RemoveFrame t := by
  obtain ⟨t, tree, queue, ran, wf, mapped, represents⟩ :=
    run_refines wellFormed_initNewFile rfl represents_empty (meets.mono fun _ _ => And.left)
  have treeEq := wf.tree_eq
  rw [CMmtree.execAll_eq_run (meets.mono fun _ _ => And.right)]
  exact ⟨t, ran, treeEq ▸ represents, treeEq ▸ wf.stored,
    treeEq ▸ searchOrdered_of_sorted wf.sorted, wf.removeFrame mapped represents⟩

/-- Of four keys one is removed and one divided. -/
theorem mmtree_refines_finmap_insert_remove :
    ∃ t, CMmtree.initNewFile.execAll
        [(.insert 5 7, true), (.insert 2 (-9), true), (.set 8 3 MMT_OP_ADD, true),
          (.insert 6 1, true), (.update 2 (-2) MMT_OP_DIV, true), (.insert 6 4, true),
          (.remove 5, true), (.get 2, true), (.find 5, true)] =
        some (t, [⟨0, none⟩, ⟨0, none⟩, ⟨0, none⟩, ⟨0, none⟩, ⟨0, none⟩, ⟨-1, none⟩, ⟨0, none⟩,
          ⟨0, some 4⟩, ⟨1, none⟩]) ∧
      (∃ id, ⟨id, 8, 3⟩ ∈ t.tree.toList) ∧ SearchOrdered t.tree ∧ RemoveFrame t := by
  obtain ⟨t, ran, represents, _, ordered, frame⟩ :=
    mmtree_refines_finmap [(.insert 5 7, true), (.insert 2 (-9), true),
      (.set 8 3 MMT_OP_ADD, true), (.insert 6 1, true), (.update 2 (-2) MMT_OP_DIV, true),
      (.insert 6 4, true), (.remove 5, true), (.get 2, true), (.find 5, true)] (by decide +kernel)
  exact ⟨t, ran, (represents 8 3).mp (by decide +kernel), ordered, frame⟩

/-- Every call finds its slot, but the process does not live through the division. -/
theorem division_traps :
    Throughout (fun t step => step.1.InRange t step.2) CMmtree.initNewFile
        [(.insert 1 Int32.minValue, true), (.update 1 (-1) MMT_OP_DIV, true)] ∧
      ¬∃ t, CMmtree.initNewFile.execAll
          [(.insert 1 Int32.minValue, true), (.update 1 (-1) MMT_OP_DIV, true)] =
        some (t, (Contents.run ∅ [.insert 1 Int32.minValue, .update 1 (-1) MMT_OP_DIV]).2) := by
  have dies : (CMmtree.initNewFile.execAll
      [(.insert 1 Int32.minValue, true), (.update 1 (-1) MMT_OP_DIV, true)]).isNone := by
    decide +kernel
  refine ⟨by decide +kernel, ?_⟩
  rintro ⟨t, lives⟩
  rw [lives] at dies
  cases dies

/-! ## Balance -/

/-- The tree is a red-black tree, and so not deeper than `2 * log2 (n + 1)`. -/
structure IsRedBlack (t : CMmtree) : Prop where
  rootBlack : t.tree.isRed = black
  balanced : ∃ n, t.tree.Balanced black n
  depth : t.tree.depth ≤ 2 * (t.tree.size + 1).log2

theorem isRedBlack_of_balances (wf : WellFormed t tree queue) (balances : Balances tree) :
    IsRedBlack t := by
  obtain ⟨n, balanced⟩ := balances
  have bound := balanced.depth_bound
  rw [← wf.tree_eq] at balanced bound
  exact ⟨isRed_eq_of_balanced balanced, ⟨n, balanced⟩, bound⟩

/-- In a run of which no repair meets a sibling with a red child, the tree is always
a red-black tree. -/
theorem isRedBlack_of_mends (calls : List (Call × Bool))
    (meets : Throughout (fun t step => step.1.SlotFits t step.2 ∧ step.1.Mends t)
      CMmtree.initNewFile calls) :
    ∃ t replies, CMmtree.initNewFile.run calls = some (t, replies) ∧ IsRedBlack t := by
  have start : ∃ tree queue, WellFormed CMmtree.initNewFile tree queue ∧ Balances tree :=
    ⟨.nil, [], wellFormed_initNewFile, 0, .nil⟩
  obtain ⟨t, replies, ran, tree, queue, wf, balances⟩ :=
    run_invariant (fun t step => step.1.SlotFits t step.2 ∧ step.1.Mends t)
      (fun t => ∃ tree queue, WellFormed t tree queue ∧ Balances tree)
      (fun t step => by
        rintro ⟨tree, queue, wf, balances⟩ ⟨fits, mends⟩
        obtain ⟨t', reply, tree', queue', taken⟩ := wf.step step.2 step.1 fits.1
        exact ⟨t', reply, taken.called, tree', queue', taken.wellFormed,
          taken.balances balances mends⟩)
      start meets
  exact ⟨t, replies, ran, isRedBlack_of_balances wf balances⟩

/-- The last remove takes the black node 1 beside the black node 3. -/
theorem isRedBlack_of_mends_remove :
    ∃ t replies, CMmtree.initNewFile.run
        [(.insert 2 0, true), (.insert 1 0, true), (.insert 3 0, true), (.insert 4 0, true),
          (.remove 4, true), (.remove 1, true)] =
      some (t, replies) ∧ IsRedBlack t :=
  isRedBlack_of_mends _ (by decide +kernel)

/-- After inserting 2, 1, 3 and 4 and removing 1, the red node 3 has the red child 4. -/
theorem remove_breaks_redBlack :
    ∃ t replies, CMmtree.initNewFile.run
        [(.insert 2 0, true), (.insert 1 0, true), (.insert 3 0, true), (.insert 4 0, true),
          (.remove 1, true)] = some (t, replies) ∧ ¬ IsRedBlack t := by
  have encoded : (CMmtree.initNewFile.run
      [(.insert 2 0, true), (.insert 1 0, true), (.insert 3 0, true), (.insert 4 0, true),
        (.remove 1, true)]).map (fun result => result.1.tree) =
      some (.node black .nil ⟨1, 2, 0⟩ (.node red .nil ⟨3, 3, 0⟩
        (.node red .nil ⟨4, 4, 0⟩ .nil))) := by
    decide +kernel
  obtain ⟨⟨t, replies⟩, ran, treeEq⟩ := Option.map_eq_some_iff.mp encoded
  refine ⟨t, replies, ran, fun redBlack => ?_⟩
  obtain ⟨n, balanced⟩ := redBlack.balanced
  rw [treeEq] at balanced
  cases balanced with
  | black _ right => cases right with
    | red _ grandchild => cases grandchild

/-! ## Slots -/

/-- Every slot in `1 .. current` is in exactly one of the tree and the free queue,
the counters count them, and nothing past the mapped array is written. -/
structure Accounted (t : CMmtree) (queue : List Nat) : Prop where
  queued : Queued t queue
  partition : ∀ id, 1 ≤ id ∧ id ≤ t.state.current ↔ id ∈ ids t.tree ∨ id ∈ queue
  apart : ∀ id ∈ queue, id ∉ ids t.tree
  treeDistinct : (ids t.tree).Nodup
  queueDistinct : queue.Nodup
  left : t.state.left = (t.state.total : Int) - 1 - t.state.current + queue.length
  nodeNum : t.mapped = true → t.getNodeNum = t.tree.toList.length
  bounded : t.state.current < t.state.total
  unwritten : ∀ id, t.state.total ≤ id → t.map id = .zero

theorem WellFormed.accounted (wf : WellFormed t tree queue) : Accounted t queue where
  queued := wf.queued
  partition id := by rw [wf.tree_eq, wf.mem_slots]
  apart id member := by
    rw [wf.tree_eq]
    exact wf.apart member
  treeDistinct := by
    rw [wf.tree_eq]
    exact wf.stored.distinct
  queueDistinct :=
    (List.nodup_append.mp (wf.slots.nodup_iff.mpr List.nodup_range')).2.1
  left := by rw [wf.left, wf.queued.length]
  nodeNum _ := by
    have slots := wf.length_slots
    rw [ids, List.length_map] at slots
    rw [wf.tree_eq, CMmtree.getNodeNum]
    omega
  bounded := wf.bounded
  unwritten id past := wf.fresh id (lt_of_lt_of_le wf.bounded past)

/-- In a run whose calls find their slots the invariant holds. -/
theorem wellFormed_of_slotFits (calls : List (Call × Bool))
    (fits : Throughout (fun t step => step.1.SlotFits t step.2) CMmtree.initNewFile calls) :
    ∃ t replies tree queue, CMmtree.initNewFile.run calls = some (t, replies) ∧
      WellFormed t tree queue := by
  have start : ∃ tree queue, WellFormed CMmtree.initNewFile tree queue :=
    ⟨.nil, [], wellFormed_initNewFile⟩
  obtain ⟨t, replies, ran, tree, queue, wf⟩ :=
    run_invariant (fun t step => step.1.SlotFits t step.2)
      (fun t => ∃ tree queue, WellFormed t tree queue)
      (fun t step => by
        rintro ⟨tree, queue, wf⟩ fits
        obtain ⟨t', reply, tree', queue', taken⟩ := wf.step step.2 step.1 fits.1
        exact ⟨t', reply, taken.called, tree', queue', taken.wellFormed⟩)
      start fits
  exact ⟨t, replies, tree, queue, ran, wf⟩

/-- In a run whose calls never fill an empty tree without a never-used slot, all
slots are accounted for. -/
theorem accounted_of_slotFits (calls : List (Call × Bool))
    (fits : Throughout (fun t step => step.1.SlotFits t step.2) CMmtree.initNewFile calls) :
    ∃ t replies queue, CMmtree.initNewFile.run calls = some (t, replies) ∧
      Accounted t queue := by
  obtain ⟨t, replies, tree, queue, ran, wf⟩ := wellFormed_of_slotFits calls fits
  exact ⟨t, replies, queue, ran, wf.accounted⟩

theorem accounted_of_slotFits_insert_remove :
    ∃ t replies queue, CMmtree.initNewFile.run
        [(.insert 1 5, true), (.insert 2 6, true), (.remove 1, true)] = some (t, replies) ∧
      Accounted t queue :=
  accounted_of_slotFits _ (by decide +kernel)

/-- Emptying and refilling the tree 99 times uses up every slot, and the next insert
takes slot 100 of 100. -/
theorem refill_allocates_total :
    ∃ t replies, CMmtree.initNewFile.run
        ((List.replicate 99 [(Call.insert 1 5, true), (Call.remove 1, true)]).flatten ++
          [(.insert 1 5, true)]) = some (t, replies) ∧
      t.state.rootId = t.state.total ∧ ¬ ∃ queue, Accounted t queue := by
  have counted : (CMmtree.initNewFile.run
      ((List.replicate 99 [(Call.insert 1 5, true), (Call.remove 1, true)]).flatten ++
        [(.insert 1 5, true)])).map
        (fun result => (result.1.state.rootId, result.1.state.current, result.1.state.total)) =
      some (100, 100, 100) := by
    decide +kernel
  obtain ⟨⟨t, replies⟩, ran, counters⟩ := Option.map_eq_some_iff.mp counted
  simp only [Prod.mk.injEq] at counters
  obtain ⟨rootId, current, total⟩ := counters
  refine ⟨t, replies, ran, rootId.trans total.symm, ?_⟩
  rintro ⟨queue, accounted⟩
  have bounded := accounted.bounded
  omega

end Taomee.Mmtree
