import Taomee.Mmtree.Runs

/-!
# The counter of data that are not 0

`insert_root_node`, `insert_new_node` and `update_node_value` count; `remove_node` does not.
The counter and the tree move together in every call except a remove of a key whose datum is
not 0, and from there on they stay apart.
-/

namespace Taomee.Mmtree

open RBTree RBTree.RBNode RBTree.RBColor RedBlack

/-- How many of the items have a datum that is not 0. -/
def nonzeroNum (items : List Slot) : Nat := items.countP fun s => s.data ≠ 0

@[simp] theorem nonzeroNum_nil : nonzeroNum [] = 0 := rfl

@[simp] theorem nonzeroNum_append (before after : List Slot) :
    nonzeroNum (before ++ after) = nonzeroNum before + nonzeroNum after := List.countP_append

@[simp] theorem nonzeroNum_cons (s : Slot) (items : List Slot) :
    nonzeroNum (s :: items) = (if s.data ≠ 0 then 1 else 0) + nonzeroNum items := by
  simp only [nonzeroNum, List.countP_cons, decide_eq_true_eq, Nat.add_comm]

/-- How far the counter is ahead of the keys with data that are not 0. -/
def CMmtree.drift (t : CMmtree) : Int := t.getNonzeroNum - nonzeroNum t.tree.toList

/-- A remove takes no key whose datum is not 0. -/
def Call.KeepsNonzero (t : CMmtree) : Call → Prop
  | .remove key => t.mapped = true → ∀ s ∈ t.tree.toList, s.key = key → s.data = 0
  | _ => True

instance (t : CMmtree) (call : Call) : Decidable (call.KeepsNonzero t) :=
  match call with
  | .remove _ => inferInstanceAs (Decidable (_ → _))
  | .insert .. | .update .. | .set .. | .get _ | .find _ => .isTrue trivial

/-! ## The counter alone -/

namespace CMmtree

variable {t t' : CMmtree} {mmapOk : Bool} {nodeId : Nat} {key : Int} {data : Int32}

@[simp] theorem getNonzeroNum_mmtreeIncrement :
    (t.mmtreeIncrement mmapOk).1.getNonzeroNum = t.getNonzeroNum := by
  unfold mmtreeIncrement
  split <;> rfl

@[simp] theorem getNonzeroNum_takeSlot : t.takeSlot.1.getNonzeroNum = t.getNonzeroNum := by
  unfold takeSlot
  split <;> rfl

/-- A new node counts when its datum is not 0. -/
theorem getNonzeroNum_insertNewNode {ret : Int}
    (called : t.insertNewNode mmapOk nodeId key data = some (t', ret)) :
    t'.getNonzeroNum = t.getNonzeroNum + if ret = 0 ∧ data ≠ 0 then 1 else 0 := by
  unfold insertNewNode at called
  have room : (if t.state.left = 0 then mmtreeIncrement mmapOk t else (t, 0)).1.getNonzeroNum =
      t.getNonzeroNum := by
    split
    · exact getNonzeroNum_mmtreeIncrement
    · rfl
  generalize (if t.state.left = 0 then mmtreeIncrement mmapOk t else (t, 0)) = grown at called room
  dsimp only at called
  split at called
  · obtain ⟨rfl, rfl⟩ := Prod.mk.inj (Option.some.inj called)
    simpa using room
  · have taken : grown.1.takeSlot.1.getNonzeroNum = t.getNonzeroNum := by
      rw [getNonzeroNum_takeSlot, room]
    split at called
    · cases called
    · obtain ⟨rfl, rfl⟩ := Prod.mk.inj (Option.some.inj called)
      rw [← taken]
      simp [getNonzeroNum]

/-- An update counts the new datum in place of the old one. -/
theorem getNonzeroNum_updateNodeValue {id : Nat} {op : Int} {new : Int32}
    (result : opResult op (t.map id).data data = .ok new) :
    (t.updateNodeValue id data op).1.getNonzeroNum + (if (t.map id).data ≠ 0 then 1 else 0) =
      t.getNonzeroNum + if new ≠ 0 then 1 else 0 := by
  simp only [updateNodeValue, result, getNonzeroNum]
  by_cases was : (t.map id).data = 0 <;> by_cases becomes : new = 0 <;>
    simp [was, becomes]

/-- Removing a node does not touch the counter. -/
theorem getNonzeroNum_removeNode {root root' : Nat} {ret : Int}
    (called : t.removeNode root nodeId = some (t', root', ret)) :
    t'.getNonzeroNum = t.getNonzeroNum := by
  unfold removeNode at called
  split at called
  · split at called
    · cases called
    dsimp only at called
    split at called
    · cases called
    · obtain ⟨rfl, -⟩ := Prod.mk.inj (Option.some.inj called)
      rfl
  · obtain ⟨rfl, -⟩ := Prod.mk.inj (Option.some.inj called)
    rfl

end CMmtree

/-! ## The counter and the tree -/

section Drift

variable {t t' : CMmtree} {tree : RBNode Slot} {queue : List Nat} {key : Int} {mmapOk : Bool}
variable {frames : List (Frame Slot)} {data : Int32} {reply : Reply}

theorem WellFormed.drift_eq (wf : WellFormed t tree queue) :
    t.drift = t.getNonzeroNum - nonzeroNum tree.toList := by
  rw [CMmtree.drift, wf.tree_eq]

/-- Adding a key counts its datum. -/
theorem drift_addKey {ret : Int} (wf : WellFormed t (plug frames .nil) queue)
    (below : ∀ x ∈ itemsBefore frames, x.key < key) (above : ∀ x ∈ itemsAfter frames, key < x.key)
    (rootFits : t.state.rootId = 0 → t.state.current + 1 < t.state.total)
    (added : (if t.state.rootId = 0 then some (t.insertRootNode key data, 0)
      else t.insertNewNode mmapOk (parentId frames) key data) = some (t', ret)) :
    t'.drift = t.drift := by
  cases frames with
  | nil =>
    have empty : t.state.rootId = 0 := wf.stored.rootEq
    rw [if_pos empty] at added
    obtain ⟨rfl, -⟩ := Prod.mk.inj (Option.some.inj added)
    rw [(wf.insertRootNode key data (rootFits empty)).drift_eq, wf.drift_eq]
    simp [CMmtree.getNonzeroNum, CMmtree.insertRootNode]
  | cons frame rest =>
    have nonempty : t.state.rootId ≠ 0 := by
      rw [wf.stored.rootEq]
      have inFrames := rootId_plug_mem frame rest .nil
      exact ((layout_plug.mp wf.stored.layout).1.positive inFrames).ne'
    rw [if_neg nonempty, parentId_cons] at added
    have counted := CMmtree.getNonzeroNum_insertNewNode added
    rcases wf.insertNewNode data rfl below above mmapOk with
      ⟨-, -, failed, result, wf'⟩ | ⟨done, tree', queue', id, result, wf', -, items, -⟩
    · rw [result] at added
      obtain ⟨rfl, rfl⟩ := Prod.mk.inj (Option.some.inj added)
      rw [wf'.drift_eq, wf.drift_eq, counted]
      simp
    · rw [result] at added
      obtain ⟨rfl, rfl⟩ := Prod.mk.inj (Option.some.inj added)
      have more : nonzeroNum tree'.toList =
          nonzeroNum (plug (frame :: rest) .nil).toList + if data ≠ 0 then 1 else 0 := by
        rw [items, toList_plug]
        simp only [nonzeroNum_append, nonzeroNum_cons, toList_nil, List.append_nil]
        omega
      rw [wf'.drift_eq, wf.drift_eq]
      simp only [true_and] at counted
      split_ifs at counted more <;> omega

/-- Overwriting a datum counts the change. -/
theorem drift_updateNodeValue {c : RBColor} {l r : RBNode Slot} {s : Slot}
    (wf : WellFormed t (plug frames (.node c l s r)) queue) (data : Int32) (op : Int) :
    (t.updateNodeValue s.id data op).1.drift = t.drift := by
  have updated := wf.updateNodeValue data op
  have dataRead : (t.map s.id).data = s.data := by rw [wf.stored.here_node, cell_data]
  cases result : CMmtree.opResult op s.data data with
  | error msg =>
    rw [result] at updated
    rw [updated, (wf.setErr _ _).drift_eq, wf.drift_eq]
    rfl
  | ok new =>
    rw [result] at updated
    obtain ⟨t', called, -, wf'⟩ := updated
    have counted := CMmtree.getNonzeroNum_updateNodeValue (dataRead ▸ result)
    rw [called, dataRead] at counted
    dsimp only at counted
    have swapped : nonzeroNum (overwrite frames c l s r new).toList +
        (if s.data ≠ 0 then 1 else 0) =
          nonzeroNum (plug frames (.node c l s r)).toList + if new ≠ 0 then 1 else 0 := by
      simp only [overwrite, toList_plug, toList_node, nonzeroNum_append, nonzeroNum_cons]
      omega
    rw [called, wf'.drift_eq, wf.drift_eq]
    split_ifs at counted swapped <;> omega

/-- Taking a node out does not count. -/
theorem drift_removeNode {c : RBColor} {l r : RBNode Slot} {s : Slot}
    (wf : WellFormed t (plug frames (.node c l s r)) queue) {root' : Nat} {ret : Int}
    (removed : t.removeNode t.state.rootId s.id = some (t', root', ret)) :
    CMmtree.drift { t' with state := { t'.state with rootId := root' } } =
      t.drift + if s.data ≠ 0 then 1 else 0 := by
  have counted := CMmtree.getNonzeroNum_removeNode removed
  obtain ⟨done, root, result, -, -, wf'⟩ := wf.removeNode
  rw [result] at removed
  obtain ⟨rfl, rfl, rfl⟩ : done = t' ∧ root = root' ∧ 0 = ret := by simpa using removed
  have fewer : nonzeroNum (erase (t.map 0).color frames (.node c l s r)).toList +
      (if s.data ≠ 0 then 1 else 0) = nonzeroNum (plug frames (.node c l s r)).toList := by
    rw [toList_erase wf]
    simp only [toList_plug, toList_node, nonzeroNum_append, nonzeroNum_cons]
    omega
  rw [wf'.drift_eq, wf.drift_eq]
  dsimp only [CMmtree.getNonzeroNum] at counted ⊢
  split_ifs at fewer ⊢ <;> omega

/-- A call that only sets the error, or nothing at all. -/
theorem drift_setErr (errNo : Int) (msg : String) : (t.setErr errNo msg).drift = t.drift := rfl

/-- A remove of a key that is there keeps the data that are not 0 only if its datum is 0. -/
theorem keepsNonzero_iff {c : RBColor} {l r : RBNode Slot} {s : Slot}
    (wf : WellFormed t (plug frames (.node c l s r)) queue) (mapped : t.mapped = true) :
    (Call.remove s.key).KeepsNonzero t ↔ s.data = 0 := by
  have items : (plug frames (.node c l s r)).toList =
      (itemsBefore frames ++ l.toList) ++ s :: (r.toList ++ itemsAfter frames) := by
    simp [toList_plug]
  have member : s ∈ (plug frames (.node c l s r)).toList := by
    rw [items]
    exact List.mem_append_right _ List.mem_cons_self
  dsimp only [Call.KeepsNonzero]
  rw [wf.tree_eq]
  constructor
  · intro keeps
    exact keeps mapped s member rfl
  · intro zero _ x inTree same
    rw [items, List.mem_append, List.mem_cons] at inTree
    have apart := WellFormed.key_ne_of_sorted wf items x
    rcases inTree with before | rfl | after
    · exact absurd same (apart (.inl before))
    · exact zero
    · exact absurd same (apart (.inr after))

/-- `insert` keeps the drift. -/
theorem drift_insert (wf : WellFormed t tree queue) (mapped : t.mapped = true)
    (rootFits : (Call.insert key data).RootFits t)
    (called : t.call mmapOk (.insert key data) = some (t', reply)) : t'.drift = t.drift := by
  rcases wf.search_spec key with ⟨frames, c, l, s, r, rfl, rfl, -, searched⟩ |
    ⟨frames, rfl, searched, below, above⟩
  · rw [call_insert_found wf mapped searched] at called
    obtain ⟨rfl, -⟩ := Prod.mk.inj (Option.some.inj called)
    rfl
  · have adds : (Call.insert key data).adds t = true := by simp [Call.adds, searched]
    obtain ⟨done, ret, -, -, added, -⟩ := wf.addKey data below above (rootFits adds) mmapOk
    rw [call_insert_missing wf mapped searched added] at called
    obtain ⟨rfl, -⟩ := Prod.mk.inj (Option.some.inj called)
    exact drift_addKey wf below above (rootFits adds) added

/-- `update` keeps the drift. -/
theorem drift_update (wf : WellFormed t tree queue) (mapped : t.mapped = true) {op : Int}
    (called : t.call mmapOk (.update key data op) = some (t', reply)) : t'.drift = t.drift := by
  rcases wf.search_spec key with ⟨frames, c, l, s, r, rfl, rfl, -, searched⟩ |
    ⟨frames, rfl, searched, below, above⟩
  · rw [call_update_found wf mapped searched] at called
    obtain ⟨rfl, -⟩ := Prod.mk.inj (Option.some.inj called)
    exact drift_updateNodeValue wf data op
  · obtain ⟨msg, failed⟩ := call_update_missing wf mapped searched data op mmapOk
    rw [failed] at called
    obtain ⟨rfl, -⟩ := Prod.mk.inj (Option.some.inj called)
    rfl

/-- `set` keeps the drift. -/
theorem drift_set (wf : WellFormed t tree queue) (mapped : t.mapped = true) {op : Int}
    (rootFits : (Call.set key data op).RootFits t)
    (called : t.call mmapOk (.set key data op) = some (t', reply)) : t'.drift = t.drift := by
  rcases wf.search_spec key with ⟨frames, c, l, s, r, rfl, rfl, -, searched⟩ |
    ⟨frames, rfl, searched, below, above⟩
  · rw [call_set_found wf mapped searched] at called
    obtain ⟨rfl, -⟩ := Prod.mk.inj (Option.some.inj called)
    exact drift_updateNodeValue wf data op
  · have adds : (Call.set key data op).adds t = true := by simp [Call.adds, searched]
    obtain ⟨done, ret, -, -, added, -⟩ := wf.addKey data below above (rootFits adds) mmapOk
    rw [call_set_missing wf mapped searched added] at called
    obtain ⟨rfl, -⟩ := Prod.mk.inj (Option.some.inj called)
    exact drift_addKey wf below above (rootFits adds) added

theorem drift_get (wf : WellFormed t tree queue) (mapped : t.mapped = true)
    (called : t.call mmapOk (.get key) = some (t', reply)) : t'.drift = t.drift := by
  rcases wf.search_spec key with ⟨frames, c, l, s, r, rfl, rfl, -, searched⟩ |
    ⟨frames, rfl, searched, below, above⟩
  · rw [call_get_found wf mapped searched] at called
    obtain ⟨rfl, -⟩ := Prod.mk.inj (Option.some.inj called)
    rfl
  · rw [call_get_missing wf mapped searched] at called
    obtain ⟨rfl, -⟩ := Prod.mk.inj (Option.some.inj called)
    rfl

theorem drift_find (wf : WellFormed t tree queue) (mapped : t.mapped = true)
    (called : t.call mmapOk (.find key) = some (t', reply)) : t'.drift = t.drift := by
  rcases wf.search_spec key with ⟨frames, c, l, s, r, rfl, rfl, -, searched⟩ |
    ⟨frames, rfl, searched, below, above⟩
  · rw [call_find_found wf mapped searched] at called
    obtain ⟨rfl, -⟩ := Prod.mk.inj (Option.some.inj called)
    rfl
  · rw [call_find_missing wf mapped searched] at called
    obtain ⟨rfl, -⟩ := Prod.mk.inj (Option.some.inj called)
    rfl

/-- `remove` of a datum that is not 0 lets the counter drift by one. -/
theorem drift_remove (wf : WellFormed t tree queue) (mapped : t.mapped = true)
    (called : t.call mmapOk (.remove key) = some (t', reply)) :
    t'.drift = t.drift + if (Call.remove key).KeepsNonzero t then 0 else 1 := by
  rcases wf.search_spec key with ⟨frames, c, l, s, r, rfl, rfl, -, searched⟩ |
    ⟨frames, rfl, searched, below, above⟩
  · obtain ⟨done, root', removed, -⟩ := wf.removeNode
    rw [call_remove_found wf mapped searched mmapOk removed] at called
    obtain ⟨rfl, -⟩ := Prod.mk.inj (Option.some.inj called)
    rw [drift_removeNode wf removed]
    have keeps := keepsNonzero_iff wf mapped
    by_cases zero : s.data = 0
    · rw [if_pos (keeps.mpr zero), if_neg (not_not.mpr zero)]
    · rw [if_neg (mt keeps.mp zero), if_pos zero]
  · rw [call_remove_missing wf mapped searched] at called
    obtain ⟨rfl, -⟩ := Prod.mk.inj (Option.some.inj called)
    have keeps : (Call.remove key).KeepsNonzero t := by
      intro _ x inTree same
      rw [wf.tree_eq, toList_plug, toList_nil, List.append_nil, List.mem_append] at inTree
      rcases inTree with before | after
      · exact absurd same (below x before).ne
      · exact absurd same (above x after).ne'
    rw [if_pos keeps, drift_setErr, add_zero]

/-- The counter drifts by one in each remove of a key whose datum is not 0. -/
theorem drift_call (wf : WellFormed t tree queue) {call : Call} (rootFits : call.RootFits t)
    (called : t.call mmapOk call = some (t', reply)) :
    t'.drift = t.drift + if call.KeepsNonzero t then 0 else 1 := by
  cases mapped : t.mapped with
  | false =>
    rw [call_unmapped wf mapped mmapOk call] at called
    obtain ⟨rfl, -⟩ := Prod.mk.inj (Option.some.inj called)
    have keeps : call.KeepsNonzero t := by
      cases call <;> simp [Call.KeepsNonzero, mapped]
    rw [if_pos keeps, drift_setErr, add_zero]
  | true =>
    cases call with
    | insert key data =>
      rw [drift_insert wf mapped rootFits called]
      simp [Call.KeepsNonzero]
    | update key data op =>
      rw [drift_update wf mapped called]
      simp [Call.KeepsNonzero]
    | set key data op =>
      rw [drift_set wf mapped rootFits called]
      simp [Call.KeepsNonzero]
    | get key =>
      rw [drift_get wf mapped called]
      simp [Call.KeepsNonzero]
    | find key =>
      rw [drift_find wf mapped called]
      simp [Call.KeepsNonzero]
    | remove key => exact drift_remove wf mapped called

end Drift

/-- From an exact counter on, the counter stays exact in a run precisely when the run's removes
take no key whose datum is not 0; it never falls behind. -/
theorem drift_run {t : CMmtree} {tree : RBNode Slot} {queue : List Nat}
    {calls : List (Call × Bool)} (wf : WellFormed t tree queue)
    (fits : Throughout (fun t step => step.1.RootFits t) t calls) :
    ∃ t' replies, t.run calls = some (t', replies) ∧ t.drift ≤ t'.drift ∧
      (t'.drift = t.drift ↔ Throughout (fun t step => step.1.KeepsNonzero t) t calls) := by
  induction calls generalizing t tree queue with
  | nil => exact ⟨t, [], rfl, le_refl _, iff_of_true rfl trivial⟩
  | cons step rest ih =>
    obtain ⟨here, later⟩ := fits
    obtain ⟨t₁, reply, tree₁, queue₁, taken⟩ := wf.step step.2 step.1 here
    have drifted := drift_call wf here taken.called
    rw [taken.called] at later
    obtain ⟨t₂, replies, ran, ahead, exact⟩ := ih taken.wellFormed later
    refine ⟨t₂, reply :: replies, by simp [CMmtree.run, taken.called, ran], ?_, ?_⟩
    · split_ifs at drifted <;> omega
    · rw [Throughout, taken.called]
      dsimp only
      rw [← exact]
      by_cases keeps : step.1.KeepsNonzero t
      · rw [if_pos keeps] at drifted
        simp only [keeps, true_and]
        omega
      · rw [if_neg keeps] at drifted
        simp only [keeps, false_and, iff_false]
        omega

/-- In a run whose calls find their slots, the counter counts the keys with data that are not 0
precisely when no remove took one of them. -/
theorem getNonzeroNum_exact_iff (calls : List (Call × Bool))
    (fits : Throughout (fun t step => step.1.SlotFits t step.2) CMmtree.initNewFile calls) :
    ∃ t replies, CMmtree.initNewFile.run calls = some (t, replies) ∧
      (t.mapped = true → (t.getNonzeroNum = (t.tree.toList.countP fun s => s.data ≠ 0) ↔
        Throughout (fun t step => step.1.KeepsNonzero t) CMmtree.initNewFile calls)) := by
  obtain ⟨t, replies, ran, -, exact⟩ :=
    drift_run wellFormed_initNewFile (fits.mono fun _ _ slotFits => slotFits.1)
  have start : CMmtree.initNewFile.drift = 0 := by
    rw [wellFormed_initNewFile.drift_eq]
    rfl
  refine ⟨t, replies, ran, fun _ => ?_⟩
  rw [← exact, start, CMmtree.drift, nonzeroNum]
  omega

/-- The datum is subtracted to 0 before its key is removed. -/
theorem getNonzeroNum_exact_iff_zeroed :
    ∃ t replies, CMmtree.initNewFile.run
        [(.insert 1 5, true), (.set 2 7 MMT_OP_SET, true), (.update 1 5 MMT_OP_SUB, true),
          (.remove 1, true)] = some (t, replies) ∧
      t.getNonzeroNum = (t.tree.toList.countP fun s => s.data ≠ 0) := by
  obtain ⟨t, replies, ran, exact⟩ := getNonzeroNum_exact_iff
    [(.insert 1 5, true), (.set 2 7 MMT_OP_SET, true), (.update 1 5 MMT_OP_SUB, true),
      (.remove 1, true)] (by decide +kernel)
  have mapped : (CMmtree.initNewFile.run [(.insert 1 5, true), (.set 2 7 MMT_OP_SET, true),
      (.update 1 5 MMT_OP_SUB, true), (.remove 1, true)]).map (·.1.mapped) = some true := by
    decide +kernel
  rw [ran, Option.map_some, Option.some.injEq] at mapped
  exact ⟨t, replies, ran, (exact mapped).mpr (by decide +kernel)⟩

/-- After inserting key 1 with datum 5 and removing it the tree is empty and the counter is 1. -/
theorem remove_keeps_count :
    ∃ t replies, CMmtree.initNewFile.run [(.insert 1 5, true), (.remove 1, true)] =
      some (t, replies) ∧ t.tree.toList = [] ∧ t.getNonzeroNum = 1 := by
  have counted : (CMmtree.initNewFile.run [(.insert 1 5, true), (.remove 1, true)]).map
      (fun result => (result.1.tree.toList, result.1.getNonzeroNum)) = some ([], 1) := by
    decide +kernel
  obtain ⟨⟨t, replies⟩, ran, counters⟩ := Option.map_eq_some_iff.mp counted
  obtain ⟨empty, one⟩ := Prod.mk.inj counters
  exact ⟨t, replies, ran, empty, one⟩

end Taomee.Mmtree
