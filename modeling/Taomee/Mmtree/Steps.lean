import Taomee.Mmtree.Balance

/-!
# What a call does

One lemma for each call, all of the same shape: `Step` says how the object, its
tree and the map it stands for move together.
-/

namespace Taomee.Mmtree

open RBTree RBTree.RBNode RBTree.RBColor RedBlack

/-- The repair of this call meets no sibling with a red child. -/
def Call.Mends (t : CMmtree) : Call → Prop
  | .remove key =>
    Mendable (RedBlack.zoom Slot.key key t.tree []).2 (RedBlack.zoom Slot.key key t.tree []).1
  | _ => True

instance (t : CMmtree) (call : Call) : Decidable (call.Mends t) :=
  match call with
  | .remove _ => inferInstanceAs (Decidable (Mendable _ _))
  | .insert .. | .update .. | .set .. | .get _ | .find _ => .isTrue trivial

/-- A call takes the object with `tree` to one with `tree'`. -/
structure Step (t : CMmtree) (tree : RBNode Slot) (mmapOk : Bool) (call : Call)
    (t' : CMmtree) (reply : Reply) (tree' : RBNode Slot) (queue' : List Nat) : Prop where
  called : t.call mmapOk call = some (t', reply)
  wellFormed : WellFormed t' tree' queue'
  mapped : t.mapped = true → call.InRange t mmapOk → t'.mapped = true
  refines : t.mapped = true → call.InRange t mmapOk →
    ∀ contents, Represents contents tree →
      Represents (contents.call call).1 tree' ∧ (contents.call call).2 = reply
  balances : Balances tree → call.Mends t → Balances tree'

namespace WellFormed

variable {t : CMmtree} {tree : RBNode Slot} {queue : List Nat}
variable {contents : Contents} {frames : List (Frame Slot)}

/-- The error text is beside the tree. -/
theorem setErr (wf : WellFormed t tree queue) (errNo : Int) (msg : String) :
    WellFormed (t.setErr errNo msg) tree queue :=
  { wf with queued := wf.queued.frame (fun _ _ => rfl) rfl rfl rfl }

/-- A leaf found by a search: the map has no binding for the key. -/
theorem lookup_missing {key : Int} (represents : Represents contents (plug frames .nil))
    (below : ∀ x ∈ itemsBefore frames, x.key < key) (above : ∀ x ∈ itemsAfter frames, key < x.key) :
    contents.lookup key = none := by
  refine represents.lookup_eq_none fun x member => ?_
  rw [toList_plug, toList_nil, List.append_nil, List.mem_append] at member
  rcases member with inBefore | inAfter
  · exact (below x inBefore).ne
  · exact (above x inAfter).ne'

/-- A node found by a search: the map binds the key to its datum. -/
theorem lookup_found {c : RBColor} {l r : RBNode Slot} {s : Slot}
    (represents : Represents contents (plug frames (.node c l s r))) :
    contents.lookup s.key = some s.data :=
  represents.lookup_eq_some (by simp [toList_plug])

/-- In a sorted tree no other item has the key of the cursor. -/
theorem key_ne_of_sorted (wf : WellFormed t tree queue) {before after : List Slot} {s : Slot}
    (items : tree.toList = before ++ s :: after) : ∀ x, x ∈ before ∨ x ∈ after → x.key ≠ s.key := by
  have sorted := wf.sorted
  rw [items, List.map_append, List.map_cons, List.pairwise_append, List.pairwise_cons] at sorted
  obtain ⟨_, ⟨aboveHere, _⟩, apart⟩ := sorted
  rintro x (inBefore | inAfter)
  · exact (apart _ (List.mem_map_of_mem inBefore) _ List.mem_cons_self).ne
  · exact (aboveHere _ (List.mem_map_of_mem inAfter)).ne'

/-- Putting an item between the others adds or replaces its binding. -/
theorem represents_insert {tree' : RBNode Slot} {queue' : List Nat} {t' : CMmtree}
    {before after middle : List Slot} {s : Slot} (wf' : WellFormed t' tree' queue')
    (represents : Represents contents tree) (items : tree.toList = before ++ middle ++ after)
    (items' : tree'.toList = before ++ s :: after) (replaced : ∀ x ∈ middle, x.key = s.key) :
    Represents (contents.insert s.key s.data) tree' := by
  have others := wf'.key_ne_of_sorted items'
  refine represents.insert (fun x different => ?_) (fun x member same => ?_) ?_
  · rw [items, items']
    simp only [List.mem_append, List.mem_cons]
    tauto
  · rw [items', List.mem_append, List.mem_cons] at member
    rcases member with inBefore | rfl | inAfter
    · exact absurd same (others x (.inl inBefore))
    · rfl
    · exact absurd same (others x (.inr inAfter))
  · rw [items']
    simp

/-- Taking an item out removes its binding. -/
theorem represents_erase {tree' : RBNode Slot} {before after : List Slot} {s : Slot}
    (wf : WellFormed t tree queue) (represents : Represents contents tree)
    (items : tree.toList = before ++ s :: after) (items' : tree'.toList = before ++ after) :
    Represents (contents.erase s.key) tree' := by
  have others := wf.key_ne_of_sorted items
  refine represents.erase (fun x different => ?_) (fun x member => ?_)
  · rw [items, items']
    simp only [List.mem_append, List.mem_cons]
    tauto
  · rw [items', List.mem_append] at member
    exact others x member

/-- Adding a key, in the order in which `insert` and `set` try it. -/
theorem addKey {key : Int} (data : Int32) (wf : WellFormed t (plug frames .nil) queue)
    (below : ∀ x ∈ itemsBefore frames, x.key < key) (above : ∀ x ∈ itemsAfter frames, key < x.key)
    (rootFits : t.state.rootId = 0 → t.state.current + 1 < t.state.total) (mmapOk : Bool) :
    ∃ t' ret tree' queue',
      (if t.state.rootId = 0 then some (t.insertRootNode key data, 0)
        else t.insertNewNode mmapOk (parentId frames) key data) = some (t', ret) ∧
      WellFormed t' tree' queue' ∧ (Balances (plug frames .nil) → Balances tree') ∧
      (t.mapped = true → t.nextSlot < t.capacity mmapOk → ret = 0 ∧ t'.mapped = true ∧
        ∃ id, tree'.toList = itemsBefore frames ++ ⟨id, key, data⟩ :: itemsAfter frames) := by
  cases frames with
  | nil =>
    have empty : t.state.rootId = 0 := wf.stored.rootEq
    refine ⟨_, 0, _, queue, by rw [if_pos empty], wf.insertRootNode key data (rootFits empty),
      fun _ => ⟨1, .black .nil .nil⟩, fun mapped _ => ⟨rfl, mapped, _, rfl⟩⟩
  | cons frame rest =>
    have nonempty : t.state.rootId ≠ 0 := by
      rw [wf.stored.rootEq]
      have inFrames := rootId_plug_mem frame rest .nil
      exact ((layout_plug.mp wf.stored.layout).1.positive inFrames).ne'
    rw [if_neg nonempty, parentId_cons]
    rcases wf.insertNewNode data rfl below above mmapOk with
      ⟨full, failed, t', result, wf'⟩ | ⟨t', tree', queue', id, result, wf', mapped, items, kept⟩
    · refine ⟨t', -1, _, queue, result, wf', id, fun _ inRange => ?_⟩
      simp [CMmtree.capacity, nonempty, full, failed] at inRange
    · exact ⟨t', 0, tree', queue', result, wf', kept, fun was _ => ⟨rfl, mapped was, id, items⟩⟩

/-- Applying an operation to the datum of a key that was found. -/
theorem applyOp {c : RBColor} {l r : RBNode Slot} {s : Slot}
    (wf : WellFormed t (plug frames (.node c l s r)) queue) (data : Int32) (op : Int) :
    ∃ t' ret tree', t.updateNodeValue s.id data op = (t', ret) ∧ t'.mapped = t.mapped ∧
      WellFormed t' tree' queue ∧ (Balances (plug frames (.node c l s r)) → Balances tree') ∧
      ∀ contents, Represents contents (plug frames (.node c l s r)) →
        Represents (contents.overwrite s.key s.data data op).1 tree' ∧
          (contents.overwrite s.key s.data data op).2 = ⟨ret, none⟩ := by
  have updated := wf.updateNodeValue data op
  have combined := toOption_opResult op s.data data
  cases result : CMmtree.opResult op s.data data with
  | error msg =>
    rw [result] at updated combined
    refine ⟨_, _, _, updated, rfl, wf.setErr _ _, id, fun contents represents => ?_⟩
    rw [Contents.overwrite, ← combined]
    exact ⟨represents, rfl⟩
  | ok new =>
    rw [result] at updated combined
    obtain ⟨t', called, mapped, wf'⟩ := updated
    refine ⟨t', 0, _, called, mapped, wf', fun balances => balances.replace _,
      fun contents represents => ?_⟩
    rw [Contents.overwrite, ← combined]
    have items : (plug frames (.node c l s r)).toList =
        (itemsBefore frames ++ l.toList) ++ [s] ++ (r.toList ++ itemsAfter frames) := by
      simp [toList_plug]
    have items' : (overwrite frames c l s r new).toList =
        (itemsBefore frames ++ l.toList) ++ { s with data := new } ::
          (r.toList ++ itemsAfter frames) := by
      simp [overwrite, toList_plug]
    exact ⟨represents_insert wf' represents items items' (by simp), rfl⟩

end WellFormed

section Calls

variable {t : CMmtree} {tree : RBNode Slot} {queue : List Nat} {frames : List (Frame Slot)}

/-- Without a mapping every call fails and changes nothing. -/
theorem call_unmapped (wf : WellFormed t tree queue) (unmapped : t.mapped = false)
    (mmapOk : Bool) (call : Call) :
    t.call mmapOk call =
      some (t.setErr MMT_IFACE_EINSERT "m_state or m_map is null.", ⟨-1, none⟩) := by
  cases call <;>
    simp [CMmtree.call, CMmtree.insert, CMmtree.update, CMmtree.set, CMmtree.get, CMmtree.find,
      CMmtree.findNode, CMmtree.remove, CMmtree.requireInited, CMmtree.requireMapped,
      wf.inited, unmapped]

/-- Without a mapping every call fails and changes nothing. -/
theorem step_unmapped (wf : WellFormed t tree queue) (unmapped : t.mapped = false)
    (mmapOk : Bool) (call : Call) : ∃ t' reply, Step t tree mmapOk call t' reply tree queue :=
  ⟨_, _, call_unmapped wf unmapped mmapOk call, wf.setErr _ _, by simp [unmapped],
    by simp [unmapped], fun balances _ => balances⟩

/-- The root lies inside the mapping. -/
theorem rootId_lt_total (wf : WellFormed t tree queue) : t.state.rootId < t.state.total := by
  by_cases empty : rootId tree = 0
  · have bounded := wf.bounded
    rw [wf.stored.rootEq, empty]
    omega
  · rw [wf.stored.rootEq]
    exact wf.id_lt_total (rootId_mem_ids empty)

/-- With a node at a cursor the root is not null. -/
theorem rootId_ne_zero {c : RBColor} {l r : RBNode Slot} {s : Slot}
    (wf : WellFormed t (plug frames (.node c l s r)) queue) : t.state.rootId ≠ 0 := by
  rw [wf.stored.rootEq]
  cases frames with
  | nil => exact wf.stored.positive_node.ne'
  | cons frame rest =>
    have inFrames := rootId_plug_mem frame rest (.node c l s r)
    exact ((layout_plug.mp wf.stored.layout).1.positive inFrames).ne'

/-! What a call runs, by where its search stops. -/

section Found

variable {frames : List (Frame Slot)} {c : RBColor} {l r : RBNode Slot} {s : Slot}

/-- `insert` refuses a key that is there. -/
theorem call_insert_found (wf : WellFormed t (plug frames (.node c l s r)) queue)
    (mapped : t.mapped = true) (searched : t.search s.key = some (.found s.id)) (data : Int32)
    (mmapOk : Bool) :
    t.call mmapOk (.insert s.key data) =
      some (t.setErr MMT_IFACE_EINSERT s!"key({s.key}) has been exist.", ⟨-1, none⟩) := by
  simp only [CMmtree.call, CMmtree.insert, CMmtree.requireInited, CMmtree.requireMapped,
    wf.inited, mapped, rootId_ne_zero wf, rootId_lt_total wf, searched, if_true, if_false,
    Option.map_some]

/-- `set` updates a key that is there. -/
theorem call_set_found (wf : WellFormed t (plug frames (.node c l s r)) queue)
    (mapped : t.mapped = true) (searched : t.search s.key = some (.found s.id)) (data : Int32)
    (op : Int) (mmapOk : Bool) :
    t.call mmapOk (.set s.key data op) = some ((t.updateNodeValue s.id data op).1,
      ⟨(t.updateNodeValue s.id data op).2, none⟩) := by
  simp only [CMmtree.call, CMmtree.set, CMmtree.requireInited, CMmtree.requireMapped,
    wf.inited, mapped, rootId_ne_zero wf, searched, if_true, if_false, Option.map_some]

/-- `update` updates a key that is there. -/
theorem call_update_found (wf : WellFormed t (plug frames (.node c l s r)) queue)
    (mapped : t.mapped = true) (searched : t.search s.key = some (.found s.id)) (data : Int32)
    (op : Int) (mmapOk : Bool) :
    t.call mmapOk (.update s.key data op) = some ((t.updateNodeValue s.id data op).1,
      ⟨(t.updateNodeValue s.id data op).2, none⟩) := by
  simp only [CMmtree.call, CMmtree.update, CMmtree.requireInited, CMmtree.requireMapped,
    wf.inited, mapped, rootId_ne_zero wf, not_le.mpr (rootId_lt_total wf), or_self, searched,
    if_true, if_false, Option.map_some]

/-- `get` reads the datum of a key that is there. -/
theorem call_get_found (wf : WellFormed t (plug frames (.node c l s r)) queue)
    (mapped : t.mapped = true) (searched : t.search s.key = some (.found s.id)) (mmapOk : Bool) :
    t.call mmapOk (.get s.key) = some (t, ⟨0, some s.data⟩) := by
  simp only [CMmtree.call, CMmtree.get, CMmtree.requireInited, CMmtree.requireMapped,
    wf.inited, mapped, searched, if_true, Option.map_some, wf.stored.here_node, cell_data]

/-- `find` finds a key that is there. -/
theorem call_find_found (wf : WellFormed t (plug frames (.node c l s r)) queue)
    (mapped : t.mapped = true) (searched : t.search s.key = some (.found s.id)) (mmapOk : Bool) :
    t.call mmapOk (.find s.key) = some (t, ⟨0, none⟩) := by
  simp only [CMmtree.call, CMmtree.find, CMmtree.findNode, CMmtree.requireInited,
    CMmtree.requireMapped, wf.inited, mapped, searched, if_true, Option.map_some]

/-- `remove` takes out the node of the key. -/
theorem call_remove_found (wf : WellFormed t (plug frames (.node c l s r)) queue)
    (mapped : t.mapped = true) (searched : t.search s.key = some (.found s.id)) (mmapOk : Bool)
    {t' : CMmtree} {root' : Nat}
    (removed : t.removeNode t.state.rootId s.id = some (t', root', 0)) :
    t.call mmapOk (.remove s.key) =
      some ({ t' with state := { t'.state with rootId := root' } }, ⟨0, none⟩) := by
  have nonempty := Nat.pos_iff_ne_zero.mpr (rootId_ne_zero wf)
  simp only [CMmtree.call, CMmtree.remove, CMmtree.findNode, CMmtree.requireInited,
    CMmtree.requireMapped, wf.inited, mapped, searched, if_true, nonempty, removed]
  rfl

end Found

section Missing

variable {key : Int} {id : Nat}

/-- `insert` adds a node for a new key. -/
theorem call_insert_missing (wf : WellFormed t tree queue) (mapped : t.mapped = true)
    (searched : t.search key = some (.missing id)) {data : Int32} {mmapOk : Bool}
    {result : CMmtree × Int}
    (added : (if t.state.rootId = 0 then some (t.insertRootNode key data, 0)
      else t.insertNewNode mmapOk id key data) = some result) :
    t.call mmapOk (.insert key data) = some (result.1, ⟨result.2, none⟩) := by
  simp only [CMmtree.call, CMmtree.insert, CMmtree.requireInited, CMmtree.requireMapped,
    wf.inited, mapped, rootId_lt_total wf, searched, if_true, added, Option.map_some]

/-- `set` adds a node for a new key. -/
theorem call_set_missing (wf : WellFormed t tree queue) (mapped : t.mapped = true)
    (searched : t.search key = some (.missing id)) {data : Int32} {op : Int} {mmapOk : Bool}
    {result : CMmtree × Int}
    (added : (if t.state.rootId = 0 then some (t.insertRootNode key data, 0)
      else t.insertNewNode mmapOk id key data) = some result) :
    t.call mmapOk (.set key data op) = some (result.1, ⟨result.2, none⟩) := by
  simp only [CMmtree.call, CMmtree.set, CMmtree.requireInited, CMmtree.requireMapped,
    wf.inited, mapped, searched, if_true, added, Option.map_some]

/-- `update` refuses a key that is not there. -/
theorem call_update_missing (wf : WellFormed t tree queue) (mapped : t.mapped = true)
    (searched : t.search key = some (.missing id)) (data : Int32) (op : Int) (mmapOk : Bool) :
    ∃ msg, t.call mmapOk (.update key data op) =
      some (t.setErr MMT_IFACE_EINSERT msg, ⟨-1, none⟩) := by
  simp only [CMmtree.call, CMmtree.update, CMmtree.requireInited, CMmtree.requireMapped,
    wf.inited, mapped, searched, if_true]
  split <;> exact ⟨_, rfl⟩

/-- `get` refuses a key that is not there. -/
theorem call_get_missing (wf : WellFormed t tree queue) (mapped : t.mapped = true)
    (searched : t.search key = some (.missing id)) (mmapOk : Bool) :
    t.call mmapOk (.get key) =
      some (t.setErr MMT_IFACE_EFIND s!"not found key({key}) in tree.", ⟨-1, none⟩) := by
  simp only [CMmtree.call, CMmtree.get, CMmtree.requireInited, CMmtree.requireMapped,
    wf.inited, mapped, searched, if_true, Option.map_some]

/-- `find` answers 1 for a key that is not there. -/
theorem call_find_missing (wf : WellFormed t tree queue) (mapped : t.mapped = true)
    (searched : t.search key = some (.missing id)) (mmapOk : Bool) :
    t.call mmapOk (.find key) =
      some (t.setErr MMT_IFACE_EFIND s!"not found key({key}) in tree.", ⟨1, none⟩) := by
  simp only [CMmtree.call, CMmtree.find, CMmtree.findNode, CMmtree.requireInited,
    CMmtree.requireMapped, wf.inited, mapped, searched, if_true, Option.map_some]

/-- `remove` refuses a key that is not there. -/
theorem call_remove_missing (wf : WellFormed t tree queue) (mapped : t.mapped = true)
    (searched : t.search key = some (.missing id)) (mmapOk : Bool) :
    t.call mmapOk (.remove key) =
      some (t.setErr MMT_IFACE_EFIND s!"not found key({key}) in tree.", ⟨-1, none⟩) := by
  simp only [CMmtree.call, CMmtree.remove, CMmtree.findNode, CMmtree.requireInited,
    CMmtree.requireMapped, wf.inited, mapped, searched]
  rfl

end Missing

/-- A call that only sets the error, or nothing at all. -/
theorem step_of_error {t' : CMmtree} {mmapOk : Bool} {call : Call} {reply : Reply}
    (wf : WellFormed t tree queue) (called : t.call mmapOk call = some (t', reply))
    (same : t' = t ∨ ∃ errNo msg, t' = t.setErr errNo msg)
    (replied : ∀ contents, Represents contents tree → contents.call call = (contents, reply)) :
    Step t tree mmapOk call t' reply tree queue := by
  refine ⟨called, ?_, fun was _ => ?_, fun _ _ contents represents => ?_,
    fun balances _ => balances⟩
  · rcases same with rfl | ⟨errNo, msg, rfl⟩
    · exact wf
    · exact wf.setErr errNo msg
  · rcases same with rfl | ⟨errNo, msg, rfl⟩ <;> exact was
  · rw [replied contents represents]
    exact ⟨represents, rfl⟩

variable {key : Int}

/-- `insert` and `set` add a missing key alike. -/
theorem step_of_add {call : Call} {mmapOk : Bool} (data : Int32)
    (wf : WellFormed t (plug frames .nil) queue) (below : ∀ x ∈ itemsBefore frames, x.key < key)
    (above : ∀ x ∈ itemsAfter frames, key < x.key) (rootFits : call.RootFits t)
    (adds : call.adds t = true) (called : ∀ result,
      (if t.state.rootId = 0 then some (t.insertRootNode key data, 0)
        else t.insertNewNode mmapOk (parentId frames) key data) = some result →
      t.call mmapOk call = some (result.1, ⟨result.2, none⟩))
    (replied : ∀ contents : Contents, contents.lookup key = none →
      contents.call call = (contents.insert key data, ⟨0, none⟩)) :
    ∃ t' reply tree' queue', Step t (plug frames .nil) mmapOk call t' reply tree' queue' := by
  obtain ⟨t', ret, tree', queue', result, wf', balances, done⟩ :=
    wf.addKey data below above (rootFits adds) mmapOk
  refine ⟨t', ⟨ret, none⟩, tree', queue', called _ result, wf',
    fun was inRange => (done was (inRange adds).1).2.1,
    fun was inRange contents represents => ?_, fun was _ => balances was⟩
  obtain ⟨rfl, _, id, items⟩ := done was (inRange adds).1
  have leaf : (plug frames .nil).toList = itemsBefore frames ++ [] ++ itemsAfter frames := by
    simp [toList_plug]
  rw [replied contents (WellFormed.lookup_missing represents below above)]
  exact ⟨WellFormed.represents_insert wf' represents leaf items (by simp), rfl⟩

/-- `update` and `set` change a present key alike. -/
theorem step_of_applyOp {c : RBColor} {l r : RBNode Slot} {s : Slot} {call : Call} {mmapOk : Bool}
    (data : Int32) (op : Int) (wf : WellFormed t (plug frames (.node c l s r)) queue)
    (called : t.call mmapOk call = some ((t.updateNodeValue s.id data op).1,
      ⟨(t.updateNodeValue s.id data op).2, none⟩))
    (replied : ∀ contents : Contents, contents.lookup s.key = some s.data →
      contents.call call = contents.overwrite s.key s.data data op) :
    ∃ t' reply tree' queue',
      Step t (plug frames (.node c l s r)) mmapOk call t' reply tree' queue' := by
  obtain ⟨t', ret, tree', result, mapped, wf', balances, refines⟩ := wf.applyOp data op
  rw [result] at called
  refine ⟨t', ⟨ret, none⟩, tree', queue, called, wf', fun was _ => mapped.trans was,
    fun _ _ contents represents => ?_, fun was _ => balances was⟩
  rw [replied contents (WellFormed.lookup_found represents)]
  exact refines contents represents

/-- One `insert`. -/
theorem step_insert (wf : WellFormed t tree queue) (mapped : t.mapped = true) (data : Int32)
    (mmapOk : Bool) (rootFits : (Call.insert key data).RootFits t) :
    ∃ t' reply tree' queue', Step t tree mmapOk (.insert key data) t' reply tree' queue' := by
  rcases wf.search_spec key with ⟨frames, c, l, s, r, rfl, rfl, zoomed, searched⟩ |
    ⟨frames, rfl, searched, below, above⟩
  · have called := call_insert_found wf mapped searched data mmapOk
    refine ⟨_, _, _, _, step_of_error wf called (.inr ⟨_, _, rfl⟩) fun contents represents => ?_⟩
    simp only [Contents.call, WellFormed.lookup_found represents]
  · have adds : (Call.insert key data).adds t = true := by simp [Call.adds, searched]
    refine step_of_add data wf below above rootFits adds ?_ fun contents none => ?_
    · exact fun _ added => call_insert_missing wf mapped searched added
    · simp only [Contents.call, none]

/-- One `set`. -/
theorem step_set (wf : WellFormed t tree queue) (mapped : t.mapped = true) (data : Int32)
    (op : Int) (mmapOk : Bool) (rootFits : (Call.set key data op).RootFits t) :
    ∃ t' reply tree' queue', Step t tree mmapOk (.set key data op) t' reply tree' queue' := by
  rcases wf.search_spec key with ⟨frames, c, l, s, r, rfl, rfl, zoomed, searched⟩ |
    ⟨frames, rfl, searched, below, above⟩
  · refine step_of_applyOp data op wf ?_ fun contents found => ?_
    · exact call_set_found wf mapped searched data op mmapOk
    · simp only [Contents.call, found]
  · have adds : (Call.set key data op).adds t = true := by simp [Call.adds, searched]
    refine step_of_add data wf below above rootFits adds ?_ fun contents none => ?_
    · exact fun _ added => call_set_missing wf mapped searched added
    · simp only [Contents.call, none]

/-- One `update`. -/
theorem step_update (wf : WellFormed t tree queue) (mapped : t.mapped = true) (data : Int32)
    (op : Int) (mmapOk : Bool) :
    ∃ t' reply tree' queue', Step t tree mmapOk (.update key data op) t' reply tree' queue' := by
  rcases wf.search_spec key with ⟨frames, c, l, s, r, rfl, rfl, zoomed, searched⟩ |
    ⟨frames, rfl, searched, below, above⟩
  · refine step_of_applyOp data op wf ?_ fun contents found => ?_
    · exact call_update_found wf mapped searched data op mmapOk
    · simp only [Contents.call, found]
  · obtain ⟨msg, called⟩ := call_update_missing wf mapped searched data op mmapOk
    refine ⟨_, _, _, _, step_of_error wf called (.inr ⟨_, _, rfl⟩) fun contents represents => ?_⟩
    simp only [Contents.call, WellFormed.lookup_missing represents below above]

/-- One `get`. -/
theorem step_get (wf : WellFormed t tree queue) (mapped : t.mapped = true) (mmapOk : Bool) :
    ∃ t' reply tree' queue', Step t tree mmapOk (.get key) t' reply tree' queue' := by
  rcases wf.search_spec key with ⟨frames, c, l, s, r, rfl, rfl, zoomed, searched⟩ |
    ⟨frames, rfl, searched, below, above⟩
  · have called := call_get_found wf mapped searched mmapOk
    refine ⟨_, _, _, _, step_of_error wf called (.inl rfl) fun contents represents => ?_⟩
    simp only [Contents.call, WellFormed.lookup_found represents]
  · have called := call_get_missing wf mapped searched mmapOk
    refine ⟨_, _, _, _, step_of_error wf called (.inr ⟨_, _, rfl⟩) fun contents represents => ?_⟩
    simp only [Contents.call, WellFormed.lookup_missing represents below above]

/-- One `find`. -/
theorem step_find (wf : WellFormed t tree queue) (mapped : t.mapped = true) (mmapOk : Bool) :
    ∃ t' reply tree' queue', Step t tree mmapOk (.find key) t' reply tree' queue' := by
  rcases wf.search_spec key with ⟨frames, c, l, s, r, rfl, rfl, zoomed, searched⟩ |
    ⟨frames, rfl, searched, below, above⟩
  · have called := call_find_found wf mapped searched mmapOk
    refine ⟨_, _, _, _, step_of_error wf called (.inl rfl) fun contents represents => ?_⟩
    simp only [Contents.call, WellFormed.lookup_found represents]
  · have called := call_find_missing wf mapped searched mmapOk
    refine ⟨_, _, _, _, step_of_error wf called (.inr ⟨_, _, rfl⟩) fun contents represents => ?_⟩
    simp only [Contents.call, WellFormed.lookup_missing represents below above]

/-- One `remove`. -/
theorem step_remove (wf : WellFormed t tree queue) (mapped : t.mapped = true) (mmapOk : Bool) :
    ∃ t' reply tree' queue', Step t tree mmapOk (.remove key) t' reply tree' queue' := by
  rcases wf.search_spec key with ⟨frames, c, l, s, r, rfl, rfl, zoomed, searched⟩ |
    ⟨frames, rfl, searched, below, above⟩
  · obtain ⟨t', root', removed, sameMapped, sameRoot, wf'⟩ := wf.removeNode
    have called := call_remove_found wf mapped searched mmapOk removed
    refine ⟨_, ⟨0, none⟩, _, _, called, wf', fun was _ => sameMapped.trans was,
      fun _ _ contents represents => ?_, fun was mends => ?_⟩
    · have items : (plug frames (.node c l s r)).toList =
          (itemsBefore frames ++ l.toList) ++ s :: (r.toList ++ itemsAfter frames) := by
        simp [toList_plug]
      have items' : (erase (t.map 0).color frames (.node c l s r)).toList =
          (itemsBefore frames ++ l.toList) ++ (r.toList ++ itemsAfter frames) := by
        simp [toList_erase wf]
      simp only [Contents.call, WellFormed.lookup_found represents]
      exact ⟨WellFormed.represents_erase wf represents items items', trivial⟩
    · rw [Call.Mends, wf.tree_eq, zoomed] at mends
      exact balances_erase _ was mends
  · have called := call_remove_missing wf mapped searched mmapOk
    refine ⟨_, _, _, _, step_of_error wf called (.inr ⟨_, _, rfl⟩) fun contents represents => ?_⟩
    simp only [Contents.call, WellFormed.lookup_missing represents below above]

end Calls

end Taomee.Mmtree
