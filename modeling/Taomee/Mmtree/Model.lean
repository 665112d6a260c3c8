import Taomee.Library.RedBlack

/-!
# mmtree: the tree in a mapped array

`c_mmtree` keeps an ordered map from `int` keys to `int` data in a memory-mapped
array of nodes. Slot 0 is the null sentinel; the other slots are linked by
`left`, `right` and `parent` ids. Left and right versions of an operation are one
definition over `Side`; by-value scratch arguments of the source (`lid`, `rid`,
`ppid` and so on, always assigned before they are read) are local bindings.

A loop takes fuel and returns `none` when it runs out. `int` data wraps at 32
bits. Ids and node counts are natural numbers: an array whose `int` counters could
overflow would exceed 48 GB, and `Call.InRange` excludes it.
-/

namespace Taomee.Mmtree

open RBTree RBTree.RBColor RedBlack

/-- `mt_node_t`. Colour 0 is black and 1 is red. -/
structure MtNode where
  key : Int
  data : Int32
  left : Nat
  right : Nat
  parent : Nat
  color : RBColor
  deriving DecidableEq

/-- `memset(node, 0, sizeof(mt_node_t))`. -/
def MtNode.zero : MtNode := ⟨0, 0, 0, 0, 0, black⟩

/-- The child id on one side. -/
def MtNode.child (node : MtNode) : Side → Nat
  | .left => node.left
  | .right => node.right

/-- Overwrite the child id on one side. -/
def MtNode.setChild (node : MtNode) (side : Side) (id : Nat) : MtNode :=
  match side with
  | .left => { node with left := id }
  | .right => { node with right := id }

def MtNode.setParent (node : MtNode) (id : Nat) : MtNode := { node with parent := id }

def MtNode.setColor (node : MtNode) (color : RBColor) : MtNode := { node with color := color }

/-- `m_map`. Whether a slot lies inside the mapping is stated separately. -/
structure NodeMap where
  node : Nat → MtNode

instance : CoeFun NodeMap fun _ => Nat → MtNode := ⟨NodeMap.node⟩

namespace NodeMap

/-- Overwrite one slot by a function of its contents. -/
def modify (m : NodeMap) (id : Nat) (change : MtNode → MtNode) : NodeMap :=
  let changed := change (m id)
  ⟨Function.update m.node id changed⟩

def setParent (m : NodeMap) (id parent : Nat) : NodeMap :=
  m.modify id (·.setParent parent)

def setColor (m : NodeMap) (id : Nat) (color : RBColor) : NodeMap :=
  m.modify id (·.setColor color)

def setChild (m : NodeMap) (side : Side) (id child : Nat) : NodeMap :=
  m.modify id (·.setChild side child)

@[simp] theorem modify_same (m : NodeMap) (id : Nat) (change : MtNode → MtNode) :
    m.modify id change id = change (m id) := by
  simp [modify]

theorem modify_of_ne (m : NodeMap) {id other : Nat} (change : MtNode → MtNode)
    (different : other ≠ id) : m.modify id change other = m other := by
  simp [modify, different]

end NodeMap

/-- The four-way update of a link in the source: the parent's link to `id`, or
the root when there is no parent, now names `new`. -/
def replaceChild (m : NodeMap) (root pid id new : Nat) : NodeMap × Nat :=
  if 0 < pid then
    if (m pid).left = id then (m.setChild .left pid new, root)
    else (m.setChild .right pid new, root)
  else (m, new)

/-- `mmtree_rotate_left` for `Side.left` and `mmtree_rotate_right` for `Side.right`. -/
def mmtreeRotate (side : Side) (m : NodeMap) (root id : Nat) : NodeMap × Nat :=
  let rid := (m id).child side.other
  if 0 < rid then
    let lid := (m rid).child side
    let m := m.setChild side.other id lid
    let m := if 0 < lid then m.setParent lid id else m
    let ppid := (m id).parent
    let m := m.setParent rid ppid
    let (m, root) := replaceChild m root ppid id rid
    let m := m.setChild side rid id
    (m.setParent id rid, root)
  else (m, root)

def mmtreeRotateLeft : NodeMap → Nat → Nat → NodeMap × Nat := mmtreeRotate .left
def mmtreeRotateRight : NodeMap → Nat → Nat → NodeMap × Nat := mmtreeRotate .right

/-- One iteration of `mmtree_insert_color` with `pid` on the given side of
`gpid`: the map, the root and the next `id`. -/
def insertColorStep (side : Side) (m : NodeMap) (root id pid gpid : Nat) :
    NodeMap × Nat × Nat :=
  let uid := (m gpid).child side.other
  if 0 < uid ∧ (m uid).color = red then
    (((m.setColor uid black).setColor pid black).setColor gpid red, root, gpid)
  else
    let (m, root, id, pid) :=
      if (m pid).child side.other = id then
        let (m, root) := mmtreeRotate side m root pid
        (m, root, pid, id)
      else (m, root, id, pid)
    let m := (m.setColor pid black).setColor gpid red
    let (m, root) := mmtreeRotate side.other m root gpid
    (m, root, id)

/-- The loop of `mmtree_insert_color`. -/
def insertColorLoop : Nat → NodeMap → Nat → Nat → Option (NodeMap × Nat)
  | 0, _, _, _ => none
  | fuel + 1, m, root, id =>
    let pid := (m id).parent
    if 0 < pid ∧ (m pid).color = red then
      let gpid := (m pid).parent
      let side := if pid = (m gpid).left then Side.left else Side.right
      let (m, root, id) := insertColorStep side m root id pid gpid
      insertColorLoop fuel m root id
    else some (m, root)

/-- `mmtree_insert_color`. -/
def mmtreeInsertColor (fuel : Nat) (m : NodeMap) (root id : Nat) : Option (NodeMap × Nat) :=
  match insertColorLoop fuel m root id with
  | none => none
  | some (m, root) => some (if 0 < root then m.setColor root black else m, root)

/-- How an iteration of `mmt_remove_color` ends: `more` carries the next `id` and
`pid`, `done` leaves the loop with `id = *p_rootid`. -/
inductive RemoveColorStep where
  | more (m : NodeMap) (root id pid : Nat)
  | done (m : NodeMap) (root : Nat)

/-- The first test of an iteration of `mmt_remove_color`: a red sibling is turned
above `pid`. -/
def liftRedSibling (side : Side) (m : NodeMap) (root pid : Nat) : NodeMap × Nat :=
  let uid := (m pid).child side.other
  if (m uid).color = red then
    mmtreeRotate side ((m.setColor uid black).setColor pid red) root pid
  else (m, root)

/-- The third test: without a red outer child of `uid`, its inner child is turned
above it. -/
def liftInnerChild (side : Side) (m : NodeMap) (root uid : Nat) : NodeMap × Nat :=
  let rid := (m uid).child side.other
  let lid := (m uid).child side
  if rid = 0 ∨ (m rid).color = black then
    mmtreeRotate side.other ((m.setColor lid black).setColor uid red) root uid
  else (m, root)

/-- An iteration of `mmt_remove_color` from its second test on. The test asks for
the colour of `uid` itself, not of its children. -/
def recolorSibling (side : Side) (m : NodeMap) (root pid : Nat) : RemoveColorStep :=
  let uid := (m pid).child side.other
  if ((m uid).left = 0 ∨ (m uid).color = black) ∧
      ((m uid).right = 0 ∨ (m uid).color = black) then
    let m := m.setColor uid red
    .more m root pid (m pid).parent
  else
    let (m, root) := liftInnerChild side m root uid
    let uid := (m pid).child side.other
    let m := (m.setColor uid (m pid).color).setColor pid black
    let rid := (m uid).child side.other
    let m := if 0 < rid then m.setColor rid black else m
    let (m, root) := mmtreeRotate side m root pid
    .done m root

/-- One iteration of `mmt_remove_color` with `id` on the given side of `pid`. -/
def removeColorStep (side : Side) (m : NodeMap) (root pid : Nat) : RemoveColorStep :=
  let (m, root) := liftRedSibling side m root pid
  recolorSibling side m root pid

/-- The loop of `mmt_remove_color`: the map, the root and the final `id`. -/
def removeColorLoop : Nat → NodeMap → Nat → Nat → Nat → Option (NodeMap × Nat × Nat)
  | 0, _, _, _, _ => none
  | fuel + 1, m, root, id, pid =>
    if (id = 0 ∨ (m id).color = black) ∧ id ≠ root then
      let side := if (m pid).left = id then Side.left else Side.right
      match removeColorStep side m root pid with
      | .more m root id pid => removeColorLoop fuel m root id pid
      | .done m root => some (m, root, root)
    else some (m, root, id)

/-- `mmt_remove_color`. -/
def mmtRemoveColor (fuel : Nat) (m : NodeMap) (root id pid : Nat) : Option (NodeMap × Nat) :=
  match removeColorLoop fuel m root id pid with
  | none => none
  | some (m, root, id) => some (if 0 < id then m.setColor id black else m, root)

/-! ## The object -/

/-- The counters of `mt_state_t`; the digest and the version are only written. -/
structure MtState where
  rootId : Nat
  left : Int
  current : Nat
  nonzero : Int
  total : Nat
  qleft : Nat
  qfirst : Nat
  qlast : Nat
  deriving DecidableEq

/-- `c_mmtree`. `mapped` says that `m_state` and `m_map` are not null; `errno` and
`strerr` hold the last error. -/
structure CMmtree where
  inited : Bool
  mapped : Bool
  state : MtState
  map : NodeMap
  incrementNum : Nat
  errno : Int
  strerr : String

def MMT_IFACE_EINIT : Int := 1
def MMT_IFACE_EMMAP : Int := 2
def MMT_IFACE_EINSERT : Int := 3
def MMT_IFACE_EFIND : Int := 4
def MMT_IFACE_EOP : Int := 5

def INITIAL_INCREMENT_SIZE : Nat := 100
def MAX_INCREMENT_SIZE : Nat := 102300

def MMT_OP_ADD : Int := 1
def MMT_OP_SUB : Int := 2
def MMT_OP_MUL : Int := 3
def MMT_OP_DIV : Int := 4
def MMT_OP_MAX : Int := 5
def MMT_OP_MIN : Int := 6
def MMT_OP_SET : Int := 7

namespace CMmtree

def setErr (t : CMmtree) (errNo : Int) (msg : String) : CMmtree :=
  { t with errno := errNo, strerr := msg }

/-- `mmtree_increment`; the first argument says whether `mmap` succeeds. A failed
mapping leaves the object without `m_state` and `m_map`. -/
def mmtreeIncrement (mmapOk : Bool) (t : CMmtree) : CMmtree × Int :=
  if mmapOk then
    let state := { t.state with
      left := t.state.left + t.incrementNum - (if t.state.total = 0 then 1 else 0)
      total := t.state.total + t.incrementNum }
    let num := t.incrementNum * 2
    ({ t with
        mapped := true
        state := state
        incrementNum := if num > MAX_INCREMENT_SIZE then INITIAL_INCREMENT_SIZE else num }, 0)
  else ({ t with mapped := false }.setErr MMT_IFACE_EMMAP "mmap failed.", -1)

/-- The object after `init` on a new file: `ftruncate` fills it with zeroes. -/
def initNewFile : CMmtree :=
  let constructed : CMmtree :=
    ⟨false, false, ⟨0, 0, 0, 0, 0, 0, 0, 0⟩, ⟨fun _ => .zero⟩, INITIAL_INCREMENT_SIZE, 0, ""⟩
  { (mmtreeIncrement true constructed).1 with inited := true }

/-- Where the search loop stops: at the node with the key, or at another id. -/
inductive Search where
  | found (id : Nat)
  | missing (id : Nat)
  deriving DecidableEq

/-- The search loop that `insert`, `update`, `set`, `get` and `find` share. -/
def searchLoop (m : NodeMap) (total : Nat) (key : Int) : Nat → Nat → Option Search
  | 0, _ => none
  | fuel + 1, id =>
    if 0 < id ∧ id < total then
      if key = (m id).key then some (.found id)
      else if key > (m id).key then
        if (m id).right = 0 then some (.missing id)
        else searchLoop m total key fuel (m id).right
      else if (m id).left = 0 then some (.missing id)
      else searchLoop m total key fuel (m id).left
    else some (.missing id)

/-- The search from the root. -/
def search (t : CMmtree) (key : Int) : Option Search :=
  searchLoop t.map t.state.total key t.state.total t.state.rootId

/-- `insert_root_node`: always takes the next slot that was never used. -/
def insertRootNode (t : CMmtree) (key : Int) (data : Int32) : CMmtree :=
  let id := t.state.current + 1
  { t with
    state := { t.state with
      rootId := id
      current := id
      left := t.state.left - 1
      nonzero := t.state.nonzero + (if data ≠ 0 then 1 else 0) }
    map := t.map.modify id fun _ => { MtNode.zero with key := key, data := data } }

/-- The allocation of `insert_new_node`: the oldest slot of the queue, or the next
slot that was never used. -/
def takeSlot (t : CMmtree) : CMmtree × Nat :=
  if 0 < t.state.qleft then
    let id := t.state.qfirst
    ({ t with
        state := { t.state with qfirst := (t.map id).parent, qleft := t.state.qleft - 1 } }, id)
  else
    let id := t.state.current + 1
    ({ t with state := { t.state with current := id } }, id)

/-- `insert_new_node`: put a node below `nodeId`. -/
def insertNewNode (mmapOk : Bool) (t : CMmtree) (nodeId : Nat) (key : Int) (data : Int32) :
    Option (CMmtree × Int) :=
  let (t, ret) := if t.state.left = 0 then mmtreeIncrement mmapOk t else (t, 0)
  if ret ≠ 0 then some (t, -1)
  else
    let (t, id) := t.takeSlot
    let m := t.map.modify id fun node =>
      { node with parent := nodeId, key := key, data := data }
    let m := m.setChild (if key > (m nodeId).key then .right else .left) nodeId id
    let m := m.setColor id red
    match mmtreeInsertColor t.state.total m t.state.rootId id with
    | none => none
    | some (m, root) =>
      some ({ t with
        state := { t.state with
          rootId := root
          left := t.state.left - 1
          nonzero := t.state.nonzero + (if data ≠ 0 then 1 else 0) }
        map := m }, 0)

/-- Whether `p_node->data /= data` traps: the quotient of the least `int` and -1 is no `int`. -/
def divTraps (op : Int) (old data : Int32) : Bool :=
  op = MMT_OP_DIV && old = Int32.minValue && data = -1

/-- The `switch` of `update_node_value`: the new data or the error text. Where the division
traps there is no result: this gives the wrapped quotient, and `exec` stops before it. -/
def opResult (op : Int) (old data : Int32) : Except String Int32 :=
  if op = MMT_OP_ADD then .ok (old + data)
  else if op = MMT_OP_SUB then .ok (old - data)
  else if op = MMT_OP_MUL then .ok (old * data)
  else if op = MMT_OP_DIV then
    if data = 0 then .error "divisor can not be zero." else .ok (old / data)
  else if op = MMT_OP_MAX then .ok (if data > old then data else old)
  else if op = MMT_OP_MIN then .ok (if data < old then data else old)
  else if op = MMT_OP_SET then .ok data
  else .error s!"unknown op {op}."

/-- `update_node_value`. -/
def updateNodeValue (t : CMmtree) (id : Nat) (data : Int32) (op : Int) : CMmtree × Int :=
  let old := (t.map id).data
  match opResult op old data with
  | .error msg => (t.setErr MMT_IFACE_EOP msg, -1)
  | .ok new =>
    let change : Int :=
      if old = 0 ∧ new ≠ 0 then 1 else if old ≠ 0 ∧ new = 0 then -1 else 0
    ({ t with
        state := { t.state with nonzero := t.state.nonzero + change }
        map := t.map.modify id fun node => { node with data := new } }, 0)

/-- The check of `m_inited` that every entry point starts with. -/
def requireInited {β : Type} (t : CMmtree) (failed : CMmtree → β) (body : Option β) :
    Option β :=
  if t.inited then body
  else some (failed (t.setErr MMT_IFACE_EINIT "instance has not been init."))

/-- The check of `m_state && m_map`. -/
def requireMapped {β : Type} (t : CMmtree) (failed : CMmtree → β) (body : Option β) :
    Option β :=
  if t.mapped then body
  else some (failed (t.setErr MMT_IFACE_EINSERT "m_state or m_map is null."))

def insert (mmapOk : Bool) (t : CMmtree) (key : Int) (data : Int32) : Option (CMmtree × Int) :=
  t.requireInited (·, -1) <| t.requireMapped (·, -1) <|
    if t.state.rootId = 0 then some (t.insertRootNode key data, 0)
    else if t.state.rootId < t.state.total then
      match t.search key with
      | none => none
      | some (.found _) =>
        some (t.setErr MMT_IFACE_EINSERT s!"key({key}) has been exist.", -1)
      | some (.missing id) => t.insertNewNode mmapOk id key data
    else
      let rootId := t.state.rootId
      let total := t.state.total
      some (t.setErr MMT_IFACE_EINSERT s!"root_id({rootId}) > total({total}).", -1)

def update (t : CMmtree) (key : Int) (data : Int32) (op : Int) : Option (CMmtree × Int) :=
  t.requireInited (·, -1) <| t.requireMapped (·, -1) <|
    let rootId := t.state.rootId
    let total := t.state.total
    if rootId = 0 ∨ rootId ≥ total then
      some (t.setErr MMT_IFACE_EINSERT
        s!"not found key({key}) in tree, for tree is null(root_id = {rootId}) or root_id({rootId}) > total({total})",
        -1)
    else
      match t.search key with
      | none => none
      | some (.found id) => some (t.updateNodeValue id data op)
      | some (.missing _) =>
        some (t.setErr MMT_IFACE_EINSERT s!"not found key({key}) in tree.", -1)

def set (mmapOk : Bool) (t : CMmtree) (key : Int) (data : Int32) (op : Int) :
    Option (CMmtree × Int) :=
  t.requireInited (·, -1) <| t.requireMapped (·, -1) <|
    if t.state.rootId = 0 then some (t.insertRootNode key data, 0)
    else
      match t.search key with
      | none => none
      | some (.found id) => some (t.updateNodeValue id data op)
      | some (.missing id) => t.insertNewNode mmapOk id key data

/-- `get`; the third component is what is stored through `p_data`. -/
def get (t : CMmtree) (key : Int) : Option (CMmtree × Int × Option Int32) :=
  t.requireInited (·, -1, none) <| t.requireMapped (·, -1, none) <|
    match t.search key with
    | none => none
    | some (.found id) => some (t, 0, some (t.map id).data)
    | some (.missing _) =>
      some (t.setErr MMT_IFACE_EFIND s!"not found key({key}) in tree.", -1, none)

/-- The private `find(key, p_nodeid)`; the third component is `*p_nodeid`. -/
def findNode (t : CMmtree) (key : Int) : Option (CMmtree × Int × Nat) :=
  t.requireMapped (·, -1, 0) <|
    match t.search key with
    | none => none
    | some (.found id) => some (t, 0, id)
    | some (.missing _) =>
      some (t.setErr MMT_IFACE_EFIND s!"not found key({key}) in tree.", 1, 0)

/-- The public `find(key)`. -/
def find (t : CMmtree) (key : Int) : Option (CMmtree × Int) :=
  t.requireInited (·, -1) <|
    match t.findNode key with
    | none => none
    | some (t, ret, _) => some (t, ret)

/-- `while (m_map[id].left > 0) id = m_map[id].left;` -/
def leftmostLoop (m : NodeMap) : Nat → Nat → Option Nat
  | 0, _ => none
  | fuel + 1, id => if 0 < (m id).left then leftmostLoop m fuel (m id).left else some id

/-- The first two branches of `remove_node`, for a node with at most one child: the map,
the root, and the `child`, `parent` and `color` the repair starts from. -/
def unlinkNode (m : NodeMap) (root nodeId child : Nat) : NodeMap × Nat × Nat × Nat × RBColor :=
  let parent := (m nodeId).parent
  let color := (m nodeId).color
  let m := if 0 < child then m.setParent child parent else m
  let (m, root) := replaceChild m root (m nodeId).parent nodeId child
  (m, root, child, parent, color)

/-- The last branch of `remove_node`, for a node with two children whose in-order
successor is `id`: the successor is cut out and takes the place of the node. -/
def spliceSuccessor (m : NodeMap) (root nodeId id : Nat) :
    NodeMap × Nat × Nat × Nat × RBColor :=
  let parent := (m id).parent
  let color := (m id).color
  let child := (m id).right
  let m := if 0 < child then m.setParent child parent else m
  let (m, root) := replaceChild m root (m id).parent id child
  let parent := if (m id).parent = nodeId then id else parent
  let node := m nodeId
  let m := m.modify id fun successor =>
    { successor with
      color := node.color, parent := node.parent, left := node.left, right := node.right }
  let (m, root) := replaceChild m root (m nodeId).parent nodeId id
  let m := m.setParent (m nodeId).left id
  let rid := (m nodeId).right
  let m := if 0 < rid then m.setParent rid id else m
  (m, root, child, parent, color)

/-- `remove_node` up to `color_move`. -/
def detachNode (m : NodeMap) (total root nodeId : Nat) :
    Option (NodeMap × Nat × Nat × Nat × RBColor) :=
  if (m nodeId).left = 0 then some (unlinkNode m root nodeId (m nodeId).right)
  else if (m nodeId).right = 0 then some (unlinkNode m root nodeId (m nodeId).left)
  else
    match leftmostLoop m total (m nodeId).right with
    | none => none
    | some id => some (spliceSuccessor m root nodeId id)

/-- The end of `remove_node`: the slot is cleared and appended to the free queue. -/
def queueNode (t : CMmtree) (m : NodeMap) (nodeId : Nat) : CMmtree :=
  let m := m.modify nodeId fun _ => .zero
  let m := if t.state.qleft = 0 then m else m.setParent t.state.qlast nodeId
  { t with
    state := { t.state with
      qfirst := if t.state.qleft = 0 then nodeId else t.state.qfirst
      qlast := nodeId
      qleft := t.state.qleft + 1
      left := t.state.left + 1 }
    map := m }

/-- `remove_node`: the object, the new `*p_rootid` and the return value. -/
def removeNode (t : CMmtree) (root nodeId : Nat) : Option (CMmtree × Nat × Int) :=
  if nodeId < t.state.total then
    match detachNode t.map t.state.total root nodeId with
    | none => none
    | some (m, root, child, parent, color) =>
      let recolored :=
        if color = black then mmtRemoveColor t.state.total m root child parent
        else some (m, root)
      match recolored with
      | none => none
      | some (m, root) => some (t.queueNode m nodeId, root, 0)
  else
    let total := t.state.total
    some (t.setErr MMT_IFACE_EINSERT s!"node_id({nodeId}) > total({total}).", root, -1)

def remove (t : CMmtree) (key : Int) : Option (CMmtree × Int) :=
  t.requireInited (·, -1) <|
    match t.findNode key with
    | none => none
    | some (t, ret, nodeId) =>
      if ret ≠ 0 then some (t, -1)
      else if 0 < t.state.rootId then
        match t.removeNode t.state.rootId nodeId with
        | none => none
        | some (t, root, ret) =>
          if ret ≠ 0 then some (t, -1)
          else some ({ t with state := { t.state with rootId := root } }, 0)
      else some (t.setErr MMT_IFACE_EINSERT "no node in tree.", -1)

/-- What `get_nonzero_num` stores through its pointer. -/
def getNonzeroNum (t : CMmtree) : Int := t.state.nonzero

/-- What `get_node_num` stores through its pointer. -/
def getNodeNum (t : CMmtree) : Int := (t.state.current : Int) - t.state.qleft

end CMmtree

end Taomee.Mmtree
