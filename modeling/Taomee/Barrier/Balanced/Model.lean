import Taomee.Barrier.Push

/-!
# The balanced barrier queue: pop

`pop` of the balanced variant. A worker that comes back is done with its last packet,
whose node it gives back, and takes the next one of the same key or reads on. The
process id of the worker and the two functions of the red-black tree are parameters.
-/

namespace Taomee.Barrier.Balanced

open CircularList SearchTree

variable {β : Type*}

/-- The members of a worker's `c_barrier_ring_queue` that outlive a call. -/
structure Worker where
  mInit : Bool
  mLastFlag : Int
  mLastKey : Int
  mPAssistArrayNode : Nat
  deriving DecidableEq

/-- After the constructor and `init`. -/
def Worker.initial : Worker := ⟨true, 0, 0, 0⟩

/-- `is_able_pop`. -/
def isAblePop (w : Worker) (s : Shm β) : Bool :=
  s.usedPReadHead ≠ 0 ∨ (w.mLastFlag ≠ 0 ∧ ¬ listEmpty s.homoList w.mPAssistArrayNode)

/-- The outcome of `pop_used_list_node`: whether it fails, with
`ERROR_NO_ENOUGH_BUFFER`, and `*pp_assist_array_node`. -/
structure PopNode (β : Type*) where
  failed : Bool
  node : Nat
  worker : Worker
  shm : Shm β

variable (balancing : Balancing Nat) (pid : Int) (dataLen : Int)

/-- From the label `loop` on: read the node under the unread cursor. -/
def readLoop : Nat → Worker → Shm β → Option (PopNode β)
  | 0, _, _ => none
  | fuel + 1, w, s =>
    let node := s.usedPReadHead
    if node = 0 then some ⟨false, 0, { w with mLastFlag := 0 }, s⟩
    else if (s.length node : Int) > dataLen then some ⟨true, 0, w, s⟩
    else
      let moved := s.moveReadHead node
      if moved.flag node = 0 then
        some ⟨false, node, { w with mLastFlag := 0 }, moved.release node⟩
      else
        let inserted := moved.rbInsert balancing (moved.key node) node
        if inserted.1 ≠ 0 then
          readLoop fuel w
            { inserted.2 with homoList := inserted.2.homoList.listAddTail node inserted.1 }
        else
          let filed : Shm β :=
            { inserted.2 with homoList := inserted.2.homoList.initListHead node }
          some ⟨false, node,
            { w with
              mLastFlag := filed.flag node
              mLastKey := filed.key node
              mPAssistArrayNode := node },
            filed.setFlag node pid⟩

/-- `pop_used_list_node`. -/
def popUsedListNode (w : Worker) (s : Shm β) : Option (PopNode β) :=
  if w.mLastFlag ≠ 0 then
    let last := w.mPAssistArrayNode
    if listEmpty s.homoList last then
      let erased := s.rbErase balancing last
      let given := erased.release last
      readLoop balancing pid dataLen (s.reserveTailIndex + 1) w given
    else
      let next := s.homoList.next last
      if (s.length next : Int) > dataLen then some ⟨true, 0, w, s⟩
      else
        let replaced := s.rbReplaceNode last next
        let unlinked : Shm β :=
          { replaced with homoList := replaced.homoList.listDel 0 last }
        some ⟨false, next, { w with mPAssistArrayNode := next },
          (unlinked.release last).setFlag next pid⟩
  else readLoop balancing pid dataLen (s.reserveTailIndex + 1) w s

/-- The outcome of `pop`: the error number set, if any (the return value is then -1),
the node, and the bytes copied to the caller (the return value is their number). -/
structure PopReply (β : Type*) where
  errno : Option Errno
  node : Nat
  data : List β
  worker : Worker
  shm : Shm β

/-- `pop`. `given` says that `p_data` is not a null pointer. -/
def pop (given : Bool) (w : Worker) (s : Shm β) : Option (PopReply β) :=
  if !w.mInit then some ⟨some .notInit, 0, [], w, s⟩
  else if !given ∨ dataLen ≤ 0 then some ⟨some .invalidParam, 0, [], w, s⟩
  else do
    let popped ← popUsedListNode balancing pid dataLen w s
    -- `ERROR_NO_ENOUGH_BUFFER` of the inner call is overwritten
    if popped.failed then some ⟨some .invalidParam, 0, [], popped.worker, popped.shm⟩
    else if popped.node = 0 then some ⟨none, 0, [], popped.worker, popped.shm⟩
    else some ⟨none, popped.node, popped.shm.copyPacketOut popped.node, popped.worker, popped.shm⟩

end Taomee.Barrier.Balanced
