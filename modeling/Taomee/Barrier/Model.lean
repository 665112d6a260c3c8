import Taomee.Library.CircularList
import Taomee.Library.RingBuffer
import Taomee.Library.SearchTree

/-!
# The barrier ring queue: shared memory

What the two variants of `c_barrier_ring_queue` (balanced and dmux) have in common:
the shared segment, its lists and its tree, `push`, the copy made by `pop`, and the
clean-up calls. Node `i` of the array is the pointer `i + 1`, and `NULL` is 0.

The fields of `assist_array_node` are one map each. `rb_insert_color` and `rb_erase`
are a `Balancing` of the tree. A loop takes fuel and returns `none` when it runs out.
-/

namespace Taomee.Barrier

open CircularList SearchTree

variable {β : Type*}

/-- The error numbers of `c_barrier_ring_queue.h`; `success` is 0. -/
inductive Errno where
  | success
  | notInit
  | invalidParam
  | noEnoughMem
  | noEnoughRqBuffer
  | noEnoughBuffer
  deriving DecidableEq

/-- `struct barrier_ring_queue_meta`, the ring and the node array. -/
structure Shm (β : Type*) where
  pBuffer : Nat → β
  bufferLen : Nat
  headIndex : Nat
  tailIndex : Nat
  usedPHead : Nat
  usedPReadHead : Nat
  emptyPHead : Nat
  reserveHeadIndex : Nat
  reserveTailIndex : Nat
  rbRoot : BinTree Nat
  key : Nat → Int
  flag : Nat → Int
  addr : Nat → Nat
  length : Nat → Nat
  emptyUsedList : Links Nat
  homoList : Links Nat

/-- What `init` leaves: a ring of `bufferLen` bytes and `nodes` unused nodes. -/
def Shm.fresh (bufferLen nodes : Nat) (byte : β) : Shm β where
  pBuffer _ := byte
  bufferLen := bufferLen
  headIndex := 0
  tailIndex := 0
  usedPHead := 0
  usedPReadHead := 0
  emptyPHead := 0
  reserveHeadIndex := 0
  reserveTailIndex := nodes
  rbRoot := .leaf
  key _ := 0
  flag _ := 0
  addr _ := 0
  length _ := 0
  emptyUsedList := ⟨fun _ => 0, fun _ => 0⟩
  homoList := ⟨fun _ => 0, fun _ => 0⟩

/-- `list_empty`. -/
def listEmpty (links : Links Nat) (head : Nat) : Bool := links.next head = head

/-- `list_is_last`. -/
def listIsLast (links : Links Nat) (list head : Nat) : Bool := links.next list = head

namespace Shm

def moveRingQueueHeadIndex (s : Shm β) : Shm β :=
  { s with headIndex := if s.usedPHead ≠ 0 then s.addr s.usedPHead else s.tailIndex }

def usedListDel (s : Shm β) (node : Nat) : Shm β :=
  if s.usedPHead = node then
    if listEmpty s.emptyUsedList node then
      moveRingQueueHeadIndex { s with usedPHead := 0 }
    else
      let moved := moveRingQueueHeadIndex { s with usedPHead := s.emptyUsedList.next node }
      { moved with emptyUsedList := moved.emptyUsedList.listDel 0 node }
  else
    { s with emptyUsedList := s.emptyUsedList.listDel 0 node }

def popEmptyListNode (s : Shm β) : Nat × Shm β :=
  if s.emptyPHead = 0 then
    if s.reserveTailIndex - s.reserveHeadIndex ≤ 0 then (0, s)
    else (s.reserveHeadIndex + 1, { s with reserveHeadIndex := s.reserveHeadIndex + 1 })
  else if listIsLast s.emptyUsedList s.emptyPHead s.emptyPHead then
    (s.emptyPHead, { s with emptyPHead := 0 })
  else
    (s.emptyPHead,
      { s with
        emptyPHead := s.emptyUsedList.next s.emptyPHead
        emptyUsedList := s.emptyUsedList.listDel 0 s.emptyPHead })

def pushEmptyListNode (s : Shm β) (node : Nat) : Shm β :=
  if s.emptyPHead ≠ 0 then
    { s with emptyUsedList := s.emptyUsedList.listAddTail node s.emptyPHead }
  else
    { s with emptyUsedList := s.emptyUsedList.initListHead node, emptyPHead := node }

def pushUsedListNode (s : Shm β) (node : Nat) : Shm β :=
  if s.usedPHead ≠ 0 then
    { s with
      emptyUsedList := s.emptyUsedList.listAddTail node s.usedPHead
      usedPReadHead := if s.usedPReadHead = 0 then node else s.usedPReadHead }
  else
    { s with
      emptyUsedList := s.emptyUsedList.initListHead node
      usedPHead := node
      usedPReadHead := node }

/-- The unread cursor moves past `node`, the node under it. -/
def moveReadHead (s : Shm β) (node : Nat) : Shm β :=
  if listIsLast s.emptyUsedList node s.usedPHead then { s with usedPReadHead := 0 }
  else { s with usedPReadHead := s.emptyUsedList.next node }

def setFlag (s : Shm β) (node : Nat) (flag : Int) : Shm β :=
  { s with flag := Function.update s.flag node flag }

def emptyListEmpty (s : Shm β) : Bool :=
  ¬ (s.emptyPHead ≠ 0 ∨ s.reserveHeadIndex < s.reserveTailIndex)

variable (balancing : Balancing Nat)

/-- `rb_insert`: the node already filed under the key, or `NULL` after filing `node`. -/
def rbInsert (s : Shm β) (key : Int) (node : Nat) : Nat × Shm β :=
  let linked := s.rbRoot.link s.key key node
  match linked.1 with
  | some present => (present, s)
  | none => (0, { s with rbRoot := balancing.insertColor node linked.2 })

def rbErase (s : Shm β) (node : Nat) : Shm β :=
  { s with rbRoot := balancing.erase node s.rbRoot }

def rbReplaceNode (s : Shm β) (victim new : Nat) : Shm β :=
  { s with rbRoot := s.rbRoot.replace victim new }

def rbSearch (s : Shm β) (key : Int) : Option Nat := s.rbRoot.search s.key key

def rbSearch4pid (s : Shm β) (pid : Int) : Option Nat :=
  s.rbRoot.searchBy fun node => s.flag node = pid

/-- Give a used node back: `used_list_del`, then `push_empty_list_node`. -/
def release (s : Shm β) (node : Nat) : Shm β := (s.usedListDel node).pushEmptyListNode node

/-- `list_for_each_entry` over the waiting list of `head`, releasing each entry. -/
def releaseHomo (head : Nat) : Nat → Shm β → Nat → Option (Shm β)
  | 0, _, _ => none
  | fuel + 1, s, pos =>
    if pos = head then some s
    else
      let released := s.release pos
      releaseHomo head fuel released (released.homoList.next pos)

/-- The common body of `clean_4pid` and `clean_4key`. -/
def cleanNode (s : Shm β) (node : Nat) : Option (Shm β) :=
  let erased := s.rbErase balancing node
  (releaseHomo node (s.reserveTailIndex + 1) erased (erased.homoList.next node)).map
    fun released => released.release node

def clean4pid (s : Shm β) (pid : Int) : Option (Shm β) :=
  match s.rbSearch4pid pid with
  | none => some s
  | some node => s.cleanNode balancing node

def clean4key (s : Shm β) (key : Int) : Option (Shm β) :=
  match s.rbSearch key with
  | none => some s
  | some node => s.cleanNode balancing node

/-- The loop at the start of `push`: while there is no free node, clean up after the
holder of the oldest used node, if `kill(pid, 0)` reports that it is gone. The answer
says whether a free node was found. -/
def reclaim (gone : Int → Bool) : Nat → Shm β → Option (Bool × Shm β)
  | 0, _ => none
  | fuel + 1, s =>
    if s.emptyListEmpty then
      if s.usedPHead = s.usedPReadHead then some (false, s)
      else if gone (s.flag s.usedPHead) then do
        let cleaned ← s.clean4pid balancing (s.flag s.usedPHead)
        reclaim gone fuel cleaned
      else some (false, s)
    else some (true, s)

/-- The copy of a packet into the ring, with the new `tail_index`; `none` when it does
not fit. -/
def copyPacketIn (s : Shm β) (pData : List β) : Option ((Nat → β) × Nat) :=
  if s.tailIndex ≥ s.headIndex then
    let curEmptyBufferLen := s.bufferLen - (s.tailIndex - s.headIndex) - 1
    if pData.length > curEmptyBufferLen then none
    else
      let partialEmptyBufferLen := s.bufferLen - s.tailIndex
      if pData.length < partialEmptyBufferLen then
        some (RingBuffer.copyIn s.pBuffer s.tailIndex pData, s.tailIndex + pData.length)
      else
        some
          (RingBuffer.copyIn
            (RingBuffer.copyIn s.pBuffer s.tailIndex (pData.take partialEmptyBufferLen)) 0
            (pData.drop partialEmptyBufferLen),
          pData.length - partialEmptyBufferLen)
  else
    let curEmptyBufferLen := s.headIndex - s.tailIndex - 1
    if pData.length > curEmptyBufferLen then none
    else some (RingBuffer.copyIn s.pBuffer s.tailIndex pData, s.tailIndex + pData.length)

/-- The rest of `push` once the packet is in the ring: a free node takes it. -/
def fillNode (s : Shm β) (addr length : Nat) (key flag : Int) : Nat × Shm β :=
  let popped := s.popEmptyListNode
  let filled : Shm β :=
    { popped.2 with
      key := Function.update popped.2.key popped.1 key
      flag := Function.update popped.2.flag popped.1 flag
      addr := Function.update popped.2.addr popped.1 addr
      length := Function.update popped.2.length popped.1 length }
  (popped.1, filled.pushUsedListNode popped.1)

/-- The outcome of `push`: the error number set, if any (the return value is then -1
and otherwise 0), and `p_empty_list_node`. -/
structure PushReply (β : Type*) where
  errno : Option Errno
  node : Nat
  shm : Shm β

/-- `push`. `pData` is the packet, `none` for a null pointer. -/
def push (gone : Int → Bool) (mInit : Bool) (pData : Option (List β)) (key flag : Int)
    (s : Shm β) : Option (PushReply β) :=
  if !mInit then some ⟨some .notInit, 0, s⟩
  else
    match pData with
    | none => some ⟨some .invalidParam, 0, s⟩
    | some [] => some ⟨some .invalidParam, 0, s⟩
    | some pData => do
      let (found, s) ← reclaim balancing gone (s.reserveTailIndex + 1) s
      if !found then some ⟨some .noEnoughMem, 0, s⟩
      else
        match s.copyPacketIn pData with
        | none => some ⟨some .noEnoughRqBuffer, 0, s⟩
        | some (pBuffer, tailIndex) =>
          let copied : Shm β := { s with pBuffer := pBuffer, tailIndex := tailIndex }
          let (node, filled) := copied.fillNode s.tailIndex pData.length key flag
          some ⟨none, node, filled⟩

/-- The copy that `pop` makes of the packet of a node. -/
def copyPacketOut (s : Shm β) (node : Nat) : List β :=
  if s.addr node ≤ s.tailIndex then RingBuffer.copyOut s.pBuffer (s.addr node) (s.length node)
  else
    let partialBufferLen := s.bufferLen - s.addr node
    if s.length node < partialBufferLen then
      RingBuffer.copyOut s.pBuffer (s.addr node) (s.length node)
    else
      RingBuffer.copyOut s.pBuffer (s.addr node) partialBufferLen
        ++ RingBuffer.copyOut s.pBuffer 0 (s.length node - partialBufferLen)

end Shm

end Taomee.Barrier
