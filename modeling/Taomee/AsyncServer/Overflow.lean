import Taomee.AsyncServer.Shmq

/-!
# async_server: blocks that wait for the ring

`recv_push` and `send_push` first move what waits on `push_list` into the ring, and then push
their block; a safe push puts a block that does not go into the ring on the list.
-/

namespace Taomee.AsyncServer

/-- The loop of `pruge_recv` and `pruge_send` over the blocks that wait. -/
def prugeList (sq : ShmQueue) : List Block → Int × ShmQueue
  | [] => (0, { sq with pushList := [] })
  | block :: later =>
    let pushed := shmqPush sq block
    if pushed.1 = 0 then prugeList pushed.2 later
    else (-1, { sq with pushList := block :: later })

/-- `pruge_recv` and `pruge_send` of one queue. -/
def pruge (sq : ShmQueue) : Int × ShmQueue := prugeList sq sq.pushList

/-- The end of `recv_push` and `send_push`, for a block that is not in the ring; `memory` is
whether `malloc` gets its memory. -/
def keepBlock (ret : Int) (sq : ShmQueue) (block : Block) (safe memory : Bool) : Int × ShmQueue :=
  if !safe then (ret, sq)
  else if !memory then (-1, sq)
  else (0, { sq with pushList := sq.pushList ++ [block] })

/-- `recv_push` and `send_push` to one queue. -/
def safePush (sq : ShmQueue) (block : Block) (safe memory : Bool) : Int × ShmQueue :=
  let ret := (pruge sq).1
  let sq := (pruge sq).2
  if block.sb.len.toNat ≥ sq.size then (-1, sq)
  else
    let pushed := shmqPush sq block
    if ret = 0 ∧ pushed.1 = 0 then (0, pushed.2)
    else keepBlock ret sq block safe memory

/-- `g_shm_queue_mgr` -/
structure ShmQueueMgr where
  recvQueue : Nat → ShmQueue
  sendQueue : Nat → ShmQueue

def recvPush (mgr : ShmQueueMgr) (channel : Nat) (block : Block) (safe memory : Bool) :
    Int × ShmQueueMgr :=
  let pushed := safePush (mgr.recvQueue channel) block safe memory
  (pushed.1, { mgr with recvQueue := Function.update mgr.recvQueue channel pushed.2 })

def sendPush (mgr : ShmQueueMgr) (channel : Nat) (block : Block) (safe memory : Bool) :
    Int × ShmQueueMgr :=
  let pushed := safePush (mgr.sendQueue channel) block safe memory
  (pushed.1, { mgr with sendQueue := Function.update mgr.sendQueue channel pushed.2 })

def recvPull (mgr : ShmQueueMgr) (channel : Nat) (memory : Bool) : Pulled × ShmQueueMgr :=
  let pulled := shmqPull (mgr.recvQueue channel) memory
  (pulled.1, { mgr with recvQueue := Function.update mgr.recvQueue channel pulled.2 })

def sendPull (mgr : ShmQueueMgr) (channel : Nat) (memory : Bool) : Pulled × ShmQueueMgr :=
  let pulled := shmqPull (mgr.sendQueue channel) memory
  (pulled.1, { mgr with sendQueue := Function.update mgr.sendQueue channel pulled.2 })

def prugeRecv (mgr : ShmQueueMgr) (channel : Nat) : Int × ShmQueueMgr :=
  let purged := pruge (mgr.recvQueue channel)
  (purged.1, { mgr with recvQueue := Function.update mgr.recvQueue channel purged.2 })

def prugeSend (mgr : ShmQueueMgr) (channel : Nat) : Int × ShmQueueMgr :=
  let purged := pruge (mgr.sendQueue channel)
  (purged.1, { mgr with sendQueue := Function.update mgr.sendQueue channel purged.2 })

section Purge

variable {sq : ShmQueue} {ring list : List Block} {start : Nat}

/-- What a purge does: it moves the first blocks that wait into the ring, as long as there is
room, and answers 0 when none is left. -/
structure Purged (sq : ShmQueue) (ring list : List Block) (start : Nat)
    (purged : Int × ShmQueue) (moved : List Block) : Prop where
  split : list = moved ++ purged.2.pushList
  holds : purged.2.Holds (ring ++ moved) start
  size : purged.2.size = sq.size
  ret : purged.1 = if purged.2.pushList = [] then 0 else -1
  full : ∀ block later, purged.2.pushList = block :: later →
    sq.size < (encodeAll (ring ++ moved)).length + (block.sb.len.toNat + 17)

theorem prugeList_spec (holds : sq.Holds ring start) (small : ∀ block ∈ list, block.Small sq.size) :
    ∃ moved, Purged sq ring list start (prugeList sq list) moved := by
  induction list generalizing sq ring with
  | nil =>
    refine ⟨[], ?_⟩
    constructor
    · rfl
    · rw [List.append_nil]
      exact ⟨holds.large, holds.read, holds.write, holds.room, holds.stored, holds.small⟩
    · rfl
    · rfl
    · exact nofun
  | cons block later ih =>
    have pushed := holds.push (small block List.mem_cons_self)
    unfold prugeList
    split at pushed
    case isTrue =>
      obtain ⟨accepted, after, size, -, -⟩ := pushed
      rw [if_pos accepted]
      obtain ⟨moved, purged⟩ := ih after (fun other member => by
        rw [size]
        exact small other (List.mem_cons_of_mem _ member))
      refine ⟨block :: moved, ?_⟩
      have regroup : ring ++ [block] ++ moved = ring ++ block :: moved := by simp
      have full := purged.full
      have holdsAll := purged.holds
      rw [regroup, size] at full
      rw [regroup] at holdsAll
      constructor
      · rw [List.cons_append, ← purged.split]
      · exact holdsAll
      · exact purged.size.trans size
      · exact purged.ret
      · exact full
    case isFalse full =>
      rw [pushed, if_neg (by simp)]
      refine ⟨[], ?_⟩
      constructor
      · rfl
      · rw [List.append_nil]
        exact ⟨holds.large, holds.read, holds.write, holds.room, holds.stored, holds.small⟩
      · rfl
      · rfl
      · intro other rest same
        obtain ⟨rfl, -⟩ := List.cons.inj same
        rw [List.append_nil]
        omega

end Purge

section Push

variable {sq : ShmQueue} {ring : List Block} {block : Block} {start : Nat} {safe memory : Bool}

/-- The bytes in use, as the cursors tell. -/
def ShmQueue.usedBytes (sq : ShmQueue) : Nat :=
  if sq.wPos ≥ sq.rPos then sq.wPos - sq.rPos else sq.size - sq.rPos + sq.wPos

/-- The ring has room for all that waits, but not for a block behind it. -/
def ShmQueue.Overlooks (sq : ShmQueue) (block : Block) : Prop :=
  sq.usedBytes + (encodeAll sq.pushList).length < sq.size ∧ block.sb.len.toNat < sq.size ∧
    sq.size < sq.usedBytes + (encodeAll sq.pushList).length + (block.sb.len.toNat + 17)

/-- What a push does. One that answers 0 puts its block behind all others, in the ring or on
the list, and one that answers something else leaves it out; but an unsafe one may overlook
that the ring is full. -/
structure Pushed (sq : ShmQueue) (ring : List Block) (start : Nat) (block : Block)
    (safe memory : Bool) (pushed : Int × ShmQueue) (after : List Block) : Prop where
  holds : pushed.2.Holds after start
  size : pushed.2.size = sq.size
  order : safe = true ∨ ¬ sq.Overlooks block →
    after ++ pushed.2.pushList
      = ring ++ sq.pushList ++ (if pushed.1 = 0 then [block] else [])
  waits : ∀ other ∈ pushed.2.pushList, other ∈ sq.pushList ∨
    other = block ∧ safe = true ∧ memory = true ∧ block.sb.len.toNat < sq.size

theorem ShmQueue.Holds.with_pushList (holds : sq.Holds ring start) (list : List Block) :
    ShmQueue.Holds { sq with pushList := list } ring start :=
  ⟨holds.large, holds.read, holds.write, holds.room, holds.stored, holds.small⟩

theorem keepBlock_holds (holds : sq.Holds ring start) (ret : Int) (block : Block)
    (safe memory : Bool) :
    (keepBlock ret sq block safe memory).2.Holds ring start ∧
      (keepBlock ret sq block safe memory).2.size = sq.size := by
  unfold keepBlock
  split
  · exact ⟨holds, rfl⟩
  · split
    · exact ⟨holds, rfl⟩
    · exact ⟨holds.with_pushList _, rfl⟩

theorem keepBlock_order {ret : Int} (told : safe = true ∨ ret ≠ 0) :
    (keepBlock ret sq block safe memory).2.pushList
      = sq.pushList ++ (if (keepBlock ret sq block safe memory).1 = 0 then [block] else []) := by
  unfold keepBlock
  cases safe with
  | false =>
    have failed : ret ≠ 0 := by simpa using told
    simp [failed]
  | true => cases memory <;> simp

theorem mem_keepBlock {ret : Int} {other : Block}
    (member : other ∈ (keepBlock ret sq block safe memory).2.pushList) :
    other ∈ sq.pushList ∨ other = block ∧ safe = true ∧ memory = true := by
  unfold keepBlock at member
  cases safe <;> cases memory <;> simp_all

theorem safePush_spec (holds : sq.Holds ring start)
    (listSmall : ∀ other ∈ sq.pushList, other.Small sq.size)
    (small : block.sb.len.toNat < sq.size → block.Small sq.size) (safe memory : Bool) :
    ∃ after, Pushed sq ring start block safe memory (safePush sq block safe memory) after := by
  have used : sq.usedBytes = (encodeAll ring).length := holds.used
  obtain ⟨moved, split', held, size, ret, -⟩ := prugeList_spec holds listSmall
  unfold safePush pruge
  generalize prugeList sq sq.pushList = out at split' held size ret ⊢
  have regroup : ring ++ sq.pushList = ring ++ moved ++ out.2.pushList := by
    rw [split', List.append_assoc]
  have stays : ∀ other ∈ out.2.pushList, other ∈ sq.pushList := by
    intro other member
    rw [split']
    exact List.mem_append_right _ member
  rw [← size] at small
  dsimp only
  split
  case isTrue =>
    refine ⟨ring ++ moved, held, size, ?_, fun other member => .inl (stays other member)⟩
    rw [regroup]
    simp
  case isFalse short =>
    have pushed := held.push (small (Nat.lt_of_not_le short))
    have room := held.room
    split
    case isTrue both =>
      obtain ⟨emptied, accepted⟩ := both
      have none : out.2.pushList = [] := by
        by_contra waiting
        rw [ret, if_neg waiting] at emptied
        cases emptied
      split at pushed
      case isFalse =>
        rw [pushed] at accepted
        cases accepted
      case isTrue =>
        obtain ⟨-, after, sizeAfter, -, listAfter⟩ := pushed
        rw [none] at listAfter
        refine ⟨ring ++ moved ++ [block], after, sizeAfter.trans size, ?_, ?_⟩
        · rw [regroup, none]
          simp [listAfter]
        · intro other member
          rw [listAfter] at member
          cases member
    case isFalse refused =>
      obtain ⟨kept, sizeKept⟩ := keepBlock_holds held out.1 block safe memory
      refine ⟨ring ++ moved, kept, sizeKept.trans size, ?_, ?_⟩
      · intro notLost
        rw [regroup, List.append_assoc (ring ++ moved)]
        congr 1
        apply keepBlock_order
        by_cases none : out.2.pushList = []
        · left
          -- an unsafe push would answer 0 here, which the condition excludes
          apply notLost.resolve_right
          intro free
          apply free
          rw [none, List.append_nil] at split'
          have zero : out.1 = 0 := by rw [ret, if_pos none]
          have all := congrArg List.length (encodeAll_append ring moved)
          rw [List.length_append, ← split'] at all
          rw [← split'] at room
          split at pushed
          case isTrue => exact absurd ⟨zero, pushed.1⟩ refused
          case isFalse full =>
            rw [← split'] at full
            unfold ShmQueue.Overlooks
            omega
        · right
          rw [ret, if_neg none]
          decide
      · intro other member
        rcases mem_keepBlock member with old | ⟨same, isSafe, isMemory⟩
        · exact .inl (stays other old)
        · exact .inr ⟨same, isSafe, isMemory, by omega⟩

end Push

section Histories

/-- The blocks whose pushes to a queue have returned 0, and the headers and payloads that
pulls have returned. -/
structure History where
  accepted : List Block
  delivered : List (ShmBlock × List UInt8)

def History.push (history : History) (block : Block) (ret : Int) : History :=
  if ret = 0 then { history with accepted := history.accepted ++ [block] } else history

def History.pull (history : History) : Pulled → History
  | .block sb buf => { history with delivered := history.delivered ++ [(sb, buf)] }
  | _ => history

/-- A queue with its history. -/
structure Tracked where
  queue : ShmQueue
  history : History

inductive QueueCall where
  | push (block : Block) (safe memory : Bool)
  | pruge
  | pull (memory : Bool)

def Tracked.step (tracked : Tracked) : QueueCall → Tracked
  | .push block safe memory =>
    let pushed := safePush tracked.queue block safe memory
    ⟨pushed.2, tracked.history.push block pushed.1⟩
  | .pruge => ⟨(pruge tracked.queue).2, tracked.history⟩
  | .pull memory =>
    let pulled := shmqPull tracked.queue memory
    ⟨pulled.2, tracked.history.pull pulled.1⟩

def Block.contents (block : Block) : ShmBlock × List UInt8 := (block.sb, block.buf)

/-- What was accepted is what was delivered, what is in the ring, and what waits, in this
order. -/
structure Tracked.Ordered (size : Nat) (tracked : Tracked) (ring : List Block) (start : Nat) :
    Prop where
  sized : tracked.queue.size = size
  holds : tracked.queue.Holds ring start
  small : ∀ block ∈ tracked.queue.pushList, block.Small size
  order : tracked.history.delivered ++ (ring ++ tracked.queue.pushList).map Block.contents
    = tracked.history.accepted.map Block.contents

/-- No sum of the push wraps, or the block is refused for its length. -/
def ShmQueue.Measures (sq : ShmQueue) (block : Block) : Prop :=
  block.sb.len.toNat < sq.size → block.Small sq.size

/-- No sum wraps, no unsafe push overlooks that the ring is full, and a pull gets the memory
that it needs. -/
def QueueCall.Kept (tracked : Tracked) : QueueCall → Prop
  | .push block safe _ =>
    tracked.queue.Measures block ∧ (safe = true ∨ ¬ tracked.queue.Overlooks block)
  | .pruge => True
  | .pull memory => memory = true

variable {size start : Nat} {tracked : Tracked} {ring : List Block} {call : QueueCall}

/-- One call on a queue. -/
theorem Tracked.Ordered.step (ordered : tracked.Ordered size ring start)
    (kept : call.Kept tracked) : ∃ ring start, (tracked.step call).Ordered size ring start := by
  obtain ⟨rfl, holds, small, order⟩ := ordered
  cases call with
  | push block safe memory =>
    obtain ⟨blockSmall, notLost⟩ := kept
    obtain ⟨after, pushed⟩ := safePush_spec holds small blockSmall safe memory
    refine ⟨after, start, pushed.size, pushed.holds, ?_, ?_⟩
    · intro other member
      rcases pushed.waits other member with old | ⟨rfl, -, -, short⟩
      · exact small other old
      · exact blockSmall short
    · dsimp only [Tracked.step, History.push]
      rw [pushed.order notLost]
      split
      case isTrue =>
        simp only [List.map_append, ← List.append_assoc] at order ⊢
        rw [order]
      case isFalse => rw [List.append_nil, order]
  | pruge =>
    obtain ⟨moved, purged⟩ := prugeList_spec holds small
    refine ⟨ring ++ moved, start, purged.size, purged.holds, ?_, ?_⟩
    · intro other member
      apply small
      rw [purged.split]
      exact List.mem_append_right _ member
    · show tracked.history.delivered ++ (ring ++ moved ++ (prugeList tracked.queue _).2.pushList).map _
        = tracked.history.accepted.map Block.contents
      rw [← order, List.append_assoc, ← purged.split]
  | pull memory =>
    cases ring with
    | nil =>
      refine ⟨[], start, ?_⟩
      dsimp only [Tracked.step]
      rw [holds.pull_nil]
      exact ⟨rfl, holds, small, order⟩
    | cons block later =>
      obtain ⟨returned, after, sizeAfter, listAfter⟩ := holds.pull_cons memory
      have gets : memory = true := kept
      rw [if_neg (by simp [gets])] at returned
      refine ⟨later, _, sizeAfter, after, ?_, ?_⟩
      · show ∀ other ∈ (shmqPull tracked.queue memory).2.pushList, _
        rw [listAfter]
        exact small
      · dsimp only [Tracked.step]
        rw [returned, listAfter]
        dsimp only [History.pull]
        rw [← order]
        simp [Block.contents]

/-- The blocks that wait fit the ring, once it is empty. -/
structure Tracked.Fitting (size : Nat) (tracked : Tracked) (ring : List Block) (start : Nat) :
    Prop where
  sized : tracked.queue.size = size
  holds : tracked.queue.Holds ring start
  fits : ∀ block ∈ tracked.queue.pushList, block.Small size ∧ block.sb.len.toNat + 17 ≤ size

/-- No sum wraps, and no safe push takes a block that only fails to fit the ring with its
header and the byte that stays free. -/
def QueueCall.Fits (tracked : Tracked) : QueueCall → Prop
  | .push block safe memory =>
    tracked.queue.Measures block ∧
      ¬ (safe = true ∧ memory = true ∧ block.sb.len.toNat < tracked.queue.size ∧
        tracked.queue.size < block.sb.len.toNat + 17)
  | _ => True

theorem Tracked.Fitting.step (fitting : tracked.Fitting size ring start)
    (fits : call.Fits tracked) : ∃ ring start, (tracked.step call).Fitting size ring start := by
  obtain ⟨rfl, holds, waiting⟩ := fitting
  have small := fun block member => (waiting block member).1
  cases call with
  | push block safe memory =>
    obtain ⟨blockSmall, notTooLong⟩ := fits
    obtain ⟨after, pushed⟩ := safePush_spec holds small blockSmall safe memory
    refine ⟨after, start, pushed.size, pushed.holds, ?_⟩
    intro other member
    rcases pushed.waits other member with old | ⟨rfl, isSafe, isMemory, short⟩
    · exact waiting other old
    · constructor
      · exact blockSmall short
      · by_contra long
        exact notTooLong ⟨isSafe, isMemory, short, by omega⟩
  | pruge =>
    obtain ⟨moved, purged⟩ := prugeList_spec holds small
    refine ⟨ring ++ moved, start, purged.size, purged.holds, ?_⟩
    intro other member
    apply waiting
    rw [purged.split]
    exact List.mem_append_right _ member
  | pull memory =>
    cases ring with
    | nil =>
      refine ⟨[], start, ?_⟩
      dsimp only [Tracked.step]
      rw [holds.pull_nil]
      exact ⟨rfl, holds, waiting⟩
    | cons block later =>
      obtain ⟨-, after, sizeAfter, listAfter⟩ := holds.pull_cons memory
      refine ⟨later, _, sizeAfter, after, ?_⟩
      show ∀ other ∈ (shmqPull tracked.queue memory).2.pushList, _
      rw [listAfter]
      exact waiting

/-- A purge of a queue whose ring is empty moves the first block that waits. -/
theorem Tracked.Fitting.pruge (fitting : tracked.Fitting size ring start) {block : Block}
    {later : List Block} (waiting : tracked.queue.pushList = block :: later)
    (empty : (shmqPull tracked.queue true).1 = .empty) :
    (pruge tracked.queue).2.pushList <:+ later ∧
      (shmqPull (pruge tracked.queue).2 true).1 = .block block.sb block.buf := by
  obtain ⟨rfl, holds, fits⟩ := fitting
  have nothing : ring = [] := by
    cases ring with
    | nil => rfl
    | cons first rest =>
      rw [(holds.pull_cons true).1, if_neg (by simp)] at empty
      cases empty
  subst nothing
  obtain ⟨moved, purged⟩ := prugeList_spec holds fun other member => (fits other member).1
  have split' := waiting.symm.trans purged.split
  cases moved with
  | nil =>
    have full := purged.full block later split'.symm
    have fitsFront := (fits block (by rw [waiting]; exact List.mem_cons_self)).2
    exact absurd full (by simpa [encodeAll] using fitsFront)
  | cons first rest =>
    obtain ⟨rfl, tail⟩ := List.cons.inj split'
    constructor
    · exact ⟨rest, tail.symm⟩
    · have front := (purged.holds.pull_cons true).1
      rw [if_neg (by simp)] at front
      exact front

end Histories

section Channels

inductive Side where
  | recv
  | send
  deriving DecidableEq

/-- All the queues, with their histories. -/
structure World where
  mgr : ShmQueueMgr
  history : Side → Nat → History

/-- A call on the queue of a side and a channel. -/
structure WorldCall where
  side : Side
  channel : Nat
  call : QueueCall

def World.queue (world : World) : Side → Nat → ShmQueue
  | .recv, channel => world.mgr.recvQueue channel
  | .send, channel => world.mgr.sendQueue channel

/-- A queue of the world with its history. -/
def World.at (world : World) (side : Side) (channel : Nat) : Tracked :=
  ⟨world.queue side channel, world.history side channel⟩

/-- The histories after a call on one queue. -/
def World.record (world : World) (side : Side) (channel : Nat) (change : History → History) :
    Side → Nat → History :=
  fun other index =>
    if other = side ∧ index = channel then change (world.history other index)
    else world.history other index

def World.step (world : World) : WorldCall → World
  | ⟨.recv, channel, .push block safe memory⟩ =>
    let pushed := recvPush world.mgr channel block safe memory
    ⟨pushed.2, world.record .recv channel fun history => history.push block pushed.1⟩
  | ⟨.recv, channel, .pruge⟩ => ⟨(prugeRecv world.mgr channel).2, world.history⟩
  | ⟨.recv, channel, .pull memory⟩ =>
    let pulled := recvPull world.mgr channel memory
    ⟨pulled.2, world.record .recv channel fun history => history.pull pulled.1⟩
  | ⟨.send, channel, .push block safe memory⟩ =>
    let pushed := sendPush world.mgr channel block safe memory
    ⟨pushed.2, world.record .send channel fun history => history.push block pushed.1⟩
  | ⟨.send, channel, .pruge⟩ => ⟨(prugeSend world.mgr channel).2, world.history⟩
  | ⟨.send, channel, .pull memory⟩ =>
    let pulled := sendPull world.mgr channel memory
    ⟨pulled.2, world.record .send channel fun history => history.pull pulled.1⟩

/-- The queues that `shmq_init` sets up, all of one size. -/
def World.inited (size : Nat) : World :=
  ⟨⟨fun _ => ShmQueue.inited size, fun _ => ShmQueue.inited size⟩, fun _ _ => ⟨[], []⟩⟩

variable {size : Nat} {world : World}

/-- A call steps its own queue and leaves the others alone. -/
theorem World.step_at (world : World) (call : WorldCall) (side : Side) (channel : Nat) :
    (world.step call).at side channel =
      if side = call.side ∧ channel = call.channel then (world.at side channel).step call.call
      else world.at side channel := by
  obtain ⟨own, index, call⟩ := call
  by_cases same : channel = index
  · subst same
    cases own <;> cases side <;> cases call <;>
      simp [World.step, World.at, World.queue, World.record, Tracked.step, recvPush, sendPush,
        recvPull, sendPull, prugeRecv, prugeSend]
  · cases own <;> cases side <;> cases call <;>
      simp [World.step, World.at, World.queue, World.record, recvPush, sendPush,
        recvPull, sendPull, prugeRecv, prugeSend, same]

/-- In a run of calls that are all kept, every queue has delivered, holds in its ring and
lets wait exactly the blocks accepted, in the order in which they were accepted. -/
theorem accepted_in_order (large : sizeofShmBlock < size) (run : Runs.Reaches World.step
      (fun world call => call.call.Kept (world.at call.side call.channel))
      (World.inited size) world) (side : Side) (channel : Nat) :
    ∃ ring start, (world.queue side channel).Holds ring start ∧
      (world.history side channel).delivered
          ++ (ring ++ (world.queue side channel).pushList).map Block.contents
        = (world.history side channel).accepted.map Block.contents := by
  have ordered : ∀ side channel, ∃ ring start, (world.at side channel).Ordered size ring start := by
    apply run.invariant
    · intro side channel
      refine ⟨[], 0, ?_⟩
      cases side <;> exact ⟨rfl, ShmQueue.inited_holds large, nofun, rfl⟩
    · intro world call ordered kept side channel
      rw [World.step_at]
      split
      case isTrue own =>
        obtain ⟨rfl, rfl⟩ := own
        obtain ⟨ring, start, here⟩ := ordered call.side call.channel
        exact here.step kept
      case isFalse => exact ordered side channel
  obtain ⟨ring, start, here⟩ := ordered side channel
  exact ⟨ring, start, here.holds, here.order⟩

/-- In a run of calls that all fit, a queue whose ring is empty never gets stuck: a purge
moves at least the first block that waits into the ring. -/
theorem pruge_moves_head (large : sizeofShmBlock < size) (run : Runs.Reaches World.step
      (fun world call => call.call.Fits (world.at call.side call.channel))
      (World.inited size) world) (side : Side) (channel : Nat) {block : Block}
    {later : List Block} (waiting : (world.queue side channel).pushList = block :: later)
    (empty : (shmqPull (world.queue side channel) true).1 = .empty) :
    (pruge (world.queue side channel)).2.pushList <:+ later ∧
      (shmqPull (pruge (world.queue side channel)).2 true).1 = .block block.sb block.buf := by
  have fitting : ∀ side channel, ∃ ring start, (world.at side channel).Fitting size ring start := by
    apply run.invariant
    · intro side channel
      refine ⟨[], 0, ?_⟩
      cases side <;> exact ⟨rfl, ShmQueue.inited_holds large, nofun⟩
    · intro world call fitting fits side channel
      rw [World.step_at]
      split
      case isTrue own =>
        obtain ⟨rfl, rfl⟩ := own
        obtain ⟨ring, start, here⟩ := fitting call.side call.channel
        exact here.step fits
      case isFalse => exact fitting side channel
  obtain ⟨ring, start, here⟩ := fitting side channel
  exact here.pruge waiting empty

/-- A push of a block of zeros to the first receive queue. -/
def pushZeros (len : Nat) (small : len < 2 ^ 32) (safe : Bool) : WorldCall :=
  ⟨.recv, 0, .push (blankBlock len small) safe true⟩

theorem blankBlock_small {len size : Nat} (small : len < 2 ^ 32) (short : len + 17 < 2 ^ 32)
    (sum : size + len < 2 ^ 32) : (blankBlock len small).Small size := by
  have same : (blankBlock len small).sb.len.toNat = len := UInt32.toNat_ofNat_of_lt' small
  unfold Block.Small
  rw [same]
  exact ⟨short, fun _ => sum⟩

/-- A ring of 40 bytes: the first block of 26 bytes goes into it, the second waits, and the
first is pulled. -/
def oneWaits : World :=
  (((World.inited 40).step (pushZeros 10 (by decide) true)).step
    (pushZeros 10 (by decide) true)).step ⟨.recv, 0, .pull true⟩

/-- The calls of `oneWaits` are of any kind that safe pushes of small blocks and pulls with
memory are. -/
theorem oneWaits_run {allowed : World → WorldCall → Prop}
    (pushes : ∀ world, (world.queue .recv 0).size = 40 →
      allowed world (pushZeros 10 (by decide) true))
    (pulls : ∀ world, allowed world ⟨.recv, 0, .pull true⟩) :
    Runs.Reaches World.step allowed (World.inited 40) oneWaits :=
  .call (.call (.call .refl (pushes _ rfl)) (pushes _ (by decide))) (pulls _)

theorem accepted_in_order_oneWaits :
    ∃ ring start, (oneWaits.queue .recv 0).Holds ring start ∧
      (oneWaits.history .recv 0).delivered
          ++ (ring ++ (oneWaits.queue .recv 0).pushList).map Block.contents
        = (oneWaits.history .recv 0).accepted.map Block.contents := by
  have run : Runs.Reaches World.step
      (fun world call => call.call.Kept (world.at call.side call.channel))
      (World.inited 40) oneWaits := by
    apply oneWaits_run
    · intro world size
      refine ⟨fun _ => ?_, .inl rfl⟩
      show (blankBlock 10 _).Small (world.queue .recv 0).size
      rw [size]
      exact blankBlock_small (by decide) (by decide) (by decide)
    · exact fun _ => rfl
  exact accepted_in_order (by decide) run .recv 0

theorem pruge_moves_head_oneWaits :
    (pruge (oneWaits.queue .recv 0)).2.pushList <:+ [] ∧
      (shmqPull (pruge (oneWaits.queue .recv 0)).2 true).1
        = .block ⟨7, 1, 10, 3⟩ (List.replicate 10 0) := by
  have run : Runs.Reaches World.step
      (fun world call => call.call.Fits (world.at call.side call.channel))
      (World.inited 40) oneWaits := by
    apply oneWaits_run
    · intro world size
      refine ⟨fun _ => ?_, ?_⟩
      · show (blankBlock 10 _).Small (world.queue .recv 0).size
        rw [size]
        exact blankBlock_small (by decide) (by decide) (by decide)
      · intro excluded
        have long : (world.queue .recv 0).size < _ := excluded.2.2.2
        rw [size] at long
        exact absurd long (by decide)
    · exact fun _ => trivial
  have waiting : (oneWaits.queue .recv 0).pushList = [blankBlock 10 (by decide)] := by decide
  exact pruge_moves_head (by decide) run .recv 0 waiting (by decide)

theorem length_encodeAll (blocks : List Block) :
    (encodeAll blocks).length
      = ((blocks.map Block.contents).map fun contents => 16 + contents.2.length).sum := by
  induction blocks with
  | nil => rfl
  | cons block later ih =>
    rw [encodeAll_cons, List.length_append, ih, Block.length_encode, ← block.length]
    rfl

/-- An unsafe push to a full ring behind which nothing waits answers 0 and loses its block. -/
theorem unsafe_push_lost :
    ¬ ∀ world, Runs.Reaches World.step (fun _ _ => True) (World.inited 40) world →
      ∃ ring start, (world.queue .recv 0).Holds ring start ∧
        (world.history .recv 0).delivered
            ++ (ring ++ (world.queue .recv 0).pushList).map Block.contents
          = (world.history .recv 0).accepted.map Block.contents := by
  intro claim
  obtain ⟨ring, start, holds, order⟩ := claim
    (((World.inited 40).step (pushZeros 10 (by decide) true)).step (pushZeros 10 (by decide) false))
    (.call (.call .refl trivial) trivial)
  have used : 26 = (encodeAll ring).length := holds.used
  have two : (ring ++ []).map Block.contents
      = [blankBlock 10 (by decide), blankBlock 10 (by decide)].map Block.contents := order
  rw [List.append_nil] at two
  rw [length_encodeAll, two] at used
  exact absurd used (by decide)

/-- A block that fits the ring only without its header is let wait, and stays stuck. -/
theorem pruge_stuck :
    ¬ ∀ world, Runs.Reaches World.step (fun _ _ => True) (World.inited 20) world →
      ∀ block later, (world.queue .recv 0).pushList = block :: later →
        (shmqPull (world.queue .recv 0) true).1 = .empty →
        (pruge (world.queue .recv 0)).2.pushList <:+ later := by
  intro claim
  have moved := claim ((World.inited 20).step (pushZeros 4 (by decide) true))
    (.call .refl trivial) (blankBlock 4 (by decide)) [] (by decide) (by decide)
  exact absurd moved (by decide)

end Channels

end Taomee.AsyncServer
