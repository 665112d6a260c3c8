import Taomee.ServerBench.Shmq

/-!
# serverbench: a push on an empty queue

Whether a block of at most half of the data area can be stored when all blocks are popped depends
on where the last push that failed has left `head`.
-/

namespace Taomee.ServerBench.Shmq

variable {q : Queue} {block : Block} {mbLength : Nat} {stop : Int}

/-- `align_queue_head` fails only when `tail` is at the front. -/
theorem Queue.tail_of_alignQueueHead (failed : (q.alignQueueHead mbLength).1 = -1) :
    q.tail = sizeofShmHead := by
  unfold Queue.alignQueueHead at failed
  by_contra apart
  simp only at failed
  split_ifs at failed

theorem Queue.Straight.pushWait_nil (straight : q.Straight [])
    (half : 2 * (mbLength : Int) ≤ q.length.toNat - sizeofShmHead) (short : mbLength < 2 ^ 24) :
    (q.pushWait mbLength).1 = 0 := by
  have head : q.head = q.tail := by simpa using straight.head
  by_cases near : q.length.toNat - q.head < mbLength
  · rcases straight.alignQueueHead_near near with full | ⟨aligned, first, wrapped, -, length⟩
    · have tail : q.tail = sizeofShmHead := tail_of_alignQueueHead (congrArg Prod.fst full)
      omega
    · have room : aligned.head + mbLength < aligned.tail := by
        have start : aligned.head = sizeofShmHead := by simpa using wrapped.head
        have reach : q.head = aligned.tail := by simpa using wrapped.reach
        omega
      rw [Queue.pushWait_aligned first wrapped.alignQueueHead,
        if_neg (mt (wrapped.full_iff short).mp (not_not.mpr room))]
  · have aligned := straight.alignQueueHead_far (Int.not_lt.mp near)
    rw [Queue.pushWait_aligned aligned aligned, if_neg straight.not_full]

/-- After a push that went back to the front and failed, a block has to fit before `tail`. -/
theorem Queue.Wrapped.pushWait_iff {older newer : List Block} (wrapped : q.Wrapped older newer stop)
    (short : mbLength < 2 ^ 24) : (q.pushWait mbLength).1 = 0 ↔ q.head + mbLength < q.tail := by
  rw [Queue.pushWait_aligned wrapped.alignQueueHead wrapped.alignQueueHead]
  dsimp only
  have full := wrapped.full_iff short
  constructor
  · intro returned
    by_contra none
    rw [if_pos (full.mpr none)] at returned
    exact absurd returned (by decide)
  · intro room
    rw [if_neg (mt full.mp (not_not.mpr room))]

theorem Queue.shmqPush_eq_zero_iff (block : Block) :
    (q.shmqPush block).1 = 0 ↔ (q.pushWait block.length).1 = 0 := by
  unfold Queue.shmqPush
  by_cases returned : (q.pushWait block.length).1 = 0
  · simp [returned]
  · simp [returned]

/-- When all blocks are popped, a block of at most half of the data area is stored if and only if
`head` is not in front of `tail`, or the block ends before `tail`. -/
theorem push_on_empty_iff {length : UInt32} {ring : FifoQueue}
    (run : Runs.Reaches FifoQueue.step (fun ring call => call.Fits ring)
      (FifoQueue.create length) ring)
    (popped : ring.fifo = [])
    (half : 2 * (block.length : Int) ≤ length.toNat - sizeofShmHead) :
    (ring.queue.shmqPush block).1 = 0 ↔
      ring.queue.tail ≤ ring.queue.head ∨
        ring.queue.head + block.length < ring.queue.tail := by
  have short : block.length < 2 ^ 24 := block.length_lt
  have refines : ring.Refines length := by
    apply run.invariant
    · exact FifoQueue.create_refines (by omega)
    · exact fun refines fits => refines.step fits
  obtain ⟨holds, -, size⟩ := refines
  rw [popped] at holds
  rw [Queue.shmqPush_eq_zero_iff]
  rcases holds with straight | ⟨older, newer, stop, -, wrapped⟩
  · have head : ring.queue.head = ring.queue.tail := by simpa using straight.head
    have stored := straight.pushWait_nil (size ▸ half) short
    exact iff_of_true stored (.inl (by omega))
  · have apart := wrapped.apart
    rw [wrapped.pushWait_iff short]
    exact (or_iff_right (by omega)).symm

/-- Two blocks of 100 bytes are popped, and one of 150 bytes goes to the front. -/
theorem push_on_empty_iff_front :
    let ring := List.foldl FifoQueue.step (FifoQueue.create 312)
      [.push (blankBlock 45 (by decide)), .push (blankBlock 45 (by decide)), .pop, .pop]
    (ring.queue.shmqPush (blankBlock 95 (by decide))).1 = 0 ↔
      ring.queue.tail ≤ ring.queue.head ∨
        ring.queue.head + (blankBlock 95 (by decide)).length < ring.queue.tail :=
  push_on_empty_iff (Runs.Reaches.refl.follow (by decide +kernel)) (by decide +kernel)
    (by decide +kernel)

/-- A block that does not fit behind `head` nor in front of `tail` takes `head` to the front and
fails; when the last block is popped the queue is still full for one of 400 bytes. -/
theorem empty_queue_full : ∃ ring : FifoQueue,
    Runs.Reaches FifoQueue.step (fun ring call => call.Fits ring) (FifoQueue.create 1012) ring ∧
      ring.fifo = [] ∧
      ∃ block : Block, 2 * (block.length : Int) ≤ (1012 : UInt32).toNat - sizeofShmHead ∧
        (ring.queue.shmqPush block).1 ≠ 0 := by
  refine ⟨List.foldl FifoQueue.step (FifoQueue.create 1012)
    [.push (blankBlock 45 (by decide)), .push (blankBlock 5 (by decide)), .pop,
      .push (blankBlock 895 (by decide)), .pop], Runs.Reaches.refl.follow (by decide +kernel),
    by decide +kernel, blankBlock 345 (by decide), by decide +kernel, by decide +kernel⟩

end Taomee.ServerBench.Shmq
