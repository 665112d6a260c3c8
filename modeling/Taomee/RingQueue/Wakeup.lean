import Taomee.Library.Runs
import Taomee.RingQueue.Decorated

/-!
# ring-queue: waiting for a push

One producer and any number of consumers share a waitable queue. The producer stores a message
and then writes a byte to the pipe. A consumer looks at the queue, blocks in `select` while the
pipe is empty, reads up to 1024 bytes from it and looks again. Each of these is one step; the
steps of the processes come in any order.
-/

namespace Taomee.RingQueue

open Machines Runs

/-- A `pop_data`; `multi` says that it comes through `c_multipopable_queue`, which looks without
a buffer and pops under its semaphore. -/
structure PopCall where
  given : Bool
  bufferLen : Int
  timeout : Int
  multi : Bool

/-- Where a consumer is in `pop_data`. -/
inductive Phase where
  | idle
  | looking (call : PopCall)
  | selecting (call : PopCall)
  | reading (call : PopCall)
  | taking (call : PopCall) (looked : Reply)

/-- The consumer is blocked in `select`. -/
def Phase.blocked : Phase → Bool
  | .selecting _ => true
  | _ => false

/-- The queue, whether the producer has a byte to write, and the consumers. -/
structure System (ω : Type*) where
  queue : Waitable
  pending : Bool
  consumers : ω → Phase

inductive Event (ω : Type*) where
  | store (pData : Option (List UInt8)) (dataLen : Int) (isAtomic : Bool)
  | write
  | start (consumer : ω) (call : PopCall)
  | look (consumer : ω)
  | wake (consumer : ω)
  | giveUp (consumer : ω)
  | read (consumer : ω)
  | take (consumer : ω)

@[simp] theorem Waitable.notify_inited (pipeSize : Nat) (w : Waitable) :
    (w.notify pipeSize).inited = w.inited := by
  unfold Waitable.notify
  split <;> rfl

/-- A look, and a wait when there is nothing. -/
theorem Waitable.popDataDummy_eq {kind : Kind} {w : Waitable} (inited : w.inited = true)
    (given : Bool) (bufferLen timeout : Int) :
    w.popDataDummy kind given bufferLen timeout =
      let rv := kind.popDataDummy w.ring given bufferLen 0
      (if rv.1.ret ≠ 0 ∨ timeout = 0 then some rv.1 else none, { w with ring := rv.2 }) := by
  rw [Waitable.popDataDummy, if_neg (by simp [inited])]

/-- `read` of up to 1024 bytes; nothing is there to read from an empty pipe. -/
def Waitable.drain (w : Waitable) : Waitable := { w with pipeLen := w.pipeLen - min w.pipeLen 1024 }

namespace System

variable {ω : Type*} [DecidableEq ω]

def move (s : System ω) (consumer : ω) (phase : Phase) : System ω :=
  { s with consumers := Function.update s.consumers consumer phase }

@[simp] theorem move_self (s : System ω) (consumer : ω) (phase : Phase) :
    (s.move consumer phase).consumers consumer = phase := Function.update_self ..

theorem move_of_ne (s : System ω) {consumer other : ω} (phase : Phase) (ne : other ≠ consumer) :
    (s.move consumer phase).consumers other = s.consumers other := Function.update_of_ne ne ..

/-- A step of a process; one that is not its turn changes nothing. -/
def step (pipeSize : Nat) (kind : Kind) (s : System ω) : Event ω → System ω
  | .store pData dataLen isAtomic =>
    if s.pending then s
    else
      let rv := s.queue.storeData kind pData dataLen isAtomic
      { s with queue := rv.2, pending := rv.1 > 0 }
  | .write => if s.pending then { s with queue := s.queue.notify pipeSize, pending := false } else s
  | .start consumer call =>
    match s.consumers consumer with
    | .idle => s.move consumer (.looking call)
    | _ => s
  | .look consumer =>
    match s.consumers consumer with
    | .looking call =>
      let rv := s.queue.popDataDummy kind (call.given && !call.multi) call.bufferLen call.timeout
      let s := { s with queue := rv.2 }
      match rv.1 with
      | none => s.move consumer (.selecting call)
      | some looked => s.move consumer (if looked.ret > 0 then .taking call looked else .idle)
    | _ => s
  | .wake consumer =>
    match s.consumers consumer with
    | .selecting call => if s.queue.pipeLen > 0 then s.move consumer (.reading call) else s
    | _ => s
  | .giveUp consumer =>
    match s.consumers consumer with
    | .selecting _ => s.move consumer .idle
    | _ => s
  | .read consumer =>
    match s.consumers consumer with
    | .reading call => { s with queue := s.queue.drain }.move consumer (.looking call)
    | _ => s
  | .take consumer =>
    match s.consumers consumer with
    | .taking call looked =>
      let queue :=
        if call.multi then (s.queue.popData kind call.given call.bufferLen 0).2
        else (s.queue.takeData kind looked).2
      { s with queue := queue }.move consumer .idle
    | _ => s

/-- The queue set up, and nobody at it. -/
def start (ring : Ring) : System ω := ⟨⟨true, ring, 0⟩, false, fun _ => .idle⟩

end System

/-- There is something for a pop to take: a byte, a record, a message. -/
def Kind.Complete (kind : Kind) (q : Ring) : Prop :=
  match kind with
  | .ringQueue => 0 < q.dataLen
  | .fixedQueue mLen => mLen ≤ q.dataLen
  | .variableQueue mLen => 0 < (VariableQueue.popDataDummy mLen q false 0).1.ret

instance (kind : Kind) (q : Ring) : Decidable (kind.Complete q) :=
  match kind with
  | .ringQueue => inferInstanceAs (Decidable (0 < q.dataLen))
  | .fixedQueue mLen => inferInstanceAs (Decidable (mLen ≤ q.dataLen))
  | .variableQueue mLen =>
    inferInstanceAs (Decidable (0 < (VariableQueue.popDataDummy mLen q false 0).1.ret))

/-- A consumer is blocked on an empty pipe while the queue has something for it and the producer
has nothing to write. -/
def System.Lost {ω : Type*} (kind : Kind) (s : System ω) : Prop :=
  (∃ consumer call, s.consumers consumer = .selecting call) ∧ s.queue.pipeLen = 0 ∧
    s.pending = false ∧ kind.Complete s.queue.ring

/-- The bytes that a push names are there. -/
def Event.Backed {ω : Type*} : Event ω → Prop
  | .store pData dataLen isAtomic => (Call.pushData pData dataLen isAtomic).Backed
  | _ => True

/-- A consumer reads only while no other is blocked in `select`, or while the pipe holds more
bytes than one read takes. -/
def Event.Spares {ω : Type*} (s : System ω) : Event ω → Prop
  | .read consumer =>
    ∀ call, s.consumers consumer = .reading call →
      1024 < s.queue.pipeLen ∨ ∀ other, (s.consumers other).blocked = false
  | _ => True

/-! ## What is there to take -/

/-- The queue holds so many bytes, or messages. -/
def Kind.Counts (kind : Kind) (capacity : Nat) (q : Ring) (count : Nat) : Prop :=
  match kind with
  | .ringQueue => ∃ items, q.Holds capacity items ∧ items.length = count
  | .fixedQueue mLen => 0 < mLen ∧ ∃ items, HoldsRecords mLen capacity q items ∧
      items.length = count
  | .variableQueue mLen => 0 < mLen ∧ ∃ messages, HoldsMessages mLen capacity q messages ∧
      messages.length = count

namespace Kind.Counts

variable {kind : Kind} {capacity count : Nat} {q : Ring} {given : Bool}
  {bufferLen dataLen : Int} {mmap : Mmap}

/-- A new queue holds nothing complete. -/
theorem init (done : (kind.init Ring.new bufferLen mmap).1 = 0) :
    kind.Counts bufferLen.toNat (kind.init Ring.new bufferLen mmap).2 0 := by
  cases kind with
  | ringQueue => exact ⟨[], (Ring.Holds.init rfl done).2, rfl⟩
  | fixedQueue mLen =>
    obtain ⟨positive, records⟩ := fixed_init done
    exact ⟨positive, [], records, rfl⟩
  | variableQueue mLen =>
    obtain ⟨positive, queue⟩ := variable_init done
    exact ⟨positive, [], queue, rfl⟩

theorem withErrno (counts : kind.Counts capacity q count) (errno : Errno) :
    kind.Counts capacity { q with lastErrno := errno } count := by
  cases kind with
  | ringQueue =>
    obtain ⟨items, holds, length⟩ := counts
    exact ⟨items, holds.withErrno errno, length⟩
  | fixedQueue mLen =>
    obtain ⟨positive, items, ⟨holds, whole⟩, length⟩ := counts
    exact ⟨positive, items, ⟨holds.withErrno errno, whole⟩, length⟩
  | variableQueue mLen =>
    obtain ⟨positive, messages, queue, length⟩ := counts
    exact ⟨positive, messages, queue.withErrno errno, length⟩

/-- Something is complete when the count is positive. -/
theorem complete_iff (counts : kind.Counts capacity q count) : kind.Complete q ↔ 0 < count := by
  cases kind with
  | ringQueue =>
    obtain ⟨items, holds, rfl⟩ := counts
    rw [Kind.Complete, holds.dataLen_eq]
  | fixedQueue mLen =>
    obtain ⟨positive, items, ⟨holds, whole⟩, rfl⟩ := counts
    rw [Kind.Complete, holds.dataLen_eq]
    constructor
    · omega
    · intro some'
      exact Int.le_of_dvd (by omega) whole
  | variableQueue mLen =>
    obtain ⟨positive, messages, queue, rfl⟩ := counts
    dsimp only [Kind.Complete]
    cases messages with
    | nil => simp [queue.popDataDummy_nil positive]
    | cons message rest =>
      have longer := (queue.framed message List.mem_cons_self).longer
      rw [queue.popDataDummy_cons positive]
      simp only [List.length_cons]
      omega

/-- A look that finds nothing. -/
theorem eq_zero_of_look (counts : kind.Counts capacity q count)
    (nothing : (kind.popDataDummy q given bufferLen 0).1.ret = 0) : count = 0 := by
  cases kind with
  | ringQueue =>
    obtain ⟨items, holds, rfl⟩ := counts
    dsimp only [Kind.popDataDummy] at nothing
    by_cases short : bufferLen < 1
    · rw [holds.popDataDummy_param given (.inl short)] at nothing
      cases nothing
    · rw [holds.popDataDummy given (by omega)] at nothing
      simp only [List.length_take] at nothing
      omega
  | fixedQueue mLen =>
    obtain ⟨positive, items, ⟨holds, whole⟩, rfl⟩ := counts
    dsimp only [Kind.popDataDummy] at nothing
    rw [FixedQueue.popDataDummy_eq holds.inited] at nothing
    by_cases short : bufferLen < mLen
    · rw [if_pos short] at nothing
      cases nothing
    · rw [if_neg short, holds.popDataDummy given (by omega)] at nothing
      simp only [List.length_take] at nothing
      omega
  | variableQueue mLen =>
    obtain ⟨positive, messages, queue, rfl⟩ := counts
    dsimp only [Kind.popDataDummy] at nothing
    cases messages with
    | nil => rfl
    | cons message rest =>
      have longer := (queue.framed message List.mem_cons_self).longer
      rw [queue.popDataDummy_cons positive given] at nothing
      dsimp only at nothing
      omega

theorem popDataDummy (counts : kind.Counts capacity q count) (given : Bool)
    (bufferLen timeout : Int) :
    kind.Counts capacity (kind.popDataDummy q given bufferLen timeout).2 count := by
  obtain ⟨errno, same⟩ := kind.popDataDummy_same q given bufferLen timeout
  rw [same]
  exact counts.withErrno errno

/-- A push that returns nothing stores nothing. -/
theorem pushData (counts : kind.Counts capacity q count) {pData : Option (List UInt8)}
    {isAtomic : Bool} (backed : (Call.pushData pData dataLen isAtomic).Backed) :
    ∃ more, kind.Counts capacity (kind.pushData q pData dataLen isAtomic).2 more ∧
      ((kind.pushData q pData dataLen isAtomic).1 ≤ 0 → more = count) := by
  let call := Call.pushData pData dataLen isAtomic
  cases kind with
  | ringQueue =>
    obtain ⟨items, holds, rfl⟩ := counts
    obtain ⟨same, next⟩ := (Ring.simulates_fifo capacity).step call holds backed
    refine ⟨_, ⟨_, next, rfl⟩, ?_⟩
    have ret := congrArg Reply.ret same
    dsimp only [call, Ring.step, plain] at ret
    dsimp only [Kind.pushData]
    rw [ret]
    cases pData with
    | none => exact fun _ => rfl
    | some data =>
      dsimp only [call, Fifo.step]
      split
      · exact fun _ => rfl
      · intro none
        dsimp only at none
        simp only [List.length_append, List.length_take]
        omega
  | fixedQueue mLen =>
    obtain ⟨positive, items, records, rfl⟩ := counts
    obtain ⟨same, next⟩ := (fixed_simulates_records positive capacity).step call records backed
    refine ⟨_, ⟨positive, _, next, rfl⟩, ?_⟩
    have ret := congrArg Reply.ret same
    dsimp only [call, Kind.step, plain] at ret
    rw [ret]
    cases pData with
    | none => exact fun _ => rfl
    | some data =>
      dsimp only [call, Records.step]
      split
      · exact fun _ => rfl
      · intro none
        dsimp only at none
        omega
  | variableQueue mLen =>
    obtain ⟨positive, messages, queue, rfl⟩ := counts
    obtain ⟨same, next⟩ := (variable_simulates_messages positive capacity).step call queue backed
    refine ⟨_, ⟨positive, _, next, rfl⟩, ?_⟩
    have ret := congrArg Reply.ret same
    dsimp only [call, Kind.step, plain] at ret
    rw [ret]
    cases pData with
    | none => exact fun _ => rfl
    | some data =>
      dsimp only [call, Messages.step]
      split
      · exact fun _ => rfl
      · intro none
        dsimp only at none
        omega

/-- A pop leaves no more than there was. -/
theorem popData (counts : kind.Counts capacity q count) (given : Bool) (bufferLen timeout : Int) :
    ∃ less ≤ count, kind.Counts capacity (kind.popData q given bufferLen timeout).2 less := by
  let call := Call.popData given bufferLen timeout
  cases kind with
  | ringQueue =>
    obtain ⟨items, holds, rfl⟩ := counts
    have next := ((Ring.simulates_fifo capacity).step call holds trivial).2
    refine ⟨_, ?_, _, next, rfl⟩
    dsimp only [call, Fifo.step]
    split <;> simp
  | fixedQueue mLen =>
    obtain ⟨positive, items, records, rfl⟩ := counts
    have next := ((fixed_simulates_records positive capacity).step call records trivial).2
    refine ⟨_, ?_, positive, _, next, rfl⟩
    dsimp only [call, Records.step]
    split <;> simp
  | variableQueue mLen =>
    obtain ⟨positive, messages, queue, rfl⟩ := counts
    have next := ((variable_simulates_messages positive capacity).step call queue trivial).2
    refine ⟨_, ?_, positive, _, next, rfl⟩
    dsimp only [call, Messages.step]
    split
    · exact Nat.le_refl _
    split
    · exact Nat.le_refl _
    split
    · exact Nat.le_refl _
    · simp

end Kind.Counts

/-! ## Steps -/

/-- What holds of the queue and the consumers in every state: a consumer blocks only after it
found nothing, and whoever stores something writes to the pipe. -/
structure System.Awake {ω : Type*} (kind : Kind) (capacity : Nat) (s : System ω) (count : Nat) :
    Prop where
  inited : s.queue.inited = true
  counts : kind.Counts capacity s.queue.ring count
  awake : ∀ consumer call, s.consumers consumer = .selecting call → 0 < count →
    0 < s.queue.pipeLen ∨ s.pending = true

namespace System.Awake

variable {ω : Type*} {kind : Kind} {capacity count pipeSize : Nat} {s : System ω}
  {consumer : ω} {phase : Phase}

/-- An awake system has lost no wake-up. -/
theorem not_lost (awake : s.Awake kind capacity count) : ¬ s.Lost kind := by
  rintro ⟨⟨consumer, call, selecting⟩, empty, idle, complete⟩
  have some' := awake.counts.complete_iff.mp complete
  rcases awake.awake consumer call selecting some' with readable | busy
  · omega
  · rw [idle] at busy
    cases busy

/-- A change of what the queue holds that leaves no more there, and the pipe as it is. -/
theorem withRing (awake : s.Awake kind capacity count) {ring : Ring} {less : Nat}
    (fewer : less ≤ count) (counts : kind.Counts capacity ring less) :
    { s with queue := { s.queue with ring := ring } }.Awake kind capacity less where
  inited := awake.inited
  counts := counts
  awake := fun consumer call selecting some' =>
    awake.awake consumer call selecting (Nat.lt_of_lt_of_le some' fewer)

/-- A consumer goes on to a phase in which it is not blocked. -/
theorem move [DecidableEq ω] (awake : s.Awake kind capacity count)
    (free : ∀ call, phase ≠ .selecting call) :
    (s.move consumer phase).Awake kind capacity count where
  inited := awake.inited
  counts := awake.counts
  awake := by
    intro other call selecting
    by_cases same : other = consumer
    · subst same
      rw [System.move_self] at selecting
      exact absurd selecting (free call)
    · rw [System.move_of_ne _ _ same] at selecting
      exact awake.awake other call selecting

/-- A pop leaves less to wake for. -/
theorem takeData (awake : s.Awake kind capacity count) (looked : Reply) :
    ∃ less, { s with queue := (s.queue.takeData kind looked).2 }.Awake kind capacity less := by
  unfold Waitable.takeData
  split
  · obtain ⟨less, fewer, counts⟩ := awake.counts.popData false looked.ret 0
    exact ⟨less, awake.withRing fewer counts⟩
  · exact ⟨count, awake⟩

theorem popData (awake : s.Awake kind capacity count) (given : Bool) (bufferLen : Int) :
    ∃ less, { s with queue := (s.queue.popData kind given bufferLen 0).2 }.Awake kind capacity
      less := by
  rw [Waitable.popData_eq awake.inited]
  have looked := awake.withRing (Nat.le_refl _) (awake.counts.popDataDummy given bufferLen 0)
  exact looked.takeData (kind.popDataDummy s.queue.ring given bufferLen 0).1

variable [DecidableEq ω]

/-- A message that is stored is one to wake for. -/
theorem store (awake : s.Awake kind capacity count) {pData : Option (List UInt8)} {dataLen : Int}
    {isAtomic : Bool} (backed : (Call.pushData pData dataLen isAtomic).Backed) :
    ∃ more, (s.step pipeSize kind (.store pData dataLen isAtomic)).Awake kind capacity more := by
  dsimp only [System.step]
  split
  · exact ⟨count, awake⟩
  · obtain ⟨more, counts, none⟩ := awake.counts.pushData backed
    have stored : s.queue.storeData kind pData dataLen isAtomic =
        ((kind.pushData s.queue.ring pData dataLen isAtomic).1,
          { s.queue with ring := (kind.pushData s.queue.ring pData dataLen isAtomic).2 }) := by
      simp [Waitable.storeData, awake.inited]
    refine ⟨more, ?_, ?_, ?_⟩
    · rw [stored]
      exact awake.inited
    · rw [stored]
      exact counts
    · intro consumer call selecting some'
      rw [stored]
      by_cases stores : (kind.pushData s.queue.ring pData dataLen isAtomic).1 > 0
      · exact .inr (decide_eq_true stores)
      · rw [none (by omega)] at some'
        rcases awake.awake consumer call selecting some' with readable | busy
        · exact .inl readable
        · contradiction

/-- The byte that is written wakes a consumer. -/
theorem write (awake : s.Awake kind capacity count) (positive : 0 < pipeSize) :
    (s.step pipeSize kind .write).Awake kind capacity count := by
  dsimp only [System.step]
  split
  · have readable : 0 < (s.queue.notify pipeSize).pipeLen := by
      unfold Waitable.notify
      split
      · exact Nat.succ_pos _
      · omega
    refine ⟨?_, ?_, fun _ _ _ _ => .inl readable⟩
    · rw [Waitable.notify_inited]
      exact awake.inited
    · rw [Waitable.notify_ring]
      exact awake.counts
  · exact awake

/-- A look at the queue keeps everyone awake. -/
theorem look (awake : s.Awake kind capacity count) (consumer : ω) :
    (s.step pipeSize kind (.look consumer)).Awake kind capacity count := by
  dsimp only [System.step]
  split
  case h_1 call looking =>
    let given := call.given && !call.multi
    have looked := awake.withRing (Nat.le_refl _) (awake.counts.popDataDummy given call.bufferLen 0)
    rw [Waitable.popDataDummy_eq awake.inited]
    by_cases blocks : (kind.popDataDummy s.queue.ring given call.bufferLen 0).1.ret ≠ 0 ∨
        call.timeout = 0
    · simp only [given] at blocks
      simp only [blocks]
      exact looked.move (by split <;> exact nofun)
    · have nothing : (kind.popDataDummy s.queue.ring given call.bufferLen 0).1.ret = 0 := by
        by_contra some'
        exact blocks (.inl some')
      have none := awake.counts.eq_zero_of_look nothing
      simp only [given] at blocks
      simp only [blocks]
      exact ⟨looked.inited, looked.counts, fun _ _ _ some' => by omega⟩
  case h_2 => exact awake

/-- A read that spares the others keeps everyone awake. -/
theorem read (awake : s.Awake kind capacity count) (consumer : ω)
    (spares : (Event.read consumer).Spares s) :
    (s.step pipeSize kind (.read consumer)).Awake kind capacity count := by
  dsimp only [System.step]
  split
  case h_1 call reading =>
    refine ⟨awake.inited, awake.counts, ?_⟩
    intro other otherCall selecting some'
    have another : other ≠ consumer := by
      rintro rfl
      rw [System.move_self] at selecting
      cases selecting
    rw [System.move_of_ne _ _ another] at selecting
    rcases spares call reading with plenty | alone
    · refine .inl ?_
      change 0 < s.queue.pipeLen - min s.queue.pipeLen 1024
      omega
    · have free := alone other
      rw [selecting] at free
      cases free
  case h_2 => exact awake

/-- Every event that spares the others keeps everyone awake. -/
theorem step (awake : s.Awake kind capacity count) (positive : 0 < pipeSize) {event : Event ω}
    (backed : event.Backed) (spares : event.Spares s) :
    ∃ count, (s.step pipeSize kind event).Awake kind capacity count := by
  cases event with
  | store pData dataLen isAtomic => exact awake.store backed
  | write => exact ⟨count, awake.write positive⟩
  | start consumer call =>
    dsimp only [System.step]
    split
    · exact ⟨count, awake.move nofun⟩
    · exact ⟨count, awake⟩
  | look consumer => exact ⟨count, awake.look consumer⟩
  | wake consumer =>
    dsimp only [System.step]
    split
    · split
      · exact ⟨count, awake.move nofun⟩
      · exact ⟨count, awake⟩
    · exact ⟨count, awake⟩
  | giveUp consumer =>
    dsimp only [System.step]
    split
    · exact ⟨count, awake.move nofun⟩
    · exact ⟨count, awake⟩
  | read consumer => exact ⟨count, awake.read consumer spares⟩
  | take consumer =>
    dsimp only [System.step]
    split
    case h_1 call looked taking =>
      split
      · obtain ⟨less, popped⟩ := awake.popData call.given call.bufferLen
        exact ⟨less, popped.move nofun⟩
      · obtain ⟨less, popped⟩ := awake.takeData looked
        exact ⟨less, popped.move nofun⟩
    case h_2 => exact ⟨count, awake⟩

/-- A read out of turn loses a wake-up exactly where the queue still has something and the producer
is not about to write. -/
theorem lost_iff (awake : s.Awake kind capacity count) (consumer : ω) :
    (s.step pipeSize kind (.read consumer)).Lost kind ↔
      ¬ (Event.read consumer).Spares s ∧ s.pending = false ∧ kind.Complete s.queue.ring := by
  constructor
  · intro lost
    refine ⟨fun spares => (awake.read consumer spares).not_lost lost, ?_⟩
    have kept : (s.step pipeSize kind (.read consumer)).pending = s.pending ∧
        (s.step pipeSize kind (.read consumer)).queue.ring = s.queue.ring := by
      dsimp only [System.step]
      split <;> exact ⟨rfl, rfl⟩
    obtain ⟨-, -, idle, complete⟩ := lost
    rw [kept.1] at idle
    rw [kept.2] at complete
    exact ⟨idle, complete⟩
  · rintro ⟨takes, idle, complete⟩
    simp only [Event.Spares, not_forall, not_or, Bool.not_eq_false] at takes
    obtain ⟨call, reading, few, other, blocked⟩ := takes
    obtain ⟨otherCall, selecting⟩ : ∃ otherCall, s.consumers other = .selecting otherCall := by
      cases phase : s.consumers other with
      | selecting otherCall => exact ⟨otherCall, rfl⟩
      | idle | looking | reading | taking =>
        rw [phase] at blocked
        cases blocked
    have another : other ≠ consumer := by
      rintro rfl
      rw [reading] at selecting
      cases selecting
    dsimp only [System.step]
    rw [reading]
    refine ⟨⟨other, otherCall, ?_⟩, ?_, idle, complete⟩
    · rw [System.move_of_ne _ _ another]
      exact selecting
    · change s.queue.pipeLen - min s.queue.pipeLen 1024 = 0
      omega

end System.Awake

/-- In a run in which no consumer empties the pipe while another is blocked in `select`, no wake-up
is lost. One that does loses one at once where the queue still has something and the producer is not
about to write. -/
theorem no_wakeup_lost {kind : Kind} {ω : Type*} [DecidableEq ω] {bufferLen : Int} {mmap : Mmap}
    {pipeSize : Nat} {state : System ω} (done : (kind.init Ring.new bufferLen mmap).1 = 0)
    (positive : 0 < pipeSize) (run : Reaches (System.step pipeSize kind)
      (fun s event => event.Backed ∧ event.Spares s)
      (System.start (kind.init Ring.new bufferLen mmap).2) state) :
    ¬ state.Lost kind ∧
      ∀ consumer, (state.step pipeSize kind (.read consumer)).Lost kind ↔
        ¬ (Event.read consumer).Spares state ∧ state.pending = false ∧
          kind.Complete state.queue.ring := by
  have awake : ∃ count, state.Awake kind bufferLen.toNat count := by
    apply run.invariant
    · exact ⟨0, rfl, Kind.Counts.init done, fun _ _ selecting => by cases selecting⟩
    · rintro before event ⟨count, awake⟩ ⟨backed, spares⟩
      exact awake.step positive backed spares
  obtain ⟨count, awake⟩ := awake
  exact ⟨awake.not_lost, awake.lost_iff⟩

/-- A pop that waits for as long as it takes. -/
def waiting : PopCall := ⟨true, 8, -1, true⟩

def twoConsumers : System Bool :=
  System.start ((Kind.variableQueue 2).init Ring.new 16 .mapped).2

/-- A consumer blocks, a message comes, and the consumer wakes, reads the byte and pops. Then the
other blocks, two messages come, and it wakes. -/
def woken : List (Event Bool) :=
  [.start true waiting, .look true, .store (some [3, 0, 7]) 3 true, .write, .wake true, .read true,
    .look true, .take true, .start false waiting, .look false, .store (some [3, 0, 8]) 3 true,
    .write, .store (some [3, 0, 9]) 3 true, .write, .wake false]

/-- The other consumer reads both bytes, but nobody waits for one. -/
theorem no_wakeup_lost_woken :
    ¬ ((woken.foldl (System.step 65536 (.variableQueue 2)) twoConsumers).step 65536
      (.variableQueue 2) (.read false)).Lost (.variableQueue 2) := by
  have done : ((Kind.variableQueue 2).init Ring.new 16 .mapped).1 = 0 := by decide
  have positive : 0 < 65536 := by decide
  have run : Reaches (System.step 65536 (.variableQueue 2))
      (fun s event => event.Backed ∧ event.Spares s) twoConsumers
      (woken.foldl (System.step 65536 (.variableQueue 2)) twoConsumers) :=
    Reaches.refl.follow ⟨⟨trivial, trivial⟩, ⟨trivial, trivial⟩, ⟨Int.le_refl 3, trivial⟩,
      ⟨trivial, trivial⟩, ⟨trivial, trivial⟩, ⟨trivial, fun _ _ => .inr (by decide +kernel)⟩,
      ⟨trivial, trivial⟩, ⟨trivial, trivial⟩, ⟨trivial, trivial⟩, ⟨trivial, trivial⟩,
      ⟨Int.le_refl 3, trivial⟩, ⟨trivial, trivial⟩, ⟨Int.le_refl 3, trivial⟩, ⟨trivial, trivial⟩,
      ⟨trivial, trivial⟩, trivial⟩
  have last : (Event.read false).Backed ∧ (Event.read false).Spares
      (woken.foldl (System.step 65536 (.variableQueue 2)) twoConsumers) :=
    ⟨trivial, fun _ _ => .inr (by decide +kernel)⟩
  exact (no_wakeup_lost done positive (run.call last)).1

/-- Two consumers wait, two messages come, and the one that wakes first reads both bytes. -/
def bothBytes : List (Event Bool) :=
  [.start true waiting, .look true, .start false waiting, .look false,
    .store (some [3, 0, 7]) 3 true, .write, .store (some [3, 0, 8]) 3 true, .write,
    .wake true, .read true, .look true, .take true]

/-- One read takes the bytes of two pushes. -/
theorem second_wakeup_lost :
    ∃ state, Reaches (System.step 65536 (.variableQueue 2)) (fun _ event => event.Backed)
      twoConsumers state ∧ state.Lost (.variableQueue 2) := by
  have backed : ∀ event ∈ bothBytes, event.Backed := by
    simp [bothBytes, Event.Backed, Call.Backed]
  refine ⟨_, Reaches.of_list fun event member _ => backed event member, ?_⟩
  exact ⟨⟨false, waiting, rfl⟩, by decide +kernel⟩

end Taomee.RingQueue
