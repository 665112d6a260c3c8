import Taomee.RingQueue.Framed

/-!
# ring-queue: waitable and multi-poppable queues

`c_waitable_queue` writes a byte to a pipe for every push, and its pops wait for one while the
queue is empty; `c_multipopable_queue` guards pushes and pops by a semaphore. Both look before
they pop. A call that goes on to wait has no answer here; what it does while it waits is in
the steps of `Taomee.RingQueue.Wakeup`.
-/

namespace Taomee.RingQueue

open Machines

/-- `c_waitable_queue`, with the bytes in its pipe. -/
structure Waitable where
  inited : Bool
  ring : Ring
  pipeLen : Nat

/-- A write of one byte to a pipe that holds `pipeSize`; a full pipe takes nothing. -/
def Waitable.notify (pipeSize : Nat) (w : Waitable) : Waitable :=
  if w.pipeLen < pipeSize then { w with pipeLen := w.pipeLen + 1 } else w

/-- `c_waitable_queue::push_data` up to the write to the pipe. -/
def Waitable.storeData (kind : Kind) (w : Waitable) (pData : Option (List UInt8)) (dataLen : Int)
    (isAtomic : Bool) : Int × Waitable :=
  if !w.inited then (-1, w)
  else
    let rv := kind.pushData w.ring pData dataLen isAtomic
    (rv.1, { w with ring := rv.2 })

/-- `c_waitable_queue::push_data` -/
def Waitable.pushData (pipeSize : Nat) (kind : Kind) (w : Waitable) (pData : Option (List UInt8))
    (dataLen : Int) (isAtomic : Bool) : Int × Waitable :=
  let rv := w.storeData kind pData dataLen isAtomic
  if rv.1 > 0 then (rv.1, rv.2.notify pipeSize) else rv

/-- `c_waitable_queue::pop_data_dummy` up to its `select`. -/
def Waitable.popDataDummy (kind : Kind) (w : Waitable) (given : Bool) (bufferLen timeout : Int) :
    Option Reply × Waitable :=
  if !w.inited then (some ⟨-1, []⟩, w)
  else
    let rv := kind.popDataDummy w.ring given bufferLen 0
    (if rv.1.ret ≠ 0 ∨ timeout = 0 then some rv.1 else none, { w with ring := rv.2 })

/-- `c_waitable_queue::pop_data` after the look. -/
def Waitable.takeData (kind : Kind) (w : Waitable) (looked : Reply) : Reply × Waitable :=
  if looked.ret > 0 then
    let rv := kind.popData w.ring false looked.ret 0
    (⟨rv.1.ret, looked.data⟩, { w with ring := rv.2 })
  else (looked, w)

/-- `c_waitable_queue::pop_data` -/
def Waitable.popData (kind : Kind) (w : Waitable) (given : Bool) (bufferLen timeout : Int) :
    Option Reply × Waitable :=
  if !w.inited then (some ⟨-1, []⟩, w)
  else
    match w.popDataDummy kind given bufferLen timeout with
    | (none, w) => (none, w)
    | (some looked, w) =>
      let taken := w.takeData kind looked
      (some taken.1, taken.2)

/-- `c_multipopable_queue` around a queue, with its semaphore. -/
structure Multipopable where
  inited : Bool
  mutex : Nat
  ring : Ring

/-- A call between `sem_wait` and `sem_post`. -/
def Multipopable.locked {ρ : Type} (m : Multipopable) (call : Ring → ρ × Ring) :
    Option ρ × Multipopable :=
  if m.mutex = 0 then (none, m)
  else
    let rv := call m.ring
    (some rv.1, { m with ring := rv.2 })

/-- `c_multipopable_queue::push_data` -/
def Multipopable.pushData (kind : Kind) (m : Multipopable) (pData : Option (List UInt8))
    (dataLen : Int) (isAtomic : Bool) : Option Int × Multipopable :=
  if !m.inited then (some (-1), m)
  else m.locked fun q => kind.pushData q pData dataLen isAtomic

/-- `c_multipopable_queue::pop_data` -/
def Multipopable.popData (kind : Kind) (m : Multipopable) (given : Bool) (bufferLen timeout : Int) :
    Option Reply × Multipopable :=
  if !m.inited then (some ⟨-1, []⟩, m)
  else
    let rv := kind.popDataDummy m.ring false bufferLen timeout
    let m := { m with ring := rv.2 }
    if rv.1.ret > 0 then m.locked fun q => kind.popData q given bufferLen 0 else (some rv.1, m)

/-! ## Transparency -/

/-- The queue inside answers in the same way and is left in the same state. -/
def Waitable.PopsAlike (kind : Kind) (w : Waitable) (given : Bool) (bufferLen : Int) : Prop :=
  (w.popData kind given bufferLen 0).1 = some (kind.popData w.ring given bufferLen 0).1 ∧
    (w.popData kind given bufferLen 0).2.ring = (kind.popData w.ring given bufferLen 0).2

def Multipopable.PopsAlike (kind : Kind) (m : Multipopable) (given : Bool) (bufferLen : Int) :
    Prop :=
  (m.popData kind given bufferLen 0).1 = some (kind.popData m.ring given bufferLen 0).1 ∧
    (m.popData kind given bufferLen 0).2.ring = (kind.popData m.ring given bufferLen 0).2

def Waitable.PushesAlike (kind : Kind) (w : Waitable) (pData : Option (List UInt8)) (dataLen : Int)
    (isAtomic : Bool) : Prop :=
  ∀ pipeSize, (w.pushData pipeSize kind pData dataLen isAtomic).1
      = (kind.pushData w.ring pData dataLen isAtomic).1 ∧
    (w.pushData pipeSize kind pData dataLen isAtomic).2.ring
      = (kind.pushData w.ring pData dataLen isAtomic).2

def Multipopable.PushesAlike (kind : Kind) (m : Multipopable) (pData : Option (List UInt8))
    (dataLen : Int) (isAtomic : Bool) : Prop :=
  (m.pushData kind pData dataLen isAtomic).1
      = some (kind.pushData m.ring pData dataLen isAtomic).1 ∧
    (m.pushData kind pData dataLen isAtomic).2.ring
      = (kind.pushData m.ring pData dataLen isAtomic).2

@[simp] theorem Waitable.notify_ring (pipeSize : Nat) (w : Waitable) :
    (w.notify pipeSize).ring = w.ring := by
  unfold Waitable.notify
  split <;> rfl

theorem Waitable.pushesAlike {kind : Kind} (w : Waitable) (inited : w.inited = true)
    {pData : Option (List UInt8)} {dataLen : Int} {isAtomic : Bool} :
    w.PushesAlike kind pData dataLen isAtomic := by
  intro pipeSize
  have stored : w.storeData kind pData dataLen isAtomic =
      ((kind.pushData w.ring pData dataLen isAtomic).1,
        { w with ring := (kind.pushData w.ring pData dataLen isAtomic).2 }) := by
    rw [Waitable.storeData, if_neg (by simp [inited])]
  rw [Waitable.pushData, stored]
  split <;> simp

theorem Multipopable.pushesAlike {kind : Kind} (m : Multipopable) (inited : m.inited = true)
    (free : 0 < m.mutex) {pData : Option (List UInt8)} {dataLen : Int} {isAtomic : Bool} :
    m.PushesAlike kind pData dataLen isAtomic := by
  simp [Multipopable.PushesAlike, Multipopable.pushData, Multipopable.locked, inited,
    Nat.ne_of_gt free]

theorem Waitable.popData_eq {kind : Kind} {w : Waitable} (inited : w.inited = true)
    (given : Bool) (bufferLen : Int) :
    w.popData kind given bufferLen 0 =
      let rv := kind.popDataDummy w.ring given bufferLen 0
      let taken := Waitable.takeData kind { w with ring := rv.2 } rv.1
      (some taken.1, taken.2) := by
  simp [Waitable.popData, Waitable.popDataDummy, inited]

theorem Multipopable.popData_eq {kind : Kind} {m : Multipopable} (inited : m.inited = true)
    (free : 0 < m.mutex) (given : Bool) (bufferLen : Int) :
    m.popData kind given bufferLen 0 =
      let rv := kind.popDataDummy m.ring false bufferLen 0
      let popped := kind.popData rv.2 given bufferLen 0
      if rv.1.ret > 0 then (some popped.1, { m with ring := popped.2 })
      else (some rv.1, { m with ring := rv.2 }) := by
  simp [Multipopable.popData, Multipopable.locked, inited, Nat.ne_of_gt free]

section States

variable {q : Ring} {capacity : Nat} {items : List UInt8} {messages : List (List UInt8)}
  {w : Waitable} {m : Multipopable} {mLen : Int}

/-- Where a look finds nothing, the pop finds nothing. -/
theorem Ring.Holds.popData_of_empty (holds : q.Holds capacity items) (given : Bool)
    {bufferLen : Int} (positive : 1 ≤ bufferLen)
    (none : ¬ ((items.take bufferLen.toNat).length : Int) > 0) :
    items.take bufferLen.toNat = [] ∧ q.popData given bufferLen 0 = (⟨0, []⟩, q) := by
  have gone : items.take bufferLen.toNat = [] := List.length_eq_zero_iff.mp (by omega)
  have still : min items.length bufferLen.toNat = 0 := by
    rw [Nat.min_comm, ← List.length_take, gone, List.length_nil]
  rw [holds.popData given positive, gone, still, holds.dropped_zero]
  simp

/-- A look and a pop of so many bytes are a pop. -/
theorem Waitable.ring_popsAlike (holds : w.ring.Holds capacity items) (inited : w.inited = true)
    (given : Bool) (bufferLen : Int) : w.PopsAlike .ringQueue given bufferLen := by
  unfold Waitable.PopsAlike
  rw [Waitable.popData_eq inited]
  dsimp only [Kind.popDataDummy, Kind.popData]
  by_cases short : bufferLen < 1
  · rw [holds.popDataDummy_param given (.inl short), holds.popData_param given (.inl short)]
    exact ⟨rfl, rfl⟩
  rw [holds.popDataDummy given (by omega)]
  dsimp only [Waitable.takeData]
  split
  case isTrue some' =>
    dsimp only [Kind.popData]
    rw [holds.popData false (by omega), holds.popData given (by omega)]
    simp only [List.length_take, Int.toNat_natCast, Nat.min_comm, Nat.min_left_comm, Nat.min_self,
      and_self]
  case isFalse none =>
    obtain ⟨gone, ran⟩ := holds.popData_of_empty given (by omega) none
    rw [ran, gone]
    simp

theorem Waitable.fixed_popsAlike (records : HoldsRecords mLen capacity w.ring items)
    (positive : 0 < mLen) (inited : w.inited = true) (given : Bool) (bufferLen : Int) :
    w.PopsAlike (.fixedQueue mLen) given bufferLen := by
  obtain ⟨holds, whole⟩ := records
  unfold Waitable.PopsAlike
  rw [Waitable.popData_eq inited]
  dsimp only [Kind.popDataDummy, Kind.popData]
  rw [FixedQueue.popDataDummy_eq holds.inited, FixedQueue.popData_eq holds.inited]
  by_cases short : bufferLen < mLen
  · rw [if_pos short, if_pos short]
    exact ⟨rfl, rfl⟩
  rw [if_neg short, if_neg short, holds.popDataDummy given (by omega)]
  dsimp only [Waitable.takeData]
  split
  case isTrue some' =>
    -- Whole records, so that one that is not empty is there in full.
    have enough : mLen ≤ items.length := by
      rw [List.length_take] at some'
      exact Int.le_of_dvd (by omega) whole
    have record : ((items.take mLen.toNat).length : Int) = mLen := by
      rw [List.length_take]
      omega
    dsimp only [Kind.popData]
    rw [record, FixedQueue.popData_eq holds.inited, if_neg (by omega),
      holds.popData false (by omega), holds.popData given (by omega), record]
    exact ⟨rfl, rfl⟩
  case isFalse none =>
    obtain ⟨gone, ran⟩ := holds.popData_of_empty given (by omega) none
    rw [ran, gone]
    simp

/-- The look does not check the length of the buffer that a variable queue's pop checks. -/
theorem Waitable.variable_popsAlike_iff (queue : HoldsMessages mLen capacity w.ring messages)
    (positive : 0 < mLen) (inited : w.inited = true) (given : Bool) (bufferLen : Int) :
    w.PopsAlike (.variableQueue mLen) given bufferLen ↔
      1 ≤ bufferLen ∧ ∀ message ∈ messages.head?, message.length ≤ bufferLen := by
  unfold Waitable.PopsAlike
  rw [Waitable.popData_eq inited]
  dsimp only [Kind.popDataDummy, Kind.popData]
  cases messages with
  | nil =>
    rw [queue.popDataDummy_nil positive given]
    by_cases short : bufferLen < 1
    · rw [queue.popData_param given (.inl short)]
      simp [Waitable.takeData, Ring.refuse]
      omega
    · rw [queue.popData_nil positive given (by omega)]
      simp [Waitable.takeData]
      omega
  | cons message rest =>
    have longer := (queue.framed message List.mem_cons_self).longer
    rw [queue.popDataDummy_cons positive given]
    have taken : Waitable.takeData (.variableQueue mLen) { w with ring := w.ring }
        ⟨message.length, if given then message else []⟩ =
        (⟨message.length, if given then message else []⟩,
          { w with ring := w.ring.dropped message.length }) := by
      dsimp only [Waitable.takeData]
      rw [if_pos (by omega)]
      dsimp only [Kind.popData]
      rw [queue.popData_cons positive false (by omega), if_neg (by omega)]
    rw [taken]
    by_cases short : bufferLen < 1
    · rw [queue.popData_param given (.inl short)]
      simp [Ring.refuse]
      omega
    rw [queue.popData_cons positive given (by omega)]
    by_cases long : message.length > bufferLen
    · rw [if_pos long]
      simp [Ring.refuse]
      omega
    · rw [if_neg long]
      simp
      omega

theorem Multipopable.ring_popsAlike (holds : m.ring.Holds capacity items) (inited : m.inited = true)
    (free : 0 < m.mutex) (given : Bool) (bufferLen : Int) :
    m.PopsAlike .ringQueue given bufferLen := by
  unfold Multipopable.PopsAlike
  rw [Multipopable.popData_eq inited free]
  dsimp only [Kind.popDataDummy, Kind.popData]
  by_cases short : bufferLen < 1
  · rw [holds.popDataDummy_param false (.inl short), holds.popData_param given (.inl short)]
    exact ⟨rfl, rfl⟩
  rw [holds.popDataDummy false (by omega)]
  dsimp only
  split
  case isTrue => exact ⟨rfl, rfl⟩
  case isFalse none =>
    obtain ⟨gone, ran⟩ := holds.popData_of_empty given (by omega) none
    rw [ran, gone]
    exact ⟨rfl, rfl⟩

theorem Multipopable.fixed_popsAlike (records : HoldsRecords mLen capacity m.ring items)
    (positive : 0 < mLen) (inited : m.inited = true) (free : 0 < m.mutex) (given : Bool)
    (bufferLen : Int) : m.PopsAlike (.fixedQueue mLen) given bufferLen := by
  obtain ⟨holds, -⟩ := records
  unfold Multipopable.PopsAlike
  rw [Multipopable.popData_eq inited free]
  dsimp only [Kind.popDataDummy, Kind.popData]
  rw [FixedQueue.popDataDummy_eq holds.inited]
  by_cases short : bufferLen < mLen
  · rw [if_pos short, FixedQueue.popData_eq holds.inited, if_pos short]
    exact ⟨rfl, rfl⟩
  rw [if_neg short, holds.popDataDummy false (by omega)]
  dsimp only
  rw [FixedQueue.popData_eq holds.inited, if_neg short]
  split
  case isTrue => exact ⟨rfl, rfl⟩
  case isFalse none =>
    obtain ⟨gone, ran⟩ := holds.popData_of_empty given (by omega) none
    rw [ran, gone]
    exact ⟨rfl, rfl⟩

/-- An empty variable queue is not asked whether the buffer has a length. -/
theorem Multipopable.variable_popsAlike_iff (queue : HoldsMessages mLen capacity m.ring messages)
    (positive : 0 < mLen) (inited : m.inited = true) (free : 0 < m.mutex) (given : Bool)
    (bufferLen : Int) :
    m.PopsAlike (.variableQueue mLen) given bufferLen ↔ 1 ≤ bufferLen ∨ messages ≠ [] := by
  unfold Multipopable.PopsAlike
  rw [Multipopable.popData_eq inited free]
  dsimp only [Kind.popDataDummy, Kind.popData]
  cases messages with
  | nil =>
    rw [queue.popDataDummy_nil positive false]
    by_cases short : bufferLen < 1
    · rw [queue.popData_param given (.inl short)]
      simp [Ring.refuse]
      omega
    · rw [queue.popData_nil positive given (by omega)]
      simp
      omega
  | cons message rest =>
    have longer := (queue.framed message List.mem_cons_self).longer
    rw [queue.popDataDummy_cons positive false]
    dsimp only
    rw [if_pos (by omega)]
    simp

end States

/-! ## Runs -/

/-- The messages that a variable queue holds after the calls. -/
def Kind.messages (kind : Kind) (capacity : Nat) (calls : List Call) : List (List UInt8) :=
  match kind with
  | .variableQueue mLen => after (Messages.step mLen capacity) [] calls
  | _ => []

/-- A pop of a variable queue that its own look does not answer differently. -/
def Kind.LooksAhead (kind : Kind) (messages : List (List UInt8)) (bufferLen : Int) : Prop :=
  match kind with
  | .variableQueue _ => 1 ≤ bufferLen ∧ ∀ message ∈ messages.head?, message.length ≤ bufferLen
  | _ => True

def Kind.LooksFirst (kind : Kind) (messages : List (List UInt8)) (bufferLen : Int) : Prop :=
  match kind with
  | .variableQueue _ => 1 ≤ bufferLen ∨ messages ≠ []
  | _ => True

/-- In every state a queue comes to: a push on the decorated queue is the push on the queue, and
a pop is the queue's pop exactly when the queue is no variable queue, or the buffer is long
enough for its oldest message (with the semaphore: has a length, or there is a message). -/
theorem decorated_transparent_iff {kind : Kind} {bufferLen : Int} {mmap : Mmap} {calls : List Call}
    (done : (kind.init Ring.new bufferLen mmap).1 = 0) (backed : ∀ call ∈ calls, call.Backed)
    {w : Waitable} {m : Multipopable} (waitable : w.inited = true) (multipopable : m.inited = true)
    (free : 0 < m.mutex)
    (inside : w.ring = after kind.step (kind.init Ring.new bufferLen mmap).2 calls)
    (also : m.ring = after kind.step (kind.init Ring.new bufferLen mmap).2 calls) :
    (∀ pData dataLen isAtomic,
      w.PushesAlike kind pData dataLen isAtomic ∧ m.PushesAlike kind pData dataLen isAtomic) ∧
    ∀ given length,
      (w.PopsAlike kind given length ↔
        kind.LooksAhead (kind.messages bufferLen.toNat calls) length) ∧
      (m.PopsAlike kind given length ↔
        kind.LooksFirst (kind.messages bufferLen.toNat calls) length) := by
  constructor
  · intro pData dataLen isAtomic
    exact ⟨w.pushesAlike waitable, m.pushesAlike multipopable free⟩
  · intro given length
    cases kind with
    | ringQueue =>
      obtain ⟨-, initial⟩ := Ring.Holds.init rfl done
      have holds := (Ring.simulates_fifo bufferLen.toNat).after initial backed
      exact ⟨iff_of_true (w.ring_popsAlike (inside ▸ holds) waitable given length) trivial,
        iff_of_true (m.ring_popsAlike (also ▸ holds) multipopable free given length) trivial⟩
    | fixedQueue mLen =>
      obtain ⟨positive, initial⟩ := fixed_init done
      have records := (fixed_simulates_records positive bufferLen.toNat).after initial backed
      have first := w.fixed_popsAlike (inside ▸ records) positive waitable given length
      have second := m.fixed_popsAlike (also ▸ records) positive multipopable free given length
      exact ⟨iff_of_true first trivial, iff_of_true second trivial⟩
    | variableQueue mLen =>
      obtain ⟨positive, initial⟩ := variable_init done
      have queue := (variable_simulates_messages positive bufferLen.toNat).after initial backed
      exact ⟨w.variable_popsAlike_iff (inside ▸ queue) positive waitable given length,
        m.variable_popsAlike_iff (also ▸ queue) positive multipopable free given length⟩

/-- A variable queue with one message of three bytes. -/
def oneMessage : Ring :=
  after (Kind.variableQueue 2).step ((Kind.variableQueue 2).init Ring.new 8 .mapped).2
    [.pushData (some [3, 0, 7]) 3 true]

theorem decorated_transparent_iff_oneMessage :
    Waitable.PopsAlike (.variableQueue 2) ⟨true, oneMessage, 1⟩ true 3 ∧
      ¬ Waitable.PopsAlike (.variableQueue 2) ⟨true, oneMessage, 1⟩ true 2 := by
  have done : ((Kind.variableQueue 2).init Ring.new 8 .mapped).1 = 0 := by decide
  have backed : ∀ call ∈ [Call.pushData (some [3, 0, 7]) 3 true], call.Backed := by
    simp [Call.Backed]
  obtain ⟨-, pops⟩ := decorated_transparent_iff done backed
    (w := ⟨true, oneMessage, 1⟩) (m := ⟨true, 1, oneMessage⟩) rfl rfl (by decide) rfl rfl
  constructor
  · exact (pops true 3).1.mpr ⟨by decide, by decide⟩
  · exact fun alike => absurd ((pops true 2).1.mp alike).2 (by decide)

/-- The waitable queue copies three bytes to a buffer of two, where the queue itself refuses. -/
theorem short_buffer_overrun :
    (Waitable.popData (.variableQueue 2) ⟨true, oneMessage, 1⟩ true 2 0).1 = some ⟨3, [3, 0, 7]⟩ ∧
      ((Kind.variableQueue 2).popData oneMessage true 2 0).1 = ⟨-1, []⟩ := by
  decide +kernel

end Taomee.RingQueue
