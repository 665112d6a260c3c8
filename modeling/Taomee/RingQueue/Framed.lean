import Taomee.Library.LittleEndian
import Taomee.RingQueue.Ring

/-!
# ring-queue: fixed and variable queues

`c_fixed_queue` and `c_variable_queue` put records of one length and messages that start with
their own length on a `c_ring_queue`. A message is taken in three calls on the bytes: a look at
its length, a look at how much data there is, and the pop.

The number in front of a message has the byte order of the machine, lowest byte first.
-/

namespace Taomee.RingQueue

open LittleEndian Machines

variable {mLen bufferLen : Int} {q : Ring}

/-- The `int` of which these are the first bytes, the others being zero. -/
def intOf (bytes : List UInt8) : Int := Int.bmod (ofLe bytes) (2 ^ 32)

namespace FixedQueue

/-- `c_fixed_queue::init` -/
def init (mLen : Int) (q : Ring) (bufferLen : Int) (mmap : Mmap) : Int × Ring :=
  if mLen ≤ 0 then q.fail .param else q.init bufferLen mmap

/-- `c_fixed_queue::push_data` -/
def pushData (mLen : Int) (q : Ring) (pData : Option (List UInt8)) (dataLen : Int) : Int × Ring :=
  if !q.inited then q.fail .notInit
  else if pData = none ∨ dataLen.tmod mLen ≠ 0 then q.fail .param
  else q.pushData pData dataLen true

/-- `c_fixed_queue::pop_data` -/
def popData (mLen : Int) (q : Ring) (given : Bool) (bufferLen timeout : Int) : Reply × Ring :=
  if !q.inited then q.refuse .notInit
  else if bufferLen < mLen then q.refuse .param
  else q.popData given mLen timeout

/-- `c_fixed_queue::pop_data_dummy` -/
def popDataDummy (mLen : Int) (q : Ring) (given : Bool) (bufferLen timeout : Int) : Reply × Ring :=
  if !q.inited then q.refuse .notInit
  else if bufferLen < mLen then q.refuse .param
  else q.popDataDummy given mLen timeout

end FixedQueue

namespace VariableQueue

/-- `c_variable_queue::init` -/
def init (mLen : Int) (q : Ring) (bufferLen : Int) (mmap : Mmap) : Int × Ring :=
  if mLen ≠ 2 ∧ mLen ≠ 4 then q.fail .param else q.init bufferLen mmap

/-- `c_variable_queue::push_data` -/
def pushData (mLen : Int) (q : Ring) (pData : Option (List UInt8)) (dataLen : Int) : Int × Ring :=
  if !q.inited then q.fail .notInit
  else
    match pData with
    | none => q.fail .param
    | some data =>
      if dataLen ≤ mLen then q.fail .param
      else
        let packLen := intOf (data.take mLen.toNat)
        if packLen ≤ mLen ∨ packLen > dataLen then q.fail .param
        else q.pushData (some data) packLen true

/-- `c_variable_queue::pop_data` -/
def popData (mLen : Int) (q : Ring) (given : Bool) (bufferLen timeout : Int) : Reply × Ring :=
  if !q.inited then q.refuse .notInit
  else if bufferLen < 1 then q.refuse .param
  else
    let result := q.popDataDummy true mLen timeout
    if result.1.ret < 0 then (⟨result.1.ret, []⟩, result.2)
    else if result.1.ret ≠ mLen then (⟨0, []⟩, result.2)
    else
      let packLen := intOf result.1.data
      if packLen ≤ mLen ∨ packLen > bufferLen then result.2.refuse .param
      else if packLen > result.2.dataLen then (⟨0, []⟩, result.2)
      else result.2.popData given packLen timeout

/-- `c_variable_queue::pop_data_dummy`, which does not look at the length of the buffer. -/
def popDataDummy (mLen : Int) (q : Ring) (given : Bool) (timeout : Int) : Reply × Ring :=
  if !q.inited then q.refuse .notInit
  else
    let result := q.popDataDummy true mLen timeout
    if result.1.ret < 0 then (⟨result.1.ret, []⟩, result.2)
    else if result.1.ret ≠ mLen then (⟨0, []⟩, result.2)
    else
      let packLen := intOf result.1.data
      if packLen > result.2.dataLen ∨ packLen < mLen then (⟨0, []⟩, result.2)
      else if !given then (⟨packLen, []⟩, result.2)
      else result.2.popDataDummy true packLen timeout

end VariableQueue

/-- The classes of `i_ring_queue` that hold data. -/
inductive Kind where
  | ringQueue
  | fixedQueue (mLen : Int)
  | variableQueue (mLen : Int)
  deriving DecidableEq

/-! The virtual calls. -/

def Kind.init : Kind → Ring → Int → Mmap → Int × Ring
  | .ringQueue => Ring.init
  | .fixedQueue mLen => FixedQueue.init mLen
  | .variableQueue mLen => VariableQueue.init mLen

def Kind.pushData (kind : Kind) (q : Ring) (pData : Option (List UInt8)) (dataLen : Int)
    (isAtomic : Bool) : Int × Ring :=
  match kind with
  | .ringQueue => q.pushData pData dataLen isAtomic
  | .fixedQueue mLen => FixedQueue.pushData mLen q pData dataLen
  | .variableQueue mLen => VariableQueue.pushData mLen q pData dataLen

def Kind.popData (kind : Kind) (q : Ring) (given : Bool) (bufferLen timeout : Int) :
    Reply × Ring :=
  match kind with
  | .ringQueue => q.popData given bufferLen timeout
  | .fixedQueue mLen => FixedQueue.popData mLen q given bufferLen timeout
  | .variableQueue mLen => VariableQueue.popData mLen q given bufferLen timeout

def Kind.popDataDummy (kind : Kind) (q : Ring) (given : Bool) (bufferLen timeout : Int) :
    Reply × Ring :=
  match kind with
  | .ringQueue => q.popDataDummy given bufferLen timeout
  | .fixedQueue mLen => FixedQueue.popDataDummy mLen q given bufferLen timeout
  | .variableQueue mLen => VariableQueue.popDataDummy mLen q given timeout

def Kind.step (kind : Kind) (q : Ring) : Call → Reply × Ring
  | .pushData pData dataLen isAtomic => plain (kind.pushData q pData dataLen isAtomic)
  | .popData given bufferLen timeout => kind.popData q given bufferLen timeout
  | .popDataDummy given bufferLen timeout => kind.popDataDummy q given bufferLen timeout
  | .getBufferLen => plain q.getBufferLen
  | .getDataLen => plain q.getDataLen
  | .getEmptyBufferLen => plain q.getEmptyBufferLen

/-- The buffer must take a record, and a record is popped. -/
theorem FixedQueue.popData_eq (inited : q.inited = true) (given : Bool) (bufferLen timeout : Int) :
    FixedQueue.popData mLen q given bufferLen timeout =
      if bufferLen < mLen then q.refuse .param else q.popData given mLen timeout := by
  rw [FixedQueue.popData, if_neg (by simp [inited])]

/-- The buffer must take a record, and a record is looked at. -/
theorem FixedQueue.popDataDummy_eq (inited : q.inited = true) (given : Bool)
    (bufferLen timeout : Int) :
    FixedQueue.popDataDummy mLen q given bufferLen timeout =
      if bufferLen < mLen then q.refuse .param else q.popDataDummy given mLen timeout := by
  rw [FixedQueue.popDataDummy, if_neg (by simp [inited])]

/-! ## Records -/

/-- A FIFO of records of `mLen` bytes. -/
def Records.step (mLen : Int) (capacity : Nat) (items : List UInt8) : Call → Reply × List UInt8
  | .pushData none _ _ => (failed, items)
  | .pushData (some data) dataLen _ =>
    if dataLen < 1 ∨ dataLen.tmod mLen ≠ 0 ∨ (capacity - items.length : Nat) < dataLen then
      (failed, items)
    else (⟨dataLen, []⟩, items ++ data.take dataLen.toNat)
  | .popData given bufferLen timeout =>
    if bufferLen < mLen ∨ timeout ≠ 0 then (failed, items)
    else
      let taken := items.take mLen.toNat
      (⟨taken.length, if given then taken else []⟩, items.drop mLen.toNat)
  | .popDataDummy given bufferLen timeout =>
    if bufferLen < mLen ∨ timeout ≠ 0 then (failed, items)
    else
      let taken := items.take mLen.toNat
      (⟨taken.length, if given then taken else []⟩, items)
  | .getBufferLen => (⟨capacity, []⟩, items)
  | .getDataLen => (⟨items.length, []⟩, items)
  | .getEmptyBufferLen => (⟨(capacity : Int) - items.length, []⟩, items)

/-- The queue holds these bytes, which are whole records. -/
structure HoldsRecords (mLen : Int) (capacity : Nat) (q : Ring) (items : List UInt8) : Prop where
  holds : q.Holds capacity items
  whole : mLen ∣ items.length

/-- The fixed queue does what a list of records does. -/
theorem fixed_simulates_records (positive : 0 < mLen) (capacity : Nat) :
    Simulates (Kind.fixedQueue mLen).step (Records.step mLen capacity) Call.Backed
      (HoldsRecords mLen capacity) := by
  constructor
  intro q items call ⟨holds, whole⟩ backed
  have inited := holds.inited
  obtain ⟨bufferLen, dataLen, emptyBufferLen⟩ := holds.measures
  have refused (errno : Errno) : HoldsRecords mLen capacity { q with lastErrno := errno } items :=
    ⟨holds.withErrno errno, whole⟩
  cases call with
  | pushData pData dataLen isAtomic =>
    cases pData with
    | none =>
      simpa [Kind.step, Kind.pushData, FixedQueue.pushData, Records.step, plain, inited, Ring.fail,
        failed] using refused .param
    | some data =>
      dsimp only [Kind.step, Kind.pushData, Records.step]
      rw [FixedQueue.pushData, if_neg (by simp [inited])]
      by_cases ragged : dataLen.tmod mLen ≠ 0
      · rw [if_pos (.inr ragged), if_pos (.inr (.inl ragged))]
        exact ⟨rfl, refused .param⟩
      rw [if_neg (by simpa using ragged)]
      rcases holds.pushAtomic backed with
        ⟨short, ran⟩ | ⟨-, full, ran⟩ | ⟨some', room, pushed, ran, -, after⟩
      · rw [ran, if_pos (.inl short)]
        exact ⟨rfl, refused .param⟩
      · rw [ran, if_pos (.inr (.inr full))]
        exact ⟨rfl, refused .idleBuffer⟩
      · rw [ran, if_neg (by omega)]
        refine ⟨rfl, after, ?_⟩
        have length :
            ((items ++ data.take dataLen.toNat).length : Int) = items.length + dataLen := by
          have backed : dataLen ≤ data.length := backed
          rw [List.length_append, List.length_take]
          omega
        rw [length]
        exact Int.dvd_add whole (Int.dvd_of_tmod_eq_zero (not_not.mp ragged))
  | popData given bufferLen timeout =>
    dsimp only [Kind.step, Kind.popData, Records.step]
    rw [FixedQueue.popData_eq inited]
    by_cases short : bufferLen < mLen
    · rw [if_pos short, if_pos (.inl short)]
      exact ⟨rfl, refused .param⟩
    rw [if_neg short]
    by_cases waits : timeout ≠ 0
    · rw [holds.popData_param given (.inr waits), if_pos (.inr waits)]
      exact ⟨rfl, refused .param⟩
    obtain rfl : timeout = 0 := not_not.mp waits
    have fine : ¬ (bufferLen < mLen ∨ (0 : Int) ≠ 0) := by omega
    rw [holds.popData given (by omega), if_neg fine]
    refine ⟨rfl, holds.dropped mLen.toNat, ?_⟩
    by_cases empty : items.length = 0
    · simp [List.length_eq_zero_iff.mp empty]
    have enough : mLen ≤ items.length := Int.le_of_dvd (by omega) whole
    have length : ((items.drop mLen.toNat).length : Int) = items.length - mLen := by
      rw [List.length_drop]
      omega
    rw [length]
    exact Int.dvd_sub whole (Int.dvd_refl mLen)
  | popDataDummy given bufferLen timeout =>
    dsimp only [Kind.step, Kind.popDataDummy, Records.step]
    rw [FixedQueue.popDataDummy_eq inited]
    by_cases short : bufferLen < mLen
    · rw [if_pos short, if_pos (.inl short)]
      exact ⟨rfl, refused .param⟩
    rw [if_neg short]
    by_cases waits : timeout ≠ 0
    · rw [holds.popDataDummy_param given (.inr waits), if_pos (.inr waits)]
      exact ⟨rfl, refused .param⟩
    obtain rfl : timeout = 0 := not_not.mp waits
    have fine : ¬ (bufferLen < mLen ∨ (0 : Int) ≠ 0) := by omega
    rw [holds.popDataDummy given (by omega), if_neg fine]
    exact ⟨rfl, holds, whole⟩
  | getBufferLen =>
    simp only [Kind.step, Records.step, plain, bufferLen]
    exact ⟨trivial, holds, whole⟩
  | getDataLen =>
    simp only [Kind.step, Records.step, plain, dataLen]
    exact ⟨trivial, holds, whole⟩
  | getEmptyBufferLen =>
    simp only [Kind.step, Records.step, plain, emptyBufferLen]
    exact ⟨trivial, holds, whole⟩

/-! ## Messages -/

/-- A message starts with its own length. -/
structure Message (mLen : Int) (message : List UInt8) : Prop where
  longer : mLen < message.length
  packLen : intOf (message.take mLen.toNat) = message.length

/-- A FIFO of messages of at most `capacity` bytes together. A look gives the whole message,
whatever the length of the buffer. -/
def Messages.step (mLen : Int) (capacity : Nat) (messages : List (List UInt8)) :
    Call → Reply × List (List UInt8)
  | .pushData none _ _ => (failed, messages)
  | .pushData (some data) dataLen _ =>
    let packLen := intOf (data.take mLen.toNat)
    if dataLen ≤ mLen ∨ packLen ≤ mLen ∨ packLen > dataLen ∨
        (capacity - messages.flatten.length : Nat) < packLen then (failed, messages)
    else (⟨packLen, []⟩, messages ++ [data.take packLen.toNat])
  | .popData given bufferLen timeout =>
    if bufferLen < 1 ∨ timeout ≠ 0 then (failed, messages)
    else
      match messages with
      | [] => (⟨0, []⟩, messages)
      | message :: rest =>
        if message.length > bufferLen then (failed, messages)
        else (⟨message.length, if given then message else []⟩, rest)
  | .popDataDummy given _ timeout =>
    if timeout ≠ 0 then (failed, messages)
    else
      match messages with
      | [] => (⟨0, []⟩, messages)
      | message :: _ => (⟨message.length, if given then message else []⟩, messages)
  | .getBufferLen => (⟨capacity, []⟩, messages)
  | .getDataLen => (⟨messages.flatten.length, []⟩, messages)
  | .getEmptyBufferLen => (⟨(capacity : Int) - messages.flatten.length, []⟩, messages)

/-- The queue holds these messages. -/
structure HoldsMessages (mLen : Int) (capacity : Nat) (q : Ring) (messages : List (List UInt8)) :
    Prop where
  holds : q.Holds capacity messages.flatten
  framed : ∀ message ∈ messages, Message mLen message

namespace HoldsMessages

variable {mLen : Int} {capacity : Nat} {q : Ring} {message : List UInt8}
  {messages : List (List UInt8)}

theorem withErrno (queue : HoldsMessages mLen capacity q messages) (errno : Errno) :
    HoldsMessages mLen capacity { q with lastErrno := errno } messages :=
  ⟨queue.holds.withErrno errno, queue.framed⟩

/-- The look at a length. -/
theorem peek (queue : HoldsMessages mLen capacity q messages) (positive : 0 < mLen) :
    q.popDataDummy true mLen 0 =
      (⟨(messages.flatten.take mLen.toNat).length, messages.flatten.take mLen.toNat⟩, q) :=
  queue.holds.popDataDummy true positive

/-- An empty queue has no length to look at. -/
theorem peek_nil (queue : HoldsMessages mLen capacity q []) (positive : 0 < mLen) :
    q.popDataDummy true mLen 0 = (⟨0, []⟩, q) := by
  simp [queue.peek positive]

/-- The length field of the first message is its length. -/
theorem peek_cons (queue : HoldsMessages mLen capacity q (message :: messages))
    (positive : 0 < mLen) :
    ∃ looked, q.popDataDummy true mLen 0 = (⟨mLen, looked⟩, q) ∧ intOf looked = message.length := by
  have framed := queue.framed message List.mem_cons_self
  have longer := framed.longer
  have front : (message :: messages).flatten.take mLen.toNat = message.take mLen.toNat := by
    rw [List.flatten_cons, List.take_append_of_le_length (by omega)]
  refine ⟨message.take mLen.toNat, ?_, framed.packLen⟩
  rw [queue.peek positive, front, List.length_take, Nat.min_eq_left (by omega),
    Int.toNat_of_nonneg (by omega)]

/-- A pop takes the oldest message, if the buffer is long enough for it. -/
theorem popData_cons (queue : HoldsMessages mLen capacity q (message :: messages))
    (positive : 0 < mLen) (given : Bool) {bufferLen : Int} (some' : 1 ≤ bufferLen) :
    VariableQueue.popData mLen q given bufferLen 0 =
      if message.length > bufferLen then q.refuse .param
      else (⟨message.length, if given then message else []⟩, q.dropped message.length) := by
  have longer := (queue.framed message List.mem_cons_self).longer
  obtain ⟨looked, ran, packLen⟩ := queue.peek_cons positive
  rw [VariableQueue.popData, if_neg (by simp [queue.holds.inited]), if_neg (by omega), ran]
  dsimp only
  rw [if_neg (by omega), if_neg (by omega), packLen]
  by_cases long : message.length > bufferLen
  · rw [if_pos (.inr long), if_pos long]
  · have front : (message :: messages).flatten.take message.length = message := by simp
    have all : min (message :: messages).flatten.length message.length = message.length := by
      simp
    have present : ¬ (message.length : Int) > q.dataLen := by
      rw [queue.holds.dataLen_eq, List.flatten_cons, List.length_append]
      omega
    have inner := queue.holds.popData given (show 1 ≤ (message.length : Int) by omega)
    rw [Int.toNat_natCast, front, all] at inner
    rw [if_neg (by omega), if_neg present, if_neg long, inner]

/-- The first message goes as a whole. -/
theorem dropped_cons (queue : HoldsMessages mLen capacity q (message :: messages)) :
    HoldsMessages mLen capacity (q.dropped message.length) messages := by
  have after := queue.holds.dropped message.length
  rw [List.flatten_cons, List.length_append, Nat.min_eq_right (by omega), List.drop_left] at after
  exact ⟨after, fun other member => queue.framed other (List.mem_cons_of_mem _ member)⟩

/-- A look gives the oldest message. -/
theorem popDataDummy_cons (queue : HoldsMessages mLen capacity q (message :: messages))
    (positive : 0 < mLen) (given : Bool) :
    VariableQueue.popDataDummy mLen q given 0 =
      (⟨message.length, if given then message else []⟩, q) := by
  have longer := (queue.framed message List.mem_cons_self).longer
  have front : (message :: messages).flatten.take message.length = message := by simp
  have present : ¬ ((message.length : Int) > q.dataLen ∨ (message.length : Int) < mLen) := by
    rw [queue.holds.dataLen_eq, List.flatten_cons, List.length_append]
    omega
  obtain ⟨looked, ran, packLen⟩ := queue.peek_cons positive
  rw [VariableQueue.popDataDummy, if_neg (by simp [queue.holds.inited]), ran]
  dsimp only
  rw [if_neg (by omega), if_neg (by omega), packLen, if_neg present]
  cases given with
  | false => rfl
  | true =>
    have inner := queue.holds.popDataDummy true (show 1 ≤ (message.length : Int) by omega)
    rw [Int.toNat_natCast, front] at inner
    rw [if_neg (by simp), inner]

/-- A buffer without room and a time to wait are refused. -/
theorem popData_param (queue : HoldsMessages mLen capacity q messages) (given : Bool)
    {bufferLen timeout : Int} (bad : bufferLen < 1 ∨ timeout ≠ 0) :
    VariableQueue.popData mLen q given bufferLen timeout = q.refuse .param := by
  rw [VariableQueue.popData, if_neg (by simp [queue.holds.inited])]
  by_cases short : bufferLen < 1
  · rw [if_pos short]
  · have waits : timeout ≠ 0 := by tauto
    rw [if_neg short, queue.holds.popDataDummy_param true (.inr waits)]
    rfl

/-- A time to wait is refused. -/
theorem popDataDummy_param (queue : HoldsMessages mLen capacity q messages) (given : Bool)
    {timeout : Int} (waits : timeout ≠ 0) :
    VariableQueue.popDataDummy mLen q given timeout = q.refuse .param := by
  rw [VariableQueue.popDataDummy, if_neg (by simp [queue.holds.inited]),
    queue.holds.popDataDummy_param true (.inr waits)]
  rfl

/-- An empty queue gives no byte. -/
theorem popData_nil (queue : HoldsMessages mLen capacity q []) (positive : 0 < mLen)
    (given : Bool) {bufferLen : Int} (some' : 1 ≤ bufferLen) :
    VariableQueue.popData mLen q given bufferLen 0 = (⟨0, []⟩, q) := by
  rw [VariableQueue.popData, if_neg (by simp [queue.holds.inited]), if_neg (by omega),
    queue.peek_nil positive]
  dsimp only
  rw [if_neg (by omega), if_pos (by omega)]

/-- An empty queue shows no byte. -/
theorem popDataDummy_nil (queue : HoldsMessages mLen capacity q []) (positive : 0 < mLen)
    (given : Bool) : VariableQueue.popDataDummy mLen q given 0 = (⟨0, []⟩, q) := by
  rw [VariableQueue.popDataDummy, if_neg (by simp [queue.holds.inited]), queue.peek_nil positive]
  dsimp only
  rw [if_neg (by omega), if_pos (by omega)]

end HoldsMessages

/-- The variable queue does what a list of messages does. -/
theorem variable_simulates_messages (positive : 0 < mLen) (capacity : Nat) :
    Simulates (Kind.variableQueue mLen).step (Messages.step mLen capacity) Call.Backed
      (HoldsMessages mLen capacity) := by
  constructor
  intro q messages call queue backed
  have inited := queue.holds.inited
  obtain ⟨bufferLen, dataLen, emptyBufferLen⟩ := queue.holds.measures
  cases call with
  | pushData pData dataLen isAtomic =>
    cases pData with
    | none =>
      simpa [Kind.step, Kind.pushData, VariableQueue.pushData, Messages.step, plain, inited,
        Ring.fail, failed] using queue.withErrno .param
    | some data =>
      dsimp only [Kind.step, Kind.pushData, Messages.step]
      rw [VariableQueue.pushData, if_neg (by simp [inited])]
      generalize same : intOf (data.take mLen.toNat) = packLen
      by_cases short : dataLen ≤ mLen
      · rw [if_pos short, if_pos (.inl short)]
        exact ⟨rfl, queue.withErrno .param⟩
      rw [if_neg short]
      by_cases bad : packLen ≤ mLen ∨ packLen > dataLen
      · rw [if_pos bad, if_pos (.inr (bad.imp_right .inl))]
        exact ⟨rfl, queue.withErrno .param⟩
      rw [if_neg bad]
      have backed : dataLen ≤ data.length := backed
      rcases queue.holds.pushAtomic (show packLen ≤ data.length by omega) with
        ⟨less, -⟩ | ⟨-, full, ran⟩ | ⟨-, room, pushed, ran, -, after⟩
      · omega
      · rw [ran, if_pos (.inr (.inr (.inr full)))]
        exact ⟨rfl, queue.withErrno .idleBuffer⟩
      · have fine : ¬ (dataLen ≤ mLen ∨ packLen ≤ mLen ∨ packLen > dataLen ∨
            (capacity - messages.flatten.length : Nat) < packLen) := by omega
        rw [ran, if_neg fine]
        refine ⟨rfl, by simpa [plain] using after, ?_⟩
        intro message member
        rcases List.mem_append.mp member with old | new
        · exact queue.framed message old
        · obtain rfl := List.mem_singleton.mp new
          have length : (data.take packLen.toNat).length = packLen.toNat := by
            rw [List.length_take]
            omega
          constructor
          · omega
          · rw [List.take_take, Nat.min_eq_left (by omega), same, length]
            omega
  | popData given bufferLen timeout =>
    dsimp only [Kind.step, Kind.popData, Messages.step]
    by_cases bad : bufferLen < 1 ∨ timeout ≠ 0
    · rw [queue.popData_param given bad, if_pos bad]
      exact ⟨rfl, queue.withErrno .param⟩
    obtain rfl : timeout = 0 := by tauto
    rw [if_neg bad]
    cases messages with
    | nil =>
      rw [queue.popData_nil positive given (by omega)]
      exact ⟨rfl, queue⟩
    | cons message rest =>
      dsimp only
      rw [queue.popData_cons positive given (by omega)]
      split
      · exact ⟨rfl, queue.withErrno .param⟩
      · exact ⟨rfl, queue.dropped_cons⟩
  | popDataDummy given bufferLen timeout =>
    dsimp only [Kind.step, Kind.popDataDummy, Messages.step]
    by_cases bad : timeout ≠ 0
    · rw [queue.popDataDummy_param given bad, if_pos bad]
      exact ⟨rfl, queue.withErrno .param⟩
    obtain rfl : timeout = 0 := not_not.mp bad
    cases messages with
    | nil =>
      rw [queue.popDataDummy_nil positive given]
      exact ⟨rfl, queue⟩
    | cons message rest =>
      rw [queue.popDataDummy_cons positive given]
      exact ⟨rfl, queue⟩
  | getBufferLen =>
    simp only [Kind.step, Messages.step, plain, bufferLen]
    exact ⟨trivial, queue⟩
  | getDataLen =>
    simp only [Kind.step, Messages.step, plain, dataLen]
    exact ⟨trivial, queue⟩
  | getEmptyBufferLen =>
    simp only [Kind.step, Messages.step, plain, emptyBufferLen]
    exact ⟨trivial, queue⟩

/-! ## Calls that fail -/

/-- The state differs in the error number only. -/
def Ring.Same (q after : Ring) : Prop := ∃ errno, after = { q with lastErrno := errno }

theorem Ring.Same.refl (q : Ring) : q.Same q := ⟨q.lastErrno, rfl⟩

/-- A push that fails changes nothing but the error. -/
theorem Ring.pushData_failed {pData : Option (List UInt8)} {dataLen : Int} {isAtomic : Bool}
    (fails : (q.pushData pData dataLen isAtomic).1 < 0) :
    q.Same (q.pushData pData dataLen isAtomic).2 := by
  revert fails
  unfold Ring.pushData
  dsimp only
  repeat' split
  all_goals first
    | exact fun _ => ⟨_, rfl⟩
    | exact fun fails => absurd fails (Int.not_lt.mpr (Int.natCast_nonneg _))

/-- A look changes nothing but the error. -/
theorem Ring.popDataDummy_same (q : Ring) (given : Bool) (bufferLen timeout : Int) :
    q.Same (q.popDataDummy given bufferLen timeout).2 := by
  unfold Ring.popDataDummy
  repeat' split
  all_goals exact ⟨_, rfl⟩

/-- A pop that fails changes nothing but the error. -/
theorem Ring.popData_failed {given : Bool} {timeout : Int}
    (fails : (q.popData given bufferLen timeout).1.ret < 0) :
    q.Same (q.popData given bufferLen timeout).2 := by
  revert fails
  unfold Ring.popData
  repeat' split
  all_goals first
    | exact fun _ => ⟨_, rfl⟩
    | exact fun fails => absurd fails (Int.not_lt.mpr (Int.natCast_nonneg _))

theorem Ring.Same.trans {middle after : Ring} (before : q.Same middle) (behind : middle.Same after)
    : q.Same after := by
  obtain ⟨_, rfl⟩ := before
  obtain ⟨errno, rfl⟩ := behind
  exact ⟨errno, rfl⟩

/-- A pop that fails changes nothing but the error. -/
theorem VariableQueue.popData_failed {given : Bool} {timeout : Int}
    (fails : (VariableQueue.popData mLen q given bufferLen timeout).1.ret < 0) :
    q.Same (VariableQueue.popData mLen q given bufferLen timeout).2 := by
  have looked := q.popDataDummy_same true mLen timeout
  revert fails
  unfold VariableQueue.popData
  dsimp only
  split
  · exact fun _ => ⟨_, rfl⟩
  split
  · exact fun _ => ⟨_, rfl⟩
  split
  · exact fun _ => looked
  split
  · exact fun _ => looked
  split
  · exact fun _ => looked.trans ⟨_, rfl⟩
  split
  · exact fun _ => looked
  · exact fun fails => looked.trans (Ring.popData_failed fails)

/-- A look changes nothing but the error. -/
theorem VariableQueue.popDataDummy_same (mLen : Int) (q : Ring) (given : Bool) (timeout : Int) :
    q.Same (VariableQueue.popDataDummy mLen q given timeout).2 := by
  have looked := q.popDataDummy_same true mLen timeout
  unfold VariableQueue.popDataDummy
  dsimp only
  split
  · exact ⟨_, rfl⟩
  split
  · exact looked
  split
  · exact looked
  split
  · exact looked
  split
  · exact looked
  · exact looked.trans (Ring.popDataDummy_same _ true _ timeout)

/-- A push that fails changes nothing, whatever the kind. -/
theorem Kind.pushData_failed {kind : Kind} {pData : Option (List UInt8)} {dataLen : Int}
    {isAtomic : Bool} (fails : (kind.pushData q pData dataLen isAtomic).1 < 0) :
    q.Same (kind.pushData q pData dataLen isAtomic).2 := by
  revert fails
  cases kind with
  | ringQueue => exact Ring.pushData_failed
  | fixedQueue mLen =>
    dsimp only [Kind.pushData]
    unfold FixedQueue.pushData
    split
    · exact fun _ => ⟨_, rfl⟩
    split
    · exact fun _ => ⟨_, rfl⟩
    · exact Ring.pushData_failed
  | variableQueue mLen =>
    dsimp only [Kind.pushData]
    unfold VariableQueue.pushData
    split
    · exact fun _ => ⟨_, rfl⟩
    split
    · exact fun _ => ⟨_, rfl⟩
    split
    · exact fun _ => ⟨_, rfl⟩
    dsimp only
    split
    · exact fun _ => ⟨_, rfl⟩
    · exact Ring.pushData_failed

/-- A pop that fails changes nothing, whatever the kind. -/
theorem Kind.popData_failed {kind : Kind} {given : Bool} {timeout : Int}
    (fails : (kind.popData q given bufferLen timeout).1.ret < 0) :
    q.Same (kind.popData q given bufferLen timeout).2 := by
  revert fails
  cases kind with
  | ringQueue => exact Ring.popData_failed
  | fixedQueue mLen =>
    dsimp only [Kind.popData]
    unfold FixedQueue.popData
    split
    · exact fun _ => ⟨_, rfl⟩
    split
    · exact fun _ => ⟨_, rfl⟩
    · exact Ring.popData_failed
  | variableQueue mLen => exact VariableQueue.popData_failed

/-- A look never changes the data and the indices. -/
theorem Kind.popDataDummy_same (kind : Kind) (q : Ring) (given : Bool) (bufferLen timeout : Int) :
    q.Same (kind.popDataDummy q given bufferLen timeout).2 := by
  cases kind with
  | ringQueue => exact q.popDataDummy_same given bufferLen timeout
  | fixedQueue mLen =>
    dsimp only [Kind.popDataDummy]
    unfold FixedQueue.popDataDummy
    split
    · exact ⟨_, rfl⟩
    split
    · exact ⟨_, rfl⟩
    · exact q.popDataDummy_same given mLen timeout
  | variableQueue mLen => exact VariableQueue.popDataDummy_same mLen q given timeout

/-- A call that fails leaves the data and the indices as they are. -/
theorem Kind.step_failed (kind : Kind) (q : Ring) (call : Call)
    (fails : (kind.step q call).1.ret < 0) : q.Same (kind.step q call).2 := by
  cases call with
  | pushData pData dataLen isAtomic => exact Kind.pushData_failed fails
  | popData given bufferLen timeout => exact Kind.popData_failed fails
  | popDataDummy given bufferLen timeout => exact kind.popDataDummy_same q given bufferLen timeout
  | getBufferLen =>
    dsimp only [Kind.step, Ring.getBufferLen]
    split
    · exact ⟨_, rfl⟩
    · exact .refl q
  | getDataLen =>
    dsimp only [Kind.step, Ring.getDataLen]
    split
    · exact ⟨_, rfl⟩
    · exact .refl q
  | getEmptyBufferLen =>
    dsimp only [Kind.step, Ring.getEmptyBufferLen]
    split
    · exact ⟨_, rfl⟩
    · exact .refl q

/-- A variable queue that is set up is empty. -/
theorem variable_init {mmap : Mmap}
    (done : ((Kind.variableQueue mLen).init Ring.new bufferLen mmap).1 = 0) :
    0 < mLen ∧ HoldsMessages mLen bufferLen.toNat
      ((Kind.variableQueue mLen).init Ring.new bufferLen mmap).2 [] := by
  revert done
  dsimp only [Kind.init]
  unfold VariableQueue.init
  split
  · exact fun done => absurd done (Int.neg_ne_zero.mpr one_ne_zero)
  · intro done
    exact ⟨by omega, (Ring.Holds.init rfl done).2, by simp⟩

/-- A fixed queue that is set up is empty. -/
theorem fixed_init {mmap : Mmap}
    (done : ((Kind.fixedQueue mLen).init Ring.new bufferLen mmap).1 = 0) :
    0 < mLen ∧ HoldsRecords mLen bufferLen.toNat
      ((Kind.fixedQueue mLen).init Ring.new bufferLen mmap).2 [] := by
  revert done
  dsimp only [Kind.init]
  unfold FixedQueue.init
  split
  · exact fun done => absurd done (Int.neg_ne_zero.mpr one_ne_zero)
  · intro done
    exact ⟨by omega, (Ring.Holds.init rfl done).2, by simp⟩

/-- For every length, every sequence of calls and every buffer: a variable queue answers as a
FIFO of messages, a fixed queue as a FIFO of records which it holds a whole number of, and a
call that fails changes the error number only. -/
theorem queues_keep_boundaries {bufferLen : Int} {mmap : Mmap} {calls : List Call}
    (backed : ∀ call ∈ calls, call.Backed) (mLen : Int) :
    (((Kind.variableQueue mLen).init Ring.new bufferLen mmap).1 = 0 →
      let start := ((Kind.variableQueue mLen).init Ring.new bufferLen mmap).2
      replies (Kind.variableQueue mLen).step start calls =
        replies (Messages.step mLen bufferLen.toNat) [] calls) ∧
    (((Kind.fixedQueue mLen).init Ring.new bufferLen mmap).1 = 0 →
      let start := ((Kind.fixedQueue mLen).init Ring.new bufferLen mmap).2
      replies (Kind.fixedQueue mLen).step start calls =
          replies (Records.step mLen bufferLen.toNat) [] calls ∧
        mLen ∣ (after (Kind.fixedQueue mLen).step start calls).getDataLen.1) ∧
    ∀ kind : Kind, ∀ q call, (kind.step q call).1.ret < 0 → q.Same (kind.step q call).2 := by
  refine ⟨?_, ?_, Kind.step_failed⟩
  · intro done start
    obtain ⟨positive, initial⟩ := variable_init done
    exact (variable_simulates_messages positive bufferLen.toNat).replies_eq initial backed
  · intro done start
    obtain ⟨positive, initial⟩ := fixed_init done
    have simulates := fixed_simulates_records positive bufferLen.toNat
    obtain ⟨holds, whole⟩ := simulates.after initial backed
    refine ⟨simulates.replies_eq initial backed, ?_⟩
    rw [holds.measures.2.1]
    exact whole

/-- Two messages with lengths of two bytes, popped with a buffer too small and one that fits. -/
def twoMessages : List Call :=
  [.pushData (some [3, 0, 7, 9]) 4 false, .pushData (some [4, 0, 8, 8]) 4 false,
    .popData true 2 0, .popData true 9 0, .popData true 4 0, .popData true 4 0]

/-- Two messages of different lengths, a third too many, and an empty queue. -/
theorem queues_keep_boundaries_two :
    replies (Kind.variableQueue 2).step ((Kind.variableQueue 2).init Ring.new 8 .mapped).2
        twoMessages =
      [⟨3, []⟩, ⟨4, []⟩, ⟨-1, []⟩, ⟨3, [3, 0, 7]⟩, ⟨4, [4, 0, 8, 8]⟩, ⟨0, []⟩] := by
  have backed : ∀ call ∈ twoMessages, call.Backed := by
    simp [twoMessages, Call.Backed]
  have done : ((Kind.variableQueue 2).init Ring.new 8 .mapped).1 = 0 := by decide
  exact ((queues_keep_boundaries backed 2).1 done).trans (by decide)

end Taomee.RingQueue
