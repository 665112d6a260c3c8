import Mathlib.Algebra.Order.Ring.Int
import Taomee.Library.Machines
import Taomee.Library.RingBuffer

/-!
# ring-queue: the byte ring

`c_ring_queue` keeps bytes in a buffer with one slot more than it may hold, so that equal
indices mean an empty queue. `push_data` copies behind `write_index` and `pop_data` from
`read_index` on, each in two pieces where it passes the end of the buffer.
-/

namespace Taomee.RingQueue

open RingBuffer Machines

/-- The errors of `error_list.h`. -/
inductive Errno where
  | noError
  | notInit
  | alreadyInited
  | param
  | memory
  | system
  | idleBuffer
  deriving DecidableEq

/-- `c_ring_queue` with its `ring_queue_meta_t`. -/
structure Ring where
  inited : Bool
  lastErrno : Errno
  pBuffer : Nat → UInt8
  bufferLen : Nat
  readIndex : Nat
  writeIndex : Nat

/-- What a call returns, and what it copies to the buffer it was given. -/
structure Reply where
  ret : Int
  data : List UInt8
  deriving DecidableEq

/-- What `mmap` answers. -/
inductive Mmap where
  | mapped
  | noMemory
  | failed
  deriving DecidableEq

def Ring.new : Ring := ⟨false, .noError, fun _ => 0, 0, 0, 0⟩

def Ring.fail (q : Ring) (errno : Errno) : Int × Ring := (-1, { q with lastErrno := errno })

def Ring.refuse (q : Ring) (errno : Errno) : Reply × Ring :=
  (⟨-1, []⟩, { q with lastErrno := errno })

/-- `init` -/
def Ring.init (q : Ring) (bufferLen : Int) (mmap : Mmap) : Int × Ring :=
  if q.inited then q.fail .alreadyInited
  else
    let bufferLen := bufferLen + 1
    if bufferLen ≤ 1 ∨ bufferLen ≥ 1 * 1024 * 1024 * 1024 then q.fail .param
    else
      match mmap with
      | .noMemory => q.fail .memory
      | .failed => q.fail .system
      | .mapped => (0, ⟨true, .noError, fun _ => 0, bufferLen.toNat, 0, 0⟩)

/-- `get_data_len` of a queue that is set up. -/
def Ring.dataLen (q : Ring) : Nat :=
  if q.writeIndex ≥ q.readIndex then q.writeIndex - q.readIndex
  else q.bufferLen - (q.readIndex - q.writeIndex)

/-- `push_data` -/
def Ring.pushData (q : Ring) (pData : Option (List UInt8)) (dataLen : Int) (isAtomic : Bool) :
    Int × Ring :=
  if !q.inited then q.fail .notInit
  else
    match pData with
    | none => q.fail .param
    | some data =>
      if dataLen < 1 then q.fail .param
      else if q.writeIndex ≥ q.readIndex then
        let empty := q.bufferLen - (q.writeIndex - q.readIndex) - 1
        let copyLen := min dataLen.toNat empty
        if isAtomic ∧ copyLen < dataLen.toNat then q.fail .idleBuffer
        else
          let right := q.bufferLen - q.writeIndex
          if copyLen < right then
            (copyLen, { q with
              pBuffer := copyIn q.pBuffer q.writeIndex (data.take copyLen)
              writeIndex := q.writeIndex + copyLen })
          else
            (copyLen, { q with
              pBuffer := copyIn (copyIn q.pBuffer q.writeIndex (data.take right)) 0
                ((data.drop right).take (copyLen - right))
              writeIndex := copyLen - right })
      else
        let empty := q.readIndex - q.writeIndex - 1
        let copyLen := min dataLen.toNat empty
        if isAtomic ∧ copyLen < dataLen.toNat then q.fail .idleBuffer
        else
          (copyLen, { q with
            pBuffer := copyIn q.pBuffer q.writeIndex (data.take copyLen)
            writeIndex := q.writeIndex + copyLen })

/-- What `pop_data` and `pop_data_dummy` copy, and where `read_index` would go. -/
structure Copied where
  copyLen : Nat
  data : List UInt8
  readIndex : Nat

def Ring.copyData (q : Ring) (bufferLen : Nat) : Copied :=
  if q.writeIndex ≥ q.readIndex then
    let copyLen := min (q.writeIndex - q.readIndex) bufferLen
    ⟨copyLen, copyOut q.pBuffer q.readIndex copyLen, q.readIndex + copyLen⟩
  else
    let copyLen := min (q.bufferLen - (q.readIndex - q.writeIndex)) bufferLen
    let right := q.bufferLen - q.readIndex
    if bufferLen < right then
      ⟨bufferLen, copyOut q.pBuffer q.readIndex bufferLen, q.readIndex + bufferLen⟩
    else
      ⟨copyLen, copyOut q.pBuffer q.readIndex right ++ copyOut q.pBuffer 0 (copyLen - right),
        copyLen - right⟩

/-- `pop_data_dummy`. `given` says that `p_recv_buffer` is not a null pointer. -/
def Ring.popDataDummy (q : Ring) (given : Bool) (bufferLen timeout : Int) : Reply × Ring :=
  if !q.inited then q.refuse .notInit
  else if bufferLen < 1 ∨ timeout ≠ 0 then q.refuse .param
  else if q.dataLen = 0 then (⟨0, []⟩, q)
  else
    let copied := q.copyData bufferLen.toNat
    (⟨copied.copyLen, if given then copied.data else []⟩, q)

/-- `pop_data` -/
def Ring.popData (q : Ring) (given : Bool) (bufferLen timeout : Int) : Reply × Ring :=
  if !q.inited then q.refuse .notInit
  else if bufferLen < 1 ∨ timeout ≠ 0 then q.refuse .param
  else if q.dataLen = 0 then (⟨0, []⟩, q)
  else
    let copied := q.copyData bufferLen.toNat
    (⟨copied.copyLen, if given then copied.data else []⟩, { q with readIndex := copied.readIndex })

/-- `get_buffer_len` -/
def Ring.getBufferLen (q : Ring) : Int × Ring :=
  if !q.inited then q.fail .notInit else ((q.bufferLen : Int) - 1, q)

/-- `get_data_len` -/
def Ring.getDataLen (q : Ring) : Int × Ring :=
  if !q.inited then q.fail .notInit else (q.dataLen, q)

/-- `get_empty_buffer_len` -/
def Ring.getEmptyBufferLen (q : Ring) : Int × Ring :=
  if !q.inited then q.fail .notInit else ((q.bufferLen : Int) - q.dataLen - 1, q)

/-- The calls of `i_ring_queue` that move or measure data. -/
inductive Call where
  | pushData (pData : Option (List UInt8)) (dataLen : Int) (isAtomic : Bool)
  | popData (given : Bool) (bufferLen timeout : Int)
  | popDataDummy (given : Bool) (bufferLen timeout : Int)
  | getBufferLen
  | getDataLen
  | getEmptyBufferLen

/-- The bytes that a push names are there. -/
def Call.Backed : Call → Prop
  | .pushData (some data) dataLen _ => dataLen ≤ data.length
  | _ => True

/-- A call that returns a number only. -/
def plain {σ : Type} (result : Int × σ) : Reply × σ := (⟨result.1, []⟩, result.2)

def Ring.step (q : Ring) : Call → Reply × Ring
  | .pushData pData dataLen isAtomic => plain (q.pushData pData dataLen isAtomic)
  | .popData given bufferLen timeout => q.popData given bufferLen timeout
  | .popDataDummy given bufferLen timeout => q.popDataDummy given bufferLen timeout
  | .getBufferLen => plain q.getBufferLen
  | .getDataLen => plain q.getDataLen
  | .getEmptyBufferLen => plain q.getEmptyBufferLen

/-! ## What a ring holds -/

/-- The ring is set up and holds these bytes, oldest first. -/
structure Ring.Holds (q : Ring) (capacity : Nat) (items : List UInt8) : Prop where
  inited : q.inited = true
  bufferLen : q.bufferLen = capacity + 1
  readIndex : q.readIndex < q.bufferLen
  writeIndex : q.writeIndex = (q.readIndex + items.length) % q.bufferLen
  fits : items.length ≤ capacity
  stored : load q.bufferLen q.pBuffer q.readIndex items.length = items

namespace Ring.Holds

variable {q : Ring} {capacity : Nat} {items data : List UInt8} {dataLen bufferLen timeout : Int}
  {given isAtomic : Bool} {mmap : Mmap}

theorem init (fresh : q.inited = false) (done : (q.init bufferLen mmap).1 = 0) :
    0 < bufferLen ∧ (q.init bufferLen mmap).2.Holds bufferLen.toNat [] := by
  revert done
  rw [Ring.init, if_neg (by simp [fresh])]
  dsimp only
  split
  · exact fun done => absurd done (Int.neg_ne_zero.mpr one_ne_zero)
  · cases mmap with
    | noMemory => exact fun done => absurd done (Int.neg_ne_zero.mpr one_ne_zero)
    | failed => exact fun done => absurd done (Int.neg_ne_zero.mpr one_ne_zero)
    | mapped =>
      intro _
      exact ⟨by omega, rfl, by simp only; omega, by simp only; omega, by simp, by simp, rfl⟩

/-- The write index is behind the data, round the end or not. -/
theorem writeIndex_cases (holds : q.Holds capacity items) :
    q.readIndex + items.length < q.bufferLen ∧ q.writeIndex = q.readIndex + items.length ∨
      q.bufferLen ≤ q.readIndex + items.length ∧
        q.writeIndex + q.bufferLen = q.readIndex + items.length := by
  have bufferLen := holds.bufferLen
  have readIndex := holds.readIndex
  have fits := holds.fits
  have writeIndex := holds.writeIndex
  rw [add_mod_cases _ (by omega), Nat.mod_eq_of_lt readIndex] at writeIndex
  split at writeIndex
  · exact .inl ⟨by omega, writeIndex⟩
  · exact .inr ⟨by omega, by omega⟩

theorem dataLen_eq (holds : q.Holds capacity items) : q.dataLen = items.length := by
  have bufferLen := holds.bufferLen
  have fits := holds.fits
  unfold Ring.dataLen
  rcases holds.writeIndex_cases with ⟨-, same⟩ | ⟨-, same⟩
  · rw [if_pos (by omega)]
    omega
  · rw [if_neg (by omega)]
    omega

/-- A failed call leaves the data as it is. -/
theorem withErrno (holds : q.Holds capacity items) (errno : Errno) :
    { q with lastErrno := errno }.Holds capacity items :=
  ⟨holds.inited, holds.bufferLen, holds.readIndex, holds.writeIndex, holds.fits, holds.stored⟩

/-- The slot of the position behind the data. -/
theorem slot_eq (holds : q.Holds capacity items) :
    (q.readIndex + items.length) % q.bufferLen = q.writeIndex := holds.writeIndex.symm

end Ring.Holds

/-- The ring with data written from a position of its stream on. -/
def Ring.written (q : Ring) (position : Nat) (data : List UInt8) : Ring :=
  { q with
    pBuffer := store q.bufferLen q.pBuffer position data
    writeIndex := (position + data.length) % q.bufferLen }

/-- The ring with its oldest bytes gone. -/
def Ring.dropped (q : Ring) (count : Nat) : Ring :=
  { q with readIndex := (q.readIndex + count) % q.bufferLen }

namespace Ring.Holds

variable {q : Ring} {capacity : Nat} {items data : List UInt8} {dataLen : Int}

/-- Data written behind what is there. -/
theorem written (holds : q.Holds capacity items) (room : items.length + data.length ≤ capacity) :
    (q.written (q.readIndex + items.length) data).Holds capacity (items ++ data) := by
  have bufferLen := holds.bufferLen
  refine ⟨holds.inited, bufferLen, holds.readIndex, ?_, ?_, ?_⟩
  · simp [Ring.written, Nat.add_assoc]
  · simpa using room
  · have kept : load q.bufferLen (store q.bufferLen q.pBuffer (q.readIndex + items.length) data)
        q.readIndex items.length = items := by
      rw [load_store_apart (Nat.le_refl _) (by omega), holds.stored]
    dsimp only [Ring.written]
    rw [List.length_append, load_append, kept, load_store (by omega)]

theorem dropped (holds : q.Holds capacity items) (count : Nat) :
    (q.dropped (min items.length count)).Holds capacity (items.drop count) := by
  have bufferLen := holds.bufferLen
  have fits := holds.fits
  have some' : 0 < q.bufferLen := by omega
  have length : min items.length count + (items.drop count).length = items.length := by
    rw [List.length_drop]
    omega
  refine ⟨holds.inited, bufferLen, Nat.mod_lt _ some', ?_, ?_, ?_⟩
  · dsimp only [Ring.dropped]
    rw [Nat.mod_add_mod, Nat.add_assoc, length, holds.writeIndex]
  · omega
  · have split : load q.bufferLen q.pBuffer q.readIndex (min items.length count) ++
        load q.bufferLen q.pBuffer (q.readIndex + min items.length count)
          (items.drop count).length = items.take count ++ items.drop count := by
      rw [← load_append, length, holds.stored, List.take_append_drop]
    dsimp only [Ring.dropped]
    rw [load_mod]
    exact (List.append_inj split (by simp [Nat.min_comm])).2

/-- An atomic push that does not fit. -/
theorem pushData_full (holds : q.Holds capacity items) (positive : 1 ≤ dataLen)
    (full : (capacity - items.length : Nat) < dataLen) :
    q.pushData (some data) dataLen true = q.fail .idleBuffer := by
  have bufferLen := holds.bufferLen
  have fits := holds.fits
  unfold Ring.pushData
  rw [if_neg (by simp [holds.inited])]
  dsimp only
  rw [if_neg (by omega)]
  rcases holds.writeIndex_cases with ⟨straight, same⟩ | ⟨wrapped, same⟩
  · rw [if_pos (by omega), if_pos ⟨rfl, by omega⟩]
  · rw [if_neg (by omega), if_pos ⟨rfl, by omega⟩]

/-- A push that does not fail writes what fits behind the data. -/
theorem pushData (holds : q.Holds capacity items) (isAtomic : Bool) (positive : 1 ≤ dataLen)
    (backed : dataLen ≤ data.length) (copyLen : Nat)
    (least : copyLen = min dataLen.toNat (capacity - items.length))
    (done : isAtomic = true → dataLen = copyLen) :
    q.pushData (some data) dataLen isAtomic
      = ((copyLen : Int), q.written (q.readIndex + items.length) (data.take copyLen)) := by
  have bufferLen := holds.bufferLen
  have readIndex := holds.readIndex
  have fits := holds.fits
  have slot := holds.slot_eq
  have length : (data.take copyLen).length = copyLen := by
    rw [List.length_take]
    omega
  have fitsOrPartial : ¬ (isAtomic = true ∧ copyLen < dataLen.toNat) := by
    rintro ⟨atomic, less⟩
    have whole := done atomic
    omega
  -- One straight copy, where the end of the buffer is not reached.
  have straightCopy (inside : q.writeIndex + copyLen < q.bufferLen) :
      { q with
        pBuffer := copyIn q.pBuffer q.writeIndex (data.take copyLen)
        writeIndex := q.writeIndex + copyLen }
        = q.written (q.readIndex + items.length) (data.take copyLen) := by
    have next : (q.readIndex + items.length + copyLen) % q.bufferLen = q.writeIndex + copyLen := by
      rw [← Nat.mod_add_mod, slot, Nat.mod_eq_of_lt inside]
    rw [Ring.written, length, next, ← copyIn_eq_store (by omega), slot]
  unfold Ring.pushData
  rw [if_neg (by simp [holds.inited])]
  dsimp only
  rw [if_neg (by omega)]
  rcases holds.writeIndex_cases with ⟨straight, same⟩ | ⟨wrapped, same⟩
  · have empty : q.bufferLen - (q.writeIndex - q.readIndex) - 1 = capacity - items.length := by
      omega
    rw [if_pos (by omega), empty, ← least, if_neg fitsOrPartial]
    split
    case isTrue short => rw [straightCopy (by omega)]
    case isFalse long =>
      have next : (q.readIndex + items.length + copyLen) % q.bufferLen
          = copyLen - (q.bufferLen - q.writeIndex) := by
        rw [← same, Nat.mod_eq_sub_mod (by omega), Nat.mod_eq_of_lt (by omega)]
        omega
      have first : data.take (q.bufferLen - q.writeIndex)
          = (data.take copyLen).take (q.bufferLen - q.writeIndex) := by
        rw [List.take_take, Nat.min_eq_left (by omega)]
      have second : (data.drop (q.bufferLen - q.writeIndex)).take
          (copyLen - (q.bufferLen - q.writeIndex))
          = (data.take copyLen).drop (q.bufferLen - q.writeIndex) := List.drop_take.symm
      rw [Ring.written, length, next, ← copyIn_copyIn_eq_store (by omega) (by omega), slot, first,
        second]
  · have empty : q.readIndex - q.writeIndex - 1 = capacity - items.length := by
      omega
    rw [if_neg (by omega), empty, ← least, if_neg fitsOrPartial, straightCopy (by omega)]

/-- What an atomic push does. -/
theorem pushAtomic (holds : q.Holds capacity items) (backed : dataLen ≤ data.length) :
    dataLen < 1 ∧ q.pushData (some data) dataLen true = q.fail .param ∨
      1 ≤ dataLen ∧ (capacity - items.length : Nat) < dataLen ∧
        q.pushData (some data) dataLen true = q.fail .idleBuffer ∨
      1 ≤ dataLen ∧ items.length + dataLen ≤ capacity ∧
        ∃ pushed, q.pushData (some data) dataLen true = (dataLen, pushed) ∧
          pushed.lastErrno = q.lastErrno ∧
          pushed.Holds capacity (items ++ data.take dataLen.toNat) := by
  by_cases short : dataLen < 1
  · exact .inl ⟨short, by simp [Ring.pushData, holds.inited, short]⟩
  by_cases full : (capacity - items.length : Nat) < dataLen
  · exact .inr (.inl ⟨by omega, full, holds.pushData_full (by omega) full⟩)
  have ran := holds.pushData true (by omega) backed dataLen.toNat (by omega) (fun _ => by omega)
  rw [Int.toNat_of_nonneg (by omega)] at ran
  refine .inr (.inr ⟨by omega, by omega, _, ran, rfl, holds.written ?_⟩)
  rw [List.length_take]
  omega

/-- The copy of a pop, and where its index would go. -/
theorem copyData (holds : q.Holds capacity items) (count : Nat) :
    q.copyData count = ⟨min items.length count, items.take count,
      (q.dropped (min items.length count)).readIndex⟩ := by
  have bufferLen := holds.bufferLen
  have readIndex := holds.readIndex
  have fits := holds.fits
  have slot : q.readIndex % q.bufferLen = q.readIndex := Nat.mod_eq_of_lt readIndex
  have front : load q.bufferLen q.pBuffer q.readIndex (min items.length count)
      = items.take count := by
    rw [Nat.min_comm, ← take_load, holds.stored]
  unfold Ring.copyData
  rcases holds.writeIndex_cases with ⟨straight, same⟩ | ⟨wrapped, same⟩
  · have present : q.writeIndex - q.readIndex = items.length := by omega
    have next : (q.readIndex + min items.length count) % q.bufferLen
        = q.readIndex + min items.length count := Nat.mod_eq_of_lt (by omega)
    have copied : copyOut q.pBuffer (q.readIndex % q.bufferLen) (min items.length count)
        = items.take count := front ▸ copyOut_eq_load (by omega)
    rw [slot] at copied
    rw [if_pos (by omega), present]
    dsimp only
    rw [copied, Ring.dropped, next]
  · have present : q.bufferLen - (q.readIndex - q.writeIndex) = items.length := by omega
    rw [if_neg (by omega), present]
    dsimp only
    split
    case isTrue short =>
      have all : min items.length count = count := by omega
      have next : (q.readIndex + count) % q.bufferLen = q.readIndex + count :=
        Nat.mod_eq_of_lt (by omega)
      rw [all] at front
      have copied : copyOut q.pBuffer (q.readIndex % q.bufferLen) count = items.take count :=
        front ▸ copyOut_eq_load (by omega)
      rw [slot] at copied
      rw [all, copied, Ring.dropped, next]
    case isFalse long =>
      have next : (q.readIndex + min items.length count) % q.bufferLen
          = min items.length count - (q.bufferLen - q.readIndex) := by
        rw [Nat.mod_eq_sub_mod (by omega), Nat.mod_eq_of_lt (by omega)]
        omega
      have copied : copyOut q.pBuffer (q.readIndex % q.bufferLen)
          (q.bufferLen - q.readIndex % q.bufferLen) ++ copyOut q.pBuffer 0
            (min items.length count - (q.bufferLen - q.readIndex % q.bufferLen))
          = items.take count :=
        front ▸ copyOut_append_eq_load (by omega) (by omega) (by omega)
      rw [slot] at copied
      rw [copied, Ring.dropped, next]

end Ring.Holds

/-! ## The FIFO -/

/-- A call that fails. -/
def failed : Reply := ⟨-1, []⟩

/-- A FIFO of at most `capacity` bytes. -/
def Fifo.step (capacity : Nat) (items : List UInt8) : Call → Reply × List UInt8
  | .pushData none _ _ => (failed, items)
  | .pushData (some data) dataLen isAtomic =>
    let count := min dataLen.toNat (capacity - items.length)
    if dataLen < 1 ∨ isAtomic ∧ count < dataLen then (failed, items)
    else (⟨count, []⟩, items ++ data.take count)
  | .popData given bufferLen timeout =>
    if bufferLen < 1 ∨ timeout ≠ 0 then (failed, items)
    else
      let taken := items.take bufferLen.toNat
      (⟨taken.length, if given then taken else []⟩, items.drop bufferLen.toNat)
  | .popDataDummy given bufferLen timeout =>
    if bufferLen < 1 ∨ timeout ≠ 0 then (failed, items)
    else
      let taken := items.take bufferLen.toNat
      (⟨taken.length, if given then taken else []⟩, items)
  | .getBufferLen => (⟨capacity, []⟩, items)
  | .getDataLen => (⟨items.length, []⟩, items)
  | .getEmptyBufferLen => (⟨(capacity : Int) - items.length, []⟩, items)

namespace Ring.Holds

variable {q : Ring} {capacity : Nat} {items : List UInt8} {bufferLen timeout : Int}

theorem measures (holds : q.Holds capacity items) :
    q.getBufferLen = ((capacity : Int), q) ∧ q.getDataLen = ((items.length : Int), q) ∧
      q.getEmptyBufferLen = ((capacity : Int) - items.length, q) := by
  refine ⟨?_, ?_, ?_⟩
  · rw [Ring.getBufferLen, if_neg (by simp [holds.inited]), holds.bufferLen]
    simp
  · rw [Ring.getDataLen, if_neg (by simp [holds.inited]), holds.dataLen_eq]
  · rw [Ring.getEmptyBufferLen, if_neg (by simp [holds.inited]), holds.dataLen_eq, holds.bufferLen]
    simp only [Prod.mk.injEq, and_true]
    omega

theorem popDataDummy_param (holds : q.Holds capacity items) (given : Bool)
    (bad : bufferLen < 1 ∨ timeout ≠ 0) :
    q.popDataDummy given bufferLen timeout = q.refuse .param := by
  rw [Ring.popDataDummy, if_neg (by simp [holds.inited]), if_pos bad]

theorem popData_param (holds : q.Holds capacity items) (given : Bool)
    (bad : bufferLen < 1 ∨ timeout ≠ 0) : q.popData given bufferLen timeout = q.refuse .param := by
  rw [Ring.popData, if_neg (by simp [holds.inited]), if_pos bad]

theorem popDataDummy (holds : q.Holds capacity items) (given : Bool) (positive : 1 ≤ bufferLen) :
    q.popDataDummy given bufferLen 0 =
      (⟨(items.take bufferLen.toNat).length, if given then items.take bufferLen.toNat else []⟩,
        q) := by
  rw [Ring.popDataDummy, if_neg (by simp [holds.inited]), if_neg (by omega), holds.dataLen_eq,
    holds.copyData]
  split
  case isTrue empty =>
    rw [List.length_eq_zero_iff.mp empty]
    simp
  case isFalse => simp [Nat.min_comm]

theorem dropped_zero (holds : q.Holds capacity items) : q.dropped 0 = q := by
  rw [Ring.dropped, Nat.add_zero, Nat.mod_eq_of_lt holds.readIndex]

theorem popData (holds : q.Holds capacity items) (given : Bool) (positive : 1 ≤ bufferLen) :
    q.popData given bufferLen 0 =
      (⟨(items.take bufferLen.toNat).length, if given then items.take bufferLen.toNat else []⟩,
        q.dropped (min items.length bufferLen.toNat)) := by
  rw [Ring.popData, if_neg (by simp [holds.inited]), if_neg (by omega), holds.dataLen_eq,
    holds.copyData]
  split
  case isTrue empty =>
    rw [empty, Nat.zero_min, holds.dropped_zero, List.length_eq_zero_iff.mp empty]
    simp
  case isFalse => simp [Ring.dropped, Nat.min_comm]

end Ring.Holds

/-- Each call answers as the FIFO does. -/
theorem Ring.simulates_fifo (capacity : Nat) : Simulates Ring.step (Fifo.step capacity)
    Call.Backed (fun q items => q.Holds capacity items) := by
  constructor
  intro q items call holds backed
  have inited := holds.inited
  obtain ⟨bufferLen, dataLen, emptyBufferLen⟩ := holds.measures
  cases call with
  | pushData pData dataLen isAtomic =>
    cases pData with
    | none => simpa [Ring.step, Fifo.step, plain, Ring.pushData, inited, Ring.fail, failed] using
        holds.withErrno .param
    | some data =>
      by_cases short : dataLen < 1
      · simpa [Ring.step, Fifo.step, plain, Ring.pushData, inited, Ring.fail, failed, short] using
          holds.withErrno .param
      · dsimp only [Ring.step, Fifo.step]
        by_cases full : isAtomic ∧ (min dataLen.toNat (capacity - items.length) : Nat) < dataLen
        · obtain ⟨rfl, less⟩ := full
          rw [holds.pushData_full (by omega) (by omega), if_pos (.inr ⟨rfl, less⟩)]
          exact ⟨rfl, holds.withErrno .idleBuffer⟩
        · have whole : isAtomic = true →
              dataLen = (min dataLen.toNat (capacity - items.length) : Nat) := by
            intro atomic
            have enough : ¬ (min dataLen.toNat (capacity - items.length) : Nat) < dataLen :=
              fun less => full ⟨atomic, less⟩
            omega
          rw [holds.pushData isAtomic (by omega) backed _ rfl whole, if_neg (by tauto)]
          refine ⟨rfl, holds.written ?_⟩
          have fits := holds.fits
          rw [List.length_take]
          omega
  | popData given bufferLen timeout =>
    dsimp only [Ring.step, Fifo.step]
    by_cases bad : bufferLen < 1 ∨ timeout ≠ 0
    · rw [holds.popData_param given bad, if_pos bad]
      exact ⟨rfl, holds.withErrno .param⟩
    obtain rfl : timeout = 0 := by tauto
    rw [holds.popData given (by omega), if_neg bad]
    exact ⟨rfl, holds.dropped bufferLen.toNat⟩
  | popDataDummy given bufferLen timeout =>
    dsimp only [Ring.step, Fifo.step]
    by_cases bad : bufferLen < 1 ∨ timeout ≠ 0
    · rw [holds.popDataDummy_param given bad, if_pos bad]
      exact ⟨rfl, holds.withErrno .param⟩
    obtain rfl : timeout = 0 := by tauto
    rw [holds.popDataDummy given (by omega), if_neg bad]
    exact ⟨rfl, holds⟩
  | getBufferLen =>
    simp only [Ring.step, Fifo.step, plain, bufferLen]
    exact ⟨trivial, holds⟩
  | getDataLen =>
    simp only [Ring.step, Fifo.step, plain, dataLen]
    exact ⟨trivial, holds⟩
  | getEmptyBufferLen =>
    simp only [Ring.step, Fifo.step, plain, emptyBufferLen]
    exact ⟨trivial, holds⟩

/-! ## What goes in comes out -/

/-- The bytes that a push stored. -/
def Call.stored : Call → Reply → List UInt8
  | .pushData (some data) _ _, reply => data.take reply.ret.toNat
  | _, _ => []

/-- The bytes that a pop returned. -/
def Call.fetched : Call → Reply → List UInt8
  | .popData _ _ _, reply => reply.data
  | _, _ => []

/-- A pop has somewhere to copy to. -/
def Call.Copies : Call → Prop
  | .popData given _ _ => given = true
  | _ => True

/-- What a call stores goes behind the bytes there, and what it returns is gone from their front. -/
theorem Fifo.step_conserves (capacity : Nat) (items : List UInt8) {call : Call}
    (copies : call.Copies) :
    items ++ call.stored (Fifo.step capacity items call).1 =
      call.fetched (Fifo.step capacity items call).1 ++ (Fifo.step capacity items call).2 := by
  cases call with
  | pushData pData dataLen isAtomic =>
    cases pData with
    | none => simp [Fifo.step, Call.stored, Call.fetched]
    | some data =>
      dsimp only [Fifo.step]
      split
      · simp [Call.stored, Call.fetched, failed]
      · simp only [Call.stored, Call.fetched, Int.toNat_natCast, List.nil_append]
  | popData given bufferLen timeout =>
    obtain rfl : given = true := copies
    dsimp only [Fifo.step]
    split <;> simp [Call.stored, Call.fetched, failed]
  | popDataDummy given bufferLen timeout =>
    dsimp only [Fifo.step]
    split <;> simp [Call.stored, Call.fetched]
  | getBufferLen => simp [Fifo.step, Call.stored, Call.fetched]
  | getDataLen => simp [Fifo.step, Call.stored, Call.fetched]
  | getEmptyBufferLen => simp [Fifo.step, Call.stored, Call.fetched]

/-- The bytes that the calls stored, in order. -/
def storedBy (calls : List Call) (answers : List Reply) : List UInt8 :=
  (List.zipWith Call.stored calls answers).flatten

/-- The bytes that the calls returned, in order. -/
def fetchedBy (calls : List Call) (answers : List Reply) : List UInt8 :=
  (List.zipWith Call.fetched calls answers).flatten

theorem Fifo.conserves (capacity : Nat) (items : List UInt8) {calls : List Call}
    (copies : ∀ call ∈ calls, call.Copies) :
    items ++ storedBy calls (replies (Fifo.step capacity) items calls) =
      fetchedBy calls (replies (Fifo.step capacity) items calls)
        ++ after (Fifo.step capacity) items calls := by
  induction calls generalizing items with
  | nil => simp [storedBy, fetchedBy]
  | cons call rest ih =>
    have once := Fifo.step_conserves capacity items (copies call List.mem_cons_self)
    have more := ih (Fifo.step capacity items call).2
      fun other member => copies other (List.mem_cons_of_mem _ member)
    simp only [storedBy, fetchedBy, replies, List.zipWith_cons_cons, List.flatten_cons,
      after_cons] at more ⊢
    rw [← List.append_assoc, once, List.append_assoc, more, List.append_assoc]

/-- For every length and every sequence of calls, the ring answers as a FIFO of that many
bytes; the data and the room are always the whole of it; and where every pop is given a
buffer, the bytes popped and those still there are the bytes pushed, in order. -/
theorem ring_refines_fifo {bufferLen : Int} {mmap : Mmap}
    (done : (Ring.new.init bufferLen mmap).1 = 0) {calls : List Call}
    (backed : ∀ call ∈ calls, call.Backed) :
    let start := (Ring.new.init bufferLen mmap).2
    let reached := after Ring.step start calls
    let answers := replies Ring.step start calls
    answers = replies (Fifo.step bufferLen.toNat) [] calls ∧
      reached.getDataLen.1 + reached.getEmptyBufferLen.1 = bufferLen ∧
      ((∀ call ∈ calls, call.Copies) →
        ∃ items, reached.Holds bufferLen.toNat items ∧
          storedBy calls answers = fetchedBy calls answers ++ items) := by
  intro start reached answers
  obtain ⟨positive, initial⟩ : 0 < bufferLen ∧ start.Holds bufferLen.toNat [] :=
    Ring.Holds.init rfl done
  have same := (Ring.simulates_fifo bufferLen.toNat).replies_eq initial backed
  have holds := (Ring.simulates_fifo bufferLen.toNat).after initial backed
  refine ⟨same, ?_, ?_⟩
  · obtain ⟨-, dataLen, emptyBufferLen⟩ := holds.measures
    rw [dataLen, emptyBufferLen]
    dsimp only
    omega
  · intro copies
    refine ⟨_, holds, ?_⟩
    rw [show answers = _ from same]
    exact Fifo.conserves bufferLen.toNat [] copies

/-- Calls that go round the end of a ring of five bytes. -/
def aroundTheEnd : List Call :=
  [.pushData (some [1, 2, 3]) 3 true, .popData true 2 0, .pushData (some [4, 5, 6, 7, 8]) 5 false,
    .popDataDummy true 9 0, .popData true 9 0]

theorem ring_refines_fifo_aroundTheEnd :
    replies Ring.step (Ring.new.init 5 .mapped).2 aroundTheEnd =
      [⟨3, []⟩, ⟨2, [1, 2]⟩, ⟨4, []⟩, ⟨5, [3, 4, 5, 6, 7]⟩, ⟨5, [3, 4, 5, 6, 7]⟩] := by
  have backed : ∀ call ∈ aroundTheEnd, call.Backed := by
    simp [aroundTheEnd, Call.Backed]
  have done : (Ring.new.init 5 .mapped).1 = 0 := rfl
  exact (ring_refines_fifo done backed).1

end Taomee.RingQueue
