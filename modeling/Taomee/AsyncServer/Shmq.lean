import Taomee.Library.LittleEndian
import Taomee.Library.RingBuffer
import Taomee.Library.Runs

/-!
# async_server: the shared-memory ring

`shmq_push` writes the 16 bytes of a block's header and then its payload round a ring of
`size` bytes, and `shmq_pull` reads them back. Each of the two may pass the end of the ring.
Both cursors may stand at the end.

Sums of type `uint32_t` wrap at `2 ^ 32`; those with a `sizeof` are of 64 bits.
-/

namespace Taomee.AsyncServer

open RingBuffer LittleEndian

/-- The fields of `shm_block_t`. -/
structure ShmBlock where
  fd : UInt32
  id : UInt32
  len : UInt32
  type : UInt8
  deriving DecidableEq

/-- `sizeof(struct shm_block_t)` -/
def sizeofShmBlock : Nat := 16

/-- A header in memory. The three bytes after `type` are padding. -/
def ShmBlock.toBytes (sb : ShmBlock) : List UInt8 :=
  toLe 4 sb.fd.toNat ++ toLe 4 sb.id.toNat ++ toLe 4 sb.len.toNat ++ [sb.type, 0, 0, 0]

def ShmBlock.ofBytes (bytes : List UInt8) : ShmBlock where
  fd := .ofNat (ofLe (bytes.take 4))
  id := .ofNat (ofLe ((bytes.drop 4).take 4))
  len := .ofNat (ofLe ((bytes.drop 8).take 4))
  type := (bytes.drop 12).headD 0

/-- A block: its header, and the payload of `len` bytes behind it. -/
structure Block where
  sb : ShmBlock
  buf : List UInt8
  length : buf.length = sb.len.toNat
  deriving DecidableEq

/-- `shm_queue_t`; the blocks of `push_list` wait for room in the ring. -/
structure ShmQueue where
  base : Nat → UInt8
  size : Nat
  wPos : Nat
  rPos : Nat
  pullLen : Nat
  pushList : List Block

/-- A write at `pos` of which the code computes the end as `sum`: the ring, and where the
next one goes. -/
def writeAround (size : Nat) (base : Nat → UInt8) (pos sum : Nat) (data : List UInt8) :
    (Nat → UInt8) × Nat :=
  if sum ≤ size then (copyIn base pos data, sum)
  else
    let n := size - pos
    (copyIn (copyIn base pos (data.take n)) 0 (data.drop n), data.length - n)

/-- A read of `count` bytes at `pos` of which the code computes the end as `sum`. -/
def readAround (size : Nat) (base : Nat → UInt8) (pos sum count : Nat) : List UInt8 × Nat :=
  if sum ≤ size then (copyOut base pos count, sum)
  else
    let n := size - pos
    (copyOut base pos n ++ copyOut base 0 (count - n), count - n)

/-- `shmq_push` -/
def shmqPush (sq : ShmQueue) (block : Block) : Int × ShmQueue :=
  let totalLen := (block.sb.len.toNat + sizeofShmBlock) % 2 ^ 32
  let s := if sq.wPos ≥ sq.rPos then sq.size - sq.wPos + sq.rPos else sq.rPos - sq.wPos
  if s < (totalLen + 1) % 2 ^ 32 then (1, sq)
  else
    let head :=
      writeAround sq.size sq.base sq.wPos (sq.wPos + sizeofShmBlock) block.sb.toBytes
    let body :=
      writeAround sq.size head.1 head.2 ((head.2 + block.sb.len.toNat) % 2 ^ 32) block.buf
    (0, { sq with base := body.1, wPos := body.2 })

/-- What `shmq_pull` returns: 1, -1, or 0 with a block. -/
inductive Pulled where
  | empty
  | noMemory
  | block (sb : ShmBlock) (buf : List UInt8)
  deriving DecidableEq

/-- `shmq_pull`; `memory` is whether `realloc` gets its memory. -/
def shmqPull (sq : ShmQueue) (memory : Bool) : Pulled × ShmQueue :=
  let s := if sq.wPos ≥ sq.rPos then sq.wPos - sq.rPos else sq.size - sq.rPos + sq.wPos
  if s = 0 then (.empty, sq)
  else
    let head := readAround sq.size sq.base sq.rPos (sq.rPos + sizeofShmBlock) sizeofShmBlock
    let sb := ShmBlock.ofBytes head.1
    let len := sb.len.toNat
    if len > 0 then
      let body := readAround sq.size sq.base head.2 ((head.2 + len) % 2 ^ 32) len
      if len > sq.pullLen then
        if memory then (.block sb body.1, { sq with rPos := body.2, pullLen := len })
        else (.noMemory, { sq with rPos := body.2 })
      else (.block sb body.1, { sq with rPos := body.2 })
    else (.block sb [], { sq with rPos := head.2 })

/-- An empty ring, as `shmq_init` sets it up. -/
def ShmQueue.inited (size : Nat) : ShmQueue := ⟨fun _ => 0, size, 0, 0, 8192, []⟩

section Header

@[simp] theorem ShmBlock.length_toBytes (sb : ShmBlock) : sb.toBytes.length = 16 := by
  simp [ShmBlock.toBytes]

theorem ofNat_ofLe_toLe (n : UInt32) : UInt32.ofNat (ofLe (toLe 4 n.toNat)) = n := by
  rw [ofLe_toLe n.toNat_lt, UInt32.ofNat_toNat]

/-- The padding carries nothing: a header is read back from its bytes. -/
theorem ShmBlock.ofBytes_toBytes (sb : ShmBlock) : ShmBlock.ofBytes sb.toBytes = sb := by
  have fd : sb.toBytes.take 4 = toLe 4 sb.fd.toNat := by
    simp [ShmBlock.toBytes]
  have id : (sb.toBytes.drop 4).take 4 = toLe 4 sb.id.toNat := by
    simp [ShmBlock.toBytes]
  have len : (sb.toBytes.drop 8).take 4 = toLe 4 sb.len.toNat := by
    simp [ShmBlock.toBytes, List.take_append, List.drop_append]
  have type : (sb.toBytes.drop 12).headD 0 = sb.type := by
    simp [ShmBlock.toBytes]
  unfold ShmBlock.ofBytes
  rw [fd, id, len, type, ofNat_ofLe_toLe, ofNat_ofLe_toLe, ofNat_ofLe_toLe]

end Header

section Around

variable {size : Nat} (base : Nat → UInt8) (position : Nat)

/-- A write at a cursor goes round the ring and leaves the cursor behind it. -/
theorem writeAround_cursor {data : List UInt8} {sum : Nat} (fits : data.length < size)
    (straight : sum = cursor size position + data.length) :
    writeAround size base (cursor size position) sum data
      = (store size base position data, cursor size (position + data.length)) := by
  have bound : cursor size position ≤ size := cursor_le (by omega)
  have stored : _ = store size base position data :=
    copyIn_cursor (show 0 < size by omega) (Nat.le_of_lt fits)
  have next := cursor_add fits position
  subst straight
  unfold writeAround
  split
  case isTrue inside =>
    rw [if_pos inside] at stored next
    rw [stored, next]
  case isFalse wraps =>
    rw [if_neg wraps] at stored next
    dsimp only
    congr 1
    omega

theorem readAround_cursor {count sum : Nat} (fits : count < size)
    (straight : sum = cursor size position + count) :
    readAround size base (cursor size position) sum count
      = (load size base position count, cursor size (position + count)) := by
  have bound : cursor size position ≤ size := cursor_le (by omega)
  have loaded : _ = load size base position count :=
    copyOut_cursor (show 0 < size by omega) (Nat.le_of_lt fits)
  have next := cursor_add fits position
  subst straight
  unfold readAround
  split
  case isTrue inside =>
    rw [if_pos inside] at loaded next
    rw [loaded, next]
  case isFalse wraps =>
    rw [if_neg wraps] at loaded next
    dsimp only
    congr 1
    omega

end Around

/-- A block as it lies in the ring. -/
def Block.encode (block : Block) : List UInt8 := block.sb.toBytes ++ block.buf

def encodeAll (blocks : List Block) : List UInt8 := (blocks.map Block.encode).flatten

/-- The ring holds these blocks, the oldest of which starts at a position of the stream of
all the bytes written. -/
structure ShmQueue.Holds (sq : ShmQueue) (blocks : List Block) (start : Nat) : Prop where
  large : sizeofShmBlock < sq.size
  read : sq.rPos = cursor sq.size start
  write : sq.wPos = cursor sq.size (start + (encodeAll blocks).length)
  room : (encodeAll blocks).length < sq.size
  stored : load sq.size sq.base start (encodeAll blocks).length = encodeAll blocks
  small : ∀ block ∈ blocks, sq.size + block.sb.len.toNat < 2 ^ 32

/-- The sums of a push do not wrap. -/
def Block.Small (size : Nat) (block : Block) : Prop :=
  block.sb.len.toNat + 17 < 2 ^ 32 ∧
    (block.sb.len.toNat + 17 ≤ size → size + block.sb.len.toNat < 2 ^ 32)

section Fifo

variable {sq : ShmQueue} {blocks later : List Block} {block : Block} {start : Nat} {memory : Bool}

@[simp] theorem Block.length_encode (block : Block) :
    block.encode.length = 16 + block.sb.len.toNat := by
  simp [Block.encode, block.length]

@[simp] theorem encodeAll_cons (block : Block) (blocks : List Block) :
    encodeAll (block :: blocks) = block.encode ++ encodeAll blocks := rfl

@[simp] theorem encodeAll_append (blocks later : List Block) :
    encodeAll (blocks ++ later) = encodeAll blocks ++ encodeAll later := by
  simp [encodeAll]

theorem ShmQueue.inited_holds {size : Nat} (large : sizeofShmBlock < size) :
    (ShmQueue.inited size).Holds [] 0 where
  large := large
  read := rfl
  write := rfl
  room := Nat.lt_of_le_of_lt (Nat.zero_le _) large
  stored := rfl
  small := nofun

/-- The free bytes that `shmq_push` computes. -/
theorem ShmQueue.Holds.free (holds : sq.Holds blocks start) :
    (if sq.wPos ≥ sq.rPos then sq.size - sq.wPos + sq.rPos else sq.rPos - sq.wPos)
      = sq.size - (encodeAll blocks).length := by
  have room := holds.room
  rw [holds.read, holds.write, cursor_add room]
  split <;> split <;> omega

/-- The used bytes that `shmq_pull` computes. -/
theorem ShmQueue.Holds.used (holds : sq.Holds blocks start) :
    (if sq.wPos ≥ sq.rPos then sq.wPos - sq.rPos else sq.size - sq.rPos + sq.wPos)
      = (encodeAll blocks).length := by
  have large := holds.large
  have bound : cursor sq.size start ≤ sq.size := cursor_le (by omega)
  have room := holds.room
  rw [holds.read, holds.write, cursor_add room]
  split <;> split <;> omega

/-- The blocks that are in the ring stay there when one is written behind them. -/
theorem ShmQueue.Holds.write_behind (holds : sq.Holds blocks start)
    (fits : (encodeAll blocks).length + (16 + block.sb.len.toNat) < sq.size)
    (small : sq.size + block.sb.len.toNat < 2 ^ 32) :
    ShmQueue.Holds
      { sq with
        base := store sq.size
          (store sq.size sq.base (start + (encodeAll blocks).length) block.sb.toBytes)
          (start + (encodeAll blocks).length + 16) block.buf
        wPos := cursor sq.size (start + (encodeAll blocks).length + 16 + block.sb.len.toNat) }
      (blocks ++ [block]) start where
  large := holds.large
  read := holds.read
  write := by
    show cursor sq.size _ = cursor sq.size _
    simp [encodeAll, Nat.add_assoc]
  room := by
    show (encodeAll (blocks ++ [block])).length < sq.size
    simpa [encodeAll] using fits
  stored := by
    show load sq.size _ start (encodeAll (blocks ++ [block])).length = _
    have length : (encodeAll (blocks ++ [block])).length
        = (encodeAll blocks).length + (16 + block.buf.length) := by
      simp [encodeAll, block.length]
    have payload := block.length
    rw [length, load_append, load_append, encodeAll_append]
    have old : load sq.size (store sq.size (store sq.size sq.base
        (start + (encodeAll blocks).length) block.sb.toBytes)
        (start + (encodeAll blocks).length + 16) block.buf) start (encodeAll blocks).length
        = encodeAll blocks := by
      rw [load_store_apart (by omega) (by omega),
        load_store_apart (by omega) (by rw [ShmBlock.length_toBytes]; omega), holds.stored]
    have header : load sq.size (store sq.size (store sq.size sq.base
        (start + (encodeAll blocks).length) block.sb.toBytes)
        (start + (encodeAll blocks).length + 16) block.buf)
        (start + (encodeAll blocks).length) 16 = block.sb.toBytes := by
      rw [load_store_apart (by omega) (by omega)]
      have fitsToo : block.sb.toBytes.length ≤ sq.size := by
        rw [ShmBlock.length_toBytes]
        omega
      have same : load sq.size (store sq.size sq.base (start + (encodeAll blocks).length)
          block.sb.toBytes) (start + (encodeAll blocks).length) block.sb.toBytes.length
          = block.sb.toBytes := load_store fitsToo
      rwa [ShmBlock.length_toBytes] at same
    rw [old, header, load_store (by omega)]
    simp [encodeAll, Block.encode]
  small := by
    intro other member
    rcases List.mem_append.mp member with old | new
    · exact holds.small other old
    · rw [List.mem_singleton.mp new]
      exact small

/-- `shmq_push` takes a block when it leaves a byte of the ring free, and else changes
nothing. -/
theorem ShmQueue.Holds.push (holds : sq.Holds blocks start) (small : block.Small sq.size) :
    if (encodeAll blocks).length + (block.sb.len.toNat + 17) ≤ sq.size then
      (shmqPush sq block).1 = 0 ∧ (shmqPush sq block).2.Holds (blocks ++ [block]) start ∧
        (shmqPush sq block).2.size = sq.size ∧ (shmqPush sq block).2.pullLen = sq.pullLen ∧
        (shmqPush sq block).2.pushList = sq.pushList
    else shmqPush sq block = (1, sq) := by
  obtain ⟨noWrap, inside⟩ := small
  have total : ((block.sb.len.toNat + sizeofShmBlock) % 2 ^ 32 + 1) % 2 ^ 32
      = block.sb.len.toNat + 17 := by
    unfold sizeofShmBlock
    omega
  unfold shmqPush
  dsimp only
  rw [total, holds.free]
  split
  case isFalse full => rw [if_pos (by omega)]
  case isTrue fits =>
    rw [if_neg (by omega), holds.write]
    have small := inside (by omega)
    have header := writeAround_cursor sq.base (start + (encodeAll blocks).length)
      (show block.sb.toBytes.length < sq.size by rw [ShmBlock.length_toBytes]; omega) rfl
    rw [ShmBlock.length_toBytes] at header
    have bound : cursor sq.size (start + (encodeAll blocks).length + 16) ≤ sq.size :=
      cursor_le (by omega)
    have straight : (cursor sq.size (start + (encodeAll blocks).length + 16) + block.sb.len.toNat)
        % 2 ^ 32
        = cursor sq.size (start + (encodeAll blocks).length + 16) + block.buf.length := by
      rw [block.length]
      exact Nat.mod_eq_of_lt (by omega)
    have payload := writeAround_cursor (store sq.size sq.base
        (start + (encodeAll blocks).length) block.sb.toBytes)
      (start + (encodeAll blocks).length + 16)
      (show block.buf.length < sq.size by rw [block.length]; omega) straight
    unfold sizeofShmBlock
    rw [header]
    rw [payload, block.length]
    exact ⟨rfl, holds.write_behind (by omega) small, rfl, rfl, rfl⟩

/-- The first bytes in use are the oldest block. -/
theorem ShmQueue.Holds.load_front (holds : sq.Holds (block :: later) start) :
    load sq.size sq.base start 16 = block.sb.toBytes ∧
      load sq.size sq.base (start + 16) block.sb.len.toNat = block.buf ∧
      load sq.size sq.base (start + (16 + block.sb.len.toNat)) (encodeAll later).length
        = encodeAll later := by
  have stored := holds.stored
  rw [encodeAll_cons, List.length_append, Block.length_encode, load_append, load_append] at stored
  obtain ⟨front, rest⟩ := List.append_inj stored (by simp)
  obtain ⟨header, payload⟩ := List.append_inj front (by simp)
  exact ⟨header, payload, rest⟩

/-- The cursor moves on past the oldest block. -/
theorem ShmQueue.Holds.drop_front (holds : sq.Holds (block :: later) start) (pullLen : Nat) :
    ShmQueue.Holds
      { sq with rPos := cursor sq.size (start + (16 + block.sb.len.toNat)), pullLen := pullLen }
      later (start + (16 + block.sb.len.toNat)) where
  large := holds.large
  read := rfl
  write := by
    show sq.wPos = _
    rw [holds.write, encodeAll_cons, List.length_append, Block.length_encode, ← Nat.add_assoc]
  room := by
    have room := holds.room
    rw [encodeAll_cons, List.length_append] at room
    show (encodeAll later).length < sq.size
    omega
  stored := holds.load_front.2.2
  small := fun other member => holds.small other (List.mem_cons_of_mem _ member)

/-- `shmq_pull` on an empty ring. -/
theorem ShmQueue.Holds.pull_nil (holds : sq.Holds [] start) (memory : Bool) :
    shmqPull sq memory = (.empty, sq) := by
  unfold shmqPull
  rw [holds.used]
  rfl

/-- `shmq_pull` returns the oldest block, or -1 when there is no memory for it; it removes
the block either way. -/
theorem ShmQueue.Holds.pull_cons (holds : sq.Holds (block :: later) start) (memory : Bool) :
    (shmqPull sq memory).1 =
        (if block.sb.len.toNat > sq.pullLen ∧ memory = false then .noMemory
        else .block block.sb block.buf) ∧
      (shmqPull sq memory).2.Holds later (start + (16 + block.sb.len.toNat)) ∧
      (shmqPull sq memory).2.size = sq.size ∧
      (shmqPull sq memory).2.pushList = sq.pushList := by
  have large := holds.large
  have room := holds.room
  have small := holds.small block List.mem_cons_self
  obtain ⟨header, payload, -⟩ := holds.load_front
  have used : (encodeAll (block :: later)).length
      = 16 + block.sb.len.toNat + (encodeAll later).length := by
    rw [encodeAll_cons, List.length_append, Block.length_encode]
  have readHeader := readAround_cursor sq.base start (show 16 < sq.size from large) rfl
  have bound : cursor sq.size (start + 16) ≤ sq.size := cursor_le (by omega)
  have straight : (cursor sq.size (start + 16) + block.sb.len.toNat) % 2 ^ 32
      = cursor sq.size (start + 16) + block.sb.len.toNat := Nat.mod_eq_of_lt (by omega)
  have readPayload := readAround_cursor sq.base (start + 16)
    (show block.sb.len.toNat < sq.size by omega) straight
  rw [header] at readHeader
  rw [payload, Nat.add_assoc] at readPayload
  unfold shmqPull sizeofShmBlock
  dsimp only
  rw [holds.used, used, if_neg (by omega), holds.read, readHeader]
  rw [ShmBlock.ofBytes_toBytes, readPayload]
  split
  case isTrue positive =>
    split
    case isTrue long =>
      cases memory with
      | true =>
        rw [if_pos rfl, if_neg (by simp)]
        exact ⟨rfl, holds.drop_front _, rfl, rfl⟩
      | false =>
        rw [if_neg (by simp), if_pos ⟨long, rfl⟩]
        exact ⟨rfl, holds.drop_front _, rfl, rfl⟩
    case isFalse short =>
      rw [if_neg fun missing => short missing.1]
      exact ⟨rfl, holds.drop_front _, rfl, rfl⟩
  case isFalse empty =>
    have none : block.sb.len.toNat = 0 := by omega
    have noPayload : block.buf = [] := List.length_eq_zero_iff.mp (by rw [block.length, none])
    have front := holds.drop_front sq.pullLen
    rw [none] at front ⊢
    rw [if_neg (by omega), noPayload]
    exact ⟨rfl, front, rfl, rfl⟩

end Fifo

section Run

/-- A ring with the queue of blocks that it stands for. -/
structure FifoRing where
  queue : ShmQueue
  fifo : List Block

inductive RingCall where
  | push (block : Block)
  | pull (memory : Bool)

/-- A block that is pushed joins the queue, and a pull that finds a block takes one off. -/
def FifoRing.step (ring : FifoRing) : RingCall → FifoRing
  | .push block =>
    let pushed := shmqPush ring.queue block
    ⟨pushed.2, if pushed.1 = 0 then ring.fifo ++ [block] else ring.fifo⟩
  | .pull memory =>
    let pulled := shmqPull ring.queue memory
    ⟨pulled.2, if pulled.1 = .empty then ring.fifo else ring.fifo.tail⟩

/-- The blocks that are pushed do not make 32-bit sums wrap. -/
def RingCall.Small (ring : FifoRing) : RingCall → Prop
  | .push block => block.Small ring.queue.size
  | .pull _ => True

/-- What a pull returns from a queue of blocks. -/
def pulledFrom (pullLen : Nat) (memory : Bool) : List Block → Pulled
  | [] => .empty
  | block :: _ =>
    if block.sb.len.toNat > pullLen ∧ memory = false then .noMemory else .block block.sb block.buf

variable {size : Nat} {ring : FifoRing} {call : RingCall}

/-- The ring holds exactly its queue. -/
def FifoRing.Refines (size : Nat) (ring : FifoRing) : Prop :=
  ring.queue.size = size ∧ ∃ start, ring.queue.Holds ring.fifo start

theorem FifoRing.Refines.step (refines : ring.Refines size) (small : call.Small ring) :
    (ring.step call).Refines size := by
  obtain ⟨same, start, holds⟩ := refines
  cases call with
  | push block =>
    have pushed := holds.push small
    dsimp only [FifoRing.step]
    split at pushed
    case isTrue =>
      obtain ⟨accepted, after, sizeAfter, -, -⟩ := pushed
      rw [if_pos accepted]
      exact ⟨sizeAfter.trans same, start, after⟩
    case isFalse =>
      rw [pushed]
      exact ⟨same, start, holds⟩
  | pull memory =>
    dsimp only [FifoRing.step]
    cases shape : ring.fifo with
    | nil =>
      rw [shape] at holds
      rw [holds.pull_nil]
      exact ⟨same, start, holds⟩
    | cons block later =>
      rw [shape] at holds
      obtain ⟨returned, after, sizeAfter, -⟩ := holds.pull_cons memory
      have notEmpty : (shmqPull ring.queue memory).1 ≠ .empty := by
        rw [returned]
        split <;> simp
      rw [if_neg notEmpty]
      exact ⟨sizeAfter.trans same, _, after⟩

/-- The ring is a queue of blocks: a pull returns the oldest block whole, unless there is no
memory for it; a push is taken exactly when a byte stays free, and else changes nothing. -/
theorem shmq_refines_fifo (large : sizeofShmBlock < size)
    (run : Runs.Reaches FifoRing.step (fun ring call => call.Small ring)
      ⟨ShmQueue.inited size, []⟩ ring) :
    ring.queue.size = size ∧
      (∀ memory, (shmqPull ring.queue memory).1
        = pulledFrom ring.queue.pullLen memory ring.fifo) ∧
      ∀ block : Block, block.Small size →
        if (encodeAll ring.fifo).length + (block.sb.len.toNat + 17) ≤ size then
          (shmqPush ring.queue block).1 = 0
        else shmqPush ring.queue block = (1, ring.queue) := by
  have refines : ring.Refines size := by
    apply run.invariant
    · exact ⟨rfl, 0, ShmQueue.inited_holds large⟩
    · intro state call refines small
      exact refines.step small
  obtain ⟨same, start, holds⟩ := refines
  refine ⟨same, ?_, ?_⟩
  · intro memory
    cases shape : ring.fifo with
    | nil =>
      rw [shape] at holds
      rw [holds.pull_nil]
      rfl
    | cons block later =>
      rw [shape] at holds
      exact (holds.pull_cons memory).1
  · intro block small
    rw [← same] at small ⊢
    have pushed := holds.push small
    split at pushed
    case isTrue room =>
      rw [if_pos room]
      exact pushed.1
    case isFalse full =>
      rw [if_neg full]
      exact pushed

/-- A block of zeros. -/
def blankBlock (len : Nat) (small : len < 2 ^ 32) : Block where
  sb := ⟨7, 1, .ofNat len, 3⟩
  buf := List.replicate len 0
  length := by rw [List.length_replicate, UInt32.toNat_ofNat_of_lt' small]

instance (ring : FifoRing) : ∀ call, Decidable (RingCall.Small ring call)
  | .push block => inferInstanceAs (Decidable (_ + _ < _ ∧ (block.sb.len.toNat + 17 ≤ _ → _ < _)))
  | .pull _ => inferInstanceAs (Decidable True)

/-- In a ring of 50 bytes the third block of 26 bytes goes around the end. -/
def aroundTheEnd : FifoRing :=
  [.push ⟨⟨7, 1, 2, 3⟩, [1, 2], rfl⟩, .push ⟨⟨8, 2, 3, 3⟩, [3, 4, 5], rfl⟩, .pull true,
    .push ⟨⟨9, 3, 10, 3⟩, [6, 7, 8, 9, 10, 11, 12, 13, 14, 15], rfl⟩, .pull true].foldl
    FifoRing.step ⟨ShmQueue.inited 50, []⟩

theorem shmq_refines_fifo_aroundTheEnd :
    (shmqPull aroundTheEnd.queue true).1 =
        .block ⟨9, 3, 10, 3⟩ [6, 7, 8, 9, 10, 11, 12, 13, 14, 15] ∧
      shmqPush aroundTheEnd.queue (blankBlock 10 (by decide)) = (1, aroundTheEnd.queue) := by
  have run : Runs.Reaches FifoRing.step (fun ring call => call.Small ring)
      ⟨ShmQueue.inited 50, []⟩ aroundTheEnd := Runs.Reaches.refl.follow (by decide +kernel)
  obtain ⟨-, pulls, pushes⟩ := shmq_refines_fifo (by decide) run
  have left : aroundTheEnd.fifo = [⟨⟨9, 3, 10, 3⟩, [6, 7, 8, 9, 10, 11, 12, 13, 14, 15], rfl⟩] := by
    decide +kernel
  refine ⟨?_, ?_⟩
  · rw [pulls true, left]
    rfl
  · have refused := pushes (blankBlock 10 (by decide)) ⟨by decide, fun _ => by decide⟩
    rwa [left, if_neg (by decide)] at refused

/-- A block longer than the pull buffer is lost when there is no memory for it. -/
theorem pull_without_memory :
    ¬ ∀ ring, Runs.Reaches FifoRing.step (fun ring call => call.Small ring)
      ⟨ShmQueue.inited 9000, []⟩ ring →
      ∀ memory block later, ring.fifo = block :: later →
        (shmqPull ring.queue memory).1 = .block block.sb block.buf := by
  intro claim
  let block := blankBlock 8193 (by decide)
  have holds : (ShmQueue.inited 9000).Holds [] 0 := ShmQueue.inited_holds (by decide)
  have small : block.Small 9000 := ⟨by decide, fun _ => by decide⟩
  have pushed := holds.push small
  rw [if_pos (by decide)] at pushed
  obtain ⟨accepted, after, -, pullLen, -⟩ := pushed
  have lost := (after.pull_cons false).1
  rw [pullLen, if_pos ⟨by decide, rfl⟩] at lost
  have queued : (FifoRing.step ⟨ShmQueue.inited 9000, []⟩ (.push block)).fifo = [block] := by
    simp [FifoRing.step, accepted]
  have fits : RingCall.Small ⟨ShmQueue.inited 9000, []⟩ (.push block) := small
  have returned := claim _ (.call .refl fits) false block [] queued
  have same := lost.symm.trans returned
  cases same

end Run

end Taomee.AsyncServer
