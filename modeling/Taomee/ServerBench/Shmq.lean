import Taomee.Library.LittleEndian
import Taomee.Library.Memory
import Taomee.Library.Runs
import Taomee.ServerBench.Net

/-!
# serverbench: the shared-memory queue

`shmq_push` stores a block at `head` in one piece. Where the end of the queue is too near it
goes back to the front, behind the 12 bytes of `shm_head_t`, and leaves a padding block if
there is room for one; `shmq_pop` follows. Both do so by steps that stay when the call then
fails.

`head` and `tail` are of type `int`, a length is a `u_int`, and C compares the two as
unsigned. Cells are counted from `addr`.
-/

namespace Taomee.ServerBench.Shmq

open LittleEndian Memory

/-- `sizeof (shm_head_t)` -/
def sizeofShmHead : Int := 12

/-- `sizeof (shm_block_t)` -/
def sizeofShmBlock : Nat := 55

/-- A number as a `u_int`. -/
def u32 (n : Int) : Int := n % 2 ^ 32

/-- A number as an `int`. -/
def i32 (n : Int) : Int := (n + 2 ^ 31) % 2 ^ 32 - 2 ^ 31

/-- The values of the enumeration. -/
def typeCode : BlockType → UInt8
  | .dat => 0
  | .pad => 1
  | .fin => 2

/-- A block as the callers of `shmq_push` make them: `rest` is `skinfo` and `accept_fd`, and
`length` counts the data behind the header. -/
structure Block where
  blkId : UInt64
  type : BlockType
  rest : List UInt8
  data : List UInt8
  real : type ≠ .pad
  packed : rest.length = 42
  bounded : data.length ≤ rcvBufMax
  deriving DecidableEq

def Block.length (block : Block) : Nat := sizeofShmBlock + block.data.length

/-- The bytes of a block. -/
def Block.encode (block : Block) : List UInt8 :=
  toLe 8 block.blkId.toNat ++ toLe 4 block.length ++ [typeCode block.type] ++ block.rest
    ++ block.data

/-- `shm_queue` with its `shm_head_t`. -/
structure Queue where
  mem : Int → UInt8
  length : UInt32
  head : Int
  tail : Int
  blkCnt : Int

/-- `do_shmq_create` -/
def Queue.create (length : UInt32) : Queue :=
  ⟨fun _ => 0, length, sizeofShmHead, sizeofShmHead, 0⟩

/-- The `length` of a block in memory. -/
def Queue.lengthAt (q : Queue) (start : Int) : Nat := ofLe (read q.mem (start + 8) 4)

/-- `align_queue_tail` -/
def Queue.alignQueueTail (q : Queue) : Queue :=
  if q.head ≥ q.tail then q
  else if u32 (q.length.toNat - q.tail) < sizeofShmBlock ∨
      q.mem (q.tail + 12) = typeCode .pad then
    { q with tail := sizeofShmHead }
  else q

/-- The padding block that `align_queue_head` leaves: the fields it sets. -/
def padBlock (surplus : Int) : List UInt8 :=
  toLe 8 0 ++ toLe 4 (u32 surplus).toNat ++ [typeCode .pad]

/-- `align_queue_head` for a block of so many bytes. -/
def Queue.alignQueueHead (q : Queue) (mbLength : Nat) : Int × Queue :=
  let surplus := i32 (q.length.toNat - q.head)
  if u32 surplus < mbLength then
    if q.tail = sizeofShmHead then (-1, q)
    else if q.tail > q.head then (0, q)
    else if surplus % 2 ^ 64 < sizeofShmBlock then (0, { q with head := sizeofShmHead })
    else (0, { q with mem := write q.mem q.head (padBlock surplus), head := sizeofShmHead })
  else (0, q)

/-- `pop_wait` without `SLEEP_MASK`. -/
def Queue.popWait (q : Queue) : Int × Queue :=
  let q := q.alignQueueTail
  if q.tail = q.head then (-1, q)
  else
    let q := q.alignQueueTail
    if q.tail = q.head then (-1, q) else (0, q)

/-- The test of `push_wait` that the queue is full. -/
def Queue.full (q : Queue) (mbLength : Nat) : Prop :=
  q.tail > q.head ∧ u32 q.tail < u32 (q.head + mbLength + 1)

instance (q : Queue) (mbLength : Nat) : Decidable (q.full mbLength) :=
  inferInstanceAs (Decidable (_ ∧ _))

/-- `push_wait` without `SLEEP_MASK`. -/
def Queue.pushWait (q : Queue) (mbLength : Nat) : Int × Queue :=
  let aligned := q.alignQueueHead mbLength
  if aligned.1 = -1 then (-1, aligned.2)
  else if aligned.2.full mbLength then (-1, aligned.2)
  else
    let again := aligned.2.alignQueueHead mbLength
    if again.1 = -1 then (-1, again.2)
    else if again.2.full mbLength then (-1, again.2)
    else (0, again.2)

/-- What `shmq_pop` comes to: -1, the end of the process, or 0 with a block. -/
inductive Popped where
  | empty
  | exit
  | block (mb : List UInt8)
  deriving DecidableEq

/-- `tail block overflow` -/
def Queue.overflow (q : Queue) (length : Nat) : Prop :=
  length < sizeofShmBlock ∨
    (q.tail < q.head ∧ u32 (q.tail + length) > u32 q.head) ∨
    (q.tail > q.head ∧ u32 (q.tail + length) > q.length.toNat)

instance (q : Queue) (length : Nat) : Decidable (q.overflow length) :=
  inferInstanceAs (Decidable (_ ∨ _))

/-- `shmq_pop` -/
def Queue.shmqPop (q : Queue) : Popped × Queue :=
  let waited := q.popWait
  let q := waited.2
  if waited.1 = 0 then
    let length := q.lengthAt q.tail
    if q.overflow length then (.exit, q)
    else
      (.block (read q.mem q.tail length),
        { q with blkCnt := q.blkCnt - 1, tail := i32 (q.tail + length) })
  else (.empty, q)

/-- `shmq_push` -/
def Queue.shmqPush (q : Queue) (mb : Block) : Int × Queue :=
  let waited := q.pushWait mb.length
  let q := waited.2
  if waited.1 = 0 then
    (0, { q with
      mem := write q.mem q.head mb.encode
      blkCnt := q.blkCnt + 1
      head := i32 (q.head + mb.length) })
  else (-1, q)

section Numbers

variable {n : Int}

/-- In range the conversion changes nothing. -/
theorem u32_eq (low : 0 ≤ n) (high : n < 2 ^ 32) : u32 n = n :=
  Int.emod_eq_of_lt low high

/-- In range the conversion changes nothing. -/
theorem i32_eq (low : 0 ≤ n) (high : n < 2 ^ 31) : i32 n = n := by
  unfold i32
  omega

/-- An `int` that holds a `u_int` compares with other ones as that `u_int`. -/
theorem u32_i32 (n : Int) : u32 (i32 n) = u32 n := by
  unfold u32 i32
  omega

/-- An `int` that holds a large `u_int` is not below a `sizeof`. -/
theorem i32_lt_sizeof (low : 0 ≤ n) (high : n < 2 ^ 32) :
    i32 n % 2 ^ 64 < sizeofShmBlock ↔ n < sizeofShmBlock := by
  unfold i32 sizeofShmBlock
  omega

end Numbers

section Blocks

variable {block : Block} {mem : Int → UInt8} {start : Int}

@[simp] theorem Block.length_encode (block : Block) : block.encode.length = block.length := by
  simp [Block.encode, Block.length, sizeofShmBlock, block.packed]
  omega

/-- A block is shorter than 16 MiB. -/
theorem Block.length_lt (block : Block) : block.length < 2 ^ 24 := by
  have bounded := block.bounded
  unfold Block.length sizeofShmBlock
  unfold rcvBufMax at bounded
  omega

/-- Only padding has the type of padding. -/
theorem typeCode_ne_pad {type : BlockType} (real : type ≠ .pad) :
    typeCode type ≠ typeCode .pad := by
  cases type with
  | dat => decide
  | pad => exact absurd rfl real
  | fin => decide

/-- A block that lies in memory is not taken for padding. -/
theorem Block.type_stored (stored : read mem start block.length = block.encode) :
    mem (start + 12) ≠ typeCode .pad := by
  rw [← block.length_encode] at stored
  have long : 12 < block.encode.length := by
    rw [block.length_encode]
    unfold Block.length sizeofShmBlock
    omega
  have cell : mem (start + 12) = block.encode[12] := cell_of_read stored long
  have type : block.encode[12] = typeCode block.type := by
    simp [Block.encode]
  rw [cell, type]
  exact typeCode_ne_pad block.real

/-- The length of a block that lies in memory is read back. -/
theorem Block.lengthAt_stored {q : Queue} (stored : read q.mem start block.length = block.encode) :
    q.lengthAt start = block.length := by
  have small := block.length_lt
  have parts : block.length = 8 + (4 + (43 + block.data.length)) := by
    unfold Block.length sizeofShmBlock
    omega
  have split : block.encode = toLe 8 block.blkId.toNat ++ (toLe 4 block.length
      ++ ([typeCode block.type] ++ block.rest ++ block.data)) := by
    simp [Block.encode]
  rw [parts, read_add, read_add, split] at stored
  obtain ⟨-, rest⟩ := List.append_inj stored (by simp)
  obtain ⟨field, -⟩ := List.append_inj rest (by simp)
  have same : read q.mem (start + 8) 4 = toLe 4 block.length := field
  unfold Queue.lengthAt
  rw [same, ofLe_toLe (by omega)]

/-- Blocks one behind the other. -/
def encodeAll (blocks : List Block) : List UInt8 := (blocks.map Block.encode).flatten

@[simp] theorem encodeAll_nil : encodeAll [] = [] := rfl

@[simp] theorem encodeAll_cons (block : Block) (blocks : List Block) :
    encodeAll (block :: blocks) = block.encode ++ encodeAll blocks := rfl

@[simp] theorem encodeAll_append (blocks later : List Block) :
    encodeAll (blocks ++ later) = encodeAll blocks ++ encodeAll later := by
  simp [encodeAll]

/-- One block more makes the bytes longer by its length. -/
theorem length_encodeAll_concat (blocks : List Block) (block : Block) :
    (encodeAll (blocks ++ [block])).length = (encodeAll blocks).length + block.length := by
  rw [encodeAll_append, List.length_append, encodeAll_cons, encodeAll_nil, List.append_nil,
    Block.length_encode]

/-- The blocks lie in memory from a cell on. -/
def Lies (mem : Int → UInt8) (start : Int) (blocks : List Block) : Prop :=
  read mem start (encodeAll blocks).length = encodeAll blocks

theorem Lies.nil : Lies mem start [] := rfl

/-- The first block lies at the start, the others behind it. -/
theorem Lies.cons {blocks : List Block} (lies : Lies mem start (block :: blocks)) :
    read mem start block.length = block.encode ∧ Lies mem (start + block.length) blocks := by
  unfold Lies at lies
  rw [encodeAll_cons, List.length_append, Block.length_encode, read_add] at lies
  exact List.append_inj lies (by simp)

/-- A write beside the blocks leaves them where they are. -/
theorem Lies.beside {blocks : List Block} {at' : Int} {data : List UInt8}
    (lies : Lies mem start blocks)
    (apart : start + (encodeAll blocks).length ≤ at' ∨ at' + data.length ≤ start) :
    Lies (write mem at' data) start blocks :=
  (read_write_apart apart).trans lies

/-- A block written behind the others. -/
theorem Lies.append {blocks : List Block} (lies : Lies mem start blocks) (block : Block) :
    Lies (write mem (start + (encodeAll blocks).length) block.encode) start
      (blocks ++ [block]) := by
  have old : Lies (write mem (start + (encodeAll blocks).length) block.encode) start blocks :=
    lies.beside (.inl (Int.le_refl _))
  have new := read_write mem (start + (encodeAll blocks).length) block.encode
  unfold Lies at old ⊢
  rw [encodeAll_append, List.length_append, read_add, old]
  simpa [encodeAll] using new

end Blocks

/-- The blocks lie between `tail` and `head`. -/
structure Queue.Straight (q : Queue) (blocks : List Block) : Prop where
  front : sizeofShmHead ≤ q.tail
  head : q.head = q.tail + (encodeAll blocks).length
  inside : q.head ≤ q.length.toNat
  small : q.head < 2 ^ 31
  lies : Lies q.mem q.tail blocks

/-- The older blocks lie between `tail` and `stop`, where `head` went back to the front, and
the newer ones before `head`. -/
structure Queue.Wrapped (q : Queue) (older newer : List Block) (stop : Int) : Prop where
  head : q.head = sizeofShmHead + (encodeAll newer).length
  apart : q.head < q.tail
  reach : stop = q.tail + (encodeAll older).length
  inside : stop ≤ q.length.toNat
  small : stop < 2 ^ 31
  mark : q.length.toNat - stop < sizeofShmBlock ∨ q.mem (stop + 12) = typeCode .pad
  liesOlder : Lies q.mem q.tail older
  liesNewer : Lies q.mem sizeofShmHead newer

/-- The blocks in a queue, oldest first. -/
def Queue.Holds (q : Queue) (blocks : List Block) : Prop :=
  q.Straight blocks ∨
    ∃ older newer stop, blocks = older ++ newer ∧ q.Wrapped older newer stop

/-- The oldest block lies at `tail`. -/
def Queue.Aligned (q : Queue) (blocks : List Block) : Prop :=
  q.Straight blocks ∨
    ∃ first older newer stop, blocks = first :: older ++ newer ∧
      q.Wrapped (first :: older) newer stop

section Waits

variable {q : Queue} {blocks older newer : List Block} {block : Block} {stop : Int}
  {mbLength : Nat}

/-- Blocks in one piece begin with no padding. -/
theorem Queue.Straight.alignQueueTail (straight : q.Straight blocks) : q.alignQueueTail = q := by
  have head := straight.head
  unfold Queue.alignQueueTail
  rw [if_pos (by omega)]

/-- While older blocks are left the tail stands at one of them. -/
theorem Queue.Wrapped.alignQueueTail_cons (wrapped : q.Wrapped (block :: older) newer stop) :
    q.alignQueueTail = q := by
  obtain ⟨head, apart, reach, inside, small, mark, liesOlder, -⟩ := wrapped
  have type := Block.type_stored liesOlder.cons.1
  have bound := q.length.toNat_lt
  rw [encodeAll_cons, List.length_append, Block.length_encode] at reach
  unfold Block.length at reach
  unfold sizeofShmHead at head
  have far : u32 (q.length.toNat - q.tail) = q.length.toNat - q.tail := u32_eq (by omega) (by omega)
  unfold Queue.alignQueueTail
  rw [if_neg (by omega), far, if_neg]
  rintro (near | pad)
  · omega
  · exact type pad

/-- After the last older block `tail` follows `head` to the front. -/
theorem Queue.Wrapped.alignQueueTail_nil (wrapped : q.Wrapped [] newer stop) :
    q.alignQueueTail = { q with tail := sizeofShmHead } ∧ q.alignQueueTail.Straight newer := by
  obtain ⟨head, apart, reach, inside, small, mark, -, liesNewer⟩ := wrapped
  have bound := q.length.toNat_lt
  obtain rfl : stop = q.tail := by simpa using reach
  unfold sizeofShmHead at head
  have near : u32 (q.length.toNat - q.tail) = q.length.toNat - q.tail :=
    u32_eq (by omega) (by omega)
  have moved : q.alignQueueTail = { q with tail := sizeofShmHead } := by
    unfold Queue.alignQueueTail
    rw [if_neg (by omega), near, if_pos mark]
  rw [moved]
  refine ⟨rfl, Int.le_refl _, head, ?_, ?_, liesNewer⟩
  · exact Int.le_trans (Int.le_of_lt apart) inside
  · exact Int.lt_trans apart small

/-- An aligned tail stays. -/
theorem Queue.Aligned.alignQueueTail (aligned : q.Aligned blocks) : q.alignQueueTail = q := by
  rcases aligned with straight | ⟨first, older, newer, stop, -, wrapped⟩
  · exact straight.alignQueueTail
  · exact wrapped.alignQueueTail_cons

/-- `align_queue_tail` finds the oldest block. -/
theorem Queue.Holds.alignQueueTail (holds : q.Holds blocks) : q.alignQueueTail.Aligned blocks := by
  rcases holds with straight | ⟨older, newer, stop, rfl, wrapped⟩
  · rw [straight.alignQueueTail]
    exact .inl straight
  · cases older with
    | nil => exact .inl wrapped.alignQueueTail_nil.2
    | cons first older =>
      rw [wrapped.alignQueueTail_cons]
      exact .inr ⟨first, older, newer, stop, rfl, wrapped⟩

/-- Alignment moves no block. -/
theorem Queue.Aligned.holds (aligned : q.Aligned blocks) : q.Holds blocks := by
  rcases aligned with straight | ⟨first, older, newer, stop, rfl, wrapped⟩
  · exact .inl straight
  · exact .inr ⟨first :: older, newer, stop, rfl, wrapped⟩

theorem encodeAll_length_pos (block : Block) (blocks : List Block) :
    0 < (encodeAll (block :: blocks)).length := by
  rw [encodeAll_cons, List.length_append, Block.length_encode]
  unfold Block.length sizeofShmBlock
  omega

/-- Tail and head meet exactly when nothing is queued. -/
theorem Queue.Aligned.empty_iff (aligned : q.Aligned blocks) : q.tail = q.head ↔ blocks = [] := by
  rcases aligned with straight | ⟨first, older, newer, stop, rfl, wrapped⟩
  · have head := straight.head
    cases blocks with
    | nil => simpa using head.symm
    | cons first later =>
      have positive := encodeAll_length_pos first later
      simp only [reduceCtorEq, iff_false]
      omega
  · have apart := wrapped.apart
    simp only [List.cons_append, reduceCtorEq, iff_false]
    omega

/-- `pop_wait` finds the oldest block if there is one. -/
theorem Queue.Holds.popWait (holds : q.Holds blocks) :
    q.popWait = (if blocks = [] then -1 else 0, q.alignQueueTail) := by
  have aligned := holds.alignQueueTail
  unfold Queue.popWait
  dsimp only
  rw [aligned.alignQueueTail]
  simp only [aligned.empty_iff]
  split <;> rfl

/-- The block fits at `head`. -/
def Queue.Room (q : Queue) (mbLength : Nat) : Prop :=
  if q.head < q.tail then q.head + mbLength < q.tail else q.head + mbLength ≤ q.length.toNat

/-- A head that has come round is not moved again. -/
theorem Queue.Wrapped.alignQueueHead (wrapped : q.Wrapped older newer stop) :
    q.alignQueueHead mbLength = (0, q) := by
  have front : sizeofShmHead < q.tail := by
    have head := wrapped.head
    have apart := wrapped.apart
    omega
  unfold Queue.alignQueueHead
  dsimp only
  split
  · rw [if_neg (by omega), if_pos wrapped.apart]
  · rfl

/-- Where the end is too near, `align_queue_head` wraps the queue or finds it full. -/
theorem Queue.Straight.alignQueueHead_near (straight : q.Straight blocks)
    (near : q.length.toNat - q.head < mbLength) :
    q.alignQueueHead mbLength = (-1, q) ∨ ∃ aligned, q.alignQueueHead mbLength = (0, aligned) ∧
      aligned.Wrapped blocks [] q.head ∧ aligned.blkCnt = q.blkCnt ∧
        aligned.length = q.length := by
  obtain ⟨front, head, inside, small, lies⟩ := straight
  have bound := q.length.toNat_lt
  unfold sizeofShmHead at front
  have surplus : u32 (i32 (q.length.toNat - q.head)) = q.length.toNat - q.head := by
    rw [u32_i32, u32_eq (by omega) (by omega)]
  have short : i32 (q.length.toNat - q.head) % 2 ^ 64 < sizeofShmBlock ↔
      q.length.toNat - q.head < sizeofShmBlock := i32_lt_sizeof (by omega) (by omega)
  unfold Queue.alignQueueHead
  dsimp only
  rw [surplus, if_pos near]
  by_cases full : q.tail = sizeofShmHead
  · exact .inl (if_pos full)
  have apart : sizeofShmHead < q.tail := by
    unfold sizeofShmHead at full ⊢
    omega
  rw [if_neg full, if_neg (by omega)]
  right
  by_cases noPad : q.length.toNat - q.head < sizeofShmBlock
  · rw [if_pos (short.mpr noPad)]
    exact ⟨_, rfl, ⟨by simp, apart, head, inside, small, .inl noPad, lies, .nil⟩, rfl, rfl⟩
  · rw [if_neg (mt short.mp noPad)]
    refine ⟨_, rfl, ⟨by simp, apart, head, inside, small, .inr ?_, ?_, .nil⟩, rfl, rfl⟩
    · have type : 12 < (padBlock (i32 (q.length.toNat - q.head))).length := by simp [padBlock]
      exact cell_of_read (read_write q.mem q.head _) type
    · exact lies.beside (.inl (Int.le_of_eq head.symm))

/-- Where the end is far enough, it does nothing. -/
theorem Queue.Straight.alignQueueHead_far (straight : q.Straight blocks)
    (far : mbLength ≤ q.length.toNat - q.head) : q.alignQueueHead mbLength = (0, q) := by
  obtain ⟨front, head, inside, small, lies⟩ := straight
  have bound := q.length.toNat_lt
  unfold sizeofShmHead at front
  have surplus : u32 (i32 (q.length.toNat - q.head)) = q.length.toNat - q.head := by
    rw [u32_i32, u32_eq (by omega) (by omega)]
  unfold Queue.alignQueueHead
  dsimp only
  rw [surplus, if_neg (by omega)]

/-- A wrapped queue is full unless the block fits before `tail`. -/
theorem Queue.Wrapped.full_iff (wrapped : q.Wrapped older newer stop) (short : mbLength < 2 ^ 24) :
    q.full mbLength ↔ ¬ q.head + mbLength < q.tail := by
  obtain ⟨head, apart, reach, inside, small, -, -, -⟩ := wrapped
  unfold sizeofShmHead at head
  have tail : u32 q.tail = q.tail := u32_eq (by omega) (by omega)
  have next : u32 (q.head + mbLength + 1) = q.head + mbLength + 1 := u32_eq (by omega) (by omega)
  unfold Queue.full
  omega

/-- While the blocks lie in one piece the tail is not in front of the head. -/
theorem Queue.Straight.not_full (straight : q.Straight blocks) : ¬ q.full mbLength := by
  have head := straight.head
  rintro ⟨apart, -⟩
  omega

/-- What fits behind the head has room. -/
theorem Queue.Straight.room (straight : q.Straight blocks)
    (far : mbLength ≤ q.length.toNat - q.head) : q.Room mbLength := by
  have head := straight.head
  unfold Queue.Room
  rw [if_neg (by omega)]
  omega

/-- Once the head is aligned only a full queue makes `push_wait` fail. -/
theorem Queue.pushWait_aligned {aligned : Queue} (first : q.alignQueueHead mbLength = (0, aligned))
    (again : aligned.alignQueueHead mbLength = (0, aligned)) :
    q.pushWait mbLength = (if aligned.full mbLength then -1 else 0, aligned) := by
  unfold Queue.pushWait
  rw [first]
  dsimp only
  rw [again, if_neg (by decide)]
  by_cases full : aligned.full mbLength
  · simp [full]
  · simp [full]

/-- What `push_wait` leaves: the same blocks, and room for the new one if it returns 0. -/
structure Queue.Waited (q : Queue) (blocks : List Block) (mbLength : Nat)
    (waited : Int × Queue) : Prop where
  holds : waited.2.Holds blocks
  room : waited.1 = 0 → waited.2.Room mbLength
  moved : waited.2.head = q.head ∨ waited.2.head < waited.2.tail
  blkCnt : waited.2.blkCnt = q.blkCnt
  length : waited.2.length = q.length

/-- A wrapped queue has room, or the push is told that it is full. -/
theorem Queue.Wrapped.waited (wrapped : q.Wrapped older newer stop) (short : mbLength < 2 ^ 24) :
    q.Waited (older ++ newer) mbLength (if q.full mbLength then -1 else 0, q) where
  holds := .inr ⟨older, newer, stop, rfl, wrapped⟩
  room returned := by
    have room : ¬ q.full mbLength := by
      intro full
      simp [full] at returned
    rw [wrapped.full_iff short, not_not] at room
    exact (if_pos wrapped.apart).mpr room
  moved := .inl rfl
  blkCnt := rfl
  length := rfl

/-- Waiting for room keeps the blocks. -/
theorem Queue.Holds.pushWait (holds : q.Holds blocks) (short : mbLength < 2 ^ 24) :
    q.Waited blocks mbLength (q.pushWait mbLength) := by
  rcases holds with straight | ⟨older, newer, stop, rfl, wrapped⟩
  · by_cases near : q.length.toNat - q.head < mbLength
    · rcases straight.alignQueueHead_near near with full | ⟨aligned, first, wrapped, cnt, length⟩
      · have failed : q.pushWait mbLength = (-1, q) := by
          unfold Queue.pushWait
          rw [full, if_pos rfl]
        rw [failed]
        exact ⟨.inl straight, nofun, .inl rfl, rfl, rfl⟩
      · have waited := wrapped.waited short
        rw [List.append_nil] at waited
        rw [Queue.pushWait_aligned first wrapped.alignQueueHead]
        exact ⟨waited.holds, waited.room, .inr wrapped.apart, cnt, length⟩
    · have aligned := straight.alignQueueHead_far (Int.not_lt.mp near)
      rw [Queue.pushWait_aligned aligned aligned, if_neg straight.not_full]
      exact ⟨.inl straight, fun _ => straight.room (Int.not_lt.mp near), .inl rfl, rfl, rfl⟩
  · rw [Queue.pushWait_aligned wrapped.alignQueueHead wrapped.alignQueueHead]
    exact wrapped.waited short

end Waits

section Calls

variable {q : Queue} {blocks later : List Block} {block : Block}

/-- The oldest block is at `tail`, ends inside the queue and before `head` if that is behind
it, and the others are held once `tail` has passed it. -/
structure Queue.Oldest (q : Queue) (block : Block) (later : List Block) : Prop where
  front : sizeofShmHead ≤ q.tail
  inside : q.tail + block.length ≤ q.length.toNat
  before : q.tail < q.head → q.tail + block.length ≤ q.head
  small : q.tail + block.length < 2 ^ 31
  stored : read q.mem q.tail block.length = block.encode
  later : ∀ blkCnt, Queue.Holds { q with tail := q.tail + block.length, blkCnt := blkCnt } later

/-- The oldest block is the first of the piece. -/
theorem Queue.Straight.oldest (straight : q.Straight (block :: later)) : q.Oldest block later := by
  obtain ⟨front, head, inside, small, lies⟩ := straight
  obtain ⟨stored, lies⟩ := lies.cons
  rw [encodeAll_cons, List.length_append, Block.length_encode] at head
  refine ⟨front, by omega, fun _ => by omega, by omega, stored, fun _ => .inl ?_⟩
  exact ⟨by simp only; omega, by simp only; omega, inside, small, lies⟩

/-- The oldest block is the first before the wrap. -/
theorem Queue.Wrapped.oldest {older newer : List Block} {stop : Int}
    (wrapped : q.Wrapped (block :: older) newer stop) : q.Oldest block (older ++ newer) := by
  obtain ⟨head, apart, reach, inside, small, mark, liesOlder, liesNewer⟩ := wrapped
  obtain ⟨stored, lies⟩ := liesOlder.cons
  rw [encodeAll_cons, List.length_append, Block.length_encode] at reach
  have front : sizeofShmHead ≤ q.tail := by omega
  refine ⟨front, by omega, fun behind => by omega, by omega, stored, fun _ => .inr ?_⟩
  refine ⟨older, newer, stop, rfl, head, ?_, ?_, inside, small, mark, lies, liesNewer⟩
  · simp only
    omega
  · simp only
    omega

/-- An aligned tail stands at the oldest block. -/
theorem Queue.Aligned.oldest (aligned : q.Aligned (block :: later)) : q.Oldest block later := by
  rcases aligned with straight | ⟨first, older, newer, stop, same, wrapped⟩
  · exact straight.oldest
  · obtain ⟨rfl, rfl⟩ := List.cons.inj same
    exact wrapped.oldest

/-- The check of `shmq_pop` finds nothing wrong with the oldest block. -/
theorem Queue.Oldest.not_overflow (oldest : q.Oldest block later) (head : 0 ≤ q.head)
    (small : q.head < 2 ^ 31) : ¬ q.overflow block.length := by
  obtain ⟨front, inside, before, ends, -, -⟩ := oldest
  unfold sizeofShmHead at front
  have next : u32 (q.tail + block.length) = q.tail + block.length := u32_eq (by omega) (by omega)
  have same : u32 q.head = q.head := u32_eq head (by omega)
  rintro (short | ⟨behind, beyond⟩ | ⟨-, beyond⟩)
  · unfold Block.length at short
    omega
  · omega
  · omega

/-- The head is a position in the memory. -/
theorem Queue.Holds.head_range (holds : q.Holds blocks) : 0 ≤ q.head ∧ q.head < 2 ^ 31 := by
  rcases holds with ⟨front, head, inside, small, -⟩ | ⟨older, newer, stop, -, wrapped⟩
  · unfold sizeofShmHead at front
    omega
  · obtain ⟨head, apart, reach, inside, small, -, -, -⟩ := wrapped
    unfold sizeofShmHead at head
    omega

/-- `shmq_pop` on a queue without blocks. -/
theorem Queue.Holds.pop_nil (holds : q.Holds []) : q.shmqPop = (.empty, q.alignQueueTail) := by
  unfold Queue.shmqPop
  rw [holds.popWait]
  rfl

@[simp] theorem Queue.alignQueueTail_keeps (q : Queue) :
    q.alignQueueTail.blkCnt = q.blkCnt ∧ q.alignQueueTail.length = q.length := by
  unfold Queue.alignQueueTail
  split
  · exact ⟨rfl, rfl⟩
  split
  · exact ⟨rfl, rfl⟩
  · exact ⟨rfl, rfl⟩

/-- `shmq_pop` returns the oldest block. -/
theorem Queue.Holds.pop_cons (holds : q.Holds (block :: later)) :
    q.shmqPop.1 = .block block.encode ∧ q.shmqPop.2.Holds later ∧
      q.shmqPop.2.blkCnt = q.blkCnt - 1 ∧ q.shmqPop.2.length = q.length := by
  have aligned := holds.alignQueueTail
  have oldest := aligned.oldest
  obtain ⟨low, high⟩ := aligned.holds.head_range
  have length := Block.lengthAt_stored oldest.stored
  have sane := oldest.not_overflow low high
  obtain ⟨blkCnt, size⟩ := q.alignQueueTail_keeps
  obtain ⟨front, -, -, small, stored, rest⟩ := oldest
  unfold sizeofShmHead at front
  unfold Queue.shmqPop
  rw [holds.popWait]
  rw [if_neg (List.cons_ne_nil _ _), if_pos rfl, length, if_neg sane, stored,
    i32_eq (by omega) small]
  exact ⟨rfl, rest _, by rw [blkCnt], size⟩

/-- The tail is an `int`. -/
theorem Queue.Holds.tail_lt (holds : q.Holds blocks) (apart : q.head < q.tail) :
    q.tail < 2 ^ 31 := by
  rcases holds with straight | ⟨older, newer, stop, -, wrapped⟩
  · have head := straight.head
    omega
  · have reach := wrapped.reach
    have small := wrapped.small
    omega

/-- A block written at the head comes last. -/
theorem Queue.Straight.write_block (straight : q.Straight blocks) (room : q.Room block.length)
    (small : q.head + block.length < 2 ^ 31) (blkCnt : Int) :
    Queue.Straight
      { q with
        mem := write q.mem q.head block.encode
        blkCnt := blkCnt
        head := q.head + block.length }
      (blocks ++ [block]) := by
  obtain ⟨front, head, -, -, lies⟩ := straight
  have inside : q.head + block.length ≤ q.length.toNat := (if_neg (by omega)).mp room
  refine ⟨front, ?_, inside, small, head ▸ lies.append block⟩
  rw [length_encodeAll_concat]
  simp only
  omega

/-- A block written at the head comes last, in front of the older ones. -/
theorem Queue.Wrapped.write_block {older newer : List Block} {stop : Int}
    (wrapped : q.Wrapped older newer stop) (room : q.Room block.length) (blkCnt : Int) :
    Queue.Wrapped
      { q with
        mem := write q.mem q.head block.encode
        blkCnt := blkCnt
        head := q.head + block.length }
      older (newer ++ [block]) stop := by
  obtain ⟨head, apart, reach, inside, small, mark, liesOlder, liesNewer⟩ := wrapped
  have before : q.head + block.length < q.tail := (if_pos apart).mp room
  refine ⟨?_, before, reach, inside, small, mark.imp_right ?_, ?_, head ▸ liesNewer.append block⟩
  · rw [length_encodeAll_concat]
    simp only
    omega
  · intro pad
    exact (write_apart (.inr (by rw [Block.length_encode]; omega))).trans pad
  · exact liesOlder.beside (.inr (by rw [Block.length_encode]; omega))

/-- A block written where there is room joins the others. -/
theorem Queue.Holds.write_block (holds : q.Holds blocks) (room : q.Room block.length)
    (small : q.head + block.length < 2 ^ 31) (blkCnt : Int) :
    Queue.Holds
      { q with
        mem := write q.mem q.head block.encode
        blkCnt := blkCnt
        head := q.head + block.length }
      (blocks ++ [block]) := by
  rcases holds with straight | ⟨older, newer, stop, rfl, wrapped⟩
  · exact .inl (straight.write_block room small blkCnt)
  · refine .inr ⟨older, newer ++ [block], stop, ?_, wrapped.write_block room blkCnt⟩
    rw [List.append_assoc]

/-- A block that is pushed does not move `head` beyond what an `int` holds. -/
def Queue.Fits (q : Queue) (block : Block) : Prop :=
  q.length.toNat < 2 ^ 31 ∨ q.head + block.length < 2 ^ 31

/-- The head behind a block that fits is still an `int`. -/
theorem Queue.Waited.head_lt {waited : Int × Queue} (after : q.Waited blocks block.length waited)
    (returned : waited.1 = 0) (fits : q.Fits block) : waited.2.head + block.length < 2 ^ 31 := by
  have room := after.room returned
  by_cases apart : waited.2.head < waited.2.tail
  · have before : waited.2.head + block.length < waited.2.tail := (if_pos apart).mp room
    have bound := after.holds.tail_lt apart
    omega
  · have inside : waited.2.head + block.length ≤ waited.2.length.toNat := (if_neg apart).mp room
    have same : waited.2.head = q.head := after.moved.resolve_right apart
    rw [after.length] at inside
    rcases fits with short | below
    · omega
    · omega

/-- `shmq_push` adds its block at the end, or fails and leaves the same blocks. -/
theorem Queue.Holds.push (holds : q.Holds blocks) (fits : q.Fits block) :
    ((q.shmqPush block).1 = 0 ∧ (q.shmqPush block).2.Holds (blocks ++ [block]) ∧
        (q.shmqPush block).2.blkCnt = q.blkCnt + 1 ∨
      (q.shmqPush block).1 = -1 ∧ (q.shmqPush block).2.Holds blocks ∧
        (q.shmqPush block).2.blkCnt = q.blkCnt) ∧
      (q.shmqPush block).2.length = q.length := by
  have short : block.length < 2 ^ 24 := block.length_lt
  have waited := holds.pushWait short
  obtain ⟨low, -⟩ := waited.holds.head_range
  unfold Queue.shmqPush
  by_cases returned : (q.pushWait block.length).1 = 0
  · have small := waited.head_lt returned fits
    rw [if_pos returned, i32_eq (by omega) small]
    exact ⟨.inl ⟨rfl, waited.holds.write_block (waited.room returned) small _,
      congrArg (· + 1) waited.blkCnt⟩, waited.length⟩
  · rw [if_neg returned]
    exact ⟨.inr ⟨rfl, waited.holds, waited.blkCnt⟩, waited.length⟩

/-- Each block lies in one piece behind the header. -/
theorem Lies.stored {mem : Int → UInt8} {start : Int} (lies : Lies mem start blocks)
    (member : block ∈ blocks) :
    ∃ position, start ≤ position ∧ position + block.length ≤ start + (encodeAll blocks).length ∧
      read mem position block.length = block.encode := by
  induction blocks generalizing start with
  | nil => cases member
  | cons first rest ih =>
    obtain ⟨stored, lies⟩ := lies.cons
    have length : (encodeAll (first :: rest)).length = first.length + (encodeAll rest).length := by
      rw [encodeAll_cons, List.length_append, Block.length_encode]
    rcases List.mem_cons.mp member with rfl | later
    · exact ⟨start, Int.le_refl _, by omega, stored⟩
    · obtain ⟨position, after, inside, found⟩ := ih lies later
      exact ⟨position, by omega, by omega, found⟩

/-- Every block queued lies in the memory, byte by byte. -/
theorem Queue.Holds.stored (holds : q.Holds blocks) (member : block ∈ blocks) :
    ∃ position, sizeofShmHead ≤ position ∧ position + block.length ≤ q.length.toNat ∧
      read q.mem position block.length = block.encode := by
  rcases holds with ⟨front, head, inside, -, lies⟩ | ⟨older, newer, stop, rfl, wrapped⟩
  · obtain ⟨position, after, before, found⟩ := lies.stored member
    exact ⟨position, by omega, by omega, found⟩
  · obtain ⟨head, apart, reach, inside, -, -, liesOlder, liesNewer⟩ := wrapped
    rcases List.mem_append.mp member with old | new
    · obtain ⟨position, after, before, found⟩ := liesOlder.stored old
      exact ⟨position, by omega, by omega, found⟩
    · obtain ⟨position, after, before, found⟩ := liesNewer.stored new
      exact ⟨position, after, by omega, found⟩

/-- What so many calls of `shmq_pop` return. -/
def Queue.drain : Nat → Queue → List Popped
  | 0, _ => []
  | count + 1, q => q.shmqPop.1 :: q.shmqPop.2.drain count

/-- The blocks held are what popping returns, one after the other. -/
theorem Queue.Holds.drain (holds : q.Holds blocks) :
    q.drain blocks.length = blocks.map fun block => .block block.encode := by
  induction blocks generalizing q with
  | nil => rfl
  | cons block later ih =>
    obtain ⟨returned, rest, -, -⟩ := holds.pop_cons
    exact congrArg₂ List.cons returned (ih rest)

end Calls

section Run

/-- A queue with the blocks that were pushed and not yet popped. -/
structure FifoQueue where
  queue : Queue
  fifo : List Block

inductive Call where
  | push (block : Block)
  | pop

def FifoQueue.step (ring : FifoQueue) : Call → FifoQueue
  | .push block =>
    let pushed := ring.queue.shmqPush block
    ⟨pushed.2, if pushed.1 = 0 then ring.fifo ++ [block] else ring.fifo⟩
  | .pop =>
    let popped := ring.queue.shmqPop
    match popped.1 with
    | .block _ => ⟨popped.2, ring.fifo.tail⟩
    | _ => ⟨popped.2, ring.fifo⟩

def FifoQueue.create (length : UInt32) : FifoQueue := ⟨Queue.create length, []⟩

def Call.Fits (ring : FifoQueue) : Call → Prop
  | .push block => ring.queue.Fits block
  | .pop => True

instance (q : Queue) (block : Block) : Decidable (q.Fits block) :=
  inferInstanceAs (Decidable (_ ∨ _))

instance Call.Fits.decidable (ring : FifoQueue) : ∀ call : Call, Decidable (call.Fits ring)
  | .push block => inferInstanceAs (Decidable (ring.queue.Fits block))
  | .pop => inferInstanceAs (Decidable True)

/-- What `shmq_pop` returns from a queue of blocks. -/
def poppedFrom : List Block → Popped
  | [] => .empty
  | block :: _ => .block block.encode

structure FifoQueue.Refines (length : UInt32) (ring : FifoQueue) : Prop where
  holds : ring.queue.Holds ring.fifo
  blkCnt : ring.queue.blkCnt = ring.fifo.length
  length : ring.queue.length = length

variable {length : UInt32} {ring : FifoQueue} {call : Call}

/-- A new queue holds nothing. -/
theorem FifoQueue.create_refines (header : sizeofShmHead ≤ length.toNat) :
    (FifoQueue.create length).Refines length where
  holds := .inl ⟨Int.le_refl _, rfl, header, (by decide : sizeofShmHead < 2 ^ 31), Lies.nil⟩
  blkCnt := rfl
  length := rfl

/-- Pushes and pops that fit do what a list does. -/
theorem FifoQueue.Refines.step (refines : ring.Refines length) (fits : call.Fits ring) :
    (ring.step call).Refines length := by
  obtain ⟨holds, blkCnt, size⟩ := refines
  cases call with
  | push block =>
    dsimp only [FifoQueue.step]
    obtain ⟨⟨returned, after, cnt⟩ | ⟨returned, after, cnt⟩, same⟩ := holds.push fits
    · rw [if_pos returned]
      refine ⟨after, ?_, same.trans size⟩
      rw [cnt, blkCnt, List.length_append]
      rfl
    · rw [if_neg (by rw [returned]; decide)]
      exact ⟨after, cnt.trans blkCnt, same.trans size⟩
  | pop =>
    dsimp only [FifoQueue.step]
    cases shape : ring.fifo with
    | nil =>
      rw [shape] at holds blkCnt
      obtain ⟨cnt, same⟩ := ring.queue.alignQueueTail_keeps
      rw [holds.pop_nil]
      exact ⟨holds.alignQueueTail.holds, cnt.trans blkCnt, same.trans size⟩
    | cons block later =>
      rw [shape] at holds blkCnt
      obtain ⟨returned, after, cnt, same⟩ := holds.pop_cons
      rw [returned]
      refine ⟨after, ?_, same.trans size⟩
      simp only [cnt, blkCnt, List.length_cons, List.tail_cons]
      omega

/-- A queue with room for its header, on which no push moves `head` beyond an `int`, is a
queue of blocks: a pop returns the oldest one, the check of `shmq_pop` passes, `blk_cnt`
counts them, each lies in one piece behind the header, and a push that fails leaves them as
they are. -/
theorem pops_return_pushed (header : sizeofShmHead ≤ length.toNat)
    (run : Runs.Reaches FifoQueue.step (fun ring call => call.Fits ring)
      (FifoQueue.create length) ring) :
    ring.queue.shmqPop.1 = poppedFrom ring.fifo ∧
      ring.queue.blkCnt = ring.fifo.length ∧
      (∀ block ∈ ring.fifo, ∃ position, sizeofShmHead ≤ position ∧
        position + block.length ≤ length.toNat ∧
        read ring.queue.mem position block.length = block.encode) ∧
      ∀ block, ring.queue.Fits block → (ring.queue.shmqPush block).1 ≠ 0 →
        (ring.queue.shmqPush block).2.drain ring.fifo.length
          = ring.queue.drain ring.fifo.length := by
  have refines : ring.Refines length := by
    apply run.invariant
    · exact FifoQueue.create_refines header
    · intro state call refines fits
      exact refines.step fits
  obtain ⟨holds, blkCnt, size⟩ := refines
  refine ⟨?_, blkCnt, ?_, ?_⟩
  · cases shape : ring.fifo with
    | nil =>
      rw [shape] at holds
      rw [holds.pop_nil]
      rfl
    | cons block later =>
      rw [shape] at holds
      exact holds.pop_cons.1
  · intro block member
    rw [← size]
    exact holds.stored member
  · intro block fits failed
    obtain ⟨⟨returned, -⟩ | ⟨-, after, -⟩, -⟩ := holds.push fits
    · exact absurd returned failed
    · rw [after.drain, holds.drain]

/-- A block of zeros. -/
def blankBlock (count : Nat) (bounded : count ≤ rcvBufMax) : Block where
  blkId := 1
  type := .dat
  rest := List.replicate 42 0
  data := List.replicate count 0
  real := nofun
  packed := rfl
  bounded := by rwa [List.length_replicate]

/-- A block is its header and its bytes. -/
theorem blankBlock_length {count : Nat} (bounded : count ≤ rcvBufMax) :
    (blankBlock count bounded).length = 55 + count := by
  unfold Block.length blankBlock sizeofShmBlock
  rw [List.length_replicate]

/-- A block of 100 bytes, whose data count from 0. -/
def numberedBlock : Block where
  blkId := 2
  type := .dat
  rest := List.replicate 42 1
  data := (List.range 45).map UInt8.ofNat
  real := nofun
  packed := rfl
  bounded := by decide

/-- In a queue of 362 bytes three blocks of 100 bytes leave 50 behind `head`, so the next one is
put at the front, with padding before the end. -/
def padded : FifoQueue :=
  [.push (blankBlock 45 (by decide)), .push (blankBlock 45 (by decide)),
    .push (blankBlock 45 (by decide)), .pop, .pop, .push numberedBlock, .pop].foldl
    FifoQueue.step (FifoQueue.create 362)

/-- The head has come round behind padding, and the block there is the next to be popped. -/
theorem pops_return_pushed_padded :
    padded.fifo = [numberedBlock] ∧ padded.queue.head = 112 ∧ padded.queue.tail = 312 ∧
      padded.queue.shmqPop.1 = .block numberedBlock.encode := by
  have left : padded.fifo = [numberedBlock] := by decide +kernel
  have run : Runs.Reaches FifoQueue.step (fun ring call => call.Fits ring)
      (FifoQueue.create 362) padded := Runs.Reaches.refl.follow (by decide +kernel)
  refine ⟨left, by decide +kernel, by decide +kernel, ?_⟩
  have popped := (pops_return_pushed (by decide) run).1
  rwa [left] at popped

/-- `mmap` gives whole pages. -/
def mapped (length : UInt32) : Int := (length.toNat + 4095) / 4096 * 4096

/-- On a queue shorter than its header `surplus` is negative and compares as a large number,
so the block is stored past the end, and past the page too. -/
theorem short_queue_overrun :
    ¬ ∀ (length : UInt32) (ring : FifoQueue), 0 < length.toNat →
      Runs.Reaches FifoQueue.step (fun _ _ => True) (FifoQueue.create length) ring →
      ∀ block ∈ ring.fifo, ∃ position, 0 ≤ position ∧
        position + block.length ≤ mapped length ∧
        read ring.queue.mem position block.length = block.encode := by
  intro claim
  obtain ⟨block, long⟩ : ∃ block : Block, block.length = 5000 :=
    ⟨blankBlock 4945 (by decide), blankBlock_length _⟩
  have room : ¬ u32 (i32 ((8 : UInt32).toNat - sizeofShmHead)) < (5000 : Nat) := by decide
  have first : (Queue.create 8).alignQueueHead block.length = (0, Queue.create 8) := by
    unfold Queue.alignQueueHead
    rw [long]
    exact if_neg room
  have waited := Queue.pushWait_aligned first first
  rw [if_neg (fun full => Int.lt_irrefl _ full.1)] at waited
  have queued : ((FifoQueue.create 8).step (.push block)).fifo = [block] := by
    have pushed : ((Queue.create 8).shmqPush block).1 = 0 := by
      unfold Queue.shmqPush
      rw [waited]
      rfl
    exact if_pos pushed
  have stored := claim 8 _ (by decide) (.call .refl trivial) block
    (queued ▸ List.mem_singleton.mpr rfl)
  obtain ⟨position, low, inside, -⟩ := stored
  have page : mapped 8 = 4096 := by decide
  rw [page, long] at inside
  omega

end Run

end Taomee.ServerBench.Shmq
