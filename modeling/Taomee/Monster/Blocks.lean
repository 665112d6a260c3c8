import Mathlib.Data.List.Pairwise
import Taomee.Library.FreeList
import Taomee.Library.Runs
import Taomee.Monster.Mempool

/-!
# monster: the blocks in use

The pool is called in any order by a client that frees only blocks it holds and writes only
inside them. What is beside the pool, the chunks `malloc` gave and the blocks in use, is kept
for the statements only.
-/

namespace Taomee.Monster

open FreeList Runs

structure State where
  pool : Mempool
  mem : Mem
  chunks : List Nat
  live : List Nat

/-- `store` is a word the client writes. -/
inductive Call where
  | alloc (malloc : Option Nat)
  | calloc (malloc : Option Nat)
  | free (data : Nat)
  | store (cell word : Nat)

/-- What the client has after an allocation that answered `p`. -/
def State.take (state : State) (malloc : Option Nat) : Nat × Mempool × Mem → State
  | (p, pool, mem) =>
    { pool, mem
      chunks := if state.pool.asksMalloc then malloc.toList ++ state.chunks else state.chunks
      live := if p = 0 then state.live else p :: state.live }

def step (state : State) : Call → State
  | .alloc malloc => state.take malloc (mempoolAlloc state.pool malloc state.mem)
  | .calloc malloc => state.take malloc (mempoolCalloc state.pool malloc state.mem)
  | .free data =>
    let (pool, mem) := mempoolFree state.pool data state.mem
    { state with pool, mem, live := state.live.erase data }
  | .store cell word => { state with mem := Function.update state.mem cell word }

/-- Two stretches of one length that share no byte. -/
def Apart (size first second : Nat) : Prop := first + size ≤ second ∨ second + size ≤ first

instance (size first second : Nat) : Decidable (Apart size first second) :=
  inferInstanceAs (Decidable (_ ∨ _))

/-- What `malloc` gives for `size` bytes: memory of its own inside the address space, on a
word boundary. -/
structure Granted (size : Nat) (chunks : List Nat) (chunk : Nat) : Prop where
  nonnull : chunk ≠ 0
  aligned : wordSize ∣ chunk
  inside : chunk + size ≤ 2 ^ 64
  apart : ∀ other ∈ chunks, Apart size chunk other

/-- The calls of the client: a count of references that `int` holds, blocks freed once, words
written in blocks in use. -/
def Allowed (state : State) : Call → Prop
  | .alloc malloc | .calloc malloc =>
    state.live.length + 1 < 2 ^ 31 ∧
      ∀ chunk ∈ malloc, Granted state.pool.allocSize state.chunks chunk
  | .free data => data ∈ state.live
  | .store cell _ =>
    wordSize ∣ cell ∧ ∃ block ∈ state.live, block ≤ cell ∧ cell < block + state.pool.itemSize

/-- The slot of a chunk with a number. -/
def slot (pool : Mempool) (chunk index : Nat) : Nat := chunk + wordSize + pool.itemSize * index

/-- What holds of the blocks between calls. -/
structure Sound (state : State) : Prop where
  apart : state.live.Pairwise (Apart state.pool.itemSize)
  slots : ∀ block ∈ state.live, wordSize ∣ block ∧ ∃ chunk ∈ state.chunks, ∃ index,
    block = slot state.pool chunk index ∧
      block + state.pool.itemSize ≤ chunk + state.pool.allocSize
  freed : ∃ freed, Chain 0 state.mem state.pool.reusePtr freed ∧ freed.Nodup ∧
    ∀ block ∈ freed, block ∉ state.live
  counted : state.pool.refCount = state.live.length

/-! ## Slots -/

/-- Blocks hold a word and fill a chunk up behind its link. -/
structure Sized (pool : Mempool) : Prop where
  word : wordSize ≤ pool.itemSize
  aligned : wordSize ∣ pool.itemSize
  nonempty : 0 < pool.totalAllocItem
  fits : wordSize + pool.itemSize * pool.totalAllocItem ≤ pool.allocSize
  below : pool.allocSize < 2 ^ 64

/-- A slot given out before: in the current chunk those below the position. -/
def Used (pool : Mempool) (chunks : List Nat) (block : Nat) : Prop :=
  ∃ chunk ∈ chunks, ∃ index < pool.totalAllocItem, block = slot pool chunk index ∧
    (chunk = pool.allocPtr → index < pool.allocPoolPos)

variable {pool : Mempool} {chunks : List Nat} {chunk block other size : Nat}

theorem Apart.symm (apart : Apart size block other) : Apart size other block := Or.symm apart

instance : Std.Symm (Apart size) := ⟨fun _ _ => Apart.symm⟩

/-- A slot of a chunk lies inside of it. -/
theorem Sized.slot_inside (sized : Sized pool) (chunk : Nat) {index : Nat}
    (below : index < pool.totalAllocItem) :
    slot pool chunk index + pool.itemSize ≤ chunk + pool.allocSize := by
  have item : pool.itemSize * (index + 1) ≤ pool.itemSize * pool.totalAllocItem :=
    Nat.mul_le_mul_left _ below
  have fits := sized.fits
  rw [Nat.mul_succ] at item
  unfold slot
  omega

/-- Slots of an aligned chunk are aligned. -/
theorem Sized.slot_aligned (sized : Sized pool) (aligned : wordSize ∣ chunk) (index : Nat) :
    wordSize ∣ slot pool chunk index :=
  Nat.dvd_add (Nat.dvd_add aligned (Nat.dvd_refl _)) (Nat.dvd_mul_right_of_dvd sized.aligned index)

/-- The first word of a chunk is no slot. -/
theorem chunk_lt_slot (pool : Mempool) (chunk index : Nat) : chunk < slot pool chunk index := by
  unfold slot wordSize
  omega

/-- A slot ends before the next begins. -/
theorem slot_apart_of_lt (pool : Mempool) (chunk : Nat) {first second : Nat}
    (less : first < second) : slot pool chunk first + pool.itemSize ≤ slot pool chunk second := by
  have item : pool.itemSize * (first + 1) ≤ pool.itemSize * second := Nat.mul_le_mul_left _ less
  rw [Nat.mul_succ] at item
  unfold slot
  omega

/-- Two slots are one or share no byte, in one chunk or in two. -/
theorem Sized.slots_apart (sized : Sized pool)
    (chunksApart : chunks.Pairwise (Apart pool.allocSize))
    {chunk' index index' : Nat} (member : chunk ∈ chunks) (member' : chunk' ∈ chunks)
    (below : index < pool.totalAllocItem) (below' : index' < pool.totalAllocItem)
    (distinct : slot pool chunk index ≠ slot pool chunk' index') :
    Apart pool.itemSize (slot pool chunk index) (slot pool chunk' index') := by
  by_cases same : chunk = chunk'
  · subst same
    rcases Nat.lt_trichotomy index index' with less | rfl | more
    · exact .inl (slot_apart_of_lt pool chunk less)
    · exact absurd rfl distinct
    · exact .inr (slot_apart_of_lt pool chunk more)
  · have apart := chunksApart.forall member member' same
    have inside := sized.slot_inside chunk below
    have inside' := sized.slot_inside chunk' below'
    have behind := chunk_lt_slot pool chunk index
    have behind' := chunk_lt_slot pool chunk' index'
    rcases apart with before | after
    · exact .inl (by omega)
    · exact .inr (by omega)

/-- Two slots that are in use do not overlap. -/
theorem Used.apart (sized : Sized pool) (chunksApart : chunks.Pairwise (Apart pool.allocSize))
    (used : Used pool chunks block) (used' : Used pool chunks other) (distinct : block ≠ other) :
    Apart pool.itemSize block other := by
  obtain ⟨chunk, member, index, below, rfl, -⟩ := used
  obtain ⟨chunk', member', index', below', rfl, -⟩ := used'
  exact sized.slots_apart chunksApart member member' below below' distinct

/-- The slot at the position has not been given out. -/
theorem Sized.next_fresh (sized : Sized pool) (chunksApart : chunks.Pairwise (Apart pool.allocSize))
    (current : pool.allocPtr ∈ chunks) (room : pool.allocPoolPos < pool.totalAllocItem)
    (used : Used pool chunks block) : block ≠ slot pool pool.allocPtr pool.allocPoolPos := by
  obtain ⟨chunk, member, index, below, rfl, passed⟩ := used
  by_cases same : chunk = pool.allocPtr
  · subst same
    have before := slot_apart_of_lt pool pool.allocPtr (passed rfl)
    have word := sized.word
    unfold wordSize at word
    omega
  · have apart := chunksApart.forall member current same
    have inside := sized.slot_inside chunk below
    have inside' := sized.slot_inside pool.allocPtr room
    have behind := chunk_lt_slot pool chunk index
    have behind' := chunk_lt_slot pool pool.allocPtr pool.allocPoolPos
    rcases apart with before | after <;> omega

/-! ## What every call keeps -/

/-- Blocks given out are either free or in use, and memory links the free ones. -/
structure Kept (state : State) (freed : List Nat) : Prop where
  sized : Sized state.pool
  granted : ∀ chunk ∈ state.chunks, wordSize ∣ chunk ∧ chunk + state.pool.allocSize ≤ 2 ^ 64
  chunksApart : state.chunks.Pairwise (Apart state.pool.allocSize)
  current : state.pool.allocPtr ∈ state.chunks
  within : state.pool.allocPoolPos ≤ state.pool.totalAllocItem
  chain : Chain 0 state.mem state.pool.reusePtr freed
  nodup : (freed ++ state.live).Nodup
  used : ∀ block ∈ freed ++ state.live, Used state.pool state.chunks block
  counted : state.pool.refCount = state.live.length
  few : state.live.length < 2 ^ 31

variable {state : State} {freed : List Nat}

/-- No block is null. -/
theorem Kept.nonnull (kept : Kept state freed) (member : block ∈ freed ++ state.live) :
    block ≠ 0 := by
  obtain ⟨chunk, -, index, -, rfl, -⟩ := kept.used block member
  exact Nat.ne_of_gt (Nat.zero_lt_of_lt (chunk_lt_slot state.pool chunk index))

/-- Two blocks, freed or live, do not overlap. -/
theorem Kept.apart (kept : Kept state freed) (member : block ∈ freed ++ state.live)
    (member' : other ∈ freed ++ state.live) (distinct : block ≠ other) :
    Apart state.pool.itemSize block other :=
  (kept.used block member).apart kept.sized kept.chunksApart (kept.used other member') distinct

/-- What is kept of a pool makes its live blocks sound. -/
theorem Kept.sound (kept : Kept state freed) : Sound state where
  apart := by
    have distinct := (List.nodup_append.mp kept.nodup).2.1
    refine List.Pairwise.imp_of_mem ?_ distinct
    intro block other member member' ne
    exact kept.apart (List.mem_append_right _ member) (List.mem_append_right _ member') ne
  slots := by
    intro block member
    obtain ⟨chunk, among, index, below, rfl, -⟩ := kept.used block (List.mem_append_right _ member)
    exact ⟨kept.sized.slot_aligned (kept.granted chunk among).1 index, chunk, among, index, rfl,
      kept.sized.slot_inside chunk below⟩
  freed := by
    have parts := List.nodup_append.mp kept.nodup
    exact ⟨freed, kept.chain, parts.1,
      fun block member live => parts.2.2 block member block live rfl⟩
  counted := kept.counted

/-- The counter goes up without wrapping. -/
theorem Kept.incRefcount (kept : Kept state freed) (room : state.live.length + 1 < 2 ^ 31) :
    (state.pool.refCount + 1).bmod (2 ^ 32) = (state.live.length + 1 : Nat) := by
  have counted := kept.counted
  rw [Int.bmod_eq_of_le (by omega) (by omega)]
  omega

/-- A block off the free list. -/
theorem Kept.reuse (kept : Kept state freed) (head : state.pool.reusePtr ≠ 0)
    (room : state.live.length + 1 < 2 ^ 31) :
    ∃ rest, Kept
      { state with
        pool := { state.pool with reusePtr := state.mem state.pool.reusePtr }.incRefcount
        live := state.pool.reusePtr :: state.live } rest := by
  obtain ⟨rest, rfl, tail⟩ := kept.chain.pop head
  have moved : (rest ++ state.pool.reusePtr :: state.live).Perm
      (state.pool.reusePtr :: rest ++ state.live) := List.perm_middle
  exact ⟨rest, {
    sized := { kept.sized with }
    granted := kept.granted
    chunksApart := kept.chunksApart
    current := kept.current
    within := kept.within
    chain := tail
    nodup := moved.nodup_iff.mpr kept.nodup
    used := fun block member => kept.used block (moved.mem_iff.mp member)
    counted := kept.incRefcount room
    few := room }⟩

/-- A slot that was never given out. -/
theorem Kept.bump (kept : Kept state freed)
    (room : state.pool.allocPoolPos < state.pool.totalAllocItem)
    (few : state.live.length + 1 < 2 ^ 31) :
    state.pool.bump.1 ≠ 0 ∧ Kept
      { state with pool := state.pool.bump.2, live := state.pool.bump.1 :: state.live } freed := by
  have inside := kept.sized.slot_inside state.pool.allocPtr room
  have end_ := (kept.granted _ kept.current).2
  have word := kept.sized.word
  have total := kept.sized.fits
  have below := kept.sized.below
  have place : state.pool.bump.1 = slot state.pool state.pool.allocPtr state.pool.allocPoolPos := by
    apply Nat.mod_eq_of_lt
    unfold slot wordSize at *
    omega
  have next : sizeT (state.pool.allocPoolPos + 1) = state.pool.allocPoolPos + 1 := by
    apply Nat.mod_eq_of_lt
    have items : state.pool.totalAllocItem ≤ state.pool.itemSize * state.pool.totalAllocItem :=
      Nat.le_mul_of_pos_left _ (by unfold wordSize at word; omega)
    omega
  have fresh : ∀ block ∈ freed ++ state.live, block ≠ state.pool.bump.1 := by
    intro block member
    rw [place]
    exact kept.sized.next_fresh kept.chunksApart kept.current room (kept.used block member)
  have moved : (freed ++ state.pool.bump.1 :: state.live).Perm
      (state.pool.bump.1 :: (freed ++ state.live)) := List.perm_middle
  refine ⟨?_, {
    sized := { kept.sized with }
    granted := kept.granted
    chunksApart := kept.chunksApart
    current := kept.current
    within := ?within
    chain := kept.chain
    nodup := ?nodup
    used := ?used
    counted := kept.incRefcount few
    few := few }⟩
  · rw [place]
    exact Nat.ne_of_gt (Nat.zero_lt_of_lt (chunk_lt_slot ..))
  case within =>
    show sizeT (state.pool.allocPoolPos + 1) ≤ state.pool.totalAllocItem
    omega
  case nodup =>
    exact moved.nodup_iff.mpr (List.nodup_cons.mpr ⟨fun member => fresh _ member rfl, kept.nodup⟩)
  case used =>
    intro block member
    rcases List.mem_cons.mp (moved.mem_iff.mp member) with rfl | before
    · refine ⟨state.pool.allocPtr, kept.current, state.pool.allocPoolPos, room, place, fun _ => ?_⟩
      show state.pool.allocPoolPos < sizeT (state.pool.allocPoolPos + 1)
      omega
    · obtain ⟨chunk, among, index, bound, rfl, passed⟩ := kept.used block before
      refine ⟨chunk, among, index, bound, rfl, fun same => ?_⟩
      have earlier := passed same
      show index < sizeT (state.pool.allocPoolPos + 1)
      omega

/-- A word outside the free blocks may change. -/
theorem Kept.store (kept : Kept state freed) {cell : Nat} (apart : cell ∉ freed) (word : Nat) :
    Kept { state with mem := Function.update state.mem cell word } freed :=
  { kept with chain := kept.chain.store apart word }

/-- A chunk of its own, with the link to the one before it. -/
theorem Kept.grow (kept : Kept state freed)
    (granted : Granted state.pool.allocSize state.chunks chunk) :
    Kept
      { state with
        pool := { state.pool with allocPtr := chunk, allocPoolPos := 0 }
        mem := Function.update state.mem chunk state.pool.allocPtr
        chunks := chunk :: state.chunks } freed := by
  have room : 0 < state.pool.allocSize := by
    have fits := kept.sized.fits
    unfold wordSize at fits
    omega
  have other : chunk ∉ state.chunks := by
    intro member
    rcases granted.apart chunk member with before | after <;> omega
  have unlinked : chunk ∉ freed := by
    intro member
    obtain ⟨home, among, index, bound, rfl, -⟩ := kept.used chunk (List.mem_append_left _ member)
    have inside := kept.sized.slot_inside home bound
    have behind := chunk_lt_slot state.pool home index
    have word := kept.sized.word
    unfold wordSize at word
    rcases granted.apart home among with before | after <;> omega
  exact {
    sized := { kept.sized with }
    granted := List.forall_mem_cons.mpr ⟨⟨granted.aligned, granted.inside⟩, kept.granted⟩
    chunksApart := List.pairwise_cons.mpr ⟨granted.apart, kept.chunksApart⟩
    current := List.mem_cons_self ..
    within := Nat.zero_le _
    chain := kept.chain.store unlinked _
    nodup := kept.nodup
    used := by
      intro block member
      obtain ⟨home, among, index, bound, rfl, -⟩ := kept.used block member
      exact ⟨home, List.mem_cons_of_mem _ among, index, bound, rfl,
        fun same => absurd among (same.symm ▸ other)⟩
    counted := kept.counted
    few := kept.few }

/-- A block that is freed comes to the head of the freed ones. -/
theorem Kept.free (kept : Kept state freed) {data : Nat} (member : data ∈ state.live) :
    Kept (step state (.free data)) (data :: freed) := by
  have distinct := List.nodup_append.mp kept.nodup
  have gone : (data :: freed ++ state.live.erase data).Perm (freed ++ state.live) := by
    have back := (List.perm_cons_erase member).append_left freed
    exact (back.trans List.perm_middle).symm
  have fewer : (state.live.erase data).length + 1 = state.live.length := by
    have some_ := List.length_pos_of_mem member
    rw [List.length_erase_of_mem member]
    omega
  have apart : data ∉ freed := fun listed => distinct.2.2 data listed data member rfl
  have nonnull : data ≠ 0 := kept.nonnull (List.mem_append_right _ member)
  exact {
    sized := { kept.sized with }
    granted := kept.granted
    chunksApart := kept.chunksApart
    current := kept.current
    within := kept.within
    chain := kept.chain.push nonnull apart
    nodup := gone.nodup_iff.mpr kept.nodup
    used := fun block listed => kept.used block (gone.mem_iff.mp listed)
    counted := by
      have counted := kept.counted
      have few := kept.few
      show (state.pool.refCount - 1).bmod (2 ^ 32) = ((state.live.erase data).length : Int)
      rw [Int.bmod_eq_of_le (by omega) (by omega)]
      omega
    few := by
      have few := kept.few
      show (state.live.erase data).length < 2 ^ 31
      omega }

/-! ## Runs -/

/-- A freed block is given out again first. -/
theorem step_alloc_reuse (head : state.pool.reusePtr ≠ 0) (malloc : Option Nat) :
    step state (.alloc malloc) =
      { state with
        pool := { state.pool with reusePtr := state.mem state.pool.reusePtr }.incRefcount
        live := state.pool.reusePtr :: state.live } := by
  simp [step, State.take, mempoolAlloc, Mempool.asksMalloc, head]

/-- Otherwise the next slot of the last chunk is. -/
theorem step_alloc_bump (head : state.pool.reusePtr = 0)
    (room : state.pool.allocPoolPos ≠ state.pool.totalAllocItem)
    (place : state.pool.bump.1 ≠ 0) (malloc : Option Nat) :
    step state (.alloc malloc) =
      { state with pool := state.pool.bump.2, live := state.pool.bump.1 :: state.live } := by
  simp [step, State.take, mempoolAlloc, Mempool.asksMalloc, head, room, place]

/-- Without memory a full pool gives nothing. -/
theorem step_alloc_none (head : state.pool.reusePtr = 0)
    (full : state.pool.allocPoolPos = state.pool.totalAllocItem) :
    step state (.alloc none) = state := by
  simp [step, State.take, mempoolAlloc, head, full]

/-- A new chunk is taken first, and then its first slot. -/
theorem step_alloc_grow (head : state.pool.reusePtr = 0)
    (full : state.pool.allocPoolPos = state.pool.totalAllocItem)
    (place : { state.pool with allocPtr := chunk, allocPoolPos := 0 }.bump.1 ≠ 0) :
    step state (.alloc (some chunk)) =
      { pool := { state.pool with allocPtr := chunk, allocPoolPos := 0 }.bump.2
        mem := Function.update state.mem chunk state.pool.allocPtr
        chunks := chunk :: state.chunks
        live :=
          { state.pool with allocPtr := chunk, allocPoolPos := 0 }.bump.1 :: state.live } := by
  simp only [step, State.take, mempoolAlloc, Mempool.asksMalloc, full]
  simpa [head] using place

/-- An allocation keeps the blocks apart. -/
theorem Kept.alloc (kept : Kept state freed) {malloc : Option Nat}
    (allowed : Allowed state (.alloc malloc)) :
    ∃ freed, Kept (step state (.alloc malloc)) freed := by
  obtain ⟨few, granted⟩ := allowed
  by_cases head : state.pool.reusePtr = 0
  · by_cases full : state.pool.allocPoolPos = state.pool.totalAllocItem
    · cases malloc with
      | none =>
        rw [step_alloc_none head full]
        exact ⟨freed, kept⟩
      | some chunk =>
        have grown := kept.grow (granted chunk rfl)
        obtain ⟨place, kept'⟩ := grown.bump kept.sized.nonempty few
        rw [step_alloc_grow head full place]
        exact ⟨freed, kept'⟩
    · obtain ⟨place, kept'⟩ := kept.bump (Nat.lt_of_le_of_ne kept.within full) few
      rw [step_alloc_bump head full place]
      exact ⟨freed, kept'⟩
  · rw [step_alloc_reuse head]
    exact kept.reuse head few

/-- `mempool_calloc` is `mempool_alloc` and a word cleared in the new block. -/
theorem step_calloc (state : State) (malloc : Option Nat) :
    let p := (mempoolAlloc state.pool malloc state.mem).1
    let state' := step state (.alloc malloc)
    step state (.calloc malloc) =
      if p ≠ 0 then { state' with mem := Function.update state'.mem p 0 } else state' := by
  simp only [step, mempoolCalloc]
  split <;> rfl

/-- The block given is live. -/
theorem mem_live_alloc {malloc : Option Nat}
    (place : (mempoolAlloc state.pool malloc state.mem).1 ≠ 0) :
    (mempoolAlloc state.pool malloc state.mem).1 ∈ (step state (.alloc malloc)).live := by
  simp [step, State.take, place]

/-- A live block is not among the freed ones. -/
theorem Kept.not_mem_freed (kept : Kept state freed) (member : block ∈ state.live) :
    block ∉ freed :=
  fun listed => (List.nodup_append.mp kept.nodup).2.2 block listed block member rfl

/-- A client's word inside a block in use is in no free block. -/
theorem Kept.inside_not_freed (kept : Kept state freed) {cell : Nat} (member : block ∈ state.live)
    (low : block ≤ cell) (high : cell < block + state.pool.itemSize) : cell ∉ freed := by
  intro listed
  have distinct : cell ≠ block := fun same => kept.not_mem_freed member (same ▸ listed)
  have apart := kept.apart (List.mem_append_left _ listed) (List.mem_append_right _ member) distinct
  rcases apart with before | after <;> omega

/-- Every allowed call keeps the blocks apart. -/
theorem Kept.step (kept : Kept state freed) {call : Call} (allowed : Allowed state call) :
    ∃ freed, Kept (Monster.step state call) freed := by
  cases call with
  | alloc malloc => exact kept.alloc allowed
  | calloc malloc =>
    have asked : Allowed state (.alloc malloc) := allowed
    obtain ⟨freed', kept'⟩ := kept.alloc asked
    rw [step_calloc]
    split
    case isTrue place =>
      exact ⟨freed', kept'.store (kept'.not_mem_freed (mem_live_alloc place)) 0⟩
    case isFalse => exact ⟨freed', kept'⟩
  | free data => exact ⟨_, kept.free allowed⟩
  | store cell word =>
    obtain ⟨-, block, member, low, high⟩ := allowed
    exact ⟨freed, kept.store (kept.inside_not_freed member low high) word⟩

/-! ## The sizes -/

/-- The least multiple of `unit` from `n` on. -/
def roundUp (unit n : Nat) : Nat := (n + unit - 1) / unit * unit

/-- Neither size is rounded past `2 ^ 64`, and a chunk holds its link and a block. -/
def Roomy (itemSize allocSize pagesize : Nat) : Prop :=
  let item := roundUp 8 (max itemSize 8)
  let chunk := roundUp pagesize (max allocSize (max ((100 * item + 8) % 2 ^ 64) (100 * pagesize)))
  item < 2 ^ 64 ∧ chunk < 2 ^ 64 ∧ item + 8 ≤ chunk

instance (itemSize allocSize pagesize : Nat) : Decidable (Roomy itemSize allocSize pagesize) :=
  inferInstanceAs (Decidable (_ ∧ _))

/-- `roundUp` as the code computes it. -/
theorem roundUp_eq {unit : Nat} (positive : 0 < unit) (n : Nat) :
    roundUp unit n = if n % unit ≠ 0 then n + unit - n % unit else n := by
  have parts := Nat.div_add_mod' n unit
  have small := Nat.mod_lt n positive
  have next : (n / unit + 1) * unit = n / unit * unit + unit := Nat.succ_mul ..
  have next' : (n / unit + 1 + 1) * unit = (n / unit + 1) * unit + unit := Nat.succ_mul ..
  unfold roundUp
  split
  case isTrue rest =>
    have quotient : (n + unit - 1) / unit = n / unit + 1 :=
      Nat.div_eq_of_lt_le (by omega) (by omega)
    rw [quotient]
    omega
  case isFalse whole =>
    have quotient : (n + unit - 1) / unit = n / unit := Nat.div_eq_of_lt_le (by omega) (by omega)
    rw [quotient]
    omega

/-- The size of a block, at least a word and whole words. -/
theorem correctedItemSize_eq (below : roundUp 8 (max itemSize 8) < 2 ^ 64) :
    correctedItemSize itemSize = roundUp 8 (max itemSize 8) := by
  have least : (if itemSize < wordSize then wordSize else itemSize) = max itemSize 8 := by
    unfold wordSize
    split <;> omega
  rw [roundUp_eq (by decide)] at below ⊢
  simp only [correctedItemSize, least]
  by_cases rest : max itemSize 8 % 8 ≠ 0
  · rw [if_pos rest] at below ⊢
    exact (if_pos rest).trans (Nat.mod_eq_of_lt below)
  · rw [if_neg rest]
    exact if_neg rest

/-- The size of a chunk before and after the rounding to pages. -/
theorem correctedAllocSize_rounds (itemSize allocSize pagesize : Nat) :
    correctedAllocSize itemSize allocSize pagesize =
      let size := max allocSize (max ((100 * itemSize + 8) % 2 ^ 64) (100 * pagesize))
      if size % pagesize ≠ 0 then sizeT (size + pagesize - size % pagesize) else size := by
  rw [Nat.mul_comm 100 itemSize]
  have least : (if allocSize ≤ sizeT (itemSize * defaultAllocSize + wordSize)
      then sizeT (itemSize * defaultAllocSize + wordSize) else allocSize)
      = max allocSize ((itemSize * 100 + 8) % 2 ^ 64) := by
    unfold sizeT wordSize defaultAllocSize
    split <;> omega
  have pages (size : Nat) : (if size ≤ defaultAllocSize * pagesize
      then defaultAllocSize * pagesize else size) = max size (100 * pagesize) := by
    unfold defaultAllocSize
    split <;> omega
  simp only [correctedAllocSize, least, pages, Nat.max_assoc]

/-- The size of a chunk, whole pages and at least a hundred. -/
theorem correctedAllocSize_eq (positive : 0 < pagesize)
    (below : roundUp pagesize (max allocSize (max ((100 * itemSize + 8) % 2 ^ 64) (100 * pagesize)))
      < 2 ^ 64) :
    correctedAllocSize itemSize allocSize pagesize =
      roundUp pagesize (max allocSize (max ((100 * itemSize + 8) % 2 ^ 64) (100 * pagesize))) := by
  rw [correctedAllocSize_rounds]
  rw [roundUp_eq positive] at below ⊢
  dsimp only
  split
  case isTrue rest =>
    rw [if_pos rest] at below
    exact Nat.mod_eq_of_lt below
  case isFalse => rfl

variable {itemSize allocSize pagesize : Nat} {mem mem' : Mem}

/-- A pool just made, with its first chunk. -/
theorem kept_mempoolCreate (positive : 0 < pagesize) (roomy : Roomy itemSize allocSize pagesize)
    (created : mempoolCreate itemSize allocSize pagesize true (some chunk) mem = some (pool, mem'))
    (granted : Granted pool.allocSize [] chunk) :
    Kept { pool, mem := mem', chunks := [chunk], live := [] } [] := by
  obtain ⟨itemBelow, chunkBelow, room⟩ := roomy
  have itemEq := correctedItemSize_eq itemBelow
  have word : 8 ≤ roundUp 8 (max itemSize 8) := by
    unfold roundUp
    omega
  have aligned : 8 ∣ roundUp 8 (max itemSize 8) := Nat.dvd_mul_left 8 _
  have chunkEq := correctedAllocSize_eq positive chunkBelow
  generalize roundUp 8 (max itemSize 8) = item at *
  generalize roundUp pagesize _ = size at *
  simp [mempoolCreate, itemEq, chunkEq] at created
  obtain ⟨rfl, rfl⟩ := created
  have total : sizeT (2 ^ 64 + size - wordSize) = size - 8 := by
    unfold sizeT wordSize
    omega
  have items : (size - 8) / item * item ≤ size - 8 := Nat.div_mul_le_self ..
  have one : 1 ≤ (size - 8) / item := (Nat.one_le_div_iff (by omega)).mpr (by omega)
  exact {
    sized := {
      word := word
      aligned := aligned
      nonempty := by
        show 0 < sizeT (2 ^ 64 + size - wordSize) / item
        rw [total]
        exact one
      fits := by
        show wordSize + item * (sizeT (2 ^ 64 + size - wordSize) / item) ≤ size
        rw [total, Nat.mul_comm]
        unfold wordSize
        omega
      below := chunkBelow }
    granted := by simpa using ⟨granted.aligned, granted.inside⟩
    chunksApart := List.pairwise_singleton ..
    current := List.mem_singleton_self _
    within := Nat.zero_le _
    chain := .nil
    nodup := List.nodup_nil
    used := by simp
    counted := rfl
    few := by simp }

/-- In every run of allowed calls, on a pool whose sizes are not rounded out of range, the
blocks in use are aligned slots of the chunks that share no byte, the free list holds each of
its blocks once and none of theirs, and the count is their number. -/
theorem blocks_sound (positive : 0 < pagesize) (roomy : Roomy itemSize allocSize pagesize)
    (created : mempoolCreate itemSize allocSize pagesize true (some chunk) mem = some (pool, mem'))
    (granted : Granted pool.allocSize [] chunk) {state : State}
    (run : Reaches step Allowed { pool, mem := mem', chunks := [chunk], live := [] } state) :
    Sound state := by
  have kept : ∃ freed, Kept state freed := by
    apply run.invariant ⟨[], kept_mempoolCreate positive roomy created granted⟩
    rintro state call ⟨freed, kept⟩ allowed
    exact kept.step allowed
  obtain ⟨freed, kept⟩ := kept
  exact kept.sound

/-- Two blocks taken, one given back and taken again, with a word written in the other. -/
theorem blocks_sound_reused :
    Sound ([.alloc none, .calloc none, .free 4104, .store 4128 7, .alloc none].foldl step
      { pool :=
          { itemSize := 24, allocSize := 409600, totalAllocItem := 17066
            reusePtr := 0, allocPtr := 4096, allocPoolPos := 0, refCount := 0 }
        mem := Function.update (fun _ => 0) 4096 0, chunks := [4096], live := [] }) := by
  have created : mempoolCreate 20 0 4096 true (some 4096) (fun _ => 0) = some
      ({ itemSize := 24, allocSize := 409600, totalAllocItem := 17066
         reusePtr := 0, allocPtr := 4096, allocPoolPos := 0, refCount := 0 },
        Function.update (fun _ => 0) 4096 0) := rfl
  have roomy : Roomy 20 0 4096 := by decide +kernel
  refine blocks_sound (by decide) roomy created ⟨by decide, by decide, by decide, by simp⟩
    (Reaches.refl.follow ⟨⟨by decide, by simp⟩, ⟨by decide, by simp⟩, ?_,
      ⟨by decide, 4128, by decide +kernel, by decide, by decide⟩, ⟨by decide, by simp⟩, trivial⟩)
  show 4104 ∈ State.live _
  decide +kernel

/-- Blocks of `2 ^ 62` bytes: a hundred of them come to 0 bytes, and the first block does not fit
in its chunk. -/
theorem block_outside :
    ¬ ∀ (itemSize allocSize pagesize chunk : Nat) (pool : Mempool) (mem mem' : Mem) (state : State),
      0 < pagesize →
      mempoolCreate itemSize allocSize pagesize true (some chunk) mem = some (pool, mem') →
      Granted pool.allocSize [] chunk →
      Reaches step Allowed { pool, mem := mem', chunks := [chunk], live := [] } state →
      Sound state := by
  intro claim
  let pool : Mempool :=
    { itemSize := 2 ^ 62, allocSize := 409600, totalAllocItem := 0
      reusePtr := 0, allocPtr := 4096, allocPoolPos := 0, refCount := 0 }
  let first : State :=
    { pool, mem := Function.update (fun _ => 0) 4096 0, chunks := [4096], live := [] }
  have granted : Granted 409600 [4096] (2 ^ 20) := ⟨by decide, by decide, by decide, by decide⟩
  have allowed : Allowed first (.alloc (some (2 ^ 20))) := ⟨by decide, by simpa using granted⟩
  have sound := claim (2 ^ 62) 0 4096 4096 pool (fun _ => 0) first.mem _ (by decide) rfl
    ⟨by decide, by decide, by decide, by simp⟩ (.call .refl allowed)
  obtain ⟨-, chunk, among, -, -, inside⟩ := sound.slots (2 ^ 20 + 8) (by decide +kernel)
  have listed : chunk ∈ [2 ^ 20, 4096] := among
  have either : chunk = 2 ^ 20 ∨ chunk = 4096 := by simpa using listed
  have beyond : 2 ^ 20 + 8 + 2 ^ 62 ≤ chunk + 409600 := inside
  omega

/-! ## No slot is lost -/

/-- The blocks free or in use are as many as all slots but those past the position. -/
def Whole (state : State) (freed : List Nat) : Prop :=
  freed.length + state.live.length + state.pool.totalAllocItem =
    state.chunks.length * state.pool.totalAllocItem + state.pool.allocPoolPos

/-- The position of the next slot does not wrap. -/
theorem Sized.next_pos (sized : Sized pool) (room : pool.allocPoolPos < pool.totalAllocItem) :
    sizeT (pool.allocPoolPos + 1) = pool.allocPoolPos + 1 := by
  have items : pool.totalAllocItem ≤ pool.itemSize * pool.totalAllocItem :=
    Nat.le_mul_of_pos_left _ (Nat.lt_of_lt_of_le (by decide) sized.word)
  have fits := sized.fits
  have below := sized.below
  exact Nat.mod_eq_of_lt (by omega)

/-- No slot is lost by an allocation. -/
theorem Kept.alloc_whole (kept : Kept state freed) (whole : Whole state freed) {malloc : Option Nat}
    (allowed : Allowed state (.alloc malloc)) :
    ∃ freed, Kept (Monster.step state (.alloc malloc)) freed ∧
      Whole (Monster.step state (.alloc malloc)) freed := by
  obtain ⟨few, granted⟩ := allowed
  unfold Whole at whole ⊢
  by_cases head : state.pool.reusePtr = 0
  · by_cases full : state.pool.allocPoolPos = state.pool.totalAllocItem
    · cases malloc with
      | none =>
        rw [step_alloc_none head full]
        exact ⟨freed, kept, whole⟩
      | some chunk =>
        obtain ⟨place, kept'⟩ := (kept.grow (granted chunk rfl)).bump kept.sized.nonempty few
        rw [step_alloc_grow head full place]
        refine ⟨freed, kept', ?_⟩
        show freed.length + (state.live.length + 1) + state.pool.totalAllocItem =
          (state.chunks.length + 1) * state.pool.totalAllocItem + 1
        rw [Nat.succ_mul]
        omega
    · have room := Nat.lt_of_le_of_ne kept.within full
      obtain ⟨place, kept'⟩ := kept.bump room few
      rw [step_alloc_bump head full place]
      refine ⟨freed, kept', ?_⟩
      show freed.length + (state.live.length + 1) + state.pool.totalAllocItem =
        state.chunks.length * state.pool.totalAllocItem + sizeT (state.pool.allocPoolPos + 1)
      rw [kept.sized.next_pos room]
      omega
  · obtain ⟨rest, kept'⟩ := kept.reuse head few
    have pops := congrArg List.length (kept.chain.unique (.cons head kept'.chain))
    rw [List.length_cons] at pops
    rw [step_alloc_reuse head]
    refine ⟨rest, kept', ?_⟩
    show rest.length + (state.live.length + 1) + state.pool.totalAllocItem =
      state.chunks.length * state.pool.totalAllocItem + state.pool.allocPoolPos
    omega

/-- No slot is lost by a call. -/
theorem Kept.step_whole (kept : Kept state freed) (whole : Whole state freed) {call : Call}
    (allowed : Allowed state call) :
    ∃ freed, Kept (Monster.step state call) freed ∧ Whole (Monster.step state call) freed := by
  cases call with
  | alloc malloc => exact kept.alloc_whole whole allowed
  | calloc malloc =>
    obtain ⟨freed', kept', whole'⟩ :=
      kept.alloc_whole whole (show Allowed state (.alloc malloc) from allowed)
    rw [step_calloc]
    split
    case isTrue place =>
      exact ⟨freed', kept'.store (kept'.not_mem_freed (mem_live_alloc place)) 0, whole'⟩
    case isFalse => exact ⟨freed', kept', whole'⟩
  | free data =>
    have member : data ∈ state.live := allowed
    have some_ := List.length_pos_of_mem member
    have fewer := List.length_erase_of_mem member
    refine ⟨_, kept.free allowed, ?_⟩
    show freed.length + 1 + (state.live.erase data).length + state.pool.totalAllocItem =
      state.chunks.length * state.pool.totalAllocItem + state.pool.allocPoolPos
    unfold Whole at whole
    omega
  | store cell word =>
    obtain ⟨-, block, member, low, high⟩ := allowed
    exact ⟨freed, kept.store (kept.inside_not_freed member low high) word, whole⟩

/-- In every such run no slot is lost: each one given out is in use or on the free list, and memory
is asked for only when every slot of every chunk is in use. -/
theorem slots_conserved (positive : 0 < pagesize) (roomy : Roomy itemSize allocSize pagesize)
    (created : mempoolCreate itemSize allocSize pagesize true (some chunk) mem = some (pool, mem'))
    (granted : Granted pool.allocSize [] chunk) {state : State}
    (run : Reaches step Allowed { pool, mem := mem', chunks := [chunk], live := [] } state) :
    (∃ freed, Chain 0 state.mem state.pool.reusePtr freed ∧ Whole state freed) ∧
      (state.pool.asksMalloc →
        state.live.length = state.chunks.length * state.pool.totalAllocItem) := by
  have kept : ∃ freed, Kept state freed ∧ Whole state freed := by
    apply run.invariant
    · refine ⟨[], kept_mempoolCreate positive roomy created granted, ?_⟩
      simp only [mempoolCreate] at created
      obtain ⟨rfl, -⟩ := created
      simp [Whole]
    · rintro state call ⟨freed, kept, whole⟩ allowed
      exact kept.step_whole whole allowed
  obtain ⟨freed, kept, whole⟩ := kept
  refine ⟨⟨freed, kept.chain, whole⟩, ?_⟩
  rintro ⟨head, full⟩
  have chain := kept.chain
  rw [head] at chain
  rw [Whole, chain.eq_nil, full] at whole
  simpa using whole

instance (size : Nat) (chunks : List Nat) (chunk : Nat) : Decidable (Granted size chunks chunk) :=
  have (other : Nat) : Decidable (Apart size chunk other) := inferInstanceAs (Decidable (_ ∨ _))
  decidable_of_iff (chunk ≠ 0 ∧ wordSize ∣ chunk ∧ chunk + size ≤ 2 ^ 64 ∧
      ∀ other ∈ chunks, Apart size chunk other)
    ⟨fun ⟨nonnull, aligned, inside, apart⟩ => ⟨nonnull, aligned, inside, apart⟩,
      fun granted => ⟨granted.nonnull, granted.aligned, granted.inside, granted.apart⟩⟩

instance (state : State) : ∀ call, Decidable (Allowed state call)
  | .alloc malloc | .calloc malloc =>
    inferInstanceAs (Decidable (_ < _ ∧ ∀ chunk ∈ malloc, Granted _ _ chunk))
  | .free data => inferInstanceAs (Decidable (data ∈ state.live))
  | .store _ _ => inferInstanceAs (Decidable (_ ∣ _ ∧ ∃ block ∈ state.live, _))

/-- A pool of blocks of 128 KiB, of which a chunk has 100. -/
def hundredBlocks : State :=
  ⟨⟨131072, 13111296, 100, 0, 4096, 0, 0⟩, Function.update (fun _ => 0) 4096 0, [4096], []⟩

/-- Two chunks are used up; a block of the first one is given back and taken again meanwhile. -/
def usesTwoChunks : List Call :=
  List.replicate 100 (.alloc none) ++ [.alloc (some 13115392), .free 4104, .alloc none] ++
    List.replicate 99 (.alloc none)

def twoChunks : State := usesTwoChunks.foldl step hundredBlocks

/-- All blocks of both chunks are in use, until two are given back. -/
theorem slots_conserved_twoChunks :
    (twoChunks.pool.asksMalloc ∧ twoChunks.live.length = 2 * 100) ∧
      let state := [.free 4104, .free 13115400].foldl step twoChunks
      state.pool.reusePtr = 13115400 ∧ state.live.length = 198 ∧
        ∃ freed, Chain 0 state.mem state.pool.reusePtr freed ∧ Whole state freed := by
  have created : mempoolCreate 131072 0 4096 true (some 4096) (fun _ => 0) =
      some (hundredBlocks.pool, hundredBlocks.mem) := by rfl
  have granted : Granted hundredBlocks.pool.allocSize [] 4096 := by decide
  have run : Reaches step Allowed hundredBlocks twoChunks := Reaches.refl.follow (by decide +kernel)
  have asks : twoChunks.pool.asksMalloc := by decide +kernel
  refine ⟨⟨asks, ?_⟩, by decide +kernel, by decide +kernel, ?_⟩
  · rw [(slots_conserved (by decide) (by decide +kernel) created granted run).2 asks]
    decide +kernel
  · exact (slots_conserved (by decide) (by decide +kernel) created granted
      (run.follow (by decide +kernel))).1

end Taomee.Monster
