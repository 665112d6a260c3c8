import Mathlib.Tactic.IntervalCases
import Taomee.Monster.VarMempool

/-!
# monster: blocks of every size

A client takes blocks of any size from a `variable_mempool_t` and frees each with the size it was
taken with. The chunks and the blocks in use are kept by the size of their pool, for the
statements only.
-/

namespace Taomee.Monster

open FreeList Runs

variable {pool : Mempool}

structure VarState where
  var : VarMempool
  mem : Mem
  chunks : Nat → List Nat
  live : Nat → List Nat

inductive VarCall where
  | alloc (itemSize : Nat) (answers : Answers)
  | calloc (itemSize : Nat) (answers : Answers)
  | free (data dataSize : Nat)
  | store (cell word : Nat)

/-- The bytes of a chunk of the pool of a size. -/
def VarMempool.chunkSize (var : VarMempool) (pagesize itemSize : Nat) : Nat :=
  correctedAllocSize (correctedItemSize itemSize) (var.multiple % 2 ^ 64).toNat pagesize

/-- The chunks that an allocation takes. -/
def VarState.newChunks (state : VarState) (itemSize pagesize : Nat) (answers : Answers) :
    List Nat :=
  let more (pool : Mempool) := if pool.asksMalloc then answers.malloc.toList else []
  match state.var.get itemSize with
  | none => []
  | some (some pool) => more pool
  | some none =>
    match mempoolCreate itemSize (state.var.multiple % 2 ^ 64).toNat pagesize answers.header
        answers.chunk state.mem with
    | none => []
    | some (pool, _) => more pool ++ answers.chunk.toList

/-- What the client has after an allocation. -/
def VarState.take (state : VarState) (itemSize pagesize : Nat) (answers : Answers) :
    Option (Nat × VarMempool × Mem) → VarState
  | none => state
  | some (p, var, mem) =>
    let size := roundedSize itemSize
    { var, mem
      chunks := Function.update state.chunks size
        (state.newChunks size pagesize answers ++ state.chunks size)
      live := Function.update state.live size
        (if p = 0 then state.live size else p :: state.live size) }

def varStep (pagesize : Nat) (state : VarState) : VarCall → VarState
  | .alloc itemSize answers =>
    state.take itemSize pagesize answers
      (varMempoolAlloc state.var itemSize pagesize answers state.mem)
  | .calloc itemSize answers =>
    state.take itemSize pagesize answers
      (varMempoolCalloc state.var itemSize pagesize answers state.mem)
  | .free data dataSize =>
    match varMempoolFree state.var data dataSize state.mem with
    | none => state
    | some (_, var, mem) =>
      { state with
        var, mem
        live := Function.update state.live dataSize ((state.live dataSize).erase data) }
  | .store cell word => { state with mem := Function.update state.mem cell word }

/-- What `malloc` gives for a chunk of the pool of a size. -/
structure Clear (pagesize : Nat) (state : VarState) (itemSize chunk : Nat) : Prop where
  nonnull : chunk ≠ 0
  aligned : wordSize ∣ chunk
  inside : chunk + state.var.chunkSize pagesize itemSize ≤ 2 ^ 64
  apart : ∀ size, ∀ other ∈ state.chunks size,
    chunk + state.var.chunkSize pagesize itemSize ≤ other ∨
      other + state.var.chunkSize pagesize size ≤ chunk

/-- What the system may answer to an allocation. -/
structure Answered (pagesize : Nat) (state : VarState) (itemSize : Nat) (answers : Answers) :
    Prop where
  chunk : ∀ chunk ∈ answers.chunk, Clear pagesize state (roundedSize itemSize) chunk
  malloc : ∀ chunk ∈ answers.malloc, Clear pagesize state (roundedSize itemSize) chunk
  both : ∀ chunk ∈ answers.chunk, ∀ other ∈ answers.malloc,
    Apart (state.var.chunkSize pagesize (roundedSize itemSize)) other chunk
  few : (state.live (roundedSize itemSize)).length + 1 < 2 ^ 31

/-- A pool for the size can be had: its chunks are rounded inside the range of `size_t`, and where
the size is new there is memory for its entry. -/
structure Served (pagesize : Nat) (state : VarState) (itemSize : Nat) (answers : Answers) :
    Prop where
  positive : 0 < itemSize
  roomy : Roomy (roundedSize itemSize) (state.var.multiple % 2 ^ 64).toNat pagesize
  entered : state.var.sub (roundedSize itemSize) = none →
    answers.node = true ∧ (state.var.bucket (roundedSize itemSize) = .null → answers.entry = true)

/-- And the size is a multiple of a word, or below one. -/
structure Fits (pagesize : Nat) (state : VarState) (itemSize : Nat) (answers : Answers) : Prop
    extends Served pagesize state itemSize answers where
  whole : itemSize % wordSize = 0 ∨ itemSize < wordSize

/-- The calls of the client: sizes of an `unsigned int` that a pool can be had for, blocks freed
once and with the size of their pool, words written in blocks in use. -/
def VarAllowed (pagesize : Nat) (state : VarState) : VarCall → Prop
  | .alloc itemSize answers | .calloc itemSize answers =>
    itemSize < 2 ^ 32 ∧ Served pagesize state itemSize answers ∧
      Answered pagesize state itemSize answers
  | .free data dataSize => data ∈ state.live dataSize
  | .store cell _ =>
    wordSize ∣ cell ∧ ∃ size, ∃ block ∈ state.live size,
      block ≤ cell ∧ cell < block + correctedItemSize size

/-- The block that an allocation from a pool comes to. -/
def Mempool.nextBlock (pool : Mempool) (malloc : Option Nat) : Option Nat :=
  if pool.reusePtr ≠ 0 then some pool.reusePtr
  else if pool.allocPoolPos = pool.totalAllocItem then malloc.map (· + wordSize)
  else some (slot pool pool.allocPtr pool.allocPoolPos)

def VarState.nextBlock (state : VarState) (size : Nat) (answers : Answers) : Option Nat :=
  match state.var.sub size with
  | some pool => pool.nextBlock answers.malloc
  | none => answers.chunk.map (· + wordSize)

/-- The block next in line holds zeros from its fifth byte on. -/
def Blank (state : VarState) (itemSize : Nat) (answers : Answers) : Prop :=
  ∀ block ∈ state.nextBlock (roundedSize itemSize) answers, ∀ i, 4 ≤ i → i < itemSize →
    byteAt state.mem (block + i) = 0

/-! ## Sizes -/

variable {pagesize itemSize : Nat}

/-- A size of whole words, or under one, is not rounded. -/
theorem roundedSize_of_whole (whole : itemSize % wordSize = 0 ∨ itemSize < wordSize)
    (unsigned : itemSize < 2 ^ 32) : roundedSize itemSize = itemSize := by
  unfold roundedSize wordSize at *
  split <;> omega

/-- Any other size is rounded past the next word. -/
theorem roundedSize_ne (ragged : ¬ (itemSize % wordSize = 0 ∨ itemSize < wordSize))
    (unsigned : itemSize < 2 ^ 32) : roundedSize itemSize ≠ itemSize := by
  unfold roundedSize wordSize at *
  rw [if_pos (by omega)]
  omega

/-- A positive size stays positive. -/
theorem roundedSize_pos (positive : 0 < itemSize) (unsigned : itemSize < 2 ^ 32) :
    roundedSize itemSize ≠ 0 := by
  unfold roundedSize wordSize
  split <;> omega

/-- A rounded size is 32 bits wide. -/
theorem roundedSize_lt (unsigned : itemSize < 2 ^ 32) : roundedSize itemSize < 2 ^ 32 := by
  unfold roundedSize
  split <;> omega

/-- A block holds at least what was asked for. -/
theorem le_correctedItemSize (unsigned : itemSize < 2 ^ 32) :
    itemSize ≤ correctedItemSize itemSize := by
  unfold correctedItemSize sizeT wordSize
  dsimp only
  split <;> split <;> omega

/-- Where the rounding to pages leaves the range of `size_t`, nothing is left of the size. -/
theorem correctedAllocSize_of_not_roomy {allocSize : Nat} (unsigned : itemSize < 2 ^ 32)
    (argument : allocSize < 2 ^ 64) (pages : 0 < pagesize) (power : pagesize ∣ 2 ^ 64)
    (small : pagesize < 2 ^ 31) (cramped : ¬ Roomy itemSize allocSize pagesize) :
    correctedAllocSize (correctedItemSize itemSize) allocSize pagesize = 0 := by
  have little : roundUp 8 (max itemSize 8) ≤ itemSize + 15 := by
    unfold roundUp
    omega
  rw [correctedItemSize_eq (by omega), correctedAllocSize_rounds]
  unfold Roomy at cramped
  dsimp only at cramped ⊢
  generalize roundUp 8 (max itemSize 8) = item at *
  have enough : 100 * item + 8 ≤ max allocSize (max ((100 * item + 8) % 2 ^ 64) (100 * pagesize)) ∧
      max allocSize (max ((100 * item + 8) % 2 ^ 64) (100 * pagesize)) < 2 ^ 64 := by
    omega
  generalize max allocSize _ = size at *
  obtain ⟨enough, below⟩ := enough
  have parts := Nat.div_add_mod' size pagesize
  rw [roundUp_eq pages] at cramped
  split
  case isFalse whole =>
    rw [if_neg whole] at cramped
    omega
  case isTrue rest =>
    rw [if_pos rest] at cramped
    obtain ⟨count, total⟩ := power
    have under : size / pagesize < count := by
      rw [Nat.div_lt_iff_lt_mul pages, Nat.mul_comm, ← total]
      exact below
    have next : (size / pagesize + 1) * pagesize ≤ count * pagesize := Nat.mul_le_mul_right _ under
    rw [Nat.succ_mul, Nat.mul_comm count, ← total] at next
    have whole : size + pagesize - size % pagesize = 2 ^ 64 := by
      have small := Nat.mod_lt size pages
      omega
    rw [whole]
    rfl

/-! ## One pool among others -/

variable {state : VarState} {answers : Answers} {s : State} {freed : List Nat} {size : Nat}

/-- What is kept of the pool of a size. -/
def VarState.view (state : VarState) (size : Nat) (pool : Mempool) : State :=
  ⟨pool, state.mem, state.chunks size, state.live size⟩

/-- The pool of one size has come to another state, and with it the table. -/
def VarState.withPool (state : VarState) (var : VarMempool) (size : Nat) (s : State) : VarState :=
  { var
    mem := s.mem
    chunks := Function.update state.chunks size s.chunks
    live := Function.update state.live size s.live }

/-- The cell is inside a chunk. -/
def Within (chunks : List Nat) (length cell : Nat) : Prop :=
  ∃ chunk ∈ chunks, chunk ≤ cell ∧ cell < chunk + length

/-- A pool of the size it is listed with. -/
structure Listed (pagesize : Nat) (var : VarMempool) (size : Nat) (pool : Mempool) : Prop where
  itemSize : pool.itemSize = correctedItemSize size
  allocSize : pool.allocSize = var.chunkSize pagesize size

/-- Every pool keeps its blocks, and the chunks of two pools share no byte. -/
structure VarKept (pagesize : Nat) (state : VarState) : Prop where
  zero : state.var.sub 0 = none
  table : ∀ i, state.var.mempoolTable i ≠ .freed
  pools : ∀ size pool, state.var.sub size = some pool →
    Listed pagesize state.var size pool ∧ ∃ freed, Kept (state.view size pool) freed
  roomy : ∀ size pool, state.var.sub size = some pool →
    Roomy size (state.var.multiple % 2 ^ 64).toNat pagesize
  empty : ∀ size, state.var.sub size = none → state.chunks size = [] ∧ state.live size = []
  apart : ∀ size other, size ≠ other → ∀ chunk ∈ state.chunks size, ∀ chunk' ∈ state.chunks other,
    chunk + state.var.chunkSize pagesize size ≤ chunk' ∨
      chunk' + state.var.chunkSize pagesize other ≤ chunk

/-- A block that was given out is in a chunk, behind its link. -/
theorem Kept.inside (kept : Kept s freed) {block : Nat} (member : block ∈ freed ++ s.live) :
    ∃ chunk ∈ s.chunks, chunk + wordSize ≤ block ∧
      block + s.pool.itemSize ≤ chunk + s.pool.allocSize := by
  obtain ⟨chunk, among, index, below, rfl, -⟩ := kept.used block member
  exact ⟨chunk, among, Nat.le_add_right _ _, kept.sized.slot_inside chunk below⟩

/-- Every cell of a block lies in the chunks. -/
theorem Kept.within_of_mem (kept : Kept s freed) {block cell : Nat}
    (member : block ∈ freed ++ s.live) (low : block ≤ cell)
    (high : cell < block + s.pool.itemSize) : Within s.chunks s.pool.allocSize cell := by
  obtain ⟨chunk, among, behind, inside⟩ := kept.inside member
  exact ⟨chunk, among, by omega, by omega⟩

/-- Blocks have a positive size. -/
theorem Kept.itemSize_pos (kept : Kept s freed) : 0 < s.pool.itemSize :=
  Nat.lt_of_lt_of_le (by decide) kept.sized.word

/-- A call changes memory in the chunks of its pool only. -/
theorem Kept.step_within (kept : Kept s freed) {call : Call} (allowed : Allowed s call)
    {cell : Nat} (changed : (Monster.step s call).mem cell ≠ s.mem cell)
    (plain : ∀ malloc, call ≠ .calloc malloc) :
    Within (Monster.step s call).chunks s.pool.allocSize cell := by
  cases call with
  | alloc malloc =>
    by_cases head : s.pool.reusePtr = 0
    · by_cases full : s.pool.allocPoolPos = s.pool.totalAllocItem
      · cases malloc with
        | none =>
          rw [step_alloc_none head full] at changed
          exact absurd rfl changed
        | some chunk =>
          have grown := kept.grow (allowed.2 chunk rfl)
          obtain ⟨place, -⟩ := grown.bump kept.sized.nonempty allowed.1
          rw [step_alloc_grow head full place] at changed ⊢
          have same : cell = chunk := by
            by_contra other
            exact changed (Function.update_of_ne other _ _)
          have fits := kept.sized.fits
          unfold wordSize at fits
          exact ⟨chunk, List.mem_cons_self, by omega, by omega⟩
      · obtain ⟨place, -⟩ := kept.bump (Nat.lt_of_le_of_ne kept.within full) allowed.1
        rw [step_alloc_bump head full place] at changed
        exact absurd rfl changed
    · rw [step_alloc_reuse head] at changed
      exact absurd rfl changed
  | calloc malloc => exact absurd rfl (plain malloc)
  | free data =>
    have same : cell = data := by
      by_contra other
      exact changed (Function.update_of_ne other _ _)
    have positive := kept.itemSize_pos
    exact kept.within_of_mem (List.mem_append_right _ allowed) (by omega) (by omega)
  | store target word =>
    obtain ⟨-, block, member, low, high⟩ := allowed
    have same : cell = target := by
      by_contra other
      exact changed (Function.update_of_ne other _ _)
    subst same
    exact kept.within_of_mem (List.mem_append_right _ member) low high

namespace VarKept

/-- The chunks of a pool that has changed share no byte with those of the others. -/
def ClearOfOthers (pagesize : Nat) (state : VarState) (size : Nat) (chunks : List Nat) : Prop :=
  ∀ chunk ∈ chunks, ∀ other ≠ size, ∀ chunk' ∈ state.chunks other,
    chunk + state.var.chunkSize pagesize size ≤ chunk' ∨
      chunk' + state.var.chunkSize pagesize other ≤ chunk

/-- What happens to one pool leaves the others as they are. -/
theorem withPool (kept : VarKept pagesize state) {var : VarMempool} (positive : size ≠ 0)
    (table : ∀ i, var.mempoolTable i ≠ .freed) (multiple : var.multiple = state.var.multiple)
    (own : var.sub size = some s.pool)
    (others : ∀ other ≠ size, var.sub other = state.var.sub other)
    (roomy : Roomy size (state.var.multiple % 2 ^ 64).toNat pagesize)
    (listed : Listed pagesize state.var size s.pool) (after : Kept s freed)
    (within : ∀ cell, s.mem cell ≠ state.mem cell → Within s.chunks s.pool.allocSize cell)
    (clear : ClearOfOthers pagesize state size s.chunks) :
    VarKept pagesize (state.withPool var size s) := by
  have chunkSize (size : Nat) :
      var.chunkSize pagesize size = state.var.chunkSize pagesize size := by
    unfold VarMempool.chunkSize
    rw [multiple]
  constructor
  case zero => exact (others 0 positive.symm).trans kept.zero
  case table => exact table
  case pools =>
    intro d pool found
    by_cases same : d = size
    · subst same
      obtain rfl : s.pool = pool := Option.some.inj (own.symm.trans found)
      refine ⟨⟨listed.itemSize, listed.allocSize.trans (chunkSize d).symm⟩, freed, ?_⟩
      simpa [VarState.view, VarState.withPool] using after
    · have before : state.var.sub d = some pool := (others d same).symm.trans found
      obtain ⟨sized, freed', theirs⟩ := kept.pools d pool before
      refine ⟨⟨sized.itemSize, sized.allocSize.trans (chunkSize d).symm⟩, freed', ?_⟩
      -- A free block of another pool is in a chunk of its own.
      have linked : ∀ block ∈ freed', s.mem block = state.mem block := by
        intro block member
        by_contra changed
        obtain ⟨chunk, among, low, high⟩ := within block changed
        have positive := theirs.itemSize_pos
        obtain ⟨chunk', among', low', high'⟩ := theirs.within_of_mem
          (List.mem_append_left _ member) (Nat.le_refl block) (by omega)
        have away := clear chunk among d same chunk' among'
        rw [← sized.allocSize, ← listed.allocSize] at away
        simp only [VarState.view] at high'
        omega
      simpa [VarState.view, VarState.withPool, same] using
        { theirs with chain := theirs.chain.congr linked }
  case roomy =>
    intro d pool found
    dsimp only [VarState.withPool]
    rw [multiple]
    by_cases same : d = size
    · exact same ▸ roomy
    · exact kept.roomy d pool ((others d same).symm.trans found)
  case empty =>
    intro d missing
    have apart : d ≠ size := by
      rintro rfl
      rw [VarState.withPool, own] at missing
      cases missing
    simpa [VarState.withPool, apart] using kept.empty d ((others d apart).symm.trans missing)
  case apart =>
    intro d e apart chunk among chunk' among'
    simp only [VarState.withPool, chunkSize] at among among' ⊢
    by_cases first : d = size
    · subst first
      rw [Function.update_self] at among
      rw [Function.update_of_ne apart.symm] at among'
      exact clear chunk among e apart.symm chunk' among'
    · rw [Function.update_of_ne first] at among
      by_cases second : e = size
      · subst second
        rw [Function.update_self] at among'
        exact (clear chunk' among' d first chunk among).symm
      · rw [Function.update_of_ne second] at among'
        exact kept.apart d e apart chunk among chunk' among'

end VarKept

/-! ## An allocation -/

/-- A pool in the table, as it was found or has been made. -/
structure Based (pagesize : Nat) (state : VarState) (size : Nat) (var : VarMempool) (s : State) :
    Prop where
  positive : size ≠ 0
  table : ∀ i, var.mempoolTable i ≠ .freed
  multiple : var.multiple = state.var.multiple
  own : var.sub size = some s.pool
  others : ∀ other ≠ size, var.sub other = state.var.sub other
  listed : Listed pagesize state.var size s.pool
  kept : ∃ freed, Kept s freed
  within : ∀ cell, s.mem cell ≠ state.mem cell → Within s.chunks s.pool.allocSize cell
  clear : VarKept.ClearOfOthers pagesize state size s.chunks
  roomy : Roomy size (state.var.multiple % 2 ^ 64).toNat pagesize

/-- The pool that an allocation goes to. -/
structure Opened (pagesize : Nat) (state : VarState) (itemSize : Nat) (answers : Answers)
    (var : VarMempool) (s : State) : Prop extends
    Based pagesize state (roundedSize itemSize) var s where
  live : s.live = state.live (roundedSize itemSize)
  linked : ∀ cell, s.mem cell ≠ state.mem cell → cell ∈ s.chunks
  next : state.nextBlock (roundedSize itemSize) answers = s.pool.nextBlock answers.malloc
  granted : ∀ chunk ∈ answers.malloc, Granted s.pool.allocSize s.chunks chunk
  chunks : state.newChunks (roundedSize itemSize) pagesize answers ++
      state.chunks (roundedSize itemSize) =
    if s.pool.asksMalloc then answers.malloc.toList ++ s.chunks else s.chunks
  ran : varMempoolAlloc state.var itemSize pagesize answers state.mem =
    let taken := mempoolAlloc s.pool answers.malloc s.mem
    some (taken.1, var.setPool (roundedSize itemSize) taken.2.1, taken.2.2)

section Allocation

variable {var : VarMempool}

/-- Memory that is clear of all pools may be granted to one. -/
theorem Clear.granted {chunk : Nat} (clear : Clear pagesize state size chunk)
    {length : Nat} (length' : length = state.var.chunkSize pagesize size) :
    Granted length (state.chunks size) chunk := by
  subst length'
  exact ⟨clear.nonnull, clear.aligned, clear.inside,
    fun other among => clear.apart size other among⟩

/-- A positive size has its place in the table. -/
theorem VarKept.get_eq (kept : VarKept pagesize state) (positive : size ≠ 0) :
    state.var.get size = some (state.var.sub size) := by
  rw [VarMempool.get_eq, if_neg positive]
  unfold VarMempool.bucket
  cases here : state.var.mempoolTable (size % state.var.tableSize) with
  | freed => exact absurd here (kept.table _)
  | null => rfl
  | list entries => rfl

/-- A pool of the table keeps its blocks. -/
theorem VarKept.based (kept : VarKept pagesize state) {pool : Mempool}
    (found : state.var.sub size = some pool) :
    Based pagesize state size state.var (state.view size pool) := by
  obtain ⟨listed, keeps⟩ := kept.pools _ pool found
  constructor
  case positive =>
    rintro rfl
    rw [kept.zero] at found
    cases found
  case table => exact kept.table
  case multiple => rfl
  case own => exact found
  case others => exact fun _ _ => rfl
  case listed => exact listed
  case kept => exact keeps
  case within => exact fun cell changed => absurd rfl changed
  case clear =>
    exact fun chunk among other apart chunk' among' =>
      kept.apart _ other apart.symm chunk among chunk' among'
  case roomy => exact kept.roomy size pool found

/-- A size that has a pool is served by it. -/
theorem VarKept.opened_found (kept : VarKept pagesize state) {pool : Mempool}
    (positive : roundedSize itemSize ≠ 0) (answered : Answered pagesize state itemSize answers)
    (found : state.var.sub (roundedSize itemSize) = some pool) :
    Opened pagesize state itemSize answers state.var
      (state.view (roundedSize itemSize) pool) := by
  have based := kept.based found
  have get := kept.get_eq positive
  rw [found] at get
  refine { based with
    live := rfl, linked := fun _ changed => absurd rfl changed, next := ?_
    granted := ?_, chunks := ?_, ran := ?_ }
  · simp only [VarState.nextBlock, found, VarState.view]
  · exact fun chunk given => (answered.malloc chunk given).granted based.listed.allocSize
  · by_cases asks : pool.asksMalloc <;> simp [VarState.newChunks, get, VarState.view, asks]
  · simp only [varMempoolAlloc, get, VarState.view]

/-- A new size gets a new pool. -/
theorem VarKept.opened_new (kept : VarKept pagesize state) (pages : 0 < pagesize)
    (positive : roundedSize itemSize ≠ 0) (answered : Answered pagesize state itemSize answers)
    (roomy : Roomy (roundedSize itemSize) (state.var.multiple % 2 ^ 64).toNat pagesize)
    (missing : state.var.sub (roundedSize itemSize) = none) (node : answers.node = true)
    (entry : state.var.bucket (roundedSize itemSize) = .null → answers.entry = true)
    {pool : Mempool} {mem : Mem}
    (created : mempoolCreate (roundedSize itemSize) (state.var.multiple % 2 ^ 64).toNat pagesize
      answers.header answers.chunk state.mem = some (pool, mem)) :
    ∃ var chunk, answers.chunk = some chunk ∧ Opened pagesize state itemSize answers var
      ⟨pool, mem, [chunk], []⟩ := by
  obtain ⟨chunk, given, header⟩ : ∃ chunk, answers.chunk = some chunk ∧ answers.header = true := by
    revert created
    cases answers.header with
    | false => exact fun created => nomatch created
    | true =>
      cases answers.chunk with
      | none => exact fun created => nomatch created
      | some chunk => exact fun _ => ⟨chunk, rfl, rfl⟩
  have get := kept.get_eq positive
  rw [missing] at get
  obtain ⟨var, put, table, -, multiple, own, others⟩ :=
    @VarMempool.put_new state.var _ pool kept.table missing _ entry
  obtain ⟨noChunks, noLive⟩ := kept.empty _ missing
  have clear := answered.chunk chunk given
  have fields : pool.itemSize = correctedItemSize (roundedSize itemSize) ∧
      pool.allocSize = state.var.chunkSize pagesize (roundedSize itemSize) ∧
      mem = Function.update state.mem chunk 0 := by
    rw [given, header] at created
    obtain ⟨rfl, rfl⟩ := Prod.mk.inj (Option.some.inj created)
    exact ⟨rfl, rfl, rfl⟩
  obtain ⟨itemSize', allocSize', mem'⟩ := fields
  have keeps : Kept ⟨pool, mem, [chunk], []⟩ [] := by
    refine kept_mempoolCreate pages roomy (by rw [← created, given, header]) ?_
    rw [allocSize']
    exact ⟨clear.nonnull, clear.aligned, clear.inside, by simp⟩
  have written (cell : Nat) (changed : mem cell ≠ state.mem cell) : cell = chunk := by
    by_contra other
    exact changed (by rw [mem']; exact Function.update_of_ne other _ _)
  refine ⟨var, chunk, given, {
    positive, table, multiple, own, others, roomy
    listed := ⟨itemSize', allocSize'⟩
    kept := ⟨[], keeps⟩
    live := noLive.symm
    linked := ?linked, next := ?next
    within := ?within, clear := ?clear, granted := ?granted, chunks := ?chunks, ran := ?ran }⟩
  case linked => exact fun cell changed => List.mem_singleton.mpr (written cell changed)
  case next =>
    have room := keeps.sized.nonempty
    have start : pool.allocPtr = chunk ∧ pool.allocPoolPos = 0 ∧ pool.reusePtr = 0 := by
      rw [given, header] at created
      obtain ⟨rfl, -⟩ := Prod.mk.inj (Option.some.inj created)
      exact ⟨rfl, rfl, rfl⟩
    obtain ⟨current, position, head⟩ := start
    simp only [VarState.nextBlock, missing, given, Mempool.nextBlock]
    rw [if_neg (fun some_ => some_ head), if_neg (by dsimp only at room; omega), current, position]
    rfl
  case within =>
    intro cell changed
    have same := written cell changed
    have fits := keeps.sized.fits
    unfold wordSize at fits
    exact ⟨chunk, List.mem_cons_self, by omega, by dsimp only at fits ⊢; omega⟩
  case clear =>
    intro chunk' among other apart chunk'' among'
    obtain rfl := List.mem_singleton.mp among
    exact clear.apart other chunk'' among'
  case granted =>
    intro more listed
    have extra := answered.malloc more listed
    refine ⟨extra.nonnull, extra.aligned, ?_, ?_⟩
    · exact allocSize' ▸ extra.inside
    · intro other among
      obtain rfl := List.mem_singleton.mp among
      exact allocSize' ▸ answered.both _ given more listed
  case chunks =>
    simp only [VarState.newChunks, get, created]
    rw [given, noChunks]
    by_cases asks : pool.asksMalloc <;> simp [asks]
  case ran =>
    simp only [varMempoolAlloc, get, created, node, put]

/-- Sizes of a pool are for its lifetime. -/
theorem step_sizes (s : State) (call : Call) :
    (step s call).pool.itemSize = s.pool.itemSize ∧
      (step s call).pool.allocSize = s.pool.allocSize := by
  have alloc (malloc : Option Nat) :
      (mempoolAlloc s.pool malloc s.mem).2.1.itemSize = s.pool.itemSize ∧
        (mempoolAlloc s.pool malloc s.mem).2.1.allocSize = s.pool.allocSize := by
    unfold mempoolAlloc
    split
    · exact ⟨rfl, rfl⟩
    · split
      · cases malloc <;> exact ⟨rfl, rfl⟩
      · exact ⟨rfl, rfl⟩
  cases call with
  | alloc malloc => exact alloc malloc
  | calloc malloc =>
    simp only [step, mempoolCalloc]
    split <;> exact alloc malloc
  | free data => exact ⟨rfl, rfl⟩
  | store cell word => exact ⟨rfl, rfl⟩

/-- No call gives a chunk back. -/
theorem step_chunks {call : Call} {chunk : Nat} (among : chunk ∈ s.chunks) :
    chunk ∈ (step s call).chunks := by
  have alloc (malloc : Option Nat) (taken : Nat × Mempool × Mem) :
      chunk ∈ (s.take malloc taken).chunks := by
    unfold State.take
    dsimp only
    split
    · exact List.mem_append_right _ among
    · exact among
  cases call with
  | alloc malloc => exact alloc malloc _
  | calloc malloc => exact alloc malloc _
  | free data => exact among
  | store cell word => exact among

/-- A pool put into the table is found there. -/
theorem Based.setPool_sub (based : Based pagesize state size var s) (pool : Mempool) :
    (var.setPool size pool).sub size = some pool := by
  rw [VarMempool.sub_setPool, based.own, Option.map_some]

/-- A call on one pool. -/
theorem Based.call (based : Based pagesize state size var s) (kept : VarKept pagesize state)
    {call : Call} (allowed : Allowed s call) (plain : ∀ malloc, call ≠ .calloc malloc)
    (more : ∀ chunk ∈ (step s call).chunks, chunk ∈ s.chunks ∨ Clear pagesize state size chunk) :
    (∃ freed, Kept (step s call) freed) ∧
      VarKept pagesize
        (state.withPool (var.setPool size (step s call).pool) size (step s call)) := by
  obtain ⟨freed, keeps⟩ := based.kept
  obtain ⟨freed', keeps'⟩ := keeps.step allowed
  obtain ⟨itemSize, allocSize⟩ := step_sizes s call
  refine ⟨⟨freed', keeps'⟩, ?_⟩
  refine kept.withPool based.positive ?_ ?_ (based.setPool_sub _) ?_ based.roomy ?_ keeps' ?_ ?_
  · exact VarMempool.setPool_table based.table size _
  · exact (VarMempool.setPool_multiple var size _).trans based.multiple
  · exact fun other apart =>
    (VarMempool.sub_setPool_of_ne apart).trans (based.others other apart)
  · exact ⟨itemSize.trans based.listed.itemSize, allocSize.trans based.listed.allocSize⟩
  · intro cell changed
    rw [allocSize]
    by_cases here : (step s call).mem cell = s.mem cell
    · obtain ⟨chunk, among, low, high⟩ := based.within cell (here ▸ changed)
      exact ⟨chunk, step_chunks among, low, high⟩
    · exact keeps.step_within allowed here plain
  · intro chunk among other apart chunk' among'
    rcases more chunk among with before | clear
    · exact based.clear chunk before other apart chunk' among'
    · exact clear.apart other chunk' among'

namespace Opened

variable (opened : Opened pagesize state itemSize answers var s)
include opened

/-- What malloc answers is new memory to this pool. -/
theorem allowed (answered : Answered pagesize state itemSize answers) :
    Allowed s (.alloc answers.malloc) :=
  ⟨by rw [opened.live]; exact answered.few, opened.granted⟩

/-- The allocation is one from the pool. -/
theorem step_eq : varStep pagesize state (.alloc itemSize answers) =
    state.withPool (var.setPool (roundedSize itemSize) (step s (.alloc answers.malloc)).pool)
      (roundedSize itemSize) (step s (.alloc answers.malloc)) := by
  simp only [varStep, opened.ran, VarState.take, VarState.withPool, step, State.take]
  rw [opened.chunks, opened.live]

/-- One allocation keeps this pool and all others. -/
theorem kept_step (kept : VarKept pagesize state)
    (answered : Answered pagesize state itemSize answers) :
    (∃ freed, Kept (step s (.alloc answers.malloc)) freed) ∧
      VarKept pagesize (varStep pagesize state (.alloc itemSize answers)) := by
  rw [opened.step_eq]
  refine opened.call kept (opened.allowed answered) (fun _ => nofun) ?_
  intro chunk among
  simp only [step, State.take] at among
  split at among
  · rcases List.mem_append.mp among with given | before
    · exact .inr (answered.malloc chunk (by simpa using given))
    · exact .inl before
  · exact .inl among

end Opened

end Allocation

/-! ## Runs -/

namespace VarKept

/-- A live block belongs to a pool of the table. -/
theorem found_of_live (kept : VarKept pagesize state) {block : Nat}
    (member : block ∈ state.live size) :
    ∃ pool freed, state.var.sub size = some pool ∧ Listed pagesize state.var size pool ∧
      Kept (state.view size pool) freed := by
  cases found : state.var.sub size with
  | none =>
    rw [(kept.empty size found).2] at member
    cases member
  | some pool =>
    obtain ⟨listed, freed, keeps⟩ := kept.pools size pool found
    exact ⟨pool, freed, rfl, listed, keeps⟩

/-- A word in a block in use. -/
theorem store (kept : VarKept pagesize state) {block cell : Nat} (member : block ∈ state.live size)
    (low : block ≤ cell) (high : cell < block + correctedItemSize size) (word : Nat) :
    VarKept pagesize { state with mem := Function.update state.mem cell word } := by
  obtain ⟨pool, freed, found, listed, keeps⟩ := kept.found_of_live member
  have based := kept.based found
  rw [← listed.itemSize] at high
  have keeps' := keeps.store (keeps.inside_not_freed member low high) word
  have stored := kept.withPool based.positive kept.table rfl found (fun _ _ => rfl) based.roomy
    listed keeps' ?_ based.clear
  · simpa [VarState.withPool, VarState.view] using stored
  · intro other changed
    have same : other = cell := by
      by_contra apart
      exact changed (Function.update_of_ne apart _ _)
    subst same
    exact keeps.within_of_mem (List.mem_append_right _ member) low high

/-- `variable_mempool_free` of a live block is a step of its pool. -/
theorem free_eq (kept : VarKept pagesize state) {data : Nat} (member : data ∈ state.live size) :
    ∃ pool, Based pagesize state size state.var (state.view size pool) ∧
      varStep pagesize state (.free data size) =
        state.withPool (state.var.setPool size (step (state.view size pool) (.free data)).pool) size
          (step (state.view size pool) (.free data)) := by
  obtain ⟨pool, -, found, -, -⟩ := kept.found_of_live member
  have based := kept.based found
  refine ⟨pool, based, ?_⟩
  simp only [varStep, varMempoolFree, kept.get_eq based.positive, found]
  simp [VarState.withPool, VarState.view, step]

/-- Freeing a live block keeps all pools. -/
theorem free (kept : VarKept pagesize state) {data : Nat} (member : data ∈ state.live size) :
    VarKept pagesize (varStep pagesize state (.free data size)) := by
  obtain ⟨pool, based, done⟩ := kept.free_eq member
  rw [done]
  have allowed : Allowed (state.view size pool) (.free data) := member
  exact (based.call kept allowed (fun _ => nofun) fun _ among => .inl among).2

/-- An allocation comes to a pool, or it could not be had. -/
theorem alloc_cases (kept : VarKept pagesize state) (pages : 0 < pagesize)
    (unsigned : itemSize < 2 ^ 32) (served : Served pagesize state itemSize answers)
    (answered : Answered pagesize state itemSize answers) :
    (varMempoolAlloc state.var itemSize pagesize answers state.mem =
        some (0, state.var, state.mem) ∧
      varStep pagesize state (.alloc itemSize answers) = state) ∨
    ∃ var s, Opened pagesize state itemSize answers var s := by
  have positive := roundedSize_pos served.positive unsigned
  cases found : state.var.sub (roundedSize itemSize) with
  | some pool => exact .inr ⟨_, _, kept.opened_found positive answered found⟩
  | none =>
    have get := kept.get_eq positive
    rw [found] at get
    obtain ⟨node, entry⟩ := served.entered found
    cases created : mempoolCreate (roundedSize itemSize) (state.var.multiple % 2 ^ 64).toNat
      pagesize answers.header answers.chunk state.mem with
    | some made =>
      obtain ⟨var, chunk, -, opened⟩ :=
        kept.opened_new pages positive answered served.roomy found node entry created
      exact .inr ⟨_, _, opened⟩
    | none =>
      have ran : varMempoolAlloc state.var itemSize pagesize answers state.mem =
          some (0, state.var, state.mem) := by
        simp only [varMempoolAlloc, get, created]
      simp only [varStep, ran, VarState.take, VarState.newChunks, get, created]
      simp

end VarKept

/-- `var_mempool_calloc` is `var_mempool_alloc` and half a word cleared in the new block. -/
theorem varStep_calloc
    (ran : varMempoolAlloc state.var itemSize pagesize answers state.mem = some (p, var, mem)) :
    let state' := varStep pagesize state (.alloc itemSize answers)
    varStep pagesize state (.calloc itemSize answers) =
      if p ≠ 0 then { state' with mem := Function.update mem p (mem p / 2 ^ 32 * 2 ^ 32) }
      else state' := by
  simp only [varStep, varMempoolCalloc, ran, Option.map_some]
  by_cases given : p ≠ 0 <;> simp [VarState.take, given]

/-- The block given is live afterwards. -/
theorem mem_live_varAlloc
    (ran : varMempoolAlloc state.var itemSize pagesize answers state.mem = some (p, var, mem))
    (given : p ≠ 0) :
    (varStep pagesize state (.alloc itemSize answers)).live (roundedSize itemSize) =
      p :: state.live (roundedSize itemSize) := by
  simp [varStep, ran, VarState.take, given]

/-- An allocation that is served keeps all pools. -/
theorem VarKept.alloc (kept : VarKept pagesize state) (pages : 0 < pagesize)
    (unsigned : itemSize < 2 ^ 32) (served : Served pagesize state itemSize answers)
    (answered : Answered pagesize state itemSize answers) :
    VarKept pagesize (varStep pagesize state (.alloc itemSize answers)) := by
  rcases kept.alloc_cases pages unsigned served answered with ⟨-, none_⟩ | ⟨var, s, opened⟩
  · rw [none_]
    exact kept
  · exact (opened.kept_step kept answered).2

/-- Every allowed call keeps the blocks of every pool apart. -/
theorem VarKept.step (kept : VarKept pagesize state) (pages : 0 < pagesize) {call : VarCall}
    (allowed : VarAllowed pagesize state call) :
    VarKept pagesize (varStep pagesize state call) := by
  cases call with
  | alloc itemSize answers =>
    obtain ⟨unsigned, served, answered⟩ := allowed
    exact kept.alloc pages unsigned served answered
  | calloc itemSize answers =>
    obtain ⟨unsigned, served, answered⟩ := allowed
    have after := kept.alloc pages unsigned served answered
    cases ran : varMempoolAlloc state.var itemSize pagesize answers state.mem with
    | none => simpa [varStep, varMempoolCalloc, ran, VarState.take] using kept
    | some taken =>
      obtain ⟨p, var, mem⟩ := taken
      rw [varStep_calloc ran]
      split
      case isFalse => exact after
      case isTrue given =>
        have member : p ∈ (varStep pagesize state (.alloc itemSize answers)).live
            (roundedSize itemSize) := by
          rw [mem_live_varAlloc ran given]
          exact List.mem_cons_self
        have cleared := after.store member (Nat.le_refl p) ?_ (mem p / 2 ^ 32 * 2 ^ 32)
        · simpa [varStep, ran, VarState.take] using cleared
        · obtain ⟨pool, freed, -, listed, keeps⟩ := after.found_of_live member
          have positive := keeps.itemSize_pos
          simp only [VarState.view, listed.itemSize] at positive
          omega
  | free data dataSize => exact kept.free allowed
  | store cell word =>
    obtain ⟨-, size, block, member, low, high⟩ := allowed
    exact kept.store member low high word

/-- A table just made. -/
theorem varKept_varMempoolCreate {regTableSize multiple : Nat} {header table : Bool}
    (created : varMempoolCreate regTableSize multiple header table = some var) (mem : Mem) :
    VarKept pagesize ⟨var, mem, fun _ => [], fun _ => []⟩ := by
  have blank : ∀ i, var.mempoolTable i = .null := by
    revert created
    unfold varMempoolCreate
    split
    · exact nofun
    · split
      · exact nofun
      · rintro ⟨⟩
        exact fun _ => rfl
  have none_ (size : Nat) : var.sub size = none := by
    unfold VarMempool.sub VarMempool.bucket
    rw [blank]
  constructor
  case zero => exact none_ 0
  case table => simp [blank]
  case pools => simp [none_]
  case roomy => simp [none_]
  case empty => simp
  case apart => simp

/-! ## A block and back -/

/-- The block is memory of the client's own, and freed with its size it is what the next allocation
of the size gives. -/
structure RoundTrips (pagesize : Nat) (state : VarState) (itemSize : Nat) (answers : Answers)
    (p : Nat) (var : VarMempool) (mem : Mem) : Prop where
  inside : ∃ chunk ∈ state.newChunks (roundedSize itemSize) pagesize answers ++
      state.chunks (roundedSize itemSize), chunk + wordSize ≤ p ∧
    p + itemSize ≤ chunk + state.var.chunkSize pagesize (roundedSize itemSize)
  alone : ∀ size, ∀ block ∈ state.live size,
    p + itemSize ≤ block ∨ block + correctedItemSize size ≤ p
  freed : ∃ var' mem' pool, varMempoolFree var p itemSize mem = some (0, var', mem') ∧
    var'.sub (roundedSize itemSize) = some pool ∧ pool.reusePtr = p ∧
    ∀ answers, (varMempoolAlloc var' itemSize pagesize answers mem').map Prod.fst = some p

variable {p : Nat} {var : VarMempool} {mem : Mem}

namespace VarKept

/-- A live block lies inside of one chunk. -/
theorem inside (kept : VarKept pagesize state) {block : Nat} (member : block ∈ state.live size) :
    ∃ chunk ∈ state.chunks size, chunk + wordSize ≤ block ∧
      block + correctedItemSize size ≤ chunk + state.var.chunkSize pagesize size := by
  obtain ⟨pool, freed, -, listed, keeps⟩ := kept.found_of_live member
  have inside := keeps.inside (List.mem_append_right _ member)
  simpa only [VarState.view, listed.itemSize, listed.allocSize] using inside

/-- Blocks in use share no byte, of whatever sizes they are. -/
theorem alone (kept : VarKept pagesize state) {block other size' : Nat}
    (member : block ∈ state.live size) (member' : other ∈ state.live size')
    (distinct : size = size' → block ≠ other) :
    block + correctedItemSize size ≤ other ∨ other + correctedItemSize size' ≤ block := by
  by_cases same : size = size'
  · subst same
    obtain ⟨pool, freed, -, listed, keeps⟩ := kept.found_of_live member
    have apart := keeps.apart (List.mem_append_right _ member) (List.mem_append_right _ member')
      (distinct rfl)
    simpa only [Apart, VarState.view, listed.itemSize] using apart
  · obtain ⟨chunk, among, behind, inside⟩ := kept.inside member
    obtain ⟨chunk', among', behind', inside'⟩ := kept.inside member'
    rcases kept.apart size size' same chunk among chunk' among' with before | after <;> omega

/-- No block is live twice. -/
theorem nodup (kept : VarKept pagesize state) (size : Nat) : (state.live size).Nodup := by
  cases found : state.var.sub size with
  | none =>
    rw [(kept.empty size found).2]
    exact List.nodup_nil
  | some pool =>
    obtain ⟨-, freed, keeps⟩ := kept.pools size pool found
    exact (List.nodup_append.mp keeps.nodup).2.1

/-- A block in use is not the first of the free ones. -/
theorem reusePtr_ne (kept : VarKept pagesize state) {block : Nat} {pool : Mempool}
    (member : block ∈ state.live size) (found : state.var.sub size = some pool) :
    pool.reusePtr ≠ block := by
  rintro rfl
  obtain ⟨-, freed, keeps⟩ := kept.pools size pool found
  have nonnull := keeps.nonnull (List.mem_append_right _ member)
  obtain ⟨rest, rfl, -⟩ := keeps.chain.pop nonnull
  exact keeps.not_mem_freed member List.mem_cons_self

end VarKept

/-- What `var_mempool_free` has done when it returns 0. -/
theorem varMempoolFree_succeeds {data dataSize : Nat} {var' : VarMempool} {mem' : Mem}
    (done : varMempoolFree var data dataSize mem = some (0, var', mem')) :
    dataSize ≠ 0 ∧ ∃ pool, var.sub dataSize = some pool ∧
      var' = var.setPool dataSize (mempoolFree pool data mem).1 := by
  unfold varMempoolFree at done
  cases get : var.get dataSize with
  | none => simp [get] at done
  | some answer =>
    cases answer with
    | none => simp [get] at done
    | some pool =>
      obtain ⟨nonzero, found⟩ := VarMempool.get_found get
      simp only [get, Option.some.injEq, Prod.mk.injEq] at done
      exact ⟨nonzero, pool, found, done.2.1.symm⟩

/-- An allocation of a size that has no pool makes one. -/
theorem VarKept.varMempoolAlloc_new (kept : VarKept pagesize state)
    (positive : roundedSize itemSize ≠ 0) (missing : state.var.sub (roundedSize itemSize) = none)
    (ran : varMempoolAlloc state.var itemSize pagesize answers state.mem = some (p, var, mem))
    (given : p ≠ 0) :
    ∃ pool made after, pool.reusePtr = 0 ∧
      state.var.put (roundedSize itemSize) pool answers.entry answers.node = some after ∧
      var = after.setPool (roundedSize itemSize) (mempoolAlloc pool answers.malloc made).2.1 := by
  have get := kept.get_eq positive
  rw [missing] at get
  simp only [varMempoolAlloc, get] at ran
  cases created : mempoolCreate (roundedSize itemSize) (state.var.multiple % 2 ^ 64).toNat
    pagesize answers.header answers.chunk state.mem with
  | none =>
    simp only [created, Option.some.injEq, Prod.mk.injEq] at ran
    exact absurd ran.1.symm given
  | some taken =>
    obtain ⟨pool, made⟩ := taken
    have fresh : pool.reusePtr = 0 := by
      revert created
      unfold mempoolCreate
      split
      · exact nofun
      · split
        · exact nofun
        · rintro ⟨⟩
          rfl
    simp only [created] at ran
    cases put : state.var.put (roundedSize itemSize) pool answers.entry answers.node with
    | none => simp [put] at ran
    | some after =>
      simp only [put, Option.some.injEq, Prod.mk.injEq] at ran
      exact ⟨pool, made, after, fresh, put, ran.2.1.symm⟩

/-- The number of items in a chunk stays. -/
theorem varMempoolAlloc_multiple
    (ran : varMempoolAlloc state.var itemSize pagesize answers state.mem = some (p, var, mem)) :
    var.multiple = state.var.multiple := by
  unfold varMempoolAlloc at ran
  dsimp only at ran
  split at ran
  · cases ran
  · cases ran
    exact VarMempool.setPool_multiple ..
  · split at ran
    · cases ran
      rfl
    · split at ran
      · cases ran
      · cases ran
        rw [VarMempool.setPool_multiple]
        exact VarMempool.put_multiple ‹_›

/-- A pool without freed blocks has none after an allocation. -/
theorem mempoolAlloc_reusePtr (fresh : pool.reusePtr = 0) (malloc : Option Nat) (mem : Mem) :
    (mempoolAlloc pool malloc mem).2.1.reusePtr = 0 := by
  unfold mempoolAlloc
  rw [if_neg (fun head => head fresh)]
  split
  · cases malloc <;> exact fresh
  · exact fresh

section

variable (kept : VarKept pagesize state) (answered : Answered pagesize state itemSize answers)
  (ran : varMempoolAlloc state.var itemSize pagesize answers state.mem = some (p, var, mem))
  (given : p ≠ 0)
include kept answered ran given

/-- The block just given is not the first free one of its pool. -/
theorem reusePtr_ne_of_alloc (positive : roundedSize itemSize ≠ 0) {pool : Mempool}
    (found : var.sub (roundedSize itemSize) = some pool) : pool.reusePtr ≠ p := by
  cases before : state.var.sub (roundedSize itemSize) with
  | none =>
    obtain ⟨pool', made, after, fresh, -, rfl⟩ := kept.varMempoolAlloc_new positive before ran given
    rw [VarMempool.sub_setPool] at found
    obtain ⟨-, -, rfl⟩ := Option.map_eq_some_iff.mp found
    rw [mempoolAlloc_reusePtr fresh]
    exact given.symm
  | some pool' =>
    have opened := kept.opened_found positive answered before
    have after := (opened.kept_step kept answered).2
    have member : p ∈ (varStep pagesize state (.alloc itemSize answers)).live
        (roundedSize itemSize) := by
      rw [mem_live_varAlloc ran given]
      exact List.mem_cons_self
    refine after.reusePtr_ne member ?_
    simpa [varStep, ran, VarState.take] using found

/-- What the round trip takes. -/
theorem RoundTrips.fits (pages : 0 < pagesize) (power : pagesize ∣ 2 ^ 64)
    (small : pagesize < 2 ^ 31) (unsigned : itemSize < 2 ^ 32) {mem' : Mem}
    (trips : RoundTrips pagesize state itemSize answers p var mem') :
    Fits pagesize state itemSize answers := by
  obtain ⟨var', mem'', pool, done, found, head, -⟩ := trips.freed
  obtain ⟨nonzero, own, listed, rfl⟩ := varMempoolFree_succeeds done
  have positive := roundedSize_pos (Nat.pos_of_ne_zero nonzero) unsigned
  have whole : itemSize % wordSize = 0 ∨ itemSize < wordSize := by
    by_contra ragged
    rw [VarMempool.sub_setPool_of_ne (roundedSize_ne ragged unsigned)] at found
    exact reusePtr_ne_of_alloc kept answered ran given positive found head
  have same := roundedSize_of_whole whole unsigned
  refine ⟨⟨Nat.pos_of_ne_zero nonzero, ?_, ?_⟩, whole⟩
  · by_contra cramped
    obtain ⟨chunk, -, behind, inside⟩ := trips.inside
    have nothing : state.var.chunkSize pagesize (roundedSize itemSize) = 0 :=
      correctedAllocSize_of_not_roomy (roundedSize_lt unsigned) (by omega) pages power small cramped
    omega
  · intro missing
    by_contra short
    replace listed : var.sub (roundedSize itemSize) = some own := by rw [same, listed]
    obtain ⟨pool', made, after, -, put, rfl⟩ := kept.varMempoolAlloc_new positive missing ran given
    have none_ := VarMempool.put_fails missing short put
    rw [VarMempool.sub_setPool, none_] at listed
    cases listed

end

/-- Freeing a block of a known size goes to its pool. -/
theorem varMempoolFree_of_found {data dataSize : Nat} (nonzero : dataSize ≠ 0)
    (table : ∀ i, var.mempoolTable i ≠ .freed) (found : var.sub dataSize = some pool) (mem : Mem) :
    varMempoolFree var data dataSize mem =
      some (0, var.setPool dataSize (mempoolFree pool data mem).1,
        (mempoolFree pool data mem).2) := by
  simp only [varMempoolFree, VarMempool.get_of_found nonzero table found]

/-- An allocation that meets a free block gives it. -/
theorem varMempoolAlloc_reuse (nonzero : roundedSize itemSize ≠ 0)
    (table : ∀ i, var.mempoolTable i ≠ .freed) (found : var.sub (roundedSize itemSize) = some pool)
    (head : pool.reusePtr ≠ 0) (answers : Answers) (mem : Mem) :
    (varMempoolAlloc var itemSize pagesize answers mem).map Prod.fst = some pool.reusePtr := by
  simp [varMempoolAlloc, VarMempool.get_of_found nonzero table found, mempoolAlloc, head]

/-- A request that fits comes back whole. -/
theorem Fits.roundTrips (kept : VarKept pagesize state) (pages : 0 < pagesize)
    (unsigned : itemSize < 2 ^ 32) (fits : Fits pagesize state itemSize answers)
    (answered : Answered pagesize state itemSize answers)
    (ran : varMempoolAlloc state.var itemSize pagesize answers state.mem = some (p, var, mem))
    (given : p ≠ 0) (mem' : Mem) : RoundTrips pagesize state itemSize answers p var mem' := by
  have same := roundedSize_of_whole fits.whole unsigned
  have nonzero := roundedSize_pos fits.positive unsigned
  have after := kept.alloc pages unsigned fits.toServed answered
  have done : varStep pagesize state (.alloc itemSize answers) =
      state.take itemSize pagesize answers (some (p, var, mem)) := by simp only [varStep, ran]
  have live := mem_live_varAlloc ran given
  have member : p ∈ (varStep pagesize state (.alloc itemSize answers)).live
      (roundedSize itemSize) := by
    rw [live]
    exact List.mem_cons_self
  have room := le_correctedItemSize (roundedSize_lt unsigned)
  obtain ⟨pool, freed, found, -, -⟩ := after.found_of_live member
  have multiple := varMempoolAlloc_multiple ran
  have table : ∀ i, var.mempoolTable i ≠ .freed := by
    simpa only [done, VarState.take] using after.table
  replace found : var.sub (roundedSize itemSize) = some pool := by
    simpa only [done, VarState.take] using found
  constructor
  case inside =>
    obtain ⟨chunk, among, behind, inside⟩ := after.inside member
    simp only [done, VarState.take, Function.update_self, VarMempool.chunkSize, multiple]
      at among inside
    exact ⟨chunk, among, behind, by unfold VarMempool.chunkSize; omega⟩
  case alone =>
    intro size block among
    have before : block ∈ (varStep pagesize state (.alloc itemSize answers)).live size := by
      by_cases own : size = roundedSize itemSize
      · subst own
        rw [live]
        exact List.mem_cons_of_mem _ among
      · simpa [done, VarState.take, own] using among
    have apart := after.alone member before ?_
    · omega
    · rintro rfl rfl
      have distinct := after.nodup (roundedSize itemSize)
      rw [live] at distinct
      exact (List.nodup_cons.mp distinct).1 among
  case freed =>
    have back : varMempoolFree var p itemSize mem' =
        some (0, var.setPool (roundedSize itemSize) (mempoolFree pool p mem').1,
          (mempoolFree pool p mem').2) := by
      rw [← varMempoolFree_of_found nonzero table found mem', same]
    have reused : (var.setPool (roundedSize itemSize) (mempoolFree pool p mem').1).sub
        (roundedSize itemSize) = some (mempoolFree pool p mem').1 := by
      rw [VarMempool.sub_setPool, found, Option.map_some]
    have table' := VarMempool.setPool_table table (roundedSize itemSize) (mempoolFree pool p mem').1
    exact ⟨_, _, _, back, reused, rfl,
      fun answers => varMempoolAlloc_reuse nonzero table' reused given answers _⟩

/-! ## The bytes of a block -/

/-- No chunk begins inside a block. -/
theorem Kept.chunk_outside (kept : Kept s freed) {chunk block : Nat} (among : chunk ∈ s.chunks)
    (member : block ∈ freed ++ s.live) (low : block ≤ chunk) : block + s.pool.itemSize ≤ chunk := by
  obtain ⟨home, listed, behind, inside⟩ := kept.inside member
  unfold wordSize at behind
  by_cases same : chunk = home
  · omega
  · rcases kept.chunksApart.forall among listed same with before | after <;> omega

/-- An allocation writes to memory only to link a new chunk. -/
theorem mempoolAlloc_mem {malloc : Option Nat} {cell : Nat}
    (changed : (mempoolAlloc pool malloc mem).2.2 cell ≠ mem cell) :
    pool.asksMalloc ∧ malloc = some cell := by
  unfold mempoolAlloc at changed
  split at changed
  case isTrue => exact absurd rfl changed
  case isFalse head =>
    split at changed
    case isFalse => exact absurd rfl changed
    case isTrue full =>
      cases malloc with
      | none => exact absurd rfl changed
      | some chunk =>
        refine ⟨⟨not_not.mp head, full⟩, ?_⟩
        by_contra other
        exact changed (Function.update_of_ne (fun same => other (by rw [same])) _ _)

/-- The next block is the one given. -/
theorem Kept.nextBlock_eq (kept : Kept s freed) {malloc : Option Nat}
    (allowed : Allowed s (.alloc malloc)) (given : (mempoolAlloc s.pool malloc s.mem).1 ≠ 0) :
    s.pool.nextBlock malloc = some (mempoolAlloc s.pool malloc s.mem).1 := by
  have word := kept.sized.word
  have fits := kept.sized.fits
  have items := Nat.le_mul_of_pos_right s.pool.itemSize kept.sized.nonempty
  unfold mempoolAlloc Mempool.nextBlock at *
  by_cases head : s.pool.reusePtr ≠ 0
  · rw [if_pos head, if_pos head]
  · rw [if_neg head] at given ⊢
    rw [if_neg head]
    by_cases full : s.pool.allocPoolPos = s.pool.totalAllocItem
    · rw [if_pos full] at given ⊢
      rw [if_pos full]
      cases malloc with
      | none => exact absurd rfl given
      | some chunk =>
        have inside := (allowed.2 chunk rfl).inside
        simp only [Option.map_some, Mempool.bump, Nat.mul_zero, Nat.add_zero]
        rw [sizeT, Nat.mod_eq_of_lt]
        unfold wordSize at *
        omega
    · rw [if_neg full, if_neg full]
      have below := Nat.lt_of_le_of_ne kept.within full
      have inside := kept.sized.slot_inside s.pool.allocPtr below
      have granted := (kept.granted _ kept.current).2
      simp only [Mempool.bump, slot] at inside ⊢
      rw [sizeT, Nat.mod_eq_of_lt]
      unfold wordSize at *
      omega

/-- The `memset` clears the first four bytes of a block. -/
theorem byteAt_cleared (aligned : wordSize ∣ p) (mem : Mem) (i : Nat) :
    byteAt (Function.update mem p (mem p / 2 ^ 32 * 2 ^ 32)) (p + i) =
      if i < 4 then 0 else byteAt mem (p + i) := by
  obtain ⟨block, rfl⟩ := aligned
  unfold wordSize byteAt
  by_cases first : i < 8
  · interval_cases i <;> simp <;> omega
  · have other : 8 * block + i - (8 * block + i) % 8 ≠ 8 * block := by omega
    rw [Function.update_of_ne other, if_neg (by omega)]

/-- An allocation writes the first word of chunks only. -/
theorem Opened.written (opened : Opened pagesize state itemSize answers var s) {cell : Nat}
    (changed : (mempoolAlloc s.pool answers.malloc s.mem).2.2 cell ≠ state.mem cell) :
    cell ∈ (step s (.alloc answers.malloc)).chunks := by
  by_cases own : (mempoolAlloc s.pool answers.malloc s.mem).2.2 cell = s.mem cell
  · exact step_chunks (opened.linked cell (own ▸ changed))
  · obtain ⟨asks, given⟩ := mempoolAlloc_mem own
    simp [step, State.take, asks, given]

/-- The bytes of a new block are what they were before. -/
theorem byteAt_varAlloc (kept : VarKept pagesize state) (pages : 0 < pagesize)
    (unsigned : itemSize < 2 ^ 32) (fits : Fits pagesize state itemSize answers)
    (answered : Answered pagesize state itemSize answers)
    (ran : varMempoolAlloc state.var itemSize pagesize answers state.mem = some (p, var, mem))
    (given : p ≠ 0) :
    wordSize ∣ p ∧ state.nextBlock (roundedSize itemSize) answers = some p ∧
      ∀ i < itemSize, byteAt mem (p + i) = byteAt state.mem (p + i) := by
  rcases kept.alloc_cases pages unsigned fits.toServed answered with
    ⟨none_, -⟩ | ⟨var', s, opened⟩
  · rw [ran] at none_
    cases none_
    exact absurd rfl given
  · obtain ⟨freed, keeps⟩ := opened.kept
    have allowed := opened.allowed answered
    obtain ⟨freed', keeps'⟩ := (opened.kept_step kept answered).1
    have taken := opened.ran
    rw [ran] at taken
    obtain ⟨rfl, -, rfl⟩ : p = (mempoolAlloc s.pool answers.malloc s.mem).1 ∧ _ ∧
        mem = (mempoolAlloc s.pool answers.malloc s.mem).2.2 := by
      simpa using taken
    have member := mem_live_alloc given
    have next := keeps.nextBlock_eq allowed given
    have room := le_correctedItemSize (roundedSize_lt unsigned)
    rw [roundedSize_of_whole fits.whole unsigned] at room
    have aligned : wordSize ∣ (mempoolAlloc s.pool answers.malloc s.mem).1 := by
      obtain ⟨chunk, among, index, -, place, -⟩ := keeps'.used _ (List.mem_append_right _ member)
      rw [place]
      exact keeps'.sized.slot_aligned (keeps'.granted chunk among).1 index
    refine ⟨aligned, opened.next.trans next, fun i below => ?_⟩
    unfold byteAt
    congr 2
    by_contra changed
    have outside := keeps'.chunk_outside (opened.written changed)
      (List.mem_append_right _ member) (by unfold wordSize at aligned; omega)
    rw [(step_sizes s _).1, opened.listed.itemSize, roundedSize_of_whole fits.whole unsigned]
      at outside
    omega

/-- Where no list head was freed, an allocation has an answer. -/
theorem VarKept.varMempoolAlloc_total (kept : VarKept pagesize state) (itemSize : Nat)
    (answers : Answers) : ∃ p var mem,
      varMempoolAlloc state.var itemSize pagesize answers state.mem = some (p, var, mem) := by
  have intact (size : Nat) : state.var.bucket size ≠ .freed := kept.table _
  unfold varMempoolAlloc
  dsimp only
  split
  case h_1 get =>
    unfold VarMempool.get at get
    split at get
    · cases get
    · cases here : state.var.bucket (roundedSize itemSize) with
      | null => simp [here] at get
      | list entries => simp [here] at get
      | freed => exact absurd here (intact _)
  case h_2 => exact ⟨_, _, _, rfl⟩
  case h_3 =>
    split
    · exact ⟨_, _, _, rfl⟩
    · split
      · rename_i put
        unfold VarMempool.put at put
        cases here : state.var.bucket (roundedSize itemSize) with
        | freed => exact absurd here (intact _)
        | null =>
          rw [here] at put
          dsimp only at put
          split at put
          · cases put
          · split at put <;> cases put
        | list entries =>
          rw [here] at put
          dsimp only at put
          split at put
          · cases put
          · split at put <;> cases put
      · exact ⟨_, _, _, rfl⟩

/-- In every run, a block of `var_mempool_alloc` is memory of the client's own and comes back if and
only if its size fits, and one of `var_mempool_calloc` is all zero besides if and only if it was so
from its fifth byte on. -/
theorem roundTrips_iff {regTableSize multiple : Nat} {header table : Bool} {empty : VarMempool}
    {start : Mem} (pages : 0 < pagesize) (power : pagesize ∣ 2 ^ 64) (small : pagesize < 2 ^ 31)
    (created : varMempoolCreate regTableSize multiple header table = some empty)
    (run : Reaches (varStep pagesize) (VarAllowed pagesize)
      ⟨empty, start, fun _ => [], fun _ => []⟩ state)
    (unsigned : itemSize < 2 ^ 32) (answered : Answered pagesize state itemSize answers) :
    (∃ p var mem, varMempoolAlloc state.var itemSize pagesize answers state.mem =
        some (p, var, mem) ∧
      (p ≠ 0 → (RoundTrips pagesize state itemSize answers p var mem ↔
        Fits pagesize state itemSize answers))) ∧
    ∃ p var mem, varMempoolCalloc state.var itemSize pagesize answers state.mem =
        some (p, var, mem) ∧
      (p ≠ 0 → (RoundTrips pagesize state itemSize answers p var mem ∧
          (∀ i < itemSize, byteAt mem (p + i) = 0) ↔
        Fits pagesize state itemSize answers ∧ Blank state itemSize answers)) := by
  have kept : VarKept pagesize state :=
    run.invariant (varKept_varMempoolCreate created start) fun kept allowed =>
      kept.step pages allowed
  obtain ⟨p, var, mem, ran⟩ := kept.varMempoolAlloc_total itemSize answers
  have trips (given : p ≠ 0) (mem' : Mem) :
      RoundTrips pagesize state itemSize answers p var mem' ↔
        Fits pagesize state itemSize answers :=
    ⟨RoundTrips.fits kept answered ran given pages power small unsigned,
      fun fits => fits.roundTrips kept pages unsigned answered ran given mem'⟩
  refine ⟨⟨p, var, mem, ran, fun given => trips given mem⟩, ?_⟩
  by_cases given : p ≠ 0
  case neg => exact ⟨p, var, mem, by simp [varMempoolCalloc, ran, given], fun some_ =>
    absurd some_ given⟩
  refine ⟨p, var, Function.update mem p (mem p / 2 ^ 32 * 2 ^ 32),
    by simp [varMempoolCalloc, ran, given], fun _ => ?_⟩
  rw [trips given]
  refine and_congr_right fun fits => ?_
  obtain ⟨aligned, next, bytes⟩ := byteAt_varAlloc kept pages unsigned fits answered ran given
  unfold Blank
  constructor
  · intro zero block among i low below
    obtain rfl := Option.some.inj (next.symm.trans among)
    have cleared := zero i below
    rwa [byteAt_cleared aligned, if_neg (by omega), bytes i below] at cleared
  · intro blank i below
    rw [byteAt_cleared aligned]
    split
    · rfl
    · rw [bytes i below]
      exact blank p next i (by omega) below

/-- Pools of other sizes get no chunk. -/
theorem varStep_chunks_of_ne (apart : size ≠ roundedSize itemSize) :
    (varStep pagesize state (.alloc itemSize answers)).chunks size = state.chunks size := by
  simp only [varStep]
  cases varMempoolAlloc state.var itemSize pagesize answers state.mem with
  | none => rfl
  | some taken => exact Function.update_of_ne apart _ _

/-- A block of 24 bytes behind one of 16 in the same list, in fresh memory. -/
theorem roundTrips_iff_second :
    let state := varStep 4096 ⟨⟨8, fun _ => .null, 1048576⟩, fun _ => 0, fun _ => [], fun _ => []⟩
      (.alloc 16 ⟨true, some 4096, true, true, none⟩)
    let answers : Answers := ⟨true, some 2097152, true, true, none⟩
    ∃ p var mem, varMempoolCalloc state.var 24 4096 answers state.mem = some (p, var, mem) ∧
      (p ≠ 0 → RoundTrips 4096 state 24 answers p var mem ∧
        ∀ i < 24, byteAt mem (p + i) = 0) := by
  let start : VarState := ⟨⟨8, fun _ => .null, 1048576⟩, fun _ => 0, fun _ => [], fun _ => []⟩
  have created : varMempoolCreate 8 1048576 true true = some start.var := by
    simp [varMempoolCreate, start]
  have size16 : start.var.chunkSize 4096 16 = 1048576 := by decide +kernel
  have first : Answered 4096 start 16 ⟨true, some 4096, true, true, none⟩ := by
    refine ⟨?_, nofun, nofun, by decide⟩
    rintro chunk ⟨⟩
    refine ⟨by decide, by decide, ?_, by simp [start]⟩
    show 4096 + start.var.chunkSize 4096 16 ≤ 2 ^ 64
    rw [size16]
    decide
  have allowed : VarAllowed 4096 start (.alloc 16 ⟨true, some 4096, true, true, none⟩) :=
    ⟨by decide, ⟨by decide, by decide +kernel, fun _ => ⟨rfl, fun _ => rfl⟩⟩, first⟩
  intro state answers
  have chunkSize (size : Nat) : state.var.chunkSize 4096 size = start.var.chunkSize 4096 size := rfl
  have size24 : state.var.chunkSize 4096 24 = 1048576 := by decide +kernel
  have mem : state.mem = fun _ => 0 := Function.update_eq_self _ _
  have clear : Clear 4096 state (roundedSize 24) 2097152 := by
    refine ⟨by decide, by decide, ?_, ?_⟩
    · show 2097152 + state.var.chunkSize 4096 24 ≤ 2 ^ 64
      rw [size24]
      decide
    · intro size other among
      right
      by_cases own : size = roundedSize 16
      · subst own
        have listed : other ∈ [4096] := among
        obtain rfl := List.mem_singleton.mp listed
        show 4096 + state.var.chunkSize 4096 16 ≤ 2097152
        rw [chunkSize, size16]
        decide
      · have none_ : state.chunks size = [] := varStep_chunks_of_ne own
        rw [none_] at among
        cases among
  have answered : Answered 4096 state 24 answers := by
    refine ⟨?_, nofun, nofun, by decide +kernel⟩
    rintro chunk ⟨⟩
    exact clear
  have fits : Fits 4096 state 24 answers :=
    ⟨⟨by decide, by decide +kernel, fun _ => ⟨rfl, fun _ => rfl⟩⟩, by decide⟩
  obtain ⟨p, var, mem', ran, trips⟩ := (roundTrips_iff (by decide) (by decide) (by decide) created
    (Reaches.refl.call allowed) (by decide) answered).2
  refine ⟨p, var, mem', ran, fun given => (trips given).mpr ⟨fits, ?_⟩⟩
  intro block _ i _ _
  rw [mem]
  simp [byteAt]

/-- A block of 9 bytes comes from the pool for 17, and is not freed as one of 9. -/
theorem ragged_not_freed :
    ¬ ∀ {pagesize regTableSize multiple itemSize p : Nat} {empty var : VarMempool}
      {start mem : Mem} {state : VarState} {answers : Answers},
      0 < pagesize → pagesize ∣ 2 ^ 64 → pagesize < 2 ^ 31 →
      varMempoolCreate regTableSize multiple true true = some empty →
      Reaches (varStep pagesize) (VarAllowed pagesize)
        ⟨empty, start, fun _ => [], fun _ => []⟩ state →
      0 < itemSize → itemSize < 2 ^ 32 → Answered pagesize state itemSize answers →
      varMempoolAlloc state.var itemSize pagesize answers state.mem = some (p, var, mem) →
      p ≠ 0 → RoundTrips pagesize state itemSize answers p var mem := by
  intro claim
  let empty : VarMempool := ⟨1, fun _ => .null, 1048576⟩
  let answers : Answers := ⟨true, some 4096, true, true, none⟩
  have created : varMempoolCreate 1 1048576 true true = some empty := by
    simp [varMempoolCreate, empty]
  let state : VarState := ⟨empty, fun _ => 0, fun _ => [], fun _ => []⟩
  have answered : Answered 4096 state 9 answers := by
    refine ⟨?_, nofun, nofun, by decide⟩
    rintro chunk ⟨⟩
    have size17 : state.var.chunkSize 4096 17 = 1048576 := by decide +kernel
    refine ⟨by decide, by decide, ?_, by simp [state]⟩
    show 4096 + state.var.chunkSize 4096 17 ≤ 2 ^ 64
    rw [size17]
    decide
  have kept : VarKept 4096 state := varKept_varMempoolCreate created _
  have place : (varMempoolAlloc state.var 9 4096 answers state.mem).map Prod.fst = some 4104 := by
    decide +kernel
  obtain ⟨⟨p, var, mem⟩, ran, rfl⟩ := Option.map_eq_some_iff.mp place
  have trips := claim (by decide) (by decide) (by decide) created .refl (by decide) (by decide)
    answered ran (by decide)
  have fits := trips.fits kept answered ran (by decide) (by decide) (by decide) (by decide)
    (by decide)
  exact absurd fits.whole (by decide)

end Taomee.Monster
