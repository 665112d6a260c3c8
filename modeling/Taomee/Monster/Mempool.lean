import Mathlib.Algebra.Order.Ring.Int

/-!
# monster: the pool of blocks of one size

Memory is read and written in words of eight bytes, by address. What `malloc` answers is a
parameter of every call that may ask it. Sizes and addresses are taken modulo `2 ^ 64`, the
count of references modulo `2 ^ 32` with a sign.
-/

namespace Taomee.Monster

abbrev Mem := Nat → Nat

def wordSize : Nat := 8
def defaultAllocSize : Nat := 100

/-- A `size_t`, and an address. -/
def sizeT (n : Nat) : Nat := n % 2 ^ 64

structure Mempool where
  itemSize : Nat
  allocSize : Nat
  totalAllocItem : Nat
  reusePtr : Nat
  allocPtr : Nat
  allocPoolPos : Nat
  refCount : Int

/-- `item_size` as `mempool_create` corrects it. -/
def correctedItemSize (itemSize : Nat) : Nat :=
  let itemSize := if itemSize < wordSize then wordSize else itemSize
  if itemSize % wordSize ≠ 0 then sizeT (itemSize + wordSize - itemSize % wordSize) else itemSize

/-- `alloc_size` as `mempool_create` corrects it, from the corrected `item_size`. -/
def correctedAllocSize (itemSize allocSize pagesize : Nat) : Nat :=
  let least := sizeT (itemSize * defaultAllocSize + wordSize)
  let allocSize := if allocSize ≤ least then least else allocSize
  let allocSize :=
    if allocSize ≤ defaultAllocSize * pagesize then defaultAllocSize * pagesize else allocSize
  if allocSize % pagesize ≠ 0 then sizeT (allocSize + pagesize - allocSize % pagesize)
  else allocSize

/-- `header` says whether `calloc` found room for the record, `malloc` where the first chunk is.
A null result is `none`. An `item_size` corrected to zero divides by zero; the model gives no
items there. -/
def mempoolCreate (itemSize allocSize pagesize : Nat) (header : Bool) (malloc : Option Nat)
    (mem : Mem) : Option (Mempool × Mem) :=
  if header = false then none
  else
    let itemSize := correctedItemSize itemSize
    let allocSize := correctedAllocSize itemSize allocSize pagesize
    match malloc with
    | none => none
    | some chunk =>
      some
        ({ itemSize, allocSize, totalAllocItem := sizeT (2 ^ 64 + allocSize - wordSize) / itemSize
           reusePtr := 0, allocPtr := chunk, allocPoolPos := 0, refCount := 0 },
          Function.update mem chunk 0)

def Mempool.incRefcount (pool : Mempool) : Mempool :=
  { pool with refCount := (pool.refCount + 1).bmod (2 ^ 32) }

/-- The branch that takes a new chunk. -/
def Mempool.asksMalloc (pool : Mempool) : Prop :=
  pool.reusePtr = 0 ∧ pool.allocPoolPos = pool.totalAllocItem

instance (pool : Mempool) : Decidable pool.asksMalloc := inferInstanceAs (Decidable (_ ∧ _))

/-- The next block of the current chunk. -/
def Mempool.bump (pool : Mempool) : Nat × Mempool :=
  (sizeT (pool.allocPtr + wordSize + pool.itemSize * pool.allocPoolPos),
    { pool with allocPoolPos := sizeT (pool.allocPoolPos + 1) }.incRefcount)

def mempoolAlloc (pool : Mempool) (malloc : Option Nat) (mem : Mem) : Nat × Mempool × Mem :=
  if pool.reusePtr ≠ 0 then
    let p := pool.reusePtr
    (p, { pool with reusePtr := mem p }.incRefcount, mem)
  else if pool.allocPoolPos = pool.totalAllocItem then
    match malloc with
    | none => (0, pool, mem)
    | some chunk =>
      let (p, pool') := { pool with allocPtr := chunk, allocPoolPos := 0 }.bump
      (p, pool', Function.update mem chunk pool.allocPtr)
  else
    let (p, pool') := pool.bump
    (p, pool', mem)

/-- The `memset` clears `sizeof(pool->item_size)` bytes: one word. -/
def mempoolCalloc (pool : Mempool) (malloc : Option Nat) (mem : Mem) : Nat × Mempool × Mem :=
  let (p, pool', mem') := mempoolAlloc pool malloc mem
  if p ≠ 0 then (p, pool', Function.update mem' p 0) else (p, pool', mem')

def mempoolFree (pool : Mempool) (data : Nat) (mem : Mem) : Mempool × Mem :=
  ({ pool with reusePtr := data, refCount := (pool.refCount - 1).bmod (2 ^ 32) },
    Function.update mem data pool.reusePtr)

end Taomee.Monster
