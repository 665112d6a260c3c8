import Taomee.Monster.Blocks

/-!
# monster: pools of every size

`variable_mempool_t` keeps a pool for each size that was asked for, in a table of lists. What the
system calls answer is a parameter of every call that may ask them. Where a list head that
`var_mempool_put` has freed would be read there is no result.
-/

namespace Taomee.Monster

/-- A `variable_mempool_entry_t` of a list. -/
structure Entry where
  itemSize : Nat
  pool : Mempool

/-- An entry of `mempool_table`: null, a list head with its list, or one that was freed. -/
inductive Bucket where
  | null
  | list (entries : List Entry)
  | freed

structure VarMempool where
  tableSize : Nat
  mempoolTable : Nat → Bucket
  multiple : Int

/-- What the system answers in a call: to the record and the chunk of a new pool, to the list head
and the node of a new entry, and to another chunk. A null result is `false` or `none`. -/
structure Answers where
  header : Bool
  chunk : Option Nat
  entry : Bool
  node : Bool
  malloc : Option Nat

/-- The pool of the first entry with the size. -/
def poolOf (itemSize : Nat) : List Entry → Option Mempool
  | [] => none
  | entry :: rest => if entry.itemSize = itemSize then some entry.pool else poolOf itemSize rest

/-- The first entry with the size gets another pool. -/
def setPoolOf (itemSize : Nat) (pool : Mempool) : List Entry → List Entry
  | [] => []
  | entry :: rest =>
    if entry.itemSize = itemSize then { entry with pool := pool } :: rest
    else entry :: setPoolOf itemSize pool rest

/-- `var_mempool_create`, with the answers to its two `calloc`s. -/
def varMempoolCreate (regTableSize multiple : Nat) (header table : Bool) : Option VarMempool :=
  if regTableSize = 0 ∨ multiple = 0 then none
  else if !header || !table then none
  else some ⟨regTableSize, fun _ => .null, Int.bmod multiple (2 ^ 32)⟩

namespace VarMempool

def bucket (var : VarMempool) (itemSize : Nat) : Bucket :=
  var.mempoolTable (itemSize % var.tableSize)

def setBucket (var : VarMempool) (itemSize : Nat) (bucket : Bucket) : VarMempool :=
  { var with
    mempoolTable := Function.update var.mempoolTable (itemSize % var.tableSize) bucket }

/-- `var_mempool_get` -/
def get (var : VarMempool) (itemSize : Nat) : Option (Option Mempool) :=
  if itemSize = 0 then some none
  else
    match var.bucket itemSize with
    | .null => some none
    | .list entries => some (poolOf itemSize entries)
    | .freed => none

/-- `var_mempool_put` with a pool; what it returns is not looked at. -/
def put (var : VarMempool) (itemSize : Nat) (subPool : Mempool) (entry node : Bool) :
    Option VarMempool :=
  match var.bucket itemSize with
  | .freed => none
  | .list entries =>
    if (poolOf itemSize entries).isSome then
      some (var.setBucket itemSize (.list (setPoolOf itemSize subPool entries)))
    else if node then some (var.setBucket itemSize (.list (⟨itemSize, subPool⟩ :: entries)))
    else some (var.setBucket itemSize .freed)
  | .null =>
    if !entry then some var
    else if node then some (var.setBucket itemSize (.list [⟨itemSize, subPool⟩]))
    else some (var.setBucket itemSize .freed)

/-- The pool of a size has changed; entries point to their pools. -/
def setPool (var : VarMempool) (itemSize : Nat) (pool : Mempool) : VarMempool :=
  match var.bucket itemSize with
  | .list entries => var.setBucket itemSize (.list (setPoolOf itemSize pool entries))
  | _ => var

end VarMempool

/-- The size that `var_mempool_alloc` looks up; `item_size` is an `unsigned int`. -/
def roundedSize (itemSize : Nat) : Nat :=
  if itemSize % wordSize ≠ 0 then (itemSize + (itemSize - itemSize % wordSize)) % 2 ^ 32
  else itemSize

/-- `var_mempool_alloc` -/
def varMempoolAlloc (var : VarMempool) (itemSize pagesize : Nat) (answers : Answers) (mem : Mem) :
    Option (Nat × VarMempool × Mem) :=
  let itemSize := roundedSize itemSize
  match var.get itemSize with
  | none => none
  | some (some pool) =>
    let (p, pool, mem) := mempoolAlloc pool answers.malloc mem
    some (p, var.setPool itemSize pool, mem)
  | some none =>
    let allocSize := (var.multiple % 2 ^ 64).toNat
    match mempoolCreate itemSize allocSize pagesize answers.header answers.chunk mem with
    | none => some (0, var, mem)
    | some (pool, mem) =>
      match var.put itemSize pool answers.entry answers.node with
      | none => none
      | some var =>
        let (p, pool, mem) := mempoolAlloc pool answers.malloc mem
        some (p, var.setPool itemSize pool, mem)

/-- `var_mempool_calloc`: the `memset` clears `sizeof(item_size)` bytes, the lower half of the
first word. -/
def varMempoolCalloc (var : VarMempool) (itemSize pagesize : Nat) (answers : Answers) (mem : Mem) :
    Option (Nat × VarMempool × Mem) :=
  (varMempoolAlloc var itemSize pagesize answers mem).map fun (p, var, mem) =>
    if p ≠ 0 then (p, var, Function.update mem p (mem p / 2 ^ 32 * 2 ^ 32)) else (p, var, mem)

/-- `var_mempool_free` -/
def varMempoolFree (var : VarMempool) (data dataSize : Nat) (mem : Mem) :
    Option (Int × VarMempool × Mem) :=
  match var.get dataSize with
  | none => none
  | some none => some (-1, var, mem)
  | some (some pool) =>
    let (pool, mem) := mempoolFree pool data mem
    some (0, var.setPool dataSize pool, mem)

/-- A byte of memory; the lowest of a word comes first. -/
def byteAt (mem : Mem) (address : Nat) : Nat :=
  mem (address - address % 8) / 256 ^ (address % 8) % 256

/-! ## The table -/

namespace VarMempool

/-- The pool of a size that the table leads to. -/
def sub (var : VarMempool) (itemSize : Nat) : Option Mempool :=
  match var.bucket itemSize with
  | .list entries => poolOf itemSize entries
  | _ => none

variable {var : VarMempool} {c d : Nat} {pool other : Mempool}

theorem poolOf_setPoolOf (entries : List Entry) :
    poolOf c (setPoolOf c pool entries) = (poolOf c entries).map fun _ => pool := by
  induction entries with
  | nil => rfl
  | cons entry rest ih =>
    unfold setPoolOf poolOf
    by_cases same : entry.itemSize = c
    · simp [same]
    · simp [same, ih]

theorem poolOf_setPoolOf_of_ne (apart : d ≠ c) (entries : List Entry) :
    poolOf d (setPoolOf c pool entries) = poolOf d entries := by
  induction entries with
  | nil => rfl
  | cons entry rest ih =>
    unfold setPoolOf
    by_cases same : entry.itemSize = c
    · simp [same, poolOf, apart.symm]
    · simp [same, poolOf, ih]

/-- What a change of one list does to the other sizes. -/
theorem sub_setBucket_list {entries : List Entry} (c : Nat) (d : Nat)
    (same : d % var.tableSize = c % var.tableSize → poolOf d entries = var.sub d) :
    (var.setBucket c (.list entries)).sub d = var.sub d := by
  by_cases shared : d % var.tableSize = c % var.tableSize
  · have moved : (var.setBucket c (.list entries)).sub d = poolOf d entries := by
      unfold sub bucket setBucket
      dsimp only
      rw [shared, Function.update_self]
    rw [moved, same shared]
  · unfold sub bucket setBucket
    dsimp only
    rw [Function.update_of_ne shared]

theorem sub_setBucket_self (entries : List Entry) (c : Nat) :
    (var.setBucket c (.list entries)).sub c = poolOf c entries := by
  unfold sub bucket setBucket
  dsimp only
  rw [Function.update_self]

theorem sub_of_list {entries : List Entry} (here : var.bucket c = .list entries)
    (shared : d % var.tableSize = c % var.tableSize) : var.sub d = poolOf d entries := by
  unfold sub bucket
  rw [shared]
  unfold bucket at here
  rw [here]

/-- The pools of other sizes stay. -/
theorem sub_setPool_of_ne (apart : d ≠ c) : (var.setPool c pool).sub d = var.sub d := by
  unfold setPool
  cases here : var.bucket c with
  | null => rfl
  | freed => rfl
  | list entries =>
    refine sub_setBucket_list c d fun shared => ?_
    rw [poolOf_setPoolOf_of_ne apart, sub_of_list here shared]

/-- A pool that is there is replaced. -/
theorem sub_setPool (var : VarMempool) (c : Nat) (pool : Mempool) :
    (var.setPool c pool).sub c = (var.sub c).map fun _ => pool := by
  unfold setPool
  cases here : var.bucket c with
  | null => simp [sub, here]
  | freed => simp [sub, here]
  | list entries =>
    rw [sub_setBucket_self, poolOf_setPoolOf, sub_of_list here rfl]

theorem setPool_table (table : ∀ i, var.mempoolTable i ≠ .freed) (c : Nat) (pool : Mempool) :
    ∀ i, (var.setPool c pool).mempoolTable i ≠ .freed := by
  intro i
  unfold setPool
  split
  · by_cases same : i = c % var.tableSize
    · subst same
      simp [setBucket]
    · simpa [setBucket, Function.update_of_ne same] using table i
  · exact table i

theorem setPool_multiple (var : VarMempool) (c : Nat) (pool : Mempool) :
    (var.setPool c pool).multiple = var.multiple := by
  unfold setPool
  split <;> rfl

/-- `get` finds the pool of a size, unless its bucket was freed. -/
theorem get_eq (var : VarMempool) (c : Nat) : var.get c =
    if c = 0 then some none
    else if var.bucket c matches .freed then none
    else some (var.sub c) := by
  unfold get sub
  split
  · rfl
  · cases var.bucket c <;> rfl

/-- The pool found is that of the size. -/
theorem get_found (found : var.get c = some (some pool)) : c ≠ 0 ∧ var.sub c = some pool := by
  rw [get_eq] at found
  split at found
  case isTrue => cases found
  case isFalse nonzero =>
    split at found
    · cases found
    · exact ⟨nonzero, Option.some.inj found⟩

/-- The pool of a size is found. -/
theorem get_of_found (nonzero : c ≠ 0) (table : ∀ i, var.mempoolTable i ≠ .freed)
    (found : var.sub c = some pool) : var.get c = some (some pool) := by
  rw [get_eq, if_neg nonzero, found]
  unfold bucket
  cases here : var.mempoolTable (c % var.tableSize) with
  | freed => exact absurd here (table _)
  | null => rfl
  | list entries => rfl

theorem put_multiple {entry node : Bool} {var' : VarMempool}
    (done : var.put c pool entry node = some var') : var'.multiple = var.multiple := by
  unfold put at done
  split at done
  · cases done
  · split at done
    · cases done
      rfl
    · split at done <;> cases done <;> rfl
  · split at done
    · cases done
      rfl
    · split at done <;> cases done <;> rfl

/-- A new entry leads to its pool, where its memory could be had. -/
theorem put_new (table : ∀ i, var.mempoolTable i ≠ .freed) (new : var.sub c = none)
    {entry : Bool} (head : var.bucket c = .null → entry = true) :
    ∃ var', var.put c pool entry true = some var' ∧ (∀ i, var'.mempoolTable i ≠ .freed) ∧
      var'.tableSize = var.tableSize ∧ var'.multiple = var.multiple ∧
      var'.sub c = some pool ∧ ∀ d ≠ c, var'.sub d = var.sub d := by
  have kept (entries : List Entry) (i : Nat) :
      (var.setBucket c (.list entries)).mempoolTable i ≠ .freed := by
    by_cases same : i = c % var.tableSize
    · subst same
      simp [setBucket]
    · simpa [setBucket, Function.update_of_ne same] using table i
  unfold put
  cases here : var.bucket c with
  | freed => exact absurd here (table _)
  | null =>
    refine ⟨var.setBucket c (.list [⟨c, pool⟩]), by simp [head here], kept _, rfl, rfl, ?_, ?_⟩
    · rw [sub_setBucket_self]
      simp [poolOf]
    · intro d apart
      refine sub_setBucket_list c d fun shared => ?_
      have before : var.sub d = none := by
        unfold sub bucket
        rw [shared]
        unfold bucket at here
        rw [here]
      simp [poolOf, apart.symm, before]
  | list entries =>
    have absent : poolOf c entries = none := by rw [← sub_of_list here rfl, new]
    refine ⟨var.setBucket c (.list (⟨c, pool⟩ :: entries)), by simp [absent], kept _, rfl, rfl,
      ?_, ?_⟩
    · rw [sub_setBucket_self]
      simp [poolOf]
    · intro d apart
      refine sub_setBucket_list c d fun shared => ?_
      rw [sub_of_list here shared]
      simp [poolOf, apart.symm]

/-- A new entry without its memory is not found, or its list is gone. -/
theorem put_fails (new : var.sub c = none) {entry node : Bool}
    (short : ¬ (node = true ∧ (var.bucket c = .null → entry = true))) {var' : VarMempool}
    (done : var.put c pool entry node = some var') : var'.sub c = none := by
  revert done
  unfold put
  cases here : var.bucket c with
  | freed => exact fun done => nomatch done
  | null =>
    cases entry with
    | false =>
      rintro ⟨⟩
      exact new
    | true =>
      have out : node = false := by simpa [here] using short
      subst out
      rintro ⟨⟩
      simp [sub, bucket, setBucket]
  | list entries =>
    have absent : poolOf c entries = none := by rw [← sub_of_list here rfl, new]
    have out : node = false := by simpa [here] using short
    subst out
    simp only [absent]
    rintro ⟨⟩
    simp [sub, bucket, setBucket]

end VarMempool

end Taomee.Monster
