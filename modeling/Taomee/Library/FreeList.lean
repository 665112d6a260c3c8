import Mathlib.Data.List.Nodup
import Mathlib.Data.List.Perm.Subperm

/-!
# Lists threaded through their own cells

Every cell on the list holds the next one, and the last holds `null`.
-/

namespace Taomee.FreeList

variable {α : Type*} {null : α} {mem mem' : α → α} {head : α} {cells : List α}

/-- The cells met from a pointer on, as the memory links them. -/
inductive Chain (null : α) (mem : α → α) : α → List α → Prop where
  | nil : Chain null mem null []
  | cons {head : α} {rest : List α} (live : head ≠ null) (tail : Chain null mem (mem head) rest) :
      Chain null mem head (head :: rest)

theorem Chain.null_not_mem (chain : Chain null mem head cells) : null ∉ cells := by
  induction chain with
  | nil => simp
  | cons live _ ih => simp [live.symm, ih]

/-- Only the words in the cells themselves count. -/
theorem Chain.congr (chain : Chain null mem head cells)
    (same : ∀ cell ∈ cells, mem' cell = mem cell) : Chain null mem' head cells := by
  induction chain with
  | nil => exact .nil
  | @cons head rest live _ ih =>
    have linked : mem' head = mem head := same head (List.mem_cons_self ..)
    refine .cons live ?_
    rw [linked]
    exact ih fun cell member => same cell (List.mem_cons_of_mem _ member)

/-- Taking the first cell off leaves the list from the pointer it held. -/
theorem Chain.pop (chain : Chain null mem head cells) (live : head ≠ null) :
    ∃ rest, cells = head :: rest ∧ Chain null mem (mem head) rest := by
  cases chain with
  | nil => exact absurd rfl live
  | cons _ tail => exact ⟨_, rfl, tail⟩

theorem Chain.eq_nil (chain : Chain null mem null cells) : cells = [] := by
  cases chain with
  | nil => rfl
  | cons live => exact absurd rfl live

/-- The memory links one list from a pointer on. -/
theorem Chain.unique (chain : Chain null mem head cells) {cells' : List α}
    (chain' : Chain null mem head cells') : cells = cells' := by
  induction chain generalizing cells' with
  | nil => exact chain'.eq_nil.symm
  | cons live _ ih =>
    obtain ⟨rest, rfl, tail⟩ := chain'.pop live
    rw [ih tail]

/-- From a cell on that is not met before, links that are linked back go on to cells that are not
met before; `seen` are those behind. -/
theorem exists_chain_from {prev : α → α} {within : List α}
    (back : ∀ cell ∈ within, mem cell ≠ null → mem cell ∈ within ∧ prev (mem cell) = cell)
    {seen : List α} (distinct : seen.Nodup) (inside : ∀ cell ∈ seen, cell ∈ within)
    (closed : ∀ cell ∈ seen, prev cell = null ∨ prev cell ∈ seen)
    (start : head ≠ null → head ∈ within ∧ head ∉ seen ∧ (prev head = null ∨ prev head ∈ seen)) :
    ∃ cells, Chain null mem head cells ∧ cells.Nodup ∧ ∀ cell ∈ cells, cell ∈ within ∧ cell ∉ seen := by
  induction room : within.length - seen.length generalizing head seen with
  | zero =>
    by_cases live : head = null
    · exact ⟨[], live ▸ .nil, List.nodup_nil, fun cell member => by cases member⟩
    · obtain ⟨member, unseen, -⟩ := start live
      have all : head :: seen ⊆ within := List.cons_subset.mpr ⟨member, inside⟩
      have more := (List.subperm_of_subset (List.nodup_cons.mpr ⟨unseen, distinct⟩) all).length_le
      rw [List.length_cons] at more
      omega
  | succ room ih =>
    by_cases live : head = null
    · exact ⟨[], live ▸ .nil, List.nodup_nil, fun cell member => by cases member⟩
    · obtain ⟨member, unseen, behind⟩ := start live
      have closed' : ∀ cell ∈ head :: seen, prev cell = null ∨ prev cell ∈ seen := by
        intro cell here
        obtain rfl | here := List.mem_cons.mp here
        · exact behind
        · exact closed cell here
      have inside' : ∀ cell ∈ head :: seen, cell ∈ within := List.cons_subset.mpr ⟨member, inside⟩
      obtain ⟨rest, chain, distinct', within'⟩ := @ih (mem head) (head :: seen)
        (List.nodup_cons.mpr ⟨unseen, distinct⟩) inside'
        (fun cell here => (closed' cell here).imp_right (List.mem_cons_of_mem _))
        (fun live' => by
          obtain ⟨member', linked⟩ := back head member live'
          refine ⟨member', fun here => ?_, .inr (linked.symm ▸ List.mem_cons_self)⟩
          -- A cell met before is linked back to one before it, not to this one.
          obtain null' | earlier := closed' _ here
          · exact live (linked.symm.trans null')
          · exact unseen (linked ▸ earlier))
        (by rw [List.length_cons]; omega)
      refine ⟨head :: rest, .cons live chain, List.nodup_cons.mpr ⟨fun here => ?_, distinct'⟩, ?_⟩
      · exact (within' head here).2 List.mem_cons_self
      · intro cell here
        obtain rfl | here := List.mem_cons.mp here
        · exact ⟨member, unseen⟩
        · exact ⟨(within' cell here).1, fun earlier => (within' cell here).2
            (List.mem_cons_of_mem _ earlier)⟩

/-- Links among so many cells that are linked back lead to an end without repetition. -/
theorem exists_chain {prev : α → α} {within : List α}
    (back : ∀ cell ∈ within, mem cell ≠ null → mem cell ∈ within ∧ prev (mem cell) = cell)
    (start : head ≠ null → head ∈ within ∧ prev head = null) :
    ∃ cells, Chain null mem head cells ∧ cells.Nodup ∧ ∀ cell ∈ cells, cell ∈ within := by
  obtain ⟨cells, chain, distinct, inside⟩ :=
    exists_chain_from back List.nodup_nil (fun _ none => by cases none)
      (fun _ none => by cases none) fun live =>
        ⟨(start live).1, List.not_mem_nil, .inl (start live).2⟩
  exact ⟨cells, chain, distinct, fun cell member => (inside cell member).1⟩

section

variable [DecidableEq α]

/-- A word stored elsewhere leaves the list alone. -/
theorem Chain.store (chain : Chain null mem head cells) {cell : α} (apart : cell ∉ cells)
    (word : α) : Chain null (Function.update mem cell word) head cells :=
  chain.congr fun _ member =>
    Function.update_of_ne (ne_of_mem_of_not_mem member apart) word mem

/-- A cell off the list becomes its first one by holding the old head. -/
theorem Chain.push (chain : Chain null mem head cells) {cell : α} (live : cell ≠ null)
    (apart : cell ∉ cells) : Chain null (Function.update mem cell head) cell (cell :: cells) := by
  refine .cons live ?_
  rw [Function.update_self]
  exact chain.store apart head

end

end Taomee.FreeList
