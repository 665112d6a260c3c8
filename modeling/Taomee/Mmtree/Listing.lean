import Taomee.Mmtree.Runs
import Taomee.Mmtree.Traversal

/-!
# What a run leaves to list

After any run that finds its slots, `traversal` is a fold over the finite map in key order.
-/

namespace Taomee.Mmtree

open RBTree

/-- After every run from a new file whose calls find their slots, `traversal` hands each binding of
the finite map to the callback once, by ascending key. -/
theorem traversal_folds_finmap {σ : Type} (calls : List (Call × Bool))
    (inRange : Throughout (fun t step => step.1.InRange t step.2) CMmtree.initNewFile calls) :
    ∃ t, ∃ bindings : List (Int × Int32), CMmtree.initNewFile.run calls =
        some (t, (Contents.run ∅ (calls.map Prod.fst)).2) ∧
      (bindings.map Prod.fst).Pairwise (· < ·) ∧
      (∀ key data, (key, data) ∈ bindings ↔
        (Contents.run ∅ (calls.map Prod.fst)).1.lookup key = some data) ∧
      ∀ (cb : Int → Int32 → σ → Option σ) (param : σ), t.traversal cb param =
        (bindings.foldlM (fun param item => cb item.1 item.2 param) param).map fun param =>
          (t, 0, param) := by
  obtain ⟨t, tree, queue, ran, wf, mapped, represents⟩ :=
    run_refines wellFormed_initNewFile rfl represents_empty inRange
  refine ⟨t, tree.toList.map fun s => (s.key, s.data), ran, ?_, fun key data => ?_,
    fun cb param => ?_⟩
  · rw [List.map_map]
    exact wf.sorted
  · rw [represents key data]
    simp only [List.mem_map, Prod.mk.injEq]
    constructor
    · rintro ⟨s, member, rfl, rfl⟩
      exact ⟨s.id, member⟩
    · rintro ⟨id, member⟩
      exact ⟨_, member, rfl, rfl⟩
  · rw [wf.ordered.traversal_spec cb wf.inited mapped, List.foldlM_map]

theorem traversal_folds_finmap_two :
    ∃ t, ∃ bindings : List (Int × Int32),
      CMmtree.initNewFile.run [(.insert 5 7, true), (.insert 3 1, true)] =
        some (t, [⟨0, none⟩, ⟨0, none⟩]) ∧ (bindings.map Prod.fst).Pairwise (· < ·) ∧
      t.traversal (fun key _ sum => some (sum + key)) (0 : Int) =
        (bindings.foldlM (fun sum item => some (sum + item.1)) 0).map fun sum => (t, 0, sum) := by
  obtain ⟨t, bindings, ran, ascending, -, folds⟩ := traversal_folds_finmap (σ := Int)
    [(.insert 5 7, true), (.insert 3 1, true)] (by decide +kernel)
  exact ⟨t, bindings, ran, ascending, folds _ 0⟩

end Taomee.Mmtree
