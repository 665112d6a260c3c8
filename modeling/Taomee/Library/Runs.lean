import Mathlib.Data.List.Induction
import Mathlib.Logic.Function.Iterate
import Mathlib.Order.WellFounded
import Mathlib.Tactic.Common

/-!
# Runs under a discipline

A deterministic step function, and the calls its environment may make in a state.
`Reaches` are the states of the finite runs that make only such calls.
-/

namespace Taomee.Runs

variable {σ ι : Type*} {step : σ → ι → σ} {allowed weaker : σ → ι → Prop} {start state : σ}

/-- The states reached when every call is allowed where it is made. -/
inductive Reaches (step : σ → ι → σ) (allowed : σ → ι → Prop) (start : σ) : σ → Prop where
  | refl : Reaches step allowed start start
  | call {state : σ} {call : ι} (prior : Reaches step allowed start state)
      (fits : allowed state call) : Reaches step allowed start (step state call)

/-- What holds at the start and survives every allowed call holds throughout. -/
theorem Reaches.invariant {inv : σ → Prop} (run : Reaches step allowed start state)
    (initial : inv start)
    (preserved : ∀ {state call}, inv state → allowed state call → inv (step state call)) :
    inv state := by
  induction run with
  | refl => exact initial
  | call _ fits ih => exact preserved ih fits

/-- Calls that are allowed in any state, one after the other. -/
theorem Reaches.of_list {calls : List ι} (fits : ∀ call ∈ calls, ∀ state, allowed state call) :
    Reaches step allowed start (calls.foldl step start) := by
  induction calls using List.reverseRecOn with
  | nil => exact .refl
  | append_singleton calls call ih =>
    rw [List.foldl_append]
    have prior := ih fun earlier member => fits earlier (List.mem_append_left _ member)
    exact prior.call (fits call (List.mem_append_right _ (List.mem_singleton_self call)) _)

/-- Calls that are allowed one after the other. -/
def Follows (step : σ → ι → σ) (allowed : σ → ι → Prop) : σ → List ι → Prop
  | _, [] => True
  | state, call :: rest => allowed state call ∧ Follows step allowed (step state call) rest

instance Follows.decidable (step : σ → ι → σ) (allowed : σ → ι → Prop)
    [∀ state call, Decidable (allowed state call)] :
    ∀ state calls, Decidable (Follows step allowed state calls)
  | _, [] => inferInstanceAs (Decidable True)
  | state, call :: rest =>
    have := Follows.decidable step allowed (step state call) rest
    inferInstanceAs (Decidable (_ ∧ _))

theorem Reaches.follow {calls : List ι} (run : Reaches step allowed start state)
    (follows : Follows step allowed state calls) :
    Reaches step allowed start (calls.foldl step state) := by
  induction calls generalizing state with
  | nil => exact run
  | cons call rest ih => exact ih (run.call follows.1) follows.2

/-- The states reached in so many calls. -/
inductive Lasts (step : σ → ι → σ) (allowed : σ → ι → Prop) (start : σ) : Nat → σ → Prop where
  | refl : Lasts step allowed start 0 start
  | call {length : Nat} {state : σ} {call : ι} (prior : Lasts step allowed start length state)
      (fits : allowed state call) : Lasts step allowed start (length + 1) (step state call)

/-- A rank that every call lowers bounds the length of a run. -/
theorem Lasts.length_le {rank : σ → Nat → Prop} {length bound : Nat}
    (run : Lasts step allowed start length state) (initial : rank start bound)
    (lowers : ∀ {state call high}, rank state high → allowed state call →
      ∃ low < high, rank (step state call) low) : length ≤ bound := by
  have ranked : ∃ left, rank state left ∧ left + length ≤ bound := by
    induction run with
    | refl => exact ⟨bound, initial, Nat.le_refl _⟩
    | call _ fits ih =>
      obtain ⟨high, before, within⟩ := ih
      obtain ⟨low, lower, after⟩ := lowers before fits
      exact ⟨low, after, by omega⟩
  omega

/-! ## A loop without input -/

section
variable {body : σ → σ} {inv stop : σ → Prop}

/-- What the body of a loop keeps holds after any number of turns. -/
theorem iterate_invariant (keeps : ∀ {state}, inv state → inv (body state)) (initial : inv start)
    (turns : Nat) : inv (body^[turns] start) := by
  induction turns with
  | zero => exact initial
  | succ turns ih =>
    rw [Function.iterate_succ_apply']
    exact keeps ih

/-- A loop stops when every turn before the end lowers a rank. -/
theorem exists_iterate {β : Type*} [Preorder β] [WellFoundedLT β] (rank : σ → β)
    (inv stop : σ → Prop) (lowers : ∀ {state}, inv state → ¬ stop state →
      inv (body state) ∧ rank (body state) < rank state) (initial : inv start) :
    ∃ turns, stop (body^[turns] start) := by
  induction place : rank start using WellFoundedLT.induction generalizing start with
  | ind height ih =>
    by_cases ended : stop start
    · exact ⟨0, ended⟩
    · obtain ⟨holds, lower⟩ := lowers initial ended
      obtain ⟨turns, stopped⟩ := ih _ (place ▸ lower) holds rfl
      exact ⟨turns + 1, stopped⟩

end

end Taomee.Runs
