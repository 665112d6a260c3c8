import Mathlib.Tactic.Common

/-!
# Machines that reply

A deterministic machine answers every call with a reply and a next state. Two machines that
are related state by state give the same replies to any sequence of calls.
-/

namespace Taomee.Machines

variable {σ τ ι ρ : Type*} {concrete : σ → ι → ρ × σ} {model : τ → ι → ρ × τ}
  {allowed : ι → Prop} {holds : σ → τ → Prop} {state : σ} {image : τ} {calls : List ι}

/-- The replies to the calls, in order. -/
def replies (step : σ → ι → ρ × σ) : σ → List ι → List ρ
  | _, [] => []
  | state, call :: rest => (step state call).1 :: replies step (step state call).2 rest

/-- The state after the calls. -/
def after (step : σ → ι → ρ × σ) (state : σ) (calls : List ι) : σ :=
  calls.foldl (fun state call => (step state call).2) state

@[simp] theorem after_nil (step : σ → ι → ρ × σ) (state : σ) : after step state [] = state := rfl

@[simp] theorem after_cons (step : σ → ι → ρ × σ) (state : σ) (call : ι) (rest : List ι) :
    after step state (call :: rest) = after step (step state call).2 rest := rfl

/-- Related states answer an allowed call alike and stay related. -/
structure Simulates (concrete : σ → ι → ρ × σ) (model : τ → ι → ρ × τ) (allowed : ι → Prop)
    (holds : σ → τ → Prop) : Prop where
  step : ∀ {state image} (call), holds state image → allowed call →
    (concrete state call).1 = (model image call).1 ∧
      holds (concrete state call).2 (model image call).2

theorem Simulates.after (simulates : Simulates concrete model allowed holds)
    (related : holds state image) (fits : ∀ call ∈ calls, allowed call) :
    holds (after concrete state calls) (after model image calls) := by
  induction calls generalizing state image with
  | nil => exact related
  | cons call rest ih =>
    have next := (simulates.step call related (fits call List.mem_cons_self)).2
    exact ih next fun call member => fits call (List.mem_cons_of_mem _ member)

theorem Simulates.replies_eq (simulates : Simulates concrete model allowed holds)
    (related : holds state image) (fits : ∀ call ∈ calls, allowed call) :
    replies concrete state calls = replies model image calls := by
  induction calls generalizing state image with
  | nil => rfl
  | cons call rest ih =>
    obtain ⟨same, next⟩ := simulates.step call related (fits call List.mem_cons_self)
    rw [replies, replies, same,
      ih next fun call member => fits call (List.mem_cons_of_mem _ member)]

end Taomee.Machines
