import Mathlib.Logic.Relation
import Mathlib.Tactic.Common

/-!
# Depth-first search without a memory

The nodes of a tree are tried in order, each with all that is below it before the next. The
answer is the first goal that is met. Fuel bounds the depth: `none` is a search that has run out
of it.
-/

namespace Taomee.TreeSearch

variable {σ : Type*} {children : σ → List σ} {goal : σ → Prop} {node : σ}

/-- The first answer of the nodes. -/
def firstOf (descend : σ → Option (Option σ)) : List σ → Option (Option σ)
  | [] => some none
  | node :: nodes =>
    match descend node with
    | none => none
    | some (some found) => some (some found)
    | some none => firstOf descend nodes

def descend (children : σ → List σ) (goal : σ → Prop) [DecidablePred goal] :
    Nat → σ → Option (Option σ)
  | 0, _ => none
  | fuel + 1, node =>
    if goal node then some (some node) else firstOf (descend children goal fuel) (children node)

/-- What lies below a node, itself included. -/
def Below (children : σ → List σ) : σ → σ → Prop :=
  Relation.ReflTransGen fun node child => child ∈ children node

theorem Below.refl (node : σ) : Below children node node := Relation.ReflTransGen.refl

theorem Below.child {child found : σ} (below : Below children child found)
    (listed : child ∈ children node) : Below children node found :=
  Relation.ReflTransGen.head listed below

theorem Below.cases {found : σ} (below : Below children node found) :
    node = found ∨ ∃ child ∈ children node, Below children child found :=
  Relation.ReflTransGen.cases_head below

/-! ## One level -/

section

variable {attempt : σ → Option (Option σ)} {nodes : List σ}

theorem firstOf_found {found : σ} (answer : firstOf attempt nodes = some (some found)) :
    ∃ node ∈ nodes, attempt node = some (some found) := by
  induction nodes with
  | nil => simp [firstOf] at answer
  | cons node nodes ih =>
    simp only [firstOf] at answer
    split at answer
    case h_1 => cases answer
    case h_2 other here =>
      cases answer
      exact ⟨node, List.mem_cons_self .., here⟩
    case h_3 =>
      obtain ⟨later, listed, there⟩ := ih answer
      exact ⟨later, List.mem_cons_of_mem _ listed, there⟩

theorem firstOf_failed (answer : firstOf attempt nodes = some none) :
    ∀ node ∈ nodes, attempt node = some none := by
  induction nodes with
  | nil => simp
  | cons node nodes ih =>
    simp only [firstOf] at answer
    split at answer
    case h_1 => cases answer
    case h_2 => cases answer
    case h_3 failed =>
      intro other listed
      rcases List.mem_cons.mp listed with rfl | later
      · exact failed
      · exact ih answer other later

theorem firstOf_isSome (each : ∀ node ∈ nodes, (attempt node).isSome) :
    (firstOf attempt nodes).isSome := by
  induction nodes with
  | nil => rfl
  | cons node nodes ih =>
    have here := each node (List.mem_cons_self ..)
    simp only [firstOf]
    split
    case h_1 spent => simp [spent] at here
    case h_2 => rfl
    case h_3 => exact ih fun later listed => each later (List.mem_cons_of_mem _ listed)

end

/-! ## The whole search -/

variable [DecidablePred goal]

/-- What is found is a goal below the start. -/
theorem descend_found {fuel : Nat} {found : σ}
    (answer : descend children goal fuel node = some (some found)) :
    goal found ∧ Below children node found := by
  induction fuel generalizing node with
  | zero => cases answer
  | succ fuel ih =>
    unfold descend at answer
    split at answer
    case isTrue reached =>
      cases answer
      exact ⟨reached, .refl _⟩
    case isFalse =>
      obtain ⟨child, listed, there⟩ := firstOf_found answer
      obtain ⟨reached, below⟩ := ih there
      exact ⟨reached, below.child listed⟩

/-- After a failure nothing below the start is a goal. -/
theorem descend_failed {fuel : Nat} {other : σ}
    (answer : descend children goal fuel node = some none) (below : Below children node other) :
    ¬ goal other := by
  induction fuel generalizing node with
  | zero => cases answer
  | succ fuel ih =>
    unfold descend at answer
    split at answer
    case isTrue => cases answer
    case isFalse short =>
      rcases below.cases with rfl | ⟨child, listed, deeper⟩
      · exact short
      · exact ih (firstOf_failed answer child listed) deeper

/-- A rank that falls from a node to its children bounds the depth. -/
theorem descend_isSome {inv : σ → Prop} {rank : σ → Nat}
    (lowers : ∀ {node child}, inv node → child ∈ children node →
      inv child ∧ rank child < rank node) {fuel : Nat} (holds : inv node)
    (enough : rank node < fuel) : (descend children goal fuel node).isSome := by
  induction fuel generalizing node with
  | zero => omega
  | succ fuel ih =>
    unfold descend
    split
    case isTrue => rfl
    case isFalse =>
      apply firstOf_isSome
      intro child listed
      obtain ⟨still, lower⟩ := lowers holds listed
      exact ih still (by omega)

end Taomee.TreeSearch
