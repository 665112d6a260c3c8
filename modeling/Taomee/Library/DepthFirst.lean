import Mathlib.Data.Finset.Card

/-!
# Depth-first search that claims neighbours first

At a point that is no goal every free neighbour is claimed at once; then the claimed ones are
tried in order. The answer lists the points from a goal back to the first step. Fuel bounds the
depth; more fuel than there are free points is never used up.
-/

namespace Taomee.DepthFirst

variable {α : Type*} {next : α → List α} {goal : α → Prop}
variable {free rest : Finset α} {p : α} {path ps : List α} {fuel : Nat}

/-! ## Trails and explored sets -/

/-- How the points of an answer were come by: each was free when all free neighbours of the
point before it were claimed, and none of those is used again. -/
inductive Trail (next : α → List α) (goal : α → Prop) : Finset α → α → List α → Prop where
  | here {free : Finset α} {p : α} (reached : goal p) : Trail next goal free p []
  | onward {free rest : Finset α} {p q : α} {path : List α} (short : ¬ goal p)
      (linked : q ∈ next p) (open_ : q ∈ free)
      (fewer : ∀ r ∈ rest, r ∈ free ∧ r ∉ next p) (trail : Trail next goal rest q path) :
      Trail next goal free p (path ++ [q])

/-- The points of a trail are free at its start. -/
theorem Trail.subset (trail : Trail next goal free p path) : ∀ q ∈ path, q ∈ free := by
  induction trail with
  | here => simp
  | onward short linked open_ fewer trail ih =>
    intro q listed
    rcases List.mem_append.mp listed with later | last
    · exact (fewer q (ih q later)).1
    · exact List.mem_singleton.mp last ▸ open_

/-- A line of points that meets a goal at its end only; from each point only the next one of the
line can be reached in a step, of those after it. -/
inductive Thread (next : α → List α) (goal : α → Prop) : List α → Prop where
  | single {p : α} (reached : goal p) : Thread next goal [p]
  | cons {p q : α} {rest : List α} (short : ¬ goal p) (linked : q ∈ next p)
      (apart : ∀ r ∈ rest, r ∉ next p) (thread : Thread next goal (q :: rest)) :
      Thread next goal (p :: q :: rest)

theorem Thread.chain {line : List α} (thread : Thread next goal line) :
    line.IsChain fun p q => q ∈ next p := by
  induction thread with
  | single => exact .singleton _
  | cons short linked apart thread ih => exact .cons_cons linked ih

theorem Thread.goal_of_getLast? {line : List α} (thread : Thread next goal line)
    (last : line.getLast? = some p) : goal p := by
  induction thread with
  | single reached =>
    obtain rfl : _ = p := by simpa using last
    exact reached
  | cons short linked apart thread ih =>
    exact ih last

/-- An answer read from the start on. -/
theorem Trail.thread (trail : Trail next goal free p path) :
    Thread next goal (p :: path.reverse) := by
  induction trail with
  | here reached => exact .single reached
  | onward short linked open_ fewer trail ih =>
    rw [List.reverse_append, List.reverse_singleton, List.singleton_append]
    refine .cons short linked (fun r listed => ?_) ih
    exact (fewer r (trail.subset r (List.mem_reverse.mp listed))).2

theorem Trail.nodup (trail : Trail next goal free p path) (used : p ∉ free) :
    (p :: path.reverse).Nodup := by
  induction trail with
  | here => simp
  | @onward free rest p q path short linked open_ fewer trail ih =>
    rw [List.reverse_append, List.reverse_singleton, List.singleton_append]
    have taken : q ∉ rest := fun member => (fewer q member).2 linked
    refine List.nodup_cons.mpr ⟨fun listed => ?_, ih taken⟩
    rcases List.mem_cons.mp listed with rfl | later
    · exact used open_
    · exact used (fewer p (trail.subset p (List.mem_reverse.mp later))).1

/-- A point left behind: no goal, and nothing that is still free next to it. -/
structure Exhausted (next : α → List α) (goal : α → Prop) (rest : Finset α) (p : α) : Prop where
  short : ¬ goal p
  shut : ∀ q ∈ next p, q ∉ rest

/-- What trying some points without success leaves. -/
structure Explored (next : α → List α) (goal : α → Prop) (free rest : Finset α) (ps : List α) :
    Prop where
  fewer : rest ⊆ free
  listed : ∀ p ∈ ps, Exhausted next goal rest p
  left : ∀ p ∈ free, p ∉ rest → Exhausted next goal rest p

theorem Exhausted.mono {middle : Finset α} (exhausted : Exhausted next goal middle p)
    (fewer : rest ⊆ middle) : Exhausted next goal rest p :=
  ⟨exhausted.short, fun q linked member => exhausted.shut q linked (fewer member)⟩

theorem Explored.nil (free : Finset α) : Explored next goal free free [] :=
  ⟨Finset.Subset.refl free, by simp, fun _ member gone => absurd member gone⟩

theorem Explored.cons {middle : Finset α} (first : Explored next goal free middle [p])
    (others : Explored next goal middle rest ps) : Explored next goal free rest (p :: ps) where
  fewer := others.fewer.trans first.fewer
  listed := by
    intro q listed
    rcases List.mem_cons.mp listed with rfl | later
    · exact (first.listed q (List.mem_singleton_self q)).mono others.fewer
    · exact others.listed q later
  left := by
    intro q member gone
    by_cases kept : q ∈ middle
    · exact others.left q kept gone
    · exact (first.left q member kept).mono others.fewer

/-! ## Points in order -/

/-- Tries one point after the other until one leads to a goal. -/
def tryEach (visit : α → Finset α → Option (Option (List α) × Finset α)) :
    List α → Finset α → Option (Option (List α) × Finset α)
  | [], free => some (none, free)
  | p :: ps, free =>
    match visit p free with
    | none => none
    | some (some path, free') => some (some (path ++ [p]), free')
    | some (none, free') => tryEach visit ps free'

section

variable {attempt : α → Finset α → Option (Option (List α) × Finset α)}

theorem tryEach_explored (single : ∀ {p free rest}, attempt p free = some (none, rest) →
      Explored next goal free rest [p])
    {ps : List α} {free rest : Finset α} (failed : tryEach attempt ps free = some (none, rest)) :
    Explored next goal free rest ps := by
  induction ps generalizing free with
  | nil =>
    obtain rfl : free = rest := by simpa [tryEach] using failed
    exact .nil free
  | cons p ps ih =>
    simp only [tryEach] at failed
    split at failed
    case h_1 => cases failed
    case h_2 => cases failed
    case h_3 middle visited => exact (single visited).cons (ih failed)

/-- A success is one of the points tried, with what the earlier ones left free. -/
theorem tryEach_found (single : ∀ {p free rest}, attempt p free = some (none, rest) →
      Explored next goal free rest [p])
    {ps path : List α} {free rest : Finset α}
    (found : tryEach attempt ps free = some (some path, rest)) :
    ∃ p ∈ ps, ∃ middle ⊆ free, ∃ tail, path = tail ++ [p] ∧
      attempt p middle = some (some tail, rest) := by
  induction ps generalizing free with
  | nil => simp [tryEach] at found
  | cons p ps ih =>
    simp only [tryEach] at found
    split at found
    case h_1 => cases found
    case h_2 tail rest' visited =>
      obtain ⟨rfl, rfl⟩ : tail ++ [p] = path ∧ rest' = rest := by simpa using found
      exact ⟨p, List.mem_cons_self .., free, Finset.Subset.refl free, tail, rfl, visited⟩
    case h_3 middle visited =>
      obtain ⟨q, listed, later, fewer, tail, split, visited'⟩ := ih found
      exact ⟨q, List.mem_cons_of_mem _ listed, later, fewer.trans (single visited).fewer, tail,
        split, visited'⟩

theorem tryEach_isSome (single : ∀ {p free rest}, attempt p free = some (none, rest) →
      Explored next goal free rest [p])
    {ps : List α} {free : Finset α}
    (each : ∀ p ∈ ps, ∀ middle ⊆ free, (attempt p middle).isSome) :
    (tryEach attempt ps free).isSome := by
  induction ps generalizing free with
  | nil => rfl
  | cons p ps ih =>
    have visited := each p (List.mem_cons_self ..) free (Finset.Subset.refl free)
    simp only [tryEach]
    split
    case h_1 spent => simp [spent] at visited
    case h_2 => rfl
    case h_3 middle visited =>
      exact ih fun q listed rest fewer =>
        each q (List.mem_cons_of_mem _ listed) rest (fewer.trans (single visited).fewer)

end

/-! ## Claimed points -/

variable [DecidableEq α]

/-- Takes the listed points that are still free. -/
def claim (free : Finset α) : List α → List α × Finset α
  | [] => ([], free)
  | p :: ps =>
    if p ∈ free then
      let (claimed, free') := claim (free.erase p) ps
      (p :: claimed, free')
    else claim free ps

theorem mem_claim : p ∈ (claim free ps).1 ↔ p ∈ free ∧ p ∈ ps := by
  induction ps generalizing free with
  | nil => simp [claim]
  | cons q ps ih =>
    by_cases open_ : q ∈ free
    · simp only [claim, if_pos open_, List.mem_cons, ih]
      by_cases same : p = q
      · simp [same, open_]
      · simp [same]
    · simp only [claim, if_neg open_, ih]
      by_cases same : p = q
      · simp [same, open_]
      · simp [same]

theorem mem_claim_free : p ∈ (claim free ps).2 ↔ p ∈ free ∧ p ∉ ps := by
  induction ps generalizing free with
  | nil => simp [claim]
  | cons q ps ih =>
    by_cases open_ : q ∈ free
    · simp only [claim, if_pos open_, List.mem_cons, ih, Finset.mem_erase]
      tauto
    · simp only [claim, if_neg open_, ih]
      by_cases same : p = q
      · simp [same, open_]
      · simp [same]

theorem claim_subset (free : Finset α) (ps : List α) : (claim free ps).2 ⊆ free :=
  fun _ member => (mem_claim_free.mp member).1

/-- Where something was claimed, less is free. -/
theorem card_claim_lt (claimed : p ∈ (claim free ps).1) : (claim free ps).2.card < free.card := by
  obtain ⟨member, listed⟩ := mem_claim.mp claimed
  apply Finset.card_lt_card
  refine ⟨claim_subset free ps, fun all => ?_⟩
  exact (mem_claim_free.mp (all member)).2 listed

/-- Claiming first and trying the claimed points explores from the point itself. -/
theorem Explored.point (short : ¬ goal p)
    (tried : Explored next goal (claim free (next p)).2 rest (claim free (next p)).1) :
    Explored next goal free rest [p] where
  fewer := tried.fewer.trans (claim_subset free (next p))
  listed := by
    intro q listed
    obtain rfl := List.mem_singleton.mp listed
    exact ⟨short, fun r linked member => (mem_claim_free.mp (tried.fewer member)).2 linked⟩
  left := by
    intro q member gone
    by_cases linked : q ∈ next p
    · exact tried.listed q (mem_claim.mpr ⟨member, linked⟩)
    · exact tried.left q (mem_claim_free.mpr ⟨member, linked⟩) gone

/-- A visit from a free point explores what is free together with it. -/
theorem Explored.erase (explored : Explored next goal (free.erase p) rest [p]) :
    Explored next goal free rest [p] where
  fewer := explored.fewer.trans (Finset.erase_subset p free)
  listed := explored.listed
  left := by
    intro q member gone
    by_cases same : q = p
    · exact explored.listed q (by simp [same])
    · exact explored.left q (Finset.mem_erase.mpr ⟨same, member⟩) gone

/-! ## What a visit answers -/

variable (next goal) [DecidablePred goal]

def visit : Nat → α → Finset α → Option (Option (List α) × Finset α)
  | 0, _, _ => none
  | fuel + 1, p, free =>
    if goal p then some (some [], free)
    else tryEach (visit fuel) (claim free (next p)).1 (claim free (next p)).2

/-- Visits from every start that is still free, in order. -/
def search (fuel : Nat) : List α → Finset α → Option (Option (List α) × Finset α)
  | [], free => some (none, free)
  | p :: ps, free =>
    if p ∈ free then
      match visit next goal fuel p (free.erase p) with
      | none => none
      | some (some path, free') => some (some (path ++ [p]), free')
      | some (none, free') => search fuel ps free'
    else search fuel ps free

variable {next goal}

theorem visit_explored (failed : visit next goal fuel p free = some (none, rest)) :
    Explored next goal free rest [p] := by
  induction fuel generalizing p free rest with
  | zero => cases failed
  | succ fuel ih =>
    unfold visit at failed
    split at failed
    case isTrue => cases failed
    case isFalse short => exact .point short (tryEach_explored ih failed)

theorem visit_trail (found : visit next goal fuel p free = some (some path, rest)) :
    Trail next goal free p path := by
  induction fuel generalizing p free rest path with
  | zero => cases found
  | succ fuel ih =>
    unfold visit at found
    split at found
    case isTrue reached =>
      obtain ⟨rfl, -⟩ : [] = path ∧ free = rest := by simpa using found
      exact .here reached
    case isFalse short =>
      obtain ⟨q, claimed, middle, fewer, tail, rfl, visited⟩ := tryEach_found visit_explored found
      obtain ⟨open_, linked⟩ := mem_claim.mp claimed
      exact .onward short linked open_ (fun r member => mem_claim_free.mp (fewer member))
        (ih visited)

/-- With more fuel than free points a visit comes to an end. -/
theorem visit_isSome (enough : free.card < fuel) : (visit next goal fuel p free).isSome := by
  induction fuel generalizing p free with
  | zero => omega
  | succ fuel ih =>
    unfold visit
    split
    case isTrue => rfl
    case isFalse =>
      refine tryEach_isSome visit_explored fun q claimed middle fewer => ih ?_
      have less := card_claim_lt claimed
      have bound := Finset.card_le_card fewer
      omega

/-! ## What a search answers -/

theorem search_isSome (enough : free.card < fuel) : (search next goal fuel ps free).isSome := by
  induction ps generalizing free with
  | nil => rfl
  | cons p ps ih =>
    simp only [search]
    split
    case isTrue member =>
      have less := Finset.card_erase_lt_of_mem member
      have visited : (visit next goal fuel p (free.erase p)).isSome :=
        visit_isSome (less.trans enough)
      split
      case h_1 spent => simp [spent] at visited
      case h_2 => rfl
      case h_3 middle failed =>
        have fewer := Finset.card_le_card (visit_explored failed).fewer
        exact ih (by omega)
    case isFalse => exact ih enough

theorem search_explored (failed : search next goal fuel ps free = some (none, rest)) :
    Explored next goal free rest [] ∧ ∀ p ∈ ps, p ∉ rest := by
  induction ps generalizing free with
  | nil =>
    obtain rfl : free = rest := by simpa [search] using failed
    exact ⟨.nil free, by simp⟩
  | cons p ps ih =>
    simp only [search] at failed
    split at failed
    case isTrue member =>
      split at failed
      case h_1 => cases failed
      case h_2 => cases failed
      case h_3 middle visited =>
        obtain ⟨later, gone⟩ := ih failed
        have first := visit_explored visited
        have both := first.erase.cons later
        refine ⟨⟨both.fewer, by simp, both.left⟩, fun q listed => ?_⟩
        rcases List.mem_cons.mp listed with rfl | among
        · exact fun kept => (Finset.mem_erase.mp (first.fewer (later.fewer kept))).1 rfl
        · exact gone q among
    case isFalse absent =>
      obtain ⟨later, gone⟩ := ih failed
      refine ⟨later, fun q listed => ?_⟩
      rcases List.mem_cons.mp listed with rfl | among
      · exact fun kept => absent (later.fewer kept)
      · exact gone q among

/-- Without success no goal can be reached from a start by steps between free points. -/
theorem search_complete (failed : search next goal fuel ps free = some (none, rest)) {q : α}
    (start : p ∈ ps) (open_ : p ∈ free)
    (steps : Relation.ReflTransGen (fun a b => b ∈ next a ∧ b ∈ free) p q) : ¬ goal q := by
  obtain ⟨explored, gone⟩ := search_explored failed
  have behind : q ∈ free ∧ q ∉ rest := by
    induction steps with
    | refl => exact ⟨open_, gone p start⟩
    | tail _ step ih => exact ⟨step.2, (explored.left _ ih.1 ih.2).shut _ step.1⟩
  exact (explored.left q behind.1 behind.2).short

/-- A success is a trail from the first start that leads to a goal: the starts before it are
used up. -/
theorem search_found (found : search next goal fuel ps free = some (some path, rest)) :
    ∃ before p after middle tail, ps = before ++ p :: after ∧ p ∈ free ∧ middle ⊆ free.erase p ∧
      (∀ q ∈ before, q ∉ middle) ∧ path = tail ++ [p] ∧ Trail next goal middle p tail := by
  induction ps generalizing free with
  | nil => simp [search] at found
  | cons p ps ih =>
    simp only [search] at found
    split at found
    case isTrue member =>
      split at found
      case h_1 => cases found
      case h_2 tail rest' visited =>
        obtain ⟨rfl, rfl⟩ : tail ++ [p] = path ∧ rest' = rest := by simpa using found
        exact ⟨[], p, ps, free.erase p, tail, rfl, member, Finset.Subset.refl _, by simp, rfl,
          visit_trail visited⟩
      case h_3 left visited =>
        have explored := visit_explored visited
        obtain ⟨before, q, after, middle, tail, rfl, open_, fewer, gone, split, trail⟩ := ih found
        have within : left.erase q ⊆ (free.erase p).erase q :=
          Finset.erase_subset_erase q explored.fewer
        refine ⟨p :: before, q, after, middle, tail, rfl,
          Finset.mem_of_mem_erase (explored.fewer open_), ?_, ?_, split, trail⟩
        · intro r kept
          have far := Finset.mem_erase.mp (within (fewer kept))
          exact Finset.mem_erase.mpr ⟨far.1, Finset.mem_of_mem_erase far.2⟩
        · intro r listed kept
          rcases List.mem_cons.mp listed with rfl | among
          · have far := Finset.mem_of_mem_erase (within (fewer kept))
            exact Finset.notMem_erase r free far
          · exact gone r among kept
    case isFalse absent =>
      obtain ⟨before, q, after, middle, tail, rfl, open_, fewer, gone, split, trail⟩ := ih found
      refine ⟨p :: before, q, after, middle, tail, rfl, open_, fewer, ?_, split, trail⟩
      intro r listed kept
      rcases List.mem_cons.mp listed with rfl | among
      · exact absent (Finset.mem_of_mem_erase (fewer kept))
      · exact gone r among kept

end Taomee.DepthFirst
