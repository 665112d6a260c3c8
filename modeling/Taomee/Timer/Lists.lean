import Mathlib.Data.List.Nodup
import Taomee.Timer.Model

/-!
# gamesvr timers: levels and owners' lists

What one call does, said once: it arms a timer, disarms one or does nothing. Every timer stays on
one level, once.
-/

namespace Taomee.Timer

/-! ## Levels by distance -/

/-- There are five levels. -/
theorem levelFor_lt (diff : Int) : levelFor diff < timerVecSize := by
  unfold levelFor
  cases found : (List.range (timerVecSize - 1)).find? fun i => diff ≤ vecExpire i with
  | none => decide
  | some i =>
    have member := List.mem_range.mp (List.mem_of_find?_eq_some found)
    exact Nat.lt_of_lt_of_le member (Nat.sub_le ..)

/-- What is not on the first level is more than four seconds away. -/
theorem levelFor_far {diff : Int} (later : levelFor diff ≠ 0) : 4 < diff := by
  by_contra near
  apply later
  have first : diff ≤ vecExpire 0 := by
    show diff ≤ 4
    omega
  have found : (List.range (timerVecSize - 1)).find? (fun i => diff ≤ vecExpire i) = some 0 :=
    List.find?_cons_of_pos (by simpa using first)
  simp [levelFor, found]

/-- A difference that an `int` makes larger is a long time ago. -/
theorem levelFor_int_far {diff : Int} (range : -2 ^ 31 ≤ diff)
    (later : levelFor (int diff) ≠ 0) : 4 < diff := by
  by_cases high : diff < 2 ^ 31
  · have same : int diff = diff := Int.bmod_eq_of_le (by omega) (by omega)
    rw [same] at later
    exact levelFor_far later
  · omega

/-- The level found is not above the one asked for. -/
theorem findMinIdx_le (diff : Int) (maxIdx : Nat) : findMinIdx diff maxIdx ≤ maxIdx := by
  induction maxIdx with
  | zero => exact Nat.le_refl 0
  | succ maxIdx ih =>
    unfold findMinIdx
    split
    · exact Nat.le_succ_of_le ih
    · exact Nat.le_refl _

/-- Above the first level a timer is more than four seconds away. -/
theorem findMinIdx_far {diff : Int} {maxIdx : Nat} (later : findMinIdx diff maxIdx ≠ 0) :
    4 < diff := by
  induction maxIdx with
  | zero => exact absurd rfl later
  | succ maxIdx ih =>
    unfold findMinIdx at later
    split at later
    case isTrue => exact ih later
    case isFalse beyond =>
      have least : (4 : Int) ≤ vecExpire maxIdx := by
        have power : 2 ^ 2 ≤ 2 ^ (maxIdx + 2) := Nat.pow_le_pow_right (by decide) (by omega)
        unfold vecExpire
        exact_mod_cast power
      omega

namespace Timers

variable {H F : Type*} {s s' : Timers H F} {a b : Addr} {t : TimerStruct H F}

/-! ## Every timer on one level -/

/-- The lists of the levels hold the timers in use, each once. -/
structure OnLevels (level : Nat → List Addr) (used : Addr → Prop) : Prop where
  nodup : ∀ i, (level i).Nodup
  apart : ∀ {i j a}, a ∈ level i → a ∈ level j → i = j
  inside : ∀ {i a}, a ∈ level i → i < timerVecSize
  inUse : ∀ {i a}, a ∈ level i → used a
  onLevel : ∀ {a}, used a → ∃ i, a ∈ level i

/-- The levels with one timer taken to the end of one of them. -/
def placed (level : Nat → List Addr) (a : Addr) (i j : Nat) : List Addr :=
  if j = i then (level j).erase a ++ [a] else (level j).erase a

/-- The levels without one timer. -/
def without (level : Nat → List Addr) (a : Addr) (j : Nat) : List Addr := (level j).erase a

section
variable {level : Nat → List Addr} {used used' : Addr → Prop} {i j : Nat} {a b : Addr}

/-- The timers left are the others. -/
theorem OnLevels.mem_without (on : OnLevels level used) :
    b ∈ without level a j ↔ b ≠ a ∧ b ∈ level j :=
  (on.nodup j).mem_erase_iff

/-- A timer is placed on one level, the others stay. -/
theorem OnLevels.mem_placed (on : OnLevels level used) :
    b ∈ placed level a i j ↔ b ≠ a ∧ b ∈ level j ∨ b = a ∧ j = i := by
  have rest : b ∈ (level j).erase a ↔ b ≠ a ∧ b ∈ level j := (on.nodup j).mem_erase_iff
  unfold placed
  by_cases same : j = i
  · rw [if_pos same, List.mem_append, rest, List.mem_singleton]
    simp [same]
  · simp [same, rest]

/-- A timer that is taken off is on no level. -/
theorem OnLevels.remove (on : OnLevels level used) :
    OnLevels (without level a) (fun b => b ≠ a ∧ used b) where
  nodup := fun i => (on.nodup i).erase a
  apart := fun here there => on.apart (on.mem_without.mp here).2 (on.mem_without.mp there).2
  inside := fun here => on.inside (on.mem_without.mp here).2
  inUse := fun here => ⟨(on.mem_without.mp here).1, on.inUse (on.mem_without.mp here).2⟩
  onLevel := by
    rintro b ⟨other, used⟩
    obtain ⟨i, here⟩ := on.onLevel used
    exact ⟨i, on.mem_without.mpr ⟨other, here⟩⟩

/-- A timer that is placed is on its new level only. -/
theorem OnLevels.move (on : OnLevels level used) (inside : i < timerVecSize) :
    OnLevels (placed level a i) (fun b => b = a ∨ used b) where
  nodup := by
    intro j
    have rest := (on.nodup j).erase a
    unfold placed
    split
    case isFalse => exact rest
    case isTrue =>
      refine rest.append (List.nodup_singleton a) ?_
      rw [List.disjoint_singleton]
      exact (on.nodup j).not_mem_erase
  apart := by
    intro j k b here there
    rw [on.mem_placed] at here there
    rcases here with ⟨other, here⟩ | ⟨rfl, rfl⟩
    · rcases there with ⟨-, there⟩ | ⟨same, -⟩
      · exact on.apart here there
      · exact absurd same other
    · rcases there with ⟨other, -⟩ | ⟨-, rfl⟩
      · exact absurd rfl other
      · rfl
  inside := by
    intro j b here
    rcases on.mem_placed.mp here with ⟨-, here⟩ | ⟨-, rfl⟩
    · exact on.inside here
    · exact inside
  inUse := by
    intro j b here
    rcases on.mem_placed.mp here with ⟨-, here⟩ | ⟨rfl, -⟩
    · exact .inr (on.inUse here)
    · exact .inl rfl
  onLevel := by
    intro b used
    by_cases same : b = a
    · exact ⟨i, on.mem_placed.mpr (.inr ⟨same, rfl⟩)⟩
    · obtain ⟨j, here⟩ := on.onLevel (used.resolve_left same)
      exact ⟨j, on.mem_placed.mpr (.inl ⟨same, here⟩)⟩

theorem OnLevels.congr (on : OnLevels level used) (same : ∀ a, used a ↔ used' a) :
    OnLevels level used' := by
  obtain rfl : used = used' := funext fun a => propext (same a)
  exact on

end

/-- An owner's list holds the timers of the owner that are not removed. -/
structure WF (s : Timers H F) : Prop where
  levels : OnLevels s.level (fun a => (s.table a).isSome)
  sprites : ∀ {l a}, a ∈ s.sprites l →
    ∃ t, s.table a = some t ∧ t.function.isSome ∧ t.spriteList = some l
  once : ∀ l, (s.sprites l).Nodup

/-- There is no timer at the start. -/
theorem wf_setup (now : Int) : WF (setup H F now) where
  levels :=
    { nodup := fun _ => List.nodup_nil
      apart := nofun
      inside := nofun
      inUse := nofun
      onLevel := nofun }
  sprites := nofun
  once := fun _ => List.nodup_nil

/-- The cached time of a level goes down only, or is set for the first time. -/
theorem setMinExptm_minExptm (s : Timers H F) (exptm : Int) (idx : Nat) :
    (s.setMinExptm exptm idx).minExptm =
      if exptm < s.minExptm idx ∨ s.minExptm idx = 0 then Function.update s.minExptm idx exptm
      else s.minExptm := by
  unfold setMinExptm
  split <;> rfl

/-- A timer comes to the end of its level. -/
theorem enter_eq (s : Timers H F) (a : Addr) (expire : Int) (i : Nat) :
    s.enter a expire i =
      { s with
        level := Function.update s.level i (s.level i ++ [a])
        minExptm := (s.setMinExptm expire i).minExptm } := by
  unfold enter setMinExptm
  split <;> rfl

/-- A fresh address is on no level. -/
theorem WF.fresh_level (wf : WF s) (fresh : s.table a = none) (i : Nat) : a ∉ s.level i := by
  intro member
  have used := wf.levels.inUse member
  simp [fresh] at used

/-- What is found on an owner's list is a live timer of that list. -/
theorem WF.found (wf : WF s) {l : H} {p : TimerStruct H F → Bool} (found : s.findOn l p = some a) :
    ∃ t, s.table a = some t ∧ t.function.isSome ∧ t.spriteList = some l :=
  wf.sprites (List.mem_of_find?_eq_some found)

/-- Only a live timer is given another time. -/
theorem WF.rearms_live [DecidableEq F] (wf : WF s) {call : Call H F}
    (rearms : s.rearms call = some a) : ∃ t, s.table a = some t ∧ t.function.isSome := by
  cases call with
  | addTimerEvent => exact nomatch rearms
  | opTimerEvent l func expire flag =>
    obtain ⟨t, was, live, -⟩ := wf.found (Option.eq_some_of_filter_eq_some rearms)
    exact ⟨t, was, live⟩
  | modExpireTime head tid exptm =>
    obtain ⟨t, was, live, -⟩ := wf.found rearms
    exact ⟨t, was, live⟩
  | removeTimer => exact nomatch rearms

/-- The scan takes a timer to another level. -/
structure Moved (s s' : Timers H F) (a : Addr) (t : TimerStruct H F) (i : Nat) : Prop where
  was : s.table a = some t
  live : t.function.isSome
  inside : i < timerVecSize
  now : s'.now = s.now
  table : s'.table = s.table
  level : s'.level = placed s.level a i
  minExptm : s'.minExptm = (s.setMinExptm t.expire i).minExptm
  sprites : s'.sprites = s.sprites
  armings : s'.armings = s.armings
  trace : s'.trace = s.trace

/-- A timer that is moved keeps the lists in order. -/
theorem Moved.wf {i : Nat} (moved : Moved s s' a t i) (wf : WF s) : WF s' where
  levels := by
    rw [moved.level, moved.table]
    refine (wf.levels.move moved.inside).congr fun b => ?_
    by_cases same : b = a
    · simp [same, moved.was]
    · simp [same]
  sprites := by
    rw [moved.sprites, moved.table]
    exact wf.sprites
  once := by
    rw [moved.sprites]
    exact wf.once

variable [DecidableEq H]

/-- A timer is armed: it is new or had another time, and is last on its level. -/
structure Armed (s s' : Timers H F) (a : Addr) (t : TimerStruct H F) (i : Nat) : Prop where
  live : t.function.isSome
  arming : t.arming = s.armings
  inside : i < timerVecSize
  now : s'.now = s.now
  table : s'.table = Function.update s.table a (some t)
  level : s'.level = placed s.level a i
  minExptm : s'.minExptm = (s.setMinExptm t.expire i).minExptm
  armings : s'.armings = s.armings + 1
  origin :
    (∃ l, s.table a = none ∧ t.spriteList = some l ∧
      s'.sprites = Function.update s.sprites l (s.sprites l ++ [a]) ∧
      s'.trace = .armed s.armings t.expire :: s.trace) ∨
    ∃ old : TimerStruct H F, s.table a = some old ∧ old.function.isSome ∧
      t.spriteList = old.spriteList ∧ s'.sprites = s.sprites ∧
      s'.trace = .armed s.armings t.expire :: .disarmed old.arming :: s.trace

/-- A timer is marked for deletion and leaves its owner's list. -/
structure Removed (s s' : Timers H F) (a : Addr) (t : TimerStruct H F) (l : H) : Prop where
  was : s.table a = some t
  live : t.function.isSome
  list : t.spriteList = some l
  now : s'.now = s.now
  table : s'.table =
    Function.update s.table a (some { t with function := none, spriteList := none })
  level : s'.level = s.level
  minExptm : s'.minExptm = s.minExptm
  sprites : s'.sprites = Function.update s.sprites l ((s.sprites l).erase a)
  armings : s'.armings = s.armings
  trace : s'.trace = .disarmed t.arming :: s.trace

/-- The scan gives the memory of a timer back. -/
structure Freed (s s' : Timers H F) (a : Addr) (t : TimerStruct H F) : Prop where
  was : s.table a = some t
  now : s'.now = s.now
  table : s'.table = Function.update s.table a none
  level : s'.level = without s.level a
  minExptm : s'.minExptm = s.minExptm
  sprites : ∀ l, s'.sprites l = if t.spriteList = some l then (s.sprites l).erase a else s.sprites l
  armings : s'.armings = s.armings
  trace : s'.trace = if t.function.isSome then .freed t.arming :: s.trace else s.trace

/-! ## What the operations do -/

/-- A timer that is added is armed on the level of its time. -/
theorem addTimerEvent_armed (wf : WF s) (fresh : s.table a = none) (l : H) (func : F)
    (owner data : Nat) (expire : Int) :
    ∃ t, Armed s (s.addTimerEvent l func owner data expire a) a t
      (levelFor (int (expire - s.now))) ∧ t.expire = expire := by
  refine ⟨{ id := (s.addTimerEvent l func owner data expire a).baseid, expire, owner, data
            function := some func, spriteList := some l, arming := s.armings }, {
    live := rfl
    arming := rfl
    inside := levelFor_lt _
    now := ?now
    table := ?table
    level := ?level
    minExptm := ?minExptm
    armings := ?armings
    origin := .inl ⟨l, fresh, rfl, ?sprites, ?trace⟩ }, rfl⟩
  case level =>
    ext1 j
    simp only [addTimerEvent, enter_eq, placed]
    rw [List.erase_of_not_mem (wf.fresh_level fresh j)]
    by_cases same : j = levelFor (int (expire - s.now))
    · simp [same]
    · simp [same]
  case minExptm =>
    simp only [addTimerEvent, enter_eq, setMinExptm_minExptm]
  all_goals simp only [addTimerEvent, enter_eq]

/-- A timer whose time is changed is armed again. -/
theorem doModExpireTime_armed {old : TimerStruct H F} (was : s.table a = some old)
    (live : old.function.isSome) (expire : Int) :
    ∃ t, Armed s (s.doModExpireTime a expire) a t (levelFor (expire - s.now)) ∧
      t.expire = expire := by
  refine ⟨{ old with expire, arming := s.armings }, {
    live := live
    arming := rfl
    inside := levelFor_lt _
    now := ?now
    table := ?table
    level := ?level
    minExptm := ?minExptm
    armings := ?armings
    origin := .inr ⟨old, was, live, rfl, ?sprites, ?trace⟩ }, rfl⟩
  case level =>
    ext1 j
    simp only [doModExpireTime, was, enter_eq, leave, placed]
    by_cases same : j = levelFor (expire - s.now)
    · simp [same]
    · simp [same]
  case minExptm =>
    simp only [doModExpireTime, was, enter_eq, leave, setMinExptm_minExptm]
  all_goals simp only [doModExpireTime, was, enter_eq, leave]

/-- A timer that is removed by a call loses its function and stays on its level. -/
theorem doRemoveTimer_removed {l : H} (was : s.table a = some t) (live : t.function.isSome)
    (list : t.spriteList = some l) : Removed s (s.doRemoveTimer a false) a t l := by
  constructor
  all_goals first
    | assumption
    | simp [doRemoveTimer, was, list]

/-- A timer that is removed by the walk is freed. -/
theorem doRemoveTimer_freed (was : s.table a = some t) : Freed s (s.doRemoveTimer a true) a t where
  was := was
  now := by simp only [doRemoveTimer, was, if_true, leave]
  table := by simp only [doRemoveTimer, was, if_true]
  level := by
    ext1 i
    simp [doRemoveTimer, was, leave, without]
  minExptm := by simp only [doRemoveTimer, was, if_true, leave]
  sprites := by
    intro l
    simp only [doRemoveTimer, was]
    cases list : t.spriteList with
    | none => simp
    | some l' =>
      by_cases same : l = l'
      · simp [same]
      · simp [same, Ne.symm same]
  armings := by simp only [doRemoveTimer, was, if_true, leave]
  trace := by simp only [doRemoveTimer, was, if_true]

/-! ## The lists are kept -/

theorem Armed.wf {i : Nat} (armed : Armed s s' a t i) (wf : WF s) : WF s' where
  levels := by
    rw [armed.level, armed.table]
    refine (wf.levels.move armed.inside).congr fun b => ?_
    by_cases same : b = a
    · simp [same]
    · simp [same]
  sprites := by
    intro l b onList
    rw [armed.table]
    rcases armed.origin with ⟨l', fresh, list, sprites, -⟩ | ⟨old, was, live, list, sprites, -⟩
    · rw [sprites] at onList
      by_cases new : b = a
      · subst new
        refine ⟨t, Function.update_self .., armed.live, ?_⟩
        by_cases same : l = l'
        · rw [same, list]
        · rw [Function.update_of_ne same] at onList
          obtain ⟨u, used, -⟩ := wf.sprites onList
          exact nomatch fresh.symm.trans used
      · rw [Function.update_of_ne new]
        refine wf.sprites (l := l) ?_
        by_cases same : l = l'
        · subst same
          simpa [new] using onList
        · rwa [Function.update_of_ne same] at onList
    · rw [sprites] at onList
      obtain ⟨u, used, alive, hangs⟩ := wf.sprites onList
      by_cases new : b = a
      · subst new
        obtain rfl : old = u := Option.some.inj (was.symm.trans used)
        exact ⟨t, Function.update_self .., armed.live, list.trans hangs⟩
      · exact ⟨u, by rw [Function.update_of_ne new, used], alive, hangs⟩
  once := by
    intro l
    rcases armed.origin with ⟨l', fresh, -, sprites, -⟩ | ⟨-, -, -, -, sprites, -⟩
    · rw [sprites]
      by_cases same : l = l'
      · subst same
        rw [Function.update_self]
        refine (wf.once l).append (List.nodup_singleton a) ?_
        rw [List.disjoint_singleton]
        intro onList
        obtain ⟨u, used, -⟩ := wf.sprites onList
        exact nomatch fresh.symm.trans used
      · rw [Function.update_of_ne same]
        exact wf.once l
    · rw [sprites]
      exact wf.once l

theorem Removed.wf {l : H} (removed : Removed s s' a t l) (wf : WF s) : WF s' where
  levels := by
    rw [removed.level, removed.table]
    refine wf.levels.congr fun b => ?_
    by_cases same : b = a
    · simp [same, removed.was]
    · simp [same]
  sprites := by
    intro l' b onList
    rw [removed.sprites] at onList
    have other : b ≠ a ∧ b ∈ s.sprites l' := by
      by_cases same : l' = l
      · subst same
        rw [Function.update_self] at onList
        exact (wf.once l').mem_erase_iff.mp onList
      · rw [Function.update_of_ne same] at onList
        refine ⟨?_, onList⟩
        rintro rfl
        obtain ⟨u, used, -, hangs⟩ := wf.sprites onList
        obtain rfl : t = u := Option.some.inj (removed.was.symm.trans used)
        exact same (Option.some.inj (hangs.symm.trans removed.list))
    rw [removed.table, Function.update_of_ne other.1]
    exact wf.sprites other.2
  once := by
    intro l'
    rw [removed.sprites]
    by_cases same : l' = l
    · subst same
      rw [Function.update_self]
      exact (wf.once l').erase a
    · rw [Function.update_of_ne same]
      exact wf.once l'

theorem Freed.wf (freed : Freed s s' a t) (wf : WF s) : WF s' where
  levels := by
    rw [freed.level, freed.table]
    refine wf.levels.remove.congr fun b => ?_
    by_cases same : b = a
    · simp [same]
    · simp [same]
  sprites := by
    intro l b onList
    rw [freed.sprites] at onList
    have other : b ≠ a ∧ b ∈ s.sprites l := by
      split at onList
      case isTrue => exact (wf.once l).mem_erase_iff.mp onList
      case isFalse elsewhere =>
        refine ⟨?_, onList⟩
        rintro rfl
        obtain ⟨u, used, -, hangs⟩ := wf.sprites onList
        obtain rfl : t = u := Option.some.inj (freed.was.symm.trans used)
        exact elsewhere hangs
    rw [freed.table, Function.update_of_ne other.1]
    exact wf.sprites other.2
  once := by
    intro l
    rw [freed.sprites]
    split
    · exact (wf.once l).erase a
    · exact wf.once l

/-! ## A call of the interface -/

variable [DecidableEq F]

/-- The memory of a new timer is not in use. -/
def Fresh (s : Timers H F) : Call H F → Prop
  | .addTimerEvent _ _ _ _ _ a => s.table a = none
  | _ => True

/-- The time a call sets. -/
def Call.expire : Call H F → Option Int
  | .addTimerEvent _ _ _ _ expire _ => some expire
  | .opTimerEvent _ _ expire _ => some expire
  | .modExpireTime _ _ exptm => some exptm
  | .removeTimer _ _ => none

/-- A call arms one timer, with the time it sets and on the level for it, or removes one, or does
nothing; a timer that has had another time is the one `rearms` names. -/
theorem call_did (wf : WF s) {call : Call H F} (fresh : Fresh s call) :
    s.call call = s ∨
    (∃ a t i, Armed s (s.call call) a t i ∧ call.expire = some t.expire ∧
      (i = levelFor (t.expire - s.now) ∨ i = levelFor (int (t.expire - s.now)) ∧
        ∃ l func owner data, call = .addTimerEvent l func owner data t.expire a) ∧
      (s.table a = none ∨ s.rearms call = some a)) ∨
    ∃ a t l, Removed s (s.call call) a t l := by
  cases call with
  | addTimerEvent l func owner data expire a =>
    obtain ⟨t, armed, rfl⟩ := addTimerEvent_armed wf fresh l func owner data expire
    exact .inr (.inl ⟨a, t, _, armed, rfl, .inr ⟨rfl, l, func, owner, data, rfl⟩, .inl fresh⟩)
  | opTimerEvent l func expire flag =>
    cases rearms : s.rearms (.opTimerEvent l func expire flag) with
    | none =>
      left
      simp only [Timers.call, rearms]
    | some a =>
      obtain ⟨old, was, live⟩ := wf.rearms_live rearms
      obtain ⟨t, armed, rfl⟩ := doModExpireTime_armed was live expire
      refine .inr (.inl ⟨a, t, _, ?_, rfl, .inl rfl, .inr rfl⟩)
      simpa only [Timers.call, rearms] using armed
  | modExpireTime head tid exptm =>
    cases rearms : s.rearms (.modExpireTime head tid exptm) with
    | none =>
      left
      simp only [Timers.call, rearms]
    | some a =>
      obtain ⟨old, was, live⟩ := wf.rearms_live rearms
      obtain ⟨t, armed, rfl⟩ := doModExpireTime_armed was live exptm
      refine .inr (.inl ⟨a, t, _, ?_, rfl, .inl rfl, .inr rfl⟩)
      simpa only [Timers.call, rearms] using armed
  | removeTimer head tid =>
    cases found : s.findOn head fun t => t.id = tid with
    | none =>
      left
      simp only [Timers.call, found]
    | some a =>
      obtain ⟨t, was, live, list⟩ := wf.found found
      refine .inr (.inr ⟨a, t, head, ?_⟩)
      simpa only [Timers.call, found] using doRemoveTimer_removed was live list

/-- Every call keeps the lists in order. -/
theorem call_wf (wf : WF s) {call : Call H F} (fresh : Fresh s call) : WF (s.call call) := by
  rcases call_did wf fresh with same | ⟨a, t, i, armed, -⟩ | ⟨a, t, l, removed⟩
  · rwa [same]
  · exact armed.wf wf
  · exact removed.wf wf

end Timers

end Taomee.Timer
