import Taomee.Timer.Reentrant

/-!
# gamesvr timers: punctuality

The clock does not go back, timers are armed and removed between scans, and callbacks do not touch
timers. Then no timer is called early or after its removal, and every timer is called in the second
scan that it is due for, or in the first when there is a scan every second.
-/

namespace Taomee.Timer

/-- How many scans there were at or after a time since an arming. -/
def dueScans (arming : Nat) (e : Int) : List Act → Nat
  | [] => 0
  | .armed x _ :: rest => if x = arming then 0 else dueScans arming e rest
  | .scanned now :: rest => (if e ≤ now then 1 else 0) + dueScans arming e rest
  | .disarmed _ :: rest | .fired .. :: rest | .freed _ :: rest => dueScans arming e rest

/-- The time of the last scan, or of the start. -/
def lastScan (start : Int) : List Act → Int
  | [] => start
  | .scanned now :: _ => now
  | .armed .. :: rest | .disarmed _ :: rest | .fired .. :: rest | .freed _ :: rest =>
    lastScan start rest

namespace Timers

open Runs

variable {H F : Type*} {s s' : Timers H F} {a b : Addr} {t : TimerStruct H F} {i j x : Nat}
  {e start : Int} {everySecond : Prop}

/-- A new timer is not for a time more than 2^31 seconds ago. -/
def NotLongPast (s : Timers H F) : Call H F → Prop
  | .addTimerEvent _ _ _ _ expire _ => -2 ^ 31 ≤ expire - s.now
  | _ => True

/-! ## What waits -/

/-- The callback of an arming was called. -/
def Fired (s : Timers H F) (x : Nat) : Prop := ∃ now ret, .fired x now ret ∈ s.trace

/-- An arming that waits has missed no scan on a later level, and at most one on the first. -/
def Waits (everySecond : Prop) (start : Int) (s : Timers H F) (x : Nat) (e : Int) : Prop :=
  (∃ b, On s 0 b x e ∧ dueScans x e s.trace ≤ 1 ∧ (everySecond → dueScans x e s.trace = 0)) ∨
    ∃ i b, i ≠ 0 ∧ On s i b x e ∧ dueScans x e s.trace = 0 ∧
      (everySecond → lastScan start s.trace + 2 ≤ e)

/-- A timer that stays where it is waits on. -/
theorem Waits.keep (waits : Waits everySecond start s x e)
    (on : ∀ {i b}, On s i b x e → On s' i b x e)
    (scans : dueScans x e s'.trace = dueScans x e s.trace)
    (last : lastScan start s'.trace = lastScan start s.trace) : Waits everySecond start s' x e := by
  unfold Waits
  rw [scans, last]
  rcases waits with ⟨b, here, missed⟩ | ⟨i, b, out, here, missed⟩
  · exact .inl ⟨b, on here, missed⟩
  · exact .inr ⟨i, b, out, on here, missed⟩

/-- What fired has fired. -/
theorem Fired.of_grows (grows : s.trace <:+ s'.trace) (fired : Fired s x) : Fired s' x := by
  obtain ⟨now, ret, member⟩ := fired
  exact ⟨now, ret, grows.subset member⟩

/-- A scan calls callbacks and frees timers, and does nothing else. -/
structure Undisturbed (s s' : Timers H F) : Prop where
  minExptm : s'.minExptm = s.minExptm
  kept : ∀ {i b x e}, On s' i b x e → On s i b x e
  left : ∀ {i b x e}, On s i b x e → On s' i b x e ∨ Fired s' x
  log : ∃ acts, s'.trace = acts ++ s.trace ∧
    ∀ act ∈ acts, (∃ x now ret, act = .fired x now ret) ∨ ∃ x, act = .freed x

theorem Undisturbed.refl (s : Timers H F) : Undisturbed s s where
  minExptm := rfl
  kept := id
  left := .inl
  log := ⟨[], rfl, nofun⟩

/-- The trace only grows. -/
theorem Undisturbed.grows (undisturbed : Undisturbed s s') : s.trace <:+ s'.trace := by
  obtain ⟨acts, trace, -⟩ := undisturbed.log
  exact ⟨acts, trace.symm⟩

theorem Undisturbed.trans {s'' : Timers H F} (first : Undisturbed s s')
    (second : Undisturbed s' s'') : Undisturbed s s'' where
  minExptm := second.minExptm.trans first.minExptm
  kept := fun on => first.kept (second.kept on)
  left := by
    intro i b x e on
    rcases first.left on with on | fired
    · exact second.left on
    · exact .inr (fired.of_grows second.grows)
  log := by
    obtain ⟨acts, trace, quiet⟩ := first.log
    obtain ⟨acts', trace', quiet'⟩ := second.log
    refine ⟨acts' ++ acts, by rw [trace', trace, List.append_assoc], fun act member => ?_⟩
    rcases List.mem_append.mp member with member | member
    · exact quiet' act member
    · exact quiet act member

/-- The call of a function is logged. -/
theorem undisturbed_fire (s : Timers H F) (x : Nat) (now ret : Int) :
    Undisturbed s (s.log (.fired x now ret)) where
  minExptm := rfl
  kept := id
  left := .inl
  log := ⟨[.fired x now ret], rfl, fun _ member => .inl ⟨x, now, ret, List.mem_singleton.mp member⟩⟩

structure Timely (everySecond : Prop) (start : Int) (s : Timers H F) : Prop where
  wf : WF s
  sound : Sound s none
  epoch : 0 ≤ s.now
  last : lastScan start s.trace ≤ s.now
  pace : everySecond → s.now ≤ lastScan start s.trace + 1
  floors : Floors s
  waits : ∀ {x e}, .armed x e ∈ s.trace → .disarmed x ∉ s.trace → ¬ Fired s x →
    Waits everySecond start s x e

/-- No timer is late at the start. -/
theorem timely_setup (epoch : 0 ≤ start) : Timely everySecond start (setup H F start) where
  wf := wf_setup start
  sound := logged_nil
  epoch := epoch
  last := Int.le_refl _
  pace := fun _ => Int.le_add_one (Int.le_refl _)
  floors := fun _ on => nomatch on.1
  waits := nofun

/-- The clock goes on by a second at most between two scans. -/
theorem Timely.tick (timely : Timely everySecond start s) {now : Int} (later : s.now ≤ now)
    (pace : everySecond → now ≤ lastScan start s.trace + 1) :
    Timely everySecond start { s with now } where
  wf := { timely.wf with }
  sound := timely.sound
  epoch := timely.epoch.trans later
  last := timely.last.trans later
  pace := pace
  floors := timely.floors
  waits := timely.waits

/-! ## Calls between scans -/

variable [DecidableEq H]

/-- The timers on the lists after one is armed. -/
theorem Armed.on (armed : Armed s s' a t i) (wf : WF s) :
    On s' j b x e ↔ b ≠ a ∧ On s j b x e ∨ b = a ∧ j = i ∧ x = s.armings ∧ e = t.expire := by
  unfold On
  rw [armed.level, armed.pending, wf.levels.mem_placed]
  by_cases same : b = a
  · subst same
    rw [Function.update_self]
    simp only [ne_eq, not_true, false_and, false_or, true_and, Option.some.injEq, Prod.mk.injEq]
    exact and_congr_right fun _ => and_congr eq_comm eq_comm
  · simp [same]

/-- The timers on the lists after one is removed. -/
theorem Removed.on {l : H} (removed : Removed s s' a t l) :
    On s' j b x e ↔ b ≠ a ∧ On s j b x e := by
  unfold On
  rw [removed.level, removed.pending]
  by_cases same : b = a
  · subst same
    simp
  · simp [same]

/-- What is armed for a later level is more than four seconds away. -/
theorem Timely.armed (timely : Timely everySecond start s) (armed : Armed s s' a t i)
    (far : i ≠ 0 → 4 < t.expire - s.now) : Timely everySecond start s' := by
  have epoch := timely.epoch
  have last : lastScan start s'.trace = lastScan start s.trace := by
    rcases armed.origin with ⟨_, _, _, _, trace⟩ | ⟨_, _, _, _, _, trace⟩
    · rw [trace, lastScan]
    · rw [trace, lastScan, lastScan]
  constructor
  case wf => exact armed.wf timely.wf
  case sound => exact armed.sound timely.sound
  case epoch => exact armed.now ▸ epoch
  case last =>
    rw [last, armed.now]
    exact timely.last
  case pace =>
    rw [last, armed.now]
    exact timely.pace
  case floors =>
    intro j b x e out on
    rw [armed.minExptm]
    rcases (armed.on timely.wf).mp on with ⟨-, before⟩ | ⟨rfl, rfl, rfl, rfl⟩
    · obtain ⟨positive, nonzero, least⟩ := timely.floors out before
      refine ⟨positive, ?_⟩
      by_cases same : j = i
      · subst same
        obtain ⟨nonzero', -, lower⟩ := setMinExptm_floor (s := s) (e := t.expire) (by omega) j
        exact ⟨nonzero', by omega⟩
      · rw [setMinExptm_other _ same]
        exact ⟨nonzero, least⟩
    · obtain ⟨nonzero, least, -⟩ := setMinExptm_floor (s := s) (e := t.expire) (by omega) j
      exact ⟨by omega, nonzero, least⟩
  case waits =>
    intro x e isArmed undisarmed unfired
    have unfired' : ¬ Fired s x := fun fired => unfired (fired.of_grows armed.edit.grows)
    have undisarmed' : .disarmed x ∉ s.trace := fun before =>
      undisarmed (armed.edit.grows.subset before)
    by_cases new : x = s.armings
    · subst new
      have is : s'.pending a = some (s.armings, t.expire) := by
        rw [armed.pending, Function.update_self]
      have sound' : Sound s' none := armed.sound timely.sound
      obtain rfl : e = t.expire := sound'.unique isArmed (sound'.armed is)
      have here : On s' i a s.armings t.expire :=
        (armed.on timely.wf).mpr (.inr ⟨rfl, rfl, rfl, rfl⟩)
      have unscanned : dueScans s.armings t.expire s'.trace = 0 := by
        rcases armed.origin with ⟨_, _, _, _, trace⟩ | ⟨_, _, _, _, _, trace⟩
        · rw [trace, dueScans, if_pos rfl]
        · rw [trace, dueScans, if_pos rfl]
      by_cases first : i = 0
      · subst first
        exact .inl ⟨a, here, by omega, fun _ => unscanned⟩
      · have before := timely.last
        exact .inr ⟨i, a, first, here, unscanned, fun _ => by omega⟩
    · have isArmed' : .armed x e ∈ s.trace := by
        rcases armed.origin with ⟨_, _, _, _, trace⟩ | ⟨_, _, _, _, _, trace⟩
        · simpa [trace, new] using isArmed
        · simpa [trace, new] using isArmed
      refine (timely.waits isArmed' undisarmed' unfired').keep ?_ ?_ last
      · intro j b on
        refine (armed.on timely.wf).mpr (.inl ⟨?_, on⟩)
        rintro rfl
        rcases armed.origin with ⟨_, fresh, -⟩ | ⟨old, was, live, -, -, trace⟩
        · exact nomatch (pending_of_unused fresh).symm.trans on.2
        · have same := (pending_of_live was live).symm.trans on.2
          cases same
          exact undisarmed (by simp [trace])
      · rcases armed.origin with ⟨_, _, _, _, trace⟩ | ⟨_, _, _, _, _, trace⟩
        · rw [trace, dueScans, if_neg (Ne.symm new)]
        · rw [trace, dueScans, if_neg (Ne.symm new), dueScans]

/-- A timer that is removed makes no other late. -/
theorem Timely.removed {l : H} (timely : Timely everySecond start s)
    (removed : Removed s s' a t l) : Timely everySecond start s' := by
  have last : lastScan start s'.trace = lastScan start s.trace := by
    rw [removed.trace, lastScan]
  constructor
  case wf => exact removed.wf timely.wf
  case sound => exact removed.sound timely.sound
  case epoch => exact removed.now ▸ timely.epoch
  case last =>
    rw [last, removed.now]
    exact timely.last
  case pace =>
    rw [last, removed.now]
    exact timely.pace
  case floors =>
    intro j b x e out on
    rw [removed.minExptm]
    exact timely.floors out (removed.on.mp on).2
  case waits =>
    intro x e isArmed undisarmed unfired
    have isArmed' : .armed x e ∈ s.trace := by simpa [removed.trace] using isArmed
    have undisarmed' : .disarmed x ∉ s.trace := fun before =>
      undisarmed (removed.edit.grows.subset before)
    have unfired' : ¬ Fired s x := fun fired => unfired (fired.of_grows removed.edit.grows)
    refine (timely.waits isArmed' undisarmed' unfired').keep ?_ ?_ last
    · intro j b on
      refine removed.on.mpr ⟨?_, on⟩
      rintro rfl
      have same := (pending_of_live removed.was removed.live).symm.trans on.2
      cases same
      exact undisarmed (by simp [removed.trace])
    · rw [removed.trace, dueScans]

/-- Every call between scans keeps the timers timely. -/
theorem Timely.call [DecidableEq F] (timely : Timely everySecond start s) {call : Call H F}
    (fresh : Fresh s call) (range : NotLongPast s call) :
    Timely everySecond start (s.call call) := by
  rcases call_did timely.wf fresh with same | ⟨a, t, i, armed, sets, place, -⟩ | ⟨a, t, l, removed⟩
  · rwa [same]
  · refine timely.armed armed fun out => ?_
    rcases place with rfl | ⟨rfl, l, func, owner, data, rfl⟩
    · exact levelFor_far out
    · exact levelFor_int_far range out
  · exact timely.removed removed

/-! ## A scan with callbacks that do not touch timers -/

/-- A timer that is freed was called before, or has no function. -/
theorem Freed.undisturbed (freed : Freed s s' a t) (wf : WF s)
    (ended : t.function.isSome → Fired s t.arming) : Undisturbed s s' where
  minExptm := freed.minExptm
  kept := fun on => ((freed.on wf).mp on).2
  left := by
    intro i b x e on
    by_cases same : b = a
    · subst same
      obtain ⟨t', was, live, rfl, rfl⟩ := pending_some on.2
      obtain rfl : t = t' := Option.some.inj (freed.was.symm.trans was)
      exact .inr ((ended live).of_grows freed.edit.grows)
    · exact .inl ((freed.on wf).mpr ⟨same, on⟩)
  log := by
    rw [freed.trace]
    split
    · exact ⟨[.freed t.arming], rfl, fun _ member => .inr ⟨_, List.mem_singleton.mp member⟩⟩
    · exact ⟨[], rfl, nofun⟩

variable [DecidableEq F] {out : Nat → Outcome H F} {turns : Nat} {w : Walk H F}

def Quiet (out : Nat → Outcome H F) : Prop := ∀ k, (out k).calls = []

/-- Functions that call nothing are careful. -/
theorem Quiet.careful (quiet : Quiet out) (s : Timers H F) : s.Careful out := by
  intro n a t _ _ _ _
  rw [quiet]
  trivial

omit [DecidableEq H] [DecidableEq F] in
/-- Functions that call nothing settle. -/
theorem Quiet.settles (quiet : Quiet out) (now : Int) : Settles now out := by
  refine ⟨0, fun k _ => ?_⟩
  rw [quiet]
  exact nofun

/-- One turn of the walk calls and frees, and does nothing else. -/
theorem Undisturbed.step (undisturbed : Undisturbed s w.s) (quiet : Quiet out) (good : w.Good) :
    Undisturbed s (w.step out).s := by
  rcases good.place with head | ⟨a, here, cur, -⟩
  · rwa [Walk.step_head head]
  · obtain ⟨t, was⟩ := good.used cur
    refine undisturbed.trans ?_
    simp only [Walk.step, cur, was]
    by_cases isDue : w.s.Due a
    · obtain ⟨x, e, is, due⟩ := id isDue
      rw [visit_due was is due, quiet]
      have fired := undisturbed_fire w.s x w.s.now (out w.calls).ret
      split
      · obtain ⟨t', was', live, rfl, -⟩ := pending_some is
        obtain rfl : t = t' := Option.some.inj (was.symm.trans was')
        have there : (w.s.log (.fired t.arming w.s.now (out w.calls).ret)).table a = some t := was
        exact fired.trans ((doRemoveTimer_freed there).undisturbed (wf_log good.wf _)
          fun _ => ⟨_, _, List.mem_cons_self⟩)
      · exact fired
    · rcases (visit_early out w.calls was isDue).2 with same | ⟨dead, freed⟩
      · rw [same]
        exact .refl _
      · refine freed.undisturbed good.wf fun live => ?_
        simp [dead] at live

/-- By induction over the turns of the walk. -/
theorem walk_undisturbed (wf : WF s) (sound : Sound s none) (quiet : Quiet out) (n : Nat) :
    Undisturbed s (s.walk out n).s := by
  induction n with
  | zero => exact .refl s
  | succ n ih =>
    rw [walk_succ]
    exact ih.step quiet (walk_walked wf sound (quiet.careful s) n).good

omit [DecidableEq H] [DecidableEq F] in
/-- Calls of functions are no scans. -/
theorem dueScans_append {acts rest : List Act}
    (quiet : ∀ act ∈ acts, (∃ x now ret, act = .fired x now ret) ∨ ∃ x, act = .freed x) (x : Nat)
    (e : Int) : dueScans x e (acts ++ rest) = dueScans x e rest := by
  induction acts with
  | nil => rfl
  | cons act acts ih =>
    have later := ih fun act member => quiet act (List.mem_cons_of_mem _ member)
    rcases quiet act List.mem_cons_self with ⟨y, now, ret, rfl⟩ | ⟨y, rfl⟩
    · rwa [List.cons_append, dueScans]
    · rwa [List.cons_append, dueScans]

/-- What is due on the first level is called. -/
theorem fired_of_due (wf : WF s) (sound : Sound s none) (quiet : Quiet out)
    (head : (s.walk out turns).cur = .head 0) (on : On s 0 b x e) (due : e ≤ s.now) :
    .disarmed x ∈ (s.walk out turns).s.trace ∨ Fired (s.walk out turns).s x := by
  obtain ⟨t, was, live, rfl, rfl⟩ := pending_some on.2
  have walked := walk_walked wf sound (quiet.careful s) turns
  rcases walked.awaits on.1 was live due with ⟨inside, -⟩ | disarmed | called
  · simp only [Walk.ahead, head] at inside
    exact absurd inside List.not_mem_nil
  · exact .inl disarmed
  · right
    by_contra unfired
    have none_ : firings t.arming (s.walk out turns).s.trace = 0 :=
      firings_eq_zero fun now ret member => unfired ⟨now, ret, member⟩
    omega

/-- A scan fires what is due and keeps the others timely. -/
theorem Timely.scan (timely : Timely everySecond start s) (quiet : Quiet out)
    (returned : s.scanSecondsTimer out turns = some s') : Timely everySecond start s' := by
  have careful := quiet.careful s
  obtain ⟨head, wf', sound', trace⟩ := scanned timely.wf timely.sound careful returned
  obtain ⟨-, is⟩ := scanSecondsTimer_eq_some returned
  have walked := walk_walked timely.wf timely.sound careful turns
  have undisturbed := walk_undisturbed timely.wf timely.sound quiet turns
  have fired_or := fun {b x e} =>
    fired_of_due (b := b) (x := x) (e := e) timely.wf timely.sound quiet head
  generalize s.walk out turns = w at *
  have swept : Swept [4, 3, 2, 1] w.s w.s.scanLevels := by
    refine scanLevels_swept walked.good.wf ?_
    intro i b x e out on
    rw [undisturbed.minExptm]
    exact timely.floors out (undisturbed.kept on)
  have now : s'.now = s.now := by
    rw [is]
    exact swept.same.now.trans walked.now
  have last : lastScan start s'.trace = s.now := by rw [trace, lastScan]
  constructor
  case wf => exact wf'
  case sound => exact sound'
  case epoch => exact now ▸ timely.epoch
  case last => rw [last, now]
  case pace =>
    omega
  case floors =>
    subst is
    exact swept.floors
  case waits =>
    intro x e isArmed undisarmed unfired
    obtain ⟨acts, log, quietly⟩ := undisturbed.log
    have grows : s.trace <:+ s'.trace := by
      rw [trace]
      exact undisturbed.grows.trans (List.suffix_cons ..)
    have growsLoop : w.s.trace <:+ s'.trace := by
      rw [trace]
      exact List.suffix_cons ..
    have isArmed' : .armed x e ∈ s.trace := by
      rw [trace, log, List.mem_cons, List.mem_append] at isArmed
      rcases isArmed with same | member | member
      · exact nomatch same
      · rcases quietly _ member with ⟨_, _, _, same⟩ | ⟨_, same⟩
        · exact nomatch same
        · exact nomatch same
      · exact member
    have waits := timely.waits isArmed' (fun before => undisarmed (grows.subset before))
      fun fired => unfired (fired.of_grows grows)
    have scans : dueScans x e s'.trace = (if e ≤ s.now then 1 else 0) + dueScans x e s.trace := by
      rw [trace, dueScans, log, dueScans_append quietly]
    have remains : ∀ {i b}, On s i b x e → On w.s i b x e := fun on =>
      (undisturbed.left on).resolve_right fun fired => unfired (fired.of_grows growsLoop)
    unfold Waits
    rw [scans, last]
    rcases waits with ⟨b, on, missed, pace⟩ | ⟨i, b, out, on, missed, pace⟩
    · left
      have early : ¬ e ≤ s.now := by
        intro due
        rcases fired_or on due with disarmed | fired
        · exact undisarmed (growsLoop.subset disarmed)
        · exact unfired (fired.of_grows growsLoop)
      rw [if_neg early, Nat.zero_add]
      subst is
      exact ⟨b, swept.first (remains on), missed, pace⟩
    · have on' := remains on
      have used : (w.s.scanLevels.table b).isSome := by
        have pends : w.s.scanLevels.pending b = some (x, e) := by
          rw [swept.same.pending]
          exact on'.2
        obtain ⟨t, was, -⟩ := pending_some pends
        rw [was]
        rfl
      obtain ⟨j, there⟩ := swept.wf.levels.onLevel used
      have at_ : On w.s.scanLevels j b x e := by
        refine ⟨there, ?_⟩
        rw [swept.same.pending]
        exact on'.2
      rw [missed, Nat.add_zero]
      by_cases first : j = 0
      · subst first
        left
        subst is
        refine ⟨b, at_, by split <;> omega, fun each => ?_⟩
        have before := pace each
        have second := timely.pace each
        rw [if_neg (by omega)]
      · right
        have far := swept.later first at_
        have same : w.s.scanLevels.now = s.now := swept.same.now.trans walked.now
        subst is
        refine ⟨j, b, first, at_, ?_, fun _ => by omega⟩
        rw [if_neg (by omega)]

/-! ## Runs -/

/-- The clock does not go back, and moves at most a second on from one scan to the next where
there is a scan every second. Calls are made between scans, which come back. -/
def Between (everySecond : Prop) (start : Int) (s : Timers H F) : Event H F → Prop
  | .tick now => s.now ≤ now ∧ (everySecond → now ≤ lastScan start s.trace + 1)
  | .call call => Fresh s call ∧ NotLongPast s call
  | .scan out turns => Quiet out ∧ (s.scanSecondsTimer out turns).isSome

/-- Every arming that is not undone is called by so many scans at or after its time. -/
def CalledWithin (scans : Nat) (s : Timers H F) : Prop :=
  ∀ x e, .armed x e ∈ s.trace → .disarmed x ∉ s.trace → scans ≤ dueScans x e s.trace → Fired s x

/-- Every run keeps the timers timely. -/
theorem timely_of_run (epoch : 0 ≤ start)
    (run : Reaches step (Between everySecond start) (setup H F start) s) :
    Timely everySecond start s := by
  apply run.invariant
  case initial => exact timely_setup epoch
  case preserved =>
    intro s event timely allowed
    cases event with
    | tick now => exact timely.tick allowed.1 allowed.2
    | call call => exact timely.call allowed.1 allowed.2
    | scan out turns =>
      obtain ⟨quiet, returns⟩ := allowed
      obtain ⟨s', returned⟩ := Option.isSome_iff_exists.mp returns
      rw [step, returned]
      exact timely.scan quiet returned

/-- No timer is called early, after it was removed, or again once its callback has returned 0. It
is called by the second scan at or after its time, by the first where there is a scan every second,
and every scan comes back. -/
theorem timers_punctual (epoch : 0 ≤ start)
    (run : Reaches step (Between everySecond start) (setup H F start) s) :
    Proper s.trace ∧ CalledWithin 2 s ∧ (everySecond → CalledWithin 1 s) ∧
      ∀ out, Quiet out → ∃ turns, (s.scanSecondsTimer out turns).isSome := by
  have timely := timely_of_run epoch run
  refine ⟨timely.sound.proper, ?_, ?_, fun out quiet => ?_⟩
  · intro x e isArmed undisarmed scans
    by_contra unfired
    rcases timely.waits isArmed undisarmed unfired with ⟨b, -, missed, -⟩ | ⟨i, b, -, -, missed, -⟩
    · omega
    · omega
  · intro each x e isArmed undisarmed scans
    by_contra unfired
    rcases timely.waits isArmed undisarmed unfired with ⟨b, -, -, none_⟩ | ⟨i, b, -, -, none_, -⟩
    · have missed := none_ each
      omega
    · omega
  · have scans : Scans s out :=
      scans_of_careful timely.wf timely.sound (quiet.careful s) (quiet.settles s.now)
    exact scans.returns

/-- Callbacks that all return the same. -/
def returning (ret : Int) (_ : Nat) : Outcome Unit Unit := { calls := [], ret }

/-- A timer that is added, moved to an earlier time and called in time. -/
def moved : Timers Unit Unit :=
  [Event.call (.addTimerEvent () () 0 0 15 0), .tick 11, .scan (returning 0) 1,
    .call (.modExpireTime () 1 12), .tick 12, .scan (returning 0) 1].foldl step (setup Unit Unit 10)

/-- A timer that is added, moved and called in time. -/
theorem timers_punctual_moved : Proper moved.trace ∧ CalledWithin 2 moved ∧
    (True → CalledWithin 1 moved) ∧
      ∀ out, Quiet out → ∃ turns, (moved.scanSecondsTimer out turns).isSome := by
  have late : (-2 ^ 31 : Int) ≤ 15 - 10 := by decide
  have run : Reaches step (Between True 10) (setup Unit Unit 10) moved := by
    refine Reaches.refl.follow ⟨⟨rfl, late⟩, ⟨?_, fun _ => ?_⟩, ⟨fun _ => rfl, ?_⟩,
      ⟨trivial, trivial⟩, ⟨?_, fun _ => ?_⟩, ⟨fun _ => rfl, ?_⟩, trivial⟩
    all_goals decide +kernel
  exact timers_punctual (by decide) run

/-- The clock does not go back, and scans come back. -/
def Orderly (s : Timers H F) : Event H F → Prop
  | .tick now => s.now ≤ now
  | .call call => Fresh s call
  | .scan out turns => Quiet out ∧ (s.scanSecondsTimer out turns).isSome

/-- A callback that returns 1 in two scans. -/
def twice : Timers Unit Unit :=
  [Event.call (.addTimerEvent () () 0 0 10 0), .scan (returning 1) 1, .tick 11,
    .scan (returning 1) 1].foldl step (setup Unit Unit 10)

/-- The timers are all on the last level, whose cached time is not near. -/
structure Hides (s : Timers Unit Unit) (low : Int) (trace : List Act) : Prop where
  level : ∀ i < 4, s.level i = []
  low : s.minExptm 4 = low
  trace : s.trace = trace

/-- A scan then does nothing. -/
theorem Hides.scan {s : Timers Unit Unit} {low now : Int} {trace : List Act}
    (hides : Hides s low trace) (is : s.now = now) (far : now + 2 ≤ low) :
    (s.scanSecondsTimer (returning 0) 0).isSome ∧
      Hides (s.step (.scan (returning 0) 0)) low (.scanned now :: trace) ∧
      (s.step (.scan (returning 0) 0)).now = now := by
  have head : (s.walk (returning 0) 0).cur = .head 0 := by
    simp [walk, startWalk, next, hides.level]
  have empty : ∀ (s : Timers Unit Unit) (i : Nat), s.level i = [] → s.scanTimerList i =
      { s with minExptm := Function.update s.minExptm i 0 } := by
    intro s i none_
    simp only [scanTimerList, none_, List.foldl_nil]
  have skip : ∀ (s' : Timers Unit Unit) (i : Nat), i ≠ 4 → s'.level i = [] →
      ∃ minExptm, s'.scanLevel i = { s' with minExptm } ∧ minExptm 4 = s'.minExptm 4 := by
    intro s' i out none_
    unfold scanLevel
    split
    · exact ⟨_, empty s' i none_, Function.update_of_ne out.symm ..⟩
    · exact ⟨_, rfl, rfl⟩
  obtain ⟨low₁, one, same₁⟩ := skip s 1 (by decide) (hides.level 1 (by decide))
  obtain ⟨low₂, two, same₂⟩ := skip { s with minExptm := low₁ } 2 (by decide)
    (hides.level 2 (by decide))
  obtain ⟨low₃, three, same₃⟩ := skip { s with minExptm := low₂ } 3 (by decide)
    (hides.level 3 (by decide))
  have least : low₃ 4 = low := (same₃.trans (same₂.trans same₁)).trans hides.low
  have levels : s.scanLevels = { s with minExptm := low₃ } := by
    rw [scanLevels_eq, List.foldl_cons, List.foldl_cons, List.foldl_cons, List.foldl_cons,
      List.foldl_nil, one, two, three, scanLevel]
    refine if_neg ?_
    dsimp only
    omega
  have result : s.scanSecondsTimer (returning 0) 0 =
      some (({ s with minExptm := low₃ } : Timers Unit Unit).log (.scanned now)) := by
    have loop : (s.walk (returning 0) 0).s = s := rfl
    simp only [scanSecondsTimer, head, loop, levels, if_true, is]
  rw [step, result]
  exact ⟨rfl, ⟨hides.level, least, by rw [Option.getD_some, log, hides.trace]⟩, is⟩

/-- The clock moves no timer. -/
theorem Hides.tick {s : Timers Unit Unit} {low : Int} {trace : List Act} (hides : Hides s low trace)
    (now : Int) : Hides (s.step (.tick now)) low trace := { hides with }

/-- A timer for time 0 and a later one are added far from both times. -/
def addedTwice (start later : Int) : Timers Unit Unit :=
  [Event.call (.addTimerEvent () () 0 0 0 0), .call (.addTimerEvent () () 0 0 later 1)].foldl step
    (setup Unit Unit start)

/-- Both timers are on the last level, and the cached time is the later one. -/
theorem addedTwice_hides {start later : Int} (first : levelFor (int (0 - start)) = 4)
    (second : levelFor (int (later - start)) = 4) :
    Hides (addedTwice start later) later [.armed 1 later, .armed 0 0] := by
  rw [Int.zero_sub] at first
  constructor
  case level =>
    intro i low
    have differs : i ≠ 4 := by omega
    simp [addedTwice, step, Timers.call, addTimerEvent, enter_eq, setup, first, second, differs]
  case low =>
    simp [addedTwice, step, Timers.call, addTimerEvent, enter_eq, setup, setMinExptm_minExptm, second]
  case trace =>
    simp [addedTwice, step, Timers.call, addTimerEvent, enter_eq, setup]

/-- Then two scans, a second apart, miss the timer for time 0. -/
def scannedTwice (start later now : Int) : Timers Unit Unit :=
  [Event.tick now, .scan (returning 0) 0, .tick (now + 1), .scan (returning 0) 0].foldl step
    (addedTwice start later)

/-- A callback that does not return 0 is called in every scan. A timer for time 0 that is set more
than 2^31 seconds after that time, or before it, can hide from two scans. -/
theorem timers_not_punctual :
    (Reaches step Orderly (setup Unit Unit 10) twice ∧ firings 0 twice.trace = 2) ∧
      (Reaches step Orderly (setup Unit Unit 2147483658)
          (scannedTwice 2147483658 2147483758 2147483658) ∧
        ¬ CalledWithin 2 (scannedTwice 2147483658 2147483758 2147483658)) ∧
      Reaches step Orderly (setup Unit Unit (-40)) (scannedTwice (-40) 10 0) ∧
        ¬ CalledWithin 2 (scannedTwice (-40) 10 0) := by
  have missed : ∀ {start later now : Int}, levelFor (int (0 - start)) = 4 →
      levelFor (int (later - start)) = 4 → start ≤ now → 0 ≤ now → now + 3 ≤ later →
      Reaches step Orderly (setup Unit Unit start) (scannedTwice start later now) ∧
        ¬ CalledWithin 2 (scannedTwice start later now) := by
    intro start later now first second forward positive far
    have added := addedTwice_hides first second
    have clock : (addedTwice start later).now = start := by
      simp [addedTwice, step, Timers.call, addTimerEvent, enter_eq, setup]
    have unused : ((setup Unit Unit start).step
        (.call (.addTimerEvent () () 0 0 0 0))).table 1 = none := by
      simp [step, Timers.call, addTimerEvent, enter_eq, setup]
    have ticked : ((addedTwice start later).step (.tick now)).now = now := rfl
    obtain ⟨returns, once, is⟩ := (added.tick now).scan ticked (by omega)
    have ticked' := (once.tick (now + 1)).scan (show _ = now + 1 from rfl) (by omega)
    obtain ⟨returns', again, -⟩ := ticked'
    refine ⟨?_, fun called => ?_⟩
    · have run : Reaches step Orderly (setup Unit Unit start) (addedTwice start later) :=
        Reaches.refl.follow ⟨rfl, unused, trivial⟩
      refine run.follow ⟨?_, ⟨fun _ => rfl, returns⟩, ?_, ⟨fun _ => rfl, returns'⟩, trivial⟩
      · show (addedTwice start later).now ≤ now
        omega
      · show Timers.now _ ≤ now + 1
        omega
    · have twice : (scannedTwice start later now).trace =
          [.scanned (now + 1), .scanned now, .armed 1 later, .armed 0 0] := again.trace
      obtain ⟨time, ret, member⟩ := called 0 0 (by simp [twice]) (by simp [twice]) (by
        rw [twice]
        simp [dueScans, positive, Int.le_add_one positive])
      simp [twice] at member
  refine ⟨⟨?_, by decide +kernel⟩, missed ?_ ?_ ?_ ?_ ?_, missed ?_ ?_ ?_ ?_ ?_⟩
  · refine Reaches.refl.follow ⟨rfl, ⟨fun _ => rfl, ?_⟩, Int.le.intro 1 rfl, ⟨fun _ => rfl, ?_⟩,
      trivial⟩
    all_goals decide +kernel
  all_goals decide +kernel

end Timers

end Taomee.Timer
