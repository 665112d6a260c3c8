import Taomee.Timer.Levels
import Taomee.Timer.Scan

/-!
# gamesvr timers: callbacks that use timers

The clock moves, timers are armed and removed, scans call back. A scan whose callbacks leave the
saved timer alone and stop arming due timers comes back, with every due timer called once.
-/

namespace Taomee.Timer.Timers

open EditedList Runs

variable {H F : Type*}

/-- What happens to the timers. -/
inductive Event (H F : Type*) where
  | tick (now : Int)
  | call (call : Call H F)
  | scan (out : Nat → Outcome H F) (turns : Nat)

section
variable {s : Timers H F}

/-- A scan starts at the first timer of the first level. -/
theorem startWalk_ahead (s : Timers H F) : s.startWalk.ahead = s.level 0 := by
  cases level : s.level 0 with
  | nil => simp [startWalk, Walk.ahead, next, level]
  | cons a later => simp [startWalk, Walk.ahead, next, level, onward]

theorem startWalk_good (wf : WF s) (sound : Sound s none) : s.startWalk.Good where
  wf := wf
  sound := sound
  place := by
    cases level : s.level 0 with
    | nil => exact .inl (by simp [startWalk, next, level])
    | cons a later =>
      right
      refine ⟨a, ?_, by simp [startWalk, next, level], ?_⟩
      · simp [startWalk, level]
      · simp [startWalk, next, level]

end

variable [DecidableEq H] [DecidableEq F] {s s' : Timers H F} {out : Nat → Outcome H F}
  {turns : Nat} {now : Int}

/-- An event. A scan that does not come back is not an event of a run. -/
def step (s : Timers H F) : Event H F → Timers H F
  | .tick now => { s with now }
  | .call call => s.call call
  | .scan out turns => (s.scanSecondsTimer out turns).getD s

/-- No callback of a scan gives the saved timer another time. -/
def Careful (s : Timers H F) (out : Nat → Outcome H F) : Prop :=
  ∀ n, Walk.Careful out (s.walk out n)

/-- From some callback on, what is armed is later than now. -/
def Settles (now : Int) (out : Nat → Outcome H F) : Prop :=
  ∃ settled, ∀ k, settled ≤ k → Later now (out k).calls

/-- New timers take unused memory, and scans are careful and come back. -/
def Allowed (s : Timers H F) : Event H F → Prop
  | .tick _ => True
  | .call call => Fresh s call
  | .scan out turns => s.Careful out ∧ (s.scanSecondsTimer out turns).isSome

/-- What one scan is to do. -/
structure Scans (s : Timers H F) (out : Nat → Outcome H F) : Prop where
  returns : ∃ turns, (s.scanSecondsTimer out turns).isSome
  inUse : ∀ n, (s.walk out n).cur = .head 0 ∨
    ∃ a t, (s.walk out n).cur = .node a ∧ (s.walk out n).s.table a = some t
  proper : ∀ n, Proper (s.walk out n).s.trace
  reached : ∀ n a t turns s', s.scanSecondsTimer out turns = some s' →
    (s.walk out n).cur = .node a → (s.walk out n).s.table a = some t → t.function.isSome →
    t.expire ≤ s.now → firings t.arming s'.trace = firings t.arming s.trace + 1
  due : ∀ a t turns s', s.scanSecondsTimer out turns = some s' → a ∈ s.level 0 →
    s.table a = some t → t.function.isSome → t.expire ≤ s.now →
    .disarmed t.arming ∈ s'.trace ∨ firings t.arming s'.trace = firings t.arming s.trace + 1

theorem scanSecondsTimer_eq_some (returned : s.scanSecondsTimer out turns = some s') :
    (s.walk out turns).cur = .head 0 ∧
      s' = (s.walk out turns).s.scanLevels.log
        (.scanned (s.walk out turns).s.scanLevels.now) := by
  unfold scanSecondsTimer at returned
  dsimp only at returned
  split at returned
  case isTrue head => exact ⟨head, (Option.some.inj returned).symm⟩
  case isFalse => exact nomatch returned

theorem scanSecondsTimer_isSome (head : (s.walk out turns).cur = .head 0) :
    (s.scanSecondsTimer out turns).isSome := by
  unfold scanSecondsTimer
  rw [if_pos head]
  rfl

/-- A careful scan of `s` under way. -/
structure Walked (s : Timers H F) (w : Walk H F) : Prop where
  good : w.Good
  once : w.Once s.trace
  now : w.s.now = s.now
  awaits : ∀ {a t}, a ∈ s.level 0 → s.table a = some t → t.function.isSome → t.expire ≤ s.now →
    w.Awaits s.trace a t.arming

omit [DecidableEq H] [DecidableEq F] in
theorem startWalk_walked (wf : WF s) (sound : Sound s none) : Walked s s.startWalk where
  good := startWalk_good wf sound
  once := ⟨fun _ => Nat.le_refl _, fun _ => Nat.le_succ _, fun _ _ => rfl⟩
  now := rfl
  awaits := by
    intro a t here was live due
    refine .inl ⟨?_, t.expire, pending_of_live was live, due⟩
    rwa [startWalk_ahead]

theorem Walked.step {w : Walk H F} (walked : Walked s w) (careful : w.Careful out) :
    Walked s (w.step out) := by
  rcases walked.good.place with head | ⟨a, -, cur, -⟩
  · rwa [Walk.step_head head]
  · obtain ⟨good, turn, -⟩ := walked.good.turn cur careful
    exact
      { good
        once := walked.once.step walked.good cur careful
        now := turn.now.trans walked.now
        awaits := fun here was live due =>
          (walked.awaits here was live due).step walked.once walked.good cur careful }

theorem walk_walked (wf : WF s) (sound : Sound s none) (careful : s.Careful out) (n : Nat) :
    Walked s (s.walk out n) := by
  induction n with
  | zero => exact startWalk_walked wf sound
  | succ n ih =>
    have step := ih.step (careful n)
    rwa [walk, ← Function.iterate_succ_apply' (Walk.step out)] at step

/-- A scan that has come back; nothing is called after its first loop. -/
theorem scanned (wf : WF s) (sound : Sound s none) (careful : s.Careful out)
    (returned : s.scanSecondsTimer out turns = some s') :
    (s.walk out turns).cur = .head 0 ∧ WF s' ∧ Sound s' none ∧
      s'.trace = .scanned s.now :: (s.walk out turns).s.trace := by
  obtain ⟨head, rfl⟩ := scanSecondsTimer_eq_some returned
  have walked := walk_walked wf sound careful turns
  obtain ⟨wf', same⟩ := scanLevels_kept walked.good.wf
  have sound' : Sound (s.walk out turns).s.scanLevels none := same.sound walked.good.sound
  refine ⟨head, wf_log wf' _, sound'.scan _, ?_⟩
  rw [log, same.trace, same.now, walked.now]

theorem walk_succ (s : Timers H F) (out : Nat → Outcome H F) (n : Nat) :
    s.walk out (n + 1) = (s.walk out n).step out :=
  Function.iterate_succ_apply' ..

/-- What has been called stays called once until the scan comes back. -/
theorem called_once (wf : WF s) (sound : Sound s none) (careful : s.Careful out) {x n : Nat}
    (called : firings x (s.walk out n).s.trace = firings x s.trace + 1) (more : Nat) :
    firings x (s.walk out (n + more)).s.trace = firings x s.trace + 1 := by
  induction more with
  | zero => exact called
  | succ more ih =>
    have walked := walk_walked wf sound careful (n + more)
    rw [← Nat.add_assoc, walk_succ]
    rcases walked.good.place with head | ⟨a, -, cur, -⟩
    · rwa [Walk.step_head head]
    · exact walked.once.called_step walked.good cur (careful _) ih

/-- The scan stays at the head. -/
theorem walk_head {n : Nat} (head : (s.walk out n).cur = .head 0) (more : Nat) :
    (s.walk out (n + more)).cur = .head 0 := by
  induction more with
  | zero => exact head
  | succ more ih =>
    rw [← Nat.add_assoc, walk_succ, Walk.step_head ih]
    exact ih

theorem scans_of_careful (wf : WF s) (sound : Sound s none) (careful : s.Careful out)
    (settles : Settles s.now out) : Scans s out where
  returns := by
    obtain ⟨settled, settles⟩ := settles
    obtain ⟨turns, head⟩ := (startWalk_good wf sound).ends careful settles
    exact ⟨turns, scanSecondsTimer_isSome head⟩
  inUse := by
    intro n
    have walked := walk_walked wf sound careful n
    rcases walked.good.place with head | ⟨a, -, cur, -⟩
    · exact .inl head
    · obtain ⟨t, was⟩ := walked.good.used cur
      exact .inr ⟨a, t, cur, was⟩
  proper := fun n => (walk_walked wf sound careful n).good.sound.proper
  reached := by
    intro n a t turns s' returned cur was live due
    obtain ⟨head, -, -, trace⟩ := scanned wf sound careful returned
    have walked := walk_walked wf sound careful n
    have is : (s.walk out n).s.pending a = some (t.arming, t.expire) := pending_of_live was live
    have called : firings t.arming (s.walk out (n + 1)).s.trace = firings t.arming s.trace + 1 := by
      obtain ⟨-, -, visit⟩ := walked.good.turn cur (careful n)
      rw [walk_succ]
      rcases visit with ⟨early, -⟩ | ⟨x, e, is', -, -, fired⟩
      · exact absurd ⟨_, _, is, walked.now ▸ due⟩ early
      · have same := is.symm.trans is'
        cases same
        rw [fired, if_pos rfl, walked.once.ahead (walked.good.mem_ahead cur) is]
        exact Nat.add_comm ..
    have before : n < turns := by
      by_contra after
      have stays := walk_head head (n - turns)
      rw [show turns + (n - turns) = n by omega, cur] at stays
      exact nomatch stays
    have final := called_once wf sound careful called (turns - (n + 1))
    rw [show n + 1 + (turns - (n + 1)) = turns by omega] at final
    rw [trace, firings]
    exact final
  due := by
    intro a t turns s' returned here was live due
    obtain ⟨head, -, -, trace⟩ := scanned wf sound careful returned
    have walked := walk_walked wf sound careful turns
    rw [trace]
    rcases walked.awaits here was live due with ⟨inside, -⟩ | disarmed | called
    · simp only [Walk.ahead, head] at inside
      exact absurd inside List.not_mem_nil
    · exact .inl (List.mem_cons_of_mem _ disarmed)
    · exact .inr called

/-- The lists and the log stay in order over any run. -/
theorem reachable_sound (run : Reaches step Allowed (setup H F now) s) : WF s ∧ Sound s none := by
  apply run.invariant
  case initial => exact ⟨wf_setup now, logged_nil⟩
  case preserved =>
    intro s event inv allowed
    obtain ⟨wf, sound⟩ := inv
    cases event with
    | tick now => exact ⟨{ wf with }, { sound with }⟩
    | call call => exact ⟨call_wf wf allowed, call_sound wf sound allowed⟩
    | scan out turns =>
      obtain ⟨careful, returns⟩ := allowed
      obtain ⟨s', returned⟩ := Option.isSome_iff_exists.mp returns
      obtain ⟨-, wf', sound', -⟩ := scanned wf sound careful returned
      rw [step, returned]
      exact ⟨wf', sound'⟩

/-- A scan calls every due timer that it comes to once, and comes back, when no callback gives the
saved timer another time and from some callback on none arms a due timer. -/
theorem scan_reentrant (run : Reaches step Allowed (setup H F now) s) (careful : s.Careful out)
    (settles : Settles s.now out) : Scans s out := by
  obtain ⟨wf, sound⟩ := reachable_sound run
  exact scans_of_careful wf sound careful settles

/-! ## Runs with and without the conditions -/

/-- Three timers of one owner, all due. -/
def allDue : Timers Unit Unit :=
  [Event.call (.addTimerEvent () () 0 0 10 0), .call (.addTimerEvent () () 0 0 10 1),
    .call (.addTimerEvent () () 0 0 10 2)].foldl step (setup Unit Unit 10)

/-- The first callback does one thing, and no other does anything. -/
def onlyFirst (call : Call Unit Unit) (k : Nat) : Outcome Unit Unit :=
  if k = 0 then { calls := [call], ret := 0 } else { calls := [], ret := 0 }

theorem scan_reentrant_arms : Scans allDue (onlyFirst (.addTimerEvent () () 0 0 20 3)) := by
  have run : Reaches step Allowed (setup Unit Unit 10) allDue :=
    Reaches.refl.follow ⟨rfl, rfl, rfl, trivial⟩
  refine scan_reentrant run (fun n a t cur was live due => ?_) ⟨1, fun k later => ?_⟩
  · match n with
    | 0 => exact ⟨⟨rfl, nofun⟩, trivial⟩
    | 1 => trivial
    | 2 => trivial
    | n + 3 =>
      have third : (allDue.walk (onlyFirst (.addTimerEvent () () 0 0 20 3)) 3).cur = .head 0 := by
        decide +kernel
      have head := walk_head third n
      rw [Nat.add_comm, cur] at head
      exact nomatch head
  · have none_ : (onlyFirst (.addTimerEvent () () 0 0 20 3) k).calls = [] := by
      rw [onlyFirst, if_neg (by omega)]
    rw [none_]
    exact nofun

/-- Every callback arms another timer that is due. -/
def armsDue (k : Nat) : Outcome Unit Unit :=
  { calls := [.addTimerEvent () () 0 0 10 (k + 3)], ret := 0 }

/-- A scan that always has a due timer before it. -/
structure Endless (n : Nat) (w : Walk Unit Unit) : Prop where
  cur : w.cur = .node n
  nxt : w.nxt = .node (n + 1)
  calls : w.calls = n
  now : w.s.now = 10
  level : w.s.level 0 = [n, n + 1, n + 2]
  due : ∀ i : Nat, i < 3 → ∃ t, w.s.table (n + i) = some t ∧ t.function = some () ∧ t.expire = 10

theorem Endless.step {n : Nat} {w : Walk Unit Unit} (endless : Endless n w) :
    Endless (n + 1) (w.step armsDue) := by
  obtain ⟨t, was, live, due⟩ := endless.due 0 (by decide)
  rw [Nat.add_zero] at was
  have visited : (visit armsDue w.s w.calls n t) =
      (((w.s.log (.fired t.arming 10 0)).addTimerEvent () () 0 0 10 (n + 3)).doRemoveTimer n true,
        n + 1) := by
    simp [visit, live, due, endless.now, endless.calls, armsDue, Timers.call]
  have zero : levelFor (int 0) = 0 := by decide
  generalize after : (w.s.log (.fired t.arming 10 0)).addTimerEvent () () 0 0 10 (n + 3) = s
    at visited
  have now : s.now = 10 := by simp only [← after, addTimerEvent, enter_eq, log, endless.now]
  have level : s.level 0 = [n, n + 1, n + 2, n + 3] := by
    simp [← after, addTimerEvent, enter_eq, log, endless.now, endless.level, zero]
  have table : ∃ new : TimerStruct Unit Unit, new.function = some () ∧ new.expire = 10 ∧
      s.table = Function.update w.s.table (n + 3) (some new) := by
    refine ⟨_, ?_, ?_, by simp only [← after, addTimerEvent, enter_eq]; rfl⟩
    · rfl
    · rfl
  obtain ⟨new, newLive, newDue, table⟩ := table
  have there : s.table n = some t := by
    have other : n ≠ n + 3 := by omega
    rw [table, Function.update_of_ne other]
    exact was
  have freed := doRemoveTimer_freed there
  have rest : (s.doRemoveTimer n true).level 0 = [n + 1, n + 2, n + 3] := by
    rw [freed.level, without, level, List.erase_cons_head]
  have next : (s.doRemoveTimer n true).next (.node (n + 1)) = .node (n + 2) := by
    have first : (List.range timerVecSize).find?
        (fun i => n + 1 ∈ (s.doRemoveTimer n true).level i) = some 0 :=
      List.find?_cons_of_pos (by simp [rest])
    simp only [Timers.next, first, rest]
    simp
  have turn : w.step armsDue =
      { s := s.doRemoveTimer n true, cur := .node (n + 1), nxt := .node (n + 2),
        calls := n + 1 } := by
    simp only [Walk.step, endless.cur, was, visited, endless.nxt, next]
  rw [turn]
  constructor
  case cur => rfl
  case nxt => rfl
  case calls => rfl
  case now => exact freed.now.trans now
  case level => exact rest
  case due =>
    intro i small
    have other : n + 1 + i ≠ n := by omega
    rw [freed.table, Function.update_of_ne other, table]
    by_cases last : i = 2
    · subst last
      exact ⟨new, Function.update_self .., newLive, newDue⟩
    · have other : n + 1 + i ≠ n + 3 := by omega
      rw [Function.update_of_ne other]
      obtain ⟨t', is, facts⟩ := endless.due (i + 1) (by omega)
      refine ⟨t', ?_, facts⟩
      rwa [show n + 1 + i = n + (i + 1) by omega]

theorem endless_walk (n : Nat) : Endless n (allDue.walk armsDue n) := by
  induction n with
  | zero =>
    constructor
    case due =>
      intro i small
      match i with
      | 0 => exact ⟨_, rfl, rfl, rfl⟩
      | 1 => exact ⟨_, rfl, rfl, rfl⟩
      | 2 => exact ⟨_, rfl, rfl, rfl⟩
    all_goals decide +kernel
  | succ n ih =>
    rw [walk_succ]
    exact ih.step

/-- A callback that gives the saved timer another time leads the scan to another level, or past a
timer that is due. Callbacks that arm due timers for ever keep it from coming back. -/
theorem scan_not_reentrant :
    ¬ Scans allDue (onlyFirst (.modExpireTime () 2 100)) ∧
      ¬ Scans allDue (onlyFirst (.modExpireTime () 2 10)) ∧ ¬ Scans allDue armsDue := by
  refine ⟨fun scans => ?_, fun scans => ?_, fun scans => ?_⟩
  · have astray : (allDue.walk (onlyFirst (.modExpireTime () 2 100)) 2).cur = .head 4 := by
      decide +kernel
    rcases scans.inUse 2 with home | ⟨a, t, there, -⟩
    · exact nomatch astray.symm.trans home
    · exact nomatch astray.symm.trans there
  · obtain ⟨s', returned⟩ : ∃ s',
        allDue.scanSecondsTimer (onlyFirst (.modExpireTime () 2 10)) 2 = some s' :=
      Option.isSome_iff_exists.mp (by decide +kernel)
    have skipped : (allDue.scanSecondsTimer (onlyFirst (.modExpireTime () 2 10)) 2).all
        (fun s' => firings 2 s'.trace = 0 ∧ .disarmed 2 ∉ s'.trace) := by decide +kernel
    rw [returned] at skipped
    have silent : firings 2 s'.trace = 0 ∧ .disarmed 2 ∉ s'.trace := by simpa using skipped
    have due : .disarmed 2 ∈ s'.trace ∨ firings 2 s'.trace = firings 2 allDue.trace + 1 :=
      scans.due 2 _ 2 s' returned (by decide +kernel) rfl rfl (by decide)
    rcases due with disarmed | called
    · exact silent.2 disarmed
    · rw [silent.1] at called
      exact nomatch called
  · obtain ⟨turns, returned⟩ := scans.returns
    obtain ⟨s', returned⟩ := Option.isSome_iff_exists.mp returned
    have head := (scanSecondsTimer_eq_some returned).1
    exact nomatch (endless_walk turns).cur.symm.trans head

end Taomee.Timer.Timers
