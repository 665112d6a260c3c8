import Taomee.Timer.Walk

/-!
# gamesvr timers: the later levels

The cached time of a level is no later than the times of its timers. Then a scan leaves no timer on
a later level that is due within two seconds.
-/

namespace Taomee.Timer.Timers

variable {H F : Type*} {s s' : Timers H F} {a b : Addr} {t : TimerStruct H F} {i j idx x : Nat}
  {e m : Int} {calling : Option Addr} {start : Timers H F} {todo : List Addr}

/-- An arming is pending on a level. -/
def On (s : Timers H F) (i : Nat) (b : Addr) (x : Nat) (e : Int) : Prop :=
  b ∈ s.level i ∧ s.pending b = some (x, e)

/-- The cached times of the later levels are no later than what is pending there. -/
def Floors (s : Timers H F) : Prop :=
  ∀ {i b x e}, i ≠ 0 → On s i b x e → 0 < e ∧ s.minExptm i ≠ 0 ∧ s.minExptm i ≤ e

/-- Nothing on a level is due within two seconds. -/
def Clear (s : Timers H F) (i : Nat) : Prop :=
  ∀ {b x e}, On s i b x e → s.now + 2 ≤ e

/-- The cached time after a timer with a positive time has come to a level. -/
theorem setMinExptm_floor (positive : 0 < e) (i : Nat) :
    (s.setMinExptm e i).minExptm i ≠ 0 ∧ (s.setMinExptm e i).minExptm i ≤ e ∧
      (s.minExptm i ≠ 0 → (s.setMinExptm e i).minExptm i ≤ s.minExptm i) := by
  rw [setMinExptm_minExptm]
  split
  · rw [Function.update_self]
    omega
  · omega

/-- The cached times of the other levels stay. -/
theorem setMinExptm_other (e : Int) (other : j ≠ i) :
    (s.setMinExptm e i).minExptm j = s.minExptm j := by
  rw [setMinExptm_minExptm]
  split
  · exact Function.update_of_ne other ..
  · rfl

/-- Pending armings and the log are as before. -/
structure Same (s s' : Timers H F) : Prop where
  now : s'.now = s.now
  pending : s'.pending = s.pending
  armings : s'.armings = s.armings
  trace : s'.trace = s.trace

theorem Same.trans {s'' : Timers H F} (first : Same s s') (second : Same s' s'') : Same s s'' where
  now := second.now.trans first.now
  pending := second.pending.trans first.pending
  armings := second.armings.trans first.armings
  trace := second.trace.trans first.trace

/-- What is logged stays sound. -/
theorem Same.sound (same : Same s s') (sound : Sound s calling) : Sound s' calling := by
  unfold Sound
  rw [same.pending, same.armings, same.trace]
  exact sound

/-- Leaving a level and entering another is a move. -/
theorem moved_of_enter (was : s.table a = some t) (live : t.function.isSome)
    (inside : i < timerVecSize) : Moved s ((s.leave a).enter a t.expire i) a t i where
  was := was
  live := live
  inside := inside
  now := by simp only [enter_eq, leave]
  table := by simp only [enter_eq, leave]
  level := by
    ext1 j
    simp only [enter_eq, leave, placed]
    by_cases same : j = i
    · simp [same]
    · simp [same]
  minExptm := by simp only [enter_eq, leave, setMinExptm_minExptm]
  sprites := by simp only [enter_eq, leave]
  armings := by simp only [enter_eq, leave]
  trace := by simp only [enter_eq, leave]

/-! ## One timer of a later level -/

variable [DecidableEq H]

/-- What the scan of a later level does to a timer. -/
def Shifted (idx : Nat) (a : Addr) (s s' : Timers H F) : Prop :=
  s' = s ∨
  (∃ t i, Moved s s' a t i ∧ i ≠ idx ∧ (i ≠ 0 → 4 < t.expire - s.now)) ∨
  ∃ t, t.function = none ∧ Freed s s' a t

/-- A scan shifts a timer or leaves it. -/
theorem scanTimer_shifted (inside : idx < timerVecSize) (m : Int) (s : Timers H F) (a : Addr) :
    Shifted idx a s (scanTimer idx (m, s) a).2 := by
  cases was : s.table a with
  | none =>
    left
    simp only [scanTimer, was]
  | some t =>
    simp only [scanTimer, was]
    split
    case isTrue live =>
      split
      case isTrue moves =>
        right; left
        have within := Nat.lt_of_le_of_lt (findMinIdx_le (t.expire - s.now) idx) inside
        exact ⟨t, _, moved_of_enter was live within, moves, findMinIdx_far⟩
      case isFalse =>
        left
        split <;> rfl
    case isFalse dead =>
      right; right
      exact ⟨t, by simpa using dead, doRemoveTimer_freed was⟩

/-- A shift keeps the lists in order. -/
theorem Shifted.wf (shifted : Shifted idx a s s') (wf : WF s) : WF s' := by
  rcases shifted with rfl | ⟨t, i, moved, -⟩ | ⟨t, -, freed⟩
  · exact wf
  · exact moved.wf wf
  · exact freed.wf wf

theorem Freed.pending_dead (freed : Freed s s' a t) (dead : t.function = none) :
    s'.pending = s.pending := by
  rw [freed.pending]
  exact Function.update_eq_self_iff.mpr (pending_of_dead freed.was dead).symm

theorem Shifted.same (shifted : Shifted idx a s s') : Same s s' := by
  rcases shifted with rfl | ⟨t, i, moved, -⟩ | ⟨t, dead, freed⟩
  · exact ⟨rfl, rfl, rfl, rfl⟩
  · exact ⟨moved.now, moved.pending, moved.armings, moved.trace⟩
  · refine ⟨freed.now, freed.pending_dead dead, freed.armings, ?_⟩
    rw [freed.trace, dead]
    rfl

/-! ## A later level -/

/-- The scan of a list keeps all timers. -/
theorem scanTimerList_kept (inside : idx < timerVecSize) (wf : WF s) :
    WF (s.scanTimerList idx) ∧ Same s (s.scanTimerList idx) := by
  obtain ⟨wf', same⟩ := List.foldlRecOn (s.level idx) (scanTimer idx) (b := (0, s))
    (motive := fun found => WF found.2 ∧ Same s found.2) ⟨wf, ⟨rfl, rfl, rfl, rfl⟩⟩
    fun found kept a _ =>
      have shifted := scanTimer_shifted inside found.1 found.2 a
      ⟨shifted.wf kept.1, kept.2.trans shifted.same⟩
  exact ⟨{ wf' with }, { same with }⟩

/-- One level of the second loop. -/
def scanLevel (s : Timers H F) (i : Nat) : Timers H F :=
  if s.minExptm i - s.now < 2 then s.scanTimerList i else s

theorem scanLevels_eq (s : Timers H F) : s.scanLevels = [1, 2, 3, 4].foldl scanLevel s := rfl

/-- The scan of a level keeps all timers. -/
theorem scanLevel_kept (inside : idx < timerVecSize) (wf : WF s) :
    WF (s.scanLevel idx) ∧ Same s (s.scanLevel idx) := by
  unfold scanLevel
  split
  · exact scanTimerList_kept inside wf
  · exact ⟨wf, ⟨rfl, rfl, rfl, rfl⟩⟩

/-- The scan of the upper levels keeps all timers. -/
theorem scanLevels_kept (wf : WF s) : WF s.scanLevels ∧ Same s s.scanLevels := by
  have inside : ∀ i ∈ [1, 2, 3, 4], i < timerVecSize := by decide
  refine List.foldlRecOn [1, 2, 3, 4] scanLevel (motive := fun s' => WF s' ∧ Same s s')
    ⟨wf, ⟨rfl, rfl, rfl, rfl⟩⟩ fun s' kept i member => ?_
  obtain ⟨wf', same⟩ := scanLevel_kept (inside i member) kept.1
  exact ⟨wf', kept.2.trans same⟩

/-! ## The cached times -/

/-- A later level `idx` being scanned: `todo` is to come, and `m` is the least time so far. -/
structure Sweep (idx : Nat) (start : Timers H F) (todo : List Addr) (m : Int) (s : Timers H F) :
    Prop where
  wf : WF s
  same : Same start s
  nodup : todo.Nodup
  coming : ∀ {b}, b ∈ todo → b ∈ s.level idx
  first : ∀ {b x e}, On start 0 b x e → On s 0 b x e
  positive : ∀ {i b x e}, i ≠ 0 → On s i b x e → 0 < e
  floors : ∀ {i b x e}, i ≠ 0 → i ≠ idx → On s i b x e →
    s.minExptm i ≠ 0 ∧ s.minExptm i ≤ e
  passed : ∀ {b x e}, On s idx b x e → b ∉ todo → 4 < e - s.now ∧ m ≠ 0 ∧ m ≤ e
  origin : ∀ {i b x e}, i ≠ 0 → i ≠ idx → On s i b x e → On start i b x e ∨ 4 < e - s.now

omit [DecidableEq H] in
/-- Where the timers are after a move. -/
theorem Moved.on (moved : Moved s s' a t i) (wf : WF s) :
    On s' j b x e ↔ b ≠ a ∧ On s j b x e ∨ b = a ∧ j = i ∧ s.pending a = some (x, e) := by
  unfold On
  rw [moved.level, moved.pending, wf.levels.mem_placed]
  constructor
  · rintro ⟨⟨other, here⟩ | ⟨rfl, rfl⟩, is⟩
    · exact .inl ⟨other, here, is⟩
    · exact .inr ⟨rfl, rfl, is⟩
  · rintro (⟨other, here, is⟩ | ⟨rfl, rfl, is⟩)
    · exact ⟨.inl ⟨other, here⟩, is⟩
    · exact ⟨.inr ⟨rfl, rfl⟩, is⟩

/-- Where the timers are after one is freed. -/
theorem Freed.on (freed : Freed s s' a t) (wf : WF s) : On s' j b x e ↔ b ≠ a ∧ On s j b x e := by
  unfold On
  rw [freed.level, freed.pending, wf.levels.mem_without, and_assoc]
  refine and_congr_right fun other => ?_
  rw [Function.update_of_ne other]

omit [DecidableEq H] in
/-- A timer that is to stay on the level counts for its cached time. -/
theorem Sweep.stay (sweep : Sweep idx start (a :: todo) m s) (later : idx ≠ 0)
    (is : s.pending a = some (x, e)) (far : 4 < e - s.now) :
    Sweep idx start todo (if e < m ∨ m = 0 then e else m) s := by
  have here : On s idx a x e := ⟨sweep.coming List.mem_cons_self, is⟩
  have positive : 0 < e := sweep.positive later here
  refine
    { sweep with
      nodup := (List.nodup_cons.mp sweep.nodup).2
      coming := fun member => sweep.coming (List.mem_cons_of_mem _ member)
      passed := ?_ }
  intro b y e' on notTodo
  by_cases same : b = a
  · subst same
    have equal := is.symm.trans on.2
    cases equal
    refine ⟨far, ?_⟩
    split <;> omega
  · have before := sweep.passed on (by simp [same, notTodo])
    refine ⟨before.1, ?_⟩
    split <;> omega

/-- A timer that is nearer goes to an earlier level. -/
theorem Sweep.move (sweep : Sweep idx start (a :: todo) m s) (later : idx ≠ 0)
    (moved : Moved s s' a t i) (moves : i ≠ idx) (far : i ≠ 0 → 4 < t.expire - s.now) :
    Sweep idx start todo m s' := by
  have here : a ∈ s.level idx := sweep.coming List.mem_cons_self
  have is : s.pending a = some (t.arming, t.expire) := pending_of_live moved.was moved.live
  have positive : 0 < t.expire := sweep.positive later ⟨here, is⟩
  have shifted : Shifted idx a s s' := .inr (.inl ⟨t, i, moved, moves, far⟩)
  have time : ∀ {y e'}, s.pending a = some (y, e') → e' = t.expire := by
    intro y e' is'
    have equal := is.symm.trans is'
    cases equal
    rfl
  constructor
  case wf => exact moved.wf sweep.wf
  case same => exact sweep.same.trans shifted.same
  case nodup => exact (List.nodup_cons.mp sweep.nodup).2
  case coming =>
    intro b member
    rw [moved.level, sweep.wf.levels.mem_placed]
    refine .inl ⟨?_, sweep.coming (List.mem_cons_of_mem _ member)⟩
    rintro rfl
    exact (List.nodup_cons.mp sweep.nodup).1 member
  case first =>
    intro b y e' on
    have on' := sweep.first on
    refine (moved.on sweep.wf).mpr (.inl ⟨?_, on'⟩)
    rintro rfl
    exact later (sweep.wf.levels.apart here on'.1)
  case positive =>
    intro j b y e' out on
    rcases (moved.on sweep.wf).mp on with ⟨-, before⟩ | ⟨-, -, is'⟩
    · exact sweep.positive out before
    · exact time is' ▸ positive
  case floors =>
    intro j b y e' out other on
    rw [moved.minExptm]
    obtain ⟨nonzero, least, lower⟩ := setMinExptm_floor (s := s) positive i
    rcases (moved.on sweep.wf).mp on with ⟨-, before⟩ | ⟨-, rfl, is'⟩
    · obtain ⟨nonzero', least'⟩ := sweep.floors out other before
      by_cases same : j = i
      · subst same
        exact ⟨nonzero, by omega⟩
      · rw [setMinExptm_other _ same]
        exact ⟨nonzero', least'⟩
    · exact ⟨nonzero, time is' ▸ least⟩
  case passed =>
    intro b y e' on notTodo
    rw [moved.now]
    rcases (moved.on sweep.wf).mp on with ⟨other, before⟩ | ⟨-, same, -⟩
    · exact sweep.passed before (by simp [other, notTodo])
    · exact absurd same.symm moves
  case origin =>
    intro j b y e' out other on
    rw [moved.now]
    rcases (moved.on sweep.wf).mp on with ⟨-, before⟩ | ⟨-, rfl, is'⟩
    · exact sweep.origin out other before
    · exact .inr (time is' ▸ far out)

/-- A removed timer is freed. -/
theorem Sweep.free (sweep : Sweep idx start (a :: todo) m s) (dead : t.function = none)
    (freed : Freed s s' a t) : Sweep idx start todo m s' := by
  have gone : ∀ {j b y e'}, On s j b y e' → b ≠ a := by
    rintro j b y e' on rfl
    exact nomatch (pending_of_dead freed.was dead).symm.trans on.2
  have shifted : Shifted idx a s s' := .inr (.inr ⟨t, dead, freed⟩)
  have back : ∀ {j b y e'}, On s' j b y e' → On s j b y e' := fun on =>
    ((freed.on sweep.wf).mp on).2
  constructor
  case wf => exact freed.wf sweep.wf
  case same => exact sweep.same.trans shifted.same
  case nodup => exact (List.nodup_cons.mp sweep.nodup).2
  case coming =>
    intro b member
    rw [freed.level, sweep.wf.levels.mem_without]
    refine ⟨?_, sweep.coming (List.mem_cons_of_mem _ member)⟩
    rintro rfl
    exact (List.nodup_cons.mp sweep.nodup).1 member
  case first =>
    intro b y e' on
    have on' := sweep.first on
    exact (freed.on sweep.wf).mpr ⟨gone on', on'⟩
  case positive => exact fun out on => sweep.positive out (back on)
  case floors =>
    intro j b y e' out other on
    rw [freed.minExptm]
    exact sweep.floors out other (back on)
  case passed =>
    intro b y e' on notTodo
    rw [freed.now]
    exact sweep.passed (back on) (by simp [gone (back on), notTodo])
  case origin =>
    intro j b y e' out other on
    rw [freed.now]
    exact sweep.origin out other (back on)

theorem Sweep.scanTimer (sweep : Sweep idx start (a :: todo) m s) (later : idx ≠ 0) :
    Sweep idx start todo (scanTimer idx (m, s) a).1 (Timers.scanTimer idx (m, s) a).2 := by
  have here : a ∈ s.level idx := sweep.coming List.mem_cons_self
  obtain ⟨t, was⟩ := Option.isSome_iff_exists.mp (sweep.wf.levels.inUse here)
  simp only [Timers.scanTimer, was]
  split
  case isFalse dead => exact sweep.free (by simpa using dead) (doRemoveTimer_freed was)
  case isTrue live =>
    split
    case isTrue moves =>
      have inside := sweep.wf.levels.inside here
      have within := Nat.lt_of_le_of_lt (findMinIdx_le (t.expire - s.now) idx) inside
      exact sweep.move later (moved_of_enter was live within) moves findMinIdx_far
    case isFalse stays =>
      have remains : findMinIdx (t.expire - s.now) idx ≠ 0 := by
        rw [not_not.mp stays]
        exact later
      have far : 4 < t.expire - s.now := findMinIdx_far remains
      have stay := sweep.stay later (pending_of_live was live) far
      split
      case isTrue less => rwa [if_pos less] at stay
      case isFalse more => rwa [if_neg more] at stay

/-- What the second loop of a scan makes of the later levels; `levels` have had their turn. -/
structure Swept (levels : List Nat) (s s' : Timers H F) : Prop where
  wf : WF s'
  same : Same s s'
  floors : Floors s'
  first : ∀ {b x e}, On s 0 b x e → On s' 0 b x e
  clear : ∀ i ∈ levels, i ≠ 0 → Clear s' i

omit [DecidableEq H] in
theorem Swept.refl (wf : WF s) (floors : Floors s) : Swept [] s s where
  wf := wf
  same := ⟨rfl, rfl, rfl, rfl⟩
  floors := floors
  first := id
  clear := nofun

/-- By induction over the timers of the level. -/
theorem scanTimerList_sweep (later : idx ≠ 0) (wf : WF s) (floors : Floors s) :
    Sweep idx s [] ((s.level idx).foldl (scanTimer idx) (0, s)).1
      ((s.level idx).foldl (scanTimer idx) (0, s)).2 := by
  have fold : ∀ (todo : List Addr) (m : Int) (s' : Timers H F), Sweep idx s todo m s' →
      Sweep idx s [] (todo.foldl (scanTimer idx) (m, s')).1
        (todo.foldl (scanTimer idx) (m, s')).2 := by
    intro todo
    induction todo with
    | nil => exact fun _ _ sweep => sweep
    | cons a todo ih => exact fun m s' sweep => ih _ _ (sweep.scanTimer later)
  apply fold
  constructor
  case wf => exact wf
  case same => exact ⟨rfl, rfl, rfl, rfl⟩
  case nodup => exact wf.levels.nodup idx
  case coming => exact id
  case first => exact id
  case positive => exact fun out on => (floors out on).1
  case floors => exact fun out _ on => (floors out on).2
  case passed => exact fun on notTodo => absurd on.1 notTodo
  case origin => exact fun _ _ on => .inl on

/-- One level more is swept. -/
theorem Swept.level {levels : List Nat} (swept : Swept levels start s) (later : idx ≠ 0) :
    Swept (idx :: levels) start (s.scanLevel idx) := by
  unfold scanLevel
  split
  case isFalse skipped =>
    refine { swept with clear := ?_ }
    intro i member out b x e on
    rcases List.mem_cons.mp member with rfl | member
    · obtain ⟨-, -, least⟩ := swept.floors later on
      omega
    · exact swept.clear i member out on
  case isTrue =>
    have sweep := scanTimerList_sweep later swept.wf swept.floors
    unfold scanTimerList
    generalize (s.level idx).foldl (scanTimer idx) (0, s) = found at sweep
    obtain ⟨m, s'⟩ := found
    dsimp only at sweep ⊢
    constructor
    case wf => exact { sweep.wf with }
    case same => exact swept.same.trans { sweep.same with }
    case floors =>
      intro i b x e out on
      refine ⟨sweep.positive out on, ?_⟩
      dsimp only
      by_cases same : i = idx
      · subst same
        rw [Function.update_self]
        exact (sweep.passed on List.not_mem_nil).2
      · rw [Function.update_of_ne same]
        exact sweep.floors out same on
    case first => exact fun on => sweep.first (swept.first on)
    case clear =>
      intro i member out b x e on
      show s'.now + 2 ≤ e
      by_cases same : i = idx
      · subst same
        have far := (sweep.passed on List.not_mem_nil).1
        omega
      · have member := (List.mem_cons.mp member).resolve_left same
        rcases sweep.origin out same on with before | far
        · have cleared := swept.clear i member out before
          have now := sweep.same.now
          omega
        · omega

/-- After the second loop nothing on a later level is due within two seconds. -/
theorem scanLevels_swept (wf : WF s) (floors : Floors s) : Swept [4, 3, 2, 1] s s.scanLevels := by
  have one : Swept [1] s (s.scanLevel 1) := (Swept.refl wf floors).level (by decide)
  have two : Swept [2, 1] s ((s.scanLevel 1).scanLevel 2) := one.level (by decide)
  have three : Swept [3, 2, 1] s (((s.scanLevel 1).scanLevel 2).scanLevel 3) :=
    two.level (by decide)
  exact three.level (by decide)

omit [DecidableEq H] in
/-- Behind the sweep the upper levels hold nothing that is near. -/
theorem Swept.later (swept : Swept [4, 3, 2, 1] s s') (out : i ≠ 0) (on : On s' i b x e) :
    s'.now + 2 ≤ e := by
  have inside : i < 5 := swept.wf.levels.inside on.1
  have member : i ∈ [4, 3, 2, 1] := by
    simp only [List.mem_cons, List.not_mem_nil, or_false]
    omega
  exact swept.clear i member out on

end Taomee.Timer.Timers
