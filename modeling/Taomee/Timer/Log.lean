import Taomee.Timer.Lists

/-!
# gamesvr timers: the log

What a log of armings and calls must look like, and the armings that are pending, by the address
of their timers. Levels and lists play no part here.
-/

namespace Taomee.Timer

/-- The arming that an entry of the log is about. -/
def Act.about : Act → Option Nat
  | .armed arming _ => some arming
  | .disarmed arming => some arming
  | .fired arming _ _ => some arming
  | .freed arming => some arming
  | .scanned _ => none

/-- How often the callback of an arming was called. -/
def firings (arming : Nat) : List Act → Nat
  | [] => 0
  | .fired x _ _ :: rest => (if x = arming then 1 else 0) + firings arming rest
  | .armed .. :: rest | .disarmed _ :: rest | .freed _ :: rest | .scanned _ :: rest =>
    firings arming rest

/-- Whether an entry may follow a log. -/
def Act.Follows (rest : List Act) : Act → Prop
  | .fired arming now _ =>
    (∃ e, .armed arming e ∈ rest) ∧ (∀ e, .armed arming e ∈ rest → e ≤ now) ∧
      .disarmed arming ∉ rest ∧ .freed arming ∉ rest ∧ ∀ t, .fired arming t 0 ∉ rest
  | .disarmed arming => .disarmed arming ∉ rest ∧ .freed arming ∉ rest
  | _ => True

/-- What fires was armed for then, was neither removed nor armed anew nor freed, and has not
returned 0 before. What was removed is not armed anew. -/
def Proper : List Act → Prop
  | [] => True
  | act :: rest => act.Follows rest ∧ Proper rest

/-- A log and the armings that are pending. While a callback that will return 0 makes calls, its
timer at `calling` may still be there. -/
structure Logged (pending : Addr → Option (Nat × Int)) (armings : Nat) (trace : List Act)
    (calling : Option Addr) : Prop where
  proper : Proper trace
  numbered : ∀ {act x}, act ∈ trace → act.about = some x → x < armings
  unique : ∀ {x e e'}, .armed x e ∈ trace → .armed x e' ∈ trace → e = e'
  armed : ∀ {a x e}, pending a = some (x, e) → .armed x e ∈ trace
  kept : ∀ {a x e}, pending a = some (x, e) → .disarmed x ∉ trace ∧ .freed x ∉ trace
  silent : ∀ {a x e now}, pending a = some (x, e) → .fired x now 0 ∈ trace → calling = some a
  distinct : ∀ {a b x e e'}, pending a = some (x, e) → pending b = some (x, e') → a = b

section
variable {pending : Addr → Option (Nat × Int)} {armings x : Nat} {trace : List Act}
  {calling : Option Addr} {a b : Addr} {e : Int}

/-- The empty trace logs nothing. -/
theorem logged_nil : Logged (fun _ => none) 0 [] none where
  proper := trivial
  numbered := nofun
  unique := nofun
  armed := nofun
  kept := nofun
  silent := nofun
  distinct := nofun

/-- What is pending elsewhere after an update was pending before. -/
theorem pending_update {value : Option (Nat × Int)} {y : Nat × Int}
    (now : Function.update pending a value b = some y) :
    b = a ∧ value = some y ∨ b ≠ a ∧ pending b = some y := by
  by_cases same : b = a
  · subst same
    rw [Function.update_self] at now
    exact .inl ⟨rfl, now⟩
  · rw [Function.update_of_ne same] at now
    exact .inr ⟨same, now⟩

/-- A new arming has the next number. -/
theorem Logged.arm (logged : Logged pending armings trace calling) (free : pending a = none)
    (e : Int) :
    Logged (Function.update pending a (some (armings, e))) (armings + 1)
      (.armed armings e :: trace) calling := by
  have new : ∀ {act}, act.about = some armings → act ∉ trace :=
    fun about member => Nat.lt_irrefl _ (logged.numbered member about)
  have old : ∀ {b x e'}, pending b = some (x, e') → x ≠ armings := by
    rintro b x e' earlier rfl
    exact new rfl (logged.armed earlier)
  constructor
  case proper => exact ⟨trivial, logged.proper⟩
  case numbered =>
    intro act x member about
    rcases List.mem_cons.mp member with rfl | member
    · obtain rfl : armings = x := Option.some.inj about
      exact Nat.lt_succ_self _
    · exact Nat.lt_succ_of_lt (logged.numbered member about)
  case unique =>
    intro x e₁ e₂ first second
    rcases List.mem_cons.mp first with same | first
    · cases same
      rcases List.mem_cons.mp second with same | second
      · exact (Act.armed.inj same).2.symm
      · exact absurd second (new rfl)
    · rcases List.mem_cons.mp second with same | second
      · cases same
        exact absurd first (new rfl)
      · exact logged.unique first second
  case armed =>
    intro b x e' now
    rcases pending_update now with ⟨-, same⟩ | ⟨-, earlier⟩
    · cases same
      exact List.mem_cons_self
    · exact List.mem_cons_of_mem _ (logged.armed earlier)
  case kept =>
    intro b x e' now
    simp only [List.mem_cons, reduceCtorEq, false_or]
    rcases pending_update now with ⟨-, same⟩ | ⟨-, earlier⟩
    · cases same
      exact ⟨new rfl, new rfl⟩
    · exact logged.kept earlier
  case silent =>
    intro b x e' time now fired
    simp only [List.mem_cons, reduceCtorEq, false_or] at fired
    rcases pending_update now with ⟨-, same⟩ | ⟨-, earlier⟩
    · cases same
      exact absurd fired (new rfl)
    · exact logged.silent earlier fired
  case distinct =>
    intro b c x e₁ e₂ here there
    rcases pending_update here with ⟨rfl, same⟩ | ⟨-, before⟩
    · cases same
      rcases pending_update there with ⟨rfl, -⟩ | ⟨-, before⟩
      · rfl
      · exact absurd rfl (old before)
    · rcases pending_update there with ⟨rfl, same⟩ | ⟨-, before'⟩
      · cases same
        exact absurd rfl (old before)
      · exact logged.distinct before before'

/-- An arming that was pending ends, with an entry about it that says so. -/
theorem Logged.finish (logged : Logged pending armings trace calling)
    (was : pending a = some (x, e)) {act : Act} (ends : act = .disarmed x ∨ act = .freed x) :
    Logged (Function.update pending a none) armings (act :: trace) calling := by
  have earlier : ∀ {b y}, Function.update pending a none b = some y →
      b ≠ a ∧ pending b = some y := by
    intro b y now
    rcases pending_update now with ⟨-, none_⟩ | earlier
    · exact nomatch none_
    · exact earlier
  constructor
  case proper =>
    refine ⟨?_, logged.proper⟩
    rcases ends with rfl | rfl
    · exact logged.kept was
    · trivial
  case numbered =>
    intro act' y member about
    rcases List.mem_cons.mp member with rfl | member
    · have same : y = x := by rcases ends with rfl | rfl <;> exact (Option.some.inj about).symm
      rw [same]
      exact logged.numbered (logged.armed was) rfl
    · exact logged.numbered member about
  case unique =>
    intro y e₁ e₂ first second
    have older : ∀ {e}, .armed y e ∈ act :: trace → .armed y e ∈ trace := by
      intro e member
      rcases List.mem_cons.mp member with same | member
      · rcases ends with rfl | rfl <;> exact nomatch same
      · exact member
    exact logged.unique (older first) (older second)
  case armed =>
    intro b y e' now
    exact List.mem_cons_of_mem _ (logged.armed (earlier now).2)
  case kept =>
    intro b y e' now
    obtain ⟨other, before⟩ := earlier now
    have differs : x ≠ y := by
      rintro rfl
      exact other (logged.distinct before was)
    simp only [List.mem_cons, not_or]
    obtain ⟨notDisarmed, notFreed⟩ := logged.kept before
    rcases ends with rfl | rfl
    · exact ⟨⟨by simpa using differs.symm, notDisarmed⟩, nofun, notFreed⟩
    · exact ⟨⟨nofun, notDisarmed⟩, by simpa using differs.symm, notFreed⟩
  case silent =>
    intro b y e' time now fired
    rcases List.mem_cons.mp fired with same | fired
    · rcases ends with rfl | rfl <;> exact nomatch same
    · exact logged.silent (earlier now).2 fired
  case distinct =>
    intro b c y e₁ e₂ here there
    exact logged.distinct (earlier here).2 (earlier there).2

/-- Once its timer has gone, a callback is no longer running. -/
theorem Logged.returned (logged : Logged pending armings trace calling)
    (running : calling = none ∨ calling = some a) (gone : pending a = none) :
    Logged pending armings trace none := by
  refine { logged with silent := ?_ }
  intro b x e now is fired
  have same := logged.silent is fired
  rcases running with rfl | rfl
  · exact same
  · obtain rfl : a = b := Option.some.inj same
    exact nomatch gone.symm.trans is

/-- A callback is called. -/
theorem Logged.fire (logged : Logged pending armings trace none) (was : pending a = some (x, e))
    {now : Int} (due : e ≤ now) (ret : Int) :
    Logged pending armings (.fired x now ret :: trace) (if ret = 0 then some a else none) := by
  constructor
  case proper =>
    refine ⟨⟨⟨e, logged.armed was⟩, ?_, (logged.kept was).1, (logged.kept was).2, ?_⟩,
      logged.proper⟩
    · intro e' other
      rwa [logged.unique other (logged.armed was)]
    · intro t fired
      exact nomatch logged.silent was fired
  case numbered =>
    intro act y member about
    rcases List.mem_cons.mp member with rfl | member
    · obtain rfl : x = y := Option.some.inj about
      exact logged.numbered (logged.armed was) rfl
    · exact logged.numbered member about
  case unique =>
    intro y e₁ e₂ first second
    simp only [List.mem_cons, reduceCtorEq, false_or] at first second
    exact logged.unique first second
  case armed =>
    intro b y e' is
    exact List.mem_cons_of_mem _ (logged.armed is)
  case kept =>
    intro b y e' is
    simp only [List.mem_cons, reduceCtorEq, false_or]
    exact logged.kept is
  case silent =>
    intro b y e' t is fired
    rcases List.mem_cons.mp fired with same | fired
    · cases same
      rw [if_pos rfl, logged.distinct is was]
    · exact nomatch logged.silent is fired
  case distinct => exact logged.distinct

theorem Logged.scan (logged : Logged pending armings trace calling) (now : Int) :
    Logged pending armings (.scanned now :: trace) calling := by
  constructor
  case proper => exact ⟨trivial, logged.proper⟩
  case numbered =>
    intro act y member about
    rcases List.mem_cons.mp member with rfl | member
    · exact nomatch about
    · exact logged.numbered member about
  case distinct => exact logged.distinct
  all_goals simp only [List.mem_cons, reduceCtorEq, false_or]
  case unique => exact logged.unique
  case armed => exact logged.armed
  case kept => exact logged.kept
  case silent => exact logged.silent

end

/-! ## The pending armings of the timers -/

namespace Timers

variable {H F : Type*} {s s' : Timers H F} {a b : Addr} {t : TimerStruct H F}

/-- The arming and the time of a timer that is not removed. -/
def pending (s : Timers H F) (a : Addr) : Option (Nat × Int) :=
  (s.table a).bind fun t => if t.function.isSome then some (t.arming, t.expire) else none

theorem pending_of_live (was : s.table a = some t) (live : t.function.isSome) :
    s.pending a = some (t.arming, t.expire) := by
  simp [pending, was, live]

theorem pending_of_dead (was : s.table a = some t) (dead : t.function = none) :
    s.pending a = none := by
  simp [pending, was, dead]

theorem pending_of_unused (unused : s.table a = none) : s.pending a = none := by
  simp [pending, unused]

theorem pending_some {x : Nat} {e : Int} (is : s.pending a = some (x, e)) :
    ∃ t, s.table a = some t ∧ t.function.isSome ∧ t.arming = x ∧ t.expire = e := by
  cases was : s.table a with
  | none => exact nomatch (pending_of_unused was).symm.trans is
  | some t =>
    cases function : t.function with
    | none => exact nomatch (pending_of_dead was function).symm.trans is
    | some func =>
      have live : t.function.isSome := by rw [function]; rfl
      have same := (pending_of_live was live).symm.trans is
      cases same
      exact ⟨t, rfl, live, rfl, rfl⟩

/-- An update of the table updates what is pending. -/
theorem pending_congr {entry : Option (TimerStruct H F)} {value : Option (Nat × Int)}
    (table : s'.table = Function.update s.table a entry)
    (is : (entry.bind fun t => if t.function.isSome then some (t.arming, t.expire) else none) =
      value) : s'.pending = Function.update s.pending a value := by
  ext1 b
  by_cases same : b = a
  · subst same
    rw [Function.update_self, ← is, pending, table, Function.update_self]
  · rw [Function.update_of_ne same, pending, table, Function.update_of_ne same, pending]

/-- A move changes no time. -/
theorem Moved.pending {i : Nat} (moved : Moved s s' a t i) : s'.pending = s.pending := by
  ext1 b
  rw [Timers.pending, moved.table, Timers.pending]

/-- The log is about the timers. -/
abbrev Sound (s : Timers H F) (calling : Option Addr) : Prop :=
  Logged s.pending s.armings s.trace calling

variable {calling : Option Addr}

variable [DecidableEq H]

/-- The timer waits for its new time. -/
theorem Armed.pending {i : Nat} (armed : Armed s s' a t i) :
    s'.pending = Function.update s.pending a (some (s.armings, t.expire)) :=
  pending_congr armed.table (by simp [armed.live, armed.arming])

/-- The timer waits no more. -/
theorem Removed.pending {l : H} (removed : Removed s s' a t l) :
    s'.pending = Function.update s.pending a none :=
  pending_congr removed.table (by simp)

/-- The timer waits no more. -/
theorem Freed.pending (freed : Freed s s' a t) : s'.pending = Function.update s.pending a none :=
  pending_congr freed.table (by simp)

/-- Arming is logged. -/
theorem Armed.sound {i : Nat} (armed : Armed s s' a t i) (sound : Sound s calling) :
    Sound s' calling := by
  unfold Sound
  rw [armed.pending, armed.armings]
  rcases armed.origin with ⟨l, fresh, -, -, trace⟩ | ⟨old, was, live, -, -, trace⟩
  · rw [trace]
    exact sound.arm (pending_of_unused fresh) t.expire
  · rw [trace]
    have ended := sound.finish (pending_of_live was live) (.inl rfl)
    have again := ended.arm (Function.update_self ..) t.expire
    rwa [Function.update_idem] at again

/-- Removing is logged. -/
theorem Removed.sound {l : H} (removed : Removed s s' a t l) (sound : Sound s calling) :
    Sound s' calling := by
  unfold Sound
  rw [removed.pending, removed.armings, removed.trace]
  exact sound.finish (pending_of_live removed.was removed.live) (.inl rfl)

/-- Freeing is logged. -/
theorem Freed.sound (freed : Freed s s' a t) (sound : Sound s calling)
    (running : calling = none ∨ calling = some a) : Sound s' none := by
  unfold Sound
  rw [freed.pending, freed.armings, freed.trace]
  split
  case isTrue live =>
    have ended := sound.finish (pending_of_live freed.was live) (.inr rfl)
    exact ended.returned running (Function.update_self ..)
  case isFalse dead =>
    have gone : s.pending a = none := pending_of_dead freed.was (by simpa using dead)
    rw [Function.update_eq_self_iff.mpr gone.symm]
    exact sound.returned running gone

/-- Every call is logged. -/
theorem call_sound [DecidableEq F] (wf : WF s) (sound : Sound s calling) {call : Call H F}
    (fresh : Fresh s call) : Sound (s.call call) calling := by
  rcases call_did wf fresh with same | ⟨a, t, i, armed, -⟩ | ⟨a, t, l, removed⟩
  · rwa [same]
  · exact armed.sound sound
  · exact removed.sound sound

end Timers

end Taomee.Timer
