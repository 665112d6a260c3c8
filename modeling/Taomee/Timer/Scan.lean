import Mathlib.Data.List.Perm.Subperm
import Mathlib.Data.Prod.Lex
import Taomee.Timer.Walk

/-!
# gamesvr timers: the scan of the first level

A scan whose callbacks leave the saved timer in its place ends once they stop arming timers that
are due. Until then every due timer it comes to is called once.
-/

namespace Taomee.Timer.Timers

open EditedList Runs

variable {H F : Type*} {s : Timers H F} {a b : Addr} {x : Nat} {e : Int} {start : List Act}
  {w w' : Walk H F} {quiet : Prop}

theorem firings_eq_zero {trace : List Act} (never : ∀ now ret, .fired x now ret ∉ trace) :
    firings x trace = 0 := by
  induction trace with
  | nil => rfl
  | cons act rest ih =>
    have earlier := ih fun now ret member => never now ret (List.mem_cons_of_mem _ member)
    cases act with
    | fired y now ret =>
      have differs : y ≠ x := by
        rintro rfl
        exact never now ret List.mem_cons_self
      rw [firings, if_neg differs, earlier]
    | _ => exact earlier

namespace Walk

/-! ## What is still to come -/

theorem Good.ahead_nodup (good : w.Good) : w.ahead.Nodup := by
  unfold ahead
  split
  · exact List.nodup_nil
  · exact (good.wf.levels.nodup 0).sublist (onward_sublist ..)

/-- The due timers that are still to come. -/
def dueAhead (w : Walk H F) : List Addr :=
  w.ahead.filter fun b => (w.s.pending b).any fun y => y.2 ≤ w.s.now

theorem mem_dueAhead : b ∈ w.dueAhead ↔ b ∈ w.ahead ∧ w.s.Due b := by
  simp only [dueAhead, List.mem_filter, Due]
  cases w.s.pending b with
  | none => simp
  | some y =>
    obtain ⟨x, e⟩ := y
    simp

/-- A turn brings no timer that is due, unless a callback arms one. -/
theorem Turn.dueAhead_subset (turn : Turn quiet a w w') (good : w.Good) (still : quiet) :
    w'.dueAhead ⊆ w.dueAhead.erase a := by
  intro b member
  obtain ⟨inside, x, e, is, due⟩ := mem_dueAhead.mp member
  rcases turn.origin is inside with ⟨-, later⟩ | ⟨other, was, before⟩
  · have after := later still
    rw [turn.now] at due
    omega
  · have nodup : w.dueAhead.Nodup := good.ahead_nodup.filter _
    rw [nodup.mem_erase_iff]
    exact ⟨other, mem_dueAhead.mpr ⟨before, x, e, was, turn.now ▸ due⟩⟩

/-- Callbacks that may still arm a due timer, then due timers, then timers. -/
def rank (settled : Nat) (w : Walk H F) : ℕ ×ₗ ℕ ×ₗ ℕ :=
  toLex (settled - w.calls, toLex (w.dueAhead.length, w.ahead.length))

/-! ## Once in a scan -/

/-- No arming is called twice in a scan, and what is still ahead has not been called. -/
structure Once (start : List Act) (w : Walk H F) : Prop where
  least : ∀ x, firings x start ≤ firings x w.s.trace
  most : ∀ x, firings x w.s.trace ≤ firings x start + 1
  ahead : ∀ {b x e}, b ∈ w.ahead → w.s.pending b = some (x, e) →
    firings x w.s.trace = firings x start

/-- A timer that was due is ahead, disarmed or called. -/
def Awaits (start : List Act) (b : Addr) (x : Nat) (w : Walk H F) : Prop :=
  (b ∈ w.ahead ∧ ∃ e, w.s.pending b = some (x, e) ∧ e ≤ w.s.now) ∨
    .disarmed x ∈ w.s.trace ∨ firings x w.s.trace = firings x start + 1

theorem Good.mem_ahead (good : w.Good) (cur : w.cur = .node a) : a ∈ w.ahead := by
  obtain ⟨later, from_⟩ := onward_of_mem (good.stands cur).1
  simp only [ahead, cur, from_]
  exact List.mem_cons_self

/-- A new arming has not been called. -/
theorem Good.unfired (good : w.Good) (new : w.s.armings ≤ x) : firings x w.s.trace = 0 := by
  refine firings_eq_zero fun now ret member => ?_
  have old := good.sound.numbered member rfl
  omega

variable [DecidableEq H] [DecidableEq F] {out : Nat → Outcome H F}

theorem Once.step (once : w.Once start) (good : w.Good) (cur : w.cur = .node a)
    (careful : w.Careful out) : (w.step out).Once start := by
  obtain ⟨-, turn, visit⟩ := good.turn cur careful
  rcases visit with ⟨-, -, silent, -⟩ | ⟨y, e, is, -, -, fired⟩
  · refine ⟨fun x => silent x ▸ once.least x, fun x => silent x ▸ once.most x, ?_⟩
    intro b x e inside pends
    rw [silent]
    rcases turn.origin pends inside with ⟨new, -⟩ | ⟨-, was, before⟩
    · have unfired := good.unfired new
      have least := once.least x
      omega
    · exact once.ahead before was
  · have called : firings y w.s.trace = firings y start := once.ahead (good.mem_ahead cur) is
    refine ⟨fun x => ?_, fun x => ?_, ?_⟩
    · have least := once.least x
      rw [fired]
      omega
    · have most := once.most x
      rw [fired]
      split
      case isTrue same =>
        subst same
        omega
      case isFalse => omega
    · intro b x e' inside pends
      rcases turn.origin pends inside with ⟨new, -⟩ | ⟨other, was, before⟩
      · have unfired := good.unfired new
        have least := once.least x
        have old := good.sound.numbered (good.sound.armed is) rfl
        rw [fired, if_neg (by omega)]
        omega
      · have differs : y ≠ x := by
          rintro rfl
          exact other (good.sound.distinct was is)
        rw [fired, if_neg differs, once.ahead before was]
        exact Nat.zero_add _

/-- What has been called in a scan stays called once. -/
theorem Once.called_step (once : w.Once start) (good : w.Good) (cur : w.cur = .node a)
    (careful : w.Careful out) (called : firings x w.s.trace = firings x start + 1) :
    firings x (w.step out).s.trace = firings x start + 1 := by
  have once' := once.step good cur careful
  obtain ⟨-, -, visit⟩ := good.turn cur careful
  refine Nat.le_antisymm (once'.most x) ?_
  rw [← called]
  rcases visit with ⟨-, -, silent, -⟩ | ⟨y, e, -, -, -, fired⟩
  · exact (silent x).ge
  · rw [fired]
    exact Nat.le_add_left ..

theorem Awaits.step (awaits : w.Awaits start b x) (once : w.Once start) (good : w.Good)
    (cur : w.cur = .node a) (careful : w.Careful out) : (w.step out).Awaits start b x := by
  obtain ⟨-, turn, visit⟩ := good.turn cur careful
  rcases awaits with ⟨inside, e, is, due⟩ | disarmed | called
  · by_cases same : b = a
    · subst same
      rcases visit with ⟨early, -⟩ | ⟨y, e', is', -, -, fired⟩
      · exact absurd ⟨x, e, is, due⟩ early
      · have equal := is.symm.trans is'
        cases equal
        right; right
        rw [fired, if_pos rfl, once.ahead inside is]
        exact Nat.add_comm ..
    · rcases turn.stays same is inside with disarmed | ⟨is, inside⟩
      · exact .inr (.inl disarmed)
      · exact .inl ⟨inside, e, is, turn.now ▸ due⟩
  · exact .inr (.inl (turn.grows.subset disarmed))
  · exact .inr (.inr (once.called_step good cur careful called))

/-! ## The loop -/

theorem step_head {i : Nat} (cur : w.cur = .head i) : w.step out = w := by
  simp only [step, cur]

theorem Good.rank_step {settled : Nat} (good : w.Good) (cur : w.cur = .node a)
    (careful : w.Careful out) (settles : ∀ k, settled ≤ k → Later w.s.now (out k).calls) :
    rank settled (w.step out) < rank settled w := by
  obtain ⟨good', turn, visit⟩ := good.turn cur careful
  have nodup : (w.step out).dueAhead.Nodup := good'.ahead_nodup.filter _
  simp only [rank, Prod.Lex.toLex_lt_toLex]
  rcases visit with ⟨early, calls, -, tail⟩ | ⟨x, e, is, due, calls, -⟩
  · have fewer : (w.step out).dueAhead.length ≤ w.dueAhead.length := by
      have within := turn.dueAhead_subset good fun due => absurd due early
      have short := (List.subperm_of_subset nodup within).length_le
      exact short.trans List.erase_sublist.length_le
    have shorter : (w.step out).ahead.length < w.ahead.length := by
      have some_ := List.length_pos_of_mem (good.mem_ahead cur)
      rw [tail, List.length_tail]
      omega
    omega
  · by_cases more : w.calls < settled
    · omega
    · have member : a ∈ w.dueAhead := mem_dueAhead.mpr ⟨good.mem_ahead cur, x, e, is, due⟩
      have within := turn.dueAhead_subset good fun _ => settles _ (by omega)
      have short := (List.subperm_of_subset nodup within).length_le
      have some_ := List.length_pos_of_mem member
      rw [List.length_erase_of_mem member] at short
      omega

/-- A careful scan whose callbacks come to arm only later timers ends. -/
theorem Good.ends {settled : Nat} (good : w.Good) (careful : ∀ n, Careful out ((step out)^[n] w))
    (settles : ∀ k, settled ≤ k → Later w.s.now (out k).calls) :
    ∃ turns, ((step out)^[turns] w).cur = .head 0 := by
  refine exists_iterate (rank settled)
    (fun w => w.Good ∧ (∀ n, Careful out ((step out)^[n] w)) ∧
      ∀ k, settled ≤ k → Later w.s.now (out k).calls)
    (fun w => w.cur = .head 0) ?_ ⟨good, careful, settles⟩
  rintro w ⟨good, careful, settles⟩ going
  rcases good.place with head | ⟨a, -, cur, -⟩
  · exact absurd head going
  · obtain ⟨good', turn, -⟩ := good.turn cur (careful 0)
    refine ⟨⟨good', fun n => careful (n + 1), ?_⟩, good.rank_step cur (careful 0) settles⟩
    rwa [turn.now]

end Walk

end Taomee.Timer.Timers
