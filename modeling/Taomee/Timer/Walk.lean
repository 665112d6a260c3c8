import Taomee.Library.EditedList
import Taomee.Library.Runs
import Taomee.Timer.Log

/-!
# gamesvr timers: a turn of the scan

What callbacks may do to the rest of the first level while the scan has its next timer saved, and
what one turn of the scan does.
-/

namespace Taomee.Timer.Timers

open EditedList Runs

variable {H F : Type*} {s s' s'' : Timers H F} {a b p : Addr} {t : TimerStruct H F} {quiet : Prop}
  {nxt : Cursor} {calling : Option Addr} {w : Walk H F}

/-- Edits between two visits: nothing is called. -/
structure Edit (s s' : Timers H F) : Prop where
  now : s'.now = s.now
  armings : s.armings ≤ s'.armings
  grows : s.trace <:+ s'.trace
  silent : ∀ x, firings x s'.trace = firings x s.trace

theorem Edit.refl (s : Timers H F) : Edit s s where
  now := rfl
  armings := Nat.le_refl _
  grows := List.suffix_refl _
  silent := fun _ => rfl

theorem Edit.trans (first : Edit s s') (second : Edit s' s'') : Edit s s'' where
  now := second.now.trans first.now
  armings := first.armings.trans second.armings
  grows := first.grows.trans second.grows
  silent := fun x => (second.silent x).trans (first.silent x)

/-- Edits that leave the saved timer `p` in its place while the timer `a` is visited. What is
pending further on stays there or is disarmed; what comes to be there is new, and in quiet edits
later than now. -/
structure Keeps (quiet : Prop) (a p : Addr) (s s' : Timers H F) : Prop extends Edit s s' where
  here : p ∈ s'.level 0
  stays : ∀ {b x e}, b ≠ a → s.pending b = some (x, e) → b ∈ onward (s.level 0) p →
    .disarmed x ∈ s'.trace ∨ s'.pending b = some (x, e) ∧ b ∈ onward (s'.level 0) p
  origin : ∀ {b x e}, s'.pending b = some (x, e) →
    (s.armings ≤ x ∧ (quiet → s.now < e)) ∨
      s.pending b = some (x, e) ∧ (b ∈ onward (s'.level 0) p → b ∈ onward (s.level 0) p)

theorem Keeps.refl (here : p ∈ s.level 0) : Keeps quiet a p s s where
  toEdit := .refl s
  here := here
  stays := fun _ is inside => .inr ⟨is, inside⟩
  origin := fun is => .inr ⟨is, id⟩

theorem Keeps.trans (first : Keeps quiet a p s s') (second : Keeps quiet a p s' s'') :
    Keeps quiet a p s s'' where
  toEdit := first.toEdit.trans second.toEdit
  here := second.here
  stays := by
    intro b x e other is inside
    rcases first.stays other is inside with disarmed | ⟨is, inside⟩
    · exact .inl (second.grows.subset disarmed)
    · exact second.stays other is inside
  origin := by
    intro b x e is
    rcases second.origin is with ⟨new, later⟩ | ⟨is, inside⟩
    · exact .inl ⟨first.armings.trans new, fun still => first.now ▸ later still⟩
    · rcases first.origin is with new | ⟨is, inside'⟩
      · exact .inl new
      · exact .inr ⟨is, fun member => inside' (inside member)⟩

/-- The trace is beside the lists. -/
theorem wf_log (wf : WF s) (act : Act) : WF (s.log act) := { wf with }

/-- What a visit leaves, with its call in the log already. -/
structure Visit (quiet : Prop) (a : Addr) (nxt : Cursor) (s s' : Timers H F) : Prop where
  wf : WF s'
  sound : Sound s' none
  edit : Edit s s'
  keeps : ∀ {p}, nxt = .node p → a ≠ p → p ∈ s.level 0 → Keeps quiet a p s s'

/-- A visit may do nothing. -/
theorem Visit.refl (wf : WF s) (sound : Sound s none) : Visit quiet a nxt s s where
  wf := wf
  sound := sound
  edit := .refl s
  keeps := fun _ _ here => .refl here

/-- The next pointer of a timer on the first level. -/
theorem next_cases (wf : WF s) (here : a ∈ s.level 0) :
    onward (s.level 0) a = [a] ∧ s.next (.node a) = .head 0 ∨
    ∃ p later, onward (s.level 0) a = a :: p :: later ∧ s.next (.node a) = .node p ∧ a ≠ p ∧
      p ∈ s.level 0 ∧ onward (s.level 0) p = p :: later := by
  have first : (List.range timerVecSize).find? (fun i => a ∈ s.level i) = some 0 :=
    List.find?_cons_of_pos (by simpa using here)
  obtain ⟨later, from_⟩ := onward_of_mem here
  have next : s.next (.node a) = ((later.head?.map Cursor.node).getD (.head 0)) := by
    simp only [Timers.next, first]
    rw [show (s.level 0).dropWhile (· ≠ a) = a :: later from from_, List.tail_cons]
  cases later with
  | nil => exact .inl ⟨from_, next⟩
  | cons p later =>
    have nodup := (wf.levels.nodup 0).sublist (onward_sublist (s.level 0) a)
    rw [from_] at nodup
    have differs : a ≠ p := fun same => (List.nodup_cons.mp nodup).1 (by simp [same])
    have member : p ∈ s.level 0 := (onward_sublist (s.level 0) a).subset (by simp [from_])
    exact .inr ⟨p, later, from_, next, differs, member, onward_next (wf.levels.nodup 0) from_⟩

/-! ## The place of the scan -/

/-- Whether the callback of a timer is to be called. -/
def Due (s : Timers H F) (a : Addr) : Prop := ∃ x e, s.pending a = some (x, e) ∧ e ≤ s.now

/-- What is still to come in the scan of the first level. -/
def Walk.ahead (w : Walk H F) : List Addr :=
  match w.cur with
  | .head _ => []
  | .node a => onward (w.s.level 0) a

/-- The scan stands at the head of the first level or at one of its timers. -/
structure Walk.Good (w : Walk H F) : Prop where
  wf : WF w.s
  sound : Sound w.s none
  place : w.cur = .head 0 ∨
    ∃ a, a ∈ w.s.level 0 ∧ w.cur = .node a ∧ w.nxt = w.s.next (.node a)

/-- The scan goes from the timer at `a` one turn on. -/
structure Walk.Turn (quiet : Prop) (a : Addr) (w w' : Walk H F) : Prop where
  now : w'.s.now = w.s.now
  armings : w.s.armings ≤ w'.s.armings
  grows : w.s.trace <:+ w'.s.trace
  stays : ∀ {b x e}, b ≠ a → w.s.pending b = some (x, e) → b ∈ w.ahead →
    .disarmed x ∈ w'.s.trace ∨ w'.s.pending b = some (x, e) ∧ b ∈ w'.ahead
  origin : ∀ {b x e}, w'.s.pending b = some (x, e) → b ∈ w'.ahead →
    (w.s.armings ≤ x ∧ (quiet → w.s.now < e)) ∨
      b ≠ a ∧ w.s.pending b = some (x, e) ∧ b ∈ w.ahead

/-- The walk stands at a timer of the first list. -/
theorem Walk.Good.stands (good : w.Good) (cur : w.cur = .node a) :
    a ∈ w.s.level 0 ∧ w.nxt = w.s.next (.node a) := by
  rcases good.place with head | ⟨b, here, there, next⟩
  · exact nomatch cur.symm.trans head
  · obtain rfl : a = b := Cursor.node.inj (cur.symm.trans there)
    exact ⟨here, next⟩

/-- The timer under the cursor is allocated. -/
theorem Walk.Good.used (good : w.Good) (cur : w.cur = .node a) : ∃ t, w.s.table a = some t :=
  Option.isSome_iff_exists.mp (good.wf.levels.inUse (good.stands cur).1)

/-- A turn leaves the scan in order when its visit leaves the next timer in its place. -/
theorem Walk.Good.pass (good : w.Good) (cur : w.cur = .node a) (visit : Visit quiet a w.nxt s s')
    (pending : s.pending = w.s.pending) (level : s.level = w.s.level) (now : s.now = w.s.now)
    (armings : s.armings = w.s.armings) (grows : w.s.trace <:+ s.trace) (n : Nat) :
    Walk.Good { s := s', cur := w.nxt, nxt := s'.next w.nxt, calls := n } ∧
      Walk.Turn quiet a w { s := s', cur := w.nxt, nxt := s'.next w.nxt, calls := n } := by
  obtain ⟨here, next⟩ := good.stands cur
  have ahead : w.ahead = onward (w.s.level 0) a := by simp only [Walk.ahead, cur]
  rcases next_cases good.wf here with ⟨last, head⟩ | ⟨p, later, from_, node, leaves, there, rest⟩
  · rw [last] at ahead
    rw [head] at next
    refine ⟨⟨visit.wf, visit.sound, .inl next⟩, ?_⟩
    have ended : ∀ nxt calls, (Walk.ahead { s := s', cur := w.nxt, nxt, calls }) = [] := by
      intro nxt calls
      simp only [Walk.ahead, next]
    constructor
    case now => exact visit.edit.now.trans now
    case armings => exact armings ▸ visit.edit.armings
    case grows => exact grows.trans visit.edit.grows
    case stays =>
      intro b x e other _ inside
      rw [ahead, List.mem_singleton] at inside
      exact absurd inside other
    case origin =>
      intro b x e _ inside
      rw [ended] at inside
      exact nomatch inside
  · rw [node] at next
    have keeps := visit.keeps next leaves (level ▸ there)
    refine ⟨⟨visit.wf, visit.sound, .inr ⟨p, keeps.here, next, ?_⟩⟩, ?_⟩
    · rw [next]
    have onwards : ∀ nxt calls, (Walk.ahead { s := s', cur := w.nxt, nxt, calls }) =
        onward (s'.level 0) p := by
      intro nxt calls
      simp only [Walk.ahead, next]
    rw [from_, ← rest] at ahead
    constructor
    case now => exact visit.edit.now.trans now
    case armings => exact armings ▸ visit.edit.armings
    case grows => exact grows.trans visit.edit.grows
    case stays =>
      intro b x e other is inside
      rw [ahead, List.mem_cons] at inside
      rw [onwards]
      refine keeps.stays other (pending ▸ is) ?_
      rw [level]
      exact inside.resolve_left other
    case origin =>
      intro b x e is inside
      rw [onwards] at inside
      rcases keeps.origin is with ⟨new, still⟩ | ⟨was, back⟩
      · exact .inl ⟨armings ▸ new, now ▸ still⟩
      · have inside' : b ∈ onward (w.s.level 0) p := level ▸ back inside
        have differs : b ≠ a := by
          rintro rfl
          have nodup := (good.wf.levels.nodup 0).sublist (onward_sublist (w.s.level 0) b)
          rw [from_, ← rest] at nodup
          exact (List.nodup_cons.mp nodup).1 inside'
        refine .inr ⟨differs, pending ▸ was, ?_⟩
        rw [ahead]
        exact List.mem_cons_of_mem _ inside'

/-! ## One edit -/

variable [DecidableEq H]

/-- Arming a timer is an edit. -/
theorem Armed.edit {i : Nat} (armed : Armed s s' a t i) : Edit s s' where
  now := armed.now
  armings := by
    rw [armed.armings]
    exact Nat.le_succ _
  grows := by
    rcases armed.origin with ⟨_, _, _, _, trace⟩ | ⟨_, _, _, _, _, trace⟩
    · exact trace ▸ List.suffix_cons ..
    · exact trace ▸ (List.suffix_cons ..).trans (List.suffix_cons ..)
  silent := by
    intro x
    rcases armed.origin with ⟨_, _, _, _, trace⟩ | ⟨_, _, _, _, _, trace⟩
    · rw [trace, firings]
    · rw [trace, firings, firings]

/-- Removing a timer is an edit. -/
theorem Removed.edit {l : H} (removed : Removed s s' a t l) : Edit s s' where
  now := removed.now
  armings := removed.armings.ge
  grows := removed.trace ▸ List.suffix_cons ..
  silent := by
    intro x
    rw [removed.trace, firings]

/-- Freeing a timer is an edit. -/
theorem Freed.edit (freed : Freed s s' a t) : Edit s s' where
  now := freed.now
  armings := freed.armings.ge
  grows := by
    rw [freed.trace]
    split
    · exact List.suffix_cons ..
    · exact List.suffix_refl _
  silent := by
    intro x
    rw [freed.trace]
    split
    · rw [firings]
    · rfl

/-- Another timer that is armed leaves the next one in its place. -/
theorem Armed.keeps {i : Nat} (wf : WF s) (here : p ∈ s.level 0) (armed : Armed s s' b t i)
    (leaves : b ≠ p) (later : quiet → s.now < t.expire) : Keeps quiet a p s s' where
  toEdit := armed.edit
  here := by
    rw [armed.level]
    exact wf.levels.mem_placed.mpr (.inl ⟨leaves.symm, here⟩)
  stays := by
    intro c x e _ is inside
    by_cases same : c = b
    · subst same
      rcases armed.origin with ⟨l, fresh, -⟩ | ⟨old, was, live, -, -, trace⟩
      · exact nomatch (pending_of_unused fresh).symm.trans is
      · have old_ := (pending_of_live was live).symm.trans is
        cases old_
        simp [trace]
    · right
      rw [armed.pending, Function.update_of_ne same]
      refine ⟨is, ?_⟩
      have kept : c ∈ onward ((s.level 0).erase b) p :=
        (mem_onward_erase (wf.levels.nodup 0) leaves).mpr ⟨same, inside⟩
      rw [armed.level, placed]
      split
      · have still : p ∈ (s.level 0).erase b :=
          (wf.levels.nodup 0).mem_erase_iff.mpr ⟨leaves.symm, here⟩
        rw [onward_append still]
        exact List.mem_append_left _ kept
      · exact kept
  origin := by
    intro c x e is
    rw [armed.pending] at is
    rcases pending_update is with ⟨-, same⟩ | ⟨other, is⟩
    · cases same
      exact .inl ⟨Nat.le_refl _, later⟩
    · refine .inr ⟨is, fun inside => ?_⟩
      have kept : c ∈ onward ((s.level 0).erase b) p := by
        rw [armed.level, placed] at inside
        split at inside
        · have still : p ∈ (s.level 0).erase b :=
            (wf.levels.nodup 0).mem_erase_iff.mpr ⟨leaves.symm, here⟩
          rw [onward_append still, List.mem_append, List.mem_singleton] at inside
          exact inside.resolve_right other
        · exact inside
      exact ((mem_onward_erase (wf.levels.nodup 0) leaves).mp kept).2

/-- Another timer that is removed leaves the next one in its place. -/
theorem Removed.keeps {l : H} (here : p ∈ s.level 0) (removed : Removed s s' b t l) :
    Keeps quiet a p s s' where
  toEdit := removed.edit
  here := removed.level ▸ here
  stays := by
    intro c x e _ is inside
    by_cases same : c = b
    · subst same
      have was := (pending_of_live removed.was removed.live).symm.trans is
      cases was
      simp [removed.trace]
    · right
      rw [removed.pending, Function.update_of_ne same, removed.level]
      exact ⟨is, inside⟩
  origin := by
    intro c x e is
    rw [removed.pending] at is
    rcases pending_update is with ⟨-, none_⟩ | ⟨-, is⟩
    · exact nomatch none_
    · exact .inr ⟨is, fun inside => removed.level ▸ inside⟩

/-- Another timer that is freed leaves the next one in its place. -/
theorem Freed.keeps (wf : WF s) (here : p ∈ s.level 0) (freed : Freed s s' a t)
    (leaves : a ≠ p) : Keeps quiet a p s s' where
  toEdit := freed.edit
  here := by
    rw [freed.level]
    exact wf.levels.mem_without.mpr ⟨leaves.symm, here⟩
  stays := by
    intro c x e other is inside
    right
    rw [freed.pending, Function.update_of_ne other, freed.level]
    exact ⟨is, (mem_onward_erase (wf.levels.nodup 0) leaves).mpr ⟨other, inside⟩⟩
  origin := by
    intro c x e is
    rw [freed.pending] at is
    rcases pending_update is with ⟨-, none_⟩ | ⟨-, is⟩
    · exact nomatch none_
    · refine .inr ⟨is, fun inside => ?_⟩
      rw [freed.level] at inside
      exact ((mem_onward_erase (wf.levels.nodup 0) leaves).mp inside).2

/-- A visit may free the timer it is at. -/
theorem Freed.visit (freed : Freed s s' a t) (wf : WF s) (sound : Sound s calling)
    (running : calling = none ∨ calling = some a) : Visit quiet a nxt s s' where
  wf := freed.wf wf
  sound := freed.sound sound running
  edit := freed.edit
  keeps := fun _ leaves here => freed.keeps wf here leaves

/-- A visit without a call goes on to the timer after the one visited. -/
theorem Walk.Good.ahead_tail (good : w.Good) (cur : w.cur = .node a)
    (edits : s' = w.s ∨ t.function = none ∧ Freed w.s s' a t) (n : Nat) :
    Walk.ahead { s := s', cur := w.nxt, nxt := s'.next w.nxt, calls := n } = w.ahead.tail := by
  obtain ⟨here, next⟩ := good.stands cur
  have ahead : w.ahead = onward (w.s.level 0) a := by simp only [Walk.ahead, cur]
  rcases next_cases good.wf here with ⟨last, head⟩ | ⟨p, later, from_, node, leaves, -, rest⟩
  · rw [ahead, last, List.tail_cons]
    simp only [Walk.ahead, next, head]
  · rw [ahead, from_, List.tail_cons, ← rest]
    simp only [Walk.ahead, next, node]
    rcases edits with rfl | ⟨-, freed⟩
    · rfl
    · have passed : a ∉ onward (w.s.level 0) p := by
        have nodup := (good.wf.levels.nodup 0).sublist (onward_sublist (w.s.level 0) a)
        rw [from_, ← rest] at nodup
        exact (List.nodup_cons.mp nodup).1
      rw [freed.level, without, onward_erase (good.wf.levels.nodup 0) leaves,
        List.erase_of_not_mem passed]

/-! ## The calls of a callback -/

variable [DecidableEq F] {call : Call H F} {calls : List (Call H F)} {out : Nat → Outcome H F}
  {n : Nat}

/-- A call takes unused memory, and gives the saved timer no other time. -/
def Leaves (nxt : Cursor) (s : Timers H F) (call : Call H F) : Prop :=
  Fresh s call ∧ ∀ a, s.rearms call = some a → nxt ≠ .node a

/-- What is armed is later than now. -/
def Later (now : Int) (calls : List (Call H F)) : Prop :=
  ∀ call ∈ calls, ∀ e, call.expire = some e → now < e

/-- Every call is an edit. -/
theorem call_edit (wf : WF s) (fresh : Fresh s call) : Edit s (s.call call) := by
  rcases call_did wf fresh with same | ⟨a, t, i, armed, -⟩ | ⟨a, t, l, removed⟩
  · rw [same]
    exact .refl s
  · exact armed.edit
  · exact removed.edit

/-- A call that leaves the next timer alone keeps its place. -/
theorem call_keeps (wf : WF s) (here : p ∈ s.level 0) (leaves : Leaves (.node p) s call)
    (later : quiet → ∀ e, call.expire = some e → s.now < e) : Keeps quiet a p s (s.call call) := by
  rcases call_did wf leaves.1 with same | ⟨b, t, i, armed, sets, -, origin⟩ | ⟨b, t, l, removed⟩
  · rw [same]
    exact .refl here
  · refine armed.keeps wf here ?_ fun still => later still _ sets
    rintro rfl
    rcases origin with fresh | rearms
    · exact wf.fresh_level fresh 0 here
    · exact leaves.2 b rearms rfl
  · exact removed.keeps here

/-- By induction over the calls of a function. -/
theorem calls_sound (wf : WF s) (sound : Sound s calling)
    (follows : Follows Timers.call (Leaves nxt) s calls) :
    WF (calls.foldl Timers.call s) ∧ Sound (calls.foldl Timers.call s) calling ∧
      Edit s (calls.foldl Timers.call s) := by
  induction calls generalizing s with
  | nil => exact ⟨wf, sound, .refl s⟩
  | cons call rest ih =>
    obtain ⟨leaves, follows⟩ := follows
    obtain ⟨wf', sound', edit⟩ := ih (call_wf wf leaves.1) (call_sound wf sound leaves.1) follows
    exact ⟨wf', sound', (call_edit wf leaves.1).trans edit⟩

/-- Calls that leave the next timer alone keep its place. -/
theorem calls_keeps (wf : WF s) (here : p ∈ s.level 0)
    (follows : Follows Timers.call (Leaves (.node p)) s calls)
    (later : quiet → Later s.now calls) : Keeps quiet a p s (calls.foldl Timers.call s) := by
  induction calls generalizing s with
  | nil => exact .refl here
  | cons call rest ih =>
    obtain ⟨leaves, follows⟩ := follows
    have first : Keeps quiet a p s (s.call call) :=
      call_keeps wf here leaves fun still => later still call List.mem_cons_self
    refine first.trans (ih (call_wf wf leaves.1) first.here follows fun still => ?_)
    rw [first.now]
    exact fun other member => later still other (List.mem_cons_of_mem _ member)

/-! ## A visit -/

/-- A visit to a timer that is not due frees it or does nothing. -/
theorem visit_early (out : Nat → Outcome H F) (n : Nat) (was : s.table a = some t)
    (early : ¬ s.Due a) :
    (visit out s n a t).2 = n ∧
      ((visit out s n a t).1 = s ∨
        t.function = none ∧ Freed s (visit out s n a t).1 a t) := by
  unfold visit
  split
  case isTrue dead => exact ⟨rfl, .inr ⟨dead, doRemoveTimer_freed was⟩⟩
  case isFalse live =>
    have is := pending_of_live was (Option.isSome_iff_ne_none.mpr live)
    rw [if_neg fun past => early ⟨_, _, is, past⟩]
    exact ⟨rfl, .inl rfl⟩

/-- What a visit does to a timer that is due. -/
theorem visit_due (was : s.table a = some t) {x : Nat} {e : Int}
    (is : s.pending a = some (x, e)) (due : e ≤ s.now) :
    visit out s n a t =
      (let after := (out n).calls.foldl Timers.call (s.log (.fired x s.now (out n).ret))
        if (out n).ret = 0 then after.doRemoveTimer a true else after, n + 1) := by
  obtain ⟨t', was', live, rfl, rfl⟩ := pending_some is
  obtain rfl : t = t' := Option.some.inj (was.symm.trans was')
  simp [visit, due, Option.isSome_iff_ne_none.mp live]

/-- A timer that is not due is passed or moved down. -/
theorem visit_early_kept (wf : WF s) (sound : Sound s none) (was : s.table a = some t)
    (early : ¬ s.Due a) : Visit quiet a nxt s (visit out s n a t).1 := by
  rcases (visit_early out n was early).2 with same | ⟨-, freed⟩
  · rw [same]
    exact .refl wf sound
  · exact freed.visit wf sound (.inl rfl)

/-- A timer that is due is called and freed or armed again. -/
theorem visit_due_kept (wf : WF s) (sound : Sound s none) (was : s.table a = some t) {x : Nat}
    {e : Int} (is : s.pending a = some (x, e)) (due : e ≤ s.now)
    (follows : Follows Timers.call (Leaves nxt) (s.log (.fired x s.now (out n).ret)) (out n).calls)
    (later : quiet → Later s.now (out n).calls) :
    Visit quiet a nxt (s.log (.fired x s.now (out n).ret)) (visit out s n a t).1 := by
  have wf' : WF (s.log (.fired x s.now (out n).ret)) := wf_log wf _
  have fired : Sound (s.log (.fired x s.now (out n).ret))
      (if (out n).ret = 0 then some a else none) :=
    sound.fire is due _
  obtain ⟨after_wf, after_sound, edit⟩ := calls_sound wf' fired follows
  have keeps : ∀ {p}, nxt = .node p → p ∈ s.level 0 →
      Keeps quiet a p (s.log (.fired x s.now (out n).ret))
        ((out n).calls.foldl Timers.call (s.log (.fired x s.now (out n).ret))) := by
    rintro p rfl here
    exact calls_keeps wf' here follows later
  rw [visit_due was is due]
  split
  case isFalse nonzero =>
    rw [if_neg nonzero] at after_sound
    exact ⟨after_wf, after_sound, edit, fun next _ here => keeps next here⟩
  case isTrue zero =>
    rw [if_pos zero] at after_sound
    generalize (out n).calls.foldl Timers.call _ = after at *
    cases there : after.table a with
    | none =>
      have same : after.doRemoveTimer a true = after := by simp only [doRemoveTimer, there]
      rw [same]
      have returned : Sound after none := after_sound.returned (.inr rfl) (pending_of_unused there)
      exact ⟨after_wf, returned, edit, fun next _ here => keeps next here⟩
    | some t' =>
      have freed := doRemoveTimer_freed there
      exact
        { wf := freed.wf after_wf
          sound := freed.sound after_sound (.inr rfl)
          edit := edit.trans freed.edit
          keeps := fun next leaves here =>
            (keeps next here).trans (freed.keeps after_wf (keeps next here).here leaves) }

/-! ## A turn of the loop -/

/-- The callback of the timer that is visited takes unused memory, and gives the saved timer no
other time. -/
def Walk.Careful (out : Nat → Outcome H F) (w : Walk H F) : Prop :=
  ∀ a t, w.cur = .node a → w.s.table a = some t → t.function.isSome → t.expire ≤ w.s.now →
    Follows Timers.call (Leaves w.nxt)
      (w.s.log (.fired t.arming w.s.now (out w.calls).ret)) (out w.calls).calls

/-- A turn at a timer: the callback of a due timer is called once, and nothing else is called. -/
theorem Walk.Good.turn (good : w.Good) (cur : w.cur = .node a) (careful : w.Careful out) :
    (w.step out).Good ∧
      Walk.Turn (w.s.Due a → Later w.s.now (out w.calls).calls) a w (w.step out) ∧
      ((¬ w.s.Due a ∧ (w.step out).calls = w.calls ∧
          (∀ x, firings x (w.step out).s.trace = firings x w.s.trace) ∧
          (w.step out).ahead = w.ahead.tail) ∨
        ∃ x e, w.s.pending a = some (x, e) ∧ e ≤ w.s.now ∧ (w.step out).calls = w.calls + 1 ∧
          ∀ y, firings y (w.step out).s.trace =
            (if x = y then 1 else 0) + firings y w.s.trace) := by
  obtain ⟨t, was⟩ := good.used cur
  have step : w.step out =
      { s := (visit out w.s w.calls a t).1, cur := w.nxt,
        nxt := (visit out w.s w.calls a t).1.next w.nxt,
        calls := (visit out w.s w.calls a t).2 } := by
    simp only [Walk.step, cur, was]
  by_cases isDue : w.s.Due a
  · obtain ⟨x, e, is, due⟩ := id isDue
    have follows : Follows Timers.call (Leaves w.nxt)
        (w.s.log (.fired x w.s.now (out w.calls).ret)) (out w.calls).calls := by
      obtain ⟨t', was', live, rfl, rfl⟩ := pending_some is
      exact careful a t' cur was' live due
    have kept := visit_due_kept good.wf good.sound was is due follows
      fun still : w.s.Due a → Later w.s.now (out w.calls).calls => still isDue
    rw [step]
    obtain ⟨good', turn⟩ := good.pass cur kept rfl rfl rfl rfl (List.suffix_cons ..)
      (visit out w.s w.calls a t).2
    refine ⟨good', turn, .inr ⟨x, e, is, due, ?_, fun y => ?_⟩⟩
    · rw [visit_due was is due]
    · exact kept.edit.silent y
  · have kept : Visit (w.s.Due a → Later w.s.now (out w.calls).calls) a w.nxt w.s
        (visit out w.s w.calls a t).1 := visit_early_kept good.wf good.sound was isDue
    rw [step]
    obtain ⟨good', turn⟩ := good.pass cur kept rfl rfl rfl rfl (List.suffix_refl _)
      (visit out w.s w.calls a t).2
    obtain ⟨uncalled, edits⟩ := visit_early out w.calls was isDue
    exact ⟨good', turn, .inl ⟨isDue, uncalled, kept.edit.silent, good.ahead_tail cur edits _⟩⟩

end Taomee.Timer.Timers
