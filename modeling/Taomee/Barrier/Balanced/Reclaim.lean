import Taomee.Barrier.Balanced.Clean
import Taomee.Barrier.Balanced.Retry

/-!
# The reclaim loop of push

While no node is free, `push` cleans up after the process whose id is the flag of the
oldest used node. A turn makes progress as long as such a node is in the tree. A pop that
gives the worker's last packet back, and then fails for its buffer, breaks that.
-/

namespace Taomee.Barrier

open CircularList SearchTree

variable {β : Type*} {s : Shm β} {read unread : List (Entry β)} {total : Nat}
  {balancing : Balancing Nat} {gone : Int → Bool}

/-- A turn of the loop that does not make `push` return ends, and frees a node. -/
def Shm.TurnFrees (balancing : Balancing Nat) (gone : Int → Bool) (s : Shm β) : Prop :=
  s.emptyListEmpty = true → s.usedPHead ≠ s.usedPReadHead → gone (s.flag s.usedPHead) = true →
    ∃ cleaned, s.clean4pid balancing (s.flag s.usedPHead) = some cleaned ∧
      cleaned.emptyListEmpty = false

/-- A turn that frees a node is the last one. -/
theorem Shm.TurnFrees.reclaim (frees : s.TurnFrees balancing gone) :
    ∃ outcome, s.reclaim balancing gone 2 = some outcome := by
  cases full : s.emptyListEmpty with
  | false => exact ⟨(true, s), by simp [Shm.reclaim, full]⟩
  | true =>
    by_cases same : s.usedPHead = s.usedPReadHead
    · exact ⟨(false, s), by simp [Shm.reclaim, full, same]⟩
    cases dead : gone (s.flag s.usedPHead) with
    | false => exact ⟨(false, s), by simp [Shm.reclaim, full, dead]⟩
    | true =>
      obtain ⟨cleaned, ran, free⟩ := frees full same dead
      exact ⟨(true, cleaned), by simp [Shm.reclaim, full, same, dead, ran, free]⟩

/-- The loop never ends where a turn of it cleans nothing up. -/
theorem Shm.reclaim_eq_none (full : s.emptyListEmpty = true)
    (different : s.usedPHead ≠ s.usedPReadHead) (dead : gone (s.flag s.usedPHead) = true)
    (nothing : s.clean4pid balancing (s.flag s.usedPHead) = some s) (fuel : Nat) :
    s.reclaim balancing gone fuel = none := by
  induction fuel with
  | zero => rfl
  | succ fuel ih => simp [Shm.reclaim, full, different, dead, nothing, ih]

theorem Shm.Packets.turnFrees (packets : s.Packets read unread total) (balancing : Balancing Nat)
    (gone : Int → Bool) (distinct : DistinctFlags s.flag read) : s.TurnFrees balancing gone := by
  intro full different _
  obtain ⟨entry, cleaned, -, -, ran, -, -, -, free⟩ :=
    packets.clean_oldest balancing distinct full different
  exact ⟨cleaned, ran, free⟩

end Taomee.Barrier

namespace Taomee.Barrier.Balanced

open CircularList SearchTree Runs

variable {ω β : Type*} {pid : ω → Int} {q : Queue ω β} {read unread : List (Entry β)}
  {total : Nat} {balancing : Balancing Nat} {dataLen : Int}

/-- Only workers alive pop, `kill` finds them, and they and what they hold are not cleaned
up. The buffers are of any size. -/
def Lawful (pid : ω → Int) (q : Queue ω β) : Call ω β → Prop
  | .push gone _ _ _ => ∀ worker, q.alive worker = true → gone (pid worker) = false
  | .pop worker _ _ => q.alive worker = true
  | .die _ => True
  | .clean4pid p => ∀ worker, q.alive worker = true → pid worker ≠ p
  | .clean4key key => ∀ worker, q.alive worker = true → (q.workers worker).mLastFlag ≠ 0 →
    q.shm.key (q.workers worker).mPAssistArrayNode ≠ key

/-- The pop gives the worker's last packet back before it looks at a length: no other packet
of the key waits. -/
def GivesBackFirst (w : Worker) (s : Shm β) : Prop :=
  w.mLastFlag ≠ 0 ∧ listEmpty s.homoList w.mPAssistArrayNode = true

/-- A pop that gives the worker's last packet back does not fail after that. -/
def Spares (balancing : Balancing Nat) (pid : ω → Int) (q : Queue ω β) : Call ω β → Prop
  | .pop worker given dataLen =>
    given = true → 0 < dataLen → GivesBackFirst (q.workers worker) q.shm →
      ∀ reply, pop balancing (pid worker) dataLen given (q.workers worker) q.shm = some reply →
        reply.errno = none
  | _ => True

/-- A lawful call that spares. -/
def Sparing (balancing : Balancing Nat) (pid : ω → Int) (q : Queue ω β) (call : Call ω β) : Prop :=
  Lawful pid q call ∧ Spares balancing pid q call

section Packets

variable {readAfter unreadAfter : List (Entry β)} {held : Option (Entry β)}

/-- A pop that fails without giving a packet back leaves the oldest packets alone. -/
theorem Pops.front_eq (pops : Pops dataLen held read unread .tooLong readAfter unreadAfter)
    (others : ∀ entry, held = some entry → sameKey entry.key read ≠ [entry]) (key : Int) :
    front key readAfter = front key read := by
  generalize result : (Found.tooLong : Found β) = found at pops
  cases pops with
  | promote => cases result
  | tooLong => rfl
  | finish first alone scan =>
    rename_i older younger last
    refine absurd ?_ (others last rfl)
    rw [sameKey_append, first, sameKey_cons, if_pos rfl, alone]
    rfl
  | idle scan =>
    subst result
    apply Option.ext
    intro entry
    rw [scan.front_iff]
    simp

variable {workers : ω → Worker} {alive : ω → Bool} {flag : Nat → Int}

/-- Packets that join the lines of their keys change nobody's duty. -/
theorem Service.wait (service : Service pid workers alive flag read)
    (barrier : ∀ entry ∈ readAfter, entry.flag ≠ 0)
    (fronts : ∀ key, front key readAfter = front key read) :
    Service pid workers alive flag readAfter where
  barrier := barrier
  served entry oldest := service.served entry ((fronts _).symm.trans oldest)
  serving worker lives busy := by
    obtain ⟨entry, oldest, duty⟩ := service.serving worker lives busy
    exact ⟨entry, (fronts _).trans oldest, duty⟩
  init := service.init

end Packets

namespace Custody

/-- A worker whose packet is not the only one of its key does not give it back first. -/
theorem sameKey_ne (custody : Custody pid q read unread total) {worker : ω} {entry : Entry β}
    (holds : Holds (q.workers worker) read (some entry))
    (keeps : ¬ GivesBackFirst (q.workers worker) q.shm) : sameKey entry.key read ≠ [entry] := by
  intro alone
  obtain ⟨busy, -, node⟩ := holds
  apply keeps
  refine ⟨busy, ?_⟩
  rw [node]
  exact (custody.packets.filed.listEmpty_iff alone).mpr rfl

/-- A pop that spares, into a buffer of any size. -/
theorem popSparing [DecidableEq ω] (custody : Custody pid q read unread total)
    (injective : pid.Injective) {worker : ω} {given : Bool} (lives : q.alive worker = true)
    (spares : Spares balancing pid q (.pop worker given dataLen)) :
    ∃ readAfter unreadAfter,
      Custody pid (q.step pid balancing (.pop worker given dataLen)) readAfter unreadAfter
        total := by
  by_cases valid : given = true ∧ 0 < dataLen
  · obtain ⟨rfl, positive⟩ := valid
    obtain ⟨held, holds⟩ := custody.service.holds lives
    obtain ⟨reply, found, readAfter, unreadAfter, ran, pops, replied, flags, -, packets⟩ :=
      pop_pops balancing (pid worker) custody.packets holds (custody.service.init worker) positive
    have step : q.step pid balancing (.pop worker true dataLen) = q.afterPop worker reply := by
      simp [Queue.step, ran]
    rw [step]
    refine ⟨readAfter, unreadAfter, packets, ?_⟩
    by_cases short : found = .tooLong
    · subst short
      obtain ⟨errno, -, same⟩ := replied
      have keeps : ¬ GivesBackFirst (q.workers worker) q.shm := by
        intro first
        have ok := spares rfl positive first reply ran
        rw [errno] at ok
        cases ok
      have service := custody.service.wait (pops.barrier custody.service.barrier)
        (pops.front_eq fun entry holding => custody.sameKey_ne (holding ▸ holds) keeps)
      simpa [Queue.afterPop, flags, same, Found.flags] using service
    · have service := custody.service.pop injective custody.packets.nodup_nodes lives holds pops
        short replied
      simpa [Queue.afterPop, flags] using service
  · have invalid : given = false ∨ dataLen ≤ 0 := by
      rwa [not_and_or, Bool.not_eq_true, not_lt] at valid
    obtain ⟨errno, ran⟩ := pop_invalid balancing (pid worker) (w := q.workers worker)
      (s := q.shm) invalid
    have step : q.step pid balancing (.pop worker given dataLen)
        = q.afterPop worker ⟨some errno, 0, [], q.workers worker, q.shm⟩ := by
      simp [Queue.step, ran]
    rw [step]
    refine ⟨read, unread, custody.packets, ?_⟩
    simpa [Queue.afterPop] using custody.service

theorem stepSparing [DecidableEq ω] (custody : Custody pid q read unread total)
    (injective : pid.Injective) {call : Call ω β} (sparing : Sparing balancing pid q call) :
    ∃ readAfter unreadAfter totalAfter,
      Custody pid (q.step pid balancing call) readAfter unreadAfter totalAfter := by
  obtain ⟨lawful, spares⟩ := sparing
  cases call with
  | push gone pData key flag => exact custody.step injective balancing lawful
  | pop worker given dataLen =>
    obtain ⟨readAfter, unreadAfter, after⟩ := custody.popSparing injective lawful spares
    exact ⟨readAfter, unreadAfter, total, after⟩
  | die worker => exact custody.step injective balancing lawful
  | clean4pid p => exact custody.step injective balancing lawful
  | clean4key key => exact custody.step injective balancing lawful

end Custody

theorem custody_of_sparing [DecidableEq ω] (injective : pid.Injective) {rqLength nodes : Nat}
    {byte : β} (run : Reaches (Queue.step pid balancing) (Sparing balancing pid)
      (.start rqLength nodes byte) q) : ∃ read unread total, Custody pid q read unread total := by
  apply run.invariant
  · exact ⟨[], [], 0, custody_start pid rqLength nodes byte⟩
  · rintro q call ⟨read, unread, total, custody⟩ sparing
    exact custody.stepSparing injective sparing

/-- In every run of sparing calls the loop of `push` ends, whichever processes are gone: a turn
that does not make `push` return frees a node, and none follows it. -/
theorem reclaim_ends [DecidableEq ω] (injective : pid.Injective) {rqLength nodes : Nat} {byte : β}
    (run : Reaches (Queue.step pid balancing) (Sparing balancing pid)
      (.start rqLength nodes byte) q) (gone : Int → Bool) :
    q.shm.TurnFrees balancing gone ∧ ∃ outcome, q.shm.reclaim balancing gone 2 = some outcome := by
  obtain ⟨read, unread, total, custody⟩ := custody_of_sparing injective run
  have frees := custody.packets.turnFrees balancing gone (custody.distinct injective)
  exact ⟨frees, frees.reclaim⟩

/-- `kill` finds every process but one: this id is past the largest there is. -/
def strayId : Int := 5000000

def isStray (p : Int) : Bool := p = strayId

/-- A push while no process has the stray id. -/
def pushingPast (key flag : Int) (data : List Nat) : Call (Fin 2) Nat :=
  .push isStray (some data) key flag

/-- The calls in turn, on a ring of 16 bytes and as many nodes. -/
def ranWith (nodes : Nat) (calls : List (Call (Fin 2) Nat)) : Queue (Fin 2) Nat :=
  calls.foldl (Queue.step examplePid .still) (.start 16 nodes 0)

theorem lawful_pushingPast (q : Queue (Fin 2) Nat) (key flag : Int) (data : List Nat) :
    Lawful examplePid q (pushingPast key flag data) := by
  have found : ∀ worker, isStray (examplePid worker) = false := by decide
  exact fun worker _ => found worker

/-- The only node is that of a worker that ended. -/
def allHeld : Queue (Fin 2) Nat :=
  ranWith 1 [pushingPast 1 7 [10], .pop earlier true 100, .die earlier]

theorem allHeld_reached :
    Reaches (Queue.step examplePid .still) (Sparing .still examplePid) (.start 16 1 0) allHeld := by
  simp only [allHeld, ranWith, List.foldl_cons]
  refine .call (.call (.call .refl ⟨lawful_pushingPast _ _ _ _, trivial⟩) ⟨rfl, ?_⟩)
    ⟨trivial, trivial⟩
  rintro - - ⟨busy, -⟩
  exact absurd rfl busy

theorem reclaim_ends_held :
    ∃ cleaned, allHeld.shm.clean4pid .still 100 = some cleaned ∧
      cleaned.emptyListEmpty = false := by
  obtain ⟨frees, -⟩ := reclaim_ends examplePid_injective allHeld_reached fun p => p = 100
  exact frees (by decide) (by decide) (by decide)

def later : Fin 2 := Fin.last 1

/-- A worker gives its packet's node back twice: the first time a packet of three bytes is
behind it, the second time another push has filled the node. -/
def givenBackTwice : Queue (Fin 2) Nat :=
  ranWith 2 [pushingPast 1 strayId [10], pushingPast 1 0 [20, 21, 22], .pop earlier true 1,
    .pop earlier true 1, pushingPast 1 strayId [30], .pop later true 9, pushingPast 1 strayId [40],
    .pop earlier true 1, pushingPast 1 0 [50]]

/-- The next push finds no free node, and cleans up after a flag that is in no tree node for
ever. -/
theorem reclaim_endless :
    Reaches (Queue.step examplePid .still) (Lawful examplePid) (.start 16 2 0) givenBackTwice ∧
      ∀ fuel, givenBackTwice.shm.reclaim .still isStray fuel = none := by
  constructor
  · simp only [givenBackTwice, ranWith, List.foldl_cons, List.foldl_nil]
    exact .call (.call (.call (.call (.call (.call (.call (.call (.call .refl
      (lawful_pushingPast _ _ _ _)) (lawful_pushingPast _ _ _ _)) rfl) rfl)
      (lawful_pushingPast _ _ _ _)) rfl) (lawful_pushingPast _ _ _ _)) rfl)
      (lawful_pushingPast _ _ _ _)
  · intro fuel
    exact Shm.reclaim_eq_none (by decide) (by decide) (by decide) rfl fuel

end Taomee.Barrier.Balanced
