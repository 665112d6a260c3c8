import Taomee.Barrier.Balanced.Order

/-!
# Pops that fail

The code says that a pop whose buffer is too small changes nothing. It does so where
it checks the length first: for the next packet of the worker's key, and for the first
unread packet when the worker holds none. Elsewhere the check comes too late.
-/

namespace Taomee.Barrier.Balanced

open CircularList SearchTree Runs

variable {ω β : Type*} {pid : ω → Int} {q : Queue ω β} {read unread : List (Entry β)}
  {total : Nat} {dataLen : Int}

/-- The length checked first is that of a packet this pop would hand out: another packet
of the worker's key waits, or the worker holds none and the first unread packet is too
long. -/
def ChecksFirst (w : Worker) (s : Shm β) (dataLen : Int) : Prop :=
  w.mLastFlag ≠ 0 ∧ listEmpty s.homoList w.mPAssistArrayNode = false ∨
    w.mLastFlag = 0 ∧ (s.length s.usedPReadHead : Int) > dataLen

/-- A failed pop left the queue and the worker as they were, so that a later one does
what it would have done. -/
def Undone (balancing : Balancing Nat) (pid : Int) (w : Worker) (s : Shm β) (reply : PopReply β) :
    Prop :=
  reply.shm = s ∧ reply.worker = w ∧
    ∀ larger, pop balancing pid larger true reply.worker reply.shm
      = pop balancing pid larger true w s

section Code

variable {balancing : Balancing Nat} {p : Int} {w : Worker} {s : Shm β} {reply : PopReply β}

theorem popUsedListNode_of_checksFirst (balancing : Balancing Nat) (p : Int)
    (checks : ChecksFirst w s dataLen) :
    ∃ popped, popUsedListNode balancing p dataLen w s = some popped ∧
      (popped.failed = true → popped.shm = s ∧ popped.worker = w) := by
  unfold popUsedListNode
  rcases checks with ⟨busy, another⟩ | ⟨idle, long⟩
  · rw [if_pos busy]
    dsimp only
    rw [another, if_neg Bool.false_ne_true]
    split
    · exact ⟨_, rfl, fun _ => ⟨rfl, rfl⟩⟩
    · exact ⟨_, rfl, fun failed => absurd failed Bool.false_ne_true⟩
  · rw [if_neg (not_not.mpr idle), readLoop]
    split
    · exact ⟨_, rfl, fun failed => absurd failed Bool.false_ne_true⟩
    · exact ⟨_, rfl, fun _ => ⟨rfl, rfl⟩⟩

/-- Where the length is checked first, a failed pop changes nothing. -/
theorem undone_of_checksFirst {given : Bool}
    (ran : pop balancing p dataLen given w s = some reply) (failed : reply.errno ≠ none)
    (checks : ChecksFirst w s dataLen) : reply.shm = s ∧ reply.worker = w := by
  obtain ⟨popped, inner, unchanged⟩ := popUsedListNode_of_checksFirst balancing p checks
  unfold pop at ran
  split at ran
  · obtain rfl := Option.some.inj ran
    exact ⟨rfl, rfl⟩
  split at ran
  · obtain rfl := Option.some.inj ran
    exact ⟨rfl, rfl⟩
  simp only [inner, Option.bind_eq_bind, Option.bind_some] at ran
  split at ran
  case isTrue tooLong =>
    obtain rfl := Option.some.inj ran
    exact unchanged tooLong
  case isFalse =>
    split at ran
    · obtain rfl := Option.some.inj ran
      exact absurd rfl failed
    · obtain rfl := Option.some.inj ran
      exact absurd rfl failed

end Code

section Packets

variable {readAfter unreadAfter : List (Entry β)} {found : Found β} {held : Option (Entry β)}

/-- A loop that fails stops at an unread packet, past those it read. -/
theorem Scan.of_tooLong (scan : Scan dataLen read unread .tooLong readAfter unreadAfter) :
    read ⊆ readAfter ∧ ∃ entry rest, unreadAfter = entry :: rest ∧
      (entry.data.length : Int) > dataLen := by
  generalize result : (Found.tooLong : Found β) = found at scan
  induction scan with
  | nothing => cases result
  | tooLong long => exact ⟨fun _ member => member, _, _, rfl, long⟩
  | free => cases result
  | take => cases result
  | wait _ _ _ _ ih =>
    obtain ⟨grown, further⟩ := ih result
    exact ⟨fun _ member => grown (List.mem_append_left _ member), further⟩

variable {s : Shm β} {w : Worker}

/-- Where the length is not checked first, a failed pop leaves another queue. -/
theorem checksFirst_of_same (packets : s.Packets read unread total) (holds : Holds w read held)
    (pops : Pops dataLen held read unread .tooLong readAfter unreadAfter)
    (after : s.Packets readAfter unreadAfter total) : ChecksFirst w s dataLen := by
  generalize result : (Found.tooLong : Found β) = found at pops
  cases pops with
  | promote => cases result
  | tooLong first waiting long =>
    rename_i older younger rest last next
    obtain ⟨busy, -, node⟩ := holds
    have whole : sameKey last.key (older ++ last :: younger) = last :: next :: rest := by
      rw [sameKey_append, first, sameKey_cons, if_pos rfl, waiting]
      rfl
    have another := packets.filed.listEmpty_iff whole
    left
    refine ⟨busy, ?_⟩
    rw [node, Bool.eq_false_iff, Ne, another]
    exact List.cons_ne_nil _ _
  | finish first alone scan =>
    -- the node of the worker's last packet was in the tree, and is not any more
    rename_i older younger last
    exfalso
    have oldest : front last.key (older ++ last :: younger) = some last := by
      rw [front_middle first, if_pos rfl]
    have inTree := (packets.filed.tree last.node).mpr ⟨last.key, last, oldest, rfl⟩
    obtain ⟨k, entry, entryOldest, same⟩ := (after.filed.tree last.node).mp inTree
    have left := scan.subset (List.mem_append_left _ (front_eq_some entryOldest).1)
    have nodup := packets.nodup_nodes
    rw [List.append_assoc, List.cons_append, List.map_append, List.map_cons,
      List.nodup_middle, List.nodup_cons, ← List.map_append, ← List.append_assoc] at nodup
    exact nodup.1 (same ▸ List.mem_map_of_mem left)
  | idle scan =>
    subst result
    right
    refine ⟨holds, ?_⟩
    cases scan with
    | tooLong long =>
      have stored := packets.stored (List.mem_append_right _ List.mem_cons_self)
      rw [packets.usedPReadHead_cons, stored.length]
      exact long
    | wait fits flag present further =>
      -- the unread cursor was at a packet that is read now
      obtain ⟨grown, next, rest, rfl, -⟩ := further.of_tooLong
      have moved := after.node_ne (grown (List.mem_append_right _ List.mem_cons_self))
        (List.mem_cons_self (l := rest))
      exact absurd (packets.usedPReadHead_cons.symm.trans after.usedPReadHead_cons) moved

end Packets

section Runs

/-- Only pushes and pops, every process is there when `kill` asks, and a pop fails for
its buffer only where the length is checked first. -/
def Careful (balancing : Balancing Nat) (pid : ω → Int) (q : Queue ω β) : Call ω β → Prop
  | .push gone _ _ _ => ∀ worker, gone (pid worker) = false
  | .pop worker given dataLen =>
    given = true → 0 < dataLen →
      ∀ reply, pop balancing (pid worker) dataLen given (q.workers worker) q.shm = some reply →
        reply.errno ≠ none → ChecksFirst (q.workers worker) q.shm dataLen
  | _ => False

/-- What holds in every careful run on a ring of `rqLength` bytes and `nodes` nodes. -/
structure Kept (pid : ω → Int) (rqLength nodes : Nat) (q : Queue ω β)
    (read unread : List (Entry β)) (total : Nat) : Prop
    extends Custody pid q read unread total where
  bufferLen : q.shm.bufferLen = rqLength + 1
  reserve : q.shm.reserveTailIndex = nodes
  lives : ∀ worker, q.alive worker = true

theorem Found.Replied.found_eq {w : Worker} {reply : PopReply β} {found : Found β}
    (replied : found.Replied w reply) (failed : reply.errno ≠ none) : found = .tooLong := by
  cases found with
  | nothing => exact absurd replied.1 failed
  | tooLong => rfl
  | free => exact absurd replied.1 failed
  | taken => exact absurd replied.1 failed

theorem Found.Replied.ne_tooLong {w : Worker} {reply : PopReply β} {found : Found β}
    (replied : found.Replied w reply) (ok : reply.errno = none) : found ≠ .tooLong := by
  rintro rfl
  rw [replied.1] at ok
  cases ok

variable {rqLength nodes : Nat}

/-- A pop that changed nothing only ends the worker's hold. -/
theorem Kept.afterPop_same [DecidableEq ω] (kept : Kept pid rqLength nodes q read unread total)
    {worker : ω} {reply : PopReply β} (shm : reply.shm = q.shm)
    (same : reply.worker = q.workers worker) :
    Kept pid rqLength nodes (q.afterPop worker reply) read unread total where
  packets := by
    simpa [Queue.afterPop, shm] using kept.packets
  service := by
    simpa [Queue.afterPop, shm, same] using kept.service
  bufferLen := by
    simpa [Queue.afterPop, shm] using kept.bufferLen
  reserve := by
    simpa [Queue.afterPop, shm] using kept.reserve
  lives := kept.lives

theorem Kept.step [DecidableEq ω] (kept : Kept pid rqLength nodes q read unread total)
    (injective : pid.Injective) {balancing : Balancing Nat} {call : Call ω β}
    (careful : Careful balancing pid q call) :
    ∃ readAfter unreadAfter totalAfter,
      Kept pid rqLength nodes (q.step pid balancing call) readAfter unreadAfter totalAfter := by
  cases call with
  | push gone pData key flag =>
    obtain ⟨reply, left, totalAfter, ran, -, pushed, custody⟩ :=
      kept.toCustody.push injective balancing (fun worker _ => careful worker) pData key flag
    refine ⟨left, unread ++ q.added pData key flag total reply, totalAfter, ?_⟩
    rw [ran]
    obtain ⟨size, reserve⟩ := pushed.size
    refine ⟨custody, ?_, ?_, ?_⟩
    · rw [Queue.afterPush_shm, size, kept.bufferLen]
    · rw [Queue.afterPush_shm, reserve, kept.reserve]
    · rw [Queue.afterPush_alive]
      exact kept.lives
  | pop worker given dataLen =>
    by_cases valid : given = true ∧ 0 < dataLen
    · obtain ⟨rfl, positive⟩ := valid
      obtain ⟨reply, held, found, readAfter, unreadAfter, ran, -, -, replied, ring, custody⟩ :=
        kept.toCustody.pop injective balancing (kept.lives worker) positive
      have step : q.step pid balancing (.pop worker true dataLen) = q.afterPop worker reply := by
        simp [Queue.step, ran]
      rw [step]
      by_cases ok : reply.errno = none
      · exact ⟨readAfter, unreadAfter, total, custody (replied.ne_tooLong ok),
          ring.bufferLen.trans kept.bufferLen, ring.reserveTailIndex.trans kept.reserve, kept.lives⟩
      · obtain ⟨shm, same⟩ := undone_of_checksFirst ran ok (careful rfl positive reply ran ok)
        exact ⟨read, unread, total, kept.afterPop_same shm same⟩
    · have invalid : given = false ∨ dataLen ≤ 0 := by
        rw [not_and_or, Bool.not_eq_true, not_lt] at valid
        exact valid
      obtain ⟨errno, ran⟩ := pop_invalid balancing (pid worker) (w := q.workers worker)
        (s := q.shm) invalid
      have step : q.step pid balancing (.pop worker given dataLen)
          = q.afterPop worker ⟨some errno, 0, [], q.workers worker, q.shm⟩ := by
        simp [Queue.step, ran]
      rw [step]
      exact ⟨read, unread, total, kept.afterPop_same rfl rfl⟩
  | die => exact careful.elim
  | clean4pid => exact careful.elim
  | clean4key => exact careful.elim

theorem kept_of_reaches [DecidableEq ω] (injective : pid.Injective) {balancing : Balancing Nat}
    {byte : β}
    (run : Reaches (Queue.step pid balancing) (Careful balancing pid) (.start rqLength nodes byte)
      q) : ∃ read unread total, Kept pid rqLength nodes q read unread total := by
  apply run.invariant
  · exact ⟨[], [], 0, custody_start pid rqLength nodes byte, rfl, rfl, fun _ => rfl⟩
  · rintro q call ⟨read, unread, total, kept⟩ careful
    exact kept.step injective careful

/-- In every careful run, a pop that fails for its buffer leaves the queue and the worker as
they were exactly when the length is checked first. -/
theorem failed_pop_undone_iff [DecidableEq ω] (injective : pid.Injective)
    {balancing : Balancing Nat} {byte : β}
    (run : Reaches (Queue.step pid balancing) (Careful balancing pid) (.start rqLength nodes byte)
      q) {worker : ω} (positive : 0 < dataLen) {reply : PopReply β}
    (ran : pop balancing (pid worker) dataLen true (q.workers worker) q.shm = some reply)
    (failed : reply.errno ≠ none) :
    Undone balancing (pid worker) (q.workers worker) q.shm reply ↔
      ChecksFirst (q.workers worker) q.shm dataLen := by
  obtain ⟨read, unread, total, kept⟩ := kept_of_reaches injective run
  constructor
  · rintro ⟨shm, -, -⟩
    obtain ⟨held, holds⟩ := kept.service.holds (kept.lives worker)
    obtain ⟨again, found, readAfter, unreadAfter, ranAgain, pops, replied, -, -, after⟩ :=
      pop_pops balancing (pid worker) kept.packets holds (kept.service.init worker) positive
    obtain rfl : reply = again := Option.some.inj (ran.symm.trans ranAgain)
    obtain rfl := replied.found_eq failed
    exact checksFirst_of_same kept.packets holds pops (shm ▸ after)
  · intro checks
    obtain ⟨shm, same⟩ := undone_of_checksFirst ran failed checks
    exact ⟨shm, same, fun larger => by rw [shm, same]⟩

/-- A packet of three bytes, and nobody has popped. -/
def oneUnread : Queue (Fin 2) Nat := ranOn [pushing 1 7 [10, 11, 12]]

theorem oneUnread_reached :
    Reaches (Queue.step examplePid .still) (Careful .still examplePid) (.start 16 4 0)
      oneUnread := by
  simp only [oneUnread, ranOn, List.foldl_cons]
  exact .call .refl fun _ => rfl

theorem failed_pop_undone_unread :
    ∃ reply, pop .still (examplePid 0) 2 true (oneUnread.workers 0) oneUnread.shm = some reply ∧
      Undone .still (examplePid 0) (oneUnread.workers 0) oneUnread.shm reply := by
  obtain ⟨reply, ran, failed⟩ : ∃ reply,
      pop .still (examplePid 0) 2 true (oneUnread.workers 0) oneUnread.shm = some reply ∧
        reply.errno ≠ none := ⟨_, rfl, nofun⟩
  refine ⟨reply, ran, ?_⟩
  apply (failed_pop_undone_iff examplePid_injective oneUnread_reached (by decide) ran failed).mpr
  exact .inr ⟨rfl, by decide⟩

/-- A worker is done with a packet of one key, and a longer one of another key is unread. -/
def longUnread : Queue (Fin 2) Nat :=
  ranOn [pushing 1 7 [10], .pop earlier true 100, pushing 2 7 [20, 21, 22]]

/-- The pop that fails has given the finished packet back, and the worker still names it. -/
theorem failed_pop_released :
    Reaches (Queue.step examplePid .still) (Careful .still examplePid) (.start 16 4 0) longUnread ∧
      ∃ reply, pop .still (examplePid 0) 2 true (longUnread.workers 0) longUnread.shm
          = some reply ∧ reply.errno = some .invalidParam ∧
        ¬ Undone .still (examplePid 0) (longUnread.workers 0) longUnread.shm reply := by
  constructor
  · simp only [longUnread, ranOn, List.foldl_cons, List.foldl_nil]
    refine .call (.call (.call .refl fun _ => rfl) ?_) fun _ => rfl
    rintro - - reply ⟨⟩ failed
    exact absurd rfl failed
  · refine ⟨_, rfl, rfl, ?_⟩
    rintro ⟨shm, -, -⟩
    have moved := congrArg Shm.usedPHead shm
    exact absurd moved (by decide)

end Runs

end Taomee.Barrier.Balanced
