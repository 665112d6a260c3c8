import Taomee.Barrier.Balanced.Retry

/-!
# A queue at rest

When no worker may pop and nothing is unread, the used list holds just the packets that
workers finished and did not come back for. Nobody gives those back: `pop` would, but
`is_able_pop` does not let their workers in.
-/

namespace Taomee.Barrier.Balanced

open CircularList SearchTree Runs

variable {ω β : Type*} {pid : ω → Int} {q : Queue ω β} {read unread : List (Entry β)}
  {total rqLength nodes : Nat} {balancing : Balancing Nat}

/-- Every packet that fits an empty ring is accepted, while every process is there. -/
def AcceptsAll (balancing : Balancing Nat) (pid : ω → Int) (rqLength : Nat) (s : Shm β) : Prop :=
  ∀ (gone : Int → Bool) (data : List β) (key flag : Int), (∀ worker, gone (pid worker) = false) →
    0 < data.length → data.length ≤ rqLength →
    ∃ reply, Shm.push balancing gone true (some data) key flag s = some reply ∧
      reply.errno = none

/-- Without a worker that names a packet, no packet is read. -/
theorem Custody.read_eq_nil (custody : Custody pid q read unread total)
    (idle : ∀ worker, (q.workers worker).mLastFlag = 0) : read = [] := by
  cases read with
  | nil => rfl
  | cons entry rest =>
    have oldest : front entry.key (entry :: rest) = some entry := by
      rw [front_cons, if_pos rfl]
    obtain ⟨worker, -, busy, -⟩ := custody.service.served entry oldest
    exact absurd (idle worker) busy

/-- Room for a packet of `rqLength` bytes is room for nothing else. -/
theorem Kept.freeBytes_lt (kept : Kept pid rqLength nodes q read unread total)
    (used : read ++ unread ≠ []) (positive : 0 < rqLength) :
    q.shm.freeBytes (read ++ unread) total < rqLength := by
  have earlier : startPos total (read ++ unread) < total := by
    cases shape : read ++ unread with
    | nil => exact absurd shape used
    | cons first rest =>
      have member : first ∈ read ++ unread := shape ▸ List.mem_cons_self
      have ended := kept.packets.region.ended first member
      have nonempty := (kept.packets.stored member).nonempty
      simp only [startPos]
      omega
  rw [Shm.freeBytes, kept.bufferLen]
  omega

/-- With nothing unread, the queue accepts every packet that fits an empty ring exactly when
no worker's `m_last_flag` is set. -/
theorem Kept.acceptsAll_iff (kept : Kept pid rqLength nodes q read unread total)
    (balancing : Balancing Nat) (byte : β) (positive : 0 < rqLength) (stocked : 0 < nodes)
    (drained : q.shm.usedPReadHead = 0) :
    AcceptsAll balancing pid rqLength q.shm ↔ ∀ worker, (q.workers worker).mLastFlag = 0 := by
  obtain rfl := kept.toCustody.unread_eq_nil drained
  have alive : ∀ gone : Int → Bool, (∀ worker, gone (pid worker) = false) →
      ∀ entry, front entry.key read = some entry → gone (q.shm.flag entry.node) = false := by
    intro gone here entry oldest
    obtain ⟨worker, own, -⟩ := kept.service.served entry oldest
    rw [own, here]
  constructor
  · intro accepts worker
    by_contra busy
    obtain ⟨entry, oldest, -⟩ := kept.service.serving worker (kept.lives worker) busy
    have used : read ++ [] ≠ [] := by
      rw [List.append_nil]
      exact List.ne_nil_of_mem (front_eq_some oldest).1
    have length : (List.replicate rqLength byte).length = rqLength := List.length_replicate
    obtain ⟨gone, here⟩ : ∃ gone : Int → Bool, ∀ p, gone p = false := ⟨fun _ => false, fun _ => rfl⟩
    obtain ⟨reply, ran, ok⟩ := accepts gone (List.replicate rqLength byte) 0 0 (fun _ => here _)
      (length.symm ▸ positive) (le_of_eq length)
    obtain ⟨again, ranAgain, errno⟩ := kept.packets.push_errno balancing (length.symm ▸ positive) 0 0
      (alive gone fun _ => here _)
    obtain rfl := Option.some.inj (ran.symm.trans ranAgain)
    have room := (errno.mp ok).2
    have short := kept.freeBytes_lt used positive
    omega
  · intro idle gone data key flag here nonempty fits
    obtain rfl := kept.toCustody.read_eq_nil idle
    obtain ⟨reply, ran, errno⟩ := kept.packets.push_errno balancing nonempty key flag
      (alive gone here)
    refine ⟨reply, ran, errno.mpr ⟨?_, ?_⟩⟩
    · obtain ⟨empty, lists⟩ := kept.packets.lists
      rw [Bool.eq_false_iff, Ne, lists.emptyListEmpty_of_length, kept.reserve]
      exact Nat.ne_of_lt stocked
    · rw [Shm.freeBytes, kept.bufferLen]
      simpa [startPos] using fits

/-- No worker will pop again, nothing is unread, and a packet that fits an empty ring is
refused. -/
def Wedged (balancing : Balancing Nat) (pid : ω → Int) (rqLength : Nat) (q : Queue ω β) : Prop :=
  (∀ worker, isAblePop (q.workers worker) q.shm = false) ∧ q.shm.usedPReadHead = 0 ∧
    ¬ AcceptsAll balancing pid rqLength q.shm

/-- In every careful run, the queue is not wedged exactly when no worker that may not pop has
its `m_last_flag` set once nothing is unread. -/
theorem not_wedged_iff [DecidableEq ω] (injective : pid.Injective) (positive : 0 < rqLength)
    (stocked : 0 < nodes) {byte : β}
    (run : Reaches (Queue.step pid balancing) (Careful balancing pid) (.start rqLength nodes byte)
      q) :
    ¬ Wedged balancing pid rqLength q ↔
      ((∀ worker, isAblePop (q.workers worker) q.shm = false) → q.shm.usedPReadHead = 0 →
        ∀ worker, (q.workers worker).mLastFlag = 0) := by
  obtain ⟨read, unread, total, kept⟩ := kept_of_reaches injective run
  constructor
  · intro safe unable drained
    rw [← kept.acceptsAll_iff balancing byte positive stocked drained]
    by_contra refuses
    exact safe ⟨unable, drained, refuses⟩
  · rintro idle ⟨unable, drained, refuses⟩
    exact refuses
      ((kept.acceptsAll_iff balancing byte positive stocked drained).mpr (idle unable drained))

/-- The only packet was popped, and its worker waits for another. -/
def onePopped : Queue (Fin 2) Nat := ranOn [pushing 1 7 [10], .pop earlier true 100]

theorem onePopped_reached :
    Reaches (Queue.step examplePid .still) (Careful .still examplePid) (.start 16 4 0)
      onePopped := by
  simp only [onePopped, ranOn, List.foldl_cons]
  refine .call (.call .refl fun _ => rfl) ?_
  rintro - - reply ⟨⟩ failed
  exact absurd rfl failed

/-- The second pop of the worker gives its first packet back, and the packet it gets has no flag. -/
def drainedUnflagged : Queue (Fin 2) Nat :=
  ranOn [pushing 1 7 [10], .pop earlier true 100, pushing 2 0 [20, 21], .pop earlier true 100]

theorem drainedUnflagged_reached :
    Reaches (Queue.step examplePid .still) (Careful .still examplePid) (.start 16 4 0)
      drainedUnflagged := by
  simp only [drainedUnflagged, ranOn, List.foldl_cons]
  refine .call (.call (.call (.call .refl fun _ => rfl) ?_) fun _ => rfl) ?_ <;>
  · rintro - - reply ⟨⟩ failed
    exact absurd rfl failed

/-- No worker may pop and nothing is unread, but the queue is not wedged. -/
theorem not_wedged_iff_unflagged :
    (∀ worker, isAblePop (drainedUnflagged.workers worker) drainedUnflagged.shm = false) ∧
      drainedUnflagged.shm.usedPReadHead = 0 ∧ drainedUnflagged.accepted.length = 2 ∧
      ¬ Wedged .still examplePid 16 drainedUnflagged := by
  have idle : ∀ worker, (drainedUnflagged.workers worker).mLastFlag = 0 := by decide
  exact ⟨by decide, by decide, by decide, (not_wedged_iff examplePid_injective (by decide)
    (by decide) drainedUnflagged_reached).mpr fun _ _ => idle⟩

/-- A packet as long as the empty ring is refused, and no worker will pop again. -/
theorem push_refused_at_rest :
    Reaches (Queue.step examplePid .still) (Careful .still examplePid) (.start 16 4 0) onePopped ∧
      (∀ worker, isAblePop (onePopped.workers worker) onePopped.shm = false) ∧
      onePopped.shm.usedPReadHead = 0 ∧
      (∃ reply, Shm.push .still (fun _ => false) true (some (List.replicate 16 1)) 2 0
          onePopped.shm = some reply ∧ reply.errno = some .noEnoughRqBuffer) ∧
      Wedged .still examplePid 16 onePopped := by
  have refused : ∃ reply, Shm.push .still (fun _ => false) true (some (List.replicate 16 1)) 2 0
      onePopped.shm = some reply ∧ reply.errno = some .noEnoughRqBuffer := ⟨_, rfl, rfl⟩
  refine ⟨onePopped_reached, by decide, by decide, refused, by decide, by decide, ?_⟩
  intro accepts
  obtain ⟨reply, ran, errno⟩ := refused
  obtain ⟨again, ranAgain, ok⟩ := accepts (fun _ => false) (List.replicate 16 1) 2 0
    (fun _ => rfl) (by decide) (by decide)
  obtain rfl := Option.some.inj (ran.symm.trans ranAgain)
  rw [ok] at errno
  cases errno

end Taomee.Barrier.Balanced
