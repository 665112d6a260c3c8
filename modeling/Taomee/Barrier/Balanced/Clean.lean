import Taomee.Barrier.Balanced.Order
import Taomee.Barrier.Places

/-!
# Workers that end

Runs in which workers end and are cleaned up after: no node is lost or in two places, and
cleaning up gives back what the worker held.
-/

namespace Taomee.Barrier.Balanced

open CircularList SearchTree Runs

variable {ω β : Type*} {pid : ω → Int} {q : Queue ω β} {read unread : List (Entry β)}
  {total : Nat} {balancing : Balancing Nat}

/-- Only workers alive pop, into buffers as large as any packet in the queue; `kill` finds
them, and they and what they hold are not cleaned up. -/
def Managed (pid : ω → Int) (q : Queue ω β) : Call ω β → Prop
  | .push gone _ _ _ => ∀ worker, q.alive worker = true → gone (pid worker) = false
  | .pop worker given dataLen =>
    q.alive worker = true ∧ given = true ∧ 0 < dataLen ∧
      ∀ node, q.shm.Used node → (q.shm.length node : Int) ≤ dataLen
  | .die _ => True
  | .clean4pid p => ∀ worker, q.alive worker = true → pid worker ≠ p
  | .clean4key key => ∀ worker, q.alive worker = true → (q.workers worker).mLastFlag ≠ 0 →
    q.shm.key (q.workers worker).mPAssistArrayNode ≠ key

namespace Custody

theorem clean4pid (custody : Custody pid q read unread total) (injective : pid.Injective)
    (balancing : Balancing Nat) {p : Int}
    (dead : ∀ worker, q.alive worker = true → pid worker ≠ p) :
    ∃ (cleaned : Shm β) (left : List (Entry β)),
      q.shm.clean4pid balancing p = some cleaned ∧
        Custody pid { q with shm := cleaned } left unread total := by
  obtain ⟨cleaned, left, ran, reclaimed, flag, packets, -⟩ :=
    custody.packets.clean4pid balancing (custody.distinct injective) p
  refine ⟨cleaned, left, ran, packets, ?_⟩
  rw [flag]
  apply custody.service.reclaimed reclaimed
  intro worker lives
  simpa using dead worker lives

/-- The node in the tree is the one that the process of its flag serves. -/
theorem served_tree (custody : Custody pid q read unread total) {tree : Nat}
    (inTree : tree ∈ q.shm.rbRoot.inorder) :
    ∃ worker, q.shm.flag tree = pid worker ∧ (q.workers worker).mLastFlag ≠ 0 ∧
      (q.workers worker).mPAssistArrayNode = tree := by
  obtain ⟨k, entry, oldest, rfl⟩ := (custody.packets.filed.tree tree).mp inTree
  obtain ⟨-, rfl⟩ := front_eq_some oldest
  exact custody.service.served entry oldest

theorem clean4key (custody : Custody pid q read unread total) (injective : pid.Injective)
    (balancing : Balancing Nat) {key : Int}
    (dead : ∀ worker, q.alive worker = true → (q.workers worker).mLastFlag ≠ 0 →
      q.shm.key (q.workers worker).mPAssistArrayNode ≠ key) :
    ∃ (cleaned : Shm β) (left : List (Entry β)),
      q.shm.clean4key balancing key = some cleaned ∧
        Custody pid { q with shm := cleaned } left unread total := by
  cases found : front key read with
  | none => exact ⟨q.shm, read, custody.packets.clean4key_absent found, custody⟩
  | some entry =>
    obtain ⟨isRead, rfl⟩ := front_eq_some found
    have inTree := (custody.packets.filed.mem_tree isRead).mpr found
    have same := custody.packets.clean4key_eq balancing (custody.distinct injective) inTree
    rw [custody.packets.filed.keys entry isRead] at same
    rw [same]
    apply custody.clean4pid injective balancing
    intro worker lives own
    obtain ⟨server, flagged, busy, node⟩ := custody.served_tree inTree
    obtain rfl : worker = server := injective (own.trans flagged)
    apply dead worker lives busy
    rw [node, custody.packets.filed.keys entry isRead]

theorem step [DecidableEq ω] (custody : Custody pid q read unread total)
    (injective : pid.Injective) (balancing : Balancing Nat) {call : Call ω β}
    (managed : Managed pid q call) :
    ∃ readAfter unreadAfter totalAfter,
      Custody pid (q.step pid balancing call) readAfter unreadAfter totalAfter := by
  cases call with
  | push gone pData key flag =>
    obtain ⟨reply, left, totalAfter, ran, -, -, after⟩ :=
      custody.push injective balancing managed pData key flag
    exact ⟨left, unread ++ q.added pData key flag total reply, totalAfter, ran ▸ after⟩
  | pop worker given dataLen =>
    obtain ⟨lives, rfl, positive, large⟩ := managed
    obtain ⟨reply, held, found, readAfter, unreadAfter, ran, -, pops, -, -, after⟩ :=
      custody.pop injective balancing lives positive
    have enough : found ≠ .tooLong := by
      apply pops.ne_tooLong
      intro entry member
      rw [← (custody.packets.stored member).length]
      exact large _ (custody.packets.used_iff.mpr ⟨entry, member, rfl⟩)
    have step : q.step pid balancing (.pop worker true dataLen) = q.afterPop worker reply := by
      simp [Queue.step, ran]
    exact ⟨readAfter, unreadAfter, total, step ▸ after enough⟩
  | die worker => exact ⟨read, unread, total, custody.packets, custody.service.die worker⟩
  | clean4pid p =>
    obtain ⟨cleaned, left, ran, after⟩ := custody.clean4pid injective balancing managed
    have step : q.step pid balancing (.clean4pid p) = { q with shm := cleaned } := by
      simp [Queue.step, ran]
    exact ⟨left, unread, total, step ▸ after⟩
  | clean4key key =>
    obtain ⟨cleaned, left, ran, after⟩ := custody.clean4key injective balancing managed
    have step : q.step pid balancing (.clean4key key) = { q with shm := cleaned } := by
      simp [Queue.step, ran]
    exact ⟨left, unread, total, step ▸ after⟩

end Custody

/-- In every managed run each node is in one place, and cleaning up after a worker that
ended, by its process id or by the key it holds, gives back what it held and no more. -/
theorem nodes_conserved [DecidableEq ω] (injective : pid.Injective) {rqLength nodes : Nat}
    {byte : β}
    (run : Reaches (Queue.step pid balancing) (Managed pid) (.start rqLength nodes byte) q) :
    (∃ empty read unread, q.shm.Conserved empty read unread) ∧
      ∀ worker, q.alive worker = false →
        ∃ cleaned, q.shm.clean4pid balancing (pid worker) = some cleaned ∧
          (∀ node, cleaned.Used node ↔ q.shm.Used node ∧ ¬ q.shm.HeldBy (pid worker) node) ∧
          ∀ head ∈ q.shm.rbRoot.inorder, q.shm.flag head = pid worker →
            q.shm.clean4key balancing (q.shm.key head) = some cleaned := by
  have reached : ∃ read unread total, Custody pid q read unread total := by
    apply run.invariant
    · exact ⟨[], [], 0, custody_start pid rqLength nodes byte⟩
    · rintro q call ⟨read, unread, total, custody⟩ managed
      exact custody.step injective balancing managed
  obtain ⟨read, unread, total, custody⟩ := reached
  obtain ⟨empty, conserved⟩ := custody.packets.conserved
  refine ⟨⟨empty, _, _, conserved⟩, ?_⟩
  intro worker _
  have distinct := custody.distinct injective
  obtain ⟨cleaned, left, ran, -, -, -, used⟩ :=
    custody.packets.clean4pid balancing distinct (pid worker)
  refine ⟨cleaned, ran, used, ?_⟩
  intro head inTree own
  rw [custody.packets.clean4key_eq balancing distinct inTree, own, ran]

/-- A worker took a packet and ended. -/
def endedHolding : Queue (Fin 2) Nat :=
  ranOn [pushing 1 7 [10, 11], .pop earlier true 100, .die earlier]

theorem endedHolding_reached :
    Reaches (Queue.step examplePid .still) (Managed examplePid) (.start 16 4 0) endedHolding := by
  simp only [endedHolding, ranOn, List.foldl_cons, List.foldl_nil]
  refine .call (.call (.call .refl fun _ _ => rfl) ⟨rfl, rfl, by decide, ?_⟩) trivial
  intro node _
  change ((Function.update (fun _ => 0) 1 2 node : Nat) : Int) ≤ 100
  by_cases first : node = 1
  · subst first
    decide
  · rw [Function.update_of_ne first]
    decide

theorem nodes_conserved_ended :
    ∃ cleaned, endedHolding.shm.clean4pid .still (examplePid 0) = some cleaned ∧
      endedHolding.shm.Used 1 ∧ ¬ cleaned.Used 1 := by
  obtain ⟨-, gives⟩ := nodes_conserved examplePid_injective endedHolding_reached
  obtain ⟨cleaned, ran, used, -⟩ := gives 0 rfl
  refine ⟨cleaned, ran, ⟨by decide, 0, rfl⟩, ?_⟩
  rw [used]
  rintro ⟨-, notHeld⟩
  exact notHeld ⟨1, by decide, by decide, .inl rfl⟩

/-- Two nodes of the tree carry packets that were pushed with one flag. -/
theorem one_flag_two_nodes :
    Reaches (Queue.step examplePid .still) (Managed examplePid) (.start 16 4 0) twoKeys ∧
      twoKeys.shm.rbRoot.inorder = [1, 2] ∧
      twoKeys.accepted[twoKeys.carries 1]? = some ⟨1, 7, [10, 11]⟩ ∧
      twoKeys.accepted[twoKeys.carries 2]? = some ⟨2, 7, [20]⟩ := by
  refine ⟨?_, rfl, rfl, rfl⟩
  have short : ∀ node, ((Function.update (Function.update (fun _ => 0) 1 2) 2 1 node : Nat) : Int)
      ≤ 100 := by
    intro node
    by_cases second : node = 2
    · subst second
      decide
    rw [Function.update_of_ne second]
    by_cases first : node = 1
    · subst first
      decide
    · rw [Function.update_of_ne first]
      decide
  simp only [twoKeys, ranOn, List.foldl_cons, List.foldl_nil]
  exact .call (.call (.call (.call .refl fun _ _ => rfl) fun _ _ => rfl)
    ⟨rfl, rfl, by decide, fun node _ => short node⟩) ⟨rfl, rfl, by decide, fun node _ => short node⟩

end Taomee.Barrier.Balanced
