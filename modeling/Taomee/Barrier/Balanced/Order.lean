import Taomee.Barrier.Balanced.Queue

/-!
# Order and integrity

Runs of pushes and pops whose buffers are large enough, with every worker alive: of the
packets of one key one worker at a time holds one, they are handed out in the order of
their pushes, each once, and with the bytes pushed.
-/

namespace Taomee.Barrier.Balanced

open CircularList SearchTree Runs

variable {ω β : Type*} {pid : ω → Int} {q after : Queue ω β} {read unread : List (Entry β)}
  {total : Nat}

/-- Only pushes and pops, each buffer as large as any packet, and every process is
there when `kill` asks. -/
def Adequate (pid : ω → Int) (q : Queue ω β) : Call ω β → Prop
  | .push gone _ _ _ => ∀ worker, gone (pid worker) = false
  | .pop _ given dataLen =>
    given = true ∧ 0 < dataLen ∧ ∀ packet ∈ q.accepted, (packet.data.length : Int) ≤ dataLen
  | _ => False

/-- An adequate pop of a worker that `is_able_pop` lets in. -/
def AblePop (pid : ω → Int) (q : Queue ω β) : Call ω β → Prop
  | .pop worker given dataLen =>
    Adequate pid q (.pop worker given dataLen) ∧ isAblePop (q.workers worker) q.shm = true
  | _ => False

/-- What holds in every run of adequate calls. -/
structure Recorded (pid : ω → Int) (q : Queue ω β) (read unread : List (Entry β)) (total : Nat) :
    Prop extends Custody pid q read unread total, Ledger q read unread where
  lives : ∀ worker, q.alive worker = true

namespace Recorded

theorem push [DecidableEq ω] (recorded : Recorded pid q read unread total)
    (injective : pid.Injective) (balancing : Balancing Nat) {gone : Int → Bool}
    (here : ∀ worker, gone (pid worker) = false) (pData : Option (List β)) (key flag : Int) :
    ∃ unreadAfter totalAfter,
      Recorded pid (q.step pid balancing (.push gone pData key flag)) read unreadAfter
        totalAfter := by
  obtain ⟨reply, left, totalAfter, ran, reclaimed, pushed, custody⟩ :=
    recorded.toCustody.push injective balancing (fun worker _ => here worker) pData key flag
  have same : left = read := by
    cases reclaimed with
    | kept => rfl
    | cleaned oldest dead =>
      obtain ⟨worker, own, -⟩ := recorded.service.served _ oldest
      rw [own, here worker] at dead
      cases dead
  subst same
  refine ⟨unread ++ q.added pData key flag total reply, totalAfter, ?_⟩
  rw [ran]
  refine ⟨custody, recorded.toLedger.afterPush pushed, ?_⟩
  rw [Queue.afterPush_alive]
  exact recorded.lives

/-- An adequate pop. -/
theorem pop [DecidableEq ω] (recorded : Recorded pid q read unread total)
    (injective : pid.Injective) (balancing : Balancing Nat) {worker : ω} {given : Bool}
    {dataLen : Int} (adequate : Adequate pid q (.pop worker given dataLen)) :
    ∃ (reply : PopReply β) (held : Option (Entry β)) (found : Found β)
      (readAfter unreadAfter : List (Entry β)),
      q.step pid balancing (.pop worker given dataLen) = q.afterPop worker reply ∧
        Holds (q.workers worker) read held ∧
        Pops dataLen held read unread found readAfter unreadAfter ∧ found ≠ .tooLong ∧
        found.Replied (q.workers worker) reply ∧
        Recorded pid (q.afterPop worker reply) readAfter unreadAfter total := by
  obtain ⟨rfl, positive, large⟩ := adequate
  obtain ⟨reply, held, found, readAfter, unreadAfter, ran, holds, pops, replied, -, custody⟩ :=
    recorded.toCustody.pop injective balancing (recorded.lives worker) positive
  have enough : found ≠ .tooLong := by
    apply pops.ne_tooLong
    intro entry member
    exact large _ (List.mem_of_getElem? (recorded.accepted entry member))
  refine ⟨reply, held, found, readAfter, unreadAfter, by simp [Queue.step, ran], holds, pops,
    enough, replied, custody enough, ?_, recorded.lives⟩
  exact recorded.toLedger.afterPop recorded.toCustody injective recorded.lives holds pops enough
    replied

theorem step [DecidableEq ω] (recorded : Recorded pid q read unread total)
    (injective : pid.Injective) (balancing : Balancing Nat) {call : Call ω β}
    (adequate : Adequate pid q call) :
    ∃ readAfter unreadAfter totalAfter,
      Recorded pid (q.step pid balancing call) readAfter unreadAfter totalAfter := by
  cases call with
  | push gone pData key flag =>
    exact ⟨read, recorded.push injective balancing adequate pData key flag⟩
  | pop worker given dataLen =>
    obtain ⟨reply, held, found, readAfter, unreadAfter, ran, -, -, -, -, after⟩ :=
      recorded.pop injective balancing adequate
    exact ⟨readAfter, unreadAfter, total, ran ▸ after⟩
  | die => exact adequate.elim
  | clean4pid => exact adequate.elim
  | clean4key => exact adequate.elim

end Recorded

theorem recorded_of_reaches [DecidableEq ω] (injective : pid.Injective)
    {balancing : Balancing Nat} {rqLength nodes : Nat} {byte : β}
    (run : Reaches (Queue.step pid balancing) (Adequate pid) (.start rqLength nodes byte) q) :
    ∃ read unread total, Recorded pid q read unread total := by
  apply run.invariant
  · exact ⟨[], [], 0, custody_start pid rqLength nodes byte, ledger_start rqLength nodes byte,
      fun _ => rfl⟩
  · rintro q call ⟨read, unread, total, recorded⟩ adequate
    exact recorded.step injective balancing adequate

section Lines

theorem Ledger.handedIn_prefix (ledger : Ledger q read unread) (lane : Option Int) :
    q.handedIn lane <+: q.acceptedIn lane := ⟨_, ledger.lines lane⟩

theorem Queue.count_acceptedIn {seq : Nat} {lane : Option Int} (here : q.laneAt seq = some lane) :
    (q.acceptedIn lane).count seq = (List.range q.accepted.length).count seq :=
  List.count_filter (by simpa using here)

theorem Queue.count_handedIn {seq : Nat} {lane : Option Int} (here : q.laneAt seq = some lane) :
    (q.handedIn lane).count seq = (q.handed.map Handed.seq).count seq :=
  List.count_filter (by simpa using here)

/-- Every accepted packet stands in a line. -/
theorem Queue.laneAt_of_lt {seq : Nat} (below : seq < q.accepted.length) :
    ∃ lane, q.laneAt seq = some lane := by
  simp [laneAt, below]

/-- No packet is handed out twice. -/
theorem Ledger.nodup_handed (ledger : Ledger q read unread) : (q.handed.map Handed.seq).Nodup := by
  rw [List.nodup_iff_count_le_one]
  intro seq
  by_cases member : seq ∈ q.handed.map Handed.seq
  · obtain ⟨lane, here⟩ := q.laneAt_of_lt (ledger.seq_lt member)
    rw [← Queue.count_handedIn here]
    calc (q.handedIn lane).count seq
        ≤ (q.acceptedIn lane).count seq := (ledger.handedIn_prefix lane).sublist.count_le _
      _ = (List.range q.accepted.length).count seq := Queue.count_acceptedIn here
      _ ≤ 1 := List.nodup_iff_count_le_one.mp List.nodup_range seq
  · rw [List.count_eq_zero_of_not_mem member]
    exact Nat.zero_le _

theorem Ledger.length_handed_le (ledger : Ledger q read unread) :
    q.handed.length ≤ q.accepted.length := by
  have inside : (q.handed.map Handed.seq) ⊆ List.range q.accepted.length := by
    intro seq member
    exact List.mem_range.mpr (ledger.seq_lt member)
  have fewer := (List.subperm_of_subset ledger.nodup_handed inside).length_le
  simpa using fewer

/-- When no line waits, everything accepted was handed out. -/
theorem Ledger.perm_of_pending_nil (ledger : Ledger q read unread)
    (none : ∀ lane, pending lane read unread = []) :
    (q.handed.map Handed.seq).Perm (List.range q.accepted.length) := by
  rw [List.perm_iff_count]
  intro seq
  by_cases below : seq < q.accepted.length
  · obtain ⟨lane, here⟩ := q.laneAt_of_lt below
    have all := ledger.lines lane
    rw [none, List.map_nil, List.append_nil] at all
    rw [← Queue.count_handedIn here, all, Queue.count_acceptedIn here]
  · have notHanded : seq ∉ q.handed.map Handed.seq := fun member => below (ledger.seq_lt member)
    have notAccepted : seq ∉ List.range q.accepted.length := by simpa using below
    rw [List.count_eq_zero_of_not_mem notHanded, List.count_eq_zero_of_not_mem notAccepted]

end Lines

section Progress

theorem isAblePop_eq_false {w : Worker} {s : Shm β} :
    isAblePop w s = false ↔
      s.usedPReadHead = 0 ∧ (w.mLastFlag ≠ 0 → listEmpty s.homoList w.mPAssistArrayNode = true) := by
  simp [isAblePop]

theorem Custody.unread_eq_nil (custody : Custody pid q read unread total)
    (drained : q.shm.usedPReadHead = 0) : unread = [] := by
  cases unread with
  | nil => rfl
  | cons entry rest =>
    have head := custody.packets.usedPReadHead_cons
    rw [drained] at head
    exact absurd head.symm (custody.packets.node_ne_zero (by simp))

/-- A worker that may not pop has nothing unread, and nothing waits behind its packet. -/
theorem Custody.of_unable (custody : Custody pid q read unread total) {worker : ω}
    (unable : isAblePop (q.workers worker) q.shm = false) :
    unread = [] ∧ ∀ entry, Holds (q.workers worker) read (some entry) →
      sameKey entry.key read = [entry] := by
  obtain ⟨noneUnread, alone⟩ := isAblePop_eq_false.mp unable
  constructor
  · exact custody.unread_eq_nil noneUnread
  · rintro entry ⟨busy, oldest, node⟩
    obtain ⟨rest, shape⟩ := sameKey_of_front oldest
    have none := (custody.packets.filed.listEmpty_iff shape).mp (node ▸ alone busy)
    rw [shape, none]

/-- When no worker may pop, no line waits. -/
theorem Custody.pending_eq_nil [Nonempty ω] (custody : Custody pid q read unread total)
    (unable : ∀ worker, isAblePop (q.workers worker) q.shm = false) (lane : Option Int) :
    pending lane read unread = [] := by
  obtain ⟨worker⟩ := ‹Nonempty ω›
  obtain ⟨rfl, -⟩ := custody.of_unable (unable worker)
  cases lane with
  | none => rfl
  | some key =>
    have tail : (sameKey key read).tail = [] := by
      cases oldest : front key read with
      | none =>
        rw [sameKey_eq_nil.mpr (front_eq_none.mp oldest)]
        rfl
      | some entry =>
        obtain ⟨-, rfl⟩ := front_eq_some oldest
        obtain ⟨server, -, busy, node⟩ := custody.service.served entry oldest
        rw [(custody.of_unable (unable server)).2 entry ⟨busy, oldest, node⟩]
        rfl
    simpa [pending] using tail

/-- A pop that `is_able_pop` lets in reads on or hands out a packet. -/
theorem Custody.progress (custody : Custody pid q read unread total) {worker : ω}
    (able : isAblePop (q.workers worker) q.shm = true) {dataLen : Int}
    {held : Option (Entry β)} {found : Found β} {readAfter unreadAfter : List (Entry β)}
    (holds : Holds (q.workers worker) read held)
    (pops : Pops dataLen held read unread found readAfter unreadAfter) (enough : found ≠ .tooLong) :
    unreadAfter.length < unread.length ∨
      unreadAfter.length = unread.length ∧ ∃ entry, found.entry = some entry := by
  cases pops with
  | tooLong => exact absurd rfl enough
  | promote => exact .inr ⟨rfl, _, rfl⟩
  | finish first alone scan =>
    left
    apply scan.length_lt _ enough
    rintro rfl
    obtain ⟨busy, -, node⟩ := holds
    rename_i older younger last
    have whole : sameKey last.key (older ++ last :: younger) = [last] := by
      rw [sameKey_append, first, sameKey_cons, if_pos rfl, alone]
      rfl
    have empty := (custody.packets.filed.listEmpty_iff whole).mpr rfl
    have unable : isAblePop (q.workers worker) q.shm = false :=
      isAblePop_eq_false.mpr ⟨custody.packets.usedPReadHead_nil, fun _ => node ▸ empty⟩
    rw [unable] at able
    cases able
  | idle scan =>
    left
    apply scan.length_lt _ enough
    rintro rfl
    have unable : isAblePop (q.workers worker) q.shm = false :=
      isAblePop_eq_false.mpr ⟨custody.packets.usedPReadHead_nil, fun busy => absurd holds busy⟩
    rw [unable] at able
    cases able

/-- What bounds the pops to come: packets unread, and packets not handed out. -/
def Ranked (pid : ω → Int) (q : Queue ω β) (rank : Nat) : Prop :=
  ∃ read unread total, Recorded pid q read unread total ∧
    rank = unread.length + (q.accepted.length - q.handed.length)

theorem Ranked.lower [DecidableEq ω] (injective : pid.Injective) (balancing : Balancing Nat)
    {high : Nat} (ranked : Ranked pid q high) {call : Call ω β} (able : AblePop pid q call) :
    ∃ low < high, Ranked pid (q.step pid balancing call) low := by
  obtain ⟨read, unread, total, recorded, rfl⟩ := ranked
  cases call with
  | push => exact able.elim
  | die => exact able.elim
  | clean4pid => exact able.elim
  | clean4key => exact able.elim
  | pop worker given dataLen =>
    obtain ⟨adequate, lets⟩ := able
    obtain ⟨reply, held, found, readAfter, unreadAfter, ran, holds, pops, enough, replied, next⟩ :=
      recorded.pop injective balancing adequate
    have progress := recorded.toCustody.progress lets holds pops enough
    have handed := recorded.toLedger.handed_eq recorded.packets pops replied
    have within := next.toLedger.length_handed_le
    have same : (q.afterPop worker reply).accepted = q.accepted := rfl
    rw [ran]
    refine ⟨_, ?_, readAfter, unreadAfter, total, next, rfl⟩
    rw [same] at within ⊢
    rw [handed] at within ⊢
    rcases progress with fewer | ⟨level, entry, given⟩
    · simp only [List.length_append] at within ⊢
      omega
    · rw [given] at within ⊢
      simp only [List.length_append, Option.map_some, Option.toList_some, List.length_singleton]
        at within ⊢
      omega

end Progress

/-- The worker holds a packet with a barrier, of this key. -/
def Queue.HoldsKey (q : Queue ω β) (worker : ω) (key : Int) : Prop :=
  ∃ seq packet, q.holding worker = some seq ∧ q.accepted[seq]? = some packet ∧
    packet.flag ≠ 0 ∧ packet.key = key

/-- The worker holds a packet pushed with this flag. -/
def Queue.HoldsFlag (q : Queue ω β) (worker : ω) (flag : Int) : Prop :=
  ∃ seq packet, q.holding worker = some seq ∧ q.accepted[seq]? = some packet ∧
    packet.flag = flag

theorem Recorded.holds_of_holdsKey (recorded : Recorded pid q read unread total) {worker : ω}
    {key : Int} (holdsKey : q.HoldsKey worker key) :
    ∃ entry, Holds (q.workers worker) read (some entry) ∧ entry.key = key := by
  obtain ⟨seq, packet, held, accepted, barrier, rfl⟩ := holdsKey
  obtain ⟨other, otherAccepted, holder⟩ := recorded.holding worker seq held
  obtain rfl : packet = other := Option.some.inj (accepted.symm.trans otherAccepted)
  obtain ⟨entry, holds, rfl⟩ := holder barrier
  have own := recorded.accepted entry (List.mem_append_left _ (front_eq_some holds.2.1).1)
  obtain rfl := Option.some.inj (accepted.symm.trans own)
  exact ⟨entry, holds, rfl⟩

/-- In every run of adequate calls: at most one worker holds a packet of a key, the packets
of a key and those without a barrier are handed out in the order of their pushes, none
twice; pops that `is_able_pop` lets in come to an end, and then everything accepted
was handed out. -/
theorem one_holder_in_order [DecidableEq ω] [Nonempty ω] (injective : pid.Injective)
    {balancing : Balancing Nat} {rqLength nodes : Nat} {byte : β}
    (run : Reaches (Queue.step pid balancing) (Adequate pid) (.start rqLength nodes byte) q) :
    (∀ key first second, q.HoldsKey first key → q.HoldsKey second key → first = second) ∧
      (∀ lane, q.handedIn lane <+: q.acceptedIn lane) ∧ (q.handed.map Handed.seq).Nodup ∧
      ((∀ worker, isAblePop (q.workers worker) q.shm = false) →
        (q.handed.map Handed.seq).Perm (List.range q.accepted.length)) ∧
      ∃ bound, ∀ length after,
        Lasts (Queue.step pid balancing) (AblePop pid) q length after → length ≤ bound := by
  obtain ⟨read, unread, total, recorded⟩ := recorded_of_reaches injective run
  refine ⟨?_, recorded.toLedger.handedIn_prefix, recorded.toLedger.nodup_handed, ?_, ?_⟩
  · intro key first second firstHolds secondHolds
    obtain ⟨entry, holds, rfl⟩ := recorded.holds_of_holdsKey firstHolds
    obtain ⟨other, otherHolds, same⟩ := recorded.holds_of_holdsKey secondHolds
    have oldest := otherHolds.2.1
    rw [same, holds.2.1] at oldest
    obtain rfl := Option.some.inj oldest
    exact recorded.service.worker_eq injective (recorded.lives first) (recorded.lives second) holds
      otherHolds
  · intro unable
    exact recorded.toLedger.perm_of_pending_nil (recorded.toCustody.pending_eq_nil unable)
  · refine ⟨unread.length + (q.accepted.length - q.handed.length), ?_⟩
    intro length after lasts
    have start : Ranked pid q (unread.length + (q.accepted.length - q.handed.length)) :=
      ⟨read, unread, total, recorded, rfl⟩
    exact lasts.length_le start fun ranked able => ranked.lower injective balancing able

/-- The process ids of two workers, for the examples. -/
def examplePid (worker : Fin 2) : Int := worker + 100

def earlier : Fin 2 := 0

theorem examplePid_injective : examplePid.Injective := by
  intro first second same
  unfold examplePid at same
  omega

/-- A push when every process is there. -/
def pushing (key flag : Int) (data : List Nat) : Call (Fin 2) Nat :=
  .push (fun _ => false) (some data) key flag

/-- The calls in turn, on a ring of 16 bytes and 4 nodes. -/
def ranOn (calls : List (Call (Fin 2) Nat)) : Queue (Fin 2) Nat :=
  calls.foldl (Queue.step examplePid .still) (.start 16 4 0)

/-- Two packets of two keys and one flag, and a worker for each. -/
def twoKeys : Queue (Fin 2) Nat :=
  ranOn [pushing 1 7 [10, 11], pushing 2 7 [20], .pop 0 true 100, .pop 1 true 100]

theorem twoKeys_reached :
    Reaches (Queue.step examplePid .still) (Adequate examplePid) (.start 16 4 0) twoKeys := by
  simp only [twoKeys, ranOn, List.foldl_cons]
  refine .call (.call (.call (.call .refl fun _ => rfl) fun _ => rfl) ⟨rfl, by decide, ?_⟩)
    ⟨rfl, by decide, ?_⟩
  · decide
  · decide

theorem one_holder_in_order_two :
    twoKeys.HoldsKey 0 1 ∧ twoKeys.HoldsKey 1 2 ∧ ¬ twoKeys.HoldsKey 1 1 ∧
      (twoKeys.handed.map Handed.seq).Nodup := by
  obtain ⟨alone, -, nodup, -, -⟩ := one_holder_in_order examplePid_injective twoKeys_reached
  have first : twoKeys.HoldsKey 0 1 := ⟨0, ⟨1, 7, [10, 11]⟩, rfl, rfl, by decide, rfl⟩
  refine ⟨first, ⟨1, ⟨2, 7, [20]⟩, rfl, rfl, by decide, rfl⟩, ?_, nodup⟩
  intro second
  exact absurd (alone 1 0 1 first second) (by decide)

/-- Two workers hold packets of one flag. -/
theorem one_flag_two_holders :
    Reaches (Queue.step examplePid .still) (Adequate examplePid) (.start 16 4 0) twoKeys ∧
      twoKeys.HoldsFlag 0 7 ∧ twoKeys.HoldsFlag 1 7 :=
  ⟨twoKeys_reached, ⟨0, ⟨1, 7, [10, 11]⟩, rfl, rfl, rfl⟩, ⟨1, ⟨2, 7, [20]⟩, rfl, rfl, rfl⟩⟩

/-- In every run of adequate calls a packet is handed out with the bytes that were pushed,
and the part of the ring that a used node names holds them. -/
theorem packets_intact [DecidableEq ω] (injective : pid.Injective)
    {balancing : Balancing Nat} {rqLength nodes : Nat} {byte : β}
    (run : Reaches (Queue.step pid balancing) (Adequate pid) (.start rqLength nodes byte) q) :
    (∀ handed ∈ q.handed,
      ∃ packet, q.accepted[handed.seq]? = some packet ∧ handed.bytes = packet.data) ∧
      ∀ node, q.shm.Used node →
        ∃ packet, q.accepted[q.carries node]? = some packet ∧
          q.shm.length node = packet.data.length ∧
          RingBuffer.load q.shm.bufferLen q.shm.pBuffer (q.shm.addr node) (q.shm.length node)
            = packet.data := by
  obtain ⟨read, unread, total, recorded⟩ := recorded_of_reaches injective run
  refine ⟨recorded.bytes, ?_⟩
  intro node used
  obtain ⟨entry, member, rfl⟩ := recorded.packets.used_iff.mp used
  have stored := recorded.packets.stored member
  refine ⟨⟨entry.key, entry.flag, entry.data⟩, ?_, stored.length, ?_⟩
  · rw [recorded.carries entry member]
    exact recorded.accepted entry member
  · rw [stored.addr, stored.length, RingBuffer.load_mod, stored.bytes]

theorem packets_intact_two :
    twoKeys.handed = [⟨0, 0, [10, 11]⟩, ⟨1, 1, [20]⟩] ∧
      ∀ node, twoKeys.shm.Used node →
        ∃ packet, twoKeys.accepted[twoKeys.carries node]? = some packet ∧
          twoKeys.shm.length node = packet.data.length ∧
          RingBuffer.load twoKeys.shm.bufferLen twoKeys.shm.pBuffer (twoKeys.shm.addr node)
            (twoKeys.shm.length node) = packet.data :=
  ⟨by decide, (packets_intact examplePid_injective twoKeys_reached).2⟩

end Taomee.Barrier.Balanced
