import Taomee.Barrier.Balanced.Scan
import Taomee.Library.Runs

/-!
# The balanced barrier queue and its workers

The queue with any number of workers, one atomic call at a time. The system keeps a
record of what was pushed and popped: packets are numbered by their pushes, and
`carries` says which push filled a node. `Custody` and `Ledger` are what every call keeps.
-/

namespace Taomee.Barrier.Balanced

open CircularList SearchTree Runs

variable {ω β : Type*}

/-- A packet as `push` was given it. -/
structure Packet (β : Type*) where
  key : Int
  flag : Int
  data : List β
  deriving DecidableEq

def Packet.lane (packet : Packet β) : Option Int :=
  if packet.flag = 0 then none else some packet.key

/-- A packet handed out: to which worker, the number of its push, and the bytes copied. -/
structure Handed (ω β : Type*) where
  worker : ω
  seq : Nat
  bytes : List β
  deriving DecidableEq

/-- The queue, its workers and its past. A worker holds a packet until it pops again. -/
structure Queue (ω β : Type*) where
  shm : Shm β
  workers : ω → Worker
  alive : ω → Bool
  carries : Nat → Nat
  accepted : List (Packet β)
  handed : List (Handed ω β)
  holding : ω → Option Nat

/-- After `init` with `rqLength`: one more byte for the ring, and `nodes` nodes. -/
def Queue.start (rqLength nodes : Nat) (byte : β) : Queue ω β where
  shm := .fresh (rqLength + 1) nodes byte
  workers _ := .initial
  alive _ := true
  carries _ := 0
  accepted := []
  handed := []
  holding _ := none

/-- The calls on the queue. `gone` are the answers of `kill(pid, 0)`, `die` is the end
of a worker process. -/
inductive Call (ω β : Type*) where
  | push (gone : Int → Bool) (pData : Option (List β)) (key flag : Int)
  | pop (worker : ω) (given : Bool) (dataLen : Int)
  | die (worker : ω)
  | clean4pid (pid : Int)
  | clean4key (key : Int)

namespace Queue

def afterPush (q : Queue ω β) (pData : Option (List β)) (key flag : Int)
    (reply : Shm.PushReply β) : Queue ω β :=
  match reply.errno, pData with
  | none, some data =>
    { q with
      shm := reply.shm
      carries := Function.update q.carries reply.node q.accepted.length
      accepted := q.accepted ++ [⟨key, flag, data⟩] }
  | _, _ => { q with shm := reply.shm }

section Step

variable [DecidableEq ω]

/-- The number of the packet that a pop handed out. -/
def popped (q : Queue ω β) (reply : PopReply β) : Option Nat :=
  if reply.node = 0 then none else some (q.carries reply.node)

def afterPop (q : Queue ω β) (worker : ω) (reply : PopReply β) : Queue ω β :=
  { q with
    shm := reply.shm
    workers := Function.update q.workers worker reply.worker
    handed := q.handed ++ ((q.popped reply).map fun seq => ⟨worker, seq, reply.data⟩).toList
    holding := Function.update q.holding worker (q.popped reply) }

/-- One call. A call that does not return, of which there is none, changes nothing. -/
def step (pid : ω → Int) (balancing : Balancing Nat) (q : Queue ω β) : Call ω β → Queue ω β
  | .push gone pData key flag =>
    (Shm.push balancing gone true pData key flag q.shm).elim q (q.afterPush pData key flag)
  | .pop worker given dataLen =>
    (Balanced.pop balancing (pid worker) dataLen given (q.workers worker) q.shm).elim q
      (q.afterPop worker)
  | .die worker => { q with alive := Function.update q.alive worker false }
  | .clean4pid pid => (q.shm.clean4pid balancing pid).elim q fun shm => { q with shm := shm }
  | .clean4key key => (q.shm.clean4key balancing key).elim q fun shm => { q with shm := shm }

end Step

theorem afterPush_shm (q : Queue ω β) (pData : Option (List β)) (key flag : Int)
    (reply : Shm.PushReply β) : (q.afterPush pData key flag reply).shm = reply.shm := by
  unfold afterPush
  split <;> rfl

theorem afterPush_alive (q : Queue ω β) (pData : Option (List β)) (key flag : Int)
    (reply : Shm.PushReply β) : (q.afterPush pData key flag reply).alive = q.alive := by
  unfold afterPush
  split <;> rfl

/-- The line of a packet, by its number. -/
def laneAt (q : Queue ω β) (seq : Nat) : Option (Option Int) := q.accepted[seq]?.map Packet.lane

/-- The packets of a line that were accepted, in the order of their pushes. -/
def acceptedIn (q : Queue ω β) (lane : Option Int) : List Nat :=
  (List.range q.accepted.length).filter fun seq => q.laneAt seq = some lane

/-- The packets of a line that were handed out, in the order of the pops. -/
def handedIn (q : Queue ω β) (lane : Option Int) : List Nat :=
  (q.handed.map Handed.seq).filter fun seq => q.laneAt seq = some lane

end Queue

section Service

variable {pid : ω → Int} {workers : ω → Worker} {alive : ω → Bool} {flag changed : Nat → Int}
  {read unread : List (Entry β)}

/-- Who answers for the oldest packets: each has a worker, whose process id is its flag,
and the workers alive have the packets they name. -/
structure Service (pid : ω → Int) (workers : ω → Worker) (alive : ω → Bool) (flag : Nat → Int)
    (read : List (Entry β)) : Prop where
  barrier : ∀ entry ∈ read, entry.flag ≠ 0
  served : ∀ entry, front entry.key read = some entry →
    ∃ worker, flag entry.node = pid worker ∧ (workers worker).mLastFlag ≠ 0 ∧
      (workers worker).mPAssistArrayNode = entry.node
  serving : ∀ worker, alive worker = true → (workers worker).mLastFlag ≠ 0 →
    ∃ entry, front entry.key read = some entry ∧
      (workers worker).mPAssistArrayNode = entry.node ∧ flag entry.node = pid worker
  init : ∀ worker, (workers worker).mInit = true

namespace Service

/-- Process ids tell the oldest packets apart. -/
theorem distinct (service : Service pid workers alive flag read) (injective : pid.Injective)
    (nodup : (read.map Entry.node).Nodup) : DistinctFlags flag read := by
  intro first second firstOldest secondOldest same
  obtain ⟨one, oneFlag, -, oneNode⟩ := service.served first firstOldest
  obtain ⟨two, twoFlag, -, twoNode⟩ := service.served second secondOldest
  have sameWorker : one = two := injective (by rw [← oneFlag, ← twoFlag, same])
  subst sameWorker
  apply List.inj_on_of_nodup_map nodup (front_eq_some firstOldest).1 (front_eq_some secondOldest).1
  rw [← oneNode, ← twoNode]

/-- The packet that a worker alive has not finished. -/
theorem holds (service : Service pid workers alive flag read) {worker : ω}
    (lives : alive worker = true) : ∃ held, Holds (workers worker) read held := by
  by_cases idle : (workers worker).mLastFlag = 0
  · exact ⟨none, idle⟩
  · obtain ⟨entry, oldest, node, -⟩ := service.serving worker lives idle
    exact ⟨some entry, idle, oldest, node⟩

/-- A packet that two workers alive hold is held by one. -/
theorem worker_eq (service : Service pid workers alive flag read) (injective : pid.Injective)
    {first second : ω} (firstAlive : alive first = true) (secondAlive : alive second = true)
    {entry : Entry β}
    (firstHolds : Holds (workers first) read (some entry))
    (secondHolds : Holds (workers second) read (some entry)) : first = second := by
  have flagged : ∀ worker, alive worker = true → Holds (workers worker) read (some entry) →
      flag entry.node = pid worker := by
    rintro worker lives ⟨busy, oldest, node⟩
    obtain ⟨other, otherOldest, otherNode, own⟩ := service.serving worker lives busy
    rw [← node, otherNode]
    exact own
  apply injective
  rw [← flagged first firstAlive firstHolds, ← flagged second secondAlive secondHolds]

/-- Only the flags of packets that were read count. -/
theorem congr_flag (service : Service pid workers alive flag read)
    (same : ∀ entry ∈ read, changed entry.node = flag entry.node) :
    Service pid workers alive changed read where
  barrier := service.barrier
  served entry oldest := by
    rw [same entry (front_eq_some oldest).1]
    exact service.served entry oldest
  serving worker lives busy := by
    obtain ⟨entry, oldest, node, own⟩ := service.serving worker lives busy
    exact ⟨entry, oldest, node, (same entry (front_eq_some oldest).1).trans own⟩
  init := service.init

/-- The packets of one key go when no worker alive holds them. -/
theorem drop (service : Service pid workers alive flag read) {entry : Entry β}
    (oldest : front entry.key read = some entry)
    (dead : ∀ worker, alive worker = true → flag entry.node ≠ pid worker) :
    Service pid workers alive flag (otherKeys entry.key read) where
  barrier other member := service.barrier other (mem_otherKeys.mp member).1
  served other found := by
    rw [front_otherKeys] at found
    split at found
    case isTrue => cases found
    case isFalse => exact service.served other found
  serving worker lives busy := by
    obtain ⟨other, found, node, own⟩ := service.serving worker lives busy
    refine ⟨other, ?_, node, own⟩
    rw [front_otherKeys, if_neg, found]
    intro same
    rw [same, oldest] at found
    obtain rfl := Option.some.inj found
    exact dead worker lives own
  init := service.init

/-- Packets of dead workers come back into service. -/
theorem reclaimed (service : Service pid workers alive flag read) {gone : Int → Bool}
    {left : List (Entry β)} (reclaimed : Reclaimed gone flag read left)
    (lives : ∀ worker, alive worker = true → gone (pid worker) = false) :
    Service pid workers alive flag left := by
  cases reclaimed with
  | kept => exact service
  | cleaned oldest dead =>
    apply service.drop oldest
    intro worker here own
    rw [own, lives worker here] at dead
    cases dead

/-- A worker may die at any time. -/
theorem die [DecidableEq ω] (service : Service pid workers alive flag read) (worker : ω) :
    Service pid workers (Function.update alive worker false) flag read where
  barrier := service.barrier
  served := service.served
  serving other lives := by
    apply service.serving other
    by_cases same : other = worker
    · subst same
      simp at lives
    · rwa [Function.update_of_ne same] at lives
  init := service.init

section Pop

variable {dataLen : Int} {found : Found β} {readAfter unreadAfter : List (Entry β)}
  {held : Option (Entry β)} {worker : ω} {reply : PopReply β}

theorem pop_init (replied : found.Replied (workers worker) reply) :
    reply.worker.mInit = (workers worker).mInit := by
  cases found with
  | nothing => rw [replied.2.2]
  | tooLong => rw [replied.2.2]
  | free entry => rw [replied.2.2.2]
  | taken entry => exact replied.2.2.2.1

/-- A pop leaves the flags of the oldest packets alone. -/
theorem flags_eq (pops : Pops dataLen held read unread found readAfter unreadAfter)
    (nodup : ((read ++ unread).map Entry.node).Nodup) {entry : Entry β}
    (oldest : front entry.key read = some entry) (p : Int) :
    found.flags p flag entry.node = flag entry.node := by
  cases found with
  | nothing => rfl
  | tooLong => rfl
  | free => rfl
  | taken taken =>
    apply Function.update_of_ne
    intro same
    have member := List.mem_append_left unread (front_eq_some oldest).1
    obtain rfl := List.inj_on_of_nodup_map nodup member (pops.entry_mem rfl) same
    exact pops.front_ne nodup rfl oldest

/-- A pop moves the worker to the packet it takes. -/
theorem pop [DecidableEq ω] (service : Service pid workers alive flag read) (injective : pid.Injective)
    (nodup : ((read ++ unread).map Entry.node).Nodup) (lives : alive worker = true)
    (holds : Holds (workers worker) read held)
    (pops : Pops dataLen held read unread found readAfter unreadAfter)
    (enough : found ≠ .tooLong) (replied : found.Replied (workers worker) reply) :
    Service pid (Function.update workers worker reply.worker) alive
      (found.flags (pid worker) flag) readAfter where
  barrier := pops.barrier service.barrier
  served entry oldest := by
    rcases (pops.front_iff enough entry.key).mp oldest with ⟨old, other⟩ | ⟨rfl, -⟩
    · obtain ⟨server, flagged, busy, node⟩ := service.served entry old
      have different : server ≠ worker := by
        rintro rfl
        cases held with
        | none => exact busy holds
        | some last =>
          obtain ⟨-, lastOldest, lastNode⟩ := holds
          apply other
          rw [List.map_append] at nodup
          rw [List.inj_on_of_nodup_map (List.nodup_append.mp nodup).1 (front_eq_some old).1
            (front_eq_some lastOldest).1 (node.symm.trans lastNode)]
      refine ⟨server, ?_⟩
      rw [Function.update_of_ne different, flags_eq pops nodup old]
      exact ⟨flagged, busy, node⟩
    · obtain ⟨-, -, -, -, busy, node⟩ := replied
      refine ⟨worker, ?_⟩
      rw [Function.update_self]
      exact ⟨Function.update_self _ _ _, busy, node⟩
  serving other otherLives busy := by
    by_cases same : other = worker
    · subst same
      rw [Function.update_self] at busy ⊢
      cases found with
      | tooLong => exact absurd rfl enough
      | nothing => exact absurd (congrArg Worker.mLastFlag replied.2.2) busy
      | free entry => exact absurd (congrArg Worker.mLastFlag replied.2.2.2) busy
      | taken entry =>
        obtain ⟨-, -, -, -, -, node⟩ := replied
        refine ⟨entry, ?_, node, Function.update_self _ _ _⟩
        exact (pops.front_iff enough entry.key).mpr (.inr ⟨rfl, rfl⟩)
    · rw [Function.update_of_ne same] at busy ⊢
      obtain ⟨entry, oldest, node, own⟩ := service.serving other otherLives busy
      refine ⟨entry, ?_, node, (flags_eq pops nodup oldest _).trans own⟩
      refine (pops.front_iff enough entry.key).mpr (.inl ⟨oldest, ?_⟩)
      rintro rfl
      exact same (service.worker_eq injective otherLives lives ⟨busy, oldest, node⟩ holds)
  init other := by
    by_cases same : other = worker
    · subst same
      rw [Function.update_self, pop_init replied, service.init]
    · rw [Function.update_of_ne same, service.init]

end Pop

end Service

end Service

section Custody

variable {pid : ω → Int} {q : Queue ω β} {read unread left : List (Entry β)} {total : Nat}
  {pData : Option (List β)} {key flag : Int}

/-- The queue is well formed and every oldest packet has its worker. -/
structure Custody (pid : ω → Int) (q : Queue ω β) (read unread : List (Entry β)) (total : Nat) :
    Prop where
  packets : q.shm.Packets read unread total
  service : Service pid q.workers q.alive q.shm.flag read

/-- The packet that a push added. -/
def Queue.added (q : Queue ω β) (pData : Option (List β)) (key flag : Int) (total : Nat)
    (reply : Shm.PushReply β) : List (Entry β) :=
  match reply.errno, pData with
  | none, some data => [⟨q.accepted.length, reply.node, key, flag, total, data⟩]
  | _, _ => []

/-- Nothing is in custody at the start. -/
theorem custody_start (pid : ω → Int) (rqLength nodes : Nat) (byte : β) :
    Custody pid (Queue.start rqLength nodes byte) [] [] 0 where
  packets := fresh_packets (Nat.succ_pos _)
  service := ⟨nofun, nofun, fun _ _ busy => absurd rfl busy, fun _ => rfl⟩

namespace Custody

/-- Different workers hold different flags. -/
theorem distinct (custody : Custody pid q read unread total) (injective : pid.Injective) :
    DistinctFlags q.shm.flag read := by
  have nodup := custody.packets.nodup_nodes
  rw [List.map_append] at nodup
  exact custody.service.distinct injective (List.nodup_append.mp nodup).1

/-- A push keeps the custody. -/
theorem afterPush {reply : Shm.PushReply β}
    (service : Service pid q.workers q.alive q.shm.flag left)
    (pushed : Pushed q.shm pData key flag left unread total reply) :
    ∃ after, Custody pid (q.afterPush pData key flag reply) left
      (unread ++ q.added pData key flag total reply) after := by
  cases pushed with
  | refused set flags size nodes packets =>
    refine ⟨total, ?_, ?_⟩
    · simpa [Queue.afterPush, Queue.added, set] using packets
    · simpa [Queue.afterPush, set, flags] using service
  | accepted set given fresh flags size nodes packets =>
    rename_i data
    refine ⟨total + data.length, ?_, ?_⟩
    · simpa [Queue.afterPush, Queue.added, set, given] using packets q.accepted.length
    · have kept : Service pid q.workers q.alive reply.shm.flag left := by
        apply service.congr_flag
        intro entry member
        rw [flags]
        apply Function.update_of_ne
        intro same
        apply fresh
        rw [← same]
        exact List.mem_map_of_mem (List.mem_append_left _ member)
      simpa [Queue.afterPush, set, given] using kept

/-- A push keeps the packets read so far, but for those of a process that is gone. -/
theorem push [DecidableEq ω] (custody : Custody pid q read unread total)
    (injective : pid.Injective) (balancing : Balancing Nat) {gone : Int → Bool}
    (lives : ∀ worker, q.alive worker = true → gone (pid worker) = false)
    (pData : Option (List β)) (key flag : Int) :
    ∃ (reply : Shm.PushReply β) (left : List (Entry β)) (after : Nat),
      q.step pid balancing (.push gone pData key flag) = q.afterPush pData key flag reply ∧
        Reclaimed gone q.shm.flag read left ∧
        Pushed q.shm pData key flag left unread total reply ∧
        Custody pid (q.afterPush pData key flag reply) left
          (unread ++ q.added pData key flag total reply) after := by
  obtain ⟨reply, left, ran, reclaimed, pushed⟩ :=
    custody.packets.push balancing gone (custody.distinct injective) pData key flag
  obtain ⟨after, kept⟩ := afterPush (custody.service.reclaimed reclaimed lives) pushed
  exact ⟨reply, left, after, by simp [Queue.step, ran], reclaimed, pushed, kept⟩

/-- A pop of a worker alive, unless its buffer is too small. -/
theorem pop [DecidableEq ω] (custody : Custody pid q read unread total)
    (injective : pid.Injective) (balancing : Balancing Nat) {worker : ω}
    (lives : q.alive worker = true) {dataLen : Int} (positive : 0 < dataLen) :
    ∃ (reply : PopReply β) (held : Option (Entry β)) (found : Found β)
      (readAfter unreadAfter : List (Entry β)),
      Balanced.pop balancing (pid worker) dataLen true (q.workers worker) q.shm = some reply ∧
        Holds (q.workers worker) read held ∧
        Pops dataLen held read unread found readAfter unreadAfter ∧
        found.Replied (q.workers worker) reply ∧ q.shm.SameRing reply.shm ∧
        (found ≠ .tooLong → Custody pid (q.afterPop worker reply) readAfter unreadAfter total) := by
  obtain ⟨held, holds⟩ := custody.service.holds lives
  obtain ⟨reply, found, readAfter, unreadAfter, ran, pops, replied, flags, ring, packets⟩ :=
    pop_pops balancing (pid worker) custody.packets holds (custody.service.init worker) positive
  refine ⟨reply, held, found, readAfter, unreadAfter, ran, holds, pops, replied, ring, ?_⟩
  intro enough
  refine ⟨packets, ?_⟩
  have service := custody.service.pop injective custody.packets.nodup_nodes lives holds pops enough
    replied
  simpa [Queue.afterPop, flags] using service

end Custody

end Custody

section Ledger

variable {pid : ω → Int} {q : Queue ω β} {read unread left : List (Entry β)} {total : Nat}
  {pData : Option (List β)} {key flag : Int}

/-- The record of the past agrees with the packets in the queue. -/
structure Ledger (q : Queue ω β) (read unread : List (Entry β)) : Prop where
  carries : ∀ entry ∈ read ++ unread, q.carries entry.node = entry.seq
  accepted : ∀ entry ∈ read ++ unread,
    q.accepted[entry.seq]? = some ⟨entry.key, entry.flag, entry.data⟩
  lines : ∀ lane, q.handedIn lane ++ (pending lane read unread).map Entry.seq = q.acceptedIn lane
  bytes : ∀ handed ∈ q.handed,
    ∃ packet, q.accepted[handed.seq]? = some packet ∧ handed.bytes = packet.data
  holding : ∀ worker seq, q.holding worker = some seq →
    ∃ packet, q.accepted[seq]? = some packet ∧
      (packet.flag ≠ 0 → ∃ entry, Holds (q.workers worker) read (some entry) ∧ entry.seq = seq)

/-- The books are empty at the start. -/
theorem ledger_start (rqLength nodes : Nat) (byte : β) :
    Ledger (Queue.start (ω := ω) rqLength nodes byte) [] [] where
  carries := nofun
  accepted := nofun
  lines lane := by cases lane <;> rfl
  bytes := nofun
  holding := nofun

theorem laneOf_eq (entry : Entry β) :
    laneOf entry = Packet.lane ⟨entry.key, entry.flag, entry.data⟩ := rfl

section Lines

variable {grown : Queue ω β} {packet : Packet β}

theorem Queue.laneAt_push (accepted : grown.accepted = q.accepted ++ [packet]) {seq : Nat}
    (below : seq < q.accepted.length) : grown.laneAt seq = q.laneAt seq := by
  rw [laneAt, laneAt, accepted, List.getElem?_append_left below]

/-- A packet more in its lane. -/
theorem Queue.acceptedIn_push (accepted : grown.accepted = q.accepted ++ [packet])
    (lane : Option Int) :
    grown.acceptedIn lane =
      q.acceptedIn lane ++ if packet.lane = lane then [q.accepted.length] else [] := by
  have before : (List.range q.accepted.length).filter (fun seq => grown.laneAt seq = some lane)
      = q.acceptedIn lane := by
    apply List.filter_congr
    intro seq member
    rw [laneAt_push accepted (List.mem_range.mp member)]
  have last : grown.laneAt q.accepted.length = some packet.lane := by
    rw [laneAt, accepted, List.getElem?_concat_length]
    rfl
  rw [acceptedIn, accepted, List.length_append, List.length_singleton, List.range_succ,
    List.filter_append, before]
  by_cases own : packet.lane = lane
  · simp [last, own]
  · simp [last, own]

/-- A push hands nothing out. -/
theorem Queue.handedIn_push (accepted : grown.accepted = q.accepted ++ [packet])
    (handed : grown.handed = q.handed)
    (below : ∀ seq ∈ q.handed.map Handed.seq, seq < q.accepted.length) (lane : Option Int) :
    grown.handedIn lane = q.handedIn lane := by
  rw [handedIn, handed]
  apply List.filter_congr
  intro seq member
  rw [laneAt_push accepted (below seq member)]

end Lines

namespace Ledger

/-- The lane of a packet is that of its number. -/
theorem laneAt_eq (ledger : Ledger q read unread) {entry : Entry β}
    (member : entry ∈ read ++ unread) : q.laneAt entry.seq = some (laneOf entry) := by
  rw [Queue.laneAt, ledger.accepted entry member, laneOf_eq]
  rfl

/-- The numbers handed out are numbers of accepted packets. -/
theorem seq_lt (ledger : Ledger q read unread) {seq : Nat} (member : seq ∈ q.handed.map Handed.seq) :
    seq < q.accepted.length := by
  obtain ⟨handed, inside, rfl⟩ := List.mem_map.mp member
  obtain ⟨packet, found, -⟩ := ledger.bytes handed inside
  exact (List.getElem?_eq_some_iff.mp found).1

/-- What was accepted before keeps its number. -/
theorem kept {seq : Nat} {packet new : Packet β} (found : q.accepted[seq]? = some packet) :
    (q.accepted ++ [new])[seq]? = some packet := by
  rw [List.getElem?_append_left (List.getElem?_eq_some_iff.mp found).1, found]

theorem pending_append (lane : Option Int) (entry : Entry β) :
    pending lane read (unread ++ [entry]) =
      pending lane read unread ++ [entry].filter fun entry => laneOf entry = lane := by
  simp only [pending, List.filter_append, List.append_assoc]

/-- An accepted packet goes to the end of its line. -/
theorem afterPush {reply : Shm.PushReply β} (ledger : Ledger q read unread)
    (pushed : Pushed q.shm pData key flag read unread total reply) :
    Ledger (q.afterPush pData key flag reply) read
      (unread ++ q.added pData key flag total reply) := by
  cases pushed with
  | refused set flags size nodes packets =>
    have same : q.afterPush pData key flag reply = { q with shm := reply.shm } := by
      simp [Queue.afterPush, set]
    rw [same]
    simpa [Queue.added, set] using
      (⟨ledger.carries, ledger.accepted, ledger.lines, ledger.bytes, ledger.holding⟩ :
        Ledger { q with shm := reply.shm } read unread)
  | accepted set given fresh flags size nodes packets =>
    rename_i data
    have grown : q.afterPush pData key flag reply =
        { q with
          shm := reply.shm
          carries := Function.update q.carries reply.node q.accepted.length
          accepted := q.accepted ++ [⟨key, flag, data⟩] } := by
      simp [Queue.afterPush, set, given]
    have joined : q.added pData key flag total reply =
        [⟨q.accepted.length, reply.node, key, flag, total, data⟩] := by
      simp [Queue.added, set, given]
    rw [grown, joined]
    constructor
    case carries =>
      intro entry member
      rw [← List.append_assoc] at member
      rcases List.mem_append.mp member with old | new
      · have different : entry.node ≠ reply.node := by
          intro same
          exact fresh (same ▸ List.mem_map_of_mem old)
        exact (Function.update_of_ne different _ _).trans (ledger.carries entry old)
      · rw [List.mem_singleton.mp new]
        exact Function.update_self _ _ _
    case accepted =>
      intro entry member
      rw [← List.append_assoc] at member
      rcases List.mem_append.mp member with old | new
      · exact kept (ledger.accepted entry old)
      · rw [List.mem_singleton.mp new]
        exact List.getElem?_concat_length
    case lines =>
      intro lane
      have accepted : (q.afterPush pData key flag reply).accepted
          = q.accepted ++ [⟨key, flag, data⟩] := by rw [grown]
      have handed : (q.afterPush pData key flag reply).handed = q.handed := by rw [grown]
      rw [← grown, Queue.acceptedIn_push accepted,
        Queue.handedIn_push accepted handed fun seq => ledger.seq_lt, ← ledger.lines,
        pending_append, List.map_append, ← List.append_assoc]
      by_cases own : Packet.lane ⟨key, flag, data⟩ = lane
      · simp [laneOf_eq, own]
      · simp [laneOf_eq, own]
    case bytes =>
      intro handed member
      obtain ⟨packet, found, same⟩ := ledger.bytes handed member
      exact ⟨packet, kept found, same⟩
    case holding =>
      intro worker seq held
      obtain ⟨packet, found, holds⟩ := ledger.holding worker seq held
      exact ⟨packet, kept found, holds⟩

section Pop

variable {dataLen : Int} {found : Found β} {readAfter unreadAfter : List (Entry β)}
  {held : Option (Entry β)} {worker : ω} {reply : PopReply β}

/-- The packet handed out is the one found. -/
theorem popped_eq (ledger : Ledger q read unread) (packets : q.shm.Packets read unread total)
    (pops : Pops dataLen held read unread found readAfter unreadAfter)
    (replied : found.Replied (q.workers worker) reply) :
    q.popped reply = found.entry.map Entry.seq ∧
      ∀ entry, found.entry = some entry → reply.data = entry.data := by
  have given : ∀ entry, found.entry = some entry → reply.node = entry.node →
      q.popped reply = some entry.seq := by
    intro entry handed node
    have member := pops.entry_mem handed
    rw [Queue.popped, node, if_neg (packets.node_ne_zero member), ledger.carries entry member]
  cases found with
  | nothing => exact ⟨by simp [Queue.popped, replied.2.1, Found.entry], by rintro _ ⟨⟩⟩
  | tooLong => exact ⟨by simp [Queue.popped, replied.2.1, Found.entry], by rintro _ ⟨⟩⟩
  | free entry =>
    obtain ⟨-, node, data, -⟩ := replied
    refine ⟨given entry rfl node, ?_⟩
    rintro _ ⟨⟩
    exact data
  | taken entry =>
    obtain ⟨-, node, data, -⟩ := replied
    refine ⟨given entry rfl node, ?_⟩
    rintro _ ⟨⟩
    exact data

variable [DecidableEq ω]

/-- A pop hands out the packet that it found. -/
theorem handed_eq (ledger : Ledger q read unread) (packets : q.shm.Packets read unread total)
    (pops : Pops dataLen held read unread found readAfter unreadAfter)
    (replied : found.Replied (q.workers worker) reply) :
    (q.afterPop worker reply).handed =
      q.handed ++ (found.entry.map fun entry => ⟨worker, entry.seq, entry.data⟩).toList := by
  obtain ⟨seq, data⟩ := ledger.popped_eq packets pops replied
  unfold Queue.afterPop
  rw [seq]
  cases handed : found.entry with
  | none => rfl
  | some entry => simp [data entry handed]

/-- A packet handed out leaves the head of its line. -/
theorem afterPop (ledger : Ledger q read unread) (custody : Custody pid q read unread total)
    (injective : pid.Injective) (lives : ∀ other, q.alive other = true)
    (holds : Holds (q.workers worker) read held)
    (pops : Pops dataLen held read unread found readAfter unreadAfter)
    (enough : found ≠ .tooLong) (replied : found.Replied (q.workers worker) reply) :
    Ledger (q.afterPop worker reply) readAfter unreadAfter where
  carries entry member := ledger.carries entry (pops.subset member)
  accepted entry member := ledger.accepted entry (pops.subset member)
  lines lane := by
    have handed := ledger.handed_eq custody.packets pops replied
    have lined : (q.afterPop worker reply).handedIn lane = q.handedIn lane ++
        (found.entry.toList.filter fun entry => laneOf entry = lane).map Entry.seq := by
      unfold Queue.handedIn
      rw [handed, List.map_append, List.filter_append]
      congr 1
      cases given : found.entry with
      | none => rfl
      | some entry =>
        have own : (q.afterPop worker reply).laneAt entry.seq = some (laneOf entry) :=
          ledger.laneAt_eq (pops.entry_mem given)
        by_cases here : laneOf entry = lane
        · simp [own, here]
        · simp [own, here]
    rw [lined, List.append_assoc, ← List.map_append, ← pops.pending_eq custody.service.barrier lane]
    exact ledger.lines lane
  bytes handed member := by
    rw [ledger.handed_eq custody.packets pops replied] at member
    rcases List.mem_append.mp member with old | new
    · exact ledger.bytes handed old
    · obtain ⟨entry, given, rfl⟩ := Option.map_eq_some_iff.mp (Option.mem_toList.mp new)
      exact ⟨_, ledger.accepted entry (pops.entry_mem given), rfl⟩
  holding other seq given := by
    have set : Function.update q.holding worker (q.popped reply) other = some seq := given
    change ∃ packet, q.accepted[seq]? = some packet ∧ (packet.flag ≠ 0 → ∃ entry,
      Holds (Function.update q.workers worker reply.worker other) readAfter (some entry) ∧
        entry.seq = seq)
    by_cases same : other = worker
    · subst same
      rw [Function.update_self, (ledger.popped_eq custody.packets pops replied).1] at set
      obtain ⟨entry, handed, rfl⟩ := Option.map_eq_some_iff.mp set
      refine ⟨_, ledger.accepted entry (pops.entry_mem handed), ?_⟩
      intro barrier
      rw [Function.update_self]
      cases found with
      | nothing => cases handed
      | tooLong => cases handed
      | free free =>
        obtain rfl := Option.some.inj handed
        exact absurd (pops.free_flag rfl) barrier
      | taken taken =>
        obtain rfl := Option.some.inj handed
        obtain ⟨-, -, -, -, busy, node⟩ := replied
        exact ⟨taken, ⟨busy, (pops.front_iff enough _).mpr (.inr ⟨rfl, rfl⟩), node⟩, rfl⟩
    · rw [Function.update_of_ne same] at set ⊢
      obtain ⟨packet, accepted, holder⟩ := ledger.holding other seq set
      refine ⟨packet, accepted, fun barrier => ?_⟩
      obtain ⟨entry, ⟨busy, oldest, node⟩, own⟩ := holder barrier
      refine ⟨entry, ⟨busy, ?_, node⟩, own⟩
      refine (pops.front_iff enough _).mpr (.inl ⟨oldest, ?_⟩)
      rintro rfl
      exact same (custody.service.worker_eq injective (lives other) (lives worker)
        ⟨busy, oldest, node⟩ holds)

end Pop

end Ledger

end Ledger

end Taomee.Barrier.Balanced
