import Taomee.Barrier.Packets

/-!
# Clean-up and push

What `clean_4pid`, `clean_4key` and `push` do to the packets of a queue. Both variants
of the queue share them.
-/

namespace Taomee.Barrier

open CircularList SearchTree

variable {β : Type*} {s : Shm β} {read unread : List (Entry β)} {entry : Entry β} {total : Nat}
  {balancing : Balancing Nat} {gone : Int → Bool}

theorem Shm.Lists.emptyListEmpty_of_length {empty read unread : List Nat}
    (lists : s.Lists [] empty read unread) :
    s.emptyListEmpty = true ↔ (read ++ unread).length = s.reserveTailIndex := by
  have same := lists.partition.length_eq
  simp only [nodeArray, List.length_append, List.length_range'] at same
  rw [lists.emptyListEmpty_iff, List.length_append]
  constructor
  · rintro ⟨rfl, none⟩
    rw [none] at same
    simpa using same
  · intro full
    constructor
    · exact List.eq_nil_of_length_eq_zero (by omega)
    · exact List.eq_nil_of_length_eq_zero (by omega)

/-- The flags of the oldest packets tell them apart. -/
def DistinctFlags (flag : Nat → Int) (read : List (Entry β)) : Prop :=
  ∀ first second : Entry β, front first.key read = some first →
    front second.key read = some second → flag first.node = flag second.node → first = second

/-- After the loop of `push`: all packets read are still there, or those of the oldest
one's key are gone with the process that held it. -/
inductive Reclaimed (gone : Int → Bool) (flag : Nat → Int) (read : List (Entry β)) :
    List (Entry β) → Prop where
  | kept : Reclaimed gone flag read read
  | cleaned {entry : Entry β} (oldest : front entry.key read = some entry)
      (dead : gone (flag entry.node) = true) :
      Reclaimed gone flag read (otherKeys entry.key read)

namespace Shm.Packets

/-- A process that is in no tree node has nothing to clean up. -/
theorem clean4pid_absent (packets : s.Packets read unread total) {pid : Int}
    (absent : ∀ entry, front entry.key read = some entry → s.flag entry.node ≠ pid) :
    s.clean4pid balancing pid = some s := by
  have missing : s.rbSearch4pid pid = none := by
    cases found : s.rbSearch4pid pid with
    | none => rfl
    | some node =>
      obtain ⟨member, passes⟩ := BinTree.searchBy_eq_some found
      obtain ⟨k, entry, oldest, rfl⟩ := (packets.filed.tree node).mp member
      obtain ⟨-, own⟩ := front_eq_some oldest
      exact absurd (by simpa using passes) (absent entry (own ▸ oldest))
  simp [clean4pid, missing]

theorem clean4pid_present (packets : s.Packets read unread total)
    (distinct : DistinctFlags s.flag read) (oldest : front entry.key read = some entry) :
    s.clean4pid balancing (s.flag entry.node) = s.cleanNode balancing entry.node := by
  have found : s.rbSearch4pid (s.flag entry.node) = some entry.node := by
    cases found : s.rbSearch4pid (s.flag entry.node) with
    | none =>
      have member : entry.node ∈ s.rbRoot.inorder :=
        (packets.filed.tree _).mpr ⟨entry.key, entry, oldest, rfl⟩
      have fails := BinTree.searchBy_eq_none found member
      simp at fails
    | some node =>
      obtain ⟨member, passes⟩ := BinTree.searchBy_eq_some found
      obtain ⟨k, other, otherOldest, rfl⟩ := (packets.filed.tree node).mp member
      obtain ⟨-, own⟩ := front_eq_some otherOldest
      rw [distinct other entry (own ▸ otherOldest) oldest (by simpa using passes)]
  simp [clean4pid, found]

theorem clean4key_absent (packets : s.Packets read unread total) {key : Int}
    (absent : front key read = none) : s.clean4key balancing key = some s := by
  have missing : s.rbSearch key = none := by
    rw [rbSearch, packets.filed.search_eq, absent]
    rfl
  simp [clean4key, missing]

theorem clean4key_present (packets : s.Packets read unread total)
    (oldest : front entry.key read = some entry) :
    s.clean4key balancing entry.key = s.cleanNode balancing entry.node := by
  have found : s.rbSearch entry.key = some entry.node := by
    rw [rbSearch, packets.filed.search_eq, oldest]
    rfl
  simp [clean4key, found]

/-- The used list has a node to clean up when it does not start at the unread cursor. -/
theorem usedPHead_eq (packets : s.Packets read unread total)
    (different : s.usedPHead ≠ s.usedPReadHead) :
    ∃ entry, front entry.key read = some entry ∧ s.usedPHead = entry.node := by
  obtain ⟨empty, lists⟩ := packets.lists
  have head := lists.usedHead
  cases read with
  | nil => exact absurd (head.trans lists.readHead.symm) different
  | cons first rest =>
    refine ⟨first, ?_, head⟩
    simp [front]

/-- With every node used, cleaning up after the holder of the oldest packet frees one. -/
theorem clean_oldest (packets : s.Packets read unread total) (balancing : Balancing Nat)
    (distinct : DistinctFlags s.flag read) (full : s.emptyListEmpty = true)
    (different : s.usedPHead ≠ s.usedPReadHead) :
    ∃ (entry : Entry β) (cleaned : Shm β),
      front entry.key read = some entry ∧ s.usedPHead = entry.node ∧
        s.clean4pid balancing (s.flag s.usedPHead) = some cleaned ∧ cleaned.flag = s.flag ∧
        s.SameRing cleaned ∧ cleaned.Packets (otherKeys entry.key read) unread total ∧
        cleaned.emptyListEmpty = false := by
  obtain ⟨empty, lists⟩ := packets.lists
  obtain ⟨entry, oldest, head⟩ := packets.usedPHead_eq different
  obtain ⟨cleaned, ran, flag, ring, cleanPackets⟩ := packets.cleanNode balancing oldest
  refine ⟨entry, cleaned, oldest, head, ?_, flag, ring, cleanPackets, ?_⟩
  · rw [head, packets.clean4pid_present distinct oldest, ran]
  · have fewer : (otherKeys entry.key read).length < read.length := by
      apply List.length_filter_lt_length_iff_exists.mpr
      exact ⟨entry, (front_eq_some oldest).1, by simp⟩
    have before := lists.emptyListEmpty_of_length.mp full
    obtain ⟨cleanEmpty, cleanLists⟩ := cleanPackets.lists
    by_contra stillFull
    have used := cleanLists.emptyListEmpty_of_length.mp (by simpa using stillFull)
    simp only [List.length_append, List.length_map] at used before
    have size := ring.reserveTailIndex
    omega

/-- The loop of `push` looks at the holder of the oldest packet once. -/
theorem reclaim_eq (packets : s.Packets read unread total) (balancing : Balancing Nat)
    (gone : Int → Bool) (distinct : DistinctFlags s.flag read) :
    ∃ (found : Bool) (reclaimed : Shm β) (left : List (Entry β)),
      s.reclaim balancing gone (s.reserveTailIndex + 1) = some (found, reclaimed) ∧
        Reclaimed gone s.flag read left ∧ reclaimed.flag = s.flag ∧ s.SameRing reclaimed ∧
        reclaimed.Packets left unread total ∧
        (found = true → reclaimed.emptyListEmpty = false) := by
  obtain ⟨empty, lists⟩ := packets.lists
  cases none : s.emptyListEmpty with
  | false => exact ⟨true, s, read, by simp [reclaim, none], .kept, rfl, .refl s, packets,
      fun _ => none⟩
  | true =>
    by_cases same : s.usedPHead = s.usedPReadHead
    · exact ⟨false, s, read, by simp [reclaim, none, same], .kept, rfl, .refl s, packets,
        nofun⟩
    · obtain ⟨entry, cleaned, oldest, head, ran, flag, ring, cleanPackets, free⟩ :=
        packets.clean_oldest balancing distinct none same
      rw [head] at same ran
      cases dead : gone (s.flag entry.node) with
      | false =>
        exact ⟨false, s, read, by simp [reclaim, none, head, dead], .kept, rfl, .refl s,
          packets, nofun⟩
      | true =>
        have full := lists.emptyListEmpty_of_length.mp none
        obtain ⟨size', shape⟩ : ∃ size', s.reserveTailIndex = size' + 1 := by
          have member := List.length_pos_of_mem (front_eq_some oldest).1
          simp only [List.length_append, List.length_map] at full
          exact ⟨s.reserveTailIndex - 1, by omega⟩
        refine ⟨true, cleaned, _, ?_, .cleaned oldest dead, flag, ring, cleanPackets, fun _ => free⟩
        rw [shape]
        simp [reclaim, none, same, head, dead, ran, free]

/-- While every holder is alive, the loop of `push` only asks for a free node. -/
theorem reclaim_alive (packets : s.Packets read unread total)
    (alive : ∀ entry, front entry.key read = some entry → gone (s.flag entry.node) = false) :
    s.reclaim balancing gone (s.reserveTailIndex + 1) = some (!s.emptyListEmpty, s) := by
  cases none : s.emptyListEmpty with
  | false => simp [reclaim, none]
  | true =>
    by_cases same : s.usedPHead = s.usedPReadHead
    · simp [reclaim, none, same]
    · obtain ⟨entry, oldest, head⟩ := packets.usedPHead_eq same
      simp [reclaim, none, head, alive entry oldest]

end Shm.Packets

/-- What `push` makes of the packets that its loop leaves. -/
inductive Pushed (s : Shm β) (pData : Option (List β)) (key flag : Int)
    (left unread : List (Entry β)) (total : Nat) : Shm.PushReply β → Prop where
  | refused {reply : Shm.PushReply β} {errno : Errno} (set : reply.errno = some errno)
      (flags : reply.shm.flag = s.flag) (size : reply.shm.bufferLen = s.bufferLen)
      (nodes : reply.shm.reserveTailIndex = s.reserveTailIndex)
      (packets : reply.shm.Packets left unread total) :
      Pushed s pData key flag left unread total reply
  | accepted {reply : Shm.PushReply β} {data : List β} (set : reply.errno = none)
      (given : pData = some data)
      (fresh : reply.node ∉ (left ++ unread).map Entry.node)
      (flags : reply.shm.flag = Function.update s.flag reply.node flag)
      (size : reply.shm.bufferLen = s.bufferLen)
      (nodes : reply.shm.reserveTailIndex = s.reserveTailIndex)
      (packets : ∀ seq, reply.shm.Packets left
        (unread ++ [⟨seq, reply.node, key, flag, total, data⟩]) (total + data.length)) :
      Pushed s pData key flag left unread total reply

/-- A push leaves the sizes of the queue alone. -/
theorem Pushed.size {pData : Option (List β)} {key flag : Int} {reply : Shm.PushReply β}
    (pushed : Pushed s pData key flag read unread total reply) :
    reply.shm.bufferLen = s.bufferLen ∧ reply.shm.reserveTailIndex = s.reserveTailIndex := by
  cases pushed with
  | refused set flags size nodes packets => exact ⟨size, nodes⟩
  | accepted set given fresh flags size nodes packets => exact ⟨size, nodes⟩

namespace Shm

variable {data : List β}

/-- The rest of `push` once its loop is done. -/
def pushFound (data : List β) (key flag : Int) (s : Shm β) : PushReply β :=
  match s.copyPacketIn data with
  | none => ⟨some .noEnoughRqBuffer, 0, s⟩
  | some (pBuffer, tailIndex) =>
    let copied : Shm β := { s with pBuffer := pBuffer, tailIndex := tailIndex }
    let (node, filled) := copied.fillNode s.tailIndex data.length key flag
    ⟨none, node, filled⟩

theorem push_of_reclaim (nonempty : 0 < data.length) {key flag : Int} {found : Bool} {reclaimed : Shm β}
    (looped : s.reclaim balancing gone (s.reserveTailIndex + 1) = some (found, reclaimed)) :
    Shm.push balancing gone true (some data) key flag s =
      some (if found then pushFound data key flag reclaimed
        else ⟨some .noEnoughMem, 0, reclaimed⟩) := by
  cases data with
  | nil => cases nonempty
  | cons first rest =>
    simp only [Shm.push, looped]
    cases found with
    | false => rfl
    | true =>
      simp only [Bool.not_true, Bool.false_eq_true, if_false, if_true, pushFound]
      split <;> simp_all

/-- A free node takes the packet exactly when the ring has room for it. -/
theorem Packets.pushFound_errno (packets : s.Packets read unread total) (key flag : Int) :
    (pushFound data key flag s).errno = none ↔
      data.length ≤ s.freeBytes (read ++ unread) total := by
  have copied := packets.region.copyPacketIn_eq data
  unfold pushFound
  split at copied
  case isTrue fits => simp [copied, fits]
  case isFalse large => simp [copied, large]

theorem Packets.pushFound (packets : s.Packets read unread total)
    (free : s.emptyListEmpty = false) (nonempty : 0 < data.length) (key flag : Int) :
    Pushed s (some data) key flag read unread total (pushFound data key flag s) := by
  unfold Shm.pushFound
  split
  case h_1 => exact .refused rfl rfl rfl rfl packets
  case h_2 pBuffer tailIndex copied =>
    obtain ⟨node, filled, ran, fresh, flags, size, nodes, after⟩ :=
      packets.fillNode free nonempty copied key flag
    dsimp only
    rw [ran]
    exact .accepted rfl rfl fresh flags size nodes after

/-- `push` on a well formed queue. -/
theorem Packets.push (packets : s.Packets read unread total) (balancing : Balancing Nat)
    (gone : Int → Bool) (distinct : DistinctFlags s.flag read) (pData : Option (List β))
    (key flag : Int) :
    ∃ (reply : PushReply β) (left : List (Entry β)),
      Shm.push balancing gone true pData key flag s = some reply ∧
        Reclaimed gone s.flag read left ∧ Pushed s pData key flag left unread total reply := by
  rcases pData with _ | data
  · exact ⟨_, read, rfl, .kept, .refused rfl rfl rfl rfl packets⟩
  by_cases nonempty : 0 < data.length
  · obtain ⟨found, reclaimed, left, looped, fewer, flags, ring, leftPackets, free⟩ :=
      packets.reclaim_eq balancing gone distinct
    refine ⟨_, left, push_of_reclaim nonempty looped, fewer, ?_⟩
    cases found with
    | false => exact .refused rfl flags ring.bufferLen ring.reserveTailIndex leftPackets
    | true =>
      rcases leftPackets.pushFound (free rfl) nonempty key flag with
        ⟨set, flags', size, nodes, packets'⟩ | ⟨set, given, fresh, flags', size, nodes, packets'⟩
      · exact .refused set (flags'.trans flags) (size.trans ring.bufferLen)
          (nodes.trans ring.reserveTailIndex) packets'
      · exact .accepted set given fresh (flags ▸ flags') (size.trans ring.bufferLen)
          (nodes.trans ring.reserveTailIndex) packets'
  · obtain rfl : data = [] := by simpa using nonempty
    exact ⟨_, read, rfl, .kept, .refused rfl rfl rfl rfl packets⟩

/-- While every holder is alive, a packet is accepted exactly when a node is free and the
ring has room. -/
theorem Packets.push_errno (packets : s.Packets read unread total) (balancing : Balancing Nat)
    (nonempty : 0 < data.length) (key flag : Int)
    (alive : ∀ entry, front entry.key read = some entry → gone (s.flag entry.node) = false) :
    ∃ reply : PushReply β,
      Shm.push balancing gone true (some data) key flag s = some reply ∧
        (reply.errno = none ↔
          s.emptyListEmpty = false ∧ data.length ≤ s.freeBytes (read ++ unread) total) := by
  refine ⟨_, push_of_reclaim nonempty (packets.reclaim_alive alive), ?_⟩
  cases s.emptyListEmpty with
  | true => simp
  | false => simpa using packets.pushFound_errno key flag

end Shm

end Taomee.Barrier
