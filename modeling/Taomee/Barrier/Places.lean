import Taomee.Barrier.Push

/-!
# Where the nodes are

Every node is in the reserve, on the empty list or on the used list, and a used one is
unread, in the tree, or on the waiting list of the tree node of its key.
-/

namespace Taomee.Barrier

open CircularList SearchTree

variable {β : Type*} {s : Shm β} {read unread rest : List (Entry β)} {entry head : Entry β}
  {total node : Nat}

/-- The node is on the waiting list that goes through `head`. -/
def Shm.Waits (s : Shm β) (head node : Nat) : Prop :=
  node ≠ head ∧ ∃ n, s.homoList.next^[n] head = node

/-- A process holds a node in the tree, and those that wait behind it. -/
def Shm.HeldBy (s : Shm β) (pid : Int) (node : Nat) : Prop :=
  ∃ head ∈ s.rbRoot.inorder, s.flag head = pid ∧ (node = head ∨ s.Waits head node)

/-- Every node is in one place. -/
structure Shm.Conserved (s : Shm β) (empty read unread : List Nat) : Prop where
  lists : s.Lists [] empty read unread
  whenUnread : ∀ node ∈ unread,
    node ∉ s.rbRoot.inorder ∧ ∀ head ∈ s.rbRoot.inorder, ¬ s.Waits head node
  whenRead : ∀ node ∈ read,
    (node ∈ s.rbRoot.inorder ∧ ∀ head ∈ s.rbRoot.inorder, ¬ s.Waits head node) ∨
      (node ∉ s.rbRoot.inorder ∧ ∃ head ∈ s.rbRoot.inorder, s.Waits head node ∧
        s.key head = s.key node)
  tree : ∀ node ∈ s.rbRoot.inorder, node ∈ read
  keys : (s.rbRoot.inorder.map s.key).Nodup

namespace Shm.Packets

theorem waits_iff (packets : s.Packets read unread total)
    (shape : sameKey head.key read = head :: rest) :
    s.Waits head.node node ↔ node ∈ rest.map Entry.node := by
  obtain ⟨ring, nodup⟩ := packets.filed.homo_cons shape
  rw [Shm.Waits, ← ring.mem_iff_iterate, List.mem_cons]
  constructor
  · rintro ⟨different, same | waits⟩
    · exact absurd same different
    · exact waits
  · intro waits
    refine ⟨?_, .inr waits⟩
    rintro rfl
    exact (List.nodup_cons.mp nodup).1 waits

/-- The packets that wait are the younger ones of a key. -/
theorem mem_of_waits (packets : s.Packets read unread total) {tree : Nat}
    (inTree : tree ∈ s.rbRoot.inorder) (waits : s.Waits tree node) :
    ∃ head entry, front head.key read = some head ∧ head.node = tree ∧ entry ∈ read ∧
      entry.key = head.key ∧ entry.node = node ∧ entry ≠ head := by
  obtain ⟨k, head, oldest, rfl⟩ := (packets.filed.tree tree).mp inTree
  obtain ⟨-, rfl⟩ := front_eq_some oldest
  obtain ⟨rest, shape⟩ := sameKey_of_front oldest
  obtain ⟨entry, inRest, rfl⟩ := List.mem_map.mp ((packets.waits_iff shape).mp waits)
  have member : entry ∈ sameKey head.key read := shape ▸ List.mem_cons_of_mem _ inRest
  obtain ⟨inside, own⟩ := mem_sameKey.mp member
  refine ⟨head, entry, oldest, rfl, inside, own, rfl, ?_⟩
  rintro rfl
  exact waits.1 rfl

/-- A younger packet waits behind the oldest of its key. -/
theorem waits_of_ne (packets : s.Packets read unread total)
    (oldest : front head.key read = some head) (member : entry ∈ read)
    (own : entry.key = head.key) (younger : entry ≠ head) : s.Waits head.node entry.node := by
  obtain ⟨rest, shape⟩ := sameKey_of_front oldest
  rw [packets.waits_iff shape]
  have among : entry ∈ sameKey head.key read := mem_sameKey.mpr ⟨member, own⟩
  rw [shape] at among
  exact List.mem_map_of_mem ((List.mem_cons.mp among).resolve_left younger)

theorem conserved (packets : s.Packets read unread total) :
    ∃ empty, s.Conserved empty (read.map Entry.node) (unread.map Entry.node) := by
  obtain ⟨empty, lists⟩ := packets.lists
  have inTree : ∀ node ∈ s.rbRoot.inorder, node ∈ read.map Entry.node := by
    intro node member
    obtain ⟨k, head, oldest, rfl⟩ := (packets.filed.tree node).mp member
    exact List.mem_map_of_mem (front_eq_some oldest).1
  refine ⟨empty, lists, ?_, ?_, inTree, ?_⟩
  · intro node isUnread
    obtain ⟨entry, member, rfl⟩ := List.mem_map.mp isUnread
    constructor
    · intro filed
      obtain ⟨other, isRead, same⟩ := List.mem_map.mp (inTree _ filed)
      exact packets.node_ne isRead member same
    · intro tree filed waits
      obtain ⟨-, other, -, -, isRead, -, same, -⟩ := packets.mem_of_waits filed waits
      exact packets.node_ne isRead member same
  · intro node isRead
    obtain ⟨entry, member, rfl⟩ := List.mem_map.mp isRead
    have filed := packets.filed.mem_tree member
    by_cases oldest : front entry.key read = some entry
    · left
      refine ⟨filed.mpr oldest, ?_⟩
      intro tree treeFiled waits
      obtain ⟨head, other, headOldest, -, otherRead, own, same, younger⟩ :=
        packets.mem_of_waits treeFiled waits
      obtain rfl := packets.node_inj (List.mem_append_left _ otherRead)
        (List.mem_append_left _ member) same
      rw [own, headOldest] at oldest
      exact younger (Option.some.inj oldest).symm
    · right
      refine ⟨fun inside => oldest (filed.mp inside), ?_⟩
      cases found : front entry.key read with
      | none => exact absurd rfl (front_eq_none.mp found entry member)
      | some head =>
        obtain ⟨headRead, own⟩ := front_eq_some found
        have headOldest : front head.key read = some head := own ▸ found
        have younger : entry ≠ head := by
          rintro rfl
          exact oldest found
        refine ⟨head.node, (packets.filed.mem_tree headRead).mpr headOldest,
          packets.waits_of_ne headOldest member own.symm younger, ?_⟩
        rw [packets.filed.keys head headRead, packets.filed.keys entry member, own]
  · have distinct := packets.filed.sorted
    rw [List.Nodup, List.pairwise_map]
    exact distinct.imp ne_of_lt

/-- Without a packet in the tree under its process id, a process holds nothing. -/
theorem not_heldBy (packets : s.Packets read unread total) {p : Int}
    (absent : ∀ entry, front entry.key read = some entry → s.flag entry.node ≠ p) :
    ¬ s.HeldBy p node := by
  rintro ⟨tree, inTree, own, -⟩
  obtain ⟨k, head, oldest, rfl⟩ := (packets.filed.tree tree).mp inTree
  obtain ⟨-, rfl⟩ := front_eq_some oldest
  exact absent head oldest own

/-- A process holds the packets of the key it serves. -/
theorem heldBy_iff (packets : s.Packets read unread total) (distinct : DistinctFlags s.flag read)
    (oldest : front head.key read = some head) (member : entry ∈ read ++ unread) :
    s.HeldBy (s.flag head.node) entry.node ↔ entry ∈ read ∧ entry.key = head.key := by
  constructor
  · rintro ⟨tree, inTree, own, place⟩
    obtain ⟨k, other, otherOldest, rfl⟩ := (packets.filed.tree tree).mp inTree
    obtain ⟨otherRead, rfl⟩ := front_eq_some otherOldest
    obtain rfl := distinct other head otherOldest oldest own
    rcases place with same | waits
    · obtain rfl := packets.node_inj member (List.mem_append_left _ otherRead) same
      exact ⟨otherRead, rfl⟩
    · obtain ⟨top, younger, topOldest, sameTop, isRead, key, same, -⟩ :=
        packets.mem_of_waits inTree waits
      obtain rfl := packets.node_inj (List.mem_append_left _ isRead) member same
      obtain rfl := packets.node_inj (List.mem_append_left _ (front_eq_some topOldest).1)
        (List.mem_append_left _ otherRead) sameTop
      exact ⟨isRead, key⟩
  · rintro ⟨isRead, key⟩
    refine ⟨head.node, (packets.filed.tree _).mpr ⟨head.key, head, oldest, rfl⟩, rfl, ?_⟩
    by_cases same : entry = head
    · exact .inl (congrArg Entry.node same)
    · exact .inr (packets.waits_of_ne oldest isRead key same)

/-- Cleaning up after a process gives back what it holds. -/
theorem clean4pid (packets : s.Packets read unread total) (balancing : Balancing Nat)
    (distinct : DistinctFlags s.flag read) (p : Int) :
    ∃ (cleaned : Shm β) (left : List (Entry β)),
      s.clean4pid balancing p = some cleaned ∧ Reclaimed (fun flag => flag == p) s.flag read left ∧
        cleaned.flag = s.flag ∧ cleaned.Packets left unread total ∧
        ∀ node, cleaned.Used node ↔ s.Used node ∧ ¬ s.HeldBy p node := by
  by_cases present : ∃ entry, front entry.key read = some entry ∧ s.flag entry.node = p
  · obtain ⟨head, oldest, rfl⟩ := present
    obtain ⟨cleaned, ran, flag, -, after⟩ := packets.cleanNode balancing oldest
    refine ⟨cleaned, otherKeys head.key read, ?_, .cleaned oldest (by simp), flag, after, ?_⟩
    · rw [packets.clean4pid_present distinct oldest, ran]
    intro node
    rw [after.used_iff, packets.used_iff]
    constructor
    · rintro ⟨entry, member, rfl⟩
      have before : entry ∈ read ++ unread := by
        rcases List.mem_append.mp member with old | isUnread
        · exact List.mem_append_left _ (mem_otherKeys.mp old).1
        · exact List.mem_append_right _ isUnread
      refine ⟨⟨entry, before, rfl⟩, ?_⟩
      rw [packets.heldBy_iff distinct oldest before]
      rintro ⟨isRead, own⟩
      rcases List.mem_append.mp member with old | isUnread
      · exact (mem_otherKeys.mp old).2 own
      · exact packets.node_ne isRead isUnread rfl
    · rintro ⟨⟨entry, before, rfl⟩, notHeld⟩
      rw [packets.heldBy_iff distinct oldest before] at notHeld
      refine ⟨entry, ?_, rfl⟩
      rcases List.mem_append.mp before with isRead | isUnread
      · exact List.mem_append_left _ (mem_otherKeys.mpr ⟨isRead, fun own => notHeld ⟨isRead, own⟩⟩)
      · exact List.mem_append_right _ isUnread
  · have absent : ∀ entry, front entry.key read = some entry → s.flag entry.node ≠ p :=
      fun entry oldest same => present ⟨entry, oldest, same⟩
    refine ⟨s, read, packets.clean4pid_absent absent, .kept, rfl, packets, ?_⟩
    simp [packets.not_heldBy absent]

/-- Cleaning up by the key of a node in the tree is cleaning up after its process. -/
theorem clean4key_eq (packets : s.Packets read unread total) (balancing : Balancing Nat)
    (distinct : DistinctFlags s.flag read) {tree : Nat} (inTree : tree ∈ s.rbRoot.inorder) :
    s.clean4key balancing (s.key tree) = s.clean4pid balancing (s.flag tree) := by
  obtain ⟨k, head, oldest, rfl⟩ := (packets.filed.tree tree).mp inTree
  obtain ⟨isRead, rfl⟩ := front_eq_some oldest
  rw [packets.filed.keys head isRead, packets.clean4key_present oldest,
    packets.clean4pid_present distinct oldest]

end Shm.Packets

end Taomee.Barrier
