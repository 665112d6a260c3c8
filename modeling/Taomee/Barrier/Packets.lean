import Taomee.Barrier.Filing

/-!
# The packets of a queue

`Packets` puts the lists, the ring and the tree together: which packets the used list
carries, read and unread, oldest first. Each of the steps that `push`, `pop` and the clean-up
calls are made of takes one such state to another.
-/

namespace Taomee.Barrier

open CircularList SearchTree

variable {β : Type*}

namespace Shm

/-- The used list and the ring carry these packets, read and unread. -/
structure Carried (s : Shm β) (read unread : List (Entry β)) (total : Nat) : Prop where
  lists : ∃ empty, s.Lists [] empty (read.map Entry.node) (unread.map Entry.node)
  region : s.Region (read ++ unread) total
  flags : ∀ entry ∈ unread, s.flag entry.node = entry.flag

/-- The nodes of the used list: those that the links lead to from `p_head`. -/
def Used (s : Shm β) (node : Nat) : Prop :=
  s.usedPHead ≠ 0 ∧ ∃ n, s.emptyUsedList.next^[n] s.usedPHead = node

/-- They are carried, and those read are filed. -/
structure Packets (s : Shm β) (read unread : List (Entry β)) (total : Nat) : Prop
    extends s.Carried read unread total where
  filed : Filed s.rbRoot s.key s.homoList read

end Shm

open Shm

/-- The queue is empty at the start. -/
theorem fresh_packets {bufferLen nodes : Nat} {byte : β} (positive : 0 < bufferLen) :
    (fresh bufferLen nodes byte).Packets [] [] 0 where
  lists := ⟨[], fresh_lists bufferLen nodes byte⟩
  region := fresh_region positive
  flags := nofun
  filed := filed_nil _ _

namespace Shm.Carried

variable {s changed : Shm β} {read unread older younger : List (Entry β)} {entry : Entry β}
  {total : Nat}

/-- Every packet has its own node. -/
theorem nodup_nodes (carried : s.Carried read unread total) :
    ((read ++ unread).map Entry.node).Nodup := by
  obtain ⟨empty, lists⟩ := carried.lists
  rw [List.map_append]
  exact lists.nodup_used

/-- A node is that of one packet. -/
theorem node_inj (carried : s.Carried read unread total) {first second : Entry β}
    (firstIn : first ∈ read ++ unread) (secondIn : second ∈ read ++ unread)
    (same : first.node = second.node) : first = second :=
  List.inj_on_of_nodup_map carried.nodup_nodes firstIn secondIn same

/-- The node of an unread packet is not that of a read one. -/
theorem node_ne (carried : s.Carried read unread total) {first second : Entry β}
    (isRead : first ∈ read) (isUnread : second ∈ unread) : first.node ≠ second.node := by
  have nodup := carried.nodup_nodes
  rw [List.map_append, List.nodup_append] at nodup
  exact nodup.2.2 _ (List.mem_map_of_mem isRead) _ (List.mem_map_of_mem isUnread)

theorem node_ne_zero (carried : s.Carried read unread total) (member : entry ∈ read ++ unread) :
    entry.node ≠ 0 := by
  obtain ⟨empty, lists⟩ := carried.lists
  apply lists.ne_zero_of_used
  rw [← List.map_append]
  exact List.mem_map_of_mem member

/-- The used nodes are those of the packets. -/
theorem used_iff (carried : s.Carried read unread total) {node : Nat} :
    s.Used node ↔ ∃ entry ∈ read ++ unread, entry.node = node := by
  obtain ⟨empty, lists⟩ := carried.lists
  have ring := lists.usedRing
  have head := lists.usedHead
  have none := lists.usedPHead_eq_zero
  rw [← List.map_append] at ring head none
  rw [← List.mem_map, Used, Ne, none]
  cases shape : (read ++ unread).map Entry.node with
  | nil => simp
  | cons first rest =>
    rw [shape] at ring head
    have start : s.usedPHead = first := head
    rw [start, ← ring.mem_iff_iterate]
    simp

/-- Every packet lies in the ring. -/
theorem stored (carried : s.Carried read unread total) (member : entry ∈ read ++ unread) :
    s.Stored entry := carried.region.stored entry member

/-- A change of the tree, the waiting lists or the flags of read packets. -/
theorem congr (carried : s.Carried read unread total) {flag : Nat → Int} {rbRoot : BinTree Nat}
    {homoList : Links Nat} (same : ∀ entry ∈ unread, flag entry.node = s.flag entry.node) :
    Carried { s with flag := flag, rbRoot := rbRoot, homoList := homoList } read unread total where
  lists := by
    obtain ⟨empty, lists⟩ := carried.lists
    exact ⟨empty, lists.emptyRing, lists.emptyHead, lists.usedRing, lists.usedHead,
      lists.readHead, lists.reserveLe, lists.partition⟩
  region := carried.region.congr rfl rfl rfl rfl rfl rfl rfl
  flags entry member := (same entry member).trans (carried.flags entry member)

/-- The unread cursor is at the first unread packet. -/
theorem usedPReadHead_cons (carried : s.Carried read (entry :: unread) total) :
    s.usedPReadHead = entry.node := by
  obtain ⟨empty, lists⟩ := carried.lists
  exact lists.readHead

theorem usedPReadHead_nil (carried : s.Carried read [] total) : s.usedPReadHead = 0 := by
  obtain ⟨empty, lists⟩ := carried.lists
  exact lists.readHead

/-- The cursor moves past the first unread packet. -/
theorem moveReadHead (carried : s.Carried read (entry :: unread) total) :
    (s.moveReadHead entry.node).Carried (read ++ [entry]) unread total where
  lists := by
    obtain ⟨empty, lists⟩ := carried.lists
    rw [List.map_append]
    exact ⟨empty, moveReadHead_lists lists⟩
  region := by
    rw [moveReadHead_frame, List.append_assoc, List.singleton_append]
    exact carried.region.congr rfl rfl rfl rfl rfl rfl rfl
  flags other member := by
    rw [moveReadHead_frame]
    exact carried.flags other (List.mem_cons_of_mem _ member)

/-- A read packet's node is given back. -/
theorem release (carried : s.Carried (older ++ entry :: younger) unread total) :
    (s.release entry.node).Carried (older ++ younger) unread total := by
  obtain ⟨⟨empty, lists⟩, region, flags⟩ := carried
  refine ⟨⟨empty ++ [entry.node], ?_⟩, region.release lists, ?_⟩
  · rw [List.map_append, List.map_cons] at lists
    rw [List.map_append]
    exact release_lists lists
  · rw [release_frame]
    exact flags

end Shm.Carried

namespace Shm

variable {s changed last : Shm β}

/-- What only `push` changes: the ring, and the packet fields of the nodes. -/
structure SameRing (s changed : Shm β) : Prop where
  pBuffer : changed.pBuffer = s.pBuffer
  bufferLen : changed.bufferLen = s.bufferLen
  tailIndex : changed.tailIndex = s.tailIndex
  key : changed.key = s.key
  addr : changed.addr = s.addr
  length : changed.length = s.length
  reserveTailIndex : changed.reserveTailIndex = s.reserveTailIndex

theorem SameRing.refl (s : Shm β) : s.SameRing s := ⟨rfl, rfl, rfl, rfl, rfl, rfl, rfl⟩

theorem SameRing.trans (first : s.SameRing changed) (second : changed.SameRing last) :
    s.SameRing last where
  pBuffer := second.pBuffer.trans first.pBuffer
  bufferLen := second.bufferLen.trans first.bufferLen
  tailIndex := second.tailIndex.trans first.tailIndex
  key := second.key.trans first.key
  addr := second.addr.trans first.addr
  length := second.length.trans first.length
  reserveTailIndex := second.reserveTailIndex.trans first.reserveTailIndex

/-- Giving a node back writes nothing to the ring. -/
theorem sameRing_release (s : Shm β) (node : Nat) : s.SameRing (s.release node) := by
  rw [release_frame]
  exact ⟨rfl, rfl, rfl, rfl, rfl, rfl, rfl⟩

theorem sameRing_rbErase (balancing : Balancing Nat) (s : Shm β) (node : Nat) :
    s.SameRing (s.rbErase balancing node) := ⟨rfl, rfl, rfl, rfl, rfl, rfl, rfl⟩

theorem sameRing_moveReadHead (s : Shm β) (node : Nat) : s.SameRing (s.moveReadHead node) := by
  rw [moveReadHead_frame]
  exact ⟨rfl, rfl, rfl, rfl, rfl, rfl, rfl⟩

end Shm

namespace Shm.Packets

variable {s : Shm β} {read unread older younger : List (Entry β)} {entry next oldest : Entry β}
  {rest : List (Entry β)} {total : Nat} (balancing : Balancing Nat)

/-- The node of a packet has its key. -/
theorem key_eq (packets : s.Packets read unread total) (member : entry ∈ read ++ unread) :
    s.key entry.node = entry.key := (packets.stored member).key

/-- The flag of a packet that was read is free to change. -/
theorem setFlag (packets : s.Packets read unread total) (member : entry ∈ read) (flag : Int) :
    (s.setFlag entry.node flag).Packets read unread total where
  toCarried := packets.toCarried.congr fun _ isUnread =>
    Function.update_of_ne (packets.node_ne member isUnread).symm _ _
  filed := packets.filed

section Read

/-- A packet without a barrier is given back as soon as it is read. -/
theorem read_free (packets : s.Packets read (entry :: unread) total) :
    ((s.moveReadHead entry.node).release entry.node).Packets read unread total where
  toCarried := by
    have moved := packets.moveReadHead
    have released := Carried.release moved
    rwa [List.append_nil] at released
  filed := by
    rw [release_frame, moveReadHead_frame]
    exact packets.filed

/-- An unread packet was not read. -/
theorem not_read (packets : s.Packets read (entry :: unread) total) :
    entry.node ∉ read.map Entry.node := by
  intro member
  obtain ⟨other, isRead, same⟩ := List.mem_map.mp member
  exact packets.node_ne isRead List.mem_cons_self same

/-- A packet whose key is filed already waits behind the others of its key. -/
theorem read_wait (packets : s.Packets read (entry :: unread) total)
    (present : front entry.key read = some oldest) :
    (s.moveReadHead entry.node).rbInsert balancing entry.key entry.node
        = (oldest.node, s.moveReadHead entry.node) ∧
      Packets
        { s.moveReadHead entry.node with
          homoList := (s.moveReadHead entry.node).homoList.listAddTail entry.node oldest.node }
        (read ++ [entry]) unread total := by
  have own : s.key entry.node = entry.key := packets.key_eq (by simp)
  have moved := packets.moveReadHead
  obtain ⟨linked, filed⟩ := packets.filed.wait own packets.not_read present
  rw [moveReadHead_frame] at moved ⊢
  refine ⟨?_, moved.congr fun _ _ => rfl, filed⟩
  unfold rbInsert
  rw [linked]

/-- A packet with a new key goes into the tree. -/
theorem read_take (packets : s.Packets read (entry :: unread) total)
    (absent : front entry.key read = none) :
    ∃ inserted : Shm β,
      (s.moveReadHead entry.node).rbInsert balancing entry.key entry.node = (0, inserted) ∧
        s.SameRing inserted ∧ inserted.flag = s.flag ∧
        Packets { inserted with homoList := inserted.homoList.initListHead entry.node }
          (read ++ [entry]) unread total := by
  have own : s.key entry.node = entry.key := packets.key_eq (by simp)
  have moved := packets.moveReadHead
  obtain ⟨linked, filed⟩ := packets.filed.insert own packets.not_read balancing absent
  rw [moveReadHead_frame] at moved ⊢
  refine ⟨{ s with
      usedPReadHead := (s.moveReadHead entry.node).usedPReadHead
      rbRoot := balancing.insertColor entry.node (s.rbRoot.link s.key entry.key entry.node).2 },
    ?_, ⟨rfl, rfl, rfl, rfl, rfl, rfl, rfl⟩, rfl, moved.congr fun _ _ => rfl, filed⟩
  unfold rbInsert
  rw [linked]

end Read

section Give

variable (first : sameKey entry.key older = [])

include first

theorem otherKeys_alone (last : sameKey entry.key younger = []) :
    otherKeys entry.key (older ++ entry :: younger) = older ++ younger := by
  have kept : ∀ {list : List (Entry β)}, sameKey entry.key list = [] →
      otherKeys entry.key list = list := by
    intro list none
    apply List.filter_eq_self.mpr
    intro x member
    simpa using sameKey_eq_nil.mp none x member
  have split : otherKeys entry.key (older ++ entry :: younger)
      = otherKeys entry.key older ++ otherKeys entry.key younger := by
    simp [otherKeys]
  rw [split, kept first, kept last]

/-- The last packet of a key is given back. -/
theorem finish (packets : s.Packets (older ++ entry :: younger) unread total)
    (last : sameKey entry.key younger = []) :
    ((s.rbErase balancing entry.node).release entry.node).Packets (older ++ younger) unread
      total where
  toCarried := by
    have erased : (s.rbErase balancing entry.node).Carried (older ++ entry :: younger) unread
        total := packets.toCarried.congr fun _ _ => rfl
    exact erased.release
  filed := by
    have alone : sameKey entry.key (older ++ entry :: younger) = [entry] := by
      rw [sameKey_append, first, sameKey_cons, if_pos rfl, last]
      rfl
    have filed := packets.filed.erase balancing (front_of_sameKey alone)
    rw [release_frame, ← otherKeys_alone first last]
    exact filed

/-- The next packet of a key takes the place of the oldest one, which is given back. -/
theorem promote (packets : s.Packets (older ++ entry :: younger) unread total)
    (waiting : sameKey entry.key younger = next :: rest) :
    s.homoList.next entry.node = next.node ∧
      Packets
        (Shm.release
          { s.rbReplaceNode entry.node next.node with
            homoList := (s.rbReplaceNode entry.node next.node).homoList.listDel 0 entry.node }
          entry.node)
        (older ++ younger) unread total := by
  obtain ⟨following, filed⟩ := packets.filed.promote first waiting
  refine ⟨following, ?_, ?_⟩
  · have changed : Carried
        { s.rbReplaceNode entry.node next.node with
          homoList := (s.rbReplaceNode entry.node next.node).homoList.listDel 0 entry.node }
        (older ++ entry :: younger) unread total := packets.toCarried.congr fun _ _ => rfl
    exact changed.release
  · rw [release_frame]
    exact filed

end Give

end Shm.Packets

section Clean

variable {s : Shm β} {read unread waiting : List (Entry β)} {entry : Entry β} {total head : Nat}

/-- The packets of other nodes. -/
def otherNodes (nodes : List Nat) (read : List (Entry β)) : List (Entry β) :=
  read.filter fun entry => entry.node ∉ nodes

@[simp] theorem otherNodes_nil : otherNodes [] read = read := by
  simp [otherNodes]

theorem otherNodes_otherNodes (first second : List Nat) :
    otherNodes second (otherNodes first read) = otherNodes (first ++ second) read := by
  simp only [otherNodes, List.filter_filter]
  apply List.filter_congr
  intro x _
  by_cases inFirst : x.node ∈ first <;> simp [inFirst]

/-- Dropping the nodes of one key leaves the packets of the others. -/
theorem Filed.otherNodes_sameKey {tree : BinTree Nat} {key : Nat → Int} {homo : Links Nat}
    (filed : Filed tree key homo read) {k : Int} {nodes : List Nat}
    (same : ∀ node, node ∈ nodes ↔ node ∈ (sameKey k read).map Entry.node) :
    otherNodes nodes read = otherKeys k read := by
  apply List.filter_congr
  intro x isRead
  have own : x.node ∈ nodes ↔ x.key = k := by
    rw [same]
    constructor
    · intro given
      obtain ⟨y, isSame, sameNode⟩ := List.mem_map.mp given
      obtain ⟨yRead, yKey⟩ := mem_sameKey.mp isSame
      rw [← filed.keys x isRead, ← sameNode, filed.keys y yRead, yKey]
    · intro ofKey
      exact List.mem_map_of_mem (mem_sameKey.mpr ⟨isRead, ofKey⟩)
  simp [own]

namespace Shm

/-- A packet that was read may be released. -/
theorem Carried.release_mem (carried : s.Carried read unread total) (member : entry ∈ read) :
    (s.release entry.node).Carried (otherNodes [entry.node] read) unread total := by
  obtain ⟨older, younger, rfl⟩ := List.append_of_mem member
  have nodup := carried.nodup_nodes
  simp only [List.map_append, List.map_cons] at nodup
  have kept : otherNodes [entry.node] (older ++ entry :: younger) = older ++ younger := by
    have apart : ∀ x ∈ older ++ younger, x.node ≠ entry.node := by
      intro x inside same
      have own := (List.nodup_append.mp nodup).1
      rw [List.nodup_middle] at own
      apply (List.nodup_cons.mp own).1
      rw [← same, ← List.map_append]
      exact List.mem_map_of_mem inside
    have both := List.filter_eq_self.mpr fun x inside => decide_eq_true (apart x inside)
    simpa [otherNodes] using both
  rw [kept]
  exact carried.release

/-- The waiting list of a node is given back entry by entry. -/
theorem releaseHomo_eq (carried : s.Carried read unread total)
    (path : List.IsChain s.homoList.Linked (waiting.map Entry.node ++ [head]))
    (inside : ∀ entry ∈ waiting, entry ∈ read) (nodup : (waiting.map Entry.node).Nodup)
    (apart : head ∉ waiting.map Entry.node) {fuel : Nat} (enough : waiting.length < fuel) :
    ∃ released : Shm β,
      releaseHomo head fuel s ((waiting.map Entry.node).headD head) = some released ∧
        s.SameRing released ∧ released.flag = s.flag ∧ released.rbRoot = s.rbRoot ∧
        released.homoList = s.homoList ∧
        released.Carried (otherNodes (waiting.map Entry.node) read) unread total := by
  induction waiting generalizing s read fuel with
  | nil =>
    obtain ⟨fuel, rfl⟩ : ∃ more, fuel = more + 1 := ⟨fuel - 1, by omega⟩
    refine ⟨s, ?_, .refl s, rfl, rfl, rfl, ?_⟩
    · simp [releaseHomo]
    · simpa using carried
  | cons first rest ih =>
    obtain ⟨fuel, rfl⟩ : ∃ more, fuel = more + 1 := ⟨fuel - 1, by omega⟩
    simp only [List.map_cons, List.nodup_cons] at nodup
    simp only [List.map_cons, List.mem_cons, not_or] at apart
    have released := carried.release_mem (inside first List.mem_cons_self)
    have next : s.homoList.next first.node = (rest.map Entry.node).headD head := by
      cases rest with
      | nil => exact (List.isChain_cons_cons.mp path).1.1
      | cons second rest => exact (List.isChain_cons_cons.mp path).1.1
    have following : (s.release first.node).homoList = s.homoList := by rw [release_frame]
    have left : ∀ entry ∈ rest, entry ∈ otherNodes [first.node] read := by
      intro entry member
      have different : entry.node ≠ first.node := by
        intro same
        exact nodup.1 (same ▸ List.mem_map_of_mem member)
      simpa [otherNodes, different] using inside entry (List.mem_cons_of_mem _ member)
    obtain ⟨last, looped, ring, flag, rbRoot, homoList, lastCarried⟩ :=
      ih released (following ▸ path.tail) left nodup.2 apart.2 (Nat.lt_of_succ_lt_succ enough)
    refine ⟨last, ?_, (sameRing_release s first.node).trans ring, ?_, ?_, ?_, ?_⟩
    · rw [List.map_cons, List.headD_cons, releaseHomo, if_neg (Ne.symm apart.1)]
      dsimp only
      rw [following, next, looped]
    · rw [flag, release_frame]
    · rw [rbRoot, release_frame]
    · rw [homoList, release_frame]
    · rw [otherNodes_otherNodes] at lastCarried
      exact lastCarried

/-- Cleaning up after the oldest packet of a key gives back all read packets of that key. -/
theorem Packets.cleanNode (packets : s.Packets read unread total) (balancing : Balancing Nat)
    (oldest : front entry.key read = some entry) :
    ∃ cleaned : Shm β,
      s.cleanNode balancing entry.node = some cleaned ∧ cleaned.flag = s.flag ∧
        s.SameRing cleaned ∧ cleaned.Packets (otherKeys entry.key read) unread total := by
  obtain ⟨member, -⟩ := front_eq_some oldest
  obtain ⟨rest, shape⟩ := sameKey_of_front oldest
  obtain ⟨ring, nodup⟩ := packets.filed.homo_cons shape
  rw [List.nodup_cons] at nodup
  have erased : (s.rbErase balancing entry.node).Carried read unread total :=
    packets.toCarried.congr fun _ _ => rfl
  have inside : ∀ x ∈ rest, x ∈ read := by
    intro x waits
    have : x ∈ sameKey entry.key read := shape ▸ List.mem_cons_of_mem _ waits
    exact (mem_sameKey.mp this).1
  have enough : rest.length < s.reserveTailIndex + 1 := by
    obtain ⟨empty, lists⟩ := packets.lists
    have used := lists.length_used_le
    have fewer : (sameKey entry.key read).length ≤ read.length := List.length_filter_le _ _
    simp only [shape, List.length_cons] at fewer
    simp only [List.length_append, List.length_map] at used
    omega
  have path : List.IsChain s.homoList.Linked (rest.map Entry.node ++ [entry.node]) := ring.tail
  obtain ⟨released, looped, ring', flag, rbRoot, homoList, carried⟩ :=
    releaseHomo_eq erased path inside nodup.2 nodup.1 enough
  have same := (sameRing_rbErase balancing s entry.node).trans ring'
  have stillThere : entry ∈ otherNodes (rest.map Entry.node) read := by
    simpa [otherNodes, member] using nodup.1
  have start : (s.rbErase balancing entry.node).homoList.next entry.node
      = (rest.map Entry.node).headD entry.node := by
    cases rest with
    | nil => exact ring.next_singleton
    | cons second rest => exact ring.next_first
  have left : otherNodes (rest.map Entry.node ++ [entry.node]) read = otherKeys entry.key read := by
    apply packets.filed.otherNodes_sameKey
    simp [shape, or_comm]
  have last := carried.release_mem stillThere
  rw [otherNodes_otherNodes, left] at last
  refine ⟨released.release entry.node, ?_, ?_, same.trans (sameRing_release _ _), last, ?_⟩
  · simp only [Shm.cleanNode]
    rw [start, looped, Option.map_some]
  · rw [release_frame]
    exact flag
  · have filed := packets.filed.erase balancing oldest
    rw [release_frame]
    rw [rbRoot, same.key, homoList]
    exact filed

end Shm

end Clean

section Push

variable {s : Shm β} {read unread : List (Entry β)} {total : Nat}

namespace Shm

/-- A packet that fits goes to a free node, which joins the unread ones. -/
theorem Packets.fillNode (packets : s.Packets read unread total)
    (free : s.emptyListEmpty = false) {pData : List β} (nonempty : 0 < pData.length)
    {pBuffer : Nat → β} {tailIndex : Nat} (copied : s.copyPacketIn pData = some (pBuffer, tailIndex))
    (key flag : Int) :
    ∃ (node : Nat) (filled : Shm β),
      Shm.fillNode { s with pBuffer := pBuffer, tailIndex := tailIndex } s.tailIndex pData.length
          key flag = (node, filled) ∧
        node ∉ (read ++ unread).map Entry.node ∧
        filled.flag = Function.update s.flag node flag ∧ filled.bufferLen = s.bufferLen ∧
        filled.reserveTailIndex = s.reserveTailIndex ∧
        ∀ seq, filled.Packets read (unread ++ [⟨seq, node, key, flag, total, pData⟩])
          (total + pData.length) := by
  obtain ⟨⟨empty, lists⟩, region, flags⟩ := packets.toCarried
  have fitting := region.copyPacketIn_eq pData
  rw [copied] at fitting
  split at fitting
  case isFalse => cases fitting
  case isTrue fits =>
  obtain ⟨rfl, rfl⟩ := Prod.mk.inj (Option.some.inj fitting)
  set grown : Shm β :=
    { s with
      pBuffer := RingBuffer.store s.bufferLen s.pBuffer total pData
      tailIndex := (total + pData.length) % s.bufferLen } with grownDef
  have grownLists : grown.Lists [] empty (read.map Entry.node) (unread.map Entry.node) :=
    ⟨lists.emptyRing, lists.emptyHead, lists.usedRing, lists.usedHead, lists.readHead,
      lists.reserveLe, lists.partition⟩
  obtain ⟨rest, popped⟩ := popEmptyListNode_lists grownLists free
  obtain ⟨-, -, notUsed⟩ := popped.loose_apart
  rw [← List.map_append] at notUsed
  unfold Shm.fillNode
  dsimp only
  set node := grown.popEmptyListNode.1
  rw [popEmptyListNode_frame] at popped ⊢
  refine ⟨node, _, rfl, notUsed, ?_, ?_, ?_, ?_⟩
  · rw [pushUsedListNode_frame]
  · rw [pushUsedListNode_frame]
  · rw [pushUsedListNode_frame]
  intro seq
  have different : ∀ other ∈ read ++ unread, other.node ≠ node := by
    intro other member same
    exact notUsed (same ▸ List.mem_map_of_mem member)
  refine ⟨⟨⟨rest, ?_⟩, ?_, ?_⟩, ?_⟩
  · rw [List.map_append]
    apply pushUsedListNode_lists
    exact ⟨popped.emptyRing, popped.emptyHead, popped.usedRing, popped.usedHead, popped.readHead,
      popped.reserveLe, popped.partition⟩
  · rw [← List.append_assoc, pushUsedListNode_frame]
    exact region.fill fits nonempty rfl different rfl rfl rfl rfl rfl rfl rfl
  · rw [pushUsedListNode_frame]
    intro other member
    rcases List.mem_append.mp member with old | new
    · have apart := different other (List.mem_append_right _ old)
      exact (Function.update_of_ne apart _ _).trans (flags other old)
    · rw [List.mem_singleton.mp new]
      exact Function.update_self _ _ _
  · rw [pushUsedListNode_frame]
    apply packets.filed.congr_key
    intro other member
    exact Function.update_of_ne (different other (List.mem_append_left _ member)) _ _

end Shm

end Push

section Copy

variable {s changed : Shm β} {read unread : List (Entry β)} {entry : Entry β} {total : Nat}

namespace Shm

/-- What is read out depends on the ring only. -/
theorem SameRing.copyPacketOut (same : s.SameRing changed) (node : Nat) :
    changed.copyPacketOut node = s.copyPacketOut node := by
  unfold Shm.copyPacketOut
  rw [same.addr, same.tailIndex, same.pBuffer, same.length, same.bufferLen]

/-- The copy of a packet is the packet. -/
theorem Carried.copyPacketOut (carried : s.Carried read unread total)
    (member : entry ∈ read ++ unread) : s.copyPacketOut entry.node = entry.data :=
  Region.copyPacketOut_eq (carried.stored member) carried.region.positive carried.region.tail
    (carried.region.ended entry member) (carried.region.lap_of_mem member)

end Shm

end Copy

end Taomee.Barrier
