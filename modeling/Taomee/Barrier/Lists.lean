import Mathlib.Data.List.Count
import Taomee.Barrier.Model

/-!
# The empty list, the used list and the reserve

`Lists` says which nodes the two circles of `empty_used_list` links hold, where the
unread cursor divides the used one, and that every node of the array is in exactly
one of the three places, or loose in the middle of an operation. Each list operation
of the queue moves nodes between them.
-/

namespace Taomee.Barrier

open CircularList

variable {β : Type*}

namespace Shm

/-- The nodes never used so far. -/
def reserve (s : Shm β) : List Nat :=
  List.range' (s.reserveHeadIndex + 1) (s.reserveTailIndex - s.reserveHeadIndex)

/-- All nodes of the array. -/
def nodeArray (s : Shm β) : List Nat := List.range' 1 s.reserveTailIndex

/-- The nodes taken off the lists, the empty list, and the used list up to and from the
unread cursor. -/
structure Lists (s : Shm β) (loose empty read unread : List Nat) : Prop where
  emptyRing : s.emptyUsedList.Ring empty
  emptyHead : s.emptyPHead = empty.headD 0
  usedRing : s.emptyUsedList.Ring (read ++ unread)
  usedHead : s.usedPHead = (read ++ unread).headD 0
  readHead : s.usedPReadHead = unread.headD 0
  reserveLe : s.reserveHeadIndex ≤ s.reserveTailIndex
  partition : (loose ++ empty ++ (read ++ unread) ++ s.reserve).Perm s.nodeArray

end Shm

open Shm

/-- At the start every node is in the reserve. -/
theorem fresh_lists (bufferLen nodes : Nat) (byte : β) :
    (fresh bufferLen nodes byte).Lists [] [] [] [] where
  emptyRing := trivial
  emptyHead := rfl
  usedRing := trivial
  usedHead := rfl
  readHead := rfl
  reserveLe := Nat.zero_le _
  partition := by simp [reserve, nodeArray, fresh]

namespace Shm.Lists

variable {s : Shm β} {loose empty read unread front back : List Nat} {node : Nat}

/-- No node is in two lists. -/
theorem nodup_all (lists : s.Lists loose empty read unread) :
    (loose ++ empty ++ (read ++ unread) ++ s.reserve).Nodup :=
  lists.partition.nodup_iff.mpr List.nodup_range'

/-- No node is twice in the empty list. -/
theorem nodup_empty (lists : s.Lists loose empty read unread) : empty.Nodup := by
  have nodup := lists.nodup_all
  simp only [List.nodup_append] at nodup
  tauto

/-- No node is twice in the used list. -/
theorem nodup_used (lists : s.Lists loose empty read unread) : (read ++ unread).Nodup :=
  (List.nodup_append.mp (List.nodup_append.mp lists.nodup_all).1).2.1

/-- No node is both empty and used. -/
theorem disjoint (lists : s.Lists loose empty read unread) :
    List.Disjoint empty (read ++ unread) := by
  have apart := List.disjoint_of_nodup_append (List.nodup_append.mp lists.nodup_all).1
  intro x inEmpty inUsed
  exact apart (List.mem_append_right _ inEmpty) inUsed

/-- Every node has an index of the array. -/
theorem mem_array (lists : s.Lists loose empty read unread)
    (member : node ∈ loose ++ empty ++ (read ++ unread) ++ s.reserve) :
    0 < node ∧ node ≤ s.reserveTailIndex := by
  have inside := lists.partition.mem_iff.mp member
  rw [nodeArray, List.mem_range'] at inside
  omega

/-- The null index is no empty node. -/
theorem ne_zero_of_empty (lists : s.Lists loose empty read unread) (member : node ∈ empty) :
    node ≠ 0 := by
  have bounded := lists.mem_array
    (show node ∈ loose ++ empty ++ (read ++ unread) ++ s.reserve by simp [member])
  omega

/-- The null index is no used node. -/
theorem ne_zero_of_used (lists : s.Lists loose empty read unread)
    (member : node ∈ read ++ unread) : node ≠ 0 := by
  have bounded := lists.mem_array
    (List.mem_append_left s.reserve (List.mem_append_right (loose ++ empty) member))
  omega

/-- A loose node is on neither list. -/
theorem loose_apart (lists : s.Lists (node :: loose) empty read unread) :
    node ≠ 0 ∧ node ∉ empty ∧ node ∉ read ++ unread := by
  have bounded := lists.mem_array List.mem_cons_self
  have nodup := lists.nodup_all
  simp only [List.cons_append, List.nodup_cons, List.mem_append, not_or] at nodup
  simp only [List.mem_append, not_or]
  exact ⟨by omega, nodup.1.1.1.2, nodup.1.1.2⟩

/-- The head is null when the list is empty. -/
theorem emptyPHead_eq_zero (lists : s.Lists loose empty read unread) :
    s.emptyPHead = 0 ↔ empty = [] := by
  rw [lists.emptyHead]
  cases empty with
  | nil => simp
  | cons first rest => simpa using lists.ne_zero_of_empty List.mem_cons_self

/-- The head is null when the list is empty. -/
theorem usedPHead_eq_zero (lists : s.Lists loose empty read unread) :
    s.usedPHead = 0 ↔ read ++ unread = [] := by
  rw [lists.usedHead]
  cases shape : read ++ unread with
  | nil => simp
  | cons first rest => simpa using lists.ne_zero_of_used (shape ▸ List.mem_cons_self)

/-- The head is null when nothing is left to read. -/
theorem usedPReadHead_eq_zero (lists : s.Lists loose empty read unread) :
    s.usedPReadHead = 0 ↔ unread = [] := by
  rw [lists.readHead]
  cases unread with
  | nil => simp
  | cons first rest => simpa using lists.ne_zero_of_used List.mem_append_cons_self

/-- The head is the first node. -/
theorem usedPHead_eq (lists : s.Lists loose empty (node :: back) unread) : s.usedPHead = node :=
  lists.usedHead

/-- A node behind the first is not the head. -/
theorem usedPHead_ne {first : Nat}
    (lists : s.Lists loose empty (first :: front ++ node :: back) unread) : s.usedPHead ≠ node := by
  have head : s.usedPHead = first := lists.usedHead
  have nodup := lists.nodup_used
  intro same
  rw [← same, head] at nodup
  simp at nodup

/-- The used list is no longer than the node array. -/
theorem length_used_le (lists : s.Lists loose empty read unread) :
    (read ++ unread).length ≤ s.reserveTailIndex := by
  have same := lists.partition.length_eq
  simp only [nodeArray, List.length_append, List.length_range'] at same
  rw [List.length_append]
  omega

/-- There is no node when neither the list nor the reserve has one. -/
theorem emptyListEmpty_iff (lists : s.Lists loose empty read unread) :
    s.emptyListEmpty = true ↔ empty = [] ∧ s.reserve = [] := by
  simp only [emptyListEmpty, decide_eq_true_eq, not_or, not_not, lists.emptyPHead_eq_zero,
    reserve, List.range'_eq_nil_iff]
  constructor
  · rintro ⟨none, full⟩
    exact ⟨none, by omega⟩
  · rintro ⟨none, full⟩
    exact ⟨none, by omega⟩

end Shm.Lists

section UsedListDel

variable {s : Shm β} {loose empty front back unread : List Nat} {node : Nat}

/-- Deleting a used node touches the head of the used list, its links and
`head_index`, and nothing else. -/
theorem usedListDel_frame (s : Shm β) (node : Nat) :
    s.usedListDel node =
      { s with
        usedPHead := (s.usedListDel node).usedPHead
        headIndex := (s.usedListDel node).headIndex
        emptyUsedList := (s.usedListDel node).emptyUsedList } := by
  unfold usedListDel moveRingQueueHeadIndex
  split
  · split <;> rfl
  · rfl

/-- A node that is taken out leaves both rings closed. -/
theorem usedListDel_links (lists : s.Lists loose empty (front ++ node :: back) unread) :
    (s.usedListDel node).emptyUsedList.Ring empty ∧
      (s.usedListDel node).emptyUsedList.Ring (front ++ back ++ unread) := by
  have shape : front ++ node :: back ++ unread = front ++ node :: (back ++ unread) := by simp
  have ring := lists.usedRing
  have nodup := lists.nodup_used
  rw [shape] at ring nodup
  have inside : node ∈ front ++ node :: (back ++ unread) := by simp
  have apart : List.Disjoint empty (front ++ node :: (back ++ unread)) := shape ▸ lists.disjoint
  have deleted : (s.emptyUsedList.listDel 0 node).Ring empty ∧
      (s.emptyUsedList.listDel 0 node).Ring (front ++ back ++ unread) := by
    constructor
    · exact lists.emptyRing.listDel_frame ring inside apart
    · rw [List.append_assoc]
      exact ring.listDel nodup
  unfold usedListDel moveRingQueueHeadIndex
  split
  case isFalse => exact deleted
  case isTrue atHead =>
    split
    case isFalse => exact deleted
    case isTrue alone =>
      -- the last used node keeps its links
      have start : (front ++ node :: (back ++ unread)).head? = some node := by
        rw [lists.usedHead, shape] at atHead
        cases front with
        | nil => rfl
        | cons first rest => simpa using atHead
      have own : s.emptyUsedList.next node = node := by simpa [listEmpty] using alone
      have noBack := (ring.next_eq_first_iff nodup start).mp own
      have noFront : front = [] := by
        cases front with
        | nil => rfl
        | cons first rest =>
          obtain rfl : first = node := by simpa using start
          simp at nodup
      constructor
      · exact lists.emptyRing
      · rw [noFront, List.nil_append, noBack]
        trivial

/-- The head goes to the node behind the one taken out. -/
theorem usedListDel_usedPHead (lists : s.Lists loose empty (front ++ node :: back) unread) :
    (s.usedListDel node).usedPHead = (front ++ back ++ unread).headD 0 := by
  have ring := lists.usedRing
  have nodup := lists.nodup_used
  unfold usedListDel moveRingQueueHeadIndex
  cases front with
  | cons first rest =>
    rw [if_neg lists.usedPHead_ne, lists.usedHead]
    rfl
  | nil =>
    rw [if_pos lists.usedPHead_eq]
    cases shape : back ++ unread with
    | nil =>
      have own : s.emptyUsedList.next node = node := by
        simp only [List.nil_append, List.cons_append, shape] at ring
        exact ring.next_singleton
      simp [listEmpty, own, shape]
    | cons second rest =>
      simp only [List.nil_append, List.cons_append, shape] at ring nodup
      have next := ring.next_first
      have notAlone : listEmpty s.emptyUsedList node = false := by
        simp only [listEmpty, next, decide_eq_false_iff_not]
        rintro rfl
        simp at nodup
      simp [notAlone, next, shape]

/-- Taking out the first packet frees the memory up to the next one. -/
theorem usedListDel_headIndex (lists : s.Lists loose empty (front ++ node :: back) unread) :
    (s.usedListDel node).headIndex =
      if front = [] then
        if back ++ unread = [] then s.tailIndex else s.addr ((back ++ unread).headD 0)
      else s.headIndex := by
  have moved := usedListDel_usedPHead lists
  cases front with
  | cons first rest => simp [usedListDel, lists.usedPHead_ne]
  | nil =>
    have zero : (back ++ unread).headD 0 = 0 ↔ back ++ unread = [] := by
      cases shape : back ++ unread with
      | nil => simp
      | cons second rest =>
        have : second ∈ [] ++ node :: back ++ unread := by simp [shape]
        simpa using lists.ne_zero_of_used this
    rw [List.nil_append] at moved
    unfold usedListDel moveRingQueueHeadIndex at moved ⊢
    rw [if_pos lists.usedPHead_eq] at moved ⊢
    split at moved
    case isTrue alone =>
      have none : back ++ unread = [] := zero.mp moved.symm
      simp [alone, none]
    case isFalse notAlone =>
      simp only at moved
      by_cases none : back ++ unread = []
      · simp [notAlone, none, moved]
      · have some : s.emptyUsedList.next node ≠ 0 := by rwa [moved, Ne, zero]
        rw [if_neg notAlone, if_neg none, ← moved]
        exact if_pos some

/-- A node that is taken out is loose. -/
theorem usedListDel_lists (lists : s.Lists loose empty (front ++ node :: back) unread) :
    (s.usedListDel node).Lists (node :: loose) empty (front ++ back) unread := by
  obtain ⟨emptyRing, usedRing⟩ := usedListDel_links lists
  have usedHead := usedListDel_usedPHead lists
  rw [usedListDel_frame] at *
  constructor
  case emptyRing => exact emptyRing
  case emptyHead => exact lists.emptyHead
  case usedRing => exact usedRing
  case usedHead => exact usedHead
  case readHead => exact lists.readHead
  case reserveLe => exact lists.reserveLe
  case partition =>
    apply List.Perm.trans _ lists.partition
    rw [List.perm_iff_count]
    simp only [List.count_append, List.count_cons, reserve]
    omega

end UsedListDel

section PushEmptyListNode

variable {s : Shm β} {loose empty read unread : List Nat} {node : Nat}

/-- Only the empty list and its head change. -/
theorem pushEmptyListNode_frame (s : Shm β) (node : Nat) :
    s.pushEmptyListNode node =
      { s with
        emptyPHead := (s.pushEmptyListNode node).emptyPHead
        emptyUsedList := (s.pushEmptyListNode node).emptyUsedList } := by
  unfold pushEmptyListNode
  split <;> rfl

/-- A loose node comes to the end of the empty list. -/
theorem pushEmptyListNode_lists (lists : s.Lists (node :: loose) empty read unread) :
    (s.pushEmptyListNode node).Lists loose (empty ++ [node]) read unread := by
  obtain ⟨notNull, notEmpty, notUsed⟩ := lists.loose_apart
  have links : (s.pushEmptyListNode node).emptyUsedList.Ring (empty ++ [node]) ∧
      (s.pushEmptyListNode node).emptyUsedList.Ring (read ++ unread) ∧
      (s.pushEmptyListNode node).emptyPHead = (empty ++ [node]).headD 0 := by
    have head := lists.emptyHead
    unfold pushEmptyListNode
    split
    case isTrue some =>
      cases empty with
      | nil => exact absurd head some
      | cons first rest =>
        have : s.emptyPHead = first := head
        rw [this]
        refine ⟨?_, ?_, rfl⟩
        · exact lists.emptyRing.listAddTail lists.nodup_empty notEmpty
        · exact lists.usedRing.listAddTail_frame lists.emptyRing List.mem_cons_self
            (List.disjoint_comm.mp lists.disjoint) notUsed
    case isFalse none =>
      have : empty = [] := lists.emptyPHead_eq_zero.mp (not_not.mp none)
      subst this
      exact ⟨Links.ring_initListHead _ _, lists.usedRing.initListHead notUsed, rfl⟩
  obtain ⟨emptyRing, usedRing, emptyHead⟩ := links
  rw [pushEmptyListNode_frame] at *
  constructor
  case emptyRing => exact emptyRing
  case emptyHead => exact emptyHead
  case usedRing => exact usedRing
  case usedHead => exact lists.usedHead
  case readHead => exact lists.readHead
  case reserveLe => exact lists.reserveLe
  case partition =>
    apply List.Perm.trans _ lists.partition
    rw [List.perm_iff_count]
    simp only [List.count_append, List.count_cons, List.count_nil, reserve]
    omega

end PushEmptyListNode

section Release

variable {s : Shm β} {loose empty front back unread : List Nat} {node : Nat}

/-- What giving a node back leaves alone. -/
theorem release_frame (s : Shm β) (node : Nat) :
    s.release node =
      { s with
        headIndex := (s.release node).headIndex
        usedPHead := (s.release node).usedPHead
        emptyPHead := (s.release node).emptyPHead
        emptyUsedList := (s.release node).emptyUsedList } := by
  unfold release
  rw [pushEmptyListNode_frame, usedListDel_frame]

/-- A packet that is released gives its node back. -/
theorem release_lists (lists : s.Lists loose empty (front ++ node :: back) unread) :
    (s.release node).Lists loose (empty ++ [node]) (front ++ back) unread :=
  pushEmptyListNode_lists (usedListDel_lists lists)

/-- The release of the first packet frees the memory up to the next one. -/
theorem release_headIndex (lists : s.Lists loose empty (front ++ node :: back) unread) :
    (s.release node).headIndex =
      if front = [] then
        if back ++ unread = [] then s.tailIndex else s.addr ((back ++ unread).headD 0)
      else s.headIndex := by
  unfold release
  rw [pushEmptyListNode_frame]
  exact usedListDel_headIndex lists

end Release

section MoveReadHead

variable {s : Shm β} {loose empty read unread : List Nat} {node : Nat}

/-- Only the head of the unread ones changes. -/
theorem moveReadHead_frame (s : Shm β) (node : Nat) :
    s.moveReadHead node = { s with usedPReadHead := (s.moveReadHead node).usedPReadHead } := by
  unfold moveReadHead
  split <;> rfl

/-- One packet more is read. -/
theorem moveReadHead_lists (lists : s.Lists loose empty read (node :: unread)) :
    (s.moveReadHead node).Lists loose empty (read ++ [node]) unread := by
  have head : (s.moveReadHead node).usedPReadHead = unread.headD 0 := by
    have start : (read ++ node :: unread).head? = some s.usedPHead := by
      rw [lists.usedHead]
      cases read <;> rfl
    have last := lists.usedRing.next_eq_first_iff lists.nodup_used start
    unfold moveReadHead
    split
    case isTrue atEnd =>
      rw [last.mp (by simpa [listIsLast] using atEnd)]
      rfl
    case isFalse notEnd =>
      cases unread with
      | nil => exact absurd (by simpa [listIsLast] using last.mpr rfl) notEnd
      | cons second rest => exact lists.usedRing.linked.1
  rw [moveReadHead_frame] at *
  constructor
  case emptyRing => exact lists.emptyRing
  case emptyHead => exact lists.emptyHead
  case usedRing => simpa using lists.usedRing
  case usedHead => simpa using lists.usedHead
  case readHead => exact head
  case reserveLe => exact lists.reserveLe
  case partition => simpa [reserve, nodeArray] using lists.partition

end MoveReadHead

section PopEmptyListNode

variable {s : Shm β} {loose empty read unread : List Nat}

/-- Only the empty list and the reserve change. -/
theorem popEmptyListNode_frame (s : Shm β) :
    s.popEmptyListNode.2 =
      { s with
        emptyPHead := s.popEmptyListNode.2.emptyPHead
        reserveHeadIndex := s.popEmptyListNode.2.reserveHeadIndex
        emptyUsedList := s.popEmptyListNode.2.emptyUsedList } := by
  unfold popEmptyListNode
  split
  · split <;> rfl
  · split <;> rfl

/-- When a node is free, popping takes one off the empty list or the reserve. -/
theorem popEmptyListNode_lists (lists : s.Lists loose empty read unread)
    (free : s.emptyListEmpty = false) :
    ∃ rest, s.popEmptyListNode.2.Lists (s.popEmptyListNode.1 :: loose) rest read unread := by
  have head := lists.emptyHead
  cases empty with
  | nil =>
    have none : s.emptyPHead = 0 := head
    have left : s.reserveHeadIndex < s.reserveTailIndex := by
      by_contra full
      have : s.emptyListEmpty = true := by simp [emptyListEmpty, none, full]
      simp [this] at free
    have some : ¬ s.reserveTailIndex - s.reserveHeadIndex ≤ 0 := by omega
    have taken : s.reserve = (s.reserveHeadIndex + 1) ::
        List.range' (s.reserveHeadIndex + 1 + 1) (s.reserveTailIndex - (s.reserveHeadIndex + 1)) := by
      unfold reserve
      obtain ⟨count, shape⟩ : ∃ count, s.reserveTailIndex - s.reserveHeadIndex = count + 1 :=
        ⟨s.reserveTailIndex - s.reserveHeadIndex - 1, by omega⟩
      have fewer : s.reserveTailIndex - (s.reserveHeadIndex + 1) = count := by omega
      rw [shape, fewer, List.range'_succ]
    unfold popEmptyListNode
    rw [if_pos none, if_neg some]
    refine ⟨[], lists.emptyRing, lists.emptyHead, lists.usedRing, lists.usedHead,
      lists.readHead, left, ?_⟩
    apply List.Perm.trans _ lists.partition
    rw [taken, List.perm_iff_count]
    simp only [List.count_append, List.count_cons, reserve]
    omega
  | cons first rest =>
    have here : s.emptyPHead = first := head
    have notNull : first ≠ 0 := lists.ne_zero_of_empty List.mem_cons_self
    have partition : ((first :: loose) ++ rest ++ (read ++ unread) ++ s.reserve).Perm s.nodeArray := by
      apply List.Perm.trans _ lists.partition
      rw [List.perm_iff_count]
      simp only [List.count_append, List.count_cons]
      omega
    have alone := lists.emptyRing.next_eq_self_iff lists.nodup_empty
    unfold popEmptyListNode
    rw [here, if_neg notNull]
    refine ⟨rest, ?_⟩
    split
    case isTrue last =>
      have : rest = [] := alone.mp (by simpa [listIsLast] using last)
      subst this
      exact ⟨trivial, rfl, lists.usedRing, lists.usedHead, lists.readHead, lists.reserveLe,
        partition⟩
    case isFalse notLast =>
      cases rest with
      | nil => exact absurd (by simpa [listIsLast] using alone.mpr rfl) notLast
      | cons second rest =>
        exact ⟨lists.emptyRing.listDel_first lists.nodup_empty, lists.emptyRing.next_first,
          lists.usedRing.listDel_frame lists.emptyRing List.mem_cons_self
            (List.disjoint_comm.mp lists.disjoint),
          lists.usedHead, lists.readHead, lists.reserveLe, partition⟩

end PopEmptyListNode

section PushUsedListNode

variable {s : Shm β} {loose empty read unread : List Nat} {node : Nat}

/-- Only the used list and its heads change. -/
theorem pushUsedListNode_frame (s : Shm β) (node : Nat) :
    s.pushUsedListNode node =
      { s with
        usedPHead := (s.pushUsedListNode node).usedPHead
        usedPReadHead := (s.pushUsedListNode node).usedPReadHead
        emptyUsedList := (s.pushUsedListNode node).emptyUsedList } := by
  unfold pushUsedListNode
  split <;> rfl

/-- A loose node comes to the end of the used list. -/
theorem pushUsedListNode_lists (lists : s.Lists (node :: loose) empty read unread) :
    (s.pushUsedListNode node).Lists loose empty read (unread ++ [node]) := by
  obtain ⟨notNull, notEmpty, notUsed⟩ := lists.loose_apart
  have links : (s.pushUsedListNode node).emptyUsedList.Ring empty ∧
      (s.pushUsedListNode node).emptyUsedList.Ring (read ++ (unread ++ [node])) ∧
      (s.pushUsedListNode node).usedPHead = (read ++ (unread ++ [node])).headD 0 ∧
      (s.pushUsedListNode node).usedPReadHead = (unread ++ [node]).headD 0 := by
    have ring := lists.usedRing
    have nodup := lists.nodup_used
    have head := lists.usedHead
    have apart := lists.disjoint
    rw [← List.append_assoc]
    unfold pushUsedListNode
    split
    case isTrue some =>
      have readHead : (if s.usedPReadHead = 0 then node else s.usedPReadHead)
          = (unread ++ [node]).headD 0 := by
        split
        case isTrue none => rw [lists.usedPReadHead_eq_zero.mp none]; rfl
        case isFalse given =>
          rw [lists.readHead]
          cases unread with
          | nil => exact absurd lists.readHead given
          | cons second rest => rfl
      cases shape : read ++ unread with
      | nil => exact absurd (lists.usedPHead_eq_zero.mpr shape) some
      | cons first rest =>
        rw [shape] at ring nodup head notUsed apart
        have here : s.usedPHead = first := head
        rw [here]
        refine ⟨?_, ?_, rfl, readHead⟩
        · exact lists.emptyRing.listAddTail_frame ring List.mem_cons_self apart notEmpty
        · exact ring.listAddTail nodup notUsed
    case isFalse none =>
      have nothing : read ++ unread = [] := lists.usedPHead_eq_zero.mp (not_not.mp none)
      obtain ⟨rfl, rfl⟩ := List.append_eq_nil_iff.mp nothing
      exact ⟨lists.emptyRing.initListHead notEmpty, Links.ring_initListHead _ _, rfl, rfl⟩
  obtain ⟨emptyRing, usedRing, usedHead, readHead⟩ := links
  rw [pushUsedListNode_frame] at *
  constructor
  case emptyRing => exact emptyRing
  case emptyHead => exact lists.emptyHead
  case usedRing => exact usedRing
  case usedHead => exact usedHead
  case readHead => exact readHead
  case reserveLe => exact lists.reserveLe
  case partition =>
    apply List.Perm.trans _ lists.partition
    rw [List.perm_iff_count]
    simp only [List.count_append, List.count_cons, List.count_nil, reserve]
    omega

end PushUsedListNode

end Taomee.Barrier
