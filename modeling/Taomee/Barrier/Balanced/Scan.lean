import Taomee.Barrier.Balanced.Model

/-!
# What a pop does to the packets

`Pops` says in terms of packets what `pop_used_list_node` does in terms of nodes: the
next packet of the worker's key takes the place of its last one, or the loop reads on,
past the packets that must wait, to one it can hand out.
-/

namespace Taomee.Barrier.Balanced

open CircularList SearchTree

variable {β : Type*}

/-- What a pop comes to. A `free` packet has no barrier; a `taken` one is the oldest of
its key from now on. -/
inductive Found (β : Type*) where
  | nothing
  | tooLong
  | free (entry : Entry β)
  | taken (entry : Entry β)

/-- The packet handed out. -/
def Found.entry : Found β → Option (Entry β)
  | .nothing | .tooLong => none
  | .free entry | .taken entry => some entry

/-- The flags after a pop: the process id replaces that of a packet taken. -/
def Found.flags (pid : Int) (flag : Nat → Int) : Found β → Nat → Int
  | .taken entry => Function.update flag entry.node pid
  | _ => flag

/-- The answer and the worker after a pop. -/
def Found.Answered (w : Worker) (popped : PopNode β) : Found β → Prop
  | .nothing => popped.failed = false ∧ popped.node = 0 ∧ popped.worker = { w with mLastFlag := 0 }
  | .tooLong => popped.failed = true ∧ popped.worker = w
  | .free entry =>
    popped.failed = false ∧ popped.node = entry.node ∧
      popped.worker = { w with mLastFlag := 0 }
  | .taken entry =>
    popped.failed = false ∧ popped.node = entry.node ∧ popped.worker.mInit = w.mInit ∧
      popped.worker.mLastFlag ≠ 0 ∧ popped.worker.mPAssistArrayNode = entry.node

/-- The loop of a pop, from the packets read and unread to those it leaves. -/
inductive Scan (dataLen : Int) :
    List (Entry β) → List (Entry β) → Found β → List (Entry β) → List (Entry β) → Prop where
  | nothing {read : List (Entry β)} : Scan dataLen read [] .nothing read []
  | tooLong {read unread : List (Entry β)} {entry : Entry β}
      (long : (entry.data.length : Int) > dataLen) :
      Scan dataLen read (entry :: unread) .tooLong read (entry :: unread)
  | free {read unread : List (Entry β)} {entry : Entry β}
      (fits : (entry.data.length : Int) ≤ dataLen) (flag : entry.flag = 0) :
      Scan dataLen read (entry :: unread) (.free entry) read unread
  | take {read unread : List (Entry β)} {entry : Entry β}
      (fits : (entry.data.length : Int) ≤ dataLen) (flag : entry.flag ≠ 0)
      (absent : front entry.key read = none) :
      Scan dataLen read (entry :: unread) (.taken entry) (read ++ [entry]) unread
  | wait {read unread readAfter unreadAfter : List (Entry β)} {entry oldest : Entry β}
      {found : Found β} (fits : (entry.data.length : Int) ≤ dataLen) (flag : entry.flag ≠ 0)
      (present : front entry.key read = some oldest)
      (further : Scan dataLen (read ++ [entry]) unread found readAfter unreadAfter) :
      Scan dataLen read (entry :: unread) found readAfter unreadAfter

/-- A pop of a worker whose last packet is `held`, if that had a barrier. -/
inductive Pops (dataLen : Int) : Option (Entry β) →
    List (Entry β) → List (Entry β) → Found β → List (Entry β) → List (Entry β) → Prop where
  | promote {older younger unread rest : List (Entry β)} {entry next : Entry β}
      (first : sameKey entry.key older = []) (waiting : sameKey entry.key younger = next :: rest)
      (fits : (next.data.length : Int) ≤ dataLen) :
      Pops dataLen (some entry) (older ++ entry :: younger) unread (.taken next)
        (older ++ younger) unread
  | tooLong {older younger unread rest : List (Entry β)} {entry next : Entry β}
      (first : sameKey entry.key older = []) (waiting : sameKey entry.key younger = next :: rest)
      (long : (next.data.length : Int) > dataLen) :
      Pops dataLen (some entry) (older ++ entry :: younger) unread .tooLong
        (older ++ entry :: younger) unread
  | finish {older younger unread readAfter unreadAfter : List (Entry β)} {entry : Entry β}
      {found : Found β} (first : sameKey entry.key older = [])
      (last : sameKey entry.key younger = [])
      (scan : Scan dataLen (older ++ younger) unread found readAfter unreadAfter) :
      Pops dataLen (some entry) (older ++ entry :: younger) unread found readAfter unreadAfter
  | idle {read unread readAfter unreadAfter : List (Entry β)} {found : Found β}
      (scan : Scan dataLen read unread found readAfter unreadAfter) :
      Pops dataLen none read unread found readAfter unreadAfter

/-- The packet a worker has not finished. -/
def Holds (w : Worker) (read : List (Entry β)) : Option (Entry β) → Prop
  | none => w.mLastFlag = 0
  | some entry =>
    w.mLastFlag ≠ 0 ∧ front entry.key read = some entry ∧ w.mPAssistArrayNode = entry.node

section Code

variable {s : Shm β} {read unread : List (Entry β)} {total : Nat}
  (balancing : Balancing Nat) (pid dataLen : Int) (w : Worker)

/-- The loop of a pop does what `Scan` says. -/
theorem readLoop_scan (packets : s.Packets read unread total) {fuel : Nat}
    (enough : unread.length < fuel) :
    ∃ (popped : PopNode β) (found : Found β) (readAfter unreadAfter : List (Entry β)),
      readLoop balancing pid dataLen fuel w s = some popped ∧
        Scan dataLen read unread found readAfter unreadAfter ∧ found.Answered w popped ∧
        popped.shm.flag = found.flags pid s.flag ∧ s.SameRing popped.shm ∧
        popped.shm.Packets readAfter unreadAfter total := by
  induction unread generalizing s read fuel with
  | nil =>
    obtain ⟨fuel, rfl⟩ : ∃ more, fuel = more + 1 := ⟨fuel - 1, by omega⟩
    have head := packets.usedPReadHead_nil
    exact ⟨⟨false, 0, { w with mLastFlag := 0 }, s⟩, .nothing, read, [], by simp [readLoop, head],
      .nothing, ⟨rfl, rfl, rfl⟩, rfl, .refl s, packets⟩
  | cons entry unread ih =>
    obtain ⟨fuel, rfl⟩ : ∃ more, fuel = more + 1 := ⟨fuel - 1, by omega⟩
    have head := packets.usedPReadHead_cons
    have member : entry ∈ read ++ entry :: unread := by simp
    have notNull := packets.node_ne_zero member
    have stored := packets.stored member
    have flag := packets.flags entry List.mem_cons_self
    have movedFlag : (s.moveReadHead entry.node).flag = s.flag := by rw [moveReadHead_frame]
    have movedKey : (s.moveReadHead entry.node).key = s.key := by rw [moveReadHead_frame]
    have moved := Shm.sameRing_moveReadHead s entry.node
    by_cases long : (entry.data.length : Int) > dataLen
    · refine ⟨⟨true, 0, w, s⟩, .tooLong, read, entry :: unread, ?_, .tooLong long, ⟨rfl, rfl⟩, rfl,
        .refl s, packets⟩
      simp [readLoop, head, notNull, stored.length, long]
    have fits : (entry.data.length : Int) ≤ dataLen := not_lt.mp long
    have short : ¬ dataLen < (entry.data.length : Int) := long
    by_cases noBarrier : entry.flag = 0
    · refine ⟨⟨false, entry.node, { w with mLastFlag := 0 },
          (s.moveReadHead entry.node).release entry.node⟩, .free entry, read, unread, ?_,
        .free fits noBarrier, ⟨rfl, rfl, rfl⟩, ?_, moved.trans (Shm.sameRing_release _ _),
        packets.read_free⟩
      · simp [readLoop, head, notNull, stored.length, short, movedFlag, flag, noBarrier]
      · rw [release_frame, moveReadHead_frame]
        rfl
    cases found : front entry.key read with
    | none =>
      obtain ⟨inserted, ran, ring, insertedFlag, filed⟩ := packets.read_take balancing found
      have last := filed.setFlag (List.mem_append_right read List.mem_cons_self) pid
      refine ⟨⟨false, entry.node,
          { w with
            mLastFlag := inserted.flag entry.node
            mLastKey := inserted.key entry.node
            mPAssistArrayNode := entry.node }, _⟩,
        .taken entry, read ++ [entry], unread, ?_, .take fits noBarrier found, ?_, ?_, ?_, last⟩
      · simp [readLoop, head, notNull, stored.length, short, movedFlag, flag, noBarrier, movedKey,
          stored.key, ran]
        rfl
      · refine ⟨rfl, rfl, rfl, ?_, rfl⟩
        simpa [insertedFlag, flag] using noBarrier
      · simp [Found.flags, insertedFlag]
      · exact ⟨ring.pBuffer, ring.bufferLen, ring.tailIndex, ring.key, ring.addr, ring.length,
          ring.reserveTailIndex⟩
    | some oldest =>
      obtain ⟨ran, filed⟩ := packets.read_wait balancing found
      have oldestNotNull : oldest.node ≠ 0 :=
        packets.node_ne_zero (List.mem_append_left _ (front_eq_some found).1)
      obtain ⟨popped, result, readAfter, unreadAfter, looped, scan, answered, flags, ring, after⟩ :=
        ih filed (Nat.lt_of_succ_lt_succ enough)
      refine ⟨popped, result, readAfter, unreadAfter, ?_, .wait fits noBarrier found scan,
        answered, ?_, ?_, after⟩
      · rw [← looped]
        simp [readLoop, head, notNull, stored.length, short, movedFlag, flag, noBarrier, movedKey,
          stored.key, ran, oldestNotNull]
      · rw [flags, ← movedFlag]
      · exact moved.trans ⟨ring.pBuffer, ring.bufferLen, ring.tailIndex, ring.key, ring.addr,
          ring.length, ring.reserveTailIndex⟩

theorem enough_fuel (packets : s.Packets read unread total) :
    unread.length < s.reserveTailIndex + 1 := by
  obtain ⟨empty, lists⟩ := packets.lists
  have used := lists.length_used_le
  simp only [List.length_append, List.length_map] at used
  omega

/-- `pop_used_list_node` does what `Pops` says. -/
theorem popUsedListNode_pops (packets : s.Packets read unread total) {held : Option (Entry β)}
    (holds : Holds w read held) :
    ∃ (popped : PopNode β) (found : Found β) (readAfter unreadAfter : List (Entry β)),
      popUsedListNode balancing pid dataLen w s = some popped ∧
        Pops dataLen held read unread found readAfter unreadAfter ∧ found.Answered w popped ∧
        popped.shm.flag = found.flags pid s.flag ∧ s.SameRing popped.shm ∧
        popped.shm.Packets readAfter unreadAfter total := by
  cases held with
  | none =>
    have idle : w.mLastFlag = 0 := holds
    obtain ⟨popped, found, readAfter, unreadAfter, looped, scan, rest⟩ :=
      readLoop_scan balancing pid dataLen w packets (enough_fuel packets)
    exact ⟨popped, found, readAfter, unreadAfter, by simp [popUsedListNode, idle, looped],
      .idle scan, rest⟩
  | some entry =>
    obtain ⟨busy, oldest, node⟩ := holds
    obtain ⟨older, younger, rfl, first⟩ := front_split oldest
    have whole : sameKey entry.key (older ++ entry :: younger)
        = entry :: sameKey entry.key younger := by
      rw [sameKey_append, first, sameKey_cons, if_pos rfl]
      rfl
    have alone := packets.filed.listEmpty_iff whole
    cases waiting : sameKey entry.key younger with
    | nil =>
      have last : listEmpty s.homoList entry.node = true := alone.mpr waiting
      have left := packets.finish balancing first waiting
      have ring := (Shm.sameRing_rbErase balancing s entry.node).trans
        (Shm.sameRing_release _ entry.node)
      have flag : ((s.rbErase balancing entry.node).release entry.node).flag = s.flag := by
        rw [release_frame]
        rfl
      obtain ⟨popped, found, readAfter, unreadAfter, looped, scan, answered, flags, further,
          after⟩ :=
        readLoop_scan balancing pid dataLen w left (enough_fuel left)
      refine ⟨popped, found, readAfter, unreadAfter, ?_, .finish first waiting scan, answered,
        flag ▸ flags, ring.trans further, after⟩
      rw [ring.reserveTailIndex] at looped
      simp [popUsedListNode, busy, node, last, looped]
    | cons next rest =>
      have notLast : listEmpty s.homoList entry.node = false := by
        rw [Bool.eq_false_iff, Ne, alone, waiting]
        exact List.cons_ne_nil _ _
      obtain ⟨following, left⟩ := packets.promote first waiting
      have nextIn : next ∈ older ++ younger := by
        have member : next ∈ sameKey entry.key younger := waiting ▸ List.mem_cons_self
        exact List.mem_append_right _ (mem_sameKey.mp member).1
      have stored := left.stored (List.mem_append_left unread nextIn)
      have length : s.length next.node = next.data.length := by
        have same := stored.length
        rw [release_frame] at same
        exact same
      by_cases long : (next.data.length : Int) > dataLen
      · refine ⟨⟨true, 0, w, s⟩, .tooLong, _, unread, ?_, .tooLong first waiting long, ⟨rfl, rfl⟩,
          rfl, .refl s, packets⟩
        simp [popUsedListNode, busy, node, notLast, following, length, long]
      have short : ¬ dataLen < (next.data.length : Int) := long
      refine ⟨⟨false, next.node, { w with mPAssistArrayNode := next.node }, _⟩, .taken next,
        older ++ younger, unread, ?_, .promote first waiting (not_lt.mp long),
        ⟨rfl, rfl, rfl, busy, rfl⟩, ?_, ?_, left.setFlag nextIn pid⟩
      · simp [popUsedListNode, busy, node, notLast, following, length, short]
        rfl
      · rw [release_frame]
        rfl
      · rw [release_frame]
        exact ⟨rfl, rfl, rfl, rfl, rfl, rfl, rfl⟩

end Code

/-- The line a packet stands in: that of its key, if it has a barrier. -/
def laneOf (entry : Entry β) : Option Int :=
  if entry.flag = 0 then none else some entry.key

/-- The packets of a line that are still to be handed out: those behind the oldest one
read, and the unread ones. -/
def pending (lane : Option Int) (read unread : List (Entry β)) : List (Entry β) :=
  lane.elim [] (fun key => (sameKey key read).tail) ++ unread.filter fun entry => laneOf entry = lane

section Packets

variable {read unread readAfter unreadAfter : List (Entry β)} {entry oldest : Entry β}
  {found : Found β} {held : Option (Entry β)} {dataLen : Int}

theorem Scan.entry_mem (scan : Scan dataLen read unread found readAfter unreadAfter)
    (handed : found.entry = some entry) : entry ∈ unread := by
  induction scan with
  | nothing => cases handed
  | tooLong => cases handed
  | free =>
    obtain rfl := Option.some.inj handed
    exact List.mem_cons_self
  | take =>
    obtain rfl := Option.some.inj handed
    exact List.mem_cons_self
  | wait _ _ _ _ ih => exact List.mem_cons_of_mem _ (ih handed)

/-- No packet appears from nowhere. -/
theorem Scan.subset (scan : Scan dataLen read unread found readAfter unreadAfter)
    (member : entry ∈ readAfter ++ unreadAfter) : entry ∈ read ++ unread := by
  induction scan with
  | nothing => exact member
  | tooLong => exact member
  | free =>
    rcases List.mem_append.mp member with old | rest
    · exact List.mem_append_left _ old
    · exact List.mem_append_right _ (List.mem_cons_of_mem _ rest)
  | take => simpa using member
  | wait _ _ _ _ ih => simpa using ih member

/-- Packets are read only when they have a barrier. -/
theorem Scan.barrier (scan : Scan dataLen read unread found readAfter unreadAfter)
    (barrier : ∀ entry ∈ read, entry.flag ≠ 0) : ∀ entry ∈ readAfter, entry.flag ≠ 0 := by
  induction scan with
  | nothing => exact barrier
  | tooLong => exact barrier
  | free => exact barrier
  | take _ flag =>
    intro x member
    rcases List.mem_append.mp member with old | new
    · exact barrier x old
    · rw [List.mem_singleton.mp new]
      exact flag
  | wait _ flag _ _ ih =>
    apply ih
    intro x member
    rcases List.mem_append.mp member with old | new
    · exact barrier x old
    · rw [List.mem_singleton.mp new]
      exact flag

/-- A loop of reads only adds a new oldest packet, the one it takes. -/
theorem Scan.front_iff (scan : Scan dataLen read unread found readAfter unreadAfter) (key : Int) :
    front key readAfter = some entry ↔
      front key read = some entry ∨ found = .taken entry ∧ entry.key = key := by
  induction scan with
  | nothing => simp
  | tooLong => simp
  | free => simp
  | take fits flag absent =>
    rename_i read unread taken
    rw [front_append, front_singleton]
    by_cases own : taken.key = key
    · subst own
      simp only [absent, Option.none_or, if_true, Option.some.injEq, Found.taken.injEq]
      constructor
      · rintro rfl
        exact .inr ⟨rfl, rfl⟩
      · rintro (none | ⟨rfl, -⟩)
        · cases none
        · rfl
    · rw [if_neg own, Option.or_none]
      constructor
      · exact .inl
      · rintro (old | ⟨same, ofKey⟩)
        · exact old
        · obtain rfl : taken = entry := by simpa using same
          exact absurd ofKey own
  | wait fits flag present further ih =>
    rename_i read unread readAfter unreadAfter waiting oldest found
    rw [ih, front_append, front_singleton]
    by_cases own : waiting.key = key
    · subst own
      rw [present, Option.some_or]
    · rw [if_neg own, Option.or_none]

/-- The loop hands out the first packet of a line, or leaves the line as it is. -/
theorem Scan.pending_eq (scan : Scan dataLen read unread found readAfter unreadAfter)
    (lane : Option Int) :
    pending lane read unread =
      found.entry.toList.filter (fun entry => laneOf entry = lane)
        ++ pending lane readAfter unreadAfter := by
  induction scan with
  | nothing => rfl
  | tooLong => rfl
  | free fits flag =>
    cases lane with
    | none => simp [pending, laneOf, flag, Found.entry]
    | some key => simp [pending, laneOf, flag, Found.entry]
  | take fits flag absent =>
    rename_i read unread taken
    have none := sameKey_eq_nil.mpr (front_eq_none.mp absent)
    cases lane with
    | none => simp [pending, laneOf, flag, Found.entry]
    | some key =>
      by_cases own : taken.key = key
      · subst own
        simp [pending, laneOf, flag, Found.entry, sameKey_append, sameKey_singleton, none]
      · simp [pending, laneOf, Found.entry, sameKey_append, sameKey_singleton, own]
  | wait fits flag present further ih =>
    rename_i read unread readAfter unreadAfter waiting oldest found
    rw [← ih]
    cases lane with
    | none => simp [pending, laneOf, flag]
    | some key =>
      by_cases own : waiting.key = key
      · subst own
        obtain ⟨rest, shape⟩ := sameKey_of_front present
        simp [pending, laneOf, flag, sameKey_append, sameKey_singleton, shape]
      · simp [pending, laneOf, sameKey_append, sameKey_singleton, own]

/-- The loop reads on unless nothing is unread or the next packet is too long. -/
theorem Scan.length_lt (scan : Scan dataLen read unread found readAfter unreadAfter)
    (some : unread ≠ []) (enough : found ≠ .tooLong) : unreadAfter.length < unread.length := by
  induction scan with
  | nothing => exact absurd rfl some
  | tooLong => exact absurd rfl enough
  | free => simp
  | take => simp
  | wait fits flag present further ih =>
    rename_i read unread readAfter unreadAfter waiting oldest found
    cases unread with
    | nil =>
      cases further
      simp
    | cons next rest =>
      have fewer := ih (List.cons_ne_nil _ _) enough
      simp only [List.length_cons] at fewer ⊢
      omega

/-- A packet handed out without being taken has no barrier. -/
theorem Scan.free_flag (scan : Scan dataLen read unread found readAfter unreadAfter)
    (free : found = .free entry) : entry.flag = 0 := by
  induction scan with
  | nothing => cases free
  | tooLong => cases free
  | free _ flag =>
    obtain rfl := Found.free.inj free
    exact flag
  | take => cases free
  | wait _ _ _ _ ih => exact ih free

theorem Scan.ne_tooLong (scan : Scan dataLen read unread found readAfter unreadAfter)
    (adequate : ∀ entry ∈ unread, (entry.data.length : Int) ≤ dataLen) : found ≠ .tooLong := by
  induction scan with
  | nothing => nofun
  | tooLong long => exact absurd (adequate _ List.mem_cons_self) (not_le.mpr long)
  | free => nofun
  | take => nofun
  | wait _ _ _ _ ih => exact ih fun entry member => adequate entry (List.mem_cons_of_mem _ member)

namespace Pops

variable (pops : Pops dataLen held read unread found readAfter unreadAfter)

include pops

theorem entry_mem (handed : found.entry = some entry) : entry ∈ read ++ unread := by
  cases pops with
  | promote first waiting fits =>
    rename_i older younger rest last next
    obtain rfl : next = entry := Option.some.inj handed
    have member : next ∈ sameKey last.key younger := waiting ▸ List.mem_cons_self
    simp [(mem_sameKey.mp member).1]
  | tooLong => cases handed
  | finish _ _ scan => exact List.mem_append_right _ (scan.entry_mem handed)
  | idle scan => exact List.mem_append_right _ (scan.entry_mem handed)

theorem free_flag (free : found = .free entry) : entry.flag = 0 := by
  cases pops with
  | promote => cases free
  | tooLong => cases free
  | finish _ _ scan => exact scan.free_flag free
  | idle scan => exact scan.free_flag free

theorem subset (member : entry ∈ readAfter ++ unreadAfter) : entry ∈ read ++ unread := by
  have kept : ∀ {older younger later : List (Entry β)} {last : Entry β},
      entry ∈ older ++ younger ++ later → entry ∈ older ++ last :: younger ++ later := by
    intro older younger later last inside
    simp only [List.mem_append] at inside ⊢
    tauto
  cases pops with
  | promote => exact kept member
  | tooLong => exact member
  | finish _ _ scan => exact kept (scan.subset member)
  | idle scan => exact scan.subset member

theorem barrier (barrier : ∀ entry ∈ read, entry.flag ≠ 0) :
    ∀ entry ∈ readAfter, entry.flag ≠ 0 := by
  have kept : ∀ {older younger : List (Entry β)} {last : Entry β},
      (∀ x ∈ older ++ last :: younger, x.flag ≠ 0) → ∀ x ∈ older ++ younger, x.flag ≠ 0 := by
    intro older younger last all x inside
    apply all
    simp only [List.mem_append] at inside ⊢
    tauto
  cases pops with
  | promote => exact kept barrier
  | tooLong => exact barrier
  | finish _ _ scan => exact scan.barrier (kept barrier)
  | idle scan => exact scan.barrier barrier

theorem ne_tooLong (adequate : ∀ entry ∈ read ++ unread, (entry.data.length : Int) ≤ dataLen) :
    found ≠ .tooLong := by
  cases pops with
  | promote => nofun
  | tooLong first waiting long =>
    rename_i older younger rest last next
    have member : next ∈ sameKey last.key younger := waiting ▸ List.mem_cons_self
    have inside := (mem_sameKey.mp member).1
    exact absurd (adequate next (by simp [inside])) (not_le.mpr long)
  | finish _ _ scan =>
    exact scan.ne_tooLong fun entry member => adequate entry (List.mem_append_right _ member)
  | idle scan =>
    exact scan.ne_tooLong fun entry member => adequate entry (List.mem_append_right _ member)

/-- The oldest packets after a pop: the worker's last packet is no longer one, and a packet
taken is. -/
theorem front_iff (enough : found ≠ .tooLong) (key : Int) :
    front key readAfter = some entry ↔
      front key read = some entry ∧ held ≠ some entry ∨ found = .taken entry ∧ entry.key = key := by
  cases pops with
  | tooLong => exact absurd rfl enough
  | promote first waiting fits =>
    rename_i older younger rest last next
    have nextKey : next.key = last.key := by
      have member : next ∈ sameKey last.key younger := waiting ▸ List.mem_cons_self
      exact (mem_sameKey.mp member).2
    rw [front_middle_ne first]
    by_cases own : key = last.key
    · subst own
      rw [front_drop first, if_pos rfl, front_of_sameKey waiting]
      constructor
      · rintro ⟨⟩
        exact .inr ⟨rfl, nextKey⟩
      · rintro (⟨other, -⟩ | ⟨⟨⟩, -⟩)
        · exact absurd rfl other
        · rfl
    · constructor
      · exact fun found => .inl ⟨own, found⟩
      · rintro (⟨-, found⟩ | ⟨⟨⟩, ofKey⟩)
        · exact found
        · exact absurd (ofKey.symm.trans nextKey) own
  | finish first alone scan =>
    rw [scan.front_iff, front_middle_ne first]
    apply or_congr_left
    constructor
    · intro found
      refine ⟨?_, found⟩
      rintro rfl
      rw [front_drop first, if_pos rfl, front_eq_none.mpr (sameKey_eq_nil.mp alone)] at found
      cases found
    · exact And.right
  | idle scan =>
    rw [scan.front_iff]
    simp

/-- A pop hands out the first packet of a line, or leaves the line as it is. -/
theorem pending_eq (barrier : ∀ entry ∈ read, entry.flag ≠ 0) (lane : Option Int) :
    pending lane read unread =
      found.entry.toList.filter (fun entry => laneOf entry = lane)
        ++ pending lane readAfter unreadAfter := by
  have same : ∀ {older younger : List (Entry β)} {last : Entry β} {k : Int}, k ≠ last.key →
      sameKey k (older ++ last :: younger) = sameKey k (older ++ younger) := by
    intro older younger last k other
    rw [sameKey_append, sameKey_append, sameKey_cons, if_neg (Ne.symm other)]
  cases pops with
  | tooLong => rfl
  | promote first waiting fits =>
    rename_i older younger rest last next
    have member : next ∈ sameKey last.key younger := waiting ▸ List.mem_cons_self
    obtain ⟨inside, nextKey⟩ := mem_sameKey.mp member
    have flag : next.flag ≠ 0 := barrier next (by simp [inside])
    cases lane with
    | none => simp [pending, laneOf, Found.entry, flag]
    | some k =>
      by_cases own : k = last.key
      · subst own
        simp [pending, laneOf, Found.entry, flag, nextKey, sameKey_append, sameKey_cons, first,
          waiting]
      · have other : next.key ≠ k := fun same => own (same.symm.trans nextKey)
        simp [pending, laneOf, Found.entry, other, same own]
  | finish first alone scan =>
    rename_i older younger last
    rw [← scan.pending_eq]
    cases lane with
    | none => rfl
    | some k =>
      by_cases own : k = last.key
      · subst own
        simp [pending, sameKey_append, sameKey_cons, first, alone]
      · simp [pending, same own]
  | idle scan => exact scan.pending_eq lane

end Pops

/-- A packet taken was not the oldest of its key before. -/
theorem Pops.front_ne (pops : Pops dataLen held read unread found readAfter unreadAfter)
    (nodup : ((read ++ unread).map Entry.node).Nodup) (taken : found = .taken entry) :
    front entry.key read ≠ some entry := by
  have apart : ∀ {first second : List (Entry β)}, ((first ++ second).map Entry.node).Nodup →
      entry ∈ second → front entry.key first ≠ some entry := by
    intro first second nodup inSecond oldest
    rw [List.map_append, List.nodup_append] at nodup
    exact nodup.2.2 _ (List.mem_map_of_mem (front_eq_some oldest).1) _
      (List.mem_map_of_mem inSecond) rfl
  cases pops with
  | tooLong => cases taken
  | promote first waiting fits =>
    rename_i older younger rest last next
    obtain rfl : next = entry := by simpa using taken
    have member : next ∈ sameKey last.key younger := waiting ▸ List.mem_cons_self
    obtain ⟨inside, nextKey⟩ := mem_sameKey.mp member
    rw [nextKey, front_middle first, if_pos rfl]
    intro same
    obtain rfl := Option.some.inj same
    simp only [List.append_assoc, List.map_append] at nodup
    have own := (List.nodup_append.mp nodup).2.1
    apply (List.nodup_cons.mp own).1
    exact List.mem_append_left _ (List.mem_map_of_mem inside)
  | finish first alone scan =>
    intro oldest
    exact apart nodup (scan.entry_mem (taken ▸ rfl)) oldest
  | idle scan => exact apart nodup (scan.entry_mem (taken ▸ rfl))

end Packets

section Reply

variable {s : Shm β} {read unread : List (Entry β)} {total : Nat} {held : Option (Entry β)}
  {dataLen : Int} {w : Worker}

/-- The reply of `pop` and the worker after it. -/
def Found.Replied (w : Worker) (reply : PopReply β) : Found β → Prop
  | .nothing => reply.errno = none ∧ reply.node = 0 ∧ reply.worker = { w with mLastFlag := 0 }
  | .tooLong => reply.errno = some .invalidParam ∧ reply.node = 0 ∧ reply.worker = w
  | .free entry =>
    reply.errno = none ∧ reply.node = entry.node ∧ reply.data = entry.data ∧
      reply.worker = { w with mLastFlag := 0 }
  | .taken entry =>
    reply.errno = none ∧ reply.node = entry.node ∧ reply.data = entry.data ∧
      reply.worker.mInit = w.mInit ∧ reply.worker.mLastFlag ≠ 0 ∧
      reply.worker.mPAssistArrayNode = entry.node

/-- `pop` does what `Pops` says, and copies the packet it hands out. -/
theorem pop_pops (balancing : Balancing Nat) (pid : Int) (packets : s.Packets read unread total)
    (holds : Holds w read held) (init : w.mInit = true) (positive : 0 < dataLen) :
    ∃ (reply : PopReply β) (found : Found β) (readAfter unreadAfter : List (Entry β)),
      pop balancing pid dataLen true w s = some reply ∧
        Pops dataLen held read unread found readAfter unreadAfter ∧ found.Replied w reply ∧
        reply.shm.flag = found.flags pid s.flag ∧ s.SameRing reply.shm ∧
        reply.shm.Packets readAfter unreadAfter total := by
  obtain ⟨popped, found, readAfter, unreadAfter, ran, pops, answered, flags, ring, after⟩ :=
    popUsedListNode_pops balancing pid dataLen w packets holds
  have inner : pop balancing pid dataLen true w s =
      if popped.failed then some ⟨some .invalidParam, 0, [], popped.worker, popped.shm⟩
      else if popped.node = 0 then some ⟨none, 0, [], popped.worker, popped.shm⟩
      else
        some ⟨none, popped.node, popped.shm.copyPacketOut popped.node, popped.worker,
          popped.shm⟩ := by
    have valid : ¬ dataLen ≤ 0 := not_le.mpr positive
    simp [pop, init, valid, ran]
  have copied : ∀ entry, found.entry = some entry →
      entry.node ≠ 0 ∧ popped.shm.copyPacketOut entry.node = entry.data := by
    intro entry handed
    have member := pops.entry_mem handed
    exact ⟨packets.node_ne_zero member, (ring.copyPacketOut _).trans (packets.copyPacketOut member)⟩
  cases found with
  | nothing =>
    obtain ⟨ok, node, worker⟩ := answered
    refine ⟨⟨none, 0, [], popped.worker, popped.shm⟩, .nothing, readAfter, unreadAfter,
      inner.trans ?_, pops, ⟨rfl, rfl, worker⟩, flags, ring, after⟩
    simp [ok, node]
  | tooLong =>
    obtain ⟨failed, worker⟩ := answered
    refine ⟨⟨some .invalidParam, 0, [], popped.worker, popped.shm⟩, .tooLong, readAfter,
      unreadAfter, inner.trans ?_, pops, ⟨rfl, rfl, worker⟩, flags, ring, after⟩
    simp [failed]
  | free entry =>
    obtain ⟨ok, node, worker⟩ := answered
    obtain ⟨notNull, data⟩ := copied entry rfl
    refine ⟨⟨none, entry.node, entry.data, popped.worker, popped.shm⟩, .free entry, readAfter,
      unreadAfter, inner.trans ?_, pops, ⟨rfl, rfl, rfl, worker⟩, flags, ring, after⟩
    simp [ok, node, notNull, data]
  | taken entry =>
    obtain ⟨ok, node, worker⟩ := answered
    obtain ⟨notNull, data⟩ := copied entry rfl
    refine ⟨⟨none, entry.node, entry.data, popped.worker, popped.shm⟩, .taken entry, readAfter,
      unreadAfter, inner.trans ?_, pops, ⟨rfl, rfl, rfl, worker⟩, flags, ring, after⟩
    simp [ok, node, notNull, data]

/-- With other arguments `pop` fails at once. -/
theorem pop_invalid (balancing : Balancing Nat) (pid : Int) {given : Bool}
    (invalid : given = false ∨ dataLen ≤ 0) :
    ∃ errno, pop balancing pid dataLen given w s = some ⟨some errno, 0, [], w, s⟩ := by
  cases init : w.mInit with
  | false => exact ⟨.notInit, by simp [pop, init]⟩
  | true => exact ⟨.invalidParam, by simp [pop, init, invalid]⟩

end Reply

end Taomee.Barrier.Balanced
