import Taomee.Barrier.Lists

/-!
# Packets in the ring

An `Entry` is a packet on the used list. Positions count the bytes of the stream of
all accepted packets, so a packet's place never moves and `addr` is its position
modulo the ring. The live packets lie within one lap that ends at the stream's end.
-/

namespace Taomee.Barrier

open CircularList

/-- A packet that a node of the used list carries, with the number of the push that
put it there. -/
structure Entry (β : Type*) where
  seq : Nat
  node : Nat
  key : Int
  flag : Int
  pos : Nat
  data : List β

variable {β : Type*}

/-- Where the oldest packet starts, or the stream ends when there is none. -/
def startPos (total : Nat) : List (Entry β) → Nat
  | [] => total
  | first :: _ => first.pos

namespace Shm

/-- The node and the ring hold the packet. -/
structure Stored (s : Shm β) (entry : Entry β) : Prop where
  key : s.key entry.node = entry.key
  addr : s.addr entry.node = entry.pos % s.bufferLen
  length : s.length entry.node = entry.data.length
  nonempty : 0 < entry.data.length
  bytes : RingBuffer.load s.bufferLen s.pBuffer entry.pos entry.data.length = entry.data

/-- The used packets, oldest first, in a stream of `total` bytes. -/
structure Region (s : Shm β) (used : List (Entry β)) (total : Nat) : Prop where
  positive : 0 < s.bufferLen
  head : s.headIndex = startPos total used % s.bufferLen
  tail : s.tailIndex = total % s.bufferLen
  lap : total < startPos total used + s.bufferLen
  ordered : used.Pairwise fun first second => first.pos + first.data.length ≤ second.pos
  ended : ∀ entry ∈ used, entry.pos + entry.data.length ≤ total
  stored : ∀ entry ∈ used, s.Stored entry

/-- How many bytes a push may still add. -/
def freeBytes (s : Shm β) (used : List (Entry β)) (total : Nat) : Nat :=
  s.bufferLen - 1 - (total - startPos total used)

end Shm

open Shm

theorem fresh_region {bufferLen nodes : Nat} {byte : β} (positive : 0 < bufferLen) :
    (fresh bufferLen nodes byte).Region [] 0 where
  positive := positive
  head := (Nat.zero_mod _).symm
  tail := (Nat.zero_mod _).symm
  lap := by
    change 0 < 0 + bufferLen
    omega
  ordered := .nil
  ended := nofun
  stored := nofun

theorem Shm.Stored.congr {s changed : Shm β} {entry : Entry β} (stored : s.Stored entry)
    (buffer : changed.pBuffer = s.pBuffer) (size : changed.bufferLen = s.bufferLen)
    (key : changed.key = s.key) (addr : changed.addr = s.addr)
    (length : changed.length = s.length) : changed.Stored entry where
  key := by rw [key, stored.key]
  addr := by rw [addr, size, stored.addr]
  length := by rw [length, stored.length]
  nonempty := stored.nonempty
  bytes := by rw [buffer, size, stored.bytes]

namespace Shm.Region

variable {s changed : Shm β} {used front back : List (Entry β)} {entry : Entry β} {total : Nat}

/-- Only the ring and the packet fields of the nodes matter. -/
theorem congr (region : s.Region used total)
    (buffer : changed.pBuffer = s.pBuffer) (size : changed.bufferLen = s.bufferLen)
    (head : changed.headIndex = s.headIndex) (tail : changed.tailIndex = s.tailIndex)
    (key : changed.key = s.key) (addr : changed.addr = s.addr)
    (length : changed.length = s.length) : changed.Region used total where
  positive := size ▸ region.positive
  head := by rw [head, size, region.head]
  tail := by rw [tail, size, region.tail]
  lap := size ▸ region.lap
  ordered := region.ordered
  ended := region.ended
  stored entry member := (region.stored entry member).congr buffer size key addr length

theorem startPos_le (region : s.Region used total) : startPos total used ≤ total := by
  cases used with
  | nil => exact Nat.le_refl _
  | cons first rest =>
    have ended := region.ended first List.mem_cons_self
    simp only [startPos]
    omega

theorem startPos_le_pos (region : s.Region used total) (member : entry ∈ used) :
    startPos total used ≤ entry.pos := by
  cases used with
  | nil => cases member
  | cons first rest =>
    rcases List.mem_cons.mp member with rfl | later
    · exact Nat.le_refl _
    · have ordered := List.rel_of_pairwise_cons region.ordered later
      simp only [startPos]
      omega

/-- The lap, seen from any live packet. -/
theorem lap_of_mem (region : s.Region used total) (member : entry ∈ used) :
    total < entry.pos + s.bufferLen := by
  have start := region.startPos_le_pos member
  have lap := region.lap
  omega

/-- Dropping a packet can only move the start of the lap forwards. -/
theorem startPos_le_drop (region : s.Region (front ++ entry :: back) total) :
    startPos total (front ++ entry :: back) ≤ startPos total (front ++ back) := by
  cases front with
  | cons first rest => exact Nat.le_refl _
  | nil =>
    cases back with
    | nil =>
      have ended := region.ended entry (by simp)
      simp only [List.nil_append, startPos]
      omega
    | cons second rest =>
      have ordered := List.rel_of_pairwise_cons region.ordered (List.mem_cons_self (a := second))
      simp only [List.nil_append, startPos]
      omega

/-- Giving a node back frees the ring up to the oldest packet that is left. -/
theorem release {loose empty : List Nat} {later : List (Entry β)}
    (region : s.Region (front ++ entry :: back ++ later) total)
    (lists : s.Lists loose empty ((front ++ entry :: back).map Entry.node)
      (later.map Entry.node)) :
    (s.release entry.node).Region (front ++ back ++ later) total := by
  rw [List.map_append, List.map_cons] at lists
  have moved := release_headIndex lists
  rw [List.append_assoc, List.cons_append] at region
  rw [List.append_assoc]
  rw [release_frame]
  constructor
  case positive => exact region.positive
  case head =>
    have head := region.head
    rw [moved]
    cases front with
    | cons first rest => simpa [startPos] using head
    | nil =>
      rw [← List.map_append]
      cases shape : back ++ later with
      | nil => simpa [startPos] using region.tail
      | cons second rest =>
        have member : second ∈ [] ++ entry :: (back ++ later) := by simp [shape]
        simpa [startPos] using (region.stored second member).addr
  case tail => exact region.tail
  case lap =>
    have lap := region.lap
    have start := region.startPos_le_drop
    change total < _ + s.bufferLen
    omega
  case ordered =>
    apply List.Pairwise.sublist _ region.ordered
    simp
  case ended =>
    intro other member
    apply region.ended
    simp only [List.mem_append, List.mem_cons] at member ⊢
    tauto
  case stored =>
    intro other member
    have stored : s.Stored other := by
      apply region.stored
      simp only [List.mem_append, List.mem_cons] at member ⊢
      tauto
    exact stored.congr rfl rfl rfl rfl rfl

/-- The space computation and the two copies of `push` against the stream. -/
theorem copyPacketIn_eq (region : s.Region used total) (pData : List β) :
    s.copyPacketIn pData =
      if pData.length ≤ s.freeBytes used total then
        some (RingBuffer.store s.bufferLen s.pBuffer total pData,
          (total + pData.length) % s.bufferLen)
      else none := by
  have positive := region.positive
  have start := region.startPos_le
  have lap := region.lap
  have headBound := Nat.mod_lt (startPos total used) positive
  have tailBound := Nat.mod_lt total positive
  have distance := RingBuffer.add_mod_cases (startPos total used)
    (show total - startPos total used < s.bufferLen by omega)
  rw [Nat.add_sub_cancel' start] at distance
  unfold copyPacketIn freeBytes
  rw [region.head, region.tail]
  split
  case isTrue behind =>
    have apart : total % s.bufferLen - startPos total used % s.bufferLen
        = total - startPos total used := by
      split at distance <;> omega
    rw [apart]
    by_cases fits : pData.length ≤ s.bufferLen - 1 - (total - startPos total used)
    · have notLarge : ¬ pData.length > s.bufferLen - (total - startPos total used) - 1 := by omega
      have step := RingBuffer.add_mod_cases total (show pData.length < s.bufferLen by omega)
      rw [if_neg notLarge, if_pos fits]
      dsimp only
      split
      case isTrue straight =>
        rw [RingBuffer.copyIn_eq_store (by omega), step, if_pos (by omega)]
      case isFalse wraps =>
        rw [RingBuffer.copyIn_copyIn_eq_store positive (by omega), step, if_neg (by omega)]
        congr 2
        omega
    · have large : pData.length > s.bufferLen - (total - startPos total used) - 1 := by omega
      rw [if_pos large, if_neg fits]
  case isFalse ahead =>
    have apart : startPos total used % s.bufferLen - total % s.bufferLen - 1
        = s.bufferLen - 1 - (total - startPos total used) := by
      split at distance <;> omega
    by_cases fits : pData.length ≤ s.bufferLen - 1 - (total - startPos total used)
    · have step := RingBuffer.add_mod_cases total (show pData.length < s.bufferLen by omega)
      have straight : total % s.bufferLen + pData.length < s.bufferLen := by
        split at distance <;> omega
      rw [if_neg (by omega), if_pos fits, RingBuffer.copyIn_eq_store (by omega), step,
        if_pos straight]
    · rw [if_pos (by omega), if_neg fits]

/-- The copies of `pop` against the stream. -/
theorem copyPacketOut_eq (stored : s.Stored entry) (positive : 0 < s.bufferLen)
    (tail : s.tailIndex = total % s.bufferLen) (ended : entry.pos + entry.data.length ≤ total)
    (lap : total < entry.pos + s.bufferLen) : s.copyPacketOut entry.node = entry.data := by
  have distance := RingBuffer.add_mod_cases entry.pos
    (show total - entry.pos < s.bufferLen by omega)
  rw [Nat.add_sub_cancel' (by omega)] at distance
  have loaded := stored.bytes
  unfold copyPacketOut
  rw [stored.addr, stored.length, tail]
  split
  case isTrue before =>
    have straight : entry.pos % s.bufferLen + entry.data.length ≤ s.bufferLen := by
      split at distance <;> omega
    rw [RingBuffer.copyOut_eq_load straight, loaded]
  case isFalse after =>
    dsimp only
    split
    case isTrue straight => rw [RingBuffer.copyOut_eq_load (by omega), loaded]
    case isFalse wraps =>
      rw [RingBuffer.copyOut_append_eq_load positive (by omega) (by omega), loaded]

/-- A packet written at the end of the stream joins the live ones, whose bytes stay. -/
theorem fill (region : s.Region used total) (fits : entry.data.length ≤ s.freeBytes used total)
    (nonempty : 0 < entry.data.length) (atEnd : entry.pos = total)
    (fresh : ∀ other ∈ used, other.node ≠ entry.node)
    (buffer : changed.pBuffer = RingBuffer.store s.bufferLen s.pBuffer total entry.data)
    (size : changed.bufferLen = s.bufferLen) (head : changed.headIndex = s.headIndex)
    (tail : changed.tailIndex = (total + entry.data.length) % s.bufferLen)
    (key : changed.key = Function.update s.key entry.node entry.key)
    (addr : changed.addr = Function.update s.addr entry.node s.tailIndex)
    (length : changed.length = Function.update s.length entry.node entry.data.length) :
    changed.Region (used ++ [entry]) (total + entry.data.length) := by
  unfold freeBytes at fits
  have sameStart : startPos (total + entry.data.length) (used ++ [entry]) = startPos total used := by
    cases used with
    | nil => exact atEnd
    | cons first rest => rfl
  constructor
  case positive => rw [size]; exact region.positive
  case head => rw [head, size, sameStart, region.head]
  case tail => rw [tail, size]
  case lap =>
    omega
  case ordered =>
    rw [List.pairwise_append]
    refine ⟨region.ordered, List.pairwise_singleton _ _, ?_⟩
    intro other member last isLast
    rw [List.mem_singleton.mp isLast, atEnd]
    exact region.ended other member
  case ended =>
    intro other member
    rcases List.mem_append.mp member with old | new
    · have ended := region.ended other old
      omega
    · rw [List.mem_singleton.mp new, atEnd]
  case stored =>
    intro other member
    rcases List.mem_append.mp member with old | new
    · have stored := region.stored other old
      have different := fresh other old
      have ended := region.ended other old
      have otherLap := region.startPos_le_pos old
      constructor
      · rw [key, Function.update_of_ne different, stored.key]
      · rw [addr, Function.update_of_ne different, size, stored.addr]
      · rw [length, Function.update_of_ne different, stored.length]
      · exact stored.nonempty
      · rw [buffer, size, RingBuffer.load_store_apart ended (by omega), stored.bytes]
    · rw [List.mem_singleton.mp new]
      constructor
      · rw [key, Function.update_self]
      · rw [addr, Function.update_self, size, atEnd, region.tail]
      · rw [length, Function.update_self]
      · exact nonempty
      · rw [buffer, size, atEnd, RingBuffer.load_store (by omega)]

end Shm.Region

end Taomee.Barrier
