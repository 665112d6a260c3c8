import Taomee.Anticheat.Channel

/-!
# The channel is a queue of blocks

The blocks of a lane lie one after the other from the head on. Once the writer has gone back to
the front, the younger ones lie from there to the tail, and the older ones end at the end marker
or at the very end of the buffer.
-/

namespace Taomee.Anticheat

open LittleEndian Memory Runs

/-- The blocks lie in the cells from `start` to `stop`. -/
def Laid (buf : Int → UInt8) : Nat → List (List UInt8) → Nat → Prop
  | start, [], stop => start = stop
  | start, block :: rest, stop =>
    read buf start (sizeofChannelBlock + block.length) = encode block ∧
      Laid buf (start + (sizeofChannelBlock + block.length)) rest stop

/-- What the cells hold in which a lane has blocks. -/
inductive Holds (lane : Lane) (queue : List (List UInt8)) : Prop where
  /-- The blocks lie between the head and the tail. -/
  | straight (order : lane.head ≤ lane.tail) (laid : Laid lane.buf lane.head queue lane.tail)
  /-- The writer has gone back to the front. -/
  | wrapped (old new : List (List UInt8)) (stop : Nat) (parts : queue = old ++ new)
      (order : lane.tail < lane.head) (older : Laid lane.buf lane.head old stop)
      (newer : Laid lane.buf 0 new lane.tail)
      (marked : stop = channelBufferLen ∨
        (stop < channelBufferLen ∧ lane.buf stop = etx ∧ new ≠ []))

/-- The lane holds the blocks. -/
structure Lane.Queues (lane : Lane) (queue : List (List UInt8)) : Prop where
  head : lane.head < channelBufferLen
  tail : lane.tail < channelBufferLen
  short : ∀ block ∈ queue, block.length < channelBufferLen
  holds : Holds lane queue

section Cells

variable {buf : Int → UInt8} {start stop : Nat} {block data : List UInt8}
  {queue older : List (List UInt8)}

@[simp] theorem length_encode (data : List UInt8) :
    (encode data).length = sizeofChannelBlock + data.length := by
  simp [encode, sizeofChannelBlock]
  omega

theorem blockLen_eq {len : Nat} (short : len < channelBufferLen) :
    blockLen len = sizeofChannelBlock + len := by
  simp only [channelBufferLen] at short
  exact Nat.mod_eq_of_lt (by simp only [sizeofChannelBlock]; omega)

theorem Laid.le (laid : Laid buf start queue stop) : start ≤ stop := by
  induction queue generalizing start with
  | nil => exact Nat.le_of_eq laid
  | cons block rest ih =>
    have later := ih laid.2
    omega

/-- There is no block exactly if there is no room. -/
theorem Laid.eq_nil_iff (laid : Laid buf start queue stop) : queue = [] ↔ start = stop := by
  cases queue with
  | nil => exact ⟨fun _ => laid, fun _ => rfl⟩
  | cons block rest =>
    have later := laid.2.le
    simp only [sizeofChannelBlock] at later
    simp only [reduceCtorEq, false_iff]
    omega

theorem Laid.append (laid : Laid buf start queue stop)
    (there : read buf stop (sizeofChannelBlock + data.length) = encode data) :
    Laid buf start (queue ++ [data]) (stop + (sizeofChannelBlock + data.length)) := by
  induction queue generalizing start with
  | nil =>
    cases (laid : start = stop)
    exact ⟨there, rfl⟩
  | cons block rest ih => exact ⟨laid.1, ih laid.2⟩

/-- Writing elsewhere leaves the blocks. -/
theorem Laid.write (laid : Laid buf start queue stop) {place : Nat} (bytes : List UInt8)
    (apart : stop ≤ place ∨ place + bytes.length ≤ start) :
    Laid (write buf place bytes) start queue stop := by
  induction queue generalizing start with
  | nil => exact laid
  | cons block rest ih =>
    have later := laid.2.le
    refine ⟨?_, ih laid.2 ?_⟩
    · rw [read_write_apart (by omega)]
      exact laid.1
    · omega

/-- The first byte, the length and the data of a block. -/
theorem read_parts (there : read buf start (sizeofChannelBlock + block.length) = encode block) :
    buf start = stx ∧ read buf (start + 1) 4 = toLe 4 block.length ∧
      read buf (start + sizeofChannelBlock) block.length = block := by
  have split : read buf start (1 + 4 + block.length) =
      [stx] ++ toLe 4 block.length ++ block := there
  rw [read_add, read_add] at split
  obtain ⟨header, data⟩ := List.append_inj split (by simp)
  obtain ⟨first, length⟩ := List.append_inj header (by simp)
  refine ⟨?_, ?_, ?_⟩
  · simpa [Memory.read] using first
  · simpa using length
  · simpa [sizeofChannelBlock] using data

/-- What is written is there. -/
theorem read_write_encode (buf : Int → UInt8) (start : Nat) (data : List UInt8) :
    read (Memory.write buf start (encode data)) start (sizeofChannelBlock + data.length) =
      encode data := by
  rw [← length_encode]
  exact read_write buf start (encode data)

end Cells

namespace Lane

variable {lane : Lane} {queue : List (List UInt8)} {block data : List UInt8} {cap : Nat}

/-- A block that lies at the head in one piece is taken. -/
theorem take_eq (there : read lane.buf lane.head (sizeofChannelBlock + block.length) = encode block)
    (room : sizeofChannelBlock + block.length ≤
      if lane.head < lane.tail then lane.tail - lane.head else channelBufferLen - lane.head)
    (short : block.length < channelBufferLen) (enough : block.length ≤ cap) :
    lane.take cap = (some block, { lane with
      head := (lane.head + (sizeofChannelBlock + block.length)) % 2 ^ 32 % channelBufferLen }) := by
  obtain ⟨first, length, bytes⟩ := read_parts there
  have known : ofLe (read lane.buf (lane.head + 1) 4) = block.length := by
    rw [length, ofLe_toLe]
    simp only [channelBufferLen] at short
    omega
  simp only [take, known, blockLen_eq short, bytes, first]
  rw [if_neg (by omega), if_neg (by simp), if_neg (by omega)]

/-- The oldest block of a lane that has not been wrapped. -/
theorem Queues.take_straight (queues : lane.Queues (block :: queue))
    (laid : Laid lane.buf lane.head (block :: queue) lane.tail) (enough : block.length ≤ cap) :
    (lane.take cap).1 = some block ∧ (lane.take cap).2.Queues queue := by
  have short := queues.short block List.mem_cons_self
  have later := laid.2.le
  have before := queues.tail
  have whole : (lane.head + (sizeofChannelBlock + block.length)) % 2 ^ 32 % channelBufferLen =
      lane.head + (sizeofChannelBlock + block.length) := by
    simp only [channelBufferLen] at before ⊢
    omega
  rw [take_eq laid.1 (by rw [if_pos] <;> simp only [sizeofChannelBlock] at later ⊢ <;> omega)
    short enough]
  refine ⟨rfl, ?_, queues.tail, ?_, ?_⟩
  · dsimp only
    omega
  · exact fun other member => queues.short other (List.mem_cons_of_mem _ member)
  · exact .straight (by dsimp only; omega) (by rw [whole]; exact laid.2)

theorem get_eq (head : lane.head < channelBufferLen) (tail : lane.tail < channelBufferLen) :
    lane.get cap =
      if lane.head = lane.tail then (some [], lane)
      else if lane.head > lane.tail ∧ lane.buf lane.head = etx then
        if 0 = lane.tail then (some [], { lane with head := 0 })
        else { lane with head := 0 }.take cap
      else lane.take cap := by
  rw [get, if_neg (by omega)]

/-- The oldest block is taken, if there is one. -/
theorem Queues.get (queues : lane.Queues queue)
    (enough : ∀ block ∈ queue.head?, block.length ≤ cap) :
    (lane.get cap).1 = some (queue.head?.getD []) ∧ (lane.get cap).2.Queues queue.tail := by
  rw [get_eq queues.head queues.tail]
  cases queues.holds with
  | straight order laid =>
    cases queue with
    | nil =>
      rw [if_pos (show lane.head = lane.tail from laid)]
      exact ⟨rfl, queues⟩
    | cons block rest =>
      have apart := mt laid.eq_nil_iff.mpr (List.cons_ne_nil block rest)
      rw [if_neg apart, if_neg (by omega)]
      exact queues.take_straight laid (enough block rfl)
  | wrapped old new stop parts order older newer marked =>
    rw [if_neg (by omega)]
    cases old with
    | nil =>
      obtain rfl : new = queue := parts.symm
      cases (older : lane.head = stop)
      obtain full | ⟨-, marker, some⟩ := marked
      · exact absurd full (Nat.ne_of_lt queues.head)
      · rw [if_pos ⟨order, marker⟩, if_neg (mt newer.eq_nil_iff.mpr some)]
        cases new with
        | nil => exact absurd rfl some
        | cons block rest =>
          have back : Queues { lane with head := 0 } (block :: rest) :=
            ⟨Nat.zero_lt_of_lt queues.head, queues.tail, queues.short,
              .straight (Nat.zero_le _) newer⟩
          exact back.take_straight newer (enough block rfl)
    | cons block rest =>
      subst parts
      have short := queues.short block List.mem_cons_self
      have later := older.2.le
      have within : stop ≤ channelBufferLen := by omega
      have unmarked : lane.buf lane.head ≠ etx := by
        rw [(read_parts older.1).1]
        decide
      rw [if_neg fun both => unmarked both.2, take_eq older.1
        (by rw [if_neg (by omega)]; omega) short (enough block rfl)]
      have head := queues.head
      have shorter : ∀ other ∈ rest ++ new, other.length < channelBufferLen :=
        fun other member => queues.short other (List.mem_cons_of_mem _ member)
      refine ⟨rfl, ?_⟩
      -- the block may end where the buffer ends
      by_cases ends : lane.head + (sizeofChannelBlock + block.length) = channelBufferLen
      · have last : lane.head + (sizeofChannelBlock + block.length) = stop :=
          Nat.le_antisymm later (ends ▸ within)
        obtain rfl := older.2.eq_nil_iff.mpr last
        have front : (lane.head + (sizeofChannelBlock + block.length)) % 2 ^ 32 %
            channelBufferLen = 0 := by
          rw [ends]
          rfl
        rw [front]
        exact ⟨Nat.zero_lt_of_lt head, queues.tail, shorter, .straight (Nat.zero_le _) newer⟩
      · have whole : (lane.head + (sizeofChannelBlock + block.length)) % 2 ^ 32 %
            channelBufferLen = lane.head + (sizeofChannelBlock + block.length) := by
          simp only [channelBufferLen] at ends within ⊢
          omega
        rw [whole]
        refine ⟨by dsimp only; omega, queues.tail, shorter, ?_⟩
        exact .wrapped rest new stop rfl (by dsimp only; omega) older.2 newer marked

/-- The lane is empty exactly where the head is at the tail. -/
theorem Queues.eq_nil_iff (queues : lane.Queues queue) : queue = [] ↔ lane.head = lane.tail := by
  cases queues.holds with
  | straight order laid => exact laid.eq_nil_iff
  | wrapped old new stop parts order older newer marked =>
    refine ⟨fun nothing => ?_, fun same => absurd same (by omega)⟩
    obtain ⟨rfl, rfl⟩ := List.append_eq_nil_iff.mp (parts.symm.trans nothing)
    cases (older : lane.head = stop)
    obtain full | ⟨-, -, some⟩ := marked
    · exact absurd full (Nat.ne_of_lt queues.head)
    · exact absurd rfl some

/-- A block that is written at the tail, without going back. -/
theorem Queues.place (queues : lane.Queues queue) (short : data.length < channelBufferLen)
    (room : (lane.tail < lane.head ∧ lane.tail + blockLen data.length < lane.head) ∨
      (lane.head ≤ lane.tail ∧ lane.tail + blockLen data.length < channelBufferLen) ∨
      (lane.head ≤ lane.tail ∧ lane.head ≠ 0 ∧
        lane.tail + blockLen data.length = channelBufferLen)) :
    (lane.place lane.buf lane.tail data).Queues (queue ++ [data]) := by
  have head := queues.head
  have shorter : ∀ block ∈ queue ++ [data], block.length < channelBufferLen := by
    intro block member
    obtain old | new := List.mem_append.mp member
    · exact queues.short block old
    · exact List.mem_singleton.mp new ▸ short
  have there := read_write_encode lane.buf lane.tail data
  rw [blockLen_eq short] at room
  have next : (lane.tail + (sizeofChannelBlock + data.length)) % 2 ^ 32 % channelBufferLen =
      if lane.tail + (sizeofChannelBlock + data.length) = channelBufferLen then 0
      else lane.tail + (sizeofChannelBlock + data.length) := by
    split
    · rename_i full
      rw [full]
      rfl
    · simp only [channelBufferLen] at *
      omega
  rw [Lane.place, blockLen_eq short, next]
  cases queues.holds with
  | straight order laid =>
    have longer := (laid.write (encode data) (.inl (Nat.le_refl _))).append there
    obtain beyond | ⟨-, inside⟩ | ⟨-, front, full⟩ := room
    · omega
    · rw [if_neg (by omega)]
      refine ⟨head, inside, shorter, .straight ?_ longer⟩
      dsimp only
      omega
    · rw [if_pos full]
      refine ⟨head, Nat.zero_lt_of_lt head, shorter, ?_⟩
      exact .wrapped _ [] _ (List.append_nil _).symm (Nat.pos_of_ne_zero front) longer rfl
        (.inl full)
  | wrapped old new stop parts order older newer marked =>
    have below := older.le
    rw [if_neg (by omega)]
    have inside : lane.tail + (sizeofChannelBlock + data.length) < lane.head := by omega
    refine ⟨head, by dsimp only; omega, shorter, ?_⟩
    refine .wrapped old (new ++ [data]) stop (by rw [parts, List.append_assoc]) inside
      (older.write _ (.inr (by rw [length_encode]; omega)))
      ((newer.write _ (.inl (Nat.le_refl _))).append there) ?_
    obtain full | ⟨before, marker, -⟩ := marked
    · exact .inl full
    · refine .inr ⟨before, ?_, by simp⟩
      exact (write_apart (by rw [length_encode]; omega)).trans marker

/-- A block that is written at the front, behind an end marker at the tail. -/
theorem Queues.place_front (queues : lane.Queues queue) (short : data.length < channelBufferLen)
    (order : lane.head ≤ lane.tail) (room : blockLen data.length < lane.head) :
    (lane.place (Memory.write lane.buf lane.tail [etx]) 0 data).Queues (queue ++ [data]) := by
  have head := queues.head
  have shorter : ∀ block ∈ queue ++ [data], block.length < channelBufferLen := by
    intro block member
    obtain old | new := List.mem_append.mp member
    · exact queues.short block old
    · exact List.mem_singleton.mp new ▸ short
  have there := read_write_encode (Memory.write lane.buf lane.tail [etx]) 0 data
  rw [blockLen_eq short] at room
  have next : (0 + (sizeofChannelBlock + data.length)) % 2 ^ 32 % channelBufferLen =
      sizeofChannelBlock + data.length := by
    simp only [channelBufferLen] at *
    omega
  rw [Lane.place, blockLen_eq short, next]
  cases queues.holds with
  | straight _ laid =>
    have kept : Laid (Memory.write (Memory.write lane.buf lane.tail [etx]) (0 : Nat) (encode data))
        lane.head queue lane.tail :=
      (laid.write _ (.inl (Nat.le_refl _))).write _ (.inr (by rw [length_encode]; omega))
    refine ⟨head, by dsimp only; omega, shorter, ?_⟩
    refine .wrapped queue [data] lane.tail rfl room kept ⟨there, Nat.zero_add _⟩
      (.inr ⟨queues.tail, ?_, List.cons_ne_nil data []⟩)
    have apart : Memory.write (Memory.write lane.buf lane.tail [etx]) (0 : Nat) (encode data)
        lane.tail = Memory.write lane.buf lane.tail [etx] lane.tail :=
      write_apart (.inr (by rw [length_encode]; omega))
    exact apart.trans (by simp [Memory.write])
  | wrapped _ _ _ _ back _ _ _ => omega

/-- A block is refused, and nothing has changed, or it comes last. -/
theorem Queues.add (queues : lane.Queues queue) (short : data.length < channelBufferLen) :
    lane.add data = (-1, lane) ∨
      ((lane.add data).1 = 0 ∧ (lane.add data).2.Queues (queue ++ [data])) := by
  have head := queues.head
  have tail := queues.tail
  rw [Lane.add, if_neg (by omega)]
  dsimp only
  split
  · rename_i order
    split
    · exact .inl rfl
    · split
      · split
        · exact .inl rfl
        · exact .inr ⟨rfl, queues.place_front short order (by omega)⟩
      · exact .inr ⟨rfl, queues.place short (by omega)⟩
  · split
    · exact .inl rfl
    · exact .inr ⟨rfl, queues.place short (by omega)⟩

end Lane

/-- Each lane holds the blocks that have been added to it and not been taken. -/
def Traffic.Carries (traffic : Traffic) : Prop :=
  ∀ isReq, (traffic.chl.lane isReq).Queues (traffic.queue isReq)

/-- What the callers of a channel are promised: a block that is refused changes nothing, only a
lane without blocks is said to be empty and gives no data, other lanes give the oldest block, and
no call meets what cannot be. -/
structure Traffic.Serves (traffic : Traffic) (isReq : Bool) : Prop where
  refused : ∀ data, data.length < channelBufferLen →
    (traffic.chl.addToChannel data isReq).1 ≠ 0 →
    (traffic.chl.addToChannel data isReq).2 = traffic.chl
  empty : traffic.chl.isChannelEmpty isReq = true ↔ traffic.queue isReq = []
  idle : traffic.queue isReq = [] →
    ∀ cap, traffic.chl.getFromChannel cap isReq = (some [], traffic.chl)
  oldest : ∀ block rest, traffic.queue isReq = block :: rest →
    ∀ cap, block.length ≤ cap → (traffic.chl.getFromChannel cap isReq).1 = some block
  inside : (traffic.chl.lane isReq).head < channelBufferLen ∧
    (traffic.chl.lane isReq).tail < channelBufferLen

namespace Traffic

variable {traffic : Traffic} {isReq : Bool}

theorem Carries.init (reqbuf respbuf : Int → UInt8) : (init reqbuf respbuf).Carries := by
  have fresh : ∀ buf, (Lane.mk 0 0 buf).Queues [] := fun buf =>
    ⟨show 0 < channelBufferLen by decide, show 0 < channelBufferLen by decide,
      fun block member => absurd member List.not_mem_nil, .straight (Nat.le_refl 0) rfl⟩
  intro isReq
  cases isReq with
  | true => exact fresh reqbuf
  | false => exact fresh respbuf

/-- Only one lane is touched. -/
theorem Carries.set (carries : traffic.Carries) {lane : Lane} {queue : List (List UInt8)}
    (queues : lane.Queues queue) :
    (Traffic.mk (traffic.chl.setLane isReq lane)
      (Function.update traffic.queue isReq queue)).Carries := by
  intro other
  by_cases same : other = isReq
  · subst same
    dsimp only
    rw [Channel.lane_setLane_self, Function.update_self]
    exact queues
  · dsimp only
    rw [Channel.lane_setLane_of_ne _ _ same, Function.update_of_ne same]
    exact carries other

theorem setLane_lane (chl : Channel) (isReq : Bool) : chl.setLane isReq (chl.lane isReq) = chl := by
  cases isReq <;> rfl

theorem Carries.step (carries : traffic.Carries) {call : ChannelCall} (fits : Fits traffic call) :
    (traffic.step call).Carries := by
  cases call with
  | add data isReq =>
    obtain refused | ⟨added, queues⟩ := (carries isReq).add fits
    · simp only [Traffic.step, Channel.addToChannel, refused, setLane_lane]
      exact carries
    · simp only [Traffic.step, Channel.addToChannel, added]
      exact carries.set queues
  | get cap isReq => exact carries.set ((carries isReq).get fits).2

theorem Carries.serves (carries : traffic.Carries) (isReq : Bool) : traffic.Serves isReq := by
  have queues := carries isReq
  refine ⟨fun data short failed => ?_, ?_, fun nothing cap => ?_,
    fun block rest some cap enough => ?_, queues.head, queues.tail⟩
  · obtain refused | ⟨added, -⟩ := queues.add short
    · simp only [Channel.addToChannel, refused, setLane_lane]
    · exact absurd added failed
  · rw [Channel.isChannelEmpty, decide_eq_true_iff, queues.eq_nil_iff]
  · rw [Channel.getFromChannel, Lane.get_eq queues.head queues.tail,
      if_pos (queues.eq_nil_iff.mp nothing), setLane_lane]
  · have got := (queues.get (by rw [some]; rintro _ ⟨⟩; exact enough)).1
    rw [some] at got
    exact got

end Traffic

/-- In every run where blocks are smaller than the buffer, and the oldest fits where it is to go,
each direction of the channel is a queue of blocks. -/
theorem channel_serves {reqbuf respbuf : Int → UInt8} {traffic : Traffic}
    (run : Reaches Traffic.step Fits (.init reqbuf respbuf) traffic) (isReq : Bool) :
    traffic.Serves isReq := by
  have carries : traffic.Carries := by
    apply run.invariant
    · exact .init reqbuf respbuf
    · exact fun before fits => before.step fits
  exact carries.serves isReq

theorem channel_serves_three : Traffic.Serves (List.foldl Traffic.step
    (.init (fun _ => 0) fun _ => 0)
    [.add [7, 8] true, .add [9] false, .add [] true, .get 16 true]) true :=
  channel_serves (Reaches.refl.follow (by decide +kernel)) true

/-- An empty block cannot be told from an empty lane by the length. -/
theorem empty_block_gives_no_data : ∃ traffic,
    Reaches Traffic.step Fits (.init (fun _ => 0) fun _ => 0) traffic ∧
      traffic.queue true ≠ [] ∧ (traffic.chl.getFromChannel 16 true).1 = some [] :=
  ⟨List.foldl Traffic.step (.init (fun _ => 0) fun _ => 0) [.add [] true],
    Reaches.refl.follow (by decide +kernel), by decide +kernel, by decide +kernel⟩

end Taomee.Anticheat
