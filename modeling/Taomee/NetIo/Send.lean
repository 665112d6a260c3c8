import Taomee.NetIo.Recv

/-!
# net_io_server: sent bytes

`send_data(conn, data, len)` first flushes what waits in the send blocks of a connection,
then sends its data as far as the socket takes it, and keeps the rest in blocks of
`MEM_BLOCK_SIZE` bytes. `broadcast` does so for every connection but one, and a writable
event flushes again.

What `send` answers and how much memory there is are part of the call. Answers that run out
stand for `EAGAIN`.
-/

namespace Taomee.NetIo

open BlockBuffer

inductive SendResult where
  | sent (count : Nat)
  | eintr
  | eagain
  | error
  deriving DecidableEq

/-- The sending part of `conn_info_t`; fewer than 2^31 bytes wait. -/
structure SendSide where
  sendBuffHead : List (List UInt8)
  sendBuffOffset : Nat
  sendBuffDataLen : Int

/-- `first_mem_block_data_len` -/
def SendSide.firstMemBlockDataLen (side : SendSide) : Int :=
  if side.sendBuffHead.length ≤ 1 then side.sendBuffDataLen
  else memBlockSize - side.sendBuffOffset

/-- The connection after `send` took `rv` bytes of the first block: a block that went out
whole is freed. -/
def SendSide.took (side : SendSide) (rv : Nat) : SendSide :=
  if rv = side.firstMemBlockDataLen then
    ⟨side.sendBuffHead.drop 1, 0, side.sendBuffDataLen - rv⟩
  else { side with sendBuffDataLen := side.sendBuffDataLen - rv }

/-- The bytes that `send` takes of the first block. -/
def SendSide.firstBytes (side : SendSide) (rv : Nat) : List UInt8 :=
  ((side.sendBuffHead.headD []).drop side.sendBuffOffset).take rv

/-- `send_data(conn)`: its return value, the connection, and the bytes handed to the kernel
so far. -/
def flush (side : SendSide) (kernel : List UInt8) (sendDataLen : Int) :
    List SendResult → Int × SendSide × List UInt8
  | [] => (sendDataLen, side, kernel)
  | result :: rest =>
    if side.sendBuffDataLen > 0 then
      match result with
      | .sent rv =>
        flush (side.took rv) (kernel ++ side.firstBytes rv) (sendDataLen + rv) rest
      | .eintr => flush side kernel sendDataLen rest
      | .eagain => (sendDataLen, side, kernel)
      | .error => (-1, side, kernel)
    else (sendDataLen, side, kernel)

/-- The sending loop of `send_data(conn, data, len)`: whether it goes on, the data left, and
the bytes handed to the kernel so far. -/
def sendDirect (left kernel : List UInt8) : List SendResult → Bool × List UInt8 × List UInt8
  | [] => (true, left, kernel)
  | result :: rest =>
    if left.length > 0 then
      match result with
      | .sent rv =>
        if rv > 0 then sendDirect (left.drop rv) (kernel ++ left.take rv) rest
        else (false, left, kernel)
      | .eintr => sendDirect left kernel rest
      | .eagain => (true, left, kernel)
      | .error => (false, left, kernel)
    else (true, left, kernel)

/-- The copying loop of `send_data(conn, data, len)`, with memory for so many more blocks;
`spare` is what a new block holds. -/
def copyToBlocks (spare : List UInt8) (side : SendSide) (spares : Nat) :
    Nat → List UInt8 → Bool × SendSide
  | 0, _ => (true, side)
  | fuel + 1, left =>
    if left.length > 0 then
      let usedLen := side.sendBuffOffset + side.sendBuffDataLen
      if usedLen.tmod memBlockSize = 0 ∧ spares = 0 then (false, side)
      else
        let blocks :=
          if usedLen.tmod memBlockSize = 0 then side.sendBuffHead ++ [spare]
          else side.sendBuffHead
        let idleLen := memBlockSize - usedLen.tmod memBlockSize
        let copyLen := min idleLen.toNat left.length
        copyToBlocks spare
          { side with
            sendBuffHead :=
              writeLast blocks (usedLen.tmod memBlockSize).toNat (left.take copyLen)
            sendBuffDataLen := side.sendBuffDataLen + copyLen }
          (if usedLen.tmod memBlockSize = 0 then spares - 1 else spares) fuel (left.drop copyLen)
    else (true, side)

/-- The kernel's answers while a call flushes and while it sends its data, and the number of
blocks there is memory for. -/
structure Answers where
  flushing : List SendResult
  direct : List SendResult
  spares : Nat

/-- A connection as far as sending goes, with the bytes handed to the kernel and the data of
the calls that have succeeded. -/
structure SendConn where
  id : Int
  isOpen : Bool
  side : SendSide
  kernel : List UInt8
  accepted : List UInt8

/-- `send_data(conn, data, len)` -/
def SendConn.sendData (spare : List UInt8) (conn : SendConn) (data : List UInt8)
    (answers : Answers) : Int × SendConn :=
  let flushed := flush conn.side conn.kernel 0 answers.flushing
  let conn := { conn with side := flushed.2.1, kernel := flushed.2.2 }
  if flushed.1 = -1 then (-1, conn)
  else
    let direct :=
      if conn.side.sendBuffDataLen = 0 then sendDirect data conn.kernel answers.direct
      else (true, data, conn.kernel)
    let conn := { conn with kernel := direct.2.2 }
    if !direct.1 then (-1, conn)
    else
      let copied := copyToBlocks spare conn.side answers.spares direct.2.1.length direct.2.1
      let conn := { conn with side := copied.2 }
      if !copied.1 then (-1, conn)
      else (data.length, { conn with accepted := conn.accepted ++ data })

/-- The connections of `m_id_conn_map`, which are the open ones, and those closed before. -/
abbrev ConnMap := List SendConn

/-- `send_data(id, data, len)` -/
def ConnMap.sendData (spare : List UInt8) (conns : ConnMap) (id : Int) (data : List UInt8)
    (answers : Answers) : Int × ConnMap :=
  if data.length ≤ 0 then (-1, conns)
  else
    match conns.find? fun conn => conn.isOpen ∧ conn.id = id with
    | none => (-1, conns)
    | some conn =>
      ((conn.sendData spare data answers).1,
        conns.map fun other =>
          if other.isOpen ∧ other.id = id then (other.sendData spare data answers).2 else other)

/-- `broadcast`: the number of connections that it failed for. -/
def ConnMap.broadcast (spare : List UInt8) (conns : ConnMap) (id : Int) (data : List UInt8)
    (isAtomic : Bool) (answers : Int → Answers) : Int × ConnMap :=
  (conns.countP fun conn =>
      (conn.isOpen ∧ conn.id ≠ id) ∧
        if isAtomic then (conn.sendData spare data (answers conn.id)).1 < 0
        else (data.length : Int) ≠ (conn.sendData spare data (answers conn.id)).1,
    conns.map fun conn =>
      if conn.isOpen ∧ conn.id ≠ id then (conn.sendData spare data (answers conn.id)).2
      else conn)

/-- The write part of `do_io` for a connection. -/
def ConnMap.writable (conns : ConnMap) (id : Int) (results : List SendResult) : ConnMap :=
  conns.map fun conn =>
    if (conn.isOpen ∧ conn.id = id) ∧ conn.side.sendBuffDataLen > 0 then
      let flushed := flush conn.side conn.kernel 0 results
      let conn := { conn with side := flushed.2.1, kernel := flushed.2.2 }
      if flushed.1 < 0 then { conn with isOpen := false } else conn
    else conn

/-- What happens to the connections as far as sending goes. -/
inductive SendCall where
  | accept (id : Int)
  | close (id : Int)
  | sendData (id : Int) (data : List UInt8) (answers : Answers)
  | broadcast (id : Int) (data : List UInt8) (isAtomic : Bool) (answers : Int → Answers)
  | writable (id : Int) (results : List SendResult)

def ConnMap.step (spare : List UInt8) (conns : ConnMap) : SendCall → ConnMap
  | .accept id => conns ++ [⟨id, true, ⟨[], 0, 0⟩, [], []⟩]
  | .close id => conns.map fun conn => if conn.id = id then { conn with isOpen := false } else conn
  | .sendData id data answers => (conns.sendData spare id data answers).2
  | .broadcast id data isAtomic answers => (conns.broadcast spare id data isAtomic answers).2
  | .writable id results => conns.writable id results

/-- A flush in which the kernel takes every block whole or not at all. -/
def FlushesWhole (side : SendSide) : List SendResult → Prop
  | .sent rv :: rest =>
    side.sendBuffDataLen > 0 →
      rv = side.firstMemBlockDataLen ∧ FlushesWhole (side.took rv) rest
  | .eintr :: rest => FlushesWhole side rest
  | _ => True

/-- Sending so many bytes meets no error. -/
def NoError : Nat → List SendResult → Prop
  | left, .sent rv :: rest => left > 0 → 0 < rv ∧ rv ≤ left ∧ NoError (left - rv) rest
  | left, .eintr :: rest => NoError left rest
  | left, .error :: _ => left = 0
  | _, _ => True

/-- An error comes before the first byte is sent, or not at all. -/
def FailsFirst : Nat → List SendResult → Prop
  | left, .sent rv :: rest => left > 0 → 0 < rv ∧ rv ≤ left ∧ NoError (left - rv) rest
  | left, .eintr :: rest => FailsFirst left rest
  | _, _ => True

/-- There is memory for what is left of the data, or it is missed before anything of the
data is taken. -/
def Memory (side : SendSide) (data left : List UInt8) (spares : Nat) : Prop :=
  let used := (side.sendBuffOffset + side.sendBuffDataLen).toNat % memBlockSize
  left.length ≤ (memBlockSize - used) % memBlockSize + spares * memBlockSize ∨
    left = data ∧ used = 0 ∧ spares = 0

/-- The answers of a call that flushes whole blocks only and does not fail once it has taken
some of its data. -/
structure Answers.Clean (answers : Answers) (conn : SendConn) (data : List UInt8) : Prop where
  flushing : FlushesWhole conn.side answers.flushing
  direct : (flush conn.side conn.kernel 0 answers.flushing).2.1.sendBuffDataLen = 0 →
    FailsFirst data.length answers.direct
  memory : Memory (flush conn.side conn.kernel 0 answers.flushing).2.1 data
    (if (flush conn.side conn.kernel 0 answers.flushing).2.1.sendBuffDataLen = 0 then
      (sendDirect data (flush conn.side conn.kernel 0 answers.flushing).2.2 answers.direct).2.1
    else data) answers.spares

/-- The calls of which every connection they reach has clean answers. -/
def SendCall.Clean (conns : ConnMap) : SendCall → Prop
  | .sendData id data answers =>
    ∀ conn ∈ conns, conn.isOpen ∧ conn.id = id → answers.Clean conn data
  | .broadcast id data _ answers =>
    ∀ conn ∈ conns, conn.isOpen ∧ conn.id ≠ id → (answers conn.id).Clean conn data
  | .writable id results =>
    ∀ conn ∈ conns, conn.isOpen ∧ conn.id = id → FlushesWhole conn.side results
  | _ => True

section Sides

variable {side : SendSide} {content : List UInt8}

/-- The send blocks hold these bytes. -/
structure SendSide.Buffers (side : SendSide) (content : List UInt8) : Prop where
  holds : Holds memBlockSize side.sendBuffHead side.sendBuffOffset content
  length : side.sendBuffDataLen = content.length

/-- A first block that goes out whole takes its bytes off the front. -/
theorem SendSide.Buffers.took (buffers : side.Buffers content) (some' : content ≠ []) {rv : Nat}
    (whole : rv = side.firstMemBlockDataLen) :
    side.firstBytes rv = content.take rv ∧ (side.took rv).Buffers (content.drop rv) := by
  obtain ⟨holds, length⟩ := buffers
  have positive := List.length_pos_iff.mpr some'
  have enough := holds.enough
  have tight := holds.tight
  have bytes := holds.content
  unfold SendSide.took SendSide.firstBytes
  rw [if_pos whole]
  unfold SendSide.firstMemBlockDataLen at whole
  cases shape : side.sendBuffHead with
  | nil =>
    rw [shape, List.length_nil, Nat.zero_mul] at enough
    omega
  | cons first later =>
    rw [shape] at whole enough tight bytes
    have firstFull : first.length = memBlockSize := holds.full first (by simp [shape])
    cases later with
    | nil =>
      rw [if_pos (by simp), length] at whole
      have all : rv = content.length := by exact_mod_cast whole
      subst all
      constructor
      · simpa using bytes
      · constructor
        · simpa using holds_nil memBlockSize_pos
        · simp [length]
    | cons second rest =>
      rw [if_neg (by simp)] at whole
      have fits : rv ≤ content.length := by
        simp only [List.length_cons, Nat.succ_mul] at tight
        omega
      constructor
      · rw [← bytes, List.take_take, Nat.min_eq_left fits, List.headD_cons, List.flatten_cons,
          List.drop_append_of_le_length (by omega), List.take_append_of_le_length]
        rw [List.length_drop]
        omega
      · have consumed := holds.consume fits
        rw [shape, show rv + side.sendBuffOffset = memBlockSize by omega,
          Nat.div_self memBlockSize_pos, Nat.mod_self] at consumed
        constructor
        · exact consumed
        · show side.sendBuffDataLen - rv = _
          rw [length, List.length_drop]
          omega

variable {results : List SendResult}

/-- A flush of whole blocks moves bytes from the buffer to the kernel. -/
theorem SendSide.Buffers.flush (buffers : side.Buffers content) (kernel : List UInt8)
    (sendDataLen : Int) (whole : FlushesWhole side results) :
    ∃ left, (flush side kernel sendDataLen results).2.1.Buffers left ∧
      (flush side kernel sendDataLen results).2.2 ++ left = kernel ++ content := by
  induction results generalizing side content kernel sendDataLen with
  | nil => exact ⟨content, buffers, rfl⟩
  | cons result rest ih =>
    unfold NetIo.flush
    split
    case isFalse => exact ⟨content, buffers, rfl⟩
    case isTrue some' =>
      have nonempty : content ≠ [] := by
        rintro rfl
        rw [buffers.length] at some'
        simp at some'
      cases result with
      | sent rv =>
        obtain ⟨block, later⟩ := whole some'
        obtain ⟨bytes, tookRest⟩ := buffers.took nonempty block
        obtain ⟨left, held, sum⟩ := ih tookRest (kernel ++ side.firstBytes rv)
          (sendDataLen + rv) later
        refine ⟨left, held, ?_⟩
        rw [sum, bytes, List.append_assoc, List.take_append_drop]
      | eintr => exact ih buffers kernel sendDataLen whole
      | eagain => exact ⟨content, buffers, rfl⟩
      | error => exact ⟨content, buffers, rfl⟩

/-- `usedLen` is the number of bytes up to the end of the buffered ones. -/
theorem SendSide.Buffers.tmod (buffers : side.Buffers content) :
    (side.sendBuffOffset + side.sendBuffDataLen).tmod memBlockSize
      = ((side.sendBuffOffset + content.length) % memBlockSize : Nat) := by
  rw [buffers.length]
  exact (Int.ofNat_tmod (side.sendBuffOffset + content.length) memBlockSize).symm

/-- With enough memory, all the data that is left goes to the blocks. -/
theorem SendSide.Buffers.copyToBlocks (buffers : side.Buffers content) {spare : List UInt8}
    (spareFull : spare.length = memBlockSize) {spares fuel : Nat} {left : List UInt8}
    (enough : left.length ≤ fuel) (room : left.length ≤
      (memBlockSize - (side.sendBuffOffset + content.length) % memBlockSize) % memBlockSize
        + spares * memBlockSize) :
    (copyToBlocks spare side spares fuel left).1 = true ∧
      (copyToBlocks spare side spares fuel left).2.Buffers (content ++ left) := by
  induction fuel generalizing side content spares left with
  | zero =>
    have none : left = [] := List.length_eq_zero_iff.mp (by omega)
    subst none
    simpa [NetIo.copyToBlocks] using buffers
  | succ fuel ih =>
    unfold NetIo.copyToBlocks
    split
    case isFalse done =>
      have none : left = [] := List.length_eq_zero_iff.mp (by omega)
      subst none
      simpa using buffers
    case isTrue some' =>
      have tmod := buffers.tmod
      have bound := Nat.mod_lt (side.sendBuffOffset + content.length) memBlockSize_pos
      have fits : (left.take (min (memBlockSize -
          (side.sendBuffOffset + content.length) % memBlockSize) left.length)).length
          ≤ memBlockSize - (side.sendBuffOffset + content.length) % memBlockSize := by
        rw [List.length_take]
        omega
      have appended := buffers.holds.append spareFull fits (by rw [List.length_take]; omega)
      generalize (side.sendBuffOffset + content.length) % memBlockSize = used
        at tmod bound fits appended room
      have copyLen : ((memBlockSize : Int) - (used : Nat)).toNat = memBlockSize - used := by omega
      simp only [tmod, copyLen, Int.natCast_eq_zero]
      have spot : used = 0 → 0 < spares := by
        intro zero
        rw [zero, Nat.sub_zero, Nat.mod_self] at room
        by_contra noSpares
        rw [show spares = 0 by omega] at room
        omega
      rw [if_neg (by omega)]
      generalize copied : min (memBlockSize - used) left.length = copyLen at fits appended ⊢
      have next : SendSide.Buffers
          { side with
            sendBuffHead := writeLast
              (if used = 0 then side.sendBuffHead ++ [spare] else side.sendBuffHead) used
              (left.take copyLen)
            sendBuffDataLen := side.sendBuffDataLen + copyLen }
          (content ++ left.take copyLen) := by
        constructor
        · exact appended
        · show side.sendBuffDataLen + copyLen = _
          rw [buffers.length, List.length_append, List.length_take]
          omega
      have shorter : (left.drop copyLen).length ≤ fuel := by
        rw [List.length_drop]
        omega
      have roomLater : (left.drop copyLen).length
          ≤ (if used = 0 then spares - 1 else spares) * memBlockSize := by
        rw [List.length_drop]
        split
        case isTrue zero =>
          rw [zero, Nat.sub_zero, Nat.mod_self, Nat.zero_add] at room
          rw [Nat.sub_mul, Nat.one_mul]
          omega
        case isFalse partly =>
          rw [Nat.mod_eq_of_lt (by omega)] at room
          omega
      obtain ⟨done, held⟩ := ih next shorter (Nat.le_trans roomLater (Nat.le_add_left _ _))
      rw [List.append_assoc, List.take_append_drop] at held
      exact ⟨done, held⟩

/-- An error that ends the sending loop comes before it has sent anything; what it has sent
is off the front of the data. -/
theorem sendDirect_noError (left kernel : List UInt8) (noError : NoError left.length results) :
    (sendDirect left kernel results).1 = true ∧
      (sendDirect left kernel results).2.2 ++ (sendDirect left kernel results).2.1
        = kernel ++ left := by
  induction results generalizing left kernel with
  | nil => exact ⟨rfl, rfl⟩
  | cons result rest ih =>
    unfold sendDirect
    split
    case isFalse => exact ⟨rfl, rfl⟩
    case isTrue some' =>
      cases result with
      | sent rv =>
        obtain ⟨positive, fits, later⟩ := noError some'
        obtain ⟨done, sum⟩ := ih (left.drop rv) (kernel ++ left.take rv)
          (by rw [List.length_drop]; exact later)
        simp only [if_pos positive]
        refine ⟨done, ?_⟩
        rw [sum, List.append_assoc, List.take_append_drop]
      | eintr => exact ih left kernel noError
      | eagain => exact ⟨rfl, rfl⟩
      | error => exact absurd some' (by rw [noError]; omega)

theorem sendDirect_failsFirst (left kernel : List UInt8)
    (failsFirst : FailsFirst left.length results) :
    (sendDirect left kernel results).2.2 ++ (sendDirect left kernel results).2.1 = kernel ++ left ∧
      ((sendDirect left kernel results).1 = false →
        (sendDirect left kernel results).2.2 = kernel) := by
  induction results with
  | nil => exact ⟨rfl, nofun⟩
  | cons result rest ih =>
    unfold sendDirect
    split
    case isFalse => exact ⟨rfl, nofun⟩
    case isTrue some' =>
      cases result with
      | sent rv =>
        obtain ⟨positive, fits, later⟩ := failsFirst some'
        obtain ⟨done, sum⟩ := sendDirect_noError (left.drop rv) (kernel ++ left.take rv)
          (by rw [List.length_drop]; exact later)
        simp only [if_pos positive]
        rw [sum, done, List.append_assoc, List.take_append_drop]
        exact ⟨rfl, nofun⟩
      | eintr => exact ih failsFirst
      | eagain => exact ⟨rfl, nofun⟩
      | error => exact ⟨rfl, fun _ => rfl⟩

end Sides

section Conns

variable {spare : List UInt8} {conn : SendConn} {conns : ConnMap} {data : List UInt8}
  {answers : Answers}

/-- What has gone to the kernel and what is buffered is what was accepted. -/
def SendConn.Sound (conn : SendConn) : Prop :=
  ∃ content, conn.side.Buffers content ∧ conn.kernel ++ content = conn.accepted

/-- The copying loop takes all that is left, or fails before it takes anything. -/
theorem SendSide.Buffers.copy {side : SendSide} {content left : List UInt8} {spares : Nat}
    (buffers : side.Buffers content) (spareFull : spare.length = memBlockSize)
    (memory : Memory side data left spares) :
    ((NetIo.copyToBlocks spare side spares left.length left).1 = true ∧
      (NetIo.copyToBlocks spare side spares left.length left).2.Buffers (content ++ left)) ∨
    ((NetIo.copyToBlocks spare side spares left.length left).1 = false ∧
      (NetIo.copyToBlocks spare side spares left.length left).2 = side ∧ left = data) := by
  have used : (side.sendBuffOffset + side.sendBuffDataLen).toNat
      = side.sendBuffOffset + content.length := by
    rw [buffers.length]
    omega
  unfold Memory at memory
  rw [used] at memory
  rcases memory with room | ⟨all, aligned, none⟩
  · exact .inl (buffers.copyToBlocks spareFull (Nat.le_refl _) room)
  · cases left with
    | nil =>
      simpa [NetIo.copyToBlocks] using buffers
    | cons first rest =>
      right
      have tmod := buffers.tmod
      rw [aligned] at tmod
      subst none
      rw [List.length_cons]
      unfold NetIo.copyToBlocks
      dsimp only
      rw [tmod, if_pos (by simp), if_pos ⟨rfl, rfl⟩]
      exact ⟨rfl, rfl, all⟩

/-- A clean call keeps the account. -/
theorem SendConn.Sound.sendData (sound : conn.Sound) (spareFull : spare.length = memBlockSize)
    (clean : answers.Clean conn data) : (conn.sendData spare data answers).2.Sound := by
  obtain ⟨content, buffers, sum⟩ := sound
  obtain ⟨flushing, direct, memory⟩ := clean
  obtain ⟨kept, held, moved⟩ := buffers.flush conn.kernel 0 flushing
  rw [sum] at moved
  unfold SendConn.sendData
  dsimp only
  generalize flush conn.side conn.kernel 0 answers.flushing = flushed
    at direct memory held moved ⊢
  split
  case isTrue => exact ⟨kept, held, moved⟩
  case isFalse =>
    by_cases empty : flushed.2.1.sendBuffDataLen = 0
    · rw [if_pos empty] at memory ⊢
      have nothing : kept = [] := by
        have := held.length
        exact List.length_eq_zero_iff.mp (by omega)
      subst nothing
      obtain ⟨taken, failed⟩ := sendDirect_failsFirst data flushed.2.2 (direct empty)
      generalize sendDirect data flushed.2.2 answers.direct = sent at memory taken failed ⊢
      split
      case isTrue fails =>
        rw [failed (by simpa using fails)]
        exact ⟨[], held, moved⟩
      case isFalse =>
        rcases held.copy spareFull memory with ⟨done, copied⟩ | ⟨fails, same, all⟩
        · simp only [done, Bool.not_true, Bool.false_eq_true, if_false]
          refine ⟨_, copied, ?_⟩
          rw [List.nil_append, taken, ← moved, List.append_nil]
        · simp only [fails, same, Bool.not_false, if_true]
          have untouched : sent.2.2 = flushed.2.2 := List.append_cancel_right (all ▸ taken)
          exact ⟨[], held, by rw [← moved, untouched]⟩
    · rw [if_neg empty] at memory ⊢
      rcases held.copy spareFull memory with ⟨done, copied⟩ | ⟨fails, same, -⟩
      · simp only [done, Bool.not_true, Bool.false_eq_true, if_false]
        exact ⟨_, copied, by rw [← List.append_assoc, moved]⟩
      · simp only [fails, same]
        exact ⟨kept, held, moved⟩

/-- Every connection's account is right. -/
def ConnMap.Sound (conns : ConnMap) : Prop := ∀ conn ∈ conns, conn.Sound

/-- One clean call keeps every connection's account. -/
theorem ConnMap.Sound.step (sound : conns.Sound) (spareFull : spare.length = memBlockSize)
    {call : SendCall} (clean : call.Clean conns) : ConnMap.Sound (conns.step spare call) := by
  intro conn member
  cases call with
  | accept id =>
    rcases List.mem_append.mp member with old | new
    · exact sound conn old
    · rw [List.mem_singleton.mp new]
      exact ⟨[], ⟨holds_nil memBlockSize_pos, rfl⟩, rfl⟩
  | close id =>
    obtain ⟨prior, priorMember, rfl⟩ := List.mem_map.mp member
    split
    case isTrue => exact sound prior priorMember
    case isFalse => exact sound prior priorMember
  | sendData id data answers =>
    simp only [ConnMap.step, ConnMap.sendData] at member
    split at member
    · exact sound conn member
    · split at member
      · exact sound conn member
      · obtain ⟨prior, priorMember, rfl⟩ := List.mem_map.mp member
        split
        case isTrue addressed =>
          exact (sound prior priorMember).sendData spareFull (clean prior priorMember addressed)
        case isFalse => exact sound prior priorMember
  | broadcast id data isAtomic answers =>
    obtain ⟨prior, priorMember, rfl⟩ := List.mem_map.mp member
    split
    case isTrue addressed =>
      exact (sound prior priorMember).sendData spareFull (clean prior priorMember addressed)
    case isFalse => exact sound prior priorMember
  | writable id results =>
    obtain ⟨prior, priorMember, rfl⟩ := List.mem_map.mp member
    split
    case isTrue addressed =>
      obtain ⟨content, buffers, sum⟩ := sound prior priorMember
      obtain ⟨left, held, moved⟩ := buffers.flush prior.kernel 0
        (clean prior priorMember addressed.1)
      rw [sum] at moved
      dsimp only
      split
      case isTrue => exact ⟨left, held, moved⟩
      case isFalse => exact ⟨left, held, moved⟩
    case isFalse => exact sound prior priorMember

/-- In a run of clean calls, what a connection's socket has got is always a prefix of the
data accepted for the connection, and the rest is buffered. -/
theorem kernel_prefix_accepted (spareFull : spare.length = memBlockSize)
    (run : Runs.Reaches (ConnMap.step spare) (fun conns call => call.Clean conns) [] conns) :
    ∀ conn ∈ conns, conn.kernel <+: conn.accepted ∧
      conn.kernel ++ (conn.side.sendBuffHead.flatten.drop conn.side.sendBuffOffset).take
        conn.side.sendBuffDataLen.toNat = conn.accepted := by
  have sound : conns.Sound := by
    apply run.invariant
    · exact nofun
    · intro state call holds clean
      exact holds.step spareFull clean
  intro conn member
  obtain ⟨content, buffers, sum⟩ := sound conn member
  constructor
  · exact ⟨content, sum⟩
  · rw [buffers.length, Int.toNat_natCast, buffers.holds.content, sum]

end Conns

/-- A block of zeros. -/
def blankBlock : List UInt8 := List.replicate memBlockSize 0

/-- A connection whose socket is full when its data is sent. -/
def fullSocket : ConnMap :=
  ConnMap.step blankBlock (ConnMap.step blankBlock [] (.accept 1))
    (.sendData 1 [1, 2, 3] ⟨[], [], 1⟩)

/-- The socket takes one byte of three at once and the others, which wait in a block, later; then
it is full, and two more bytes wait. -/
def flushedOnce : ConnMap :=
  [.accept 1, .sendData 1 [1, 2, 3] ⟨[], [.sent 1], 1⟩, .writable 1 [.sent 2],
    .sendData 1 [4, 5] ⟨[], [], 1⟩].foldl (ConnMap.step blankBlock) []

theorem kernel_prefix_accepted_flushedOnce :
    (flushedOnce.head (by decide)).kernel = [1, 2, 3] ∧
      (flushedOnce.head (by decide)).accepted = [1, 2, 3, 4, 5] ∧
      (flushedOnce.head (by decide)).kernel <+: (flushedOnce.head (by decide)).accepted := by
  refine ⟨by decide +kernel, by decide +kernel, ?_⟩
  have run : Runs.Reaches (ConnMap.step blankBlock) (fun conns call => call.Clean conns) []
      flushedOnce := by
    refine Runs.Reaches.refl.follow ⟨trivial, ?_, ?_, ?_, trivial⟩
    · rintro conn member -
      rw [List.mem_singleton.mp member]
      exact ⟨trivial, fun _ => fun _ => ⟨by decide, by decide, trivial⟩, .inl (by decide)⟩
    · rintro conn member -
      rw [List.mem_singleton.mp member]
      exact fun _ => ⟨by decide, trivial⟩
    · rintro conn member -
      rw [List.mem_singleton.mp member]
      exact ⟨trivial, fun _ => trivial, .inl (by decide)⟩
  exact (kernel_prefix_accepted List.length_replicate run _ (List.head_mem _)).1

/-- The socket takes one byte of the three that wait, and later two more: it gets the first
byte twice. -/
theorem partial_flush_repeats :
    ¬ ∀ conn ∈ ConnMap.step blankBlock (ConnMap.step blankBlock fullSocket
        (.writable 1 [.sent 1])) (.writable 1 [.sent 2]),
      conn.kernel <+: conn.accepted := by
  decide

end Taomee.NetIo
