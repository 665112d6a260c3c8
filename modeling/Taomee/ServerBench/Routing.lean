import Mathlib.Data.List.Basic
import Taomee.Library.Runs
import Taomee.ServerBench.Net

/-!
# serverbench: where replies go

A block and the entry of its descriptor agree on a number of `make_id`. Each number was
given to one socket, so an entry whose number a block carries is the entry of the socket
that the request of the block came in on, whatever was closed and opened in between.
-/

namespace Taomee.ServerBench

open Runs

/-- Every byte of the request came from this peer. -/
def ShmBlock.AskedBy (block : ShmBlock) (peer : Peer) : Prop :=
  block.request ≠ [] ∧ ∀ b ∈ block.request, b.peer = peer

/-- What a number of `make_id` was given to. -/
structure Owner where
  socket : Nat
  udp : Bool

def Owner.peer (owner : Owner) (remote : Addr) : Peer :=
  ⟨owner.socket, if owner.udp then some remote else none⟩

/-- A byte that may be sent on a descriptor: one of a reply answers the socket there. -/
def OutByte.For (conn : Option Nat) (out : OutByte) : Prop :=
  ∀ block, out.origin = .reply block → ∃ k, conn = some k ∧ block.AskedBy ⟨k, none⟩

/-- A byte that came in on the socket of a descriptor. -/
def InByte.From (conn : Option Nat) (b : InByte) : Prop :=
  ∃ k, conn = some k ∧ b.peer = ⟨k, none⟩

structure ConnBuf.Owned (conn : Option Nat) (cb : ConnBuf) : Prop where
  pending : ∀ out ∈ cb.sendptr.getD [], out.For conn
  unread : ∀ b ∈ cb.unread, b.From conn

/-- The entry of a descriptor belongs to the socket the descriptor refers to. -/
structure FdInfo.Owned (owners : List Owner) (conn : Option Nat) (info : FdInfo) : Prop where
  opened : ∀ k, conn = some k → info.flag.valid = true ∧ owners[info.id]? = some ⟨k, info.flag.udp⟩
  closed : conn = none → info.flag.valid = false
  cb : info.cb.Owned conn

/-- The number of a block was given to the socket its request came in on. -/
def ShmBlock.Owned (owners : List Owner) (block : ShmBlock) : Prop :=
  ∃ owner, owners[block.blkId]? = some owner ∧ block.AskedBy (owner.peer block.skinfo.remote)

/-- `owners` are the sockets that the numbers were given to, in order. -/
structure Server.Routed (owners : List Owner) (server : Server) : Prop where
  numbered : owners.length = server.nextId
  entries : ∀ fd, (server.fdinfo fd).Owned owners (server.socket fd)
  recvq : ∀ block ∈ server.recvq, block.Owned owners
  workers : ∀ block ∈ server.workers, block.Owned owners
  sendq : ∀ block ∈ server.sendq, block.Owned owners
  written : ∀ w ∈ server.written, ∀ block, w.out.origin = .reply block → block.AskedBy w.peer

variable {owners : List Owner} {server : Server} {fd : Nat} {conn : Option Nat}
  {info : FdInfo} {cb : ConnBuf} {block : ShmBlock}

/-- A block has one asker. -/
theorem ShmBlock.AskedBy.unique {peer other : Peer} (asked : block.AskedBy peer)
    (also : block.AskedBy other) : peer = other := by
  obtain ⟨nonempty, all⟩ := asked
  obtain ⟨b, member⟩ := List.exists_mem_of_ne_nil _ nonempty
  exact (all b member).symm.trans (also.2 b member)

/-- A cleared buffer holds nobody's bytes. -/
theorem ConnBuf.zero_owned : ConnBuf.zero.Owned conn :=
  ⟨by simp [ConnBuf.zero], by simp [ConnBuf.zero]⟩

/-- A cleared record belongs to no connection. -/
theorem FdInfo.zero_owned : FdInfo.zero.Owned owners none :=
  ⟨by simp, fun _ => rfl, ConnBuf.zero_owned⟩

/-- Another buffer with bytes of the same connection. -/
theorem FdInfo.Owned.withCb (owned : info.Owned owners conn) (fits : cb.Owned conn) :
    FdInfo.Owned owners conn { info with cb := cb } :=
  ⟨owned.opened, owned.closed, fits⟩

/-- Connections that come later take nothing away. -/
theorem FdInfo.Owned.more (owned : info.Owned owners conn) (new : List Owner) :
    info.Owned (owners ++ new) conn where
  opened k is := by
    obtain ⟨valid, given⟩ := owned.opened k is
    exact ⟨valid, List.getElem?_append_left (List.getElem?_eq_some_iff.mp given).1 ▸ given⟩
  closed := owned.closed
  cb := owned.cb

/-- The asker of a block stays its asker when connections come. -/
theorem ShmBlock.Owned.more (owned : block.Owned owners) (new : List Owner) :
    block.Owned (owners ++ new) := by
  obtain ⟨owner, given, asked⟩ := owned
  exact ⟨owner, List.getElem?_append_left (List.getElem?_eq_some_iff.mp given).1 ▸ given, asked⟩

/-! ## The table -/

@[simp] theorem Server.setInfo_socket : (server.setInfo fd info).socket = server.socket := rfl

@[simp] theorem Server.setCb_socket : (server.setCb fd cb).socket = server.socket := rfl

@[simp] theorem Server.setInfo_same : (server.setInfo fd info).fdinfo fd = info := by
  simp [Server.setInfo]

@[simp] theorem Server.setCb_same :
    (server.setCb fd cb).fdinfo fd = { server.fdinfo fd with cb := cb } := by
  simp [Server.setCb]

/-- A record of the same connection keeps the routing. -/
theorem Server.Routed.setInfo (routed : server.Routed owners)
    (owned : info.Owned owners (server.socket fd)) : (server.setInfo fd info).Routed owners :=
  { routed with
    entries := by
      intro other
      by_cases same : other = fd
      · subst same
        simpa using owned
      · simpa [Server.setInfo, same] using routed.entries other }

/-- A buffer of the same connection keeps the routing. -/
theorem Server.Routed.setCb (routed : server.Routed owners)
    (owned : cb.Owned (server.socket fd)) : (server.setCb fd cb).Routed owners :=
  routed.setInfo ((routed.entries fd).withCb owned)

/-- `do_close_conn` leaves every block and entry with its socket. -/
theorem Server.Routed.doCloseConn (routed : server.Routed owners) (fd : Nat) :
    (server.doCloseConn fd).Routed owners := by
  unfold Server.doCloseConn
  dsimp only
  split
  · exact routed
  · refine { routed with entries := ?_ }
    intro other
    by_cases same : other = fd
    · subst same
      simpa using FdInfo.zero_owned
    · simpa [Server.setInfo, same] using routed.entries other

/-! ## Sending -/

@[simp] theorem Server.safeTcpSendN_fdinfo (buf : List OutByte) (answers : List SendResult) :
    (server.safeTcpSendN fd buf answers).2.fdinfo = server.fdinfo := by
  unfold Server.safeTcpSendN
  split <;> rfl

@[simp] theorem Server.safeTcpSendN_socket (buf : List OutByte) (answers : List SendResult) :
    (server.safeTcpSendN fd buf answers).2.socket = server.socket := by
  unfold Server.safeTcpSendN
  split <;> rfl

/-- Bytes for a connection are sent to it. -/
theorem Server.Routed.safeTcpSendN (routed : server.Routed owners) {buf : List OutByte}
    (fits : ∀ out ∈ buf, out.For (server.socket fd)) (answers : List SendResult) :
    (server.safeTcpSendN fd buf answers).2.Routed owners := by
  unfold Server.safeTcpSendN
  split
  case h_1 => exact routed
  case h_2 k refers =>
    refine { routed with written := ?_ }
    intro w member block reply
    rcases List.mem_append.mp member with old | new
    · exact routed.written w old block reply
    · obtain ⟨out, inside, rfl⟩ := List.mem_map.mp new
      obtain ⟨k', same, asked⟩ := fits out (List.mem_of_mem_take inside) block reply
      obtain rfl : k = k' := by simpa [refers] using same
      exact asked

@[simp] theorem Server.sendPending_fdinfo (answers : List SendResult) :
    (server.sendPending fd answers).2.fdinfo = server.fdinfo := by
  unfold Server.sendPending
  split <;> simp

@[simp] theorem Server.sendPending_socket (answers : List SendResult) :
    (server.sendPending fd answers).2.socket = server.socket := by
  unfold Server.sendPending
  split <;> simp

/-- Pending bytes are sent to their own connection. -/
theorem Server.Routed.sendPending (routed : server.Routed owners) (answers : List SendResult) :
    (server.sendPending fd answers).2.Routed owners := by
  unfold Server.sendPending
  split
  case h_1 => exact routed
  case h_2 buf points =>
    have pending := (routed.entries fd).cb.pending
    rw [points] at pending
    exact routed.safeTcpSendN (fun out inside => pending out (List.mem_of_mem_take inside)) answers

/-- A buffer with fewer bytes belongs to the same connection. -/
theorem ConnBuf.Owned.sublist (owned : cb.Owned conn) {other : ConnBuf}
    (sendptr : ∀ out ∈ other.sendptr.getD [], out ∈ cb.sendptr.getD [])
    (unread : ∀ b ∈ other.unread, b ∈ cb.unread) : other.Owned conn :=
  ⟨fun out inside => owned.pending out (sendptr out inside),
    fun b inside => owned.unread b (unread b inside)⟩

/-- Bytes that were sent leave the buffer. -/
theorem Server.Routed.dropSent (routed : server.Routed owners) (sendBytes : Nat) :
    (server.dropSent fd sendBytes).Routed owners := by
  refine routed.setCb ((routed.entries fd).cb.sublist ?_ (fun _ inside => inside))
  intro out inside
  cases points : (server.fdinfo fd).cb.sendptr with
  | none => simp [points] at inside
  | some buf => exact List.mem_of_mem_drop (by simpa [points] using inside)

/-- `do_write_conn` writes to the connection that the bytes are for. -/
theorem Server.Routed.doWriteConn (routed : server.Routed owners) (answers : List SendResult) :
    (server.doWriteConn fd answers).2.Routed owners := by
  unfold Server.doWriteConn
  dsimp only
  split
  · exact (routed.sendPending answers).dropSent _
  · exact routed.sendPending answers

/-- A connection closed for idleness takes its bytes with it. -/
theorem Server.Routed.doCheckConn (routed : server.Routed owners) (fd : Nat) (expired : Bool) :
    (server.doCheckConn fd expired).Routed owners := by
  unfold Server.doCheckConn
  dsimp only
  split
  · exact routed.doCloseConn fd
  · split
    · exact routed.doCloseConn fd
    · exact routed

/-- Writing what is pending keeps the routing. -/
theorem Server.Routed.writePending (routed : server.Routed owners) (answers : List SendResult) :
    (server.writePending fd answers).2.Routed owners := by
  unfold Server.writePending
  split
  · exact routed.doWriteConn answers
  · exact routed

/-- The pass over pending connections keeps the routing. -/
theorem Server.Routed.sweep (routed : server.Routed owners) (fd : Nat)
    (answers : List SendResult) (expired : Bool) :
    (server.sweep fd answers expired).Routed owners := by
  unfold Server.sweep
  dsimp only
  split
  · split
    · exact (routed.writePending answers).doCloseConn fd
    · exact (routed.writePending answers).doCheckConn fd expired
  · exact routed

/-- A write when the descriptor is ready keeps the routing. -/
theorem Server.Routed.pollWrite (routed : server.Routed owners) (fd : Nat)
    (answers : List SendResult) : (server.pollWrite fd answers).Routed owners := by
  unfold Server.pollWrite
  dsimp only
  split
  · exact (routed.writePending answers).doCloseConn fd
  · exact routed.writePending answers

/-! ## New connections -/

/-- `do_add_conn` gives the next number to the new socket. -/
theorem Server.Routed.added (routed : server.Routed owners) (fd : Nat) (flag : Flag)
    (remote : Addr) (timeout : Int) :
    ((server.openSocket fd).doAddConn fd flag remote timeout).Routed
      (owners ++ [⟨server.sockets, flag.udp⟩]) where
  numbered := by simp [Server.doAddConn, Server.openSocket, routed.numbered]
  entries := by
    intro other
    by_cases same : other = fd
    · subst same
      refine ⟨?_, ?_, ?_⟩
      · intro k refers
        obtain rfl : server.sockets = k := by
          simpa [Server.doAddConn, Server.openSocket, Server.setInfo] using refers
        simp [Server.doAddConn, Server.openSocket, ← routed.numbered]
      · intro none
        simp [Server.doAddConn, Server.openSocket] at none
      · simpa [Server.doAddConn, Server.openSocket, Server.setInfo, FdInfo.zero] using
          ConnBuf.zero_owned
    · simpa [Server.doAddConn, Server.openSocket, Server.setInfo, same] using
        (routed.entries other).more _
  recvq := fun block member => (routed.recvq block member).more _
  workers := fun block member => (routed.workers block member).more _
  sendq := fun block member => (routed.sendq block member).more _
  written := routed.written

/-- A change of a buffer that keeps the bytes. -/
theorem Server.Routed.keepBytes (routed : server.Routed owners)
    (sendptr : cb.sendptr = (server.fdinfo fd).cb.sendptr)
    (unread : cb.unread = (server.fdinfo fd).cb.unread) : (server.setCb fd cb).Routed owners :=
  routed.setCb ((routed.entries fd).cb.sublist (fun _ inside => sendptr ▸ inside)
    (fun _ inside => unread ▸ inside))

/-- The greeting goes to the connection that was accepted. -/
theorem Server.Routed.greet (routed : server.Routed owners) (fd newfd : Nat)
    (greeting : Greeting) (answers : List SendResult) :
    (server.greet fd newfd greeting answers).2.Routed owners := by
  unfold Server.greet
  split
  · exact routed.doCloseConn newfd
  split
  · exact routed.doCloseConn newfd
  have greeted : (server.setCb newfd { (server.fdinfo newfd).cb with
      sendptr := some (greeting.sendptr.map (OutByte.mk .greeting))
      sendlen := greeting.sendlen.toNat
      sndbufsz := greeting.sendlen.toNat }).Routed owners := by
    refine routed.setCb ⟨?_, (routed.entries newfd).cb.unread⟩
    intro out inside block reply
    obtain ⟨byte, -, rfl⟩ : ∃ byte ∈ greeting.sendptr, OutByte.mk .greeting byte = out := by
      simpa using inside
    cases reply
  dsimp only
  split
  · split
    · exact (greeted.sendPending answers).doCloseConn fd
    · exact (greeted.sendPending answers).keepBytes rfl rfl
  · exact greeted

/-- A new connection has a number that nobody had before. -/
theorem Server.Routed.acceptConn (routed : server.Routed owners) (fd : Nat)
    (answers : NetAnswers) : ∃ owners, (server.acceptConn fd answers).2.Routed owners := by
  unfold Server.acceptConn Server.doOpenConn
  cases answers.accepted with
  | none => exact ⟨owners, routed⟩
  | some accepted =>
    obtain ⟨newfd, remote⟩ := accepted
    have added := routed.added newfd .zero remote (server.fdinfo fd).timeout
    have entry := added.entries newfd
    have kept : FdInfo.Owned _ _ { (((server.openSocket newfd).doAddConn newfd .zero
        remote (server.fdinfo fd).timeout).fdinfo newfd) with acceptFd := fd } :=
      ⟨entry.opened, entry.closed, entry.cb⟩
    have opened := added.setInfo kept
    cases answers.greeting with
    | none => exact ⟨_, opened⟩
    | some greeting => exact ⟨_, opened.greet fd newfd greeting answers.sends⟩

/-! ## Requests -/

/-- A request of a known asker may be queued. -/
theorem Server.Routed.push (routed : server.Routed owners) (owned : block.Owned owners) :
    { server with recvq := server.recvq ++ [block] }.Routed owners :=
  { routed with
    recvq := by
      intro other member
      rcases List.mem_append.mp member with old | new
      · exact routed.recvq other old
      · obtain rfl := List.mem_singleton.mp new
        exact owned }

/-- The block of a connection carries the number of its socket. -/
theorem FdInfo.Owned.packet (owned : info.Owned owners conn) (tcp : info.flag.udp = false)
    {length : Nat} (nonempty : info.cb.unread.take length ≠ []) :
    (info.block length).Owned owners := by
  obtain ⟨b, member⟩ := List.exists_mem_of_ne_nil _ nonempty
  obtain ⟨k, refers, -⟩ := owned.cb.unread b (List.mem_of_mem_take member)
  refine ⟨⟨k, info.flag.udp⟩, (owned.opened k refers).2, nonempty, ?_⟩
  intro b member
  obtain ⟨k', same, peer⟩ := owned.cb.unread b (List.mem_of_mem_take member)
  obtain rfl : k = k' := by simpa [refers] using same
  simpa [Owner.peer, tcp] using peer

/-- Asking for a length moves no byte. -/
theorem Server.Routed.parseLength (routed : server.Routed owners)
    (handleInput : List UInt8 → Int) (fd : Nat) :
    (server.parseLength handleInput fd).Routed owners := by
  unfold Server.parseLength
  dsimp only
  split
  · exact routed.keepBytes rfl rfl
  · exact routed

/-- The pointer put back moves no byte to another connection. -/
theorem Server.Routed.restoreRecvptr (routed : server.Routed owners) (fd saved : Nat) :
    (server.restoreRecvptr fd saved).Routed owners :=
  routed.keepBytes rfl rfl

/-- A packet is pushed under the connection whose buffer it was in. -/
theorem Server.Routed.pushPacket (routed : server.Routed owners)
    (tcp : (server.fdinfo fd).flag.udp = false) {length : Nat}
    (nonempty : (server.fdinfo fd).cb.unread.take length ≠ []) :
    (server.pushPacket fd length).Routed owners := by
  have entry := routed.entries fd
  refine Server.Routed.push (routed.setCb (entry.cb.sublist ?_ ?_)) (entry.packet tcp nonempty)
  · exact fun _ inside => inside
  · exact fun _ inside => List.mem_of_mem_drop inside

/-- Asking for a length leaves the flags. -/
theorem Server.parseLength_flag (handleInput : List UInt8 → Int) :
    ((server.parseLength handleInput fd).fdinfo fd).flag = (server.fdinfo fd).flag := by
  unfold Server.parseLength
  dsimp only
  split <;> simp

/-- By induction over the packets of the buffer. -/
theorem Server.Routed.parseAgain (handleInput : List UInt8 → Int) (saved fuel : Nat)
    (pushes : List Bool) (routed : server.Routed owners)
    (tcp : (server.fdinfo fd).flag.udp = false) :
    (Server.parseAgain handleInput fd saved fuel pushes server).2.Routed owners := by
  induction fuel generalizing server pushes with
  | zero => exact routed
  | succ fuel ih =>
    have parsed := routed.parseLength handleInput fd
    replace tcp := (congrArg Flag.udp (Server.parseLength_flag handleInput)).trans tcp
    unfold Server.parseAgain
    dsimp only
    generalize server.parseLength handleInput fd = server at parsed tcp
    split
    · exact (parsed.restoreRecvptr fd saved).doCloseConn fd
    split
    · split
      · exact (parsed.restoreRecvptr fd saved).doCloseConn fd
      · exact parsed.restoreRecvptr fd saved
    split
    case _ valid unknown complete =>
      split
      case h_1 _ pushes =>
        have pushed : (server.pushPacket fd (server.fdinfo fd).cb.rcvprotlen.toNat).Routed
            owners := by
          refine parsed.pushPacket tcp (List.ne_nil_of_length_pos ?_)
          rw [List.length_take]
          omega
        split
        · exact pushed.restoreRecvptr fd saved
        · exact ih pushes pushed (by simpa [Server.pushPacket, Server.setCb, Server.setInfo] using tcp)
      case h_2 => exact parsed
    · exact parsed.restoreRecvptr fd saved

/-- Making room keeps the bytes of both directions. -/
theorem ConnBuf.room_keeps {recvBuffer : Nat} {memory : Bool} {roomy : ConnBuf}
    (found : cb.room recvBuffer memory = some roomy) :
    roomy.sendptr = cb.sendptr ∧ roomy.unread = cb.unread := by
  unfold ConnBuf.room at found
  grind

/-- A read puts bytes into the buffer of their own connection. -/
theorem Server.Routed.doReadConn (routed : server.Routed owners) (recvBuffer fd : Nat)
    (answers : NetAnswers) : (server.doReadConn recvBuffer fd answers).2.Routed owners := by
  unfold Server.doReadConn
  split
  case h_1 => exact routed
  case h_2 cb found =>
    obtain ⟨sendptr, unread⟩ := ConnBuf.room_keeps found
    have owned := (routed.entries fd).cb
    split
    case h_1 conn bytes refers _ =>
      refine routed.setCb ⟨?_, ?_⟩
      · exact fun out inside => owned.pending out (sendptr ▸ inside)
      · intro b inside
        rcases List.mem_append.mp inside with old | new
        · exact owned.unread b (unread ▸ old)
        · obtain ⟨byte, -, rfl⟩ := List.mem_map.mp new
          exact ⟨conn, refers, rfl⟩
    all_goals exact routed.keepBytes sendptr unread

/-- A read leaves the flags. -/
theorem Server.doReadConn_flag (recvBuffer : Nat) (answers : NetAnswers) :
    ((server.doReadConn recvBuffer fd answers).2.fdinfo fd).flag = (server.fdinfo fd).flag := by
  unfold Server.doReadConn
  split
  · rfl
  · split <;> simp

/-- A datagram's block carries the number of its socket and its sender's address. -/
theorem Server.Routed.udpRecv (routed : server.Routed owners) (recvBuffer fd : Nat)
    (udp : (server.fdinfo fd).flag.udp = true) (answers : NetAnswers) :
    (server.udpRecv recvBuffer fd answers).2.Routed owners := by
  unfold Server.udpRecv
  dsimp only
  split
  · exact routed
  have grown : (server.setCb fd (if (server.fdinfo fd).cb.rcvbufsz = 0 then
      { (server.fdinfo fd).cb with rcvbufsz := recvBuffer } else (server.fdinfo fd).cb)).Routed
      owners := by
    split
    · exact routed.keepBytes rfl rfl
    · exact routed.keepBytes rfl rfl
  split
  case h_1 conn remote bytes refers _ =>
    split
    · exact grown
    rename_i nonempty
    split
    · exact grown
    split
    · refine Server.Routed.push (grown.setCb ⟨?_, by simp⟩) ?_
      · split
        · exact (routed.entries fd).cb.pending
        · exact (routed.entries fd).cb.pending
      · obtain ⟨-, given⟩ := (routed.entries fd).opened conn refers
        refine ⟨_, given, ?_, ?_⟩
        · simpa using nonempty
        · intro b inside
          obtain ⟨byte, -, rfl⟩ := List.mem_map.mp inside
          simp [Owner.peer, udp]
    · exact grown
  case h_2 => exact grown

/-- One turn of the network process keeps the routing. -/
theorem Server.Routed.runOnce (routed : server.Routed owners) (recvBuffer fd : Nat)
    (answers : NetAnswers) : ∃ owners, (server.runOnce recvBuffer fd answers).2.Routed owners := by
  unfold Server.runOnce
  dsimp only
  split
  case _ udp => exact ⟨owners, routed.udpRecv recvBuffer fd udp answers⟩
  split
  · exact routed.acceptConn fd answers
  · have read := routed.doReadConn recvBuffer fd answers
    split
    · exact ⟨owners, read.doCloseConn fd⟩
    · refine ⟨owners, read.parseAgain _ _ _ _ ?_⟩
      rw [Server.doReadConn_flag]
      simp_all

/-! ## Replies -/

/-- A worker leaves the number, the address and the request of a block as they are. -/
theorem ShmBlock.Owned.reply (owned : block.Owned owners) {processed : Processed}
    {reply : ShmBlock} (made : workerReply block processed = some reply) : reply.Owned owners := by
  unfold workerReply at made
  obtain ⟨owner, given, asked⟩ := owned
  have same : reply.blkId = block.blkId ∧ reply.skinfo = block.skinfo ∧
      reply.request = block.request := by
    grind
  obtain ⟨blkId, skinfo, request⟩ := same
  exact ⟨owner, blkId ▸ given, by rw [ShmBlock.AskedBy, request, skinfo]; exact asked⟩

/-- The entry with a block's number belongs to the socket that asked. -/
theorem ShmBlock.Owned.asked (owned : block.Owned owners) (entry : info.Owned owners conn)
    (valid : info.flag.valid = true) (same : block.blkId = info.id) :
    ∃ k, conn = some k ∧
      block.AskedBy ⟨k, if info.flag.udp then some block.skinfo.remote else none⟩ := by
  cases refers : conn with
  | none => simp [entry.closed refers] at valid
  | some k =>
    obtain ⟨owner, given, asked⟩ := owned
    rw [same, (entry.opened k refers).2] at given
    obtain rfl := Option.some.inj given
    exact ⟨k, rfl, asked⟩

theorem Server.Routed.fault (routed : server.Routed owners) : server.fault.Routed owners :=
  { routed with entries := fun _ => FdInfo.zero_owned }

/-- What is left of a reply waits at the connection it is for. -/
theorem Server.Routed.mergeBuffer (routed : server.Routed owners) {left : List OutByte}
    (fits : ∀ out ∈ left, out.For (server.socket fd)) (memory : Bool) :
    (server.mergeBuffer fd left memory).2.Routed owners := by
  have owned := (routed.entries fd).cb
  have dropped : (server.setCb fd { (server.fdinfo fd).cb with sendptr := none }).Routed owners :=
    routed.setCb ⟨by simp, owned.unread⟩
  have joined : ∀ out ∈ ((server.fdinfo fd).cb.sendptr.getD []).take
      (server.fdinfo fd).cb.sendlen ++ left, out.For (server.socket fd) := by
    intro out inside
    rcases List.mem_append.mp inside with kept | new
    · exact owned.pending out (List.mem_of_mem_take kept)
    · exact fits out new
  unfold Server.mergeBuffer
  dsimp only
  split
  · exact routed
  split
  · split
    · exact routed.setCb ⟨fits, owned.unread⟩
    · exact dropped
  split
  · split
    · exact routed.setCb ⟨joined, owned.unread⟩
    · exact dropped
  · split
    case h_1 => exact routed.fault
    case h_2 buf points =>
      rw [points] at joined
      exact routed.setCb ⟨joined, owned.unread⟩

@[simp] theorem Server.doWriteConn_socket (answers : List SendResult) :
    (server.doWriteConn fd answers).2.socket = server.socket := by
  unfold Server.doWriteConn
  dsimp only
  split <;> simp [Server.dropSent]

@[simp] theorem Server.writePending_socket (answers : List SendResult) :
    (server.writePending fd answers).2.socket = server.socket := by
  unfold Server.writePending
  split <;> simp

/-- A reply is sent, or waits, at the connection of its asker. -/
theorem Server.Routed.sendBlock (routed : server.Routed owners)
    (fits : ∀ out ∈ block.out, out.For (server.socket fd)) (answers : OutputAnswers) :
    (server.sendBlock fd block answers).2.Routed owners := by
  unfold Server.sendBlock
  dsimp only
  generalize made : (if (server.fdinfo fd).cb.sendlen = 0 ∧ block.data.length > 0 then
    server.safeTcpSendN fd block.out answers.direct else (0, server)) = direct
  have sent : direct.2.Routed owners ∧ direct.2.socket = server.socket := by
    subst made
    split
    · exact ⟨routed.safeTcpSendN fits _, Server.safeTcpSendN_socket _ _⟩
    · exact ⟨routed, rfl⟩
  obtain ⟨sent, socket⟩ := sent
  split
  · exact sent.doCloseConn fd
  · refine sent.mergeBuffer ?_ _
    exact fun out inside => socket ▸ fits out (List.mem_of_mem_drop inside)

/-- The output of a reply keeps the routing. -/
theorem Server.Routed.outputTcp (routed : server.Routed owners)
    (fits : ∀ out ∈ block.out, out.For (server.socket fd)) (answers : OutputAnswers) :
    (server.outputTcp fd block answers).2.Routed owners := by
  have lingered : (server.writePending fd answers.linger).2.Routed owners :=
    routed.writePending answers.linger
  unfold Server.outputTcp
  dsimp only
  split
  · exact lingered.doCloseConn fd
  · exact lingered.sendBlock (by simpa using fits) answers

/-- A datagram goes to the address that asked. -/
theorem Server.Routed.sendUdpBlock (routed : server.Routed owners)
    (asked : ∀ k, server.socket block.skinfo.sockfd = some k →
      block.AskedBy ⟨k, some block.skinfo.remote⟩) (sendto : Bool) :
    (server.sendUdpBlock block sendto).2.Routed owners := by
  unfold Server.sendUdpBlock
  split
  · exact routed
  split
  · exact routed
  split
  case h_1 k refers =>
    refine { routed with written := ?_ }
    intro w member other reply
    rcases List.mem_append.mp member with old | new
    · exact routed.written w old other reply
    · obtain ⟨out, inside, rfl⟩ := List.mem_map.mp new
      obtain ⟨byte, -, rfl⟩ := List.mem_map.mp inside
      obtain rfl : block = other := by simpa using reply
      exact asked k refers
  case h_2 => exact routed

@[simp] theorem Server.markFin_socket (type : BlockType) :
    (server.markFin fd type).socket = server.socket := by
  unfold Server.markFin
  dsimp only
  split <;> rfl

/-- A mark for the end moves no byte. -/
theorem Server.Routed.markFin (routed : server.Routed owners) (fd : Nat) (type : BlockType) :
    (server.markFin fd type).Routed owners := by
  have entry := routed.entries fd
  unfold Server.markFin
  dsimp only
  split
  · exact routed.setInfo ⟨entry.opened, entry.closed, entry.cb⟩
  · exact routed

/-- A reply is written to the socket that asked, or kept for it. -/
theorem Server.Routed.scheduleOutput (routed : server.Routed owners)
    (owned : block.Owned owners) (answers : OutputAnswers) :
    (server.scheduleOutput block answers).2.Routed owners := by
  unfold Server.scheduleOutput
  dsimp only
  split
  · exact routed
  split
  · exact routed
  case _ _ matching =>
    have entry := routed.entries block.skinfo.sockfd
    obtain ⟨k, refers, asked⟩ := owned.asked entry (by simp_all) (by simp_all)
    have marked := routed.markFin block.skinfo.sockfd block.type
    split
    case _ udp =>
      refine marked.sendUdpBlock ?_ answers.sendto
      intro k' refers'
      obtain rfl : k = k' := by simpa [refers] using refers'
      simpa [udp] using asked
    case _ tcp =>
      refine marked.outputTcp ?_ answers
      intro out inside other reply
      obtain ⟨byte, -, rfl⟩ := List.mem_map.mp inside
      obtain rfl : block = other := by simpa using reply
      exact ⟨k, by simpa using refers, by simpa [tcp] using asked⟩

/-- A block whose descriptor no longer is the socket that asked is discarded. -/
theorem Server.Routed.discarded (routed : server.Routed owners) (owned : block.Owned owners) :
    ∃ asker, block.AskedBy asker ∧
      ∀ answers, server.socket block.skinfo.sockfd ≠ some asker.socket →
        server.scheduleOutput block answers = (-1, server) := by
  obtain ⟨owner, given, asked⟩ := owned
  refine ⟨_, asked, ?_⟩
  intro answers gone
  have stale : (server.fdinfo block.skinfo.sockfd).flag.valid = false ∨
      block.blkId ≠ (server.fdinfo block.skinfo.sockfd).id := by
    by_contra matching
    push Not at matching
    obtain ⟨valid, same⟩ := matching
    have entry := routed.entries block.skinfo.sockfd
    obtain ⟨k, refers, also⟩ := ShmBlock.Owned.asked ⟨owner, given, asked⟩ entry
      (by simpa using valid) same
    have peer := asked.unique also
    exact gone (refers.trans (congrArg (some ∘ Peer.socket) peer).symm)
  unfold Server.scheduleOutput
  dsimp only
  split
  · rfl
  · rw [if_pos (by simpa using stale)]

/-! ## Runs -/

/-- A worker takes a request with its asker. -/
theorem Server.Routed.popRequest (routed : server.Routed owners) :
    server.popRequest.Routed owners :=
  { routed with
    recvq := fun block member => routed.recvq block (List.mem_of_mem_drop member)
    workers := by
      intro block member
      rcases List.mem_append.mp member with old | new
      · exact routed.workers block old
      · exact routed.recvq block (List.mem_of_mem_take new) }

/-- A worker may drop a request. -/
theorem Server.Routed.dropRequest (routed : server.Routed owners) (index : Nat) :
    (server.dropRequest index).Routed owners :=
  { routed with
    workers := fun block member => routed.workers block (List.mem_of_mem_eraseIdx member) }

/-- A reply carries the address of its request. -/
theorem Server.Routed.pushReply (routed : server.Routed owners) (index : Nat)
    (processed : Processed) (pushed : Bool) :
    (server.pushReply index processed pushed).Routed owners :=
  { routed.dropRequest index with
    sendq := by
      intro reply member
      rcases List.mem_append.mp member with old | new
      · exact routed.sendq reply old
      split at new
      case isTrue =>
        obtain ⟨block, held, made⟩ := Option.bind_eq_some_iff.mp (Option.mem_toList.mp new)
        exact (routed.workers block (List.mem_of_getElem? held)).reply made
      case isFalse => cases new }

/-- A reply taken from the queue goes to its asker or nowhere. -/
theorem Server.Routed.popReply (routed : server.Routed owners) (answers : OutputAnswers) :
    (server.popReply answers).Routed owners := by
  unfold Server.popReply
  split
  · exact routed
  case h_2 mb rest queued =>
    have popped : { server with sendq := rest }.Routed owners :=
      { routed with
        sendq := fun block member => routed.sendq block (queued ▸ List.mem_cons_of_mem mb member) }
    exact popped.scheduleOutput (routed.sendq mb (queued ▸ List.mem_cons_self)) answers

/-- Every step keeps the routing, perhaps with one owner more. -/
theorem Server.Routed.step (routed : server.Routed owners) (recvBuffer : Nat) (event : Event) :
    ∃ owners, (step recvBuffer server event).Routed owners := by
  cases event with
  | netStart fd flag timeout => exact ⟨_, routed.added fd flag _ timeout⟩
  | runOnce fd answers => exact routed.runOnce recvBuffer fd answers
  | hangup fd => exact ⟨owners, routed.doCloseConn fd⟩
  | sweep fd answers expired => exact ⟨owners, routed.sweep fd answers expired⟩
  | pollWrite fd answers => exact ⟨owners, routed.pollWrite fd answers⟩
  | check fd expired => exact ⟨owners, routed.doCheckConn fd expired⟩
  | popRequest => exact ⟨owners, routed.popRequest⟩
  | pushReply index processed pushed => exact ⟨owners, routed.pushReply index processed pushed⟩
  | dropRequest index => exact ⟨owners, routed.dropRequest index⟩
  | popReply answers => exact ⟨owners, routed.popReply answers⟩

/-- There is nothing to route at the start. -/
theorem Server.initial_routed : Server.initial.Routed [] :=
  ⟨rfl, fun _ => FdInfo.zero_owned, by simp [Server.initial], by simp [Server.initial],
    by simp [Server.initial], by simp [Server.initial]⟩

/-- In every run a byte of a reply is written to the peer whose request it answers, and a
reply on `sendq` whose descriptor is not the socket that asked any more is discarded: nothing
is written, and nothing else changes. -/
theorem replies_reach_asker {recvBuffer : Nat}
    (run : Reaches (step recvBuffer) Event.Allowed Server.initial server) :
    (∀ w ∈ server.written, ∀ block, w.out.origin = .reply block → block.AskedBy w.peer) ∧
      ∀ block ∈ server.sendq, ∃ asker, block.AskedBy asker ∧
        ∀ answers, server.socket block.skinfo.sockfd ≠ some asker.socket →
          server.scheduleOutput block answers = (-1, server) := by
  have reached : ∃ owners, server.Routed owners := by
    apply run.invariant
    · exact ⟨[], Server.initial_routed⟩
    · rintro server event ⟨owners, routed⟩ -
      exact routed.step recvBuffer event
  obtain ⟨owners, routed⟩ := reached
  refine ⟨routed.written, ?_⟩
  exact fun block member => routed.discarded (routed.sendq block member)

def listening : Flag := ⟨false, true, false, false, false⟩

/-- `run_once` accepts a connection on this descriptor. -/
def acceptAt (newfd : Nat) : Event :=
  .runOnce 3 ⟨true, some (newfd, ⟨1, 80⟩), none, [], .error, none, fun _ => 0, []⟩

/-- `run_once` reads a request of one byte. -/
def requestAt (fd : Nat) : Event :=
  .runOnce fd ⟨true, none, none, [], .data [7], none, fun _ => 1, [true]⟩

/-- A client asks and leaves, and the next one gets its descriptor before the reply is due. -/
def reusedFd : Server :=
  [.netStart 3 listening 0, acceptAt 5, requestAt 5, .popRequest,
    .pushReply 0 ⟨0, [9], 1⟩ true, .hangup 5, acceptAt 5].foldl (step 4096) Server.initial

/-- The reply to the client that left. -/
def lateReply : ShmBlock := ⟨1, .dat, ⟨5, ⟨1, 80⟩⟩, 3, [9], [⟨⟨1, none⟩, 7⟩]⟩

/-- The descriptor is in use again: the late reply is not sent to the new connection. -/
theorem replies_reach_asker_reused :
    reusedFd.sendq = [lateReply] ∧ reusedFd.socket 5 = some 2 ∧
      reusedFd.scheduleOutput lateReply ⟨[], [], true, true⟩ = (-1, reusedFd) := by
  have run : Reaches (step 4096) Event.Allowed Server.initial reusedFd := by
    simp only [reusedFd, List.foldl_cons, List.foldl_nil]
    refine .call (.call (.call (.call (.call (.call (.call .refl rfl) ?_) ?_) trivial) trivial)
      trivial) ?_
    · rintro _ ⟨⟩
      exact ⟨by decide, rfl⟩
    · nofun
    · rintro _ ⟨⟩
      exact ⟨by decide, rfl⟩
  have queued : reusedFd.sendq = [lateReply] := rfl
  obtain ⟨asker, asked, discarded⟩ :=
    (replies_reach_asker run).2 lateReply (queued ▸ List.mem_singleton.mpr rfl)
  obtain rfl : ⟨1, none⟩ = asker := asked.2 ⟨⟨1, none⟩, 7⟩ List.mem_cons_self
  exact ⟨queued, rfl, discarded _ (by decide)⟩

end Taomee.ServerBench
