import Taomee.ServerBench.Routing

/-!
# serverbench: the receive buffer

`run_once` takes complete packets from the front of a connection's bytes by moving `recvptr`,
and moves what is left back to the base of the buffer when it is done. A history keeps beside
the server what went through it, so that the bytes in a buffer can be compared with the bytes
received and with the packets made of them.
-/

namespace Taomee.ServerBench

open Runs

/-- A server and what it met since it started: what `handle_open` returned for each socket, the
bytes received on connections, and the blocks pushed to `recvq` and to `sendq`. -/
structure History where
  server : Server
  greetings : Nat → List OutByte
  received : List InByte
  requests : List ShmBlock
  replies : List ShmBlock

def History.initial : History := ⟨.initial, fun _ => [], [], [], []⟩

def Greeting.bytes (greeting : Greeting) : List OutByte :=
  (greeting.sendptr.take greeting.sendlen.toNat).map (OutByte.mk .greeting)

/-- The bytes of the greeting for the socket that an event opens. -/
def Event.greeting : Event → List OutByte
  | .runOnce _ answers => answers.greeting.elim [] Greeting.bytes
  | _ => []

/-- The bytes that `recv` puts behind the unread ones of a connection. -/
def Server.arriving (recvBuffer : Nat) (server : Server) (fd : Nat) (answers : NetAnswers) :
    List InByte :=
  match server.socket fd, (server.fdinfo fd).cb.room recvBuffer answers.memory, answers.recv with
  | some conn, some cb, .data bytes =>
    (bytes.take (cb.rcvbufsz - cb.unread.length)).map (InByte.mk ⟨conn, none⟩)
  | _, _, _ => []

def Event.received (recvBuffer : Nat) (server : Server) : Event → List InByte
  | .runOnce fd answers =>
    let flag := (server.fdinfo fd).flag
    if flag.udp || flag.listen then [] else server.arriving recvBuffer fd answers
  | _ => []

/-- One event. The greeting is recorded for the socket that is opened next. -/
def History.step (recvBuffer : Nat) (history : History) (event : Event) : History :=
  let server := history.server
  let after := ServerBench.step recvBuffer server event
  { server := after
    greetings := Function.update history.greetings server.sockets event.greeting
    received := history.received ++ event.received recvBuffer server
    requests := history.requests ++ after.recvq.drop server.recvq.length
    replies := history.replies ++ after.sendq.drop server.sendq.length }

variable {server after last : Server} {fd k recvBuffer : Nat} {info : FdInfo} {cb : ConnBuf}
  {history : History}

/-! ## Sockets -/

/-- Sockets are numbered as they are opened, and no two descriptors refer to one. -/
structure Server.Numbered (server : Server) : Prop where
  below : ∀ fd k, server.socket fd = some k → k < server.sockets
  single : ∀ fd other k, server.socket fd = some k → server.socket other = some k → fd = other

/-- The next number goes to the socket that is opened. -/
theorem Server.Numbered.added (numbered : server.Numbered) (flag : Flag) (remote : Addr)
    (timeout : Int) : ((server.openSocket fd).doAddConn fd flag remote timeout).Numbered where
  below other k refers := by
    change Function.update server.socket fd (some server.sockets) other = some k at refers
    by_cases here : other = fd
    · subst here
      obtain rfl : server.sockets = k := by simpa using refers
      exact Nat.lt_succ_self _
    · exact Nat.lt_succ_of_lt (numbered.below other k (by simpa [here] using refers))
  single one other k refers also := by
    change Function.update server.socket fd (some server.sockets) one = some k at refers
    change Function.update server.socket fd (some server.sockets) other = some k at also
    have below := numbered.below
    have single := numbered.single
    by_cases first : one = fd <;> by_cases second : other = fd <;> grind

/-- Entries are closed, or keep what `view` shows of them. -/
structure Server.Keeps (view : FdInfo → FdInfo) (server after : Server) : Prop where
  sockets : after.sockets = server.sockets
  entry : ∀ fd, (after.socket fd = none ∧ view (after.fdinfo fd) = view .zero) ∨
    (after.socket fd = server.socket fd ∧ view (after.fdinfo fd) = view (server.fdinfo fd))

namespace Server.Keeps

variable {view : FdInfo → FdInfo}

theorem refl : server.Keeps view server := ⟨rfl, fun _ => .inr ⟨rfl, rfl⟩⟩

theorem trans (first : server.Keeps view after) (second : after.Keeps view last) :
    server.Keeps view last where
  sockets := second.sockets.trans first.sockets
  entry fd := by
    rcases second.entry fd with closed | ⟨socket, same⟩
    · exact .inl closed
    rcases first.entry fd with ⟨closed, zero⟩ | ⟨before, kept⟩
    · exact .inl ⟨socket.trans closed, same.trans zero⟩
    · exact .inr ⟨socket.trans before, same.trans kept⟩

/-- A descriptor that still refers to a connection referred to it before, with the same view. -/
theorem was (keeps : server.Keeps view after) (refers : after.socket fd = some k) :
    server.socket fd = some k ∧ view (after.fdinfo fd) = view (server.fdinfo fd) := by
  rcases keeps.entry fd with ⟨closed, -⟩ | ⟨same, kept⟩
  · cases closed.symm.trans refers
  · exact ⟨same.symm.trans refers, kept⟩

/-- A record with the same view may be put in place of the old one. -/
theorem setInfo (same : view info = view (server.fdinfo fd)) :
    server.Keeps view (server.setInfo fd info) where
  sockets := rfl
  entry other := by
    by_cases here : other = fd
    · subst here
      exact .inr ⟨rfl, by simpa using same⟩
    · exact .inr ⟨rfl, by simp [Server.setInfo, here]⟩

/-- Closing a connection shows nothing new of the others. -/
theorem doCloseConn : server.Keeps view (server.doCloseConn fd) := by
  unfold Server.doCloseConn
  dsimp only
  split
  · exact refl
  · refine ⟨rfl, ?_⟩
    intro other
    by_cases here : other = fd
    · subst here
      exact .inl ⟨by simp, by simp⟩
    · exact .inr ⟨by simp [here], by simp [Server.setInfo, here]⟩

/-- A fault stops the server and moves no data. -/
theorem fault : server.Keeps view server.fault :=
  ⟨rfl, fun _ => .inl ⟨rfl, rfl⟩⟩

end Server.Keeps

@[simp] theorem Server.doCloseConn_recvq : (server.doCloseConn fd).recvq = server.recvq := by
  unfold Server.doCloseConn
  dsimp only
  split <;> rfl

/-- No new connection, no new number. -/
theorem Server.Numbered.shrink {view : FdInfo → FdInfo} (numbered : server.Numbered)
    (keeps : server.Keeps view after) : after.Numbered where
  below fd k refers := keeps.sockets ▸ numbered.below fd k (keeps.was refers).1
  single fd other k refers also :=
    numbered.single fd other k (keeps.was refers).1 (keeps.was also).1

/-! ## Sending leaves the input alone -/

/-- What sending leaves of an entry. -/
def FdInfo.input (info : FdInfo) : FdInfo :=
  { info with
    acceptFd := 0
    timeout := 0
    flag := { info.flag with fin := false }
    cb := { info.cb with sndbufsz := 0, sendlen := 0, sendptr := none } }

/-- Nothing is received, and no request is pushed. -/
structure Server.KeepsInput (server after : Server) : Prop
    extends server.Keeps FdInfo.input after where
  recvq : after.recvq <:+ server.recvq

namespace Server.KeepsInput

theorem refl : server.KeepsInput server := ⟨.refl, List.suffix_rfl⟩

theorem trans (first : server.KeepsInput after) (second : after.KeepsInput last) :
    server.KeepsInput last :=
  ⟨first.toKeeps.trans second.toKeeps, second.recvq.trans first.recvq⟩

/-- A record with the same input may be put in place of the old one. -/
theorem setInfo (same : info.input = (server.fdinfo fd).input) :
    server.KeepsInput (server.setInfo fd info) :=
  ⟨.setInfo same, List.suffix_rfl⟩

theorem setCb (same : ({ server.fdinfo fd with cb := cb } : FdInfo).input =
    (server.fdinfo fd).input) : server.KeepsInput (server.setCb fd cb) :=
  setInfo same

/-- Closing a connection receives nothing. -/
theorem doCloseConn : server.KeepsInput (server.doCloseConn fd) := by
  refine ⟨.doCloseConn, ?_⟩
  unfold Server.doCloseConn
  dsimp only
  split <;> exact List.suffix_rfl

/-- Sending leaves what was received. -/
theorem safeTcpSendN (buf : List OutByte) (answers : List SendResult) :
    server.KeepsInput (server.safeTcpSendN fd buf answers).2 := by
  unfold Server.safeTcpSendN
  split <;> exact ⟨⟨rfl, fun _ => .inr ⟨rfl, rfl⟩⟩, List.suffix_rfl⟩

/-- Sending what is pending leaves what was received. -/
theorem sendPending (fd : Nat) (answers : List SendResult) :
    server.KeepsInput (server.sendPending fd answers).2 := by
  unfold Server.sendPending
  split
  · exact refl
  · exact safeTcpSendN _ _

/-- `do_write_conn` over the pending bytes leaves what was received. -/
theorem writePending (answers : List SendResult) :
    server.KeepsInput (server.writePending fd answers).2 := by
  unfold Server.writePending Server.doWriteConn
  dsimp only
  split
  · split
    · exact (sendPending fd answers).trans (setCb rfl)
    · exact sendPending fd answers
  · exact refl

/-- A connection found idle is closed, which receives nothing. -/
theorem doCheckConn (expired : Bool) : server.KeepsInput (server.doCheckConn fd expired) := by
  unfold Server.doCheckConn
  dsimp only
  split
  · exact doCloseConn
  · split
    · exact doCloseConn
    · exact refl

/-- The pass over the pending connections receives nothing. -/
theorem sweep (answers : List SendResult) (expired : Bool) :
    server.KeepsInput (server.sweep fd answers expired) := by
  unfold Server.sweep
  dsimp only
  split
  · split
    · exact (writePending answers).trans doCloseConn
    · exact (writePending answers).trans (doCheckConn expired)
  · exact refl

/-- A descriptor that can be written to receives nothing. -/
theorem pollWrite (answers : List SendResult) :
    server.KeepsInput (server.pollWrite fd answers) := by
  unfold Server.pollWrite
  dsimp only
  split
  · exact (writePending answers).trans doCloseConn
  · exact writePending answers

/-- The greeting of a new connection is output only. -/
theorem greet (fd newfd : Nat) (greeting : Greeting) (answers : List SendResult) :
    server.KeepsInput (server.greet fd newfd greeting answers).2 := by
  have greeted : server.KeepsInput (server.setCb newfd { (server.fdinfo newfd).cb with
      sendptr := some (greeting.sendptr.map (OutByte.mk .greeting))
      sendlen := greeting.sendlen.toNat
      sndbufsz := greeting.sendlen.toNat }) := setCb rfl
  unfold Server.greet
  dsimp only
  split
  · exact doCloseConn
  split
  · exact doCloseConn
  split
  · have sent := greeted.trans (sendPending newfd answers)
    split
    · exact sent.trans doCloseConn
    · exact sent.trans (setCb rfl)
  · exact greeted

/-- Bytes left over go to the send side. -/
theorem mergeBuffer (left : List OutByte) (memory : Bool) :
    server.KeepsInput (server.mergeBuffer fd left memory).2 := by
  unfold Server.mergeBuffer
  dsimp only
  split
  · exact refl
  split
  · split <;> exact setCb rfl
  split
  · split <;> exact setCb rfl
  · split
    · exact ⟨.fault, List.suffix_rfl⟩
    · exact setCb rfl

/-- A block that is sent leaves what was received. -/
theorem sendBlock (block : ShmBlock) (answers : OutputAnswers) :
    server.KeepsInput (server.sendBlock fd block answers).2 := by
  unfold Server.sendBlock
  dsimp only
  generalize made : (if (server.fdinfo fd).cb.sendlen = 0 ∧ block.data.length > 0 then
    server.safeTcpSendN fd block.out answers.direct else (0, server)) = sent
  have direct : server.KeepsInput sent.2 := by
    subst made
    split
    · exact safeTcpSendN _ _
    · exact refl
  split
  · exact direct.trans doCloseConn
  · exact direct.trans (mergeBuffer _ _)

/-- The output of a reply leaves what was received. -/
theorem outputTcp (block : ShmBlock) (answers : OutputAnswers) :
    server.KeepsInput (server.outputTcp fd block answers).2 := by
  unfold Server.outputTcp
  dsimp only
  split
  · exact (writePending _).trans doCloseConn
  · exact (writePending _).trans (sendBlock block answers)

/-- A datagram that is sent leaves what was received. -/
theorem sendUdpBlock (block : ShmBlock) (sendto : Bool) :
    server.KeepsInput (server.sendUdpBlock block sendto).2 := by
  unfold Server.sendUdpBlock
  split
  · exact refl
  split
  · exact refl
  · split <;> exact ⟨⟨rfl, fun _ => .inr ⟨rfl, rfl⟩⟩, List.suffix_rfl⟩

/-- A connection marked for its end receives nothing. -/
theorem markFin (type : BlockType) : server.KeepsInput (server.markFin fd type) := by
  unfold Server.markFin
  dsimp only
  split
  · exact setInfo rfl
  · exact refl

/-- A reply on its way out leaves what was received. -/
theorem scheduleOutput (block : ShmBlock) (answers : OutputAnswers) :
    server.KeepsInput (server.scheduleOutput block answers).2 := by
  unfold Server.scheduleOutput
  dsimp only
  split
  · exact refl
  split
  · exact refl
  split
  · exact (markFin block.type).trans (sendUdpBlock block _)
  · exact (markFin block.type).trans (outputTcp block answers)

/-- A reply taken from the queue leaves what was received. -/
theorem popReply (answers : OutputAnswers) : server.KeepsInput (server.popReply answers) := by
  unfold Server.popReply
  split
  · exact refl
  case h_2 mb rest _ =>
    have popped : server.KeepsInput { server with sendq := rest } :=
      ⟨⟨rfl, fun _ => .inr ⟨rfl, rfl⟩⟩, List.suffix_rfl⟩
    exact popped.trans (scheduleOutput mb answers)

end Server.KeepsInput

/-! ## Taking packets -/

/-- `run_once` made `new` of the first unread bytes of an entry and left it with `cb`. -/
structure FdInfo.Takes (info : FdInfo) (new : List ShmBlock) (cb : ConnBuf) : Prop where
  rest : cb = { info.cb with
    rcvprotlen := cb.rcvprotlen, unread := cb.unread, recvptr := cb.recvptr }
  bytes : info.cb.unread = new.flatMap ShmBlock.request ++ cb.unread
  blocks : ∀ block ∈ new, block.request ≠ [] ∧
    block = ⟨info.id, .dat, info.sk, info.acceptFd, block.request.map InByte.byte, block.request⟩

/-- The server with an entry's buffer and `recvq` changed so. -/
def Server.taken (server : Server) (fd : Nat) (new : List ShmBlock) (cb : ConnBuf) : Server :=
  { server.setCb fd cb with recvq := server.recvq ++ new }

/-- The packets at the front of `bytes`; `rcvprotlen` is the length of the first, if known. -/
def packets (handleInput : List UInt8 → Int) : Nat → Int → List UInt8 → Nat
  | 0, _, _ => 0
  | fuel + 1, rcvprotlen, bytes =>
    let length := if rcvprotlen = 0 then handleInput bytes else rcvprotlen
    if 0 < length ∧ length ≤ rcvBufMax ∧ length ≤ bytes.length then
      packets handleInput fuel 0 (bytes.drop length.toNat) + 1
    else 0

@[simp] theorem Server.setCb_setCb (other : ConnBuf) :
    (server.setCb fd cb).setCb fd other = server.setCb fd other := by
  simp [Server.setCb, Server.setInfo]

/-- Two packets taken one after the other are both behind the queue. -/
theorem Server.taken_taken {first second : List ShmBlock} {other : ConnBuf} :
    (server.taken fd first cb).taken fd second other = server.taken fd (first ++ second) other := by
  simp [Server.taken, Server.setCb, Server.setInfo]

@[simp] theorem Server.taken_same {new : List ShmBlock} :
    (server.taken fd new cb).fdinfo fd = { server.fdinfo fd with cb := cb } :=
  Server.setCb_same

/-- Nothing taken: only the buffer changes. -/
theorem Server.taken_nil : server.taken fd [] cb = server.setCb fd cb := by
  simp only [Server.taken, List.append_nil]
  rfl

/-- The pointer put back is all that changes. -/
theorem Server.restored_eq (saved : Nat) :
    (server.setCb fd cb).restoreRecvptr fd saved =
      server.taken fd [] { cb with recvptr := saved } := by
  simp [Server.restoreRecvptr, Server.taken_nil]

/-- A packet pushed: it is behind the queue and the buffer begins after it. -/
theorem Server.pushPacket_eq (same : cb.unread = (server.fdinfo fd).cb.unread) (length : Nat) :
    (server.setCb fd cb).pushPacket fd length =
      server.taken fd [(server.fdinfo fd).block length] { cb with
        rcvprotlen := 0
        unread := cb.unread.drop length
        recvptr := if (cb.unread.drop length).isEmpty then cb.recvptr else cb.recvptr + length } := by
  simp only [Server.pushPacket, Server.setCb_same, Server.setCb_setCb, FdInfo.block, same]
  rfl

/-- `handle_input` is asked for a length only when none is known yet. -/
theorem Server.parseLength_eq (handleInput : List UInt8 → Int) :
    server.parseLength handleInput fd = server.setCb fd { (server.fdinfo fd).cb with
      rcvprotlen := if (server.fdinfo fd).cb.rcvprotlen = 0 then
          handleInput ((server.fdinfo fd).cb.unread.map InByte.byte)
        else (server.fdinfo fd).cb.rcvprotlen } := by
  unfold Server.parseLength
  dsimp only
  split
  · rfl
  · simp [Server.setCb, Server.setInfo]

/-- One packet, and then what is taken after it. -/
theorem FdInfo.Takes.cons {new : List ShmBlock} {next : ConnBuf} {length : Nat}
    (nonempty : info.cb.unread.take length ≠ []) (first : cb = { info.cb with
      rcvprotlen := cb.rcvprotlen, unread := cb.unread, recvptr := cb.recvptr })
    (left : cb.unread = info.cb.unread.drop length)
    (more : FdInfo.Takes { info with cb := cb } new next) :
    info.Takes (info.block length :: new) next where
  rest := by
    have rest := more.rest
    rw [first] at rest
    exact rest
  bytes := by
    have bytes : cb.unread = _ := more.bytes
    rw [List.flatMap_cons, List.append_assoc, ← bytes, left]
    exact (List.take_append_drop length info.cb.unread).symm
  blocks := by
    intro block member
    rcases List.mem_cons.mp member with rfl | later
    · exact ⟨nonempty, rfl⟩
    · exact more.blocks block later

/-- A change of the length and the pointer takes no byte. -/
theorem FdInfo.Takes.nothing
    (rest : cb = { info.cb with rcvprotlen := cb.rcvprotlen, recvptr := cb.recvptr }) :
    info.Takes [] cb where
  rest := by
    rw [rest]
  bytes := by rw [rest]; rfl
  blocks := by simp

/-! ## One turn from `parse_again` -/

/-- The length that a turn works with. -/
def FdInfo.protlen (info : FdInfo) (handleInput : List UInt8 → Int) : Int :=
  if info.cb.rcvprotlen = 0 then handleInput (info.cb.unread.map InByte.byte)
  else info.cb.rcvprotlen

/-- The unread bytes of an entry begin with a packet. -/
def FdInfo.Begins (info : FdInfo) (handleInput : List UInt8 → Int) : Prop :=
  0 < info.protlen handleInput ∧ info.protlen handleInput ≤ rcvBufMax ∧
    info.protlen handleInput ≤ info.cb.unread.length

/-- The buffer behind a packet. -/
def FdInfo.behind (info : FdInfo) (length : Nat) : ConnBuf :=
  { info.cb with
    rcvprotlen := 0
    unread := info.cb.unread.drop length
    recvptr := if (info.cb.unread.drop length).isEmpty then info.cb.recvptr
      else info.cb.recvptr + length }

@[simp] theorem FdInfo.behind_rcvprotlen (length : Nat) : (info.behind length).rcvprotlen = 0 := rfl

@[simp] theorem FdInfo.behind_rcvbufsz (length : Nat) :
    (info.behind length).rcvbufsz = info.cb.rcvbufsz := rfl

@[simp] theorem FdInfo.behind_unread (length : Nat) :
    (info.behind length).unread = info.cb.unread.drop length := rfl

section

variable {handleInput : List UInt8 → Int} {saved fuel : Nat} {pushes : List Bool}

/-- A packet that the buffer begins with is the first one of the parse. -/
theorem packets_of_begins (begins : info.Begins handleInput) :
    packets handleInput (fuel + 1) info.cb.rcvprotlen (info.cb.unread.map InByte.byte) =
      packets handleInput fuel 0
        ((info.behind (info.protlen handleInput).toNat).unread.map InByte.byte) + 1 := by
  rw [packets, FdInfo.behind, List.map_drop]
  refine if_pos ?_
  rw [List.length_map]
  exact begins

/-- Where the bytes do not begin with a packet they stay, and the connection waits or is closed. -/
theorem Server.parseAgain_waits (waits : ¬(server.fdinfo fd).Begins handleInput) :
    (Server.parseAgain handleInput fd saved (fuel + 1) pushes server).2 =
        server.taken fd [] { (server.fdinfo fd).cb with
          rcvprotlen := (server.fdinfo fd).protlen handleInput, recvptr := saved } ∧
        ((server.fdinfo fd).protlen handleInput = 0 ∧
            (server.fdinfo fd).cb.unread.length ≠ (server.fdinfo fd).cb.rcvbufsz ∨
          (server.fdinfo fd).cb.unread.length < (server.fdinfo fd).protlen handleInput ∧
            (server.fdinfo fd).protlen handleInput ≤ rcvBufMax) ∨
      (Server.parseAgain handleInput fd saved (fuel + 1) pushes server).2 =
        (server.taken fd [] { (server.fdinfo fd).cb with
          rcvprotlen := (server.fdinfo fd).protlen handleInput, recvptr := saved }).doCloseConn
            fd := by
  unfold Server.parseAgain
  simp only [Server.parseLength_eq, Server.setCb_same, Server.restored_eq]
  unfold FdInfo.Begins at waits
  generalize named : (server.fdinfo fd).protlen handleInput = length at waits ⊢
  rw [FdInfo.protlen] at named
  rw [named]
  split
  case isTrue invalid => exact .inr rfl
  case isFalse valid =>
  split
  case isTrue unknown =>
    split
    case isTrue => exact .inr rfl
    case isFalse apart => exact .inl ⟨rfl, .inl ⟨unknown, apart⟩⟩
  case isFalse positive =>
  split
  case isTrue complete => exact absurd ⟨by omega, by omega, complete⟩ waits
  case isFalse short => exact .inl ⟨rfl, .inr ⟨by omega, by omega⟩⟩

/-- A packet is pushed, and the turns go on behind it. -/
theorem Server.parseAgain_pushed (begins : (server.fdinfo fd).Begins handleInput) :
    (Server.parseAgain handleInput fd saved (fuel + 1) (true :: pushes) server).2 =
      let length := ((server.fdinfo fd).protlen handleInput).toNat
      let pushed := server.taken fd [(server.fdinfo fd).block length]
        ((server.fdinfo fd).behind length)
      if ((server.fdinfo fd).behind length).unread = [] then
        server.taken fd [(server.fdinfo fd).block length]
          { (server.fdinfo fd).behind length with recvptr := saved }
      else (Server.parseAgain handleInput fd saved fuel pushes pushed).2 := by
  obtain ⟨positive, within, complete⟩ := begins
  have pushed (length : Nat) : (server.setCb fd { (server.fdinfo fd).cb with
      rcvprotlen := (server.fdinfo fd).protlen handleInput }).pushPacket fd length =
        server.taken fd [(server.fdinfo fd).block length] ((server.fdinfo fd).behind length) :=
    Server.pushPacket_eq (by rfl) length
  rw [Server.parseAgain, Server.parseLength_eq]
  simp only [Server.setCb_same]
  rw [← FdInfo.protlen, if_neg (by omega), if_neg (by omega), if_pos complete, pushed,
    apply_ite Prod.snd]
  simp [Server.restoreRecvptr, Server.taken, Server.setCb, Server.setInfo]

/-- Without room for a packet the bytes stay. -/
theorem Server.parseAgain_full (begins : (server.fdinfo fd).Begins handleInput)
    (full : pushes.head? ≠ some true) :
    (Server.parseAgain handleInput fd saved (fuel + 1) pushes server).2 =
      server.taken fd [] { (server.fdinfo fd).cb with
        rcvprotlen := (server.fdinfo fd).protlen handleInput } := by
  obtain ⟨positive, within, complete⟩ := begins
  unfold Server.parseAgain
  rw [Server.parseLength_eq]
  simp only [Server.setCb_same]
  rw [← FdInfo.protlen, if_neg (by omega), if_neg (by omega), if_pos complete, Server.taken_nil]
  split
  case h_1 => exact absurd rfl full
  case h_2 => rfl

/-- One packet, and then what is taken behind it. -/
theorem FdInfo.Begins.takes {new : List ShmBlock} {next : ConnBuf}
    (begins : info.Begins handleInput) (more : FdInfo.Takes
      { info with cb := info.behind (info.protlen handleInput).toNat } new next) :
    info.Takes (info.block (info.protlen handleInput).toNat :: new) next := by
  obtain ⟨positive, -, complete⟩ := begins
  refine .cons (List.ne_nil_of_length_pos ?_) rfl rfl more
  rw [List.length_take]
  omega

/-- There is less to read behind a packet. -/
theorem FdInfo.Begins.length_behind_lt (begins : info.Begins handleInput) :
    (info.behind (info.protlen handleInput).toNat).unread.length < info.cb.unread.length := by
  obtain ⟨positive, -, complete⟩ := begins
  rw [FdInfo.behind, List.length_drop]
  omega

end

/-- `run_once` from `parse_again` makes blocks of the first bytes, and leaves the connection
open or closes it. `recvptr` is restored, unless a block after the first found no room. -/
theorem Server.parseAgain_eq (handleInput : List UInt8 → Int) (saved fuel : Nat)
    (pushes : List Bool) (server : Server) (nonempty : (server.fdinfo fd).cb.unread ≠ [])
    (enough : (server.fdinfo fd).cb.unread.length ≤ fuel) :
    ∃ new cb, (server.fdinfo fd).Takes new cb ∧
      ((Server.parseAgain handleInput fd saved fuel pushes server).2 = server.taken fd new cb ∨
        (Server.parseAgain handleInput fd saved fuel pushes server).2 =
          (server.taken fd new cb).doCloseConn fd) ∧
      ((pushes.head? ≠ some true ∧ (server.fdinfo fd).cb.recvptr = saved) ∨
        packets handleInput fuel (server.fdinfo fd).cb.rcvprotlen
          ((server.fdinfo fd).cb.unread.map InByte.byte) ≤ (pushes.takeWhile id).length →
        cb.recvptr = saved) := by
  induction fuel generalizing pushes server with
  | zero => exact absurd (List.length_eq_zero_iff.mp (Nat.le_zero.mp enough)) nonempty
  | succ fuel ih =>
    by_cases begins : (server.fdinfo fd).Begins handleInput
    case neg =>
      obtain ⟨stays, -⟩ | closed := @Server.parseAgain_waits server fd handleInput saved fuel
        pushes begins
      · exact ⟨[], _, .nothing rfl, .inl stays, fun _ => rfl⟩
      · exact ⟨[], _, .nothing rfl, .inr closed, fun _ => rfl⟩
    case pos =>
    rw [packets_of_begins begins]
    by_cases full : pushes.head? ≠ some true
    · refine ⟨[], _, .nothing rfl, .inl (Server.parseAgain_full begins full), ?_⟩
      rintro (⟨-, restored⟩ | enough)
      · exact restored
      · cases pushes with
        | nil => simp at enough
        | cons room pushes =>
          cases room with
          | false => simp at enough
          | true => exact absurd rfl full
    · cases pushes with
      | nil => exact absurd (by simp) full
      | cons room pushes =>
      obtain rfl : room = true := by simpa using full
      rw [Server.parseAgain_pushed begins]
      dsimp only
      split
      case isTrue empty =>
        exact ⟨_, _, begins.takes (.nothing rfl), .inl rfl, fun _ => rfl⟩
      case isFalse more =>
        have shorter := begins.length_behind_lt
        obtain ⟨new, next, takes, result, ends⟩ := ih pushes
          (server.taken fd [_] ((server.fdinfo fd).behind _))
          (by rw [Server.taken_same]; exact more) (by rw [Server.taken_same]; dsimp only; omega)
        rw [Server.taken_same] at takes ends
        rw [Server.taken_taken] at result
        refine ⟨_, next, begins.takes takes, result, fun together => ends (.inr ?_)⟩
        simpa using together

/-! ## Reading -/

/-- Making room changes the pointer and the size of the buffer and no byte. -/
theorem ConnBuf.room_spec {memory : Bool} {roomy : ConnBuf}
    (found : cb.room recvBuffer memory = some roomy) :
    roomy = { cb with rcvbufsz := roomy.rcvbufsz, recvptr := roomy.recvptr } ∧
      cb.rcvbufsz ≤ roomy.rcvbufsz ∧ (cb.recvptr = 0 → roomy.recvptr = 0) := by
  unfold ConnBuf.room at found
  split at found
  case isTrue unallocated =>
    split at found
    · cases found
      exact ⟨rfl, by simp [unallocated], fun _ => rfl⟩
    · cases found
  case isFalse =>
    split at found
    case isTrue small =>
      split at found
      · cases found
        exact ⟨rfl, by dsimp only; omega, id⟩
      · cases found
    case isFalse =>
      cases found
      exact ⟨rfl, Nat.le_refl _, id⟩

/-- What arrives comes from the peer of the connection. -/
theorem Server.arriving_peers {answers : NetAnswers} {b : InByte}
    (member : b ∈ server.arriving recvBuffer fd answers) : b.From (server.socket fd) := by
  unfold Server.arriving at member
  split at member
  case h_1 conn cb bytes refers _ _ =>
    obtain ⟨byte, -, rfl⟩ := List.mem_map.mp member
    exact ⟨conn, refers, rfl⟩
  case h_2 => cases member

/-- `do_read_conn` puts what arrives behind the unread bytes. -/
theorem Server.doReadConn_eq (server : Server) (recvBuffer fd : Nat) (answers : NetAnswers) :
    (server.doReadConn recvBuffer fd answers = (-1, server) ∧
        server.arriving recvBuffer fd answers = []) ∨
      ∃ cb, (server.fdinfo fd).cb.room recvBuffer answers.memory = some cb ∧
        (server.doReadConn recvBuffer fd answers).2 = server.setCb fd { cb with
          unread := cb.unread ++ server.arriving recvBuffer fd answers } ∧
        cb.unread.length + (server.arriving recvBuffer fd answers).length ≤
          max cb.unread.length cb.rcvbufsz ∧
        ((server.doReadConn recvBuffer fd answers).1 > 0 →
          server.arriving recvBuffer fd answers ≠ []) := by
  unfold Server.doReadConn Server.arriving
  cases found : (server.fdinfo fd).cb.room recvBuffer answers.memory with
  | none =>
    exact .inl ⟨rfl, by cases server.socket fd <;> rfl⟩
  | some cb =>
    refine .inr ⟨cb, rfl, ?_⟩
    cases refers : server.socket fd with
    | none => simp
    | some conn =>
      cases recv : answers.recv with
      | data bytes =>
        refine ⟨rfl, ?_, ?_⟩
        · simp only [List.length_map, List.length_take]
          omega
        · intro positive nothing
          dsimp only at positive nothing
          rw [List.map_eq_nil_iff.mp nothing] at positive
          exact absurd positive (by decide)
      | closed => simp
      | error => simp

/-! ## What a buffer holds -/

/-- Those of some bytes that came in on a connection. -/
def bytesOf (k : Nat) (bytes : List InByte) : List InByte :=
  bytes.filter (·.peer = ⟨k, none⟩)

/-- The unread bytes of a connection start at the base of its buffer, fit in it, and are those
received that no request was made of. -/
structure ConnBuf.Holds (cb : ConnBuf) (k : Nat) (received requested : List InByte) : Prop where
  base : cb.recvptr = 0
  fits : cb.unread.length ≤ cb.rcvbufsz
  exactly : bytesOf k received = bytesOf k requested ++ cb.unread

structure Server.Accounted (server : Server) (received requested : List InByte) : Prop where
  numbered : server.Numbered
  known : ∀ b ∈ received ++ requested, b.peer.socket < server.sockets
  datagram : ∀ fd, (server.fdinfo fd).flag.udp = true → (server.fdinfo fd).cb.unread = []
  buffers : ∀ fd k, server.socket fd = some k →
    (server.fdinfo fd).cb.Holds k received requested

variable {received requested : List InByte}

@[simp] theorem bytesOf_append (first second : List InByte) :
    bytesOf k (first ++ second) = bytesOf k first ++ bytesOf k second :=
  List.filter_append first second

/-- The bytes of one peer are its own. -/
theorem bytesOf_same {bytes : List InByte} (all : ∀ b ∈ bytes, b.peer = ⟨k, none⟩) :
    bytesOf k bytes = bytes :=
  List.filter_eq_self.mpr fun b member => decide_eq_true (all b member)

/-- Bytes of others are not of this peer. -/
theorem bytesOf_nil {bytes : List InByte} (none : ∀ b ∈ bytes, b.peer ≠ ⟨k, none⟩) :
    bytesOf k bytes = [] :=
  List.filter_eq_nil_iff.mpr fun b member => by simpa using none b member

/-- Unread bytes came in on their connection. -/
theorem ConnBuf.Holds.peers (holds : cb.Holds k received requested) :
    ∀ b ∈ cb.unread, b.peer = ⟨k, none⟩ := by
  intro b member
  have among : b ∈ bytesOf k received := by
    rw [holds.exactly]
    exact List.mem_append_right _ member
  exact of_decide_eq_true (List.mem_filter.mp among).2

/-- The input of a connection fixes what a read looks at. -/
theorem FdInfo.input_eq {other : FdInfo} (same : other.input = info.input) :
    other.flag.udp = info.flag.udp ∧ other.cb.unread = info.cb.unread ∧
      other.cb.recvptr = info.cb.recvptr ∧ other.cb.rcvbufsz = info.cb.rcvbufsz :=
  ⟨congrArg (·.flag.udp) same, congrArg (·.cb.unread) same, congrArg (·.cb.recvptr) same,
    congrArg (·.cb.rcvbufsz) same⟩

namespace Server.Accounted

/-- Steps that receive nothing keep the account. -/
theorem keeps (accounted : server.Accounted received requested)
    (kept : server.KeepsInput after) : after.Accounted received requested where
  numbered := accounted.numbered.shrink kept.toKeeps
  known b member := kept.sockets ▸ accounted.known b member
  datagram fd udp := by
    rcases kept.entry fd with ⟨-, same⟩ | ⟨-, same⟩
    · exact (FdInfo.input_eq same).2.1
    · obtain ⟨flag, unread, -, -⟩ := FdInfo.input_eq same
      exact unread.trans (accounted.datagram fd (flag.symm.trans udp))
  buffers fd k refers := by
    obtain ⟨before, same⟩ := kept.was refers
    obtain ⟨-, unread, recvptr, rcvbufsz⟩ := FdInfo.input_eq same
    obtain ⟨base, fits, exactly⟩ := accounted.buffers fd k before
    exact ⟨recvptr.trans base, by rw [unread, rcvbufsz]; exact fits, by rw [unread]; exact exactly⟩

/-- Nothing came in yet on a socket that is opened. -/
theorem added (accounted : server.Accounted received requested) (fd : Nat) (flag : Flag)
    (remote : Addr) (timeout : Int) :
    ((server.openSocket fd).doAddConn fd flag remote timeout).Accounted received requested where
  numbered := accounted.numbered.added flag remote timeout
  known b member := Nat.lt_succ_of_lt (accounted.known b member)
  datagram other udp := by
    by_cases here : other = fd
    · subst here
      simp [Server.doAddConn, FdInfo.zero, ConnBuf.zero]
    · simpa [Server.doAddConn, Server.openSocket, Server.setInfo, here] using
        accounted.datagram other (by
          simpa [Server.doAddConn, Server.openSocket, Server.setInfo, here] using udp)
  buffers other k refers := by
    change Function.update server.socket fd (some server.sockets) other = some k at refers
    by_cases here : other = fd
    · subst here
      obtain rfl : server.sockets = k := by simpa using refers
      have fresh : ∀ b ∈ received ++ requested, b.peer ≠ ⟨server.sockets, none⟩ := by
        intro b member same
        exact absurd (accounted.known b member) (by simp [same])
      have received : bytesOf server.sockets received = [] :=
        bytesOf_nil fun b member => fresh b (List.mem_append_left _ member)
      have requested : bytesOf server.sockets requested = [] :=
        bytesOf_nil fun b member => fresh b (List.mem_append_right _ member)
      refine ⟨?_, ?_, ?_⟩ <;>
        simp [Server.doAddConn, FdInfo.zero, ConnBuf.zero, received, requested]
    · simpa [Server.doAddConn, Server.openSocket, Server.setInfo, here] using
        accounted.buffers other k (by simpa [here] using refers)

/-- Bytes come in on one socket, and requests are made of its bytes. -/
theorem taken (accounted : server.Accounted received requested) {arrived : List InByte}
    {new : List ShmBlock} (datagram : (server.fdinfo fd).flag.udp = true → cb.unread = [])
    (peers : ∀ b ∈ arrived ++ new.flatMap ShmBlock.request,
      server.socket fd = some b.peer.socket)
    (holds : ∀ k, server.socket fd = some k →
      cb.Holds k (received ++ arrived) (requested ++ new.flatMap ShmBlock.request)) :
    (server.taken fd new cb).Accounted (received ++ arrived)
      (requested ++ new.flatMap ShmBlock.request) where
  numbered := ⟨accounted.numbered.below, accounted.numbered.single⟩
  known b member := by
    have cases : b ∈ received ++ requested ∨ b ∈ arrived ++ new.flatMap ShmBlock.request := by
      simp only [List.mem_append] at member ⊢
      tauto
    rcases cases with old | fresh
    · exact accounted.known b old
    · exact accounted.numbered.below fd _ (peers b fresh)
  datagram other udp := by
    by_cases here : other = fd
    · subst here
      rw [Server.taken_same] at udp ⊢
      exact datagram udp
    · simpa [Server.taken, Server.setCb, Server.setInfo, here] using accounted.datagram other (by
        simpa [Server.taken, Server.setCb, Server.setInfo, here] using udp)
  buffers other k also := by
    by_cases here : other = fd
    · subst here
      simpa using holds k also
    · have foreign : ∀ b ∈ arrived ++ new.flatMap ShmBlock.request, b.peer ≠ ⟨k, none⟩ := by
        intro b member same
        have refers : server.socket fd = some k := by simpa [same] using peers b member
        exact here (accounted.numbered.single other fd k also refers)
      have first : bytesOf k arrived = [] :=
        bytesOf_nil fun b member => foreign b (List.mem_append_left _ member)
      have second : bytesOf k (new.flatMap ShmBlock.request) = [] :=
        bytesOf_nil fun b member => foreign b (List.mem_append_right _ member)
      obtain ⟨base, fits, exactly⟩ := accounted.buffers other k also
      refine ⟨?_, ?_, ?_⟩ <;>
        simp [Server.taken, Server.setCb, Server.setInfo, here, base, fits, exactly, first, second]

/-- `do_read_conn` -/
theorem doReadConn (accounted : server.Accounted received requested) (recvBuffer : Nat)
    (answers : NetAnswers) (tcp : (server.fdinfo fd).flag.udp = false) :
    (server.doReadConn recvBuffer fd answers).2.Accounted
      (received ++ server.arriving recvBuffer fd answers) requested := by
  rcases server.doReadConn_eq recvBuffer fd answers with
    ⟨failed, nothing⟩ | ⟨cb, found, read, fits, -⟩
  · rw [failed, nothing, List.append_nil]
    exact accounted
  obtain ⟨rest, grown, base⟩ := ConnBuf.room_spec found
  have unread : cb.unread = (server.fdinfo fd).cb.unread := by rw [rest]
  rw [read, ← Server.taken_nil, ← List.append_nil requested]
  refine accounted.taken ?_ ?_ ?_
  · intro udp
    cases tcp.symm.trans udp
  · intro b member
    obtain ⟨k, refers, peer⟩ := Server.arriving_peers (by simpa using member)
    rw [refers, peer]
  · intro k refers
    have before := accounted.buffers fd k refers
    have peers : ∀ b ∈ server.arriving recvBuffer fd answers, b.peer = ⟨k, none⟩ := by
      intro b member
      obtain ⟨conn, same, peer⟩ := Server.arriving_peers member
      obtain rfl : k = conn := Option.some.inj (refers.symm.trans same)
      exact peer
    refine ⟨base before.base, ?_, ?_⟩
    · have room : cb.unread.length ≤ cb.rcvbufsz := unread ▸ Nat.le_trans before.fits grown
      rw [List.length_append]
      exact Nat.le_trans fits (Nat.max_le.mpr ⟨room, Nat.le_refl _⟩)
    · rw [bytesOf_append, bytesOf_same peers, before.exactly, unread]
      simp

/-- `run_once` from `parse_again` -/
theorem parseAgain (accounted : server.Accounted received requested) (fd conn : Nat)
    (tcp : (server.fdinfo fd).flag.udp = false) (refers : server.socket fd = some conn)
    (handleInput : List UInt8 → Int) (fuel : Nat)
    (pushes : List Bool) (nonempty : (server.fdinfo fd).cb.unread ≠ [])
    (enough : (server.fdinfo fd).cb.unread.length ≤ fuel) (together : pushes.head? ≠ some true ∨
      packets handleInput fuel (server.fdinfo fd).cb.rcvprotlen
        ((server.fdinfo fd).cb.unread.map InByte.byte) ≤ (pushes.takeWhile id).length) :
    ∃ new : List ShmBlock,
      (Server.parseAgain handleInput fd (server.fdinfo fd).cb.recvptr fuel pushes server).2.recvq =
        server.recvq ++ new ∧
      (Server.parseAgain handleInput fd (server.fdinfo fd).cb.recvptr fuel pushes
        server).2.Accounted received (requested ++ new.flatMap ShmBlock.request) := by
  obtain ⟨new, cb, takes, result, ends⟩ :=
    Server.parseAgain_eq handleInput (server.fdinfo fd).cb.recvptr fuel pushes server nonempty
      enough
  have before := accounted.buffers fd conn refers
  have base : cb.recvptr = 0 :=
    (ends (together.imp_left fun first => ⟨first, rfl⟩)).trans before.base
  have peers : ∀ b ∈ new.flatMap ShmBlock.request, b.peer = ⟨conn, none⟩ := by
    intro b member
    exact before.peers b (takes.bytes ▸ List.mem_append_left _ member)
  have taken : (server.taken fd new cb).Accounted (received ++ [])
      (requested ++ new.flatMap ShmBlock.request) := by
    refine accounted.taken ?_ ?_ ?_
    · intro udp
      cases tcp.symm.trans udp
    · intro b member
      rw [refers, peers b (by simpa using member)]
    intro k also
    obtain rfl : conn = k := Option.some.inj (refers.symm.trans also)
    refine ⟨base, ?_, ?_⟩
    · rw [takes.rest]
      refine Nat.le_trans ?_ before.fits
      rw [takes.bytes, List.length_append]
      exact Nat.le_add_left _ _
    · rw [List.append_nil, bytesOf_append, bytesOf_same peers, List.append_assoc, ← takes.bytes]
      exact before.exactly
  rw [List.append_nil] at taken
  refine ⟨new, ?_, ?_⟩
  · rcases result with open' | closed
    · rw [open']; rfl
    · rw [closed, Server.doCloseConn_recvq]
      rfl
  · rcases result with open' | closed
    · rw [open']
      exact taken
    · rw [closed]
      exact taken.keeps .doCloseConn

/-- A new connection starts with an empty account. -/
theorem acceptConn (accounted : server.Accounted received requested) (fd : Nat)
    (answers : NetAnswers) :
    (server.acceptConn fd answers).2.recvq <:+ server.recvq ∧
      (server.acceptConn fd answers).2.Accounted received requested := by
  unfold Server.acceptConn Server.doOpenConn
  cases answers.accepted with
  | none => exact ⟨List.suffix_rfl, accounted⟩
  | some accepted =>
    obtain ⟨newfd, remote⟩ := accepted
    have opened : (((server.openSocket newfd).doAddConn newfd .zero remote
        (server.fdinfo fd).timeout).setInfo newfd { (((server.openSocket newfd).doAddConn newfd
          .zero remote (server.fdinfo fd).timeout).fdinfo newfd) with acceptFd := fd }).Accounted
        received requested := (accounted.added newfd .zero remote _).keeps (.setInfo rfl)
    cases answers.greeting with
    | none => exact ⟨List.suffix_rfl, opened⟩
    | some greeting =>
      exact ⟨(Server.KeepsInput.greet fd newfd greeting answers.sends).recvq,
        opened.keeps (.greet fd newfd greeting answers.sends)⟩

/-- Datagrams stay out of the bytes of connections. -/
theorem datagrams (accounted : server.Accounted received requested)
    (udp : (server.fdinfo fd).flag.udp = true) {new : List ShmBlock} (empty : cb.unread = [])
    (base : cb.recvptr = (server.fdinfo fd).cb.recvptr)
    (peers : ∀ b ∈ new.flatMap ShmBlock.request, ∃ conn remote,
      server.socket fd = some conn ∧ b.peer = ⟨conn, some remote⟩) :
    (server.taken fd new cb).Accounted received (requested ++ new.flatMap ShmBlock.request) := by
  rw [← List.append_nil received]
  refine accounted.taken (fun _ => empty) ?_ ?_
  · intro b member
    obtain ⟨conn, remote, refers, peer⟩ := peers b (by simpa using member)
    rw [refers, peer]
  · intro k refers
    have before := accounted.buffers fd k refers
    have none : bytesOf k (new.flatMap ShmBlock.request) = [] := by
      refine bytesOf_nil ?_
      intro b member
      obtain ⟨conn, remote, -, peer⟩ := peers b member
      simp [peer]
    refine ⟨base.trans before.base, by simp [empty], ?_⟩
    have exactly := before.exactly
    rw [accounted.datagram fd udp] at exactly
    simpa [none, empty] using exactly

/-- A datagram goes into the queue as a whole, past every buffer. -/
theorem udpRecv (accounted : server.Accounted received requested) (recvBuffer : Nat)
    (answers : NetAnswers) (udp : (server.fdinfo fd).flag.udp = true) :
    ∃ new, (server.udpRecv recvBuffer fd answers).2.recvq = server.recvq ++ new ∧
      (server.udpRecv recvBuffer fd answers).2.Accounted received
        (requested ++ new.flatMap ShmBlock.request) := by
  have unread := accounted.datagram fd udp
  unfold Server.udpRecv
  dsimp only
  split
  · exact ⟨[], by simp, by simpa using accounted⟩
  generalize grown : (if (server.fdinfo fd).cb.rcvbufsz = 0 then
    { (server.fdinfo fd).cb with rcvbufsz := recvBuffer } else (server.fdinfo fd).cb) = cb
  have kept : cb.unread = [] ∧ cb.recvptr = (server.fdinfo fd).cb.recvptr := by
    subst grown
    split <;> exact ⟨unread, rfl⟩
  have refused : ∃ new : List ShmBlock, (server.setCb fd cb).recvq = server.recvq ++ new ∧
      (server.setCb fd cb).Accounted received (requested ++ new.flatMap ShmBlock.request) := by
    rw [← Server.taken_nil]
    exact ⟨[], rfl, accounted.datagrams udp kept.1 kept.2 (by simp)⟩
  split
  case h_1 conn remote bytes refers _ =>
    split
    · exact refused
    split
    · exact refused
    split
    · refine ⟨[_], rfl, ?_⟩
      rw [Server.setCb_setCb]
      refine accounted.datagrams udp rfl kept.2 ?_
      intro b member
      obtain ⟨byte, -, rfl⟩ : ∃ byte ∈ bytes, InByte.mk ⟨conn, some remote⟩ byte = b := by
        simpa using member
      exact ⟨conn, remote, refers, rfl⟩
    · exact refused
  case h_2 => exact refused

end Server.Accounted

/-! ## Runs -/

/-- When bytes come in, every packet they complete finds room on `recvq`, or the first does
not. -/
def Event.Together (recvBuffer : Nat) (server : Server) : Event → Prop
  | .runOnce fd answers =>
    let cb := (server.fdinfo fd).cb
    let arrived := (Event.runOnce fd answers).received recvBuffer server
    let bytes := cb.unread ++ arrived
    arrived ≠ [] → answers.pushes.head? ≠ some true ∨
      packets answers.handleInput bytes.length cb.rcvprotlen (bytes.map InByte.byte) ≤
        (answers.pushes.takeWhile id).length
  | _ => True

/-- What the blocks that were pushed to `recvq` were made of. -/
def Server.pushed (server after : Server) : List InByte :=
  (after.recvq.drop server.recvq.length).flatMap ShmBlock.request

/-- The requests pushed are those behind the old queue. -/
theorem Server.pushed_eq {new : List ShmBlock} (more : after.recvq = server.recvq ++ new) :
    server.pushed after = new.flatMap ShmBlock.request := by
  simp [Server.pushed, more]

/-- Where the queue only shrinks nothing was pushed. -/
theorem Server.pushed_nil (fewer : after.recvq <:+ server.recvq) : server.pushed after = [] := by
  simp [Server.pushed, List.drop_eq_nil_of_le fewer.length_le]

namespace Server.Accounted

/-- Nothing pushed, nothing added to the requests. -/
theorem unpushed (accounted : after.Accounted received requested)
    (fewer : after.recvq <:+ server.recvq) :
    after.Accounted received (requested ++ server.pushed after) := by
  rw [Server.pushed_nil fewer, List.append_nil]
  exact accounted

/-- `run_once` on a connection. -/
theorem runConn (accounted : server.Accounted received requested) (answers : NetAnswers)
    (tcp : (server.fdinfo fd).flag.udp = false) (listen : (server.fdinfo fd).flag.listen = false)
    (together : (Event.runOnce fd answers).Together recvBuffer server) :
    (server.runOnce recvBuffer fd answers).2.Accounted
      (received ++ server.arriving recvBuffer fd answers)
      (requested ++ server.pushed (server.runOnce recvBuffer fd answers).2) := by
  have read := accounted.doReadConn recvBuffer answers tcp
  simp only [Server.runOnce, tcp, listen, Bool.false_eq_true, if_false]
  rcases server.doReadConn_eq recvBuffer fd answers with
    ⟨failed, nothing⟩ | ⟨cb, found, same, -, some⟩
  · simpa [failed, nothing] using (accounted.keeps .doCloseConn).unpushed (by simp)
  split
  · refine (read.keeps .doCloseConn).unpushed ?_
    rw [Server.doCloseConn_recvq, same]
    exact List.suffix_rfl
  case _ positive =>
    replace some := some (Int.not_le.mp positive)
    obtain ⟨rest, -, -⟩ := ConnBuf.room_spec found
    have unread : cb.unread = (server.fdinfo fd).cb.unread := by rw [rest]
    have protlen : cb.rcvprotlen = (server.fdinfo fd).cb.rcvprotlen := by rw [rest]
    obtain ⟨b, member⟩ := List.exists_mem_of_ne_nil _ some
    obtain ⟨conn, refers, -⟩ := Server.arriving_peers member
    have arrived : (Event.runOnce fd answers).received recvBuffer server =
        server.arriving recvBuffer fd answers := by
      simp [Event.received, tcp, listen]
    simp only [Event.Together, arrived, ← unread, ← protlen] at together
    replace together := together some
    rw [same] at read ⊢
    obtain ⟨new, more, parsed⟩ := read.parseAgain fd conn (by simpa using tcp) refers
      answers.handleInput _ answers.pushes (by simp [some]) (Nat.le_refl _)
      (by simpa using together)
    have made : server.pushed _ = _ := Server.pushed_eq more
    rw [made]
    exact parsed

/-- A turn that reads accounts for the bytes received and the packets pushed. -/
theorem runOnce (accounted : server.Accounted received requested) (answers : NetAnswers)
    (together : (Event.runOnce fd answers).Together recvBuffer server) :
    (server.runOnce recvBuffer fd answers).2.Accounted
      (received ++ (Event.runOnce fd answers).received recvBuffer server)
      (requested ++ server.pushed (server.runOnce recvBuffer fd answers).2) := by
  cases udp : (server.fdinfo fd).flag.udp with
  | true =>
    obtain ⟨new, more, pushed⟩ := accounted.udpRecv recvBuffer answers udp
    simpa [Server.runOnce, Event.received, udp, Server.pushed_eq more] using pushed
  | false =>
    cases listen : (server.fdinfo fd).flag.listen with
    | true =>
      obtain ⟨fewer, accepted⟩ := accounted.acceptConn fd answers
      simpa [Server.runOnce, Event.received, udp, listen] using accepted.unpushed fewer
    | false =>
      simpa [Event.received, udp, listen] using accounted.runConn answers udp listen together

end Server.Accounted

/-- The buffers of all connections hold what was received and not yet pushed. -/
def History.Accounted (history : History) : Prop :=
  history.server.Accounted history.received (history.requests.flatMap ShmBlock.request)

/-- The account of the history from that of the server. -/
theorem History.Accounted.stepped {event : Event}
    (accounted : (ServerBench.step recvBuffer history.server event).Accounted
      (history.received ++ event.received recvBuffer history.server)
      (history.requests.flatMap ShmBlock.request ++
        history.server.pushed (ServerBench.step recvBuffer history.server event))) :
    (history.step recvBuffer event).Accounted := by
  simpa [History.Accounted, History.step, Server.pushed] using accounted

/-- Silent steps that keep the input keep the account of the history. -/
theorem History.Accounted.keeps {event : Event} (accounted : history.Accounted)
    (silent : event.received recvBuffer history.server = [])
    (kept : history.server.KeepsInput (ServerBench.step recvBuffer history.server event)) :
    (history.step recvBuffer event).Accounted := by
  refine .stepped ?_
  rw [silent, List.append_nil]
  exact (Server.Accounted.keeps accounted kept).unpushed kept.recvq

/-- Queues may shrink, blocks may go to a worker. -/
theorem Server.KeepsInput.queues {recvq workers sendq : List ShmBlock}
    (fewer : recvq <:+ server.recvq) : server.KeepsInput
      { server with recvq := recvq, workers := workers, sendq := sendq } :=
  ⟨⟨rfl, fun _ => .inr ⟨rfl, rfl⟩⟩, fewer⟩

/-- Every step keeps the account. -/
theorem History.Accounted.step (accounted : history.Accounted) {event : Event}
    (together : event.Together recvBuffer history.server) :
    (history.step recvBuffer event).Accounted := by
  cases event with
  | netStart fd flag timeout =>
    refine .stepped ?_
    have silent : (Event.netStart fd flag timeout).received recvBuffer history.server = [] := rfl
    rw [silent, List.append_nil]
    exact (Server.Accounted.added accounted fd flag ⟨0, 0⟩ timeout).unpushed List.suffix_rfl
  | runOnce fd answers => exact .stepped (Server.Accounted.runOnce accounted answers together)
  | hangup fd => exact accounted.keeps rfl .doCloseConn
  | sweep fd answers expired => exact accounted.keeps rfl (.sweep answers expired)
  | pollWrite fd answers => exact accounted.keeps rfl (.pollWrite answers)
  | check fd expired => exact accounted.keeps rfl (.doCheckConn expired)
  | popRequest => exact accounted.keeps rfl (.queues (List.drop_suffix _ _))
  | pushReply index processed pushed => exact accounted.keeps rfl (.queues List.suffix_rfl)
  | dropRequest index => exact accounted.keeps rfl (.queues List.suffix_rfl)
  | popReply answers => exact accounted.keeps rfl (.popReply answers)

/-- Nothing received and nothing requested at the start. -/
theorem History.initial_accounted : History.initial.Accounted where
  numbered := ⟨by simp [History.initial, Server.initial], by simp [History.initial, Server.initial]⟩
  known := by simp [History.initial]
  datagram _ _ := rfl
  buffers := by simp [History.initial, Server.initial]

/-- In a run in which no batch is cut short after its first packet, `recvptr` of every
connection points at the base of its buffer, and the buffer holds no more bytes than it has
room for, which are those received on the connection that no packet was made of. -/
theorem recv_buffer_holds (recvBuffer : Nat)
    (run : Reaches (History.step recvBuffer) (fun history event =>
      event.Allowed history.server ∧ event.Together recvBuffer history.server) .initial history)
    (refers : history.server.socket fd = some k) :
    (history.server.fdinfo fd).cb.Holds k history.received
      (history.requests.flatMap ShmBlock.request) := by
  have accounted : history.Accounted := by
    apply run.invariant
    · exact History.initial_accounted
    · rintro history event accounted ⟨-, together⟩
      exact accounted.step together
  exact accounted.buffers fd k refers

/-- A connection on descriptor 5 that receives some bytes when `recvq` has room for one
packet; packets are two bytes long. -/
def roomForOne (bytes : List UInt8) : History :=
  [.netStart 3 listening 0, acceptAt 5,
    .runOnce 5 ⟨true, none, none, [], .data bytes, none, fun _ => 2, [true]⟩].foldl
      (History.step 4096) .initial

/-- Three bytes received with one-byte packets and a buffer of one byte. -/
theorem recv_buffer_holds_three :
    ((roomForOne [7, 8, 9]).server.fdinfo 5).cb.Holds 1 (roomForOne [7, 8, 9]).received
      ((roomForOne [7, 8, 9]).requests.flatMap ShmBlock.request) := by
  refine recv_buffer_holds 4096 ?_ rfl
  refine .call (.call (.call .refl ⟨rfl, trivial⟩) ⟨?_, ?_⟩) ⟨?_, ?_⟩
  · rintro _ ⟨⟩
    exact ⟨by decide, rfl⟩
  · exact fun some => absurd rfl some
  · nofun
  · exact fun _ => .inr (by decide)

/-- The second packet of a batch finds no room, and `recvptr` stays where the packet begins. -/
theorem recv_buffer_moved :
    Reaches (History.step 4096) (fun history event => event.Allowed history.server) .initial
        (roomForOne [7, 8, 9, 10]) ∧
      (roomForOne [7, 8, 9, 10]).server.socket 5 = some 1 ∧
      ((roomForOne [7, 8, 9, 10]).server.fdinfo 5).cb.recvptr = 2 ∧
      ¬((roomForOne [7, 8, 9, 10]).server.fdinfo 5).cb.Holds 1
        (roomForOne [7, 8, 9, 10]).received
        ((roomForOne [7, 8, 9, 10]).requests.flatMap ShmBlock.request) := by
  have moved : ((roomForOne [7, 8, 9, 10]).server.fdinfo 5).cb.recvptr = 2 := rfl
  refine ⟨.call (.call (.call .refl rfl) ?_) ?_, rfl, moved, ?_⟩
  · rintro _ ⟨⟩
    exact ⟨by decide, rfl⟩
  · nofun
  · intro holds
    cases moved.symm.trans holds.base

end Taomee.ServerBench
