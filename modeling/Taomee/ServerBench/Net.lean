import Mathlib.Logic.Function.Basic

/-!
# serverbench: connections and their blocks

The connection process keeps one `fdinfo` entry for each descriptor. `do_add_conn` gives an
entry the next number of `make_id`, `run_once` puts complete requests on `recvq`, workers turn
them into replies on `sendq`, and `schedule_output` writes a reply to the descriptor that its
`skinfo` names if the entry there still has the number the block carries.

The kernel's side is the socket each descriptor refers to and the bytes written to it, each
with what it was written for. Every byte received carries the peer that sent it, and a block
keeps the bytes of its request; the code reads neither. What system calls, callbacks and
workers answer is part of the call, and answers that run out stand for `EAGAIN`. `make_id`
counts in a `long long`, whose overflow C leaves undefined.
-/

namespace Taomee.ServerBench

def maxFds : Nat := 100000

/-- `RCVBUFMAX` and `SHM_BLOCK_LEN_MAX` -/
def rcvBufMax : Nat := 1 <<< 23

structure Addr where
  ip : Nat
  port : Nat
  deriving DecidableEq

/-- One connection of a socket, or what one address exchanges with a datagram socket. -/
structure Peer where
  socket : Nat
  address : Option Addr
  deriving DecidableEq

/-- A byte received. -/
structure InByte where
  peer : Peer
  byte : UInt8
  deriving DecidableEq

inductive BlockType where
  | dat
  | pad
  | fin
  deriving DecidableEq

/-- `skinfo_t` -/
structure SkInfo where
  sockfd : Nat
  remote : Addr
  deriving DecidableEq

/-- `shm_block` with its data, and the bytes of the request it was made from. -/
structure ShmBlock where
  blkId : Nat
  type : BlockType
  skinfo : SkInfo
  acceptFd : Nat
  data : List UInt8
  request : List InByte
  deriving DecidableEq

inductive Origin where
  | greeting
  | reply (block : ShmBlock)
  deriving DecidableEq

/-- A byte to send. -/
structure OutByte where
  origin : Origin
  byte : UInt8
  deriving DecidableEq

/-- A byte the kernel took. -/
structure Written where
  peer : Peer
  out : OutByte
  deriving DecidableEq

/-- `conn_buf`: what `sendptr` points to, and the `recvlen` bytes at `recvptr`, which stands
so far from the start of its allocation. Fewer than 2^31 bytes wait to be sent. -/
structure ConnBuf where
  sndbufsz : Nat
  rcvbufsz : Nat
  rcvprotlen : Int
  sendlen : Nat
  sendptr : Option (List OutByte)
  recvptr : Nat
  unread : List InByte
  deriving DecidableEq

/-- The `CN_` masks. -/
structure Flag where
  valid : Bool
  listen : Bool
  pipe : Bool
  udp : Bool
  fin : Bool
  deriving DecidableEq

structure FdInfo where
  id : Nat
  acceptFd : Nat
  cb : ConnBuf
  sk : SkInfo
  timeout : Int
  flag : Flag
  deriving DecidableEq

/-- What `memset` leaves of a `conn_buf`. -/
def ConnBuf.zero : ConnBuf := ⟨0, 0, 0, 0, none, 0, []⟩

def Flag.zero : Flag := ⟨false, false, false, false, false⟩

/-- What `memset` leaves of an `fdinfo`. -/
def FdInfo.zero : FdInfo := ⟨0, 0, .zero, ⟨0, ⟨0, 0⟩⟩, 0, .zero⟩

/-- The connection process with its queues, the blocks the workers hold, and the kernel. -/
structure Server where
  fdinfo : Nat → FdInfo
  nextId : Nat
  recvq : List ShmBlock
  workers : List ShmBlock
  sendq : List ShmBlock
  socket : Nat → Option Nat
  sockets : Nat
  written : List Written

def Server.initial : Server := ⟨fun _ => .zero, 0, [], [], [], fun _ => none, 0, []⟩

def Server.setInfo (server : Server) (fd : Nat) (info : FdInfo) : Server :=
  { server with fdinfo := Function.update server.fdinfo fd info }

def Server.setCb (server : Server) (fd : Nat) (cb : ConnBuf) : Server :=
  server.setInfo fd { server.fdinfo fd with cb := cb }

/-- What `send` answers. -/
inductive SendResult where
  | sent (count : Nat)
  | eintr
  | eagain
  | error
  deriving DecidableEq

/-- The loop of `safe_tcp_send_n`: its return value, and the bytes the kernel took. -/
def sendLoop (total sendBytes : Nat) : List SendResult → Int × Nat
  | [] => (sendBytes, sendBytes)
  | result :: rest =>
    if sendBytes < total then
      match result with
      | .sent count =>
        let curLen := min count (total - sendBytes)
        if curLen = 0 then (-1, sendBytes) else sendLoop total (sendBytes + curLen) rest
      | .eintr => sendLoop total sendBytes rest
      | .eagain => (sendBytes, sendBytes)
      | .error => (-1, sendBytes)
    else (sendBytes, sendBytes)

/-- `safe_tcp_send_n`; on a descriptor that is not open `send` fails. -/
def Server.safeTcpSendN (server : Server) (fd : Nat) (buf : List OutByte)
    (answers : List SendResult) : Int × Server :=
  match server.socket fd with
  | none => (if buf.length = 0 then 0 else -1, server)
  | some conn =>
    let sent := sendLoop buf.length 0 answers
    (sent.1, { server with
      written := server.written ++ (buf.take sent.2).map (Written.mk ⟨conn, none⟩) })

/-- `safe_tcp_send_n (fd, cb.sendptr, cb.sendlen)`; from a null pointer `send` fails. -/
def Server.sendPending (server : Server) (fd : Nat) (answers : List SendResult) :
    Int × Server :=
  match (server.fdinfo fd).cb.sendptr with
  | none => (-1, server)
  | some buf => server.safeTcpSendN fd (buf.take (server.fdinfo fd).cb.sendlen) answers

/-- The `memmove` after so many of the pending bytes went out. -/
def Server.dropSent (server : Server) (fd sendBytes : Nat) : Server :=
  let cb := (server.fdinfo fd).cb
  server.setCb fd { cb with
    sendptr := cb.sendptr.map (List.drop sendBytes)
    sendlen := cb.sendlen - sendBytes }

/-- The kernel opens a new socket on a descriptor. -/
def Server.openSocket (server : Server) (fd : Nat) : Server :=
  { server with
    socket := Function.update server.socket fd (some server.sockets)
    sockets := server.sockets + 1 }

/-- `do_add_conn` -/
def Server.doAddConn (server : Server) (fd : Nat) (flag : Flag) (remote : Addr)
    (timeout : Int) : Server :=
  { server.setInfo fd
      { FdInfo.zero with
        id := server.nextId
        sk := ⟨fd, remote⟩
        timeout := if flag.pipe then 0 else timeout
        flag := { flag with valid := true } } with
    nextId := server.nextId + 1 }

/-- `do_close_conn` -/
def Server.doCloseConn (server : Server) (fd : Nat) : Server :=
  let flag := (server.fdinfo fd).flag
  if flag.listen || !flag.valid then server
  else
    { server.setInfo fd .zero with socket := Function.update server.socket fd none }

/-- `do_write_conn` -/
def Server.doWriteConn (server : Server) (fd : Nat) (answers : List SendResult) :
    Int × Server :=
  let sent := server.sendPending fd answers
  if sent.1 > 0 then (sent.1, sent.2.dropSent fd sent.1.toNat) else sent

/-- `cb.sendlen > 0`, and if so `do_write_conn`. -/
def Server.writePending (server : Server) (fd : Nat) (answers : List SendResult) :
    Int × Server :=
  if (server.fdinfo fd).cb.sendlen > 0 then server.doWriteConn fd answers else (0, server)

/-- `do_check_conn`, with what `check_timeout` finds. -/
def Server.doCheckConn (server : Server) (fd : Nat) (expired : Bool) : Server :=
  let info := server.fdinfo fd
  if info.flag.fin && info.cb.sendlen = 0 then server.doCloseConn fd
  else if !info.flag.listen && info.timeout > 0 && expired then server.doCloseConn fd
  else server

/-- The second loop of `net_loop` at one descriptor, with `EPOLL_MODE`. -/
def Server.sweep (server : Server) (fd : Nat) (answers : List SendResult) (expired : Bool) :
    Server :=
  let info := server.fdinfo fd
  if info.flag.valid && !info.flag.listen && !info.flag.pipe then
    let sent := server.writePending fd answers
    if sent.1 = -1 then sent.2.doCloseConn fd else sent.2.doCheckConn fd expired
  else server

/-- `net_loop` writing to one descriptor, without `EPOLL_MODE`. -/
def Server.pollWrite (server : Server) (fd : Nat) (answers : List SendResult) : Server :=
  let sent := server.writePending fd answers
  if sent.1 = -1 then sent.2.doCloseConn fd else sent.2

/-- `net_start` and `do_add_conn (pipe_rd_fd ())` -/
def Server.netStart (server : Server) (fd : Nat) (flag : Flag) (timeout : Int) : Server :=
  (server.openSocket fd).doAddConn fd flag ⟨0, 0⟩ timeout

/-- What `handle_open` returns and sets. -/
structure Greeting where
  retCode : Int
  sendptr : List UInt8
  sendlen : Int

/-- What `recv` answers. -/
inductive RecvResult where
  | data (bytes : List UInt8)
  | closed
  | error

/-- What a call of `run_once` meets: whether there is memory for a receive buffer, what
`accept`, `handle_open`, `send`, `recv`, `recvfrom` and `handle_input` answer, and for each
`shmq_push` whether the queue has room. -/
structure NetAnswers where
  memory : Bool
  accepted : Option (Nat × Addr)
  greeting : Option Greeting
  sends : List SendResult
  recv : RecvResult
  datagram : Option (Addr × List UInt8)
  handleInput : List UInt8 → Int
  pushes : List Bool

/-- `do_open_conn`; `none` is -1. -/
def Server.doOpenConn (server : Server) (fd : Nat) (accepted : Option (Nat × Addr)) :
    Option Nat × Server :=
  match accepted with
  | none => (none, server)
  | some (newfd, remote) =>
    let added := (server.openSocket newfd).doAddConn newfd .zero remote
      (server.fdinfo fd).timeout
    (some newfd, added.setInfo newfd { added.fdinfo newfd with acceptFd := fd })

/-- `run_once` once `handle_open` has filled `cb` of a new connection. -/
def Server.greet (server : Server) (fd newfd : Nat) (greeting : Greeting)
    (answers : List SendResult) : Int × Server :=
  if greeting.retCode = -1 then (-1, server.doCloseConn newfd)
  else if greeting.sendlen < 0 ∨ greeting.sendlen > rcvBufMax then
    (-1, server.doCloseConn newfd)
  else
    let sendlen := greeting.sendlen.toNat
    let greeted := server.setCb newfd { (server.fdinfo newfd).cb with
      sendptr := some (greeting.sendptr.map (OutByte.mk .greeting))
      sendlen := sendlen
      sndbufsz := sendlen }
    if sendlen > 0 then
      let sent := greeted.sendPending newfd answers
      if sent.1 = -1 then (-1, sent.2.doCloseConn fd)
      else
        let cb := (sent.2.fdinfo newfd).cb
        (0, sent.2.setCb newfd { cb with sendlen := cb.sendlen - sent.1.toNat })
    else (0, greeted)

/-- `run_once` on a listening descriptor. -/
def Server.acceptConn (server : Server) (fd : Nat) (answers : NetAnswers) : Int × Server :=
  match server.doOpenConn fd answers.accepted with
  | (none, server) => (-1, server)
  | (some newfd, server) =>
    match answers.greeting with
    | none => (0, server)
    | some greeting => server.greet fd newfd greeting answers.sends

/-- The allocation in `do_read_conn`. -/
def ConnBuf.room (cb : ConnBuf) (recvBuffer : Nat) (memory : Bool) : Option ConnBuf :=
  if cb.rcvbufsz = 0 then
    if memory then some { cb with rcvbufsz := recvBuffer, recvptr := 0 } else none
  else if cb.rcvbufsz < cb.rcvprotlen then
    if memory then some { cb with rcvbufsz := cb.rcvprotlen.toNat } else none
  else some cb

/-- `do_read_conn` -/
def Server.doReadConn (recvBuffer : Nat) (server : Server) (fd : Nat) (answers : NetAnswers) :
    Int × Server :=
  match (server.fdinfo fd).cb.room recvBuffer answers.memory with
  | none => (-1, server)
  | some cb =>
    match server.socket fd, answers.recv with
    | some conn, .data bytes =>
      let taken := bytes.take (cb.rcvbufsz - cb.unread.length)
      (taken.length, server.setCb fd
        { cb with unread := cb.unread ++ taken.map (InByte.mk ⟨conn, none⟩) })
    | some _, .closed => (0, server.setCb fd cb)
    | some _, .error => (-1, server.setCb fd cb)
    | none, _ => (-1, server.setCb fd cb)

/-- The block that `run_once` makes of the first bytes of a connection. -/
def FdInfo.block (info : FdInfo) (length : Nat) : ShmBlock :=
  let request := info.cb.unread.take length
  ⟨info.id, .dat, info.sk, info.acceptFd, request.map InByte.byte, request⟩

/-- `handle_input` for a packet whose length is not known yet. -/
def Server.parseLength (server : Server) (handleInput : List UInt8 → Int) (fd : Nat) : Server :=
  let cb := (server.fdinfo fd).cb
  if cb.rcvprotlen = 0 then
    server.setCb fd { cb with rcvprotlen := handleInput (cb.unread.map InByte.byte) }
  else server

/-- The unread bytes move to `saved_recvptr`. -/
def Server.restoreRecvptr (server : Server) (fd saved : Nat) : Server :=
  server.setCb fd { (server.fdinfo fd).cb with recvptr := saved }

/-- A complete packet goes to `recvq`. -/
def Server.pushPacket (server : Server) (fd length : Nat) : Server :=
  let info := server.fdinfo fd
  let unread := info.cb.unread.drop length
  { server.setCb fd { info.cb with
      rcvprotlen := 0
      unread := unread
      recvptr := if unread.isEmpty then info.cb.recvptr else info.cb.recvptr + length } with
    recvq := server.recvq ++ [info.block length] }

/-- `run_once` from `parse_again`; `saved` is `saved_recvptr`. -/
def Server.parseAgain (handleInput : List UInt8 → Int) (fd saved : Nat) :
    Nat → List Bool → Server → Int × Server
  | 0, _, server => (0, server)
  | fuel + 1, pushes, server =>
    let parsed := server.parseLength handleInput fd
    let cb := (parsed.fdinfo fd).cb
    if cb.rcvprotlen < 0 ∨ cb.rcvprotlen > rcvBufMax then
      (-1, (parsed.restoreRecvptr fd saved).doCloseConn fd)
    else if cb.rcvprotlen = 0 then
      if cb.unread.length = cb.rcvbufsz then
        (-1, (parsed.restoreRecvptr fd saved).doCloseConn fd)
      else (0, parsed.restoreRecvptr fd saved)
    else if cb.unread.length ≥ cb.rcvprotlen then
      match pushes with
      | true :: pushes =>
        let pushed := parsed.pushPacket fd cb.rcvprotlen.toNat
        if (pushed.fdinfo fd).cb.unread.isEmpty then (0, pushed.restoreRecvptr fd saved)
        else parseAgain handleInput fd saved fuel pushes pushed
      | _ => (-1, parsed)
    else (0, parsed.restoreRecvptr fd saved)

/-- `udp_recv` -/
def Server.udpRecv (recvBuffer : Nat) (server : Server) (fd : Nat) (answers : NetAnswers) :
    Int × Server :=
  let info := server.fdinfo fd
  if info.cb.rcvbufsz = 0 ∧ !answers.memory then (-1, server)
  else
    let cb := if info.cb.rcvbufsz = 0 then { info.cb with rcvbufsz := recvBuffer } else info.cb
    let server := server.setCb fd cb
    match server.socket fd, answers.datagram with
    | some conn, some (remote, bytes) =>
      if bytes.length = 0 then (-1, server)
      else if answers.handleInput bytes ≠ bytes.length then (-1, server)
      else
        match answers.pushes with
        | true :: _ =>
          let block : ShmBlock :=
            ⟨info.id, .dat, { info.sk with remote := remote }, info.acceptFd, bytes,
              bytes.map (InByte.mk ⟨conn, some remote⟩)⟩
          (0, { server.setCb fd { cb with unread := [], rcvprotlen := 0 } with
            recvq := server.recvq ++ [block] })
        | _ => (-1, server)
    | _, _ => (-1, server)

/-- `run_once` -/
def Server.runOnce (recvBuffer : Nat) (server : Server) (fd : Nat) (answers : NetAnswers) :
    Int × Server :=
  let flag := (server.fdinfo fd).flag
  if flag.udp then (0, (server.udpRecv recvBuffer fd answers).2)
  else if flag.listen then server.acceptConn fd answers
  else
    let read := server.doReadConn recvBuffer fd answers
    if read.1 ≤ 0 then (-1, read.2.doCloseConn fd)
    else
      let cb := (read.2.fdinfo fd).cb
      read.2.parseAgain answers.handleInput fd cb.recvptr cb.unread.length answers.pushes

/-- What `handle_process` returns and sets. -/
structure Processed where
  retCode : Int
  userData : List UInt8
  sndlen : Int

/-- The block that `worker_run` pushes to `sendq`, if any. -/
def workerReply (mb : ShmBlock) (processed : Processed) : Option ShmBlock :=
  if processed.retCode = -1 then some { mb with type := .fin, data := [] }
  else if processed.sndlen > rcvBufMax then none
  else if processed.sndlen > 0 then
    some { mb with
      type := if processed.retCode = 1 then .fin else .dat
      data := processed.userData.take processed.sndlen.toNat }
  else none

/-- The bytes of a reply. -/
def ShmBlock.out (block : ShmBlock) : List OutByte :=
  block.data.map (OutByte.mk (.reply block))

/-- What a call of `schedule_output` meets: what `send` answers for the pending bytes and for
the block, whether `sendto` takes a datagram, and whether there is memory. -/
structure OutputAnswers where
  linger : List SendResult
  direct : List SendResult
  sendto : Bool
  memory : Bool

/-- `send_udp_block` -/
def Server.sendUdpBlock (server : Server) (mb : ShmBlock) (sendto : Bool) : Int × Server :=
  if mb.data.length = 0 then (0, server)
  else if mb.data.length > rcvBufMax then (-1, server)
  else
    match server.socket mb.skinfo.sockfd, sendto with
    | some conn, true => (0, { server with
        written := server.written ++ mb.out.map (Written.mk ⟨conn, some mb.skinfo.remote⟩) })
    | _, _ => (-1, server)

/-- A fault ends the connection process, and its descriptors are closed. -/
def Server.fault (server : Server) : Server :=
  { server with fdinfo := fun _ => .zero, socket := fun _ => none }

/-- `schedule_output` from `merge buffer`, with the bytes of the block that are left. -/
def Server.mergeBuffer (server : Server) (fd : Nat) (left : List OutByte) (memory : Bool) :
    Int × Server :=
  let cb := (server.fdinfo fd).cb
  let sendlen := cb.sendlen + left.length
  if left.length = 0 then (0, server)
  else if cb.sndbufsz = 0 then
    if memory then
      (0, server.setCb fd
        { cb with sendptr := some left, sndbufsz := left.length, sendlen := sendlen })
    else (-1, server.setCb fd { cb with sendptr := none })
  else if cb.sndbufsz < sendlen then
    if memory then
      let kept := (cb.sendptr.getD []).take cb.sendlen
      (0, server.setCb fd
        { cb with sendptr := some (kept ++ left), sndbufsz := sendlen, sendlen := sendlen })
    else (-1, server.setCb fd { cb with sendptr := none })
  else
    match cb.sendptr with
    | none => (-1, server.fault)
    | some buf =>
      (0, server.setCb fd
        { cb with sendptr := some (buf.take cb.sendlen ++ left), sendlen := sendlen })

/-- `schedule_output` from `shm block send`. -/
def Server.sendBlock (server : Server) (fd : Nat) (mb : ShmBlock) (answers : OutputAnswers) :
    Int × Server :=
  let direct :=
    if (server.fdinfo fd).cb.sendlen = 0 ∧ mb.data.length > 0 then
      server.safeTcpSendN fd mb.out answers.direct
    else (0, server)
  if direct.1 < 0 then (-1, direct.2.doCloseConn fd)
  else direct.2.mergeBuffer fd (mb.out.drop direct.1.toNat) answers.memory

/-- `schedule_output` from `tcp linger send`, which does what `do_write_conn` does. -/
def Server.outputTcp (server : Server) (fd : Nat) (mb : ShmBlock) (answers : OutputAnswers) :
    Int × Server :=
  let lingered := server.writePending fd answers.linger
  if lingered.1 < 0 then (-1, lingered.2.doCloseConn fd)
  else lingered.2.sendBlock fd mb answers

/-- A closing block marks its connection. -/
def Server.markFin (server : Server) (fd : Nat) (type : BlockType) : Server :=
  let info := server.fdinfo fd
  if type = .fin ∧ !info.flag.listen then
    server.setInfo fd { info with flag := { info.flag with fin := true } }
  else server

/-- `schedule_output` -/
def Server.scheduleOutput (server : Server) (mb : ShmBlock) (answers : OutputAnswers) :
    Int × Server :=
  let fd := mb.skinfo.sockfd
  let flag := (server.fdinfo fd).flag
  if mb.type = .pad ∨ fd ≥ maxFds then (-1, server)
  else if !flag.valid ∨ mb.blkId ≠ (server.fdinfo fd).id then (-1, server)
  else
    let server := server.markFin fd mb.type
    if flag.udp then server.sendUdpBlock mb answers.sendto
    else server.outputTcp fd mb answers

/-- A block of `sendq` in `conn_loop`. -/
def Server.popReply (server : Server) (answers : OutputAnswers) : Server :=
  match server.sendq with
  | [] => server
  | mb :: rest => ({ server with sendq := rest }.scheduleOutput mb answers).2

/-- A worker takes a block from `recvq`. -/
def Server.popRequest (server : Server) : Server :=
  { server with
    recvq := server.recvq.drop 1
    workers := server.workers ++ server.recvq.take 1 }

/-- A worker is done with a block; `pushed` says whether `sendq` had room. -/
def Server.pushReply (server : Server) (index : Nat) (processed : Processed) (pushed : Bool) :
    Server :=
  let reply := server.workers[index]?.bind (workerReply · processed)
  { server with
    workers := server.workers.eraseIdx index
    sendq := server.sendq ++ if pushed then reply.toList else [] }

/-- A worker drops a block that waited too long, or ends while it holds one. -/
def Server.dropRequest (server : Server) (index : Nat) : Server :=
  { server with workers := server.workers.eraseIdx index }

/-- What the connection process and the workers do. -/
inductive Event where
  | netStart (fd : Nat) (flag : Flag) (timeout : Int)
  | runOnce (fd : Nat) (answers : NetAnswers)
  | hangup (fd : Nat)
  | sweep (fd : Nat) (answers : List SendResult) (expired : Bool)
  | pollWrite (fd : Nat) (answers : List SendResult)
  | check (fd : Nat) (expired : Bool)
  | popRequest
  | pushReply (index : Nat) (processed : Processed) (pushed : Bool)
  | dropRequest (index : Nat)
  | popReply (answers : OutputAnswers)

/-- One event, with `recv_buffer` of the configuration. -/
def step (recvBuffer : Nat) (server : Server) : Event → Server
  | .netStart fd flag timeout => server.netStart fd flag timeout
  | .runOnce fd answers => (server.runOnce recvBuffer fd answers).2
  | .hangup fd => server.doCloseConn fd
  | .sweep fd answers expired => server.sweep fd answers expired
  | .pollWrite fd answers => server.pollWrite fd answers
  | .check fd expired => server.doCheckConn fd expired
  | .popRequest => server.popRequest
  | .pushReply index processed pushed => server.pushReply index processed pushed
  | .dropRequest index => server.dropRequest index
  | .popReply answers => server.popReply answers

/-- The kernel opens sockets on descriptors above 0 that are not in use. -/
def Event.Allowed (server : Server) : Event → Prop
  | .netStart fd _ _ => server.socket fd = none
  | .runOnce _ answers =>
    ∀ newfd ∈ answers.accepted.map Prod.fst, 0 < newfd ∧ server.socket newfd = none
  | _ => True

end Taomee.ServerBench
