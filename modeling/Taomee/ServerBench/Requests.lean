import Taomee.Library.Framing
import Taomee.ServerBench.RecvBuffer

/-!
# serverbench: the packets of a connection

While every `shmq_push` succeeds, `run_once` cuts the bytes of a connection into packets as one
parse of the whole stream would, wherever the results of `recv` end. `rcvprotlen` is what
`handle_input` says of the bytes that are left, or 0.
-/

namespace Taomee.ServerBench

open Runs Framing

/-- The bytes received on a connection. -/
def streamOf (k : Nat) (received : List InByte) : List UInt8 :=
  (bytesOf k received).map InByte.byte

/-- What was pushed to `recvq` for a connection. -/
def requestsOf (k : Nat) (requests : List ShmBlock) : List (List UInt8) :=
  (requests.filter fun block => (block.request.map InByte.peer).head? = some ⟨k, none⟩).map
    ShmBlock.data

/-- The parse that `run_once` makes: `RCVBUFMAX` bounds the length of a packet. -/
def framer (handleInput : List UInt8 → Int) : List UInt8 → Verdict :=
  parserOf (limited rcvBufMax handleInput)

/-- When bytes come in, `handle_input` is the one callback, and the packets that are complete find
room on `recvq`. -/
def Event.Pushed (handleInput : List UInt8 → Int) (recvBuffer : Nat) (server : Server) :
    Event → Prop
  | .runOnce fd answers =>
    let cb := (server.fdinfo fd).cb
    let arrived := (Event.runOnce fd answers).received recvBuffer server
    let bytes := cb.unread ++ arrived
    arrived ≠ [] → answers.handleInput = handleInput ∧
      packets handleInput bytes.length cb.rcvprotlen (bytes.map InByte.byte) ≤
        (answers.pushes.takeWhile id).length
  | _ => True

variable {server after : Server} {fd k recvBuffer : Nat} {info : FdInfo} {cb : ConnBuf}
  {handleInput : List UInt8 → Int} {history : History}

/-- Packets that all find room are queued together. -/
theorem Event.Pushed.together {event : Event}
    (pushed : event.Pushed handleInput recvBuffer server) : event.Together recvBuffer server := by
  cases event with
  | runOnce fd answers =>
    intro some
    obtain ⟨same, room⟩ := pushed some
    exact .inr (same ▸ room)
  | _ => trivial

/-! ## One call -/

/-- A connection waits for the rest of a packet, or to know its length, and its buffer has room. -/
structure ConnBuf.Waits (handleInput : List UInt8 → Int) (cb : ConnBuf) : Prop where
  known : cb.rcvprotlen = 0 ∨ cb.rcvprotlen = handleInput (cb.unread.map InByte.byte)
  room : (cb.rcvprotlen = 0 ∧ (cb.unread.length < cb.rcvbufsz ∨ cb.rcvbufsz = 0)) ∨
    (cb.unread.length < cb.rcvprotlen ∧ 0 < cb.rcvbufsz)
  within : cb.rcvprotlen ≤ rcvBufMax

/-- The length that `run_once` works with. -/
theorem protlen_known {unread : List UInt8} {rcvprotlen : Int}
    (known : rcvprotlen = 0 ∨ rcvprotlen = handleInput unread) :
    (if rcvprotlen = 0 then handleInput unread else rcvprotlen) = handleInput unread := by
  split
  · rfl
  · exact known.resolve_left ‹_›

/-- More bytes do not change the length of a packet. -/
theorem framer_stable (prefixStable : PrefixStable handleInput) : Stable (framer handleInput) :=
  parserOf_stable (limited_prefixStable prefixStable)

section

variable {info : FdInfo}

/-- A packet at the head of the buffer is one of the stream. -/
theorem FdInfo.Begins.starts (begins : info.Begins handleInput)
    (said : info.protlen handleInput = handleInput (info.cb.unread.map InByte.byte)) :
    Starts (framer handleInput) (info.cb.unread.map InByte.byte)
      (info.protlen handleInput).toNat := by
  obtain ⟨positive, within, complete⟩ := begins
  rw [said] at positive within complete ⊢
  have same : limited rcvBufMax handleInput (info.cb.unread.map InByte.byte) =
      handleInput (info.cb.unread.map InByte.byte) := if_neg (Int.not_lt.mpr within)
  have starts := starts_parserOf (same.symm ▸ positive)
    (by rw [same, List.length_map]; exact complete)
  rw [same] at starts
  exact starts

/-- Where the buffer waits for more, so does the stream. -/
theorem not_starts_of_not_begins (waits : ¬info.Begins handleInput)
    (said : info.protlen handleInput = handleInput (info.cb.unread.map InByte.byte))
    (length : Nat) : ¬Starts (framer handleInput) (info.cb.unread.map InByte.byte) length := by
  refine not_starts_parserOf ?_ length
  rw [FdInfo.Begins, said] at waits
  rw [List.length_map]
  unfold limited
  split <;> omega

end

/-- `run_once` from `parse_again` pushes the packets that the unread bytes begin with, and leaves
the others. -/
theorem Server.parseAgain_framed (prefixStable : PrefixStable handleInput) (saved fuel : Nat)
    (pushes : List Bool) (fd : Nat) (server : Server) (nonempty : (server.fdinfo fd).cb.unread ≠ [])
    (enough : (server.fdinfo fd).cb.unread.length ≤ fuel)
    (fits : (server.fdinfo fd).cb.unread.length ≤ (server.fdinfo fd).cb.rcvbufsz)
    (known : (server.fdinfo fd).cb.rcvprotlen = 0 ∨ (server.fdinfo fd).cb.rcvprotlen =
      handleInput ((server.fdinfo fd).cb.unread.map InByte.byte))
    (room : packets handleInput fuel (server.fdinfo fd).cb.rcvprotlen
      ((server.fdinfo fd).cb.unread.map InByte.byte) ≤ (pushes.takeWhile id).length) :
    ∃ new cb, (server.fdinfo fd).Takes new cb ∧
      new.map ShmBlock.data =
        frames (framer handleInput) ((server.fdinfo fd).cb.unread.map InByte.byte) ∧
      cb.unread.map InByte.byte =
        rest (framer handleInput) ((server.fdinfo fd).cb.unread.map InByte.byte) ∧
      ((Server.parseAgain handleInput fd saved fuel pushes server).2 = server.taken fd new cb ∧
          cb.Waits handleInput ∨
        (Server.parseAgain handleInput fd saved fuel pushes server).2 =
          (server.taken fd new cb).doCloseConn fd) := by
  have stable := framer_stable prefixStable
  induction fuel generalizing pushes server with
  | zero => exact absurd (List.length_eq_zero_iff.mp (Nat.le_zero.mp enough)) nonempty
  | succ fuel ih =>
    have said : (server.fdinfo fd).protlen handleInput =
        handleInput ((server.fdinfo fd).cb.unread.map InByte.byte) := protlen_known known
    have restored : (server.fdinfo fd).Takes [] { (server.fdinfo fd).cb with
        rcvprotlen := (server.fdinfo fd).protlen handleInput, recvptr := saved } := .nothing rfl
    by_cases begins : (server.fdinfo fd).Begins handleInput
    case neg =>
      obtain ⟨none, all⟩ := frames_of_not_starts (not_starts_of_not_begins begins said)
      obtain ⟨stays, waits⟩ | closed := @Server.parseAgain_waits server fd handleInput saved fuel
        pushes begins
      · refine ⟨[], _, restored, none.symm, all.symm, .inl ⟨stays, .inr said, ?_, ?_⟩⟩
        · obtain ⟨unknown, apart⟩ | ⟨short, -⟩ := waits
          · exact .inl ⟨unknown, .inl (Nat.lt_of_le_of_ne fits apart)⟩
          · exact .inr ⟨short, Nat.lt_of_lt_of_le (List.length_pos_iff.mpr nonempty) fits⟩
        · obtain ⟨unknown, -⟩ | ⟨-, within⟩ := waits
          · exact unknown.trans_le (Int.natCast_nonneg _)
          · exact within
      · exact ⟨[], _, restored, none.symm, all.symm, .inr closed⟩
    case pos =>
    rw [packets_of_begins begins] at room
    cases pushes with
    | nil => simp at room
    | cons push pushes =>
    cases push with
    | false => simp at room
    | true =>
    obtain ⟨first, later⟩ := frames_of_starts stable (begins.starts said)
    rw [← List.map_take, ← List.map_drop, ← FdInfo.behind_unread] at first
    rw [← List.map_drop, ← FdInfo.behind_unread] at later
    rw [Server.parseAgain_pushed begins, first, later]
    dsimp only
    split
    case isTrue empty =>
      refine ⟨[_], { (server.fdinfo fd).behind _ with recvptr := saved },
        begins.takes (.nothing rfl), ?_, ?_,
        .inl ⟨rfl, .inl rfl, .inl ⟨rfl, .inl ?_⟩, Int.natCast_nonneg _⟩⟩
      · rw [empty]
        rfl
      · rw [empty]
        rfl
      · rw [empty, FdInfo.behind_rcvbufsz]
        exact Nat.lt_of_lt_of_le (List.length_pos_iff.mpr nonempty) fits
    case isFalse more =>
      have shorter := begins.length_behind_lt
      obtain ⟨new, next, takes, pushed, kept, result⟩ := ih pushes
        (server.taken fd [_] ((server.fdinfo fd).behind _))
        (by rw [Server.taken_same]; exact more) (by rw [Server.taken_same]; dsimp only; omega)
        (by rw [Server.taken_same]; dsimp only [FdInfo.behind_rcvbufsz]; omega)
        (by rw [Server.taken_same]; exact .inl rfl)
        (by rw [Server.taken_same]; dsimp only [FdInfo.behind_rcvprotlen]; simpa using room)
      rw [Server.taken_same] at takes pushed kept
      rw [Server.taken_taken] at result
      exact ⟨_, next, begins.takes takes, by rw [List.map_cons, pushed]; rfl, kept, result⟩

/-! ## What was pushed -/

@[simp] theorem streamOf_append (first second : List InByte) :
    streamOf k (first ++ second) = streamOf k first ++ streamOf k second := by
  simp [streamOf]

@[simp] theorem requestsOf_append (first second : List ShmBlock) :
    requestsOf k (first ++ second) = requestsOf k first ++ requestsOf k second := by
  simp [requestsOf]

/-- The stream of one peer is all its bytes. -/
theorem streamOf_same {bytes : List InByte} (all : ∀ b ∈ bytes, b.peer = ⟨k, none⟩) :
    streamOf k bytes = bytes.map InByte.byte := by
  rw [streamOf, bytesOf_same all]

/-- Bytes of others are not in the stream. -/
theorem streamOf_nil {bytes : List InByte} (none : ∀ b ∈ bytes, b.peer ≠ ⟨k, none⟩) :
    streamOf k bytes = [] := by
  rw [streamOf, bytesOf_nil none]
  rfl

/-- Blocks of others are no requests of this connection. -/
theorem requestsOf_nil {blocks : List ShmBlock}
    (none : ∀ b ∈ blocks.flatMap ShmBlock.request, b.peer ≠ ⟨k, none⟩) :
    requestsOf k blocks = [] := by
  unfold requestsOf
  rw [List.filter_eq_nil_iff.mpr, List.map_nil]
  intro block member found
  cases request : block.request with
  | nil => simp [request] at found
  | cons b rest =>
    refine none b (List.mem_flatMap.mpr ⟨block, member, by simp [request]⟩) ?_
    simpa [request] using found

/-- Blocks of this connection are all its requests. -/
theorem requestsOf_same {blocks : List ShmBlock}
    (all : ∀ b ∈ blocks.flatMap ShmBlock.request, b.peer = ⟨k, none⟩)
    (some : ∀ block ∈ blocks, block.request ≠ []) :
    requestsOf k blocks = blocks.map ShmBlock.data := by
  unfold requestsOf
  rw [List.filter_eq_self.mpr]
  intro block member
  cases request : block.request with
  | nil => exact absurd request (some block member)
  | cons b rest =>
    have peer := all b (List.mem_flatMap.mpr ⟨block, member, by simp [request]⟩)
    simp [peer]

/-! ## Runs -/

/-- The packets pushed for each connection are those of its stream, and its buffer holds what they
leave over, in no more than the largest buffer. -/
structure Server.Framed (handleInput : List UInt8 → Int) (recvBuffer : Nat) (server : Server)
    (received : List InByte) (requests : List ShmBlock) : Prop where
  valid : ∀ fd k, server.socket fd = some k → (server.fdinfo fd).flag.valid = true
  pushed : ∀ k, requestsOf k requests = frames (framer handleInput) (streamOf k received)
  short : ∀ k,
    (rest (framer handleInput) (streamOf k received)).length ≤ max recvBuffer rcvBufMax
  unread : ∀ fd k, server.socket fd = some k →
    (server.fdinfo fd).cb.unread.map InByte.byte =
      rest (framer handleInput) (streamOf k received)
  waits : ∀ fd k, server.socket fd = some k → (server.fdinfo fd).cb.Waits handleInput
  sized : ∀ fd k, server.socket fd = some k →
    (server.fdinfo fd).cb.rcvbufsz ≤ max recvBuffer rcvBufMax

/-- What a buffer waits for depends on its bytes, length and size. -/
theorem ConnBuf.Waits.congr {other : ConnBuf} (waits : cb.Waits handleInput)
    (rcvprotlen : other.rcvprotlen = cb.rcvprotlen) (unread : other.unread = cb.unread)
    (rcvbufsz : other.rcvbufsz = cb.rcvbufsz) : other.Waits handleInput where
  known := by
    rw [rcvprotlen, unread]
    exact waits.known
  room := by
    rw [rcvprotlen, unread, rcvbufsz]
    exact waits.room
  within := by
    rw [rcvprotlen]
    exact waits.within

variable {received : List InByte} {requests : List ShmBlock}

namespace Server.Framed

/-- Nothing is received or pushed. -/
theorem keeps (framed : server.Framed handleInput recvBuffer received requests)
    (kept : server.KeepsInput after) : after.Framed handleInput recvBuffer received requests where
  valid fd k refers := by
    obtain ⟨before, same⟩ := kept.was refers
    exact (congrArg (·.flag.valid) same).trans (framed.valid fd k before)
  pushed := framed.pushed
  short := framed.short
  unread fd k refers := by
    obtain ⟨before, same⟩ := kept.was refers
    rw [(FdInfo.input_eq same).2.1]
    exact framed.unread fd k before
  waits fd k refers := by
    obtain ⟨before, same⟩ := kept.was refers
    obtain ⟨-, unread, -, rcvbufsz⟩ := FdInfo.input_eq same
    exact (framed.waits fd k before).congr (congrArg (·.cb.rcvprotlen) same) unread rcvbufsz
  sized fd k refers := by
    obtain ⟨before, same⟩ := kept.was refers
    rw [(FdInfo.input_eq same).2.2.2]
    exact framed.sized fd k before

/-- Nothing came in yet on a socket that is opened. -/
theorem added (framed : server.Framed handleInput recvBuffer received requests)
    (known : ∀ b ∈ received, b.peer.socket < server.sockets) (fd : Nat) (flag : Flag)
    (remote : Addr) (timeout : Int) :
    ((server.openSocket fd).doAddConn fd flag remote timeout).Framed handleInput recvBuffer
      received requests := by
  have entry : ((server.openSocket fd).doAddConn fd flag remote timeout).fdinfo fd = {
      FdInfo.zero with
      id := server.nextId
      sk := ⟨fd, remote⟩
      timeout := if flag.pipe then 0 else timeout
      flag := { flag with valid := true } } := by
    simp [Server.doAddConn, Server.openSocket]
  have others (other : Nat) (apart : other ≠ fd) :
      ((server.openSocket fd).doAddConn fd flag remote timeout).fdinfo other =
        server.fdinfo other ∧
      ((server.openSocket fd).doAddConn fd flag remote timeout).socket other =
        server.socket other := by
    simp [Server.doAddConn, Server.setInfo, Server.openSocket, apart]
  have number (k : Nat)
      (refers : ((server.openSocket fd).doAddConn fd flag remote timeout).socket fd = some k) :
      server.sockets = k := by
    simpa [Server.doAddConn, Server.setInfo, Server.openSocket] using refers
  refine ⟨?_, framed.pushed, framed.short, ?_, ?_, ?_⟩
  · intro other k refers
    by_cases here : other = fd
    · subst here
      rw [entry]
    · rw [(others other here).1]
      exact framed.valid other k ((others other here).2.symm.trans refers)
  · intro other k refers
    by_cases here : other = fd
    · subst here
      obtain rfl := number k refers
      have fresh : streamOf server.sockets received = [] := by
        refine streamOf_nil ?_
        intro b member same
        exact absurd (known b member) (by simp [same])
      rw [entry, fresh]
      rfl
    · rw [(others other here).1]
      exact framed.unread other k ((others other here).2.symm.trans refers)
  · intro other k refers
    by_cases here : other = fd
    · subst here
      rw [entry]
      exact ⟨.inl rfl, .inl ⟨rfl, .inr rfl⟩, Int.natCast_nonneg _⟩
    · rw [(others other here).1]
      exact framed.waits other k ((others other here).2.symm.trans refers)
  · intro other k refers
    by_cases here : other = fd
    · subst here
      rw [entry]
      exact Nat.zero_le _
    · rw [(others other here).1]
      exact framed.sized other k ((others other here).2.symm.trans refers)

/-- One descriptor is closed. -/
theorem dropped (framed : server.Framed handleInput recvBuffer received requests)
    (elsewhere : ∀ other ≠ fd, after.fdinfo other = server.fdinfo other ∧
      after.socket other = server.socket other)
    (closed : after.socket fd = none) : after.Framed handleInput recvBuffer received requests := by
  have was (other k : Nat) (refers : after.socket other = some k) :
      after.fdinfo other = server.fdinfo other ∧ server.socket other = some k := by
    have apart : other ≠ fd := by
      rintro rfl
      cases closed.symm.trans refers
    obtain ⟨entry, socket⟩ := elsewhere other apart
    exact ⟨entry, socket.symm.trans refers⟩
  refine ⟨?_, framed.pushed, framed.short, ?_, ?_, ?_⟩
  · intro other k refers
    obtain ⟨entry, before⟩ := was other k refers
    exact entry ▸ framed.valid other k before
  · intro other k refers
    obtain ⟨entry, before⟩ := was other k refers
    exact entry ▸ framed.unread other k before
  · intro other k refers
    obtain ⟨entry, before⟩ := was other k refers
    exact entry ▸ framed.waits other k before
  · intro other k refers
    obtain ⟨entry, before⟩ := was other k refers
    exact entry ▸ framed.sized other k before

/-- Bytes come in on one connection, and packets are made of them. -/
theorem taken (framed : server.Framed handleInput recvBuffer received requests)
    (numbered : server.Numbered) {conn : Nat} (refers : server.socket fd = some conn)
    {arrived : List InByte} {new : List ShmBlock} (arrivals : ∀ b ∈ arrived, b.peer = ⟨conn, none⟩)
    (made : ∀ b ∈ new.flatMap ShmBlock.request, b.peer = ⟨conn, none⟩)
    (nonempty : ∀ block ∈ new, block.request ≠ [])
    (pushed : new.map ShmBlock.data = frames (framer handleInput)
      (rest (framer handleInput) (streamOf conn received) ++ arrived.map InByte.byte))
    (unread : cb.unread.map InByte.byte = rest (framer handleInput)
      (rest (framer handleInput) (streamOf conn received) ++ arrived.map InByte.byte))
    (fits : cb.unread.length ≤ cb.rcvbufsz) (sized : cb.rcvbufsz ≤ max recvBuffer rcvBufMax)
    (prefixStable : PrefixStable handleInput)
    (elsewhere : ∀ other ≠ fd, after.fdinfo other = server.fdinfo other ∧
      after.socket other = server.socket other)
    (here : after.socket fd = none ∨ after.socket fd = server.socket fd ∧
      after.fdinfo fd = { server.fdinfo fd with cb := cb } ∧ cb.Waits handleInput) :
    after.Framed handleInput recvBuffer (received ++ arrived) (requests ++ new) := by
  obtain ⟨framesAll, restAll⟩ := frames_append (framer_stable prefixStable)
    (streamOf conn received) (arrived.map InByte.byte)
  have whole : streamOf conn (received ++ arrived) =
      streamOf conn received ++ arrived.map InByte.byte := by
    rw [streamOf_append, streamOf_same arrivals]
  have others (k : Nat) (apart : k ≠ conn) :
      streamOf k (received ++ arrived) = streamOf k received ∧ requestsOf k new = [] := by
    constructor
    · have none : streamOf k arrived = [] := by
        refine streamOf_nil ?_
        intro b member same
        have peer := (arrivals b member).symm.trans same
        exact apart (congrArg Peer.socket peer).symm
      rw [streamOf_append, none, List.append_nil]
    · refine requestsOf_nil ?_
      intro b member same
      have peer := (made b member).symm.trans same
      exact apart (congrArg Peer.socket peer).symm
  have left : cb.unread.map InByte.byte =
      rest (framer handleInput) (streamOf conn (received ++ arrived)) := by
    rw [whole, restAll, unread]
  -- Another socket is on another descriptor, with the entry it had.
  have was (other k : Nat) (also : after.socket other = some k) :
      (other = fd ∧ k = conn ∧ after.fdinfo fd = { server.fdinfo fd with cb := cb } ∧
        cb.Waits handleInput) ∨
      (k ≠ conn ∧ after.fdinfo other = server.fdinfo other ∧ server.socket other = some k) := by
    by_cases same : other = fd
    · subst same
      rcases here with closed | ⟨socket, entry, waits⟩
      · cases closed.symm.trans also
      · have number : conn = k := Option.some.inj (refers.symm.trans (socket.symm.trans also))
        exact .inl ⟨rfl, number.symm, entry, waits⟩
    · obtain ⟨entry, socket⟩ := elsewhere other same
      have before := socket.symm.trans also
      refine .inr ⟨?_, entry, before⟩
      rintro rfl
      exact same (numbered.single other fd k before refers)
  refine ⟨?_, ?_, ?_, ?_, ?_, ?_⟩
  · intro other k also
    rcases was other k also with ⟨rfl, rfl, entry, -⟩ | ⟨-, entry, before⟩
    · rw [entry]
      exact framed.valid other k refers
    · exact entry ▸ framed.valid other k before
  · intro k
    rw [requestsOf_append, framed.pushed k]
    by_cases here : k = conn
    · subst here
      rw [requestsOf_same made nonempty, whole, framesAll, pushed]
    · rw [(others k here).1, (others k here).2, List.append_nil]
  · intro k
    by_cases here : k = conn
    · subst here
      rw [← left, List.length_map]
      exact Nat.le_trans fits sized
    · rw [(others k here).1]
      exact framed.short k
  · intro other k also
    rcases was other k also with ⟨rfl, rfl, entry, -⟩ | ⟨apart, entry, before⟩
    · rw [entry]
      exact left
    · rw [entry, (others k apart).1]
      exact framed.unread other k before
  · intro other k also
    rcases was other k also with ⟨rfl, rfl, entry, waits⟩ | ⟨-, entry, before⟩
    · rw [entry]
      exact waits
    · exact entry ▸ framed.waits other k before
  · intro other k also
    rcases was other k also with ⟨rfl, rfl, entry, -⟩ | ⟨-, entry, before⟩
    · rw [entry]
      exact sized
    · exact entry ▸ framed.sized other k before

end Server.Framed

/-! ## `run_once` -/

/-- Other descriptors are left alone. -/
theorem Server.doCloseConn_elsewhere (server : Server) (other : Nat) (apart : other ≠ fd) :
    (server.doCloseConn fd).fdinfo other = server.fdinfo other ∧
      (server.doCloseConn fd).socket other = server.socket other := by
  unfold Server.doCloseConn
  dsimp only
  split
  · exact ⟨rfl, rfl⟩
  · simp [Server.setInfo, apart]

/-- A connection that is closed, or was not open. -/
theorem Server.doCloseConn_closes (listen : (server.fdinfo fd).flag.listen = false)
    (valid : ∀ k, server.socket fd = some k → (server.fdinfo fd).flag.valid = true) :
    (server.doCloseConn fd).socket fd = none := by
  unfold Server.doCloseConn
  dsimp only
  split
  case isTrue stays =>
    cases refers : server.socket fd with
    | none => rfl
    | some k => simp [listen, valid k refers] at stays
  case isFalse => simp

/-- `do_read_conn` returns more than 0 when something arrives. -/
theorem Server.arriving_nil {answers : NetAnswers}
    (failed : (server.doReadConn recvBuffer fd answers).1 ≤ 0) :
    server.arriving recvBuffer fd answers = [] := by
  unfold Server.doReadConn at failed
  unfold Server.arriving
  cases found : (server.fdinfo fd).cb.room recvBuffer answers.memory with
  | none => cases server.socket fd <;> rfl
  | some cb =>
    rw [found] at failed
    cases refers : server.socket fd with
    | none => rfl
    | some conn =>
      cases recv : answers.recv with
      | data bytes =>
        rw [refers, recv] at failed
        dsimp only at failed ⊢
        rw [List.map_eq_nil_iff, ← List.length_eq_zero_iff]
        omega
      | closed => rfl
      | error => rfl

/-- The buffer does not grow beyond its bound. -/
theorem ConnBuf.Waits.room_le (waits : cb.Waits handleInput) {memory : Bool} {roomy : ConnBuf}
    (sized : cb.rcvbufsz ≤ max recvBuffer rcvBufMax)
    (found : cb.room recvBuffer memory = some roomy) :
    roomy.rcvbufsz ≤ max recvBuffer rcvBufMax := by
  unfold ConnBuf.room at found
  have within := waits.within
  split at found
  · split at found
    · cases found
      exact Nat.le_max_left _ _
    · cases found
  · split at found
    · split at found
      · cases found
        dsimp only
        omega
      · cases found
    · cases found
      exact sized

/-- There is room for the next bytes of a connection. -/
theorem ConnBuf.Waits.room_lt (waits : cb.Waits handleInput) {memory : Bool} {roomy : ConnBuf}
    (fits : cb.unread.length ≤ cb.rcvbufsz) (found : cb.room recvBuffer memory = some roomy)
    (some : 0 < roomy.rcvbufsz) : roomy.unread.length < roomy.rcvbufsz := by
  unfold ConnBuf.room at found
  have room := waits.room
  split at found
  · split at found
    · cases found
      dsimp only at some ⊢
      omega
    · cases found
  · split at found
    · split at found
      · cases found
        dsimp only
        omega
      · cases found
    · cases found
      omega

/-- A buffer that is allocated is not empty. -/
theorem ConnBuf.rcvbufsz_pos {memory : Bool} {roomy : ConnBuf} (positive : 0 < recvBuffer)
    (found : cb.room recvBuffer memory = some roomy) : 0 < roomy.rcvbufsz := by
  unfold ConnBuf.room at found
  split at found
  · split at found
    · cases found
      exact positive
    · cases found
  · split at found
    · split at found
      · cases found
        dsimp only
        omega
      · cases found
    · cases found
      omega

/-- A length that is known stays the length of the packet when more bytes come in. -/
theorem ConnBuf.Waits.known_append (waits : cb.Waits handleInput)
    (prefixStable : PrefixStable handleInput) (more : List InByte) :
    cb.rcvprotlen = 0 ∨
      cb.rcvprotlen = handleInput ((cb.unread ++ more).map InByte.byte) := by
  rw [List.map_append]
  by_cases decided : cb.rcvprotlen = 0
  · exact .inl decided
  · have said := waits.known.resolve_left decided
    rw [prefixStable _ _ (said ▸ decided)]
    exact .inr said

/-- A read that fails closes the connection and pushes nothing. -/
theorem Server.Framed.failedRead (framed : server.Framed handleInput recvBuffer received requests)
    (answers : NetAnswers) (listen : (server.fdinfo fd).flag.listen = false) :
    ((server.doReadConn recvBuffer fd answers).2.doCloseConn fd).Framed handleInput recvBuffer
      received requests := by
  have alive : ∀ k, server.socket fd = some k → (server.fdinfo fd).flag.valid = true :=
    framed.valid fd
  rcases server.doReadConn_eq recvBuffer fd answers with ⟨same, -⟩ | ⟨cb, -, same, -, -⟩
  · rw [same]
    exact framed.dropped server.doCloseConn_elsewhere (Server.doCloseConn_closes listen alive)
  · rw [same]
    refine framed.dropped ?_ (Server.doCloseConn_closes (by simpa using listen)
      (by simpa using alive))
    intro other apart
    obtain ⟨entry, socket⟩ := (server.setCb fd { cb with
      unread := cb.unread ++ server.arriving recvBuffer fd answers }).doCloseConn_elsewhere
        other apart
    exact ⟨entry.trans (by simp [Server.setCb, Server.setInfo, apart]), socket⟩

/-- A turn frames the bytes received into the packets pushed. -/
theorem Server.Framed.runConn (framed : server.Framed handleInput recvBuffer received requests)
    (accounted : server.Accounted received (requests.flatMap ShmBlock.request))
    (prefixStable : PrefixStable handleInput) (answers : NetAnswers)
    (tcp : (server.fdinfo fd).flag.udp = false) (listen : (server.fdinfo fd).flag.listen = false)
    (pushed : (Event.runOnce fd answers).Pushed handleInput recvBuffer server) :
    ∃ new, (server.runOnce recvBuffer fd answers).2.recvq = server.recvq ++ new ∧
      (server.runOnce recvBuffer fd answers).2.Framed handleInput recvBuffer
        (received ++ server.arriving recvBuffer fd answers) (requests ++ new) := by
  have alive : ∀ k, server.socket fd = some k → (server.fdinfo fd).flag.valid = true :=
    framed.valid fd
  simp only [Event.Pushed, Event.received, tcp, listen] at pushed
  simp only [Server.runOnce, tcp, listen, Bool.false_eq_true, if_false]
  split
  case isTrue failed =>
    refine ⟨[], ?_, ?_⟩
    · rcases server.doReadConn_eq recvBuffer fd answers with ⟨same, -⟩ | ⟨cb, -, same, -, -⟩
      · simp [same]
      · simp [same, Server.setCb, Server.setInfo]
    rw [Server.arriving_nil failed, List.append_nil, List.append_nil]
    exact framed.failedRead answers listen
  case isFalse positive =>
    rcases server.doReadConn_eq recvBuffer fd answers with
      ⟨failed, -⟩ | ⟨cb, found, same, fits, some⟩
    · rw [failed] at positive
      exact absurd (by decide : (-1 : Int) ≤ 0) positive
    replace some := some (Int.not_le.mp positive)
    obtain ⟨callback, together⟩ := pushed some
    obtain ⟨b, member⟩ := List.exists_mem_of_ne_nil _ some
    obtain ⟨conn, refers, -⟩ := Server.arriving_peers member
    obtain ⟨rest, grown, -⟩ := ConnBuf.room_spec found
    have unread : cb.unread = (server.fdinfo fd).cb.unread := by rw [rest]
    have protlen : cb.rcvprotlen = (server.fdinfo fd).cb.rcvprotlen := by rw [rest]
    have holds := accounted.buffers fd conn refers
    have waits := framed.waits fd conn refers
    have arrivals : ∀ b ∈ server.arriving recvBuffer fd answers, b.peer = ⟨conn, none⟩ := by
      intro b member
      obtain ⟨k, also, peer⟩ := Server.arriving_peers member
      obtain rfl : conn = k := Option.some.inj (refers.symm.trans also)
      exact peer
    have room : cb.unread.length + (server.arriving recvBuffer fd answers).length ≤
        cb.rcvbufsz := by
      have before : cb.unread.length ≤ cb.rcvbufsz := unread ▸ Nat.le_trans holds.fits grown
      omega
    have known : cb.rcvprotlen = 0 ∨ cb.rcvprotlen = handleInput
        ((cb.unread ++ server.arriving recvBuffer fd answers).map InByte.byte) := by
      rw [protlen, unread]
      exact waits.known_append prefixStable _
    rw [same, callback]
    obtain ⟨new, next, takes, made, left, result⟩ := Server.parseAgain_framed prefixStable
      cb.recvptr (cb.unread ++ server.arriving recvBuffer fd answers).length answers.pushes fd
      (server.setCb fd { cb with unread := cb.unread ++ server.arriving recvBuffer fd answers })
      (by simp [some]) (by simp) (by simpa using room) (by simpa using known)
      (by simpa [unread, protlen] using together)
    have entry : ((server.setCb fd { cb with
        unread := cb.unread ++ server.arriving recvBuffer fd answers }).fdinfo fd).cb.unread =
        (server.fdinfo fd).cb.unread ++ server.arriving recvBuffer fd answers := by
      rw [Server.setCb_same, unread]
    have merged : (server.setCb fd { cb with
        unread := cb.unread ++ server.arriving recvBuffer fd answers }).taken fd new next =
        server.taken fd new next := by
      simp [Server.taken, Server.setCb, Server.setInfo]
    have bytes := takes.bytes
    rw [entry] at made left bytes
    rw [List.map_append, framed.unread fd conn refers] at made left
    rw [merged] at result
    have size : next.rcvbufsz = cb.rcvbufsz := by
      rw [takes.rest, Server.setCb_same]
    have sized : next.rcvbufsz ≤ max recvBuffer rcvBufMax :=
      size ▸ waits.room_le (framed.sized fd conn refers) found
    have short : next.unread.length ≤ next.rcvbufsz := by
      have whole := congrArg List.length bytes
      rw [List.length_append, List.length_append, ← unread] at whole
      omega
    have requested : ∀ b ∈ new.flatMap ShmBlock.request, b.peer = ⟨conn, none⟩ := by
      intro b member
      have among : b ∈ (server.fdinfo fd).cb.unread ++ server.arriving recvBuffer fd answers :=
        bytes ▸ List.mem_append_left _ member
      rcases List.mem_append.mp among with old | fresh
      · exact holds.peers b old
      · exact arrivals b fresh
    have settle (after : Server)
        (elsewhere : ∀ other ≠ fd, after.fdinfo other = server.fdinfo other ∧
          after.socket other = server.socket other)
        (here : after.socket fd = none ∨ after.socket fd = server.socket fd ∧
          after.fdinfo fd = { server.fdinfo fd with cb := next } ∧ next.Waits handleInput) :
        after.Framed handleInput recvBuffer
          (received ++ server.arriving recvBuffer fd answers) (requests ++ new) :=
      framed.taken accounted.numbered refers arrivals requested
        (fun block member => (takes.blocks block member).1) made left short sized prefixStable
        elsewhere here
    have inside (other : Nat) (apart : other ≠ fd) :
        (server.taken fd new next).fdinfo other = server.fdinfo other ∧
          (server.taken fd new next).socket other = server.socket other := by
      simp [Server.taken, Server.setCb, Server.setInfo, apart]
    refine ⟨new, ?_, ?_⟩
    · simp only [Server.setCb_same]
      rcases result with ⟨opened, -⟩ | closed
      · rw [opened]
        rfl
      · rw [closed, Server.doCloseConn_recvq]
        rfl
    · simp only [Server.setCb_same]
      rcases result with ⟨opened, waits⟩ | closed
      · rw [opened]
        refine settle _ inside (.inr ⟨rfl, ?_, waits⟩)
        rw [Server.taken_same]
      · rw [closed]
        refine settle _ ?_ (.inl (Server.doCloseConn_closes (by simpa using listen) ?_))
        case refine_2 => simpa [Server.taken] using alive
        intro other apart
        obtain ⟨entry, socket⟩ := (server.taken fd new next).doCloseConn_elsewhere other apart
        exact ⟨entry.trans (inside other apart).1, socket.trans (inside other apart).2⟩

namespace Server.Framed

/-- A new connection starts an empty stream. -/
theorem acceptConn (framed : server.Framed handleInput recvBuffer received requests)
    (known : ∀ b ∈ received, b.peer.socket < server.sockets) (fd : Nat) (answers : NetAnswers) :
    (server.acceptConn fd answers).2.recvq <:+ server.recvq ∧
      (server.acceptConn fd answers).2.Framed handleInput recvBuffer received requests := by
  unfold Server.acceptConn Server.doOpenConn
  cases answers.accepted with
  | none => exact ⟨List.suffix_rfl, framed⟩
  | some accepted =>
    obtain ⟨newfd, remote⟩ := accepted
    have opened : (((server.openSocket newfd).doAddConn newfd .zero remote
        (server.fdinfo fd).timeout).setInfo newfd { (((server.openSocket newfd).doAddConn newfd
          .zero remote (server.fdinfo fd).timeout).fdinfo newfd) with acceptFd := fd }).Framed
        handleInput recvBuffer received requests :=
      (framed.added known newfd .zero remote _).keeps (.setInfo rfl)
    cases answers.greeting with
    | none => exact ⟨List.suffix_rfl, opened⟩
    | some greeting =>
      exact ⟨(Server.KeepsInput.greet fd newfd greeting answers.sends).recvq,
        opened.keeps (.greet fd newfd greeting answers.sends)⟩

/-- Datagrams are no part of the stream of a connection. -/
theorem datagrams (framed : server.Framed handleInput recvBuffer received requests)
    {new : List ShmBlock} (before : (server.fdinfo fd).cb.unread = []) (empty : cb.unread = [])
    (waits : ∀ k, server.socket fd = some k → cb.Waits handleInput)
    (sized : ∀ k, server.socket fd = some k → cb.rcvbufsz ≤ max recvBuffer rcvBufMax)
    (remote : ∀ b ∈ new.flatMap ShmBlock.request, b.peer.address ≠ none) :
    (server.taken fd new cb).Framed handleInput recvBuffer received (requests ++ new) := by
  have here : (server.taken fd new cb).fdinfo fd = { server.fdinfo fd with cb := cb } :=
    Server.taken_same
  have elsewhere (other : Nat) (apart : other ≠ fd) :
      (server.taken fd new cb).fdinfo other = server.fdinfo other := by
    simp [Server.taken, Server.setCb, Server.setInfo, apart]
  refine ⟨?_, ?_, framed.short, ?_, ?_, ?_⟩
  · intro other k refers
    by_cases same : other = fd
    · subst same
      rw [here]
      exact framed.valid other k refers
    · exact elsewhere other same ▸ framed.valid other k refers
  · intro k
    have none : requestsOf k new = [] := by
      refine requestsOf_nil ?_
      intro b member same
      exact remote b member (congrArg Peer.address same)
    rw [requestsOf_append, none, List.append_nil, framed.pushed k]
  · intro other k refers
    by_cases same : other = fd
    · subst same
      have left := framed.unread other k refers
      rw [before] at left
      rw [here, ← left, empty]
    · exact elsewhere other same ▸ framed.unread other k refers
  · intro other k refers
    by_cases same : other = fd
    · subst same
      rw [here]
      exact waits k refers
    · exact elsewhere other same ▸ framed.waits other k refers
  · intro other k refers
    by_cases same : other = fd
    · subst same
      rw [here]
      exact sized k refers
    · exact elsewhere other same ▸ framed.sized other k refers

/-- A datagram is no part of a stream. -/
theorem udpRecv (framed : server.Framed handleInput recvBuffer received requests)
    (unread : (server.fdinfo fd).cb.unread = []) (answers : NetAnswers) :
    ∃ new, (server.udpRecv recvBuffer fd answers).2.recvq = server.recvq ++ new ∧
      (server.udpRecv recvBuffer fd answers).2.Framed handleInput recvBuffer received
        (requests ++ new) := by
  unfold Server.udpRecv
  dsimp only
  split
  · exact ⟨[], by simp, by simpa using framed⟩
  generalize grown : (if (server.fdinfo fd).cb.rcvbufsz = 0 then
    { (server.fdinfo fd).cb with rcvbufsz := recvBuffer } else (server.fdinfo fd).cb) = cb
  have kept : cb.unread = [] ∧ cb.rcvprotlen = (server.fdinfo fd).cb.rcvprotlen ∧
      ((server.fdinfo fd).cb.rcvbufsz = 0 ∧ cb.rcvbufsz = recvBuffer ∨
        (server.fdinfo fd).cb.rcvbufsz ≠ 0 ∧ cb.rcvbufsz = (server.fdinfo fd).cb.rcvbufsz) := by
    subst grown
    split
    case isTrue none => exact ⟨unread, rfl, .inl ⟨none, rfl⟩⟩
    case isFalse some => exact ⟨unread, rfl, .inr ⟨some, rfl⟩⟩
  obtain ⟨empty, protlen, size⟩ := kept
  have sized (k : Nat) (refers : server.socket fd = some k) :
      cb.rcvbufsz ≤ max recvBuffer rcvBufMax := by
    have before := framed.sized fd k refers
    omega
  have waits (k : Nat) (refers : server.socket fd = some k) : cb.Waits handleInput := by
    obtain ⟨known, room, within⟩ := framed.waits fd k refers
    rw [unread] at known room
    refine ⟨?_, ?_, ?_⟩
    · rw [protlen, empty]
      exact known
    · rw [protlen, empty]
      simp only [List.length_nil] at room ⊢
      omega
    · rw [protlen]
      exact within
  have refused : ∃ new : List ShmBlock, (server.setCb fd cb).recvq = server.recvq ++ new ∧
      (server.setCb fd cb).Framed handleInput recvBuffer received (requests ++ new) := by
    rw [← Server.taken_nil]
    exact ⟨[], rfl, framed.datagrams unread empty waits sized (by simp)⟩
  split
  case h_1 conn remote bytes refers _ =>
    split
    · exact refused
    split
    · exact refused
    split
    · refine ⟨[_], rfl, ?_⟩
      rw [Server.setCb_setCb]
      refine framed.datagrams unread rfl ?_ sized ?_
      · intro k also
        refine ⟨.inl rfl, .inl ⟨rfl, ?_⟩, Int.natCast_nonneg _⟩
        simp only [List.length_nil]
        omega
      · intro b member
        obtain ⟨byte, -, rfl⟩ : ∃ byte ∈ bytes, InByte.mk ⟨conn, some remote⟩ byte = b := by
          simpa using member
        exact Option.some_ne_none remote
    · exact refused
  case h_2 => exact refused

/-- A turn of the network process keeps the framing. -/
theorem runOnce (framed : server.Framed handleInput recvBuffer received requests)
    (accounted : server.Accounted received (requests.flatMap ShmBlock.request))
    (prefixStable : PrefixStable handleInput) (answers : NetAnswers)
    (pushed : (Event.runOnce fd answers).Pushed handleInput recvBuffer server) :
    (server.runOnce recvBuffer fd answers).2.Framed handleInput recvBuffer
      (received ++ (Event.runOnce fd answers).received recvBuffer server)
      (requests ++ (server.runOnce recvBuffer fd answers).2.recvq.drop server.recvq.length) := by
  cases udp : (server.fdinfo fd).flag.udp with
  | true =>
    obtain ⟨new, more, taken⟩ := framed.udpRecv (accounted.datagram fd udp) answers
    simpa [Server.runOnce, Event.received, udp, more] using taken
  | false =>
    cases listen : (server.fdinfo fd).flag.listen with
    | true =>
      obtain ⟨fewer, accepted⟩ := framed.acceptConn
        (fun b member => accounted.known b (List.mem_append_left _ member)) fd answers
      simpa [Server.runOnce, Event.received, udp, listen,
        List.drop_eq_nil_of_le fewer.length_le] using accepted
    | false =>
      obtain ⟨new, more, taken⟩ := framed.runConn accounted prefixStable answers udp listen pushed
      simpa [Event.received, udp, listen, more] using taken

end Server.Framed

/-- In every run so far the packets of each connection were pushed. -/
def History.Framed (handleInput : List UInt8 → Int) (recvBuffer : Nat) (history : History) :
    Prop :=
  history.server.Framed handleInput recvBuffer history.received history.requests

/-- Silent steps keep the framing. -/
theorem History.Framed.keeps {event : Event} (framed : history.Framed handleInput recvBuffer)
    (silent : event.received recvBuffer history.server = [])
    (kept : history.server.KeepsInput (ServerBench.step recvBuffer history.server event)) :
    (history.step recvBuffer event).Framed handleInput recvBuffer := by
  have none : (ServerBench.step recvBuffer history.server event).recvq.drop
      history.server.recvq.length = [] := List.drop_eq_nil_of_le kept.recvq.length_le
  have after := Server.Framed.keeps framed kept
  simpa [History.Framed, History.step, silent, none] using after

/-- Every step keeps the framing. -/
theorem History.Framed.step (framed : history.Framed handleInput recvBuffer)
    (accounted : history.Accounted) (prefixStable : PrefixStable handleInput) {event : Event}
    (pushed : event.Pushed handleInput recvBuffer history.server) :
    (history.step recvBuffer event).Framed handleInput recvBuffer := by
  cases event with
  | netStart fd flag timeout =>
    have silent : (Event.netStart fd flag timeout).received recvBuffer history.server = [] := rfl
    have more : (ServerBench.step recvBuffer history.server
        (.netStart fd flag timeout)).recvq.drop history.server.recvq.length = [] :=
      List.drop_length
    have after : (ServerBench.step recvBuffer history.server (.netStart fd flag timeout)).Framed
        handleInput recvBuffer history.received history.requests :=
      Server.Framed.added framed
        (fun b member => accounted.known b (List.mem_append_left _ member)) fd flag ⟨0, 0⟩ timeout
    simpa [History.Framed, History.step, silent, more] using after
  | runOnce fd answers =>
    exact Server.Framed.runOnce framed accounted prefixStable answers pushed
  | hangup fd => exact framed.keeps rfl .doCloseConn
  | sweep fd answers expired => exact framed.keeps rfl (.sweep answers expired)
  | pollWrite fd answers => exact framed.keeps rfl (.pollWrite answers)
  | check fd expired => exact framed.keeps rfl (.doCheckConn expired)
  | popRequest => exact framed.keeps rfl (.queues (List.drop_suffix _ _))
  | pushReply index processed pushed => exact framed.keeps rfl (.queues List.suffix_rfl)
  | dropRequest index => exact framed.keeps rfl (.queues List.suffix_rfl)
  | popReply answers => exact framed.keeps rfl (.popReply answers)

/-- No stream has begun at the start. -/
theorem History.initial_framed : History.initial.Framed handleInput recvBuffer where
  valid := by simp [History.initial, Server.initial]
  pushed _ := rfl
  short _ := Nat.zero_le _
  unread := by simp [History.initial, Server.initial]
  waits := by simp [History.initial, Server.initial]
  sized := by simp [History.initial, Server.initial]

/-- While all packets find room on `recvq`, those pushed for a connection are the parse of the
bytes received on it, with `RCVBUFMAX` as the bound on a packet, which only matters to a buffer
that is larger. While the connection is open its buffer holds the bytes after them, and `recv` has
room for more. -/
theorem queued_eq_parse (prefixStable : PrefixStable handleInput) (recvBuffer : Nat)
    (run : Reaches (History.step recvBuffer) (fun history event =>
      event.Allowed history.server ∧ event.Pushed handleInput recvBuffer history.server)
      .initial history) (k : Nat) :
    requestsOf k history.requests = frames (framer handleInput) (streamOf k history.received) ∧
      (recvBuffer ≤ rcvBufMax → requestsOf k history.requests =
        frames (parserOf handleInput) (streamOf k history.received)) ∧
      ∀ fd, history.server.socket fd = some k →
        streamOf k history.received = (requestsOf k history.requests).flatten ++
            (history.server.fdinfo fd).cb.unread.map InByte.byte ∧
          (0 < recvBuffer → ∀ memory cb,
            (history.server.fdinfo fd).cb.room recvBuffer memory = some cb →
              cb.recvptr + cb.unread.length < cb.rcvbufsz) := by
  have stable := framer_stable prefixStable
  obtain ⟨accounted, framed⟩ :
      history.Accounted ∧ history.Framed handleInput recvBuffer := by
    apply run.invariant
    · exact ⟨History.initial_accounted, History.initial_framed⟩
    · rintro history event ⟨accounted, framed⟩ ⟨-, pushed⟩
      exact ⟨accounted.step pushed.together, framed.step accounted prefixStable pushed⟩
  refine ⟨framed.pushed k, ?_, ?_⟩
  · intro small
    have short := framed.short k
    rw [Nat.max_eq_right small] at short
    rw [framed.pushed k]
    exact frames_limited prefixStable (by exact_mod_cast short)
  · intro fd refers
    have holds := accounted.buffers fd k refers
    refine ⟨?_, ?_⟩
    · rw [framed.unread fd k refers, framed.pushed k]
      exact (flatten_frames_append_rest stable _).symm
    · intro some memory cb found
      have base : cb.recvptr = 0 := (ConnBuf.room_spec found).2.2 holds.base
      have room := (framed.waits fd k refers).room_lt holds.fits found
        (ConnBuf.rcvbufsz_pos some found)
      omega

/-- A connection on descriptor 5 that receives three bytes in two parts; packets are two bytes
long. -/
def twoParts : History :=
  [.netStart 3 listening 0, acceptAt 5,
    .runOnce 5 ⟨true, none, none, [], .data [7], none, fun _ => 2, []⟩,
    .runOnce 5 ⟨true, none, none, [], .data [8, 9], none, fun _ => 2, [true]⟩].foldl
      (History.step 4096) .initial

/-- A packet of two bytes that comes in two parts. -/
theorem queued_eq_parse_two_parts :
    requestsOf 1 twoParts.requests = frames (framer fun _ => 2) (streamOf 1 twoParts.received) ∧
      (4096 ≤ rcvBufMax → requestsOf 1 twoParts.requests =
        frames (parserOf fun _ => 2) (streamOf 1 twoParts.received)) ∧
      ∀ fd, twoParts.server.socket fd = some 1 →
        streamOf 1 twoParts.received = (requestsOf 1 twoParts.requests).flatten ++
            (twoParts.server.fdinfo fd).cb.unread.map InByte.byte ∧
          (0 < 4096 → ∀ memory cb, (twoParts.server.fdinfo fd).cb.room 4096 memory = some cb →
            cb.recvptr + cb.unread.length < cb.rcvbufsz) := by
  refine queued_eq_parse (fun _ _ _ => rfl) 4096 ?_ 1
  refine .call (.call (.call (.call .refl ⟨rfl, trivial⟩) ⟨?_, ?_⟩) ⟨?_, ?_⟩) ⟨?_, ?_⟩
  · rintro _ ⟨⟩
    exact ⟨by decide, rfl⟩
  · exact fun some => absurd rfl some
  · rintro _ ⟨⟩
  · exact fun _ => ⟨rfl, by decide⟩
  · rintro _ ⟨⟩
  · exact fun _ => ⟨rfl, by decide⟩

end Taomee.ServerBench
