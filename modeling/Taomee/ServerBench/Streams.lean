import Taomee.ServerBench.SendBuffer

/-!
# serverbench: what was due on each connection

What was due on a connection so far is what was written to it and then what is pending, as long
as its send buffer is not lost.
-/

namespace Taomee.ServerBench

variable {server after : Server} {fd k : Nat} {info : FdInfo} {cb : ConnBuf}
  {out more : List OutByte}

/-! ## What was due on each connection -/

/-- What the kernel took on a connection. -/
def Server.writtenOn (server : Server) (k : Nat) : List OutByte :=
  (server.written.filter (·.peer = ⟨k, none⟩)).map Written.out

/-- What was due on a connection was written, or is pending. -/
structure FdInfo.Streams (info : FdInfo) (fd : Nat) (due written : List OutByte) : Prop where
  sockfd : info.sk.sockfd = fd
  listen : info.flag.listen = true → info.cb.sendlen = 0
  sound : info.cb.Sound
  stream : info.cb.Starved ∨ written ++ info.cb.pending = due

structure Server.Streams (server : Server) (due : Nat → List OutByte) : Prop where
  numbered : server.Numbered
  known : ∀ w ∈ server.written, w.peer.socket < server.sockets
  listening : ∀ fd, (server.fdinfo fd).flag.listen = true → server.socket fd ≠ none
  entries : ∀ fd k, server.socket fd = some k →
    (server.fdinfo fd).Streams fd (due k) (server.writtenOn k)
  prefixes : ∀ k, server.writtenOn k <+: due k

variable {due : Nat → List OutByte}

/-- What receiving leaves of an entry. -/
def FdInfo.output (info : FdInfo) : FdInfo :=
  { info with
    acceptFd := 0
    timeout := 0
    flag := { info.flag with fin := false }
    cb := { info.cb with rcvbufsz := 0, rcvprotlen := 0, recvptr := 0, unread := [] } }

theorem FdInfo.Streams.output {other : FdInfo} {due written : List OutByte}
    (streams : info.Streams fd due written) (same : other.output = info.output) :
    other.Streams fd due written := by
  have sk : other.sk = info.sk := congrArg (·.sk) same
  have listen : other.flag.listen = info.flag.listen := congrArg (·.flag.listen) same
  have sendlen : other.cb.sendlen = info.cb.sendlen := congrArg (·.cb.sendlen) same
  have sendptr : other.cb.sendptr = info.cb.sendptr := congrArg (·.cb.sendptr) same
  have sndbufsz : other.cb.sndbufsz = info.cb.sndbufsz := congrArg (·.cb.sndbufsz) same
  obtain ⟨sockfd, idle, ⟨unbuffered, allocated, fits⟩, stream⟩ := streams
  refine ⟨?_, ?_, ⟨?_, ?_, ?_⟩, ?_⟩
  · rwa [sk]
  · rwa [listen, sendlen]
  · rwa [sndbufsz, sendlen]
  · rwa [sendptr, sendlen, sndbufsz]
  · rwa [sendptr, sendlen]
  · unfold ConnBuf.Starved ConnBuf.pending
    rwa [sendptr, sendlen]

/-- Listening entries are not closed. -/
theorem Server.Keeps.listening {view : FdInfo → FdInfo} (kept : server.Keeps view after)
    (shows : ∀ {info other : FdInfo}, view other = view info →
      other.flag.listen = info.flag.listen)
    (before : ∀ fd, (server.fdinfo fd).flag.listen = true → server.socket fd ≠ none) (fd : Nat)
    (listen : (after.fdinfo fd).flag.listen = true) : after.socket fd ≠ none := by
  rcases kept.entry fd with ⟨-, zero⟩ | ⟨same, entry⟩
  · cases (shows zero).symm.trans listen
  · rw [same]
    exact before fd ((shows entry).symm.trans listen)

namespace Server.Streams

/-- Steps that write nothing keep the streams. -/
theorem keeps (streams : server.Streams due) (kept : server.Keeps FdInfo.output after)
    (written : after.written = server.written) : after.Streams due where
  numbered := streams.numbered.shrink kept
  known w member := by
    rw [written] at member
    rw [kept.sockets]
    exact streams.known w member
  listening := kept.listening (fun same => congrArg (·.flag.listen) same) streams.listening
  entries fd k refers := by
    obtain ⟨before, same⟩ := kept.was refers
    rw [Server.writtenOn, written]
    exact (streams.entries fd k before).output same
  prefixes k := by
    rw [Server.writtenOn, written]
    exact streams.prefixes k

end Server.Streams

/-- What is sent is written on its own connection. -/
theorem Server.sent_writtenOn (server : Server) (fd k : Nat) (out : List OutByte) (cb : ConnBuf) :
    (server.sent fd out cb).writtenOn k =
      server.writtenOn k ++ if server.socket fd = some k then out else [] := by
  unfold Server.sent Server.writtenOn Server.write Server.setCb Server.setInfo
  cases refers : server.socket fd with
  | none => simp
  | some conn =>
    by_cases same : conn = k
    · simp [same, List.filter_map, Function.comp_def]
    · simp [same]

@[simp] theorem Server.doCloseConn_written : (server.doCloseConn fd).written = server.written := by
  unfold Server.doCloseConn
  dsimp only
  split <;> rfl

/-- Closing writes nothing. -/
theorem Server.doCloseConn_writtenOn (server : Server) (fd k : Nat) :
    (server.doCloseConn fd).writtenOn k = server.writtenOn k := by
  rw [Server.writtenOn, Server.doCloseConn_written, Server.writtenOn]

theorem Server.doCloseConn_eq (valid : (server.fdinfo fd).flag.valid = true)
    (listen : (server.fdinfo fd).flag.listen = false) :
    server.doCloseConn fd =
      { server.setInfo fd .zero with socket := Function.update server.socket fd none } := by
  simp [Server.doCloseConn, valid, listen]

theorem Server.doCloseConn_listen (listen : (server.fdinfo fd).flag.listen = true) :
    server.doCloseConn fd = server := by
  simp [Server.doCloseConn, listen]

/-- More is due on the connection of a descriptor. -/
def Server.handOver (server : Server) (fd : Nat) (more : List OutByte)
    (due : Nat → List OutByte) (k : Nat) : List OutByte :=
  if server.socket fd = some k then due k ++ more else due k

namespace Server.Streams

/-- What goes out is the front of what is due. -/
theorem front (streams : server.Streams due) (cb : ConnBuf)
    (front : out = [] ∨ ¬(server.fdinfo fd).cb.Starved ∧
      out <+: (server.fdinfo fd).cb.pending ++ more) (k : Nat) :
    (server.sent fd out cb).writtenOn k <+: server.handOver fd more due k := by
  rw [Server.sent_writtenOn, Server.handOver]
  split
  case isFalse => simpa using streams.prefixes k
  case isTrue refers =>
    rcases front with rfl | ⟨fed, front⟩
    · simpa using (streams.prefixes k).trans (List.prefix_append _ _)
    · have stream := (streams.entries fd k refers).stream.resolve_left fed
      rw [← stream, List.append_assoc]
      exact (List.prefix_append_right_inj _).mpr front

/-- What is handed over is due on its connection. -/
theorem handed (streams : server.Streams due) (connected : ∀ k, server.socket fd = some k →
      (server.fdinfo fd).flag.valid = true ∧ (server.fdinfo fd).flag.listen = false)
    (handed : server.Handed fd more after) : after.Streams (server.handOver fd more due) := by
  have known : ∀ out cb, ∀ w ∈ (server.sent fd out cb).written, w.peer.socket < server.sockets := by
    intro out cb w member
    rcases List.mem_append.mp member with old | new
    · exact streams.known w old
    · cases refers : server.socket fd with
      | none => simp [refers] at new
      | some conn =>
        obtain ⟨byte, -, rfl⟩ : ∃ byte ∈ out, Written.mk ⟨conn, none⟩ byte = w := by
          simpa [refers] using new
        exact streams.numbered.below fd conn refers
  have listening : ∀ out cb other,
      ((server.sent fd out cb).fdinfo other).flag.listen = true → server.socket other ≠ none := by
    intro out cb other listen
    refine streams.listening other ?_
    by_cases here : other = fd
    · subst here
      simpa using listen
    · simpa [Server.sent, Server.setCb, Server.setInfo, here] using listen
  have others : ∀ {out cb other}, ∀ k, other ≠ fd → server.socket other = some k →
      (server.fdinfo other).Streams other (server.handOver fd more due k)
        ((server.sent fd out cb).writtenOn k) := by
    intro out cb other k apart refers
    have foreign : server.socket fd ≠ some k :=
      fun also => apart (streams.numbered.single other fd k refers also)
    simpa [Server.sent_writtenOn, Server.handOver, foreign] using streams.entries other k refers
  cases handed with
  | @kept out cb fed front sound stream =>
    refine ⟨⟨streams.numbered.below, streams.numbered.single⟩, known out cb, listening out cb, ?_,
      streams.front cb (.inr ⟨fed, front⟩)⟩
    intro other k refers
    by_cases here : other = fd
    · subst here
      have refers : server.socket other = some k := refers
      have entry := streams.entries other k refers
      rw [Server.sent_same, Server.sent_writtenOn, Server.handOver, if_pos refers, if_pos refers]
      refine ⟨entry.sockfd, ?_, sound, stream.imp_right ?_⟩
      · intro listen
        cases (connected k refers).2.symm.trans listen
      · intro same
        have before := entry.stream.resolve_left fed
        rw [← before, List.append_assoc, List.append_assoc, ← same]
    · simpa [Server.sent, Server.setCb, Server.setInfo, here] using others k here refers
  | @closed out cb front =>
    have closes : Server.Keeps id (server.sent fd out cb)
        ((server.sent fd out cb).doCloseConn fd) := .doCloseConn
    have numbered : (server.sent fd out cb).Numbered :=
      ⟨streams.numbered.below, streams.numbered.single⟩
    refine ⟨numbered.shrink closes, ?_,
      closes.listening (fun same => congrArg (·.flag.listen) same) (listening out cb), ?_, ?_⟩
    · intro w member
      rw [closes.sockets]
      exact known out cb w (by simpa using member)
    · intro other k refers
      obtain ⟨before, same⟩ := closes.was refers
      have apart : other ≠ fd := by
        rintro rfl
        obtain ⟨valid, listen⟩ := connected k before
        rw [Server.doCloseConn_eq (by simpa using valid) (by simpa using listen)] at refers
        simp at refers
      rw [Server.doCloseConn_writtenOn]
      rw [id_eq, id_eq] at same
      rw [same]
      simpa [Server.sent, Server.setCb, Server.setInfo, apart] using others k apart before
    · intro k
      rw [Server.doCloseConn_writtenOn]
      exact streams.front cb front k

end Server.Streams

/-! ## A greeting -/

/-- Unless the connection is closed at once, `handle_open` sets no more bytes than there are,
and `send` takes all of them or none. -/
def Greeting.Whole (greeting : Greeting) (answers : List SendResult) : Prop :=
  greeting.retCode = -1 ∨ greeting.sendlen > rcvBufMax ∨
    greeting.sendlen ≤ greeting.sendptr.length ∧
      ((sendLoop greeting.sendlen.toNat 0 answers).2 = 0 ∨
        (sendLoop greeting.sendlen.toNat 0 answers).2 = greeting.sendlen.toNat)

/-- A whole greeting is handed over. -/
theorem Server.greet_handed {newfd : Nat} (fresh : (server.fdinfo newfd).cb.sendlen = 0)
    (listen : (server.fdinfo fd).flag.listen = true) (apart : fd ≠ newfd)
    (opened : server.socket newfd ≠ none) (greeting : Greeting) (answers : List SendResult)
    (whole : greeting.Whole answers) :
    server.Handed newfd greeting.bytes (server.greet fd newfd greeting answers).2 := by
  have refused : server.Handed newfd greeting.bytes (server.doCloseConn newfd) := by
    have closed : server.Handed newfd greeting.bytes
        ((server.sent newfd [] (server.fdinfo newfd).cb).doCloseConn newfd) := .closed (.inl rfl)
    rwa [Server.sent_unchanged, Server.write_nil] at closed
  have fed : ¬(server.fdinfo newfd).cb.Starved := fun starved =>
    absurd starved.2 (by rw [fresh]; exact Nat.lt_irrefl 0)
  have pending : (server.fdinfo newfd).cb.pending = [] := by simp [ConnBuf.pending, fresh]
  unfold Server.greet
  split
  · exact refused
  split
  · exact refused
  case _ accepts valid =>
    obtain ⟨within, takes⟩ : greeting.sendlen ≤ greeting.sendptr.length ∧
        ((sendLoop greeting.sendlen.toNat 0 answers).2 = 0 ∨
          (sendLoop greeting.sendlen.toNat 0 answers).2 = greeting.sendlen.toNat) := by
      rcases whole with failed | long | whole
      · exact absurd failed accepts
      · exact absurd (.inr long) valid
      · exact whole
    have bytes : greeting.bytes =
        (greeting.sendptr.map (OutByte.mk .greeting)).take greeting.sendlen.toNat := by
      rw [Greeting.bytes, List.map_take]
    have long : ((greeting.sendptr.map (OutByte.mk .greeting)).take
        greeting.sendlen.toNat).length = greeting.sendlen.toNat := by
      rw [List.length_take, List.length_map]
      omega
    generalize greeting.sendlen.toNat = length at takes bytes long ⊢
    generalize greeting.sendptr.map (OutByte.mk .greeting) = buf at bytes long ⊢
    dsimp only
    have sound : ∀ rest ≤ length, ConnBuf.Sound { (server.fdinfo newfd).cb with
        sendptr := some buf, sendlen := rest, sndbufsz := length } := by
      intro rest le
      refine ⟨?_, by simp, ?_⟩
      · rintro rfl
        exact Nat.le_zero.mp le
      · rintro _ ⟨⟩
        rw [List.length_take] at long
        dsimp only
        omega
    split
    case isTrue some =>
      simp only [Server.sendPending, Server.setCb_same]
      generalize greeted : server.setCb newfd { (server.fdinfo newfd).cb with
        sendptr := Option.some buf, sendlen := length, sndbufsz := length } = filled
      obtain ⟨count, le, writes, counts, all⟩ :=
        Server.safeTcpSendN_eq filled newfd (buf.take length) answers
      rw [long] at counts all
      replace all := all (by rw [← greeted]; exact opened)
      rw [writes]
      rcases counts with sent | ⟨failed, below⟩
      · rw [sent, if_neg (by omega), Int.toNat_natCast, Server.write_setCb, ← greeted,
          Server.setCb_sent, Server.write_fdinfo, Server.setCb_same]
        refine .kept fed ?_ (sound (length - count) (Nat.sub_le _ _)) (.inr ?_)
        · rw [pending, bytes, List.nil_append]
          exact List.take_prefix _ _
        · rw [pending, bytes, List.nil_append]
          rcases takes with none | whole
          · simp [all, none, ConnBuf.pending]
          · simp [all, whole, ConnBuf.pending, List.take_take]
      · have none : count = 0 := by omega
        have silent : (filled.fdinfo fd).flag.listen = true := by
          rw [← greeted]
          simpa [Server.setCb, Server.setInfo, apart] using listen
        rw [if_pos failed, none, List.take_zero, Server.write_nil,
          Server.doCloseConn_listen silent, ← greeted, ← Server.sent_nil]
        refine .kept fed List.nil_prefix (sound length (Nat.le_refl _)) (.inr ?_)
        rw [pending, bytes]
        rfl
    case isFalse none =>
      rw [← Server.sent_nil]
      refine .kept fed List.nil_prefix (sound length (Nat.le_refl _)) (.inr ?_)
      rw [pending, bytes]
      rfl

namespace Server.Streams

/-- Nothing was written yet to a socket that is not open yet. -/
theorem unopened (streams : server.Streams due) {k : Nat} (later : server.sockets ≤ k) :
    server.writtenOn k = [] := by
  refine List.map_eq_nil_iff.mpr (List.filter_eq_nil_iff.mpr ?_)
  intro w member same
  have below := streams.known w member
  simp only [decide_eq_true_eq] at same
  rw [same] at below
  exact absurd below (Nat.not_lt.mpr later)

theorem congr {other : Nat → List OutByte} (streams : server.Streams due)
    (same : ∀ k < server.sockets, other k = due k) : server.Streams other where
  numbered := streams.numbered
  known := streams.known
  listening := streams.listening
  entries fd k refers := by
    rw [same k (streams.numbered.below fd k refers)]
    exact streams.entries fd k refers
  prefixes k := by
    by_cases below : k < server.sockets
    · rw [same k below]
      exact streams.prefixes k
    · rw [streams.unopened (Nat.not_lt.mp below)]
      exact List.nil_prefix

/-- Nothing is due on a new connection. -/
theorem added (streams : server.Streams due) (fresh : due server.sockets = []) (fd : Nat)
    (flag : Flag) (remote : Addr) (timeout : Int) :
    ((server.openSocket fd).doAddConn fd flag remote timeout).Streams due where
  numbered := streams.numbered.added flag remote timeout
  known w member := Nat.lt_succ_of_lt (streams.known w member)
  listening other listen := by
    change Function.update server.socket fd (some server.sockets) other ≠ none
    by_cases here : other = fd
    · simp [here]
    · simpa [here] using streams.listening other (by
        simpa [Server.doAddConn, Server.openSocket, Server.setInfo, here] using listen)
  entries other k refers := by
    change Function.update server.socket fd (some server.sockets) other = some k at refers
    change FdInfo.Streams _ other (due k) (server.writtenOn k)
    by_cases here : other = fd
    · subst here
      obtain rfl : server.sockets = k := by simpa using refers
      rw [fresh, streams.unopened (Nat.le_refl _)]
      refine ⟨?_, ?_, ⟨?_, ?_, ?_⟩, .inr ?_⟩ <;>
        simp [Server.doAddConn, FdInfo.zero, ConnBuf.zero, ConnBuf.pending]
    · simpa [Server.doAddConn, Server.openSocket, Server.setInfo, here] using
        streams.entries other k (by simpa [here] using refers)
  prefixes := streams.prefixes

/-- The greeting is due on the socket that is opened. -/
theorem acceptConn (streams : server.Streams due) (fd : Nat) (answers : NetAnswers)
    (listen : (server.fdinfo fd).flag.listen = true)
    (free : ∀ newfd ∈ answers.accepted.map Prod.fst, 0 < newfd ∧ server.socket newfd = none)
    (whole : ∀ greeting ∈ answers.greeting, greeting.Whole answers.sends) :
    (server.acceptConn fd answers).2.Streams (Function.update due server.sockets
      (answers.greeting.elim [] Greeting.bytes)) := by
  have later : ∀ bytes : List OutByte,
      server.Streams (Function.update due server.sockets bytes) := by
    intro bytes
    refine streams.congr ?_
    intro k below
    simp [Nat.ne_of_lt below]
  unfold Server.acceptConn Server.doOpenConn
  cases accepted : answers.accepted with
  | none => exact later _
  | some pair =>
    obtain ⟨newfd, remote⟩ := pair
    obtain ⟨-, closed⟩ := free newfd (by simp [accepted])
    have apart : fd ≠ newfd := by
      rintro rfl
      exact streams.listening fd listen closed
    have added := (later []).added (by simp) newfd .zero remote (server.fdinfo fd).timeout
    dsimp only
    generalize made : ((server.openSocket newfd).doAddConn newfd .zero remote
      (server.fdinfo fd).timeout).setInfo newfd { (((server.openSocket newfd).doAddConn newfd .zero
        remote (server.fdinfo fd).timeout).fdinfo newfd) with acceptFd := fd } = opened
    have streams : opened.Streams (Function.update due server.sockets []) := by
      rw [← made]
      exact added.keeps (.setInfo rfl) rfl
    have entry : opened.fdinfo newfd = { FdInfo.zero with
        id := server.nextId
        acceptFd := fd
        sk := ⟨newfd, remote⟩
        timeout := (server.fdinfo fd).timeout
        flag := { Flag.zero with valid := true } } := by
      rw [← made]
      simp [Server.doAddConn, Server.openSocket, Flag.zero]
    have socket : opened.socket = Function.update server.socket newfd (some server.sockets) := by
      rw [← made]
      rfl
    have still : (opened.fdinfo fd).flag.listen = true := by
      rw [← made]
      simpa [Server.doAddConn, Server.openSocket, Server.setInfo, apart] using listen
    cases answered : answers.greeting with
    | none => exact streams
    | some greeting =>
      have handed := Server.greet_handed (by rw [entry]; rfl) still apart
        (by simp [socket]) greeting answers.sends (whole greeting answered)
      have due : opened.handOver newfd greeting.bytes (Function.update due server.sockets []) =
          Function.update due server.sockets greeting.bytes := by
        funext k
        by_cases same : k = server.sockets
        · simp [Server.handOver, socket, same]
        · simp [Server.handOver, socket, same, Ne.symm same]
      rw [Option.elim_some, ← due]
      exact streams.handed (fun k _ => by rw [entry]; exact ⟨rfl, rfl⟩) handed

end Server.Streams

/-! ## Pending bytes and datagrams -/

/-- Nothing can be written on a descriptor that is closed. -/
theorem Server.writePending_closed (closed : server.socket fd = none) (answers : List SendResult) :
    (server.writePending fd answers).2 = server := by
  unfold Server.writePending Server.doWriteConn Server.sendPending Server.safeTcpSendN
  cases (server.fdinfo fd).cb.sendptr with
  | none => grind
  | some buf => grind

/-- `do_write_conn` for a connection, and `do_close_conn` if it fails. -/
theorem Server.Streams.pollWrite {owners : List Owner}
    (streams : server.Streams due) (routed : server.Routed owners) (fd : Nat)
    (answers : List SendResult) :
    (server.pollWrite fd answers).Streams due ∧ server.SameQueues (server.pollWrite fd answers) := by
  cases refers : server.socket fd with
  | none =>
    unfold Server.pollWrite
    dsimp only
    rw [Server.writePending_closed refers answers]
    split
    · exact ⟨streams.keeps .doCloseConn (by simp), .doCloseConn⟩
    · exact ⟨streams, rfl, rfl, rfl⟩
  | some k =>
    have entry := streams.entries fd k refers
    cases listen : (server.fdinfo fd).flag.listen with
    | true =>
      have idle := entry.listen listen
      have same : server.pollWrite fd answers = server := by
        simp [Server.pollWrite, Server.writePending, idle]
      rw [same]
      exact ⟨streams, rfl, rfl, rfl⟩
    | false =>
      have handed := Server.writePending_handed entry.sound answers
      have unchanged : server.handOver fd [] due = due := by
        funext other
        simp [Server.handOver]
      refine ⟨?_, handed.sameQueues⟩
      rw [← unchanged]
      exact streams.handed
        (fun conn also => ⟨((routed.entries fd).opened conn also).1, listen⟩) handed

theorem Server.Streams.doCheckConn (streams : server.Streams due)
    (fd : Nat) (expired : Bool) : (server.doCheckConn fd expired).Streams due := by
  unfold Server.doCheckConn
  dsimp only
  split
  · exact streams.keeps .doCloseConn (by simp)
  · split
    · exact streams.keeps .doCloseConn (by simp)
    · exact streams

/-- What the loop with `EPOLL_MODE` does to a descriptor. -/
theorem Server.sweep_cases (server : Server) (fd : Nat) (answers : List SendResult)
    (expired : Bool) :
    server.sweep fd answers expired = server ∨
      server.sweep fd answers expired = server.pollWrite fd answers ∨
      server.sweep fd answers expired = (server.pollWrite fd answers).doCheckConn fd expired := by
  unfold Server.sweep Server.pollWrite
  dsimp only
  split
  · split
    · exact .inr (.inl rfl)
    · exact .inr (.inr rfl)
  · exact .inl rfl

/-- The pass over pending connections writes what is due. -/
theorem Server.Streams.sweep {owners : List Owner}
    (streams : server.Streams due) (routed : server.Routed owners) (fd : Nat)
    (answers : List SendResult) (expired : Bool) :
    (server.sweep fd answers expired).Streams due ∧
      server.SameQueues (server.sweep fd answers expired) := by
  obtain ⟨written, queues⟩ := streams.pollWrite routed fd answers
  rcases server.sweep_cases fd answers expired with same | same | same
  · rw [same]
    exact ⟨streams, rfl, rfl, rfl⟩
  · rw [same]
    exact ⟨written, queues⟩
  · rw [same]
    exact ⟨written.doCheckConn fd expired, queues.trans (.doCheckConn expired)⟩

theorem Server.Streams.sendUdpBlock (streams : server.Streams due)
    (block : ShmBlock) (sendto : Bool) : (server.sendUdpBlock block sendto).2.Streams due := by
  unfold Server.sendUdpBlock
  split
  · exact streams
  split
  · exact streams
  split
  case h_1 conn refers =>
    have same : ∀ k, Server.writtenOn { server with
        written := server.written ++
          block.out.map (Written.mk ⟨conn, some block.skinfo.remote⟩) } k =
        server.writtenOn k := by
      simp [Server.writtenOn]
    refine ⟨⟨streams.numbered.below, streams.numbered.single⟩, ?_, streams.listening, ?_, ?_⟩
    · intro w member
      rcases List.mem_append.mp member with old | new
      · exact streams.known w old
      · obtain ⟨byte, -, rfl⟩ := List.mem_map.mp new
        exact streams.numbered.below _ conn refers
    · intro fd k also
      rw [same]
      exact streams.entries fd k also
    · intro k
      rw [same]
      exact streams.prefixes k
  case h_2 => exact streams

theorem Server.markFin_keeps (fd : Nat) (type : BlockType) :
    server.Keeps FdInfo.output (server.markFin fd type) ∧
      (server.markFin fd type).written = server.written ∧
      ((server.markFin fd type).fdinfo fd).cb = (server.fdinfo fd).cb ∧
      ((server.markFin fd type).fdinfo fd).flag.valid = (server.fdinfo fd).flag.valid := by
  unfold Server.markFin
  dsimp only
  split
  · exact ⟨.setInfo rfl, rfl, by simp, by simp⟩
  · exact ⟨.refl, rfl, rfl, rfl⟩

end Taomee.ServerBench
