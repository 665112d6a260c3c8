import Taomee.ServerBench.RecvBuffer

/-!
# serverbench: the send buffer

Three places send on a connection: `run_once` its greeting, `schedule_output` a reply, and
`do_write_conn` what is pending. What is handed to a connection goes out behind the pending
bytes, or becomes pending itself, or the connection is closed or its buffer lost.
-/

namespace Taomee.ServerBench

variable {server after : Server} {fd : Nat} {cb next : ConnBuf} {block : ShmBlock}
  {out more : List OutByte}

/-! ## The send buffer -/

/-- The `sendlen` bytes at `sendptr`. -/
def ConnBuf.pending (cb : ConnBuf) : List OutByte := (cb.sendptr.getD []).take cb.sendlen

/-- The buffer is lost while bytes of it are still to be sent. -/
def ConnBuf.Starved (cb : ConnBuf) : Prop := cb.sendptr = none ∧ 0 < cb.sendlen

structure ConnBuf.Sound (cb : ConnBuf) : Prop where
  unbuffered : cb.sndbufsz = 0 → cb.sendlen = 0
  allocated : cb.sendptr = none → cb.sendlen = 0 → cb.sndbufsz = 0
  fits : ∀ buf, cb.sendptr = some buf → cb.sendlen ≤ buf.length

/-- What `send` takes of `out` on a descriptor. -/
def Server.write (server : Server) (fd : Nat) (out : List OutByte) : Server :=
  { server with written := server.written ++
      (server.socket fd).elim [] fun k => out.map (Written.mk ⟨k, none⟩) }

/-- `out` is sent on a descriptor, whose buffer is `cb` afterwards. -/
def Server.sent (server : Server) (fd : Nat) (out : List OutByte) (cb : ConnBuf) : Server :=
  (server.write fd out).setCb fd cb

@[simp] theorem Server.write_socket : (server.write fd out).socket = server.socket := rfl

@[simp] theorem Server.write_fdinfo : (server.write fd out).fdinfo = server.fdinfo := rfl

@[simp] theorem Server.sent_socket : (server.sent fd out cb).socket = server.socket := rfl

@[simp] theorem Server.sent_same :
    (server.sent fd out cb).fdinfo fd = { server.fdinfo fd with cb := cb } :=
  Server.setCb_same

@[simp] theorem Server.write_nil : server.write fd [] = server := by
  unfold Server.write
  cases server.socket fd <;> simp

theorem Server.write_setCb : (server.write fd out).setCb fd cb = server.sent fd out cb := rfl

theorem Server.sent_nil : server.sent fd [] cb = server.setCb fd cb := by
  rw [Server.sent, Server.write_nil]

theorem Server.sent_unchanged : server.sent fd out (server.fdinfo fd).cb = server.write fd out := by
  simp [Server.sent, Server.setCb, Server.setInfo, Server.write]

/-- Bytes sent one after the other are sent together. -/
theorem Server.sent_sent {later : List OutByte} :
    (server.sent fd out cb).sent fd later next = server.sent fd (out ++ later) next := by
  unfold Server.sent Server.write Server.setCb Server.setInfo
  cases server.socket fd <;> simp

/-- Only the last buffer stays. -/
theorem Server.setCb_sent : (server.setCb fd cb).sent fd out next = server.sent fd out next := by
  rw [← Server.sent_nil, Server.sent_sent, List.nil_append]

/-- A buffer that is fed holds as many bytes as it says. -/
theorem ConnBuf.Sound.length (sound : cb.Sound) (fed : ¬cb.Starved) :
    cb.pending.length = cb.sendlen := by
  unfold ConnBuf.pending
  cases points : cb.sendptr with
  | none =>
    have nothing : cb.sendlen = 0 := Nat.eq_zero_of_not_pos fun some => fed ⟨points, some⟩
    simp [nothing]
  | some buf => exact List.length_take_of_le (sound.fits buf points)

/-! ## Sending -/

/-- The loop of `safe_tcp_send_n` counts what the kernel took, or fails. -/
theorem sendLoop_spec (total : Nat) (answers : List SendResult) :
    ∀ {sendBytes : Nat}, sendBytes ≤ total →
      (sendLoop total sendBytes answers).2 ≤ total ∧
      ((sendLoop total sendBytes answers).1 = (sendLoop total sendBytes answers).2 ∨
        (sendLoop total sendBytes answers).1 = -1 ∧
          (sendLoop total sendBytes answers).2 < total) := by
  induction answers with
  | nil => exact fun within => ⟨within, .inl rfl⟩
  | cons result rest ih =>
    intro sendBytes within
    unfold sendLoop
    split
    case isTrue below =>
      cases result with
      | sent count =>
        dsimp only
        split
        · exact ⟨within, .inr ⟨rfl, below⟩⟩
        · exact ih (by omega)
      | eintr => exact ih within
      | eagain => exact ⟨within, .inl rfl⟩
      | error => exact ⟨within, .inr ⟨rfl, below⟩⟩
    case isFalse => exact ⟨within, .inl rfl⟩

/-- Some of the first bytes are written, and the answer is their number unless it is -1. -/
theorem Server.safeTcpSendN_eq (server : Server) (fd : Nat) (buf : List OutByte)
    (answers : List SendResult) :
    ∃ count, count ≤ buf.length ∧
      (server.safeTcpSendN fd buf answers).2 = server.write fd (buf.take count) ∧
      ((server.safeTcpSendN fd buf answers).1 = count ∨
        (server.safeTcpSendN fd buf answers).1 = -1 ∧ count < buf.length) ∧
      (server.socket fd ≠ none → count = (sendLoop buf.length 0 answers).2) := by
  unfold Server.safeTcpSendN Server.write
  cases refers : server.socket fd with
  | none =>
    refine ⟨0, Nat.zero_le _, by simp, ?_, by simp⟩
    dsimp only
    split
    · exact .inl rfl
    · exact .inr ⟨rfl, by omega⟩
  | some conn =>
    obtain ⟨within, counts⟩ := sendLoop_spec buf.length answers (Nat.zero_le _)
    exact ⟨_, within, rfl, counts, fun _ => rfl⟩

/-- `cb` after so many of its bytes went out. -/
def ConnBuf.dropSent (cb : ConnBuf) (count : Nat) : ConnBuf :=
  { cb with sendptr := cb.sendptr.map (List.drop count), sendlen := cb.sendlen - count }

@[simp] theorem ConnBuf.dropSent_zero : cb.dropSent 0 = cb := by
  unfold ConnBuf.dropSent
  cases cb with
  | mk _ _ _ _ sendptr _ _ => cases sendptr <;> simp

/-- What was sent is dropped from the front. -/
theorem ConnBuf.Sound.dropSent (sound : cb.Sound) (fed : ¬cb.Starved) (count : Nat) :
    (cb.dropSent count).Sound ∧ ¬(cb.dropSent count).Starved ∧
      (cb.dropSent count).pending = cb.pending.drop count := by
  obtain ⟨unbuffered, allocated, fits⟩ := sound
  unfold ConnBuf.Starved at fed ⊢
  unfold ConnBuf.dropSent ConnBuf.pending
  cases points : cb.sendptr with
  | none =>
    refine ⟨⟨?_, ?_, ?_⟩, ?_, ?_⟩ <;> simp_all
  | some buf =>
    have within := fits buf points
    refine ⟨⟨?_, ?_, ?_⟩, ?_, ?_⟩
    · intro none
      simp [unbuffered none]
    · simp
    · intro left same
      obtain rfl : buf.drop count = left := by simpa using same
      rw [List.length_drop]
      dsimp only
      omega
    · simp
    · simp [List.drop_take]

/-- Pending bytes go out from the front, or the connection is to be closed. -/
theorem Server.writePending_eq (sound : (server.fdinfo fd).cb.Sound) (answers : List SendResult) :
    ∃ count, count ≤ (server.fdinfo fd).cb.pending.length ∧
      (((server.writePending fd answers).1 = -1 ∧
          (server.writePending fd answers).2 =
            server.write fd ((server.fdinfo fd).cb.pending.take count) ∧
          0 < (server.fdinfo fd).cb.sendlen) ∨
        (0 ≤ (server.writePending fd answers).1 ∧ ¬(server.fdinfo fd).cb.Starved ∧
          (server.writePending fd answers).2 =
            server.sent fd ((server.fdinfo fd).cb.pending.take count)
              ((server.fdinfo fd).cb.dropSent count) ∧
          (server.socket fd ≠ none →
            count = (sendLoop (server.fdinfo fd).cb.sendlen 0 answers).2))) := by
  unfold Server.writePending Server.doWriteConn Server.sendPending
  split
  case isFalse idle =>
    have nothing : (server.fdinfo fd).cb.sendlen = 0 := by omega
    refine ⟨0, Nat.zero_le _, .inr ⟨Int.le_refl 0, fun starved => idle starved.2, ?_, ?_⟩⟩
    · simp [Server.sent_unchanged]
    · intro
      rw [nothing]
      exact (Nat.le_zero.mp (sendLoop_spec 0 answers (Nat.zero_le 0)).1).symm
  case isTrue some =>
    cases points : (server.fdinfo fd).cb.sendptr with
    | none => exact ⟨0, Nat.zero_le _, .inl ⟨rfl, by simp, some⟩⟩
    | some buf =>
      have pending : (server.fdinfo fd).cb.pending = buf.take (server.fdinfo fd).cb.sendlen := by
        simp [ConnBuf.pending, points]
      have length := List.length_take_of_le (sound.fits buf points)
      obtain ⟨count, within, writes, counts, all⟩ :=
        Server.safeTcpSendN_eq server fd (buf.take (server.fdinfo fd).cb.sendlen) answers
      refine ⟨count, pending ▸ within, ?_⟩
      rw [pending]
      dsimp only
      rcases counts with sent | ⟨failed, -⟩
      · refine .inr ⟨?_, ?_, ?_, ?_⟩
        · split
          · exact sent ▸ Int.natCast_nonneg count
          · exact sent ▸ Int.natCast_nonneg count
        · rintro ⟨none, -⟩
          cases none.symm.trans points
        · rw [sent, writes]
          split
          · rfl
          · have none : count = 0 := by omega
            simp [writes, none, Server.sent_unchanged]
        · rwa [length] at all
      · rw [if_neg (by omega)]
        exact .inl ⟨failed, writes, some⟩

theorem Server.setCb_self : server.setCb fd (server.fdinfo fd).cb = server := by
  simp [Server.setCb, Server.setInfo]

/-- What is left of a block goes behind the pending bytes, or the buffer is lost while bytes of
it are still to be sent. -/
theorem Server.mergeBuffer_eq (server : Server) (sound : (server.fdinfo fd).cb.Sound)
    (fed : ¬(server.fdinfo fd).cb.Starved) (left : List OutByte) (memory : Bool)
    (kept : memory = true ∨ 0 < (server.fdinfo fd).cb.sendlen ∨
      left.length ≤ (server.fdinfo fd).cb.sndbufsz) :
    ∃ next, (server.mergeBuffer fd left memory).2 = server.setCb fd next ∧ next.Sound ∧
      (next.Starved ∨ next.pending = (server.fdinfo fd).cb.pending ++ left) := by
  obtain ⟨unbuffered, allocated, fits⟩ := sound
  have length := ConnBuf.Sound.length ⟨unbuffered, allocated, fits⟩ fed
  unfold Server.mergeBuffer
  dsimp only
  split
  case isTrue nothing =>
    rw [List.length_eq_zero_iff.mp nothing, List.append_nil]
    exact ⟨_, Server.setCb_self.symm, ⟨unbuffered, allocated, fits⟩, .inr rfl⟩
  case isFalse some =>
  split
  case isTrue none =>
    have idle := unbuffered none
    split
    · refine ⟨_, rfl, ⟨?_, ?_, ?_⟩, .inr ?_⟩
      · exact fun zero => absurd zero some
      · simp
      · intro buf same
        obtain rfl : left = buf := by simpa using same
        simp [idle]
      · simp [ConnBuf.pending, idle]
    · simp_all
  case isFalse buffered =>
  split
  case isTrue short =>
    split
    · refine ⟨_, rfl, ⟨?_, ?_, ?_⟩, .inr ?_⟩
      · exact id
      · simp
      · intro buf same
        obtain rfl : (server.fdinfo fd).cb.pending ++ left = buf := by
          simpa [ConnBuf.pending] using same
        simp [length]
      · change ((server.fdinfo fd).cb.pending ++ left).take _ = _
        rw [List.take_of_length_le (by simp [length])]
    · have waiting : 0 < (server.fdinfo fd).cb.sendlen := by
        rcases kept with memory | waiting | room
        · contradiction
        · exact waiting
        · omega
      refine ⟨_, rfl, ⟨?_, ?_, ?_⟩, .inl ⟨rfl, waiting⟩⟩
      · exact fun none => absurd none buffered
      · exact fun _ idle => absurd waiting (by simpa using idle)
      · simp
  case isFalse roomy =>
    cases points : (server.fdinfo fd).cb.sendptr with
    | none =>
      have idle : (server.fdinfo fd).cb.sendlen = 0 :=
        Nat.eq_zero_of_not_pos fun waiting => fed ⟨points, waiting⟩
      exact absurd (allocated points idle) buffered
    | some buf =>
      have pending : (server.fdinfo fd).cb.pending = buf.take (server.fdinfo fd).cb.sendlen := by
        simp [ConnBuf.pending, points]
      refine ⟨_, rfl, ⟨?_, ?_, ?_⟩, .inr ?_⟩
      · exact fun none => absurd none buffered
      · simp
      · intro joined same
        obtain rfl : (server.fdinfo fd).cb.pending ++ left = joined := by
          simpa [pending] using same
        simp [length]
      · rw [← pending]
        change ((server.fdinfo fd).cb.pending ++ left).take _ = _
        rw [List.take_of_length_le (by simp [length])]

/-! ## A reply -/

/-- What becomes of a connection that is handed `more`: it goes out behind the pending bytes or
becomes pending itself, unless the buffer is lost, or the connection is closed. -/
inductive Server.Handed (server : Server) (fd : Nat) (more : List OutByte) : Server → Prop where
  | kept {out : List OutByte} {cb : ConnBuf} (fed : ¬(server.fdinfo fd).cb.Starved)
      (front : out <+: (server.fdinfo fd).cb.pending ++ more) (sound : cb.Sound)
      (stream : cb.Starved ∨ out ++ cb.pending = (server.fdinfo fd).cb.pending ++ more) :
      server.Handed fd more (server.sent fd out cb)
  | closed {out : List OutByte} {cb : ConnBuf}
      (front : out = [] ∨ ¬(server.fdinfo fd).cb.Starved ∧
        out <+: (server.fdinfo fd).cb.pending ++ more) :
      server.Handed fd more ((server.sent fd out cb).doCloseConn fd)

/-- Some pending bytes go out first. -/
theorem Server.Handed.behind {first : List OutByte} (fed : ¬(server.fdinfo fd).cb.Starved)
    (pending : (server.fdinfo fd).cb.pending = first ++ cb.pending)
    (handed : (server.sent fd first cb).Handed fd more after) : server.Handed fd more after := by
  cases handed with
  | kept _ front sound stream =>
    rw [Server.sent_same] at front stream
    rw [Server.sent_sent]
    refine .kept fed ?_ sound (stream.imp_right ?_)
    · rw [pending, List.append_assoc]
      exact (List.prefix_append_right_inj first).mpr front
    · intro same
      rw [pending, List.append_assoc, same, List.append_assoc]
  | closed front =>
    rw [Server.sent_same] at front
    rw [Server.sent_sent]
    refine .closed (.inr ⟨fed, ?_⟩)
    rw [pending, List.append_assoc]
    refine (List.prefix_append_right_inj first).mpr ?_
    rcases front with nothing | ⟨-, front⟩
    · exact nothing ▸ List.nil_prefix
    · exact front

/-- A block is written, or waits behind what waits already. -/
theorem Server.sendBlock_handed (sound : (server.fdinfo fd).cb.Sound)
    (fed : ¬(server.fdinfo fd).cb.Starved) (answers : OutputAnswers)
    (opened : server.socket fd ≠ none)
    (kept : answers.memory = true ∨ 0 < (server.fdinfo fd).cb.sendlen ∨
      block.data.length - (sendLoop block.data.length 0 answers.direct).2 ≤
        (server.fdinfo fd).cb.sndbufsz) :
    server.Handed fd block.out (server.sendBlock fd block answers).2 := by
  have length : block.out.length = block.data.length := by simp [ShmBlock.out]
  unfold Server.sendBlock
  dsimp only
  split
  case _ idle =>
    have pending : (server.fdinfo fd).cb.pending = [] := by simp [ConnBuf.pending, idle.1]
    obtain ⟨count, within, writes, counts, all⟩ :=
      Server.safeTcpSendN_eq server fd block.out answers.direct
    have front : block.out.take count <+: (server.fdinfo fd).cb.pending ++ block.out := by
      simpa [pending] using List.take_prefix count block.out
    rw [writes]
    rcases counts with sent | ⟨failed, -⟩
    · rw [sent, if_neg (Int.not_lt.mpr (Int.natCast_nonneg count)), Int.toNat_natCast]
      obtain ⟨next, merged, after, stream⟩ :=
        Server.mergeBuffer_eq (server.write fd (block.out.take count)) sound fed
          (block.out.drop count) answers.memory (by
            rw [all opened, List.length_drop, length]
            exact kept)
      rw [merged]
      refine .kept fed front after (stream.imp_right ?_)
      intro same
      rw [same, Server.write_fdinfo, pending]
      simp
    · rw [if_pos (by omega), ← Server.sent_unchanged]
      exact .closed (.inr ⟨fed, front⟩)
  case _ busy =>
    rw [if_neg (Int.lt_irrefl 0)]
    obtain ⟨next, merged, after, stream⟩ :=
      Server.mergeBuffer_eq server sound fed block.out answers.memory (by
        rcases kept with memory | waiting | room
        · exact .inl memory
        · exact .inr (.inl waiting)
        · by_cases some : block.data.length > 0
          · exact .inr (.inl (Nat.pos_of_ne_zero fun none => busy ⟨none, some⟩))
          · omega)
    have unsent : server.setCb fd next = server.sent fd [] next := by
      rw [Server.sent, Server.write_nil]
    rw [Int.toNat_zero, List.drop_zero, merged, unsent]
    exact .kept fed List.nil_prefix after (stream.imp_right fun same => by simpa using same)

/-- A lost buffer sends nothing. -/
theorem ConnBuf.pending_front (cb : ConnBuf) (count : Nat) (more : List OutByte) :
    cb.pending.take count = [] ∨ ¬cb.Starved ∧ cb.pending.take count <+: cb.pending ++ more := by
  by_cases starved : cb.Starved
  · simp [ConnBuf.pending, starved.1]
  · exact .inr ⟨starved, (List.take_prefix _ _).trans (List.prefix_append _ _)⟩

/-- What `do_write_conn` does to a connection, and its callers when it fails. -/
theorem Server.writePending_handed (sound : (server.fdinfo fd).cb.Sound)
    (answers : List SendResult) :
    server.Handed fd [] (if (server.writePending fd answers).1 = -1 then
      (server.writePending fd answers).2.doCloseConn fd else
      (server.writePending fd answers).2) := by
  obtain ⟨count, within, ⟨failed, writes, nothing⟩ | ⟨went, fed, writes, -⟩⟩ :=
    Server.writePending_eq sound answers
  · rw [if_pos failed, writes, ← Server.sent_unchanged]
    exact .closed (ConnBuf.pending_front _ _ _)
  · rw [if_neg (by omega), writes]
    obtain ⟨after, still, rest⟩ := sound.dropSent fed count
    refine .kept fed ?_ after (.inr ?_)
    · rw [List.append_nil]
      exact List.take_prefix _ _
    · rw [rest, List.take_append_drop, List.append_nil]

/-- A reply is sent, or pending, after what was pending before. -/
theorem Server.outputTcp_handed (block : ShmBlock) (sound : (server.fdinfo fd).cb.Sound)
    (answers : OutputAnswers) (opened : server.socket fd ≠ none) (kept : answers.memory = true ∨
      (sendLoop (server.fdinfo fd).cb.sendlen 0 answers.linger).2 <
        (server.fdinfo fd).cb.sendlen ∨
      block.data.length - (sendLoop block.data.length 0 answers.direct).2 ≤
        (server.fdinfo fd).cb.sndbufsz) :
    server.Handed fd block.out (server.outputTcp fd block answers).2 := by
  unfold Server.outputTcp
  obtain ⟨count, within, ⟨failed, writes, nothing⟩ | ⟨went, fed, writes, all⟩⟩ :=
    Server.writePending_eq sound answers.linger
  · rw [if_pos (by omega), writes, ← Server.sent_unchanged]
    exact .closed (ConnBuf.pending_front _ _ _)
  · rw [if_neg (by omega), writes]
    obtain ⟨after, still, rest⟩ := sound.dropSent fed count
    refine Server.Handed.behind fed (by rw [rest, List.take_append_drop])
      (Server.sendBlock_handed (by simpa using after) (by simpa using still) answers opened ?_)
    rw [Server.sent_same, all opened]
    exact kept.imp_right (.imp_left Nat.sub_pos_of_lt)

/-! ## The queues -/

structure Server.SameQueues (server after : Server) : Prop where
  recvq : after.recvq = server.recvq
  workers : after.workers = server.workers
  sendq : after.sendq = server.sendq

/-- Closing a connection queues nothing. -/
theorem Server.SameQueues.doCloseConn : server.SameQueues (server.doCloseConn fd) := by
  unfold Server.doCloseConn
  dsimp only
  split <;> exact ⟨rfl, rfl, rfl⟩

/-- A look at an idle connection queues nothing. -/
theorem Server.SameQueues.doCheckConn (expired : Bool) :
    server.SameQueues (server.doCheckConn fd expired) := by
  unfold Server.doCheckConn
  dsimp only
  split
  · exact .doCloseConn
  · split
    · exact .doCloseConn
    · exact ⟨rfl, rfl, rfl⟩

/-- A mark for the end queues nothing. -/
theorem Server.SameQueues.markFin (type : BlockType) :
    server.SameQueues (server.markFin fd type) := by
  unfold Server.markFin
  dsimp only
  split <;> exact ⟨rfl, rfl, rfl⟩

/-- A datagram goes past the queues. -/
theorem Server.SameQueues.sendUdpBlock (sendto : Bool) :
    server.SameQueues (server.sendUdpBlock block sendto).2 := by
  unfold Server.sendUdpBlock
  split
  · exact ⟨rfl, rfl, rfl⟩
  split
  · exact ⟨rfl, rfl, rfl⟩
  · split <;> exact ⟨rfl, rfl, rfl⟩

/-- Sending what is pending leaves the queues. -/
theorem Server.SameQueues.sendPending (fd : Nat) (answers : List SendResult) :
    server.SameQueues (server.sendPending fd answers).2 := by
  unfold Server.sendPending Server.safeTcpSendN
  split
  · exact ⟨rfl, rfl, rfl⟩
  · split <;> exact ⟨rfl, rfl, rfl⟩

theorem Server.SameQueues.trans {last : Server} (first : server.SameQueues after)
    (second : after.SameQueues last) : server.SameQueues last :=
  ⟨second.recvq.trans first.recvq, second.workers.trans first.workers,
    second.sendq.trans first.sendq⟩

/-- The greeting goes past the queues. -/
theorem Server.SameQueues.greet (fd newfd : Nat) (greeting : Greeting) (answers : List SendResult) :
    server.SameQueues (server.greet fd newfd greeting answers).2 := by
  have greeted : server.SameQueues (server.setCb newfd { (server.fdinfo newfd).cb with
      sendptr := some (greeting.sendptr.map (OutByte.mk .greeting))
      sendlen := greeting.sendlen.toNat
      sndbufsz := greeting.sendlen.toNat }) := ⟨rfl, rfl, rfl⟩
  have sent := greeted.trans (.sendPending newfd answers)
  unfold Server.greet
  dsimp only
  split
  · exact .doCloseConn
  split
  · exact .doCloseConn
  split
  · split
    · exact sent.trans .doCloseConn
    · exact sent.trans ⟨rfl, rfl, rfl⟩
  · exact greeted

/-- What is handed to a connection leaves the queues. -/
theorem Server.Handed.sameQueues (handed : server.Handed fd more after) :
    server.SameQueues after := by
  cases handed with
  | kept => exact ⟨rfl, rfl, rfl⟩
  | @closed out cb _ =>
    have sent : server.SameQueues (server.sent fd out cb) := ⟨rfl, rfl, rfl⟩
    exact sent.trans .doCloseConn

end Taomee.ServerBench
