import Taomee.ServerBench.Streams

/-!
# serverbench: replies go out in the order they were queued

A block finds the connection that its request came in on while that is open, so what is due on
a connection is its greeting and then the replies popped from `sendq` for it.
-/

namespace Taomee.ServerBench

open Runs

variable {server after : Server} {fd k recvBuffer : Nat} {cb : ConnBuf} {block : ShmBlock}
  {due : Nat → List OutByte}

/-! ## Blocks find their connections -/

instance (block : ShmBlock) (peer : Peer) : Decidable (block.AskedBy peer) :=
  inferInstanceAs (Decidable (_ ∧ _))

/-- While the connection that a block came in on is open, `schedule_output` finds it. -/
structure ShmBlock.Aimed (server : Server) (block : ShmBlock) : Prop where
  type : block.type ≠ .pad
  known : ∀ b ∈ block.request, b.peer.socket < server.sockets
  finds : ∀ fd k, server.socket fd = some k → block.AskedBy ⟨k, none⟩ →
    block.skinfo.sockfd = fd ∧ block.blkId = (server.fdinfo fd).id ∧
      (server.fdinfo fd).flag.listen = false

/-- A view that shows which connection an entry is. -/
def ShowsConn (view : FdInfo → FdInfo) : Prop :=
  ∀ {info other : FdInfo}, view other = view info →
    other.id = info.id ∧ other.flag.listen = info.flag.listen

theorem FdInfo.output_shows : ShowsConn FdInfo.output :=
  fun same => ⟨congrArg (·.id) same, congrArg (·.flag.listen) same⟩

theorem FdInfo.input_shows : ShowsConn FdInfo.input :=
  fun same => ⟨congrArg (·.id) same, congrArg (·.flag.listen) same⟩

namespace ShmBlock.Aimed

/-- A block stays aimed while its connection is there or gone. -/
theorem keeps {view : FdInfo → FdInfo} (shows : ShowsConn view) (kept : server.Keeps view after)
    (aimed : block.Aimed server) : block.Aimed after where
  type := aimed.type
  known b member := kept.sockets ▸ aimed.known b member
  finds fd k refers asked := by
    obtain ⟨before, same⟩ := kept.was refers
    obtain ⟨id, listen⟩ := shows same
    rw [id, listen]
    exact aimed.finds fd k before asked

/-- A block did not come in on a socket that is opened later. -/
theorem apart (aimed : block.Aimed server) (later : server.sockets ≤ k) (address : Option Addr) :
    ¬block.AskedBy ⟨k, address⟩ := by
  rintro ⟨nonempty, all⟩
  obtain ⟨b, member⟩ := List.exists_mem_of_ne_nil _ nonempty
  have below := aimed.known b member
  rw [all b member] at below
  exact absurd below (Nat.not_lt.mpr later)

/-- A new connection has a number that no block is aimed at. -/
theorem added (aimed : block.Aimed server) (fd : Nat) (flag : Flag) (remote : Addr)
    (timeout : Int) : block.Aimed ((server.openSocket fd).doAddConn fd flag remote timeout) where
  type := aimed.type
  known b member := Nat.lt_succ_of_lt (aimed.known b member)
  finds other k refers asked := by
    change Function.update server.socket fd (some server.sockets) other = some k at refers
    by_cases here : other = fd
    · subst here
      obtain rfl : server.sockets = k := by simpa using refers
      exact absurd asked (aimed.apart (Nat.le_refl _) none)
    · simpa [Server.doAddConn, Server.openSocket, Server.setInfo, here] using
        aimed.finds other k (by simpa [here] using refers) asked

/-- A worker leaves the request of a block, and where it came from. -/
theorem reply (aimed : block.Aimed server) {processed : Processed} {reply : ShmBlock}
    (made : workerReply block processed = some reply) : reply.Aimed server := by
  obtain ⟨type, blkId, skinfo, request⟩ : reply.type ≠ .pad ∧ reply.blkId = block.blkId ∧
      reply.skinfo = block.skinfo ∧ reply.request = block.request := by
    unfold workerReply at made
    grind
  refine ⟨type, request ▸ aimed.known, ?_⟩
  intro fd k refers asked
  rw [skinfo, blkId]
  rw [ShmBlock.AskedBy, request] at asked
  exact aimed.finds fd k refers asked

end ShmBlock.Aimed

/-- The blocks of the packets of a connection carry its number and descriptor. -/
theorem FdInfo.Takes.aimed {owners : List Owner}
    {new : List ShmBlock} (takes : (server.fdinfo fd).Takes new cb)
    (routed : server.Routed owners) (streams : server.Streams due)
    (listen : (server.fdinfo fd).flag.listen = false) : ∀ block ∈ new, block.Aimed server := by
  intro block member
  obtain ⟨nonempty, made⟩ := takes.blocks block member
  have peers : ∀ b ∈ block.request, b.From (server.socket fd) := by
    intro b inside
    refine (routed.entries fd).cb.unread b ?_
    rw [takes.bytes]
    exact List.mem_append_left _ (List.mem_flatMap.mpr ⟨block, member, inside⟩)
  have type : block.type = .dat := congrArg ShmBlock.type made
  refine ⟨by simp [type], ?_, ?_⟩
  · intro b inside
    obtain ⟨conn, refers, peer⟩ := peers b inside
    rw [peer]
    exact streams.numbered.below fd conn refers
  · intro other k also asked
    obtain ⟨b, inside⟩ := List.exists_mem_of_ne_nil _ nonempty
    obtain ⟨conn, refers, peer⟩ := peers b inside
    obtain rfl : conn = k := congrArg Peer.socket (peer.symm.trans (asked.2 b inside))
    obtain rfl := streams.numbered.single other fd conn also refers
    exact ⟨by rw [made]; exact (streams.entries other conn refers).sockfd, by rw [made], listen⟩

/-! ## Receiving leaves the output alone -/

/-- Nothing is sent, and the requests that are pushed find their connections. -/
structure Server.Receives (server after : Server) : Prop
    extends server.Keeps FdInfo.output after where
  written : after.written = server.written
  workers : after.workers = server.workers
  sendq : after.sendq = server.sendq
  recvq : ∃ new, after.recvq = server.recvq ++ new ∧ ∀ block ∈ new, block.Aimed after

namespace Server.Receives

theorem setCb (same : ({ server.fdinfo fd with cb := cb } : FdInfo).output =
    (server.fdinfo fd).output) : server.Receives (server.setCb fd cb) :=
  ⟨.setInfo same, rfl, rfl, rfl, [], by simp [Server.setCb, Server.setInfo], by simp⟩

theorem trans {last : Server} (first : server.Receives after) (second : after.Receives last) :
    server.Receives last where
  toKeeps := first.toKeeps.trans second.toKeeps
  written := second.written.trans first.written
  workers := second.workers.trans first.workers
  sendq := second.sendq.trans first.sendq
  recvq := by
    obtain ⟨earlier, before, aimed⟩ := first.recvq
    obtain ⟨later, pushed, also⟩ := second.recvq
    refine ⟨earlier ++ later, by rw [pushed, before, List.append_assoc], ?_⟩
    intro block member
    rcases List.mem_append.mp member with old | new
    · exact (aimed block old).keeps FdInfo.output_shows second.toKeeps
    · exact also block new

/-- Closing a connection queues nothing. -/
theorem doCloseConn : server.Receives (server.doCloseConn fd) := by
  refine ⟨.doCloseConn, Server.doCloseConn_written, ?_, ?_, [], by simp, by simp⟩
  · unfold Server.doCloseConn
    dsimp only
    split <;> rfl
  · unfold Server.doCloseConn
    dsimp only
    split <;> rfl

/-- Packets taken from the buffer come to the end of the queue. -/
theorem taken {new : List ShmBlock} (takes : (server.fdinfo fd).Takes new cb)
    (aimed : ∀ block ∈ new, block.Aimed server) : server.Receives (server.taken fd new cb) := by
  have kept : server.Keeps FdInfo.output (server.taken fd new cb) := by
    have entry : server.Keeps FdInfo.output (server.setCb fd cb) := by
      refine .setInfo ?_
      rw [takes.rest]
      rfl
    exact ⟨entry.sockets, entry.entry⟩
  exact ⟨kept, rfl, rfl, rfl, new, rfl,
    fun block member => (aimed block member).keeps FdInfo.output_shows kept⟩

/-- `run_once` on a connection. -/
theorem runConn {owners : List Owner} (routed : server.Routed owners)
    (streams : server.Streams due) (answers : NetAnswers)
    (tcp : (server.fdinfo fd).flag.udp = false) (listen : (server.fdinfo fd).flag.listen = false) :
    server.Receives (server.runOnce recvBuffer fd answers).2 := by
  simp only [Server.runOnce, tcp, listen, Bool.false_eq_true, if_false]
  have filled := routed.doReadConn recvBuffer fd answers
  rcases server.doReadConn_eq recvBuffer fd answers with
    ⟨failed, -⟩ | ⟨cb, found, same, -, some⟩
  · simpa [failed] using doCloseConn
  obtain ⟨rest, -, -⟩ := ConnBuf.room_spec found
  rw [same] at filled ⊢
  have read : server.Receives (server.setCb fd { cb with
      unread := cb.unread ++ server.arriving recvBuffer fd answers }) := by
    refine setCb ?_
    rw [rest]
    rfl
  split
  · exact read.trans doCloseConn
  case _ positive =>
    replace some := some (Int.not_le.mp positive)
    have streams := streams.keeps read.toKeeps read.written
    have nonempty : ((server.setCb fd { cb with
        unread := cb.unread ++ server.arriving recvBuffer fd answers }).fdinfo fd).cb.unread ≠
        [] := by
      simp [some]
    obtain ⟨new, next, takes, result, -⟩ :=
      Server.parseAgain_eq answers.handleInput _ _ answers.pushes _ nonempty (Nat.le_refl _)
    have parsed := read.trans (taken takes (takes.aimed filled streams (by simpa using listen)))
    rcases result with opened | closed
    · rw [opened]
      exact parsed
    · rw [closed]
      exact parsed.trans doCloseConn

/-- The blocks of datagrams did not come in on a connection. -/
theorem udpRecv (streams : server.Streams due)
    (answers : NetAnswers) : server.Receives (server.udpRecv recvBuffer fd answers).2 := by
  unfold Server.udpRecv
  dsimp only
  split
  · exact ⟨.refl, rfl, rfl, rfl, [], by simp, by simp⟩
  generalize grown : (if (server.fdinfo fd).cb.rcvbufsz = 0 then
    { (server.fdinfo fd).cb with rcvbufsz := recvBuffer } else (server.fdinfo fd).cb) = cb
  have same : ({ server.fdinfo fd with cb := cb } : FdInfo).output =
      (server.fdinfo fd).output := by
    subst grown
    split <;> rfl
  have refused : server.Receives (server.setCb fd cb) := setCb same
  split
  case h_1 conn remote bytes refers _ =>
    split
    · exact refused
    case _ nonempty =>
    split
    · exact refused
    split
    · rw [Server.setCb_setCb]
      have kept : server.Receives (server.setCb fd { cb with unread := [], rcvprotlen := 0 }) :=
        setCb same
      refine ⟨⟨kept.sockets, kept.entry⟩, rfl, rfl, rfl, [_], rfl, ?_⟩
      intro block member
      obtain rfl := List.mem_singleton.mp member
      refine ⟨by simp, ?_, ?_⟩
      · intro b inside
        obtain ⟨byte, -, rfl⟩ := List.mem_map.mp inside
        exact streams.numbered.below fd conn refers
      · rintro other k - ⟨-, all⟩
        obtain ⟨byte, inside⟩ : ∃ byte, byte ∈ bytes :=
          List.exists_mem_of_ne_nil _ (fun none => nonempty (by simp [none]))
        have peer := all _ (List.mem_map.mpr ⟨byte, inside, rfl⟩)
        cases congrArg Peer.address peer
    · exact refused
  case h_2 => exact refused

end Server.Receives

/-! ## Popping a reply -/

/-- The replies among some blocks to what came in on a connection. -/
def answersTo (k : Nat) (blocks : List ShmBlock) : List OutByte :=
  (blocks.filter (·.AskedBy ⟨k, none⟩)).flatMap ShmBlock.out

/-- If the connection of a block is open, there is memory for what is not sent of it, or it
fits in the send buffer, or it waits behind pending bytes. -/
def ShmBlock.Fits (server : Server) (block : ShmBlock) (answers : OutputAnswers) : Prop :=
  let info := server.fdinfo block.skinfo.sockfd
  info.flag.valid = true → block.blkId = info.id → info.flag.udp = false →
    answers.memory = true ∨ (sendLoop info.cb.sendlen 0 answers.linger).2 < info.cb.sendlen ∨
      block.data.length - (sendLoop block.data.length 0 answers.direct).2 ≤ info.cb.sndbufsz

/-- What a popped block adds to what is due on a connection. -/
inductive Server.Adds (server : Server) (block : ShmBlock) (k : Nat) (before after : List OutByte) :
    Prop where
  | nothing (same : after = before)
      (foreign : ∀ fd, server.socket fd = some k → fd < maxFds → ¬block.AskedBy ⟨k, none⟩)
  | reply (more : after = before ++ block.out) (asked : block.AskedBy ⟨k, none⟩) (fd : Nat)
      (refers : server.socket fd = some k) (small : fd < maxFds)

/-- A reply on its way out comes behind what is due already. -/
theorem Server.Streams.scheduleOutput {owners : List Owner}
    (streams : server.Streams due) (routed : server.Routed owners) (owned : block.Owned owners)
    (aimed : block.Aimed server) (answers : OutputAnswers) (fits : block.Fits server answers) :
    server.SameQueues (server.scheduleOutput block answers).2 ∧
      ∃ after, (server.scheduleOutput block answers).2.Streams after ∧
        ∀ k, server.Adds block k (due k) (after k) := by
  unfold Server.scheduleOutput
  dsimp only
  split
  case _ refused =>
    refine ⟨⟨rfl, rfl, rfl⟩, due, streams, fun k => .nothing rfl ?_⟩
    intro fd refers small asked
    obtain ⟨rfl, -, -⟩ := aimed.finds fd k refers asked
    rcases refused with pad | large
    · exact aimed.type pad
    · exact absurd small (Nat.not_lt.mpr large)
  split
  case _ stale =>
    refine ⟨⟨rfl, rfl, rfl⟩, due, streams, fun k => .nothing rfl ?_⟩
    intro fd refers small asked
    obtain ⟨rfl, same, -⟩ := aimed.finds fd k refers asked
    obtain ⟨valid, -⟩ := (routed.entries _).opened k refers
    simp [valid, same] at stale
  case _ small matching =>
    simp only [Bool.not_eq_true', not_or, Bool.not_eq_false, not_not] at matching
    obtain ⟨valid, same⟩ := matching
    have entry := routed.entries block.skinfo.sockfd
    obtain ⟨k, refers, asked⟩ := owned.asked entry valid same
    obtain ⟨kept, written, cb, flag⟩ := server.markFin_keeps block.skinfo.sockfd block.type
    have marked := streams.keeps kept written
    split
    case _ udp =>
      refine ⟨(Server.SameQueues.markFin _).trans (.sendUdpBlock _), due,
        marked.sendUdpBlock block _, fun other => .nothing rfl ?_⟩
      intro fd also _ tcp
      rw [udp] at asked
      cases congrArg Peer.address (asked.unique tcp)
    case _ tcp =>
      replace tcp : (server.fdinfo block.skinfo.sockfd).flag.udp = false := by simpa using tcp
      rw [tcp] at asked
      have opened := marked.entries block.skinfo.sockfd k (by simpa using refers)
      have handed := Server.outputTcp_handed block opened.sound answers (by simp [refers])
        (by rw [cb]; exact fits valid same tcp)
      obtain ⟨-, -, listen⟩ := aimed.finds _ k refers asked
      refine ⟨(Server.SameQueues.markFin _).trans handed.sameQueues, _, marked.handed ?_ handed, ?_⟩
      · intro conn also
        have shown := (kept.was also).2
        exact ⟨flag.trans valid, (FdInfo.output_shows shown).2.trans listen⟩
      · intro other
        unfold Server.handOver
        rw [Server.markFin_socket]
        split
        case isTrue also =>
          obtain rfl : k = other := Option.some.inj (refers.symm.trans also)
          exact .reply rfl asked _ refers (by omega)
        case isFalse apart =>
          refine .nothing rfl ?_
          intro fd _ _ also
          obtain rfl : k = other := congrArg Peer.socket (asked.unique also)
          exact apart refers

/-! ## Runs -/

theorem answersTo_append (first second : List ShmBlock) :
    answersTo k (first ++ second) = answersTo k first ++ answersTo k second := by
  simp [answersTo]

/-- Foreign replies answer nothing. -/
theorem answersTo_nil {blocks : List ShmBlock}
    (foreign : ∀ block ∈ blocks, ¬block.AskedBy ⟨k, none⟩) : answersTo k blocks = [] := by
  rw [answersTo, List.filter_eq_nil_iff.mpr fun block member => by simpa using foreign block member]
  rfl

/-- A reply to this connection is its bytes. -/
theorem answersTo_one (asked : block.AskedBy ⟨k, none⟩) : answersTo k [block] = block.out := by
  simp [answersTo, asked]

/-- A reply to another one is nothing here. -/
theorem answersTo_one_not (foreign : ¬block.AskedBy ⟨k, none⟩) : answersTo k [block] = [] :=
  answersTo_nil fun _ member => List.mem_singleton.mp member ▸ foreign

/-- What was due on a connection is its greeting and the replies of the blocks popped so far, or
the front of that once it is closed. -/
structure History.Ordered (history : History) (popped : List ShmBlock)
    (due : Nat → List OutByte) : Prop where
  routed : ∃ owners, history.server.Routed owners
  streams : history.server.Streams due
  replies : history.replies = popped ++ history.server.sendq
  aimed : ∀ block ∈ popped ++ history.server.recvq ++ history.server.workers ++
    history.server.sendq, block.Aimed history.server
  opened : ∀ fd k, history.server.socket fd = some k → fd < maxFds →
    due k = history.greetings k ++ answersTo k popped
  fronts : ∀ k < history.server.sockets, due k <+: history.greetings k ++ answersTo k popped

variable {history : History} {popped : List ShmBlock} {event : Event}

namespace History.Ordered

/-- No reply answers a socket that is not open yet. -/
theorem unanswered (ordered : history.Ordered popped due) :
    answersTo history.server.sockets popped = [] := by
  refine answersTo_nil ?_
  intro block member
  refine (ordered.aimed block ?_).apart (Nat.le_refl _) none
  simp only [List.append_assoc]
  exact List.mem_append_left _ member

/-- An event that pops no reply, and opens at most one socket. -/
theorem stepped (ordered : history.Ordered popped due)
    (streams : (ServerBench.step recvBuffer history.server event).Streams
      (Function.update due history.server.sockets event.greeting))
    (socket : ∀ fd k, (ServerBench.step recvBuffer history.server event).socket fd = some k →
      k = history.server.sockets ∨ history.server.socket fd = some k)
    (sockets : (ServerBench.step recvBuffer history.server event).sockets ≤
      history.server.sockets + 1)
    (sendq : ∃ more, (ServerBench.step recvBuffer history.server event).sendq =
      history.server.sendq ++ more)
    (aimed : ∀ block ∈ popped ++ (ServerBench.step recvBuffer history.server event).recvq ++
      (ServerBench.step recvBuffer history.server event).workers ++
      (ServerBench.step recvBuffer history.server event).sendq,
      block.Aimed (ServerBench.step recvBuffer history.server event)) :
    (history.step recvBuffer event).Ordered popped
      (Function.update due history.server.sockets event.greeting) where
  routed := by
    obtain ⟨owners, routed⟩ := ordered.routed
    exact routed.step recvBuffer event
  streams := streams
  replies := by
    obtain ⟨more, queued⟩ := sendq
    simp [History.step, ordered.replies, queued]
  aimed := aimed
  opened fd k refers small := by
    by_cases new : k = history.server.sockets
    · simp [History.step, new, ordered.unanswered]
    · have before := (socket fd k refers).resolve_left new
      simpa [History.step, new] using ordered.opened fd k before small
  fronts k below := by
    by_cases new : k = history.server.sockets
    · simp [History.step, new]
    · have older : k < history.server.sockets :=
        Nat.lt_of_le_of_ne (Nat.lt_succ_iff.mp (Nat.lt_of_lt_of_le below sockets)) new
      simpa [History.step, new] using ordered.fronts k older

/-- An event that opens no socket. -/
theorem kept {view : FdInfo → FdInfo} (ordered : history.Ordered popped due)
    (shows : ShowsConn view)
    (keeps : history.server.Keeps view (ServerBench.step recvBuffer history.server event))
    (streams : (ServerBench.step recvBuffer history.server event).Streams due)
    (sendq : ∃ more, (ServerBench.step recvBuffer history.server event).sendq =
      history.server.sendq ++ more)
    (queued : ∀ block, block ∈ (ServerBench.step recvBuffer history.server event).recvq ∨
      block ∈ (ServerBench.step recvBuffer history.server event).workers ∨
      block ∈ (ServerBench.step recvBuffer history.server event).sendq →
        block.Aimed history.server ∨
          block.Aimed (ServerBench.step recvBuffer history.server event)) :
    ∃ due, (history.step recvBuffer event).Ordered popped due := by
  refine ⟨_, ordered.stepped ?_ ?_ ?_ sendq ?_⟩
  · refine streams.congr ?_
    intro k below
    rw [keeps.sockets] at below
    simp [Nat.ne_of_lt below]
  · exact fun fd k refers => .inr (keeps.was refers).1
  · rw [keeps.sockets]
    exact Nat.le_succ _
  · intro block member
    have cases : block ∈ popped ∨
        block ∈ (ServerBench.step recvBuffer history.server event).recvq ∨
        block ∈ (ServerBench.step recvBuffer history.server event).workers ∨
        block ∈ (ServerBench.step recvBuffer history.server event).sendq := by
      simpa only [List.mem_append, or_assoc] using member
    rcases cases with done | waiting
    · refine (ordered.aimed block ?_).keeps shows keeps
      simp [done]
    · rcases queued block waiting with before | now
      · exact before.keeps shows keeps
      · exact now

/-- Every block in a queue is aimed. -/
theorem queued (ordered : history.Ordered popped due)
    (waiting : block ∈ history.server.recvq ∨ block ∈ history.server.workers ∨
      block ∈ history.server.sendq) : block.Aimed history.server := by
  refine ordered.aimed block ?_
  simp only [List.mem_append, or_assoc]
  exact .inr waiting

/-- A turn that receives keeps the order. -/
theorem receives (ordered : history.Ordered popped due)
    (received : history.server.Receives (ServerBench.step recvBuffer history.server event)) :
    ∃ due, (history.step recvBuffer event).Ordered popped due := by
  refine ordered.kept FdInfo.output_shows received.toKeeps
    (ordered.streams.keeps received.toKeeps received.written) ⟨[], by simp [received.sendq]⟩ ?_
  intro block waiting
  obtain ⟨new, pushed, aimed⟩ := received.recvq
  rw [pushed, received.workers, received.sendq, List.mem_append] at waiting
  rcases waiting with (old | fresh) | rest
  · exact .inl (ordered.queued (.inl old))
  · exact .inr (aimed block fresh)
  · exact .inl (ordered.queued (.inr rest))

/-- A turn that sends keeps the order. -/
theorem sends (ordered : history.Ordered popped due)
    (keeps : history.server.KeepsInput (ServerBench.step recvBuffer history.server event))
    (queues : history.server.SameQueues (ServerBench.step recvBuffer history.server event))
    (streams : (ServerBench.step recvBuffer history.server event).Streams due) :
    ∃ due, (history.step recvBuffer event).Ordered popped due := by
  refine ordered.kept FdInfo.input_shows keeps.toKeeps streams ⟨[], by simp [queues.sendq]⟩ ?_
  intro block waiting
  rw [queues.recvq, queues.workers, queues.sendq] at waiting
  exact .inl (ordered.queued waiting)

/-- Only the queues change. -/
theorem queues (ordered : history.Ordered popped due) (recvq workers sendq : List ShmBlock)
    (same : ServerBench.step recvBuffer history.server event =
      { history.server with
        recvq := recvq, workers := workers, sendq := history.server.sendq ++ sendq })
    (aimed : ∀ block, block ∈ recvq ∨ block ∈ workers ∨ block ∈ sendq →
      block.Aimed history.server) :
    ∃ due, (history.step recvBuffer event).Ordered popped due := by
  have keeps : history.server.Keeps FdInfo.output
      (ServerBench.step recvBuffer history.server event) := by
    rw [same]
    exact ⟨rfl, fun _ => .inr ⟨rfl, rfl⟩⟩
  refine ordered.kept FdInfo.output_shows keeps (ordered.streams.keeps keeps (by rw [same]))
    ⟨sendq, by rw [same]⟩ ?_
  intro block waiting
  rw [same] at waiting
  rcases waiting with received | held | queued
  · exact .inl (aimed block (.inl received))
  · exact .inl (aimed block (.inr (.inl held)))
  · rcases List.mem_append.mp queued with old | new
    · exact .inl (ordered.queued (.inr (.inr old)))
    · exact .inl (aimed block (.inr (.inr new)))

end History.Ordered

/-- One socket is opened, or none. -/
structure Server.Opens (server after : Server) : Prop where
  queues : server.SameQueues after
  sockets : after.sockets ≤ server.sockets + 1
  socket : ∀ fd k, after.socket fd = some k → k = server.sockets ∨ server.socket fd = some k
  aimed : ∀ block : ShmBlock, block.Aimed server → block.Aimed after

namespace Server.Opens

/-- A connection that is set up is opened. -/
theorem added (fd : Nat) (flag : Flag) (remote : Addr) (timeout : Int) :
    server.Opens ((server.openSocket fd).doAddConn fd flag remote timeout) where
  queues := ⟨rfl, rfl, rfl⟩
  sockets := Nat.le_refl _
  socket other k refers := by
    change Function.update server.socket fd (some server.sockets) other = some k at refers
    by_cases here : other = fd
    · subst here
      exact .inl (by simpa using refers.symm)
    · exact .inr (by simpa [here] using refers)
  aimed _ aimed := aimed.added fd flag remote timeout

/-- What happens to the new connection afterwards still opens it. -/
theorem keeps (opens : server.Opens after) {last : Server} (queues : after.SameQueues last)
    (kept : after.Keeps FdInfo.input last) : server.Opens last where
  queues := opens.queues.trans queues
  sockets := kept.sockets ▸ opens.sockets
  socket fd k refers := opens.socket fd k (kept.was refers).1
  aimed block aimed := (opens.aimed block aimed).keeps FdInfo.input_shows kept

/-- `accept` opens one connection at most. -/
theorem acceptConn (server : Server) (fd : Nat) (answers : NetAnswers) :
    server.Opens (server.acceptConn fd answers).2 := by
  unfold Server.acceptConn Server.doOpenConn
  cases answers.accepted with
  | none => exact ⟨⟨rfl, rfl, rfl⟩, Nat.le_succ _, fun _ _ refers => .inr refers, fun _ => id⟩
  | some pair =>
    obtain ⟨newfd, remote⟩ := pair
    dsimp only
    generalize made : ((server.openSocket newfd).doAddConn newfd .zero remote
      (server.fdinfo fd).timeout).setInfo newfd { (((server.openSocket newfd).doAddConn newfd .zero
        remote (server.fdinfo fd).timeout).fdinfo newfd) with acceptFd := fd } = opened
    have opens : server.Opens opened := by
      rw [← made]
      exact (added newfd .zero remote _).keeps ⟨rfl, rfl, rfl⟩ (.setInfo rfl)
    cases answers.greeting with
    | none => exact opens
    | some greeting =>
      exact opens.keeps (.greet fd newfd greeting answers.sends)
        (Server.KeepsInput.greet fd newfd greeting answers.sends).toKeeps

end Server.Opens

namespace History.Ordered

/-- A new connection is due its greeting and no more. -/
theorem opens (ordered : history.Ordered popped due)
    (opens : history.server.Opens (ServerBench.step recvBuffer history.server event))
    (streams : (ServerBench.step recvBuffer history.server event).Streams
      (Function.update due history.server.sockets event.greeting)) :
    ∃ due, (history.step recvBuffer event).Ordered popped due := by
  refine ⟨_, ordered.stepped streams opens.socket opens.sockets ⟨[], ?_⟩ ?_⟩
  · rw [opens.queues.sendq, List.append_nil]
  · rw [opens.queues.recvq, opens.queues.workers, opens.queues.sendq]
    exact fun block member => opens.aimed block (ordered.aimed block member)

/-- A turn of the network process keeps the order. -/
theorem runOnce (ordered : history.Ordered popped due) (fd : Nat) (answers : NetAnswers)
    (allowed : (Event.runOnce fd answers).Allowed history.server)
    (whole : (history.server.fdinfo fd).flag.listen = true →
      ∀ greeting ∈ answers.greeting, greeting.Whole answers.sends) :
    ∃ due, (history.step recvBuffer (.runOnce fd answers)).Ordered popped due := by
  obtain ⟨owners, routed⟩ := ordered.routed
  cases udp : (history.server.fdinfo fd).flag.udp with
  | true =>
    have same : ServerBench.step recvBuffer history.server (.runOnce fd answers) =
        (history.server.udpRecv recvBuffer fd answers).2 := by
      simp [ServerBench.step, Server.runOnce, udp]
    refine ordered.receives ?_
    rw [same]
    exact .udpRecv ordered.streams answers
  | false =>
    cases listen : (history.server.fdinfo fd).flag.listen with
    | true =>
      have same : ServerBench.step recvBuffer history.server (.runOnce fd answers) =
          (history.server.acceptConn fd answers).2 := by
        simp [ServerBench.step, Server.runOnce, udp, listen]
      refine ordered.opens ?_ ?_
      · rw [same]
        exact .acceptConn history.server fd answers
      · rw [same]
        exact ordered.streams.acceptConn fd answers listen allowed (whole listen)
    | false => exact ordered.receives (.runConn routed ordered.streams answers udp listen)

/-- A reply is popped and added to what is due on its connection, if that is open. -/
theorem popReply (ordered : history.Ordered popped due) (answers : OutputAnswers)
    (fits : ∀ block ∈ history.server.sendq.head?, block.Fits history.server answers) :
    ∃ popped due, (history.step recvBuffer (.popReply answers)).Ordered popped due := by
  cases queued : history.server.sendq with
  | nil =>
    have same : ServerBench.step recvBuffer history.server (.popReply answers) =
        history.server := by
      simp [ServerBench.step, Server.popReply, queued]
    refine ⟨popped, ordered.receives ?_⟩
    rw [same]
    exact ⟨.refl, rfl, rfl, rfl, [], by simp, by simp⟩
  | cons block rest =>
    obtain ⟨owners, routed⟩ := ordered.routed
    have same : ServerBench.step recvBuffer history.server (.popReply answers) =
        ({ history.server with sendq := rest }.scheduleOutput block answers).2 := by
      simp [ServerBench.step, Server.popReply, queued]
    have popping : history.server.Keeps FdInfo.output { history.server with sendq := rest } :=
      ⟨rfl, fun _ => .inr ⟨rfl, rfl⟩⟩
    have remaining : { history.server with sendq := rest }.Routed owners :=
      { routed with
        sendq := fun other member =>
          routed.sendq other (queued ▸ List.mem_cons_of_mem block member) }
    have aimed := ordered.queued (.inr (.inr (queued ▸ List.mem_cons_self)))
    obtain ⟨queues, after, streams, adds⟩ :=
      (ordered.streams.keeps popping rfl).scheduleOutput remaining
        (routed.sendq block (queued ▸ List.mem_cons_self))
        (aimed.keeps FdInfo.output_shows popping) answers (fits block (by simp [queued]))
    have kept : history.server.Keeps FdInfo.input
        (ServerBench.step recvBuffer history.server (.popReply answers)) :=
      (Server.KeepsInput.popReply answers).toKeeps
    rw [← same] at queues streams
    refine ⟨popped ++ [block], after, routed.step recvBuffer (.popReply answers), streams,
      ?_, ?_, ?_, ?_⟩
    · simp [History.step, ordered.replies, queued, queues.sendq]
    · intro other member
      simp only [History.step, queues.recvq, queues.workers, queues.sendq] at member
      refine (ordered.aimed other ?_).keeps FdInfo.input_shows kept
      rw [queued]
      simp only [List.mem_append, List.mem_cons] at member ⊢
      tauto
    · intro fd k refers small
      have before := (kept.was refers).1
      have older := ordered.streams.numbered.below fd k before
      have due := ordered.opened fd k before small
      rw [answersTo_append, ← List.append_assoc]
      simp only [History.step, Function.update_of_ne (Nat.ne_of_lt older)]
      rw [← due]
      cases adds k with
      | nothing unchanged foreign =>
        rw [unchanged, answersTo_one_not (foreign fd before small), List.append_nil]
      | reply more asked => rw [more, answersTo_one asked]
    · intro k below
      have older : k < history.server.sockets := kept.sockets ▸ below
      rw [answersTo_append, ← List.append_assoc]
      simp only [History.step, Function.update_of_ne (Nat.ne_of_lt older)]
      cases adds k with
      | nothing unchanged =>
        rw [unchanged]
        exact (ordered.fronts k older).trans (List.prefix_append _ _)
      | reply more asked fd refers small =>
        have same : after k = history.greetings k ++ answersTo k popped ++ answersTo k [block] := by
          rw [more, answersTo_one asked, ordered.opened fd k refers small]
        exact same ▸ List.prefix_rfl

/-- A worker is done, and its reply may be queued. -/
theorem pushReply (ordered : history.Ordered popped due) (index : Nat) (processed : Processed)
    (pushed : Bool) :
    ∃ due, (history.step recvBuffer (.pushReply index processed pushed)).Ordered popped due := by
  refine ordered.queues _ _ _ rfl ?_
  intro block waiting
  rcases waiting with received | held | reply
  · exact ordered.queued (.inl received)
  · exact ordered.queued (.inr (.inl (List.mem_of_mem_eraseIdx held)))
  · split at reply
    case isTrue =>
      obtain ⟨request, held, made⟩ := Option.bind_eq_some_iff.mp (Option.mem_toList.mp reply)
      exact (ordered.queued (.inr (.inl (List.mem_of_getElem? held)))).reply made
    case isFalse => cases reply

end History.Ordered

/-- A greeting goes out whole or not at all at first, and no reply is lost for want of memory. -/
def Event.Unbroken (server : Server) : Event → Prop
  | .runOnce fd answers => (server.fdinfo fd).flag.listen = true →
      ∀ greeting ∈ answers.greeting, greeting.Whole answers.sends
  | .popReply answers => ∀ block ∈ server.sendq.head?, block.Fits server answers
  | _ => True

/-- Every step that is allowed keeps the order. -/
theorem History.Ordered.step (ordered : history.Ordered popped due)
    (allowed : event.Allowed history.server) (unbroken : event.Unbroken history.server) :
    ∃ popped due, (history.step recvBuffer event).Ordered popped due := by
  obtain ⟨owners, routed⟩ := ordered.routed
  cases event with
  | netStart fd flag timeout =>
    have streams : history.server.Streams (Function.update due history.server.sockets []) :=
      ordered.streams.congr fun k below => by simp [Nat.ne_of_lt below]
    exact ⟨popped, ordered.opens (.added fd flag ⟨0, 0⟩ timeout)
      (streams.added (by simp) fd flag ⟨0, 0⟩ timeout)⟩
  | runOnce fd answers => exact ⟨popped, ordered.runOnce fd answers allowed unbroken⟩
  | hangup fd => exact ⟨popped, ordered.receives .doCloseConn⟩
  | sweep fd answers expired =>
    obtain ⟨streams, queues⟩ := ordered.streams.sweep routed fd answers expired
    exact ⟨popped, ordered.sends (.sweep answers expired) queues streams⟩
  | pollWrite fd answers =>
    obtain ⟨streams, queues⟩ := ordered.streams.pollWrite routed fd answers
    exact ⟨popped, ordered.sends (.pollWrite answers) queues streams⟩
  | check fd expired =>
    exact ⟨popped, ordered.sends (.doCheckConn expired) (.doCheckConn expired)
      (ordered.streams.doCheckConn fd expired)⟩
  | popRequest =>
    refine ⟨popped, ordered.queues (history.server.recvq.drop 1)
      (history.server.workers ++ history.server.recvq.take 1) [] ?_ ?_⟩
    · simp [ServerBench.step, Server.popRequest]
    · intro block waiting
      rcases waiting with later | held | none
      · exact ordered.queued (.inl (List.mem_of_mem_drop later))
      · rcases List.mem_append.mp held with old | taken
        · exact ordered.queued (.inr (.inl old))
        · exact ordered.queued (.inl (List.mem_of_mem_take taken))
      · cases none
  | pushReply index processed pushed => exact ⟨popped, ordered.pushReply index processed pushed⟩
  | dropRequest index =>
    refine ⟨popped, ordered.queues history.server.recvq
      (history.server.workers.eraseIdx index) [] ?_ ?_⟩
    · simp [ServerBench.step, Server.dropRequest]
    · intro block waiting
      rcases waiting with received | held | none
      · exact ordered.queued (.inl received)
      · exact ordered.queued (.inr (.inl (List.mem_of_mem_eraseIdx held)))
      · cases none
  | popReply answers => exact ordered.popReply answers unbroken

/-- There is nothing to order at the start. -/
theorem History.initial_ordered : History.initial.Ordered [] fun _ => [] where
  routed := ⟨[], Server.initial_routed⟩
  streams :=
    { numbered := ⟨by simp [History.initial, Server.initial],
        by simp [History.initial, Server.initial]⟩
      known := by simp [History.initial, Server.initial]
      listening := by simp [History.initial, Server.initial, FdInfo.zero, Flag.zero]
      entries := by simp [History.initial, Server.initial]
      prefixes := fun _ => List.nil_prefix }
  replies := rfl
  aimed := by simp [History.initial, Server.initial]
  opened := by simp [History.initial, Server.initial]
  fronts := by simp

/-- In a run in which no greeting is cut and no reply lost for want of memory, what was written
on a connection is always the front of its greeting and then the replies to it in the order
they were queued. -/
theorem written_in_order (recvBuffer : Nat)
    (run : Reaches (History.step recvBuffer) (fun history event =>
      event.Allowed history.server ∧ event.Unbroken history.server) .initial history) (k : Nat) :
    history.server.writtenOn k <+: history.greetings k ++ answersTo k history.replies := by
  have reached : ∃ popped due, history.Ordered popped due := by
    apply run.invariant
    · exact ⟨[], _, History.initial_ordered⟩
    · rintro history event ⟨popped, due, ordered⟩ ⟨allowed, unbroken⟩
      exact ordered.step allowed unbroken
  obtain ⟨popped, due, ordered⟩ := reached
  by_cases older : k < history.server.sockets
  · have front : history.server.writtenOn k <+: history.greetings k ++ answersTo k popped :=
      (ordered.streams.prefixes k).trans (ordered.fronts k older)
    rw [ordered.replies, answersTo_append, ← List.append_assoc]
    exact front.trans (List.prefix_append _ _)
  · rw [ordered.streams.unopened (Nat.not_lt.mp older)]
    exact List.nil_prefix

/-- A connection on descriptor 5 whose greeting is of two bytes, and what follows. -/
def greetedThen (sends : List SendResult) (events : List Event) : History :=
  (Event.netStart 3 listening 0 ::
    .runOnce 3 ⟨true, some (5, ⟨1, 80⟩), some ⟨0, [1, 2], 2⟩, sends, .error, none, fun _ => 0, []⟩ ::
      events).foldl (History.step 4096) .initial

/-- A request is answered with two bytes, of which one is sent at once and one later. -/
def answeredInTwo : List Event :=
  [requestAt 5, .popRequest, .pushReply 0 ⟨0, [9, 8], 2⟩ true,
    .popReply ⟨[], [.sent 1, .eagain], true, true⟩, .sweep 5 [.sent 1] false]

/-- Two replies behind a greeting that goes out at once. -/
theorem written_in_order_two :
    (greetedThen [.sent 2] answeredInTwo).server.writtenOn 1 <+:
      (greetedThen [.sent 2] answeredInTwo).greetings 1 ++
        answersTo 1 (greetedThen [.sent 2] answeredInTwo).replies := by
  refine written_in_order 4096 ?_ 1
  refine .call (.call (.call (.call (.call (.call (.call .refl ⟨rfl, trivial⟩) ⟨?_, ?_⟩)
    ⟨?_, ?_⟩) ⟨trivial, trivial⟩) ⟨trivial, trivial⟩) ⟨trivial, ?_⟩) ⟨trivial, trivial⟩
  · rintro _ ⟨⟩
    exact ⟨by decide, rfl⟩
  · rintro - _ ⟨⟩
    exact .inr (.inr ⟨by decide, .inr rfl⟩)
  · nofun
  · nofun
  · rintro _ ⟨⟩ - - -
    exact .inl rfl

/-- One byte of the greeting is taken at first, and then the same byte again. -/
theorem greeting_repeated :
    Reaches (History.step 4096) (fun history event => event.Allowed history.server) .initial
        (greetedThen [.sent 1, .eagain] [.sweep 5 [.sent 1] false]) ∧
      (greetedThen [.sent 1, .eagain] [.sweep 5 [.sent 1] false]).server.writtenOn 1 =
        [⟨.greeting, 1⟩, ⟨.greeting, 1⟩] ∧
      ¬(greetedThen [.sent 1, .eagain] [.sweep 5 [.sent 1] false]).server.writtenOn 1 <+:
        (greetedThen [.sent 1, .eagain] [.sweep 5 [.sent 1] false]).greetings 1 ++
          answersTo 1 (greetedThen [.sent 1, .eagain] [.sweep 5 [.sent 1] false]).replies := by
  refine ⟨.call (.call (.call .refl rfl) ?_) trivial, by decide, by decide⟩
  rintro _ ⟨⟩
  exact ⟨by decide, rfl⟩

end Taomee.ServerBench
