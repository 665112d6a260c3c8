import Mathlib.Algebra.Order.Ring.Int
import Mathlib.Data.List.Nodup
import Taomee.Library.Runs

/-!
# net_io_server: the event loop

`do_io` fills a batch with `epoll_wait`, runs `on_wakeup`, and then handles the events of
the batch one by one. An event carries the address of its connection. Addresses are
numbered by insertion into `m_id_conn_map`, so that one is never used twice, and using
the address of a connection that is gone is recorded in `stale`.

What the socket calls and the callbacks answer is part of the round.
-/

namespace Taomee.NetIo

/-- An entry of `m_id_conn_map`. -/
structure Conn where
  address : Nat
  id : Int
  deriving DecidableEq

/-- The connection table of `net_io_server`, its id counter, `NET_IO_SERVER_FLAG_RUNOUT`,
and the addresses that were used after their connection had been closed. -/
structure Server where
  conns : List Conn
  nextAddress : Nat
  mId : Int
  mIdBase : Int
  mIdStep : Int
  runout : Bool
  stale : List Nat
  deriving DecidableEq

/-- A block that `on_wakeup` takes from the send queue, with what `send_data` answers. -/
inductive Block where
  | fin (id : Int)
  | data (id : Int) (sent : Bool)
  | broadcast (id : Int)
  deriving DecidableEq

/-- A peer that `accept` returns: what `on_new_connection` and `epoll_ctl` answer. -/
structure Peer where
  welcome : Bool
  registered : Bool
  deriving DecidableEq

/-- How the read part of an event ends: `on_recv_data` keeps the connection, or
`recv_data`, `merge_mem_block` or `on_recv_data` has it closed. -/
inductive Received where
  | kept
  | closed
  deriving DecidableEq

/-- What `event.data.ptr` holds: null, -1, or the address of a connection. -/
inductive Target where
  | listener
  | notifier
  | conn (address : Nat)
  deriving DecidableEq

/-- An event of the batch. `hangup` stands for `EPOLLERR`, `EPOLLHUP` and `EPOLLRDHUP`;
`flushed` is the answer of `send_data`, `none` when nothing is buffered. `peers` and
`exhausted` are what `accept` answers while the event is handled. -/
structure Event where
  target : Target
  hangup : Bool
  readable : Bool
  writable : Bool
  received : Received
  flushed : Option Bool
  peers : List Peer
  exhausted : Bool
  deriving DecidableEq

/-- One call of `do_io`: its `cmd` bits, the blocks that wait for `on_wakeup`, and the batch
that `epoll_wait` has filled. -/
structure Round where
  cmdAccept : Bool
  cmdRead : Bool
  cmdWrite : Bool
  blocks : List Block
  events : List Event

namespace Server

/-- `close_connection`: nothing when the id is unknown. -/
def closeConnection (server : Server) (id : Int) : Server :=
  { server with conns := server.conns.filter fun conn => conn.id ≠ id }

/-- `on_wakeup`, for one block. A block for an unknown id fails like a broken socket. -/
def onBlock (server : Server) : Block → Server
  | .fin id => server.closeConnection id
  | .data id sent => if sent then server else server.closeConnection id
  | .broadcast _ => server

def onWakeup (server : Server) (blocks : List Block) : Server := blocks.foldl onBlock server

/-- `genereate_id`. A sum that leaves the range of an `int` wraps. -/
def genereateId (server : Server) : Int × Server :=
  let next := (server.mId + server.mIdStep).bmod (2 ^ 32)
  (server.mId, { server with mId := if next < 0 then server.mIdBase else next })

/-- The accept loop's body for one peer. -/
def acceptPeer (server : Server) (cmdAccept : Bool) (peer : Peer) : Server :=
  if !cmdAccept then server
  else
    let (id, server) := server.genereateId
    if !peer.welcome then server
    else if server.conns.any (·.id = id) then server
    else
      let added : Server :=
        { server with
          conns := ⟨server.nextAddress, id⟩ :: server.conns
          nextAddress := server.nextAddress + 1 }
      if peer.registered then added else added.closeConnection id

def acceptPeers (server : Server) (cmdAccept : Bool) (peers : List Peer) : Server :=
  peers.foldl (fun server peer => server.acceptPeer cmdAccept peer) server

/-- The accept loop, which ends with `EAGAIN` or with another error. -/
def acceptLoop (server : Server) (cmdAccept : Bool) (event : Event) : Server :=
  { server.acceptPeers cmdAccept event.peers with runout := event.exhausted }

/-- The `EPOLLOUT` part. -/
def handleWritable (server : Server) (round : Round) (event : Event) (conn : Conn) : Server :=
  if event.writable then
    match event.flushed with
    | none => server
    | some flushed =>
      if !round.cmdWrite then server
      else if flushed then server else server.closeConnection conn.id
  else server

/-- The part of the loop body for an event of a connection. -/
def handleConn (server : Server) (round : Round) (event : Event) (address : Nat) : Server :=
  match server.conns.find? (·.address = address) with
  | none => { server with stale := address :: server.stale }
  | some conn =>
    if event.hangup then server.closeConnection conn.id
    else if event.readable then
      if !round.cmdRead then server
      else
        match event.received with
        | .closed => server.closeConnection conn.id
        | .kept => server.handleWritable round event conn
    else server.handleWritable round event conn

/-- The accept part of the loop body. -/
def accepted (server : Server) (round : Round) (event : Event) (i : Nat) : Server :=
  if event.target = .listener ∨ (i = 0 ∧ server.runout) then
    server.acceptLoop round.cmdAccept event
  else server

/-- The loop body, for event number `i`. -/
def handleEvent (server : Server) (round : Round) (event : Event) (i : Nat) : Server :=
  let server := server.accepted round event i
  match event.target with
  | .listener => server
  | .notifier => server
  | .conn address => server.handleConn round event address

/-- The loop over the rest of the batch, from event number `i` on. -/
def handleEvents (round : Round) : Server → List Event → Nat → Server
  | server, [], _ => server
  | server, event :: rest, i => handleEvents round (server.handleEvent round event i) rest (i + 1)

/-- `do_io`. -/
def doIo (server : Server) (round : Round) : Server :=
  handleEvents round (server.onWakeup round.blocks) round.events 0

/-- The addresses of the open connections. -/
def live (server : Server) : List Nat := server.conns.map Conn.address

end Server

/-- The addresses in a list of events, in order. -/
def addressesOf (events : List Event) : List Nat :=
  events.filterMap fun event =>
    match event.target with
    | .conn address => some address
    | _ => none

/-- The addresses in the batch. -/
def Round.addresses (round : Round) : List Nat := addressesOf round.events

/-- The block makes `on_wakeup` close the connection with this id. -/
def Block.Closes (id : Int) : Block → Prop
  | .fin other => other = id
  | .data other sent => other = id ∧ sent = false
  | .broadcast _ => False

instance (id : Int) : ∀ block : Block, Decidable (block.Closes id)
  | .fin other => inferInstanceAs (Decidable (other = id))
  | .data other sent => inferInstanceAs (Decidable (other = id ∧ sent = false))
  | .broadcast _ => inferInstanceAs (Decidable False)

/-- What `epoll_wait` promises: an event for an open connection, and one event for each. -/
structure Round.Polled (round : Round) (server : Server) : Prop where
  registered : ∀ address ∈ round.addresses, address ∈ server.live
  once : round.addresses.Nodup

/-- No connection with an event in the batch is closed by `on_wakeup`. -/
def Round.Undisturbed (round : Round) (server : Server) : Prop :=
  ∀ conn ∈ server.conns, conn.address ∈ round.addresses →
    ∀ block ∈ round.blocks, ¬ block.Closes conn.id

instance (round : Round) (server : Server) : Decidable (round.Undisturbed server) :=
  inferInstanceAs (Decidable (∀ conn ∈ server.conns, conn.address ∈ round.addresses →
    ∀ block ∈ round.blocks, ¬ block.Closes conn.id))

/-- The table of connections is a map, and its addresses are spent ones. -/
structure Server.Wf (server : Server) : Prop where
  ids : (server.conns.map Conn.id).Nodup
  addresses : server.live.Nodup
  spent : ∀ conn ∈ server.conns, conn.address < server.nextAddress

namespace Server

variable {server : Server} {conn : Conn} {id : Int} {address : Nat}

@[simp] theorem mem_closeConnection :
    conn ∈ (server.closeConnection id).conns ↔ conn ∈ server.conns ∧ conn.id ≠ id := by
  simp [closeConnection]

/-- A connection less keeps ids and addresses apart. -/
theorem Wf.closeConnection (wf : server.Wf) : (server.closeConnection id).Wf where
  ids := List.Nodup.sublist (List.Sublist.map _ List.filter_sublist) wf.ids
  addresses := List.Nodup.sublist (List.Sublist.map _ List.filter_sublist) wf.addresses
  spent conn member := wf.spent conn (mem_closeConnection.mp member).1

/-- In a map the id determines the entry. -/
theorem Wf.eq_of_id (wf : server.Wf) {first second : Conn} (firstIn : first ∈ server.conns)
    (secondIn : second ∈ server.conns) (same : first.id = second.id) : first = second :=
  List.inj_on_of_nodup_map wf.ids firstIn secondIn same

/-- An address belongs to one connection. -/
theorem Wf.eq_of_address (wf : server.Wf) {first second : Conn} (firstIn : first ∈ server.conns)
    (secondIn : second ∈ server.conns) (same : first.address = second.address) : first = second :=
  List.inj_on_of_nodup_map wf.addresses firstIn secondIn same

/-- The live addresses are those of the connections. -/
theorem mem_live : address ∈ server.live ↔ ∃ conn ∈ server.conns, conn.address = address :=
  List.mem_map

/-- What every part of `do_io` does to the table: it stays a map, no address comes back,
and no use of a stale address is forgotten. -/
structure Follows (before after : Server) : Prop where
  wf : after.Wf
  spent : before.nextAddress ≤ after.nextAddress
  dead : ∀ address ∈ after.live, address < before.nextAddress → address ∈ before.live
  stale : ∀ address ∈ before.stale, address ∈ after.stale

theorem Follows.refl (wf : server.Wf) : server.Follows server :=
  ⟨wf, Nat.le_refl _, fun _ live _ => live, fun _ member => member⟩

theorem Follows.trans {first second third : Server} (before : first.Follows second)
    (after : second.Follows third) : first.Follows third where
  wf := after.wf
  spent := Nat.le_trans before.spent after.spent
  dead address live old :=
    before.dead address (after.dead address live (Nat.lt_of_lt_of_le old before.spent)) old
  stale address member := after.stale address (before.stale address member)

/-- Closing a connection makes no address new. -/
theorem closeConnection_follows (wf : server.Wf) :
    server.Follows (server.closeConnection id) where
  wf := wf.closeConnection
  spent := Nat.le_refl _
  dead address live _ := by
    obtain ⟨conn, member, rfl⟩ := mem_live.mp live
    exact mem_live.mpr ⟨conn, (mem_closeConnection.mp member).1, rfl⟩
  stale _ member := member

section Wakeup

/-- A block closes its own connection at most. -/
theorem mem_onBlock {block : Block} :
    conn ∈ (server.onBlock block).conns ↔ conn ∈ server.conns ∧ ¬ block.Closes conn.id := by
  cases block with
  | fin id => simp [onBlock, Block.Closes, eq_comm]
  | data id sent => cases sent <;> simp [onBlock, Block.Closes, eq_comm]
  | broadcast id => simp [onBlock, Block.Closes]

/-- A block makes no address new. -/
theorem onBlock_follows (wf : server.Wf) (block : Block) :
    server.Follows (server.onBlock block) := by
  cases block with
  | fin id => exact closeConnection_follows wf
  | data id sent =>
    cases sent with
    | true => exact Follows.refl wf
    | false => exact closeConnection_follows wf
  | broadcast id => exact Follows.refl wf

/-- `on_wakeup` leaves exactly the connections that none of its blocks closes. -/
theorem mem_onWakeup (blocks : List Block) :
    conn ∈ (server.onWakeup blocks).conns ↔
      conn ∈ server.conns ∧ ∀ block ∈ blocks, ¬ block.Closes conn.id := by
  induction blocks generalizing server with
  | nil => simp [onWakeup]
  | cons block rest ih =>
    change conn ∈ ((server.onBlock block).onWakeup rest).conns ↔ _
    rw [ih, mem_onBlock, List.forall_mem_cons, and_assoc]

/-- The blocks make no address new. -/
theorem onWakeup_follows (wf : server.Wf) (blocks : List Block) :
    server.Follows (server.onWakeup blocks) := by
  induction blocks generalizing server with
  | nil => exact Follows.refl wf
  | cons block rest ih =>
    have first := onBlock_follows wf block
    exact first.trans (ih first.wf)

/-- Blocks go by ids and use no address. -/
theorem onWakeup_stale (blocks : List Block) : (server.onWakeup blocks).stale = server.stale := by
  induction blocks generalizing server with
  | nil => rfl
  | cons block rest ih =>
    change ((server.onBlock block).onWakeup rest).stale = _
    rw [ih]
    cases block with
    | fin id => rfl
    | data id sent => cases sent <;> rfl
    | broadcast id => rfl

end Wakeup

section Accept

/-- Entering a connection under a new id and the next address. -/
theorem insert_wf (wf : server.Wf) (fresh : ∀ conn ∈ server.conns, conn.id ≠ id) :
    ({ server with
        conns := ⟨server.nextAddress, id⟩ :: server.conns
        nextAddress := server.nextAddress + 1 } : Server).Wf where
  ids := by
    rw [List.map_cons, List.nodup_cons]
    constructor
    · intro member
      obtain ⟨conn, inside, same⟩ := List.mem_map.mp member
      exact fresh conn inside same
    · exact wf.ids
  addresses := by
    change (List.map Conn.address (_ :: server.conns)).Nodup
    rw [List.map_cons, List.nodup_cons]
    constructor
    · intro member
      obtain ⟨conn, inside, same⟩ := List.mem_map.mp member
      have spent := wf.spent conn inside
      simp only at same
      omega
    · exact wf.addresses
  spent conn member := by
    rcases List.mem_cons.mp member with rfl | old
    · exact Nat.lt_succ_self _
    · exact Nat.lt_succ_of_lt (wf.spent conn old)

/-- Accepting a peer leaves the open connections alone. -/
theorem acceptPeer_spec (wf : server.Wf) (cmdAccept : Bool) (peer : Peer) :
    server.Follows (server.acceptPeer cmdAccept peer) ∧
      (server.acceptPeer cmdAccept peer).stale = server.stale ∧
      ∀ conn ∈ server.conns, conn ∈ (server.acceptPeer cmdAccept peer).conns := by
  have counted : server.Follows server.genereateId.2 :=
    ⟨⟨wf.ids, wf.addresses, wf.spent⟩, Nat.le_refl _, fun _ live _ => live, fun _ member => member⟩
  unfold acceptPeer
  split
  case isTrue => exact ⟨Follows.refl wf, rfl, fun _ member => member⟩
  case isFalse =>
    dsimp only
    split
    case isTrue => exact ⟨counted, rfl, fun _ member => member⟩
    case isFalse =>
      split
      case isTrue => exact ⟨counted, rfl, fun _ member => member⟩
      case isFalse free =>
        have fresh : ∀ conn ∈ server.conns, conn.id ≠ server.genereateId.1 := by
          intro conn member same
          apply free
          exact List.any_eq_true.mpr ⟨conn, member, decide_eq_true same⟩
        have added := insert_wf counted.wf fresh
        have grown : server.Follows
            { server.genereateId.2 with
              conns := ⟨server.nextAddress, server.genereateId.1⟩ :: server.conns
              nextAddress := server.nextAddress + 1 } := by
          refine ⟨added, Nat.le_succ _, ?_, fun _ member => member⟩
          intro address live old
          obtain ⟨conn, member, rfl⟩ := mem_live.mp live
          rcases List.mem_cons.mp member with rfl | inside
          · exact absurd old (Nat.lt_irrefl _)
          · exact mem_live.mpr ⟨conn, inside, rfl⟩
        split
        case isTrue => exact ⟨grown, rfl, fun _ member => List.mem_cons_of_mem _ member⟩
        case isFalse =>
          refine ⟨grown.trans (closeConnection_follows added), rfl, ?_⟩
          intro conn member
          exact mem_closeConnection.mpr ⟨List.mem_cons_of_mem _ member, fresh conn member⟩

/-- Accepting closes nobody and gives new addresses only. -/
theorem acceptLoop_spec (wf : server.Wf) (cmdAccept : Bool) (event : Event) :
    server.Follows (server.acceptLoop cmdAccept event) ∧
      (server.acceptLoop cmdAccept event).stale = server.stale ∧
      ∀ conn ∈ server.conns, conn ∈ (server.acceptLoop cmdAccept event).conns := by
  have peers : ∀ (peers : List Peer) (server : Server), server.Wf →
      server.Follows (server.acceptPeers cmdAccept peers) ∧
        (server.acceptPeers cmdAccept peers).stale = server.stale ∧
        ∀ conn ∈ server.conns, conn ∈ (server.acceptPeers cmdAccept peers).conns := by
    intro peers
    induction peers with
    | nil =>
      intro server wf
      exact ⟨Follows.refl wf, rfl, fun _ member => member⟩
    | cons peer rest ih =>
      intro server wf
      obtain ⟨follows, stale, kept⟩ := acceptPeer_spec wf cmdAccept peer
      obtain ⟨restFollows, restStale, restKept⟩ := ih _ follows.wf
      exact ⟨follows.trans restFollows, restStale.trans stale,
        fun conn member => restKept conn (kept conn member)⟩
  obtain ⟨follows, stale, kept⟩ := peers event.peers server wf
  exact ⟨⟨⟨follows.wf.ids, follows.wf.addresses, follows.wf.spent⟩, follows.spent, follows.dead,
    follows.stale⟩, stale, kept⟩

end Accept

section Handle

variable (round : Round) (event : Event)

/-- A connection that can be written to stays or is closed. -/
theorem handleWritable_cases (server : Server) (conn : Conn) :
    server.handleWritable round event conn = server ∨
      server.handleWritable round event conn = server.closeConnection conn.id := by
  unfold handleWritable
  split
  case isTrue =>
    split
    case h_1 => exact .inl rfl
    case h_2 flushed _ =>
      split
      · exact .inl rfl
      · cases flushed
        · exact .inr rfl
        · exact .inl rfl
  case isFalse => exact .inl rfl

/-- An event of an open connection closes this connection at most. -/
theorem handleConn_live (found : server.conns.find? (·.address = address) = some conn) :
    server.handleConn round event address = server ∨
      server.handleConn round event address = server.closeConnection conn.id := by
  unfold handleConn
  rw [found]
  dsimp only
  split
  case isTrue => exact .inr rfl
  case isFalse =>
    split
    case isTrue =>
      split
      case isTrue => exact .inl rfl
      case isFalse =>
        split
        case h_1 => exact .inr rfl
        case h_2 => exact handleWritable_cases round event server conn
    case isFalse => exact handleWritable_cases round event server conn

/-- An event of a closed connection uses its address all the same. -/
theorem handleConn_dead (gone : address ∉ server.live) :
    server.handleConn round event address = { server with stale := address :: server.stale } := by
  have missing : server.conns.find? (·.address = address) = none := by
    rw [List.find?_eq_none]
    intro conn member same
    exact gone (mem_live.mpr ⟨conn, member, by simpa using same⟩)
  unfold handleConn
  rw [missing]

/-- An event of a connection makes no address new. -/
theorem handleConn_follows (wf : server.Wf) (address : Nat) :
    server.Follows (server.handleConn round event address) := by
  cases found : server.conns.find? (·.address = address) with
  | some conn =>
    rcases handleConn_live round event found with same | closed
    · rw [same]
      exact Follows.refl wf
    · rw [closed]
      exact closeConnection_follows wf
  | none =>
    have gone : address ∉ server.live := by
      intro live
      obtain ⟨conn, member, same⟩ := mem_live.mp live
      exact List.find?_eq_none.mp found conn member (decide_eq_true same)
    rw [handleConn_dead round event gone]
    exact ⟨⟨wf.ids, wf.addresses, wf.spent⟩, Nat.le_refl _, fun _ live _ => live,
      fun _ member => List.mem_cons_of_mem _ member⟩

/-- An event is for the listener, the pipe or a connection. -/
theorem handleEvent_eq (server : Server) (i : Nat) :
    server.handleEvent round event i =
      match event.target with
      | .listener => server.accepted round event i
      | .notifier => server.accepted round event i
      | .conn address => (server.accepted round event i).handleConn round event address := rfl

/-- The accepting half of an event closes nobody. -/
theorem accepted_spec (wf : server.Wf) (i : Nat) :
    server.Follows (server.accepted round event i) ∧
      (server.accepted round event i).stale = server.stale ∧
      ∀ conn ∈ server.conns, conn ∈ (server.accepted round event i).conns := by
  unfold accepted
  split
  · exact acceptLoop_spec wf round.cmdAccept event
  · exact ⟨Follows.refl wf, rfl, fun _ member => member⟩

/-- An event keeps ids and addresses apart. -/
theorem handleEvent_follows (wf : server.Wf) (i : Nat) :
    server.Follows (server.handleEvent round event i) := by
  obtain ⟨follows, -, -⟩ := accepted_spec round event wf i
  rw [handleEvent_eq]
  split
  · exact follows
  · exact follows
  · exact follows.trans (handleConn_follows round event follows.wf _)

/-- By induction over the events of the batch. -/
theorem handleEvents_follows (wf : server.Wf) (events : List Event) (i : Nat) :
    server.Follows (handleEvents round server events i) := by
  induction events generalizing server i with
  | nil => exact Follows.refl wf
  | cons event rest ih =>
    have first := handleEvent_follows round event wf i
    exact first.trans (ih first.wf (i + 1))

end Handle

variable {round : Round}

/-- The addresses of a batch, event by event. -/
theorem addressesOf_cons (event : Event) (rest : List Event) :
    addressesOf (event :: rest) =
      match event.target with
      | .conn address => address :: addressesOf rest
      | _ => addressesOf rest := by
  unfold addressesOf
  rw [List.filterMap_cons]
  cases event.target <;> rfl

/-- While every event left is of an open connection, no stale address is used. -/
theorem handleEvents_quiet (events : List Event) (i : Nat) (wf : server.Wf)
    (live : ∀ address ∈ addressesOf events, address ∈ server.live)
    (once : (addressesOf events).Nodup) :
    (handleEvents round server events i).stale = server.stale := by
  induction events generalizing server i with
  | nil => rfl
  | cons event rest ih =>
    obtain ⟨follows, stale, kept⟩ := accepted_spec round event wf i
    have keptLive : ∀ address ∈ server.live, address ∈ (server.accepted round event i).live := by
      intro address open'
      obtain ⟨conn, member, rfl⟩ := mem_live.mp open'
      exact mem_live.mpr ⟨conn, kept conn member, rfl⟩
    change (handleEvents round (server.handleEvent round event i) rest (i + 1)).stale = _
    rw [handleEvent_eq]
    cases target : event.target with
    | listener =>
      have shape : addressesOf (event :: rest) = addressesOf rest := by
        rw [addressesOf_cons, target]
      rw [shape] at live once
      exact (ih (i + 1) follows.wf (fun a member => keptLive a (live a member)) once).trans stale
    | notifier =>
      have shape : addressesOf (event :: rest) = addressesOf rest := by
        rw [addressesOf_cons, target]
      rw [shape] at live once
      exact (ih (i + 1) follows.wf (fun a member => keptLive a (live a member)) once).trans stale
    | conn address =>
      have shape : addressesOf (event :: rest) = address :: addressesOf rest := by
        rw [addressesOf_cons, target]
      rw [shape] at live once
      obtain ⟨alone, once⟩ := List.nodup_cons.mp once
      have here := keptLive address (live address List.mem_cons_self)
      have others : ∀ a ∈ addressesOf rest, a ∈ (server.accepted round event i).live :=
        fun a member => keptLive a (live a (List.mem_cons_of_mem _ member))
      obtain ⟨conn, member, same⟩ := mem_live.mp here
      have found : (server.accepted round event i).conns.find? (·.address = address)
          = some conn := by
        cases result : (server.accepted round event i).conns.find? (·.address = address) with
        | none => exact absurd (decide_eq_true same) (List.find?_eq_none.mp result conn member)
        | some other =>
          have otherIn := List.mem_of_find?_eq_some result
          have otherSame : other.address = address := by simpa using List.find?_some result
          rw [follows.wf.eq_of_address otherIn member (otherSame.trans same.symm)]
      dsimp only
      rcases handleConn_live round event found with unchanged | closed
      · rw [unchanged]
        exact (ih (i + 1) follows.wf others once).trans stale
      · rw [closed]
        refine (ih (i + 1) follows.wf.closeConnection ?_ once).trans stale
        -- the connection that is closed has no second event
        intro a inside
        obtain ⟨other, otherIn, rfl⟩ := mem_live.mp (others a inside)
        refine mem_live.mpr ⟨other, mem_closeConnection.mpr ⟨otherIn, ?_⟩, rfl⟩
        intro sameId
        rw [follows.wf.eq_of_id otherIn member sameId, same] at inside
        exact alone inside

/-- An event of a connection that is gone has its address used. -/
theorem handleEvents_stale (round : Round) (events : List Event) (i : Nat) (wf : server.Wf)
    {address : Nat} (member : address ∈ addressesOf events) (gone : address ∉ server.live)
    (spent : address < server.nextAddress) :
    address ∈ (handleEvents round server events i).stale := by
  induction events generalizing server i with
  | nil => cases member
  | cons event rest ih =>
    obtain ⟨follows, -, -⟩ := accepted_spec round event wf i
    have whole := handleEvent_follows round event wf i
    by_cases here : event.target = .conn address
    · have dead : address ∉ (server.accepted round event i).live :=
        fun live => gone (follows.dead address live spent)
      have used : address ∈ (server.handleEvent round event i).stale := by
        rw [handleEvent_eq, here]
        dsimp only
        rw [handleConn_dead round event dead]
        exact List.mem_cons_self
      exact (handleEvents_follows round whole.wf rest (i + 1)).stale address used
    · have later : address ∈ addressesOf rest := by
        rw [addressesOf_cons] at member
        cases target : event.target with
        | listener => rwa [target] at member
        | notifier => rwa [target] at member
        | conn other =>
          rw [target] at member
          rcases List.mem_cons.mp member with same | inside
          · exact absurd (same ▸ target) here
          · exact inside
      apply ih (i + 1) whole.wf later
      · intro live
        exact gone (whole.dead address live spent)
      · exact Nat.lt_of_lt_of_le spent whole.spent

/-- A round keeps ids and addresses apart. -/
theorem doIo_follows (wf : server.Wf) (round : Round) : server.Follows (server.doIo round) := by
  have wake := onWakeup_follows wf round.blocks
  exact wake.trans (handleEvents_follows round wake.wf round.events 0)

/-- A round uses no stale address exactly when `on_wakeup` closes no connection that has an
event in the batch. -/
theorem doIo_stale_iff (wf : server.Wf) (polled : round.Polled server) (clean : server.stale = []) :
    (server.doIo round).stale = [] ↔ round.Undisturbed server := by
  have wake := onWakeup_follows wf round.blocks
  constructor
  · intro quiet conn member inBatch block blockIn closes
    have gone : conn.address ∉ (server.onWakeup round.blocks).live := by
      intro live
      obtain ⟨other, otherIn, same⟩ := mem_live.mp live
      obtain ⟨before, spared⟩ := (mem_onWakeup round.blocks).mp otherIn
      rw [wf.eq_of_address before member same] at spared
      exact spared block blockIn closes
    have spent : conn.address < (server.onWakeup round.blocks).nextAddress :=
      Nat.lt_of_lt_of_le (wf.spent conn member) wake.spent
    have used := handleEvents_stale round round.events 0 wake.wf inBatch gone spent
    change conn.address ∈ (server.doIo round).stale at used
    rw [quiet] at used
    cases used
  · intro undisturbed
    have live : ∀ address ∈ addressesOf round.events,
        address ∈ (server.onWakeup round.blocks).live := by
      intro address member
      obtain ⟨conn, inside, rfl⟩ := mem_live.mp (polled.registered address member)
      exact mem_live.mpr ⟨conn, (mem_onWakeup round.blocks).mpr
        ⟨inside, undisturbed conn inside member⟩, rfl⟩
    change (handleEvents round (server.onWakeup round.blocks) round.events 0).stale = []
    rw [handleEvents_quiet round.events 0 wake.wf live polled.once, onWakeup_stale, clean]

end Server

/-- `net_io_server` after `init`. -/
def Server.init (idBase idStep : Int) : Server where
  conns := []
  nextAddress := 0
  mId := idBase
  mIdBase := idBase
  mIdStep := idStep
  runout := false
  stale := []

/-- In a run whose rounds close no connection in `on_wakeup` that has an event in the batch,
every event handled is of an open connection; and a round that does close one uses the
address of a closed connection. -/
theorem events_live_iff {idBase idStep : Int} {server : Server}
    (run : Runs.Reaches Server.doIo (fun server round => round.Polled server ∧
      round.Undisturbed server) (Server.init idBase idStep) server) :
    server.stale = [] ∧ ∀ round : Round, round.Polled server →
      ((server.doIo round).stale = [] ↔ round.Undisturbed server) := by
  have inv : server.Wf ∧ server.stale = [] := by
    apply run.invariant
    · exact ⟨⟨List.nodup_nil, List.nodup_nil, nofun⟩, rfl⟩
    · rintro server round ⟨wf, clean⟩ ⟨polled, undisturbed⟩
      exact ⟨(Server.doIo_follows wf round).wf,
        (Server.doIo_stale_iff wf polled clean).mpr undisturbed⟩
  exact ⟨inv.2, fun round polled => Server.doIo_stale_iff inv.1 polled inv.2⟩

/-- The listening socket's event, with peers to accept. -/
def acceptEvent (peers : List Peer) : Event :=
  ⟨.listener, false, true, false, .kept, none, peers, false⟩

def readEvent (address : Nat) : Event := ⟨.conn address, false, true, false, .kept, none, [], false⟩

/-- A round that accepts two peers. -/
def acceptRound : Round := ⟨true, true, true, [], [acceptEvent [⟨true, true⟩, ⟨true, true⟩]]⟩

/-- A round in which a `FIN_BLOCK` closes the first connection while data of both is
announced. -/
def finRound : Round := ⟨true, true, true, [.fin 1], [readEvent 0, readEvent 1]⟩

/-- A round in which a `FIN_BLOCK` closes the first connection while data of the second one is
announced. -/
def otherRound : Round := ⟨true, true, true, [.fin 1], [readEvent 1]⟩

/-- Two connections, of which the first one is closed. -/
def closedOne : Server := ((Server.init 1 1).doIo acceptRound).doIo otherRound

theorem events_live_iff_closedOne :
    closedOne.conns = [⟨1, 2⟩] ∧ closedOne.stale = [] ∧
      ∀ round : Round, round.Polled closedOne →
        ((closedOne.doIo round).stale = [] ↔ round.Undisturbed closedOne) := by
  have accepted : acceptRound.Polled (Server.init 1 1) := ⟨nofun, List.nodup_nil⟩
  have announced : otherRound.Polled ((Server.init 1 1).doIo acceptRound) :=
    ⟨by decide, by decide⟩
  have other : otherRound.Undisturbed ((Server.init 1 1).doIo acceptRound) := by decide
  exact ⟨by decide, events_live_iff (.call (.call .refl ⟨accepted, nofun⟩) ⟨announced, other⟩)⟩

/-- After two accepts, an event of the batch is handled although `on_wakeup` has closed its
connection. -/
theorem finRound_uses_closed :
    ¬ ∀ server, Runs.Reaches Server.doIo (fun server round => round.Polled server)
      (Server.init 1 1) server → server.stale = [] := by
  intro always
  have accepted : acceptRound.Polled (Server.init 1 1) := ⟨nofun, List.nodup_nil⟩
  have announced : finRound.Polled ((Server.init 1 1).doIo acceptRound) := ⟨by decide, by decide⟩
  have used := always _ (.call (.call .refl accepted) announced)
  revert used
  decide

end Taomee.NetIo
