import Mathlib.Data.Nat.Count
import Taomee.ServerBench.Routing

/-!
# serverbench: the sweep over the connections

With `EPOLL_MODE` a pass of `net_loop` ends with a loop over `fdinfo` that counts the valid
entries it meets in `j`, and stops when `j` is no longer below `maxfd`. `do_add_conn` adds one to
`maxfd` and `do_close_conn` takes one off, also when the loop itself calls it.
-/

namespace Taomee.ServerBench

open Runs

variable {after : Server}

/-- The connection process with `maxfd`. -/
structure NetLoop where
  server : Server
  maxfd : Int

namespace NetLoop

def initial : NetLoop := ⟨.initial, 0⟩

/-- The kernel opens a descriptor, and `do_add_conn` fills its entry. -/
def addConn (loop : NetLoop) (fd : Nat) (flag : Flag) (remote : Addr) (timeout : Int) : NetLoop :=
  ⟨(loop.server.openSocket fd).doAddConn fd flag remote timeout, loop.maxfd + 1⟩

/-- `do_close_conn` -/
def doCloseConn (loop : NetLoop) (fd : Nat) : NetLoop :=
  let flag := (loop.server.fdinfo fd).flag
  if flag.listen || !flag.valid then loop
  else ⟨loop.server.doCloseConn fd, loop.maxfd - 1⟩

/-- `do_check_conn`, with what `check_timeout` finds. -/
def doCheckConn (loop : NetLoop) (fd : Nat) (expired : Bool) : NetLoop :=
  let info := loop.server.fdinfo fd
  if info.flag.fin && info.cb.sendlen = 0 then loop.doCloseConn fd
  else if !info.flag.listen && info.timeout > 0 && expired then loop.doCloseConn fd
  else loop

/-- What the loop does to a connection. -/
def examine (loop : NetLoop) (fd : Nat) (answers : List SendResult) (expired : Bool) : NetLoop :=
  let sent := loop.server.writePending fd answers
  let written : NetLoop := { loop with server := sent.2 }
  if sent.1 = -1 then written.doCloseConn fd else written.doCheckConn fd expired

end NetLoop

/-- A valid entry that is neither a listening socket nor the pipe. -/
def Server.connection (server : Server) (fd : Nat) : Bool :=
  let flag := (server.fdinfo fd).flag
  flag.valid && !flag.listen && !flag.pipe

namespace NetLoop

/-- The loop from `pos` on, with so many entries of `fdinfo` left: the connections it examines, and
what it leaves. -/
def sweepFrom (answers : Nat → List SendResult) (expired : Nat → Bool) :
    (left pos : Nat) → (j : Int) → NetLoop → List Nat × NetLoop
  | 0, _, _, loop => ([], loop)
  | left + 1, pos, j, loop =>
    if j < loop.maxfd then
      if (loop.server.fdinfo pos).flag.valid then
        if loop.server.connection pos then
          let rest := sweepFrom answers expired left (pos + 1) (j + 1)
            (loop.examine pos (answers pos) (expired pos))
          (pos :: rest.1, rest.2)
        else sweepFrom answers expired left (pos + 1) (j + 1) loop
      else sweepFrom answers expired left (pos + 1) j loop
    else ([], loop)

/-- The second loop of `net_loop`. -/
def sweep (loop : NetLoop) (answers : Nat → List SendResult) (expired : Nat → Bool) :
    List Nat × NetLoop :=
  sweepFrom answers expired maxFds 0 0 loop

end NetLoop

/-- What happens to the table of connections. `serve` stands for what `run_once` and
`schedule_output` change in an entry that they neither add nor close. -/
inductive TableEvent where
  | addConn (fd : Nat) (flag : Flag) (remote : Addr) (timeout : Int)
  | closeConn (fd : Nat)
  | serve (fd : Nat) (info : FdInfo)
  | sweep (answers : Nat → List SendResult) (expired : Nat → Bool)

def NetLoop.step (loop : NetLoop) : TableEvent → NetLoop
  | .addConn fd flag remote timeout => loop.addConn fd flag remote timeout
  | .closeConn fd => loop.doCloseConn fd
  | .serve fd info => { loop with server := loop.server.setInfo fd info }
  | .sweep answers expired => (loop.sweep answers expired).2

/-- The kernel opens descriptors that are not in use, and below `MAXFDS`; serving leaves alone
which entries are valid. -/
def TableEvent.Fits (loop : NetLoop) : TableEvent → Prop
  | .addConn fd _ _ _ => fd < maxFds ∧ loop.server.socket fd = none
  | .serve fd info => info.flag.valid = (loop.server.fdinfo fd).flag.valid
  | _ => True

instance TableEvent.Fits.decidable (loop : NetLoop) : ∀ event, Decidable (Fits loop event)
  | .addConn _ _ _ _ => inferInstanceAs (Decidable (_ ∧ _))
  | .closeConn _ => inferInstanceAs (Decidable True)
  | .serve _ _ => inferInstanceAs (Decidable (_ = _))
  | .sweep _ _ => inferInstanceAs (Decidable True)

variable {loop : NetLoop} {server : Server} {fd other pos : Nat} {answers : List SendResult}
  {expired : Bool}

/-! ## Closing -/

/-- The connection is closed when it is examined: a write fails, it is marked and has nothing left
to send, or it has timed out. -/
def Server.closes (server : Server) (answers : List SendResult) (expired : Bool) (fd : Nat) : Bool :=
  let sent := server.writePending fd answers
  let info := sent.2.fdinfo fd
  server.connection fd &&
    (sent.1 = -1 || info.flag.fin && info.cb.sendlen = 0 || info.timeout > 0 && expired)

/-- Two servers have one entry and socket on a descriptor. -/
def Server.Agree (server after : Server) (fd : Nat) : Prop :=
  after.fdinfo fd = server.fdinfo fd ∧ after.socket fd = server.socket fd

/-- Writing changes one entry, and there no more than the buffer. -/
theorem Server.writePending_fdinfo (server : Server) (fd : Nat) (answers : List SendResult) :
    ∃ cb, (server.writePending fd answers).2.fdinfo =
      Function.update server.fdinfo fd { server.fdinfo fd with cb := cb } := by
  unfold Server.writePending
  split
  case isFalse => exact ⟨(server.fdinfo fd).cb, by simp⟩
  unfold Server.doWriteConn
  dsimp only
  split
  case isFalse => exact ⟨(server.fdinfo fd).cb, by simp⟩
  simp only [Server.dropSent, Server.setCb, Server.setInfo, Server.sendPending_fdinfo]
  exact ⟨_, rfl⟩

/-- What is written on a connection depends on its entry and its socket. -/
theorem Server.writePending_agree (answers : List SendResult) (agree : server.Agree after fd) :
    (after.writePending fd answers).1 = (server.writePending fd answers).1 ∧
      (after.writePending fd answers).2.fdinfo fd =
        (server.writePending fd answers).2.fdinfo fd := by
  obtain ⟨entry, socket⟩ := agree
  have pending : (after.sendPending fd answers).1 = (server.sendPending fd answers).1 := by
    unfold Server.sendPending Server.safeTcpSendN
    rw [entry, socket]
    cases (server.fdinfo fd).cb.sendptr with
    | none => rfl
    | some buf => cases server.socket fd <;> rfl
  unfold Server.writePending Server.doWriteConn
  rw [entry]
  split
  case isFalse => exact ⟨rfl, entry⟩
  dsimp only
  rw [pending]
  split <;> simp [Server.dropSent, pending, entry]

theorem Server.connection_agree (agree : server.Agree after fd) :
    after.connection fd = server.connection fd := by
  unfold Server.connection
  rw [agree.1]

theorem Server.closes_agree (agree : server.Agree after fd) :
    after.closes answers expired fd = server.closes answers expired fd := by
  obtain ⟨returned, entry⟩ := Server.writePending_agree answers agree
  unfold Server.closes
  dsimp only
  rw [returned, entry, Server.connection_agree agree]

namespace NetLoop

/-- Closing a valid entry that is not listening. -/
theorem doCloseConn_eq (valid : (loop.server.fdinfo fd).flag.valid = true)
    (listen : (loop.server.fdinfo fd).flag.listen = false) :
    loop.doCloseConn fd = ⟨loop.server.doCloseConn fd, loop.maxfd - 1⟩ := by
  simp [NetLoop.doCloseConn, valid, listen]

/-- Examining a connection closes it or leaves it valid, and `maxfd` goes with it. -/
theorem examine_eq (answers : List SendResult) (expired : Bool)
    (conn : loop.server.connection fd = true) :
    loop.server.closes answers expired fd = true ∧
        (loop.examine fd answers expired).maxfd = loop.maxfd - 1 ∧
        (loop.examine fd answers expired).server.fdinfo =
          Function.update loop.server.fdinfo fd .zero ∧
        (loop.examine fd answers expired).server.socket =
          Function.update loop.server.socket fd none ∨
      loop.server.closes answers expired fd = false ∧
        (loop.examine fd answers expired).maxfd = loop.maxfd ∧
        (∃ cb, (loop.examine fd answers expired).server.fdinfo =
          Function.update loop.server.fdinfo fd { loop.server.fdinfo fd with cb := cb }) ∧
        (loop.examine fd answers expired).server.socket = loop.server.socket := by
  obtain ⟨cb, entries⟩ := loop.server.writePending_fdinfo fd answers
  have sockets : (loop.server.writePending fd answers).2.socket = loop.server.socket := by simp
  have alive : (loop.server.fdinfo fd).flag.valid = true ∧
      (loop.server.fdinfo fd).flag.listen = false := by
    simp only [Server.connection, Bool.and_eq_true, Bool.not_eq_true'] at conn
    exact conn.1
  unfold examine doCheckConn Server.closes
  rw [conn]
  generalize loop.server.writePending fd answers = sent at entries sockets ⊢
  obtain ⟨returned, written⟩ := sent
  dsimp only at entries sockets ⊢
  have entry : written.fdinfo fd = { loop.server.fdinfo fd with cb := cb } := by simp [entries]
  have close : NetLoop.doCloseConn ⟨written, loop.maxfd⟩ fd =
      ⟨{ written.setInfo fd .zero with socket := Function.update written.socket fd none },
        loop.maxfd - 1⟩ := by
    simp [NetLoop.doCloseConn, Server.doCloseConn, entry, alive]
  have closed : (NetLoop.doCloseConn ⟨written, loop.maxfd⟩ fd).maxfd = loop.maxfd - 1 ∧
      (NetLoop.doCloseConn ⟨written, loop.maxfd⟩ fd).server.fdinfo =
        Function.update loop.server.fdinfo fd .zero ∧
      (NetLoop.doCloseConn ⟨written, loop.maxfd⟩ fd).server.socket =
        Function.update loop.server.socket fd none := by
    rw [close]
    exact ⟨rfl, by simp [Server.setInfo, entries], by simp [sockets]⟩
  split
  case isTrue failed => exact .inl ⟨by simp [failed], closed⟩
  case isFalse went =>
    split
    case isTrue done => exact .inl ⟨by simp [done], closed⟩
    case isFalse busy =>
      split
      case isTrue late => exact .inl ⟨by simp_all, closed⟩
      case isFalse early =>
        exact .inr ⟨by simp_all, rfl, ⟨cb, entries⟩, sockets⟩

end NetLoop

/-! ## What a pass examines -/

section
variable (answers : Nat → List SendResult) (expired : Nat → Bool)

/-- The valid entries below a descriptor. -/
def Server.live (server : Server) (fd : Nat) : Nat :=
  Nat.count (fun below => (server.fdinfo below).flag.valid = true) fd

/-- The valid entries above a descriptor. -/
def Server.liveAfter (server : Server) (fd : Nat) : Nat :=
  server.live maxFds - server.live (fd + 1)

/-- The connections below a descriptor that are closed when they are examined. -/
def Server.closedBefore (server : Server) (fd : Nat) : Nat :=
  Nat.count (fun below => server.closes (answers below) (expired below) below = true) fd

variable {answers expired}

theorem Server.connection_valid (conn : server.connection fd = true) :
    (server.fdinfo fd).flag.valid = true := by
  simp only [Server.connection, Bool.and_eq_true] at conn
  exact conn.1.1

theorem Server.live_succ (server : Server) (fd : Nat) :
    server.live (fd + 1) =
      server.live fd + if (server.fdinfo fd).flag.valid = true then 1 else 0 :=
  Nat.count_succ _ _

theorem Server.closedBefore_zero (server : Server) : server.closedBefore answers expired 0 = 0 :=
  Nat.count_zero _

theorem Server.closedBefore_succ (server : Server) (fd : Nat) :
    server.closedBefore answers expired (fd + 1) = server.closedBefore answers expired fd +
      if server.closes (answers fd) (expired fd) fd = true then 1 else 0 :=
  Nat.count_succ _ _

theorem Server.live_mono (server : Server) (below : fd ≤ other) :
    server.live fd ≤ server.live other :=
  Nat.count_monotone _ below

theorem Server.closedBefore_mono (server : Server) (below : fd ≤ other) :
    server.closedBefore answers expired fd ≤ server.closedBefore answers expired other :=
  Nat.count_monotone _ below

/-- The descriptors that the loop examines come in ascending order. -/
theorem NetLoop.sweepFrom_sorted (left pos : Nat) (j : Int) (loop : NetLoop) :
    (sweepFrom answers expired left pos j loop).1.Pairwise (· < ·) ∧
      ∀ fd ∈ (sweepFrom answers expired left pos j loop).1, pos ≤ fd := by
  induction left generalizing pos j loop with
  | zero => simp [sweepFrom]
  | succ left ih =>
    have later (j : Int) (loop : NetLoop) :
        (sweepFrom answers expired left (pos + 1) j loop).1.Pairwise (· < ·) ∧
          ∀ fd ∈ (sweepFrom answers expired left (pos + 1) j loop).1, pos < fd := ih (pos + 1) j loop
    have weaker (j : Int) (loop : NetLoop) :
        (sweepFrom answers expired left (pos + 1) j loop).1.Pairwise (· < ·) ∧
          ∀ fd ∈ (sweepFrom answers expired left (pos + 1) j loop).1, pos ≤ fd :=
      ⟨(later j loop).1, fun fd member => Nat.le_of_lt ((later j loop).2 fd member)⟩
    unfold sweepFrom
    split
    · split
      · split
        · obtain ⟨sorted, above⟩ := later (j + 1) (loop.examine pos (answers pos) (expired pos))
          refine ⟨List.pairwise_cons.mpr ⟨above, sorted⟩, ?_⟩
          rintro fd member
          rcases List.mem_cons.mp member with rfl | further
          · exact Nat.le_refl _
          · exact Nat.le_of_lt (above fd further)
        · exact weaker _ _
      · exact weaker _ _
    · simp

/-- A pass has got to `pos`, and found the entries from there on as they were before it. -/
structure NetLoop.Swept (answers : Nat → List SendResult) (expired : Nat → Bool)
    (server : Server) (pos : Nat) (j : Int) (loop : NetLoop) : Prop where
  ahead : ∀ fd, pos ≤ fd → server.Agree loop.server fd
  counted : j = server.live pos
  maxfd : loop.maxfd = server.live maxFds - server.closedBefore answers expired pos

namespace NetLoop.Swept

variable {j : Int} {loop : NetLoop}

/-- An entry that is no connection is left as it is. -/
theorem pass (swept : Swept answers expired server pos j loop)
    (skips : server.connection pos = false) :
    Swept answers expired server (pos + 1)
      (j + if (server.fdinfo pos).flag.valid = true then 1 else 0) loop where
  ahead fd above := swept.ahead fd (by omega)
  counted := by
    rw [Server.live_succ, swept.counted]
    split <;> simp
  maxfd := by
    have open' : server.closes (answers pos) (expired pos) pos = false := by
      simp [Server.closes, skips]
    rw [Server.closedBefore_succ, swept.maxfd, open']
    simp only [Bool.false_eq_true, if_false, Nat.add_zero]

theorem examine (swept : Swept answers expired server pos j loop)
    (conn : server.connection pos = true) :
    Swept answers expired server (pos + 1) (j + 1)
      (loop.examine pos (answers pos) (expired pos)) := by
  have agree := swept.ahead pos (Nat.le_refl _)
  have here : loop.server.connection pos = true := (Server.connection_agree agree).trans conn
  have counted : j + 1 = server.live (pos + 1) := by
    rw [Server.live_succ, if_pos (Server.connection_valid conn), swept.counted]
    rfl
  have apart (fd : Nat) (above : pos + 1 ≤ fd) : fd ≠ pos := by omega
  have same : loop.server.closes (answers pos) (expired pos) pos =
      server.closes (answers pos) (expired pos) pos := Server.closes_agree agree
  rcases NetLoop.examine_eq (answers pos) (expired pos) here with
    ⟨closes, maxfd, entries, sockets⟩ | ⟨stays, maxfd, ⟨cb, entries⟩, sockets⟩
  · refine ⟨?_, counted, ?_⟩
    · intro fd above
      obtain ⟨entry, socket⟩ := swept.ahead fd (by omega)
      rw [Server.Agree, entries, sockets]
      simp [apart fd above, entry, socket]
    · rw [Server.closedBefore_succ, ← same, closes, maxfd, swept.maxfd, if_pos rfl]
      omega
  · refine ⟨?_, counted, ?_⟩
    · intro fd above
      obtain ⟨entry, socket⟩ := swept.ahead fd (by omega)
      rw [Server.Agree, entries, sockets]
      simp [apart fd above, entry, socket]
    · rw [Server.closedBefore_succ, ← same, stays, maxfd, swept.maxfd]
      simp only [Bool.false_eq_true, if_false, Nat.add_zero]

/-- A connection is examined when no more of those below it are closed than there are live entries
above it. -/
theorem mem_iff (left : Nat) (swept : Swept answers expired server pos j loop)
    (reach : pos + left = maxFds) (above : pos ≤ fd) (below : fd < maxFds)
    (conn : server.connection fd = true) :
    fd ∈ (sweepFrom answers expired left pos j loop).1 ↔
      server.closedBefore answers expired fd + server.live (fd + 1) ≤ server.live maxFds := by
  induction left generalizing pos j loop with
  | zero => omega
  | succ left ih =>
    have agree := swept.ahead pos (Nat.le_refl _)
    have further (apart : fd ≠ pos) {j : Int} {after : NetLoop}
        (later : Swept answers expired server (pos + 1) j after) :
        fd ∈ (sweepFrom answers expired left (pos + 1) j after).1 ↔
          server.closedBefore answers expired fd + server.live (fd + 1) ≤ server.live maxFds :=
      ih later (by omega) (by omega)
    have live := server.live_succ fd
    rw [if_pos (Server.connection_valid conn)] at live
    have seen := swept.counted
    have count := swept.maxfd
    unfold sweepFrom
    split
    case isFalse ended =>
      have less : server.live pos ≤ server.live fd := server.live_mono above
      have more : server.closedBefore answers expired pos ≤
          server.closedBefore answers expired fd := server.closedBefore_mono above
      constructor
      · exact fun member => absurd member List.not_mem_nil
      · omega
    case isTrue running =>
      rw [agree.1, Server.connection_agree agree]
      cases met : server.connection pos with
      | true =>
        rw [if_pos (Server.connection_valid met), if_pos rfl]
        by_cases here : fd = pos
        · subst here
          exact iff_of_true List.mem_cons_self (by omega)
        · rw [List.mem_cons, or_iff_right here]
          exact further here (swept.examine met)
      | false =>
        have apart : fd ≠ pos := by
          rintro rfl
          cases conn.symm.trans met
        have passed := further apart (swept.pass met)
        cases valid : (server.fdinfo pos).flag.valid with
        | true => simpa [valid] using passed
        | false => simpa [valid] using passed

end NetLoop.Swept

end

/-! ## The table -/

/-- `maxfd` counts the valid entries; these are in use, and below `MAXFDS`. -/
structure NetLoop.Counted (loop : NetLoop) : Prop where
  maxfd : loop.maxfd = loop.server.live maxFds
  inside : ∀ fd, (loop.server.fdinfo fd).flag.valid = true →
    fd < maxFds ∧ loop.server.socket fd ≠ none

/-- An entry becomes valid or invalid, and the count changes by one. -/
theorem Server.live_update (within : fd < maxFds)
    (same : ∀ other ≠ fd, (after.fdinfo other).flag.valid = (server.fdinfo other).flag.valid)
    (before : (server.fdinfo fd).flag.valid = false) (now : (after.fdinfo fd).flag.valid = true) :
    after.live maxFds = server.live maxFds + 1 := by
  have grows (bound : Nat) : after.live bound = server.live bound + if fd < bound then 1 else 0 := by
    induction bound with
    | zero => rfl
    | succ bound ih =>
      rw [Server.live_succ, Server.live_succ, ih]
      by_cases here : bound = fd
      · subst here
        simp [before, now]
      · rw [same bound here]
        have reached : fd < bound + 1 ↔ fd < bound := by omega
        simp only [reached]
        omega
  rw [grows, if_pos within]

namespace NetLoop.Counted

theorem initial : NetLoop.initial.Counted where
  maxfd := by
    have none (bound : Nat) : Server.initial.live bound = 0 := by
      induction bound with
      | zero => rfl
      | succ bound ih =>
        rw [Server.live_succ, ih]
        rfl
    simp [NetLoop.initial, none]
  inside := by simp [NetLoop.initial, Server.initial, FdInfo.zero, Flag.zero]

/-- Entries change, and none becomes valid or invalid. -/
theorem keeps (counted : loop.Counted) (server : Server)
    (same : ∀ fd, (server.fdinfo fd).flag.valid = (loop.server.fdinfo fd).flag.valid)
    (sockets : server.socket = loop.server.socket) : NetLoop.Counted ⟨server, loop.maxfd⟩ where
  maxfd := by
    rw [counted.maxfd]
    simp only [Server.live, same]
  inside fd valid := by
    obtain ⟨within, used⟩ := counted.inside fd ((same fd).symm.trans valid)
    exact ⟨within, by rw [sockets]; exact used⟩

theorem addConn (counted : loop.Counted) (within : fd < maxFds)
    (unused : loop.server.socket fd = none) (flag : Flag) (remote : Addr) (timeout : Int) :
    (loop.addConn fd flag remote timeout).Counted where
  maxfd := by
    have before : (loop.server.fdinfo fd).flag.valid = false := by
      by_contra valid
      exact (counted.inside fd (Bool.eq_true_of_not_eq_false valid)).2 unused
    have more : ((loop.server.openSocket fd).doAddConn fd flag remote timeout).live maxFds =
        loop.server.live maxFds + 1 := by
      refine Server.live_update within ?_ before ?_
      · intro other apart
        simp [Server.doAddConn, Server.openSocket, Server.setInfo, apart]
      · simp [Server.doAddConn]
    show loop.maxfd + 1 = _
    rw [counted.maxfd, NetLoop.addConn, more]
    rfl
  inside other valid := by
    by_cases here : other = fd
    · subst here
      exact ⟨within, by simp [NetLoop.addConn, Server.doAddConn, Server.openSocket]⟩
    · have old := counted.inside other (by
        simpa [NetLoop.addConn, Server.doAddConn, Server.openSocket, Server.setInfo, here]
          using valid)
      refine ⟨old.1, ?_⟩
      simpa [NetLoop.addConn, Server.doAddConn, Server.openSocket, Server.setInfo, here] using old.2

/-- An entry is cleared and its descriptor closed. -/
theorem close (counted : loop.Counted) (valid : (loop.server.fdinfo fd).flag.valid = true)
    (entries : server.fdinfo = Function.update loop.server.fdinfo fd .zero)
    (sockets : server.socket = Function.update loop.server.socket fd none) :
    NetLoop.Counted ⟨server, loop.maxfd - 1⟩ where
  maxfd := by
    have less : loop.server.live maxFds = server.live maxFds + 1 := by
      refine Server.live_update (counted.inside fd valid).1 ?_ ?_ valid
      · intro other apart
        simp [entries, apart]
      · simp [entries, FdInfo.zero, Flag.zero]
    show loop.maxfd - 1 = _
    rw [counted.maxfd, less]
    push_cast
    omega
  inside other still := by
    by_cases here : other = fd
    · subst here
      have cleared : (server.fdinfo other).flag.valid = false := by
        rw [entries, Function.update_self]
        rfl
      cases cleared.symm.trans still
    · have old := counted.inside other (by simpa [entries, here] using still)
      exact ⟨old.1, by simpa [sockets, here] using old.2⟩

theorem doCloseConn (counted : loop.Counted) (fd : Nat) : (loop.doCloseConn fd).Counted := by
  by_cases stays : ((loop.server.fdinfo fd).flag.listen ||
      !(loop.server.fdinfo fd).flag.valid) = true
  · rw [NetLoop.doCloseConn, if_pos stays]
    exact counted
  · have valid : (loop.server.fdinfo fd).flag.valid = true := by simp_all
    have listen : (loop.server.fdinfo fd).flag.listen = false := by simp_all
    rw [NetLoop.doCloseConn_eq valid listen]
    refine counted.close valid ?_ ?_ <;> simp [Server.doCloseConn, valid, listen, Server.setInfo]

theorem examine (counted : loop.Counted) (conn : loop.server.connection fd = true) :
    (loop.examine fd answers expired).Counted := by
  rcases NetLoop.examine_eq answers expired conn with
    ⟨-, maxfd, entries, sockets⟩ | ⟨-, maxfd, ⟨cb, entries⟩, sockets⟩
  · have closed := counted.close (Server.connection_valid conn) entries sockets
    rw [← maxfd] at closed
    exact closed
  · have kept := counted.keeps (loop.examine fd answers expired).server (by
      intro other
      by_cases here : other = fd
      · subst here
        simp [entries]
      · simp [entries, here]) sockets
    rw [← maxfd] at kept
    exact kept

theorem sweepFrom (answers : Nat → List SendResult) (expired : Nat → Bool) (left pos : Nat)
    (j : Int) (counted : loop.Counted) :
    (NetLoop.sweepFrom answers expired left pos j loop).2.Counted := by
  induction left generalizing pos j loop with
  | zero => exact counted
  | succ left ih =>
    unfold NetLoop.sweepFrom
    split
    · split
      · split
        case isTrue conn => exact ih _ _ (counted.examine conn)
        case isFalse => exact ih _ _ counted
      · exact ih _ _ counted
    · exact counted

theorem step (counted : loop.Counted) {event : TableEvent} (fits : event.Fits loop) :
    (loop.step event).Counted := by
  cases event with
  | addConn fd flag remote timeout => exact counted.addConn fits.1 fits.2 flag remote timeout
  | closeConn fd => exact counted.doCloseConn fd
  | serve fd info =>
    refine counted.keeps _ ?_ rfl
    intro other
    by_cases here : other = fd
    · subst here
      rw [Server.setInfo_same]
      exact fits
    · simp [Server.setInfo, here]
  | sweep answers expired => exact sweepFrom answers expired maxFds 0 0 counted

end NetLoop.Counted

/-- Every connection is examined exactly once in a pass if and only if for none of them more
connections below it are closed than there are live entries above it. -/
theorem sweep_examines_all_iff
    (run : Reaches NetLoop.step (fun loop event => event.Fits loop) .initial loop)
    (answers : Nat → List SendResult) (expired : Nat → Bool) :
    (∀ fd, loop.server.connection fd = true → (loop.sweep answers expired).1.count fd = 1) ↔
      ∀ fd, loop.server.connection fd = true →
        loop.server.closedBefore answers expired fd ≤ loop.server.liveAfter fd := by
  have counted : loop.Counted := by
    apply run.invariant
    · exact NetLoop.Counted.initial
    · exact fun counted fits => counted.step fits
  have start : NetLoop.Swept answers expired loop.server 0 0 loop :=
    ⟨fun _ _ => ⟨rfl, rfl⟩, rfl, by
      rw [counted.maxfd, Server.closedBefore_zero]
      omega⟩
  have distinct : (loop.sweep answers expired).1.Nodup :=
    (NetLoop.sweepFrom_sorted maxFds 0 0 loop).1.imp Nat.ne_of_lt
  refine forall₂_congr ?_
  intro fd conn
  have within : fd < maxFds := (counted.inside fd (Server.connection_valid conn)).1
  have examined : fd ∈ (loop.sweep answers expired).1 ↔ _ :=
    start.mem_iff maxFds (Nat.zero_add _) (Nat.zero_le fd) within conn
  have most : loop.server.live (fd + 1) ≤ loop.server.live maxFds := loop.server.live_mono within
  rw [distinct.count, Server.liveAfter]
  by_cases member : fd ∈ (loop.sweep answers expired).1
  · exact iff_of_true (if_pos member) (by have := examined.mp member; omega)
  · refine iff_of_false (by simp [member]) ?_
    exact fun fits => member (examined.mpr (by omega))

/-- Two connections that time out after one tick, and a listening socket behind them. -/
def listenerBehind : List TableEvent :=
  [.addConn 5 .zero ⟨1, 1⟩ 1, .addConn 6 .zero ⟨1, 2⟩ 1,
    .addConn 9 ⟨false, true, false, false, false⟩ ⟨0, 0⟩ 1]

/-- The first connection times out, and the second one is examined all the same. -/
theorem sweep_examines_all_iff_behind :
    let loop := List.foldl NetLoop.step .initial listenerBehind
    ((∀ fd, loop.server.connection fd = true →
        (loop.sweep (fun _ => []) (· == 5)).1.count fd = 1) ↔
      ∀ fd, loop.server.connection fd = true →
        loop.server.closedBefore (fun _ => []) (· == 5) fd ≤ loop.server.liveAfter fd) ∧
      (loop.sweep (fun _ => []) (· == 5)).1 = [5, 6] ∧
      (loop.sweep (fun _ => []) (· == 5)).2.server.connection 5 = false :=
  ⟨sweep_examines_all_iff (Reaches.refl.follow (by decide +kernel)) (fun _ => []) (· == 5),
    by decide +kernel, by decide +kernel⟩

/-- A listening socket, and two connections that time out after one tick. -/
def twoConnections : List TableEvent :=
  [.addConn 3 ⟨false, true, false, false, false⟩ ⟨0, 0⟩ 1, .addConn 5 .zero ⟨1, 1⟩ 1,
    .addConn 6 .zero ⟨1, 2⟩ 1]

/-- The first of two connections times out, and the pass ends before the second. -/
theorem last_connection_skipped : ∃ loop,
    Reaches NetLoop.step (fun loop event => event.Fits loop) .initial loop ∧
      ∃ answers expired fd, loop.server.connection fd = true ∧
        (loop.sweep answers expired).1.count fd ≠ 1 :=
  ⟨List.foldl NetLoop.step .initial twoConnections, Reaches.refl.follow (by decide +kernel),
    fun _ => [], (· == 5), 6, by decide +kernel, by decide +kernel⟩

end Taomee.ServerBench
