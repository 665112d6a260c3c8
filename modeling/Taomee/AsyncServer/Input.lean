import Mathlib.Algebra.Order.Ring.Int
import Taomee.Library.Framing
import Taomee.Library.Runs

/-!
# async_server: the inbound side of c_tcp_socket

`handle_input` receives once into the free end of its buffer, dispatches the complete
packets in it, and moves what is left to the front. A packet longer than the buffer makes
the buffer grow, up to the maximal length of a packet. A dispatched packet is pushed to the
receive queue of a channel, which may drop it; the connection goes on all the same.

What `recv`, `realloc`, the plugin, the queues and an overlapping `memcpy` do is part of the call.
-/

namespace Taomee.AsyncServer

open Framing

/-- What the plugin answers for packets, and the maximal length of one; `main` keeps
`g_max_pkg_len` at 4096 at least, and both are of type `int`. There are `channelNum` channels. -/
structure InputConfig where
  getPkgLenCli : List UInt8 → Int
  pkgLenInt : ∀ bytes, -2 ^ 31 ≤ getPkgLenCli bytes ∧ getPkgLenCli bytes < 2 ^ 31
  gMaxPkgLen : Nat
  maxPkgLenInt : 4096 ≤ gMaxPkgLen ∧ gMaxPkgLen < 2 ^ 31
  channelNum : Nat
  someChannel : 0 < channelNum

/-- An answer of `recv`: some bytes, as many of them as there is room for, or none. `again` is
`EAGAIN` or `EINTR`. -/
inductive RecvResult where
  | bytes (data : List UInt8)
  | eof
  | again
  | error

/-- The end of a dispatched packet: it is in the queue of its channel, `recv_push` has dropped it
(and may have returned 0 nevertheless), or `select_channel` has named no channel that exists. -/
inductive Fate where
  | queued (channel : Nat)
  | dropped (channel : Nat)
  | noChannel (channel : Int)
  deriving DecidableEq

/-- What the surroundings of a call do: whether `realloc` gets its memory; the answer of
`select_channel` for a packet, -1 without the function; `++random_channel` for the packet at a
position, which other sockets advance too; whether the unsafe `recv_push` queues a packet, and its
return value; the answer of `shmq_pushed`, 0 without the function; and what a `memcpy` of the bytes
from a position on makes of them when they overlap their new place. -/
structure Surroundings where
  memory : Bool
  selectChannel : List UInt8 → Int
  randomChannel : Nat → Nat
  recvPush : Nat → List UInt8 → Bool × Int
  shmqPushed : List UInt8 → Int → Int
  overlapping : List UInt8 → Nat → List UInt8

/-- The branches for a complete packet: its fate, and whether `handle_input` goes on. -/
def dispatch (config : InputConfig) (around : Surroundings) (pos : Nat) (pkg : List UInt8) :
    Fate × Bool :=
  let channel := around.selectChannel pkg
  if channel ≠ -1 ∧ (channel < 0 ∨ channel ≥ config.channelNum) then (.noChannel channel, true)
  else
    let channel :=
      if channel = -1 then around.randomChannel pos % config.channelNum else channel.toNat
    let pushed := around.recvPush channel pkg
    (if pushed.1 then .queued channel else .dropped channel,
      around.shmqPushed pkg (if pushed.2 = 0 then 1 else 0) ≠ -1)

/-- The receiving part of `c_tcp_socket`, with the bytes received and the packets dispatched
so far and their fates. `recvBuf` are the `m_recv_pos` bytes in use; `alive` ends with
`handle_fini`. -/
structure InputSocket where
  recvBuf : List UInt8
  recvBufSize : Nat
  isClosed : Bool
  alive : Bool
  received : List UInt8
  dispatched : List (List UInt8 × Fate)

/-- The packets cut out of the stream. -/
def InputSocket.packets (sock : InputSocket) : List (List UInt8) := sock.dispatched.map Prod.fst

/-- The packets that have come into a queue. -/
def InputSocket.queued (sock : InputSocket) : List (List UInt8) :=
  sock.dispatched.filterMap fun entry =>
    match entry.2 with
    | .queued _ => some entry.1
    | _ => none

/-- The loop from `READ` on: the packets dispatched, and the position reached and the size of
the buffer, or `none` where `handle_input` returns false. -/
def readPackets (config : InputConfig) (around : Surroundings) (recvBuf : List UInt8)
    (recvBufSize : Nat) : Nat → Nat → List (List UInt8 × Fate) × Option (Nat × Nat)
  | 0, pos => ([], some (pos, recvBufSize))
  | fuel + 1, pos =>
    let len := config.getPkgLenCli (recvBuf.drop pos)
    if len % 2 ^ 32 > config.gMaxPkgLen then ([], none)
    else if len = 0 then
      if pos ≠ 0 then ([], some (pos, recvBufSize))
      else if recvBuf.length = recvBufSize then ([], none)
      else ([], some (pos, recvBufSize))
    else if pos = 0 ∧ len > recvBufSize then
      if around.memory then ([], some (pos, len.toNat)) else ([], none)
    else if len + pos ≤ recvBuf.length then
      let pkg := (recvBuf.drop pos).take len.toNat
      let sent := dispatch config around pos pkg
      if !sent.2 then ([(pkg, sent.1)], none)
      else if pos + len.toNat < recvBuf.length then
        let later := readPackets config around recvBuf recvBufSize fuel (pos + len.toNat)
        ((pkg, sent.1) :: later.1, later.2)
      else ([(pkg, sent.1)], some (pos + len.toNat, recvBufSize))
    else ([], some (pos, recvBufSize))

/-- `MOVE`: the bytes from `pos` on go to the front. -/
def moveDown (around : Surroundings) (recvBuf : List UInt8) (pos : Nat) : List UInt8 :=
  if recvBuf.length - pos ≤ pos then recvBuf.drop pos else around.overlapping recvBuf pos

/-- `handle_input`; when it returns false, the reactor ends the socket. -/
def InputSocket.handleInput (config : InputConfig) (sock : InputSocket) (result : RecvResult)
    (around : Surroundings) : InputSocket :=
  match result with
  | .bytes data =>
    let n := data.take (sock.recvBufSize - sock.recvBuf.length)
    if n.length > 0 then
      if sock.isClosed then { sock with recvBuf := [] }
      else
        let recvBuf := sock.recvBuf ++ n
        let read := readPackets config around recvBuf sock.recvBufSize recvBuf.length 0
        let sock :=
          { sock with
            recvBuf := recvBuf
            received := sock.received ++ n
            dispatched := sock.dispatched ++ read.1 }
        match read.2 with
        | none => { sock with alive := false }
        | some (pos, recvBufSize) =>
          { sock with
            recvBuf := if pos ≠ 0 then moveDown around recvBuf pos else recvBuf
            recvBufSize := recvBufSize }
    else { sock with alive := false }
  | .eof => { sock with alive := false }
  | .again => sock
  | .error => { sock with alive := false }

inductive InputCall where
  | handleInput (result : RecvResult) (around : Surroundings)
  | shut
  | handleError

/-- A call of the reactor or of the send queue. -/
def InputSocket.step (config : InputConfig) (sock : InputSocket) (call : InputCall) : InputSocket :=
  if !sock.alive then sock
  else
    match call with
    | .handleInput result around => sock.handleInput config result around
    | .shut => { sock with isClosed := true }
    | .handleError => { sock with alive := false }

/-- A socket that has just been started. -/
def InputSocket.started : InputSocket := ⟨[], 4096, false, true, [], []⟩

/-- Bytes that overlap their new place come out right. -/
def InputCall.MovesIntact : InputCall → Prop
  | .handleInput _ around => ∀ recvBuf pos, around.overlapping recvBuf pos = recvBuf.drop pos
  | _ => True

section Packets

variable {config : InputConfig} {recvBuf : List UInt8} {recvBufSize fuel pos : Nat}

/-- Cast to `uint32_t`, a negative length is too large as well. -/
theorem tooLong_iff (bytes : List UInt8) :
    config.getPkgLenCli bytes % 2 ^ 32 > config.gMaxPkgLen ↔
      config.getPkgLenCli bytes < 0 ∨ config.getPkgLenCli bytes > config.gMaxPkgLen := by
  have int := config.pkgLenInt bytes
  have maxInt := config.maxPkgLenInt
  omega

/-- The packets that the loop dispatches are those in the bytes from `pos` on, as far as the
connection goes on; the loop stops at the bytes after them, and with room for more. -/
theorem readPackets_spec (stable : Stable (parserOf config.getPkgLenCli))
    (around : Surroundings) (within : pos < recvBuf.length) (fits : recvBuf.length ≤ recvBufSize)
    (enough : recvBuf.length - pos ≤ fuel) :
    (readPackets config around recvBuf recvBufSize fuel pos).1.map Prod.fst
        <+: frames (parserOf config.getPkgLenCli) (recvBuf.drop pos) ∧
      ∀ after size, (readPackets config around recvBuf recvBufSize fuel pos).2 = some (after, size) →
        (readPackets config around recvBuf recvBufSize fuel pos).1.map Prod.fst
            = frames (parserOf config.getPkgLenCli) (recvBuf.drop pos) ∧
          recvBuf.drop after = rest (parserOf config.getPkgLenCli) (recvBuf.drop pos) ∧
          pos ≤ after ∧ recvBuf.length - after < size := by
  induction fuel generalizing pos with
  | zero => omega
  | succ fuel ih =>
    have length : (recvBuf.drop pos).length = recvBuf.length - pos := List.length_drop
    -- the loop stops here, and keeps the bytes from `pos` on
    have stops : (config.getPkgLenCli (recvBuf.drop pos) ≤ 0 ∨
        config.getPkgLenCli (recvBuf.drop pos) > (recvBuf.drop pos).length) →
        ∀ size, recvBuf.length - pos < size →
        ([] : List (List UInt8)) <+: frames (parserOf config.getPkgLenCli) (recvBuf.drop pos) ∧
        ∀ after size', some (pos, size) = some (after, size') →
          [] = frames (parserOf config.getPkgLenCli) (recvBuf.drop pos) ∧
          recvBuf.drop after = rest (parserOf config.getPkgLenCli) (recvBuf.drop pos) ∧
          pos ≤ after ∧ recvBuf.length - after < size' := by
      intro waits size room
      obtain ⟨none, all⟩ := frames_of_not_starts (not_starts_parserOf waits)
      constructor
      · exact List.nil_prefix
      · intro after size' same
        cases same
        rw [none, all]
        exact ⟨rfl, rfl, Nat.le_refl _, room⟩
    unfold readPackets
    simp only [tooLong_iff]
    split
    case isTrue => exact ⟨List.nil_prefix, nofun⟩
    case isFalse valid =>
      split
      case isTrue undecided =>
        split
        case isTrue => exact stops (by omega) recvBufSize (by omega)
        case isFalse =>
          split
          case isTrue => exact ⟨List.nil_prefix, nofun⟩
          case isFalse => exact stops (by omega) recvBufSize (by omega)
      case isFalse =>
        split
        case isTrue large =>
          split
          case isTrue => exact stops (by omega) _ (by omega)
          case isFalse => exact ⟨List.nil_prefix, nofun⟩
        case isFalse =>
          split
          case isFalse incomplete => exact stops (by omega) recvBufSize (by omega)
          case isTrue complete =>
            have starts : Starts (parserOf config.getPkgLenCli) (recvBuf.drop pos) _ :=
              starts_parserOf (by omega) (by omega)
            obtain ⟨framesHere, restHere⟩ := frames_of_starts stable starts
            rw [List.drop_drop] at framesHere restHere
            rw [framesHere, restHere]
            split
            case isTrue => exact ⟨by simp, nofun⟩
            case isFalse =>
              split
              case isTrue more =>
                obtain ⟨pre, all⟩ := ih more (by omega)
                constructor
                · exact (List.prefix_cons_inj _).mpr pre
                · intro after size same
                  obtain ⟨framesLater, stop, past, room⟩ := all after size same
                  exact ⟨by rw [List.map_cons, framesLater], stop, by omega, room⟩
              case isFalse done =>
                have empty : recvBuf.drop
                    (pos + (config.getPkgLenCli (recvBuf.drop pos)).toNat) = [] :=
                  List.drop_eq_nil_of_le (by omega)
                rw [empty]
                constructor
                · simp
                · intro after size same
                  cases same
                  exact ⟨by simp, empty, by omega, by omega⟩

end Packets

section Run

variable {config : InputConfig} {sock : InputSocket} {call : InputCall}

/-- What the socket has dispatched and still holds, against what it has received. -/
structure InputSocket.Framed (config : InputConfig) (sock : InputSocket) : Prop where
  within : sock.packets <+: frames (parserOf config.getPkgLenCli) sock.received
  whole : sock.alive = true → sock.isClosed = false →
    sock.packets = frames (parserOf config.getPkgLenCli) sock.received ∧
      sock.recvBuf = rest (parserOf config.getPkgLenCli) sock.received
  room : sock.alive = true → sock.recvBuf.length < sock.recvBufSize

theorem moveDown_eq_drop {around : Surroundings}
    (intact : ∀ recvBuf pos, around.overlapping recvBuf pos = recvBuf.drop pos)
    (recvBuf : List UInt8) (pos : Nat) : moveDown around recvBuf pos = recvBuf.drop pos := by
  unfold moveDown
  split
  · rfl
  · exact intact recvBuf pos

/-- The bytes kept are those from the position reached on. -/
theorem kept_eq_drop {around : Surroundings}
    (intact : ∀ recvBuf pos, around.overlapping recvBuf pos = recvBuf.drop pos)
    (recvBuf : List UInt8) (pos : Nat) :
    (if pos ≠ 0 then moveDown around recvBuf pos else recvBuf) = recvBuf.drop pos := by
  split
  case isTrue => exact moveDown_eq_drop intact _ _
  case isFalse zero => rw [not_not.mp zero, List.drop_zero]

/-- A socket that has ended keeps what it has dispatched. -/
theorem InputSocket.Framed.ended (framed : sock.Framed config) :
    InputSocket.Framed config { sock with alive := false } where
  within := framed.within
  whole := nofun
  room := nofun

/-- Receiving some bytes, dispatching the packets that they complete, and moving the rest. -/
theorem InputSocket.Framed.receive (prefixStable : PrefixStable config.getPkgLenCli)
    (framed : sock.Framed config) (alive : sock.alive = true) (data : List UInt8)
    {around : Surroundings}
    (intact : ∀ recvBuf pos, around.overlapping recvBuf pos = recvBuf.drop pos) :
    (sock.handleInput config (.bytes data) around).Framed config := by
  have stable := parserOf_stable prefixStable
  unfold InputSocket.handleInput
  dsimp only
  generalize taken : data.take (sock.recvBufSize - sock.recvBuf.length) = n
  have fits : n.length ≤ sock.recvBufSize - sock.recvBuf.length := by
    rw [← taken, List.length_take]
    omega
  split
  case isFalse => exact framed.ended
  case isTrue some' =>
    by_cases isClosed : sock.isClosed = true
    · rw [if_pos isClosed]
      constructor
      · exact framed.within
      · intro _ notClosed
        rw [show sock.isClosed = false from notClosed] at isClosed
        cases isClosed
      · intro _
        show 0 < sock.recvBufSize
        omega
    · rw [if_neg isClosed]
      obtain ⟨whole, kept⟩ := framed.whole alive (by simpa using isClosed)
      obtain ⟨framesAll, restAll⟩ := frames_append stable sock.received n
      rw [← kept, ← whole] at framesAll
      rw [← kept] at restAll
      have filled : (sock.recvBuf ++ n).length ≤ sock.recvBufSize := by
        rw [List.length_append]
        omega
      obtain ⟨pre, all⟩ := readPackets_spec stable around
        (show 0 < (sock.recvBuf ++ n).length by rw [List.length_append]; omega) filled
        (Nat.sub_le _ _)
      rw [List.drop_zero] at pre all
      generalize readPackets config around (sock.recvBuf ++ n) sock.recvBufSize
        (sock.recvBuf ++ n).length 0 = read at pre all ⊢
      obtain ⟨entries, outcome⟩ := read
      have added : List.map Prod.fst (sock.dispatched ++ entries) =
          sock.packets ++ entries.map Prod.fst := List.map_append
      have part : List.map Prod.fst (sock.dispatched ++ entries) <+: sock.packets ++
          frames (parserOf config.getPkgLenCli) (sock.recvBuf ++ n) := by
        rw [added]
        exact (List.prefix_append_right_inj _).mpr pre
      cases outcome with
      | none =>
        constructor
        · rw [framesAll]
          exact part
        · exact nofun
        · exact nofun
      | some stop =>
        obtain ⟨after, size⟩ := stop
        obtain ⟨framesHere, stopsAt, -, room⟩ := all after size rfl
        have moved := kept_eq_drop intact (sock.recvBuf ++ n) after
        constructor
        · rw [framesAll]
          exact part
        · intro _ _
          constructor
          · rw [framesAll]
            exact added.trans (congrArg _ framesHere)
          · show (if after ≠ 0 then moveDown around (sock.recvBuf ++ n) after
              else sock.recvBuf ++ n) = _
            rw [moved, stopsAt, restAll]
        · intro _
          show List.length (if after ≠ 0 then moveDown around (sock.recvBuf ++ n) after
            else sock.recvBuf ++ n) < size
          rw [moved, List.length_drop]
          exact room

/-- One call of the reactor or of the send queue. -/
theorem InputSocket.Framed.step (prefixStable : PrefixStable config.getPkgLenCli)
    (framed : sock.Framed config) (intact : call.MovesIntact) :
    (sock.step config call).Framed config := by
  unfold InputSocket.step
  split
  case isTrue => exact framed
  case isFalse lives =>
    have alive : sock.alive = true := by simpa using lives
    cases call with
    | handleInput result around =>
      cases result with
      | bytes data => exact framed.receive prefixStable alive data intact
      | eof => exact framed.ended
      | again => exact framed
      | error => exact framed.ended
    | shut => exact ⟨framed.within, nofun, framed.room⟩
    | handleError => exact framed.ended

/-- The packets that have come into a queue are some of those cut out of the stream, in order. -/
theorem InputSocket.queued_sublist (sock : InputSocket) : sock.queued.Sublist sock.packets := by
  unfold InputSocket.queued InputSocket.packets
  induction sock.dispatched with
  | nil => exact .slnil
  | cons entry later ih =>
    obtain ⟨pkg, fate⟩ := entry
    cases fate with
    | queued channel => exact ih.cons_cons pkg
    | dropped channel | noChannel channel => exact ih.cons pkg

/-- The packets cut out of the stream are the parse of what was received while the connection is
open, and at most that once it is shut or has ended; those in the queues are these, in order,
without the ones that were dropped; and there is always room to receive into. -/
theorem dispatched_eq_parse (prefixStable : PrefixStable config.getPkgLenCli)
    (run : Runs.Reaches (InputSocket.step config) (fun _ call => call.MovesIntact)
      InputSocket.started sock) :
    sock.packets <+: frames (parserOf config.getPkgLenCli) sock.received ∧
      (sock.alive = true → sock.isClosed = false →
        sock.packets = frames (parserOf config.getPkgLenCli) sock.received ∧
          sock.recvBuf = rest (parserOf config.getPkgLenCli) sock.received) ∧
      sock.queued.Sublist sock.packets ∧
      (sock.alive = true → 0 < sock.recvBufSize - sock.recvBuf.length) := by
  have framed : sock.Framed config := by
    apply run.invariant
    · constructor
      · exact List.nil_prefix
      · exact fun _ _ => ⟨rfl, rfl⟩
      · exact fun _ => by decide
    · intro state call framed intact
      exact framed.step prefixStable intact
  refine ⟨framed.within, framed.whole, sock.queued_sublist, ?_⟩
  intro alive
  have room := framed.room alive
  omega

/-- Packets of two bytes, and two channels. -/
def twoBytes : InputConfig where
  getPkgLenCli _ := 2
  pkgLenInt _ := by decide
  gMaxPkgLen := 4096
  maxPkgLenInt := by decide
  channelNum := 2
  someChannel := by decide

/-- A call that receives some bytes. The first byte of a packet names its channel, a queue that has
room takes it, and the plugin goes on with the connection or not. -/
def receiving (data : List UInt8) (room goesOn : Bool) : InputCall :=
  .handleInput (.bytes data) ⟨true, fun pkg => pkg.headD 0 |>.toNat, fun _ => 1,
    fun _ _ => (room, if room then 0 else -1), fun _ _ => if goesOn then 0 else -1,
    fun recvBuf pos => recvBuf.drop pos⟩

/-- Four packets and a byte in three cuts, with a call that would block in between. -/
def fourPackets : List InputCall :=
  [receiving [1, 10, 2] true true,
    .handleInput .again ⟨true, fun _ => -1, fun _ => 1, fun _ _ => (true, 0), fun _ _ => 0,
      fun recvBuf pos => recvBuf.drop pos⟩,
    receiving [20, 0, 30, 1] false true, receiving [40, 0] true true]

theorem fourPackets_run :
    Runs.Reaches (InputSocket.step twoBytes) (fun _ call => call.MovesIntact)
      InputSocket.started (fourPackets.foldl (InputSocket.step twoBytes) .started) :=
  Runs.Reaches.refl.follow
    ⟨fun _ _ => rfl, fun _ _ => rfl, fun _ _ => rfl, fun _ _ => rfl, trivial⟩

/-- The first and the last packet come into a queue. The second has no channel, and the queue of the
third is full. -/
theorem dispatched_eq_parse_twoBytes :
    let sock := fourPackets.foldl (InputSocket.step twoBytes) .started
    sock.packets = frames (parserOf twoBytes.getPkgLenCli) [1, 10, 2, 20, 0, 30, 1, 40, 0] ∧
      sock.queued = [[1, 10], [1, 40]] := by
  obtain ⟨-, whole, -⟩ := dispatched_eq_parse (fun _ _ _ => rfl) fourPackets_run
  exact ⟨(whole (by decide) (by decide)).1, by decide⟩

/-- The connection is kept, and a packet is in no queue. -/
theorem refused_not_queued :
    ¬ ∀ (config : InputConfig) (sock : InputSocket), PrefixStable config.getPkgLenCli →
      Runs.Reaches (InputSocket.step config) (fun _ call => call.MovesIntact)
        InputSocket.started sock → sock.alive = true →
      sock.queued = frames (parserOf config.getPkgLenCli) sock.received := by
  intro claim
  have run : Runs.Reaches (InputSocket.step twoBytes) (fun _ call => call.MovesIntact)
      InputSocket.started (InputSocket.started.step twoBytes (receiving [1, 2, 3, 4] false true)) :=
    Runs.Reaches.refl.call fun _ _ => rfl
  exact absurd (claim twoBytes _ (fun _ _ _ => rfl) run rfl) (by decide)

end Run

end Taomee.AsyncServer
