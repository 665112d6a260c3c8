import Mathlib.Data.List.Infix
import Taomee.Library.BlockBuffer
import Taomee.Library.Framing
import Taomee.Library.Runs

/-!
# net_io_server: received bytes

`recv_data` drains a socket into blocks of `MEM_BLOCK_SIZE` bytes, `do_io` merges them for
`on_recv_data`, and `on_recv_data` cuts the bytes into packets with the callback
`handle_input` and pushes these to the receive queue, which has room here.

What `recv` and the callbacks answer is part of the poll.
-/

namespace Taomee.NetIo

open BlockBuffer Framing

/-- `MEM_BLOCK_SIZE`. -/
def memBlockSize : Nat := 4096

theorem memBlockSize_pos : 0 < memBlockSize := by decide

/-- An answer of `recv`, or `noMemory` when a block has to be allocated first and cannot. -/
inductive RecvResult where
  | bytes (data : List UInt8)
  | eof
  | eintr
  | eagain
  | error
  | noMemory

/-- The receiving part of `conn_info_t`. The lengths are `int` there: the model is about connections
on which less than 2^31 bytes wait. -/
structure RecvSide where
  recvBuffHead : List (List UInt8)
  recvBuffOffset : Nat
  recvBuffDataLen : Nat

/-- `recv_data`: its return value and the connection. Results that run out stand for
`EAGAIN`. A block allocated for a call that reads nothing is freed again, so it is allocated
here when bytes come; `spare` is what it holds before. -/
def recvData (spare : List UInt8) : RecvSide → Nat → List RecvResult → Int × RecvSide
  | side, recvDataLen, [] => (recvDataLen, side)
  | side, recvDataLen, .bytes data :: rest =>
    let usedLen := side.recvBuffOffset + side.recvBuffDataLen
    let blocks :=
      if usedLen % memBlockSize = 0 then side.recvBuffHead ++ [spare] else side.recvBuffHead
    recvData spare
      { side with
        recvBuffHead := writeLast blocks (usedLen % memBlockSize) data
        recvBuffDataLen := side.recvBuffDataLen + data.length }
      (recvDataLen + data.length) rest
  | side, _, .eof :: _ => (0, side)
  | side, recvDataLen, .eintr :: rest => recvData spare side recvDataLen rest
  | side, recvDataLen, .eagain :: _ => (recvDataLen, side)
  | side, _, .error :: _ => (-1, side)
  | side, _, .noMemory :: _ => (-1, side)

/-- What `recv` can answer: some bytes, and no more than the rest of the block. -/
def Fits : Nat → List RecvResult → Prop
  | _, [] => True
  | usedLen, .bytes data :: rest =>
    0 < data.length ∧ data.length ≤ memBlockSize - usedLen % memBlockSize ∧
      Fits (usedLen + data.length) rest
  | usedLen, .eintr :: rest => Fits usedLen rest
  | _, _ :: _ => True

/-- The bytes that the results bring. -/
def receivedOf : List RecvResult → List UInt8
  | .bytes data :: rest => data ++ receivedOf rest
  | .eintr :: rest => receivedOf rest
  | _ => []

/-- The loop ends with the peer's shutdown. -/
def EndsWithEof : List RecvResult → Prop
  | .bytes _ :: rest => EndsWithEof rest
  | .eintr :: rest => EndsWithEof rest
  | .eof :: _ => True
  | _ => False

/-- `on_recv_data`: the packets pushed, and the number of bytes left or `none` for -1.
For the packet at the start of some bytes, `dispatched` says whether `handle_dispatch` takes
it and `replied` whether the reply to it could be sent. -/
def onRecvData (handleInput : List UInt8 → Int) (maxPkgLen : Nat)
    (dispatched replied : List UInt8 → Bool) : Nat → List UInt8 → List (List UInt8) × Option Nat
  | 0, data => ([], some data.length)
  | fuel + 1, data =>
    let pkgLen := handleInput data
    if pkgLen < 0 then ([], none)
    else if pkgLen = 0 ∨ pkgLen > data.length then ([], some data.length)
    else if pkgLen > maxPkgLen then ([], none)
    else if !dispatched data then ([], none)
    else
      let pkg := data.take pkgLen.toNat
      let left := data.drop pkgLen.toNat
      if !replied data then ([pkg], none)
      else if left.length > 0 then
        let later := onRecvData handleInput maxPkgLen dispatched replied fuel left
        (pkg :: later.1, later.2)
      else ([pkg], some left.length)

/-- A connection as far as receiving goes, with the bytes read from its socket and the
packets pushed so far. -/
structure Stream where
  side : RecvSide
  isOpen : Bool
  received : List UInt8
  pushed : List (List UInt8)

/-- An event of the connection: `hangup` for `EPOLLERR`, `EPOLLHUP` and `EPOLLRDHUP`, the
answers of `recv`, whether `merge_mem_block` gets its memory, and what comes of dispatching
the packets and replying to them. -/
structure Poll where
  hangup : Bool
  results : List RecvResult
  memory : Bool
  dispatched : List UInt8 → Bool
  replied : List UInt8 → Bool

/-- The server's callback and limits, and the old bytes of a block. -/
structure Config where
  handleInput : List UInt8 → Int
  maxPkgLen : Nat
  spare : List UInt8
  spareFull : spare.length = memBlockSize

/-- The read part of `do_io` after `recv_data`, once `on_recv_data` has kept `left` bytes. -/
def keepLeft (side : RecvSide) (left : Nat) : RecvSide :=
  let consumeDataLen := side.recvBuffDataLen - left
  let blocks := side.recvBuffHead.drop ((consumeDataLen + side.recvBuffOffset) / memBlockSize)
  let offset := (consumeDataLen + side.recvBuffOffset) % memBlockSize
  if offset ≠ 0 ∧ left = 0 then ⟨blocks.drop 1, 0, left⟩ else ⟨blocks, offset, left⟩

/-- `do_io` for an event of the connection. -/
def Stream.onEvent (config : Config) (stream : Stream) (poll : Poll) : Stream :=
  if !stream.isOpen then stream
  else if poll.hangup then { stream with isOpen := false }
  else
    let drained := recvData config.spare stream.side 0 poll.results
    let side := drained.2
    let stream := { stream with side := side, received := stream.received ++ receivedOf poll.results }
    if drained.1 > 0 then
      if side.recvBuffDataLen > 0 then
        if !poll.memory ∧ side.recvBuffHead.length ≠ 1 then { stream with isOpen := false }
        else
          let merged := side.recvBuffHead.flatten
          let data := (merged.drop side.recvBuffOffset).take side.recvBuffDataLen
          let handed := onRecvData config.handleInput config.maxPkgLen poll.dispatched poll.replied
            data.length data
          let stream := { stream with pushed := stream.pushed ++ handed.1 }
          match handed.2 with
          | none => { stream with isOpen := false }
          | some left => { stream with side := keepLeft side left }
      else stream
    else { stream with isOpen := false }

/-- A connection that has just been accepted. -/
def Stream.fresh : Stream := ⟨⟨[], 0, 0⟩, true, [], []⟩

/-- The answers of `recv` are ones that it can give. -/
def Poll.Admissible (poll : Poll) (stream : Stream) : Prop :=
  Fits (stream.side.recvBuffOffset + stream.side.recvBuffDataLen) poll.results

section Framer

variable {handleInput : List UInt8 → Int} {data : List UInt8}

/-- What `on_recv_data` pushes is a prefix of the packets in its data; when it keeps the
connection, it is all of them, and the bytes left are those after them. -/
theorem onRecvData_spec (stable : Stable (parserOf handleInput)) (maxPkgLen : Nat)
    (dispatched replied : List UInt8 → Bool) {fuel : Nat} (enough : data.length ≤ fuel)
    (some' : 0 < data.length) :
    (onRecvData handleInput maxPkgLen dispatched replied fuel data).1
        <+: frames (parserOf handleInput) data ∧
      ∀ left, (onRecvData handleInput maxPkgLen dispatched replied fuel data).2 = some left →
        (onRecvData handleInput maxPkgLen dispatched replied fuel data).1
            = frames (parserOf handleInput) data ∧
          left = (rest (parserOf handleInput) data).length := by
  induction fuel generalizing data with
  | zero => omega
  | succ fuel ih =>
    simp only [onRecvData]
    split
    case isTrue => exact ⟨List.nil_prefix, nofun⟩
    case isFalse notNegative =>
      split
      case isTrue waits =>
        have never : ∀ length, ¬ Starts (parserOf handleInput) data length :=
          not_starts_parserOf (by omega)
        obtain ⟨none, all⟩ := frames_of_not_starts never
        constructor
        · exact List.nil_prefix
        · intro left same
          rw [none, all]
          exact ⟨rfl, (Option.some.inj same).symm⟩
      case isFalse complete =>
        split
        case isTrue => exact ⟨List.nil_prefix, nofun⟩
        case isFalse =>
          split
          case isTrue => exact ⟨List.nil_prefix, nofun⟩
          case isFalse =>
            have starts : Starts (parserOf handleInput) data (handleInput data).toNat :=
              starts_parserOf (by omega) (by omega)
            obtain ⟨framesHere, restHere⟩ := frames_of_starts stable starts
            have shorter : (data.drop (handleInput data).toNat).length ≤ fuel := by
              rw [List.length_drop]
              omega
            rw [framesHere, restHere]
            split
            case isTrue => exact ⟨by simp, nofun⟩
            case isFalse =>
              split
              case isTrue more =>
                obtain ⟨pre, all⟩ := ih shorter more
                constructor
                · exact (List.prefix_cons_inj _).mpr pre
                · intro left same
                  obtain ⟨framesLater, count⟩ := all left same
                  exact ⟨by rw [framesLater], count⟩
              case isFalse nothing =>
                have empty : data.drop (handleInput data).toNat = [] :=
                  List.length_eq_zero_iff.mp (by omega)
                rw [empty]
                constructor
                · simp
                · intro left same
                  exact ⟨by simp, (Option.some.inj same).symm⟩

/-- A packet that is pushed fits the buffer of the receive queue. -/
theorem onRecvData_le (maxPkgLen : Nat) (dispatched replied : List UInt8 → Bool) (fuel : Nat) :
    ∀ pkg ∈ (onRecvData handleInput maxPkgLen dispatched replied fuel data).1,
      pkg.length ≤ maxPkgLen := by
  induction fuel generalizing data with
  | zero => exact nofun
  | succ fuel ih =>
    simp only [onRecvData]
    split
    case isTrue => exact nofun
    case isFalse =>
      split
      case isTrue => exact nofun
      case isFalse =>
        split
        case isTrue => exact nofun
        case isFalse small =>
          have here : (data.take (handleInput data).toNat).length ≤ maxPkgLen := by
            rw [List.length_take]
            omega
          split
          case isTrue => exact nofun
          case isFalse =>
            split
            case isTrue => simpa using here
            case isFalse =>
              split
              case isTrue =>
                intro pkg member
                rcases List.mem_cons.mp member with rfl | later
                · exact here
                · exact ih pkg later
              case isFalse => simpa using here

end Framer

section Drain

variable {side : RecvSide} {content spare : List UInt8}

/-- `recv_data` appends what it reads; a positive answer is the number of bytes read. -/
theorem recvData_spec (spareFull : spare.length = memBlockSize) (results : List RecvResult)
    (recvDataLen : Nat) (holds : Holds memBlockSize side.recvBuffHead side.recvBuffOffset content)
    (length : side.recvBuffDataLen = content.length)
    (fits : Fits (side.recvBuffOffset + side.recvBuffDataLen) results) :
    Holds memBlockSize (recvData spare side recvDataLen results).2.recvBuffHead
        (recvData spare side recvDataLen results).2.recvBuffOffset
        (content ++ receivedOf results) ∧
      (recvData spare side recvDataLen results).2.recvBuffDataLen
        = (content ++ receivedOf results).length ∧
      (recvData spare side recvDataLen results).2.recvBuffOffset = side.recvBuffOffset ∧
      (EndsWithEof results → (recvData spare side recvDataLen results).1 = 0) := by
  induction results generalizing side content recvDataLen with
  | nil => simp [recvData, receivedOf, EndsWithEof, holds, length]
  | cons result rest ih =>
    cases result with
    | bytes data =>
      obtain ⟨some', room, fits⟩ := fits
      rw [length] at room
      have grown := holds.append spareFull room some'
      set blocks := if (side.recvBuffOffset + content.length) % memBlockSize = 0 then
        side.recvBuffHead ++ [spare] else side.recvBuffHead
      let written : RecvSide :=
        ⟨writeLast blocks ((side.recvBuffOffset + content.length) % memBlockSize) data,
          side.recvBuffOffset, content.length + data.length⟩
      have grown : Holds memBlockSize written.recvBuffHead written.recvBuffOffset
          (content ++ data) := grown
      simp only [recvData]
      rw [length]
      obtain ⟨held, counted, offset, eof⟩ := ih (recvDataLen + data.length)
        grown (by simp [written]) (by
          show Fits (side.recvBuffOffset + (content.length + data.length)) rest
          rw [← length, ← Nat.add_assoc]
          exact fits)
      rw [List.append_assoc] at held counted
      exact ⟨held, counted, offset, eof⟩
    | eof => simp [recvData, receivedOf, holds, length]
    | eintr => exact ih recvDataLen holds length fits
    | eagain => simp [recvData, receivedOf, EndsWithEof, holds, length]
    | error => simp [recvData, receivedOf, EndsWithEof, holds, length]
    | noMemory => simp [recvData, receivedOf, EndsWithEof, holds, length]

/-- After `on_recv_data` the blocks hold the bytes it has left. -/
theorem keepLeft_spec {kept : Nat}
    (holds : Holds memBlockSize side.recvBuffHead side.recvBuffOffset content)
    (length : side.recvBuffDataLen = content.length) (within : kept ≤ content.length) :
    Holds memBlockSize (keepLeft side kept).recvBuffHead (keepLeft side kept).recvBuffOffset
        (content.drop (content.length - kept)) ∧
      (keepLeft side kept).recvBuffDataLen = kept := by
  have consumed := holds.consume (show content.length - kept ≤ content.length by omega)
  unfold keepLeft
  rw [length]
  dsimp only
  split
  case isTrue reset =>
    obtain ⟨offset, rfl⟩ := reset
    have nothing : content.drop (content.length - 0) = [] := by simp
    constructor
    · rw [nothing]
      exact consumed.reset nothing offset (Nat.mod_lt _ memBlockSize_pos)
    · rfl
  case isFalse => exact ⟨consumed, rfl⟩

end Drain

/-- What the connection has pushed and still holds, against what it has received. -/
structure Stream.Framed (framer : List UInt8 → Verdict) (stream : Stream) : Prop where
  pushed : stream.pushed <+: frames framer stream.received
  whole : stream.isOpen = true → stream.pushed = frames framer stream.received
  holds : stream.isOpen = true →
    Holds memBlockSize stream.side.recvBuffHead stream.side.recvBuffOffset
      (rest framer stream.received)
  length : stream.isOpen = true →
    stream.side.recvBuffDataLen = (rest framer stream.received).length

section Run

variable {config : Config} {stream : Stream} {poll : Poll}

theorem Stream.fresh_framed (framer : List UInt8 → Verdict) : Stream.fresh.Framed framer where
  pushed := List.nil_prefix
  whole _ := rfl
  holds _ := holds_nil memBlockSize_pos
  length _ := rfl

/-- Closing keeps what was pushed a prefix of the packets of what was received. -/
theorem Stream.Framed.closed {framer : List UInt8 → Verdict} (framed : stream.Framed framer)
    (stable : Stable framer) (side : RecvSide) (more : List UInt8) :
    Stream.Framed framer
      { stream with side := side, received := stream.received ++ more, isOpen := false } where
  pushed := by
    rw [(frames_append stable stream.received more).1]
    exact framed.pushed.trans (List.prefix_append _ _)
  whole := nofun
  holds := nofun
  length := nofun

/-- One event of the connection. -/
theorem Stream.Framed.onEvent (prefixStable : PrefixStable config.handleInput)
    (framed : stream.Framed (parserOf config.handleInput)) (admissible : poll.Admissible stream) :
    (stream.onEvent config poll).Framed (parserOf config.handleInput) := by
  have stable := parserOf_stable prefixStable
  unfold Stream.onEvent
  split
  case isTrue => exact framed
  case isFalse isOpen =>
    simp only [Bool.not_eq_true', Bool.not_eq_false] at isOpen
    split
    case isTrue => simpa using framed.closed stable stream.side []
    case isFalse =>
      obtain ⟨holds, length, offset, -⟩ := recvData_spec config.spareFull poll.results 0
        (framed.holds isOpen) (framed.length isOpen) admissible
      obtain ⟨framesAll, restAll⟩ := frames_append stable stream.received (receivedOf poll.results)
      generalize recvData config.spare stream.side 0 poll.results = drained at holds length offset ⊢
      have content : (drained.2.recvBuffHead.flatten.drop drained.2.recvBuffOffset).take
          drained.2.recvBuffDataLen
          = rest (parserOf config.handleInput) stream.received ++ receivedOf poll.results := by
        rw [length]
        exact holds.content
      dsimp only
      rw [content]
      generalize rest (parserOf config.handleInput) stream.received ++ receivedOf poll.results
        = data at holds length content framesAll restAll ⊢
      split
      case isFalse => exact framed.closed stable drained.2 (receivedOf poll.results)
      case isTrue =>
        split
        case isFalse nothing =>
          have empty : data = [] := List.length_eq_zero_iff.mp (by omega)
          rw [empty] at framesAll restAll holds length
          constructor
          · rw [framesAll, framed.whole isOpen]
            simp
          · rw [framesAll, framed.whole isOpen]
            simp
          · intro _
            rw [restAll]
            exact holds
          · intro _
            rw [restAll]
            exact length
        case isTrue some' =>
          split
          case isTrue => exact framed.closed stable drained.2 (receivedOf poll.results)
          case isFalse =>
            obtain ⟨pre, kept⟩ := onRecvData_spec stable config.maxPkgLen poll.dispatched
              poll.replied (Nat.le_refl data.length) (by omega)
            split
            case h_1 closes =>
              constructor
              case pushed =>
                rw [framesAll, framed.whole isOpen]
                exact (List.prefix_append_right_inj _).mpr pre
              all_goals nofun
            case h_2 left keeps =>
              obtain ⟨whole, count⟩ := kept left keeps
              have within : left ≤ data.length := by
                rw [count]
                exact rest_length_le stable data
              obtain ⟨heldLeft, countLeft⟩ := keepLeft_spec holds length within
              have tail : data.drop (data.length - left) = rest (parserOf config.handleInput) data := by
                rw [count]
                exact drop_eq_rest stable data
              rw [tail] at heldLeft
              constructor
              · rw [framesAll, framed.whole isOpen, whole]
              · intro _
                rw [framesAll, framed.whole isOpen, whole]
              · intro _
                rw [restAll]
                exact heldLeft
              · intro _
                rw [restAll, ← count]
                exact countLeft

/-- Every state of a connection is framed. -/
theorem Stream.framed_of_reaches (prefixStable : PrefixStable config.handleInput)
    (run : Runs.Reaches (Stream.onEvent config) (fun stream poll => poll.Admissible stream)
      Stream.fresh stream) : stream.Framed (parserOf config.handleInput) := by
  apply run.invariant (Stream.fresh_framed _)
  intro state poll framed admissible
  exact framed.onEvent prefixStable admissible

/-- The states of a connection from its accept on. -/
abbrev Stream.Run (config : Config) (stream : Stream) : Prop :=
  Runs.Reaches (Stream.onEvent config) (fun stream poll => poll.Admissible stream)
    Stream.fresh stream

/-- What is pushed is the parse of what is received while the connection is open, and at
most that once it is closed. -/
theorem pushed_eq_parse (prefixStable : PrefixStable config.handleInput)
    (run : Stream.Run config stream) :
    stream.pushed <+: frames (parserOf config.handleInput) stream.received ∧
      (stream.isOpen = true →
        stream.pushed = frames (parserOf config.handleInput) stream.received ∧
          (stream.side.recvBuffHead.flatten.drop stream.side.recvBuffOffset).take
              stream.side.recvBuffDataLen = rest (parserOf config.handleInput) stream.received) := by
  have framed := Stream.framed_of_reaches prefixStable run
  constructor
  · exact framed.pushed
  · intro isOpen
    constructor
    · exact framed.whole isOpen
    · rw [framed.length isOpen]
      exact (framed.holds isOpen).content

theorem Stream.onEvent_received (isOpen : stream.isOpen = true) (noHangup : poll.hangup = false) :
    (stream.onEvent config poll).received = stream.received ++ receivedOf poll.results := by
  unfold Stream.onEvent
  grind

/-- No packet larger than the server takes is ever pushed. -/
theorem Stream.pushed_le (run : Stream.Run config stream) :
    ∀ pkg ∈ stream.pushed, pkg.length ≤ config.maxPkgLen := by
  apply run.invariant
  case initial => exact nofun
  case preserved =>
    intro state poll bounded _
    have pushing : ∀ fuel data, ∀ pkg ∈ state.pushed ++ (onRecvData config.handleInput
        config.maxPkgLen poll.dispatched poll.replied fuel data).1,
        pkg.length ≤ config.maxPkgLen := by
      intro fuel data pkg member
      rcases List.mem_append.mp member with old | new
      · exact bounded pkg old
      · exact onRecvData_le _ _ _ fuel pkg new
    unfold Stream.onEvent
    dsimp only
    split
    · exact bounded
    · split
      · exact bounded
      · split
        · split
          · split
            · exact bounded
            · split
              · exact pushing _ _
              · exact pushing _ _
          · exact bounded
        · exact bounded

/-- A callback for packets of three bytes, with room for packets of `maxPkgLen`. -/
def threeBytes (maxPkgLen : Nat) : Config where
  handleInput _ := 3
  maxPkgLen := maxPkgLen
  spare := List.replicate memBlockSize 0
  spareFull := List.length_replicate

/-- A round that reads these bytes and then would block. -/
def Poll.reading (data : List UInt8) : Poll where
  hangup := false
  results := [.bytes data]
  memory := true
  dispatched _ := true
  replied _ := true

theorem threeBytes_run (maxPkgLen : Nat) :
    Stream.Run (threeBytes maxPkgLen)
      (Stream.fresh.onEvent (threeBytes maxPkgLen) (.reading [1, 2, 3])) :=
  Runs.Reaches.refl.call (by
    simp [Poll.Admissible, Stream.fresh, Poll.reading, Fits, memBlockSize])

/-- A round ends inside of the second packet. -/
def cutPacket : Stream := Stream.fresh.onEvent (threeBytes 3) (.reading [1, 2, 3, 4])

theorem cutPacket_state : cutPacket.isOpen = true ∧ cutPacket.pushed = [[1, 2, 3]] ∧
    cutPacket.received = [1, 2, 3, 4] ∧
    cutPacket.side.recvBuffOffset + cutPacket.side.recvBuffDataLen = 4 := by
  decide +kernel

theorem cutPacket_run : Stream.Run (threeBytes 3) cutPacket :=
  Runs.Reaches.refl.call (by
    simp [Poll.Admissible, Stream.fresh, Poll.reading, Fits, memBlockSize])

/-- The round after it brings the rest of the second packet and a third one. -/
theorem pushed_eq_parse_threeBytes :
    (cutPacket.onEvent (threeBytes 3) (.reading [5, 6, 7, 8, 9])).pushed =
      frames (parserOf fun _ => 3) [1, 2, 3, 4, 5, 6, 7, 8, 9] := by
  have admissible : (Poll.reading [5, 6, 7, 8, 9]).Admissible cutPacket := by
    simp [Poll.Admissible, cutPacket_state.2.2.2, Poll.reading, Fits, memBlockSize]
  have whole := (pushed_eq_parse (fun _ _ _ => rfl) (cutPacket_run.call admissible)).2
    (by decide +kernel)
  rw [Stream.onEvent_received cutPacket_state.1 rfl, cutPacket_state.2.2.1] at whole
  exact whole.1

/-- A packet larger than the server takes closes the connection and is not pushed. -/
theorem large_packet_not_pushed :
    ¬ ∀ (config : Config) (stream : Stream), PrefixStable config.handleInput →
      Stream.Run config stream →
      stream.pushed = frames (parserOf config.handleInput) stream.received := by
  intro claim
  have same := claim (threeBytes 2) _ (fun _ _ _ => rfl) (threeBytes_run 2)
  rw [Stream.onEvent_received rfl rfl] at same
  have pushed : [1, 2, 3] ∈ (Stream.fresh.onEvent (threeBytes 2) (.reading [1, 2, 3])).pushed := by
    rw [same]
    decide
  exact absurd (Stream.pushed_le (threeBytes_run 2) _ pushed) (by decide)

/-- The event in which the peer's shutdown is seen, with the bytes that come before the
shutdown and have not been read yet: the hangup is reported while they wait in the socket,
or `recv` reads them first. -/
def Poll.Shutdown (poll : Poll) (last : List UInt8) : Prop :=
  poll.hangup = true ∨
    poll.hangup = false ∧ EndsWithEof poll.results ∧ receivedOf poll.results = last

/-- `do_io` closes without another look at the bytes that came with the shutdown. -/
theorem pushed_of_shutdown (prefixStable : PrefixStable config.handleInput)
    (run : Stream.Run config stream) (isOpen : stream.isOpen = true)
    (admissible : poll.Admissible stream) {last : List UInt8} (shutdown : poll.Shutdown last) :
    (stream.onEvent config poll).pushed
        = frames (parserOf config.handleInput) (stream.received ++ last) ↔
      frames (parserOf config.handleInput)
        (rest (parserOf config.handleInput) stream.received ++ last) = [] := by
  have framed := Stream.framed_of_reaches prefixStable run
  have unchanged : (stream.onEvent config poll).pushed = stream.pushed := by
    unfold Stream.onEvent
    rw [isOpen]
    rcases shutdown with hangup | ⟨noHangup, eof, -⟩
    · simp [hangup]
    · obtain ⟨-, -, -, ends⟩ := recvData_spec config.spareFull poll.results 0
        (framed.holds isOpen) (framed.length isOpen) admissible
      simp [noHangup, ends eof]
  rw [unchanged, framed.whole isOpen,
    (frames_append (parserOf_stable prefixStable) stream.received last).1]
  exact List.self_eq_append_right

/-- A first round that reads a byte and then the shutdown. -/
def Poll.readingThenEof (data : List UInt8) : Poll :=
  { Poll.reading data with results := [.bytes data, .eof] }

/-- The first packet was pushed in an earlier round; with the shutdown comes one more byte of the
second, which stays cut. -/
theorem pushed_of_shutdown_threeBytes :
    cutPacket.pushed = [[1, 2, 3]] ∧
      (cutPacket.onEvent (threeBytes 3) (.readingThenEof [5])).pushed =
        frames (parserOf fun _ => 3) ([1, 2, 3, 4] ++ [5]) := by
  have admissible : (Poll.readingThenEof [5]).Admissible cutPacket := by
    simp [Poll.Admissible, cutPacket_state.2.2.2, Poll.readingThenEof, Fits, memBlockSize]
  have exact' := pushed_of_shutdown (fun _ _ _ => rfl) cutPacket_run cutPacket_state.1 admissible
    (.inr ⟨rfl, trivial, rfl⟩)
  rw [cutPacket_state.2.2.1] at exact'
  exact ⟨cutPacket_state.2.1, exact'.mpr (by decide)⟩

/-- A packet that is read in the same loop as the shutdown is lost. -/
theorem shutdown_loses_packet :
    ¬ ∀ (config : Config) (stream : Stream) (poll : Poll) (last : List UInt8),
      PrefixStable config.handleInput → Stream.Run config stream → stream.isOpen = true →
      poll.Admissible stream → poll.Shutdown last →
      (stream.onEvent config poll).pushed
        = frames (parserOf config.handleInput) (stream.received ++ last) := by
  intro claim
  have admissible : (Poll.readingThenEof [1, 2, 3]).Admissible Stream.fresh := by
    simp [Poll.Admissible, Stream.fresh, Poll.readingThenEof, Fits, memBlockSize]
  have same := claim (threeBytes 3) Stream.fresh (.readingThenEof [1, 2, 3]) [1, 2, 3]
    (fun _ _ _ => rfl) .refl rfl admissible (.inr ⟨rfl, trivial, rfl⟩)
  have none : (Stream.fresh.onEvent (threeBytes 3) (.readingThenEof [1, 2, 3])).pushed = [] := by
    simp [Stream.onEvent, Stream.fresh, Poll.readingThenEof, Poll.reading, recvData]
  rw [none] at same
  exact absurd same (by decide)

end Run

end Taomee.NetIo
