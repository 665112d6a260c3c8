import Taomee.Library.Runs

/-!
# async_server: the outbound side of c_tcp_socket

`send_pkg` sends a packet at once when nothing waits, and queues what the socket does not
take in buffers of `BUF_LEN` bytes; when something waits, it queues the whole packet behind
it. `handle_output` sends from the front of the queue.

What `send`, `malloc` and `epoll_ctl` answer is part of the call. Answers of `send` that run
out stand for `EAGAIN`.
-/

namespace Taomee.AsyncServer

/-- `BUF_LEN`: 8192 bytes less the header of `buffer_t`. -/
def bufLen : Nat := 8188

theorem bufLen_pos : 0 < bufLen := by decide

/-- `MAX_SEND_LIST_SIZE` -/
def maxSendListSize : Nat := 1024

/-- An answer of `send`: it takes so many bytes, or all that it is offered when these are
fewer. `again` is `EAGAIN` or `EINTR`. -/
inductive SendResult where
  | sent (count : Nat)
  | again
  | error
  deriving DecidableEq

/-- The sending part of `c_tcp_socket`, with the bytes handed to the kernel and the packets
accepted so far. A buffer is the `dat_len` bytes in use; `alive` ends with `handle_fini`. -/
structure TcpSocket where
  mSendList : List (List UInt8)
  mSendPos : Nat
  mSendListSize : Nat
  mIsClosed : Bool
  alive : Bool
  kernel : List UInt8
  accepted : List UInt8

/-- `handle_fini` frees the queue and deletes the socket. -/
def TcpSocket.handleFini (sock : TcpSocket) : TcpSocket :=
  { sock with mSendList := [], mSendListSize := 0, alive := false }

/-- `handle_output`; `ctl` is the answer of `handle_ctl`. -/
def TcpSocket.handleOutput (ctl : Bool) : List SendResult → TcpSocket → Bool × TcpSocket
  | [], sock => (if sock.mSendList = [] then !sock.mIsClosed && ctl else true, sock)
  | result :: rest, sock =>
    match sock.mSendList with
    | [] => (!sock.mIsClosed && ctl, sock)
    | buffer :: later =>
      match result with
      | .sent count =>
        let n := min count (buffer.length - sock.mSendPos)
        if n > 0 then
          let sendPos := sock.mSendPos + n
          let kernel := sock.kernel ++ (buffer.drop sock.mSendPos).take n
          if sendPos = buffer.length then
            handleOutput ctl rest
              { sock with
                mSendList := later
                mSendListSize := sock.mSendListSize - 1
                mSendPos := 0
                kernel := kernel }
          else handleOutput ctl rest { sock with mSendPos := sendPos, kernel := kernel }
        else (false, sock)
      | .again => (true, sock)
      | .error => (false, sock)

/-- The loop of `send_pkg` behind a queue that is not empty: the last buffer is filled, and
new ones follow as long as there is memory for them. -/
def appendPkg : Nat → List (List UInt8) → Nat → List UInt8 → Nat → Bool × List (List UInt8) × Nat
  | 0, list, listSize, _, _ => (true, list, listSize)
  | fuel + 1, list, listSize, left, spares =>
    let buffer := list.getLastD []
    let size := if bufLen - buffer.length ≥ left.length then left.length
      else bufLen - buffer.length
    let list := list.dropLast ++ [buffer ++ left.take size]
    let left := left.drop size
    if 0 < left.length then
      if spares = 0 then (false, list, listSize)
      else appendPkg fuel (list ++ [[]]) (listSize + 1) left (spares - 1)
    else (true, list, listSize)

/-- The loop of `send_pkg` that queues what the socket has not taken. -/
def queuePkg : Nat → List (List UInt8) → Nat → List UInt8 → Nat → Bool × List (List UInt8) × Nat
  | 0, list, listSize, _, _ => (true, list, listSize)
  | fuel + 1, list, listSize, left, spares =>
    if spares = 0 then (false, list, listSize)
    else
      let size := if bufLen > left.length then left.length else bufLen
      let list := list ++ [left.take size]
      let left := left.drop size
      if left.length = 0 then (true, list, listSize + 1)
      else queuePkg fuel list (listSize + 1) left (spares - 1)

/-- `send_pkg` refuses a packet when too many buffers wait. -/
def TcpSocket.Full (sock : TcpSocket) : Prop :=
  sock.mSendList ≠ [] ∧ sock.mSendListSize ≥ maxSendListSize

instance (sock : TcpSocket) : Decidable sock.Full :=
  inferInstanceAs (Decidable (_ ∧ _))

/-- `send_pkg` on an empty queue, once `send` has taken `n` bytes. -/
def TcpSocket.queueRest (sock : TcpSocket) (buf : List UInt8) (n spares : Nat) : TcpSocket :=
  let sock := { sock with kernel := sock.kernel ++ buf.take n }
  if n > 0 ∧ n = buf.length then sock
  else
    let queued := queuePkg (buf.length + 1) sock.mSendList sock.mSendListSize (buf.drop n) spares
    let sock := { sock with mSendList := queued.2.1, mSendListSize := queued.2.2 }
    if queued.1 then sock else sock.handleFini

/-- `send_pkg`, with the answer of `send` and memory for so many buffers. `handle_error` ends
the socket. -/
def TcpSocket.sendPkg (sock : TcpSocket) (buf : List UInt8) (result : SendResult)
    (spares : Nat) : TcpSocket :=
  if sock.mSendList ≠ [] then
    if sock.mSendListSize ≥ maxSendListSize then sock
    else
      let queued := appendPkg (buf.length + 1) sock.mSendList sock.mSendListSize buf spares
      let sock := { sock with mSendList := queued.2.1, mSendListSize := queued.2.2 }
      if queued.1 then sock else sock.handleFini
  else
    match result with
    | .sent count => sock.queueRest buf (min count buf.length) spares
    | .again => sock.queueRest buf 0 spares
    | .error => sock.handleFini

/-- `shut` -/
def TcpSocket.shut (sock : TcpSocket) : TcpSocket :=
  if sock.mSendList ≠ [] then { sock with mIsClosed := true } else sock.handleFini

inductive SocketCall where
  | sendPkg (buf : List UInt8) (result : SendResult) (spares : Nat)
  | handleOutput (ctl : Bool) (results : List SendResult)
  | shut
  | handleError

/-- A call of the reactor or of the send queue. The reactor ends a socket whose
`handle_output` fails. -/
def TcpSocket.step (sock : TcpSocket) (call : SocketCall) : TcpSocket :=
  if !sock.alive then sock
  else
    match call with
    | .sendPkg buf result spares =>
      { sock.sendPkg buf result spares with
        accepted := if sock.Full then sock.accepted else sock.accepted ++ buf }
    | .handleOutput ctl results =>
      let out := TcpSocket.handleOutput ctl results sock
      if out.1 then out.2 else out.2.handleFini
    | .shut => sock.shut
    | .handleError => sock.handleFini

/-- A socket that has just been started. -/
def TcpSocket.started : TcpSocket := ⟨[], 0, 0, false, true, [], []⟩

/-- What has gone to the kernel and what waits is what was accepted. -/
structure TcpSocket.Sound (sock : TcpSocket) : Prop where
  account : sock.kernel ++ sock.mSendList.flatten.drop sock.mSendPos = sock.accepted
  pos : sock.mSendPos ≤ sock.mSendList.flatten.length
  size : sock.mSendListSize = sock.mSendList.length
  bounded : ∀ buffer ∈ sock.mSendList, buffer.length ≤ bufLen

section Queue

variable {list : List (List UInt8)} {listSize fuel spares : Nat} {left : List UInt8}

/-- The queue after it took some data: as many buffers as counted, none too large. -/
structure Queued (list : List (List UInt8)) (left : List UInt8)
    (queued : Bool × List (List UInt8) × Nat) : Prop where
  bytes : queued.1 = true → queued.2.1.flatten = list.flatten ++ left
  size : queued.2.2 = queued.2.1.length
  bounded : ∀ buffer ∈ queued.2.1, buffer.length ≤ bufLen

theorem appendPkg_queued (nonempty : list ≠ []) (size : listSize = list.length)
    (bounded : ∀ buffer ∈ list, buffer.length ≤ bufLen)
    (enough : left.length < fuel ∨ list.getLastD [] = [] ∧ 0 < left.length ∧ left.length ≤ fuel) :
    Queued list left (appendPkg fuel list listSize left spares) := by
  induction fuel generalizing list listSize left spares with
  | zero => omega
  | succ fuel ih =>
    obtain ⟨front, buffer, rfl⟩ : ∃ front buffer, list = front ++ [buffer] :=
      ⟨list.dropLast, list.getLast nonempty, (List.dropLast_concat_getLast nonempty).symm⟩
    have here := bounded buffer (by simp)
    unfold appendPkg
    simp only [List.getLastD_concat, List.dropLast_concat] at enough ⊢
    generalize copied : (if bufLen - buffer.length ≥ left.length then left.length
      else bufLen - buffer.length) = copyLen
    have fits : copyLen ≤ left.length ∧ copyLen ≤ bufLen - buffer.length ∧
        (copyLen < left.length → copyLen = bufLen - buffer.length) := by
      rw [← copied]
      split <;> omega
    have filled : ∀ other ∈ front ++ [buffer ++ left.take copyLen], other.length ≤ bufLen := by
      intro other member
      rcases List.mem_append.mp member with old | new
      · exact bounded other (by simp [old])
      · rw [List.mem_singleton.mp new, List.length_append, List.length_take]
        omega
    have bytes : (front ++ [buffer ++ left.take copyLen]).flatten
        = (front ++ [buffer]).flatten ++ left.take copyLen := by simp
    split
    case isTrue more =>
      rw [List.length_drop] at more
      split
      case isTrue =>
        constructor
        · exact nofun
        · rw [size]
          simp
        · exact filled
      case isFalse =>
        have queued : Queued ((front ++ [buffer ++ left.take copyLen]) ++ [[]]) (left.drop copyLen)
            (appendPkg fuel ((front ++ [buffer ++ left.take copyLen]) ++ [[]]) (listSize + 1)
              (left.drop copyLen) (spares - 1)) := by
          apply ih
          · simp
          · rw [size]
            simp
          · intro other member
            rcases List.mem_append.mp member with old | new
            · exact filled other old
            · rw [List.mem_singleton.mp new]
              exact Nat.zero_le _
          · right
            rw [List.length_drop]
            refine ⟨by simp, more, ?_⟩
            rcases enough with fewer | ⟨empty, some', atMost⟩
            · omega
            · rw [empty, List.length_nil] at fits
              have := bufLen_pos
              omega
        constructor
        · intro done
          rw [queued.bytes done, List.flatten_append, bytes]
          simp
        · exact queued.size
        · exact queued.bounded
    case isFalse none =>
      rw [List.length_drop] at none
      constructor
      · intro _
        show (front ++ [buffer ++ left.take copyLen]).flatten = _
        rw [bytes, List.take_of_length_le (by omega)]
      · rw [size]
        simp
      · exact filled

theorem queuePkg_queued (size : listSize = list.length)
    (bounded : ∀ buffer ∈ list, buffer.length ≤ bufLen) (enough : left.length < fuel) :
    Queued list left (queuePkg fuel list listSize left spares) := by
  induction fuel generalizing list listSize left spares with
  | zero => omega
  | succ fuel ih =>
    unfold queuePkg
    split
    case isTrue =>
      constructor
      · exact nofun
      · exact size
      · exact bounded
    case isFalse =>
      dsimp only
      generalize copied : (if bufLen > left.length then left.length else bufLen) = copyLen
      have fits : copyLen ≤ left.length ∧ copyLen ≤ bufLen ∧ (copyLen < left.length → 0 < copyLen) := by
        have := bufLen_pos
        rw [← copied]
        split <;> omega
      have grown : ∀ other ∈ list ++ [left.take copyLen], other.length ≤ bufLen := by
        intro other member
        rcases List.mem_append.mp member with old | new
        · exact bounded other old
        · rw [List.mem_singleton.mp new, List.length_take]
          omega
      split
      case isTrue none =>
        rw [List.length_drop] at none
        constructor
        · intro _
          show (list ++ [left.take copyLen]).flatten = _
          rw [List.flatten_append, List.flatten_singleton, List.take_of_length_le (by omega)]
        · rw [size]
          simp
        · exact grown
      case isFalse more =>
        rw [List.length_drop] at more
        have queued : Queued (list ++ [left.take copyLen]) (left.drop copyLen)
            (queuePkg fuel (list ++ [left.take copyLen]) (listSize + 1) (left.drop copyLen)
              (spares - 1)) := by
          apply ih
          · rw [size]
            simp
          · exact grown
          · rw [List.length_drop]
            omega
        constructor
        · intro done
          rw [queued.bytes done, List.flatten_append, List.flatten_singleton, List.append_assoc,
            List.take_append_drop]
        · exact queued.size
        · exact queued.bounded

end Queue

section Run

variable {sock : TcpSocket}

/-- `handle_output` moves bytes from the queue to the kernel, whatever comes of it. -/
theorem TcpSocket.Sound.handleOutput (sound : sock.Sound) (ctl : Bool) (results : List SendResult) :
    (TcpSocket.handleOutput ctl results sock).2.Sound ∧
      (TcpSocket.handleOutput ctl results sock).2.alive = sock.alive ∧
      (TcpSocket.handleOutput ctl results sock).2.accepted = sock.accepted := by
  induction results generalizing sock with
  | nil => exact ⟨sound, rfl, rfl⟩
  | cons result rest ih =>
    unfold TcpSocket.handleOutput
    split
    case h_1 => exact ⟨sound, rfl, rfl⟩
    case h_2 buffer later shape =>
      have account := sound.account
      have size := sound.size
      have bounded := sound.bounded
      rw [shape] at account size bounded
      cases result with
      | again => exact ⟨sound, rfl, rfl⟩
      | error => exact ⟨sound, rfl, rfl⟩
      | sent count =>
        dsimp only
        generalize taken : min count (buffer.length - sock.mSendPos) = n
        split
        case isFalse => exact ⟨sound, rfl, rfl⟩
        case isTrue some' =>
          have fits : sock.mSendPos + n ≤ buffer.length := by omega
          have moved : (sock.kernel ++ (buffer.drop sock.mSendPos).take n)
              ++ (buffer :: later).flatten.drop (sock.mSendPos + n) = sock.accepted := by
            rw [← account, List.flatten_cons, List.drop_append_of_le_length fits,
              List.drop_append_of_le_length (by omega), ← List.drop_drop,
              List.append_assoc sock.kernel, ← List.append_assoc ((buffer.drop _).take n),
              List.take_append_drop]
          split
          case isTrue whole =>
            apply ih
            constructor
            · rw [whole, List.flatten_cons, List.drop_left] at moved
              exact moved
            · exact Nat.zero_le _
            · rw [size]
              rfl
            · exact fun other member => bounded other (List.mem_cons_of_mem _ member)
          case isFalse =>
            apply ih
            constructor
            · rw [← shape] at moved
              exact moved
            · show sock.mSendPos + n ≤ sock.mSendList.flatten.length
              rw [shape, List.flatten_cons, List.length_append]
              omega
            · exact sound.size
            · exact sound.bounded

/-- The account of a socket at every moment: what has gone to the kernel is a prefix of what
was accepted, and as long as the socket lives the queue is the rest. -/
structure TcpSocket.Accounted (sock : TcpSocket) : Prop where
  within : sock.kernel <+: sock.accepted
  sound : sock.alive = true → sock.Sound

theorem TcpSocket.Sound.within (sound : sock.Sound) : sock.kernel <+: sock.accepted :=
  ⟨_, sound.account⟩

theorem TcpSocket.Sound.accounted (sound : sock.Sound) : sock.Accounted :=
  ⟨sound.within, fun _ => sound⟩

/-- A socket that has ended stays within what was accepted. -/
theorem TcpSocket.accounted_handleFini (within : sock.kernel <+: sock.accepted) :
    sock.handleFini.Accounted :=
  ⟨within, nofun⟩

/-- What becomes of the socket once its queue has taken some data. -/
theorem TcpSocket.accounted_queued {left accepted kernel : List UInt8}
    {queued : Bool × List (List UInt8) × Nat} (sound : sock.Sound)
    (took : Queued sock.mSendList left queued)
    (account : kernel ++ sock.mSendList.flatten.drop sock.mSendPos ++ left = accepted) :
    TcpSocket.Accounted
      { if queued.1 then { sock with mSendList := queued.2.1, mSendListSize := queued.2.2, kernel }
        else ({ sock with mSendList := queued.2.1, mSendListSize := queued.2.2, kernel }).handleFini
        with accepted := accepted } := by
  split
  case isTrue done =>
    apply Sound.accounted
    have pos := sound.pos
    constructor
    · rw [took.bytes done, List.drop_append_of_le_length pos, ← List.append_assoc]
      exact account
    · show sock.mSendPos ≤ queued.2.1.flatten.length
      rw [took.bytes done, List.length_append]
      omega
    · exact took.size
    · exact took.bounded
  case isFalse =>
    have ended : TcpSocket.Accounted
        ({ sock with accepted := accepted, kernel := kernel } : TcpSocket).handleFini := by
      apply accounted_handleFini
      rw [← account, List.append_assoc]
      exact List.prefix_append _ _
    exact ended

/-- On an empty queue, what the socket does not take of a packet is queued. -/
theorem TcpSocket.Sound.queueRest (sound : sock.Sound) (empty : sock.mSendList = [])
    (buf : List UInt8) (n spares : Nat) :
    TcpSocket.Accounted
      { sock.queueRest buf n spares with accepted := sock.accepted ++ buf } := by
  have account := sound.account
  have pos := sound.pos
  rw [empty, List.flatten_nil, List.drop_nil, List.append_nil] at account
  unfold TcpSocket.queueRest
  split
  case isTrue whole =>
    apply Sound.accounted
    constructor
    · rw [empty, whole.2, List.take_length, account]
      simp
    · exact pos
    · exact sound.size
    · exact sound.bounded
  case isFalse =>
    have took : Queued sock.mSendList (buf.drop n) (queuePkg (buf.length + 1) sock.mSendList
        sock.mSendListSize (buf.drop n) spares) :=
      queuePkg_queued sound.size sound.bounded (by rw [List.length_drop]; omega)
    apply accounted_queued sound took
    rw [empty, List.flatten_nil, List.drop_nil, List.append_nil, List.append_assoc,
      List.take_append_drop, account]

theorem TcpSocket.sendPkg_of_full (full : sock.Full) (buf : List UInt8) (result : SendResult)
    (spares : Nat) : sock.sendPkg buf result spares = sock := by
  unfold TcpSocket.sendPkg
  rw [if_pos full.1, if_pos full.2]

/-- `send_pkg` accounts for a packet that it does not refuse. -/
theorem TcpSocket.Sound.sendPkg (sound : sock.Sound) (buf : List UInt8) (result : SendResult)
    (spares : Nat) :
    TcpSocket.Accounted
      { sock.sendPkg buf result spares with
        accepted := if sock.Full then sock.accepted else sock.accepted ++ buf } := by
  have account := sound.account
  unfold TcpSocket.sendPkg
  by_cases waiting : sock.mSendList ≠ []
  · rw [if_pos waiting]
    by_cases tooMany : sock.mSendListSize ≥ maxSendListSize
    · rw [if_pos tooMany, if_pos (show sock.Full from ⟨waiting, tooMany⟩)]
      exact sound.accounted
    · rw [if_neg tooMany, if_neg (show ¬ sock.Full from fun full => tooMany full.2)]
      apply accounted_queued sound
        (appendPkg_queued waiting sound.size sound.bounded (.inl (Nat.lt_succ_self _)))
      rw [account]
  · have empty : sock.mSendList = [] := not_not.mp waiting
    rw [if_neg waiting, if_neg (show ¬ sock.Full from fun full => waiting full.1)]
    cases result with
    | sent count => exact sound.queueRest empty buf _ spares
    | again => exact sound.queueRest empty buf 0 spares
    | error =>
      have ended : TcpSocket.Accounted
          ({ sock with accepted := sock.accepted ++ buf } : TcpSocket).handleFini :=
        accounted_handleFini (sound.within.trans (List.prefix_append _ _))
      exact ended

/-- One call of the reactor or of the send queue. -/
theorem TcpSocket.Accounted.step (accounted : sock.Accounted) (call : SocketCall) :
    (sock.step call).Accounted := by
  unfold TcpSocket.step
  split
  case isTrue => exact accounted
  case isFalse lives =>
    have sound := accounted.sound (by simpa using lives)
    cases call with
    | sendPkg buf result spares => exact sound.sendPkg buf result spares
    | handleOutput ctl results =>
      obtain ⟨soundAfter, -, -⟩ := sound.handleOutput ctl results
      dsimp only
      split
      case isTrue => exact soundAfter.accounted
      case isFalse => exact accounted_handleFini soundAfter.within
    | shut =>
      dsimp only [TcpSocket.shut]
      by_cases waiting : sock.mSendList ≠ []
      · rw [if_pos waiting]
        exact Sound.accounted ⟨sound.account, sound.pos, sound.size, sound.bounded⟩
      · rw [if_neg waiting]
        exact accounted_handleFini sound.within
    | handleError => exact accounted_handleFini sound.within

/-- At every moment of a connection the kernel has got a prefix of the packets that
`send_pkg` has not refused, and a packet that it refuses changes nothing. -/
theorem sent_prefix_accepted
    (run : Runs.Reaches TcpSocket.step (fun _ _ => True) TcpSocket.started sock) :
    sock.kernel <+: sock.accepted ∧
      (sock.alive = true →
        sock.kernel ++ sock.mSendList.flatten.drop sock.mSendPos = sock.accepted) ∧
      (sock.Full → ∀ buf result spares, sock.step (.sendPkg buf result spares) = sock) := by
  have accounted : sock.Accounted := by
    apply run.invariant
    · exact TcpSocket.Sound.accounted ⟨rfl, Nat.le_refl _, rfl, nofun⟩
    · intro state call holds _
      exact holds.step call
  refine ⟨accounted.within, fun lives => (accounted.sound lives).account, ?_⟩
  intro full buf result spares
  simp only [TcpSocket.step, TcpSocket.sendPkg_of_full full, if_pos full]
  split
  · rfl
  · rfl

/-- A packet of which the socket takes one byte at once and the others later. -/
theorem sent_prefix_accepted_partial :
    ((TcpSocket.started.step (.sendPkg [1, 2, 3] (.sent 1) 1)).step
        (.handleOutput true [.sent 1])).kernel
      <+: ((TcpSocket.started.step (.sendPkg [1, 2, 3] (.sent 1) 1)).step
        (.handleOutput true [.sent 1])).accepted :=
  (sent_prefix_accepted (.call (.call .refl trivial) trivial)).1

end Run

end Taomee.AsyncServer
