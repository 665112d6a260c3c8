import Taomee.Library.LittleEndian
import Taomee.Library.Memory
import Taomee.Library.Runs

/-!
# The shared-memory channel

A channel has a buffer for requests and one for responses. A block lies in its buffer in one
piece; where the end of the buffer is too near for it, the writer leaves an end marker and goes
back to the front.
-/

namespace Taomee.Anticheat

open LittleEndian Memory

def channelBufferLen : Nat := 10 * 1024 * 1024

/-- `sizeof (struct channel_block_t)`, which is packed. -/
def sizeofChannelBlock : Nat := 5

def stx : UInt8 := 2
def etx : UInt8 := 3

/-- One direction of a `channel_t`: a head, a tail and a buffer. -/
structure Lane where
  head : Nat
  tail : Nat
  buf : Int → UInt8

structure Channel where
  req : Lane
  resp : Lane

/-- The bytes of a block. -/
def encode (data : List UInt8) : List UInt8 := stx :: toLe 4 data.length ++ data

/-- The sum of the header's size and a length, as a `uint32_t`. -/
def blockLen (len : Nat) : Nat := (sizeofChannelBlock + len) % 2 ^ 32

namespace Lane

/-- The part of `add_to_channel` after the checks, with the tail it has come to. -/
def place (lane : Lane) (buf : Int → UInt8) (tail : Nat) (data : List UInt8) : Lane :=
  { lane with
    buf := write buf tail (encode data)
    tail := (tail + blockLen data.length) % 2 ^ 32 % channelBufferLen }

/-- `add_to_channel`: the return value and the lane. -/
def add (lane : Lane) (data : List UInt8) : Int × Lane :=
  if lane.head ≥ channelBufferLen ∨ lane.tail ≥ channelBufferLen then
    (-1, { lane with head := 0, tail := 0 })
  else
    let addLen := blockLen data.length
    if lane.head ≤ lane.tail then
      let left := channelBufferLen - lane.tail
      if left = addLen ∧ lane.head = 0 then (-1, lane)
      else if left < addLen then
        if lane.head ≤ addLen then (-1, lane)
        else (0, lane.place (write lane.buf lane.tail [etx]) 0 data)
      else (0, lane.place lane.buf lane.tail data)
    else if lane.head - lane.tail ≤ addLen then (-1, lane)
    else (0, lane.place lane.buf lane.tail data)

/-- The part of `get_from_channel` that reads the block at the head; `cap` is what `*len` says of
the caller's buffer. A block that cannot be right is an error that drops everything. -/
def take (lane : Lane) (cap : Nat) : Option (List UInt8) × Lane :=
  let maxOneBlkLen :=
    if lane.head < lane.tail then lane.tail - lane.head else channelBufferLen - lane.head
  if maxOneBlkLen < sizeofChannelBlock then (none, { lane with head := lane.tail })
  else if lane.buf lane.head ≠ stx then (none, { lane with head := lane.tail })
  else
    let len := ofLe (read lane.buf (lane.head + 1) 4)
    if maxOneBlkLen < blockLen len ∨ cap < len then (none, { lane with head := lane.tail })
    else
      (some (read lane.buf (lane.head + sizeofChannelBlock) len),
        { lane with head := (lane.head + blockLen len) % 2 ^ 32 % channelBufferLen })

/-- `get_from_channel`: the data it gives, as long as `*len` then says, or `none` where it returns
-1, and the lane. -/
def get (lane : Lane) (cap : Nat) : Option (List UInt8) × Lane :=
  if lane.head ≥ channelBufferLen ∨ lane.tail ≥ channelBufferLen then
    (none, { lane with head := 0, tail := 0 })
  else if lane.head = lane.tail then (some [], lane)
  else if lane.head > lane.tail ∧ lane.buf lane.head = etx then
    let back := { lane with head := 0 }
    if back.head = back.tail then (some [], back) else back.take cap
  else lane.take cap

end Lane

namespace Channel

/-- The buffer, head and tail that `is_req` selects. -/
def lane (chl : Channel) (isReq : Bool) : Lane := if isReq then chl.req else chl.resp

def setLane (chl : Channel) (isReq : Bool) (lane : Lane) : Channel :=
  if isReq then { chl with req := lane } else { chl with resp := lane }

/-- `init_channel`, with what is in the buffers. -/
def initChannel (reqbuf respbuf : Int → UInt8) : Channel := ⟨⟨0, 0, reqbuf⟩, ⟨0, 0, respbuf⟩⟩

/-- `is_channel_empty`. -/
def isChannelEmpty (chl : Channel) (isReq : Bool) : Bool :=
  (chl.lane isReq).head = (chl.lane isReq).tail

def addToChannel (chl : Channel) (data : List UInt8) (isReq : Bool) : Int × Channel :=
  let added := (chl.lane isReq).add data
  (added.1, chl.setLane isReq added.2)

def getFromChannel (chl : Channel) (cap : Nat) (isReq : Bool) : Option (List UInt8) × Channel :=
  let got := (chl.lane isReq).get cap
  (got.1, chl.setLane isReq got.2)

theorem lane_setLane_self (chl : Channel) (isReq : Bool) (lane : Lane) :
    (chl.setLane isReq lane).lane isReq = lane := by
  cases isReq <;> rfl

theorem lane_setLane_of_ne (chl : Channel) {isReq other : Bool} (lane : Lane)
    (apart : other ≠ isReq) : (chl.setLane isReq lane).lane other = chl.lane other := by
  cases isReq <;> cases other <;> first | rfl | exact absurd rfl apart

end Channel

/-! ## A queue of blocks -/

/-- A channel, and for each direction the blocks that have been added and not been taken, the
oldest first. -/
structure Traffic where
  chl : Channel
  queue : Bool → List (List UInt8)

inductive ChannelCall where
  | add (data : List UInt8) (isReq : Bool)
  | get (cap : Nat) (isReq : Bool)
  deriving DecidableEq

/-- A block that is added comes last; the oldest is taken. -/
def Traffic.step (traffic : Traffic) : ChannelCall → Traffic
  | .add data isReq =>
    let added := traffic.chl.addToChannel data isReq
    ⟨added.2,
      if added.1 = 0 then
        Function.update traffic.queue isReq (traffic.queue isReq ++ [data])
      else traffic.queue⟩
  | .get cap isReq =>
    ⟨(traffic.chl.getFromChannel cap isReq).2,
      Function.update traffic.queue isReq (traffic.queue isReq).tail⟩

def Traffic.init (reqbuf respbuf : Int → UInt8) : Traffic :=
  ⟨.initChannel reqbuf respbuf, fun _ => []⟩

/-- A block is smaller than the buffer, and the caller's buffer holds the oldest block. -/
def Fits (traffic : Traffic) : ChannelCall → Prop
  | .add data _ => data.length < channelBufferLen
  | .get cap isReq => ∀ block ∈ (traffic.queue isReq).head?, block.length ≤ cap

instance (traffic : Traffic) : ∀ call, Decidable (Fits traffic call)
  | .add data _ => inferInstanceAs (Decidable (data.length < channelBufferLen))
  | .get cap isReq =>
    inferInstanceAs (Decidable (∀ block ∈ (traffic.queue isReq).head?, block.length ≤ cap))

end Taomee.Anticheat
