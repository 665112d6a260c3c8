import Taomee.AsyncServer.Input
import Taomee.AsyncServer.Output

/-!
# async_server: packets from one process to another

The network may cut the stream anywhere and be late: what has arrived is a front of what was sent.
-/

namespace Taomee.AsyncServer

open Framing Runs

/-- A socket that sends, with the packets that `send_pkg` has not refused. -/
structure Sender where
  sock : TcpSocket
  packets : List (List UInt8)

namespace Sender

def started : Sender := ⟨.started, []⟩

/-- The packet that a call hands to the socket. -/
def takes (sock : TcpSocket) : SocketCall → List (List UInt8)
  | .sendPkg buf _ _ => if sock.alive ∧ ¬ sock.Full then [buf] else []
  | _ => []

def step (sender : Sender) (call : SocketCall) : Sender :=
  ⟨sender.sock.step call, sender.packets ++ takes sender.sock call⟩

/-- Only whole packets are sent: the plugin of the receiver gives each its own length. -/
def SendsPackets (config : InputConfig) : SocketCall → Prop
  | .sendPkg buf _ _ => buf ≠ [] ∧ config.getPkgLenCli buf = buf.length
  | _ => True

/-- The state of the socket and of the packets fit. -/
structure Sound (config : InputConfig) (sender : Sender) : Prop where
  accounted : sender.sock.Accounted
  bytes : sender.sock.accepted = sender.packets.flatten
  whole : ∀ pkg ∈ sender.packets, Starts (parserOf config.getPkgLenCli) pkg pkg.length

variable {config : InputConfig} {sender : Sender}

theorem accepted_step {sock : TcpSocket} (accounted : sock.Accounted) (call : SocketCall) :
    (sock.step call).accepted = sock.accepted ++ (takes sock call).flatten := by
  unfold TcpSocket.step takes
  cases lives : sock.alive with
  | false => cases call <;> simp
  | true =>
    rw [if_neg (by decide)]
    cases call with
    | sendPkg buf result spares => by_cases full : sock.Full <;> simp [full]
    | handleOutput ctl results =>
      have same := ((accounted.sound lives).handleOutput ctl results).2.2
      dsimp only
      split <;> simpa [TcpSocket.handleFini] using same
    | shut =>
      dsimp only [TcpSocket.shut]
      split <;> simp [TcpSocket.handleFini]
    | handleError => simp [TcpSocket.handleFini]

theorem Sound.step (sound : sender.Sound config) {call : SocketCall}
    (sends : SendsPackets config call) : (sender.step call).Sound config where
  accounted := sound.accounted.step call
  bytes := by
    rw [Sender.step, accepted_step sound.accounted, sound.bytes, List.flatten_append]
  whole := by
    intro pkg member
    obtain old | new := List.mem_append.mp member
    · exact sound.whole pkg old
    · cases call with
      | sendPkg buf result spares =>
        obtain ⟨nonempty, length⟩ := sends
        have positive := List.length_pos_of_ne_nil nonempty
        simp only [takes] at new
        split at new
        · obtain rfl := List.mem_singleton.mp new
          have starts : Starts (parserOf config.getPkgLenCli) pkg _ :=
            starts_parserOf (by omega) (by omega)
          rwa [length, Int.toNat_natCast] at starts
        · cases new
      | handleOutput _ _ | shut | handleError => cases new

theorem sound_of_reaches
    (run : Reaches step (fun _ call => SendsPackets config call) started sender) :
    sender.Sound config := by
  apply run.invariant
  · exact ⟨TcpSocket.Sound.accounted ⟨rfl, Nat.le_refl _, rfl, nofun⟩, rfl, nofun⟩
  · intro state call sound sends
    exact sound.step sends

end Sender

/-- In every run of a sender and of a receiver whose bytes are the front of those that have gone
to the sender's kernel, the packets cut out of the stream are the first ones sent, each once, whole
and in order, and those that come into a queue are some of them in this order. When the sender's
queue is empty and all bytes have arrived, all packets sent are cut out, unless the receiver has
shut the connection or ended it. -/
theorem delivered_in_order {config : InputConfig} {sender : Sender} {receiver : InputSocket}
    (prefixStable : PrefixStable config.getPkgLenCli)
    (sends : Reaches Sender.step (fun _ call => Sender.SendsPackets config call) .started sender)
    (receives : Reaches (InputSocket.step config) (fun _ call => call.MovesIntact)
      InputSocket.started receiver)
    (arrived : receiver.received <+: sender.sock.kernel) :
    receiver.packets <+: sender.packets ∧ receiver.queued.Sublist sender.packets ∧
      (sender.sock.alive = true → sender.sock.mSendList = [] →
        receiver.received = sender.sock.kernel → receiver.alive = true →
        receiver.isClosed = false → receiver.packets = sender.packets) := by
  have stable := parserOf_stable prefixStable
  have sound := Sender.sound_of_reaches sends
  have framed : receiver.Framed config := by
    apply receives.invariant
    · exact ⟨List.nil_prefix, fun _ _ => ⟨rfl, rfl⟩, fun _ => by decide⟩
    · intro state call framed intact
      exact framed.step prefixStable intact
  have parsed : frames (parserOf config.getPkgLenCli) sender.sock.accepted = sender.packets := by
    rw [sound.bytes, frames_flatten stable sound.whole]
  have part := frames_prefix stable (arrived.trans sound.accounted.within)
  rw [parsed] at part
  have first := framed.within.trans part
  refine ⟨first, receiver.queued_sublist.trans first.sublist, ?_⟩
  intro lives drained all open_ notShut
  have account := (sound.accounted.sound lives).account
  rw [drained, List.flatten_nil, List.drop_nil, List.append_nil] at account
  rw [(framed.whole open_ notShut).1, all, account, parsed]

/-- Five packets of two bytes, the first of them sent in two parts. -/
def fivePackets : List SocketCall :=
  [.sendPkg [1, 10] (.sent 1) 1, .sendPkg [2, 20] .again 1, .sendPkg [0, 30] .again 1,
    .sendPkg [1, 40] .again 1, .sendPkg [0, 50] .again 1,
    .handleOutput true (List.replicate 9 (.sent 2))]

/-- The network brings four and a half of the packets. One of the four has no channel, and one
comes to a full queue. -/
theorem delivered_in_order_half :
    let receiver := fourPackets.foldl (InputSocket.step twoBytes) .started
    let sender := fivePackets.foldl Sender.step .started
    sender.packets = [[1, 10], [2, 20], [0, 30], [1, 40], [0, 50]] ∧
      receiver.packets <+: sender.packets ∧ receiver.packets.length = 4 ∧
      receiver.queued.Sublist sender.packets ∧ receiver.queued = [[1, 10], [1, 40]] := by
  have sends : Reaches Sender.step (fun _ call => Sender.SendsPackets twoBytes call) .started
      (fivePackets.foldl Sender.step .started) :=
    Reaches.refl.follow ⟨⟨by decide, rfl⟩, ⟨by decide, rfl⟩, ⟨by decide, rfl⟩, ⟨by decide, rfl⟩,
      ⟨by decide, rfl⟩, trivial, trivial⟩
  have delivered := delivered_in_order (fun _ _ _ => rfl) sends fourPackets_run ⟨[50], by decide⟩
  exact ⟨by decide, delivered.1, by decide, delivered.2.1, by decide⟩

end Taomee.AsyncServer
