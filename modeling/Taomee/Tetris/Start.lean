import Mathlib.Data.List.Perm.Subperm
import Taomee.Tetris.Game

/-!
# The start of a bout

Play data is relayed once as many requests for the bout have passed as there are players. The
counter does not know who has asked.
-/

namespace Taomee.Tetris

open Runs

/-- The senders of the requests for the bout that have passed, the latest first. -/
def asked : List Received → List UInt32
  | [] => []
  | message :: older =>
    if message.cmd = gameNewBout ∧ message.passed = true then message.sender :: asked older
    else asked older

/-- If play data is or has been relayed, all players have asked for the bout. -/
def StartsTogether (group : Group) (table : Table) : Prop :=
  (table.game.readyToTransdata = true ∨ ∃ packet ∈ table.sent, packet.Relays) →
    ∀ uid ∈ group.players, uid ∈ asked table.received

/-- Before the start, only players ask for the bout and none asks again. -/
def AsksOnce (group : Group) (table : Table) : Event → Prop
  | .message uid cmd body =>
    table.ended = false → uid ∈ group.sprites → cmd = gameNewBout →
      (checkPlayerSession table.game uid body).isSome = true →
      table.game.readyToTransdata = false → uid ∈ group.players ∧ uid ∉ asked table.received
  | .leave _ | .timeout | .expire => True

instance (group : Group) (table : Table) : ∀ event, Decidable (AsksOnce group table event)
  | .message uid cmd body =>
    inferInstanceAs (Decidable (table.ended = false → uid ∈ group.sprites → cmd = gameNewBout →
      (checkPlayerSession table.game uid body).isSome = true →
      table.game.readyToTransdata = false → uid ∈ group.players ∧ uid ∉ asked table.received))
  | .leave _ | .timeout | .expire => inferInstanceAs (Decidable True)

section

variable {group : Group} {table after : Table} {uid : UInt32} {cmd : Nat} {body : List UInt8}

/-- The counter counts the players who have asked. -/
structure Gathering (group : Group) (table : Table) : Prop where
  distinct : (asked table.received).Nodup
  players : asked table.received ⊆ group.players
  count : table.game.playerReadyCount = (asked table.received).length
  ready : table.game.readyToTransdata = true ↔
    table.game.playerReadyCount = group.players.length

/-- The start is right, and the counter too as long as the group plays. -/
structure Gathered (group : Group) (table : Table) : Prop where
  gathering : table.ended = false → Gathering group table
  together : StartsTogether group table

theorem Gathering.keeps (gathering : Gathering group table)
    (same : asked after.received = asked table.received)
    (started : after.game.readyToTransdata = table.game.readyToTransdata)
    (counted : after.game.playerReadyCount = table.game.playerReadyCount) :
    Gathering group after := by
  obtain ⟨distinct, players, count, ready⟩ := gathering
  exact ⟨same ▸ distinct, same ▸ players, by rw [counted, count, same],
    by rw [started, counted, ready]⟩

/-- Once all players have asked it stays so. -/
theorem StartsTogether.mono (together : StartsTogether group table)
    (more : ∀ uid ∈ asked table.received, uid ∈ asked after.received)
    (started : after.game.readyToTransdata = true → table.game.readyToTransdata = true)
    (sent : ∀ packet ∈ after.sent, packet.Relays →
      packet ∈ table.sent ∨ table.game.readyToTransdata = true) :
    StartsTogether group after := by
  rintro relays uid player
  refine more uid (together ?_ uid player)
  obtain ready | ⟨packet, there, relay⟩ := relays
  · exact .inl (started ready)
  · obtain earlier | ready := sent packet there relay
    · exact .inr ⟨packet, earlier, relay⟩
    · exact .inl ready

/-- A new request is of the last player, or others are still missing. -/
theorem Gathering.ask (gathering : Gathering group table) (player : uid ∈ group.players)
    (fresh : uid ∉ asked table.received) :
    (uid :: asked table.received).Nodup ∧ uid :: asked table.received ⊆ group.players :=
  ⟨List.nodup_cons.mpr ⟨fresh, gathering.distinct⟩,
    List.cons_subset.mpr ⟨player, gathering.players⟩⟩

theorem mem_of_length_eq {all some : List UInt32} (distinct : some.Nodup) (within : some ⊆ all)
    (complete : all.length = some.length) : ∀ uid ∈ all, uid ∈ some := fun _ member =>
  ((distinct.subperm within).perm_of_length_le (Nat.le_of_eq complete)).mem_iff.mpr member

theorem Gathered.keeps (gathered : Gathered group table)
    (received : asked after.received = asked table.received)
    (started : after.game.readyToTransdata = table.game.readyToTransdata)
    (counted : after.game.playerReadyCount = table.game.playerReadyCount)
    (sent : ∀ packet ∈ after.sent, packet.Relays →
      packet ∈ table.sent ∨ table.game.readyToTransdata = true)
    (ended : after.ended = false → table.ended = false) : Gathered group after where
  gathering running := (gathered.gathering (ended running)).keeps received started counted
  together := gathered.together.mono (fun _ member => received ▸ member)
    (fun ready => started ▸ ready) sent

theorem Gathered.init (group : Group) : Gathered group (.init group) where
  gathering _ :=
    { distinct := List.nodup_nil
      players := List.nil_subset _
      count := rfl
      ready := by
        have least := group.least
        simp only [Table.init, Game.init, Bool.false_eq_true, false_iff]
        omega }
  together relays := by
    obtain ready | ⟨packet, there, -⟩ := relays
    · cases ready
    · exact absurd there List.not_mem_nil

theorem StartsTogether.leaveGameCmd (together : StartsTogether group table) (uid : UInt32) :
    StartsTogether group (table.leaveGameCmd group uid) := by
  obtain ⟨kept, silent⟩ := handleData_of_not_checked group table.game uid []
    (show ¬ Checked protoPlayerLeave by decide)
  refine together.mono (fun _ member => member) (fun ready => ?_) fun packet there relays => ?_
  · exact kept.ready.symm.trans ready
  · obtain new | earlier := List.mem_append.mp there
    · exact absurd relays (silent packet (List.mem_reverse.mp new))
    · exact .inl earlier

theorem StartsTogether.leave (together : StartsTogether group table) (uid : UInt32) :
    Gathered group (table.leaveGameCmd group uid) := by
  refine ⟨fun running => ?_, together.leaveGameCmd uid⟩
  cases running

/-- What a message does that does not add to the requests. -/
theorem handleData_of_no_request (group : Group)
    (other : ¬ (cmd = gameNewBout ∧ (checkPlayerSession table.game uid body).isSome = true)) :
    let reply := handleData group table.game uid body cmd
    reply.game.readyToTransdata = table.game.readyToTransdata ∧
      reply.game.playerReadyCount = table.game.playerReadyCount ∧
      ∀ packet ∈ reply.packets, packet.Relays → table.game.readyToTransdata = true := by
  by_cases checked : Checked cmd
  · cases passed : checkPlayerSession table.game uid body with
    | none =>
      rw [handleData_of_not_passed checked passed]
      exact ⟨rfl, rfl, fun packet there => absurd there List.not_mem_nil⟩
    | some next =>
      have different : cmd ≠ gameNewBout := fun same => other ⟨same, by rw [passed]; rfl⟩
      obtain ⟨kept, relays⟩ := handleData_of_passed group checked different passed
      rw [checkPlayerSession_eq passed] at kept
      exact ⟨kept.ready, kept.count, relays⟩
  · obtain ⟨kept, silent⟩ := handleData_of_not_checked group table.game uid body checked
    exact ⟨kept.ready, kept.count, fun packet there relays => absurd relays (silent packet there)⟩

theorem asked_receive : asked (table.receive uid cmd body).received =
    if cmd = gameNewBout ∧ (checkPlayerSession table.game uid body).isSome = true then
      uid :: asked table.received
    else asked table.received := by
  by_cases newBout : cmd = gameNewBout
  · subst newBout
    simp [Table.receive, asked, Checked]
  · simp [Table.receive, asked, newBout]

/-- The request of a player who has not asked before, or one after the start. -/
theorem Gathered.request (gathered : Gathered group table) (running : table.ended = false)
    (passed : (checkPlayerSession table.game uid body).isSome = true)
    (once : table.game.readyToTransdata = false →
      uid ∈ group.players ∧ uid ∉ asked table.received) :
    Gathered group (table.dispatchProtocol group uid gameNewBout body) := by
  obtain ⟨next, passes⟩ := Option.isSome_iff_exists.mp passed
  have gathering := gathered.gathering running
  have more : asked (table.receive uid gameNewBout body).received =
      uid :: asked table.received := by
    rw [asked_receive, if_pos ⟨rfl, passed⟩]
  have count : next.playerReadyCount = (asked table.received).length := by
    rw [checkPlayerSession_eq passes]
    exact gathering.count
  have handled : handleData group table.game uid body gameNewBout =
      tetrisNewBout group table.game uid body := rfl
  rw [tetrisNewBout, passes] at handled
  dsimp only at handled
  obtain late | last | early := Nat.lt_trichotomy group.players.length (next.playerReadyCount + 1)
  · rw [if_neg (by omega), if_neg (by omega)] at handled
    rw [Table.dispatchProtocol_eq handled, if_pos (show (-1 : Int) < 0 by decide)]
    have together : StartsTogether group
        ((table.receive uid gameNewBout body).settle ⟨-1, [], next⟩) := by
      refine gathered.together.mono (fun other member => ?_) (fun ready => ?_)
        fun packet there relays => .inl there
      · exact more ▸ List.mem_cons_of_mem _ member
      · rw [checkPlayerSession_eq passes] at ready
        exact ready
    exact together.leave uid
  · have waiting : table.game.readyToTransdata = false := by
      rw [← Bool.not_eq_true, gathering.ready, gathering.count]
      omega
    obtain ⟨distinct, within⟩ := gathering.ask (once waiting).1 (once waiting).2
    have complete := mem_of_length_eq distinct within (by rw [List.length_cons]; omega)
    rw [if_pos last] at handled
    rw [Table.dispatchProtocol_eq handled, if_neg (Int.lt_irrefl 0)]
    refine ⟨fun _ => ⟨more ▸ distinct, more ▸ within, ?_, ?_⟩, fun _ other player => ?_⟩
    · refine (congrArg (· + 1) count).trans ?_
      exact (congrArg List.length more).symm
    · exact ⟨fun _ => last.symm, fun _ => rfl⟩
    · exact more ▸ complete other player
  · have waiting : table.game.readyToTransdata = false := by
      rw [← Bool.not_eq_true, gathering.ready, gathering.count]
      omega
    obtain ⟨distinct, within⟩ := gathering.ask (once waiting).1 (once waiting).2
    rw [if_neg (by omega), if_pos early] at handled
    rw [Table.dispatchProtocol_eq handled, if_neg (Int.lt_irrefl 0)]
    refine ⟨fun _ => ⟨more ▸ distinct, more ▸ within, ?_, ?_⟩, ?_⟩
    · refine (congrArg (· + 1) count).trans ?_
      exact (congrArg List.length more).symm
    · simp only [Table.settle, Bool.false_eq_true, false_iff]
      omega
    · refine gathered.together.mono (fun other member => ?_) (fun ready => ?_)
        fun packet there relays => .inl there
      · exact more ▸ List.mem_cons_of_mem _ member
      · cases ready

theorem Gathered.dispatchProtocol (gathered : Gathered group table) (running : table.ended = false)
    (once : cmd = gameNewBout → (checkPlayerSession table.game uid body).isSome = true →
      table.game.readyToTransdata = false → uid ∈ group.players ∧ uid ∉ asked table.received) :
    Gathered group (table.dispatchProtocol group uid cmd body) := by
  by_cases request : cmd = gameNewBout ∧ (checkPlayerSession table.game uid body).isSome = true
  · obtain ⟨rfl, passed⟩ := request
    exact gathered.request running passed (once rfl passed)
  · obtain ⟨started, counted, relays⟩ := handleData_of_no_request group request
    have settled : Gathered group ((table.receive uid cmd body).settle
        (handleData group table.game uid body cmd)) := by
      refine gathered.keeps ?_ started counted (fun packet there relay => ?_) fun _ => running
      · exact asked_receive.trans (if_neg request)
      · obtain new | earlier := List.mem_append.mp there
        · exact .inr (relays packet (List.mem_reverse.mp new) relay)
        · exact .inl earlier
    rw [Table.dispatchProtocol]
    split
    · exact settled.together.leave uid
    · exact settled

theorem Gathered.step (gathered : Gathered group table) {event : Event}
    (once : AsksOnce group table event) : Gathered group (table.step group event) := by
  by_cases ended : table.ended = true
  · rw [Table.step.eq_def, if_pos ended]
    exact gathered
  · rw [Table.step.eq_def, if_neg ended]
    have running := (Bool.not_eq_true _).mp ended
    cases event with
    | message uid cmd body =>
      dsimp only
      split
      · rename_i seen
        exact gathered.dispatchProtocol running (once running seen.1)
      · exact gathered
    | leave uid =>
      dsimp only
      split
      · exact gathered.together.leave uid
      · exact gathered
    | timeout =>
      refine gathered.keeps rfl handleTimeout_keeps.ready handleTimeout_keeps.count
        (fun packet there relays => ?_) fun _ => running
      obtain new | earlier := List.mem_append.mp there
      · exact absurd relays (not_relays_of_mem_handleTimeout (List.mem_reverse.mp new))
      · exact .inl earlier
    | expire => exact gathered.keeps rfl rfl rfl (fun packet there _ => .inl there) fun _ => running

end

/-- In a run where before the start only players ask for the bout, and each of them once, play
data is relayed only after all players have asked. -/
theorem starts_together_of_asks_once {group : Group} {table : Table}
    (run : Reaches (Table.step group) (AsksOnce group) (.init group) table) :
    StartsTogether group table := by
  have gathered : Gathered group table := by
    apply run.invariant
    · exact .init group
    · exact fun before once => before.step once
  exact gathered.together

theorem starts_together_of_asks_once_pair :
    StartsTogether pair (List.foldl (Table.step pair) (.init pair)
      [.message 100001 gameNewBout [0, 0, 0, 7], .message 100002 gameNewBout [0, 0, 0, 3],
        .message 100001 transData [0, 0, 0, 8, 0, 0, 0, 1, 5]]) :=
  starts_together_of_asks_once (Reaches.refl.follow (by decide +kernel))

/-- One player asks twice and the bout starts without the other. -/
theorem asks_twice_starts_alone : ∃ table,
    Reaches (Table.step pair) (fun _ _ => True) (.init pair) table ∧
      ¬ StartsTogether pair table := by
  refine ⟨List.foldl (Table.step pair) (.init pair)
    [.message 100001 gameNewBout [0, 0, 0, 7], .message 100001 gameNewBout [0, 0, 0, 8]],
    Reaches.of_list fun _ _ _ => trivial, ?_⟩
  intro together
  exact absurd (together (.inl (by decide +kernel)) 100002 (by decide)) (by decide +kernel)

end Taomee.Tetris
