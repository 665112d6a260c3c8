import Taomee.BattleSwitch.Dispatch

/-!
# What an event does

Every event does at most one thing to the rooms, the seats and the registries; the rest of it
concerns only what the players wait for.
-/

namespace Taomee.BattleSwitch

open Records

variable {s s' t : Switch} {a mem : Addr} {p : Player}

/-- What matters of a player to the others. -/
def Player.place (p : Player) : UInt32 × Int32 × Option SeatPtr × Addr :=
  (p.id, p.roleTm, p.seat, p.online)

/-- Nothing but what players wait for is different. -/
structure Quiet (s s' : Switch) : Prop where
  players : ∀ a, (s'.players a).map Player.place = (s.players a).map Player.place
  rooms : s'.rooms = s.rooms
  onlines : s'.onlines = s.onlines
  playerMap : s'.playerMap = s.playerMap
  onlineFdMap : s'.onlineFdMap = s.onlineFdMap
  onlineOlidMap : s'.onlineOlidMap = s.onlineOlidMap
  roomIdGenerator : s'.roomIdGenerator = s.roomIdGenerator

namespace Quiet

theorem refl (s : Switch) : Quiet s s := ⟨fun _ => rfl, rfl, rfl, rfl, rfl, rfl, rfl⟩

theorem trans (first : Quiet s s') (second : Quiet s' t) : Quiet s t where
  players a := (second.players a).trans (first.players a)
  rooms := second.rooms.trans first.rooms
  onlines := second.onlines.trans first.onlines
  playerMap := second.playerMap.trans first.playerMap
  onlineFdMap := second.onlineFdMap.trans first.onlineFdMap
  onlineOlidMap := second.onlineOlidMap.trans first.onlineOlidMap
  roomIdGenerator := second.roomIdGenerator.trans first.roomIdGenerator

/-- A player may change in everything but its place. -/
theorem modifyPlayer (s : Switch) (a : Addr) (change : Player → Player)
    (keeps : ∀ p, (change p).place = p.place) : Quiet s (s.modifyPlayer a change) where
  players _ := map_modify keeps
  rooms := rfl
  onlines := rfl
  playerMap := rfl
  onlineFdMap := rfl
  onlineOlidMap := rfl
  roomIdGenerator := rfl

/-- A line in the log is quiet. -/
theorem log (s : Switch) (pkg : Pkg) (cacheFlag : Bool) : Quiet s (s.log pkg cacheFlag) := by
  rw [Switch.log]
  split
  · exact ⟨fun _ => rfl, rfl, rfl, rfl, rfl, rfl, rfl⟩
  · exact refl s

/-- A request to the database is quiet. -/
theorem await (s : Switch) (a : Addr) (pkg : Pkg) : Quiet s (s.await a pkg) := by
  have moved := modifyPlayer s a (fun p => { p with waitcmd := pkg.body.cmd, seq := pkg.seq })
    fun _ => rfl
  exact ⟨moved.players, moved.rooms, moved.onlines, moved.playerMap, moved.onlineFdMap,
    moved.onlineOlidMap, moved.roomIdGenerator⟩

/-- An answer to a player is quiet. -/
theorem complete (s : Switch) (a : Addr) (sent : Bool) (reply : Reply) :
    Quiet s (s.complete a sent reply).1 := by
  cases reply <;> cases sent
  all_goals first
    | exact refl s
    | exact modifyPlayer s a _ fun _ => rfl

/-- Who is where does not change. -/
theorem place_of_some (quiet : Quiet s s') (found : s'.players a = some p) :
    ∃ q, s.players a = some q ∧ p.place = q.place := by
  have same := quiet.players a
  rw [found, Option.map_some] at same
  obtain ⟨q, here, place⟩ := Option.map_eq_some_iff.mp same.symm
  exact ⟨q, here, place.symm⟩

theorem symm (quiet : Quiet s s') : Quiet s' s where
  players a := (quiet.players a).symm
  rooms := quiet.rooms.symm
  onlines := quiet.onlines.symm
  playerMap := quiet.playerMap.symm
  onlineFdMap := quiet.onlineFdMap.symm
  onlineOlidMap := quiet.onlineOlidMap.symm
  roomIdGenerator := quiet.roomIdGenerator.symm

end Quiet

/-! ## Effects -/

/-- The one thing that an event does. -/
inductive Effect where
  | act (action : Action)
  | enterHall (o mem : Addr) (pkg : Pkg)
  | addOnline (mem : Addr) (fd olid : Nat)
  | closedRooms
  | delOnline (o : Addr)

def Switch.apply (s : Switch) : Effect → Switch
  | .act action => s.perform action
  | .enterHall o mem pkg => s.enterHall o mem pkg
  | .addOnline mem fd olid => (s.addOnline mem fd olid).getD s
  | .closedRooms => s.procClosedRooms
  | .delOnline o => s.delOnline o

/-- The action that the handler of a packet chooses, unless the packet is cached. -/
def playerAction (s : Switch) (a : Addr) (p : Player) (pkg : Pkg) (cacheFlag : Bool)
    (mem : Addr) : Action :=
  if cacheFlag ∧ p.waitcmd ≠ 0 then .nothing
  else
    match pkg.body with
    | .request request => (handle s a p mem request).elim .nothing Prod.fst
    | _ => .nothing

/-- The effect of a packet other than a registration. -/
def onlineEffect (s : Switch) (fd : Nat) (pkg : Pkg) (cacheFlag : Bool) (mem : Addr) : Effect :=
  match s.onlineFdMap[fd]? with
  | none => .act .nothing
  | some o =>
    if pkg.body.cmd = btlswPlayerEnterHallCmd then .enterHall o mem pkg
    else
      match s.getPlayer pkg.id pkg.roleTm with
      | none => .act .nothing
      | some a =>
        (s.players a).elim (.act .nothing) fun p =>
          if p.online ≠ o then .act .nothing else .act (playerAction s a p pkg cacheFlag mem)

/-- The effect of a packet that is dispatched. -/
def pkgEffect (s : Switch) (fd : Nat) (pkg : Pkg) (cacheFlag : Bool) (mem : Addr) : Effect :=
  match pkg.body with
  | .onlineRegister olid => .addOnline mem fd olid
  | _ => onlineEffect s fd pkg cacheFlag mem

def effectOf (s : Switch) : Event → Effect
  | .packet fd pkg mem _ => pkgEffect s fd pkg true mem
  | .cached key mem _ =>
    (s.cachedPkg key).elim (.act .nothing) fun (_, fd, pkg) => pkgEffect s fd pkg false mem
  | .closedRooms => .closedRooms
  | .connClosed fd => (s.onlineFdMap[fd]?).elim (.act .nothing) .delOnline

/-- Before and after an effect, only what players wait for changes. -/
def Does (s : Switch) (effect : Effect) (s' : Switch) : Prop :=
  ∃ before, Quiet s before ∧ Quiet (before.apply effect) s'

/-- A quiet step does nothing. -/
theorem does_of_quiet (quiet : Quiet s s') : Does s (.act .nothing) s' :=
  ⟨s, .refl s, quiet⟩

/-- What a handler looks at. -/
structure SameView (s s' : Switch) : Prop where
  rooms : s'.rooms = s.rooms
  onlines : s'.onlines = s.onlines
  playerMap : s'.playerMap = s.playerMap
  roomIdGenerator : s'.roomIdGenerator = s.roomIdGenerator
  players : ∀ a, (s'.players a).map (fun p => (p.seat, p.status)) =
    (s.players a).map fun p => (p.seat, p.status)

namespace SameView

variable (same : SameView s s')

include same

/-- Quiet steps do not change which player an id finds. -/
theorem getPlayer_eq (uid : UInt32) (roleTm : Int32) :
    s'.getPlayer uid roleTm = s.getPlayer uid roleTm := by
  rw [Switch.getPlayer, Switch.getPlayer, same.playerMap]

/-- Quiet steps do not change which room an id finds. -/
theorem findRoom_eq (o : Addr) (id : Nat) : s'.findRoom o id = s.findRoom o id := by
  rw [Switch.findRoom, Switch.findRoom, same.onlines]

/-- Seat and status of every player are as before. -/
theorem map_players {α : Type} (view : Option SeatPtr × PlayerStatus → α) (a : Addr) :
    (s'.players a).map (fun p => view (p.seat, p.status)) =
      (s.players a).map fun p => view (p.seat, p.status) := by
  have both := congrArg (Option.map view) (same.players a)
  rw [Option.map_map, Option.map_map] at both
  exact both

/-- A handler for the sender's room sees the same room. -/
theorem inRoom_eq {first second : SeatPtr → Room → Option (Action × Reply)}
    (agree : ∀ seat room, first seat room = second seat room) :
    inRoom s' p first = inRoom s p second := by
  rw [inRoom, inRoom]
  cases p.seat with
  | none => rfl
  | some seat =>
    dsimp only
    rw [same.rooms]
    exact congrArg _ (funext (agree seat))

/-- Whether all are ready is as before. -/
theorem unreadyErr_eq (room : Room) : unreadyErr s' a room = unreadyErr s a room := by
  have ready : ∀ b, (s'.players b).any (fun other => other.status ≠ .ready) =
      (s.players b).any fun other => other.status ≠ .ready := by
    intro b
    have status := same.map_players Prod.snd b
    cases old : s.players b <;> cases new : s'.players b <;> rw [old, new] at status
    · cases status
    · cases status
    · simp only [Option.map_some, Option.some.injEq] at status
      simp only [Option.any_some, status]
  rw [unreadyErr, unreadyErr]
  simp only [ready]

/-- Handlers that see the same answer the same. -/
theorem handle_eq (request : Request) : handle s' a p mem request = handle s a p mem request := by
  cases request with
  | pvpRoomList mode count turn boundRoomid => rfl
  | pvpCreateRoom roomName password mode mapid maplv =>
    rw [handle, handle, btlswPvpCreateRoom, btlswPvpCreateRoom, same.roomIdGenerator,
      same.findRoom_eq]
  | pvpRoomSetAttr roomName password mapid maplv => exact same.inRoom_eq fun _ _ => rfl
  | setRoomSeatOnoff teamId seatId onoff =>
    rw [handle, handle, btlswSetRoomSeatOnoff, btlswSetRoomSeatOnoff]
    split
    · rfl
    · exact same.inRoom_eq fun _ _ => rfl
  | pvpJoinRoom roomId password =>
    rw [handle, handle, btlswPvpJoinRoom, btlswPvpJoinRoom, same.findRoom_eq, same.rooms]
  | leaveRoom => rfl
  | pvpRoomStart => exact same.inRoom_eq fun _ _ => rfl
  | roomPlayerSetAttr which newTeamId newSeatId newStatus =>
    rw [handle, handle, btlswRoomPlayerSetAttr, btlswRoomPlayerSetAttr]
    split
    · rfl
    · exact same.inRoom_eq fun _ _ => rfl
  | kickRoomPlayer kickeeUid kickeeRoleTm =>
    rw [handle, handle, btlswKickRoomPlayer, btlswKickRoomPlayer]
    split
    · rfl
    · refine same.inRoom_eq fun seat room => ?_
      rw [same.getPlayer_eq]
      congr 2
      cases s.getPlayer kickeeUid kickeeRoleTm with
      | none => rfl
      | some kickee =>
        exact same.map_players (fun view =>
          if view.1.any fun there => there.room = seat.room then
            (Action.leaveSeat kickee, Reply.header .noerror)
          else (.nothing, .header .noplayerInroom)) kickee
  | pvpRoomStartBattle btlId fdIdx =>
    refine same.inRoom_eq fun seat room => ?_
    rw [same.unreadyErr_eq]
  | pvpEndBattle => rfl
  | getRoomFullInfo =>
    exact same.inRoom_eq fun _ room =>
      same.map_players (fun _ => (Action.nothing, Reply.out)) room.owner
  | chatMsgTransfer => exact same.inRoom_eq fun _ _ => rfl
  | playerExitHall => rfl
  | playerEnterHall => rfl
  | pvpQueryRoomInfo roomId =>
    rw [handle, handle, btlswPvpQueryRoomInfo, btlswPvpQueryRoomInfo, same.findRoom_eq, same.rooms]
  | getRoomPlayerShowInfo uid roleTm =>
    rw [handle, handle, btlswGetRoomPlayerShowInfo, btlswGetRoomPlayerShowInfo, same.getPlayer_eq]
    split
    · rfl
    · cases s.getPlayer uid roleTm with
      | none => rfl
      | some other => exact same.map_players (fun _ => (Action.nothing, Reply.out)) other

end SameView

/-! ## The effect of a step -/

/-- Logging and waiting for the database show a handler nothing new. -/
theorem sameView_await (s : Switch) (a : Addr) (pkg : Pkg) (cacheFlag : Bool) :
    SameView s ((s.log pkg cacheFlag).await a pkg) := by
  have players : (s.log pkg cacheFlag).players = s.players := by cases cacheFlag <;> rfl
  refine ⟨?_, ?_, ?_, ?_, fun b => ?_⟩
  · cases cacheFlag <;> rfl
  · cases cacheFlag <;> rfl
  · cases cacheFlag <;> rfl
  · cases cacheFlag <;> rfl
  · rw [← players]
    exact map_modify fun _ => rfl

section

variable {pkg : Pkg} {cacheFlag sent ok : Bool} {fd : Nat} {result : Switch × Bool}

/-- The handler of a player does the action that is read off the packet. -/
theorem dispatchPlayer_does (done : s.dispatchPlayer a p pkg cacheFlag mem sent = some (s', ok)) :
    Does s (.act (playerAction s a p pkg cacheFlag mem)) s' := by
  rw [Switch.dispatchPlayer] at done
  rw [playerAction]
  have logged := Quiet.log s pkg cacheFlag
  by_cases busy : cacheFlag ∧ p.waitcmd ≠ 0
  · rw [if_pos busy] at done ⊢
    split at done
    case isTrue =>
      cases done
      have moved := Quiet.modifyPlayer (s.log pkg cacheFlag) a
        (fun p => { p with cachePkgQueue := p.cachePkgQueue ++ [pkg] }) fun _ => rfl
      exact does_of_quiet (logged.trans ⟨moved.players, moved.rooms, moved.onlines, moved.playerMap,
        moved.onlineFdMap, moved.onlineOlidMap, moved.roomIdGenerator⟩)
    case isFalse =>
      cases done
      exact does_of_quiet logged
  · rw [if_neg busy] at done ⊢
    have awaits := logged.trans (Quiet.await (s.log pkg cacheFlag) a pkg)
    cases body : pkg.body with
    | onlineRegister olid =>
      rw [body] at done
      cases done
    | request r =>
      rw [body, Switch.execute, (sameView_await s a pkg cacheFlag).handle_eq] at done
      obtain ⟨⟨action, reply⟩, handled, rest⟩ := Option.bind_eq_some_iff.mp done
      dsimp only
      rw [handled, Option.elim_some]
      refine ⟨_, awaits, ?_⟩
      have completed := Quiet.complete (((s.log pkg cacheFlag).await a pkg).perform action) a sent
        reply
      rw [Option.some.inj rest] at completed
      exact completed
    | unreadable cmd bound =>
      rw [body] at done
      cases done
      exact does_of_quiet awaits
    | unbound cmd unknown =>
      rw [body] at done
      cases done
      exact does_of_quiet awaits

/-- Without a result, the handler would have read through a bad pointer. -/
theorem playerAction_of_none (body : ∀ olid, pkg.body ≠ .onlineRegister olid)
    (done : s.dispatchPlayer a p pkg cacheFlag mem sent = none) :
    playerAction s a p pkg cacheFlag mem = .nothing := by
  rw [Switch.dispatchPlayer] at done
  rw [playerAction]
  by_cases busy : cacheFlag ∧ p.waitcmd ≠ 0
  · rw [if_pos busy]
  · rw [if_neg busy] at done ⊢
    cases kind : pkg.body with
    | onlineRegister olid => exact absurd kind (body olid)
    | request r =>
      rw [kind, Switch.execute, (sameView_await s a pkg cacheFlag).handle_eq] at done
      dsimp only
      cases handled : handle s a p mem r with
      | none => rfl
      | some answer =>
        rw [handled] at done
        cases done
    | unreadable cmd bound => rfl
    | unbound cmd unknown => rfl

/-- Only one request has the command of entering the hall. -/
theorem request_of_enterHall {r : Request} (cmd : r.cmd = btlswPlayerEnterHallCmd) :
    r = .playerEnterHall := by
  cases r <;> first
    | rfl
    | simp [Request.cmd, btlswPlayerEnterHallCmd] at cmd

/-- Entering the hall does nothing beyond the new player. -/
theorem dispatchPlayer_enterHall (s : Switch) (a : Addr) (p : Player) (mem : Addr)
    (cacheFlag sent : Bool) (entering : pkg.body.cmd = btlswPlayerEnterHallCmd)
    (body : ∀ olid, pkg.body ≠ .onlineRegister olid) :
    playerAction s a p pkg cacheFlag mem = .nothing ∧
      ∃ result, s.dispatchPlayer a p pkg cacheFlag mem sent = some result := by
  rw [playerAction, Switch.dispatchPlayer]
  by_cases busy : cacheFlag ∧ p.waitcmd ≠ 0
  · rw [if_pos busy, if_pos busy]
    refine ⟨rfl, ?_⟩
    split
    · exact ⟨_, rfl⟩
    · exact ⟨_, rfl⟩
  · rw [if_neg busy, if_neg busy]
    cases kind : pkg.body with
    | onlineRegister olid => exact absurd kind (body olid)
    | request r =>
      rw [kind] at entering
      obtain rfl := request_of_enterHall entering
      exact ⟨rfl, _, rfl⟩
    | unreadable cmd bound => exact ⟨rfl, _, rfl⟩
    | unbound cmd unknown => exact ⟨rfl, _, rfl⟩

/-- The player that a packet to enter the hall makes. -/
def newPlayer (o : Addr) (pkg : Pkg) : Player where
  id := pkg.id
  roleTm := pkg.roleTm
  waitcmd := 0
  seq := 0
  status := .idle
  seat := none
  online := o
  cachePkgQueue := []

/-- The player who enters the hall is registered where its memory is. -/
theorem enterHall_players (s : Switch) (o mem : Addr) (pkg : Pkg) :
    (s.enterHall o mem pkg).players mem = some (newPlayer o pkg) := Function.update_self ..

/-- The result of a packet, or of one that would have read through a bad pointer. -/
theorem dispatchOnline_does (body : ∀ olid, pkg.body ≠ .onlineRegister olid) :
    Does s (onlineEffect s fd pkg cacheFlag mem)
      ((s.dispatchOnline fd pkg cacheFlag mem sent).elim s Prod.fst) := by
  rw [onlineEffect, Switch.dispatchOnline]
  cases s.onlineFdMap[fd]? with
  | none => exact does_of_quiet (.refl s)
  | some o =>
    dsimp only
    by_cases entering : pkg.body.cmd = btlswPlayerEnterHallCmd
    · rw [if_pos entering, if_pos entering, if_pos entering]
      dsimp only
      have here : ¬ (newPlayer o pkg).online ≠ o := not_not.mpr rfl
      rw [enterHall_players, Option.bind_eq_bind, Option.bind_some, if_neg here]
      obtain ⟨idle, ⟨after, ok⟩, done⟩ := dispatchPlayer_enterHall (s.enterHall o mem pkg) mem
        (newPlayer o pkg) mem cacheFlag sent entering body
      obtain ⟨before, first, second⟩ := dispatchPlayer_does done
      rw [idle] at second
      rw [done, Option.elim_some]
      exact ⟨s, .refl s, first.trans second⟩
    · rw [if_neg entering, if_neg entering, if_neg entering]
      cases s.getPlayer pkg.id pkg.roleTm with
      | none => exact does_of_quiet (.refl s)
      | some a =>
        dsimp only
        cases s.players a with
        | none => exact does_of_quiet (.refl s)
        | some p =>
          rw [Option.elim_some, Option.bind_eq_bind, Option.bind_some]
          by_cases apart : p.online ≠ o
          · rw [if_pos apart, if_pos apart]
            exact does_of_quiet (.refl s)
          · rw [if_neg apart, if_neg apart]
            cases done : s.dispatchPlayer a p pkg cacheFlag mem sent with
            | none =>
              rw [playerAction_of_none body done]
              exact does_of_quiet (.refl s)
            | some result => exact dispatchPlayer_does done

/-- A packet has the effect that is read off it, whatever the handler answers. -/
theorem dispatch_does (s : Switch) (fd : Nat) (pkg : Pkg) (cacheFlag : Bool) (mem : Addr)
    (sent : Bool) : Does s (pkgEffect s fd pkg cacheFlag mem)
    ((s.dispatch fd pkg cacheFlag mem sent).elim s Prod.fst) := by
  rw [pkgEffect, Switch.dispatch]
  cases kind : pkg.body with
  | onlineRegister olid =>
    refine ⟨s, .refl s, ?_⟩
    dsimp only [Option.elim_some]
    rw [Switch.apply]
    cases s.addOnline mem fd olid with
    | none => exact .refl s
    | some added => exact .refl added
  | request r =>
    have other : ∀ olid, pkg.body ≠ .onlineRegister olid := by simp [kind]
    exact dispatchOnline_does other
  | unreadable cmd bound =>
    have other : ∀ olid, pkg.body ≠ .onlineRegister olid := by simp [kind]
    exact dispatchOnline_does other
  | unbound cmd unknown =>
    have other : ∀ olid, pkg.body ≠ .onlineRegister olid := by simp [kind]
    exact dispatchOnline_does other

end

/-- A quiet step after an effect adds nothing to it. -/
theorem Does.quiet {effect : Effect} (does : Does s effect s') (quiet : Quiet s' t) :
    Does s effect t := by
  obtain ⟨before, first, second⟩ := does
  exact ⟨before, first, second.trans quiet⟩

/-- A connection marked for closing is quiet. -/
theorem Quiet.noteFailure (s : Switch) (fd : Nat) (ok : Bool) : Quiet s (s.noteFailure fd ok) := by
  rw [Switch.noteFailure]
  split
  · exact .refl s
  · exact ⟨fun _ => rfl, rfl, rfl, rfl, rfl, rfl, rfl⟩

/-- Taking a cached packet is quiet. -/
theorem Quiet.popCachedPkg (s : Switch) (key : UInt64) (a : Addr) :
    Quiet s (s.popCachedPkg key a) := by
  have popped := Quiet.modifyPlayer s a
    (fun p => { p with cachePkgQueue := p.cachePkgQueue.tail }) fun _ => rfl
  rw [Switch.popCachedPkg]
  split
  · exact ⟨popped.players, popped.rooms, popped.onlines, popped.playerMap, popped.onlineFdMap,
      popped.onlineOlidMap, popped.roomIdGenerator⟩
  · exact popped

/-- Every event does what its effect says, and changes what players wait for. -/
theorem step_does (s : Switch) (event : Event) : Does s (effectOf s event) (step s event) := by
  cases event with
  | packet fd pkg mem sent =>
    rw [effectOf, step, Switch.procPkgFromClient]
    have done := dispatch_does s fd pkg true mem sent
    cases result : s.dispatch fd pkg true mem sent with
    | none =>
      rw [result] at done
      exact done
    | some result' =>
      rw [result] at done
      exact done.quiet (.noteFailure ..)
  | cached key mem sent =>
    rw [effectOf, step, Switch.procCachedPkgOnce]
    cases s.cachedPkg key with
    | none => exact does_of_quiet (.refl s)
    | some turn =>
      obtain ⟨a, fd, pkg⟩ := turn
      have done := dispatch_does s fd pkg false mem sent
      dsimp only [Option.elim_some]
      cases result : s.dispatch fd pkg false mem sent with
      | none =>
        rw [result] at done
        exact done
      | some result' =>
        rw [result] at done
        exact (done.quiet (.popCachedPkg _ key a)).quiet (.noteFailure ..)
  | closedRooms => exact ⟨s, .refl s, .refl _⟩
  | connClosed fd =>
    rw [effectOf, step, Switch.onClientConnClosed]
    have cleared : Quiet s { s with failed := s.failed.filter (· ≠ fd) } :=
      ⟨fun _ => rfl, rfl, rfl, rfl, rfl, rfl, rfl⟩
    refine ⟨_, cleared, ?_⟩
    cases s.onlineFdMap[fd]? with
    | none => exact .refl _
    | some o => exact .refl _

/-! ## Memory in use -/

/-- The same memory is in use. -/
structure SameUse (s s' : Switch) : Prop where
  players : ∀ a, (s'.players a).isSome = (s.players a).isSome
  rooms : ∀ r, (s'.rooms r).isSome = (s.rooms r).isSome
  onlines : ∀ o, (s'.onlines o).isSome = (s.onlines o).isSome

namespace SameUse

theorem refl (s : Switch) : SameUse s s := ⟨fun _ => rfl, fun _ => rfl, fun _ => rfl⟩

theorem trans (first : SameUse s s') (second : SameUse s' t) : SameUse s t where
  players a := (second.players a).trans (first.players a)
  rooms r := (second.rooms r).trans (first.rooms r)
  onlines o := (second.onlines o).trans (first.onlines o)

/-- Changing a player allocates nothing. -/
theorem modifyPlayer (s : Switch) (a : Addr) (change : Player → Player) :
    SameUse s (s.modifyPlayer a change) :=
  ⟨fun _ => isSome_modify, fun _ => rfl, fun _ => rfl⟩

/-- Changing a room allocates nothing. -/
theorem modifyRoom (s : Switch) (r : Addr) (change : Room → Room) :
    SameUse s (s.modifyRoom r change) :=
  ⟨fun _ => rfl, fun _ => isSome_modify, fun _ => rfl⟩

/-- Changing a server allocates nothing. -/
theorem modifyOnline (s : Switch) (o : Addr) (change : Online → Online) :
    SameUse s (s.modifyOnline o change) :=
  ⟨fun _ => rfl, fun _ => rfl, fun _ => isSome_modify⟩

/-- A closed room stays allocated until the sweep. -/
theorem closeRoom (s : Switch) (r : Addr) : SameUse s (s.closeRoom r) := by
  rw [Switch.closeRoom]
  split
  · exact refl s
  · split
    · exact refl s
    · exact (modifyOnline s _ _).trans (modifyRoom _ r _)

/-- Leaving a seat frees no address. -/
theorem playerLeaveSeat (s : Switch) (a : Addr) : SameUse s (s.playerLeaveSeat a) := by
  rw [Switch.playerLeaveSeat]
  split
  · exact refl s
  case _ seat _ =>
    have left := (modifyRoom s seat.room (.setPlayer seat.no 0)).trans
      (modifyPlayer _ a fun p => { p with seat := none, status := .idle })
    dsimp only
    split
    · exact left
    · split
      · exact left.trans (closeRoom _ seat.room)
      · exact left.trans (modifyRoom _ seat.room _)

end SameUse

/-- A player leaves its seat when it is deleted, if it has one. -/
theorem Switch.delPlayer_of_some (found : s.players a = some p) : s.delPlayer a =
    { (s.unregPlayer p).playerLeaveSeat a with
      cachedPlayerMap := ((s.unregPlayer p).playerLeaveSeat a).cachedPlayerMap.erase p.key
      players := Function.update ((s.unregPlayer p).playerLeaveSeat a).players a none } := by
  have left : (if p.seat.isSome then (s.unregPlayer p).playerLeaveSeat a else s.unregPlayer p) =
      (s.unregPlayer p).playerLeaveSeat a := by
    split
    · rfl
    case isFalse unseated =>
      have none : ((s.unregPlayer p).players a).bind Player.seat = none := by
        show (s.players a).bind Player.seat = none
        rw [found, Option.bind_some]
        exact Option.not_isSome_iff_eq_none.mp unseated
      rw [playerLeaveSeat, none]
  rw [delPlayer, found]
  dsimp only
  rw [left]

/-- The memory of a player that is deleted may be allocated again. -/
theorem fresh_delPlayer : Fresh (s.delPlayer a) mem ↔
    mem ≠ 0 ∧ (mem = a ∨ (s.players mem).isNone) ∧ (s.rooms mem).isNone ∧
      (s.onlines mem).isNone := by
  cases found : s.players a with
  | none =>
    rw [Switch.delPlayer, found]
    refine and_congr_right fun _ => and_congr_left fun _ => ?_
    refine ⟨.inr, fun free => free.elim (fun same => ?_) id⟩
    rw [same, found]
    rfl
  | some p =>
    rw [Switch.delPlayer_of_some found]
    have unreg : SameUse s (s.unregPlayer p) := ⟨fun _ => rfl, fun _ => rfl, fun _ => isSome_modify⟩
    have left := unreg.trans (.playerLeaveSeat _ a)
    have free {α : Type} {x y : Option α} (same : x.isSome = y.isSome) :
        (x.isNone : Prop) ↔ y.isNone := by
      cases x <;> cases y <;> simp_all
    refine and_congr_right fun _ => and_congr ?_ (and_congr (free (left.rooms mem)) (free
      (left.onlines mem)))
    obtain rfl | apart := eq_or_ne mem a
    · simp
    · dsimp only
      rw [Function.update_of_ne apart, free (left.players mem)]
      simp [apart]

/-- What is fresh once the old player of a login is gone: its own address, too. -/
theorem fresh_delOldPlayer {pkg : Pkg} : Fresh (s.delOldPlayer pkg) mem ↔
    mem ≠ 0 ∧ (s.getPlayer pkg.id pkg.roleTm = some mem ∨ (s.players mem).isNone) ∧
      (s.rooms mem).isNone ∧ (s.onlines mem).isNone := by
  rw [Switch.delOldPlayer]
  cases s.getPlayer pkg.id pkg.roleTm with
  | none => simp [Fresh]
  | some old =>
    rw [Option.map_some, Option.getD_some, fresh_delPlayer, Option.some.injEq, eq_comm]

/-! ## What the checks ensure -/

/-- What holds where an effect comes about. -/
def Fits (s : Switch) : Effect → Prop
  | .act (.addRoom mem o owner _ _ _ _ _) =>
    Fresh s mem ∧ (∃ fd : Nat, s.onlineFdMap[fd]? = some o) ∧
    (∃ p, s.players owner = some p ∧ p.seat = none) ∧
    s.findRoom o (getNextRoomId s.roomIdGenerator) = none
  | .act (.leaveSeat a) => ∃ p seat, s.players a = some p ∧ p.seat = some seat
  | .act (.sitDown a there) =>
    (∃ p, s.players a = some p ∧ ∀ seat, p.seat = some seat → seat.room = there.room) ∧
      ∃ room, s.rooms there.room = some room ∧ there.no ∈ room.seatNos ∧
        room.occupied there.no = false
  | .act (.setOnoff r no _) => ∃ room, s.rooms r = some room ∧ room.occupied no = false
  | .act (.switchStatus r status) =>
    status ≠ .closed ∧ ∃ a p seat, s.players a = some p ∧ p.seat = some seat ∧ seat.room = r
  | .act (.delPlayer a) => ∃ p, s.players a = some p
  | .act _ => True
  | .enterHall o mem pkg => Fresh (s.delOldPlayer pkg) mem ∧ ∃ fd : Nat, s.onlineFdMap[fd]? = some o
  | .addOnline mem _ _ => Fresh s mem
  | .closedRooms => True
  | .delOnline o => ∃ fd : Nat, s.onlineFdMap[fd]? = some o

/-- The seats of a room are those of its teams. -/
theorem Room.mem_seatNos {room : Room} {no : SeatNo} (team : room.findTeam no.team)
    (seat : room.findSeat no) : no ∈ room.seatNos :=
  List.mem_flatMap.mpr ⟨no.team, List.contains_iff_mem.mp team, List.contains_iff_mem.mp seat⟩

/-- The seat selected for a player is one of the room's and empty. -/
theorem Room.selectSeat_fits {room : Room} {no : SeatNo} (selected : room.selectSeat = some no) :
    no ∈ room.seatNos ∧ room.occupied no = false := by
  have first : ∀ {team no}, room.findRoomFirstEmptySeat team = some no →
      no ∈ room.seatNos ∧ room.occupied no = false := by
    intro team no found
    have empty := List.find?_some found
    rw [Bool.and_eq_true, Bool.not_eq_true'] at empty
    exact ⟨List.mem_of_find?_eq_some found, empty.2⟩
  rw [Room.selectSeat] at selected
  split at selected
  · cases selected
  case _ blue _ => cases selected; exact first blue
  case _ red => cases selected; exact first red
  case _ blue red =>
    split at selected
    · cases selected; exact first blue
    · cases selected; exact first red

section

variable {action : Action} {reply : Reply}

/-- What a handler answers comes from the sender's room, or is nothing. -/
theorem inRoom_eq_some {handler : SeatPtr → Room → Option (Action × Reply)}
    (answer : inRoom s p handler = some (action, reply)) :
    action = .nothing ∨ ∃ seat room, p.seat = some seat ∧ s.rooms seat.room = some room ∧
      handler seat room = some (action, reply) := by
  rw [inRoom] at answer
  cases seated : p.seat with
  | none =>
    rw [seated] at answer
    cases answer
    exact .inl rfl
  | some seat =>
    rw [seated] at answer
    obtain ⟨room, found, answer⟩ := Option.bind_eq_some_iff.mp answer
    exact .inr ⟨seat, room, rfl, found, answer⟩

/-- A handler acts only where its checks let it. -/
theorem handle_fits {fd : Nat} {request : Request} (found : s.players a = some p)
    (online : s.onlineFdMap[fd]? = some p.online) (fresh : Fresh s mem)
    (answer : handle s a p mem request = some (action, reply)) : Fits s (.act action) := by
  cases request with
  | pvpRoomList mode count turn boundRoomid =>
    rw [handle, btlswPvpRoomList] at answer
    split_ifs at answer <;> cases answer <;> trivial
  | pvpCreateRoom roomName password mode mapid maplv =>
    rw [handle, btlswPvpCreateRoom] at answer
    split at answer
    · cases answer; trivial
    case _ unseated =>
      split at answer
      · cases answer; trivial
      · split at answer
        · cases answer; trivial
        · split at answer
          · cases answer; trivial
          case _ unused =>
            cases answer
            exact ⟨fresh, ⟨fd, online⟩, ⟨p, found, Option.not_isSome_iff_eq_none.mp unseated⟩,
              Option.not_isSome_iff_eq_none.mp unused⟩
  | pvpRoomSetAttr roomName password mapid maplv =>
    obtain rfl | ⟨seat, room, -, -, answer⟩ := inRoom_eq_some answer
    · trivial
    · split_ifs at answer <;> cases answer <;> trivial
  | setRoomSeatOnoff teamId seatId onoff =>
    rw [handle, btlswSetRoomSeatOnoff] at answer
    split at answer
    · cases answer; trivial
    · obtain rfl | ⟨seat, room, -, here, answer⟩ := inRoom_eq_some answer
      · trivial
      · split_ifs at answer with owner team seat occupied
        all_goals cases answer
        · trivial
        · trivial
        · trivial
        · trivial
        · exact ⟨room, here, Bool.not_eq_true _ ▸ occupied⟩
  | pvpJoinRoom roomId password =>
    rw [handle, btlswPvpJoinRoom] at answer
    split at answer
    · cases answer; trivial
    case _ unseated =>
      split at answer
      · cases answer; trivial
      case _ r _ =>
        obtain ⟨room, here, answer⟩ := Option.map_eq_some_iff.mp answer
        split at answer
        · cases answer; trivial
        · split at answer
          · cases answer; trivial
          case _ no selected =>
            cases answer
            refine ⟨⟨p, found, fun seat seated => ?_⟩, room, here, Room.selectSeat_fits selected⟩
            rw [seated] at unseated
            exact absurd rfl unseated
  | leaveRoom =>
    rw [handle, btlswLeaveRoom] at answer
    cases seated : p.seat with
    | none =>
      rw [seated] at answer
      cases answer
      trivial
    | some seat =>
      rw [seated] at answer
      cases answer
      exact ⟨p, seat, found, seated⟩
  | pvpRoomStart =>
    obtain rfl | ⟨seat, room, -, -, answer⟩ := inRoom_eq_some answer
    · trivial
    · cases answer; trivial
  | roomPlayerSetAttr which newTeamId newSeatId newStatus =>
    rw [handle, btlswRoomPlayerSetAttr] at answer
    split at answer
    · cases answer; trivial
    · obtain rfl | ⟨seat, room, seated, here, answer⟩ := inRoom_eq_some answer
      · trivial
      · split at answer
        · split_ifs at answer with team seat' occupied
          all_goals cases answer
          · trivial
          · trivial
          · trivial
          · refine ⟨⟨p, found, fun other same => ?_⟩, room, here, ?_, Bool.not_eq_true _ ▸ occupied⟩
            · rw [seated] at same
              cases same
              rfl
            · exact Room.mem_seatNos (Bool.not_eq_false _ ▸ team) (Bool.not_eq_false _ ▸ seat')
        · split at answer
          · cases answer; trivial
          · split_ifs at answer <;> cases answer <;> trivial
  | kickRoomPlayer kickeeUid kickeeRoleTm =>
    rw [handle, btlswKickRoomPlayer] at answer
    split at answer
    · cases answer; trivial
    · obtain rfl | ⟨seat, room, -, -, answer⟩ := inRoom_eq_some answer
      · trivial
      · split at answer
        · cases answer; trivial
        · split at answer
          · cases answer; trivial
          · split at answer
            · cases answer; trivial
            · obtain ⟨k, known, answer⟩ := Option.map_eq_some_iff.mp answer
              split at answer
              case isTrue there =>
                cases answer
                obtain ⟨seat, seated, -⟩ := (Option.any_eq_true ..).mp there
                exact ⟨k, seat, known, seated⟩
              case isFalse => cases answer; trivial
  | pvpRoomStartBattle btlId fdIdx =>
    obtain rfl | ⟨seat, room, seated, -, answer⟩ := inRoom_eq_some answer
    · trivial
    · split at answer
      · cases answer; trivial
      · split at answer
        · cases answer; trivial
        · cases answer
          exact ⟨by decide, a, p, seat, found, seated, rfl⟩
  | pvpEndBattle => cases answer; trivial
  | getRoomFullInfo =>
    obtain rfl | ⟨seat, room, -, -, answer⟩ := inRoom_eq_some answer
    · trivial
    · obtain ⟨owner, -, answer⟩ := Option.map_eq_some_iff.mp answer
      cases answer; trivial
  | chatMsgTransfer =>
    obtain rfl | ⟨seat, room, -, -, answer⟩ := inRoom_eq_some answer
    · trivial
    · cases answer; trivial
  | playerExitHall => cases answer; exact ⟨p, found⟩
  | playerEnterHall => cases answer; trivial
  | pvpQueryRoomInfo roomId =>
    rw [handle, btlswPvpQueryRoomInfo] at answer
    split at answer
    · cases answer; trivial
    · obtain ⟨room, -, answer⟩ := Option.map_eq_some_iff.mp answer
      cases answer; trivial
  | getRoomPlayerShowInfo uid roleTm =>
    rw [handle, btlswGetRoomPlayerShowInfo] at answer
    split at answer
    · cases answer; trivial
    · split at answer
      · cases answer; trivial
      · obtain ⟨other, -, answer⟩ := Option.map_eq_some_iff.mp answer
        cases answer; trivial

/-- Every action read off a packet fits the state. -/
theorem playerAction_fits {fd : Nat} {pkg : Pkg} (cacheFlag : Bool) (found : s.players a = some p)
    (online : s.onlineFdMap[fd]? = some p.online) (fresh : Fresh s mem) :
    Fits s (.act (playerAction s a p pkg cacheFlag mem)) := by
  rw [playerAction]
  split
  · trivial
  · split
    case _ request _ =>
      cases answer : handle s a p mem request with
      | none => trivial
      | some result => exact handle_fits found online fresh answer
    case _ => trivial

/-- The effect of every packet fits the state. -/
theorem pkgEffect_fits (s : Switch) (fd : Nat) (pkg : Pkg) (cacheFlag : Bool)
    (fresh : Fresh (s.allocating pkg) mem) : Fits s (pkgEffect s fd pkg cacheFlag mem) := by
  rw [Switch.allocating] at fresh
  have online : Fits s (onlineEffect s fd pkg cacheFlag mem) := by
    rw [onlineEffect]
    cases connected : s.onlineFdMap[fd]? with
    | none => trivial
    | some o =>
      dsimp only
      split
      case isTrue entering =>
        rw [if_pos entering] at fresh
        exact ⟨fresh, fd, connected⟩
      case isFalse other =>
        rw [if_neg other] at fresh
        split
        · trivial
        case _ a _ =>
          cases found : s.players a with
          | none => trivial
          | some p =>
            rw [Option.elim_some]
            split
            · trivial
            case _ same =>
              rw [← not_not.mp same] at connected
              exact playerAction_fits cacheFlag found connected fresh
  rw [pkgEffect]
  split
  case _ olid kind =>
    rw [kind] at fresh
    exact fresh
  case _ => exact online

/-- The effect of every event fits the state. -/
theorem effectOf_fits {event : Event} (allocates : Allocates s event) :
    Fits s (effectOf s event) := by
  cases event with
  | packet fd pkg mem sent => exact pkgEffect_fits s fd pkg true allocates
  | cached key mem sent =>
    rw [effectOf]
    cases due : s.cachedPkg key with
    | none => trivial
    | some turn => exact pkgEffect_fits s turn.2.1 turn.2.2 false (allocates turn due)
  | closedRooms => trivial
  | connClosed fd =>
    rw [effectOf]
    cases connected : s.onlineFdMap[fd]? with
    | none => trivial
    | some o => exact ⟨fd, connected⟩

end

/-! ## Invariants -/

/-- What each removal of a room keeps, the sweep keeps. -/
theorem Switch.sweep_keeps {holds : Switch → Prop}
    (keeps : ∀ {s : Switch} (r : Addr), holds s → holds (s.delRoom r)) (count : Nat)
    (rooms : List Addr) (s : Switch) (before : holds s) : holds (sweep count rooms s).2 := by
  induction rooms generalizing count s with
  | nil => exact before
  | cons r rest ih =>
    rw [sweep]
    split
    · exact keeps r before
    · exact ih (count + 1) (s.delRoom r) (keeps r before)

/-- What the deletion of any room keeps, the sweep keeps. -/
theorem Switch.procClosedRooms_keeps (s : Switch) {holds : Switch → Prop}
    (keeps : ∀ {s : Switch} (r : Addr), holds s → holds (s.delRoom r)) (before : holds s) :
    holds s.procClosedRooms := by
  rw [procClosedRooms]
  generalize s.onlineFdMap.toList.map Prod.snd = onlines
  suffices ∀ count, holds (onlines.foldl (fun acc o =>
      sweep acc.1 ((acc.2.onlines o).elim [] fun online =>
        (online.roomMap .closed).toList.map Prod.snd) acc.2) (count, s)).2 from this 0
  intro count
  induction onlines generalizing count s with
  | nil => exact before
  | cons o rest ih =>
    exact ih (sweep count _ s).2 (sweep_keeps keeps count _ s before) (sweep count _ s).1

/-- Quiet steps use up no address. -/
theorem Quiet.fresh (quiet : Quiet s s') (fresh : Fresh s mem) : Fresh s' mem := by
  obtain ⟨live, players, rooms, onlines⟩ := fresh
  refine ⟨live, ?_, ?_, ?_⟩
  · have same := quiet.players mem
    rw [Option.isNone_iff_eq_none.mp players, Option.map_none, Option.map_eq_none_iff] at same
    rw [same]
    rfl
  · rw [quiet.rooms]
    exact rooms
  · rw [quiet.onlines]
    exact onlines

/-- An address fresh for a login stays fresh. -/
theorem Quiet.fresh_delOldPlayer {pkg : Pkg} (quiet : Quiet s s')
    (fresh : Fresh (s.delOldPlayer pkg) mem) : Fresh (s'.delOldPlayer pkg) mem := by
  rw [BattleSwitch.fresh_delOldPlayer] at fresh ⊢
  rw [Switch.getPlayer, quiet.playerMap, quiet.rooms, quiet.onlines]
  refine ⟨fresh.1, fresh.2.1.imp_right fun free => ?_, fresh.2.2⟩
  have same := quiet.players mem
  rw [Option.isNone_iff_eq_none.mp free, Option.map_none, Option.map_eq_none_iff] at same
  rw [same]
  rfl

/-- Quiet steps take no player out. -/
theorem Quiet.exists_player (quiet : Quiet s s') (found : s.players a = some p) :
    ∃ q, s'.players a = some q ∧ q.place = p.place := by
  obtain ⟨q, here, same⟩ := quiet.symm.place_of_some found
  exact ⟨q, here, same.symm⟩

/-- Rooms are found as before. -/
theorem Quiet.findRoom_eq (quiet : Quiet s s') (o : Addr) (id : Nat) :
    s'.findRoom o id = s.findRoom o id := by
  rw [Switch.findRoom, Switch.findRoom, quiet.onlines]

/-- An effect that fits still fits after a quiet step. -/
theorem Fits.quiet {effect : Effect} (fits : Fits s effect) (quiet : Quiet s s') :
    Fits s' effect := by
  cases effect with
  | act action =>
    cases action with
    | addRoom mem o owner mode name pass mapid maplv =>
      obtain ⟨fresh, ⟨fd, connected⟩, ⟨p, found, unseated⟩, unused⟩ := fits
      obtain ⟨q, found, same⟩ := quiet.exists_player found
      have seat : q.seat = p.seat := congrArg (·.2.2.1) same
      refine ⟨quiet.fresh fresh, ⟨fd, by rw [quiet.onlineFdMap]; exact connected⟩,
        ⟨q, found, seat.trans unseated⟩, ?_⟩
      rw [quiet.roomIdGenerator, quiet.findRoom_eq]
      exact unused
    | leaveSeat a =>
      obtain ⟨p, there, found, seated⟩ := fits
      obtain ⟨q, found, same⟩ := quiet.exists_player found
      exact ⟨q, there, found, (congrArg (·.2.2.1) same).trans seated⟩
    | sitDown a there =>
      obtain ⟨⟨p, found, seated⟩, room, here, fits⟩ := fits
      obtain ⟨q, found, same⟩ := quiet.exists_player found
      have seat : q.seat = p.seat := congrArg (·.2.2.1) same
      exact ⟨⟨q, found, fun other at' => seated other (seat.symm.trans at')⟩, room,
        by rw [quiet.rooms]; exact here, fits⟩
    | setOnoff r no onoff =>
      obtain ⟨room, here, empty⟩ := fits
      exact ⟨room, by rw [quiet.rooms]; exact here, empty⟩
    | delPlayer a =>
      obtain ⟨p, found⟩ := fits
      obtain ⟨q, found, -⟩ := quiet.exists_player found
      exact ⟨q, found⟩
    | nothing => trivial
    | skipRoomId => trivial
    | setStatus a status => trivial
    | updateAttr room name pass mapid maplv => trivial
    | switchStatus r status =>
      obtain ⟨opened, a, p, seat, found, seated, there⟩ := fits
      obtain ⟨q, found, same⟩ := quiet.exists_player found
      exact ⟨opened, a, q, seat, found, (congrArg (·.2.2.1) same).trans seated, there⟩
  | enterHall o mem pkg =>
    obtain ⟨fresh, fd, connected⟩ := fits
    exact ⟨quiet.fresh_delOldPlayer fresh, fd, by rw [quiet.onlineFdMap]; exact connected⟩
  | addOnline mem fd olid => exact quiet.fresh fits
  | closedRooms => trivial
  | delOnline o =>
    obtain ⟨fd, connected⟩ := fits
    exact ⟨fd, by rw [quiet.onlineFdMap]; exact connected⟩

/-- What survives quiet changes, and the effect of an event where it fits, survives the event. -/
theorem step_invariant {inv : Switch → Prop} {event : Event}
    (quiet : ∀ {s s'}, Quiet s s' → inv s → inv s')
    (apply : ∀ {before}, Quiet s before → inv before → Fits before (effectOf s event) →
      inv (before.apply (effectOf s event)))
    (holds : inv s) (allocates : Allocates s event) : inv (step s event) := by
  obtain ⟨before, first, second⟩ := step_does s event
  have fits := (effectOf_fits allocates).quiet first
  exact quiet second (apply first (quiet first holds) fits)

end Taomee.BattleSwitch
