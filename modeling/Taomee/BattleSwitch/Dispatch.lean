import Taomee.BattleSwitch.Model

/-!
# The battle switch: packets

A handler checks the request, does one thing to the state and replies. `none` is where it would read
through `NULL` or a freed pointer.
-/

namespace Taomee.BattleSwitch

open Records

/-- `enum_pea_btlsw_error`, as far as the handlers use it. -/
inductive Err where
  | noerror
  | noRoomFound
  | roomFull
  | password
  | systemFault
  | invRoomListTurn
  | invRoomListCount
  | alreadyInroom
  | invRoomMode
  | invPvpMapid
  | notInroom
  | notRoomOwner
  | noplayerInroom
  | cantKickSelf
  | alreadyInBattle
  | invSeatOnoff
  | invTeamId
  | invSeatId
  | seatDontEmpty
  | invPlayerSetWhich
  | invPlayerStatus
  | someoneUnready
  | someteamUnready
deriving DecidableEq

/-- How a handler answers: with a header, with a body, by notifying the room, by logging the player
off, or not at all. -/
inductive Reply where
  | header (err : Err)
  | out
  | notify
  | exit
  | nothing

/-- What a handler does to the state. -/
inductive Action where
  | nothing
  /-- A room that cannot be allocated still uses up its id. -/
  | skipRoomId
  | addRoom (mem online owner : Addr) (mode : RoomMode) (name pass : String) (mapid maplv : Nat)
  | leaveSeat (a : Addr)
  | sitDown (a : Addr) (there : SeatPtr)
  | setOnoff (room : Addr) (no : SeatNo) (onoff : Bool)
  | setStatus (a : Addr) (status : PlayerStatus)
  | updateAttr (room : Addr) (name pass : String) (mapid maplv : Nat)
  | switchStatus (room : Addr) (status : RoomStatus)
  | delPlayer (a : Addr)

namespace Switch

def perform (s : Switch) : Action → Switch
  | .nothing => s
  | .skipRoomId => { s with roomIdGenerator := getNextRoomId s.roomIdGenerator }
  | .addRoom mem online owner mode name pass mapid maplv =>
    s.addRoom mem online owner .pvp mode name pass mapid maplv
  | .leaveSeat a => s.playerLeaveSeat a
  | .sitDown a there => s.playerSitDown a there
  | .setOnoff room no onoff => s.modifyRoom room (.setOnoff no onoff)
  | .setStatus a status => s.modifyPlayer a fun p => { p with status }
  | .updateAttr room name pass mapid maplv =>
    s.modifyRoom room fun room => { room with name, pass, mapid, maplv }
  | .switchStatus room status => s.pvpRoomSwitchStatus room status
  | .delPlayer a => s.delPlayer a

end Switch

/-! ## Handlers -/

section

variable (s : Switch) (a : Addr) (p : Player)

/-- The room of a player, for the handlers that need one. -/
def inRoom (handle : SeatPtr → Room → Option (Action × Reply)) : Option (Action × Reply) :=
  match p.seat with
  | none => some (.nothing, .header .notInroom)
  | some seat => (s.rooms seat.room).bind (handle seat)

def RoomMode.ofNat? : Nat → Option RoomMode
  | 0 => some .free
  | 1 => some .compete
  | _ => none

def PlayerStatus.ofNat? : Nat → Option PlayerStatus
  | 0 => some .idle
  | 1 => some .ready
  | _ => none

def Room.findTeam (room : Room) (team : Nat) : Bool := room.teams.contains team

def Room.findSeat (room : Room) (no : SeatNo) : Bool := (room.teamSeats no.team).contains no

def isValidPvpMapid (_mapid : Nat) : Bool := true

def btlswChatMsgTransfer : Option (Action × Reply) :=
  inRoom s p fun _ _ => some (.nothing, .notify)

def btlswPlayerEnterHall : Option (Action × Reply) := some (.nothing, .header .noerror)

def btlswPlayerExitHall : Option (Action × Reply) := some (.delPlayer a, .exit)

/-- What the list holds is left out; 255 stands for any mode. -/
def btlswPvpRoomList (mode count turn : Nat) : Option (Action × Reply) :=
  if mode ≠ 255 ∧ (RoomMode.ofNat? mode).isNone then some (.nothing, .header .invRoomMode)
  else if turn ≠ 0 ∧ turn ≠ 1 then some (.nothing, .header .invRoomListTurn)
  else if count = 0 ∨ count > 32 then some (.nothing, .header .invRoomListCount)
  else some (.nothing, .out)

/-- A new room needs an id that no room of the online server has. -/
def btlswPvpCreateRoom (mem : Addr) (roomName password : String) (mode mapid maplv : Nat) :
    Option (Action × Reply) :=
  if p.seat.isSome then some (.nothing, .header .alreadyInroom)
  else
    match RoomMode.ofNat? mode with
    | none => some (.nothing, .header .invRoomMode)
    | some mode =>
      if isValidPvpMapid mapid = false then some (.nothing, .header .invPvpMapid)
      else if (s.findRoom p.online (getNextRoomId s.roomIdGenerator)).isSome then
        some (.skipRoomId, .header .systemFault)
      else some (.addRoom mem p.online a mode roomName password mapid maplv, .out)

def btlswLeaveRoom : Option (Action × Reply) :=
  if p.seat.isNone then some (.nothing, .header .notInroom)
  else some (.leaveSeat a, .header .noerror)

def btlswPvpQueryRoomInfo (roomId : Nat) : Option (Action × Reply) :=
  match s.findRoom p.online roomId with
  | none => some (.nothing, .header .noRoomFound)
  | some room => (s.rooms room).map fun _ => (.nothing, .out)

def btlswKickRoomPlayer (kickeeUid : UInt32) (kickeeRoleTm : Int32) : Option (Action × Reply) :=
  if kickeeUid = p.id then some (.nothing, .header .cantKickSelf)
  else
    inRoom s p fun seat room =>
      if room.status = .fighting then some (.nothing, .header .alreadyInBattle)
      else if room.owner ≠ a then some (.nothing, .header .notRoomOwner)
      else
        match s.getPlayer kickeeUid kickeeRoleTm with
        | none => some (.nothing, .header .noplayerInroom)
        | some kickee =>
          (s.players kickee).map fun k =>
            if k.seat.any fun there => there.room = seat.room then
              (.leaveSeat kickee, .header .noerror)
            else (.nothing, .header .noplayerInroom)

def btlswSetRoomSeatOnoff (teamId seatId onoff : Nat) : Option (Action × Reply) :=
  if onoff ≠ 0 ∧ onoff ≠ 1 then some (.nothing, .header .invSeatOnoff)
  else
    inRoom s p fun seat room =>
      if room.owner ≠ a then some (.nothing, .header .notRoomOwner)
      else if room.findTeam teamId = false then some (.nothing, .header .invTeamId)
      else if room.findSeat ⟨teamId, seatId⟩ = false then some (.nothing, .header .invSeatId)
      else if room.occupied ⟨teamId, seatId⟩ then some (.nothing, .header .seatDontEmpty)
      else some (.setOnoff seat.room ⟨teamId, seatId⟩ (onoff = 1), .header .noerror)

/-- The lock of a seat is not looked at. -/
def btlswRoomPlayerSetAttr (which newTeamId newSeatId newStatus : Nat) :
    Option (Action × Reply) :=
  if which ≠ 0 ∧ which ≠ 1 then some (.nothing, .header .invPlayerSetWhich)
  else
    inRoom s p fun seat room =>
      if which = 0 then
        if room.findTeam newTeamId = false then some (.nothing, .header .invTeamId)
        else if room.findSeat ⟨newTeamId, newSeatId⟩ = false then
          some (.nothing, .header .invSeatId)
        else if room.occupied ⟨newTeamId, newSeatId⟩ then some (.nothing, .header .seatDontEmpty)
        else some (.sitDown a ⟨seat.room, ⟨newTeamId, newSeatId⟩⟩, .header .noerror)
      else
        match PlayerStatus.ofNat? newStatus with
        | none => some (.nothing, .header .invPlayerStatus)
        | some status =>
          if p.status = status then some (.nothing, .header .noerror)
          else some (.setStatus a status, .header .noerror)

def btlswGetRoomPlayerShowInfo (uid : UInt32) (roleTm : Int32) : Option (Action × Reply) :=
  if uid = p.id ∧ roleTm = p.roleTm then some (.nothing, .out)
  else
    match s.getPlayer uid roleTm with
    | none => some (.nothing, .header .noplayerInroom)
    | some other => (s.players other).map fun _ => (.nothing, .out)

/-- The team with fewer players is preferred, blue if they are even. -/
def Room.selectSeat (room : Room) : Option SeatNo :=
  match room.findRoomFirstEmptySeat teamNoBlue, room.findRoomFirstEmptySeat teamNoRed with
  | none, none => none
  | some blue, none => some blue
  | none, some red => some red
  | some blue, some red =>
    if room.countRoomPlayers (some teamNoBlue) ≤ room.countRoomPlayers (some teamNoRed) then
      some blue
    else some red

/-- Neither the status of the room nor the lock of the seat is looked at. -/
def btlswPvpJoinRoom (roomId : Nat) (password : String) : Option (Action × Reply) :=
  if p.seat.isSome then some (.nothing, .header .alreadyInroom)
  else
    match s.findRoom p.online roomId with
    | none => some (.nothing, .header .noRoomFound)
    | some r =>
      (s.rooms r).map fun room =>
        if room.pass ≠ "" ∧ password ≠ room.pass then (.nothing, .header .password)
        else
          match room.selectSeat with
          | none => (.nothing, .header .roomFull)
          | some no => (.sitDown a ⟨r, no⟩, .out)

def btlswGetRoomFullInfo : Option (Action × Reply) :=
  inRoom s p fun _ room => (s.players room.owner).map fun _ => (.nothing, .out)

def btlswPvpRoomSetAttr (roomName password : String) (mapid maplv : Nat) :
    Option (Action × Reply) :=
  inRoom s p fun seat room =>
    if room.owner ≠ a then some (.nothing, .header .notRoomOwner)
    else some (.updateAttr seat.room roomName password mapid maplv, .header .noerror)

def btlswPvpRoomStart : Option (Action × Reply) := inRoom s p fun _ _ => some (.nothing, .out)

/-- The first team without players, or with another player that is not ready. -/
def unreadyErr (room : Room) : Option Err :=
  room.teams.findSome? fun team =>
    if room.countRoomPlayers (some team) = 0 then some .someteamUnready
    else if (room.teamSeats team).any fun no =>
        room.occupied no && (room.seats no).player ≠ a &&
          (s.players (room.seats no).player).any fun other => other.status ≠ .ready then
      some .someoneUnready
    else none

def btlswPvpRoomStartBattle : Option (Action × Reply) :=
  inRoom s p fun seat room =>
    if room.owner ≠ a then some (.nothing, .header .notRoomOwner)
    else
      match unreadyErr s a room with
      | some err => some (.nothing, .header err)
      | none => some (.switchStatus seat.room .fighting, .notify)

def btlswPvpEndBattle : Option (Action × Reply) := some (.nothing, .nothing)

/-- The function bound to the command of a request. -/
def handle (mem : Addr) : Request → Option (Action × Reply)
  | .pvpRoomList mode count turn _ => btlswPvpRoomList mode count turn
  | .pvpCreateRoom roomName password mode mapid maplv =>
    btlswPvpCreateRoom s a p mem roomName password mode mapid maplv
  | .pvpRoomSetAttr roomName password mapid maplv =>
    btlswPvpRoomSetAttr s a p roomName password mapid maplv
  | .setRoomSeatOnoff teamId seatId onoff => btlswSetRoomSeatOnoff s a p teamId seatId onoff
  | .pvpJoinRoom roomId password => btlswPvpJoinRoom s a p roomId password
  | .leaveRoom => btlswLeaveRoom a p
  | .pvpRoomStart => btlswPvpRoomStart s p
  | .roomPlayerSetAttr which newTeamId newSeatId newStatus =>
    btlswRoomPlayerSetAttr s a p which newTeamId newSeatId newStatus
  | .kickRoomPlayer kickeeUid kickeeRoleTm => btlswKickRoomPlayer s a p kickeeUid kickeeRoleTm
  | .pvpRoomStartBattle _ _ => btlswPvpRoomStartBattle s a p
  | .pvpEndBattle => btlswPvpEndBattle
  | .getRoomFullInfo => btlswGetRoomFullInfo s p
  | .chatMsgTransfer => btlswChatMsgTransfer s p
  | .playerExitHall => btlswPlayerExitHall a
  | .playerEnterHall => btlswPlayerEnterHall
  | .pvpQueryRoomInfo roomId => btlswPvpQueryRoomInfo s p roomId
  | .getRoomPlayerShowInfo uid roleTm => btlswGetRoomPlayerShowInfo s p uid roleTm

end

/-! ## Dispatch -/

def maxCachePkg : Nat := 50

namespace Switch

variable (s : Switch)

/-- The end of a handler: a reply to the player clears its `waitcmd` if it can be sent, one to the
room does so in any case. The result is whether the handler returns 0. -/
def complete (a : Addr) (sent : Bool) : Reply → Switch × Bool
  | .header _ =>
    if sent then (s.modifyPlayer a fun p => { p with waitcmd := 0 }, true) else (s, false)
  | .out => if sent then (s.modifyPlayer a fun p => { p with waitcmd := 0 }, true) else (s, false)
  | .notify => (s.modifyPlayer a fun p => { p with waitcmd := 0 }, true)
  | .exit => (s, true)
  | .nothing => (s, true)

/-- The body of a packet that is not cached. -/
def execute (a : Addr) (p : Player) (mem : Addr) (sent : Bool) : Body → Option (Switch × Bool)
  | .request request => do
    let (action, reply) ← handle s a p mem request
    some ((s.perform action).complete a sent reply)
  | .unreadable .. => some (s, false)
  | .unbound .. => some (s, true)
  | .onlineRegister _ => none

/-- A player that enters the hall again is deleted first. -/
def delOldPlayer (pkg : Pkg) : Switch := ((s.getPlayer pkg.id pkg.roleTm).map s.delPlayer).getD s

/-- What entering the hall does to the players before the packet is looked at. -/
def enterHall (o : Addr) (mem : Addr) (pkg : Pkg) : Switch :=
  (s.delOldPlayer pkg).addPlayer mem o pkg.id pkg.roleTm

/-- The state in which memory is allocated for a packet. -/
def allocating (pkg : Pkg) : Switch :=
  if pkg.body.cmd = btlswPlayerEnterHallCmd then s.delOldPlayer pkg else s

def cacheAPkg (a : Addr) (p : Player) (pkg : Pkg) : Switch :=
  { s.modifyPlayer a fun p => { p with cachePkgQueue := p.cachePkgQueue ++ [pkg] } with
    cachedPlayerMap := s.cachedPlayerMap.insertIfNew p.key a }

/-- The packet of a registered player goes into the history. -/
def log (pkg : Pkg) (cacheFlag : Bool) : Switch :=
  if cacheFlag then { s with taken := s.taken ++ [pkg] } else s

/-- The player now waits for the command of the packet. -/
def await (a : Addr) (pkg : Pkg) : Switch :=
  { s.modifyPlayer a fun p => { p with waitcmd := pkg.body.cmd, seq := pkg.seq } with
    processed := s.processed ++ [pkg] }

/-- A packet of a registered player of the server. -/
def dispatchPlayer (a : Addr) (p : Player) (pkg : Pkg) (cacheFlag : Bool) (mem : Addr)
    (sent : Bool) : Option (Switch × Bool) :=
  let s := s.log pkg cacheFlag
  if cacheFlag ∧ p.waitcmd ≠ 0 then
    if p.cachePkgQueue.length < maxCachePkg then some (s.cacheAPkg a p pkg, true)
    else some (s, true)
  else (s.await a pkg).execute a p mem sent pkg.body

/-- A packet other than a registration. -/
def dispatchOnline (fd : Nat) (pkg : Pkg) (cacheFlag : Bool) (mem : Addr) (sent : Bool) :
    Option (Switch × Bool) :=
  match s.onlineFdMap[fd]? with
  | none => some (s, false)
  | some o =>
    let entering := pkg.body.cmd = btlswPlayerEnterHallCmd
    let s := if entering then s.enterHall o mem pkg else s
    match if entering then some mem else s.getPlayer pkg.id pkg.roleTm with
    | none => some (s, false)
    | some a => do
      let p ← s.players a
      if p.online ≠ o then some (s, false) else s.dispatchPlayer a p pkg cacheFlag mem sent

/-- `dispatch`; the address is the one that an allocation returns, and `sent` is whether the reply
can be sent. -/
def dispatch (fd : Nat) (pkg : Pkg) (cacheFlag : Bool) (mem : Addr) (sent : Bool) :
    Option (Switch × Bool) :=
  match pkg.body with
  | .onlineRegister olid => some ((s.addOnline mem fd olid).elim (s, false) fun s => (s, true))
  | _ => s.dispatchOnline fd pkg cacheFlag mem sent

/-! ## Events -/

/-- The framework is to close a connection for which `dispatch` fails. -/
def noteFailure (fd : Nat) (ok : Bool) : Switch :=
  if ok then s else { s with failed := fd :: s.failed }

def procPkgFromClient (fd : Nat) (pkg : Pkg) (mem : Addr) (sent : Bool) : Switch :=
  match s.dispatch fd pkg true mem sent with
  | none => s
  | some (s, ok) => s.noteFailure fd ok

/-- The player, the descriptor and the packet that a turn of `proc_cached_pkg` takes up. -/
def cachedPkg (key : UInt64) : Option (Addr × Nat × Pkg) := do
  let a ← s.cachedPlayerMap[key]?
  let p ← s.players a
  let online ← s.onlines p.online
  let pkg ← if p.waitcmd = 0 then p.cachePkgQueue.head? else none
  some (a, online.fd, pkg)

/-- What follows a cached packet: it leaves the queue, and an empty queue leaves the map. -/
def popCachedPkg (key : UInt64) (a : Addr) : Switch :=
  let s := s.modifyPlayer a fun p => { p with cachePkgQueue := p.cachePkgQueue.tail }
  if (s.players a).all fun p => p.cachePkgQueue.isEmpty then
    { s with cachedPlayerMap := s.cachedPlayerMap.erase key }
  else s

/-- One turn of the inner loop of `proc_cached_pkg`. -/
def procCachedPkgOnce (key : UInt64) (mem : Addr) (sent : Bool) : Switch :=
  match s.cachedPkg key with
  | none => s
  | some (a, fd, pkg) =>
    match s.dispatch fd pkg false mem sent with
    | none => s
    | some (s, ok) => (s.popCachedPkg key a).noteFailure fd ok

def maxBatchProcClosedRoom : Nat := 400

/-- The rooms of one map; the loop ends early when enough rooms are deleted. -/
def sweep : Nat → List Addr → Switch → Nat × Switch
  | count, [], s => (count, s)
  | count, r :: rest, s =>
    if count + 1 ≥ maxBatchProcClosedRoom then (count + 1, s.delRoom r)
    else sweep (count + 1) rest (s.delRoom r)

def procClosedRooms : Switch :=
  ((s.onlineFdMap.toList.map Prod.snd).foldl (fun (count, s) o =>
    sweep count ((s.onlines o).elim [] fun online =>
      (online.roomMap .closed).toList.map Prod.snd) s) (0, s)).2

def onClientConnClosed (fd : Nat) : Switch :=
  let s := { s with failed := s.failed.filter (· ≠ fd) }
  (s.onlineFdMap[fd]?.map s.delOnline).getD s

end Switch

/-- What can happen: a packet from an online server, a turn of `proc_cached_pkg`, the sweep of
closed rooms, and the end of a connection. -/
inductive Event where
  | packet (fd : Nat) (pkg : Pkg) (mem : Addr) (sent : Bool)
  | cached (key : UInt64) (mem : Addr) (sent : Bool)
  | closedRooms
  | connClosed (fd : Nat)

def step (s : Switch) : Event → Switch
  | .packet fd pkg mem sent => s.procPkgFromClient fd pkg mem sent
  | .cached key mem sent => s.procCachedPkgOnce key mem sent
  | .closedRooms => s.procClosedRooms
  | .connClosed fd => s.onClientConnClosed fd

/-- Memory that is allocated is not in use. -/
def Fresh (s : Switch) (mem : Addr) : Prop :=
  mem ≠ 0 ∧ (s.players mem).isNone ∧ (s.rooms mem).isNone ∧ (s.onlines mem).isNone

def Allocates (s : Switch) : Event → Prop
  | .packet _ pkg mem _ => Fresh (s.allocating pkg) mem
  | .cached key mem _ => ∀ turn ∈ s.cachedPkg key, Fresh (s.allocating turn.2.2) mem
  | .closedRooms => True
  | .connClosed _ => True

instance (s : Switch) (mem : Addr) : Decidable (Fresh s mem) :=
  inferInstanceAs (Decidable (_ ∧ _ ∧ _ ∧ _))

instance Allocates.decidable (s : Switch) : ∀ event, Decidable (Allocates s event)
  | .packet _ pkg mem _ => inferInstanceAs (Decidable (Fresh (s.allocating pkg) mem))
  | .cached key mem _ =>
    inferInstanceAs (Decidable (∀ turn ∈ s.cachedPkg key, Fresh (s.allocating turn.2.2) mem))
  | .closedRooms => inferInstanceAs (Decidable True)
  | .connClosed _ => inferInstanceAs (Decidable True)

/-! ## Packets of a run -/

/-- An online server registers on a descriptor, under the same number. -/
def registration (fd : Nat) (mem : Addr) : Event :=
  .packet fd ⟨0, 0, 0, .onlineRegister fd⟩ mem true

/-- A player makes a request. -/
def asks (fd : Nat) (uid : UInt32) (roleTm : Int32) (request : Request) (mem : Addr) : Event :=
  .packet fd ⟨0, uid, roleTm, .request request⟩ mem true

end Taomee.BattleSwitch
