import Mathlib.Algebra.Order.Ring.Int
import Taomee.Library.Records

/-!
# The battle switch: rooms, seats and players

Online servers connect to the switch, their players meet in rooms with two teams of seats. Reading
through `NULL` or a freed pointer is undefined; where a function here meets one it does nothing.
Allocation does not fail.
-/

namespace Taomee.BattleSwitch

open Records

inductive RoomType where
  | pvp
  | pve
deriving DecidableEq

inductive RoomMode where
  | free
  | compete
deriving DecidableEq

inductive RoomStatus where
  | idle
  | asking
  | fighting
  | closed
deriving DecidableEq

inductive PlayerStatus where
  | idle
  | ready
  | fighting
deriving DecidableEq

/-- The maps of rooms of an online server. -/
inductive RoomMapNo where
  | idle
  | asking
  | fighting
  | pveIdle
  | pveAsking
  | pveFighting
  | closed
deriving DecidableEq

def getRoomMap : RoomType → RoomStatus → RoomMapNo
  | .pvp, .idle => .idle
  | .pvp, .asking => .asking
  | .pvp, .fighting => .fighting
  | .pvp, .closed => .closed
  | .pve, .idle => .pveIdle
  | .pve, .asking => .pveAsking
  | .pve, .fighting => .pveFighting
  | .pve, .closed => .closed

/-- A seat by the number of its team and its own. -/
structure SeatNo where
  team : Nat
  seat : Nat
deriving DecidableEq

/-- `seat_t`; the player is `NULL` on an empty seat. -/
structure Seat where
  locked : Bool
  player : Addr

/-- A pointer to a seat, through which its team and its room are reached. -/
structure SeatPtr where
  room : Addr
  no : SeatNo
deriving DecidableEq

def teamNoBlue : Nat := 0

def teamNoRed : Nat := 1

def teamMaxSeat : RoomType → Nat
  | .pvp => 4
  | .pve => 4

/-- `room_t`, with its teams and their seats. -/
structure Room where
  id : Nat
  name : String
  pass : String
  type : RoomType
  mode : RoomMode
  status : RoomStatus
  owner : Addr
  online : Addr
  maplv : Nat
  mapid : Nat
  seats : SeatNo → Seat

namespace Room

variable (room : Room)

def isTwoSideRoomMode : RoomMode → Bool
  | .free => true
  | .compete => false

/-- The keys of `team_map`. -/
def teams : List Nat :=
  if isTwoSideRoomMode room.mode then [teamNoBlue, teamNoRed] else [teamNoBlue]

def teamSeats (team : Nat) : List SeatNo := (List.range (teamMaxSeat room.type)).map (⟨team, ·⟩)

/-- The seats of all teams, in order. -/
def seatNos : List SeatNo := room.teams.flatMap room.teamSeats

def occupied (no : SeatNo) : Bool := (room.seats no).player ≠ 0

/-- `count_room_players`, without a player to skip; every team if none is given. -/
def countRoomPlayers (team : Option Nat) : Nat :=
  (room.seatNos.filter fun no => team.all (no.team = ·) && room.occupied no).length

/-- `find_room_first_empty_seat` in one team. -/
def findRoomFirstEmptySeat (team : Nat) : Option SeatNo :=
  room.seatNos.find? fun no => no.team = team && !room.occupied no

/-- `gen_new_room_owner`: the inner loop stops at a player, the outer one goes on. -/
def genNewRoomOwner : Addr :=
  room.teams.foldl (fun owner team =>
    ((room.teamSeats team).find? room.occupied).elim owner fun no => (room.seats no).player) 0

def setPlayer (no : SeatNo) (player : Addr) (room : Room) : Room :=
  { room with seats := Function.update room.seats no { room.seats no with player } }

def setOnoff (no : SeatNo) (locked : Bool) (room : Room) : Room :=
  { room with seats := Function.update room.seats no { room.seats no with locked } }

end Room

/-! ## Requests -/

/-- A packet for a bound command, as `read_from_buf_ex` leaves it. -/
inductive Request where
  | pvpRoomList (mode count turn boundRoomid : Nat)
  | pvpCreateRoom (roomName password : String) (mode mapid maplv : Nat)
  | pvpRoomSetAttr (roomName password : String) (mapid maplv : Nat)
  | setRoomSeatOnoff (teamId seatId onoff : Nat)
  | pvpJoinRoom (roomId : Nat) (password : String)
  | leaveRoom
  | pvpRoomStart
  | roomPlayerSetAttr (which newTeamId newSeatId newStatus : Nat)
  | kickRoomPlayer (kickeeUid : UInt32) (kickeeRoleTm : Int32)
  | pvpRoomStartBattle (btlId fdIdx : Nat)
  | pvpEndBattle
  | getRoomFullInfo
  | chatMsgTransfer
  | playerExitHall
  | playerEnterHall
  | pvpQueryRoomInfo (roomId : Nat)
  | getRoomPlayerShowInfo (uid : UInt32) (roleTm : Int32)

/-- The numbers of the bound commands. -/
def Request.cmd : Request → Nat
  | .pvpRoomList .. => 11002
  | .pvpCreateRoom .. => 11003
  | .pvpRoomSetAttr .. => 11005
  | .setRoomSeatOnoff .. => 11006
  | .pvpJoinRoom .. => 11007
  | .leaveRoom => 11008
  | .pvpRoomStart => 11009
  | .roomPlayerSetAttr .. => 11011
  | .kickRoomPlayer .. => 11013
  | .pvpRoomStartBattle .. => 11015
  | .pvpEndBattle => 11016
  | .getRoomFullInfo => 11017
  | .chatMsgTransfer => 11019
  | .playerExitHall => 11020
  | .playerEnterHall => 11021
  | .pvpQueryRoomInfo _ => 11023
  | .getRoomPlayerShowInfo .. => 11027

def btlswOnlineRegisterCmd : Nat := 11001

def btlswPlayerEnterHallCmd : Nat := 11021

/-- `g_btlsw_cmd_list`. -/
def btlswCmdList : List Nat :=
  [11002, 11003, 11005, 11006, 11007, 11008, 11009, 11011, 11013, 11015, 11016, 11017, 11019, 11020,
    11021, 11023, 11027]

/-- What a packet asks for: the registration of an online server, a request that can be read, a
bound command with a body that cannot, or a command that is not bound. -/
inductive Body where
  | onlineRegister (olid : Nat)
  | request (request : Request)
  | unreadable (cmd : Nat) (bound : cmd ∈ btlswCmdList)
  | unbound (cmd : Nat) (unknown : cmd ∉ btlswOnlineRegisterCmd :: btlswCmdList)

def Body.cmd : Body → Nat
  | .onlineRegister _ => btlswOnlineRegisterCmd
  | .request r => r.cmd
  | .unreadable cmd _ => cmd
  | .unbound cmd _ => cmd

/-- `btlsw_proto_t`. -/
structure Pkg where
  seq : Nat
  id : UInt32
  roleTm : Int32
  body : Body

/-! ## State -/

/-- `player_t`. -/
structure Player where
  id : UInt32
  roleTm : Int32
  waitcmd : Nat
  seq : Nat
  status : PlayerStatus
  seat : Option SeatPtr
  online : Addr
  cachePkgQueue : List Pkg

/-- `online_t`, with the descriptor of its session. -/
structure Online where
  fd : Nat
  id : Nat
  roomMap : RoomMapNo → PtrMap Nat
  playerMap : PtrMap UInt64

namespace Online

def insertRoom (no : RoomMapNo) (id : Nat) (room : Addr) (online : Online) : Online :=
  { online with
    roomMap := Function.update online.roomMap no ((online.roomMap no).insertIfNew id room) }

def eraseRoom (no : RoomMapNo) (id : Nat) (online : Online) : Online :=
  { online with roomMap := Function.update online.roomMap no ((online.roomMap no).erase id) }

def insertPlayer (key : UInt64) (player : Addr) (online : Online) : Online :=
  { online with playerMap := online.playerMap.insertIfNew key player }

def erasePlayer (key : UInt64) (online : Online) : Online :=
  { online with playerMap := online.playerMap.erase key }

end Online

/-- The memory and the global maps. The last three fields are history: the packets taken for a
registered player, those processed, and the descriptors for which `dispatch` has failed. -/
structure Switch where
  players : Heap Player
  rooms : Heap Room
  onlines : Heap Online
  playerMap : PtrMap UInt64
  cachedPlayerMap : PtrMap UInt64
  onlineFdMap : PtrMap Nat
  onlineOlidMap : PtrMap Nat
  roomIdGenerator : Nat
  taken : List Pkg
  processed : List Pkg
  failed : List Nat

/-- The switch at its start. -/
def Switch.init : Switch where
  players _ := none
  rooms _ := none
  onlines _ := none
  playerMap := ∅
  cachedPlayerMap := ∅
  onlineFdMap := ∅
  onlineOlidMap := ∅
  roomIdGenerator := 0
  taken := []
  processed := []
  failed := []

def makePlayerKey (uid : UInt32) (roleTm : Int32) : UInt64 :=
  uid.toUInt64 <<< 32 ||| roleTm.toInt64.toUInt64

def Player.key (p : Player) : UInt64 := makePlayerKey p.id p.roleTm

/-- `get_next_room_id`; 0 is left out. -/
def getNextRoomId (generator : Nat) : Nat :=
  if (generator + 1) % 2 ^ 32 = 0 then 1 else (generator + 1) % 2 ^ 32

namespace Switch

variable (s : Switch)

def modifyPlayer (a : Addr) (change : Player → Player) : Switch :=
  { s with players := modify s.players a change }

def modifyRoom (a : Addr) (change : Room → Room) : Switch :=
  { s with rooms := modify s.rooms a change }

def modifyOnline (a : Addr) (change : Online → Online) : Switch :=
  { s with onlines := modify s.onlines a change }

def getPlayer (uid : UInt32) (roleTm : Int32) : Option Addr :=
  s.playerMap[makePlayerKey uid roleTm]?

/-- The loops over the types of a status, and over the statuses. -/
def findRoom (online : Addr) (id : Nat) : Option Addr := do
  let online ← s.onlines online
  [RoomStatus.idle, .asking, .fighting, .closed].findSome? fun status =>
    [RoomType.pvp, .pve].findSome? fun type => (online.roomMap (getRoomMap type status))[id]?

/-! ## Rooms and seats -/

def closeRoom (r : Addr) : Switch :=
  match s.rooms r with
  | none => s
  | some room =>
    if room.status = .closed then s
    else
      (s.modifyOnline room.online fun online =>
        (online.eraseRoom (getRoomMap room.type room.status) room.id).insertRoom .closed room.id
          r).modifyRoom r fun room => { room with status := .closed, owner := 0 }

/-- `player_leave_seat`, without the notifications. -/
def playerLeaveSeat (a : Addr) : Switch :=
  match (s.players a).bind Player.seat with
  | none => s
  | some seat =>
    let s := s.modifyRoom seat.room (.setPlayer seat.no 0)
    let s := s.modifyPlayer a fun p => { p with seat := none, status := .idle }
    match s.rooms seat.room with
    | none => s
    | some room =>
      if room.countRoomPlayers none = 0 then s.closeRoom seat.room
      else s.modifyRoom seat.room fun room => { room with owner := room.genNewRoomOwner }

/-- The last part of `player_sit_down`. -/
def takeSeat (a : Addr) (there : SeatPtr) : Switch :=
  (s.modifyPlayer a fun p => { p with seat := some there }).modifyRoom there.room
    (.setPlayer there.no a)

/-- `player_sit_down`, without the notification; a seat that is taken is left alone. -/
def playerSitDown (a : Addr) (there : SeatPtr) : Switch :=
  if (s.rooms there.room).any fun room => room.occupied there.no then s
  else
    match (s.players a).bind Player.seat with
    | none => s.takeSeat a there
    | some seat => (s.modifyRoom seat.room (.setPlayer seat.no 0)).takeSeat a there

/-- `del_seat` up to the release of the seat. -/
def delSeat (r : Addr) (no : SeatNo) : Switch :=
  match s.rooms r with
  | none => s
  | some room =>
    match s.players (room.seats no).player with
    | none => s
    | some p =>
      if p.seat.isSome then s.playerLeaveSeat (room.seats no).player
      else s.modifyRoom r (.setPlayer no 0)

def unregRoom (r : Addr) : Switch :=
  match s.rooms r with
  | none => s
  | some room =>
    s.modifyOnline room.online (.eraseRoom (getRoomMap room.type room.status) room.id)

/-- `del_room`; the teams go with the room. -/
def delRoom (r : Addr) : Switch :=
  match s.rooms r with
  | none => s
  | some room =>
    let s := (room.seatNos.foldl (delSeat · r) s).unregRoom r
    { s with rooms := Function.update s.rooms r none }

/-- What `add_room` and `btlsw_pvp_create_room` make of a room: the owner takes the first seat. -/
def addRoom (r online owner : Addr) (type : RoomType) (mode : RoomMode) (name pass : String)
    (mapid maplv : Nat) : Switch :=
  let id := getNextRoomId s.roomIdGenerator
  let room : Room :=
    { id, name, pass, type, mode, status := .idle, owner, online, maplv, mapid
      seats := fun _ => ⟨false, 0⟩ }
  let s := { s with rooms := Function.update s.rooms r (some room), roomIdGenerator := id }
  let s := s.modifyOnline online (.insertRoom (getRoomMap type .idle) id r)
  s.playerSitDown owner ⟨r, ⟨teamNoBlue, 0⟩⟩

/-- `pvp_room_switch_status`; both maps are taken with the old status. -/
def pvpRoomSwitchStatus (r : Addr) (toStatus : RoomStatus) : Switch :=
  match s.rooms r with
  | none => s
  | some room =>
    if room.status = toStatus then s
    else
      let fromRoomMap := getRoomMap room.type room.status
      let toRoomMap := getRoomMap room.type room.status
      (s.modifyOnline room.online fun online =>
        (online.eraseRoom fromRoomMap room.id).insertRoom toRoomMap room.id r).modifyRoom r
          fun room => { room with status := toStatus }

/-! ## Players -/

/-- `unreg_player`; the map of the online server is searched for the id alone. -/
def unregPlayer (p : Player) : Switch :=
  { s with playerMap := s.playerMap.erase p.key }.modifyOnline p.online (.erasePlayer p.id.toUInt64)

def delPlayer (a : Addr) : Switch :=
  match s.players a with
  | none => s
  | some p =>
    let s := s.unregPlayer p
    let s := if p.seat.isSome then s.playerLeaveSeat a else s
    { s with
      cachedPlayerMap := s.cachedPlayerMap.erase p.key
      players := Function.update s.players a none }

def addPlayer (a online : Addr) (uid : UInt32) (roleTm : Int32) : Switch :=
  let p : Player :=
    { id := uid, roleTm, waitcmd := 0, seq := 0, status := .idle, seat := none, online
      cachePkgQueue := [] }
  { s with
    players := Function.update s.players a (some p)
    playerMap := s.playerMap.insertIfNew p.key a }.modifyOnline online (.insertPlayer p.key a)

/-! ## Online servers -/

/-- `add_online`; a descriptor and an id register once. -/
def addOnline (o : Addr) (fd id : Nat) : Option Switch :=
  if s.onlineFdMap[fd]?.isSome || s.onlineOlidMap[id]?.isSome then none
  else
    some { s with
      onlines := Function.update s.onlines o (some
        { fd, id, roomMap := fun _ => ∅, playerMap := ∅ })
      onlineFdMap := s.onlineFdMap.insertIfNew fd o
      onlineOlidMap := s.onlineOlidMap.insertIfNew id o }

/-- A map of rooms that is released is empty here. -/
def releaseRoomMap (o : Addr) (no : RoomMapNo) : Switch :=
  match s.onlines o with
  | none => s
  | some online =>
    (((online.roomMap no).toList.map Prod.snd).foldl delRoom s).modifyOnline o fun online =>
      { online with roomMap := Function.update online.roomMap no ∅ }

def delOnline (o : Addr) : Switch :=
  match s.onlines o with
  | none => s
  | some online =>
    let s := [RoomMapNo.fighting, .asking, .idle, .pveFighting, .pveAsking, .pveIdle,
      .closed].foldl (releaseRoomMap · o) s
    { s with
      onlineFdMap := s.onlineFdMap.erase online.fd
      onlineOlidMap := s.onlineOlidMap.erase online.id
      onlines := Function.update s.onlines o none }

end Switch

end Taomee.BattleSwitch
