import Taomee.BattleSwitch.Effects

/-!
# The battle switch: online servers

What is done to rooms and seats touches neither the players and online servers nor the maps that
they are found by. So a descriptor is always that of the online server it is mapped to.
-/

namespace Taomee.BattleSwitch

open Records

variable {s s' t : Switch} {a b mem o : Addr} {p : Player}

/-- Who a player is, and where it comes from. -/
def Player.ident (p : Player) : UInt32 × Int32 × Addr := (p.id, p.roleTm, p.online)

/-- What an online server is found by, and its players. -/
def Online.ident (online : Online) : Nat × Nat × PtrMap UInt64 :=
  (online.fd, online.id, online.playerMap)

/-- The registries of players and online servers and those in them are the same. -/
structure SameRegistry (s s' : Switch) : Prop where
  players : ∀ a, (s'.players a).map Player.ident = (s.players a).map Player.ident
  onlines : ∀ o, (s'.onlines o).map Online.ident = (s.onlines o).map Online.ident
  playerMap : s'.playerMap = s.playerMap
  onlineFdMap : s'.onlineFdMap = s.onlineFdMap
  onlineOlidMap : s'.onlineOlidMap = s.onlineOlidMap

namespace SameRegistry

theorem refl (s : Switch) : SameRegistry s s := ⟨fun _ => rfl, fun _ => rfl, rfl, rfl, rfl⟩

theorem trans (first : SameRegistry s s') (second : SameRegistry s' t) : SameRegistry s t where
  players a := (second.players a).trans (first.players a)
  onlines o := (second.onlines o).trans (first.onlines o)
  playerMap := second.playerMap.trans first.playerMap
  onlineFdMap := second.onlineFdMap.trans first.onlineFdMap
  onlineOlidMap := second.onlineOlidMap.trans first.onlineOlidMap

/-- A change of a player that keeps its ids keeps the registry. -/
theorem modifyPlayer (s : Switch) (a : Addr) (change : Player → Player)
    (keeps : ∀ p, (change p).ident = p.ident) : SameRegistry s (s.modifyPlayer a change) :=
  ⟨fun _ => map_modify keeps, fun _ => rfl, rfl, rfl, rfl⟩

/-- Rooms are no part of the registry. -/
theorem modifyRoom (s : Switch) (r : Addr) (change : Room → Room) :
    SameRegistry s (s.modifyRoom r change) :=
  ⟨fun _ => rfl, fun _ => rfl, rfl, rfl, rfl⟩

/-- A change of a server that keeps its id and descriptor keeps the registry. -/
theorem modifyOnline (s : Switch) (o : Addr) (change : Online → Online)
    (keeps : ∀ online, (change online).ident = online.ident) :
    SameRegistry s (s.modifyOnline o change) :=
  ⟨fun _ => rfl, fun _ => map_modify keeps, rfl, rfl, rfl⟩

/-- A quiet step registers nobody. -/
theorem of_quiet (quiet : Quiet s s') : SameRegistry s s' where
  players a := by
    have view := congrArg (Option.map fun place : UInt32 × Int32 × Option SeatPtr × Addr =>
      (place.1, place.2.1, place.2.2.2)) (quiet.players a)
    rw [Option.map_map, Option.map_map] at view
    exact view
  onlines o := by rw [quiet.onlines]
  playerMap := quiet.playerMap
  onlineFdMap := quiet.onlineFdMap
  onlineOlidMap := quiet.onlineOlidMap

theorem closeRoom (s : Switch) (r : Addr) : SameRegistry s (s.closeRoom r) := by
  rw [Switch.closeRoom]
  split
  · exact refl s
  · split
    · exact refl s
    · refine SameRegistry.trans ?_ (modifyRoom _ r _)
      exact modifyOnline s _ _ fun _ => rfl

/-- Leaving a seat keeps the player registered. -/
theorem playerLeaveSeat (s : Switch) (a : Addr) : SameRegistry s (s.playerLeaveSeat a) := by
  rw [Switch.playerLeaveSeat]
  split
  · exact refl s
  case _ seat _ =>
    have left : SameRegistry s ((s.modifyRoom seat.room (.setPlayer seat.no 0)).modifyPlayer a
        fun p => { p with seat := none, status := .idle }) :=
      (modifyRoom s seat.room _).trans (modifyPlayer _ a _ fun _ => rfl)
    dsimp only
    split
    · exact left
    · split
      · exact left.trans (closeRoom _ seat.room)
      · exact left.trans (modifyRoom _ seat.room _)

theorem takeSeat (s : Switch) (a : Addr) (there : SeatPtr) : SameRegistry s (s.takeSeat a there) :=
  (modifyPlayer s a (fun p => { p with seat := some there }) fun _ => rfl).trans
    (modifyRoom _ there.room _)

/-- Sitting down keeps the player registered. -/
theorem playerSitDown (s : Switch) (a : Addr) (there : SeatPtr) :
    SameRegistry s (s.playerSitDown a there) := by
  rw [Switch.playerSitDown]
  split
  · exact refl s
  · split
    · exact takeSeat s a there
    · exact (modifyRoom s _ _).trans (takeSeat _ a there)

theorem delSeat (s : Switch) (r : Addr) (no : SeatNo) : SameRegistry s (s.delSeat r no) := by
  rw [Switch.delSeat]
  split
  · exact refl s
  · split
    · exact refl s
    · split
      · exact playerLeaveSeat s _
      · exact modifyRoom s r _

/-- A loop whose body keeps the registry keeps it. -/
theorem foldl {α : Type} {change : Switch → α → Switch}
    (keeps : ∀ s x, SameRegistry s (change s x)) (s : Switch) (list : List α) :
    SameRegistry s (list.foldl change s) := by
  induction list generalizing s with
  | nil => exact refl s
  | cons x rest ih => exact (keeps s x).trans (ih (change s x))

/-- `unreg_room` touches rooms only. -/
theorem unregRoom (s : Switch) (r : Addr) : SameRegistry s (s.unregRoom r) := by
  rw [Switch.unregRoom]
  split
  · exact refl s
  · exact modifyOnline s _ _ fun _ => rfl

/-- `del_room` touches rooms and seats only. -/
theorem delRoom (s : Switch) (r : Addr) : SameRegistry s (s.delRoom r) := by
  rw [Switch.delRoom]
  split
  · exact refl s
  case _ room _ =>
    have before := (foldl (fun s no => delSeat s r no) s room.seatNos).trans (unregRoom _ r)
    exact ⟨before.players, before.onlines, before.playerMap, before.onlineFdMap,
      before.onlineOlidMap⟩

/-- A new room leaves players and servers as they are. -/
theorem addRoom (s : Switch) (r o owner : Addr) (type : RoomType) (mode : RoomMode)
    (name pass : String) (mapid maplv : Nat) :
    SameRegistry s (s.addRoom r o owner type mode name pass mapid maplv) := by
  refine SameRegistry.trans ?_ (playerSitDown _ owner _)
  refine SameRegistry.trans ?_ (modifyOnline _ o _ fun _ => rfl)
  exact ⟨fun _ => rfl, fun _ => rfl, rfl, rfl, rfl⟩

theorem pvpRoomSwitchStatus (s : Switch) (r : Addr) (toStatus : RoomStatus) :
    SameRegistry s (s.pvpRoomSwitchStatus r toStatus) := by
  rw [Switch.pvpRoomSwitchStatus]
  split
  · exact refl s
  · split
    · exact refl s
    · refine SameRegistry.trans ?_ (modifyRoom _ r _)
      exact modifyOnline s _ _ fun _ => rfl

/-- A map of rooms is released without a player. -/
theorem releaseRoomMap (s : Switch) (o : Addr) (no : RoomMapNo) :
    SameRegistry s (s.releaseRoomMap o no) := by
  rw [Switch.releaseRoomMap]
  split
  · exact refl s
  · exact (foldl delRoom s _).trans (modifyOnline _ o _ fun _ => rfl)

/-- The sweep over closed rooms takes no player out. -/
theorem procClosedRooms (s : Switch) : SameRegistry s s.procClosedRooms :=
  s.procClosedRooms_keeps (fun r before => before.trans (delRoom _ r)) (refl s)

/-- Only the deletion of a player concerns the registries. -/
theorem perform (s : Switch) {action : Action} (keeps : ∀ a, action ≠ .delPlayer a) :
    SameRegistry s (s.perform action) := by
  cases action with
  | nothing => exact refl s
  | skipRoomId => exact ⟨fun _ => rfl, fun _ => rfl, rfl, rfl, rfl⟩
  | addRoom mem o owner mode name pass mapid maplv => exact addRoom s mem o owner _ _ _ _ _ _
  | leaveSeat a => exact playerLeaveSeat s a
  | sitDown a there => exact playerSitDown s a there
  | setOnoff r no onoff => exact modifyRoom s r _
  | setStatus a status => exact modifyPlayer s a _ fun _ => rfl
  | updateAttr r name pass mapid maplv => exact modifyRoom s r _
  | switchStatus r status => exact pvpRoomSwitchStatus s r status
  | delPlayer a => exact absurd rfl (keeps a)

theorem symm (same : SameRegistry s s') : SameRegistry s' s where
  players a := (same.players a).symm
  onlines o := (same.onlines o).symm
  playerMap := same.playerMap.symm
  onlineFdMap := same.onlineFdMap.symm
  onlineOlidMap := same.onlineOlidMap.symm

/-- A registered player is still there, under the same ids. -/
theorem exists_player (same : SameRegistry s s') (found : s.players a = some p) :
    ∃ q, s'.players a = some q ∧ q.ident = p.ident := by
  have view := same.players a
  rw [found, Option.map_some] at view
  exact Option.map_eq_some_iff.mp view

/-- A connected server is still there, under the same id. -/
theorem exists_online {online : Online} (same : SameRegistry s s')
    (found : s.onlines o = some online) :
    ∃ online', s'.onlines o = some online' ∧ online'.ident = online.ident := by
  have view := same.onlines o
  rw [found, Option.map_some] at view
  exact Option.map_eq_some_iff.mp view

end SameRegistry

/-- The registries without a player, and without its record. -/
def Switch.withoutPlayer (s : Switch) (a : Addr) (p : Player) : Switch :=
  { s.unregPlayer p with players := Function.update s.players a none }

/-- Apart from the player that goes, `del_player` keeps the registry. -/
theorem SameRegistry.delPlayer (found : s.players a = some p) :
    SameRegistry (s.withoutPlayer a p) (s.delPlayer a) := by
  have left := SameRegistry.playerLeaveSeat (s.unregPlayer p) a
  rw [Switch.delPlayer_of_some found]
  refine ⟨fun b => ?_, left.onlines, left.playerMap, left.onlineFdMap, left.onlineOlidMap⟩
  rw [Switch.withoutPlayer]
  dsimp only
  obtain rfl | apart := eq_or_ne b a
  · rw [Function.update_self, Function.update_self]
  · rw [Function.update_of_ne apart, Function.update_of_ne apart]
    exact left.players b

/-- The players left are the others. -/
theorem Switch.players_withoutPlayer {b : Addr} {q : Player} :
    (s.withoutPlayer a p).players b = some q ↔ b ≠ a ∧ s.players b = some q := by
  show Function.update s.players a none b = some q ↔ _
  obtain rfl | apart := eq_or_ne b a
  · simp
  · simp [apart]

/-- A login again leaves the map of descriptors alone. -/
theorem Switch.onlineFdMap_delOldPlayer (s : Switch) (pkg : Pkg) :
    (s.delOldPlayer pkg).onlineFdMap = s.onlineFdMap := by
  rw [Switch.delOldPlayer]
  cases s.getPlayer pkg.id pkg.roleTm with
  | none => rfl
  | some old =>
    rw [Option.map_some, Option.getD_some]
    cases found : s.players old with
    | none => rw [Switch.delPlayer, found]
    | some p => exact (SameRegistry.delPlayer found).onlineFdMap

/-- An online server that is deleted loses its rooms before it is unregistered. -/
def Switch.withoutRooms (s : Switch) (o : Addr) : Switch :=
  [RoomMapNo.fighting, .asking, .idle, .pveFighting, .pveAsking, .pveIdle, .closed].foldl
    (releaseRoomMap · o) s

theorem SameRegistry.withoutRooms (s : Switch) (o : Addr) : SameRegistry s (s.withoutRooms o) :=
  .foldl (fun s no => releaseRoomMap s o no) s _

/-- What `del_online` does: the rooms go, then the server and its entry. -/
theorem Switch.delOnline_of_some {online : Online} (found : s.onlines o = some online) :
    s.delOnline o = { s.withoutRooms o with
      onlineFdMap := (s.withoutRooms o).onlineFdMap.erase online.fd
      onlineOlidMap := (s.withoutRooms o).onlineOlidMap.erase online.id
      onlines := Function.update (s.withoutRooms o).onlines o none } := by
  rw [Switch.delOnline, found]
  rfl

/-! ## Connections -/

/-- A descriptor is mapped to the online server that has it. -/
structure Connected (s : Switch) : Prop where
  online : ∀ {fd : Nat} {o}, s.onlineFdMap[fd]? = some o →
    ∃ online, s.onlines o = some online ∧ online.fd = fd

namespace Connected

/-- No server is connected at the start. -/
theorem init : Connected Switch.init := by
  refine ⟨fun found => ?_⟩
  simp [Switch.init] at found

/-- The map and the descriptors are all that counts. -/
theorem congr (connected : Connected s) (map : s'.onlineFdMap = s.onlineFdMap)
    (fds : ∀ o, (s'.onlines o).map Online.fd = (s.onlines o).map Online.fd) : Connected s' := by
  refine ⟨fun {fd o} found => ?_⟩
  rw [map] at found
  obtain ⟨online, here, has⟩ := connected.online found
  have view := fds o
  rw [here, Option.map_some] at view
  obtain ⟨online', there, same⟩ := Option.map_eq_some_iff.mp view
  exact ⟨online', there, same.trans has⟩

/-- Steps that keep the registry keep the map of descriptors right. -/
theorem sameRegistry (connected : Connected s) (same : SameRegistry s s') : Connected s' := by
  refine connected.congr same.onlineFdMap fun o => ?_
  have view := congrArg (Option.map fun ident : Nat × Nat × PtrMap UInt64 => ident.1)
    (same.onlines o)
  rw [Option.map_map, Option.map_map] at view
  exact view

/-- The departure of a player closes no connection. -/
theorem delPlayer (connected : Connected s) (a : Addr) : Connected (s.delPlayer a) := by
  cases found : s.players a with
  | none =>
    rw [Switch.delPlayer, found]
    exact connected
  | some p =>
    have without : Connected (s.withoutPlayer a p) :=
      connected.congr rfl fun _ => map_modify fun _ => rfl
    exact without.sameRegistry (.delPlayer found)

theorem delOldPlayer (connected : Connected s) (pkg : Pkg) : Connected (s.delOldPlayer pkg) := by
  rw [Switch.delOldPlayer]
  cases s.getPlayer pkg.id pkg.roleTm with
  | none => exact connected
  | some old => exact connected.delPlayer old

/-- A new server is entered under its descriptor. -/
theorem addOnline (connected : Connected s) (fresh : Fresh s mem) (fd olid : Nat) :
    Connected ((s.addOnline mem fd olid).getD s) := by
  rw [Switch.addOnline]
  split
  · exact connected
  case isFalse unused =>
    refine ⟨fun {fd' o} found => ?_⟩
    dsimp only [Option.getD_some] at found ⊢
    rw [PtrMap.getElem?_insertIfNew] at found
    split at found
    case isTrue here =>
      cases found
      rw [Function.update_self]
      exact ⟨_, rfl, here.1⟩
    case isFalse =>
      obtain ⟨online, here, has⟩ := connected.online found
      have apart : o ≠ mem := by
        rintro rfl
        have free := fresh.2.2.2
        rw [here] at free
        exact absurd free Bool.false_ne_true
      rw [Function.update_of_ne apart]
      exact ⟨online, here, has⟩

/-- A server that goes takes its entry with it. -/
theorem delOnline (connected : Connected s) (o : Addr) : Connected (s.delOnline o) := by
  cases here : s.onlines o with
  | none =>
    rw [Switch.delOnline, here]
    exact connected
  | some online =>
    rw [Switch.delOnline_of_some here]
    have released := SameRegistry.withoutRooms s o
    refine ⟨fun {fd o'} found => ?_⟩
    dsimp only at found ⊢
    rw [PtrMap.getElem?_erase, released.onlineFdMap] at found
    split at found
    · cases found
    case _ apart =>
      obtain ⟨online', there, has⟩ := connected.online found
      obtain ⟨online'', after, same⟩ := released.exists_online there
      have other : o' ≠ o := by
        rintro rfl
        rw [here] at there
        cases there
        exact apart has
      rw [Function.update_of_ne other]
      exact ⟨online'', after, (congrArg Prod.fst same).trans has⟩

/-- Every event keeps the map of descriptors right. -/
theorem step {event : Event} (connected : Connected s) (allocates : Allocates s event) :
    Connected (step s event) := by
  refine step_invariant (fun quiet before => before.sameRegistry (.of_quiet quiet))
    (fun _ before fits => ?_) connected allocates
  generalize effectOf s event = effect at fits
  cases effect with
  | act action =>
    by_cases removal : ∃ a, action = .delPlayer a
    · obtain ⟨a, rfl⟩ := removal
      exact before.delPlayer a
    · exact before.sameRegistry (.perform _ fun a same => removal ⟨a, same⟩)
  | enterHall o mem pkg =>
    have old := before.delOldPlayer pkg
    exact old.congr rfl fun _ => map_modify fun _ => rfl
  | addOnline mem fd olid => exact before.addOnline fits fd olid
  | closedRooms => exact before.sameRegistry (.procClosedRooms _)
  | delOnline o => exact before.delOnline o

end Connected

end Taomee.BattleSwitch
