import Taomee.BattleSwitch.Seats

/-!
# The battle switch: locks, closed rooms and owners

Seats that are locked are meant to be empty, closed rooms too, and the owner of any other room sits
in it.
-/

namespace Taomee.BattleSwitch

open Records Runs

variable {s s' t : Switch} {a b mem o r : Addr} {p : Player} {room : Room} {no other : SeatNo}
  {x there : SeatPtr}

namespace Room

/-- Locked seats and closed rooms are empty, and an open room has its owner. -/
structure Kept (room : Room) : Prop where
  unlocked : ∀ {no}, (room.seats no).locked → room.occupied no = false
  closed : room.status = .closed → ∀ no, room.occupied no = false
  owned : room.status ≠ .closed → ∃ no, room.occupied no ∧ (room.seats no).player = room.owner

/-- A room that is closed, if it is not so yet. -/
def close (room : Room) : Room :=
  if room.status = .closed then room else { room with status := .closed, owner := 0 }

/-- A room that a player has left. -/
def left (no : SeatNo) (room : Room) : Room :=
  if (room.setPlayer no 0).countRoomPlayers none = 0 then (room.setPlayer no 0).close
  else { room.setPlayer no 0 with owner := (room.setPlayer no 0).genNewRoomOwner }

/-- Only this seat is taken or freed. -/
theorem occupied_setPlayer : (room.setPlayer no a).occupied other =
    if other = no then decide (a ≠ 0) else room.occupied other := by
  rw [occupied, setPlayer_player]
  split <;> rfl

/-- A player changes no lock. -/
theorem locked_setPlayer :
    ((room.setPlayer no a).seats other).locked = (room.seats other).locked := by
  show (Function.update room.seats no _ other).locked = _
  obtain rfl | apart := eq_or_ne other no
  · rw [Function.update_self]
  · rw [Function.update_of_ne apart]

/-- No player is counted when every seat is empty. -/
theorem countRoomPlayers_eq_zero :
    room.countRoomPlayers none = 0 ↔ ∀ no ∈ room.seatNos, room.occupied no = false := by
  rw [countRoomPlayers, List.length_eq_zero_iff, List.filter_eq_nil_iff]
  simp

/-- The address is that of a player on a seat. -/
def Seats (room : Room) (owner : Addr) : Prop :=
  ∃ no, room.occupied no ∧ (room.seats no).player = owner

/-- A team with players gives the owner; one without keeps it. -/
theorem seats_foldl {teams : List Nat} {owner : Addr}
    (either : room.Seats owner ∨ ∃ team ∈ teams, ∃ no ∈ room.teamSeats team, room.occupied no) :
    room.Seats (teams.foldl (fun owner team =>
      ((room.teamSeats team).find? room.occupied).elim owner fun no => (room.seats no).player)
      owner) := by
  induction teams generalizing owner with
  | nil =>
    obtain seated | ⟨team, listed, -⟩ := either
    · exact seated
    · exact absurd listed List.not_mem_nil
  | cons first rest ih =>
    refine ih ?_
    dsimp only
    cases found : (room.teamSeats first).find? room.occupied with
    | some no => exact .inl ⟨no, List.find?_some found, rfl⟩
    | none =>
      obtain seated | ⟨team, listed, no, member, occupied⟩ := either
      · exact .inl seated
      · obtain rfl | later := List.mem_cons.mp listed
        · exact absurd occupied (List.find?_eq_none.mp found no member)
        · exact .inr ⟨team, later, no, member, occupied⟩

/-- In a room with a player the new owner is one. -/
theorem seats_genNewRoomOwner (listed : no ∈ room.seatNos) (occupied : room.occupied no) :
    room.Seats room.genNewRoomOwner := by
  obtain ⟨team, among, member⟩ := List.mem_flatMap.mp listed
  exact seats_foldl (.inr ⟨team, among, no, member, occupied⟩)

/-- A seat may always be left. -/
theorem Kept.clear (kept : room.Kept) (no : SeatNo) :
    (∀ {other}, ((room.setPlayer no 0).seats other).locked →
      (room.setPlayer no 0).occupied other = false) ∧
    (room.status = .closed → ∀ other, (room.setPlayer no 0).occupied other = false) := by
  have empty : ∀ {other}, room.occupied other = false →
      (room.setPlayer no 0).occupied other = false := by
    intro other empty
    rw [occupied_setPlayer, empty]
    simp
  constructor
  · intro other locked
    rw [locked_setPlayer] at locked
    exact empty (kept.unlocked locked)
  · exact fun closed other => empty (kept.closed closed other)

/-- A room that a player leaves is closed with the last one; otherwise one of those left owns it. -/
theorem Kept.left (kept : room.Kept) (inside : ∀ {no}, room.occupied no → no ∈ room.seatNos)
    (no : SeatNo) : (room.left no).Kept := by
  obtain ⟨unlocked, closed⟩ := kept.clear no
  rw [Room.left]
  split
  case isTrue last =>
    have empty : ∀ other, (room.setPlayer no 0).occupied other = false := by
      intro other
      by_contra occupied
      rw [Bool.not_eq_false] at occupied
      have listed := inside_setPlayer inside (fun live => absurd rfl live) occupied
      rw [countRoomPlayers_eq_zero.mp last other listed] at occupied
      cases occupied
    rw [close]
    split
    case isTrue status => exact ⟨unlocked, fun _ => empty, fun opened => absurd status opened⟩
    case isFalse => exact ⟨unlocked, fun _ => empty, fun opened => absurd rfl opened⟩
  case isFalse others =>
    refine ⟨unlocked, closed, fun _ => ?_⟩
    obtain ⟨other, listed, occupied⟩ : ∃ other ∈ (room.setPlayer no 0).seatNos,
        (room.setPlayer no 0).occupied other := by
      by_contra none
      refine others (countRoomPlayers_eq_zero.mpr fun other listed => ?_)
      exact Bool.eq_false_iff.mpr fun occupied => none ⟨other, listed, occupied⟩
    exact seats_genNewRoomOwner listed occupied

/-- The players of an open room stay in it, and one of them may be on a new, unlocked seat. -/
theorem Kept.reseat {room' : Room} (kept : room.Kept) (opened : room.status ≠ .closed)
    (unlocked : (room.seats no).locked = false) (status : room'.status = room.status)
    (owner : room'.owner = room.owner)
    (locked : ∀ other, (room'.seats other).locked = (room.seats other).locked)
    (new : ∀ other, room'.occupied other → other = no ∨ room.occupied other)
    (stays : ∀ other, room.occupied other → room'.Seats (room.seats other).player) :
    room'.Kept := by
  refine ⟨fun {other} lock => ?_, fun closed => absurd (status ▸ closed) opened, fun _ => ?_⟩
  · by_contra occupied
    rw [Bool.not_eq_false] at occupied
    rw [locked] at lock
    obtain rfl | occupied := new other occupied
    · rw [unlocked] at lock
      cases lock
    · rw [kept.unlocked lock] at occupied
      cases occupied
  · obtain ⟨other, occupied, same⟩ := kept.owned opened
    rw [owner, ← same]
    exact stays other occupied

/-- An open seat of an open room may be taken. -/
theorem Kept.take (kept : room.Kept) (opened : room.status ≠ .closed)
    (unlocked : (room.seats no).locked = false) (empty : room.occupied no = false) :
    (room.setPlayer no a).Kept := by
  refine kept.reseat opened unlocked rfl rfl (fun _ => locked_setPlayer) ?_ ?_
  · intro other occupied
    rw [occupied_setPlayer] at occupied
    split at occupied
    case isTrue same => exact .inl same
    case isFalse => exact .inr occupied
  · intro other occupied
    have apart : other ≠ no := by
      rintro rfl
      rw [empty] at occupied
      cases occupied
    refine ⟨other, ?_, ?_⟩
    · rw [occupied_setPlayer, if_neg apart]
      exact occupied
    · rw [setPlayer_player, if_neg apart]

/-- A player may move to an open seat. -/
theorem Kept.move {seat : SeatNo} (kept : room.Kept) (opened : room.status ≠ .closed)
    (unlocked : (room.seats no).locked = false) (empty : room.occupied no = false) (live : a ≠ 0)
    (here : (room.seats seat).player = a) : ((room.setPlayer seat 0).setPlayer no a).Kept := by
  refine kept.reseat opened unlocked rfl rfl
    (fun _ => locked_setPlayer.trans locked_setPlayer) ?_ ?_
  · intro other occupied
    rw [occupied_setPlayer, occupied_setPlayer] at occupied
    split at occupied
    case isTrue same => exact .inl same
    case isFalse =>
      split at occupied
      case isTrue => simp at occupied
      case isFalse => exact .inr occupied
  · intro other occupied
    have apart : other ≠ no := by
      rintro rfl
      rw [empty] at occupied
      cases occupied
    obtain rfl | elsewhere := eq_or_ne other seat
    · refine ⟨no, ?_, ?_⟩
      · rw [occupied_setPlayer, if_pos rfl, decide_eq_true_eq]
        exact live
      · rw [setPlayer_player, if_pos rfl, here]
    · refine ⟨other, ?_, ?_⟩
      · rw [occupied_setPlayer, if_neg apart, occupied_setPlayer, if_neg elsewhere]
        exact occupied
      · rw [setPlayer_player, if_neg apart, setPlayer_player, if_neg elsewhere]

/-- An empty seat may be locked. -/
theorem Kept.setOnoff (kept : room.Kept) (empty : room.occupied no = false) (onoff : Bool) :
    (room.setOnoff no onoff).Kept := by
  have occupied : ∀ {other}, (room.setOnoff no onoff).occupied other = room.occupied other := by
    intro other
    show decide ((Function.update room.seats no _ other).player ≠ 0) = _
    obtain rfl | apart := eq_or_ne other no
    · rw [Function.update_self]
      rfl
    · rw [Function.update_of_ne apart]
      rfl
  have player : ∀ {other},
      ((room.setOnoff no onoff).seats other).player = (room.seats other).player := by
    intro other
    show (Function.update room.seats no _ other).player = _
    obtain rfl | apart := eq_or_ne other no
    · rw [Function.update_self]
    · rw [Function.update_of_ne apart]
  refine ⟨fun {other} locked => ?_, fun closed other => ?_, fun opened => ?_⟩
  · rw [occupied]
    obtain rfl | apart := eq_or_ne other no
    · exact empty
    · refine kept.unlocked ?_
      exact (congrArg Seat.locked (Function.update_of_ne apart ..)).symm.trans locked
  · rw [occupied]
    exact kept.closed closed other
  · obtain ⟨other, seated, same⟩ := kept.owned opened
    refine ⟨other, ?_, ?_⟩
    · rw [occupied]
      exact seated
    · rw [player]
      exact same

end Room

namespace Switch

/-- Whoever sits nowhere leaves no seat. -/
theorem playerSitDown_of_unseated
    (empty : ¬ (s.rooms there.room).any fun room => room.occupied there.no)
    (unseated : (s.players a).bind Player.seat = none) :
    s.playerSitDown a there = s.takeSeat a there := by
  rw [playerSitDown, if_neg empty, unseated]

theorem rooms_closeRoom (s : Switch) (r : Addr) :
    (s.closeRoom r).rooms = modify s.rooms r Room.close := by
  rw [closeRoom]
  cases here : s.rooms r with
  | none => exact (modify_of_none here).symm
  | some room =>
    funext r'
    dsimp only
    split
    case isTrue closed =>
      obtain rfl | apart := eq_or_ne r' r
      · rw [modify_of_some here, here, Room.close, if_pos closed]
      · rw [modify_of_ne apart]
    case isFalse opened =>
      obtain rfl | apart := eq_or_ne r' r
      · rw [modify_of_some here, Room.close, if_neg opened]
        exact modify_of_some here
      · rw [modify_of_ne apart]
        exact modify_of_ne apart

theorem rooms_pvpRoomSwitchStatus (s : Switch) (r : Addr) (status : RoomStatus) :
    (s.pvpRoomSwitchStatus r status).rooms =
      modify s.rooms r fun room => { room with status } := by
  rw [pvpRoomSwitchStatus]
  cases here : s.rooms r with
  | none => exact (modify_of_none here).symm
  | some room =>
    dsimp only
    split
    case isTrue same =>
      subst same
      funext r'
      obtain rfl | apart := eq_or_ne r' r
      · rw [modify_of_some here, here]
      · rw [modify_of_ne apart]
    case isFalse => rfl

/-- A new room has its owner on the first seat. -/
theorem rooms_addRoom {owner : Addr} (mem : Addr) (found : s.players owner = some p)
    (unseated : p.seat = none) (o : Addr) (mode : RoomMode) (name pass : String)
    (mapid maplv : Nat) :
    (s.addRoom mem o owner .pvp mode name pass mapid maplv).rooms =
      modify (Function.update s.rooms mem (some ⟨getNextRoomId s.roomIdGenerator, name, pass, .pvp,
        mode, .idle, owner, o, maplv, mapid, fun _ => ⟨false, 0⟩⟩)) mem
        (.setPlayer ⟨teamNoBlue, 0⟩ owner) := by
  rw [addRoom, playerSitDown_of_unseated]
  · rfl
  · show ¬ (Function.update s.rooms mem _ mem).any _
    rw [Function.update_self]
    exact Bool.false_ne_true
  · show (s.players owner).bind Player.seat = none
    rw [found, Option.bind_some, unseated]

/-- Only the room of a player changes when it leaves. -/
theorem rooms_playerLeaveSeat (found : s.players a = some p) (seated : p.seat = some there) :
    (s.playerLeaveSeat a).rooms = modify s.rooms there.room (Room.left there.no) := by
  rw [playerLeaveSeat, found, Option.bind_some, seated]
  dsimp only
  cases here : s.rooms there.room with
  | none =>
    have still : modify s.rooms there.room (.setPlayer there.no 0) = s.rooms := modify_of_none here
    rw [show ((s.modifyRoom there.room (.setPlayer there.no 0)).modifyPlayer a _).rooms there.room =
      none from (congrFun still _).trans here]
    exact still.trans (modify_of_none here).symm
  | some room =>
    rw [show ((s.modifyRoom there.room (.setPlayer there.no 0)).modifyPlayer a _).rooms there.room =
      some (room.setPlayer there.no 0) from modify_of_some here]
    dsimp only
    split
    case isTrue last =>
      rw [rooms_closeRoom]
      refine modify_modify.trans (modify_congr here ?_)
      rw [Room.left, if_pos last, Function.comp_apply]
    case isFalse others =>
      refine modify_modify.trans (modify_congr here ?_)
      rw [Room.left, if_neg others, Function.comp_apply]

end Switch

/-- Seats and players refer to each other, and every room is kept. -/
structure Seating (s : Switch) : Prop where
  linked : Linked s
  kept : ∀ {r room}, s.rooms r = some room → room.Kept

namespace Seating

/-- Rooms that are what they were. -/
theorem sameRooms (seating : Seating s) (same : SameSeats s s') (rooms : s'.rooms = s.rooms) :
    Seating s' where
  linked := seating.linked.sameSeats same
  kept found := seating.kept (rooms ▸ found)

/-- One room changes and stays as it should be. -/
theorem modifyRoom (seating : Seating s) (linked : Linked s') {change : Room → Room}
    (rooms : s'.rooms = modify s.rooms r change)
    (keeps : ∀ room, s.rooms r = some room → room.Kept → (change room).Kept) : Seating s' where
  linked := linked
  kept {r' room} found := by
    rw [rooms] at found
    obtain ⟨rfl, old, there, rfl⟩ | ⟨-, there⟩ := modify_eq_some_iff.mp found
    · exact keeps old there (seating.kept there)
    · exact seating.kept there

/-- Getting up keeps the seating. -/
theorem playerLeaveSeat (seating : Seating s) (a : Addr) : Seating (s.playerLeaveSeat a) := by
  cases seated : (s.players a).bind Player.seat with
  | none =>
    rw [Switch.playerLeaveSeat, seated]
    exact seating
  | some there =>
    obtain ⟨p, found, seated⟩ := Option.bind_eq_some_iff.mp seated
    exact seating.modifyRoom (seating.linked.playerLeaveSeat a)
      (Switch.rooms_playerLeaveSeat found seated) fun room here kept =>
        kept.left (seating.linked.inside here) there.no

/-- Seats are taken away one after another. -/
theorem delSeats (seating : Seating s) (r : Addr) (seats : List SeatNo) :
    Seating (seats.foldl (Switch.delSeat · r) s) := by
  induction seats generalizing s with
  | nil => exact seating
  | cons no rest ih =>
    refine ih ?_
    dsimp only
    obtain same | ⟨a, -, leaves⟩ := seating.linked.delSeat_eq r no
    · rw [same]
      exact seating
    · rw [leaves]
      exact seating.playerLeaveSeat a

/-- A room goes with everyone got up. -/
theorem delRoom (seating : Seating s) (r : Addr) : Seating (s.delRoom r) := by
  refine ⟨seating.linked.delRoom r, fun {r' room} found => ?_⟩
  rw [Switch.delRoom] at found
  cases here : s.rooms r with
  | none =>
    rw [here] at found
    exact seating.kept found
  | some room =>
    rw [here] at found
    dsimp only at found
    have apart : r' ≠ r := by
      rintro rfl
      rw [Function.update_self] at found
      cases found
    rw [Function.update_of_ne apart] at found
    refine (seating.delSeats r room.seatNos).kept (r := r') ?_
    rw [Switch.unregRoom] at found
    split at found <;> exact found

/-- A player sits down where it may: in an unlocked seat of an open room. -/
theorem playerSitDown (seating : Seating s) (fits : Fits s (.act (.sitDown a there)))
    (may : ∀ room, s.rooms there.room = some room →
      room.status ≠ .closed ∧ (room.seats there.no).locked = false) :
    Seating (s.playerSitDown a there) := by
  have linked := seating.linked.playerSitDown fits
  obtain ⟨⟨p, found, inRoom⟩, room, here, inside, empty⟩ := fits
  obtain ⟨opened, unlocked⟩ := may room here
  have free : ¬ (s.rooms there.room).any fun room => room.occupied there.no := by
    rw [here, Option.any_some, empty]
    decide
  rw [Switch.playerSitDown, if_neg free] at linked ⊢
  cases seated : p.seat with
  | none =>
    rw [found, Option.bind_some, seated] at linked ⊢
    refine seating.modifyRoom (r := there.room) linked rfl fun room' here' kept => ?_
    obtain rfl := Option.some.inj (here.symm.trans here')
    exact kept.take opened unlocked empty
  | some seat =>
    rw [found, Option.bind_some, seated] at linked ⊢
    have rooms : ((s.modifyRoom seat.room (.setPlayer seat.no 0)).takeSeat a there).rooms =
        modify s.rooms there.room (.setPlayer there.no a ∘ .setPlayer seat.no 0) := by
      show modify (modify s.rooms seat.room _) there.room _ = _
      rw [inRoom seat seated]
      exact modify_modify
    refine seating.modifyRoom linked rooms fun room' here' kept => ?_
    obtain rfl := Option.some.inj (here.symm.trans here')
    obtain ⟨live, room', here', same⟩ := seating.linked.symmetric.mp ⟨p, found, seated⟩
    rw [inRoom seat seated] at here'
    obtain rfl := Option.some.inj (here.symm.trans here')
    exact kept.move opened unlocked empty live same

/-- The rooms of a map go one after another. -/
theorem releaseRoomMap (seating : Seating s) (o : Addr) (no : RoomMapNo) :
    Seating (s.releaseRoomMap o no) := by
  rw [Switch.releaseRoomMap]
  split
  · exact seating
  case _ online _ =>
    have deleted : ∀ (rooms : List Addr) {s : Switch}, Seating s →
        Seating (rooms.foldl Switch.delRoom s) := by
      intro rooms
      induction rooms with
      | nil => exact fun seating => seating
      | cons r rest ih => exact fun seating => ih (seating.delRoom r)
    exact (deleted _ seating).sameRooms ⟨fun _ => rfl, fun _ => rfl⟩ rfl

/-- A server goes with its rooms. -/
theorem delOnline (seating : Seating s) (o : Addr) : Seating (s.delOnline o) := by
  cases here : s.onlines o with
  | none =>
    rw [Switch.delOnline, here]
    exact seating
  | some online =>
    rw [Switch.delOnline_of_some here]
    have released : ∀ (maps : List RoomMapNo) {s : Switch}, Seating s →
        Seating (maps.foldl (Switch.releaseRoomMap · o) s) := by
      intro maps
      induction maps with
      | nil => exact fun seating => seating
      | cons no rest ih => exact fun seating => ih (seating.releaseRoomMap o no)
    have without : Seating (s.withoutRooms o) := released _ seating
    exact without.sameRooms ⟨fun _ => rfl, fun _ => rfl⟩ rfl

/-- A player gets up and goes. -/
theorem delPlayer (seating : Seating s) (a : Addr) : Seating (s.delPlayer a) := by
  refine ⟨seating.linked.delPlayer a, fun {r room} there => ?_⟩
  cases found : s.players a with
  | none =>
    rw [Switch.delPlayer, found] at there
    exact seating.kept there
  | some p =>
    rw [Switch.delPlayer_of_some found] at there
    have unreg : Seating (s.unregPlayer p) := seating.sameRooms ⟨fun _ => rfl, fun _ => rfl⟩ rfl
    exact (unreg.playerLeaveSeat a).kept there

/-- Nobody who enters the hall sits. -/
theorem enterHall (seating : Seating s) {pkg : Pkg} (fresh : Fresh (s.delOldPlayer pkg) mem) :
    Seating (s.enterHall o mem pkg) := by
  have old : Seating (s.delOldPlayer pkg) := by
    rw [Switch.delOldPlayer]
    cases s.getPlayer pkg.id pkg.roleTm with
    | none => exact seating
    | some old => exact seating.delPlayer old
  exact ⟨old.linked.addPlayer fresh pkg.id pkg.roleTm, fun found => old.kept found⟩

end Seating

/-! ## Runs -/

/-- A player may sit down. -/
def MaySit (s : Switch) : Effect → Prop
  | .act (.sitDown _ there) => ∀ room, s.rooms there.room = some room →
    room.status ≠ .closed ∧ (room.seats there.no).locked = false
  | _ => True

/-- A quiet step does not change who may sit. -/
theorem MaySit.quiet {effect : Effect} (may : MaySit s effect) (quiet : Quiet s s') :
    MaySit s' effect := by
  cases effect with
  | act action =>
    cases action with
    | sitDown a there =>
      intro room found
      rw [quiet.rooms] at found
      exact may room found
    | _ => trivial
  | _ => trivial

namespace Seating

/-- A new room has its owner in it. -/
theorem addRoom (seating : Seating s) {owner : Addr} {mode : RoomMode} {name pass : String}
    {mapid maplv : Nat} (fits : Fits s (.act (.addRoom mem o owner mode name pass mapid maplv))) :
    Seating (s.addRoom mem o owner .pvp mode name pass mapid maplv) := by
  have linked : Linked (s.addRoom mem o owner .pvp mode name pass mapid maplv) :=
    seating.linked.perform fits
  obtain ⟨fresh, -, ⟨p, found, unseated⟩, -⟩ := fits
  have rooms := Switch.rooms_addRoom mem found unseated o mode name pass mapid maplv
  refine ⟨linked, fun {r room} here => ?_⟩
  rw [rooms] at here
  obtain ⟨-, old, new, rfl⟩ | ⟨apart, there⟩ := modify_eq_some_iff.mp here
  · rw [Function.update_self] at new
    cases new
    have live : owner ≠ 0 := by
      rintro rfl
      rw [seating.linked.null] at found
      cases found
    refine ⟨fun locked => ?_, fun closed => ?_, fun _ => ⟨⟨teamNoBlue, 0⟩, ?_, ?_⟩⟩
    · rw [Room.locked_setPlayer] at locked
      cases locked
    · cases closed
    · rw [Room.occupied_setPlayer, if_pos rfl, decide_eq_true_eq]
      exact live
    · rfl
  · rw [Function.update_of_ne apart] at there
    exact seating.kept there

/-- Every action that may be done keeps the seating. -/
theorem perform (seating : Seating s) {action : Action} (fits : Fits s (.act action))
    (may : MaySit s (.act action)) : Seating (s.perform action) := by
  cases action with
  | nothing => exact seating
  | skipRoomId => exact seating.sameRooms ⟨fun _ => rfl, fun _ => rfl⟩ rfl
  | addRoom mem o owner mode name pass mapid maplv => exact seating.addRoom fits
  | leaveSeat a => exact seating.playerLeaveSeat a
  | sitDown a there => exact seating.playerSitDown fits may
  | setOnoff r no onoff =>
    obtain ⟨room, here, empty⟩ := id fits
    refine seating.modifyRoom (seating.linked.perform fits) rfl fun room' here' kept => ?_
    obtain rfl := Option.some.inj (here.symm.trans here')
    exact kept.setOnoff empty onoff
  | setStatus a status =>
    exact seating.sameRooms ⟨fun _ => map_modify fun _ => rfl, fun _ => rfl⟩ rfl
  | updateAttr r name pass mapid maplv =>
    refine seating.modifyRoom (seating.linked.perform fits) rfl fun room here kept => ?_
    exact ⟨kept.unlocked, kept.closed, kept.owned⟩
  | switchStatus r status =>
    refine seating.modifyRoom (seating.linked.perform fits)
      (Switch.rooms_pvpRoomSwitchStatus s r status) fun room here kept => ?_
    obtain ⟨opened, a, p, seat, found, seated, rfl⟩ := fits
    have before : room.status ≠ .closed := by
      intro closed
      obtain ⟨live, room', here', same⟩ := seating.linked.symmetric.mp ⟨p, found, seated⟩
      obtain rfl := Option.some.inj (here.symm.trans here')
      have empty := kept.closed closed seat.no
      rw [Room.occupied, same, decide_eq_false_iff_not] at empty
      exact empty live
    exact ⟨kept.unlocked, fun closed => absurd closed opened, fun _ => kept.owned before⟩
  | delPlayer a => exact seating.delPlayer a

/-- No one sits at the start. -/
theorem init : Seating Switch.init where
  linked := .init
  kept found := by cases found

/-- Every event whose effect may be done keeps the seating. -/
theorem step {event : Event} (seating : Seating s) (allocates : Allocates s event)
    (may : MaySit s (effectOf s event)) : Seating (step s event) := by
  refine step_invariant (fun quiet holds => holds.sameRooms (.of_quiet quiet) quiet.rooms) ?_
    seating allocates
  intro s' quiet before fits
  have may := may.quiet quiet
  generalize effectOf s event = effect at fits may
  cases effect with
  | act action => exact before.perform fits may
  | enterHall o mem pkg => exact before.enterHall fits.1
  | addOnline mem fd olid =>
    refine ⟨before.linked.addOnline mem fd olid, fun {r room} found => before.kept (r := r) ?_⟩
    rw [Switch.apply, Switch.addOnline] at found
    split at found <;> exact found
  | closedRooms => exact s'.procClosedRooms_keeps (fun r seating => seating.delRoom r) before
  | delOnline o => exact before.delOnline o

end Seating

/-- In a run where players sit down only in unlocked seats of rooms that are not closed, seats and
players refer to each other, locked seats and closed rooms are empty, and the owner of every other
room sits in it. -/
theorem seating_of_may_sit
    (run : Reaches step (fun s event => Allocates s event ∧ MaySit s (effectOf s event))
      Switch.init s) : Seating s := by
  apply run.invariant
  · exact .init
  · intro s event before allowed
    exact before.step allowed.1 allowed.2

instance MaySit.decidable (s : Switch) : ∀ effect, Decidable (MaySit s effect)
  | .act (.sitDown _ there) =>
    inferInstanceAs (Decidable (∀ room ∈ s.rooms there.room,
      room.status ≠ .closed ∧ (room.seats there.no).locked = false))
  | .act .nothing | .act .skipRoomId | .act (.addRoom ..) | .act (.leaveSeat _)
  | .act (.setOnoff ..) | .act (.setStatus ..) | .act (.updateAttr ..) | .act (.switchStatus ..)
  | .act (.delPlayer _) | .enterHall .. | .addOnline .. | .closedRooms | .delOnline _ =>
    isTrue trivial

/-- A seat is locked and another one taken; the owner leaves, and then the last player. -/
theorem seating_of_may_sit_two : Seating
    ([registration 1 1, asks 1 1 1 .playerEnterHall 2, asks 1 2 1 .playerEnterHall 3,
      asks 1 1 1 (.pvpCreateRoom "" "" 0 0 0) 4, asks 1 1 1 (.setRoomSeatOnoff 0 1 1) 5,
      asks 1 2 1 (.pvpJoinRoom 1 "") 5, asks 1 1 1 .leaveRoom 5,
      asks 1 2 1 .leaveRoom 5].foldl step Switch.init) :=
  seating_of_may_sit (Reaches.refl.follow (by decide +kernel))

/-- A player joins a room whose next seat is locked. -/
theorem locked_seat_taken : ∃ s, Reaches step Allocates Switch.init s ∧ ¬ Seating s := by
  refine ⟨[registration 1 1, asks 1 1 1 .playerEnterHall 2, asks 1 2 1 .playerEnterHall 3,
    asks 1 1 1 (.pvpCreateRoom "" "" 1 0 0) 4, asks 1 1 1 (.setRoomSeatOnoff 0 1 1) 5,
    asks 1 2 1 (.pvpJoinRoom 1 "") 5].foldl step Switch.init,
    Reaches.refl.follow (by decide +kernel), fun seating => ?_⟩
  generalize joined : [registration 1 1, asks 1 1 1 .playerEnterHall 2,
    asks 1 2 1 .playerEnterHall 3, asks 1 1 1 (.pvpCreateRoom "" "" 1 0 0) 4,
    asks 1 1 1 (.setRoomSeatOnoff 0 1 1) 5,
    asks 1 2 1 (.pvpJoinRoom 1 "") 5].foldl step Switch.init = s at seating
  have taken : (s.rooms 4).any fun room =>
      (room.seats ⟨0, 1⟩).locked && room.occupied ⟨0, 1⟩ := by
    rw [← joined]
    decide +kernel
  obtain ⟨room, found, both⟩ := Option.any_eq_true .. |>.mp taken
  rw [Bool.and_eq_true] at both
  rw [(seating.kept found).unlocked both.1] at both
  cases both.2

end Taomee.BattleSwitch
