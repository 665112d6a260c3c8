import Taomee.BattleSwitch.Seating

/-!
# The battle switch: who owns a room

An open room is meant to keep its owner until the owner leaves. But whoever leaves, an owner is
chosen anew: the first player of the last team that has players.
-/

namespace Taomee.BattleSwitch

open Records Runs

variable {s s' t : Switch} {a mem o r : Addr} {p : Player} {room : Room} {there : SeatPtr}

/-- The owner of an open room is another one only if the old one was in the room and is not. -/
structure OwnerKept (s s' : Switch) : Prop where
  owner : ∀ {r room room'}, s.rooms r = some room → s'.rooms r = some room' →
    room.status ≠ .closed → room'.status ≠ .closed → room'.owner ≠ room.owner →
    (∃ seat, Sits s room.owner seat ∧ seat.room = r) ∧
      ∀ seat, Sits s' room.owner seat → seat.room ≠ r

/-- When a seat is left, the player at another one heads those who stay: nobody of them is in a
later team, and nobody at a lower seat of its own team. -/
structure Room.Heads (room : Room) (gone no : SeatNo) : Prop where
  stays : no ≠ gone
  listed : no ∈ room.seatNos
  occupied : room.occupied no
  others : ∀ other ∈ room.seatNos, other ≠ gone → room.occupied other →
    other.team < no.team ∨ other.team = no.team ∧ no.seat ≤ other.seat

/-- A player owns its room, or the owner of the room heads those who stay. -/
def LeavesOwner (s : Switch) (a : Addr) : Prop :=
  ∀ p, s.players a = some p → ∀ seat, p.seat = some seat → ∀ room, s.rooms seat.room = some room →
    room.status ≠ .closed → room.owner ≠ a →
      ∃ no ∈ room.seatNos, (room.seats no).player = room.owner ∧ room.Heads seat.no no

/-- The player that leaves its seat. -/
def leaver (s : Switch) : Effect → Option Addr
  | .act (.leaveSeat a) => some a
  | .act (.delPlayer a) => some a
  | .enterHall _ _ pkg => s.getPlayer pkg.id pkg.roleTm
  | _ => none

/-- A player that leaves its room owns it, or the owner heads those who stay. -/
def KeepsOwner (s : Switch) (effect : Effect) : Prop :=
  ∀ a, leaver s effect = some a → LeavesOwner s a

namespace Room.Heads

variable {gone no : SeatNo}

/-- The head of a team sits on a seat of it. -/
theorem seat_lt (heads : room.Heads gone no) : no.seat < teamMaxSeat room.type := by
  obtain ⟨team, -, member⟩ := List.mem_flatMap.mp heads.listed
  obtain ⟨seat, below, rfl⟩ := List.mem_map.mp member
  exact List.mem_range.mp below

/-- The head's team is one of the room's. -/
theorem team_mem (heads : room.Heads gone no) : no.team ∈ room.teams := by
  obtain ⟨team, among, member⟩ := List.mem_flatMap.mp heads.listed
  obtain ⟨seat, -, rfl⟩ := List.mem_map.mp member
  exact among

/-- A seat ahead of the head is empty once the other player has left. -/
theorem empty (heads : room.Heads gone no) {team seat : Nat} (among : team ∈ room.teams)
    (below : seat < teamMaxSeat room.type)
    (ahead : no.team < team ∨ team = no.team ∧ seat < no.seat) :
    (room.setPlayer gone 0).occupied ⟨team, seat⟩ = false := by
  rw [occupied_setPlayer]
  split
  case isTrue => rfl
  case isFalse apart =>
    by_contra taken
    have listed : (⟨team, seat⟩ : SeatNo) ∈ room.seatNos :=
      List.mem_flatMap.mpr ⟨team, among, List.mem_map_of_mem (List.mem_range.mpr below)⟩
    have behind := heads.others ⟨team, seat⟩ listed apart (Bool.not_eq_false _ ▸ taken)
    dsimp only at behind
    omega

/-- The head is the first player that the choice meets in its team. -/
theorem find_own (heads : room.Heads gone no) :
    ((room.setPlayer gone 0).teamSeats no.team).find? (room.setPlayer gone 0).occupied =
      some no := by
  have first : (List.range (teamMaxSeat room.type)).find?
      ((room.setPlayer gone 0).occupied ∘ (⟨no.team, ·⟩)) = some no.seat := by
    rw [List.find?_range_eq_some]
    refine ⟨?_, List.mem_range.mpr heads.seat_lt, fun seat before => ?_⟩
    · rw [Function.comp_apply, occupied_setPlayer, if_neg heads.stays]
      exact heads.occupied
    · rw [Function.comp_apply, heads.empty heads.team_mem (before.trans heads.seat_lt)
        (.inr ⟨rfl, before⟩)]
      rfl
  rw [teamSeats, List.find?_map]
  exact congrArg _ first

/-- The choice meets nobody in a later team. -/
theorem find_later (heads : room.Heads gone no) {team : Nat} (among : team ∈ room.teams)
    (later : no.team < team) :
    ((room.setPlayer gone 0).teamSeats team).find? (room.setPlayer gone 0).occupied = none := by
  refine List.find?_eq_none.mpr fun other member => ?_
  obtain ⟨seat, below, rfl⟩ := List.mem_map.mp member
  rw [heads.empty among (List.mem_range.mp below) (.inl later)]
  exact Bool.false_ne_true

/-- `gen_new_room_owner` chooses the head. -/
theorem genNewRoomOwner_eq (heads : room.Heads gone no) :
    (room.setPlayer gone 0).genNewRoomOwner = (room.seats no).player := by
  have stays : ((room.setPlayer gone 0).seats no).player = (room.seats no).player := by
    rw [setPlayer_player, if_neg heads.stays]
  have own := heads.find_own
  have among := heads.team_mem
  have teams : (room.setPlayer gone 0).teams = room.teams := rfl
  rw [genNewRoomOwner, teams]
  unfold Room.teams at among ⊢
  split
  case isTrue two =>
    rw [if_pos two] at among
    have both : teamNoRed ∈ room.teams := by
      rw [Room.teams, if_pos two]
      exact List.mem_cons_of_mem _ List.mem_cons_self
    obtain blue | red : no.team = teamNoBlue ∨ no.team = teamNoRed := by simpa using among
    · have later := heads.find_later both (by rw [blue]; decide)
      rw [blue] at own
      simpa [own, later] using stays
    · rw [red] at own
      simpa [own] using stays
  case isFalse one =>
    rw [if_neg one] at among
    rw [List.mem_singleton.mp among] at own
    simpa [own] using stays

end Room.Heads

namespace OwnerKept

/-- Rooms that keep their owners. -/
theorem of_owners (owners : ∀ {r room room'}, s.rooms r = some room → s'.rooms r = some room' →
    room'.owner = room.owner) : OwnerKept s s' :=
  ⟨fun here there _ _ changed => absurd (owners here there) changed⟩

/-- Owners that are the same room by room. -/
theorem of_map (owners : ∀ r, (s'.rooms r).map Room.owner = (s.rooms r).map Room.owner) :
    OwnerKept s s' := by
  refine of_owners fun {r room room'} here there => ?_
  have same := owners r
  rw [here, there] at same
  exact Option.some.inj same

/-- A change of one room that keeps its owner. -/
theorem of_modify (change : Room → Room) (rooms : s'.rooms = modify s.rooms r change)
    (keeps : ∀ room, (change room).owner = room.owner) : OwnerKept s s' :=
  of_map fun _ => rooms ▸ map_modify keeps

/-- What players wait for does not matter. -/
theorem quiet (kept : OwnerKept s s') (before : Quiet t s) {t' : Switch} (after : Quiet s' t') :
    OwnerKept t t' := by
  refine ⟨fun {r room room'} here there opened opened' changed => ?_⟩
  rw [← before.rooms] at here
  rw [after.rooms] at there
  obtain ⟨⟨seat, sits, at'⟩, gone⟩ := kept.owner here there opened opened' changed
  refine ⟨⟨seat, (SameSeats.of_quiet before).sits.mp sits, at'⟩, fun seat sits => ?_⟩
  exact gone seat ((SameSeats.of_quiet after).sits.mp sits)

/-- The room of a player that leaves: it is closed, or its owner is chosen anew. -/
theorem of_left (heir : LeavesOwner s a) (found : s.players a = some p)
    (seated : p.seat = some there) (rooms : s'.rooms = modify s.rooms there.room (.left there.no))
    (gone : ∀ seat, ¬ Sits s' a seat) : OwnerKept s s' := by
  refine ⟨fun {r room room'} here there' opened opened' changed => ?_⟩
  rw [rooms] at there'
  obtain ⟨rfl, old, here', rfl⟩ | ⟨-, here'⟩ := modify_eq_some_iff.mp there'
  · obtain rfl := Option.some.inj (here.symm.trans here')
    have owner : room.owner = a := by
      by_contra other
      obtain ⟨no, -, sits, heads⟩ := heir p found there seated room here opened other
      have same := heads.genNewRoomOwner_eq.trans sits
      rw [Room.left] at opened' changed
      split at opened'
      case isTrue last =>
        rw [Room.close] at opened'
        split at opened'
        case isTrue closed => exact opened' closed
        case isFalse => exact opened' rfl
      case isFalse others =>
        rw [if_neg others] at changed
        exact changed same
    rw [owner]
    exact ⟨⟨there, ⟨p, found, seated⟩, rfl⟩, fun seat sits => absurd sits (gone seat)⟩
  · obtain rfl := Option.some.inj (here.symm.trans here')
    exact absurd rfl changed

/-- Getting up keeps the owner who heads those who stay. -/
theorem playerLeaveSeat (linked : Linked s) (heir : LeavesOwner s a) :
    OwnerKept s (s.playerLeaveSeat a) := by
  cases seated : (s.players a).bind Player.seat with
  | none =>
    rw [Switch.playerLeaveSeat, seated]
    exact of_map fun _ => rfl
  | some there =>
    obtain ⟨p, found, seated⟩ := Option.bind_eq_some_iff.mp seated
    exact of_left heir found seated (Switch.rooms_playerLeaveSeat found seated)
      (linked.unseated_playerLeaveSeat a)

/-- The same of a player who goes. -/
theorem delPlayer (linked : Linked s) (heir : LeavesOwner s a) : OwnerKept s (s.delPlayer a) := by
  cases found : s.players a with
  | none =>
    rw [Switch.delPlayer, found]
    exact of_map fun _ => rfl
  | some p =>
    have unreg : Linked (s.unregPlayer p) := linked.sameSeats ⟨fun _ => rfl, fun _ => rfl⟩
    have left := playerLeaveSeat unreg heir
    rw [Switch.delPlayer_of_some found]
    refine ⟨fun {r room room'} here there opened opened' changed => ?_⟩
    obtain ⟨sat, gone⟩ := left.owner here there opened opened' changed
    refine ⟨sat, fun seat sits => gone seat ?_⟩
    obtain ⟨q, known, seated⟩ := sits
    have apart : room.owner ≠ a := by
      intro same
      rw [same] at known
      cases (Function.update_self ..).symm.trans known
    exact ⟨q, (Function.update_of_ne apart ..).symm.trans known, seated⟩

/-- A new player is not in a room. -/
theorem addPlayer (kept : OwnerKept s s') (o mem : Addr) (uid : UInt32) (roleTm : Int32) :
    OwnerKept s (s'.addPlayer mem o uid roleTm) := by
  refine ⟨fun {r room room'} here there opened opened' changed => ?_⟩
  obtain ⟨sat, gone⟩ := kept.owner here there opened opened' changed
  refine ⟨sat, fun seat sits => gone seat ?_⟩
  obtain ⟨q, known, seated⟩ := sits
  have apart : room.owner ≠ mem := by
    intro same
    rw [same] at known
    cases (Function.update_self ..).symm.trans known
    cases seated
  exact ⟨q, (Function.update_of_ne apart ..).symm.trans known, seated⟩

/-- A seat that is taken or freed changes no owner. -/
theorem owner_setPlayer (s : Switch) (there : SeatPtr) (a r : Addr) :
    ((s.modifyRoom there.room (.setPlayer there.no a)).rooms r).map Room.owner =
      (s.rooms r).map Room.owner :=
  map_modify fun _ => rfl

/-- Changing seats changes no owner. -/
theorem playerSitDown (s : Switch) (a : Addr) (there : SeatPtr) :
    OwnerKept s (s.playerSitDown a there) := by
  rw [Switch.playerSitDown]
  split
  · exact of_map fun _ => rfl
  · split
    · exact of_modify (.setPlayer there.no a) rfl fun _ => rfl
    case _ seat _ =>
      exact of_map fun r => (owner_setPlayer (s.modifyRoom seat.room (.setPlayer seat.no 0)) there a
        r).trans (owner_setPlayer s seat 0 r)

/-- A new room changes the owner of no other. -/
theorem addRoom {owner : Addr} {mode : RoomMode} {name pass : String} {mapid maplv : Nat}
    (fits : Fits s (.act (.addRoom mem o owner mode name pass mapid maplv))) :
    OwnerKept s (s.addRoom mem o owner .pvp mode name pass mapid maplv) := by
  obtain ⟨fresh, -, ⟨p, found, unseated⟩, -⟩ := fits
  refine of_owners fun {r room room'} here there => ?_
  rw [Switch.rooms_addRoom mem found unseated o mode name pass mapid maplv] at there
  have apart : r ≠ mem := by
    rintro rfl
    rw [Option.isNone_iff_eq_none.mp fresh.2.2.1] at here
    cases here
  rw [modify_of_ne apart, Function.update_of_ne apart, here] at there
  cases there
  rfl

/-- Every action that keeps the owner. -/
theorem perform (linked : Linked s) {action : Action} (fits : Fits s (.act action))
    (heir : KeepsOwner s (.act action)) : OwnerKept s (s.perform action) := by
  cases action with
  | nothing => exact of_map fun _ => rfl
  | skipRoomId => exact of_map fun _ => rfl
  | addRoom mem o owner mode name pass mapid maplv => exact addRoom fits
  | leaveSeat a => exact playerLeaveSeat linked (heir a rfl)
  | sitDown a there => exact playerSitDown s a there
  | setOnoff r no onoff => exact of_modify (.setOnoff no onoff) rfl fun _ => rfl
  | setStatus a status => exact of_map fun _ => rfl
  | updateAttr r name pass mapid maplv =>
    exact of_modify (fun room => { room with name, pass, mapid, maplv }) rfl fun _ => rfl
  | switchStatus r status =>
    exact of_modify _ (Switch.rooms_pvpRoomSwitchStatus s r status) fun _ => rfl
  | delPlayer a => exact delPlayer linked (heir a rfl)

end OwnerKept

/-! ## Rooms go -/

/-- Seats and players refer to each other, and rooms are what they were or gone. -/
structure Fewer (s s' : Switch) : Prop where
  linked : Linked s'
  rooms : ∀ {r room}, s'.rooms r = some room → s.rooms r = some room

/-- The seats of one room concern no other. -/
theorem Fewer.delSeats (linked : Linked s) (r : Addr) (seats : List SeatNo) :
    ∀ r', r' ≠ r → (seats.foldl (Switch.delSeat · r) s).rooms r' = s.rooms r' := by
  intro r' apart
  induction seats generalizing s with
  | nil => rfl
  | cons no rest ih =>
    refine (ih (linked.delSeat r no)).trans ?_
    obtain same | ⟨a, ⟨p, found, seated⟩, leaves⟩ := linked.delSeat_eq r no
    · rw [same]
    · rw [leaves, Switch.rooms_playerLeaveSeat found seated, modify_of_ne apart]

/-- A room that goes changes no other. -/
theorem Fewer.delRoom (fewer : Fewer s s') (r : Addr) : Fewer s (s'.delRoom r) := by
  refine ⟨fewer.linked.delRoom r, fun {r' room} found => ?_⟩
  rw [Switch.delRoom] at found
  cases here : s'.rooms r with
  | none =>
    rw [here] at found
    exact fewer.rooms found
  | some room' =>
    rw [here] at found
    dsimp only at found
    have apart : r' ≠ r := by
      rintro rfl
      rw [Function.update_self] at found
      cases found
    rw [Function.update_of_ne apart] at found
    refine fewer.rooms ((Fewer.delSeats fewer.linked r room'.seatNos r' apart).symm.trans ?_)
    rw [Switch.unregRoom] at found
    split at found <;> exact found

/-- The rooms of a map go, the others stay. -/
theorem Fewer.releaseRoomMap (fewer : Fewer s s') (o : Addr) (no : RoomMapNo) :
    Fewer s (s'.releaseRoomMap o no) := by
  rw [Switch.releaseRoomMap]
  split
  · exact fewer
  case _ online _ =>
    have deleted : ∀ (rooms : List Addr) {s' : Switch}, Fewer s s' →
        Fewer s (rooms.foldl Switch.delRoom s') := by
      intro rooms
      induction rooms with
      | nil => exact fun fewer => fewer
      | cons r rest ih => exact fun fewer => ih (fewer.delRoom r)
    have after := deleted ((online.roomMap no).toList.map Prod.snd) fewer
    exact ⟨after.linked.sameSeats ⟨fun _ => rfl, fun _ => rfl⟩, fun found => after.rooms found⟩

/-- The rooms of a server go, the others stay. -/
theorem Fewer.delOnline (linked : Linked s) (o : Addr) : Fewer s (s.delOnline o) := by
  refine ⟨linked.delOnline o, fun {r room} found => ?_⟩
  cases here : s.onlines o with
  | none =>
    rw [Switch.delOnline, here] at found
    exact found
  | some online =>
    rw [Switch.delOnline_of_some here] at found
    have released : ∀ (maps : List RoomMapNo) {s' : Switch}, Fewer s s' →
        Fewer s (maps.foldl (Switch.releaseRoomMap · o) s') := by
      intro maps
      induction maps with
      | nil => exact fun fewer => fewer
      | cons no rest ih => exact fun fewer => ih (fewer.releaseRoomMap o no)
    have without : Fewer s (s.withoutRooms o) := released _ ⟨linked, id⟩
    exact without.rooms found

/-- Rooms that stay keep their owners. -/
theorem Fewer.ownerKept (fewer : Fewer s s') : OwnerKept s s' := by
  refine .of_owners fun {r room room'} here there => ?_
  rw [fewer.rooms there] at here
  cases here
  rfl

/-! ## Runs -/

/-- Every effect that keeps the owner. -/
theorem OwnerKept.apply (linked : Linked s) {effect : Effect} (fits : Fits s effect)
    (heir : KeepsOwner s effect) : OwnerKept s (s.apply effect) := by
  cases effect with
  | act action => exact perform linked fits heir
  | enterHall o mem pkg =>
    have old : OwnerKept s (s.delOldPlayer pkg) := by
      rw [Switch.delOldPlayer]
      cases known : s.getPlayer pkg.id pkg.roleTm with
      | none => exact of_map fun _ => rfl
      | some old => exact delPlayer linked (heir old known)
    exact old.addPlayer o mem pkg.id pkg.roleTm
  | addOnline mem fd olid =>
    refine of_map fun _ => ?_
    rw [Switch.apply, Switch.addOnline]
    split <;> rfl
  | closedRooms =>
    have fewer : Fewer s s.procClosedRooms :=
      s.procClosedRooms_keeps (fun r fewer => fewer.delRoom r) ⟨linked, id⟩
    exact fewer.ownerKept
  | delOnline o => exact (Fewer.delOnline linked o).ownerKept

/-- A quiet step does not change who is the heir. -/
theorem LeavesOwner.quiet (heir : LeavesOwner s a) (quiet : Quiet s s') : LeavesOwner s' a := by
  intro p found seat seated room here
  obtain ⟨q, there, place⟩ := quiet.place_of_some found
  rw [quiet.rooms] at here
  exact heir q there seat ((congrArg (·.2.2.1) place).symm.trans seated) room here

/-- A quiet step does not change which effects keep the owner. -/
theorem KeepsOwner.quiet {effect : Effect} (heir : KeepsOwner s effect) (quiet : Quiet s s') :
    KeepsOwner s' effect := by
  intro a leaves
  have same : leaver s' effect = leaver s effect := by
    cases effect with
    | enterHall o mem pkg =>
      rw [leaver, leaver, Switch.getPlayer, Switch.getPlayer, quiet.playerMap]
    | act action => cases action <;> rfl
    | _ => rfl
  exact (heir a (same ▸ leaves)).quiet quiet

/-- In every step of a run in which whoever leaves a room owns it or leaves it to an owner who heads
those who stay, the owner of a room that stays open changes only if the owner leaves the room. -/
theorem owner_kept_of_leaves_owner {event : Event} (run : Reaches step Allocates Switch.init s)
    (allocates : Allocates s event) (heir : KeepsOwner s (effectOf s event)) :
    OwnerKept s (step s event) := by
  have linked : Linked s := by
    apply run.invariant
    · exact .init
    · exact fun before allocates => before.step allocates
  obtain ⟨before, first, second⟩ := step_does s event
  have fits := (effectOf_fits allocates).quiet first
  have kept := OwnerKept.apply (linked.sameSeats (.of_quiet first)) fits (heir.quiet first)
  exact kept.quiet first second

instance Room.Heads.decidable (room : Room) (gone no : SeatNo) : Decidable (room.Heads gone no) :=
  decidable_of_iff (no ≠ gone ∧ no ∈ room.seatNos ∧ room.occupied no ∧
      ∀ other ∈ room.seatNos, other ≠ gone → room.occupied other →
        other.team < no.team ∨ other.team = no.team ∧ no.seat ≤ other.seat)
    ⟨fun all => ⟨all.1, all.2.1, all.2.2.1, all.2.2.2⟩,
      fun heads => ⟨heads.stays, heads.listed, heads.occupied, heads.others⟩⟩

instance KeepsOwner.decidable (s : Switch) (effect : Effect) : Decidable (KeepsOwner s effect) :=
  inferInstanceAs (Decidable (∀ a ∈ leaver s effect, ∀ p ∈ s.players a, ∀ seat ∈ p.seat,
    ∀ room ∈ s.rooms seat.room, room.status ≠ .closed → room.owner ≠ a →
      ∃ no ∈ room.seatNos, (room.seats no).player = room.owner ∧ room.Heads seat.no no))

/-- A room of three. The owner and the third player sit in the first team, the second player in the
other one. -/
def roomOfThree : Switch :=
  [registration 1 1, asks 1 1 1 .playerEnterHall 2, asks 1 2 1 .playerEnterHall 3,
    asks 1 3 1 .playerEnterHall 4, asks 1 1 1 (.pvpCreateRoom "" "" 0 0 0) 5,
    asks 1 2 1 (.pvpJoinRoom 1 "") 6, asks 1 3 1 (.pvpJoinRoom 1 "") 6].foldl step Switch.init

/-- The room of three is reached by packets. -/
theorem roomOfThree_reached : Reaches step Allocates Switch.init roomOfThree :=
  Reaches.refl.follow (by decide +kernel)

/-- The second player leaves, and the owner stays the owner. -/
theorem owner_kept_of_leaves_owner_three :
    (roomOfThree.rooms 5).map Room.owner = some 2 ∧
      OwnerKept roomOfThree (step roomOfThree (asks 1 2 1 .leaveRoom 6)) :=
  ⟨by decide +kernel,
    owner_kept_of_leaves_owner roomOfThree_reached (by decide +kernel) (by decide +kernel)⟩

/-- A third player leaves, and the room goes from its owner to the player in the last team. -/
theorem third_leaves_owner_changes : ∃ s event, Reaches step Allocates Switch.init s ∧
    Allocates s event ∧ ¬ OwnerKept s (step s event) := by
  refine ⟨roomOfThree, asks 1 3 1 .leaveRoom 6, roomOfThree_reached, by decide +kernel,
    fun kept => ?_⟩
  generalize joined : roomOfThree = s at kept
  have before : (s.rooms 5).map (fun room => (room.owner, room.status)) = some (2, .idle) := by
    rw [← joined]
    decide +kernel
  have after : ((step s (asks 1 3 1 .leaveRoom 6)).rooms 5).map
      (fun room => (room.owner, room.status)) = some (3, .idle) := by
    rw [← joined]
    decide +kernel
  have sits : ((step s (asks 1 3 1 .leaveRoom 6)).players 2).map Player.seat =
      some (some ⟨5, ⟨0, 0⟩⟩) := by
    rw [← joined]
    decide +kernel
  obtain ⟨room, here, old⟩ := Option.map_eq_some_iff.mp before
  obtain ⟨room', there, new⟩ := Option.map_eq_some_iff.mp after
  obtain ⟨owner, status⟩ := Prod.mk.inj old
  obtain ⟨owner', status'⟩ := Prod.mk.inj new
  obtain ⟨p, found, seated⟩ := Option.map_eq_some_iff.mp sits
  have gone := (kept.owner here there (by rw [status]; decide) (by rw [status']; decide)
    (by rw [owner, owner']; decide)).2 ⟨5, ⟨0, 0⟩⟩
  rw [owner] at gone
  exact gone ⟨p, found, seated⟩ rfl

end Taomee.BattleSwitch
