import Taomee.BattleSwitch.Onlines
import Taomee.Library.Runs

/-!
# The battle switch: seats

A seat refers to a player exactly when the player refers to the seat. This holds in every run.
-/

namespace Taomee.BattleSwitch

open Records Runs

variable {s s' t : Switch} {a b mem o r : Addr} {p : Player} {room : Room} {no other : SeatNo}
  {x there : SeatPtr}

/-- A live player refers to a seat. -/
def Sits (s : Switch) (a : Addr) (x : SeatPtr) : Prop :=
  ∃ p, s.players a = some p ∧ p.seat = some x

/-- A seat of a live room refers to a player. -/
def Holds (s : Switch) (x : SeatPtr) (a : Addr) : Prop :=
  a ≠ 0 ∧ ∃ room, s.rooms x.room = some room ∧ (room.seats x.no).player = a

/-- Seats and players refer to each other. -/
structure Linked (s : Switch) : Prop where
  symmetric : ∀ {a x}, Sits s a x ↔ Holds s x a
  inside : ∀ {r room no}, s.rooms r = some room → room.occupied no → no ∈ room.seatNos
  null : s.players 0 = none

/-- All but one player and the seats refer to each other, and no seat refers to this player. -/
structure LinkedBut (s : Switch) (a : Addr) : Prop where
  symmetric : ∀ {b x}, b ≠ a → (Sits s b x ↔ Holds s x b)
  free : ∀ {x}, ¬ Holds s x a
  inside : ∀ {r room no}, s.rooms r = some room → room.occupied no → no ∈ room.seatNos
  null : s.players 0 = none

/-- A player sits in one seat. -/
theorem Sits.unique {x' : SeatPtr} (first : Sits s a x) (second : Sits s a x') : x = x' := by
  obtain ⟨p, found, seated⟩ := first
  obtain ⟨q, found', seated'⟩ := second
  rw [found] at found'
  cases found'
  exact Option.some.inj (seated.symm.trans seated')

/-- A seat holds one player. -/
theorem Holds.unique (first : Holds s x a) (second : Holds s x b) : a = b := by
  obtain ⟨-, room, found, rfl⟩ := first
  obtain ⟨-, room', found', rfl⟩ := second
  rw [found] at found'
  cases found'
  rfl

/-- Only this seat gets the player. -/
theorem Room.setPlayer_player (room : Room) (no : SeatNo) (a : Addr) (other : SeatNo) :
    ((room.setPlayer no a).seats other).player =
      if other = no then a else (room.seats other).player := by
  show (Function.update room.seats no _ other).player = _
  split
  case isTrue same => rw [same, Function.update_self]
  case isFalse apart => rw [Function.update_of_ne apart]

/-! ## What does not concern the seats -/

/-- The players on the seats, and which seats there are. -/
def Room.seating (room : Room) : (SeatNo → Addr) × RoomType × RoomMode :=
  (fun no => (room.seats no).player, room.type, room.mode)

/-- The same players are on the same seats. -/
structure SameSeats (s s' : Switch) : Prop where
  players : ∀ a, (s'.players a).map Player.seat = (s.players a).map Player.seat
  rooms : ∀ r, (s'.rooms r).map Room.seating = (s.rooms r).map Room.seating

namespace SameSeats

theorem refl (s : Switch) : SameSeats s s := ⟨fun _ => rfl, fun _ => rfl⟩

theorem symm (same : SameSeats s s') : SameSeats s' s where
  players a := (same.players a).symm
  rooms r := (same.rooms r).symm

/-- A change of a room that keeps its seating keeps the seats. -/
theorem modifyRoom (s : Switch) (r : Addr) (change : Room → Room)
    (keeps : ∀ room, (change room).seating = room.seating) : SameSeats s (s.modifyRoom r change) :=
  ⟨fun _ => rfl, fun _ => map_modify keeps⟩

/-- The owner is no part of the seating. -/
theorem newOwner (s : Switch) (r : Addr) :
    SameSeats s (s.modifyRoom r fun room => { room with owner := room.genNewRoomOwner }) :=
  modifyRoom s r _ fun _ => rfl

/-- A lock is no part of the seating. -/
theorem setOnoff (s : Switch) (r : Addr) (no : SeatNo) (onoff : Bool) :
    SameSeats s (s.modifyRoom r (.setOnoff no onoff)) := by
  refine modifyRoom s r _ fun room => Prod.ext ?_ rfl
  funext other
  show (Function.update room.seats no _ other).player = _
  obtain rfl | apart := eq_or_ne other no
  · rw [Function.update_self]
    rfl
  · rw [Function.update_of_ne apart]
    rfl

/-- Nobody moves in a quiet step. -/
theorem of_quiet (quiet : Quiet s s') : SameSeats s s' where
  players a := by
    have view := congrArg (Option.map fun place : UInt32 × Int32 × Option SeatPtr × Addr =>
      place.2.2.1) (quiet.players a)
    rw [Option.map_map, Option.map_map] at view
    exact view
  rooms r := by rw [quiet.rooms]

/-- A room closes without anyone in it moving. -/
theorem closeRoom (s : Switch) (r : Addr) : SameSeats s (s.closeRoom r) := by
  rw [Switch.closeRoom]
  split
  · exact refl s
  · split
    · exact refl s
    · exact ⟨fun _ => rfl, fun _ => map_modify fun _ => rfl⟩

/-- The status of a room moves nobody. -/
theorem pvpRoomSwitchStatus (s : Switch) (r : Addr) (toStatus : RoomStatus) :
    SameSeats s (s.pvpRoomSwitchStatus r toStatus) := by
  rw [Switch.pvpRoomSwitchStatus]
  split
  · exact refl s
  · split
    · exact refl s
    · exact ⟨fun _ => rfl, fun _ => map_modify fun _ => rfl⟩

/-- Everyone sits where it sat. -/
theorem sits (same : SameSeats s s') : Sits s' a x ↔ Sits s a x := by
  have carry : ∀ {s s' : Switch}, SameSeats s s' → Sits s a x → Sits s' a x := by
    rintro s s' same ⟨p, found, seated⟩
    have view := same.players a
    rw [found, Option.map_some, seated] at view
    exact Option.map_eq_some_iff.mp view
  exact ⟨carry same.symm, carry same⟩

/-- Every room is still there, with the same seating. -/
theorem exists_room (same : SameSeats s s') (found : s.rooms r = some room) :
    ∃ room', s'.rooms r = some room' ∧ room'.seating = room.seating := by
  have view := same.rooms r
  rw [found, Option.map_some] at view
  exact Option.map_eq_some_iff.mp view

/-- Every seat holds whom it held. -/
theorem holds (same : SameSeats s s') : Holds s' x a ↔ Holds s x a := by
  have carry : ∀ {s s' : Switch}, SameSeats s s' → Holds s x a → Holds s' x a := by
    rintro s s' same ⟨live, room, found, here⟩
    obtain ⟨room', found', seating⟩ := same.exists_room found
    exact ⟨live, room', found', (congrFun (congrArg Prod.fst seating) x.no).trans here⟩
  exact ⟨carry same.symm, carry same⟩

end SameSeats

/-- The seating decides which seats there are. -/
theorem Room.seatNos_congr {room' : Room} (same : room'.seating = room.seating) :
    room'.seatNos = room.seatNos := by
  obtain ⟨-, rest⟩ := Prod.mk.inj same
  obtain ⟨type, mode⟩ := Prod.mk.inj rest
  have teams : room'.teams = room.teams := by rw [Room.teams, Room.teams, mode]
  have seats : room'.teamSeats = room.teamSeats := by
    funext team
    rw [Room.teamSeats, Room.teamSeats, type]
  rw [Room.seatNos, Room.seatNos, teams, seats]

/-- Every room has the seat that its owner takes. -/
theorem Room.first_mem_seatNos (room : Room) : ⟨teamNoBlue, 0⟩ ∈ room.seatNos := by
  refine List.mem_flatMap.mpr ⟨teamNoBlue, ?_, List.mem_map.mpr ⟨0, ?_, rfl⟩⟩
  · rw [Room.teams]
    split <;> exact List.mem_cons_self
  · cases room.type <;> decide

/-- Steps that move nobody keep the links. -/
theorem Linked.sameSeats (linked : Linked s) (same : SameSeats s s') : Linked s' where
  symmetric := by
    intro a x
    rw [same.sits, same.holds]
    exact linked.symmetric
  inside := by
    intro r room no found occupied
    obtain ⟨old, there, seating⟩ := same.symm.exists_room found
    rw [← Room.seatNos_congr seating]
    refine linked.inside there ?_
    rw [Room.occupied] at occupied ⊢
    rw [show (old.seats no).player = (room.seats no).player from
      congrFun (congrArg Prod.fst seating) no]
    exact occupied
  null := by
    have view := same.players 0
    rw [linked.null, Option.map_none, Option.map_eq_none_iff] at view
    exact view

/-! ## Sitting down and getting up -/

/-- The seat holds the new player, the others whom they held. -/
theorem Switch.holds_setPlayer {y : SeatPtr} :
    Holds (s.modifyRoom y.room (.setPlayer y.no a)) x b ↔
      x = y ∧ b = a ∧ b ≠ 0 ∧ (s.rooms y.room).isSome ∨ x ≠ y ∧ Holds s x b := by
  constructor
  · rintro ⟨live, room, found, here⟩
    obtain ⟨same, old, there, rfl⟩ | ⟨apart, there⟩ := modify_eq_some_iff.mp found
    · rw [Room.setPlayer_player] at here
      split at here
      case isTrue seat =>
        refine .inl ⟨?_, here.symm, live, ?_⟩
        · exact congrArg₂ SeatPtr.mk same seat
        · rw [there]
          rfl
      case isFalse apart =>
        rw [← same] at there
        exact .inr ⟨fun same => apart (congrArg SeatPtr.no same), live, old, there, here⟩
    · exact .inr ⟨fun same => apart (congrArg SeatPtr.room same), live, room, there, here⟩
  · rintro (⟨rfl, rfl, live, found⟩ | ⟨apart, live, room, found, here⟩)
    · obtain ⟨room, found⟩ := Option.isSome_iff_exists.mp found
      refine ⟨live, _, modify_of_some found, ?_⟩
      rw [Room.setPlayer_player, if_pos rfl]
    · by_cases same : x.room = y.room
      · refine ⟨live, room.setPlayer y.no a, ?_, ?_⟩
        · rw [same] at found ⊢
          exact modify_of_some found
        · rw [Room.setPlayer_player, if_neg, here]
          intro seat
          exact apart (congrArg₂ SeatPtr.mk same seat)
      · exact ⟨live, room, (modify_of_ne same).trans found, here⟩

/-- Who sits where after a player has turned to a seat, or to none. -/
theorem sits_modifyPlayer (change : Player → Player) {seat : Option SeatPtr}
    (turns : ∀ p, (change p).seat = seat) :
    Sits (s.modifyPlayer a change) b x ↔
      b = a ∧ seat = some x ∧ (s.players a).isSome ∨ b ≠ a ∧ Sits s b x := by
  constructor
  · rintro ⟨p, found, seated⟩
    obtain ⟨rfl, old, there, rfl⟩ | ⟨apart, there⟩ := modify_eq_some_iff.mp found
    · exact .inl ⟨rfl, (turns old).symm.trans seated, Option.isSome_iff_exists.mpr ⟨old, there⟩⟩
    · exact .inr ⟨apart, p, there, seated⟩
  · rintro (⟨rfl, rfl, found⟩ | ⟨apart, p, found, seated⟩)
    · obtain ⟨p, found⟩ := Option.isSome_iff_exists.mp found
      exact ⟨_, modify_of_some found, turns p⟩
    · exact ⟨p, (modify_of_ne apart).trans found, seated⟩

/-- A player is put into a seat of the room only. -/
theorem Room.inside_setPlayer (inside : ∀ {no}, room.occupied no → no ∈ room.seatNos)
    (fits : a ≠ 0 → no ∈ room.seatNos) (occupied : (room.setPlayer no a).occupied other) :
    other ∈ (room.setPlayer no a).seatNos := by
  show other ∈ room.seatNos
  rw [Room.occupied, Room.setPlayer_player, decide_eq_true_eq] at occupied
  split at occupied
  case isTrue same => exact same ▸ fits occupied
  case isFalse apart =>
    refine inside ?_
    rw [Room.occupied, decide_eq_true_eq]
    exact occupied

/-- Where a seat of a room is given to a player or cleared. -/
theorem Switch.inside_setPlayer {y : SeatPtr}
    (inside : ∀ {r room no}, s.rooms r = some room → room.occupied no → no ∈ room.seatNos)
    (fits : a ≠ 0 → ∀ room, s.rooms y.room = some room → y.no ∈ room.seatNos)
    (found : (s.modifyRoom y.room (.setPlayer y.no a)).rooms r = some room)
    (occupied : room.occupied no) : no ∈ room.seatNos := by
  obtain ⟨-, old, there, rfl⟩ | ⟨-, there⟩ := modify_eq_some_iff.mp found
  · exact old.inside_setPlayer (inside there) (fun live => fits live old there) occupied
  · exact inside there occupied

/-- The seat of a player is cleared. -/
theorem Linked.clear (linked : Linked s) (sits : Sits s a x) :
    LinkedBut (s.modifyRoom x.room (.setPlayer x.no 0)) a where
  symmetric := by
    intro b y apart
    rw [Switch.holds_setPlayer]
    constructor
    · intro sits'
      have holds := linked.symmetric.mp sits'
      refine .inr ⟨?_, holds⟩
      rintro rfl
      exact apart (holds.unique (linked.symmetric.mp sits))
    · rintro (⟨-, null, live, -⟩ | ⟨-, holds⟩)
      · exact absurd null live
      · exact linked.symmetric.mpr holds
  free := by
    intro y
    rw [Switch.holds_setPlayer]
    rintro (⟨-, null, live, -⟩ | ⟨apart, holds⟩)
    · exact live null
    · exact apart ((linked.symmetric.mpr holds).unique sits)
  inside := Switch.inside_setPlayer linked.inside fun live => absurd rfl live
  null := linked.null

/-- A player that is not seated may get up. -/
theorem LinkedBut.stand (linked : LinkedBut s a) (change : Player → Player)
    (stands : ∀ p, (change p).seat = none) : Linked (s.modifyPlayer a change) where
  symmetric := by
    intro b x
    rw [sits_modifyPlayer change stands]
    constructor
    · rintro (⟨-, seated, -⟩ | ⟨apart, sits⟩)
      · cases seated
      · exact (linked.symmetric apart).mp sits
    · intro holds
      have apart : b ≠ a := by
        rintro rfl
        exact linked.free holds
      exact .inr ⟨apart, (linked.symmetric apart).mpr holds⟩
  inside := linked.inside
  null := by
    show modify s.players a change 0 = none
    rw [← Option.isNone_iff_eq_none, ← Option.not_isSome, isSome_modify, linked.null]
    decide

/-- An empty seat holds nobody. -/
theorem not_holds_of_empty (here : s.rooms x.room = some room)
    (empty : room.occupied x.no = false) : ¬ Holds s x a := by
  rintro ⟨live, room', found, same⟩
  rw [here] at found
  cases found
  rw [Room.occupied, decide_eq_false_iff_not, not_not] at empty
  exact live (same.symm.trans empty)

/-- A player without a seat takes an empty one. -/
theorem LinkedBut.takeSeat (linked : LinkedBut s a) (found : s.players a = some p)
    (here : s.rooms there.room = some room) (fits : there.no ∈ room.seatNos)
    (empty : room.occupied there.no = false) : Linked (s.takeSeat a there) where
  symmetric := by
    intro b x
    have live : a ≠ 0 := by
      rintro rfl
      rw [linked.null] at found
      cases found
    have sitting : Sits (s.takeSeat a there) b x ↔ _ :=
      sits_modifyPlayer (fun p => { p with seat := some there }) fun _ => rfl
    have holding : Holds (s.takeSeat a there) x b ↔ _ := Switch.holds_setPlayer
    rw [sitting, holding]
    constructor
    · rintro (⟨rfl, same, -⟩ | ⟨apart, sits⟩)
      · exact .inl ⟨(Option.some.inj same).symm, rfl, live, Option.isSome_iff_exists.mpr ⟨_, here⟩⟩
      · have holds := (linked.symmetric apart).mp sits
        refine .inr ⟨?_, holds⟩
        rintro rfl
        exact not_holds_of_empty here empty holds
    · rintro (⟨rfl, rfl, -, -⟩ | ⟨-, holds⟩)
      · exact .inl ⟨rfl, rfl, Option.isSome_iff_exists.mpr ⟨_, found⟩⟩
      · have apart : b ≠ a := by
          rintro rfl
          exact linked.free holds
        exact .inr ⟨apart, (linked.symmetric apart).mpr holds⟩
  inside := by
    refine Switch.inside_setPlayer linked.inside fun _ room' found' => ?_
    have same := here.symm.trans found'
    cases same
    exact fits
  null := by
    show modify s.players a _ 0 = none
    rw [← Option.isNone_iff_eq_none, ← Option.not_isSome, isSome_modify, linked.null]
    decide

/-- A player that has no seat is on none. -/
theorem Linked.but (linked : Linked s) (unseated : ∀ {x}, ¬ Sits s a x) : LinkedBut s a where
  symmetric _ := linked.symmetric
  free holds := unseated (linked.symmetric.mpr holds)
  inside := linked.inside
  null := linked.null

/-! ## Operations -/

namespace Linked

/-- Both ends of the link are cut. -/
theorem playerLeaveSeat (linked : Linked s) (a : Addr) : Linked (s.playerLeaveSeat a) := by
  rw [Switch.playerLeaveSeat]
  split
  · exact linked
  case _ seat seated =>
    obtain ⟨p, found, seated⟩ := Option.bind_eq_some_iff.mp seated
    have left := (linked.clear ⟨p, found, seated⟩).stand
      (fun p => { p with seat := none, status := .idle }) fun _ => rfl
    dsimp only
    split
    · exact left
    · split
      · exact left.sameSeats (.closeRoom _ seat.room)
      · exact left.sameSeats (.newOwner _ seat.room)

/-- The old link is cut and the new one made at both ends. -/
theorem playerSitDown (linked : Linked s) (fits : Fits s (.act (.sitDown a there))) :
    Linked (s.playerSitDown a there) := by
  obtain ⟨⟨p, found, inRoom⟩, room, here, inside, empty⟩ := fits
  rw [Switch.playerSitDown]
  split
  · exact linked
  · cases seated : p.seat with
    | none =>
      rw [found, Option.bind_some, seated]
      have unseated : ∀ {x}, ¬ Sits s a x := by
        rintro x ⟨q, found', seated'⟩
        rw [found] at found'
        cases found'
        rw [seated] at seated'
        cases seated'
      exact (linked.but unseated).takeSeat found here inside empty
    | some seat =>
      rw [found, Option.bind_some, seated]
      have cleared := linked.clear ⟨p, found, seated⟩
      have same := inRoom seat seated
      have here' : (s.modifyRoom seat.room (.setPlayer seat.no 0)).rooms there.room =
          some (room.setPlayer seat.no 0) := by
        rw [← same] at here ⊢
        exact modify_of_some here
      refine cleared.takeSeat found here' inside ?_
      rw [Room.occupied, decide_eq_false_iff_not, not_not] at empty ⊢
      rw [Room.setPlayer_player, empty, ite_self]

/-- A player on a seat that is deleted refers to it, and leaves. -/
theorem delSeat_eq (linked : Linked s) (r : Addr) (no : SeatNo) :
    s.delSeat r no = s ∨
      ∃ a, Sits s a ⟨r, no⟩ ∧ s.delSeat r no = s.playerLeaveSeat a := by
  rw [Switch.delSeat]
  split
  · exact .inl rfl
  case _ room here =>
    split
    · exact .inl rfl
    case _ p found =>
      have live : (room.seats no).player ≠ 0 := by
        intro null
        rw [null, linked.null] at found
        cases found
      obtain ⟨q, found', seated⟩ := linked.symmetric.mpr
        (show Holds s ⟨r, no⟩ _ from ⟨live, room, here, rfl⟩)
      rw [found] at found'
      cases found'
      rw [seated]
      exact .inr ⟨_, ⟨p, found, seated⟩, rfl⟩

/-- Whoever sits in a seat that is taken away gets up first. -/
theorem delSeat (linked : Linked s) (r : Addr) (no : SeatNo) : Linked (s.delSeat r no) := by
  obtain same | ⟨a, -, leaves⟩ := linked.delSeat_eq r no
  · rw [same]
    exact linked
  · rw [leaves]
    exact linked.playerLeaveSeat a

end Linked

/-- The seats after a player has left: its own is empty. -/
theorem holds_playerLeaveSeat : Holds (s.playerLeaveSeat a) x b ↔ ¬ Sits s a x ∧ Holds s x b := by
  rw [Switch.playerLeaveSeat]
  split
  case _ unseated =>
    refine (and_iff_right ?_).symm
    rintro ⟨p, found, seated⟩
    rw [found, Option.bind_some, seated] at unseated
    cases unseated
  case _ seat seated =>
    obtain ⟨p, found, seated⟩ := Option.bind_eq_some_iff.mp seated
    have left : Holds ((s.modifyRoom seat.room (.setPlayer seat.no 0)).modifyPlayer a
        fun p => { p with seat := none, status := .idle }) x b ↔ ¬ Sits s a x ∧ Holds s x b := by
      refine (Switch.holds_setPlayer (s := s) (y := seat)).trans ?_
      constructor
      · rintro (⟨-, null, live, -⟩ | ⟨apart, holds⟩)
        · exact absurd null live
        · exact ⟨fun sits => apart (sits.unique ⟨p, found, seated⟩), holds⟩
      · rintro ⟨unseated, holds⟩
        refine .inr ⟨?_, holds⟩
        rintro rfl
        exact unseated ⟨p, found, seated⟩
    dsimp only
    split
    · exact left
    · split
      · exact (SameSeats.closeRoom _ seat.room).holds.trans left
      · exact (SameSeats.newOwner _ seat.room).holds.trans left

/-! ## Deletion -/

/-- Players only get up. -/
def GetUp (s s' : Switch) : Prop := ∀ x a, Holds s' x a → Holds s x a

/-- A seat taken away seats nobody. -/
theorem GetUp.delSeat (s : Switch) (r : Addr) (no : SeatNo) : GetUp s (s.delSeat r no) := by
  intro x b
  rw [Switch.delSeat]
  split
  · exact id
  · split
    · exact id
    · split
      · exact fun holds => (holds_playerLeaveSeat.mp holds).2
      · intro holds
        obtain ⟨-, null, live, -⟩ | ⟨-, holds⟩ :=
          (Switch.holds_setPlayer (s := s) (y := ⟨r, no⟩)).mp holds
        · exact absurd null live
        · exact holds

/-- A seat that is deleted is empty. -/
theorem Linked.not_holds_delSeat (linked : Linked s) (r : Addr) (no : SeatNo) (a : Addr) :
    ¬ Holds (s.delSeat r no) ⟨r, no⟩ a := by
  intro holds
  have before := GetUp.delSeat s r no _ a holds
  obtain ⟨p, found, seated⟩ := linked.symmetric.mpr before
  obtain ⟨-, room, here, same⟩ := before
  rw [Switch.delSeat, here] at holds
  dsimp only at holds
  rw [same, found] at holds
  dsimp only at holds
  rw [seated, if_pos Option.isSome_some] at holds
  exact (holds_playerLeaveSeat.mp holds).1 ⟨p, found, seated⟩

/-- The seats of a room that is deleted are empty before it goes. -/
theorem Linked.delSeats (linked : Linked s) (r : Addr) (seats : List SeatNo) :
    Linked (seats.foldl (Switch.delSeat · r) s) ∧
      ∀ no a, Holds (seats.foldl (Switch.delSeat · r) s) ⟨r, no⟩ a →
        no ∉ seats ∧ Holds s ⟨r, no⟩ a := by
  induction seats generalizing s with
  | nil => exact ⟨linked, fun no a holds => ⟨List.not_mem_nil, holds⟩⟩
  | cons first rest ih =>
    obtain ⟨after, empty⟩ := ih (linked.delSeat r first)
    refine ⟨after, fun no a holds => ?_⟩
    obtain ⟨later, holds⟩ := empty no a holds
    refine ⟨fun listed => ?_, GetUp.delSeat s r first _ a holds⟩
    obtain rfl | listed := List.mem_cons.mp listed
    · exact linked.not_holds_delSeat r no a holds
    · exact later listed

/-- A room without players goes. -/
theorem Linked.release (linked : Linked s) (vacant : ∀ x a, Holds s x a → x.room ≠ r) :
    Linked { s with rooms := Function.update s.rooms r none } := by
  have gone : ∀ {r' room}, Function.update s.rooms r none r' = some room ↔
      r' ≠ r ∧ s.rooms r' = some room := by
    intro r' room
    obtain rfl | apart := eq_or_ne r' r
    · simp
    · simp [apart]
  refine ⟨?_, fun found => linked.inside (gone.mp found).2, linked.null⟩
  intro a x
  refine linked.symmetric.trans ⟨fun holds => ?_, fun holds => ?_⟩
  · obtain ⟨live, room, found, same⟩ := id holds
    exact ⟨live, room, gone.mpr ⟨vacant x a holds, found⟩, same⟩
  · obtain ⟨live, room, found, same⟩ := holds
    exact ⟨live, room, (gone.mp found).2, same⟩

/-- A room goes after everyone in it got up. -/
theorem Linked.delRoom (linked : Linked s) (r : Addr) : Linked (s.delRoom r) := by
  rw [Switch.delRoom]
  cases here : s.rooms r with
  | none => exact linked
  | some room =>
    dsimp only
    obtain ⟨after, empty⟩ := linked.delSeats r room.seatNos
    have vacant : ∀ x a, Holds (room.seatNos.foldl (Switch.delSeat · r) s) x a → x.room ≠ r := by
      rintro ⟨r', no⟩ a holds rfl
      obtain ⟨outside, live, room', found, same⟩ := empty no a holds
      rw [here] at found
      cases found
      refine outside (linked.inside here ?_)
      rw [Room.occupied, same, decide_eq_true_eq]
      exact live
    generalize room.seatNos.foldl (Switch.delSeat · r) s = s' at after vacant
    have unreg : SameSeats s' (s'.unregRoom r) := by
      rw [Switch.unregRoom]
      split <;> exact ⟨fun _ => rfl, fun _ => rfl⟩
    exact (after.sameSeats unreg).release fun x a holds => vacant x a (unreg.holds.mp holds)

namespace Linked

/-- The rooms of a map go one after another. -/
theorem releaseRoomMap (linked : Linked s) (o : Addr) (no : RoomMapNo) :
    Linked (s.releaseRoomMap o no) := by
  rw [Switch.releaseRoomMap]
  split
  · exact linked
  case _ online _ =>
    have deleted : ∀ (rooms : List Addr) {s : Switch}, Linked s →
        Linked (rooms.foldl Switch.delRoom s) := by
      intro rooms
      induction rooms with
      | nil => exact fun linked => linked
      | cons r rest ih => exact fun linked => ih (linked.delRoom r)
    exact (deleted _ linked).sameSeats ⟨fun _ => rfl, fun _ => rfl⟩

/-- A server goes with its rooms and players. -/
theorem delOnline (linked : Linked s) (o : Addr) : Linked (s.delOnline o) := by
  cases here : s.onlines o with
  | none =>
    rw [Switch.delOnline, here]
    exact linked
  | some online =>
    rw [Switch.delOnline_of_some here]
    have released : ∀ (maps : List RoomMapNo) {s : Switch}, Linked s →
        Linked (maps.foldl (Switch.releaseRoomMap · o) s) := by
      intro maps
      induction maps with
      | nil => exact fun linked => linked
      | cons no rest ih => exact fun linked => ih (linked.releaseRoomMap o no)
    have without : Linked (s.withoutRooms o) := released _ linked
    exact without.sameSeats ⟨fun _ => rfl, fun _ => rfl⟩

/-- Whoever left a seat sits nowhere. -/
theorem unseated_playerLeaveSeat (linked : Linked s) (a : Addr) (x : SeatPtr) :
    ¬ Sits (s.playerLeaveSeat a) a x := by
  intro sits
  have holds := (linked.playerLeaveSeat a).symmetric.mp sits
  obtain ⟨unseated, before⟩ := holds_playerLeaveSeat.mp holds
  exact unseated (linked.symmetric.mpr before)

/-- A player goes after getting up. -/
theorem delPlayer (linked : Linked s) (a : Addr) : Linked (s.delPlayer a) := by
  cases found : s.players a with
  | none =>
    rw [Switch.delPlayer, found]
    exact linked
  | some p =>
    rw [Switch.delPlayer_of_some found]
    have unreg : Linked (s.unregPlayer p) := linked.sameSeats ⟨fun _ => rfl, fun _ => rfl⟩
    have left := unreg.playerLeaveSeat a
    have unseated := unreg.unseated_playerLeaveSeat a
    refine ⟨?_, left.inside, ?_⟩
    · intro b x
      refine Iff.trans ?_ left.symmetric
      constructor
      · rintro ⟨q, there, seated⟩
        have apart : b ≠ a := by
          rintro rfl
          cases (Function.update_self ..).symm.trans there
        exact ⟨q, (Function.update_of_ne apart ..).symm.trans there, seated⟩
      · rintro ⟨q, there, seated⟩
        have apart : b ≠ a := by
          rintro rfl
          exact unseated x ⟨q, there, seated⟩
        exact ⟨q, (Function.update_of_ne apart ..).trans there, seated⟩
    · dsimp only
      obtain rfl | apart := eq_or_ne a 0
      · exact Function.update_self ..
      · exact (Function.update_of_ne apart.symm ..).trans left.null

/-- The old player of a login gets up and goes. -/
theorem delOldPlayer (linked : Linked s) (pkg : Pkg) : Linked (s.delOldPlayer pkg) := by
  rw [Switch.delOldPlayer]
  cases s.getPlayer pkg.id pkg.roleTm with
  | none => exact linked
  | some old => exact linked.delPlayer old

/-! ## New players and rooms -/

/-- A new player sits nowhere. -/
theorem addPlayer (linked : Linked s) (fresh : Fresh s mem) (uid : UInt32) (roleTm : Int32) :
    Linked (s.addPlayer mem o uid roleTm) := by
  have free := Option.isNone_iff_eq_none.mp fresh.2.1
  refine ⟨?_, linked.inside, ?_⟩
  · intro a x
    refine Iff.trans ?_ linked.symmetric
    constructor
    · rintro ⟨q, there, seated⟩
      have apart : a ≠ mem := by
        rintro rfl
        cases (Function.update_self ..).symm.trans there
        cases seated
      exact ⟨q, (Function.update_of_ne apart ..).symm.trans there, seated⟩
    · rintro ⟨q, there, seated⟩
      have apart : a ≠ mem := by
        rintro rfl
        rw [free] at there
        cases there
      exact ⟨q, (Function.update_of_ne apart ..).trans there, seated⟩
  · exact (Function.update_of_ne fresh.1.symm ..).trans linked.null

/-- A room is made with empty seats. -/
theorem enter (linked : Linked s) (fresh : Fresh s mem) (new : Room)
    (empty : ∀ no, (new.seats no).player = 0) :
    Linked { s with rooms := Function.update s.rooms mem (some new) } := by
  have rooms : ∀ {r room}, Function.update s.rooms mem (some new) r = some room ↔
      r = mem ∧ new = room ∨ s.rooms r = some room := by
    intro r room
    obtain rfl | apart := eq_or_ne r mem
    · simp [Option.isNone_iff_eq_none.mp fresh.2.2.1]
    · simp [apart]
  refine ⟨?_, ?_, linked.null⟩
  · intro a x
    refine linked.symmetric.trans ⟨?_, ?_⟩
    · rintro ⟨live, room, found, same⟩
      exact ⟨live, room, rooms.mpr (.inr found), same⟩
    · rintro ⟨live, room, found, same⟩
      obtain ⟨-, rfl⟩ | found := rooms.mp found
      · exact absurd (same.symm.trans (empty x.no)) live
      · exact ⟨live, room, found, same⟩
  · intro r room no found occupied
    obtain ⟨-, rfl⟩ | found := rooms.mp found
    · rw [Room.occupied, decide_eq_true_eq] at occupied
      exact absurd (empty no) occupied
    · exact linked.inside found occupied

/-- The owner of a new room is seated in it. -/
theorem addRoom {owner : Addr} (linked : Linked s) (fresh : Fresh s mem)
    (here : s.players owner = some p) (unseated : p.seat = none) (type : RoomType)
    (mode : RoomMode) (name pass : String) (mapid maplv : Nat) :
    Linked (s.addRoom mem o owner type mode name pass mapid maplv) := by
  have entered := linked.enter fresh ⟨getNextRoomId s.roomIdGenerator, name, pass, type, mode,
    .idle, owner, o, maplv, mapid, fun _ => ⟨false, 0⟩⟩ fun _ => rfl
  refine Linked.playerSitDown (entered.sameSeats ⟨fun _ => rfl, fun _ => rfl⟩)
    ⟨⟨p, here, fun seat seated => ?_⟩, _, Function.update_self .., Room.first_mem_seatNos _, rfl⟩
  rw [unseated] at seated
  cases seated

/-- A new server seats nobody. -/
theorem addOnline (linked : Linked s) (mem : Addr) (fd olid : Nat) :
    Linked ((s.addOnline mem fd olid).getD s) := by
  rw [Switch.addOnline]
  split
  · exact linked
  · exact linked.sameSeats ⟨fun _ => rfl, fun _ => rfl⟩

/-- Every action that fits keeps the links. -/
theorem perform (linked : Linked s) {action : Action} (fits : Fits s (.act action)) :
    Linked (s.perform action) := by
  cases action with
  | nothing => exact linked
  | skipRoomId => exact linked.sameSeats ⟨fun _ => rfl, fun _ => rfl⟩
  | addRoom mem o owner mode name pass mapid maplv =>
    obtain ⟨fresh, -, ⟨p, here, unseated⟩, -⟩ := fits
    exact linked.addRoom fresh here unseated .pvp mode name pass mapid maplv
  | leaveSeat a => exact linked.playerLeaveSeat a
  | sitDown a there => exact linked.playerSitDown fits
  | setOnoff r no onoff => exact linked.sameSeats (.setOnoff s r no onoff)
  | setStatus a status => exact linked.sameSeats ⟨fun _ => map_modify fun _ => rfl, fun _ => rfl⟩
  | updateAttr r name pass mapid maplv => exact linked.sameSeats (.modifyRoom s r _ fun _ => rfl)
  | switchStatus r status => exact linked.sameSeats (.pvpRoomSwitchStatus s r status)
  | delPlayer a => exact linked.delPlayer a

/-- Every effect that fits keeps the links. -/
theorem apply (linked : Linked s) {effect : Effect} (fits : Fits s effect) :
    Linked (s.apply effect) := by
  cases effect with
  | act action => exact linked.perform fits
  | enterHall o mem pkg => exact (linked.delOldPlayer pkg).addPlayer fits.1 pkg.id pkg.roleTm
  | addOnline mem fd olid => exact linked.addOnline mem fd olid
  | closedRooms => exact s.procClosedRooms_keeps (fun r linked => linked.delRoom r) linked
  | delOnline o => exact linked.delOnline o

/-- Nobody sits anywhere at the start. -/
theorem init : Linked Switch.init where
  symmetric := by
    intro a x
    constructor
    · rintro ⟨p, found, -⟩
      cases found
    · rintro ⟨-, room, found, -⟩
      cases found
  inside found := by cases found
  null := rfl

/-- Every event keeps the links between players and seats. -/
theorem step {event : Event} (linked : Linked s) (allocates : Allocates s event) :
    Linked (step s event) :=
  step_invariant (fun quiet holds => holds.sameSeats (.of_quiet quiet))
    (fun _ before fits => before.apply fits) linked allocates

end Linked

end Taomee.BattleSwitch
