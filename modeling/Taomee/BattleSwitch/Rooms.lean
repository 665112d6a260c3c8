import Taomee.BattleSwitch.Onlines
import Taomee.Library.Runs

/-!
# The battle switch: the maps of rooms

A room is meant to be in the map of its online server that its type and status select, and in no
other. It gets there when it is made, moves when it is closed, and goes with its memory.
-/

namespace Taomee.BattleSwitch

open Records Runs

variable {s s' t : Switch} {a mem o r x : Addr} {k : Nat} {no : RoomMapNo} {room : Room}
  {online : Online} {room' : Room}

/-- Where a room belongs. -/
structure Room.FiledAs (room : Room) (o : Addr) (no : RoomMapNo) (k : Nat) : Prop where
  online : room.online = o
  id : room.id = k
  map : getRoomMap room.type room.status = no

/-- A live room that belongs there. -/
def Files (s : Switch) (o : Addr) (no : RoomMapNo) (k : Nat) (r : Addr) : Prop :=
  ∃ room, s.rooms r = some room ∧ room.FiledAs o no k

/-- The maps of rooms hold the live rooms, each where it belongs. -/
structure RoomsFiled (s : Switch) : Prop where
  filed : ∀ {o online no k r}, s.onlines o = some online →
    ((online.roomMap no)[k]? = some r ↔ Files s o no k r)
  hosted : ∀ {r room}, s.rooms r = some room → (s.onlines room.online).isSome
  unique : ∀ {r r' room room'}, s.rooms r = some room → s.rooms r' = some room' →
    room.online = room'.online → room.id = room'.id → r = r'

/-- Only closed rooms are filed under the closed ones. -/
theorem getRoomMap_eq_closed {type : RoomType} {status : RoomStatus} :
    getRoomMap type status = .closed ↔ status = .closed := by
  cases type <;> cases status <;> decide

/-- A room inserted at a free id is found there, the others as before. -/
theorem Online.insertRoom_eq_some_iff {no' : RoomMapNo} {id : Nat}
    (free : (online.roomMap no)[id]? = none) :
    ((online.insertRoom no id r).roomMap no')[k]? = some x ↔
      x = r ∧ no' = no ∧ id = k ∨ (online.roomMap no')[k]? = some x := by
  show (Function.update online.roomMap no ((online.roomMap no).insertIfNew id r) no')[k]? = _ ↔ _
  obtain rfl | apart := eq_or_ne no' no
  · rw [Function.update_self, PtrMap.insertIfNew_eq_some_iff free]
    simp
  · simp [apart]

/-- An erased id is found no more, the others as before. -/
theorem Online.eraseRoom_eq_some_iff {no' : RoomMapNo} {id : Nat} :
    ((online.eraseRoom no id).roomMap no')[k]? = some x ↔
      ¬ (no' = no ∧ id = k) ∧ (online.roomMap no')[k]? = some x := by
  show (Function.update online.roomMap no ((online.roomMap no).erase id) no')[k]? = _ ↔ _
  obtain rfl | apart := eq_or_ne no' no
  · rw [Function.update_self, PtrMap.erase_eq_some_iff]
    simp
  · simp [apart]

/-! ## What does not concern the maps -/

/-- What decides where a room belongs. -/
def Room.filing (room : Room) : Addr × Nat × RoomType × RoomStatus :=
  (room.online, room.id, room.type, room.status)

/-- The maps, and where the rooms belong, are the same. -/
structure SameFiling (s s' : Switch) : Prop where
  rooms : ∀ r, (s'.rooms r).map Room.filing = (s.rooms r).map Room.filing
  onlines : ∀ o, (s'.onlines o).map Online.roomMap = (s.onlines o).map Online.roomMap

namespace SameFiling

theorem refl (s : Switch) : SameFiling s s := ⟨fun _ => rfl, fun _ => rfl⟩

theorem symm (same : SameFiling s s') : SameFiling s' s where
  rooms r := (same.rooms r).symm
  onlines o := (same.onlines o).symm

theorem trans (first : SameFiling s s') (second : SameFiling s' t) : SameFiling s t where
  rooms r := (second.rooms r).trans (first.rooms r)
  onlines o := (second.onlines o).trans (first.onlines o)

/-- A change of a room that keeps what it is filed under keeps the filing. -/
theorem modifyRoom (s : Switch) (r : Addr) (change : Room → Room)
    (keeps : ∀ room, (change room).filing = room.filing) : SameFiling s (s.modifyRoom r change) :=
  ⟨fun _ => map_modify keeps, fun _ => rfl⟩

/-- Quiet steps file nothing. -/
theorem of_quiet (quiet : Quiet s s') : SameFiling s s' where
  rooms r := by rw [quiet.rooms]
  onlines o := by rw [quiet.onlines]

/-- Seats are no part of the filing. -/
theorem takeSeat (s : Switch) (a : Addr) (there : SeatPtr) : SameFiling s (s.takeSeat a there) :=
  ⟨fun _ => map_modify fun _ => rfl, fun _ => rfl⟩

/-- Sitting down files nothing. -/
theorem playerSitDown (s : Switch) (a : Addr) (there : SeatPtr) :
    SameFiling s (s.playerSitDown a there) := by
  rw [Switch.playerSitDown]
  split
  · exact refl s
  · split
    · exact takeSeat s a there
    · exact (modifyRoom s _ (.setPlayer _ 0) fun _ => rfl).trans (takeSeat _ a there)

/-- Every room is still there, filed as before. -/
theorem exists_room (same : SameFiling s s') (found : s.rooms r = some room) :
    ∃ room', s'.rooms r = some room' ∧ room'.filing = room.filing := by
  have view := same.rooms r
  rw [found, Option.map_some] at view
  exact Option.map_eq_some_iff.mp view

/-- Every server is still there, with the same maps. -/
theorem exists_online (same : SameFiling s s') (found : s.onlines o = some online) :
    ∃ online', s'.onlines o = some online' ∧ online'.roomMap = online.roomMap := by
  have view := same.onlines o
  rw [found, Option.map_some] at view
  exact Option.map_eq_some_iff.mp view

end SameFiling

/-- What a room is filed under is all that counts. -/
theorem Room.FiledAs.congr (filed : room.FiledAs o no k) (same : room'.filing = room.filing) :
    room'.FiledAs o no k where
  online := (congrArg (·.1) same).trans filed.online
  id := (congrArg (·.2.1) same).trans filed.id
  map := by
    rw [show room'.type = room.type from congrArg (·.2.2.1) same,
      show room'.status = room.status from congrArg (·.2.2.2) same]
    exact filed.map

/-- The same rooms are filed at the same places. -/
theorem SameFiling.files (same : SameFiling s s') : Files s' o no k r ↔ Files s o no k r := by
  have carry : ∀ {s s' : Switch}, SameFiling s s' → Files s o no k r → Files s' o no k r := by
    rintro s s' same ⟨room, found, filed⟩
    obtain ⟨room', found', filing⟩ := same.exists_room found
    exact ⟨room', found', filed.congr filing⟩
  exact ⟨carry same.symm, carry same⟩

/-- Steps that keep the filing keep it right. -/
theorem RoomsFiled.sameFiling (before : RoomsFiled s) (same : SameFiling s s') : RoomsFiled s' where
  filed := by
    intro o online no k r found
    obtain ⟨old, there, map⟩ := same.symm.exists_online found
    rw [same.files, ← map]
    exact before.filed there
  hosted := by
    intro r room found
    obtain ⟨room', there, filing⟩ := same.symm.exists_room found
    have hosted := before.hosted there
    rw [show room'.online = room.online from congrArg (·.1) filing] at hosted
    obtain ⟨online, here⟩ := Option.isSome_iff_exists.mp hosted
    obtain ⟨online', after, -⟩ := same.exists_online here
    rw [after]
    rfl
  unique := by
    intro r r' room room' found found' online id
    obtain ⟨old, there, filing⟩ := same.symm.exists_room found
    obtain ⟨old', there', filing'⟩ := same.symm.exists_room found'
    refine before.unique there there' ?_ ?_
    · exact (congrArg (·.1) filing).trans (online.trans (congrArg (·.1) filing').symm)
    · exact (congrArg (·.2.1) filing).trans (id.trans (congrArg (·.2.1) filing').symm)

/-! ## Rooms close and go -/

/-- What stays of a room when it is closed. -/
def Room.base (room : Room) : Addr × Nat × RoomType := (room.online, room.id, room.type)

/-- A room that is left is an old one, as it was or closed. -/
structure Room.Became (room room' : Room) : Prop where
  base : room'.base = room.base
  status : room'.status = room.status ∨ room'.status = .closed

/-- Rooms are closed or deleted, and the maps follow. -/
structure Wanes (s s' : Switch) : Prop where
  filed : RoomsFiled s → RoomsFiled s'
  rooms : ∀ {r room'}, s'.rooms r = some room' → ∃ room, s.rooms r = some room ∧ room.Became room'

theorem Room.Became.trans {room'' : Room} (first : room.Became room') (second : room'.Became room'')
    : room.Became room'' where
  base := second.base.trans first.base
  status := second.status.elim (fun same => first.status.imp same.trans same.trans) .inr

/-- A room that keeps its status keeps its place. -/
theorem Room.Became.filing_eq (became : room.Became room') (same : room'.status = room.status) :
    room.filing = room'.filing := by
  obtain ⟨online, rest⟩ := Prod.mk.inj became.base
  obtain ⟨id, type⟩ := Prod.mk.inj rest
  rw [Room.filing, Room.filing, online, id, type, same]

/-- A live room after a change of one. -/
theorem files_modifyRoom {change : Room → Room} (here : s.rooms r = some room) :
    (∃ room', modify s.rooms r change x = some room' ∧ room'.FiledAs o no k) ↔
      x = r ∧ (change room).FiledAs o no k ∨ x ≠ r ∧ Files s o no k x := by
  constructor
  · rintro ⟨room', found, filed⟩
    obtain ⟨rfl, old, there, rfl⟩ | ⟨apart, there⟩ := modify_eq_some_iff.mp found
    · rw [here] at there
      cases there
      exact .inl ⟨rfl, filed⟩
    · exact .inr ⟨apart, room', there, filed⟩
  · rintro (⟨rfl, filed⟩ | ⟨apart, room', there, filed⟩)
    · exact ⟨_, modify_of_some here, filed⟩
    · exact ⟨room', (modify_of_ne apart).trans there, filed⟩

/-- A room that is filed carries the key it is filed under. -/
theorem Files.filedAs (files : Files s o no k r) (here : s.rooms r = some room) :
    room.FiledAs o no k := by
  obtain ⟨room', found, filed⟩ := files
  rw [here] at found
  cases found
  exact filed

/-- Two rooms that are filed under one id are the same. -/
theorem RoomsFiled.eq_of_files {no' : RoomMapNo} (before : RoomsFiled s)
    (here : s.rooms r = some room) (there : Files s room.online no' room.id x) : x = r := by
  obtain ⟨room', found, filed⟩ := there
  exact before.unique found here filed.online filed.id

/-- The entry of a room leads to it. -/
theorem RoomsFiled.entry_iff (before : RoomsFiled s) (here : s.rooms r = some room)
    (files : Files s room.online no k x) :
    no = getRoomMap room.type room.status ∧ room.id = k ↔ x = r := by
  constructor
  · rintro ⟨rfl, rfl⟩
    exact before.eq_of_files here files
  · rintro rfl
    exact ⟨(files.filedAs here).map.symm, (files.filedAs here).id⟩

/-- A room is filed at its own server only. -/
theorem Files.ne (files : Files s o no k x) (here : s.rooms r = some room)
    (other : o ≠ room.online) : x ≠ r := by
  rintro rfl
  exact other (files.filedAs here).online.symm

namespace Wanes

theorem refl (s : Switch) : Wanes s s :=
  ⟨id, fun {_ room} found => ⟨room, found, rfl, .inl rfl⟩⟩

theorem trans (first : Wanes s s') (second : Wanes s' t) : Wanes s t where
  filed before := second.filed (first.filed before)
  rooms found := by
    obtain ⟨room', there, became⟩ := second.rooms found
    obtain ⟨room, here, became'⟩ := first.rooms there
    exact ⟨room, here, became'.trans became⟩

/-- Nothing goes where the filing is the same. -/
theorem of_sameFiling (same : SameFiling s s') : Wanes s s' where
  filed before := before.sameFiling same
  rooms found := by
    obtain ⟨room, there, filing⟩ := same.symm.exists_room found
    refine ⟨room, there, ?_, .inl ?_⟩
    · exact congrArg (fun f : Addr × Nat × RoomType × RoomStatus => (f.1, f.2.1, f.2.2.1))
        filing.symm
    · exact (congrArg (·.2.2.2) filing).symm

/-- Who is hosted where, and under which ids, follows from what the rooms became. -/
theorem of_rooms (onlines : ∀ o, (s'.onlines o).isSome = (s.onlines o).isSome)
    (rooms : ∀ {r room'}, s'.rooms r = some room' →
      ∃ room, s.rooms r = some room ∧ room.Became room')
    (filed : RoomsFiled s → ∀ {o online no k r}, s'.onlines o = some online →
      ((online.roomMap no)[k]? = some r ↔ Files s' o no k r)) : Wanes s s' where
  filed before := by
    refine ⟨filed before, ?_, ?_⟩
    · intro r room' found
      obtain ⟨room, here, became⟩ := rooms found
      rw [onlines, show room'.online = room.online from congrArg (·.1) became.base]
      exact before.hosted here
    · intro r r' room room' found found' online id
      obtain ⟨old, here, became⟩ := rooms found
      obtain ⟨old', here', became'⟩ := rooms found'
      refine before.unique here here' ?_ ?_
      · exact (congrArg (·.1) became.base).symm.trans
          (online.trans (congrArg (·.1) became'.base))
      · exact (congrArg (·.2.1) became.base).symm.trans
          (id.trans (congrArg (·.2.1) became'.base))
  rooms := rooms

/-- A room that closes moves to the closed ones. -/
theorem closeRoom (s : Switch) (r : Addr) : Wanes s (s.closeRoom r) := by
  rw [Switch.closeRoom]
  cases here : s.rooms r with
  | none => exact refl s
  | some room =>
    dsimp only
    split
    · exact refl s
    case isFalse opened =>
      refine of_rooms (fun _ => isSome_modify) ?_ ?_
      · intro x room' found
        obtain ⟨rfl, old, there, rfl⟩ | ⟨apart, there⟩ := modify_eq_some_iff.mp found
        · exact ⟨old, there, rfl, .inr rfl⟩
        · exact ⟨room', there, rfl, .inl rfl⟩
      · intro before o online no k x there
        refine Iff.trans ?_ (files_modifyRoom here).symm
        obtain ⟨rfl, old, found, rfl⟩ | ⟨other, found⟩ := modify_eq_some_iff.mp there
        · have free : ((old.eraseRoom (getRoomMap room.type room.status) room.id).roomMap
              .closed)[room.id]? = none := by
            refine Option.eq_none_iff_forall_ne_some.mpr fun y entry => ?_
            have closed := (before.filed found).mp (Online.eraseRoom_eq_some_iff.mp entry).2
            obtain rfl := before.eq_of_files here closed
            exact opened (getRoomMap_eq_closed.mp (closed.filedAs here).map)
          rw [Online.insertRoom_eq_some_iff free, Online.eraseRoom_eq_some_iff, before.filed found]
          refine or_congr (and_congr_right fun _ => ?_) (and_congr_left fun files => not_congr ?_)
          · exact ⟨fun at' => ⟨rfl, at'.2, at'.1 ▸ getRoomMap_eq_closed.mpr rfl⟩, fun filed =>
            ⟨filed.map.symm.trans (getRoomMap_eq_closed.mpr rfl), filed.id⟩⟩
          · exact before.entry_iff here files
        · rw [before.filed found]
          constructor
          · intro files
            exact .inr ⟨files.ne here other, files⟩
          · rintro (⟨-, filed⟩ | ⟨-, files⟩)
            · exact absurd filed.online.symm other
            · exact files

/-- The last one who leaves closes the room. -/
theorem playerLeaveSeat (s : Switch) (a : Addr) : Wanes s (s.playerLeaveSeat a) := by
  rw [Switch.playerLeaveSeat]
  split
  · exact refl s
  case _ seat _ =>
    have left : SameFiling s ((s.modifyRoom seat.room (.setPlayer seat.no 0)).modifyPlayer a
        fun p => { p with seat := none, status := .idle }) := by
      have moved := SameFiling.modifyRoom s seat.room (.setPlayer seat.no 0) fun _ => rfl
      exact ⟨moved.rooms, moved.onlines⟩
    dsimp only
    split
    · exact of_sameFiling left
    · split
      · exact (of_sameFiling left).trans (closeRoom _ seat.room)
      · exact of_sameFiling (left.trans (.modifyRoom _ seat.room _ fun _ => rfl))

/-- A seat taken away may close the room. -/
theorem delSeat (s : Switch) (r : Addr) (no : SeatNo) : Wanes s (s.delSeat r no) := by
  rw [Switch.delSeat]
  split
  · exact refl s
  · split
    · exact refl s
    · split
      · exact playerLeaveSeat s _
      · exact of_sameFiling (.modifyRoom s r _ fun _ => rfl)

/-- Rooms go one after another. -/
theorem foldl {α : Type} {change : Switch → α → Switch} (keeps : ∀ s x, Wanes s (change s x))
    (s : Switch) (list : List α) : Wanes s (list.foldl change s) := by
  induction list generalizing s with
  | nil => exact refl s
  | cons x rest ih => exact (keeps s x).trans (ih (change s x))

/-- A room goes with its entry. -/
theorem release (s : Switch) (r : Addr) :
    Wanes s { s.unregRoom r with rooms := Function.update (s.unregRoom r).rooms r none } := by
  rw [Switch.unregRoom]
  cases here : s.rooms r with
  | none =>
    dsimp only
    rw [← here, Function.update_eq_self]
    exact refl s
  | some room =>
    have gone : ∀ {x room'}, Function.update s.rooms r none x = some room' ↔
        x ≠ r ∧ s.rooms x = some room' := by
      intro x room'
      obtain rfl | apart := eq_or_ne x r
      · simp
      · simp [apart]
    refine of_rooms (fun _ => isSome_modify) ?_ ?_
    · intro x room' found
      exact ⟨room', (gone.mp found).2, rfl, .inl rfl⟩
    · intro before o online no k x there
      have files : Files { s.modifyOnline room.online
            (.eraseRoom (getRoomMap room.type room.status) room.id) with
          rooms := Function.update s.rooms r none } o no k x ↔ x ≠ r ∧ Files s o no k x := by
        constructor
        · rintro ⟨room', found, filed⟩
          exact ⟨(gone.mp found).1, room', (gone.mp found).2, filed⟩
        · rintro ⟨apart, room', found, filed⟩
          exact ⟨room', gone.mpr ⟨apart, found⟩, filed⟩
      refine Iff.trans ?_ files.symm
      obtain ⟨rfl, old, found, rfl⟩ | ⟨other, found⟩ := modify_eq_some_iff.mp there
      · rw [Online.eraseRoom_eq_some_iff, before.filed found]
        exact and_congr_left fun files => not_congr (before.entry_iff here files)
      · rw [before.filed found]
        exact (and_iff_right_of_imp fun files => files.ne here other).symm

/-- A room that is deleted is taken out of its map first. -/
theorem delRoom (s : Switch) (r : Addr) : Wanes s (s.delRoom r) := by
  rw [Switch.delRoom]
  split
  · exact refl s
  · exact (foldl (fun s no => delSeat s r no) s _).trans (release _ r)

end Wanes

/-- The room is gone. -/
theorem Switch.rooms_delRoom (s : Switch) (r : Addr) : (s.delRoom r).rooms r = none := by
  rw [Switch.delRoom]
  cases here : s.rooms r with
  | none => exact here
  | some room => exact Function.update_self ..

/-! ## Creation -/

/-- All maps are searched. -/
theorem Switch.findRoom_eq_none {id : Nat} (here : s.onlines o = some online)
    (unused : s.findRoom o id = none) (no : RoomMapNo) : (online.roomMap no)[id]? = none := by
  rw [findRoom, here, Option.bind_eq_bind, Option.bind_some] at unused
  simp only [List.findSome?_eq_none_iff, List.forall_mem_cons] at unused
  obtain ⟨idle, asking, fighting, closed, -⟩ := unused
  cases no with
  | idle => exact idle.1
  | asking => exact asking.1
  | fighting => exact fighting.1
  | pveIdle => exact idle.2.1
  | pveAsking => exact asking.2.1
  | pveFighting => exact fighting.2.1
  | closed => exact closed.1

/-- No live room has an id that is not found. -/
theorem RoomsFiled.id_ne {id : Nat} (before : RoomsFiled s) (here : s.onlines o = some online)
    (unused : s.findRoom o id = none) (found : s.rooms r = some room) (at' : room.online = o) :
    room.id ≠ id := by
  intro same
  have entry := (before.filed here).mpr ⟨room, found, at', same, rfl⟩
  rw [Switch.findRoom_eq_none here unused] at entry
  cases entry

/-- A room is filed where it belongs when it is made. -/
theorem RoomsFiled.enter (before : RoomsFiled s) (room : Room) (fresh : Fresh s mem)
    (here : s.onlines room.online = some online) (unused : s.findRoom room.online room.id = none) :
    RoomsFiled ({ s with rooms := Function.update s.rooms mem (some room) }.modifyOnline room.online
      (.insertRoom (getRoomMap room.type room.status) room.id mem)) := by
  have rooms : ∀ {x room'}, Function.update s.rooms mem (some room) x = some room' ↔
      x = mem ∧ room = room' ∨ s.rooms x = some room' := by
    intro x room'
    obtain rfl | apart := eq_or_ne x mem
    · simp [Option.isNone_iff_eq_none.mp fresh.2.2.1]
    · simp [apart]
  refine ⟨?_, ?_, ?_⟩
  · intro o online' no k x there
    have files : (∃ room', Function.update s.rooms mem (some room) x = some room' ∧
        room'.FiledAs o no k) ↔ x = mem ∧ room.FiledAs o no k ∨ Files s o no k x := by
      constructor
      · rintro ⟨room', found, filed⟩
        obtain ⟨rfl, rfl⟩ | found := rooms.mp found
        · exact .inl ⟨rfl, filed⟩
        · exact .inr ⟨room', found, filed⟩
      · rintro (⟨rfl, filed⟩ | ⟨room', found, filed⟩)
        · exact ⟨room, rooms.mpr (.inl ⟨rfl, rfl⟩), filed⟩
        · exact ⟨room', rooms.mpr (.inr found), filed⟩
    refine Iff.trans ?_ files.symm
    obtain ⟨rfl, old, found, rfl⟩ | ⟨other, found⟩ := modify_eq_some_iff.mp there
    · rw [Online.insertRoom_eq_some_iff (Switch.findRoom_eq_none found unused _),
        before.filed found]
      refine or_congr_left (and_congr_right fun _ => ?_)
      exact ⟨fun at' => ⟨rfl, at'.2, at'.1.symm⟩, fun filed => ⟨filed.map.symm, filed.id⟩⟩
    · rw [before.filed found]
      exact (or_iff_right fun new => other new.2.online.symm).symm
  · intro x room' found
    refine isSome_modify.trans ?_
    obtain ⟨-, rfl⟩ | old := rooms.mp found
    · exact Option.isSome_iff_exists.mpr ⟨online, here⟩
    · exact before.hosted old
  · intro x x' room' room'' found found' same id
    obtain ⟨rfl, rfl⟩ | old := rooms.mp found <;> obtain ⟨rfl, rfl⟩ | old' := rooms.mp found'
    · rfl
    · exact absurd id.symm (before.id_ne here unused old' same.symm)
    · exact absurd id (before.id_ne here unused old same)
    · exact before.unique old old' same id

/-- A new room is filed under an id that was not in use. -/
theorem RoomsFiled.addRoom {owner : Addr} (before : RoomsFiled s) (fresh : Fresh s mem)
    (here : s.onlines o = some online)
    (unused : s.findRoom o (getNextRoomId s.roomIdGenerator) = none) (type : RoomType)
    (mode : RoomMode) (name pass : String) (mapid maplv : Nat) :
    RoomsFiled (s.addRoom mem o owner type mode name pass mapid maplv) := by
  refine RoomsFiled.sameFiling ?_ (.playerSitDown _ owner _)
  exact (before.enter ⟨_, name, pass, type, mode, .idle, owner, o, maplv, mapid, _⟩ fresh here
    unused).sameFiling ⟨fun _ => rfl, fun _ => rfl⟩

/-! ## Online servers -/

/-- No room belongs into a map. -/
def Vacant (s : Switch) (o : Addr) (no : RoomMapNo) : Prop := ∀ k r, ¬ Files s o no k r

/-- A map stays empty, unless rooms are closed. -/
theorem Vacant.wanes (empty : Vacant s o no) (opened : no ≠ .closed)
    (wanes : ∀ {r room'}, s'.rooms r = some room' →
      ∃ room, s.rooms r = some room ∧ room.Became room') : Vacant s' o no := by
  rintro k r ⟨room', found, filed⟩
  obtain ⟨room, here, became⟩ := wanes found
  obtain same | closed := became.status
  · exact empty k r ⟨room, here, filed.congr (became.filing_eq same)⟩
  · exact opened (filed.map.symm.trans (getRoomMap_eq_closed.mpr closed))

/-- A room that is gone stays gone. -/
theorem Wanes.gone (wanes : Wanes s s') (gone : s.rooms r = none) : s'.rooms r = none := by
  refine Option.eq_none_iff_forall_ne_some.mpr fun room' found => ?_
  obtain ⟨room, here, -⟩ := wanes.rooms found
  rw [gone] at here
  cases here

/-- Rooms that are deleted one after the other stay gone. -/
theorem Switch.rooms_foldl_delRoom {rooms : List Addr} (listed : r ∈ rooms) (s : Switch) :
    (rooms.foldl delRoom s).rooms r = none := by
  induction rooms generalizing s with
  | nil => exact absurd listed List.not_mem_nil
  | cons x rest ih =>
    obtain rfl | later := List.mem_cons.mp listed
    · exact (Wanes.foldl Wanes.delRoom _ rest).gone (s.rooms_delRoom r)
    · exact ih later (s.delRoom x)

/-- A map is empty once the rooms in it are deleted. -/
theorem RoomsFiled.empty_of_deleted (before : RoomsFiled s) (here : s.onlines o = some online)
    (last : no = .closed → ∀ no', no' ≠ .closed → Vacant s o no') :
    Vacant (((online.roomMap no).toList.map Prod.snd).foldl Switch.delRoom s) o no := by
  rintro k r ⟨room', found, filed⟩
  obtain ⟨room, old, became⟩ := (Wanes.foldl Wanes.delRoom s _).rooms found
  have same : room'.status = room.status := by
    refine became.status.elim id fun closed => closed.trans ?_
    by_contra opened
    have apart : getRoomMap room.type room.status ≠ .closed :=
      fun map => opened (getRoomMap_eq_closed.mp map).symm
    refine last (filed.map.symm.trans (getRoomMap_eq_closed.mpr closed)) _ apart room.id r
      ⟨room, old, ?_, rfl, rfl⟩
    exact (congrArg (·.1) became.base).symm.trans filed.online
  have entry := (before.filed here).mpr ⟨room, old, filed.congr (became.filing_eq same)⟩
  rw [Switch.rooms_foldl_delRoom (PtrMap.mem_values_iff.mpr ⟨k, entry⟩) s] at found
  cases found

/-- The rooms of a map go with it. -/
theorem RoomsFiled.releaseRoomMap (before : RoomsFiled s)
    (last : no = .closed → ∀ no', no' ≠ .closed → Vacant s o no') :
    RoomsFiled (s.releaseRoomMap o no) ∧ Vacant (s.releaseRoomMap o no) o no := by
  rw [Switch.releaseRoomMap]
  cases here : s.onlines o with
  | none =>
    refine ⟨before, ?_⟩
    rintro k r ⟨room, found, filed⟩
    have hosted := before.hosted found
    rw [filed.online, here] at hosted
    cases hosted
  | some online =>
    dsimp only
    have empty := before.empty_of_deleted here last
    have deleted := (Wanes.foldl Wanes.delRoom s ((online.roomMap no).toList.map Prod.snd)).filed
      before
    generalize ((online.roomMap no).toList.map Prod.snd).foldl Switch.delRoom s = s'
      at empty deleted
    refine ⟨⟨?_, fun found => isSome_modify.trans (deleted.hosted found), deleted.unique⟩, empty⟩
    intro o' online' no' k r found
    refine Iff.trans ?_ (Iff.refl (Files s' o' no' k r))
    obtain ⟨rfl, old, there, rfl⟩ | ⟨-, there⟩ := modify_eq_some_iff.mp found
    · rw [← deleted.filed there]
      dsimp only
      obtain rfl | apart := eq_or_ne no' no
      · have gone := mt (deleted.filed there).mp (empty k r)
        simp [gone]
      · rw [Function.update_of_ne apart]
    · exact deleted.filed there

/-- The release of a map closes and deletes rooms. -/
theorem Switch.rooms_releaseRoomMap (found : (s.releaseRoomMap o no).rooms r = some room') :
    ∃ room, s.rooms r = some room ∧ room.Became room' := by
  rw [releaseRoomMap] at found
  cases here : s.onlines o with
  | none =>
    rw [here] at found
    exact ⟨room', found, rfl, .inl rfl⟩
  | some online =>
    rw [here] at found
    exact (Wanes.foldl Wanes.delRoom s _).rooms found

/-- The maps of open rooms are released one after the other. -/
theorem RoomsFiled.releaseRoomMaps (before : RoomsFiled s) (o : Addr) (maps : List RoomMapNo)
    (opened : .closed ∉ maps) : RoomsFiled (maps.foldl (Switch.releaseRoomMap · o) s) ∧
      ∀ no, Vacant s o no ∧ no ≠ .closed ∨ no ∈ maps →
        Vacant (maps.foldl (Switch.releaseRoomMap · o) s) o no := by
  induction maps generalizing s with
  | nil =>
    refine ⟨before, fun no either => ?_⟩
    obtain ⟨empty, -⟩ | listed := either
    · exact empty
    · exact absurd listed List.not_mem_nil
  | cons first rest ih =>
    obtain ⟨other, opened⟩ := not_or.mp (mt List.mem_cons.mpr opened)
    obtain ⟨after, released⟩ := before.releaseRoomMap fun same => absurd same.symm other
    obtain ⟨filed, empty⟩ := ih after opened
    refine ⟨filed, fun no either => empty no ?_⟩
    obtain ⟨before', apart⟩ | listed := either
    · exact .inl ⟨before'.wanes apart Switch.rooms_releaseRoomMap, apart⟩
    · obtain rfl | later := List.mem_cons.mp listed
      · exact .inl ⟨released, fun same => other same.symm⟩
      · exact .inr later

/-- A server goes with all of its rooms. -/
theorem RoomsFiled.delOnline (before : RoomsFiled s) (o : Addr) : RoomsFiled (s.delOnline o) := by
  cases here : s.onlines o with
  | none =>
    rw [Switch.delOnline, here]
    exact before
  | some online =>
    rw [Switch.delOnline_of_some here]
    obtain ⟨after, released⟩ := before.releaseRoomMaps o [.fighting, .asking, .idle, .pveFighting,
      .pveAsking, .pveIdle] (by decide)
    have opened : ∀ no, no ≠ .closed → Vacant ([RoomMapNo.fighting, .asking, .idle, .pveFighting,
        .pveAsking, .pveIdle].foldl (Switch.releaseRoomMap · o) s) o no := by
      intro no apart
      refine released no (.inr ?_)
      cases no <;> first
        | exact absurd rfl apart
        | decide
    have filed : RoomsFiled (s.withoutRooms o) := (after.releaseRoomMap fun _ => opened).1
    have closed : Vacant (s.withoutRooms o) o .closed := (after.releaseRoomMap fun _ => opened).2
    have vacant : ∀ no, Vacant (s.withoutRooms o) o no := by
      intro no
      by_cases apart : no = .closed
      · exact apart ▸ closed
      · exact (opened no apart).wanes apart Switch.rooms_releaseRoomMap
    refine ⟨?_, ?_, filed.unique⟩
    · intro o' online' no k r there
      dsimp only at there
      have apart : o' ≠ o := by
        rintro rfl
        rw [Function.update_self] at there
        cases there
      rw [Function.update_of_ne apart] at there
      exact filed.filed there
    · intro r room found
      have apart : room.online ≠ o := fun same => vacant _ _ r ⟨room, found, same, rfl, rfl⟩
      dsimp only
      rw [Function.update_of_ne apart]
      exact filed.hosted found

/-! ## Runs -/

/-- A room keeps its status when it is to be switched. -/
def KeepsStatus (s : Switch) : Effect → Prop
  | .act (.switchStatus r status) => ∀ room, s.rooms r = some room → room.status = status
  | _ => True

/-- A quiet step does not change which effects keep the status. -/
theorem KeepsStatus.quiet {effect : Effect} (keeps : KeepsStatus s effect) (quiet : Quiet s s') :
    KeepsStatus s' effect := by
  cases effect with
  | act action =>
    cases action with
    | switchStatus r status =>
      intro room found
      rw [quiet.rooms] at found
      exact keeps room found
    | _ => trivial
  | _ => trivial

namespace RoomsFiled

/-- There is no room at the start. -/
theorem init : RoomsFiled Switch.init where
  filed found := by cases found
  hosted found := by cases found
  unique found := by cases found

/-- A player who goes may close its room, which is filed anew. -/
theorem delPlayer (before : RoomsFiled s) (a : Addr) : RoomsFiled (s.delPlayer a) := by
  cases found : s.players a with
  | none =>
    rw [Switch.delPlayer, found]
    exact before
  | some p =>
    rw [Switch.delPlayer_of_some found]
    have unreg : RoomsFiled (s.unregPlayer p) :=
      before.sameFiling ⟨fun _ => rfl, fun _ => map_modify fun _ => rfl⟩
    have left := (Wanes.playerLeaveSeat _ a).filed unreg
    exact left.sameFiling ⟨fun _ => rfl, fun _ => rfl⟩

/-- A login again removes the player as any other departure. -/
theorem delOldPlayer (before : RoomsFiled s) (pkg : Pkg) : RoomsFiled (s.delOldPlayer pkg) := by
  rw [Switch.delOldPlayer]
  cases s.getPlayer pkg.id pkg.roleTm with
  | none => exact before
  | some old => exact before.delPlayer old

/-- A new server has no rooms. -/
theorem addOnline (before : RoomsFiled s) (fresh : Fresh s mem) (fd olid : Nat) :
    RoomsFiled ((s.addOnline mem fd olid).getD s) := by
  rw [Switch.addOnline]
  split
  · exact before
  · have apart : ∀ {r room}, s.rooms r = some room → room.online ≠ mem := by
      rintro r room found rfl
      have hosted := before.hosted found
      rw [Option.isNone_iff_eq_none.mp fresh.2.2.2] at hosted
      cases hosted
    refine ⟨?_, ?_, before.unique⟩
    · intro o online no k r there
      dsimp only [Option.getD_some] at there
      obtain rfl | other := eq_or_ne o mem
      · rw [Function.update_self] at there
        cases there
        constructor
        · intro found
          simp at found
        · rintro ⟨room, found, filed⟩
          exact absurd filed.online (apart found)
      · rw [Function.update_of_ne other] at there
        exact before.filed there
    · intro r room found
      dsimp only [Option.getD_some]
      rw [Function.update_of_ne (apart found)]
      exact before.hosted found

/-- Every action that keeps the status keeps the filing. -/
theorem perform (before : RoomsFiled s) (connected : Connected s) {action : Action}
    (fits : Fits s (.act action)) (keeps : KeepsStatus s (.act action)) :
    RoomsFiled (s.perform action) := by
  cases action with
  | nothing => exact before
  | skipRoomId => exact before.sameFiling ⟨fun _ => rfl, fun _ => rfl⟩
  | addRoom mem o owner mode name pass mapid maplv =>
    obtain ⟨fresh, ⟨fd, connection⟩, -, unused⟩ := fits
    obtain ⟨online, here, -⟩ := connected.online connection
    exact before.addRoom fresh here unused .pvp mode name pass mapid maplv
  | leaveSeat a => exact (Wanes.playerLeaveSeat s a).filed before
  | sitDown a there => exact before.sameFiling (.playerSitDown s a there)
  | setOnoff r no onoff => exact before.sameFiling (.modifyRoom s r _ fun _ => rfl)
  | setStatus a status => exact before.sameFiling ⟨fun _ => rfl, fun _ => rfl⟩
  | updateAttr r name pass mapid maplv => exact before.sameFiling (.modifyRoom s r _ fun _ => rfl)
  | switchStatus r status =>
    have same : s.pvpRoomSwitchStatus r status = s := by
      rw [Switch.pvpRoomSwitchStatus]
      split
      · rfl
      case _ room found => exact if_pos (keeps room found)
    rw [Switch.perform, same]
    exact before
  | delPlayer a => exact before.delPlayer a

/-- Every event that keeps the status keeps the filing. -/
theorem step {event : Event} (before : RoomsFiled s) (connected : Connected s)
    (allocates : Allocates s event) (keeps : KeepsStatus s (effectOf s event)) :
    RoomsFiled (step s event) := by
  refine step_invariant (fun quiet holds => holds.sameFiling (.of_quiet quiet)) ?_ before allocates
  intro s' quiet before fits
  have connected := connected.sameRegistry (.of_quiet quiet)
  have keeps := keeps.quiet quiet
  generalize effectOf s event = effect at fits keeps
  cases effect with
  | act action => exact before.perform connected fits keeps
  | enterHall o mem pkg =>
    have old := before.delOldPlayer pkg
    exact old.sameFiling ⟨fun _ => rfl, fun _ => map_modify fun _ => rfl⟩
  | addOnline mem fd olid => exact before.addOnline fits fd olid
  | closedRooms => exact s'.procClosedRooms_keeps (fun r => (Wanes.delRoom _ r).filed) before
  | delOnline o => exact before.delOnline o

end RoomsFiled

/-- In a run where no room changes its status except to be closed, every live room is in the map
that its type and status select, under its id, and the maps hold nothing else. -/
theorem rooms_filed_of_keeps
    (run : Reaches step (fun s event => Allocates s event ∧ KeepsStatus s (effectOf s event))
      Switch.init s) : RoomsFiled s := by
  have both : Connected s ∧ RoomsFiled s := by
    apply run.invariant
    · exact ⟨.init, .init⟩
    · rintro s event ⟨connected, before⟩ ⟨allocates, keeps⟩
      exact ⟨connected.step allocates, before.step connected allocates keeps⟩
  exact both.2

instance KeepsStatus.decidable (s : Switch) : ∀ effect, Decidable (KeepsStatus s effect)
  | .act (.switchStatus r status) =>
    inferInstanceAs (Decidable (∀ room ∈ s.rooms r, room.status = status))
  | .act .nothing | .act .skipRoomId | .act (.addRoom ..) | .act (.leaveSeat _)
  | .act (.sitDown ..) | .act (.setOnoff ..) | .act (.setStatus ..) | .act (.updateAttr ..)
  | .act (.delPlayer _) | .enterHall .. | .addOnline .. | .closedRooms | .delOnline _ =>
    isTrue trivial

/-- A room is made and left, closed and swept away; one is made, joined and left by both players;
and one stays open. -/
def oneOpenOneClosed : Switch :=
  [registration 1 1, asks 1 1 1 .playerEnterHall 2, asks 1 2 1 .playerEnterHall 3,
    asks 1 1 1 (.pvpCreateRoom "" "" 1 0 0) 4, asks 1 1 1 .leaveRoom 5, .closedRooms,
    asks 1 1 1 (.pvpCreateRoom "" "" 0 0 0) 4, asks 1 2 1 (.pvpJoinRoom 2 "") 5,
    asks 1 1 1 .leaveRoom 5, asks 1 2 1 .leaveRoom 5,
    asks 1 1 1 (.pvpCreateRoom "" "" 1 0 0) 5].foldl step Switch.init

/-- Two rooms are created, and the owner of the first leaves it. -/
theorem rooms_filed_of_keeps_openAndClosed :
    (oneOpenOneClosed.rooms 4).map (·.status) = some .closed ∧
      (oneOpenOneClosed.rooms 5).map (·.status) = some .idle ∧ RoomsFiled oneOpenOneClosed :=
  ⟨by decide +kernel, by decide +kernel,
    rooms_filed_of_keeps (Reaches.refl.follow (by decide +kernel))⟩

/-- A room in which a battle starts stays in the map of idle rooms. -/
theorem fighting_room_idle : ∃ s, Reaches step Allocates Switch.init s ∧ ¬ RoomsFiled s := by
  refine ⟨[registration 1 1, asks 1 1 1 .playerEnterHall 2,
    asks 1 1 1 (.pvpCreateRoom "" "" 1 0 0) 3,
    asks 1 1 1 (.pvpRoomStartBattle 0 0) 4].foldl step Switch.init,
    Reaches.refl.follow (by decide +kernel), fun filed => ?_⟩
  generalize started : [registration 1 1, asks 1 1 1 .playerEnterHall 2,
    asks 1 1 1 (.pvpCreateRoom "" "" 1 0 0) 3,
    asks 1 1 1 (.pvpRoomStartBattle 0 0) 4].foldl step Switch.init = s at filed
  have fighting : (s.rooms 3).map (·.status) = some .fighting := by
    rw [← started]
    decide +kernel
  have entry : ((s.onlines 1).bind fun online => (online.roomMap .idle)[1]?) = some 3 := by
    rw [← started]
    decide +kernel
  obtain ⟨online, here, entry⟩ := Option.bind_eq_some_iff.mp entry
  obtain ⟨room, found, files⟩ := (filed.filed here).mp entry
  rw [found, Option.map_some] at fighting
  have map := files.map
  rw [Option.some.inj fighting] at map
  cases type : room.type <;> rw [type] at map <;> cases map

end Taomee.BattleSwitch
