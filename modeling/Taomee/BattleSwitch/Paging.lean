import Mathlib.Data.List.TakeDrop
import Taomee.BattleSwitch.Model

/-!
# The battle switch: pages of the room list

A page is turned downwards or upwards from a room id, which need not be that of a room.
-/

namespace Taomee.BattleSwitch

/-- A `room_map_t` with the rooms that it points to, each under its id. -/
structure RoomMap where
  rooms : Std.TreeMap Nat Room
  keyed : ∀ {id : Nat} {room : Room}, rooms[id]? = some room → room.id = id

/-- `room_list_info_t`. -/
structure RoomListInfo where
  roomId : Nat
  mapId : Nat
  roomName : String
  roomType : RoomType
  roomMode : RoomMode
  encryptedFlag : Bool
  roomStatus : RoomStatus
  playerCount : Nat
  maxCount : Nat

/-- `count_room_unlock_seats`, for every team. -/
def Room.countRoomUnlockSeats (room : Room) : Nat :=
  (room.seatNos.filter fun no => !(room.seats no).locked).length

/-- No room has a transcript yet, so no map is named. -/
def packPvpRoomListInfo (room : Room) : RoomListInfo :=
  { roomId := room.id
    mapId := 0
    roomName := room.name
    roomType := room.type
    roomMode := room.mode
    encryptedFlag := room.pass ≠ ""
    roomStatus := room.status
    playerCount := room.countRoomPlayers none
    maxCount := room.countRoomUnlockSeats }

def maxRoomListBatchLoops : Nat := 500

def RoomMode.toUInt8 : RoomMode → UInt8
  | .free => 0
  | .compete => 1

/-- The loop of both functions, over what the iterator still goes to. -/
def listRooms (mode : UInt8) (boundRoomid : Nat) :
    List (Nat × Room) → UInt8 → Nat → UInt8 × List RoomListInfo
  | [], nr, _ => (nr, [])
  | (_, room) :: rest, nr, loops =>
    if room.id = boundRoomid then listRooms mode boundRoomid rest nr loops
    else if mode ≠ 0xFF ∧ mode ≠ room.mode.toUInt8 then listRooms mode boundRoomid rest nr loops
    else
      let info := packPvpRoomListInfo room
      let nr := nr - 1
      if nr = 0 then (nr, [info])
      else if maxRoomListBatchLoops ≤ loops then (nr, [info])
      else
        let (left, infos) := listRooms mode boundRoomid rest nr (loops + 1)
        (left, info :: infos)

namespace RoomMap

variable (map : RoomMap) (mode : UInt8) (boundRoomid : Nat) (nr : UInt8)

/-- What stands before `lower_bound`, and what from there on. -/
def lowerBound : List (Nat × Room) × List (Nat × Room) :=
  map.rooms.toList.span fun entry => entry.1 < boundRoomid

/-- What stands before `upper_bound`, and what from there on. -/
def upperBound : List (Nat × Room) × List (Nat × Room) :=
  map.rooms.toList.span fun entry => entry.1 ≤ boundRoomid

def getRoomListInfoTurnLower : UInt8 × List RoomListInfo :=
  let (before, after) := map.lowerBound boundRoomid
  if after.isEmpty then (nr, []) else listRooms mode boundRoomid before.reverse nr 0

def getRoomListInfoTurnUpper : UInt8 × List RoomListInfo :=
  listRooms mode boundRoomid (map.upperBound boundRoomid).2 nr 0

end RoomMap

/-! ## Pages -/

/-- The filter lets the room through; 255 stands for any mode. -/
def HasMode (mode : UInt8) (room : Room) : Prop := mode = 0xFF ∨ mode = room.mode.toUInt8

instance (mode : UInt8) (room : Room) : Decidable (HasMode mode room) :=
  inferInstanceAs (Decidable (_ ∨ _))

/-- A page of the rooms beyond the bound that have the mode: as many as there is space for, the
nearest ones, and these in order. -/
structure IsPage (map : RoomMap) (mode : UInt8) (beyond : Nat → Prop) (nearer : Nat → Nat → Prop)
    (nr : Nat) (page : List RoomListInfo) : Prop where
  listed : ∀ info ∈ page, ∃ room, map.rooms[info.roomId]? = some room ∧ HasMode mode room ∧
    beyond info.roomId ∧ info = packPvpRoomListInfo room
  ordered : page.Pairwise fun info later => nearer info.roomId later.roomId
  short : page.length ≤ nr
  complete : ∀ {id : Nat} {room : Room}, map.rooms[id]? = some room → HasMode mode room →
    beyond id → packPvpRoomListInfo room ∈ page ∨
      page.length = nr ∧ ∀ info ∈ page, nearer info.roomId id

section

variable {map : RoomMap} {mode : UInt8} {boundRoomid : Nat} {nr : UInt8}

theorem toNat_eq_pred_succ (space : nr ≠ 0) : nr.toNat = (nr - 1).toNat + 1 := by
  have positive : nr.toNat ≠ 0 := fun none => space (UInt8.toNat_inj.mp none)
  have small := nr.toNat_lt
  rw [UInt8.toNat_sub]
  simp only [UInt8.toNat_one]
  omega

/-- The cap on the loops is beyond any page. -/
theorem listRooms_eq {entries : List (Nat × Room)} {loops : Nat}
    (others : ∀ entry ∈ entries, entry.2.id ≠ boundRoomid) (space : nr ≠ 0)
    (early : loops + nr.toNat ≤ maxRoomListBatchLoops) :
    (listRooms mode boundRoomid entries nr loops).2 =
      ((entries.filter fun entry => HasMode mode entry.2).take nr.toNat).map
        fun entry => packPvpRoomListInfo entry.2 := by
  induction entries generalizing nr loops with
  | nil => simp [listRooms]
  | cons entry rest ih =>
    obtain ⟨other, others⟩ := List.forall_mem_cons.mp others
    rw [listRooms, if_neg other]
    by_cases fits : HasMode mode entry.2
    · have one := toNat_eq_pred_succ space
      rw [if_neg (by unfold HasMode at fits; tauto), List.filter_cons_of_pos (by simpa using fits),
        one, List.take_succ_cons, List.map_cons]
      by_cases last : nr - 1 = 0
      · simp [last]
      · have before : loops < maxRoomListBatchLoops := by omega
        simp only [last, if_false, if_neg (Nat.not_le.mpr before)]
        rw [ih others last (by omega)]
    · rw [if_pos (by unfold HasMode at fits; tauto),
        List.filter_cons_of_neg (by simpa using fits), ih others space early]

theorem early (nr : UInt8) : 0 + nr.toNat ≤ maxRoomListBatchLoops := by
  have small := nr.toNat_lt
  unfold maxRoomListBatchLoops
  omega

/-- The first rooms with the mode, of a list in order of the rooms beyond the bound, are a page. -/
theorem isPage_take {entries : List (Nat × Room)} {beyond : Nat → Prop}
    {nearer : Nat → Nat → Prop} {nr : Nat}
    (ordered : entries.Pairwise fun entry later => nearer entry.1 later.1)
    (rooms : ∀ {id : Nat} {room : Room}, (id, room) ∈ entries ↔
      map.rooms[id]? = some room ∧ beyond id) :
    IsPage map mode beyond nearer nr
      (((entries.filter fun entry => HasMode mode entry.2).take nr).map
        fun entry => packPvpRoomListInfo entry.2) := by
  have keyed {entry : Nat × Room} (member : entry ∈ entries) : entry.2.id = entry.1 :=
    map.keyed (rooms.mp member).1
  have taken {entry : Nat × Room}
      (member : entry ∈ (entries.filter fun entry => HasMode mode entry.2).take nr) :
      entry ∈ entries ∧ HasMode mode entry.2 := by
    simpa using List.mem_filter.mp (List.mem_of_mem_take member)
  have sorted := ordered.filter fun entry => HasMode mode entry.2
  rw [← List.take_append_drop nr (entries.filter _), List.pairwise_append] at sorted
  refine ⟨fun info member => ?_, ?_, by simp, fun {id room} found fits here => ?_⟩
  · obtain ⟨entry, first, rfl⟩ := List.mem_map.mp member
    obtain ⟨listed, fits⟩ := taken first
    have there := rooms.mp listed
    refine ⟨entry.2, ?_, fits, ?_, rfl⟩
    · rw [packPvpRoomListInfo, keyed listed]
      exact there.1
    · rw [packPvpRoomListInfo, keyed listed]
      exact there.2
  · refine List.pairwise_map.mpr (sorted.1.imp_of_mem fun {entry later} first second near => ?_)
    rwa [← keyed (taken first).1, ← keyed (taken second).1] at near
  · have listed : (id, room) ∈ entries.filter fun entry => HasMode mode entry.2 :=
      List.mem_filter.mpr ⟨rooms.mpr ⟨found, here⟩, by simpa using fits⟩
    rw [← List.take_append_drop nr (entries.filter _), List.mem_append] at listed
    obtain first | later := listed
    · exact .inl (List.mem_map.mpr ⟨_, first, rfl⟩)
    · refine .inr ⟨?_, fun info member => ?_⟩
      · have more := List.length_pos_of_mem later
        rw [List.length_drop] at more
        rw [List.length_map, List.length_take]
        omega
      · obtain ⟨entry, first, rfl⟩ := List.mem_map.mp member
        have near := sorted.2.2 entry first (id, room) later
        rwa [← keyed (taken first).1] at near

end

namespace RoomMap

variable {map : RoomMap} {mode : UInt8} {boundRoomid : Nat} {nr : UInt8}

theorem mem_toList {id : Nat} {room : Room} :
    (id, room) ∈ map.rooms.toList ↔ map.rooms[id]? = some room :=
  Std.TreeMap.mem_toList_iff_getElem?_eq_some

theorem toList_ascending : map.rooms.toList.Pairwise fun entry later => entry.1 < later.1 := by
  refine Std.TreeMap.ordered_keys_toList.imp fun {entry later} less => ?_
  exact Nat.compare_eq_lt.mp less

/-- A test that fails from some place on splits a list there. -/
theorem span_eq_filter {entries : List (Nat × Room)} {test : Nat × Room → Bool}
    (monotone : entries.Pairwise fun entry later => test later → test entry) :
    entries.span test = (entries.filter test, entries.filter fun entry => !test entry) := by
  rw [List.span_eq_takeWhile_dropWhile]
  induction entries with
  | nil => rfl
  | cons entry rest ih =>
    obtain ⟨first, monotone⟩ := List.pairwise_cons.mp monotone
    by_cases passes : test entry
    · obtain ⟨before, after⟩ := Prod.mk.inj (ih monotone)
      rw [List.takeWhile_cons_of_pos passes, List.dropWhile_cons_of_pos passes, before, after,
        List.filter_cons_of_pos passes, List.filter_cons_of_neg (by simpa using passes)]
    · have fails : ∀ later ∈ rest, ¬ test later := fun later member =>
        mt (first later member) passes
      rw [List.takeWhile_cons_of_neg passes, List.dropWhile_cons_of_neg passes,
        List.filter_cons_of_neg passes, List.filter_cons_of_pos (by simpa using passes),
        List.filter_eq_nil_iff.mpr fails,
        List.filter_eq_self.mpr fun later member => by simpa using fails later member]

theorem lowerBound_eq : map.lowerBound boundRoomid =
    (map.rooms.toList.filter fun entry => entry.1 < boundRoomid,
      map.rooms.toList.filter fun entry => !decide (entry.1 < boundRoomid)) := by
  refine span_eq_filter (toList_ascending.imp fun {entry later} less below => ?_)
  simp only [decide_eq_true_eq] at below ⊢
  omega

theorem upperBound_eq : map.upperBound boundRoomid =
    (map.rooms.toList.filter fun entry => entry.1 ≤ boundRoomid,
      map.rooms.toList.filter fun entry => !decide (entry.1 ≤ boundRoomid)) := by
  refine span_eq_filter (toList_ascending.imp fun {entry later} less below => ?_)
  simp only [decide_eq_true_eq] at below ⊢
  omega

/-- A turn downwards is refused when no room is at the bound or above. -/
theorem turnLower_of_below (below : ∀ {id : Nat} {room : Room}, map.rooms[id]? = some room →
    id < boundRoomid) : map.getRoomListInfoTurnLower mode boundRoomid nr = (nr, []) := by
  have after : map.rooms.toList.filter (fun entry => !decide (entry.1 < boundRoomid)) = [] :=
    List.filter_eq_nil_iff.mpr fun entry member => by simpa using below (mem_toList.mp member)
  rw [getRoomListInfoTurnLower, lowerBound_eq, after]
  rfl

theorem turnLower_of_above {id : Nat} {room : Room} (found : map.rooms[id]? = some room)
    (above : boundRoomid ≤ id) (space : nr ≠ 0) :
    IsPage map mode (· < boundRoomid) (· > ·) nr.toNat
      (map.getRoomListInfoTurnLower mode boundRoomid nr).2 := by
  have after : (map.rooms.toList.filter fun entry => !decide (entry.1 < boundRoomid)) ≠ [] :=
    List.ne_nil_of_mem (List.mem_filter.mpr ⟨mem_toList.mpr found, by simpa using above⟩)
  have rooms {id : Nat} {room : Room} :
      (id, room) ∈ (map.rooms.toList.filter fun entry => entry.1 < boundRoomid).reverse ↔
        map.rooms[id]? = some room ∧ id < boundRoomid := by
    rw [List.mem_reverse, List.mem_filter, mem_toList, decide_eq_true_eq]
  rw [getRoomListInfoTurnLower, lowerBound_eq]
  simp only [List.isEmpty_iff, after, if_false]
  rw [listRooms_eq (fun entry member => ?_) space (early nr)]
  · exact isPage_take (List.pairwise_reverse.mpr (toList_ascending.filter _)) rooms
  · obtain ⟨found, below⟩ := rooms.mp member
    exact map.keyed found ▸ below.ne

theorem turnUpper_isPage (space : nr ≠ 0) :
    IsPage map mode (boundRoomid < ·) (· < ·) nr.toNat
      (map.getRoomListInfoTurnUpper mode boundRoomid nr).2 := by
  have rooms {id : Nat} {room : Room} :
      (id, room) ∈ map.rooms.toList.filter (fun entry => !decide (entry.1 ≤ boundRoomid)) ↔
        map.rooms[id]? = some room ∧ boundRoomid < id := by
    simp
  rw [getRoomListInfoTurnUpper, upperBound_eq]
  rw [listRooms_eq (fun entry member => ?_) space (early nr)]
  · exact isPage_take (toList_ascending.filter _) rooms
  · obtain ⟨found, above⟩ := rooms.mp member
    exact map.keyed found ▸ above.ne'

/-- A page is what it should be exactly when it is turned upwards, or some room is at the bound or
above, or there is none to list. -/
theorem isPage_iff (map : RoomMap) (mode : UInt8) (boundRoomid : Nat) (nr : UInt8)
    (space : nr ≠ 0) :
    (IsPage map mode (· < boundRoomid) (· > ·) nr.toNat
        (map.getRoomListInfoTurnLower mode boundRoomid nr).2 ∧
      IsPage map mode (boundRoomid < ·) (· < ·) nr.toNat
        (map.getRoomListInfoTurnUpper mode boundRoomid nr).2) ↔
      (∃ id ∈ map.rooms, boundRoomid ≤ id) ∨
        ∀ {id : Nat} {room : Room}, map.rooms[id]? = some room → HasMode mode room →
          boundRoomid ≤ id := by
  by_cases above : ∃ id ∈ map.rooms, boundRoomid ≤ id
  · obtain ⟨id, member, above⟩ := above
    have found := Std.TreeMap.getElem?_eq_some_getElem member
    exact iff_of_true ⟨turnLower_of_above found above space, turnUpper_isPage space⟩
      (.inl ⟨id, member, above⟩)
  · have below {id : Nat} {room : Room} (found : map.rooms[id]? = some room) :
        id < boundRoomid := by
      by_contra high
      exact above ⟨id, Std.TreeMap.mem_iff_isSome_getElem?.mpr (found ▸ rfl), not_lt.mp high⟩
    rw [turnLower_of_below below]
    constructor
    · rintro ⟨down, -⟩
      refine .inr fun {id room} found fits => ?_
      obtain listed | ⟨full, -⟩ := down.complete found fits (below found)
      · exact absurd listed List.not_mem_nil
      · exact absurd (UInt8.toNat_inj.mp full.symm) space
    · rintro (high | none)
      · exact absurd high above
      · refine ⟨⟨by simp, .nil, Nat.zero_le _, fun {id room} found fits here => ?_⟩,
          turnUpper_isPage space⟩
        exact absurd here (none found fits).not_gt

/-- A room more. -/
def insert (map : RoomMap) (room : Room) : RoomMap where
  rooms := map.rooms.insert room.id room
  keyed := by
    intro id other found
    rw [Std.TreeMap.getElem?_insert] at found
    split at found
    case isTrue same =>
      obtain rfl := Option.some.inj found
      exact Nat.compare_eq_eq.mp same
    case isFalse => exact map.keyed found

/-- The map of some rooms. -/
def ofRooms (rooms : List Room) : RoomMap :=
  rooms.foldl insert ⟨∅, fun {_ _} found => by simp at found⟩

def emptyRoom (id : Nat) (mode : RoomMode) : Room :=
  { id, name := "", pass := "", type := .pvp, mode, status := .idle, owner := 0
    online := 0, maplv := 0, mapid := 0, seats := fun _ => ⟨false, 0⟩ }

/-- Eight rooms, of which room 3 is not of the mode that is asked for. -/
def eightRooms : RoomMap :=
  ofRooms [emptyRoom 5 .free, emptyRoom 2 .free, emptyRoom 8 .free, emptyRoom 3 .compete,
    emptyRoom 1 .free, emptyRoom 7 .free, emptyRoom 4 .free, emptyRoom 6 .free]

/-- The pages of two below and above 5: room 3 is left out, and 1 and 8 are cut off. -/
theorem isPage_iff_eight :
    (IsPage eightRooms 0 (· < 5) (· > ·) 2 (eightRooms.getRoomListInfoTurnLower 0 5 2).2 ∧
      IsPage eightRooms 0 (5 < ·) (· < ·) 2 (eightRooms.getRoomListInfoTurnUpper 0 5 2).2) ∧
      (eightRooms.getRoomListInfoTurnLower 0 5 2).2.map RoomListInfo.roomId = [4, 2] ∧
      (eightRooms.getRoomListInfoTurnUpper 0 5 2).2.map RoomListInfo.roomId = [6, 7] :=
  ⟨(isPage_iff eightRooms 0 5 2 (by decide)).mpr
    (.inl ⟨5, Std.TreeMap.mem_iff_isSome_getElem?.mpr (by decide +kernel), le_rfl⟩),
    by decide +kernel, by decide +kernel⟩

/-- Downwards from 9 there is room 5, which is not listed. -/
theorem above_all_ids_nothing : ¬ ∀ (map : RoomMap) (mode : UInt8) (boundRoomid : Nat) (nr : UInt8),
    nr ≠ 0 →
      IsPage map mode (· < boundRoomid) (· > ·) nr.toNat
          (map.getRoomListInfoTurnLower mode boundRoomid nr).2 ∧
        IsPage map mode (boundRoomid < ·) (· < ·) nr.toNat
          (map.getRoomListInfoTurnUpper mode boundRoomid nr).2 := by
  intro claim
  let map := ofRooms [emptyRoom 5 .free]
  have below {id : Nat} {room : Room} (found : map.rooms[id]? = some room) : id < 9 := by
    have member : id ∈ map.rooms := Std.TreeMap.mem_iff_isSome_getElem?.mpr (found ▸ rfl)
    obtain same | none := Std.TreeMap.mem_insert.mp member
    · rw [← Nat.compare_eq_eq.mp same]
      decide
    · exact absurd none Std.TreeMap.not_mem_emptyc
  have down := (claim map 0 9 1 (by decide)).1
  rw [turnLower_of_below below] at down
  obtain listed | ⟨full, -⟩ := down.complete Std.TreeMap.getElem?_insert_self (.inr rfl) (by decide)
  · exact absurd listed List.not_mem_nil
  · exact absurd full (by decide)

end RoomMap

end Taomee.BattleSwitch
