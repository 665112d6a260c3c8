import Mathlib.Algebra.Order.Ring.Int
import Mathlib.Data.List.Nodup
import Taomee.Library.Runs

/-!
# The friends of a user

`c_friend` caches a user's friends: a map with their flags, the ids of the best and of the normal
friends in order, and a map with the data of each kind. The friends of another user, of whom a
user may look at one at a time, are cached beside them.
-/

namespace Taomee.Monster.Friends

/-- `friend_info_t`. -/
structure FriendInfo where
  friendId : UInt32
  type : UInt8
  isBestfriend : UInt8
  deriving DecidableEq

/-- `friend_list_t`, the data of one friend. What it says of the friend's role is only copied. -/
structure FriendList (ρ : Type) where
  userId : UInt32
  userType : UInt8
  isBestFriend : UInt8
  role : ρ
  deriving DecidableEq

/-- `c_friend` after `init`; `otherUserId` is whose friends are cached beside the user's. -/
structure Cache (ρ : Type) where
  userId : UInt32
  otherUserId : UInt32
  isAddFriendList : Bool
  friendListMap : UInt32 → Option FriendInfo
  bestFriendIdList : List UInt32
  normalFriendIdList : List UInt32
  bestFriendMap : UInt32 → Option (FriendList ρ)
  normalFriendMap : UInt32 → Option (FriendList ρ)
  otherBestFriendMap : UInt32 → Option (FriendList ρ)
  otherNormalFriendMap : UInt32 → Option (FriendList ρ)

section

variable {ρ : Type} {α : Type*}

/-- `std::map::insert` keeps what is stored already. -/
def insert (map : UInt32 → Option α) (key : UInt32) (value : α) : UInt32 → Option α :=
  Function.update map key (some ((map key).getD value))

namespace Cache

def init (userId otherUserId : UInt32) : Cache ρ :=
  { userId, otherUserId, isAddFriendList := false, friendListMap := fun _ => none
    bestFriendIdList := [], normalFriendIdList := [], bestFriendMap := fun _ => none
    normalFriendMap := fun _ => none, otherBestFriendMap := fun _ => none
    otherNormalFriendMap := fun _ => none }

/-- One turn of the loop of `add_friend_list`. -/
def addFriendInfo (cache : Cache ρ) (info : FriendInfo) : Cache ρ :=
  let cache := { cache with friendListMap := insert cache.friendListMap info.friendId info }
  if info.isBestfriend ≠ 0 then
    { cache with bestFriendIdList := cache.bestFriendIdList ++ [info.friendId] }
  else { cache with normalFriendIdList := cache.normalFriendIdList ++ [info.friendId] }

def addFriendList (cache : Cache ρ) (infos : List FriendInfo) : Cache ρ :=
  { infos.foldl addFriendInfo cache with isAddFriendList := true }

def addSelfFriend (cache : Cache ρ) (friend : FriendList ρ) (newFriend : Bool) : Cache ρ :=
  let cache :=
    if friend.isBestFriend ≠ 0 then
      { cache with bestFriendMap := insert cache.bestFriendMap friend.userId friend }
    else { cache with normalFriendMap := insert cache.normalFriendMap friend.userId friend }
  if newFriend then
    let info : FriendInfo := ⟨friend.userId, friend.userType, friend.isBestFriend⟩
    let cache := { cache with friendListMap := insert cache.friendListMap friend.userId info }
    if friend.isBestFriend ≠ 0 then
      { cache with bestFriendIdList := friend.userId :: cache.bestFriendIdList }
    else { cache with normalFriendIdList := friend.userId :: cache.normalFriendIdList }
  else cache

def addOtherFriend (cache : Cache ρ) (friend : FriendList ρ) : Cache ρ :=
  if friend.isBestFriend ≠ 0 then
    { cache with otherBestFriendMap := insert cache.otherBestFriendMap friend.userId friend }
  else
    { cache with otherNormalFriendMap := insert cache.otherNormalFriendMap friend.userId friend }

/-- `add_friend`: the return value and the cache. -/
def addFriend (cache : Cache ρ) (userId : UInt32) (friend : FriendList ρ) (newFriend : Bool) :
    Int × Cache ρ :=
  if userId = cache.userId then (0, cache.addSelfFriend friend newFriend)
  else if userId = cache.otherUserId then (0, cache.addOtherFriend friend)
  else (-1, cache)

/-- `set_best_friend`; the flag is written before the lists are searched. -/
def setBestFriend (cache : Cache ρ) (peerId : UInt32) (isBestFriend : Int) : Int × Cache ρ :=
  match cache.friendListMap peerId with
  | none => (-1, cache)
  | some info =>
    let cache :=
      { cache with
        friendListMap := Function.update cache.friendListMap peerId
          (some { info with isBestfriend := UInt8.ofInt isBestFriend }) }
    if isBestFriend ≠ 0 then
      if peerId ∈ cache.normalFriendIdList then
        (0, { cache with
          normalFriendIdList := cache.normalFriendIdList.erase peerId
          bestFriendIdList := peerId :: cache.bestFriendIdList })
      else (-1, cache)
    else
      if peerId ∈ cache.bestFriendIdList then
        (0, { cache with
          bestFriendIdList := cache.bestFriendIdList.erase peerId
          normalFriendIdList := peerId :: cache.normalFriendIdList })
      else (-1, cache)

/-- `del_friend`. -/
def delFriend (cache : Cache ρ) (peerId : UInt32) : Int × Cache ρ :=
  match cache.friendListMap peerId with
  | none => (-1, cache)
  | some info =>
    let deleted := { cache with friendListMap := Function.update cache.friendListMap peerId none }
    if info.isBestfriend ≠ 0 then
      (0, { deleted with bestFriendIdList := deleted.bestFriendIdList.erase peerId })
    else (0, { deleted with normalFriendIdList := deleted.normalFriendIdList.erase peerId })

/-! ## Pages of friends -/

/-- A loop of `get_friend_list` over one of the lists, with its counter: the entries that it
writes, and the counter after it. -/
def entries (min max : Nat) (best : UInt8) : Nat → List UInt32 → List (UInt32 × UInt8) × Nat
  | i, [] => ([], i)
  | i, id :: rest =>
    if i < min then entries min max best (i + 1) rest
    else if i + 1 > max then ([(id, best)], i + 1)
    else
      let later := entries min max best (i + 1) rest
      ((id, best) :: later.1, later.2)

/-- `get_friend_list`: the entries and `count`, or `none` where it returns -1. Positions count from
1. -/
def getFriendList (cache : Cache ρ) (min max : Nat) : Option (List (UInt32 × UInt8) × Nat) :=
  let best := cache.bestFriendIdList
  let normal := cache.normalFriendIdList
  if !cache.isAddFriendList then none
  else if best.length = 0 ∧ normal.length = 0 then some ([], 0)
  else if max ≤ best.length then
    some ((entries min max 1 1 best).1, (max + 1 + 2 ^ 16 - min % 2 ^ 16) % 2 ^ 16)
  else if min > best.length then
    let written := entries min max 0 (best.length + 1) normal
    some (written.1, (written.2 + 2 ^ 16 - min % 2 ^ 16) % 2 ^ 16)
  else
    -- the first loop has no break, and would not come to it
    let first := entries min max 1 1 best
    let second := entries min max 0 first.2 normal
    some (first.1 ++ second.1, (second.2 + 2 ^ 16 - min % 2 ^ 16) % 2 ^ 16)

/-- The data for an entry. -/
def detail (cache : Cache ρ) (entry : UInt32 × UInt8) : Option (FriendList ρ) :=
  if entry.2 ≠ 0 then cache.bestFriendMap entry.1 else cache.normalFriendMap entry.1

/-- `get_self_friend_tree`: the data of the friends on the page and the number of all friends, or
`none` where it returns -1. The buffer for the entries is filled with 0 before. -/
def getSelfFriendTree (cache : Cache ρ) (min max : Nat) : Option (List (FriendList ρ) × Nat) :=
  match cache.getFriendList min max with
  | none => none
  | some page =>
    let read := (List.range page.2).map fun i => page.1[i]?.getD (0, 0)
    (read.mapM cache.detail).map fun friends =>
      (friends, (cache.bestFriendIdList.length + cache.normalFriendIdList.length) % 2 ^ 16)

end Cache

/-! ## Calls -/

inductive Call (ρ : Type) where
  | addFriendList (infos : List FriendInfo)
  | addFriend (userId : UInt32) (friend : FriendList ρ) (newFriend : Bool)
  | setBestFriend (peerId : UInt32) (isBestFriend : Int)
  | delFriend (peerId : UInt32)

def Cache.call (cache : Cache ρ) : Call ρ → Int × Cache ρ
  | .addFriendList infos => (0, cache.addFriendList infos)
  | .addFriend userId friend newFriend => cache.addFriend userId friend newFriend
  | .setBestFriend peerId isBestFriend => cache.setBestFriend peerId isBestFriend
  | .delFriend peerId => cache.delFriend peerId

/-- A cache, and what `add_friend` has last given for each id since it was last deleted. -/
structure Friendship (ρ : Type) where
  cache : Cache ρ
  latest : UInt32 → Option (FriendList ρ)

namespace Friendship

def init (userId otherUserId : UInt32) : Friendship ρ := ⟨.init userId otherUserId, fun _ => none⟩

def step (s : Friendship ρ) (call : Call ρ) : Friendship ρ where
  cache := (s.cache.call call).2
  latest :=
    match call with
    | .addFriendList _ | .setBestFriend .. => s.latest
    | .addFriend userId friend _ =>
      if userId = s.cache.userId then Function.update s.latest friend.userId (some friend)
      else s.latest
    | .delFriend peerId =>
      if (s.cache.delFriend peerId).1 = 0 then Function.update s.latest peerId none else s.latest

end Friendship

end

end Taomee.Monster.Friends
