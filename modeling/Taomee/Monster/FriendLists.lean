import Taomee.Monster.Friends

/-!
# The containers of a friend cache agree

The lists hold the friends that the flags say. The map of a list holds what a friend's data is,
as long as no friend changes lists after its data has come and none comes back with new data.
-/

namespace Taomee.Monster.Friends

open Runs

variable {ρ : Type}

/-- The friends are in the list that their flag says, once, and nobody else is. -/
structure Filed (cache : Cache ρ) : Prop where
  best : ∀ id, id ∈ cache.bestFriendIdList ↔
    ∃ info, cache.friendListMap id = some info ∧ info.isBestfriend ≠ 0
  normal : ∀ id, id ∈ cache.normalFriendIdList ↔
    ∃ info, cache.friendListMap id = some info ∧ info.isBestfriend = 0
  bestOnce : cache.bestFriendIdList.Nodup
  normalOnce : cache.normalFriendIdList.Nodup

/-- All friends in order. -/
def Cache.friends (cache : Cache ρ) : List UInt32 :=
  cache.bestFriendIdList ++ cache.normalFriendIdList

/-- A page of friends is reported with the data that was given last for each of them. Pages have
at most 100 friends and begin at most right behind the last friend. -/
def Reports (s : Friendship ρ) : Prop :=
  s.cache.isAddFriendList = true → ∀ min max, 1 ≤ min → min ≤ max → max < min + 100 →
    min ≤ s.cache.friends.length + 1 →
    s.cache.getSelfFriendTree min max =
      (((s.cache.friends.drop (min - 1)).take (max + 1 - min)).mapM s.latest).map fun friends =>
        (friends, s.cache.friends.length % 2 ^ 16)

/-- The map of the kind holds for the id what was given last. -/
def Current (s : Friendship ρ) (id : UInt32) (best : UInt8) : Prop :=
  s.cache.detail (id, best) = s.latest id

/-- What the containers need of a call: friends come new, with no data in their map but what was
given last; data comes for the list that the friend is in, and is not given anew; a friend that
changes lists has no data; and a flag is 0 or what it was. -/
def Fits (s : Friendship ρ) : Call ρ → Prop
  | .addFriendList infos =>
    (infos.map FriendInfo.friendId).Nodup ∧
      ∀ info ∈ infos, s.cache.friendListMap info.friendId = none ∧
        Current s info.friendId info.isBestfriend
  | .addFriend userId friend newFriend =>
    userId = s.cache.userId →
      (newFriend = true → s.cache.friendListMap friend.userId = none) ∧
      (newFriend = true ∨ (s.cache.friendListMap friend.userId).isSome = true →
        ∀ old ∈ s.cache.detail (friend.userId, friend.isBestFriend), old = friend) ∧
      (newFriend = false → ∀ info ∈ s.cache.friendListMap friend.userId,
        (info.isBestfriend = 0 ↔ friend.isBestFriend = 0))
  | .setBestFriend peerId isBestFriend =>
    ∀ info ∈ s.cache.friendListMap peerId,
      (isBestFriend = 0 ↔ UInt8.ofInt isBestFriend = 0) ∧
      ((info.isBestfriend = 0 ↔ isBestFriend = 0) → info.isBestfriend = UInt8.ofInt isBestFriend) ∧
      (¬ (info.isBestfriend = 0 ↔ isBestFriend = 0) →
        Current s peerId (UInt8.ofInt isBestFriend))
  | .delFriend _ => True

section Insert

variable {α : Type*} {map : UInt32 → Option α} {key other : UInt32} {value : α}

/-- At a free key `insert` is a write. -/
theorem insert_of_none (free : map key = none) :
    insert map key value = Function.update map key (some value) := by
  rw [insert, free, Option.getD_none]

end Insert

/-! ## The lists -/

section Lists

variable {cache after : Cache ρ} {id : UInt32} {info : FriendInfo}

/-- Only one friend comes, goes or changes. -/
theorem Filed.change (id : UInt32) (filed : Filed cache)
    (map : ∀ other, other ≠ id → after.friendListMap other = cache.friendListMap other)
    (lists : ∀ other, other ≠ id →
      (other ∈ after.bestFriendIdList ↔ other ∈ cache.bestFriendIdList) ∧
      (other ∈ after.normalFriendIdList ↔ other ∈ cache.normalFriendIdList))
    (best : id ∈ after.bestFriendIdList ↔
      ∃ info, after.friendListMap id = some info ∧ info.isBestfriend ≠ 0)
    (normal : id ∈ after.normalFriendIdList ↔
      ∃ info, after.friendListMap id = some info ∧ info.isBestfriend = 0)
    (bestOnce : after.bestFriendIdList.Nodup) (normalOnce : after.normalFriendIdList.Nodup) :
    Filed after := by
  refine ⟨fun other => ?_, fun other => ?_, bestOnce, normalOnce⟩
  · obtain rfl | apart := eq_or_ne other id
    · exact best
    · rw [(lists other apart).1, map other apart, filed.best]
  · obtain rfl | apart := eq_or_ne other id
    · exact normal
    · rw [(lists other apart).2, map other apart, filed.normal]

/-- The map and the two lists are all that counts. -/
theorem Filed.same (filed : Filed cache) (map : after.friendListMap = cache.friendListMap)
    (best : after.bestFriendIdList = cache.bestFriendIdList)
    (normal : after.normalFriendIdList = cache.normalFriendIdList) : Filed after :=
  ⟨by rw [map, best]; exact filed.best, by rw [map, normal]; exact filed.normal,
    best ▸ filed.bestOnce, normal ▸ filed.normalOnce⟩

/-- Who is not in the map is in no list. -/
theorem Filed.unlisted (filed : Filed cache) (free : cache.friendListMap id = none) :
    id ∉ cache.bestFriendIdList ∧ id ∉ cache.normalFriendIdList := by
  rw [filed.best, filed.normal, free]
  simp

/-- A new friend comes into the list that the flag says. -/
theorem Filed.enter (filed : Filed cache) (free : cache.friendListMap id = none)
    (info : FriendInfo) (map : after.friendListMap =
      Function.update cache.friendListMap id (some info))
    (best : info.isBestfriend ≠ 0 → after.bestFriendIdList.Perm (id :: cache.bestFriendIdList) ∧
      after.normalFriendIdList = cache.normalFriendIdList)
    (normal : info.isBestfriend = 0 → after.bestFriendIdList = cache.bestFriendIdList ∧
      after.normalFriendIdList.Perm (id :: cache.normalFriendIdList)) : Filed after := by
  obtain ⟨notBest, notNormal⟩ := filed.unlisted free
  by_cases flag : info.isBestfriend = 0
  · obtain ⟨same, longer⟩ := normal flag
    refine filed.change id (fun other apart => ?_) (fun other apart => ?_) ?_ ?_ ?_ ?_
    · rw [map, Function.update_of_ne apart]
    · rw [same, longer.mem_iff, List.mem_cons, or_iff_right apart]
      exact ⟨Iff.rfl, Iff.rfl⟩
    · rw [same, map, Function.update_self]
      simp [notBest, flag]
    · rw [longer.mem_iff, map, Function.update_self]
      simp [flag]
    · exact same ▸ filed.bestOnce
    · exact longer.nodup_iff.mpr (List.nodup_cons.mpr ⟨notNormal, filed.normalOnce⟩)
  · obtain ⟨longer, same⟩ := best flag
    refine filed.change id (fun other apart => ?_) (fun other apart => ?_) ?_ ?_ ?_ ?_
    · rw [map, Function.update_of_ne apart]
    · rw [same, longer.mem_iff, List.mem_cons, or_iff_right apart]
      exact ⟨Iff.rfl, Iff.rfl⟩
    · rw [longer.mem_iff, map, Function.update_self]
      simp [flag]
    · rw [same, map, Function.update_self]
      simp [notNormal, flag]
    · exact longer.nodup_iff.mpr (List.nodup_cons.mpr ⟨notBest, filed.bestOnce⟩)
    · exact same ▸ filed.normalOnce

/-- A friend who was not there is filed in one list. -/
theorem Filed.addFriendInfo (filed : Filed cache) (free : cache.friendListMap info.friendId = none)
    : Filed (cache.addFriendInfo info) := by
  refine filed.enter free info ?_ (fun flag => ?_) fun flag => ?_
  · rw [Cache.addFriendInfo, insert_of_none free]
    split <;> rfl
  · rw [Cache.addFriendInfo, if_pos flag]
    exact ⟨List.perm_append_singleton _ _, rfl⟩
  · rw [Cache.addFriendInfo, if_neg (not_not.mpr flag)]
    exact ⟨rfl, List.perm_append_singleton _ _⟩

/-- A friend who was not there gets its entry. -/
theorem friendListMap_addFriendInfo (free : cache.friendListMap info.friendId = none) :
    (cache.addFriendInfo info).friendListMap =
      Function.update cache.friendListMap info.friendId (some info) := by
  rw [Cache.addFriendInfo, insert_of_none free]
  split <;> rfl

theorem detail_addFriendInfo (info : FriendInfo) (entry : UInt32 × UInt8) :
    (cache.addFriendInfo info).detail entry = cache.detail entry := by
  rw [Cache.addFriendInfo]
  split <;> rfl

/-- The friends of a list come one after the other. -/
theorem Filed.addFriendInfos (filed : Filed cache) {infos : List FriendInfo}
    (distinct : (infos.map FriendInfo.friendId).Nodup)
    (free : ∀ info ∈ infos, cache.friendListMap info.friendId = none) :
    Filed (infos.foldl Cache.addFriendInfo cache) ∧
      (∀ entry, (infos.foldl Cache.addFriendInfo cache).detail entry = cache.detail entry) ∧
      ∀ id info, (infos.foldl Cache.addFriendInfo cache).friendListMap id = some info →
        cache.friendListMap id = some info ∨ info ∈ infos ∧ info.friendId = id := by
  induction infos generalizing cache with
  | nil => exact ⟨filed, fun _ => rfl, fun _ _ => .inl⟩
  | cons first rest ih =>
    rw [List.map_cons, List.nodup_cons] at distinct
    have free' := free first List.mem_cons_self
    have map := friendListMap_addFriendInfo free'
    obtain ⟨filed', details, members⟩ := ih (filed.addFriendInfo free') distinct.2
      fun info member => by
        have apart : info.friendId ≠ first.friendId := fun same =>
          distinct.1 (same ▸ List.mem_map_of_mem member)
        rw [map, Function.update_of_ne apart]
        exact free info (List.mem_cons_of_mem _ member)
    refine ⟨filed', fun entry => (details entry).trans (detail_addFriendInfo _ _), ?_⟩
    intro id info found
    obtain there | ⟨member, named⟩ := members id info found
    · rw [map, Function.update_apply] at there
      split at there
      · rename_i same
        cases there
        exact .inr ⟨List.mem_cons_self, same.symm⟩
      · exact .inl there
    · exact .inr ⟨List.mem_cons_of_mem _ member, named⟩

/-- A friend added by hand is filed like one of the list. -/
theorem Filed.addSelfFriend (filed : Filed cache) {friend : FriendList ρ}
    (free : cache.friendListMap friend.userId = none) :
    Filed (cache.addSelfFriend friend true) := by
  refine filed.enter free ⟨friend.userId, friend.userType, friend.isBestFriend⟩ ?_
    (fun flag => ?_) fun flag => ?_
  · rw [Cache.addSelfFriend, if_pos rfl, ← insert_of_none free]
    split <;> rfl
  · rw [Cache.addSelfFriend, if_pos rfl, if_pos flag, if_pos flag]
    exact ⟨.refl _, rfl⟩
  · rw [Cache.addSelfFriend, if_pos rfl, if_neg (not_not.mpr flag), if_neg (not_not.mpr flag)]
    exact ⟨rfl, .refl _⟩

/-- A friend changes lists. -/
theorem Filed.setBestFriend (filed : Filed cache) {isBestFriend : Int}
    (found : cache.friendListMap id = some info)
    (flag : isBestFriend = 0 ↔ UInt8.ofInt isBestFriend = 0)
    (changes : ¬ (info.isBestfriend = 0 ↔ isBestFriend = 0)) :
    (cache.setBestFriend id isBestFriend).1 = 0 ∧
      Filed (cache.setBestFriend id isBestFriend).2 := by
  rw [Cache.setBestFriend, found]
  dsimp only
  by_cases best : isBestFriend = 0
  · have was : info.isBestfriend ≠ 0 := fun zero => changes ⟨fun _ => best, fun _ => zero⟩
    have listed := (filed.best id).mpr ⟨info, found, was⟩
    have unlisted : id ∉ cache.normalFriendIdList := by
      rw [filed.normal, found]
      simp [was]
    rw [if_neg (not_not.mpr best), if_pos listed]
    refine ⟨rfl, filed.change id (fun other apart => ?_) (fun other apart => ?_) ?_ ?_ ?_ ?_⟩
    · exact Function.update_of_ne apart ..
    · exact ⟨List.mem_erase_of_ne apart, by simp [apart]⟩
    · simp [flag.mp best, filed.bestOnce.mem_erase_iff]
    · simp [flag.mp best]
    · exact filed.bestOnce.erase id
    · exact List.nodup_cons.mpr ⟨unlisted, filed.normalOnce⟩
  · have was : info.isBestfriend = 0 := by
      by_contra other
      exact changes ⟨fun zero => absurd zero other, fun zero => absurd zero best⟩
    have listed := (filed.normal id).mpr ⟨info, found, was⟩
    have unlisted : id ∉ cache.bestFriendIdList := by
      rw [filed.best, found]
      simp [was]
    rw [if_pos best, if_pos listed]
    refine ⟨rfl, filed.change id (fun other apart => ?_) (fun other apart => ?_) ?_ ?_ ?_ ?_⟩
    · exact Function.update_of_ne apart ..
    · exact ⟨by simp [apart], List.mem_erase_of_ne apart⟩
    · simp [mt flag.mpr best]
    · simp [mt flag.mpr best, filed.normalOnce.mem_erase_iff]
    · exact List.nodup_cons.mpr ⟨unlisted, filed.bestOnce⟩
    · exact filed.normalOnce.erase id

/-- Where a friend is in the wanted list already, the call fails; it leaves the flag if that is
what it writes. -/
theorem Filed.setBestFriend_refused (filed : Filed cache) {isBestFriend : Int}
    (found : cache.friendListMap id = some info) (stays : info.isBestfriend = 0 ↔ isBestFriend = 0)
    (same : info.isBestfriend = UInt8.ofInt isBestFriend) :
    cache.setBestFriend id isBestFriend = (-1, cache) := by
  have unchanged :
      { cache with
        friendListMap := Function.update cache.friendListMap id
          (some { info with isBestfriend := UInt8.ofInt isBestFriend }) } = cache := by
    have there : some { info with isBestfriend := UInt8.ofInt isBestFriend } =
        cache.friendListMap id := by
      rw [found, ← same]
    rw [there, Function.update_eq_self]
  rw [Cache.setBestFriend, found]
  dsimp only
  by_cases best : isBestFriend = 0
  · have unlisted : id ∉ cache.bestFriendIdList := by
      rw [filed.best, found]
      simp [stays.mpr best]
    rw [if_neg (not_not.mpr best), if_neg unlisted, unchanged]
  · have unlisted : id ∉ cache.normalFriendIdList := by
      rw [filed.normal, found]
      simp [mt stays.mp best]
    rw [if_pos best, if_neg unlisted, unchanged]

/-- A friend who is found goes from the map and its list. -/
theorem Filed.delFriend (filed : Filed cache) (found : cache.friendListMap id = some info) :
    (cache.delFriend id).1 = 0 ∧ Filed (cache.delFriend id).2 := by
  rw [Cache.delFriend, found]
  dsimp only
  by_cases flag : info.isBestfriend = 0
  · have unlisted : id ∉ cache.bestFriendIdList := by
      rw [filed.best, found]
      simp [flag]
    rw [if_neg (not_not.mpr flag)]
    refine ⟨rfl, filed.change id (fun other apart => ?_) (fun other apart => ?_) ?_ ?_ ?_ ?_⟩
    · exact Function.update_of_ne apart ..
    · exact ⟨Iff.rfl, List.mem_erase_of_ne apart⟩
    · simp [unlisted]
    · simp [filed.normalOnce.mem_erase_iff]
    · exact filed.bestOnce
    · exact filed.normalOnce.erase id
  · have unlisted : id ∉ cache.normalFriendIdList := by
      rw [filed.normal, found]
      simp [flag]
    rw [if_pos flag]
    refine ⟨rfl, filed.change id (fun other apart => ?_) (fun other apart => ?_) ?_ ?_ ?_ ?_⟩
    · exact Function.update_of_ne apart ..
    · exact ⟨List.mem_erase_of_ne apart, Iff.rfl⟩
    · simp [filed.bestOnce.mem_erase_iff]
    · simp [unlisted]
    · exact filed.bestOnce.erase id
    · exact filed.normalOnce

end Lists

/-! ## The data -/

section Details

variable {cache : Cache ρ} {friend : FriendList ρ} {newFriend : Bool} {id : UInt32} {best : UInt8}

/-- Data goes into one map, if there is none. -/
theorem detail_addSelfFriend : (cache.addSelfFriend friend newFriend).detail (id, best) =
    if id = friend.userId ∧ (best = 0 ↔ friend.isBestFriend = 0) then
      some ((cache.detail (id, best)).getD friend)
    else cache.detail (id, best) := by
  by_cases kind : friend.isBestFriend = 0 <;> cases newFriend <;> by_cases flag : best = 0 <;>
    by_cases same : id = friend.userId <;>
    simp [Cache.addSelfFriend, Cache.detail, insert, kind, flag, same]

theorem detail_congr {other : UInt8} (flag : best = 0 ↔ other = 0) :
    cache.detail (id, best) = cache.detail (id, other) := by
  simp only [Cache.detail, ne_eq, flag]

end Details

/-- The lists are right, and the data of all friends is what was given last. -/
structure Kept (s : Friendship ρ) : Prop where
  filed : Filed s.cache
  current : ∀ id info, s.cache.friendListMap id = some info → Current s id info.isBestfriend

namespace Kept

variable {s : Friendship ρ}

/-- A new friendship knows nobody. -/
theorem init (userId otherUserId : UInt32) : Kept (.init userId otherUserId : Friendship ρ) where
  filed :=
    { best := fun id => by simp [Friendship.init, Cache.init]
      normal := fun id => by simp [Friendship.init, Cache.init]
      bestOnce := List.nodup_nil
      normalOnce := List.nodup_nil }
  current id info found := by cases found

/-- Friends that are listed are filed with the data given. -/
theorem addFriendList (kept : Kept s) {infos : List FriendInfo}
    (fits : Fits s (.addFriendList infos)) : Kept (s.step (.addFriendList infos)) := by
  obtain ⟨distinct, each⟩ := fits
  obtain ⟨filed, details, members⟩ := kept.filed.addFriendInfos distinct
    fun info member => (each info member).1
  refine ⟨filed.same rfl rfl rfl, fun id info found => ?_⟩
  refine (details (id, info.isBestfriend)).trans ?_
  obtain before | ⟨member, rfl⟩ := members id info found
  · exact kept.current id info before
  · exact (each info member).2

/-- A friend who is added is filed with the data given. -/
theorem addFriend (kept : Kept s) {userId : UInt32} {friend : FriendList ρ} {newFriend : Bool}
    (fits : Fits s (.addFriend userId friend newFriend)) :
    Kept (s.step (.addFriend userId friend newFriend)) := by
  by_cases own : userId = s.cache.userId
  · obtain ⟨free, same, flag⟩ := fits own
    have stepped : s.step (.addFriend userId friend newFriend) =
        ⟨s.cache.addSelfFriend friend newFriend,
          Function.update s.latest friend.userId (some friend)⟩ := by
      simp [Friendship.step, Cache.call, Cache.addFriend, own]
    rw [stepped]
    -- the friends are as before, and perhaps the new one
    have listed : Filed (s.cache.addSelfFriend friend newFriend) ∧
        (s.cache.addSelfFriend friend newFriend).friendListMap =
          if newFriend then
            Function.update s.cache.friendListMap friend.userId
              (some ⟨friend.userId, friend.userType, friend.isBestFriend⟩)
          else s.cache.friendListMap := by
      cases newFriend with
      | true =>
        refine ⟨kept.filed.addSelfFriend (free rfl), ?_⟩
        rw [Cache.addSelfFriend, if_pos rfl, if_pos rfl, ← insert_of_none (free rfl)]
        split <;> rfl
      | false =>
        simp only [Cache.addSelfFriend, Bool.false_eq_true, if_false]
        split
        · exact ⟨kept.filed.same rfl rfl rfl, rfl⟩
        · exact ⟨kept.filed.same rfl rfl rfl, rfl⟩
    refine ⟨listed.1, fun id info found => ?_⟩
    rw [listed.2] at found
    refine detail_addSelfFriend.trans ?_
    dsimp only
    by_cases this : id = friend.userId
    · subst this
      have kind : info.isBestfriend = 0 ↔ friend.isBestFriend = 0 := by
        cases newFriend with
        | true =>
          rw [if_pos rfl, Function.update_self] at found
          cases found
          exact Iff.rfl
        | false => exact flag rfl info found
      have there : newFriend = true ∨ (s.cache.friendListMap friend.userId).isSome = true := by
        cases newFriend with
        | true => exact .inl rfl
        | false => exact .inr (Option.isSome_iff_exists.mpr ⟨info, found⟩)
      rw [if_pos ⟨rfl, kind⟩, Function.update_self, detail_congr kind]
      cases old : s.cache.detail (friend.userId, friend.isBestFriend) with
      | none => rfl
      | some old' => rw [same there old' old, Option.getD_some]
    · rw [if_neg fun both => this both.1, Function.update_of_ne this]
      refine kept.current id info ?_
      cases newFriend with
      | true => rwa [if_pos rfl, Function.update_of_ne this] at found
      | false => exact found
  · have stepped : s.step (.addFriend userId friend newFriend) =
        ⟨(s.cache.addFriend userId friend newFriend).2, s.latest⟩ := by
      simp [Friendship.step, Cache.call, own]
    rw [stepped, Cache.addFriend, if_neg own]
    split
    · rw [Cache.addOtherFriend]
      split
      · exact ⟨kept.filed.same rfl rfl rfl, kept.current⟩
      · exact ⟨kept.filed.same rfl rfl rfl, kept.current⟩
    · exact kept

/-- A friend changes the list and keeps its data. -/
theorem setBestFriend (kept : Kept s) {peerId : UInt32} {isBestFriend : Int}
    (fits : Fits s (.setBestFriend peerId isBestFriend)) :
    Kept (s.step (.setBestFriend peerId isBestFriend)) := by
  have stepped : s.step (.setBestFriend peerId isBestFriend) =
      ⟨(s.cache.setBestFriend peerId isBestFriend).2, s.latest⟩ := rfl
  rw [stepped]
  cases found : s.cache.friendListMap peerId with
  | none =>
    rw [Cache.setBestFriend, found]
    exact kept
  | some info =>
    obtain ⟨flag, same, free⟩ := fits info found
    by_cases stays : info.isBestfriend = 0 ↔ isBestFriend = 0
    · rw [kept.filed.setBestFriend_refused found stays (same stays)]
      exact kept
    · refine ⟨(kept.filed.setBestFriend found flag stays).2, fun id other there => ?_⟩
      have map : (s.cache.setBestFriend peerId isBestFriend).2.friendListMap =
          Function.update s.cache.friendListMap peerId
            (some { info with isBestfriend := UInt8.ofInt isBestFriend }) := by
        rw [Cache.setBestFriend, found]
        dsimp only
        split <;> split <;> rfl
      have details : ∀ entry, (s.cache.setBestFriend peerId isBestFriend).2.detail entry =
          s.cache.detail entry := by
        intro entry
        rw [Cache.setBestFriend, found]
        dsimp only
        split <;> split <;> rfl
      refine (details _).trans ?_
      rw [map, Function.update_apply] at there
      split at there
      · rename_i same
        cases there
        exact same ▸ free stays
      · exact kept.current id other there

/-- A friend who is deleted is in no list. -/
theorem delFriend (kept : Kept s) {peerId : UInt32} : Kept (s.step (.delFriend peerId)) := by
  cases found : s.cache.friendListMap peerId with
  | none =>
    have refused : s.cache.delFriend peerId = (-1, s.cache) := by
      rw [Cache.delFriend, found]
    have stepped : s.step (.delFriend peerId) = s := by
      simp [Friendship.step, Cache.call, refused]
    rw [stepped]
    exact kept
  | some info =>
    obtain ⟨done, filed⟩ := kept.filed.delFriend found
    have stepped : s.step (.delFriend peerId) =
        ⟨(s.cache.delFriend peerId).2, Function.update s.latest peerId none⟩ := by
      simp [Friendship.step, Cache.call, done]
    rw [stepped]
    refine ⟨filed, fun id other there => ?_⟩
    have map : (s.cache.delFriend peerId).2.friendListMap =
        Function.update s.cache.friendListMap peerId none := by
      rw [Cache.delFriend, found]
      dsimp only
      split <;> rfl
    have details : ∀ entry, (s.cache.delFriend peerId).2.detail entry = s.cache.detail entry := by
      intro entry
      rw [Cache.delFriend, found]
      dsimp only
      split <;> rfl
    rw [map, Function.update_apply] at there
    split at there
    · cases there
    · rename_i apart
      refine (details _).trans ?_
      dsimp only
      rw [Function.update_of_ne apart]
      exact kept.current id other there

/-- Every call that fits keeps the cache right. -/
theorem step (kept : Kept s) {call : Call ρ} (fits : Fits s call) : Kept (s.step call) := by
  cases call with
  | addFriendList infos => exact kept.addFriendList fits
  | addFriend userId friend newFriend => exact kept.addFriend fits
  | setBestFriend peerId isBestFriend => exact kept.setBestFriend fits
  | delFriend peerId => exact kept.delFriend

/-- A call that fails changes nothing. -/
theorem refused (kept : Kept s) {call : Call ρ} (fits : Fits s call)
    (failed : (s.cache.call call).1 ≠ 0) : (s.cache.call call).2 = s.cache := by
  cases call with
  | addFriendList infos => exact absurd rfl failed
  | addFriend userId friend newFriend =>
    rw [Cache.call, Cache.addFriend] at failed ⊢
    split
    · rw [if_pos ‹_›] at failed
      exact absurd rfl failed
    · rw [if_neg ‹_›] at failed
      split
      · rw [if_pos ‹_›] at failed
        exact absurd rfl failed
      · rfl
  | setBestFriend peerId isBestFriend =>
    rw [Cache.call] at failed ⊢
    cases found : s.cache.friendListMap peerId with
    | none => rw [Cache.setBestFriend, found]
    | some info =>
      obtain ⟨flag, same, -⟩ := fits info found
      by_cases stays : info.isBestfriend = 0 ↔ isBestFriend = 0
      · rw [kept.filed.setBestFriend_refused found stays (same stays)]
      · exact absurd (kept.filed.setBestFriend found flag stays).1 failed
  | delFriend peerId =>
    rw [Cache.call] at failed ⊢
    cases found : s.cache.friendListMap peerId with
    | none => rw [Cache.delFriend, found]
    | some info => exact absurd (kept.filed.delFriend found).1 failed

end Kept

/-! ## Pages -/

section Pages

variable {cache : Cache ρ} {lo hi i : Nat} {best : UInt8} {ids : List UInt32}

/-- A loop writes what of its list lies on the page, and stops behind the page or its list. -/
theorem entries_eq (page : lo ≤ hi) (here : i ≤ hi) :
    Cache.entries lo hi best i ids =
      (((ids.map fun id => (id, best)).drop (lo - i)).take (hi + 1 - max i lo),
        min (i + ids.length) (hi + 1)) := by
  induction ids generalizing i with
  | nil =>
    rw [Cache.entries]
    simp
    omega
  | cons id rest ih =>
    rw [Cache.entries]
    split
    · rw [ih (by omega), List.map_cons, List.length_cons]
      have left : lo - i = lo - (i + 1) + 1 := by omega
      rw [left, List.drop_succ_cons, max_eq_right (by omega), max_eq_right (by omega),
        Nat.add_assoc, Nat.add_comm 1]
    · have start : lo - i = 0 := by omega
      rw [start, List.drop_zero, max_eq_left (by omega), List.map_cons, List.length_cons]
      split
      · have one : hi + 1 - i = 1 := by omega
        rw [one, List.take_succ_cons, List.take_zero]
        congr 1
        omega
      · have left : hi + 1 - i = hi + 1 - (i + 1) + 1 := by omega
        have none : lo - (i + 1) = 0 := by omega
        rw [ih (by omega), left, List.take_succ_cons, max_eq_left (by omega), none,
          List.drop_zero, Nat.add_assoc, Nat.add_comm 1]

/-- The friends with the flags of their lists. -/
def Cache.flagged (cache : Cache ρ) : List (UInt32 × UInt8) :=
  (cache.bestFriendIdList.map fun id => (id, 1)) ++ cache.normalFriendIdList.map fun id => (id, 0)

/-- The flags are beside the ids. -/
theorem flagged_map_fst : cache.flagged.map Prod.fst = cache.friends := by
  simp [Cache.flagged, Cache.friends, Function.comp_def]

/-- A page lies in the first of two lists, in the second or in both. -/
theorem page_left {α : Type*} {l₁ l₂ : List α} (first : 1 ≤ lo) (page : lo ≤ hi)
    (inside : hi ≤ l₁.length) :
    ((l₁ ++ l₂).drop (lo - 1)).take (hi + 1 - lo) = (l₁.drop (lo - 1)).take (hi + 1 - lo) := by
  rw [List.drop_append_of_le_length (by omega),
    List.take_append_of_le_length (by rw [List.length_drop]; omega)]

/-- A page behind the first list is one of the second. -/
theorem page_right {α : Type*} {l₁ l₂ : List α} (behind : l₁.length < lo) :
    ((l₁ ++ l₂).drop (lo - 1)).take (hi + 1 - lo) =
      (l₂.drop (lo - (l₁.length + 1))).take (hi + 1 - lo) := by
  rw [List.drop_append, List.drop_eq_nil_of_le (by omega), List.nil_append]
  congr 2
  omega

/-- A page over the end of the first list takes from both. -/
theorem page_both {α : Type*} {l₁ l₂ : List α} (first : 1 ≤ lo) (begins : lo ≤ l₁.length)
    (ends : l₁.length < hi) :
    ((l₁ ++ l₂).drop (lo - 1)).take (hi + 1 - lo) =
      l₁.drop (lo - 1) ++ l₂.take (hi - l₁.length) := by
  rw [List.drop_append_of_le_length (by omega), List.take_append,
    List.take_of_length_le (by rw [List.length_drop]; omega), List.length_drop]
  congr 2
  omega

/-- The entries of a page. -/
def Cache.page (cache : Cache ρ) (lo hi : Nat) : List (UInt32 × UInt8) :=
  (cache.flagged.drop (lo - 1)).take (hi + 1 - lo)

/-- A page is cut off where the friends end. -/
theorem length_page :
    (cache.page lo hi).length = min (hi + 1 - lo) (cache.friends.length - (lo - 1)) := by
  rw [Cache.page, List.length_take, List.length_drop, Cache.flagged, Cache.friends]
  simp

/-- The page is written in any case. What is counted is how far the counter is from its first
place. -/
theorem getFriendList_page (loaded : cache.isAddFriendList = true) (first : 1 ≤ lo)
    (page : lo ≤ hi) (any : cache.friends ≠ []) :
    cache.getFriendList lo hi = some (cache.page lo hi,
      (min (cache.friends.length + 1) (hi + 1) + 2 ^ 16 - lo % 2 ^ 16) % 2 ^ 16) := by
  have total : cache.friends.length =
      cache.bestFriendIdList.length + cache.normalFriendIdList.length := List.length_append
  have nonempty : cache.friends.length ≠ 0 := mt List.eq_nil_of_length_eq_zero any
  have bestLength : (cache.bestFriendIdList.map fun id => (id, (1 : UInt8))).length =
      cache.bestFriendIdList.length := List.length_map _
  rw [Cache.getFriendList, loaded, Cache.page, Cache.flagged]
  dsimp only
  rw [if_neg (by decide), if_neg (by omega)]
  split
  · rw [entries_eq page (by omega), max_eq_right first, page_left first page (by omega)]
    congr 2
    omega
  · split
    · rw [entries_eq page (by omega), max_eq_right (by omega), page_right (by omega), bestLength]
      congr 2
      omega
    · have firstLoop : Cache.entries lo hi 1 1 cache.bestFriendIdList =
          ((cache.bestFriendIdList.map fun id => (id, 1)).drop (lo - 1),
            cache.bestFriendIdList.length + 1) := by
        rw [entries_eq page (by omega), max_eq_right first,
          List.take_of_length_le (by rw [List.length_drop]; omega)]
        congr 1
        omega
      have secondLoop : Cache.entries lo hi 0 (cache.bestFriendIdList.length + 1)
          cache.normalFriendIdList =
          ((cache.normalFriendIdList.map fun id => (id, 0)).take
            (hi - cache.bestFriendIdList.length),
            min (cache.bestFriendIdList.length + 1 + cache.normalFriendIdList.length)
              (hi + 1)) := by
        have all : lo - (cache.bestFriendIdList.length + 1) = 0 := by omega
        rw [entries_eq page (by omega), max_eq_left (by omega), all, List.drop_zero,
          Nat.add_sub_add_right]
      rw [firstLoop, secondLoop, page_both first (by omega) (by omega), bestLength]
      congr 2
      omega

/-- Without friends there is nothing to list. -/
theorem getFriendList_nil (loaded : cache.isAddFriendList = true) (none : cache.friends = []) :
    cache.getFriendList lo hi = some ([], 0) := by
  obtain ⟨best, normal⟩ := List.append_eq_nil_iff.mp none
  rw [Cache.getFriendList, loaded, best, normal]
  rfl

/-- Without friends every page is empty. -/
theorem page_nil (none : cache.friends = []) : cache.page lo hi = [] := by
  apply List.eq_nil_of_length_eq_zero
  rw [length_page, none, List.length_nil]
  omega

/-- A page that begins with a friend, or right behind the last, is written and counted. -/
theorem getFriendList_eq (loaded : cache.isAddFriendList = true) (first : 1 ≤ lo)
    (page : lo ≤ hi) (short : hi < lo + 100) (begins : lo ≤ cache.friends.length + 1) :
    cache.getFriendList lo hi = some (cache.page lo hi, (cache.page lo hi).length) := by
  by_cases none : cache.friends = []
  · rw [getFriendList_nil loaded none, page_nil none]
    rfl
  · rw [getFriendList_page loaded first page none, length_page]
    congr 2
    omega

/-- A page that is asked for of friends that are loaded is written and counted. -/
def Cache.PageRight (cache : Cache ρ) (lo hi : Nat) : Prop :=
  cache.getFriendList lo hi =
    if cache.isAddFriendList then some (cache.page lo hi, (cache.page lo hi).length) else none

/-- There are no friends, or the page begins with a friend or right behind the last and is short
enough for its 16 bits, or it begins so far behind that nothing is left in 16 bits. -/
def Cache.Countable (cache : Cache ρ) (lo hi : Nat) : Prop :=
  cache.isAddFriendList = true → cache.friends = [] ∨
    lo ≤ cache.friends.length + 1 ∧ min hi cache.friends.length + 1 < lo + 2 ^ 16 ∨
    cache.friends.length + 1 < lo ∧ (lo - (cache.friends.length + 1)) % 2 ^ 16 = 0

/-- A page is right exactly when its count is. -/
theorem pageRight_iff_countable (first : 1 ≤ lo) (page : lo ≤ hi) :
    cache.PageRight lo hi ↔ cache.Countable lo hi := by
  rw [Cache.PageRight, Cache.Countable]
  cases loaded : cache.isAddFriendList with
  | false =>
    have refused : cache.getFriendList lo hi = none := by
      rw [Cache.getFriendList, loaded]
      rfl
    simp [refused]
  | true =>
    rw [if_pos rfl, forall_prop_of_true rfl]
    by_cases none : cache.friends = []
    · rw [getFriendList_nil loaded none, page_nil none]
      simp [none]
    · rw [getFriendList_page loaded first page none, length_page, Option.some_inj, Prod.mk.injEq,
        or_iff_right none]
      constructor
      · omega
      · intro countable
        exact ⟨rfl, by omega⟩

/-- What the tree reads is what has been written. -/
theorem range_map_getD {α : Type*} (l : List α) (d : α) :
    ((List.range l.length).map fun i => l[i]?.getD d) = l := by
  apply List.ext_getElem
  · simp
  · intro i _ inside
    simp [inside]

theorem mapM_congr {α β γ : Type*} {l : List α} {f : α → Option γ} {g : β → Option γ} {p : α → β}
    (same : ∀ x ∈ l, f x = g (p x)) : l.mapM f = (l.map p).mapM g := by
  induction l with
  | nil => rfl
  | cons x rest ih =>
    rw [List.map_cons, List.mapM_cons, List.mapM_cons, same x List.mem_cons_self,
      ih fun y member => same y (List.mem_cons_of_mem _ member)]

end Pages

/-- Every friend is reported with the data given last. -/
theorem Kept.reports {s : Friendship ρ} (kept : Kept s) : Reports s := by
  intro loaded min max first page short begins
  rw [Cache.getSelfFriendTree, getFriendList_eq loaded first page short begins]
  dsimp only
  rw [Cache.page, range_map_getD, ← flagged_map_fst, ← List.map_drop, ← List.map_take, List.length_map]
  have total : s.cache.bestFriendIdList.length + s.cache.normalFriendIdList.length =
      s.cache.flagged.length := by
    simp [Cache.flagged]
  rw [total]
  congr 1
  apply mapM_congr
  intro entry member
  have listed := List.mem_of_mem_drop (List.mem_of_mem_take member)
  obtain best | normal := List.mem_append.mp listed
  · obtain ⟨id, there, rfl⟩ := List.mem_map.mp best
    obtain ⟨info, found, flag⟩ := (kept.filed.best id).mp there
    refine (detail_congr ?_).trans (kept.current id info found)
    simp [flag]
  · obtain ⟨id, there, rfl⟩ := List.mem_map.mp normal
    obtain ⟨info, found, flag⟩ := (kept.filed.normal id).mp there
    refine (detail_congr ?_).trans (kept.current id info found)
    simp [flag]

/-- In every run of calls that fit, the lists and the flags agree, a call that fails changes
nothing, and pages report what was given last. -/
theorem friends_agree_of_fits {userId otherUserId : UInt32} {s : Friendship ρ}
    (run : Reaches Friendship.step Fits (.init userId otherUserId) s) :
    Filed s.cache ∧ Reports s ∧
      ∀ call, Fits s call → (s.cache.call call).1 ≠ 0 → (s.cache.call call).2 = s.cache := by
  have kept : Kept s := by
    apply run.invariant
    · exact .init userId otherUserId
    · exact fun before fits => before.step fits
  exact ⟨kept.filed, kept.reports, fun call => kept.refused⟩

instance Fits.decidable [DecidableEq ρ] (s : Friendship ρ) : ∀ call, Decidable (Fits s call)
  | .addFriendList infos =>
    inferInstanceAs (Decidable ((infos.map FriendInfo.friendId).Nodup ∧
      ∀ info ∈ infos, s.cache.friendListMap info.friendId = none ∧
        s.cache.detail (info.friendId, info.isBestfriend) = s.latest info.friendId))
  | .addFriend userId friend newFriend =>
    inferInstanceAs (Decidable (userId = s.cache.userId →
      (newFriend = true → s.cache.friendListMap friend.userId = none) ∧
      (newFriend = true ∨ (s.cache.friendListMap friend.userId).isSome = true →
        ∀ old ∈ s.cache.detail (friend.userId, friend.isBestFriend), old = friend) ∧
      (newFriend = false → ∀ info ∈ s.cache.friendListMap friend.userId,
        (info.isBestfriend = 0 ↔ friend.isBestFriend = 0))))
  | .setBestFriend peerId isBestFriend =>
    inferInstanceAs (Decidable (∀ info ∈ s.cache.friendListMap peerId,
      (isBestFriend = 0 ↔ UInt8.ofInt isBestFriend = 0) ∧
      ((info.isBestfriend = 0 ↔ isBestFriend = 0) → info.isBestfriend = UInt8.ofInt isBestFriend) ∧
      (¬ (info.isBestfriend = 0 ↔ isBestFriend = 0) →
        s.cache.detail (peerId, UInt8.ofInt isBestFriend) = s.latest peerId)))
  | .delFriend _ => inferInstanceAs (Decidable True)

theorem friends_agree_of_fits_three :
    let s := List.foldl Friendship.step (Friendship.init 1 0 : Friendship Nat)
      [.addFriendList [⟨7, 0, 0⟩, ⟨8, 0, 1⟩], .setBestFriend 7 1, .addFriend 1 ⟨7, 0, 1, 30⟩ false,
        .delFriend 8, .addFriend 1 ⟨9, 0, 0, 40⟩ true]
    Filed s.cache ∧ Reports s ∧
      ∀ call, Fits s call → (s.cache.call call).1 ≠ 0 → (s.cache.call call).2 = s.cache :=
  friends_agree_of_fits (Reaches.refl.follow (by decide +kernel))

/-- Who is deleted and becomes a friend again is reported with the data from before. -/
theorem friend_again_with_old_data : ∃ s : Friendship Nat,
    Reaches Friendship.step (fun _ _ => True) (.init 1 0) s ∧ ¬ Reports s := by
  refine ⟨List.foldl Friendship.step (Friendship.init 1 0)
    [.addFriendList [], .addFriend 1 ⟨7, 0, 0, 10⟩ true, .delFriend 7,
      .addFriend 1 ⟨7, 0, 0, 20⟩ true], Reaches.of_list fun _ _ _ => trivial, fun reports => ?_⟩
  exact absurd (reports (by decide) 1 1 (by decide) (by decide) (by decide) (by decide +kernel))
    (by decide +kernel)

end Taomee.Monster.Friends
