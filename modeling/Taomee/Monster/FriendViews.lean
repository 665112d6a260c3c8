import Taomee.Monster.FriendLists

/-!
# The friends of other users

A user looks at the friends of other users one after the other. The friends of the user who is
looked at are supplied while he is, and they are to be forgotten when the next one is looked at.
-/

namespace Taomee.Monster.Friends

open Runs

variable {ρ : Type}

/-- `c_friend` with the friends of the user who is looked at. -/
structure Views (ρ : Type) extends Cache ρ where
  isAddOtherFriendList : Bool
  otherBestFriendIdVec : List UInt32
  otherNormalFriendIdVec : List UInt32

namespace Views

def init (userId : UInt32) : Views ρ :=
  { Cache.init userId 0 with
    isAddOtherFriendList := false, otherBestFriendIdVec := [], otherNormalFriendIdVec := [] }

/-- One turn of the loop of `add_other_friend_list`. -/
def addOtherFriendInfo (v : Views ρ) (info : FriendInfo) : Views ρ :=
  if info.isBestfriend ≠ 0 then
    { v with otherBestFriendIdVec := v.otherBestFriendIdVec ++ [info.friendId] }
  else { v with otherNormalFriendIdVec := v.otherNormalFriendIdVec ++ [info.friendId] }

def addOtherFriendList (v : Views ρ) (peerId : UInt32) (infos : List FriendInfo) :
    Int × Views ρ :=
  if v.otherUserId ≠ peerId then (-1, v)
  else (0, { infos.foldl addOtherFriendInfo v with isAddOtherFriendList := true })

def addFriend (v : Views ρ) (userId : UInt32) (friend : FriendList ρ) (newFriend : Bool) :
    Int × Views ρ :=
  let result := v.toCache.addFriend userId friend newFriend
  (result.1, { v with toCache := result.2 })

/-- `del_friend_tree(false)`. -/
def delFriendTree (v : Views ρ) : Views ρ :=
  { v with
    otherBestFriendMap := fun _ => none
    otherNormalFriendMap := fun _ => none
    otherBestFriendIdVec := []
    otherNormalFriendIdVec := []
    otherUserId := 0
    isAddOtherFriendList := false }

/-- The friends of the other user, as his own cache has them. -/
def other (v : Views ρ) : Cache ρ :=
  { Cache.init v.otherUserId 0 with
    isAddFriendList := v.isAddOtherFriendList
    bestFriendIdList := v.otherBestFriendIdVec
    normalFriendIdList := v.otherNormalFriendIdVec
    bestFriendMap := v.otherBestFriendMap
    normalFriendMap := v.otherNormalFriendMap }

/-- `get_other_friend_list` does with the vectors what `get_friend_list` does with the lists. -/
def getOtherFriendList (v : Views ρ) (min max : Nat) : Option (List (UInt32 × UInt8) × Nat) :=
  v.other.getFriendList min max

/-- `get_other_friend_tree`: a result of `none` is -1. When the user is the one looked at, it and
`get_other_friend_list` do with his friends what their siblings do with the user's own. -/
def getOtherFriendTree (v : Views ρ) (userId : UInt32) (min max : Nat) :
    Option (List (FriendList ρ) × Nat) × Views ρ :=
  if userId ≠ v.otherUserId then
    let v := if v.otherUserId = 0 then v.delFriendTree else v
    (none, { v with otherUserId := userId })
  else (v.other.getSelfFriendTree min max, v)

end Views

/-! ## Looking at users -/

/-- What is supplied for the user who is looked at. -/
inductive Supply (ρ : Type) where
  | list (infos : List FriendInfo)
  | friend (friend : FriendList ρ)

inductive View (ρ : Type) where
  | getOtherFriendTree (userId : UInt32) (min max : Nat)
  | addOtherFriendList (peerId : UInt32) (infos : List FriendInfo)
  | addFriend (userId : UInt32) (friend : FriendList ρ) (newFriend : Bool)
  | delFriendTree

/-- A cache, what was supplied for the user who is looked at since then, and the friends that were
ever supplied for each user. -/
structure Viewing (ρ : Type) where
  views : Views ρ
  since : List (Supply ρ)
  supplied : UInt32 → List (FriendList ρ)

namespace Viewing

def init (userId : UInt32) : Viewing ρ := ⟨.init userId, [], fun _ => []⟩

def step (s : Viewing ρ) : View ρ → Viewing ρ
  | .getOtherFriendTree userId min max =>
    { s with
      views := (s.views.getOtherFriendTree userId min max).2
      since := if userId ≠ s.views.otherUserId then [] else s.since }
  | .addOtherFriendList peerId infos =>
    { s with
      views := (s.views.addOtherFriendList peerId infos).2
      since := if s.views.otherUserId ≠ peerId then s.since else s.since ++ [.list infos] }
  | .addFriend userId friend newFriend =>
    let views := (s.views.addFriend userId friend newFriend).2
    if userId ≠ s.views.userId ∧ userId = s.views.otherUserId then
      { views
        since := s.since ++ [.friend friend]
        supplied := Function.update s.supplied userId (friend :: s.supplied userId) }
    else { s with views }
  | .delFriendTree => { s with views := s.views.delFriendTree, since := [] }

/-- Another user is looked at when the cache is empty: it was emptied, or nothing was supplied for
the user before. -/
def Fits (s : Viewing ρ) : View ρ → Prop
  | .getOtherFriendTree userId _ _ =>
    userId = s.views.otherUserId ∨ s.views.otherUserId = 0 ∨ s.since = []
  | .addOtherFriendList .. | .addFriend .. | .delFriendTree => True

end Viewing

/-! ## The cache and what was supplied -/

/-- What a supply does to a cache that has only this user's friends. -/
def Cache.supply (cache : Cache ρ) : Supply ρ → Cache ρ
  | .list infos =>
    { cache with
      isAddFriendList := true
      bestFriendIdList := cache.bestFriendIdList ++
        (infos.filter fun info => info.isBestfriend ≠ 0).map FriendInfo.friendId
      normalFriendIdList := cache.normalFriendIdList ++
        (infos.filter fun info => info.isBestfriend = 0).map FriendInfo.friendId }
  | .friend friend => cache.addSelfFriend friend false

/-- The cache of a user for whom nothing but this was supplied. -/
def supplied (userId : UInt32) (since : List (Supply ρ)) : Cache ρ :=
  since.foldl Cache.supply (Cache.init userId 0)

theorem supplied_append (userId : UInt32) (since : List (Supply ρ)) (supply : Supply ρ) :
    supplied userId (since ++ [supply]) = (supplied userId since).supply supply := by
  rw [supplied, List.foldl_append]
  rfl

/-- Data in the cache was supplied. -/
theorem mem_of_detail {userId : UInt32} {since : List (Supply ρ)} {entry : UInt32 × UInt8}
    {friend : FriendList ρ} (found : (supplied userId since).detail entry = some friend) :
    .friend friend ∈ since := by
  induction since using List.reverseRecOn with
  | nil =>
    have nothing : (Cache.init userId 0 : Cache ρ).detail entry = none := by
      rw [Cache.detail]
      split <;> rfl
    exact absurd (nothing.symm.trans found) (Option.some_ne_none _).symm
  | append_singleton since supply ih =>
    rw [supplied_append] at found
    cases supply with
    | list infos => exact List.mem_append_left _ (ih found)
    | friend new =>
      have either : (supplied userId since).detail entry = some friend ∨ new = friend := by
        change ((supplied userId since).addSelfFriend new false).detail (entry.1, entry.2) = _
          at found
        rw [detail_addSelfFriend] at found
        split at found
        · cases old : (supplied userId since).detail (entry.1, entry.2) with
          | none =>
            rw [old] at found
            exact .inr (Option.some.inj found)
          | some friend' =>
            rw [old] at found
            exact .inl found
        · exact .inl found
      obtain before | rfl := either
      · exact List.mem_append_left _ (ih before)
      · exact List.mem_append_right _ (List.mem_singleton_self _)

theorem exists_of_mapM {α β : Type*} {f : α → Option β} {l : List α} {l' : List β} {b : β}
    (mapped : l.mapM f = some l') (member : b ∈ l') : ∃ a ∈ l, f a = some b := by
  induction l generalizing l' with
  | nil =>
    cases mapped
    exact absurd member List.not_mem_nil
  | cons a rest ih =>
    rw [List.mapM_cons] at mapped
    obtain ⟨first, here, mapped⟩ := Option.bind_eq_some_iff.mp mapped
    obtain ⟨later, there, same⟩ := Option.bind_eq_some_iff.mp mapped
    cases same
    obtain rfl | member := List.mem_cons.mp member
    · exact ⟨a, List.mem_cons_self, here⟩
    · obtain ⟨a', among, found⟩ := ih there member
      exact ⟨a', List.mem_cons_of_mem _ among, found⟩

/-- A page shows data of the cache. -/
theorem exists_detail_of_tree {cache : Cache ρ} {min max count : Nat}
    {friends : List (FriendList ρ)}
    (page : cache.getSelfFriendTree min max = some (friends, count)) {friend : FriendList ρ}
    (member : friend ∈ friends) : ∃ entry, cache.detail entry = some friend := by
  rw [Cache.getSelfFriendTree] at page
  split at page
  · cases page
  · obtain ⟨shown, mapped, same⟩ := Option.map_eq_some_iff.mp page
    cases same
    obtain ⟨entry, -, found⟩ := exists_of_mapM mapped member
    exact ⟨entry, found⟩

namespace Views

theorem other_addOtherFriendInfos (v : Views ρ) (infos : List FriendInfo) :
    (infos.foldl addOtherFriendInfo v).other =
      { v.other with
        bestFriendIdList := v.otherBestFriendIdVec ++
          (infos.filter fun info => info.isBestfriend ≠ 0).map FriendInfo.friendId
        normalFriendIdList := v.otherNormalFriendIdVec ++
          (infos.filter fun info => info.isBestfriend = 0).map FriendInfo.friendId } := by
  induction infos generalizing v with
  | nil => simp [other]
  | cons info rest ih =>
    rw [List.foldl_cons, ih]
    by_cases flag : info.isBestfriend = 0 <;> simp [addOtherFriendInfo, other, flag]

end Views

/-- The cache is what the supplies make of an empty one, and the supplies are remembered. -/
structure Isolated (s : Viewing ρ) : Prop where
  other : s.views.other = supplied s.views.otherUserId s.since
  friends : ∀ friend, .friend friend ∈ s.since → friend ∈ s.supplied s.views.otherUserId

namespace Isolated

variable {s : Viewing ρ}

theorem init (userId : UInt32) : Isolated (.init userId : Viewing ρ) :=
  ⟨rfl, fun _ member => absurd member List.not_mem_nil⟩

theorem getOtherFriendTree (isolated : Isolated s) {userId : UInt32} {min max : Nat}
    (fits : userId = s.views.otherUserId ∨ s.views.otherUserId = 0 ∨ s.since = []) :
    Isolated (s.step (.getOtherFriendTree userId min max)) := by
  rw [Viewing.step, Views.getOtherFriendTree]
  by_cases same : userId = s.views.otherUserId
  · rw [if_neg (not_not.mpr same), if_neg (not_not.mpr same)]
    exact isolated
  · rw [if_pos same, if_pos same]
    refine ⟨?_, fun _ member => absurd member List.not_mem_nil⟩
    split
    · rfl
    · rename_i viewed
      have empty : s.since = [] := (fits.resolve_left same).resolve_left viewed
      have other := isolated.other
      rw [empty] at other
      change { s.views.other with userId := userId } = Cache.init userId 0
      rw [other]
      rfl

theorem addOtherFriendList (isolated : Isolated s) (peerId : UInt32) (infos : List FriendInfo) :
    Isolated (s.step (.addOtherFriendList peerId infos)) := by
  rw [Viewing.step, Views.addOtherFriendList]
  by_cases same : s.views.otherUserId = peerId
  · rw [if_neg (not_not.mpr same), if_neg (not_not.mpr same)]
    have viewed : (infos.foldl Views.addOtherFriendInfo s.views).otherUserId =
        s.views.otherUserId :=
      congrArg Cache.userId (Views.other_addOtherFriendInfos s.views infos)
    constructor
    · rw [viewed, supplied_append, ← isolated.other]
      change { (infos.foldl Views.addOtherFriendInfo s.views).other with
        isAddFriendList := true } = _
      rw [Views.other_addOtherFriendInfos]
      rfl
    · intro friend member
      rw [viewed]
      obtain before | new := List.mem_append.mp member
      · exact isolated.friends friend before
      · cases List.mem_singleton.mp new
  · rw [if_pos same, if_pos same]
    exact isolated

theorem addFriend (isolated : Isolated s) (userId : UInt32) (friend : FriendList ρ)
    (newFriend : Bool) : Isolated (s.step (.addFriend userId friend newFriend)) := by
  rw [Viewing.step, Views.addFriend, Cache.addFriend]
  by_cases own : userId = s.views.userId
  · rw [if_pos own, if_neg fun both => both.1 own]
    have kept : ∀ cache, cache = s.views.toCache.addSelfFriend friend newFriend →
        { s.views with toCache := cache }.other = s.views.other ∧
          cache.otherUserId = s.views.otherUserId := by
      rw [Cache.addSelfFriend]
      cases newFriend <;> by_cases flag : friend.isBestFriend = 0 <;>
        simp [flag, Views.other]
    obtain ⟨other, viewed⟩ := kept _ rfl
    constructor
    · rw [other, viewed]
      exact isolated.other
    · intro friend' member
      rw [viewed]
      exact isolated.friends friend' member
  · rw [if_neg own]
    by_cases viewed : userId = s.views.otherUserId
    · rw [if_pos viewed, if_pos ⟨own, viewed⟩]
      have kept : ∀ cache, cache = s.views.toCache.addOtherFriend friend →
          { s.views with toCache := cache }.other = s.views.other.addSelfFriend friend false ∧
            cache.otherUserId = s.views.otherUserId := by
        rw [Cache.addOtherFriend, Cache.addSelfFriend]
        by_cases flag : friend.isBestFriend = 0 <;> simp [flag, Views.other]
      obtain ⟨other, still⟩ := kept _ rfl
      constructor
      · rw [other, still, supplied_append, isolated.other]
        rfl
      · intro friend' member
        change friend' ∈ Function.update s.supplied userId (friend :: s.supplied userId)
          (Cache.otherUserId _)
        rw [still, ← viewed, Function.update_self]
        obtain before | new := List.mem_append.mp member
        · rw [viewed]
          exact List.mem_cons_of_mem _ (isolated.friends friend' before)
        · cases List.mem_singleton.mp new
          exact List.mem_cons_self
    · rw [if_neg viewed, if_neg fun both => viewed both.2]
      exact isolated

theorem step (isolated : Isolated s) {view : View ρ} (fits : s.Fits view) :
    Isolated (s.step view) := by
  cases view with
  | getOtherFriendTree userId min max => exact isolated.getOtherFriendTree fits
  | addOtherFriendList peerId infos => exact isolated.addOtherFriendList peerId infos
  | addFriend userId friend newFriend => exact isolated.addFriend userId friend newFriend
  | delFriendTree => exact ⟨rfl, fun _ member => absurd member List.not_mem_nil⟩

end Isolated

namespace Viewing

/-- In runs in which another user is looked at when the cache is empty, a page shows friends that
were supplied for its user, and what was done before he was looked at makes no difference. -/
theorem isolated_of_fits {userId : UInt32} {s s' : Viewing ρ}
    (run : Reaches step Fits (init userId) s) (run' : Reaches step Fits (init userId) s') :
    (∀ user min max friends count,
      (s.views.getOtherFriendTree user min max).1 = some (friends, count) →
        ∀ friend ∈ friends, friend ∈ s.supplied user) ∧
    (s.views.otherUserId = s'.views.otherUserId → s.since = s'.since → ∀ user min max,
      (s.views.getOtherFriendTree user min max).1 =
        (s'.views.getOtherFriendTree user min max).1) := by
  have isolated : ∀ {s : Viewing ρ}, Reaches step Fits (init userId) s → Isolated s := by
    intro s run
    apply run.invariant
    · exact .init userId
    · exact fun isolated fits => isolated.step fits
  refine ⟨fun user min max friends count page friend member => ?_,
    fun viewed since user min max => ?_⟩
  · rw [Views.getOtherFriendTree] at page
    split at page
    · cases page
    · rename_i same
      obtain rfl := not_not.mp same
      obtain ⟨entry, found⟩ := exists_detail_of_tree page member
      rw [(isolated run).other] at found
      exact (isolated run).friends friend (mem_of_detail found)
  · have others : s.views.other = s'.views.other := by
      rw [(isolated run).other, (isolated run').other, viewed, since]
    rw [Views.getOtherFriendTree, Views.getOtherFriendTree, ← viewed, others]
    split <;> rfl

instance Fits.decidable (s : Viewing ρ) : ∀ view, Decidable (Fits s view)
  | .getOtherFriendTree userId _ _ => inferInstanceAs (Decidable (userId = s.views.otherUserId ∨
      s.views.otherUserId = 0 ∨ s.since = []))
  | .addOtherFriendList .. | .addFriend .. | .delFriendTree => inferInstanceAs (Decidable True)

theorem isolated_of_fits_two :
    let s := List.foldl step (init 1 : Viewing Nat)
      [.getOtherFriendTree 2 1 6, .addOtherFriendList 2 [⟨10, 0, 0⟩],
        .addFriend 2 ⟨10, 0, 0, 30⟩ false, .getOtherFriendTree 2 1 6, .delFriendTree,
        .getOtherFriendTree 3 1 6, .addOtherFriendList 3 [⟨11, 0, 1⟩],
        .addFriend 3 ⟨11, 0, 1, 40⟩ false]
    let s' := List.foldl step (init 1 : Viewing Nat)
      [.getOtherFriendTree 3 1 6, .addOtherFriendList 3 [⟨11, 0, 1⟩],
        .addFriend 3 ⟨11, 0, 1, 40⟩ false]
    (∀ user min max friends count,
      (s.views.getOtherFriendTree user min max).1 = some (friends, count) →
        ∀ friend ∈ friends, friend ∈ s.supplied user) ∧
    (s.views.otherUserId = s'.views.otherUserId → s.since = s'.since → ∀ user min max,
      (s.views.getOtherFriendTree user min max).1 =
        (s'.views.getOtherFriendTree user min max).1) :=
  isolated_of_fits (Reaches.refl.follow (by decide +kernel))
    (Reaches.refl.follow (by decide +kernel))

/-- The second user is shown with the friends of the first. -/
theorem friends_of_the_user_before : ∃ s : Viewing Nat,
    Reaches step (fun _ _ => True) (init 1) s ∧
    ¬ ∀ user min max friends count,
      (s.views.getOtherFriendTree user min max).1 = some (friends, count) →
        ∀ friend ∈ friends, friend ∈ s.supplied user := by
  refine ⟨List.foldl step (init 1)
    [.getOtherFriendTree 2 1 6, .addOtherFriendList 2 [⟨10, 0, 0⟩],
      .addFriend 2 ⟨10, 0, 0, 30⟩ false, .getOtherFriendTree 3 1 6],
    Reaches.of_list fun _ _ _ => trivial, fun own => ?_⟩
  have shown := own 3 1 6 [⟨10, 0, 0, 30⟩] 1 (by decide +kernel) ⟨10, 0, 0, 30⟩
    (List.mem_singleton_self _)
  exact absurd shown (by decide +kernel)

end Viewing

/-- The friends of the other user, best friends first, with their flags. -/
def Views.otherPage (v : Views ρ) (lo hi : Nat) : List (UInt32 × UInt8) := v.other.page lo hi

/-- For every cache and page: the page is right if and only if it can be counted, for the user's own
friends as for those of the user he looks at. -/
theorem pages_right_iff (v : Views ρ) {lo hi : Nat} (first : 1 ≤ lo) (page : lo ≤ hi) :
    (v.getFriendList lo hi = (if v.isAddFriendList then
        some (v.page lo hi, (v.page lo hi).length) else none) ↔
      v.toCache.Countable lo hi) ∧
    (v.getOtherFriendList lo hi = (if v.isAddOtherFriendList then
        some (v.otherPage lo hi, (v.otherPage lo hi).length) else none) ↔
      v.other.Countable lo hi) :=
  ⟨pageRight_iff_countable first page, pageRight_iff_countable first page⟩

theorem pages_right_iff_two :
    let v : Views Nat := ((Views.init 1).addOtherFriendList 0 [⟨7, 0, 0⟩, ⟨8, 0, 1⟩]).2
    (v.getFriendList 2 3 = (if v.isAddFriendList then
        some (v.page 2 3, (v.page 2 3).length) else none) ↔
      v.toCache.Countable 2 3) ∧
    (v.getOtherFriendList 2 3 = (if v.isAddOtherFriendList then
        some (v.otherPage 2 3, (v.otherPage 2 3).length) else none) ↔
      v.other.Countable 2 3) :=
  pages_right_iff _ (by decide) (by decide)

/-- Of one friend, the page behind the next one is counted as 65535 entries long. -/
theorem page_behind_the_end :
    let cache : Cache Nat := (Cache.init 1 0).addFriendList [⟨7, 0, 0⟩]
    cache.getFriendList 3 4 = some ([], 65535) ∧ cache.page 3 4 = [] ∧ ¬ cache.PageRight 3 4 := by
  unfold Cache.PageRight
  decide +kernel

end Taomee.Monster.Friends
