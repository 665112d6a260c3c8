import Taomee.Monster.Friends

/-!
# Who is on which connection

The user manager keeps the users in an array by the file descriptors of their connections, and in
a map the session of each user id. A user id of 0 in the array marks a free entry.
-/

namespace Taomee.Monster.Users

open Runs

def maxPlayerNum : Int := 60000

/-- `usr_info_t`. A `session` of `none` is a null pointer. -/
structure UsrInfo (σ : Type) where
  uid : UInt32
  waitcmd : UInt32
  counter : UInt16
  session : Option σ
  isRegister : UInt8
  waitingFlag : UInt8
  deriving DecidableEq

/-- `inc_counter`: 0 is left out. -/
def UsrInfo.incCounter {σ : Type} (user : UsrInfo σ) : UsrInfo σ :=
  { user with counter := if user.counter + 1 = 0 then 1 else user.counter + 1 }

structure UserManager (σ : Type) where
  allUsers : Int → UsrInfo σ
  userFdMap : UInt32 → Option σ

inductive Call (σ : Type) where
  | allocUser (fd : Int) (uid : UInt32) (fdsess : σ)
  | deallocUser (fd : Int)

namespace UserManager

variable {σ : Type}

def init : UserManager σ := ⟨fun _ => ⟨0, 0, 0, none, 0, 0⟩, fun _ => none⟩

variable (m : UserManager σ)

def getUser (fd : Int) : Option (UsrInfo σ) :=
  if fd ≥ 0 ∧ fd < maxPlayerNum then
    if (m.allUsers fd).uid ≠ 0 then some (m.allUsers fd) else none
  else none

def getFd (uid : UInt32) : Option σ := m.userFdMap uid

/-- Whether a user is returned. The map keeps a session that it has. -/
def allocUser (fd : Int) (uid : UInt32) (fdsess : σ) : Bool × UserManager σ :=
  if fd ≥ 0 ∧ fd < maxPlayerNum then
    let user := m.allUsers fd
    if user.uid = 0 then
      let user : UsrInfo σ :=
        { user with uid, waitcmd := 0, isRegister := 0, session := some fdsess, waitingFlag := 0 }
      (true,
        { allUsers := Function.update m.allUsers fd user.incCounter
          userFdMap := Friends.insert m.userFdMap uid fdsess })
    else (false, m)
  else (false, m)

def deallocUser (fd : Int) : UserManager σ :=
  match m.getUser fd with
  | none => m
  | some user =>
    { allUsers :=
        Function.update m.allUsers fd { user with uid := 0, isRegister := 0, waitingFlag := 0 }
      userFdMap := Function.update m.userFdMap user.uid none }

def step (m : UserManager σ) : Call σ → UserManager σ
  | .allocUser fd uid fdsess => (m.allocUser fd uid fdsess).2
  | .deallocUser fd => m.deallocUser fd

/-! ## Users and sessions -/

/-- A user comes with an id other than 0, and goes when he is on no other connection. -/
def Fits (m : UserManager σ) : Call σ → Prop
  | .allocUser _ uid _ => uid ≠ 0
  | .deallocUser fd => ∀ user, m.getUser fd = some user →
      ∀ other ≠ fd, ∀ user', m.getUser other = some user' → user'.uid ≠ user.uid

/-- The map has a session for the users that there are. -/
structure Matched (m : UserManager σ) : Prop where
  session : ∀ uid sess, m.getFd uid = some sess →
    ∃ fd user, m.getUser fd = some user ∧ user.uid = uid ∧ user.session = some sess
  mapped : ∀ fd user, m.getUser fd = some user → m.getFd user.uid ≠ none

variable {m}

theorem getUser_eq_some {fd : Int} {user : UsrInfo σ} :
    m.getUser fd = some user ↔
      (fd ≥ 0 ∧ fd < maxPlayerNum) ∧ user.uid ≠ 0 ∧ m.allUsers fd = user := by
  rw [getUser]
  constructor
  · intro found
    split at found
    · rename_i within
      split at found
      · rename_i taken
        obtain rfl := Option.some.inj found
        exact ⟨within, taken, rfl⟩
      · cases found
    · cases found
  · rintro ⟨within, taken, rfl⟩
    rw [if_pos within, if_pos taken]

theorem getUser_update {fd other : Int} {user : UsrInfo σ} {map : UInt32 → Option σ}
    (apart : other ≠ fd) :
    getUser ⟨Function.update m.allUsers fd user, map⟩ other = m.getUser other := by
  have same : Function.update m.allUsers fd user other = m.allUsers other :=
    Function.update_of_ne apart ..
  simp only [getUser, same]

namespace Matched

theorem allocUser (matched : Matched m) {fd : Int} {uid : UInt32} {fdsess : σ}
    (named : uid ≠ 0) : Matched (m.allocUser fd uid fdsess).2 := by
  rw [UserManager.allocUser]
  split
  · rename_i within
    dsimp only
    split
    · rename_i free
      have before : m.getUser fd = none := by
        rw [getUser, if_pos within, if_neg (not_not.mpr free)]
      have after : ∀ user : UsrInfo σ, user.uid = uid → ∀ map,
          getUser ⟨Function.update m.allUsers fd user, map⟩ fd = some user := by
        intro user same map
        refine getUser_eq_some.mpr ⟨within, same ▸ named, ?_⟩
        exact Function.update_self ..
      have kept : ∀ {other user}, m.getUser other = some user → other ≠ fd := by
        rintro other user found rfl
        rw [before] at found
        cases found
      constructor
      · intro uid' sess found
        rw [getFd] at found
        dsimp only [Friends.insert] at found
        obtain rfl | apart := eq_or_ne uid' uid
        · rw [Function.update_self] at found
          cases there : m.userFdMap uid' with
          | none =>
            rw [there] at found
            exact ⟨fd, _, after _ rfl _, rfl, found⟩
          | some sess' =>
            rw [there] at found
            obtain ⟨other, user, here, same, session⟩ := matched.session uid' sess' there
            exact ⟨other, user, (getUser_update (kept here)).trans here, same, session.trans found⟩
        · rw [Function.update_of_ne apart] at found
          obtain ⟨other, user, here, same, session⟩ := matched.session uid' sess found
          exact ⟨other, user, (getUser_update (kept here)).trans here, same, session⟩
      · intro other user found
        rw [getFd]
        dsimp only [Friends.insert]
        obtain same | apart := eq_or_ne user.uid uid
        · rw [same, Function.update_self]
          exact Option.some_ne_none _
        · rw [Function.update_of_ne apart]
          have elsewhere : other ≠ fd := by
            rintro rfl
            rw [after _ rfl] at found
            obtain rfl := Option.some.inj found
            exact apart rfl
          rw [getUser_update elsewhere] at found
          exact matched.mapped other user found
    · exact matched
  · exact matched

theorem deallocUser (matched : Matched m) {fd : Int} (alone : ∀ user, m.getUser fd = some user →
      ∀ other ≠ fd, ∀ user', m.getUser other = some user' → user'.uid ≠ user.uid) :
    Matched (m.deallocUser fd) := by
  rw [UserManager.deallocUser]
  cases there : m.getUser fd with
  | none => exact matched
  | some user =>
    have gone : ∀ user' : UsrInfo σ, user'.uid = 0 → ∀ map,
        getUser ⟨Function.update m.allUsers fd user', map⟩ fd = none := by
      intro user' free map
      cases found : getUser ⟨Function.update m.allUsers fd user', map⟩ fd with
      | none => rfl
      | some user'' =>
        obtain ⟨-, taken, same⟩ := getUser_eq_some.mp found
        dsimp only at same
        rw [Function.update_self] at same
        exact absurd (same ▸ free) taken
    constructor
    · intro uid sess found
      rw [getFd] at found
      dsimp only at found
      obtain rfl | apart := eq_or_ne uid user.uid
      · rw [Function.update_self] at found
        cases found
      · rw [Function.update_of_ne apart] at found
        obtain ⟨other, user', here, same, session⟩ := matched.session uid sess found
        have elsewhere : other ≠ fd := by
          rintro rfl
          rw [there] at here
          obtain rfl := Option.some.inj here
          exact apart same.symm
        exact ⟨other, user', (getUser_update elsewhere).trans here, same, session⟩
    · intro other user' found
      have elsewhere : other ≠ fd := by
        rintro rfl
        rw [gone _ rfl] at found
        cases found
      rw [getUser_update elsewhere] at found
      have apart := alone user there other elsewhere user' found
      rw [getFd]
      dsimp only
      rw [Function.update_of_ne apart]
      exact matched.mapped other user' found

end Matched

/-- In every run in which users go when they are on no other connection, `get_fd` returns the
session of a user that there is, and nothing when there is none. -/
theorem matched_of_fits (run : Reaches step Fits (init : UserManager σ) m) (uid : UInt32) :
    (∀ sess, m.getFd uid = some sess →
      ∃ fd user, m.getUser fd = some user ∧ user.uid = uid ∧ user.session = some sess) ∧
    (m.getFd uid = none ↔ ∀ fd user, m.getUser fd = some user → user.uid ≠ uid) := by
  have matched : Matched m := by
    apply run.invariant
    · refine ⟨fun uid sess found => ?_, fun fd user found => ?_⟩
      · cases found
      · obtain ⟨-, taken, same⟩ := getUser_eq_some.mp found
        exact absurd (same ▸ rfl) taken
    · intro m call matched fits
      cases call with
      | allocUser fd uid fdsess => exact matched.allocUser fits
      | deallocUser fd => exact matched.deallocUser fits
  refine ⟨matched.session uid, fun none fd user found same => ?_, fun nobody => ?_⟩
  · exact matched.mapped fd user found (same ▸ none)
  · cases there : m.getFd uid with
    | none => rfl
    | some sess =>
      obtain ⟨fd, user, found, same, -⟩ := matched.session uid sess there
      exact absurd same (nobody fd user found)

theorem matched_of_fits_again :
    let m := List.foldl step (init : UserManager String)
      [.allocUser 3 7 "a", .deallocUser 3, .allocUser 5 7 "c"]
    (∀ sess, m.getFd 7 = some sess →
      ∃ fd user, m.getUser fd = some user ∧ user.uid = 7 ∧ user.session = some sess) ∧
    (m.getFd 7 = none ↔ ∀ fd user, m.getUser fd = some user → user.uid ≠ 7) := by
  have named : (7 : UInt32) ≠ 0 := by decide
  have first : Reaches step Fits (init : UserManager String) (step init (.allocUser 3 7 "a")) :=
    Reaches.refl.call named
  have second : Fits (step init (.allocUser 3 7 "a")) (.deallocUser 3) := by
    intro user there other apart user' found
    obtain ⟨-, taken, rfl⟩ := getUser_eq_some.mp ((getUser_update apart).symm.trans found)
    exact absurd rfl taken
  have third : Fits (step (step init (.allocUser 3 7 "a")) (.deallocUser 3))
      (.allocUser 5 7 "c") := named
  exact matched_of_fits ((first.call second).call third) 7

/-- A user is on a second connection, and `get_fd` finds nothing when the first one is closed. -/
theorem second_connection_lost :
    ∃ m : UserManager String, Reaches step (fun _ _ => True) init m ∧
      ¬ (m.getFd 7 = none ↔ ∀ fd user, m.getUser fd = some user → user.uid ≠ 7) := by
  refine ⟨List.foldl step init [.allocUser 3 7 "a", .allocUser 4 7 "b", .deallocUser 3],
    Reaches.of_list fun _ _ _ => trivial, fun agree => ?_⟩
  have none := agree.mp (by decide +kernel)
  refine none 4 ⟨7, 0, 1, some "b", 0, 0⟩ (by decide +kernel) rfl

end UserManager

end Taomee.Monster.Users
