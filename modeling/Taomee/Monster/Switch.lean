import Mathlib.Algebra.Order.Ring.Int
import Mathlib.Data.List.Range

/-!
# Who is online where

The switch keeps for each online server the users on it, in at most `MAX_NUM_PER_ONLINE` slots, and
for each user the server and the slot. Servers are known by the connection on which they have
registered.
-/

namespace Taomee.Monster.Switch

def maxOnlineNum : Nat := 2000

def maxNumPerOnline : Nat := 500

def telCom : Nat := 0

def netCom : Nat := 1

/-- `(uint32_t)-1`. -/
def noOnline : Nat := 2 ^ 32 - 1

structure UserInfo where
  userId : Nat
  onlineId : Nat
  onlineIndex : Nat
  deriving DecidableEq

/-- `online_info_t`. There is nothing in `userIds` from `MAX_NUM_PER_ONLINE` on. -/
structure OnlineInfo where
  onlineId : Nat
  connNum : Nat
  curIndex : Nat
  userIds : Nat → Nat
  onlineZone : Nat
  fdsess : Option Nat

/-- What `operator[]` of the map inserts. -/
def OnlineInfo.zero : OnlineInfo := ⟨0, 0, 0, fun _ => 0, 0, none⟩

/-- `c_online`, with the users to be kicked by the servers on the connections in `sent`. The last
field is history: the server that has sent the last registration on a connection. -/
structure Directory where
  users : List UserInfo
  onlines : Nat → Option OnlineInfo
  fdOnline : Nat → Option Nat
  onlineUserNum : Nat
  telOnlineNum : Nat
  netOnlineNum : Nat
  sent : List (Nat × Nat)
  speaks : Nat → Option Nat

/-- `uint32_t` arithmetic, with what happens on an overflow. -/
def inc (x : Nat) : Nat := if x + 1 = 2 ^ 32 then 0 else x + 1

def dec (x : Nat) : Nat := if x = 0 then 2 ^ 32 - 1 else x - 1

def sub (x y : Nat) : Nat := if x < y then x + 2 ^ 32 - y else x - y

/-- The check against negative numbers after a cast to `int`. -/
def notNegative (x : Nat) : Nat := if 2 ^ 31 ≤ x then 0 else x

/-- A user takes a slot. -/
def OnlineInfo.enter (online : OnlineInfo) (index userId : Nat) : OnlineInfo :=
  { online with
    connNum := inc online.connNum
    userIds := Function.update online.userIds index userId
    curIndex := index }

def OnlineInfo.leave (online : OnlineInfo) (index : Nat) : OnlineInfo :=
  { online with
    connNum := dec online.connNum
    userIds := Function.update online.userIds index 0 }

namespace Directory

def init : Directory := ⟨[], fun _ => none, fun _ => none, 0, 0, 0, [], fun _ => none⟩

section

variable (s : Directory)

/-! ## The maps -/

def findUser (userId : Nat) : Option UserInfo := s.users.find? fun info => info.userId = userId

def insertUser (info : UserInfo) : Directory :=
  if (s.findUser info.userId).isSome then s else { s with users := info :: s.users }

def eraseUser (userId : Nat) : Directory :=
  { s with users := s.users.filter fun info => info.userId ≠ userId }

def moveUser (userId onlineId onlineIndex : Nat) : Directory :=
  { s with users := s.users.map fun info =>
      if info.userId = userId then ⟨userId, onlineId, onlineIndex⟩ else info }

/-- `m_online_info_map[online_id]`, where it is read. -/
def online (onlineId : Nat) : OnlineInfo := (s.onlines onlineId).getD .zero

def setOnline (onlineId : Nat) (info : OnlineInfo) : Directory :=
  { s with onlines := Function.update s.onlines onlineId (some info) }

def touch (onlineId : Nat) : Directory := s.setOnline onlineId (s.online onlineId)

/-! ## Servers -/

def registerOnline (fd onlineId zone : Nat) : Directory :=
  match s.onlines onlineId with
  | some _ => s
  | none =>
    { s.setOnline onlineId ⟨onlineId, 0, 0, fun _ => 0, zone, some fd⟩ with
      fdOnline := Function.update s.fdOnline fd (some onlineId) }

def eraseFd (fd : Nat) : Directory := { s with fdOnline := Function.update s.fdOnline fd none }

def eraseOnline (onlineId : Nat) : Directory :=
  { s with onlines := Function.update s.onlines onlineId none }

/-- `online_closed`, which nothing calls. -/
def onlineClosed (fd : Nat) : Directory :=
  let onlineId := (s.fdOnline fd).getD 0
  let s := s.eraseFd fd
  if onlineId < 1 then s
  else
    match s.onlines onlineId with
    | some _ => s.eraseOnline onlineId
    | none => s

/-- The loop of `clear_register_online` over the slots. -/
def eraseUsers (userIds : Nat → Nat) : Directory :=
  (List.range maxNumPerOnline).foldl
    (fun s index => if userIds index ≠ 0 then s.eraseUser (userIds index) else s) s

def clearRegisterOnline (fd : Nat) : Directory :=
  let onlineId := (s.fdOnline fd).getD 0
  let s := s.eraseFd fd
  if onlineId = 0 then s
  else
    match s.onlines onlineId with
    | none => s
    | some online =>
      let s := s.eraseUsers online.userIds
      let s :=
        if online.onlineZone = telCom then
          { s with
            telOnlineNum := notNegative (sub s.telOnlineNum online.connNum)
            onlineUserNum := notNegative (sub s.onlineUserNum online.connNum) }
        else if online.onlineZone = netCom then
          { s with
            netOnlineNum := notNegative (sub s.netOnlineNum online.connNum)
            onlineUserNum := notNegative (sub s.onlineUserNum online.connNum) }
        else s
      s.eraseOnline onlineId

/-! ## Users -/

def getOnlineId (fd : Nat) : Nat := (s.fdOnline fd).getD noOnline

/-- The loop of `add_user_to_online_map` from `newIndex` on, with how many turns are left. -/
def findIndex (userIds : Nat → Nat) : Nat → Nat → Nat → Nat × Nat
  | 0, newIndex, count => (newIndex, count)
  | left + 1, newIndex, count =>
    if newIndex < maxNumPerOnline ∧ userIds newIndex ≠ 0 then
      let newIndex := newIndex + 1
      if newIndex = maxNumPerOnline then
        let count := count + 1
        if count = 2 then (newIndex, count) else findIndex userIds left 0 count
      else findIndex userIds left newIndex count
    else (newIndex, count)

/-- The result is a `uint16_t`. -/
def addUserToOnlineMap (onlineId userId : Nat) : Nat × Directory :=
  if onlineId = noOnline ∨ userId = 0 then (2 ^ 16 - 1, s)
  else
    let online := s.online onlineId
    let (newIndex, count) :=
      findIndex online.userIds (2 * maxNumPerOnline + 1) online.curIndex 0
    if count = 2 then (2 ^ 16 - 1, s.touch onlineId)
    else
      (newIndex, s.setOnline onlineId (online.enter newIndex userId))

/-- The counters of the zones, when a user comes from another zone. -/
def changeZone (oldZone newZone : Nat) : Directory :=
  if oldZone ≠ newZone then
    if oldZone = telCom then
      { s with telOnlineNum := dec s.telOnlineNum, netOnlineNum := inc s.netOnlineNum }
    else { s with telOnlineNum := inc s.telOnlineNum, netOnlineNum := dec s.netOnlineNum }
  else s

/-- A user leaves the slot. -/
def leaveOnline (onlineId index : Nat) : Directory :=
  s.setOnline onlineId ((s.online onlineId).leave index)

def kickUser (onlineId userId : Nat) : Directory :=
  match (s.online onlineId).fdsess with
  | none => s
  | some fd => { s with sent := s.sent ++ [(fd, userId)] }

/-- A new index of `-1` is compared as `uint16_t` with an `int`. -/
def loginOnline (fd userId : Nat) : Directory :=
  let newOnlineId := s.getOnlineId fd
  if newOnlineId = noOnline then s
  else
    match s.findUser userId with
    | some info =>
      let oldOnlineId := info.onlineId
      if newOnlineId = oldOnlineId then s
      else
        let s := ((s.touch oldOnlineId).kickUser oldOnlineId userId).touch newOnlineId
        let s := s.changeZone (s.online oldOnlineId).onlineZone (s.online newOnlineId).onlineZone
        let s := s.leaveOnline oldOnlineId info.onlineIndex
        let (newIndex, s) := s.addUserToOnlineMap newOnlineId userId
        if (newIndex : Int) = -1 then s else s.moveUser userId newOnlineId newIndex
    | none =>
      let (newIndex, s) := s.addUserToOnlineMap newOnlineId userId
      if (newIndex : Int) = -1 then s
      else
        let s := (s.insertUser ⟨userId, newOnlineId, newIndex⟩).touch newOnlineId
        let s :=
          if (s.online newOnlineId).onlineZone = telCom then
            { s with telOnlineNum := inc s.telOnlineNum }
          else { s with netOnlineNum := inc s.netOnlineNum }
        { s with onlineUserNum := inc s.onlineUserNum }

def logoutOnline (fd userId : Nat) : Directory :=
  match s.findUser userId with
  | none => s
  | some info =>
    let onlineId := info.onlineId
    if onlineId ≠ s.getOnlineId fd then s
    else
      let s := s.leaveOnline onlineId info.onlineIndex
      let s :=
        if (s.online onlineId).onlineZone = telCom then
          { s with telOnlineNum := dec s.telOnlineNum }
        else { s with netOnlineNum := dec s.netOnlineNum }
      { s with onlineUserNum := dec s.onlineUserNum }.eraseUser userId

end

end Directory

/-! ## Runs -/

inductive Message where
  | register (fd onlineId zone : Nat)
  | exit (fd : Nat)
  | closed (fd : Nat)
  | onlineClosed (fd : Nat)
  | login (fd userId : Nat)
  | logout (fd userId : Nat)

/-- `on_client_conn_closed` does nothing. -/
def Directory.step (s : Directory) : Message → Directory
  | .register fd onlineId zone =>
    { s.registerOnline fd onlineId zone with
      speaks := Function.update s.speaks fd (some onlineId) }
  | .exit fd => { s.clearRegisterOnline fd with speaks := Function.update s.speaks fd none }
  | .closed fd => { s with speaks := Function.update s.speaks fd none }
  | .onlineClosed fd => { s.onlineClosed fd with speaks := Function.update s.speaks fd none }
  | .login fd userId => s.loginOnline fd userId
  | .logout fd userId => s.logoutOnline fd userId

end Taomee.Monster.Switch
