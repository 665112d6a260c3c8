import Mathlib.Algebra.Order.Ring.Int
import Mathlib.Data.Finset.Erase
import Mathlib.Data.Finset.Insert
import Mathlib.Data.List.AList
import Taomee.Library.CircularList
import Taomee.Library.LevelMaps

/-!
# chat: the check of messages

The latest messages are kept, oldest first; for each text that is among them there is a
record with its level and the number of copies of each user, and for each user of theirs a
record with the level and the messages of the user. What the scores come to is a parameter.
A record that is freed keeps its content until its address is given out again. The list of
the copies of a text, `meta_msg_head`, is written and never read; it leads from a record to the
copies of its text, so it is sound as long as the record is there when a copy leaves it.
-/

namespace Taomee.Chat

open CircularList LevelMaps

abbrev Addr := Nat

def maxMsglv : Nat := 4

/-- A `uint32_t`. -/
def uint32 (n : Nat) : Nat := n % 2 ^ 32

structure Message where
  userid : Nat
  timestamp : Nat
  msgid : Nat
deriving DecidableEq

/-- `meta_msg_t`. -/
structure MetaMsg where
  allCount : Nat
  positiveCnt : Nat
  negativeCnt : Nat
  msglv : Nat
  userCntMap : AList fun _ : Nat => Nat

/-- `user_msg_t`. -/
structure UserMsg where
  userlv : Nat
  userMsgHead : List Message
deriving DecidableEq

/-- The nodes of the lists by time: `count_time_head` of a level, and the `count_time_list` of
a record. -/
inductive TimeNode where
  | null
  | head (level : Nat)
  | record (addr : Addr)
deriving DecidableEq

/-- `CMsgMetaMap`, with the records in memory. -/
structure MsgMetaMap where
  metaMap : Nat → Nat → Option Addr
  metas : Addr → MetaMsg
  live : Finset Addr
  links : Links TimeNode

/-- `CMsgUserMap`. -/
abbrev MsgUserMap := Nat → Nat → Option UserMsg

/-- What the scores come to: the whole part of `ratio` in `update`, from the negative, the
positive and all counts, and the result of `check_user_msg`. -/
structure Scoring where
  ratio : Nat → Nat → Nat → Int
  checkUserMsg : Nat → Nat → UserMsg → MetaMsg → Int

/-- A level brought into the range of the levels. -/
def clamp (level : Int) : Nat :=
  if level < 0 then 0 else if level ≥ maxMsglv then maxMsglv - 1 else level.toNat

/-- `std::map::insert` leaves a key that is there. -/
def insertNew {α : Type} (maps : Nat → Nat → Option α) (level key : Nat) (value : α) :
    Nat → Nat → Option α :=
  if (maps level key).isSome then maps else store maps level key (some value)

namespace MsgMetaMap

/-- The record of the message's text with the message counted, made at `place` if there is
none. -/
def getMeta (m : MsgMetaMap) (msg : Message) (place : Addr) : MsgMetaMap × Addr :=
  match find maxMsglv m.metaMap msg.msgid with
  | some (_, addr) =>
    let mmsg := m.metas addr
    let count := (mmsg.userCntMap.lookup msg.userid).getD 0
    let mmsg :=
      { mmsg with
        allCount := uint32 (mmsg.allCount + 1)
        userCntMap := mmsg.userCntMap.insert msg.userid (count + 1) }
    ({ m with metas := Function.update m.metas addr mmsg }, addr)
  | none =>
    let mmsg : MetaMsg :=
      { allCount := 1, positiveCnt := 0, negativeCnt := 0, msglv := 0
        userCntMap := AList.insert msg.userid 1 ∅ }
    ({ metaMap := insertNew m.metaMap 0 msg.msgid place
       metas := Function.update m.metas place mmsg
       live := insert place m.live
       links := m.links.initListHead (.record place) }, place)

/-- The number of copies of a user, one less. -/
def countDown (counts : AList fun _ : Nat => Nat) (userid : Nat) : AList fun _ : Nat => Nat :=
  match counts.lookup userid with
  | none => counts
  | some count => if count = 1 then counts.erase userid else counts.insert userid (count - 1)

def delUserMsg (m : MsgMetaMap) (msgid userid : Nat) : MsgMetaMap :=
  match find maxMsglv m.metaMap msgid with
  | none => m
  | some (loop, addr) =>
    let mmsg := m.metas addr
    let mmsg := { mmsg with userCntMap := countDown mmsg.userCntMap userid }
    let m := { m with metas := Function.update m.metas addr mmsg }
    if mmsg.userCntMap.keys = [] then
      { m with live := m.live.erase addr, metaMap := store m.metaMap loop msgid none }
    else m

def addtoTimeList (m : MsgMetaMap) (addr : Addr) : MsgMetaMap :=
  { m with links := m.links.listAddTail (.record addr) (.head (m.metas addr).msglv) }

/-- The key that is inserted again is read through the iterator that was erased. -/
def update (m : MsgMetaMap) (scoring : Scoring) (msgid : Nat) (addr : Addr) : MsgMetaMap :=
  let mmsg := m.metas addr
  let newLevel := clamp (scoring.ratio mmsg.negativeCnt mmsg.positiveCnt mmsg.allCount)
  if newLevel ≠ mmsg.msglv then
    addtoTimeList
      { m with
        metaMap := insertNew (store m.metaMap mmsg.msglv msgid none) newLevel msgid addr
        metas := Function.update m.metas addr { mmsg with msglv := newLevel }
        links := m.links.listDel .null (.record addr) } addr
  else m

/-- `positive_cnt ++`. -/
def praise (m : MsgMetaMap) (addr : Addr) : MsgMetaMap :=
  let mmsg := m.metas addr
  { m with metas :=
      Function.update m.metas addr { mmsg with positiveCnt := uint32 (mmsg.positiveCnt + 1) } }

/-- `negative_cnt ++`. -/
def blame (m : MsgMetaMap) (addr : Addr) : MsgMetaMap :=
  let mmsg := m.metas addr
  { m with metas :=
      Function.update m.metas addr { mmsg with negativeCnt := uint32 (mmsg.negativeCnt + 1) } }

end MsgMetaMap

namespace MsgUserMap

def getUserMsg (users : MsgUserMap) (userid : Nat) : Option UserMsg :=
  (find maxMsglv users userid).map Prod.snd

/-- `list_del` of a message in its user's list. -/
def unlink (users : MsgUserMap) (msg : Message) : MsgUserMap :=
  match find maxMsglv users msg.userid with
  | none => users
  | some (loop, umsg) =>
    store users loop msg.userid (some { umsg with userMsgHead := umsg.userMsgHead.erase msg })

/-- A user whose list is empty is dropped. -/
def delMsgFromList (users : MsgUserMap) (msg : Message) : MsgUserMap :=
  match find maxMsglv users msg.userid with
  | none => users
  | some (loop, umsg) =>
    if umsg.userMsgHead = [] then store users loop msg.userid none else users

def addMsgToUserList (users : MsgUserMap) (userid userlv : Nat) (msg : Message) : MsgUserMap :=
  let umsg := (users userlv userid).getD { userlv, userMsgHead := [] }
  store users userlv userid (some { umsg with userMsgHead := umsg.userMsgHead ++ [msg] })

def tryChangeLevel (users : MsgUserMap) (userid : Nat) (umsg : UserMsg) (changeLevel : Int) :
    MsgUserMap × Bool :=
  if changeLevel = 0 ∨ umsg.userlv = 0 ∧ changeLevel < 0 then (users, true)
  else if umsg.userlv = maxMsglv - 1 ∧ changeLevel ≥ 0 then (users, false)
  else
    let newLevel := clamp (umsg.userlv + changeLevel)
    (insertNew (store users umsg.userlv userid none) newLevel userid
      { umsg with userlv := newLevel }, umsg.userlv + changeLevel < maxMsglv)

end MsgUserMap

/-- `CChatCheck`. -/
structure ChatCheck where
  msgListHead : List Message
  msgCount : Nat
  msgCountMap : MsgMetaMap
  msgUserMap : MsgUserMap

/-- A report of a message: the length of its text, the hash of the text without what is
trimmed, whether the hash is one of the valid words, and the address of a new record. -/
structure Report where
  userid : Nat
  timestamp : Nat
  length : Nat
  msgid : Nat
  valid : Bool
  place : Addr

namespace ChatCheck

/-- The empty lists and maps. -/
def init (metas : Addr → MetaMsg) (links : Links TimeNode) : ChatCheck where
  msgListHead := []
  msgCount := 0
  msgCountMap :=
    { metaMap := fun _ _ => none
      metas
      live := ∅
      links := (List.range maxMsglv).foldl (fun links level => links.initListHead (.head level)) links }
  msgUserMap := fun _ _ => none

/-- The oldest message is given up. -/
def giveUp (state : ChatCheck) : ChatCheck :=
  match state.msgListHead with
  | [] => state
  | msg :: rest =>
    { msgListHead := rest
      msgCount := state.msgCount - 1
      msgCountMap := state.msgCountMap.delUserMsg msg.msgid msg.userid
      msgUserMap := (state.msgUserMap.unlink msg).delMsgFromList msg }

def makeRoom (maxMsgCount : Nat) (state : ChatCheck) : ChatCheck :=
  if state.msgCount ≥ maxMsgCount then state.giveUp else state

def addMsgMain (maxMsgCount : Nat) (state : ChatCheck) (msg : Message) : ChatCheck :=
  let state := state.makeRoom maxMsgCount
  { state with msgListHead := state.msgListHead ++ [msg], msgCount := state.msgCount + 1 }

/-- The rest of `check_msg`, when the message is counted in the record of its text. -/
def judge (scoring : Scoring) (state : ChatCheck) (msg : Message) (metas : MsgMetaMap)
    (addr : Addr) : ChatCheck × Bool :=
  let mmsg := metas.metas addr
  match state.msgUserMap.getUserMsg msg.userid with
  | none =>
    let users := state.msgUserMap.addMsgToUserList msg.userid ((mmsg.msglv + 1) / 2) msg
    ({ state with msgCountMap := (metas.praise addr).addtoTimeList addr, msgUserMap := users }, true)
  | some umsg =>
    let users := state.msgUserMap.addMsgToUserList msg.userid umsg.userlv msg
    -- The record has the message in its list by now.
    let umsg := { umsg with userMsgHead := umsg.userMsgHead ++ [msg] }
    if umsg.userlv < maxMsglv then
      let changeLevel := scoring.checkUserMsg msg.msgid msg.userid umsg mmsg
      if changeLevel = 0 then ({ state with msgCountMap := metas, msgUserMap := users }, true)
      else
        let metas := if changeLevel < 0 then metas.praise addr else metas.blame addr
        let metas := metas.update scoring msg.msgid addr
        let (users, ret) := users.tryChangeLevel msg.userid umsg changeLevel
        ({ state with msgCountMap := metas, msgUserMap := users }, ret)
    else if mmsg.msglv > 0 then
      let metas := (metas.blame addr).update scoring msg.msgid addr
      ({ state with msgCountMap := metas, msgUserMap := users }, false)
    else ({ state with msgCountMap := metas, msgUserMap := users }, true)

/-- A message of a text that is checked. -/
def takeMsg (scoring : Scoring) (maxMsgCount : Nat) (state : ChatCheck) (msg : Message)
    (place : Addr) : ChatCheck × Bool :=
  let state := state.addMsgMain maxMsgCount msg
  let (metas, addr) := state.msgCountMap.getMeta msg place
  state.judge scoring msg metas addr

/-- Short texts, texts of hash 0 and valid words are not looked at. -/
def checkMsg (scoring : Scoring) (maxMsgCount : Nat) (state : ChatCheck) (report : Report) :
    ChatCheck × Bool :=
  if report.length ≤ 6 then (state, true)
  else if report.msgid = 0 then (state, true)
  else if report.valid then (state, true)
  else
    state.takeMsg scoring maxMsgCount
      { userid := report.userid, timestamp := report.timestamp, msgid := report.msgid } report.place

def doAfterForbid (state : ChatCheck) (userid : Nat) : ChatCheck :=
  match state.msgUserMap.getUserMsg userid with
  | none => state
  | some umsg => { state with msgUserMap := (state.msgUserMap.tryChangeLevel userid umsg (-2)).1 }

end ChatCheck

end Taomee.Chat
