import Mathlib.Data.List.Range
import Taomee.Anticheat.HashTable

/-!
# anticheat: users and their watch nodes

The table of users holds for each user the time of his last request and a pair of a level and an
index. The pair names the watch node that counts his commands by their numbers. A level has a
fixed number of watch nodes, and each level has longer lists of commands than the one below.
-/

namespace Taomee.Anticheat.Watch

def swMaxLvl : Nat := 4

def swLvlNnodeList : Nat → Nat
  | 0 => 500000
  | 1 => 100000
  | 2 => 20000
  | 3 => 10000
  | _ => 0

def swLvlSpecList : Nat → Nat
  | 0 => 16
  | 1 => 32
  | 2 => 128
  | 3 => 512
  | _ => 0

structure Timeval where
  sec : Int
  usec : Int
  deriving DecidableEq

/-- `timersub`, and the result in microseconds. -/
def Timeval.diff (tv earlier : Timeval) : Int :=
  (tv.sec - earlier.sec) * 1000000 + (tv.usec - earlier.usec)

structure CmdT where
  cmd : Nat
  count : Nat
  lastTv : Timeval
  startTv : Timeval
  deriving DecidableEq

def CmdT.zero : CmdT := ⟨0, 0, ⟨0, 0⟩, ⟨0, 0⟩⟩

/-- A watch node of any level. There is nothing in `cmdList` from the level's length on. -/
structure SingleWatch where
  uid : Nat
  cmdList : Nat → CmdT

def SingleWatch.zero : SingleWatch := ⟨0, fun _ => CmdT.zero⟩

structure TotalWatch where
  count : Nat
  lastTv : Timeval
  startTv : Timeval

structure UidNode where
  lastAccess : Int
  uid : Nat
  tw : TotalWatch
  swCmdCount : Nat
  swLevel : Nat
  swIndex : Nat
  ip : Nat
  port : Nat

def UidNode.zero : UidNode := ⟨0, 0, ⟨0, ⟨0, 0⟩, ⟨0, 0⟩⟩, 0, 0, 0, 0, 0⟩

/-- The watch node that a user node names, by level and index. -/
def UidNode.pair (node : UidNode) : Nat × Nat := (node.swLevel, node.swIndex)

/-- `overFreq` tells whether so many commands in so many microseconds are more than
`max_sw_freq`, which is computed in floating point. -/
structure SwConfig where
  cmd : Nat
  minSwInterval : Int
  overFreq : Nat → Int → Bool
  updateSwStartInterval : Int

/-- `overFreq` stands for `max_tw_freq`. -/
structure AnticheatConfig where
  status : Nat
  minTwInterval : Int
  overFreq : Nat → Int → Bool
  updateTwStartInterval : Int
  swConfigCount : Nat
  swConfig : Nat → SwConfig

def acCfgStatusEnable : Nat := 1

/-- Where a timer has stopped on its way through the table. -/
structure Cursor where
  row : Nat
  col : Nat
  occupyCurRow : Nat
  lastRow : Nat
  deriving DecidableEq

def Cursor.zero : Cursor := ⟨0, 0, 0, 0⟩

/-- `ILL_CODE_TW_INT` and `ILL_CODE_TW_FREQ`, or those of a single command. -/
structure IllCode where
  interval : Bool
  freq : Bool
  deriving DecidableEq

/-- The user, the command and the two codes of a report to the database. -/
structure Report where
  uid : Nat
  cmd : Nat
  twIllCode : IllCode
  swIllCode : IllCode
  deriving DecidableEq

structure World where
  nodes : Addr → UidNode
  sw : Nat × Nat → SingleWatch
  lvlFreeCache : Nat → Nat
  cleanCursor : Cursor
  updateCursor : Cursor
  sysClock : Int
  sysClockTv : Timeval
  acCfg : AnticheatConfig
  reports : List Report

/-- What a client's request tells, in host order. -/
structure ClientData where
  recvTime : Timeval
  ip : Nat
  port : Nat
  cmd : Nat
  uid : Nat

/-- `uid_node_compare`. -/
def uidNodeCompare (key : Nat) (node : UidNode) : Int := if key = node.uid then 0 else 1

/-- `uid_nodes_htab`, with `empty_key` as 0 and the user id as the short key. -/
def uidNodesHtab : Usage Nat UidNode where
  compare := uidNodeCompare
  keyOf := UidNode.uid
  emptyKey := 0
  shortKey key := key
  compare_eq_zero key node := by
    rw [uidNodeCompare]
    constructor
    · intro zero
      by_contra different
      rw [if_neg (Ne.symm different)] at zero
      exact absurd zero (by decide)
    · intro same
      exact if_pos same.symm

namespace World

variable (s : World)

/-- The watch node that the user node at an address names. -/
def watch (a : Addr) : SingleWatch := s.sw (s.nodes a).pair

def setNode (a : Addr) (node : UidNode) : World :=
  { s with nodes := Function.update s.nodes a node }

def setSw (p : Nat × Nat) (sw : SingleWatch) : World :=
  { s with sw := Function.update s.sw p sw }

/-! ## Watch nodes -/

/-- From the cache on, then from the start to the cache. -/
def firstFree (lvl : Nat) : Option Nat :=
  (List.range' (s.lvlFreeCache lvl) (swLvlNnodeList lvl - s.lvlFreeCache lvl) ++
    List.range (s.lvlFreeCache lvl)).find? fun idx => (s.sw (lvl, idx)).uid = 0

/-- The pair found, and the world in which the node there is the user's. -/
def getSwEmptyNode (uid fromLvl toLvl : Nat) : Option (Nat × Nat) × World :=
  if fromLvl ≥ swMaxLvl ∨ toLvl ≥ swMaxLvl then (none, s)
  else
    match (List.range' fromLvl (toLvl + 1 - fromLvl)).findSome? fun lvl =>
        (s.firstFree lvl).map fun idx => (lvl, idx) with
    | none => (none, s)
    | some (lvl, idx) =>
      (some (lvl, idx),
        { s.setSw (lvl, idx) { SingleWatch.zero with uid } with
          lvlFreeCache :=
            Function.update s.lvlFreeCache lvl ((idx + 1) % swLvlNnodeList lvl) })

/-- `true` is the result 0, `false` is -1. -/
def upgradeSwCmdListLvl (a : Addr) (lvl idx : Nat) : Bool × World :=
  if lvl ≥ swMaxLvl - 1 then (false, s)
  else
    match s.getSwEmptyNode (s.nodes a).uid (lvl + 1) (lvl + 1) with
    | (none, s) => (false, s)
    | (some (nlvl, nidx), s) =>
      let oSw := s.sw (lvl, idx)
      let nSw := s.sw (nlvl, nidx)
      let copied : SingleWatch :=
        { uid := oSw.uid
          cmdList := fun i => if i < swLvlSpecList lvl then oSw.cmdList i else nSw.cmdList i }
      let s := s.setSw (nlvl, nidx) copied
      let s := s.setNode a { s.nodes a with swLevel := nlvl, swIndex := nidx }
      (true, s.setSw (lvl, idx) .zero)

/-- The last part of `add_new_cmd_to_uid_node`: the command is appended to the list of the watch
node. -/
def appendCmd (a : Addr) (lvl idx : Nat) (recvTime : Timeval) (cmd : Nat) : Bool × World :=
  let swCmdCount := (s.nodes a).swCmdCount
  let sw := s.sw (lvl, idx)
  let s := s.setSw (lvl, idx)
    { sw with
      cmdList := Function.update sw.cmdList swCmdCount
        ⟨cmd, (sw.cmdList swCmdCount).count + 1, recvTime, recvTime⟩ }
  let s := s.setNode a { s.nodes a with swCmdCount := swCmdCount + 1 }
  if swCmdCount + 1 ≥ swLvlSpecList lvl then s.upgradeSwCmdListLvl a lvl idx else (true, s)

def addNewCmdToUidNode (a : Addr) (recvTime : Timeval) (cmd : Nat) : Bool × World :=
  if (s.nodes a).uid ≠ (s.watch a).uid then
    match s.getSwEmptyNode (s.nodes a).uid 0 0 with
    | (none, s) => (false, s)
    | (some (lvl, idx), s) =>
      let s := s.setNode a
        { s.nodes a with
          swLevel := lvl
          swIndex := idx
          tw := { (s.nodes a).tw with startTv := recvTime, lastTv := recvTime } }
      s.appendCmd a lvl idx recvTime cmd
  else if (s.nodes a).swCmdCount ≥ swLvlSpecList (s.nodes a).swLevel then (false, s)
  else s.appendCmd a (s.nodes a).swLevel (s.nodes a).swIndex recvTime cmd

def initUidNodeBase (data : ClientData) : UidNode :=
  { UidNode.zero with
    lastAccess := s.sysClock, uid := data.uid, ip := data.ip, port := data.port }

/-- `find_cmd_list_node_by_uid_node`: the index of a command in the list. -/
def findCmdListNode (a : Addr) (cmd : Nat) : Option Nat :=
  (List.range (s.nodes a).swCmdCount).find? fun i => ((s.watch a).cmdList i).cmd = cmd

end World

/-! ## A request -/

/-- The binary search between two indices, in so many turns. Each turn halves what is left. -/
def findSwConfigBetween (acConfig : AnticheatConfig) (cmd : Nat) :
    Nat → Int → Int → Option SwConfig
  | 0, _, _ => none
  | turns + 1, left, right =>
    if left ≤ right then
      let mid := (left + right) / 2
      let swCfg := acConfig.swConfig mid.toNat
      if swCfg.cmd = cmd then some swCfg
      else if cmd < swCfg.cmd then findSwConfigBetween acConfig cmd turns left (mid - 1)
      else findSwConfigBetween acConfig cmd turns (mid + 1) right
    else none

def findSwConfig (acConfig : AnticheatConfig) (cmd : Nat) : Option SwConfig :=
  if acConfig.status ≠ acCfgStatusEnable then none
  else findSwConfigBetween acConfig cmd acConfig.swConfigCount 0 (acConfig.swConfigCount - 1)

/-- The checks of the interval and of the frequency, in the first one from two commands on, in
the second one from more than `minCount` on. -/
def checkCmd (count minCount : Nat) (diffToLast diffToStart minInterval : Int)
    (overFreq : Nat → Int → Bool) : IllCode where
  interval := decide (count > 1) && decide (diffToLast < minInterval)
  freq := decide (count > minCount) && (decide (diffToStart ≤ 0) || overFreq count diffToStart)

/-- `total_cmd_check_interval` and `total_cmd_check_frequence`. -/
def totalCmdCheck (acCfg : AnticheatConfig) (tw : TotalWatch) (recvTime : Timeval) : IllCode :=
  checkCmd tw.count 10 (recvTime.diff tw.lastTv) (recvTime.diff tw.startTv) acCfg.minTwInterval
    acCfg.overFreq

/-- `single_cmd_check_interval` and `single_cmd_check_frequence`. -/
def singleCmdCheck (swCfg : SwConfig) (cmdNode : CmdT) (recvTime : Timeval) : IllCode :=
  checkCmd cmdNode.count 3 (recvTime.diff cmdNode.lastTv) (recvTime.diff cmdNode.startTv)
    swCfg.minSwInterval swCfg.overFreq

/-- A watch starts again after too many commands, and after a long time without any. -/
def restarts (ill : IllCode) (diffToLast updateInterval : Int) : Bool :=
  ill.freq || decide (diffToLast.tdiv 1000000 > updateInterval)

def TotalWatch.renew (tw : TotalWatch) (restart : Bool) (recvTime : Timeval) : TotalWatch :=
  if restart then ⟨0, recvTime, recvTime⟩ else { tw with lastTv := recvTime }

def CmdT.renew (cmdNode : CmdT) (restart : Bool) (recvTime : Timeval) : CmdT :=
  if restart then ⟨cmdNode.cmd, 0, recvTime, recvTime⟩ else { cmdNode with lastTv := recvTime }

namespace World

variable (s : World)

/-- The second half of `proc_one_client_request`. The command's configuration and its index in
the user's list are there when the command was watched before. -/
def checkRequest (a : Addr) (data : ClientData) (cmdNode : Option (SwConfig × Nat)) : World :=
  let tw := (s.nodes a).tw
  let twIllCode := totalCmdCheck s.acCfg tw data.recvTime
  let twRestart :=
    restarts twIllCode (data.recvTime.diff tw.lastTv) s.acCfg.updateTwStartInterval
  match cmdNode with
  | none =>
    let s := s.setNode a { s.nodes a with tw := tw.renew twRestart data.recvTime }
    if twIllCode.interval || twIllCode.freq then
      { s with reports := ⟨data.uid, data.cmd, twIllCode, ⟨false, false⟩⟩ :: s.reports }
    else s
  | some (swCfg, i) =>
    let sw := s.watch a
    let swIllCode := singleCmdCheck swCfg (sw.cmdList i) data.recvTime
    let swRestart := restarts swIllCode (data.recvTime.diff (sw.cmdList i).lastTv)
      swCfg.updateSwStartInterval
    let p := (s.nodes a).pair
    let s := s.setNode a { s.nodes a with tw := tw.renew twRestart data.recvTime }
    let s := s.setSw p
      { sw with
        cmdList := Function.update sw.cmdList i
          ((sw.cmdList i).renew swRestart data.recvTime) }
    if twIllCode.interval || twIllCode.freq || swIllCode.interval || swIllCode.freq then
      { s with reports := ⟨data.uid, data.cmd, twIllCode, swIllCode⟩ :: s.reports }
    else s

/-- The count of a command that is in the list already. -/
def countCmd (a : Addr) (i : Nat) : World :=
  let sw := s.watch a
  s.setSw (s.nodes a).pair
    { sw with
      cmdList := Function.update sw.cmdList i
        { sw.cmdList i with count := (sw.cmdList i).count + 1 } }

/-- One more request of a user, of whatever command. -/
def countTotal (a : Addr) : World :=
  s.setNode a
    { s.nodes a with tw := { (s.nodes a).tw with count := (s.nodes a).tw.count + 1 } }

/-- `proc_one_client_request`. Its result is not used. -/
def procOneClientRequest (h : HashTable) (data : ClientData) : World :=
  if data.uid = 0 then s
  else
    match hashTableLookupNodeEx uidNodesHtab h s.nodes data.uid (some 0) with
    | (none, _) => s
    | (some a, exist) =>
      if exist = some 0 then
        let s := s.setNode a (s.initUidNodeBase data)
        match s.addNewCmdToUidNode a data.recvTime data.cmd with
        | (true, s) => s.countTotal a
        | (false, s) => s
      else
        let s := s.setNode a { s.nodes a with lastAccess := s.sysClock }
        let s := s.countTotal a
        if s.acCfg.status ≠ acCfgStatusEnable then s
        else
          match findSwConfig s.acCfg data.cmd with
          | none => s.checkRequest a data none
          | some swCfg =>
            match s.findCmdListNode a data.cmd with
            | some i => (s.countCmd a i).checkRequest a data (some (swCfg, i))
            | none =>
              match s.addNewCmdToUidNode a data.recvTime data.cmd with
              | (true, s) => s.checkRequest a data none
              | (false, s) => s

end World

/-! ## The timers -/

/-- What one turn of a timer's loop meets. -/
inductive Visit where
  /-- The end of the table. -/
  | wrapped
  /-- A row without any user. -/
  | unoccupied
  | free (cursor : Cursor)
  | user (a : Addr) (cursor : Cursor)

def visit (h : HashTable) (nodes : Addr → UidNode) (c : Cursor) : Visit :=
  match hashTableWalk h c.row c.col with
  | none => .wrapped
  | some (a, row, col) =>
    if c.lastRow ≠ row ∧ c.occupyCurRow = 0 then .unoccupied
    else
      let occupyCurRow := if c.lastRow ≠ row then 0 else c.occupyCurRow
      if (nodes a).uid = 0 then .free ⟨row, col, occupyCurRow, row⟩
      else .user a ⟨row, col, occupyCurRow + 1, row⟩

def maxUidKeepaliveTime : Int := 60

def swCmdKeepaliveTime : Int := 30

def maxUpdateStartInterval : Int := swCmdKeepaliveTime

namespace World

variable (s : World)

def releaseUidNode (a : Addr) : World :=
  (s.setSw (s.nodes a).pair .zero).setNode a .zero

/-- Nothing has come from the user for a long time. -/
def Idle (a : Addr) : Prop := s.sysClock - (s.nodes a).lastAccess > maxUidKeepaliveTime

instance (a : Addr) : Decidable (s.Idle a) := inferInstanceAs (Decidable (_ > _))

/-- The loop of `tmr_clean_uid_node`, with so many turns left. -/
def cleanFrom (h : HashTable) : Nat → Nat → World → World
  | 0, _, s => s
  | scan + 1, handle, s =>
    match visit h s.nodes s.cleanCursor with
    | .wrapped => cleanFrom h scan handle { s with cleanCursor := .zero }
    | .unoccupied => { s with cleanCursor := .zero }
    | .free cursor => cleanFrom h scan handle { s with cleanCursor := cursor }
    | .user a cursor =>
      let s := { s with cleanCursor := cursor }
      if s.Idle a then
        if handle + 1 ≥ 1000 then s.releaseUidNode a
        else cleanFrom h scan (handle + 1) (s.releaseUidNode a)
      else cleanFrom h scan handle s

def tmrCleanUidNode (h : HashTable) : World := cleanFrom h 2000 0 s

/-- The time without a command after which it starts again. -/
def updateSwInterval (cmd : Nat) : Int :=
  match findSwConfig s.acCfg cmd with
  | none => maxUpdateStartInterval
  | some swCfg =>
    if swCfg.updateSwStartInterval < maxUpdateStartInterval then swCfg.updateSwStartInterval
    else maxUpdateStartInterval

/-- The command has not come for a long time. -/
def cmdLost (cmdNode : CmdT) : Bool :=
  decide (s.sysClock - cmdNode.lastTv.sec > swCmdKeepaliveTime)

/-- The command has not come for a while. -/
def cmdIdle (cmdNode : CmdT) : Bool :=
  !s.cmdLost cmdNode && decide (s.sysClock - cmdNode.lastTv.sec > s.updateSwInterval cmdNode.cmd)

def updateCmd (cmdNode : CmdT) : CmdT :=
  if s.cmdLost cmdNode then { cmdNode with cmd := 0 }
  else if s.cmdIdle cmdNode then ⟨cmdNode.cmd, 0, s.sysClockTv, s.sysClockTv⟩
  else cmdNode

/-- The list of commands of a user is gone through, and those without a number are taken out.
The second part of the result adds to what has been handled. -/
def updateCmdList (a : Addr) : World × Nat :=
  let swCmdCount := (s.nodes a).swCmdCount
  let sw := s.watch a
  let cmdList i := if i < swCmdCount then s.updateCmd (sw.cmdList i) else sw.cmdList i
  let restarted := (List.range swCmdCount).countP fun i => s.cmdIdle (sw.cmdList i)
  let write (cmdList : Nat → CmdT) (count : Nat) : World :=
    (s.setSw (s.nodes a).pair { sw with cmdList }).setNode a
      { s.nodes a with swCmdCount := count }
  match (List.range swCmdCount).filter fun i => s.cmdLost (sw.cmdList i) with
  | [] => (write cmdList swCmdCount, restarted)
  | [cleanIdx] =>
    let last := cmdList (swCmdCount - 1)
    let cmdList := if swCmdCount = 1 then Function.update cmdList 0 .zero
      else Function.update cmdList cleanIdx last
    (write cmdList (swCmdCount - 1), restarted + 1)
  | cleaned =>
    let left := ((List.range swCmdCount).map cmdList).filter fun cmdNode => cmdNode.cmd ≠ 0
    (write (fun i => left[i]?.getD (cmdList i)) left.length, restarted + cleaned.length * 2)

def updateTwInterval : Int :=
  if s.acCfg.status = acCfgStatusEnable ∧
      s.acCfg.updateTwStartInterval < maxUpdateStartInterval then
    s.acCfg.updateTwStartInterval
  else maxUpdateStartInterval

/-- The watch over all commands starts again when there were none for a while. -/
def updateTotal (a : Addr) : World × Nat :=
  if s.sysClock - (s.nodes a).tw.lastTv.sec > s.updateTwInterval then
    (s.setNode a { s.nodes a with tw := ⟨0, s.sysClockTv, s.sysClockTv⟩ }, 1)
  else (s, 0)

/-- What `tmr_update_start` does with a user. -/
def updateUser (a : Addr) : World × Nat :=
  let (s, restarted) := s.updateTotal a
  if (s.nodes a).swCmdCount = 0 then (s, restarted)
  else
    let (s, handled) := s.updateCmdList a
    (s, restarted + handled)

/-- The loop of `tmr_update_start`. -/
def updateFrom (h : HashTable) : Nat → Nat → World → World
  | 0, _, s => s
  | scan + 1, handle, s =>
    if handle ≥ 2000 then s
    else
      match visit h s.nodes s.updateCursor with
      | .wrapped => updateFrom h scan handle { s with updateCursor := .zero }
      | .unoccupied => { s with updateCursor := .zero }
      | .free cursor => updateFrom h scan handle { s with updateCursor := cursor }
      | .user a cursor =>
        let (s, handled) := { s with updateCursor := cursor }.updateUser a
        updateFrom h scan (handle + handled) s

def tmrUpdateStart (h : HashTable) : World := updateFrom h 2000 0 s

/-! ## The process -/

end World

inductive Event where
  | request (data : ClientData)
  | tmrCleanUidNode
  | tmrUpdateStart
  | tmrRenewSysClock (tv : Timeval)
  /-- Another process writes the configuration. -/
  | configure (acCfg : AnticheatConfig)

namespace World

def step (h : HashTable) (s : World) : Event → World
  | .request data => s.procOneClientRequest h data
  | .tmrCleanUidNode => s.tmrCleanUidNode h
  | .tmrUpdateStart => s.tmrUpdateStart h
  | .tmrRenewSysClock tv => { s with sysClock := tv.sec, sysClockTv := tv }
  | .configure acCfg => { s with acCfg }

/-- The memory of a new process is zero. -/
def init (acCfg : AnticheatConfig) (sysClock : Int) : World where
  nodes _ := .zero
  sw _ := .zero
  lvlFreeCache _ := 0
  cleanCursor := .zero
  updateCursor := .zero
  sysClock := sysClock
  sysClockTv := ⟨0, 0⟩
  acCfg := acCfg
  reports := []

end World

end Taomee.Anticheat.Watch
