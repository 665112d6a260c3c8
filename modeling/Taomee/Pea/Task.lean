import Mathlib.Algebra.Order.Ring.Int
import Mathlib.Tactic.Common
import Taomee.Library.LittleEndian
import Taomee.Library.Memory

/-!
# pea: tasks

The steps of a task are read from a file. What a player has done of them stands in a buffer of 32
bytes, behind a head of 8: one field for each step, one after the other.
-/

namespace Taomee.Pea

open LittleEndian Memory

/-- `task_step_type_1` to `task_step_type_5`: a deed, a number of things, the level, the experience,
the gold. -/
inductive StepType where
  | type1
  | type2
  | type3
  | type4
  | type5
deriving DecidableEq

def StepType.ofUInt32? : UInt32 → Option StepType
  | 1 => some .type1
  | 2 => some .type2
  | 3 => some .type3
  | 4 => some .type4
  | 5 => some .type5
  | _ => none

inductive PreCondType where
  | or
  | and
deriving DecidableEq

def PreCondType.ofUInt32? : UInt32 → Option PreCondType
  | 0 => some .or
  | 1 => some .and
  | _ => none

/-- `task_step_t`; the key of its condition is read by nobody. -/
structure TaskStep where
  stepType : StepType
  val : UInt32
  preCond : Vector UInt32 4
  preCondType : PreCondType

/-- `task_info_t`, as far as it is read here. -/
structure TaskInfo where
  preCond : Vector UInt32 4
  preCondType : PreCondType
  needLevel : UInt32
  bindMapId : UInt32
  steps : List TaskStep

/-- `task_config_map`. -/
abbrev TaskConfig := List (UInt32 × TaskInfo)

/-! ## The file -/

/-- The attributes of a step, as the macros read them: the condition as a number and as a list,
and the list of steps before it, filled up with zeros. -/
structure StepNode where
  type : UInt32
  condition : UInt32
  conditionArr : List UInt32
  pre : Vector UInt32 4
  isAnd : UInt32

structure TaskNode where
  id : UInt32
  type : UInt32
  pre : Vector UInt32 4
  isAnd : UInt32
  needLevel : UInt32
  bindMapId : UInt32
  steps : List StepNode

def maxTaskBuffLen : Nat := 32

/-- The size of `task_buffer_head_t`. -/
def taskBufferHead : Nat := 8

/-- What the loader adds for a step. -/
def stepBufLen : StepType → Nat
  | .type1 => 1
  | .type2 => 2
  | .type3 => 2
  | .type4 => 4
  | .type5 => 4

/-- What has to be reached in a step. -/
def stepCondition (node : StepNode) : StepType → Option UInt32
  | .type1 => some 1
  | .type2 =>
    match node.conditionArr with
    | [_, val] => some val
    | _ => none
  | _ => if node.condition = 0 then none else some node.condition

/-- The loop over the nodes of a task, with the length of the buffer so far. -/
def processSteps : List StepNode → Nat → Option (List TaskStep)
  | [], _ => some []
  | node :: rest, totalStepBufLen => do
    let stepType ← StepType.ofUInt32? node.type
    let totalStepBufLen := totalStepBufLen + stepBufLen stepType
    if totalStepBufLen > maxTaskBuffLen - taskBufferHead then none
    let val ← stepCondition node stepType
    let preCondType ← PreCondType.ofUInt32? node.isAnd
    let steps ← processSteps rest totalStepBufLen
    some ({ stepType, val, preCond := node.pre, preCondType } :: steps)

def processSingleTaskConf (nodes : List StepNode) : Option (List TaskStep) := processSteps nodes 0

/-- The loop over the tasks of the file; `getMap` tells which maps there are. -/
def processTasks (getMap : UInt32 → Bool) : List TaskNode → TaskConfig → Option TaskConfig
  | [], config => some config
  | node :: rest, config => do
    if node.id = 0 then none
    if (config.lookup node.id).isSome then none
    if node.type ≤ 0 ∧ node.type ≥ 5 then none
    let preCondType ← PreCondType.ofUInt32? node.isAnd
    if getMap node.bindMapId = false then none
    let steps ← processSingleTaskConf node.steps
    processTasks getMap rest (config ++ [(node.id,
      { preCond := node.pre, preCondType, needLevel := node.needLevel, bindMapId := node.bindMapId
        steps })])

/-- The numbers of a list of conditions, up to the first zero. -/
def listed (preCond : Vector UInt32 4) : List UInt32 := preCond.toList.takeWhile (· ≠ 0)

/-- Every task and every step that comes before another one is there. -/
def checkPre (config : TaskConfig) : Bool :=
  config.all fun entry =>
    (listed entry.2.preCond).all (fun id => (config.lookup id).isSome) &&
      entry.2.steps.all fun step => (listed step.preCond).all (·.toNat ≤ entry.2.steps.length)

def initTaskConfigData (getMap : UInt32 → Bool) (nodes : List TaskNode) : Option TaskConfig := do
  let config ← processTasks getMap nodes []
  if checkPre config then some config else none

/-! ## The buffer of a task -/

/-- The bytes of a buffer, by their offset. -/
abbrev TaskBuff := Int → UInt8

structure Task where
  flag : UInt32
  buff : TaskBuff

def taskInprogress : UInt32 := 0

def taskFinished : UInt32 := 1

/-- What the functions read of a player. -/
structure TaskPlayer where
  level : UInt32
  exp : UInt32
  gold : UInt32
  curMapId : UInt32
  tskmap : UInt32 → Option Task

/-- The number in some bytes of a buffer. -/
def field (buff : TaskBuff) (buf width : Nat) : Nat := ofLe (read buff buf width)

def setField (buff : TaskBuff) (buf width n : Nat) : TaskBuff := write buff buf (toLe width n)

def stepFinished (step : TaskStep) (buff : TaskBuff) (buf : Nat) : Bool :=
  match step.stepType with
  | .type1 => field buff buf 1 = 1
  | .type2 => field buff buf 2 ≥ step.val.toNat
  | .type3 => field buff buf 2 ≥ step.val.toNat
  | .type4 => field buff buf 4 ≥ step.val.toNat
  | .type5 => field buff buf 4 ≥ step.val.toNat

def increaseBufPos (buf : Nat) : StepType → Nat
  | .type1 => buf + 1
  | .type2 => buf + 2
  | .type3 => buf + 2
  | .type4 => buf + 4
  | .type5 => buf + 4

inductive TaskCheckErr where
  | invalidTskid
  | lackPreTask
  | higherLevelRequired
  | atWrongMap
  | setterNoauth
  | stepInvalid
  | lackPreStep
  | stepAlreadyFinished
  | unfinished
deriving DecidableEq

/-- The loop of `task_buffer_check`. -/
def checkFrom (buff : TaskBuff) : List TaskStep → Nat → Option TaskCheckErr
  | [], _ => none
  | step :: rest, buf =>
    if stepFinished step buff buf = false then some .unfinished
    else checkFrom buff rest (increaseBufPos buf step.stepType)

/-- `none` is the result 0. -/
def taskBufferCheck (steps : List TaskStep) (buff : TaskBuff) : Option TaskCheckErr :=
  checkFrom buff steps taskBufferHead

/-- The loop of `task_locate_buffer_pos`, over so many steps; `none` is where it would read behind
the last one. -/
def locateFrom : List TaskStep → Nat → Nat → Option Nat
  | _, buf, 0 => some buf
  | [], _, _ + 1 => none
  | step :: rest, buf, count + 1 => locateFrom rest (increaseBufPos buf step.stepType) count

def taskLocateBufferPos (steps : List TaskStep) (buf : Nat) (step : UInt32) : Option Nat :=
  locateFrom steps buf (step - 1).toNat

def taskUpdateBufferPos (p : TaskPlayer) (buff : TaskBuff) (buf : Nat) : StepType → TaskBuff
  | .type1 => setField buff buf 1 1
  | .type2 => setField buff buf 2 (field buff buf 2 + 1)
  | .type3 => setField buff buf 2 p.level.toNat
  | .type4 => setField buff buf 4 p.exp.toNat
  | .type5 => setField buff buf 4 p.gold.toNat

/-! ## What may be done -/

/-- `none` is the use of an iterator at the end. -/
def isTaskFinished (p : TaskPlayer) (taskId : UInt32) : Option Bool :=
  (p.tskmap taskId).map fun task => task.flag = taskFinished

/-- The loop over what comes before, of which one has to be finished. -/
def preOr (finished : UInt32 → Option Bool) (lack : TaskCheckErr) :
    List UInt32 → Option (Option TaskCheckErr)
  | [] => some none
  | id :: rest =>
    if id = 0 then some (some lack)
    else (finished id).bind fun done => if done then some none else preOr finished lack rest

/-- The loop over what comes before, which all has to be finished. -/
def preAnd (finished : UInt32 → Option Bool) (lack : TaskCheckErr) :
    List UInt32 → Option (Option TaskCheckErr)
  | [] => some none
  | id :: rest =>
    if id = 0 then some none
    else (finished id).bind fun done => if done then preAnd finished lack rest else some (some lack)

/-- Within the result, `none` is 0. -/
def obtainAbleFnCommon (config : TaskConfig) (p : TaskPlayer) (taskId : UInt32) :
    Option (Option TaskCheckErr) :=
  match config.lookup taskId with
  | none => some (some .invalidTskid)
  | some info =>
    if info.preCond[0] = 0 then some none
    else if p.level < info.needLevel then some (some .higherLevelRequired)
    else if p.curMapId ≠ info.bindMapId then some (some .atWrongMap)
    else
      match info.preCondType with
      | .or => preOr (isTaskFinished p) .lackPreTask info.preCond.toList
      | .and => preAnd (isTaskFinished p) .lackPreTask info.preCond.toList

inductive TaskSetter where
  | server
  | client
deriving DecidableEq

/-- What `setbuff_fn_common` leaves: its result, the flag and the buffer. -/
structure SetbuffReply where
  err : Option TaskCheckErr
  needUpdateDb : Bool
  buff : TaskBuff

/-- What the loops ask about a step before: the condition is that of the step that is set. -/
def preStepFinished (steps : List TaskStep) (stepConf : TaskStep) (buff : TaskBuff)
    (pre : UInt32) : Option Bool :=
  (taskLocateBufferPos steps taskBufferHead pre).map (stepFinished stepConf buff)

/-- The steps before the one that is set. -/
def setbuffPre (steps : List TaskStep) (stepConf : TaskStep) (buff : TaskBuff) :
    Option (Option TaskCheckErr) :=
  if stepConf.preCond[0] = 0 then some none
  else
    match stepConf.preCondType with
    | .or => preOr (preStepFinished steps stepConf buff) .lackPreStep stepConf.preCond.toList
    | .and => preAnd (preStepFinished steps stepConf buff) .lackPreStep stepConf.preCond.toList

/-- `is_valid_step`, with the step there; steps are counted from 1. -/
def validStep (steps : List TaskStep) (step : UInt32) : Option TaskStep :=
  if 0 < step ∧ step.toNat ≤ steps.length then steps[step.toNat - 1]? else none

def setbuffFnCommon (config : TaskConfig) (p : TaskPlayer) (taskId step : UInt32)
    (setter : TaskSetter) (needUpdateDb : Bool) (buff : TaskBuff) : Option SetbuffReply :=
  let refuse err := some { err := some err, needUpdateDb, buff }
  match config.lookup taskId with
  | none => refuse .invalidTskid
  | some info =>
    match validStep info.steps step with
    | none => refuse .stepInvalid
    | some stepConf =>
      if stepConf.stepType = .type2 ∧ setter = .client then refuse .setterNoauth
      else
        (taskLocateBufferPos info.steps taskBufferHead step).bind fun buf =>
          if stepFinished stepConf buff buf then
            some { err := some .stepAlreadyFinished, needUpdateDb := false, buff }
          else
            (setbuffPre info.steps stepConf buff).bind fun
              | some err => refuse err
              | none =>
                some { err := none, needUpdateDb
                       buff := taskUpdateBufferPos p buff buf stepConf.stepType }

end Taomee.Pea
