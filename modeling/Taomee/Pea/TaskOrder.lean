import Mathlib.Data.List.TakeWhile
import Taomee.Pea.TaskBuffer

/-!
# pea: what comes before a step and before a task

A step may ask for other steps, a task for other tasks: for all of them or for one. Both lists end
at the first zero or where they are full, and one pair of loops goes over them.
-/

namespace Taomee.Pea

/-- A number is in a list, and a loop that goes on as long as `P` holds gets to it. -/
def Behind (P : UInt32 → Prop) : List UInt32 → UInt32 → Prop
  | [], _ => False
  | first :: rest, id => first = id ∨ P first ∧ Behind P rest id

section

variable {finished : UInt32 → Option Bool} {lack : TaskCheckErr} {l : List UInt32} {id : UInt32}
  {P : UInt32 → Prop} {preCond : Vector UInt32 4}

theorem Behind.mem (behind : Behind P l id) : id ∈ l := by
  induction l with
  | nil => exact behind.elim
  | cons first rest ih =>
    obtain rfl | ⟨-, behind⟩ := behind
    · exact List.mem_cons_self ..
    · exact List.mem_cons_of_mem _ (ih behind)

/-- Of what stops a loop that it gets to, the first stops it. -/
theorem Behind.exists_first {Q : UInt32 → Prop} (behind : Behind (fun id => P id ∨ Q id) l id)
    (stops : Q id) : ∃ id, Behind P l id ∧ Q id := by
  induction l with
  | nil => exact behind.elim
  | cons first rest ih =>
    obtain rfl | ⟨holds | early, behind⟩ := behind
    · exact ⟨first, .inl rfl, stops⟩
    · obtain ⟨id, behind, stops⟩ := ih behind
      exact ⟨id, .inr ⟨holds, behind⟩, stops⟩
    · exact ⟨first, .inl rfl, early⟩

theorem Behind.imp {Q : UInt32 → Prop} (weaker : ∀ id, P id → Q id) (behind : Behind P l id) :
    Behind Q l id := by
  induction l with
  | nil => exact behind.elim
  | cons first rest ih => exact behind.imp_right fun ⟨holds, later⟩ => ⟨weaker _ holds, ih later⟩

/-! ## The loops -/

/-- All listed tasks must be finished. -/
theorem preAnd_accepts_iff : preAnd finished lack l = some none ↔
    ∀ id ∈ l.takeWhile (· ≠ 0), finished id = some true := by
  induction l with
  | nil => simp [preAnd]
  | cons first rest ih =>
    by_cases last : first = 0
    · simp [preAnd, last]
    · cases judged : finished first with
      | none => simp [preAnd, last, judged]
      | some done => cases done <;> simp [preAnd, last, judged, ih]

/-- A loop that goes on behind one answer is stuck at a member without any that it gets to. -/
theorem stuck_iff {loop : List UInt32 → Option (Option TaskCheckErr)} {goesOn : Bool}
    (ends : loop [] ≠ none) (last : ∀ rest, loop (0 :: rest) ≠ none)
    (turn : ∀ first rest, first ≠ 0 → (loop (first :: rest) = none ↔
      finished first = none ∨ finished first = some goesOn ∧ loop rest = none)) :
    loop l = none ↔
      ∃ id, Behind (finished · = some goesOn) (l.takeWhile (· ≠ 0)) id ∧ finished id = none := by
  induction l with
  | nil => simp [ends, Behind]
  | cons first rest ih =>
    by_cases zero : first = 0
    · simp [zero, last, Behind]
    · rw [turn first rest zero, ih]
      simp [zero, Behind, and_assoc]

/-- The loop is stuck at a task that it cannot look up. -/
theorem preAnd_stuck_iff : preAnd finished lack l = none ↔
    ∃ id, Behind (finished · = some true) (l.takeWhile (· ≠ 0)) id ∧ finished id = none := by
  refine stuck_iff (by simp [preAnd]) (by simp [preAnd]) fun first rest some' => ?_
  cases judged : finished first with
  | none => simp [preAnd, some', judged]
  | some done => cases done <;> simp [preAnd, some', judged]

/-- A full list passes like one with a finished member. -/
theorem preOr_accepts_iff (runs : preOr finished lack l ≠ none) :
    preOr finished lack l = some none ↔
      (∃ id ∈ l.takeWhile (· ≠ 0), finished id = some true) ∨ ∀ id ∈ l, id ≠ 0 := by
  induction l with
  | nil => simp [preOr]
  | cons first rest ih =>
    by_cases last : first = 0
    · simp [preOr, last]
    · cases judged : finished first with
      | none => simp [preOr, last, judged] at runs
      | some done =>
        cases done with
        | true => simp [preOr, last, judged]
        | false =>
          have goesOn : preOr finished lack (first :: rest) = preOr finished lack rest := by
            simp [preOr, last, judged]
          rw [goesOn] at runs ⊢
          simpa [last, judged] using ih runs

/-- The loop is stuck at a task that it cannot look up. -/
theorem preOr_stuck_iff : preOr finished lack l = none ↔
    ∃ id, Behind (finished · = some false) (l.takeWhile (· ≠ 0)) id ∧ finished id = none := by
  refine stuck_iff (by simp [preOr]) (by simp [preOr]) fun first rest some' => ?_
  cases judged : finished first with
  | none => simp [preOr, some', judged]
  | some done => cases done <;> simp [preOr, some', judged]

theorem listed_eq_nil_iff {inside : 0 < 4} : listed preCond = [] ↔ preCond[0] = 0 := by
  obtain ⟨⟨l⟩, four⟩ := preCond
  match l, four with
  | [a, b, c, d], _ => simp [listed]

/-- A list is full where no slot of it is zero. -/
theorem length_listed_iff : (listed preCond).length = 4 ↔ listed preCond = preCond.toList := by
  constructor
  · intro four
    exact (List.takeWhile_prefix _).eq_of_length (four.trans Vector.length_toList.symm)
  · intro full
    rw [full, Vector.length_toList]

theorem forall_ne_zero_iff : (∀ id ∈ preCond.toList, id ≠ 0) ↔ (listed preCond).length = 4 := by
  rw [length_listed_iff, listed, List.takeWhile_eq_self_iff]
  simp only [decide_eq_true_eq]

end

/-! ## Steps before a step -/

/-- A step is finished by its own type and condition. -/
def Finished (steps : List TaskStep) (buff : TaskBuff) (step : UInt32) : Prop :=
  ∃ conf buf, Located steps step conf buf ∧ stepFinished conf buff buf

/-- The field of a step passes the condition of another one. -/
def SeemsFinished (steps : List TaskStep) (stepConf : TaskStep) (buff : TaskBuff)
    (step : UInt32) : Prop :=
  ∃ buf, taskLocateBufferPos steps taskBufferHead step = some buf ∧ stepFinished stepConf buff buf

/-- What has to be so before a step may be set. -/
def PreFinished (steps : List TaskStep) (stepConf : TaskStep) (buff : TaskBuff) : Prop :=
  match stepConf.preCondType with
  | .and => ∀ pre ∈ listed stepConf.preCond, Finished steps buff pre
  | .or => listed stepConf.preCond = [] ∨ ∃ pre ∈ listed stepConf.preCond, Finished steps buff pre

/-- The loops find that it is so: they ask by the condition of the step that is set, and for a full
list of alternatives they do not say that none is finished. -/
def PreSeemsFinished (steps : List TaskStep) (stepConf : TaskStep) (buff : TaskBuff) : Prop :=
  match stepConf.preCondType with
  | .and => ∀ pre ∈ listed stepConf.preCond, SeemsFinished steps stepConf buff pre
  | .or =>
    listed stepConf.preCond = [] ∨ (listed stepConf.preCond).length = 4 ∨
      ∃ pre ∈ listed stepConf.preCond, SeemsFinished steps stepConf buff pre

/-- An update is taken only where the steps before are finished, and leaves the buffer as it was
otherwise. -/
def InOrder (config : TaskConfig) (p : TaskPlayer) (taskId step : UInt32) (setter : TaskSetter)
    (needUpdateDb : Bool) (buff : TaskBuff) : Prop :=
  ∃ reply, setbuffFnCommon config p taskId step setter needUpdateDb buff = some reply ∧
    (reply.err = none → ∃ info stepConf, config.lookup taskId = some info ∧
      validStep info.steps step = some stepConf ∧ PreFinished info.steps stepConf buff) ∧
    (reply.err ≠ none → reply.buff = buff)

section

variable {getMap : UInt32 → Bool} {nodes : List TaskNode} {config : TaskConfig} {info : TaskInfo}
  {steps : List TaskStep} {stepConf : TaskStep} {buff : TaskBuff} {taskId step : UInt32}
  {p : TaskPlayer} {setter : TaskSetter} {needUpdateDb : Bool}

/-- The loader has seen to it that the steps before are there. -/
theorem inside_of_loaded (loaded : initTaskConfigData getMap nodes = some config)
    (found : config.lookup taskId = some info) :
    ∀ conf ∈ info.steps, ∀ pre ∈ listed conf.preCond, pre.toNat ≤ info.steps.length := by
  unfold initTaskConfigData at loaded
  simp only [Option.bind_eq_bind, Option.bind_eq_some_iff] at loaded
  obtain ⟨config', -, checked⟩ := loaded
  split at checked
  case isFalse => cases checked
  case isTrue checked' =>
    obtain rfl := Option.some.inj checked
    obtain ⟨before, after, rfl, -⟩ := List.lookup_eq_some_iff.mp found
    have entry := List.all_eq_true.mp checked' (taskId, info) (by simp)
    intro conf member pre member'
    have all := List.all_eq_true.mp (Bool.and_eq_true_iff.mp entry).2 conf member
    simpa using List.all_eq_true.mp all pre member'

/-- A step counts as finished when its field has enough. -/
theorem preStepFinished_eq_true_iff {pre : UInt32} :
    preStepFinished steps stepConf buff pre = some true ↔ SeemsFinished steps stepConf buff pre := by
  simp [preStepFinished, SeemsFinished]

/-- Otherwise it does not. -/
theorem preStepFinished_eq_false_iff {pre : UInt32} (inside : pre.toNat ≤ steps.length)
    (positive : pre ≠ 0) :
    preStepFinished steps stepConf buff pre = some false ↔
      ¬SeemsFinished steps stepConf buff pre := by
  have place : taskLocateBufferPos steps taskBufferHead pre =
      some (taskBufferHead + offset steps (pre.toNat - 1)) := by
    rw [taskLocateBufferPos, toNat_sub_one (UInt32.pos_iff_ne_zero.mpr positive),
      locateFrom_eq (by omega)]
  simp [preStepFinished, SeemsFinished, place]

/-- A listed step is found. -/
theorem preStepFinished_ne_none
    (inside : ∀ pre ∈ listed stepConf.preCond, pre.toNat ≤ steps.length) :
    ∀ pre ∈ listed stepConf.preCond, preStepFinished steps stepConf buff pre ≠ none := by
  intro pre member
  have positive : pre ≠ 0 := by simpa using List.mem_takeWhile_imp member
  by_cases seems : SeemsFinished steps stepConf buff pre
  · simp [preStepFinished_eq_true_iff.mpr seems]
  · simp [(preStepFinished_eq_false_iff (inside pre member) positive).mpr seems]

/-- The steps before are there, so the loops never read behind the last one. -/
theorem preOr_ne_none (inside : ∀ pre ∈ listed stepConf.preCond, pre.toNat ≤ steps.length) :
    preOr (preStepFinished steps stepConf buff) .lackPreStep stepConf.preCond.toList ≠ none := by
  intro stuck
  obtain ⟨pre, behind, unjudged⟩ := preOr_stuck_iff.mp stuck
  exact preStepFinished_ne_none inside pre behind.mem unjudged

theorem preAnd_ne_none (inside : ∀ pre ∈ listed stepConf.preCond, pre.toNat ≤ steps.length) :
    preAnd (preStepFinished steps stepConf buff) .lackPreStep stepConf.preCond.toList ≠ none := by
  intro stuck
  obtain ⟨pre, behind, unjudged⟩ := preAnd_stuck_iff.mp stuck
  exact preStepFinished_ne_none inside pre behind.mem unjudged

/-- `setbuff` goes on exactly when the steps before seem finished. -/
theorem setbuffPre_spec (buff : TaskBuff)
    (inside : ∀ pre ∈ listed stepConf.preCond, pre.toNat ≤ steps.length) :
    setbuffPre steps stepConf buff ≠ none ∧
      (setbuffPre steps stepConf buff = some none ↔ PreSeemsFinished steps stepConf buff) := by
  unfold setbuffPre PreSeemsFinished
  split
  case isTrue first => cases stepConf.preCondType <;> simp [listed_eq_nil_iff.mpr first]
  case isFalse first =>
    cases stepConf.preCondType with
    | or =>
      have some' : listed stepConf.preCond ≠ [] := fun none' => first (listed_eq_nil_iff.mp none')
      refine ⟨preOr_ne_none inside, ?_⟩
      rw [preOr_accepts_iff (preOr_ne_none inside), forall_ne_zero_iff, or_comm]
      simp only [preStepFinished_eq_true_iff, some', false_or]
      rfl
    | and =>
      exact ⟨preAnd_ne_none inside,
        preAnd_accepts_iff.trans (forall₂_congr fun _ _ => preStepFinished_eq_true_iff)⟩

/-- What the function does to a step that is there and that the setter may set. -/
theorem setbuffFnCommon_spec (p : TaskPlayer) (setter : TaskSetter) (needUpdateDb : Bool)
    (buff : TaskBuff) (found : config.lookup taskId = some info)
    (valid : validStep info.steps step = some stepConf)
    (inside : ∀ pre ∈ listed stepConf.preCond, pre.toNat ≤ info.steps.length) :
    ∃ reply, setbuffFnCommon config p taskId step setter needUpdateDb buff = some reply ∧
      (reply.err ≠ none → reply.buff = buff) ∧
      (reply.err = none ↔ ¬(stepConf.stepType = .type2 ∧ setter = .client) ∧
        ¬Finished info.steps buff step ∧ PreSeemsFinished info.steps stepConf buff) := by
  obtain ⟨buf, here⟩ := exists_located valid
  have own : Finished info.steps buff step ↔ stepFinished stepConf buff buf := by
    constructor
    · rintro ⟨conf, buf', there, finished⟩
      obtain ⟨rfl, rfl⟩ := here.unique there
      exact finished
    · exact fun finished => ⟨stepConf, buf, here, finished⟩
  simp only [setbuffFnCommon, found, valid, here.2, Option.bind_some]
  by_cases barred : stepConf.stepType = .type2 ∧ setter = .client
  · exact ⟨_, if_pos barred, fun _ => rfl, by simp [barred]⟩
  · rw [if_neg barred]
    by_cases finished : stepFinished stepConf buff buf
    · exact ⟨_, if_pos finished, fun _ => rfl, by simp [own.mpr finished]⟩
    · rw [if_neg finished]
      obtain ⟨runs, accepts⟩ := setbuffPre_spec buff inside
      cases before : setbuffPre info.steps stepConf buff with
      | none => exact absurd before runs
      | some err =>
        rw [before] at accepts
        cases err with
        | none => exact ⟨_, rfl, by simp, by simp [barred, own, finished, ← accepts]⟩
        | some err => exact ⟨_, rfl, fun _ => rfl, by simp [← accepts]⟩

/-- The order is kept exactly where the loops are not misled about the steps before a step that is
not refused without them. -/
theorem inOrder_iff (getMap : UInt32 → Bool) (nodes : List TaskNode) (config : TaskConfig)
    (loaded : initTaskConfigData getMap nodes = some config) (p : TaskPlayer)
    (taskId step : UInt32) (setter : TaskSetter) (needUpdateDb : Bool) (buff : TaskBuff) :
    InOrder config p taskId step setter needUpdateDb buff ↔
      ∀ info, config.lookup taskId = some info →
        ∀ stepConf, validStep info.steps step = some stepConf →
        ¬(stepConf.stepType = .type2 ∧ setter = .client) → ¬Finished info.steps buff step →
        PreSeemsFinished info.steps stepConf buff → PreFinished info.steps stepConf buff := by
  unfold InOrder
  cases found : config.lookup taskId with
  | none => simp [setbuffFnCommon, found]
  | some info =>
    cases valid : validStep info.steps step with
    | none => simp [setbuffFnCommon, found, valid]
    | some stepConf =>
      have member : stepConf ∈ info.steps := by
        unfold validStep at valid
        split at valid
        case isTrue => exact List.mem_of_getElem? valid
        case isFalse => cases valid
      obtain ⟨reply, runs, unchanged, accepted⟩ := setbuffFnCommon_spec p setter
        needUpdateDb buff found valid (inside_of_loaded loaded found stepConf member)
      simp only [Option.some.injEq, forall_eq', runs, exists_eq_left', valid]
      rw [accepted]
      constructor
      · rintro ⟨kept, -⟩ allowed open' seems
        obtain ⟨_, _, rfl, same, before⟩ := kept ⟨allowed, open', seems⟩
        obtain rfl := Option.some.inj (valid.symm.trans same)
        exact before
      · rintro kept
        exact ⟨fun ⟨allowed, open', seems⟩ => ⟨info, stepConf, rfl, valid, kept allowed open' seems⟩,
          unchanged⟩

end

/-- A task for 1000 points of experience, and a deed after them. -/
def experienceFirst : List TaskNode :=
  [{ id := 1, type := 1, pre := preOf 0, isAnd := 0, needLevel := 0, bindMapId := 10
     steps := [
      { type := 4, condition := 1000, conditionArr := [], pre := preOf 0, isAnd := 0 },
      { type := 1, condition := 0, conditionArr := [], pre := preOf 1, isAnd := 1 }] }]

/-- The buffer of a player with some points of experience. -/
def pointsOf (exp : UInt32) : TaskBuff :=
  taskUpdateBufferPos (playerWith exp) emptyBuff taskBufferHead .type4

/-- The first byte of 1025 is 1, so the deed after 1000 points is taken, and they are there. -/
theorem inOrder_iff_manyPoints : ∃ config,
    initTaskConfigData (· = 10) experienceFirst = some config ∧
      (setbuffFnCommon config (playerWith 1025) 1 2 .client true (pointsOf 1025)).map (·.err) =
        some none ∧
      InOrder config (playerWith 1025) 1 2 .client true (pointsOf 1025) := by
  refine ⟨_, rfl, by decide +kernel, ?_⟩
  refine (inOrder_iff (· = 10) experienceFirst _ rfl (playerWith 1025) 1 2 .client true
    (pointsOf 1025)).mpr fun info found stepConf valid _ _ _ => ?_
  obtain rfl := Option.some.inj found
  obtain rfl := Option.some.inj valid
  intro pre member
  obtain rfl : pre = 1 := List.mem_singleton.mp member
  exact ⟨_, _, ⟨rfl, rfl⟩, by decide⟩

/-- One point of 1000 reads like a deed that is done. -/
theorem not_inOrder_onePoint : ∃ config,
    initTaskConfigData (· = 10) experienceFirst = some config ∧
      ¬InOrder config (playerWith 1) 1 2 .client true (pointsOf 1) := by
  refine ⟨_, rfl, ?_⟩
  rintro ⟨reply, runs, kept, -⟩
  obtain rfl := Option.some.inj runs
  obtain ⟨info, stepConf, found, valid, before⟩ := kept rfl
  obtain rfl := Option.some.inj found
  obtain rfl := Option.some.inj valid
  obtain ⟨conf, buf, here, finished⟩ := before 1 (by decide)
  obtain rfl := Option.some.inj here.1
  obtain rfl := Option.some.inj here.2
  exact absurd finished (by decide)

/-! ## Tasks before a task -/

/-- A player has taken a task and finished it. -/
def TaskDone (p : TaskPlayer) (taskId : UInt32) : Prop :=
  ∃ task, p.tskmap taskId = some task ∧ task.flag = taskFinished

def TaskNeverTaken (p : TaskPlayer) (taskId : UInt32) : Prop := p.tskmap taskId = none

def PreDone (info : TaskInfo) (p : TaskPlayer) : Prop :=
  match info.preCondType with
  | .and => ∀ id ∈ listed info.preCond, TaskDone p id
  | .or => listed info.preCond = [] ∨ ∃ id ∈ listed info.preCond, TaskDone p id

/-- What has to be so before a task may be taken. -/
structure Eligible (info : TaskInfo) (p : TaskPlayer) : Prop where
  level : info.needLevel ≤ p.level
  map : p.curMapId = info.bindMapId
  before : PreDone info p

/-- A task is accepted where the player is eligible for it, and no task that was never taken is
dereferenced. -/
def EligibilityKept (config : TaskConfig) (p : TaskPlayer) (taskId : UInt32) : Prop :=
  obtainAbleFnCommon config p taskId ≠ none ∧
    (obtainAbleFnCommon config p taskId = some none ↔
      ∃ info, config.lookup taskId = some info ∧ Eligible info p)

/-- What is left where level and map are right. -/
def preTasks (info : TaskInfo) (p : TaskPlayer) : Option (Option TaskCheckErr) :=
  match info.preCondType with
  | .or => preOr (isTaskFinished p) .lackPreTask info.preCond.toList
  | .and => preAnd (isTaskFinished p) .lackPreTask info.preCond.toList

/-- The loops get to a task: those before it in the list do not settle the matter. -/
def LookedUp (info : TaskInfo) (p : TaskPlayer) (id : UInt32) : Prop :=
  match info.preCondType with
  | .and => Behind (TaskDone p) (listed info.preCond) id
  | .or => Behind (fun id => ¬TaskDone p id) (listed info.preCond) id

section

variable {config : TaskConfig} {info : TaskInfo} {p : TaskPlayer} {taskId id : UInt32}

/-- A task never taken cannot be looked up. -/
theorem isTaskFinished_eq_none_iff : isTaskFinished p id = none ↔ TaskNeverTaken p id := by
  simp [isTaskFinished, TaskNeverTaken]

theorem isTaskFinished_eq_true_iff : isTaskFinished p id = some true ↔ TaskDone p id := by
  simp [isTaskFinished, TaskDone]

/-- A task that is not done is unfinished or was never taken. -/
theorem not_taskDone_iff :
    ¬TaskDone p id ↔ isTaskFinished p id = some false ∨ TaskNeverTaken p id := by
  rw [← isTaskFinished_eq_true_iff, ← isTaskFinished_eq_none_iff]
  cases isTaskFinished p id with
  | none => simp
  | some done => cases done <;> simp

/-- A loop uses the iterator at the end where it gets to a task that was never taken. -/
theorem preOr_tasks_stuck_iff :
    preOr (isTaskFinished p) .lackPreTask info.preCond.toList = none ↔
      ∃ id, Behind (fun id => ¬TaskDone p id) (listed info.preCond) id ∧ TaskNeverTaken p id := by
  rw [preOr_stuck_iff]
  constructor
  · rintro ⟨id, behind, never⟩
    exact ⟨id, behind.imp fun _ unfinished => not_taskDone_iff.mpr (.inl unfinished),
      isTaskFinished_eq_none_iff.mp never⟩
  · rintro ⟨id, behind, never⟩
    obtain ⟨id, behind, never⟩ := (behind.imp fun _ => not_taskDone_iff.mp).exists_first never
    exact ⟨id, behind, isTaskFinished_eq_none_iff.mpr never⟩

theorem preAnd_tasks_stuck_iff :
    preAnd (isTaskFinished p) .lackPreTask info.preCond.toList = none ↔
      ∃ id, Behind (TaskDone p) (listed info.preCond) id ∧ TaskNeverTaken p id := by
  simp only [preAnd_stuck_iff, isTaskFinished_eq_true_iff, isTaskFinished_eq_none_iff]
  rfl

/-- When the condition on tasks is kept. -/
theorem preTasks_kept_iff (some' : listed info.preCond ≠ []) :
    preTasks info p ≠ none ∧ (preTasks info p = some none ↔ PreDone info p) ↔
      (∀ id, LookedUp info p id → ¬TaskNeverTaken p id) ∧
        (info.preCondType = .or → (listed info.preCond).length = 4 →
          ∃ id ∈ listed info.preCond, TaskDone p id) := by
  unfold preTasks PreDone LookedUp
  cases info.preCondType with
  | or =>
    rw [Ne, preOr_tasks_stuck_iff, not_exists]
    simp only [not_and]
    refine and_congr_right fun runs => ?_
    have accepted := preOr_accepts_iff fun stuck =>
      let ⟨id, behind, never⟩ := preOr_tasks_stuck_iff.mp stuck
      runs id behind never
    rw [accepted, forall_ne_zero_iff]
    simp only [isTaskFinished_eq_true_iff, some', false_or, forall_const]
    exact or_iff_left_iff_imp
  | and =>
    rw [Ne, preAnd_tasks_stuck_iff, not_exists]
    have accepted : preAnd (isTaskFinished p) .lackPreTask info.preCond.toList = some none ↔
        ∀ id ∈ listed info.preCond, TaskDone p id :=
      preAnd_accepts_iff.trans (forall₂_congr fun _ _ => isTaskFinished_eq_true_iff)
    simp [accepted]

end

/-- Eligibility is kept where the list of tasks before is empty and level and map are right anyway,
or where it is not empty and a refusal comes before it is read, or no task that was never taken is
looked up and a full list of alternatives has one that is finished. -/
theorem eligibilityKept_iff (config : TaskConfig) (p : TaskPlayer) (taskId : UInt32) :
    EligibilityKept config p taskId ↔ ∀ info, config.lookup taskId = some info →
      if listed info.preCond = [] then info.needLevel ≤ p.level ∧ p.curMapId = info.bindMapId
      else p.level < info.needLevel ∨ p.curMapId ≠ info.bindMapId ∨
        (∀ id, LookedUp info p id → ¬TaskNeverTaken p id) ∧
          (info.preCondType = .or → (listed info.preCond).length = 4 →
            ∃ id ∈ listed info.preCond, TaskDone p id) := by
  unfold EligibilityKept
  cases found : config.lookup taskId with
  | none => simp [obtainAbleFnCommon, found]
  | some info =>
    simp only [Option.some.injEq, forall_eq', exists_eq_left']
    by_cases first : info.preCond[0] = 0
    · have empty := listed_eq_nil_iff.mpr first
      have before : Eligible info p ↔ info.needLevel ≤ p.level ∧ p.curMapId = info.bindMapId := by
        refine ⟨fun fit => ⟨fit.level, fit.map⟩, fun fit => ⟨fit.1, fit.2, ?_⟩⟩
        unfold PreDone
        cases info.preCondType <;> simp [empty]
      simp [obtainAbleFnCommon, found, first, empty, before]
    · have some' : listed info.preCond ≠ [] := fun empty => first (listed_eq_nil_iff.mp empty)
      rw [if_neg some']
      by_cases low : p.level < info.needLevel
      · have unfit : ¬Eligible info p := fun fit => absurd low (UInt32.not_lt.mpr fit.level)
        simp [obtainAbleFnCommon, found, first, low, unfit]
      · by_cases away : p.curMapId ≠ info.bindMapId
        · have unfit : ¬Eligible info p := fun fit => away fit.map
          simp [obtainAbleFnCommon, found, first, low, away, unfit]
        · have result : obtainAbleFnCommon config p taskId = preTasks info p := by
            simp only [obtainAbleFnCommon, found, if_neg first, if_neg low, if_neg away]
            rfl
          have fit : Eligible info p ↔ PreDone info p :=
            ⟨fun fit => fit.before, fun before => ⟨UInt32.not_lt.mp low, not_not.mp away, before⟩⟩
          rw [result, fit, preTasks_kept_iff some']
          simp [low, away]

/-- A player of the first level, on map 10, who has taken no task. -/
def newcomer : TaskPlayer :=
  { level := 1, exp := 0, gold := 0, curMapId := 10, tskmap := fun _ => none }

/-- A task for the fifth level on map 10, after no other one. -/
def fifthLevel : TaskConfig :=
  [(1, { preCond := preOf 0, preCondType := .or, needLevel := 5, bindMapId := 10
         steps := [] })]

/-- Without tasks before it a task is open to every level. -/
theorem not_eligibilityKept_newcomer : ¬EligibilityKept fifthLevel newcomer 1 := by
  rintro ⟨-, accepted⟩
  obtain ⟨info, found, fit⟩ := accepted.mp rfl
  obtain rfl := Option.some.inj found
  exact absurd fit.level (by decide)

end Taomee.Pea
