import Mathlib.Algebra.Order.BigOperators.Group.List
import Mathlib.Algebra.Order.Group.Nat
import Taomee.Pea.Task

/-!
# pea: the fields of a task buffer

The loader adds up the lengths of the steps, the locator and the checker go over them again. They
agree on where the field of a step is.
-/

namespace Taomee.Pea

open LittleEndian Memory

/-- The bytes of a field. -/
def StepType.width (stepType : StepType) : Nat := stepBufLen stepType

/-- The bytes of the steps before one. -/
def offset (steps : List TaskStep) (index : Nat) : Nat :=
  ((steps.take index).map (·.stepType.width)).sum

/-- A step by its number, and where its field is. -/
def Located (steps : List TaskStep) (step : UInt32) (conf : TaskStep) (buf : Nat) : Prop :=
  validStep steps step = some conf ∧ taskLocateBufferPos steps taskBufferHead step = some buf

/-- What an update makes of the number in a field. -/
def updated (p : TaskPlayer) (old : Nat) : StepType → Nat
  | .type1 => 1
  | .type2 => old + 1
  | .type3 => p.level.toNat
  | .type4 => p.exp.toNat
  | .type5 => p.gold.toNat

/-- The number in a field is enough for its step. -/
def TaskStep.Enough (conf : TaskStep) (n : Nat) : Prop :=
  if conf.stepType = .type1 then n = 1 else conf.val.toNat ≤ n

/-- An update of a step, by a player as it is then. -/
def updateStep (steps : List TaskStep) (buff : TaskBuff) (call : TaskPlayer × UInt32) : TaskBuff :=
  match validStep steps call.2 with
  | none => buff
  | some conf =>
    (taskLocateBufferPos steps taskBufferHead call.2).elim buff fun buf =>
      taskUpdateBufferPos call.1 buff buf conf.stepType

def emptyBuff : TaskBuff := fun _ => 0

/-- What the buffer of a task with these steps should be good for. -/
structure FitsBuffer (steps : List TaskStep) : Prop where
  located : ∀ {step conf}, validStep steps step = some conf → ∃ buf, Located steps step conf buf
  inside : ∀ {step conf buf}, Located steps step conf buf →
    taskBufferHead ≤ buf ∧ buf + conf.stepType.width ≤ maxTaskBuffLen
  apart : ∀ {step step' conf conf' buf buf'}, Located steps step conf buf →
    Located steps step' conf' buf' → step ≠ step' →
      buf + conf.stepType.width ≤ buf' ∨ buf' + conf'.stepType.width ≤ buf
  kept : ∀ {step step' conf conf' buf buf'}, Located steps step conf buf →
    Located steps step' conf' buf' → step ≠ step' → ∀ (p : TaskPlayer) (buff : TaskBuff),
      field (taskUpdateBufferPos p buff buf conf.stepType) buf' conf'.stepType.width =
        field buff buf' conf'.stepType.width
  checked : ∀ buff, taskBufferCheck steps buff = none ↔
    ∀ {step conf buf}, Located steps step conf buf → stepFinished conf buff buf
  fits : ∀ conf ∈ steps, conf.val.toNat < 256 ^ conf.stepType.width
  counted : ∀ {step conf buf}, Located steps step conf buf → conf.stepType = .type2 →
    ∀ (p : TaskPlayer) (buff : TaskBuff), field buff buf conf.stepType.width = 0 →
      ∀ count ≤ conf.val.toNat,
        field ((List.replicate count (p, step)).foldl (updateStep steps) buff) buf
          conf.stepType.width = count
  finishable : ∃ calls : List (TaskPlayer × UInt32),
    taskBufferCheck steps (calls.foldl (updateStep steps) emptyBuff) = none

section

variable {steps : List TaskStep} {step step' : UInt32} {conf conf' : TaskStep} {buf buf' index : Nat}
  {buff : TaskBuff} {p : TaskPlayer} {stepType : StepType} {nodes : List StepNode}

/-! ## The three functions agree -/

/-- The position goes on by the width of the step. -/
theorem increaseBufPos_eq : increaseBufPos buf stepType = buf + stepType.width := by
  cases stepType <;> rfl

/-- A step is finished when its field has enough. -/
theorem stepFinished_iff :
    stepFinished conf buff buf ↔ conf.Enough (field buff buf conf.stepType.width) := by
  obtain ⟨stepType, val, preCond, preCondType⟩ := conf
  cases stepType <;> simp [stepFinished, TaskStep.Enough, StepType.width, stepBufLen]

/-- An update writes one field. -/
theorem taskUpdateBufferPos_eq : taskUpdateBufferPos p buff buf stepType =
    setField buff buf stepType.width (updated p (field buff buf stepType.width) stepType) := by
  cases stepType <;> rfl

/-- A field keeps what fits its width. -/
theorem field_setField (buff : TaskBuff) (buf width n : Nat) :
    field (setField buff buf width n) buf width = n % 256 ^ width := by
  have bytes := read_write buff buf (toLe width n)
  rw [length_toLe] at bytes
  rw [field, setField, bytes, ofLe_toLe_mod]

/-- The other fields keep their bytes. -/
theorem field_setField_apart {width width' n : Nat}
    (apart : buf + width ≤ buf' ∨ buf' + width' ≤ buf) :
    field (setField buff buf width n) buf' width' = field buff buf' width' := by
  rw [field, setField, read_write_apart (by rw [length_toLe]; omega), field]

/-- The next step lies behind this one. -/
theorem offset_succ (here : steps[index]? = some conf) :
    offset steps (index + 1) = offset steps index + conf.stepType.width := by
  simp [offset, List.take_add_one, here]

/-- Later steps lie further on. -/
theorem offset_mono {index' : Nat} (before : index ≤ index') :
    offset steps index ≤ offset steps index' :=
  ((List.take_sublist_take_left before).map _).sum_le_sum fun _ _ => Nat.zero_le _

/-- The loop stops at the field of the step. -/
theorem locateFrom_eq (inside : index ≤ steps.length) :
    locateFrom steps buf index = some (buf + offset steps index) := by
  induction steps generalizing buf index with
  | nil =>
    obtain rfl := Nat.le_zero.mp inside
    rfl
  | cons first rest ih =>
    cases index with
    | zero => rfl
    | succ index =>
      rw [locateFrom, increaseBufPos_eq, ih (Nat.le_of_succ_le_succ inside)]
      simp [offset, Nat.add_assoc]

/-- Steps are counted from 1. -/
theorem toNat_sub_one (positive : 0 < step) : (step - 1).toNat = step.toNat - 1 :=
  UInt32.toNat_sub_of_le _ _ (UInt32.le_iff_toNat_le.mpr (UInt32.lt_iff_toNat_lt.mp positive))

/-- Where the field of a step lies. -/
theorem located_iff : Located steps step conf buf ↔
    ∃ index, step.toNat = index + 1 ∧ steps[index]? = some conf ∧
      buf = taskBufferHead + offset steps index := by
  unfold Located validStep taskLocateBufferPos
  constructor
  · rintro ⟨valid, place⟩
    split at valid
    case isFalse => cases valid
    case isTrue inside =>
      obtain ⟨positive, inside⟩ := inside
      have first : 0 < step.toNat := positive
      rw [toNat_sub_one positive, locateFrom_eq (by omega)] at place
      exact ⟨step.toNat - 1, by omega, valid, (Option.some.inj place).symm⟩
  · rintro ⟨index, number, here, rfl⟩
    have inside := (List.getElem?_eq_some_iff.mp here).1
    have positive : 0 < step := UInt32.lt_iff_toNat_lt.mpr (by simp [number])
    rw [if_pos ⟨positive, by omega⟩, toNat_sub_one positive, number, Nat.add_sub_cancel,
      locateFrom_eq inside.le]
    exact ⟨here, rfl⟩

/-- A valid step has a field. -/
theorem exists_located (valid : validStep steps step = some conf) :
    ∃ buf, Located steps step conf buf := by
  have valid' := valid
  unfold validStep at valid'
  split at valid'
  case isFalse => cases valid'
  case isTrue inside =>
    have positive : 0 < step.toNat := inside.1
    exact ⟨_, located_iff.mpr ⟨step.toNat - 1, by omega, valid', rfl⟩⟩

/-! ## What the loader accepts -/

/-- What a configuration that loads says of its first step. -/
theorem processSteps_cons {node : StepNode} {rest : List StepNode} {total : Nat}
    (loaded : processSteps (node :: rest) total = some steps) :
    ∃ conf later, steps = conf :: later ∧
      total + conf.stepType.width ≤ maxTaskBuffLen - taskBufferHead ∧
      stepCondition node conf.stepType = some conf.val ∧ conf.preCond = node.pre ∧
      processSteps rest (total + conf.stepType.width) = some later := by
  rw [processSteps] at loaded
  simp only [Option.bind_eq_bind, Option.bind_eq_some_iff] at loaded
  obtain ⟨stepType, -, loaded⟩ := loaded
  split at loaded
  case isTrue => cases loaded
  case isFalse short =>
    simp only [Option.bind_eq_some_iff] at loaded
    obtain ⟨val, condition, preCondType, -, later, loaded, same⟩ := loaded
    exact ⟨_, later, (Option.some.inj same).symm, not_lt.mp short, condition, rfl, loaded⟩

/-- The steps that load fit the buffer together. -/
theorem offset_le {total : Nat} (loaded : processSteps nodes total = some steps)
    (short : total ≤ maxTaskBuffLen - taskBufferHead) :
    total + offset steps steps.length ≤ maxTaskBuffLen - taskBufferHead := by
  induction nodes generalizing total steps with
  | nil =>
    obtain rfl := Option.some.inj loaded
    exact short
  | cons node rest ih =>
    obtain ⟨conf, later, rfl, short, -, -, loaded⟩ := processSteps_cons loaded
    have fits := ih loaded short
    simp only [offset, List.length_cons, List.take_succ_cons, List.map_cons, List.sum_cons]
    unfold offset at fits
    omega

/-- A step of the first type wants one. -/
theorem val_of_type1 {total : Nat} (loaded : processSteps nodes total = some steps) :
    ∀ conf ∈ steps, conf.stepType = .type1 → conf.val = 1 := by
  induction nodes generalizing total steps with
  | nil =>
    obtain rfl := Option.some.inj loaded
    simp
  | cons node rest ih =>
    obtain ⟨first, later, rfl, -, condition, -, loaded⟩ := processSteps_cons loaded
    intro conf member type1
    obtain rfl | member := List.mem_cons.mp member
    · rw [type1] at condition
      exact (Option.some.inj condition).symm
    · exact ih loaded conf member type1

/-! ## The layout -/

/-- A step has one field. -/
theorem Located.unique (here : Located steps step conf buf) (there : Located steps step conf' buf') :
    conf = conf' ∧ buf = buf' :=
  ⟨Option.some.inj (here.1.symm.trans there.1), Option.some.inj (here.2.symm.trans there.2)⟩

/-- Fields of distinct steps have no byte in common. -/
theorem Located.apart (here : Located steps step conf buf)
    (there : Located steps step' conf' buf') (other : step ≠ step') :
    buf + conf.stepType.width ≤ buf' ∨ buf' + conf'.stepType.width ≤ buf := by
  obtain ⟨index, number, found, rfl⟩ := located_iff.mp here
  obtain ⟨index', number', found', rfl⟩ := located_iff.mp there
  have distinct : index ≠ index' := by
    rintro rfl
    exact other (UInt32.toNat_inj.mp (number.trans number'.symm))
  obtain before | after := Nat.lt_or_gt_of_ne distinct
  · have later : offset steps (index + 1) ≤ offset steps index' := offset_mono before
    rw [offset_succ found] at later
    exact .inl (by omega)
  · have later : offset steps (index' + 1) ≤ offset steps index := offset_mono after
    rw [offset_succ found'] at later
    exact .inr (by omega)

/-- The field of a step lies inside of the buffer. -/
theorem Located.inside (here : Located steps step conf buf)
    (fits : offset steps steps.length ≤ maxTaskBuffLen - taskBufferHead) :
    taskBufferHead ≤ buf ∧ buf + conf.stepType.width ≤ maxTaskBuffLen := by
  obtain ⟨index, -, found, rfl⟩ := located_iff.mp here
  obtain ⟨within, -⟩ := List.getElem?_eq_some_iff.mp found
  have last : offset steps (index + 1) ≤ offset steps steps.length := offset_mono within
  rw [offset_succ found] at last
  unfold maxTaskBuffLen taskBufferHead at *
  omega

/-- An update of one step leaves the fields of the others alone. -/
theorem Located.update_apart (here : Located steps step conf buf)
    (there : Located steps step' conf' buf') (other : step ≠ step') :
    field (taskUpdateBufferPos p buff buf conf.stepType) buf' conf'.stepType.width =
      field buff buf' conf'.stepType.width := by
  rw [taskUpdateBufferPos_eq]
  exact field_setField_apart (here.apart there other)

/-- The checker goes through the steps with the fields where the locator finds them. -/
theorem checkFrom_eq_none_iff : checkFrom buff steps buf = none ↔
    ∀ index conf, steps[index]? = some conf →
      stepFinished conf buff (buf + offset steps index) := by
  induction steps generalizing buf with
  | nil => simp [checkFrom]
  | cons first rest ih =>
    rw [checkFrom]
    constructor
    · intro checked index conf found
      split at checked
      case isTrue => cases checked
      case isFalse finished =>
        cases index with
        | zero =>
          obtain rfl := Option.some.inj found
          simpa [offset] using finished
        | succ index =>
          rw [increaseBufPos_eq, ih] at checked
          simpa [offset, Nat.add_assoc] using checked index conf found
    · intro finished
      have first' := finished 0 first rfl
      rw [if_neg (by simpa [offset] using first'), increaseBufPos_eq, ih]
      intro index conf found
      simpa [offset, Nat.add_assoc] using finished (index + 1) conf found

/-! ## Runs of updates -/

/-- Every step has a byte at least. -/
theorem length_le_offset (steps : List TaskStep) : steps.length ≤ offset steps steps.length := by
  induction steps with
  | nil => exact Nat.le_refl _
  | cons first rest ih =>
    have one : 1 ≤ first.stepType.width := by cases first.stepType <;> decide
    simp only [offset, List.length_cons, List.take_succ_cons, List.map_cons, List.sum_cons]
    unfold offset at ih
    omega

theorem located_of_getElem? (found : steps[index]? = some conf) (short : steps.length < 2 ^ 32) :
    Located steps (UInt32.ofNat (index + 1)) conf (taskBufferHead + offset steps index) := by
  have inside := (List.getElem?_eq_some_iff.mp found).1
  refine located_iff.mpr ⟨index, ?_, found, rfl⟩
  rw [UInt32.toNat_ofNat', Nat.mod_eq_of_lt (by omega)]

/-- `update_step` updates the field of the step. -/
theorem Located.updateStep_eq (here : Located steps step conf buf) :
    updateStep steps buff (p, step) = taskUpdateBufferPos p buff buf conf.stepType := by
  simp only [updateStep, here.1, here.2, Option.elim_some]

/-- What the field holds after an update. -/
theorem Located.field_updateStep (here : Located steps step conf buf) :
    field (updateStep steps buff (p, step)) buf conf.stepType.width =
      updated p (field buff buf conf.stepType.width) conf.stepType %
        256 ^ conf.stepType.width := by
  rw [here.updateStep_eq, taskUpdateBufferPos_eq, field_setField]

/-- Any number of updates of other steps leave a field alone. -/
theorem Located.foldl_apart (here : Located steps step conf buf)
    (there : Located steps step' conf' buf') (other : step ≠ step')
    {calls : List (TaskPlayer × UInt32)} (own : ∀ call ∈ calls, call.2 = step) :
    field (calls.foldl (updateStep steps) buff) buf' conf'.stepType.width =
      field buff buf' conf'.stepType.width := by
  induction calls generalizing buff with
  | nil => rfl
  | cons call rest ih =>
    obtain ⟨rfl, own⟩ := List.forall_mem_cons.mp own
    rw [List.foldl_cons, ih own, here.updateStep_eq, here.update_apart there other]

/-- A counter goes up by one each time, as far as its target fits. -/
theorem Located.field_counted (here : Located steps step conf buf)
    (counter : conf.stepType = .type2) (fits : conf.val.toNat < 256 ^ conf.stepType.width)
    (zero : field buff buf conf.stepType.width = 0) (count : Nat)
    (enough : count ≤ conf.val.toNat) :
    field ((List.replicate count (p, step)).foldl (updateStep steps) buff) buf
      conf.stepType.width = count := by
  induction count with
  | zero => exact zero
  | succ count ih =>
    rw [List.replicate_succ', List.foldl_append, List.foldl_cons, List.foldl_nil,
      here.field_updateStep, ih (by omega), counter]
    rw [counter] at fits
    exact Nat.mod_eq_of_lt (Nat.lt_of_le_of_lt enough fits)

/-- A player whose level, experience and gold are so much. -/
def playerWith (n : UInt32) : TaskPlayer :=
  { level := n, exp := n, gold := n, curMapId := 0, tskmap := fun _ => none }

/-- A value that fits the field can be reached. -/
theorem Located.exists_enough (here : Located steps step conf buf)
    (fits : conf.val.toNat < 256 ^ conf.stepType.width)
    (zero : field buff buf conf.stepType.width = 0) :
    ∃ calls : List (TaskPlayer × UInt32), (∀ call ∈ calls, call.2 = step) ∧
      conf.Enough (field (calls.foldl (updateStep steps) buff) buf conf.stepType.width) := by
  by_cases counter : conf.stepType = .type2
  · refine ⟨List.replicate conf.val.toNat (playerWith 0, step), fun call member => ?_, ?_⟩
    · rw [List.eq_of_mem_replicate member]
    · rw [here.field_counted counter fits zero _ (Nat.le_refl _)]
      simp [TaskStep.Enough, counter]
  · refine ⟨[(playerWith conf.val, step)], by simp, ?_⟩
    rw [List.foldl_cons, List.foldl_nil, here.field_updateStep]
    unfold TaskStep.Enough updated
    cases kind : conf.stepType with
    | type1 => simp [StepType.width, stepBufLen]
    | type2 => exact absurd kind counter
    | type3 | type4 | type5 =>
      rw [kind] at fits
      simp [playerWith, Nat.mod_eq_of_lt fits]

/-- The steps are finished one after the other. -/
theorem exists_finished (short : steps.length < 2 ^ 32)
    (fits : ∀ conf ∈ steps, conf.val.toNat < 256 ^ conf.stepType.width)
    {count : Nat} (inside : count ≤ steps.length) :
    ∃ calls : List (TaskPlayer × UInt32), ∀ index conf, steps[index]? = some conf →
      let n := field (calls.foldl (updateStep steps) emptyBuff) (taskBufferHead + offset steps index)
        conf.stepType.width
      (index < count → conf.Enough n) ∧ (count ≤ index → n = 0) := by
  induction count with
  | zero =>
    refine ⟨[], fun index conf found => ⟨fun early => absurd early (Nat.not_lt_zero _), fun _ => ?_⟩⟩
    cases conf.stepType <;> rfl
  | succ count ih =>
    obtain ⟨calls, finished⟩ := ih (by omega)
    have found := List.getElem?_eq_getElem inside
    have here := located_of_getElem? found short
    obtain ⟨more, own, enough⟩ := here.exists_enough (fits _ (List.getElem_mem _))
      ((finished count _ found).2 (Nat.le_refl _))
    refine ⟨calls ++ more, fun index conf found' => ?_⟩
    rw [List.foldl_append]
    obtain rfl | other := eq_or_ne index count
    · obtain rfl := Option.some.inj (found.symm.trans found')
      exact ⟨fun _ => enough, fun late => absurd late (Nat.not_succ_le_self _)⟩
    · have there := located_of_getElem? found' short
      have distinct : UInt32.ofNat (count + 1) ≠ UInt32.ofNat (index + 1) := by
        have inside' := (List.getElem?_eq_some_iff.mp found').1
        intro same
        have numbers := congrArg UInt32.toNat same
        rw [UInt32.toNat_ofNat', UInt32.toNat_ofNat', Nat.mod_eq_of_lt (by omega),
          Nat.mod_eq_of_lt (by omega)] at numbers
        omega
      rw [here.foldl_apart there distinct own]
      obtain ⟨early, late⟩ := finished index conf found'
      exact ⟨fun before => early (by omega), fun after => late (by omega)⟩

/-! ## The claim of the loader -/

/-- Only steps of two bytes can want too much. -/
theorem fits_iff (loaded : processSingleTaskConf nodes = some steps) :
    (∀ conf ∈ steps, conf.val.toNat < 256 ^ conf.stepType.width) ↔
      ∀ conf ∈ steps, conf.stepType = .type2 ∨ conf.stepType = .type3 → conf.val < 65536 := by
  refine forall₂_congr fun conf member => ?_
  have short : conf.val < 65536 ↔ conf.val.toNat < 65536 := UInt32.lt_iff_toNat_lt
  have any : conf.val.toNat < 4294967296 := conf.val.toNat_lt
  rw [short]
  cases kind : conf.stepType with
  | type1 => simp [val_of_type1 loaded conf member kind, StepType.width, stepBufLen]
  | type2 | type3 => simp [StepType.width, stepBufLen]
  | type4 | type5 => simpa [StepType.width, stepBufLen] using any

/-- The check passes when every step is finished. -/
theorem taskBufferCheck_iff (short : steps.length < 2 ^ 32) : taskBufferCheck steps buff = none ↔
    ∀ {step conf buf}, Located steps step conf buf → stepFinished conf buff buf := by
  rw [taskBufferCheck, checkFrom_eq_none_iff]
  constructor
  · intro finished step conf buf here
    obtain ⟨index, -, found, rfl⟩ := located_iff.mp here
    exact finished index conf found
  · intro finished index conf found
    exact finished (located_of_getElem? found short)

/-- An accepted task is sound in all but this: the targets of its counters and levels may be more
than two bytes hold. -/
theorem fitsBuffer_iff (nodes : List StepNode) (steps : List TaskStep)
    (loaded : processSingleTaskConf nodes = some steps) :
    FitsBuffer steps ↔
      ∀ conf ∈ steps, conf.stepType = .type2 ∨ conf.stepType = .type3 → conf.val < 65536 := by
  rw [← fits_iff loaded]
  refine ⟨FitsBuffer.fits, fun fits => ?_⟩
  have total := offset_le loaded (Nat.zero_le _)
  rw [Nat.zero_add] at total
  have short : steps.length < 2 ^ 32 := by
    have few := length_le_offset steps
    unfold maxTaskBuffLen taskBufferHead at total
    omega
  have own {step conf buf} (here : Located steps step conf buf) :
      conf.val.toNat < 256 ^ conf.stepType.width := by
    obtain ⟨index, -, found, -⟩ := located_iff.mp here
    exact fits conf (List.mem_of_getElem? found)
  refine
    { located := exists_located
      inside := fun here => here.inside total
      apart := fun here there other => here.apart there other
      kept := fun here there other p buff => here.update_apart there other
      checked := fun buff => taskBufferCheck_iff short
      fits := fits
      counted := fun here counter p buff zero count enough =>
        here.field_counted counter (own here) zero count enough
      finishable := ?_ }
  obtain ⟨calls, finished⟩ := exists_finished short fits (Nat.le_refl _)
  refine ⟨calls, (taskBufferCheck_iff short).mpr fun here => stepFinished_iff.mpr ?_⟩
  obtain ⟨index, -, found, rfl⟩ := located_iff.mp here
  exact (finished index _ found).1 (List.getElem?_eq_some_iff.mp found).1

end

/-- A list with one entry before a step; 0 is none. -/
def preOf (pre : UInt32) : Vector UInt32 4 := #v[pre, 0, 0, 0]

/-- A deed first, then as many things as are asked for. -/
def collectNodes (condition : UInt32) : List StepNode :=
  [{ type := 1, condition := 0, conditionArr := [], pre := #v[0, 0, 0, 0], isAnd := 0 },
    { type := 2, condition := 0, conditionArr := [7, condition], pre := #v[1, 0, 0, 0], isAnd := 1 }]

/-- A task that collects ten. -/
theorem fitsBuffer_iff_ten : ∃ steps, processSingleTaskConf (collectNodes 10) = some steps ∧
    (FitsBuffer steps ↔
      ∀ conf ∈ steps, conf.stepType = .type2 ∨ conf.stepType = .type3 → conf.val < 65536) :=
  ⟨_, rfl, fitsBuffer_iff (collectNodes 10) _ rfl⟩

/-- The loader accepts a target of 65536, which two bytes never reach. -/
theorem not_fitsBuffer_collect :
    ∃ steps, processSingleTaskConf (collectNodes 65536) = some steps ∧ ¬FitsBuffer steps := by
  refine ⟨_, rfl, fun sound => ?_⟩
  have fits := sound.fits _ (List.mem_cons_of_mem _ (List.mem_cons_self ..))
  exact absurd fits (by decide)

end Taomee.Pea
