import Taomee.RingQueue.Decorated

/-!
# ring-queue: looking at a queue

`pop_data_dummy` is written beside `pop_data` in every class. A decorator stands around a queue of
any class, also around another decorator, and makes its calls from those of the queue inside. Here
the two calls are followed through any decorators.
-/

namespace Taomee.RingQueue

open Machines

/-- A decorator with what its `pop_data` reads; a `mutex` of 0 is held by another process. -/
inductive Layer where
  | waitable (inited : Bool)
  | multipopable (inited : Bool) (mutex : Nat)

def Layer.inited : Layer → Bool
  | .waitable inited => inited
  | .multipopable inited _ => inited

namespace Layers

/-- `pop_data_dummy` through the decorators, the outermost first. There is no reply where the call
goes on to wait. -/
def popDataDummy (kind : Kind) :
    List Layer → Ring → Bool → Int → Int → Option Reply × Ring
  | [], q, given, bufferLen, timeout =>
    let rv := kind.popDataDummy q given bufferLen timeout
    (some rv.1, rv.2)
  | .waitable inited :: inner, q, given, bufferLen, timeout =>
    if !inited then (some ⟨-1, []⟩, q)
    else
      match popDataDummy kind inner q given bufferLen 0 with
      | (none, q) => (none, q)
      | (some rv, q) => (if rv.ret ≠ 0 ∨ timeout = 0 then some rv else none, q)
  | .multipopable inited _ :: inner, q, given, bufferLen, timeout =>
    if !inited then (some ⟨-1, []⟩, q)
    else popDataDummy kind inner q given bufferLen timeout

/-- `pop_data` through the decorators. -/
def popData (kind : Kind) : List Layer → Ring → Bool → Int → Int → Option Reply × Ring
  | [], q, given, bufferLen, timeout =>
    let rv := kind.popData q given bufferLen timeout
    (some rv.1, rv.2)
  | .waitable inited :: inner, q, given, bufferLen, timeout =>
    if !inited then (some ⟨-1, []⟩, q)
    else
      match popDataDummy kind (.waitable inited :: inner) q given bufferLen timeout with
      | (none, q) => (none, q)
      | (some looked, q) =>
        if looked.ret > 0 then
          match popData kind inner q false looked.ret 0 with
          | (none, q) => (none, q)
          | (some rv, q) => (some ⟨rv.ret, looked.data⟩, q)
        else (some looked, q)
  | .multipopable inited mutex :: inner, q, given, bufferLen, timeout =>
    if !inited then (some ⟨-1, []⟩, q)
    else
      match popDataDummy kind inner q false bufferLen timeout with
      | (none, q) => (none, q)
      | (some rv, q) =>
        if rv.ret > 0 then
          if mutex = 0 then (none, q) else popData kind inner q given bufferLen 0
        else (some rv, q)

/-- Every decorator is set up. -/
def Inited (layers : List Layer) : Prop := ∀ layer ∈ layers, layer.inited = true

/-- Another process holds a semaphore. -/
def Locked (layers : List Layer) : Prop := ∃ inited, .multipopable inited 0 ∈ layers

/-- The timeout that comes to the queue inside. -/
def innerTimeout : List Layer → Int → Int
  | [], timeout => timeout
  | .waitable _ :: inner, _ => innerTimeout inner 0
  | .multipopable _ _ :: inner, timeout => innerTimeout inner timeout

end Layers

/-! ## What a look sees -/

/-- A look at a queue fails with an error, or it sees the front of what is there: a stretch of
bytes, a record, a message. A pop takes what was seen where it has a buffer for it. -/
structure Views (kind : Kind) (q : Ring) (errno : Errno) (bad : Int → Int → Prop)
    [∀ bufferLen timeout, Decidable (bad bufferLen timeout)] (front : Int → List UInt8) :
    Prop where
  look : ∀ given bufferLen timeout, kind.popDataDummy q given bufferLen timeout =
    if bad bufferLen timeout then q.refuse errno
    else (⟨(front bufferLen).length, if given then front bufferLen else []⟩, q)
  timed : ∀ bufferLen timeout, timeout ≠ 0 → bad bufferLen timeout
  again : ∀ bufferLen, ¬ bad bufferLen 0 → front bufferLen ≠ [] →
    ¬ bad (front bufferLen).length 0 ∧ front (front bufferLen).length = front bufferLen
  refuses : ∀ given bufferLen timeout, bad bufferLen timeout ∨ bufferLen < 1 →
    (kind.popData q given bufferLen timeout).1 = failed
  pops : ∀ given bufferLen, ¬ bad bufferLen 0 → 1 ≤ bufferLen →
    ((front bufferLen).length : Int) ≤ bufferLen →
    (kind.popData q given bufferLen 0).1 =
      ⟨(front bufferLen).length, if given then front bufferLen else []⟩

namespace Layers

variable {kind : Kind} {q : Ring} {errno : Errno} {bad : Int → Int → Prop}
  [∀ bufferLen timeout, Decidable (bad bufferLen timeout)] {front : Int → List UInt8}
  {layers : List Layer} {given : Bool} {bufferLen timeout : Int}

@[simp] theorem innerTimeout_zero (layers : List Layer) : innerTimeout layers 0 = 0 := by
  induction layers with
  | nil => rfl
  | cons layer inner ih => cases layer <;> exact ih

theorem inited_cons {layer : Layer} :
    Inited (layer :: layers) ↔ layer.inited = true ∧ Inited layers := by
  simp [Inited]

/-- A decorator that is not set up fails, and those around it do. -/
theorem popDataDummy_of_not_inited (out : ¬ Inited layers) :
    popDataDummy kind layers q given bufferLen timeout = (some failed, q) := by
  induction layers generalizing timeout with
  | nil => exact absurd (by simp [Inited]) out
  | cons layer inner ih =>
    cases layer with
    | waitable inited =>
      cases inited with
      | false => rfl
      | true =>
        have inside : ¬ Inited inner := fun all => out (inited_cons.mpr ⟨rfl, all⟩)
        simp [popDataDummy, ih inside, failed]
    | multipopable inited mutex =>
      cases inited with
      | false => rfl
      | true =>
        have inside : ¬ Inited inner := fun all => out (inited_cons.mpr ⟨rfl, all⟩)
        simp [popDataDummy, ih inside]

/-- A look through decorators that are set up is the look inside; it waits where nothing is there
and it may. -/
theorem popDataDummy_eq (views : Views kind q errno bad front) (inited : Inited layers) :
    popDataDummy kind layers q given bufferLen timeout =
      if bad bufferLen (innerTimeout layers timeout) then
        (some failed, { q with lastErrno := errno })
      else if front bufferLen = [] ∧ timeout ≠ 0 then (none, q)
      else (some ⟨(front bufferLen).length, if given then front bufferLen else []⟩, q) := by
  induction layers generalizing timeout with
  | nil =>
    simp only [popDataDummy, views.look, innerTimeout]
    by_cases refused : bad bufferLen timeout
    · simp [refused, Ring.refuse, failed]
    · have now : timeout = 0 := by
        by_contra waits
        exact refused (views.timed _ _ waits)
      subst now
      simp [refused]
  | cons layer inner ih =>
    obtain ⟨up, inside⟩ := inited_cons.mp inited
    cases layer with
    | waitable flag =>
      obtain rfl : flag = true := up
      simp only [popDataDummy, ih inside, innerTimeout]
      by_cases refused : bad bufferLen 0
      · simp [refused, failed]
      · by_cases nothing : front bufferLen = []
        · by_cases now : timeout = 0 <;> simp [refused, nothing, now]
        · simp [refused, nothing]
    | multipopable flag mutex =>
      obtain rfl : flag = true := up
      simp only [popDataDummy, ih inside]
      rfl

/-- Where something is seen, a pop with a buffer for it gives the same, or it waits for a
semaphore. -/
theorem popData_found (views : Views kind q errno bad front) (inited : Inited layers)
    (now : innerTimeout layers timeout = 0) (fine : ¬ bad bufferLen 0)
    (some' : front bufferLen ≠ []) (fits : ((front bufferLen).length : Int) ≤ bufferLen) :
    (popData kind layers q given bufferLen timeout).1 =
        some ⟨(front bufferLen).length, if given then front bufferLen else []⟩ ∨
      (popData kind layers q given bufferLen timeout).1 = none ∧ Locked layers := by
  have long := List.length_pos_iff.mpr some'
  induction layers generalizing given bufferLen timeout with
  | nil =>
    obtain rfl : timeout = 0 := now
    exact .inl (congrArg some (views.pops given bufferLen fine (by omega) fits))
  | cons layer inner ih =>
    obtain ⟨up, inside⟩ := inited_cons.mp inited
    have seen (given : Bool) (layers : List Layer) (inited : Inited layers)
        (now : innerTimeout layers timeout = 0) :
        popDataDummy kind layers q given bufferLen timeout =
          (some ⟨(front bufferLen).length, if given then front bufferLen else []⟩, q) := by
      rw [popDataDummy_eq views inited, now, if_neg fine, if_neg (by simp [some'])]
    cases layer with
    | waitable flag =>
      obtain rfl : flag = true := up
      obtain ⟨fine', same⟩ := views.again bufferLen fine some'
      have deeper := @ih false (front bufferLen).length 0 inside (by simp) fine' (by rwa [same])
        (by rw [same]) (by rwa [same])
      simp only [popData, seen given _ inited now, Bool.not_true, Bool.false_eq_true, if_false]
      rw [if_pos (by omega)]
      rw [same] at deeper
      revert deeper
      cases popData kind inner q false (front bufferLen).length 0 with
      | mk reply q' =>
        rintro (answered | ⟨waits, inited', member⟩)
        · obtain rfl : reply = _ := answered
          exact .inl rfl
        · obtain rfl : reply = none := waits
          exact .inr ⟨rfl, inited', List.mem_cons_of_mem _ member⟩
    | multipopable flag mutex =>
      obtain rfl : flag = true := up
      simp only [popData, seen false inner inside now, Bool.not_true, Bool.false_eq_true,
        if_false]
      rw [if_pos (by omega)]
      by_cases held : mutex = 0
      · subst held
        exact .inr ⟨by simp, true, List.mem_cons_self⟩
      · rw [if_neg held]
        refine (ih inside (by simp) fine some' fits long).imp_right ?_
        rintro ⟨waits, inited', member⟩
        exact ⟨waits, inited', List.mem_cons_of_mem _ member⟩

/-- A look that fails or sees nothing is the same with and without a buffer. -/
theorem popDataDummy_unseen (views : Views kind q errno bad front) (inited : Inited layers)
    (unseen : bad bufferLen (innerTimeout layers timeout) ∨ front bufferLen = []) :
    ∃ reply q', (∀ given, popDataDummy kind layers q given bufferLen timeout = (reply, q')) ∧
      ∀ looked ∈ reply, looked.ret ≤ 0 := by
  by_cases refused : bad bufferLen (innerTimeout layers timeout)
  · refine ⟨some failed, { q with lastErrno := errno }, fun given => ?_, by simp [failed]⟩
    rw [popDataDummy_eq views inited, if_pos refused]
  have nothing := unseen.resolve_left refused
  by_cases waits : timeout ≠ 0
  · refine ⟨none, q, fun given => ?_, by simp⟩
    rw [popDataDummy_eq views inited, if_neg refused, if_pos ⟨nothing, waits⟩]
  · refine ⟨some ⟨0, []⟩, q, fun given => ?_, by simp⟩
    rw [popDataDummy_eq views inited, if_neg refused, if_neg (by simp [waits]), nothing]
    simp

/-- Where a look fails or sees nothing, a pop through decorators gives the same. -/
theorem popData_unseen (views : Views kind q errno bad front) (inited : Inited layers)
    (some' : layers ≠ [])
    (unseen : bad bufferLen (innerTimeout layers timeout) ∨ front bufferLen = []) :
    (popData kind layers q given bufferLen timeout).1 =
      (popDataDummy kind layers q given bufferLen timeout).1 := by
  cases layers with
  | nil => exact absurd rfl some'
  | cons layer inner =>
    obtain ⟨up, inside⟩ := inited_cons.mp inited
    cases layer with
    | waitable flag =>
      obtain rfl : flag = true := up
      obtain ⟨reply, q', looked, least⟩ := popDataDummy_unseen views inited unseen
      rw [popData, looked]
      cases reply with
      | none => rfl
      | some reply =>
        have least := least reply rfl
        simp only [Bool.not_true, Bool.false_eq_true, if_false]
        rw [if_neg (by omega)]
    | multipopable flag mutex =>
      obtain rfl : flag = true := up
      obtain ⟨reply, q', looked, least⟩ := popDataDummy_unseen views inside unseen
      simp only [popData, popDataDummy, looked, Bool.not_true, Bool.false_eq_true, if_false]
      cases reply with
      | none => rfl
      | some reply =>
        have least := least reply rfl
        dsimp only
        rw [if_neg (by omega)]

theorem popData_of_not_inited (out : ¬ Inited layers) :
    popData kind layers q given bufferLen timeout = (some failed, q) := by
  cases layers with
  | nil => exact absurd (by simp [Inited]) out
  | cons layer inner =>
    cases layer with
    | waitable inited =>
      cases inited with
      | false => rfl
      | true => simp [popData, popDataDummy_of_not_inited out, failed]
    | multipopable inited mutex =>
      cases inited with
      | false => rfl
      | true =>
        have inside : ¬ Inited inner := fun all => out (inited_cons.mpr ⟨rfl, all⟩)
        simp [popData, popDataDummy_of_not_inited inside, failed]

end Layers

/-! ## Looks and pops -/

/-- What a look should do: it gives no more bytes than the buffer has, it changes at most the
error number, and a pop of the same queue gives the same reply, unless it has to wait for a
semaphore first. -/
structure LooksRight (kind : Kind) (layers : List Layer) (q : Ring) (given : Bool)
    (bufferLen timeout : Int) : Prop where
  bounded : ∀ looked ∈ (Layers.popDataDummy kind layers q given bufferLen timeout).1,
    looked.ret.toNat ≤ bufferLen.toNat ∧ looked.data.length ≤ bufferLen.toNat
  unchanged : q.Same (Layers.popDataDummy kind layers q given bufferLen timeout).2
  agrees : (Layers.popData kind layers q given bufferLen timeout).1 =
      (Layers.popDataDummy kind layers q given bufferLen timeout).1 ∨
    (Layers.popData kind layers q given bufferLen timeout).1 = none ∧ Layers.Locked layers

section Looks

variable {kind : Kind} {q : Ring} {errno : Errno} {bad : Int → Int → Prop}
  [∀ bufferLen timeout, Decidable (bad bufferLen timeout)] {front : Int → List UInt8}
  {layers : List Layer} {given : Bool} {bufferLen timeout : Int}

theorem looksRight_of_not_inited (out : ¬ Layers.Inited layers) :
    LooksRight kind layers q given bufferLen timeout := by
  have looked : Layers.popDataDummy kind layers q given bufferLen timeout = (some failed, q) :=
    Layers.popDataDummy_of_not_inited out
  refine ⟨?_, ?_, .inl ?_⟩
  · rw [looked]
    simp [failed]
  · rw [looked]
    exact .refl q
  · rw [looked, Layers.popData_of_not_inited out]

/-- A look is right unless it sees more than the buffer takes. -/
theorem Views.looksRight_iff (views : Views kind q errno bad front) :
    LooksRight kind layers q given bufferLen timeout ↔
      (Layers.Inited layers → ¬ bad bufferLen (Layers.innerTimeout layers timeout) →
        (front bufferLen).length ≤ bufferLen.toNat ∧ (layers = [] → 1 ≤ bufferLen)) := by
  by_cases inited : Layers.Inited layers
  swap
  · exact iff_of_true (looksRight_of_not_inited inited) fun set => absurd set inited
  have look : Layers.popDataDummy kind layers q given bufferLen timeout = _ :=
    Layers.popDataDummy_eq views inited
  by_cases refused : bad bufferLen (Layers.innerTimeout layers timeout)
  · refine iff_of_true ⟨?_, ?_, .inl ?_⟩ fun _ fine => absurd refused fine
    · rw [look, if_pos refused]
      simp [failed]
    · rw [look, if_pos refused]
      exact ⟨errno, rfl⟩
    · by_cases bare : layers = []
      · subst bare
        rw [look, if_pos refused]
        exact congrArg some (views.refuses given bufferLen timeout (.inl refused))
      · exact Layers.popData_unseen views inited bare (.inl refused)
  rw [if_neg refused] at look
  have now : Layers.innerTimeout layers timeout = 0 := by
    by_contra waits
    exact refused (views.timed _ _ waits)
  rw [now] at refused
  have seen : (front bufferLen).length ≤ bufferLen.toNat →
      ∀ looked ∈ (Layers.popDataDummy kind layers q given bufferLen timeout).1,
        looked.ret.toNat ≤ bufferLen.toNat ∧ looked.data.length ≤ bufferLen.toNat := by
    intro fits looked member
    rw [look] at member
    split at member
    · cases member
    · cases member
      cases given <;> simp [fits]
  have kept : q.Same (Layers.popDataDummy kind layers q given bufferLen timeout).2 := by
    rw [look]
    split <;> exact .refl q
  by_cases nothing : front bufferLen = []
  · have fits : (front bufferLen).length ≤ bufferLen.toNat := by simp [nothing]
    by_cases bare : layers = []
    · subst bare
      obtain rfl : timeout = 0 := now
      constructor
      · intro right _ _
        by_contra short
        have popped := views.refuses given bufferLen 0 (.inr (by omega))
        rcases right.agrees with same | ⟨waits, -⟩
        · rw [look, if_neg (by simp), nothing] at same
          exact absurd (popped.symm.trans (Option.some.inj same)) (by simp [failed])
        · cases waits
      · intro right
        refine ⟨seen fits, kept, .inl ?_⟩
        have positive := (right (by simp [Layers.Inited]) refused).2 rfl
        rw [look, if_neg (by simp)]
        exact congrArg some (views.pops given bufferLen refused positive (by simp [nothing]; omega))
    · exact iff_of_true
        ⟨seen fits, kept, .inl (Layers.popData_unseen views inited bare (.inr nothing))⟩
        fun _ _ => ⟨fits, fun none => absurd none bare⟩
  · have long := List.length_pos_iff.mpr nothing
    rw [if_neg (by simp [nothing])] at look
    constructor
    · intro right _ _
      have bounded := right.bounded _ (by rw [look]; rfl)
      have fits : (front bufferLen).length ≤ bufferLen.toNat := by simpa using bounded.1
      exact ⟨fits, fun _ => by omega⟩
    · intro right
      have fits := (right inited (now ▸ refused)).1
      refine ⟨seen fits, kept, ?_⟩
      rw [look]
      exact Layers.popData_found views inited now refused nothing (by omega)

end Looks

section States

variable {q : Ring} {capacity : Nat} {items : List UInt8} {messages : List (List UInt8)}
  {mLen : Int}

/-- A queue that is not set up fails every look. -/
theorem views_of_not_inited (kind : Kind) (out : q.inited = false) :
    Views kind q .notInit (fun _ _ => True) fun _ => [] := by
  constructor
  case look =>
    cases kind <;>
      simp [Kind.popDataDummy, Ring.popDataDummy, FixedQueue.popDataDummy,
        VariableQueue.popDataDummy, out]
  case timed => exact fun _ _ _ => trivial
  case again => exact fun _ fine => absurd trivial fine
  case refuses =>
    cases kind <;>
      simp [Kind.popData, Ring.popData, FixedQueue.popData, VariableQueue.popData, out, Ring.refuse,
        failed]
  case pops => exact fun _ _ fine => absurd trivial fine

/-- A byte ring gives what it holds, up to the length of the buffer. -/
theorem Ring.Holds.views (holds : q.Holds capacity items) :
    Views .ringQueue q .param (fun bufferLen timeout => bufferLen < 1 ∨ timeout ≠ 0)
      fun bufferLen => items.take bufferLen.toNat := by
  constructor
  case look =>
    intro given bufferLen timeout
    split
    case isTrue refused => exact holds.popDataDummy_param given refused
    case isFalse fine =>
      obtain rfl : timeout = 0 := by
        by_contra waits
        exact fine (.inr waits)
      exact holds.popDataDummy given (by omega)
  case timed => exact fun _ _ => .inr
  case again =>
    intro bufferLen _ some'
    have long := List.length_pos_iff.mpr some'
    refine ⟨by omega, ?_⟩
    rw [Int.toNat_natCast, List.length_take, ← List.take_eq_take_min]
  case refuses =>
    intro given bufferLen timeout refused
    dsimp only [Kind.popData]
    rw [holds.popData_param given (by tauto)]
    rfl
  case pops =>
    intro given bufferLen _ positive _
    dsimp only [Kind.popData]
    rw [holds.popData given positive]

/-- A fixed queue gives a record, which the buffer takes. -/
theorem HoldsRecords.views (records : HoldsRecords mLen capacity q items) (positive : 0 < mLen) :
    Views (.fixedQueue mLen) q .param (fun bufferLen timeout => bufferLen < mLen ∨ timeout ≠ 0)
      fun _ => items.take mLen.toNat := by
  obtain ⟨holds, whole⟩ := records
  constructor
  case look =>
    intro given bufferLen timeout
    dsimp only [Kind.popDataDummy]
    rw [FixedQueue.popDataDummy_eq holds.inited]
    by_cases short : bufferLen < mLen
    · rw [if_pos short, if_pos (.inl short)]
    · have looked : q.popDataDummy given mLen timeout = _ := holds.views.look given mLen timeout
      have some' : ¬ mLen < 1 := by omega
      rw [if_neg short, looked]
      simp only [short, some']
  case timed => exact fun _ _ => .inr
  case again =>
    intro bufferLen _ some'
    have long := List.length_pos_iff.mpr some'
    have enough : mLen ≤ items.length := by
      rw [List.length_take] at long
      exact Int.le_of_dvd (by omega) whole
    refine ⟨?_, rfl⟩
    rw [List.length_take]
    omega
  case refuses =>
    intro given bufferLen timeout refused
    dsimp only [Kind.popData]
    rw [FixedQueue.popData_eq holds.inited]
    by_cases short : bufferLen < mLen
    · rw [if_pos short]
      rfl
    · rw [if_neg short, holds.popData_param given (.inr (by omega))]
      rfl
  case pops =>
    intro given bufferLen fine _ _
    dsimp only [Kind.popData]
    rw [FixedQueue.popData_eq holds.inited, if_neg (by tauto), holds.popData given (by omega)]

/-- A variable queue gives its oldest message, whatever the length of the buffer. -/
theorem HoldsMessages.views (queue : HoldsMessages mLen capacity q messages) (positive : 0 < mLen) :
    Views (.variableQueue mLen) q .param (fun _ timeout => timeout ≠ 0)
      fun _ => messages.head?.getD [] := by
  constructor
  case look =>
    intro given bufferLen timeout
    dsimp only [Kind.popDataDummy]
    by_cases waits : timeout ≠ 0
    · rw [if_pos waits, queue.popDataDummy_param given waits]
    obtain rfl : timeout = 0 := not_not.mp waits
    cases messages with
    | nil => simpa using queue.popDataDummy_nil positive given
    | cons message rest => exact queue.popDataDummy_cons positive given
  case timed => exact fun _ _ => id
  case again => exact fun _ _ _ => ⟨by simp, rfl⟩
  case refuses =>
    intro given bufferLen timeout refused
    dsimp only [Kind.popData]
    rw [queue.popData_param given refused.symm]
    rfl
  case pops =>
    intro given bufferLen _ some' fits
    dsimp only [Kind.popData]
    cases messages with
    | nil =>
      rw [queue.popData_nil positive given some']
      simp
    | cons message rest =>
      rw [queue.popData_cons positive given some', if_neg (by simpa using fits)]
      rfl

end States

/-! ## Runs -/

/-- The states of a queue: it is not set up, or calls have been made since it was. -/
def Kind.Reached (kind : Kind) (q : Ring) (messages : List (List UInt8)) : Prop :=
  q.inited = false ∧ messages = [] ∨
    ∃ bufferLen mmap calls, (kind.init Ring.new bufferLen mmap).1 = 0 ∧
      (∀ call ∈ calls, call.Backed) ∧
      q = after kind.step (kind.init Ring.new bufferLen mmap).2 calls ∧
      messages = kind.messages bufferLen.toNat calls

/-- The buffer is long enough for a look at a variable queue, where the look does not fail. -/
def Kind.Fits (kind : Kind) (q : Ring) (messages : List (List UInt8)) (layers : List Layer)
    (bufferLen timeout : Int) : Prop :=
  match kind with
  | .variableQueue _ =>
    q.inited = true → Layers.Inited layers → Layers.innerTimeout layers timeout = 0 →
      (∀ message ∈ messages.head?, message.length ≤ bufferLen.toNat) ∧
        (layers = [] → 1 ≤ bufferLen)
  | _ => True

/-- For a queue of every class in every state, through any decorators: `pop_data_dummy` keeps to
the buffer and agrees with `pop_data` exactly when the queue is no variable queue, or the buffer
takes its oldest message (without a decorator: and has a length). -/
theorem popDataDummy_looksRight_iff {kind : Kind} {q : Ring} {messages : List (List UInt8)}
    (reached : kind.Reached q messages) (layers : List Layer) (given : Bool)
    (bufferLen timeout : Int) :
    LooksRight kind layers q given bufferLen timeout ↔
      kind.Fits q messages layers bufferLen timeout := by
  rcases reached with ⟨out, -⟩ | ⟨length, mmap, calls, done, backed, rfl, rfl⟩
  · have right : LooksRight kind layers q given bufferLen timeout :=
      (views_of_not_inited kind out).looksRight_iff.mpr fun _ fine => absurd trivial fine
    refine iff_of_true right ?_
    cases kind <;> simp [Kind.Fits, out]
  cases kind with
  | ringQueue =>
    obtain ⟨-, initial⟩ := Ring.Holds.init rfl done
    have holds := (Ring.simulates_fifo length.toNat).after initial backed
    refine iff_of_true (holds.views.looksRight_iff.mpr fun _ fine => ⟨?_, fun _ => ?_⟩) trivial
    · exact List.length_take_le _ _
    · omega
  | fixedQueue mLen =>
    obtain ⟨positive, initial⟩ := fixed_init done
    have records := (fixed_simulates_records positive length.toNat).after initial backed
    have views := records.views positive
    refine iff_of_true (views.looksRight_iff.mpr fun _ fine => ⟨?_, fun _ => ?_⟩) trivial
    · exact (List.length_take_le _ _).trans (by omega)
    · omega
  | variableQueue mLen =>
    obtain ⟨positive, initial⟩ := variable_init done
    have queue := (variable_simulates_messages positive length.toNat).after initial backed
    rw [(queue.views positive).looksRight_iff]
    dsimp only [Kind.Fits, Kind.messages]
    simp only [not_not, queue.holds.inited, true_imp_iff]
    cases after (Messages.step mLen length.toNat) [] calls <;> simp

theorem oneMessage_reached : (Kind.variableQueue 2).Reached oneMessage [[3, 0, 7]] :=
  .inr ⟨8, .mapped, [.pushData (some [3, 0, 7]) 3 true], by decide, by simp [Call.Backed], rfl,
    by decide⟩

theorem popDataDummy_looksRight_iff_oneMessage :
    LooksRight (.variableQueue 2) [.waitable true] oneMessage true 3 0 ∧
      ¬ LooksRight (.variableQueue 2) [.waitable true] oneMessage true 2 0 := by
  constructor
  · exact (popDataDummy_looksRight_iff oneMessage_reached _ _ _ _).mpr
      fun _ _ _ => ⟨by simp, by simp⟩
  · intro right
    have fits := (popDataDummy_looksRight_iff oneMessage_reached _ _ _ _).mp right
    exact absurd ((fits rfl (by simp [Layers.Inited, Layer.inited]) rfl).1 _ rfl) (by decide)

/-- A look at a variable queue copies three bytes to a buffer of two, and the pop refuses. -/
theorem look_overruns :
    ¬ ∀ kind q messages, Kind.Reached kind q messages → ∀ layers given bufferLen timeout,
      LooksRight kind layers q given bufferLen timeout := by
  intro all
  have right := all _ _ _ oneMessage_reached [] true 2 0
  have look : (Layers.popDataDummy (.variableQueue 2) [] oneMessage true 2 0).1 =
      some ⟨3, [3, 0, 7]⟩ := by decide +kernel
  exact absurd (right.bounded _ look).1 (by decide)

end Taomee.RingQueue
