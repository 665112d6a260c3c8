import Mathlib.Algebra.Order.Ring.Int
import Mathlib.Data.List.Range

/-!
# gamesvr: the timers

A timer is a record at an address; the lists hold addresses in order. `H` are the heads of the
lists that owners keep of their timers, `F` the callback functions. A `time_t` is an integer;
only `add_timer` takes a difference as an `int`.
-/

namespace Taomee.Timer

abbrev Addr := Nat

/-- What happened, for the statements only. An arming is the number of an `add_timer` or a
`do_mod_expire_time`. -/
inductive Act where
  | armed (arming : Nat) (expire : Int)
  | disarmed (arming : Nat)
  | fired (arming : Nat) (now ret : Int)
  | freed (arming : Nat)
  | scanned (now : Int)
  deriving DecidableEq

/-- `function` is `none` for a timer that is to be deleted; `spriteList` is the head of the
owner's list that the timer is on. -/
structure TimerStruct (H F : Type*) where
  id : Nat
  expire : Int
  owner : Nat
  data : Nat
  function : Option F
  spriteList : Option H
  arming : Nat

/-- `level` and `minExptm` are the heads and the cached times of `vec`. -/
structure Timers (H F : Type*) where
  now : Int
  baseid : Nat
  table : Addr → Option (TimerStruct H F)
  level : Nat → List Addr
  minExptm : Nat → Int
  sprites : H → List Addr
  armings : Nat
  trace : List Act

/-- After `setup_timer`. -/
def setup (H F : Type*) (now : Int) : Timers H F where
  now := now
  baseid := 0
  table := fun _ => none
  level := fun _ => []
  minExptm := fun _ => 0
  sprites := fun _ => []
  armings := 0
  trace := []

def timerVecSize : Nat := 5

def vecExpire (i : Nat) : Int := 2 ^ (i + 2)

/-- The conversion of a `time_t` to `int`. -/
def int (n : Int) : Int := n.bmod (2 ^ 32)

/-- The first level that holds timers so far away, or the last level. -/
def levelFor (diff : Int) : Nat :=
  ((List.range (timerVecSize - 1)).find? fun i => diff ≤ vecExpire i).getD (timerVecSize - 1)

def findMinIdx (diff : Int) : Nat → Nat
  | 0 => 0
  | maxIdx + 1 => if diff ≤ vecExpire maxIdx then findMinIdx diff maxIdx else maxIdx + 1

namespace Timers

variable {H F : Type*} [DecidableEq H] [DecidableEq F]

def log (s : Timers H F) (act : Act) : Timers H F := { s with trace := act :: s.trace }

def setMinExptm (s : Timers H F) (exptm : Int) (idx : Nat) : Timers H F :=
  if exptm < s.minExptm idx ∨ s.minExptm idx = 0 then
    { s with minExptm := Function.update s.minExptm idx exptm }
  else s

/-- `list_add_tail` to a level, with its cached time. -/
def enter (s : Timers H F) (a : Addr) (expire : Int) (i : Nat) : Timers H F :=
  { s with level := Function.update s.level i (s.level i ++ [a]) }.setMinExptm expire i

/-- `list_del` of an entry from the level it is on. -/
def leave (s : Timers H F) (a : Addr) : Timers H F :=
  { s with level := fun i => (s.level i).erase a }

/-- The memory for the timer is at `a`. -/
def addTimerEvent (s : Timers H F) (l : H) (func : F) (owner data : Nat) (expire : Int)
    (a : Addr) : Timers H F :=
  let id := (s.baseid + 1) % 2 ^ 32
  let id := if id = 0 then (id + 1) % 2 ^ 32 else id
  let timer : TimerStruct H F :=
    { id, expire, owner, data, function := some func, spriteList := some l, arming := s.armings }
  { s with
    baseid := id
    table := Function.update s.table a (some timer)
    sprites := Function.update s.sprites l (s.sprites l ++ [a])
    armings := s.armings + 1
    trace := .armed s.armings expire :: s.trace }.enter a expire (levelFor (int (expire - s.now)))

def doModExpireTime (s : Timers H F) (a : Addr) (expire : Int) : Timers H F :=
  match s.table a with
  | none => s
  | some t =>
    ({ s with
      table := Function.update s.table a (some { t with expire, arming := s.armings })
      armings := s.armings + 1
      trace := .armed s.armings expire :: .disarmed t.arming :: s.trace }.leave a).enter a expire
      (levelFor (expire - s.now))

def doRemoveTimer (s : Timers H F) (a : Addr) (freed : Bool) : Timers H F :=
  match s.table a with
  | none => s
  | some t =>
    let sprites :=
      match t.spriteList with
      | none => s.sprites
      | some l => Function.update s.sprites l ((s.sprites l).erase a)
    if freed then
      { s.leave a with
        sprites
        table := Function.update s.table a none
        trace := if t.function.isSome then .freed t.arming :: s.trace else s.trace }
    else
      { s with
        sprites
        table := Function.update s.table a (some { t with function := none, spriteList := none })
        trace := .disarmed t.arming :: s.trace }

/-- The first timer on an owner's list with a property. -/
def findOn (s : Timers H F) (l : H) (p : TimerStruct H F → Bool) : Option Addr :=
  (s.sprites l).find? fun a => (s.table a).any p

inductive TimerOp where
  | replaceUnconditionally
  | replaceEarlierTimer
  | replaceLaterTimer

/-- Whether `op_timer_event` replaces a time. -/
def TimerOp.replaces (flag : TimerOp) (old expire : Int) : Bool :=
  match flag with
  | .replaceUnconditionally => true
  | .replaceLaterTimer => expire < old
  | .replaceEarlierTimer => old < expire

/-- A call of the interface. -/
inductive Call (H F : Type*) where
  | addTimerEvent (l : H) (func : F) (owner data : Nat) (expire : Int) (a : Addr)
  | opTimerEvent (l : H) (func : F) (expire : Int) (flag : TimerOp)
  | modExpireTime (head : H) (tid : Nat) (exptm : Int)
  | removeTimer (head : H) (tid : Nat)

/-- The timer that a call gives another time. -/
def rearms (s : Timers H F) : Call H F → Option Addr
  | .addTimerEvent .. => none
  | .opTimerEvent l func expire flag =>
    (s.findOn l fun t => t.function = some func).filter fun a =>
      (s.table a).any fun t => flag.replaces t.expire expire
  | .modExpireTime head tid _ => s.findOn head fun t => t.id = tid
  | .removeTimer .. => none

def call (s : Timers H F) : Call H F → Timers H F
  | .addTimerEvent l func owner data expire a => s.addTimerEvent l func owner data expire a
  | .opTimerEvent l func expire flag =>
    match s.rearms (.opTimerEvent l func expire flag) with
    | none => s
    | some a => s.doModExpireTime a expire
  | .modExpireTime head tid exptm =>
    match s.rearms (.modExpireTime head tid exptm) with
    | none => s
    | some a => s.doModExpireTime a exptm
  | .removeTimer head tid =>
    match s.findOn head fun t => t.id = tid with
    | none => s
    | some a => s.doRemoveTimer a false

/-! ## The scan -/

/-- What a callback does: calls of the interface, and its result. -/
structure Outcome (H F : Type*) where
  calls : List (Call H F)
  ret : Int

/-- Where a pointer of the scan points: the head of a level or a timer. -/
inductive Cursor where
  | head (i : Nat)
  | node (a : Addr)
  deriving DecidableEq

/-- `next` of a list entry; an entry on no list has none, and stays. -/
def next (s : Timers H F) : Cursor → Cursor
  | .head i => ((s.level i).head?.map .node).getD (.head i)
  | .node a =>
    match (List.range timerVecSize).find? fun i => a ∈ s.level i with
    | none => .node a
    | some i => ((((s.level i).dropWhile (· ≠ a)).tail).head?.map .node).getD (.head i)

/-- The scan of the first level under way: `cur` and the saved `nxt`, and how many callbacks have
been called. -/
structure Walk (H F : Type*) where
  s : Timers H F
  cur : Cursor
  nxt : Cursor
  calls : Nat

/-- The body of the loop, at the timer `t` at `a`. -/
def visit (out : Nat → Outcome H F) (s : Timers H F) (calls : Nat) (a : Addr)
    (t : TimerStruct H F) : Timers H F × Nat :=
  if t.function = none then (s.doRemoveTimer a true, calls)
  else if t.expire ≤ s.now then
    let s := (out calls).calls.foldl call (s.log (.fired t.arming s.now (out calls).ret))
    (if (out calls).ret = 0 then s.doRemoveTimer a true else s, calls + 1)
  else (s, calls)

/-- A turn of the loop. It stands still at a head, and at an address that holds no timer. -/
def Walk.step (out : Nat → Outcome H F) (w : Walk H F) : Walk H F :=
  match w.cur with
  | .head _ => w
  | .node a =>
    match w.s.table a with
    | none => w
    | some t =>
      let (s, calls) := visit out w.s w.calls a t
      { s, cur := w.nxt, nxt := s.next w.nxt, calls }

def startWalk (s : Timers H F) : Walk H F :=
  let first := s.next (.head 0)
  { s, cur := first, nxt := s.next first, calls := 0 }

/-- The first loop of a scan after so many turns. -/
def walk (s : Timers H F) (out : Nat → Outcome H F) (turns : Nat) : Walk H F :=
  (Walk.step out)^[turns] s.startWalk

/-- The body of the loop of `scan_timer_list`, with the least time so far. -/
def scanTimer (idx : Nat) (found : Int × Timers H F) (a : Addr) : Int × Timers H F :=
  let (minExptm, s) := found
  match s.table a with
  | none => found
  | some t =>
    if t.function.isSome then
      let i := findMinIdx (t.expire - s.now) idx
      if i ≠ idx then (minExptm, (s.leave a).enter a t.expire i)
      else if t.expire < minExptm ∨ minExptm = 0 then (t.expire, s)
      else found
    else (minExptm, s.doRemoveTimer a true)

def scanTimerList (s : Timers H F) (idx : Nat) : Timers H F :=
  let (minExptm, s) := (s.level idx).foldl (scanTimer idx) (0, s)
  { s with minExptm := Function.update s.minExptm idx minExptm }

/-- The second loop of `scan_seconds_timer`. -/
def scanLevels (s : Timers H F) : Timers H F :=
  [1, 2, 3, 4].foldl
    (fun s i => if s.minExptm i - s.now < 2 then s.scanTimerList i else s) s

/-- A scan whose first loop comes back to the head of the first level within some turns. -/
def scanSecondsTimer (out : Nat → Outcome H F) (turns : Nat) (s : Timers H F) :
    Option (Timers H F) :=
  let w := s.walk out turns
  if w.cur = .head 0 then
    let s := w.s.scanLevels
    some (s.log (.scanned s.now))
  else none

end Timers

end Taomee.Timer
