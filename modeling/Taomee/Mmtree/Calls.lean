import Taomee.Mmtree.Operations

/-!
# Sequences of calls

The public calls of `c_mmtree` as data, runs of them, and the finite map they
implement. Every call comes with whether `mmap` would succeed during it.
-/

namespace Taomee.Mmtree

open RBTree RBTree.RBNode RBTree.RBColor RedBlack

/-- A public call. -/
inductive Call where
  | insert (key : Int) (data : Int32)
  | update (key : Int) (data : Int32) (op : Int)
  | set (key : Int) (data : Int32) (op : Int)
  | get (key : Int)
  | find (key : Int)
  | remove (key : Int)
  deriving DecidableEq

/-- The return value of a call and what it stores through its out pointer. -/
structure Reply where
  ret : Int
  out : Option Int32
  deriving DecidableEq

namespace CMmtree

/-- One call of the object. -/
def call (mmapOk : Bool) (t : CMmtree) : Call → Option (CMmtree × Reply)
  | .insert key data => (t.insert mmapOk key data).map fun (t, ret) => (t, ⟨ret, none⟩)
  | .update key data op => (t.update key data op).map fun (t, ret) => (t, ⟨ret, none⟩)
  | .set key data op => (t.set mmapOk key data op).map fun (t, ret) => (t, ⟨ret, none⟩)
  | .get key => (t.get key).map fun (t, ret, out) => (t, ⟨ret, out⟩)
  | .find key => (t.find key).map fun (t, ret) => (t, ⟨ret, none⟩)
  | .remove key => (t.remove key).map fun (t, ret) => (t, ⟨ret, none⟩)

/-- A sequence of calls and its replies. -/
def run (t : CMmtree) : List (Call × Bool) → Option (CMmtree × List Reply)
  | [] => some (t, [])
  | (call, mmapOk) :: rest =>
    match t.call mmapOk call with
    | none => none
    | some (t, reply) =>
      match t.run rest with
      | none => none
      | some (t, replies) => some (t, reply :: replies)

/-- Whether a call reaches the division of `update_node_value` with operands on which it traps. -/
def traps (t : CMmtree) : Call → Bool
  | .update key data op | .set key data op =>
    match t.search key with
    | some (.found id) => t.inited && t.mapped && divTraps op (t.map id).data data
    | _ => false
  | _ => false

/-- One call in a process that a trapping division kills. -/
def exec (mmapOk : Bool) (t : CMmtree) (call : Call) : Option (CMmtree × Reply) :=
  if t.traps call then none else t.call mmapOk call

/-- A sequence of calls in such a process, with the replies. -/
def execAll (t : CMmtree) : List (Call × Bool) → Option (CMmtree × List Reply)
  | [] => some (t, [])
  | (call, mmapOk) :: rest => do
    let (t, reply) ← t.exec mmapOk call
    let (t, replies) ← t.execAll rest
    some (t, reply :: replies)

/-- The nodes below a slot, as a tree. -/
def readTree (m : NodeMap) : Nat → Nat → RBNode Slot
  | 0, _ => .nil
  | fuel + 1, id =>
    if id = 0 then .nil
    else .node (m id).color (readTree m fuel (m id).left) ⟨id, (m id).key, (m id).data⟩
      (readTree m fuel (m id).right)

/-- The tree the array encodes. -/
def tree (t : CMmtree) : RBNode Slot := readTree t.map t.state.total t.state.rootId

end CMmtree

/-- Every call of a run meets a condition in the state in which it is made. -/
def Throughout (condition : CMmtree → Call × Bool → Prop) :
    CMmtree → List (Call × Bool) → Prop
  | _, [] => True
  | t, step :: rest =>
    condition t step ∧
      match t.call step.2 step.1 with
      | none => True
      | some (t', _) => Throughout condition t' rest

instance decidableThroughout (condition : CMmtree → Call × Bool → Prop)
    [∀ t step, Decidable (condition t step)] :
    ∀ t calls, Decidable (Throughout condition t calls)
  | _, [] => .isTrue trivial
  | t, step :: rest =>
    haveI : Decidable (match t.call step.2 step.1 with
        | none => True
        | some (t', _) => Throughout condition t' rest) :=
      match t.call step.2 step.1 with
      | none => .isTrue trivial
      | some (t', _) => decidableThroughout condition t' rest
    inferInstanceAs (Decidable (condition t step ∧ _))

theorem Throughout.mono {condition weaker : CMmtree → Call × Bool → Prop}
    (weakens : ∀ t step, condition t step → weaker t step) {t : CMmtree}
    {calls : List (Call × Bool)} (throughout : Throughout condition t calls) :
    Throughout weaker t calls := by
  induction calls generalizing t with
  | nil => trivial
  | cons step rest ih =>
    obtain ⟨holds, later⟩ := throughout
    refine ⟨weakens t step holds, ?_⟩
    cases called : t.call step.2 step.1 with
    | none => trivial
    | some result =>
      rw [called] at later
      exact ih later

/-- Where no division traps the call returns. -/
theorem CMmtree.exec_of_not_traps {t : CMmtree} {call : Call} (mmapOk : Bool)
    (safe : t.traps call = false) : t.exec mmapOk call = t.call mmapOk call := by
  rw [CMmtree.exec, safe, if_neg Bool.false_ne_true]

/-- Without a trapping division the process lives through the run. -/
theorem CMmtree.execAll_eq_run {t : CMmtree} {calls : List (Call × Bool)}
    (safe : Throughout (fun t step => t.traps step.1 = false) t calls) :
    t.execAll calls = t.run calls := by
  induction calls generalizing t with
  | nil => rfl
  | cons step rest ih =>
    obtain ⟨here, later⟩ := safe
    rw [CMmtree.execAll, CMmtree.run, CMmtree.exec_of_not_traps step.2 here]
    cases called : t.call step.2 step.1 with
    | none => rfl
    | some result =>
      rw [called] at later
      simp only [Option.bind_eq_bind, Option.bind_some, ih later]
      cases result.1.run rest <;> rfl

/-- A condition that makes every call succeed and keep an invariant makes every run
succeed and keep it. -/
theorem run_invariant (condition : CMmtree → Call × Bool → Prop) (Inv : CMmtree → Prop)
    (preserved : ∀ t step, Inv t → condition t step →
      ∃ t' reply, t.call step.2 step.1 = some (t', reply) ∧ Inv t')
    {t : CMmtree} {calls : List (Call × Bool)} (start : Inv t)
    (throughout : Throughout condition t calls) :
    ∃ t' replies, t.run calls = some (t', replies) ∧ Inv t' := by
  induction calls generalizing t with
  | nil => exact ⟨t, [], rfl, start⟩
  | cons step rest ih =>
    obtain ⟨holds, later⟩ := throughout
    obtain ⟨t₁, reply, called, kept⟩ := preserved t step start holds
    rw [called] at later
    obtain ⟨t₂, replies, ran, keptAfter⟩ := ih kept later
    exact ⟨t₂, reply :: replies, by simp [CMmtree.run, called, ran], keptAfter⟩

/-- With enough fuel the tree is read as it lies. -/
theorem readTree_of_layout {m : NodeMap} {parent fuel : Nat} {tree : RBNode Slot}
    (layout : Layout m parent tree) (enough : (ids tree).length < fuel) :
    CMmtree.readTree m fuel (rootId tree) = tree := by
  obtain ⟨fuel, rfl⟩ : ∃ n, fuel = n + 1 := ⟨fuel - 1, by omega⟩
  induction tree generalizing parent fuel with
  | nil => simp [CMmtree.readTree]
  | node c l s r leftHyp rightHyp =>
    obtain ⟨positive, here, left, right⟩ := layout
    simp only [ids_node, List.length_append, List.length_cons] at enough
    obtain ⟨fuel, rfl⟩ : ∃ n, fuel = n + 1 := ⟨fuel - 1, by omega⟩
    rw [CMmtree.readTree, rootId_node, if_neg positive.ne', here]
    simp only [cell, leftHyp left fuel (by omega), rightHyp right fuel (by omega)]

/-- Reading the array back gives the tree it stores. -/
theorem WellFormed.tree_eq {t : CMmtree} {tree : RBNode Slot} {queue : List Nat}
    (wf : WellFormed t tree queue) : t.tree = tree := by
  have enough := wf.length_frames_lt [] rfl
  rw [CMmtree.tree, wf.stored.rootEq]
  exact readTree_of_layout wf.stored.layout (by simpa using enough)

/-! ## Conditions on a call -/

/-- Whether a call puts a new key into the tree. -/
def Call.adds (t : CMmtree) : Call → Bool
  | .insert key _ | .set key _ _ =>
    match t.search key with
    | some (.missing _) => true
    | _ => false
  | _ => false

/-- The slot an added key takes: the first key of an empty tree never reuses one. -/
def CMmtree.nextSlot (t : CMmtree) : Nat :=
  if t.state.rootId ≠ 0 ∧ 0 < t.state.qleft then t.state.qfirst else t.state.current + 1

/-- How many slots are mapped when an added key takes its slot. An empty tree is not
grown, and a failed mapping leaves none. -/
def CMmtree.capacity (mmapOk : Bool) (t : CMmtree) : Nat :=
  if t.state.rootId ≠ 0 ∧ t.state.left = 0 then
    if mmapOk then t.state.total + t.incrementNum else 0
  else t.state.total

/-- The slot that a call needs, if any, is one of `1 .. total - 1`, and `total` is
an `int`. -/
def Call.InRange (t : CMmtree) (mmapOk : Bool) (call : Call) : Prop :=
  call.adds t = true → t.nextSlot < t.capacity mmapOk ∧ t.capacity mmapOk < 2 ^ 31

instance (t : CMmtree) (mmapOk : Bool) (call : Call) : Decidable (call.InRange t mmapOk) :=
  inferInstanceAs (Decidable (_ → _))

/-- The slot of a call that fills an empty tree was never used before. -/
def Call.RootFits (t : CMmtree) (call : Call) : Prop :=
  call.adds t = true → t.state.rootId = 0 → t.state.current + 1 < t.state.total

/-- The slot a call needs is mapped and `total` stays an `int`, or the call fails for
want of a mapping. -/
def Call.SlotFits (t : CMmtree) (mmapOk : Bool) (call : Call) : Prop :=
  call.RootFits t ∧
    (call.adds t = true → t.state.rootId ≠ 0 → t.state.left = 0 → mmapOk = true →
      t.state.total + t.incrementNum < 2 ^ 31)

instance (t : CMmtree) (call : Call) : Decidable (call.RootFits t) :=
  inferInstanceAs (Decidable (_ → _))

instance (t : CMmtree) (mmapOk : Bool) (call : Call) : Decidable (call.SlotFits t mmapOk) :=
  inferInstanceAs (Decidable (_ ∧ _))

/-! ## The finite map -/

/-- The map from `int` keys to `int` data that the object stands for. -/
abbrev Contents := Finmap fun _ : Int => Int32

/-- The arithmetic of `update`, on integers and reduced to 32 bits at the end;
`none` is a rejected operation. -/
def combine (op : Int) (old data : Int32) : Option Int32 :=
  if op = MMT_OP_ADD then some (Int32.ofInt (old.toInt + data.toInt))
  else if op = MMT_OP_SUB then some (Int32.ofInt (old.toInt - data.toInt))
  else if op = MMT_OP_MUL then some (Int32.ofInt (old.toInt * data.toInt))
  else if op = MMT_OP_DIV then
    if data.toInt = 0 then none else some (Int32.ofInt (old.toInt.tdiv data.toInt))
  else if op = MMT_OP_MAX then some (Int32.ofInt (max old.toInt data.toInt))
  else if op = MMT_OP_MIN then some (Int32.ofInt (min old.toInt data.toInt))
  else if op = MMT_OP_SET then some data
  else none

namespace Contents

/-- Apply an operation to the datum of a present key. -/
def overwrite (contents : Contents) (key : Int) (old data : Int32) (op : Int) :
    Contents × Reply :=
  match combine op old data with
  | none => (contents, ⟨-1, none⟩)
  | some new => (contents.insert key new, ⟨0, none⟩)

/-- What each call does to the map, and its reply. -/
def call (contents : Contents) : Call → Contents × Reply
  | .insert key data =>
    match contents.lookup key with
    | none => (contents.insert key data, ⟨0, none⟩)
    | some _ => (contents, ⟨-1, none⟩)
  | .update key data op =>
    match contents.lookup key with
    | none => (contents, ⟨-1, none⟩)
    | some old => overwrite contents key old data op
  | .set key data op =>
    match contents.lookup key with
    | none => (contents.insert key data, ⟨0, none⟩)
    | some old => overwrite contents key old data op
  | .get key =>
    match contents.lookup key with
    | none => (contents, ⟨-1, none⟩)
    | some data => (contents, ⟨0, some data⟩)
  | .find key =>
    match contents.lookup key with
    | none => (contents, ⟨1, none⟩)
    | some _ => (contents, ⟨0, none⟩)
  | .remove key =>
    match contents.lookup key with
    | none => (contents, ⟨-1, none⟩)
    | some _ => (contents.erase key, ⟨0, none⟩)

/-- A sequence of calls on the map. -/
def run (contents : Contents) : List Call → Contents × List Reply
  | [] => (contents, [])
  | step :: rest =>
    let (contents, reply) := contents.call step
    let (contents, replies) := run contents rest
    (contents, reply :: replies)

end Contents

theorem ofInt_tdiv_toInt (old data : Int32) :
    Int32.ofInt (old.toInt.tdiv data.toInt) = old / data := by
  rw [Int32.ofInt_eq_iff_bmod_eq_toInt, Int32.toInt_div]

theorem ofInt_max_toInt (old data : Int32) :
    Int32.ofInt (max old.toInt data.toInt) = if data > old then data else old := by
  by_cases greater : data > old
  · have ordered := Int32.lt_iff_toInt_lt.mp greater
    rw [if_pos greater, max_eq_right ordered.le, Int32.ofInt_toInt]
  · have ordered := not_lt.mp (mt Int32.lt_iff_toInt_lt.mpr greater)
    rw [if_neg greater, max_eq_left ordered, Int32.ofInt_toInt]

theorem ofInt_min_toInt (old data : Int32) :
    Int32.ofInt (min old.toInt data.toInt) = if data < old then data else old := by
  by_cases less : data < old
  · have ordered := Int32.lt_iff_toInt_lt.mp less
    rw [if_pos less, min_eq_right ordered.le, Int32.ofInt_toInt]
  · have ordered := not_lt.mp (mt Int32.lt_iff_toInt_lt.mpr less)
    rw [if_neg less, min_eq_left ordered, Int32.ofInt_toInt]

/-- `update` computes the wrapped arithmetic and rejects what it rejects. -/
theorem toOption_opResult (op : Int) (old data : Int32) :
    (CMmtree.opResult op old data).toOption = combine op old data := by
  have zero : data.toInt = 0 ↔ data = 0 := Int32.toInt_inj (y := 0)
  unfold CMmtree.opResult combine
  simp only [zero, ofInt_tdiv_toInt, ofInt_max_toInt, ofInt_min_toInt, Int32.ofInt_add,
    Int32.ofInt_sub, Int32.ofInt_mul, Int32.ofInt_toInt]
  split_ifs <;> rfl

/-! ## What a tree says about the map -/

/-- The tree holds exactly the bindings of the map. -/
def Represents (contents : Contents) (tree : RBNode Slot) : Prop :=
  ∀ key data, contents.lookup key = some data ↔ ∃ id, ⟨id, key, data⟩ ∈ tree.toList

namespace Represents

variable {contents : Contents} {tree tree' : RBNode Slot} {before after : List Slot} {s : Slot}

theorem lookup_eq_none {key : Int} (represents : Represents contents tree)
    (absent : ∀ x ∈ tree.toList, x.key ≠ key) : contents.lookup key = none := by
  cases found : contents.lookup key with
  | none => rfl
  | some data =>
    obtain ⟨id, member⟩ := (represents key data).mp found
    exact absurd rfl (absent _ member)

/-- The map has the datum of every node. -/
theorem lookup_eq_some (represents : Represents contents tree) (member : s ∈ tree.toList) :
    contents.lookup s.key = some s.data :=
  (represents s.key s.data).mpr ⟨s.id, member⟩

/-- Replacing the binding of one key, or adding one. -/
theorem insert (represents : Represents contents tree)
    (others : ∀ x : Slot, x.key ≠ s.key → (x ∈ tree'.toList ↔ x ∈ tree.toList))
    (here : ∀ x ∈ tree'.toList, x.key = s.key → x.data = s.data) (member : s ∈ tree'.toList) :
    Represents (contents.insert s.key s.data) tree' := by
  intro key data
  by_cases same : key = s.key
  · subst same
    rw [Finmap.lookup_insert]
    constructor
    · intro found
      obtain rfl := Option.some.inj found
      exact ⟨s.id, member⟩
    · rintro ⟨id, inTree⟩
      rw [← here _ inTree rfl]
  · rw [Finmap.lookup_insert_of_ne _ same, represents key data]
    exact exists_congr fun id => (others ⟨id, key, data⟩ same).symm

/-- One key goes from the map and the tree. -/
theorem erase {key : Int} (represents : Represents contents tree)
    (others : ∀ x : Slot, x.key ≠ key → (x ∈ tree'.toList ↔ x ∈ tree.toList))
    (gone : ∀ x ∈ tree'.toList, x.key ≠ key) : Represents (contents.erase key) tree' := by
  intro wanted data
  by_cases same : wanted = key
  · subst same
    rw [Finmap.lookup_erase]
    simp only [reduceCtorEq, false_iff, not_exists]
    exact fun id member => gone _ member rfl
  · rw [Finmap.lookup_erase_ne same, represents wanted data]
    exact exists_congr fun id => (others ⟨id, wanted, data⟩ same).symm

end Represents

end Taomee.Mmtree
