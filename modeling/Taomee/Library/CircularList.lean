import Mathlib.Data.List.Chain
import Mathlib.Data.List.Nodup

/-!
# Intrusive circular lists

A circular doubly linked list has no head cell: each member carries the two links,
and any member can serve as the place to start. `Links.Ring` says that a list of
members, in order, is the whole of one such circle.
-/

namespace Taomee.CircularList

variable {ι : Type*}

/-- The two link fields of the members, one map for each field. A null link is a member of its own
here: a program that follows one crashes, and the maps go on. -/
structure Links (ι : Type*) where
  next : ι → ι
  prev : ι → ι

namespace Links

variable {first x : ι} {rest members : List ι}

/-- Each of two members names the other. -/
def Linked (links : Links ι) (before after : ι) : Prop :=
  links.next before = after ∧ links.prev after = before

/-- `members` is a whole circle, in order from its first member. -/
def Ring (links : Links ι) : List ι → Prop
  | [] => True
  | first :: rest => List.IsChain links.Linked (first :: rest ++ [first])

variable {links : Links ι}

theorem ring_cons_cons {second : ι} :
    links.Ring (first :: second :: rest) ↔
      links.Linked first second ∧ List.IsChain links.Linked (second :: rest ++ [first]) := by
  simp [Ring]

/-- A chain survives writes to links it does not use: the `next` of its last member
and the `prev` of its first one. -/
theorem isChain_congr {changed : Links ι}
    (sameNext : ∀ x ∈ members.dropLast, changed.next x = links.next x)
    (samePrev : ∀ x ∈ members.tail, changed.prev x = links.prev x)
    (chain : List.IsChain links.Linked members) : List.IsChain changed.Linked members := by
  induction members with
  | nil => exact .nil
  | cons first rest ih =>
    cases rest with
    | nil => exact .singleton _
    | cons second rest =>
      obtain ⟨linked, chain⟩ := List.isChain_cons_cons.mp chain
      constructor
      · constructor
        · rw [sameNext first (by simp), linked.1]
        · rw [samePrev second (by simp), linked.2]
      · apply ih _ _ chain
        · intro x member
          exact sameNext x (by simp [member])
        · intro x member
          exact samePrev x (by simp [List.mem_of_mem_tail member])

/-- Writes outside a circle leave it alone. -/
theorem Ring.congr {changed : Links ι}
    (same : ∀ x ∈ members, changed.next x = links.next x ∧ changed.prev x = links.prev x)
    (ring : links.Ring members) : changed.Ring members := by
  cases members with
  | nil => trivial
  | cons first rest =>
    apply isChain_congr _ _ ring
    · intro x member
      rw [List.dropLast_concat] at member
      exact (same x member).1
    · intro x member
      have : x ∈ first :: rest := by
        rcases List.mem_append.mp member with inside | last
        · exact List.mem_cons_of_mem _ inside
        · rw [List.mem_singleton.mp last]
          exact List.mem_cons_self
      exact (same x this).2

/-- Reading a circle from its second member. -/
theorem Ring.rotate_one (ring : links.Ring (first :: rest)) : links.Ring (rest ++ [first]) := by
  cases rest with
  | nil => exact ring
  | cons second rest =>
    obtain ⟨linked, chain⟩ := ring_cons_cons.mp ring
    change List.IsChain links.Linked ((second :: rest ++ [first]) ++ [second])
    rw [List.append_assoc, List.singleton_append, List.isChain_split]
    exact ⟨chain, by simpa using linked⟩

/-- A circle can be read from any member. -/
theorem Ring.rotate (front back : List ι) (ring : links.Ring (front ++ back)) :
    links.Ring (back ++ front) := by
  induction front generalizing back with
  | nil => simpa using ring
  | cons first rest ih =>
    have moved : links.Ring (rest ++ back ++ [first]) := ring.rotate_one
    rw [List.append_assoc] at moved
    simpa using ih _ moved

/-- The links along a circle, read at two neighbours. -/
theorem Ring.linked {front back : List ι} {before after : ι}
    (ring : links.Ring (front ++ before :: after :: back)) : links.Linked before after :=
  (ring_cons_cons.mp (ring.rotate : links.Ring (before :: after :: back ++ front))).1

/-- The link that closes a circle. -/
theorem Ring.closed {middle : List ι} {last : ι} (ring : links.Ring (first :: (middle ++ [last]))) :
    links.Linked last first := by
  have turned := Ring.rotate (first :: middle) [last] (by simpa using ring)
  exact (ring_cons_cons.mp (by simpa using turned)).1

theorem Ring.next_singleton {only : ι} (ring : links.Ring [only]) : links.next only = only := by
  have linked : links.Linked only only := by simpa [Ring] using ring
  exact linked.1

/-- The successor along a circle read from its first member. -/
theorem Ring.next_first {second : ι} (ring : links.Ring (first :: second :: rest)) :
    links.next first = second :=
  (ring_cons_cons.mp ring).1.1

/-- A member's predecessor, and with it its successor, belongs to the circle. -/
theorem Ring.prev_mem (ring : links.Ring members) (member : x ∈ members) :
    links.prev x ∈ members := by
  obtain ⟨front, back, rfl⟩ := List.append_of_mem member
  have turned : links.Ring (x :: (back ++ front)) := by simpa using ring.rotate
  rcases List.eq_nil_or_concat (back ++ front) with empty | ⟨middle, last, shape⟩
  · rw [empty] at turned
    have linked : links.Linked x x := by simpa [Ring] using turned
    rw [linked.2]
    simp
  · rw [shape, List.concat_eq_append] at turned
    rw [turned.closed.2]
    have : last ∈ back ++ front := by simp [shape]
    rcases List.mem_append.mp this with inside | inside <;> simp [inside]

theorem Ring.next_mem (ring : links.Ring members) (member : x ∈ members) :
    links.next x ∈ members := by
  obtain ⟨front, back, rfl⟩ := List.append_of_mem member
  have turned : links.Ring (x :: (back ++ front)) := by simpa using ring.rotate
  cases shape : back ++ front with
  | nil =>
    rw [shape] at turned
    rw [turned.next_singleton]
    simp
  | cons second rest =>
    rw [shape] at turned
    rw [turned.next_first]
    have : second ∈ back ++ front := by simp [shape]
    rcases List.mem_append.mp this with inside | inside <;> simp [inside]

/-- Following the links along a chain reaches its end. -/
theorem iterate_of_isChain {start last : ι} {middle : List ι}
    (chain : List.IsChain links.Linked (start :: middle ++ [last])) :
    ∃ n, links.next^[n] start = last := by
  induction middle generalizing start with
  | nil => exact ⟨1, (List.isChain_cons_cons.mp chain).1.1⟩
  | cons second rest ih =>
    obtain ⟨linked, further⟩ := List.isChain_cons_cons.mp chain
    obtain ⟨n, reached⟩ := ih further
    refine ⟨n + 1, ?_⟩
    rw [Function.iterate_succ_apply, linked.1, reached]

/-- Following the links from the first member meets exactly the members. -/
theorem Ring.mem_iff_iterate (ring : links.Ring (first :: rest)) :
    x ∈ first :: rest ↔ ∃ n, links.next^[n] first = x := by
  constructor
  · intro member
    obtain ⟨front, back, shape⟩ := List.append_of_mem member
    cases front with
    | nil =>
      obtain ⟨rfl, -⟩ := List.cons.inj shape
      exact ⟨0, rfl⟩
    | cons start front =>
      obtain ⟨rfl, rfl⟩ := List.cons.inj shape
      have chain : List.IsChain links.Linked
          ((first :: front ++ [x]) ++ (back ++ [first])) := by simpa [Ring] using ring
      exact iterate_of_isChain chain.left_of_append
  · rintro ⟨n, rfl⟩
    induction n with
    | zero => exact List.mem_cons_self
    | succ n ih =>
      rw [Function.iterate_succ_apply']
      exact ring.next_mem ih

/-- A member that is its own successor is alone. -/
theorem Ring.next_eq_self_iff (ring : links.Ring (first :: rest)) (nodup : (first :: rest).Nodup) :
    links.next first = first ↔ rest = [] := by
  constructor
  · intro own
    cases rest with
    | nil => rfl
    | cons second rest =>
      rw [ring.next_first] at own
      simp [own] at nodup
  · rintro rfl
    exact ring.next_singleton

/-- The successor of a member is the first one exactly when that member is the last. -/
theorem Ring.next_eq_first_iff {front back : List ι} (ring : links.Ring (front ++ x :: back))
    (nodup : (front ++ x :: back).Nodup) (start : (front ++ x :: back).head? = some first) :
    links.next x = first ↔ back = [] := by
  have turned : links.Ring (x :: (back ++ front)) := by simpa using ring.rotate
  cases back with
  | nil =>
    cases front with
    | nil =>
      have : x = first := by simpa using start
      subst this
      simp [turned.next_singleton]
    | cons head front =>
      have : head = first := by simpa using start
      subst this
      simp [turned.next_first]
  | cons second back =>
    rw [turned.next_first]
    cases front with
    | nil =>
      have : x = first := by simpa using start
      subst this
      simp at nodup
      simp
      tauto
    | cons head front =>
      have : head = first := by simpa using start
      subst this
      simp at nodup
      tauto

variable [DecidableEq ι]

/-- `INIT_LIST_HEAD`: a circle of its own. -/
def initListHead (links : Links ι) (x : ι) : Links ι :=
  ⟨Function.update links.next x x, Function.update links.prev x x⟩

/-- `list_add_tail`: put `new` just before `head`, that is, at the end of the circle
that starts at `head`. -/
def listAddTail (links : Links ι) (new head : ι) : Links ι :=
  let prev := links.prev head
  { next := Function.update (Function.update links.next new head) prev new
    prev := Function.update (Function.update links.prev head new) new prev }

/-- `list_del`: join the neighbours of `entry` and clear its own links. -/
def listDel (null : ι) (links : Links ι) (entry : ι) : Links ι :=
  let prev := links.prev entry
  let next := links.next entry
  { next := Function.update (Function.update links.next prev next) entry null
    prev := Function.update (Function.update links.prev next prev) entry null }

theorem ring_initListHead (links : Links ι) (x : ι) : (links.initListHead x).Ring [x] := by
  simp [Ring, Linked, initListHead]

theorem Ring.initListHead (ring : links.Ring members) (outside : x ∉ members) :
    (links.initListHead x).Ring members := by
  apply ring.congr
  intro y member
  have different : y ≠ x := fun same => outside (same ▸ member)
  simp [Links.initListHead, different]

theorem Ring.listAddTail {head new : ι} (ring : links.Ring (head :: rest))
    (nodup : (head :: rest).Nodup) (fresh : new ∉ head :: rest) :
    (links.listAddTail new head).Ring (head :: rest ++ [new]) := by
  have newNeHead : new ≠ head := fun same => fresh (by simp [same])
  rcases List.eq_nil_or_concat rest with rfl | ⟨middle, last, rfl⟩
  · have linked : links.Linked head head := by simpa [Ring] using ring
    simp [Ring, Linked, Links.listAddTail, linked.2, newNeHead, newNeHead.symm]
  · rw [List.concat_eq_append] at ring nodup fresh ⊢
    have closing := ring.closed
    have newNeLast : new ≠ last := fun same => fresh (by simp [same])
    -- the old circle, cut open before `head`
    have opened : List.IsChain links.Linked (head :: (middle ++ [last])) := ring.left_of_append
    have kept : List.IsChain (links.listAddTail new head).Linked (head :: (middle ++ [last])) := by
      apply isChain_congr _ _ opened
      · intro x member
        have inside : x ∈ head :: middle := by
          rwa [← List.cons_append, List.dropLast_concat] at member
        have notLast : x ≠ last := by
          rintro rfl
          rw [← List.cons_append, List.nodup_append] at nodup
          exact nodup.2.2 x inside x (by simp) rfl
        have notNew : x ≠ new := by
          rintro rfl
          apply fresh
          exact List.mem_append_left _ inside
        simp [Links.listAddTail, closing.2, notLast, notNew]
      · intro x member
        have inside : x ∈ middle ++ [last] := member
        have notHead : x ≠ head := by
          rintro rfl
          exact (List.nodup_cons.mp nodup).1 inside
        have notNew : x ≠ new := by
          rintro rfl
          exact fresh (List.mem_cons_of_mem _ inside)
        simp [Links.listAddTail, notHead, notNew]
    have joined : (links.listAddTail new head).Linked last new := by
      simp [Linked, Links.listAddTail, closing.2]
    have closed : (links.listAddTail new head).Linked new head := by
      simp [Linked, Links.listAddTail, closing.2, newNeLast, newNeHead.symm]
    change List.IsChain _ ((head :: (middle ++ [last]) ++ [new]) ++ [head])
    have shape : (head :: (middle ++ [last]) ++ [new]) ++ [head]
        = (head :: middle) ++ last :: new :: [head] := by simp
    rw [shape, List.isChain_append_cons_cons]
    exact ⟨by simpa using kept, joined, by simpa using closed⟩

/-- A circle that the new member does not join is left alone. -/
theorem Ring.listAddTail_frame {joined : List ι} {new head : ι} (ring : links.Ring members)
    (target : links.Ring joined) (inside : head ∈ joined) (apart : List.Disjoint members joined)
    (outside : new ∉ members) : (links.listAddTail new head).Ring members := by
  apply ring.congr
  intro x member
  have notNew : x ≠ new := fun same => outside (same ▸ member)
  have notHead : x ≠ head := fun same => apart member (same ▸ inside)
  have notPrev : x ≠ links.prev head := fun same => apart member (same ▸ target.prev_mem inside)
  simp [Links.listAddTail, notNew, notHead, notPrev]

/-- Deleting the first member leaves the others, in the same order. -/
theorem Ring.listDel_first {null : ι} (ring : links.Ring (first :: rest))
    (nodup : (first :: rest).Nodup) : (links.listDel null first).Ring rest := by
  cases rest with
  | nil => trivial
  | cons second rest =>
    obtain ⟨linked, chain⟩ := ring_cons_cons.mp ring
    obtain ⟨middle, last, shape⟩ : ∃ middle last, second :: rest = middle ++ [last] := by
      rcases List.eq_nil_or_concat (second :: rest) with empty | ⟨middle, last, shape⟩
      · cases empty
      · exact ⟨middle, last, by simpa using shape⟩
    have closing : links.Linked last first := by
      rw [shape] at ring
      exact ring.closed
    have firstOut : first ∉ second :: rest := (List.nodup_cons.mp nodup).1
    have restNodup : (second :: rest).Nodup := (List.nodup_cons.mp nodup).2
    have firstNeSecond : second ≠ first := fun same => firstOut (by simp [same])
    have firstNeLast : last ≠ first := fun same => firstOut (by simp [shape, same])
    have opened : List.IsChain links.Linked (second :: rest) := chain.left_of_append
    have kept : List.IsChain (links.listDel null first).Linked (second :: rest) := by
      apply isChain_congr _ _ opened
      · intro x member
        have inside : x ∈ second :: rest := List.dropLast_subset _ member
        have notFirst : x ≠ first := fun same => firstOut (same ▸ inside)
        have notLast : x ≠ last := by
          rintro rfl
          rw [shape] at member restNodup
          rw [List.dropLast_concat] at member
          exact (List.nodup_append.mp restNodup).2.2 x member x (by simp) rfl
        simp [Links.listDel, closing.2, notFirst, notLast]
      · intro x member
        have inside : x ∈ rest := member
        have notFirst : x ≠ first := fun same => firstOut (List.mem_cons_of_mem _ (same ▸ inside))
        have notSecond : x ≠ second := fun same =>
          (List.nodup_cons.mp restNodup).1 (same ▸ inside)
        simp [Links.listDel, linked.1, notFirst, notSecond]
    have joined : (links.listDel null first).Linked last second := by
      simp [Linked, Links.listDel, closing.2, linked.1, firstNeSecond, firstNeLast]
    change List.IsChain _ (second :: rest ++ [second])
    rw [shape] at kept ⊢
    rw [List.append_assoc, List.singleton_append, List.isChain_split]
    exact ⟨kept, by simpa using joined⟩

/-- Deleting a member closes the circle over its place. -/
theorem Ring.listDel {null : ι} {front back : List ι} (ring : links.Ring (front ++ x :: back))
    (nodup : (front ++ x :: back).Nodup) : (links.listDel null x).Ring (front ++ back) := by
  have turned : links.Ring (x :: (back ++ front)) := by simpa using ring.rotate
  have turnedNodup : (x :: (back ++ front)).Nodup := by
    rw [← List.cons_append, List.nodup_append_comm]
    exact nodup
  exact (turned.listDel_first turnedNodup).rotate

theorem Ring.listDel_frame {null : ι} {target : List ι} (ring : links.Ring members)
    (other : links.Ring target) (inside : x ∈ target) (apart : List.Disjoint members target) :
    (links.listDel null x).Ring members := by
  apply ring.congr
  intro y member
  have notX : y ≠ x := fun same => apart member (same ▸ inside)
  have notPrev : y ≠ links.prev x := fun same => apart member (same ▸ other.prev_mem inside)
  have notNext : y ≠ links.next x := fun same => apart member (same ▸ other.next_mem inside)
  simp [Links.listDel, notX, notPrev, notNext]

end Links

end Taomee.CircularList
