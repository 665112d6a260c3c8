import Taomee.Chat.Model

/-!
# chat: the lists of records by time

Each level has a list of records of that level. A record that is on no list is a circle of its
own, and so is told from the others.
-/

namespace Taomee.Chat

open CircularList

variable {lists : Nat → List Addr}

/-- The nodes of a level's list, from its head on. -/
def listNodes (lists : Nat → List Addr) (level : Nat) : List TimeNode :=
  .head level :: (lists level).map .record

/-- The lists hold records in use, each in the list of its level. -/
structure Timed (links : Links TimeNode) (level : Addr → Nat) (live : Finset Addr)
    (lists : Nat → List Addr) : Prop where
  ring : ∀ loop < maxMsglv, links.Ring (listNodes lists loop)
  nodup : ∀ loop < maxMsglv, (lists loop).Nodup
  inside : ∀ loop < maxMsglv, ∀ addr ∈ lists loop, addr ∈ live ∧ level addr = loop
  low : ∀ addr ∈ live, level addr < maxMsglv
  alone : ∀ addr ∈ live, addr ∉ lists (level addr) → links.Ring [.record addr]

/-- `list_empty` of a record's own node. -/
def OffList (links : Links TimeNode) (addr : Addr) : Prop :=
  links.next (.record addr) = .record addr

instance (links : Links TimeNode) (addr : Addr) : Decidable (OffList links addr) :=
  inferInstanceAs (Decidable (_ = _))

theorem record_injective : Function.Injective TimeNode.record := fun _ _ same =>
  TimeNode.record.inj same

theorem record_mem_listNodes {level : Nat} {addr : Addr} :
    TimeNode.record addr ∈ listNodes lists level ↔ addr ∈ lists level := by
  simp [listNodes]

theorem head_mem_listNodes {level other : Nat} :
    TimeNode.head other ∈ listNodes lists level ↔ other = level := by
  simp [listNodes]

theorem nodup_listNodes {level : Nat} (nodup : (lists level).Nodup) :
    (listNodes lists level).Nodup := by
  refine List.nodup_cons.mpr ⟨by simp, nodup.map record_injective⟩

/-- The lists with one of them replaced. -/
theorem listNodes_update {level other : Nat} {members : List Addr} :
    listNodes (Function.update lists level members) other =
      if other = level then .head level :: members.map .record else listNodes lists other := by
  by_cases same : other = level
  · rw [if_pos same, same, listNodes, Function.update_self]
  · rw [if_neg same, listNodes, Function.update_of_ne same, listNodes]

namespace Timed

variable {links : Links TimeNode} {level : Addr → Nat} {live : Finset Addr}
  {lists : Nat → List Addr} {addr place : Addr}

/-- The lists of two levels have no node in common. -/
theorem disjoint (timed : Timed links level live lists) {loop other : Nat}
    (below : loop < maxMsglv) (otherBelow : other < maxMsglv) (apart : loop ≠ other) :
    List.Disjoint (listNodes lists loop) (listNodes lists other) := by
  intro node one two
  cases node with
  | null => simp [listNodes] at one
  | head place =>
    rw [head_mem_listNodes] at one two
    exact apart (one.symm.trans two)
  | record addr =>
    rw [record_mem_listNodes] at one two
    have here := (timed.inside loop below addr one).2
    have there := (timed.inside other otherBelow addr two).2
    exact apart (here.symm.trans there)

/-- A record is on the list of its level, or on none and a circle of its own. -/
theorem offList_iff (timed : Timed links level live lists) (known : addr ∈ live) :
    OffList links addr ↔ addr ∉ lists (level addr) := by
  have below := timed.low addr known
  constructor
  · intro off member
    have ring := timed.ring _ below
    have inRing : TimeNode.record addr ∈ listNodes lists (level addr) :=
      record_mem_listNodes.mpr member
    obtain ⟨front, back, shape⟩ := List.append_of_mem inRing
    rw [shape] at ring
    have turned : links.Ring (.record addr :: (back ++ front)) := by simpa using ring.rotate
    have distinct := nodup_listNodes (timed.nodup _ below)
    rw [shape, List.nodup_append_comm] at distinct
    have empty := (turned.next_eq_self_iff (by simpa using distinct)).mp off
    have headIn : TimeNode.head (level addr) ∈ front ++ .record addr :: back := by
      rw [← shape]
      exact List.mem_cons_self
    obtain ⟨rfl, rfl⟩ := List.append_eq_nil_iff.mp empty
    simp at headIn
  · intro missing
    exact (timed.alone addr known missing).next_singleton

theorem not_mem_of_offList (timed : Timed links level live lists) (known : addr ∈ live)
    (off : OffList links addr) {loop : Nat} (below : loop < maxMsglv) : addr ∉ lists loop := by
  intro member
  have same := (timed.inside loop below addr member).2
  exact (timed.offList_iff known).mp off (same ▸ member)

/-- A new record is on no list. -/
theorem create (timed : Timed links level live lists) (fresh : place ∉ live) :
    Timed (links.initListHead (.record place)) (Function.update level place 0)
      (insert place live) lists := by
  have outside {loop : Nat} (below : loop < maxMsglv) : place ∉ lists loop := fun member =>
    fresh (timed.inside loop below place member).1
  have others {addr : Addr} (known : addr ∈ live) : addr ≠ place := ne_of_mem_of_not_mem known fresh
  constructor
  · intro loop below
    exact (timed.ring loop below).initListHead fun member =>
      outside below (record_mem_listNodes.mp member)
  · exact timed.nodup
  · intro loop below addr member
    obtain ⟨known, same⟩ := timed.inside loop below addr member
    rw [Function.update_of_ne (others known)]
    exact ⟨Finset.mem_insert_of_mem known, same⟩
  · intro addr member
    obtain rfl | known := Finset.mem_insert.mp member
    · rw [Function.update_self]
      decide
    · rw [Function.update_of_ne (others known)]
      exact timed.low addr known
  · intro addr member missing
    obtain rfl | known := Finset.mem_insert.mp member
    · exact Links.ring_initListHead links _
    · rw [Function.update_of_ne (others known)] at missing
      refine (timed.alone addr known missing).initListHead fun same => ?_
      exact others known (TimeNode.record.inj (List.mem_singleton.mp same)).symm

/-- A record whose links are not a circle of its own, or that is on no list, goes to the end of a
list. -/
theorem hang (addr : Addr) {before : Addr → Nat} {target : Nat} (below : target < maxMsglv)
    (ring : ∀ loop < maxMsglv, links.Ring (listNodes lists loop))
    (nodup : ∀ loop < maxMsglv, (lists loop).Nodup)
    (inside : ∀ loop < maxMsglv, ∀ other ∈ lists loop,
      other ≠ addr ∧ other ∈ live ∧ before other = loop)
    (low : ∀ other ∈ live, other ≠ addr → before other < maxMsglv)
    (alone : ∀ other ∈ live, other ≠ addr → other ∉ lists (before other) →
      links.Ring [.record other]) (known : addr ∈ live) :
    Timed (links.listAddTail (.record addr) (.head target)) (Function.update before addr target)
      live (Function.update lists target (lists target ++ [addr])) := by
  have fresh {loop : Nat} (loopBelow : loop < maxMsglv) : .record addr ∉ listNodes lists loop := by
    intro member
    exact (inside loop loopBelow addr (record_mem_listNodes.mp member)).1 rfl
  have targetHead : TimeNode.head target ∈ listNodes lists target := List.mem_cons_self
  have distinct := nodup_listNodes (nodup target below)
  constructor
  · intro loop loopBelow
    rw [listNodes_update]
    by_cases same : loop = target
    · rw [if_pos same, List.map_append]
      exact (ring target below).listAddTail distinct (fresh below)
    · rw [if_neg same]
      refine (ring loop loopBelow).listAddTail_frame (ring target below) targetHead ?_
        (fresh loopBelow)
      intro node one two
      cases node with
      | null => simp [listNodes] at one
      | head place =>
        rw [head_mem_listNodes] at one two
        exact same (one.symm.trans two)
      | record other =>
        rw [record_mem_listNodes] at one two
        have here := (inside loop loopBelow other one).2.2
        exact same (here.symm.trans (inside target below other two).2.2)
  · intro loop loopBelow
    by_cases same : loop = target
    · subst same
      rw [Function.update_self, List.nodup_append_comm]
      refine List.nodup_cons.mpr ⟨fun member => ?_, nodup loop below⟩
      exact (inside loop below addr (by simpa using member)).1 rfl
    · rw [Function.update_of_ne same]
      exact nodup loop loopBelow
  · intro loop loopBelow other member
    by_cases own : other = addr
    · subst own
      rw [Function.update_self]
      refine ⟨known, ?_⟩
      by_contra different
      rw [Function.update_of_ne (Ne.symm different)] at member
      exact (inside loop loopBelow other member).1 rfl
    · rw [Function.update_of_ne own]
      have listed : other ∈ lists loop := by
        by_cases same : loop = target
        · subst same
          simpa [own] using member
        · rwa [Function.update_of_ne same] at member
      exact (inside loop loopBelow other listed).2
  · intro other member
    by_cases own : other = addr
    · subst own
      rw [Function.update_self]
      exact below
    · rw [Function.update_of_ne own]
      exact low other member own
  · intro other member missing
    by_cases own : other = addr
    · subst own
      simp at missing
    · rw [Function.update_of_ne own] at missing
      have off : other ∉ lists (before other) := by
        intro listed
        apply missing
        by_cases same : before other = target
        · rw [same] at listed ⊢
          rw [Function.update_self]
          exact List.mem_append_left _ listed
        · rw [Function.update_of_ne same]
          exact listed
      refine (alone other member own off).listAddTail_frame (ring target below) targetHead ?_ ?_
      · intro node one two
        obtain rfl := List.mem_singleton.mp one
        have listed := record_mem_listNodes.mp two
        have here := (inside target below other listed).2.2
        exact off (here.symm ▸ listed)
      · intro same
        exact own (TimeNode.record.inj (List.mem_singleton.mp same)).symm

/-- A record on no list goes to the list of its level. -/
theorem add (timed : Timed links level live lists) (known : addr ∈ live)
    (off : OffList links addr) :
    Timed (links.listAddTail (.record addr) (.head (level addr))) level live
      (Function.update lists (level addr) (lists (level addr) ++ [addr])) := by
  have joined := hang addr (timed.low addr known) timed.ring timed.nodup
    (fun loop below other member => ?_) (fun other member _ => timed.low other member)
    (fun other member _ => timed.alone other member) known
  · rwa [Function.update_eq_self] at joined
  · refine ⟨?_, timed.inside loop below other member⟩
    rintro rfl
    exact timed.not_mem_of_offList known off below member

/-- Deleting the record from a list closes the list over it. -/
theorem ring_without (timed : Timed links level live lists) {loop : Nat}
    (below : loop < maxMsglv) (listed : addr ∈ lists loop) :
    (links.listDel .null (.record addr)).Ring
      (.head loop :: ((lists loop).erase addr).map .record) := by
  obtain ⟨front, back, shape⟩ := List.append_of_mem listed
  have missing : addr ∉ front := by
    have distinct := timed.nodup loop below
    rw [shape] at distinct
    exact fun member => (List.nodup_append.mp distinct).2.2 addr member addr (by simp) rfl
  have distinct := nodup_listNodes (timed.nodup loop below)
  have ring := timed.ring loop below
  rw [shape, List.erase_append_right _ missing, List.erase_cons_head]
  rw [listNodes, shape, List.map_append, List.map_cons, ← List.cons_append] at ring distinct
  rw [List.map_append, ← List.cons_append]
  exact ring.listDel distinct

/-- A record goes from wherever it is to the list of its new level. -/
theorem move (timed : Timed links level live lists) (known : addr ∈ live) {target : Nat}
    (below : target < maxMsglv) :
    ∃ lists', Timed ((links.listDel .null (.record addr)).listAddTail (.record addr) (.head target))
      (Function.update level addr target) live lists' := by
  have place := timed.low addr known
  by_cases listed : addr ∈ lists (level addr)
  · have inCircle := record_mem_listNodes.mpr listed
    have mem_of {loop : Nat} {other : Addr}
        (member : other ∈ Function.update lists (level addr) ((lists (level addr)).erase addr) loop)
        (loopBelow : loop < maxMsglv) : other ≠ addr ∧ other ∈ lists loop := by
      by_cases same : loop = level addr
      · subst same
        rw [Function.update_self] at member
        exact ((timed.nodup _ place).mem_erase_iff).mp member
      · rw [Function.update_of_ne same] at member
        refine ⟨?_, member⟩
        rintro rfl
        exact same (timed.inside loop loopBelow other member).2.symm
    have ring : ∀ loop < maxMsglv, (links.listDel .null (.record addr)).Ring
        (listNodes (Function.update lists (level addr) ((lists (level addr)).erase addr)) loop) := by
      intro loop loopBelow
      rw [listNodes_update]
      by_cases same : loop = level addr
      · subst same
        rw [if_pos rfl]
        exact timed.ring_without place listed
      · rw [if_neg same]
        exact (timed.ring loop loopBelow).listDel_frame (timed.ring _ place) inCircle
          (timed.disjoint loopBelow place same)
    refine ⟨_, hang addr below ring ?_ ?_ (fun other member _ => timed.low other member) ?_ known⟩
    · intro loop loopBelow
      by_cases same : loop = level addr
      · rw [same, Function.update_self]
        exact (timed.nodup _ place).erase addr
      · rw [Function.update_of_ne same]
        exact timed.nodup loop loopBelow
    · intro loop loopBelow other member
      obtain ⟨apart, there⟩ := mem_of member loopBelow
      exact ⟨apart, timed.inside loop loopBelow other there⟩
    · intro other member apart missing
      have off : other ∉ lists (level other) := by
        intro there
        apply missing
        by_cases same : level other = level addr
        · rw [same] at there ⊢
          rw [Function.update_self]
          exact ((timed.nodup _ place).mem_erase_iff).mpr ⟨apart, there⟩
        · rw [Function.update_of_ne same]
          exact there
      refine (timed.alone other member off).listDel_frame (timed.ring _ place) inCircle ?_
      intro node one two
      obtain rfl := List.mem_singleton.mp one
      have there := record_mem_listNodes.mp two
      have same := (timed.inside _ place other there).2
      exact off (same.symm ▸ there)
  · have own := timed.alone addr known listed
    have missing {loop : Nat} (loopBelow : loop < maxMsglv) : addr ∉ lists loop := by
      intro member
      have same := (timed.inside loop loopBelow addr member).2
      exact listed (same.symm ▸ member)
    refine ⟨_, hang addr below ?_ timed.nodup ?_ (fun other member _ => timed.low other member) ?_
      known⟩
    · intro loop loopBelow
      refine (timed.ring loop loopBelow).listDel_frame own (List.mem_singleton_self _) ?_
      intro node one two
      obtain rfl := List.mem_singleton.mp two
      exact missing loopBelow (record_mem_listNodes.mp one)
    · intro loop loopBelow other member
      refine ⟨?_, timed.inside loop loopBelow other member⟩
      rintro rfl
      exact missing loopBelow member
    · intro other member apart off
      refine (timed.alone other member off).listDel_frame own (List.mem_singleton_self _) ?_
      intro node one two
      obtain rfl := List.mem_singleton.mp one
      exact apart (TimeNode.record.inj (List.mem_singleton.mp two))

end Timed

end Taomee.Chat
