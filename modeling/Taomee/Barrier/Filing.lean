import Taomee.Barrier.Region

/-!
# The tree and the waiting lists

Among the packets read so far, the oldest one of each key is in the tree, and the
circle of its `homo_list` links runs through it and the younger ones of that key.
-/

namespace Taomee.Barrier

open CircularList SearchTree

variable {β : Type*}

/-- The packets of one key, oldest first. -/
def sameKey (key : Int) (read : List (Entry β)) : List (Entry β) :=
  read.filter fun entry => entry.key = key

/-- The oldest packet of one key. -/
def front (key : Int) (read : List (Entry β)) : Option (Entry β) :=
  read.find? fun entry => entry.key = key

/-- The packets of the other keys. -/
def otherKeys (key : Int) (read : List (Entry β)) : List (Entry β) :=
  read.filter fun entry => entry.key ≠ key

section Lists

variable {read first second : List (Entry β)} {entry oldest : Entry β} {key other : Int}

theorem mem_sameKey : entry ∈ sameKey key read ↔ entry ∈ read ∧ entry.key = key := by
  simp [sameKey]

theorem mem_otherKeys : entry ∈ otherKeys key read ↔ entry ∈ read ∧ entry.key ≠ key := by
  simp [otherKeys]

theorem sameKey_append : sameKey key (first ++ second) = sameKey key first ++ sameKey key second :=
  List.filter_append _ _

theorem sameKey_cons :
    sameKey key (entry :: read) =
      if entry.key = key then entry :: sameKey key read else sameKey key read := by
  by_cases same : entry.key = key <;> simp [sameKey, same]

theorem sameKey_singleton :
    sameKey key [entry] = if entry.key = key then [entry] else [] := sameKey_cons

theorem sameKey_otherKeys :
    sameKey key (otherKeys other read) = if key = other then [] else sameKey key read := by
  split
  case isTrue same =>
    subst same
    simp [sameKey, otherKeys]
  case isFalse different =>
    simp only [sameKey, otherKeys, List.filter_filter]
    apply List.filter_congr
    intro x _
    by_cases same : x.key = key <;> simp [same, different]

/-- No packet of this key was read. -/
theorem sameKey_eq_nil : sameKey key read = [] ↔ ∀ entry ∈ read, entry.key ≠ key := by
  simp [sameKey]

theorem head?_sameKey (key : Int) (read : List (Entry β)) :
    (sameKey key read).head? = front key read := by
  simp [sameKey, front]

/-- A key has a front when a packet of it was read. -/
theorem front_eq_none : front key read = none ↔ ∀ entry ∈ read, entry.key ≠ key := by
  simp [front]

/-- The front of a key is a packet of it. -/
theorem front_eq_some (found : front key read = some entry) : entry ∈ read ∧ entry.key = key := by
  constructor
  · exact List.mem_of_find?_eq_some found
  · simpa using List.find?_some found

theorem front_of_sameKey {rest : List (Entry β)} (shape : sameKey key read = entry :: rest) :
    front key read = some entry := by
  rw [← head?_sameKey, shape]
  rfl

theorem sameKey_of_front (found : front key read = some entry) :
    ∃ rest, sameKey key read = entry :: rest := by
  rw [← head?_sameKey] at found
  exact ⟨_, List.eq_cons_of_mem_head? found⟩

/-- The packets before the oldest one of a key have other keys. -/
theorem front_split (found : front entry.key read = some entry) :
    ∃ older younger, read = older ++ entry :: younger ∧ sameKey entry.key older = [] := by
  obtain ⟨-, older, younger, shape, before⟩ := List.find?_eq_some_iff_append.mp found
  refine ⟨older, younger, shape, ?_⟩
  rw [sameKey_eq_nil]
  intro x member
  simpa using before x member

/-- The front comes from the older packets if they have one. -/
theorem front_append : front key (first ++ second) = (front key first).or (front key second) := by
  simp [front]

theorem front_singleton : front key [entry] = if entry.key = key then some entry else none := by
  by_cases same : entry.key = key <;> simp [front, same]

theorem front_cons :
    front key (entry :: read) = if entry.key = key then some entry else front key read := by
  by_cases same : entry.key = key <;> simp [front, same]

section Drop

variable {older younger : List (Entry β)} {last : Entry β} (apart : sameKey last.key older = [])

include apart

/-- A packet in the middle is the front when no older one has its key. -/
theorem front_middle :
    front key (older ++ last :: younger) =
      if key = last.key then some last else front key (older ++ younger) := by
  have none : front last.key older = none := front_eq_none.mpr (sameKey_eq_nil.mp apart)
  rw [front_append, front_append, front_cons]
  split
  case isTrue same =>
    subst same
    simp [none]
  case isFalse different => rw [if_neg (Ne.symm different)]

/-- Dropping a packet brings the next of its key to the front. -/
theorem front_drop :
    front key (older ++ younger) =
      if key = last.key then front key younger else front key (older ++ last :: younger) := by
  have none : front last.key older = none := front_eq_none.mpr (sameKey_eq_nil.mp apart)
  split
  case isTrue same => rw [front_append, same, none, Option.none_or]
  case isFalse different => rw [front_middle apart, if_neg different]

/-- The oldest packets of the other keys are the oldest ones but `last`. -/
theorem front_middle_ne :
    front key (older ++ last :: younger) = some entry ∧ some last ≠ some entry ↔
      key ≠ last.key ∧ front key (older ++ younger) = some entry := by
  rw [front_middle apart]
  split
  case isTrue same => simp [same]
  case isFalse different =>
    constructor
    · rintro ⟨found, -⟩
      exact ⟨different, found⟩
    · rintro ⟨-, found⟩
      refine ⟨found, ?_⟩
      rintro ⟨⟩
      exact different (front_eq_some found).2.symm

end Drop

/-- The packets of other keys keep their fronts. -/
theorem front_otherKeys :
    front key (otherKeys other read) = if key = other then none else front key read := by
  rw [← head?_sameKey, sameKey_otherKeys, ← head?_sameKey]
  split <;> rfl

/-- The packets of a key have different nodes. -/
theorem nodup_sameKey (key : Int) (nodup : (read.map Entry.node).Nodup) :
    ((sameKey key read).map Entry.node).Nodup :=
  List.Nodup.sublist (List.Sublist.map _ List.filter_sublist) nodup

end Lists

/-- The tree and the `homo_list` links file the packets read so far. -/
structure Filed (tree : BinTree Nat) (key : Nat → Int) (homo : Links Nat) (read : List (Entry β)) :
    Prop where
  keys : ∀ entry ∈ read, key entry.node = entry.key
  nodup : (read.map Entry.node).Nodup
  sorted : tree.Sorted key
  tree : ∀ node, node ∈ tree.inorder ↔ ∃ k entry, front k read = some entry ∧ entry.node = node
  homo : ∀ k, homo.Ring ((sameKey k read).map Entry.node)

/-- The empty tree files nothing. -/
theorem filed_nil (key : Nat → Int) (homo : Links Nat) :
    Filed (β := β) .leaf key homo [] where
  keys := nofun
  nodup := List.nodup_nil
  sorted := List.Pairwise.nil
  tree node := by simp [BinTree.inorder, front]
  homo _ := trivial

namespace Filed

variable {tree : BinTree Nat} {key : Nat → Int} {homo : Links Nat} {read : List (Entry β)}
  {entry oldest : Entry β}

/-- A search finds the oldest packet of the key. -/
theorem search_eq (filed : Filed tree key homo read) (wanted : Int) :
    tree.search key wanted = (front wanted read).map Entry.node := by
  cases found : front wanted read with
  | some entry =>
    obtain ⟨member, same⟩ := front_eq_some found
    apply (BinTree.search_eq_some filed.sorted).mpr
    constructor
    · exact (filed.tree _).mpr ⟨wanted, entry, found, rfl⟩
    · rw [filed.keys entry member, same]
  | none =>
    apply (BinTree.search_eq_none filed.sorted).mpr
    rintro node member rfl
    obtain ⟨k, entry, atFront, rfl⟩ := (filed.tree node).mp member
    obtain ⟨inside, same⟩ := front_eq_some atFront
    exact front_eq_none.mp found entry inside (filed.keys entry inside).symm

/-- The tree holds the node of a packet exactly when the packet is the oldest. -/
theorem mem_tree (filed : Filed tree key homo read) (member : entry ∈ read) :
    entry.node ∈ tree.inorder ↔ front entry.key read = some entry := by
  rw [filed.tree]
  constructor
  · rintro ⟨k, found, atFront, same⟩
    obtain ⟨inside, own⟩ := front_eq_some atFront
    have equal : found = entry := by
      by_contra different
      exact different (List.inj_on_of_nodup_map filed.nodup inside member same)
    rw [← equal, own, atFront]
  · intro atFront
    exact ⟨entry.key, entry, atFront, rfl⟩

/-- Circles of different keys do not meet. -/
theorem disjoint (filed : Filed tree key homo read) {first second : Int}
    (different : first ≠ second) :
    List.Disjoint ((sameKey first read).map Entry.node) ((sameKey second read).map Entry.node) := by
  intro node inFirst inSecond
  obtain ⟨one, oneIn, rfl⟩ := List.mem_map.mp inFirst
  obtain ⟨two, twoIn, same⟩ := List.mem_map.mp inSecond
  obtain ⟨oneRead, oneKey⟩ := mem_sameKey.mp oneIn
  obtain ⟨twoRead, twoKey⟩ := mem_sameKey.mp twoIn
  apply different
  rw [← oneKey, ← twoKey, ← filed.keys one oneRead, ← filed.keys two twoRead, same]

/-- The keys of the other nodes may change. -/
theorem congr_key (filed : Filed tree key homo read) {changed : Nat → Int}
    (same : ∀ entry ∈ read, changed entry.node = key entry.node) :
    Filed tree changed homo read where
  keys entry member := by rw [same entry member, filed.keys entry member]
  nodup := filed.nodup
  sorted := by
    apply filed.sorted.congr
    intro node member
    obtain ⟨k, entry, atFront, rfl⟩ := (filed.tree node).mp member
    exact same entry (front_eq_some atFront).1
  tree := filed.tree
  homo := filed.homo

section Join

variable (own : key entry.node = entry.key) (fresh : entry.node ∉ read.map Entry.node)

include fresh in
/-- The new packet has a node of its own. -/
theorem nodup_append (filed : Filed tree key homo read) :
    ((read ++ [entry]).map Entry.node).Nodup := by
  rw [List.map_append, List.nodup_append]
  refine ⟨filed.nodup, List.nodup_singleton _, ?_⟩
  rintro node member _ last rfl
  rw [List.map_singleton, List.mem_singleton] at last
  exact fresh (last ▸ member)

include own in
/-- Every node keeps the key of its packet. -/
theorem keys_append (filed : Filed tree key homo read) :
    ∀ x ∈ read ++ [entry], key x.node = x.key := by
  intro x member
  rcases List.mem_append.mp member with old | new
  · exact filed.keys x old
  · rw [List.mem_singleton.mp new, own]

include own fresh

/-- `rb_insert` of a new key, and the circle of one node that goes with it. -/
theorem insert (filed : Filed tree key homo read) (balancing : Balancing Nat)
    (absent : front entry.key read = none) :
    tree.link key entry.key entry.node =
        (none, (tree.link key entry.key entry.node).2) ∧
      Filed (balancing.insertColor entry.node (tree.link key entry.key entry.node).2) key
        (homo.initListHead entry.node) (read ++ [entry]) := by
  have missing : tree.search key entry.key = none := by rw [filed.search_eq, absent]; rfl
  obtain ⟨sorted, members⟩ := BinTree.link_of_absent filed.sorted own missing
  constructor
  · rw [← missing, ← BinTree.link_fst tree entry.key entry.node]
  constructor
  case keys => exact filed.keys_append own
  case nodup => exact filed.nodup_append fresh
  case sorted => exact Balancing.sorted_insertColor balancing sorted
  case tree =>
    intro node
    rw [balancing.inorder_insertColor, members, filed.tree]
    constructor
    · rintro (rfl | ⟨k, oldest, atFront, rfl⟩)
      · exact ⟨entry.key, entry, by simp [front_append, absent, front_singleton], rfl⟩
      · exact ⟨k, oldest, by simp [front_append, atFront], rfl⟩
    · rintro ⟨k, oldest, atFront, rfl⟩
      rw [front_append] at atFront
      rcases Option.or_eq_some_iff.mp atFront with old | ⟨-, new⟩
      · exact .inr ⟨k, oldest, old, rfl⟩
      · rw [front_singleton] at new
        split at new
        · exact .inl (by rw [Option.some.inj new])
        · cases new
  case homo =>
    intro k
    rw [sameKey_append, sameKey_singleton]
    split
    case isTrue here =>
      subst here
      rw [sameKey_eq_nil.mpr (front_eq_none.mp absent)]
      exact Links.ring_initListHead _ _
    case isFalse =>
      rw [List.append_nil]
      apply (filed.homo k).initListHead
      intro member
      obtain ⟨x, inside, same⟩ := List.mem_map.mp member
      exact fresh (List.mem_map.mpr ⟨x, (mem_sameKey.mp inside).1, same⟩)

/-- `rb_insert` of a key already filed, and `list_add_tail` to the circle it found. -/
theorem wait (filed : Filed tree key homo read) (present : front entry.key read = some oldest) :
    tree.link key entry.key entry.node = (some oldest.node, tree) ∧
      Filed tree key (homo.listAddTail entry.node oldest.node) (read ++ [entry]) := by
  have found : tree.search key entry.key = some oldest.node := by
    rw [filed.search_eq, present]; rfl
  obtain ⟨rest, shape⟩ := sameKey_of_front present
  have circle : homo.Ring ((oldest :: rest).map Entry.node) := shape ▸ filed.homo entry.key
  have outside : ∀ k, entry.node ∉ (sameKey k read).map Entry.node := by
    intro k member
    obtain ⟨x, inside, same⟩ := List.mem_map.mp member
    exact fresh (List.mem_map.mpr ⟨x, (mem_sameKey.mp inside).1, same⟩)
  constructor
  · rw [Prod.ext_iff]
    exact ⟨(BinTree.link_fst ..).trans found, BinTree.link_of_search found⟩
  constructor
  case keys => exact filed.keys_append own
  case nodup => exact filed.nodup_append fresh
  case sorted => exact filed.sorted
  case tree =>
    intro node
    rw [filed.tree]
    constructor
    · rintro ⟨k, x, atFront, rfl⟩
      exact ⟨k, x, by simp [front_append, atFront], rfl⟩
    · rintro ⟨k, x, atFront, rfl⟩
      rw [front_append] at atFront
      rcases Option.or_eq_some_iff.mp atFront with old | ⟨none, new⟩
      · exact ⟨k, x, old, rfl⟩
      · rw [front_singleton] at new
        split at new
        case isTrue here =>
          subst here
          rw [present] at none
          cases none
        case isFalse => cases new
  case homo =>
    intro k
    rw [sameKey_append, sameKey_singleton]
    split
    case isTrue here =>
      subst here
      have nodup := nodup_sameKey entry.key filed.nodup
      have notIn := outside entry.key
      rw [shape] at nodup notIn ⊢
      rw [List.map_append]
      exact circle.listAddTail nodup notIn
    case isFalse different =>
      rw [List.append_nil]
      apply (filed.homo k).listAddTail_frame (filed.homo entry.key) _ _ (outside k)
      · rw [shape]
        exact List.mem_cons_self
      · exact filed.disjoint (Ne.symm different)

end Join

/-- `rb_erase` of the oldest packet of a key unfiles all packets of that key. -/
theorem erase (filed : Filed tree key homo read) (balancing : Balancing Nat)
    {k : Int} (present : front k read = some entry) :
    Filed (balancing.erase entry.node tree) key homo (otherKeys k read) := by
  obtain ⟨member, own⟩ := front_eq_some present
  have inTree : entry.node ∈ tree.inorder := (filed.tree _).mpr ⟨k, entry, present, rfl⟩
  constructor
  case keys =>
    intro x inside
    exact filed.keys x (mem_otherKeys.mp inside).1
  case nodup => exact List.Nodup.sublist (List.Sublist.map _ List.filter_sublist) filed.nodup
  case sorted => exact Balancing.sorted_erase balancing filed.sorted filed.sorted.nodup inTree
  case tree =>
    intro node
    rw [Balancing.mem_inorder_erase balancing filed.sorted.nodup inTree, filed.tree]
    constructor
    · rintro ⟨⟨k', x, atFront, rfl⟩, different⟩
      refine ⟨k', x, ?_, rfl⟩
      rw [front_otherKeys, if_neg]
      · exact atFront
      · rintro rfl
        rw [present] at atFront
        exact different (by rw [Option.some.inj atFront])
    · rintro ⟨k', x, atFront, rfl⟩
      rw [front_otherKeys] at atFront
      split at atFront
      case isTrue => cases atFront
      case isFalse different =>
        refine ⟨⟨k', x, atFront, rfl⟩, ?_⟩
        intro same
        obtain ⟨inside, xKey⟩ := front_eq_some atFront
        apply different
        rw [← xKey, ← own, ← filed.keys x inside, ← filed.keys entry member, same]
  case homo =>
    intro k'
    rw [sameKey_otherKeys]
    split
    · trivial
    · exact filed.homo k'

section Promote

variable {older younger : List (Entry β)} {next : Entry β} {rest : List (Entry β)}

/-- The circle of the oldest packet, when another one of its key waits. -/
theorem homo_cons (filed : Filed tree key homo read)
    (shape : sameKey entry.key read = entry :: rest) :
    homo.Ring (entry.node :: rest.map Entry.node) ∧
      (entry.node :: rest.map Entry.node).Nodup := by
  have ring := filed.homo entry.key
  have nodup := nodup_sameKey entry.key filed.nodup
  rw [shape] at ring nodup
  exact ⟨ring, nodup⟩

/-- `list_empty(&node->homo_list)`: no other packet of the key waits. -/
theorem listEmpty_iff (filed : Filed tree key homo read)
    (shape : sameKey entry.key read = entry :: rest) :
    listEmpty homo entry.node = true ↔ rest = [] := by
  obtain ⟨ring, nodup⟩ := filed.homo_cons shape
  simpa [listEmpty] using ring.next_eq_self_iff nodup

/-- `rb_replace_node` and `list_del`: the next packet of the key takes the place of the
oldest one. -/
theorem promote (filed : Filed tree key homo (older ++ entry :: younger))
    (oldest : sameKey entry.key older = []) (shape : sameKey entry.key younger = next :: rest) :
    homo.next entry.node = next.node ∧
      Filed (tree.replace entry.node next.node) key (homo.listDel 0 entry.node)
        (older ++ younger) := by
  have whole : sameKey entry.key (older ++ entry :: younger) = entry :: next :: rest := by
    rw [sameKey_append, oldest, sameKey_cons, if_pos rfl, shape]
    rfl
  have left : sameKey entry.key (older ++ younger) = next :: rest := by
    rw [sameKey_append, oldest, shape]
    rfl
  have others : ∀ k, k ≠ entry.key →
      sameKey k (older ++ younger) = sameKey k (older ++ entry :: younger) := by
    intro k different
    rw [sameKey_append, sameKey_append, sameKey_cons, if_neg (Ne.symm different)]
  obtain ⟨ring, nodup⟩ := filed.homo_cons whole
  have nextIn : next ∈ older ++ entry :: younger ∧ next.key = entry.key := by
    apply mem_sameKey.mp
    rw [whole]
    simp
  have entryIn : entry ∈ older ++ entry :: younger := by simp
  have kept : ∀ x ∈ older ++ younger, x ∈ older ++ entry :: younger := by
    intro x member
    simp only [List.mem_append] at member ⊢
    tauto
  have inTree : entry.node ∈ tree.inorder :=
    (filed.tree _).mpr ⟨entry.key, entry, front_of_sameKey whole, rfl⟩
  constructor
  · exact ring.next_first
  constructor
  case keys => exact fun x member => filed.keys x (kept x member)
  case nodup =>
    apply List.Nodup.sublist _ filed.nodup
    simp
  case sorted =>
    apply filed.sorted.replace
    rw [filed.keys next nextIn.1, filed.keys entry entryIn, nextIn.2]
  case tree =>
    intro node
    rw [BinTree.mem_inorder_replace inTree, filed.tree]
    constructor
    · rintro (rfl | ⟨⟨k, x, atFront, rfl⟩, different⟩)
      · exact ⟨entry.key, next, front_of_sameKey left, rfl⟩
      · refine ⟨k, x, ?_, rfl⟩
        have notOwn : k ≠ entry.key := by
          rintro rfl
          rw [front_of_sameKey whole] at atFront
          exact different (by rw [Option.some.inj atFront])
        rw [← head?_sameKey, others k notOwn, head?_sameKey, atFront]
    · rintro ⟨k, x, atFront, rfl⟩
      by_cases here : k = entry.key
      · subst here
        rw [front_of_sameKey left] at atFront
        exact .inl (by rw [Option.some.inj atFront])
      · right
        rw [← head?_sameKey, others k here, head?_sameKey] at atFront
        refine ⟨⟨k, x, atFront, rfl⟩, ?_⟩
        intro same
        obtain ⟨inside, xKey⟩ := front_eq_some atFront
        apply here
        rw [← xKey, ← filed.keys x inside, ← filed.keys entry entryIn, same]
  case homo =>
    intro k
    by_cases here : k = entry.key
    · subst here
      rw [left]
      exact ring.listDel_first nodup
    · rw [others k here]
      apply (filed.homo k).listDel_frame (filed.homo entry.key) _ (filed.disjoint here)
      rw [whole]
      exact List.mem_cons_self

end Promote

end Filed

end Taomee.Barrier
