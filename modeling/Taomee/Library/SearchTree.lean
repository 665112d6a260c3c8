import Mathlib.Data.List.Nodup
import Mathlib.Order.Lattice

/-!
# Search trees with an outside balancer

A binary tree of items that is searched by a key of theirs. Descending, linking a
new leaf and replacing an item are defined here. Rotations are not: a `Balancing`
is anything that keeps the in-order sequence, and erases an item from it.
-/

namespace Taomee.SearchTree

variable {ι κ : Type*}

inductive BinTree (ι : Type*) where
  | leaf
  | node (left : BinTree ι) (item : ι) (right : BinTree ι)

namespace BinTree

def inorder : BinTree ι → List ι
  | leaf => []
  | node left item right => left.inorder ++ item :: right.inorder

/-- The items stand in strictly increasing order of their keys. -/
def Sorted [LT κ] (key : ι → κ) (tree : BinTree ι) : Prop :=
  tree.inorder.Pairwise fun first second => key first < key second

section Descent

variable [LinearOrder κ] (key : ι → κ)

/-- Descend to the item with a key. -/
def search (wanted : κ) : BinTree ι → Option ι
  | leaf => none
  | node left item right =>
    if wanted < key item then left.search wanted
    else if key item < wanted then right.search wanted
    else some item

/-- Descend to the item with a key, and link `new` as a leaf where the descent ends
without finding one. -/
def link (wanted : κ) (new : ι) : BinTree ι → Option ι × BinTree ι
  | leaf => (none, node leaf new leaf)
  | node left item right =>
    if wanted < key item then
      let below := left.link wanted new
      (below.1, node below.2 item right)
    else if key item < wanted then
      let below := right.link wanted new
      (below.1, node left item below.2)
    else (some item, node left item right)

/-- The first item that passes a test: a node before its right subtree, and that
before its left one. -/
def searchBy (test : ι → Bool) : BinTree ι → Option ι
  | leaf => none
  | node left item right =>
    if test item then some item else (right.searchBy test).or (left.searchBy test)

variable {key}

theorem sorted_node {left right : BinTree ι} {item : ι} :
    (node left item right).Sorted key ↔
      left.Sorted key ∧ right.Sorted key ∧ (∀ x ∈ left.inorder, key x < key item) ∧
        (∀ x ∈ right.inorder, key item < key x) ∧
        ∀ x ∈ left.inorder, ∀ y ∈ right.inorder, key x < key y := by
  simp only [Sorted, inorder, List.pairwise_append, List.pairwise_cons, List.mem_cons,
    forall_eq_or_imp, forall_and]
  tauto

variable {tree : BinTree ι}

/-- No item is twice in a sorted tree. -/
theorem Sorted.nodup (sorted : tree.Sorted key) : tree.inorder.Nodup := by
  apply List.Pairwise.imp _ sorted
  intro first second less same
  exact lt_irrefl _ (same ▸ less)

/-- In a sorted tree the key determines the item. -/
theorem Sorted.eq_of_key_eq (sorted : tree.Sorted key) {first second : ι}
    (firstIn : first ∈ tree.inorder) (secondIn : second ∈ tree.inorder)
    (same : key first = key second) : first = second := by
  by_contra different
  have ordered := List.pairwise_iff_getElem.mp sorted
  obtain ⟨i, hi, rfl⟩ := List.getElem_of_mem firstIn
  obtain ⟨j, hj, rfl⟩ := List.getElem_of_mem secondIn
  rcases lt_trichotomy i j with before | equal | after
  · exact absurd same (ordered i j hi hj before).ne
  · subst equal
    exact different rfl
  · exact absurd same (ordered j i hj hi after).ne'

theorem Sorted.congr {changed : ι → κ} (sorted : tree.Sorted key)
    (same : ∀ item ∈ tree.inorder, changed item = key item) : tree.Sorted changed := by
  apply List.Pairwise.imp_of_mem _ sorted
  intro first second firstIn secondIn less
  rwa [same first firstIn, same second secondIn]

/-- The item with the key is found. -/
theorem search_eq_some (sorted : tree.Sorted key) {wanted : κ} {found : ι} :
    tree.search key wanted = some found ↔ found ∈ tree.inorder ∧ key found = wanted := by
  induction tree with
  | leaf => simp [search, inorder]
  | node left item right leftIh rightIh =>
    obtain ⟨leftSorted, rightSorted, below, above, -⟩ := sorted_node.mp sorted
    simp only [search, inorder, List.mem_append, List.mem_cons]
    split
    case isTrue less =>
      rw [leftIh leftSorted]
      constructor
      · rintro ⟨member, same⟩
        exact ⟨.inl member, same⟩
      · rintro ⟨member | rfl | member, rfl⟩
        · exact ⟨member, rfl⟩
        · exact absurd less (lt_irrefl _)
        · exact absurd (less.trans (above found member)) (lt_irrefl _)
    case isFalse notLess =>
      split
      case isTrue greater =>
        rw [rightIh rightSorted]
        constructor
        · rintro ⟨member, same⟩
          exact ⟨.inr (.inr member), same⟩
        · rintro ⟨member | rfl | member, rfl⟩
          · exact absurd (greater.trans (below found member)) (lt_irrefl _)
          · exact absurd greater (lt_irrefl _)
          · exact ⟨member, rfl⟩
      case isFalse notGreater =>
        have here : key item = wanted := le_antisymm (not_lt.mp notLess) (not_lt.mp notGreater)
        constructor
        · intro same
          obtain rfl := Option.some.inj same
          exact ⟨.inr (.inl rfl), here⟩
        · rintro ⟨member, same⟩
          have inside : found ∈ (node left item right).inorder := by simpa [inorder] using member
          rw [sorted.eq_of_key_eq inside (by simp [inorder]) (same.trans here.symm)]

/-- Nothing is found when no item has the key. -/
theorem search_eq_none (sorted : tree.Sorted key) {wanted : κ} :
    tree.search key wanted = none ↔ ∀ item ∈ tree.inorder, key item ≠ wanted := by
  rw [Option.eq_none_iff_forall_ne_some]
  constructor
  · intro never item member same
    exact never item ((search_eq_some sorted).mpr ⟨member, same⟩)
  · intro never item found
    obtain ⟨member, same⟩ := (search_eq_some sorted).mp found
    exact never item member same

/-- Linking finds what a search finds, and then leaves the tree alone. -/
theorem link_fst (tree : BinTree ι) (wanted : κ) (new : ι) :
    (tree.link key wanted new).1 = tree.search key wanted := by
  induction tree with
  | leaf => rfl
  | node left item right leftIh rightIh =>
    simp only [link, search]
    split
    · exact leftIh
    · split
      · exact rightIh
      · rfl

theorem link_of_search {wanted : κ} {new found : ι} (present : tree.search key wanted = some found)
    : (tree.link key wanted new).2 = tree := by
  induction tree with
  | leaf => cases present
  | node left item right leftIh rightIh =>
    simp only [link]
    simp only [search] at present
    split
    case isTrue less =>
      rw [if_pos less] at present
      rw [leftIh present]
    case isFalse notLess =>
      rw [if_neg notLess] at present
      split
      case isTrue greater =>
        rw [if_pos greater] at present
        rw [rightIh present]
      case isFalse => rfl

/-- A new key joins the in-order sequence, which stays sorted. -/
theorem link_of_absent {wanted : κ} {new : ι} (sorted : tree.Sorted key) (own : key new = wanted)
    (absent : tree.search key wanted = none) :
    (tree.link key wanted new).2.Sorted key ∧
      ∀ item, item ∈ (tree.link key wanted new).2.inorder ↔ item = new ∨ item ∈ tree.inorder := by
  induction tree with
  | leaf => simp [link, Sorted, inorder]
  | node left item right leftIh rightIh =>
    obtain ⟨leftSorted, rightSorted, below, above, across⟩ := sorted_node.mp sorted
    simp only [search] at absent
    simp only [link]
    split
    case isTrue less =>
      rw [if_pos less] at absent
      obtain ⟨grown, members⟩ := leftIh leftSorted absent
      constructor
      · rw [sorted_node]
        refine ⟨grown, rightSorted, ?_, above, ?_⟩
        · intro x member
          rcases (members x).mp member with rfl | old
          · exact own ▸ less
          · exact below x old
        · intro x member y other
          rcases (members x).mp member with rfl | old
          · exact (own ▸ less).trans (above y other)
          · exact across x old y other
      · simp only [inorder, List.mem_append, members]
        tauto
    case isFalse notLess =>
      rw [if_neg notLess] at absent
      split
      case isTrue greater =>
        rw [if_pos greater] at absent
        obtain ⟨grown, members⟩ := rightIh rightSorted absent
        constructor
        · rw [sorted_node]
          refine ⟨leftSorted, grown, below, ?_, ?_⟩
          · intro x member
            rcases (members x).mp member with rfl | old
            · exact own ▸ greater
            · exact above x old
          · intro x member y other
            rcases (members y).mp other with rfl | old
            · exact (below x member).trans (own ▸ greater)
            · exact across x member y old
        · simp only [inorder, List.mem_append, List.mem_cons, members]
          tauto
      case isFalse notGreater =>
        rw [if_neg notGreater] at absent
        cases absent

end Descent

/-- What is found passes the test. -/
theorem searchBy_eq_some {test : ι → Bool} {tree : BinTree ι} {found : ι}
    (result : tree.searchBy test = some found) : found ∈ tree.inorder ∧ test found := by
  induction tree with
  | leaf => cases result
  | node left item right leftIh rightIh =>
    simp only [searchBy] at result
    simp only [inorder, List.mem_append, List.mem_cons]
    split at result
    case isTrue passes =>
      obtain rfl := Option.some.inj result
      exact ⟨.inr (.inl rfl), passes⟩
    case isFalse =>
      rcases Option.or_eq_some_iff.mp result with onRight | ⟨-, onLeft⟩
      · exact ⟨.inr (.inr (rightIh onRight).1), (rightIh onRight).2⟩
      · exact ⟨.inl (leftIh onLeft).1, (leftIh onLeft).2⟩

/-- When nothing is found no item passes. -/
theorem searchBy_eq_none {test : ι → Bool} {tree : BinTree ι} (result : tree.searchBy test = none)
    {item : ι} (member : item ∈ tree.inorder) : test item = false := by
  induction tree with
  | leaf => cases member
  | node left here right leftIh rightIh =>
    simp only [searchBy] at result
    simp only [inorder, List.mem_append, List.mem_cons] at member
    split at result
    case isTrue => cases result
    case isFalse fails =>
      obtain ⟨onRight, onLeft⟩ := Option.or_eq_none_iff.mp result
      rcases member with onLeftSide | rfl | onRightSide
      · exact leftIh onLeft onLeftSide
      · simpa using fails
      · exact rightIh onRight onRightSide

section Replace

variable [DecidableEq ι]

/-- Put `new` where `old` stood. -/
def replace (old new : ι) : BinTree ι → BinTree ι
  | leaf => leaf
  | node left item right =>
    node (left.replace old new) (if item = old then new else item) (right.replace old new)

theorem inorder_replace (tree : BinTree ι) (old new : ι) :
    (tree.replace old new).inorder
      = tree.inorder.map fun item => if item = old then new else item := by
  induction tree with
  | leaf => rfl
  | node left item right leftIh rightIh => simp [replace, inorder, leftIh, rightIh]

theorem mem_inorder_replace {tree : BinTree ι} {old new item : ι} (present : old ∈ tree.inorder) :
    item ∈ (tree.replace old new).inorder ↔ item = new ∨ (item ∈ tree.inorder ∧ item ≠ old) := by
  rw [inorder_replace, List.mem_map]
  constructor
  · rintro ⟨x, member, rfl⟩
    split
    case isTrue => exact .inl rfl
    case isFalse different => exact .inr ⟨member, different⟩
  · rintro (rfl | ⟨member, different⟩)
    · exact ⟨old, present, if_pos rfl⟩
    · exact ⟨item, member, if_neg different⟩

/-- An item of the same key may take another's place. -/
theorem Sorted.replace [LT κ] {key : ι → κ} {tree : BinTree ι} (sorted : tree.Sorted key)
    {old new : ι} (same : key new = key old) : (tree.replace old new).Sorted key := by
  have keys : ∀ item, key (if item = old then new else item) = key item := by
    intro item
    split
    case isTrue here => rw [here, same]
    case isFalse => rfl
  rw [Sorted, inorder_replace, List.pairwise_map]
  simp only [keys]
  exact sorted

end Replace

end BinTree

/-- A balancer: what it does to the shape is its own affair. -/
structure Balancing (ι : Type*) [DecidableEq ι] where
  insertColor : ι → BinTree ι → BinTree ι
  erase : ι → BinTree ι → BinTree ι
  inorder_insertColor : ∀ item tree, (insertColor item tree).inorder = tree.inorder
  inorder_erase : ∀ item tree, item ∈ tree.inorder → tree.inorder.Nodup →
    (erase item tree).inorder = tree.inorder.erase item

namespace Balancing

/-- Hang `right` below the last item of the other tree. -/
def join (right : BinTree ι) : BinTree ι → BinTree ι
  | .leaf => right
  | .node left item below => .node left item (join right below)

theorem inorder_join (right left : BinTree ι) :
    (join right left).inorder = left.inorder ++ right.inorder := by
  induction left with
  | leaf => rfl
  | node left item below _ ih => simp [join, BinTree.inorder, ih]

variable [DecidableEq ι]

/-- Take an item out and join its two subtrees. -/
def unhang (gone : ι) : BinTree ι → BinTree ι
  | .leaf => .leaf
  | .node left item right =>
    if item = gone then join right left else .node (unhang gone left) item (unhang gone right)

/-- The item goes, and the others keep their order. -/
theorem inorder_unhang {gone : ι} (nodup : tree.inorder.Nodup) :
    (unhang gone tree).inorder = tree.inorder.erase gone := by
  induction tree with
  | leaf => rfl
  | node left item right leftIh rightIh =>
    obtain ⟨leftNodup, hereNodup, apart⟩ := List.nodup_append.mp nodup
    obtain ⟨notRight, rightNodup⟩ := List.nodup_cons.mp hereNodup
    simp only [unhang]
    split
    case isTrue here =>
      subst here
      have notLeft : item ∉ left.inorder := fun member => apart _ member _ (by simp) rfl
      rw [inorder_join, BinTree.inorder, List.erase_append_right _ notLeft, List.erase_cons_head]
    case isFalse different =>
      simp only [BinTree.inorder]
      rw [leftIh leftNodup, rightIh rightNodup]
      by_cases inLeft : gone ∈ left.inorder
      · have notInRight : gone ∉ right.inorder :=
          fun member => apart _ inLeft _ (List.mem_cons_of_mem _ member) rfl
        rw [List.erase_append_left _ inLeft, List.erase_of_not_mem notInRight]
      · rw [List.erase_append_right _ inLeft, List.erase_cons_tail (by simpa using different),
          List.erase_of_not_mem inLeft]

/-- The balancer that never rotates. -/
def still : Balancing ι where
  insertColor _ tree := tree
  erase := unhang
  inorder_insertColor _ _ := rfl
  inorder_erase _ _ _ nodup := inorder_unhang nodup

variable [LT κ] {key : ι → κ} {tree : BinTree ι} {item : ι}

/-- Balancing after an insertion keeps the order. -/
theorem sorted_insertColor (balancing : Balancing ι) (sorted : tree.Sorted key) :
    (balancing.insertColor item tree).Sorted key := by
  rwa [BinTree.Sorted, balancing.inorder_insertColor]

/-- Erasing keeps the order. -/
theorem sorted_erase (balancing : Balancing ι) (sorted : tree.Sorted key)
    (nodup : tree.inorder.Nodup) (present : item ∈ tree.inorder) :
    (balancing.erase item tree).Sorted key := by
  rw [BinTree.Sorted, balancing.inorder_erase item tree present nodup]
  exact List.Pairwise.sublist List.erase_sublist sorted

/-- The items left are the others. -/
theorem mem_inorder_erase (balancing : Balancing ι) (nodup : tree.inorder.Nodup)
    (present : item ∈ tree.inorder) {other : ι} :
    other ∈ (balancing.erase item tree).inorder ↔ other ∈ tree.inorder ∧ other ≠ item := by
  rw [balancing.inorder_erase item tree present nodup, nodup.mem_erase_iff]
  tauto

end Balancing

end Taomee.SearchTree
