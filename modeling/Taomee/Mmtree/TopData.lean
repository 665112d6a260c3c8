import Taomee.Library.Rearrangement
import Taomee.Mmtree.Nonzero
import Taomee.Mmtree.Traversal

/-!
# The keys with the greatest data

`output_top_data` collects the keys with data that are not 0 in a block that has room for as many
as the counter says, sorts the block down to the first `num` entries and copies these. `quicksort`
leaves out the parts of the block that only hold later entries.
-/

namespace Taomee.Mmtree

open RBTree RBTree.RBNode RBTree.RBColor RedBlack Rearrangement

/-- `mt_key_data_t` -/
structure KeyData where
  key : Int
  data : Int32
  deriving DecidableEq

/-- What `calloc` leaves in an entry. -/
def KeyData.zero : KeyData := ⟨0, 0⟩

def compareKeyData (d₁ d₂ : KeyData) : Int :=
  if d₁.data > d₂.data then 1 else if d₁.data = d₂.data then 0 else -1

def swapKeyData (p : Nat → KeyData) (a b : Nat) : Nat → KeyData :=
  let tmp := p a
  Function.update (Function.update p a (p b)) b tmp

/-- The loop of `quicksort`: the block, `k` and `r`. -/
def partitionLoop (lo : Nat) :
    Nat → (Nat → KeyData) → Nat → Nat → Option ((Nat → KeyData) × Nat × Nat)
  | 0, _, _, _ => none
  | fuel + 1, p, k, r =>
    if k < r then
      if compareKeyData (p k) (p lo) = 1 then partitionLoop lo fuel p (k + 1) r
      else partitionLoop lo fuel (swapKeyData p k r) k (r - 1)
    else some (p, k, r)

/-- `num - 1` in a `uint32_t`. -/
def lastWanted (num : Nat) : Nat := if num = 0 then 2 ^ 32 - 1 else num - 1

/-- `quicksort` -/
def quicksort : Nat → (Nat → KeyData) → Nat → Nat → Nat → Option (Nat → KeyData)
  | 0, _, _, _, _ => none
  | fuel + 1, p, lo, hi, num =>
    if hi ≥ lo + 1 then do
      let (p, k, r) ← partitionLoop lo hi p (lo + 1) hi
      if compareKeyData (p k) (p lo) = 1 then
        let p ← quicksort fuel (swapKeyData p k lo) lo k num
        if k < lastWanted num then quicksort fuel p r hi num else some p
      else if hi - lo = 1 then some p
      else
        let k := k - 1
        let p ← quicksort fuel (swapKeyData p k lo) lo k num
        if k < lastWanted num then quicksort fuel p r hi num else some p
    else some p

/-- `get_node_cb` with `param_output_t`, the next index and the block of `nodeCount` entries. An
entry behind the block would be a fault. -/
def getNodeCb (nodeCount : Nat) (key : Int) (data : Int32) (param : Nat × (Nat → KeyData)) :
    Option (Nat × (Nat → KeyData)) :=
  if data = 0 then some param
  else
    let (index, pBuf) := param
    if index < nodeCount then some (index + 1, Function.update pBuf index ⟨key, data⟩) else none

/-- `output_top_data`: the object, the return value, `*num` and the entries in `p_buf`. The first
argument says whether `calloc` succeeds; reading the counter of an object that has lost its
`m_state` is a fault. -/
def CMmtree.outputTopData (callocOk : Bool) (t : CMmtree) (num : Nat) :
    Option (CMmtree × Int × Nat × List KeyData) :=
  if t.mapped = false then none
  else
    let nodeCount := t.getNonzeroNum.toNat
    let num := if nodeCount < num then nodeCount else num
    if nodeCount = 0 then some (t, 0, num, [])
    else if callocOk = false then some (t, -1, num, [])
    else do
      let (t, ret, param) ← t.traversal (getNodeCb nodeCount) (0, fun _ => KeyData.zero)
      if ret ≠ 0 then some (t, -1, num, [])
      else
        let p ← quicksort (2 * nodeCount) param.2 0 (nodeCount - 1) num
        some (t, 0, num, (List.range num).map p)

/-! ## Sorting -/

variable {p q : Nat → KeyData} {lo hi lim k r : Nat}

theorem compareKeyData_eq_one {d₁ d₂ : KeyData} : compareKeyData d₁ d₂ = 1 ↔ d₂.data < d₁.data := by
  unfold compareKeyData
  split
  case isTrue more => simp [more]
  case isFalse less => split <;> simp [less]

theorem swapKeyData_eq (p : Nat → KeyData) (a b : Nat) :
    swapKeyData p a b = p ∘ Equiv.swap a b := by
  funext i
  unfold swapKeyData
  simp only [Function.comp_apply, Equiv.swap_apply_def]
  by_cases first : i = a
  · subst first
    by_cases second : i = b
    · subst second
      simp
    · simp [second]
  · by_cases second : i = b
    · subst second
      simp [first]
    · simp [first, second]

/-- Of the entries from `lo` to `hi`, those up to `lim` come in descending order before the
others. -/
def Descends (p : Nat → KeyData) (lo hi lim : Nat) : Prop :=
  ∀ i j, lo ≤ i → i < j → j ≤ hi → i ≤ lim → (p j).data ≤ (p i).data

/-- The loop puts greater entries than the first in front, and the others behind `k`. -/
theorem partitionLoop_spec (fuel : Nat) (first : lo < k) (order : k ≤ r) (within : r ≤ hi)
    (enough : r - k < fuel) (front : ∀ i, lo < i → i < k → (p lo).data < (p i).data)
    (behind : ∀ i, r < i → i ≤ hi → (p i).data ≤ (p lo).data) :
    ∃ q k', partitionLoop lo fuel p k r = some (q, k', k') ∧ (k ≤ k' ∧ k' ≤ r) ∧
      Rearranges p q k r ∧ (∀ i, lo < i → i < k' → (q lo).data < (q i).data) ∧
      (∀ i, k' < i → i ≤ hi → (q i).data ≤ (q lo).data) ∧ (k' < r ∨ q = p) := by
  induction fuel generalizing p k r with
  | zero => omega
  | succ fuel ih =>
    rw [partitionLoop]
    by_cases more : k < r
    case neg =>
      obtain rfl : k = r := by omega
      exact ⟨p, k, by simp, by omega, .refl, front, behind, .inr rfl⟩
    rw [if_pos more]
    by_cases greater : compareKeyData (p k) (p lo) = 1
    · rw [if_pos greater]
      have before : ∀ i, lo < i → i < k + 1 → (p lo).data < (p i).data := by
        intro i above below
        rcases Nat.lt_or_ge i k with earlier | here
        · exact front i above earlier
        · obtain rfl : i = k := by omega
          exact compareKeyData_eq_one.mp greater
      obtain ⟨q, k', result, between, moved, front', behind', ends⟩ :=
        ih (by omega) (by omega) within (by omega) before behind
      refine ⟨q, k', result, by omega, ?_, front', behind', ends⟩
      exact moved.widen (by omega) (Nat.le_refl _)
    · rw [if_neg greater, swapKeyData_eq]
      have less : (p k).data ≤ (p lo).data := by
        rw [compareKeyData_eq_one] at greater
        exact Int32.not_lt.mp greater
      have kept (i : Nat) (notK : i ≠ k) (notR : i ≠ r) : (p ∘ Equiv.swap k r) i = p i := by
        rw [Function.comp_apply, Equiv.swap_apply_of_ne_of_ne notK notR]
      have pivot : (p ∘ Equiv.swap k r) lo = p lo := kept lo (by omega) (by omega)
      have before : ∀ i, lo < i → i < k →
          ((p ∘ Equiv.swap k r) lo).data < ((p ∘ Equiv.swap k r) i).data := by
        intro i above below
        rw [pivot, kept i (by omega) (by omega)]
        exact front i above below
      have after : ∀ i, r - 1 < i → i ≤ hi →
          ((p ∘ Equiv.swap k r) i).data ≤ ((p ∘ Equiv.swap k r) lo).data := by
        intro i above below
        rw [pivot]
        rcases Nat.lt_or_ge r i with later | here
        · rw [kept i (by omega) (by omega)]
          exact behind i later below
        · obtain rfl : i = r := by omega
          rw [Function.comp_apply, Equiv.swap_apply_right]
          exact less
      obtain ⟨q, k', result, between, moved, front', behind', -⟩ :=
        ih first (by omega) (by omega) (by omega) before after
      refine ⟨q, k', result, by omega, ?_, front', behind', .inl (by omega)⟩
      exact (Rearranges.swap ⟨Nat.le_refl _, order⟩ ⟨order, Nat.le_refl _⟩).trans
        (moved.widen (Nat.le_refl _) (by omega))

/-- Entries of at least some datum before entries of at most that: when the front is sorted, and
the back if it is wanted, so is the whole. -/
theorem descends_of_halves {fuel num : Nat} {v : Int32}
    (order : lo ≤ k ∧ k ≤ r ∧ r ≤ k + 1 ∧ r ≤ hi) (above : ∀ i, lo ≤ i → i ≤ k → v ≤ (p i).data)
    (below : ∀ i, k ≤ i → i ≤ hi → (p i).data ≤ v)
    (left : ∃ q, quicksort fuel p lo k num = some q ∧ Rearranges p q lo k ∧
      Descends q lo k (lastWanted num))
    (right : ∀ q, ∃ q', quicksort fuel q r hi num = some q' ∧ Rearranges q q' r hi ∧
      Descends q' r hi (lastWanted num)) :
    ∃ q, (do
        let p ← quicksort fuel p lo k num
        if k < lastWanted num then quicksort fuel p r hi num else some p) = some q ∧
      Rearranges p q lo hi ∧ Descends q lo hi (lastWanted num) := by
  obtain ⟨q, sortedLeft, moved, descends⟩ := left
  rw [sortedLeft, Option.bind_eq_bind, Option.bind_some]
  have aboveLeft : ∀ i, lo ≤ i → i ≤ k → v ≤ (q i).data := fun i low high =>
    moved.all (fun d => v ≤ d.data) above low high
  have belowLeft : ∀ i, k < i → i ≤ hi → (q i).data ≤ v := by
    intro i past within
    rw [moved.outside (.inr past)]
    exact below i past.le within
  by_cases wanted : k < lastWanted num
  case neg =>
    rw [if_neg wanted]
    refine ⟨q, rfl, moved.widen (Nat.le_refl _) (by omega), ?_⟩
    intro i j low less high inLim
    rcases Nat.lt_or_ge k j with past | inside
    · exact Int32.le_trans (belowLeft j past high) (aboveLeft i low (by omega))
    · exact descends i j low less inside inLim
  rw [if_pos wanted]
  -- The whole front is sorted, so its last entry is a least one.
  have least : (q k).data ≤ v := by
    obtain ⟨j, ⟨low, high⟩, same⟩ := moved.symm.exists_cell ⟨order.1, Nat.le_refl k⟩
    have bound := below k (Nat.le_refl k) (by omega)
    rw [same] at bound
    rcases Nat.lt_or_ge j k with earlier | here
    · exact Int32.le_trans (descends j k low earlier (Nat.le_refl k) (by omega)) bound
    · obtain rfl : j = k := by omega
      exact bound
  have belowRight : ∀ i, r ≤ i → i ≤ hi → (q i).data ≤ v := by
    intro i low high
    rcases Nat.lt_or_ge k i with past | here
    · exact belowLeft i past high
    · obtain rfl : i = k := by omega
      exact least
  obtain ⟨q', sortedRight, moved', descends'⟩ := right q
  refine ⟨q', sortedRight, ?_, ?_⟩
  · exact (moved.widen (Nat.le_refl _) (by omega)).trans (moved'.widen (by omega) (Nat.le_refl _))
  intro i j low less high inLim
  rcases Nat.lt_or_ge i r with early | late
  · rw [moved'.outside (.inl early)]
    rcases Nat.lt_or_ge j r with early' | late'
    · rw [moved'.outside (.inl early')]
      exact descends i j low less (by omega) inLim
    · have small := moved'.all (fun d => d.data ≤ v) belowRight late' high
      exact Int32.le_trans small (aboveLeft i low (by omega))
  · exact descends' i j late less high inLim

/-- The first entry changes places with the last of those that are at least as great. -/
theorem pivot_placed (within : lo ≤ k ∧ k ≤ hi)
    (front : ∀ i, lo < i → i ≤ k → (q lo).data ≤ (q i).data)
    (behind : ∀ i, k < i → i ≤ hi → (q i).data ≤ (q lo).data) :
    (∀ i, lo ≤ i → i ≤ k → (q lo).data ≤ ((q ∘ Equiv.swap k lo) i).data) ∧
      (∀ i, k ≤ i → i ≤ hi → ((q ∘ Equiv.swap k lo) i).data ≤ (q lo).data) := by
  have atLast : (q ∘ Equiv.swap k lo) k = q lo := by simp
  have atFirst : (q ∘ Equiv.swap k lo) lo = q k := by simp
  have kept (i : Nat) (notLast : i ≠ k) (notFirst : i ≠ lo) :
      (q ∘ Equiv.swap k lo) i = q i := by
    rw [Function.comp_apply, Equiv.swap_apply_of_ne_of_ne notLast notFirst]
  constructor
  · intro i low high
    by_cases last : i = k
    · rw [last, atLast]
      exact Int32.le_refl _
    by_cases first : i = lo
    · rw [first, atFirst]
      exact front k (by omega) (Nat.le_refl k)
    · rw [kept i last first]
      exact front i (by omega) high
  · intro i low high
    by_cases last : i = k
    · rw [last, atLast]
      exact Int32.le_refl _
    · rw [kept i last (by omega)]
      exact behind i (by omega) high

/-- `quicksort` ends; it rearranges the entries from `lo` to `hi`, with the greatest up to
`num - 1` first and in descending order. -/
theorem quicksort_spec (fuel num : Nat) (order : lo ≤ hi)
    (enough : 2 * (hi - lo) + (if (p hi).data < (p lo).data then 0 else 1) < fuel) :
    ∃ q, quicksort fuel p lo hi num = some q ∧ Rearranges p q lo hi ∧
      Descends q lo hi (lastWanted num) := by
  induction fuel generalizing p lo hi with
  | zero => omega
  | succ fuel ih =>
    rw [quicksort]
    by_cases more : hi ≥ lo + 1
    case neg =>
      rw [if_neg more]
      exact ⟨p, rfl, .refl, fun i j low less high _ => by omega⟩
    rw [if_pos more]
    obtain ⟨q, k, result, ⟨low, high⟩, moved, front, behind, ends⟩ :=
      partitionLoop_spec (p := p) hi (Nat.lt_succ_self lo) more
        (Nat.le_refl hi) (by omega) (fun i _ _ => by omega) (fun i _ _ => by omega)
    rw [result, Option.bind_eq_bind, Option.bind_some]
    simp only [swapKeyData_eq]
    have anyOrder (p : Nat → KeyData) (i j : Nat) :
        (if (p j).data < (p i).data then 0 else 1) ≤ 1 := by
      split <;> omega
    have shorter (p : Nat → KeyData) {i j : Nat} (within : i ≤ j) (less : j - i < hi - lo) :
        ∃ q, quicksort fuel p i j num = some q ∧ Rearranges p q i j ∧
          Descends q i j (lastWanted num) := by
      apply ih within
      have := anyOrder p i j
      omega
    have sameRange : Rearranges p q lo hi := moved.widen (Nat.le_succ lo) (Nat.le_refl hi)
    by_cases greater : compareKeyData (q k) (q lo) = 1
    · rw [if_pos greater]
      rw [compareKeyData_eq_one] at greater
      have frontTo : ∀ i, lo < i → i ≤ k → (q lo).data ≤ (q i).data := by
        intro i past upTo
        rcases Nat.lt_or_ge i k with less | here
        · exact Int32.le_of_lt (front i past less)
        · obtain rfl : i = k := by omega
          exact Int32.le_of_lt greater
      obtain ⟨above, below⟩ := pivot_placed ⟨by omega, high⟩ frontTo behind
      -- The least entry of the range goes to its end: the same range can come back only once.
      have left : ∃ q', quicksort fuel (q ∘ Equiv.swap k lo) lo k num = some q' ∧
          Rearranges (q ∘ Equiv.swap k lo) q' lo k ∧ Descends q' lo k (lastWanted num) := by
        apply ih (by omega)
        have falls : ((q ∘ Equiv.swap k lo) k).data < ((q ∘ Equiv.swap k lo) lo).data := by
          simpa using greater
        rw [if_pos falls]
        rcases ends with less | rfl
        · omega
        · rcases Nat.lt_or_ge k hi with less | here
          · omega
          · obtain rfl : k = hi := by omega
            rw [if_neg (Int32.not_lt.mpr (Int32.le_of_lt greater))] at enough
            omega
      obtain ⟨q', sorted, moved', descends⟩ := descends_of_halves
        (show lo ≤ k ∧ k ≤ k ∧ k ≤ k + 1 ∧ k ≤ hi by omega) above below left
        fun p => shorter p high (by omega)
      have swapped : Rearranges q (q ∘ Equiv.swap k lo) lo hi :=
        Rearranges.swap ⟨by omega, high⟩ ⟨Nat.le_refl lo, order⟩
      exact ⟨q', sorted, (sameRange.trans swapped).trans moved', descends⟩
    · rw [if_neg greater]
      rw [compareKeyData_eq_one] at greater
      have less : (q k).data ≤ (q lo).data := Int32.not_lt.mp greater
      by_cases two : hi - lo = 1
      · rw [if_pos two]
        refine ⟨q, rfl, sameRange, ?_⟩
        intro i j first before last _
        obtain ⟨rfl, rfl⟩ : i = lo ∧ j = k := by omega
        exact less
      rw [if_neg two]
      have behindFrom : ∀ i, k - 1 < i → i ≤ hi → (q i).data ≤ (q lo).data := by
        intro i past upTo
        rcases Nat.lt_or_ge k i with later | here
        · exact behind i later upTo
        · obtain rfl : i = k := by omega
          exact less
      obtain ⟨above, below⟩ := pivot_placed (k := k - 1) ⟨by omega, by omega⟩
        (fun i past upTo => Int32.le_of_lt (front i past (by omega))) behindFrom
      obtain ⟨q', sorted, moved', descends⟩ := descends_of_halves
        (show lo ≤ k - 1 ∧ k - 1 ≤ k ∧ k ≤ k - 1 + 1 ∧ k ≤ hi by omega) above below
        (shorter _ (by omega) (by omega)) fun p => shorter p high (by omega)
      have swapped : Rearranges q (q ∘ Equiv.swap (k - 1) lo) lo hi :=
        Rearranges.swap ⟨by omega, by omega⟩ ⟨Nat.le_refl lo, order⟩
      exact ⟨q', sorted, (sameRange.trans swapped).trans moved', descends⟩

/-! ## The greatest entries -/

/-- The entries of the items whose data are not 0. -/
def entries (items : List Slot) : List KeyData :=
  (items.filter fun s => s.data ≠ 0).map fun s => ⟨s.key, s.data⟩

/-- Up to `num` of the entries of some items, the greatest first. -/
structure TopData (items : List Slot) (num : Nat) (out : List KeyData) : Prop where
  length : out.length = min num (nonzeroNum items)
  stored : ∀ e ∈ out, e.data ≠ 0 ∧ ∃ s ∈ items, s.key = e.key ∧ s.data = e.data
  distinct : (out.map KeyData.key).Nodup
  sorted : out.Pairwise fun e e' => e'.data ≤ e.data
  greatest : ∀ s ∈ items, s.data ≠ 0 → ⟨s.key, s.data⟩ ∉ out → ∀ e ∈ out, s.data ≤ e.data

section Entries

variable {items : List Slot} {out rest : List KeyData} {num ahead : Nat} {e : KeyData}

theorem length_entries (items : List Slot) : (entries items).length = nonzeroNum items := by
  rw [entries, List.length_map, nonzeroNum, List.countP_eq_length_filter]

theorem mem_entries :
    e ∈ entries items ↔ e.data ≠ 0 ∧ ∃ s ∈ items, s.key = e.key ∧ s.data = e.data := by
  simp only [entries, List.mem_map, List.mem_filter, decide_eq_true_eq]
  constructor
  · rintro ⟨s, ⟨member, nonzero⟩, rfl⟩
    exact ⟨nonzero, s, member, rfl, rfl⟩
  · rintro ⟨nonzero, s, member, key, data⟩
    exact ⟨s, ⟨member, data ▸ nonzero⟩, by rw [key, data]⟩

theorem positive_entries (items : List Slot) :
    (entries items).countP (fun e => 0 < e.data) = items.countP fun s => 0 < s.data := by
  rw [entries, List.countP_map, List.countP_filter]
  apply List.countP_congr
  intro s _
  simp only [Function.comp_apply, Bool.and_eq_true, decide_eq_true_eq, and_iff_left_iff_imp]
  exact fun positive => (Int32.ne_of_lt positive).symm

/-- Sorted entries whose data are all not 0 are the greatest. -/
theorem topData_of_nonzero (keys : (items.map Slot.key).Pairwise (· < ·))
    (perm : (out ++ rest).Perm (entries items ++ List.replicate ahead KeyData.zero))
    (sorted : out.Pairwise fun e e' => e'.data ≤ e.data)
    (greatest : ∀ e ∈ out, ∀ e' ∈ rest, e'.data ≤ e.data)
    (length : out.length = min num (nonzeroNum items)) (nonzero : ∀ e ∈ out, e.data ≠ 0) :
    TopData items num out := by
  have counted : (out ++ rest.filter fun e => e.data ≠ 0).Perm (entries items) := by
    have filtered := perm.filter fun e => e.data ≠ 0
    have kept : out.filter (fun e => e.data ≠ 0) = out :=
      List.filter_eq_self.mpr fun e member => decide_eq_true (nonzero e member)
    have whole : (entries items).filter (fun e => e.data ≠ 0) = entries items :=
      List.filter_eq_self.mpr fun e member => decide_eq_true (mem_entries.mp member).1
    have zeros : (List.replicate ahead KeyData.zero).filter (fun e => e.data ≠ 0) = [] := by
      simp [KeyData.zero]
    rwa [List.filter_append, List.filter_append, kept, whole, zeros, List.append_nil] at filtered
  have members : ∀ e ∈ out, e ∈ entries items := fun e member =>
    counted.mem_iff.mp (List.mem_append_left _ member)
  refine ⟨length, fun e member => mem_entries.mp (members e member), ?_, sorted, ?_⟩
  · have apart : ((entries items).map KeyData.key).Nodup := by
      have order : ((items.filter fun s => s.data ≠ 0).map Slot.key).Nodup :=
        ((keys.imp fun less => less.ne).sublist (List.filter_sublist.map Slot.key))
      rw [entries, List.map_map]
      exact order
    have keysOut := (counted.map KeyData.key).nodup_iff.mpr apart
    rw [List.map_append] at keysOut
    exact keysOut.of_append_left
  · intro s member nonzeroData leftOut e inOut
    have inEntries : (⟨s.key, s.data⟩ : KeyData) ∈ entries items :=
      mem_entries.mpr ⟨nonzeroData, s, member, rfl, rfl⟩
    rcases List.mem_append.mp (counted.mem_iff.mpr inEntries) with inOut' | inRest
    · exact absurd inOut' leftOut
    · exact greatest e inOut _ (List.mem_filter.mp inRest).1

/-- With zero entries in the block, the first entries are the greatest that are stored precisely
when they are all positive. -/
theorem topData_iff (keys : (items.map Slot.key).Pairwise (· < ·))
    (perm : (out ++ rest).Perm (entries items ++ List.replicate ahead KeyData.zero))
    (sorted : out.Pairwise fun e e' => e'.data ≤ e.data)
    (greatest : ∀ e ∈ out, ∀ e' ∈ rest, e'.data ≤ e.data)
    (length : out.length = min num (nonzeroNum items + ahead)) :
    TopData items num out ↔ ahead = 0 ∨ num ≤ items.countP fun s => 0 < s.data := by
  have positives : out.countP (fun e => 0 < e.data) + rest.countP (fun e => 0 < e.data) =
      items.countP fun s => 0 < s.data := by
    have counted := perm.countP_eq fun e => 0 < e.data
    have zeros : (List.replicate ahead KeyData.zero).countP (fun e => 0 < e.data) = 0 := by
      simp [KeyData.zero]
    rwa [List.countP_append, List.countP_append, positive_entries, zeros, Nat.add_zero] at counted
  have fewer : (items.countP fun s => 0 < s.data) ≤ nonzeroNum items := by
    apply List.countP_mono_left
    intro s _ positive
    rw [decide_eq_true_eq] at positive ⊢
    exact (Int32.ne_of_lt positive).symm
  have bound : out.countP (fun e => 0 < e.data) ≤ out.length := List.countP_le_length
  constructor
  · intro top
    by_contra neither
    obtain ⟨some, more⟩ := not_or.mp neither
    -- One of the entries is not positive, and the zeros of the block come before it.
    obtain ⟨e, member, small⟩ : ∃ e ∈ out, ¬ 0 < e.data := by
      by_contra all
      push Not at all
      have every : out.countP (fun e => 0 < e.data) = out.length :=
        List.countP_eq_length.mpr fun e member => decide_eq_true (all e member)
      omega
    have inBlock : KeyData.zero ∈ out ++ rest := by
      apply perm.mem_iff.mpr
      exact List.mem_append_right _ (List.mem_replicate.mpr ⟨some, rfl⟩)
    rcases List.mem_append.mp inBlock with inOut | inRest
    · exact (top.stored _ inOut).1 rfl
    · have zeroBelow : (0 : Int32) ≤ e.data := greatest e member _ inRest
      have zero : e.data = 0 := Int32.le_antisymm (Int32.not_lt.mp small) zeroBelow
      exact (top.stored e member).1 zero
  · rintro (none | few)
    · subst none
      apply topData_of_nonzero keys perm sorted greatest length
      intro e member
      have inEntries := perm.mem_iff.mp (List.mem_append_left rest member)
      rw [List.replicate_zero, List.append_nil] at inEntries
      exact (mem_entries.mp inEntries).1
    · apply topData_of_nonzero keys perm sorted greatest (by omega)
      intro e member zero
      have low : rest.countP (fun e => 0 < e.data) = 0 := by
        apply List.countP_eq_zero.mpr
        intro e' inRest
        have below := greatest e member e' inRest
        rw [zero] at below
        simpa using Int32.not_lt.mpr below
      have every : out.countP (fun e => 0 < e.data) = out.length := by omega
      have positive := List.countP_eq_length.mp every e member
      rw [decide_eq_true_eq, zero] at positive
      exact Int32.lt_irrefl positive

end Entries

/-! ## The block -/

/-- The block with some entries written at its start. -/
def blockOf (written : List KeyData) (i : Nat) : KeyData := written.getD i KeyData.zero

theorem update_blockOf (written : List KeyData) (e : KeyData) :
    Function.update (blockOf written) written.length e = blockOf (written ++ [e]) := by
  funext i
  rw [Function.update_apply]
  rcases Nat.lt_trichotomy i written.length with before | rfl | after
  · rw [if_neg before.ne]
    simp [blockOf, List.getElem?_append_left before]
  · simp [blockOf]
  · rw [if_neg after.ne']
    simp only [blockOf, List.getD_eq_getElem?_getD]
    rw [List.getElem?_eq_none after.le, List.getElem?_eq_none (by simp; omega)]

/-- `get_node_cb` over some items writes their entries. -/
theorem foldlM_getNodeCb (nodeCount : Nat) (items : List Slot) (written : List KeyData)
    (room : written.length + nonzeroNum items ≤ nodeCount) :
    items.foldlM (fun param s => getNodeCb nodeCount s.key s.data param)
        (written.length, blockOf written) =
      some ((written ++ entries items).length, blockOf (written ++ entries items)) := by
  induction items generalizing written with
  | nil => simp [entries]
  | cons s items ih =>
    rw [List.foldlM_cons, getNodeCb]
    by_cases zero : s.data = 0
    · have next := ih written (by simpa [zero] using room)
      rw [if_pos zero, Option.bind_eq_bind, Option.bind_some, next]
      simp [entries, zero]
    · simp only [nonzeroNum_cons, zero, ne_eq, not_false_eq_true, if_true] at room
      rw [if_neg zero]
      have next := ih (written ++ [⟨s.key, s.data⟩]) (by simp; omega)
      rw [List.length_append, List.length_singleton] at next
      rw [if_pos (by omega), Option.bind_eq_bind, Option.bind_some, update_blockOf, next]
      simp [entries, zero]

/-- The cells of the block: the written ones and the others. -/
theorem map_blockOf (written : List KeyData) (ahead : Nat) :
    (List.range (written.length + ahead)).map (blockOf written) =
      written ++ List.replicate ahead KeyData.zero := by
  apply List.ext_getElem
  · simp
  intro i _ _
  rw [List.getElem_map, List.getElem_range, blockOf]
  rcases Nat.lt_or_ge i written.length with inside | past
  · rw [List.getElem_append_left inside]
    simp [inside]
  · rw [List.getElem_append_right past]
    simp [past]

/-- The first `num` cells of a block that is sorted this far are sorted, and the others not
greater. -/
theorem firstCells {nodeCount num : Nat} (descends : Descends p 0 (nodeCount - 1) (lastWanted num))
    (fits : num ≤ nodeCount) :
    ((List.range num).map p).Pairwise (fun e e' => e'.data ≤ e.data) ∧
      (∀ e ∈ (List.range num).map p,
        ∀ e' ∈ (List.range (nodeCount - num)).map (fun i => p (num + i)), e'.data ≤ e.data) := by
  have wanted {i : Nat} (inside : i < num) : i ≤ lastWanted num := by
    rw [lastWanted, if_neg (by omega)]
    omega
  constructor
  · rw [List.pairwise_map]
    apply List.pairwise_lt_range.imp_of_mem
    intro i j _ inside less
    rw [List.mem_range] at inside
    exact descends i j (Nat.zero_le i) less (by omega) (wanted (less.trans inside))
  · intro e member e' member'
    obtain ⟨i, inside, rfl⟩ := List.mem_map.mp member
    obtain ⟨j, inside', rfl⟩ := List.mem_map.mp member'
    rw [List.mem_range] at inside inside'
    exact descends i (num + j) (Nat.zero_le i) (by omega) (by omega) (wanted inside)

/-- `output_top_data` copies the first of the entries and of as many zeros as the counter is
ahead. -/
theorem WellFormed.outputTopData_spec {t : CMmtree} {tree : RBNode Slot} {queue : List Nat}
    {ahead : Nat} (wf : WellFormed t tree queue) (mapped : t.mapped = true)
    (drift : t.drift = ahead) (num : Nat) :
    ∃ out rest, t.outputTopData true num = some (t, 0, out.length, out) ∧
      (out ++ rest).Perm (entries tree.toList ++ List.replicate ahead KeyData.zero) ∧
      out.Pairwise (fun e e' => e'.data ≤ e.data) ∧
      (∀ e ∈ out, ∀ e' ∈ rest, e'.data ≤ e.data) ∧
      out.length = min num (nonzeroNum tree.toList + ahead) := by
  have counter : t.getNonzeroNum.toNat = nonzeroNum tree.toList + ahead := by
    rw [wf.drift_eq] at drift
    omega
  rw [CMmtree.outputTopData, if_neg (by simp [mapped]), counter]
  generalize total : nonzeroNum tree.toList + ahead = nodeCount
  have least : (if nodeCount < num then nodeCount else num) = min num nodeCount := by
    split <;> omega
  dsimp only
  rw [least]
  by_cases none : nodeCount = 0
  · rw [if_pos none]
    have empty : entries tree.toList = [] := List.eq_nil_of_length_eq_zero (by
      rw [length_entries]
      omega)
    obtain rfl : ahead = 0 := by omega
    exact ⟨[], [], by simp [none], by simp [empty], .nil, by simp, by simp [none]⟩
  rw [if_neg none, if_neg (by simp)]
  have walked := wf.ordered.traversal_spec (getNodeCb nodeCount) wf.inited mapped (0, blockOf [])
  have written := foldlM_getNodeCb nodeCount tree.toList [] (by simp; omega)
  simp only [List.length_nil, List.nil_append] at written
  rw [written] at walked
  have start : (fun _ => KeyData.zero) = blockOf [] := by
    funext i
    simp [blockOf]
  obtain ⟨p, sorted, moved, descends⟩ := quicksort_spec (p := blockOf (entries tree.toList))
    (2 * nodeCount) (min num nodeCount) (Nat.zero_le (nodeCount - 1))
    (by split <;> omega)
  obtain ⟨ordered, greatest⟩ := firstCells descends (Nat.min_le_right num nodeCount)
  refine ⟨(List.range (min num nodeCount)).map p, _, ?_, ?_, ordered, greatest, by simp⟩
  · rw [start, walked]
    simp [sorted]
  · have cells := moved.perm (show nodeCount - 1 < nodeCount by omega)
    have whole := map_blockOf (entries tree.toList) ahead
    rw [length_entries, total] at whole
    have split := List.range_add (n := min num nodeCount) (m := nodeCount - min num nodeCount)
    rw [Nat.add_sub_cancel' (Nat.min_le_right num nodeCount)] at split
    rw [whole, split, List.map_append, List.map_map] at cells
    exact cells

/-- In a run whose calls find their slots, `output_top_data` returns the greatest of the stored
keys with data that are not 0, precisely when no remove took one of these or no more entries are
asked for than there are positive data. -/
theorem outputTopData_iff (calls : List (Call × Bool))
    (fits : Throughout (fun t step => step.1.SlotFits t step.2) CMmtree.initNewFile calls) :
    ∃ t replies, CMmtree.initNewFile.run calls = some (t, replies) ∧ ∀ num,
      (∃ out, t.outputTopData true num = some (t, 0, out.length, out) ∧
          TopData t.tree.toList num out) ↔
        t.mapped = true ∧
          (Throughout (fun t step => step.1.KeepsNonzero t) CMmtree.initNewFile calls ∨
            num ≤ t.tree.toList.countP fun s => 0 < s.data) := by
  obtain ⟨t, replies, ran, ahead, exact⟩ :=
    drift_run wellFormed_initNewFile (fits.mono fun _ _ slotFits => slotFits.1)
  obtain ⟨t', replies', tree, queue, ran', wf⟩ := wellFormed_of_slotFits calls fits
  obtain ⟨rfl, rfl⟩ := Prod.mk.inj (Option.some.inj (ran.symm.trans ran'))
  have start : CMmtree.initNewFile.drift = 0 := by
    rw [wellFormed_initNewFile.drift_eq]
    rfl
  rw [start] at ahead exact
  obtain ⟨more, drift⟩ := Int.eq_ofNat_of_zero_le ahead
  refine ⟨t, replies, ran, fun num => ?_⟩
  cases mapped : t.mapped with
  | false => simp [CMmtree.outputTopData, mapped]
  | true =>
    obtain ⟨out, rest, result, perm, sorted, greatest, length⟩ :=
      wf.outputTopData_spec mapped drift num
    have top := topData_iff wf.sorted perm sorted greatest length
    rw [wf.tree_eq, ← exact, drift, result]
    have counts : ((more : Int) = 0) ↔ more = 0 := Int.natCast_eq_zero
    rw [counts, ← top]
    constructor
    · rintro ⟨out', same, property⟩
      obtain ⟨-, rfl⟩ : out.length = out'.length ∧ out = out' := by simpa using same
      exact ⟨rfl, property⟩
    · rintro ⟨-, property⟩
      exact ⟨out, rfl, property⟩

/-- The greatest two of three data. -/
theorem outputTopData_iff_three :
    ∃ t replies, CMmtree.initNewFile.run
        [(.insert 1 5, true), (.insert 2 (-6), true), (.set 3 7 MMT_OP_SET, true),
          (.update 1 2 MMT_OP_ADD, true)] = some (t, replies) ∧
      ∃ out, t.outputTopData true 2 = some (t, 0, out.length, out) ∧
        TopData t.tree.toList 2 out := by
  obtain ⟨t, replies, ran, exact⟩ := outputTopData_iff
    [(.insert 1 5, true), (.insert 2 (-6), true), (.set 3 7 MMT_OP_SET, true),
      (.update 1 2 MMT_OP_ADD, true)] (by decide +kernel)
  have mapped : (CMmtree.initNewFile.run
      [(.insert 1 5, true), (.insert 2 (-6), true), (.set 3 7 MMT_OP_SET, true),
        (.update 1 2 MMT_OP_ADD, true)]).all (fun result => result.1.mapped) = true := by
    decide +kernel
  rw [ran] at mapped
  exact ⟨t, replies, ran, (exact 2).mpr ⟨mapped, .inl (by decide +kernel)⟩⟩

/-- After inserting key 1 with datum 5 and removing it, the greatest entry is one that was never
stored. -/
theorem removed_key_returned :
    ∃ t replies, CMmtree.initNewFile.run [(.insert 1 5, true), (.remove 1, true)] =
      some (t, replies) ∧
      (t.outputTopData true 1).map (fun result => result.2) = some (0, 1, [⟨0, 0⟩]) ∧
      ¬ ∃ out, t.outputTopData true 1 = some (t, 0, out.length, out) ∧
        TopData t.tree.toList 1 out := by
  have returned : (CMmtree.initNewFile.run [(.insert 1 5, true), (.remove 1, true)]).map
      (fun result => (result.1.tree.toList,
        (result.1.outputTopData true 1).map (fun result => result.2))) =
      some ([], some (0, 1, [⟨0, 0⟩])) := by
    decide +kernel
  obtain ⟨⟨t, replies⟩, ran, result⟩ := Option.map_eq_some_iff.mp returned
  obtain ⟨empty, top⟩ := Prod.mk.inj result
  dsimp only at empty top
  refine ⟨t, replies, ran, top, ?_⟩
  rintro ⟨out, called, property⟩
  rw [called, Option.map_some, Option.some.injEq] at top
  obtain ⟨-, -, rfl⟩ : (0 : Int) = 0 ∧ out.length = 1 ∧ out = [⟨0, 0⟩] := by simpa using top
  exact (property.stored ⟨0, 0⟩ List.mem_cons_self).1 rfl

end Taomee.Mmtree
