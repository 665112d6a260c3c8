import Mathlib.Logic.Function.Basic
import Taomee.Pea.StackRemoval

/-!
# pea: when the right number of an item is added

The stacks are filled up in the order of the links, and the rest goes to empty cells.
-/

namespace Taomee.Pea.Bag

open FreeList

variable {mgr : ItemDataMgr} {s s' : Bag} {a lastItem : Addr} {item : Item} {data : ItemData}
  {itemId index turns : Nat} {itemCount remainCount left count : UInt32} {news : Nat → Addr}
  {visited : List Addr}

/-! ## Filling up stacks -/

/-- What filling up stacks does to a bag. -/
structure Filled (mgr : ItemDataMgr) (itemId : Nat) (s s' : Bag) (added : Nat) : Prop where
  cells : s'.Cells mgr
  grid : s'.grid = s.grid
  gridCount : s'.maxGridCount = s.maxGridCount
  free : ∀ b, s.items b = none → s'.items b = none
  total : s'.total itemId = s.total itemId + added
  others : s.OthersKept itemId s'

theorem Filled.refl (cells : s.Cells mgr) : Filled mgr itemId s s 0 :=
  ⟨cells, rfl, rfl, fun _ none' => none', rfl, .refl s⟩

theorem Filled.trans {t : Bag} {added more : Nat} (first : Filled mgr itemId s t added)
    (second : Filled mgr itemId t s' more) : Filled mgr itemId s s' (added + more) where
  cells := second.cells
  grid := second.grid.trans first.grid
  gridCount := second.gridCount.trans first.gridCount
  free b none' := second.free b (first.free b none')
  total := by rw [second.total, first.total, Nat.add_assoc]
  others := first.others.trans second.others

/-- Filling up stacks takes no cell. -/
theorem Filled.emptyCells {added : Nat} (filled : Filled mgr itemId s s' added) :
    s'.emptyCells = s.emptyCells := by
  rw [Bag.emptyCells, Bag.emptyCells, cells_congr filled.gridCount, filled.grid]

/-- A stack takes what it has room for. -/
theorem Cells.fill (cells : s.Cells mgr) (placed : s.Placed a item)
    (same : item.data.itemId = itemId) (room : count ≤ item.getCurRemainHeapCount) :
    Filled mgr itemId s (s.modify a (.incCurHeapCount count)) count.toNat := by
  obtain ⟨-, fits⟩ := cells.known placed
  have gap : item.getCurRemainHeapCount.toNat =
      item.data.maxHeapNum.toNat - item.curHeapCount.toNat := UInt32.toNat_sub_of_le _ _ fits
  have fits' := UInt32.le_iff_toNat_le.mp fits
  have room' := UInt32.le_iff_toNat_le.mp room
  have bound := item.data.maxHeapNum.toNat_lt
  have sum : (item.curHeapCount + count).toNat = item.curHeapCount.toNat + count.toNat := by
    rw [UInt32.toNat_add, Nat.mod_eq_of_lt (by omega)]
  have most : item.curHeapCount + count ≤ item.data.maxHeapNum :=
    UInt32.le_iff_toNat_le.mpr (by omega)
  have result : item.incCurHeapCount count =
      { item with curHeapCount := item.curHeapCount + count } := if_pos most
  have data : (item.incCurHeapCount count).data = item.data := by rw [result]
  obtain ⟨own, others⟩ := cells.total_modify placed data
  refine ⟨cells.modify placed data (by rw [result]) (by rw [result]; exact most), rfl, rfl,
    fun b none' => ?_, ?_, same ▸ others⟩
  · have apart : b ≠ a := by
      rintro rfl
      cases none'.symm.trans placed.found
    rw [modify_items_of_ne apart, none']
  · rw [result, same] at own
    dsimp only at own
    omega

/-- The places that the stacks at these addresses have left. -/
def gapsOf (s : Bag) (visited : List Addr) : List Nat :=
  (visited.filterMap s.items).map fun item => item.getCurRemainHeapCount.toNat

/-- No full stack is met before so many are used up. -/
def NoStall (gaps : List Nat) (remain : Nat) : Prop :=
  ∀ k, gaps[k]? = some 0 → remain < (gaps.take k).sum

/-- The loop does not stall at a full stack. -/
theorem noStall_cons {gap remain : Nat} {gaps : List Nat} : NoStall (gap :: gaps) remain ↔
    gap ≠ 0 ∧ (gap ≤ remain → NoStall gaps (remain - gap)) := by
  constructor
  · intro noStall
    refine ⟨fun full => ?_, fun less k full => ?_⟩
    · exact absurd (noStall 0 (by simpa using full)) (Nat.not_lt_zero _)
    · have later := noStall (k + 1) (by simpa using full)
      rw [List.take_succ_cons, List.sum_cons] at later
      omega
  · rintro ⟨free, rest⟩ k full
    cases k with
    | zero => exact absurd (by simpa using full) free
    | succ k =>
      rw [List.take_succ_cons, List.sum_cons]
      by_cases less : gap ≤ remain
      · have later := rest less k (by simpa using full)
        omega
      · omega

theorem gapsOf_cons (found : s.items a = some item) :
    s.gapsOf (a :: visited) = item.getCurRemainHeapCount.toNat :: s.gapsOf visited := by
  rw [gapsOf, List.filterMap_cons_some found, List.map_cons, gapsOf]

/-- The loop over the stacks, at a stack. -/
theorem fillFrom_succ (live : a ≠ 0) (found : s.items a = some item) :
    fillFrom (turns + 1) s a remainCount =
      if item.getCurRemainHeapCount = 0 then fillFrom turns s a remainCount
      else if item.getCurRemainHeapCount ≤ remainCount then
        fillFrom turns (s.modify a (.incCurHeapCount item.getCurRemainHeapCount)) (s.next a)
          (remainCount - item.getCurRemainHeapCount)
      else some (s.modify a (.incCurHeapCount remainCount), 0) := by
  have next (count : UInt32) : (s.modify a (.incCurHeapCount count)).next a = s.next a := by
    rw [Bag.next, modify_items_self, Bag.next, found, Option.map_some, Option.elim_some,
      Option.elim_some, Item.incCurHeapCount]
    split
    · rfl
    · rfl
  rw [fillFrom, if_neg live]
  simp only [found, next]

/-- The stacks behind one that is filled up. -/
structure Behind (s : Bag) (itemId : Nat) (a : Addr) (visited : List Addr) : Prop where
  chain : Chain 0 s.next a visited
  distinct : visited.Nodup
  placed : ∀ b ∈ visited, ∃ item, s.Placed b item ∧ item.data.itemId = itemId

theorem Behind.nil (behind : s.Behind itemId a []) : a = 0 := by
  obtain ⟨chain, -, -⟩ := behind
  cases chain
  rfl

theorem Behind.cons {b : Addr} (behind : s.Behind itemId a (b :: visited)) : b = a ∧ a ≠ 0 := by
  obtain ⟨chain, -, -⟩ := behind
  cases chain with
  | cons live => exact ⟨rfl, live⟩

/-- The rest of the stacks is behind the next one. -/
theorem Behind.tail (behind : s.Behind itemId a (a :: visited)) (count : UInt32) :
    (s.modify a (.incCurHeapCount count)).Behind itemId (s.next a) visited ∧
      (s.modify a (.incCurHeapCount count)).gapsOf visited = s.gapsOf visited := by
  obtain ⟨first, distinct⟩ := List.nodup_cons.mp behind.distinct
  have same (b : Addr) (member : b ∈ visited) :
      (s.modify a (.incCurHeapCount count)).items b = s.items b :=
    modify_items_of_ne (ne_of_mem_of_not_mem member first)
  refine ⟨⟨?_, distinct, fun b member => ?_⟩, ?_⟩
  · obtain ⟨rest, shape, chain⟩ := behind.chain.pop (by
      rintro rfl
      exact behind.chain.null_not_mem List.mem_cons_self)
    obtain ⟨-, rfl⟩ := List.cons.inj shape
    exact chain.congr fun b member => by rw [Bag.next, Bag.next, same b member]
  · obtain ⟨item, placed, kind⟩ := behind.placed b (List.mem_cons_of_mem _ member)
    exact ⟨item, ⟨(same b member).trans placed.found, placed.member, placed.here⟩, kind⟩
  · rw [gapsOf, gapsOf, List.filterMap_congr same]

/-- A loop over the stacks that ends has met no full one, and has filled them up in order. -/
theorem fillFrom_spec (cells : s.Cells mgr) (behind : s.Behind itemId a visited)
    (returns : fillFrom turns s a remainCount = some (s', left)) :
    NoStall (s.gapsOf visited) remainCount.toNat ∧
      left.toNat = remainCount.toNat - (s.gapsOf visited).sum ∧
      Filled mgr itemId s s' (remainCount.toNat - left.toNat) := by
  induction turns generalizing s a visited remainCount with
  | zero => cases returns
  | succ turns ih =>
    cases visited with
    | nil =>
      obtain rfl := behind.nil
      obtain ⟨rfl, rfl⟩ := Prod.mk.inj (Option.some.inj returns)
      refine ⟨fun k full => absurd full (by simp [gapsOf]), rfl, ?_⟩
      rw [Nat.sub_self]
      exact .refl cells
    | cons b visited =>
      obtain ⟨rfl, live⟩ := behind.cons
      obtain ⟨item, placed, same⟩ := behind.placed b List.mem_cons_self
      have gap := UInt32.toNat_inj (a := item.getCurRemainHeapCount) (b := 0)
      rw [fillFrom_succ live placed.found] at returns
      rw [gapsOf_cons placed.found, noStall_cons, List.sum_cons]
      split at returns
      case isTrue full =>
        have stuck := ih cells behind returns
        rwa [gapsOf_cons placed.found, noStall_cons, List.sum_cons] at stuck
      case isFalse free =>
        have free' : item.getCurRemainHeapCount.toNat ≠ 0 := fun full => free (gap.mp full)
        split at returns
        case isTrue less =>
          have less' := UInt32.le_iff_toNat_le.mp less
          have rest := UInt32.toNat_sub_of_le _ _ less
          have filled := cells.fill placed same (UInt32.le_refl _)
          obtain ⟨behind', gaps⟩ := behind.tail item.getCurRemainHeapCount
          obtain ⟨noStall, left', filled'⟩ := ih filled.cells behind' returns
          rw [gaps, rest] at noStall left'
          refine ⟨⟨free', fun _ => noStall⟩, by omega, ?_⟩
          have both := filled.trans filled'
          rwa [rest, show _ + (_ - _ - left.toNat) = remainCount.toNat - left.toNat by omega] at both
        case isFalse more =>
          have more' := Nat.lt_of_not_le (mt UInt32.le_iff_toNat_le.mpr more)
          obtain ⟨rfl, rfl⟩ := Prod.mk.inj (Option.some.inj returns)
          refine ⟨⟨free', fun less => absurd less (Nat.not_le.mpr more')⟩, ?_, ?_⟩
          · rw [UInt32.toNat_zero]
            omega
          · exact cells.fill placed same (UInt32.le_iff_toNat_le.mpr (Nat.le_of_lt more'))

/-- The loop over the stacks comes to an end when it never stalls. -/
theorem fillFrom_of_noStall (cells : s.Cells mgr) (behind : s.Behind itemId a visited)
    (noStall : NoStall (s.gapsOf visited) remainCount.toNat) :
    ∃ turns s' left, fillFrom turns s a remainCount = some (s', left) := by
  induction visited generalizing s a remainCount with
  | nil =>
    obtain rfl := behind.nil
    exact ⟨1, s, remainCount, rfl⟩
  | cons b visited ih =>
    obtain ⟨rfl, live⟩ := behind.cons
    obtain ⟨item, placed, same⟩ := behind.placed b List.mem_cons_self
    rw [gapsOf_cons placed.found, noStall_cons] at noStall
    obtain ⟨free, rest⟩ := noStall
    have free' : item.getCurRemainHeapCount ≠ 0 := fun full => free (by rw [full, UInt32.toNat_zero])
    by_cases less : item.getCurRemainHeapCount ≤ remainCount
    · have filled := cells.fill placed same (UInt32.le_refl _)
      obtain ⟨behind', gaps⟩ := behind.tail item.getCurRemainHeapCount
      obtain ⟨turns, s', left, returns⟩ := @ih _ _ (remainCount - item.getCurRemainHeapCount)
        filled.cells behind' (by
          rw [gaps, UInt32.toNat_sub_of_le _ _ less]
          exact rest (UInt32.le_iff_toNat_le.mp less))
      refine ⟨turns + 1, s', left, ?_⟩
      rw [fillFrom_succ live placed.found, if_neg free', if_pos less, returns]
    · refine ⟨1, s.modify b (.incCurHeapCount remainCount), 0, ?_⟩
      rw [fillFrom_succ live placed.found, if_neg free', if_neg less]

/-! ## New stacks -/

/-- What a new stack in an empty cell does to a bag. -/
structure Added (mgr : ItemDataMgr) (itemId : Nat) (a : Addr) (s s' : Bag) (count : Nat) :
    Prop where
  cells : s'.Cells mgr
  emptyCells : s'.emptyCells.length + 1 = s.emptyCells.length
  free : ∀ b, b ≠ a → s.items b = none → s'.items b = none
  total : s'.total itemId = s.total itemId + count
  others : s.OthersKept itemId s'

/-- A new stack is added in an empty cell. -/
theorem Cells.added (cells : s.Cells mgr) (fresh : s.Fresh a)
    (known : mgr.getItemDataById itemId = some data) (fits : count ≤ data.maxHeapNum)
    (empty : s.findEmptyBagIndex = some index) :
    ∃ t, s.createItem mgr a 0 itemId count index 0 0 = some t ∧
      Added mgr itemId a s (t.putNew a index lastItem) count.toNat := by
  obtain ⟨member, empty⟩ := mem_of_findEmptyBagIndex empty
  let item : Item := { id := 0, data, curHeapCount := count, bagIndex := index, getTime := 0
                       expireTime := 0, hide := none, next := 0, prev := 0 }
  have keyed := mgr.keyed known
  have relinked := relinked_putNew s a item lastItem
  refine ⟨_, by rw [createItem, known, Option.map_some], ?_⟩
  have placed : (s.withNew a item).Cells mgr :=
    cells.withNew fresh (show mgr.getItemDataById data.itemId = _ from keyed ▸ known) fits
  have totals := cells.total_withNew fresh (show item.bagIndex ∈ s.cells from member) empty
  rw [show item.data.itemId = itemId from keyed] at totals
  refine ⟨relinked.cells placed, ?_, fun b apart none' => ?_, ?_, ?_⟩
  · rw [Bag.emptyCells, cells_congr relinked.count, relinked.grid]
    exact emptyCells_withNew fresh member empty
  · rw [relinked.none_iff]
    exact (Function.update_of_ne apart ..).trans none'
  · rw [relinked.total]
    exact totals.1
  · exact fun other apart => (relinked.total other).trans (totals.2 other apart)

theorem exists_findEmptyBagIndex (some' : 0 < s.emptyCells.length) :
    ∃ index, s.findEmptyBagIndex = some index := by
  rw [findEmptyBagIndex, ← List.head?_filter]
  exact Option.isSome_iff_exists.mp (List.isSome_head?.mpr (List.ne_nil_of_length_pos some'))

/-- The count of a new stack. -/
def newCount (remainCount maxHeapNum : UInt32) : UInt32 :=
  if remainCount / maxHeapNum ≠ 0 then maxHeapNum else remainCount

theorem toNat_newCount {maxHeapNum : UInt32} (positive : 0 < maxHeapNum.toNat) :
    (newCount remainCount maxHeapNum).toNat = min maxHeapNum.toNat remainCount.toNat := by
  have whole : remainCount / maxHeapNum ≠ 0 ↔ maxHeapNum.toNat ≤ remainCount.toNat := by
    rw [Ne, ← UInt32.toNat_inj, UInt32.toNat_div, UInt32.toNat_zero, ← Ne, ← Nat.pos_iff_ne_zero,
      Nat.div_pos_iff]
    exact and_iff_right positive
  rw [newCount]
  split
  case isTrue more => exact (Nat.min_eq_left (whole.mp more)).symm
  case isFalse less =>
    exact (Nat.min_eq_right (Nat.le_of_lt (Nat.lt_of_not_le (mt whole.mpr less)))).symm

/-- The loop over the empty cells, at one. -/
theorem fillEmptyFrom_succ (known : mgr.getItemDataById itemId = some data)
    (positive : 0 < data.maxHeapNum.toNat) :
    fillEmptyFrom mgr itemId (turns + 1) news s lastItem remainCount =
      if remainCount = 0 then some s
      else s.findEmptyBagIndex.bind fun index =>
        (s.createItem mgr (news 0) 0 itemId (newCount remainCount data.maxHeapNum) index 0 0).bind
          fun t => fillEmptyFrom mgr itemId turns (fun k => news (k + 1))
            (t.putNew (news 0) index lastItem) (news 0) (remainCount - data.maxHeapNum) := by
  have some' : data.maxHeapNum ≠ 0 := by
    rintro none'
    rw [none'] at positive
    exact absurd positive (Nat.lt_irrefl 0)
  rw [fillEmptyFrom, known]
  cases s.findEmptyBagIndex with
  | none => simp
  | some index =>
    dsimp only
    rw [if_neg some', Option.bind_some]
    rfl

/-- `new` returns memory that is not in use, and not twice the same. -/
structure FreshNews (s : Bag) (news : Nat → Addr) : Prop where
  fresh : ∀ k, s.Fresh (news k)
  distinct : Function.Injective news

/-- The other new addresses stay fresh. -/
theorem FreshNews.added (fresh : s.FreshNews news) {n : Nat}
    (added : Added mgr itemId (news 0) s s' n) : s'.FreshNews fun k => news (k + 1) where
  fresh k := by
    obtain ⟨live, none'⟩ := fresh.fresh (k + 1)
    refine ⟨live, Option.isNone_iff_eq_none.mpr (added.free _ ?_ (Option.isNone_iff_eq_none.mp none'))⟩
    exact fresh.distinct.ne (Nat.succ_ne_zero k)
  distinct _ _ same := Nat.succ_injective (fresh.distinct same)

/-- Filling up uses no new address. -/
theorem FreshNews.filled (fresh : s.FreshNews news) {n : Nat} (filled : Filled mgr itemId s s' n) :
    s'.FreshNews news where
  fresh k := by
    obtain ⟨live, none'⟩ := fresh.fresh k
    exact ⟨live, Option.isNone_iff_eq_none.mpr (filled.free _ (Option.isNone_iff_eq_none.mp none'))⟩
  distinct := fresh.distinct

/-- A loop over the empty cells that ends has added what was left in whole stacks, or more. -/
theorem fillEmptyFrom_spec (known : mgr.getItemDataById itemId = some data)
    (positive : 0 < data.maxHeapNum.toNat) (cells : s.Cells mgr) (fresh : s.FreshNews news)
    (returns : fillEmptyFrom mgr itemId turns news s lastItem remainCount = some s') :
    data.maxHeapNum.toNat ∣ remainCount.toNat ∧
        remainCount.toNat / data.maxHeapNum.toNat ≤ s.emptyCells.length ∧
        s'.total itemId = s.total itemId + remainCount.toNat ∨
      s.total itemId + remainCount.toNat < s'.total itemId := by
  induction turns generalizing s news lastItem remainCount with
  | zero => cases returns
  | succ turns ih =>
    rw [fillEmptyFrom_succ known positive] at returns
    split at returns
    case isTrue last =>
      obtain rfl := Option.some.inj returns
      rw [last, UInt32.toNat_zero, Nat.zero_div]
      exact .inl ⟨Nat.dvd_zero _, Nat.zero_le _, rfl⟩
    case isFalse goes =>
      obtain ⟨index, empty, returns⟩ := Option.bind_eq_some_iff.mp returns
      have count := @toNat_newCount remainCount _ positive
      have fits : newCount remainCount data.maxHeapNum ≤ data.maxHeapNum :=
        UInt32.le_iff_toNat_le.mpr (count ▸ Nat.min_le_left _ _)
      obtain ⟨t, created, added⟩ := @Cells.added _ _ _ lastItem _ _ _ _ cells (fresh.fresh 0) known
        fits empty
      rw [created, Option.bind_some] at returns
      have onward := ih added.cells (fresh.added added) returns
      have total := added.total
      have room := added.emptyCells
      have bound := data.maxHeapNum.toNat_lt
      by_cases whole : data.maxHeapNum.toNat ≤ remainCount.toNat
      · have rest : (remainCount - data.maxHeapNum).toNat =
            remainCount.toNat - data.maxHeapNum.toNat :=
          UInt32.toNat_sub_of_le _ _ (UInt32.le_iff_toNat_le.mpr whole)
        rw [rest] at onward
        obtain ⟨divides, few, exact'⟩ | beyond := onward
        · refine .inl ⟨(Nat.dvd_sub_iff_left whole (Nat.dvd_refl _)).mp divides, ?_, by omega⟩
          rw [Nat.div_eq_sub_div positive whole]
          omega
        · exact .inr (by omega)
      · have rest : (remainCount - data.maxHeapNum).toNat =
            2 ^ 32 + remainCount.toNat - data.maxHeapNum.toNat := by
          rw [UInt32.toNat_sub]
          omega
        obtain ⟨-, -, exact'⟩ | beyond := onward
        · exact .inr (by omega)
        · exact .inr (by omega)

/-- Whole stacks fill as many empty cells. -/
theorem fillEmptyFrom_of_whole (known : mgr.getItemDataById itemId = some data)
    (positive : 0 < data.maxHeapNum.toNat) (cells : s.Cells mgr) (fresh : s.FreshNews news)
    {n : Nat} (whole : remainCount.toNat = data.maxHeapNum.toNat * n)
    (few : n ≤ s.emptyCells.length) :
    ∃ turns s', fillEmptyFrom mgr itemId turns news s lastItem remainCount = some s' ∧
      s'.Cells mgr ∧ s'.total itemId = s.total itemId + remainCount.toNat ∧
      s.OthersKept itemId s' := by
  induction n generalizing s news lastItem remainCount with
  | zero =>
    have last : remainCount = 0 := UInt32.toNat_inj.mp (by rw [whole, Nat.mul_zero, UInt32.toNat_zero])
    refine ⟨1, s, ?_, cells, by rw [whole, Nat.mul_zero, Nat.add_zero], .refl s⟩
    rw [fillEmptyFrom_succ known positive, if_pos last]
  | succ n ih =>
    rw [Nat.mul_succ] at whole
    have less : data.maxHeapNum.toNat ≤ remainCount.toNat := by omega
    have goes : remainCount ≠ 0 := by
      rintro last
      rw [last, UInt32.toNat_zero] at whole
      omega
    have count := @toNat_newCount remainCount _ positive
    rw [Nat.min_eq_left less] at count
    have fits : newCount remainCount data.maxHeapNum ≤ data.maxHeapNum :=
      UInt32.le_iff_toNat_le.mpr count.le
    obtain ⟨index, empty⟩ := exists_findEmptyBagIndex (Nat.lt_of_lt_of_le (Nat.succ_pos n) few)
    obtain ⟨t, created, added⟩ := @Cells.added _ _ _ lastItem _ _ _ _ cells (fresh.fresh 0) known
      fits empty
    have rest : (remainCount - data.maxHeapNum).toNat =
        remainCount.toNat - data.maxHeapNum.toNat :=
      UInt32.toNat_sub_of_le _ _ (UInt32.le_iff_toNat_le.mpr less)
    have room := added.emptyCells
    obtain ⟨turns, s', returns, cells', total, others⟩ := @ih (t.putNew (news 0) index lastItem)
      (news 0) (remainCount - data.maxHeapNum) _ added.cells (fresh.added added)
      (by omega) (by omega)
    refine ⟨turns + 1, s', ?_, cells', ?_, added.others.trans others⟩
    · rw [fillEmptyFrom_succ known positive, if_neg goes, empty, Option.bind_some, created,
        Option.bind_some, returns]
    · rw [total, added.total, count, rest]
      omega

/-! ## The check -/

/-- A count is negative as `int32_t` from 2^31 on. -/
theorem toInt32_lt_zero (value : UInt32) : value.toInt32 < 0 ↔ 2 ^ 31 ≤ value.toNat := by
  have signed : value.toInt32.toInt = value.toBitVec.toInt := rfl
  rw [Int32.lt_iff_toInt_lt, signed, BitVec.toInt, UInt32.toNat_toBitVec, Int32.toInt_zero]
  have bound := value.toNat_lt
  split <;> omega

/-- Behind some stacks of a list, and behind the first of them and then the others. -/
theorem left_cons {gap remain n : Nat} {gaps : List Nat} (short : ∀ gap ∈ gaps, gap < 2 ^ 32)
    (bound : gap < 2 ^ 32) : (2 ^ 32 * (n + 1) + remain - ((gap :: gaps).take (n + 1)).sum) % 2 ^ 32 =
      (2 ^ 32 * n + (2 ^ 32 + remain - gap) % 2 ^ 32 - (gaps.take n).sum) % 2 ^ 32 := by
  have most : (gaps.take n).sum ≤ 2 ^ 32 * n := by
    have each := List.sum_le_card_nsmul (gaps.take n) (2 ^ 32)
      fun gap member => (short gap (List.mem_of_mem_take member)).le
    rw [nsmul_eq_mul, Nat.cast_id, Nat.mul_comm] at each
    exact each.trans (Nat.mul_le_mul_left _ (List.length_take_le _ _))
  rw [List.take_succ_cons, List.sum_cons]
  omega

/-- What is left after the gaps, counted with 32 bits. -/
theorem remainAfter_eq (items : List Item) (remainCount : UInt32) :
    (remainAfter items remainCount).toNat =
      let gaps := items.map fun item => item.getCurRemainHeapCount.toNat
      let left (n : Nat) := (2 ^ 32 * n + remainCount.toNat - (gaps.take n).sum) % 2 ^ 32
      if ∃ k < gaps.length, 2 ^ 31 ≤ left (k + 1) then 0 else left gaps.length := by
  induction items generalizing remainCount with
  | nil =>
    have bound := remainCount.toNat_lt
    simp [remainAfter]
  | cons item rest ih =>
    have short : ∀ gap ∈ rest.map fun item => item.getCurRemainHeapCount.toNat, gap < 2 ^ 32 := by
      intro gap member
      obtain ⟨item, -, rfl⟩ := List.mem_map.mp member
      exact UInt32.toNat_lt _
    have here : (remainCount - item.getCurRemainHeapCount).toNat =
        (2 ^ 32 + remainCount.toNat - item.getCurRemainHeapCount.toNat) % 2 ^ 32 := by
      have bound := item.getCurRemainHeapCount.toNat_lt
      rw [UInt32.toNat_sub]
      omega
    have behind (n : Nat) := @left_cons item.getCurRemainHeapCount.toNat remainCount.toNat n _ short
      (UInt32.toNat_lt _)
    rw [← here] at behind
    rw [remainAfter]
    simp only [toInt32_lt_zero, List.map_cons, List.length_cons, behind]
    split
    case isTrue negative =>
      rw [if_pos ⟨0, Nat.succ_pos _, by simpa [here] using negative⟩, UInt32.toNat_zero]
    case isFalse positive =>
      rw [ih]
      refine if_congr ?_ rfl rfl
      constructor
      · rintro ⟨k, within, negative⟩
        exact ⟨k + 1, Nat.succ_lt_succ within, negative⟩
      · rintro ⟨k, within, negative⟩
        cases k with
        | zero => exact absurd (by simpa [here] using negative) positive
        | succ k => exact ⟨k, Nat.lt_of_succ_lt_succ within, negative⟩

/-- With one cell less than are needed there is not enough room. -/
theorem le_needGridCount_iff {maxHeapNum : UInt32} (positive : 0 < maxHeapNum.toNat) (n : Nat) :
    n ≤ (needGridCount count maxHeapNum).toNat ↔
      ¬count.toNat + maxHeapNum.toNat ≤ n * maxHeapNum.toNat := by
  have parts := Nat.div_add_mod count.toNat maxHeapNum.toNat
  have short := Nat.mod_lt count.toNat positive
  have bound := count.toNat_lt
  have whole : (count / maxHeapNum).toNat = count.toNat / maxHeapNum.toNat := UInt32.toNat_div _ _
  have part : count % maxHeapNum ≠ 0 ↔ count.toNat % maxHeapNum.toNat ≠ 0 := by
    rw [Ne, ← UInt32.toNat_inj, UInt32.toNat_mod, UInt32.toNat_zero]
  rw [not_le, needGridCount]
  generalize count.toNat / maxHeapNum.toNat = quotient at *
  generalize count.toNat % maxHeapNum.toNat = rest at *
  have cells (k : Nat) : n ≤ k ↔ n * maxHeapNum.toNat < (k + 1) * maxHeapNum.toNat := by
    rw [Nat.mul_lt_mul_right positive, Nat.lt_succ_iff]
  by_cases some' : rest = 0
  · rw [if_neg (by rw [part]; exact not_not_intro some'), UInt32.add_zero, whole, cells,
      Nat.succ_mul, Nat.mul_comm quotient]
    omega
  · have twice : 2 * quotient ≤ maxHeapNum.toNat * quotient := Nat.mul_le_mul_right _ (by omega)
    have one : (1 : UInt32).toNat = 1 := rfl
    rw [if_pos (part.mpr some'), UInt32.toNat_add, whole, one, Nat.mod_eq_of_lt (by omega)]
    constructor
    · intro few
      have product := Nat.mul_le_mul_right maxHeapNum.toNat few
      rw [Nat.succ_mul, Nat.mul_comm quotient] at product
      omega
    · rw [cells, Nat.succ_mul, Nat.succ_mul, Nat.mul_comm quotient]
      omega

end Taomee.Pea.Bag
