import Mathlib.Data.Finset.Prod

/-!
# Tables of seats and a list of who sits where

A table has `size` seats, each empty or taken by a key. An entry of the list tells for a key the
table and the seat. The two agree: they determine each other.
-/

namespace Taomee.Seating

/-- How an entry tells its key and its seat. -/
structure View (ε κ ι : Type*) where
  key : ε → κ
  table : ε → ι
  index : ε → Nat
  size : Nat
  empty : κ

variable {ε κ ι : Type*}

/-- How many seats are taken. -/
def used [DecidableEq κ] (size : Nat) (empty : κ) (content : Nat → κ) : Nat :=
  (List.range size).countP fun index => content index ≠ empty

section Used

variable {size i : Nat} {empty key : κ} {content : Nat → κ}

/-- Only one seat changes. -/
theorem countP_update (content : Nat → κ) (p : κ → Bool) (within : i < size) (key : κ) :
    (List.range size).countP (fun j => p (Function.update content i key j)) +
        (if p (content i) then 1 else 0) =
      (List.range size).countP (fun j => p (content j)) + if p key then 1 else 0 := by
  induction size with
  | zero => omega
  | succ size ih =>
    rw [List.range_succ, List.countP_append, List.countP_append, List.countP_singleton,
      List.countP_singleton]
    obtain rfl | before := Nat.eq_or_lt_of_le (Nat.le_of_lt_succ within)
    · have same : (List.range i).countP (fun j => p (Function.update content i key j)) =
          (List.range i).countP fun j => p (content j) := by
        refine List.countP_congr fun j member => ?_
        rw [Function.update_of_ne (Nat.ne_of_lt (List.mem_range.mp member))]
      rw [same, Function.update_self]
      omega
    · rw [Function.update_of_ne (Nat.ne_of_gt before)]
      omega

variable [DecidableEq κ]

theorem used_empty : used size empty (fun _ => empty) = 0 := by
  simp [used]

theorem used_le : used size empty content ≤ size := by
  refine (List.countP_le_length ..).trans ?_
  rw [List.length_range]

/-- A free entry that is filled counts. -/
theorem used_fill (within : i < size) (free : content i = empty) (named : key ≠ empty) :
    used size empty (Function.update content i key) = used size empty content + 1 := by
  have counted := countP_update content (fun k => k ≠ empty) within key
  simp only [free, named, ne_eq] at counted
  simpa [used] using counted

/-- An entry that is cleared counts no more. -/
theorem used_clear (within : i < size) (taken : content i ≠ empty) :
    used size empty (Function.update content i empty) + 1 = used size empty content := by
  have counted := countP_update content (fun k => k ≠ empty) within empty
  simp only [taken, ne_eq] at counted
  simpa [used] using counted

/-- With room there is a free entry. -/
theorem exists_free (room : used size empty content < size) : ∃ i < size, content i = empty := by
  by_contra none
  have all : used size empty content = (List.range size).length := by
    refine List.countP_eq_length.mpr fun i member => decide_eq_true fun free => none ?_
    exact ⟨i, List.mem_range.mp member, free⟩
  rw [List.length_range] at all
  omega

end Used

/-- The entries and the tables that there are agree. -/
structure Seated (v : View ε κ ι) (entries : List ε) (tables : ι → Option (Nat → κ)) : Prop where
  once : (entries.map v.key).Nodup
  seat : ∀ e ∈ entries, v.key e ≠ v.empty ∧ v.index e < v.size ∧
    ∃ content, tables (v.table e) = some content ∧ content (v.index e) = v.key e
  entry : ∀ t content, tables t = some content → ∀ i < v.size, content i ≠ v.empty →
    ∃ e ∈ entries, v.key e = content i ∧ v.table e = t ∧ v.index e = i

namespace Seated

variable {v : View ε κ ι} {entries rest : List ε} {tables : ι → Option (Nat → κ)} {e e' : ε}
  {t : ι} {content : Nat → κ}

theorem nil (v : View ε κ ι) : Seated v [] fun _ => none where
  once := List.nodup_nil
  seat _ member := absurd member List.not_mem_nil
  entry _ _ there := by cases there

theorem perm (seated : Seated v entries tables) (perm : entries.Perm rest) :
    Seated v rest tables where
  once := (perm.map v.key).nodup_iff.mp seated.once
  seat e member := seated.seat e (perm.mem_iff.mpr member)
  entry t content there i within taken := by
    obtain ⟨e, member, seat⟩ := seated.entry t content there i within taken
    exact ⟨e, perm.mem_iff.mp member, seat⟩

/-- A key is that of one entry. -/
theorem eq_of_key (seated : Seated v entries tables) (member : e ∈ entries)
    (member' : e' ∈ entries) (same : v.key e = v.key e') : e = e' :=
  List.inj_on_of_nodup_map seated.once member member' same

/-- An entry stands in its table. -/
theorem content_eq (seated : Seated v entries tables) (member : e ∈ entries)
    (there : tables (v.table e) = some content) : content (v.index e) = v.key e := by
  obtain ⟨-, -, content', there', here⟩ := seated.seat e member
  cases there.symm.trans there'
  exact here

/-- A seat has one entry. -/
theorem eq_of_seat (seated : Seated v entries tables) (member : e ∈ entries)
    (member' : e' ∈ entries) (table : v.table e = v.table e') (index : v.index e = v.index e') :
    e = e' := by
  obtain ⟨-, -, content, there, here⟩ := seated.seat e member
  have here' : content (v.index e') = v.key e' := seated.content_eq member' (table ▸ there)
  exact seated.eq_of_key member member' (here.symm.trans (index ▸ here'))

/-- Who sits at a table are those whose entries name it. -/
theorem table_eq_iff (seated : Seated v entries tables) (there : tables t = some content)
    (member : e ∈ entries) :
    v.table e = t ↔ ∃ i < v.size, content i ≠ v.empty ∧ content i = v.key e := by
  constructor
  · rintro rfl
    obtain ⟨named, within, -⟩ := seated.seat e member
    have here := seated.content_eq member there
    exact ⟨v.index e, within, here ▸ named, here⟩
  · rintro ⟨i, within, taken, key⟩
    obtain ⟨e', member', key', table, -⟩ := seated.entry t content there i within taken
    cases seated.eq_of_key member member' (key.symm.trans key'.symm)
    exact table

variable [DecidableEq ι]

/-- The entries in use are those of the table. -/
theorem used_eq [DecidableEq κ] (seated : Seated v entries tables)
    (there : tables t = some content) :
    used v.size v.empty content = entries.countP fun e => v.table e = t := by
  have indices : ((entries.filter fun e => v.table e = t).map v.index).Perm
      ((List.range v.size).filter fun i => content i ≠ v.empty) := by
    refine (List.perm_ext_iff_of_nodup ?_ ?_).mpr fun i => ?_
    · refine List.Nodup.map_on ?_ (seated.once.of_map.filter _)
      intro e member e' member' same
      obtain ⟨member, table⟩ := List.mem_filter.mp member
      obtain ⟨member', table'⟩ := List.mem_filter.mp member'
      exact seated.eq_of_seat member member'
        ((of_decide_eq_true table).trans (of_decide_eq_true table').symm) same
    · exact List.nodup_range.filter _
    · rw [List.mem_map, List.mem_filter, List.mem_range, decide_eq_true_eq]
      constructor
      · rintro ⟨e, there', rfl⟩
        obtain ⟨member, table⟩ := List.mem_filter.mp there'
        obtain rfl := of_decide_eq_true table
        obtain ⟨named, within, -⟩ := seated.seat e member
        exact ⟨within, seated.content_eq member there ▸ named⟩
      · rintro ⟨within, taken⟩
        obtain ⟨e, member, -, table, index⟩ := seated.entry t content there i within taken
        exact ⟨e, List.mem_filter.mpr ⟨member, decide_eq_true table⟩, index⟩
  have lengths := indices.length_eq
  rw [List.length_map, ← List.countP_eq_length_filter, ← List.countP_eq_length_filter] at lengths
  exact lengths.symm

/-- There are no more entries than seats. -/
theorem length_le (seated : Seated v entries tables) (known : Finset ι)
    (tables : ∀ t, tables t ≠ none → t ∈ known) : entries.length ≤ known.card * v.size := by
  have seats : (entries.map fun e => (v.table e, v.index e)).Nodup := by
    refine List.Nodup.map_on (fun e member e' member' same => ?_) seated.once.of_map
    exact seated.eq_of_seat member member' (congrArg Prod.fst same) (congrArg Prod.snd same)
  have bounded : (entries.map fun e => (v.table e, v.index e)).toFinset ⊆
      known ×ˢ Finset.range v.size := by
    intro seat member
    obtain ⟨e, listed, rfl⟩ := List.mem_map.mp (List.mem_toFinset.mp member)
    obtain ⟨-, within, content, there, -⟩ := seated.seat e listed
    refine Finset.mem_product.mpr ⟨tables _ ?_, Finset.mem_range.mpr within⟩
    rw [there]
    exact Option.some_ne_none content
  have cards := Finset.card_le_card bounded
  rw [List.toFinset_card_of_nodup seats, List.length_map, Finset.card_product,
    Finset.card_range] at cards
  exact cards

/-! ## Changes -/

/-- Whoever leaves frees an entry. -/
theorem leave (seated : Seated v (e :: rest) tables) (there : tables (v.table e) = some content) :
    Seated v rest (Function.update tables (v.table e)
      (some (Function.update content (v.index e) v.empty))) := by
  have apart : ∀ e' ∈ rest, v.table e' = v.table e → v.index e' ≠ v.index e := by
    intro e' member table index
    have same := seated.eq_of_seat (List.mem_cons_of_mem _ member) List.mem_cons_self table index
    refine (List.nodup_cons.mp seated.once).1 (List.mem_map.mpr ⟨e', member, ?_⟩)
    rw [same]
  refine ⟨(List.nodup_cons.mp seated.once).2, fun e' member => ?_,
    fun t content' there' i within taken => ?_⟩
  · obtain ⟨named, within, content', there', here⟩ :=
      seated.seat e' (List.mem_cons_of_mem _ member)
    refine ⟨named, within, ?_⟩
    by_cases table : v.table e' = v.table e
    · rw [table, Function.update_self]
      refine ⟨_, rfl, ?_⟩
      rw [Function.update_of_ne (apart e' member table)]
      exact seated.content_eq (List.mem_cons_of_mem _ member) (table ▸ there)
    · rw [Function.update_of_ne table]
      exact ⟨content', there', here⟩
  · obtain rfl | table := eq_or_ne t (v.table e)
    · rw [Function.update_self] at there'
      cases there'
      obtain rfl | index := eq_or_ne i (v.index e)
      · rw [Function.update_self] at taken
        exact absurd rfl taken
      · rw [Function.update_of_ne index] at taken ⊢
        obtain ⟨e', member, seat⟩ := seated.entry _ content there i within taken
        obtain rfl | member := List.mem_cons.mp member
        · exact absurd seat.2.2.symm index
        · exact ⟨e', member, seat⟩
    · rw [Function.update_of_ne table] at there'
      obtain ⟨e', member, seat⟩ := seated.entry t content' there' i within taken
      obtain rfl | member := List.mem_cons.mp member
      · exact absurd seat.2.1.symm table
      · exact ⟨e', member, seat⟩

/-- Whoever enters takes a free one. -/
theorem enter (seated : Seated v rest tables) (there : tables (v.table e) = some content)
    (within : v.index e < v.size) (free : content (v.index e) = v.empty)
    (named : v.key e ≠ v.empty) (new : v.key e ∉ rest.map v.key) :
    Seated v (e :: rest) (Function.update tables (v.table e)
      (some (Function.update content (v.index e) (v.key e)))) := by
  refine ⟨List.nodup_cons.mpr ⟨new, seated.once⟩, fun e' member => ?_,
    fun t content' there' i within' taken => ?_⟩
  · obtain rfl | member := List.mem_cons.mp member
    · exact ⟨named, within, _, Function.update_self .., Function.update_self ..⟩
    · obtain ⟨named', within', content', there', here⟩ := seated.seat e' member
      refine ⟨named', within', ?_⟩
      by_cases table : v.table e' = v.table e
      · rw [table, Function.update_self]
        refine ⟨_, rfl, ?_⟩
        have here := seated.content_eq member (table ▸ there)
        rw [Function.update_of_ne, here]
        intro index
        rw [index, free] at here
        exact named' here.symm
      · rw [Function.update_of_ne table]
        exact ⟨content', there', here⟩
  · obtain rfl | table := eq_or_ne t (v.table e)
    · rw [Function.update_self] at there'
      cases there'
      obtain rfl | index := eq_or_ne i (v.index e)
      · exact ⟨e, List.mem_cons_self, by rw [Function.update_self], rfl, rfl⟩
      · rw [Function.update_of_ne index] at taken ⊢
        obtain ⟨e', member, seat⟩ := seated.entry _ content there i within' taken
        exact ⟨e', List.mem_cons_of_mem _ member, seat⟩
    · rw [Function.update_of_ne table] at there'
      obtain ⟨e', member, seat⟩ := seated.entry t content' there' i within' taken
      exact ⟨e', List.mem_cons_of_mem _ member, seat⟩

/-- A new table is empty. -/
theorem newTable (seated : Seated v entries tables) (new : tables t = none) :
    Seated v entries (Function.update tables t (some fun _ => v.empty)) := by
  refine ⟨seated.once, fun e member => ?_, fun t' content' there i within taken => ?_⟩
  · obtain ⟨named, within, content, there, here⟩ := seated.seat e member
    refine ⟨named, within, content, ?_, here⟩
    rw [Function.update_of_ne, there]
    intro same
    rw [same, new] at there
    cases there
  · obtain rfl | apart := eq_or_ne t' t
    · rw [Function.update_self] at there
      cases there
      exact absurd rfl taken
    · rw [Function.update_of_ne apart] at there
      exact seated.entry t' content' there i within taken

/-- A table goes with those who sit at it. -/
theorem remove (seated : Seated v entries tables) (t : ι) :
    Seated v (entries.filter fun e => v.table e ≠ t) (Function.update tables t none) := by
  refine ⟨(List.Sublist.map v.key List.filter_sublist).nodup seated.once, fun e member => ?_,
    fun t' content there i within taken => ?_⟩
  · obtain ⟨member, apart⟩ := List.mem_filter.mp member
    obtain ⟨named, within, content, there, here⟩ := seated.seat e member
    refine ⟨named, within, content, ?_, here⟩
    rw [Function.update_of_ne (of_decide_eq_true apart), there]
  · obtain rfl | apart := eq_or_ne t' t
    · rw [Function.update_self] at there
      cases there
    · rw [Function.update_of_ne apart] at there
      obtain ⟨e, member, key, table, index⟩ := seated.entry t' content there i within taken
      refine ⟨e, List.mem_filter.mpr ⟨member, decide_eq_true ?_⟩, key, table, index⟩
      rw [table]
      exact apart

end Seated

end Taomee.Seating
