import Mathlib.Data.Fintype.EquivFin
import Taomee.Library.Runs
import Taomee.Show.Ranking

/-!
# The board of a period

While a period lasts the board holds the best of those who have joined, each at a position that
stays, and the index and the ranks in the records follow their order. The index is not in the
file: a process that starts has whatever its memory holds.
-/

namespace Taomee.Show

open Ranking Runs

variable {ρ : Type}

/-- The file and the index of a process, and those who have joined in their order. -/
structure Period (ρ : Type) where
  board : Board ρ
  topIndex : Nat → Nat
  joins : List (Record ρ)

inductive Event (ρ : Type) where
  | join (userId : Nat) (record : Record ρ)
  | restart (memory : Nat → Nat)

namespace Board

/-- The loop over the records in `process_join_show`. -/
def Holds (board : Board ρ) (userId : Nat) : Prop :=
  ∃ position < board.userNum, (board.records position).userId = userId

instance (board : Board ρ) (userId : Nat) : Decidable (board.Holds userId) :=
  inferInstanceAs (Decidable (∃ position < board.userNum, _))

end Board

namespace Period

def step (period : Period ρ) : Event ρ → Period ρ
  | .join userId record =>
    if period.board.Holds userId then period
    else
      let (board, topIndex) := period.board.enter period.topIndex record
      ⟨board, topIndex, period.joins ++ [record]⟩
  | .restart memory => { period with topIndex := memory }

def init (records : Nat → Record ρ) (topIndex : Nat → Nat) : Period ρ :=
  ⟨.fresh records, topIndex, []⟩

/-- What the `m`-th participant was given. -/
def score (joins : List (Record ρ)) (m : Nat) : Nat := joins[m]?.elim 0 Record.npcScore

/-- The board holds the best participants, as they have joined but for their ranks, and the index
lists their positions. -/
structure Ranked (period : Period ρ) (order : Nat → Nat) : Prop where
  top : Top (score period.joins) showUserNum period.joins.length period.board.userNum order
  position : ∀ k < period.board.userNum, period.topIndex k < period.board.userNum
  apart : ∀ k k', k < k' → k' < period.board.userNum → period.topIndex k ≠ period.topIndex k'
  entry : ∀ k < period.board.userNum, ∃ record, period.joins[order k]? = some record ∧
    period.board.records (period.topIndex k) = record.ranked (k + 1)

/-- The lowest entry of a full board makes room only for a record that says itself that it is the
last, and a new process finds the index as it was. -/
def Fits (period : Period ρ) : Event ρ → Prop
  | .join _ record =>
    period.board.userNum = showUserNum →
    (period.board.records (period.topIndex (showUserNum - 1))).npcScore < record.npcScore →
    (∀ k < showUserNum - 1,
      record.npcScore ≤ (period.board.records (period.topIndex k)).npcScore) →
    record.isTop = showUserNum
  | .restart memory => ∀ k < period.board.userNum, memory k = period.topIndex k

section

variable {period : Period ρ} {record : Record ρ} {order : Nat → Nat}

theorem score_append_self (joins : List (Record ρ)) (record : Record ρ) :
    score (joins ++ [record]) joins.length = record.npcScore := by
  rw [score, List.getElem?_concat_length]
  rfl

theorem score_append {joins : List (Record ρ)} {m : Nat} (member : m < joins.length)
    (record : Record ρ) : score (joins ++ [record]) m = score joins m := by
  rw [score, score, List.getElem?_append_left member]

theorem Ranked.score_order (ranked : Ranked period order) {k : Nat}
    (within : k < period.board.userNum) :
    score period.joins (order k) = (period.board.records (period.topIndex k)).npcScore := by
  obtain ⟨record, joined, entry⟩ := ranked.entry k within
  rw [score, joined, entry]
  rfl

/-- A record that has joined is still there. -/
theorem Ranked.joined (ranked : Ranked period order) {k : Nat}
    (within : k < period.board.userNum) (record : Record ρ) :
    (period.joins ++ [record])[order k]? = period.joins[order k]? :=
  List.getElem?_append_left (ranked.top.known k within)

/-- Lower ranks have lower scores. -/
theorem Ranked.antitone (ranked : Ranked period order) {k k' : Nat} (before : k < k')
    (within : k' < period.board.userNum) :
    (period.board.records (period.topIndex k')).npcScore ≤
      (period.board.records (period.topIndex k)).npcScore := by
  rw [← ranked.score_order within, ← ranked.score_order (before.trans within)]
  exact (ranked.top.ranked k k' before within).score_le

/-- A record has come to its rank at `position`, which was free or the one of the last entry. -/
theorem Ranked.enter (ranked : Ranked period order) {last position rank total : Nat}
    {records : Nat → Record ρ} {topIndex : Nat → Nat}
    (places : (period.board.userNum < showUserNum ∧ last = period.board.userNum ∧
        position = last) ∨
      (period.board.userNum = showUserNum ∧ last + 1 = period.board.userNum ∧
        position = period.topIndex last))
    (within : rank ≤ last)
    (before : ∀ k < rank,
      record.npcScore ≤ (period.board.records (period.topIndex k)).npcScore)
    (lower : rank < period.board.userNum →
      (period.board.records (period.topIndex rank)).npcScore < record.npcScore)
    (index : ∀ k ≤ last, topIndex k = makeRoom period.topIndex rank last position k)
    (self : records position = record.ranked (rank + 1))
    (others : ∀ k < last, records (period.topIndex k) =
      if k < rank then period.board.records (period.topIndex k)
      else (period.board.records (period.topIndex k)).ranked (k + 2)) :
    Ranked ⟨⟨total, last + 1, records⟩, topIndex, period.joins ++ [record]⟩
      (makeRoom order rank last period.joins.length) := by
  have new : ∀ k < last, period.topIndex k ≠ position := by
    obtain ⟨-, rfl, rfl⟩ | ⟨-, full, rfl⟩ := places
    · exact fun k below => Nat.ne_of_lt (ranked.position k below)
    · exact fun k below => ranked.apart k last below (by omega)
  have distinct : ∀ k k', k < k' → k' < last → period.topIndex k ≠ period.topIndex k' :=
    fun k k' first below => ranked.apart k k' first (by omega)
  refine ⟨?_, fun k below => ?_, fun k k' first below => ?_, fun k below => ?_⟩
  · have scores : Top (score (period.joins ++ [record])) showUserNum period.joins.length
        period.board.userNum order := ranked.top.congr fun m member => score_append member record
    have old : ∀ k, k < period.board.userNum → score (period.joins ++ [record]) (order k) =
        (period.board.records (period.topIndex k)).npcScore := fun k inside => by
      rw [score_append (ranked.top.known k inside), ranked.score_order inside]
    rw [List.length_append]
    refine scores.enter (by omega) within (fun k early => ?_) fun k late inside => ?_
    · rw [score_append_self, old k (by omega)]
      exact before k early
    · rw [score_append_self, old k inside]
      obtain rfl | later := Nat.eq_or_lt_of_le late
      · exact lower inside
      · exact Nat.lt_of_le_of_lt (ranked.antitone later inside) (lower (by omega))
  · dsimp only at below ⊢
    rw [index k (Nat.le_of_lt_succ below)]
    obtain ⟨-, same⟩ | ⟨early, same⟩ | ⟨late, same⟩ :=
      makeRoom_cases period.topIndex rank last position k (Nat.le_of_lt_succ below)
    · rw [same]
      obtain ⟨-, -, rfl⟩ | ⟨-, full, rfl⟩ := places
      · exact Nat.lt_succ_self _
      · have known := ranked.position last (by omega)
        omega
    · have known := ranked.position k (by omega)
      omega
    · have known := ranked.position (k - 1) (by omega)
      omega
  · dsimp only at below ⊢
    rw [index k (by omega), index k' (by omega)]
    exact makeRoom_ne distinct new within first (by omega)
  · dsimp only at below ⊢
    rw [index k (Nat.le_of_lt_succ below)]
    obtain early | rfl | late := Nat.lt_trichotomy k rank
    · obtain ⟨joined, there, entry⟩ := ranked.entry k (by omega)
      refine ⟨joined, ?_, ?_⟩
      · rw [makeRoom_before early, ranked.joined (by omega), there]
      · rw [makeRoom_before early, others k (by omega), if_pos early, entry]
    · refine ⟨record, ?_, ?_⟩
      · rw [makeRoom_self, List.getElem?_concat_length]
      · rw [makeRoom_self, self]
    · obtain ⟨joined, there, entry⟩ := ranked.entry (k - 1) (by omega)
      refine ⟨joined, ?_, ?_⟩
      · rw [makeRoom_moved late (by omega), ranked.joined (by omega), there]
      · rw [makeRoom_moved late (by omega), others (k - 1) (by omega), if_neg (by omega), entry,
          show k - 1 + 2 = k + 1 by omega]
        rfl

/-- The loop finds the rank of a record that has been written at `position`. -/
theorem Ranked.search (ranked : Ranked period order) (record : Record ρ) (ranks : Ranks ρ)
    (total : Nat) {last position turns : Nat}
    (places : (period.board.userNum < showUserNum ∧ last = period.board.userNum ∧
        position = last) ∨
      (period.board.userNum = showUserNum ∧ last + 1 = period.board.userNum ∧
        position = period.topIndex last))
    (length : turns = last ∨ turns = last + 1)
    (index : ∀ k < last, ranks.topIndex k = period.topIndex k)
    (lastIndex : ranks.topIndex last = position)
    (others : ∀ p, p ≠ position → ranks.records p = period.board.records p)
    (self : ∃ top, ranks.records position = record.ranked top)
    (lowest : last < period.board.userNum →
      (period.board.records (period.topIndex last)).npcScore < record.npcScore)
    (final : (∀ k < last,
        record.npcScore ≤ (period.board.records (period.topIndex k)).npcScore) →
      ranks.records position = record.ranked (last + 1)) :
    let found := Ranks.search record.npcScore position last turns 0 ranks
    ∃ order', Ranked ⟨⟨total, last + 1, found.records⟩, found.topIndex,
      period.joins ++ [record]⟩ order' := by
  have new : ∀ k < last, period.topIndex k ≠ position := by
    obtain ⟨-, rfl, rfl⟩ | ⟨-, full, rfl⟩ := places
    · exact fun k below => Nat.ne_of_lt (ranked.position k below)
    · exact fun k below => ranked.apart k last below (by omega)
  have entry : ∀ k < last, ranks.records (ranks.topIndex k) =
      period.board.records (period.topIndex k) := fun k below => by
    rw [index k below, others _ (new k below)]
  obtain ⟨top, self⟩ := self
  obtain ⟨rank, -, inside, before, lower, placed⟩ | ⟨none, same⟩ :=
    search_cases record.npcScore position last turns 0 ranks
  · have within : rank < last := by
      -- at `last` the record is compared with itself
      obtain below | rfl := Nat.lt_or_eq_of_le (show rank ≤ last by omega)
      · exact below
      · rw [lastIndex, self] at lower
        exact absurd lower (Nat.lt_irrefl _)
    rw [entry rank within] at lower
    rw [placed]
    have apart : ∀ a < last, ranks.topIndex a ≠ position := fun a below => by
      rw [index a below]
      exact new a below
    refine ⟨_, ranked.enter places (Nat.le_of_lt within) (fun k early => ?_) (fun _ => lower)
      (fun k below => ?_) ?_ fun k below => ?_⟩
    · rw [← entry k (by omega)]
      exact before k (Nat.zero_le k) early
    · rw [topIndex_place within]
      obtain early | rfl | late := Nat.lt_trichotomy k rank
      · rw [makeRoom_before early, makeRoom_before early, index k (by omega)]
      · rw [makeRoom_self, makeRoom_self]
      · rw [makeRoom_moved late below, makeRoom_moved late below, index (k - 1) (by omega)]
    · rw [records_place_self apart within, self]
      rfl
    · rw [← index k below, records_place _ apart within below, entry k below, index k below]
      intro a b first under
      rw [index a (first.trans under), index b under]
      exact ranked.apart a b first (by omega)
  · rw [same]
    have higher : ∀ k < last,
        record.npcScore ≤ (period.board.records (period.topIndex k)).npcScore :=
      fun k below => by
        rw [← entry k below]
        exact none k (Nat.zero_le k) (by omega)
    refine ⟨_, ranked.enter places (Nat.le_refl last) higher lowest (fun k below => ?_)
      (final higher) fun k below => ?_⟩
    · obtain below | rfl := Nat.lt_or_eq_of_le below
      · rw [makeRoom_before below, index k below]
      · rw [makeRoom_self, lastIndex]
    · rw [if_pos below, others _ (new k below)]

/-- A request that joins. -/
theorem Ranked.join (ranked : Ranked period order) {userId : Nat}
    (fits : Fits period (.join userId record)) :
    ∃ order', Ranked ⟨(period.board.enter period.topIndex record).1,
      (period.board.enter period.topIndex record).2, period.joins ++ [record]⟩ order' := by
  rw [Board.enter]
  dsimp only
  split
  · rename_i room
    let ranks : Ranks ρ :=
      (Ranks.setIndex ⟨Function.update period.board.records period.board.userNum record,
        period.topIndex⟩ period.board.userNum period.board.userNum).setTop period.board.userNum
          (period.board.userNum + 1)
    have self : ranks.records period.board.userNum = record.ranked (period.board.userNum + 1) := by
      rw [Ranks.records_setTop_self, Ranks.records_setIndex]
      exact congrArg (Record.ranked · _) (Function.update_self ..)
    have found := ranked.search record ranks (period.board.totalNum + 1)
      (.inl ⟨room, rfl, rfl⟩) (.inl rfl)
      (fun k below => by
        rw [Ranks.topIndex_setTop, Ranks.topIndex_setIndex_of_ne (Nat.ne_of_lt below)])
      (by rw [Ranks.topIndex_setTop, Ranks.topIndex_setIndex_self])
      (fun p apart => by
        rw [Ranks.records_setTop_of_ne apart, Ranks.records_setIndex]
        exact Function.update_of_ne apart ..)
      ⟨_, self⟩ (fun below => absurd below (Nat.lt_irrefl _)) fun _ => self
    split
    · rename_i empty
      rw [empty] at found ⊢
      simp only [ranks, empty] at found
      exact found
    · exact found
  · have size : period.board.userNum = showUserNum := by
      have length := ranked.top.length
      omega
    have last : showUserNum - 1 + 1 = period.board.userNum := size.symm
    split
    · rename_i beats
      have found := ranked.search record
        ⟨Function.update period.board.records (period.topIndex (showUserNum - 1)) record,
          period.topIndex⟩ (period.board.totalNum + 1)
        (.inr ⟨size, last, rfl⟩) (.inr last.symm) (fun k below => rfl) rfl
        (fun p apart => Function.update_of_ne apart ..)
        ⟨record.isTop, Function.update_self ..⟩ (fun _ => beats)
        fun higher => ?_
      · rw [size] at found ⊢
        exact found
      · have own : record.isTop = showUserNum - 1 + 1 := fits size beats higher
        refine (Function.update_self ..).trans ?_
        rw [Record.ranked, ← own]
    · rename_i worse
      refine ⟨order, ⟨?_, ranked.position, ranked.apart, fun k below => ?_⟩⟩
      · have scores : Top (score (period.joins ++ [record])) showUserNum period.joins.length
            period.board.userNum order :=
          ranked.top.congr fun m member => score_append member record
        rw [List.length_append]
        refine scores.refuse size fun k below => ?_
        rw [score_append_self, score_append (ranked.top.known k below), ranked.score_order below]
        refine (Nat.le_of_not_lt worse).trans ?_
        obtain rfl | early := Nat.eq_or_lt_of_le (show k ≤ showUserNum - 1 by omega)
        · exact Nat.le_refl _
        · exact ranked.antitone early (by omega)
      · obtain ⟨joined, there, entry⟩ := ranked.entry k below
        exact ⟨joined, (ranked.joined below record).trans there, entry⟩

/-- Every position has one rank. -/
theorem Ranked.existsUnique_place (ranked : Ranked period order) {position : Nat}
    (used : position < period.board.userNum) :
    ∃! k, k < period.board.userNum ∧ period.topIndex k = position := by
  let place (k : Fin period.board.userNum) : Fin period.board.userNum :=
    ⟨period.topIndex k, ranked.position k k.isLt⟩
  have injective : place.Injective := by
    intro k k' same
    have equal : period.topIndex k = period.topIndex k' := congrArg Fin.val same
    obtain before | same | after := Nat.lt_trichotomy k.val k'.val
    · exact absurd equal (ranked.apart k k' before k'.isLt)
    · exact Fin.ext same
    · exact absurd equal.symm (ranked.apart k' k after k.isLt)
  obtain ⟨k, there⟩ := Finite.injective_iff_surjective.mp injective ⟨position, used⟩
  refine ⟨k, ⟨k.isLt, congrArg Fin.val there⟩, fun k' other => ?_⟩
  exact congrArg Fin.val (@injective ⟨k', other.1⟩ k (Fin.ext (other.2.trans
    (congrArg Fin.val there).symm)))

theorem Ranked.isTop (ranked : Ranked period order) {k : Nat} (within : k < period.board.userNum) :
    (period.board.records (period.topIndex k)).isTop = k + 1 := by
  obtain ⟨record, -, entry⟩ := ranked.entry k within
  rw [entry]
  rfl

theorem Ranked.existsUnique_first (ranked : Ranked period order)
    (some : 0 < period.board.userNum) : ∃! position, position < period.board.userNum ∧
      (period.board.records position).isTop = 1 := by
  refine ⟨period.topIndex 0, ⟨ranked.position 0 some, ranked.isTop some⟩, fun other first => ?_⟩
  obtain ⟨k, ⟨within, rfl⟩, -⟩ := ranked.existsUnique_place first.1
  have rank := ranked.isTop within
  have zero : k = 0 := by
    omega
  rw [zero]

theorem Ranked.init (records : Nat → Record ρ) (topIndex : Nat → Nat) :
    Ranked (.init records topIndex) id where
  top := .nil _ _ _
  position k within := absurd within (Nat.not_lt_zero k)
  apart _ k' _ within := absurd within (Nat.not_lt_zero k')
  entry k within := absurd within (Nat.not_lt_zero k)

theorem Ranked.step (ranked : Ranked period order) {event : Event ρ} (fits : Fits period event) :
    ∃ order', Ranked (period.step event) order' := by
  cases event with
  | join userId record =>
    rw [Period.step]
    split
    · exact ⟨order, ranked⟩
    · exact ranked.join fits
  | restart memory =>
    have same : ∀ k < period.board.userNum,
        (period.step (.restart memory)).topIndex k = period.topIndex k := fits
    refine ⟨order, ranked.top, fun k within => ?_, fun k k' before within => ?_, fun k within => ?_⟩
    · rw [same k within]
      exact ranked.position k within
    · rw [same k (before.trans within), same k' within]
      exact ranked.apart k k' before within
    · rw [same k within]
      exact ranked.entry k within

end

/-- In every run of events that fit, the board holds the best of those who have joined, the index
lists the positions by falling score, and the records tell their ranks. -/
theorem ranked_of_fits {records : Nat → Record ρ} {topIndex : Nat → Nat} {period : Period ρ}
    (run : Reaches step Fits (.init records topIndex) period) :
    (∃ order, Ranked period order) ∧
      (∀ k k', k < k' → k' < period.board.userNum →
        (period.board.records (period.topIndex k')).npcScore ≤
          (period.board.records (period.topIndex k)).npcScore) ∧
      (∀ position < period.board.userNum,
        ∃! k, k < period.board.userNum ∧ period.topIndex k = position) ∧
      (∀ k < period.board.userNum, (period.board.records (period.topIndex k)).isTop = k + 1) ∧
      (0 < period.board.userNum → ∃! position, position < period.board.userNum ∧
        (period.board.records position).isTop = 1) := by
  have kept : ∃ order, Ranked period order := by
    apply run.invariant
    · exact ⟨id, .init records topIndex⟩
    · rintro period event ⟨order, ranked⟩ fits
      exact ranked.step fits
  obtain ⟨order, ranked⟩ := kept
  exact ⟨⟨order, ranked⟩, fun k k' => ranked.antitone, fun position => ranked.existsUnique_place,
    fun k => ranked.isTop, ranked.existsUnique_first⟩

instance Fits.decidable (period : Period ρ) : ∀ event, Decidable (Fits period event)
  | .join _ record =>
    inferInstanceAs (Decidable (period.board.userNum = showUserNum →
      (period.board.records (period.topIndex (showUserNum - 1))).npcScore < record.npcScore →
      (∀ k < showUserNum - 1,
        record.npcScore ≤ (period.board.records (period.topIndex k)).npcScore) →
      record.isTop = showUserNum))
  | .restart memory =>
    inferInstanceAs (Decidable (∀ k < period.board.userNum, memory k = period.topIndex k))

theorem ranked_of_fits_eight :
    let blank : Record Unit := ⟨0, 0, 0, 0, 0, 0, ()⟩
    let period := List.foldl step (init (fun _ => blank) fun _ => 0)
      [.join 1 ⟨1, 50, 0, 0, 9, 0, ()⟩, .restart fun _ => 0, .join 2 ⟨2, 60, 0, 0, 0, 0, ()⟩,
        .join 3 ⟨3, 50, 0, 0, 0, 0, ()⟩, .join 2 ⟨2, 99, 0, 0, 0, 0, ()⟩,
        .join 4 ⟨4, 20, 0, 0, 0, 0, ()⟩, .join 5 ⟨5, 40, 0, 0, 0, 0, ()⟩,
        .join 6 ⟨6, 30, 0, 0, 0, 0, ()⟩, .join 7 ⟨7, 25, 0, 0, 6, 0, ()⟩,
        .join 8 ⟨8, 55, 0, 0, 1, 0, ()⟩]
    (∃ order, Ranked period order) ∧
      (∀ k k', k < k' → k' < period.board.userNum →
        (period.board.records (period.topIndex k')).npcScore ≤
          (period.board.records (period.topIndex k)).npcScore) ∧
      (∀ position < period.board.userNum,
        ∃! k, k < period.board.userNum ∧ period.topIndex k = position) ∧
      (∀ k < period.board.userNum, (period.board.records (period.topIndex k)).isTop = k + 1) ∧
      (0 < period.board.userNum → ∃! position, position < period.board.userNum ∧
        (period.board.records position).isTop = 1) :=
  ranked_of_fits (Reaches.refl.follow (by decide +kernel))

/-- Who beats only the last of six keeps the rank that came with the request. -/
theorem newcomer_brings_rank : ∃ period : Period Unit,
    Reaches step (fun _ _ => True) (init (fun _ => ⟨0, 0, 0, 0, 0, 0, ()⟩) fun _ => 0) period ∧
      ¬ ∀ k < period.board.userNum,
        (period.board.records (period.topIndex k)).isTop = k + 1 := by
  refine ⟨List.foldl step (init (fun _ => ⟨0, 0, 0, 0, 0, 0, ()⟩) fun _ => 0)
    [.join 1 ⟨1, 60, 0, 0, 0, 0, ()⟩, .join 2 ⟨2, 50, 0, 0, 0, 0, ()⟩,
      .join 3 ⟨3, 40, 0, 0, 0, 0, ()⟩, .join 4 ⟨4, 30, 0, 0, 0, 0, ()⟩,
      .join 5 ⟨5, 20, 0, 0, 0, 0, ()⟩, .join 6 ⟨6, 10, 0, 0, 0, 0, ()⟩,
      .join 7 ⟨7, 15, 0, 0, 0, 0, ()⟩], Reaches.of_list fun _ _ _ => trivial, fun ranks => ?_⟩
  exact absurd (ranks 5 (by decide +kernel)) (by decide +kernel)

end Period

end Taomee.Show
