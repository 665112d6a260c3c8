import Mathlib.Algebra.Order.Ring.Int
import Mathlib.Data.List.Pairwise
import Mathlib.Logic.Function.Basic

/-!
# When shops are refreshed

Every 900 seconds the goods of a shop are renewed for monsters of the levels 1 to 100, one level
after the other, for 300 seconds from the shop's own offset on. The switch looks at the clock
whenever it has nothing else to do.
-/

namespace Taomee.Monster.Flash

def maxFlashTime : Int := 300

def flashInterval : Int := 900

def levels : Nat := 100

/-- A shop: its offset in `m_flash_time_map` and its entry of `m_shop_update_time_map`. The last
fields are history: which level was updated when, and whether an entry behind the vector was
used. -/
structure Shop where
  flashTime : Int
  updateTime : Nat → Nat
  updated : List (Nat × Int)
  outside : Bool

namespace Shop

def init (flashTime : Int) : Shop := ⟨flashTime, fun _ => 0, [], false⟩

/-- The level whose goods are renewed `seconds` after the begin of an interval, if any. -/
def level (flashTime seconds : Int) : Option Nat :=
  if seconds < flashTime ∨ seconds > flashTime + maxFlashTime then none
  else some (((seconds - flashTime) / (maxFlashTime / 100)).toNat + 1)

/-- One turn of the loop of `create_shop`. The time is kept as `uint32_t` and read as `int`. -/
def refresh (timep seconds : Int) (shop : Shop) : Shop :=
  match level shop.flashTime seconds with
  | none => shop
  | some level =>
    if levels < level then { shop with outside := true }
    else
      let lastTime := Int.bmod (shop.updateTime (level - 1)) (2 ^ 32)
      if timep - lastTime ≥ flashInterval then
        { shop with
          updateTime := Function.update shop.updateTime (level - 1) (timep % 2 ^ 32).toNat
          updated := (level, timep) :: shop.updated }
      else shop

end Shop

/-- The minutes and seconds of the local time, which is `zone` seconds ahead. -/
def seconds (zone timep : Int) : Int := (timep + zone) % 3600 % flashInterval

def createShop (zone : Int) (shops : List Shop) (timep : Int) : List Shop :=
  shops.map (Shop.refresh timep (seconds zone timep))

/-- The shops after `create_shop` was called at the times of a clock. -/
def run (zone : Int) (flashTimes clock : List Int) : List Shop :=
  clock.foldl (createShop zone) (flashTimes.map Shop.init)

/-! ## What the refresh is for -/

/-- The interval of a time. -/
def interval (zone timep : Int) : Int := (timep + zone) / flashInterval

/-- How often a level was updated in an interval. -/
def Shop.updates (shop : Shop) (zone : Int) (level : Nat) (q : Int) : Nat :=
  shop.updated.countP fun entry => entry.1 = level ∧ interval zone entry.2 = q

/-- No entry behind the vector is used, and in each interval with a call in every second each level
is updated once. -/
structure Shop.Right (shop : Shop) (zone : Int) (clock : List Int) : Prop where
  inside : shop.outside = false
  once : ∀ q, (∀ timep, interval zone timep = q → timep ∈ clock) →
    ∀ level, 1 ≤ level → level ≤ levels → shop.updates zone level q = 1

/-- A clock that does not go back, from the end of the first interval of time to the end of what an
`int` holds. -/
structure Clock (clock : List Int) : Prop where
  forward : clock.Pairwise (· ≤ ·)
  within : ∀ timep ∈ clock, flashInterval ≤ timep ∧ timep < 2 ^ 31

/-! ## One shop -/

namespace Shop

variable {zone timep : Int} {shop : Shop} {clock : List Int}

/-- What is known of a shop whose last level is reached before the interval ends. -/
structure Kept (zone : Int) (clock : List Int) (shop : Shop) : Prop where
  first : 600 ≤ shop.flashTime
  last : shop.flashTime ≤ 602
  inside : shop.outside = false
  known : ∀ entry ∈ shop.updated, entry.2 ∈ clock ∧
    level shop.flashTime (seconds zone entry.2) = some entry.1
  apart : shop.updated.Pairwise fun new old => new.1 = old.1 → old.2 + flashInterval ≤ new.2
  kept : ∀ i, (shop.updateTime i = 0 ∧ ∀ entry ∈ shop.updated, entry.1 ≠ i + 1) ∨
    (i + 1, (shop.updateTime i : Int)) ∈ shop.updated ∧
      ∀ entry ∈ shop.updated, entry.1 = i + 1 → entry.2 ≤ shop.updateTime i

/-- A shop has refreshed nothing at the start. -/
theorem kept_init (zone : Int) {flashTime : Int} (first : 600 ≤ flashTime) (last : flashTime ≤ 602) :
    Kept zone [] (init flashTime) :=
  ⟨first, last, rfl, fun _ member => absurd member List.not_mem_nil, .nil,
    fun _ => .inl ⟨rfl, fun _ member => absurd member List.not_mem_nil⟩⟩

theorem seconds_eq (zone timep : Int) : seconds zone timep = (timep + zone) % flashInterval :=
  Int.emod_emod_of_dvd _ (by decide)

/-- The seconds are those within an interval. -/
theorem seconds_bounds (zone timep : Int) :
    0 ≤ seconds zone timep ∧ seconds zone timep < flashInterval :=
  seconds_eq zone timep ▸ ⟨Int.emod_nonneg _ (by decide), Int.emod_lt_of_pos _ (by decide)⟩

/-- Which seconds show which level. -/
theorem level_eq_some {flashTime s : Int} {l : Nat} : level flashTime s = some l ↔
    flashTime ≤ s ∧ s ≤ flashTime + 300 ∧ ((s - flashTime) / 3).toNat + 1 = l := by
  rw [level]
  split
  · next out =>
    rw [maxFlashTime] at out
    refine iff_of_false (by simp) fun inside => ?_
    omega
  · next inside =>
    rw [maxFlashTime] at inside
    rw [Option.some_inj]
    refine ⟨fun same => ⟨by omega, by omega, same⟩, fun same => same.2.2⟩

/-- An entry of the vector holds the time of the last update. -/
theorem Kept.last_update (kept : Kept zone clock shop)
    (within : ∀ t ∈ clock, flashInterval ≤ t ∧ t < 2 ^ 31) (i : Nat) :
    Int.bmod (shop.updateTime i) (2 ^ 32) = shop.updateTime i := by
  apply Int.bmod_eq_of_le
  · omega
  · obtain ⟨zero, -⟩ | ⟨member, -⟩ := kept.kept i
    · rw [zero]
      decide
    · have bound := (within _ (kept.known _ member).1).2
      omega

/-- What a call does to a level whose time has come. -/
theorem Kept.refresh_eq (kept : Kept zone clock shop)
    (within : ∀ t ∈ clock, flashInterval ≤ t ∧ t < 2 ^ 31) {l : Nat}
    (now : level shop.flashTime (seconds zone timep) = some l) :
    refresh timep (seconds zone timep) shop =
      if timep - shop.updateTime (l - 1) ≥ flashInterval then
        { shop with
          updateTime := Function.update shop.updateTime (l - 1) (timep % 2 ^ 32).toNat
          updated := (l, timep) :: shop.updated }
      else shop := by
  have few : ¬ levels < l := by
    have first := kept.first
    have bound := (seconds_bounds zone timep).2
    obtain ⟨-, -, rfl⟩ := level_eq_some.mp now
    rw [flashInterval] at bound
    rw [levels]
    omega
  rw [refresh, now]
  dsimp only
  rw [if_neg few, kept.last_update within]

theorem Kept.mono (kept : Kept zone clock shop) (timep : Int) : Kept zone (clock ++ [timep]) shop :=
  { kept with known := fun entry member =>
      ⟨List.mem_append_left _ (kept.known entry member).1, (kept.known entry member).2⟩ }

/-- One call refreshes what is due. -/
theorem Kept.refresh (kept : Kept zone clock shop)
    (within : ∀ t ∈ clock, flashInterval ≤ t ∧ t < 2 ^ 31)
    (room : flashInterval ≤ timep ∧ timep < 2 ^ 31) :
    Kept zone (clock ++ [timep]) (Shop.refresh timep (seconds zone timep) shop) := by
  cases now : level shop.flashTime (seconds zone timep) with
  | none =>
    have same : Shop.refresh timep (seconds zone timep) shop = shop := by rw [Shop.refresh, now]
    rw [same]
    exact kept.mono timep
  | some l =>
    rw [kept.refresh_eq within now]
    split
    · next due =>
      have later := kept.mono timep
      have time : ((timep % 2 ^ 32).toNat : Int) = timep := by
        rw [flashInterval] at room
        omega
      have number : l - 1 + 1 = l := by
        obtain ⟨-, -, rfl⟩ := level_eq_some.mp now
        rfl
      refine { later with known := ?_, apart := ?_, kept := ?_ }
      · intro entry member
        obtain rfl | member := List.mem_cons.mp member
        · exact ⟨List.mem_append_right _ (List.mem_singleton_self _), now⟩
        · exact later.known entry member
      · refine .cons (fun old member same => ?_) kept.apart
        obtain ⟨-, none⟩ | ⟨-, most⟩ := kept.kept (l - 1)
        · exact absurd (same.symm.trans number.symm) (none old member)
        · have bound := most old member (same.symm.trans number.symm)
          omega
      · intro i
        dsimp only
        obtain rfl | apart := eq_or_ne i (l - 1)
        · right
          rw [Function.update_self, time, number]
          refine ⟨List.mem_cons_self, fun entry member same => ?_⟩
          obtain rfl | member := List.mem_cons.mp member
          · exact Int.le_refl _
          · obtain ⟨-, none⟩ | ⟨-, most⟩ := kept.kept (l - 1)
            · exact absurd (same.trans number.symm) (none entry member)
            · have bound := most entry member (same.trans number.symm)
              rw [flashInterval] at due
              omega
        · have others : l ≠ i + 1 := fun same => apart (by omega)
          rw [Function.update_of_ne apart]
          refine (kept.kept i).imp (fun none => ⟨none.1, fun entry member => ?_⟩)
            fun some => ⟨List.mem_cons_of_mem _ some.1, fun entry member same => ?_⟩
          · obtain rfl | member := List.mem_cons.mp member
            · exact others
            · exact none.2 entry member
          · obtain rfl | member := List.mem_cons.mp member
            · exact absurd same others
            · exact some.2 entry member same
    · exact kept.mono timep

/-- A call in the window of a level leaves it updated less than an interval ago. -/
theorem Kept.exists_update (kept : Kept zone clock shop)
    (within : ∀ t ∈ clock, flashInterval ≤ t ∧ t < 2 ^ 31)
    (forward : ∀ t ∈ clock, t ≤ timep) (room : flashInterval ≤ timep) {l : Nat}
    (now : level shop.flashTime (seconds zone timep) = some l) :
    ∃ t, (l, t) ∈ (Shop.refresh timep (seconds zone timep) shop).updated ∧
      timep - flashInterval < t ∧ t ≤ timep := by
  have number : l - 1 + 1 = l := by
    obtain ⟨-, -, rfl⟩ := level_eq_some.mp now
    rfl
  rw [kept.refresh_eq within now]
  split
  · refine ⟨timep, List.mem_cons_self, ?_, Int.le_refl _⟩
    rw [flashInterval]
    omega
  · obtain ⟨zero, -⟩ | ⟨member, -⟩ := kept.kept (l - 1)
    · omega
    · rw [number] at member
      exact ⟨_, member, by omega, forward _ (kept.known _ member).1⟩

theorem flashTime_refresh (timep s : Int) (shop : Shop) :
    (Shop.refresh timep s shop).flashTime = shop.flashTime := by
  rw [Shop.refresh]
  split
  · rfl
  · dsimp only
    split
    · rfl
    · split <;> rfl

/-- What was refreshed stays on the record. -/
theorem updated_subset (timep s : Int) (shop : Shop) :
    shop.updated ⊆ (Shop.refresh timep s shop).updated := by
  rw [Shop.refresh]
  split
  · exact List.Subset.refl _
  · dsimp only
    split
    · exact List.Subset.refl _
    · split
      · exact List.subset_cons_self _ _
      · exact List.Subset.refl _

/-- The calls of a clock for one shop. -/
def calls (zone : Int) (shop : Shop) (clock : List Int) : Shop :=
  clock.foldl (fun shop timep => refresh timep (seconds zone timep) shop) shop

theorem updated_subset_calls (zone : Int) (shop : Shop) (clock : List Int) :
    shop.updated ⊆ (calls zone shop clock).updated := by
  induction clock generalizing shop with
  | nil => exact List.Subset.refl _
  | cons timep clock hyp => exact List.Subset.trans (updated_subset _ _ shop) (hyp _)

theorem flashTime_calls (zone : Int) (shop : Shop) (clock : List Int) :
    (calls zone shop clock).flashTime = shop.flashTime := by
  induction clock generalizing shop with
  | nil => rfl
  | cons timep clock hyp => exact (hyp _).trans (flashTime_refresh _ _ shop)

theorem calls_append (zone : Int) (shop : Shop) (front back : List Int) :
    calls zone shop (front ++ back) = calls zone (calls zone shop front) back :=
  List.foldl_append

/-- By induction over the calls. -/
theorem Kept.calls {front : List Int} (kept : Kept zone front shop)
    (within : ∀ t ∈ front ++ clock, flashInterval ≤ t ∧ t < 2 ^ 31) :
    Kept zone (front ++ clock) (Shop.calls zone shop clock) := by
  induction clock generalizing front shop with
  | nil => rwa [List.append_nil]
  | cons timep clock hyp =>
    have next := kept.refresh (fun t member => within t (List.mem_append_left _ member))
      (within timep (List.mem_append_right _ List.mem_cons_self))
    rw [List.append_cons] at within ⊢
    exact hyp next within

end Shop

/-! ## Runs -/

open Shop

variable {zone : Int} {clock : List Int}

/-- The shops are refreshed one apart from the other. -/
theorem run_eq (zone : Int) (flashTimes clock : List Int) :
    run zone flashTimes clock = flashTimes.map fun flashTime => calls zone (init flashTime) clock := by
  rw [run]
  suffices more : ∀ shops : List Shop, clock.foldl (createShop zone) shops =
      shops.map fun shop => calls zone shop clock by
    rw [more, List.map_map]
    rfl
  induction clock with
  | nil => exact fun shops => (List.map_id' shops).symm
  | cons timep clock hyp =>
    intro shops
    rw [List.foldl_cons, hyp, createShop, List.map_map]
    rfl

/-- Of the same level only an interval apart. -/
def Apart (entry other : Nat × Int) : Prop :=
  entry.1 = other.1 → entry.2 + flashInterval ≤ other.2 ∨ other.2 + flashInterval ≤ entry.2

instance : Std.Symm Apart := ⟨fun _ _ apart same => (apart same.symm).symm⟩

/-- Two updates of a level are an interval apart. -/
theorem Shop.Kept.apart_of_mem {shop : Shop} (kept : Kept zone clock shop) {l : Nat} {t t' : Int}
    (member : (l, t) ∈ shop.updated) (member' : (l, t') ∈ shop.updated) (less : t < t') :
    t + flashInterval ≤ t' := by
  have apart : shop.updated.Pairwise Apart := kept.apart.imp fun bound same => .inr (bound same)
  have bound := apart.forall member member' (by simp [Int.ne_of_lt less]) rfl
  omega

theorem countP_le_one {α : Type*} {l : List α} {p : α → Bool}
    (apart : l.Pairwise fun a b => ¬ (p a = true ∧ p b = true)) : l.countP p ≤ 1 := by
  induction l with
  | nil => exact Nat.zero_le _
  | cons a l hyp =>
    rw [List.pairwise_cons] at apart
    by_cases here : p a = true
    · have none : l.countP p = 0 :=
        List.countP_eq_zero.mpr fun b member there => apart.1 b member ⟨here, there⟩
      rw [List.countP_cons_of_pos here, none]
    · rw [List.countP_cons_of_neg here]
      exact hyp apart.2

/-- Two updates of a level do not fall into one interval. -/
theorem updates_le_one {shop : Shop} (kept : Shop.Kept zone clock shop) (l : Nat) (q : Int) :
    shop.updates zone l q ≤ 1 := by
  refine countP_le_one (kept.apart.imp fun {new old} bound both => ?_)
  rw [decide_eq_true_eq, decide_eq_true_eq, interval, interval] at both
  have apart := bound (both.1.1.trans both.2.1.symm)
  rw [flashInterval] at both apart
  omega

/-- A level whose second comes was refreshed within the interval. -/
theorem exists_update_of_mem {flashTime : Int} (first : 600 ≤ flashTime) (last : flashTime ≤ 602)
    (run : Clock clock) {timep : Int} (member : timep ∈ clock) {l : Nat}
    (now : level flashTime (seconds zone timep) = some l) :
    ∃ t, (l, t) ∈ (calls zone (init flashTime) clock).updated ∧
      timep - flashInterval < t ∧ t ≤ timep := by
  obtain ⟨front, back, rfl⟩ := List.append_of_mem member
  obtain ⟨forward, within⟩ := run
  have within_front (t) (there : t ∈ front) := within t (List.mem_append_left _ there)
  have kept := (kept_init zone first last).calls within_front
  obtain ⟨t, there, recent, past⟩ := kept.exists_update within_front
    (fun t there => (List.pairwise_append.mp forward).2.2 t there timep List.mem_cons_self)
    (within timep member).1 (by rwa [flashTime_calls])
  rw [calls_append]
  exact ⟨t, updated_subset_calls zone _ back there, recent, past⟩

/-- If the last level is reached before the interval ends, each level is updated in each interval,
at the first second of its window or an interval after its last update. -/
theorem exists_update_in_interval {flashTime : Int} (first : 600 ≤ flashTime)
    (last : flashTime ≤ 602) (run : Clock clock) {q : Int}
    (all : ∀ timep, interval zone timep = q → timep ∈ clock) {l : Nat} (least : 1 ≤ l)
    (most : l ≤ levels) :
    ∃ t, (l, t) ∈ (calls zone (init flashTime) clock).updated ∧ interval zone t = q := by
  have kept := (kept_init zone first last).calls run.within
  rw [levels] at most
  -- the first second of the window
  have start : interval zone (q * 900 + flashTime + 3 * (l - 1) - zone) = q ∧
      seconds zone (q * 900 + flashTime + 3 * (l - 1) - zone) = flashTime + 3 * (l - 1) := by
    rw [interval, seconds_eq, flashInterval]
    omega
  have now : level flashTime (seconds zone (q * 900 + flashTime + 3 * (l - 1) - zone)) =
      some l := by
    rw [start.2, level_eq_some]
    omega
  obtain ⟨t, there, recent, past⟩ := exists_update_of_mem first last run (all _ start.1) now
  by_cases here : interval zone t = q
  · exact ⟨t, there, here⟩
  -- an interval after the update in the interval before
  have known := (kept.known _ there).2
  rw [flashTime_calls] at known
  have next : interval zone (t + 900) = q ∧ seconds zone (t + 900) = seconds zone t := by
    rw [interval, flashInterval] at start here
    rw [flashInterval] at recent
    rw [interval, seconds_eq, seconds_eq, flashInterval]
    omega
  obtain ⟨t', there', recent', past'⟩ :=
    exists_update_of_mem first last run (all _ next.1) (next.2 ▸ known)
  have apart := kept.apart_of_mem there there' (by rw [flashInterval] at recent'; omega)
  have same : t' = t + 900 := by
    rw [flashInterval] at apart
    omega
  exact ⟨t', there', same ▸ next.1⟩

/-- A flash time inside of its window refreshes rightly. -/
theorem right_of_inside {flashTime : Int} (first : 600 ≤ flashTime) (last : flashTime ≤ 602)
    (run : Clock clock) : (calls zone (init flashTime) clock).Right zone clock := by
  have kept := (kept_init zone first last).calls run.within
  refine ⟨kept.inside, fun q all l least most => ?_⟩
  obtain ⟨t, there, here⟩ := exists_update_in_interval first last run all least most
  refine Nat.le_antisymm (updates_le_one kept l q) (List.countP_pos_iff.mpr ⟨_, there, ?_⟩)
  simpa using here

/-! ## Other offsets -/

theorem known_refresh {shop : Shop} {timep : Int}
    (known : ∀ entry ∈ shop.updated, level shop.flashTime (seconds zone entry.2) = some entry.1) :
    ∀ entry ∈ (Shop.refresh timep (seconds zone timep) shop).updated,
      level shop.flashTime (seconds zone entry.2) = some entry.1 := by
  intro entry member
  rw [Shop.refresh] at member
  split at member
  · exact known entry member
  · next l now =>
    dsimp only at member
    split at member
    · exact known entry member
    · split at member
      · obtain rfl | member := List.mem_cons.mp member
        · exact now
        · exact known entry member
      · exact known entry member

/-- Only levels whose time has come are updated. -/
theorem known_calls {shop : Shop}
    (known : ∀ entry ∈ shop.updated, level shop.flashTime (seconds zone entry.2) = some entry.1) :
    ∀ entry ∈ (calls zone shop clock).updated,
      level shop.flashTime (seconds zone entry.2) = some entry.1 := by
  induction clock generalizing shop with
  | nil => exact known
  | cons timep clock hyp =>
    have same := flashTime_refresh timep (seconds zone timep) shop
    have later := @hyp (Shop.refresh timep (seconds zone timep) shop)
      (by rw [same]; exact known_refresh known)
    rwa [same] at later

/-- Every second of an interval. -/
def wholeInterval (start : Int) : List Int := (List.range 900).map fun i : Nat => start + i

theorem mem_wholeInterval {start timep : Int} :
    timep ∈ wholeInterval start ↔ start ≤ timep ∧ timep < start + 900 := by
  rw [wholeInterval, List.mem_map]
  constructor
  · rintro ⟨i, member, rfl⟩
    have small := List.mem_range.mp member
    omega
  · rintro ⟨least, less⟩
    exact ⟨(timep - start).toNat, List.mem_range.mpr (by omega), by omega⟩

theorem clock_wholeInterval {start : Int} (least : 900 ≤ start) (most : start ≤ 1800) :
    Clock (wholeInterval start) where
  forward := by
    rw [wholeInterval, List.pairwise_map]
    exact List.pairwise_lt_range.imp fun less => by omega
  within timep member := by
    rw [mem_wholeInterval] at member
    rw [flashInterval]
    omega

/-- If the window ends within the interval, its last second is taken for a level of its own. -/
theorem outside_of_early {flashTime : Int} (first : -300 ≤ flashTime) (last : flashTime ≤ 599) :
    ∃ clock, Clock clock ∧ (calls zone (init flashTime) clock).outside = true := by
  have time : seconds zone (1800 - zone % 900 + flashTime + 300) = flashTime + 300 := by
    rw [seconds_eq, flashInterval]
    omega
  have now : level flashTime (flashTime + 300) = some 101 := by
    rw [level_eq_some]
    omega
  refine ⟨[1800 - zone % 900 + flashTime + 300], ⟨List.pairwise_singleton _ _, fun t member => ?_⟩,
    ?_⟩
  · obtain rfl := List.mem_singleton.mp member
    rw [flashInterval]
    omega
  · rw [calls, List.foldl_cons, List.foldl_nil, time, Shop.refresh, init]
    rw [now]
    rfl

/-- If the interval ends first, the last level is not updated. -/
theorem updates_eq_zero {flashTime : Int} (late : flashTime < -300 ∨ 603 ≤ flashTime) (q : Int) :
    (calls zone (init flashTime) clock).updates zone 100 q = 0 := by
  refine List.countP_eq_zero.mpr fun entry member here => ?_
  have known := @known_calls _ _ (init flashTime)
    (fun entry member => absurd member List.not_mem_nil) entry member
  have bounds := seconds_bounds zone entry.2
  rw [(of_decide_eq_true here).1] at known
  obtain ⟨-, -, last⟩ := level_eq_some.mp known
  rw [flashInterval] at bounds
  dsimp only [init] at last
  omega

/-- For all shops: every clock finds them right if and only if the last level of each is the last
one in the interval. -/
theorem right_iff_flashTime (zone : Int) (flashTimes : List Int) :
    (∀ clock, Clock clock → ∀ shop ∈ run zone flashTimes clock, shop.Right zone clock) ↔
      ∀ flashTime ∈ flashTimes, 600 ≤ flashTime ∧ flashTime ≤ 602 := by
  constructor
  · intro right flashTime member
    have there (clock : List Int) : calls zone (init flashTime) clock ∈ run zone flashTimes clock :=
      run_eq zone flashTimes clock ▸ List.mem_map_of_mem member
    by_contra other
    by_cases early : -300 ≤ flashTime ∧ flashTime ≤ 599
    · obtain ⟨clock, valid, outside⟩ := @outside_of_early zone _ early.1 early.2
      have inside := (right clock valid _ (there clock)).inside
      rw [outside] at inside
      cases inside
    · have valid := @clock_wholeInterval (1800 - zone % 900) (by omega) (by omega)
      have once := (right _ valid _ (there _)).once ((1800 - zone % 900 + zone) / 900)
        (fun timep here => by
          rw [interval, flashInterval] at here
          exact mem_wholeInterval.mpr (by omega)) 100 (by decide) (by decide)
      rw [updates_eq_zero (by omega)] at once
      cases once
  · intro offsets clock valid shop member
    rw [run_eq, List.mem_map] at member
    obtain ⟨flashTime, offset, rfl⟩ := member
    exact right_of_inside (offsets flashTime offset).1 (offsets flashTime offset).2 valid

/-- A shop without an offset, 300 seconds after the begin of an interval. -/
theorem outside_at_the_end_of_the_window :
    Clock [1200] ∧ (run 0 [0] [1200]).map Shop.outside = [true] ∧
      ¬ ∀ shop ∈ run 0 [0] [1200], shop.Right 0 [1200] := by
  have outside : (run 0 [0] [1200]).map Shop.outside = [true] := by decide
  refine ⟨⟨List.pairwise_singleton _ _, by decide⟩, outside, fun right => ?_⟩
  obtain ⟨shop, member, here⟩ := List.mem_map.mp (outside ▸ List.mem_singleton_self true)
  rw [(right shop member).inside] at here
  cases here

end Taomee.Monster.Flash
