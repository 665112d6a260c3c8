import Mathlib.Algebra.Order.Ring.Int
import Mathlib.Data.List.Perm.Basic
import Mathlib.Data.Prod.Lex
import Taomee.Library.Runs

/-!
# The bullets of an attack

An attack shoots its bullets in volleys. All bullets of a volley fly step by step together, until
each has left the area, has hit the map or is taken away for a hit; then comes the next volley.
-/

namespace Taomee.PeaBattle

/-- The flight of the bullets and the tests of what they hit. The type `σ` is of what they fly
through, map and players, `β` of bullets and `π` of players. -/
structure Flight (σ β π : Type) where
  /-- The bullet of a volley by its place, both counted as the source does. -/
  createBullet : σ → Nat → Nat → β
  simulate : σ → β → β
  outOfArea : σ → β → Bool
  /-- Where a bullet hits the map, if it does. -/
  mapCollision : σ → β → Option β
  checkBlowArea : σ → β → σ
  /-- `none` for a bullet without crater data. -/
  mergeCrater : σ → β → Option σ
  allFallDown : σ → β → σ
  playerlist : σ → List π
  isDead : σ → π → Bool
  playerCollision : σ → β → π → Bool
  onHit : σ → β → π → σ

/-- A bullet, and which of those created it is. -/
structure Shot (β : Type) where
  number : Nat
  bullet : β

/-- An attack within its loops: the bullets before the iterator and those from it on, the hit
result, and what has become of bullets so far. -/
structure AttackObj (σ β : Type) where
  btl : σ
  remainBulletTimes : Nat
  hitResult : Bool
  passed : List (Shot β)
  ahead : List (Shot β)
  created : Nat
  destroyed : List Nat
  craters : List Nat

variable {σ β π : Type}

def mergeBulletCraterToMap (f : Flight σ β π) (btl : σ) (bullet : β) : σ :=
  match f.mergeCrater btl bullet with
  | none => btl
  | some btl => f.allFallDown btl bullet

/-- The loop over the players, with the hit result of the attack. -/
def hitPlayers [DecidableEq π] (f : Flight σ β π) (owner : π) (bullet : β) :
    List π → σ → Bool → σ × Bool
  | [], btl, hitResult => (btl, hitResult)
  | p :: rest, btl, hitResult =>
    if p = owner then hitPlayers f owner bullet rest btl hitResult
    else if f.isDead btl p then hitPlayers f owner bullet rest btl hitResult
    else if f.playerCollision btl bullet p then
      hitPlayers f owner bullet rest (f.onHit btl bullet p) true
    else hitPlayers f owner bullet rest btl hitResult

def AttackObj.destroyBullet (a : AttackObj σ β) (shot : Shot β) : AttackObj σ β :=
  { a with destroyed := a.destroyed ++ [shot.number] }

/-- One turn of the inner loop, for the bullet at the iterator. -/
def stepBullet [DecidableEq π] (f : Flight σ β π) (owner : π) (a : AttackObj σ β) (shot : Shot β) :
    AttackObj σ β :=
  let bullet := f.simulate a.btl shot.bullet
  if f.outOfArea a.btl bullet then a.destroyBullet shot
  else
    match f.mapCollision a.btl bullet with
    | some bullet =>
      { a.destroyBullet shot with
        btl := mergeBulletCraterToMap f (f.checkBlowArea a.btl bullet) bullet
        craters := a.craters ++ [shot.number] }
    | none =>
      let (btl, hitResult) := hitPlayers f owner bullet (f.playerlist a.btl) a.btl a.hitResult
      if hitResult then
        { a.destroyBullet shot with
          btl := mergeBulletCraterToMap f btl bullet, hitResult
          craters := a.craters ++ [shot.number] }
      else { a with btl, hitResult, passed := a.passed ++ [{ shot with bullet }] }

/-- A volley; `bulletCount` is the number of its bullets, `bulletTimes` that of all volleys. -/
def initAttackObj (f : Flight σ β π) (bulletCount bulletTimes : Nat) (a : AttackObj σ β) :
    AttackObj σ β :=
  let times := bulletTimes - a.remainBulletTimes + 1
  { a with
    remainBulletTimes := a.remainBulletTimes - 1
    ahead := (List.range bulletCount).map fun i =>
      { number := a.created + i, bullet := f.createBullet a.btl times i }
    created := a.created + bulletCount }

/-- One turn of the loops of `process_attack_obj`: of the inner loop while the iterator is not at
the end, else of the one around it, else of the loop over the volleys. -/
def attackStep [DecidableEq π] (f : Flight σ β π) (owner : π) (bulletCount bulletTimes : Nat)
    (a : AttackObj σ β) : AttackObj σ β :=
  match a.ahead, a.passed with
  | shot :: rest, _ => stepBullet f owner { a with ahead := rest } shot
  | [], _ :: _ => { a with passed := [], ahead := a.passed }
  | [], [] => if a.remainBulletTimes > 0 then initAttackObj f bulletCount bulletTimes a else a

def createAttackObj (btl : σ) (bulletTimes : Nat) : AttackObj σ β :=
  { btl, remainBulletTimes := bulletTimes, hitResult := false, passed := [], ahead := []
    created := 0, destroyed := [], craters := [] }

/-- `process_attack_obj` returns. -/
def AttackObj.Over (a : AttackObj σ β) : Prop :=
  a.ahead = [] ∧ a.passed = [] ∧ a.remainBulletTimes = 0

/-! ## What should end a flight -/

/-- A bullet has hit a living player other than the shooter. -/
def HitsPlayer (f : Flight σ β π) (owner : π) (btl : σ) (bullet : β) : Prop :=
  ∃ p ∈ f.playerlist btl, p ≠ owner ∧ f.isDead btl p = false ∧ f.playerCollision btl bullet p = true

/-- A bullet, after it has flown on, has left the area, hit the map or hit a player. -/
def Ends (f : Flight σ β π) (owner : π) (btl : σ) (bullet : β) : Prop :=
  let bullet := f.simulate btl bullet
  f.outOfArea btl bullet = true ∨ (f.mapCollision btl bullet).isSome ∨ HitsPlayer f owner btl bullet

/-- A turn destroys a bullet or applies a crater only if it is that of the bullet at the iterator,
whose flight ends there; it is destroyed, and no other crater is applied. -/
def EndsRightly [DecidableEq π] (f : Flight σ β π) (owner : π) (a a' : AttackObj σ β) : Prop :=
  a'.destroyed ≠ a.destroyed ∨ a'.craters ≠ a.craters →
    ∃ shot rest, a.ahead = shot :: rest ∧ Ends f owner a.btl shot.bullet ∧
      a'.destroyed = a.destroyed ++ [shot.number] ∧
      (a'.craters = a.craters ∨ a'.craters = a.craters ++ [shot.number])

/-- Every bullet created so far is in flight once or was destroyed once. -/
def AttackObj.Accounted (a : AttackObj σ β) : Prop :=
  (a.destroyed ++ (a.passed ++ a.ahead).map Shot.number).Perm (List.range a.created)

/-- Every flight ends: a bullet that stays in the area has less to fly. -/
def Flight.Ending (f : Flight σ β π) : Prop :=
  ∃ rank : β → Nat, ∀ btl bullet, f.outOfArea btl (f.simulate btl bullet) = false →
    rank (f.simulate btl bullet) < rank bullet

/-- The attack with so many volleys of so many bullets, after any number of turns. -/
def attackAfter [DecidableEq π] (f : Flight σ β π) (owner : π) (bulletCount bulletTimes : Nat)
    (btl : σ) (turns : Nat) : AttackObj σ β :=
  (attackStep f owner bulletCount bulletTimes)^[turns] (createAttackObj btl bulletTimes)

structure AttackRight [DecidableEq π] (f : Flight σ β π) (owner : π)
    (bulletCount bulletTimes : Nat) (btl : σ) : Prop where
  rightly : ∀ turns, EndsRightly f owner (attackAfter f owner bulletCount bulletTimes btl turns)
    (attackAfter f owner bulletCount bulletTimes btl (turns + 1))
  accounted : ∀ turns, (attackAfter f owner bulletCount bulletTimes btl turns).Accounted
  complete : ∀ turns, (attackAfter f owner bulletCount bulletTimes btl turns).Over →
    (attackAfter f owner bulletCount bulletTimes btl turns).destroyed.Perm
      (List.range (bulletCount * bulletTimes))
  returns : f.Ending → ∃ turns, (attackAfter f owner bulletCount bulletTimes btl turns).Over

section

variable [DecidableEq π] {f : Flight σ β π} {owner : π} {bulletCount bulletTimes : Nat} {btl : σ}
  {bullet : β} {shot : Shot β} {rest : List (Shot β)} {a : AttackObj σ β}

/-! ## One turn -/

theorem hitPlayers_of_hit (players : List π) (btl : σ) :
    (hitPlayers f owner bullet players btl true).2 = true := by
  induction players generalizing btl with
  | nil => rfl
  | cons p rest ih =>
    unfold hitPlayers
    split
    · exact ih btl
    · split
      · exact ih btl
      · split
        · exact ih _
        · exact ih btl

/-- The hit result stays, or a living player is hit; before the first hit nothing changes. -/
theorem hitPlayers_snd (f : Flight σ β π) (owner : π) (bullet : β) (players : List π) (btl : σ)
    (hitResult : Bool) : (hitPlayers f owner bullet players btl hitResult).2 = true ↔ hitResult = true ∨
      ∃ p ∈ players, p ≠ owner ∧ f.isDead btl p = false ∧
        f.playerCollision btl bullet p = true := by
  induction players with
  | nil => simp [hitPlayers]
  | cons p rest ih =>
    unfold hitPlayers
    by_cases own : p = owner
    · simp [own, ih]
    · by_cases dead : f.isDead btl p
      · simp [dead, ih]
      · by_cases hit : f.playerCollision btl bullet p
        · simp [own, dead, hit, hitPlayers_of_hit]
        · simp [hit, ih]

/-- What the turn of a bullet does: it ends the flight where it should, or where the attack has
hit somebody before. -/
theorem stepBullet_cases (f : Flight σ β π) (owner : π) (a : AttackObj σ β) (shot : Shot β) :
    (Ends f owner a.btl shot.bullet ∨ a.hitResult = true) ∧
        (∃ btl hitResult craters, (craters = a.craters ∨ craters = a.craters ++ [shot.number]) ∧
          stepBullet f owner a shot = { a.destroyBullet shot with btl, hitResult, craters }) ∨
      ¬Ends f owner a.btl shot.bullet ∧ a.hitResult = false ∧
        ∃ btl hitResult, stepBullet f owner a shot =
          { a with btl, hitResult
                   passed := a.passed ++ [{ shot with bullet := f.simulate a.btl shot.bullet }] } := by
  by_cases out : f.outOfArea a.btl (f.simulate a.btl shot.bullet) = true
  · refine .inl ⟨.inl (.inl out), a.btl, a.hitResult, a.craters, .inl rfl, ?_⟩
    simp only [stepBullet, out]
    rfl
  · cases hitsMap : f.mapCollision a.btl (f.simulate a.btl shot.bullet) with
    | some bullet =>
      refine .inl ⟨.inl (.inr (.inl (by simp [hitsMap]))), ?_⟩
      simp only [stepBullet, out, hitsMap]
      exact ⟨_, a.hitResult, _, .inr rfl, rfl⟩
    | none =>
      have result := hitPlayers_snd f owner (f.simulate a.btl shot.bullet)
        (f.playerlist a.btl) a.btl a.hitResult
      have ends : Ends f owner a.btl shot.bullet ↔
          HitsPlayer f owner a.btl (f.simulate a.btl shot.bullet) := by
        simp [Ends, out, hitsMap]
      simp only [stepBullet, out, hitsMap]
      by_cases hit : (hitPlayers f owner (f.simulate a.btl shot.bullet) (f.playerlist a.btl) a.btl
          a.hitResult).2 = true
      · refine .inl ⟨(result.mp hit).symm.imp_left ends.mpr, ?_⟩
        exact ⟨_, _, _, .inr rfl, if_pos hit⟩
      · obtain ⟨fresh, missed⟩ := not_or.mp (mt result.mpr hit)
        exact .inr ⟨mt ends.mp missed, Bool.eq_false_iff.mpr fresh, _, _, if_neg hit⟩

/-! ## The turns of a run -/

theorem attackStep_cons (here : a.ahead = shot :: rest) :
    attackStep f owner bulletCount bulletTimes a = stepBullet f owner { a with ahead := rest } shot := by
  simp only [attackStep, here]

theorem attackStep_restart (here : a.ahead = []) (some' : a.passed ≠ []) :
    attackStep f owner bulletCount bulletTimes a = { a with passed := [], ahead := a.passed } := by
  cases kept : a.passed with
  | nil => exact absurd kept some'
  | cons shot rest => simp only [attackStep, here, kept]

theorem attackStep_volley (here : a.ahead = []) (none' : a.passed = [])
    (left : 0 < a.remainBulletTimes) :
    attackStep f owner bulletCount bulletTimes a = initAttackObj f bulletCount bulletTimes a := by
  simp only [attackStep, here, none', if_pos left]

theorem attackStep_over (over' : a.Over) : attackStep f owner bulletCount bulletTimes a = a := by
  obtain ⟨here, none', last⟩ := over'
  simp [attackStep, here, none', last]

/-- What a turn can be. -/
theorem attack_cases (a : AttackObj σ β) :
    (∃ shot rest, a.ahead = shot :: rest) ∨ a.ahead = [] ∧ a.passed ≠ [] ∨
      a.ahead = [] ∧ a.passed = [] ∧ 0 < a.remainBulletTimes ∨ a.Over := by
  cases here : a.ahead with
  | cons shot rest => exact .inl ⟨shot, rest, rfl⟩
  | nil =>
    by_cases kept : a.passed = []
    · obtain last | left := Nat.eq_zero_or_pos a.remainBulletTimes
      · exact .inr (.inr (.inr ⟨here, kept, last⟩))
      · exact .inr (.inr (.inl ⟨rfl, kept, left⟩))
    · exact .inr (.inl ⟨rfl, kept⟩)

/-- A turn ends flights rightly exactly where it is not the turn of a bullet that flies on after
an earlier hit. -/
theorem endsRightly_iff :
    EndsRightly f owner a (attackStep f owner bulletCount bulletTimes a) ↔
    ∀ shot rest, a.ahead = shot :: rest → a.hitResult = false ∨ Ends f owner a.btl shot.bullet := by
  unfold EndsRightly
  obtain ⟨shot, rest, here⟩ | ⟨here, kept⟩ | ⟨here, none', left⟩ | over' := attack_cases a
  · rw [attackStep_cons here, here]
    obtain ⟨cause, btl, hitResult, craters, gains, result⟩ |
        ⟨flies, fresh, btl, hitResult, result⟩ :=
      stepBullet_cases f owner { a with ahead := rest } shot
    · rw [result]
      constructor
      · intro rightly shot' rest' same
        obtain ⟨rfl, rfl⟩ := List.cons.inj same
        obtain ⟨_, _, same, ends, -⟩ := rightly (.inl (by simp [AttackObj.destroyBullet]))
        obtain ⟨rfl, rfl⟩ := List.cons.inj same
        exact .inr ends
      · intro fits changed
        refine ⟨shot, rest, rfl, ?_, rfl, gains⟩
        obtain fresh | ends := fits shot rest rfl
        · exact cause.resolve_right (by simp [fresh])
        · exact ends
    · rw [result]
      constructor
      · rintro - shot' rest' -
        exact .inl fresh
      · rintro - (changed | changed)
        · exact absurd rfl changed
        · exact absurd rfl changed
  · rw [attackStep_restart here kept]
    simp [here]
  · rw [attackStep_volley here none' left]
    simp [here, initAttackObj]
  · rw [attackStep_over over']
    simp [over'.1]

theorem accounted_step (accounted : a.Accounted) :
    (attackStep f owner bulletCount bulletTimes a).Accounted := by
  unfold AttackObj.Accounted at *
  obtain ⟨shot, rest, here⟩ | ⟨here, kept⟩ | ⟨here, none', left⟩ | over' := attack_cases a
  · rw [attackStep_cons here]
    rw [here] at accounted
    obtain ⟨-, btl, hitResult, craters, -, result⟩ | ⟨-, -, btl, hitResult, result⟩ :=
      stepBullet_cases f owner { a with ahead := rest } shot
    · rw [result]
      refine List.Perm.trans ?_ accounted
      simp only [AttackObj.destroyBullet, List.append_assoc]
      refine List.Perm.append_left _ ?_
      simpa using List.perm_middle.symm
    · rw [result]
      simpa using accounted
  · rw [attackStep_restart here kept]
    simpa [here] using accounted
  · rw [attackStep_volley here none' left]
    have before : a.destroyed.Perm (List.range a.created) := by simpa [here, none'] using accounted
    simp only [initAttackObj, none', List.nil_append, List.map_map, List.range_add]
    exact before.append_right _
  · rwa [attackStep_over over']

/-- The volleys that are left make up for the bullets that are not created yet. -/
def AttackObj.Counted (a : AttackObj σ β) (bulletCount bulletTimes : Nat) : Prop :=
  a.created + bulletCount * a.remainBulletTimes = bulletCount * bulletTimes

theorem counted_step (counted : a.Counted bulletCount bulletTimes) :
    (attackStep f owner bulletCount bulletTimes a).Counted bulletCount bulletTimes := by
  unfold AttackObj.Counted at *
  obtain ⟨shot, rest, here⟩ | ⟨here, kept⟩ | ⟨here, none', left⟩ | over' := attack_cases a
  · obtain ⟨-, btl, hitResult, craters, -, result⟩ | ⟨-, -, btl, hitResult, result⟩ :=
      stepBullet_cases f owner { a with ahead := rest } shot
    · simpa only [attackStep_cons here, result, AttackObj.destroyBullet] using counted
    · simpa only [attackStep_cons here, result] using counted
  · simpa only [attackStep_restart here kept] using counted
  · obtain ⟨times, last⟩ := Nat.exists_eq_succ_of_ne_zero left.ne'
    rw [last, Nat.mul_succ] at counted
    simp only [attackStep_volley here none' left, initAttackObj, last, Nat.succ_sub_one]
    omega
  · simpa only [attackStep_over over'] using counted

theorem attackAfter_accounted (turns : Nat) :
    (attackAfter f owner bulletCount bulletTimes btl turns).Accounted := by
  have initial : (createAttackObj btl bulletTimes : AttackObj σ β).Accounted := List.Perm.refl _
  exact Runs.iterate_invariant accounted_step initial turns

theorem attackAfter_counted (turns : Nat) :
    (attackAfter f owner bulletCount bulletTimes btl turns).Counted bulletCount bulletTimes := by
  let counted (a : AttackObj σ β) : Prop := a.Counted bulletCount bulletTimes
  have initial : counted (createAttackObj btl bulletTimes) := Nat.zero_add _
  exact Runs.iterate_invariant (@counted_step _ _ _ _ f owner bulletCount bulletTimes) initial turns

/-! ## The end of the attack -/

/-- What the bullets of an attack have still to fly. -/
def toFly (rank : β → Nat) (shots : List (Shot β)) : Nat :=
  (shots.map fun shot => rank shot.bullet + 1).sum

/-- Volleys, what there is to fly, and whether the iterator is at the end. -/
def attackRank (rank : β → Nat) (a : AttackObj σ β) : Nat ×ₗ Nat ×ₗ Nat :=
  toLex (a.remainBulletTimes,
    toLex (toFly rank (a.passed ++ a.ahead), if a.ahead.isEmpty then 1 else 0))

theorem attackRank_lt {rank : β → Nat} (shortens : ∀ btl bullet,
      f.outOfArea btl (f.simulate btl bullet) = false →
        rank (f.simulate btl bullet) < rank bullet) (goesOn : ¬a.Over) :
    attackRank rank (attackStep f owner bulletCount bulletTimes a) < attackRank rank a := by
  unfold attackRank
  rw [Prod.Lex.toLex_lt_toLex, Prod.Lex.toLex_lt_toLex]
  obtain ⟨shot, rest, here⟩ | ⟨here, kept⟩ | ⟨here, none', left⟩ | over' := attack_cases a
  · rw [attackStep_cons here, here]
    obtain ⟨-, btl, hitResult, craters, -, result⟩ | ⟨flies, -, btl, hitResult, result⟩ :=
      stepBullet_cases f owner { a with ahead := rest } shot
    · rw [result]
      simp [toFly, AttackObj.destroyBullet]
    · rw [result]
      have shorter := shortens a.btl shot.bullet (Bool.eq_false_iff.mpr fun out => flies (.inl out))
      simpa [toFly, Nat.add_assoc] using shorter
  · rw [attackStep_restart here kept]
    simp [here, kept]
  · rw [attackStep_volley here none' left]
    exact .inl (Nat.sub_lt left Nat.one_pos)
  · exact absurd over' goesOn

/-- An attack goes right exactly where no bullet flies on after an earlier hit of the attack: in
every turn of a bullet there was none, or its flight ends for a reason of its own. -/
theorem attackRight_iff (f : Flight σ β π) (owner : π) (bulletCount bulletTimes : Nat) (btl : σ) :
    AttackRight f owner bulletCount bulletTimes btl ↔
      ∀ turns shot rest,
        (attackAfter f owner bulletCount bulletTimes btl turns).ahead = shot :: rest →
          (attackAfter f owner bulletCount bulletTimes btl turns).hitResult = false ∨
            Ends f owner (attackAfter f owner bulletCount bulletTimes btl turns).btl
              shot.bullet := by
  have next (turns : Nat) : attackAfter f owner bulletCount bulletTimes btl (turns + 1) =
      attackStep f owner bulletCount bulletTimes
        (attackAfter f owner bulletCount bulletTimes btl turns) :=
    Function.iterate_succ_apply' _ _ _
  constructor
  · intro right turns
    have rightly := right.rightly turns
    rw [next] at rightly
    exact endsRightly_iff.mp rightly
  · intro fits
    refine ⟨fun turns => ?_, attackAfter_accounted, fun turns ⟨none', none'', last⟩ => ?_, ?_⟩
    · rw [next]
      exact endsRightly_iff.mpr (fits turns)
    · have counted : (attackAfter f owner bulletCount bulletTimes btl turns).Counted bulletCount
          bulletTimes := attackAfter_counted turns
      rw [AttackObj.Counted, last, Nat.mul_zero, Nat.add_zero] at counted
      have all : (attackAfter f owner bulletCount bulletTimes btl turns).Accounted :=
        attackAfter_accounted turns
      rw [AttackObj.Accounted, none', none'', counted] at all
      simpa using all
    · rintro ⟨rank, shortens⟩
      exact Runs.exists_iterate (attackRank rank) (fun _ => True) AttackObj.Over
        (fun _ goesOn => ⟨trivial, attackRank_lt shortens goesOn⟩) trivial

end

/-- Bullets that fly on for ever; the first of a volley hits player 7. -/
def firstHits : Flight Unit Nat Nat :=
  { createBullet := fun _ _ i => i
    simulate := fun _ bullet => bullet
    outOfArea := fun _ _ => false
    mapCollision := fun _ _ => none
    checkBlowArea := fun btl _ => btl
    mergeCrater := fun btl _ => some btl
    allFallDown := fun btl _ => btl
    playerlist := fun _ => [7]
    isDead := fun _ _ => false
    playerCollision := fun _ bullet _ => bullet = 0
    onHit := fun btl _ _ => btl }

/-- The second bullet of two, which hits nothing, is destroyed for the hit of the first. -/
theorem not_attackRight_firstHits : ¬AttackRight firstHits 1 2 1 () := by
  intro right
  obtain ⟨shot, rest, here, ends, -⟩ := right.rightly 2 (.inl (by decide))
  obtain ⟨rfl, -⟩ := List.cons.inj (show [(⟨1, 1⟩ : Shot Nat)] = shot :: rest from here)
  obtain out | hitsMap | ⟨p, -, -, -, hit⟩ := ends
  · cases out
  · cases hitsMap
  · cases hit

end Taomee.PeaBattle
