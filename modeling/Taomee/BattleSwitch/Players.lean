import Taomee.BattleSwitch.Onlines
import Taomee.Library.Runs

/-!
# The battle switch: the registries of players

A player is meant to be in the global map and in that of its online server, under one key. It enters
both by the key, and leaves the second by its id.
-/

namespace Taomee.BattleSwitch

open Records Runs

variable {s s' : Switch} {a mem o : Addr} {p : Player} {key : UInt64}

/-- A live player with a key. -/
def HasKey (s : Switch) (key : UInt64) (a : Addr) : Prop :=
  ∃ p, s.players a = some p ∧ p.key = key

/-- A live player of an online server, with a key. -/
def HasKeyAt (s : Switch) (o : Addr) (key : UInt64) (a : Addr) : Prop :=
  ∃ p, s.players a = some p ∧ p.key = key ∧ p.online = o

/-- Both registries hold the live players, by their keys. -/
structure Registered (s : Switch) : Prop where
  everywhere : ∀ {key a}, s.playerMap[key]? = some a ↔ HasKey s key a
  atOnline : ∀ {o online key a}, s.onlines o = some online →
    (online.playerMap[key]? = some a ↔ HasKeyAt s o key a)
  hosted : ∀ {a p}, s.players a = some p → (s.onlines p.online).isSome

/-- The id of a player is its key. -/
def FoundById (s : Switch) (a : Addr) : Prop :=
  ∀ p, s.players a = some p → p.key = p.id.toUInt64

/-- A player that leaves is found by its id, and an online server leaves without players. -/
def LeavesFound (s : Switch) : Effect → Prop
  | .act (.delPlayer a) => FoundById s a
  | .enterHall _ _ pkg => ∀ old, s.getPlayer pkg.id pkg.roleTm = some old → FoundById s old
  | .delOnline o => ∀ online, s.onlines o = some online → online.playerMap.isEmpty
  | _ => True

theorem FoundById.quiet (found : FoundById s a) (quiet : Quiet s s') : FoundById s' a := by
  intro p here
  obtain ⟨q, there, place⟩ := quiet.place_of_some here
  obtain ⟨id, rest⟩ := Prod.mk.inj place
  rw [Player.key, id, (Prod.mk.inj rest).1]
  exact found q there

theorem LeavesFound.quiet {effect : Effect} (found : LeavesFound s effect) (quiet : Quiet s s') :
    LeavesFound s' effect := by
  cases effect with
  | act action =>
    cases action with
    | delPlayer a => exact FoundById.quiet found quiet
    | _ => trivial
  | enterHall o mem pkg =>
    intro old known
    rw [Switch.getPlayer, quiet.playerMap] at known
    exact FoundById.quiet (found old known) quiet
  | delOnline o =>
    intro online here
    rw [quiet.onlines] at here
    exact found online here
  | _ => trivial

theorem SameRegistry.hasKey (same : SameRegistry s s') : HasKey s' key a ↔ HasKey s key a := by
  have carry : ∀ {s s' : Switch}, SameRegistry s s' → HasKey s key a → HasKey s' key a := by
    rintro s s' same ⟨p, found, rfl⟩
    obtain ⟨q, there, ident⟩ := same.exists_player found
    obtain ⟨id, rest⟩ := Prod.mk.inj ident
    obtain ⟨roleTm, -⟩ := Prod.mk.inj rest
    exact ⟨q, there, by rw [Player.key, Player.key, id, roleTm]⟩
  exact ⟨carry same.symm, carry same⟩

theorem SameRegistry.hasKeyAt (same : SameRegistry s s') :
    HasKeyAt s' o key a ↔ HasKeyAt s o key a := by
  have carry : ∀ {s s' : Switch}, SameRegistry s s' → HasKeyAt s o key a → HasKeyAt s' o key a := by
    rintro s s' same ⟨p, found, rfl, rfl⟩
    obtain ⟨q, there, ident⟩ := same.exists_player found
    obtain ⟨id, rest⟩ := Prod.mk.inj ident
    obtain ⟨roleTm, online⟩ := Prod.mk.inj rest
    exact ⟨q, there, by rw [Player.key, Player.key, id, roleTm], online⟩
  exact ⟨carry same.symm, carry same⟩

namespace Registered

theorem init : Registered Switch.init where
  everywhere := by
    intro key a
    constructor
    · intro found
      simp [Switch.init] at found
    · rintro ⟨p, found, -⟩
      cases found
  atOnline found := by cases found
  hosted found := by cases found

theorem sameRegistry (before : Registered s) (same : SameRegistry s s') : Registered s' where
  everywhere := by
    intro key a
    rw [same.playerMap, same.hasKey]
    exact before.everywhere
  atOnline := by
    intro o online key a found
    obtain ⟨old, there, ident⟩ := same.symm.exists_online found
    have map : old.playerMap = online.playerMap := congrArg (·.2.2) ident
    rw [same.hasKeyAt, ← map]
    exact before.atOnline there
  hosted := by
    intro a p found
    obtain ⟨q, there, ident⟩ := same.symm.exists_player found
    have hosted := before.hosted there
    rw [show q.online = p.online from congrArg (·.2.2) ident] at hosted
    obtain ⟨online, here⟩ := Option.isSome_iff_exists.mp hosted
    obtain ⟨online', after, -⟩ := same.exists_online here
    rw [after]
    rfl

/-- No player is registered under two keys, and no key is that of two players. -/
theorem unique {b : Addr} (before : Registered s) (first : HasKey s key a)
    (second : HasKey s key b) : a = b := by
  have found := before.everywhere.mpr first
  rw [before.everywhere.mpr second] at found
  exact (Option.some.inj found).symm

/-! ## Deletion -/

/-- The other players are those with other keys. -/
theorem apart_iff {b : Addr} {q : Player} (before : Registered s) (found : s.players a = some p)
    (there : s.players b = some q) : b ≠ a ↔ p.key ≠ q.key := by
  refine not_congr ⟨?_, fun same => before.unique ⟨q, there, rfl⟩ ⟨p, found, same⟩⟩
  rintro rfl
  rw [found] at there
  exact congrArg Player.key (Option.some.inj there)

theorem hasKey_withoutPlayer {b : Addr} (before : Registered s) (found : s.players a = some p) :
    HasKey (s.withoutPlayer a p) key b ↔ p.key ≠ key ∧ HasKey s key b := by
  constructor
  · rintro ⟨q, there, rfl⟩
    obtain ⟨apart, there⟩ := Switch.players_withoutPlayer.mp there
    exact ⟨(before.apart_iff found there).mp apart, q, there, rfl⟩
  · rintro ⟨other, q, there, rfl⟩
    have apart := (before.apart_iff found there).mpr other
    exact ⟨q, Switch.players_withoutPlayer.mpr ⟨apart, there⟩, rfl⟩

theorem hasKeyAt_withoutPlayer {b : Addr} (before : Registered s) (found : s.players a = some p) :
    HasKeyAt (s.withoutPlayer a p) o key b ↔ p.key ≠ key ∧ HasKeyAt s o key b := by
  constructor
  · rintro ⟨q, there, rfl, online⟩
    obtain ⟨apart, there⟩ := Switch.players_withoutPlayer.mp there
    exact ⟨(before.apart_iff found there).mp apart, q, there, rfl, online⟩
  · rintro ⟨other, q, there, rfl, online⟩
    have apart := (before.apart_iff found there).mpr other
    exact ⟨q, Switch.players_withoutPlayer.mpr ⟨apart, there⟩, rfl, online⟩

/-- A player of another online server has another key. -/
theorem hasKeyAt_ne (before : Registered s) (found : s.players a = some p) (other : o ≠ p.online)
    {b : Addr} (there : HasKeyAt s o key b) : p.key ≠ key := by
  obtain ⟨q, there, rfl, rfl⟩ := there
  intro same
  obtain rfl := before.unique ⟨q, there, rfl⟩ ⟨p, found, same⟩
  rw [found] at there
  cases there
  exact other rfl

theorem withoutPlayer (before : Registered s) (found : s.players a = some p)
    (byId : p.key = p.id.toUInt64) : Registered (s.withoutPlayer a p) where
  everywhere := by
    intro key b
    rw [before.hasKey_withoutPlayer found]
    exact PtrMap.erase_eq_some_iff.trans (and_congr_right' before.everywhere)
  atOnline := by
    intro o online key b there
    rw [before.hasKeyAt_withoutPlayer found]
    obtain ⟨rfl, old, here, rfl⟩ | ⟨other, here⟩ := modify_eq_some_iff.mp there
    · rw [byId]
      exact PtrMap.erase_eq_some_iff.trans (and_congr_right' (before.atOnline here))
    · rw [before.atOnline here]
      exact (and_iff_right_of_imp (before.hasKeyAt_ne found other)).symm
  hosted := by
    intro b q there
    have hosted := before.hosted (Switch.players_withoutPlayer.mp there).2
    exact isSome_modify.trans hosted

theorem delPlayer (before : Registered s) (byId : FoundById s a) : Registered (s.delPlayer a) := by
  cases found : s.players a with
  | none =>
    rw [Switch.delPlayer, found]
    exact before
  | some p => exact (before.withoutPlayer found (byId p found)).sameRegistry (.delPlayer found)

/-- The key of a player that enters is free. -/
theorem delOldPlayer (before : Registered s) (pkg : Pkg)
    (byId : ∀ old, s.getPlayer pkg.id pkg.roleTm = some old → FoundById s old) :
    Registered (s.delOldPlayer pkg) ∧ (s.delOldPlayer pkg).getPlayer pkg.id pkg.roleTm = none := by
  rw [Switch.delOldPlayer]
  cases known : s.getPlayer pkg.id pkg.roleTm with
  | none => exact ⟨before, known⟩
  | some old =>
    refine ⟨before.delPlayer (byId old known), ?_⟩
    obtain ⟨p, found, same⟩ := before.everywhere.mp known
    rw [Option.map_some, Option.getD_some, Switch.getPlayer,
      (SameRegistry.delPlayer found).playerMap]
    show (s.playerMap.erase p.key)[makePlayerKey pkg.id pkg.roleTm]? = none
    rw [PtrMap.getElem?_erase, if_pos same]

end Registered

/-! ## Entering the hall -/

/-- The key with which a player enters. -/
theorem Switch.players_addPlayer {uid : UInt32} {roleTm : Int32} (fresh : Fresh s mem)
    {b : Addr} {q : Player} : (s.addPlayer mem o uid roleTm).players b = some q ↔
      b = mem ∧ q = newPlayer o ⟨0, uid, roleTm, .request .playerEnterHall⟩ ∨
        s.players b = some q := by
  show Function.update s.players mem _ b = some q ↔ _
  obtain rfl | apart := eq_or_ne b mem
  · rw [Function.update_self, Option.isNone_iff_eq_none.mp fresh.2.1]
    simp [newPlayer, eq_comm]
  · simp [apart]

namespace Registered

/-- A player that enters is the only one with its key. -/
theorem addPlayer (before : Registered s) (fresh : Fresh s mem) (connected : (s.onlines o).isSome)
    {uid : UInt32} {roleTm : Int32} (free : s.getPlayer uid roleTm = none) :
    Registered (s.addPlayer mem o uid roleTm) where
  everywhere := by
    refine ((PtrMap.insertIfNew_eq_some_iff free).trans (or_congr_right before.everywhere)).trans ?_
    constructor
    · rintro (⟨rfl, rfl⟩ | ⟨q, there, same⟩)
      · exact ⟨_, (Switch.players_addPlayer fresh).mpr (.inl ⟨rfl, rfl⟩), rfl⟩
      · exact ⟨q, (Switch.players_addPlayer fresh).mpr (.inr there), same⟩
    · rintro ⟨q, there, same⟩
      obtain ⟨rfl, rfl⟩ | there := (Switch.players_addPlayer fresh).mp there
      · exact .inl ⟨rfl, same⟩
      · exact .inr ⟨q, there, same⟩
  atOnline := by
    intro o' online key b there
    have players : HasKeyAt (s.addPlayer mem o uid roleTm) o' key b ↔
        (b = mem ∧ makePlayerKey uid roleTm = key) ∧ o' = o ∨ HasKeyAt s o' key b := by
      constructor
      · rintro ⟨q, there, same, online⟩
        obtain ⟨rfl, rfl⟩ | there := (Switch.players_addPlayer fresh).mp there
        · exact .inl ⟨⟨rfl, same⟩, online.symm⟩
        · exact .inr ⟨q, there, same, online⟩
      · rintro (⟨⟨rfl, rfl⟩, rfl⟩ | ⟨q, there, rest⟩)
        · exact ⟨_, (Switch.players_addPlayer fresh).mpr (.inl ⟨rfl, rfl⟩), rfl, rfl⟩
        · exact ⟨q, (Switch.players_addPlayer fresh).mpr (.inr there), rest⟩
    rw [players]
    obtain ⟨rfl, old, here, rfl⟩ | ⟨other, here⟩ := modify_eq_some_iff.mp there
    · have unknown : old.playerMap[makePlayerKey uid roleTm]? = none := by
        cases known : old.playerMap[makePlayerKey uid roleTm]? with
        | none => rfl
        | some b =>
          obtain ⟨q, there, same, -⟩ := (before.atOnline here).mp known
          have found := before.everywhere.mpr ⟨q, there, same⟩
          rw [Switch.getPlayer] at free
          rw [free] at found
          cases found
      rw [and_iff_left rfl]
      exact (PtrMap.insertIfNew_eq_some_iff unknown).trans (or_congr_right (before.atOnline here))
    · rw [before.atOnline here]
      simp [other]
  hosted := by
    intro b q there
    refine isSome_modify.trans ?_
    obtain ⟨-, rfl⟩ | there := (Switch.players_addPlayer fresh).mp there
    · exact connected
    · exact before.hosted there

/-! ## Online servers -/

theorem addOnline (before : Registered s) (fresh : Fresh s mem) (fd olid : Nat) :
    Registered ((s.addOnline mem fd olid).getD s) := by
  rw [Switch.addOnline]
  split
  · exact before
  · refine ⟨before.everywhere, ?_, ?_⟩
    · intro o online key b there
      dsimp only [Option.getD_some] at there
      obtain rfl | apart := eq_or_ne o mem
      · rw [Function.update_self] at there
        cases there
        constructor
        · intro found
          simp at found
        · rintro ⟨q, found, -, online⟩
          have hosted := before.hosted found
          rw [online] at hosted
          have free := fresh.2.2.2
          rw [Option.isNone_iff_eq_none] at free
          rw [free] at hosted
          cases hosted
      · rw [Function.update_of_ne apart] at there
        exact before.atOnline there
    · intro b q there
      have hosted := before.hosted there
      dsimp only [Option.getD_some]
      obtain same | apart := eq_or_ne q.online mem
      · rw [same, Function.update_self]
        rfl
      · rw [Function.update_of_ne apart]
        exact hosted

theorem delOnline (before : Registered s)
    (empty : ∀ online, s.onlines o = some online → online.playerMap.isEmpty) :
    Registered (s.delOnline o) := by
  cases found : s.onlines o with
  | none =>
    rw [Switch.delOnline, found]
    exact before
  | some online =>
    rw [Switch.delOnline_of_some found]
    have same := SameRegistry.withoutRooms s o
    have released := before.sameRegistry same
    refine ⟨released.everywhere, ?_, ?_⟩
    · intro o' online' key b there
      dsimp only at there
      have apart : o' ≠ o := by
        rintro rfl
        rw [Function.update_self] at there
        cases there
      rw [Function.update_of_ne apart] at there
      exact released.atOnline there
    · intro b q there
      have apart : q.online ≠ o := by
        intro here
        have entry := (before.atOnline found).mpr (same.hasKeyAt.mp ⟨q, there, rfl, here⟩)
        rw [Std.TreeMap.getElem?_of_isEmpty (empty online found)] at entry
        cases entry
      dsimp only
      rw [Function.update_of_ne apart]
      exact released.hosted there

/-! ## Runs -/

theorem step {event : Event} (before : Registered s) (connected : Connected s)
    (allocates : Allocates s event) (found : LeavesFound s (effectOf s event)) :
    Registered (step s event) := by
  refine step_invariant (fun quiet holds => holds.sameRegistry (.of_quiet quiet)) ?_ before
    allocates
  intro s' quiet before fits
  have connected := connected.sameRegistry (.of_quiet quiet)
  have found := found.quiet quiet
  generalize effectOf s event = effect at fits found
  cases effect with
  | act action =>
    by_cases removal : ∃ a, action = .delPlayer a
    · obtain ⟨a, rfl⟩ := removal
      exact before.delPlayer found
    · exact before.sameRegistry (.perform _ fun a same => removal ⟨a, same⟩)
  | enterHall o mem pkg =>
    obtain ⟨fresh, fd, here⟩ := fits
    obtain ⟨old, free⟩ := before.delOldPlayer pkg found
    obtain ⟨online, there, -⟩ := (connected.delOldPlayer pkg).online
      ((s'.onlineFdMap_delOldPlayer pkg).symm ▸ here)
    exact old.addPlayer fresh (Option.isSome_iff_exists.mpr ⟨online, there⟩) free
  | addOnline mem fd olid => exact before.addOnline fits fd olid
  | closedRooms => exact before.sameRegistry (.procClosedRooms _)
  | delOnline o => exact before.delOnline found

end Registered

/-- In a run where only players leave that are found by their id, and online servers without
players, both registries hold the live players, each under its key, and nothing else. -/
theorem registered_of_found
    (run : Reaches step (fun s event => Allocates s event ∧ LeavesFound s (effectOf s event))
      Switch.init s) : Registered s := by
  have both : Connected s ∧ Registered s := by
    apply run.invariant
    · exact ⟨.init, .init⟩
    · rintro s event ⟨connected, before⟩ ⟨allocates, found⟩
      exact ⟨connected.step allocates, before.step connected allocates found⟩
  exact both.2

instance (s : Switch) (a : Addr) : Decidable (FoundById s a) :=
  inferInstanceAs (Decidable (∀ p ∈ s.players a, p.key = p.id.toUInt64))

instance LeavesFound.decidable (s : Switch) : ∀ effect, Decidable (LeavesFound s effect)
  | .act (.delPlayer a) => inferInstanceAs (Decidable (FoundById s a))
  | .enterHall _ _ pkg =>
    inferInstanceAs (Decidable (∀ old ∈ s.getPlayer pkg.id pkg.roleTm, FoundById s old))
  | .delOnline o =>
    inferInstanceAs (Decidable (∀ online ∈ s.onlines o, online.playerMap.isEmpty))
  | .act .nothing | .act .skipRoomId | .act (.addRoom ..) | .act (.leaveSeat _)
  | .act (.sitDown ..) | .act (.setOnoff ..) | .act (.setStatus ..) | .act (.updateAttr ..)
  | .act (.switchStatus ..) | .addOnline .. | .closedRooms => isTrue trivial

/-- Two players meet in a room, one of them enters the hall twice and leaves it, and another online
server comes and goes. -/
theorem registered_of_found_twice : Registered
    ([registration 1 1, registration 2 2, asks 1 0 0 .playerEnterHall 3,
      asks 1 7 8 .playerEnterHall 4, asks 1 7 8 (.pvpCreateRoom "" "" 0 0 0) 5,
      asks 1 0 0 (.pvpJoinRoom 1 "") 6, asks 1 0 0 .playerEnterHall 3,
      asks 1 0 0 .playerExitHall 6, .connClosed 2].foldl step Switch.init) :=
  registered_of_found (Reaches.refl.follow (by decide +kernel))

/-- A player that leaves the hall stays in the map of its online server. -/
theorem exit_leaves_entry : ∃ s, Reaches step Allocates Switch.init s ∧ ¬ Registered s := by
  refine ⟨[registration 1 1, asks 1 7 8 .playerEnterHall 2, asks 1 7 8 .playerExitHall 3].foldl step
    Switch.init, Reaches.refl.follow (by decide +kernel), fun registered => ?_⟩
  generalize left : [registration 1 1, asks 1 7 8 .playerEnterHall 2,
    asks 1 7 8 .playerExitHall 3].foldl step Switch.init = s at registered
  have deleted : (s.players 2).isNone := by
    rw [← left]
    decide +kernel
  have entry : ((s.onlines 1).bind fun online => online.playerMap[makePlayerKey 7 8]?) =
      some 2 := by
    rw [← left]
    decide +kernel
  obtain ⟨online, here, entry⟩ := Option.bind_eq_some_iff.mp entry
  obtain ⟨p, found, -⟩ := (registered.atOnline here).mp entry
  rw [found] at deleted
  cases deleted

end Taomee.BattleSwitch
