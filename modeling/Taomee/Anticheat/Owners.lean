import Taomee.Anticheat.Stored
import Taomee.Anticheat.Watch

/-!
# anticheat: whose a watch node is

A watch node that is taken carries the id of a user whose pair names it, and a user with commands
has a watch node of his own. A user for whom there was none left keeps the pair of zeros.
-/

namespace Taomee.Anticheat.Watch

open ChoiceTable Runs

/-- The pair of a watch node that there is. -/
def There (p : Nat × Nat) : Prop := p.1 < swMaxLvl ∧ p.2 < swLvlNnodeList p.1

namespace World

variable (h : HashTable) (s : World)

/-- There is a user in a node of the table. -/
def Stores (a : Addr) : Prop := a ∈ place h ∧ (s.nodes a).uid ≠ 0

/-- The pair of the user names a watch node of his own. -/
def Owns (a : Addr) : Prop := (s.watch a).uid = (s.nodes a).uid

instance (a : Addr) : Decidable (s.Owns a) := inferInstanceAs (Decidable (_ = _))

/-- The release of the user takes a watch node from nobody else. -/
def Releasable (a : Addr) : Prop := s.Owns a ∨ (s.watch a).uid = 0

instance (a : Addr) : Decidable (s.Releasable a) := inferInstanceAs (Decidable (_ ∨ _))

end World

structure Owned (h : HashTable) (s : World) : Prop where
  placed : Placed (place h) (slots uidNodesHtab h) 0 fun a => (s.nodes a).uid
  cache : ∀ lvl < swMaxLvl, s.lvlFreeCache lvl < swLvlNnodeList lvl
  pair : ∀ a, s.Stores h a → There (s.nodes a).pair
  short : ∀ a, s.Stores h a → (s.nodes a).swCmdCount ≤ swLvlSpecList (s.nodes a).swLevel
  counts : ∀ a, s.Stores h a → (s.nodes a).swCmdCount ≠ 0 → s.Owns a
  owner : ∀ p, There p → (s.sw p).uid ≠ 0 → ∃ a, s.Stores h a ∧ s.Owns a ∧ (s.nodes a).pair = p

variable {h : HashTable} {s s' : World} {a b : Addr} {p : Nat × Nat}

namespace Owned

/-- A user has one node. -/
theorem eq_of_uid (owned : Owned h s) (stored : s.Stores h a) (stored' : s.Stores h b)
    (same : (s.nodes a).uid = (s.nodes b).uid) : a = b :=
  owned.placed.once stored stored' same

/-- A watch node has one owner. -/
theorem eq_of_pair (owned : Owned h s) (stored : s.Stores h a) (stored' : s.Stores h b)
    (owns : s.Owns a) (owns' : s.Owns b) (same : (s.nodes a).pair = (s.nodes b).pair) : a = b := by
  refine owned.eq_of_uid stored stored' (owns.symm.trans ?_)
  rw [World.watch, same]
  exact owns'

end Owned

/-! ## What does not matter to the owners -/

/-- What each step of the loop of `tmr_update_start` does, the whole loop does. -/
theorem World.related_updateFrom {R : World → World → Prop} (refl : ∀ s, R s s)
    (trans : ∀ {s s' s''}, R s s' → R s' s'' → R s s'')
    (moved : ∀ s cursor, R s { s with updateCursor := cursor })
    (user : ∀ s a, R s (World.updateUser s a).1) (s : World) (h : HashTable) (scan handle : Nat) :
    R s (World.updateFrom h scan handle s) := by
  induction scan generalizing handle s with
  | zero => exact refl s
  | succ scan ih =>
    rw [World.updateFrom]
    split
    · exact refl s
    · split
      · exact trans (moved s _) (ih ..)
      · exact moved s _
      · exact trans (moved s _) (ih ..)
      · exact trans (trans (moved s _) (user ..)) (ih ..)

/-- Users and watch nodes stay together, and no user gets a command. -/
structure Quiet (s s' : World) : Prop where
  uid : ∀ a, (s'.nodes a).uid = (s.nodes a).uid
  pair : ∀ a, (s'.nodes a).pair = (s.nodes a).pair
  count : ∀ a, (s'.nodes a).swCmdCount ≤ (s.nodes a).swCmdCount
  sw : ∀ p, (s'.sw p).uid = (s.sw p).uid
  cache : s'.lvlFreeCache = s.lvlFreeCache

namespace Quiet

theorem refl (s : World) : Quiet s s :=
  ⟨fun _ => rfl, fun _ => rfl, fun _ => Nat.le_refl _, fun _ => rfl, rfl⟩

theorem trans {s'' : World} (first : Quiet s s') (second : Quiet s' s'') : Quiet s s'' where
  uid a := (second.uid a).trans (first.uid a)
  pair a := (second.pair a).trans (first.pair a)
  count a := (second.count a).trans (first.count a)
  sw p := (second.sw p).trans (first.sw p)
  cache := second.cache.trans first.cache

/-- A change that keeps user and pair is quiet. -/
theorem setNode {node : UidNode} (uid : node.uid = (s.nodes a).uid)
    (pair : node.pair = (s.nodes a).pair) (count : node.swCmdCount ≤ (s.nodes a).swCmdCount) :
    Quiet s (s.setNode a node) := by
  have there : ∀ b, (s.setNode a node).nodes b = if b = a then node else s.nodes b := by
    intro b
    exact Function.update_apply ..
  refine ⟨fun b => ?_, fun b => ?_, fun b => ?_, fun _ => rfl, rfl⟩
  all_goals
    rw [there]
    split
  · rename_i same
    rw [same, uid]
  · rfl
  · rename_i same
    rw [same, pair]
  · rfl
  · rename_i same
    rw [same]
    exact count
  · exact Nat.le_refl _

/-- A watch node that keeps its user is quiet. -/
theorem setSw {sw : SingleWatch} (uid : sw.uid = (s.sw p).uid) : Quiet s (s.setSw p sw) := by
  refine ⟨fun _ => rfl, fun _ => rfl, fun _ => Nat.le_refl _, fun q => ?_, rfl⟩
  rw [World.setSw]
  dsimp only
  obtain rfl | apart := eq_or_ne q p
  · rw [Function.update_self, uid]
  · rw [Function.update_of_ne apart]

variable (s) (a : Addr)

theorem reports (reports : List Report) : Quiet s { s with reports } :=
  ⟨fun _ => rfl, fun _ => rfl, fun _ => Nat.le_refl _, fun _ => rfl, rfl⟩

theorem countTotal : Quiet s (s.countTotal a) :=
  .setNode rfl rfl (Nat.le_refl _)

theorem countCmd (i : Nat) : Quiet s (s.countCmd a i) :=
  .setSw rfl

/-- The checks of a request are quiet. -/
theorem checkRequest (data : ClientData) (cmdNode : Option (SwConfig × Nat)) :
    Quiet s (s.checkRequest a data cmdNode) := by
  have node : ∀ tw, Quiet s (s.setNode a { s.nodes a with tw }) := fun tw =>
    .setNode rfl rfl (Nat.le_refl _)
  cases cmdNode with
  | none =>
    rw [World.checkRequest]
    split
    · exact (node _).trans (reports ..)
    · exact node _
  | some watched =>
    have both : ∀ tw cmdList, Quiet s ((s.setNode a { s.nodes a with tw }).setSw
        (s.nodes a).pair { s.watch a with cmdList }) := fun tw cmdList =>
      (node tw).trans (.setSw rfl)
    rw [World.checkRequest]
    split
    · exact (both _ _).trans (reports ..)
    · exact both _ _

theorem updateCmdList : Quiet s (s.updateCmdList a).1 := by
  have write : ∀ cmdList, ∀ count ≤ (s.nodes a).swCmdCount,
      Quiet s ((s.setSw (s.nodes a).pair { s.watch a with cmdList }).setNode a
        { s.nodes a with swCmdCount := count }) := by
    intro cmdList count le
    have first : Quiet s (s.setSw (s.nodes a).pair { s.watch a with cmdList }) := .setSw rfl
    exact first.trans (.setNode rfl rfl le)
  rw [World.updateCmdList]
  split
  · exact write _ _ (Nat.le_refl _)
  · exact write _ _ (Nat.sub_le ..)
  · refine write _ _ ((List.length_filter_le ..).trans ?_)
    rw [List.length_map, List.length_range]

theorem updateTotal : Quiet s (s.updateTotal a).1 := by
  rw [World.updateTotal]
  split
  · exact .setNode rfl rfl (Nat.le_refl _)
  · exact refl s

theorem updateUser : Quiet s (s.updateUser a).1 := by
  rw [World.updateUser]
  dsimp only
  split
  · exact updateTotal s a
  · exact (updateTotal s a).trans (updateCmdList _ a)

/-- The clean-up loop is quiet. -/
theorem updateFrom (h : HashTable) (scan handle : Nat) :
    Quiet s (World.updateFrom h scan handle s) := by
  apply World.related_updateFrom
  · exact refl
  · exact trans
  · intro s cursor
    exact ⟨fun _ => rfl, fun _ => rfl, fun _ => Nat.le_refl _, fun _ => rfl, rfl⟩
  · exact updateUser

end Quiet

namespace Owned

/-- Quiet steps keep the owners. -/
theorem quiet (owned : Owned h s) (quiet : Quiet s s') : Owned h s' := by
  have stores : ∀ {a}, s'.Stores h a ↔ s.Stores h a := by
    intro a
    rw [World.Stores, World.Stores, quiet.uid]
  have owns : ∀ {a}, s'.Owns a ↔ s.Owns a := by
    intro a
    rw [World.Owns, World.Owns, World.watch, World.watch, quiet.pair, quiet.sw, quiet.uid]
  refine ⟨?_, ?_, fun a stored => ?_, fun a stored => ?_, fun a stored some => ?_,
    fun p there taken => ?_⟩
  · simpa only [quiet.uid] using owned.placed
  · rw [quiet.cache]
    exact owned.cache
  · rw [quiet.pair]
    exact owned.pair a (stores.mp stored)
  · have level : (s'.nodes a).swLevel = (s.nodes a).swLevel := congrArg Prod.fst (quiet.pair a)
    rw [level]
    exact (quiet.count a).trans (owned.short a (stores.mp stored))
  · refine owns.mpr (owned.counts a (stores.mp stored) ?_)
    have le := quiet.count a
    omega
  · rw [quiet.sw] at taken
    obtain ⟨a, stored, own, pair⟩ := owned.owner p there taken
    exact ⟨a, stores.mpr stored, owns.mpr own, (quiet.pair a).trans pair⟩

/-! ## Watch nodes are taken and left -/

/-- A user settles at a watch node that was free or is his own, and leaves the one he had. -/
theorem settle (owned : Owned h s) (stored : s.Stores h a) (node : UidNode)
    (uid : node.uid = (s.nodes a).uid) (there : There node.pair)
    (short : node.swCmdCount ≤ swLvlSpecList node.swLevel)
    (free : (s.sw node.pair).uid = 0 ∨ s.Owns a ∧ (s.nodes a).pair = node.pair)
    (nodes : ∀ b, s'.nodes b = if b = a then node else s.nodes b) (sw : ∀ p, (s'.sw p).uid =
      if p = node.pair then node.uid
      else if s.Owns a ∧ (s.nodes a).pair = p then 0 else (s.sw p).uid)
    (cache : ∀ lvl < swMaxLvl, s'.lvlFreeCache lvl < swLvlNnodeList lvl) : Owned h s' := by
  have uids : ∀ b, (s'.nodes b).uid = (s.nodes b).uid := by
    intro b
    rw [nodes]
    split
    · rename_i same
      rw [same, uid]
    · rfl
  have here : s'.nodes a = node := by rw [nodes, if_pos rfl]
  have others : ∀ {b}, b ≠ a → s'.nodes b = s.nodes b := by
    intro b apart
    rw [nodes, if_neg apart]
  have stores : ∀ {b}, s'.Stores h b ↔ s.Stores h b := by
    intro b
    rw [World.Stores, World.Stores, uids]
  have owns : s'.Owns a := by rw [World.Owns, World.watch, here, sw, if_pos rfl]
  -- A node that another user owns is neither the new one nor the one that is left.
  have keeps : ∀ b, s.Stores h b → b ≠ a → s.Owns b → s'.Owns b := by
    intro b stored' apart own
    have elsewhere : ¬ (s.Owns a ∧ (s.nodes a).pair = (s.nodes b).pair) := by
      rintro ⟨ownA, same⟩
      exact apart (owned.eq_of_pair stored stored' ownA own same).symm
    have other : (s.nodes b).pair ≠ node.pair := by
      intro same
      obtain free | ⟨ownA, pair⟩ := free
      · rw [← same] at free
        exact stored'.2 (own.symm.trans free)
      · exact elsewhere ⟨ownA, pair.trans same.symm⟩
    rw [World.Owns, World.watch, others apart, sw, if_neg other, if_neg elsewhere]
    exact own
  refine ⟨?_, cache, fun b stored' => ?_, fun b stored' => ?_, fun b stored' some => ?_,
    fun p inside taken => ?_⟩
  · simpa only [uids] using owned.placed
  · obtain rfl | apart := eq_or_ne b a
    · rw [here]
      exact there
    · rw [others apart]
      exact owned.pair b (stores.mp stored')
  · obtain rfl | apart := eq_or_ne b a
    · rw [here]
      exact short
    · rw [others apart]
      exact owned.short b (stores.mp stored')
  · obtain rfl | apart := eq_or_ne b a
    · exact owns
    · rw [others apart] at some
      exact keeps b (stores.mp stored') apart (owned.counts b (stores.mp stored') some)
  · rw [sw] at taken
    split at taken
    · rename_i same
      exact ⟨a, stores.mpr stored, owns, by rw [here, same]⟩
    · split at taken
      · exact absurd rfl taken
      · rename_i elsewhere
        obtain ⟨b, stored', own, pair⟩ := owned.owner p inside taken
        have apart : b ≠ a := by
          rintro rfl
          exact elsewhere ⟨own, pair⟩
        exact ⟨b, stores.mpr stored', keeps b stored' apart own, by rw [others apart, pair]⟩

end Owned

/-- The node found is free and of its level. -/
theorem firstFree_some {lvl idx : Nat} (cache : s.lvlFreeCache lvl < swLvlNnodeList lvl)
    (found : s.firstFree lvl = some idx) :
    idx < swLvlNnodeList lvl ∧ (s.sw (lvl, idx)).uid = 0 := by
  have free := List.find?_some found
  refine ⟨?_, of_decide_eq_true free⟩
  obtain here | here := List.mem_append.mp (List.mem_of_find?_eq_some found)
  · obtain ⟨i, less, rfl⟩ := List.mem_range'.mp here
    omega
  · exact (List.mem_range.mp here).trans cache

/-- What is found is free, and only it and the cache change. -/
theorem getSwEmptyNode_some {uid fromLvl toLvl : Nat}
    (cache : ∀ lvl < swMaxLvl, s.lvlFreeCache lvl < swLvlNnodeList lvl)
    (found : s.getSwEmptyNode uid fromLvl toLvl = (some p, s')) :
    There p ∧ fromLvl ≤ p.1 ∧ p.1 ≤ toLvl ∧ (s.sw p).uid = 0 ∧ s'.nodes = s.nodes ∧
      s'.sw = Function.update s.sw p { SingleWatch.zero with uid } ∧
      ∀ lvl < swMaxLvl, s'.lvlFreeCache lvl < swLvlNnodeList lvl := by
  rw [World.getSwEmptyNode] at found
  split at found
  · cases found
  · split at found
    · cases found
    · rename_i lvl idx first
      cases found
      obtain ⟨lvl', member, here⟩ := List.exists_of_findSome?_eq_some first
      obtain ⟨idx', free, same⟩ := Option.map_eq_some_iff.mp here
      cases same
      obtain ⟨i, less, rfl⟩ := List.mem_range'.mp member
      have within : fromLvl + 1 * i < swMaxLvl := by omega
      obtain ⟨inside, empty⟩ := firstFree_some (cache _ within) free
      refine ⟨⟨within, inside⟩, Nat.le_add_right .., by omega, empty, rfl, rfl, fun lvl known => ?_⟩
      dsimp only
      rw [Function.update_apply]
      split
      · rename_i same
        rw [same]
        exact Nat.mod_lt _ (Nat.zero_lt_of_lt inside)
      · exact cache lvl known

/-- Where no node is found nothing changes. -/
theorem getSwEmptyNode_none {uid fromLvl toLvl : Nat}
    (found : s.getSwEmptyNode uid fromLvl toLvl = (none, s')) : s' = s := by
  rw [World.getSwEmptyNode] at found
  split at found
  · cases found
    rfl
  · split at found
    · cases found
      rfl
    · cases found

theorem nodes_setNode (s : World) (a : Addr) (node : UidNode) (b : Addr) :
    (s.setNode a node).nodes b = if b = a then node else s.nodes b := by
  exact Function.update_apply ..

theorem sw_setSw (s : World) (p : Nat × Nat) (sw : SingleWatch) (q : Nat × Nat) :
    (s.setSw p sw).sw q = if q = p then sw else s.sw q := by
  exact Function.update_apply ..

/-- The lists grow from level to level. -/
theorem spec_le : ∀ lvl < swMaxLvl - 1, swLvlSpecList lvl ≤ swLvlSpecList (lvl + 1) := by
  decide

namespace Owned

/-- The user moves to a node of the next level, if there is a free one. -/
theorem upgrade (owned : Owned h s) (stored : s.Stores h a) (own : s.Owns a) {lvl idx : Nat}
    (pair : (s.nodes a).pair = (lvl, idx)) : Owned h (s.upgradeSwCmdListLvl a lvl idx).2 := by
  rw [World.upgradeSwCmdListLvl]
  split
  · exact owned
  · rename_i low
    split
    · rename_i s' found
      rw [getSwEmptyNode_none found]
      exact owned
    · rename_i nlvl nidx s' found
      obtain ⟨there, above, below, free, nodes, sw, cache⟩ := getSwEmptyNode_some owned.cache found
      obtain rfl : nlvl = lvl + 1 := Nat.le_antisymm below above
      have apart : (lvl + 1, nidx) ≠ (lvl, idx) := by
        intro same
        exact Nat.succ_ne_self lvl (congrArg Prod.fst same)
      have carries : (s'.sw (lvl, idx)).uid = (s.nodes a).uid := by
        rw [sw, Function.update_of_ne (Ne.symm apart), ← pair]
        exact own
      have level : (s.nodes a).swLevel = lvl := congrArg Prod.fst pair
      have short := owned.short a stored
      rw [level] at short
      refine owned.settle stored { s.nodes a with swLevel := lvl + 1, swIndex := nidx } rfl there
        (short.trans (spec_le lvl (Nat.lt_of_not_le low))) (.inl free) (fun b => ?_)
        (fun q => ?_) cache
      · change (World.setNode _ a { s'.nodes a with swLevel := lvl + 1, swIndex := nidx }).nodes b
          = _
        rw [nodes_setNode]
        change (if b = a then { s'.nodes a with swLevel := lvl + 1, swIndex := nidx } else
          s'.nodes b) = _
        rw [nodes]
      · change (World.sw (World.setSw _ (lvl, idx) .zero) q).uid = if q = (lvl + 1, nidx) then _
          else _
        rw [sw_setSw, pair]
        by_cases old : q = (lvl, idx)
        · rw [if_pos old, if_neg (old ▸ Ne.symm apart), if_pos ⟨own, old.symm⟩]
          rfl
        · have elsewhere : ¬ (s.Owns a ∧ (lvl, idx) = q) := fun both => old both.2.symm
          rw [if_neg old, if_neg elsewhere]
          change (World.sw (World.setSw s' (lvl + 1, nidx) _) q).uid = _
          rw [sw_setSw]
          split
          · exact carries
          · rename_i new
            rw [sw, Function.update_of_ne new]

/-- The user's list is written. -/
theorem written (owned : Owned h s) (stored : s.Stores h a) (own : s.Owns a) {lvl idx count : Nat}
    (pair : (s.nodes a).pair = (lvl, idx)) (short : count ≤ swLvlSpecList lvl) {sw : SingleWatch}
    (uid : sw.uid = (s.sw (lvl, idx)).uid) :
    Owned h ((s.setSw (lvl, idx) sw).setNode a { s.nodes a with swCmdCount := count }) := by
  have level : (s.nodes a).swLevel = lvl := congrArg Prod.fst pair
  refine owned.settle stored { s.nodes a with swCmdCount := count } rfl (owned.pair a stored)
    (level ▸ short) (.inr ⟨own, rfl⟩) (fun b => nodes_setNode (s.setSw (lvl, idx) sw) a _ b)
    (fun q => ?_) owned.cache
  change (World.sw (World.setSw s (lvl, idx) sw) q).uid = if q = (s.nodes a).pair then
    (s.nodes a).uid else _
  rw [sw_setSw, pair]
  split
  · rw [uid, ← pair]
    exact own
  · rename_i other
    rw [if_neg fun both => other both.2.symm]

/-- A command goes into the user's list. -/
theorem append (owned : Owned h s) (stored : s.Stores h a) (own : s.Owns a) {lvl idx : Nat}
    (pair : (s.nodes a).pair = (lvl, idx)) (room : (s.nodes a).swCmdCount < swLvlSpecList lvl)
    (recvTime : Timeval) (cmd : Nat) : Owned h (s.appendCmd a lvl idx recvTime cmd).2 := by
  have first : Owned h ((s.setSw (lvl, idx)
      { s.sw (lvl, idx) with
        cmdList := Function.update (s.sw (lvl, idx)).cmdList (s.nodes a).swCmdCount
          ⟨cmd, ((s.sw (lvl, idx)).cmdList (s.nodes a).swCmdCount).count + 1, recvTime,
            recvTime⟩ }).setNode a
      { s.nodes a with swCmdCount := (s.nodes a).swCmdCount + 1 }) :=
    owned.written stored own pair room rfl
  rw [World.appendCmd]
  split
  · refine first.upgrade ⟨stored.1, ?_⟩ ?_ ?_
    · rw [nodes_setNode, if_pos rfl]
      exact stored.2
    · rw [World.Owns, World.watch, nodes_setNode, if_pos rfl]
      change (World.sw (World.setSw s (lvl, idx) _) (s.nodes a).pair).uid = (s.nodes a).uid
      rw [sw_setSw, pair, if_pos rfl, ← pair]
      exact own
    · rw [nodes_setNode, if_pos rfl]
      exact pair
  · exact first

/-- A user without a watch node of his own moves into a free one of level 0. -/
theorem moveIn (owned : Owned h s) (stored : s.Stores h a) (lost : ¬ s.Owns a) {lvl idx : Nat}
    (found : s.getSwEmptyNode (s.nodes a).uid 0 0 = (some (lvl, idx), s')) (tw : TotalWatch) :
    lvl = 0 ∧ (s.nodes a).swCmdCount = 0 ∧
      Owned h (s'.setNode a { s'.nodes a with swLevel := lvl, swIndex := idx, tw }) ∧
      (s'.setNode a { s'.nodes a with swLevel := lvl, swIndex := idx, tw }).nodes a =
        { s.nodes a with swLevel := lvl, swIndex := idx, tw } ∧
      (s'.setNode a { s'.nodes a with swLevel := lvl, swIndex := idx, tw }).watch a =
        { SingleWatch.zero with uid := (s.nodes a).uid } := by
  have none : (s.nodes a).swCmdCount = 0 := by
    by_contra some
    exact lost (owned.counts a stored some)
  obtain ⟨there, -, below, free, nodes, sw, cache⟩ := getSwEmptyNode_some owned.cache found
  obtain rfl : lvl = 0 := Nat.le_zero.mp below
  have here : (s'.setNode a { s'.nodes a with swLevel := 0, swIndex := idx, tw }).nodes a =
      { s.nodes a with swLevel := 0, swIndex := idx, tw } := by
    rw [nodes_setNode, if_pos rfl, nodes]
  refine ⟨rfl, none, ?_, here, ?_⟩
  · refine owned.settle stored { s'.nodes a with swLevel := 0, swIndex := idx, tw }
      ?_ there ?_ (.inl free) (fun b => ?_) (fun q => ?_) cache
    · rw [nodes]
    · rw [nodes]
      rw [none]
      exact Nat.zero_le _
    · rw [nodes_setNode, nodes]
    · change (s'.sw q).uid = if q = (0, idx) then (s'.nodes a).uid else _
      rw [sw, nodes, Function.update_apply]
      split
      · rfl
      · rw [if_neg fun both => lost both.1]
  · rw [World.watch, here]
    change s'.sw (0, idx) = _
    rw [sw, Function.update_self]

/-- A user without a watch node of his own gets one of level 0, if there is a free one. -/
theorem addNewCmd (owned : Owned h s) (stored : s.Stores h a) (recvTime : Timeval) (cmd : Nat) :
    Owned h (s.addNewCmdToUidNode a recvTime cmd).2 := by
  rw [World.addNewCmdToUidNode]
  split
  · rename_i strange
    split
    · rename_i s' found
      rw [getSwEmptyNode_none found]
      exact owned
    · rename_i lvl idx s' found
      have lost : ¬ s.Owns a := fun own => strange own.symm
      obtain ⟨rfl, none, moved, here, watch⟩ := owned.moveIn stored lost found
        { (s'.nodes a).tw with startTv := recvTime, lastTv := recvTime }
      refine moved.append ⟨stored.1, ?_⟩ ?_ ?_ ?_ recvTime cmd
      · rw [here]
        exact stored.2
      · rw [World.Owns, watch, here]
      · rw [here]
        rfl
      · rw [here]
        rw [none]
        decide
  · rename_i own
    have own : s.Owns a := (not_not.mp own).symm
    split
    · exact owned
    · rename_i room
      exact owned.append stored own rfl (Nat.lt_of_not_le room) recvTime cmd

/-- A new user has no watch node, and the pair of zeros. -/
theorem enter (owned : Owned h s) {data : ClientData} (inside : a ∈ place h)
    (candidate : a ∈ slots uidNodesHtab h data.uid) (free : (s.nodes a).uid = 0)
    (absent : ∀ b ∈ place h, (s.nodes b).uid ≠ data.uid) :
    Owned h (s.setNode a (s.initUidNodeBase data)) := by
  have others : ∀ {b}, b ≠ a → (s.setNode a (s.initUidNodeBase data)).nodes b = s.nodes b := by
    intro b apart
    rw [nodes_setNode, if_neg apart]
  have here : (s.setNode a (s.initUidNodeBase data)).nodes a = s.initUidNodeBase data := by
    rw [nodes_setNode, if_pos rfl]
  have stored_of : ∀ {b}, b ≠ a → (s.setNode a (s.initUidNodeBase data)).Stores h b →
      s.Stores h b := by
    intro b apart stored
    exact ⟨stored.1, others apart ▸ stored.2⟩
  refine ⟨?_, owned.cache, fun b stored => ?_, fun b stored => ?_, fun b stored some => ?_,
    fun p there taken => ?_⟩
  · have stored : data.uid ∉ stored (place h) 0 fun a => (s.nodes a).uid := by
      rintro ⟨-, b, member, same⟩
      exact absent b member same
    have placed := owned.placed.store candidate stored
    have keys : content uidNodesHtab (Function.update s.nodes a (s.initUidNodeBase data)) =
        Function.update (content uidNodesHtab s.nodes) a data.uid := content_update a _
    change Placed _ _ _ (content uidNodesHtab (Function.update s.nodes a _))
    rw [keys]
    exact placed
  · obtain rfl | apart := eq_or_ne b a
    · rw [here]
      have first : There (0, 0) := ⟨by decide, by decide⟩
      exact first
    · rw [others apart]
      exact owned.pair b (stored_of apart stored)
  · obtain rfl | apart := eq_or_ne b a
    · rw [here]
      exact Nat.zero_le _
    · rw [others apart]
      exact owned.short b (stored_of apart stored)
  · obtain rfl | apart := eq_or_ne b a
    · rw [here] at some
      exact absurd rfl some
    · rw [others apart] at some
      rw [World.Owns, World.watch, others apart]
      exact owned.counts b (stored_of apart stored) some
  · obtain ⟨b, stored, own, pair⟩ := owned.owner p there taken
    have apart : b ≠ a := by
      rintro rfl
      exact stored.2 free
    refine ⟨b, ⟨stored.1, ?_⟩, ?_, ?_⟩
    · rw [others apart]
      exact stored.2
    · rw [World.Owns, World.watch, others apart]
      exact own
    · rw [others apart, pair]

/-- A client's request keeps the owners. -/
theorem request (owned : Owned h s) (ready : Ready h) (data : ClientData) :
    Owned h (s.procOneClientRequest h data) := by
  rw [World.procOneClientRequest]
  split
  · exact owned
  · rename_i named
    rw [hashTableLookupNodeEx_eq]
    cases found : firstWith uidNodesHtab s.nodes data.uid (slots uidNodesHtab h data.uid) with
    | some a =>
      obtain ⟨candidate, key⟩ := firstWith_eq_some found
      have stored : s.Stores h a :=
        ⟨slots_subset_place ready a candidate, fun free => named (key.symm.trans free)⟩
      dsimp only [Option.map_some]
      rw [if_neg (by decide)]
      have accessed : Quiet s (s.setNode a { s.nodes a with lastAccess := s.sysClock }) :=
        .setNode rfl rfl (Nat.le_refl _)
      have touched := accessed.trans (.countTotal _ a)
      have counted := owned.quiet touched
      have stays := stored
      rw [World.Stores, ← touched.uid] at stays
      split
      · exact counted
      · split
        · exact counted.quiet (.checkRequest ..)
        · split
          · exact counted.quiet ((Quiet.countCmd ..).trans (.checkRequest ..))
          · have added := counted.addNewCmd stays data.recvTime data.cmd
            split
            · rename_i s' result
              rw [result] at added
              exact added.quiet (.checkRequest ..)
            · rename_i s' result
              rw [result] at added
              exact added
    | none =>
      have absent := firstWith_eq_none.mp found
      cases found' : firstWith uidNodesHtab s.nodes uidNodesHtab.emptyKey
          (slots uidNodesHtab h data.uid) with
      | none => exact owned
      | some a =>
        obtain ⟨candidate, free⟩ := firstWith_eq_some found'
        have inside := slots_subset_place ready a candidate
        dsimp only
        rw [if_pos rfl]
        have entered : Owned h (s.setNode a (s.initUidNodeBase data)) := by
          refine owned.enter inside candidate free fun b member same => ?_
          have kept : (s.nodes b).uid ≠ 0 := same ▸ named
          have home := owned.placed.home b member kept
          rw [same] at home
          exact absent b home same
        have added := entered.addNewCmd ⟨inside, by rwa [nodes_setNode, if_pos rfl]⟩ data.recvTime
          data.cmd
        split
        · rename_i s' result
          rw [result] at added
          exact added.quiet (.countTotal ..)
        · rename_i s' result
          rw [result] at added
          exact added

end Owned

end Taomee.Anticheat.Watch
