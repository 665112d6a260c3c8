import Taomee.Anticheat.Owners

/-!
# anticheat: users are released

A release clears the watch node that the user's pair names, whoever's it is. It takes nothing
from anybody else when the node is the user's own or free.
-/

namespace Taomee.Anticheat.Watch

open ChoiceTable Runs

variable {h : HashTable} {s s' s'' : World} {a b : Addr} {p : Nat × Nat}

namespace World

theorem nodes_release (s : World) (a b : Addr) :
    (s.releaseUidNode a).nodes b = if b = a then .zero else s.nodes b :=
  nodes_setNode ..

theorem sw_release (s : World) (a : Addr) (p : Nat × Nat) :
    (s.releaseUidNode a).sw p = if p = (s.nodes a).pair then .zero else s.sw p :=
  sw_setSw ..

/-- The node released is stored no more. -/
theorem ne_of_stores_release (stored : (s.releaseUidNode a).Stores h b) : b ≠ a := by
  rintro rfl
  apply stored.2
  rw [nodes_release, if_pos rfl]
  rfl

/-- What is stored after a release was stored before. -/
theorem stores_of_release (stored : (s.releaseUidNode a).Stores h b) : s.Stores h b := by
  have apart := ne_of_stores_release stored
  have named := stored.2
  rw [nodes_release, if_neg apart] at named
  exact ⟨stored.1, named⟩

end World

/-- The users left are as they were, and so are their watch nodes. -/
structure Cleaned (h : HashTable) (s s' : World) : Prop where
  stores : ∀ b, s'.Stores h b → s.Stores h b
  nodes : ∀ b, s'.Stores h b → s'.nodes b = s.nodes b
  watch : ∀ b, s'.Stores h b → s.Owns b → s'.watch b = s.watch b

namespace Cleaned

theorem of_eq (nodes : s'.nodes = s.nodes) (sw : s'.sw = s.sw) : Cleaned h s s' where
  stores b stored := by
    rwa [World.Stores, nodes] at stored
  nodes b _ := by rw [nodes]
  watch b _ _ := by rw [World.watch, World.watch, nodes, sw]

theorem trans (first : Cleaned h s s') (second : Cleaned h s' s'') : Cleaned h s s'' where
  stores b stored := first.stores b (second.stores b stored)
  nodes b stored := (second.nodes b stored).trans (first.nodes b (second.stores b stored))
  watch b stored own := by
    have between := second.stores b stored
    have same := first.watch b between own
    have own' : s'.Owns b := by
      rw [World.Owns, same, first.nodes b between]
      exact own
    exact (second.watch b stored own').trans same

end Cleaned

namespace Owned

/-- Another user's watch node is not the one that is cleared. -/
theorem pair_ne (owned : Owned h s) (stored : s.Stores h a) (releasable : s.Releasable a)
    (stored' : s.Stores h b) (apart : b ≠ a) (own : s.Owns b) :
    (s.nodes b).pair ≠ (s.nodes a).pair := by
  intro same
  obtain ownA | free := releasable
  · exact apart (owned.eq_of_pair stored' stored own ownA same)
  · rw [World.watch, ← same] at free
    exact stored'.2 (own.symm.trans free)

/-- The users that stay keep their watch nodes. -/
theorem watch_release (owned : Owned h s) (stored : s.Stores h a) (releasable : s.Releasable a)
    (stored' : s.Stores h b) (apart : b ≠ a) (own : s.Owns b) :
    (s.releaseUidNode a).watch b = s.watch b := by
  rw [World.watch, World.nodes_release, if_neg apart, World.sw_release,
    if_neg (owned.pair_ne stored releasable stored' apart own)]
  rfl

/-- The release of a user changes nobody else's watch node just when he is releasable. -/
theorem releasable_iff (owned : Owned h s) (stored : s.Stores h a) :
    s.Releasable a ↔ ∀ b, s.Stores h b → b ≠ a → s.Owns b →
      (s.releaseUidNode a).watch b = s.watch b := by
  constructor
  · intro releasable b stored' apart own
    exact owned.watch_release stored releasable stored' apart own
  · intro keeps
    by_contra foreign
    obtain ⟨strange, taken⟩ := not_or.mp foreign
    obtain ⟨b, stored', own, pair⟩ := owned.owner _ (owned.pair a stored) taken
    have apart : b ≠ a := by
      rintro rfl
      exact strange own
    have kept := keeps b stored' apart own
    rw [World.watch, World.nodes_release, if_neg apart, World.sw_release, if_pos pair] at kept
    have cleared : (s.watch b).uid = 0 := by
      rw [← kept]
      rfl
    exact stored'.2 (own.symm.trans cleared)

/-- One release cleans up one user. -/
theorem cleaned_release (owned : Owned h s) (stored : s.Stores h a)
    (releasable : s.Releasable a) : Cleaned h s (s.releaseUidNode a) where
  stores _ := World.stores_of_release
  nodes b stored' := by rw [World.nodes_release, if_neg (World.ne_of_stores_release stored')]
  watch b stored' own :=
    owned.watch_release stored releasable (World.stores_of_release stored')
      (World.ne_of_stores_release stored') own

/-- A release keeps the owners. -/
theorem release (owned : Owned h s) (stored : s.Stores h a) (releasable : s.Releasable a) :
    Owned h (s.releaseUidNode a) := by
  have cleaned := owned.cleaned_release stored releasable
  have owns : ∀ {b}, (s.releaseUidNode a).Stores h b → s.Owns b →
      (s.releaseUidNode a).Owns b := by
    intro b left own
    rw [World.Owns, cleaned.watch b left own, cleaned.nodes b left]
    exact own
  refine ⟨?_, owned.cache, fun b left => ?_, fun b left => ?_, fun b left some => ?_,
    fun p there taken => ?_⟩
  · have keys : content uidNodesHtab (Function.update s.nodes a UidNode.zero) =
        Function.update (content uidNodesHtab s.nodes) a 0 := content_update a _
    change Placed _ _ _ (content uidNodesHtab (Function.update s.nodes a UidNode.zero))
    rw [keys]
    exact owned.placed.erase a
  · rw [cleaned.nodes b left]
    exact owned.pair b (cleaned.stores b left)
  · rw [cleaned.nodes b left]
    exact owned.short b (cleaned.stores b left)
  · rw [cleaned.nodes b left] at some
    exact owns left (owned.counts b (cleaned.stores b left) some)
  · rw [World.sw_release] at taken
    split at taken
    · exact absurd rfl taken
    · rename_i elsewhere
      obtain ⟨b, stored', own, pair⟩ := owned.owner p there taken
      have apart : b ≠ a := by
        rintro rfl
        exact elsewhere pair.symm
      have left : (s.releaseUidNode a).Stores h b := by
        refine ⟨stored'.1, ?_⟩
        rw [World.nodes_release, if_neg apart]
        exact stored'.2
      exact ⟨b, left, owns left own, (congrArg UidNode.pair (cleaned.nodes b left)).trans pair⟩

end Owned

/-! ## The clean-up -/

/-- What is met on the way through the table lies in it. -/
theorem visit_user {nodes : Addr → UidNode} {c cursor : Cursor}
    (met : visit h nodes c = .user a cursor) : a ∈ place h ∧ (nodes a).uid ≠ 0 := by
  rw [visit] at met
  split at met
  · cases met
  · rename_i node row col walked
    split at met
    · cases met
    · dsimp only at met
      split at met
      · cases met
      · rename_i named
        cases met
        refine ⟨?_, named⟩
        rw [hashTableWalk, hashTableGetNode] at walked
        split at walked
        · cases walked
        · rename_i found
          split at found
          · cases found
          · rename_i inside
            obtain ⟨rowIn, colIn⟩ := not_or.mp inside
            cases found
            split at walked
            all_goals
              cases walked
              exact ⟨c.row, Nat.lt_of_not_le rowIn, c.col, Nat.lt_of_not_le colIn, rfl⟩

/-- Each user that the loop of `tmr_clean_uid_node` releases is releasable at that time. -/
def World.CleanSpares (h : HashTable) : Nat → Nat → World → Prop
  | 0, _, _ => True
  | scan + 1, handle, s =>
    match visit h s.nodes s.cleanCursor with
    | .wrapped => CleanSpares h scan handle { s with cleanCursor := .zero }
    | .unoccupied => True
    | .free cursor => CleanSpares h scan handle { s with cleanCursor := cursor }
    | .user a cursor =>
      if s.Idle a then
        s.Releasable a ∧
          (handle + 1 < 1000 →
            CleanSpares h scan (handle + 1) ({ s with cleanCursor := cursor }.releaseUidNode a))
      else CleanSpares h scan handle { s with cleanCursor := cursor }

namespace Owned

/-- By induction over the steps of the clean-up. -/
theorem cleanFrom (owned : Owned h s) (scan handle : Nat) (spares : s.CleanSpares h scan handle) :
    Owned h (World.cleanFrom h scan handle s) ∧ Cleaned h s (World.cleanFrom h scan handle s) := by
  induction scan generalizing handle s with
  | zero => exact ⟨owned, .of_eq rfl rfl⟩
  | succ scan ih =>
    have moved : ∀ cursor, Owned h { s with cleanCursor := cursor } ∧
        Cleaned h s { s with cleanCursor := cursor } := fun cursor =>
      ⟨owned.quiet ⟨fun _ => rfl, fun _ => rfl, fun _ => Nat.le_refl _, fun _ => rfl, rfl⟩,
        .of_eq rfl rfl⟩
    rw [World.cleanFrom]
    rw [World.CleanSpares] at spares
    split
    · rename_i met
      rw [met] at spares
      obtain ⟨owned', cleaned⟩ := ih (moved _).1 handle spares
      exact ⟨owned', (moved _).2.trans cleaned⟩
    · exact moved _
    · rename_i cursor met
      rw [met] at spares
      obtain ⟨owned', cleaned⟩ := ih (moved _).1 handle spares
      exact ⟨owned', (moved _).2.trans cleaned⟩
    · rename_i a cursor met
      rw [met] at spares
      have stored : World.Stores h { s with cleanCursor := cursor } a := visit_user met
      dsimp only at spares ⊢
      by_cases idle : s.Idle a
      · have idle' : World.Idle { s with cleanCursor := cursor } a := idle
        rw [if_pos idle] at spares
        rw [if_pos idle']
        obtain ⟨releasable, further⟩ := spares
        have releasable' : World.Releasable { s with cleanCursor := cursor } a := releasable
        have released := (moved cursor).1.release stored releasable'
        have left := (moved cursor).2.trans ((moved cursor).1.cleaned_release stored releasable')
        split
        · exact ⟨released, left⟩
        · rename_i room
          obtain ⟨owned', cleaned⟩ := ih released (handle + 1) (further (Nat.lt_of_not_le room))
          exact ⟨owned', left.trans cleaned⟩
      · have awake : ¬ World.Idle { s with cleanCursor := cursor } a := idle
        rw [if_neg idle] at spares
        rw [if_neg awake]
        obtain ⟨owned', cleaned⟩ := ih (moved cursor).1 handle spares
        exact ⟨owned', (moved cursor).2.trans cleaned⟩

end Owned

/-! ## Runs -/

/-- The clean-up releases only users whose watch node is their own or free. -/
def World.Spares (h : HashTable) (s : World) : Event → Prop
  | .tmrCleanUidNode => s.CleanSpares h 2000 0
  | .request _ => True
  | .tmrUpdateStart => True
  | .tmrRenewSysClock _ => True
  | .configure _ => True

namespace Owned

/-- No one owns a watch node at the start. -/
theorem init (h : HashTable) (acCfg : AnticheatConfig) (sysClock : Int) :
    Owned h (World.init acCfg sysClock) where
  placed := placed_of_empty fun _ _ => rfl
  cache := by
    have first : ∀ lvl < swMaxLvl, 0 < swLvlNnodeList lvl := by decide
    exact first
  pair _ stored := absurd rfl stored.2
  short _ stored := absurd rfl stored.2
  counts _ stored := absurd rfl stored.2
  owner _ _ taken := absurd rfl taken

/-- Every event that spares the released keeps the owners. -/
theorem step (owned : Owned h s) (ready : Ready h) {event : Event} (spares : s.Spares h event) :
    Owned h (s.step h event) := by
  cases event with
  | request data => exact owned.request ready data
  | tmrCleanUidNode => exact (owned.cleanFrom 2000 0 spares).1
  | tmrUpdateStart => exact owned.quiet (.updateFrom s h 2000 0)
  | tmrRenewSysClock tv =>
    exact owned.quiet ⟨fun _ => rfl, fun _ => rfl, fun _ => Nat.le_refl _, fun _ => rfl, rfl⟩
  | configure acCfg =>
    exact owned.quiet ⟨fun _ => rfl, fun _ => rfl, fun _ => Nat.le_refl _, fun _ => rfl, rfl⟩

/-- A watch node in use has one user. -/
theorem existsUnique (owned : Owned h s) (there : There p) (taken : (s.sw p).uid ≠ 0) :
    ∃! a, s.Stores h a ∧ (s.nodes a).pair = p ∧ (s.nodes a).uid = (s.sw p).uid := by
  obtain ⟨a, stored, own, pair⟩ := owned.owner p there taken
  rw [World.Owns, World.watch, pair] at own
  refine ⟨a, ⟨stored, pair, own.symm⟩, ?_⟩
  rintro b ⟨stored', -, named⟩
  exact owned.eq_of_uid stored' stored (named.trans own)

end Owned

/-- In every run in which no clean-up releases a user whose pair names somebody else's watch
node: a watch node that is taken has one user, the one whose pair names it and whose id it
carries; a user with commands has a watch node of his own; a release changes nobody else's just
when the user's is his own or free; and a clean-up leaves those who stay as they were. -/
theorem watch_nodes_owned {hashTable : HashTable} {table tableSize nodeSize rowNum : Nat}
    {nodesNum mods : Nat → Nat} {acCfg : AnticheatConfig} {sysClock : Int}
    (set : hashTableInit hashTable table tableSize nodeSize rowNum nodesNum mods = some h)
    (run : Reaches (World.step h) (World.Spares h) (.init acCfg sysClock) s) :
    (∀ p, There p → (s.sw p).uid ≠ 0 →
      ∃! a, s.Stores h a ∧ (s.nodes a).pair = p ∧ (s.nodes a).uid = (s.sw p).uid) ∧
    (∀ a, s.Stores h a → (s.nodes a).swCmdCount ≠ 0 → s.Owns a) ∧
    (∀ a, s.Stores h a → (s.Releasable a ↔ ∀ b, s.Stores h b → b ≠ a → s.Owns b →
      (s.releaseUidNode a).watch b = s.watch b)) ∧
    (s.CleanSpares h 2000 0 → Cleaned h s (s.tmrCleanUidNode h)) := by
  have ready := ready_hashTableInit set
  have owned : Owned h s := by
    apply run.invariant
    · exact .init h acCfg sysClock
    · intro state event owned spares
      exact owned.step ready spares
  exact ⟨fun p => owned.existsUnique, owned.counts, fun a => owned.releasable_iff,
    fun spares => (owned.cleanFrom 2000 0 spares).2⟩

def noConfig : AnticheatConfig :=
  ⟨0, 0, fun _ _ => false, 0, 0, fun _ => ⟨0, 0, fun _ _ => false, 0⟩⟩

/-- A request of a user, at the start of time. -/
def asking (uid cmd : Nat) : Event := .request ⟨⟨0, 0⟩, 0, 0, cmd, uid⟩

def blank : HashTable :=
  ⟨0, 0, 0, 0, fun _ => 0, fun _ => 0, fun _ => 0, fun _ => 0⟩

/-- A table of two rows. -/
def twoRows : HashTable :=
  (hashTableInit blank 4096 6144 1024 2 (fun _ => 3) (fun row => 3 - row)).getD blank

instance World.CleanSpares.decidable (h : HashTable) :
    ∀ scan handle s, Decidable (World.CleanSpares h scan handle s)
  | 0, _, _ => inferInstanceAs (Decidable True)
  | scan + 1, handle, s =>
    match met : visit h s.nodes s.cleanCursor with
    | .wrapped =>
      have := decidable h scan handle { s with cleanCursor := .zero }
      decidable_of_iff (CleanSpares h scan handle { s with cleanCursor := .zero })
        (by rw [CleanSpares, met])
    | .unoccupied => isTrue (by rw [CleanSpares, met]; trivial)
    | .free cursor =>
      have := decidable h scan handle { s with cleanCursor := cursor }
      decidable_of_iff (CleanSpares h scan handle { s with cleanCursor := cursor })
        (by rw [CleanSpares, met])
    | .user a cursor =>
      have := decidable h scan (handle + 1) ({ s with cleanCursor := cursor }.releaseUidNode a)
      have := decidable h scan handle { s with cleanCursor := cursor }
      decidable_of_iff (if s.Idle a then s.Releasable a ∧ (handle + 1 < 1000 → CleanSpares h scan
          (handle + 1) ({ s with cleanCursor := cursor }.releaseUidNode a))
        else CleanSpares h scan handle { s with cleanCursor := cursor })
        (by rw [CleanSpares, met])

instance (h : HashTable) (s : World) : ∀ event, Decidable (World.Spares h s event)
  | .tmrCleanUidNode => inferInstanceAs (Decidable (s.CleanSpares h 2000 0))
  | .request _ => inferInstanceAs (Decidable True)
  | .tmrUpdateStart => inferInstanceAs (Decidable True)
  | .tmrRenewSysClock _ => inferInstanceAs (Decidable True)
  | .configure _ => inferInstanceAs (Decidable True)

/-- Of two users one sends nothing for a minute and is released. -/
def oneReleased : World :=
  [asking 4 1, asking 7 1, .tmrRenewSysClock ⟨61, 0⟩, asking 7 1, .tmrCleanUidNode].foldl
    (World.step twoRows) (.init noConfig 0)

/-- One of two users is released, the other keeps its node. -/
theorem watch_nodes_owned_released :
    (oneReleased.sw (0, 0)).uid = 0 ∧
      ∃! a, oneReleased.Stores twoRows a ∧ (oneReleased.nodes a).pair = (0, 1) ∧
        (oneReleased.nodes a).uid = (oneReleased.sw (0, 1)).uid := by
  have set : hashTableInit blank 4096 6144 1024 2 (fun _ => 3) (fun row => 3 - row) =
      some twoRows := rfl
  have run : Reaches (World.step twoRows) (World.Spares twoRows) (.init noConfig 0) oneReleased :=
    Reaches.refl.follow (by decide +kernel)
  exact ⟨by decide +kernel,
    (watch_nodes_owned set run).1 (0, 1) ⟨by decide, by decide⟩ (by decide +kernel)⟩

end Taomee.Anticheat.Watch
