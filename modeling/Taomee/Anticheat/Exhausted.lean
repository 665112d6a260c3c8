import Taomee.Anticheat.Released

/-!
# anticheat: no watch node is left

The largest table of users has room for more of them than there are watch nodes of level 0. The
user who comes last gets none, and his release clears the first one, which is somebody else's.
-/

namespace Taomee.Anticheat.Watch

open Runs

variable {h : HashTable} {s s' : World} {a : Addr} {data : ClientData} {uid count idx : Nat}

/-! ## A new user -/

/-- The user in a node has so many commands in a watch node that was taken for him. -/
structure Taken (s : World) (a : Addr) (uid count idx : Nat) (s' : World) : Prop where
  named : (s'.nodes a).uid = uid
  paired : (s'.nodes a).pair = (0, idx)
  counted : (s'.nodes a).swCmdCount = count
  nodes : ∀ b ≠ a, s'.nodes b = s.nodes b
  sw : ∀ p, (s'.sw p).uid = if p = (0, idx) then uid else (s.sw p).uid
  cache : s'.lvlFreeCache 0 = (idx + 1) % swLvlNnodeList 0
  acCfg : s'.acCfg = s.acCfg
  sysClock : s'.sysClock = s.sysClock
  cleanCursor : s'.cleanCursor = s.cleanCursor

namespace Taken

/-- The user himself writes his node again. -/
theorem setNode (taken : Taken s a uid count idx s') {node : UidNode} {count' : Nat}
    (named : node.uid = (s'.nodes a).uid) (pair : node.pair = (s'.nodes a).pair)
    (counted : node.swCmdCount = count') : Taken s a uid count' idx (s'.setNode a node) := by
  have here : (s'.setNode a node).nodes a = node := by rw [nodes_setNode, if_pos rfl]
  refine ⟨?_, ?_, ?_, fun b apart => ?_, taken.sw, taken.cache, taken.acCfg, taken.sysClock,
    taken.cleanCursor⟩
  · rw [here, named, taken.named]
  · rw [here, pair, taken.paired]
  · rw [here, counted]
  · rw [nodes_setNode, if_neg apart, taken.nodes b apart]

/-- The first command does not fill the list. -/
theorem append (taken : Taken s a uid 0 idx s') (recvTime : Timeval) (cmd : Nat) :
    ∃ s'', s'.appendCmd a 0 idx recvTime cmd = (true, s'') ∧ Taken s a uid 1 idx s'' := by
  have written : ∀ cmdList,
      Taken s a uid 0 idx (s'.setSw (0, idx) { s'.sw (0, idx) with cmdList }) := by
    intro cmdList
    refine ⟨taken.named, taken.paired, taken.counted, taken.nodes, fun p => ?_, taken.cache,
      taken.acCfg, taken.sysClock, taken.cleanCursor⟩
    rw [sw_setSw]
    split
    · rw [taken.sw, if_pos rfl]
    · rename_i other
      rw [taken.sw, if_neg other]
  rw [World.appendCmd, taken.counted]
  exact ⟨_, rfl, (written _).setNode rfl rfl rfl⟩

end Taken

/-- A user without commands takes the first free watch node of level 0. -/
theorem addNewCmd_taken (strange : (s.nodes a).uid ≠ (s.watch a).uid)
    (none : (s.nodes a).swCmdCount = 0) (free : s.firstFree 0 = some idx) (recvTime : Timeval)
    (cmd : Nat) :
    ∃ s', s.addNewCmdToUidNode a recvTime cmd = (true, s') ∧
      Taken s a (s.nodes a).uid 1 idx s' := by
  have empty : s.getSwEmptyNode (s.nodes a).uid 0 0 =
      (some (0, idx),
        { s.setSw (0, idx) { SingleWatch.zero with uid := (s.nodes a).uid } with
          lvlFreeCache :=
            Function.update s.lvlFreeCache 0 ((idx + 1) % swLvlNnodeList 0) }) := by
    simp [World.getSwEmptyNode, swMaxLvl, free]
  rw [World.addNewCmdToUidNode, if_pos strange, empty]
  apply Taken.append
  refine ⟨?_, ?_, ?_, fun b apart => ?_, fun p => ?_, ?_, rfl, rfl, rfl⟩
  · rw [nodes_setNode, if_pos rfl]
    rfl
  · rw [nodes_setNode, if_pos rfl]
    rfl
  · rw [nodes_setNode, if_pos rfl]
    exact none
  · rw [nodes_setNode, if_neg apart]
    rfl
  · change (World.sw (World.setSw s (0, idx) _) p).uid = _
    rw [sw_setSw]
    split
    · rfl
    · rfl
  · exact Function.update_self 0 ((idx + 1) % swLvlNnodeList 0) s.lvlFreeCache

theorem addNewCmd_refused (strange : (s.nodes a).uid ≠ (s.watch a).uid)
    (full : s.firstFree 0 = none) (recvTime : Timeval) (cmd : Nat) :
    s.addNewCmdToUidNode a recvTime cmd = (false, s) := by
  have empty : s.getSwEmptyNode (s.nodes a).uid 0 0 = (none, s) := by
    simp [World.getSwEmptyNode, full]
  rw [World.addNewCmdToUidNode, if_pos strange, empty]

section Request

variable (data) (named : data.uid ≠ 0)
  (found : hashTableLookupNodeEx uidNodesHtab h s.nodes data.uid (some 0) = (some a, some 0))
  (strange : (s.sw (0, 0)).uid ≠ data.uid)

include named found

theorem request_new :
    s.procOneClientRequest h data =
      match (s.setNode a (s.initUidNodeBase data)).addNewCmdToUidNode a data.recvTime data.cmd with
      | (true, s) => s.countTotal a
      | (false, s) => s := by
  rw [World.procOneClientRequest, if_neg named, found]
  rfl

include strange

theorem request_taken (free : s.firstFree 0 = some idx) :
    Taken s a data.uid 1 idx (s.procOneClientRequest h data) := by
  have here : (s.setNode a (s.initUidNodeBase data)).nodes a = s.initUidNodeBase data := by
    rw [nodes_setNode, if_pos rfl]
  obtain ⟨s', added, taken⟩ := addNewCmd_taken (s := s.setNode a (s.initUidNodeBase data))
    (by rw [World.watch, here]; exact strange.symm) (by rw [here]; rfl) free data.recvTime data.cmd
  rw [request_new data named found, added]
  rw [here] at taken
  have counted : Taken (s.setNode a (s.initUidNodeBase data)) a data.uid 1 idx
      (s'.countTotal a) := taken.setNode rfl rfl taken.counted
  refine ⟨counted.named, counted.paired, counted.counted, fun b apart => ?_, counted.sw,
    counted.cache, counted.acCfg, counted.sysClock, counted.cleanCursor⟩
  rw [counted.nodes b apart, nodes_setNode, if_neg apart]

theorem request_refused (full : s.firstFree 0 = none) :
    s.procOneClientRequest h data = s.setNode a (s.initUidNodeBase data) := by
  have here : (s.setNode a (s.initUidNodeBase data)).nodes a = s.initUidNodeBase data := by
    rw [nodes_setNode, if_pos rfl]
  have refused := addNewCmd_refused (s := s.setNode a (s.initUidNodeBase data)) (a := a)
    (by rw [World.watch, here]; exact strange.symm) full data.recvTime data.cmd
  rw [request_new data named found, refused]

end Request

/-! ## Lookups -/

section Lookup

variable {nodes : Addr → UidNode} {row : Nat}

/-- A new user comes no later than in the row of a free slot of his. -/
theorem lookup_new (absent : ∀ b ∈ slots uidNodesHtab h uid, (nodes b).uid ≠ uid)
    (rowIn : row < h.rowNum) (free : (nodes (slot uidNodesHtab h uid row)).uid = 0) :
    ∃ earlier ≤ row, (nodes (slot uidNodesHtab h uid earlier)).uid = 0 ∧
      hashTableLookupNodeEx uidNodesHtab h nodes uid (some 0) =
        (some (slot uidNodesHtab h uid earlier), some 0) := by
  rw [hashTableLookupNodeEx_eq, firstWith_eq_none.mpr absent]
  rw [firstWith, slots, List.find?_map]
  cases found : (List.range h.rowNum).find?
      ((fun node => decide (uidNodesHtab.keyOf (nodes node) = uidNodesHtab.emptyKey)) ∘
        slot uidNodesHtab h uid) with
  | none =>
    have taken := List.find?_eq_none.mp found row (List.mem_range.mpr rowIn)
    exact absurd (decide_eq_true free) taken
  | some earlier =>
    obtain ⟨holds, -, before⟩ := List.find?_range_eq_some.mp found
    refine ⟨earlier, ?_, of_decide_eq_true holds, rfl⟩
    by_contra later
    have empty : uidNodesHtab.keyOf (nodes (slot uidNodesHtab h uid row)) =
        uidNodesHtab.emptyKey := free
    have taken := before row (Nat.lt_of_not_le later)
    rw [Function.comp_apply, decide_eq_true empty] at taken
    exact absurd taken (by decide)

theorem lookup_first (inside : 0 < h.rowNum) (own : (nodes (slot uidNodesHtab h uid 0)).uid = uid) :
    hashTableLookupNodeEx uidNodesHtab h nodes uid (some 0) =
      (some (slot uidNodesHtab h uid 0), some 1) := by
  have first : firstWith uidNodesHtab nodes uid (slots uidNodesHtab h uid) =
      some (slot uidNodesHtab h uid 0) := by
    obtain ⟨rows, shape⟩ : ∃ rows, h.rowNum = rows + 1 := ⟨h.rowNum - 1, by omega⟩
    rw [firstWith, slots, shape, List.range_succ_eq_map, List.map_cons]
    exact List.find?_cons_of_pos (decide_eq_true own)
  rw [hashTableLookupNodeEx_eq, first]
  rfl

end Lookup

/-! ## The clean-up goes on -/

/-- A user who is not idle stays. -/
theorem cleanFrom_awake (awake : ¬ s.Idle a) (scan handle : Nat) :
    (World.cleanFrom h scan handle s).nodes a = s.nodes a := by
  induction scan generalizing handle s with
  | zero => rfl
  | succ scan ih =>
    have moved : ∀ cursor, ¬ World.Idle { s with cleanCursor := cursor } a := fun _ => awake
    rw [World.cleanFrom]
    split
    · exact ih (moved _) handle
    · rfl
    · exact ih (moved _) handle
    · rename_i b cursor met
      dsimp only
      split
      · rename_i idle
        have apart : a ≠ b := by
          rintro rfl
          exact awake idle
        have left : (World.releaseUidNode { s with cleanCursor := cursor } b).nodes a =
            s.nodes a := by
          rw [World.nodes_release, if_neg apart]
        have awake' : ¬ (World.releaseUidNode { s with cleanCursor := cursor } b).Idle a := by
          rw [World.Idle, left]
          exact awake
        split
        · exact left
        · exact (ih awake' (handle + 1)).trans left
      · exact ih (moved _) handle

/-- No watch node is taken. -/
theorem cleanFrom_free {p : Nat × Nat} (free : (s.sw p).uid = 0) (scan handle : Nat) :
    ((World.cleanFrom h scan handle s).sw p).uid = 0 := by
  induction scan generalizing handle s with
  | zero => exact free
  | succ scan ih =>
    have moved : ∀ cursor, (World.sw { s with cleanCursor := cursor } p).uid = 0 := fun _ => free
    rw [World.cleanFrom]
    split
    · exact ih (moved _) handle
    · exact free
    · exact ih (moved _) handle
    · rename_i b cursor met
      have released : ((World.releaseUidNode { s with cleanCursor := cursor } b).sw p).uid = 0 := by
        rw [World.sw_release]
        split
        · rfl
        · exact free
      dsimp only
      split
      · split
        · exact released
        · exact ih released (handle + 1)
      · exact ih (moved _) handle

/-! ## The table of the seer -/

def seerMods (row : Nat) : Nat :=
  [29989, 29983, 29959, 29947, 29927, 29921, 29917, 29881, 29879, 29873, 29867, 29863, 29851,
    29837, 29833, 29819, 29803, 29789, 29761, 29759].getD row 0

def seerTable : HashTable :=
  (hashTableInit blank 4096 (1024 * 600000) 1024 20 (fun _ => 30000) seerMods).getD blank

theorem seerTable_set :
    hashTableInit blank 4096 (1024 * 600000) 1024 20 (fun _ => 30000) seerMods =
      some seerTable := rfl

theorem seerTable_mods : ∀ row < 20, 29759 ≤ seerTable.mods row := by
  decide +kernel

theorem seerTable_walk :
    hashTableWalk seerTable 0 0 = some (slot uidNodesHtab seerTable 29989 0, 0, 1) := rfl

/-- The slot of a user in a row of that table. -/
abbrev seerSlot (uid row : Nat) : Addr := slot uidNodesHtab seerTable uid row

/-- Users whose ids are close to each other share no slot. -/
theorem seerSlot_inj {uid uid' row row' : Nat} (rowIn : row < 20) (rowIn' : row' < 20)
    (same : seerSlot uid row = seerSlot uid' row') :
    row = row' ∧ uid % seerTable.mods row = uid' % seerTable.mods row := by
  have ready := ready_hashTableInit seerTable_set
  have inside : ∀ uid, ∀ row < 20, column uidNodesHtab seerTable uid row < seerTable.nodesNum row :=
    fun uid row rowIn => (Nat.mod_lt _ (ready.modsPositive row rowIn)).trans_le
      (ready.modsFit row rowIn)
  obtain ⟨rfl, columns⟩ := ready.nodeAt_inj rowIn (inside uid row rowIn) rowIn'
    (inside uid' row' rowIn') same
  exact ⟨rfl, columns⟩

/-- How many of the first ids are no multiples of the first modulus, which leave the first slot
of the table free. -/
def users (k : Nat) : Nat := k - k / 29989

/-- The users with those ids have come, one after the other. -/
structure Filled (k : Nat) (s : World) : Prop where
  run : Reaches (World.step seerTable) (fun _ _ => True) (.init noConfig 0) s
  below : ∀ a ∈ place seerTable, (s.nodes a).uid ≠ 0 →
    (s.nodes a).uid ≤ k ∧ (s.nodes a).uid % 29989 ≠ 0
  rows : ∀ a ∈ place seerTable, (s.nodes a).uid ≠ 0 →
    ∃ row < 20, row * 29759 < (s.nodes a).uid ∧ a = seerSlot (s.nodes a).uid row
  sw : ∀ idx < 500000, (s.sw (0, idx)).uid = 0 ↔ users k ≤ idx
  cache : s.lvlFreeCache 0 = users k % 500000
  first : 0 < k → (s.nodes (seerSlot 1 0)).uid = 1 ∧ (s.nodes (seerSlot 1 0)).pair = (0, 0) ∧
    (s.nodes (seerSlot 1 0)).swCmdCount = 1 ∧ (s.sw (0, 0)).uid = 1
  acCfg : s.acCfg = noConfig
  sysClock : s.sysClock = 0
  cleanCursor : s.cleanCursor = .zero

namespace Filled

variable {k : Nat}

theorem start : Filled 0 (.init noConfig 0) where
  run := .refl
  below _ _ taken := absurd rfl taken
  rows _ _ taken := absurd rfl taken
  sw idx _ := ⟨fun _ => Nat.zero_le idx, fun _ => rfl⟩
  cache := rfl
  first positive := absurd positive (Nat.lt_irrefl 0)
  acCfg := rfl
  sysClock := rfl
  cleanCursor := rfl

/-- An id that is greater than those before finds a free slot in its own row. -/
theorem free (filled : Filled k s) (room : k < 20 * 29759) :
    (s.nodes (seerSlot (k + 1) (k / 29759))).uid = 0 := by
  by_contra taken
  have rowIn : k / 29759 < 20 := by omega
  have inside : seerSlot (k + 1) (k / 29759) ∈ place seerTable :=
    slot_mem_place (ready_hashTableInit seerTable_set) rowIn
  obtain ⟨le, -⟩ := filled.below _ inside taken
  obtain ⟨row, rowIn', above, same⟩ := filled.rows _ inside taken
  obtain ⟨rfl, columns⟩ := seerSlot_inj rowIn rowIn' same
  have wide := seerTable_mods _ rowIn
  have multiple := Nat.sub_mod_eq_zero_of_mod_eq columns
  rw [Nat.mod_eq_of_lt (by omega)] at multiple
  omega

theorem firstFree_some (filled : Filled k s) (room : users k < 500000) :
    s.firstFree 0 = some (users k) := by
  have level : swLvlNnodeList 0 = 500000 := rfl
  obtain ⟨left, shape⟩ : ∃ left, 500000 - users k = left + 1 := ⟨500000 - users k - 1, by omega⟩
  rw [World.firstFree, filled.cache, Nat.mod_eq_of_lt room, level, shape, List.range'_succ]
  exact List.find?_cons_of_pos (decide_eq_true ((filled.sw _ room).mpr (Nat.le_refl _)))

theorem firstFree_none (filled : Filled k s) (full : users k = 500000) : s.firstFree 0 = none := by
  have level : swLvlNnodeList 0 = 500000 := rfl
  rw [World.firstFree, filled.cache, full, level, Nat.mod_self, List.find?_eq_none]
  intro idx member free
  have within : idx < 500000 := by
    obtain here | here := List.mem_append.mp member
    · obtain ⟨i, less, rfl⟩ := List.mem_range'.mp here
      omega
    · exact absurd (List.mem_range.mp here) (Nat.not_lt_zero _)
  have le := (filled.sw idx within).mp (of_decide_eq_true free)
  omega

/-- An id that is left out. -/
theorem skip (filled : Filled k s) (multiple : (k + 1) % 29989 = 0) (positive : 0 < k) :
    Filled (k + 1) s := by
  have same : users (k + 1) = users k := by
    unfold users
    omega
  refine { filled with below := ?_, sw := ?_, cache := ?_, first := fun _ => filled.first positive }
  · intro a inside taken
    obtain ⟨le, coprime⟩ := filled.below a inside taken
    exact ⟨Nat.le_succ_of_le le, coprime⟩
  · rw [same]
    exact filled.sw
  · rw [same]
    exact filled.cache

theorem enter (filled : Filled k s) (coprime : (k + 1) % 29989 ≠ 0) (room : k < 500016) :
    Filled (k + 1) (s.step seerTable (asking (k + 1) 1)) := by
  have ready := ready_hashTableInit seerTable_set
  have more : users (k + 1) = users k + 1 := by
    unfold users
    omega
  have free : users k < 500000 := by
    unfold users
    omega
  have rowIn : k / 29759 < 20 := by omega
  have absent : ∀ b ∈ slots uidNodesHtab seerTable (k + 1), (s.nodes b).uid ≠ k + 1 := by
    intro b member own
    have taken : (s.nodes b).uid ≠ 0 := own ▸ Nat.succ_ne_zero k
    have le := (filled.below b (slots_subset_place ready b member) taken).1
    omega
  obtain ⟨row, le, empty, found⟩ := lookup_new absent rowIn (filled.free (by omega))
  have strange : (s.sw (0, 0)).uid ≠ k + 1 := by
    obtain rfl | positive := Nat.eq_zero_or_pos k
    · rw [(filled.sw 0 (by decide)).mpr (Nat.le_refl 0)]
      exact Nat.zero_ne_one
    · rw [(filled.first positive).2.2.2]
      omega
  have taken : Taken s (seerSlot (k + 1) row) (k + 1) 1 (users k)
      (s.step seerTable (asking (k + 1) 1)) :=
    request_taken ⟨⟨0, 0⟩, 0, 0, 1, k + 1⟩ (Nat.succ_ne_zero k) found strange
      (filled.firstFree_some free)
  refine ⟨filled.run.call trivial, fun a inside stored => ?_, fun a inside stored => ?_,
    fun idx within => ?_, ?_, fun _ => ?_, taken.acCfg.trans filled.acCfg,
    taken.sysClock.trans filled.sysClock, taken.cleanCursor.trans filled.cleanCursor⟩
  · obtain rfl | apart := eq_or_ne a (seerSlot (k + 1) row)
    · rw [taken.named]
      exact ⟨Nat.le_refl _, coprime⟩
    · rw [taken.nodes a apart] at stored ⊢
      obtain ⟨le, coprime⟩ := filled.below a inside stored
      exact ⟨Nat.le_succ_of_le le, coprime⟩
  · obtain rfl | apart := eq_or_ne a (seerSlot (k + 1) row)
    · rw [taken.named]
      exact ⟨row, Nat.lt_of_le_of_lt le rowIn, by omega, rfl⟩
    · rw [taken.nodes a apart] at stored ⊢
      exact filled.rows a inside stored
  · rw [taken.sw, more]
    by_cases new : idx = users k
    · rw [if_pos (congrArg (Prod.mk 0) new)]
      omega
    · rw [if_neg (fun same => new (congrArg Prod.snd same)), filled.sw idx within]
      omega
  · rw [taken.cache, more]
    rfl
  · obtain rfl | positive := Nat.eq_zero_or_pos k
    · obtain rfl : row = 0 := Nat.le_zero.mp le
      have none : users 0 = 0 := rfl
      refine ⟨taken.named, taken.paired, taken.counted, ?_⟩
      rw [taken.sw, none, if_pos rfl]
    · obtain ⟨named, pair, count, sw⟩ := filled.first positive
      have apart : seerSlot 1 0 ≠ seerSlot (k + 1) row := by
        intro same
        have here : (s.nodes (seerSlot 1 0)).uid = 0 := same ▸ empty
        exact Nat.one_ne_zero (named.symm.trans here)
      have some : users k ≠ 0 := by
        unfold users
        omega
      rw [taken.nodes _ apart, taken.sw, if_neg (fun same => some (congrArg Prod.snd same).symm)]
      exact ⟨named, pair, count, sw⟩

theorem exists_filled (k : Nat) (room : k ≤ 500016) : ∃ s, Filled k s := by
  induction k with
  | zero => exact ⟨_, start⟩
  | succ k ih =>
    obtain ⟨s, filled⟩ := ih (Nat.le_of_succ_le room)
    by_cases multiple : (k + 1) % 29989 = 0
    · exact ⟨s, filled.skip multiple (by omega)⟩
    · exact ⟨_, filled.enter multiple room⟩

end Filled

/-! ## The run -/

/-- The request of the user who comes last. -/
def lastRequest : ClientData := ⟨⟨0, 0⟩, 0, 0, 1, 29989⟩

/-- The last user has no watch node, and the pair of the first one. -/
theorem Filled.last (filled : Filled 500016 s) :
    s.step seerTable (asking 29989 1) = s.setNode (seerSlot 29989 0)
        (s.initUidNodeBase lastRequest) ∧
      (s.nodes (seerSlot 29989 0)).uid = 0 := by
  have ready := ready_hashTableInit seerTable_set
  have full : users 500016 = 500000 := by
    unfold users
    omega
  have absent : ∀ b ∈ slots uidNodesHtab seerTable 29989, (s.nodes b).uid ≠ 29989 := by
    intro b member own
    have taken : (s.nodes b).uid ≠ 0 := by omega
    have coprime := (filled.below b (slots_subset_place ready b member) taken).2
    omega
  have empty : (s.nodes (seerSlot 29989 0)).uid = 0 := by
    by_contra taken
    have inside : seerSlot 29989 0 ∈ place seerTable := slot_mem_place ready (by decide)
    obtain ⟨-, coprime⟩ := filled.below _ inside taken
    obtain ⟨row, rowIn, -, same⟩ := filled.rows _ inside taken
    obtain ⟨rfl, columns⟩ := seerSlot_inj (by decide) rowIn same
    exact coprime columns.symm
  have zeroIn : 0 < seerTable.rowNum := by decide
  obtain ⟨row, le, -, found⟩ := lookup_new absent zeroIn empty
  obtain rfl : row = 0 := Nat.le_zero.mp le
  have strange : (s.sw (0, 0)).uid ≠ 29989 := by
    rw [(filled.first (by decide)).2.2.2]
    decide
  have refused : s.procOneClientRequest seerTable lastRequest =
      s.setNode (seerSlot 29989 0) (s.initUidNodeBase lastRequest) :=
    request_refused lastRequest (by decide) found strange (filled.firstFree_none full)
  exact ⟨refused, empty⟩

/-- A user who is known is asked for nothing while there is no configuration. -/
theorem step_known (off : s.acCfg = noConfig) (named : uid ≠ 0)
    (found : hashTableLookupNodeEx uidNodesHtab h s.nodes uid (some 0) = (some a, some 1)) :
    s.step h (asking uid 1) =
      (s.setNode a { s.nodes a with lastAccess := s.sysClock }).countTotal a := by
  have disabled : ((s.setNode a
      { s.nodes a with lastAccess := s.sysClock }).countTotal a).acCfg.status ≠
        acCfgStatusEnable := by
    change s.acCfg.status ≠ acCfgStatusEnable
    rw [off]
    decide
  change World.procOneClientRequest s h ⟨⟨0, 0⟩, 0, 0, 1, uid⟩ = _
  rw [World.procOneClientRequest, if_neg named, found]
  dsimp only
  rw [if_neg (by decide), if_pos disabled]

/-- The clean-up starts with the first slot of the table. -/
theorem tmrClean_first (start : s.cleanCursor = .zero)
    (stored : (s.nodes (seerSlot 29989 0)).uid ≠ 0) (idle : s.Idle (seerSlot 29989 0))
    (apart : a ≠ seerSlot 29989 0) (awake : ¬ s.Idle a) :
    (s.tmrCleanUidNode seerTable).nodes a = s.nodes a ∧
      ((s.tmrCleanUidNode seerTable).sw (s.nodes (seerSlot 29989 0)).pair).uid = 0 := by
  have met : visit seerTable s.nodes s.cleanCursor =
      .user (seerSlot 29989 0) ⟨0, 1, 1, 0⟩ := by
    rw [start, visit, Cursor.zero, seerTable_walk]
    dsimp only
    rw [if_neg (by decide), if_neg stored]
    rfl
  have idle' : World.Idle { s with cleanCursor := ⟨0, 1, 1, 0⟩ } (seerSlot 29989 0) := idle
  have left : (World.releaseUidNode { s with cleanCursor := ⟨0, 1, 1, 0⟩ }
      (seerSlot 29989 0)).nodes a = s.nodes a := by
    rw [World.nodes_release, if_neg apart]
  have awake' : ¬ (World.releaseUidNode { s with cleanCursor := ⟨0, 1, 1, 0⟩ }
      (seerSlot 29989 0)).Idle a := by
    rw [World.Idle, left]
    exact awake
  have cleared : ((World.releaseUidNode { s with cleanCursor := ⟨0, 1, 1, 0⟩ }
      (seerSlot 29989 0)).sw (s.nodes (seerSlot 29989 0)).pair).uid = 0 := by
    rw [World.sw_release, if_pos rfl]
    rfl
  rw [World.tmrCleanUidNode, World.cleanFrom, met]
  dsimp only
  rw [if_pos idle', if_neg (by decide)]
  exact ⟨(cleanFrom_awake awake' _ _).trans left, cleanFrom_free cleared _ _⟩

/-- Half a million users have a watch node each, the next one has none, and only the first of
them asks again, a minute later. -/
theorem exists_minute_later :
    ∃ s, Reaches (World.step seerTable) (fun _ _ => True) (.init noConfig 0) s ∧
      s.cleanCursor = .zero ∧ s.sysClock = 61 ∧ (s.nodes (seerSlot 29989 0)).uid = 29989 ∧
      (s.nodes (seerSlot 29989 0)).pair = (0, 0) ∧
      (s.nodes (seerSlot 29989 0)).lastAccess = 0 ∧ (s.nodes (seerSlot 1 0)).uid = 1 ∧
      (s.nodes (seerSlot 1 0)).pair = (0, 0) ∧ (s.nodes (seerSlot 1 0)).swCmdCount = 1 ∧
      (s.nodes (seerSlot 1 0)).lastAccess = 61 := by
  obtain ⟨s, filled⟩ := Filled.exists_filled 500016 (Nat.le_refl _)
  obtain ⟨named, pair, count, -⟩ := filled.first (by decide)
  obtain ⟨last, empty⟩ := filled.last
  have apart : seerSlot 1 0 ≠ seerSlot 29989 0 := by
    intro same
    rw [← same, named] at empty
    exact Nat.one_ne_zero empty
  obtain ⟨t, run, off, cursor, clock, ofFirst, ofLast⟩ : ∃ t,
      Reaches (World.step seerTable) (fun _ _ => True) (.init noConfig 0) t ∧
        t.acCfg = noConfig ∧ t.cleanCursor = .zero ∧ t.sysClock = 61 ∧
        t.nodes (seerSlot 1 0) = s.nodes (seerSlot 1 0) ∧
        t.nodes (seerSlot 29989 0) = s.initUidNodeBase lastRequest := by
    have arrived : Reaches (World.step seerTable) (fun _ _ => True) (.init noConfig 0)
        (s.step seerTable (asking 29989 1)) := filled.run.call trivial
    rw [last] at arrived
    have later : Reaches (World.step seerTable) (fun _ _ => True) (.init noConfig 0)
        ((s.setNode (seerSlot 29989 0) (s.initUidNodeBase lastRequest)).step seerTable
          (.tmrRenewSysClock ⟨61, 0⟩)) := arrived.call trivial
    refine ⟨_, later, filled.acCfg, filled.cleanCursor, rfl, ?_, ?_⟩
    · change (s.setNode (seerSlot 29989 0) (s.initUidNodeBase lastRequest)).nodes
        (seerSlot 1 0) = s.nodes (seerSlot 1 0)
      rw [nodes_setNode, if_neg apart]
    · change (s.setNode (seerSlot 29989 0) (s.initUidNodeBase lastRequest)).nodes
        (seerSlot 29989 0) = s.initUidNodeBase lastRequest
      rw [nodes_setNode, if_pos rfl]
  have asked : Reaches (World.step seerTable) (fun _ _ => True) (.init noConfig 0)
      (t.step seerTable (asking 1 1)) := run.call trivial
  have own : (t.nodes (seerSlot 1 0)).uid = 1 := ofFirst ▸ named
  rw [step_known off (by decide) (lookup_first (by decide) own)] at asked
  have here : ((t.setNode (seerSlot 1 0) { t.nodes (seerSlot 1 0) with
      lastAccess := t.sysClock }).countTotal (seerSlot 1 0)).nodes (seerSlot 1 0) =
        { t.nodes (seerSlot 1 0) with
          lastAccess := t.sysClock
          tw := { (t.nodes (seerSlot 1 0)).tw with
            count := (t.nodes (seerSlot 1 0)).tw.count + 1 } } := by
    rw [World.countTotal, nodes_setNode, if_pos rfl, nodes_setNode, if_pos rfl]
  have there : ((t.setNode (seerSlot 1 0) { t.nodes (seerSlot 1 0) with
      lastAccess := t.sysClock }).countTotal (seerSlot 1 0)).nodes (seerSlot 29989 0) =
        t.nodes (seerSlot 29989 0) := by
    rw [World.countTotal, nodes_setNode, if_neg apart.symm, nodes_setNode, if_neg apart.symm]
  refine ⟨_, asked, cursor, clock, ?_⟩
  rw [here, there, ofLast]
  exact ⟨rfl, rfl, filled.sysClock, own, (congrArg UidNode.pair ofFirst).trans pair,
    (congrArg UidNode.swCmdCount ofFirst).trans count, clock⟩

/-- The clean-up takes his watch node from a user who stays. -/
theorem watch_node_lost :
    hashTableInit blank 4096 (1024 * 600000) 1024 20 (fun _ => 30000) seerMods =
      some seerTable ∧
    ∃ s a, Reaches (World.step seerTable) (fun _ _ => True) (.init noConfig 0) s ∧
      s.Stores seerTable a ∧ (s.nodes a).swCmdCount ≠ 0 ∧ ¬ s.Owns a := by
  refine ⟨seerTable_set, ?_⟩
  obtain ⟨s, run, start, clock, last, lastPair, lastTime, named, pair, count, time⟩ :=
    exists_minute_later
  have apart : seerSlot 1 0 ≠ seerSlot 29989 0 := by
    intro same
    rw [same, last] at named
    exact absurd named (by decide)
  have idle : s.Idle (seerSlot 29989 0) := by
    rw [World.Idle, clock, lastTime]
    decide
  have awake : ¬ s.Idle (seerSlot 1 0) := by
    rw [World.Idle, clock, time]
    decide
  have stored : (s.nodes (seerSlot 29989 0)).uid ≠ 0 := by
    rw [last]
    decide
  obtain ⟨stays, cleared⟩ := tmrClean_first start stored idle apart awake
  refine ⟨s.step seerTable .tmrCleanUidNode, seerSlot 1 0, run.call trivial, ⟨?_, ?_⟩, ?_, ?_⟩
  · exact slot_mem_place (ready_hashTableInit seerTable_set) (by decide)
  · change ((s.tmrCleanUidNode seerTable).nodes _).uid ≠ 0
    rw [stays, named]
    decide
  · change ((s.tmrCleanUidNode seerTable).nodes _).swCmdCount ≠ 0
    rw [stays, count]
    decide
  · change ((s.tmrCleanUidNode seerTable).sw ((s.tmrCleanUidNode seerTable).nodes _).pair).uid ≠
      ((s.tmrCleanUidNode seerTable).nodes _).uid
    rw [stays, pair, ← lastPair, cleared, named]
    decide

end Taomee.Anticheat.Watch
