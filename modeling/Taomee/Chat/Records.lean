import Taomee.Chat.Timed

/-!
# chat: the records of texts and of users

What is kept of the messages is two functions: how many copies of a text a user has among
them, and which messages a user has. Every operation on the records changes these at one
place.
-/

namespace Taomee.Chat

open CircularList LevelMaps

theorem clamp_lt (level : Int) : clamp level < maxMsglv := by
  unfold clamp maxMsglv
  split
  · decide
  · split <;> omega

theorem insertNew_eq {α : Type} {maps : Nat → Nat → Option α} {level key : Nat} {value : α}
    (missing : maps level key = none) :
    insertNew maps level key value = store maps level key (some value) := by
  rw [insertNew, missing]
  rfl

/-- A count as the map of a record has it: users without a copy are not in the map. -/
def counted (count : Nat) : Option Nat := if count = 0 then none else some count

@[simp] theorem counted_succ (count : Nat) : counted (count + 1) = some (count + 1) := rfl

theorem getD_counted (count : Nat) : (counted count).getD 0 = count := by
  cases count <;> rfl

/-- One more copy. -/
def bump (copies : Nat → Nat → Nat) (msgid userid : Nat) : Nat → Nat → Nat :=
  Function.update copies msgid (Function.update (copies msgid) userid (copies msgid userid + 1))

theorem bump_self (copies : Nat → Nat → Nat) (msgid userid : Nat) :
    bump copies msgid userid msgid =
      Function.update (copies msgid) userid (copies msgid userid + 1) := Function.update_self ..

/-! ## Texts -/

/-- The records say for each text that has copies at which level it is and who has how many. -/
structure MetaKept (m : MsgMetaMap) (copies : Nat → Nat → Nat) : Prop where
  filed : Filed maxMsglv m.metaMap
  level : ∀ {msgid loop addr}, find maxMsglv m.metaMap msgid = some (loop, addr) →
    (m.metas addr).msglv = loop
  known : ∀ {msgid loop addr}, find maxMsglv m.metaMap msgid = some (loop, addr) → addr ∈ m.live
  apart : ∀ {msgid other loop place addr}, find maxMsglv m.metaMap msgid = some (loop, addr) →
    find maxMsglv m.metaMap other = some (place, addr) → msgid = other
  counts : ∀ {msgid loop addr}, find maxMsglv m.metaMap msgid = some (loop, addr) →
    ∀ userid, (m.metas addr).userCntMap.lookup userid = counted (copies msgid userid)
  cached : ∀ msgid, (find maxMsglv m.metaMap msgid).isSome ↔ ∃ userid, copies msgid userid ≠ 0
  timed : ∃ lists, Timed m.links (fun addr => (m.metas addr).msglv) m.live lists

/-- A record replaced by one of the same level. -/
theorem msglv_update {metas : Addr → MetaMsg} {addr : Addr} (mmsg : MetaMsg)
    (same : mmsg.msglv = (metas addr).msglv) :
    (fun other => (Function.update metas addr mmsg other).msglv) = fun other => (metas other).msglv := by
  ext other
  by_cases own : other = addr
  · rw [own, Function.update_self, same]
  · rw [Function.update_of_ne own]

namespace MetaKept

variable {m : MsgMetaMap} {copies : Nat → Nat → Nat} {msgid userid loop : Nat} {addr place : Addr}
variable {row : Nat → Nat} {counts : AList fun _ : Nat => Nat}

/-- What is kept of one text changes, with the levels and the lists as they should be. -/
theorem replace (kept : MetaKept m copies) {m' : MsgMetaMap} {entry : Option (Nat × Addr)}
    (filed : Filed maxMsglv m'.metaMap)
    (whole : find maxMsglv m'.metaMap = Function.update (find maxMsglv m.metaMap) msgid entry)
    (others : ∀ {other loop addr}, other ≠ msgid →
      find maxMsglv m.metaMap other = some (loop, addr) →
      m'.metas addr = m.metas addr ∧ addr ∈ m'.live ∧
        ∀ place there, entry = some (place, there) → there ≠ addr)
    (own : ∀ {loop addr}, entry = some (loop, addr) →
      (m'.metas addr).msglv = loop ∧ addr ∈ m'.live ∧
        ∀ userid, (m'.metas addr).userCntMap.lookup userid = counted (row userid))
    (cached : entry.isSome ↔ ∃ userid, row userid ≠ 0)
    (timed : ∃ lists, Timed m'.links (fun addr => (m'.metas addr).msglv) m'.live lists) :
    MetaKept m' (Function.update copies msgid row) := by
  have entry_of {other loop : Nat} {addr : Addr}
      (found : find maxMsglv m'.metaMap other = some (loop, addr)) :
      other = msgid ∧ entry = some (loop, addr) ∨
        other ≠ msgid ∧ find maxMsglv m.metaMap other = some (loop, addr) := by
    rw [whole] at found
    by_cases same : other = msgid
    · subst same
      rw [Function.update_self] at found
      exact .inl ⟨rfl, found⟩
    · rw [Function.update_of_ne same] at found
      exact .inr ⟨same, found⟩
  refine ⟨filed, ?_, ?_, ?_, ?_, ?_, timed⟩
  · intro other loop addr found
    obtain ⟨-, mine⟩ | ⟨different, before⟩ := entry_of found
    · exact (own mine).1
    · rw [(others different before).1]
      exact kept.level before
  · intro other loop addr found
    obtain ⟨-, mine⟩ | ⟨different, before⟩ := entry_of found
    · exact (own mine).2.1
    · exact (others different before).2.1
  · intro one two loop place addr first second
    obtain ⟨rfl, mine⟩ | ⟨different, before⟩ := entry_of first
    · obtain ⟨rfl, -⟩ | ⟨apart, also⟩ := entry_of second
      · rfl
      · exact absurd rfl ((others apart also).2.2 _ _ mine)
    · obtain ⟨rfl, mine⟩ | ⟨-, also⟩ := entry_of second
      · exact absurd rfl ((others different before).2.2 _ _ mine)
      · exact kept.apart before also
  · intro other loop addr found userid
    obtain ⟨rfl, mine⟩ | ⟨different, before⟩ := entry_of found
    · rw [Function.update_self]
      exact (own mine).2.2 userid
    · rw [Function.update_of_ne different, (others different before).1]
      exact kept.counts before userid
  · intro other
    rw [whole]
    by_cases same : other = msgid
    · subst same
      rw [Function.update_self, Function.update_self]
      exact cached
    · rw [Function.update_of_ne same, Function.update_of_ne same]
      exact kept.cached other

/-- The records of two texts are two. -/
theorem addr_ne (kept : MetaKept m copies)
    (found : find maxMsglv m.metaMap msgid = some (loop, addr)) {other otherLoop : Nat}
    {there : Addr} (different : other ≠ msgid)
    (entry : find maxMsglv m.metaMap other = some (otherLoop, there)) : there ≠ addr := by
  rintro rfl
  exact different (kept.apart entry found)

/-- The record of a text changes, but not its level. -/
theorem edit (kept : MetaKept m copies) (found : find maxMsglv m.metaMap msgid = some (loop, addr))
    (mmsg : MetaMsg) (same : mmsg.msglv = (m.metas addr).msglv)
    (counts : ∀ userid, mmsg.userCntMap.lookup userid = counted (row userid))
    (some' : ∃ userid, row userid ≠ 0) :
    MetaKept { m with metas := Function.update m.metas addr mmsg }
      (Function.update copies msgid row) := by
  have whole : find maxMsglv m.metaMap =
      Function.update (find maxMsglv m.metaMap) msgid (some (loop, addr)) := by
    rw [← found, Function.update_eq_self]
  refine kept.replace kept.filed whole ?_ ?_ (iff_of_true rfl some') ?_
  · intro other place there different entry
    have apart := kept.addr_ne found different entry
    refine ⟨Function.update_of_ne apart .., kept.known entry, fun place there mine => ?_⟩
    obtain ⟨-, rfl⟩ := Prod.mk.inj (Option.some.inj mine)
    exact apart.symm
  · intro place there mine
    obtain ⟨rfl, rfl⟩ := Prod.mk.inj (Option.some.inj mine)
    dsimp only
    rw [Function.update_self]
    exact ⟨same.trans (kept.level found), kept.known found, counts⟩
  · obtain ⟨lists, timed⟩ := kept.timed
    refine ⟨lists, ?_⟩
    rwa [msglv_update mmsg same]

/-- Scores change, and nothing else. -/
theorem score (kept : MetaKept m copies) (found : find maxMsglv m.metaMap msgid = some (loop, addr))
    (mmsg : MetaMsg) (same : mmsg.msglv = (m.metas addr).msglv)
    (users : mmsg.userCntMap = (m.metas addr).userCntMap) :
    MetaKept { m with metas := Function.update m.metas addr mmsg } copies := by
  have cached := (kept.cached msgid).mp (by rw [found]; rfl)
  have edited := kept.edit found mmsg same (fun userid => users ▸ kept.counts found userid) cached
  rwa [Function.update_eq_self] at edited

theorem praise (kept : MetaKept m copies)
    (found : find maxMsglv m.metaMap msgid = some (loop, addr)) : MetaKept (m.praise addr) copies :=
  kept.score found
    { m.metas addr with positiveCnt := uint32 ((m.metas addr).positiveCnt + 1) } rfl rfl

theorem blame (kept : MetaKept m copies)
    (found : find maxMsglv m.metaMap msgid = some (loop, addr)) : MetaKept (m.blame addr) copies :=
  kept.score found
    { m.metas addr with negativeCnt := uint32 ((m.metas addr).negativeCnt + 1) } rfl rfl

/-- The map of a record with one more copy. -/
theorem lookup_insert_counted (same : ∀ other, counts.lookup other = counted (row other))
    (userid other : Nat) :
    (counts.insert userid (row userid + 1)).lookup other =
      counted (Function.update row userid (row userid + 1) other) := by
  by_cases own : other = userid
  · rw [own, AList.lookup_insert, Function.update_self, counted_succ]
  · rw [AList.lookup_insert_ne own, Function.update_of_ne own]
    exact same other

/-- A text without a record gets one at a new address. -/
theorem create (kept : MetaKept m copies) (missing : find maxMsglv m.metaMap msgid = none)
    (fresh : place ∉ m.live) (mmsg : MetaMsg) (low : mmsg.msglv = 0)
    (counts : mmsg.userCntMap = AList.insert userid 1 ∅) :
    MetaKept
      { metaMap := store m.metaMap 0 msgid (some place)
        metas := Function.update m.metas place mmsg
        live := insert place m.live
        links := m.links.initListHead (.record place) } (bump copies msgid userid) := by
  have none' : ∀ userid, copies msgid userid = 0 := by
    intro userid
    by_contra some'
    have cached := (kept.cached msgid).mpr ⟨userid, some'⟩
    rw [missing] at cached
    contradiction
  obtain ⟨filed, whole⟩ := kept.filed.insert missing (by decide : 0 < maxMsglv) place
  refine kept.replace filed whole ?_ ?_ ?_ ?_
  · intro other loop there different entry
    have apart : there ≠ place := ne_of_mem_of_not_mem (kept.known entry) fresh
    refine ⟨Function.update_of_ne apart .., Finset.mem_insert_of_mem (kept.known entry),
      fun loop there mine => ?_⟩
    obtain ⟨-, rfl⟩ := Prod.mk.inj (Option.some.inj mine)
    exact apart.symm
  · intro loop there mine
    obtain ⟨rfl, rfl⟩ := Prod.mk.inj (Option.some.inj mine)
    dsimp only
    rw [Function.update_self, counts]
    have empty (other : Nat) : (∅ : AList fun _ : Nat => Nat).lookup other =
        counted (copies msgid other) := by
      rw [none']
      rfl
    refine ⟨low, Finset.mem_insert_self .., fun other => ?_⟩
    have one := lookup_insert_counted empty userid other
    rw [none' userid] at one ⊢
    exact one
  · refine iff_of_true rfl ⟨userid, ?_⟩
    rw [Function.update_self]
    exact Nat.succ_ne_zero _
  · obtain ⟨lists, timed⟩ := kept.timed
    refine ⟨lists, ?_⟩
    have levels : (fun other => (Function.update m.metas place mmsg other).msglv) =
        Function.update (fun other => (m.metas other).msglv) place 0 := by
      rw [← low]
      exact Function.comp_update MetaMsg.msglv m.metas place mmsg
    rw [levels]
    exact timed.create fresh

/-- The message's text has a record afterwards, and the copy is counted in it. -/
theorem getMeta (kept : MetaKept m copies) {msg : Message} (fresh : place ∉ m.live) :
    MetaKept (m.getMeta msg place).1 (bump copies msg.msgid msg.userid) ∧
      ∃ loop, find maxMsglv (m.getMeta msg place).1.metaMap msg.msgid =
        some (loop, (m.getMeta msg place).2) := by
  cases found : find maxMsglv m.metaMap msg.msgid with
  | some entry =>
    obtain ⟨loop, addr⟩ := entry
    have counts := lookup_insert_counted (kept.counts found) msg.userid
    have some' : ∃ userid, Function.update (copies msg.msgid) msg.userid
        (copies msg.msgid msg.userid + 1) userid ≠ 0 := by
      refine ⟨msg.userid, ?_⟩
      rw [Function.update_self]
      exact Nat.succ_ne_zero _
    simp only [MsgMetaMap.getMeta, found, kept.counts found, getD_counted]
    refine ⟨?_, loop, rfl⟩
    exact kept.edit found { m.metas addr with
      allCount := uint32 ((m.metas addr).allCount + 1)
      userCntMap := (m.metas addr).userCntMap.insert msg.userid (copies msg.msgid msg.userid + 1) }
      rfl counts some'
  | none =>
    simp only [MsgMetaMap.getMeta, found, insertNew_eq (kept.filed.find_eq_none.mp found 0)]
    refine ⟨kept.create found fresh _ rfl rfl, 0, ?_⟩
    rw [(kept.filed.insert found (by decide) place).2, Function.update_self]

/-- A count taken down by one. -/
theorem lookup_countDown (same : ∀ other, counts.lookup other =
      counted (Function.update row userid (row userid + 1) other)) (other : Nat) :
    (MsgMetaMap.countDown counts userid).lookup other = counted (row other) := by
  have own := same userid
  rw [Function.update_self, counted_succ] at own
  rw [MsgMetaMap.countDown, own]
  dsimp only
  by_cases mine : other = userid
  · subst mine
    split
    case isTrue one =>
      have none' : row other = 0 := by omega
      rw [AList.lookup_erase, none']
      rfl
    case isFalse more =>
      rw [AList.lookup_insert, Nat.add_sub_cancel, counted, if_neg (by omega)]
  · have others := same other
    rw [Function.update_of_ne mine] at others
    split
    · rw [AList.lookup_erase_ne mine, others]
    · rw [AList.lookup_insert_ne mine, others]

/-- No user is left in a map exactly when all counts are 0. -/
theorem keys_eq_nil_iff (same : ∀ other, counts.lookup other = counted (row other)) :
    counts.keys = [] ↔ ∀ other, row other = 0 := by
  have listed (other : Nat) : other ∈ counts.keys ↔ row other ≠ 0 := by
    rw [← AList.mem_keys, ← AList.lookup_isSome, same, counted]
    split <;> simp_all
  rw [List.eq_nil_iff_forall_not_mem]
  refine forall_congr' fun other => ?_
  rw [listed, not_not]

/-- A copy is given up, and another one keeps the record. -/
theorem delUserMsg (kept : MetaKept m (bump copies msgid userid))
    (more : ∃ other, copies msgid other ≠ 0) :
    MetaKept (m.delUserMsg msgid userid) copies ∧
      ∃ metas, m.delUserMsg msgid userid = { m with metas } := by
  have bumped : bump copies msgid userid msgid userid ≠ 0 := by
    rw [bump_self, Function.update_self]
    exact Nat.succ_ne_zero _
  obtain ⟨⟨loop, addr⟩, found⟩ := Option.isSome_iff_exists.mp
    ((kept.cached msgid).mpr ⟨userid, bumped⟩)
  have lookups (other : Nat) : (MsgMetaMap.countDown (m.metas addr).userCntMap userid).lookup other =
      counted (copies msgid other) := by
    refine lookup_countDown (fun other => ?_) other
    rw [kept.counts found, bump_self]
  have before : Function.update (bump copies msgid userid) msgid (copies msgid) = copies := by
    rw [bump, Function.update_idem, Function.update_eq_self]
  have stays : (MsgMetaMap.countDown (m.metas addr).userCntMap userid).keys ≠ [] := by
    intro none'
    obtain ⟨other, some'⟩ := more
    exact some' ((keys_eq_nil_iff lookups).mp none' other)
  simp only [MsgMetaMap.delUserMsg, found, if_neg stays]
  have edited := kept.edit found
    { m.metas addr with userCntMap := MsgMetaMap.countDown (m.metas addr).userCntMap userid }
    rfl lookups more
  rw [before] at edited
  exact ⟨edited, _, rfl⟩

theorem addtoTimeList (kept : MetaKept m copies)
    (found : find maxMsglv m.metaMap msgid = some (loop, addr)) (off : OffList m.links addr) :
    MetaKept (m.addtoTimeList addr) copies := by
  obtain ⟨lists, timed⟩ := kept.timed
  exact { kept with timed := ⟨_, timed.add (kept.known found) off⟩ }

/-- The record of a text goes to another level, or stays. -/
theorem update (kept : MetaKept m copies) (scoring : Scoring)
    (found : find maxMsglv m.metaMap msgid = some (loop, addr)) :
    MetaKept (m.update scoring msgid addr) copies := by
  simp only [MsgMetaMap.update]
  split
  · rename_i moved
    generalize newLevelEq : clamp (scoring.ratio (m.metas addr).negativeCnt
      (m.metas addr).positiveCnt (m.metas addr).allCount) = newLevel at moved ⊢
    have below : newLevel < maxMsglv := newLevelEq ▸ clamp_lt _
    rw [kept.level found] at moved ⊢
    obtain ⟨filed, whole⟩ := kept.filed.move found below addr
    have missing : store m.metaMap loop msgid none newLevel msgid = none := by
      rw [store_of_level_ne moved]
      have holds := kept.filed msgid
      rw [found] at holds
      cases holds with
      | filed _ _ only => exact only newLevel moved
    rw [insertNew_eq missing]
    have cached := (kept.cached msgid).mp (by rw [found]; rfl)
    rw [← Function.update_eq_self msgid copies]
    refine kept.replace filed whole ?_ ?_ (iff_of_true rfl cached) ?_
    · intro other place there different entry
      have apart := kept.addr_ne found different entry
      refine ⟨Function.update_of_ne apart .., kept.known entry, fun place there mine => ?_⟩
      obtain ⟨-, rfl⟩ := Prod.mk.inj (Option.some.inj mine)
      exact apart.symm
    · intro place there mine
      obtain ⟨rfl, rfl⟩ := Prod.mk.inj (Option.some.inj mine)
      dsimp only [MsgMetaMap.addtoTimeList]
      rw [Function.update_self]
      exact ⟨rfl, kept.known found, kept.counts found⟩
    · obtain ⟨lists, timed⟩ := kept.timed
      obtain ⟨lists', again⟩ := timed.move (kept.known found) below
      refine ⟨lists', ?_⟩
      have levels : (fun other => (Function.update m.metas addr
          { m.metas addr with msglv := newLevel } other).msglv) =
          Function.update (fun other => (m.metas other).msglv) addr newLevel :=
        Function.comp_update MetaMsg.msglv m.metas addr { m.metas addr with msglv := newLevel }
      dsimp only [MsgMetaMap.addtoTimeList]
      rw [levels, Function.update_self]
      exact again
  · exact kept

end MetaKept

/-! ## Users -/

/-- The records say for each user that has messages at which level it is and which they are. -/
structure UserKept (users : MsgUserMap) (messages : Nat → List Message) : Prop where
  filed : Filed maxMsglv users
  record : ∀ {userid loop umsg}, find maxMsglv users userid = some (loop, umsg) →
    umsg = { userlv := loop, userMsgHead := messages userid }
  present : ∀ userid, (find maxMsglv users userid).isSome ↔ messages userid ≠ []

namespace UserKept

variable {users : MsgUserMap} {messages : Nat → List Message} {userid loop : Nat} {umsg : UserMsg}

/-- What is kept of one user changes. -/
theorem replace (kept : UserKept users messages) {users' : MsgUserMap}
    {entry : Option (Nat × UserMsg)} {own : List Message} (filed : Filed maxMsglv users')
    (whole : find maxMsglv users' = Function.update (find maxMsglv users) userid entry)
    (record : ∀ {loop umsg}, entry = some (loop, umsg) → umsg = { userlv := loop, userMsgHead := own })
    (present : entry.isSome ↔ own ≠ []) :
    UserKept users' (Function.update messages userid own) := by
  refine ⟨filed, ?_, ?_⟩
  · intro other loop umsg found
    rw [whole] at found
    by_cases same : other = userid
    · subst same
      rw [Function.update_self] at found ⊢
      exact record found
    · rw [Function.update_of_ne same] at found ⊢
      exact kept.record found
  · intro other
    rw [whole]
    by_cases same : other = userid
    · subst same
      rw [Function.update_self, Function.update_self]
      exact present
    · rw [Function.update_of_ne same, Function.update_of_ne same]
      exact kept.present other

theorem getUserMsg_eq_none (kept : UserKept users messages) :
    users.getUserMsg userid = none ↔ messages userid = [] := by
  rw [MsgUserMap.getUserMsg, Option.map_eq_none_iff, ← not_iff_not, ← ne_eq, ← ne_eq,
    ← kept.present, Option.isSome_iff_ne_none]

theorem getUserMsg_eq_some (kept : UserKept users messages)
    (found : users.getUserMsg userid = some umsg) :
    find maxMsglv users userid = some (umsg.userlv, umsg) ∧ umsg.userMsgHead = messages userid := by
  obtain ⟨⟨loop, record⟩, entry, rfl⟩ := Option.map_eq_some_iff.mp found
  obtain rfl := kept.record entry
  exact ⟨entry, rfl⟩

/-- A message is put at the end of its user's list, at the user's level or at any for a user
without messages. -/
theorem addMsgToUserList (kept : UserKept users messages) {userlv : Nat} (below : userlv < maxMsglv)
    (there : ∀ loop umsg, find maxMsglv users userid = some (loop, umsg) → loop = userlv)
    (msg : Message) :
    UserKept (users.addMsgToUserList userid userlv msg)
        (Function.update messages userid (messages userid ++ [msg])) ∧
      find maxMsglv (users.addMsgToUserList userid userlv msg) userid =
        some (userlv, { userlv, userMsgHead := messages userid ++ [msg] }) := by
  have whole : Filed maxMsglv (users.addMsgToUserList userid userlv msg) ∧
      find maxMsglv (users.addMsgToUserList userid userlv msg) =
        Function.update (find maxMsglv users) userid
          (some (userlv, { userlv, userMsgHead := messages userid ++ [msg] })) := by
    cases found : find maxMsglv users userid with
    | none =>
      have empty : messages userid = [] := by
        by_contra some'
        have present := (kept.present userid).mpr some'
        rw [found] at present
        contradiction
      rw [MsgUserMap.addMsgToUserList, kept.filed.find_eq_none.mp found, empty]
      exact kept.filed.insert found below _
    | some entry =>
      obtain ⟨loop, umsg⟩ := entry
      obtain rfl := there loop umsg found
      obtain rfl := kept.record found
      rw [MsgUserMap.addMsgToUserList, kept.filed.find_eq_some.mp found]
      exact kept.filed.replace found _
  refine ⟨kept.replace whole.1 whole.2 ?_ (iff_of_true rfl (by simp)), ?_⟩
  · intro loop umsg entry
    obtain ⟨rfl, rfl⟩ := Prod.mk.inj (Option.some.inj entry)
    rfl
  · rw [whole.2, Function.update_self]

/-- The oldest message of a user is given up; the record goes with the last one. -/
theorem giveUp {msg : Message}
    (kept : UserKept users (Function.update messages msg.userid (msg :: messages msg.userid))) :
    UserKept ((users.unlink msg).delMsgFromList msg) messages := by
  have full : Function.update messages msg.userid (msg :: messages msg.userid) msg.userid ≠ [] := by
    rw [Function.update_self]
    exact List.cons_ne_nil _ _
  obtain ⟨⟨loop, umsg⟩, found⟩ := Option.isSome_iff_exists.mp ((kept.present msg.userid).mpr full)
  have before : Function.update (Function.update messages msg.userid (msg :: messages msg.userid))
      msg.userid (messages msg.userid) = messages := by
    rw [Function.update_idem, Function.update_eq_self]
  have record := kept.record found
  rw [Function.update_self] at record
  subst record
  rw [← before, MsgUserMap.unlink, found]
  dsimp only
  rw [List.erase_cons_head]
  obtain ⟨filed, whole⟩ := kept.filed.replace found
    { userlv := loop, userMsgHead := messages msg.userid }
  have now : find maxMsglv (store users loop msg.userid
      (some { userlv := loop, userMsgHead := messages msg.userid })) msg.userid =
      some (loop, { userlv := loop, userMsgHead := messages msg.userid }) := by
    rw [whole, Function.update_self]
  rw [MsgUserMap.delMsgFromList, now]
  dsimp only
  split
  case isTrue empty =>
    obtain ⟨removed, without⟩ := filed.remove now
    rw [whole, Function.update_idem] at without
    refine kept.replace removed without (fun mine => absurd mine (by simp)) ?_
    simp [empty]
  case isFalse some' =>
    refine kept.replace filed whole (fun mine => ?_) (iff_of_true rfl some')
    obtain ⟨rfl, rfl⟩ := Prod.mk.inj (Option.some.inj mine)
    rfl

/-- A user goes to another level with its messages. -/
theorem tryChangeLevel (kept : UserKept users messages)
    (found : find maxMsglv users userid = some (loop, umsg)) (changeLevel : Int) :
    UserKept (users.tryChangeLevel userid umsg changeLevel).1 messages := by
  obtain rfl := kept.record found
  have present := (kept.present userid).mp (by rw [found]; rfl)
  rw [MsgUserMap.tryChangeLevel]
  split
  · exact kept
  split
  · exact kept
  obtain ⟨filed, whole⟩ := kept.filed.move found (clamp_lt (loop + changeLevel))
    { userlv := clamp (loop + changeLevel), userMsgHead := messages userid }
  have missing : store users loop userid none (clamp (loop + changeLevel)) userid = none := by
    by_cases same : clamp (loop + changeLevel) = loop
    · rw [same, store_self]
    · rw [store_of_level_ne same]
      have holds := kept.filed userid
      rw [found] at holds
      cases holds with
      | filed _ _ only => exact only _ same
  have moved := kept.replace filed whole (fun mine => ?_) (iff_of_true rfl present)
  · rw [Function.update_eq_self] at moved
    dsimp only
    rwa [insertNew_eq missing]
  · obtain ⟨rfl, rfl⟩ := Prod.mk.inj (Option.some.inj mine)
    rfl

end UserKept

end Taomee.Chat
