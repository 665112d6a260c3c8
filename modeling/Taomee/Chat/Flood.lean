import Taomee.Chat.Records
import Taomee.Library.Runs

/-!
# chat: runs of the check

The records agree with the messages that are kept as long as no last copy of a text is given up:
its record is freed then, on a list by time as it is, and the copy that is taken out of
`meta_msg_head` writes to it. No record may be put on a list by time twice.
-/

namespace Taomee.Chat

open CircularList LevelMaps Runs

variable {messages : List Message}

/-- How many copies of a text a user has among some messages. -/
def copies (messages : List Message) (msgid userid : Nat) : Nat :=
  messages.countP fun msg => msg.msgid = msgid ∧ msg.userid = userid

/-- The messages of a user. -/
def messagesOf (messages : List Message) (userid : Nat) : List Message :=
  messages.filter fun msg => msg.userid = userid

theorem copies_ne_zero {msg : Message} (member : msg ∈ messages) :
    copies messages msg.msgid msg.userid ≠ 0 := by
  refine Nat.pos_iff_ne_zero.mp (List.countP_pos_iff.mpr ⟨msg, member, ?_⟩)
  simp

theorem exists_of_copies_ne_zero {msgid userid : Nat} (some' : copies messages msgid userid ≠ 0) :
    ∃ msg ∈ messages, msg.msgid = msgid := by
  obtain ⟨msg, member, same⟩ := List.countP_pos_iff.mp (Nat.pos_iff_ne_zero.mpr some')
  exact ⟨msg, member, (of_decide_eq_true same).1⟩

/-- A message that comes is one copy more. -/
theorem copies_append (messages : List Message) (msg : Message) :
    copies (messages ++ [msg]) = bump (copies messages) msg.msgid msg.userid := by
  ext msgid userid
  by_cases text : msgid = msg.msgid
  · subst text
    rw [bump_self]
    by_cases user : userid = msg.userid
    · subst user
      simp [copies]
    · rw [Function.update_of_ne user]
      simp [copies, Ne.symm user]
  · rw [bump, Function.update_of_ne text]
    simp [copies, Ne.symm text]

/-- A message that is ahead is one copy more. -/
theorem copies_cons (msg : Message) (messages : List Message) :
    copies (msg :: messages) = bump (copies messages) msg.msgid msg.userid := by
  rw [← copies_append]
  ext msgid userid
  exact (List.perm_append_singleton msg messages).symm.countP_eq _

theorem messagesOf_append (messages : List Message) (msg : Message) :
    messagesOf (messages ++ [msg]) = Function.update (messagesOf messages) msg.userid
      (messagesOf messages msg.userid ++ [msg]) := by
  ext1 userid
  by_cases user : userid = msg.userid
  · subst user
    simp [messagesOf]
  · rw [Function.update_of_ne user]
    simp [messagesOf, Ne.symm user]

theorem messagesOf_cons (msg : Message) (messages : List Message) :
    messagesOf (msg :: messages) = Function.update (messagesOf messages) msg.userid
      (msg :: messagesOf messages msg.userid) := by
  ext1 userid
  by_cases user : userid = msg.userid
  · subst user
    simp [messagesOf]
  · rw [Function.update_of_ne user]
    simp [messagesOf, Ne.symm user]

theorem messagesOf_eq_nil_iff {userid : Nat} :
    messagesOf messages userid = [] ↔ ∀ msg ∈ messages, msg.userid ≠ userid := by
  simp [messagesOf]

/-! ## The calls -/

inductive Call where
  | check (report : Report)
  | forbid (userid : Nat)

def step (scoring : Scoring) (maxMsgCount : Nat) (state : ChatCheck) : Call → ChatCheck
  | .check report => (state.checkMsg scoring maxMsgCount report).1
  | .forbid userid => state.doAfterForbid userid

/-- A new record is not put where one is in use. -/
def Allocates (state : ChatCheck) : Call → Prop
  | .check report => report.place ∉ state.msgCountMap.live
  | .forbid _ => True

/-- The text has no record on a list by time. -/
def Unlisted (state : ChatCheck) (msgid : Nat) : Prop :=
  ∀ entry ∈ find maxMsglv state.msgCountMap.metaMap msgid,
    OffList state.msgCountMap.links entry.2

/-- The messages that are kept when a new one comes. -/
def remaining (maxMsgCount : Nat) (state : ChatCheck) : List Message :=
  if state.msgCount ≥ maxMsgCount then state.msgListHead.tail else state.msgListHead

/-- There is a message to give up, and it is not the last one of its text. -/
def GivesUpClean (maxMsgCount : Nat) (state : ChatCheck) : Prop :=
  state.msgCount ≥ maxMsgCount → state.msgListHead ≠ [] ∧
    ∀ msg ∈ state.msgListHead.head?, ∃ other ∈ state.msgListHead.tail, other.msgid = msg.msgid

/-- A user without messages sends a text that has no record on a list. -/
def AddsClean (maxMsgCount : Nat) (state : ChatCheck) (report : Report) : Prop :=
  (∀ msg ∈ remaining maxMsgCount state, msg.userid ≠ report.userid) →
    (∃ msg ∈ remaining maxMsgCount state, msg.msgid = report.msgid) → Unlisted state report.msgid

/-- What a call needs so that it leaves the lists by time whole. -/
def Clean (maxMsgCount : Nat) (state : ChatCheck) : Call → Prop
  | .check report => report.length ≤ 6 ∨ report.msgid = 0 ∨ report.valid = true ∨
      GivesUpClean maxMsgCount state ∧ AddsClean maxMsgCount state report
  | .forbid _ => True

instance (state : ChatCheck) : ∀ call, Decidable (Allocates state call)
  | .check report => inferInstanceAs (Decidable (report.place ∉ state.msgCountMap.live))
  | .forbid _ => inferInstanceAs (Decidable True)

instance (state : ChatCheck) (msgid : Nat) : Decidable (Unlisted state msgid) :=
  inferInstanceAs (Decidable (∀ entry ∈ find maxMsglv state.msgCountMap.metaMap msgid, _))

instance (maxMsgCount : Nat) (state : ChatCheck) : Decidable (GivesUpClean maxMsgCount state) :=
  inferInstanceAs (Decidable (_ → _ ∧ ∀ msg ∈ state.msgListHead.head?, _))

instance (maxMsgCount : Nat) (state : ChatCheck) (report : Report) :
    Decidable (AddsClean maxMsgCount state report) :=
  inferInstanceAs (Decidable ((∀ msg ∈ remaining maxMsgCount state, _) → _ → _))

instance (maxMsgCount : Nat) (state : ChatCheck) : ∀ call, Decidable (Clean maxMsgCount state call)
  | .check _ => inferInstanceAs (Decidable (_ ∨ _ ∨ _ ∨ _ ∧ _))
  | .forbid _ => inferInstanceAs (Decidable True)

/-! ## The invariant -/

structure Kept (state : ChatCheck) : Prop where
  metas : MetaKept state.msgCountMap (copies state.msgListHead)
  users : UserKept state.msgUserMap (messagesOf state.msgListHead)
  counted : state.msgCount = state.msgListHead.length

theorem init_timed (links : Links TimeNode) (level : Addr → Nat) :
    Timed ((List.range maxMsglv).foldl (fun links level => links.initListHead (.head level)) links)
      level ∅ fun _ => [] where
  ring loop below := by
    have listed : ∀ levels : List Nat, loop ∈ levels → ∀ links : Links TimeNode,
        (levels.foldl (fun links level => links.initListHead (.head level)) links).Ring
          [.head loop] := by
      intro levels
      induction levels using List.reverseRecOn with
      | nil => exact fun member => absurd member List.not_mem_nil
      | append_singleton levels last ih =>
        intro member links
        rw [List.foldl_append]
        by_cases same : loop = last
        · subst same
          exact Links.ring_initListHead _ _
        · have earlier : loop ∈ levels := by simpa [same] using member
          refine (ih earlier links).initListHead fun mine => same ?_
          exact (TimeNode.head.inj (List.mem_singleton.mp mine)).symm
    exact listed _ (List.mem_range.mpr below) links
  nodup _ _ := List.nodup_nil
  inside _ _ _ member := absurd member List.not_mem_nil
  low _ member := absurd member (Finset.notMem_empty _)
  alone _ member := absurd member (Finset.notMem_empty _)

/-- Nothing is cached at the start. -/
theorem kept_init (metas : Addr → MetaMsg) (links : Links TimeNode) :
    Kept (ChatCheck.init metas links) where
  metas := {
    filed := filed_empty
    level found := absurd found (by simp [ChatCheck.init, find_empty])
    known found := absurd found (by simp [ChatCheck.init, find_empty])
    apart found := absurd found (by simp [ChatCheck.init, find_empty])
    counts found := absurd found (by simp [ChatCheck.init, find_empty])
    cached msgid := by simp [ChatCheck.init, find_empty, copies]
    timed := ⟨_, init_timed links _⟩ }
  users := {
    filed := filed_empty
    record found := absurd found (by simp [ChatCheck.init, find_empty])
    present userid := by simp [ChatCheck.init, find_empty, messagesOf] }
  counted := rfl

namespace Kept

variable {state : ChatCheck} {maxMsgCount : Nat}

/-- The state when the oldest message is given up, if it has to be. -/
theorem makeRoom (kept : Kept state) (clean : GivesUpClean maxMsgCount state) :
    Kept (state.makeRoom maxMsgCount) ∧
      (state.makeRoom maxMsgCount).msgListHead = remaining maxMsgCount state ∧
      ∃ metas, (state.makeRoom maxMsgCount).msgCountMap = { state.msgCountMap with metas } := by
  unfold ChatCheck.makeRoom
  by_cases full : state.msgCount ≥ maxMsgCount
  · have metas := kept.metas
    have users := kept.users
    have counted := kept.counted
    obtain ⟨nonempty, more⟩ := clean full
    simp only [if_pos full, remaining, ChatCheck.giveUp]
    cases listed : state.msgListHead with
    | nil => exact absurd listed nonempty
    | cons msg rest =>
      rw [listed] at metas users counted more
      rw [copies_cons] at metas
      rw [messagesOf_cons] at users
      obtain ⟨other, member, same⟩ := more msg rfl
      have another := copies_ne_zero member
      rw [same] at another
      obtain ⟨given, rest⟩ := metas.delUserMsg ⟨_, another⟩
      refine ⟨⟨given, users.giveUp, ?_⟩, rfl, rest⟩
      rw [counted, List.length_cons, Nat.add_sub_cancel]
  · simp only [if_neg full, remaining]
    exact ⟨kept, trivial, _, rfl⟩

/-- The record that the message is counted in is on no list if the text had none on a list. -/
theorem offList_getMeta {m : MsgMetaMap} {msg : Message} {place : Addr}
    (off : ∀ loop addr, find maxMsglv m.metaMap msg.msgid = some (loop, addr) → OffList m.links addr) :
    OffList (m.getMeta msg place).1.links (m.getMeta msg place).2 := by
  cases found : find maxMsglv m.metaMap msg.msgid with
  | none =>
    simp only [MsgMetaMap.getMeta, found]
    exact (Links.ring_initListHead m.links _).next_singleton
  | some entry =>
    obtain ⟨loop, addr⟩ := entry
    simp only [MsgMetaMap.getMeta, found]
    exact off loop addr found

/-- What the verdict on a message does to the records. -/
theorem judge {messages : List Message} {msg : Message} {m : MsgMetaMap} {addr : Addr}
    {loop : Nat} (scoring : Scoring) (metas : MetaKept m (copies (messages ++ [msg])))
    (users : UserKept state.msgUserMap (messagesOf messages))
    (listed : state.msgListHead = messages ++ [msg])
    (counted : state.msgCount = (messages ++ [msg]).length)
    (found : find maxMsglv m.metaMap msg.msgid = some (loop, addr))
    (off : messagesOf messages msg.userid = [] → OffList m.links addr) :
    Kept (state.judge scoring msg m addr).1 := by
  simp only [ChatCheck.judge]
  cases known : state.msgUserMap.getUserMsg msg.userid with
  | none =>
    have empty := users.getUserMsg_eq_none.mp known
    have below : ((m.metas addr).msglv + 1) / 2 < maxMsglv := by
      have low := metas.filed.below found
      rw [← metas.level found] at low
      omega
    have missing : find maxMsglv state.msgUserMap msg.userid = none := by
      simpa [MsgUserMap.getUserMsg] using known
    have nowhere : ∀ loop umsg, find maxMsglv state.msgUserMap msg.userid = some (loop, umsg) →
        loop = ((m.metas addr).msglv + 1) / 2 := by
      intro loop umsg there
      rw [missing] at there
      contradiction
    have added := users.addMsgToUserList below nowhere msg
    exact {
      metas := by
        rw [listed]
        exact (metas.praise found).addtoTimeList found (off empty)
      users := by
        rw [listed, messagesOf_append]
        exact added.1
      counted := by
        rw [listed]
        exact counted }
  | some umsg =>
    obtain ⟨there, record⟩ := users.getUserMsg_eq_some known
    have below := users.filed.below there
    have added := users.addMsgToUserList below
      (fun _ _ also => (Prod.mk.inj (Option.some.inj (also.symm.trans there))).1) msg
    rw [← messagesOf_append] at added
    have kept {m' : MsgMetaMap} {moved : MsgUserMap}
        (metas' : MetaKept m' (copies (messages ++ [msg])))
        (users' : UserKept moved (messagesOf (messages ++ [msg]))) :
        Kept { state with msgCountMap := m', msgUserMap := moved } := by
      refine ⟨?_, ?_, ?_⟩
      · rwa [listed]
      · rwa [listed]
      · rwa [listed]
    dsimp only
    rw [if_pos below, record]
    split
    · exact kept metas added.1
    · refine kept ?_ (added.1.tryChangeLevel added.2 _)
      split
      · exact (metas.praise found).update scoring found
      · exact (metas.blame found).update scoring found

/-- A message that is taken in keeps maps, counts and lists. -/
theorem takeMsg (kept : Kept state) (scoring : Scoring) {msg : Message} {place : Addr}
    (fresh : place ∉ state.msgCountMap.live) (clean : GivesUpClean maxMsgCount state)
    (adds : (∀ other ∈ remaining maxMsgCount state, other.userid ≠ msg.userid) →
      (∃ other ∈ remaining maxMsgCount state, other.msgid = msg.msgid) → Unlisted state msg.msgid) :
    Kept (state.takeMsg scoring maxMsgCount msg place).1 := by
  obtain ⟨room, listed, metas, same⟩ := kept.makeRoom clean
  have freshRoom : place ∉ (state.makeRoom maxMsgCount).msgCountMap.live := by
    rwa [same]
  have got : MetaKept ((state.makeRoom maxMsgCount).msgCountMap.getMeta msg place).1 _ ∧ _ :=
    room.metas.getMeta freshRoom
  obtain ⟨metas, loop, found⟩ := got
  rw [← copies_append] at metas
  refine judge scoring metas room.users rfl ?_ found fun empty => offList_getMeta ?_
  · show (state.makeRoom maxMsgCount).msgCount + 1 = _
    rw [List.length_append, room.counted]
    rfl
  · intro loop addr before
    have there : find maxMsglv (state.makeRoom maxMsgCount).msgCountMap.metaMap msg.msgid =
      some (loop, addr) := before
    show OffList (state.makeRoom maxMsgCount).msgCountMap.links addr
    have before : find maxMsglv state.msgCountMap.metaMap msg.msgid = some (loop, addr) := by
      rwa [same] at there
    rw [same]
    rw [messagesOf_eq_nil_iff, listed] at empty
    refine adds empty ?_ (loop, addr) before
    obtain ⟨userid, some'⟩ := (room.metas.cached msg.msgid).mp (by rw [there]; rfl)
    rw [← listed]
    exact exists_of_copies_ne_zero some'

/-- Every clean call keeps maps, counts and lists. -/
theorem step (kept : Kept state) (scoring : Scoring) {call : Call} (allocates : Allocates state call)
    (clean : Clean maxMsgCount state call) : Kept (step scoring maxMsgCount state call) := by
  cases call with
  | check report =>
    simp only [Chat.step, ChatCheck.checkMsg]
    split
    · exact kept
    split
    · exact kept
    split
    · exact kept
    rename_i long hashed invalid
    obtain short | zero | valid | ⟨gives, adds⟩ := clean
    · exact absurd short long
    · exact absurd zero hashed
    · exact absurd valid invalid
    · exact kept.takeMsg scoring allocates gives adds
  | forbid userid =>
    simp only [Chat.step, ChatCheck.doAfterForbid]
    split
    · exact kept
    · rename_i umsg known
      obtain ⟨there, -⟩ := kept.users.getUserMsg_eq_some known
      exact ⟨kept.metas, kept.users.tryChangeLevel there _, kept.counted⟩

end Kept

/-! ## The results -/

/-- The maps, the counts and the lists by time agree with the messages that are kept. -/
structure Sound (state : ChatCheck) : Prop where
  textLevel : ∀ msg ∈ state.msgListHead, ∃ level < maxMsglv, ∃ addr ∈ state.msgCountMap.live,
    state.msgCountMap.metaMap level msg.msgid = some addr ∧
      (state.msgCountMap.metas addr).msglv = level ∧
      ∀ other, other ≠ level → state.msgCountMap.metaMap other msg.msgid = none
  userLevel : ∀ msg ∈ state.msgListHead, ∃ level < maxMsglv, ∃ umsg,
    state.msgUserMap level msg.userid = some umsg ∧ umsg.userlv = level ∧
      ∀ other, other ≠ level → state.msgUserMap other msg.userid = none
  counts : ∀ msg ∈ state.msgListHead, ∀ level addr,
    state.msgCountMap.metaMap level msg.msgid = some addr →
    ∀ userid, ((state.msgCountMap.metas addr).userCntMap.lookup userid).getD 0 =
      copies state.msgListHead msg.msgid userid
  listed : ∀ level < maxMsglv, ∀ steps,
    state.msgCountMap.links.next^[steps] (.head level) = .head level ∨
      ∃ addr ∈ state.msgCountMap.live, (state.msgCountMap.metas addr).msglv = level ∧
        state.msgCountMap.links.next^[steps] (.head level) = .record addr

theorem Kept.sound {state : ChatCheck} (kept : Kept state) : Sound state where
  textLevel msg member := by
    have cached := (kept.metas.cached msg.msgid).mpr ⟨msg.userid, copies_ne_zero member⟩
    obtain ⟨⟨level, addr⟩, found⟩ := Option.isSome_iff_exists.mp cached
    have holds := kept.metas.filed msg.msgid
    rw [found] at holds
    cases holds with
    | filed below here only =>
      exact ⟨level, below, addr, kept.metas.known found, here, kept.metas.level found, only⟩
  userLevel msg member := by
    have some' : messagesOf state.msgListHead msg.userid ≠ [] := fun empty =>
      messagesOf_eq_nil_iff.mp empty msg member rfl
    obtain ⟨⟨level, umsg⟩, found⟩ :=
      Option.isSome_iff_exists.mp ((kept.users.present msg.userid).mpr some')
    have holds := kept.users.filed msg.userid
    rw [found] at holds
    cases holds with
    | filed below here only =>
      refine ⟨level, below, umsg, here, ?_, only⟩
      rw [kept.users.record found]
  counts msg member level addr here userid := by
    rw [kept.metas.counts (kept.metas.filed.find_eq_some.mpr here), getD_counted]
  listed level below steps := by
    obtain ⟨lists, timed⟩ := kept.metas.timed
    have member := (timed.ring level below).mem_iff_iterate.mpr ⟨steps, rfl⟩
    obtain same | member := List.mem_cons.mp member
    · exact .inl same
    · obtain ⟨addr, listed, same⟩ := List.mem_map.mp member
      obtain ⟨known, here⟩ := timed.inside level below addr listed
      exact .inr ⟨addr, known, here, same.symm⟩

/-- In a run that gives up no last copy of a text and lists no record twice, the maps, the counts
and the lists agree with the messages that are kept. -/
theorem check_sound {scoring : Scoring} {maxMsgCount : Nat} {metas : Addr → MetaMsg}
    {links : Links TimeNode} {state : ChatCheck} (run : Reaches (step scoring maxMsgCount)
      (fun state call => Allocates state call ∧ Clean maxMsgCount state call)
      (ChatCheck.init metas links) state) : Sound state := by
  have kept : Kept state := by
    apply run.invariant (kept_init metas links)
    rintro state call kept ⟨allocates, clean⟩
    exact kept.step scoring allocates clean
  exact kept.sound

/-- A run in which a copy of a listed text is given up, but not its last one. -/
theorem check_sound_two : Sound
    ([.check ⟨1, 10, 9, 7, false, 100⟩, .check ⟨1, 11, 9, 7, false, 200⟩, .forbid 1,
      .check ⟨1, 12, 9, 8, false, 200⟩, .check ⟨2, 13, 3, 7, false, 300⟩].foldl
      (step ⟨fun negative _ _ => negative, fun _ _ _ _ => 1⟩ 2)
      (ChatCheck.init (fun _ => ⟨0, 0, 0, 0, ∅⟩) ⟨fun _ => .null, fun _ => .null⟩)) :=
  check_sound (Reaches.refl.follow (by decide +kernel))

/-- One message is kept. The first message of a user puts its record on the list of level 0;
the second one frees that record, and the list still leads to it. -/
theorem freed_record_listed :
    ¬ ∀ (scoring : Scoring) (maxMsgCount : Nat) (metas : Addr → MetaMsg) (links : Links TimeNode)
      (state : ChatCheck),
      Reaches (step scoring maxMsgCount) Allocates (ChatCheck.init metas links) state →
      Sound state := by
  intro claim
  let scoring : Scoring := ⟨fun _ _ _ => 0, fun _ _ _ _ => 0⟩
  let start := ChatCheck.init (fun _ => ⟨0, 0, 0, 0, ∅⟩) ⟨fun _ => .null, fun _ => .null⟩
  let calls : List Call := [.check ⟨1, 10, 9, 7, false, 100⟩, .check ⟨1, 11, 9, 8, false, 200⟩]
  have follows : Follows (step scoring 1) Allocates start calls := by decide +kernel
  have sound : Sound (calls.foldl (step scoring 1) start) :=
    claim _ _ _ _ _ (Reaches.refl.follow follows)
  have linked : (calls.foldl (step scoring 1) start).msgCountMap.links.next (.head 0) =
      .record 100 := by decide +kernel
  have freed : 100 ∉ (calls.foldl (step scoring 1) start).msgCountMap.live := by decide +kernel
  generalize calls.foldl (step scoring 1) start = last at sound linked freed
  obtain same | ⟨addr, known, -, same⟩ := sound.listed 0 (by decide) 1
  · exact absurd (linked.symm.trans same) TimeNode.noConfusion
  · obtain rfl := TimeNode.record.inj (linked.symm.trans same)
    exact freed known

end Taomee.Chat
