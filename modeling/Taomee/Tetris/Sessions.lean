import Taomee.Tetris.Game

/-!
# Session numbers

Every message carries the number after the one of the sender's message before. The server keeps
the last number of each player in a slot, which a player's first message takes.
-/

namespace Taomee.Tetris

open Runs

/-- The session number of the sprite's last message that passed. -/
def previous (uid : UInt32) : List Received → Option UInt32
  | [] => none
  | message :: older =>
    if message.sender = uid ∧ message.passed = true then sessionOf message.body
    else previous uid older

/-- A first message passes, and a later one exactly if it carries the next number. -/
structure InTurn (message : Received) (older : List Received) : Prop where
  first : previous message.sender older = none → message.passed = true
  later : ∀ session, previous message.sender older = some session →
    (message.passed = true ↔ sessionOf message.body = some (session + 1))

/-- Every message that is checked was let pass in its turn only, and then always. -/
def InOrder : List Received → Prop
  | [] => True
  | message :: older => (Checked message.cmd → InTurn message older) ∧ InOrder older

/-- The number in the sprite's slot. -/
def slotOf (uid : UInt32) : List UserSession → Option UInt32
  | [] => none
  | slot :: rest => if slot.userId = uid then some slot.sessionId else slotOf uid rest

/-- The sender of a message has a slot exactly if no slot is free, and a message of a sender
without one carries a session number. -/
def Orderly (group : Group) (table : Table) : Event → Prop
  | .message uid cmd body =>
    table.ended = false → uid ∈ group.sprites → Checked cmd →
      ((∃ slot ∈ table.game.gameSessions, slot.userId = 0) ↔
        ∀ slot ∈ table.game.gameSessions, slot.userId ≠ uid) ∧
      ((∀ slot ∈ table.game.gameSessions, slot.userId ≠ uid) → 4 ≤ body.length)
  | .leave _ | .timeout | .expire => True

instance (group : Group) (table : Table) : ∀ event, Decidable (Orderly group table event)
  | .message uid cmd body =>
    inferInstanceAs (Decidable (table.ended = false → uid ∈ group.sprites → Checked cmd →
      ((∃ slot ∈ table.game.gameSessions, slot.userId = 0) ↔
        ∀ slot ∈ table.game.gameSessions, slot.userId ≠ uid) ∧
      ((∀ slot ∈ table.game.gameSessions, slot.userId ≠ uid) → 4 ≤ body.length)))
  | .leave _ | .timeout | .expire => inferInstanceAs (Decidable True)

section Slots

variable {uid other session : UInt32} {slots after : List UserSession}

theorem sessionOf_isSome_iff {body : List UInt8} :
    (sessionOf body).isSome = true ↔ 4 ≤ body.length := by
  obtain _ | ⟨b₀, _ | ⟨b₁, _ | ⟨b₂, _ | ⟨b₃, rest⟩⟩⟩⟩ := body <;> simp [sessionOf]

/-- A user has no slot when none carries its id. -/
theorem slotOf_eq_none_iff : slotOf uid slots = none ↔ ∀ slot ∈ slots, slot.userId ≠ uid := by
  induction slots with
  | nil => simp [slotOf]
  | cons slot rest ih =>
    by_cases own : slot.userId = uid
    · simp [slotOf, own]
    · simp [slotOf, own, ih]

/-- No slot is free when every one carries an id. -/
theorem takeSlot_eq_none_iff :
    takeSlot uid session slots = none ↔ ∀ slot ∈ slots, slot.userId ≠ 0 := by
  induction slots with
  | nil => simp [takeSlot]
  | cons slot rest ih =>
    by_cases free : slot.userId = 0
    · simp [takeSlot, free]
    · simp [takeSlot, free, ih]

/-- The slot taken is the user's. -/
theorem slotOf_takeSlot_self (taken : takeSlot uid session slots = some after)
    (unowned : ∀ slot ∈ slots, slot.userId ≠ uid) : slotOf uid after = some session := by
  induction slots generalizing after with
  | nil => cases taken
  | cons slot rest ih =>
    rw [takeSlot] at taken
    split at taken
    · cases taken
      simp [slotOf]
    · obtain ⟨tail, later, rfl⟩ := Option.map_eq_some_iff.mp taken
      rw [slotOf, if_neg (unowned slot List.mem_cons_self)]
      exact ih later fun slot there => unowned slot (List.mem_cons_of_mem _ there)

/-- The slots of others stay. -/
theorem slotOf_takeSlot_of_ne (taken : takeSlot uid session slots = some after)
    (apart : other ≠ uid) (nonzero : other ≠ 0) : slotOf other after = slotOf other slots := by
  induction slots generalizing after with
  | nil => cases taken
  | cons slot rest ih =>
    rw [takeSlot] at taken
    split at taken
    · rename_i free
      cases taken
      rw [slotOf, slotOf, if_neg apart.symm, if_neg (free ▸ nonzero.symm)]
    · obtain ⟨tail, later, rfl⟩ := Option.map_eq_some_iff.mp taken
      rw [slotOf, slotOf, ih later]

/-- The next session is the last one plus one. -/
theorem nextSession_isSome_iff {last : UInt32} (own : slotOf uid slots = some last) :
    (nextSession uid session slots).isSome = true ↔ session = last + 1 := by
  induction slots with
  | nil => cases own
  | cons slot rest ih =>
    rw [slotOf] at own
    rw [nextSession]
    split at own
    · rename_i same
      cases own
      rw [if_pos same]
      split
      · rename_i next
        simp [next]
      · rename_i wrong
        simp only [Option.isSome_none, Bool.false_eq_true, false_iff]
        rintro rfl
        simp at wrong
    · rename_i apart
      rw [if_neg apart, Option.isSome_map]
      exact ih own

theorem slotOf_nextSession_self (next : nextSession uid session slots = some after) :
    slotOf uid after = some session := by
  induction slots generalizing after with
  | nil => cases next
  | cons slot rest ih =>
    rw [nextSession] at next
    split at next
    · split at next
      · rename_i last
        cases next
        simp [slotOf, last]
      · cases next
    · rename_i apart
      obtain ⟨tail, later, rfl⟩ := Option.map_eq_some_iff.mp next
      rw [slotOf, if_neg apart]
      exact ih later

/-- The sessions of others stay. -/
theorem slotOf_nextSession_of_ne (next : nextSession uid session slots = some after)
    (apart : other ≠ uid) : slotOf other after = slotOf other slots := by
  induction slots generalizing after with
  | nil => cases next
  | cons slot rest ih =>
    rw [nextSession] at next
    split at next
    · rename_i same
      split at next
      · cases next
        rw [slotOf, slotOf, if_neg apart.symm, if_neg (same ▸ apart.symm)]
      · cases next
    · obtain ⟨tail, later, rfl⟩ := Option.map_eq_some_iff.mp next
      rw [slotOf, slotOf, ih later]

end Slots

section Check

variable {group : Group} {game after : Game} {uid other : UInt32} {body : List UInt8}

theorem sprite_ne_zero (sprite : uid ∈ group.sprites) : uid ≠ 0 := by
  rintro rfl
  exact group.nonzero sprite

/-- While a slot is free, any session number of a sprite without a slot passes. -/
theorem checkPlayerSession_first
    (free : ∃ slot ∈ game.gameSessions, slot.userId = 0) (long : 4 ≤ body.length) :
    (checkPlayerSession game uid body).isSome = true := by
  obtain ⟨session, number⟩ := Option.isSome_iff_exists.mp (sessionOf_isSome_iff.mpr long)
  rw [checkPlayerSession, number]
  cases taken : takeSlot uid session game.gameSessions with
  | none =>
    obtain ⟨slot, there, unused⟩ := free
    exact absurd unused (takeSlot_eq_none_iff.mp taken slot there)
  | some slots => simp [taken]

/-- When all slots are taken, only the next number passes. -/
theorem checkPlayerSession_later {last : UInt32}
    (taken : ∀ slot ∈ game.gameSessions, slot.userId ≠ 0)
    (own : slotOf uid game.gameSessions = some last) :
    (checkPlayerSession game uid body).isSome = true ↔ sessionOf body = some (last + 1) := by
  rw [checkPlayerSession]
  cases number : sessionOf body with
  | none => simp
  | some session =>
    simp only [takeSlot_eq_none_iff.mpr taken, Option.isSome_map, nextSession_isSome_iff own,
      Option.some.injEq]

/-- The number that has passed is kept in the sender's slot. -/
theorem slotOf_checkPlayerSession (turn : (∃ slot ∈ game.gameSessions, slot.userId = 0) →
      ∀ slot ∈ game.gameSessions, slot.userId ≠ uid)
    (passed : checkPlayerSession game uid body = some after) (nonzero : other ≠ 0) :
    slotOf other after.gameSessions =
      if uid = other then sessionOf body else slotOf other game.gameSessions := by
  rw [checkPlayerSession] at passed
  cases number : sessionOf body with
  | none =>
    rw [number] at passed
    cases passed
  | some session =>
    simp only [number] at passed
    cases taken : takeSlot uid session game.gameSessions with
    | none =>
      rw [taken] at passed
      obtain ⟨slots, next, rfl⟩ := Option.map_eq_some_iff.mp passed
      split
      · rename_i same
        subst same
        exact slotOf_nextSession_self next
      · rename_i apart
        exact slotOf_nextSession_of_ne next (Ne.symm apart)
    | some slots =>
      rw [taken] at passed
      cases passed
      split
      · rename_i same
        subst same
        refine slotOf_takeSlot_self taken (turn ?_)
        by_contra full
        rw [takeSlot_eq_none_iff.mpr fun slot there unused => full ⟨slot, there, unused⟩] at taken
        cases taken
      · rename_i apart
        exact slotOf_takeSlot_of_ne taken (Ne.symm apart) nonzero

end Check

/-- The slots hold the last numbers that passed. -/
structure Recorded (group : Group) (table : Table) : Prop where
  slots : ∀ uid ∈ group.sprites,
    previous uid table.received = slotOf uid table.game.gameSessions
  inOrder : InOrder table.received

namespace Recorded

variable {group : Group} {table after : Table}

/-- No message has come at the start. -/
theorem init (group : Group) : Recorded group (.init group) := by
  refine ⟨fun uid sprite => ?_, trivial⟩
  refine (slotOf_eq_none_iff.mpr fun slot there => ?_).symm
  rw [List.eq_of_mem_replicate there]
  exact (sprite_ne_zero sprite).symm

theorem keeps (recorded : Recorded group table) (received : after.received = table.received)
    (sessions : after.game.gameSessions = table.game.gameSessions) : Recorded group after := by
  obtain ⟨slots, inOrder⟩ := recorded
  exact ⟨fun uid sprite => by rw [received, sessions, slots uid sprite], received ▸ inOrder⟩

theorem leaveGameCmd (recorded : Recorded group table) (uid : UInt32) :
    Recorded group (table.leaveGameCmd group uid) :=
  recorded.keeps rfl (handleData_of_not_checked _ _ _ _ (by decide)).1.gameSessions

/-- A message in an orderly run is let pass in its turn. -/
theorem settle (recorded : Recorded group table) {uid : UInt32} {cmd : Nat} {body : List UInt8}
    (sprite : uid ∈ group.sprites) (running : table.ended = false)
    (orderly : Orderly group table (.message uid cmd body)) :
    Recorded group ((table.receive uid cmd body).settle
      (handleData group table.game uid body cmd)) := by
  obtain ⟨slots, inOrder⟩ := recorded
  by_cases checked : Checked cmd
  · obtain ⟨turn, long⟩ := orderly running sprite checked
    have inTurn : InTurn ⟨uid, cmd, body, decide (Checked cmd) &&
        (checkPlayerSession table.game uid body).isSome⟩ table.received := by
      constructor
      · intro first
        have unowned := slotOf_eq_none_iff.mp ((slots uid sprite).symm.trans first)
        simp [checked, checkPlayerSession_first (turn.mpr unowned) (long unowned)]
      · intro last own
        have slot := (slots uid sprite).symm.trans own
        have taken : ∀ slot ∈ table.game.gameSessions, slot.userId ≠ 0 := by
          intro free there unused
          rw [slotOf_eq_none_iff.mpr (turn.mp ⟨free, there, unused⟩)] at slot
          cases slot
        simp [checked, checkPlayerSession_later taken slot]
    refine ⟨fun other here => ?_, fun _ => inTurn, inOrder⟩
    cases passed : checkPlayerSession table.game uid body with
    | none =>
      simp only [Table.settle, Table.receive, handleData_of_not_passed checked passed, passed,
        previous, Option.isSome_none, Bool.and_false, Bool.false_eq_true, and_false]
      exact slots other here
    | some next =>
      have kept : (handleData group table.game uid body cmd).game.gameSessions =
          next.gameSessions := by
        by_cases newBout : cmd = gameNewBout
        · subst newBout
          have handled : handleData group table.game uid body gameNewBout =
              tetrisNewBout group table.game uid body := rfl
          rw [handled, tetrisNewBout, passed]
          dsimp only
          split
          · rfl
          · split <;> rfl
        · exact (handleData_of_passed _ checked newBout passed).1.gameSessions
      simp only [Table.settle, Table.receive, kept, passed, previous, checked, decide_true,
        Option.isSome_some, Bool.and_self, and_true]
      rw [slotOf_checkPlayerSession turn.mp passed (sprite_ne_zero here), slots other here]
  · refine ⟨fun other here => ?_, fun checks => absurd checks checked, inOrder⟩
    simp only [Table.settle, Table.receive, previous, checked, decide_false, Bool.false_and,
      Bool.false_eq_true, and_false]
    rw [(handleData_of_not_checked _ _ _ _ checked).1.gameSessions]
    exact slots other here

/-- Every orderly event is recorded. -/
theorem step (recorded : Recorded group table) {event : Event}
    (orderly : Orderly group table event) : Recorded group (table.step group event) := by
  by_cases ended : table.ended = true
  · rw [Table.step.eq_def, if_pos ended]
    exact recorded
  · rw [Table.step.eq_def, if_neg ended]
    have running := Bool.not_eq_true _ |>.mp ended
    cases event with
    | message uid cmd body =>
      dsimp only
      split
      · rename_i seen
        rw [Table.dispatchProtocol]
        have settled := recorded.settle seen.1 running orderly
        split
        · exact settled.leaveGameCmd uid
        · exact settled
      · exact recorded
    | leave uid =>
      dsimp only
      split
      · exact recorded.leaveGameCmd uid
      · exact recorded
    | timeout => exact recorded.keeps rfl handleTimeout_keeps.gameSessions
    | expire => exact recorded.keeps rfl rfl

end Recorded

/-- In a run where no sprite speaks again while a slot is free, and none begins after that, every
message passes exactly if it is its sender's first or carries the next number. -/
theorem sessions_in_order_of_orderly {group : Group} {table : Table}
    (run : Reaches (Table.step group) (Orderly group) (.init group) table) :
    InOrder table.received := by
  have recorded : Recorded group table := by
    apply run.invariant
    · exact .init group
    · exact fun before orderly => before.step orderly
  exact recorded.inOrder

/-- Two players start, and one of them goes on. -/
theorem sessions_in_order_of_orderly_pair :
    InOrder (List.foldl (Table.step pair) (.init pair)
      [.message 100001 gameNewBout [0, 0, 0, 7], .message 100002 gameNewBout [0, 0, 0, 3],
        .message 100001 transData [0, 0, 0, 8, 0, 0, 0, 1, 5]]).received :=
  sessions_in_order_of_orderly (Reaches.refl.follow (by decide +kernel))

/-- A player that asks for the bout twice takes both slots, with any number, and the other player
is refused. -/
theorem second_message_takes_slot : ∃ table,
    Reaches (Table.step pair) (fun _ _ => True) (.init pair) table ∧
      ¬ InOrder table.received := by
  refine ⟨List.foldl (Table.step pair) (.init pair)
    [.message 100001 gameNewBout [0, 0, 0, 7],
      .message 100001 transData [0, 0, 0, 42, 0, 0, 0, 1],
      .message 100002 gameNewBout [0, 0, 0, 3]], Reaches.of_list fun _ _ _ => trivial, ?_⟩
  intro inOrder
  have received : (List.foldl (Table.step pair) (.init pair)
    [.message 100001 gameNewBout [0, 0, 0, 7],
      .message 100001 transData [0, 0, 0, 42, 0, 0, 0, 1],
      .message 100002 gameNewBout [0, 0, 0, 3]]).received =
    [⟨100002, gameNewBout, [0, 0, 0, 3], false⟩,
      ⟨100001, transData, [0, 0, 0, 42, 0, 0, 0, 1], true⟩,
      ⟨100001, gameNewBout, [0, 0, 0, 7], true⟩] := by decide +kernel
  rw [received] at inOrder
  exact absurd ((inOrder.1 (.inl rfl)).first (by decide)) (by decide)

end Taomee.Tetris
