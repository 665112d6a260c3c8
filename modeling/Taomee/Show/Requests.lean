import Taomee.Show.Ranking
import Taomee.Show.Server

/-!
# What a request does

As long as redis replies, a request that is refused leaves the process as it was, and one that is
accepted makes one change.
-/

namespace Taomee.Show

variable {ρ : Type} {env : Env ρ} {time user : Nat} {plan : Plan} {s after : Server ρ}
  {reply : Reply ρ}

/-- Periods are counted forward. -/
theorem getShowPeriod_mono {time later : Nat} (le : time ≤ later) :
    getShowPeriod time ≤ getShowPeriod later :=
  Nat.add_le_add_right (Nat.div_le_div_right (Nat.sub_le_sub_right le _)) 1

/-- The first period has the number 1. -/
theorem getShowPeriod_pos (time : Nat) : 0 < getShowPeriod time := Nat.succ_pos _

section Redis

/-- After a `sadd`. -/
def Server.added (s : Server ρ) (key : Key) (user : Nat) : Server ρ :=
  { s with redis := { s.redis with
    sets := Function.update s.redis.sets key (insert user (s.redis.sets key)) } }

variable {redis : Redis} {outcome : Outcome} {key : Key}

/-- What `SISMEMBER` answers while the server is up. -/
theorem sismember_eq (up : redis.context = .up) (replies : outcome ≠ .silent) :
    redis.sismember outcome key user =
      if outcome = .answered then some (.integer (if user ∈ redis.sets key then 1 else 0), redis)
      else some (.error, redis) := by
  obtain ⟨context, sets⟩ := redis
  obtain rfl : context = .up := up
  cases outcome with
  | answered => rfl
  | refused => rfl
  | silent => exact absurd rfl replies

/-- What `SADD` answers and stores while the server is up. -/
theorem sadd_eq (up : redis.context = .up) (replies : outcome ≠ .silent) :
    redis.sadd outcome key user =
      if outcome = .answered then
        some (.integer (if user ∈ redis.sets key then 0 else 1),
          { redis with sets := Function.update redis.sets key (insert user (redis.sets key)) })
      else some (.error, redis) := by
  obtain ⟨context, sets⟩ := redis
  obtain rfl : context = .up := up
  cases outcome with
  | answered => rfl
  | refused => rfl
  | silent => exact absurd rfl replies

/-- What `SREM` answers and stores while the server is up. -/
theorem srem_eq (up : redis.context = .up) : redis.srem .answered key user =
    some (.integer (if user ∈ redis.sets key then 1 else 0),
      { redis with sets := Function.update redis.sets key ((redis.sets key).erase user) }) := by
  obtain ⟨context, sets⟩ := redis
  obtain rfl : context = .up := up
  rfl

variable {next : Nat → Server ρ → Option (Reply ρ × Server ρ)}

/-- The handler goes on with the membership, or ends with a system error. -/
theorem checked_sismember (up : s.redis.context = .up) (replies : outcome ≠ .silent) :
    s.checked (s.redis.sismember outcome key user) next =
      if outcome = .answered then next (if user ∈ s.redis.sets key then 1 else 0) s
      else some (.error .systemErr, s) := by
  rw [sismember_eq up replies]
  split
  · rfl
  · rfl

/-- The handler goes on with the number added, or ends with a system error. -/
theorem checked_sadd (up : s.redis.context = .up) (replies : outcome ≠ .silent) :
    s.checked (s.redis.sadd outcome key user) next =
      if outcome = .answered then
        next (if user ∈ s.redis.sets key then 0 else 1) (s.added key user)
      else some (.error .systemErr, s) := by
  rw [sadd_eq up replies]
  split
  · rfl
  · rfl

end Redis

/-- A file is read as a board exactly when it is one. -/
theorem File.board?_eq_some {file : File ρ} {board : Board ρ} :
    file.board? = some board ↔ file = .board board := by
  cases file with
  | absent => simp [File.board?]
  | empty => simp [File.board?]
  | board content => simp [File.board?]

/-! ## Joining -/

/-- As long as everyone on the board has joined. -/
theorem processJoinShow_cases {showId : Nat} {record : Record ρ}
    (up : s.redis.context = .up) (first : plan.first ≠ .silent) (second : plan.second ≠ .silent)
    (listed : ∀ board, s.files s.curShowId = .board board → ∀ p < board.userNum,
      (board.records p).userId ∈ s.redis.sets (.joiner (getShowPeriod time)))
    (done : s.processJoinShow env time user plan showId record = some (reply, after)) :
    (∃ err, reply = .error err ∧ after = s) ∨
      reply = .joined showId ∧ getShowPeriod time = showId ∧
        ∃ board, s.files s.curShowId = .board board ∧
          after = { (s.added (.joiner showId) user).setFile s.curShowId
              (.board (board.enter s.topIndex record).1) with
            topIndex := (board.enter s.topIndex record).2 } := by
  have refused : ∀ err, (some (.error err, s) : Option (Reply ρ × Server ρ)) =
      some (reply, after) → ∃ err, reply = .error err ∧ after = s := fun err same => by
    cases same
    exact ⟨err, rfl, rfl⟩
  rw [Server.processJoinShow] at done
  split at done
  · exact .inl (refused _ done)
  split at done
  · exact .inl (refused _ done)
  split at done
  · exact .inl (refused _ done)
  rename_i same phase day
  rw [checked_sismember up first] at done
  split at done
  · by_cases absent : user ∈ s.redis.sets (.joiner (getShowPeriod time))
    · rw [if_pos absent, if_pos rfl] at done
      exact .inl (refused _ done)
    rw [if_neg absent, if_neg (by decide)] at done
    rw [checked_sadd up second] at done
    split at done
    · split at done
      · cases done
      · rename_i board found
        have file := File.board?_eq_some.mp found
        split at done
        · rename_i holds
          obtain ⟨p, used, own⟩ := holds
          exact absurd (own ▸ listed board file p used) absent
        · obtain rfl := not_not.mp same
          cases done
          exact .inr ⟨rfl, rfl, board, file, rfl⟩
    · exact .inl (refused _ done)
  · exact .inl (refused _ done)

/-! ## Voting -/

/-- A vote that is answered is refused without a trace, or counted once for this user. -/
theorem processVoteShow_cases {showId peerId : Nat} (up : s.redis.context = .up)
    (first : plan.first ≠ .silent) (second : plan.second = .answered)
    (third : plan.third = .answered)
    (done : s.processVoteShow env time user plan showId peerId = some (reply, after)) :
    (∃ err, reply = .error err ∧ after = s) ∨
      reply = .voted showId ∧ getShowPeriod time = showId ∧
        user ∉ s.redis.sets (.vote showId) ∧
        ∃ board idx, s.files s.curShowId = .board board ∧
          (board.find? fun record => record.userId = peerId) = some idx ∧
          after = ((s.countVote showId user board idx).added (.voteFor showId peerId) user).added
            (.vote showId) user := by
  have refused : ∀ err, (some (.error err, s) : Option (Reply ρ × Server ρ)) =
      some (reply, after) → ∃ err, reply = .error err ∧ after = s := fun err same => by
    cases same
    exact ⟨err, rfl, rfl⟩
  rw [Server.processVoteShow] at done
  split at done
  · exact .inl (refused _ done)
  split at done
  · exact .inl (refused _ done)
  rename_i same phase
  rw [checked_sismember up first] at done
  split at done
  · by_cases absent : user ∈ s.redis.sets (.vote (getShowPeriod time))
    · rw [if_pos absent, if_pos rfl] at done
      exact .inl (refused _ done)
    rw [if_neg absent, if_neg (by decide)] at done
    split at done
    · cases done
    · rename_i board found
      split at done
      · exact .inl (refused _ done)
      · rename_i idx there
        obtain rfl := not_not.mp same
        rw [checked_sadd (s := s.countVote _ user board idx) up (by rw [second]; decide),
          if_pos second,
          checked_sadd (s := (s.countVote _ user board idx).added _ user) up
            (by rw [third]; decide), if_pos third] at done
        cases done
        exact .inr ⟨rfl, rfl, absent, board, idx, File.board?_eq_some.mp found, there, rfl⟩
  · exact .inl (refused _ done)

/-! ## Entering -/

variable {lastShowId : Nat}

/-- Where a reward comes from. -/
inductive Gives (time user lastShowId : Nat) (s : Server ρ) : Server ρ → Prop where
  | nothing : Gives time user lastShowId s s
  | champion {showId idx : Nat} {board : Board ρ}
      (asked : s.lastTopStart time lastShowId = some showId)
      (file : s.files showId = .board board)
      (first : (board.find? fun record => record.isTop = 1) = some idx)
      (unknown : (board.records idx).isNotice = 0) :
      Gives time user lastShowId s ((s.setFile showId (.board (board.change idx fun record =>
        { record with isNotice := 1 }))).reward (.champion lastShowId))
  | voter {showId peerId : Nat} (asked : s.lastTopStart time lastShowId = some showId)
      (voted : user ∈ s.redis.sets (.voteFor lastShowId peerId)) :
      Gives time user lastShowId s ({ s with redis := { s.redis with
        sets := Function.update s.redis.sets (.voteFor lastShowId peerId)
          ((s.redis.sets (.voteFor lastShowId peerId)).erase user) } }.reward
            (.voter lastShowId user))

/-- A reward is given to the user once, and to no one else. -/
theorem gives_of_giveReward {given : Option (Nat × Reward × Nat)} (up : s.redis.context = .up)
    (second : plan.second ≠ .silent) (third : plan.third = .answered)
    (done : s.giveReward time user plan lastShowId = some (given, after)) :
    Gives time user lastShowId s after := by
  rw [Server.giveReward] at done
  split at done
  · cases done
    exact .nothing
  rename_i showId asked
  split at done
  · cases done
  rename_i board found
  have file := File.board?_eq_some.mp found
  split at done
  · cases done
    exact .nothing
  rename_i idx first
  split at done
  · split at done
    · rename_i unknown
      cases done
      exact .champion asked file first unknown
    · cases done
      exact .nothing
  · dsimp only at done
    rw [sismember_eq up second] at done
    by_cases answered : plan.second = .answered
    · rw [if_pos answered] at done
      dsimp only at done
      by_cases voted : user ∈ s.redis.sets (.voteFor lastShowId (board.records idx).userId)
      · rw [if_pos voted, if_pos rfl] at done
        rw [third, srem_eq up] at done
        cases done
        exact .voter asked voted
      · rw [if_neg voted, if_neg (by decide)] at done
        cases done
        exact .nothing
    · rw [if_neg answered] at done
      cases done
      exact .nothing

/-- A list of records is refused without a trace, or comes with what the reward changed. -/
theorem showRecords_cases {phase : Phase} {shown : Option Nat} {key : Key}
    (up : s.redis.context = .up) (first : plan.first ≠ .silent) (second : plan.second ≠ .silent)
    (third : plan.third = .answered)
    (done : s.showRecords time user plan phase shown key lastShowId = some (reply, after)) :
    (∃ err, reply = .error err ∧ after = s) ∨
      (∃ showId phase totalNum entries done given,
        reply = .entered showId phase totalNum entries done given) ∧
        Gives time user lastShowId s after := by
  rw [Server.showRecords] at done
  split at done
  · cases done
  · cases done
  · rw [checked_sismember up first] at done
    split at done
    · split at done
      · cases done
      · rename_i given next rewarded
        cases done
        exact .inr ⟨⟨_, _, _, _, _, _, rfl⟩, gives_of_giveReward up second third rewarded⟩
    · cases done
      exact .inl ⟨_, rfl, rfl⟩

end Taomee.Show
