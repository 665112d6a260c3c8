import Taomee.Library.Runs
import Taomee.Show.Requests

/-!
# The accounts of the shows

Votes and rewards are counted once if the process has the files of the current show when someone
joins or votes, and no command fails between the two sets of a vote.
-/

namespace Taomee.Show

open Runs

variable {ρ : Type}

/-- The process and the clock. Nothing is served after the process has failed. -/
structure World (ρ : Type) where
  clock : Nat
  down : Bool
  server : Server ρ

inductive Input (ρ : Type) where
  | wait (seconds : Nat)
  | request (user : Nat) (plan : Plan) (request : Request ρ)

namespace World

variable (env : Env ρ)

def step (w : World ρ) : Input ρ → World ρ
  | .wait seconds => { w with clock := w.clock + seconds }
  | .request user plan request =>
    if w.down then w
    else
      match w.server.process env w.clock user plan request with
      | none => { w with down := true }
      | some (_, server) => { w with server }

/-- The process starts, so long after the first show has begun. -/
def init (elapsed : Nat) (topIndex : Nat → Nat) : World ρ :=
  let clock := showBeginTimestamp + elapsed
  let server : Server ρ := ⟨fun _ => .absent, ⟨.up, fun _ => ∅⟩, 0, none, topIndex, [], []⟩
  ⟨clock, false, server.initShowFile env clock⟩

/-- Every command is replied to. Who joins gives his own number and finds the files of the show
open, and so does who votes, whose votes redis takes. Who enters while there is voting does not ask
for the last show before its files are open, and a vote that is rewarded is removed. -/
def Suits (time user : Nat) (plan : Plan) (s : Server ρ) : Request ρ → Prop
  | .malformed => True
  | .join _ record => s.curShowId = getShowPeriod time ∧ record.userId = user
  | .vote _ _ =>
    s.curShowId = getShowPeriod time ∧ plan.second = .answered ∧ plan.third = .answered
  | .enter lastShowId => plan.third = .answered ∧
    (env.getPhaseOfShow time = .vote → lastShowId + 1 = getShowPeriod time →
      s.curShowId = getShowPeriod time)
  | .history _ => True

def Fits (w : World ρ) : Input ρ → Prop
  | .wait _ => True
  | .request user plan request =>
    (plan.first ≠ .silent ∧ plan.second ≠ .silent ∧ plan.third ≠ .silent) ∧
      Suits env w.clock user plan w.server request

end World

section

variable {env : Env ρ} {time user : Nat} {plan : Plan} {s after : Server ρ} {reply : Reply ρ}
  {lastShowId : Nat}

/-! ## The boards -/

section Change

variable {board : Board ρ} {position p : Nat} {f : Record ρ → Record ρ}

theorem records_change_self :
    (board.change position f).records position = f (board.records position) :=
  Function.update_self ..

theorem records_change_of_ne (apart : p ≠ position) :
    (board.change position f).records p = board.records p := Function.update_of_ne apart ..

/-- A change that keeps what is searched for keeps what is found. -/
theorem find?_change {is : Record ρ → Bool} (same : ∀ record, is (f record) = is record) :
    (board.change position f).find? is = board.find? is := by
  have pointwise : ∀ p, is ((board.change position f).records p) = is (board.records p) := by
    intro p
    obtain rfl | apart := eq_or_ne p position
    · rw [records_change_self, same]
    · rw [records_change_of_ne apart]
  exact congrArg (fun is' => (List.range board.userNum).find? is') (funext pointwise)

/-- A change of votes keeps the users. -/
theorem userId_change (same : ∀ record, (f record).userId = record.userId) (p : Nat) :
    ((board.change position f).records p).userId = (board.records p).userId := by
  obtain rfl | apart := eq_or_ne p position
  · rw [records_change_self, same]
  · rw [records_change_of_ne apart]

end Change

/-! ## Opening files -/

/-- The process maps the files of the current show, and makes those that do not exist. -/
structure Opens (time : Nat) (s after : Server ρ) : Prop where
  files : ∀ showId, after.files showId = s.files showId ∨
    showId ≤ getShowPeriod time ∧ (∀ board, s.files showId ≠ .board board) ∧
      ∀ board, after.files showId = .board board → board.userNum = 0
  redis : after.redis = s.redis
  counted : after.counted = s.counted
  rewards : after.rewards = s.rewards
  current : after.curShowId = getShowPeriod time
  last : ∀ showId, after.lastTop = some showId → showId + 1 = after.curShowId

/-- A board that is open stays open. -/
theorem Opens.board (opens : Opens time s after) {showId : Nat} {board : Board ρ}
    (file : s.files showId = .board board) : after.files showId = .board board := by
  obtain same | ⟨-, none, -⟩ := opens.files showId
  · exact same.trans file
  · exact absurd file (none board)

theorem Opens.trans {next : Server ρ} (opens : Opens time s after)
    (onward : Opens time after next) : Opens time s next where
  files showId := by
    obtain same | ⟨early, none, fresh⟩ := onward.files showId
    · obtain same' | ⟨early, none, fresh⟩ := opens.files showId
      · exact .inl (same.trans same')
      · exact .inr ⟨early, none, fun board file => fresh board (same ▸ file)⟩
    · exact .inr ⟨early, fun board file => none board (opens.board file), fresh⟩
  redis := onward.redis.trans opens.redis
  counted := onward.counted.trans opens.counted
  rewards := onward.rewards.trans opens.rewards
  current := onward.current
  last := onward.last

/-- Opening the current file. -/
theorem opens_openCurrent (current : s.curShowId = getShowPeriod time)
    (last : ∀ showId, s.lastTop = some showId → showId + 1 = s.curShowId) :
    Opens time s (s.openCurrent env (getShowPeriod time)) := by
  rw [Server.openCurrent]
  split
  · exact ⟨fun _ => .inl rfl, rfl, rfl, rfl, current, last⟩
  · rename_i none
    refine ⟨fun showId => ?_, rfl, rfl, rfl, current, last⟩
    obtain rfl | apart := eq_or_ne showId (getShowPeriod time)
    · refine .inr ⟨Nat.le_refl _, none, fun board file => ?_⟩
      cases (Function.update_self ..).symm.trans file
      rfl
    · exact .inl (Function.update_of_ne apart ..)

/-- Opening the file of the last period. -/
theorem opens_openLast {file : Nat} (early : file ≤ getShowPeriod time)
    (current : s.curShowId = getShowPeriod time)
    (last : ∀ showId, s.lastTop = some showId → showId + 1 = s.curShowId) :
    Opens time s (s.openLast file) := by
  rw [Server.openLast]
  split
  · rename_i absent
    refine ⟨fun showId => ?_, rfl, rfl, rfl, current, last⟩
    obtain rfl | apart := eq_or_ne showId file
    · refine .inr ⟨early, fun board file => ?_, fun board file => ?_⟩
      · cases absent.symm.trans file
      · cases (Function.update_self ..).symm.trans file
    · exact .inl (Function.update_of_ne apart ..)
  · exact ⟨fun _ => .inl rfl, rfl, rfl, rfl, current, last⟩

/-- Opening the files at the start. -/
theorem opens_initShowFile : Opens time s (s.initShowFile env time) := by
  rw [Server.initShowFile]
  have current : Opens time s ({ s with
      curShowId := getShowPeriod time, lastTop := none }.openCurrent env
        (getShowPeriod time)) := by
    let s' := { s with curShowId := getShowPeriod time, lastTop := none }
    have opened : Opens time s' (s'.openCurrent env (getShowPeriod time)) :=
      opens_openCurrent rfl fun showId none => by cases none
    exact ⟨opened.files, opened.redis, opened.counted, opened.rewards, opened.current, opened.last⟩
  split
  · rename_i later
    have last := current.trans (opens_openLast (Nat.sub_le _ 1) current.current current.last)
    refine ⟨last.files, last.redis, last.counted, last.rewards, last.current, ?_⟩
    rintro showId ⟨⟩
    rw [last.current]
    exact Nat.sub_add_cancel (Nat.le_of_lt later)
  · exact current

/-- From the second period on there is a last one. -/
theorem isSome_lastTop_initShowFile (later : getShowPeriod time > 1) :
    (s.initShowFile env time).lastTop.isSome = true := by
  rw [Server.initShowFile, if_pos later, Option.isSome_some]

/-- Once the files are open they stay. -/
theorem openFiles_eq (current : s.curShowId = getShowPeriod time)
    (last : getShowPeriod time > 1 → s.lastTop.isSome = true) : s.openFiles env time = s := by
  rw [Server.openFiles, if_neg (not_not.mpr current), if_neg]
  rintro ⟨none, later⟩
  rw [Option.isNone_iff_eq_none.mp none] at last
  cases last later

/-- Opening the files, and that opening them again changes nothing. -/
theorem opens_openFiles (last : ∀ showId, s.lastTop = some showId → showId + 1 = s.curShowId) :
    Opens time s (s.openFiles env time) ∧ (s.openFiles env time).openFiles env time =
      s.openFiles env time := by
  by_cases current : s.curShowId = getShowPeriod time
  · have same : Opens time s s := ⟨fun _ => .inl rfl, rfl, rfl, rfl, current, last⟩
    by_cases missing : s.lastTop.isNone ∧ getShowPeriod time > 1
    · cases file : s.files (getShowPeriod time - 1) with
      | absent =>
        have unchanged : s.openFiles env time = s := by
          rw [Server.openFiles, if_neg (not_not.mpr current), if_pos missing, file]
        rw [unchanged]
        exact ⟨same, unchanged⟩
      | _ =>
        have mapped : s.openFiles env time =
            { s with lastTop := some (getShowPeriod time - 1) } := by
          rw [Server.openFiles, if_neg (not_not.mpr current), if_pos missing, file]
        rw [mapped]
        refine ⟨⟨same.files, rfl, rfl, rfl, current, ?_⟩, openFiles_eq current fun _ => rfl⟩
        rintro showId ⟨⟩
        exact (Nat.sub_add_cancel (Nat.le_of_lt missing.2)).trans current.symm
    · have unchanged : s.openFiles env time = s := by
        rw [Server.openFiles, if_neg (not_not.mpr current), if_neg missing]
      rw [unchanged]
      exact ⟨same, unchanged⟩
  · have opened : Opens time s (s.initShowFile env time) := opens_initShowFile
    have mapped : s.openFiles env time = s.initShowFile env time := by
      rw [Server.openFiles, if_pos current, if_neg]
      rintro ⟨none, later⟩
      have some := @isSome_lastTop_initShowFile ρ env time s later
      rw [Option.isNone_iff_eq_none.mp none] at some
      cases some
    rw [mapped]
    exact ⟨opened, openFiles_eq opened.current isSome_lastTop_initShowFile⟩

/-! ## What is kept -/

/-- What the files, redis and the history have to do with each other. -/
structure Kept (time : Nat) (s : Server ρ) : Prop where
  current : s.curShowId ≤ getShowPeriod time
  last : ∀ showId, s.lastTop = some showId → showId + 1 = s.curShowId
  known : ∀ showId, getShowPeriod time < showId → s.files showId = .absent
  up : s.redis.context = .up
  joined : ∀ showId board, s.files showId = .board board → ∀ p < board.userNum,
    (board.records p).userId ∈ s.redis.sets (.joiner showId)
  countedOnce : s.counted.Nodup
  voted : ∀ showId user, (showId, user) ∈ s.counted → user ∈ s.redis.sets (.vote showId)
  backed : ∀ showId peerId, s.redis.sets (.voteFor showId peerId) ⊆ s.redis.sets (.vote showId)
  single : ∀ showId peerId peerId' user, user ∈ s.redis.sets (.voteFor showId peerId) →
    user ∈ s.redis.sets (.voteFor showId peerId') → peerId = peerId'
  rewardedOnce : s.rewards.Nodup
  champion : ∀ showId, .champion showId ∈ s.rewards → showId < getShowPeriod time ∧
    ∃ board idx, s.files showId = .board board ∧
      (board.find? fun record => record.isTop = 1) = some idx ∧ (board.records idx).isNotice ≠ 0
  voter : ∀ showId user, .voter showId user ∈ s.rewards → showId < getShowPeriod time ∧
    ∀ peerId, user ∉ s.redis.sets (.voteFor showId peerId)

namespace Kept

/-- Time goes on. -/
theorem later (kept : Kept time s) {later : Nat} (le : time ≤ later) : Kept later s := by
  have shows := getShowPeriod_mono le
  refine { kept with current := ?_, known := ?_, champion := ?_, voter := ?_ }
  · exact kept.current.trans shows
  · exact fun showId after => kept.known showId (Nat.lt_of_le_of_lt shows after)
  · intro showId member
    obtain ⟨before, rest⟩ := kept.champion showId member
    exact ⟨Nat.lt_of_lt_of_le before shows, rest⟩
  · intro showId user member
    obtain ⟨before, rest⟩ := kept.voter showId user member
    exact ⟨Nat.lt_of_lt_of_le before shows, rest⟩

/-- Opening files keeps the accounts. -/
theorem opens (kept : Kept time s) (opens : Opens time s after) : Kept time after where
  current := Nat.le_of_eq opens.current
  last := opens.last
  known showId later := by
    obtain same | ⟨early, -, -⟩ := opens.files showId
    · exact same.trans (kept.known showId later)
    · omega
  up := opens.redis ▸ kept.up
  joined showId board file p used := by
    rw [opens.redis]
    obtain same | ⟨-, -, fresh⟩ := opens.files showId
    · exact kept.joined showId board (same.symm.trans file) p used
    · have none := fresh board file
      omega
  countedOnce := opens.counted ▸ kept.countedOnce
  voted showId user member := opens.redis ▸ kept.voted showId user (opens.counted ▸ member)
  backed := opens.redis ▸ kept.backed
  single := opens.redis ▸ kept.single
  rewardedOnce := opens.rewards ▸ kept.rewardedOnce
  champion showId member := by
    obtain ⟨before, board, idx, file, rest⟩ := kept.champion showId (opens.rewards ▸ member)
    exact ⟨before, board, idx, opens.board file, rest⟩
  voter showId user member := by
    rw [opens.redis]
    exact kept.voter showId user (opens.rewards ▸ member)

section Sets

variable {key other : Key} {showId peerId userId : Nat}

/-- A member is added to one set. -/
theorem sets_added_of_ne (apart : other ≠ key) :
    (s.added key user).redis.sets other = s.redis.sets other := Function.update_of_ne apart ..

/-- The members afterwards. -/
theorem mem_sets_added : userId ∈ (s.added key user).redis.sets other ↔
    (other = key ∧ userId = user) ∨ userId ∈ s.redis.sets other := by
  obtain rfl | apart := eq_or_ne other key
  · have same : (s.added other user).redis.sets other =
        insert user (s.redis.sets other) := Function.update_self ..
    rw [same, Finset.mem_insert]
    simp
  · rw [sets_added_of_ne apart]
    simp [apart]

end Sets

/-- Someone joins the current show with a record of his own. -/
theorem join (kept : Kept time s) {board : Board ρ} {record : Record ρ}
    (current : s.curShowId = getShowPeriod time) (own : record.userId = user)
    (file : s.files s.curShowId = .board board) (topIndex : Nat → Nat) :
    Kept time { (s.added (.joiner (getShowPeriod time)) user).setFile s.curShowId
      (.board (board.enter s.topIndex record).1) with topIndex } := by
  rw [current] at file ⊢
  have other : ∀ showId, showId ≠ getShowPeriod time →
      Function.update s.files (getShowPeriod time) (.board (board.enter s.topIndex record).1)
        showId = s.files showId := fun showId apart => Function.update_of_ne apart ..
  refine ⟨kept.current, kept.last, fun showId later => ?_, kept.up, fun showId content there p used
    => ?_, kept.countedOnce, fun showId voter member => ?_, ?_, ?_, kept.rewardedOnce,
    fun showId member => ?_, fun showId voter member => ?_⟩
  · exact (other showId (Nat.ne_of_gt later)).trans (kept.known showId later)
  · refine mem_sets_added.mpr ?_
    obtain rfl | apart := eq_or_ne showId (getShowPeriod time)
    · cases (Function.update_self ..).symm.trans there
      obtain new | ⟨before, old⟩ := userId_enter board s.topIndex record used
      · exact .inl ⟨rfl, new.trans own⟩
      · exact .inr (old ▸ kept.joined _ board file p before)
    · exact .inr (kept.joined showId content ((other showId apart).symm.trans there) p used)
  · exact mem_sets_added.mpr (.inr (kept.voted showId voter member))
  · intro showId peerId voter member
    have old := (mem_sets_added.mp member).resolve_left fun new => by cases new.1
    exact mem_sets_added.mpr (.inr (kept.backed showId peerId old))
  · intro showId peerId peerId' voter first second
    exact kept.single showId peerId peerId' voter
      ((mem_sets_added.mp first).resolve_left fun new => by cases new.1)
      ((mem_sets_added.mp second).resolve_left fun new => by cases new.1)
  · obtain ⟨before, content, idx, there, rest⟩ := kept.champion showId member
    exact ⟨before, content, idx, (other showId (Nat.ne_of_lt before)).trans there, rest⟩
  · obtain ⟨before, absent⟩ := kept.voter showId voter member
    exact ⟨before, fun peerId there => absent peerId
      ((mem_sets_added.mp there).resolve_left fun new => by cases new.1)⟩

/-- A vote in the current show. -/
theorem vote (kept : Kept time s) {board : Board ρ} {idx peerId : Nat}
    (current : s.curShowId = getShowPeriod time) (file : s.files s.curShowId = .board board)
    (new : user ∉ s.redis.sets (.vote (getShowPeriod time))) :
    Kept time (((s.countVote (getShowPeriod time) user board idx).added
      (.voteFor (getShowPeriod time) peerId) user).added (.vote (getShowPeriod time)) user) := by
  have other : ∀ showId, showId ≠ getShowPeriod time →
      (s.countVote (getShowPeriod time) user board idx).files showId = s.files showId :=
    fun showId apart => Function.update_of_ne (current ▸ apart) ..
  have votes : ∀ showId voter, voter ∈ (((s.countVote (getShowPeriod time) user board idx).added
      (.voteFor (getShowPeriod time) peerId) user).added (.vote (getShowPeriod time))
        user).redis.sets (.vote showId) ↔
      (showId = getShowPeriod time ∧ voter = user) ∨ voter ∈ s.redis.sets (.vote showId) := by
    intro showId voter
    rw [mem_sets_added, sets_added_of_ne (by simp), Key.vote.injEq]
    rfl
  have votesFor : ∀ showId peer voter, voter ∈ (((s.countVote (getShowPeriod time) user board
      idx).added (.voteFor (getShowPeriod time) peerId) user).added (.vote (getShowPeriod time))
        user).redis.sets (.voteFor showId peer) ↔
      ((showId = getShowPeriod time ∧ peer = peerId) ∧ voter = user) ∨
        voter ∈ s.redis.sets (.voteFor showId peer) := by
    intro showId peer voter
    rw [sets_added_of_ne (by simp), mem_sets_added, Key.voteFor.injEq]
    rfl
  refine ⟨kept.current, kept.last, fun showId later => ?_, kept.up, fun showId content there p used
    => ?_, ?_, fun showId voter member => ?_, fun showId peer voter member => ?_,
    fun showId peer peer' voter first second => ?_, kept.rewardedOnce,
    fun showId member => ?_, fun showId voter member => ?_⟩
  · exact (other showId (Nat.ne_of_gt later)).trans (kept.known showId later)
  · obtain rfl | apart := eq_or_ne showId s.curShowId
    · cases (Function.update_self ..).symm.trans there
      have own := @userId_change ρ board idx
        (fun record => { record with votes := record.votes + 1 }) (fun _ => rfl) p
      exact own ▸ kept.joined _ board file p used
    · exact kept.joined showId content
        ((other showId (current ▸ apart)).symm.trans there) p used
  · exact List.nodup_cons.mpr ⟨fun member => new (kept.voted _ user member), kept.countedOnce⟩
  · refine (votes showId voter).mpr ?_
    obtain same | earlier := List.mem_cons.mp member
    · cases same
      exact .inl ⟨rfl, rfl⟩
    · exact .inr (kept.voted showId voter earlier)
  · refine (votes showId voter).mpr ?_
    obtain ⟨⟨same, -⟩, own⟩ | old := (votesFor showId peer voter).mp member
    · exact .inl ⟨same, own⟩
    · exact .inr (kept.backed showId peer old)
  · obtain ⟨⟨same, which⟩, own⟩ | old := (votesFor showId peer voter).mp first
    · obtain ⟨⟨-, which'⟩, -⟩ | old' := (votesFor showId peer' voter).mp second
      · exact which.trans which'.symm
      · exact absurd (kept.backed showId peer' old') (own ▸ same ▸ new)
    · obtain ⟨⟨same', -⟩, own'⟩ | old' := (votesFor showId peer' voter).mp second
      · exact absurd (kept.backed showId peer old) (own' ▸ same' ▸ new)
      · exact kept.single showId peer peer' voter old old'
  · obtain ⟨before, content, position, there, rest⟩ := kept.champion showId member
    exact ⟨before, content, position, (other showId (Nat.ne_of_lt before)).trans there, rest⟩
  · obtain ⟨before, absent⟩ := kept.voter showId voter member
    refine ⟨before, fun peer there => ?_⟩
    obtain ⟨⟨same, -⟩, -⟩ | old := (votesFor showId peer voter).mp there
    · exact absurd same (Nat.ne_of_lt before)
    · exact absent peer old

/-- The show that is asked for a reward is over. -/
theorem lastTopStart_eq (kept : Kept time s) {showId : Nat}
    (current : lastShowId + 1 = getShowPeriod time → s.curShowId = getShowPeriod time)
    (asked : s.lastTopStart time lastShowId = some showId) :
    showId = lastShowId ∧ lastShowId < getShowPeriod time := by
  have positive := getShowPeriod_pos time
  rw [Server.lastTopStart] at asked
  split at asked
  · have mapped := kept.last showId asked
    omega
  · split at asked
    · cases asked
    · split at asked
      · cases asked
      · rename_i there
        cases asked
        by_contra late
        exact there (kept.known _ (by omega))

/-- A reward keeps the accounts. -/
theorem gives (kept : Kept time s)
    (current : lastShowId + 1 = getShowPeriod time → s.curShowId = getShowPeriod time)
    (gives : Gives time user lastShowId s after) : Kept time after := by
  cases gives with
  | nothing => exact kept
  | @champion showId idx board asked file first unknown =>
    obtain ⟨rfl, ended⟩ := kept.lastTopStart_eq current asked
    have other : ∀ other, other ≠ showId → Function.update s.files showId
        (.board (board.change idx fun record => { record with isNotice := 1 })) other =
          s.files other := fun other apart => Function.update_of_ne apart ..
    have again : ((board.change idx fun record => { record with isNotice := 1 }).find?
        fun record => record.isTop = 1) = some idx := by
      rw [find?_change]
      · exact first
      · exact fun record => rfl
    have told : ((board.change idx fun record =>
        { record with isNotice := 1 }).records idx).isNotice ≠ 0 := by
      rw [records_change_self]
      exact Nat.one_ne_zero
    refine ⟨kept.current, kept.last, fun later after => ?_, kept.up, fun later content there p used
      => ?_, kept.countedOnce, kept.voted, kept.backed, kept.single, ?_, fun later member => ?_,
      fun later voter member => ?_⟩
    · exact (other later (by omega)).trans (kept.known later after)
    · obtain rfl | apart := eq_or_ne later showId
      · cases (Function.update_self ..).symm.trans there
        have own := @userId_change ρ board idx (fun record => { record with isNotice := 1 })
          (fun _ => rfl) p
        exact own ▸ kept.joined _ board file p used
      · exact kept.joined later content ((other later apart).symm.trans there) p used
    · refine List.nodup_cons.mpr ⟨fun member => ?_, kept.rewardedOnce⟩
      obtain ⟨-, content, position, there, first', notice⟩ := kept.champion showId member
      cases file.symm.trans there
      cases first.symm.trans first'
      exact notice unknown
    · obtain rfl | apart := eq_or_ne later showId
      · exact ⟨ended, _, idx, Function.update_self .., again, told⟩
      · obtain same | earlier := List.mem_cons.mp member
        · cases same
          exact absurd rfl apart
        · obtain ⟨before, content, position, there, rest⟩ := kept.champion later earlier
          exact ⟨before, content, position, (other later apart).trans there, rest⟩
    · obtain same | earlier := List.mem_cons.mp member
      · cases same
      · exact kept.voter later voter earlier
  | @voter showId peerId asked voted =>
    obtain ⟨-, ended⟩ := kept.lastTopStart_eq current asked
    have fewer : ∀ key, Function.update s.redis.sets (.voteFor lastShowId peerId)
        ((s.redis.sets (.voteFor lastShowId peerId)).erase user) key ⊆ s.redis.sets key := by
      intro key
      obtain rfl | apart := eq_or_ne key (.voteFor lastShowId peerId)
      · rw [Function.update_self]
        exact Finset.erase_subset _ _
      · rw [Function.update_of_ne apart]
    have other : ∀ key, key ≠ .voteFor lastShowId peerId →
        Function.update s.redis.sets (.voteFor lastShowId peerId)
          ((s.redis.sets (.voteFor lastShowId peerId)).erase user) key = s.redis.sets key :=
      fun key apart => Function.update_of_ne apart ..
    have removed : ∀ peer, user ∉ Function.update s.redis.sets (.voteFor lastShowId peerId)
        ((s.redis.sets (.voteFor lastShowId peerId)).erase user) (.voteFor lastShowId peer) := by
      intro peer member
      obtain rfl := kept.single lastShowId peer peerId user (fewer _ member) voted
      rw [Function.update_self] at member
      exact Finset.notMem_erase _ _ member
    refine ⟨kept.current, kept.last, kept.known, kept.up, fun later content there p used => ?_,
      kept.countedOnce, fun later voter member => ?_, fun later peer => ?_,
      fun later peer peer' voter first second => ?_, ?_, fun later member => ?_,
      fun later voter member => ?_⟩
    · exact (other (.joiner later) (by simp)) ▸ kept.joined later content there p used
    · exact (other (.vote later) (by simp)) ▸ kept.voted later voter member
    · exact (other (.vote later) (by simp)) ▸ (fewer _).trans (kept.backed later peer)
    · exact kept.single later peer peer' voter (fewer _ first) (fewer _ second)
    · exact List.nodup_cons.mpr
        ⟨fun member => (kept.voter lastShowId user member).2 peerId voted, kept.rewardedOnce⟩
    · obtain same | earlier := List.mem_cons.mp member
      · cases same
      · exact kept.champion later earlier
    · obtain same | earlier := List.mem_cons.mp member
      · cases same
        exact ⟨ended, removed⟩
      · obtain ⟨before, absent⟩ := kept.voter later voter earlier
        exact ⟨before, fun peer there => absent peer (fewer _ there)⟩

end Kept

/-! ## Requests -/

/-- After an error the boards and redis are as they were, and the same request finds what it would
have found. -/
structure Unharmed (env : Env ρ) (time user : Nat) (request : Request ρ) (s after : Server ρ) :
    Prop where
  boards : ∀ showId board, s.files showId = .board board → after.files showId = .board board
  redis : after.redis = s.redis
  retry : ∀ plan, after.process env time user plan request = s.process env time user plan request

theorem Unharmed.refl (env : Env ρ) (time user : Nat) (request : Request ρ) (s : Server ρ) :
    Unharmed env time user request s s := ⟨fun _ _ => id, rfl, fun _ => rfl⟩

/-- A request that is accepted changes the board of its show only. -/
def Local (reply : Reply ρ) (s after : Server ρ) : Prop :=
  ∀ showId, reply = .joined showId ∨ reply = .voted showId →
    ∀ other, other ≠ showId → after.files other = s.files other

/-- What a request that suits does. -/
theorem Kept.process (kept : Kept time s) {request : Request ρ} (first : plan.first ≠ .silent)
    (second : plan.second ≠ .silent) (suits : World.Suits env time user plan s request)
    (done : s.process env time user plan request = some (reply, after)) :
    Kept time after ∧ (∀ err, reply = .error err → Unharmed env time user request s after) ∧
      Local reply s after := by
  have refused : ∀ err, reply = .error err → after = s →
      Kept time after ∧ (∀ err, reply = .error err → Unharmed env time user request s after) ∧
        Local reply s after := by
    rintro err rfl rfl
    refine ⟨kept, fun _ _ => .refl env time user request after, fun showId accepted => ?_⟩
    exact accepted.elim (fun same => by cases same) fun same => by cases same
  cases request with
  | malformed =>
    cases done
    exact refused _ rfl rfl
  | join showId record =>
    obtain ⟨current, own⟩ := suits
    have listed : ∀ board, s.files s.curShowId = .board board → ∀ p < board.userNum,
        (board.records p).userId ∈ s.redis.sets (.joiner (getShowPeriod time)) :=
      fun board file => current ▸ kept.joined s.curShowId board file
    obtain ⟨err, failed, same⟩ | ⟨rfl, rfl, board, file, rfl⟩ :=
      processJoinShow_cases kept.up first second listed done
    · exact refused err failed same
    · refine ⟨kept.join current own file _, fun err same => (by cases same), ?_⟩
      rintro showId (same | same) other apart
      · cases same
        exact Function.update_of_ne (current ▸ apart) ..
      · cases same
  | vote showId peerId =>
    obtain ⟨current, second, third⟩ := suits
    obtain ⟨err, failed, same⟩ | ⟨rfl, rfl, new, board, idx, file, -, rfl⟩ :=
      processVoteShow_cases kept.up first second third done
    · exact refused err failed same
    · refine ⟨kept.vote current file new, fun err same => (by cases same), ?_⟩
      rintro showId (same | same) other apart
      · cases same
      · cases same
        exact Function.update_of_ne (current ▸ apart) ..
  | enter lastShowId =>
    obtain ⟨third, current⟩ := suits
    have fine : (∃ showId phase totalNum entries done given,
        reply = .entered showId phase totalNum entries done given) →
        (∀ err, reply = .error err → Unharmed env time user (.enter lastShowId) s after) ∧
          Local reply s after := by
      rintro ⟨_, _, _, _, _, _, rfl⟩
      refine ⟨fun err same => (by cases same), fun showId accepted => ?_⟩
      exact accepted.elim (fun same => by cases same) fun same => by cases same
    have unfolds : ∀ (s' : Server ρ) plan, s'.process env time user plan (.enter lastShowId) =
        s'.processEnterShow env time user plan lastShowId := fun _ _ => rfl
    rw [unfolds, Server.processEnterShow] at done
    cases phase : env.getPhaseOfShow time with
    | vote =>
      rw [phase] at done
      obtain ⟨err, failed, same⟩ | ⟨entered, gives⟩ :=
        showRecords_cases kept.up first second third done
      · exact refused err failed same
      · exact ⟨kept.gives (current phase) gives, fine entered⟩
    | enter =>
      rw [phase] at done
      obtain ⟨opens, again⟩ := @opens_openFiles ρ env time s kept.last
      have opened := kept.opens opens
      obtain ⟨err, rfl, rfl⟩ | ⟨entered, gives⟩ :=
        showRecords_cases opened.up first second third done
      · refine ⟨opened, fun _ _ => ⟨fun showId board => opens.board, opens.redis, fun plan => ?_⟩,
          fun showId accepted => ?_⟩
        · rw [unfolds, unfolds, Server.processEnterShow, Server.processEnterShow, phase]
          rw [again]
        · exact accepted.elim (fun same => by cases same) fun same => by cases same
      · exact ⟨opened.gives (fun _ => opens.current) gives, fine entered⟩
    | undefined =>
      rw [phase] at done
      cases done
      exact refused _ rfl rfl
  | history showId =>
    have silent : after = s ∧ ∀ other, reply ≠ .joined other ∧ reply ≠ .voted other := by
      change s.processHistoryShow time showId = some (reply, after) at done
      rw [Server.processHistoryShow] at done
      split at done
      · cases done
        exact ⟨rfl, fun other => by simp⟩
      · dsimp only at done
        split at done
        · cases done
          exact ⟨rfl, fun other => by simp⟩
        · split at done
          · cases done
          · cases done
            exact ⟨rfl, fun other => by simp⟩
    obtain ⟨rfl, apart⟩ := silent
    exact ⟨kept, fun err _ => .refl env time user _ after, fun other accepted =>
      absurd accepted (not_or.mpr (apart other))⟩

end

namespace World

variable {env : Env ρ} {w : World ρ}

/-- The accounts are empty at the start. -/
theorem kept_init (elapsed : Nat) (topIndex : Nat → Nat) :
    Kept (init env elapsed topIndex).clock (init env elapsed topIndex).server := by
  have start : Kept (showBeginTimestamp + elapsed)
      (⟨fun _ => .absent, ⟨.up, fun _ => ∅⟩, 0, none, topIndex, [], []⟩ : Server ρ) := by
    refine ⟨Nat.zero_le _, fun showId none => (by cases none), fun showId later => rfl, rfl,
      fun showId board file => (by cases file), List.nodup_nil, fun showId user member => ?_,
      fun showId peerId => Finset.Subset.refl _, fun showId peerId peerId' user member => ?_,
      List.nodup_nil, fun showId member => ?_, fun showId user member => ?_⟩
    · cases member
    · exact absurd member (Finset.notMem_empty user)
    · cases member
    · cases member
  exact start.opens opens_initShowFile

/-- Every request that fits keeps the accounts. -/
theorem kept_step {input : Input ρ} (kept : Kept w.clock w.server) (fits : Fits env w input) :
    Kept (w.step env input).clock (w.step env input).server := by
  cases input with
  | wait seconds => exact kept.later (Nat.le_add_right _ seconds)
  | request user plan request =>
    obtain ⟨⟨first, second, -⟩, suits⟩ := fits
    rw [step]
    split
    · exact kept
    · split
      · exact kept
      · rename_i reply server done
        exact (kept.process first second suits done).1

/-- In every run of requests that fit, votes are counted once and rewards are handed out once. A
request that is accepted changes its own board only, and one that is refused changes nothing. -/
theorem accounts_of_fits {elapsed : Nat} {topIndex : Nat → Nat}
    (run : Reaches (step env) (Fits env) (init env elapsed topIndex) w) :
    w.server.counted.Nodup ∧ w.server.rewards.Nodup ∧
      ∀ user plan request, Fits env w (.request user plan request) → ∀ reply after,
        w.server.process env w.clock user plan request = some (reply, after) →
        (∀ err, reply = .error err → Unharmed env w.clock user request w.server after) ∧
          Local reply w.server after := by
  have kept : Kept w.clock w.server := by
    apply run.invariant
    · exact kept_init elapsed topIndex
    · exact kept_step
  refine ⟨kept.countedOnce, kept.rewardedOnce, fun user plan request fits reply after done => ?_⟩
  obtain ⟨⟨first, second, -⟩, suits⟩ := fits
  exact (kept.process first second suits done).2

instance Suits.decidable (env : Env ρ) (time user : Nat) (plan : Plan) (s : Server ρ) :
    ∀ request, Decidable (Suits env time user plan s request)
  | .malformed => inferInstanceAs (Decidable True)
  | .join _ record =>
    inferInstanceAs (Decidable (s.curShowId = getShowPeriod time ∧ record.userId = user))
  | .vote _ _ =>
    inferInstanceAs (Decidable (s.curShowId = getShowPeriod time ∧ plan.second = .answered ∧
      plan.third = .answered))
  | .enter lastShowId =>
    inferInstanceAs (Decidable (plan.third = .answered ∧
      (env.getPhaseOfShow time = .vote → lastShowId + 1 = getShowPeriod time →
        s.curShowId = getShowPeriod time)))
  | .history _ => inferInstanceAs (Decidable True)

instance Fits.decidable (env : Env ρ) (w : World ρ) : ∀ input, Decidable (Fits env w input)
  | .wait _ => inferInstanceAs (Decidable True)
  | .request user plan request =>
    inferInstanceAs (Decidable ((plan.first ≠ .silent ∧ plan.second ≠ .silent ∧
      plan.third ≠ .silent) ∧ Suits env w.clock user plan w.server request))

/-- Eight hours east of Greenwich, without summer time. -/
def localtime (time : Nat) : Option Tm :=
  let shifted := time + 8 * 60 * 60
  some ⟨(shifted / 86400 + 4) % 7, shifted / 3600 % 24, shifted / 60 % 60, shifted % 60⟩

/-- A join and a vote, each asked for twice, and the rewards a period later. -/
theorem accounts_of_fits_twice :
    let env : Env Unit := ⟨localtime, ⟨0, 0, 0, 0, 0, 0, ()⟩⟩
    let w := List.foldl (step env) (init env 0 fun _ => 0)
      [.request 7 ⟨.answered, .refused, .answered⟩ (.join 1 ⟨7, 50, 1339862400, 0, 0, 0, ()⟩),
        .request 7 ⟨.answered, .answered, .answered⟩ (.join 1 ⟨7, 50, 1339862400, 0, 0, 0, ()⟩),
        .wait 518400, .request 8 ⟨.answered, .answered, .answered⟩ (.vote 1 7),
        .request 8 ⟨.answered, .answered, .answered⟩ (.vote 1 7), .wait 86400,
        .request 8 ⟨.refused, .answered, .answered⟩ (.enter 1),
        .request 8 ⟨.answered, .answered, .answered⟩ (.enter 1),
        .request 7 ⟨.answered, .answered, .answered⟩ (.enter 1),
        .request 7 ⟨.answered, .answered, .answered⟩ (.history 1)]
    w.server.counted.Nodup ∧ w.server.rewards.Nodup ∧
      ∀ user plan request, Fits env w (.request user plan request) → ∀ reply after,
        w.server.process env w.clock user plan request = some (reply, after) →
        (∀ err, reply = .error err → Unharmed env w.clock user request w.server after) ∧
          Local reply w.server after :=
  accounts_of_fits (Reaches.refl.follow (by decide +kernel))

/-- Who is told that his vote has failed votes again, and is counted twice. -/
theorem failed_vote_counts : ∃ w : World Unit,
    Reaches (step ⟨localtime, ⟨0, 0, 0, 0, 0, 0, ()⟩⟩) (fun _ _ => True)
      (init ⟨localtime, ⟨0, 0, 0, 0, 0, 0, ()⟩⟩ 0 fun _ => 0) w ∧ ¬ w.server.counted.Nodup := by
  refine ⟨List.foldl (step ⟨localtime, ⟨0, 0, 0, 0, 0, 0, ()⟩⟩)
    (init ⟨localtime, ⟨0, 0, 0, 0, 0, 0, ()⟩⟩ 0 fun _ => 0)
    [.request 7 ⟨.answered, .answered, .answered⟩ (.join 1 ⟨7, 50, 1339862400, 0, 0, 0, ()⟩),
      .wait 518400, .request 8 ⟨.answered, .answered, .refused⟩ (.vote 1 7),
      .request 8 ⟨.answered, .answered, .answered⟩ (.vote 1 7)],
    Reaches.of_list fun _ _ _ => trivial, ?_⟩
  decide +kernel

end World

end Taomee.Show
