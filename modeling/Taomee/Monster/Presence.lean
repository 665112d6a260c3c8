import Mathlib.Data.Finset.Interval
import Mathlib.Order.Interval.Finset.Nat
import Taomee.Library.Runs
import Taomee.Library.Seating
import Taomee.Monster.Switch

/-!
# What the switch knows

Users, slots and counters agree as long as servers exit before they register again and have a free
slot for who comes.
-/

namespace Taomee.Monster.Switch

open Runs Seating

/-- Users in the slots of servers. -/
def view : View UserInfo Nat Nat where
  key := UserInfo.userId
  table := UserInfo.onlineId
  index := UserInfo.onlineIndex
  size := maxNumPerOnline
  empty := 0

/-- What is kept of a registered server. -/
structure OnlineInfo.Valid (onlineId : Nat) (online : OnlineInfo) : Prop where
  conn : online.connNum = used maxNumPerOnline 0 online.userIds
  cur : online.curIndex < maxNumPerOnline
  zone : online.onlineZone = telCom ∨ online.onlineZone = netCom
  least : 1 ≤ onlineId
  most : onlineId ≤ maxOnlineNum

/-- Users and slots agree. -/
structure Filled (users : List UserInfo) (onlines : Nat → Option OnlineInfo) : Prop where
  seated : Seated view users fun id => (onlines id).map OnlineInfo.userIds
  valid : ∀ id online, onlines id = some online → online.Valid id

/-- The zone of a server. -/
def zoneIn (onlines : Nat → Option OnlineInfo) (id : Nat) : Nat :=
  ((onlines id).getD .zero).onlineZone

/-- The counters count users. -/
structure Counted (users : List UserInfo) (zone : Nat → Nat) (s : Directory) : Prop where
  online : s.onlineUserNum = users.length
  tel : s.telOnlineNum = users.countP fun info => zone info.onlineId = telCom
  net : s.netOnlineNum = users.countP fun info => ¬ zone info.onlineId = telCom

section

variable {s : Directory} {users rest : List UserInfo} {onlines : Nat → Option OnlineInfo}
  {info : UserInfo} {online changed : OnlineInfo} {id fd userId : Nat} {zone : Nat → Nat}

/-- Above 0 the counter goes down by one. -/
theorem dec_succ (n : Nat) : dec (n + 1) = n := if_neg (Nat.succ_ne_zero n)

/-- A difference that is not negative is read as itself. -/
theorem notNegative_sub {x y : Nat} (le : y ≤ x) (small : x < 2 ^ 31) :
    notNegative (sub x y) = x - y := by
  rw [sub, if_neg (Nat.not_lt_of_le le), notNegative, if_neg (by omega)]

/-- Below the last value of the counter it goes up by one. -/
theorem inc_eq {n : Nat} (small : n + 1 < 2 ^ 32) : inc n = n + 1 := if_neg (Nat.ne_of_lt small)

/-- The user tables after a change of one server. -/
theorem map_update (onlines : Nat → Option OnlineInfo) (id : Nat) (online : OnlineInfo) :
    (fun other => (Function.update onlines id (some online) other).map OnlineInfo.userIds) =
      Function.update (fun other => (onlines other).map OnlineInfo.userIds) id
        (some online.userIds) := by
  funext other
  obtain rfl | apart := eq_or_ne other id
  · rw [Function.update_self, Function.update_self, Option.map_some]
  · rw [Function.update_of_ne apart, Function.update_of_ne apart]

/-- The zone of another server is as before. -/
theorem zoneIn_of_ne {found : Option OnlineInfo} {other : Nat} (apart : other ≠ id) :
    zoneIn (Function.update onlines id found) other = zoneIn onlines other := by
  rw [zoneIn, zoneIn, Function.update_of_ne apart]

/-- A change that keeps the zone of a server keeps all zones. -/
theorem zoneIn_update (there : onlines id = some online)
    (same : changed.onlineZone = online.onlineZone) :
    zoneIn (Function.update onlines id (some changed)) = zoneIn onlines := by
  funext other
  obtain rfl | apart := eq_or_ne other id
  · rw [zoneIn, zoneIn, Function.update_self, there, Option.getD_some, Option.getD_some, same]
  · rw [zoneIn, zoneIn, Function.update_of_ne apart]

namespace Filled

/-- The order of the users does not matter. -/
theorem perm (filled : Filled users onlines) (perm : users.Perm rest) : Filled rest onlines :=
  ⟨filled.seated.perm perm, filled.valid⟩

/-- A user stands in the table of its server, at its own index. -/
theorem online_of_mem (filled : Filled users onlines) (member : info ∈ users) :
    ∃ online, onlines info.onlineId = some online ∧ info.onlineIndex < maxNumPerOnline ∧
      online.userIds info.onlineIndex = info.userId ∧ info.userId ≠ 0 := by
  obtain ⟨named, within, content, there, here⟩ := filled.seated.seat info member
  obtain ⟨online, found, rfl⟩ := Option.map_eq_some_iff.mp there
  exact ⟨online, found, within, here, named⟩

/-- All users fit into the counters. -/
theorem length_le (filled : Filled users onlines) :
    users.length ≤ maxOnlineNum * maxNumPerOnline := by
  have bound := filled.seated.length_le (Finset.Icc 1 maxOnlineNum) fun id there => ?_
  · rw [Nat.card_Icc] at bound
    exact bound
  · obtain ⟨content, found⟩ := Option.ne_none_iff_exists'.mp there
    obtain ⟨online, found, -⟩ := Option.map_eq_some_iff.mp found
    have valid := filled.valid id online found
    exact Finset.mem_Icc.mpr ⟨valid.least, valid.most⟩

/-- A change of the slots of a server. -/
theorem change (filled : Filled users onlines) (valid : changed.Valid id)
    (seated : Seated view rest (Function.update
      (fun other => (onlines other).map OnlineInfo.userIds) id (some changed.userIds))) :
    Filled rest (Function.update onlines id (some changed)) := by
  refine ⟨map_update onlines id changed ▸ seated, fun other online there => ?_⟩
  obtain rfl | apart := eq_or_ne other id
  · rw [Function.update_self] at there
    cases there
    exact valid
  · rw [Function.update_of_ne apart] at there
    exact filled.valid other online there

/-- A user who leaves frees its entry. -/
theorem leave (filled : Filled (info :: rest) onlines)
    (there : onlines info.onlineId = some online) :
    Filled rest (Function.update onlines info.onlineId (some
      (online.leave info.onlineIndex))) := by
  obtain ⟨online', there', within, here, named⟩ := filled.online_of_mem List.mem_cons_self
  cases there.symm.trans there'
  have valid := filled.valid _ online there
  have fewer := used_clear within (here.symm ▸ named)
  refine filled.change ⟨?_, valid.cur, valid.zone, valid.least, valid.most⟩
    (filled.seated.leave (congrArg (Option.map OnlineInfo.userIds) there))
  dsimp only [OnlineInfo.leave]
  rw [valid.conn, ← fewer, dec_succ]

/-- A new user takes a free entry. -/
theorem enter (filled : Filled rest onlines) (info : UserInfo)
    (there : onlines info.onlineId = some online) (within : info.onlineIndex < maxNumPerOnline)
    (free : online.userIds info.onlineIndex = 0) (named : info.userId ≠ 0)
    (new : info.userId ∉ rest.map UserInfo.userId) :
    Filled (info :: rest) (Function.update onlines info.onlineId (some
      (online.enter info.onlineIndex info.userId))) := by
  have valid := filled.valid _ online there
  have more := used_fill within free named
  have most : used maxNumPerOnline 0 online.userIds ≤ maxNumPerOnline := used_le
  refine filled.change ⟨?_, within, valid.zone, valid.least, valid.most⟩
    (filled.seated.enter (congrArg (Option.map OnlineInfo.userIds) there) within free named new)
  dsimp only [OnlineInfo.enter]
  rw [valid.conn, more, inc_eq]
  simp only [maxNumPerOnline] at *
  omega

/-- A new server has no users. -/
theorem register (filled : Filled users onlines) (new : onlines id = none)
    (zone : online.onlineZone = telCom ∨ online.onlineZone = netCom)
    (least : 1 ≤ id) (most : id ≤ maxOnlineNum) (free : online.userIds = fun _ => 0)
    (conn : online.connNum = 0) (cur : online.curIndex = 0) :
    Filled users (Function.update onlines id (some online)) := by
  refine filled.change ⟨?_, ?_, zone, least, most⟩ (free ▸ filled.seated.newTable ?_)
  · rw [free, conn, used_empty]
  · rw [cur]
    exact Nat.zero_lt_succ 499
  · rw [new, Option.map_none]

/-- A server goes with its users. -/
theorem exit (filled : Filled users onlines) (id : Nat) :
    Filled (users.filter fun info => info.onlineId ≠ id) (Function.update onlines id none) := by
  have gone : (fun other => (Function.update onlines id none other).map OnlineInfo.userIds) =
      Function.update (fun other => (onlines other).map OnlineInfo.userIds) id none := by
    funext other
    obtain rfl | apart := eq_or_ne other id
    · rw [Function.update_self, Function.update_self, Option.map_none]
    · rw [Function.update_of_ne apart, Function.update_of_ne apart]
  refine ⟨gone ▸ filled.seated.remove id, fun other online there => ?_⟩
  obtain rfl | apart := eq_or_ne other id
  · rw [Function.update_self] at there
    cases there
  · rw [Function.update_of_ne apart] at there
    exact filled.valid other online there

/-- The number of connections counts the users of the server. -/
theorem countP_eq (filled : Filled users onlines) (there : onlines id = some online) :
    users.countP (fun info => info.onlineId = id) = online.connNum := by
  rw [(filled.valid id online there).conn]
  exact (filled.seated.used_eq (congrArg (Option.map OnlineInfo.userIds) there)).symm

end Filled

/-! ## The users -/

/-- The user found by id is the only one of this id. -/
theorem findUser_eq (once : (s.users.map UserInfo.userId).Nodup)
    (found : s.findUser userId = some info) : info.userId = userId ∧
      s.users.Perm (info :: s.users.filter fun other => other.userId ≠ userId) := by
  have named : info.userId = userId := by simpa using List.find?_some found
  have member : info ∈ s.users := List.mem_of_find?_eq_some found
  refine ⟨named, (List.perm_ext_iff_of_nodup once.of_map ?_).mpr fun other => ?_⟩
  · refine List.nodup_cons.mpr ⟨fun there => ?_, once.of_map.filter _⟩
    exact of_decide_eq_true (List.mem_filter.mp there).2 named
  · rw [List.mem_cons, List.mem_filter, decide_eq_true_eq]
    constructor
    · intro there
      by_cases same : other.userId = userId
      · exact .inl (List.inj_on_of_nodup_map once there member (same.trans named.symm))
      · exact .inr ⟨there, same⟩
    · rintro (rfl | ⟨there, -⟩)
      · exact member
      · exact there

/-- A user who is not found is on no server. -/
theorem findUser_eq_none (missing : s.findUser userId = none) :
    userId ∉ s.users.map UserInfo.userId := by
  intro there
  obtain ⟨info, member, rfl⟩ := List.mem_map.mp there
  exact List.find?_eq_none.mp missing info member (decide_eq_true rfl)

/-- The loop over the slots erases those who sit there. -/
theorem users_eraseUsers (s : Directory) (userIds : Nat → Nat) :
    s.eraseUsers userIds = { s with users := s.users.filter fun info =>
      ¬ ∃ index < maxNumPerOnline, userIds index ≠ 0 ∧ userIds index = info.userId } := by
  have loop : ∀ count, (List.range count).foldl (fun s index =>
      if userIds index ≠ 0 then s.eraseUser (userIds index) else s) s =
        { s with users := s.users.filter fun info =>
          ¬ ∃ index < count, userIds index ≠ 0 ∧ userIds index = info.userId } := by
    intro count
    induction count with
    | zero => simp
    | succ count ih =>
      rw [List.range_succ, List.foldl_append, ih, List.foldl_cons, List.foldl_nil]
      split
      · rename_i taken
        rw [Directory.eraseUser]
        rw [List.filter_filter]
        congr 1
        refine List.filter_congr fun info _ => ?_
        rw [← Bool.decide_and, decide_eq_decide]
        constructor
        · rintro ⟨other, none⟩ ⟨index, within, rest⟩
          obtain rfl | before := Nat.eq_or_lt_of_le (Nat.le_of_lt_succ within)
          · exact other rest.2.symm
          · exact none ⟨index, before, rest⟩
        · intro none
          refine ⟨fun same => none ⟨count, Nat.lt_succ_self count, taken, same.symm⟩, ?_⟩
          rintro ⟨index, before, rest⟩
          exact none ⟨index, Nat.lt_succ_of_lt before, rest⟩
      · rename_i free
        congr 1
        refine List.filter_congr fun info _ => ?_
        rw [decide_eq_decide]
        refine not_congr ⟨?_, ?_⟩
        · rintro ⟨index, before, rest⟩
          exact ⟨index, Nat.lt_succ_of_lt before, rest⟩
        · rintro ⟨index, within, rest⟩
          obtain rfl | before := Nat.eq_or_lt_of_le (Nat.le_of_lt_succ within)
          · exact absurd rest.1 free
          · exact ⟨index, before, rest⟩
  exact loop maxNumPerOnline

/-! ## The slots -/

/-- The loop finds a free slot if there is one where it still looks. -/
theorem findIndex_eq {userIds : Nat → Nat} {left newIndex count : Nat}
    (within : newIndex < maxNumPerOnline) (once : count ≤ 1)
    (room : ∃ j < maxNumPerOnline, userIds j = 0 ∧ (count = 0 ∨ newIndex ≤ j))
    (enough : (1 - count) * maxNumPerOnline + (maxNumPerOnline - newIndex) + 1 ≤ left) :
    ∃ found turns, Directory.findIndex userIds left newIndex count = (found, turns) ∧
      found < maxNumPerOnline ∧ userIds found = 0 ∧ turns ≠ 2 := by
  induction left generalizing newIndex count with
  | zero => omega
  | succ left ih =>
    rw [Directory.findIndex]
    obtain ⟨j, inside, free, ahead⟩ := room
    split
    · rename_i taken
      have apart : j ≠ newIndex := fun same => taken.2 (same ▸ free)
      dsimp only
      split
      · split
        · omega
        · refine ih (by omega) (by omega) ⟨j, inside, free, .inr (Nat.zero_le j)⟩ ?_
          have start : count = 0 := by omega
          subst start
          omega
      · refine ih (by omega) once ⟨j, inside, free, ?_⟩ (by omega)
        omega
    · rename_i stops
      refine ⟨newIndex, count, rfl, within, ?_, by omega⟩
      by_contra taken
      exact stops ⟨within, taken⟩

/-- On a server with room the user gets a free index. -/
theorem addUserToOnlineMap_eq (there : s.onlines id = some online) (valid : online.Valid id)
    (named : userId ≠ 0) (room : online.connNum < maxNumPerOnline) :
    ∃ index < maxNumPerOnline, online.userIds index = 0 ∧
      s.addUserToOnlineMap id userId = (index, s.setOnline id (online.enter index userId)) := by
  obtain ⟨j, inside, free⟩ := exists_free (valid.conn ▸ room)
  obtain ⟨index, turns, found, within, here, fine⟩ :=
    findIndex_eq valid.cur (Nat.zero_le 1) ⟨j, inside, free, .inl rfl⟩
      (show (1 - 0) * maxNumPerOnline + (maxNumPerOnline - online.curIndex) + 1 ≤
        2 * maxNumPerOnline + 1 by omega)
  refine ⟨index, within, here, ?_⟩
  have known : id ≠ noOnline := by
    have most := valid.most
    simp only [maxOnlineNum, noOnline] at *
    omega
  rw [Directory.addUserToOnlineMap, if_neg (not_or.mpr ⟨known, named⟩), Directory.online, there,
    Option.getD_some]
  dsimp only
  rw [found]
  rw [if_neg fine]

/-! ## The counters -/

/-- One user more of the first zone, or not. -/
theorem countP_tel_cons (zone : Nat → Nat) (info : UserInfo) (rest : List UserInfo) :
    (info :: rest).countP (fun info => zone info.onlineId = telCom) =
      rest.countP (fun info => zone info.onlineId = telCom) +
        if zone info.onlineId = telCom then 1 else 0 := by
  rw [List.countP_cons]
  simp

/-- One user more of the other zones, or not. -/
theorem countP_net_cons (zone : Nat → Nat) (info : UserInfo) (rest : List UserInfo) :
    (info :: rest).countP (fun info => ¬ zone info.onlineId = telCom) =
      rest.countP (fun info => ¬ zone info.onlineId = telCom) +
        if zone info.onlineId = telCom then 0 else 1 := by
  rw [List.countP_cons]
  simp

namespace Counted

/-- The counters do not see the order. -/
theorem perm (counted : Counted users zone s) (perm : users.Perm rest) : Counted rest zone s :=
  ⟨counted.online.trans perm.length_eq, counted.tel.trans (perm.countP_eq _),
    counted.net.trans (perm.countP_eq _)⟩

/-- The total is the sum of the zones. -/
theorem sum (counted : Counted users zone s) :
    s.onlineUserNum = s.telOnlineNum + s.netOnlineNum := by
  rw [counted.online, counted.tel, counted.net,
    List.length_eq_countP_add_countP fun info : UserInfo => zone info.onlineId = telCom]
  simp

/-- The zones of other servers do not count. -/
theorem congr {other : Nat → Nat} (counted : Counted users zone s)
    (same : ∀ info ∈ users, other info.onlineId = zone info.onlineId) : Counted users other s := by
  refine ⟨counted.online, counted.tel.trans ?_, counted.net.trans ?_⟩
  · exact List.countP_congr fun info member => by rw [same info member]
  · exact List.countP_congr fun info member => by rw [same info member]

/-- The first counter is at most the number of users. -/
theorem tel_le (counted : Counted users zone s) : s.telOnlineNum ≤ users.length := by
  rw [counted.tel]
  exact List.countP_le_length

/-- The second counter is at most the number of users. -/
theorem net_le (counted : Counted users zone s) : s.netOnlineNum ≤ users.length := by
  rw [counted.net]
  exact List.countP_le_length

/-- A user has gone. -/
theorem leave {after : Directory} (counted : Counted (info :: rest) zone s)
    (online : after.onlineUserNum = dec s.onlineUserNum) (here : zone info.onlineId = telCom →
      after.telOnlineNum = dec s.telOnlineNum ∧ after.netOnlineNum = s.netOnlineNum)
    (there : ¬ zone info.onlineId = telCom →
      after.telOnlineNum = s.telOnlineNum ∧ after.netOnlineNum = dec s.netOnlineNum) :
    Counted rest zone after := by
  have tel := counted.tel.trans (countP_tel_cons ..)
  have net := counted.net.trans (countP_net_cons ..)
  have total : after.onlineUserNum = rest.length := by
    rw [online, counted.online, List.length_cons, dec_succ]
  by_cases zone : zone info.onlineId = telCom
  · rw [if_pos zone] at tel net
    obtain ⟨fewer, same⟩ := here zone
    exact ⟨total, by rw [fewer, tel, dec_succ], same.trans net⟩
  · rw [if_neg zone] at tel net
    obtain ⟨same, fewer⟩ := there zone
    exact ⟨total, same.trans tel, by rw [fewer, net, dec_succ]⟩

/-- A user has come. -/
theorem enter {after : Directory} (counted : Counted rest zone s)
    (small : rest.length < 2 ^ 31) (online : after.onlineUserNum = inc s.onlineUserNum)
    (here : zone info.onlineId = telCom →
      after.telOnlineNum = inc s.telOnlineNum ∧ after.netOnlineNum = s.netOnlineNum)
    (there : ¬ zone info.onlineId = telCom →
      after.telOnlineNum = s.telOnlineNum ∧ after.netOnlineNum = inc s.netOnlineNum) :
    Counted (info :: rest) zone after := by
  have telMost := counted.tel_le
  have netMost := counted.net_le
  have total : after.onlineUserNum = (info :: rest).length := by
    rw [online, counted.online, List.length_cons, inc_eq (by omega)]
  by_cases zone : zone info.onlineId = telCom
  · obtain ⟨more, same⟩ := here zone
    refine ⟨total, ?_, ?_⟩
    · rw [more, inc_eq (by omega), counted.tel, countP_tel_cons, if_pos zone]
    · rw [same, counted.net, countP_net_cons, if_pos zone, Nat.add_zero]
  · obtain ⟨same, more⟩ := there zone
    refine ⟨total, ?_, ?_⟩
    · rw [same, counted.tel, countP_tel_cons, if_neg zone, Nat.add_zero]
    · rw [more, inc_eq (by omega), counted.net, countP_net_cons, if_neg zone]

/-- A user has moved. -/
theorem move (counted : Counted (info :: rest) zone s) (info' : UserInfo)
    (small : rest.length < 2 ^ 31) (old : zone info.onlineId = telCom ∨ zone info.onlineId = netCom)
    (new : zone info'.onlineId = telCom ∨ zone info'.onlineId = netCom) :
    Counted (info' :: rest) zone
      (s.changeZone (zone info.onlineId) (zone info'.onlineId)) := by
  have telMost := counted.tel_le
  have netMost := counted.net_le
  have tel := counted.tel.trans (countP_tel_cons ..)
  have net := counted.net.trans (countP_net_cons ..)
  rw [List.length_cons] at telMost netMost
  have total : s.onlineUserNum = (info' :: rest).length := counted.online
  rw [Directory.changeZone]
  by_cases zone' : zone info.onlineId = zone info'.onlineId
  · rw [if_neg (not_not.mpr zone')]
    refine ⟨total, ?_, ?_⟩
    · rw [tel, countP_tel_cons, zone']
    · rw [net, countP_net_cons, zone']
  rw [if_pos zone']
  by_cases here : zone info.onlineId = telCom
  · rw [if_pos here] at tel net ⊢
    have there : ¬ zone info'.onlineId = telCom := fun same => zone' (here.trans same.symm)
    refine ⟨total, ?_, ?_⟩
    · rw [tel, dec_succ, countP_tel_cons, if_neg there, Nat.add_zero]
    · rw [net, inc_eq (by omega), countP_net_cons, if_neg there]
  · rw [if_neg here] at tel net ⊢
    have there : zone info'.onlineId = telCom := by
      obtain telecom | unicom := new
      · exact telecom
      · exact absurd ((old.resolve_left here).trans unicom.symm) zone'
    refine ⟨total, ?_, ?_⟩
    · rw [tel, inc_eq (by omega), countP_tel_cons, if_pos there]
    · rw [net, dec_succ, countP_net_cons, if_pos there, Nat.add_zero]

/-- The users of a server have gone. -/
theorem exit {after : Directory} (counted : Counted users zone s) (small : users.length < 2 ^ 31)
    {conn : Nat} (here : users.countP (fun info => info.onlineId = id) = conn)
    (online : after.onlineUserNum = notNegative (sub s.onlineUserNum conn))
    (telecom : zone id = telCom → after.telOnlineNum = notNegative (sub s.telOnlineNum conn) ∧
      after.netOnlineNum = s.netOnlineNum)
    (unicom : ¬ zone id = telCom → after.telOnlineNum = s.telOnlineNum ∧
      after.netOnlineNum = notNegative (sub s.netOnlineNum conn)) :
    Counted (users.filter fun info => info.onlineId ≠ id) zone after := by
  have telMost := counted.tel_le
  have netMost := counted.net_le
  obtain ⟨gone, isGone⟩ : ∃ gone, gone = users.filter fun info => !decide (info.onlineId ≠ id) :=
    ⟨_, rfl⟩
  have parts : ∀ p, users.countP p =
      (users.filter fun info => info.onlineId ≠ id).countP p + gone.countP p := fun p =>
    isGone ▸ List.countP_eq_countP_filter_add users p fun info => info.onlineId ≠ id
  have length : gone.length = conn := by
    rw [isGone, ← here, ← List.countP_eq_length_filter]
    exact List.countP_congr fun info _ => by simp
  have zones : ∀ info ∈ gone, info.onlineId = id := fun info member => by
    rw [isGone] at member
    simpa using (List.mem_filter.mp member).2
  have total : after.onlineUserNum =
      (users.filter fun info => info.onlineId ≠ id).length := by
    have all := parts fun _ => true
    simp only [List.countP_true] at all
    rw [online, counted.online, notNegative_sub (by omega) small]
    omega
  have tels := parts fun info => zone info.onlineId = telCom
  have nets := parts fun info => ¬ zone info.onlineId = telCom
  rw [← counted.tel] at tels
  rw [← counted.net] at nets
  by_cases which : zone id = telCom
  · obtain ⟨fewer, same⟩ := telecom which
    have all : gone.countP (fun info => zone info.onlineId = telCom) = gone.length :=
      List.countP_eq_length.mpr fun info member => decide_eq_true ((zones info member).symm ▸ which)
    have none : gone.countP (fun info => ¬ zone info.onlineId = telCom) = 0 :=
      List.countP_eq_zero.mpr fun info member => by simp [zones info member, which]
    refine ⟨total, ?_, same.trans (by rw [nets, none, Nat.add_zero])⟩
    rw [fewer, notNegative_sub (by omega) (by omega)]
    omega
  · obtain ⟨same, fewer⟩ := unicom which
    have all : gone.countP (fun info => ¬ zone info.onlineId = telCom) = gone.length :=
      List.countP_eq_length.mpr fun info member => decide_eq_true ((zones info member).symm ▸ which)
    have none : gone.countP (fun info => zone info.onlineId = telCom) = 0 :=
      List.countP_eq_zero.mpr fun info member => by simp [zones info member, which]
    refine ⟨total, same.trans (by rw [tels, none, Nat.add_zero]), ?_⟩
    rw [fewer, notNegative_sub (by omega) (by omega)]
    omega

end Counted

/-! ## The connections -/

/-- A server is known by one connection, the one where it speaks. -/
structure Wired (onlines : Nat → Option OnlineInfo) (fdOnline speaks : Nat → Option Nat) :
    Prop where
  registered : ∀ fd id, fdOnline fd = some id → onlines id ≠ none
  once : ∀ fd fd' id, fdOnline fd = some id → fdOnline fd' = some id → fd = fd'
  speaks : ∀ fd id, speaks fd = some id → fdOnline fd = some id

namespace Wired

variable {fdOnline speaks : Nat → Option Nat} {onlines' : Nat → Option OnlineInfo}

/-- Servers that are added cut no wire. -/
theorem mono (wired : Wired onlines fdOnline speaks)
    (kept : ∀ id, onlines id ≠ none → onlines' id ≠ none) : Wired onlines' fdOnline speaks :=
  ⟨fun fd id there => kept id (wired.registered fd id there), wired.once, wired.speaks⟩

/-- A server that is changed keeps its wire. -/
theorem update (wired : Wired onlines fdOnline speaks) (id : Nat) (online : OnlineInfo) :
    Wired (Function.update onlines id (some online)) fdOnline speaks := by
  refine wired.mono fun other there => ?_
  obtain rfl | apart := eq_or_ne other id
  · rw [Function.update_self]
    exact Option.some_ne_none online
  · rw [Function.update_of_ne apart]
    exact there

/-- A connection that closes is no wire any more. -/
theorem closed (wired : Wired onlines fdOnline speaks) (fd : Nat) :
    Wired onlines fdOnline (Function.update speaks fd none) := by
  refine ⟨wired.registered, wired.once, fun other id there => ?_⟩
  obtain rfl | apart := eq_or_ne other fd
  · rw [Function.update_self] at there
    cases there
  · rw [Function.update_of_ne apart] at there
    exact wired.speaks other id there

/-- A new server is wired to the connection that it registers on. -/
theorem register (wired : Wired onlines fdOnline speaks) (new : onlines id = none) (fd : Nat)
    (online : OnlineInfo) : Wired (Function.update onlines id (some online))
      (Function.update fdOnline fd (some id)) (Function.update speaks fd (some id)) := by
  have unknown : ∀ other, fdOnline other ≠ some id :=
    fun other there => wired.registered other id there new
  refine ⟨fun other id' there => ?_, fun fd₁ fd₂ id' first second => ?_, fun other id' there => ?_⟩
  · obtain rfl | apart := eq_or_ne other fd
    · rw [Function.update_self] at there
      cases there
      rw [Function.update_self]
      exact Option.some_ne_none online
    · rw [Function.update_of_ne apart] at there
      exact (wired.update id online).registered other id' there
  · obtain rfl | apart := eq_or_ne fd₁ fd
    · rw [Function.update_self] at first
      cases first
      by_contra apart
      rw [Function.update_of_ne (Ne.symm apart)] at second
      exact unknown fd₂ second
    · rw [Function.update_of_ne apart] at first
      obtain rfl | apart' := eq_or_ne fd₂ fd
      · rw [Function.update_self] at second
        cases second
        exact absurd first (unknown fd₁)
      · rw [Function.update_of_ne apart'] at second
        exact wired.once fd₁ fd₂ id' first second
  · obtain rfl | apart := eq_or_ne other fd
    · rw [Function.update_self] at there ⊢
      exact there
    · rw [Function.update_of_ne apart] at there ⊢
      exact wired.speaks other id' there

/-- A connection is forgotten, and with it the server that was known by it. -/
theorem erase (wired : Wired onlines fdOnline speaks) (fd : Nat)
    (gone : ∀ id, onlines id ≠ none → onlines' id = none → fdOnline fd = some id) :
    Wired onlines' (Function.update fdOnline fd none) (Function.update speaks fd none) := by
  refine ⟨fun other id there none => ?_, fun fd₁ fd₂ id first second => ?_,
    fun other id there => ?_⟩
  · obtain rfl | apart := eq_or_ne other fd
    · rw [Function.update_self] at there
      cases there
    · rw [Function.update_of_ne apart] at there
      exact apart (wired.once other fd id there (gone id (wired.registered other id there) none))
  · obtain rfl | apart := eq_or_ne fd₁ fd
    · rw [Function.update_self] at first
      cases first
    · rw [Function.update_of_ne apart] at first
      obtain rfl | apart' := eq_or_ne fd₂ fd
      · rw [Function.update_self] at second
        cases second
      · rw [Function.update_of_ne apart'] at second
        exact wired.once fd₁ fd₂ id first second
  · obtain rfl | apart := eq_or_ne other fd
    · rw [Function.update_self] at there
      cases there
    · rw [Function.update_of_ne apart] at there ⊢
      exact wired.speaks other id there

end Wired

/-! ## The directory -/

/-- All that is known agrees. -/
structure Present (s : Directory) : Prop where
  filled : Filled s.users s.onlines
  counted : Counted s.users (zoneIn s.onlines) s
  wired : Wired s.onlines s.fdOnline s.speaks

namespace Present

/-- Nobody is online at the start. -/
theorem init : Present .init where
  filled := ⟨.nil view, fun id online there => by cases there⟩
  counted := ⟨rfl, rfl, rfl⟩
  wired := by
    refine ⟨fun fd id there => ?_, fun fd fd' id there => ?_, fun fd id there => ?_⟩ <;> cases there

/-- The users all stand in a table entry, so that their number is small. -/
theorem small (present : Present s) : s.users.length < 2 ^ 31 :=
  Nat.lt_of_le_of_lt present.filled.length_le (by decide)

/-- The record of a registered server. -/
theorem online_of_fd (present : Present s) (there : s.fdOnline fd = some id) :
    ∃ online, s.onlines id = some online ∧ online.Valid id := by
  obtain ⟨online, found⟩ := Option.ne_none_iff_exists'.mp (present.wired.registered fd id there)
  exact ⟨online, found, present.filled.valid id online found⟩

/-- A connection of a registered server finds its id. -/
theorem getOnlineId_eq (present : Present s) (there : s.fdOnline fd = some id) :
    s.getOnlineId fd = id ∧ id ≠ noOnline := by
  obtain ⟨online, -, valid⟩ := present.online_of_fd there
  have most := valid.most
  refine ⟨by rw [Directory.getOnlineId, there, Option.getD_some], ?_⟩
  simp only [maxOnlineNum, noOnline] at *
  omega

/-- A connection that closes leaves the users. -/
theorem closed (present : Present s) (fd : Nat) :
    Present { s with speaks := Function.update s.speaks fd none } :=
  ⟨present.filled, ⟨present.counted.online, present.counted.tel, present.counted.net⟩,
    present.wired.closed fd⟩

/-- A server that is not registered. -/
theorem register {zone : Nat} (present : Present s) (new : s.onlines id = none)
    (least : 1 ≤ id) (most : id ≤ maxOnlineNum) (known : zone = telCom ∨ zone = netCom) :
    Present { s.registerOnline fd id zone with
      speaks := Function.update s.speaks fd (some id) } := by
  rw [Directory.registerOnline, new]
  refine ⟨present.filled.register new known least most rfl rfl rfl, ?_,
    present.wired.register new fd _⟩
  refine Counted.congr (?_ : Counted s.users (zoneIn s.onlines) _) fun info member => ?_
  · exact ⟨present.counted.online, present.counted.tel, present.counted.net⟩
  obtain ⟨online, there, -⟩ := present.filled.online_of_mem member
  have apart : info.onlineId ≠ id := fun same => by cases new.symm.trans (same ▸ there)
  exact zoneIn_of_ne apart

/-- A server exits. -/
theorem exit (present : Present s) (fd : Nat) :
    Present { s.clearRegisterOnline fd with speaks := Function.update s.speaks fd none } := by
  rw [Directory.clearRegisterOnline]
  cases there : s.fdOnline fd with
  | none =>
    refine ⟨present.filled, ⟨present.counted.online, present.counted.tel, present.counted.net⟩,
      present.wired.erase fd fun id here gone => absurd gone here⟩
  | some id =>
    obtain ⟨online, found, valid⟩ := present.online_of_fd there
    have least := valid.least
    rw [Option.getD_some, if_neg (by omega)]
    have at_eq : (s.eraseFd fd).onlines id = some online := found
    rw [at_eq]
    dsimp only
    rw [users_eraseUsers]
    have stay : (s.users.filter fun info => ¬ ∃ index < maxNumPerOnline,
        online.userIds index ≠ 0 ∧ online.userIds index = info.userId) =
          s.users.filter fun info => info.onlineId ≠ id := by
      refine List.filter_congr fun info member => ?_
      rw [decide_eq_decide]
      refine not_congr ?_
      exact (present.filled.seated.table_eq_iff
        (congrArg (Option.map OnlineInfo.userIds) found) member).symm
    have zone : zoneIn s.onlines id = online.onlineZone := by
      rw [zoneIn, found, Option.getD_some]
    have wired : Wired (Function.update s.onlines id none) (Function.update s.fdOnline fd none)
        (Function.update s.speaks fd none) := by
      refine present.wired.erase fd fun other here gone => ?_
      obtain rfl | apart := eq_or_ne other id
      · exact there
      · exact absurd ((Function.update_of_ne apart ..).symm.trans gone) here
    have zones : ∀ info ∈ s.users.filter (fun info => info.onlineId ≠ id),
        zoneIn (Function.update s.onlines id none) info.onlineId =
          zoneIn s.onlines info.onlineId :=
      fun info member => zoneIn_of_ne (of_decide_eq_true (List.mem_filter.mp member).2)
    have filled := present.filled.exit id
    have conn := present.filled.countP_eq found
    by_cases telecom : online.onlineZone = telCom
    · rw [if_pos telecom]
      dsimp only [Directory.eraseFd]
      rw [stay]
      refine ⟨filled, Counted.congr ?_ zones, wired⟩
      exact present.counted.exit present.small conn rfl (fun _ => ⟨rfl, rfl⟩)
        fun other => absurd (zone.trans telecom) other
    · rw [if_neg telecom, if_pos (valid.zone.resolve_left telecom)]
      dsimp only [Directory.eraseFd]
      rw [stay]
      refine ⟨filled, Counted.congr ?_ zones, wired⟩
      exact present.counted.exit present.small conn rfl
        (fun here => absurd (zone.symm.trans here) telecom) fun _ => ⟨rfl, rfl⟩

/-- A server without users is forgotten. -/
theorem onlineClosed (present : Present s)
    (idle : ∀ id, s.fdOnline fd = some id → (s.online id).connNum = 0) :
    Present { s.onlineClosed fd with speaks := Function.update s.speaks fd none } := by
  rw [Directory.onlineClosed]
  cases there : s.fdOnline fd with
  | none =>
    exact ⟨present.filled, ⟨present.counted.online, present.counted.tel, present.counted.net⟩,
      present.wired.erase fd fun id here gone => absurd gone here⟩
  | some id =>
    obtain ⟨online, found, valid⟩ := present.online_of_fd there
    have least := valid.least
    rw [Option.getD_some, if_neg (by omega)]
    have at_eq : (s.eraseFd fd).onlines id = some online := found
    rw [at_eq]
    have empty := idle id there
    rw [Directory.online, found, Option.getD_some, ← present.filled.countP_eq found,
      List.countP_eq_zero] at empty
    have elsewhere : ∀ info ∈ s.users, info.onlineId ≠ id := fun info member same =>
      empty info member (decide_eq_true same)
    have filled := present.filled.exit id
    rw [List.filter_eq_self.mpr fun info member => decide_eq_true (elsewhere info member)] at filled
    refine ⟨filled, ?_, present.wired.erase fd fun other here gone => ?_⟩
    · refine Counted.congr (?_ : Counted s.users (zoneIn s.onlines) _) fun info member => ?_
      · exact ⟨present.counted.online, present.counted.tel, present.counted.net⟩
      · exact zoneIn_of_ne (elsewhere info member)
    · obtain rfl | apart := eq_or_ne other id
      · exact there
      · exact absurd ((Function.update_of_ne apart ..).symm.trans gone) here

/-- A known server is not set up again. -/
theorem touch_eq (there : s.onlines id = some online) : s.touch id = s := by
  rw [Directory.touch, Directory.setOnline, Directory.online, there, Option.getD_some, ← there,
    Function.update_eq_self]

/-- A known server is read as it is. -/
theorem online_eq (there : s.onlines id = some online) : s.online id = online := by
  rw [Directory.online, there, Option.getD_some]

/-- A user who is not there yet is put in front. -/
theorem insertUser_eq {index : Nat} (missing : s.findUser userId = none) :
    (s.setOnline id online).insertUser ⟨userId, id, index⟩ =
      { s.setOnline id online with users := ⟨userId, id, index⟩ :: s.users } := by
  have same : (s.setOnline id online).findUser userId = none := missing
  rw [Directory.insertUser, same]
  rfl

/-- A logout takes out the user of this server only. -/
theorem logout (present : Present s) (fd userId : Nat) : Present (s.logoutOnline fd userId) := by
  rw [Directory.logoutOnline]
  cases found : s.findUser userId with
  | none => exact present
  | some info =>
    dsimp only
    split
    · exact present
    · obtain ⟨named, perm⟩ := findUser_eq present.filled.seated.once found
      have filled := present.filled.perm perm
      obtain ⟨online, there, -⟩ := filled.online_of_mem List.mem_cons_self
      have left := filled.leave there
      have counted := present.counted.perm perm
      rw [Directory.leaveOnline, online_eq there]
      have same : zoneIn (Function.update s.onlines info.onlineId (some
          (online.leave info.onlineIndex))) = zoneIn s.onlines := zoneIn_update there rfl
      have after : ((s.setOnline info.onlineId (online.leave info.onlineIndex)).online
          info.onlineId).onlineZone = zoneIn s.onlines info.onlineId := congrFun same _
      rw [after]
      dsimp only [Directory.eraseUser, Directory.setOnline]
      by_cases telecom : zoneIn s.onlines info.onlineId = telCom
      · rw [if_pos telecom]
        refine ⟨left, ?_, present.wired.update _ _⟩
        rw [same]
        exact counted.leave rfl (fun _ => ⟨rfl, rfl⟩) fun other => absurd telecom other
      · rw [if_neg telecom]
        refine ⟨left, ?_, present.wired.update _ _⟩
        rw [same]
        exact counted.leave rfl (fun here => absurd here telecom) fun _ => ⟨rfl, rfl⟩

/-- A user who is not online. -/
theorem login_new (present : Present s) (there : s.fdOnline fd = some id) (named : userId ≠ 0)
    (missing : s.findUser userId = none) (room : (s.online id).connNum < maxNumPerOnline) :
    Present (s.loginOnline fd userId) ∧
      ∃ info ∈ (s.loginOnline fd userId).users, info.userId = userId ∧ info.onlineId = id := by
  obtain ⟨known, real⟩ := present.getOnlineId_eq there
  obtain ⟨online, found, valid⟩ := present.online_of_fd there
  rw [online_eq found] at room
  obtain ⟨index, within, free, added⟩ := addUserToOnlineMap_eq found valid named room
  have same : zoneIn (Function.update s.onlines id (some (online.enter index userId))) =
      zoneIn s.onlines := zoneIn_update found rfl
  have entered : Filled (⟨userId, id, index⟩ :: s.users)
      (Function.update s.onlines id (some (online.enter index userId))) :=
    present.filled.enter ⟨userId, id, index⟩ found within free named
      (findUser_eq_none missing)
  have come : ((s.setOnline id (online.enter index userId)).insertUser
      ⟨userId, id, index⟩).touch id = { s.setOnline id (online.enter index userId) with
        users := ⟨userId, id, index⟩ :: s.users } := by
    rw [insertUser_eq missing]
    exact touch_eq (Function.update_self ..)
  have zone : (({ s.setOnline id (online.enter index userId) with
      users := ⟨userId, id, index⟩ :: s.users } : Directory).online id).onlineZone =
        zoneIn s.onlines id := congrFun same id
  rw [Directory.loginOnline, known]
  dsimp only
  rw [if_neg real, missing]
  rw [added]
  rw [if_neg (by omega), come, zone]
  have small := present.small
  by_cases telecom : zoneIn s.onlines id = telCom
  · rw [if_pos telecom]
    refine ⟨⟨entered, ?_, present.wired.update _ _⟩, _, List.mem_cons_self, rfl, rfl⟩
    dsimp only [Directory.setOnline]
    rw [same]
    exact present.counted.enter small rfl (fun _ => ⟨rfl, rfl⟩) fun other => absurd telecom other
  · rw [if_neg telecom]
    refine ⟨⟨entered, ?_, present.wired.update _ _⟩, _, List.mem_cons_self, rfl, rfl⟩
    dsimp only [Directory.setOnline]
    rw [same]
    exact present.counted.enter small rfl (fun here => absurd here telecom) fun _ => ⟨rfl, rfl⟩

/-- A kick is only a message to the server. -/
theorem kickUser_eq (onlineId userId : Nat) :
    ∃ sent, s.kickUser onlineId userId = { s with sent := sent } := by
  rw [Directory.kickUser]
  split
  · exact ⟨s.sent, rfl⟩
  · exact ⟨_, rfl⟩

/-- A change of zones touches the two counters only. -/
theorem changeZone_eq (oldZone newZone : Nat) : ∃ tel net, s.changeZone oldZone newZone =
    { s with telOnlineNum := tel, netOnlineNum := net } := by
  rw [Directory.changeZone]
  split
  · split
    · exact ⟨_, _, rfl⟩
    · exact ⟨_, _, rfl⟩
  · exact ⟨s.telOnlineNum, s.netOnlineNum, rfl⟩

/-- The entry of a user is replaced. -/
theorem moveUser_perm {index : Nat} (once : (s.users.map UserInfo.userId).Nodup)
    (found : s.findUser userId = some info) : (s.moveUser userId id index).users.Perm
      (⟨userId, id, index⟩ :: s.users.filter fun other => other.userId ≠ userId) := by
  obtain ⟨named, perm⟩ := findUser_eq once found
  have moved := perm.map fun info : UserInfo =>
    if info.userId = userId then ⟨userId, id, index⟩ else info
  rw [List.map_cons, if_pos named] at moved
  have others : (s.users.filter fun other => other.userId ≠ userId).map (fun info : UserInfo =>
      if info.userId = userId then ⟨userId, id, index⟩ else info) =
        s.users.filter fun other => other.userId ≠ userId := by
    refine (List.map_congr_left fun info member => ?_).trans (List.map_id _)
    exact if_neg (of_decide_eq_true (List.mem_filter.mp member).2)
  rw [others] at moved
  exact moved

/-- A user who is online elsewhere. -/
theorem login_again (present : Present s) (there : s.fdOnline fd = some id) (named : userId ≠ 0)
    (found : s.findUser userId = some info) (apart : id ≠ info.onlineId)
    (room : (s.online id).connNum < maxNumPerOnline) :
    Present (s.loginOnline fd userId) ∧
      ∃ info ∈ (s.loginOnline fd userId).users, info.userId = userId ∧ info.onlineId = id := by
  obtain ⟨known, real⟩ := present.getOnlineId_eq there
  obtain ⟨new, here, valid⟩ := present.online_of_fd there
  have once := present.filled.seated.once
  obtain ⟨own, perm⟩ := findUser_eq once found
  have filled := present.filled.perm perm
  have counted := present.counted.perm perm
  obtain ⟨old, elsewhere, -⟩ := filled.online_of_mem List.mem_cons_self
  have oldValid := filled.valid _ old elsewhere
  have small := present.small
  rw [perm.length_eq, List.length_cons] at small
  rw [online_eq here] at room
  -- the new server is as it was after the user has left the old one
  have left := filled.leave elsewhere
  have still : Function.update s.onlines info.onlineId (some (old.leave info.onlineIndex)) id =
      some new := (Function.update_of_ne apart ..).trans here
  obtain ⟨sent, kicked⟩ := @kickUser_eq s info.onlineId userId
  obtain ⟨tel, net, changed⟩ := @changeZone_eq { s with sent := sent }
    (zoneIn s.onlines info.onlineId) (zoneIn s.onlines id)
  let t : Directory := { s with
    sent := sent, telOnlineNum := tel, netOnlineNum := net
    onlines := Function.update s.onlines info.onlineId (some (old.leave info.onlineIndex)) }
  obtain ⟨index, within, free, added⟩ := addUserToOnlineMap_eq (s := t) still valid named room
  have entered : Filled (⟨userId, id, index⟩ :: s.users.filter fun other => other.userId ≠ userId)
      (Function.update t.onlines id (some (new.enter index userId))) := by
    refine left.enter ⟨userId, id, index⟩ still within free named fun member => ?_
    obtain ⟨other, there, same⟩ := List.mem_map.mp member
    exact of_decide_eq_true (List.mem_filter.mp there).2 same
  have moved : (((t.setOnline id (new.enter index userId)).moveUser userId id index).users).Perm
      (⟨userId, id, index⟩ :: s.users.filter fun other => other.userId ≠ userId) :=
    @moveUser_perm (t.setOnline id (new.enter index userId)) info id userId index once found
  have logged : s.loginOnline fd userId =
      (t.setOnline id (new.enter index userId)).moveUser userId id index := by
    have back : ({ s with sent := sent } : Directory).touch id = { s with sent := sent } :=
      touch_eq here
    have shifted : ({ s with sent := sent } : Directory).changeZone
        (({ s with sent := sent } : Directory).online info.onlineId).onlineZone
        (({ s with sent := sent } : Directory).online id).onlineZone =
          { s with sent := sent, telOnlineNum := tel, netOnlineNum := net } := changed
    have gone : ({ s with sent := sent, telOnlineNum := tel, netOnlineNum := net } :
        Directory).leaveOnline info.onlineId info.onlineIndex = t := by
      have online : ({ s with sent := sent, telOnlineNum := tel, netOnlineNum := net } :
          Directory).online info.onlineId = old := online_eq elsewhere
      rw [Directory.leaveOnline, online]
      rfl
    rw [Directory.loginOnline, known]
    rw [if_neg real, found]
    dsimp only
    rw [if_neg apart, touch_eq elsewhere, kicked, back, shifted, gone, added]
    rw [if_neg (by omega)]
  have zones : Counted (⟨userId, id, index⟩ :: s.users.filter fun other => other.userId ≠ userId)
      (zoneIn s.onlines) { s with sent := sent, telOnlineNum := tel, netOnlineNum := net } := by
    have before : Counted (info :: s.users.filter fun other => other.userId ≠ userId)
        (zoneIn s.onlines) { s with sent := sent } := ⟨counted.online, counted.tel, counted.net⟩
    have after := before.move ⟨userId, id, index⟩ (by omega) ?_ ?_
    · exact changed ▸ after
    · rw [zoneIn, elsewhere]
      exact oldValid.zone
    · rw [zoneIn, here]
      exact valid.zone
  have same : zoneIn (Function.update t.onlines id (some (new.enter index userId))) =
      zoneIn s.onlines := by
    have first : zoneIn t.onlines = zoneIn s.onlines := zoneIn_update elsewhere rfl
    rw [← first]
    exact zoneIn_update still rfl
  rw [logged]
  refine ⟨⟨entered.perm moved.symm, ?_, ?_⟩, _, moved.mem_iff.mpr List.mem_cons_self, rfl, rfl⟩
  · refine Counted.perm ?_ moved.symm
    dsimp only [Directory.moveUser, Directory.setOnline]
    rw [same]
    exact ⟨zones.online, zones.tel, zones.net⟩
  · exact (present.wired.update _ _).update _ _

/-- Nothing happens when a user logs in again at the same server. -/
theorem loginOnline_of_same (present : Present s) (there : s.fdOnline fd = some id)
    (found : s.findUser userId = some info) (same : info.onlineId = id) :
    s.loginOnline fd userId = s := by
  obtain ⟨known, real⟩ := present.getOnlineId_eq there
  rw [Directory.loginOnline, known]
  rw [if_neg real, found]
  exact if_pos same.symm

/-- A user logs in on a server with room and is registered there once. -/
theorem login (present : Present s) (there : s.fdOnline fd = some id) (named : userId ≠ 0)
    (room : (∃ info ∈ s.users, info.userId = userId ∧ info.onlineId = id) ∨
      (s.online id).connNum < maxNumPerOnline) :
    Present (s.loginOnline fd userId) ∧
      ∃ info ∈ (s.loginOnline fd userId).users, info.userId = userId ∧ info.onlineId = id := by
  cases found : s.findUser userId with
  | none =>
    refine present.login_new there named found (room.resolve_left ?_)
    rintro ⟨info, member, named, -⟩
    exact findUser_eq_none found (List.mem_map.mpr ⟨info, member, named⟩)
  | some info =>
    obtain ⟨own, perm⟩ := findUser_eq present.filled.seated.once found
    have member := perm.mem_iff.mpr (List.mem_cons_self (a := info))
    by_cases same : info.onlineId = id
    · rw [present.loginOnline_of_same there found same]
      exact ⟨present, info, member, own, same⟩
    · refine present.login_again there named found (Ne.symm same) (room.resolve_left ?_)
      rintro ⟨other, member', named', elsewhere⟩
      have one : other = info := present.filled.seated.eq_of_key member' member
        (named'.trans own.symm)
      exact same (one ▸ elsewhere)

/-- Who logs out of the server where he is, is gone. -/
theorem gone_of_logout (present : Present s) (there : s.fdOnline fd = some id)
    (here : ∃ info ∈ s.users, info.userId = userId ∧ info.onlineId = id) :
    userId ∉ (s.logoutOnline fd userId).users.map UserInfo.userId := by
  obtain ⟨info, member, own, place⟩ := here
  cases found : s.findUser userId with
  | none => exact absurd (List.mem_map.mpr ⟨info, member, own⟩) (findUser_eq_none found)
  | some other =>
    obtain ⟨own', perm⟩ := findUser_eq present.filled.seated.once found
    have one : other = info := present.filled.seated.eq_of_key
      (perm.mem_iff.mpr List.mem_cons_self) member (own'.trans own.symm)
    have known := (present.getOnlineId_eq there).1
    rw [Directory.logoutOnline, found]
    dsimp only
    rw [if_neg (not_not.mpr (by rw [one, place, known]))]
    intro left
    obtain ⟨last, member, same⟩ := List.mem_map.mp left
    exact of_decide_eq_true (List.mem_filter.mp member).2 same

end Present

end

namespace Directory

/-- A server registers after it has exited, once on a connection, and is forgotten only without
users. A server where a user logs in has a free slot. -/
def Fits (s : Directory) : Message → Prop
  | .register fd onlineId zone => (s.onlines onlineId).isNone = true ∧ s.speaks fd = none ∧
    1 ≤ onlineId ∧ onlineId ≤ maxOnlineNum ∧ (zone = telCom ∨ zone = netCom)
  | .exit _ => True
  | .closed _ => True
  | .onlineClosed fd => ∀ id ∈ s.fdOnline fd, (s.online id).connNum = 0
  | .login fd userId => ∀ id ∈ s.fdOnline fd, userId ≠ 0 ∧
    ((∃ info ∈ s.users, info.userId = userId ∧ info.onlineId = id) ∨
      (s.online id).connNum < maxNumPerOnline)
  | .logout _ _ => True

variable {s : Directory}

/-- Every message that fits keeps everyone present as registered. -/
theorem present_step (present : Present s) {message : Message} (fits : Fits s message) :
    Present (s.step message) := by
  cases message with
  | register fd onlineId zone =>
    obtain ⟨new, -, least, most, known⟩ := fits
    exact present.register (Option.isNone_iff_eq_none.mp new) least most known
  | exit fd => exact present.exit fd
  | closed fd => exact present.closed fd
  | onlineClosed fd => exact present.onlineClosed fits
  | login fd userId =>
    cases there : s.fdOnline fd with
    | none =>
      have unknown : s.loginOnline fd userId = s := by
        rw [loginOnline, getOnlineId, there]
        exact if_pos rfl
      change Present (s.loginOnline fd userId)
      rw [unknown]
      exact present
    | some id =>
      obtain ⟨named, room⟩ := fits id there
      exact (present.login there named room).1
  | logout fd userId => exact present.logout fd userId

/-- In every run of messages that fit, users, slots and counters agree, and who comes or goes is
recorded under the server that tells. -/
theorem present_of_fits (run : Reaches step Fits .init s) :
    (s.users.map UserInfo.userId).Nodup ∧
      (∀ info ∈ s.users, info.onlineIndex < maxNumPerOnline ∧
        ∃ online, s.onlines info.onlineId = some online ∧
          online.userIds info.onlineIndex = info.userId) ∧
      (∀ id online, s.onlines id = some online →
        online.connNum = used maxNumPerOnline 0 online.userIds) ∧
      s.onlineUserNum = s.users.length ∧
      s.onlineUserNum = s.telOnlineNum + s.netOnlineNum ∧
      (∀ fd id userId, s.speaks fd = some id → Fits s (.login fd userId) →
        ∃ info ∈ (s.step (.login fd userId)).users,
          info.userId = userId ∧ info.onlineId = id) ∧
      ∀ fd id userId, s.speaks fd = some id →
        (∃ info ∈ s.users, info.userId = userId ∧ info.onlineId = id) →
        userId ∉ (s.step (.logout fd userId)).users.map UserInfo.userId := by
  have present : Present s := by
    apply run.invariant
    · exact .init
    · exact fun present fits => present_step present fits
  refine ⟨present.filled.seated.once, fun info member => ?_, fun id online there => ?_,
    present.counted.online, present.counted.sum, fun fd id userId speaks fits => ?_,
    fun fd id userId speaks here => ?_⟩
  · obtain ⟨online, there, within, here, -⟩ := present.filled.online_of_mem member
    exact ⟨within, online, there, here⟩
  · exact (present.filled.valid id online there).conn
  · have there := present.wired.speaks fd id speaks
    obtain ⟨named, room⟩ := fits id there
    exact (present.login there named room).2
  · exact present.gone_of_logout (present.wired.speaks fd id speaks) here

instance Fits.decidable (s : Directory) : ∀ message, Decidable (Fits s message)
  | .register fd onlineId zone => inferInstanceAs (Decidable ((s.onlines onlineId).isNone = true ∧
    s.speaks fd = none ∧ 1 ≤ onlineId ∧ onlineId ≤ maxOnlineNum ∧
      (zone = telCom ∨ zone = netCom)))
  | .exit _ => inferInstanceAs (Decidable True)
  | .closed _ => inferInstanceAs (Decidable True)
  | .onlineClosed fd =>
    inferInstanceAs (Decidable (∀ id ∈ s.fdOnline fd, (s.online id).connNum = 0))
  | .login fd userId => inferInstanceAs (Decidable (∀ id ∈ s.fdOnline fd, userId ≠ 0 ∧
    ((∃ info ∈ s.users, info.userId = userId ∧ info.onlineId = id) ∨
      (s.online id).connNum < maxNumPerOnline)))
  | .logout _ _ => inferInstanceAs (Decidable True)

/-- Four users on two servers: one moves over, a connection closes, a server registers again. -/
theorem present_of_fits_four :
    let s := List.foldl step init [.register 5 1 telCom, .register 6 2 netCom, .login 5 100,
      .login 5 101, .login 6 100, .login 6 102, .logout 5 100, .logout 5 101, .closed 5,
      .exit 6, .register 7 2 telCom, .login 7 103]
    (s.users.map UserInfo.userId).Nodup ∧
      (∀ info ∈ s.users, info.onlineIndex < maxNumPerOnline ∧
        ∃ online, s.onlines info.onlineId = some online ∧
          online.userIds info.onlineIndex = info.userId) ∧
      (∀ id online, s.onlines id = some online →
        online.connNum = used maxNumPerOnline 0 online.userIds) ∧
      s.onlineUserNum = s.users.length ∧
      s.onlineUserNum = s.telOnlineNum + s.netOnlineNum ∧
      (∀ fd id userId, s.speaks fd = some id → Fits s (.login fd userId) →
        ∃ info ∈ (s.step (.login fd userId)).users,
          info.userId = userId ∧ info.onlineId = id) ∧
      ∀ fd id userId, s.speaks fd = some id →
        (∃ info ∈ s.users, info.userId = userId ∧ info.onlineId = id) →
        userId ∉ (s.step (.logout fd userId)).users.map UserInfo.userId :=
  present_of_fits (Reaches.refl.follow (by decide +kernel))

/-- A server that comes back on another connection is not listened to. -/
theorem returned_server_unknown : ∃ s : Directory, Reaches step (fun _ _ => True) .init s ∧
    ¬ ∀ fd id userId, s.speaks fd = some id → ∃ info ∈ (s.step (.login fd userId)).users,
      info.userId = userId ∧ info.onlineId = id := by
  refine ⟨List.foldl step init [.register 5 1 telCom, .closed 5, .register 6 1 telCom],
    Reaches.of_list fun _ _ _ => trivial, fun recorded => ?_⟩
  obtain ⟨info, member, -⟩ := recorded 6 1 100 (by decide +kernel)
  have none : (List.foldl step init [.register 5 1 telCom, .closed 5, .register 6 1 telCom,
      .login 6 100]).users = [] := by decide +kernel
  exact absurd (none ▸ member) List.not_mem_nil

end Directory

end Taomee.Monster.Switch
