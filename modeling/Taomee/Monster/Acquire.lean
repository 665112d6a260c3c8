import Mathlib.Data.List.MinMax
import Mathlib.Data.Nat.Order.Lemmas
import Taomee.Monster.Switch

/-!
# An online server for a user

A client asks the switch for a server of its network. It is told the address of the one with the
fewest users among the servers registered, which are tried in the order of their ids.
-/

namespace Taomee.Monster.Switch

/-- `online_info_t` with the address of the server. -/
structure Registered extends OnlineInfo where
  onlineIp : List UInt8
  onlinePort : UInt16

/-- `m_online_info_map`. -/
structure OnlineMap where
  infos : List (Nat × Registered)
  sorted : infos.Pairwise fun first second => first.1 < second.1

/-- What the client is sent; `undefined` stands for an entry read behind the end of the map. -/
inductive Acquired where
  | address (onlineIp : List UInt8) (onlinePort : UInt16)
  | errMsgLen
  | errNoAvailableOnline
  | undefined
  deriving DecidableEq

/-- The loop over the servers behind the first candidate; `least_num` is the number of users on
`least`. -/
def leastOnline (telOrNet : Nat) : Registered → List (Nat × Registered) → Registered
  | least, [] => least
  | least, (_, info) :: rest =>
    if info.onlineZone ≠ telOrNet then leastOnline telOrNet least rest
    else if info.connNum < least.connNum then leastOnline telOrNet info rest
    else leastOnline telOrNet least rest

/-- What is sent of the server with the fewest users. The buffer has room for it. -/
def answer (least : Registered) : Acquired :=
  if maxNumPerOnline ≤ least.connNum then .errNoAvailableOnline
  else .address least.onlineIp least.onlinePort

/-- `acquire_available_online` for a body that has the right length. -/
def acquire (onlines : OnlineMap) (telOrNet : Nat) : Acquired :=
  match onlines.infos with
  | [] => .errNoAvailableOnline
  | (_, first) :: rest =>
    if first.onlineZone ≠ telOrNet then
      -- the next one is taken as it is
      match rest with
      | [] => .undefined
      | (_, second) :: rest => answer (leastOnline telOrNet second rest)
    else answer (leastOnline telOrNet first rest)

def acquireAvailableOnline (onlines : OnlineMap) (body : List UInt8) : Acquired :=
  match body with
  | [telOrNet] => acquire onlines telOrNet.toNat
  | _ => .errMsgLen

/-! ## What the choice is for -/

namespace OnlineMap

variable (onlines : OnlineMap) (telOrNet : Nat)

/-- The servers of a network. -/
def ofZone : List Registered :=
  (onlines.infos.map Prod.snd).filter fun info => info.onlineZone = telOrNet

/-- The address is that of a server of the network with the fewest users. -/
def Least (onlineIp : List UInt8) (onlinePort : UInt16) : Prop :=
  ∃ info ∈ onlines.ofZone telOrNet, info.onlineIp = onlineIp ∧ info.onlinePort = onlinePort ∧
    ∀ other ∈ onlines.ofZone telOrNet, info.connNum ≤ other.connNum

def Full : Prop := ∀ info ∈ onlines.ofZone telOrNet, maxNumPerOnline ≤ info.connNum

/-- The address of a server with the fewest users, or that there is none because all are full. -/
def Right : Acquired → Prop
  | .address onlineIp onlinePort => onlines.Least telOrNet onlineIp onlinePort ∧
      ¬ onlines.Full telOrNet
  | .errNoAvailableOnline => onlines.Full telOrNet
  | .errMsgLen | .undefined => False

def Served : Prop := onlines.Right telOrNet (acquire onlines telOrNet)

/-- A server that is taken without a look at its network does not win: a server of the network has
fewer users, or it is full as they all are, or it has the address of the right one. -/
def Beaten (second : Registered) (rest : List (Nat × Registered)) : Prop :=
  (∃ info ∈ rest, info.2.onlineZone = telOrNet ∧ info.2.connNum < second.connNum) ∨
    maxNumPerOnline ≤ second.connNum ∨
    onlines.Least telOrNet second.onlineIp second.onlinePort ∧ ¬ onlines.Full telOrNet

/-- One of the first two servers is of the network, or the second one does not win. -/
def Begins : Prop :=
  match onlines.infos with
  | [] => True
  | [(_, first)] => first.onlineZone = telOrNet
  | (_, first) :: (_, second) :: rest =>
    first.onlineZone = telOrNet ∨ second.onlineZone = telOrNet ∨
      onlines.Beaten telOrNet second rest

end OnlineMap

/-! ## The servers in a row -/

section

variable {onlines : OnlineMap} {telOrNet id : Nat} {least info first second : Registered}
  {rest : List (Nat × Registered)}

theorem leastOnline_le_self (telOrNet : Nat) (least : Registered) (rest : List (Nat × Registered)) :
    (leastOnline telOrNet least rest).connNum ≤ least.connNum := by
  induction rest generalizing least with
  | nil => exact Nat.le_refl _
  | cons entry rest hyp =>
    rw [leastOnline]
    split
    · exact hyp least
    · split
      · next fewer => exact Nat.le_trans (hyp entry.2) (Nat.le_of_lt fewer)
      · exact hyp least

/-- No server of the network that is looked at has fewer users. -/
theorem leastOnline_le (member : (id, info) ∈ rest) (zone : info.onlineZone = telOrNet) :
    (leastOnline telOrNet least rest).connNum ≤ info.connNum := by
  induction rest generalizing least with
  | nil => cases member
  | cons entry rest hyp =>
    obtain rfl | member := List.mem_cons.mp member
    · rw [leastOnline, if_neg (not_not.mpr zone)]
      split
      · exact leastOnline_le_self telOrNet info rest
      · next more => exact Nat.le_trans (leastOnline_le_self _ _ _) (Nat.le_of_not_lt more)
    · rw [leastOnline]
      split
      · exact hyp member
      · split
        · exact hyp member
        · exact hyp member

/-- The loop ends with its candidate, or with a server of the network that has fewer users. -/
theorem leastOnline_cases (telOrNet : Nat) (least : Registered) (rest : List (Nat × Registered)) :
    leastOnline telOrNet least rest = least ∨
      ∃ entry ∈ rest, leastOnline telOrNet least rest = entry.2 ∧
        entry.2.onlineZone = telOrNet ∧ entry.2.connNum < least.connNum := by
  induction rest generalizing least with
  | nil => exact .inl rfl
  | cons entry rest hyp =>
    rw [leastOnline]
    split
    · refine (hyp least).imp_right ?_
      rintro ⟨found, member, same, zone, fewer⟩
      exact ⟨found, List.mem_cons_of_mem _ member, same, zone, fewer⟩
    · next zone =>
      split
      · next fewer =>
        obtain same | ⟨found, member, same, zone', fewer'⟩ := hyp entry.2
        · exact .inr ⟨entry, List.mem_cons_self, same, not_not.mp zone, fewer⟩
        · exact .inr ⟨found, List.mem_cons_of_mem _ member, same, zone',
            Nat.lt_trans fewer' fewer⟩
      · refine (hyp least).imp_right ?_
        rintro ⟨found, member, same, zone, fewer⟩
        exact ⟨found, List.mem_cons_of_mem _ member, same, zone, fewer⟩

theorem mem_ofZone : info ∈ onlines.ofZone telOrNet ↔
    (∃ id, (id, info) ∈ onlines.infos) ∧ info.onlineZone = telOrNet := by
  rw [OnlineMap.ofZone, List.mem_filter, List.mem_map, decide_eq_true_eq]
  refine and_congr_left fun _ => ⟨?_, ?_⟩
  · rintro ⟨⟨id, info⟩, member, rfl⟩
    exact ⟨id, member⟩
  · rintro ⟨id, member⟩
    exact ⟨(id, info), member, rfl⟩

theorem exists_mem_cons : (∃ other, (other, info) ∈ (id, first) :: rest) ↔
    info = first ∨ ∃ other, (other, info) ∈ rest := by
  constructor
  · rintro ⟨other, member⟩
    obtain same | member := List.mem_cons.mp member
    · exact .inl (congrArg Prod.snd same)
    · exact .inr ⟨other, member⟩
  · rintro (rfl | ⟨other, member⟩)
    · exact ⟨id, List.mem_cons_self⟩
    · exact ⟨other, List.mem_cons_of_mem _ member⟩

theorem mem_ofZone_cons {sorted} : info ∈ OnlineMap.ofZone ⟨(id, first) :: rest, sorted⟩ telOrNet ↔
    (info = first ∨ ∃ other, (other, info) ∈ rest) ∧ info.onlineZone = telOrNet := by
  rw [mem_ofZone, exists_mem_cons]

theorem right_answer_iff : onlines.Right telOrNet (answer least) ↔
    if maxNumPerOnline ≤ least.connNum then onlines.Full telOrNet
    else onlines.Least telOrNet least.onlineIp least.onlinePort ∧ ¬ onlines.Full telOrNet := by
  rw [answer]
  split
  · rfl
  · rfl

/-- The answer is right if its server is of the network and none of the network has fewer users. -/
theorem served_of_least (chosen : acquire onlines telOrNet = answer least)
    (member : least ∈ onlines.ofZone telOrNet)
    (fewest : ∀ other ∈ onlines.ofZone telOrNet, least.connNum ≤ other.connNum) :
    onlines.Served telOrNet := by
  rw [OnlineMap.Served, chosen, right_answer_iff]
  split
  · next full => exact fun other there => Nat.le_trans full (fewest other there)
  · next room => exact ⟨⟨least, member, rfl, rfl, fewest⟩, fun full => room (full least member)⟩

/-- The choice is right if its first candidate is of the network. -/
theorem served_of_zone (chosen : acquire onlines telOrNet = answer (leastOnline telOrNet least rest))
    (zone : least.onlineZone = telOrNet) (all : ∀ info, info ∈ onlines.ofZone telOrNet ↔
      info = least ∨ (∃ id, (id, info) ∈ rest) ∧ info.onlineZone = telOrNet) :
    onlines.Served telOrNet := by
  refine served_of_least chosen ((all _).mpr ?_) fun other there => ?_
  · obtain same | ⟨entry, member, same, zone, -⟩ := leastOnline_cases telOrNet least rest
    · exact .inl same
    · exact .inr ⟨⟨entry.1, same ▸ member⟩, same ▸ zone⟩
  · obtain rfl | ⟨⟨id, member⟩, zone⟩ := (all other).mp there
    · exact leastOnline_le_self telOrNet _ rest
    · exact leastOnline_le member zone

/-- If the first server is of the network, it and those behind it are looked at. -/
theorem served_of_first {sorted} (zone : first.onlineZone = telOrNet) :
    OnlineMap.Served ⟨(id, first) :: rest, sorted⟩ telOrNet := by
  refine served_of_zone (if_neg (not_not.mpr zone)) zone
    fun info => ?_
  rw [mem_ofZone_cons, or_and_right, and_iff_left_of_imp]
  rintro rfl
  exact zone

/-- The choice behind a candidate of another network. -/
theorem served_iff_beaten
    (chosen : acquire onlines telOrNet = answer (leastOnline telOrNet second rest))
    (all : ∀ info, info ∈ onlines.ofZone telOrNet ↔
      (∃ id, (id, info) ∈ rest) ∧ info.onlineZone = telOrNet) :
    onlines.Served telOrNet ↔ onlines.Beaten telOrNet second rest := by
  obtain same | ⟨entry, member, same, zone, fewer⟩ := leastOnline_cases telOrNet second rest
  · have fewest (other) (there : other ∈ onlines.ofZone telOrNet) :
        second.connNum ≤ other.connNum := by
      obtain ⟨⟨id, member⟩, zone⟩ := (all other).mp there
      have bound := @leastOnline_le _ _ second _ _ member zone
      rwa [same] at bound
    rw [OnlineMap.Served, chosen, same, right_answer_iff, OnlineMap.Beaten, or_iff_right]
    · split
      · next full =>
        exact iff_of_true (fun other there => Nat.le_trans full (fewest other there)) (.inl full)
      · next room => exact (or_iff_right room).symm
    · rintro ⟨entry, member, zone, fewer⟩
      have bound := fewest entry.2 ((all _).mpr ⟨⟨entry.1, member⟩, zone⟩)
      omega
  · refine iff_of_true ?_ (.inl ⟨entry, member, zone, fewer⟩)
    refine @served_of_least _ _ entry.2 (same ▸ chosen) ((all _).mpr ⟨⟨_, member⟩, zone⟩)
      fun other there => ?_
    obtain ⟨⟨id, member⟩, zone⟩ := (all other).mp there
    rw [← same]
    exact leastOnline_le member zone

end

/-- For all servers that are registered and every network: the client is sent the right address or
told that there is none if and only if one of the first two servers is of the network or the second
one does not win. -/
theorem served_iff_begins (onlines : OnlineMap) (telOrNet : Nat) :
    onlines.Served telOrNet ↔ onlines.Begins telOrNet := by
  obtain ⟨infos, sorted⟩ := onlines
  match infos, sorted with
  | [], sorted =>
    exact iff_of_true (fun info there => absurd there List.not_mem_nil) trivial
  | (id, first) :: rest, sorted =>
    by_cases zone : first.onlineZone = telOrNet
    · refine iff_of_true (served_of_first zone) ?_
      cases rest with
      | nil => exact zone
      | cons => exact .inl zone
    · match rest with
      | [] =>
        refine iff_of_false (fun served => ?_) zone
        have behind : acquire ⟨[(id, first)], sorted⟩ telOrNet = .undefined := if_pos zone
        rw [OnlineMap.Served, behind] at served
        exact served
      | (id', second) :: rest =>
        have chosen : acquire ⟨(id, first) :: (id', second) :: rest, sorted⟩ telOrNet =
            answer (leastOnline telOrNet second rest) := if_pos zone
        have others (info : Registered) :
            info ∈ OnlineMap.ofZone ⟨(id, first) :: (id', second) :: rest, sorted⟩ telOrNet ↔
              (info = second ∨ ∃ id, (id, info) ∈ rest) ∧ info.onlineZone = telOrNet := by
          rw [mem_ofZone_cons, exists_mem_cons]
          refine and_congr_left fun there => or_iff_right ?_
          rintro rfl
          exact zone there
        by_cases zone' : second.onlineZone = telOrNet
        · refine iff_of_true (served_of_zone chosen zone' fun info => ?_) (.inr (.inl zone'))
          rw [others, or_and_right, and_iff_left_of_imp]
          rintro rfl
          exact zone'
        · refine (served_iff_beaten chosen fun info => ?_).trans
            ((or_iff_right zone).trans (or_iff_right zone')).symm
          rw [others]
          refine and_congr_left fun there => or_iff_right ?_
          rintro rfl
          exact zone' there

/-- A server without users, at port `port`. -/
def idle (id zone : Nat) (port : UInt16) : Registered :=
  { OnlineInfo.zero with
    onlineId := id, onlineZone := zone, onlineIp := List.replicate 16 0, onlinePort := port }

/-- Two servers of the first network in front of one of the second. -/
def telFirst : OnlineMap := ⟨[(1, idle 1 telCom 80), (2, idle 2 telCom 81), (3, idle 3 netCom 82)],
  by decide⟩

/-- A user of the second network is sent to a server of the first. -/
theorem not_served_telFirst :
    acquireAvailableOnline telFirst [1] = .address (List.replicate 16 0) 81 ∧
      ¬ telFirst.Served netCom := by
  refine ⟨by decide, fun served => ?_⟩
  obtain ⟨⟨info, member, -, port, -⟩, -⟩ := served
  rw [mem_ofZone] at member
  obtain ⟨⟨id, member⟩, zone⟩ := member
  simp only [telFirst, List.mem_cons, List.not_mem_nil, or_false, Prod.mk.injEq] at member
  obtain ⟨-, rfl⟩ | ⟨-, rfl⟩ | ⟨-, rfl⟩ := member
  · exact absurd zone (by decide)
  · exact absurd zone (by decide)
  · exact absurd port (by decide)

end Taomee.Monster.Switch
