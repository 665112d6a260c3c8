import Mathlib.Algebra.Order.Ring.Int
import Taomee.Pea.BagSound

/-!
# pea: the npc shops

What a player buys or redeems is planned into the stacks of the item and then into empty cells;
what is left to plan is an `int32_t` that is reduced by unsigned counts.
-/

namespace Taomee.Pea

open FreeList Runs

/-- `db_add_item_request_t`. -/
structure AddItemRequest where
  gridIndex : Nat
  itemId : Nat
  itemCount : UInt32
  getTime : Nat
  expireTime : Nat

/-- `db_del_item_request_t`. -/
structure DelItemRequest where
  gridIndex : Nat
  itemId : Nat
  itemCount : UInt32

namespace Bag

/-- The items met along `p_next_item`. -/
def heapsFrom (s : Bag) : Nat → Addr → List Item
  | 0, _ => []
  | fuel + 1, a => (s.items a).elim [] fun item => item :: heapsFrom s fuel item.next

def heaps (s : Bag) (itemId : Nat) : List Item :=
  s.heapsFrom s.maxGridCount (s.getFirstItem itemId)

def emptyCells (s : Bag) : List Nat := s.cells.filter fun index => s.grid index = 0

end Bag

/-- What one place takes of what is left. -/
def taken (room remain : UInt32) : UInt32 := if room > remain then remain else room

/-- The loop over the heaps, up to a full one; nothing is left when all is planned. -/
def planHeaps (expireTime : Nat) : List Item → UInt32 → List AddItemRequest × Option UInt32
  | [], remain => ([], some remain)
  | item :: rest, remain =>
    let count := item.getCurRemainHeapCount
    if count = 0 then ([], some remain)
    else
      let info : AddItemRequest :=
        ⟨item.bagIndex, item.data.itemId, taken count remain, item.getTime, expireTime⟩
      let left := remain - count
      if left.toInt32 ≤ 0 then ([info], none)
      else ((info :: (planHeaps expireTime rest left).1), (planHeaps expireTime rest left).2)

/-- The loop over the empty cells. -/
def planCells (data : ItemData) (now expireTime : Nat) :
    List Nat → UInt32 → Option (List AddItemRequest)
  | [], _ => none
  | index :: rest, remain =>
    let info : AddItemRequest :=
      ⟨index, data.itemId, taken data.maxHeapNum remain, now, expireTime⟩
    let left := remain - data.maxHeapNum
    if left.toInt32 ≤ 0 then some [info]
    else (planCells data now expireTime rest left).map (info :: ·)

def parseDbAddItemRequest (mgr : ItemDataMgr) (now : Nat) (s : Bag) (itemId : Nat)
    (itemCount : UInt32) (expireTime : Nat) : Option (List AddItemRequest) :=
  match mgr.getItemDataById itemId with
  | none => none
  | some data =>
    match planHeaps expireTime (s.heaps itemId) itemCount with
    | (request, none) => some request
    | (request, some remain) =>
      (planCells data now expireTime s.emptyCells remain).map (request ++ ·)

/-! ## Requests of a client -/

/-- What a player has of the shops; `bagReady` is the flag of `MODULE_BAG`. -/
structure ShopPlayer where
  bagReady : Bool
  bag : Bag
  redeemBag : List Item
  gold : UInt32

inductive ShopRequest where
  | buy (shopId itemId : Nat) (itemCount : UInt32)
  | sell (gridIndex : Nat) (itemCount : UInt32)
  | redeem (redeemIndex : Nat)

inductive ShopErr where
  | module
  | xml
  | itemLack
  | bagFull
  | invalidPara

/-- What is asked of the database. -/
inductive ShopOut where
  | buy (addItems : List AddItemRequest) (gold : UInt32)
  | sell (delItems : List DelItemRequest) (gold : UInt32)
  | redeem (addItems : List AddItemRequest) (gold : UInt32) (redeemIndex : Nat)

/-- The items on sale in each shop. -/
abbrev NpcShops := Nat → Option (List Nat)

def cliProtoBuyNpcShopItem (mgr : ItemDataMgr) (shops : NpcShops) (now : Nat) (p : ShopPlayer)
    (shopId itemId : Nat) (itemCount : UInt32) : Except ShopErr ShopOut :=
  if p.bagReady = false then .error .module
  else
    match shops shopId with
    | none => .error .xml
    | some items =>
      if itemId ∈ items then
        match mgr.getItemDataById itemId with
        | none => .error .xml
        | some data =>
          if p.gold < data.buyPrice then .error .itemLack
          else
            match parseDbAddItemRequest mgr now p.bag itemId itemCount 0 with
            | none => .error .bagFull
            | some addItems => .ok (.buy addItems (data.buyPrice * itemCount))
      else .error .invalidPara

def cliProtoNpcItem (p : ShopPlayer) (gridIndex : Nat) (itemCount : UInt32) :
    Except ShopErr ShopOut :=
  if p.bagReady = false then .error .module
  else
    match p.bag.items (p.bag.getItemByGrid gridIndex) with
    | none => .error .invalidPara
    | some item =>
      if itemCount > item.curHeapCount then .error .invalidPara
      else
        .ok (.sell [⟨gridIndex, item.data.itemId, itemCount⟩] (item.data.sellPrice * itemCount))

def cliProtoRedeemItem (mgr : ItemDataMgr) (now : Nat) (p : ShopPlayer) (redeemIndex : Nat) :
    Except ShopErr ShopOut :=
  if p.bagReady = false then .error .module
  else
    match p.redeemBag[redeemIndex]? with
    | none => .error .invalidPara
    | some item =>
      let price := item.data.sellPrice * item.curHeapCount
      if p.gold < price then .error .itemLack
      else
        match parseDbAddItemRequest mgr now p.bag item.data.itemId item.curHeapCount
            item.expireTime with
        | none => .error .bagFull
        | some addItems => .ok (.redeem addItems price redeemIndex)

def handleShop (mgr : ItemDataMgr) (shops : NpcShops) (now : Nat) (p : ShopPlayer) :
    ShopRequest → Except ShopErr ShopOut
  | .buy shopId itemId itemCount => cliProtoBuyNpcShopItem mgr shops now p shopId itemId itemCount
  | .sell gridIndex itemCount => cliProtoNpcItem p gridIndex itemCount
  | .redeem redeemIndex => cliProtoRedeemItem mgr now p redeemIndex

/-! ## What is moved -/

namespace ShopOut

def gold : ShopOut → UInt32
  | .buy _ gold => gold
  | .sell _ gold => gold
  | .redeem _ gold _ => gold

/-- The number of items that are planned to be moved. -/
def planned : ShopOut → Nat
  | .buy addItems _ => (addItems.map fun info => info.itemCount.toNat).sum
  | .sell delItems _ => (delItems.map fun info => info.itemCount.toNat).sum
  | .redeem addItems _ _ => (addItems.map fun info => info.itemCount.toNat).sum

/-- The player pays for what is bought or redeemed. -/
def paid : ShopOut → Bool
  | .buy .. => true
  | .sell .. => false
  | .redeem .. => true

end ShopOut

/-- The unit price and the count of what a request asks for. -/
def ShopRequest.asked (mgr : ItemDataMgr) (p : ShopPlayer) : ShopRequest → Option (UInt32 × UInt32)
  | .buy _ itemId itemCount =>
    (mgr.getItemDataById itemId).map fun data => (data.buyPrice, itemCount)
  | .sell gridIndex itemCount =>
    (p.bag.items (p.bag.getItemByGrid gridIndex)).map fun item => (item.data.sellPrice, itemCount)
  | .redeem redeemIndex =>
    p.redeemBag[redeemIndex]?.map fun item => (item.data.sellPrice, item.curHeapCount)

/-- The gold is the price of what is planned, that is what is asked for, and the player has it. -/
structure Correct (p : ShopPlayer) (price count : UInt32) (out : ShopOut) : Prop where
  gold : out.gold.toNat = price.toNat * out.planned
  count : out.planned = count.toNat
  paid : out.paid → out.gold.toNat ≤ p.gold.toNat

/-- The free places of an item: in its heaps up to a full one, and in the empty cells. -/
def rooms (mgr : ItemDataMgr) (s : Bag) (itemId : Nat) : List UInt32 :=
  ((s.heaps itemId).map Item.getCurRemainHeapCount).takeWhile (· ≠ 0) ++
    s.emptyCells.map fun _ => (mgr.getItemDataById itemId).elim 0 ItemData.maxHeapNum

/-- The places in front do not hold all, those up to the next one do, with at most `2 ^ 31` to
spare, and the first one leaves less than `2 ^ 31`. -/
def Plannable (rooms : List Nat) (count : Nat) : Prop :=
  ∃ front room back, rooms = front ++ room :: back ∧ (front = [] ∨ front.sum < count) ∧
    count ≤ front.sum + room ∧ front.sum + room ≤ count + 2 ^ 31 ∧
    ∀ first ∈ front.head?, count < first + 2 ^ 31

/-- The whole price is paid for, or fits in 32 bits, and what is added can be planned. -/
def Affordable (mgr : ItemDataMgr) (p : ShopPlayer) (price count : UInt32) : ShopRequest → Prop
  | .buy _ itemId _ => price.toNat * count.toNat ≤ p.gold.toNat ∧
    Plannable ((rooms mgr p.bag itemId).map UInt32.toNat) count.toNat
  | .sell .. => price.toNat * count.toNat < 2 ^ 32
  | .redeem redeemIndex => price.toNat * count.toNat < 2 ^ 32 ∧
    ∀ item ∈ p.redeemBag[redeemIndex]?,
      Plannable ((rooms mgr p.bag item.data.itemId).map UInt32.toNat) count.toNat

/-! ## The plan -/

/-- The counts that both loops plan into free places. -/
def planRooms : List UInt32 → UInt32 → Option (List UInt32)
  | [], _ => none
  | room :: rest, remain =>
    if (remain - room).toInt32 ≤ 0 then some [taken room remain]
    else (planRooms rest (remain - room)).map (taken room remain :: ·)

theorem toInt32_le_zero (value : UInt32) :
    value.toInt32 ≤ 0 ↔ value.toNat = 0 ∨ 2 ^ 31 ≤ value.toNat := by
  have signed : value.toInt32.toInt = value.toBitVec.toInt := rfl
  rw [Int32.le_iff_toInt_le, signed, BitVec.toInt, UInt32.toNat_toBitVec, Int32.toInt_zero]
  have bound := value.toNat_lt
  split <;> omega

theorem taken_toNat (room remain : UInt32) :
    (taken room remain).toNat = min room.toNat remain.toNat := by
  rw [taken]
  split
  case isTrue more => exact (Nat.min_eq_right (Nat.le_of_lt (UInt32.lt_iff_toNat_lt.mp more))).symm
  case isFalse less =>
    have below := Nat.le_of_not_lt fun more => less (UInt32.lt_iff_toNat_lt.mpr more)
    exact (Nat.min_eq_left below).symm

theorem plannable_cons {room count : Nat} {rest : List Nat} :
    Plannable (room :: rest) count ↔ count ≤ room ∧ room ≤ count + 2 ^ 31 ∨
      room < count ∧ count < room + 2 ^ 31 ∧ Plannable rest (count - room) := by
  constructor
  · rintro ⟨front, last, back, shape, short, enough, spare, left⟩
    cases front with
    | nil =>
      obtain ⟨rfl, rfl⟩ := List.cons.inj shape
      simp only [List.sum_nil, Nat.zero_add] at enough spare
      exact .inl ⟨enough, spare⟩
    | cons first front =>
      obtain ⟨rfl, rfl⟩ := List.cons.inj shape
      have less := short.resolve_left (List.cons_ne_nil _ _)
      have here := left room rfl
      rw [List.sum_cons] at less enough spare
      refine .inr ⟨by omega, here, front, last, back, rfl, ?_, by omega, by omega, ?_⟩
      · exact .inr (by omega)
      · omega
  · rintro (⟨enough, spare⟩ | ⟨less, here, front, last, back, rfl, short, enough, spare, -⟩)
    · exact ⟨[], room, rest, rfl, .inl rfl, by simpa using enough, by simpa using spare,
        fun _ none => by cases none⟩
    · refine ⟨room :: front, last, back, rfl, .inr ?_, ?_, ?_, ?_⟩
      · rw [List.sum_cons]
        obtain rfl | more := short
        · simpa using less
        · omega
      · rw [List.sum_cons]
        omega
      · rw [List.sum_cons]
        omega
      · rintro first same
        cases same
        exact here

/-- A plan for something is not empty. -/
theorem planRooms_pos {rooms : List UInt32} {remain : UInt32} {counts : List UInt32}
    (plan : planRooms rooms remain = some counts) (left : 0 < remain.toNat)
    (small : remain.toNat < 2 ^ 31) : 0 < (counts.map UInt32.toNat).sum := by
  induction rooms generalizing counts with
  | nil => cases plan
  | cons room rest ih =>
    rw [planRooms] at plan
    have share := taken_toNat room remain
    split at plan
    case isTrue ends =>
      obtain rfl := Option.some.inj plan
      rw [toInt32_le_zero, UInt32.toNat_sub] at ends
      simp only [List.map_cons, List.sum_cons]
      omega
    case isFalse goes =>
      obtain ⟨later, onward, rfl⟩ := Option.map_eq_some_iff.mp plan
      rw [List.map_cons, List.sum_cons, share]
      obtain full | free := Nat.eq_zero_or_pos room.toNat
      · have same : remain - room = remain := by
          rw [UInt32.toNat_inj.mp (full.trans UInt32.toNat_zero.symm), UInt32.sub_zero]
        rw [same] at onward
        have positive := ih onward
        omega
      · omega

/-- Where a plan is found, it adds up to the count exactly if the count is plannable. -/
theorem planRooms_sum_iff {rooms : List UInt32} {remain : UInt32} {counts : List UInt32}
    (plan : planRooms rooms remain = some counts) :
    (counts.map UInt32.toNat).sum = remain.toNat ↔
      Plannable (rooms.map UInt32.toNat) remain.toNat := by
  induction rooms generalizing remain counts with
  | nil => cases plan
  | cons room rest ih =>
    have bound := room.toNat_lt
    have bound' := remain.toNat_lt
    have share := taken_toNat room remain
    have rest' := UInt32.toNat_sub remain room
    rw [List.map_cons, plannable_cons]
    rw [planRooms] at plan
    split at plan
    case isTrue ends =>
      obtain rfl := Option.some.inj plan
      rw [toInt32_le_zero] at ends
      simp only [List.map_cons, List.map_nil, List.sum_cons, List.sum_nil]
      constructor
      · intro sum
        exact .inl (by omega)
      · rintro (⟨enough, -⟩ | ⟨less, near, -⟩)
        · omega
        · omega
    case isFalse goes =>
      obtain ⟨later, onward, rfl⟩ := Option.map_eq_some_iff.mp plan
      rw [toInt32_le_zero, not_or] at goes
      rw [List.map_cons, List.sum_cons, share]
      have more := planRooms_pos onward (by omega) (by omega)
      by_cases less : room.toNat < remain.toNat
      · have left : (remain - room).toNat = remain.toNat - room.toNat := by omega
        have same := ih onward
        rw [left] at same
        constructor
        · intro sum
          exact .inr ⟨less, by omega, same.mp (by omega)⟩
        · rintro (⟨enough, -⟩ | ⟨-, -, fits⟩)
          · omega
          · have sum := same.mpr fits
            omega
      · constructor
        · omega
        · rintro (⟨-, spare⟩ | ⟨less', -⟩)
          · omega
          · omega

theorem planCells_counts (data : ItemData) (now expireTime : Nat) (cells : List Nat)
    (remain : UInt32) :
    (planCells data now expireTime cells remain).map (·.map AddItemRequest.itemCount) =
      planRooms (cells.map fun _ => data.maxHeapNum) remain := by
  induction cells generalizing remain with
  | nil => rfl
  | cons index rest ih =>
    rw [planCells, List.map_cons, planRooms]
    split
    case isTrue => rfl
    case isFalse =>
      rw [← ih]
      cases planCells data now expireTime rest (remain - data.maxHeapNum) <;> rfl

/-- The loop over the heaps plans into their free places, and leaves the rest to the cells. -/
theorem planHeaps_counts (expireTime : Nat) (heaps : List Item) (cells : List UInt32)
    (remain : UInt32) :
    planRooms ((heaps.map Item.getCurRemainHeapCount).takeWhile (· ≠ 0) ++ cells) remain =
      (planHeaps expireTime heaps remain).2.elim
        (some ((planHeaps expireTime heaps remain).1.map AddItemRequest.itemCount)) fun left =>
          (planRooms cells left).map
            ((planHeaps expireTime heaps remain).1.map AddItemRequest.itemCount ++ ·) := by
  induction heaps generalizing remain with
  | nil => simp [planHeaps]
  | cons item rest ih =>
    rw [planHeaps, List.map_cons, List.takeWhile_cons]
    dsimp only
    by_cases full : item.getCurRemainHeapCount = 0
    · simp [full]
    · rw [if_neg full, if_pos (by simpa using full), List.cons_append, planRooms]
      split
      case isTrue => rfl
      case isFalse =>
        rw [ih]
        cases (planHeaps expireTime rest (remain - item.getCurRemainHeapCount)).2 with
        | none => rfl
        | some left =>
          dsimp only [Option.elim_some]
          cases planRooms cells left <;> rfl

/-- What a request plans comes out of the free places of the item. -/
theorem parseDbAddItemRequest_counts {mgr : ItemDataMgr} {now : Nat} {s : Bag} {itemId : Nat}
    {itemCount : UInt32} {expireTime : Nat} {request : List AddItemRequest}
    (accepted : parseDbAddItemRequest mgr now s itemId itemCount expireTime = some request) :
    planRooms (rooms mgr s itemId) itemCount = some (request.map AddItemRequest.itemCount) := by
  rw [parseDbAddItemRequest] at accepted
  rw [rooms]
  cases known : mgr.getItemDataById itemId with
  | none =>
    rw [known] at accepted
    cases accepted
  | some data =>
    rw [known] at accepted
    rw [planHeaps_counts expireTime, Option.elim_some]
    dsimp only at accepted
    split at accepted
    case _ shape =>
      rw [shape, Option.some.inj accepted]
      rfl
    case _ stacked remain shape =>
      obtain ⟨cells, plan, rfl⟩ := Option.map_eq_some_iff.mp accepted
      rw [shape, Option.elim_some, ← planCells_counts data now expireTime, plan, List.map_append]
      rfl

theorem parseDbAddItemRequest_sum_iff {mgr : ItemDataMgr} {now : Nat} {s : Bag} {itemId : Nat}
    {itemCount : UInt32} {expireTime : Nat} {request : List AddItemRequest}
    (accepted : parseDbAddItemRequest mgr now s itemId itemCount expireTime = some request) :
    (request.map fun info => info.itemCount.toNat).sum = itemCount.toNat ↔
      Plannable ((rooms mgr s itemId).map UInt32.toNat) itemCount.toNat := by
  rw [← planRooms_sum_iff (parseDbAddItemRequest_counts accepted), List.map_map]
  rfl

/-! ## Accepted requests -/

/-- A price that is not cut off is the product of its factors. -/
theorem mul_toNat_iff (price count : UInt32) :
    (price * count).toNat = price.toNat * count.toNat ↔ price.toNat * count.toNat < 2 ^ 32 := by
  constructor
  · intro same
    rw [← same]
    exact Nat.mod_lt _ (by decide)
  · exact Nat.mod_eq_of_lt

/-- A price is right if it is not cut off, and the plan adds up. -/
theorem correct_iff {p : ShopPlayer} {price count : UInt32} {out : ShopOut}
    (moved : out.gold = price * count) : Correct p price count out ↔
      out.planned = count.toNat ∧ price.toNat * count.toNat < 2 ^ 32 ∧
        (out.paid → (price * count).toNat ≤ p.gold.toNat) := by
  constructor
  · rintro ⟨gold, sum, paid⟩
    rw [moved, sum] at gold
    rw [moved] at paid
    exact ⟨sum, (mul_toNat_iff price count).mp gold, paid⟩
  · rintro ⟨sum, fits, paid⟩
    refine ⟨?_, sum, by rw [moved]; exact paid⟩
    rw [moved, sum]
    exact (mul_toNat_iff price count).mpr fits

section

variable {mgr : ItemDataMgr} {shops : NpcShops} {now : Nat} {p : ShopPlayer} {out : ShopOut}

theorem buy_accepted {shopId itemId : Nat} {itemCount : UInt32}
    (accepted : cliProtoBuyNpcShopItem mgr shops now p shopId itemId itemCount = .ok out) :
    ∃ data addItems, mgr.getItemDataById itemId = some data ∧
      parseDbAddItemRequest mgr now p.bag itemId itemCount 0 = some addItems ∧
      out = .buy addItems (data.buyPrice * itemCount) := by
  rw [cliProtoBuyNpcShopItem] at accepted
  split at accepted
  · cases accepted
  split at accepted
  · cases accepted
  split at accepted
  case isFalse => cases accepted
  split at accepted
  · cases accepted
  case _ data known =>
    split at accepted
    · cases accepted
    split at accepted
    · cases accepted
    case _ addItems plan =>
      cases accepted
      exact ⟨data, addItems, known, plan, rfl⟩

theorem sell_accepted {gridIndex : Nat} {itemCount : UInt32}
    (accepted : cliProtoNpcItem p gridIndex itemCount = .ok out) :
    ∃ item, p.bag.items (p.bag.getItemByGrid gridIndex) = some item ∧
      out = .sell [⟨gridIndex, item.data.itemId, itemCount⟩] (item.data.sellPrice * itemCount) := by
  rw [cliProtoNpcItem] at accepted
  split at accepted
  · cases accepted
  split at accepted
  · cases accepted
  case _ item found =>
    split at accepted
    · cases accepted
    · cases accepted
      exact ⟨item, found, rfl⟩

theorem redeem_accepted {redeemIndex : Nat}
    (accepted : cliProtoRedeemItem mgr now p redeemIndex = .ok out) :
    ∃ item addItems, p.redeemBag[redeemIndex]? = some item ∧
      (item.data.sellPrice * item.curHeapCount).toNat ≤ p.gold.toNat ∧
      parseDbAddItemRequest mgr now p.bag item.data.itemId item.curHeapCount item.expireTime =
        some addItems ∧
      out = .redeem addItems (item.data.sellPrice * item.curHeapCount) redeemIndex := by
  rw [cliProtoRedeemItem] at accepted
  split at accepted
  · cases accepted
  split at accepted
  · cases accepted
  case _ item found =>
    dsimp only at accepted
    split at accepted
    · cases accepted
    case _ covered =>
      split at accepted
      · cases accepted
      case _ addItems plan =>
        cases accepted
        refine ⟨item, addItems, found, ?_, plan, rfl⟩
        exact Nat.le_of_not_lt fun less => covered (UInt32.lt_iff_toNat_lt.mpr less)

/-- An accepted request moves the right gold and items exactly if the price is affordable. -/
theorem correct_iff_affordable (mgr : ItemDataMgr) (shops : NpcShops) (now : Nat) (p : ShopPlayer)
    (request : ShopRequest) (out : ShopOut)
    (accepted : handleShop mgr shops now p request = .ok out) :
    ∃ price count, request.asked mgr p = some (price, count) ∧
      (Correct p price count out ↔ Affordable mgr p price count request) := by
  cases request with
  | buy shopId itemId itemCount =>
    obtain ⟨data, addItems, known, plan, rfl⟩ := buy_accepted accepted
    refine ⟨data.buyPrice, itemCount, by rw [ShopRequest.asked, known]; rfl, ?_⟩
    rw [correct_iff rfl, Affordable, ← parseDbAddItemRequest_sum_iff plan]
    have bound := p.gold.toNat_lt
    constructor
    · rintro ⟨sum, fits, paid⟩
      rw [(mul_toNat_iff _ _).mpr fits] at paid
      exact ⟨paid rfl, sum⟩
    · rintro ⟨covered, sum⟩
      have fits := covered.trans_lt bound
      refine ⟨sum, fits, fun _ => ?_⟩
      rw [(mul_toNat_iff _ _).mpr fits]
      exact covered
  | sell gridIndex itemCount =>
    obtain ⟨item, found, rfl⟩ := sell_accepted accepted
    refine ⟨item.data.sellPrice, itemCount, by rw [ShopRequest.asked, found]; rfl, ?_⟩
    rw [correct_iff rfl, Affordable]
    constructor
    · exact fun correct => correct.2.1
    · exact fun fits => ⟨Nat.add_zero _, fits, fun paid => by cases paid⟩
  | redeem redeemIndex =>
    obtain ⟨item, addItems, found, covered, plan, rfl⟩ := redeem_accepted accepted
    refine ⟨item.data.sellPrice, item.curHeapCount, by rw [ShopRequest.asked, found]; rfl, ?_⟩
    rw [correct_iff rfl, Affordable]
    constructor
    · rintro ⟨sum, fits, -⟩
      refine ⟨fits, fun other same => ?_⟩
      obtain rfl : item = other := Option.some.inj (found.symm.trans same)
      exact (parseDbAddItemRequest_sum_iff plan).mp sum
    · rintro ⟨fits, plannable⟩
      exact ⟨(parseDbAddItemRequest_sum_iff plan).mpr (plannable item found), fits,
        fun _ => covered⟩

end

/-- One kind of item, at a price of 3. -/
def oneItem : ItemDataMgr where
  getItemDataById itemId := if itemId = 5 then some ⟨5, 2, 3, 10⟩ else none
  keyed {itemId data} found := by
    split_ifs at found
    cases found
    exact Eq.symm ‹_›

/-- A player with a stack of four. -/
def stackOfFour (gold : UInt32) : ShopPlayer where
  bagReady := true
  bag := Bag.step oneItem (Bag.init 4) (.addItemByGrid 100 ⟨1, 5, 4, 1, 0, 0⟩)
  redeemBag := []
  gold := gold

/-- Twelve items go into the stack and a new cell. -/
theorem correct_iff_affordable_twelve :
    ∃ price count, (ShopRequest.buy 1 5 12).asked oneItem (stackOfFour 36) = some (price, count) ∧
      (Correct (stackOfFour 36) price count (.buy [⟨1, 5, 6, 0, 0⟩, ⟨2, 5, 6, 9, 0⟩] 36) ↔
        Affordable oneItem (stackOfFour 36) price count (.buy 1 5 12)) :=
  correct_iff_affordable oneItem (fun _ => some [5]) 9 (stackOfFour 36) (.buy 1 5 12) _ rfl

/-- With the gold for one item, twelve are bought. -/
theorem twelve_for_one :
    ∃ out, handleShop oneItem (fun _ => some [5]) 9 (stackOfFour 3) (.buy 1 5 12) = .ok out ∧
      (ShopRequest.buy 1 5 12).asked oneItem (stackOfFour 3) = some (3, 12) ∧
      ¬ Correct (stackOfFour 3) 3 12 out := by
  refine ⟨.buy [⟨1, 5, 6, 0, 0⟩, ⟨2, 5, 6, 9, 0⟩] 36, rfl, rfl, fun correct => ?_⟩
  exact absurd (correct.paid rfl) (by decide)

end Taomee.Pea
