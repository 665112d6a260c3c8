import Mathlib.Tactic.Common

/-!
# The board of a show

The file of a period holds the records of at most `SHOW_USER_NUM` participants. The process keeps
their positions in the order of their scores, and each record its rank.
-/

namespace Taomee.Show

def showUserNum : Nat := 6

/-- `show_user_info_t`. What it says of the user's name and monster is only copied. -/
structure Record (ρ : Type) where
  userId : Nat
  npcScore : Nat
  npcTimestamp : Nat
  votes : Nat
  isTop : Nat
  isNotice : Nat
  rest : ρ
  deriving DecidableEq

def Record.ranked {ρ : Type} (record : Record ρ) (top : Nat) : Record ρ :=
  { record with isTop := top }

/-- The file of a period. -/
structure Board (ρ : Type) where
  totalNum : Nat
  userNum : Nat
  records : Nat → Record ρ

/-- The records of a board with `m_top_index`. -/
structure Ranks (ρ : Type) where
  records : Nat → Record ρ
  topIndex : Nat → Nat

section

variable {ρ : Type}

namespace Ranks

def setIndex (ranks : Ranks ρ) (place position : Nat) : Ranks ρ :=
  { ranks with topIndex := Function.update ranks.topIndex place position }

def setTop (ranks : Ranks ρ) (position top : Nat) : Ranks ρ :=
  { ranks with
    records := Function.update ranks.records position ((ranks.records position).ranked top) }

/-- The inner loop from `j` on: the entries above rank `i` move up by one. -/
def shift (i : Nat) : Nat → Ranks ρ → Ranks ρ
  | 0, ranks => ranks
  | j + 1, ranks =>
    if j + 1 > i + 1 then
      let ranks := ranks.setIndex (j + 1) (ranks.topIndex j)
      shift i j (ranks.setTop (ranks.topIndex j) (j + 1 + 1))
    else ranks

/-- The record at `position` comes to rank `i`, where `topIdx` was. -/
def place (ranks : Ranks ρ) (position last i : Nat) : Ranks ρ :=
  let topIdx := ranks.topIndex i
  let ranks := (ranks.setIndex i position).setTop position (i + 1)
  let ranks := shift i last ranks
  (ranks.setIndex (i + 1) topIdx).setTop topIdx (i + 1 + 1)

/-- The outer loop, with how many turns are left: the record at `position` is placed before the
first one with a lower score. -/
def search (score position last : Nat) : Nat → Nat → Ranks ρ → Ranks ρ
  | 0, _, ranks => ranks
  | left + 1, i, ranks =>
    if score > (ranks.records (ranks.topIndex i)).npcScore then ranks.place position last i
    else search score position last left (i + 1) ranks

end Ranks

/-- The part of `process_join_show` that enters a record on the board. -/
def Board.enter (board : Board ρ) (topIndex : Nat → Nat) (record : Record ρ) :
    Board ρ × (Nat → Nat) :=
  let num := board.userNum
  if num < showUserNum then
    let ranks : Ranks ρ := ⟨Function.update board.records num record, topIndex⟩
    let ranks :=
      if num = 0 then (ranks.setTop num 1).setIndex 0 num
      else
        Ranks.search record.npcScore num num num 0 ((ranks.setIndex num num).setTop num (num + 1))
    (⟨board.totalNum + 1, num + 1, ranks.records⟩, ranks.topIndex)
  else
    let minScoreIdx := topIndex (showUserNum - 1)
    if record.npcScore > (board.records minScoreIdx).npcScore then
      let ranks := Ranks.search record.npcScore minScoreIdx (num - 1) num 0
        ⟨Function.update board.records minScoreIdx record, topIndex⟩
      (⟨board.totalNum + 1, num, ranks.records⟩, ranks.topIndex)
    else ({ board with totalNum := board.totalNum + 1 }, topIndex)

/-- A new file. -/
def Board.fresh (records : Nat → Record ρ) : Board ρ := ⟨0, 0, records⟩

end

end Taomee.Show
