import Taomee.Anticheat.Blocks
import Taomee.Anticheat.Exhausted
import Taomee.AsyncServer.Delivery
import Taomee.AsyncServer.Overflow
import Taomee.Barrier.Balanced.Reclaim
import Taomee.Barrier.Balanced.Stall
import Taomee.BattleSwitch.Owner
import Taomee.BattleSwitch.Paging
import Taomee.BattleSwitch.Players
import Taomee.BattleSwitch.Rooms
import Taomee.Chat.Flood
import Taomee.Chat.Trim
import Taomee.ChineseChess.Credit
import Taomee.ChineseChess.Voting
import Taomee.Gobang.Course
import Taomee.IniFile.Binary
import Taomee.IniFile.IntList
import Taomee.IniFile.StringList
import Taomee.LinkLink.Pairs
import Taomee.Linker.Memory
import Taomee.Mmtree.Combine
import Taomee.Mmtree.Listing
import Taomee.Mmtree.TopData
import Taomee.Mmtree.Touched
import Taomee.Monster.Acquire
import Taomee.Monster.FriendViews
import Taomee.Monster.Presence
import Taomee.Monster.ShopRefresh
import Taomee.Monster.UserManager
import Taomee.Monster.VarBlocks
import Taomee.NetIo.Events
import Taomee.NetIo.Send
import Taomee.Pea.BagLinks
import Taomee.Pea.Prize
import Taomee.Pea.Shop
import Taomee.Pea.StackAddition
import Taomee.Pea.StackCounts
import Taomee.Pea.Task
import Taomee.Pea.TaskBuffer
import Taomee.Pea.TaskOrder
import Taomee.PeaBattle.Attack
import Taomee.PeaBattle.Crater
import Taomee.PeaBattle.End
import Taomee.PeaBattle.Fall
import Taomee.RingQueue.Peek
import Taomee.RingQueue.Wakeup
import Taomee.ServerBench.Order
import Taomee.ServerBench.Progress
import Taomee.ServerBench.Requests
import Taomee.ServerBench.Sweep
import Taomee.Show.Accounts
import Taomee.Show.Period
import Taomee.Tetris.Sessions
import Taomee.Tetris.Start
import Taomee.Timer.Punctual
