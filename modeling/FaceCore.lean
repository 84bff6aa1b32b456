import FaceCore.Lib.Runs
import FaceCore.Lib.FixedWidth
import FaceCore.Lib.SortedMap
import FaceCore.Lib.LittleEndian
import FaceCore.Lib.Pocklington
import FaceCore.Lib.Framing
import FaceCore.Lib.Table
import FaceCore.Lib.Counting
import FaceCore.Lib.Stock
import FaceCore.Auth.BigNumber
import FaceCore.Auth.Srp6
import FaceCore.Auth.AuthSocket
import FaceCore.Auth.Session
import FaceCore.Auth.HonestLogon
import FaceCore.Auth.OnRead
import FaceCore.Auth.Framing
import FaceCore.Player.Money
import FaceCore.Player.Inventory
import FaceCore.Player.Storage
import FaceCore.Player.Placement
import FaceCore.Trade.Accept
import FaceCore.Guild.BankMoney
import FaceCore.Guild.WithdrawLimit
import FaceCore.Guild.Roster
import FaceCore.Guild.Ranks
import FaceCore.Guild.Leader
import FaceCore.Guild.BankItems
import FaceCore.Guild.ItemConservation
import FaceCore.Auction.Sell
import FaceCore.Auction.Bids
import FaceCore.Mail.Draft
import FaceCore.Mail.Take
import FaceCore.Mail.Send
import FaceCore.Group.LootRoll
import FaceCore.Loot.Loot
import FaceCore.Loot.Lists
import FaceCore.Loot.Delivery
import FaceCore.Loot.Unlooted
import FaceCore.World.SocketInput
import FaceCore.World.SocketOutput
import FaceCore.World.LoginQueue
import FaceCore.Loot.Money
import FaceCore.Auction.Book
import FaceCore.Mail.Return
import FaceCore.Loot.View
import FaceCore.Loot.Container
import FaceCore.Vendor.Sale
import FaceCore.Player.SaveInventory
import FaceCore.Auction.Persist
import FaceCore.Group.Leavers
import FaceCore.Guild.Hierarchy
import FaceCore.Group.Leadership
import FaceCore.Group.Roles
import FaceCore.Guild.EventLog
import FaceCore.Guild.SlotLimit
import FaceCore.Guild.TabRights
import FaceCore.Calendar.Calendar
import FaceCore.Calendar.Requests
import FaceCore.Calendar.Ids
import FaceCore.Calendar.Participants
import FaceCore.Lib.Bitmap
import FaceCore.Instance.Ids
import FaceCore.Lib.Layers
import FaceCore.Event.Quests
import FaceCore.Event.WorldEvents
import FaceCore.Event.WorldPhases
import FaceCore.Event.NextCheck
import FaceCore.Lib.Flags
import FaceCore.Chat.Channel
import FaceCore.Lib.ElseGroups
import FaceCore.Condition.Condition
import FaceCore.Condition.SearchMask
import FaceCore.Condition.Load
import FaceCore.Group.SubGroups
import FaceCore.Battleground.Queue
import FaceCore.Battleground.QueueLists
import FaceCore.Battleground.SelectionPools
import FaceCore.Battleground.RatedPairing
import FaceCore.Lib.Agenda
import FaceCore.Instance.Resets
import FaceCore.Instance.ResetRuns
import FaceCore.Instance.OwnResets
import FaceCore.Lib.Forest
import FaceCore.Lib.Joined
import FaceCore.Lib.Picking
import FaceCore.Pool.PoolMgr
import FaceCore.Pool.Despawning
import FaceCore.Pool.Spawning
import FaceCore.Pool.PoolLimits
import FaceCore.Pool.QuestPools
import FaceCore.Pool.MotherPools
import FaceCore.Pool.Nesting
import FaceCore.DungeonFinding.Roles
import FaceCore.DungeonFinding.Queue
import FaceCore.Account.Rbac
import FaceCore.Account.RbacReload
import FaceCore.Packet.ByteBuffer
import FaceCore.Packet.RoundTrip
import FaceCore.Player.CanStore
import FaceCore.Group.RollWinner
import FaceCore.Lib.Recursion
import FaceCore.Lib.Rings
import FaceCore.Loot.Template
import FaceCore.Loot.QuestDrop
import FaceCore.Event.WorldRuns
import FaceCore.Lib.Filling
import FaceCore.Player.Search
import FaceCore.Player.Holdings
import FaceCore.Player.Refund
import FaceCore.Vendor.Buyback
import FaceCore.Calendar.PlayerEvents
import FaceCore.Group.Looter
import FaceCore.DungeonFinding.RoleChoice
import FaceCore.DungeonFinding.ProposalLeader
import FaceCore.DungeonFinding.Mgr
import FaceCore.DungeonFinding.Announce
import FaceCore.DungeonFinding.Boot
import FaceCore.DungeonFinding.VoteKick
import FaceCore.Combat.NextVictim
import FaceCore.Combat.ThreatManager
import FaceCore.Combat.ThreatOrder
import FaceCore.Combat.ThreatRuns
import FaceCore.Group.Uninvite
import FaceCore.Player.Capacity
import FaceCore.Lib.Drain
import FaceCore.Lib.Refill
import FaceCore.Player.ItemCount
import FaceCore.Player.SearchAgain
import FaceCore.Player.AutoStore
import FaceCore.Battleground.ArenaTeam
import FaceCore.Reputation.ReputationMgr
import FaceCore.Reputation.ReputationRuns
import FaceCore.Event.EventProcessor
import FaceCore.Event.EventOrder
import FaceCore.Event.EventAborts
import FaceCore.Lib.Gregorian
import FaceCore.Packet.PackedTime
import FaceCore.Packet.UpdateMask
import FaceCore.Packet.ValuesUpdate
import FaceCore.Item.Persist
import FaceCore.Item.RoundTrip
import FaceCore.Lib.Stores
import FaceCore.Text.Utf8
import FaceCore.Text.Utf8RoundTrip
import FaceCore.Text.WideString
import FaceCore.Auth.ByteArrays
import FaceCore.Lib.Records
import FaceCore.Lib.Replacing
import FaceCore.Text.Duration
import FaceCore.DungeonFinding.Needs
import FaceCore.DungeonFinding.BestCompatible
import FaceCore.Collision.Bih
import FaceCore.Lib.Hierarchy
import FaceCore.Collision.BihLayout
import FaceCore.Collision.BihCut
import FaceCore.Collision.BihBuild
import FaceCore.Collision.BihPoint
import FaceCore.Collision.DynamicTree
import FaceCore.Collision.DynamicTreeRuns
