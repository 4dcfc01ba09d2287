import ZosCore.Lib.Linked
import ZosCore.Db.ObjectDatabase
import ZosCore.Db.UndoDatabase
import ZosCore.Db.UndoState
import ZosCore.Db.UndoRestore
import ZosCore.Db.Sessions
import ZosCore.Db.UniqueKeys
import ZosCore.Chain.Types
import ZosCore.Chain.BlockDatabase
import ZosCore.Chain.Database
import ZosCore.Chain.Block
import ZosCore.Chain.Ledger
import ZosCore.Chain.Invariant
import ZosCore.Chain.Calls
import ZosCore.Chain.Proposal
import ZosCore.Lib.Threshold
import ZosCore.Protocol.SignState
import ZosCore.Protocol.VerifyAuthority
import ZosCore.Economy.State
import ZosCore.Economy.Vesting
import ZosCore.Economy.ProcessFees
import ZosCore.Economy.Evaluator
import ZosCore.Economy.FeeRuns
import ZosCore.Economy.Coupons
import ZosCore.Economy.Budget
import ZosCore.Chain.Review
import ZosCore.Economy.Supply
import ZosCore.Chain.History
import ZosCore.Chain.Irreversible
import ZosCore.Chain.Dedupe
import ZosCore.Chain.Heads
import ZosCore.Chain.Branches
import ZosCore.Chain.Supermajority
import ZosCore.Chain.Slots
import ZosCore.Chain.Schedule
import ZosCore.Chain.SlotHistory
import ZosCore.Chain.BlockSummaries
import ZosCore.Protocol.Approvals
import ZosCore.Lib.Walk
import ZosCore.Protocol.AccountUpdate
import ZosCore.Protocol.AccountGraph
import ZosCore.Chain.Elections
import ZosCore.Chain.Majorities
import ZosCore.Chain.ForkTree
import ZosCore.Chain.BlockFiles
import ZosCore.Chain.Synopsis
import ZosCore.Member.Authentication
import ZosCore.Member.LockBalance
import ZosCore.Member.Identity
import ZosCore.Member.Whitelists
import ZosCore.Member.Deposits
import ZosCore.Db.FixedKeys
import ZosCore.Lib.ReverseIndex
import ZosCore.Db.SecondaryIndex
import ZosCore.Chain.AccountMembers
import ZosCore.Chain.Horizon
import ZosCore.Chain.Holding
import ZosCore.Chain.IrreversibleBlocks
import ZosCore.Lib.Runs
import ZosCore.Net.Node
import ZosCore.Net.Quiet
import ZosCore.Net.SyncRequests
import ZosCore.Net.ItemsToGet
import ZosCore.Net.BlockMessages
import ZosCore.Lib.Drain
import ZosCore.Net.Backlog
import ZosCore.Lib.Streams
import ZosCore.Net.Framing
import ZosCore.Net.BlockIds
import ZosCore.Plugins.AccountHistory
import ZosCore.Plugins.HistoryLists
import ZosCore.Plugins.HistoryExact
import ZosCore.Plugins.HistoryIds
import ZosCore.Plugins.MarketHistory
import ZosCore.Lib.SortedLists
import ZosCore.Plugins.TickerVolume
import ZosCore.Plugins.DayVolume
import ZosCore.Economy.CddVesting
import ZosCore.Economy.VestedDeposits
import ZosCore.Lib.Agenda
import ZosCore.Protocol.SearchBudget
import ZosCore.Member.SpecialAuthorities
import ZosCore.Net.FetchItems
import ZosCore.Net.SendQueue
import ZosCore.Chain.BlockSize
import ZosCore.Chain.GlobalProperties
import ZosCore.Lib.Segments
import ZosCore.Plugins.BlockProduction
import ZosCore.Plugins.GroupedOrders
import ZosCore.Economy.LinearVesting
import ZosCore.Member.WithdrawPermissions
import ZosCore.Chain.FeeScale
import ZosCore.Chain.MaintenanceTime
import ZosCore.Chain.ParameterChecks
import ZosCore.Chain.ActiveSets
import ZosCore.Economy.MedianFeeds
import ZosCore.Lib.Asked
import ZosCore.Lib.Shrink
import ZosCore.Protocol.AuthoritySearch
import ZosCore.Protocol.MinimalSignatures
import ZosCore.Member.Conservation
import ZosCore.Chain.BlockByNumber
import ZosCore.Chain.ExpiredProposals
import ZosCore.Chain.MerkleRoot
import ZosCore.Economy.CoreRates
import ZosCore.Lib.Fraction
import ZosCore.Member.NameRegistry
import ZosCore.Protocol.AddressSignatures
import ZosCore.Protocol.AmountStrings
import ZosCore.Protocol.AssetPrices
import ZosCore.Protocol.CalculatedFees
import ZosCore.Protocol.PriceProducts
import ZosCore.Protocol.ScaledPrices
import ZosCore.Economy.GenesisBalances
import ZosCore.Lib.PackedSize
import ZosCore.Net.OfferedBlocks
import ZosCore.Plugins.HistoryIndex
import ZosCore.Plugins.HistoryQuery
import ZosCore.Plugins.MarketBuckets
import ZosCore.Plugins.MarketSummary
import ZosCore.Protocol.SizeFees
import ZosCore.Chain.OpenSessions
import ZosCore.Chain.Pending
import ZosCore.Chain.PendingSurvive
import ZosCore.Net.Admission
import ZosCore.Net.Inventories
import ZosCore.Net.MessageCache
import ZosCore.Net.Requests
import ZosCore.Economy.WordArithmetic
import ZosCore.Protocol.KeyText
import ZosCore.Db.ChangedObjects
