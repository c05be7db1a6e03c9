import Throned.Analysis.AddressText
import Throned.Analysis.TargetsBijection
import Throned.Library.NetipText
import Throned.Model.IpListParse
import Throned.Analysis.AddressFormat
import Throned.Analysis.NetworkText
import Throned.Analysis.RangeCover
import Throned.Analysis.RangeGuarantees
import Throned.Analysis.TokenNetworks
import Throned.Analysis.ListEntries
import Throned.Analysis.ListRoundTrip
import Throned.Library.Transition
import Throned.Model.Probe
import Throned.Model.ScanWorker
import Throned.Analysis.ProbeOutcomes
import Throned.Analysis.HostEntries
import Throned.Analysis.ChunkResults
import Throned.Analysis.RescanRemoval
import Throned.Model.ScanPass
import Throned.Analysis.PassInvariant
import Throned.Analysis.ScanCursor
import Throned.Model.Gate
import Throned.Analysis.GateInvariants
import Throned.Analysis.GateSafety
import Throned.Analysis.GateGuarantees
import Throned.Library.KeyedPool
import Throned.Model.Reconcile
import Throned.Analysis.ImportEntries
import Throned.Analysis.ReconcilePairing
import Throned.Analysis.ReconcilePlans
import Throned.Analysis.PlanSoundness
import Throned.Model.Refresh
import Throned.Analysis.ImportIds
import Throned.Analysis.RefreshSteps
import Throned.Analysis.RefreshListing
import Throned.Analysis.RefreshOrphans
import Throned.Analysis.RefreshGuarantee
import Throned.Analysis.FailedChunks
import Throned.Analysis.ReplacedProfiles
import Throned.Model.UpdateQueue
import Throned.Analysis.UpdateQueueInvariant
import Throned.Analysis.UpdateQueueSteps
import Throned.Analysis.UpdateQueueGuarantees
import Throned.Analysis.ProfileIds
import Throned.Analysis.ProfileSteps
import Throned.Analysis.GroupSteps
import Throned.Analysis.Deletions
import Throned.Model.IpLists
import Throned.Analysis.IpListTable
import Throned.Analysis.IpListInvariant
import Throned.Analysis.IpListSteps
import Throned.Analysis.IpListGenerations
import Throned.Analysis.ResumeWatch
import Throned.Analysis.ResumeRuns
import Throned.Analysis.ResumeGuarantees
import Throned.Analysis.ConnectionCredits
import Throned.Library.Ledger
import Throned.Analysis.TrafficRuns
import Throned.Analysis.SupervisorGuarantees
import Throned.Library.Runs
import Throned.Library.Framing
import Throned.Analysis.RpcGuarantees
import Throned.Analysis.SignInGuarantees
import Throned.Analysis.StartGuarantees
import Throned.Analysis.StrictDns
import Throned.Analysis.HotpAdvance
import Throned.Analysis.KillSwitchSlots
import Throned.Analysis.KillSwitchStates
import Throned.Analysis.KillSwitchGuarantees
import Throned.Library.Json
import Throned.Model.RouteRule
import Throned.Library.Grouping
import Throned.Model.AppRoutes
import Throned.Analysis.RuleRendering
import Throned.Analysis.RouteNames
import Throned.Analysis.OwnedRules
import Throned.Analysis.RouteReads
import Throned.Analysis.RouteWrites
import Throned.Model.AutoSelector
import Throned.Analysis.RankingSteps
import Throned.Analysis.RankingBooks
import Throned.Analysis.RankingRuns
import Throned.Analysis.RankingGuarantees
import Throned.Model.SpeedTests
import Throned.Analysis.SpeedMeters
import Throned.Analysis.SpeedCredits
import Throned.Analysis.SpeedGuarantees
import Throned.Model.LatencyTests
import Throned.Analysis.TestNumbering
import Throned.Analysis.LatencyLocks
import Throned.Analysis.LatencyResults
import Throned.Analysis.LatencyGuarantees
import Throned.Model.AutoSelectorMonitor
import Throned.Analysis.MonitorReports
import Throned.Analysis.MonitorSteps
import Throned.Analysis.MonitorPolls
import Throned.Analysis.MonitorGuarantees
import Throned.Library.Bits
import Throned.Library.Integers
import Throned.Model.OtpExports
import Throned.Analysis.Base32
import Throned.Library.OrderedLists
import Throned.Model.GroupOrder
import Throned.Library.JsonPaths
import Throned.Model.RawRoutes
import Throned.Analysis.RawOutbounds
import Throned.Analysis.GroupSorts
import Throned.Analysis.GroupMembers
import Throned.Analysis.EndpointRules
import Throned.Library.FirstOfEach
import Throned.Model.SimpleRules
import Throned.Analysis.CoveringLines
import Throned.Analysis.SimpleLines
import Throned.Analysis.SimpleTargets
import Throned.Analysis.SimpleUpdates
import Throned.Model.AutoSelectorPlan
import Throned.Analysis.PlanMembers
import Throned.Analysis.SelectorPlans
import Throned.Model.SingBoxOutbounds
import Throned.Analysis.SecurityLabels
import Throned.Model.LogBuffer
import Throned.Model.RuleLine
import Throned.Library.HostNames
import Throned.Library.Utf8Runes
import Throned.Library.RuneMaps
import Throned.Library.Expressions
import Throned.Library.RingQueue
import Throned.Model.ConnectionLog
import Throned.Analysis.ConnectionLogLines
import Throned.Analysis.ConnectionLogs
import Throned.Model.DnsAddress
import Throned.Analysis.DnsAddresses
import Throned.Analysis.RuleLines
import Throned.Library.Numbering
import Throned.Library.NetipBits
import Throned.Model.SubtractPrefix
import Throned.Analysis.SubtractedRanges
import Throned.Analysis.LogReaders
import Throned.Analysis.ChunkLoop
import Throned.Model.SingBoxOutbounds
import Throned.Analysis.SubtractedRanges
import Throned.Model.TestBuild
import Throned.Analysis.ChainHops
import Throned.Analysis.ChainBlocks
import Throned.Analysis.TestTurns
import Throned.Analysis.TestBatches
import Throned.Library.Links
import Throned.Analysis.ChainObjects
import Throned.Analysis.TestLayout
import Throned.Analysis.TestPaths
import Throned.Library.Nftables
import Throned.Model.GuardRules
import Throned.Analysis.GuardMatches
import Throned.Analysis.GuardPolicy
import Throned.Analysis.GuardRuns
import Throned.Model.Lifecycle
import Throned.Analysis.Lifecycles
