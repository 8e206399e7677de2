import NrScheduler.Lib.AListModify
import NrScheduler.Lib.AListRel
import NrScheduler.Lib.Accounts
import NrScheduler.Lib.Bisection
import NrScheduler.Lib.Bitmap
import NrScheduler.Lib.Buddy
import NrScheduler.Lib.CappedSum
import NrScheduler.Lib.Carve
import NrScheduler.Lib.CheckedDouble
import NrScheduler.Lib.Coupling
import NrScheduler.Lib.Double
import NrScheduler.Lib.FirstCome
import NrScheduler.Lib.FirstFit
import NrScheduler.Lib.LeadingDigits
import NrScheduler.Lib.LockMonad
import NrScheduler.Lib.Residues
import NrScheduler.Lib.Runs
import NrScheduler.Lib.ScaledMax
import NrScheduler.Lib.Shares
import NrScheduler.Lib.SlidingWindow
import NrScheduler.Lib.SortedMap
import NrScheduler.Lib.Tiling
import NrScheduler.Lib.WrappingSum
import NrScheduler.Core.BlockSize
import NrScheduler.Core.CellContext
import NrScheduler.Core.ControlChannel
import NrScheduler.Core.HarqSpec
import NrScheduler.Core.Oblivious
import NrScheduler.Core.Occasions
import NrScheduler.Core.Platform
import NrScheduler.Core.ResourceGrid
import NrScheduler.Core.Types
import NrScheduler.Core.UeContext
import NrScheduler.Core.UnwrappedTime
import NrScheduler.Engine.Alike
import NrScheduler.Engine.AlikeRuns
import NrScheduler.Engine.AlikeSlots
import NrScheduler.Engine.Asks
import NrScheduler.Engine.Faults
import NrScheduler.Engine.HarqTimingTracker
import NrScheduler.Engine.Interfaces
import NrScheduler.Engine.Load
import NrScheduler.Engine.Locality
import NrScheduler.Engine.Policy
import NrScheduler.Engine.PolicyHistory
import NrScheduler.Engine.ReportBook
import NrScheduler.Engine.Reports
import NrScheduler.Engine.ResourceAllocator
import NrScheduler.Engine.RoundRobinHistory
import NrScheduler.Engine.RoundRobinOrder
import NrScheduler.Engine.RoundRobinSlot
import NrScheduler.Engine.RunSpec
import NrScheduler.Engine.ScheduleSpec
import NrScheduler.Engine.SchedulerEngine
import NrScheduler.Engine.ServingSpec
import NrScheduler.Engine.SlotAccounts
import NrScheduler.Engine.SlotSpec
import NrScheduler.Engine.StepSpec
import NrScheduler.Engine.ThroughputOrder
import NrScheduler.Engine.Transmissions
import NrScheduler.Services.BudgetSpec
import NrScheduler.Services.BudgetValues
import NrScheduler.Services.Operations
import NrScheduler.Services.OrchestratorSpec
import NrScheduler.Services.QosEngine
import NrScheduler.Services.QosSpec
import NrScheduler.Services.SliceOrchestrator
import NrScheduler.Properties.AckDelay
import NrScheduler.Properties.AllocatorCorrectness
import NrScheduler.Properties.BelowSaturation
import NrScheduler.Properties.BlockTransfers
import NrScheduler.Properties.BoostOrder
import NrScheduler.Properties.BorrowLedger
import NrScheduler.Properties.Borrowing
import NrScheduler.Properties.BufferTotals
import NrScheduler.Properties.CandidateLoss
import NrScheduler.Properties.CceBlocks
import NrScheduler.Properties.CcePacking
import NrScheduler.Properties.CellIsolation
import NrScheduler.Properties.CellSafety
import NrScheduler.Properties.ContiguousSearch
import NrScheduler.Properties.CriticalVerdicts
import NrScheduler.Properties.DelayHead
import NrScheduler.Properties.EventLocality
import NrScheduler.Properties.FaultFreeRuns
import NrScheduler.Properties.FeedbackOrder
import NrScheduler.Properties.FeedbackOwners
import NrScheduler.Properties.FeedbackRouting
import NrScheduler.Properties.FeedbackWindow
import NrScheduler.Properties.FlowCounters
import NrScheduler.Properties.FlowIsolation
import NrScheduler.Properties.FrameArithmetic
import NrScheduler.Properties.GbrReports
import NrScheduler.Properties.GrantCauses
import NrScheduler.Properties.GrantCollision
import NrScheduler.Properties.GridOccupancy
import NrScheduler.Properties.GridRefusal
import NrScheduler.Properties.HarqExclusivity
import NrScheduler.Properties.HarqReachability
import NrScheduler.Properties.HashOrder
import NrScheduler.Properties.LatestReports
import NrScheduler.Properties.LinkAdaptation
import NrScheduler.Properties.MeasuredRates
import NrScheduler.Properties.Memoryless
import NrScheduler.Properties.MinimumRbs
import NrScheduler.Properties.OldestRetransmission
import NrScheduler.Properties.OverBudget
import NrScheduler.Properties.PeriodicOccasions
import NrScheduler.Properties.PolicyMemory
import NrScheduler.Properties.PriorityNeed
import NrScheduler.Properties.PriorityOrder
import NrScheduler.Properties.PuschBooking
import NrScheduler.Properties.QosEvents
import NrScheduler.Properties.RateLimit
import NrScheduler.Properties.RateWindow
import NrScheduler.Properties.RbConservation
import NrScheduler.Properties.RealWork
import NrScheduler.Properties.RetxContents
import NrScheduler.Properties.RoundRobinAge
import NrScheduler.Properties.RoundRobinWaiting
import NrScheduler.Properties.SchedulingRequests
import NrScheduler.Properties.SelfDeadlock
import NrScheduler.Properties.SlaMonitoring
import NrScheduler.Properties.SliceCap
import NrScheduler.Properties.SliceIntegrity
import NrScheduler.Properties.SliceIsolation
import NrScheduler.Properties.SliceMembership
import NrScheduler.Properties.SlotIndependence
import NrScheduler.Properties.SlotLimits
import NrScheduler.Properties.SlotUsage
import NrScheduler.Properties.Starvation
import NrScheduler.Properties.StatisticsExact
import NrScheduler.Properties.StrictSlices
import NrScheduler.Properties.TddContinuity
import NrScheduler.Properties.TddDirection
import NrScheduler.Properties.TokenRefill
import NrScheduler.Properties.TopFlow
import NrScheduler.Properties.TransportBlockSize
import NrScheduler.Properties.UeIndexes
import NrScheduler.Properties.UeLimits
import NrScheduler.Properties.UnseenSettings
import NrScheduler.Properties.WorkConservation
