import GoodputLab.Router
import GoodputLab.Autoscaler
import GoodputLab.RouterAdmit
import GoodputLab.AutoscalerSafety
import GoodputLab.Base.Draws
import GoodputLab.SynthText
import GoodputLab.Workloads
import GoodputLab.CellRunner
import GoodputLab.Matrix
import GoodputLab.MatrixResume
import GoodputLab.ChatBudget
import GoodputLab.Base.Collect
import GoodputLab.Preflight
import GoodputLab.Base.Act
import GoodputLab.KvMeasure
import GoodputLab.KvWindow
import GoodputLab.Metrics
import GoodputLab.Base.Json
import GoodputLab.Proxy
import GoodputLab.ProxyStatus
import GoodputLab.MetricsConcat
import GoodputLab.Client
import GoodputLab.ClientStatus
import GoodputLab.MatrixRunAll
import GoodputLab.MatrixPending
import GoodputLab.Base.SlidingWindow
import GoodputLab.Eagle
import GoodputLab.EagleGate
import GoodputLab.EagleWindow
import GoodputLab.PidLatch
import GoodputLab.RouterCache
import GoodputLab.RouterNamespaces
import GoodputLab.Base.LeastSquares
import GoodputLab.FakeEngine
import GoodputLab.FakeIndependence
import GoodputLab.FakeServes
import GoodputLab.KvCell
import GoodputLab.KvCellWaves
import GoodputLab.KvDryRun
import GoodputLab.KvDryRunSlope
import GoodputLab.KvEndSample
import GoodputLab.CellReuse
import GoodputLab.MatrixReport
import GoodputLab.Arrival
import GoodputLab.ArrivalBudget
import GoodputLab.Base.RollingHash
import GoodputLab.CellWarmup
import GoodputLab.ArrivalSchedule
import GoodputLab.ClientRun
import GoodputLab.RunMatrix
import GoodputLab.TopologyPairing
import GoodputLab.Base.Renewal
import GoodputLab.RunMatrixExit
import GoodputLab.KvCellText
import GoodputLab.KvResume
import GoodputLab.Base.Csv
import GoodputLab.KvResults
import GoodputLab.KvFigures
import GoodputLab.KvLoaders
import GoodputLab.KvFinish
import GoodputLab.KvTheory
import GoodputLab.Base.Recency
import GoodputLab.RouterLru
import GoodputLab.RouterCold
import GoodputLab.RouterOrder
import GoodputLab.SynthTextLength
import GoodputLab.RagSticky
import GoodputLab.SseLines
import GoodputLab.ClientStream
import GoodputLab.MetricsKeys
import GoodputLab.Reconcile
import GoodputLab.ProxyHandle
import GoodputLab.ProxyServes
import GoodputLab.Sentinel
import GoodputLab.SentinelMatch
import GoodputLab.FakeBatch
import GoodputLab.FakeSample
import GoodputLab.AutoscalerView
import GoodputLab.AutoscalerThrash
import GoodputLab.AutoscalerPools
import GoodputLab.AutoscalerLoad
import GoodputLab.AutoscalerTarget
import GoodputLab.Orchestrator
import GoodputLab.OrchestratorHits
import GoodputLab.Base.GroupBy
import GoodputLab.MatrixSummary
import GoodputLab.VllmDriver
import GoodputLab.EagleCounters
import GoodputLab.Lmcache
import GoodputLab.LmcacheAccounts
import GoodputLab.Base.DutyCycle
import GoodputLab.ArrivalWindows
import GoodputLab.ArrivalExpected
import GoodputLab.LmcacheCapacity
import GoodputLab.SseTotal
import GoodputLab.MetricsQueue
import GoodputLab.ReconcileSuccess
import GoodputLab.KvBestFit
import GoodputLab.KvKnee
import GoodputLab.KvPrompts
import GoodputLab.Base.Words
import GoodputLab.SynthTextCount
import GoodputLab.WorkloadRuns
import GoodputLab.ChatPrompt
import GoodputLab.RagPrompts
import GoodputLab.AgenticPrompts
import GoodputLab.WorkloadsComplete
import GoodputLab.AgenticHistory
import GoodputLab.Base.OrderStatistics
import GoodputLab.Percentile
import GoodputLab.OrchestratorSlots
import GoodputLab.MatrixCrash
import GoodputLab.RouterBench
import GoodputLab.MetricsScrape
import GoodputLab.AutoscalerLive
import GoodputLab.AutoscalerRamp
import GoodputLab.MockVllm
import GoodputLab.KvCellFile
import GoodputLab.ProxyClient
import GoodputLab.KvSweepIds
import GoodputLab.MatrixCost
import GoodputLab.KvSweepResume
