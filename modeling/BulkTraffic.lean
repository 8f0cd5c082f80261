import BulkTraffic.Lib.Weight
import BulkTraffic.Lib.Runs
import BulkTraffic.Lib.JsMap
import BulkTraffic.Lib.JsArray
import BulkTraffic.Js.Number
import BulkTraffic.Js.Text
import BulkTraffic.Js.Value
import BulkTraffic.Queue.Task
import BulkTraffic.Queue.Router
import BulkTraffic.Queue.WorkerHealth
import BulkTraffic.Queue.WorkerPool
import BulkTraffic.Queue.WorkerSlots
import BulkTraffic.Queue.PoolFlow
import BulkTraffic.Queue.PoolSlots
import BulkTraffic.Queue.PoolRuns
import BulkTraffic.Queue.PoolAccounting
import BulkTraffic.Queue.OptionsParser
import BulkTraffic.Queue.State
import BulkTraffic.Queue.Batch
import BulkTraffic.Queue.Memory
import BulkTraffic.Queue.System
import BulkTraffic.Queue.SystemFlow
import BulkTraffic.Queue.Conservation
import BulkTraffic.Queue.QueueWait
import BulkTraffic.Queue.Slots
import BulkTraffic.Queue.BatchSizes
import BulkTraffic.Queue.Statistics
import BulkTraffic.Http.Analyzer
import BulkTraffic.Http.Middleware
import BulkTraffic.Http.Answers
import BulkTraffic.Orders.Consumer
import BulkTraffic.Orders.CommitModes
import BulkTraffic.Orders.CommitOffsets
import BulkTraffic.Lib.Heap
import BulkTraffic.GoEngine.PriorityQueue
import BulkTraffic.GoEngine.Pool
import BulkTraffic.GoEngine.Backpressure
import BulkTraffic.Lib.Sieve
import BulkTraffic.Workload.FindPrimes
import BulkTraffic.Orders.Events
import BulkTraffic.Orders.MemoryDispatcher
import BulkTraffic.Queue.CustomWorkload
import BulkTraffic.Http.CustomWorkload
import BulkTraffic.Lib.GroupBy
import BulkTraffic.Orders.Store
import BulkTraffic.Orders.Duplicates
import BulkTraffic.Orders.Groups
import BulkTraffic.LoadTest.Metrics
import BulkTraffic.LoadTest.Compare
import BulkTraffic.GoEngine.PoolCounts
import BulkTraffic.GoEngine.Server
import BulkTraffic.Js.NumberText
import BulkTraffic.Orders.KafkaInspector
import BulkTraffic.Lab.ConsumerConfig
import BulkTraffic.Lab.ConsumerProcess
import BulkTraffic.Js.Json
import BulkTraffic.Js.JsonText
import BulkTraffic.Js.JsonRoundTrip
import BulkTraffic.Js.NumberLiteral
import BulkTraffic.Orders.Publisher
import BulkTraffic.GoEngine.Consumer
import BulkTraffic.Orders.OrderService
import BulkTraffic.Orders.GoDecoding
import BulkTraffic.GoEngine.Shutdown
import BulkTraffic.Queue.PoolConserving
import BulkTraffic.Queue.Ticks
import BulkTraffic.Queue.Signals
import BulkTraffic.Queue.BatchRuns
import BulkTraffic.Queue.BatchMirror
import BulkTraffic.Queue.Cleanup
import BulkTraffic.Queue.Snapshot
import BulkTraffic.Queue.SnapshotSaves
import BulkTraffic.Queue.Timeouts
import BulkTraffic.GoEngine.RateLimit
import BulkTraffic.GoEngine.Retry
import BulkTraffic.GoEngine.Handlers
import BulkTraffic.GoEngine.Durations
import BulkTraffic.GoEngine.ConsumerConfig
import BulkTraffic.GoEngine.Deadlines
import BulkTraffic.GoEngine.Latency
import BulkTraffic.Http.Overload
import BulkTraffic.Queue.PoolShutdown
import BulkTraffic.Http.SlowHandlers
import BulkTraffic.Orders.CommitOffsets
import BulkTraffic.Orders.BulkOrders
import BulkTraffic.Orders.Lifecycles
import BulkTraffic.Lib.Trim
import BulkTraffic.GoEngine.ConsumerSettings
import BulkTraffic.Queue.Fallbacks
import BulkTraffic.Js.Rounding
import BulkTraffic.Js.IntegerText
import BulkTraffic.Config.EnvValidation
import BulkTraffic.Lib.Utf8
import BulkTraffic.Lib.Lines
import BulkTraffic.Lab.ConsumerLogs
import BulkTraffic.LoadTest.SseStream
import BulkTraffic.Lab.ProcessTable
import BulkTraffic.Lib.Arrays
import BulkTraffic.Orders.ConsumerStats
import BulkTraffic.GoEngine.ConsumerStats
import BulkTraffic.Orders.StatsAgreement
import BulkTraffic.Orders.TopicProvisioner
import BulkTraffic.Orders.ConsumerMain
import BulkTraffic.Orders.EventOrder
import BulkTraffic.Lib.Loops
import BulkTraffic.Lib.ClassQueue
import BulkTraffic.Queue.Dequeue
import BulkTraffic.Queue.Draining
import BulkTraffic.Queue.DispatchOrder
import BulkTraffic.Js.Comparable
import BulkTraffic.LoadTest.TaskMetrics
import BulkTraffic.LoadTest.EventStream
import BulkTraffic.LoadTest.RunStream
import BulkTraffic.GoEngine.ConsumerAtMostOnce
import BulkTraffic.Queue.WorkerResults
import BulkTraffic.GoEngine.Answers
import BulkTraffic.Queue.Restarts
