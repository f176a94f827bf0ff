import LibraFlow.Container.LoanConsistency
import LibraFlow.Container.CacheTransparency
import LibraFlow.Storage.OutboxDelivery
import LibraFlow.Api.IdempotencyProperties
import LibraFlow.Postgres.CachedDetails
import LibraFlow.Postgres.CopyLifecycle
import LibraFlow.Postgres.ExactlyOnce
import LibraFlow.Postgres.Stocking
import LibraFlow.Postgres.UserRow
import LibraFlow.Patterns.ReservationProperties
import LibraFlow.Patterns.ReservationRuns
import LibraFlow.Container.Desk
import LibraFlow.Container.Holds
import LibraFlow.Container.TransferLedger
import LibraFlow.Ai.TrackingProperties
import LibraFlow.Container.TransferMetrics
import LibraFlow.Storage.Representation
import LibraFlow.Container.Stock
import LibraFlow.Storage.Acquisition
import LibraFlow.Container.Acquisition
import LibraFlow.Postgres.Acquisition
import LibraFlow.Ai.Rebalancing
import LibraFlow.Ai.RebalancingProperties
import LibraFlow.Storage.Loading
import LibraFlow.Postgres.Rebalancing
import LibraFlow.Core.CopyMethods
import LibraFlow.Postgres.Mapping
import LibraFlow.Services.FineAccounts
import LibraFlow.Storage.LockManager
import LibraFlow.Storage.LockManagerProperties
import LibraFlow.Distributed.EventStream
import LibraFlow.Distributed.EventStreamProperties
import LibraFlow.Api.Auth
import LibraFlow.Api.AuthProperties
import LibraFlow.Api.ClaimOwnership
import LibraFlow.Api.Replicas
import LibraFlow.Container.ConcurrentIssue
import LibraFlow.Container.BorrowLimit
import LibraFlow.Postgres.BorrowLimit
import LibraFlow.Storage.CircuitBreaker
import LibraFlow.Storage.CircuitBreakerCalls
import LibraFlow.Container.IssueAtomicity
import LibraFlow.Ai.GreedyPlan
import LibraFlow.Container.PlanExecution
import LibraFlow.Container.PlanSafety
import LibraFlow.Container.ReturnSpec
import LibraFlow.Dsa.InvertedIndex
import LibraFlow.Dsa.InvertedIndexProperties
import LibraFlow.Dsa.SearchScan
import LibraFlow.Services.CatalogSearch
import LibraFlow.Postgres.AvailabilitySearch
import LibraFlow.Library.Trie
import LibraFlow.Dsa.Trie
import LibraFlow.Services.Autocomplete
import LibraFlow.Library.Frame
import LibraFlow.Postgres.Circulation
import LibraFlow.Postgres.LoanHistory
import LibraFlow.Postgres.Rollback
import LibraFlow.Library.BinaryHeap
import LibraFlow.Library.Recency
import LibraFlow.Dsa.SearchScoring
import LibraFlow.Dsa.IsbnSearch
import LibraFlow.Dsa.TrieScan
import LibraFlow.Dsa.AllocationOrder
import LibraFlow.Storage.CacheRecency
import LibraFlow.Services.WalletPayments
import LibraFlow.Container.StalePlans
import LibraFlow.Container.AllocationDrops
import LibraFlow.Library.Digraph
import LibraFlow.Dsa.Graph
import LibraFlow.Dsa.ShortestPath
import LibraFlow.Library.DepthFirst
import LibraFlow.Dsa.LearningPath
import LibraFlow.Library.Completion
import LibraFlow.Library.Ranking
import LibraFlow.Dsa.Related
import LibraFlow.Ai.Recommendations
import LibraFlow.Distributed.Consumption
import LibraFlow.Distributed.Pipeline
import LibraFlow.Container.Trails
import LibraFlow.Container.Replay
import LibraFlow.Postgres.Phases
import LibraFlow.Postgres.LockOrder
import LibraFlow.Postgres.Completion
import LibraFlow.Storage.RedisCache
import LibraFlow.Storage.OutageLoad
import LibraFlow.Postgres.BoundedStaleness
import LibraFlow.Library.Simulation
import LibraFlow.Postgres.Backends
import LibraFlow.Postgres.LoanOutcomes
import LibraFlow.Postgres.Interchange
import LibraFlow.Postgres.SameLibrary
import LibraFlow.Postgres.Alone
