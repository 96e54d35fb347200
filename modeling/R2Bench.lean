import R2Bench.Interleaving
import R2Bench.Contracts
import R2Bench.Serial
import R2Bench.Memo
import R2Bench.Machines
import R2Bench.FanOut
import R2Bench.AtomicCells
import R2Bench.Paging
import R2Bench.Tables
import R2Bench.Shares
import R2Bench.Rounding
import R2Bench.Grouping
import R2Bench.Ranks
import R2Bench.LogLinear
import R2Bench.ByteStrings
import R2Bench.PercentEncoding
import R2Bench.Schema
import R2Bench.Types
import R2Bench.Statements
import R2Bench.Agents
import R2Bench.Spawn
import R2Bench.Orchestrator
import R2Bench.Tokens
import R2Bench.Routes
import R2Bench.Vocabulary
import R2Bench.Evolution
import R2Bench.Writers
import R2Bench.Registry
import R2Bench.PlaneContract
import R2Bench.SlotAllocation
import R2Bench.AgentMetrics
import R2Bench.AgentReports
import R2Bench.TargetShares
import R2Bench.Lifecycle
import R2Bench.RunResponses
import R2Bench.Staffing
import R2Bench.Participation
import R2Bench.SingleJob
import R2Bench.LiveAgents
import R2Bench.Completion
import R2Bench.Sweep
import R2Bench.Reaper
import R2Bench.SpawnOutcomes
import R2Bench.WholeFleet
import R2Bench.MetricRows
import R2Bench.Reporting
import R2Bench.SpawnCounts
import R2Bench.Heartbeat
import R2Bench.FailedJobs
import R2Bench.Fleet
import R2Bench.Turns
import R2Bench.EarlyStops
import R2Bench.Watch
import R2Bench.BucketLayout
import R2Bench.Quantiles
import R2Bench.TailLatency
import R2Bench.Histograms
import R2Bench.Signer
import R2Bench.CanonicalRequests
import R2Bench.QueryStrings
import R2Bench.ListingQueries
import R2Bench.Naming
import R2Bench.Configuration
import R2Bench.Buckets
import R2Bench.Seeder
import R2Bench.SeederEvents
import R2Bench.Sentinels
import R2Bench.SeederLedger
import R2Bench.Addresses
import R2Bench.Repairs
import R2Bench.Skips
import R2Bench.SeederProgress
import R2Bench.RepairGaps
import R2Bench.Convergence
import R2Bench.Outages
import R2Bench.Listings
import R2Bench.RepairListing
import R2Bench.Pacer
import R2Bench.Tickers
import R2Bench.ControlClient
import R2Bench.ControlAnswers
import R2Bench.LoadRun
import R2Bench.LoadReports
import R2Bench.TornSnapshots
import R2Bench.OfferedLoad
import R2Bench.Shutdown
import R2Bench.FleetLoad
