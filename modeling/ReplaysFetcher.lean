import ReplaysFetcher.Effectful.Proc
import ReplaysFetcher.Effectful.RelyGuarantee
import ReplaysFetcher.Effectful.Rules
import ReplaysFetcher.Effectful.Async
import ReplaysFetcher.Effectful.Record
import ReplaysFetcher.Effectful.Exec
import ReplaysFetcher.Effectful.Termination
import ReplaysFetcher.Effectful.Reach
import ReplaysFetcher.Types
import ReplaysFetcher.Time
import ReplaysFetcher.Platform
import ReplaysFetcher.Data.JsRecord
import ReplaysFetcher.Data.Settling
import ReplaysFetcher.Data.Verdict
import ReplaysFetcher.Schema
import ReplaysFetcher.Checkpoint
import ReplaysFetcher.Summary
import ReplaysFetcher.Effect
import ReplaysFetcher.CheckpointStore
import ReplaysFetcher.Slugs
import ReplaysFetcher.RawStorage
import ReplaysFetcher.Staging
import ReplaysFetcher.Ingest
import ReplaysFetcher.Discovery
import ReplaysFetcher.DryRun
import ReplaysFetcher.RunOnce
import ReplaysFetcher.Watch
import ReplaysFetcher.RunOnceRules
import ReplaysFetcher.Wiring
import ReplaysFetcher.RunLog
import ReplaysFetcher.Accounting
import ReplaysFetcher.CasSafety
import ReplaysFetcher.SelfHealing
import ReplaysFetcher.ContentAddressing
import ReplaysFetcher.Sequential
import ReplaysFetcher.Reingest
import ReplaysFetcher.DedupGates
import ReplaysFetcher.CheckpointHistory
import ReplaysFetcher.Resume
import ReplaysFetcher.Isolation
import ReplaysFetcher.Converge
import ReplaysFetcher.Failure
import ReplaysFetcher.Data.Base64
import ReplaysFetcher.Transport
import ReplaysFetcher.Retries
import ReplaysFetcher.Challenge
import ReplaysFetcher.SshBytes
import ReplaysFetcher.Data.Shell
import ReplaysFetcher.SshArguments
import ReplaysFetcher.Effectful.Replies
import ReplaysFetcher.Untrusted
import ReplaysFetcher.NeverRejects
import ReplaysFetcher.StagingContract
import ReplaysFetcher.Effectful.Runs
import ReplaysFetcher.PageTurns
import ReplaysFetcher.Effectful.Conversations
import ReplaysFetcher.FanOut
import ReplaysFetcher.WatchTrace
import ReplaysFetcher.ReadRetries
import ReplaysFetcher.WatchSpacing
import ReplaysFetcher.Data.Regex
import ReplaysFetcher.Html
import ReplaysFetcher.EmptyPages
import ReplaysFetcher.Credentials
import ReplaysFetcher.Effectful.Leads
import ReplaysFetcher.RunTrace
import ReplaysFetcher.Data.FirstMax
import ReplaysFetcher.Merging
import ReplaysFetcher.Pacing
import ReplaysFetcher.StagedFields
import ReplaysFetcher.RowAccounting
import ReplaysFetcher.CandidateIndex
import ReplaysFetcher.Data.JsNumber
import ReplaysFetcher.RetryLoop
import ReplaysFetcher.Classification
import ReplaysFetcher.Timeouts
import ReplaysFetcher.Effectful.Remembering
import ReplaysFetcher.Clamping
import ReplaysFetcher.Throttle
import ReplaysFetcher.Data.Substitution
import ReplaysFetcher.Entities
import ReplaysFetcher.Data.Blocks
import ReplaysFetcher.Data.Decimal
import ReplaysFetcher.Calendar
import ReplaysFetcher.Config
import ReplaysFetcher.KeyBuilding
import ReplaysFetcher.Data.PercentCode
import ReplaysFetcher.Data.HttpUrl
import ReplaysFetcher.Data.WordRun
import ReplaysFetcher.WebUrls
import ReplaysFetcher.RowLinks
import ReplaysFetcher.RawUrls
import ReplaysFetcher.TableCoverage
import ReplaysFetcher.StoreRaw
import ReplaysFetcher.RunResults
import ReplaysFetcher.RowIntegrity
import ReplaysFetcher.RunEnds
import ReplaysFetcher.Harvest
import ReplaysFetcher.Effectful.Sums
import ReplaysFetcher.ContractCheck
import ReplaysFetcher.Cli
import ReplaysFetcher.CliProcess
import ReplaysFetcher.Processes
