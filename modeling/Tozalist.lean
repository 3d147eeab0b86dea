import Tozalist.Theory.Run
import Tozalist.Theory.Txn
import Tozalist.Theory.Table
import Tozalist.Theory.Escrow
import Tozalist.Theory.Memo
import Tozalist.Theory.Chunked
import Tozalist.Theory.Calendar
import Tozalist.Theory.Csv
import Tozalist.Theory.SlidingWindow
import Tozalist.Theory.Keyset
import Tozalist.Theory.InternetAddress
import Tozalist.Js.Text
import Tozalist.Js.Date
import Tozalist.Js.Base64
import Tozalist.Js.Net
import Tozalist.Worker.WebhookTarget
import Tozalist.Redis.Keys
import Tozalist.Redis.Window
import Tozalist.Shared.CircuitBreaker
import Tozalist.Shared.EngineClient
import Tozalist.Shared.Webhooks
import Tozalist.Shared.Ssrf
import Tozalist.Core.Aggregate
import Tozalist.Core.NormalizeEmail
import Tozalist.Core.DomainTypo
import Tozalist.Engine.Reply
import Tozalist.Engine.Probe
import Tozalist.Engine.Verify
import Tozalist.Engine.EndToEnd
import Tozalist.Db.Schema
import Tozalist.Db.Ledger
import Tozalist.Db.Checks
import Tozalist.Db.EmailChecks
import Tozalist.Db.Batches
import Tozalist.Db.Lifecycle
import Tozalist.Db.Webhooks
import Tozalist.Db.Pages
import Tozalist.Db.Export
import Tozalist.Credits.Standing
import Tozalist.Credits.Book
import Tozalist.Credits.Safety
import Tozalist.Credits.Retention
import Tozalist.Credits.Custody
import Tozalist.Credits.Cutoff
import Tozalist.Credits.Reservation
import Tozalist.Credits.Settlement
import Tozalist.Worker.RowResult
import Tozalist.Worker.BatchProcessor
import Tozalist.Worker.AddressLog
import Tozalist.Worker.BatchRun
import Tozalist.Api.CsvInspect
import Tozalist.Worker.Deduplication
import Tozalist.Worker.Accounting
import Tozalist.Worker.ResultFile
import Tozalist.Worker.RowOrder
import Tozalist.Worker.Columns
import Tozalist.Worker.Isolation
import Tozalist.Api.DataExport
import Tozalist.Api.ExportArchive
import Tozalist.Worker.Throttle
import Tozalist.Worker.Exclusion
import Tozalist.Worker.WebhookDelivery
import Tozalist.Worker.Announcement
import Tozalist.Api.RateLimit
import Tozalist.Worker.SmtpProbe
import Tozalist.Api.CheckService
import Tozalist.Worker.Execution
import Tozalist.Worker.Stranding
import Tozalist.Worker.CustodyRuns
import Tozalist.Shared.ObjectStorage
import Tozalist.Db.Retention
import Tozalist.Worker.LifecycleSweep
import Tozalist.Theory.Interrupt
import Tozalist.Worker.SweepCoverage
import Tozalist.Worker.BatchFiles
import Tozalist.Worker.FileRemoval
import Tozalist.Worker.SweepTables
import Tozalist.Worker.FilesCustody
import Tozalist.Theory.Regex
import Tozalist.Shared.LogText
import Tozalist.Shared.Logging
import Tozalist.Engine.Conclusions
import Tozalist.Engine.Fallback
import Tozalist.Engine.ErrorText
import Tozalist.Shared.EngineVerify
import Tozalist.Shared.FetchTransport
import Tozalist.Worker.ProbeJob
import Tozalist.Credits.CheckRace
import Tozalist.Credits.GrantReplay
import Tozalist.Db.Statements
import Tozalist.Credits.MonthlyChain
import Tozalist.Credits.Exactness
import Tozalist.Api.Product
import Tozalist.Api.DeletedOrganization
import Tozalist.Core.NearestDomain
import Tozalist.Core.Normalization
import Tozalist.Core.Suggestion
import Tozalist.Worker.DomainCircuit
import Tozalist.Api.Totp
import Tozalist.Api.SecondFactor
import Tozalist.Theory.Interleaving
import Tozalist.Theory.Rejection
import Tozalist.Db.Crypto
import Tozalist.Api.Accounts
import Tozalist.Api.Dashboard
import Tozalist.Api.Deeds
import Tozalist.Api.Authority
import Tozalist.Engine.Wire
import Tozalist.Shared.Contract
import Tozalist.Engine.Conversation
