import SalesTrades.Library.Run
import SalesTrades.Library.Interleaving
import SalesTrades.Library.Table
import SalesTrades.Library.DirtyWrite
import SalesTrades.Library.PartialRecord
import SalesTrades.Library.Replay
import SalesTrades.Library.Sweep
import SalesTrades.Library.Backlog
import SalesTrades.Library.CachedColumn
import SalesTrades.Library.Keyed
import SalesTrades.Library.Stamped
import SalesTrades.Library.SlidingWindow
import SalesTrades.Library.Retry
import SalesTrades.Library.Reruns
import SalesTrades.Library.Deletion
import SalesTrades.Library.JsonText
import SalesTrades.Library.JsonRoundTrip
import SalesTrades.Python
import SalesTrades.Bookings.Model
import SalesTrades.Bookings.Confirmation
import SalesTrades.Bookings.DoubleBooking
import SalesTrades.Bookings.CodeCollisions
import SalesTrades.Trade.Model
import SalesTrades.Trade.Capture
import SalesTrades.Trade.CaptureIdentity
import SalesTrades.Trade.CaptureRepeat
import SalesTrades.Trade.CaptureRace
import SalesTrades.Trade.CrmSync
import SalesTrades.Trade.CrmRuns
import SalesTrades.Trade.CrmGates
import SalesTrades.Trade.ApprovalGate
import SalesTrades.Trade.RegistrationShape
import SalesTrades.Trade.CaptureOutcome
import SalesTrades.Trade.CaptureFailures
import SalesTrades.Trade.SharedFields
import SalesTrades.Trade.Reregistration
import SalesTrades.Trade.Documents
import SalesTrades.Trade.Eligibility
import SalesTrades.Trade.DocumentCalls
import SalesTrades.Trade.DocumentStorage
import SalesTrades.Trade.DocumentRace
import SalesTrades.Trade.PushedContacts
import SalesTrades.Trade.CrmFreshness
import SalesTrades.Trade.CrmFailures
import SalesTrades.Trade.DocumentFrame
import SalesTrades.Trade.EligibilityRuns
import SalesTrades.Leads.Model
import SalesTrades.Leads.Scoring
import SalesTrades.Leads.Capture
import SalesTrades.Leads.CaptureRace
import SalesTrades.Leads.StorableTexts
import SalesTrades.Leads.PackDelivery
import SalesTrades.Leads.PackRuns
import SalesTrades.Leads.SentMarker
import SalesTrades.Leads.PackNews
import SalesTrades.Leads.PackSweep
import SalesTrades.Leads.DeliveryCalls
import SalesTrades.Leads.DeliveryMoves
import SalesTrades.Leads.DeliveryRace
import SalesTrades.Leads.CrmSync
import SalesTrades.Leads.CrmRuns
import SalesTrades.Leads.CrmCoherence
import SalesTrades.Leads.DeliveredMarker
import SalesTrades.Leads.CrmRace
import SalesTrades.Leads.CrmFailures
import SalesTrades.Leads.ContactStore
import SalesTrades.Leads.TriageRace
import SalesTrades.Leads.TriageCoverage
import SalesTrades.Leads.Reconnect
import SalesTrades.Leads.IcpScoring
import SalesTrades.Jobs.Sweeps
import SalesTrades.Jobs.RetryCoverage
import SalesTrades.Deals.Model
import SalesTrades.Deals.Parsing
import SalesTrades.Deals.Webhook
import SalesTrades.Deals.Sync
import SalesTrades.Deals.DealRuns
import SalesTrades.Deals.SyncInterruptions
import SalesTrades.Deals.EventDiff
import SalesTrades.Deals.EventLog
import SalesTrades.Deals.StagePipeline
import SalesTrades.Deals.Mirror
import SalesTrades.Deals.ReferenceSync
import SalesTrades.Deals.InactivePipelines
import SalesTrades.Deals.WebhookRace
import SalesTrades.Deals.WebhookDates
import SalesTrades.Freshsales.RateLimiter
import SalesTrades.Emails.SubmittedText
import SalesTrades.Freshsales.AgentLogging
import SalesTrades.Freshsales.AllOrNothing
import SalesTrades.Library.Paging
import SalesTrades.Library.CivilDate
import SalesTrades.Library.DateText
import SalesTrades.Library.Strptime
import SalesTrades.PythonDates
import SalesTrades.Freshsales.DueDates
import SalesTrades.Freshsales.Pagination
import SalesTrades.Deals.TimelineBackfill
import SalesTrades.Library.Aggregate
import SalesTrades.Emails.Model
import SalesTrades.Emails.Ingest
import SalesTrades.Emails.Attribution
import SalesTrades.Emails.CampaignMailer
import SalesTrades.Emails.ClickAttribution
import SalesTrades.Emails.Readable
import SalesTrades.Emails.Rollups
import SalesTrades.Emails.BatchIsolation
import SalesTrades.Emails.IngestCalls
import SalesTrades.Emails.OpenRace
import SalesTrades.Emails.ScoreFreshness
import SalesTrades.Emails.Deletions
import SalesTrades.Leads.LateRetry
import SalesTrades.Transfer.Model
import SalesTrades.Transfer.Registrations
import SalesTrades.Transfer.Contacts
import SalesTrades.Transfer.Interruptions
import SalesTrades.Transfer.SheetImport
import SalesTrades.Transfer.SheetOutcome
import SalesTrades.Library.GroupBy
import SalesTrades.Library.LeftJoin
import SalesTrades.Library.Tally
import SalesTrades.Library.Means
import SalesTrades.Library.Markup
import SalesTrades.Library.KeyedSums
import SalesTrades.Analytics.Model
import SalesTrades.Analytics.DailySnapshot
import SalesTrades.Analytics.Trends
import SalesTrades.Analytics.Activity
import SalesTrades.Analytics.Agreement
import SalesTrades.Analytics.StaleDeals
import SalesTrades.Users.Model
import SalesTrades.Users.LastSuperadmin
import SalesTrades.Tasks.Model
import SalesTrades.Tasks.Freshness
import SalesTrades.Tasks.TaskMirror
import SalesTrades.Analytics.DealReports
import SalesTrades.Analytics.LossPartition
import SalesTrades.Analytics.TrendValuation
import SalesTrades.Analytics.AgeCoverage
import SalesTrades.Analytics.ResponseMean
import SalesTrades.Analytics.RepIsolation
import SalesTrades.Freshsales.AcquireLoop
import SalesTrades.Leads.FencedReplies
import SalesTrades.Leads.RepeatedSelections
import SalesTrades.Analytics.WebTraffic
import SalesTrades.Bookings.Availability
import SalesTrades.Leads.ProspectIngest
import SalesTrades.Leads.ActivityAttribution
import SalesTrades.Leads.BatchScoring
import SalesTrades.Library.SessionLocks
import SalesTrades.Jobs.AdvisoryLocks
import SalesTrades.Library.CsvText
import SalesTrades.Library.Separated
import SalesTrades.Library.TiedPaging
import SalesTrades.Leads.LeadPages
import SalesTrades.Leads.CsvExport
import SalesTrades.Users.Accounts
import SalesTrades.Users.Sessions
import SalesTrades.Users.TemporaryPasswords
import SalesTrades.Library.LikePattern
import SalesTrades.Trade.ParticipantSearch
import SalesTrades.Leads.OwnerAssignment
import SalesTrades.Library.Replacement
import SalesTrades.Tasks.EmailMirror
import SalesTrades.Leads.Enrichment
import SalesTrades.Library.TtlCache
import SalesTrades.Analytics.WebCache
import SalesTrades.Leads.ActivityPage
import SalesTrades.Leads.RepImport
