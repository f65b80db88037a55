import PreCommunity.Concurrent.Pool
import PreCommunity.Store.Table
import PreCommunity.Chain.Forest
import PreCommunity.Market.Schema
import PreCommunity.Market.World
import PreCommunity.Market.Pricing
import PreCommunity.Market.ChargeChain
import PreCommunity.Market.Wallet
import PreCommunity.Market.Charges
import PreCommunity.Market.Publication
import PreCommunity.Market.Capture
import PreCommunity.Market.Indexer
import PreCommunity.Market.System
import PreCommunity.Market.Effects
import PreCommunity.Market.Writes
import PreCommunity.Market.Ledger
import PreCommunity.Market.Settlement
import PreCommunity.Market.Reservation
import PreCommunity.Market.Growth
import PreCommunity.Market.Keeping
import PreCommunity.Market.Rely
import PreCommunity.Market.Nonce
import PreCommunity.Market.Publishing
import PreCommunity.Market.Requests
import PreCommunity.Market.Safety
import PreCommunity.Market.Debt
import PreCommunity.Market.Replacement
import PreCommunity.Market.Checkpoint
import PreCommunity.Market.Frame
import PreCommunity.Market.Evidence
import PreCommunity.Market.Reconcile
import PreCommunity.Market.Prepare
import PreCommunity.Market.RunLoop
import PreCommunity.Market.Section
import PreCommunity.Market.Pass
import PreCommunity.Market.Contract
import PreCommunity.Market.Projection
import PreCommunity.Calendar.Utc
import PreCommunity.Escrow.Schema
import PreCommunity.Escrow.Schedule
import PreCommunity.Escrow.Handlers
import PreCommunity.Escrow.Reset
import PreCommunity.Escrow.World
import PreCommunity.Escrow.Requests
import PreCommunity.Escrow.SafeSync
import PreCommunity.Escrow.Indexer
import PreCommunity.Escrow.System
import PreCommunity.Escrow.Writes
import PreCommunity.Escrow.Transactions
import PreCommunity.Escrow.Books
import PreCommunity.Escrow.Events
import PreCommunity.Escrow.Rows
import PreCommunity.Market.Split
import PreCommunity.Escrow.SafeLoops
import PreCommunity.Concurrent.Within
import PreCommunity.Admin.Schema
import PreCommunity.Admin.Lifecycle
import PreCommunity.Admin.Managers
import PreCommunity.Admin.System
import PreCommunity.Admin.Writes
import PreCommunity.Admin.Exclusive
import PreCommunity.Admin.Live
import PreCommunity.Concurrent.Locks
import PreCommunity.Concurrent.Triples
import PreCommunity.Community.Schema
import PreCommunity.Community.Proposals
import PreCommunity.Community.Forum
import PreCommunity.Community.Drafts
import PreCommunity.Community.System
import PreCommunity.Metrics.Counters
import PreCommunity.Metrics.Balance
import PreCommunity.Metrics.Flush
import PreCommunity.Community.Writes
import PreCommunity.Community.Rely
import PreCommunity.Community.Discipline
import PreCommunity.Community.Jobs
import PreCommunity.Community.Votes
import PreCommunity.Community.Conversion
import PreCommunity.Community.Frozen
import PreCommunity.Community.Publication
import PreCommunity.Community.Quotas
import PreCommunity.Community.DraftLife
import PreCommunity.Text.Decimal
import PreCommunity.Market.Admission
import PreCommunity.Market.Rates
import PreCommunity.Market.Seniority
import PreCommunity.Text.Words
import PreCommunity.Store.Sorting
import PreCommunity.Ads.Ranking
import PreCommunity.Ads.Keywords
import PreCommunity.Ads.Selection
import PreCommunity.Ads.Advice
import PreCommunity.Ads.Delivery
import PreCommunity.Text.Base64
import PreCommunity.Text.Json
import PreCommunity.Ads.Campaigns
import PreCommunity.Ads.Resolver
import PreCommunity.Market.Reopening
import PreCommunity.Market.Switch
import PreCommunity.Calendar.Months
import PreCommunity.Escrow.Settlement
import PreCommunity.Escrow.Attribution
import PreCommunity.Admin.Assignments
import PreCommunity.Concurrent.Sequential
import PreCommunity.Admin.Submittable
import PreCommunity.Admin.Confirmation
import PreCommunity.Text.Positional
import PreCommunity.Shared.Bases
import PreCommunity.Shared.Cid
import PreCommunity.Paging.Keyset
import PreCommunity.Paging.Cursors
import PreCommunity.Paging.Endpoints
import PreCommunity.Calendar.Dates
import PreCommunity.Text.Exact
import PreCommunity.Price.Pipeline
import PreCommunity.Escrow.Evidence
import PreCommunity.Escrow.Conservation
import PreCommunity.Escrow.Delivery
import PreCommunity.Escrow.Replay
import PreCommunity.Escrow.Ledger
import PreCommunity.Escrow.EventLog
import PreCommunity.Escrow.Canonical
import PreCommunity.Auth.Sessions
import PreCommunity.Auth.Agreement
import PreCommunity.Limits.FixedWindow
import PreCommunity.Auth.RateLimit
import PreCommunity.Concurrent.Promises
import PreCommunity.Market.Billing
import PreCommunity.Market.Windows
import PreCommunity.Store.Journal
import PreCommunity.Market.Signatures
import PreCommunity.Market.Finality
import PreCommunity.Ads.Moderation
