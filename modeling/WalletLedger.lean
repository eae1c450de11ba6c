import WalletLedger.Lib.Program
import WalletLedger.Lib.Interleave
import WalletLedger.Lib.RowLock
import WalletLedger.Lib.Runs
import WalletLedger.Lib.Checkpoint
import WalletLedger.Lib.Drafts
import WalletLedger.Lib.Decimal
import WalletLedger.Domain.Aggregates
import WalletLedger.Models.Statements
import WalletLedger.Models.Integrity
import WalletLedger.Application.Accounts
import WalletLedger.Application.Ledger
import WalletLedger.Application.Notifications
import WalletLedger.Application.Balances
import WalletLedger.Application.Deposits
import WalletLedger.Application.Fx
import WalletLedger.Application.Reversals
import WalletLedger.Application.Transfers
import WalletLedger.Api.Endpoints
import WalletLedger.Operations.Isolation
import WalletLedger.Operations.Operation
import WalletLedger.Operations.Services
import WalletLedger.Operations.Effects
import WalletLedger.Operations.Views
import WalletLedger.Operations.Refinement
import WalletLedger.Sequential.Runs
import WalletLedger.Sequential.Invariants
import WalletLedger.Sequential.Conservation
import WalletLedger.Sequential.Snapshots
import WalletLedger.Sequential.Overdraft
import WalletLedger.Sequential.Progress
import WalletLedger.Sequential.Audit
import WalletLedger.Sequential.Reversals
import WalletLedger.Concurrent.Sessions
import WalletLedger.Concurrent.Journal
import WalletLedger.Concurrent.Ledger
import WalletLedger.Concurrent.Guarded
import WalletLedger.Concurrent.Locked
import WalletLedger.Concurrent.Settlement
import WalletLedger.Concurrent.Reversals
import WalletLedger.Concurrent.Deposits
import WalletLedger.Concurrent.Services
import WalletLedger.Concurrent.Payments
import WalletLedger.Concurrent.Funds
import WalletLedger.Concurrent.Cuts
import WalletLedger.Lib.Archive
import WalletLedger.Operations.Execution
import WalletLedger.Sequential.Reservations
import WalletLedger.Sequential.Deposits
import WalletLedger.Sequential.Readings
import WalletLedger.Application.BalanceQuery
import WalletLedger.Sequential.Cache
import WalletLedger.Sequential.TwoPhase
import WalletLedger.Operations.Keys
import WalletLedger.Sequential.Requests
import WalletLedger.Operations.Faults
import WalletLedger.Sequential.Retries
import WalletLedger.Infrastructure.Payments
import WalletLedger.Api.Webhooks
import WalletLedger.Sequential.Settling
import WalletLedger.Sequential.Webhooks
import WalletLedger.Infrastructure.Verification
import WalletLedger.Sequential.Callbacks
import WalletLedger.Sequential.RoundTrip
import WalletLedger.Sequential.Movements
import WalletLedger.Application.Conversions
import WalletLedger.Sequential.Exchanges
import WalletLedger.Sequential.Postings
import WalletLedger.Application.Seeds
import WalletLedger.Sequential.Funding
import WalletLedger.Api.Errors
import WalletLedger.Sequential.Limits
import WalletLedger.Sequential.ExchangeLimits
import WalletLedger.Sequential.Extremes
import WalletLedger.Concurrent.Tidy
import WalletLedger.Concurrent.Invalidation
import WalletLedger.Concurrent.Cache
import WalletLedger.Concurrent.LockOrder
import WalletLedger.Concurrent.LockSequence
import WalletLedger.Concurrent.Deadlocks
import WalletLedger.Concurrent.Claims
import WalletLedger.Concurrent.Serving
import WalletLedger.Concurrent.Replays
import WalletLedger.Sequential.Entries
import WalletLedger.Domain.Arithmetic
import WalletLedger.Sequential.Transparency
import WalletLedger.Sequential.Notifications
import WalletLedger.Api.Accounts
import WalletLedger.Api.Application
import WalletLedger.Lib.Crash
import WalletLedger.Operations.Surface
import WalletLedger.Sequential.Handling
import WalletLedger.Sequential.Seeding
import WalletLedger.Sequential.Crashes
import WalletLedger.Sequential.Outcomes
import WalletLedger.Sequential.Repeats
import WalletLedger.Sequential.Vouchers
import WalletLedger.Sequential.Holdings
import WalletLedger.Api.History
import WalletLedger.Sequential.Histories
import WalletLedger.Concurrent.Histories
import WalletLedger.Concurrent.Sums
import WalletLedger.Concurrent.Conservation
import WalletLedger.Sequential.Releases
import WalletLedger.Lib.Environments
import WalletLedger.Operations.Caching
import WalletLedger.Sequential.Uncached
import WalletLedger.Api.Quotes
import WalletLedger.Sequential.Quotes
import WalletLedger.Concurrent.Decisions
