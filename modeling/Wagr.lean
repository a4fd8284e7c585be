import Wagr.Library.Program
import Wagr.Library.Interleaving
import Wagr.Library.History
import Wagr.Library.Past
import Wagr.Library.Beside
import Wagr.Library.Solo
import Wagr.Library.Binary64
import Wagr.Library.Execution
import Wagr.Library.Replay
import Wagr.Library.Table
import Wagr.Library.Attribution
import Wagr.Library.Course
import Wagr.Library.Bytes
import Wagr.Library.Calldata
import Wagr.Library.Buffer
import Wagr.Library.Pools
import Wagr.Library.LastWins
import Wagr.Library.FirstWins
import Wagr.Basic
import Wagr.Escrow.Token
import Wagr.Escrow.Contract
import Wagr.Escrow.Ledger
import Wagr.Escrow.Solvency
import Wagr.Escrow.Refunds
import Wagr.Escrow.Distribution
import Wagr.Escrow.Callbacks
import Wagr.Escrow.Reentrancy
import Wagr.Database.Schema
import Wagr.Database.Statements
import Wagr.Database.Queries
import Wagr.Database.Effects
import Wagr.Database.MemberEffects
import Wagr.Database.EventEffects
import Wagr.Database.Integrity
import Wagr.Service.Calls
import Wagr.Service.Hedera
import Wagr.Service.Oracle
import Wagr.Service.League
import Wagr.Service.Reads
import Wagr.Service.Auth
import Wagr.Service.World
import Wagr.Service.Calldata
import Wagr.Service.Rules
import Wagr.Service.Footprint
import Wagr.Service.Steps
import Wagr.Service.Rows
import Wagr.Service.Events
import Wagr.Service.Submissions
import Wagr.Service.Scenario
import Wagr.Service.Refusals
import Wagr.Service.Integrity
import Wagr.Payouts.MicroUSDC
import Wagr.Payouts.CallBuffers
import Wagr.Payouts.Checked
import Wagr.Payouts.SameCheck
import Wagr.Payouts.Ledger
import Wagr.Payouts.KeptRules
import Wagr.Payouts.Complete
import Wagr.Payouts.SeasonEnd
import Wagr.Payouts.SeasonTrace
import Wagr.Payouts.Status
import Wagr.Payouts.Once
import Wagr.Payouts.Failed
import Wagr.Payouts.Cancellation
import Wagr.Payouts.WeeklyRun
import Wagr.Payouts.WeeklyRetry
import Wagr.Payouts.EveryPrize
import Wagr.Payouts.WeeklyEvents
import Wagr.Payouts.Weekly
import Wagr.Payouts.Distributed
import Wagr.Payouts.Winner
import Wagr.Payouts.EveryLeague
import Wagr.Payouts.CurrentSeason
import Wagr.Payouts.SettlementCourse
import Wagr.Payouts.Settlement
import Wagr.Payouts.EveryRule
import Wagr.Payouts.Bracket
import Wagr.Accounts.Tokens
import Wagr.Accounts.LoginProtocol
import Wagr.Accounts.Nonces
import Wagr.Accounts.Verification
import Wagr.Accounts.SignatureLength
import Wagr.Accounts.Login
import Wagr.Accounts.Identities
import Wagr.Accounts.Linking
import Wagr.Accounts.OneUser
import Wagr.Payouts.WholeMembers
import Wagr.Payments.Confirmation
import Wagr.Payments.Exactness
import Wagr.Payments.Scope
import Wagr.Payments.Verified
import Wagr.Payments.Backing
import Wagr.Payments.OnChain
import Wagr.Payments.Reactivated
import Wagr.Payments.Reset
import Wagr.Payments.LifeCycle
import Wagr.Payments.Evidence
import Wagr.Payments.OneAddress
import Wagr.Web.ConfirmLoop
import Wagr.Service.Gateway
import Wagr.Accounts.Sessions
import Wagr.Payments.Agreement
import Wagr.Web.PaymentPanel
import Wagr.Web.PendingTransaction
import Wagr.Leagues.Commissioner
import Wagr.Payments.Authorized
import Wagr.Leagues.Forward
import Wagr.Leagues.Refresh
import Wagr.Leagues.Owners
import Wagr.Leagues.Deletion
import Wagr.Leagues.Privacy
import Wagr.Web.HederaStrategy
import Wagr.Web.LedgerKeys
import Wagr.Web.LeagueSettings
import Wagr.Web.SettingsForm
import Wagr.Web.SaveSettings
import Wagr.Web.Placements
import Wagr.Payouts.Promised
import Wagr.Payouts.Records
import Wagr.Payouts.Receipts
import Wagr.Payouts.Interrupted
import Wagr.Payouts.Provenance
import Wagr.Fantasy.Sleeper
import Wagr.Leagues.Seats
import Wagr.Payouts.RosterOwners
import Wagr.Web.SameRules
