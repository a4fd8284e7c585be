import Wagr.Database.Queries
import Wagr.Library.Program

/-!
# Calls of the services

Everything a request or an oracle job asks of its surroundings: SQL statements and
queries, the fantasy platform, the mirror node, the Hedera client and random numbers.
A program over these calls sees nothing but their answers.
-/

namespace Wagr

open Interaction

/-- A platform account. -/
structure PlatformUser where
  platformUserID : String
  username : String
  displayName : String
  avatarURL : String

/-- A league as the platform reports it. -/
structure PlatformLeague where
  platformLeagueID : String
  name : String
  sport : String
  season : String
  status : String
  totalRosters : ℤ
  scoringType : String
  deriving DecidableEq

/-- A league member as the platform reports it. -/
structure PlatformMember where
  platformUserID : String
  username : String
  displayName : String
  avatarURL : String
  isOwner : Bool
  rosterID : ℤ
  /-- `Metadata["team_name"]`, empty if it is missing. -/
  teamName : String

/-- A roster as the platform reports it. -/
structure PlatformRoster where
  rosterID : ℤ
  ownerID : String
  wins : ℤ
  losses : ℤ
  ties : ℤ
  totalPoints : ℚ

/-- One team's side of a matchup. -/
structure PlatformMatchup where
  rosterID : ℤ
  matchupID : ℤ
  points : ℚ
  deriving DecidableEq

/-- A final place. -/
structure PlatformStanding where
  rosterID : ℤ
  place : ℤ
  deriving DecidableEq

/-- A view function of the escrow contract with its arguments. -/
inductive ContractRead
  | payments (leagueId : Bytes32) (member : Address)
  | leagueTotals (leagueId : Bytes32)
  deriving DecidableEq

/-- What a payout transaction is sent for. Nothing the program computes depends on it; it only
lets statements name the league and the weekly events behind a transaction. -/
inductive Purpose
  | seasonEnd (leagueID : String)
  | weekly (leagueID : String) (eventIDs : List String)
  deriving DecidableEq

/-- The league a transaction is sent for. -/
def Purpose.leagueID : Purpose → String
  | .seasonEnd leagueID => leagueID
  | .weekly leagueID _ => leagueID

/-- The weekly events a transaction pays. -/
def Purpose.eventIDs : Purpose → List String
  | .seasonEnd _ => []
  | .weekly _ eventIDs => eventIDs

/-- A submitted transaction: its place in the submission order and its ID. -/
structure TransactionResponse where
  index : ℕ
  transactionID : String
  deriving DecidableEq

/-- The status of a receipt. -/
inductive ReceiptStatus
  | success
  | failure (status : String)
  deriving DecidableEq

/-- A public key as the mirror node reports it. -/
structure HederaKeyInfo where
  publicKeyHex : String
  keyType : String
  deriving DecidableEq

/-- The calls. -/
inductive Call
  | exec (s : Statement)
  | query (q : Query)
  | platformUser (platform username : String)
  | platformLeague (platform platformLeagueID : String)
  | platformMembers (platform platformLeagueID : String)
  | platformRosters (platform platformLeagueID : String)
  | platformMatchups (platform platformLeagueID : String) (week : ℤ)
  | finalStandings (platform platformLeagueID : String)
  | currentWeek (platform : String)
  | currentSeason (platform : String)
  | mirrorAccount (accountID : String)
  | mirrorKey (accountID : String)
  | contractCall (contract : Address) (read : ContractRead)
  | contractExecute (purpose : Purpose) (leagueID : Bytes32) (recipients : List Address)
      (amounts : List Int64)
  | getReceipt (resp : TransactionResponse)
  | generateNonce
  deriving DecidableEq

/-- The answers. The mirror node's account lookup answers with the `evm_address` of a response
that arrived, had status 200 and could be decoded, and with `none` otherwise. -/
abbrev Ret : Call → Type
  | .exec s => Except GoError s.Result
  | .query q => Except GoError q.Answer
  | .platformUser _ _ => Except GoError PlatformUser
  | .platformLeague _ _ => Except GoError PlatformLeague
  | .platformMembers _ _ => Except GoError (List PlatformMember)
  | .platformRosters _ _ => Except GoError (List PlatformRoster)
  | .platformMatchups _ _ _ => Except GoError (List PlatformMatchup)
  | .finalStandings _ _ => Except GoError (List PlatformStanding)
  | .currentWeek _ => Except GoError ℤ
  | .currentSeason _ => Except GoError String
  | .mirrorAccount _ => Option String
  | .mirrorKey _ => Except GoError HederaKeyInfo
  | .contractCall _ _ => Except GoError String
  | .contractExecute _ _ _ _ => Except GoError TransactionResponse
  | .getReceipt _ => Except GoError ReceiptStatus
  | .generateNonce => Except GoError String

/-- A program of the backend. -/
abbrev Job := Program Call Ret

/-- A program of the backend that returns a Go error. -/
abbrev Go := ExceptT GoError Job

/-- A Go function that returns a value and an error without calling anything. -/
def ofResult {α : Type} {m : Type → Type} [Monad m] (x : Except GoError α) : ExceptT GoError m α :=
  ExceptT.mk (pure x)

/-- Make one call. -/
def perform (c : Call) : Job (Ret c) := Program.perform c

/-- Run a statement. -/
def exec (s : Statement) : Go s.Result := ExceptT.mk (perform (.exec s))

/-- Run a query. -/
def query (q : Query) : Go q.Answer := ExceptT.mk (perform (.query q))

end Wagr
