import Wagr.Service.League
import Wagr.Service.Auth
import Wagr.Escrow.Contract
import Wagr.Library.Interleaving

/-!
# The backend in its surroundings

Requests and oracle jobs run as threads against one world: the database, the escrow's
storage and the submitted transactions. A statement whose call reports an error may still
take effect later, or never. A submitted transaction is settled by the network, whatever
the client was told. Members pay and claim refunds on their own. Answers of the platform
and of the mirror node are arbitrary.
-/

namespace Wagr

open Interaction

/-- What has become of a submitted transaction. -/
inductive Outcome
  | pending
  | succeeded
  | reverted
  deriving DecidableEq

/-- A `distributePayout` transaction the network has received. -/
structure Submission where
  purpose : Purpose
  leagueID : Bytes32
  recipients : List Address
  amounts : List UInt256
  outcome : Outcome := .pending
  deriving DecidableEq

/-- The state the threads share. -/
structure World where
  db : Database := {}
  /-- Statements that were reported as failed and may still take effect. -/
  inFlight : List Statement := []
  storage : Storage := ⟨fun _ _ => 0, fun _ => 0⟩
  submissions : List Submission := []
  /-- The UUIDs drawn so far. -/
  issued : List String := []
  /-- The nonces drawn so far. -/
  nonces : List String := []

/-- The ABI word of an amount (`uint64(amount)`). -/
def abiWord (amount : Int64) : UInt256 :=
  ⟨amount.toUInt64.toNat, lt_trans amount.toUInt64.toNat_lt (by decide)⟩

namespace World

variable (w : World)

/-- The network has received a transaction. -/
def submit (purpose : Purpose) (leagueID : Bytes32) (recipients : List Address)
    (amounts : List Int64) : World :=
  { w with submissions :=
      w.submissions ++ [⟨purpose, leagueID, recipients, amounts.map abiWord, .pending⟩] }

/-- The statement takes effect and returns `r`. -/
def Executes (s : Statement) (r : s.Result) (w' : World) : Prop :=
  ∃ now fresh db, fresh ∉ w.issued ∧ s.run now fresh w.db = some (r, db) ∧
    w' = { w with db := db, issued := fresh :: w.issued }

/-- How the surroundings may answer a call. -/
def handles (w : World) : (c : Call) → Ret c → World → Prop
  | .exec s, r, w' =>
    match r with
    | .ok r => w.Executes s r w'
    | .error _ => w' = { w with inFlight := w.inFlight ++ [s] }
  | .query q, r, w' =>
    w' = w ∧ match r with
      | .ok r => q.Answers w.db r
      | .error _ => True
  | .contractExecute purpose leagueID recipients amounts, r, w' =>
    match r with
    | .ok resp =>
      resp.index = w.submissions.length ∧ w' = w.submit purpose leagueID recipients amounts
    | .error _ => w' = w ∨ w' = w.submit purpose leagueID recipients amounts
  | .getReceipt resp, r, w' =>
    w' = w ∧ match r with
      | .ok .success => (w.submissions[resp.index]?.map Submission.outcome) = some .succeeded
      | .ok (.failure _) => (w.submissions[resp.index]?.map Submission.outcome) = some .reverted
      | .error _ => True
  | .generateNonce, r, w' =>
    match r with
    | .ok nonce => nonce ∉ w.nonces ∧ w' = { w with nonces := nonce :: w.nonces }
    | .error _ => w' = w
  | .platformUser _ _, _, w' => w' = w
  | .platformLeague _ _, _, w' => w' = w
  | .platformMembers _ _, _, w' => w' = w
  | .platformRosters _ _, _, w' => w' = w
  | .platformMatchups _ _ _, _, w' => w' = w
  | .finalStandings _ _, _, w' => w' = w
  | .currentWeek _, _, w' => w' = w
  | .currentSeason _, _, w' => w' = w
  | .mirrorAccount _, _, w' => w' = w
  | .mirrorKey _, _, w' => w' = w
  | .contractCall _ _, _, w' => w' = w

/-- The network settles submission `k`: the contract executes it, or it has no effect. -/
def settle (k : ℕ) (succeeds : Bool) : Option World := do
  let s ← w.submissions[k]?
  if s.outcome ≠ .pending then none
  else if succeeds then
    match w.storage.distributePayout s.leagueID s.recipients s.amounts with
    | .ok storage => some { w with
        storage := storage
        submissions := w.submissions.set k { s with outcome := .succeeded } }
    | .error _ => none
  else some { w with submissions := w.submissions.set k { s with outcome := .reverted } }

/-- In-flight statement `k` takes effect. -/
def land (k now : ℕ) (fresh : String) : Option World := do
  let s ← w.inFlight[k]?
  if fresh ∈ w.issued then none
  else
    let (_, db) ← s.run now fresh w.db
    return { w with db := db, inFlight := w.inFlight.eraseIdx k, issued := fresh :: w.issued }

end World

/-- What the surroundings do on their own. -/
inductive Activity
  | land (k now : ℕ) (fresh : String)
  | settle (k : ℕ) (succeeds : Bool)
  | payEntryFee (member : Address) (leagueId : Bytes32) (amount : UInt256)
  | claimRefund (member : Address) (leagueId : Bytes32)
  deriving DecidableEq

/-- The world after an activity, if it is possible. -/
def World.act (w : World) : Activity → Option World
  | .land k now fresh => w.land k now fresh
  | .settle k succeeds => w.settle k succeeds
  | .payEntryFee member leagueId amount =>
    match w.storage.payEntryFee member leagueId amount with
    | .ok storage => some { w with storage := storage }
    | .error _ => none
  | .claimRefund member leagueId =>
    match w.storage.claimRefund member leagueId with
    | .ok (_, storage) => some { w with storage := storage }
    | .error _ => none

/-- The requests and jobs that change anything. The ID of a league is spelled as the database prints
it. -/
inductive Request
  | getOrCreateNonce (walletAddress walletType : String)
  | verifySignature (req : VerifyRequest)
  | linkPlatformProfile (userID : String) (req : LinkPlatformRequest)
  | importLeague (userID : String) (req : ImportLeagueRequest)
  | deleteLeague (leagueID userID : String)
  | updateLeagueSettings (leagueID userID : String) (req : UpdateSettingsRequest)
  | setPaymentToken (leagueID userID token : String)
  | confirmPayment (leagueID userID transactionID : String)
  | cancelLeague (leagueID userID : String)
  | reactivateLeague (leagueID userID : String)
  | confirmRefund (leagueID userID transactionID : String)
  | runWeeklyPayoutJob
  | runSeasonEndPayoutJob
  | refreshLeagueStatuses
  deriving DecidableEq

/-- What a request returns, as far as it is not only success. -/
inductive Response
  | done
  | nonce (resp : NonceResponse)
  | token (resp : AuthResponse)

/-- Forget what a request returns. -/
def Go.toDone {α : Type} (x : Go α) : Go Response := do
  let _ ← x
  return .done

variable (svc : Service) (crypto : Crypto)

/-- The program of a request. -/
def requestProgram : Request → Go Response
  | .getOrCreateNonce walletAddress walletType => do
    let resp ← getOrCreateNonce walletAddress walletType
    return .nonce resp
  | .verifySignature req => do
    let resp ← verifySignature crypto req
    return .token resp
  | .linkPlatformProfile userID req => (linkPlatformProfile userID req).toDone
  | .importLeague _ req => (importLeague req).toDone
  | .deleteLeague leagueID userID => (deleteLeague leagueID userID).toDone
  | .updateLeagueSettings leagueID userID req => (updateLeagueSettings leagueID userID req).toDone
  | .setPaymentToken leagueID userID token => (setPaymentToken leagueID userID token).toDone
  | .confirmPayment leagueID userID transactionID =>
    (confirmPayment svc leagueID userID transactionID).toDone
  | .cancelLeague leagueID userID => (cancelLeague leagueID userID).toDone
  | .reactivateLeague leagueID userID => (reactivateLeague leagueID userID).toDone
  | .confirmRefund leagueID userID transactionID =>
    (confirmRefund svc leagueID userID transactionID).toDone
  | .runWeeklyPayoutJob => (runWeeklyPayoutJob svc).toDone
  | .runSeasonEndPayoutJob => (runSeasonEndPayoutJob svc).toDone
  | .refreshLeagueStatuses => runRefreshLeagueStatuses.toDone

/-- The backend: all requests and jobs, interleaved. -/
def backend : System Call Ret World Request Activity (Except GoError Response) where
  body req := (requestProgram svc crypto req).run
  handles := World.handles
  act := World.act

/-- A thread of the backend. -/
abbrev BackendThread := Thread Call Ret Request (Except GoError Response)

/-- A configuration of the backend. -/
abbrev BackendConfig := Config Call Ret World Request (Except GoError Response)

/-- A step of the backend. -/
abbrev BackendLabel := Label Call Ret Request Activity

/-- Before anything has happened. -/
def initialConfig : BackendConfig := ⟨{}, []⟩

end Wagr
