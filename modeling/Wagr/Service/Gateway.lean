import Wagr.Accounts.Tokens
import Wagr.Service.Refusals
import Wagr.Web.ConfirmLoop

/-!
# The gateway

The routes for logins and, behind the middleware, the routes for changes. A request whose token is
valid and whose body passes the checks of its handler is given to the service, and the handler
chooses the status from the service's error. Apart from deletions, the statuses for refusals are
only used for requests that have changed nothing.
-/

namespace Wagr

open Interaction Protocol System

/-! ## Handlers -/

/-- `NonceRequest`. -/
structure NonceRequest where
  walletAddress : String
  walletType : String

/-- A route for logins, with the decoded body, if it could be decoded. -/
inductive AuthRoute
  | getNonce (body : Option NonceRequest)
  | verifySignature (body : Option VerifyRequest)

/-- A route for changes, with the league of its path and the decoded body, if it could be decoded.
-/
inductive Route
  | linkPlatform (body : Option LinkPlatformRequest)
  | importLeague (body : Option ImportLeagueRequest)
  | deleteLeague (leagueID : String)
  | updateLeagueSettings (leagueID : String) (body : Option UpdateSettingsRequest)
  | setPaymentToken (leagueID : String) (body : Option String)
  | confirmPayment (leagueID : String) (body : Option String)
  | cancelLeague (leagueID : String)
  | reactivateLeague (leagueID : String)
  | confirmRefund (leagueID : String) (body : Option String)

namespace Handler

variable {α : Type}

/-- A bad request. -/
def badRequest (message : String) : Except HTTPResponse α := .error ⟨400, .message message⟩

/-- The body, if it could be decoded. -/
def decoded (body : Option α) : Except HTTPResponse α :=
  match body with
  | none => badRequest "invalid request body"
  | some req => .ok req

/-- A field that must not be empty. -/
def required (field value : String) : Except HTTPResponse Unit :=
  if value = "" then badRequest (field ++ " is required") else .ok ()

/-- What the handlers do before they call the service. -/
def request (claims : Claims) : Route → Except HTTPResponse Request
  | .linkPlatform body => do
    let req ← decoded body
    required "platform" req.platform
    required "platform_username" req.platformUsername
    return .linkPlatformProfile claims.userID req
  | .importLeague body => do
    let req ← decoded body
    required "platform" req.platform
    required "platform_league_id" req.platformLeagueID
    return .importLeague claims.userID req
  | .deleteLeague leagueID => return .deleteLeague leagueID claims.userID
  | .updateLeagueSettings leagueID body => do
    let req ← decoded body
    if req.entryFeeCents < 0 then badRequest "entry_fee_cents must be non-negative"
    else return .updateLeagueSettings leagueID claims.userID req
  | .setPaymentToken leagueID body => do
    let token ← decoded body
    return .setPaymentToken leagueID claims.userID token
  | .confirmPayment leagueID body => do
    let transactionID ← decoded body
    required "transaction_id" transactionID
    return .confirmPayment leagueID claims.userID transactionID
  | .cancelLeague leagueID => return .cancelLeague leagueID claims.userID
  | .reactivateLeague leagueID => return .reactivateLeague leagueID claims.userID
  | .confirmRefund leagueID body => do
    let transactionID ← decoded body
    required "transaction_id" transactionID
    return .confirmRefund leagueID claims.userID transactionID

/-- The response to an error: the first entry whose error it is, or else a status with its text. -/
def errorResponse (known : List (GoError × ℕ × String)) (status : ℕ) (err : GoError) :
    HTTPResponse :=
  match known.find? fun entry => err.is entry.1 with
  | some (_, knownStatus, message) => ⟨knownStatus, .message message⟩
  | none => ⟨status, .error err⟩

/-- A handler's response: the body of a success is left out. -/
def serviceResponse (success : ℕ) (known : List (GoError × ℕ × String)) (status : ℕ) :
    Except GoError Response → HTTPResponse
  | .ok _ => ⟨success, .message ""⟩
  | .error err => errorResponse known status err

/-- The commissioner's endpoints. -/
def forbidden : GoError × ℕ × String :=
  (.notCommissioner, 403, "forbidden: you are not the commissioner")

/-- The members' endpoints. -/
def notMember : GoError × ℕ × String := (.notLeagueMember, 404, "not a member of this league")

/-- What the handlers make of what the service has returned. -/
def respond : Route → Except GoError Response → HTTPResponse
  | .linkPlatform _ => serviceResponse 201 [] 500
  | .importLeague _ => serviceResponse 201 [] 500
  | .deleteLeague _ => serviceResponse 204 [] 404
  | .updateLeagueSettings _ _ => serviceResponse 200 [forbidden] 500
  | .setPaymentToken _ _ => serviceResponse 204 [notMember] 400
  | .confirmPayment _ _ => confirmPayment
  | .cancelLeague _ => serviceResponse 204
      [forbidden, (.leagueAlreadyCancelled, 409, "league is already cancelled")] 500
  | .reactivateLeague _ => serviceResponse 204
      [forbidden, (.leagueNotCancelled, 409, "league is not cancelled")] 500
  | .confirmRefund _ _ => confirmRefund

end Handler

namespace AuthRoute

/-- What the handlers for logins do before they call the service. -/
def request : AuthRoute → Except HTTPResponse Request
  | .getNonce body => do
    let req ← Handler.decoded body
    Handler.required "wallet_address" req.walletAddress
    if req.walletType ≠ "" ∧ req.walletType ≠ "hedera" then
      Handler.badRequest "wallet_type must be 'hedera'"
    else return .getOrCreateNonce req.walletAddress req.walletType
  | .verifySignature body => do
    let req ← Handler.decoded body
    if req.signature = "" then Handler.badRequest "signature are required"
    else return .verifySignature req

/-- The status and the text for the error of a login; a panic is answered by `Recoverer`. -/
def errorResponse : AuthRoute → GoError → HTTPResponse
  | _, .panic _ => ⟨500, .message ""⟩
  | .getNonce _, _ => ⟨500, .message "failed to generate nonce"⟩
  | .verifySignature _, .userNotFound => ⟨404, .message "user not found"⟩
  | .verifySignature _, .invalidSignature => ⟨401, .message "invalid signature"⟩
  | .verifySignature _, _ => ⟨500, .message "authentication failed"⟩

/-- What the handlers for logins make of what the service has returned. -/
def respond (route : AuthRoute) : Except GoError Response → HTTPResponse
  | .ok _ => ⟨200, .message ""⟩
  | .error err => route.errorResponse err

end AuthRoute

/-- A request to the gateway; the header is that of the authorization. -/
inductive Endpoint
  | auth (route : AuthRoute)
  | league (authHeader : String) (route : Route)

/-- What the gateway gives to the service, or its response without the service. -/
def Endpoint.request (jwt : JWT) (now : ℕ) : Endpoint → Except HTTPResponse Request
  | .auth route => route.request
  | .league authHeader route => do
    let claims ← authMiddleware jwt now authHeader
    Handler.request claims route

/-- The gateway's response to what the service has returned. -/
def Endpoint.respond : Endpoint → Except GoError Response → HTTPResponse
  | .auth route => route.respond
  | .league _ route => Handler.respond route

/-- The user a request is made for. -/
def Request.user : Request → Option String
  | .linkPlatformProfile userID _ => some userID
  | .importLeague userID _ => some userID
  | .deleteLeague _ userID => some userID
  | .updateLeagueSettings _ userID _ => some userID
  | .setPaymentToken _ userID _ => some userID
  | .confirmPayment _ userID _ => some userID
  | .cancelLeague _ userID => some userID
  | .reactivateLeague _ userID => some userID
  | .confirmRefund _ userID _ => some userID
  | _ => none

/-! ## Refusals -/

/-- The statuses that stand for a refusal. -/
def refusedStatuses : List ℕ := [401, 402, 403, 404, 409]

section Refusals

variable {svc : Service} {crypto : Crypto} {ok : BackendConfig → BackendLabel → Prop}
  {a a' b : BackendConfig} {jwt : JWT} {now : ℕ} {claims : Claims} {route : Route}
  {endpoint : Endpoint} {req : Request}

/-- A step that succeeds is followed by the next one. -/
theorem ok_of_bind {ε α β : Type} {x : Except ε α} {f : α → Except ε β} {r : β}
    (h : x >>= f = .ok r) : ∃ y, x = .ok y ∧ f y = .ok r := by
  cases x with
  | error err => cases h
  | ok y => exact ⟨y, rfl, h⟩

/-- A handler makes a request of the user of the claims, and no job. -/
theorem Handler.request_user (h : Handler.request claims route = .ok req) :
    req.isJob = false ∧ req.user = some claims.userID := by
  cases route with
  | linkPlatform body | importLeague body =>
    obtain ⟨_, -, h⟩ := ok_of_bind h
    obtain ⟨_, -, h⟩ := ok_of_bind h
    obtain ⟨_, -, h⟩ := ok_of_bind h
    cases h
    exact ⟨rfl, rfl⟩
  | updateLeagueSettings leagueID body =>
    obtain ⟨_, -, h⟩ := ok_of_bind h
    split at h <;> cases h
    exact ⟨rfl, rfl⟩
  | confirmPayment leagueID body | confirmRefund leagueID body =>
    obtain ⟨_, -, h⟩ := ok_of_bind h
    obtain ⟨_, -, h⟩ := ok_of_bind h
    cases h
    exact ⟨rfl, rfl⟩
  | setPaymentToken leagueID body =>
    obtain ⟨_, -, h⟩ := ok_of_bind h
    cases h
    exact ⟨rfl, rfl⟩
  | deleteLeague | cancelLeague | reactivateLeague =>
    cases h
    exact ⟨rfl, rfl⟩

/-- An error response with one of these statuses stands for a refusal. -/
theorem Handler.errorResponse_refuses {known : List (GoError × ℕ × String)} {status : ℕ}
    {err : GoError} (hknown : ∀ entry ∈ known, entry.1 ∈ refusals)
    (hstatus : status ∉ refusedStatuses)
    (h : (Handler.errorResponse known status err).status ∈ refusedStatuses) : err.Refuses := by
  unfold Handler.errorResponse at h
  split at h
  · rename_i target knownStatus message hfind
    have his : err.is target = true := by simpa using List.find?_some hfind
    exact ⟨target, hknown _ (List.mem_of_find?_eq_some hfind), his⟩
  · exact absurd h hstatus

/-- The same for a service's result. -/
theorem Handler.serviceResponse_refuses {known : List (GoError × ℕ × String)}
    {success status : ℕ} {r : Except GoError Response}
    (hknown : ∀ entry ∈ known, entry.1 ∈ refusals) (hsuccess : success ∉ refusedStatuses)
    (hstatus : status ∉ refusedStatuses)
    (h : (Handler.serviceResponse success known status r).status ∈ refusedStatuses) :
    ∃ err, r = .error err ∧ err.Refuses := by
  cases r with
  | ok resp => exact absurd h hsuccess
  | error err => exact ⟨err, rfl, errorResponse_refuses hknown hstatus h⟩

/-- The same for a confirmation. -/
theorem Handler.confirmResponse_refuses {conflict : GoError} {text text' : String}
    {r : Except GoError Response} (hconflict : conflict ∈ refusals)
    (h : (Handler.confirmResponse conflict text text' r).status ∈ refusedStatuses) :
    ∃ err, r = .error err ∧ err.Refuses := by
  cases r with
  | ok resp => simp [Handler.confirmResponse, refusedStatuses] at h
  | error err =>
    refine ⟨err, rfl, ?_⟩
    unfold Handler.confirmResponse at h
    dsimp only at h
    split at h
    · rename_i hmember
      exact ⟨.notLeagueMember, by simp [refusals], hmember⟩
    · split at h
      · rename_i hconflicts
        exact ⟨conflict, hconflict, hconflicts⟩
      · split at h
        · rename_i hinsufficient
          exact ⟨.paymentInsufficient, by simp [refusals], hinsufficient⟩
        · simp [refusedStatuses] at h

/-- Apart from deletions, a response with one of these statuses stands for a refusal. -/
theorem Handler.respond_refuses {r : Except GoError Response}
    (hroute : ∀ leagueID, route ≠ .deleteLeague leagueID)
    (h : (Handler.respond route r).status ∈ refusedStatuses) :
    ∃ err, r = .error err ∧ err.Refuses := by
  cases route with
  | linkPlatform | importLeague =>
    exact serviceResponse_refuses (by simp) (by decide) (by decide) h
  | deleteLeague leagueID => exact absurd rfl (hroute leagueID)
  | updateLeagueSettings | setPaymentToken | cancelLeague | reactivateLeague =>
    exact serviceResponse_refuses (by decide) (by decide) (by decide) h
  | confirmPayment => exact confirmResponse_refuses (by decide) h
  | confirmRefund => exact confirmResponse_refuses (by decide) h

/-- The same for a login. -/
theorem AuthRoute.respond_refuses {route : AuthRoute} {r : Except GoError Response}
    (h : (route.respond r).status ∈ refusedStatuses) : ∃ err, r = .error err ∧ err.Refuses := by
  cases r with
  | ok resp => simp [respond, refusedStatuses] at h
  | error err =>
    refine ⟨err, rfl, err, ?_, by cases err <;> simp [GoError.is]⟩
    cases route with
    | getNonce body => cases err <;> simp [respond, errorResponse, refusedStatuses] at h
    | verifySignature body =>
      cases err with
      | userNotFound | invalidSignature => simp [refusals]
      | _ => simp [respond, errorResponse, refusedStatuses] at h

/-- Apart from deletions, a response with one of these statuses stands for a refusal. -/
theorem Endpoint.respond_refuses {r : Except GoError Response}
    (hendpoint : ∀ authHeader leagueID, endpoint ≠ .league authHeader (.deleteLeague leagueID))
    (h : (endpoint.respond r).status ∈ refusedStatuses) : ∃ err, r = .error err ∧ err.Refuses := by
  cases endpoint with
  | auth route => exact AuthRoute.respond_refuses h
  | league authHeader route =>
    refine Handler.respond_refuses (fun leagueID hroute => ?_) h
    exact hendpoint authHeader leagueID (congrArg (Endpoint.league authHeader) hroute)

/-- A handler for logins makes no job. -/
theorem AuthRoute.request_isJob {route : AuthRoute} (h : route.request = .ok req) :
    req.isJob = false := by
  cases route with
  | getNonce body =>
    obtain ⟨_, -, h⟩ := ok_of_bind h
    obtain ⟨_, -, h⟩ := ok_of_bind h
    split at h <;> cases h
    rfl
  | verifySignature body =>
    obtain ⟨_, -, h⟩ := ok_of_bind h
    split at h <;> cases h
    rfl

/-- The gateway makes no job. -/
theorem Endpoint.request_isJob (h : endpoint.request jwt now = .ok req) : req.isJob = false := by
  cases endpoint with
  | auth route => exact AuthRoute.request_isJob h
  | league authHeader route =>
    obtain ⟨_, -, h⟩ := ok_of_bind h
    exact (Handler.request_user h).1

/-- A response of 401, 402, 403, 404 or 409 says that the request has changed nothing, except for
deletions, where every error is answered with 404: in every run, and whatever else happens in it, no
step of the request changes a table, adds to what is in flight or submits anything, unless an error
from outside is one of the services' refusals. -/
theorem refused_response_changes_nothing (hbefore : Runs svc crypto ok a) {i : ℕ} {q : Call}
    {r : Ret q} (hok : ok a (.call i q r)) (hstep : (backend svc crypto).Step a (.call i q r) a')
    (hafter : (backend svc crypto).Reaches ok a' b) {t : BackendThread}
    (ht : b.threads[i]? = some t) (hrequest : endpoint.request jwt now = .ok t.job)
    (hendpoint : ∀ authHeader leagueID, endpoint ≠ .league authHeader (.deleteLeague leagueID))
    (houtside : ∀ call ∈ t.trace, OutsideError call) {result : Except GoError Response}
    (hreturned : t.rest = .done result)
    (hstatus : (endpoint.respond result).status ∈ refusedStatuses) :
    a'.world.db = a.world.db ∧ a'.world.inFlight = a.world.inFlight ∧
      a'.world.submissions = a.world.submissions := by
  obtain ⟨err, rfl, hrefused⟩ := Endpoint.respond_refuses hendpoint hstatus
  exact refused_changes_nothing hbefore hok hstep hafter ht (Endpoint.request_isJob hrequest)
    houtside hreturned hrefused

/-- The only member of a funded league has cancelled it, and asks for it again; the statement is
next. -/
def Schedule.cancelledTwice : Schedule :=
  fundedLeague firstPlace ++ cancel 4 "f3" ++
    [.spawn (.cancelLeague leagueID "u1"), .call 5 (.succeed 0 "")]

/-- The request of the member, with a token that was issued at the time 0. -/
def cancelEndpoint : Endpoint :=
  .league ("Bearer " ++ generateJWT JWT.mock 0 ⟨"u1", "0.0.9", "hedera"⟩)
    (.cancelLeague Schedule.leagueID)

/-- The thread, the league and the number of rows of a cancellation. -/
def cancellation : BackendLabel → Option (ℕ × String × ℕ)
  | .call i (.exec (.cancelLeague leagueID)) (.ok n) => some (i, leagueID, n)
  | _ => none

/-- The error that a thread has returned. -/
def returnedError (t : BackendThread) : Option GoError :=
  match t.rest with
  | .done (.error err) => some err
  | _ => none

/-- Everything was answered to the thread, and it has returned that the league is cancelled. -/
def RefusedCancelled (t : BackendThread) : Prop :=
  (∀ call ∈ t.trace, call.1.error call.2 = none) ∧
    returnedError t = some .leagueAlreadyCancelled

instance (t : BackendThread) : Decidable (RefusedCancelled t) :=
  inferInstanceAs (Decidable (_ ∧ _))

/-- A cancelled league is cancelled again: the statement matches no row, and the answer is 409. -/
theorem refused_response_changes_nothing_cancelledTwice : ∃ a a' : BackendConfig,
    Runs .mock .mock (fun _ _ => True) a ∧
    (backend Service.mock Crypto.mock).Step a
      (.call 5 (.exec (.cancelLeague Schedule.leagueID)) (.ok (0 : ℕ))) a' ∧
    (∃ l ∈ a.world.db.leagues.rows, l.id = Schedule.leagueID ∧ l.cancelledAt = some 7) ∧
    a'.world.db = a.world.db ∧ a'.world.inFlight = a.world.inFlight ∧
      a'.world.submissions = a.world.submissions := by
  obtain ⟨a, l, a', hrun, hstep, hlabel, hleague, t, ht, hjob, hclean, hreturned⟩ :=
    Schedule.cancelledTwice.exists_step (.call 5 (.succeed 8 "f4")) .mock .mock
      (fun _ _ => True) (fun a l a' => cancellation l = some (5, Schedule.leagueID, 0) ∧
        (∃ l ∈ a.world.db.leagues.rows, l.id = Schedule.leagueID ∧ l.cancelledAt = some 7) ∧
        ∃ t ∈ a'.threads[5]?, t.job = .cancelLeague Schedule.leagueID "u1" ∧ RefusedCancelled t)
      (by decide +kernel)
  obtain rfl : l = .call 5 (.exec (.cancelLeague Schedule.leagueID)) (.ok (0 : ℕ)) := by
    unfold cancellation at hlabel
    split at hlabel <;> cases hlabel
    rfl
  have hdone : t.rest = .done (.error .leagueAlreadyCancelled) := by
    unfold returnedError at hreturned
    split at hreturned
    · rename_i err hrest
      rw [hrest, Option.some.inj hreturned]
    · cases hreturned
  have hrequest : cancelEndpoint.request JWT.mock 5 = .ok t.job := by
    simp only [hjob, cancelEndpoint, Endpoint.request, authMiddleware_generateJWT JWT.lawful_mock]
    rfl
  refine ⟨a, a', hrun, hstep, hleague, refused_response_changes_nothing hrun trivial hstep .refl ht
    hrequest nofun ?_ hdone (by decide)⟩
  intro call hcall err herr
  rw [hclean call hcall] at herr
  cases herr

end Refusals

end Wagr
