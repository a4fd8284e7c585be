import Wagr.Accounts.Login
import Wagr.Library.Beside
import Wagr.Library.History
import Wagr.Service.Gateway

/-!
# Sessions

Whoever makes a request has logged in less than a day before: the request came with a token, and the
token was given out after a key of its user's wallet had verified a signature. The gateway and its
clock run beside the backend. The tokens it receives may be any text, but no text is a valid token
that the service has not signed.
-/

namespace Wagr

open Interaction Protocol System Relational

/-! ## The gateway beside the backend -/

/-- What happens at the gateway. -/
inductive GatewayEvent
  /-- A second passes. -/
  | tick
  /-- Thread `i` has verified a signature, and this user gets a token. -/
  | login (i : ℕ) (user : AuthResponse)
  /-- Thread `i` runs a request. -/
  | serve (i : ℕ) (endpoint : Endpoint)

/-- The steps of the gateway beside the backend; its state is the time in seconds. -/
abbrev GatewayAct := Act Call Ret World Request (Except GoError Response) ℕ GatewayEvent

/-- The step has given out the token. -/
def GatewayAct.Issues (jwt : JWT) (s : GatewayAct) (tokenString : String) : Prop :=
  ∃ i user, s.event = .login i user ∧ tokenString = generateJWT jwt s.state user

/-- If the token of the header is valid, it was given out before. -/
def Unforged (jwt : JWT) (history : List GatewayAct) (now : ℕ) (authHeader : String) : Prop :=
  ∀ scheme tokenString, headerParts authHeader = [scheme, tokenString] →
    (jwt.parse now tokenString).isSome → ∃ s ∈ history, s.Issues jwt tokenString

/-- The gateway. -/
def gateway (jwt : JWT) :
    Client Call Ret World Request (Except GoError Response) ℕ GatewayEvent where
  step now
    | .tick => some (now + 1)
    | _ => some now
  hears history s :=
    match s.event with
    | .tick => True
    | .login i user => (∃ t, s.config.threads[i]? = some t ∧ t.rest = .done (.ok (.token user))) ∧
        ∀ r ∈ history, ∀ user', r.event ≠ .login i user'
    | .serve i endpoint => (∃ t, s.config.threads[i]? = some t ∧
        endpoint.request jwt s.state = .ok t.job) ∧
        ∀ authHeader route, endpoint = .league authHeader route →
          Unforged jwt history s.state authHeader

/-- The requests of users come through the gateway. -/
def Gated (history : List GatewayAct) (a : BackendConfig) : Prop :=
  ∀ (i : ℕ) (t : BackendThread), a.threads[i]? = some t → t.job.user.isSome →
    ∃ s ∈ history, ∃ endpoint, s.event = .serve i endpoint

/-! ## Logins -/

section Logins

variable {svc : Service} {crypto : Crypto} {ok : BackendConfig → BackendLabel → Prop}
  {a b : BackendConfig} {req : VerifyRequest}

/-- The key that the mirror node has named for the wallet verifies the signature. -/
def SignedFor (crypto : Crypto) (req : VerifyRequest) (trace : List (Sigma Ret)) : Prop :=
  ∃ key, ⟨.mirrorKey req.walletAddress, .ok key⟩ ∈ trace ∧ accepts crypto key req = true

/-- A result with a token comes from a verification with such a key. -/
def TokenSigned (crypto : Crypto) (φ : Request × List (Sigma Ret)) (r : Except GoError Response) :
    Prop :=
  ∀ user, r = .ok (.token user) → ∃ req, φ.1 = .verifySignature req ∧ SignedFor crypto req φ.2

/-- An answer that counts as valid comes with such a key. -/
theorem conforms_signedFor {j : Request} {trace : List (Sigma Ret)} :
    watched.Conforms (j, trace)
      (verifyHederaSignature crypto req.message req.signature req.walletAddress).run
      fun φ valid => φ.1 = j ∧ (requireValid valid = .ok () → SignedFor crypto req φ.2) := by
  refine conforms_run_bind.mpr
    (conforms_wrapErr.mpr (conforms_run_bind.mpr ⟨trivial, fun key => ?_⟩))
  cases key with
  | error err => exact ⟨rfl, nofun⟩
  | ok key =>
    refine conforms_run_ite.mpr ⟨fun _ => ⟨rfl, nofun⟩, fun _ => ⟨rfl, fun hvalid => ?_⟩⟩
    exact ⟨key, List.mem_cons_self, accepts_of_requireValid hvalid⟩

/-- A verification returns a token only with such a key. -/
theorem conforms_tokenSigned : watched.Conforms (.verifySignature req, [])
    (verifySignature crypto req).run fun φ r => ∀ user, r = .ok user →
      φ.1 = .verifySignature req ∧ SignedFor crypto req φ.2 := by
  refine conforms_run_bind.mpr (conforms_run_lift.mpr ⟨trivial, fun user => ?_⟩)
  match user with
  | .error _ => exact nofun
  | .ok none => exact nofun
  | .ok (some user) =>
    refine conforms_run_bind.mpr (conforms_run_lift.mpr (conforms_signedFor.mono ?_))
    rintro ⟨j, trace⟩ valid ⟨rfl, hsigned⟩
    refine conforms_run_bind.mpr (conforms_ofResult.mpr ?_)
    cases hvalid : requireValid valid with
    | error err => exact nofun
    | ok _ =>
      have hbefore := hsigned hvalid
      refine (conforms_watched _).grows.mono ?_
      rintro φ r ⟨⟨hjob, hsuffix⟩, -⟩ user' -
      obtain ⟨key, hkey, haccepts⟩ := hbefore
      exact ⟨hjob, key, hsuffix.subset hkey, haccepts⟩

/-- A program without a token. -/
theorem tokenSigned_toDone {α : Type} {x : Go α} {j : Request} :
    watched.Conforms (j, []) x.toDone.run (TokenSigned crypto) := by
  refine conforms_run_bind.mpr ((conforms_watched _).mono fun φ r _ => ?_)
  cases r with
  | error err => exact nofun
  | ok r => exact nofun

/-- Every request returns a token only with such a key. -/
theorem conforms_request_tokenSigned (req : Request) :
    watched.Conforms (req, []) ((backend svc crypto).body req) (TokenSigned crypto) := by
  cases req with
  | verifySignature req =>
    refine conforms_run_bind.mpr (conforms_tokenSigned.mono fun φ r hr => ?_)
    cases r with
    | error err => exact nofun
    | ok user => exact fun _ _ => ⟨req, hr user rfl⟩
  | getOrCreateNonce walletAddress walletType =>
    refine conforms_run_bind.mpr ((conforms_watched _).mono fun φ r _ => ?_)
    cases r with
    | error err => exact nofun
    | ok resp => exact nofun
  | _ => exact tokenSigned_toDone

/-- A user gets a token from a verification of its wallet's signature. -/
theorem Runs.signedIn (h : Runs svc crypto ok a) {i : ℕ} {t : BackendThread}
    (ht : a.threads[i]? = some t) {user : AuthResponse}
    (hrest : t.rest = .done (.ok (.token user))) :
    ∃ req, t.job = .verifySignature req ∧ SignedFor crypto req t.trace ∧
      ∃ u ∈ a.world.db.users.rows, u.id = user.userID ∧ u.walletAddress = req.walletAddress := by
  have hsigned : TokenSigned crypto (watched.phase (t.job, []) t.trace) (.ok (.token user)) :=
    (follows_of_reaches h conforms_request_tokenSigned
      (by simp [initialConfig]) i t ht).result hrest
  rw [history_phase] at hsigned
  obtain ⟨req, hjob, hkey⟩ := hsigned user rfl
  obtain ⟨-, found, -, hphase, rfl⟩ := (h.followsLogin ht).result hrest user rfl
  have hknown : (loginState crypto t).phase.known = some found := by
    rw [hphase]
    rfl
  obtain ⟨req', hjob', -, hrow⟩ := h.knownUser ht hknown
  cases hjob.symm.trans hjob'
  exact ⟨req, hjob, hkey, hrow⟩

end Logins

/-! ## Requests -/

section Requests

variable {svc : Service} {crypto : Crypto} {ok : BackendConfig → BackendLabel → Prop}
  {b : BackendConfig} {jwt : JWT} {history : List GatewayAct} {start now : ℕ} {userID : String}

/-- The user has logged in less than a day before: it got this token then, from a verification in
which a key of its wallet had verified the signature. -/
def LoggedIn (crypto : Crypto) (jwt : JWT) (history : List GatewayAct) (now : ℕ)
    (userID tokenString : String) : Prop :=
  ∃ s ∈ history, ∃ i user, s.event = .login i user ∧ user.userID = userID ∧
    tokenString = generateJWT jwt s.state user ∧ s.state ≤ now ∧ now < s.state + tokenLifetime ∧
    ∃ t req, s.config.threads[i]? = some t ∧ t.job = .verifySignature req ∧
      SignedFor crypto req t.trace ∧
      ∃ u ∈ s.config.world.db.users.rows, u.id = userID ∧ u.walletAddress = req.walletAddress

/-- The clock of the gateway never goes back. -/
theorem clock_le
    (h : Beside (backend svc crypto) ok (gateway jwt) initialConfig start history b now)
    {s : GatewayAct} (hs : s ∈ history) : s.state ≤ now := by
  induction h with
  | start => simp at hs
  | run _ _ _ ih => exact ih hs
  | @act history b y e z _ _ hz ih =>
    have hclock : y ≤ z := by
      cases e with
      | tick =>
        obtain rfl := Option.some.inj hz
        exact Nat.le_succ y
      | login | serve =>
        obtain rfl := Option.some.inj hz
        exact le_rfl
    rcases List.mem_append.mp hs with hs | hs
    · exact (ih hs).trans hclock
    · obtain rfl := List.mem_singleton.mp hs
      exact hclock

/-- A request to log in is for no user. -/
theorem AuthRoute.request_user {route : AuthRoute} {req : Request} (h : route.request = .ok req) :
    req.user = none := by
  cases route with
  | getNonce body =>
    obtain ⟨_, -, h⟩ := ok_of_bind h
    obtain ⟨_, -, h⟩ := ok_of_bind h
    split at h <;> cases h
    rfl
  | verifySignature body =>
    obtain ⟨_, -, h⟩ := ok_of_bind h
    split at h <;> cases h
    rfl

/-- A request that the middleware lets pass follows the login of its user that gave out its token.
-/
theorem loggedIn_of_authMiddleware (hjwt : jwt.Lawful)
    (h : Beside (backend svc crypto) ok (gateway jwt) initialConfig start history b now)
    {authHeader : String} {claims : Claims} (hunforged : Unforged jwt history now authHeader)
    (hclaims : authMiddleware jwt now authHeader = .ok claims) :
    ∃ scheme tokenString, headerParts authHeader = [scheme, tokenString] ∧
      LoggedIn crypto jwt history now claims.userID tokenString := by
  obtain ⟨scheme, tokenString, hparts, hvalid⟩ := valid_of_authMiddleware hclaims
  obtain ⟨s, hs, i, user, hlogin, rfl⟩ :=
    hunforged scheme tokenString hparts (parse_of_validateToken hvalid)
  rw [validateToken_generateJWT hjwt] at hvalid
  split at hvalid
  · rename_i hnow
    obtain rfl := Except.ok.inj hvalid
    obtain ⟨first, rest, hsplit⟩ := List.append_of_mem hs
    obtain ⟨hbefore, hhears, -⟩ := h.split hsplit
    obtain ⟨config, issued, event⟩ := s
    obtain rfl : event = .login i user := hlogin
    obtain ⟨⟨t, ht, hrest⟩, -⟩ := hhears
    obtain ⟨req, hjob, hkey, hrow⟩ := Runs.signedIn hbefore.reaches ht hrest
    exact ⟨scheme, _, hparts, _, hs, i, user, rfl, rfl, rfl, clock_le h hs, hnow, t, req, ht, hjob,
      hkey, hrow⟩
  · cases hvalid

/-- Every request for a user that the backend has ever run came through the gateway, with a token
that the user had got by logging in less than a day before. -/
theorem request_follows_login (hjwt : jwt.Lawful)
    (h : Beside (backend svc crypto) ok (gateway jwt) initialConfig start history b now)
    (hgated : Gated history b) {i : ℕ} {t : BackendThread} (ht : b.threads[i]? = some t)
    (huser : t.job.user = some userID) :
    ∃ before s after authHeader route scheme tokenString, history = before ++ s :: after ∧
      s.event = .serve i (.league authHeader route) ∧
      headerParts authHeader = [scheme, tokenString] ∧
      LoggedIn crypto jwt before s.state userID tokenString := by
  obtain ⟨s, hs, endpoint, hserve⟩ := hgated i t ht (by rw [huser]; rfl)
  obtain ⟨before, after, hsplit⟩ := List.append_of_mem hs
  obtain ⟨hbefore, hhears, hafter⟩ := h.split hsplit
  obtain ⟨config, time, event⟩ := s
  obtain rfl : event = .serve i endpoint := hserve
  obtain ⟨⟨t', ht', hrequest⟩, hunforged⟩ := hhears
  obtain ⟨u, hu, hjob, -⟩ := hafter.thread_later ht'
  obtain rfl := Option.some.inj (ht.symm.trans hu)
  rw [hjob] at huser
  cases endpoint with
  | auth route => simp [AuthRoute.request_user hrequest] at huser
  | league authHeader route =>
    obtain ⟨claims, hclaims, hhandled⟩ := ok_of_bind hrequest
    rw [(Handler.request_user hhandled).2] at huser
    obtain rfl := Option.some.inj huser
    obtain ⟨scheme, tokenString, hparts, hloggedIn⟩ :=
      loggedIn_of_authMiddleware hjwt hbefore (hunforged authHeader route rfl) hclaims
    exact ⟨before, _, after, authHeader, route, scheme, tokenString, hsplit, rfl, hparts, hloggedIn⟩

/-- A wallet logs in, and a second later its user cancels a league. -/
theorem request_follows_login_cancels : ∃ (history before after : List GatewayAct)
    (s : GatewayAct) (authHeader : String) (route : Route) (userID scheme tokenString : String),
    history = before ++ s :: after ∧ s.event = .serve 2 (.league authHeader route) ∧
      headerParts authHeader = [scheme, tokenString] ∧
      LoggedIn Crypto.mock JWT.mock before s.state userID tokenString := by
  obtain ⟨a, hrun, husers, t, ht, htoken⟩ := properLogin.exists_run .mock .mock (fun _ _ => True)
    (fun a => (a.threads.map fun t => t.job.user) = [none, none] ∧
      ∃ t ∈ a.threads[1]?, tokenRequest t = some firstLogin) (by decide +kernel)
  obtain ⟨-, user, hrest⟩ := tokenRequest_eq htoken
  have hlength : a.threads.length = 2 := by simpa using congrArg List.length husers
  let cancel : BackendThread :=
    .start (backend .mock .mock) (.cancelLeague Schedule.leagueID user.userID)
  let b : BackendConfig := ⟨a.world, a.threads ++ [cancel]⟩
  let authHeader : String := "Bearer " ++ generateJWT JWT.mock 0 user
  let endpoint : Endpoint := .league authHeader (.cancelLeague Schedule.leagueID)
  let login : GatewayAct := ⟨a, 0, .login 1 user⟩
  let tick : GatewayAct := ⟨a, 0, .tick⟩
  let serve : GatewayAct := ⟨b, 1, .serve 2 endpoint⟩
  have hcancel : b.threads[2]? = some cancel := by simp [b, ← hlength]
  have hlogin : (gateway JWT.mock).hears [] login := ⟨⟨t, ht, hrest⟩, by simp⟩
  have htick : (gateway JWT.mock).hears [login] tick := trivial
  have hrequest : endpoint.request JWT.mock 1 = .ok cancel.job := by
    simp only [endpoint, authHeader, Endpoint.request, authMiddleware_generateJWT JWT.lawful_mock]
    rfl
  have hunforged : Unforged JWT.mock [login, tick] 1 authHeader := by
    intro scheme tokenString hparts _
    rw [headerParts_bearer JWT.lawful_mock] at hparts
    obtain ⟨-, htoken⟩ := List.cons.inj hparts
    exact ⟨login, by simp, 1, user, rfl, (List.cons.inj htoken).1.symm⟩
  have hserve : (gateway JWT.mock).hears [login, tick] serve := by
    refine ⟨⟨cancel, hcancel, hrequest⟩, fun authHeader' route heq => ?_⟩
    obtain ⟨rfl, -⟩ := Endpoint.league.inj heq
    exact hunforged
  have hbeside : Beside (backend .mock .mock) (fun _ _ => True) (gateway JWT.mock) initialConfig 0
      [login, tick, serve] b 1 :=
    ((((Beside.start.runs hrun).act hlogin rfl).act htick rfl).run trivial
      (.spawn _)).act hserve rfl
  have hgated : Gated [login, tick, serve] b := by
    intro i u hu huser
    rcases getElem?_append_thread hu with ⟨rfl, rfl⟩ | hu
    · exact ⟨serve, by simp, endpoint, by rw [hlength]⟩
    · have hnone : u.job.user ∈ [none, none] :=
        husers ▸ List.mem_map_of_mem (List.mem_of_getElem? hu)
      simp [show u.job.user = none by simpa using hnone] at huser
  obtain ⟨before, s, after, authHeader', route, scheme, tokenString, hsplit, hserved, hparts,
    hloggedIn⟩ := request_follows_login JWT.lawful_mock hbeside hgated hcancel rfl
  exact ⟨_, before, after, s, authHeader', route, _, scheme, tokenString, hsplit, hserved, hparts,
    hloggedIn⟩

end Requests

end Wagr
