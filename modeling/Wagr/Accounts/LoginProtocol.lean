import Wagr.Service.Steps

/-!
# The protocol of the login requests

A request for a nonce draws it and stores it. A verification reads the user, checks the
signature with the key of the mirror node, draws a new nonce, stores it, and returns a
token. The drawn nonce is held by one thread until it is stored.
-/

namespace Wagr

open Interaction Protocol

/-- How far a verification is. -/
inductive LoginPhase
  | idle
  | found (user : UserRow)
  | checked (user : UserRow)
  | accepted (user : UserRow)
  deriving DecidableEq

/-- What a login request remembers: its progress and the nonce it has drawn. -/
structure LoginState where
  req : Request
  phase : LoginPhase := .idle
  held : Option String := none

/-- The key verifies the signature of the request's message. -/
def accepts (crypto : Crypto) (key : HederaKeyInfo) (req : VerifyRequest) : Bool :=
  match checkSignature crypto key req.message req.signature with
  | .ok valid => valid
  | .error _ => false

/-- The calls a login state allows. -/
def LoginState.allows (st : LoginState) (c : Call) : Prop :=
  (∀ user, st.phase ≠ .accepted user) ∧
  match c with
  | .exec (.upsertNonce _ _ nonce) => st.held = some nonce
  | .exec (.rotateNonce userID nonce) => st.held = some nonce ∧
      ∃ user, st.phase = .checked user ∧ userID = user.id
  | .query (.userByWallet walletAddress) =>
    ∃ req, st.req = .verifySignature req ∧ walletAddress = req.walletAddress
  | .mirrorKey _ => ∃ req user, st.req = .verifySignature req ∧ st.phase = .found user
  | _ => True

/-- The login state after an answered call. -/
def LoginState.next (crypto : Crypto) (st : LoginState) : (c : Call) → Ret c → LoginState
  | .query (.userByWallet _), .ok (some user) => { st with phase := .found user }
  | .mirrorKey _, .ok key =>
    match st.req, st.phase with
    | .verifySignature req, .found user =>
      if accepts crypto key req then { st with phase := .checked user } else st
    | _, _ => st
  | .generateNonce, .ok nonce => { st with held := some nonce }
  | .generateNonce, .error _ => { st with phase := .idle }
  | .exec (.upsertNonce _ _ _), _ => { req := st.req }
  | .exec (.rotateNonce _ _), .ok _ =>
    match st.phase with
    | .checked user => { req := st.req, phase := .accepted user }
    | _ => { req := st.req }
  | .exec (.rotateNonce _ _), .error _ => { req := st.req }
  | _, _ => st

/-- The protocol of the login requests. -/
def loginProtocol (crypto : Crypto) : Protocol Call Ret LoginState :=
  ⟨LoginState.allows, LoginState.next crypto⟩

/-- The login state of a thread. -/
abbrev loginState (crypto : Crypto) (t : BackendThread) : LoginState :=
  (loginProtocol crypto).phaseOf (fun req : Request => { req := req }) t

/-- A result that carries a token comes from an accepted verification. -/
def TokenAccepted (st : LoginState) (r : Except GoError Response) : Prop :=
  ∀ resp, r = .ok (.token resp) → ∃ req user, st.req = .verifySignature req ∧
    st.phase = .accepted user ∧ resp = ⟨user.id, user.walletAddress, user.walletType⟩

variable {svc : Service} {crypto : Crypto}

/-- The calls that no login request makes. -/
def Call.noLogin : Call → Prop
  | .exec (.upsertNonce _ _ _) => False
  | .exec (.rotateNonce _ _) => False
  | .query (.userByWallet _) => False
  | .mirrorKey _ => False
  | .generateNonce => False
  | _ => True

/-- Such a call is allowed to an idle thread and changes nothing. -/
theorem noLogin_allows {c : Call} (hc : c.noLogin) {st : LoginState} (hst : st.phase = .idle) :
    (loginProtocol crypto).allows st c ∧ ∀ r, (loginProtocol crypto).next st c r = st := by
  have hidle : ∀ user, st.phase ≠ .accepted user := by simp [hst]
  cases c with
  | exec s =>
    cases s with
    | upsertNonce | rotateNonce => exact hc.elim
    | _ => exact ⟨⟨hidle, trivial⟩, fun _ => rfl⟩
  | query q =>
    cases q with
    | userByWallet walletAddress => exact hc.elim
    | _ => exact ⟨⟨hidle, trivial⟩, fun _ => rfl⟩
  | mirrorKey | generateNonce => exact hc.elim
  | _ => exact ⟨⟨hidle, trivial⟩, fun _ => rfl⟩

/-- Requests that draw no nonce have nothing to do with the login. -/
theorem Request.mayCall.noLogin {req : Request} {c : Call} (h : req.mayCall c)
    (hreq : ¬ req.mayDraw) : c.noLogin := by
  cases c with
  | exec s =>
    cases s with
    | upsertNonce | rotateNonce =>
      cases req with
      | getOrCreateNonce | verifySignature => exact hreq trivial
      | _ => exact h.elim
    | _ => trivial
  | query q =>
    cases q with
    | userByWallet walletAddress =>
      cases req with
      | verifySignature req => exact hreq trivial
      | _ => exact h.elim
    | _ => trivial
  | mirrorKey accountID =>
    obtain ⟨req', rfl⟩ := h
    exact hreq trivial
  | generateNonce => exact hreq h
  | _ => trivial

/-- A drawn nonce is stored. -/
theorem conforms_getOrCreateNonce {req : Request} {walletAddress walletType : String} :
    (loginProtocol crypto).Conforms { req := req } (getOrCreateNonce walletAddress walletType).run
      fun _ _ => True := by
  refine conforms_run_ite.mpr ⟨fun _ => trivial, fun _ => ?_⟩
  refine conforms_run_bind.mpr (conforms_wrapErr.mpr ⟨⟨by simp, trivial⟩, fun nonce => ?_⟩)
  cases nonce with
  | error e => trivial
  | ok nonce =>
    refine conforms_run_bind.mpr (conforms_wrapErr.mpr (conforms_exec.mpr ?_))
    exact ⟨⟨by simp [loginProtocol, LoginState.next], rfl⟩, fun _ => trivial, fun _ => trivial⟩

/-- What passes the answer to the signature check was accepted. -/
theorem accepts_of_requireValid {key : HederaKeyInfo} {req : VerifyRequest}
    (h : requireValid (checkSignature crypto key req.message req.signature) = .ok ()) :
    accepts crypto key req = true := by
  unfold accepts
  cases hcheck : checkSignature crypto key req.message req.signature with
  | error e =>
    rw [hcheck] at h
    cases e <;> cases h
  | ok valid =>
    rw [hcheck] at h
    cases valid with
    | true => rfl
    | false => cases h

/-- An accepted signature leads to the phase `checked`. -/
theorem conforms_verifyHederaSignature {req : VerifyRequest} {user : UserRow} :
    (loginProtocol crypto).Conforms { req := .verifySignature req, phase := .found user }
      (verifyHederaSignature crypto req.message req.signature req.walletAddress).run
      fun st valid => requireValid valid = .ok () →
        st = { req := .verifySignature req, phase := .checked user } := by
  refine conforms_run_bind.mpr (conforms_wrapErr.mpr (conforms_run_bind.mpr ?_))
  refine ⟨⟨by simp, req, user, rfl, rfl⟩, fun key => ?_⟩
  cases key with
  | error e =>
    intro hvalid
    cases hvalid
  | ok key =>
    refine conforms_run_ite.mpr ⟨fun _ hvalid => (by cases hvalid), fun hkey => ?_⟩
    intro hvalid
    have haccepts : accepts crypto key req = true := accepts_of_requireValid hvalid
    simp [loginProtocol, LoginState.next, haccepts]

/-- A token is returned only after the signature was accepted and the nonce replaced. -/
theorem conforms_verifySignature {req : VerifyRequest} :
    (loginProtocol crypto).Conforms { req := .verifySignature req }
      (verifySignature crypto req).run fun st r => ∀ resp, r = .ok resp → ∃ user,
        st.req = .verifySignature req ∧ st.phase = .accepted user ∧
          resp = ⟨user.id, user.walletAddress, user.walletType⟩ := by
  refine conforms_run_bind.mpr (conforms_run_lift.mpr (conforms_query.mpr ?_))
  refine ⟨⟨by simp, req, rfl, rfl⟩, fun user => ?_, fun e => ?_⟩
  · cases user with
    | none =>
      rintro resp h
      cases h
    | some user =>
      refine conforms_run_bind.mpr (conforms_run_lift.mpr (conforms_verifyHederaSignature.mono ?_))
      rintro st valid hst
      refine conforms_run_bind.mpr (conforms_ofResult.mpr ?_)
      cases hvalid : requireValid valid with
      | error e =>
        rintro resp h
        cases h
      | ok _ =>
        obtain rfl := hst hvalid
        refine conforms_run_bind.mpr (conforms_wrapErr.mpr ⟨⟨by simp, trivial⟩, fun nonce => ?_⟩)
        cases nonce with
        | error e =>
          rintro resp h
          cases h
        | ok nonce =>
          refine conforms_run_bind.mpr (conforms_wrapErr.mpr (conforms_exec.mpr ?_))
          refine ⟨⟨by simp [loginProtocol, LoginState.next], rfl, user, rfl, rfl⟩, fun n => ?_,
            fun e => ?_⟩
          · rintro resp h
            cases h
            exact ⟨user, rfl, rfl, rfl⟩
          · rintro resp h
            cases h
  · rintro resp h
    cases h

/-- A program without login calls returns no token. -/
theorem conforms_noLogin {α : Type} {x : Go α} {req : Request}
    (h : Calls Call.noLogin x.toDone.run) :
    (loginProtocol crypto).Conforms { req := req } x.toDone.run TokenAccepted := by
  have hx : Calls Call.noLogin x.run :=
    Conforms.mono (conforms_run_bind.mp h) fun _ _ _ => trivial
  refine conforms_run_bind.mpr
    ((conforms_of_footprint hx fun _ hc => noLogin_allows hc rfl).mono fun st r _ => ?_)
  cases r with
  | error e =>
    rintro resp h
    cases h
  | ok a =>
    rintro resp h
    cases h

/-- Every request follows the protocol and returns a token only if it was accepted. -/
theorem conforms_loginProtocol (req : Request) :
    (loginProtocol crypto).Conforms { req := req } ((backend svc crypto).body req)
      TokenAccepted := by
  have hcalls : ¬ req.mayDraw → Calls Call.noLogin (requestProgram svc crypto req).run :=
    fun hreq => (calls_request req).weaken fun c hc => hc.noLogin hreq
  cases req with
  | getOrCreateNonce walletAddress walletType =>
    refine conforms_run_bind.mpr (conforms_getOrCreateNonce.mono fun st r _ => ?_)
    cases r with
    | error e =>
      rintro resp h
      cases h
    | ok a =>
      rintro resp h
      cases h
  | verifySignature req =>
    refine conforms_run_bind.mpr (conforms_verifySignature.mono fun st r hr => ?_)
    cases r with
    | error e =>
      rintro resp h
      cases h
    | ok a =>
      rintro resp h
      obtain ⟨user, hreq, hphase, ha⟩ := hr a rfl
      cases h
      exact ⟨req, user, hreq, hphase, ha⟩
  | _ => exact conforms_noLogin (hcalls id)

end Wagr
