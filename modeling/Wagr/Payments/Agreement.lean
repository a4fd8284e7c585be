import Wagr.Library.Course
import Wagr.Library.History
import Wagr.Service.Scenario
import Wagr.Service.Steps
import Wagr.Web.ConfirmLoop

/-!
# What the page concludes

A confirm loop returns normally if the answer to its last attempt is 2xx or 409. For a payment
409 stands for a membership that is paid already; for a refund it stands for a league that is not
cancelled, while a membership that is refunded already is answered with 402. So the page agrees
with the server about a payment whenever the answer to the last attempt arrives and its update is
reported as it went, and about a refund only if moreover neither of the two is found.
-/

namespace Wagr

open Interaction Protocol System

/-! ## Attempts -/

/-- What the page confirms. -/
inductive ConfirmKind
  | payment
  | refund
  deriving DecidableEq

namespace ConfirmKind

/-- The status the page assumes afterwards. -/
def status : ConfirmKind → PaymentStatus
  | payment => .paid
  | refund => .refunded

/-- The request of an attempt. -/
def request (leagueID userID transactionID : String) : ConfirmKind → Request
  | payment => .confirmPayment leagueID userID transactionID
  | refund => .confirmRefund leagueID userID transactionID

/-- The update of an attempt. -/
def update (leagueID userID transactionID : String) : ConfirmKind → Statement
  | payment => .markPaid leagueID userID transactionID
  | refund => .markRefunded leagueID userID transactionID

/-- The response of the handler. -/
def respond : ConfirmKind → Except GoError Response → HTTPResponse
  | payment => Handler.confirmPayment
  | refund => Handler.confirmRefund

/-- The error that the handler answers with 409. -/
def conflict : ConfirmKind → GoError
  | payment => .alreadyPaid
  | refund => .leagueNotCancelled

/-- The loop of the page. -/
def loop : ConfirmKind → (ℕ → Fetch) → Except PageError Unit
  | payment => confirmPaymentWithRetry
  | refund => confirmRefundWithRetry

/-- The payment status that an attempt reads. -/
def reads : ConfirmKind → Sigma Ret → Option PaymentStatus
  | payment, ⟨.query (.memberPayment _ _), .ok (some info)⟩ => some info.paymentStatus
  | refund, ⟨.query (.memberRefund _ _), .ok (some info)⟩ => some info.paymentStatus
  | _, _ => none

/-- The answer to the update of an attempt: how many rows it has changed, or an error. -/
def updates : ConfirmKind → Sigma Ret → Option (Except GoError ℕ)
  | payment, ⟨.exec (.markPaid _ _ _), r⟩ => some r
  | refund, ⟨.exec (.markRefunded _ _ _), r⟩ => some r
  | _, _ => none

/-- The attempt finds a paid membership in a league that is not cancelled. -/
def readsOpen : Sigma Ret → Bool
  | ⟨.query (.memberRefund _ _), .ok (some info)⟩ =>
    info.paymentStatus = .paid && info.cancelledAt.isNone
  | _ => false

/-- The attempt finds the membership in the status that is to be confirmed. -/
def Found (k : ConfirmKind) (trace : List (Sigma Ret)) : Prop :=
  k.status ∈ trace.filterMap k.reads

/-- The attempt finds what its handler answers with 409. -/
def Conflict : ConfirmKind → List (Sigma Ret) → Prop
  | payment, trace => payment.Found trace
  | refund, trace => trace.any readsOpen = true

end ConfirmKind

/-- The fate of an attempt: the request does not reach the server, it is refused before the service
is called, or a thread processes it and its response is delivered or lost. -/
inductive Attempt
  | lost
  | refused (res : HTTPResponse) (hres : res.status = 400 ∨ res.status = 401)
  | processed (i : ℕ) (delivered : Bool)

/-- What `fetch` yields. A thread that has not returned has not responded either. -/
def Attempt.fetch (respond : Except GoError Response → HTTPResponse) (b : BackendConfig) :
    Attempt → Fetch
  | lost => .error "Failed to fetch"
  | refused res _ => .ok res
  | processed i delivered =>
    match b.threads[i]?.map Thread.rest with
    | some (.done r) => if delivered then .ok (respond r) else .error "Failed to fetch"
    | _ => .error "Failed to fetch"

/-- The errors of the database, the mirror node and the network are none of package `league`. -/
def GoError.Foreign (err : GoError) : Prop :=
  ∀ sentinel ∈ [notCommissioner, notLeagueMember, alreadyPaid, paymentInsufficient,
    leagueAlreadyCancelled, leagueNotCancelled], err.is sentinel = false

/-- If the answer to a call is an error, it comes from outside. -/
def ForeignError : Sigma Ret → Prop
  | ⟨.exec _, .error err⟩ => err.Foreign
  | ⟨.query _, .error err⟩ => err.Foreign
  | ⟨.contractCall _ _, .error err⟩ => err.Foreign
  | _ => True

/-! ## One attempt -/

namespace ConfirmKind

/-- The attempt has not found anything that decides it, and has updated nothing. -/
structure Unsettled (k : ConfirmKind) (trace : List (Sigma Ret)) : Prop where
  found : ¬ k.Found trace
  conflict : ¬ k.Conflict trace
  updates : trace.filterMap k.updates = []

/-- Nothing was called yet. -/
theorem Unsettled.nil {k : ConfirmKind} : k.Unsettled [] := by
  cases k <;> exact ⟨by simp [Found], by simp [Conflict, Found], rfl⟩

/-- A call that decides nothing. -/
theorem Unsettled.cons {k : ConfirmKind} {trace : List (Sigma Ret)} {call : Sigma Ret}
    (h : k.Unsettled trace) (hreads : k.reads call ≠ some k.status) (hopen : readsOpen call = false)
    (hupdates : k.updates call = none) : k.Unsettled (call :: trace) := by
  have hfound : ¬ k.Found (call :: trace) := by
    intro hmem
    obtain ⟨call', hcall', hstatus⟩ := List.mem_filterMap.mp hmem
    rcases List.mem_cons.mp hcall' with rfl | hcall'
    · exact hreads hstatus
    · exact h.found (List.mem_filterMap.mpr ⟨call', hcall', hstatus⟩)
  refine ⟨hfound, ?_, ?_⟩
  · cases k with
    | payment => exact hfound
    | refund =>
      have hrest : trace.any readsOpen = false := Bool.eq_false_iff.mpr h.conflict
      simp [Conflict, hopen, hrest]
  · rw [List.filterMap_cons_none hupdates]
    exact h.updates

end ConfirmKind

/-- How the result of an attempt depends on what it has found and on the answer to its update. -/
structure AttemptOutcome (k : ConfirmKind) (trace : List (Sigma Ret))
    (r : Except GoError Response) : Prop where
  found : k.Found trace ∨ k.Conflict trace → trace.filterMap k.updates = []
  apart : k = .refund → k.Found trace → ¬ k.Conflict trace
  once : (trace.filterMap k.updates).length ≤ 1
  accepted : (∀ call ∈ trace, ForeignError call) → (Accepted (.ok (k.respond r)) ↔
    k.Conflict trace ∨ ∃ n, .ok n ∈ trace.filterMap k.updates)

/-- The protocol of the attempts: nothing is called after something was found or updated. -/
def attemptProtocol : Protocol Call Ret (Request × List (Sigma Ret)) :=
  history fun req trace _ => ∀ (k : ConfirmKind) (leagueID userID transactionID : String),
    req = k.request leagueID userID transactionID → k.Unsettled trace

/-- The error is not one that stands for a conflict. -/
def GoError.NoConflict (err : GoError) : Prop :=
  err.is .alreadyPaid = false ∧ err.is .leagueNotCancelled = false

/-- An error with a text of its own. -/
theorem GoError.noConflict_text {format : String} {args : List String} :
    (text format args).NoConflict := ⟨rfl, rfl⟩

/-- A wrapped error is what it wraps. -/
theorem GoError.NoConflict.wrap {err : GoError} {message : String} (h : err.NoConflict) :
    (GoError.wrap message err).NoConflict := by
  simpa [NoConflict, GoError.is] using h

/-- An error from outside. -/
theorem GoError.Foreign.noConflict {err : GoError} (h : err.Foreign) : err.NoConflict :=
  ⟨h .alreadyPaid (by simp), h .leagueNotCancelled (by simp)⟩

variable {svc : Service} {crypto : Crypto} {leagueID userID transactionID : String}
  {k : ConfirmKind} {req : Request} {trace : List (Sigma Ret)}

/-- A response is taken for a success if the service returned no error, or the conflict. -/
theorem accepted_respond {r : Except GoError Response} : Accepted (.ok (k.respond r)) ↔
    ∀ err, r = .error err → err.is .notLeagueMember = false ∧ err.is k.conflict = true := by
  cases k with
  | payment =>
    simp only [ConfirmKind.respond, Handler.confirmPayment]
    exact accepted_confirmResponse
  | refund =>
    simp only [ConfirmKind.respond, Handler.confirmRefund]
    exact accepted_confirmResponse

/-- The response to an error is no success if it stands for no conflict. -/
theorem not_accepted_of_noConflict {err : GoError} (h : err.NoConflict) :
    ¬ Accepted (.ok (k.respond (.error err))) := by
  intro haccepted
  have hconflict := (accepted_respond.mp haccepted err rfl).2
  cases k with
  | payment => exact absurd (h.1.symm.trans hconflict) (by decide)
  | refund => exact absurd (h.2.symm.trans hconflict) (by decide)

/-- An attempt that ends with an error before it finds or updates anything. -/
theorem ConfirmKind.Unsettled.outcome {err : GoError} (h : k.Unsettled trace)
    (herr : (∀ call ∈ trace, ForeignError call) → err.NoConflict) :
    AttemptOutcome k trace (.error err) where
  found _ := h.updates
  apart _ hfound := absurd hfound h.found
  once := by simp [h.updates]
  accepted hforeign := by
    simp [not_accepted_of_noConflict (herr hforeign), h.conflict, h.updates]

/-- An attempt that ends with its update. -/
theorem ConfirmKind.Unsettled.outcome_updated {call : Sigma Ret} {r : Except GoError ℕ}
    {message : String} (h : k.Unsettled trace) (hreads : k.reads call = none)
    (hopen : readsOpen call = false) (hupdates : k.updates call = some r)
    (herr : ForeignError call → ∀ e, r = .error e → e.Foreign) :
    AttemptOutcome k (call :: trace)
      ((r.mapError (GoError.wrap message)).map fun _ => Response.done) := by
  have hfound : ¬ k.Found (call :: trace) := by
    intro hmem
    refine h.found ?_
    rwa [ConfirmKind.Found, List.filterMap_cons_none hreads] at hmem
  have hconflict : ¬ k.Conflict (call :: trace) := by
    cases k with
    | payment => exact hfound
    | refund =>
      have hrest : trace.any ConfirmKind.readsOpen = false := Bool.eq_false_iff.mpr h.conflict
      simp [ConfirmKind.Conflict, hopen, hrest]
  have hall : (call :: trace).filterMap k.updates = [r] := by
    rw [List.filterMap_cons_some hupdates, h.updates]
  refine ⟨fun hsettled => ?_, fun _ hmem => absurd hmem hfound, by simp [hall], fun hforeign => ?_⟩
  · rcases hsettled with hmem | hmem
    · exact absurd hmem hfound
    · exact absurd hmem hconflict
  · rw [hall]
    cases r with
    | error e =>
      have he := (herr (hforeign call List.mem_cons_self) e rfl).noConflict
      have hnot : ¬ Accepted (.ok (k.respond (.error (.wrap message e)))) :=
        not_accepted_of_noConflict he.wrap
      simp [hconflict, hnot, Except.map]
    | ok n =>
      have haccepted : Accepted (.ok (k.respond (.ok .done))) :=
        accepted_respond.mpr fun err herr => by cases herr
      simp [haccepted, Except.map]

/-- An attempt that is answered with the conflict. -/
theorem ConfirmKind.Unsettled.outcome_conflict {call : Sigma Ret} {err : GoError}
    (h : k.Unsettled trace) (hconflict : k.Conflict (call :: trace))
    (hfound : k = .refund → k.reads call ≠ some k.status) (hupdates : k.updates call = none)
    (haccepted : Accepted (.ok (k.respond (.error err)))) :
    AttemptOutcome k (call :: trace) (.error err) := by
  have hnone : (call :: trace).filterMap k.updates = [] := by
    rw [List.filterMap_cons_none hupdates, h.updates]
  refine ⟨fun _ => hnone, fun hk hmem => ?_, by simp [hnone],
    fun _ => by simp [haccepted, hconflict]⟩
  obtain ⟨call', hcall', hstatus⟩ := List.mem_filterMap.mp hmem
  rcases List.mem_cons.mp hcall' with rfl | hcall'
  · exact absurd hstatus (hfound hk)
  · exact absurd (List.mem_filterMap.mpr ⟨call', hcall', hstatus⟩) h.found

/-- A refund that is refused because the membership is not paid. -/
theorem ConfirmKind.Unsettled.outcome_refused {call : Sigma Ret} {err : GoError}
    (h : ConfirmKind.refund.Unsettled trace) (hopen : readsOpen call = false)
    (hupdates : ConfirmKind.refund.updates call = none) (herr : err.NoConflict) :
    AttemptOutcome .refund (call :: trace) (.error err) := by
  have hnone : (call :: trace).filterMap ConfirmKind.refund.updates = [] := by
    rw [List.filterMap_cons_none hupdates, h.updates]
  have hrest : trace.any readsOpen = false := Bool.eq_false_iff.mpr h.conflict
  have hconflict : ¬ ConfirmKind.refund.Conflict (call :: trace) := by
    simp [ConfirmKind.Conflict, hopen, hrest]
  refine ⟨fun _ => hnone, fun _ _ => hconflict, by simp [hnone], fun _ => ?_⟩
  simp [not_accepted_of_noConflict herr, hconflict, hnone]

/-- Before an attempt has found or updated anything, every call is allowed. -/
theorem ConfirmKind.Unsettled.allows (h : k.Unsettled trace) {c : Call} :
    attemptProtocol.allows (k.request leagueID userID transactionID, trace) c := by
  intro k' _ _ _ heq
  cases k <;> cases k' <;> cases heq <;> exact h

/-! ## The two confirmations -/

/-- The errors of the address conversions and of decoding have a text of their own. -/
theorem hederaAccountToEVM_noConflict {accountID : String} {err : GoError}
    (h : hederaAccountToEVM accountID = .error err) : err.NoConflict := by
  unfold hederaAccountToEVM at h
  split at h
  · split at h
    · cases h
    · cases h
      exact GoError.noConflict_text
  · cases h
    exact GoError.noConflict_text

theorem evmAddressOf_noConflict {accountID : String} {mirror : Option String} {err : GoError}
    (h : evmAddressOf accountID mirror = .error err) : err.NoConflict := by
  unfold evmAddressOf at h
  split at h
  · exact hederaAccountToEVM_noConflict h
  · dsimp only at h
    split at h
    · exact hederaAccountToEVM_noConflict h
    · split at h
      · exact hederaAccountToEVM_noConflict h
      · cases h

theorem uuidToBytes32_noConflict {err : GoError} (h : uuidToBytes32 leagueID = .error err) :
    err.NoConflict := by
  unfold uuidToBytes32 at h
  dsimp only at h
  split at h
  · cases h
    exact GoError.noConflict_text
  · split at h
    · cases h
      exact GoError.noConflict_text
    · cases h

theorem decodePayment_noConflict {result : String} {err : GoError}
    (h : decodePayment result = .error err) : err.NoConflict := by
  unfold decodePayment at h
  dsimp only at h
  split at h
  · cases h
    exact GoError.noConflict_text
  · split at h
    · cases h
      exact GoError.noConflict_text
    · cases h

/-- The attempt is still unsettled, and an error stands for no conflict. -/
def Proceeds {α : Type} (k : ConfirmKind) (req : Request) (φ : Request × List (Sigma Ret))
    (r : Except GoError α) : Prop :=
  φ.1 = req ∧ k.Unsettled φ.2 ∧
    ∀ err, r = .error err → (∀ call ∈ φ.2, ForeignError call) → err.NoConflict

/-- Looking up the member's address settles nothing. -/
theorem conforms_getAccountEVMAddress_attempt {accountID message : String}
    (h : k.Unsettled trace) :
    attemptProtocol.Conforms (k.request leagueID userID transactionID, trace)
      (wrapErr message (getAccountEVMAddress accountID)).run
      (Proceeds k (k.request leagueID userID transactionID)) := by
  refine conforms_wrapErr.mpr (conforms_bind.mpr ⟨h.allows, fun mirror => ?_⟩)
  refine ⟨rfl, h.cons ?_ rfl ?_, fun err herr _ => ?_⟩
  · cases k <;> simp [ConfirmKind.reads]
  · cases k <;> rfl
  · cases haddress : evmAddressOf accountID mirror with
    | ok address =>
      rw [haddress] at herr
      cases herr
    | error e =>
      rw [haddress] at herr
      cases herr
      exact (evmAddressOf_noConflict haddress).wrap

/-- Reading the escrow settles nothing. -/
theorem conforms_readMemberPayment_attempt {evmAddr : Address} {message : String}
    (h : k.Unsettled trace) :
    attemptProtocol.Conforms (k.request leagueID userID transactionID, trace)
      (readMemberPayment svc leagueID evmAddr message).run
      (Proceeds k (k.request leagueID userID transactionID)) := by
  have hstop : ∀ {α : Type} {err : GoError} {message : String}, err.NoConflict →
      Proceeds k (k.request leagueID userID transactionID)
        (k.request leagueID userID transactionID, trace)
        (.error (.wrap message err) : Except GoError α) := by
    intro α err message herr
    refine ⟨rfl, h, fun e he _ => ?_⟩
    cases he
    exact herr.wrap
  refine conforms_run_bind.mpr (conforms_wrapErr.mpr (conforms_ofResult.mpr ?_))
  cases hkey : uuidToBytes32 leagueID with
  | error e => exact hstop (uuidToBytes32_noConflict hkey)
  | ok key =>
    refine conforms_run_bind.mpr (conforms_wrapErr.mpr (conforms_ofResult.mpr ?_))
    cases hcontract : hederaAccountToEVM svc.hederaEscrowContractID with
    | error e => exact hstop (hederaAccountToEVM_noConflict hcontract)
    | ok contract =>
      refine conforms_wrapErr.mpr (conforms_run_bind.mpr ⟨h.allows, fun result => ?_⟩)
      have hcall : k.Unsettled
          (⟨.contractCall contract (.payments key evmAddr), result⟩ :: trace) := by
        refine h.cons ?_ rfl ?_
        · cases k <;> simp [ConfirmKind.reads]
        · cases k <;> rfl
      cases result with
      | error e =>
        refine ⟨rfl, hcall, fun err herr hforeign => ?_⟩
        cases herr
        have he : e.Foreign := hforeign _ List.mem_cons_self
        exact he.noConflict.wrap
      | ok result =>
        refine ⟨rfl, hcall, fun err herr _ => ?_⟩
        cases hdecode : decodePayment result with
        | ok paid =>
          rw [hdecode] at herr
          cases herr
        | error e =>
          rw [hdecode] at herr
          cases herr
          exact (decodePayment_noConflict hdecode).wrap

/-- A payment confirmation keeps to the protocol. -/
theorem conforms_confirmPayment_attempt :
    attemptProtocol.Conforms (.confirmPayment leagueID userID transactionID, [])
      (confirmPayment svc leagueID userID transactionID).toDone.run
      fun φ r => AttemptOutcome .payment φ.2 r := by
  have hnil : ConfirmKind.payment.Unsettled [] := .nil
  refine conforms_run_bind.mpr (conforms_run_bind.mpr (conforms_wrapErr.mpr (conforms_query.mpr
    ⟨hnil.allows, fun info => ?_, fun e => ?_⟩)))
  swap
  · refine (hnil.cons (by simp [ConfirmKind.reads]) rfl rfl).outcome fun hforeign => ?_
    have he : e.Foreign := hforeign _ List.mem_cons_self
    exact he.noConflict.wrap
  cases info with
  | none => exact (hnil.cons (by simp [ConfirmKind.reads]) rfl rfl).outcome fun _ => ⟨rfl, rfl⟩
  | some info =>
    refine conforms_run_ite.mpr ⟨fun hpaid => ?_, fun hpaid => ?_⟩
    · refine hnil.outcome_conflict ?_ (fun h => by cases h) rfl ?_
      · simp [ConfirmKind.Conflict, ConfirmKind.Found, ConfirmKind.reads, ConfirmKind.status, hpaid]
      · exact accepted_respond.mpr fun err herr => by cases herr; exact ⟨rfl, rfl⟩
    · have hread : ConfirmKind.payment.Unsettled
          [⟨.query (.memberPayment leagueID userID), .ok (some info)⟩] :=
        hnil.cons (by simpa [ConfirmKind.reads, ConfirmKind.status] using hpaid) rfl rfl
      refine conforms_run_bind.mpr ((conforms_getAccountEVMAddress_attempt hread).mono ?_)
      rintro ⟨req, looked⟩ address ⟨rfl, hlooked, herr⟩
      cases address with
      | error err => exact hlooked.outcome fun hforeign => herr err rfl hforeign
      | ok address =>
        refine conforms_run_bind.mpr ((conforms_readMemberPayment_attempt hlooked).mono ?_)
        rintro ⟨req, verified⟩ paid ⟨rfl, hverified, herr⟩
        cases paid with
        | error err => exact hverified.outcome fun hforeign => herr err rfl hforeign
        | ok paid =>
          refine conforms_run_ite.mpr ⟨fun _ => hverified.outcome fun _ => ⟨rfl, rfl⟩, fun _ => ?_⟩
          refine conforms_run_bind.mpr (conforms_wrapErr.mpr ⟨hverified.allows, fun r => ?_⟩)
          have houtcome : AttemptOutcome .payment
              (⟨.exec (.markPaid leagueID userID transactionID), r⟩ :: verified)
              ((r.mapError (.wrap "failed to update payment status")).map fun _ => .done) :=
            hverified.outcome_updated rfl rfl rfl fun hforeign e he => by subst he; exact hforeign
          cases r with
          | error e => exact houtcome
          | ok n => exact houtcome

/-- A refund confirmation keeps to the protocol. -/
theorem conforms_confirmRefund_attempt :
    attemptProtocol.Conforms (.confirmRefund leagueID userID transactionID, [])
      (confirmRefund svc leagueID userID transactionID).toDone.run
      fun φ r => AttemptOutcome .refund φ.2 r := by
  have hnil : ConfirmKind.refund.Unsettled [] := .nil
  refine conforms_run_bind.mpr (conforms_run_bind.mpr (conforms_wrapErr.mpr (conforms_query.mpr
    ⟨hnil.allows, fun info => ?_, fun e => ?_⟩)))
  swap
  · refine (hnil.cons (by simp [ConfirmKind.reads]) rfl rfl).outcome fun hforeign => ?_
    have he : e.Foreign := hforeign _ List.mem_cons_self
    exact he.noConflict.wrap
  cases info with
  | none => exact (hnil.cons (by simp [ConfirmKind.reads]) rfl rfl).outcome fun _ => ⟨rfl, rfl⟩
  | some info =>
    refine conforms_run_ite.mpr ⟨fun hpaid => ?_, fun hpaid => conforms_run_ite.mpr
      ⟨fun hactive => ?_, fun hcancelled => ?_⟩⟩
    · have hclosed : ConfirmKind.readsOpen
          ⟨.query (.memberRefund leagueID userID), .ok (some info)⟩ = false := by
        simpa [ConfirmKind.readsOpen] using fun h => absurd h hpaid
      exact hnil.outcome_refused hclosed rfl ⟨rfl, rfl⟩
    · have hpaid := not_not.mp hpaid
      refine hnil.outcome_conflict ?_ (fun _ => ?_) rfl ?_
      · simp [ConfirmKind.Conflict, ConfirmKind.readsOpen, hpaid, hactive]
      · simp [ConfirmKind.reads, ConfirmKind.status, hpaid]
      · exact accepted_respond.mpr fun err herr => by cases herr; exact ⟨rfl, rfl⟩
    · have hpaid := not_not.mp hpaid
      have hclosed : ConfirmKind.readsOpen
          ⟨.query (.memberRefund leagueID userID), .ok (some info)⟩ = false := by
        simpa [ConfirmKind.readsOpen, hpaid] using Option.isSome_iff_ne_none.mpr hcancelled
      have hread : ConfirmKind.refund.Unsettled
          [⟨.query (.memberRefund leagueID userID), .ok (some info)⟩] :=
        hnil.cons (by simp [ConfirmKind.reads, ConfirmKind.status, hpaid]) hclosed rfl
      refine conforms_run_bind.mpr ((conforms_getAccountEVMAddress_attempt hread).mono ?_)
      rintro ⟨req, looked⟩ address ⟨rfl, hlooked, herr⟩
      cases address with
      | error err => exact hlooked.outcome fun hforeign => herr err rfl hforeign
      | ok address =>
        refine conforms_run_bind.mpr ((conforms_readMemberPayment_attempt hlooked).mono ?_)
        rintro ⟨req, verified⟩ onChain ⟨rfl, hverified, herr⟩
        cases onChain with
        | error err => exact hverified.outcome fun hforeign => herr err rfl hforeign
        | ok onChain =>
          refine conforms_run_ite.mpr ⟨fun _ => hverified.outcome fun _ => ⟨rfl, rfl⟩, fun _ => ?_⟩
          refine conforms_run_bind.mpr (conforms_wrapErr.mpr ⟨hverified.allows, fun r => ?_⟩)
          have houtcome : AttemptOutcome .refund
              (⟨.exec (.markRefunded leagueID userID transactionID), r⟩ :: verified)
              ((r.mapError (.wrap "failed to update refund status")).map fun _ => .done) :=
            hverified.outcome_updated rfl rfl rfl fun hforeign e he => by subst he; exact hforeign
          cases r with
          | error e => exact houtcome
          | ok n => exact houtcome

/-- Every request keeps to the protocol. -/
theorem conforms_attemptProtocol (req : Request) :
    attemptProtocol.Conforms (req, []) ((backend svc crypto).body req) fun φ r =>
      ∀ (k : ConfirmKind) (leagueID userID transactionID : String),
        req = k.request leagueID userID transactionID → AttemptOutcome k φ.2 r := by
  by_cases hreq : ∃ (k : ConfirmKind) (leagueID userID transactionID : String),
      req = k.request leagueID userID transactionID
  · obtain ⟨k, leagueID, userID, transactionID, rfl⟩ := hreq
    have hbody : attemptProtocol.Conforms (k.request leagueID userID transactionID, [])
        ((backend svc crypto).body (k.request leagueID userID transactionID))
        fun φ r => AttemptOutcome k φ.2 r := by
      cases k with
      | payment => exact conforms_confirmPayment_attempt
      | refund => exact conforms_confirmRefund_attempt
    refine hbody.mono fun φ r houtcome k' _ _ _ heq => ?_
    cases k <;> cases k' <;> cases heq <;> exact houtcome
  · have hnone : Calls (fun _ => True) ((backend svc crypto).body req) :=
      (calls_request req).weaken fun _ _ => trivial
    refine (conforms_history (hnone.weaken fun c _ later _ k _ _ _ heq => ?_)).mono
      fun φ r _ k _ _ _ heq => ?_
    · exact absurd ⟨k, _, _, _, heq⟩ hreq
    · exact absurd ⟨k, _, _, _, heq⟩ hreq

/-! ## The last attempt -/

variable {a b : BackendConfig} {ok : BackendConfig → BackendLabel → Prop}
  {course : List (BackendConfig × BackendLabel)}

/-- The step lets the update take effect on the user's membership after its call was answered. -/
def LandsOn (k : ConfirmKind) (leagueID userID transactionID : String) :
    BackendConfig × BackendLabel → Prop
  | (a, .env (.land n _ _)) =>
    a.world.inFlight[n]? = some (k.update leagueID userID transactionID) ∧
      ∃ m ∈ a.world.db.members.rows, a.world.db.membershipOf leagueID userID m = true
  | _ => False

/-- The update of thread `i` was reported as failed and took effect later in the course. -/
def LandsLater (k : ConfirmKind) (leagueID userID transactionID : String)
    (course : List (BackendConfig × BackendLabel)) (i : ℕ) : Prop :=
  ∃ before c err after,
    course = before ++
      (c, .call i (.exec (k.update leagueID userID transactionID)) (.error err)) :: after ∧
    ∃ s ∈ after, LandsOn k leagueID userID transactionID s

/-- What the attempt finds does not mislead the page: a payment that is found is reported to it; a
refund is not found, and a league that is not cancelled is not reported. -/
def ToldFound (delivered : Bool) (trace : List (Sigma Ret)) : ConfirmKind → Prop
  | .payment => ConfirmKind.payment.Found trace → delivered = true
  | .refund => ¬ ConfirmKind.refund.Found trace ∧
    (ConfirmKind.refund.Conflict trace → delivered = false)

section Attempts

variable (k) (leagueID userID transactionID : String)
  (course : List (BackendConfig × BackendLabel)) (b : BackendConfig)

/-- The attempts of a page are confirmations of its user with its transaction. -/
def IsAttempt (x : Attempt) : Prop :=
  ∀ i delivered, x = .processed i delivered → ∃ t, b.threads[i]? = some t ∧
    t.job = k.request leagueID userID transactionID

/-- The attempt found the membership in the status that is to be confirmed, or left it so: its
update changed a row when it was answered, or after it was reported as failed. -/
def FoundOrLeft : Attempt → Prop
  | .processed i _ => ∃ t, b.threads[i]? = some t ∧
    (k.Found t.trace ∨ (∃ n, 0 < n ∧ .ok n ∈ t.trace.filterMap k.updates) ∨
      LandsLater k leagueID userID transactionID course i)
  | _ => False

/-- The page is not misled about an attempt: the response to a payment that is found is delivered;
a refund is not found, and the response for a league that is not cancelled is lost; the response to
an update is delivered if and only if a row was changed, and no update takes effect after it was
reported as failed. -/
def Told : Attempt → Prop
  | .processed i delivered => ∀ t, b.threads[i]? = some t →
    ToldFound delivered t.trace k ∧
    (∀ n, .ok n ∈ t.trace.filterMap k.updates → (0 < n ↔ delivered = true)) ∧
      ¬ LandsLater k leagueID userID transactionID course i
  | _ => True

end Attempts

/-- An update that was reported as failed is in the trace. -/
theorem LandsLater.reported {i : ℕ} (h : LandsLater k leagueID userID transactionID course i)
    (hcourse : (backend svc crypto).Course a course b) {t : BackendThread}
    (ht : b.threads[i]? = some t) : ∃ err, .error err ∈ t.trace.filterMap k.updates := by
  obtain ⟨before, c, err, after, rfl, -⟩ := h
  have hmem : (c, Label.call i (.exec (k.update leagueID userID transactionID)) (.error err)) ∈
      before ++ (c, .call i (.exec (k.update leagueID userID transactionID)) (.error err)) ::
        after := by simp
  obtain ⟨t', ht', htrace⟩ := hcourse.answered hmem
  obtain rfl := Option.some.inj (ht.symm.trans ht')
  refine ⟨err, List.mem_filterMap.mpr ⟨_, htrace, ?_⟩⟩
  cases k <;> rfl

/-- An attempt that has returned: the page concludes the right thing if and only if it is not
misled. -/
theorem AttemptOutcome.told_iff {r : Except GoError Response} {delivered : Bool} {lands : Prop}
    (h : AttemptOutcome k trace r)
    (hlands : lands → ∃ err, .error err ∈ trace.filterMap k.updates) :
    ((delivered = true ∧ (k.Conflict trace ∨ ∃ n, .ok n ∈ trace.filterMap k.updates)) ↔
        (k.Found trace ∨ (∃ n, 0 < n ∧ .ok n ∈ trace.filterMap k.updates) ∨ lands)) ↔
      ToldFound delivered trace k ∧
        (∀ n, .ok n ∈ trace.filterMap k.updates → (0 < n ↔ delivered = true)) ∧ ¬ lands := by
  have hsame : ∀ x y, x ∈ trace.filterMap k.updates → y ∈ trace.filterMap k.updates → x = y := by
    intro x y hx hy
    match hlist : trace.filterMap k.updates, h.once with
    | [], _ => simp [hlist] at hx
    | [z], _ =>
      rw [hlist, List.mem_singleton] at hx hy
      exact hx.trans hy.symm
  have hnone : (k.Found trace ∨ k.Conflict trace) → ∀ x, x ∉ trace.filterMap k.updates := by
    intro hfound x hx
    simp [h.found hfound] at hx
  by_cases hfound : k.Found trace
  · have hnot : ∀ x, x ∉ trace.filterMap k.updates := hnone (.inl hfound)
    have hnolands : ¬ lands := fun hl => (hlands hl).elim fun err herr => hnot _ herr
    cases k with
    | payment =>
      have hconflict : ConfirmKind.payment.Conflict trace := hfound
      simp [hfound, hconflict, hnot, hnolands, ToldFound]
    | refund =>
      have hconflict : ¬ ConfirmKind.refund.Conflict trace := h.apart rfl hfound
      simp [hfound, hconflict, hnot, ToldFound]
  by_cases hconflict : k.Conflict trace
  · have hnot : ∀ x, x ∉ trace.filterMap k.updates := hnone (.inr hconflict)
    have hnolands : ¬ lands := fun hl => (hlands hl).elim fun err herr => hnot _ herr
    cases k with
    | payment => exact absurd hconflict hfound
    | refund => simp [hfound, hconflict, hnot, hnolands, ToldFound]
  have htold : ToldFound delivered trace k := by
    cases k with
    | payment => exact fun h => absurd h hfound
    | refund => exact ⟨hfound, fun h => absurd h hconflict⟩
  simp only [hfound, hconflict, htold, false_or, true_and]
  constructor
  · intro hiff
    refine ⟨fun n hn => ⟨fun hpos => (hiff.mpr (.inl ⟨n, hpos, hn⟩)).1, fun hdelivered => ?_⟩, ?_⟩
    · rcases hiff.mp ⟨hdelivered, n, hn⟩ with ⟨n', hpos, hn'⟩ | hl
      · cases hsame _ _ hn hn'
        exact hpos
      · obtain ⟨err, herr⟩ := hlands hl
        cases hsame _ _ hn herr
    · intro hl
      obtain ⟨-, n, hn⟩ := hiff.mpr (.inr hl)
      obtain ⟨err, herr⟩ := hlands hl
      cases hsame _ _ hn herr
  · rintro ⟨hupdates, hnolands⟩
    constructor
    · rintro ⟨hdelivered, n, hn⟩
      exact .inl ⟨n, (hupdates n hn).mpr hdelivered, hn⟩
    · rintro (⟨n, hpos, hn⟩ | hl)
      · exact ⟨(hupdates n hn).mp hpos, n, hn⟩
      · exact absurd hl hnolands

/-- A thread that confirms something is unsettled, or has returned and its result depends on what it
has found and updated. -/
theorem attempt_cases (hcourse : (backend svc crypto).Course initialConfig course b) {i : ℕ}
    {t : BackendThread} (ht : b.threads[i]? = some t)
    (hjob : t.job = k.request leagueID userID transactionID) :
    (∃ c next, t.rest = .call c next ∧ k.Unsettled t.trace) ∨
      ∃ r, t.rest = .done r ∧ AttemptOutcome k t.trace r := by
  have hrun : Runs svc crypto (fun _ _ => True) b := hcourse.reaches fun _ _ => trivial
  have hfollows := follows_of_reaches hrun conforms_attemptProtocol (by simp [initialConfig]) i t ht
  have hphase : attemptProtocol.phaseOf (fun req : Request => (req, [])) t = (t.job, t.trace) :=
    history_phase t.trace
  cases hrest : t.rest with
  | call c next =>
    have hallows := hfollows.allows hrest
    rw [hphase] at hallows
    exact .inl ⟨c, next, rfl, hallows k _ _ _ hjob⟩
  | done r =>
    have hresult := hfollows.result hrest
    rw [hphase] at hresult
    exact .inr ⟨r, rfl, hresult k _ _ _ hjob⟩

/-- An attempt is taken for a success exactly if it found or left the membership as the page
concludes, provided that the page is told what it has to be told, and only then. -/
theorem accepted_iff_foundOrLeft (hcourse : (backend svc crypto).Course initialConfig course b)
    (hforeign : ∀ t ∈ b.threads, ∀ call ∈ t.trace, ForeignError call) {x : Attempt}
    (hx : IsAttempt k leagueID userID transactionID b x) :
    (Accepted (x.fetch k.respond b) ↔ FoundOrLeft k leagueID userID transactionID course b x) ↔
      Told k leagueID userID transactionID course b x := by
  cases x with
  | lost => simp [Attempt.fetch, Accepted, FoundOrLeft, Told]
  | refused res hres =>
    have hnot : ¬ Accepted (.ok res) := by
      rintro ⟨res', heq, h⟩
      obtain rfl := Except.ok.inj heq
      rcases hres with hres | hres <;> simp [HTTPResponse.ok, hres] at h
    simp [Attempt.fetch, hnot, FoundOrLeft, Told]
  | processed i delivered =>
    obtain ⟨t, ht, hjob⟩ := hx i delivered rfl
    have hthread : ∀ {p : BackendThread → Prop}, (∀ t, b.threads[i]? = some t → p t) ↔ p t := by
      intro p
      exact ⟨fun h => h t ht, fun h t' ht' => Option.some.inj (ht.symm.trans ht') ▸ h⟩
    have hfound : FoundOrLeft k leagueID userID transactionID course b (.processed i delivered) ↔
        k.Found t.trace ∨ (∃ n, 0 < n ∧ .ok n ∈ t.trace.filterMap k.updates) ∨
          LandsLater k leagueID userID transactionID course i := by
      constructor
      · rintro ⟨t', ht', h⟩
        exact Option.some.inj (ht'.symm.trans ht) ▸ h
      · exact fun h => ⟨t, ht, h⟩
    rw [hfound, Told, hthread]
    rcases attempt_cases hcourse ht hjob with ⟨c, next, hrest, hunsettled⟩ | ⟨r, hrest, houtcome⟩
    · -- the thread has not returned: nothing was found, nothing was updated
      have hlands : ¬ LandsLater k leagueID userID transactionID course i := by
        intro hlands
        obtain ⟨err, herr⟩ := hlands.reported hcourse ht
        simp [hunsettled.updates] at herr
      have hfetch : (Attempt.processed i delivered).fetch k.respond b =
          .error "Failed to fetch" := by
        simp [Attempt.fetch, ht, hrest]
      have hnot : ¬ Accepted (.error "Failed to fetch") := by simp [Accepted]
      have htold : ToldFound delivered t.trace k := by
        cases k with
        | payment => exact fun h => absurd h hunsettled.found
        | refund => exact ⟨hunsettled.found, fun h => absurd h hunsettled.conflict⟩
      rw [hfetch]
      simp [hnot, hunsettled.found, hunsettled.updates, hlands, htold]
    · have hfetch : Accepted ((Attempt.processed i delivered).fetch k.respond b) ↔
          delivered = true ∧
            (k.Conflict t.trace ∨ ∃ n, .ok n ∈ t.trace.filterMap k.updates) := by
        rw [← houtcome.accepted (hforeign t (List.mem_of_getElem? ht))]
        cases delivered <;> simp [Attempt.fetch, ht, hrest, Accepted]
      rw [hfetch]
      exact houtcome.told_iff fun hlands => hlands.reported hcourse ht

/-- A loop returns normally exactly if the server was found or left as the page concludes, provided
that the last attempt is told what it has to be told, and only then. -/
theorem confirmAgrees_iff (hcourse : (backend svc crypto).Course initialConfig course b)
    (hforeign : ∀ t ∈ b.threads, ∀ call ∈ t.trace, ForeignError call) (attempts : ℕ → Attempt)
    (hattempts : ∀ n, IsAttempt k leagueID userID transactionID b (attempts n)) :
    (k.loop (fun n => (attempts n).fetch k.respond b) = .ok () ↔
      FoundOrLeft k leagueID userID transactionID course b
        (attempts (lastAttempt fun n => (attempts n).fetch k.respond b))) ↔
      Told k leagueID userID transactionID course b
        (attempts (lastAttempt fun n => (attempts n).fetch k.respond b)) := by
  have hloop : k.loop (fun n => (attempts n).fetch k.respond b) = .ok () ↔
      Accepted ((attempts (lastAttempt fun n => (attempts n).fetch k.respond b)).fetch
        k.respond b) := by
    cases k with
    | payment => exact confirmWithRetry_iff
    | refund => exact confirmWithRetry_iff
  rw [hloop]
  exact accepted_iff_foundOrLeft hcourse hforeign (hattempts _)

/-! ## Runs -/

/-- The call was not answered with an error. -/
def succeeds : Sigma Ret → Bool
  | ⟨.exec _, .error _⟩ => false
  | ⟨.query _, .error _⟩ => false
  | ⟨.contractCall _ _, .error _⟩ => false
  | _ => true

/-- Without an error there is none that comes from the services. -/
theorem foreignError_of_succeeds {call : Sigma Ret} (h : succeeds call = true) :
    ForeignError call := by
  obtain ⟨c, r⟩ := call
  cases c with
  | exec | query | contractCall =>
    cases r with
    | ok r => trivial
    | error e => cases h
  | _ => trivial

/-- What a request confirms. -/
def Request.confirmation : Request → Option (ConfirmKind × String × String × String)
  | .confirmPayment leagueID userID transactionID =>
    some (.payment, leagueID, userID, transactionID)
  | .confirmRefund leagueID userID transactionID => some (.refund, leagueID, userID, transactionID)
  | _ => none

/-- A request that confirms something is the request of an attempt. -/
theorem Request.eq_of_confirmation
    (h : req.confirmation = some (k, leagueID, userID, transactionID)) :
    req = k.request leagueID userID transactionID := by
  cases req with
  | confirmPayment | confirmRefund =>
    cases h
    rfl
  | _ => cases h

/-- The error with which a thread has returned. -/
def Thread.failure (t : BackendThread) : Option GoError :=
  match t.rest with
  | .done (.error err) => some err
  | _ => none

/-- A thread that has returned an error is done. -/
theorem Thread.rest_of_failure {t : BackendThread} {err : GoError}
    (h : Thread.failure t = some err) : t.rest = .done (.error err) := by
  unfold Thread.failure at h
  split at h
  · rename_i hrest
    cases h
    exact hrest
  · cases h

/-- A member has paid and confirmed the payment, and confirms a refund although the league is not
cancelled. -/
def refundOfActive : Schedule :=
  Schedule.fundedLeague Schedule.firstPlace ++ Schedule.confirm 4 "u1" "f3" ++
    [.spawn (.confirmRefund Schedule.leagueID "u1" "tx2"), .call 5 (.succeed 0 "")]

/-- The page marks a member refunded who is still paid: the league is not cancelled, and the
response that says so is taken for a success. -/
theorem exists_refund_misled : ∃ (course : List (BackendConfig × BackendLabel)) (b : BackendConfig)
    (attempts : ℕ → Attempt), (backend .mock .mock).Course initialConfig course b ∧
      (∀ t ∈ b.threads, ∀ call ∈ t.trace, ForeignError call) ∧
      (∀ n, IsAttempt .refund Schedule.leagueID "u1" "tx2" b (attempts n)) ∧
      (∃ m ∈ b.world.db.members.rows, b.world.db.membershipOf Schedule.leagueID "u1" m = true ∧
        m.paymentStatus = .paid) ∧
      ConfirmKind.refund.loop (fun n => (attempts n).fetch ConfirmKind.refund.respond b) = .ok () ∧
      ¬ FoundOrLeft .refund Schedule.leagueID "u1" "tx2" course b
        (attempts (lastAttempt fun n => (attempts n).fetch ConfirmKind.refund.respond b)) := by
  obtain ⟨b, hrun, hsucceeds, hpaid, hthread⟩ := refundOfActive.exists_run .mock .mock
    (fun _ _ => True) (fun b => (b.threads.all fun t => t.trace.all succeeds) = true ∧
      (∃ m ∈ b.world.db.members.rows, b.world.db.membershipOf Schedule.leagueID "u1" m = true ∧
        m.paymentStatus = .paid) ∧
      (b.threads[5]?.any fun t =>
        t.job.confirmation = some (.refund, Schedule.leagueID, "u1", "tx2") &&
          Thread.failure t = some .leagueNotCancelled && t.trace.any ConfirmKind.readsOpen) = true)
    (by decide +kernel)
  obtain ⟨course, hcourse, -⟩ := hrun.exists_course
  have hforeign : ∀ t ∈ b.threads, ∀ call ∈ t.trace, ForeignError call :=
    fun t ht call hcall => foreignError_of_succeeds
      (List.all_eq_true.mp (List.all_eq_true.mp hsucceeds t ht) call hcall)
  obtain ⟨t, ht, hfacts⟩ := (Option.any_eq_true ..).mp hthread
  simp only [Bool.and_eq_true, decide_eq_true_eq] at hfacts
  obtain ⟨⟨hjob, hfailure⟩, hopen⟩ := hfacts
  have hattempt : IsAttempt .refund Schedule.leagueID "u1" "tx2" b (.processed 5 true) := by
    rintro i delivered heq
    cases heq
    exact ⟨t, ht, Request.eq_of_confirmation hjob⟩
  have hfetch : (Attempt.processed 5 true).fetch ConfirmKind.refund.respond b =
      .ok ⟨409, .message "league is not cancelled"⟩ := by
    simp only [Attempt.fetch, ht, Option.map_some, Thread.rest_of_failure hfailure, if_true]
    rfl
  have haccepted : Accepted ((Attempt.processed 5 true).fetch ConfirmKind.refund.respond b) :=
    ⟨_, hfetch, .inl rfl⟩
  refine ⟨course, b, fun _ => .processed 5 true, hcourse, hforeign, fun _ => hattempt, hpaid,
    confirmWithRetry_iff.mpr haccepted, fun hleft => ?_⟩
  have htold := (accepted_iff_foundOrLeft hcourse hforeign hattempt).mp
    (iff_of_true haccepted hleft)
  have hlost := (htold t ht).1.2 hopen
  exact absurd hlost (by decide)

/-- Once its confirmation is delivered, the page marks a member paid who is. -/
theorem exists_payment_agrees : ∃ (course : List (BackendConfig × BackendLabel))
    (b : BackendConfig),
    (backend .mock .mock).Course initialConfig course b ∧
      (ConfirmKind.payment.loop (fun _ => (Attempt.processed 4 true).fetch
          ConfirmKind.payment.respond b) = .ok () ↔
        FoundOrLeft .payment Schedule.leagueID "u1" "tx" course b (.processed 4 true)) := by
  obtain ⟨b, hrun, hsucceeds, hthread⟩ := refundOfActive.exists_run .mock .mock
    (fun _ _ => True) (fun b => (b.threads.all fun t => t.trace.all succeeds) = true ∧
      (b.threads[4]?.any fun t =>
        t.job.confirmation = some (.payment, Schedule.leagueID, "u1", "tx") &&
          (t.trace.filterMap ConfirmKind.payment.updates).map Except.toOption = [some 1]) = true)
    (by decide +kernel)
  obtain ⟨course, hcourse, -⟩ := hrun.exists_course
  have hforeign : ∀ t ∈ b.threads, ∀ call ∈ t.trace, ForeignError call :=
    fun t ht call hcall => foreignError_of_succeeds
      (List.all_eq_true.mp (List.all_eq_true.mp hsucceeds t ht) call hcall)
  obtain ⟨t, ht, hfacts⟩ := (Option.any_eq_true ..).mp hthread
  simp only [Bool.and_eq_true, decide_eq_true_eq] at hfacts
  obtain ⟨hjob, hupdates⟩ := hfacts
  have hattempt : IsAttempt .payment Schedule.leagueID "u1" "tx" b (.processed 4 true) := by
    rintro i delivered heq
    cases heq
    exact ⟨t, ht, Request.eq_of_confirmation hjob⟩
  refine ⟨course, b, hcourse,
    (confirmAgrees_iff hcourse hforeign (fun _ => .processed 4 true) fun _ => hattempt).mpr ?_⟩
  rintro u hu
  obtain rfl : u = t := Option.some.inj (hu.symm.trans ht)
  refine ⟨fun hfound => rfl, fun n hn => ?_, fun hlands => ?_⟩
  · have hn := List.mem_map_of_mem (f := Except.toOption) hn
    rw [hupdates, List.mem_singleton] at hn
    cases hn
    exact iff_of_true Nat.one_pos rfl
  · obtain ⟨err, herr⟩ := hlands.reported hcourse ht
    have herr := List.mem_map_of_mem (f := Except.toOption) herr
    rw [hupdates, List.mem_singleton] at herr
    cases herr

end Wagr
