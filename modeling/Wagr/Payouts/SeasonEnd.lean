import Wagr.Service.Steps

/-!
# The protocol of the season-end settlement

Seen from one league, a thread that settles it goes through phases: it claims the league,
submits one transaction, asks for its receipt, and then marks the league executed with the
transaction's ID or failed. Every other request, and the settlement of every other league,
keeps away from these calls.
-/

namespace Wagr

open Interaction Protocol

/-- How far a thread is with the settlement of a league. -/
inductive SeasonPhase
  | idle
  | claimed
  | submitted (resp : TransactionResponse)
  | paid (txHash : String)
  | failed
  deriving DecidableEq

namespace SeasonPhase

/-- No transaction of the league is about to be submitted or confirmed. -/
def Resting : SeasonPhase → Prop
  | claimed => False
  | submitted _ => False
  | _ => True

/-- The calls a phase allows. -/
def allows (leagueID : String) (φ : SeasonPhase) (c : Call) : Prop :=
  (∀ resp, φ = submitted resp → c = .getReceipt resp) ∧
  match c with
  | .contractExecute (.seasonEnd leagueID') _ _ _ => leagueID' = leagueID → φ = claimed
  | .exec (.markPayoutFailed leagueID') => leagueID' = leagueID → φ = failed
  | .exec (.markPayoutExecuted leagueID' txHash) => leagueID' = leagueID → φ = paid txHash
  | _ => True

/-- The phase after an answered call. -/
def next (leagueID : String) (φ : SeasonPhase) : (c : Call) → Ret c → SeasonPhase
  | .exec (.claimPayout leagueID'), r =>
    match r with
    | .ok rowsAffected => if leagueID' = leagueID ∧ rowsAffected = (1 : ℕ) then claimed else φ
    | .error _ => φ
  | .contractExecute (.seasonEnd leagueID') _ _ _, r =>
    if leagueID' = leagueID then
      match r with
      | .ok resp => submitted resp
      | .error _ => failed
    else φ
  | .getReceipt _, r =>
    match φ with
    | submitted resp =>
      match r with
      | .ok .success => paid resp.transactionID
      | _ => failed
    | φ => φ
  | _, _ => φ

end SeasonPhase

/-- The protocol of the settlement of a league. -/
def seasonProtocol (leagueID : String) : Protocol Call Ret SeasonPhase :=
  ⟨SeasonPhase.allows leagueID, SeasonPhase.next leagueID⟩

/-- The phase of a thread with respect to a league. -/
abbrev seasonPhase (leagueID : String) (t : BackendThread) : SeasonPhase :=
  (seasonProtocol leagueID).phaseOf (fun _ : Request => .idle) t

/-- The calls that do not concern the settlement of a league. -/
def Call.quietFor (leagueID : String) : Call → Prop
  | .contractExecute (.seasonEnd leagueID') _ _ _ => leagueID' ≠ leagueID
  | .exec (.claimPayout leagueID') => leagueID' ≠ leagueID
  | .exec (.markPayoutFailed leagueID') => leagueID' ≠ leagueID
  | .exec (.markPayoutExecuted leagueID' _) => leagueID' ≠ leagueID
  | _ => True

variable {svc : Service} {crypto : Crypto} {leagueID : String} {φ : SeasonPhase} {α : Type}

/-- A quiet call is allowed in a resting phase and does not change it. -/
theorem quiet_allows {c : Call} (hc : c.quietFor leagueID) (hφ : φ.Resting) :
    (seasonProtocol leagueID).allows φ c ∧ ∀ r, (seasonProtocol leagueID).next φ c r = φ := by
  have hsubmitted : ∀ resp, φ = .submitted resp → c = .getReceipt resp := by
    rintro resp rfl
    exact hφ.elim
  cases c with
  | exec s =>
    cases s with
    | claimPayout leagueID' =>
      refine ⟨⟨hsubmitted, trivial⟩, fun r => ?_⟩
      cases r with
      | ok n => exact if_neg fun h => hc h.1
      | error e => rfl
    | markPayoutFailed leagueID' => exact ⟨⟨hsubmitted, fun h => absurd h hc⟩, fun _ => rfl⟩
    | markPayoutExecuted leagueID' txHash =>
      exact ⟨⟨hsubmitted, fun h => absurd h hc⟩, fun _ => rfl⟩
    | _ => exact ⟨⟨hsubmitted, trivial⟩, fun _ => rfl⟩
  | contractExecute purpose key recipients amounts =>
    cases purpose with
    | seasonEnd leagueID' =>
      exact ⟨⟨hsubmitted, fun h => absurd h hc⟩, fun r => if_neg hc⟩
    | weekly leagueID' eventIDs => exact ⟨⟨hsubmitted, trivial⟩, fun _ => rfl⟩
  | getReceipt resp =>
    refine ⟨⟨hsubmitted, trivial⟩, fun r => ?_⟩
    cases φ with
    | submitted resp' => exact hφ.elim
    | _ => rfl
  | _ => exact ⟨⟨hsubmitted, trivial⟩, fun _ => rfl⟩

/-- A program that makes only quiet calls stays in its resting phase. -/
theorem conforms_of_quiet {x : Job α} {Q : SeasonPhase → α → Prop}
    (hx : Calls (Call.quietFor leagueID) x) (hφ : φ.Resting) (hQ : ∀ r, Q φ r) :
    (seasonProtocol leagueID).Conforms φ x Q :=
  (conforms_of_footprint hx fun _ hc => quiet_allows hc hφ).mono fun _ r hψ => hψ ▸ hQ r

/-- Quiet calls before a program that ends in a resting phase. -/
theorem conforms_quiet_bind {β : Type} {x : Go α} {f : α → Go β}
    (hx : Calls (Call.quietFor leagueID) x.run) (hφ : φ.Resting)
    (hf : ∀ a, (seasonProtocol leagueID).Conforms φ (f a).run fun φ _ => φ.Resting) :
    (seasonProtocol leagueID).Conforms φ (x >>= f).run fun φ _ => φ.Resting := by
  refine conforms_run_bind.mpr (conforms_of_quiet hx hφ fun r => ?_)
  cases r with
  | error e => exact hφ
  | ok a => exact hf a

/-- A transaction is submitted after the claim; its receipt decides how the league is marked. -/
theorem conforms_distribute {key : Bytes32} {recipients : List Address} {amounts : List Int64}
    (hlength : recipients.length = amounts.length) (hne : recipients ≠ []) :
    (seasonProtocol leagueID).Conforms .claimed
      (executeDistributePayout (.seasonEnd leagueID) key recipients amounts).run
      fun φ r => φ = match r with
        | .ok txHash => .paid txHash
        | .error _ => .failed := by
  unfold executeDistributePayout
  rw [if_neg (by simpa using hlength), if_neg hne]
  simp only [conforms_run_bind, conforms_wrapErr, conforms_run_mk, conforms_call', forall_except]
  refine ⟨⟨by simp, fun _ => rfl⟩, fun resp => ?_, fun e => ?_⟩
  swap
  · exact if_pos rfl
  have hsubmitted : (seasonProtocol leagueID).next .claimed
      (.contractExecute (.seasonEnd leagueID) key recipients amounts) (.ok resp) =
      .submitted resp := if_pos rfl
  simp only [hsubmitted, mapError_ok]
  refine ⟨⟨fun resp' h => by cases h; rfl, trivial⟩, fun receipt => ?_, fun e => rfl⟩
  cases receipt with
  | success => rfl
  | failure status => rfl

/-- After the transaction the league is marked in the phase the transaction led to. -/
theorem conforms_finishPayout {resolved : List ResolvedPayout} {purpose : Purpose}
    {r : Except GoError String}
    (hφ : φ = match r with
      | .ok txHash => .paid txHash
      | .error _ => .failed) :
    (seasonProtocol leagueID).Conforms φ
      (finishPayout (seasonEndDeps svc purpose) leagueID resolved r).run
      fun φ _ => φ.Resting := by
  subst hφ
  cases r with
  | error err =>
    refine conforms_run_bind.mpr (conforms_run_lift.mpr (conforms_run_bind.mpr ?_))
    exact ⟨⟨by simp, fun _ => rfl⟩, fun r => by cases r <;> trivial⟩
  | ok txHash =>
    refine conforms_run_bind.mpr (conforms_wrapErr.mpr (conforms_run_bind.mpr ?_))
    refine ⟨⟨by simp, fun _ => rfl⟩, fun r => ?_⟩
    cases r with
    | error e => trivial
    | ok n =>
      refine conforms_run_ite.mpr ⟨fun _ => ?_, fun _ => trivial⟩
      refine conforms_of_quiet (.lift (.forM fun r => ?_)) trivial fun _ => trivial
      exact .bind (.run_bind (.exec trivial) fun _ => trivial) fun _ => trivial

/-- The league is claimed before it is paid. -/
theorem conforms_payResolved {resolved : List ResolvedPayout} (hne : resolved ≠ [])
    (hφ : φ.Resting) :
    (seasonProtocol leagueID).Conforms φ
      (payResolved (seasonEndDeps svc (.seasonEnd leagueID)) leagueID resolved).run
      fun φ _ => φ.Resting := by
  refine conforms_quiet_bind (.wrapErr trivial) hφ fun key => ?_
  refine conforms_quiet_bind (.wrapErr (.run_bind (.wrapErr trivial) fun _ =>
    calls_readContractPayment trivial)) hφ fun balance => ?_
  refine conforms_run_ite.mpr ⟨fun _ => hφ, fun _ => ?_⟩
  refine conforms_run_bind.mpr (conforms_wrapErr.mpr (conforms_run_bind.mpr ?_))
  refine ⟨⟨fun resp h => by subst h; exact hφ.elim, trivial⟩, fun r => ?_⟩
  cases r with
  | error e => exact hφ
  | ok rowsAffected =>
    by_cases hone : rowsAffected = (1 : ℕ)
    · have hclaimed : (seasonProtocol leagueID).next φ (.exec (.claimPayout leagueID))
          (.ok rowsAffected) = .claimed := if_pos ⟨rfl, hone⟩
      rw [hclaimed]
      refine conforms_run_ite.mpr ⟨fun _ => ?_, fun h => absurd (decide_eq_true hone) h⟩
      refine conforms_run_bind.mpr (conforms_run_lift.mpr ?_)
      refine (conforms_distribute (by simp) (by simpa using hne)).mono fun ψ r hψ => ?_
      exact conforms_finishPayout hψ
    · have hlost : (seasonProtocol leagueID).next φ (.exec (.claimPayout leagueID))
          (.ok rowsAffected) = φ := if_neg fun h => hone h.2
      rw [hlost]
      exact conforms_run_ite.mpr ⟨fun h => absurd (of_decide_eq_true h) hone, fun _ => hφ⟩

/-- The settlement of another league is quiet. -/
theorem Call.settles.quietFor {id : String} {c : Call} (h : c.settles id) (hid : id ≠ leagueID) :
    c.quietFor leagueID := by
  cases c with
  | exec s =>
    cases s with
    | claimPayout leagueID' | markPayoutFailed leagueID' | markPayoutExecuted leagueID' =>
      obtain rfl : leagueID' = id := h
      exact hid
    | _ => trivial
  | contractExecute purpose key recipients amounts =>
    obtain rfl : purpose = .seasonEnd id := h
    exact hid
  | _ => trivial

/-- The settlement of a league from a resting phase ends in one. -/
theorem conforms_settleSeasonEnd {league : OracleLeague} (hφ : φ.Resting) :
    (seasonProtocol leagueID).Conforms φ (processSeasonEndForLeague svc league).run
      fun φ _ => φ.Resting := by
  by_cases hid : league.id = leagueID
  · subst hid
    have hsettle : ∀ purpose, (seasonProtocol league.id).Conforms φ
        ((seasonEndDeps svc purpose).markSettledWithoutPayout league.id).run
        fun φ _ => φ.Resting :=
      fun _ => conforms_quiet_bind (.exec trivial) hφ fun _ => hφ
    refine conforms_quiet_bind (.wrapErr (.run_bind (.mk (.perform trivial)) fun _ => trivial)) hφ
      fun status => ?_
    refine conforms_run_ite.mpr ⟨fun _ => hφ, fun _ => ?_⟩
    refine conforms_run_ite.mpr ⟨fun _ => hsettle _, fun _ => ?_⟩
    refine conforms_quiet_bind (.wrapErr (.mk (.perform trivial))) hφ fun standings => ?_
    refine conforms_quiet_bind (.wrapErr (calls_getLeagueMembers trivial)) hφ fun members => ?_
    refine conforms_quiet_bind (.lift (calls_resolveStandings fun _ => trivial)) hφ
      fun resolved => ?_
    refine conforms_run_ite.mpr ⟨fun _ => hsettle _, fun hne => ?_⟩
    exact conforms_payResolved (by simpa using hne) hφ
  · exact conforms_of_quiet (calls_processSeasonEndForLeague.weaken fun c hc => hc.quietFor hid)
      hφ fun _ => hφ

/-- Requests other than the season-end job are quiet. -/
theorem Request.mayCall.quietFor {req : Request} {c : Call} (h : req.mayCall c)
    (hreq : req ≠ .runSeasonEndPayoutJob) : c.quietFor leagueID := by
  cases c with
  | exec s =>
    cases s with
    | claimPayout leagueID' | markPayoutFailed leagueID' | markPayoutExecuted leagueID' =>
      cases req with
      | runSeasonEndPayoutJob => exact absurd rfl hreq
      | _ => exact h.elim
    | _ => trivial
  | contractExecute purpose key recipients amounts =>
    cases purpose with
    | seasonEnd leagueID' => exact absurd h hreq
    | weekly leagueID' eventIDs => trivial
  | _ => trivial

/-- Every request follows the protocol. -/
theorem conforms_seasonProtocol (leagueID : String) (req : Request) :
    (seasonProtocol leagueID).Conforms .idle ((backend svc crypto).body req) fun _ _ => True := by
  by_cases hreq : req = .runSeasonEndPayoutJob
  · subst hreq
    refine conforms_toDone (Conforms.mono (Q := fun φ _ => φ.Resting) ?_ fun _ _ _ => trivial)
    refine conforms_run_ite.mpr ⟨fun _ => ?_, fun _ => trivial⟩
    refine conforms_quiet_bind (.wrapErr (.query trivial)) trivial fun stream => ?_
    refine conforms_run_lift.mpr (conforms_forM (fun league _ φ hφ => ?_) trivial)
    exact conforms_bind.mpr (conforms_settleSeasonEnd hφ)
  · exact conforms_of_quiet ((calls_request req).weaken fun c hc => hc.quietFor hreq) trivial
      fun _ => trivial

end Wagr
