import Wagr.Payouts.SeasonEnd

/-!
# The settlement calls of one thread

The phase of a thread is read back from its answered calls: a thread sends a transaction
only after it has won a claim, each claim is used once, and a thread that has a transaction
ID got it from its own transaction.
-/

namespace Wagr

open Interaction Protocol System

/-- The call submits a season-end transaction of the league. -/
def Call.distributes (leagueID : String) : Call → Bool
  | .contractExecute (.seasonEnd leagueID') _ _ _ => leagueID' = leagueID
  | _ => false

/-- The answered call is a claim of the league that was won. -/
def winsClaim (leagueID : String) : Sigma Ret → Bool
  | ⟨.exec (.claimPayout leagueID'), .ok rowsAffected⟩ =>
    leagueID' = leagueID && rowsAffected = (1 : ℕ)
  | _ => false

/-- How many claims of the league a thread has won. -/
def claimsWon (leagueID : String) (t : BackendThread) : ℕ := t.trace.countP (winsClaim leagueID)

/-- How many season-end transactions of the league a thread has submitted. -/
def submissionsSent (leagueID : String) (t : BackendThread) : ℕ :=
  t.trace.countP fun call => call.1.distributes leagueID

/-- Whether a thread is just submitting one. -/
def submitting (leagueID : String) (t : BackendThread) : ℕ :=
  match t.rest with
  | .call c _ => if c.distributes leagueID then 1 else 0
  | .done _ => 0

/-- How often a thread has called `distribute` for the league, a call in progress included. -/
def distributeCalls (leagueID : String) (t : BackendThread) : ℕ :=
  submissionsSent leagueID t + submitting leagueID t

/-- A transaction of the league was submitted and its receipt reported success, so that
`distribute` has returned its ID. -/
def Distributed (leagueID txHash : String) (trace : List (Sigma Ret)) : Prop :=
  ∃ key recipients amounts resp, resp.transactionID = txHash ∧
    [⟨.getReceipt resp, .ok .success⟩,
      ⟨.contractExecute (.seasonEnd leagueID) key recipients amounts, .ok resp⟩] <:+: trace

variable {svc : Service} {crypto : Crypto} {a : BackendConfig}
  {ok : BackendConfig → BackendLabel → Prop} {leagueID : String}

/-- A transaction is only submitted with a claim. -/
theorem claimed_of_distributes {φ : SeasonPhase} {c : Call}
    (hallows : (seasonProtocol leagueID).allows φ c) (hc : c.distributes leagueID = true) :
    φ = .claimed := by
  cases c with
  | contractExecute purpose key recipients amounts =>
    cases purpose with
    | seasonEnd leagueID' => exact hallows.2 (by simpa [Call.distributes] using hc)
    | weekly leagueID' eventIDs => cases hc
  | _ => cases hc

/-- How a call of a thread changes its phase. -/
theorem season_next_cases {φ : SeasonPhase} {c : Call} {r : Ret c}
    (hallows : (seasonProtocol leagueID).allows φ c) :
    (winsClaim leagueID ⟨c, r⟩ = true ∧ c.distributes leagueID = false ∧
      (seasonProtocol leagueID).next φ c r = .claimed) ∨
    (winsClaim leagueID ⟨c, r⟩ = false ∧ c.distributes leagueID = true ∧ φ = .claimed ∧
      ((seasonProtocol leagueID).next φ c r = .failed ∨
        ∃ key recipients amounts resp, (⟨c, r⟩ : Sigma Ret) =
          ⟨.contractExecute (.seasonEnd leagueID) key recipients amounts, .ok resp⟩ ∧
          (seasonProtocol leagueID).next φ c r = .submitted resp)) ∨
    (winsClaim leagueID ⟨c, r⟩ = false ∧ c.distributes leagueID = false ∧
      ∃ resp, φ = .submitted resp ∧
        ((seasonProtocol leagueID).next φ c r = .failed ∨
          (⟨c, r⟩ : Sigma Ret) = ⟨.getReceipt resp, .ok .success⟩ ∧
          (seasonProtocol leagueID).next φ c r = .paid resp.transactionID)) ∨
    (winsClaim leagueID ⟨c, r⟩ = false ∧ c.distributes leagueID = false ∧
      (∀ resp, φ ≠ .submitted resp) ∧ (seasonProtocol leagueID).next φ c r = φ) := by
  obtain ⟨hreceipt, hcall⟩ := hallows
  by_cases hsubmitted : ∃ resp, φ = .submitted resp
  · obtain ⟨resp, rfl⟩ := hsubmitted
    obtain rfl := hreceipt resp rfl
    refine .inr (.inr (.inl ⟨rfl, rfl, resp, rfl, ?_⟩))
    match r with
    | .ok .success => exact .inr ⟨rfl, rfl⟩
    | .ok (.failure status) => exact .inl rfl
    | .error e => exact .inl rfl
  · have hother : ∀ resp, φ ≠ .submitted resp := fun resp h => hsubmitted ⟨resp, h⟩
    cases c with
    | exec s =>
      cases s with
      | claimPayout leagueID' =>
        cases r with
        | error e => exact .inr (.inr (.inr ⟨rfl, rfl, hother, rfl⟩))
        | ok rowsAffected =>
          by_cases hwon : leagueID' = leagueID ∧ rowsAffected = (1 : ℕ)
          · exact .inl ⟨by simpa [winsClaim] using hwon, rfl, if_pos hwon⟩
          · exact .inr (.inr (.inr ⟨by simpa [winsClaim] using hwon, rfl, hother, if_neg hwon⟩))
      | _ => exact .inr (.inr (.inr ⟨rfl, rfl, hother, rfl⟩))
    | contractExecute purpose key recipients amounts =>
      cases purpose with
      | weekly leagueID' eventIDs => exact .inr (.inr (.inr ⟨rfl, rfl, hother, rfl⟩))
      | seasonEnd leagueID' =>
        by_cases hid : leagueID' = leagueID
        · subst hid
          refine .inr (.inl ⟨rfl, by simp [Call.distributes], hcall rfl, ?_⟩)
          cases r with
          | error e => exact .inl (if_pos rfl)
          | ok resp => exact .inr ⟨key, recipients, amounts, resp, rfl, if_pos rfl⟩
        · exact .inr (.inr (.inr ⟨rfl, by simp [Call.distributes, hid], hother, if_neg hid⟩))
    | getReceipt resp =>
      refine .inr (.inr (.inr ⟨rfl, rfl, hother, ?_⟩))
      cases φ with
      | submitted resp' => exact absurd rfl (hother resp')
      | _ => rfl
    | _ => exact .inr (.inr (.inr ⟨rfl, rfl, hother, rfl⟩))

/-- What the calls of a thread say about its phase. -/
structure SeasonTrace (leagueID : String) (trace : List (Sigma Ret)) : Prop where
  /-- Every transaction was submitted with a claim of its own. -/
  sent_le : trace.countP (fun call => call.1.distributes leagueID) +
    (if (seasonProtocol leagueID).phase .idle trace = .claimed then 1 else 0) ≤
      trace.countP (winsClaim leagueID)
  submitted : ∀ resp, (seasonProtocol leagueID).phase .idle trace = .submitted resp →
    ∃ key recipients amounts earlier, trace =
      ⟨.contractExecute (.seasonEnd leagueID) key recipients amounts, .ok resp⟩ :: earlier
  paid : ∀ txHash, (seasonProtocol leagueID).phase .idle trace = .paid txHash →
    Distributed leagueID txHash trace
  failed : (seasonProtocol leagueID).phase .idle trace = .failed →
    0 < trace.countP fun call => call.1.distributes leagueID

/-- A transaction stays distributed. -/
theorem Distributed.mono {txHash : String} {trace trace' : List (Sigma Ret)}
    (h : Distributed leagueID txHash trace) (hsuffix : trace <:+ trace') :
    Distributed leagueID txHash trace' := by
  obtain ⟨key, recipients, amounts, resp, hresp, hinfix⟩ := h
  exact ⟨key, recipients, amounts, resp, hresp, hinfix.trans hsuffix.isInfix⟩

/-- The calls and the phase of a thread fit together after every allowed call. -/
theorem SeasonTrace.cons {trace : List (Sigma Ret)} {c : Call} (h : SeasonTrace leagueID trace)
    (hallows : (seasonProtocol leagueID).allows ((seasonProtocol leagueID).phase .idle trace) c)
    (r : Ret c) : SeasonTrace leagueID (⟨c, r⟩ :: trace) := by
  have hphase : (seasonProtocol leagueID).phase .idle (⟨c, r⟩ :: trace) =
      (seasonProtocol leagueID).next ((seasonProtocol leagueID).phase .idle trace) c r := rfl
  have hsent := h.sent_le
  rcases season_next_cases (r := r) hallows with ⟨hwins, hdistributes, hnext⟩ |
    ⟨hwins, hdistributes, hclaimed, hnext⟩ | ⟨hwins, hdistributes, resp, hresp, hnext⟩ |
    ⟨hwins, hdistributes, hother, hnext⟩
  · rw [hnext] at hphase
    constructor
    · have hle := (Nat.le_add_right _ _).trans hsent
      simpa [List.countP_cons, hwins, hdistributes, hphase] using hle
    all_goals simp [hphase]
  · rw [if_pos hclaimed] at hsent
    rcases hnext with hnext | ⟨key, recipients, amounts, resp, heq, hnext⟩
    · rw [hnext] at hphase
      constructor
      · simp only [List.countP_cons, hwins, hdistributes, hphase] at hsent ⊢
        simpa using hsent
      · simp [hphase]
      · simp [hphase]
      · simp [hdistributes]
    · rw [hnext] at hphase
      constructor
      · simp only [List.countP_cons, hwins, hdistributes, hphase] at hsent ⊢
        simpa using hsent
      · intro resp' hsub
        obtain rfl : resp = resp' := by simpa using hphase.symm.trans hsub
        exact ⟨key, recipients, amounts, trace, by rw [heq]⟩
      · simp [hphase]
      · simp [hphase]
  · obtain ⟨key, recipients, amounts, earlier, htrace⟩ := h.submitted resp hresp
    rcases hnext with hnext | ⟨heq, hnext⟩
    · rw [hnext] at hphase
      constructor
      · simpa [List.countP_cons, hwins, hdistributes, hphase, hresp] using hsent
      · simp [hphase]
      · simp [hphase]
      · simp [htrace, Call.distributes]
    · rw [hnext] at hphase
      constructor
      · simpa [List.countP_cons, hwins, hdistributes, hphase, hresp] using hsent
      · simp [hphase]
      · intro txHash hpaid
        obtain rfl : resp.transactionID = txHash := by simpa using hphase.symm.trans hpaid
        exact ⟨key, recipients, amounts, resp, rfl, [], earlier, by rw [heq, htrace]; rfl⟩
      · simp [hphase]
  · rw [hnext] at hphase
    constructor
    · simpa [List.countP_cons, hwins, hdistributes, hphase] using hsent
    · intro resp hsub
      exact absurd (hphase.symm.trans hsub) (hother resp)
    · intro txHash hpaid
      exact (h.paid txHash (hphase.symm.trans hpaid)).mono (List.suffix_cons _ _)
    · intro hfailed
      simpa [List.countP_cons, hdistributes] using h.failed (hphase.symm.trans hfailed)

/-- The calls and the phase of every thread fit together, at every moment. -/
theorem Runs.seasonTrace (h : Runs svc crypto ok a) (leagueID : String) {i : ℕ} {t : BackendThread}
    (ht : a.threads[i]? = some t) {trace : List (Sigma Ret)} (htrace : trace <:+ t.trace) :
    SeasonTrace leagueID trace := by
  refine trace_of_reaches (T := fun _ => SeasonTrace leagueID) h rfl
    (conforms_seasonProtocol leagueID) (fun _ => ?_)
    (fun _ _ _ r hallows htrace => htrace.cons hallows r) ht htrace
  constructor <;> simp [phase]

/-- A thread has called `distribute` at most as often as it has won a claim. -/
theorem Runs.distributeCalls_le (h : Runs svc crypto ok a) (leagueID : String) {i : ℕ}
    {t : BackendThread} (ht : a.threads[i]? = some t) :
    distributeCalls leagueID t ≤ claimsWon leagueID t := by
  have hsent := (h.seasonTrace leagueID ht List.suffix_rfl).sent_le
  have hnext : submitting leagueID t ≤
      if (seasonProtocol leagueID).phase .idle t.trace = .claimed then 1 else 0 := by
    unfold submitting
    split
    · rename_i c next hrest
      have hfollows := follows_of_reaches h (conforms_seasonProtocol leagueID)
        (by simp [initialConfig]) i t ht
      split
      · rename_i hdistributes
        have hclaimed : (seasonProtocol leagueID).phase .idle t.trace = .claimed :=
          claimed_of_distributes (hfollows.allows hrest) hdistributes
        rw [if_pos hclaimed]
      · exact Nat.zero_le _
    · exact Nat.zero_le _
  unfold distributeCalls submissionsSent claimsWon
  omega

end Wagr
