import Wagr.Service.Reads

/-!
# The confirm loops of the page

`LeagueOverview.tsx` confirms a payment or a refund by asking the server up to eight times
until the answer is not 402. What the page concludes depends only on the answer to the last
attempt. The handlers choose these answers from the errors of the service.
-/

namespace Wagr

open Interaction

/-- What a `fetch` yields: a response, or the message it is rejected with. -/
abbrev Fetch := Except String HTTPResponse

/-- What a loop throws: a text of the page, or the text of a response. -/
inductive PageError
  | text (message : String)
  | body (body : ResponseBody)

/-- `Response.ok`. -/
def HTTPResponse.ok (res : HTTPResponse) : Bool := 200 ≤ res.status && res.status ≤ 299

/-- `MAX_ATTEMPTS`. -/
def maxAttempts : ℕ := 8

/-- The `for` loop of the confirmations: the response it ends with, if there was any attempt. -/
def fetchWithRetry (fetch : ℕ → Fetch) (res : Option HTTPResponse) (attempt : ℕ) :
    (remaining : ℕ) → Except PageError (Option HTTPResponse)
  | 0 => .ok res
  | remaining + 1 =>
    match fetch attempt with
    | .error message => .error (.text message)
    | .ok res =>
      if res.status ≠ 402 then .ok (some res)
      else fetchWithRetry fetch (some res) (attempt + 1) remaining

/-- A confirmation: what the page throws if the chain does not show it, and in front of the status
of a failure without a text. -/
def confirmWithRetry (notFound failed : String) (fetch : ℕ → Fetch) : Except PageError Unit := do
  match ← fetchWithRetry fetch none 1 maxAttempts with
  | none => throw (.text "Confirmation failed")
  | some res =>
    if res.status = 402 then throw (.text notFound)
    else if res.status = 409 then return ()
    else if res.ok then return ()
    else
      match res.body with
      | .message "" => throw (.text (failed ++ " (" ++ toString res.status ++ ")"))
      | body => throw (.body body)

/-- `confirmPaymentWithRetry`. -/
def confirmPaymentWithRetry : (ℕ → Fetch) → Except PageError Unit :=
  confirmWithRetry ("On-chain payment not found — it may still be propagating. " ++
    "Use \"Confirm Existing Payment\" to retry.") "Confirmation failed"

/-- `confirmRefundWithRetry`. -/
def confirmRefundWithRetry : (ℕ → Fetch) → Except PageError Unit :=
  confirmWithRetry ("On-chain refund not confirmed — it may still be propagating. " ++
    "Use \"Confirm Existing Refund\" to retry.") "Refund confirmation failed"

/-- The last attempt: the first one that is not answered with 402, or else the eighth. -/
def lastAttempt (fetch : ℕ → Fetch) : ℕ :=
  ((List.range' 1 (maxAttempts - 1)).find? fun n =>
    match fetch n with
    | .ok res => res.status ≠ 402
    | .error _ => true).getD maxAttempts

/-- The answer of an attempt is taken for a success. -/
def Accepted (x : Fetch) : Prop := ∃ res, x = .ok res ∧ (res.status = 409 ∨ res.ok = true)

/-- The loop ends with the answer to its last attempt. -/
theorem fetchWithRetry_eq (fetch : ℕ → Fetch) (res : Option HTTPResponse) (attempt remaining : ℕ) :
    fetchWithRetry fetch res attempt (remaining + 1) =
      match fetch (((List.range' attempt remaining).find? fun n =>
        match fetch n with
        | .ok res => res.status ≠ 402
        | .error _ => true).getD (attempt + remaining)) with
      | .ok res => .ok (some res)
      | .error message => .error (.text message) := by
  induction remaining generalizing attempt res with
  | zero =>
    simp only [fetchWithRetry, List.range'_zero, List.find?_nil, Option.getD_none, Nat.add_zero]
    cases fetch attempt with
    | error message => rfl
    | ok res => simp
  | succ remaining ih =>
    rw [fetchWithRetry, List.range'_succ, List.find?_cons]
    cases hfetch : fetch attempt with
    | error message => simp [hfetch]
    | ok res =>
      by_cases hstatus : res.status = 402
      · have hnext := ih (some res) (attempt + 1)
        simp only [hstatus, ne_eq, not_true_eq_false, decide_false, if_false]
        rw [hnext, show attempt + 1 + remaining = attempt + (remaining + 1) by omega]
      · simp [hstatus, hfetch]

/-- A loop returns normally exactly if the answer to its last attempt is taken for a success. -/
theorem confirmWithRetry_iff {notFound failed : String} {fetch : ℕ → Fetch} :
    confirmWithRetry notFound failed fetch = .ok () ↔ Accepted (fetch (lastAttempt fetch)) := by
  have hlast : fetchWithRetry fetch none 1 maxAttempts =
      match fetch (lastAttempt fetch) with
      | .ok res => .ok (some res)
      | .error message => .error (.text message) := fetchWithRetry_eq fetch none 1 7
  rw [confirmWithRetry, hlast]
  cases fetch (lastAttempt fetch) with
  | error message => simp [Accepted, bind, Except.bind]
  | ok res =>
    have hiff : Accepted (.ok res) ↔ res.status = 409 ∨ res.ok = true := by
      constructor
      · rintro ⟨res', heq, h⟩
        obtain rfl := Except.ok.inj heq
        exact h
      · exact fun h => ⟨res, rfl, h⟩
    rw [hiff]
    change (if res.status = 402 then _ else _) = _ ↔ _
    by_cases hpending : res.status = 402
    · rw [if_pos hpending]
      simp [HTTPResponse.ok, hpending, throw, throwThe, MonadExceptOf.throw]
    by_cases hconflict : res.status = 409
    · rw [if_neg hpending, if_pos hconflict]
      simp [hconflict, pure, Except.pure]
    rw [if_neg hpending, if_neg hconflict]
    cases hok : res.ok with
    | true => simp [pure, Except.pure]
    | false =>
      simp only [Bool.false_eq_true, if_false, hconflict, or_self, iff_false]
      split <;> simp [throw, throwThe, MonadExceptOf.throw]

namespace Handler

/-- The response of a handler that confirms something: the conflict has its own sentinel. -/
def confirmResponse {α : Type} (conflict : GoError) (conflictText insufficientText : String) :
    Except GoError α → HTTPResponse
  | .ok _ => ⟨204, .message ""⟩
  | .error err =>
    if err.is .notLeagueMember then ⟨404, .message "not a member of this league"⟩
    else if err.is conflict then ⟨409, .message conflictText⟩
    else if err.is .paymentInsufficient then ⟨402, .message insufficientText⟩
    else ⟨500, .error err⟩

/-- `Handler.ConfirmPayment` after the service. -/
def confirmPayment {α : Type} : Except GoError α → HTTPResponse :=
  confirmResponse .alreadyPaid "already paid" "on-chain payment not found or insufficient"

/-- `Handler.ConfirmRefund` after the service. -/
def confirmRefund {α : Type} : Except GoError α → HTTPResponse :=
  confirmResponse .leagueNotCancelled "league is not cancelled"
    "on-chain refund not confirmed -- it may still be propagating"

end Handler

/-- A response of such a handler is taken for a success if the service has returned no error, or
the conflict. -/
theorem accepted_confirmResponse {α : Type} {conflict : GoError} {texts texts' : String}
    {r : Except GoError α} : Accepted (.ok (Handler.confirmResponse conflict texts texts' r)) ↔
      ∀ err, r = .error err → err.is .notLeagueMember = false ∧ err.is conflict = true := by
  cases r with
  | ok a => simp [Accepted, Handler.confirmResponse, HTTPResponse.ok]
  | error err =>
    simp only [Accepted, Handler.confirmResponse, Except.ok.injEq, exists_eq_left',
      Except.error.injEq,
      forall_eq']
    split
    · rename_i h
      simp [HTTPResponse.ok, h]
    · rename_i h
      split
      · rename_i h'
        simp [h, h']
      · rename_i h'
        split <;> simp [HTTPResponse.ok, h']

end Wagr
