import Wagr.Service.Rows

/-!
# The two statements of a reactivation

A reactivation first makes the league active and then resets its refunded memberships. Between
the two a request can fail; then nothing resets them.
-/

namespace Wagr

open Interaction Protocol System

/-- How far a reactivation is. -/
inductive ResetPhase
  | waiting
  /-- The league is active again, and the reset comes next. -/
  | due
  | finished
  deriving DecidableEq

/-- A request and how far it is. -/
structure ResetState where
  req : Request
  phase : ResetPhase := .waiting

/-- The calls a reset state allows. -/
def ResetState.allows (st : ResetState) (c : Call) : Prop :=
  match st.phase with
  | .waiting => (∀ leagueID, c ≠ .exec (.resetRefunded leagueID)) ∧
      ∀ leagueID, c = .exec (.reactivateLeague leagueID) →
        ∃ userID, st.req = .reactivateLeague leagueID userID
  | .due => ∃ leagueID userID, st.req = .reactivateLeague leagueID userID ∧
      c = .exec (.resetRefunded leagueID)
  | .finished => False

/-- The reset state after an answered call. -/
def ResetState.next (st : ResetState) : (c : Call) → Ret c → ResetState
  | .exec (.reactivateLeague _), .ok rowsAffected =>
    if rowsAffected = (0 : ℕ) then st else { st with phase := .due }
  | .exec (.resetRefunded _), _ => { st with phase := .finished }
  | _, _ => st

/-- The protocol of the reactivations. -/
def resetProtocol : Protocol Call Ret ResetState := ⟨ResetState.allows, ResetState.next⟩

/-- The reset state of a thread. -/
abbrev resetState (t : BackendThread) : ResetState :=
  resetProtocol.phaseOf (fun req : Request => { req := req }) t

variable {svc : Service} {crypto : Crypto} {a b : BackendConfig} {l : BackendLabel}
  {ok : BackendConfig → BackendLabel → Prop}

/-- A reactivation resets the refunded memberships after it has activated the league, or fails
before. -/
theorem conforms_reactivateLeague {leagueID userID : String} :
    resetProtocol.Conforms { req := .reactivateLeague leagueID userID }
      (reactivateLeague leagueID userID).run fun st _ => st.phase ≠ .due := by
  have hwaiting : ∀ c : Call, (∀ leagueID, c ≠ .exec (.resetRefunded leagueID)) →
      (∀ leagueID, c ≠ .exec (.reactivateLeague leagueID)) →
        resetProtocol.allows { req := .reactivateLeague leagueID userID } c :=
    fun c hreset hreactivate => ⟨hreset, fun leagueID' h => absurd h (hreactivate leagueID')⟩
  have hcommissioner : resetProtocol.Conforms { req := .reactivateLeague leagueID userID }
      (requireCommissioner leagueID userID).run
        fun st _ => st = { req := .reactivateLeague leagueID userID } := by
    refine conforms_run_bind.mpr (conforms_run_lift.mpr (conforms_query.mpr
      ⟨hwaiting _ (by simp) (by simp), fun commissioner => ?_, fun _ => rfl⟩))
    rcases commissioner with _ | _ | _ <;> rfl
  refine conforms_run_bind.mpr (hcommissioner.mono fun st commissioner hst => ?_)
  subst hst
  cases commissioner with
  | error e => simp
  | ok _ =>
    refine conforms_run_bind.mpr (conforms_wrapErr.mpr (conforms_exec.mpr
      ⟨⟨by simp, fun leagueID' h => ?_⟩, fun rowsAffected => ?_, fun _ => by simp [resetProtocol,
        ResetState.next]⟩))
    · cases h
      exact ⟨userID, rfl⟩
    · refine conforms_run_ite.mpr ⟨fun hzero => ?_, fun hrows => ?_⟩
      · simp [resetProtocol, ResetState.next, hzero]
      · refine conforms_run_bind.mpr (conforms_wrapErr.mpr (conforms_exec.mpr
          ⟨?_, fun _ => by simp [resetProtocol, ResetState.next],
            fun _ => by simp [resetProtocol, ResetState.next]⟩))
        have hdue : resetProtocol.next { req := .reactivateLeague leagueID userID }
            (.exec (.reactivateLeague leagueID)) (.ok rowsAffected) =
              ⟨.reactivateLeague leagueID userID, .due⟩ := if_neg hrows
        rw [hdue]
        exact ⟨leagueID, userID, rfl, rfl⟩

/-- Every request ends before the first or after the second statement of a reactivation. -/
theorem conforms_resetProtocol (req : Request) :
    resetProtocol.Conforms { req := req } ((backend svc crypto).body req)
      fun st _ => st.phase ≠ .due := by
  by_cases hreq : ∃ leagueID userID, req = .reactivateLeague leagueID userID
  · obtain ⟨leagueID, userID, rfl⟩ := hreq
    refine conforms_run_bind.mpr (conforms_reactivateLeague.mono fun st r hst => ?_)
    cases r <;> exact hst
  · simp only [not_exists] at hreq
    refine (conforms_of_footprint (calls_request req) fun c hc => ?_).mono fun st _ hst => ?_
    · have hother : (∀ leagueID, c ≠ .exec (.resetRefunded leagueID)) ∧
          ∀ leagueID, c ≠ .exec (.reactivateLeague leagueID) := by
        constructor <;> rintro leagueID rfl <;> cases req with
          | reactivateLeague => exact absurd rfl (hreq _ _)
          | _ => exact hc.elim
      refine ⟨⟨hother.1, fun leagueID h => absurd h (hother.2 leagueID)⟩, fun r => ?_⟩
      cases c with
      | exec s =>
        cases s with
        | reactivateLeague leagueID => exact absurd rfl (hother.2 leagueID)
        | resetRefunded leagueID => exact absurd rfl (hother.1 leagueID)
        | _ => rfl
      | _ => rfl
    · rw [hst]
      simp

/-- The request is never forgotten. -/
theorem reset_req (req : Request) (trace : List (Sigma Ret)) :
    (resetProtocol.phase { req := req } trace).req = req := by
  induction trace with
  | nil => rfl
  | cons call trace ih =>
    obtain ⟨c, r⟩ := call
    change (ResetState.next _ c r).req = req
    unfold ResetState.next
    split
    · split <;> exact ih
    · exact ih
    · exact ih

/-- The league a request reactivates. -/
def Request.reactivates : Request → Option String
  | .reactivateLeague leagueID _ => some leagueID
  | _ => none

/-- A running request of the league is between the two statements. -/
structure Resetting (leagueID : String) (t : BackendThread) : Prop where
  running : t.stopped = false
  league : t.job.reactivates = some leagueID
  due : (resetState t).phase = .due

instance (leagueID : String) (t : BackendThread) : Decidable (Resetting leagueID t) :=
  decidable_of_iff (_ ∧ _ ∧ _) ⟨fun h => ⟨h.1, h.2.1, h.2.2⟩, fun h => ⟨h.running, h.league, h.due⟩⟩

/-- A thread between the two statements makes the second one next. -/
theorem Runs.reset_next (h : Runs svc crypto ok a) {i : ℕ} {t : BackendThread}
    (ht : a.threads[i]? = some t) (hdue : (resetState t).phase = .due) :
    ∃ leagueID userID next, t.job = .reactivateLeague leagueID userID ∧
      t.rest = .call (.exec (.resetRefunded leagueID)) next := by
  have hfollows := follows_of_reaches h conforms_resetProtocol (by simp [initialConfig]) i t ht
  cases hrest : t.rest with
  | done x => exact absurd hdue (hfollows.result hrest)
  | call c next =>
    have hallows : ResetState.allows (resetState t) c := hfollows.allows hrest
    unfold ResetState.allows at hallows
    rw [hdue] at hallows
    obtain ⟨leagueID, userID, hreq, rfl⟩ := hallows
    exact ⟨leagueID, userID, next, (reset_req t.job t.trace).symm.trans hreq, rfl⟩

/-- A thread between the two statements stays there, stops, or makes the second one. -/
theorem Resetting.step {leagueID : String} {i : ℕ} {t : BackendThread} (h : Resetting leagueID t)
    (hrun : Runs svc crypto ok a) (ht : a.threads[i]? = some t)
    (hstep : (backend svc crypto).Step a l b) : b.threads[i]? = some t ∨ l = .stop i ∨
      ∃ r, l = .call i (.exec (.resetRefunded leagueID)) r := by
  cases hstep with
  | spawn j =>
    have hlt : i < a.threads.length := (List.getElem?_eq_some_iff.mp ht).1
    exact .inl (by rwa [List.getElem?_append_left hlt])
  | @call k u c next r w hu hrest _ hw =>
    by_cases hki : k = i
    · subst hki
      obtain rfl := Option.some.inj (ht.symm.trans hu)
      obtain ⟨leagueID', userID, next', hjob, hrest'⟩ := hrun.reset_next ht h.due
      have hleague := h.league
      rw [hjob] at hleague
      obtain rfl : leagueID' = leagueID := Option.some.inj hleague
      cases hrest.symm.trans hrest'
      exact .inr (.inr ⟨r, rfl⟩)
    · exact .inl (by rwa [List.getElem?_set_ne hki])
  | @stop k u hu =>
    by_cases hki : k = i
    · exact .inr (.inl (hki ▸ rfl))
    · exact .inl (by rwa [List.getElem?_set_ne hki])
  | env hw => exact .inl ht

/-- After an activating statement its request is between the two statements. -/
theorem resetting_of_reactivate (hrun : Runs svc crypto ok a) {i : ℕ} {leagueID : String}
    {r : (Statement.reactivateLeague leagueID).Result}
    (hstep : (backend svc crypto).Step a (.call i (.exec (.reactivateLeague leagueID)) (.ok r)) b)
    (hrows : r ≠ (0 : ℕ)) : ∃ t ∈ b.threads, Resetting leagueID t := by
  cases hstep with
  | @call k t c next r w ht hrest hrunning hw =>
    have hfollows := follows_of_reaches hrun conforms_resetProtocol (by simp [initialConfig]) i t ht
    have hallows : ResetState.allows (resetState t) _ := hfollows.allows hrest
    have hlt : i < a.threads.length := (List.getElem?_eq_some_iff.mp ht).1
    refine ⟨_, List.mem_of_getElem? (List.getElem?_set_self hlt), hrunning, ?_, ?_⟩
    · unfold ResetState.allows at hallows
      split at hallows
      · obtain ⟨userID, hreq⟩ := hallows.2 leagueID rfl
        have hjob : t.job = _ := (reset_req t.job t.trace).symm.trans hreq
        change t.job.reactivates = _
        rw [hjob]
        rfl
      · obtain ⟨leagueID', userID, -, hcall⟩ := hallows
        cases hcall
      · exact hallows.elim
    · change (ResetState.next (resetState t) (.exec (.reactivateLeague leagueID)) (.ok r)).phase = _
      simp [ResetState.next, hrows]

/-- After the second statement, whatever its answer, the request is past it. -/
theorem not_due_of_reset {t : BackendThread} {leagueID : String}
    {r : Ret (.exec (.resetRefunded leagueID))} {next : _ → Job (Except GoError Response)} :
    (resetState (t.answer (.exec (.resetRefunded leagueID)) r next)).phase ≠ .due := by
  change (ResetState.next (resetState t) (.exec (.resetRefunded leagueID)) r).phase ≠ .due
  simp [ResetState.next]

end Wagr
