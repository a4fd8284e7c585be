import Wagr.Service.Steps

/-!
# The weekly events a run holds

A weekly run reads the unexecuted events of a league and then pays some of them with one
transaction. Between the read and the transaction it holds the events it has read. Nothing
in the run keeps another run from reading the same events.
-/

namespace Wagr

open Interaction Protocol System

/-- The call reads the events of a week. -/
def Call.readsEvents : Call → Prop
  | .query (.unexecutedEvents _ _) => True
  | _ => False

/-- The phase is the list of events held; a weekly transaction pays some of them and ends the
hold. -/
def heldProtocol : Protocol Call Ret (List String) where
  allows held
    | .contractExecute (.weekly _ eventIDs) _ _ _ => ∀ id ∈ eventIDs, id ∈ held
    | _ => True
  next held
    | .query (.unexecutedEvents _ _), .ok stream => stream.rows.map WeeklyEvent.id
    | .query (.unexecutedEvents _ _), .error _ => []
    | .contractExecute (.weekly _ _) _ _ _, _ => []
    | _, _ => held

/-- The events a thread has read last and not sent a transaction for. -/
abbrev heldEvents (t : BackendThread) : List String :=
  heldProtocol.phaseOf (fun _ : Request => []) t

/-- The calls that neither read nor pay weekly events. -/
def Call.leavesEvents : Call → Prop
  | .contractExecute (.weekly _ _) _ _ _ => False
  | .query (.unexecutedEvents _ _) => False
  | _ => True

/-- The thread is running, holds the event and may pay it before it reads events again. -/
def MayPay (eventID : String) (t : BackendThread) : Prop :=
  t.stopped = false ∧ eventID ∈ heldEvents t ∧
    ∃ leagueID eventIDs key recipients amounts, eventID ∈ eventIDs ∧
      t.rest.MayCallBefore Call.readsEvents
        (.contractExecute (.weekly leagueID eventIDs) key recipients amounts)

variable {svc : Service} {crypto : Crypto} {held : List String} {α : Type}

/-- Such a call is allowed and changes nothing. -/
theorem leavesEvents_allows {c : Call} (hc : c.leavesEvents) :
    heldProtocol.allows held c ∧ ∀ r, heldProtocol.next held c r = held := by
  cases c with
  | contractExecute purpose key recipients amounts =>
    cases purpose with
    | seasonEnd leagueID => exact ⟨trivial, fun _ => rfl⟩
    | weekly leagueID eventIDs => exact hc.elim
  | query q =>
    cases q with
    | unexecutedEvents leagueID week => exact hc.elim
    | _ => exact ⟨trivial, fun _ => rfl⟩
  | _ => exact ⟨trivial, fun _ => rfl⟩

/-- A program that makes only such calls conforms. -/
theorem conforms_of_leavesEvents {x : Job α} {Q : List String → α → Prop}
    (hx : Calls Call.leavesEvents x) (hQ : ∀ r, Q held r) : heldProtocol.Conforms held x Q :=
  (conforms_of_footprint hx fun _ hc => leavesEvents_allows hc).mono fun _ r hψ => hψ ▸ hQ r

/-- Such calls before a program that conforms. -/
theorem conforms_leavesEvents_bind {β : Type} {x : Go α} {f : α → Go β}
    (hx : Calls Call.leavesEvents x.run)
    (hf : ∀ a, heldProtocol.Conforms held (f a).run fun _ _ => True) :
    heldProtocol.Conforms held (x >>= f).run fun _ _ => True := by
  refine conforms_run_bind.mpr (conforms_of_leavesEvents hx fun r => ?_)
  cases r with
  | error e => trivial
  | ok a => exact hf a

/-- The resolved events are among the events. -/
theorem conforms_resolveEvents {events : List WeeklyEvent} :
    heldProtocol.Conforms held (resolveEvents events) fun ψ resolved =>
      ψ = held ∧ ∀ ev ∈ resolved, ev.1 ∈ events := by
  induction events with
  | nil => exact ⟨rfl, by simp⟩
  | cons ev events ih =>
    refine conforms_bind.mpr (conforms_of_leavesEvents
      (calls_getAccountEVMAddress trivial) fun addr => ?_)
    refine conforms_bind.mpr (ih.mono ?_)
    rintro ψ resolved ⟨rfl, hresolved⟩
    cases addr with
    | error e => exact ⟨rfl, fun ev' hev' => List.mem_cons_of_mem _ (hresolved ev' hev')⟩
    | ok addr =>
      refine ⟨rfl, fun ev' hev' => ?_⟩
      rcases List.mem_cons.mp hev' with rfl | hev'
      · exact List.mem_cons_self
      · exact List.mem_cons_of_mem _ (hresolved ev' hev')

/-- A transaction for held events is allowed. -/
theorem conforms_distributeWeekly {leagueID : String} {eventIDs : List String} {key : Bytes32}
    {recipients : List Address} {amounts : List Int64} (hheld : ∀ id ∈ eventIDs, id ∈ held) :
    heldProtocol.Conforms held
      (executeDistributePayout (.weekly leagueID eventIDs) key recipients amounts).run
      fun _ _ => True := by
  refine conforms_run_ite.mpr ⟨fun _ => trivial, fun _ => ?_⟩
  refine conforms_run_ite.mpr ⟨fun _ => trivial, fun _ => ?_⟩
  refine conforms_run_bind.mpr (conforms_wrapErr.mpr ⟨hheld, fun resp => ?_⟩)
  cases resp with
  | error e => trivial
  | ok resp =>
    refine conforms_leavesEvents_bind (.wrapErr (.mk (.perform trivial))) fun receipt => ?_
    cases receipt <;> trivial

/-- The held events are paid. -/
theorem conforms_payWeeklyEvents {league : OracleLeague} {events : List WeeklyEvent}
    (hheld : ∀ ev ∈ events, ev.id ∈ held) :
    heldProtocol.Conforms held (payWeeklyEvents svc league events).run fun _ _ => True := by
  refine conforms_leavesEvents_bind (.wrapErr trivial) fun key => ?_
  refine conforms_leavesEvents_bind (.wrapErr trivial) fun contractEVM => ?_
  refine conforms_run_bind.mpr (conforms_run_lift.mpr (conforms_resolveEvents.mono ?_))
  rintro ψ resolved ⟨rfl, hresolved⟩
  refine conforms_run_ite.mpr ⟨fun _ => trivial, fun _ => ?_⟩
  refine conforms_leavesEvents_bind (.wrapErr (calls_readContractPayment trivial)) fun balance => ?_
  refine conforms_run_ite.mpr ⟨fun _ => trivial, fun _ => ?_⟩
  refine conforms_run_bind.mpr (conforms_wrapErr.mpr ((conforms_distributeWeekly ?_).mono ?_))
  · intro id hid
    obtain ⟨ev, hev, rfl⟩ := List.mem_map.mp hid
    exact hheld ev.1 (hresolved ev hev)
  · intro ψ txHash _
    cases txHash with
    | error e => trivial
    | ok txHash =>
      refine conforms_of_leavesEvents (.lift (.forM fun id => ?_)) fun _ => trivial
      exact .bind (.exec trivial) fun _ => trivial

/-- The weekly payout of a league reads its events before it pays them. -/
theorem conforms_weeklyRound {league : OracleLeague} :
    heldProtocol.Conforms held (weeklyRound svc league) fun _ _ => True := by
  refine conforms_ite.mpr ⟨fun _ => trivial, fun _ => ?_⟩
  refine conforms_bind.mpr (conforms_of_leavesEvents (.perform trivial) fun week => ?_)
  cases week with
  | error e => trivial
  | ok week =>
    refine conforms_ite.mpr ⟨fun _ => trivial, fun _ => conforms_bind.mpr ?_⟩
    refine Conforms.mono (Q := fun _ _ => True) ?_ fun _ _ _ => trivial
    refine conforms_leavesEvents_bind (.wrapErr (.mk (.perform trivial))) fun matchups => ?_
    refine conforms_leavesEvents_bind (.wrapErr (calls_getLeagueMembers trivial)) fun members => ?_
    refine conforms_leavesEvents_bind (.run_forM fun entry => .run_forM fun m =>
      calls_recordWeeklyEvent fun _ _ _ _ _ _ _ => trivial) fun _ => ?_
    refine conforms_run_bind.mpr (conforms_wrapErr.mpr (conforms_query.mpr
      ⟨trivial, fun stream => ?_, fun _ => trivial⟩))
    refine conforms_run_ite.mpr ⟨fun _ => trivial, fun _ => ?_⟩
    exact conforms_payWeeklyEvents fun ev hev => List.mem_map_of_mem hev

/-- Requests other than the weekly job leave the weekly events alone. -/
theorem Request.mayCall.leavesEvents {req : Request} {c : Call} (h : req.mayCall c)
    (hreq : req ≠ .runWeeklyPayoutJob) : c.leavesEvents := by
  cases c with
  | contractExecute purpose key recipients amounts =>
    cases purpose with
    | seasonEnd leagueID => trivial
    | weekly leagueID eventIDs => exact absurd h hreq
  | query q =>
    cases q with
    | unexecutedEvents leagueID week =>
      cases req with
      | runWeeklyPayoutJob => exact absurd rfl hreq
      | _ => exact h.elim
    | _ => trivial
  | _ => trivial

/-- Every request pays only weekly events it holds. -/
theorem conforms_heldProtocol (req : Request) :
    heldProtocol.Conforms [] ((backend svc crypto).body req) fun _ _ => True := by
  by_cases hreq : req = .runWeeklyPayoutJob
  · subst hreq
    refine conforms_toDone (conforms_run_ite.mpr ⟨fun _ => ?_, fun _ => trivial⟩)
    refine conforms_leavesEvents_bind (.wrapErr (.query trivial)) fun stream => ?_
    exact conforms_run_lift.mpr (conforms_forM (I := fun _ => True)
      (fun _ _ _ _ => conforms_weeklyRound) trivial)
  · exact conforms_of_leavesEvents ((calls_request req).weaken fun c hc => hc.leavesEvents hreq)
      fun _ => trivial

end Wagr
