import Wagr.Library.Course
import Wagr.Library.History
import Wagr.Service.Scenario
import Wagr.Service.Steps

/-!
# Refused requests

A request that the services refuse has changed nothing: it has only read, or its statement has
matched no row. This does not depend on the order of the checks in a request, and it holds while
other requests change the same rows.
-/

namespace Wagr

open Interaction Protocol System Relational

/-- The errors with which the services refuse a request. -/
def refusals : List GoError :=
  [.notCommissioner, .notLeagueMember, .alreadyPaid, .paymentInsufficient, .leagueAlreadyCancelled,
    .leagueNotCancelled, .userNotFound, .invalidSignature,
    .text "league not found or user is not a member" []]

/-- The error is a refusal. -/
def GoError.Refuses (err : GoError) : Prop := ∃ e ∈ refusals, err.is e = true

/-- The error with which a call was answered. -/
def Call.error : (c : Call) → Ret c → Option GoError
  | .exec _, .error err => some err
  | .query _, .error err => some err
  | .platformUser _ _, .error err => some err
  | .platformLeague _ _, .error err => some err
  | .platformMembers _ _, .error err => some err
  | .platformRosters _ _, .error err => some err
  | .platformMatchups _ _ _, .error err => some err
  | .finalStandings _ _, .error err => some err
  | .currentWeek _, .error err => some err
  | .currentSeason _, .error err => some err
  | .mirrorKey _, .error err => some err
  | .contractCall _ _, .error err => some err
  | .contractExecute _ _ _ _, .error err => some err
  | .getReceipt _, .error err => some err
  | .generateNonce, .error err => some err
  | _, _ => none

/-- What the database, the network and the platforms report is not one of the services' refusals. -/
def OutsideError (call : Sigma Ret) : Prop := ∀ err ∈ call.1.error call.2, ¬ err.Refuses

/-- A wrapped refusal is a refusal, and nothing else is wrapped to one. -/
theorem GoError.refuses_wrap {message : String} {err : GoError} :
    (GoError.wrap message err).Refuses ↔ err.Refuses := by
  simp [Refuses, refusals, GoError.is]

/-! ## Calls that change nothing -/

/-- The answered call has changed neither a table nor what is in flight, nor submitted anything. -/
def Untouched (call : Sigma Ret) : Prop :=
  ∀ w w' : World, w.handles call.1 call.2 w' → w'.db = w.db ∧ w'.inFlight = w.inFlight ∧
    w'.submissions = w.submissions

/-- The calls that only read. -/
def Call.reads : Call → Prop
  | .exec _ => False
  | .contractExecute _ _ _ _ => False
  | _ => True

/-- A call that only reads changes nothing. -/
theorem untouched_of_reads {c : Call} (hc : c.reads) (r : Ret c) : Untouched ⟨c, r⟩ := by
  intro w w' h
  cases c with
  | exec | contractExecute => exact hc.elim
  | query | getReceipt =>
    obtain ⟨rfl, -⟩ := h
    exact ⟨rfl, rfl, rfl⟩
  | generateNonce =>
    cases r with
    | ok nonce =>
      obtain ⟨-, rfl⟩ := h
      exact ⟨rfl, rfl, rfl⟩
    | error err =>
      obtain rfl : w' = w := h
      exact ⟨rfl, rfl, rfl⟩
  | _ =>
    obtain rfl : w' = w := h
    exact ⟨rfl, rfl, rfl⟩

/-- A statement that leaves the database as it is when it gives this result. -/
theorem untouched_of_run {s : Statement} {r : s.Result}
    (h : ∀ now fresh db db', s.run now fresh db = some (r, db') → db' = db) :
    Untouched ⟨.exec s, .ok r⟩ := by
  rintro w w' ⟨now, fresh, db, -, hrun, rfl⟩
  exact ⟨h now fresh w.db db hrun, rfl, rfl⟩

/-- An update of league rows that matches none. -/
theorem updateLeagues_of_none {db db' : Database} {p : LeagueRow → Bool} {f : LeagueRow → LeagueRow}
    {hf : ∀ r, (f r).id = r.id} (h : db.updateLeagues p f hf = (0, db')) : db' = db := by
  obtain ⟨hcount, rfl⟩ := Prod.mk.inj h
  rw [Table.updateWhere_of_count hcount]

/-- An update of memberships that matches none. -/
theorem updateMembers_of_none {db db' : Database} {p : MemberRow → Bool} {f : MemberRow → MemberRow}
    {hf : ∀ r, (f r).key = r.key} (h : db.updateMembers p f hf = (0, db')) : db' = db := by
  obtain ⟨hcount, rfl⟩ := Prod.mk.inj h
  rw [Table.updateWhere_of_count hcount]

/-! ## Programs -/

/-- Nothing that was called has changed anything. -/
def Clean (trace : List (Sigma Ret)) : Prop := ∀ call ∈ trace, Untouched call

/-- The program has changed nothing, or it has not refused the request. -/
def Decent {α : Type} (φ : Request × List (Sigma Ret)) (r : Except GoError α) : Prop :=
  Clean φ.2 ∨ ((∀ call ∈ φ.2, OutsideError call) → ∀ err, r = .error err → ¬ err.Refuses)

/-- The protocol that only records what was called. -/
abbrev watched : Protocol Call Ret (Request × List (Sigma Ret)) := history fun _ _ _ => True

section Programs

variable {α β : Type} {j : Request} {trace : List (Sigma Ret)} {message : String} {s : Statement}

/-- Another call that changes nothing. -/
theorem Clean.cons {call : Sigma Ret} (h : Clean trace) (hcall : Untouched call) :
    Clean (call :: trace) :=
  List.forall_mem_cons.mpr ⟨hcall, h⟩

/-- Every program is recorded. -/
theorem conforms_watched (x : Job α) {φ : Request × List (Sigma Ret)} :
    watched.Conforms φ x fun _ _ => True := by
  induction x generalizing φ with
  | done a => trivial
  | call c next ih => exact ⟨trivial, fun r => ih r⟩

/-- A program that only reads changes nothing. -/
theorem conforms_reads {x : Job α} (hx : Calls Call.reads x) (h : Clean trace) :
    watched.Conforms (j, trace) x fun φ _ => φ.1 = j ∧ Clean φ.2 := by
  induction x generalizing trace with
  | done a => exact ⟨rfl, h⟩
  | call c next ih =>
    exact ⟨trivial, fun r => ih r (hx.2 r) (h.cons (untouched_of_reads hx.1 r))⟩

/-- A program that first reads. -/
theorem conforms_reads_bind {x : Go α} {f : α → Go β} (hx : Calls Call.reads x.run)
    (h : Clean trace)
    (hf : ∀ a later, Clean later → watched.Conforms (j, later) (f a).run Decent) :
    watched.Conforms (j, trace) (x >>= f).run Decent := by
  refine conforms_run_bind.mpr ((conforms_reads hx h).mono ?_)
  rintro ⟨job, later⟩ r ⟨rfl, hlater⟩
  cases r with
  | error err => exact .inl hlater
  | ok a => exact hf a later hlater

/-- A program that refuses at once, or returns at once, after it has changed nothing. -/
theorem decent_of_clean {r : Except GoError α} (h : Clean trace) : Decent (j, trace) r := .inl h

/-- A program that returns something has not refused. -/
theorem decent_ok {φ : Request × List (Sigma Ret)} {a : α} : Decent φ (.ok a) := .inr nofun

/-- The error of a call does not refuse the request. -/
theorem decent_of_error {c : Call} {r : Ret c} {err : GoError} (herr : c.error r = some err) :
    Decent (j, ⟨c, r⟩ :: trace) (.error (.wrap message err) : Except GoError α) := by
  refine .inr fun houtside err' heq => ?_
  obtain rfl := Except.error.inj heq
  rw [GoError.refuses_wrap]
  exact houtside _ List.mem_cons_self err herr

/-- A program that executes a statement; only what follows its success is left to check. -/
theorem conforms_exec_bind {f : s.Result → Go β}
    (hf : ∀ r, watched.Conforms (j, ⟨.exec s, .ok r⟩ :: trace) (f r).run Decent) :
    watched.Conforms (j, trace) (wrapErr message (exec s) >>= f).run Decent := by
  refine conforms_run_bind.mpr (conforms_wrapErr.mpr (conforms_exec.mpr ⟨trivial, hf, fun e => ?_⟩))
  exact decent_of_error rfl

/-- What is returned does not matter. -/
theorem decent_bind {x : Go α} {f : α → Response} (hx : watched.Conforms (j, trace) x.run Decent) :
    watched.Conforms (j, trace) (x >>= fun a => pure (f a) : Go Response).run Decent := by
  refine conforms_run_bind.mpr (hx.mono fun φ r hr => ?_)
  cases r with
  | ok a => exact decent_ok
  | error err =>
    refine hr.imp id fun hrefuses houtside err' heq => ?_
    obtain rfl := Except.error.inj heq
    exact hrefuses houtside _ rfl

end Programs

/-! ## Requests -/

/-- The jobs of the oracle, which nobody has requested. -/
def Request.isJob : Request → Bool
  | .runWeeklyPayoutJob => true
  | .runSeasonEndPayoutJob => true
  | .refreshLeagueStatuses => true
  | _ => false

section Requests

variable {svc : Service} {crypto : Crypto} {j : Request} {leagueID userID transactionID : String}

/-- Nothing was called yet. -/
theorem clean_nil : Clean [] := by simp [Clean]

/-- `ConfirmPayment` refuses before its statement. -/
theorem decent_confirmPayment : watched.Conforms (j, [])
    (confirmPayment svc leagueID userID transactionID).run Decent := by
  refine conforms_reads_bind (.wrapErr (.query trivial)) clean_nil fun info trace hclean => ?_
  cases info with
  | none => exact decent_of_clean hclean
  | some info =>
    refine conforms_run_ite.mpr ⟨fun _ => decent_of_clean hclean, fun _ => ?_⟩
    refine conforms_reads_bind (.wrapErr (calls_getAccountEVMAddress trivial)) hclean
      fun evmAddr looked hlooked => ?_
    refine conforms_reads_bind (calls_readMemberPayment fun _ _ => trivial) hlooked
      fun paid verified hverified => ?_
    refine conforms_run_ite.mpr ⟨fun _ => decent_of_clean hverified, fun _ => ?_⟩
    exact conforms_exec_bind fun _ => decent_ok

/-- `ConfirmRefund` refuses before its statement. -/
theorem decent_confirmRefund : watched.Conforms (j, [])
    (confirmRefund svc leagueID userID transactionID).run Decent := by
  refine conforms_reads_bind (.wrapErr (.query trivial)) clean_nil fun info trace hclean => ?_
  cases info with
  | none => exact decent_of_clean hclean
  | some info =>
    refine conforms_run_ite.mpr ⟨fun _ => decent_of_clean hclean, fun _ =>
      conforms_run_ite.mpr ⟨fun _ => decent_of_clean hclean, fun _ => ?_⟩⟩
    refine conforms_reads_bind (.wrapErr (calls_getAccountEVMAddress trivial)) hclean
      fun evmAddr looked hlooked => ?_
    refine conforms_reads_bind (calls_readMemberPayment fun _ _ => trivial) hlooked
      fun paid verified hverified => ?_
    refine conforms_run_ite.mpr ⟨fun _ => decent_of_clean hverified, fun _ => ?_⟩
    exact conforms_exec_bind fun _ => decent_ok

/-- `VerifySignature` refuses before its statement. -/
theorem decent_verifySignature {req : VerifyRequest} : watched.Conforms (j, [])
    (verifySignature crypto req).run Decent := by
  refine conforms_reads_bind (.lift (.query trivial)) clean_nil fun user trace hclean => ?_
  match user with
  | .error _ => exact decent_of_clean hclean
  | .ok none => exact decent_of_clean hclean
  | .ok (some user) =>
    refine conforms_reads_bind (.lift (.run_bind (.wrapErr (.run_bind (.mk (.perform trivial))
      fun key => .run_ite (fun _ => trivial) fun _ => trivial)) fun keyInfo => trivial)) hclean
      fun valid checked hchecked => ?_
    refine conforms_reads_bind trivial hchecked fun _ checked hchecked => ?_
    refine conforms_reads_bind (.wrapErr (.mk (.perform trivial))) hchecked
      fun newNonce drawn hdrawn => ?_
    exact conforms_exec_bind fun _ => decent_ok

/-- `DeleteLeague` refuses if it has deleted no membership. -/
theorem decent_deleteLeague : watched.Conforms (j, [])
    (deleteLeague leagueID userID).run Decent := by
  refine conforms_exec_bind fun n => conforms_run_ite.mpr ⟨fun hn => ?_, fun _ => ?_⟩
  · have huntouched : Untouched ⟨.exec (.deleteMembership leagueID userID), .ok n⟩ := by
      refine untouched_of_run fun now fresh db db' hrun => ?_
      obtain ⟨hcount, rfl⟩ := Prod.mk.inj (Option.some.inj hrun)
      rw [Table.deleteWhere_of_count (hcount.trans hn)]
    exact decent_of_clean (clean_nil.cons huntouched)
  · refine conforms_run_bind.mpr (conforms_wrapErr.mpr (conforms_query.mpr
      ⟨trivial, fun remaining => ?_, fun e => decent_of_error rfl⟩))
    refine conforms_run_ite.mpr ⟨fun _ => ?_, fun _ => decent_ok⟩
    exact conforms_exec_bind fun _ => decent_ok

/-- `GetLeagueSettings` refuses nothing. -/
theorem decent_getLeagueSettings {trace : List (Sigma Ret)} : watched.Conforms (j, trace)
    (getLeagueSettings leagueID userID).run Decent := by
  refine conforms_run_bind.mpr (conforms_wrapErr.mpr (conforms_query.mpr
    ⟨trivial, fun row => ?_, fun e => decent_of_error rfl⟩))
  cases row with
  | some row => exact decent_ok
  | none =>
    refine .inr fun _ err heq => ?_
    obtain rfl := Except.error.inj heq
    rw [GoError.refuses_wrap]
    simp [GoError.Refuses, refusals, GoError.is]

/-- The commissioner check only reads. -/
theorem reads_requireCommissioner : Calls Call.reads (requireCommissioner leagueID userID).run :=
  calls_requireCommissioner trivial

/-- Every request changes nothing or does not refuse. -/
theorem decent_request (req : Request) (hreq : req.isJob = false) :
    watched.Conforms (req, []) ((backend svc crypto).body req) Decent := by
  cases req with
  | getOrCreateNonce walletAddress walletType =>
    refine decent_bind (conforms_run_ite.mpr ⟨fun _ => decent_of_clean clean_nil, fun _ => ?_⟩)
    refine conforms_reads_bind (.wrapErr (.mk (.perform trivial))) clean_nil
      fun nonce trace hclean => ?_
    exact conforms_exec_bind fun _ => decent_ok
  | verifySignature req => exact decent_bind decent_verifySignature
  | linkPlatformProfile userID req =>
    refine decent_bind (conforms_reads_bind (.wrapErr (.mk (.perform trivial))) clean_nil
      fun user trace hclean => ?_)
    exact conforms_wrapErr.mpr (conforms_exec.mpr
      ⟨trivial, fun _ => decent_ok, fun e => decent_of_error rfl⟩)
  | importLeague userID req =>
    refine decent_bind (conforms_reads_bind (.wrapErr (.mk (.perform trivial))) clean_nil
      fun league trace hclean => ?_)
    refine conforms_reads_bind (.wrapErr (.mk (.perform trivial))) hclean
      fun members trace hclean => ?_
    refine conforms_reads_bind (.wrapErr (.mk (.perform trivial))) hclean
      fun rosters trace hclean => ?_
    exact conforms_wrapErr.mpr (conforms_exec.mpr
      ⟨trivial, fun _ => decent_ok, fun e => decent_of_error rfl⟩)
  | deleteLeague leagueID userID => exact decent_bind decent_deleteLeague
  | updateLeagueSettings leagueID userID req =>
    refine decent_bind (conforms_run_ite.mpr ⟨fun _ => decent_of_clean clean_nil, fun _ => ?_⟩)
    refine conforms_reads_bind reads_requireCommissioner clean_nil fun _ trace hclean => ?_
    exact conforms_exec_bind fun _ => decent_getLeagueSettings
  | setPaymentToken leagueID userID token =>
    refine decent_bind (conforms_run_ite.mpr ⟨fun _ => decent_of_clean clean_nil, fun _ => ?_⟩)
    refine conforms_exec_bind fun n => conforms_run_ite.mpr ⟨fun hn => ?_, fun _ => decent_ok⟩
    have huntouched : Untouched ⟨.exec (.setPaymentToken leagueID userID token), .ok n⟩ :=
      untouched_of_run fun now fresh db db' hrun =>
        updateMembers_of_none (hn ▸ Option.some.inj hrun)
    exact decent_of_clean (clean_nil.cons huntouched)
  | confirmPayment leagueID userID transactionID => exact decent_bind decent_confirmPayment
  | cancelLeague leagueID userID =>
    refine decent_bind (conforms_reads_bind reads_requireCommissioner clean_nil
      fun _ trace hclean => ?_)
    refine conforms_exec_bind fun n => conforms_run_ite.mpr ⟨fun hn => ?_, fun _ => decent_ok⟩
    have huntouched : Untouched ⟨.exec (.cancelLeague leagueID), .ok n⟩ :=
      untouched_of_run fun now fresh db db' hrun =>
        updateLeagues_of_none (hn ▸ Option.some.inj hrun)
    exact decent_of_clean (hclean.cons huntouched)
  | reactivateLeague leagueID userID =>
    refine decent_bind (conforms_reads_bind reads_requireCommissioner clean_nil
      fun _ trace hclean => ?_)
    refine conforms_exec_bind fun n => conforms_run_ite.mpr ⟨fun hn => ?_, fun _ => ?_⟩
    · have huntouched : Untouched ⟨.exec (.reactivateLeague leagueID), .ok n⟩ :=
        untouched_of_run fun now fresh db db' hrun =>
          updateLeagues_of_none (hn ▸ Option.some.inj hrun)
      exact decent_of_clean (hclean.cons huntouched)
    · exact conforms_exec_bind fun _ => decent_ok
  | confirmRefund leagueID userID transactionID => exact decent_bind decent_confirmRefund
  | _ => cases hreq

end Requests

/-! ## Runs -/

section Runs

variable {svc : Service} {crypto : Crypto} {ok : BackendConfig → BackendLabel → Prop}
  {a a' b : BackendConfig}

/-- A request that returns a refusal has changed nothing: in every run, and whatever else happens in
it, no step of the request changes a table, adds to what is in flight or submits anything, unless
an error from outside is one of the services' refusals. -/
theorem refused_changes_nothing (hbefore : Runs svc crypto ok a) {i : ℕ} {q : Call} {r : Ret q}
    (hok : ok a (.call i q r)) (hstep : (backend svc crypto).Step a (.call i q r) a')
    (hafter : (backend svc crypto).Reaches ok a' b) {t : BackendThread}
    (ht : b.threads[i]? = some t) (hreq : t.job.isJob = false)
    (houtside : ∀ call ∈ t.trace, OutsideError call) {err : GoError}
    (hreturned : t.rest = .done (.error err)) (hrefused : err.Refuses) :
    a'.world.db = a.world.db ∧ a'.world.inFlight = a.world.inFlight ∧
      a'.world.submissions = a.world.submissions := by
  have hrun : Runs svc crypto ok b := (hbefore.step hok hstep).trans hafter
  have hbody : ∀ req : Request, watched.Conforms (req, []) ((backend svc crypto).body req)
      fun φ r => req.isJob = false → Decent φ r := by
    intro req
    by_cases hjob : req.isJob = false
    · exact (decent_request req hjob).mono fun _ _ hdecent _ => hdecent
    · exact (conforms_watched _).mono fun _ _ _ hreq => absurd hreq hjob
  have hdecent : Decent (watched.phase (t.job, []) t.trace) (.error err) :=
    (follows_of_reaches hrun hbody (by simp [initialConfig]) i t ht).result hreturned hreq
  rw [history_phase] at hdecent
  rcases hdecent with hclean | hrefuses
  · cases hstep with
    | call hu hrest hrunning hw =>
      have hlt := (List.getElem?_eq_some_iff.mp hu).1
      obtain ⟨t', ht', -, hsuffix⟩ := hafter.thread_later (List.getElem?_set_self hlt)
      obtain rfl := Option.some.inj (ht.symm.trans ht')
      exact hclean ⟨q, r⟩ (hsuffix.subset List.mem_cons_self) _ _ hw
  · exact absurd hrefused (hrefuses houtside err rfl)

end Runs

end Wagr
