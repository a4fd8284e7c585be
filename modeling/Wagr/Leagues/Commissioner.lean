import Wagr.Library.History
import Wagr.Library.Past
import Wagr.Service.Rows
import Wagr.Service.Scenario

/-!
# Only commissioners decide about a league

The entry fee, the payout rules and the cancellation of a league change only by the statement of
a request whose user the database called commissioner of the league before. The check and the
statement are separate calls, and the statement may land late, so the user was commissioner at
some earlier moment of the run.
-/

namespace Wagr

open Interaction Protocol System Relational

variable {svc : Service} {crypto : Crypto} {a b : BackendConfig} {l : BackendLabel}
  {ok : BackendConfig → BackendLabel → Prop}

/-- The league and the user of a request that decides about a league. -/
def Request.decidesFor : Request → Option (String × String)
  | .updateLeagueSettings leagueID userID _ => some (leagueID, userID)
  | .cancelLeague leagueID userID => some (leagueID, userID)
  | .reactivateLeague leagueID userID => some (leagueID, userID)
  | _ => none

/-- The league that a statement decides about. -/
def Statement.decidesFor : Statement → Option String
  | .updateSettings leagueID _ _ => some leagueID
  | .cancelLeague leagueID => some leagueID
  | .reactivateLeague leagueID => some leagueID
  | .resetRefunded leagueID => some leagueID
  | _ => none

/-- The handler refuses negative fees. -/
def Request.Accepted : Request → Prop
  | .updateLeagueSettings _ _ settings => ¬ settings.entryFeeCents < 0
  | _ => True

/-- The request was accepted, has asked whether its user is commissioner and was told so. -/
def CheckedCommissioner (req : Request) (trace : List (Sigma Ret)) (leagueID : String) : Prop :=
  req.Accepted ∧ ∃ userID, req.decidesFor = some (leagueID, userID) ∧
    (⟨.query (.isCommissioner leagueID userID), .ok (some true)⟩ : Sigma Ret) ∈ trace

/-- Statements that decide about a league are only made after the check. -/
def commissionerRule (req : Request) (trace : List (Sigma Ret)) : Call → Prop
  | .exec s => req.mayExec s ∧
    ∀ leagueID, s.decidesFor = some leagueID → CheckedCommissioner req trace leagueID
  | _ => True

/-- The protocol of this rule. -/
abbrev commissionerProtocol : Protocol Call Ret (Request × List (Sigma Ret)) :=
  history commissionerRule

/-- A successful check stays one. -/
theorem CheckedCommissioner.mono {req : Request} {trace later : List (Sigma Ret)}
    {leagueID : String} (h : CheckedCommissioner req trace leagueID) (hlater : trace <:+ later) :
    CheckedCommissioner req later leagueID := by
  obtain ⟨haccepted, userID, hreq, hcall⟩ := h
  exact ⟨haccepted, userID, hreq, hlater.subset hcall⟩

section Programs

variable {req : Request} {leagueID userID : String} {trace : List (Sigma Ret)} {α : Type}

/-- A program whose statements are in the footprint of the request and decide about nothing. -/
theorem conforms_undecided {x : Job α} (hx : Calls (fun c => req.mayCall c ∧
    ∀ s, c = .exec s → s.decidesFor = none) x) :
    commissionerProtocol.Conforms (req, trace) x fun _ _ => True := by
  refine (conforms_history (hx.weaken fun c hc later _ => ?_)).mono fun _ _ _ => trivial
  cases c with
  | exec s => exact ⟨hc.1, fun leagueID hs => by simp [hc.2 s rfl] at hs⟩
  | _ => trivial

/-- What follows the commissioner check has passed it. -/
theorem conforms_requireCommissioner (haccepted : req.Accepted)
    (hreq : req.decidesFor = some (leagueID, userID)) {x : Go α}
    (hx : ∀ later, CheckedCommissioner req later leagueID →
      commissionerProtocol.Conforms (req, later) x.run fun _ _ => True) :
    commissionerProtocol.Conforms (req, trace)
      (requireCommissioner leagueID userID >>= fun _ => x).run fun _ _ => True := by
  refine conforms_run_bind.mpr (conforms_run_bind.mpr (conforms_run_lift.mpr
    (conforms_query.mpr ⟨trivial, fun r => ?_, fun e => trivial⟩)))
  match r with
  | some true => exact hx _ ⟨haccepted, userID, hreq, List.mem_cons_self⟩
  | some false => trivial
  | none => trivial

/-- A statement after the check, and the rest of the request. -/
theorem conforms_decision {s : Statement} {message : String} {f : s.Result → Go α}
    (hs : s.decidesFor = some leagueID) (hexec : req.mayExec s)
    (hchecked : CheckedCommissioner req trace leagueID)
    (hrest : ∀ later r, CheckedCommissioner req later leagueID →
      commissionerProtocol.Conforms (req, later) (f r).run fun _ _ => True) :
    commissionerProtocol.Conforms (req, trace) (wrapErr message (exec s) >>= f).run
      fun _ _ => True := by
  refine conforms_run_bind.mpr (conforms_wrapErr.mpr (conforms_exec.mpr
    ⟨⟨hexec, fun leagueID' hs' => ?_⟩, fun r => ?_, fun e => trivial⟩))
  · obtain rfl : leagueID = leagueID' := Option.some.inj (hs.symm.trans hs')
    exact hchecked
  · exact hrest _ r (hchecked.mono (List.suffix_cons _ _))

/-- The requests that decide about no league. -/
theorem conforms_decidesNothing (hreq : req.decidesFor = none) :
    commissionerProtocol.Conforms (req, trace) ((backend svc crypto).body req)
      fun _ _ => True := by
  refine conforms_undecided ((calls_request req).weaken fun c hc => ⟨hc, ?_⟩)
  rintro s rfl
  cases req with
  | updateLeagueSettings | cancelLeague | reactivateLeague => cases hreq
  | _ => cases s <;> first | rfl | exact hc.elim

/-- Every request decides about a league only after the check. -/
theorem conforms_commissioner (req : Request) :
    commissionerProtocol.Conforms (req, []) ((backend svc crypto).body req) fun _ _ => True := by
  cases req with
  | updateLeagueSettings leagueID userID settings =>
    refine conforms_toDone (conforms_run_ite.mpr ⟨fun _ => trivial, fun hfee => ?_⟩)
    have haccepted : (Request.updateLeagueSettings leagueID userID settings).Accepted := hfee
    refine conforms_requireCommissioner haccepted rfl fun later hlater => ?_
    refine conforms_decision rfl ⟨rfl, rfl, rfl⟩ hlater fun last _ _ => ?_
    exact conforms_undecided (calls_getLeagueSettings ⟨trivial, fun _ h => by cases h⟩)
  | cancelLeague leagueID userID =>
    have haccepted : (Request.cancelLeague leagueID userID).Accepted := trivial
    refine conforms_toDone (conforms_requireCommissioner haccepted rfl fun later hlater => ?_)
    exact conforms_decision rfl rfl hlater fun last n _ => conforms_run_ite.mpr
      ⟨fun _ => trivial, fun _ => trivial⟩
  | reactivateLeague leagueID userID =>
    have haccepted : (Request.reactivateLeague leagueID userID).Accepted := trivial
    refine conforms_toDone (conforms_requireCommissioner haccepted rfl fun later hlater => ?_)
    refine conforms_decision rfl rfl hlater fun last n hlast => conforms_run_ite.mpr
      ⟨fun _ => trivial, fun _ => ?_⟩
    exact conforms_decision rfl rfl hlast fun _ _ _ => trivial
  | _ => exact conforms_decidesNothing rfl

end Programs

/-! ## Who was commissioner -/

/-- At an earlier moment of the run the user owned a membership of the league. -/
def WasCommissioner (svc : Service) (crypto : Crypto) (ok : BackendConfig → BackendLabel → Prop)
    (a : BackendConfig) (leagueID userID : String) : Prop :=
  ∃ d, Runs svc crypto ok d ∧ (backend svc crypto).Reaches ok d a ∧
    d.world.db.ownsMembership leagueID userID = true

/-- Who was commissioner stays so. -/
theorem WasCommissioner.later {leagueID userID : String}
    (h : WasCommissioner svc crypto ok a leagueID userID)
    (hlater : (backend svc crypto).Reaches ok a b) :
    WasCommissioner svc crypto ok b leagueID userID := by
  obtain ⟨d, hd, hda, howns⟩ := h
  exact ⟨d, hd, Relation.ReflTransGen.trans hda hlater, howns⟩

/-- The answer to a successful check was true. -/
theorem Runs.wasCommissioner (h : Runs svc crypto ok a) {i : ℕ} {t : BackendThread}
    (ht : a.threads[i]? = some t) {leagueID userID : String}
    (hcall : (⟨.query (.isCommissioner leagueID userID), .ok (some true)⟩ : Sigma Ret) ∈ t.trace) :
    WasCommissioner svc crypto ok a leagueID userID := by
  obtain ⟨m, -⟩ := Reaches.moment_of_mem h rfl ht hcall
  obtain ⟨-, hanswer⟩ := m.handles
  refine ⟨m.before, m.reached, m.later, ?_⟩
  change some true = if _ then none else some _ at hanswer
  split at hanswer
  · cases hanswer
  · exact (Option.some.inj hanswer).symm

/-- The request of a commissioner: a thread works on it, it was accepted, and its user was
commissioner. -/
structure Decided (svc : Service) (crypto : Crypto) (ok : BackendConfig → BackendLabel → Prop)
    (a : BackendConfig) (leagueID : String) (req : Request) : Prop where
  thread : ∃ (i : ℕ) (t : BackendThread), a.threads[i]? = some t ∧ t.job = req
  accepted : req.Accepted
  commissioner : ∃ userID, req.decidesFor = some (leagueID, userID) ∧
    WasCommissioner svc crypto ok a leagueID userID

/-- A request that was decided stays so. -/
theorem Decided.later {leagueID : String} {req : Request}
    (h : Decided svc crypto ok a leagueID req) (hlater : (backend svc crypto).Reaches ok a b) :
    Decided svc crypto ok b leagueID req := by
  obtain ⟨⟨i, t, ht, rfl⟩, haccepted, userID, hreq, hwas⟩ := h
  obtain ⟨u, hu, hjob, -⟩ := hlater.thread_later ht
  exact ⟨⟨i, u, hu, hjob⟩, haccepted, userID, hreq, hwas.later hlater⟩

/-- A statement that decides about a league is a commissioner's. -/
theorem Runs.decided (h : Runs svc crypto ok a) (hstep : (backend svc crypto).Step a l b)
    {s : Statement} (hs : applied a l = some s) {leagueID : String}
    (hleague : s.decidesFor = some leagueID) :
    ∃ req, Decided svc crypto ok a leagueID req ∧ req.mayExec s := by
  obtain ⟨i, t, ht, earlier, hsuffix, hallows⟩ :=
    h.applied_allowed conforms_commissioner hstep hs
  rw [Protocol.history_phase] at hallows
  obtain ⟨haccepted, userID, hreq, hcall⟩ := hallows.2 leagueID hleague
  exact ⟨t.job, ⟨⟨i, t, ht, rfl⟩, haccepted, userID, hreq,
    h.wasCommissioner ht (hsuffix.subset hcall)⟩,
    hallows.1⟩

/-! ## What was decided -/

/-- What the request makes of a league. -/
def Request.Decides (req : Request) (r r' : LeagueRow) : Prop :=
  match req with
  | .updateLeagueSettings _ _ settings =>
    r'.entryFeeCents = settings.entryFeeCents ∧
      r'.payoutStructure = some (.marshal settings.payoutStructure) ∧ r'.cancelledAt = r.cancelledAt
  | .cancelLeague _ _ =>
    r'.entryFeeCents = r.entryFeeCents ∧ r'.payoutStructure = r.payoutStructure ∧
      r.cancelledAt = none ∧ r'.cancelledAt ≠ none
  | .reactivateLeague _ _ =>
    r'.entryFeeCents = r.entryFeeCents ∧ r'.payoutStructure = r.payoutStructure ∧
      r.cancelledAt ≠ none ∧ r'.cancelledAt = none
  | _ => False

/-- What commissioners decide about a league. -/
def LeagueRow.decisions (r : LeagueRow) : Int64 × Option PayoutJSON × Option ℕ :=
  (r.entryFeeCents, r.payoutStructure, r.cancelledAt)

/-- A statement changes the decisions about a league only as a request for it does. -/
theorem Statement.LeagueStep.decides {now : ℕ} {db : Database} {s : Statement} {r r' : LeagueRow}
    (h : s.LeagueStep now db r r') :
    r'.decisions = r.decisions ∨
      s.decidesFor = some r.id ∧ ∀ req : Request, req.mayExec s → req.Decides r r' := by
  rcases h with rfl | h
  · exact .inl rfl
  · cases s with
    | importLeague =>
      obtain ⟨rfl, -⟩ := h
      exact .inl rfl
    | updateSettings leagueID fee payoutJSON =>
      obtain ⟨rfl, rfl⟩ := h
      refine .inr ⟨rfl, fun req hreq => ?_⟩
      cases req with
      | updateLeagueSettings =>
        obtain ⟨-, rfl, rfl⟩ := hreq
        exact ⟨rfl, rfl, rfl⟩
      | _ => exact hreq.elim
    | cancelLeague leagueID =>
      obtain ⟨rfl, hactive, rfl⟩ := h
      refine .inr ⟨rfl, fun req hreq => ?_⟩
      cases req with
      | cancelLeague => exact ⟨rfl, rfl, hactive, by simp⟩
      | _ => exact hreq.elim
    | reactivateLeague leagueID =>
      obtain ⟨rfl, hcancelled, rfl⟩ := h
      refine .inr ⟨rfl, fun req hreq => ?_⟩
      cases req with
      | reactivateLeague => exact ⟨rfl, rfl, hcancelled, rfl⟩
      | _ => exact hreq.elim
    | markSettledWithoutPayout | claimPayout | markPayoutFailed | markPayoutExecuted
    | updateLeagueStatus =>
      obtain ⟨-, -, rfl⟩ := h
      exact .inl rfl
    | _ => exact h.elim

/-- Every change of a league's entry fee, payout rules or cancellation was decided by a user who
was commissioner of the league, and is the one their request asks for. -/
theorem change_decided (h : Runs svc crypto ok a) (hstep : (backend svc crypto).Step a l b)
    {r r' : LeagueRow} (hr : r ∈ a.world.db.leagues.rows) (hr' : r' ∈ b.world.db.leagues.rows)
    (hid : r'.id = r.id) (hchange : r'.decisions ≠ r.decisions) :
    ∃ req, Decided svc crypto ok a r.id req ∧ req.Decides r r' := by
  rcases step_row hstep hr' with ⟨r₀, hr₀, hmoves⟩ | ⟨league, now, fresh, rfl, hfresh, -⟩
  · have hsame : r₀.id = r'.id := by
      rcases hmoves with rfl | ⟨now, s, -, hleague⟩
      · rfl
      · exact hleague.id.symm
    obtain rfl : r₀ = r := Table.eq_of_key hr₀ hr (hsame.trans hid)
    rcases hmoves with rfl | ⟨now, s, hs, hleague⟩
    · exact absurd rfl hchange
    · obtain ⟨hleague, hdecides⟩ := hleague.decides.resolve_left hchange
      obtain ⟨req, hdecided, hexec⟩ := h.decided hstep hs hleague
      exact ⟨req, hdecided, hdecides req hexec⟩
  · exact absurd (h.references.leagues r hr) (hid ▸ hfresh)

/-- The commissioner cancels the league; the statement of the cancellation is next. -/
def cancelling : Schedule :=
  Schedule.fundedLeague Schedule.firstPlace ++
    [.spawn (.cancelLeague Schedule.leagueID "u1"), .call 4 (.succeed 0 "")]

/-- The cancellation changes the decisions about the league, so a commissioner has decided it. -/
theorem change_decided_cancelling : ∃ a l b, Runs .mock .mock (fun _ _ => True) a ∧
    ∃ r ∈ a.world.db.leagues.rows, ∃ r' ∈ b.world.db.leagues.rows, r'.cancelledAt ≠ r.cancelledAt ∧
      (backend .mock .mock).Step a l b ∧
        ∃ req, Decided .mock .mock (fun _ _ => True) a r.id req ∧ req.Decides r r' := by
  obtain ⟨a, l, b, hrun, hstep, r, hr, r', hr', hid, hcancelled⟩ := cancelling.exists_step
    (.call 4 (.succeed 7 "f3")) .mock .mock (fun _ _ => True)
    (fun a _ b => ∃ r ∈ a.world.db.leagues.rows, ∃ r' ∈ b.world.db.leagues.rows, r'.id = r.id ∧
      r'.cancelledAt ≠ r.cancelledAt) (by decide)
  exact ⟨a, l, b, hrun, r, hr, r', hr', hcancelled, hstep, change_decided hrun hstep hr hr' hid
    fun h => hcancelled (congrArg (fun d => d.2.2) h)⟩

/-! ## The settings of a league -/

/-- The settings of the row are the initial ones, or all of them are those of one request. -/
def SettingsDecided (svc : Service) (crypto : Crypto) (ok : BackendConfig → BackendLabel → Prop)
    (a : BackendConfig) (r : LeagueRow) : Prop :=
  (r.entryFeeCents = 0 ∧ r.payoutStructure = none) ∨
    ∃ userID settings,
      Decided svc crypto ok a r.id (.updateLeagueSettings r.id userID settings) ∧
        r.entryFeeCents = settings.entryFeeCents ∧
          r.payoutStructure = some (.marshal settings.payoutStructure)

/-- Settings that were decided stay so while the row keeps them. -/
theorem SettingsDecided.step {r r' : LeagueRow} (h : SettingsDecided svc crypto ok a r)
    (hlater : (backend svc crypto).Reaches ok a b) (hid : r'.id = r.id)
    (hfee : r'.entryFeeCents = r.entryFeeCents) (hrules : r'.payoutStructure = r.payoutStructure) :
    SettingsDecided svc crypto ok b r' := by
  rcases h with ⟨hzero, hnone⟩ | ⟨userID, settings, hdecided, hfee', hrules'⟩
  · exact .inl ⟨hfee.trans hzero, hrules.trans hnone⟩
  · rw [← hid] at hdecided
    exact .inr ⟨userID, settings, hdecided.later hlater, hfee.trans hfee', hrules.trans hrules'⟩

/-- In every run the settings of every league were decided together. -/
theorem Runs.settingsDecided (h : Runs svc crypto ok a) {r : LeagueRow}
    (hr : r ∈ a.world.db.leagues.rows) : SettingsDecided svc crypto ok a r := by
  induction h generalizing r with
  | refl => cases hr
  | @tail a b hrun hlast ih =>
    obtain ⟨l, hok, hstep⟩ := hlast
    have hlater : (backend svc crypto).Reaches ok a b := .single ⟨l, hok, hstep⟩
    rcases step_row hstep hr with ⟨r₀, hr₀, rfl | ⟨now, s, hs, hleague⟩⟩ |
      ⟨league, now, fresh, rfl, -, -⟩
    · exact (ih hr₀).step hlater rfl rfl rfl
    · rcases hleague.decides with hsame | ⟨hfor, hdecides⟩
      · simp only [LeagueRow.decisions, Prod.mk.injEq] at hsame
        exact (ih hr₀).step hlater hleague.id hsame.1 hsame.2.1
      · obtain ⟨req, hdecided, hexec⟩ := Runs.decided hrun hstep hs hfor
        have hnew := hdecides req hexec
        cases req with
        | updateLeagueSettings leagueID userID settings =>
          obtain ⟨userID', huser, -⟩ := hdecided.commissioner
          obtain ⟨rfl, -⟩ := Prod.mk.inj (Option.some.inj huser)
          exact .inr ⟨userID, settings, hleague.id.symm ▸ hdecided.later hlater, hnew.1, hnew.2.1⟩
        | cancelLeague | reactivateLeague =>
          exact (ih hr₀).step hlater hleague.id hnew.1 hnew.2.1
        | _ => exact hnew.elim
    · exact .inl ⟨rfl, rfl⟩

end Wagr
