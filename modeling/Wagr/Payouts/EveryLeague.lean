import Wagr.Library.History
import Wagr.Service.Rows
import Wagr.Service.Scenario
import Wagr.Payouts.KeptRules

/-!
# The weekly job and all leagues

One query selects the leagues of the weekly job. It fails for every league as soon as one league has
a structure that is no array, and if its rows break off early the job goes on with those it has.
Otherwise a weekly run looks at every league with a weekly entry.
-/

namespace Wagr

open Interaction Protocol Relational

variable {svc : Service} {crypto : Crypto} {a b c : BackendConfig} {l : BackendLabel}
  {ok : BackendConfig → BackendLabel → Prop} {trace later : List (Sigma Ret)}

/-! ## Leagues a run looks at -/

/-- The run has asked for the platform's week and, if a week is over, for the league's matchups. -/
def Considered (trace : List (Sigma Ret)) (platform platformLeagueID : String) : Prop :=
  ∃ week, (⟨.currentWeek platform, week⟩ : Sigma Ret) ∈ trace ∧ ∀ w, week = .ok w → 1 ≤ w - 1 →
    ∃ matchups, (⟨.platformMatchups platform platformLeagueID (w - 1),
      matchups⟩ : Sigma Ret) ∈ trace

/-- What was looked at stays so. -/
theorem Considered.mono {platform platformLeagueID : String}
    (h : Considered trace platform platformLeagueID) (hlater : trace <:+ later) :
    Considered later platform platformLeagueID := by
  obtain ⟨week, hweek, hmatchups⟩ := h
  refine ⟨week, hlater.subset hweek, fun w hw hover => ?_⟩
  obtain ⟨matchups, hread⟩ := hmatchups w hw hover
  exact ⟨matchups, hlater.subset hread⟩

/-- The league has a weekly entry. -/
def OracleLeague.HasWeekly (league : OracleLeague) : Prop :=
  ∃ e ∈ league.payoutStructure, e.type = "weekly"

/-- The run has looked at the league, if it has a weekly entry. -/
def LooksAt (league : OracleLeague) (φ : Request × List (Sigma Ret)) : Prop :=
  league.HasWeekly → Considered φ.2 league.platform league.platformLeagueID

/-- The leagues of the weekly job are selected by the first call of a run. -/
def selectRule (_ : Request) (trace : List (Sigma Ret)) : Call → Prop
  | .query .weeklyPayoutLeagues => trace = []
  | _ => True

/-- The run begins with this selection. -/
def Selected (stream : RowStream OracleLeagueRow) (trace : List (Sigma Ret)) : Prop :=
  [(⟨.query .weeklyPayoutLeagues, .ok stream⟩ : Sigma Ret)] <:+ trace

/-- A run begins with one selection. -/
theorem Selected.unique {stream stream' : RowStream OracleLeagueRow} (h : Selected stream trace)
    (h' : Selected stream' trace) : stream = stream' := by
  have hsuffix := List.suffix_of_suffix_length_le h h' le_rfl
  have heq := hsuffix.eq_of_length rfl
  cases heq
  rfl

/-- What a finished weekly run has done: it has looked at the leagues of its selection, and reports
no error. -/
def JobDone (req : Request) (φ : Request × List (Sigma Ret)) (r : Except GoError Response) : Prop :=
  req = .runWeeklyPayoutJob → ∀ stream, Selected stream φ.2 → (∃ resp, r = .ok resp) ∧
    ∀ league ∈ stream.rows.filterMap OracleLeagueRow.load, LooksAt league φ

/-- The call selects no leagues for the weekly job. -/
def Call.selectsNothing : Call → Prop
  | .query .weeklyPayoutLeagues => False
  | _ => True

/-- Such a call is always allowed. -/
theorem Call.selectsNothing.selectRule {req : Request} {c : Call} (h : c.selectsNothing) :
    selectRule req later c := by
  cases c with
  | query q =>
    cases q with
    | weeklyPayoutLeagues => exact h.elim
    | _ => trivial
  | _ => trivial

/-- A program of such calls conforms and extends the trace. -/
theorem conforms_selectsNothing {α : Type} {req : Request} {x : Job α}
    (hx : Calls Call.selectsNothing x) :
    (history selectRule).Conforms (req, trace) x fun φ _ => φ.1 = req ∧ trace <:+ φ.2 :=
  conforms_history (hx.weaken fun _ hc _ _ => hc.selectRule)

/-- The weekly payout of a league selects nothing. -/
theorem Call.paysWeekly.selectsNothing {leagueID : String} {c : Call} (h : c.paysWeekly leagueID) :
    c.selectsNothing := by
  cases c with
  | query q =>
    cases q with
    | weeklyPayoutLeagues => exact h.elim
    | _ => trivial
  | _ => trivial

/-- The payout of a league begins with its matchups. -/
theorem conforms_processWeekly_looks {league : OracleLeague} {entries : List PayoutEntry} {week : ℤ}
    {req : Request} :
    (history selectRule).Conforms (req, trace)
      (processWeeklyPayoutsForLeague svc league entries week).run fun φ _ =>
        (φ.1 = req ∧ trace <:+ φ.2) ∧ ∃ matchups,
          (⟨.platformMatchups league.platform league.platformLeagueID week, matchups⟩ : Sigma Ret) ∈
            φ.2 := by
  have hcalls : Calls Call.selectsNothing
      (processWeeklyPayoutsForLeague svc league entries week).run :=
    calls_processWeekly.weaken fun _ hc => hc.selectsNothing
  refine conforms_run_bind.mpr (conforms_wrapErr.mpr ⟨trivial, fun matchups => ?_⟩)
  cases matchups with
  | error e => exact ⟨⟨rfl, List.suffix_cons _ _⟩, .error e, List.mem_cons_self⟩
  | ok matchups =>
    have hrest := (conforms_wrapErr.mp (conforms_run_bind.mp hcalls)).2 (.ok matchups)
    refine (conforms_selectsNothing hrest).mono fun φ _ hφ => ?_
    exact ⟨⟨hφ.1, (List.suffix_cons _ _).trans hφ.2⟩, .ok matchups, hφ.2.subset List.mem_cons_self⟩

/-- A round of the weekly job looks at its league. -/
theorem conforms_weeklyRound_looks {league : OracleLeague} {req : Request} :
    (history selectRule).Conforms (req, trace) (weeklyRound svc league) fun φ _ =>
      (φ.1 = req ∧ trace <:+ φ.2) ∧ LooksAt league φ := by
  refine conforms_ite.mpr ⟨fun hnone => ⟨⟨rfl, List.suffix_rfl⟩, ?_⟩, fun _ => ?_⟩
  · rintro ⟨e, he, htype⟩
    have hmem : e ∈ league.payoutStructure.filter fun e => e.type = "weekly" :=
      List.mem_filter.mpr ⟨he, by simpa using htype⟩
    rw [hnone] at hmem
    cases hmem
  · refine conforms_bind.mpr ⟨trivial, fun week => ?_⟩
    cases week with
    | error e =>
      exact ⟨⟨rfl, List.suffix_cons _ _⟩, fun _ => ⟨.error e, List.mem_cons_self, by simp⟩⟩
    | ok w =>
      refine conforms_ite.mpr ⟨fun hnot => ⟨⟨rfl, List.suffix_cons _ _⟩, fun _ => ?_⟩, fun _ => ?_⟩
      · refine ⟨.ok w, List.mem_cons_self, fun w' hw' hover => ?_⟩
        obtain rfl := Except.ok.inj hw'
        omega
      · refine conforms_bind.mpr (conforms_processWeekly_looks.mono ?_)
        rintro ⟨req', later⟩ _ ⟨⟨rfl, hlater⟩, matchups, hread⟩
        refine ⟨⟨rfl, (List.suffix_cons _ _).trans hlater⟩, fun _ => ?_⟩
        refine ⟨.ok w, hlater.subset List.mem_cons_self, fun w' hw' _ => ?_⟩
        obtain rfl := Except.ok.inj hw'
        exact ⟨matchups, hread⟩

/-- What a run has looked at stays so. -/
theorem LooksAt.mono {league : OracleLeague} {φ ψ : Request × List (Sigma Ret)}
    (h : LooksAt league φ) (hlater : φ.2 <:+ ψ.2) : LooksAt league ψ :=
  fun hweekly => (h hweekly).mono hlater

/-- The weekly job looks at every league of its selection. -/
theorem conforms_selectRule (req : Request) :
    (history selectRule).Conforms (req, []) ((backend svc crypto).body req) (JobDone req) := by
  by_cases hreq : req = .runWeeklyPayoutJob
  · subst hreq
    refine conforms_run_bind.mpr (conforms_run_ite.mpr ⟨fun _ => ?_, fun _ => ?_⟩)
    · refine conforms_run_bind.mpr (conforms_wrapErr.mpr (conforms_query.mpr
        ⟨rfl, fun stream => conforms_run_lift.mpr ?_, fun e _ stream hselected => ?_⟩))
      · -- every round keeps what the rounds before it have looked at
        refine (conforms_forM_each (T := LooksAt)
          (I := fun φ : Request × List (Sigma Ret) => Selected stream φ.2) ?_ ?_).mono ?_
        · rintro league - ⟨req, trace⟩ hselected
          refine conforms_weeklyRound_looks.mono ?_
          rintro ⟨req', later⟩ - ⟨⟨-, hlater⟩, hlooks⟩
          exact ⟨hselected.trans hlater, hlooks, fun other h => h.mono hlater⟩
        · exact List.suffix_rfl
        · rintro φ - ⟨hselected, hlooks, -⟩ - stream' hselected'
          obtain rfl := hselected.unique hselected'
          exact ⟨⟨.done, rfl⟩, hlooks⟩
      · have hbad := hselected.eq_of_length rfl
        cases hbad
    · intro _ stream hselected
      cases List.suffix_nil.mp hselected
  · have hcalls : Calls Call.selectsNothing ((backend svc crypto).body req) := by
      refine (calls_request req).weaken fun c hc => ?_
      cases c with
      | query q =>
        cases q with
        | weeklyPayoutLeagues =>
          cases req with
          | runWeeklyPayoutJob => exact absurd rfl hreq
          | _ => exact hc.elim
        | _ => trivial
      | _ => trivial
    exact (conforms_selectsNothing hcalls).mono fun _ _ _ h => absurd h hreq

/-! ## Stored structures -/

/-- Every stored structure is an array of submitted entries. -/
def ArraysStored (db : Database) : Prop :=
  ∀ r ∈ db.leagues.rows, ∀ j ∈ r.payoutStructure,
    ∃ es : List PayoutEntry, j = .entries (es.map PayoutEntry.encode)

/-- The league that a statement gives the structure `null`. -/
def Statement.savesNull : Statement → Option String
  | .updateSettings leagueID _ .null => some leagueID
  | _ => none

/-- What breaks off the selection of a weekly run in the step. -/
def brokenSelection : BackendLabel → Option GoError
  | .call _ (.query .weeklyPayoutLeagues) (.ok stream) => stream.err
  | _ => none

/-- Settings that take effect in the step have a list of entries, and a selection of leagues is not
broken off. -/
def JobSafe (a : BackendConfig) (l : BackendLabel) : Prop :=
  (∀ s ∈ applied a l, ∀ leagueID ∈ s.savesNull,
    leagueID ∉ a.world.db.leagues.rows.map LeagueRow.id) ∧ brokenSelection l = none

instance (a : BackendConfig) (l : BackendLabel) : Decidable (JobSafe a l) :=
  inferInstanceAs (Decidable ((∀ s ∈ applied a l, ∀ leagueID ∈ s.savesNull,
    leagueID ∉ a.world.db.leagues.rows.map LeagueRow.id) ∧ brokenSelection l = none))

/-- The statement that saves `null`. -/
theorem savesNull_eq {s : Statement} {leagueID : String} (h : leagueID ∈ s.savesNull) :
    ∃ fee, s = .updateSettings leagueID fee .null := by
  cases s with
  | updateSettings leagueID' fee j =>
    cases j with
    | null =>
      obtain rfl : leagueID' = leagueID := Option.some.inj h
      exact ⟨fee, rfl⟩
    | _ => cases h
  | _ => cases h

/-- Settings that take effect are those of a request. -/
theorem Runs.settings_requested (h : Runs svc crypto ok a) (hstep : (backend svc crypto).Step a l b)
    {leagueID : String} {fee : Int64} {j : PayoutJSON}
    (hs : applied a l = some (.updateSettings leagueID fee j)) :
    ∃ (i : ℕ) (t : BackendThread) (userID : String) (req : UpdateSettingsRequest),
      a.threads[i]? = some t ∧ t.job = .updateLeagueSettings leagueID userID req ∧
        j = .marshal req.payoutStructure := by
  obtain ⟨i, t, ht, earlier, -, hallows⟩ :=
    h.applied_allowed (P := footprints) conforms_footprints hstep hs
  rw [footprints_phase] at hallows
  have hmay : t.job.mayExec (.updateSettings leagueID fee j) := hallows
  cases hjob : t.job with
  | updateLeagueSettings leagueID' userID req =>
    rw [hjob] at hmay
    obtain ⟨rfl, -, hj⟩ := hmay
    exact ⟨i, t, userID, req, ht, hjob, hj⟩
  | _ =>
    rw [hjob] at hmay
    exact hmay.elim

/-- After settings have taken effect, the league has the entries of a request. -/
def SettingsStored (a : BackendConfig) (l : BackendLabel) (b : BackendConfig) : Prop :=
  ∀ leagueID fee j, applied a l = some (.updateSettings leagueID fee j) →
    ∀ r ∈ b.world.db.leagues.rows, r.id = leagueID →
      ∃ (i : ℕ) (t : BackendThread) (userID : String) (req : UpdateSettingsRequest),
        a.threads[i]? = some t ∧ t.job = .updateLeagueSettings leagueID userID req ∧
          r.payoutStructure =
            some (.entries ((req.payoutStructure.getD []).map PayoutEntry.encode))

/-- Lists are stored as the request has them. -/
theorem Runs.settingsStored (h : Runs svc crypto ok a) (hstep : (backend svc crypto).Step a l b)
    (hl : JobSafe a l) : SettingsStored a l b := by
  intro leagueID fee j hs r hr hid
  obtain ⟨i, t, userID, req, ht, hjob, rfl⟩ := h.settings_requested hstep hs
  rcases step_db hstep with ⟨hnone, -⟩ | ⟨s, hs', now, fresh, result, -, hrun, -, -⟩
  · rw [hs] at hnone
    cases hnone
  · obtain rfl := Option.some.inj (hs'.symm.trans hs)
    obtain ⟨r₀, hr₀, heq⟩ := (mem_updateSettings hrun).mp hr
    have hid₀ : r₀.id = leagueID := by
      by_contra hne
      rw [if_neg hne] at heq
      exact hne (heq ▸ hid)
    refine ⟨i, t, userID, req, ht, hjob, ?_⟩
    rw [if_pos hid₀] at heq
    rw [← heq]
    cases hstructure : req.payoutStructure with
    | none =>
      rw [hstructure] at hs
      have hsaves : leagueID ∈ (Statement.updateSettings leagueID fee
          (.marshal none)).savesNull := rfl
      exact absurd (List.mem_map.mpr ⟨r₀, hr₀, hid₀⟩) (hl.1 _ hs _ hsaves)
    | some es => rfl

/-- The structures stay arrays of submitted entries. -/
theorem ArraysStored.step (harrays : ArraysStored a.world.db) (h : Runs svc crypto ok a)
    (hstep : (backend svc crypto).Step a l b) (hl : JobSafe a l) : ArraysStored b.world.db := by
  intro r' hr' j hj
  rcases step_row hstep hr' with ⟨r, hr, hsame⟩ | ⟨league, now, fresh, rfl, -, -⟩
  · rcases hsame with rfl | ⟨now, s, hs, hmoves⟩
    · exact harrays r' hr j hj
    · rcases hmoves.payoutStructure with heq | ⟨fee, j', rfl, heq⟩
      · exact harrays r hr j (heq ▸ hj)
      · obtain ⟨i, t, userID, req, -, -, hstored⟩ :=
          h.settingsStored hstep hl r.id fee j' hs r' hr' hmoves.id
        rw [Option.mem_def, hstored] at hj
        exact ⟨req.payoutStructure.getD [], (Option.some.inj hj).symm⟩
  · cases hj

/-- If all structures are arrays, no `null` was saved for a league. -/
theorem ArraysStored.savesNull (harrays : ArraysStored b.world.db)
    (hstep : (backend svc crypto).Step a l b) {s : Statement} (hs : applied a l = some s)
    {leagueID : String} (hnull : leagueID ∈ s.savesNull) :
    leagueID ∉ a.world.db.leagues.rows.map LeagueRow.id := by
  intro hmem
  obtain ⟨r, hr, rfl⟩ := List.mem_map.mp hmem
  obtain ⟨fee, rfl⟩ := savesNull_eq hnull
  rcases step_db hstep with ⟨hnone, -⟩ | ⟨s, hs', now, fresh, result, -, hrun, -, -⟩
  · rw [hs] at hnone
    cases hnone
  · obtain rfl := Option.some.inj (hs'.symm.trans hs)
    have hafter := (mem_updateSettings hrun).mpr ⟨r, hr, rfl⟩
    rw [if_pos rfl] at hafter
    obtain ⟨es, hes⟩ := harrays _ hafter .null rfl
    cases hes

/-- If all structures are arrays, the selection can be answered with every league that has
entries. -/
theorem ArraysStored.selectable {db : Database} (h : ArraysStored db) :
    ∃ stream, Query.weeklyPayoutLeagues.Answers db stream ∧ stream.err = none := by
  have harrays : ∀ r ∈ db.leagues.rows.filter LeagueRow.mayPayWeekly,
      (r.oracleRow.payoutJSON.arrayLength?).isSome = true := by
    intro r hr
    have hr := (List.mem_filter.mp hr).1
    cases hj : r.payoutStructure with
    | none => simp [LeagueRow.oracleRow, hj, PayoutJSON.arrayLength?]
    | some j =>
      obtain ⟨es, rfl⟩ := h r hr j hj
      simp [LeagueRow.oracleRow, hj, PayoutJSON.arrayLength?]
  exact ⟨.all _, ⟨harrays, RowStream.all_delivers (.refl _) trivial⟩, rfl⟩

/-! ## Leagues with a weekly entry -/

/-- In season, not cancelled and with a weekly entry. -/
def LeagueRow.HasWeekly (r : LeagueRow) : Prop :=
  r.status = some "in_season" ∧ r.cancelledAt = none ∧ ∃ j ∈ r.payoutStructure,
    ∃ entries ∈ j.unmarshal, ∃ e ∈ entries, e.type = "weekly"

instance (r : LeagueRow) : Decidable r.HasWeekly :=
  inferInstanceAs (Decidable (_ ∧ _ ∧ ∃ j ∈ r.payoutStructure, ∃ entries ∈ j.unmarshal,
    ∃ e ∈ entries, e.type = "weekly"))

/-- A selection that is not broken off has every league with a weekly entry. -/
theorem selects_of_answers {db : Database} {stream : RowStream OracleLeagueRow}
    (hanswer : Query.weeklyPayoutLeagues.Answers db stream) (herr : stream.err = none)
    {r : LeagueRow}
    (hr : r ∈ db.leagues.rows) (hweekly : r.HasWeekly) :
    ∃ league ∈ stream.rows.filterMap OracleLeagueRow.load, league.platform = r.platform ∧
      league.platformLeagueID = r.platformLeagueID ∧ league.HasWeekly := by
  obtain ⟨hstatus, hcancelled, j, hj, entries, hentries, e, he, htype⟩ := hweekly
  obtain ⟨-, order, hperm, -, -, hall⟩ := hanswer
  have hlength : 0 < j.arrayLength?.getD 0 := by
    cases j with
    | entries es =>
      obtain rfl : es.map StoredEntry.decode = entries := Option.some.inj hentries
      simpa [PayoutJSON.arrayLength?] using List.length_pos_of_mem he
    | null =>
      obtain rfl : [] = entries := Option.some.inj hentries
      cases he
    | other => cases hentries
  have hrow : r.oracleRow ∈ stream.rows := by
    rw [hall herr, hperm.mem_iff]
    refine List.mem_map_of_mem (List.mem_filter.mpr ⟨List.mem_filter.mpr ⟨hr, ?_⟩, ?_⟩)
    · simp [LeagueRow.mayPayWeekly, hstatus, hcancelled, Option.mem_def.mp hj]
    · simpa [LeagueRow.oracleRow, Option.mem_def.mp hj] using hlength
  have hload : r.oracleRow.load = some ⟨r.id, r.platform, r.platformLeagueID, entries⟩ := by
    simp [OracleLeagueRow.load, LeagueRow.oracleRow, Option.mem_def.mp hj,
      Option.mem_def.mp hentries]
  exact ⟨_, List.mem_filterMap.mpr ⟨r.oracleRow, hrow, hload⟩, rfl, rfl, e, he, htype⟩

/-! ## Selections that break off -/

/-- A run whose selection was broken off cannot end without an error. -/
def ErrorsReturned (a : BackendConfig) : Prop :=
  ∀ (i : ℕ) (t : BackendThread), a.threads[i]? = some t → ∀ stream,
    (⟨.query .weeklyPayoutLeagues, .ok stream⟩ : Sigma Ret) ∈ t.trace → stream.err ≠ none →
      ∀ resp, ¬ t.rest.Returns (fun _ _ => True) (.ok resp)

/-- The step that selects leagues is the first call of a weekly run. -/
theorem Runs.selects (h : Runs svc crypto ok a) {i : ℕ} {stream : RowStream OracleLeagueRow}
    (hstep : (backend svc crypto).Step a (.call i (.query .weeklyPayoutLeagues) (.ok stream)) b) :
    ∃ t, b.threads[i]? = some t ∧ t.job = .runWeeklyPayoutJob ∧
      t.trace = [⟨.query .weeklyPayoutLeagues, .ok stream⟩] ∧
      (history selectRule).Conforms (t.job, t.trace) t.rest (JobDone t.job) := by
  cases hstep with
  | @call _ t _ next _ w ht hrest hrun hw =>
    have hlt : i < a.threads.length := (List.getElem?_eq_some_iff.mp ht).1
    have hfollows := follows_of_reaches h conforms_selectRule (by simp [initialConfig]) i t ht
    have hallows := hfollows.allows hrest
    rw [phaseOf, history_phase] at hallows
    have hfirst : t.trace = [] := hallows
    have hmay : t.job.mayCall (.query .weeklyPayoutLeagues) :=
      h.mayCall ht (by rw [hrest]; exact .here)
    refine ⟨_, List.getElem?_set_self hlt, ?_, ?_, ?_⟩
    · change t.job = .runWeeklyPayoutJob
      cases hjob : t.job with
      | runWeeklyPayoutJob => rfl
      | _ =>
        rw [hjob] at hmay
        exact hmay.elim
    · simp [Thread.answer, hfirst]
    · unfold Follows at hfollows
      rw [hrest, phaseOf, history_phase] at hfollows
      exact hfollows.2 (.ok stream)

/-- Along a run no selection was broken off. -/
theorem Runs.selectionsWhole (h : Runs svc crypto JobSafe a) {i : ℕ} {t : BackendThread}
    (ht : a.threads[i]? = some t) {stream : RowStream OracleLeagueRow}
    (hread : (⟨.query .weeklyPayoutLeagues, .ok stream⟩ : Sigma Ret) ∈ t.trace) :
    stream.err = none := by
  refine h.answered (T := fun _ _ _ call => ∀ stream : RowStream OracleLeagueRow,
    call = (⟨.query .weeklyPayoutLeagues, .ok stream⟩ : Sigma Ret) → stream.err = none) rfl
      (fun _ _ _ _ hcall => hcall) ?_ ht hread stream rfl
  rintro b c i t q r next - hl - - - stream heq
  cases heq
  exact hl.2

/-- A broken selection shows in the result exactly if there is none: the job never reports it. -/
theorem ErrorsReturned.unbroken (herrors : ErrorsReturned b) (h : Runs svc crypto ok a)
    (hstep : (backend svc crypto).Step a l b) : brokenSelection l = none := by
  by_contra hbroken
  obtain ⟨i, stream, rfl, herr⟩ : ∃ i stream,
      l = .call i (.query .weeklyPayoutLeagues) (.ok stream) ∧ stream.err ≠ none := by
    unfold brokenSelection at hbroken
    split at hbroken
    · exact ⟨_, _, rfl, hbroken⟩
    · exact absurd rfl hbroken
  obtain ⟨t, ht, hjob, htrace, hrest⟩ := h.selects hstep
  obtain ⟨ψ, r, hreturns, ⟨-, hlater⟩, hdone⟩ := hrest.grows.exists_returns nonempty_ret
  rw [htrace] at hlater
  obtain ⟨⟨resp, rfl⟩, -⟩ := hdone hjob stream hlater
  exact herrors i t ht stream (by rw [htrace]; exact List.mem_cons_self) herr resp hreturns

/-- A weekly run that has ended, and whose selection was not broken off, has looked at every league
that had a weekly entry. -/
theorem Runs.looksAtAll (h : Runs svc crypto ok a) {i : ℕ} {stream : RowStream OracleLeagueRow}
    (hstep : (backend svc crypto).Step a (.call i (.query .weeklyPayoutLeagues) (.ok stream)) b)
    (herr : stream.err = none) (hrun : (backend svc crypto).Reaches (fun _ _ => True) b c)
    {t : BackendThread} (ht : c.threads[i]? = some t) {r : Except GoError Response}
    (hdone : t.rest = .done r) : (∃ resp, r = .ok resp) ∧
      ∀ league ∈ a.world.db.leagues.rows, league.HasWeekly →
        Considered t.trace league.platform league.platformLeagueID := by
  obtain ⟨u, hu, hjob, htrace, -⟩ := h.selects hstep
  obtain ⟨v, hv, hjob', hlater⟩ := hrun.thread_later hu
  obtain rfl : t = v := Option.some.inj (ht.symm.trans hv)
  rw [htrace] at hlater
  have hreached : Runs svc crypto (fun _ _ => True) c :=
    Relation.ReflTransGen.trans ((h.mono fun _ _ _ => trivial).step trivial hstep) hrun
  have hfollows := follows_of_reaches hreached conforms_selectRule (by simp [initialConfig]) i t ht
  have hresult := hfollows.result hdone
  rw [phaseOf, history_phase] at hresult
  obtain ⟨hok, hlooks⟩ := hresult (hjob'.trans hjob) stream hlater
  refine ⟨hok, fun league hleague hweekly => ?_⟩
  have hanswer : Query.weeklyPayoutLeagues.Answers a.world.db stream := by
    cases hstep with
    | call _ _ _ hw => exact hw.2
  obtain ⟨selected, hselected, hplatform, hid, hentry⟩ :=
    selects_of_answers hanswer herr hleague hweekly
  rw [← hplatform, ← hid]
  exact hlooks selected hselected hentry

/-! ## The result -/

/-- Along every run in which settings that take effect have a list of entries and selections are not
broken off, every stored structure is an array of submitted entries, the selection of the weekly job
can be answered, and no error is swallowed. A further step keeps it so exactly if it meets the
condition as well, and then a weekly run that selects its leagues in it looks at every league with a
weekly entry before it ends. -/
theorem jobSafe_iff (h : Runs svc crypto JobSafe a) :
    ArraysStored a.world.db ∧
      (∃ stream, Query.weeklyPayoutLeagues.Answers a.world.db stream ∧ stream.err = none) ∧
      ErrorsReturned a ∧ ∀ l b, (backend svc crypto).Step a l b →
        ((ArraysStored b.world.db ∧ SettingsStored a l b ∧ ErrorsReturned b) ↔ JobSafe a l) ∧
        (JobSafe a l → ∀ i stream, l = .call i (.query .weeklyPayoutLeagues) (.ok stream) →
          ∀ c t r, (backend svc crypto).Reaches (fun _ _ => True) b c → c.threads[i]? = some t →
            t.rest = .done r → (∃ resp, r = .ok resp) ∧
              ∀ league ∈ a.world.db.leagues.rows, league.HasWeekly →
                Considered t.trace league.platform league.platformLeagueID) := by
  have herrors : ∀ {a}, Runs svc crypto JobSafe a → ErrorsReturned a :=
    fun h i t ht stream hread herr => absurd (h.selectionsWhole ht hread) herr
  have harrays : ArraysStored a.world.db := by
    induction h with
    | refl => simp [ArraysStored, initialConfig, Table.empty]
    | tail hrun hlast ih =>
      obtain ⟨l, hl, hstep⟩ := hlast
      exact ih.step hrun hstep hl
  refine ⟨harrays, harrays.selectable, herrors h, fun l b hstep => ⟨⟨?_, fun hl => ?_⟩, ?_⟩⟩
  · rintro ⟨harrays', -, herrors'⟩
    exact ⟨fun s hs leagueID hnull => harrays'.savesNull hstep hs hnull, herrors'.unbroken h hstep⟩
  · exact ⟨harrays.step h hstep hl, h.settingsStored hstep hl, herrors (h.step hl hstep)⟩
  · rintro hl i stream rfl c t r hrun ht hdone
    exact h.looksAtAll hstep hl.2 hrun ht hdone

/-- The result after a run of the weekly job for a league with a weekly entry. -/
theorem jobSafe_firstWeekly : ∃ a, Runs .mock .mock JobSafe a ∧
    (∃ r ∈ a.world.db.leagues.rows, r.HasWeekly) ∧ ArraysStored a.world.db ∧
      (∃ stream, Query.weeklyPayoutLeagues.Answers a.world.db stream ∧ stream.err = none) ∧
      ErrorsReturned a ∧ ∀ l b, (backend .mock .mock).Step a l b →
        ((ArraysStored b.world.db ∧ SettingsStored a l b ∧ ErrorsReturned b) ↔ JobSafe a l) ∧
        (JobSafe a l → ∀ i stream, l = .call i (.query .weeklyPayoutLeagues) (.ok stream) →
          ∀ c t r, (backend .mock .mock).Reaches (fun _ _ => True) b c → c.threads[i]? = some t →
            t.rest = .done r → (∃ resp, r = .ok resp) ∧
              ∀ league ∈ a.world.db.leagues.rows, league.HasWeekly →
                Considered t.trace league.platform league.platformLeagueID) := by
  obtain ⟨a, hrun, hweekly⟩ := (Schedule.fundedLeague Schedule.highScore ++
    Schedule.weekly 4 "e1").exists_run .mock .mock JobSafe
      (fun a => ∃ r ∈ a.world.db.leagues.rows, r.HasWeekly) (by decide)
  exact ⟨a, hrun, hweekly, jobSafe_iff hrun⟩

/-- One league has a weekly entry, and the settings of a second one are saved without a list. -/
def settingsWithoutList : Schedule :=
  Schedule.fundedLeague Schedule.highScore ++
    Schedule.importLeague 4 "u1" "sleeper"
      { PlatformLeague.mock "in_season" with platformLeagueID := "8" } [.mock "p1" 1 true]
      "00000000-0000-0000-0000-000000000002" ++
    [.spawn (.updateLeagueSettings "00000000-0000-0000-0000-000000000002" "u1" ⟨100, none⟩),
      .call 5 (.succeed 0 ""), .call 5 (.succeed 0 "f3")]

/-- The selection of the weekly job fails, so the first league is not looked at either. -/
theorem exists_job_stopped : ∃ a, Runs .mock .mock (fun _ _ => True) a ∧
    (∃ r ∈ a.world.db.leagues.rows, r.HasWeekly) ∧
      ∀ stream, ¬ Query.weeklyPayoutLeagues.Answers a.world.db stream := by
  obtain ⟨a, hrun, hweekly, r, hr, hmay, hnone⟩ := settingsWithoutList.exists_run .mock .mock
    (fun _ _ => True) (fun a => (∃ r ∈ a.world.db.leagues.rows, r.HasWeekly) ∧
      ∃ r ∈ a.world.db.leagues.rows, r.mayPayWeekly = true ∧
        r.oracleRow.payoutJSON.arrayLength? = none) (by decide)
  refine ⟨a, hrun, hweekly, fun stream hanswer => ?_⟩
  have hsome := hanswer.1 r (List.mem_filter.mpr ⟨hr, hmay⟩)
  rw [hnone] at hsome
  cases hsome

end Wagr
