import Wagr.Payouts.Checked
import Wagr.Payouts.KeptRules
import Wagr.Payouts.Ledger
import Wagr.Service.Rows
import Wagr.Service.Scenario

/-!
# Weekly bonuses and seasons

The status refresh leaves leagues of other seasons alone, the weekly job does not: it pays every
league that is in season, with the week of the platform's current season. A league gets there by an
import, or stays there when its season end was never settled. The events of a run belong to the
current season as long as no team with a wallet qualifies in a league of another season.
-/

namespace Wagr

open Interaction Protocol Relational

variable {svc : Service} {crypto : Crypto} {a b : BackendConfig} {l : BackendLabel}
  {ok : BackendConfig → BackendLabel → Prop} {req : Request} {trace later : List (Sigma Ret)}
  {leagueID : String} {α : Type}

/-! ## What an event is recorded for -/

/-- A team with a wallet qualifies in the matchups of the league. -/
def HasWinner (trace : List (Sigma Ret)) (leagueID : String) (members : List LeagueMember) : Prop :=
  ∃ entry week rosterID, Qualified trace leagueID entry week rosterID ∧
    ∃ member ∈ memberByRoster members rosterID, member.walletAddress ≠ ""

/-- The members of the league were read when a team had qualified, and it has a wallet. -/
def Recordable (trace : List (Sigma Ret)) (leagueID : String) : Prop :=
  ∃ stream earlier,
    (⟨.query (.leagueMembers leagueID), .ok stream⟩ : Sigma Ret) :: earlier <:+ trace ∧
      HasWinner earlier leagueID stream.rows

/-- The league for which a call records an event. -/
def Call.recordsFor : Call → Option String
  | .exec (.insertWeeklyEvent leagueID _ _ _ _ _ _ _) => some leagueID
  | _ => none

/-- Events are recorded for teams that qualify and have a wallet. -/
def recordRule (_ : Request) (trace : List (Sigma Ret)) (c : Call) : Prop :=
  ∀ leagueID ∈ c.recordsFor, Recordable trace leagueID

/-- The call records no event. -/
def Call.recordsNothing (c : Call) : Prop := c.recordsFor = none

/-- What may be recorded may be recorded later. -/
theorem Recordable.mono (h : Recordable trace leagueID) (hlater : trace <:+ later) :
    Recordable later leagueID := by
  obtain ⟨stream, earlier, hsuffix, hwinner⟩ := h
  exact ⟨stream, earlier, hsuffix.trans hlater, hwinner⟩

/-- Other calls are always allowed. -/
theorem Call.recordsNothing.recordRule {c : Call} (h : c.recordsNothing) :
    recordRule req later c := by
  intro leagueID hleague
  rw [h] at hleague
  cases hleague

/-- A program that records nothing conforms and extends the trace. -/
theorem conforms_recordsNothing {x : Job α} (hx : Calls Call.recordsNothing x) :
    (history recordRule).Conforms (req, trace) x fun φ _ => φ.1 = req ∧ trace <:+ φ.2 :=
  conforms_history (hx.weaken fun _ hc _ _ => hc.recordRule)

/-- The event of a qualifier with a wallet may be recorded. -/
theorem conforms_recordWeeklyEvent_recordable {league : OracleLeague} {week : ℤ}
    {stream : RowStream LeagueMember} {entry : PayoutEntry} {m : PlatformMatchup}
    {earlier : List (Sigma Ret)}
    (hread : (⟨.query (.leagueMembers league.id), .ok stream⟩ : Sigma Ret) :: earlier <:+ trace)
    (hqualified : Qualified earlier league.id entry week m.rosterID) :
    (history recordRule).Conforms (req, trace)
      (recordWeeklyEvent league week stream.rows entry m).run fun φ _ =>
        φ.1 = req ∧ trace <:+ φ.2 := by
  unfold recordWeeklyEvent
  split
  · exact ⟨rfl, List.suffix_rfl⟩
  · rename_i member hmember
    refine conforms_run_ite.mpr ⟨fun _ => ⟨rfl, List.suffix_rfl⟩, fun hwallet => ?_⟩
    have hrecordable : Recordable trace league.id :=
      ⟨stream, earlier, hread, entry, week, m.rosterID, hqualified, member, hmember, hwallet⟩
    have hallowed : recordRule req trace (.exec (.insertWeeklyEvent league.id week m.rosterID
        member.platformUserID entry.bonusType m.points entry.amountCents
          member.walletAddress)) := by
      rintro leagueID ⟨⟩
      exact hrecordable
    refine conforms_run_bind.mpr (conforms_wrapErr.mpr (conforms_exec.mpr
      ⟨hallowed, fun _ => ?_, fun _ => ?_⟩))
    · exact ⟨rfl, List.suffix_cons _ _⟩
    · exact ⟨rfl, List.suffix_cons _ _⟩

/-- The payout of a selected league records events of qualifiers with wallets. -/
theorem conforms_processWeekly_recordable {league : OracleLeague} {entries : List PayoutEntry}
    {week : ℤ} {selection : RowStream OracleLeagueRow}
    (hselected : (⟨.query .weeklyPayoutLeagues, .ok selection⟩ : Sigma Ret) ∈ trace)
    (hleague : league ∈ selection.rows.filterMap OracleLeagueRow.load)
    (hentries : ∀ e ∈ entries, e ∈ league.payoutStructure ∧ e.type = "weekly") :
    (history recordRule).Conforms (req, trace)
      (processWeeklyPayoutsForLeague svc league entries week).run fun φ _ =>
        φ.1 = req ∧ trace <:+ φ.2 := by
  refine conforms_run_bind.mpr (conforms_wrapErr.mpr
    ⟨(fun _ h => nomatch h), fun matchups => ?_⟩)
  have hfirst := List.suffix_cons
    ⟨.platformMatchups league.platform league.platformLeagueID week, matchups⟩ trace
  cases matchups with
  | error e => exact ⟨rfl, hfirst⟩
  | ok matchups =>
    refine conforms_run_bind.mpr (conforms_wrapErr.mpr (conforms_run_bind.mpr (conforms_wrapErr.mpr
      (conforms_query.mpr ⟨(fun _ h => nomatch h), fun stream => ?_, fun e => ⟨rfl, ?_⟩⟩))))
    · -- the loops record events of teams that had qualified before the members were read
      refine conforms_run_bind.mpr ((conforms_run_forM
        (I := fun φ : Request × List (Sigma Ret) => φ.1 = req ∧
          (⟨.query (.leagueMembers league.id), .ok stream⟩ : Sigma Ret) ::
            ⟨.platformMatchups league.platform league.platformLeagueID week, .ok matchups⟩ ::
              trace <:+ φ.2) ?_ ⟨rfl, List.suffix_rfl⟩).mono ?_)
      · rintro entry hentry φ hφ
        refine conforms_run_forM ?_ hφ
        rintro m hm ⟨req, later⟩ ⟨rfl, hlater⟩
        obtain ⟨hmem, htype⟩ := hentries entry hentry
        have hqualified :
            Qualified (⟨.platformMatchups league.platform league.platformLeagueID week,
            .ok matchups⟩ :: trace) league.id entry week m.rosterID :=
          ⟨selection, List.mem_cons_of_mem _ hselected, league, hleague, rfl, hmem, htype, matchups,
            List.mem_cons_self, m, hm, rfl⟩
        exact (conforms_recordWeeklyEvent_recordable hlater hqualified).mono
          fun _ _ h => ⟨h.1, hlater.trans h.2⟩
      · rintro ⟨req, later⟩ recorded ⟨rfl, hlater⟩
        have hgrow := hfirst.trans ((List.suffix_cons _ _).trans hlater)
        cases recorded with
        | error e => exact ⟨rfl, hgrow⟩
        | ok recorded =>
          have hrest : Calls Call.recordsNothing (do
              let stream ← wrapErr "failed to load unexecuted weekly events"
                (query (.unexecutedEvents league.id week))
              if stream.rows = [] then return else payWeeklyEvents svc league stream.rows :
                Go Unit).run := by
            refine .run_bind (.wrapErr (.query rfl)) fun stream => ?_
            refine .run_ite (fun _ => trivial) fun _ => ?_
            exact calls_payWeeklyEvents (fun _ => rfl) (fun _ _ => rfl) (fun _ _ _ _ => rfl)
              (fun _ => rfl) fun _ _ => rfl
          exact (conforms_recordsNothing hrest).mono fun _ _ h => ⟨h.1, hgrow.trans h.2⟩
    · exact hfirst.trans (List.suffix_cons _ _)

/-- A round of the weekly job records events of qualifiers with wallets. -/
theorem conforms_weeklyRound_recordable {league : OracleLeague}
    {selection : RowStream OracleLeagueRow}
    (hselected : (⟨.query .weeklyPayoutLeagues, .ok selection⟩ : Sigma Ret) ∈ trace)
    (hleague : league ∈ selection.rows.filterMap OracleLeagueRow.load) :
    (history recordRule).Conforms (req, trace) (weeklyRound svc league) fun φ _ =>
      φ.1 = req ∧ trace <:+ φ.2 := by
  refine conforms_ite.mpr ⟨fun _ => ⟨rfl, List.suffix_rfl⟩, fun _ => ?_⟩
  refine conforms_bind.mpr ⟨(fun _ h => nomatch h), fun week => ?_⟩
  cases week with
  | error e => exact ⟨rfl, List.suffix_cons _ _⟩
  | ok w =>
    refine conforms_ite.mpr ⟨fun _ => ⟨rfl, List.suffix_cons _ _⟩, fun _ => conforms_bind.mpr ?_⟩
    refine (conforms_processWeekly_recordable (List.mem_cons_of_mem _ hselected) hleague
      fun e he => ?_).mono fun _ _ h => ⟨h.1, (List.suffix_cons _ _).trans h.2⟩
    obtain ⟨hmem, htype⟩ := List.mem_filter.mp he
    exact ⟨hmem, of_decide_eq_true htype⟩

/-- Every request records events of qualifiers with wallets only. -/
theorem conforms_recordRule (req : Request) :
    (history recordRule).Conforms (req, []) ((backend svc crypto).body req) fun _ _ => True := by
  by_cases hreq : req = .runWeeklyPayoutJob
  · subst hreq
    refine conforms_toDone (conforms_run_ite.mpr ⟨fun _ => ?_, fun _ => trivial⟩)
    refine conforms_run_bind.mpr (conforms_wrapErr.mpr (conforms_query.mpr
      ⟨(fun _ h => nomatch h), fun selection => conforms_run_lift.mpr ?_, fun _ => trivial⟩))
    refine (conforms_forM (I := fun φ : Request × List (Sigma Ret) =>
      (⟨.query .weeklyPayoutLeagues, .ok selection⟩ : Sigma Ret) ∈ φ.2) ?_
        List.mem_cons_self).mono fun _ _ _ => trivial
    rintro league hleague ⟨req, trace⟩ hselected
    exact (conforms_weeklyRound_recordable hselected hleague).mono
      fun φ _ h => h.2.subset hselected
  · have hcalls : Calls Call.recordsNothing ((backend svc crypto).body req) := by
      refine (calls_request req).weaken fun c hc => ?_
      cases c with
      | exec s =>
        cases s with
        | insertWeeklyEvent =>
          cases req with
          | runWeeklyPayoutJob => exact absurd rfl hreq
          | _ => exact hc.elim
        | _ => rfl
      | _ => rfl
    exact (conforms_recordsNothing hcalls).mono fun _ _ _ => trivial

/-! ## Runs -/

/-- A run that has recorded an event of a league had a qualifier with a wallet for it. -/
theorem Runs.recordable (h : Runs svc crypto ok a) {i : ℕ} {t : BackendThread}
    (ht : a.threads[i]? = some t) {call : Sigma Ret} (hcall : call ∈ t.trace)
    (hrecords : leagueID ∈ call.1.recordsFor) : Recordable t.trace leagueID := by
  refine trace_of_reaches (T := fun _ trace => ∀ call ∈ trace, ∀ leagueID ∈ Call.recordsFor call.1,
    Recordable trace leagueID) h rfl conforms_recordRule (by simp) ?_ ht List.suffix_rfl call hcall
      leagueID hrecords
  intro j trace c r hallows hold call hcall leagueID hrecords
  refine Recordable.mono ?_ (List.suffix_cons _ _)
  rcases List.mem_cons.mp hcall with rfl | hcall
  · rw [history_phase] at hallows
    exact hallows leagueID hrecords
  · exact hold call hcall leagueID hrecords

/-- The leagues a weekly run has selected have IDs that were drawn. -/
theorem Runs.selected_issued (h : Runs svc crypto ok a) {i : ℕ} {t : BackendThread}
    (ht : a.threads[i]? = some t) {selection : RowStream OracleLeagueRow}
    (hread : (⟨.query .weeklyPayoutLeagues, .ok selection⟩ : Sigma Ret) ∈ t.trace)
    {o : OracleLeagueRow} (ho : o ∈ selection.rows) : o.id ∈ a.world.issued := by
  refine h.answered (T := fun a _ _ call => ∀ selection : RowStream OracleLeagueRow,
    call = (⟨.query .weeklyPayoutLeagues, .ok selection⟩ : Sigma Ret) → ∀ o ∈ selection.rows,
      o.id ∈ a.world.issued) rfl ?_ ?_ ht hread selection rfl o ho
  · exact fun hstep _ _ _ hcall selection heq o ho => step_issued hstep (hcall selection heq o ho)
  · rintro b c i t q r next hrun - hstep - - selection heq o ho
    cases heq
    have hanswer : Query.weeklyPayoutLeagues.Answers b.world.db selection := by
      cases hstep with
      | call _ _ _ hw => exact hw.2
    obtain ⟨r, hr, rfl⟩ := List.mem_map.mp (hanswer.2.mem ho)
    have hr := (List.mem_filter.mp (List.mem_filter.mp hr).1).1
    exact step_issued hstep ((Runs.references hrun).leagues r hr)

/-- The league is of the season that is its platform's current one during run `i`. -/
def InSeason (current : ℕ → String → String) (a : BackendConfig) (i : ℕ)
    (leagueID : String) : Prop :=
  ∀ r ∈ a.world.db.leagues.rows, r.id = leagueID → r.season = current i r.platform

/-- A league stays in its season. -/
theorem InSeason.step {current : ℕ → String → String} {i : ℕ} (h : InSeason current a i leagueID)
    (hissued : leagueID ∈ a.world.issued) (hstep : (backend svc crypto).Step a l b) :
    InSeason current b i leagueID := by
  intro r' hr' hid
  rcases step_row hstep hr' with
    ⟨r, hr, rfl | ⟨now, s, -, hmoves⟩⟩ | ⟨league, now, fresh, rfl, hfresh, -⟩
  · exact h r' hr hid
  · obtain ⟨hplatform, hseason⟩ := hmoves.season
    rw [hplatform, hseason]
    exact h r hr (hmoves.id.symm.trans hid)
  · have hid : fresh = leagueID := hid
    exact absurd (hid ▸ hissued) hfresh

/-- The members of a league in which a team with a wallet qualifies are read only if the league is
of the current season. -/
def PaysCurrent (current : ℕ → String → String) (a : BackendConfig) (l : BackendLabel) : Prop :=
  ∀ i leagueID stream, l = .call i (.query (.leagueMembers leagueID)) (.ok stream) →
    ∀ t, a.threads[i]? = some t → HasWinner t.trace leagueID stream.rows →
      InSeason current a i leagueID

/-- Where a team with a wallet has qualified, the league is of the current season. -/
def WinnersCurrent (current : ℕ → String → String) (a : BackendConfig) : Prop :=
  ∀ (i : ℕ) (t : BackendThread), a.threads[i]? = some t → ∀ leagueID stream earlier,
    (⟨.query (.leagueMembers leagueID), .ok stream⟩ : Sigma Ret) :: earlier <:+ t.trace →
      HasWinner earlier leagueID stream.rows →
        leagueID ∈ a.world.issued ∧ InSeason current a i leagueID

/-- This is kept by every step that meets the condition. -/
theorem WinnersCurrent.step {current : ℕ → String → String} (hinv : WinnersCurrent current a)
    (h : Runs svc crypto ok a) (hstep : (backend svc crypto).Step a l b)
    (hl : PaysCurrent current a l) :
    WinnersCurrent current b := by
  have hkeep : ∀ {i leagueID}, leagueID ∈ a.world.issued ∧ InSeason current a i leagueID →
      leagueID ∈ b.world.issued ∧ InSeason current b i leagueID :=
    fun hcurrent => ⟨step_issued hstep hcurrent.1, hcurrent.2.step hcurrent.1 hstep⟩
  intro i t' ht' leagueID stream earlier hsuffix hwinner
  rcases hstep.thread_cases ht' with ⟨j, rfl, rfl⟩ | ⟨hbefore, -⟩ | ⟨t, rfl, ht, rfl⟩ |
    ⟨t, c, r, next, rfl, ht, -, -, -, rfl⟩
  · cases List.suffix_nil.mp hsuffix
  · exact hkeep (hinv i t' hbefore leagueID stream earlier hsuffix hwinner)
  · exact hkeep (hinv i t ht leagueID stream earlier hsuffix hwinner)
  · rcases List.suffix_cons_iff.mp hsuffix with heq | hsuffix
    · obtain ⟨hcall, rfl⟩ := List.cons.inj heq
      cases hcall
      refine hkeep ⟨?_, hl i leagueID stream rfl t ht hwinner⟩
      obtain ⟨entry, week, rosterID, hqualified, -⟩ := hwinner
      obtain ⟨selection, hread, league, hleague, rfl, -⟩ := hqualified
      obtain ⟨o, ho, hload⟩ := List.mem_filterMap.mp hleague
      have hid : o.id = league.id := by
        obtain ⟨entries, -, rfl⟩ := Option.map_eq_some_iff.mp hload
        rfl
      exact hid ▸ h.selected_issued ht hread ho
    · exact hkeep (hinv i t ht leagueID stream earlier hsuffix hwinner)

/-- Every event was recorded by the call of some run. -/
theorem Runs.events_called (h : Runs svc crypto ok a) {e : WeeklyEventRow}
    (he : e ∈ a.world.db.weeklyEvents.rows) : ∃ user points wallet,
      Called a (.insertWeeklyEvent e.leagueID e.week e.rosterID user e.payoutType points
        e.amountCents wallet) := by
  induction h generalizing e with
  | refl => simp [initialConfig, Table.empty] at he
  | tail hrun hlast ih =>
    obtain ⟨l, -, hstep⟩ := hlast
    rcases step_event hstep he with ⟨e₀, he₀, hsame⟩ | ⟨-, -, -, -, hs⟩
    · obtain ⟨user, points, wallet, hcalled⟩ := ih he₀
      have hkey := hsame.key
      simp only [WeeklyEventRow.key, Prod.mk.injEq] at hkey
      obtain ⟨hleague, hweek, hroster, htype⟩ := hkey
      rw [hleague, hweek, hroster, htype, hsame.amountCents]
      exact ⟨user, points, wallet, hcalled.step hstep⟩
    · exact ⟨_, _, _, Runs.applied_called hrun hstep hs⟩

/-! ## The result -/

/-- Along every run in which no weekly run reads the members of a league of another season when a
team with a wallet has qualified there, every event that a run records is for a league of the season
that is current during the run, and every event there is was recorded by some run. -/
theorem eventsCurrent_of_paysCurrent (current : ℕ → String → String)
    (h : Runs svc crypto (PaysCurrent current) a) :
    (∀ (i : ℕ) (t : BackendThread), a.threads[i]? = some t → ∀ call ∈ t.trace,
      ∀ leagueID ∈ call.1.recordsFor, InSeason current a i leagueID) ∧
      ∀ e ∈ a.world.db.weeklyEvents.rows, ∃ user points wallet,
        Called a (.insertWeeklyEvent e.leagueID e.week e.rosterID user e.payoutType points
          e.amountCents wallet) := by
  have hinv : WinnersCurrent current a := by
    induction h with
    | refl => simp [WinnersCurrent, initialConfig]
    | tail hrun hlast ih =>
      obtain ⟨l, hl, hstep⟩ := hlast
      exact ih.step hrun hstep hl
  refine ⟨fun i t ht call hcall leagueID hrecords => ?_, fun e he => h.events_called he⟩
  obtain ⟨stream, earlier, hsuffix, hwinner⟩ := h.recordable ht hcall hrecords
  exact (hinv i t ht leagueID stream earlier hsuffix hwinner).2

/-- The thread and the league of members that are read in the step. -/
def membersRead : BackendLabel → Option (ℕ × String)
  | .call i (.query (.leagueMembers leagueID)) (.ok _) => some (i, leagueID)
  | _ => none

instance (current : ℕ → String → String) (a : BackendConfig) (i : ℕ) (leagueID : String) :
    Decidable (InSeason current a i leagueID) :=
  inferInstanceAs (Decidable (∀ r ∈ a.world.db.leagues.rows, r.id = leagueID →
    r.season = current i r.platform))

/-- Members are read of leagues of the current season only. -/
def ReadsCurrent (current : ℕ → String → String) (a : BackendConfig) (l : BackendLabel) : Prop :=
  ∀ read ∈ membersRead l, InSeason current a read.1 read.2

instance (current : ℕ → String → String) (a : BackendConfig) (l : BackendLabel) :
    Decidable (ReadsCurrent current a l) :=
  inferInstanceAs (Decidable (∀ read ∈ membersRead l, InSeason current a read.1 read.2))

/-- Then the condition on qualifiers is met. -/
theorem ReadsCurrent.paysCurrent {current : ℕ → String → String} (h : ReadsCurrent current a l) :
    PaysCurrent current a l := by
  rintro i leagueID stream rfl - - -
  exact h _ rfl

/-- The result for a weekly run in the season of its league, which records an event. -/
theorem eventsCurrent_sameSeason : ∃ a,
    Runs .mock .mock (PaysCurrent fun _ _ => "2024") a ∧ a.world.db.weeklyEvents.rows ≠ [] ∧
    (∀ (i : ℕ) (t : BackendThread), a.threads[i]? = some t → ∀ call ∈ t.trace,
      ∀ leagueID ∈ call.1.recordsFor, InSeason (fun _ _ => "2024") a i leagueID) ∧
      ∀ e ∈ a.world.db.weeklyEvents.rows, ∃ user points wallet,
        Called a (.insertWeeklyEvent e.leagueID e.week e.rosterID user e.payoutType points
          e.amountCents wallet) := by
  obtain ⟨a, hreads, hsome⟩ := (Schedule.fundedLeague Schedule.highScore ++
    Schedule.weekly 4 "e1").exists_run .mock .mock (ReadsCurrent fun _ _ => "2024")
      (fun a => a.world.db.weeklyEvents.rows ≠ []) (by decide)
  have hrun : Runs .mock .mock (PaysCurrent fun _ _ => "2024") a :=
    hreads.mono fun _ _ h => h.paysCurrent
  exact ⟨a, hrun, hsome, eventsCurrent_of_paysCurrent _ hrun⟩

/-- In 2025 a weekly run records an event of a league of 2024 that is still in season. -/
theorem exists_event_of_old_season : ∃ a, Runs .mock .mock (fun _ _ => True) a ∧
    ∃ (i : ℕ) (t : BackendThread), a.threads[i]? = some t ∧ ∃ call ∈ t.trace,
      ∃ leagueID ∈ call.1.recordsFor, (∃ e ∈ a.world.db.weeklyEvents.rows, e.leagueID = leagueID) ∧
        ¬ InSeason (fun _ _ => "2025") a i leagueID := by
  obtain ⟨a, hrun, t, ht, hrest⟩ := (Schedule.fundedLeague Schedule.highScore ++
    Schedule.weekly 4 "e1").exists_run .mock .mock (fun _ _ => True)
      (fun a => ∃ t ∈ a.threads[4]?, ∃ call ∈ t.trace, ∃ leagueID ∈ call.1.recordsFor,
        (∃ e ∈ a.world.db.weeklyEvents.rows, e.leagueID = leagueID) ∧
          ¬ InSeason (fun _ _ => "2025") a 4 leagueID) (by decide)
  exact ⟨a, hrun, 4, t, ht, hrest⟩

end Wagr
