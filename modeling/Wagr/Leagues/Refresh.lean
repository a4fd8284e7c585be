import Wagr.Leagues.Forward
import Wagr.Library.Solo
import Wagr.Service.Scenario

/-!
# A status refresh that runs alone

A refresh that nothing interrupts and whose statements report no errors brings every league to
where the platform's answers lead no further. A second refresh that is given the same answers
then finds nothing to update.
-/

namespace Wagr

open Interaction Protocol System

/-- What the platforms answer to the status refresh. -/
structure PlatformAnswers where
  season : (platform : String) → Except GoError String
  league : (platform platformLeagueID : String) → Except GoError PlatformLeague

/-- A league as the refresh reads it. -/
def LeagueRow.refreshView (r : LeagueRow) : StatusRefreshLeague :=
  ⟨r.id, r.platform, r.platformLeagueID, r.season, r.status.getD ""⟩

namespace PlatformAnswers

variable (answers : PlatformAnswers)

/-- Calls to the platform are answered with these answers. -/
def Gives : Sigma Ret → Prop
  | ⟨.currentSeason platform, r⟩ => r = answers.season platform
  | ⟨.platformLeague platform platformLeagueID, r⟩ => r = answers.league platform platformLeagueID
  | _ => True

/-- Calls to the platform are answered with these answers, and no statement reports an error. -/
def GivesWithoutErrors : Sigma Ret → Prop
  | ⟨.exec _, .error _⟩ => False
  | call => answers.Gives call

instance : DecidablePred answers.Gives := by
  rintro ⟨_ | _, r⟩ <;> unfold Gives <;> infer_instance

instance : DecidablePred answers.GivesWithoutErrors := by
  rintro ⟨_ | _, _ | _⟩ <;> unfold GivesWithoutErrors <;> infer_instance

/-- Answers without errors are these answers. -/
theorem GivesWithoutErrors.gives {call : Sigma Ret} (h : answers.GivesWithoutErrors call) :
    answers.Gives call := by
  obtain ⟨c, r⟩ := call
  cases c with
  | exec s => trivial
  | _ => exact h

/-- The refresh has nothing to update in the row. -/
def Settles (r : LeagueRow) : Prop :=
  r.needsRefresh = true → answers.season r.platform = .ok r.season →
    ∀ pl, answers.league r.platform r.platformLeagueID = .ok pl →
      (nextLeagueStatus (r.status.getD "") pl.status).2 = false

/-- Every row is settled or still to be refreshed, and what is to be refreshed is known under
the names the platform uses. -/
structure Pending (todo : List StatusRefreshLeague) (w : World) : Prop where
  rows : ∀ r ∈ w.db.leagues.rows, answers.Settles r ∨ r.refreshView ∈ todo
  names : ∀ l ∈ todo, ∀ r ∈ w.db.leagues.rows, r.id = l.id →
    r.platform = l.platform ∧ r.platformLeagueID = l.platformLeagueID

variable {answers} {w : World} {l : StatusRefreshLeague} {todo : List StatusRefreshLeague}

/-- A league that needs no update is done. -/
theorem Pending.skip (h : answers.Pending (l :: todo) w)
    (hl : ∀ r ∈ w.db.leagues.rows, r.refreshView = l → answers.Settles r) :
    answers.Pending todo w := by
  refine ⟨fun r hr => ?_, fun l' hl' => h.names l' (List.mem_cons_of_mem _ hl')⟩
  rcases h.rows r hr with hsettled | hmem
  · exact .inl hsettled
  · rcases List.mem_cons.mp hmem with heq | hmem
    · exact .inl (hl r hr heq)
    · exact .inr hmem

/-- A league that is updated is done. -/
theorem Pending.update {now n : ℕ} {fresh : String} {pl : PlatformLeague} {db : Database}
    (h : answers.Pending (l :: todo) w)
    (hleague : answers.league l.platform l.platformLeagueID = .ok pl)
    (hnext : (nextLeagueStatus l.status pl.status).2 = true)
    (hrun : (Statement.updateLeagueStatus l.id l.status (nextLeagueStatus l.status pl.status).1).run
      now fresh w.db = some (n, db)) {issued : List String} :
    answers.Pending todo { w with db := db, issued := issued } := by
  refine ⟨fun r' hr' => ?_, fun l' hl' r' hr' hid => ?_⟩
  · obtain ⟨r, hr, rfl⟩ := (mem_updateLeagueStatus hrun).mp hr'
    split
    · rename_i hmatch
      refine .inl fun _ _ pl' hpl' => ?_
      obtain ⟨hplatform, hid⟩ := h.names l List.mem_cons_self r hr hmatch.1
      simp only [hplatform, hid] at hpl'
      obtain rfl := Except.ok.inj (hleague.symm.trans hpl')
      exact nextLeagueStatus_settled hnext
    · rename_i hother
      rcases h.rows r hr with hsettled | hmem
      · exact .inl hsettled
      · rcases List.mem_cons.mp hmem with heq | hmem
        · subst heq
          exact absurd ⟨rfl, rfl⟩ hother
        · exact .inr hmem
  · obtain ⟨r, hr, heq⟩ := (mem_updateLeagueStatus hrun).mp hr'
    have hsame : r'.id = r.id ∧ r'.platform = r.platform ∧
        r'.platformLeagueID = r.platformLeagueID := by
      subst heq
      split <;> exact ⟨rfl, rfl, rfl⟩
    rw [hsame.2.1, hsame.2.2]
    exact h.names l' (List.mem_cons_of_mem _ hl') r hr (hsame.1.symm.trans hid)

/-- When nothing is left to be refreshed, every row is settled. -/
theorem Pending.settles (h : answers.Pending [] w) :
    ∀ r ∈ w.db.leagues.rows, answers.Settles r := by
  intro r hr
  rcases h.rows r hr with hsettled | hmem
  · exact hsettled
  · cases hmem

end PlatformAnswers

section Rules

variable {svc : Service} {crypto : Crypto} {answers : PlatformAnswers} {allows : Call → Prop}
  {may : Sigma Ret → Prop} {φ : Set World}

variable (answers) in
/-- The season lookups find the platforms' seasons and change nothing. -/
theorem conforms_currentSeasons (hallows : ∀ platform, allows (.currentSeason platform))
    (hmay : ∀ call, may call → answers.Gives call) (platforms : List String) :
    ((backend svc crypto).worlds allows may).Conforms φ (currentSeasons platforms)
      fun ψ seasons => ∀ w ∈ ψ, w ∈ φ ∧
        (∀ platform season, seasons.lookup platform = some season →
          answers.season platform = .ok season) ∧
        ∀ platform ∈ platforms, ∀ season, answers.season platform = .ok season →
          seasons.lookup platform = some season := by
  induction platforms generalizing φ with
  | nil => exact fun w hw => ⟨hw, by simp, by simp⟩
  | cons p platforms ih =>
    refine conforms_bind.mpr (conforms_call'.mpr ⟨fun _ => hallows p, fun r => ?_⟩)
    refine conforms_bind.mpr (ih.mono fun ψ seasons hψ => ?_)
    cases r with
    | error e =>
      intro w hw
      obtain ⟨⟨hanswer, w', hw', hsame⟩, hsound, hcomplete⟩ := hψ w hw
      have hp : Except.error e = answers.season p := hmay _ hanswer
      obtain rfl : w = w' := hsame
      refine ⟨hw', hsound, fun platform hplatform season hseason => ?_⟩
      rcases List.mem_cons.mp hplatform with rfl | hplatform
      · rw [hseason] at hp
        cases hp
      · exact hcomplete platform hplatform season hseason
    | ok found =>
      intro w hw
      obtain ⟨⟨hanswer, w', hw', hsame⟩, hsound, hcomplete⟩ := hψ w hw
      have hp : Except.ok found = answers.season p := hmay _ hanswer
      obtain rfl : w = w' := hsame
      refine ⟨hw', fun platform season hlookup => ?_, fun platform hplatform season hseason => ?_⟩
      · by_cases heq : platform = p
        · subst heq
          simp only [List.lookup_cons_self, Option.some.injEq] at hlookup
          rw [← hp, hlookup]
        · rw [List.lookup_cons, beq_eq_false_iff_ne.mpr heq] at hlookup
          exact hsound platform season hlookup
      · by_cases heq : platform = p
        · subst heq
          rw [← hp, Except.ok.injEq] at hseason
          rw [List.lookup_cons_self, hseason]
        · rw [List.lookup_cons, beq_eq_false_iff_ne.mpr heq]
          exact hcomplete platform ((List.mem_cons.mp hplatform).resolve_left heq) season hseason

variable (answers) in
/-- The status lookup returns the platform's status and changes nothing. -/
theorem conforms_fetchPlatformStatus {platform platformLeagueID : String}
    (hallows : allows (.platformLeague platform platformLeagueID))
    (hmay : ∀ call, may call → answers.Gives call) :
    ((backend svc crypto).worlds allows may).Conforms φ
      (fetchPlatformStatus platform platformLeagueID).run fun ψ r => ∀ w ∈ ψ, w ∈ φ ∧
        r = (answers.league platform platformLeagueID).map PlatformLeague.status := by
  refine conforms_run_bind.mpr
    (conforms_run_mk.mpr (conforms_call'.mpr ⟨fun _ => hallows, fun r => ?_⟩))
  cases r with
  | error e =>
    rintro w ⟨hanswer, w', hw', hsame⟩
    have hr : Except.error e = answers.league platform platformLeagueID := hmay _ hanswer
    obtain rfl : w = w' := hsame
    exact ⟨hw', by rw [← hr]; rfl⟩
  | ok pl =>
    rintro w ⟨hanswer, w', hw', hsame⟩
    have hr : Except.ok pl = answers.league platform platformLeagueID := hmay _ hanswer
    obtain rfl : w = w' := hsame
    exact ⟨hw', by rw [← hr]; rfl⟩

/-- The leagues the refresh reads are those of the rows it looks at. -/
theorem mem_statusRefreshLeagues {db : Database} {stream : RowStream StatusRefreshLeague}
    (h : Query.statusRefreshLeagues.Answers db stream) :
    (∀ l ∈ stream.rows, ∃ r ∈ db.leagues.rows, r.needsRefresh = true ∧ r.refreshView = l) ∧
      (stream.err = none → ∀ r ∈ db.leagues.rows, r.needsRefresh = true →
        r.refreshView ∈ stream.rows) := by
  obtain ⟨order, hperm, -, hsome, hall⟩ := h
  have hmem : ∀ l, l ∈ order ↔ ∃ r ∈ db.leagues.rows, r.needsRefresh = true ∧
      r.refreshView = l := by
    intro l
    rw [hperm.mem_iff, List.mem_map]
    simp only [List.mem_filter, and_assoc]
    rfl
  refine ⟨fun l hl => (hmem l).mp (hsome.subset hl), fun herr r hr hneeds => ?_⟩
  rw [hall herr]
  exact (hmem _).mpr ⟨r, hr, hneeds, rfl⟩

/-- What the refresh has selected are the leagues of its candidates' rows. -/
theorem pending_candidates {w : World} {stream : RowStream StatusRefreshLeague}
    {seasons : List (String × String)} (hrows : Query.statusRefreshLeagues.Answers w.db stream)
    (herr : stream.err = none)
    (hseasons : ∀ platform ∈ (stream.rows.map StatusRefreshLeague.platform).eraseDups, ∀ season,
      answers.season platform = .ok season → seasons.lookup platform = some season) :
    answers.Pending (filterCurrentSeasonLeagues stream.rows seasons) w := by
  obtain ⟨hsound, hcomplete⟩ := mem_statusRefreshLeagues hrows
  refine ⟨fun r hr => ?_, fun l hl r hr hid => ?_⟩
  · by_cases hneeds : r.needsRefresh = true
    · by_cases hseason : answers.season r.platform = .ok r.season
      · have hmem := hcomplete herr r hr hneeds
        have hplatform : r.platform ∈ (stream.rows.map StatusRefreshLeague.platform).eraseDups :=
          List.mem_eraseDups.mpr (List.mem_map_of_mem hmem)
        refine .inr (List.mem_filter.mpr ⟨hmem, ?_⟩)
        exact decide_eq_true (hseasons _ hplatform _ hseason)
      · exact .inl fun _ h => absurd h hseason
    · exact .inl fun h => absurd h hneeds
  · obtain ⟨r₀, hr₀, -, rfl⟩ := hsound l (List.mem_filter.mp hl).1
    obtain rfl := Relational.Table.eq_of_key hr hr₀ hid
    exact ⟨rfl, rfl⟩

/-! ## The first refresh -/

/-- A round of the loop finishes its league. -/
theorem conforms_refreshLeagueStatus {l : StatusRefreshLeague} {todo : List StatusRefreshLeague}
    (hφ : ∀ w ∈ φ, answers.Pending (l :: todo) w) :
    ((backend svc crypto).worlds (fun _ => True) answers.GivesWithoutErrors).Conforms φ
      (refreshLeagueStatus fetchPlatformStatus updateStatus l)
        fun ψ _ => ∀ w ∈ ψ, answers.Pending todo w := by
  refine conforms_bind.mpr ((conforms_fetchPlatformStatus answers trivial
    fun _ h => h.gives).mono fun ψ r hψ => ?_)
  cases r with
  | error e =>
    intro w hw
    obtain ⟨hw, hr⟩ := hψ w hw
    refine (hφ w hw).skip fun row _ hview _ _ pl hpl => ?_
    subst hview
    simp only [LeagueRow.refreshView, hpl, Except.map] at hr
    cases hr
  | ok status =>
    have hskip : (nextLeagueStatus l.status status).2 = false →
        ∀ w ∈ ψ, answers.Pending todo w := by
      intro hnone w hw
      obtain ⟨hw, hr⟩ := hψ w hw
      refine (hφ w hw).skip fun row _ hview _ _ pl hpl => ?_
      subst hview
      simp only [LeagueRow.refreshView, hpl, Except.map, Except.ok.injEq] at hr
      subst hr
      exact hnone
    refine conforms_ite.mpr ⟨fun hunknown => ?_, fun _ => conforms_ite.mpr ⟨fun hnext => ?_,
      fun hnone => ?_⟩⟩
    · refine hskip (Bool.eq_false_iff.mpr fun hnext => ?_)
      have hranked : ∀ status ∈ rankedStatuses, (leagueStatusRank status).isNone = false := by
        decide
      rw [hranked status (ranked_of_nextLeagueStatus hnext).2] at hunknown
      cases hunknown
    · refine conforms_bind.mpr (conforms_run_bind.mpr (conforms_exec.mpr
        ⟨fun _ => trivial, fun n => ?_, fun e => ?_⟩))
      · rintro w' ⟨-, w, hw, now, fresh, db, -, hrun, rfl⟩
        obtain ⟨hw, hr⟩ := hψ w hw
        cases hleague : answers.league l.platform l.platformLeagueID with
        | error e =>
          rw [hleague] at hr
          cases hr
        | ok pl =>
          rw [hleague] at hr
          obtain rfl : status = pl.status := Except.ok.inj hr
          exact (hφ w hw).update hleague hnext hrun
      · rintro w' ⟨hnoError, -⟩
        exact hnoError.elim
    · exact hskip (Bool.eq_false_iff.mpr hnone)

/-- The loop finishes all its leagues. -/
theorem conforms_refreshLeagueStatuses {todo : List StatusRefreshLeague}
    (hφ : ∀ w ∈ φ, answers.Pending todo w) :
    ((backend svc crypto).worlds (fun _ => True) answers.GivesWithoutErrors).Conforms φ
      (refreshLeagueStatuses fetchPlatformStatus updateStatus todo)
        fun ψ _ => ∀ w ∈ ψ, answers.Pending [] w := by
  induction todo generalizing φ with
  | nil => exact hφ
  | cons l todo ih =>
    refine conforms_bind.mpr ((conforms_refreshLeagueStatus hφ).mono fun ψ changed hψ => ?_)
    exact conforms_bind.mpr ((ih hψ).mono fun _ _ h => h)

/-- A refresh without errors settles every league. -/
theorem conforms_refresh_settles :
    ((backend svc crypto).worlds (fun _ => True) answers.GivesWithoutErrors).Conforms φ
      ((backend svc crypto).body .refreshLeagueStatuses) fun ψ r => r = .ok .done →
        ∀ w ∈ ψ, ∀ r ∈ w.db.leagues.rows, answers.Settles r := by
  refine conforms_run_bind.mpr (conforms_run_bind.mpr (conforms_wrapErr.mpr (conforms_query.mpr
    ⟨fun _ => trivial, fun stream => ?_, fun e => ?_⟩)))
  · simp only [mapError_ok]
    cases herr : stream.err with
    | some err =>
      intro h
      cases h
    | none =>
      refine conforms_run_bind.mpr (conforms_run_lift.mpr ((conforms_currentSeasons
        answers (fun _ => trivial) (fun _ h => h.gives) _).mono fun ψ seasons hψ => ?_))
      refine conforms_run_bind.mpr (conforms_run_lift.mpr
        ((conforms_refreshLeagueStatuses fun w hw => ?_).mono fun χ n hχ => ?_))
      · obtain ⟨⟨-, w', -, rfl, hrows⟩, -, hcomplete⟩ := hψ w hw
        exact pending_candidates hrows herr hcomplete
      · exact fun _ w hw => (hχ w hw).settles
  · intro h
    cases h

/-! ## The second refresh -/

/-- Queries change nothing. -/
theorem quiet_query (q : Query) : (backend svc crypto).Quiet (.query q) := fun _ _ _ h => h.1

/-- Season lookups change nothing. -/
theorem quiet_currentSeason (platform : String) :
    (backend svc crypto).Quiet (.currentSeason platform) := fun _ _ _ h => h

/-- League lookups change nothing. -/
theorem quiet_platformLeague (platform platformLeagueID : String) :
    (backend svc crypto).Quiet (.platformLeague platform platformLeagueID) := fun _ _ _ h => h

/-- A round of the loop for a league that is settled changes nothing. -/
theorem conforms_refreshLeagueStatus_settled {l : StatusRefreshLeague}
    (hl : ∀ w ∈ φ, ∀ pl, answers.league l.platform l.platformLeagueID = .ok pl →
      (nextLeagueStatus l.status pl.status).2 = false) :
    ((backend svc crypto).worlds (backend svc crypto).Quiet answers.Gives).Conforms φ
      (refreshLeagueStatus fetchPlatformStatus updateStatus l) fun ψ _ => ∀ w ∈ ψ, w ∈ φ := by
  refine conforms_bind.mpr ((conforms_fetchPlatformStatus answers (quiet_platformLeague _ _)
    fun _ h => h).mono fun ψ r hψ => ?_)
  cases r with
  | error e => exact fun w hw => (hψ w hw).1
  | ok status =>
    refine conforms_ite.mpr ⟨fun _ w hw => (hψ w hw).1, fun _ => conforms_ite.mpr
      ⟨fun hnext => ?_, fun _ w hw => (hψ w hw).1⟩⟩
    have hempty : ψ = ∅ := by
      refine Set.eq_empty_of_forall_notMem fun w hw => ?_
      obtain ⟨hw, hr⟩ := hψ w hw
      cases hleague : answers.league l.platform l.platformLeagueID with
      | error e =>
        rw [hleague] at hr
        cases hr
      | ok pl =>
        rw [hleague] at hr
        obtain rfl : status = pl.status := Except.ok.inj hr
        rw [hl w hw pl hleague] at hnext
        cases hnext
    subst hempty
    refine conforms_worlds_empty fun r => ?_
    exact fun w hw => absurd hw (Set.notMem_empty w)

/-- The loop over settled leagues changes nothing. -/
theorem conforms_refreshLeagueStatuses_settled {w₀ : World} {todo : List StatusRefreshLeague}
    (hφ : ∀ w ∈ φ, w = w₀) (htodo : ∀ w ∈ φ, ∀ l ∈ todo, ∀ pl,
      answers.league l.platform l.platformLeagueID = .ok pl →
        (nextLeagueStatus l.status pl.status).2 = false) :
    ((backend svc crypto).worlds (backend svc crypto).Quiet answers.Gives).Conforms φ
      (refreshLeagueStatuses fetchPlatformStatus updateStatus todo) fun ψ _ => ∀ w ∈ ψ, w = w₀ := by
  induction todo generalizing φ with
  | nil => exact hφ
  | cons l todo ih =>
    have hround : ((backend svc crypto).worlds (backend svc crypto).Quiet answers.Gives).Conforms φ
        (refreshLeagueStatus fetchPlatformStatus updateStatus l) fun ψ _ => ∀ w ∈ ψ, w ∈ φ :=
      conforms_refreshLeagueStatus_settled fun w hw => htodo w hw l List.mem_cons_self
    refine conforms_bind.mpr (hround.mono fun ψ changed hψ => ?_)
    refine conforms_bind.mpr ((ih (fun w hw => hφ w (hψ w hw)) fun w hw l' hl' =>
      htodo w (hψ w hw) l' (List.mem_cons_of_mem _ hl')).mono fun _ _ h => h)

/-- A refresh that finds every league settled changes nothing. -/
theorem conforms_refresh_settled {w₀ : World} (hφ : ∀ w ∈ φ, w = w₀)
    (hsettled : ∀ r ∈ w₀.db.leagues.rows, answers.Settles r) :
    ((backend svc crypto).worlds (backend svc crypto).Quiet answers.Gives).Conforms φ
      ((backend svc crypto).body .refreshLeagueStatuses) fun ψ _ => ∀ w ∈ ψ, w = w₀ := by
  refine conforms_run_bind.mpr (conforms_run_bind.mpr (conforms_wrapErr.mpr (conforms_query.mpr
    ⟨fun _ => quiet_query _, fun stream => ?_, fun e => ?_⟩)))
  · simp only [mapError_ok]
    cases herr : stream.err with
    | some err =>
      rintro w ⟨-, w', hw', rfl, -⟩
      exact hφ w hw'
    | none =>
      refine conforms_run_bind.mpr (conforms_run_lift.mpr ((conforms_currentSeasons
        answers quiet_currentSeason (fun _ h => h) _).mono fun ψ seasons hψ => ?_))
      refine conforms_run_bind.mpr (conforms_run_lift.mpr
        ((conforms_refreshLeagueStatuses_settled (fun w hw => ?_) fun w hw l hl => ?_).mono
          fun χ n hχ => hχ))
      · obtain ⟨⟨-, w', hw', rfl, -⟩, -⟩ := hψ w hw
        exact hφ w hw'
      · obtain ⟨⟨-, w', hw', rfl, hrows⟩, hsound, -⟩ := hψ w hw
        obtain rfl := hφ w hw'
        obtain ⟨hmem, hseason⟩ := List.mem_filter.mp hl
        obtain ⟨r, hr, hneeds, rfl⟩ := (mem_statusRefreshLeagues hrows).1 l hmem
        exact hsettled r hr hneeds (hsound _ _ (of_decide_eq_true hseason))
  · rintro w ⟨-, w', hw', rfl, -⟩
    exact hφ w hw'

end Rules

/-! ## All runs -/

/-- **Statuses only move forward.** Take any configuration that is reached from a database
without statements in flight. Along every further run without imports no rank of a status
decreases. A refresh executes nothing but updates of a status, and no such update makes a league
complete or changes a complete one. And after a refresh that ran alone and without errors, a
refresh that is given the same answers changes nothing. -/
theorem statuses_forward (svc : Service) (crypto : Crypto) {w : World} (hw : w.inFlight = [])
    {ok : BackendConfig → BackendLabel → Prop} {a : BackendConfig}
    (h : (backend svc crypto).Reaches ok (startConfig w) a) :
    (∀ b, (backend svc crypto).Reaches NoImport a b →
      ∀ r ∈ a.world.db.leagues.rows, ∀ r' ∈ b.world.db.leagues.rows, r'.id = r.id → r.RankLe r') ∧
    (∀ (i : ℕ) (t : BackendThread) s next, a.threads[i]? = some t → t.job = .refreshLeagueStatuses →
      t.rest = .call (.exec s) next →
        ∃ leagueID oldStatus newStatus, s = .updateLeagueStatus leagueID oldStatus newStatus) ∧
    (∀ l b, Refreshes a l → (backend svc crypto).Step a l b →
      (∀ r ∈ a.world.db.leagues.rows, r.status = some "complete" → r ∈ b.world.db.leagues.rows) ∧
        ∀ r' ∈ b.world.db.leagues.rows,
          r' ∈ a.world.db.leagues.rows ∨ r'.status ≠ some "complete") ∧
    ∀ (answers : PlatformAnswers) (i j : ℕ) (b c d : BackendConfig) (t : BackendThread),
      a.threads[i]? = some (Thread.start (backend svc crypto) .refreshLeagueStatuses) →
      (backend svc crypto).Reaches (Alone answers.GivesWithoutErrors i) a b →
      b.threads[i]? = some t → t.rest = .done (.ok .done) → c.world = b.world →
      c.threads[j]? = some (Thread.start (backend svc crypto) .refreshLeagueStatuses) →
      (backend svc crypto).Reaches (Alone answers.Gives j) c d → d.world = c.world := by
  refine ⟨fun b hrun r hr r' hr' hid => rankLe_of_reaches hw h hrun hr hr' hid, ?_, ?_, ?_⟩
  · intro i t s next ht hjob hrest
    have hmay : t.job.mayExec s := by
      have hallows : footprints.allows (footprints.phase t.job t.trace) (.exec s) :=
        (follows_of_reaches h conforms_footprints (by simp [startConfig]) i t ht).allows hrest
      rw [footprints_phase] at hallows
      exact hallows
    rw [hjob] at hmay
    cases s with
    | updateLeagueStatus leagueID oldStatus newStatus => exact ⟨_, _, _, rfl⟩
    | _ => exact hmay.elim
  · exact fun l b hl hstep =>
      step_refreshes (fun s hs => (forward_of_reaches hw h).2 hstep hs) hl hstep
  · intro answers i j b c d t hstart hfirst ht hdone hworld hagain hsecond
    obtain ⟨ψ, hψ, hsettles⟩ := hfirst.alone_result hstart (Set.mem_singleton a.world)
      conforms_refresh_settles ht hdone
    have hsettled : ∀ r ∈ c.world.db.leagues.rows, answers.Settles r := by
      rw [hworld]
      exact hsettles rfl b.world hψ
    exact hsecond.alone_quiet hagain (Set.mem_singleton c.world)
      (conforms_refresh_settled (fun _ hw => hw) hsettled)

/-- A platform whose season is 2024 and whose leagues are in season. -/
def inSeason : PlatformAnswers := ⟨fun _ => .ok "2024", fun _ _ => .ok (.mock "in_season")⟩

/-- Thread 1 refreshes a league from what the platform answers. -/
def refreshOnce : Schedule :=
  [.call 1 (.succeed 0 ""), .call 1 (.reply (.currentSeason "sleeper") (.ok "2024")),
    .call 1 (.reply (.platformLeague "sleeper" "7") (.ok (.mock "in_season"))),
    .call 1 (.succeed 0 "f1")]

/-- The configuration with one more refresh. -/
def spawnRefresh (a : BackendConfig) : BackendConfig :=
  { a with threads := a.threads ++ [Thread.start (backend .mock .mock) .refreshLeagueStatuses] }

/-- The thread has succeeded. -/
def finished (t : BackendThread) : Bool :=
  match t.rest with
  | .done (.ok .done) => true
  | _ => false

/-- A thread that has succeeded has returned. -/
theorem rest_of_finished {t : BackendThread} (h : finished t = true) :
    t.rest = .done (.ok .done) := by
  unfold finished at h
  split at h
  · assumption
  · cases h

/-- `statuses_forward` for a league that is imported before its draft and refreshed twice. -/
theorem refreshed_twice_forward : ∃ a b d : BackendConfig,
    (∃ r ∈ a.world.db.leagues.rows, ∃ r' ∈ b.world.db.leagues.rows,
      r.status = some "pre_draft" ∧ r'.status = some "in_season" ∧ r.RankLe r') ∧
    d.threads.length = 3 ∧ d.world = b.world := by
  have hreplay : ∃ a ∈ (Schedule.importLeague 0 "u1" "sleeper" (.mock "pre_draft") [] "l1").replay
      .mock .mock (fun _ _ => true), a.threads.length = 1 ∧
        ∃ b ∈ (backend .mock .mock).replay World.respond (fun a l =>
          decide (NoImport a l ∧ Alone inSeason.GivesWithoutErrors 1 a l)) refreshOnce
            (spawnRefresh a), b.threads.length = 2 ∧ (∃ t ∈ b.threads[1]?, finished t = true) ∧
          (∃ r ∈ a.world.db.leagues.rows, ∃ r' ∈ b.world.db.leagues.rows, r'.id = r.id ∧
            r.status = some "pre_draft" ∧ r'.status = some "in_season") ∧
          ∃ d ∈ (backend .mock .mock).replay World.respond (fun a l =>
            decide (Alone inSeason.Gives 2 a l)) [.call 2 (.succeed 0 "")] (spawnRefresh b),
              d.threads.length = 3 := by
    decide +kernel
  obtain ⟨a, ha, hathreads, b, hb, hbthreads, ⟨t, ht, hdone⟩, ⟨r, hr, r', hr', hid, hpre, hin⟩, d,
    hd, hdthreads⟩ := hreplay
  have hstart : (backend .mock .mock).Reaches (fun _ _ => True) (startConfig {}) a :=
    Schedule.reaches (fun _ _ _ => trivial) ha
  have hrun : (backend .mock .mock).Reaches (fun a l => NoImport a l ∧
      Alone inSeason.GivesWithoutErrors 1 a l) (spawnRefresh a) b :=
    reaches_of_replay World.respond_handles (fun _ _ => of_decide_eq_true) hb
  have hagain : (backend .mock .mock).Reaches (Alone inSeason.Gives 2) (spawnRefresh b) d :=
    reaches_of_replay World.respond_handles (fun _ _ => of_decide_eq_true) hd
  obtain ⟨hrank, -, -, htwice⟩ := statuses_forward .mock .mock rfl
    (hstart.step trivial (.spawn .refreshLeagueStatuses))
  refine ⟨a, b, d, ⟨r, hr, r', hr', hpre, hin, ?_⟩, hdthreads, ?_⟩
  · exact hrank b (hrun.mono fun _ _ h => h.1) r hr r' hr' hid
  · refine htwice inSeason 1 2 b (spawnRefresh b) d t ?_ (hrun.mono fun _ _ h => h.2) ht
      (rest_of_finished hdone) rfl ?_ hagain
    · rw [← hathreads]
      exact List.getElem?_concat_length
    · rw [← hbthreads]
      exact List.getElem?_concat_length

end Wagr
