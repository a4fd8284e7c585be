import Wagr.Payouts.Ledger
import Wagr.Service.Scenario

/-!
# The high scorer of a week

Every weekly run computes the high scorer from the matchups it fetches: the first team with the
highest positive score. An event is unique for its roster only, so a run that is given other
scores, or tied teams in another order, records a second winner. Until then all events and all
transactions have one winner for each week.
-/

namespace Wagr

open Interaction Relational

variable {svc : Service} {crypto : Crypto} {a b : BackendConfig} {l : BackendLabel}
  {ok : BackendConfig → BackendLabel → Prop} {leagueID : String}
  {ledger larger events : List WeeklyEventRow}

/-! ## The highest score -/

/-- The matchup has the highest positive score, and no earlier one of the list has it as well. -/
structure FirstHighest (matchups : List PlatformMatchup) (m : PlatformMatchup) : Prop where
  positive : 0 < m.points
  highest : ∀ m' ∈ matchups, m'.points ≤ m.points
  first : matchups.find? (fun m' => m.points ≤ m'.points) = some m

/-- Only one matchup of a list is the first with the highest score. -/
theorem FirstHighest.unique {matchups : List PlatformMatchup} {m m' : PlatformMatchup}
    (h : FirstHighest matchups m) (h' : FirstHighest matchups m') : m = m' := by
  have hpoints : m.points = m'.points :=
    le_antisymm (h'.highest m (List.mem_of_find?_eq_some h.first))
      (h.highest m' (List.mem_of_find?_eq_some h'.first))
  have hfirst := h.first
  rw [hpoints] at hfirst
  exact Option.some.inj (hfirst.symm.trans h'.first)

/-- A higher score makes an earlier one irrelevant. -/
theorem firstHighest_cons_of_lt {b x m : PlatformMatchup} {matchups : List PlatformMatchup}
    (h : b.points < x.points) :
    FirstHighest (b :: x :: matchups) m ↔ FirstHighest (x :: matchups) m := by
  constructor
  · rintro ⟨hpos, hhigh, hfirst⟩
    have hx : x.points ≤ m.points := hhigh x (by simp)
    refine ⟨hpos, fun m' hm' => hhigh m' (List.mem_cons_of_mem _ hm'), ?_⟩
    rwa [List.find?_cons_of_neg (by simp [h.trans_le hx])] at hfirst
  · rintro ⟨hpos, hhigh, hfirst⟩
    have hx : x.points ≤ m.points := hhigh x (by simp)
    refine ⟨hpos, List.forall_mem_cons.mpr ⟨(h.trans_le hx).le, hhigh⟩, ?_⟩
    rwa [List.find?_cons_of_neg (by simp [h.trans_le hx])]

/-- A score that is not higher makes no difference after the other one. -/
theorem firstHighest_cons_of_le {b x m : PlatformMatchup} {matchups : List PlatformMatchup}
    (h : x.points ≤ b.points) :
    FirstHighest (b :: x :: matchups) m ↔ FirstHighest (b :: matchups) m := by
  have hfind : ∀ m : PlatformMatchup, (b :: x :: matchups).find? (fun m' => m.points ≤ m'.points) =
      (b :: matchups).find? (fun m' => m.points ≤ m'.points) := by
    intro m
    by_cases hb : m.points ≤ b.points
    · simp [hb]
    · have hx : ¬ m.points ≤ x.points := fun hx => hb (hx.trans h)
      simp [hb, hx]
  constructor
  · rintro ⟨hpos, hhigh, hfirst⟩
    simp only [List.forall_mem_cons] at hhigh
    exact ⟨hpos, List.forall_mem_cons.mpr ⟨hhigh.1, hhigh.2.2⟩, hfind m ▸ hfirst⟩
  · rintro ⟨hpos, hhigh, hfirst⟩
    simp only [List.forall_mem_cons] at hhigh
    exact ⟨hpos, by simpa [hhigh.1, h.trans hhigh.1] using hhigh.2, (hfind m).trans hfirst⟩

/-- The loop of `highScorer` finds the first highest score among the one it has and the ones to
come. -/
theorem foldl_best {b m : PlatformMatchup} {matchups : List PlatformMatchup} (hb : 0 < b.points) :
    matchups.foldl (fun (best : Option PlatformMatchup) m =>
      if m.points ≤ 0 then best
      else match best with
        | none => some m
        | some b => if b.points < m.points then some m else some b) (some b) = some m ↔
      FirstHighest (b :: matchups) m := by
  induction matchups generalizing b with
  | nil =>
    constructor
    · intro h
      cases h
      exact ⟨hb, by simp, by simp⟩
    · intro h
      have hmem := List.mem_of_find?_eq_some h.first
      rw [List.mem_singleton.mp hmem]
      rfl
  | cons x matchups ih =>
    rw [List.foldl_cons]
    by_cases hlt : b.points < x.points
    · have hx : 0 < x.points := hb.trans hlt
      simp only [if_neg (not_le.mpr hx), if_pos hlt]
      rw [ih hx, firstHighest_cons_of_lt hlt]
    · simp only [if_neg hlt, ite_self]
      rw [ih hb, firstHighest_cons_of_le (not_lt.mp hlt)]

/-- `highScorer` returns the first matchup with the highest positive score. -/
theorem mem_highScorer {m : PlatformMatchup} {matchups : List PlatformMatchup} :
    m ∈ highScorer matchups ↔ FirstHighest matchups m := by
  unfold highScorer
  rw [Option.mem_toList]
  induction matchups with
  | nil =>
    constructor
    · intro h
      cases h
    · intro h
      cases h.first
  | cons x matchups ih =>
    rw [List.foldl_cons]
    by_cases hx : x.points ≤ 0
    · simp only [if_pos hx]
      rw [ih]
      constructor
      · rintro ⟨hpos, hhigh, hfirst⟩
        refine ⟨hpos, List.forall_mem_cons.mpr ⟨hx.trans hpos.le, hhigh⟩, ?_⟩
        rwa [List.find?_cons_of_neg (by simp [hx.trans_lt hpos])]
      · rintro ⟨hpos, hhigh, hfirst⟩
        refine ⟨hpos, fun m' hm' => hhigh m' (List.mem_cons_of_mem _ hm'), ?_⟩
        rwa [List.find?_cons_of_neg (by simp [hx.trans_lt hpos])] at hfirst
    · simp only [if_neg hx]
      exact foldl_best (not_le.mp hx)

/-- The first of the matchups with the highest positive score is the roster's. -/
def HighScorer (matchups : List PlatformMatchup) (rosterID : ℤ) : Prop :=
  ∃ m, FirstHighest matchups m ∧ m.rosterID = rosterID

/-- Only one roster is the high scorer of a list. -/
theorem HighScorer.unique {matchups : List PlatformMatchup} {rosterID rosterID' : ℤ}
    (h : HighScorer matchups rosterID) (h' : HighScorer matchups rosterID') :
    rosterID = rosterID' := by
  obtain ⟨m, hm, rfl⟩ := h
  obtain ⟨m', hm', rfl⟩ := h'
  rw [hm.unique hm']

/-- These are the matchups, without the byes, that were fetched for the week of a league whose
rules were loaded for a weekly run. -/
def FetchedMatchups (trace : List (Sigma Ret)) (leagueID : String) (week : ℤ)
    (matchups : List PlatformMatchup) : Prop :=
  ∃ stream, (⟨.query .weeklyPayoutLeagues, .ok stream⟩ : Sigma Ret) ∈ trace ∧
    ∃ league ∈ stream.rows.filterMap OracleLeagueRow.load, league.id = leagueID ∧ ∃ fetched,
      (⟨.platformMatchups league.platform league.platformLeagueID week, .ok fetched⟩ :
        Sigma Ret) ∈ trace ∧ matchups = fetched.filter fun m => 0 < m.matchupID

/-- Some run has fetched the matchups. -/
def Fetched (a : BackendConfig) (leagueID : String) (week : ℤ)
    (matchups : List PlatformMatchup) : Prop :=
  a.SomeTrace fun _ trace => FetchedMatchups trace leagueID week matchups

/-- A roster that qualifies for the high score bonus is the high scorer of matchups that were
fetched. -/
theorem fetched_of_qualified {entry : PayoutEntry} {week rosterID : ℤ}
    (h : a.SomeTrace fun _ trace => Qualified trace leagueID entry week rosterID)
    (hbonus : entry.bonusType = "weekly_high_score") :
    ∃ matchups, Fetched a leagueID week matchups ∧ HighScorer matchups rosterID := by
  obtain ⟨i, t, ht, stream, hstream, league, hleague, hid, -, -, fetched, hfetched, m, hm, rfl⟩ := h
  rw [weeklyQualifiers, if_pos hbonus] at hm
  exact ⟨_, ⟨i, t, ht, stream, hstream, league, hleague, hid, fetched, hfetched, rfl⟩, m,
    mem_highScorer.mp hm, rfl⟩

/-! ## One winner -/

/-- Both events are the bonus for the highest score in a week of a league. -/
def WeeklyEventRow.SameBonus (e e' : WeeklyEventRow) : Prop :=
  e.payoutType = "weekly_high_score" ∧ e'.payoutType = "weekly_high_score" ∧
    e.leagueID = e'.leagueID ∧ e.week = e'.week

instance (e e' : WeeklyEventRow) : Decidable (e.SameBonus e') :=
  inferInstanceAs (Decidable (_ ∧ _ ∧ _ ∧ _))

/-- Among the events at most one roster has the high score bonus of a league and week. -/
def OneWinner (events : List WeeklyEventRow) : Prop :=
  ∀ e ∈ events, ∀ e' ∈ events, e.SameBonus e' → e.rosterID = e'.rosterID

instance (events : List WeeklyEventRow) : Decidable (OneWinner events) :=
  inferInstanceAs
    (Decidable (∀ e ∈ events, ∀ e' ∈ events, e.SameBonus e' → e.rosterID = e'.rosterID))

/-- The league, week and roster of a high score bonus that a statement records. -/
def Statement.recordsWinner : Statement → Option (String × ℤ × ℤ)
  | .insertWeeklyEvent leagueID week rosterID _ payoutType _ _ _ =>
    if payoutType = "weekly_high_score" then some (leagueID, week, rosterID) else none
  | _ => none

/-- When a step records the high score bonus of a league and week, the rosters that already have it
are high scorers of the same fetched matchups as the roster it is recorded for. -/
def KeepsWinner (a : BackendConfig) (l : BackendLabel) : Prop :=
  ∀ s ∈ applied a l, ∀ winner ∈ s.recordsWinner, ∀ e ∈ a.world.db.weeklyEvents.rows,
    e.payoutType = "weekly_high_score" → e.leagueID = winner.1 → e.week = winner.2.1 →
      ∀ matchups, Fetched a winner.1 winner.2.1 matchups → HighScorer matchups winner.2.2 →
        HighScorer matchups e.rosterID

/-- Like `KeepsWinner`, with the rosters themselves: no other one is recorded. -/
def RecordsSame (a : BackendConfig) (l : BackendLabel) : Prop :=
  ∀ s ∈ applied a l, ∀ winner ∈ s.recordsWinner, ∀ e ∈ a.world.db.weeklyEvents.rows,
    e.payoutType = "weekly_high_score" → e.leagueID = winner.1 → e.week = winner.2.1 →
      e.rosterID = winner.2.2

instance (a : BackendConfig) (l : BackendLabel) : Decidable (RecordsSame a l) :=
  inferInstanceAs (Decidable (∀ s ∈ applied a l, ∀ winner ∈ s.recordsWinner,
    ∀ e ∈ a.world.db.weeklyEvents.rows, e.payoutType = "weekly_high_score" →
      e.leagueID = winner.1 → e.week = winner.2.1 → e.rosterID = winner.2.2))

/-- Every high score bonus in the database was recorded for the high scorer of matchups that were
fetched. -/
def HighScorersRecorded (a : BackendConfig) : Prop :=
  ∀ e ∈ a.world.db.weeklyEvents.rows, e.payoutType = "weekly_high_score" →
    ∃ matchups, Fetched a e.leagueID e.week matchups ∧ HighScorer matchups e.rosterID

/-! ## Events of one winner -/

/-- The bonus of an event, marked executed or not. -/
theorem WeeklyEventRow.SameEvent.bonus {e e' : WeeklyEventRow} (h : e.SameEvent e') :
    e'.leagueID = e.leagueID ∧ e'.week = e.week ∧ e'.rosterID = e.rosterID ∧
      e'.payoutType = e.payoutType := by
  have hkey := h.key
  simp only [WeeklyEventRow.key, Prod.mk.injEq] at hkey
  exact hkey

/-- Fewer events have no more winners. -/
theorem OneWinner.mono (h : OneWinner larger) (hsub : events ⊆ larger) : OneWinner events :=
  fun e he e' he' hsame => h e (hsub he) e' (hsub he') hsame

/-- Marking events executed changes no bonus. -/
theorem WeeklyEventRow.SameBonus.of_same {e e' f f' : WeeklyEventRow} (h : f.SameBonus f')
    (he : e.SameEvent f) (he' : e'.SameEvent f') : e.SameBonus e' := by
  obtain ⟨hleague, hweek, -, htype⟩ := he.bonus
  obtain ⟨hleague', hweek', -, htype'⟩ := he'.bonus
  obtain ⟨h₁, h₂, h₃, h₄⟩ := h
  exact ⟨htype.symm.trans h₁, htype'.symm.trans h₂, hleague.symm.trans (h₃.trans hleague'),
    hweek.symm.trans (h₄.trans hweek')⟩

/-- The same bonus, read the other way round. -/
theorem WeeklyEventRow.SameBonus.symm {e e' : WeeklyEventRow} (h : e.SameBonus e') :
    e'.SameBonus e :=
  ⟨h.2.1, h.1, h.2.2.1.symm, h.2.2.2.symm⟩

/-- Events that were there, and one more whose roster has won the bonus before, have a single
winner. -/
theorem OneWinner.extend (h : OneWinner events)
    (hold : ∀ f ∈ larger, (∃ e ∈ events, e.SameEvent f) ∨
      ∀ e ∈ events, e.SameBonus f → e.rosterID = f.rosterID)
    (hnew : ∀ f ∈ larger, ∀ f' ∈ larger, (¬ ∃ e ∈ events, e.SameEvent f) →
      (¬ ∃ e ∈ events, e.SameEvent f') → f = f') : OneWinner larger := by
  intro f hf f' hf' hsame
  by_cases hthere : ∃ e ∈ events, e.SameEvent f <;>
    by_cases hthere' : ∃ e ∈ events, e.SameEvent f'
  · obtain ⟨e, he, hbonus⟩ := hthere
    obtain ⟨e', he', hbonus'⟩ := hthere'
    have hroster := h e he e' he' (hsame.of_same hbonus hbonus')
    exact hbonus.bonus.2.2.1.trans (hroster.trans hbonus'.bonus.2.2.1.symm)
  · obtain ⟨e, he, hbonus⟩ := hthere
    have hroster := (hold f' hf').resolve_left hthere' e he (hsame.of_same hbonus (.refl f'))
    exact hbonus.bonus.2.2.1.trans hroster
  · obtain ⟨e', he', hbonus'⟩ := hthere'
    have hroster := (hold f hf).resolve_left hthere e' he'
      (hsame.symm.of_same hbonus' (.refl f))
    exact (hbonus'.bonus.2.2.1.trans hroster).symm
  · rw [hnew f hf f' hf' hthere hthere']

/-! ## One winner after a step -/

/-- The statement that records a winner. -/
theorem recordsWinner_eq {s : Statement} {winner : String × ℤ × ℤ} (h : winner ∈ s.recordsWinner) :
    ∃ user points amountCents wallet, s = .insertWeeklyEvent winner.1 winner.2.1 winner.2.2 user
      "weekly_high_score" points amountCents wallet := by
  cases s with
  | insertWeeklyEvent leagueID week rosterID user payoutType points amountCents wallet =>
    simp only [Statement.recordsWinner, Option.mem_def] at h
    split at h
    · rename_i htype
      cases h
      exact ⟨user, points, amountCents, wallet, by rw [htype]⟩
    · cases h
  | _ => cases h

/-- A winner is recorded for matchups of which it is the high scorer. -/
theorem Runs.fetched_of_insert (h : Runs svc crypto ok a)
    (hstep : (backend svc crypto).Step a l b) {s : Statement} (hs : applied a l = some s)
    {winner : String × ℤ × ℤ} (hwinner : winner ∈ s.recordsWinner) :
    ∃ matchups, Fetched a winner.1 winner.2.1 matchups ∧ HighScorer matchups winner.2.2 := by
  obtain ⟨user, points, amountCents, wallet, rfl⟩ := recordsWinner_eq hwinner
  obtain ⟨entry, hqualified, hbonus, -⟩ := h.qualified_of_insert hstep hs
  exact fetched_of_qualified hqualified hbonus

/-- Where the recorded rosters are the high scorers of the fetched matchups, the same one is
recorded again. -/
theorem KeepsWinner.recordsSame (h : KeepsWinner a l) (hrun : Runs svc crypto ok a)
    (hstep : (backend svc crypto).Step a l b) : RecordsSame a l := by
  intro s hs winner hwinner e he htype hleague hweek
  obtain ⟨matchups, hfetched, hhigh⟩ := hrun.fetched_of_insert hstep hs hwinner
  exact (h s hs winner hwinner e he htype hleague hweek matchups hfetched hhigh).unique hhigh

/-- The roster that is recorded again is the high scorer of the same matchups. -/
theorem RecordsSame.keepsWinner (h : RecordsSame a l) : KeepsWinner a l := by
  intro s hs winner hwinner e he htype hleague hweek matchups _ hhigh
  rwa [h s hs winner hwinner e he htype hleague hweek]

/-- A recorded winner is that of the statement. -/
theorem RecordsSame.recorded (h : RecordsSame a l) {e e' : WeeklyEventRow}
    (he : e ∈ a.world.db.weeklyEvents.rows) (hsame : e.SameBonus e')
    (hs : applied a l = some (.insertWeeklyEvent e'.leagueID e'.week e'.rosterID e'.platformUserID
      e'.payoutType e'.points e'.amountCents e'.walletAddress)) : e.rosterID = e'.rosterID := by
  obtain ⟨h₁, h₂, h₃, h₄⟩ := hsame
  have hwinner : (e'.leagueID, e'.week, e'.rosterID) ∈ (Statement.insertWeeklyEvent e'.leagueID
      e'.week e'.rosterID e'.platformUserID e'.payoutType e'.points e'.amountCents
        e'.walletAddress).recordsWinner := by
    simp [Statement.recordsWinner, h₂]
  exact h _ hs _ hwinner e he h₁ h₃ h₄

/-- A step that records no other winner keeps a single one. -/
theorem OneWinner.step (h : OneWinner a.world.db.weeklyEvents.rows)
    (hstep : (backend svc crypto).Step a l b) (hl : RecordsSame a l) :
    OneWinner b.world.db.weeklyEvents.rows := by
  refine h.extend (fun f hf => ?_) fun f hf f' hf' hnew hnew' =>
    new_event_unique hstep hf hnew hf' hnew'
  rcases step_event hstep hf with hold | ⟨-, -, -, -, hs⟩
  · exact .inl hold
  · exact .inr fun e he hsame => hl.recorded he hsame hs

/-- A new event of a bonus that is in the ledger goes to the same roster. -/
theorem Recorded.keepsWinner (h : Recorded leagueID a ledger)
    (hstep : (backend svc crypto).Step a l b) (hl : RecordsSame a l) {e e₀ : WeeklyEventRow}
    (he : e ∈ b.world.db.weeklyEvents.rows)
    (hnew : ¬ ∃ e₀ ∈ a.world.db.weeklyEvents.rows, e₀.SameEvent e) (he₀ : e₀ ∈ ledger)
    (hsame : e₀.SameBonus e) : e₀.rosterID = e.rosterID := by
  obtain ⟨-, -, hthere, -, hs⟩ := (step_event hstep he).resolve_left hnew
  -- the league is there, so the database still has the event of the ledger
  rw [← hsame.2.2.1, (h.league e₀ he₀).1] at hthere
  obtain ⟨e₁, he₁, hkey⟩ := List.mem_map.mp (h.kept hthere e₀ he₀)
  simp only [WeeklyEventRow.key, Prod.mk.injEq] at hkey
  obtain ⟨hleague, hweek, hroster, htype⟩ := hkey
  obtain ⟨h₁, h₂, h₃, h₄⟩ := hsame
  have hbonus : e₁.SameBonus e := ⟨htype.trans h₁, h₂, hleague.trans h₃, hweek.trans h₄⟩
  exact hroster.symm.trans (hl.recorded he₁ hbonus hs)

/-- All events ever recorded for the league have one winner a week, and the weekly transactions of
the league pay such events. -/
def PaysOneWinner (leagueID : String) (a : BackendConfig) : Prop :=
  ∃ ledger, Recorded leagueID a ledger ∧ ReadsLedger leagueID a ledger ∧
    PaysLedger leagueID a ledger ∧ OneWinner ledger

/-- A step that records no other winner keeps a single one in the ledger. -/
theorem PaysOneWinner.step (h : PaysOneWinner leagueID a) (hrun : Runs svc crypto ok a)
    (hstep : (backend svc crypto).Step a l b) (hl : RecordsSame a l) :
    PaysOneWinner leagueID b := by
  obtain ⟨ledger, hrecorded, hreads, hpays, hone⟩ := h
  rcases hrecorded.grow hrun hstep with hsame | ⟨e, he, hnew, hlarger⟩
  · have hsub : ledger ⊆ ledger := List.Subset.refl _
    exact ⟨ledger, hsame, hreads.step hrecorded hstep hsub, hpays.step hreads hrun hstep hsub, hone⟩
  · have hsub : ledger ⊆ ledger ++ [e] := List.subset_append_left _ _
    have hextend : OneWinner (ledger ++ [e]) := by
      refine hone.extend (fun f hf => ?_) fun f hf f' hf' hf₀ hf₀' => ?_
      · rcases List.mem_append.mp hf with hf | hf
        · exact .inl ⟨f, hf, .refl f⟩
        · obtain rfl := List.mem_singleton.mp hf
          exact .inr fun e₀ he₀ hsame => hrecorded.keepsWinner hstep hl he hnew he₀ hsame
      · have hlast : ∀ g ∈ ledger ++ [e], (¬ ∃ e₀ ∈ ledger, e₀.SameEvent g) → g = e := by
          intro g hg hg₀
          rcases List.mem_append.mp hg with hg | hg
          · exact absurd ⟨g, hg, .refl g⟩ hg₀
          · exact List.mem_singleton.mp hg
        rw [hlast f hf hf₀, hlast f' hf' hf₀']
    exact ⟨ledger ++ [e], hlarger, hreads.step hrecorded hstep hsub,
      hpays.step hreads hrun hstep hsub, hextend⟩

/-- An event that was recorded keeps the others, and its key is there. -/
theorem insertWeeklyEvent_run {now : ℕ} {fresh : String} {db db' : Database} {n : ℕ}
    {week rosterID : ℤ} {user payoutType wallet : String} {points : ℚ} {amountCents : Int64}
    (h : (Statement.insertWeeklyEvent leagueID week rosterID user payoutType points amountCents
      wallet).run now fresh db = some (n, db')) :
    db.weeklyEvents.rows ⊆ db'.weeklyEvents.rows ∧
      (leagueID, week, rosterID, payoutType) ∈ db'.weeklyEvents.rows.map WeeklyEventRow.key := by
  simp only [Statement.run] at h
  split at h
  · split at h
    · rename_i hold
      cases h
      exact ⟨List.Subset.refl _, hold⟩
    · cases h
      refine ⟨List.subset_append_left _ _, ?_⟩
      simp [Table.insert, WeeklyEventRow.key]
  · cases h

/-- A step after which there is a single winner records no other one. -/
theorem OneWinner.recordsSame (h : OneWinner b.world.db.weeklyEvents.rows)
    (hstep : (backend svc crypto).Step a l b) : RecordsSame a l := by
  intro s hs winner hwinner e he htype hleague hweek
  obtain ⟨user, points, amountCents, wallet, rfl⟩ := recordsWinner_eq hwinner
  rcases step_db hstep with ⟨hnone, -⟩ | ⟨s, hs', now, fresh, r, -, hrun, -, -⟩
  · rw [hnone] at hs
    cases hs
  · obtain rfl := Option.some.inj (hs'.symm.trans hs)
    obtain ⟨hkeep, hkey⟩ := insertWeeklyEvent_run hrun
    obtain ⟨e', he', hkey⟩ := List.mem_map.mp hkey
    simp only [WeeklyEventRow.key, Prod.mk.injEq] at hkey
    obtain ⟨hleague', hweek', hroster', htype'⟩ := hkey
    have hsame : e.SameBonus e' :=
      ⟨htype, htype', hleague.trans hleague'.symm, hweek.trans hweek'.symm⟩
    exact (h e (hkeep he) e' he' hsame).trans hroster'

/-- The bonuses in the database go to high scorers of fetched matchups in every run. -/
theorem Runs.highScorersRecorded (h : Runs svc crypto ok a) : HighScorersRecorded a := by
  intro e he htype
  obtain ⟨ledger, hrecorded, -, -⟩ := h.exists_ledger e.leagueID
  obtain ⟨e₀, he₀, hsame⟩ := hrecorded.rows e he rfl
  obtain ⟨-, hweek, hroster, htype₀⟩ := hsame.bonus
  obtain ⟨entry, hqualified, hbonus, -⟩ := hrecorded.qualified e₀ he₀
  rw [← hweek, ← hroster] at hqualified
  exact fetched_of_qualified hqualified (hbonus.trans (htype₀.symm.trans htype))

/-- A second winner comes from other scores or another order: two runs have fetched matchups with
different high scorers. -/
theorem Runs.two_winners (h : Runs svc crypto ok a) (hstep : (backend svc crypto).Step a l b)
    (hl : ¬ KeepsWinner a l) : ∃ leagueID week matchups matchups' rosterID rosterID',
      Fetched a leagueID week matchups ∧ Fetched a leagueID week matchups' ∧
        HighScorer matchups rosterID ∧ HighScorer matchups' rosterID' ∧ rosterID ≠ rosterID' := by
  have hother : ¬ RecordsSame a l := fun hsame => hl hsame.keepsWinner
  simp only [RecordsSame, not_forall] at hother
  obtain ⟨s, hs, winner, hwinner, e, he, htype, hleague, hweek, hne⟩ := hother
  obtain ⟨matchups, hfetched, hhigh⟩ := h.highScorersRecorded e he htype
  obtain ⟨matchups', hfetched', hhigh'⟩ := h.fetched_of_insert hstep hs hwinner
  rw [hleague, hweek] at hfetched
  exact ⟨winner.1, winner.2.1, matchups, matchups', e.rosterID, winner.2.2, hfetched, hfetched',
    hhigh, hhigh', hne⟩

/-- Along every run that records no other winner the events and payments of a league have one
winner a week. -/
theorem Runs.paysOneWinner (h : Runs svc crypto KeepsWinner a) (leagueID : String) :
    PaysOneWinner leagueID a := by
  induction h with
  | refl =>
    refine ⟨[], ?_, ?_, ?_, ?_⟩
    · constructor <;> simp [initialConfig, Table.empty]
    · simp [ReadsLedger, initialConfig]
    · simp [PaysLedger, initialConfig]
    · simp [OneWinner]
  | tail hrun hlast ih =>
    obtain ⟨l, hl, hstep⟩ := hlast
    exact ih.step hrun hstep (hl.recordsSame hrun hstep)

/-- Along such a run the database has one winner a week. -/
theorem Runs.oneWinner (h : Runs svc crypto KeepsWinner a) :
    OneWinner a.world.db.weeklyEvents.rows := by
  induction h with
  | refl => simp [OneWinner, initialConfig, Table.empty]
  | tail hrun hlast ih =>
    obtain ⟨l, hl, hstep⟩ := hlast
    exact ih.step hstep (hl.recordsSame hrun hstep)

/-! ## The result -/

/-- Along every run in which each recorded roster is the high scorer of the matchups of a week
whenever the bonus of the week is recorded again, the events and the payments of every league
have one winner a week, and it is the high scorer of fetched matchups. A further step keeps it so
exactly if it meets the condition as well, and a step that does not was given matchups with
different high scorers by the platform. -/
theorem oneWinner_iff (h : Runs svc crypto KeepsWinner a) :
    OneWinner a.world.db.weeklyEvents.rows ∧ HighScorersRecorded a ∧
      (∀ leagueID, PaysOneWinner leagueID a) ∧ ∀ l b, (backend svc crypto).Step a l b →
        (OneWinner b.world.db.weeklyEvents.rows ↔ KeepsWinner a l) ∧
          (¬ KeepsWinner a l → ∃ leagueID week matchups matchups' rosterID rosterID',
            Fetched a leagueID week matchups ∧ Fetched a leagueID week matchups' ∧
              HighScorer matchups rosterID ∧ HighScorer matchups' rosterID' ∧
                rosterID ≠ rosterID') := by
  refine ⟨h.oneWinner, Runs.highScorersRecorded h, h.paysOneWinner,
    fun l b hstep => ⟨⟨?_, ?_⟩, Runs.two_winners h hstep⟩⟩
  · exact fun hone => (hone.recordsSame hstep).keepsWinner
  · exact fun hl => h.oneWinner.step hstep (hl.recordsSame h hstep)

/-- Two teams with wallets in a league that pays the high score of the week. -/
def twoTeams : Schedule :=
  Schedule.signUp 0 "0.0.9" "n1" "u1" ++ Schedule.link 1 "u1" "sleeper" (.mock "p1") "f1" ++
    Schedule.signUp 2 "0.0.10" "n2" "u2" ++ Schedule.link 3 "u2" "sleeper" (.mock "p2") "f2" ++
    Schedule.importLeague 4 "u1" "sleeper" (.mock "in_season")
      [.mock "p1" 1 true, .mock "p2" 2 false] Schedule.leagueID ++
    [.spawn (.updateLeagueSettings Schedule.leagueID "u1" ⟨100, some [Schedule.highScore]⟩),
      .call 5 (.succeed 0 ""), .call 5 (.succeed 0 "f3"), .call 5 (.succeed 0 "")]

/-- Thread `i` runs the weekly job until it has recorded the high scorer of the week. -/
def recordWinner (i : ℕ) (matchups : List PlatformMatchup) (fresh : String) : Schedule :=
  [.spawn .runWeeklyPayoutJob, .call i (.succeed 0 ""),
    .call i (.reply (.currentWeek "sleeper") (.ok 2)),
    .call i (.reply (.platformMatchups "sleeper" "7" 1) (.ok matchups)),
    .call i (.succeed 0 ""), .call i (.succeed 0 fresh)]

/-- The result for two runs that are given the same tie in the same order, and a third one after a
correction that leaves the high scorer what it was. -/
theorem oneWinner_sameOrder : ∃ a, Runs .mock .mock KeepsWinner a ∧
    a.world.db.weeklyEvents.rows ≠ [] ∧
    OneWinner a.world.db.weeklyEvents.rows ∧ HighScorersRecorded a ∧
      (∀ leagueID, PaysOneWinner leagueID a) ∧ ∀ l b, (backend .mock .mock).Step a l b →
        (OneWinner b.world.db.weeklyEvents.rows ↔ KeepsWinner a l) ∧
          (¬ KeepsWinner a l → ∃ leagueID week matchups matchups' rosterID rosterID',
            Fetched a leagueID week matchups ∧ Fetched a leagueID week matchups' ∧
              HighScorer matchups rosterID ∧ HighScorer matchups' rosterID' ∧
                rosterID ≠ rosterID') := by
  obtain ⟨a, hrun, hsome⟩ := (twoTeams ++ recordWinner 6 [⟨1, 1, 100⟩, ⟨2, 1, 100⟩] "e1" ++
    recordWinner 7 [⟨1, 1, 100⟩, ⟨2, 1, 100⟩] "e2" ++
    recordWinner 8 [⟨2, 1, 90⟩, ⟨1, 1, 100⟩] "e3").exists_run .mock .mock RecordsSame
      (fun a => a.world.db.weeklyEvents.rows ≠ []) (by decide)
  have hrun : Runs .mock .mock KeepsWinner a := hrun.mono fun _ _ h => h.keepsWinner
  exact ⟨a, hrun, hsome, oneWinner_iff hrun⟩

/-- After a correction of the scores the second run records the other team. -/
theorem exists_two_winners :
    ∃ a, Runs .mock .mock (fun _ _ => True) a ∧ ¬ OneWinner a.world.db.weeklyEvents.rows :=
  (twoTeams ++ recordWinner 6 [⟨1, 1, 100⟩, ⟨2, 1, 90⟩] "e1" ++
    recordWinner 7 [⟨1, 1, 90⟩, ⟨2, 1, 100⟩] "e2").exists_run .mock .mock (fun _ _ => True)
      (fun a => ¬ OneWinner a.world.db.weeklyEvents.rows) (by decide)

end Wagr
