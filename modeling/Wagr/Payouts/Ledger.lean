import Wagr.Database.EventEffects
import Wagr.Payouts.Checked
import Wagr.Service.Rows

/-!
# The ledger of weekly events

All weekly events ever recorded for a league, also those that were deleted with it. No event is
recorded twice, each is for a qualified roster and has the amount of a weekly entry, and weekly
transactions pay events of the ledger.
-/

namespace Wagr

open Interaction Relational

variable {svc : Service} {crypto : Crypto} {a b : BackendConfig} {l : BackendLabel}
  {ok : BackendConfig → BackendLabel → Prop} {leagueID : String}
  {ledger larger : List WeeklyEventRow}

/-! ## Events after a step -/

/-- An event after a step was there, or was recorded by the statement that takes effect. -/
theorem step_event (hstep : (backend svc crypto).Step a l b) {e' : WeeklyEventRow}
    (he' : e' ∈ b.world.db.weeklyEvents.rows) :
    (∃ e ∈ a.world.db.weeklyEvents.rows, e.SameEvent e') ∨
    (e'.id ∉ a.world.issued ∧ e'.id ∈ b.world.issued ∧
      e'.leagueID ∈ a.world.db.leagues.rows.map LeagueRow.id ∧
      e'.key ∉ a.world.db.weeklyEvents.rows.map WeeklyEventRow.key ∧
      applied a l = some (.insertWeeklyEvent e'.leagueID e'.week e'.rosterID e'.platformUserID
        e'.payoutType e'.points e'.amountCents e'.walletAddress)) := by
  rcases step_db hstep with ⟨-, hdb, -⟩ | ⟨s, hs, now, fresh, r, hfresh, hrun, hissued, -⟩
  · exact .inl ⟨e', hdb ▸ he', .refl e'⟩
  · rcases s.run_events hrun he' with hold | ⟨hid, hleague, hkey, rfl⟩
    · exact .inl hold
    · exact .inr ⟨hid ▸ hfresh, hissued ▸ hid ▸ List.mem_cons_self, hleague, hkey, hs⟩

/-- An event whose league is there after the step is still there. -/
theorem step_keeps_event (hstep : (backend svc crypto).Step a l b) {key : String × ℤ × ℤ × String}
    (hkey : key ∈ a.world.db.weeklyEvents.rows.map WeeklyEventRow.key)
    (hleague : key.1 ∈ b.world.db.leagues.rows.map LeagueRow.id) :
    key ∈ b.world.db.weeklyEvents.rows.map WeeklyEventRow.key := by
  rcases step_db hstep with ⟨-, hdb, -⟩ | ⟨s, hs, now, fresh, r, -, hrun, -, -⟩
  · exact hdb ▸ hkey
  · exact s.run_keeps_events hrun hkey hleague

/-- A league after a step was there, or its ID had not been drawn. -/
theorem step_leagueID (hstep : (backend svc crypto).Step a l b)
    (hleague : leagueID ∈ b.world.db.leagues.rows.map LeagueRow.id) :
    leagueID ∈ a.world.db.leagues.rows.map LeagueRow.id ∨ leagueID ∉ a.world.issued := by
  obtain ⟨r', hr', rfl⟩ := List.mem_map.mp hleague
  rcases step_row hstep hr' with ⟨r, hr, rfl | ⟨now, s, -, hmoves⟩⟩ |
    ⟨league, now, fresh, rfl, hfresh, -⟩
  · exact .inl (List.mem_map_of_mem hr)
  · exact .inl (hmoves.id ▸ List.mem_map_of_mem hr)
  · exact .inr hfresh

/-! ## The ledger and the database -/

/-- The ledger has every event of the league once, each for a qualified roster; while the league is
there, the database has them all. -/
structure Recorded (leagueID : String) (a : BackendConfig) (ledger : List WeeklyEventRow) :
    Prop where
  ids : (ledger.map WeeklyEventRow.id).Nodup
  keys : (ledger.map WeeklyEventRow.key).Nodup
  issued : ∀ e ∈ ledger, e.id ∈ a.world.issued
  league : ∀ e ∈ ledger, e.leagueID = leagueID ∧ leagueID ∈ a.world.issued
  qualified : ∀ e ∈ ledger, ∃ entry,
    (a.SomeTrace fun _ trace => Qualified trace leagueID entry e.week e.rosterID) ∧
      entry.bonusType = e.payoutType ∧ entry.amountCents = e.amountCents
  rows : ∀ e' ∈ a.world.db.weeklyEvents.rows, e'.leagueID = leagueID → ∃ e ∈ ledger, e.SameEvent e'
  kept : leagueID ∈ a.world.db.leagues.rows.map LeagueRow.id → ∀ e ∈ ledger,
    e.key ∈ a.world.db.weeklyEvents.rows.map WeeklyEventRow.key

/-- A roster that has qualified stays qualified. -/
theorem someTrace_qualified (hstep : (backend svc crypto).Step a l b) {entry : PayoutEntry}
    {week rosterID : ℤ}
    (h : a.SomeTrace fun _ trace => Qualified trace leagueID entry week rosterID) :
    b.SomeTrace fun _ trace => Qualified trace leagueID entry week rosterID :=
  hstep.someTrace (fun _ _ _ hq => hq.mono (List.suffix_cons _ _)) h

/-- An event is recorded for a qualified roster. -/
theorem Runs.qualified_of_insert (h : Runs svc crypto ok a)
    (hstep : (backend svc crypto).Step a l b) {week rosterID : ℤ} {user payoutType wallet : String}
    {points : ℚ} {amountCents : Int64}
    (hs : applied a l = some (.insertWeeklyEvent leagueID week rosterID user payoutType points
      amountCents wallet)) :
    ∃ entry, (a.SomeTrace fun _ trace => Qualified trace leagueID entry week rosterID) ∧
      entry.bonusType = payoutType ∧ entry.amountCents = amountCents := by
  obtain ⟨i, t, ht, earlier, hsuffix, hallows⟩ :=
    h.applied_allowed conforms_checkedProtocol hstep hs
  rw [Protocol.history_phase] at hallows
  obtain ⟨entry, hqualified, htype, hamount⟩ := hallows
  exact ⟨entry, ⟨i, t, ht, hqualified.mono hsuffix⟩, htype, hamount⟩

/-- A ledger after a step that records no event of the league. -/
theorem Recorded.same (h : Recorded leagueID a ledger) (hstep : (backend svc crypto).Step a l b)
    (hold : ∀ e' ∈ b.world.db.weeklyEvents.rows, e'.leagueID = leagueID →
      ∃ e ∈ a.world.db.weeklyEvents.rows, e.SameEvent e') : Recorded leagueID b ledger where
  ids := h.ids
  keys := h.keys
  issued e he := step_issued hstep (h.issued e he)
  league e he := ⟨(h.league e he).1, step_issued hstep (h.league e he).2⟩
  qualified e he := by
    obtain ⟨entry, hqualified, hrest⟩ := h.qualified e he
    exact ⟨entry, someTrace_qualified hstep hqualified, hrest⟩
  rows e' he' hid := by
    obtain ⟨e, he, hsame⟩ := hold e' he' hid
    have hleague : e.leagueID = leagueID := (congrArg Prod.fst hsame.key).symm.trans hid
    obtain ⟨e₀, he₀, hsame₀⟩ := h.rows e he hleague
    exact ⟨e₀, he₀, hsame₀.trans hsame⟩
  kept hleague e he := by
    obtain ⟨hid, hissued⟩ := h.league e he
    rcases step_leagueID hstep hleague with hthere | hnew
    · refine step_keeps_event hstep (h.kept hthere e he) ?_
      change e.leagueID ∈ _
      rw [hid]
      exact hleague
    · exact absurd hissued hnew

/-- A step records at most one new event. -/
theorem new_event_unique (hstep : (backend svc crypto).Step a l b) {e e' : WeeklyEventRow}
    (he : e ∈ b.world.db.weeklyEvents.rows)
    (hnew : ¬ ∃ e₀ ∈ a.world.db.weeklyEvents.rows, e₀.SameEvent e)
    (he' : e' ∈ b.world.db.weeklyEvents.rows)
    (hnew' : ¬ ∃ e₀ ∈ a.world.db.weeklyEvents.rows, e₀.SameEvent e') : e = e' := by
  obtain ⟨-, -, -, -, hs⟩ := (step_event hstep he).resolve_left hnew
  obtain ⟨-, -, -, -, hs'⟩ := (step_event hstep he').resolve_left hnew'
  have hsame := hs.symm.trans hs'
  simp only [Option.some.injEq, Statement.insertWeeklyEvent.injEq] at hsame
  obtain ⟨hleague, hweek, hroster, -, htype, -⟩ := hsame
  refine Table.eq_of_key he he' ?_
  simp only [WeeklyEventRow.key, hleague, hweek, hroster, htype]

/-- A new event of the league extends the ledger. -/
theorem Recorded.extend (h : Recorded leagueID a ledger) (hrun : Runs svc crypto ok a)
    (hstep : (backend svc crypto).Step a l b) {e : WeeklyEventRow}
    (he : e ∈ b.world.db.weeklyEvents.rows) (hleague : e.leagueID = leagueID)
    (hnew : ¬ ∃ e₀ ∈ a.world.db.weeklyEvents.rows, e₀.SameEvent e) :
    Recorded leagueID b (ledger ++ [e]) := by
  obtain ⟨hfresh, hissued, hthere, hkey, hs⟩ := (step_event hstep he).resolve_left hnew
  rw [hleague] at hthere hs
  have hold : ∀ e₀ ∈ ledger ++ [e], e₀ ∈ ledger ∨ e₀ = e := by simp
  constructor
  · rw [List.map_append, List.map_singleton]
    refine h.ids.append (List.nodup_singleton _) (List.disjoint_singleton.mpr fun hid => ?_)
    obtain ⟨e₀, he₀, heq⟩ := List.mem_map.mp hid
    exact hfresh (heq ▸ h.issued e₀ he₀)
  · rw [List.map_append, List.map_singleton]
    -- the database still has all events of the ledger, and the key was new there
    refine h.keys.append (List.nodup_singleton _) (List.disjoint_singleton.mpr fun hmem => ?_)
    obtain ⟨e₀, he₀, heq⟩ := List.mem_map.mp hmem
    exact hkey (heq ▸ h.kept hthere e₀ he₀)
  · intro e₀ he₀
    rcases hold e₀ he₀ with he₀ | rfl
    · exact step_issued hstep (h.issued e₀ he₀)
    · exact hissued
  · intro e₀ he₀
    rcases hold e₀ he₀ with he₀ | rfl
    · exact ⟨(h.league e₀ he₀).1, step_issued hstep (h.league e₀ he₀).2⟩
    · obtain ⟨r, hr, hid⟩ := List.mem_map.mp hthere
      exact ⟨hleague, step_issued hstep (hid ▸ hrun.references.leagues r hr)⟩
  · intro e₀ he₀
    rcases hold e₀ he₀ with he₀ | rfl
    · obtain ⟨entry, hqualified, hrest⟩ := h.qualified e₀ he₀
      exact ⟨entry, someTrace_qualified hstep hqualified, hrest⟩
    · obtain ⟨entry, hqualified, hrest⟩ := hrun.qualified_of_insert hstep hs
      exact ⟨entry, someTrace_qualified hstep hqualified, hrest⟩
  · intro e' he' hid
    by_cases hnew' : ∃ e₀ ∈ a.world.db.weeklyEvents.rows, e₀.SameEvent e'
    · obtain ⟨e₀, he₀, hsame⟩ := hnew'
      obtain ⟨e₁, he₁, hsame₁⟩ := h.rows e₀ he₀ ((congrArg Prod.fst hsame.key).symm.trans hid)
      exact ⟨e₁, List.mem_append_left _ he₁, hsame₁.trans hsame⟩
    · obtain rfl := new_event_unique hstep he hnew he' hnew'
      exact ⟨e, by simp, .refl e⟩
  · intro hleague' e₀ he₀
    rcases hold e₀ he₀ with he₀ | rfl
    · refine step_keeps_event hstep (h.kept hthere e₀ he₀) ?_
      change e₀.leagueID ∈ _
      rw [(h.league e₀ he₀).1]
      exact hleague'
    · exact List.mem_map_of_mem he

/-- Every step keeps the ledger or extends it by the event it records. -/
theorem Recorded.grow (h : Recorded leagueID a ledger) (hrun : Runs svc crypto ok a)
    (hstep : (backend svc crypto).Step a l b) : Recorded leagueID b ledger ∨
      ∃ e ∈ b.world.db.weeklyEvents.rows, (¬ ∃ e₀ ∈ a.world.db.weeklyEvents.rows, e₀.SameEvent e) ∧
        Recorded leagueID b (ledger ++ [e]) := by
  by_cases hnew : ∃ e ∈ b.world.db.weeklyEvents.rows, e.leagueID = leagueID ∧
      ¬ ∃ e₀ ∈ a.world.db.weeklyEvents.rows, e₀.SameEvent e
  · obtain ⟨e, he, hleague, hnot⟩ := hnew
    exact .inr ⟨e, he, hnot, h.extend hrun hstep he hleague hnot⟩
  · refine .inl (h.same hstep fun e he hleague => ?_)
    by_contra hnot
    exact hnew ⟨e, he, hleague, hnot⟩

/-- Every step keeps or extends the ledger. -/
theorem Recorded.step (h : Recorded leagueID a ledger) (hrun : Runs svc crypto ok a)
    (hstep : (backend svc crypto).Step a l b) : ∃ larger, ledger ⊆ larger ∧
      Recorded leagueID b larger := by
  rcases h.grow hrun hstep with hsame | ⟨e, -, -, hlarger⟩
  · exact ⟨ledger, List.Subset.refl _, hsame⟩
  · exact ⟨ledger ++ [e], List.subset_append_left _ _, hlarger⟩

/-! ## Events that were read and paid -/

/-- The events a query has returned are events of the ledger, each at most once. -/
def ReadFrom (ledger : List WeeklyEventRow) (rows : List WeeklyEvent) : Prop :=
  (rows.map WeeklyEvent.id).Nodup ∧
    ∀ r ∈ rows, ∃ e ∈ ledger, e.id = r.id ∧ e.amountCents = r.amountCents

/-- Every query for unexecuted events of the league has returned events of the ledger. -/
def ReadsLedger (leagueID : String) (a : BackendConfig) (ledger : List WeeklyEventRow) : Prop :=
  ∀ (i : ℕ) (t : BackendThread), a.threads[i]? = some t → ∀ week stream,
    (⟨.query (.unexecutedEvents leagueID week), .ok stream⟩ : Sigma Ret) ∈ t.trace →
      ReadFrom ledger stream.rows

/-- The word that pays an event. -/
def WeeklyEventRow.word (e : WeeklyEventRow) : UInt256 := abiWord (toMicroUSDC e.amountCents)

/-- The transaction pays events of the ledger, each once and with its amount. -/
def Submission.PaysFrom (ledger : List WeeklyEventRow) (s : Submission) : Prop :=
  ∃ events : List WeeklyEventRow, events ⊆ ledger ∧ (events.map WeeklyEventRow.id).Nodup ∧
    s.purpose.eventIDs = events.map WeeklyEventRow.id ∧ s.amounts = events.map WeeklyEventRow.word

/-- Every weekly transaction of the league pays events of the ledger. -/
def PaysLedger (leagueID : String) (a : BackendConfig) (ledger : List WeeklyEventRow) : Prop :=
  ∀ s ∈ a.world.submissions, ∀ eventIDs, s.purpose = .weekly leagueID eventIDs → s.PaysFrom ledger

/-- A read stays one from a larger ledger. -/
theorem ReadFrom.mono {rows : List WeeklyEvent} (h : ReadFrom ledger rows)
    (hlarger : ledger ⊆ larger) : ReadFrom larger rows := by
  refine ⟨h.1, fun r hr => ?_⟩
  obtain ⟨e, he, hsame⟩ := h.2 r hr
  exact ⟨e, hlarger he, hsame⟩

/-- A payment stays one from a larger ledger. -/
theorem Submission.PaysFrom.mono {s : Submission} (h : s.PaysFrom ledger)
    (hlarger : ledger ⊆ larger) : s.PaysFrom larger := by
  obtain ⟨events, hevents, hrest⟩ := h
  exact ⟨events, List.Subset.trans hevents hlarger, hrest⟩

/-- Rows of the league with one ID are the same row. -/
theorem Recorded.eq_of_id (h : Recorded leagueID a ledger) {e e' : WeeklyEventRow}
    (he : e ∈ a.world.db.weeklyEvents.rows) (he' : e' ∈ a.world.db.weeklyEvents.rows)
    (hleague : e.leagueID = leagueID) (hleague' : e'.leagueID = leagueID) (hid : e.id = e'.id) :
    e = e' := by
  obtain ⟨e₀, he₀, hsame⟩ := h.rows e he hleague
  obtain ⟨e₁, he₁, hsame'⟩ := h.rows e' he' hleague'
  have hid₀ : e₀.id = e₁.id := hsame.id.symm.trans (hid.trans hsame'.id)
  obtain rfl := List.inj_on_of_nodup_map h.ids he₀ he₁ hid₀
  exact Table.eq_of_key he he' (hsame.key.trans hsame'.key.symm)

/-- The unexecuted events of the league are events of the ledger. -/
theorem Recorded.unexecuted (h : Recorded leagueID a ledger) {week : ℤ} :
    ReadFrom ledger (a.world.db.unexecutedEvents leagueID week) := by
  have hmem : ∀ e ∈ a.world.db.weeklyEvents.rows.filter fun e =>
      e.leagueID = leagueID && e.week = week && e.executedAt.isNone,
      e ∈ a.world.db.weeklyEvents.rows ∧ e.leagueID = leagueID := by
    intro e he
    obtain ⟨he, hselected⟩ := List.mem_filter.mp he
    simp only [Bool.and_eq_true, decide_eq_true_eq] at hselected
    exact ⟨he, hselected.1.1⟩
  constructor
  · rw [Database.unexecutedEvents, List.map_map]
    refine List.Nodup.map_on (fun e he e' he' hid => ?_)
      (a.world.db.weeklyEvents.unique.of_map.filter _)
    obtain ⟨he, hleague⟩ := hmem e he
    obtain ⟨he', hleague'⟩ := hmem e' he'
    exact h.eq_of_id he he' hleague hleague' hid
  · intro r hr
    obtain ⟨e, he, rfl⟩ := List.mem_map.mp hr
    obtain ⟨he, hleague⟩ := hmem e he
    obtain ⟨e₀, he₀, hsame⟩ := h.rows e he hleague
    exact ⟨e₀, he₀, hsame.id.symm, hsame.amountCents.symm⟩

/-- A truthful answer is a read from the ledger. -/
theorem Recorded.answers (h : Recorded leagueID a ledger) {week : ℤ}
    {stream : RowStream WeeklyEvent}
    (hanswer : (Query.unexecutedEvents leagueID week).Answers a.world.db stream) :
    ReadFrom ledger stream.rows := by
  obtain ⟨order, hperm, -, hfirst, -⟩ := hanswer
  obtain ⟨hnodup, hrows⟩ : ReadFrom ledger (a.world.db.unexecutedEvents leagueID week) :=
    h.unexecuted
  constructor
  · exact ((hperm.map _).nodup_iff.mpr hnodup).sublist (hfirst.sublist.map _)
  · exact fun r hr => hrows r (hperm.mem_iff.mp (hfirst.mem hr))

/-- What was read stays read from the ledger, and a new answer is. -/
theorem ReadsLedger.step (h : ReadsLedger leagueID a ledger)
    (hrecorded : Recorded leagueID a ledger)
    (hstep : (backend svc crypto).Step a l b) (hlarger : ledger ⊆ larger) :
    ReadsLedger leagueID b larger := by
  intro i t' ht' week stream hread
  rcases hstep.thread_cases ht' with ⟨j, rfl, rfl⟩ | ⟨hbefore, -⟩ | ⟨t, rfl, ht, rfl⟩ |
    ⟨t, c, r, next, rfl, ht, hrest, -, hhandles, rfl⟩
  · cases hread
  · exact (h i t' hbefore week stream hread).mono hlarger
  · exact (h i t ht week stream hread).mono hlarger
  · rcases List.mem_cons.mp hread with heq | hread
    · cases heq
      exact (hrecorded.answers hhandles.2).mono hlarger
    · exact (h i t ht week stream hread).mono hlarger

/-- Events that were read determine events of the ledger. -/
theorem ReadFrom.events {rows : List WeeklyEvent} (h : ReadFrom ledger rows) :
    ∃ events : List WeeklyEventRow, events ⊆ ledger ∧ (events.map WeeklyEventRow.id).Nodup ∧
      rows.map WeeklyEvent.id = events.map WeeklyEventRow.id ∧
        rows.map WeeklyEvent.amountCents = events.map WeeklyEventRow.amountCents := by
  obtain ⟨hnodup, hrows⟩ := h
  have hsome : ∃ events : List WeeklyEventRow, events ⊆ ledger ∧
      rows.map WeeklyEvent.id = events.map WeeklyEventRow.id ∧
        rows.map WeeklyEvent.amountCents = events.map WeeklyEventRow.amountCents := by
    clear hnodup
    induction rows with
    | nil => exact ⟨[], List.nil_subset _, rfl, rfl⟩
    | cons r rows ih =>
      obtain ⟨e, he, hid, hamount⟩ := hrows r List.mem_cons_self
      obtain ⟨events, hevents, hids, hamounts⟩ := ih fun r hr => hrows r (List.mem_cons_of_mem _ hr)
      exact ⟨e :: events, List.cons_subset.mpr ⟨he, hevents⟩, by simp [hid, hids],
        by simp [hamount, hamounts]⟩
  obtain ⟨events, hevents, hids, hamounts⟩ := hsome
  exact ⟨events, hevents, hids ▸ hnodup, hids, hamounts⟩

/-- A part of a read is a read. -/
theorem ReadFrom.sublist {rows some : List WeeklyEvent} (h : ReadFrom ledger rows)
    (hsome : some.Sublist rows) : ReadFrom ledger some :=
  ⟨h.1.sublist (hsome.map _), fun r hr => h.2 r (hsome.subset hr)⟩

/-- Transactions that were sent stay paid from the ledger, and a new one is. -/
theorem PaysLedger.step (h : PaysLedger leagueID a ledger) (hreads : ReadsLedger leagueID a ledger)
    (hrun : Runs svc crypto ok a) (hstep : (backend svc crypto).Step a l b)
    (hlarger : ledger ⊆ larger) : PaysLedger leagueID b larger := by
  intro s' hs' eventIDs hpurpose
  obtain ⟨k, hk⟩ := List.mem_iff_getElem?.mp hs'
  rcases step_submission_amounts hstep hk with ⟨s, hs, hsame, hamounts, -⟩ |
    ⟨-, i, key, recipients, amounts, r, rfl, hwords⟩
  · obtain ⟨events, hevents, hnodup, hids, hpaid⟩ :=
      (h s (List.mem_of_getElem? hs) eventIDs (hsame.symm.trans hpurpose)).mono hlarger
    exact ⟨events, hevents, hnodup, hsame ▸ hids, hamounts ▸ hpaid⟩
  · rw [hpurpose] at hstep
    obtain ⟨t, ht⟩ : ∃ t : BackendThread, a.threads[i]? = some t := by
      cases hstep with
      | call ht => exact ⟨_, ht⟩
    obtain ⟨cents, hchecked⟩ := hrun.checked hstep ht
    obtain ⟨week, stream, rows, hread, hsublist, hids, hcents⟩ := hchecked.configured
    obtain ⟨events, hevents, hnodup, hrows, hamounts⟩ :=
      ((hreads i t ht week stream hread).sublist hsublist).events
    refine ⟨events, List.Subset.trans hevents hlarger, hnodup, ?_, ?_⟩
    · rw [hpurpose]
      exact hids.trans hrows
    · rw [hwords, hchecked.microUSDC, hcents, hamounts]
      simp [WeeklyEventRow.word, Function.comp_def]

/-! ## The ledger of a run -/

/-- In every run there is a ledger that all reads and all weekly transactions of the league
agree with. -/
theorem Runs.exists_ledger (h : Runs svc crypto ok a) (leagueID : String) :
    ∃ ledger, Recorded leagueID a ledger ∧ ReadsLedger leagueID a ledger ∧
      PaysLedger leagueID a ledger := by
  induction h with
  | refl =>
    refine ⟨[], ?_, ?_, ?_⟩
    · constructor <;> simp [initialConfig, Table.empty]
    · simp [ReadsLedger, initialConfig]
    · simp [PaysLedger, initialConfig]
  | tail hrun hlast ih =>
    obtain ⟨ledger, hrecorded, hreads, hpays⟩ := ih
    obtain ⟨l, -, hstep⟩ := hlast
    obtain ⟨larger, hlarger, hrecorded'⟩ := hrecorded.step hrun hstep
    exact ⟨larger, hrecorded', hreads.step hrecorded hstep hlarger,
      hpays.step hreads hrun hstep hlarger⟩

end Wagr
