import Wagr.Database.Effects

/-!
# What statements do to the weekly events

An event keeps its ID, its key and its amount. New events come from one statement, which needs
the league, and events only disappear with their league.
-/

namespace Wagr

open Relational

variable {now : ℕ} {fresh : String} {db db' : Database} {s : Statement}

/-- The rows are one event: marking it executed changes nothing else. -/
structure WeeklyEventRow.SameEvent (e e' : WeeklyEventRow) : Prop where
  id : e'.id = e.id
  key : e'.key = e.key
  amountCents : e'.amountCents = e.amountCents

/-- An event is itself. -/
theorem WeeklyEventRow.SameEvent.refl (e : WeeklyEventRow) : e.SameEvent e := ⟨rfl, rfl, rfl⟩

/-- Two changes that keep the event keep it together. -/
theorem WeeklyEventRow.SameEvent.trans {e e' e'' : WeeklyEventRow} (h : e.SameEvent e')
    (h' : e'.SameEvent e'') : e.SameEvent e'' :=
  ⟨h'.id.trans h.id, h'.key.trans h.key, h'.amountCents.trans h.amountCents⟩

/-- Where an event after a statement comes from. -/
def Statement.EventOrigin (fresh : String) (db : Database) (s : Statement) (e' : WeeklyEventRow) :
    Prop :=
  (∃ e ∈ db.weeklyEvents.rows, e.SameEvent e') ∨
    (e'.id = fresh ∧ e'.leagueID ∈ db.leagues.rows.map LeagueRow.id ∧
      e'.key ∉ db.weeklyEvents.rows.map WeeklyEventRow.key ∧
      s = .insertWeeklyEvent e'.leagueID e'.week e'.rosterID e'.platformUserID e'.payoutType
        e'.points e'.amountCents e'.walletAddress)

/-- An event that was there has an origin. -/
theorem eventOrigin_of_mem {e : WeeklyEventRow} (h : e ∈ db.weeklyEvents.rows) :
    s.EventOrigin fresh db e :=
  .inl ⟨e, h, .refl e⟩

/-- The events after a statement. -/
theorem Statement.run_events {r : s.Result} (h : s.run now fresh db = some (r, db'))
    {e' : WeeklyEventRow} (he' : e' ∈ db'.weeklyEvents.rows) : s.EventOrigin fresh db e' := by
  cases s with
  | insertWeeklyEvent leagueID week rosterID platformUserID payoutType points amountCents wallet =>
    simp only [run] at h
    split at h
    · rename_i hadmitted
      split at h
      · cases h
        exact eventOrigin_of_mem he'
      · rename_i hnew
        cases h
        rcases List.mem_append.mp he' with he' | he'
        · exact eventOrigin_of_mem he'
        · obtain rfl := List.mem_singleton.mp he'
          exact .inr ⟨rfl, hadmitted.2, hnew, rfl⟩
    · cases h
  | markWeeklyEventExecuted id txHash =>
    cases h
    obtain ⟨e, he, rfl⟩ := List.mem_map.mp he'
    refine .inl ⟨e, he, ?_⟩
    split
    · exact ⟨rfl, rfl, rfl⟩
    · exact .refl e
  | deleteLeague leagueID =>
    cases h
    simp only [Table.mem_deleteWhere] at he'
    exact eventOrigin_of_mem he'.1
  | importLeague league members =>
    rw [import_frame h] at he'
    exact eventOrigin_of_mem he'
  | upsertProfile p =>
    simp only [run] at h
    split at h <;> cases h
    exact eventOrigin_of_mem he'
  | upsertNonce walletAddress walletType nonce =>
    simp only [run] at h
    split at h
    · cases h
      exact eventOrigin_of_mem he'
    · split at h <;> cases h
      exact eventOrigin_of_mem he'
  | _ =>
    cases h
    exact eventOrigin_of_mem he'

/-- An event whose league is there after the statement is still there. -/
theorem Statement.run_keeps_events {r : s.Result} (h : s.run now fresh db = some (r, db'))
    {key : String × ℤ × ℤ × String} (hkey : key ∈ db.weeklyEvents.rows.map WeeklyEventRow.key)
    (hleague : key.1 ∈ db'.leagues.rows.map LeagueRow.id) :
    key ∈ db'.weeklyEvents.rows.map WeeklyEventRow.key := by
  cases s with
  | insertWeeklyEvent leagueID week rosterID platformUserID payoutType points amountCents wallet =>
    simp only [run] at h
    split at h
    · split at h
      · cases h
        exact hkey
      · cases h
        obtain ⟨e, he, rfl⟩ := List.mem_map.mp hkey
        exact List.mem_map_of_mem (List.mem_append_left _ he)
    · cases h
  | markWeeklyEventExecuted id txHash =>
    cases h
    obtain ⟨e, he, rfl⟩ := List.mem_map.mp hkey
    refine List.mem_map.mpr ⟨_, List.mem_map_of_mem he, ?_⟩
    dsimp only
    split <;> rfl
  | deleteLeague leagueID =>
    cases h
    obtain ⟨e, he, rfl⟩ := List.mem_map.mp hkey
    refine List.mem_map_of_mem ((Table.mem_deleteWhere ..).mpr ⟨he, ?_⟩)
    obtain ⟨l, hl, hid⟩ := List.mem_map.mp hleague
    have hne := ((Table.mem_deleteWhere ..).mp hl).2
    have hsame : l.id = e.leagueID := hid
    simpa [hsame] using hne
  | importLeague league members =>
    rw [import_frame h]
    exact hkey
  | upsertProfile p =>
    simp only [run] at h
    split at h <;> cases h
    exact hkey
  | upsertNonce walletAddress walletType nonce =>
    simp only [run] at h
    split at h
    · cases h
      exact hkey
    · split at h <;> cases h
      exact hkey
  | _ =>
    cases h
    exact hkey

/-! ## Every column of an event -/

/-- How a statement may change an event: it marks it executed. -/
def Statement.EventStep (now : ℕ) (s : Statement) (e e' : WeeklyEventRow) : Prop :=
  e' = e ∨ ∃ txHash, s = .markWeeklyEventExecuted e.id txHash ∧
    e' = { e with txHash := some txHash, executedAt := some now }

/-- Events keep everything but their execution. -/
theorem Statement.EventStep.sameEvent {e e' : WeeklyEventRow} (h : s.EventStep now e e') :
    e.SameEvent e' ∧ e'.walletAddress = e.walletAddress ∧ e'.payoutType = e.payoutType := by
  rcases h with rfl | ⟨txHash, -, rfl⟩
  · exact ⟨.refl _, rfl, rfl⟩
  · exact ⟨⟨rfl, rfl, rfl⟩, rfl, rfl⟩

/-- The event is the new row of an insertion that the constraints admit. -/
def Statement.InsertsEvent (fresh : String) (db : Database) (s : Statement) (e : WeeklyEventRow) :
    Prop :=
  e.id = fresh ∧ e.payoutType ∈ weeklyPayoutTypes ∧ e.txHash = none ∧ e.executedAt = none ∧
    e.leagueID ∈ db.leagues.rows.map LeagueRow.id ∧
    s = .insertWeeklyEvent e.leagueID e.week e.rosterID e.platformUserID e.payoutType e.points
      e.amountCents e.walletAddress

/-- The events after a statement, with all their columns. -/
theorem Statement.run_eventStep {r : s.Result} (h : s.run now fresh db = some (r, db'))
    {e' : WeeklyEventRow} (he' : e' ∈ db'.weeklyEvents.rows) :
    (∃ e ∈ db.weeklyEvents.rows, s.EventStep now e e') ∨ s.InsertsEvent fresh db e' := by
  have hsame : db'.weeklyEvents = db.weeklyEvents →
      (∃ e ∈ db.weeklyEvents.rows, s.EventStep now e e') ∨ s.InsertsEvent fresh db e' :=
    fun heq => .inl ⟨e', heq ▸ he', .inl rfl⟩
  cases s with
  | insertWeeklyEvent leagueID week rosterID platformUserID payoutType points amountCents wallet =>
    simp only [run] at h
    split at h
    · rename_i hadmitted
      split at h
      · cases h
        exact hsame rfl
      · cases h
        rcases List.mem_append.mp he' with he' | he'
        · exact .inl ⟨e', he', .inl rfl⟩
        · obtain rfl := List.mem_singleton.mp he'
          exact .inr ⟨rfl, hadmitted.1, rfl, rfl, hadmitted.2, rfl⟩
    · cases h
  | markWeeklyEventExecuted id txHash =>
    cases h
    obtain ⟨e, he, rfl⟩ := List.mem_map.mp he'
    refine .inl ⟨e, he, ?_⟩
    by_cases hid : e.id = id
    · subst hid
      exact .inr ⟨txHash, rfl, by simp⟩
    · exact .inl (by simp [hid])
  | deleteLeague leagueID =>
    cases h
    exact .inl ⟨e', (Table.mem_deleteWhere.mp he').1, .inl rfl⟩
  | importLeague league members =>
    rw [import_frame h] at hsame
    exact hsame rfl
  | upsertProfile p =>
    simp only [run] at h
    split at h <;> cases h
    exact hsame rfl
  | upsertNonce walletAddress walletType nonce =>
    simp only [run] at h
    split at h
    · cases h
      exact hsame rfl
    · split at h <;> cases h
      exact hsame rfl
  | _ =>
    cases h
    exact hsame rfl

end Wagr
