import Wagr.Database.EventEffects
import Wagr.Service.Rows

/-!
# Weekly events along a run

An event is known by its ID: IDs are drawn once, so an event that is found again under its ID is
the same event, even if its league was deleted and imported again in between.
-/

namespace Wagr

open Interaction System Relational

variable {svc : Service} {crypto : Crypto} {a b : BackendConfig} {l : BackendLabel}
  {ok : BackendConfig → BackendLabel → Prop}

/-- An event after a step, with all its columns: it was there, was marked, or is new. -/
theorem step_eventStep (hstep : (backend svc crypto).Step a l b) {e' : WeeklyEventRow}
    (he' : e' ∈ b.world.db.weeklyEvents.rows) :
    (∃ e ∈ a.world.db.weeklyEvents.rows, e' = e ∨
      ∃ s now, applied a l = some s ∧ s.EventStep now e e') ∨
    ∃ s fresh, applied a l = some s ∧ fresh ∉ a.world.issued ∧ fresh ∈ b.world.issued ∧
      s.InsertsEvent fresh a.world.db e' := by
  rcases step_db hstep with ⟨-, hdb, -⟩ | ⟨s, hs, now, fresh, r, hfresh, hrun, hissued, -⟩
  · exact .inl ⟨e', hdb ▸ he', .inl rfl⟩
  · rcases s.run_eventStep hrun he' with ⟨e, he, hmoves⟩ | hinserts
    · exact .inl ⟨e, he, .inr ⟨s, now, hs, hmoves⟩⟩
    · exact .inr ⟨s, fresh, hs, hfresh, hissued ▸ List.mem_cons_self, hinserts⟩

/-- Events have IDs of their own, which were drawn. -/
structure EventIDs (w : World) : Prop where
  unique : ∀ e ∈ w.db.weeklyEvents.rows, ∀ e' ∈ w.db.weeklyEvents.rows, e.id = e'.id → e = e'
  issued : ∀ e ∈ w.db.weeklyEvents.rows, e.id ∈ w.issued

/-- New events get new IDs. -/
theorem EventIDs.step (h : EventIDs a.world) (hstep : (backend svc crypto).Step a l b) :
    EventIDs b.world := by
  have hcases : ∀ e' ∈ b.world.db.weeklyEvents.rows,
      (∃ e ∈ a.world.db.weeklyEvents.rows, e.SameEvent e') ∨
      e'.id ∉ a.world.issued ∧ e'.id ∈ b.world.issued ∧ applied a l = some (.insertWeeklyEvent
        e'.leagueID e'.week e'.rosterID e'.platformUserID e'.payoutType e'.points e'.amountCents
        e'.walletAddress) := by
    intro e' he'
    rcases step_eventStep hstep he' with ⟨e, he, rfl | ⟨s, now, -, hmoves⟩⟩ |
      ⟨s, fresh, hs, hfresh, hissued, hid, -, -, -, -, rfl⟩
    · exact .inl ⟨e', he, .refl e'⟩
    · exact .inl ⟨e, he, hmoves.sameEvent.1⟩
    · exact .inr ⟨hid ▸ hfresh, hid ▸ hissued, hs⟩
  constructor
  · intro e he e' he' hid
    rcases hcases e he with ⟨e₀, he₀, hsame⟩ | ⟨hnew, -, hs⟩ <;>
      rcases hcases e' he' with ⟨e₁, he₁, hsame'⟩ | ⟨hnew', -, hs'⟩
    · obtain rfl := h.unique e₀ he₀ e₁ he₁ (hsame.id.symm.trans (hid.trans hsame'.id))
      exact Table.eq_of_key he he' (hsame.key.trans hsame'.key.symm)
    · exact absurd (h.issued e₀ he₀) (hsame.id ▸ hid ▸ hnew')
    · exact absurd (h.issued e₁ he₁) (hsame'.id ▸ hid ▸ hnew)
    · have heq := hs.symm.trans hs'
      simp only [Option.some.injEq, Statement.insertWeeklyEvent.injEq] at heq
      obtain ⟨hleague, hweek, hroster, -, htype, -⟩ := heq
      exact Table.eq_of_key he he'
        (by simp only [WeeklyEventRow.key, hleague, hweek, hroster, htype])
  · intro e he
    rcases hcases e he with ⟨e₀, he₀, hsame⟩ | ⟨-, hissued, -⟩
    · exact hsame.id.symm ▸ step_issued hstep (h.issued e₀ he₀)
    · exact hissued

/-- Events have IDs of their own in every run. -/
theorem Runs.eventIDs (h : Runs svc crypto ok a) : EventIDs a.world := by
  refine h.invariant (I := fun a => EventIDs a.world) ?_ fun hinv _ hstep => hinv.step hstep
  constructor <;> simp [initialConfig, Table.empty]

/-- An event with the ID of an earlier one is that event: its key, its amount and its wallet are
the same. -/
theorem Runs.event_since (h : Runs svc crypto ok a) (hlater : (backend svc crypto).Reaches ok a b)
    {e e' : WeeklyEventRow} (he : e ∈ a.world.db.weeklyEvents.rows)
    (he' : e' ∈ b.world.db.weeklyEvents.rows) (hid : e'.id = e.id) :
    e.SameEvent e' ∧ e'.walletAddress = e.walletAddress := by
  induction hlater generalizing e' with
  | refl =>
    obtain rfl := h.eventIDs.unique e' he' e he hid
    exact ⟨.refl _, rfl⟩
  | @tail b c hrun hlast ih =>
    obtain ⟨l, -, hstep⟩ := hlast
    rcases step_eventStep hstep he' with ⟨e₁, he₁, rfl | ⟨s, now, -, hmoves⟩⟩ |
      ⟨s, fresh, -, hfresh, -, hinserts⟩
    · exact ih he₁ hid
    · obtain ⟨hsame, hwallet, -⟩ := hmoves.sameEvent
      obtain ⟨hsame', hwallet'⟩ := ih he₁ (hsame.id.symm.trans hid)
      exact ⟨hsame'.trans hsame, hwallet.trans hwallet'⟩
    · have hissued : e.id ∈ b.world.issued :=
        Reaches.invariant (I := fun d => e.id ∈ d.world.issued) hrun (h.eventIDs.issued e he)
          fun hinv _ hstep => step_issued hstep hinv
      exact absurd hissued (hid ▸ hinserts.1 ▸ hfresh)

end Wagr
