import Wagr.Service.Steps
import Wagr.Database.Effects
import Wagr.Service.Scenario

/-!
# Complete leagues are settled

The settlement stores the status `complete` together with the payout status `executed`, and
the status refresh maps `complete` down. An import stores whatever status the platform
reports, and a reactivation brings a league back with the status it has. These two are
the only statements that can leave a complete league unsettled.
-/

namespace Wagr

open Interaction Relational

/-- A complete league that is not cancelled has been settled. -/
def LeagueRow.CompleteSettled (l : LeagueRow) : Prop :=
  l.cancelledAt = none → l.status = some "complete" → l.payoutStatus = .executed

instance (l : LeagueRow) : Decidable l.CompleteSettled :=
  inferInstanceAs (Decidable (_ → _ → _))

/-- All complete leagues that are not cancelled have been settled. -/
def Database.CompleteSettled (db : Database) : Prop := ∀ l ∈ db.leagues.rows, l.CompleteSettled

instance (db : Database) : Decidable db.CompleteSettled :=
  inferInstanceAs (Decidable (∀ l ∈ db.leagues.rows, l.CompleteSettled))

/-- The league may become complete: it is cancelled or has been settled. -/
def LeagueRow.MayComplete (l : LeagueRow) : Prop :=
  l.cancelledAt ≠ none ∨ l.payoutStatus = .executed

instance (l : LeagueRow) : Decidable l.MayComplete :=
  inferInstanceAs (Decidable (_ ∨ _))

/-- An import that reports `complete` finds its league cancelled or settled, and a reactivated
league is not both complete and unsettled. -/
def Statement.RespectsSettlement (db : Database) : Statement → Prop
  | .importLeague league _ => league.status = "complete" →
      ∃ r ∈ db.leagueByPlatform league.platform league.platformLeagueID, r.MayComplete
  | .reactivateLeague leagueID => ∀ l ∈ db.leagues.rows, l.id = leagueID →
      l.status = some "complete" → l.payoutStatus = .executed
  | _ => True

instance (db : Database) (s : Statement) : Decidable (s.RespectsSettlement db) :=
  match s with
  | .importLeague _ _ => inferInstanceAs (Decidable (_ → ∃ r ∈ _, LeagueRow.MayComplete r))
  | .reactivateLeague _ => inferInstanceAs (Decidable (∀ l ∈ db.leagues.rows, _ → _ → _))
  | .upsertProfile _ | .deleteMembership _ _ | .deleteLeague _ | .updateSettings _ _ _
  | .setPaymentToken _ _ _ | .markPaid _ _ _ | .cancelLeague _ | .resetRefunded _
  | .markRefunded _ _ _ | .insertWeeklyEvent _ _ _ _ _ _ _ _ | .markWeeklyEventExecuted _ _
  | .markSettledWithoutPayout _ | .claimPayout _ | .markPayoutFailed _ | .markPayoutExecuted _ _
  | .recordMemberPayout _ _ _ _ _ | .updateLeagueStatus _ _ _ | .upsertNonce _ _ _
  | .rotateNonce _ _ => isTrue trivial

/-- The statement a step brings into effect, if there is one, respects the settlement. -/
def RespectsSettlement (a : BackendConfig) (l : BackendLabel) : Prop :=
  ∀ s ∈ applied a l, s.RespectsSettlement a.world.db

instance (a : BackendConfig) (l : BackendLabel) : Decidable (RespectsSettlement a l) :=
  inferInstanceAs (Decidable (∀ s ∈ applied a l, s.RespectsSettlement a.world.db))

section Statements

variable {now : ℕ} {fresh : String} {db db' : Database}

/-- A statement of the backend that respects the settlement keeps complete leagues settled. -/
theorem Statement.completeSettled_of_respects {s : Statement} {r : s.Result}
    (hrun : s.run now fresh db = some (r, db')) {req : Request} (hmay : req.mayExec s)
    (hinv : db.CompleteSettled) (hok : s.RespectsSettlement db) : db'.CompleteSettled := by
  intro l' hl' hactive hcomplete
  rcases s.run_leagues hrun hl' with ⟨l, hl, rfl | hstep⟩ | ⟨league, members, rfl, rfl, hnew⟩
  · exact hinv _ hl hactive hcomplete
  · have hl := hinv l hl
    cases s with
    | importLeague league members =>
      obtain ⟨rfl, hfound⟩ := hstep
      obtain ⟨r, hr, hmay⟩ := hok (Option.some.inj hcomplete)
      obtain rfl : r = l := Option.some.inj (hr.symm.trans hfound)
      exact hmay.resolve_left fun h => h hactive
    | reactivateLeague leagueID =>
      obtain ⟨hid, hcancelled, rfl⟩ := hstep
      exact hok l (by assumption) hid hcomplete
    | updateSettings leagueID fee payoutJSON =>
      obtain ⟨hid, rfl⟩ := hstep
      exact hl hactive hcomplete
    | cancelLeague leagueID =>
      obtain ⟨hid, hcancelled, rfl⟩ := hstep
      cases hactive
    | claimPayout leagueID | markPayoutFailed leagueID =>
      obtain ⟨hid, hstatus, rfl⟩ := hstep
      exact absurd (hl hactive hcomplete) (by simp [hstatus])
    | markSettledWithoutPayout leagueID =>
      obtain ⟨hid, hpending, rfl⟩ := hstep
      rfl
    | markPayoutExecuted leagueID txHash =>
      obtain ⟨hid, hexecuting, rfl⟩ := hstep
      rfl
    | updateLeagueStatus leagueID oldStatus newStatus =>
      obtain ⟨hid, hold, rfl⟩ := hstep
      cases req with
      | refreshLeagueStatuses => exact absurd (Option.some.inj hcomplete) hmay
      | _ => exact hmay.elim
    | _ => exact hstep.elim
  · obtain ⟨r, hr, -⟩ := hok (Option.some.inj hcomplete)
    rw [hnew] at hr
    cases hr

/-- A statement after which complete leagues are settled respects the settlement. -/
theorem Statement.respects_of_completeSettled {s : Statement} {r : s.Result}
    (hrun : s.run now fresh db = some (r, db')) (hinv : db.CompleteSettled)
    (hinv' : db'.CompleteSettled) : s.RespectsSettlement db := by
  cases s with
  | importLeague league members =>
    intro hcomplete
    obtain ⟨l, mid, hupsert, hleagues⟩ := import_leagues hrun
    have hmem := fun l' => @mem_upsertLeague _ _ _ _ _ _ hupsert l'
    rw [← hleagues] at hmem
    cases hfound : db.leagueByPlatform league.platform league.platformLeagueID with
    | some r =>
      simp only [hfound] at hmem
      have hsettled := hinv' (league.refresh now r) ((hmem _).mpr (.inl rfl))
      refine ⟨r, rfl, ?_⟩
      by_cases hactive : r.cancelledAt = none
      · exact .inr (hsettled hactive (congrArg some hcomplete))
      · exact .inl hactive
    | none =>
      simp only [hfound] at hmem
      have hsettled := hinv' (league.row now fresh) ((hmem _).mpr (.inl rfl))
      cases hsettled rfl (congrArg some hcomplete)
  | reactivateLeague leagueID =>
    intro l hl hid hcomplete
    cases hrun
    by_cases hactive : l.cancelledAt = none
    · exact hinv l hl hactive hcomplete
    · refine hinv' { l with cancelledAt := none, updatedAt := now } ?_ rfl hcomplete
      simp only [Table.mem_updateWhere]
      exact ⟨l, hl, by simp [hid, Option.isSome_iff_ne_none, hactive]⟩
  | _ => trivial

end Statements

variable {svc : Service} {crypto : Crypto} {a : BackendConfig}

/-- Along every run in which each import and reactivation respects the settlement, complete
leagues are settled, and a further step keeps it so exactly if it does the same. -/
theorem completeSettled_iff (h : Runs svc crypto RespectsSettlement a) :
    a.world.db.CompleteSettled ∧ ∀ l b, (backend svc crypto).Step a l b →
      (b.world.db.CompleteSettled ↔ RespectsSettlement a l) := by
  have hstep : ∀ {a b : BackendConfig} {l : BackendLabel}, Runs svc crypto RespectsSettlement a →
      a.world.db.CompleteSettled → (backend svc crypto).Step a l b →
      (b.world.db.CompleteSettled ↔ RespectsSettlement a l) := by
    intro a b l hrun hinv hl
    rcases step_db hl with ⟨hnone, hdb, -⟩ | ⟨s, hs, now, fresh, r, -, hs', -⟩
    · simp [RespectsSettlement, hnone, hdb, hinv]
    · obtain ⟨req, hmay⟩ := hrun.mayExec hl hs
      have hrespects : RespectsSettlement a l ↔ s.RespectsSettlement a.world.db := by
        simp [RespectsSettlement, hs]
      rw [hrespects]
      exact ⟨Statement.respects_of_completeSettled hs' hinv,
        Statement.completeSettled_of_respects hs' hmay hinv⟩
  have hinv : a.world.db.CompleteSettled := by
    induction h with
    | refl => simp [initialConfig, Database.CompleteSettled, Table.empty]
    | tail hrun hlast ih =>
      obtain ⟨l, hok, hl⟩ := hlast
      exact (hstep hrun ih hl).mpr hok
  exact ⟨hinv, fun l b hl => hstep h hinv hl⟩

/-- A league is imported in season, settled without rules by the season-end job, and imported
again after the platform has completed it. -/
def settledImport : Schedule :=
  Schedule.importLeague 0 "u1" "sleeper" (.mock "in_season") [] "l1" ++
    [.spawn .runSeasonEndPayoutJob, .call 1 (.succeed 0 ""),
      .call 1 (.reply (.platformLeague "sleeper" "7") (.ok (.mock "complete"))),
      .call 1 (.succeed 1 "s1")] ++
    Schedule.importLeague 2 "u1" "sleeper" (.mock "complete") [] "l2"

/-- The equivalence at the end of that run, where the league is complete. -/
theorem completeSettled_settledImport : ∃ a, Runs .mock .mock RespectsSettlement a ∧
    (∃ l ∈ a.world.db.leagues.rows, l.cancelledAt = none ∧ l.status = some "complete") ∧
    a.world.db.CompleteSettled ∧ ∀ l b, (backend .mock .mock).Step a l b →
      (b.world.db.CompleteSettled ↔ RespectsSettlement a l) := by
  obtain ⟨a, hrun, hrow⟩ := settledImport.exists_run .mock .mock RespectsSettlement
    (fun a => ∃ l ∈ a.world.db.leagues.rows, l.cancelledAt = none ∧ l.status = some "complete")
    (by decide)
  exact ⟨a, hrun, hrow, completeSettled_iff hrun⟩

/-- The first import of a league the platform has already completed leaves it complete and
unsettled. -/
theorem exists_complete_unsettled :
    ∃ a, Runs .mock .mock (fun _ _ => True) a ∧ ¬ a.world.db.CompleteSettled :=
  (Schedule.importLeague 0 "u1" "sleeper" (.mock "complete") [] "l1").exists_run .mock .mock
    (fun _ _ => True) (fun a => ¬ a.world.db.CompleteSettled) (by decide)

end Wagr
