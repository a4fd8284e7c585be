import Wagr.Database.Integrity
import Wagr.Service.Events
import Wagr.Service.Scenario

/-!
# The database stays consistent

Whatever requests and jobs are interleaved, and whichever of their statements fail or take effect
late, no row breaks a check of the migrations, every reference leads to a row, and no league of a
platform is there twice.
-/

namespace Wagr

open Interaction Protocol System Relational

variable {svc : Service} {crypto : Crypto} {a b : BackendConfig} {l : BackendLabel}
  {ok : BackendConfig → BackendLabel → Prop}

/-- What holds of the tables beyond their keys. -/
structure Database.Consistent (db : Database) : Prop where
  users : ∀ u ∈ db.users.rows, u.walletType = "hedera"
  userIDs : (db.users.rows.map UserRow.id).Nodup
  profiles : ∀ p ∈ db.profiles.rows, ∃ u ∈ db.users.rows, u.id = p.userID
  leagues : ∀ r ∈ db.leagues.rows, r.Valid
  /-- `UNIQUE (platform, platform_league_id)`. -/
  platformLeagues :
    (db.leagues.rows.map fun r => (r.platform, r.platformLeagueID)).Nodup
  members : ∀ m ∈ db.members.rows, m.Valid
  memberLeagues : ∀ m ∈ db.members.rows, ∃ r ∈ db.leagues.rows,
    r.id = m.leagueID ∧ r.platform = m.platform
  events : ∀ e ∈ db.weeklyEvents.rows, e.Valid
  eventLeagues : ∀ e ∈ db.weeklyEvents.rows, ∃ r ∈ db.leagues.rows, r.id = e.leagueID
  eventIDs : (db.weeklyEvents.rows.map WeeklyEventRow.id).Nodup

/-! ## Arguments -/

/-- The statement of a call is checked. -/
def Call.Checked : Call → Prop
  | .exec s => s.Checked
  | _ => True

/-- Every request runs checked statements only. -/
theorem calls_checked (req : Request) : Calls Call.Checked ((backend svc crypto).body req) := by
  have hrest : (∀ s, req.mayExec s → s.Checked) →
      Calls Call.Checked ((backend svc crypto).body req) := by
    refine fun h => (calls_request req).weaken fun c hc => ?_
    cases c with
    | exec s => exact h s hc
    | _ => trivial
  cases req with
  | getOrCreateNonce walletAddress walletType =>
    refine .run_bind (.run_ite (fun _ => trivial) fun hhedera => ?_) fun _ => trivial
    refine .run_bind (.wrapErr (.mk (.perform trivial))) fun nonce => ?_
    exact .run_bind (.wrapErr (.exec (not_not.mp hhedera))) fun _ => trivial
  | updateLeagueSettings leagueID userID settings =>
    refine .run_bind (.run_ite (fun _ => trivial) fun hfee => ?_) fun _ => trivial
    refine .run_bind (calls_requireCommissioner trivial) fun _ => ?_
    exact .run_bind (.wrapErr (.exec hfee)) fun _ => calls_getLeagueSettings trivial
  | setPaymentToken leagueID userID token =>
    refine .run_bind (.run_ite (fun _ => trivial) fun htoken => ?_) fun _ => trivial
    have hchecked : token = "hbar" ∨ token = "usdc" := by
      by_contra hnot
      exact htoken (not_or.mp hnot)
    refine .run_bind (.wrapErr (.exec hchecked)) fun n => ?_
    exact .run_ite (fun _ => trivial) fun _ => trivial
  | _ =>
    refine hrest fun s hs => ?_
    cases s <;> trivial

/-- Every statement that takes effect is checked. -/
theorem Runs.applied_checked (h : Runs svc crypto ok a) (hstep : (backend svc crypto).Step a l b)
    {s : Statement} (hs : applied a l = some s) : s.Checked := by
  have hallowed : Allowed (footprint Call.Checked) (fun _ => ()) a s :=
    h.applied_allowed calls_checked hstep hs
  obtain ⟨i, t, -, earlier, -, hallows⟩ := hallowed
  exact hallows

/-! ## Rows -/

/-- All users have a Hedera wallet. -/
theorem Runs.walletTypes (h : Runs svc crypto ok a) :
    ∀ u ∈ a.world.db.users.rows, u.walletType = "hedera" := by
  induction h with
  | refl => exact fun u hu => by cases hu
  | tail hrun hlast ih =>
    obtain ⟨l, -, hstep⟩ := hlast
    rcases step_db hstep with ⟨-, hdb, -⟩ | ⟨s, hs, now, fresh, r, -, hrows, -, -⟩
    · rw [hdb]
      exact ih
    · exact s.run_walletType hrows (Runs.applied_checked hrun hstep hs) ih

/-- All leagues are valid. -/
theorem Runs.leaguesValid (h : Runs svc crypto ok a) : ∀ r ∈ a.world.db.leagues.rows, r.Valid := by
  induction h with
  | refl => exact fun r hr => by cases hr
  | tail hrun hlast ih =>
    obtain ⟨l, -, hstep⟩ := hlast
    intro r' hr'
    rcases step_row hstep hr' with
      ⟨r, hr, rfl | ⟨now, s, hs, hleague⟩⟩ | ⟨league, now, fresh, rfl, -, -⟩
    · exact ih r' hr
    · exact hleague.valid (Runs.applied_checked hrun hstep hs) (ih r hr)
    · exact league.row_valid now fresh

/-- All memberships are valid. -/
theorem Runs.membersValid (h : Runs svc crypto ok a) : ∀ m ∈ a.world.db.members.rows, m.Valid := by
  induction h with
  | refl => exact fun m hm => by cases hm
  | tail hrun hlast ih =>
    obtain ⟨l, -, hstep⟩ := hlast
    intro m' hm'
    rcases step_member hstep hm' with ⟨m, hm, rfl | ⟨now, s, hs, hmember⟩⟩ |
      ⟨now, fresh, league, members, -, -, -, v, -, w, -, -, rfl⟩
    · exact ih m' hm
    · exact hmember.valid (Runs.applied_checked hrun hstep hs) (ih m hm)
    · exact w.refresh_valid (v.row_valid _ _ _ _)

/-- All events are valid. -/
theorem Runs.eventsValid (h : Runs svc crypto ok a) :
    ∀ e ∈ a.world.db.weeklyEvents.rows, e.Valid := by
  induction h with
  | refl => exact fun e he => by cases he
  | tail hrun hlast ih =>
    obtain ⟨l, -, hstep⟩ := hlast
    intro e' he'
    rcases step_eventStep hstep he' with ⟨e, he, rfl | ⟨s, now, -, hmoves⟩⟩ |
      ⟨s, fresh, -, -, -, hinserts⟩
    · exact ih e' he
    · exact hmoves.valid (ih e he)
    · exact hinserts.valid

/-! ## References -/

/-- No two leagues were imported from one platform league. -/
theorem Runs.eq_of_platformLeague (h : Runs svc crypto ok a) {r r' : LeagueRow}
    (hr : r ∈ a.world.db.leagues.rows) (hr' : r' ∈ a.world.db.leagues.rows)
    (hsame : (r.platform, r.platformLeagueID) = (r'.platform, r'.platformLeagueID)) : r = r' := by
  induction h generalizing r r' with
  | refl => cases hr
  | @tail a b hrun hlast ih =>
    obtain ⟨l, -, hstep⟩ := hlast
    rcases step_db hstep with ⟨-, hdb, -⟩ | ⟨s, hs, now, fresh, result, -, hrows, -, -⟩
    · rw [hdb] at hr hr'
      exact ih hr hr' hsame
    have hnew : ∀ {league : LeagueValues} {q q' : LeagueRow}, q ∈ a.world.db.leagues.rows →
        s.LeagueStep now a.world.db q q' →
        a.world.db.leagueByPlatform league.platform league.platformLeagueID = none →
        (league.platform, league.platformLeagueID) ≠ (q'.platform, q'.platformLeagueID) := by
      intro league q q' hq hleague hnone heq
      rw [hleague.platformLeague, Prod.mk.injEq] at heq
      exact List.find?_eq_none.mp hnone q hq (by simp [heq])
    rcases Statement.run_leagues hrows hr with
      ⟨q, hq, hleague⟩ | ⟨league, members, rfl, rfl, hnone⟩ <;>
      rcases Statement.run_leagues hrows hr' with
        ⟨q', hq', hleague'⟩ | ⟨league', members', heq, rfl, hnone'⟩
    · obtain rfl := ih hq hq'
        (hleague.platformLeague.symm.trans (hsame.trans hleague'.platformLeague))
      exact Table.eq_of_key hr hr' (hleague.id.trans hleague'.id.symm)
    · exact absurd hsame.symm (hnew hq hleague hnone')
    · exact absurd hsame (hnew hq' hleague' hnone)
    · cases heq
      rfl

/-- A membership is on the platform of its league. -/
theorem Runs.memberPlatform (h : Runs svc crypto ok a) {m : MemberRow} {r : LeagueRow}
    (hm : m ∈ a.world.db.members.rows) (hr : r ∈ a.world.db.leagues.rows)
    (hid : r.id = m.leagueID) : r.platform = m.platform := by
  induction h generalizing m r with
  | refl => cases hm
  | @tail a b hrun hlast ih =>
    obtain ⟨l, -, hstep⟩ := hlast
    have hreferences := Runs.references hrun
    rcases step_db hstep with ⟨-, hdb, -⟩ | ⟨s, hs, now, fresh, result, hfresh, hrows, -, -⟩
    · rw [hdb] at hm hr
      exact ih hm hr hid
    rcases s.run_members hrows hm with ⟨m₀, hm₀, hmember⟩ |
      ⟨league, members, rfl, v, -, w, -, -, rfl⟩
    · obtain ⟨hkey, hplatform, -, -⟩ := hmember.sameMember
      have hleagueID : m.leagueID = m₀.leagueID := congrArg Prod.fst hkey
      rw [hplatform]
      rcases Statement.run_leagues hrows hr with ⟨r₀, hr₀, hleague⟩ | ⟨league, members, rfl, rfl, -⟩
      · rw [hleague.season.1]
        exact ih hm₀ hr₀ (hleague.id.symm.trans (hid.trans hleagueID))
      · have hnew : fresh = m₀.leagueID := hid.trans hleagueID
        exact absurd (hreferences.members m₀ hm₀) (hnew ▸ hfresh)
    · change r.id = a.world.db.importID fresh league at hid
      change r.platform = league.platform
      rcases Statement.run_leagues hrows hr with
        ⟨r₀, hr₀, hleague⟩ | ⟨league', members', heq, rfl, -⟩
      · rw [hleague.season.1]
        rw [hleague.id] at hid
        unfold Database.importID at hid
        cases hl : a.world.db.leagueByPlatform league.platform league.platformLeagueID with
        | none =>
          rw [hl] at hid
          exact absurd (hreferences.leagues r₀ hr₀) (hid ▸ hfresh)
        | some l₀ =>
          obtain ⟨hl₀, hplatform, -⟩ := leagueByPlatform_some hl
          rw [hl] at hid
          obtain rfl : r₀ = l₀ := Table.eq_of_key hr₀ hl₀ hid
          exact hplatform
      · cases heq
        rfl

/-- The league of every event is there: a deletion of a league removes its events. -/
theorem Runs.eventsHaveLeagues (h : Runs svc crypto ok a) :
    ∀ e ∈ a.world.db.weeklyEvents.rows, ∃ r ∈ a.world.db.leagues.rows, r.id = e.leagueID := by
  induction h with
  | refl => exact fun e he => by cases he
  | @tail a b hrun hlast ih =>
    obtain ⟨l, -, hstep⟩ := hlast
    rcases step_db hstep with ⟨-, hdb, -⟩ | ⟨s, hs, now, fresh, result, -, hrows, -, -⟩
    · rw [hdb]
      exact ih
    intro e' he'
    rcases s.run_eventStep hrows he' with ⟨e, he, hmoves⟩ | ⟨-, -, -, -, hleague, rfl⟩
    · obtain ⟨r, hr, hid⟩ := ih e he
      have hsame : e'.leagueID = e.leagueID := congrArg Prod.fst hmoves.sameEvent.1.key
      rcases s.run_keepsLeague hrows hr with rfl | ⟨r', hr', hid'⟩
      · obtain ⟨-, hdb⟩ := Prod.mk.inj (Option.some.inj hrows)
        rw [← hdb] at he'
        have hother := (Table.mem_deleteWhere.mp he').2
        exact absurd (hsame.trans hid.symm) (by simpa using hother)
      · exact ⟨r', hr', by rw [hid', hid, hsame]⟩
    · obtain ⟨r, hr, hid⟩ := List.mem_map.mp hleague
      rcases Statement.run_keepsLeague hrows hr with heq | ⟨r', hr', hid'⟩
      · cases heq
      · exact ⟨r', hr', hid'.trans hid⟩

/-- In every run the database is consistent. -/
theorem database_consistent (h : Runs svc crypto ok a) : a.world.db.Consistent where
  users := h.walletTypes
  userIDs := by
    have hids : UserIDs a.world := h.invariant (I := fun a => UserIDs a.world)
      (by constructor <;> simp [initialConfig, Table.empty]) fun hinv _ hstep => hinv.step hstep
    exact hids.nodup
  profiles p hp := by
    obtain ⟨wallet, hwallet⟩ := h.references.profiles p hp
    obtain ⟨u, hu, -⟩ := Option.map_eq_some_iff.mp hwallet
    exact ⟨u, List.mem_of_find?_eq_some hu, by simpa using List.find?_some hu⟩
  leagues := h.leaguesValid
  platformLeagues := List.Nodup.map_on (fun _ hr _ hr' => h.eq_of_platformLeague hr hr')
    a.world.db.leagues.unique.of_map
  members := h.membersValid
  memberLeagues m hm := by
    obtain ⟨r, hr, hid⟩ := h.membersHaveLeagues m hm
    exact ⟨r, hr, hid, h.memberPlatform hm hr hid⟩
  events := h.eventsValid
  eventLeagues := h.eventsHaveLeagues
  eventIDs := List.Nodup.map_on (h.eventIDs.unique) a.world.db.weeklyEvents.unique.of_map

/-- A league with a rule, a paid member and a recorded event of the first week. -/
def populated : Schedule :=
  Schedule.fundedLeague Schedule.highScore ++ Schedule.confirm 4 "u1" "f3" ++
    Schedule.weekly 5 "e1"

/-- The database of this run has rows in every table, and is consistent. -/
theorem database_consistent_populated : ∃ a, Runs .mock .mock (fun _ _ => True) a ∧
    a.world.db.users.rows ≠ [] ∧ a.world.db.profiles.rows ≠ [] ∧ a.world.db.leagues.rows ≠ [] ∧
      a.world.db.members.rows ≠ [] ∧ a.world.db.weeklyEvents.rows ≠ [] ∧
        a.world.db.Consistent := by
  obtain ⟨a, hrun, husers, hprofiles, hleagues, hmembers, hevents⟩ := populated.exists_run
    .mock .mock (fun _ _ => True) (fun a => a.world.db.users.rows ≠ [] ∧
      a.world.db.profiles.rows ≠ [] ∧ a.world.db.leagues.rows ≠ [] ∧
        a.world.db.members.rows ≠ [] ∧ a.world.db.weeklyEvents.rows ≠ []) (by decide)
  exact ⟨a, hrun, husers, hprofiles, hleagues, hmembers, hevents, database_consistent hrun⟩

end Wagr
