import Wagr.Service.Rows

/-!
# The status of a league moves forward

The status refresh and the season-end job write the same column. Every update of the refresh
is conditional on the status it has read and moves from there to a higher rank, or from
`post_season` to `in_season`; the season-end job only writes `complete`. So the rank of a row
grows whatever the jobs have read before.
-/

namespace Wagr

open Interaction Protocol

/-! ## One transition -/

/-- The rank the refresh gives to a stored status, where NULL (the empty string) counts as
`pre_draft`. -/
def storedRank (stored : String) : Option ℕ :=
  leagueStatusRank (if stored = "" then "pre_draft" else stored)

/-- The statuses with a rank. -/
def rankedStatuses : List String :=
    ["pre_draft", "drafting", "in_season", "post_season", "complete"]

/-- Only these statuses have a rank. -/
theorem mem_rankedStatuses {status : String} {rank : ℕ} (h : leagueStatusRank status = some rank) :
    status ∈ rankedStatuses := by
  obtain ⟨before, after, hranks, -⟩ := List.lookup_eq_some_iff.mp h
  have hstatus : status ∈ (before ++ (status, rank) :: after).map Prod.fst := by simp
  rwa [← hranks] at hstatus

/-- A status that is stored by an update has a rank, and so has what the platform reports. -/
theorem ranked_of_nextLeagueStatus {stored platform : String}
    (h : (nextLeagueStatus stored platform).2 = true) :
    stored ∈ "" :: rankedStatuses ∧ platform ∈ rankedStatuses := by
  simp only [nextLeagueStatus] at h
  have hmem : ∀ rank, leagueStatusRank (if stored = "" then "pre_draft" else stored) = some rank →
      stored ∈ "" :: rankedStatuses := by
    intro rank hrank
    have hmem := mem_rankedStatuses hrank
    by_cases hempty : stored = ""
    · simp [hempty]
    · rw [if_neg hempty] at hmem
      exact List.mem_cons_of_mem _ hmem
  generalize (if stored = "" then "pre_draft" else stored) = effectiveStored at h hmem
  cases hstored : leagueStatusRank effectiveStored with
  | none => simp [hstored] at h
  | some rank =>
    refine ⟨hmem rank hstored, ?_⟩
    simp only [hstored] at h
    by_cases hpost : effectiveStored = "post_season"
    · cases hplatform : leagueStatusRank platform with
      | none => simp [hpost, hplatform] at h
      | some platformRank => exact mem_rankedStatuses hplatform
    · cases htarget : leagueStatusRank (canonicalLeagueStatus platform) with
      | none => simp [hpost, htarget] at h
      | some targetRank =>
        have hcanonical := mem_rankedStatuses htarget
        unfold canonicalLeagueStatus at hcanonical
        split at hcanonical
        · rename_i hdown
          rcases hdown with rfl | rfl <;> decide
        · exact hcanonical

/-- What an update of the refresh does to the stored status. -/
structure Advances (stored new : String) : Prop where
  rank : ∃ k ∈ storedRank stored, ∃ k' ∈ storedRank new, k ≤ k'
  stored_ne : stored ≠ "complete"
  new_ne : new ≠ "complete"

instance (stored new : String) : Decidable (Advances stored new) :=
  decidable_of_iff (_ ∧ _ ∧ _) ⟨fun h => ⟨h.1, h.2.1, h.2.2⟩, fun h => ⟨h.rank, h.2, h.3⟩⟩

/-- All transitions: each advances the status, and to where the same report leads no further. -/
theorem transitions : ∀ stored ∈ "" :: rankedStatuses, ∀ platform ∈ rankedStatuses,
    (nextLeagueStatus stored platform).2 = true →
      Advances stored (nextLeagueStatus stored platform).1 ∧
        (nextLeagueStatus (nextLeagueStatus stored platform).1 platform).2 = false := by
  decide +kernel

/-- The refresh advances a status whenever it updates it. -/
theorem advances_nextLeagueStatus {stored platform : String}
    (h : (nextLeagueStatus stored platform).2 = true) :
    Advances stored (nextLeagueStatus stored platform).1 := by
  obtain ⟨hstored, hplatform⟩ := ranked_of_nextLeagueStatus h
  exact (transitions stored hstored platform hplatform h).1

/-- The platform's report leads no further after an update. -/
theorem nextLeagueStatus_settled {stored platform : String}
    (h : (nextLeagueStatus stored platform).2 = true) :
    (nextLeagueStatus (nextLeagueStatus stored platform).1 platform).2 = false := by
  obtain ⟨hstored, hplatform⟩ := ranked_of_nextLeagueStatus h
  exact (transitions stored hstored platform hplatform h).2

/-! ## One step -/

/-- The rank of a league's status. -/
def LeagueRow.statusRank (r : LeagueRow) : Option ℕ := storedRank (r.status.getD "")

/-- The rank of the status has not decreased. -/
def LeagueRow.RankLe (r r' : LeagueRow) : Prop := ∀ k ∈ r.statusRank, ∃ k' ∈ r'.statusRank, k ≤ k'

theorem LeagueRow.RankLe.refl (r : LeagueRow) : r.RankLe r := fun k hk => ⟨k, hk, le_rfl⟩

theorem LeagueRow.RankLe.trans {r r' r'' : LeagueRow} (h : r.RankLe r') (h' : r'.RankLe r'') :
    r.RankLe r'' := by
  intro k hk
  obtain ⟨k', hk', hle⟩ := h k hk
  obtain ⟨k'', hk'', hle'⟩ := h' k' hk'
  exact ⟨k'', hk'', hle.trans hle'⟩

/-- A row with the highest rank. -/
theorem LeagueRow.rankLe_complete {r r' : LeagueRow} (h : r'.status = some "complete") :
    r.RankLe r' := by
  have htop : r'.statusRank = some 3 := by
    unfold LeagueRow.statusRank
    rw [h]
    decide
  intro k hk
  refine ⟨3, htop, ?_⟩
  have hmem := mem_rankedStatuses hk
  have hbound : ∀ status ∈ rankedStatuses, ∀ k ∈ leagueStatusRank status, k ≤ 3 := by decide
  exact hbound _ hmem k hk

/-- A statement whose updates of a status advance it. -/
def Statement.Forward : Statement → Prop
  | .updateLeagueStatus _ oldStatus newStatus => Advances oldStatus newStatus
  | _ => True

/-- How a statement other than an import changes the status of a row: not at all, to `complete`
when the league is settled, or forward on behalf of the refresh. -/
theorem Statement.LeagueStep.status {now : ℕ} {db : Database} {s : Statement} {r r' : LeagueRow}
    (h : s.LeagueStep now db r r') (himport : ∀ league members, s ≠ .importLeague league members) :
    r'.status = r.status ∨ r'.status = some "complete" ∨
      ∃ newStatus, s = .updateLeagueStatus r.id (r.status.getD "") newStatus ∧
        r'.status = some newStatus := by
  rcases h with rfl | h
  · exact .inl rfl
  · cases s with
    | importLeague league members => exact absurd rfl (himport league members)
    | updateSettings leagueID fee payoutJSON =>
      obtain ⟨-, rfl⟩ := h
      exact .inl rfl
    | cancelLeague | reactivateLeague | claimPayout | markPayoutFailed =>
      obtain ⟨-, -, rfl⟩ := h
      exact .inl rfl
    | markSettledWithoutPayout | markPayoutExecuted =>
      obtain ⟨-, -, rfl⟩ := h
      exact .inr (.inl rfl)
    | updateLeagueStatus leagueID oldStatus newStatus =>
      obtain ⟨rfl, rfl, rfl⟩ := h
      exact .inr (.inr ⟨newStatus, rfl, rfl⟩)
    | _ => exact h.elim

/-- A statement other than an import does not lower the rank of a status. -/
theorem Statement.LeagueStep.rankLe {now : ℕ} {db : Database} {s : Statement} {r r' : LeagueRow}
    (h : s.LeagueStep now db r r') (himport : ∀ league members, s ≠ .importLeague league members)
    (hs : s.Forward) : r.RankLe r' := by
  rcases h.status himport with hsame | hcomplete | ⟨newStatus, rfl, hnew⟩
  · intro k hk
    refine ⟨k, ?_, le_rfl⟩
    unfold LeagueRow.statusRank at hk ⊢
    rwa [hsame]
  · exact LeagueRow.rankLe_complete hcomplete
  · have hadvances : Advances (r.status.getD "") newStatus := hs
    obtain ⟨k₀, hk₀, k', hk', hle⟩ := hadvances.rank
    intro k hk
    unfold LeagueRow.statusRank at hk ⊢
    rw [hnew]
    obtain rfl : k = k₀ := Option.some.inj (hk.symm.trans hk₀)
    exact ⟨k', hk', hle⟩

/-- The rows after an update of a status. -/
theorem mem_updateLeagueStatus {now n : ℕ} {fresh leagueID oldStatus newStatus : String}
    {db db' : Database}
    (h : (Statement.updateLeagueStatus leagueID oldStatus newStatus).run now fresh db =
      some (n, db')) {r' : LeagueRow} :
    r' ∈ db'.leagues.rows ↔ ∃ r ∈ db.leagues.rows,
      (if r.id = leagueID ∧ r.status.getD "" = oldStatus then
        { r with status := some newStatus, updatedAt := now } else r) = r' := by
  simp only [Statement.run, Database.updateLeagues, Option.some.injEq, Prod.mk.injEq] at h
  rw [← h.2]
  simp only [Relational.Table.mem_updateWhere, Bool.and_eq_true, decide_eq_true_eq]

/-! ## Runs -/

variable {svc : Service} {crypto : Crypto} {w : World} {a b : BackendConfig} {l : BackendLabel}
  {ok : BackendConfig → BackendLabel → Prop}

/-- Calls that only advance statuses. -/
def Call.Forward : Call → Prop
  | .exec s => s.Forward
  | _ => True

/-- Only the refresh updates a status, and it advances it. -/
theorem calls_forward (req : Request) :
    Calls Call.Forward ((backend svc crypto).body req) := by
  have hothers : (∀ leagueID oldStatus newStatus,
      ¬ req.mayExec (.updateLeagueStatus leagueID oldStatus newStatus)) →
        Calls Call.Forward ((backend svc crypto).body req) := by
    intro hnone
    refine Calls.weaken (calls_request req) fun c hc => ?_
    cases c with
    | exec s =>
      cases s with
      | updateLeagueStatus leagueID oldStatus newStatus => exact absurd hc (hnone _ _ _)
      | _ => trivial
    | _ => trivial
  cases req with
  | refreshLeagueStatuses =>
    refine .run_bind (calls_runRefreshLeagueStatuses trivial (fun _ _ => ⟨trivial, trivial⟩)
      fun leagueID oldStatus platform hnext => ?_) fun _ => trivial
    exact advances_nextLeagueStatus hnext
  | _ => exact hothers fun _ _ _ h => h

/-- Before anything has happened to a database without statements in flight. -/
def startConfig (w : World) : BackendConfig := ⟨w, []⟩

/-- In a run from a world without statements in flight every statement in flight, and every one
that takes effect, advances the statuses it updates. -/
theorem forward_of_reaches (hw : w.inFlight = [])
    (h : (backend svc crypto).Reaches ok (startConfig w) a) :
    (∀ s ∈ a.world.inFlight, s.Forward) ∧
      ∀ {b l s}, (backend svc crypto).Step a l b → applied a l = some s → s.Forward := by
  have hcalls : ∀ {a : BackendConfig}, (backend svc crypto).Reaches ok (startConfig w) a →
      ∀ {i : ℕ} {t : BackendThread} {s : Statement} {next}, a.threads[i]? = some t →
        t.rest = .call (.exec s) next → s.Forward := by
    intro a ha i t s next ht hrest
    have hcalls : ∀ req, (footprint Call.Forward).Conforms ()
        ((backend svc crypto).body req) fun _ _ => True := calls_forward
    exact (follows_of_reaches ha hcalls (by simp [startConfig]) i t ht).allows hrest
  have hflight : ∀ s ∈ a.world.inFlight, s.Forward := by
    induction h with
    | refl => simp [startConfig, hw]
    | @tail a b hrun hlast ih =>
      obtain ⟨l, -, hstep⟩ := hlast
      intro s hs
      rcases step_inFlight hstep hs with hs | ⟨i, e, rfl⟩
      · exact ih s hs
      · cases hstep with
        | call ht hrest _ _ => exact hcalls hrun ht hrest
  refine ⟨hflight, fun {b l s} hstep hs => ?_⟩
  cases hstep with
  | spawn j => cases hs
  | stop ht => cases hs
  | @call i t c next r w' ht hrest hrun hw' =>
    cases c with
    | exec s' =>
      cases r with
      | ok r =>
        cases hs
        exact hcalls h ht hrest
      | error e => cases hs
    | _ => cases hs
  | @env e w' hw' =>
    cases e with
    | land k now fresh => exact hflight s (List.mem_of_getElem? hs)
    | _ => cases hs

/-- The statement is the transaction of an import. -/
def Statement.isImport : Statement → Bool
  | .importLeague _ _ => true
  | _ => false

/-- No import takes effect in the step. -/
def NoImport (a : BackendConfig) (l : BackendLabel) : Prop :=
  ∀ s ∈ applied a l, s.isImport = false

instance (a : BackendConfig) (l : BackendLabel) : Decidable (NoImport a l) :=
  inferInstanceAs (Decidable (∀ s ∈ applied a l, s.isImport = false))

/-- A row after a step that is no import was there, with no higher rank. -/
theorem step_rankLe (hforward : ∀ s, applied a l = some s → s.Forward) (hl : NoImport a l)
    (hstep : (backend svc crypto).Step a l b) {r' : LeagueRow}
    (hr' : r' ∈ b.world.db.leagues.rows) :
    ∃ r ∈ a.world.db.leagues.rows, r.id = r'.id ∧ r.RankLe r' := by
  rcases step_db hstep with ⟨-, hdb, -⟩ | ⟨s, hs, now, fresh, result, -, hrun, -, -⟩
  · exact ⟨r', hdb ▸ hr', rfl, .refl r'⟩
  · have himport : ∀ league members, s ≠ .importLeague league members := by
      rintro league members rfl
      cases hl _ hs
    rcases s.run_leagues hrun hr' with ⟨r, hr, hleague⟩ | ⟨league, members, rfl, -⟩
    · exact ⟨r, hr, hleague.id.symm, hleague.rankLe himport (hforward s hs)⟩
    · exact absurd rfl (himport league members)

/-- Along a run without imports no rank decreases. -/
theorem rankLe_of_reaches (hw : w.inFlight = [])
    (h : (backend svc crypto).Reaches ok (startConfig w) a)
    (hrun : (backend svc crypto).Reaches NoImport a b) {r r' : LeagueRow}
    (hr : r ∈ a.world.db.leagues.rows) (hr' : r' ∈ b.world.db.leagues.rows) (hid : r'.id = r.id) :
    r.RankLe r' := by
  have hstart : (backend svc crypto).Reaches (fun _ _ => True) (startConfig w) a :=
    h.mono fun _ _ _ => trivial
  have horigin : (backend svc crypto).Reaches (fun _ _ => True) (startConfig w) b ∧
      ∀ r' ∈ b.world.db.leagues.rows, ∃ r ∈ a.world.db.leagues.rows, r.id = r'.id ∧
        r.RankLe r' := by
    refine hrun.invariant (I := fun b => (backend svc crypto).Reaches (fun _ _ => True)
      (startConfig w) b ∧ ∀ r' ∈ b.world.db.leagues.rows, ∃ r ∈ a.world.db.leagues.rows,
        r.id = r'.id ∧ r.RankLe r') ⟨hstart, fun r' hr' => ⟨r', hr', rfl, .refl r'⟩⟩ ?_
    rintro b c l ⟨hb, hrows⟩ hl hstep
    refine ⟨hb.step trivial hstep, fun r'' hr'' => ?_⟩
    obtain ⟨r', hr', hid', hle'⟩ :=
      step_rankLe (fun s hs => (forward_of_reaches hw hb).2 hstep hs) hl hstep hr''
    obtain ⟨r, hr, hid, hle⟩ := hrows r' hr'
    exact ⟨r, hr, hid.trans hid', hle.trans hle'⟩
  obtain ⟨r₀, hr₀, hid₀, hle⟩ := horigin.2 r' hr'
  obtain rfl := Relational.Table.eq_of_key hr₀ hr (hid₀.trans hid)
  exact hle

/-- An update of the refresh takes effect in the step. -/
def Refreshes (a : BackendConfig) (l : BackendLabel) : Prop :=
  ∃ leagueID oldStatus newStatus,
    applied a l = some (.updateLeagueStatus leagueID oldStatus newStatus)

/-- An update of the refresh leaves complete leagues alone and makes none complete. -/
theorem step_refreshes (hforward : ∀ s, applied a l = some s → s.Forward) (hl : Refreshes a l)
    (hstep : (backend svc crypto).Step a l b) :
    (∀ r ∈ a.world.db.leagues.rows, r.status = some "complete" → r ∈ b.world.db.leagues.rows) ∧
      ∀ r' ∈ b.world.db.leagues.rows, r' ∈ a.world.db.leagues.rows ∨
        r'.status ≠ some "complete" := by
  obtain ⟨leagueID, oldStatus, newStatus, hs⟩ := hl
  have hadvances : Advances oldStatus newStatus := hforward _ hs
  rcases step_db hstep with ⟨hnone, -⟩ | ⟨s, hs', now, fresh, result, -, hrun, -, -⟩
  · rw [hs] at hnone
    cases hnone
  · obtain rfl := Option.some.inj (hs.symm.trans hs')
    refine ⟨fun r hr hcomplete => ?_, fun r' hr' => ?_⟩
    · refine (mem_updateLeagueStatus hrun).mpr ⟨r, hr, if_neg ?_⟩
      rintro ⟨-, hold⟩
      rw [hcomplete] at hold
      exact hadvances.stored_ne hold.symm
    · obtain ⟨r, hr, rfl⟩ := (mem_updateLeagueStatus hrun).mp hr'
      split
      · exact .inr fun hcomplete => hadvances.new_ne (Option.some.inj hcomplete)
      · exact .inl hr

end Wagr
