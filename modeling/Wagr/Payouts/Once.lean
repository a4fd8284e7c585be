import Wagr.Payouts.Status
import Wagr.Payouts.SeasonTrace
import Wagr.Service.Scenario

/-!
# At most one season-end payout

A league leaves the payout status `pending` once and never returns to it, and a row with
its ID is never created again. So at most one claim of a league is ever won, over all
threads, and a transaction is only sent by a thread that has won a claim it has not used
yet. The transaction ID of an executed league comes from that transaction.
-/

namespace Wagr

open Interaction Protocol Relational System

variable {svc : Service} {crypto : Crypto} {a b : BackendConfig} {l : BackendLabel}
  {ok : BackendConfig → BackendLabel → Prop} {leagueID : String}

/-! ## The claims of all threads -/

/-- At most one claim has been won, and then the league is not pending and its ID is used up. -/
structure ClaimInvariant (leagueID : String) (a : BackendConfig) : Prop where
  issued : ∀ r ∈ a.world.db.leagues.rows, r.id ∈ a.world.issued
  claims_le : total (claimsWon leagueID) a.threads ≤ 1
  claimed : 0 < total (claimsWon leagueID) a.threads → leagueID ∈ a.world.issued ∧
    ∀ r ∈ a.world.db.leagues.rows, r.id = leagueID → r.payoutStatus ≠ .pending

/-- A step that wins a claim finds the league pending and leaves it executing. -/
theorem step_winsClaim (h : (backend svc crypto).Step a l b)
    (hwins : l.counts (winsClaim leagueID) ≠ 0) :
    (∃ r ∈ a.world.db.leagues.rows, r.id = leagueID ∧ r.payoutStatus = .pending) ∧
      l.counts (winsClaim leagueID) = 1 ∧
      ∀ r ∈ b.world.db.leagues.rows, r.id = leagueID → r.payoutStatus ≠ .pending := by
  cases h with
  | @call i t c next r w ht hrest hrun hw =>
    have hwins' : winsClaim leagueID ⟨c, r⟩ = true := by
      by_contra hne
      exact hwins (if_neg hne)
    cases c with
    | exec s =>
      cases s with
      | claimPayout leagueID' =>
        cases r with
        | error e => cases hwins'
        | ok rowsAffected =>
          have hwon : leagueID' = leagueID ∧ rowsAffected = (1 : ℕ) := by
            simpa [winsClaim] using hwins'
          obtain ⟨rfl, rfl⟩ := hwon
          obtain ⟨now, fresh, db, -, hrun', rfl⟩ := hw
          obtain ⟨hfound, hafter⟩ := claimPayout_run hrun'
          exact ⟨hfound Nat.one_pos, if_pos hwins', hafter⟩
      | _ => cases hwins'
    | _ => cases hwins'
  | _ => exact absurd rfl hwins

/-- A step keeps the claim invariant. -/
theorem ClaimInvariant.step (hinv : ClaimInvariant leagueID a)
    (h : (backend svc crypto).Step a l b) : ClaimInvariant leagueID b := by
  have htotal : total (claimsWon leagueID) b.threads =
      total (claimsWon leagueID) a.threads + l.counts (winsClaim leagueID) :=
    h.total_countP _
  have hissued : ∀ r ∈ b.world.db.leagues.rows, r.id ∈ b.world.issued := by
    intro r' hr'
    rcases step_league h hr' with ⟨r, hr, hmoves⟩ | ⟨-, hnew, -⟩
    · exact step_issued h (hmoves.id ▸ hinv.issued r hr)
    · exact hnew
  by_cases hwins : l.counts (winsClaim leagueID) = 0
  · rw [hwins, Nat.add_zero] at htotal
    refine ⟨hissued, htotal.trans_le hinv.claims_le, fun hpos => ?_⟩
    obtain ⟨hid, hrows⟩ := hinv.claimed (hpos.trans_eq htotal)
    refine ⟨step_issued h hid, fun r' hr' hr'id hpending => ?_⟩
    rcases step_league h hr' with ⟨r, hr, hmoves⟩ | ⟨hnew, -⟩
    · have hnot := hrows r hr (hmoves.id.symm.trans hr'id)
      rcases hmoves.status with heq | hmove
      · exact hnot (heq.symm.trans hpending)
      · exact hmove.ne_pending hpending
    · exact hnew (hr'id ▸ hid)
  · obtain ⟨⟨r, hr, hid, hpending⟩, hone, hafter⟩ := step_winsClaim h hwins
    have hzero : total (claimsWon leagueID) a.threads = 0 := by
      by_contra hne
      exact (hinv.claimed (Nat.pos_of_ne_zero hne)).2 r hr hid hpending
    refine ⟨hissued, ?_, fun _ => ⟨step_issued h (hid ▸ hinv.issued r hr), hafter⟩⟩
    omega

/-- The claim invariant holds along every run. -/
theorem Runs.claimInvariant (h : Runs svc crypto ok a) (leagueID : String) :
    ClaimInvariant leagueID a := by
  refine Reaches.invariant (I := ClaimInvariant leagueID) h ?_ fun hinv _ hl => hinv.step hl
  constructor <;> simp [initialConfig, total, Table.empty]

/-- `distribute` is called at most once for a league, by all threads together. -/
theorem Runs.distributeCalls_le_one (h : Runs svc crypto ok a) (leagueID : String) :
    total (distributeCalls leagueID) a.threads ≤ 1 :=
  (total_le_total fun _ _ ht => h.distributeCalls_le leagueID ht).trans
    (h.claimInvariant leagueID).claims_le

/-! ## The transaction of an executed league -/

/-- The transaction IDs of leagues come from transactions that were distributed. -/
def HashesDistributed (a : BackendConfig) : Prop :=
  ∀ r ∈ a.world.db.leagues.rows, ∀ txHash, r.payoutTxHash = some txHash →
    a.SomeTrace fun _ trace => Distributed r.id txHash trace

/-- A league that is marked executed has been paid by some thread. -/
theorem Runs.distributed_of_applied (h : Runs svc crypto ok a)
    (hstep : (backend svc crypto).Step a l b) {txHash : String}
    (hs : applied a l = some (.markPayoutExecuted leagueID txHash)) :
    a.SomeTrace fun _ trace => Distributed leagueID txHash trace := by
  obtain ⟨i, t, ht, earlier, hsuffix, hallows⟩ :=
    h.applied_allowed (conforms_seasonProtocol leagueID) hstep hs
  have hpaid := (h.seasonTrace leagueID ht hsuffix).paid txHash (hallows.2 rfl)
  exact ⟨i, t, ht, hpaid.mono hsuffix⟩

/-- The transaction IDs of leagues come from transactions that were distributed. -/
theorem Runs.hashesDistributed (h : Runs svc crypto ok a) : HashesDistributed a := by
  induction h with
  | refl => simp [HashesDistributed, initialConfig, Table.empty]
  | @tail a b hrun hlast ih =>
    obtain ⟨l, -, hstep⟩ := hlast
    have hkeep : ∀ {leagueID txHash : String},
        (a.SomeTrace fun _ trace => Distributed leagueID txHash trace) →
          b.SomeTrace fun _ trace => Distributed leagueID txHash trace :=
      hstep.someTrace fun _ _ _ hp => hp.mono (List.suffix_cons _ _)
    intro r' hr' txHash htxHash
    rcases step_league hstep hr' with ⟨r, hr, hmoves⟩ | ⟨-, -, -, hnone⟩
    · rw [hmoves.id]
      rcases hmoves.txHash with heq | ⟨txHash', happlied, heq⟩
      · exact hkeep (ih r hr txHash (heq.symm.trans htxHash))
      · obtain rfl : txHash' = txHash := Option.some.inj (heq.symm.trans htxHash)
        exact hkeep (Runs.distributed_of_applied hrun hstep happlied)
    · cases hnone.symm.trans htxHash

/-! ## The result -/

/-- What holds of the season-end payouts of a league. -/
structure SeasonEndOnce (svc : Service) (crypto : Crypto) (leagueID : String)
    (a : BackendConfig) : Prop where
  /-- `distribute` has been called at most once. -/
  distribute_le : total (distributeCalls leagueID) a.threads ≤ 1
  /-- The payout status only moves forward. -/
  status : ∀ l b, (backend svc crypto).Step a l b → ∀ r ∈ a.world.db.leagues.rows,
    ∀ r' ∈ b.world.db.leagues.rows, r.id = r'.id →
      r'.payoutStatus = r.payoutStatus ∨ r.payoutStatus.Moves r'.payoutStatus
  /-- A new league is `pending`. -/
  new : ∀ l b, (backend svc crypto).Step a l b → ∀ r' ∈ b.world.db.leagues.rows,
    (∀ r ∈ a.world.db.leagues.rows, r.id ≠ r'.id) → r'.payoutStatus = .pending
  /-- A transaction ID was returned by `distribute`. -/
  executed : ∀ r ∈ a.world.db.leagues.rows, r.id = leagueID → ∀ txHash,
    r.payoutTxHash = some txHash → a.SomeTrace fun _ trace => Distributed leagueID txHash trace

/-- Along every run `distribute` is called at most once for a league, the payout status only
moves forward, and the transaction ID of a league is the one that `distribute` returned. -/
theorem seasonEnd_at_most_once (h : Runs svc crypto (fun _ _ => True) a) (leagueID : String) :
    SeasonEndOnce svc crypto leagueID a where
  distribute_le := h.distributeCalls_le_one leagueID
  status l b hstep r hr r' hr' hid := by
    rcases step_league hstep hr' with ⟨r₀, hr₀, hmoves⟩ | ⟨hnew, -⟩
    · have hsame : r₀ = r := Table.eq_of_key hr₀ hr (hmoves.id.symm.trans hid.symm)
      exact hsame ▸ hmoves.status
    · exact absurd ((h.claimInvariant leagueID).issued r hr) (hid ▸ hnew)
  new l b hstep r' hr' hne := by
    rcases step_league hstep hr' with ⟨r, hr, hmoves⟩ | ⟨-, -, hpending, -⟩
    · exact absurd hmoves.id.symm (hne r hr)
    · exact hpending
  executed r hr hid txHash htxHash := hid ▸ h.hashesDistributed r hr txHash htxHash

/-- Two season-end jobs race for one league; the first one claims and pays it, the second one
finds it claimed. -/
def racingJobs : Schedule :=
  Schedule.fundedLeague Schedule.firstPlace ++ Schedule.seasonEnd 4 ++ Schedule.seasonEnd 5 ++
    [.call 4 (.succeed 0 "f3"), .call 5 (.succeed 0 "f4"), .call 4 (.succeed 0 "tx"),
      .env (.settle 0 true), .call 4 (.succeed 0 ""), .call 4 (.succeed 0 "f5")]

/-- The result at the end of this run, where the league has a transaction ID. -/
theorem seasonEnd_at_most_once_racingJobs : ∃ a, Runs .mock .mock (fun _ _ => True) a ∧
    (∃ r ∈ a.world.db.leagues.rows, r.id = Schedule.leagueID ∧ r.payoutTxHash = some "tx") ∧
    SeasonEndOnce .mock .mock Schedule.leagueID a := by
  obtain ⟨a, hrun, hrow⟩ := racingJobs.exists_run .mock .mock (fun _ _ => True)
    (fun a => ∃ r ∈ a.world.db.leagues.rows, r.id = Schedule.leagueID ∧
      r.payoutTxHash = some "tx") (by decide)
  exact ⟨a, hrun, hrow, seasonEnd_at_most_once hrun Schedule.leagueID⟩

end Wagr
