import Wagr.Payouts.Once

/-!
# Failed leagues have not been paid

`ExecuteDistributePayout` reports an error also when the transaction may have taken effect,
and the settlement marks the league `failed` for every error. The payout status tells the
truth exactly as long as this only happens after the transaction has been reverted.
-/

namespace Wagr

open Interaction Protocol Relational System

variable {svc : Service} {crypto : Crypto} {a b : BackendConfig} {l : BackendLabel}
  {ok : BackendConfig → BackendLabel → Prop} {leagueID : String}

/-! ## Transactions and the calls of the threads -/

/-- How many season-end transactions of the league have been submitted. -/
def totalSent (leagueID : String) (a : BackendConfig) : ℕ :=
  total (submissionsSent leagueID) a.threads

/-- Whoever has submitted a transaction has won a claim. -/
theorem Runs.claimed_of_sent (h : Runs svc crypto ok a) (hsent : 0 < totalSent leagueID a) :
    leagueID ∈ a.world.issued ∧
      ∀ r ∈ a.world.db.leagues.rows, r.id = leagueID → r.payoutStatus ≠ .pending := by
  have hle : totalSent leagueID a ≤ total (claimsWon leagueID) a.threads :=
    total_le_total fun _ _ ht => (Nat.le_add_right _ _).trans (h.distributeCalls_le leagueID ht)
  exact (h.claimInvariant leagueID).claimed (hsent.trans_le hle)

/-- A step never takes submitted transactions back. -/
theorem totalSent_mono (h : (backend svc crypto).Step a l b) :
    totalSent leagueID a ≤ totalSent leagueID b :=
  (Nat.le_add_right _ _).trans_eq (h.total_countP _).symm

/-- The league's season-end transaction is submitted only if none was before, by a thread that
has won the claim. -/
theorem Runs.first_submission (h : Runs svc crypto ok a) {i : ℕ} {key : Bytes32}
    {recipients : List Address} {amounts : List Int64}
    {r : Ret (.contractExecute (.seasonEnd leagueID) key recipients amounts)}
    (hstep : (backend svc crypto).Step a
      (.call i (.contractExecute (.seasonEnd leagueID) key recipients amounts) r) b) :
    totalSent leagueID a = 0 ∧ leagueID ∈ a.world.issued ∧
      ∀ r ∈ a.world.db.leagues.rows, r.id = leagueID → r.payoutStatus ≠ .pending := by
  cases hstep with
  | @call _ t _ next _ w ht hrest hrun hw =>
    have hsubmitting : submitting leagueID t = 1 := by simp [submitting, hrest, Call.distributes]
    have hone : submitting leagueID t ≤ total (submitting leagueID) a.threads := le_total ht
    have hcalls : totalSent leagueID a + total (submitting leagueID) a.threads ≤ 1 :=
      total_add.symm.trans_le (h.distributeCalls_le_one leagueID)
    have hclaims : 0 < total (claimsWon leagueID) a.threads := by
      have hle := h.distributeCalls_le leagueID ht
      have htotal : claimsWon leagueID t ≤ total (claimsWon leagueID) a.threads := le_total ht
      unfold distributeCalls at hle
      omega
    exact ⟨by omega, (h.claimInvariant leagueID).claimed hclaims⟩

/-- The transactions of a league were submitted by threads. -/
theorem Runs.sent_of_submission (h : Runs svc crypto ok a) {s : Submission}
    (hs : s ∈ a.world.submissions) (hpurpose : s.purpose = .seasonEnd leagueID) :
    0 < totalSent leagueID a := by
  induction h generalizing s with
  | refl => cases hs
  | @tail a b hrun hlast ih =>
    obtain ⟨l, -, hstep⟩ := hlast
    rcases step_submissions hstep hs with ⟨s₀, hs₀, heq, -⟩ |
      ⟨i, key, recipients, amounts, r, rfl⟩
    · exact (ih hs₀ (heq.symm.trans hpurpose)).trans_le (totalSent_mono hstep)
    · have htotal : totalSent leagueID b = totalSent leagueID a + _ := hstep.total_countP _
      rw [htotal, hpurpose]
      simp [Label.counts, Call.distributes]

/-- A league is marked failed after its transaction has been submitted. -/
theorem Runs.sent_of_markFailed (h : Runs svc crypto ok a) (hstep : (backend svc crypto).Step a l b)
    (hs : applied a l = some (.markPayoutFailed leagueID)) : 0 < totalSent leagueID a := by
  obtain ⟨i, t, ht, earlier, hsuffix, hallows⟩ :=
    h.applied_allowed (conforms_seasonProtocol leagueID) hstep hs
  have hearlier := (h.seasonTrace leagueID ht hsuffix).failed (hallows.2 rfl)
  have hsent : 0 < submissionsSent leagueID t :=
    hearlier.trans_le hsuffix.sublist.countP_le
  exact hsent.trans_le (le_total ht)

/-- A failed league has had its transaction submitted. -/
theorem Runs.sent_of_failed (h : Runs svc crypto ok a) {r : LeagueRow}
    (hr : r ∈ a.world.db.leagues.rows) (hfailed : r.payoutStatus = .failed) :
    0 < totalSent r.id a := by
  induction h generalizing r with
  | refl => cases hr
  | @tail a b hrun hlast ih =>
    obtain ⟨l, -, hstep⟩ := hlast
    refine lt_of_lt_of_le ?_ (totalSent_mono hstep)
    rcases step_league hstep hr with ⟨r₀, hr₀, hmoves⟩ | ⟨-, -, hpending, -⟩
    · rw [hmoves.id]
      rcases hmoves.failed hfailed with hfailed₀ | happlied
      · exact ih hr₀ hfailed₀
      · exact Runs.sent_of_markFailed hrun hstep happlied
    · cases hpending.symm.trans hfailed

/-! ## The result -/

/-- Every season-end transaction of a league that counts as unpaid has been reverted, so that
none has taken effect or still can. -/
def UnpaidReverted (a : BackendConfig) : Prop :=
  ∀ r ∈ a.world.db.leagues.rows, r.Unpaid → ∀ s ∈ a.world.submissions,
    s.purpose = .seasonEnd r.id → s.outcome = .reverted

/-- An executing league is marked failed only after its transaction has been reverted. -/
def FailsAfterRevert (a : BackendConfig) (l : BackendLabel) : Prop :=
  ∀ leagueID, applied a l = some (.markPayoutFailed leagueID) →
    ∀ r ∈ a.world.db.leagues.rows, r.id = leagueID → r.payoutStatus = .executing →
      ∀ s ∈ a.world.submissions, s.purpose = .seasonEnd leagueID → s.outcome = .reverted

/-- A step that marks leagues failed only after a revert keeps the transactions of unpaid
leagues reverted. -/
theorem unpaidReverted_step (h : Runs svc crypto ok a) (hinv : UnpaidReverted a)
    (hstep : (backend svc crypto).Step a l b) (hok : FailsAfterRevert a l) :
    UnpaidReverted b := by
  intro r' hr' hunpaid s' hs' hpurpose
  rcases step_league hstep hr' with ⟨r, hr, hmoves⟩ | ⟨hnew, -⟩
  · have hcases : r.Unpaid ∨
        applied a l = some (.markPayoutFailed r.id) ∧ r.payoutStatus = .executing :=
      hmoves.unpaid hunpaid
    rw [hmoves.id] at hpurpose
    have hreverted : ∀ s ∈ a.world.submissions, s.purpose = .seasonEnd r.id →
        s.outcome = .reverted := by
      rcases hcases with hr₀ | ⟨happlied, hexecuting⟩
      · exact hinv r hr hr₀
      · exact hok r.id happlied r hr rfl hexecuting
    rcases step_submissions hstep hs' with ⟨s, hs, heq, rfl | hpending⟩ |
      ⟨i, key, recipients, amounts, res, rfl⟩
    · exact hreverted s' hs hpurpose
    · cases hpending.symm.trans (hreverted s hs (heq.symm.trans hpurpose))
    · rw [hpurpose] at hstep
      obtain ⟨hzero, -, hclaimed⟩ := h.first_submission hstep
      rcases hcases with (hpending | hfailed) | ⟨happlied, -⟩
      · exact absurd hpending (hclaimed r hr rfl)
      · exact absurd hzero (h.sent_of_failed hr hfailed).ne'
      · cases happlied
  · have hissued : r'.id ∈ a.world.issued := by
      rcases step_submissions hstep hs' with ⟨s, hs, heq, -⟩ |
        ⟨i, key, recipients, amounts, res, rfl⟩
      · exact (h.claimed_of_sent (h.sent_of_submission hs (heq.symm.trans hpurpose))).1
      · rw [hpurpose] at hstep
        exact (h.first_submission hstep).2.1
    exact absurd hissued hnew

/-- A league that is executing before it is marked failed is failed afterwards. -/
theorem markPayoutFailed_run {now : ℕ} {fresh : String} {db db' : Database}
    {n : (Statement.markPayoutFailed leagueID).Result}
    (h : (Statement.markPayoutFailed leagueID).run now fresh db = some (n, db')) {r : LeagueRow}
    (hr : r ∈ db.leagues.rows) (hid : r.id = leagueID) (hexecuting : r.payoutStatus = .executing) :
    { r with payoutStatus := .failed, updatedAt := now } ∈ db'.leagues.rows := by
  cases h
  simp only [Table.mem_updateWhere]
  exact ⟨r, hr, by simp [hid, hexecuting]⟩

/-- A step after which the transactions of unpaid leagues are reverted marks leagues failed
only after a revert. -/
theorem failsAfterRevert_of_unpaid (hstep : (backend svc crypto).Step a l b)
    (hinv : UnpaidReverted b) : FailsAfterRevert a l := by
  intro leagueID happlied r hr hid hexecuting s hs hpurpose
  rcases step_db hstep with ⟨hnone, -⟩ | ⟨s', hs', now, fresh, n, -, hrun, -, hsubmissions⟩
  · cases hnone.symm.trans happlied
  · obtain rfl : s' = .markPayoutFailed leagueID := Option.some.inj (hs'.symm.trans happlied)
    have hfailed := markPayoutFailed_run hrun hr hid hexecuting
    exact hinv _ hfailed (.inr rfl) s (hsubmissions ▸ hs) (hid ▸ hpurpose)

/-- Along every run in which leagues are marked failed only after their transaction has been
reverted, no transaction of a pending or failed league takes effect, and a further step
keeps it so exactly if it does the same. -/
theorem unpaidReverted_iff (h : Runs svc crypto FailsAfterRevert a) :
    UnpaidReverted a ∧ ∀ l b, (backend svc crypto).Step a l b →
      (UnpaidReverted b ↔ FailsAfterRevert a l) := by
  have hstep : ∀ {a b : BackendConfig} {l : BackendLabel}, Runs svc crypto FailsAfterRevert a →
      UnpaidReverted a → (backend svc crypto).Step a l b →
      (UnpaidReverted b ↔ FailsAfterRevert a l) := by
    intro a b l hrun hinv hl
    exact ⟨failsAfterRevert_of_unpaid hl, unpaidReverted_step hrun hinv hl⟩
  have hinv : UnpaidReverted a := by
    induction h with
    | refl => simp [UnpaidReverted, initialConfig, Table.empty]
    | tail hrun hlast ih =>
      obtain ⟨l, hok, hl⟩ := hlast
      exact (hstep hrun ih hl).mpr hok
  exact ⟨hinv, fun l b hl => hstep h hinv hl⟩

/-- The league a statement marks failed. -/
def Statement.failedLeague : Statement → Option String
  | .markPayoutFailed leagueID => some leagueID
  | _ => none

/-- Only one statement marks a league failed. -/
theorem Statement.failedLeague_eq {s : Statement} :
    s.failedLeague = some leagueID ↔ s = .markPayoutFailed leagueID := by
  cases s <;> simp [failedLeague]

instance (a : BackendConfig) (l : BackendLabel) : Decidable (FailsAfterRevert a l) :=
  decidable_of_iff (∀ leagueID ∈ (applied a l).bind Statement.failedLeague,
    ∀ r ∈ a.world.db.leagues.rows, r.id = leagueID → r.payoutStatus = .executing →
      ∀ s ∈ a.world.submissions, s.purpose = .seasonEnd leagueID → s.outcome = .reverted) <| by
    simp only [FailsAfterRevert, Option.mem_def, Option.bind_eq_some_iff,
      Statement.failedLeague_eq, exists_eq_right]

instance (r : LeagueRow) : Decidable r.Unpaid := inferInstanceAs (Decidable (_ ∨ _))

/-- The transaction of a league is reverted, its receipt says so, and the league is marked
failed. -/
def revertedPayout : Schedule :=
  Schedule.fundedLeague Schedule.firstPlace ++ Schedule.seasonEnd 4 ++
    [.call 4 (.succeed 0 "f3"), .call 4 (.succeed 0 "tx"), .env (.settle 0 false),
      .call 4 (.succeed 0 ""), .call 4 (.succeed 0 "f4")]

/-- The transaction of a league succeeds, but the receipt cannot be read, and the league is
marked failed. -/
def lostReceipt : Schedule :=
  Schedule.fundedLeague Schedule.firstPlace ++ Schedule.seasonEnd 4 ++
    [.call 4 (.succeed 0 "f3"), .call 4 (.succeed 0 "tx"), .env (.settle 0 true),
      .call 4 .fail, .call 4 (.succeed 0 "f4")]

/-- The equivalence at the end of a run in which a league is marked failed after its
transaction was reverted. -/
theorem unpaidReverted_revertedPayout : ∃ a, Runs .mock .mock FailsAfterRevert a ∧
    (∃ r ∈ a.world.db.leagues.rows, r.payoutStatus = .failed) ∧
    UnpaidReverted a ∧ ∀ l b, (backend .mock .mock).Step a l b →
      (UnpaidReverted b ↔ FailsAfterRevert a l) := by
  obtain ⟨a, hrun, hrow⟩ := revertedPayout.exists_run .mock .mock FailsAfterRevert
    (fun a => ∃ r ∈ a.world.db.leagues.rows, r.payoutStatus = .failed) (by decide)
  exact ⟨a, hrun, hrow, unpaidReverted_iff hrun⟩

/-- A league is marked failed although its transaction has succeeded. -/
theorem exists_failed_paid : ∃ a, Runs .mock .mock (fun _ _ => True) a ∧
    ∃ r ∈ a.world.db.leagues.rows, r.payoutStatus = .failed ∧
      ∃ s ∈ a.world.submissions, s.purpose = .seasonEnd r.id ∧ s.outcome = .succeeded :=
  lostReceipt.exists_run .mock .mock (fun _ _ => True)
    (fun a => ∃ r ∈ a.world.db.leagues.rows, r.payoutStatus = .failed ∧
      ∃ s ∈ a.world.submissions, s.purpose = .seasonEnd r.id ∧ s.outcome = .succeeded) (by decide)

end Wagr
