import Wagr.Payouts.Failed
import Wagr.Payouts.KeptRules
import Wagr.Payouts.Ledger
import Wagr.Payouts.Weekly
import Wagr.Payouts.MicroUSDC
import Wagr.Library.Attribution

/-!
# What the oracle distributes

The micro-USDC of all transactions of a league that have succeeded. The weekly ones pay events of
the ledger, and no event twice if reads return only unheld events; at most one transaction pays
the final standings.
-/

namespace Wagr

open Interaction Relational System

variable {svc : Service} {crypto : Crypto} {a b : BackendConfig} {l : BackendLabel}
  {ok : BackendConfig → BackendLabel → Prop} {leagueID : String} {rules : List PayoutEntry}
  {ledger : List WeeklyEventRow}

/-- The amounts of a transaction, summed without overflow. -/
def Submission.total (s : Submission) : ℤ := (s.amounts.map fun w => (w.val : ℤ)).sum

/-- The transaction has paid for the league. -/
def Submission.HasPaid (s : Submission) (leagueID : String) : Prop :=
  s.outcome = .succeeded ∧ s.purpose.leagueID = leagueID

instance (s : Submission) (leagueID : String) : Decidable (s.HasPaid leagueID) :=
  inferInstanceAs (Decidable (_ ∧ _))

/-- The micro-USDC the oracle has distributed for a league. -/
def World.distributed (w : World) (leagueID : String) : ℤ :=
  ((w.submissions.filter fun s => s.HasPaid leagueID).map Submission.total).sum

/-! ## Weekly transactions -/

/-- No two transactions pay an event. -/
theorem EventsExclusive.pairwise (h : EventsExclusive a) :
    a.world.submissions.Pairwise fun s s' => ∀ eventID, s.Pays eventID → ¬ s'.Pays eventID := by
  rw [List.pairwise_iff_getElem]
  intro k n hk hn hlt eventID hpays hpays'
  have heq := h.paid eventID k n _ _ (List.getElem?_eq_getElem hk) (List.getElem?_eq_getElem hn)
    hpays hpays'
  omega

/-- Transactions that pay events of the ledger, and none twice, pay what the events sum to. -/
theorem exists_events {subs : List Submission} (hpays : ∀ s ∈ subs, s.PaysFrom ledger)
    (hdisjoint : subs.Pairwise fun s s' => s.purpose.eventIDs.Disjoint s'.purpose.eventIDs) :
    ∃ events : List WeeklyEventRow, events ⊆ ledger ∧ (events.map WeeklyEventRow.id).Nodup ∧
      events.map WeeklyEventRow.id = subs.flatMap (fun s => s.purpose.eventIDs) ∧
      (subs.map Submission.total).sum = (events.map fun e => (e.word.val : ℤ)).sum := by
  induction subs with
  | nil => exact ⟨[], List.nil_subset _, List.nodup_nil, rfl, rfl⟩
  | cons s subs ih =>
    obtain ⟨hfirst, hrest⟩ := List.pairwise_cons.mp hdisjoint
    obtain ⟨events, hevents, hnodup, hids, hsum⟩ :=
      ih (fun s hs => hpays s (List.mem_cons_of_mem _ hs)) hrest
    obtain ⟨paid, hpaid, hpaidNodup, hpaidIDs, hamounts⟩ := hpays s List.mem_cons_self
    refine ⟨paid ++ events, List.append_subset.mpr ⟨hpaid, hevents⟩, ?_, ?_, ?_⟩
    · rw [List.map_append]
      refine hpaidNodup.append hnodup fun id hid hid' => ?_
      rw [hids] at hid'
      obtain ⟨s', hs', hmem⟩ := List.mem_flatMap.mp hid'
      exact hfirst s' hs' (hpaidIDs ▸ hid) hmem
    · rw [List.map_append, List.flatMap_cons, hpaidIDs, hids]
    · have htotal : s.total = (paid.map fun e => (e.word.val : ℤ)).sum := by
        rw [Submission.total, hamounts, List.map_map]
        rfl
      rw [List.map_cons, List.sum_cons, List.map_append, List.sum_append, htotal, hsum]

/-! ## The season-end transaction -/

/-- At most one transaction of a league pays the final standings. -/
theorem Runs.season_once (h : Runs svc crypto ok a) {k n : ℕ} {s s' : Submission}
    (hs : a.world.submissions[k]? = some s) (hs' : a.world.submissions[n]? = some s')
    (hseason : s.purpose = .seasonEnd leagueID) (hseason' : s'.purpose = .seasonEnd leagueID) :
    k = n := by
  induction h generalizing k n s s' with
  | refl => cases hs
  | @tail a b hrun hlast ih =>
    obtain ⟨l, -, hstep⟩ := hlast
    -- a new transaction of the season finds none before
    have hnew : ∀ {k n : ℕ} {s s' : Submission}, a.world.submissions[k]? = some s →
        s.purpose = .seasonEnd leagueID → b.world.submissions[n]? = some s' →
          s'.purpose = .seasonEnd leagueID → ∀ i key recipients amounts r,
            l = .call i (.contractExecute s'.purpose key recipients amounts) r → False := by
      rintro k n s s' hs hseason hs' hseason' i key recipients amounts r rfl
      rw [hseason'] at hstep
      have hzero := (Runs.first_submission hrun hstep).1
      have hpos := Runs.sent_of_submission hrun (List.mem_of_getElem? hs) hseason
      omega
    rcases step_submission hstep hs with ⟨s₀, hs₀, hsame, -⟩ |
      ⟨hk, i, key, recipients, amounts, r, hcall⟩
    · rcases step_submission hstep hs' with ⟨s₁, hs₁, hsame', -⟩ |
        ⟨hn, i, key, recipients, amounts, r, hcall⟩
      · exact ih hs₀ hs₁ (hsame.symm.trans hseason) (hsame'.symm.trans hseason')
      · exact (hnew hs₀ (hsame.symm.trans hseason) hs' hseason' _ _ _ _ _ hcall).elim
    · rcases step_submission hstep hs' with ⟨s₁, hs₁, hsame', -⟩ | ⟨hn, -⟩
      · exact (hnew hs₁ (hsame'.symm.trans hseason') hs hseason _ _ _ _ _ hcall).elim
      · exact hk.trans hn.symm

/-- The word that pays a place. -/
def placeWord (p : ℤ × Int64) : UInt256 := abiWord (toMicroUSDC p.2)

/-- The season-end transaction pays places of standings that were fetched. -/
theorem Runs.season_placed (h : Runs svc crypto ok a) {s : Submission}
    (hs : s ∈ a.world.submissions) (hseason : s.purpose = .seasonEnd leagueID) :
    ∃ payouts, (a.SomeTrace fun _ trace => Placed trace leagueID payouts) ∧
      s.amounts = payouts.map placeWord := by
  induction h generalizing s with
  | refl => cases hs
  | @tail a b hrun hlast ih =>
    obtain ⟨l, -, hstep⟩ := hlast
    have hkeep : ∀ {payouts}, (a.SomeTrace fun _ trace => Placed trace leagueID payouts) →
        b.SomeTrace fun _ trace => Placed trace leagueID payouts :=
      hstep.someTrace fun _ _ _ hplaced => hplaced.mono (List.suffix_cons _ _)
    obtain ⟨k, hk⟩ := List.mem_iff_getElem?.mp hs
    rcases step_submission_amounts hstep hk with ⟨s₀, hs₀, hsame, hamounts, -⟩ |
      ⟨-, i, key, recipients, amounts, r, rfl, hwords⟩
    · obtain ⟨payouts, hplaced, hpaid⟩ :=
        ih (List.mem_of_getElem? hs₀) (hsame.symm.trans hseason)
      exact ⟨payouts, hkeep hplaced, hamounts.trans hpaid⟩
    · rw [hseason] at hstep
      obtain ⟨t, ht⟩ : ∃ t : BackendThread, a.threads[i]? = some t := by
        cases hstep with
        | call ht => exact ⟨_, ht⟩
      obtain ⟨cents, hchecked⟩ := Runs.checked hrun hstep ht
      obtain ⟨payouts, hplaced, hcents⟩ := hchecked.configured
      refine ⟨payouts, hkeep ⟨i, t, ht, hplaced⟩, ?_⟩
      rw [hwords, hchecked.microUSDC, hcents]
      simp [placeWord, Function.comp_def]

end Wagr
