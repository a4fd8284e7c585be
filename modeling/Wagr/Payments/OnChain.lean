import Wagr.Payments.Verified

/-!
# What is paid in the database is paid on the chain

The service samples the contract once, when it confirms a payment, and the contract lets a
member take the payment back at any time. While nobody does so before the league is cancelled,
every paid membership of a league that was not cancelled has its payment in the escrow.
-/

namespace Wagr

open Interaction System

variable {svc : Service} {crypto : Crypto} {a b : BackendConfig} {l : BackendLabel}

/-- The league is there and not cancelled. -/
def Database.Active (db : Database) (leagueID : String) : Prop :=
  ∃ r ∈ db.leagues.rows, r.id = leagueID ∧ r.cancelledAt = none

instance (db : Database) (leagueID : String) : Decidable (db.Active leagueID) := by
  unfold Database.Active
  infer_instance

/-- No league is reactivated, so that a league that is not cancelled never was. -/
def KeepsCancelled (a : BackendConfig) (l : BackendLabel) : Prop :=
  match applied a l with
  | some (.reactivateLeague _) => False
  | _ => True

/-- A step with truthful reads and without reactivations. -/
structure NeverReactivated (a : BackendConfig) (l : BackendLabel) : Prop where
  reads : ReadsTruthfully a l
  cancelled : KeepsCancelled a l

/-- Every paid membership of a league that is not cancelled was marked by a confirmation of one of
its users, and the escrow still holds the payment required then, at the address that the request
has found for the user's wallet. -/
def PaidOnChain (a : BackendConfig) : Prop :=
  ∀ m ∈ a.world.db.members.rows, m.paymentStatus = .paid → a.world.db.Active m.leagueID →
    ∃ c, MarkedBy a m c ∧ c.Covered a.world

/-- No refund is claimed at an address at which a payment for an active league was confirmed. -/
def RefundsAfterCancel (a : BackendConfig) : BackendLabel → Prop
  | .env (.claimRefund member key) => ∀ c ∈ confirmations a, uuidToBytes32 c.leagueID = .ok key →
      c.address = member → a.world.db.Active c.leagueID →
        (toMicroUSDC c.info.entryFeeCents).toInt ≤ 0
  | _ => True

instance (a : BackendConfig) (l : BackendLabel) : Decidable (KeepsCancelled a l) := by
  unfold KeepsCancelled
  generalize applied a l = s
  rcases s with _ | _ | _ <;> infer_instance

instance (a : BackendConfig) (l : BackendLabel) : Decidable (NeverReactivated a l) :=
  decidable_of_iff (_ ∧ _) ⟨fun h => ⟨h.1, h.2⟩, fun h => ⟨h.reads, h.cancelled⟩⟩

instance (a : BackendConfig) (l : BackendLabel) : Decidable (RefundsAfterCancel a l) := by
  rcases l with _ | _ | _ | _ | _ <;> unfold RefundsAfterCancel <;> infer_instance

/-- Without reactivations none is applied. -/
theorem KeepsCancelled.ne (h : KeepsCancelled a l) (leagueID : String) :
    applied a l ≠ some (.reactivateLeague leagueID) := by
  intro hs
  unfold KeepsCancelled at h
  rwa [hs] at h

/-- A league that is active after a step that does not reactivate it was active before. -/
theorem active_of_step (hstep : (backend svc crypto).Step a l b) {leagueID : String}
    (hcancelled : applied a l ≠ some (.reactivateLeague leagueID))
    (hissued : leagueID ∈ a.world.issued) (h : b.world.db.Active leagueID) :
    a.world.db.Active leagueID := by
  obtain ⟨r', hr', hid, hactive⟩ := h
  rcases step_row hstep hr' with
    ⟨r, hr, rfl | ⟨now, s, hs, hleague⟩⟩ | ⟨league, now, fresh, rfl, hfresh, -⟩
  · exact ⟨r', hr, hid, hactive⟩
  · have hid' : r.id = leagueID := hleague.id.symm.trans hid
    refine ⟨r, hr, hid', ?_⟩
    rcases hleague with rfl | hleague
    · exact hactive
    · cases s with
      | reactivateLeague leagueID' =>
        exact absurd ((hleague.1.symm.trans hid') ▸ hs) hcancelled
      | cancelLeague =>
        obtain ⟨-, -, rfl⟩ := hleague
        cases hactive
      | importLeague =>
        obtain ⟨rfl, -⟩ := hleague
        exact hactive
      | updateSettings =>
        obtain ⟨-, rfl⟩ := hleague
        exact hactive
      | markSettledWithoutPayout | claimPayout | markPayoutFailed | markPayoutExecuted
      | updateLeagueStatus =>
        obtain ⟨-, -, rfl⟩ := hleague
        exact hactive
      | _ => exact hleague.elim
  · obtain rfl : fresh = leagueID := hid
    exact absurd hissued hfresh

/-- Every confirmed payment for an active league stays in the escrow. -/
theorem Runs.active_covered
    (h : Runs svc crypto (fun a l => NeverReactivated a l ∧ RefundsAfterCancel a l) a)
    {c : Confirmation} (hc : Confirmed a c) (hactive : a.world.db.Active c.leagueID) :
    c.Covered a.world := by
  induction h with
  | refl =>
    obtain ⟨t, ht, -⟩ := hc
    cases ht
  | @tail a b hrun hlast ih =>
    obtain ⟨l, ⟨hscope, hrefund⟩, hstep⟩ := hlast
    rcases confirmed_covered hrun hstep hscope.reads hc with hc | hcovered
    · have hissued := (Runs.confirmed_learnt hrun hc).1
      have hactive' := active_of_step hstep (hscope.cancelled.ne _) hissued hactive
      have hcovered := ih hc hactive'
      by_cases hclaims : ∃ key, uuidToBytes32 c.leagueID = .ok key ∧
          l = .env (.claimRefund c.address key)
      · obtain ⟨key, hkey, rfl⟩ := hclaims
        have hfree := hrefund c (mem_confirmations.mpr hc) hkey rfl hactive'
        exact ⟨key, hkey, hfree.trans (Int.natCast_nonneg _)⟩
      · exact hcovered.step hstep fun key hkey hl => hclaims ⟨key, hkey, hl⟩
    · exact hcovered

/-- What is paid in the database stays paid on the chain in every run without refunds before the
cancellation. -/
theorem paidOnChain_of_refundsAfterCancel
    (h : Runs svc crypto (fun a l => NeverReactivated a l ∧ RefundsAfterCancel a l) a) :
    PaidOnChain a := by
  intro m hm hpaid hactive
  obtain ⟨c, hmarked⟩ := h.markedBy hm hpaid
  exact ⟨c, hmarked, h.active_covered hmarked.confirmed (hmarked.league ▸ hactive)⟩

/-- A member claims the refund of a confirmed payment after the cancellation. -/
def refundedAfterCancel : Schedule :=
  Schedule.fundedLeague Schedule.firstPlace ++ Schedule.confirm 4 "u1" "f3" ++
    Schedule.cancel 5 "f4" ++ [.env (.claimRefund 9 Schedule.leagueKey)]

/-- A member claims the refund of a confirmed payment of an active league. -/
def refundedBeforeCancel : Schedule :=
  Schedule.fundedLeague Schedule.firstPlace ++ Schedule.confirm 4 "u1" "f3" ++
    [.env (.claimRefund 9 Schedule.leagueKey)]

/-- A confirmed payment that is refunded after the cancellation is such a run. -/
theorem exists_paidOnChain : ∃ a, Runs .mock .mock
    (fun a l => NeverReactivated a l ∧ RefundsAfterCancel a l) a ∧
      (∃ m ∈ a.world.db.members.rows, m.paymentStatus = .paid) ∧ PaidOnChain a := by
  obtain ⟨a, hrun, hpaid⟩ := refundedAfterCancel.exists_run .mock .mock
    (fun a l => NeverReactivated a l ∧ RefundsAfterCancel a l)
    (fun a => ∃ m ∈ a.world.db.members.rows, m.paymentStatus = .paid) (by decide +kernel)
  exact ⟨a, hrun, hpaid, paidOnChain_of_refundsAfterCancel hrun⟩

/-- A member takes a confirmed payment back from an active league. -/
theorem exists_paid_refunded : ∃ a, Runs .mock .mock NeverReactivated a ∧ ¬ PaidOnChain a := by
  obtain ⟨a, hrun, ⟨m, hm, hpaid, hactive⟩, hconfirmations, hpayment⟩ :=
    refundedBeforeCancel.exists_run .mock .mock NeverReactivated
    (fun a => (∃ m ∈ a.world.db.members.rows, m.paymentStatus = .paid ∧
        a.world.db.Active m.leagueID) ∧
      (∀ c ∈ confirmations a, uuidToBytes32 c.leagueID = .ok Schedule.leagueKey ∧ c.address = 9 ∧
        0 < (toMicroUSDC c.info.entryFeeCents).toInt) ∧
      a.world.storage.payments Schedule.leagueKey 9 = 0) (by decide +kernel)
  refine ⟨a, hrun, fun hchain => ?_⟩
  obtain ⟨c, hmarked, key, hkey, hcovered⟩ := hchain m hm hpaid hactive
  obtain ⟨hkey', haddress, hfee⟩ := hconfirmations c (mem_confirmations.mpr hmarked.confirmed)
  cases hkey.symm.trans hkey'
  rw [haddress, hpayment] at hcovered
  exact absurd hfee (not_lt.mpr hcovered)

end Wagr
