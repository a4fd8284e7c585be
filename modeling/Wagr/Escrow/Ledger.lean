import Wagr.Escrow.Contract

/-!
# The contract's mappings as pooled accounts

A storage, together with what was distributed so far, is a state of `Accounting.Pools`:
leagues are the pools and addresses the members. Each of the three operations of the
contract is the pool operation it is meant to be, under the checks the contract makes.
-/

namespace Wagr

open Accounting

/-- The checked addition returns the sum and excludes an overflow. -/
theorem checkedAdd_ok {a b c : UInt256} (h : checkedAdd a b = .ok c) : c.val = a.val + b.val := by
  unfold checkedAdd at h
  split at h
  · cases h
    rfl
  · cases h

/-- The checked subtraction returns the difference and excludes an underflow. -/
theorem checkedSub_ok {a b c : UInt256} (h : checkedSub a b = .ok c) :
    b.val ≤ a.val ∧ c.val = a.val - b.val := by
  unfold checkedSub at h
  split at h
  · rename_i hle
    cases h
    exact ⟨hle, rfl⟩
  · cases h

/-- A checked addition fails by an overflow only. -/
theorem checkedAdd_error {a b : UInt256} {r : Revert} (h : checkedAdd a b = .error r) :
    r = .panic := by
  unfold checkedAdd at h
  split at h
  · cases h
  · cases h
    rfl

/-- A checked subtraction fails by an underflow only. -/
theorem checkedSub_error {a b : UInt256} {r : Revert} (h : checkedSub a b = .error r) :
    r = .panic := by
  unfold checkedSub at h
  split at h
  · cases h
  · cases h
    rfl

/-- A checked subtraction that does not underflow succeeds. -/
theorem checkedSub_of_le {a b : UInt256} (h : b.val ≤ a.val) : ∃ c, checkedSub a b = .ok c :=
  ⟨_, if_pos h⟩

namespace Storage

variable {s s' : Storage} {sender : Address} {leagueId : Bytes32} {amount : UInt256}

/-- The storage as pooled accounts, given what was paid out of each league. -/
def pools (s : Storage) (paidOut : Bytes32 → ℕ) : Pools Bytes32 Address where
  share := fun l m => (s.payments l m).val
  total := fun l => (s.leagueTotals l).val
  paidOut := paidOut

/-- The loop over the amounts, from any partial sum. -/
theorem foldlM_checkedAdd {amounts : List UInt256} {start total : UInt256}
    (h : amounts.foldlM checkedAdd start = .ok total) :
    total.val = start.val + (amounts.map Fin.val).sum := by
  induction amounts generalizing start with
  | nil =>
    cases h
    simp
  | cons a amounts ih =>
    rw [List.foldlM_cons] at h
    cases hadd : checkedAdd start a with
    | error r =>
      rw [hadd] at h
      cases h
    | ok next =>
      rw [hadd] at h
      have hnext := checkedAdd_ok hadd
      have hrest := ih h
      simp only [List.map_cons, List.sum_cons]
      omega

/-- The sum of the amounts is exact. -/
theorem sumAmounts_ok {amounts : List UInt256} {total : UInt256}
    (h : sumAmounts amounts = .ok total) : total.val = (amounts.map Fin.val).sum := by
  have hsum := foldlM_checkedAdd h
  simpa using hsum

/-- Setting one payment and one total, seen as pooled accounts. -/
theorem pools_set {paid total : UInt256} (paidOut : Bytes32 → ℕ) :
    ((s.setPayment leagueId sender paid).setTotal leagueId total).pools paidOut =
      ⟨Function.update (s.pools paidOut).share leagueId
          (Function.update ((s.pools paidOut).share leagueId) sender paid.val),
        Function.update (s.pools paidOut).total leagueId total.val, paidOut⟩ := by
  simp only [pools, setPayment, setTotal, Pools.mk.injEq, and_true]
  constructor
  · funext l m
    by_cases hl : l = leagueId
    · subst hl
      by_cases hm : m = sender
      · subst hm
        simp
      · simp [hm]
    · simp [hl]
  · funext l
    by_cases hl : l = leagueId
    · subst hl
      simp
    · simp [hl]

/-- `payEntryFee` is a deposit. -/
theorem payEntryFee_pools (h : s.payEntryFee sender leagueId amount = .ok s')
    (paidOut : Bytes32 → ℕ) :
    s'.pools paidOut = (s.pools paidOut).deposit leagueId sender amount.val := by
  unfold payEntryFee at h
  split at h
  · cases h
  · cases hpaid : checkedAdd (s.payments leagueId sender) amount with
    | error r => simp [hpaid, bind, Except.bind] at h
    | ok paid =>
      cases htotal : checkedAdd (s.leagueTotals leagueId) amount with
      | error r => simp [hpaid, htotal, bind, Except.bind] at h
      | ok total =>
        simp only [hpaid, htotal, bind, Except.bind, pure, Except.pure] at h
        cases h
        rw [pools_set, checkedAdd_ok hpaid, checkedAdd_ok htotal]
        rfl

/-- `claimRefund` takes back the whole entry, which the league's total covers. -/
theorem claimRefund_pools (h : s.claimRefund sender leagueId = .ok (amount, s'))
    (paidOut : Bytes32 → ℕ) :
    amount = s.payments leagueId sender ∧ amount.val ≤ (s.leagueTotals leagueId).val ∧
      s'.pools paidOut = (s.pools paidOut).reclaim leagueId sender := by
  unfold claimRefund at h
  simp only at h
  split at h
  · cases h
  · cases htotal : checkedSub (s.leagueTotals leagueId) (s.payments leagueId sender) with
    | error r => simp [htotal, bind, Except.bind] at h
    | ok total =>
      simp only [htotal, bind, Except.bind, pure, Except.pure, Except.ok.injEq,
        Prod.mk.injEq] at h
      obtain ⟨rfl, rfl⟩ := h
      have hsub := checkedSub_ok htotal
      refine ⟨rfl, hsub.1, ?_⟩
      rw [pools_set, hsub.2]
      rfl

/-- `claimRefund` succeeds for an entry the league's total covers. -/
theorem claimRefund_of_le (hpaid : s.payments leagueId sender ≠ 0)
    (hle : (s.payments leagueId sender).val ≤ (s.leagueTotals leagueId).val) :
    ∃ s', s.claimRefund sender leagueId = .ok (s.payments leagueId sender, s') := by
  obtain ⟨total, htotal⟩ := checkedSub_of_le hle
  refine ⟨(s.setPayment leagueId sender 0).setTotal leagueId total, ?_⟩
  unfold claimRefund
  simp only [if_neg hpaid, htotal]
  rfl

/-- `distributePayout` pays the sum of the amounts out of the league, which covers it. -/
theorem distributePayout_pools {recipients : List Address} {amounts : List UInt256}
    (h : s.distributePayout leagueId recipients amounts = .ok s') (paidOut : Bytes32 → ℕ) :
    recipients.length = amounts.length ∧
      (amounts.map Fin.val).sum ≤ (s.leagueTotals leagueId).val ∧
      s'.pools (Function.update paidOut leagueId
        (paidOut leagueId + (amounts.map Fin.val).sum)) =
        (s.pools paidOut).payOut leagueId (amounts.map Fin.val).sum := by
  unfold distributePayout at h
  split at h
  · cases h
  · rename_i hlen
    cases hsum : sumAmounts amounts with
    | error r => simp [hsum, bind, Except.bind] at h
    | ok total =>
      simp only [hsum, bind, Except.bind, pure, Except.pure] at h
      split at h
      · cases h
      · cases hleft : checkedSub (s.leagueTotals leagueId) total with
        | error r => simp [hleft] at h
        | ok left =>
          simp only [hleft, Except.ok.injEq] at h
          subst h
          have hsub := checkedSub_ok hleft
          rw [sumAmounts_ok hsum] at hsub
          refine ⟨by simpa using hlen, hsub.1, ?_⟩
          simp only [pools, setTotal, Pools.payOut, Pools.mk.injEq, and_true, true_and]
          funext l
          by_cases hl : l = leagueId
          · subst hl
            simp [hsub.2]
          · simp [hl]

/-- A refund the contract refuses by itself is not a failed token call. -/
theorem claimRefund_ne_token {r : Revert} (h : s.claimRefund sender leagueId = .error r)
    {t : TokenError} : r ≠ .token t := by
  unfold claimRefund at h
  simp only at h
  split at h
  · cases h
    simp
  · cases htotal : checkedSub (s.leagueTotals leagueId) (s.payments leagueId sender) with
    | error r' =>
      simp only [htotal, bind, Except.bind, Except.error.injEq] at h
      subst h
      exact checkedSub_error htotal ▸ by simp
    | ok total => simp [htotal, bind, Except.bind, pure, Except.pure] at h

/-- The loop over the amounts fails only by an overflow. -/
theorem sumAmounts_error {amounts : List UInt256} {start : UInt256} {r : Revert}
    (h : amounts.foldlM checkedAdd start = .error r) : r = .panic := by
  induction amounts generalizing start with
  | nil => cases h
  | cons a amounts ih =>
    rw [List.foldlM_cons] at h
    cases hadd : checkedAdd start a with
    | error r' =>
      rw [hadd] at h
      cases h
      exact checkedAdd_error hadd
    | ok next =>
      rw [hadd] at h
      exact ih h

/-- A payout the contract refuses by itself is not a failed token call. -/
theorem distributePayout_ne_token {recipients : List Address} {amounts : List UInt256}
    {r : Revert} (h : s.distributePayout leagueId recipients amounts = .error r)
    {t : TokenError} : r ≠ .token t := by
  unfold distributePayout at h
  split at h
  · cases h
    simp
  · cases hsum : sumAmounts amounts with
    | error r' =>
      simp only [hsum, bind, Except.bind, Except.error.injEq] at h
      subst h
      exact sumAmounts_error hsum ▸ by simp
    | ok total =>
      simp only [hsum, bind, Except.bind, pure, Except.pure] at h
      split at h
      · cases h
        simp
      · cases hleft : checkedSub (s.leagueTotals leagueId) total with
        | error r' =>
          simp only [hleft, Except.error.injEq] at h
          subst h
          exact checkedSub_error hleft ▸ by simp
        | ok left => simp [hleft] at h

end Storage

end Wagr
