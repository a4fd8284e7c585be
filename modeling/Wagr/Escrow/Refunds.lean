import Wagr.Escrow.Solvency

/-!
# When refund claims are covered

`claimRefund` lowers both mappings, `distributePayout` only the league's total. So the
entries of a league are covered by its total, and can be refunded in any order, exactly as
long as nothing was distributed for the league.
-/

namespace Wagr

open Accounting

namespace Escrow

variable {T : Type} {d : Deployment T} {e e' : Escrow T} {leagueId : Bytes32}

/-- The members of `order` call `claimRefund` one after the other. -/
def refundAll (d : Deployment T) (leagueId : Bytes32) :
    List Address → Escrow T → Except Revert (Escrow T)
  | [], e => .ok e
  | m :: order, e => do
    let e' ← claimRefund d e m leagueId
    refundAll d leagueId order e'

/-- The league's entries add up to at most its total. -/
def Covered (e : Escrow T) (leagueId : Bytes32) : Prop :=
  ∑ m, (e.storage.payments leagueId m).val ≤ (e.storage.leagueTotals leagueId).val

/-- Any members with an entry can claim their refunds, in any order. -/
def RefundableInAnyOrder (d : Deployment T) (e : Escrow T) (leagueId : Bytes32) : Prop :=
  ∀ order : List Address, order.Nodup → (∀ m ∈ order, e.storage.payments leagueId m ≠ 0) →
    ∃ e', refundAll d leagueId order e = .ok e'

/-- What can still be refunded, what was refunded and what was paid out as prizes are
different parts of what the members paid in. -/
def PrizesNotRefundable (e : Escrow T) (leagueId : Bytes32) : Prop :=
  ∑ m, (e.storage.payments leagueId m).val + ∑ m, tookBack e.events leagueId m +
    distributed e.events leagueId ≤ ∑ m, paidIn e.events leagueId m

/-- A refund takes the member's entry out of both mappings and out of nothing else. -/
theorem claimRefund_storage {m : Address} (h : claimRefund d e m leagueId = .ok e') :
    (e'.storage.leagueTotals leagueId).val + (e.storage.payments leagueId m).val =
        (e.storage.leagueTotals leagueId).val ∧
      (∀ m', m' ≠ m → e'.storage.payments leagueId m' = e.storage.payments leagueId m') ∧
      (e.Covered leagueId → e'.Covered leagueId) := by
  obtain ⟨amount, hstorage, -, -⟩ := claimRefund_ok h
  obtain ⟨hamount, hle, hpools⟩ := Storage.claimRefund_pools hstorage (fun _ => 0)
  have htotal := congrFun (congrArg Pools.total hpools) leagueId
  have hshare := congrFun (congrArg Pools.share hpools) leagueId
  simp only [Storage.pools, Pools.reclaim, Function.update_self] at htotal hshare
  refine ⟨?_, fun m' hm' => ?_, fun hcovered => ?_⟩
  · rw [hamount] at hle
    omega
  · have hm := congrFun hshare m'
    rw [Function.update_of_ne hm'] at hm
    exact Fin.ext hm
  · have hafter := Pools.covered_reclaim (s := e.storage.pools fun _ => 0) (m := m) hcovered
    rw [← hpools] at hafter
    exact hafter

/-- A covered member gets the refund from a solvent contract with a live token. -/
theorem claimRefund_of_covered (hs : Solvent d e) (hlive : d.usdc.Live)
    (hcovered : e.Covered leagueId) {m : Address}
    (hpaid : e.storage.payments leagueId m ≠ 0) :
    ∃ e', claimRefund d e m leagueId = .ok e' := by
  have hle : (e.storage.payments leagueId m).val ≤ (e.storage.leagueTotals leagueId).val :=
    le_trans (Pools.share_le_sum e.pools leagueId m) hcovered
  obtain ⟨storage, hstorage⟩ := Storage.claimRefund_of_le hpaid hle
  obtain ⟨token, htoken⟩ := hlive e.token d.self m (e.storage.payments leagueId m).val
    (le_trans hle (hs.total_le_balance leagueId))
  refine ⟨⟨storage, token,
    e.events ++ [.refundClaimed leagueId m (e.storage.payments leagueId m)]⟩, ?_⟩
  unfold claimRefund
  simp only [hstorage, htoken, bind, Except.bind, requireOk]
  rfl

/-- As long as the entries are covered, any members can claim in any order. -/
theorem refundable_of_covered (hs : Solvent d e) (husdc : d.usdc.Honest) (hlive : d.usdc.Live)
    (hcovered : e.Covered leagueId) : RefundableInAnyOrder d e leagueId := by
  intro order hnodup hpaid
  induction order generalizing e with
  | nil => exact ⟨e, rfl⟩
  | cons m order ih =>
    obtain ⟨hnew, hnodup⟩ := List.nodup_cons.mp hnodup
    obtain ⟨e₁, h₁⟩ := claimRefund_of_covered hs hlive hcovered (hpaid m List.mem_cons_self)
    obtain ⟨-, hother, hkeeps⟩ := claimRefund_storage h₁
    have hpaid₁ : ∀ m' ∈ order, e₁.storage.payments leagueId m' ≠ 0 := by
      intro m' hm'
      have hne : m' ≠ m := by
        rintro rfl
        exact hnew hm'
      rw [hother m' hne]
      exact hpaid m' (List.mem_cons_of_mem m hm')
    obtain ⟨e₂, h₂⟩ := ih (hs.claimRefund husdc h₁) (hkeeps hcovered) hnodup hpaid₁
    refine ⟨e₂, ?_⟩
    unfold refundAll
    rw [h₁]
    exact h₂

/-- Refunds of different members lower the total by the sum of their entries. -/
theorem refundAll_total {order : List Address} (h : refundAll d leagueId order e = .ok e')
    (hnodup : order.Nodup) :
    (e'.storage.leagueTotals leagueId).val +
      (order.map fun m => (e.storage.payments leagueId m).val).sum =
        (e.storage.leagueTotals leagueId).val := by
  induction order generalizing e with
  | nil =>
    cases h
    rfl
  | cons m order ih =>
    obtain ⟨hnew, hnodup⟩ := List.nodup_cons.mp hnodup
    unfold refundAll at h
    cases h₁ : claimRefund d e m leagueId with
    | error r => simp [h₁, bind, Except.bind] at h
    | ok e₁ =>
      simp only [h₁, bind, Except.bind] at h
      obtain ⟨htotal, hother, -⟩ := claimRefund_storage h₁
      have hsame : (order.map fun m => (e₁.storage.payments leagueId m).val) =
          order.map fun m => (e.storage.payments leagueId m).val := by
        refine List.map_congr_left fun m' hm' => ?_
        have hne : m' ≠ m := by
          rintro rfl
          exact hnew hm'
        rw [hother m' hne]
      have hrest := ih h hnodup
      rw [hsame] at hrest
      simp only [List.map_cons, List.sum_cons]
      omega

/-- If all members can claim, the total covers their entries. -/
theorem covered_of_refundable (h : RefundableInAnyOrder d e leagueId) : e.Covered leagueId := by
  let owed : Finset Address := Finset.univ.filter fun m => e.storage.payments leagueId m ≠ 0
  obtain ⟨e', hrun⟩ := h owed.toList owed.nodup_toList fun m hm => by
    have hmem := Finset.mem_toList.mp hm
    exact (Finset.mem_filter.mp hmem).2
  have htotal := refundAll_total hrun owed.nodup_toList
  have hsum : ∑ m, (e.storage.payments leagueId m).val =
      (owed.toList.map fun m => (e.storage.payments leagueId m).val).sum := by
    rw [Finset.sum_map_toList]
    refine (Finset.sum_subset (Finset.subset_univ owed) fun m _ hm => ?_).symm
    by_contra hne
    refine hm (Finset.mem_filter.mpr ⟨Finset.mem_univ m, fun hzero => hne ?_⟩)
    rw [hzero]
    rfl
  unfold Covered
  omega

/-- The entries are covered exactly as long as nothing was distributed. -/
theorem Solvent.covered_iff (hs : Solvent d e) :
    e.Covered leagueId ↔ distributed e.events leagueId = 0 :=
  hs.balanced.covered_iff

/-- **Refund claims and prizes.** In a reachable state the refund claims of a league are covered
by its total, can be called in any order, and leave the prizes alone, exactly if nothing has
been distributed for the league. -/
theorem reachable_refunds_iff (husdc : d.usdc.Honest) (hlive : d.usdc.Live)
    (h : Reachable d e) (leagueId : Bytes32) :
    (e.Covered leagueId ↔ distributed e.events leagueId = 0) ∧
      (RefundableInAnyOrder d e leagueId ↔ distributed e.events leagueId = 0) ∧
      (e.PrizesNotRefundable leagueId ↔ distributed e.events leagueId = 0) := by
  have hs := h.solvent husdc
  refine ⟨hs.covered_iff, ?_, ?_⟩
  · constructor
    · intro hany
      exact hs.covered_iff.mp (covered_of_refundable hany)
    · intro hnone
      exact refundable_of_covered hs husdc hlive (hs.covered_iff.mpr hnone)
  · have hsum : ∑ m, (e.storage.payments leagueId m).val + ∑ m, tookBack e.events leagueId m =
        ∑ m, paidIn e.events leagueId m := by
      rw [← Finset.sum_add_distrib]
      exact Finset.sum_congr rfl fun m _ => hs.ledger leagueId m
    unfold PrizesNotRefundable
    omega

/-- `reachable_refunds_iff` before and after the payout of a short run. -/
theorem mock_run_refunds_iff : ∃ paid paidOut : Escrow MockUSDC,
    Reachable mockDeployment paid ∧ Reachable mockDeployment paidOut ∧
      RefundableInAnyOrder mockDeployment paid 0xaa ∧
      ¬ RefundableInAnyOrder mockDeployment paidOut 0xaa := by
  obtain ⟨paid, paidOut, h₁, h₂, -, hnone, -, -, hout, -⟩ := mock_run
  have hpaid := reachable_refunds_iff MockUSDC.erc20_honest MockUSDC.erc20_live h₁ 0xaa
  have hpaidOut := reachable_refunds_iff MockUSDC.erc20_honest MockUSDC.erc20_live h₂ 0xaa
  refine ⟨paid, paidOut, h₁, h₂, hpaid.2.1.mpr hnone, fun hany => ?_⟩
  rw [hpaidOut.2.1.mp hany] at hout
  cases hout

/-- After the payout the entry of the member who paid is no longer covered, and the refund
reverts. -/
theorem mock_refund_uncovered : ∃ e : Escrow MockUSDC, Reachable mockDeployment e ∧
    mockDeployment.usdc.Honest ∧ mockDeployment.usdc.Live ∧ ¬ e.Covered 0xaa ∧
      e.storage.payments 0xaa 0x7 ≠ 0 ∧
      claimRefund mockDeployment e 0x7 0xaa = .error .panic := by
  obtain ⟨_, e, -, h, -, -, hpaid, htotal, -, hpanic⟩ := mock_run
  refine ⟨e, h, MockUSDC.erc20_honest, MockUSDC.erc20_live, fun hcovered => ?_, ?_, hpanic⟩
  · have hle : (e.storage.payments 0xaa 0x7).val ≤ (e.storage.leagueTotals 0xaa).val :=
      le_trans (Pools.share_le_sum e.pools 0xaa 0x7) hcovered
    rw [hpaid, htotal] at hle
    revert hle
    decide
  · rw [hpaid]
    decide

end Escrow

end Wagr
