import Wagr.Escrow.Ledger

/-!
# Solvency of the escrow

Every successful call is a pool operation together with a token move of the same amount.
So the mappings agree with the event log, and the contract's balance covers the totals of
all leagues. `Solvent` is the invariant; it needs only that the token is honest.
-/

namespace Wagr

open Accounting

section Log

variable (events : List Event) (leagueId l : Bytes32) (member m : Address) (amount : UInt256)

@[simp] theorem paidIn_nil : paidIn [] l m = 0 := rfl

@[simp] theorem tookBack_nil : tookBack [] l m = 0 := rfl

@[simp] theorem distributed_nil : distributed [] l = 0 := rfl

@[simp] theorem paidIn_append (event : Event) : paidIn (events ++ [event]) l m =
    paidIn events l m + paidIn [event] l m := by
  simp [paidIn]

@[simp] theorem tookBack_append (event : Event) : tookBack (events ++ [event]) l m =
    tookBack events l m + tookBack [event] l m := by
  simp [tookBack]

@[simp] theorem distributed_append (event : Event) : distributed (events ++ [event]) l =
    distributed events l + distributed [event] l := by
  simp [distributed]

end Log

namespace Escrow

variable {T : Type} {d : Deployment T} {e e' : Escrow T}

/-- The ledger of the escrow as pooled accounts. -/
def pools (e : Escrow T) : Pools Bytes32 Address := e.storage.pools (distributed e.events)

/-- The mappings agree with the log, and the balance covers all leagues. -/
structure Solvent (d : Deployment T) (e : Escrow T) : Prop where
  /-- A payments entry is what the member paid without what they took back. -/
  ledger : ∀ l m, (e.storage.payments l m).val + tookBack e.events l m = paidIn e.events l m
  /-- A total is the league's entries without what was distributed. -/
  balanced : e.pools.Balanced
  /-- The contract holds the totals of all leagues. -/
  covered : ∑ l, (e.storage.leagueTotals l).val ≤ d.usdc.balanceOf e.token d.self

/-- A token call under `require` went through. -/
theorem requireOk_ok {reason : String} {r : Except TokenError (Bool × T)} {token : T}
    (h : requireOk reason r = .ok token) : r = .ok (true, token) := by
  match r, h with
  | .ok (true, _), rfl => rfl

/-- The amounts a payout pairs with its recipients. -/
theorem map_zip_amounts {recipients : List Address} {amounts : List UInt256}
    (hlen : recipients.length = amounts.length) :
    ((recipients.zip amounts).map fun p => p.2.val) = amounts.map Fin.val := by
  have hsnd : (recipients.zip amounts).map Prod.snd = amounts := List.map_snd_zip (by omega)
  calc ((recipients.zip amounts).map fun p => p.2.val)
      = ((recipients.zip amounts).map Prod.snd).map Fin.val := (List.map_map).symm
    _ = amounts.map Fin.val := by rw [hsnd]

/-- A deployed contract is solvent. -/
theorem solvent_deploy {rc : Int64} {token : T} (h : deploy rc token = .ok e) : Solvent d e := by
  unfold deploy at h
  split at h
  · cases h
    refine ⟨fun l m => rfl, fun l => ?_, ?_⟩
    · simp [pools, Storage.pools]
    · simp
  · cases h

/-- What one successful `payEntryFee` does. -/
theorem payEntryFee_ok {sender : Address} {leagueId : Bytes32} {amount : UInt256}
    (h : payEntryFee d e sender leagueId amount = .ok e') :
    e.storage.payEntryFee sender leagueId amount = .ok e'.storage ∧
      d.usdc.transferFrom e.token d.self sender d.self amount = .ok (true, e'.token) ∧
      e'.events = e.events ++ [.entryFeePaid leagueId sender amount] := by
  unfold payEntryFee at h
  cases hs : e.storage.payEntryFee sender leagueId amount with
  | error r => simp [hs, bind, Except.bind] at h
  | ok storage =>
    simp only [hs, bind, Except.bind] at h
    split at h
    · cases h
    · rename_i htoken
      cases h
      exact ⟨rfl, requireOk_ok htoken, rfl⟩

/-- What one successful `claimRefund` does. -/
theorem claimRefund_ok {sender : Address} {leagueId : Bytes32}
    (h : claimRefund d e sender leagueId = .ok e') :
    ∃ amount, e.storage.claimRefund sender leagueId = .ok (amount, e'.storage) ∧
      d.usdc.transfer e.token d.self sender amount = .ok (true, e'.token) ∧
      e'.events = e.events ++ [.refundClaimed leagueId sender amount] := by
  unfold claimRefund at h
  cases hs : e.storage.claimRefund sender leagueId with
  | error r => simp [hs, bind, Except.bind] at h
  | ok result =>
    obtain ⟨amount, storage⟩ := result
    simp only [hs, bind, Except.bind] at h
    split at h
    · cases h
    · rename_i htoken
      cases h
      exact ⟨amount, rfl, requireOk_ok htoken, rfl⟩

/-- What one successful `distributePayout` does before its loop. -/
theorem distributePayout_ok {sender : Address} {leagueId : Bytes32} {recipients : List Address}
    {amounts : List UInt256}
    (h : distributePayout d e sender leagueId recipients amounts = .ok e') :
    ∃ storage, e.storage.distributePayout leagueId recipients amounts = .ok storage ∧
      payRecipients d leagueId { e with storage := storage } (recipients.zip amounts) = .ok e' := by
  unfold distributePayout at h
  cases howner : onlyOwner d sender with
  | error r => simp [howner, bind, Except.bind] at h
  | ok u =>
    cases hs : e.storage.distributePayout leagueId recipients amounts with
    | error r => simp [howner, hs, bind, Except.bind] at h
    | ok storage =>
      simp only [howner, hs, bind, Except.bind] at h
      exact ⟨storage, rfl, h⟩

/-- Withdrawing another token changes nothing here. -/
theorem emergencyWithdraw_ok {sender token : Address} {amount : UInt256}
    {answer : Except TokenError Bool} (htoken : token ≠ d.usdcAddress)
    (h : emergencyWithdraw d e sender token amount answer = .ok e') : e' = e := by
  unfold emergencyWithdraw at h
  cases howner : onlyOwner d sender with
  | error r => simp [howner, bind, Except.bind] at h
  | ok u =>
    simp only [howner, bind, Except.bind, if_neg htoken] at h
    split at h
    · cases h
    · cases h
      rfl

/-- The transfer loop leaves the storage alone, logs exactly its amounts for its league, and
lowers the balance by at most their sum. -/
theorem payRecipients_ok (husdc : d.usdc.Honest) {leagueId : Bytes32}
    {payments : List (Address × UInt256)} (h : payRecipients d leagueId e payments = .ok e') :
    e'.storage = e.storage ∧
      (∀ l m, paidIn e'.events l m = paidIn e.events l m) ∧
      (∀ l m, tookBack e'.events l m = tookBack e.events l m) ∧
      distributed e'.events = Function.update (distributed e.events) leagueId
        (distributed e.events leagueId + (payments.map fun p => p.2.val).sum) ∧
      d.usdc.balanceOf e.token d.self ≤
        d.usdc.balanceOf e'.token d.self + (payments.map fun p => p.2.val).sum := by
  induction payments generalizing e with
  | nil =>
    cases h
    simp
  | cons p payments ih =>
    obtain ⟨recipient, amount⟩ := p
    unfold payRecipients at h
    cases htoken : requireOk "payout transfer failed"
        (d.usdc.transfer e.token d.self recipient amount) with
    | error r => simp [htoken, bind, Except.bind] at h
    | ok token =>
      simp only [htoken, bind, Except.bind] at h
      obtain ⟨hstorage, hpaid, htook, hout, hbalance⟩ := ih h
      have hpayer := (husdc.transfer_moves (requireOk_ok htoken)).payer
      refine ⟨hstorage, fun l m => ?_, fun l m => ?_, ?_, ?_⟩
      · simpa [paidIn] using hpaid l m
      · simpa [tookBack] using htook l m
      · rw [hout]
        funext l
        by_cases hl : l = leagueId
        · subst hl
          simp [distributed, Nat.add_assoc]
        · have hl' : leagueId ≠ l := fun h => hl h.symm
          simp [distributed, hl, hl']
      · simp only [List.map_cons, List.sum_cons] at hbalance ⊢
        omega

/-- `payEntryFee` keeps the contract solvent. -/
theorem Solvent.payEntryFee (hs : Solvent d e) (husdc : d.usdc.Honest) {sender : Address}
    {leagueId : Bytes32} {amount : UInt256} (hsender : sender ≠ d.self)
    (h : payEntryFee d e sender leagueId amount = .ok e') : Solvent d e' := by
  obtain ⟨hstorage, htoken, hevents⟩ := payEntryFee_ok h
  have hpools := Storage.payEntryFee_pools hstorage (distributed e.events)
  have hshare := congrArg Pools.share hpools
  have htotal := congrArg Pools.total hpools
  have hout : distributed e'.events = distributed e.events := by
    funext l
    rw [hevents]
    simp [distributed]
  refine ⟨fun l m => ?_, ?_, ?_⟩
  · have hold := hs.ledger l m
    have hlm := congrFun (congrFun hshare l) m
    simp only [Storage.pools, Pools.deposit] at hlm
    rw [hlm, hevents]
    by_cases hl : l = leagueId
    · subst hl
      by_cases hm : m = sender
      · subst hm
        simp [paidIn, tookBack] at hold ⊢
        omega
      · have hm' : sender ≠ m := fun h => hm h.symm
        simpa [paidIn, tookBack, hm, hm'] using hold
    · have hl' : leagueId ≠ l := fun h => hl h.symm
      simpa [paidIn, tookBack, hl, hl'] using hold
  · unfold pools
    rw [hout, hpools]
    exact hs.balanced.deposit
  · have hsum := Pools.sum_total_deposit (s := e.storage.pools (distributed e.events))
      (p := leagueId) (m := sender) (a := amount.val)
    have hgain := (husdc.transferFrom_moves htoken).receiver (fun h => hsender h.symm)
    have hold := hs.covered
    rw [← hpools] at hsum
    simp only [Storage.pools] at hsum
    omega

/-- `claimRefund` keeps the contract solvent. -/
theorem Solvent.claimRefund (hs : Solvent d e) (husdc : d.usdc.Honest) {sender : Address}
    {leagueId : Bytes32} (h : claimRefund d e sender leagueId = .ok e') : Solvent d e' := by
  obtain ⟨amount, hstorage, htoken, hevents⟩ := claimRefund_ok h
  obtain ⟨hamount, hle, hpools⟩ := Storage.claimRefund_pools hstorage (distributed e.events)
  have hshare := congrArg Pools.share hpools
  have hshares : (e.storage.payments leagueId sender).val ≤
      (e.storage.leagueTotals leagueId).val := by
    rw [← hamount]
    exact hle
  have hout : distributed e'.events = distributed e.events := by
    funext l
    rw [hevents]
    simp [distributed]
  refine ⟨fun l m => ?_, ?_, ?_⟩
  · have hold := hs.ledger l m
    have hlm := congrFun (congrFun hshare l) m
    simp only [Storage.pools, Pools.reclaim] at hlm
    rw [hlm, hevents]
    by_cases hl : l = leagueId
    · subst hl
      by_cases hm : m = sender
      · subst hm
        simp [paidIn, tookBack, hamount] at hold ⊢
        omega
      · have hm' : sender ≠ m := fun h => hm h.symm
        simpa [paidIn, tookBack, hm, hm'] using hold
    · have hl' : leagueId ≠ l := fun h => hl h.symm
      simpa [paidIn, tookBack, hl, hl'] using hold
  · unfold pools
    rw [hout, hpools]
    exact hs.balanced.reclaim hshares
  · have hsum := Pools.sum_total_reclaim (s := e.storage.pools (distributed e.events))
      (p := leagueId) (m := sender) hshares
    have hpayer := (husdc.transfer_moves htoken).payer
    have hold := hs.covered
    rw [← hpools] at hsum
    simp only [Storage.pools, ← hamount] at hsum
    omega

/-- `distributePayout` keeps the contract solvent. -/
theorem Solvent.distributePayout (hs : Solvent d e) (husdc : d.usdc.Honest) {sender : Address}
    {leagueId : Bytes32} {recipients : List Address} {amounts : List UInt256}
    (h : distributePayout d e sender leagueId recipients amounts = .ok e') : Solvent d e' := by
  obtain ⟨storage, hstorage, hloop⟩ := distributePayout_ok h
  obtain ⟨hlen, hle, hpools⟩ := Storage.distributePayout_pools hstorage (distributed e.events)
  obtain ⟨hsame, hpaid, htook, hout, hbalance⟩ := payRecipients_ok husdc hloop
  rw [map_zip_amounts hlen] at hout hbalance
  have hafter : e'.pools = (e.storage.pools (distributed e.events)).payOut leagueId
      (amounts.map Fin.val).sum := by
    unfold pools
    rw [hsame, hout, hpools]
  refine ⟨fun l m => ?_, ?_, ?_⟩
  · have hlm := congrFun (congrFun (congrArg Pools.share hpools) l) m
    simp only [Storage.pools, Pools.payOut] at hlm
    rw [hsame, hpaid, htook, hlm]
    exact hs.ledger l m
  · rw [hafter]
    exact hs.balanced.payOut hle
  · have hsum := Pools.sum_total_payOut (s := e.storage.pools (distributed e.events))
      (p := leagueId) hle
    have hold := hs.covered
    rw [← hafter] at hsum
    simp only [pools, Storage.pools] at hsum hbalance
    omega

/-- Every step keeps the contract solvent. -/
theorem Solvent.step (hs : Solvent d e) (husdc : d.usdc.Honest) (h : Step d e e') :
    Solvent d e' := by
  cases h with
  | @call _ _ c hsender hother h =>
    cases c with
    | payEntryFee leagueId amount => exact hs.payEntryFee husdc hsender h
    | claimRefund leagueId => exact hs.claimRefund husdc h
    | distributePayout leagueId recipients amounts => exact hs.distributePayout husdc h
    | emergencyWithdraw token amount answer =>
      have htoken : token ≠ d.usdcAddress := by
        rintro rfl
        exact hother amount answer rfl
      have hsame := emergencyWithdraw_ok htoken h
      exact hsame ▸ hs
  | outside h => exact ⟨hs.ledger, hs.balanced, le_trans hs.covered h⟩

/-- Every reachable state is solvent. -/
theorem Reachable.solvent (husdc : d.usdc.Honest) (h : Reachable d e) : Solvent d e := by
  obtain ⟨rc, token, e₀, hdeploy, hrun⟩ := h
  induction hrun with
  | refl => exact solvent_deploy hdeploy
  | tail _ hstep ih => exact ih.step husdc hstep

/-- A solvent contract can pay everything its own checks let through. -/
theorem Solvent.total_le_balance (hs : Solvent d e) (leagueId : Bytes32) :
    (e.storage.leagueTotals leagueId).val ≤ d.usdc.balanceOf e.token d.self :=
  le_trans (Pools.total_le_sum e.pools leagueId) hs.covered

/-- The transfer loop finds the balance for each of its transfers if there is enough for all. -/
theorem payRecipients_balance (husdc : d.usdc.Honest) {leagueId : Bytes32}
    {payments : List (Address × UInt256)}
    (hle : (payments.map fun p => p.2.val).sum ≤ d.usdc.balanceOf e.token d.self) :
    payRecipients d leagueId e payments ≠ .error (.token .insufficientBalance) := by
  induction payments generalizing e with
  | nil => simp [payRecipients]
  | cons p payments ih =>
    obtain ⟨recipient, amount⟩ := p
    simp only [List.map_cons, List.sum_cons] at hle
    intro h
    unfold payRecipients at h
    match ht : d.usdc.transfer e.token d.self recipient amount with
    | .error r =>
      simp only [ht, requireOk, bind, Except.bind, Except.error.injEq, Revert.token.injEq] at h
      subst h
      have hlacks := husdc.transfer_lacks ht
      omega
    | .ok (false, token) =>
      simp [ht, requireOk, bind, Except.bind] at h
    | .ok (true, token) =>
      simp only [ht, requireOk, bind, Except.bind] at h
      have hpayer := (husdc.transfer_moves ht).payer
      exact ih (by simp only; omega) h

/-- A refund that passes the contract's checks does not lack the money. -/
theorem Solvent.claimRefund_balance (hs : Solvent d e) (husdc : d.usdc.Honest) {sender : Address}
    {leagueId : Bytes32} :
    Escrow.claimRefund d e sender leagueId ≠ .error (.token .insufficientBalance) := by
  intro h
  unfold Escrow.claimRefund at h
  cases hc : e.storage.claimRefund sender leagueId with
  | error r =>
    simp only [hc, bind, Except.bind, Except.error.injEq] at h
    exact Storage.claimRefund_ne_token hc h
  | ok result =>
    obtain ⟨amount, storage⟩ := result
    obtain ⟨-, hle, -⟩ := Storage.claimRefund_pools hc (distributed e.events)
    have hbalance := hs.total_le_balance leagueId
    simp only [hc, bind, Except.bind] at h
    match ht : d.usdc.transfer e.token d.self sender amount with
    | .error r =>
      simp only [ht, requireOk, Except.error.injEq, Revert.token.injEq] at h
      subst h
      have hlacks := husdc.transfer_lacks ht
      omega
    | .ok (false, token) => simp [ht, requireOk] at h
    | .ok (true, token) =>
      simp only [ht, requireOk] at h
      cases h

/-- A payout that passes the contract's checks does not lack the money. -/
theorem Solvent.distributePayout_balance (hs : Solvent d e) (husdc : d.usdc.Honest)
    {sender : Address} {leagueId : Bytes32} {recipients : List Address} {amounts : List UInt256} :
    Escrow.distributePayout d e sender leagueId recipients amounts ≠
      .error (.token .insufficientBalance) := by
  intro h
  unfold Escrow.distributePayout at h
  cases howner : onlyOwner d sender with
  | error r =>
    simp only [howner, bind, Except.bind, Except.error.injEq] at h
    subst h
    unfold onlyOwner at howner
    split at howner <;> cases howner
  | ok u =>
    cases hc : e.storage.distributePayout leagueId recipients amounts with
    | error r =>
      simp only [howner, hc, bind, Except.bind, Except.error.injEq] at h
      exact Storage.distributePayout_ne_token hc h
    | ok storage =>
      obtain ⟨hlen, hle, -⟩ := Storage.distributePayout_pools hc (distributed e.events)
      have hbalance := hs.total_le_balance leagueId
      simp only [howner, hc, bind, Except.bind] at h
      refine payRecipients_balance husdc ?_ h
      rw [map_zip_amounts hlen]
      simp only
      omega

/-- **Escrow ledger and solvency.** In every reachable state the payments are what came in
without what was taken back, the totals are the payments without what was distributed, the
balance covers all totals, no league has paid out more than came in for it, and neither a
refund nor a payout fails for lack of balance. -/
theorem reachable_solvency (husdc : d.usdc.Honest) (h : Reachable d e) :
    (∀ l m, (e.storage.payments l m).val + tookBack e.events l m = paidIn e.events l m) ∧
    (∀ l, (e.storage.leagueTotals l).val + distributed e.events l =
      ∑ m, (e.storage.payments l m).val) ∧
    ∑ l, (e.storage.leagueTotals l).val ≤ d.usdc.balanceOf e.token d.self ∧
    (∀ l, ∑ m, tookBack e.events l m + distributed e.events l ≤ ∑ m, paidIn e.events l m) ∧
    (∀ sender l, claimRefund d e sender l ≠ .error (.token .insufficientBalance)) ∧
    ∀ sender l recipients amounts, distributePayout d e sender l recipients amounts ≠
      .error (.token .insufficientBalance) := by
  have hs := h.solvent husdc
  have hbalanced : ∀ l, (e.storage.leagueTotals l).val + distributed e.events l =
      ∑ m, (e.storage.payments l m).val := hs.balanced
  refine ⟨hs.ledger, hbalanced, hs.covered, fun l => ?_,
    fun _ _ => hs.claimRefund_balance husdc, fun _ _ _ _ => hs.distributePayout_balance husdc⟩
  have hsum : ∑ m, (e.storage.payments l m).val + ∑ m, tookBack e.events l m =
      ∑ m, paidIn e.events l m := by
    rw [← Finset.sum_add_distrib]
    exact Finset.sum_congr rfl fun m _ => hs.ledger l m
  have hl := hbalanced l
  omega

/-- A successful call leads to a reachable state. -/
theorem Reachable.call (h : Reachable d e) (sender : Address) (c : EscrowCall)
    (hsender : sender ≠ d.self)
    (husdc : ∀ amount answer, c ≠ .emergencyWithdraw d.usdcAddress amount answer)
    (hexec : e.exec d sender c = .ok e') : Reachable d e' := by
  obtain ⟨rc, token, e₀, hdeploy, hrun⟩ := h
  exact ⟨rc, token, e₀, hdeploy, hrun.tail (.call hsender husdc hexec)⟩

/-- A deployment with `MockUSDC`. -/
def mockDeployment : Deployment MockUSDC := ⟨MockUSDC.erc20, 0x6c, 0x1, 0xe5⟩

/-- The token when one member holds 50 units. -/
def mockToken : MockUSDC where
  balanceOf := Pi.single 0x7 50
  allowance := fun _ _ => 50
  totalSupply := 50
  supply := by
    rw [Finset.sum_pi_single']
    simp

/-- A short run: one member pays 40 units, then all of it is distributed to somebody else. -/
theorem mock_run : ∃ paid paidOut : Escrow MockUSDC,
    Reachable mockDeployment paid ∧ Reachable mockDeployment paidOut ∧
      paid.storage.payments 0xaa 0x7 = 40 ∧ distributed paid.events 0xaa = 0 ∧
      paidOut.storage.payments 0xaa 0x7 = 40 ∧ paidOut.storage.leagueTotals 0xaa = 0 ∧
      distributed paidOut.events 0xaa = 40 ∧
      claimRefund mockDeployment paidOut 0x7 0xaa = .error .panic := by
  have hdeploy : ∃ e, deploy 22 mockToken = .ok e ∧ Reachable mockDeployment e :=
    ⟨_, rfl, 22, mockToken, _, rfl, .refl⟩
  obtain ⟨e₀, he₀, h₀⟩ := hdeploy
  cases he₀
  have h₁ := h₀.call 0x7 (.payEntryFee 0xaa 40) (by decide) (by simp) rfl
  have h₂ := h₁.call 0x1 (.distributePayout 0xaa [0x9] [40]) (by decide) (by simp) rfl
  exact ⟨_, _, h₁, h₂, by decide, by decide, by decide, by decide, by decide, rfl⟩

/-- `reachable_solvency` after the short run. -/
theorem mock_run_solvency : ∃ e : Escrow MockUSDC, Reachable mockDeployment e ∧
    distributed e.events 0xaa = 40 ∧
      ∑ l, (e.storage.leagueTotals l).val ≤ mockDeployment.usdc.balanceOf e.token 0xe5 ∧
      (∀ l, ∑ m, tookBack e.events l m + distributed e.events l ≤ ∑ m, paidIn e.events l m) ∧
      ∀ sender l, claimRefund mockDeployment e sender l ≠
        .error (.token .insufficientBalance) := by
  obtain ⟨_, e, -, h, -, -, -, -, hout, -⟩ := mock_run
  obtain ⟨-, -, hcovered, hleague, hrefund, -⟩ := reachable_solvency MockUSDC.erc20_honest h
  exact ⟨e, h, hout, hcovered, hleague, hrefund⟩

end Escrow

end Wagr
