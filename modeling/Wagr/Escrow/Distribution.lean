import Wagr.Escrow.Solvency

/-!
# What a payout does

The sum loop of `distributePayout` fails by an overflow only, and its transfer loop cannot fail
where the contract is solvent: the balance covers every sum that passed the check. So a call has
its whole effect or none, and the conditions for it can be read off the arguments.
-/

namespace Wagr

namespace Storage

variable {s : Storage} {leagueId : Bytes32} {recipients : List Address} {amounts : List UInt256}

/-- A checked addition succeeds exactly when the sum is a `uint256`. -/
theorem exists_checkedAdd {a b : UInt256} :
    (∃ c, checkedAdd a b = .ok c) ↔ a.val + b.val < 2 ^ 256 := by
  unfold checkedAdd
  constructor
  · rintro ⟨c, hc⟩
    split at hc
    · assumption
    · cases hc
  · intro h
    exact ⟨_, dif_pos h⟩

/-- The loop over the amounts succeeds exactly when the whole sum is a `uint256`: the partial sums
are smaller. -/
theorem exists_foldlM_checkedAdd {start : UInt256} :
    (∃ total, amounts.foldlM checkedAdd start = .ok total) ↔
      start.val + (amounts.map Fin.val).sum < 2 ^ 256 := by
  induction amounts generalizing start with
  | nil =>
    simp [pure, Except.pure]
  | cons a amounts ih =>
    rw [List.foldlM_cons, List.map_cons, List.sum_cons]
    cases hadd : checkedAdd start a with
    | error r =>
      have hover : ¬ start.val + a.val < 2 ^ 256 := by
        intro hlt
        obtain ⟨c, hc⟩ := exists_checkedAdd.mpr hlt
        rw [hadd] at hc
        cases hc
      constructor
      · rintro ⟨total, htotal⟩
        cases htotal
      · intro hlt
        omega
    | ok next =>
      have hnext := checkedAdd_ok hadd
      have hrest := @ih next
      rw [hnext] at hrest
      rw [← Nat.add_assoc]
      exact hrest

/-- The contract's own checks of a payout. -/
theorem exists_distributePayout :
    (∃ s', s.distributePayout leagueId recipients amounts = .ok s') ↔
      recipients.length = amounts.length ∧ (amounts.map Fin.val).sum < 2 ^ 256 ∧
        (amounts.map Fin.val).sum ≤ (s.leagueTotals leagueId).val := by
  constructor
  · rintro ⟨s', h⟩
    obtain ⟨hlen, hle, -⟩ := distributePayout_pools h fun _ => 0
    have htotal := (s.leagueTotals leagueId).isLt
    exact ⟨hlen, by omega, hle⟩
  · rintro ⟨hlen, hlt, hle⟩
    have hzero : (0 : UInt256).val + (amounts.map Fin.val).sum < 2 ^ 256 := by simpa using hlt
    obtain ⟨total, htotal⟩ := exists_foldlM_checkedAdd.mpr hzero
    have hsum : total.val = (amounts.map Fin.val).sum := sumAmounts_ok htotal
    have hcovered : ¬ s.leagueTotals leagueId < total := by
      intro hless
      have hval : (s.leagueTotals leagueId).val < total.val := hless
      omega
    obtain ⟨left, hleft⟩ := checkedSub_of_le (a := s.leagueTotals leagueId) (b := total) (by omega)
    refine ⟨s.setTotal leagueId left, ?_⟩
    have htotal : sumAmounts amounts = .ok total := htotal
    unfold distributePayout
    simp only [hlen, ne_eq, not_true, if_false, htotal, bind, Except.bind, if_neg hcovered, hleft,
      pure, Except.pure]

end Storage

namespace Escrow

variable {T : Type} {d : Deployment T} {e e' : Escrow T} {leagueId : Bytes32}
  {payments : List (Address × UInt256)}

/-- What an address gets from the transfers of a payout, at all of its positions. -/
def received (payments : List (Address × UInt256)) (x : Address) : ℕ :=
  (payments.map fun p => if p.1 = x then p.2.val else 0).sum

/-- The chain after a call: a call that reverts leaves no trace. -/
def afterCall (e : Escrow T) : Except Revert (Escrow T) → Escrow T
  | .ok e' => e'
  | .error _ => e

/-- The transfer loop gives every other address what it gets at its positions. -/
theorem payRecipients_received (husdc : d.usdc.Honest)
    (h : payRecipients d leagueId e payments = .ok e') {x : Address} (hx : x ≠ d.self) :
    d.usdc.balanceOf e'.token x = d.usdc.balanceOf e.token x + received payments x := by
  induction payments generalizing e with
  | nil =>
    cases h
    simp [received]
  | cons p payments ih =>
    obtain ⟨recipient, amount⟩ := p
    unfold payRecipients at h
    cases htoken : requireOk "payout transfer failed"
        (d.usdc.transfer e.token d.self recipient amount) with
    | error r => simp [htoken, bind, Except.bind] at h
    | ok token =>
      simp only [htoken, bind, Except.bind] at h
      have hmoved := (husdc.transfer_moves (requireOk_ok htoken)).2 x
      rw [if_neg hx] at hmoved
      have hrest := ih h
      have hcons : received ((recipient, amount) :: payments) x =
          (if x = recipient then amount.val else 0) + received payments x := by
        simp [received, eq_comm]
      simp only at hrest
      omega

/-- The transfer loop succeeds where the balance covers its sum. -/
theorem exists_payRecipients (husdc : d.usdc.Honest) (hlive : d.usdc.Live)
    (hle : (payments.map fun p => p.2.val).sum ≤ d.usdc.balanceOf e.token d.self) :
    ∃ e', payRecipients d leagueId e payments = .ok e' := by
  induction payments generalizing e with
  | nil => exact ⟨e, rfl⟩
  | cons p payments ih =>
    obtain ⟨recipient, amount⟩ := p
    rw [List.map_cons, List.sum_cons] at hle
    simp only at hle
    obtain ⟨token, htoken⟩ := hlive e.token d.self recipient amount (by omega)
    have hpayer := (husdc.transfer_moves htoken).payer
    unfold payRecipients
    simp only [htoken, requireOk, bind, Except.bind]
    refine ih ?_
    simp only
    omega

/-- The owner passes the modifier, and nobody else. -/
theorem onlyOwner_eq_ok {sender : Address} : onlyOwner d sender = .ok () ↔ sender = d.owner := by
  unfold onlyOwner
  split_ifs with howner
  · simp [howner]
  · simp [howner]

/-- A payout succeeds exactly when the owner sends it and the contract's checks pass. -/
theorem Solvent.exists_distributePayout (hs : Solvent d e) (husdc : d.usdc.Honest)
    (hlive : d.usdc.Live) {sender : Address} {recipients : List Address} {amounts : List UInt256} :
    (∃ e', Escrow.distributePayout d e sender leagueId recipients amounts = .ok e') ↔
      sender = d.owner ∧ recipients.length = amounts.length ∧
        (amounts.map Fin.val).sum < 2 ^ 256 ∧
        (amounts.map Fin.val).sum ≤ (e.storage.leagueTotals leagueId).val := by
  constructor
  · rintro ⟨e', h⟩
    obtain ⟨storage, hstorage, -⟩ := distributePayout_ok h
    refine ⟨?_, Storage.exists_distributePayout.mp ⟨storage, hstorage⟩⟩
    unfold Escrow.distributePayout at h
    cases howner : onlyOwner d sender with
    | error r => simp [howner, bind, Except.bind] at h
    | ok u => exact onlyOwner_eq_ok.mp howner
  · rintro ⟨howner, hchecks⟩
    obtain ⟨storage, hstorage⟩ := Storage.exists_distributePayout.mpr hchecks
    have hbalance := hs.total_le_balance leagueId
    have hsum := congrArg List.sum (map_zip_amounts hchecks.1)
    obtain ⟨e', he'⟩ : ∃ e', payRecipients d leagueId { e with storage := storage }
        (recipients.zip amounts) = .ok e' :=
      exists_payRecipients husdc hlive (by simp only; omega)
    refine ⟨e', ?_⟩
    unfold Escrow.distributePayout
    simp only [onlyOwner_eq_ok.mpr howner, hstorage, bind, Except.bind, he']

/-- What the transfers of a successful payout leave. -/
structure Distributes (d : Deployment T) (leagueId : Bytes32) (recipients : List Address)
    (amounts : List UInt256) (e e' : Escrow T) : Prop where
  /-- The league's total falls by the sum. -/
  total : (e'.storage.leagueTotals leagueId).val + (amounts.map Fin.val).sum =
    (e.storage.leagueTotals leagueId).val
  /-- Every other address gains what it gets at its positions. -/
  gains : ∀ x, x ≠ d.self → d.usdc.balanceOf e'.token x =
    d.usdc.balanceOf e.token x + received (recipients.zip amounts) x
  /-- No payment changes. -/
  payments : e'.storage.payments = e.storage.payments
  /-- No other total changes. -/
  totals : ∀ l, l ≠ leagueId → e'.storage.leagueTotals l = e.storage.leagueTotals l

/-- A successful payout has its whole effect. -/
theorem distributes_of_ok (husdc : d.usdc.Honest) {sender : Address} {recipients : List Address}
    {amounts : List UInt256}
    (h : distributePayout d e sender leagueId recipients amounts = .ok e') :
    Distributes d leagueId recipients amounts e e' := by
  obtain ⟨storage, hstorage, hloop⟩ := distributePayout_ok h
  obtain ⟨-, hle, hpools⟩ := Storage.distributePayout_pools hstorage fun _ => 0
  obtain ⟨hsame, -⟩ := payRecipients_ok husdc hloop
  simp only at hsame
  have hshare := congrArg Accounting.Pools.share hpools
  have htotal := congrArg Accounting.Pools.total hpools
  simp only [Storage.pools, Accounting.Pools.payOut] at hshare htotal
  refine ⟨?_, fun x hx => payRecipients_received husdc hloop hx, ?_, fun l hl => ?_⟩
  · have hleague := congrFun htotal leagueId
    rw [Function.update_self] at hleague
    rw [hsame]
    omega
  · rw [hsame]
    funext l m
    exact Fin.ext (congrFun (congrFun hshare l) m)
  · have hother := congrFun htotal l
    rw [Function.update_of_ne hl] at hother
    rw [hsame]
    exact Fin.ext hother

/-- **A payout is atomic and exact.** In every reachable state a call succeeds exactly when the
owner sends it with as many recipients as amounts, whose sum is a `uint256` and at most the
league's total. Then it has its whole effect, and otherwise nothing changes. -/
theorem reachable_distributePayout (husdc : d.usdc.Honest) (hlive : d.usdc.Live)
    (h : Reachable d e) (sender : Address) (leagueId : Bytes32) (recipients : List Address)
    (amounts : List UInt256) :
    let result := distributePayout d e sender leagueId recipients amounts
    ((∃ e', result = .ok e') ↔ sender = d.owner ∧ recipients.length = amounts.length ∧
      (amounts.map Fin.val).sum ≤ 2 ^ 256 - 1 ∧
      (amounts.map Fin.val).sum ≤ (e.storage.leagueTotals leagueId).val) ∧
    ((∃ e', result = .ok e') → Distributes d leagueId recipients amounts e (e.afterCall result)) ∧
    ((¬ ∃ e', result = .ok e') → e.afterCall result = e) := by
  have hs := h.solvent husdc
  refine ⟨?_, ?_, ?_⟩
  · rw [hs.exists_distributePayout husdc hlive]
    refine and_congr_right fun _ => and_congr_right fun _ => and_congr_left fun _ => ?_
    omega
  · rintro ⟨e', he'⟩
    have hdistributes := distributes_of_ok husdc he'
    rw [he']
    exact hdistributes
  · intro hnot
    cases hresult : distributePayout d e sender leagueId recipients amounts with
    | ok e' => exact absurd ⟨e', hresult⟩ hnot
    | error r => rfl

/-- `reachable_distributePayout` after one entry of 40 units: the same recipient is paid twice, and
once nothing. -/
theorem mock_distributes : ∃ e : Escrow MockUSDC, Reachable mockDeployment e ∧
    (∃ e', distributePayout mockDeployment e 0x1 0xaa [0x9, 0x8, 0x9] [10, 0, 20] = .ok e') ∧
      Distributes mockDeployment 0xaa [0x9, 0x8, 0x9] [10, 0, 20] e
        (e.afterCall (distributePayout mockDeployment e 0x1 0xaa [0x9, 0x8, 0x9] [10, 0, 20])) := by
  obtain ⟨e₀, he₀, h₀⟩ : ∃ e, deploy 22 mockToken = .ok e ∧ Reachable mockDeployment e :=
    ⟨_, rfl, 22, mockToken, _, rfl, .refl⟩
  cases he₀
  have h₁ := h₀.call 0x7 (.payEntryFee 0xaa 40) (by decide) (by simp) rfl
  obtain ⟨hiff, heffect, -⟩ := reachable_distributePayout MockUSDC.erc20_honest
    MockUSDC.erc20_live h₁ 0x1 0xaa [0x9, 0x8, 0x9] [10, 0, 20]
  have hok := hiff.mpr ⟨rfl, rfl, by decide, by decide⟩
  exact ⟨_, h₁, hok, heffect hok⟩

end Escrow

end Wagr
