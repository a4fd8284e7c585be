import Wagr.Escrow.Callbacks
import Wagr.Escrow.Solvency
import Mathlib.Tactic.Linarith

/-!
# Re-entrant calls

`payEntryFee` credits the ledger before the tokens arrive, and the other two functions debit it
before the tokens leave. While a transfer is pending the ledger therefore differs from what has
been moved, by exactly the amount of the transfer. Every whole call, with all calls inside its
token calls, settles its own transfers, so nothing is pending when the outermost call returns.
-/

namespace Wagr

open Accounting

/-- What has come into a league. -/
def collected (moved : List Event) (leagueId : Bytes32) : ℕ :=
  (moved.map fun
    | .entryFeePaid l _ amount => if l = leagueId then amount.val else 0
    | _ => 0).sum

/-- What has been refunded from a league. -/
def refunded (moved : List Event) (leagueId : Bytes32) : ℕ :=
  (moved.map fun
    | .refundClaimed l _ amount => if l = leagueId then amount.val else 0
    | _ => 0).sum

@[simp] theorem collected_append (moved : List Event) (event : Event) (l : Bytes32) :
    collected (moved ++ [event]) l = collected moved l + collected [event] l := by
  simp [collected]

@[simp] theorem refunded_append (moved : List Event) (event : Event) (l : Bytes32) :
    refunded (moved ++ [event]) l = refunded moved l + refunded [event] l := by
  simp [refunded]

namespace Storage

variable {s s' : Storage} {sender : Address} {leagueId : Bytes32} {amount : UInt256}

/-- `payEntryFee` adds the amount to one payment and to one total. -/
theorem payEntryFee_values (h : s.payEntryFee sender leagueId amount = .ok s') :
    (∀ l m, (s'.payments l m).val =
      (s.payments l m).val + if l = leagueId ∧ m = sender then amount.val else 0) ∧
    (∀ l, (s'.leagueTotals l).val =
      (s.leagueTotals l).val + if l = leagueId then amount.val else 0) ∧
    ∑ l, (s'.leagueTotals l).val = ∑ l, (s.leagueTotals l).val + amount.val := by
  have hpools := payEntryFee_pools h fun _ => 0
  have hshare := congrArg Pools.share hpools
  have htotal := congrArg Pools.total hpools
  have hsum := Pools.sum_total_deposit (s := s.pools fun _ => 0) (p := leagueId) (m := sender)
    (a := amount.val)
  rw [← hpools] at hsum
  refine ⟨fun l m => ?_, fun l => ?_, hsum⟩
  · have hlm := congrFun (congrFun hshare l) m
    simp only [pools, Pools.deposit, Function.update_apply] at hlm
    rw [hlm]
    by_cases hl : l = leagueId
    · subst hl
      by_cases hm : m = sender <;> simp [hm]
    · simp [hl]
  · have hl := congrFun htotal l
    simp only [pools, Pools.deposit, Function.update_apply] at hl
    rw [hl]
    split
    · rename_i heq
      rw [heq]
    · rfl

/-- `claimRefund` takes the amount out of one payment and of one total. -/
theorem claimRefund_values (h : s.claimRefund sender leagueId = .ok (amount, s')) :
    (∀ l m, (s'.payments l m).val + (if l = leagueId ∧ m = sender then amount.val else 0) =
      (s.payments l m).val) ∧
    (∀ l, (s'.leagueTotals l).val + (if l = leagueId then amount.val else 0) =
      (s.leagueTotals l).val) ∧
    ∑ l, (s'.leagueTotals l).val + amount.val = ∑ l, (s.leagueTotals l).val := by
  obtain ⟨hamount, hle, hpools⟩ := claimRefund_pools h fun _ => 0
  have hshare := congrArg Pools.share hpools
  have htotal := congrArg Pools.total hpools
  have hshares : (s.payments leagueId sender).val ≤ (s.leagueTotals leagueId).val := by
    rw [← hamount]
    exact hle
  have hsum := Pools.sum_total_reclaim (s := s.pools fun _ => 0) (p := leagueId) (m := sender)
    hshares
  rw [← hpools] at hsum
  have hamount' : amount.val = (s.payments leagueId sender).val := congrArg Fin.val hamount
  refine ⟨fun l m => ?_, fun l => ?_, by rw [hamount']; exact hsum⟩
  · have hlm := congrFun (congrFun hshare l) m
    simp only [pools, Pools.reclaim, Function.update_apply] at hlm
    rw [hlm]
    by_cases hl : l = leagueId
    · subst hl
      by_cases hm : m = sender
      · subst hm
        simp [hamount']
      · simp [hm]
    · simp [hl]
  · have hl := congrFun htotal l
    simp only [pools, Pools.reclaim, Function.update_apply] at hl
    rw [hl]
    split
    · rename_i heq
      rw [heq]
      omega
    · rfl

/-- `distributePayout` takes the sum of the amounts out of one total. -/
theorem distributePayout_values {recipients : List Address} {amounts : List UInt256}
    (h : s.distributePayout leagueId recipients amounts = .ok s') :
    recipients.length = amounts.length ∧ s'.payments = s.payments ∧
    (∀ l, (s'.leagueTotals l).val + (if l = leagueId then (amounts.map Fin.val).sum else 0) =
      (s.leagueTotals l).val) ∧
    ∑ l, (s'.leagueTotals l).val + (amounts.map Fin.val).sum = ∑ l, (s.leagueTotals l).val := by
  obtain ⟨hlength, hle, hpools⟩ := distributePayout_pools h fun _ => 0
  have hshare := congrArg Pools.share hpools
  have htotal := congrArg Pools.total hpools
  have hsum := Pools.sum_total_payOut (s := s.pools fun _ => 0) (p := leagueId) hle
  rw [← hpools] at hsum
  refine ⟨hlength, ?_, fun l => ?_, hsum⟩
  · funext l m
    exact Fin.val_injective (congrFun (congrFun hshare l) m)
  · have hl := congrFun htotal l
    simp only [pools, Pools.payOut, Function.update_apply] at hl
    rw [hl]
    split
    · rename_i heq
      rw [heq]
      omega
    · rfl

end Storage

namespace Chain

variable {T : Type} {d : Deployment T} {c c' c'' : Chain T} {l : Bytes32} {m : Option Address}
  {δ δ' : ℤ}

/-- What a member's entry and refunds exceed the member's fees by. -/
def memberDrift (c : Chain T) (l : Bytes32) (m : Address) : ℤ :=
  (c.escrow.storage.payments l m).val + tookBack c.moved l m - paidIn c.moved l m

/-- What a league's total, refunds and payouts exceed its fees by. -/
def leagueDrift (c : Chain T) (l : Bytes32) : ℤ :=
  (c.escrow.storage.leagueTotals l).val + refunded c.moved l + distributed c.moved l -
    collected c.moved l

/-- What the contract holds beyond the totals of all leagues. -/
def slack (d : Deployment T) (c : Chain T) : ℤ :=
  d.usdc.balanceOf c.escrow.token d.self - (∑ l, (c.escrow.storage.leagueTotals l).val : ℕ)

/-- The ledger of a league, and of one of its members if there is one, has moved away from the
transfers by `δ`; at most so much is missing. -/
structure Drifts (d : Deployment T) (l : Bytes32) (m : Option Address) (δ : ℤ) (c c' : Chain T) :
    Prop where
  member : ∀ l' m', c'.memberDrift l' m' =
    c.memberDrift l' m' + if l' = l ∧ m = some m' then δ else 0
  league : ∀ l', c'.leagueDrift l' = c.leagueDrift l' + if l' = l then δ else 0
  cash : c.slack d ≤ c'.slack d + δ

/-- Ledger and transfers differ as before, and no more is missing. -/
def Keeps (d : Deployment T) (c c' : Chain T) : Prop := ∀ l m, Drifts d l m 0 c c'

/-- Drifts add up. -/
theorem Drifts.trans (h : Drifts d l m δ c c') (h' : Drifts d l m δ' c' c'') :
    Drifts d l m (δ + δ') c c'' := by
  refine ⟨fun l' m' => ?_, fun l' => ?_, ?_⟩
  · rw [h'.member, h.member]
    split <;> omega
  · rw [h'.league, h.league]
    split <;> omega
  · have hcash := h.cash
    have hcash' := h'.cash
    omega

/-- A drift of nothing is one for every league. -/
theorem Drifts.keeps (h : Drifts d l m δ c c') (hzero : δ = 0) : Keeps d c c' := by
  subst hzero
  intro l' m'
  exact ⟨fun k n => by simpa using h.member k n, fun k => by simpa using h.league k, h.cash⟩

theorem Keeps.refl (c : Chain T) : Keeps d c c :=
  fun _ _ => ⟨fun _ _ => by simp, fun _ => by simp, by omega⟩

theorem Keeps.trans (h : Keeps d c c') (h' : Keeps d c' c'') : Keeps d c c'' :=
  fun l m => (h l m).trans (h' l m)

/-- Emitting an event moves nothing. -/
theorem keeps_emit (event : Event) : Keeps d c (c.emit event) :=
  fun _ _ => ⟨fun _ _ => by simp [memberDrift, emit], fun _ => by simp [leagueDrift, emit],
    (add_zero (c.slack d)).ge⟩

/-- Others do not lower the escrow's balance. -/
theorem keeps_outside {token : T}
    (h : d.usdc.balanceOf c.escrow.token d.self ≤ d.usdc.balanceOf token d.self) :
    Keeps d c { c with escrow := { c.escrow with token := token } } := by
  intro l m
  refine ⟨fun _ _ => by simp [memberDrift], fun _ => by simp [leagueDrift], ?_⟩
  simp only [slack]
  omega

section Steps

variable {storage : Storage} {token : T} {sender recipient : Address} {leagueId : Bytes32}
  {amount : UInt256}

/-- A credited fee is pending. -/
theorem drifts_credit (h : c.escrow.storage.payEntryFee sender leagueId amount = .ok storage) :
    Drifts d leagueId (some sender) amount.val c (c.store storage) := by
  obtain ⟨hpayments, htotals, hsum⟩ := Storage.payEntryFee_values h
  refine ⟨fun l m => ?_, fun l => ?_, ?_⟩
  · have hlm := hpayments l m
    simp only [memberDrift, store, Option.some.injEq, eq_comm (a := sender)]
    split_ifs at hlm ⊢ <;> omega
  · have hl := htotals l
    simp only [leagueDrift, store]
    split_ifs at hl ⊢ <;> omega
  · simp only [slack, store]
    omega

/-- A fee that arrives is no longer pending. -/
theorem drifts_fee (hmoves : d.usdc.Moves c.escrow.token token sender d.self amount.val)
    (hsender : sender ≠ d.self) : Drifts d leagueId (some sender) (-amount.val) c
      (c.move token (.entryFeePaid leagueId sender amount)) := by
  have hbalance := hmoves.receiver (Ne.symm hsender)
  refine ⟨fun l m => ?_, fun l => ?_, ?_⟩
  · simp only [memberDrift, move, tookBack_append, paidIn_append, Option.some.injEq]
    by_cases hlm : leagueId = l ∧ sender = m
    · obtain ⟨rfl, rfl⟩ := hlm
      simp [tookBack, paidIn]
      omega
    · have hml : ¬ (l = leagueId ∧ sender = m) := fun h => hlm ⟨h.1.symm, h.2⟩
      simp [tookBack, paidIn, hlm, hml]
  · simp only [leagueDrift, move, refunded_append, distributed_append, collected_append]
    by_cases hl : l = leagueId
    · subst hl
      simp [refunded, distributed, collected]
      omega
    · simp [refunded, distributed, collected, hl, Ne.symm hl]
  · simp only [slack, move]
    omega

/-- A debited refund is pending. -/
theorem drifts_debit (h : c.escrow.storage.claimRefund sender leagueId = .ok (amount, storage)) :
    Drifts d leagueId (some sender) (-amount.val) c (c.store storage) := by
  obtain ⟨hpayments, htotals, hsum⟩ := Storage.claimRefund_values h
  refine ⟨fun l m => ?_, fun l => ?_, ?_⟩
  · have hlm := hpayments l m
    simp only [memberDrift, store, Option.some.injEq, eq_comm (a := sender)]
    split_ifs at hlm ⊢ <;> omega
  · have hl := htotals l
    simp only [leagueDrift, store]
    split_ifs at hl ⊢ <;> omega
  · simp only [slack, store]
    omega

/-- A refund that leaves is no longer pending. -/
theorem drifts_refund (hmoves : d.usdc.Moves c.escrow.token token d.self sender amount.val) :
    Drifts d leagueId (some sender) amount.val c
      (c.move token (.refundClaimed leagueId sender amount)) := by
  have hbalance := hmoves.payer
  refine ⟨fun l m => ?_, fun l => ?_, ?_⟩
  · simp only [memberDrift, move, tookBack_append, paidIn_append, Option.some.injEq]
    by_cases hlm : leagueId = l ∧ sender = m
    · obtain ⟨rfl, rfl⟩ := hlm
      simp [tookBack, paidIn]
      omega
    · have hml : ¬ (l = leagueId ∧ sender = m) := fun h => hlm ⟨h.1.symm, h.2⟩
      simp [tookBack, paidIn, hlm, hml]
  · simp only [leagueDrift, move, refunded_append, distributed_append, collected_append]
    by_cases hl : l = leagueId
    · subst hl
      simp [refunded, distributed, collected]
      omega
    · simp [refunded, distributed, collected, hl, Ne.symm hl]
  · simp only [slack, move]
    omega

/-- A debited payout is pending. -/
theorem drifts_debits {recipients : List Address} {amounts : List UInt256}
    (h : c.escrow.storage.distributePayout leagueId recipients amounts = .ok storage) :
    Drifts d leagueId none (-(amounts.map Fin.val).sum) c (c.store storage) := by
  obtain ⟨-, hpayments, htotals, hsum⟩ := Storage.distributePayout_values h
  refine ⟨fun l m => ?_, fun l => ?_, ?_⟩
  · simp [memberDrift, store, hpayments]
  · have hl := htotals l
    simp only [leagueDrift, store]
    split_ifs at hl ⊢ <;> omega
  · simp only [slack, store]
    omega

/-- A payment that leaves is no longer pending. -/
theorem drifts_payment (hmoves : d.usdc.Moves c.escrow.token token d.self recipient amount.val) :
    Drifts d leagueId none amount.val c
      (c.move token (.payoutDistributed leagueId recipient amount)) := by
  have hbalance := hmoves.payer
  refine ⟨fun l m => ?_, fun l => ?_, ?_⟩
  · simp [memberDrift, move, tookBack, paidIn]
  · simp only [leagueDrift, move, refunded_append, distributed_append, collected_append]
    by_cases hl : l = leagueId
    · subst hl
      simp [refunded, distributed, collected]
      omega
    · simp [refunded, distributed, collected, hl, Ne.symm hl]
  · simp only [slack, move]
    omega

end Steps

/-! ## Whole calls -/

/-- One transfer of a payout, with whatever keeps the differences inside, is the payment of its
amount. -/
theorem payOne_drifts (husdc : d.usdc.Exact) {leagueId : Bytes32}
    {before after : Chain T → Chain T} (hbefore : ∀ c, Keeps d c (before c))
    (hafter : ∀ c, Keeps d c (after c)) {recipient : Address} {amount : UInt256}
    (h : payOne d leagueId before after recipient amount c = .ok c') :
    Drifts d leagueId none amount.val c c' := by
  unfold payOne at h
  cases htoken : Escrow.requireOk "payout transfer failed"
      (d.usdc.transfer (before c).escrow.token d.self recipient amount) with
  | error r => simp [htoken, bind, Except.bind] at h
  | ok token =>
    simp only [htoken, bind, Except.bind, pure, Except.pure, Except.ok.injEq] at h
    subst h
    have hmoves := husdc.transfer_moves (Escrow.requireOk_ok htoken)
    have hpayment : Drifts d leagueId none amount.val (before c)
        ((before c).move token (.payoutDistributed leagueId recipient amount)) :=
      drifts_payment hmoves
    have hrest : Keeps d ((before c).move token (.payoutDistributed leagueId recipient amount)) _ :=
      (hafter _).trans (keeps_emit (.payoutDistributed leagueId recipient amount))
    have hall := ((hbefore c leagueId none).trans hpayment).trans (hrest leagueId none)
    rwa [zero_add, add_zero] at hall

/-- The transfers of a payout inside which nothing happens. -/
theorem payRest_drifts (husdc : d.usdc.Exact) {leagueId : Bytes32}
    {payouts : List (Address × UInt256)} (h : payRest d leagueId payouts c = .ok c') :
    Drifts d leagueId none ((payouts.map fun p => p.2.val).sum : ℕ) c c' := by
  induction payouts generalizing c with
  | nil =>
    cases h
    exact Keeps.refl _ leagueId none
  | cons p payouts ih =>
    obtain ⟨recipient, amount⟩ := p
    unfold payRest at h
    cases hone : payOne d leagueId id id recipient amount c with
    | error r => simp [hone, bind, Except.bind] at h
    | ok mid =>
      simp only [hone, bind, Except.bind] at h
      have hfirst := payOne_drifts husdc (fun c => Keeps.refl c) (fun c => Keeps.refl c) hone
      simpa using hfirst.trans (ih h)

mutual

/-- A call that returns settles its own transfers, whatever happens inside. -/
theorem execTree_keeps (husdc : d.usdc.Exact) :
    ∀ (t : CallTree T d.self) {c c' : Chain T}, execTree d t c = .ok c' → Keeps d c c'
  | .payEntryFee sender leagueId amount before after, c, c', h => by
    unfold execTree at h
    cases hstorage : c.escrow.storage.payEntryFee sender leagueId amount with
    | error r => simp [hstorage, bind, Except.bind] at h
    | ok storage =>
      simp only [hstorage, bind, Except.bind] at h
      split at h
      · cases h
      · rename_i token htoken
        cases h
        have hmoves := husdc.transferFrom_moves (Escrow.requireOk_ok htoken)
        have hcredit := drifts_credit (d := d) hstorage
        have hbefore := execForest_keeps husdc before (c.store storage) leagueId (some sender)
        have hfee := (hcredit.trans hbefore).trans (drifts_fee hmoves sender.property)
        have hsettled := hfee.keeps (by omega)
        exact hsettled.trans ((execForest_keeps husdc after _).trans (keeps_emit _))
  | .claimRefund sender leagueId before after, c, c', h => by
    unfold execTree at h
    cases hstorage : c.escrow.storage.claimRefund sender leagueId with
    | error r => simp [hstorage, bind, Except.bind] at h
    | ok result =>
      obtain ⟨amount, storage⟩ := result
      simp only [hstorage, bind, Except.bind] at h
      split at h
      · cases h
      · rename_i token htoken
        cases h
        have hmoves := husdc.transfer_moves (Escrow.requireOk_ok htoken)
        have hdebit := drifts_debit (d := d) hstorage
        have hbefore := execForest_keeps husdc before (c.store storage) leagueId (some sender)
        have hrefund := (hdebit.trans hbefore).trans (drifts_refund hmoves)
        have hsettled := hrefund.keeps (by omega)
        exact hsettled.trans ((execForest_keeps husdc after _).trans (keeps_emit _))
  | .distributePayout sender leagueId recipients amounts inside, c, c', h => by
    unfold execTree at h
    cases howner : Escrow.onlyOwner d sender with
    | error r => simp [howner, bind, Except.bind] at h
    | ok _ =>
      cases hstorage : c.escrow.storage.distributePayout leagueId recipients amounts with
      | error r => simp [howner, hstorage, bind, Except.bind] at h
      | ok storage =>
        simp only [howner, hstorage, bind, Except.bind] at h
        have hlength := (Storage.distributePayout_values hstorage).1
        have hdebit := drifts_debits (d := d) hstorage
        have hpaid := execHooks_drifts husdc inside h
        rw [Escrow.map_zip_amounts hlength] at hpaid
        exact (hdebit.trans hpaid).keeps (by omega)

/-- Whatever other parties do, what was pending stays pending and nothing else is. -/
theorem execForest_keeps (husdc : d.usdc.Exact) :
    ∀ (f : Forest T d.self) (c : Chain T), Keeps d c (execForest d f c)
  | .done, c => Keeps.refl c
  | .call t rest, c => by
    unfold execForest
    cases hcall : execTree d t c with
    | error r => exact execForest_keeps husdc rest c
    | ok c' => exact (execTree_keeps husdc t hcall).trans (execForest_keeps husdc rest c')
  | .rolledBack _ rest, c => execForest_keeps husdc rest c
  | .outside token rest, c => by
    unfold execForest
    split
    · rename_i hbalance
      exact (keeps_outside hbalance).trans (execForest_keeps husdc rest _)
    · exact execForest_keeps husdc rest c

/-- The transfer loop pays its amounts. -/
theorem execHooks_drifts (husdc : d.usdc.Exact) :
    ∀ (hooks : Hooks T d.self) {leagueId : Bytes32} {payouts : List (Address × UInt256)}
      {c c' : Chain T}, execHooks d leagueId hooks payouts c = .ok c' →
        Drifts d leagueId none ((payouts.map fun p => p.2.val).sum : ℕ) c c'
  | .done, leagueId, payouts, c, c', h => by
    simp only [execHooks] at h
    exact payRest_drifts husdc h
  | .transfer before after rest, leagueId, [], c, c', h => by
    simp only [execHooks] at h
    exact payRest_drifts husdc h
  | .transfer before after rest, leagueId, (recipient, amount) :: payouts, c, c', h => by
    unfold execHooks at h
    cases hone : payOne d leagueId (execForest d before)
      (execForest d after) recipient amount c with
    | error r => simp [hone, bind, Except.bind] at h
    | ok mid =>
      simp only [hone, bind, Except.bind] at h
      have hfirst := payOne_drifts husdc (execForest_keeps husdc before)
        (execForest_keeps husdc after) hone
      simpa using hfirst.trans (execHooks_drifts husdc rest h)

end

/-- Nothing has moved when the escrow is deployed. -/
theorem deploy_drifts {rc : Int64} {token : T} {e : Escrow T}
    (h : Escrow.deploy rc token = .ok e) :
    (∀ l m, memberDrift ⟨e, []⟩ l m = 0) ∧ (∀ l, leagueDrift ⟨e, []⟩ l = 0) ∧
      0 ≤ slack d ⟨e, []⟩ := by
  unfold Escrow.deploy at h
  split at h
  · cases h
    exact ⟨fun _ _ => by simp [memberDrift],
      fun _ => by simp [leagueDrift, refunded, distributed, collected], by simp [slack]⟩
  · cases h

/-- **Re-entrant calls.** After any outermost calls of a deployed escrow, with any calls inside
their token calls, no league has given back and paid out more than came in for it, no member has
taken back more than the member paid, and the balance covers all totals. -/
theorem reentrant_calls_covered (husdc : d.usdc.Exact) {rc : Int64} {token : T} {e : Escrow T}
    (hdeploy : Escrow.deploy rc token = .ok e) (calls : Forest T d.self) :
    (∀ l, refunded (execForest d calls ⟨e, []⟩).moved l +
        distributed (execForest d calls ⟨e, []⟩).moved l ≤
      collected (execForest d calls ⟨e, []⟩).moved l) ∧
    (∀ l m, tookBack (execForest d calls ⟨e, []⟩).moved l m ≤
      paidIn (execForest d calls ⟨e, []⟩).moved l m) ∧
    ∑ l, ((execForest d calls ⟨e, []⟩).escrow.storage.leagueTotals l).val ≤
      d.usdc.balanceOf (execForest d calls ⟨e, []⟩).escrow.token d.self := by
  obtain ⟨hmember₀, hleague₀, hcash₀⟩ := deploy_drifts (d := d) hdeploy
  have hkeeps := execForest_keeps husdc calls ⟨e, []⟩
  refine ⟨fun l => ?_, fun l m => ?_, ?_⟩
  · have hleague := (hkeeps l none).league l
    rw [hleague₀, ite_self, add_zero] at hleague
    unfold leagueDrift at hleague
    omega
  · have hmember := (hkeeps l none).member l m
    rw [hmember₀, ite_self, add_zero] at hmember
    unfold memberDrift at hmember
    omega
  · have hcash := (hkeeps 0 none).cash
    unfold slack at hcash hcash₀
    omega

/-- One member enters a second league and takes that entry back before its tokens arrive, which
the tokens of the first league pay for. -/
def mockCalls : Forest MockUSDC Escrow.mockDeployment.self :=
  let member : Outsider Escrow.mockDeployment.self := ⟨0x7, by decide⟩
  .call (.payEntryFee member 0xbb 40 .done .done)
    (.call (.payEntryFee member 0xaa 10 (.call (.claimRefund member 0xaa .done .done) .done) .done)
      .done)

/-- `reentrant_calls_covered` for the refund that is paid before its entry fee has arrived. -/
theorem mockCalls_covered : ∃ c : Chain MockUSDC,
    c.moved = [.entryFeePaid 0xbb 0x7 40, .refundClaimed 0xaa 0x7 10, .entryFeePaid 0xaa 0x7 10] ∧
      refunded c.moved 0xaa + distributed c.moved 0xaa ≤ collected c.moved 0xaa ∧
      tookBack c.moved 0xaa 0x7 ≤ paidIn c.moved 0xaa 0x7 := by
  have hdeploy : ∃ e, Escrow.deploy 22 Escrow.mockToken = .ok e := ⟨_, rfl⟩
  obtain ⟨e, he⟩ := hdeploy
  have husdc : Escrow.mockDeployment.usdc.Exact := MockUSDC.erc20_honest.exact
  obtain ⟨hleague, hmember, -⟩ := reentrant_calls_covered husdc he mockCalls
  cases he
  exact ⟨_, by decide, hleague 0xaa, hmember 0xaa 0x7⟩

end Chain

end Wagr
