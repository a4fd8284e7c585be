import Wagr.Payments.Confirmation
import Wagr.Escrow.Ledger
import Wagr.Service.Rows

/-!
# Runs without withdrawals

Nothing is taken out of the escrow, the mirror node reports the payments as they are, and the
entry fee of a league stays as it is once a payment for it is being confirmed. Then the
contract's total of a league is the sum of its payments, which only grow.
-/

namespace Wagr

open Interaction System Accounting

variable {svc : Service} {crypto : Crypto} {a b : BackendConfig} {l : BackendLabel}
  {ok : BackendConfig → BackendLabel → Prop}

/-- No refund is claimed and no payout succeeds. -/
def KeepsFunds : BackendLabel → Prop
  | .env (.claimRefund _ _) => False
  | .env (.settle _ true) => False
  | _ => True

/-- The mirror node answers a read of `payments` with the word of the value. -/
def ReadsTruthfully (a : BackendConfig) : BackendLabel → Prop
  | .call _ (.contractCall _ (.payments key address)) (.ok result) =>
    ∃ word ∈ Bytes.decodeHex (trimHexPrefix result.toList), word.length = 32 ∧
      Bytes.bigEndian word = (a.world.storage.payments key address).val
  | _ => True

/-- The league a request confirms a payment for. -/
def Request.confirms : Request → Option String
  | .confirmPayment leagueID _ _ => some leagueID
  | _ => none

/-- The statement leaves the entry fee of a league with confirmations as it is. -/
def Statement.KeepsFees (a : BackendConfig) : Statement → Prop
  | .updateSettings leagueID entryFeeCents _ =>
    (∃ t ∈ a.threads, t.job.confirms = some leagueID) → ∀ r ∈ a.world.db.leagues.rows,
      r.id = leagueID → r.entryFeeCents = entryFeeCents
  | _ => True

instance (l : BackendLabel) : Decidable (KeepsFunds l) := by
  unfold KeepsFunds
  split <;> infer_instance

instance (a : BackendConfig) (l : BackendLabel) : Decidable (ReadsTruthfully a l) := by
  unfold ReadsTruthfully
  split <;> infer_instance

instance (a : BackendConfig) (s : Statement) : Decidable (s.KeepsFees a) := by
  rcases s with _ | _ <;> unfold Statement.KeepsFees <;> infer_instance

/-- A step of a run without withdrawals, with truthful reads and fixed fees. -/
structure PaymentsOnly (a : BackendConfig) (l : BackendLabel) : Prop where
  funds : KeepsFunds l
  reads : ReadsTruthfully a l
  fees : ∀ s ∈ applied a l, s.KeepsFees a

/-- What a step does to the escrow: nothing, a payment, a refund or a payout. -/
theorem step_storage (hstep : (backend svc crypto).Step a l b) :
    b.world.storage = a.world.storage ∨
    (∃ sender leagueId amount,
      a.world.storage.payEntryFee sender leagueId amount = .ok b.world.storage) ∨
    (∃ sender leagueId amount, l = .env (.claimRefund sender leagueId) ∧
      a.world.storage.claimRefund sender leagueId = .ok (amount, b.world.storage)) ∨
    ∃ k leagueId recipients amounts, l = .env (.settle k true) ∧
      a.world.storage.distributePayout leagueId recipients amounts = .ok b.world.storage := by
  cases hstep with
  | spawn j => exact .inl rfl
  | stop ht => exact .inl rfl
  | call ht hrest hrun hw =>
    rcases World.handles_cases hw with ⟨s, r', -, now, fresh, db, -, -, rfl⟩ | ⟨s, e, -, rfl⟩ |
      ⟨purpose, leagueID, recipients, amounts, -, rfl⟩ | ⟨nonce, -, -, rfl⟩ | ⟨-, rfl⟩
    all_goals exact .inl rfl
  | @env e w hw =>
    change a.world.act e = some w at hw
    cases e with
    | land k now fresh =>
      obtain ⟨s, r, db, -, -, -, rfl⟩ := World.land_eq hw
      exact .inl rfl
    | settle k succeeds =>
      obtain ⟨s, -, -, ⟨storage, rfl, hpayout, rfl⟩ | ⟨-, rfl⟩⟩ := World.settle_eq hw
      · exact .inr (.inr (.inr ⟨k, _, _, _, rfl, hpayout⟩))
      · exact .inl rfl
    | payEntryFee member leagueId amount =>
      simp only [World.act] at hw
      split at hw
      · rename_i storage hpay
        cases hw
        exact .inr (.inl ⟨member, leagueId, amount, hpay⟩)
      · cases hw
    | claimRefund member leagueId =>
      simp only [World.act] at hw
      split at hw
      · rename_i amount storage hrefund
        cases hw
        exact .inr (.inr (.inl ⟨member, leagueId, amount, rfl, hrefund⟩))
      · cases hw

/-- A payment is lowered only by its member's refund. -/
theorem step_payments (hstep : (backend svc crypto).Step a l b) {key : Bytes32} {address : Address}
    (hrefund : l ≠ .env (.claimRefund address key)) :
    (a.world.storage.payments key address).val ≤ (b.world.storage.payments key address).val := by
  rcases step_storage hstep with heq | ⟨sender, leagueId, amount, hpay⟩ |
    ⟨sender, leagueId, amount, rfl, hclaim⟩ | ⟨k, leagueId, recipients, amounts, -, hpayout⟩
  · rw [heq]
  · have hshare := congrArg (fun s => s.share key address)
      (Storage.payEntryFee_pools hpay fun _ => 0)
    exact Pools.share_le_deposit.trans_eq hshare.symm
  · obtain ⟨-, -, hpools⟩ := Storage.claimRefund_pools hclaim fun _ => 0
    have hshare := congrArg (fun s => s.share key address) hpools
    have hne : ¬ (leagueId = key ∧ sender = address) := by
      rintro ⟨rfl, rfl⟩
      exact hrefund rfl
    exact ((Pools.share_reclaim_of_ne hne).symm.trans hshare.symm).le
  · obtain ⟨-, -, hpools⟩ := Storage.distributePayout_pools hpayout fun _ => 0
    exact (congrArg (fun s => s.share key address) hpools).symm.le

/-- The fee of a league with confirmations is fixed. -/
theorem PaymentsOnly.fee (hok : PaymentsOnly a l) (hstep : (backend svc crypto).Step a l b)
    {leagueID : String} (hissued : leagueID ∈ a.world.issued)
    (hconfirms : ∃ t ∈ a.threads, t.job.confirms = some leagueID) {r' : LeagueRow}
    (hr' : r' ∈ b.world.db.leagues.rows) (hid : r'.id = leagueID) :
    ∃ r ∈ a.world.db.leagues.rows, r.id = leagueID ∧ r'.entryFeeCents = r.entryFeeCents := by
  rcases step_row hstep hr' with
    ⟨r, hr, rfl | ⟨now, s, hs, hleague⟩⟩ | ⟨league, now, fresh, rfl, hfresh, -⟩
  · exact ⟨r', hr, hid, rfl⟩
  · have hid' : r.id = leagueID := hleague.id.symm.trans hid
    rcases hleague.entryFee with hfee | ⟨leagueID', fee, payoutJSON, rfl, rfl, hfee⟩
    · exact ⟨r, hr, hid', hfee⟩
    · have hkeeps := hok.fees _ hs (hid' ▸ hconfirms) r hr rfl
      exact ⟨r, hr, hid', hfee.trans hkeeps.symm⟩
  · obtain rfl : fresh = leagueID := hid
    exact absurd hissued hfresh

/-- The total of each league is the sum of its payments. -/
def Deposited (w : World) : Prop := (w.storage.pools fun _ => 0).Balanced

/-- Without withdrawals the totals stay the sums of the payments. -/
theorem Deposited.step (h : Deposited a.world) (hstep : (backend svc crypto).Step a l b)
    (hfunds : KeepsFunds l) : Deposited b.world := by
  unfold Deposited
  rcases step_storage hstep with heq | ⟨sender, leagueId, amount, hpay⟩ |
    ⟨sender, leagueId, amount, rfl, -⟩ | ⟨k, leagueId, recipients, amounts, rfl, -⟩
  · rwa [heq]
  · rw [Storage.payEntryFee_pools hpay]
    exact h.deposit
  · exact hfunds.elim
  · exact hfunds.elim

/-- A 64-bit word read as a signed number is at most the number. -/
theorem toInt_ofNat_le (n : ℕ) : (UInt64.ofNat n).toInt64.toInt ≤ n := by
  have hmod : n % 2 ^ 64 ≤ n := Nat.mod_le n _
  change (BitVec.ofNat 64 n).toInt ≤ n
  rw [BitVec.toInt_eq_toNat_cond, BitVec.toNat_ofNat]
  split <;> omega

/-- A payment that is read is not more than the value the mirror node reports. -/
theorem decodePayment_le {result : String} {paid : Int64} {word : List (BitVec 8)}
    (h : decodePayment result = .ok paid)
    (hword : Bytes.decodeHex (trimHexPrefix result.toList) = some word)
    (hlength : word.length = 32) :
    paid.toInt ≤ Bytes.bigEndian word := by
  rw [decodePayment_word hword hlength] at h
  obtain rfl := Except.ok.inj h
  exact toInt_ofNat_le _

end Wagr
