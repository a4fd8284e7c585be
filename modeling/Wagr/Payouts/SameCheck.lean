import Wagr.Payouts.Checked
import Wagr.Payouts.MicroUSDC
import Wagr.Service.Scenario

/-!
# The oracle's check and the contract's

The oracle compares a wrapping `int64` sum with the balance of the league, the contract compares
the sum of the words it reads. For every payout that has passed the oracle's check, the contract
sees the configured amounts and passes its own check iff they fit into an `int64`.
-/

namespace Wagr

open Interaction System

variable {svc : Service} {crypto : Crypto} {keccak256 : List (BitVec 8) → Bytes32}

/-- The mirror node's result is the 32 bytes of the value. -/
def ReportsValue (result : String) (value : UInt256) : Prop :=
  ∃ word ∈ Bytes.decodeHex (trimHexPrefix result.toList), word.length = 32 ∧
    Bytes.bigEndian word = value.val

/-- A reported value below `2 ^ 63` is read exactly. -/
theorem ReportsValue.toInt {result : String} {value : UInt256} {balance : Int64}
    (h : ReportsValue result value) (hvalue : value.val < 2 ^ 63)
    (hdecode : decodePayment result = .ok balance) : balance.toInt = value.val := by
  obtain ⟨word, hword, hlength, hbytes⟩ := h
  rw [decodePayment_word hword hlength, hbytes] at hdecode
  obtain rfl := Except.ok.inj hdecode
  change (BitVec.ofNat 64 value.val).toInt = _
  rw [BitVec.toInt_eq_toNat_cond, BitVec.toNat_ofNat]
  split <;> omega

/-- Every payout transaction of every run pays configured amounts that have passed the oracle's
check. If the league's total is below `2 ^ 63` and was reported truthfully, then the contract reads
exactly 10,000 times the configured cents, with the oracle's total, and passes its own check iff no
amount is negative and the total fits into an `int64`. -/
theorem same_amounts_iff (svc : Service) (crypto : Crypto) (keccak256 : List (BitVec 8) → Bytes32)
    {a b : BackendConfig} {i : ℕ} {purpose : Purpose} {key : Bytes32} {recipients : List Address}
    {amounts : List Int64} {r : Ret (.contractExecute purpose key recipients amounts)}
    {t : BackendThread} (hrun : Runs svc crypto (fun _ _ => True) a)
    (hstep : (backend svc crypto).Step a (.call i _ r) b) (ht : a.threads[i]? = some t) :
    ∃ cents contract result balance, Configured t.trace cents purpose ∧
      amounts = cents.map toMicroUSDC ∧
      (⟨.contractCall contract (.leagueTotals key), .ok result⟩ : Sigma Ret) ∈ t.trace ∧
      decodePayment result = .ok balance ∧ ¬ sumPayout amounts > balance ∧
      ∀ data s, encodeDistributePayoutCall keccak256 key recipients amounts = .ok data →
        (s.leagueTotals key).val < 2 ^ 63 → ReportsValue result (s.leagueTotals key) →
          (SameAmounts keccak256 data s key recipients cents ↔ FitsInt64 cents) := by
  obtain ⟨cents, hchecked⟩ := hrun.checked hstep ht
  obtain ⟨contract, result, balance, hresult, hdecode, hcheck⟩ := hchecked.covered
  refine ⟨cents, contract, result, balance, hchecked.configured, hchecked.microUSDC, hresult,
    hdecode, hcheck, fun data s hdata hsmall hreports => ?_⟩
  have hamounts := hchecked.microUSDC
  subst hamounts
  exact sameAmounts_iff hdata hchecked.recipients hcheck (hreports.toInt hsmall hdecode)

/-! ## Two settlements -/

/-- The call submits a transaction of the league in the schedules to its member. -/
def Call.paysMember (amount : Int64) : Call → Prop
  | .contractExecute purpose key recipients amounts =>
    purpose = .seasonEnd Schedule.leagueID ∧ key = Schedule.leagueKey ∧ recipients = [9] ∧
      amounts = [amount]
  | _ => False

instance (amount : Int64) : DecidablePred (Call.paysMember amount) := fun c => by
  unfold Call.paysMember
  split <;> infer_instance

/-- The step submits a transaction of the league in the schedules to its member. -/
def PaysMember (amount : Int64) (a : BackendConfig) : BackendLabel → Prop
  | .call _ c _ => c.paysMember amount ∧
      (a.world.storage.leagueTotals Schedule.leagueKey).val = 1000000
  | _ => False

instance (amount : Int64) (a : BackendConfig) : DecidablePred (PaysMember amount a) := fun l => by
  unfold PaysMember
  split <;> infer_instance

/-- A placement of minus one dollar. -/
def negativePlace : PayoutEntry := { Schedule.firstPlace with amountCents := -100 }

/-- The settlement up to the transaction. -/
def settlement (rule : PayoutEntry) : Schedule :=
  Schedule.fundedLeague rule ++ Schedule.seasonEnd 4 ++ [.call 4 (.succeed 0 "f3")]

/-- A settlement reaches its transaction. -/
theorem exists_paysMember (rule : PayoutEntry) (amount : Int64)
    (h : ((settlement rule).replay .mock .mock fun _ _ => decide True).any (fun a =>
      ((backend .mock .mock).move World.respond (.call 4 (.succeed 0 "tx")) a).any fun step =>
        decide (PaysMember amount a step.1)) = true) :
    ∃ a i r b t, Runs .mock .mock (fun _ _ => True) a ∧
      (backend .mock .mock).Step a (.call i (.contractExecute (.seasonEnd Schedule.leagueID)
        Schedule.leagueKey [9] [amount]) r) b ∧ a.threads[i]? = some t ∧
      (a.world.storage.leagueTotals Schedule.leagueKey).val = 1000000 := by
  obtain ⟨a, l, b, hrun, hstep, hpays⟩ := (settlement rule).exists_step (.call 4 (.succeed 0 "tx"))
    .mock .mock (fun _ _ => True) (fun a l _ => PaysMember amount a l) h
  cases l with
  | call i c r =>
    cases c with
    | contractExecute purpose key recipients amounts =>
      obtain ⟨⟨rfl, rfl, rfl, rfl⟩, htotal⟩ := hpays
      obtain ⟨t, ht⟩ : ∃ t, a.threads[i]? = some t := by
        cases hstep with
        | call ht => exact ⟨_, ht⟩
      exact ⟨a, i, r, b, t, hrun, hstep, ht, htotal⟩
    | _ => exact hpays.1.elim
  | _ => exact hpays.elim

/-- A settlement that pays one dollar to the first place. -/
theorem same_amounts_settlement : ∃ (a b : BackendConfig) (i : ℕ)
    (r : Ret (.contractExecute (.seasonEnd Schedule.leagueID) Schedule.leagueKey [9] [1000000])),
    (backend .mock .mock).Step a (.call i _ r) b ∧
      ∃ cents result, [1000000] = cents.map toMicroUSDC ∧ ∃ data,
        encodeDistributePayoutCall (fun _ => 0) Schedule.leagueKey [9] [1000000] = .ok data ∧
          (ReportsValue result (a.world.storage.leagueTotals Schedule.leagueKey) →
            (SameAmounts (fun _ => 0) data a.world.storage Schedule.leagueKey [9] cents ↔
              FitsInt64 cents)) := by
  obtain ⟨a, i, r, b, t, hrun, hstep, ht, htotal⟩ :=
    exists_paysMember Schedule.firstPlace 1000000 (by decide)
  obtain ⟨cents, contract, result, balance, -, hamounts, -, -, -, hiff⟩ :=
    same_amounts_iff .mock .mock (fun _ => 0) hrun hstep ht
  obtain ⟨data, hdata⟩ : ∃ data, encodeDistributePayoutCall (fun _ => 0) Schedule.leagueKey [9]
      [1000000] = .ok data := exists_encodeDistributePayoutCall rfl (by decide)
  exact ⟨a, b, i, r, hstep, cents, result, hamounts, data, hdata,
    hiff data a.world.storage hdata (by omega)⟩

/-- A placement of minus one dollar passes the oracle's check, but the contract reads a word that
no league holds. -/
theorem exists_negative_payout : ∃ (a b : BackendConfig) (i : ℕ)
    (r : Ret (.contractExecute (.seasonEnd Schedule.leagueID) Schedule.leagueKey [9] [-1000000])),
    Runs .mock .mock (fun _ _ => True) a ∧ (backend .mock .mock).Step a (.call i _ r) b ∧
      (a.world.storage.leagueTotals Schedule.leagueKey).val = 1000000 ∧
      ¬ sumPayout [-1000000] > 1000000 ∧
      ∀ keccak256 data cents,
        encodeDistributePayoutCall keccak256 Schedule.leagueKey [9] [-1000000] = .ok data →
          ¬ SameAmounts keccak256 data a.world.storage Schedule.leagueKey [9] cents := by
  obtain ⟨a, i, r, b, t, hrun, hstep, ht, htotal⟩ :=
    exists_paysMember negativePlace (-1000000) (by decide)
  refine ⟨a, b, i, r, hrun, hstep, htotal, by decide, ?_⟩
  rintro keccak256 data cents hdata ⟨words, hdecoded, -, total, hsum, -, hcovered⟩
  have hdecode := decode_encodeDistributePayoutCall hdata rfl
  obtain rfl : [abiWord (-1000000)] = words := by simpa using hdecode.symm.trans hdecoded
  have hval := Storage.sumAmounts_ok hsum
  have hword : ([abiWord (-1000000)].map Fin.val).sum = 2 ^ 64 - 1000000 := by decide
  rw [Fin.le_def] at hcovered
  omega

end Wagr
