import Wagr.Database.EventEffects
import Wagr.Database.MemberEffects

/-!
# What the columns of a row say of each other

The checks of the migrations, and what the statements keep beyond them: a payout or a payment on
record is recorded in all of its columns or in none. Some checks hold only because the service
looks at its arguments before it runs the statement.
-/

namespace Wagr

open Relational

variable {now : ℕ} {fresh : String} {db db' : Database} {s : Statement}

/-- The service checks these arguments before it runs the statement. -/
def Statement.Checked : Statement → Prop
  | .setPaymentToken _ _ token => token = "hbar" ∨ token = "usdc"
  | .upsertNonce _ walletType _ => walletType = "hedera"
  | .updateSettings _ entryFeeCents _ => ¬ entryFeeCents < 0
  | _ => True

/-! ## Leagues -/

/-- The fee is not negative, and exactly the executed leagues have a time of execution, also those
that were settled without a transaction. -/
structure LeagueRow.Valid (r : LeagueRow) : Prop where
  entryFee : ¬ r.entryFeeCents < 0
  executedAt : r.payoutsExecutedAt ≠ none ↔ r.payoutStatus = .executed
  txHash : r.payoutTxHash ≠ none → r.payoutStatus = .executed

/-- A new league is valid. -/
theorem LeagueValues.row_valid (league : LeagueValues) (now : ℕ) (id : String) :
    (league.row now id).Valid := by
  refine ⟨?_, ?_, ?_⟩ <;> simp [row]

/-- Checked statements keep leagues valid. -/
theorem Statement.LeagueStep.valid {r r' : LeagueRow} (h : s.LeagueStep now db r r')
    (hs : s.Checked) (hr : r.Valid) : r'.Valid := by
  rcases h with rfl | h
  · exact hr
  · cases s with
    | importLeague =>
      obtain ⟨rfl, -⟩ := h
      exact ⟨hr.entryFee, hr.executedAt, hr.txHash⟩
    | updateSettings =>
      obtain ⟨-, rfl⟩ := h
      exact ⟨hs, hr.executedAt, hr.txHash⟩
    | cancelLeague | reactivateLeague | updateLeagueStatus =>
      obtain ⟨-, -, rfl⟩ := h
      exact ⟨hr.entryFee, hr.executedAt, hr.txHash⟩
    | markSettledWithoutPayout | markPayoutExecuted =>
      obtain ⟨-, -, rfl⟩ := h
      exact ⟨hr.entryFee, by simp, fun _ => rfl⟩
    | claimPayout | markPayoutFailed =>
      obtain ⟨-, hstatus, rfl⟩ := h
      have hnot : r.payoutStatus ≠ .executed := by simp [hstatus]
      have hnone : r.payoutsExecutedAt = none := not_not.mp fun h => hnot (hr.executedAt.mp h)
      exact ⟨hr.entryFee, by simp [hnone], fun h => absurd (hr.txHash h) hnot⟩
    | _ => exact h.elim

/-- A league keeps the platform league it was imported from. -/
theorem Statement.LeagueStep.platformLeague {r r' : LeagueRow} (h : s.LeagueStep now db r r') :
    (r'.platform, r'.platformLeagueID) = (r.platform, r.platformLeagueID) := by
  rcases h with rfl | h
  · rfl
  · cases s with
    | importLeague =>
      obtain ⟨rfl, -⟩ := h
      rfl
    | updateSettings =>
      obtain ⟨-, rfl⟩ := h
      rfl
    | cancelLeague | reactivateLeague | markSettledWithoutPayout | claimPayout | markPayoutFailed
    | markPayoutExecuted | updateLeagueStatus =>
      obtain ⟨-, -, rfl⟩ := h
      rfl
    | _ => exact h.elim

/-! ## Memberships -/

/-- The token is one of the two; exactly the unpaid members have no transaction, and paid ones have
a time; a payout is recorded with its rank, its amount and its time. -/
structure MemberRow.Valid (m : MemberRow) : Prop where
  token : m.paymentToken = none ∨ m.paymentToken = some "hbar" ∨ m.paymentToken = some "usdc"
  unpaid : m.paymentStatus = .unpaid ↔ m.transactionHash = none
  paidAt : m.paymentStatus = .paid → m.paidAt ≠ none
  payout : m.payoutTxHash = none ∧ m.finalRank = none ∧ m.payoutAmountCents = none ∧
      m.payoutPaidAt = none ∨
    m.payoutTxHash ≠ none ∧ m.finalRank ≠ none ∧ m.payoutAmountCents ≠ none ∧
      m.payoutPaidAt ≠ none

/-- A new membership is valid. -/
theorem MemberValues.row_valid (v : MemberValues) (id : String) (createdAt : ℕ)
    (leagueID platform : String) : (v.row id createdAt leagueID platform).Valid :=
  ⟨.inl rfl, iff_of_true rfl rfl, fun h => PaymentStatus.noConfusion h, .inl ⟨rfl, rfl, rfl, rfl⟩⟩

/-- An import keeps a membership valid. -/
theorem MemberValues.refresh_valid (v : MemberValues) {m : MemberRow} (h : m.Valid) :
    (v.refresh m).Valid :=
  ⟨h.token, h.unpaid, h.paidAt, h.payout⟩

/-- Checked statements keep memberships valid. -/
theorem Statement.MemberStep.valid {m m' : MemberRow} (h : s.MemberStep now db m m')
    (hs : s.Checked) (hm : m.Valid) : m'.Valid := by
  rcases h with rfl | h
  · exact hm
  · cases s with
    | importLeague =>
      obtain ⟨v, -, rfl⟩ := h
      exact v.refresh_valid hm
    | setPaymentToken =>
      obtain ⟨-, rfl⟩ := h
      exact ⟨.inr (hs.imp (congrArg some) (congrArg some)), hm.unpaid, hm.paidAt, hm.payout⟩
    | markPaid =>
      obtain ⟨-, rfl⟩ := h
      exact ⟨hm.token, by simp, by simp, hm.payout⟩
    | markRefunded =>
      obtain ⟨-, rfl⟩ := h
      exact ⟨hm.token, by simp, by simp, hm.payout⟩
    | resetRefunded =>
      obtain ⟨-, -, rfl⟩ := h
      exact ⟨hm.token, by simp, by simp, hm.payout⟩
    | recordMemberPayout =>
      obtain ⟨-, -, rfl⟩ := h
      exact ⟨hm.token, hm.unpaid, hm.paidAt, .inr (by simp)⟩
    | _ => exact h.elim

/-! ## Weekly events -/

/-- The payout type is one of the two, and exactly the executed events have a transaction. -/
structure WeeklyEventRow.Valid (e : WeeklyEventRow) : Prop where
  payoutType : e.payoutType ∈ weeklyPayoutTypes
  executed : e.executedAt ≠ none ↔ e.txHash ≠ none

/-- Statements keep events valid. -/
theorem Statement.EventStep.valid {e e' : WeeklyEventRow} (h : s.EventStep now e e')
    (he : e.Valid) : e'.Valid := by
  rcases h with rfl | ⟨txHash, -, rfl⟩
  · exact he
  · exact ⟨he.payoutType, by simp⟩

/-- A new event is valid. -/
theorem Statement.InsertsEvent.valid {e : WeeklyEventRow} (h : s.InsertsEvent fresh db e) :
    e.Valid := by
  obtain ⟨-, htype, hhash, hexecuted, -⟩ := h
  exact ⟨htype, by simp [hhash, hexecuted]⟩

/-! ## Users -/

/-- The users after a checked statement all have a Hedera wallet. -/
theorem Statement.run_walletType {r : s.Result} (h : s.run now fresh db = some (r, db'))
    (hs : s.Checked) (husers : ∀ u ∈ db.users.rows, u.walletType = "hedera") :
    ∀ u ∈ db'.users.rows, u.walletType = "hedera" := by
  cases s with
  | upsertNonce walletAddress walletType nonce =>
    have hhedera : walletType = "hedera" := hs
    subst hhedera
    simp only [run] at h
    split at h
    · cases h
      intro u hu
      obtain ⟨u₀, hu₀, rfl⟩ := List.mem_map.mp hu
      split
      · rfl
      · exact husers u₀ hu₀
    · split at h
      · cases h
      · cases h
        intro u hu
        rcases List.mem_append.mp hu with hu | hu
        · exact husers u hu
        · obtain rfl := List.mem_singleton.mp hu
          rfl
  | rotateNonce userID nonce =>
    cases h
    intro u hu
    obtain ⟨u₀, hu₀, rfl⟩ := List.mem_map.mp hu
    split <;> exact husers u₀ hu₀
  | _ =>
    rcases run_users h with ⟨hrows, -⟩ | ⟨nonce, walletType, hstored, -⟩ |
      ⟨walletAddress, walletType, nonce, heq, -⟩
    · rw [hrows]
      exact husers
    · cases hstored
    · cases heq

end Wagr
