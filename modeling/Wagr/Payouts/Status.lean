import Wagr.Service.Rows

/-!
# The payout status of a league

A league starts `pending`, and every statement moves its payout status forward or leaves it
alone. A new row has an ID that was never used before, so the status of a league that was
ever claimed does not start over.
-/

namespace Wagr

open Interaction Relational

/-- The possible changes of `payout_status`. -/
inductive PayoutStatus.Moves : PayoutStatus → PayoutStatus → Prop
  | claim : Moves .pending .executing
  | settle : Moves .pending .executed
  | finish : Moves .executing .executed
  | fail : Moves .executing .failed

/-- No change leads back to `pending`. -/
theorem PayoutStatus.Moves.ne_pending {s s' : PayoutStatus} (h : s.Moves s') : s' ≠ .pending := by
  cases h <;> decide

/-- The payout columns of a row under a statement. -/
theorem Statement.LeagueStep.payout {now : ℕ} {db : Database} {s : Statement} {l l' : LeagueRow}
    (h : s.LeagueStep now db l l') :
    l'.id = l.id ∧ (l'.payoutStatus = l.payoutStatus ∨ l.payoutStatus.Moves l'.payoutStatus) ∧
      (l'.payoutTxHash = l.payoutTxHash ∨
        ∃ txHash, s = .markPayoutExecuted l.id txHash ∧ l'.payoutTxHash = some txHash) ∧
      (l'.payoutStatus = .failed → l.payoutStatus = .failed ∨ s = .markPayoutFailed l.id) := by
  rcases h with rfl | h
  · exact ⟨rfl, .inl rfl, .inl rfl, .inl⟩
  · cases s with
    | importLeague league members =>
      obtain ⟨rfl, -⟩ := h
      exact ⟨rfl, .inl rfl, .inl rfl, .inl⟩
    | updateSettings leagueID fee payoutJSON =>
      obtain ⟨-, rfl⟩ := h
      exact ⟨rfl, .inl rfl, .inl rfl, .inl⟩
    | cancelLeague leagueID | reactivateLeague leagueID | updateLeagueStatus leagueID =>
      obtain ⟨-, -, rfl⟩ := h
      exact ⟨rfl, .inl rfl, .inl rfl, .inl⟩
    | markSettledWithoutPayout leagueID =>
      obtain ⟨-, hpending, rfl⟩ := h
      exact ⟨rfl, .inr (hpending ▸ .settle), .inl rfl, by simp⟩
    | claimPayout leagueID =>
      obtain ⟨-, hpending, rfl⟩ := h
      exact ⟨rfl, .inr (hpending ▸ .claim), .inl rfl, by simp⟩
    | markPayoutFailed leagueID =>
      obtain ⟨rfl, hexecuting, rfl⟩ := h
      exact ⟨rfl, .inr (hexecuting ▸ .fail), .inl rfl, fun _ => .inr rfl⟩
    | markPayoutExecuted leagueID txHash =>
      obtain ⟨rfl, hexecuting, rfl⟩ := h
      exact ⟨rfl, .inr (hexecuting ▸ .finish), .inr ⟨txHash, rfl, rfl⟩, by simp⟩
    | _ => exact h.elim

variable {svc : Service} {crypto : Crypto} {a b : BackendConfig} {l : BackendLabel}
  {leagueID : String}

/-- A claim that affects a row finds the league pending, and none leaves it so. -/
theorem claimPayout_run {now : ℕ} {fresh : String} {db db' : Database} {rowsAffected : ℕ}
    (h : (Statement.claimPayout leagueID).run now fresh db = some (rowsAffected, db')) :
    (0 < rowsAffected → ∃ r ∈ db.leagues.rows, r.id = leagueID ∧ r.payoutStatus = .pending) ∧
      ∀ r ∈ db'.leagues.rows, r.id = leagueID → r.payoutStatus ≠ .pending := by
  cases h
  constructor
  · intro hpos
    obtain ⟨r, hr, hp⟩ := Table.count_pos.mp hpos
    exact ⟨r, hr, by simpa using hp⟩
  · intro r' hr' hid
    simp only [Table.mem_updateWhere] at hr'
    obtain ⟨r, hr, rfl⟩ := hr'
    split
    · simp
    · rename_i hnot
      intro hpending
      rw [if_neg hnot] at hid
      simp [hid, hpending] at hnot

/-- How a step changes the payout columns of a league. -/
structure RowMoves (a : BackendConfig) (l : BackendLabel) (r r' : LeagueRow) : Prop where
  id : r'.id = r.id
  status : r'.payoutStatus = r.payoutStatus ∨ r.payoutStatus.Moves r'.payoutStatus
  txHash : r'.payoutTxHash = r.payoutTxHash ∨
    ∃ txHash, applied a l = some (.markPayoutExecuted r.id txHash) ∧
      r'.payoutTxHash = some txHash
  failed : r'.payoutStatus = .failed → r.payoutStatus = .failed ∨
    applied a l = some (.markPayoutFailed r.id)

/-- The row counts as unpaid. -/
def LeagueRow.Unpaid (r : LeagueRow) : Prop :=
  r.payoutStatus = .pending ∨ r.payoutStatus = .failed

/-- An unpaid row was unpaid before or has just been marked failed. -/
theorem RowMoves.unpaid {r r' : LeagueRow} (h : RowMoves a l r r') (hunpaid : r'.Unpaid) :
    r.Unpaid ∨ applied a l = some (.markPayoutFailed r.id) ∧ r.payoutStatus = .executing := by
  rcases h.status with heq | hmove
  · exact .inl (by unfold LeagueRow.Unpaid at hunpaid ⊢; rwa [heq] at hunpaid)
  · rcases hunpaid with hpending | hfailed
    · exact absurd hpending hmove.ne_pending
    · rcases h.failed hfailed with hfailed₀ | happlied
      · exact .inl (.inr hfailed₀)
      · rw [hfailed] at hmove
        generalize r.payoutStatus = status at hmove
        cases hmove
        exact .inr ⟨happlied, rfl⟩

/-- A row after a step belongs to a league that was there, or it is new and pending. -/
theorem step_league (h : (backend svc crypto).Step a l b) {r' : LeagueRow}
    (hr' : r' ∈ b.world.db.leagues.rows) :
    (∃ r ∈ a.world.db.leagues.rows, RowMoves a l r r') ∨
    (r'.id ∉ a.world.issued ∧ r'.id ∈ b.world.issued ∧ r'.payoutStatus = .pending ∧
      r'.payoutTxHash = none) := by
  rcases step_row h hr' with
    ⟨r, hr, rfl | ⟨now, s, hs, hstep⟩⟩ | ⟨league, now, fresh, rfl, hnew, hold⟩
  · exact .inl ⟨r', hr, rfl, .inl rfl, .inl rfl, .inl⟩
  · obtain ⟨hid, hstatus, htxHash, hfailed⟩ := hstep.payout
    exact .inl ⟨r, hr, hid, hstatus, by simpa [hs] using htxHash, by simpa [hs] using hfailed⟩
  · exact .inr ⟨hnew, hold, rfl, rfl⟩

end Wagr
