import Wagr.Service.Calldata
import Wagr.Escrow.Ledger
import Mathlib.Algebra.BigOperators.Ring.List

/-!
# Amounts on both sides

The oracle multiplies and adds amounts as `int64`, and sends them as words. The contract adds the
words. Both get the same numbers as long as no amount is negative and the total fits into an
`int64`.
-/

namespace Wagr

variable {cents amounts : List Int64}

/-- The word of an amount is the amount modulo `2 ^ 64`. -/
theorem abiWord_emod (amount : Int64) : ((abiWord amount).val : ℤ) = amount.toInt % 2 ^ 64 := by
  have hword : (abiWord amount).val = amount.toBitVec.toNat := rfl
  have hlt : amount.toBitVec.toNat < 2 ^ 64 := amount.toBitVec.isLt
  have hint : amount.toInt = amount.toBitVec.toInt := rfl
  rw [hword, hint, BitVec.toInt_eq_toNat_cond]
  split <;> omega

/-- A word below `2 ^ 63` is the amount itself. -/
theorem toInt_eq_abiWord {amount : Int64} (h : (abiWord amount).val < 2 ^ 63) :
    amount.toInt = (abiWord amount).val := by
  have hword : (abiWord amount).val = amount.toBitVec.toNat := rfl
  have hint : amount.toInt = amount.toBitVec.toInt := rfl
  rw [hword] at h ⊢
  rw [hint, BitVec.toInt_eq_toNat_cond, if_pos (by omega)]

/-- The word of an amount in cents. -/
theorem abiWord_toMicroUSDC (c : Int64) :
    ((abiWord (toMicroUSDC c)).val : ℤ) = 10000 * c.toInt % 2 ^ 64 := by
  have hmul : (toMicroUSDC c).toInt = (c.toInt * 10000).bmod (2 ^ 64) := Int64.toInt_mul c 10000
  rw [abiWord_emod, hmul, mul_comm]
  exact Int.bmod_emod

/-- The word of a non-negative amount is at most the amount in micro-USDC. -/
theorem abiWord_toMicroUSDC_le {c : Int64} (h : 0 ≤ c.toInt) :
    ((abiWord (toMicroUSDC c)).val : ℤ) ≤ 10000 * c.toInt := by
  rw [abiWord_toMicroUSDC]
  omega

/-- The words of non-negative amounts sum to at most the sum in micro-USDC. -/
theorem sum_words_le {α : Type} {items : List α} {cents : α → Int64}
    (h : ∀ x ∈ items, 0 ≤ (cents x).toInt) :
    (items.map fun x => ((abiWord (toMicroUSDC (cents x))).val : ℤ)).sum ≤
      10000 * (items.map fun x => (cents x).toInt).sum := by
  rw [← List.sum_map_mul_left]
  exact List.sum_le_sum fun x hx => abiWord_toMicroUSDC_le (h x hx)

/-- The word of the sum is the sum of the words modulo `2 ^ 64`. -/
theorem abiWord_sumPayout (amounts : List Int64) :
    ((abiWord (sumPayout amounts)).val : ℤ) =
      (amounts.map fun a => ((abiWord a).val : ℤ)).sum % 2 ^ 64 := by
  have hstart : ∀ start : Int64, ((abiWord (amounts.foldl (· + ·) start)).val : ℤ) =
      (start.toInt + (amounts.map fun a => ((abiWord a).val : ℤ)).sum) % 2 ^ 64 := by
    induction amounts with
    | nil =>
      intro start
      simp [abiWord_emod]
    | cons a amounts ih =>
      intro start
      have hadd : (start + a).toInt = (start.toInt + a.toInt).bmod (2 ^ 64) := Int64.toInt_add _ _
      rw [List.foldl_cons, ih, hadd, List.map_cons, List.sum_cons, abiWord_emod a]
      have hmod : (start.toInt + a.toInt).bmod (2 ^ 64) % (2 ^ 64 : ℤ) =
        (start.toInt + a.toInt) % 2 ^ 64 := Int.bmod_emod
      omega
  have hzero : (0 : Int64).toInt = 0 := rfl
  have hsum := hstart 0
  rw [hzero, zero_add] at hsum
  exact hsum

/-- No amount is negative and the total fits into an `int64` of micro-USDC. -/
structure FitsInt64 (cents : List Int64) : Prop where
  nonneg : ∀ c ∈ cents, 0 ≤ c.toInt
  total : 10000 * (cents.map Int64.toInt).sum < 2 ^ 63

/-- What the contract reads from the call data are the amounts in micro-USDC, they sum to the
oracle's total, and the league holds as much. -/
structure SameAmounts (keccak256 : List (BitVec 8) → Bytes32) (data : List (BitVec 8)) (s : Storage)
    (leagueID : Bytes32) (recipients : List Address) (cents : List Int64) : Prop where
  decoded : ∃ words,
    decodeDistributePayoutCall keccak256 data = some (leagueID, recipients, words) ∧
    words.map (fun w => (w.val : ℤ)) = cents.map (fun c => 10000 * c.toInt) ∧
    ∃ total, Storage.sumAmounts words = .ok total ∧
      (total.val : ℤ) = (sumPayout (cents.map toMicroUSDC)).toInt ∧ total ≤ s.leagueTotals leagueID

/-- The contract's sum does not overflow below `2 ^ 256`. -/
theorem exists_sumAmounts {words : List UInt256} (h : (words.map Fin.val).sum < 2 ^ 256) :
    ∃ total, Storage.sumAmounts words = .ok total := by
  have hstart : ∀ start : UInt256, start.val + (words.map Fin.val).sum < 2 ^ 256 →
      ∃ total, words.foldlM checkedAdd start = .ok total := by
    clear h
    induction words with
    | nil => exact fun start _ => ⟨start, rfl⟩
    | cons w words ih =>
      intro start hsum
      rw [List.map_cons, List.sum_cons] at hsum
      have hadd : checkedAdd start w = .ok ⟨start.val + w.val, by omega⟩ := dif_pos (by omega)
      obtain ⟨total, htotal⟩ := ih ⟨start.val + w.val, by omega⟩ (by simp only; omega)
      exact ⟨total, by rw [List.foldlM_cons, hadd]; exact htotal⟩
  exact hstart 0 (by simpa using h)

/-- The sum of the words as the contract computes it. -/
theorem sum_words (words : List UInt256) :
    (words.map fun w => (w.val : ℤ)).sum = ((words.map Fin.val).sum : ℕ) := by
  induction words with
  | nil => rfl
  | cons w words ih => simp [ih]

/-- An amount of a fitting list is not more than the total. -/
theorem FitsInt64.le (h : FitsInt64 cents) {c : Int64} (hc : c ∈ cents) :
    c.toInt ≤ (cents.map Int64.toInt).sum := by
  refine List.single_le_sum ?_ _ (List.mem_map_of_mem hc)
  rintro n hn
  obtain ⟨c, hc, rfl⟩ := List.mem_map.mp hn
  exact h.nonneg c hc

/-- The words of a fitting list are its amounts. -/
theorem FitsInt64.words (h : FitsInt64 cents) :
    (cents.map fun c => ((abiWord (toMicroUSDC c)).val : ℤ)) =
      cents.map fun c => 10000 * c.toInt := by
  refine List.map_congr_left fun c hc => ?_
  have hnonneg := h.nonneg c hc
  have hle := h.le hc
  have htotal := h.total
  rw [abiWord_toMicroUSDC]
  omega

/-- The oracle's total of a fitting list is exact. -/
theorem FitsInt64.sumPayout (h : FitsInt64 cents) :
    (sumPayout (cents.map toMicroUSDC)).toInt = 10000 * (cents.map Int64.toInt).sum := by
  have htotal := h.total
  have hnonneg : 0 ≤ (cents.map Int64.toInt).sum := by
    refine List.sum_nonneg fun n hn => ?_
    obtain ⟨c, hc, rfl⟩ := List.mem_map.mp hn
    exact h.nonneg c hc
  have hword : ((abiWord (Wagr.sumPayout (cents.map toMicroUSDC))).val : ℤ) =
      10000 * (cents.map Int64.toInt).sum := by
    rw [abiWord_sumPayout, List.map_map]
    change (cents.map fun c => ((abiWord (toMicroUSDC c)).val : ℤ)).sum % 2 ^ 64 = _
    rw [h.words, List.sum_map_mul_left]
    omega
  rw [toInt_eq_abiWord (by omega), hword]

section

variable {keccak256 : List (BitVec 8) → Bytes32} {data : List (BitVec 8)} {s : Storage}
  {leagueID : Bytes32} {recipients : List Address}

/-- If the oracle's check has passed, the contract's amounts and its check agree with it iff the
amounts fit. -/
theorem sameAmounts_iff
    (hdata : encodeDistributePayoutCall keccak256 leagueID recipients (cents.map toMicroUSDC) =
      .ok data) (hlength : recipients.length = cents.length) {balance : Int64}
    (hcheck : ¬ sumPayout (cents.map toMicroUSDC) > balance)
    (hbalance : balance.toInt = (s.leagueTotals leagueID).val) :
    SameAmounts keccak256 data s leagueID recipients cents ↔ FitsInt64 cents := by
  have hdecode := decode_encodeDistributePayoutCall hdata (by simpa using hlength)
  have hcovered : (sumPayout (cents.map toMicroUSDC)).toInt ≤ (s.leagueTotals leagueID).val := by
    have hle : ¬ balance.toInt < (sumPayout (cents.map toMicroUSDC)).toInt :=
      fun hlt => hcheck (Int64.lt_iff_toInt_lt.mpr hlt)
    omega
  have hwords : ((cents.map toMicroUSDC).map abiWord).map (fun w => (w.val : ℤ)) =
      cents.map fun c => ((abiWord (toMicroUSDC c)).val : ℤ) := by
    simp [Function.comp_def]
  constructor
  · rintro ⟨words, hdecoded, hexact, total, htotal, hsum, -⟩
    obtain rfl : (cents.map toMicroUSDC).map abiWord = words := by
      simpa using hdecode.symm.trans hdecoded
    have hmax := Int64.toInt_lt (sumPayout (cents.map toMicroUSDC))
    have hval := Storage.sumAmounts_ok htotal
    have hints := sum_words ((cents.map toMicroUSDC).map abiWord)
    refine ⟨fun c hc => ?_, ?_⟩
    · have hmem : 10000 * c.toInt ∈ cents.map fun c => 10000 * c.toInt := List.mem_map_of_mem hc
      rw [← hexact] at hmem
      obtain ⟨w, -, hw⟩ := List.mem_map.mp hmem
      omega
    · rw [hexact, List.sum_map_mul_left] at hints
      omega
  · intro hfits
    have hints := sum_words ((cents.map toMicroUSDC).map abiWord)
    rw [hwords, hfits.words, List.sum_map_mul_left] at hints
    have hbound := hfits.total
    have hsmall : (((cents.map toMicroUSDC).map abiWord).map Fin.val).sum < 2 ^ 256 := by omega
    obtain ⟨total, htotal⟩ := exists_sumAmounts hsmall
    have hval := Storage.sumAmounts_ok htotal
    have hsum : (total.val : ℤ) = (sumPayout (cents.map toMicroUSDC)).toInt := by
      rw [hfits.sumPayout]
      omega
    refine ⟨_, hdecode, hwords.trans hfits.words, total, htotal, hsum, ?_⟩
    rw [Fin.le_def]
    omega

end

end Wagr
