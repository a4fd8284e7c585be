import Mathlib.Algebra.Order.Ring.Int
import Mathlib.Data.Int.Order.Basic

/-!
# Integers as binary floating-point numbers

A double has 53 significant bits, so an integer is rounded to the nearest one of them, and to
the even one of two that are equally near. Integers of at most 53 bits are not changed.
-/

namespace Binary64

/-- `m` rounded to a multiple of `2 ^ k`, ties to the even multiple. -/
def roundAt (k m : ℕ) : ℕ :=
  let q := m / 2 ^ k
  let r := m % 2 ^ k
  if 2 ^ k < 2 * r ∨ (2 * r = 2 ^ k ∧ q % 2 = 1) then (q + 1) * 2 ^ k else q * 2 ^ k

/-- The double nearest to an integer. -/
def round (n : ℤ) : ℤ := n.sign * roundAt (n.natAbs.log2 + 1 - 53) n.natAbs

/-- The integer is a double. -/
def Exact (n : ℤ) : Prop := round n = n

instance : DecidablePred Exact := fun n => inferInstanceAs (Decidable (round n = n))

/-- Numbers without a part below the unit are not rounded. -/
theorem roundAt_zero (m : ℕ) : roundAt 0 m = m := by
  simp [roundAt, Nat.mod_one]

/-- Integers of at most 53 bits are doubles. -/
theorem exact_of_lt {n : ℤ} (h : n.natAbs < 2 ^ 53) : Exact n := by
  have hbits : n.natAbs.log2 + 1 - 53 = 0 := by
    by_cases hzero : n.natAbs = 0
    · simp [hzero]
    · have hlog := (Nat.log2_lt hzero).mpr h
      omega
  unfold Exact round
  rw [hbits, roundAt_zero, Int.sign_mul_natAbs]

@[simp] theorem round_zero : round 0 = 0 := exact_of_lt (by decide)

/-- Rounding a number of more than 53 bits leaves at least 53 bits. -/
theorem le_roundAt {m : ℕ} (h : 2 ^ 53 ≤ m) : 2 ^ 53 ≤ roundAt (m.log2 + 1 - 53) m := by
  have hlog : 53 ≤ m.log2 := (Nat.le_log2 (by omega)).mpr h
  obtain ⟨k, hk⟩ : ∃ k, m.log2 = 52 + k := ⟨m.log2 - 52, by omega⟩
  have hkpos : 1 ≤ k := by omega
  have hself : 2 ^ (52 + k) ≤ m := hk ▸ Nat.log2_self_le (by omega)
  have hquotient : 2 ^ 52 ≤ m / 2 ^ k := by
    rw [Nat.le_div_iff_mul_le (Nat.two_pow_pos k), ← pow_add]
    exact hself
  have hunit : 2 ≤ 2 ^ k := by
    calc 2 = 2 ^ 1 := rfl
      _ ≤ 2 ^ k := Nat.pow_le_pow_right (by decide) hkpos
  have hproduct : 2 ^ 52 * 2 ≤ m / 2 ^ k * 2 ^ k := Nat.mul_le_mul hquotient hunit
  have hshift : 52 + k + 1 - 53 = k := by omega
  rw [hk, hshift, roundAt]
  split_ifs
  · rw [Nat.add_mul]
    omega
  · omega

/-- What is rounded to an integer of at most 53 bits is that integer. -/
theorem eq_of_round_eq {m n : ℤ} (h : round m = n) (hn : n.natAbs < 2 ^ 53) : m = n := by
  by_cases hm : m.natAbs < 2 ^ 53
  · exact (exact_of_lt hm).symm.trans h
  · exfalso
    have hle := le_roundAt (Nat.le_of_not_lt hm)
    have hne : m ≠ 0 := by
      rintro rfl
      simp at hm
    have habs : n.natAbs = roundAt (m.natAbs.log2 + 1 - 53) m.natAbs := by
      rw [← h, round, Int.natAbs_mul, Int.natAbs_sign_of_ne_zero hne, Nat.one_mul,
        Int.natAbs_natCast]
    omega

/-- Fifty-three bits and zeros after them make a double. -/
theorem exact_mul_two_pow {q k : ℕ} (h : q ≤ 2 ^ 53) : Exact ((q * 2 ^ k : ℕ) : ℤ) := by
  obtain ⟨m, hm⟩ : ∃ m, m = q * 2 ^ k := ⟨_, rfl⟩
  rw [← hm]
  by_cases hzero : m = 0
  · subst hzero
    exact round_zero
  obtain ⟨j, hj⟩ : ∃ j, j = m.log2 + 1 - 53 := ⟨_, rfl⟩
  have hdvd : 2 ^ j ∣ m := by
    by_cases hle : j ≤ k
    · exact hm ▸ (Nat.pow_dvd_pow 2 hle).mul_left q
    · -- only the largest quotient needs one more bit
      have hlog : 52 + j ≤ m.log2 := by omega
      have hlarge : 2 ^ (52 + j) ≤ m := (Nat.le_log2 hzero).mp hlog
      have hsmall : m ≤ 2 ^ 53 * 2 ^ k := hm ▸ Nat.mul_le_mul_right _ h
      have hexp : 52 + j ≤ 53 + k := by
        rw [← pow_add] at hsmall
        exact (Nat.pow_le_pow_iff_right (by decide)).mp (hlarge.trans hsmall)
      have hnext : j = k + 1 := by omega
      have heq : m = 2 ^ (53 + k) := by
        have hbound : 2 ^ (52 + j) = 2 ^ (53 + k) := by
          congr 1
          omega
        rw [← pow_add] at hsmall
        omega
      rw [heq, hnext]
      exact Nat.pow_dvd_pow 2 (by omega)
  obtain ⟨c, hc⟩ := hdvd
  have hround : roundAt j m = m := by
    unfold roundAt
    have hrem : m % 2 ^ j = 0 := by
      rw [hc]
      exact Nat.mul_mod_right _ _
    have hpos : 0 < 2 ^ j := Nat.two_pow_pos j
    rw [hrem, if_neg (by omega)]
    exact Nat.div_mul_cancel ⟨c, hc⟩
  unfold Exact round
  rw [Int.natAbs_natCast, ← hj, hround, Int.sign_natCast_of_ne_zero hzero, Int.one_mul]

/-- Rounding is symmetric. -/
theorem round_neg (n : ℤ) : round (-n) = -round n := by
  unfold round
  rw [Int.natAbs_neg, Int.sign_neg, Int.neg_mul]

/-- Rounding gives a double. -/
theorem exact_round (n : ℤ) : Exact (round n) := by
  by_cases hsmall : n.natAbs < 2 ^ 53
  · have hexact : Exact n := exact_of_lt hsmall
    unfold Exact at hexact ⊢
    rw [hexact, hexact]
  obtain ⟨m, hm⟩ : ∃ m, m = n.natAbs := ⟨_, rfl⟩
  have hlog : 53 ≤ m.log2 := (Nat.le_log2 (by omega)).mpr (by omega)
  obtain ⟨k, hk⟩ : ∃ k, m.log2 = 52 + k := ⟨m.log2 - 52, by omega⟩
  have hquotient : m / 2 ^ k < 2 ^ 53 := by
    rw [Nat.div_lt_iff_lt_mul (Nat.two_pow_pos k), ← pow_add]
    have hlt : m < 2 ^ (m.log2 + 1) := Nat.lt_log2_self
    rwa [hk, show 52 + k + 1 = 53 + k by omega] at hlt
  have hdouble : Exact ((roundAt k m : ℕ) : ℤ) := by
    unfold roundAt
    dsimp only
    split_ifs
    · exact exact_mul_two_pow hquotient
    · exact exact_mul_two_pow hquotient.le
  have hround : round n = n.sign * roundAt k m := by
    unfold round
    rw [← hm, hk, show 52 + k + 1 - 53 = k by omega]
  rw [hround]
  have hne : n ≠ 0 := by
    rintro rfl
    simp at hsmall
  rcases lt_or_gt_of_ne hne with hneg | hpos
  · rw [Int.sign_eq_neg_one_of_neg hneg, Int.neg_mul, Int.one_mul]
    unfold Exact at hdouble ⊢
    rw [round_neg, hdouble]
  · rwa [Int.sign_eq_one_of_pos hpos, Int.one_mul]

/-- Only zero is rounded to zero. -/
theorem round_ne_zero {n : ℤ} (h : n ≠ 0) : round n ≠ 0 := fun hzero =>
  h (eq_of_round_eq hzero (by decide))

/-! ## Decimal digits -/

/-- `n` rounded to a multiple of `10 ^ k`, ties to the even multiple. -/
def toMultiple (n : ℤ) (k : ℕ) : ℤ :=
  let unit := 10 ^ k
  let q := n.natAbs / unit
  let r := n.natAbs % unit
  n.sign * ((if unit < 2 * r ∨ (2 * r = unit ∧ q % 2 = 1) then q + 1 else q) * unit : ℕ)

/-- The digits of a double without fraction: as few of them as tell it from all other doubles, then
zeros. Doubles from `10 ^ 21` on are written with an exponent, but they have the same value. -/
def digits (n : ℤ) : ℤ :=
  (((List.range 309).reverse.map (toMultiple n)).find? fun m => round m = n).getD n

/-- The digits of a double are read as the double. -/
theorem round_digits {n : ℤ} (h : Exact n) : round (digits n) = n := by
  unfold digits
  cases hfind : ((List.range 309).reverse.map (toMultiple n)).find? fun m => round m = n with
  | none => exact h
  | some m => simpa using List.find?_some hfind

/-- All digits of an integer of at most 53 bits are written. -/
theorem digits_of_lt {n : ℤ} (h : n.natAbs < 2 ^ 53) : digits n = n :=
  eq_of_round_eq (round_digits (exact_of_lt h)) h

/-- The first integer that is no double. -/
example : round (2 ^ 53 + 1) = 2 ^ 53 := by decide

/-- Seventeen digits are enough for the double next to `2 ^ 63`. -/
example : digits (2 ^ 63) = 9223372036854776000 := by decide +kernel

end Binary64
