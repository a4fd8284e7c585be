import Wagr.Basic
import Mathlib.Data.List.ReduceOption

/-!
# The keys of the web client

`HederaStrategy` sends the league's key with its contract calls. It makes the 32 bytes from the
ID with JavaScript's string functions, which work on UTF-16 code units.
-/

namespace Wagr

namespace HederaStrategy

/-- The UTF-16 code units of a character. -/
def charUnits (c : Char) : List ℕ :=
  if c.toNat < 0x10000 then [c.toNat]
  else [0xd800 + (c.toNat - 0x10000) / 0x400, 0xdc00 + (c.toNat - 0x10000) % 0x400]

/-- A string as JavaScript sees it. -/
def codeUnits (s : String) : List ℕ := s.toList.flatMap charUnits

/-- `text.padEnd(length, '0')`. -/
def padEnd (length : ℕ) (text : List ℕ) : List ℕ :=
  text ++ List.replicate (length - text.length) 0x30

/-- `text.substring(start, stop)` for `start ≤ stop`. -/
def substring (text : List ℕ) (start stop : ℕ) : List ℕ := (text.drop start).take (stop - start)

/-- The white space and line ends that `parseInt` skips. -/
def isStrWhiteSpace (u : ℕ) : Bool :=
  (u ∈ [0x09, 0x0a, 0x0b, 0x0c, 0x0d, 0x20, 0xa0, 0x1680, 0x2028, 0x2029, 0x202f, 0x205f, 0x3000,
    0xfeff]) || (0x2000 ≤ u && u ≤ 0x200a)

/-- The value of a code unit that is a hexadecimal digit. -/
def hexUnit (u : ℕ) : Option ℕ := if u < 128 then Bytes.hexDigit (Char.ofNat u) else none

/-- `parseInt(text, 16)`, `none` for `NaN`: leading space, a sign, `0x`, then the longest run of
digits; what follows them is ignored. -/
def parseInt16 (text : List ℕ) : Option ℤ :=
  let trimmed := text.dropWhile isStrWhiteSpace
  let sign : ℤ := if trimmed.head? = some 0x2d then -1 else 1
  let unsigned := if trimmed.head? = some 0x2d ∨ trimmed.head? = some 0x2b then trimmed.drop 1
    else trimmed
  let digits := if unsigned.take 2 = [0x30, 0x78] ∨ unsigned.take 2 = [0x30, 0x58]
    then unsigned.drop 2 else unsigned
  let values := ((digits.map hexUnit).takeWhile Option.isSome).reduceOption
  if values = [] then none else some (sign * (values.foldl (fun n d => 16 * n + d) 0 : ℕ))

/-- The value a `Uint8Array` stores. -/
def toUint8 : Option ℤ → BitVec 8
  | none => 0
  | some n => BitVec.ofInt 8 n

/-- The bytes that both contract calls make from a league ID. -/
def leagueIdBytes32 (leagueId : String) : List (BitVec 8) :=
  let leagueIdHex := padEnd 64 ((codeUnits leagueId).filter (· ≠ 0x2d))
  (List.range 32).map fun i => toUint8 (parseInt16 (substring leagueIdHex (i * 2) (i * 2 + 2)))

/-- The key `payEntryFeeUSDC` sends. -/
def payEntryFeeUSDCKey (leagueId : String) : List (BitVec 8) := leagueIdBytes32 leagueId

/-- The key `claimRefund` sends. -/
def claimRefundKey (leagueId : String) : List (BitVec 8) := leagueIdBytes32 leagueId

/-! ## Reading digits -/

/-- Two digits are read as one number. -/
theorem parseInt16_pair {a b : Char} {high low : ℕ} (ha : Bytes.hexDigit a = some high)
    (hb : Bytes.hexDigit b = some low) :
    toUint8 (parseInt16 [a.toNat, b.toNat]) = BitVec.ofNat 8 (16 * high + low) := by
  have hunit : ∀ {c : Char} {d : ℕ}, Bytes.hexDigit c = some d → hexUnit c.toNat = some d := by
    intro c d hc
    obtain ⟨-, hascii, -⟩ := Bytes.hexDigit_cases hc
    rw [hexUnit, if_pos hascii, Char.ofNat_toNat, hc]
  have hrange := Bytes.hexDigit_range ha
  have hspace : isStrWhiteSpace a.toNat = false := by
    simp only [isStrWhiteSpace, List.mem_cons, List.not_mem_nil, or_false, Bool.or_eq_false_iff,
      decide_eq_false_iff_not, Bool.and_eq_false_iff]
    omega
  have hlast := Bytes.hexDigit_range hb
  have hsign : ¬ a.toNat = 0x2d ∧ ¬ a.toNat = 0x2b := by omega
  have hx : ¬ b.toNat = 0x78 ∧ ¬ b.toNat = 0x58 := by omega
  have hnumber : parseInt16 [a.toNat, b.toNat] = some ((16 * high + low : ℕ) : ℤ) := by
    simp [parseInt16, hspace, hsign, hx, hunit ha, hunit hb, List.reduceOption_cons_of_some]
  rw [hnumber]
  exact BitVec.ofInt_natCast 8 (16 * high + low)

end HederaStrategy

end Wagr
