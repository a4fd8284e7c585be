import Mathlib.Data.List.Induction
import Mathlib.Data.String.Basic
import Mathlib.Tactic.IntervalCases
import Mathlib.Tactic.Ring

/-!
# Hexadecimal text and big-endian numbers

Decoding of hexadecimal text into bytes, as the usual standard libraries do it (both
cases of letters, an even number of digits), the text with lower-case digits that a byte
string is written as, and the number a byte string denotes when its most significant byte
comes first.
-/

namespace Bytes

/-- The value of a hexadecimal digit. -/
def hexDigit (c : Char) : Option ℕ :=
  if '0' ≤ c ∧ c ≤ '9' then some (c.toNat - '0'.toNat)
  else if 'a' ≤ c ∧ c ≤ 'f' then some (c.toNat - 'a'.toNat + 10)
  else if 'A' ≤ c ∧ c ≤ 'F' then some (c.toNat - 'A'.toNat + 10)
  else none

/-- The bytes written as pairs of hexadecimal digits. -/
def decodeHex : List Char → Option (List (BitVec 8))
  | [] => some []
  | [_] => none
  | a :: b :: rest => do
    let high ← hexDigit a
    let low ← hexDigit b
    let bytes ← decodeHex rest
    return BitVec.ofNat 8 (16 * high + low) :: bytes

/-- Two digits make one byte. -/
theorem decodeHex_length {cs : List Char} {bytes : List (BitVec 8)}
    (h : decodeHex cs = some bytes) : cs.length = 2 * bytes.length := by
  fun_induction decodeHex cs generalizing bytes with
  | case1 =>
    cases h
    rfl
  | case2 => cases h
  | case3 a b rest ih =>
    simp only [Option.bind_eq_bind, Option.bind_eq_some_iff, Option.pure_def,
      Option.some.injEq] at h
    obtain ⟨_, _, _, _, tail, htail, rfl⟩ := h
    have hlen := ih htail
    simp only [List.length_cons]
    omega

/-! ## Writing -/

/-- The lower-case character of a hexadecimal digit. -/
def hexChar (d : ℕ) : Char :=
  if d < 10 then Char.ofNat ('0'.toNat + d) else Char.ofNat ('a'.toNat + (d - 10))

/-- A hexadecimal digit that is no upper-case letter. -/
def IsLowerHex (c : Char) : Prop := (hexDigit c).isSome ∧ ¬ ('A' ≤ c ∧ c ≤ 'F')

instance (c : Char) : Decidable (IsLowerHex c) := by
  unfold IsLowerHex
  infer_instance

/-- The two digits of each byte, high half first. -/
def encodeHex (bytes : List (BitVec 8)) : List Char :=
  bytes.flatMap fun b => [hexChar (b.toNat / 16), hexChar (b.toNat % 16)]

/-- A digit is less than 16 and written with one of the characters of its two cases. -/
theorem hexDigit_cases {c : Char} {d : ℕ} (h : hexDigit c = some d) :
    d < 16 ∧ c.toNat < 128 ∧ (hexChar d = c ∨ ('A' ≤ c ∧ c ≤ 'F')) := by
  have hvalue : ∀ n : ℕ, c.toNat = n → c = Char.ofNat n := by
    rintro n rfl
    exact (Char.ofNat_toNat c).symm
  unfold hexDigit at h
  split at h
  · rename_i hrange
    have hlow : 48 ≤ c.toNat := hrange.1
    have hhigh : c.toNat ≤ 57 := hrange.2
    have hd : d = c.toNat - 48 := (Option.some.inj h).symm
    refine ⟨by omega, by omega, .inl ?_⟩
    rw [hexChar, if_pos (by omega), hvalue (48 + d) (by omega)]
    rfl
  · split at h
    · rename_i hrange
      have hlow : 97 ≤ c.toNat := hrange.1
      have hhigh : c.toNat ≤ 102 := hrange.2
      have hd : d = c.toNat - 97 + 10 := (Option.some.inj h).symm
      refine ⟨by omega, by omega, .inl ?_⟩
      rw [hexChar, if_neg (by omega), hvalue (97 + (d - 10)) (by omega)]
      rfl
    · split at h
      · rename_i hrange
        have hlow : 65 ≤ c.toNat := hrange.1
        have hhigh : c.toNat ≤ 70 := hrange.2
        have hd : d = c.toNat - 65 + 10 := (Option.some.inj h).symm
        exact ⟨by omega, by omega, .inr hrange⟩
      · cases h

/-- The code points of the digits. -/
theorem hexDigit_range {c : Char} {d : ℕ} (h : hexDigit c = some d) :
    (48 ≤ c.toNat ∧ c.toNat ≤ 57) ∨ (97 ≤ c.toNat ∧ c.toNat ≤ 102) ∨
      (65 ≤ c.toNat ∧ c.toNat ≤ 70) := by
  unfold hexDigit at h
  split at h
  · rename_i hrange
    exact .inl hrange
  · split at h
    · rename_i hrange
      exact .inr (.inl hrange)
    · split at h
      · rename_i hrange
        exact .inr (.inr hrange)
      · cases h

/-- The character of a digit reads back as the digit. -/
theorem hexDigit_hexChar {d : ℕ} (h : d < 16) : hexDigit (hexChar d) = some d := by
  interval_cases d <;> decide

/-- What was written reads back. -/
theorem decodeHex_encodeHex (bytes : List (BitVec 8)) :
    decodeHex (encodeHex bytes) = some bytes := by
  induction bytes with
  | nil => rfl
  | cons b bytes ih =>
    have hb : b.toNat < 256 := b.isLt
    have hhigh : hexDigit (hexChar (b.toNat / 16)) = some (b.toNat / 16) :=
      hexDigit_hexChar (by omega)
    have hlow : hexDigit (hexChar (b.toNat % 16)) = some (b.toNat % 16) :=
      hexDigit_hexChar (by omega)
    have hbyte : 16 * (b.toNat / 16) + b.toNat % 16 = b.toNat := by omega
    have hcons : encodeHex (b :: bytes) =
        hexChar (b.toNat / 16) :: hexChar (b.toNat % 16) :: encodeHex bytes := rfl
    simp [hcons, decodeHex, hhigh, hlow, ih, hbyte]

/-- Lower-case digits are what their bytes are written as. -/
theorem encodeHex_decodeHex {cs : List Char} {bytes : List (BitVec 8)}
    (h : decodeHex cs = some bytes) (hlower : ∀ c ∈ cs, IsLowerHex c) : encodeHex bytes = cs := by
  fun_induction decodeHex cs generalizing bytes with
  | case1 =>
    cases h
    rfl
  | case2 => cases h
  | case3 a b rest ih =>
    simp only [Option.bind_eq_bind, Option.bind_eq_some_iff, Option.pure_def,
      Option.some.injEq] at h
    obtain ⟨high, hhigh, low, hlow, tail, htail, rfl⟩ := h
    obtain ⟨hhigh16, -, ha⟩ := hexDigit_cases hhigh
    obtain ⟨hlow16, -, hb⟩ := hexDigit_cases hlow
    have ha' : hexChar high = a := ha.resolve_right (hlower a (by simp)).2
    have hb' : hexChar low = b := hb.resolve_right (hlower b (by simp)).2
    have hrest : encodeHex tail = rest := ih htail fun c hc => hlower c (by simp [hc])
    have hvalue : (BitVec.ofNat 8 (16 * high + low)).toNat = 16 * high + low := by
      rw [BitVec.toNat_ofNat]
      omega
    have hdiv : (16 * high + low) / 16 = high := by omega
    have hmod : (16 * high + low) % 16 = low := by omega
    have hcons : encodeHex (BitVec.ofNat 8 (16 * high + low) :: tail) =
        [hexChar ((BitVec.ofNat 8 (16 * high + low)).toNat / 16),
          hexChar ((BitVec.ofNat 8 (16 * high + low)).toNat % 16)] ++ encodeHex tail := rfl
    rw [hcons, hvalue, hdiv, hmod, ha', hb', hrest]
    rfl

/-- The bytes of two texts are the bytes of the texts in a row. -/
theorem decodeHex_append {cs ds : List Char} {bytes later : List (BitVec 8)}
    (h : decodeHex cs = some bytes) (hlater : decodeHex ds = some later) :
    decodeHex (cs ++ ds) = some (bytes ++ later) := by
  fun_induction decodeHex cs generalizing bytes with
  | case1 =>
    cases h
    exact hlater
  | case2 => cases h
  | case3 a b rest ih =>
    simp only [Option.bind_eq_bind, Option.bind_eq_some_iff, Option.pure_def,
      Option.some.injEq] at h
    obtain ⟨high, hhigh, low, hlow, tail, htail, rfl⟩ := h
    have hrest := ih htail
    simp [decodeHex, hhigh, hlow, hrest]

/-- An even number of digits is read. -/
theorem exists_decodeHex {cs : List Char} {n : ℕ} (hlength : cs.length = 2 * n)
    (hdigits : ∀ c ∈ cs, (hexDigit c).isSome) : ∃ bytes, decodeHex cs = some bytes := by
  induction n generalizing cs with
  | zero =>
    obtain rfl : cs = [] := List.length_eq_zero_iff.mp hlength
    exact ⟨[], rfl⟩
  | succ n ih =>
    match cs with
    | [] => simp at hlength
    | [_] => simp at hlength; omega
    | a :: b :: rest =>
      simp only [List.length_cons] at hlength
      obtain ⟨high, hhigh⟩ := Option.isSome_iff_exists.mp (hdigits a (by simp))
      obtain ⟨low, hlow⟩ := Option.isSome_iff_exists.mp (hdigits b (by simp))
      have hrest : rest.length = 2 * n := by omega
      obtain ⟨tail, htail⟩ := ih hrest fun c hc => hdigits c (by simp [hc])
      exact ⟨BitVec.ofNat 8 (16 * high + low) :: tail, by simp [decodeHex, hhigh, hlow, htail]⟩

/-- Every character that is read is a digit. -/
theorem isSome_hexDigit_of_decodeHex {cs : List Char} {bytes : List (BitVec 8)}
    (h : decodeHex cs = some bytes) : ∀ c ∈ cs, (hexDigit c).isSome := by
  fun_induction decodeHex cs generalizing bytes with
  | case1 => simp
  | case2 => cases h
  | case3 a b rest ih =>
    simp only [Option.bind_eq_bind, Option.bind_eq_some_iff, Option.pure_def,
      Option.some.injEq] at h
    obtain ⟨high, hhigh, low, hlow, tail, htail, -⟩ := h
    intro c hc
    rcases List.mem_cons.mp hc with rfl | hc
    · simp [hhigh]
    · rcases List.mem_cons.mp hc with rfl | hc
      · simp [hlow]
      · exact ih htail c hc

/-- Digits take one byte each in UTF-8. -/
theorem utf8ByteSize_of_decodeHex {cs : List Char} {bytes : List (BitVec 8)}
    (h : decodeHex cs = some bytes) : (String.ofList cs).utf8ByteSize = cs.length := by
  have hdigits := isSome_hexDigit_of_decodeHex h
  rw [String.utf8ByteSize_ofList]
  clear h
  induction cs with
  | nil => rfl
  | cons c cs ih =>
    obtain ⟨d, hd⟩ := Option.isSome_iff_exists.mp (hdigits c (by simp))
    obtain ⟨-, hascii, -⟩ := hexDigit_cases hd
    have hsize : c.utf8Size = 1 := by
      rw [Char.utf8Size_eq_one_iff]
      change c.toNat ≤ 127
      omega
    have hrest := ih fun c hc => hdigits c (by simp [hc])
    simp only [String.utf8Len_cons, List.length_cons]
    omega

/-! ## Numbers -/

/-- The number a byte string denotes, most significant byte first. -/
def bigEndian (bytes : List (BitVec 8)) : ℕ := bytes.foldl (fun n b => n * 256 + b.toNat) 0

/-- Accumulator form of `bigEndian`. -/
theorem foldl_bigEndian (bytes : List (BitVec 8)) (start : ℕ) :
    bytes.foldl (fun n b => n * 256 + b.toNat) start =
      start * 256 ^ bytes.length + bigEndian bytes := by
  induction bytes generalizing start with
  | nil => simp [bigEndian]
  | cons b bytes ih =>
    simp only [List.foldl_cons, List.length_cons, bigEndian, Nat.zero_mul, Nat.zero_add]
    rw [ih, ih b.toNat]
    ring

/-- Concatenation shifts the first number by the length of the second. -/
theorem bigEndian_append (front back : List (BitVec 8)) :
    bigEndian (front ++ back) = bigEndian front * 256 ^ back.length + bigEndian back := by
  simp only [bigEndian, List.foldl_append]
  exact foldl_bigEndian back _

/-- A number stays below the range of its byte string. -/
theorem bigEndian_lt (bytes : List (BitVec 8)) : bigEndian bytes < 256 ^ bytes.length := by
  induction bytes with
  | nil => simp [bigEndian]
  | cons b bytes ih =>
    have hb : b.toNat < 256 := b.isLt
    have happ := bigEndian_append [b] bytes
    have hone : bigEndian [b] = b.toNat := by simp [bigEndian]
    rw [List.singleton_append, hone] at happ
    have hle : b.toNat * 256 ^ bytes.length ≤ 255 * 256 ^ bytes.length :=
      Nat.mul_le_mul_right _ (by omega)
    rw [happ, List.length_cons, pow_succ]
    omega

/-- The last `n` bytes are the number modulo their range. -/
theorem bigEndian_drop (bytes : List (BitVec 8)) (k : ℕ) :
    bigEndian (bytes.drop k) = bigEndian bytes % 256 ^ (bytes.drop k).length := by
  have hsplit := bigEndian_append (bytes.take k) (bytes.drop k)
  rw [List.take_append_drop] at hsplit
  rw [hsplit, Nat.mul_add_mod_self_right, Nat.mod_eq_of_lt (bigEndian_lt _)]

/-- The last `k` bytes of a number. -/
def toBytes : ℕ → ℕ → List (BitVec 8)
  | 0, _ => []
  | k + 1, n => toBytes k (n / 256) ++ [BitVec.ofNat 8 n]

/-- There are `k` of them. -/
@[simp] theorem length_toBytes (k n : ℕ) : (toBytes k n).length = k := by
  induction k generalizing n with
  | zero => rfl
  | succ k ih => simp [toBytes, ih]

/-- They denote the number modulo their range. -/
theorem bigEndian_toBytes (k n : ℕ) : bigEndian (toBytes k n) = n % 256 ^ k := by
  induction k generalizing n with
  | zero => simp [toBytes, bigEndian, Nat.mod_one]
  | succ k ih =>
    have hone : bigEndian [BitVec.ofNat 8 n] = n % 256 := by simp [bigEndian]
    have hsplit : n % 256 ^ (k + 1) = n % 256 + 256 * (n / 256 % 256 ^ k) := by
      rw [pow_succ', Nat.mod_mul]
    rw [toBytes, bigEndian_append, ih, hone, hsplit]
    simp only [List.length_singleton, pow_one]
    omega

/-- Zeros in front do not count. -/
theorem bigEndian_zeros (k : ℕ) (bytes : List (BitVec 8)) :
    bigEndian (List.replicate k 0 ++ bytes) = bigEndian bytes := by
  have hzeros : bigEndian (List.replicate k 0) = 0 := by
    induction k with
    | zero => rfl
    | succ k ih =>
      have hcons := bigEndian_append [0] (List.replicate k 0)
      simpa [bigEndian, List.replicate_succ] using ih
  rw [bigEndian_append, hzeros, Nat.zero_mul, Nat.zero_add]

/-- Byte strings of one length that denote one number are equal. -/
theorem bigEndian_injective {xs ys : List (BitVec 8)} (hlength : xs.length = ys.length)
    (h : bigEndian xs = bigEndian ys) : xs = ys := by
  induction xs using List.reverseRecOn generalizing ys with
  | nil => exact (List.length_eq_zero_iff.mp hlength.symm).symm
  | append_singleton xs x ih =>
    rcases List.eq_nil_or_concat ys with rfl | ⟨ys, y, rfl⟩
    · simp at hlength
    · have hx : bigEndian [x] = x.toNat := by simp [bigEndian]
      have hy : bigEndian [y] = y.toNat := by simp [bigEndian]
      have hx256 : x.toNat < 256 := x.isLt
      have hy256 : y.toNat < 256 := y.isLt
      rw [List.concat_eq_append] at h hlength ⊢
      rw [bigEndian_append, bigEndian_append, hx, hy] at h
      simp only [List.length_singleton, pow_one] at h
      simp only [List.length_append, List.length_singleton, Nat.add_right_cancel_iff] at hlength
      have hlast : x.toNat = y.toNat := by omega
      have hinit : bigEndian xs = bigEndian ys := by omega
      rw [ih hlength hinit, BitVec.eq_of_toNat_eq hlast]

/-- A short number filled up with zeros. -/
theorem zeros_append_toBytes {j k n : ℕ} (hn : n < 256 ^ k) :
    List.replicate j 0 ++ toBytes k n = toBytes (j + k) n := by
  refine bigEndian_injective (by simp) ?_
  rw [bigEndian_zeros, bigEndian_toBytes, bigEndian_toBytes, Nat.mod_eq_of_lt hn]
  have hle : 256 ^ k ≤ 256 ^ (j + k) := Nat.pow_le_pow_right (by decide) (by omega)
  exact (Nat.mod_eq_of_lt (by omega)).symm

end Bytes
