import Wagr.Library.Bytes

/-!
# UUIDs as text

The text of a UUID's 16 bytes. A reader takes digits of both cases, a hyphen after every second
byte or none there, and braces around the text or none; it prints the bytes with lower-case
digits in groups of 8, 4, 4, 4 and 12. What was printed reads back.
-/

namespace Uuid

open Bytes

/-- Passes over a hyphen that may stand before `n` more bytes. -/
def skipHyphen (n : ℕ) (cs : List Char) : List Char :=
  if n ≠ 0 ∧ n % 2 = 0 ∧ cs.head? = some '-' then cs.tail else cs

/-- Reads so many bytes, and returns what follows them. -/
def readBytes : ℕ → List Char → Option (List (BitVec 8) × List Char)
  | 0, cs => some ([], cs)
  | n + 1, a :: b :: cs => do
    let high ← hexDigit a
    let low ← hexDigit b
    let (bytes, rest) ← readBytes n (skipHyphen n cs)
    return (BitVec.ofNat 8 (16 * high + low) :: bytes, rest)
  | _ + 1, _ => none

/-- Reads 16 bytes, with or without braces. -/
def read : List Char → Option (List (BitVec 8))
  | '{' :: cs => do
    let (bytes, rest) ← readBytes 16 cs
    if rest = ['}'] then some bytes else none
  | cs => do
    let (bytes, rest) ← readBytes 16 cs
    if rest = [] then some bytes else none

/-- Prints bytes; a hyphen stands before the last 12, 10, 8 and 6 of them. -/
def print : List (BitVec 8) → List Char
  | [] => []
  | b :: bytes =>
    hexChar (b.toNat / 16) :: hexChar (b.toNat % 16) ::
      if bytes.length ∈ [12, 10, 8, 6] then '-' :: print bytes else print bytes

/-! ## Reading what was printed -/

/-- As many bytes are read as were asked for. -/
theorem readBytes_length {n : ℕ} {cs rest : List Char} {bytes : List (BitVec 8)}
    (h : readBytes n cs = some (bytes, rest)) : bytes.length = n := by
  induction n generalizing cs bytes with
  | zero =>
    cases h
    rfl
  | succ n ih =>
    match cs with
    | [] => cases h
    | [_] => cases h
    | a :: b :: cs =>
      simp only [readBytes, Option.bind_eq_bind, Option.bind_eq_some_iff, Option.pure_def,
        Option.some.injEq, Prod.mk.injEq] at h
      obtain ⟨_, _, _, _, ⟨tail, _⟩, htail, rfl, rfl⟩ := h
      rw [List.length_cons, ih htail]

/-- A UUID has 16 bytes. -/
theorem read_length {cs : List Char} {bytes : List (BitVec 8)} (h : read cs = some bytes) :
    bytes.length = 16 := by
  unfold read at h
  split at h
  all_goals
    simp only [Option.bind_eq_bind, Option.bind_eq_some_iff] at h
    obtain ⟨⟨_, rest⟩, hbytes, h⟩ := h
    split_ifs at h
    cases h
    exact readBytes_length hbytes

/-- No printed text begins with a character that is no digit. -/
theorem head_print {bytes : List (BitVec 8)} {c : Char} (hc : hexDigit c = none) :
    (print bytes).head? ≠ some c := by
  cases bytes with
  | nil => simp [print]
  | cons b bytes =>
    intro heq
    obtain rfl : hexChar (b.toNat / 16) = c := Option.some.inj heq
    have hb : b.toNat < 256 := b.isLt
    rw [hexDigit_hexChar (by omega)] at hc
    cases hc

/-- Bytes that were printed read back. -/
theorem readBytes_print (bytes : List (BitVec 8)) :
    readBytes bytes.length (print bytes) = some (bytes, []) := by
  induction bytes with
  | nil => rfl
  | cons b bytes ih =>
    have hb : b.toNat < 256 := b.isLt
    have hhigh : hexDigit (hexChar (b.toNat / 16)) = some (b.toNat / 16) :=
      hexDigit_hexChar (by omega)
    have hlow : hexDigit (hexChar (b.toNat % 16)) = some (b.toNat % 16) :=
      hexDigit_hexChar (by omega)
    have hbyte : 16 * (b.toNat / 16) + b.toNat % 16 = b.toNat := by omega
    have hskip : skipHyphen bytes.length
        (if bytes.length ∈ [12, 10, 8, 6] then '-' :: print bytes else print bytes) =
          print bytes := by
      unfold skipHyphen
      split_ifs with hgroup hhyphen hhyphen
      · rfl
      · exact absurd ⟨by grind, by grind, rfl⟩ hhyphen
      · exact absurd hhyphen.2.2 (head_print (by decide))
      · rfl
    simp only [print, List.length_cons, readBytes, hhigh, hlow, hskip, ih, hbyte,
      Option.bind_eq_bind, Option.bind_some, Option.pure_def, BitVec.ofNat_toNat,
      BitVec.setWidth_eq]

/-- A UUID that was printed reads back. -/
theorem read_print {bytes : List (BitVec 8)} (h : bytes.length = 16) :
    read (print bytes) = some bytes := by
  have hbytes : readBytes 16 (print bytes) = some (bytes, []) := h ▸ readBytes_print bytes
  unfold read
  split
  · rename_i cs heq
    exact absurd (congrArg List.head? heq) (head_print (by decide))
  · simp [hbytes]

end Uuid
