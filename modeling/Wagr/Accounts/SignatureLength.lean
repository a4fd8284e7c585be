import Wagr.Service.Rules
import Wagr.Service.Scenario

/-!
# Signatures of any length

`normalizeSignature` halves its input and pads each half to 32 bytes. With at most 65 bytes all
slices are in range and the result has 64 bytes, which is what the verification functions rely on.
With more, the slice in front of the second half starts below zero, and the request panics.
-/

namespace Wagr

open Interaction Protocol

variable {crypto : Crypto} {sigBytes : List (BitVec 8)} {message signature address : String}

/-- A function that may fail has panicked. -/
def IsPanic {α : Type} (r : Except GoError α) : Prop := ∃ text, r = .error (.panic text)

/-- The hexadecimal text is safe to verify: no verification panics, whatever is signed and whatever
the mirror node answers, and full signatures are normalized to their first 64 bytes. -/
structure SignatureSafe (crypto : Crypto) (signature : String) : Prop where
  /-- A verification returns a boolean or an error. -/
  verifies : ∀ message address r calls,
    (verifyHederaSignature crypto message signature address).run.Yields r calls → ¬ IsPanic r
  /-- The slices of `normalizeSignature` are in range. -/
  normalizes : ∀ sigBytes, Bytes.decodeHex signature.toList = some sigBytes →
    ¬ IsPanic (normalizeSignature sigBytes) ∧
      (sigBytes.length = 64 ∨ sigBytes.length = 65 →
        normalizeSignature sigBytes = .ok (sigBytes.take 64))

/-- What is not padded is a whole half. -/
theorem padTo32_eq {bytes : List (BitVec 8)} (h : bytes.length = 32) :
    padTo32 bytes = .ok bytes := by
  rw [padTo32, if_pos (by omega), h, Nat.sub_self, List.replicate_zero, List.nil_append]

/-- At most 32 bytes are padded to 32. -/
theorem exists_padTo32 {bytes : List (BitVec 8)} (h : bytes.length ≤ 32) :
    ∃ padded, padTo32 bytes = .ok padded ∧ padded.length = 32 := by
  refine ⟨_, if_pos h, ?_⟩
  rw [List.length_append, List.length_replicate]
  omega

/-- The two halves of what is normalized. -/
theorem normalizeSignature_halves {bytes : List (BitVec 8)}
    (h : bytes = if sigBytes.length = 65 then sigBytes.take 64 else sigBytes) :
    normalizeSignature sigBytes = (do
      let rPad ← padTo32 (bytes.take (bytes.length / 2))
      let sPad ← padTo32 (bytes.drop (bytes.length / 2))
      return rPad ++ sPad) := by
  subst h
  rfl

/-- At most 65 bytes are normalized to 64. -/
theorem exists_normalizeSignature (h : sigBytes.length ≤ 65) :
    ∃ normal, normalizeSignature sigBytes = .ok normal ∧ normal.length = 64 := by
  obtain ⟨bytes, hbytes⟩ : ∃ bytes,
      bytes = if sigBytes.length = 65 then sigBytes.take 64 else sigBytes := ⟨_, rfl⟩
  have hlength : bytes.length ≤ 64 := by
    rw [hbytes]
    split_ifs
    · rw [List.length_take]
      omega
    · omega
  have hfirst : (bytes.take (bytes.length / 2)).length ≤ 32 := by
    rw [List.length_take]
    omega
  have hsecond : (bytes.drop (bytes.length / 2)).length ≤ 32 := by
    rw [List.length_drop]
    omega
  obtain ⟨r, hr, hrlength⟩ := exists_padTo32 hfirst
  obtain ⟨s, hs, hslength⟩ := exists_padTo32 hsecond
  refine ⟨r ++ s, ?_, by rw [List.length_append, hrlength, hslength]⟩
  rw [normalizeSignature_halves hbytes, hr, hs]
  rfl

/-- A full signature, with or without a recovery byte, is normalized to its first 64 bytes. -/
theorem normalizeSignature_full (h : sigBytes.length = 64 ∨ sigBytes.length = 65) :
    normalizeSignature sigBytes = .ok (sigBytes.take 64) := by
  have hbytes : sigBytes.take 64 = if sigBytes.length = 65 then sigBytes.take 64 else sigBytes := by
    split_ifs with hlength
    · rfl
    · exact List.take_of_length_le (by omega)
  have hlength : (sigBytes.take 64).length = 64 := by
    rw [List.length_take]
    omega
  rw [normalizeSignature_halves hbytes, padTo32_eq (by rw [List.length_take, hlength]; rfl),
    padTo32_eq (by rw [List.length_drop, hlength])]
  exact congrArg Except.ok (List.take_append_drop _ _)

/-- With more than 65 bytes the second half has more than 32, and its slice is out of range. -/
theorem normalizeSignature_long (h : 65 < sigBytes.length) :
    normalizeSignature sigBytes = .error slicePanic := by
  have hbytes : sigBytes = if sigBytes.length = 65 then sigBytes.take 64 else sigBytes :=
    (if_neg (by omega)).symm
  have hsecond : padTo32 (sigBytes.drop (sigBytes.length / 2)) = .error slicePanic := by
    rw [padTo32, if_neg (by rw [List.length_drop]; omega)]
  rw [normalizeSignature_halves hbytes, hsecond]
  unfold padTo32
  split_ifs
  · rfl
  · rfl

/-- A decoded key is no panic. -/
theorem not_isPanic_decodeKey {text pubKeyHex : String} : ¬ IsPanic (decodeKey text pubKeyHex) := by
  rintro ⟨m, h⟩
  unfold decodeKey at h
  split at h
  · cases h
  · cases h

/-- The fixed slices of the ECDSA verification are in range for 64 bytes. -/
theorem not_isPanic_ecdsa {pubKeyHex : String} (h : sigBytes.length = 64) :
    ¬ IsPanic (verifyECDSASignature crypto pubKeyHex message sigBytes) := by
  rintro ⟨m, hpanic⟩
  unfold verifyECDSASignature at hpanic
  cases hkey : decodeKey "decoding public key: %w" pubKeyHex with
  | error e =>
    rw [hkey] at hpanic
    exact not_isPanic_decodeKey ⟨m, hkey.trans (congrArg Except.error (Except.error.inj hpanic))⟩
  | ok pubKeyBytes =>
    simp only [hkey, bind, Except.bind] at hpanic
    split at hpanic
    · cases hpanic
    · rw [if_neg (by omega)] at hpanic
      cases hpanic

/-- The Ed25519 verification checks the lengths it relies on. -/
theorem not_isPanic_ed25519 {pubKeyHex : String} :
    ¬ IsPanic (verifyED25519 crypto pubKeyHex message sigBytes) := by
  rintro ⟨m, hpanic⟩
  unfold verifyED25519 at hpanic
  cases hkey : decodeKey "error decoding public key: %w" pubKeyHex with
  | error e =>
    rw [hkey] at hpanic
    exact not_isPanic_decodeKey ⟨m, hkey.trans (congrArg Except.error (Except.error.inj hpanic))⟩
  | ok pubKeyBytes =>
    simp only [hkey, bind, Except.bind] at hpanic
    split_ifs at hpanic <;> cases hpanic

/-- The check of a signature of at most 65 bytes does not panic. -/
theorem not_isPanic_checkSignature {keyInfo : HederaKeyInfo}
    (h : ∀ sigBytes, Bytes.decodeHex signature.toList = some sigBytes → sigBytes.length ≤ 65) :
    ¬ IsPanic (checkSignature crypto keyInfo message signature) := by
  rintro ⟨m, hpanic⟩
  unfold checkSignature at hpanic
  split at hpanic
  · cases hpanic
  · rename_i sigBytes hdecode
    obtain ⟨normal, hnormal, hlength⟩ := exists_normalizeSignature (h sigBytes hdecode)
    simp only [hnormal, bind, Except.bind] at hpanic
    split_ifs at hpanic
    · exact not_isPanic_ecdsa hlength ⟨m, hpanic⟩
    · exact not_isPanic_ed25519 ⟨m, hpanic⟩
    · cases hpanic

/-- The verification panics only where the check does. -/
theorem conforms_verify_no_panic
    (h : ∀ keyInfo, ¬ IsPanic (checkSignature crypto keyInfo message signature)) :
    recorder.Conforms [] (verifyHederaSignature crypto message signature address).run
      fun _ r => ¬ IsPanic r := by
  refine conforms_run_bind.mpr
    (conforms_wrapErr.mpr (conforms_run_bind.mpr ⟨trivial, fun key => ?_⟩))
  cases key with
  | error e =>
    rintro ⟨m, hpanic⟩
    cases hpanic
  | ok key =>
    refine conforms_run_ite.mpr ⟨fun _ => ?_, fun _ => h key⟩
    rintro ⟨m, hpanic⟩
    cases hpanic

/-- A longer signature panics after a mirror node has answered with a key. -/
theorem yields_panic (crypto : Crypto) (message address : String)
    (hdecode : Bytes.decodeHex signature.toList = some sigBytes)
    (hlong : 65 < sigBytes.length) :
    ∃ calls, (verifyHederaSignature crypto message signature address).run.Yields
      (.error slicePanic) calls := by
  refine ⟨[⟨.mirrorKey address, .ok ⟨"", "ED25519"⟩⟩], .call _ ?_⟩
  have hcheck : checkSignature crypto ⟨"", "ED25519"⟩ message signature = .error slicePanic := by
    unfold checkSignature
    rw [hdecode]
    simp only [normalizeSignature_long hlong, bind, Except.bind]
  change Program.Yields _
    (Program.done (checkSignature crypto ⟨"", "ED25519"⟩ message signature)) []
  rw [hcheck]
  exact .done

/-- **Which signatures are safe.** A verify request cannot panic, and normalizes full signatures to
their first 64 bytes, exactly when its signature is no hexadecimal text or has at most 65 bytes. -/
theorem signatureSafe_iff (crypto : Crypto) (signature : String) :
    SignatureSafe crypto signature ↔
      ∀ sigBytes, Bytes.decodeHex signature.toList = some sigBytes → sigBytes.length ≤ 65 := by
  constructor
  · intro h sigBytes hdecode
    by_contra hlong
    have hpanic := (h.normalizes sigBytes hdecode).1
    rw [normalizeSignature_long (by omega)] at hpanic
    exact hpanic ⟨_, rfl⟩
  · intro h
    refine ⟨fun message address r calls hyields => ?_, fun sigBytes hdecode => ⟨?_, ?_⟩⟩
    · exact (conforms_verify_no_panic fun _ => not_isPanic_checkSignature h).yields hyields
    · obtain ⟨normal, hnormal, -⟩ := exists_normalizeSignature (h sigBytes hdecode)
      rintro ⟨m, hpanic⟩
      rw [hnormal] at hpanic
      cases hpanic
    · exact normalizeSignature_full

/-- A signature of 66 zero bytes panics: the verification slices a half of 33 bytes. -/
theorem not_signatureSafe : ¬ SignatureSafe .mock (String.ofList (List.replicate 132 '0')) := by
  intro h
  have hzeros : List.replicate 132 '0' = Bytes.encodeHex (List.replicate 66 0) := by decide
  have hdecode : Bytes.decodeHex (String.ofList (List.replicate 132 '0')).toList =
      some (List.replicate 66 0) := by
    rw [String.toList_ofList, hzeros, Bytes.decodeHex_encodeHex]
  obtain ⟨calls, hyields⟩ := yields_panic .mock "" "0.0.1001" hdecode (by decide)
  exact h.verifies _ _ _ _ hyields ⟨_, rfl⟩

end Wagr
