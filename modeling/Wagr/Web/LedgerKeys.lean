import Wagr.Web.HederaStrategy
import Wagr.Payments.Evidence
import Wagr.Service.Scenario

/-!
# One ledger key for each league

The web client and the backend make the same 32 bytes from every league ID the backend
accepts, different canonical UUIDs get different keys, and every payment check and payout of a
league uses the key of its ID.
-/

namespace Wagr

open Interaction Protocol System HederaStrategy

variable {svc : Service} {crypto : Crypto} {a b : BackendConfig} {l : BackendLabel}
  {ok : BackendConfig → BackendLabel → Prop}

/-! ## The two conversions -/

/-- Dashes are removed from the code units as from the characters, if these are digits. -/
theorem codeUnits_filter {cs : List Char}
    (hdigits : ∀ c ∈ cs.filter (· ≠ '-'), (Bytes.hexDigit c).isSome) :
    (cs.flatMap charUnits).filter (· ≠ 0x2d) = (cs.filter (· ≠ '-')).map Char.toNat := by
  induction cs with
  | nil => rfl
  | cons c cs ih =>
    by_cases hdash : c = '-'
    · subst hdash
      have hrest := ih fun c hc => hdigits c (by simpa using hc)
      exact hrest
    · have hrest := ih fun c hc => hdigits c (by
        rw [List.filter_cons_of_pos (by simpa using hdash)]
        exact List.mem_cons_of_mem _ hc)
      obtain ⟨d, hd⟩ := Option.isSome_iff_exists.mp (hdigits c (by simp [hdash]))
      obtain ⟨-, hascii, -⟩ := Bytes.hexDigit_cases hd
      have hrange := Bytes.hexDigit_range hd
      have hunits : charUnits c = [c.toNat] := if_pos (by omega)
      have hkeep : c.toNat ≠ 0x2d := by omega
      rw [List.flatMap_cons, hunits, List.singleton_append,
        List.filter_cons_of_pos (by simpa using hkeep), hrest,
        List.filter_cons_of_pos (by simpa using hdash), List.map_cons]

/-- Reading pairs of digits with `parseInt` decodes them. -/
theorem toUint8_decodeHex {cs : List Char} {bytes : List (BitVec 8)}
    (h : Bytes.decodeHex cs = some bytes) :
    ((List.range bytes.length).map fun i =>
      toUint8 (parseInt16 (substring (cs.map Char.toNat) (i * 2) (i * 2 + 2)))) = bytes := by
  fun_induction Bytes.decodeHex cs generalizing bytes with
  | case1 =>
    cases h
    rfl
  | case2 => cases h
  | case3 a b rest ih =>
    simp only [Option.bind_eq_bind, Option.bind_eq_some_iff, Option.pure_def,
      Option.some.injEq] at h
    obtain ⟨high, hhigh, low, hlow, tail, htail, rfl⟩ := h
    have hrest := ih htail
    have hfirst : toUint8 (parseInt16 [a.toNat, b.toNat]) = BitVec.ofNat 8 (16 * high + low) :=
      parseInt16_pair hhigh hlow
    rw [List.length_cons, List.range_succ_eq_map, List.map_cons, List.map_map]
    refine congrArg₂ List.cons hfirst (Eq.trans ?_ hrest)
    refine List.map_congr_left fun i _ => ?_
    have hdouble : (i + 1) * 2 = i * 2 + 2 := by omega
    have hwidth : i * 2 + 2 + 2 - (i * 2 + 2) = i * 2 + 2 - i * 2 := by omega
    simp only [Function.comp_apply, Nat.succ_eq_add_one, substring, List.map_cons, hdouble, hwidth]
    rfl

/-- The key of an accepted ID: 16 decoded bytes and 16 zeros. -/
theorem uuidToBytes32_ok {uuidStr : String} {key : Bytes32} (h : uuidToBytes32 uuidStr = .ok key) :
    ∃ bytes, Bytes.decodeHex (uuidStr.toList.filter (· ≠ '-')) = some bytes ∧ bytes.length = 16 ∧
      Bytes.bigEndian (bytes ++ List.replicate 16 0) = key.toNat := by
  unfold uuidToBytes32 at h
  dsimp only at h
  split at h
  · cases h
  · rename_i hsize
    split at h
    · cases h
    · rename_i bytes hdecode
      have hsize := not_not.mp hsize
      rw [Bytes.utf8ByteSize_of_decodeHex hdecode] at hsize
      have hdigits := Bytes.decodeHex_length hdecode
      have hlength : bytes.length = 16 := by omega
      have hlt := Bytes.bigEndian_lt bytes
      rw [hlength] at hlt
      have hzeros : Bytes.bigEndian (List.replicate 16 0) = 0 := by decide
      have hvalue := Bytes.bigEndian_append bytes (List.replicate 16 0)
      rw [hzeros, List.length_replicate, Nat.add_zero] at hvalue
      refine ⟨bytes, hdecode, hlength, ?_⟩
      rw [hvalue, ← Except.ok.inj h, BitVec.toNat_ofNat]
      refine (Nat.mod_eq_of_lt ?_).symm
      calc Bytes.bigEndian bytes * 256 ^ 16
          < 256 ^ 16 * 256 ^ 16 := Nat.mul_lt_mul_of_pos_right hlt (by decide)
        _ = 2 ^ 256 := by decide

/-- The web client sends the bytes of the backend's key. -/
theorem leagueIdBytes32_eq {leagueID : String} {key : Bytes32}
    (h : uuidToBytes32 leagueID = .ok key) :
    leagueIdBytes32 leagueID = Bytes.toBytes 32 key.toNat := by
  obtain ⟨bytes, hdecode, hlength, hvalue⟩ := uuidToBytes32_ok h
  have hdigits := Bytes.decodeHex_length hdecode
  have hunits := codeUnits_filter (Bytes.isSome_hexDigit_of_decodeHex hdecode)
  have hzeros : Bytes.decodeHex (List.replicate 32 '0') = some (List.replicate 16 0) := by decide
  have hfull := Bytes.decodeHex_append hdecode hzeros
  have hpadded : padEnd 64 ((codeUnits leagueID).filter (· ≠ 0x2d)) =
      (leagueID.toList.filter (· ≠ '-') ++ List.replicate 32 '0').map Char.toNat := by
    rw [codeUnits, hunits, padEnd, List.length_map, hdigits, hlength, List.map_append,
      List.map_replicate]
    rfl
  have hbytes := toUint8_decodeHex hfull
  rw [List.length_append, List.length_replicate, hlength, ← hpadded] at hbytes
  have hclient : leagueIdBytes32 leagueID = bytes ++ List.replicate 16 0 := hbytes
  rw [hclient, ← hvalue]
  refine Bytes.bigEndian_injective ?_ ?_
  · rw [List.length_append, List.length_replicate, hlength, Bytes.length_toBytes]
  · rw [Bytes.bigEndian_toBytes]
    refine (Nat.mod_eq_of_lt ?_).symm
    have hlt := Bytes.bigEndian_lt (bytes ++ List.replicate 16 0)
    rwa [List.length_append, List.length_replicate, hlength] at hlt

/-! ## Canonical IDs -/

/-- The groups between the separators, put together, are the text without them. -/
theorem flatten_splitOn (sep : Char) (cs : List Char) :
    (cs.splitOn sep).flatten = cs.filter (· ≠ sep) := by
  induction cs with
  | nil => rfl
  | cons c cs ih =>
    rw [List.splitOn_cons_eq_if_modifyHead]
    by_cases hsep : c = sep
    · simp [hsep, ih]
    · have hne := List.splitOn_ne_nil sep cs
      cases hgroups : cs.splitOn sep with
      | nil => exact absurd hgroups hne
      | cons group groups =>
        rw [hgroups] at ih
        simp only [List.flatten_cons] at ih
        simp [hsep, ih]

/-- A canonical lower-case UUID: groups of 8, 4, 4, 4 and 12 digits. -/
structure CanonicalUUID (uuidStr : String) : Prop where
  groups : (uuidStr.toList.splitOn '-').map List.length = [8, 4, 4, 4, 12]
  digits : ∀ c ∈ uuidStr.toList, c ≠ '-' → Bytes.IsLowerHex c

instance (uuidStr : String) : Decidable (CanonicalUUID uuidStr) :=
  decidable_of_iff ((uuidStr.toList.splitOn '-').map List.length = [8, 4, 4, 4, 12] ∧
    (uuidStr.toList.all fun c => c = '-' || decide (Bytes.IsLowerHex c)) = true) <| by
    have hdigits : (uuidStr.toList.all fun c => c = '-' || decide (Bytes.IsLowerHex c)) = true ↔
        ∀ c ∈ uuidStr.toList, c ≠ '-' → Bytes.IsLowerHex c := by
      simp [or_iff_not_imp_left]
    rw [hdigits]
    exact ⟨fun h => ⟨h.1, h.2⟩, fun h => ⟨h.groups, h.digits⟩⟩

/-- It has 32 digits. -/
theorem CanonicalUUID.length {uuidStr : String} (h : CanonicalUUID uuidStr) :
    (uuidStr.toList.filter (· ≠ '-')).length = 32 := by
  rw [← flatten_splitOn, List.length_flatten, h.groups]
  rfl

/-- The characters without the dashes are digits. -/
theorem CanonicalUUID.lower {uuidStr : String} (h : CanonicalUUID uuidStr) :
    ∀ c ∈ uuidStr.toList.filter (· ≠ '-'), Bytes.IsLowerHex c := by
  intro c hc
  obtain ⟨hmem, hdash⟩ := List.mem_filter.mp hc
  exact h.digits c hmem (of_decide_eq_true hdash)

/-- The backend accepts it. -/
theorem CanonicalUUID.accepted {uuidStr : String} (h : CanonicalUUID uuidStr) :
    ∃ key, uuidToBytes32 uuidStr = .ok key := by
  obtain ⟨bytes, hbytes⟩ := Bytes.exists_decodeHex (n := 16) h.length fun c hc => (h.lower c hc).1
  have hsize := Bytes.utf8ByteSize_of_decodeHex hbytes
  rw [h.length] at hsize
  unfold uuidToBytes32
  dsimp only
  rw [if_neg (not_not.mpr hsize), hbytes]
  exact ⟨_, rfl⟩

/-- Two canonical UUIDs with one key are equal. -/
theorem CanonicalUUID.eq_of_key {s t : String} (hs : CanonicalUUID s) (ht : CanonicalUUID t)
    {key : Bytes32} (hkey : uuidToBytes32 s = .ok key) (hkey' : uuidToBytes32 t = .ok key) :
    s = t := by
  obtain ⟨bytes, hdecode, hlength, hvalue⟩ := uuidToBytes32_ok hkey
  obtain ⟨bytes', hdecode', hlength', hvalue'⟩ := uuidToBytes32_ok hkey'
  have hbytes : bytes ++ List.replicate 16 0 = bytes' ++ List.replicate 16 0 := by
    refine Bytes.bigEndian_injective ?_ (hvalue.trans hvalue'.symm)
    rw [List.length_append, List.length_append, hlength, hlength']
  have hbytes := List.append_cancel_right hbytes
  have hdigits : s.toList.filter (· ≠ '-') = t.toList.filter (· ≠ '-') := by
    rw [← Bytes.encodeHex_decodeHex hdecode hs.lower, hbytes,
      Bytes.encodeHex_decodeHex hdecode' ht.lower]
  have hgroups : s.toList.splitOn '-' = t.toList.splitOn '-' := by
    refine List.eq_iff_flatten_eq.mpr ⟨?_, hs.groups.trans ht.groups.symm⟩
    rw [flatten_splitOn, flatten_splitOn, hdigits]
  have hchars : s.toList = t.toList := by
    have hjoin : ['-'].intercalate (s.toList.splitOn '-') = s.toList := List.intercalate_splitOn '-'
    rw [← hjoin, hgroups, List.intercalate_splitOn]
  exact String.toList_injective hchars

/-! ## Runs -/

/-- A step addresses a league by the key of its ID: a confirmation that reads a payment, and a
payout transaction with the balance it was checked against. -/
structure UsesLeagueKey (a : BackendConfig) (l : BackendLabel) : Prop where
  verified : ∀ i t contract key address r leagueID userID,
    l = .call i (.contractCall contract (.payments key address)) r → a.threads[i]? = some t →
      t.job.verifies = some (leagueID, userID) → uuidToBytes32 leagueID = .ok key
  paid : ∀ i t purpose key recipients amounts r,
    l = .call i (.contractExecute purpose key recipients amounts) r → a.threads[i]? = some t →
      uuidToBytes32 purpose.leagueID = .ok key ∧
        ∃ balance, ReadsAs t.trace (.leagueTotals key) balance

/-- Every step of every run uses the keys of its leagues. -/
theorem Runs.usesLeagueKey (h : Runs svc crypto ok a) (hstep : (backend svc crypto).Step a l b) :
    UsesLeagueKey a l := by
  constructor
  · rintro i t contract key address r leagueID userID rfl ht hreq
    exact (h.rule hstep ht leagueID userID hreq).1
  · rintro i t purpose key recipients amounts r rfl ht
    obtain ⟨payees, hpays⟩ := h.rule hstep ht
    obtain ⟨balance, hbalance, -⟩ := hpays.covered
    exact ⟨hpays.league, balance, hbalance⟩

/-- The fee payment and the refund of the web client send the key the backend makes of every ID
it accepts, different canonical UUIDs are accepted with different keys, and in every run the
payment checks and the payouts of a league use the key of its ID. -/
theorem oneKey (svc : Service) (crypto : Crypto) :
    (∀ leagueID key, uuidToBytes32 leagueID = .ok key →
      payEntryFeeUSDCKey leagueID = Bytes.toBytes 32 key.toNat ∧
        claimRefundKey leagueID = Bytes.toBytes 32 key.toNat) ∧
    (∀ s t, CanonicalUUID s → CanonicalUUID t → s ≠ t → ∃ key key',
      uuidToBytes32 s = .ok key ∧ uuidToBytes32 t = .ok key' ∧ key ≠ key') ∧
    ∀ a l b, Runs svc crypto (fun _ _ => True) a → (backend svc crypto).Step a l b →
      UsesLeagueKey a l := by
  refine ⟨fun leagueID key hkey => ⟨leagueIdBytes32_eq hkey, leagueIdBytes32_eq hkey⟩, ?_,
    fun a l b hrun hstep => hrun.usesLeagueKey hstep⟩
  intro s t hs ht hne
  obtain ⟨key, hkey⟩ := hs.accepted
  obtain ⟨key', hkey'⟩ := ht.accepted
  refine ⟨key, key', hkey, hkey', ?_⟩
  rintro rfl
  exact hne (hs.eq_of_key ht hkey hkey')

/-- Two leagues whose IDs differ in one digit. -/
theorem oneKey_leagues :
    claimRefundKey "8f14e45f-ceea-467f-a8b5-0000000000aa" =
        Bytes.toBytes 32 0x8f14e45fceea467fa8b50000000000aa00000000000000000000000000000000 ∧
      ∃ key key', uuidToBytes32 "8f14e45f-ceea-467f-a8b5-0000000000aa" = .ok key ∧
        uuidToBytes32 "8f14e45f-ceea-467f-a8b5-0000000000ab" = .ok key' ∧ key ≠ key' := by
  have hkey : uuidToBytes32 "8f14e45f-ceea-467f-a8b5-0000000000aa" =
      .ok 0x8f14e45fceea467fa8b50000000000aa00000000000000000000000000000000 := by decide
  obtain ⟨hclient, hcanonical, -⟩ := oneKey .mock .mock
  exact ⟨(hclient _ _ hkey).2,
    hcanonical _ _ (by decide) (by decide) (by decide)⟩

end Wagr
