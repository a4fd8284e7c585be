import Wagr.Library.Buffer
import Wagr.Payouts.MicroUSDC
import Wagr.Service.Auth

/-!
# The call encoders and their buffers

The three functions that write call data by hand: `encodeDistributePayoutCall` fills a buffer at a
moving cursor, `encodePaymentsCall` appends, and `encodeLeagueTotalsCall` copies into two parts of
a buffer. None of their writes leaves the buffer, and the contract reads the arguments back.
-/

namespace Wagr

open Buffer

/-- The bytes of a buffer or of a part of it. -/
abbrev GoBytes := List (BitVec 8)

/-- `make([]byte, n)`. -/
def makeBytes (n : ℕ) : Except GoError GoBytes :=
  if 2 ^ 63 ≤ n then .error (.panic "makeslice: len out of range") else .ok (List.replicate n 0)

/-- `copy(buf[pos:], src)`: the slice must start inside the buffer, and what does not fit is left
out. -/
def copyAt (buf : GoBytes) (pos : ℕ) (src : GoBytes) : Except GoError GoBytes :=
  if buf.length < pos then .error slicePanic else .ok (overwrite buf pos src)

/-- `binary.BigEndian.PutUint64(buf[pos:], n)`. -/
def putUint64 (buf : GoBytes) (pos n : ℕ) : Except GoError GoBytes :=
  if buf.length < pos then .error slicePanic
  else if buf.length < pos + 8 then .error (.panic "index out of range")
  else .ok (overwrite buf pos (Bytes.toBytes 8 n))

variable (keccak256 : GoBytes → Bytes32)

/-- The body of `encodeDistributePayoutCall` with its buffer `buf` and its cursor `pos`. -/
def fillDistributePayoutCall (leagueID : Bytes32) (recipients : List Address)
    (amounts : List Int64) : Except GoError GoBytes := do
  let N := recipients.length
  let offsetRecipients := 96
  let offsetAmounts := 96 + 32 + N * 32
  let totalLen := 4 + 32 + 32 + 32 + 32 + N * 32 + 32 + N * 32
  let buf ← makeBytes totalLen
  let pos := 0
  let buf ← copyAt buf pos (distributePayoutSelector keccak256)
  let pos := pos + 4
  let buf ← copyAt buf pos (Bytes.toBytes 32 leagueID.toNat)
  let pos := pos + 32
  let buf ← putUint64 buf (pos + 24) offsetRecipients
  let pos := pos + 32
  let buf ← putUint64 buf (pos + 24) offsetAmounts
  let pos := pos + 32
  let buf ← putUint64 buf (pos + 24) N
  let pos := pos + 32
  let (buf, pos) ← fill (fun buf pos (addr : Address) =>
    copyAt buf (pos + 12) (Bytes.toBytes 20 addr.toNat)) 32 recipients buf pos
  let buf ← putUint64 buf (pos + 24) N
  let pos := pos + 32
  let (buf, _) ← fill (fun buf pos (amount : Int64) =>
    putUint64 buf (pos + 24) amount.toUInt64.toNat) 32 amounts buf pos
  return buf

/-- The first 4 bytes of the hash of a function's signature. -/
def functionSelector (signature : String) : GoBytes :=
  (Bytes.toBytes 32 (keccak256 (signature.toList.map fun c => BitVec.ofNat 8 c.toNat)).toNat).take 4

/-- `encodePaymentsCall`. -/
def encodePaymentsCall (leagueId : Bytes32) (member : Address) : GoBytes :=
  functionSelector keccak256 "payments(bytes32,address)" ++ Bytes.toBytes 32 leagueId.toNat ++
    slotAddress member

/-- `encodeLeagueTotalsCall`. -/
def encodeLeagueTotalsCall (leagueId : Bytes32) : Except GoError GoBytes := do
  let buf ← makeBytes 36
  let buf ← copyAt buf 0 (functionSelector keccak256 "leagueTotals(bytes32)")
  copyAt buf 4 (Bytes.toBytes 32 leagueId.toNat)

/-- How the contract reads the arguments of `payments`, `none` if it reverts. -/
def decodePaymentsCall (data : GoBytes) : Option (Bytes32 × Address) :=
  let member := Calldata.load data 36
  if data.take 4 ≠ functionSelector keccak256 "payments(bytes32,address)" ∨
    data.length < 4 + 64 ∨ 2 ^ 160 ≤ member then none
  else some (BitVec.ofNat 256 (Calldata.load data 4), BitVec.ofNat 160 member)

/-- How the contract reads the argument of `leagueTotals`, `none` if it reverts. -/
def decodeLeagueTotalsCall (data : GoBytes) : Option Bytes32 :=
  if data.take 4 ≠ functionSelector keccak256 "leagueTotals(bytes32)" ∨ data.length < 4 + 32 then
    none
  else some (BitVec.ofNat 256 (Calldata.load data 4))

variable {keccak256} {leagueID : Bytes32} {recipients : List Address} {amounts : List Int64}
  {written data : GoBytes} {rest : ℕ}

@[simp] theorem length_functionSelector (signature : String) :
    (functionSelector keccak256 signature).length = 4 := by
  simp [functionSelector]

@[simp] theorem length_slotUint64 (n : ℕ) : (slotUint64 n).length = 32 := by
  simp [slotUint64]

@[simp] theorem length_slotAddress (addr : Address) : (slotAddress addr).length = 32 := by
  simp [slotAddress]

/-! ## Writes into the blank part of a buffer -/

/-- Bytes that fit are copied behind what is written. -/
theorem copyAt_next {src : GoBytes} {pos left : ℕ} (hpos : written.length = pos)
    (hrest : rest = src.length + left) :
    copyAt (written ++ List.replicate rest 0) pos src =
      .ok ((written ++ src) ++ List.replicate left 0) := by
  subst hpos hrest
  have hfits : 0 + src.length ≤ src.length + left := by omega
  have hover := overwrite_blank written (0 : BitVec 8) hfits
  rw [Nat.add_zero, List.replicate_zero, List.nil_append, Nat.zero_add,
    Nat.add_sub_cancel_left] at hover
  rw [copyAt, if_neg (by rw [List.length_append]; omega), hover, List.append_assoc]

/-- A number is put into the next slot. -/
theorem fills_putUint64 {α : Type} (n : α → ℕ) :
    Fills (fun buf pos x => putUint64 buf (pos + 24) (n x)) (fun x => slotUint64 (n x)) 32 0 := by
  intro written rest x hrest
  have hfits : 24 + (Bytes.toBytes 8 (n x)).length ≤ rest := by
    rw [Bytes.length_toBytes]
    omega
  have hover := overwrite_blank written (0 : BitVec 8) hfits
  rw [Bytes.length_toBytes] at hover
  have hlength :
      (written ++ List.replicate rest (0 : BitVec 8)).length = written.length + rest := by
    rw [List.length_append, List.length_replicate]
  change putUint64 _ (written.length + 24) (n x) = _
  rw [putUint64, hlength, if_neg (by omega), if_neg (by omega), hover]
  rfl

/-- An address is copied into the next slot. -/
theorem fills_copyAddress :
    Fills (fun buf pos (addr : Address) => copyAt buf (pos + 12) (Bytes.toBytes 20 addr.toNat))
      slotAddress 32 0 := by
  intro written rest addr hrest
  have hfits : 12 + (Bytes.toBytes 20 addr.toNat).length ≤ rest := by
    rw [Bytes.length_toBytes]
    omega
  have hover := overwrite_blank written (0 : BitVec 8) hfits
  rw [Bytes.length_toBytes] at hover
  change copyAt _ (written.length + 12) _ = _
  rw [copyAt, if_neg (by rw [List.length_append, List.length_replicate]; omega), hover]
  rfl

/-- One number in the next slot. -/
theorem putUint64_next {n pos left : ℕ} (hpos : written.length = pos) (hrest : rest = 32 + left) :
    putUint64 (written ++ List.replicate rest 0) (pos + 24) n =
      .ok ((written ++ slotUint64 n) ++ List.replicate left 0) := by
  subst hpos hrest
  have hput := fills_putUint64 (fun n => n) written (32 + left) n (by omega)
  rw [Nat.add_sub_cancel_left] at hput
  rw [List.append_assoc]
  exact hput

/-- The slots of a list behind what is written. -/
theorem fill_next {α : Type} {put : GoBytes → ℕ → α → Except GoError GoBytes} {slot : α → GoBytes}
    (hput : Fills put slot 32 0) (hslot : ∀ x, (slot x).length = 32) {xs : List α} {pos left : ℕ}
    (hpos : written.length = pos) (hrest : rest = 32 * xs.length + left) :
    fill put 32 xs (written ++ List.replicate rest 0) pos =
      .ok ((written ++ xs.flatMap slot) ++ List.replicate left 0, pos + 32 * xs.length) := by
  subst hpos hrest
  have hrest : 32 * xs.length ≤ 32 * xs.length + left := by omega
  have hfill := hput.fill hslot xs written hrest
  have hlength : (xs.flatMap slot).length = 32 * xs.length := by
    simp [List.length_flatMap, hslot, Nat.mul_comm]
  rw [Nat.add_sub_cancel_left, List.length_append, hlength] at hfill
  exact hfill

/-- No number is put behind the end of a buffer. -/
theorem putUint64_full (buf : GoBytes) (n : ℕ) :
    putUint64 buf (buf.length + 24) n = .error slicePanic :=
  if_pos (by omega)

/-- The writes of `encodeDistributePayoutCall` put its parts behind each other, and none of them is
cut off. -/
theorem fillDistributePayoutCall_eq :
    fillDistributePayoutCall keccak256 leagueID recipients amounts =
      encodeDistributePayoutCall keccak256 leagueID recipients amounts := by
  unfold fillDistributePayoutCall encodeDistributePayoutCall
  dsimp only
  generalize hN : recipients.length = N
  generalize htotal : 4 + 32 + 32 + 32 + 32 + N * 32 + 32 + N * 32 = totalLen
  by_cases hsize : 2 ^ 63 ≤ totalLen
  · rw [makeBytes, if_pos hsize, if_pos hsize]
    rfl
  rw [makeBytes, if_neg hsize, if_neg hsize]
  -- `w₁` to `w₇` are the contents before the cursor after each write
  have hselector : copyAt (List.replicate totalLen 0) 0 (distributePayoutSelector keccak256) =
      .ok (distributePayoutSelector keccak256 ++ List.replicate (totalLen - 4) 0) := by
    have hrest : totalLen = (distributePayoutSelector keccak256).length + (totalLen - 4) := by
      rw [length_distributePayoutSelector]
      omega
    have hcopy := copyAt_next List.length_nil hrest
    rwa [List.nil_append, List.nil_append] at hcopy
  obtain ⟨w₁, hw₁⟩ : ∃ w, w = distributePayoutSelector keccak256 := ⟨_, rfl⟩
  have hlen₁ : w₁.length = 4 := by rw [hw₁, length_distributePayoutSelector]
  obtain ⟨w₂, hw₂⟩ : ∃ w, w = w₁ ++ Bytes.toBytes 32 leagueID.toNat := ⟨_, rfl⟩
  have hlen₂ : w₂.length = 36 := by rw [hw₂, List.length_append, hlen₁, Bytes.length_toBytes]
  obtain ⟨w₃, hw₃⟩ : ∃ w, w = w₂ ++ slotUint64 96 := ⟨_, rfl⟩
  have hlen₃ : w₃.length = 68 := by rw [hw₃, List.length_append, hlen₂, length_slotUint64]
  obtain ⟨w₄, hw₄⟩ : ∃ w, w = w₃ ++ slotUint64 (96 + 32 + N * 32) := ⟨_, rfl⟩
  have hlen₄ : w₄.length = 100 := by rw [hw₄, List.length_append, hlen₃, length_slotUint64]
  obtain ⟨w₅, hw₅⟩ : ∃ w, w = w₄ ++ slotUint64 N := ⟨_, rfl⟩
  have hlen₅ : w₅.length = 132 := by rw [hw₅, List.length_append, hlen₄, length_slotUint64]
  obtain ⟨w₆, hw₆⟩ : ∃ w, w = w₅ ++ recipients.flatMap slotAddress := ⟨_, rfl⟩
  have hlen₆ : w₆.length = 132 + 32 * N := by
    rw [hw₆, List.length_append, hlen₅, List.length_flatMap]
    simp [hN, Nat.mul_comm]
  obtain ⟨w₇, hw₇⟩ : ∃ w, w = w₆ ++ slotUint64 N := ⟨_, rfl⟩
  have hlen₇ : w₇.length = 164 + 32 * N := by
    rw [hw₇, List.length_append, hlen₆, length_slotUint64]
    omega
  have hleague : copyAt (w₁ ++ List.replicate (totalLen - 4) 0) (0 + 4)
      (Bytes.toBytes 32 leagueID.toNat) = .ok (w₂ ++ List.replicate (totalLen - 36) 0) := by
    rw [hw₂]
    exact copyAt_next hlen₁ (by rw [Bytes.length_toBytes]; omega)
  have hoffsetRecipients : putUint64 (w₂ ++ List.replicate (totalLen - 36) 0) (0 + 4 + 32 + 24) 96 =
      .ok (w₃ ++ List.replicate (totalLen - 68) 0) := by
    rw [hw₃]
    exact putUint64_next hlen₂ (by omega)
  have hoffsetAmounts : putUint64 (w₃ ++ List.replicate (totalLen - 68) 0)
      (0 + 4 + 32 + 32 + 24) (96 + 32 + N * 32) =
        .ok (w₄ ++ List.replicate (totalLen - 100) 0) := by
    rw [hw₄]
    exact putUint64_next hlen₃ (by omega)
  have hlength : putUint64 (w₄ ++ List.replicate (totalLen - 100) 0) (0 + 4 + 32 + 32 + 32 + 24) N =
      .ok (w₅ ++ List.replicate (totalLen - 132) 0) := by
    rw [hw₅]
    exact putUint64_next hlen₄ (by omega)
  have hrecipients : fill (fun buf pos (addr : Address) =>
      copyAt buf (pos + 12) (Bytes.toBytes 20 addr.toNat)) 32 recipients
        (w₅ ++ List.replicate (totalLen - 132) 0) (0 + 4 + 32 + 32 + 32 + 32) =
      .ok (w₆ ++ List.replicate (32 + 32 * N) 0, 132 + 32 * N) := by
    rw [hw₆, ← hN]
    exact fill_next fills_copyAddress length_slotAddress hlen₅ (by omega)
  have hlength' : putUint64 (w₆ ++ List.replicate (32 + 32 * N) 0) (132 + 32 * N + 24) N =
      .ok (w₇ ++ List.replicate (32 * N) 0) := by
    rw [hw₇]
    exact putUint64_next hlen₆ rfl
  rw [← hw₁] at hselector
  rw [← hw₁, ← hw₂, ← hw₃, ← hw₄, ← hw₅, ← hw₆, ← hw₇]
  simp only [hselector, hleague, hoffsetRecipients, hoffsetAmounts, hlength, hrecipients, hlength',
    bind, Except.bind, pure, Except.pure]
  have hcursor : 132 + 32 * N + 32 = 164 + 32 * N := by omega
  rw [hcursor]
  by_cases hmore : N < amounts.length
  · have hfull := (fills_putUint64 fun amount : Int64 => amount.toUInt64.toNat).fill_error
      (fun _ => length_slotUint64 _) (fun buf _ => putUint64_full buf _) amounts w₇ hmore
    rw [hlen₇] at hfull
    rw [if_pos hmore, hfull]
    rfl
  · have hleft : 32 * N = 32 * amounts.length + 32 * (N - amounts.length) := by omega
    have hamounts := fill_next (fills_putUint64 fun amount : Int64 => amount.toUInt64.toNat)
      (fun _ => length_slotUint64 _) hlen₇ hleft
    rw [if_neg hmore, hamounts]

/-! ## What the contract reads -/

/-- The word of an amount that is not negative is the amount. -/
theorem abiWord_of_nonneg {amount : Int64} (h : 0 ≤ amount.toInt) :
    ((abiWord amount).val : ℤ) = amount.toInt := by
  have hlt := amount.toInt_lt
  rw [abiWord_emod]
  omega

/-- The size of the call data of a payout. -/
theorem length_encodeDistributePayoutCall
    (h : encodeDistributePayoutCall keccak256 leagueID recipients amounts = .ok data)
    (hlength : recipients.length = amounts.length) :
    data.length = 4 + 32 * (5 + 2 * recipients.length) := by
  obtain ⟨-, hdata⟩ := encodeDistributePayoutCall_words h hlength
  rw [hdata]
  simp only [List.length_append, length_distributePayoutSelector, Bytes.length_toBytes,
    Calldata.length_words, List.length_map]
  omega

/-- The contract reads what `encodePaymentsCall` wrote. -/
theorem decodePaymentsCall_encodePaymentsCall (keccak256 : GoBytes → Bytes32) (leagueId : Bytes32)
    (member : Address) :
    decodePaymentsCall keccak256 (encodePaymentsCall keccak256 leagueId member) =
      some (leagueId, member) := by
  obtain ⟨data, hdata⟩ : ∃ data, data = encodePaymentsCall keccak256 leagueId member := ⟨_, rfl⟩
  rw [← hdata]
  rw [encodePaymentsCall, slotAddress_eq, List.append_assoc] at hdata
  have hselector : (functionSelector keccak256 "payments(bytes32,address)").length = 4 :=
    length_functionSelector _
  have hsize : data.length = 68 := by
    rw [hdata]
    simp only [List.length_append, hselector, Bytes.length_toBytes]
  have htake : data.take 4 = functionSelector keccak256 "payments(bytes32,address)" := by
    rw [hdata]
    exact List.take_left' hselector
  have hleague : Calldata.load data 4 = leagueId.toNat :=
    Calldata.load_eq hdata hselector leagueId.isLt
  rw [← List.append_assoc, ← List.append_nil (Bytes.toBytes 32 member.toNat)] at hdata
  have hmember : Calldata.load data 36 = member.toNat :=
    Calldata.load_eq hdata (by simp [hselector]) (member.isLt.trans (by decide))
  have haddress := member.isLt
  unfold decodePaymentsCall
  rw [hmember, hleague, if_neg (by simp only [htake, hsize, ne_eq, not_true, false_or]; omega)]
  simp

/-- The contract reads what `encodeLeagueTotalsCall` wrote. -/
theorem decodeLeagueTotalsCall_encodeLeagueTotalsCall (keccak256 : GoBytes → Bytes32)
    (leagueId : Bytes32) :
    ∃ data, encodeLeagueTotalsCall keccak256 leagueId = .ok data ∧
      data.length = 36 ∧ decodeLeagueTotalsCall keccak256 data = some leagueId := by
  have hselector : (functionSelector keccak256 "leagueTotals(bytes32)").length = 4 :=
    length_functionSelector _
  have hrest : 36 = (functionSelector keccak256 "leagueTotals(bytes32)").length + 32 := by omega
  have hcopy := copyAt_next List.length_nil hrest
  rw [List.nil_append, List.nil_append] at hcopy
  have hrest' : 32 = (Bytes.toBytes 32 leagueId.toNat).length + 0 := by rw [Bytes.length_toBytes]
  have hleague := copyAt_next hselector hrest'
  rw [List.replicate_zero, List.append_assoc] at hleague
  refine ⟨functionSelector keccak256 "leagueTotals(bytes32)" ++
    (Bytes.toBytes 32 leagueId.toNat ++ []), ?_, ?_, ?_⟩
  · unfold encodeLeagueTotalsCall
    rw [makeBytes, if_neg (by decide)]
    simp only [hcopy, hleague, bind, Except.bind]
  · simp [hselector]
  · have hload : Calldata.load (functionSelector keccak256 "leagueTotals(bytes32)" ++
        (Bytes.toBytes 32 leagueId.toNat ++ [])) 4 = leagueId.toNat :=
      Calldata.load_eq rfl hselector leagueId.isLt
    unfold decodeLeagueTotalsCall
    rw [hload, if_neg (by simp [List.take_left' hselector, hselector])]
    simp

/-- Different amounts have different words. -/
theorem abiWord_injective : Function.Injective abiWord := by
  intro a b h
  have hword := congrArg (fun w : UInt256 => (w.val : ℤ)) h
  simp only [abiWord_emod] at hword
  have ha := a.toInt_lt
  have hb := b.toInt_lt
  have ha' := a.le_toInt
  have hb' := b.le_toInt
  exact Int64.toInt_inj.mp (by omega)

/-- **Call data is exact.** For as many amounts as recipients, none of them negative, the writes of
`encodeDistributePayoutCall` stay inside the buffer, unless there is no buffer of that length, and
the contract reads the arguments from its bytes. It does so from the other two calls as well, so
different arguments never give the same call. -/
theorem calls_exact (keccak256 : GoBytes → Bytes32) :
    (∀ (leagueID : Bytes32) (recipients : List Address) (amounts : List Int64),
      recipients.length = amounts.length → (∀ a ∈ amounts, 0 ≤ a.toInt) →
      if 2 ^ 63 ≤ 4 + 32 * (5 + 2 * recipients.length) then
        fillDistributePayoutCall keccak256 leagueID recipients amounts =
          .error (.panic "makeslice: len out of range")
      else ∃ data words,
        fillDistributePayoutCall keccak256 leagueID recipients amounts = .ok data ∧
        data.length = 4 + 32 * (5 + 2 * recipients.length) ∧
        decodeDistributePayoutCall keccak256 data = some (leagueID, recipients, words) ∧
        words.map (fun w => (w.val : ℤ)) = amounts.map Int64.toInt) ∧
    (∀ leagueId member,
      decodePaymentsCall keccak256 (encodePaymentsCall keccak256 leagueId member) =
      some (leagueId, member)) ∧
    (∀ leagueId, ∃ data, encodeLeagueTotalsCall keccak256 leagueId = .ok data ∧
      data.length = 36 ∧ decodeLeagueTotalsCall keccak256 data = some leagueId) ∧
    (∀ (leagueID leagueID' : Bytes32) (recipients recipients' : List Address)
      (amounts amounts' : List Int64) (data : GoBytes),
      recipients.length = amounts.length → recipients'.length = amounts'.length →
      fillDistributePayoutCall keccak256 leagueID recipients amounts = .ok data →
      fillDistributePayoutCall keccak256 leagueID' recipients' amounts' = .ok data →
      leagueID = leagueID' ∧ recipients = recipients' ∧ amounts = amounts') ∧
    (∀ leagueId leagueId' member member', encodePaymentsCall keccak256 leagueId member =
      encodePaymentsCall keccak256 leagueId' member' → leagueId = leagueId' ∧ member = member') ∧
    ∀ leagueId leagueId', encodeLeagueTotalsCall keccak256 leagueId =
      encodeLeagueTotalsCall keccak256 leagueId' → leagueId = leagueId' := by
  refine ⟨?_, decodePaymentsCall_encodePaymentsCall keccak256,
    decodeLeagueTotalsCall_encodeLeagueTotalsCall keccak256, ?_, ?_, ?_⟩
  · intro leagueID recipients amounts hlength hamounts
    split_ifs with hsize
    · rw [fillDistributePayoutCall_eq]
      unfold encodeDistributePayoutCall
      dsimp only
      rw [if_pos (by omega)]
    · obtain ⟨data, hdata⟩ : ∃ data,
          encodeDistributePayoutCall keccak256 leagueID recipients amounts = .ok data :=
        exists_encodeDistributePayoutCall hlength (by omega)
      refine ⟨data, amounts.map abiWord, fillDistributePayoutCall_eq.trans hdata,
        length_encodeDistributePayoutCall hdata hlength,
        decode_encodeDistributePayoutCall hdata hlength, ?_⟩
      rw [List.map_map]
      exact List.map_congr_left fun a ha => abiWord_of_nonneg (hamounts a ha)
  · intro leagueID leagueID' recipients recipients' amounts amounts' data hlength hlength' h h'
    rw [fillDistributePayoutCall_eq] at h h'
    have hsame := (decode_encodeDistributePayoutCall h hlength).symm.trans
      (decode_encodeDistributePayoutCall h' hlength')
    simp only [Option.some.injEq, Prod.mk.injEq] at hsame
    obtain ⟨hleague, hrecipients, hwords⟩ := hsame
    exact ⟨hleague, hrecipients, abiWord_injective.list_map hwords⟩
  · intro leagueId leagueId' member member' h
    have hsame := decodePaymentsCall_encodePaymentsCall keccak256 leagueId member
    rw [h, decodePaymentsCall_encodePaymentsCall] at hsame
    simp only [Option.some.injEq, Prod.mk.injEq] at hsame
    exact ⟨hsame.1.symm, hsame.2.symm⟩
  · intro leagueId leagueId' h
    obtain ⟨data, hdata, -, hdecode⟩ :=
      decodeLeagueTotalsCall_encodeLeagueTotalsCall keccak256 leagueId
    obtain ⟨data', hdata', -, hdecode'⟩ :=
      decodeLeagueTotalsCall_encodeLeagueTotalsCall keccak256 leagueId'
    obtain rfl : data = data' := Except.ok.inj (hdata.symm.trans (h.trans hdata'))
    exact Option.some.inj (hdecode.symm.trans hdecode')

/-- `calls_exact` for one recipient that is paid twice. -/
theorem calls_exact_sample : ∃ data words,
    fillDistributePayoutCall (fun _ => 0x5e) 0xaa [0x9, 0x9] [30, 0] = .ok data ∧
      data.length = 292 ∧
      decodeDistributePayoutCall (fun _ => 0x5e) data = some (0xaa, [0x9, 0x9], words) ∧
      words.map (fun w => (w.val : ℤ)) = [30, 0] := by
  have hcall := (calls_exact fun _ => 0x5e).1 0xaa [0x9, 0x9] [30, 0] rfl (by simp)
  rw [if_neg (by decide)] at hcall
  exact hcall

end Wagr
