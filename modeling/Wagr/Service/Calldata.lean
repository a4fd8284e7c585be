import Wagr.Library.Calldata
import Wagr.Service.World

/-!
# The call data of a payout

`encodeDistributePayoutCall` of `hedera_client.go` writes the call to `distributePayout` by hand.
The contract reads it with the checks of the Solidity compiler and finds the same league and
recipients, and the word of each amount.
-/

namespace Wagr

variable (keccak256 : List (BitVec 8) → Bytes32)

/-- The first 4 bytes of the hash of the function's signature. -/
def distributePayoutSelector : List (BitVec 8) :=
  let signature := "distributePayout(bytes32,address[],uint256[])"
  (Bytes.toBytes 32 (keccak256 (signature.toList.map fun c => BitVec.ofNat 8 c.toNat)).toNat).take 4

/-- `binary.BigEndian.PutUint64(buf[pos+24:], n)` on a slot of zeros. -/
def slotUint64 (n : ℕ) : List (BitVec 8) := List.replicate 24 0 ++ Bytes.toBytes 8 n

/-- `copy(buf[pos+12:], addr[:])` on a slot of zeros. -/
def slotAddress (addr : Address) : List (BitVec 8) :=
  List.replicate 12 0 ++ Bytes.toBytes 20 addr.toNat

/-- `encodeDistributePayoutCall`; it panics if the buffer has no size or is too small for the
amounts, and fewer amounts leave zeros at the end. -/
def encodeDistributePayoutCall (leagueID : Bytes32) (recipients : List Address)
    (amounts : List Int64) : Except GoError (List (BitVec 8)) :=
  let N := recipients.length
  let offsetRecipients := 96
  let offsetAmounts := 96 + 32 + N * 32
  let totalLen := 4 + 32 + 32 + 32 + 32 + N * 32 + 32 + N * 32
  if 2 ^ 63 ≤ totalLen then .error (.panic "makeslice: len out of range")
  else if N < amounts.length then .error (.panic "slice bounds out of range")
  else .ok (distributePayoutSelector keccak256 ++ Bytes.toBytes 32 leagueID.toNat ++
    slotUint64 offsetRecipients ++ slotUint64 offsetAmounts ++
    slotUint64 N ++ recipients.flatMap slotAddress ++
    slotUint64 N ++ amounts.flatMap (fun amount => slotUint64 amount.toUInt64.toNat) ++
    List.replicate (32 * (N - amounts.length)) 0)

/-- How the contract reads the arguments of `distributePayout`, `none` if it reverts. -/
def decodeDistributePayoutCall (data : List (BitVec 8)) :
    Option (Bytes32 × List Address × List UInt256) := do
  if data.take 4 ≠ distributePayoutSelector keccak256 ∨ data.length < 4 + 96 then none
  else
    let leagueId := Calldata.load data 4
    let offsetRecipients := Calldata.load data 36
    let offsetAmounts := Calldata.load data 68
    if 2 ^ 64 ≤ offsetRecipients ∨ 2 ^ 64 ≤ offsetAmounts then none
    else
      let recipients ← Calldata.loadArray data (4 + offsetRecipients)
      let amounts ← Calldata.loadArray data (4 + offsetAmounts)
      if recipients.any fun recipient => 2 ^ 160 ≤ recipient then none
      else return (BitVec.ofNat 256 leagueId, recipients.map (BitVec.ofNat 160),
        amounts.map (Fin.ofNat (2 ^ 256)))

/-- A slot with a `uint64` is the word of the number. -/
theorem slotUint64_eq {n : ℕ} (hn : n < 2 ^ 64) : slotUint64 n = Bytes.toBytes 32 n :=
  Bytes.zeros_append_toBytes (j := 24) (k := 8) hn

/-- A slot with an address is its word. -/
theorem slotAddress_eq (addr : Address) : slotAddress addr = Bytes.toBytes 32 addr.toNat :=
  Bytes.zeros_append_toBytes (j := 12) (k := 20) addr.isLt

variable {keccak256} {leagueID : Bytes32} {recipients : List Address} {amounts : List Int64}
  {data : List (BitVec 8)}

@[simp] theorem length_distributePayoutSelector :
    (distributePayoutSelector keccak256).length = 4 := by
  simp [distributePayoutSelector]

/-- With as many amounts as recipients the call is encoded, unless the buffer has no size. -/
theorem exists_encodeDistributePayoutCall (hlength : recipients.length = amounts.length)
    (hsize : 4 + 32 * (5 + 2 * recipients.length) < 2 ^ 63) :
    ∃ data, encodeDistributePayoutCall keccak256 leagueID recipients amounts = .ok data := by
  unfold encodeDistributePayoutCall
  dsimp only
  rw [if_neg (by omega), if_neg (by omega)]
  exact ⟨_, rfl⟩

/-- The call data is a selector and words. -/
theorem encodeDistributePayoutCall_words
    (h : encodeDistributePayoutCall keccak256 leagueID recipients amounts = .ok data)
    (hlength : recipients.length = amounts.length) :
    recipients.length < 2 ^ 57 ∧ data = distributePayoutSelector keccak256 ++
      (Bytes.toBytes 32 leagueID.toNat ++ (Bytes.toBytes 32 96 ++
      (Bytes.toBytes 32 (128 + recipients.length * 32) ++
      (Bytes.toBytes 32 recipients.length ++ (Calldata.words (recipients.map BitVec.toNat) ++
      (Bytes.toBytes 32 amounts.length ++
        Calldata.words (amounts.map fun a => (abiWord a).val))))))) := by
  unfold encodeDistributePayoutCall at h
  dsimp only at h
  split_ifs at h with hsize hshort
  have hbound : recipients.length < 2 ^ 57 := by omega
  refine ⟨hbound, ?_⟩
  have hrecipients : recipients.flatMap slotAddress =
      Calldata.words (recipients.map BitVec.toNat) := by
    rw [Calldata.words, List.flatMap_map]
    exact List.flatMap_congr fun a _ => slotAddress_eq a
  have hamounts : (amounts.flatMap fun amount => slotUint64 amount.toUInt64.toNat) =
      Calldata.words (amounts.map fun a => (abiWord a).val) := by
    rw [Calldata.words, List.flatMap_map]
    exact List.flatMap_congr fun a _ => slotUint64_eq a.toUInt64.toNat_lt
  have hdata := (Except.ok.inj h).symm
  rw [hrecipients, hamounts, slotUint64_eq (by omega), slotUint64_eq (by omega),
    slotUint64_eq (by omega), hlength, Nat.sub_self, Nat.mul_zero, List.replicate_zero,
    List.append_nil] at hdata
  simpa [hlength, List.append_assoc] using hdata

/-- The contract reads what was encoded: the word of each amount. -/
theorem decode_encodeDistributePayoutCall
    (h : encodeDistributePayoutCall keccak256 leagueID recipients amounts = .ok data)
    (hlength : recipients.length = amounts.length) :
    decodeDistributePayoutCall keccak256 data = some
      (leagueID, recipients, amounts.map abiWord) := by
  obtain ⟨hbound, hdata⟩ := encodeDistributePayoutCall_words h hlength
  have hselector : (distributePayoutSelector keccak256).length = 4 :=
    length_distributePayoutSelector
  have hN : recipients.length = (recipients.map BitVec.toNat).length := (List.length_map _).symm
  have hM : amounts.length = (amounts.map fun a => (abiWord a).val).length :=
    (List.length_map _).symm
  have hsize : data.length = 4 + 32 * 5 + 64 * recipients.length := by
    rw [hdata]
    simp only [List.length_append, hselector, Bytes.length_toBytes, Calldata.length_words,
      List.length_map]
    omega
  have htake : data.take 4 = distributePayoutSelector keccak256 := by
    rw [hdata]
    exact List.take_left' hselector
  -- each part is found behind all parts before it
  have hleague : Calldata.load data 4 = leagueID.toNat :=
    Calldata.load_eq hdata hselector leagueID.isLt
  rw [← List.append_assoc] at hdata
  have hrecipients : Calldata.load data 36 = 96 :=
    Calldata.load_eq hdata (by simp [hselector]) (by decide)
  rw [← List.append_assoc] at hdata
  have hamounts : Calldata.load data 68 = 128 + recipients.length * 32 :=
    Calldata.load_eq hdata (by simp [hselector]) (by omega)
  rw [← List.append_assoc] at hdata
  have hrecipientArray : Calldata.loadArray data (4 + 96) = some (recipients.map BitVec.toNat) := by
    rw [hN] at hdata
    refine Calldata.loadArray_eq hdata (by simp [hselector]) (by omega) fun n hn => ?_
    obtain ⟨a, -, rfl⟩ := List.mem_map.mp hn
    exact a.isLt.trans (by decide)
  have hamountArray : Calldata.loadArray data (4 + (128 + recipients.length * 32)) =
      some (amounts.map fun a => (abiWord a).val) := by
    rw [← List.append_assoc, ← List.append_assoc, hM,
      ← List.append_nil (Calldata.words (amounts.map fun a => (abiWord a).val))] at hdata
    refine Calldata.loadArray_eq hdata ?_ (by omega) fun n hn => ?_
    · simp only [List.length_append, hselector, Bytes.length_toBytes, Calldata.length_words, ← hN]
      omega
    · obtain ⟨a, -, rfl⟩ := List.mem_map.mp hn
      exact (abiWord a).isLt
  have hshort : (recipients.map BitVec.toNat).any (fun recipient => 2 ^ 160 ≤ recipient) =
      false := by
    rw [List.any_eq_false]
    intro n hn
    obtain ⟨a, -, rfl⟩ := List.mem_map.mp hn
    have ha := a.isLt
    simp only [decide_eq_true_eq]
    omega
  have haddresses : (recipients.map BitVec.toNat).map (BitVec.ofNat 160) = recipients := by
    simp [Function.comp_def]
  have hwords : (amounts.map fun a => (abiWord a).val).map (Fin.ofNat (2 ^ 256)) =
      amounts.map abiWord := by
    rw [List.map_map]
    exact List.map_congr_left fun a _ => Fin.ofNat_val_eq_self (abiWord a)
  unfold decodeDistributePayoutCall
  rw [if_neg (by simp only [htake, hsize, ne_eq, not_true, false_or]; omega)]
  simp only [hleague, hrecipients, hamounts, hrecipientArray, hamountArray]
  rw [if_neg (by omega)]
  simp only [Option.bind_eq_bind, Option.bind_some, hshort, haddresses, hwords,
    Bool.false_eq_true, if_false, BitVec.ofNat_toNat, BitVec.setWidth_eq]
  rfl

end Wagr
