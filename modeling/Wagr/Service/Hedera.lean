import Wagr.Service.Calls

/-!
# Mirror node and Hedera client

The helpers of the league service that resolve EVM addresses, read the escrow contract
through the mirror node, and submit `distributePayout`.
-/

namespace Wagr

open Interaction

/-- The configuration of the league service. -/
structure Service where
  /-- `hederaEscrowContractID`. -/
  hederaEscrowContractID : String
  /-- `hederaUSDCTokenID`. -/
  hederaUSDCTokenID : String
  /-- Whether `hederaClient` is set. -/
  hederaClient : Bool

/-- The address in a response of the mirror node, or the long-zero address. -/
def evmAddressOf (accountID : String) (evmAddress : Option String) : Except GoError Address :=
  match evmAddress with
  | none => hederaAccountToEVM accountID
  | some evmAddress =>
    let evmHex := trimHexPrefix evmAddress.toList
    if evmAddress = "" ∨ (String.ofList evmHex).utf8ByteSize ≠ 40 then hederaAccountToEVM accountID
    else
      match Bytes.decodeHex evmHex with
      | none => hederaAccountToEVM accountID
      | some addrBytes => .ok (BitVec.ofNat 160 (Bytes.bigEndian addrBytes))

/-- `getAccountEVMAddress`: every failure of the lookup falls back to the long-zero address. -/
def getAccountEVMAddress (accountID : String) : Go Address :=
  ExceptT.mk (return evmAddressOf accountID (← perform (.mirrorAccount accountID)))

/-- The amount in a result of the mirror node: the last 8 bytes of the word as an `int64`. -/
def decodePayment (result : String) : Except GoError Int64 :=
  let hexResult := trimHexPrefix result.toList
  if (String.ofList hexResult).utf8ByteSize < 64 then
    .error (.text "unexpected result length from mirror node: %q" [result])
  else
    match Bytes.decodeHex (hexResult.drop (hexResult.length - 64)) with
    | none => .error (.text "failed to decode result hex: %w" [])
    | some resultBytes => .ok (UInt64.ofNat (Bytes.bigEndian (resultBytes.drop 24))).toInt64

/-- A result of 32 bytes is read as the last 64 bits of its number. -/
theorem decodePayment_word {result : String} {word : List (BitVec 8)}
    (hword : Bytes.decodeHex (trimHexPrefix result.toList) = some word)
    (hlength : word.length = 32) :
    decodePayment result = .ok (UInt64.ofNat (Bytes.bigEndian word)).toInt64 := by
  have hdigits := Bytes.decodeHex_length hword
  have hsize := Bytes.utf8ByteSize_of_decodeHex hword
  have hall : (trimHexPrefix result.toList).length - 64 = 0 := by omega
  have hlow : Bytes.bigEndian (word.drop 24) = Bytes.bigEndian word % 2 ^ 64 := by
    rw [Bytes.bigEndian_drop, List.length_drop, hlength]
    norm_num
  have hmod : UInt64.ofNat (Bytes.bigEndian word % 2 ^ 64) =
      UInt64.ofNat (Bytes.bigEndian word) := by
    apply UInt64.toNat_inj.mp
    rw [UInt64.toNat_ofNat', UInt64.toNat_ofNat', Nat.mod_mod]
  unfold decodePayment
  dsimp only
  rw [if_neg (by omega), hall, List.drop_zero, hword]
  dsimp only
  rw [hlow, hmod]

/-- `readContractPayment`. -/
def readContractPayment (contractAddr : Address) (read : ContractRead) : Go Int64 := do
  let result ← ExceptT.mk (perform (.contractCall contractAddr read))
  ofResult (decodePayment result)

/-- `ExecuteDistributePayout`; `purpose` is only passed on. -/
def executeDistributePayout (purpose : Purpose) (leagueID : Bytes32) (recipients : List Address)
    (amounts : List Int64) : Go String := do
  if recipients.length ≠ amounts.length then
    throw (.text "recipients and amounts length mismatch: %d vs %d"
      [toString recipients.length, toString amounts.length])
  else if recipients = [] then throw (.text "no recipients provided" [])
  else
    let resp ← wrapErr "failed to execute distributePayout"
      (ExceptT.mk (perform (.contractExecute purpose leagueID recipients amounts)))
    let receipt ← wrapErr "failed to get transaction receipt"
      (ExceptT.mk (perform (.getReceipt resp)))
    match receipt with
    | .success => return resp.transactionID
    | .failure status =>
      throw (.text "distributePayout transaction failed with status: %s" [status])

end Wagr
