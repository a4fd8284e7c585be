import Wagr.Service.Calls

/-!
# Login requests

`GetOrCreateNonce` and `VerifySignature` of the auth service with the signature code of
`hedera.go`. The cryptographic primitives are parameters; slicing out of range is an error
of its own, because in the source it is a panic and not a returned error.
-/

namespace Wagr

open Interaction

/-- The cryptographic library functions. -/
structure Crypto where
  /-- `crypto.DecompressPubkey`. -/
  decompressPubkey : List (BitVec 8) → Option (List (BitVec 8))
  /-- `crypto.Keccak256`. -/
  keccak256 : List (BitVec 8) → List (BitVec 8)
  /-- `ecdsa.Verify` of a key, a hash and the two halves of the signature. -/
  ecdsaVerify : (pubKey hash : List (BitVec 8)) → (r s : ℕ) → Bool
  /-- `ed25519.Verify`. -/
  ed25519Verify : (pubKey message sig : List (BitVec 8)) → Bool

/-- The panic of a slice expression that is out of range. -/
def slicePanic : GoError := .panic "slice bounds out of range"

/-- The bytes of a string. -/
def utf8Bytes (s : String) : List (BitVec 8) := s.toUTF8.data.toList.map UInt8.toBitVec

/-- Zeros in front of the bytes up to the length 32; longer inputs panic. -/
def padTo32 (bytes : List (BitVec 8)) : Except GoError (List (BitVec 8)) :=
  if bytes.length ≤ 32 then .ok (List.replicate (32 - bytes.length) 0 ++ bytes)
  else .error slicePanic

/-- `normalizeSignature`. -/
def normalizeSignature (sigBytes : List (BitVec 8)) : Except GoError (List (BitVec 8)) := do
  let sigBytes := if sigBytes.length = 65 then sigBytes.take 64 else sigBytes
  let rPad ← padTo32 (sigBytes.take (sigBytes.length / 2))
  let sPad ← padTo32 (sigBytes.drop (sigBytes.length / 2))
  return rPad ++ sPad

/-- The signed bytes: Hedera's prefix with the number of characters, then the message. -/
def prefixedMessage (message : String) : List (BitVec 8) :=
  utf8Bytes ("\x19Hedera Signed Message:\n" ++ toString message.length) ++ utf8Bytes message

/-- Decode a key in hexadecimal, with or without `0x`. -/
def decodeKey (message pubKeyHex : String) : Except GoError (List (BitVec 8)) :=
  match Bytes.decodeHex (trimHexPrefix pubKeyHex.toList) with
  | none => .error (.text message [])
  | some bytes => .ok bytes

/-- `verifyECDSASignature`. -/
def verifyECDSASignature (crypto : Crypto) (pubKeyHex message : String)
    (sigBytes : List (BitVec 8)) : Except GoError Bool := do
  let pubKeyBytes ← decodeKey "decoding public key: %w" pubKeyHex
  match crypto.decompressPubkey pubKeyBytes with
  | none => throw (.text "parsing public key: %w" [])
  | some pubKey =>
    let msgHash := crypto.keccak256 (prefixedMessage message)
    if sigBytes.length < 32 then throw slicePanic
    else
      let r := Bytes.bigEndian (sigBytes.take 32)
      let s := Bytes.bigEndian (sigBytes.drop 32)
      return crypto.ecdsaVerify pubKey msgHash r s

/-- `verifyED25519`. -/
def verifyED25519 (crypto : Crypto) (pubKeyHex message : String) (sigBytes : List (BitVec 8)) :
    Except GoError Bool := do
  let pubKeyBytes ← decodeKey "error decoding public key: %w" pubKeyHex
  if pubKeyBytes.length ≠ 32 then
    throw (.text "invalid ED25519 public key length: %d" [toString pubKeyBytes.length])
  else if sigBytes.length ≠ 64 then
    throw (.text "invalid ED25519 signature length: %d" [toString sigBytes.length])
  else return crypto.ed25519Verify pubKeyBytes (prefixedMessage message) sigBytes

/-- The part of `verifyHederaSignature` after the key lookup. -/
def checkSignature (crypto : Crypto) (keyInfo : HederaKeyInfo) (message signature : String) :
    Except GoError Bool :=
  match Bytes.decodeHex signature.toList with
  | none => .error (.text "invalid signature hex: %w" [])
  | some sigBytes => do
    let sigBytes ← normalizeSignature sigBytes
    if keyInfo.keyType = "ECDSA_SECP256K1" then
      verifyECDSASignature crypto keyInfo.publicKeyHex message sigBytes
    else if keyInfo.keyType = "ED25519" then
      verifyED25519 crypto keyInfo.publicKeyHex message sigBytes
    else throw (.text "unsupported key type: %s" [keyInfo.keyType])

/-- `getHederaPublicKey`. -/
def getHederaPublicKey (accountID : String) : Go HederaKeyInfo := do
  let key ← ExceptT.mk (perform (.mirrorKey accountID))
  if key.keyType ≠ "ECDSA_SECP256K1" ∧ key.keyType ≠ "ED25519" then
    throw (.text "account key type is %s" [key.keyType])
  else return key

/-- `verifyHederaSignature`. -/
def verifyHederaSignature (crypto : Crypto) (message signature address : String) : Go Bool := do
  let keyInfo ← wrapErr "error fetching public key" (getHederaPublicKey address)
  ofResult (checkSignature crypto keyInfo message signature)

/-- The message a wallet is asked to sign for a nonce. -/
def loginMessage (nonce : String) : String :=
  "Sign this message to authenticate with WAGR:\n\nNonce: " ++ nonce

/-- `NonceResponse`. -/
structure NonceResponse where
  nonce : String
  message : String

/-- `GetOrCreateNonce`. -/
def getOrCreateNonce (walletAddress walletType : String) : Go NonceResponse := do
  let walletType := if walletType = "" then "hedera" else walletType
  if walletType ≠ "hedera" then throw (.text "unsupported wallet type: %s" [walletType])
  else
    let nonce ← wrapErr "failed to generate nonce" (ExceptT.mk (perform .generateNonce))
    let _ ← wrapErr "failed to upsert user" (exec (.upsertNonce walletAddress walletType nonce))
    return { nonce := nonce, message := loginMessage nonce }

/-- `VerifyRequest`. -/
structure VerifyRequest where
  walletAddress : String
  message : String
  signature : String
  deriving DecidableEq

/-- `AuthResponse`; the token is represented by the user and wallet it is issued for. -/
structure AuthResponse where
  userID : String
  walletAddress : String
  walletType : String

/-- The answer to the signature check; only a panic gets past it. -/
def requireValid : Except GoError Bool → Except GoError Unit
  | .ok true => .ok ()
  | .error (.panic message) => .error (.panic message)
  | _ => .error .invalidSignature

/-- `VerifySignature`. -/
def verifySignature (crypto : Crypto) (req : VerifyRequest) : Go AuthResponse := do
  match ← ExceptT.lift (query (.userByWallet req.walletAddress)).run with
  | .ok (some user) =>
    let valid ← ExceptT.lift
      (verifyHederaSignature crypto req.message req.signature req.walletAddress).run
    ofResult (requireValid valid)
    let newNonce ← wrapErr "failed to generate new nonce" (ExceptT.mk (perform .generateNonce))
    let _ ← wrapErr "failed to update nonce" (exec (.rotateNonce user.id newNonce))
    return { userID := user.id, walletAddress := user.walletAddress, walletType := user.walletType }
  | _ => throw .userNotFound

end Wagr
