import Wagr.Library.Bytes

/-!
# Errors and identifiers shared by all parts

The backend's error values with `errors.Is`, and the fixed-width values that the Go code,
the web client and the contract exchange: EVM addresses, 32-byte league keys, and the
conversions that produce them from account IDs and UUIDs.
-/

namespace Wagr

/-- A 20-byte EVM address. -/
abbrev Address := BitVec 160

/-- A 32-byte word used as a key. -/
abbrev Bytes32 := BitVec 256

/-- Go errors: the sentinels of `models.go` and of the auth service, errors with a text of
their own (the format string and its arguments), errors that wrap another with `%w`, and run-time
panics, which unwind past every `err != nil`. -/
inductive GoError
  | notCommissioner
  | notLeagueMember
  | alreadyPaid
  | paymentInsufficient
  | leagueAlreadyCancelled
  | leagueNotCancelled
  | missingOperatorKey
  | insufficientEscrow
  | userNotFound
  | invalidSignature
  | text (format : String) (args : List String)
  | wrap (message : String) (cause : GoError)
  | panic (message : String)
  deriving DecidableEq, Repr

/-- `errors.Is`: the error or one it wraps is the target. -/
def GoError.is : GoError → GoError → Bool
  | .wrap message cause, target => decide (.wrap message cause = target) || cause.is target
  | e, target => decide (e = target)

/-- `fmt.Errorf` with `%w` around the error of a step. -/
def wrapErr {m : Type → Type} [Monad m] {α : Type} (message : String) (x : ExceptT GoError m α) :
    ExceptT GoError m α :=
  ExceptT.adapt (GoError.wrap message) x

/-- `strings.TrimPrefix(s, "0x")`. -/
def trimHexPrefix : List Char → List Char
  | '0' :: 'x' :: rest => rest
  | cs => cs

/-- The white space `fmt.Sscanf` skips before a number; a newline is an error instead. -/
def isScanSpace (c : Char) : Bool :=
  (c.toNat ∈ [0x09, 0x0b, 0x0c, 0x0d, 0x20, 0x85, 0xa0, 0x1680, 0x2028, 0x2029, 0x202f, 0x205f,
    0x3000]) || (0x2000 ≤ c.toNat && c.toNat ≤ 0x200a)

/-- `fmt.Sscanf(s, "%d", &num)` for a `uint64`: leading space, then the longest run of decimal
digits; what follows them is ignored. -/
def scanUint64 (cs : List Char) : Option ℕ :=
  let digits := (cs.dropWhile isScanSpace).takeWhile Char.isDigit
  let num := digits.foldl (fun n c => n * 10 + (c.toNat - '0'.toNat)) 0
  if digits = [] then none else if num < 2 ^ 64 then some num else none

/-- The address whose last 8 bytes are the account number; shard and realm are ignored. -/
def hederaAccountToEVM (accountID : String) : Except GoError Address :=
  match accountID.toList.splitOn '.' with
  | [_, _, part] =>
    match scanUint64 part with
    | some num => .ok (BitVec.ofNat 160 num)
    | none => .error (.text "invalid account number %q: %w" [String.ofList part])
  | _ => .error (.text "expected format 0.0.NNNNN, got %q" [accountID])

/-- The 16 bytes of a UUID, left-aligned in 32 bytes and padded with zeros on the right. -/
def uuidToBytes32 (uuidStr : String) : Except GoError Bytes32 :=
  let hexStr := uuidStr.toList.filter (· ≠ '-')
  let size := (String.ofList hexStr).utf8ByteSize
  if size ≠ 32 then
    .error (.text "expected 32-char UUID hex, got %d chars from %q" [toString size, uuidStr])
  else
    match Bytes.decodeHex hexStr with
    | none => .error (.text "failed to decode UUID hex: %w" [])
    | some uuidBytes => .ok (BitVec.ofNat 256 (Bytes.bigEndian uuidBytes * 256 ^ 16))

example : hederaAccountToEVM "0.0.456858" = .ok 456858 := by decide

example : hederaAccountToEVM "0.456858" =
    .error (.text "expected format 0.0.NNNNN, got %q" ["0.456858"]) := by decide

example : uuidToBytes32 "11111111-2222-3333-4444-555555555555" =
    .ok 0x1111111122223333444455555555555500000000000000000000000000000000 := by decide

end Wagr
