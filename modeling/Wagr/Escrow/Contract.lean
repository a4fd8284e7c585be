import Wagr.Escrow.Token
import Mathlib.Logic.Relation

/-!
# The LeagueEscrow contract

The four external functions of `LeagueEscrow.sol`. The effects on the contract's own
storage are separate functions, so that the backend's model can use them without a token;
the full functions add the token calls and the event log. A call that reverts leaves no
trace, so a run consists of the calls that succeed and of token activity of others.
-/

namespace Wagr

/-- Why a call to the contract reverts. -/
inductive Revert
  /-- A `require` failed. -/
  | require (reason : String)
  /-- Checked arithmetic overflowed. -/
  | panic
  /-- The token call reverted. -/
  | token (e : TokenError)
  deriving DecidableEq, Repr

/-- Checked `a + b`. -/
def checkedAdd (a b : UInt256) : Except Revert UInt256 :=
  if h : a.val + b.val < 2 ^ 256 then .ok ⟨a.val + b.val, h⟩ else .error .panic

/-- Checked `a - b`. -/
def checkedSub (a b : UInt256) : Except Revert UInt256 :=
  if b.val ≤ a.val then .ok ⟨a.val - b.val, by omega⟩ else .error .panic

/-- The two mappings of the contract. -/
structure Storage where
  /-- League, then member: the amount paid. -/
  payments : Bytes32 → Address → UInt256
  /-- League: the amount collected. -/
  leagueTotals : Bytes32 → UInt256

namespace Storage

/-- `payments[leagueId][member] = value`. -/
def setPayment (s : Storage) (leagueId : Bytes32) (member : Address) (value : UInt256) : Storage :=
  { s with
    payments := Function.update s.payments leagueId
      (Function.update (s.payments leagueId) member value) }

/-- `leagueTotals[leagueId] = value`. -/
def setTotal (s : Storage) (leagueId : Bytes32) (value : UInt256) : Storage :=
  { s with leagueTotals := Function.update s.leagueTotals leagueId value }

/-- What `payEntryFee` does before the token call. -/
def payEntryFee (s : Storage) (sender : Address) (leagueId : Bytes32) (amount : UInt256) :
    Except Revert Storage := do
  if amount = 0 then throw (.require "amount must be > 0")
  let paid ← checkedAdd (s.payments leagueId sender) amount
  let total ← checkedAdd (s.leagueTotals leagueId) amount
  return (s.setPayment leagueId sender paid).setTotal leagueId total

/-- What `claimRefund` does before the token call, with the amount it read. -/
def claimRefund (s : Storage) (sender : Address) (leagueId : Bytes32) :
    Except Revert (UInt256 × Storage) := do
  let amount := s.payments leagueId sender
  if amount = 0 then throw (.require "nothing to refund")
  let total ← checkedSub (s.leagueTotals leagueId) amount
  return (amount, (s.setPayment leagueId sender 0).setTotal leagueId total)

/-- The loop `total += amounts[i]`. -/
def sumAmounts (amounts : List UInt256) : Except Revert UInt256 := amounts.foldlM checkedAdd 0

/-- What `distributePayout` does before its transfers. -/
def distributePayout (s : Storage) (leagueId : Bytes32) (recipients : List Address)
    (amounts : List UInt256) : Except Revert Storage := do
  if recipients.length ≠ amounts.length then throw (.require "length mismatch")
  let total ← sumAmounts amounts
  if s.leagueTotals leagueId < total then throw (.require "payout exceeds league escrow")
  let left ← checkedSub (s.leagueTotals leagueId) total
  return s.setTotal leagueId left

end Storage

/-- The events of the contract. -/
inductive Event
  | entryFeePaid (leagueId : Bytes32) (member : Address) (amount : UInt256)
  | payoutDistributed (leagueId : Bytes32) (recipient : Address) (amount : UInt256)
  | refundClaimed (leagueId : Bytes32) (member : Address) (amount : UInt256)
  deriving DecidableEq

/-- The immutables of a deployed contract, its own address, and the code behind `usdc`. -/
structure Deployment (T : Type) where
  /-- The contract at the address `usdcAddress`. -/
  usdc : ERC20 T
  /-- `usdc`. -/
  usdcAddress : Address
  /-- `owner`. -/
  owner : Address
  /-- `address(this)`. -/
  self : Address

/-- The chain state the contract is about. -/
structure Escrow (T : Type) where
  /-- The contract's storage. -/
  storage : Storage
  /-- The state of the token contract. -/
  token : T
  /-- The events emitted so far, oldest first. -/
  events : List Event := []

/-- A call to one of the external functions. The answer of a token other than USDC comes with
the call that reaches it. -/
inductive EscrowCall
  | payEntryFee (leagueId : Bytes32) (amount : UInt256)
  | claimRefund (leagueId : Bytes32)
  | distributePayout (leagueId : Bytes32) (recipients : List Address) (amounts : List UInt256)
  | emergencyWithdraw (token : Address) (amount : UInt256) (answer : Except TokenError Bool)

namespace Escrow

variable {T : Type} (d : Deployment T) (e : Escrow T)

/-- The response codes the constructor accepts. -/
def rcSuccess : Int64 := 22

@[inherit_doc rcSuccess] def rcAlreadyAssociated : Int64 := 194

/-- The constructor, given the answer `rc` of `associateToken`. -/
def deploy (rc : Int64) (token : T) : Except Revert (Escrow T) :=
  if rc = rcSuccess ∨ rc = rcAlreadyAssociated then
    .ok { storage := ⟨fun _ _ => 0, fun _ => 0⟩, token := token }
  else .error (.require "USDC association failed")

/-- The result of a token call under `require(ok, reason)`. -/
def requireOk (reason : String) : Except TokenError (Bool × T) → Except Revert T
  | .ok (true, token) => .ok token
  | .ok (false, _) => .error (.require reason)
  | .error e => .error (.token e)

/-- `payEntryFee`. -/
def payEntryFee (sender : Address) (leagueId : Bytes32) (amount : UInt256) :
    Except Revert (Escrow T) := do
  let storage ← e.storage.payEntryFee sender leagueId amount
  let token ← requireOk "USDC transfer failed"
    (d.usdc.transferFrom e.token d.self sender d.self amount)
  return ⟨storage, token, e.events ++ [.entryFeePaid leagueId sender amount]⟩

/-- `claimRefund`. -/
def claimRefund (sender : Address) (leagueId : Bytes32) : Except Revert (Escrow T) := do
  let (amount, storage) ← e.storage.claimRefund sender leagueId
  let token ← requireOk "refund transfer failed" (d.usdc.transfer e.token d.self sender amount)
  return ⟨storage, token, e.events ++ [.refundClaimed leagueId sender amount]⟩

/-- The transfer loop of `distributePayout` over recipients and amounts. -/
def payRecipients (leagueId : Bytes32) (e : Escrow T) :
    List (Address × UInt256) → Except Revert (Escrow T)
  | [] => .ok e
  | (recipient, amount) :: rest => do
    let token ← requireOk "payout transfer failed"
      (d.usdc.transfer e.token d.self recipient amount)
    payRecipients leagueId
      ⟨e.storage, token, e.events ++ [.payoutDistributed leagueId recipient amount]⟩ rest

/-- `modifier onlyOwner`. -/
def onlyOwner (sender : Address) : Except Revert Unit :=
  if sender = d.owner then .ok () else .error (.require "not owner")

/-- `distributePayout`. -/
def distributePayout (sender : Address) (leagueId : Bytes32) (recipients : List Address)
    (amounts : List UInt256) : Except Revert (Escrow T) := do
  onlyOwner d sender
  let storage ← e.storage.distributePayout leagueId recipients amounts
  payRecipients d leagueId { e with storage := storage } (recipients.zip amounts)

/-- `emergencyWithdraw`. -/
def emergencyWithdraw (sender token : Address) (amount : UInt256)
    (answer : Except TokenError Bool) : Except Revert (Escrow T) := do
  onlyOwner d sender
  if token = d.usdcAddress then
    let usdc ← requireOk "emergency withdrawal failed"
      (d.usdc.transfer e.token d.self d.owner amount)
    return { e with token := usdc }
  else
    let _ ← requireOk "emergency withdrawal failed" (answer.map (·, ()))
    return e

/-- The effect of a call by `sender`. -/
def exec (sender : Address) : EscrowCall → Except Revert (Escrow T)
  | .payEntryFee leagueId amount => payEntryFee d e sender leagueId amount
  | .claimRefund leagueId => claimRefund d e sender leagueId
  | .distributePayout leagueId recipients amounts =>
    distributePayout d e sender leagueId recipients amounts
  | .emergencyWithdraw token amount answer => emergencyWithdraw d e sender token amount answer

end Escrow

variable {T : Type}

/-- One step of the chain: a successful call, or token activity of others. The contract makes no
call to itself and grants no allowance, so others cannot lower its balance. -/
inductive Escrow.Step (d : Deployment T) : Escrow T → Escrow T → Prop
  | call {e e' : Escrow T} {sender : Address} {c : EscrowCall} (hsender : sender ≠ d.self)
      (husdc : ∀ amount answer, c ≠ .emergencyWithdraw d.usdcAddress amount answer)
      (h : e.exec d sender c = .ok e') : Step d e e'
  | outside {e : Escrow T} {token : T}
      (h : d.usdc.balanceOf e.token d.self ≤ d.usdc.balanceOf token d.self) :
      Step d e { e with token := token }

/-- The states of a deployed contract. -/
def Escrow.Reachable (d : Deployment T) (e : Escrow T) : Prop :=
  ∃ rc token e₀, Escrow.deploy rc token = .ok e₀ ∧ Relation.ReflTransGen (Escrow.Step d) e₀ e

/-- What a member has paid into a league. -/
def paidIn (events : List Event) (leagueId : Bytes32) (member : Address) : ℕ :=
  (events.map fun
    | .entryFeePaid l m amount => if l = leagueId ∧ m = member then amount.val else 0
    | _ => 0).sum

/-- What a member has taken back from a league. -/
def tookBack (events : List Event) (leagueId : Bytes32) (member : Address) : ℕ :=
  (events.map fun
    | .refundClaimed l m amount => if l = leagueId ∧ m = member then amount.val else 0
    | _ => 0).sum

/-- What has been distributed for a league. -/
def distributed (events : List Event) (leagueId : Bytes32) : ℕ :=
  (events.map fun
    | .payoutDistributed l _ amount => if l = leagueId then amount.val else 0
    | _ => 0).sum

end Wagr
