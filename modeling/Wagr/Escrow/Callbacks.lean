import Wagr.Escrow.Contract

/-!
# Calls inside token calls

A token may let other parties act before and after it moves an amount, and they may call the
escrow again. A call tree gives a call of the escrow together with everything that happens
inside its token calls. The functions of the contract are executed over such trees; what a
failing call has done is rolled back, whoever catches the failure.
-/

namespace Wagr

/-- A party other than the escrow itself, which makes no calls to itself. -/
abbrev Outsider (self : Address) : Type := { sender : Address // sender ≠ self }

mutual

/-- A call of the escrow, with what happens inside its token calls. -/
inductive CallTree (T : Type) (self : Address) : Type
  | payEntryFee (sender : Outsider self) (leagueId : Bytes32) (amount : UInt256)
      (before after : Forest T self)
  | claimRefund (sender : Outsider self) (leagueId : Bytes32) (before after : Forest T self)
  | distributePayout (sender : Outsider self) (leagueId : Bytes32) (recipients : List Address)
      (amounts : List UInt256) (inside : Hooks T self)

/-- What other parties do one after the other: calls of the escrow, which may fail, attempts that
are rolled back as a whole, and changes of the token's state. -/
inductive Forest (T : Type) (self : Address) : Type
  | done
  | call (t : CallTree T self) (rest : Forest T self)
  | rolledBack (attempt : Forest T self) (rest : Forest T self)
  | outside (token : T) (rest : Forest T self)

/-- What happens before and after each of the transfers of a payout; nothing after the last
entry. -/
inductive Hooks (T : Type) (self : Address) : Type
  | done
  | transfer (before after : Forest T self) (rest : Hooks T self)

end

/-- The escrow, and the transfers the token has made for it, each recorded when it is made as the
event that will be emitted for it. -/
structure Chain (T : Type) where
  escrow : Escrow T
  moved : List Event := []

namespace Chain

variable {T : Type} (d : Deployment T)

/-- The contract has written its storage. -/
def store (c : Chain T) (storage : Storage) : Chain T :=
  { c with escrow := { c.escrow with storage := storage } }

/-- The token has moved an amount. -/
def move (c : Chain T) (token : T) (event : Event) : Chain T where
  escrow := { c.escrow with token := token }
  moved := c.moved ++ [event]

/-- The contract has emitted an event. -/
def emit (c : Chain T) (event : Event) : Chain T :=
  { c with escrow := { c.escrow with events := c.escrow.events ++ [event] } }

/-- One transfer of a payout, of which `before` and `after` are what happens inside. -/
def payOne (leagueId : Bytes32) (before after : Chain T → Chain T) (recipient : Address)
    (amount : UInt256) (c : Chain T) : Except Revert (Chain T) := do
  let c := before c
  let token ← Escrow.requireOk "payout transfer failed"
    (d.usdc.transfer c.escrow.token d.self recipient amount)
  let c := after (c.move token (.payoutDistributed leagueId recipient amount))
  return c.emit (.payoutDistributed leagueId recipient amount)

/-- The transfers of a payout inside which nothing happens. -/
def payRest (leagueId : Bytes32) : List (Address × UInt256) → Chain T → Except Revert (Chain T)
  | [], c => .ok c
  | (recipient, amount) :: payouts, c => do
    let c ← payOne d leagueId id id recipient amount c
    payRest leagueId payouts c

mutual

/-- A call of the escrow. -/
def execTree : CallTree T d.self → Chain T → Except Revert (Chain T)
  | .payEntryFee sender leagueId amount before after, c => do
    let storage ← c.escrow.storage.payEntryFee sender leagueId amount
    let c := execForest before (c.store storage)
    let token ← Escrow.requireOk "USDC transfer failed"
      (d.usdc.transferFrom c.escrow.token d.self sender d.self amount)
    let c := execForest after (c.move token (.entryFeePaid leagueId sender amount))
    return c.emit (.entryFeePaid leagueId sender amount)
  | .claimRefund sender leagueId before after, c => do
    let (amount, storage) ← c.escrow.storage.claimRefund sender leagueId
    let c := execForest before (c.store storage)
    let token ← Escrow.requireOk "refund transfer failed"
      (d.usdc.transfer c.escrow.token d.self sender amount)
    let c := execForest after (c.move token (.refundClaimed leagueId sender amount))
    return c.emit (.refundClaimed leagueId sender amount)
  | .distributePayout sender leagueId recipients amounts inside, c => do
    Escrow.onlyOwner d sender
    let storage ← c.escrow.storage.distributePayout leagueId recipients amounts
    execHooks leagueId inside (recipients.zip amounts) (c.store storage)

/-- Other parties act one after the other. -/
def execForest : Forest T d.self → Chain T → Chain T
  | .done, c => c
  | .call t rest, c =>
    match execTree t c with
    | .ok c' => execForest rest c'
    | .error _ => execForest rest c
  | .rolledBack _ rest, c => execForest rest c
  | .outside token rest, c =>
    if d.usdc.balanceOf c.escrow.token d.self ≤ d.usdc.balanceOf token d.self then
      execForest rest { c with escrow := { c.escrow with token := token } }
    else execForest rest c

/-- The transfer loop of a payout. -/
def execHooks (leagueId : Bytes32) :
    Hooks T d.self → List (Address × UInt256) → Chain T → Except Revert (Chain T)
  | .transfer before after rest, (recipient, amount) :: payouts, c => do
    let c ← payOne d leagueId (execForest before) (execForest after) recipient amount c
    execHooks leagueId rest payouts c
  | _, payouts, c => payRest d leagueId payouts c

end

end Chain

end Wagr
