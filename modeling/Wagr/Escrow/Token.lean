import Wagr.Basic
import Wagr.Library.Pools
import Mathlib.Data.FinEnum
import Mathlib.Tactic.SplitIfs

/-!
# The USDC token seen by the escrow

The escrow talks to USDC through `transfer` and `transferFrom` only. `ERC20` is any
contract with these two functions; `Honest` says that a successful call moves exactly the
amount and that a call refused for lack of balance really lacks it. `MockUSDC` is the
token of the contract's tests and is honest.
-/

namespace Wagr

/-- A `uint256` value. -/
abbrev UInt256 := Fin (2 ^ 256)

instance UInt256.neZero : NeZero (2 ^ 256) := ⟨by simp⟩

/-- Why a token call reverts. -/
inductive TokenError
  | insufficientBalance
  | insufficientAllowance
  | other (reason : String)
  deriving DecidableEq, Repr

/-- An ERC-20 token with states `T`; a call reverts or returns its `bool` and the new state. -/
structure ERC20 (T : Type) where
  /-- The balance of an account. -/
  balanceOf : T → Address → ℕ
  /-- `transfer(to, amount)` called by `sender`. -/
  transfer : T → (sender recipient : Address) → (amount : ℕ) → Except TokenError (Bool × T)
  /-- `transferFrom(owner, to, amount)` called by `spender`. -/
  transferFrom :
    T → (spender owner recipient : Address) → (amount : ℕ) → Except TokenError (Bool × T)

namespace ERC20

variable {T : Type} (usdc : ERC20 T)

/-- Exactly `amount` has moved from one account to the other. -/
def Moves (t t' : T) (source recipient : Address) (amount : ℕ) : Prop :=
  amount ≤ usdc.balanceOf t source ∧ ∀ x, usdc.balanceOf t' x + (if x = source then amount else 0) =
    usdc.balanceOf t x + (if x = recipient then amount else 0)

/-- A token that moves exactly the amount or reverts, and never claims a lack of balance
that is not there. -/
structure Honest : Prop where
  transfer_moves : ∀ {t t' sender recipient amount},
    usdc.transfer t sender recipient amount = .ok (true, t') →
      usdc.Moves t t' sender recipient amount
  transferFrom_moves : ∀ {t t' spender source recipient amount},
    usdc.transferFrom t spender source recipient amount = .ok (true, t') →
      usdc.Moves t t' source recipient amount
  transfer_lacks : ∀ {t sender recipient amount},
    usdc.transfer t sender recipient amount = .error .insufficientBalance →
      usdc.balanceOf t sender < amount

/-- A token whose calls move exactly the amount or fail, for whatever reason. -/
structure Exact : Prop where
  transfer_moves : ∀ {t t' sender recipient amount},
    usdc.transfer t sender recipient amount = .ok (true, t') →
      usdc.Moves t t' sender recipient amount
  transferFrom_moves : ∀ {t t' spender source recipient amount},
    usdc.transferFrom t spender source recipient amount = .ok (true, t') →
      usdc.Moves t t' source recipient amount

/-- A token that refuses no transfer the sender can pay for. -/
def Live : Prop :=
  ∀ t sender recipient amount, amount ≤ usdc.balanceOf t sender →
    ∃ t', usdc.transfer t sender recipient amount = .ok (true, t')

variable {usdc} {t t' : T} {source recipient x : Address} {amount : ℕ}

/-- An honest token is exact. -/
theorem Honest.exact (h : usdc.Honest) : usdc.Exact := ⟨h.transfer_moves, h.transferFrom_moves⟩

/-- A receiver other than the payer gains the amount. -/
theorem Moves.receiver (h : usdc.Moves t t' source recipient amount) (hne : recipient ≠ source) :
    usdc.balanceOf t' recipient = usdc.balanceOf t recipient + amount := by
  have hrecipient := h.2 recipient
  rw [if_pos rfl, if_neg hne] at hrecipient
  omega

/-- The payer keeps at least its balance without the amount. -/
theorem Moves.payer (h : usdc.Moves t t' source recipient amount) :
    usdc.balanceOf t source ≤ usdc.balanceOf t' source + amount := by
  have hsource := h.2 source
  rw [if_pos rfl] at hsource
  split at hsource <;> omega

end ERC20

/-- The storage of `MockUSDC`: balances, allowances (owner, then spender) and the supply, which
is a `uint256` and the sum of the balances. -/
structure MockUSDC where
  /-- `balanceOf`. -/
  balanceOf : Address → ℕ
  /-- `allowance`. -/
  allowance : Address → Address → ℕ
  /-- `totalSupply`. -/
  totalSupply : UInt256
  /-- Every token unit is on exactly one account. -/
  supply : ∑ x, balanceOf x = totalSupply.val

namespace MockUSDC

/-- `approve` called by `owner`. -/
def approve (t : MockUSDC) (owner spender : Address) (amount : ℕ) : MockUSDC :=
  { t with
    allowance := Function.update t.allowance owner
      (Function.update (t.allowance owner) spender amount) }

/-- `balanceOf[source] -= amount; balanceOf[recipient] += amount` after the balance check. -/
def move (t : MockUSDC) (source recipient : Address) (amount : ℕ)
    (h : amount ≤ t.balanceOf source) : MockUSDC :=
  let debited := Function.update t.balanceOf source (t.balanceOf source - amount)
  { t with
    balanceOf := Function.update debited recipient (debited recipient + amount)
    supply := by
      have hdebit := Accounting.Pools.sum_update_add t.balanceOf source
        (t.balanceOf source - amount)
      have hcredit := Accounting.Pools.sum_update_add debited recipient
        (debited recipient + amount)
      have hold := t.supply
      simp only [debited] at hcredit ⊢
      omega }

/-- `transfer` called by `sender`. -/
def transfer (t : MockUSDC) (sender recipient : Address) (amount : ℕ) :
    Except TokenError (Bool × MockUSDC) :=
  if h : amount ≤ t.balanceOf sender then .ok (true, t.move sender recipient amount h)
  else .error .insufficientBalance

/-- `transferFrom` called by `spender`. -/
def transferFrom (t : MockUSDC) (spender source recipient : Address) (amount : ℕ) :
    Except TokenError (Bool × MockUSDC) :=
  if t.allowance source spender < amount then .error .insufficientAllowance
  else if h : amount ≤ t.balanceOf source then
    .ok (true, (t.approve source spender (t.allowance source spender - amount)).move
      source recipient amount h)
  else .error .insufficientBalance

/-- `MockUSDC` as a token. -/
def erc20 : ERC20 MockUSDC := ⟨balanceOf, transfer, transferFrom⟩

/-- `move` moves exactly the amount. -/
theorem moves_move {t : MockUSDC} {source recipient : Address} {amount : ℕ}
    (h : amount ≤ t.balanceOf source) :
    erc20.Moves t (t.move source recipient amount h) source recipient amount := by
  refine ⟨h, fun x => ?_⟩
  simp only [erc20, move, Function.update_apply]
  split_ifs <;> simp_all

/-- `MockUSDC` moves exactly the amount or reverts. -/
theorem erc20_honest : erc20.Honest where
  transfer_moves := by
    intro t t' sender recipient amount h
    simp only [erc20, transfer] at h
    split at h
    · cases h
      exact moves_move _
    · cases h
  transferFrom_moves := by
    intro t t' spender source recipient amount h
    simp only [erc20, transferFrom] at h
    split at h
    · cases h
    · split at h
      · rename_i hle
        cases h
        exact moves_move (t := t.approve source spender _) hle
      · cases h
  transfer_lacks := by
    intro t sender recipient amount h
    simp only [erc20, transfer] at h
    split at h
    · cases h
    · exact Nat.lt_of_not_le (by assumption)

/-- `MockUSDC` refuses no transfer the sender can pay for. -/
theorem erc20_live : erc20.Live := by
  intro t sender recipient amount h
  have hle : amount ≤ t.balanceOf sender := h
  exact ⟨t.move sender recipient amount hle, dif_pos hle⟩

end MockUSDC

end Wagr
