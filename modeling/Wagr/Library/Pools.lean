import Mathlib.Algebra.BigOperators.Group.Finset.Piecewise
import Mathlib.Algebra.Order.BigOperators.Group.Finset
import Mathlib.Data.Fintype.Basic
import Mathlib.Algebra.Group.Action.Defs

/-!
# Pooled accounts

Members deposit into pools, may take their own deposits back, and a pool may pay out
to anybody. Every pool remembers what each member can still take back and what it
holds. The two views drift apart by exactly what was paid out: that is `Balanced`, and
all operations keep it. Deposits can be reclaimed in full, in any order, precisely as
long as nothing was paid out.
-/

namespace Accounting

variable {P M : Type*} [DecidableEq P]

/-- Pools `P` with members `M`. -/
structure Pools (P M : Type*) where
  /-- What a member can still take back from a pool. -/
  share : P → M → ℕ
  /-- What a pool holds. -/
  total : P → ℕ
  /-- What a pool has paid out. -/
  paidOut : P → ℕ

namespace Pools

/-- Empty pools. -/
def empty : Pools P M := ⟨fun _ _ => 0, fun _ => 0, fun _ => 0⟩

/-- Member `m` deposits `a` into pool `p`. -/
def deposit [DecidableEq M] (s : Pools P M) (p : P) (m : M) (a : ℕ) : Pools P M :=
  { s with
    share := Function.update s.share p (Function.update (s.share p) m (s.share p m + a))
    total := Function.update s.total p (s.total p + a) }

/-- Member `m` takes back everything still theirs in pool `p`. -/
def reclaim [DecidableEq M] (s : Pools P M) (p : P) (m : M) : Pools P M :=
  { s with
    share := Function.update s.share p (Function.update (s.share p) m 0)
    total := Function.update s.total p (s.total p - s.share p m) }

/-- Pool `p` pays out `a`. -/
def payOut (s : Pools P M) (p : P) (a : ℕ) : Pools P M :=
  { s with
    total := Function.update s.total p (s.total p - a)
    paidOut := Function.update s.paidOut p (s.paidOut p + a) }

/-- Replacing one summand. -/
theorem sum_update_add {ι : Type*} [Fintype ι] [DecidableEq ι] (f : ι → ℕ) (i : ι) (v : ℕ) :
    ∑ x, Function.update f i v x + f i = ∑ x, f x + v := by
  rw [Finset.sum_update_of_mem (Finset.mem_univ i), ← Finset.add_sum_erase _ f (Finset.mem_univ i),
    Finset.sdiff_singleton_eq_erase]
  omega

section Balance

variable [Fintype M]

/-- What a pool holds and what it has paid out add up to what its members deposited and
did not take back. -/
def Balanced (s : Pools P M) : Prop := ∀ p, s.total p + s.paidOut p = ∑ m, s.share p m

variable {s : Pools P M} {p : P} {m : M} {a : ℕ}

/-- Deposits keep the balance. -/
theorem Balanced.deposit [DecidableEq M] (h : s.Balanced) : (s.deposit p m a).Balanced := by
  intro p'
  by_cases hp : p' = p
  · subst hp
    have hsum := sum_update_add (s.share p') m (s.share p' m + a)
    have hold := h p'
    simp only [Pools.deposit, Function.update_self]
    omega
  · simpa [Pools.deposit, Function.update_of_ne hp] using h p'

/-- Taking back what the pool still holds keeps the balance. -/
theorem Balanced.reclaim [DecidableEq M] (h : s.Balanced) (hle : s.share p m ≤ s.total p) :
    (s.reclaim p m).Balanced := by
  intro p'
  by_cases hp : p' = p
  · subst hp
    have hsum := sum_update_add (s.share p') m 0
    have hold := h p'
    simp only [Pools.reclaim, Function.update_self]
    omega
  · simpa [Pools.reclaim, Function.update_of_ne hp] using h p'

/-- Paying out what the pool holds keeps the balance. -/
theorem Balanced.payOut (h : s.Balanced) (hle : a ≤ s.total p) : (s.payOut p a).Balanced := by
  intro p'
  by_cases hp : p' = p
  · subst hp
    have hold := h p'
    simp only [Pools.payOut, Function.update_self]
    omega
  · simpa [Pools.payOut, Function.update_of_ne hp] using h p'

omit [DecidableEq P] in
/-- The open claims on a balanced pool are covered exactly if it never paid anything out. -/
theorem Balanced.covered_iff (h : s.Balanced) :
    ∑ m, s.share p m ≤ s.total p ↔ s.paidOut p = 0 := by
  have hold := h p
  omega

omit [DecidableEq P] in
/-- What is still owed to a member does not exceed all open claims. -/
theorem share_le_sum (s : Pools P M) (p : P) (m : M) : s.share p m ≤ ∑ m, s.share p m :=
  Finset.single_le_sum (f := s.share p) (fun _ _ => Nat.zero_le _) (Finset.mem_univ m)

omit [Fintype M] in
/-- A deposit lowers no share. -/
theorem share_le_deposit [DecidableEq M] {p' : P} {m' : M} :
    s.share p m ≤ (s.deposit p' m' a).share p m := by
  simp only [deposit, Function.update_apply]
  split
  · rename_i hp
    subst hp
    rw [Function.update_apply]
    split
    · rename_i hm
      subst hm
      exact Nat.le_add_right _ _
    · exact le_rfl
  · exact le_rfl

omit [Fintype M] in
/-- Taking back lowers only the share that is taken back. -/
theorem share_reclaim_of_ne [DecidableEq M] {p' : P} {m' : M} (hne : ¬ (p' = p ∧ m' = m)) :
    (s.reclaim p' m').share p m = s.share p m := by
  simp only [reclaim, Function.update_apply]
  split
  · rename_i hp
    subst hp
    exact Function.update_of_ne (fun hm => hne ⟨rfl, hm.symm⟩) _ _
  · rfl

omit [DecidableEq P] in
/-- Different members with a share of `fee` at least make up for as many fees. -/
theorem length_mul_le_sum [DecidableEq M] (s : Pools P M) (p : P) {ms : List M} {fee : ℕ}
    (hnodup : ms.Nodup) (hfee : ∀ m ∈ ms, fee ≤ s.share p m) :
    ms.length * fee ≤ ∑ m, s.share p m := by
  have hcard : ms.toFinset.card • fee ≤ ∑ m ∈ ms.toFinset, s.share p m :=
    Finset.card_nsmul_le_sum _ _ _ fun m hm => hfee m (List.mem_toFinset.mp hm)
  rw [List.toFinset_card_of_nodup hnodup, smul_eq_mul] at hcard
  exact hcard.trans (Finset.sum_le_sum_of_subset (Finset.subset_univ _))

/-- Covered claims stay covered when one of them is paid. -/
theorem covered_reclaim [DecidableEq M] (h : ∑ m, s.share p m ≤ s.total p) :
    ∑ m', (s.reclaim p m).share p m' ≤ (s.reclaim p m).total p := by
  have hsum := sum_update_add (s.share p) m 0
  simp only [Pools.reclaim, Function.update_self]
  omega

end Balance

section Total

variable [Fintype P] {s : Pools P M} {p : P} {m : M} {a : ℕ}

/-- A deposit adds to what all pools hold together. -/
theorem sum_total_deposit [DecidableEq M] :
    ∑ q, (s.deposit p m a).total q = ∑ q, s.total q + a := by
  have hsum := sum_update_add s.total p (s.total p + a)
  simp only [deposit]
  omega

/-- Taking back lowers what all pools hold together. -/
theorem sum_total_reclaim [DecidableEq M] (hle : s.share p m ≤ s.total p) :
    ∑ q, (s.reclaim p m).total q + s.share p m = ∑ q, s.total q := by
  have hsum := sum_update_add s.total p (s.total p - s.share p m)
  simp only [reclaim]
  omega

/-- A payment lowers what all pools hold together. -/
theorem sum_total_payOut (hle : a ≤ s.total p) :
    ∑ q, (s.payOut p a).total q + a = ∑ q, s.total q := by
  have hsum := sum_update_add s.total p (s.total p - a)
  simp only [payOut]
  omega

omit [DecidableEq P] in
/-- No pool holds more than all of them. -/
theorem total_le_sum (s : Pools P M) (p : P) : s.total p ≤ ∑ q, s.total q :=
  Finset.single_le_sum (f := s.total) (fun _ _ => Nat.zero_le _) (Finset.mem_univ p)

end Total

end Pools

end Accounting
