import Mathlib.Algebra.BigOperators.Group.List.Basic
import Mathlib.Algebra.Order.BigOperators.Group.List
import Mathlib.Data.List.Nodup
import Mathlib.Tactic.Linarith

/-!
# Sums of attributed costs

If every item is attributed to one of several accounts that charges its cost, and each account
has at most a given number of items, then the items cost at most the sum over the accounts of
charge times number.
-/

namespace Attribution

variable {α β γ : Type} {A : β → α → Prop} {cost : α → ℤ} {charge number : β → ℤ}
  {accounts : List β}
  {items : List α}

/-- Costs that are all the same. -/
theorem sum_eq_charge {c : ℤ} (hcost : ∀ e ∈ items, cost e = c) :
    (items.map cost).sum = c * items.length := by
  induction items with
  | nil => simp
  | cons e items ih =>
    have hrest := ih fun e he => hcost e (List.mem_cons_of_mem _ he)
    rw [List.map_cons, List.sum_cons, hcost e List.mem_cons_self, hrest, List.length_cons]
    push_cast
    linarith

/-- The costs of the items are covered by the accounts. -/
theorem sum_le (hattributed : ∀ e ∈ items, ∃ x ∈ accounts, A x e)
    (hcost : ∀ x e, A x e → cost e = charge x) (hcharge : ∀ x ∈ accounts, 0 ≤ charge x)
    (hnumber : ∀ x ∈ accounts, ∀ some : List α, some.Sublist items → (∀ e ∈ some, A x e) →
      (some.length : ℤ) ≤ number x) :
    (items.map cost).sum ≤ (accounts.map fun x => charge x * number x).sum := by
  classical
  induction accounts generalizing items with
  | nil =>
    rcases items with _ | ⟨e, items⟩
    · simp
    · obtain ⟨x, hx, -⟩ := hattributed e List.mem_cons_self
      exact absurd hx List.not_mem_nil
  | cons x accounts ih =>
    -- the items of the first account, and the others
    have hsum := List.sum_map_filter_add_sum_map_filter_not (A x) cost items
    have hfirst : ((items.filter fun e => decide (A x e)).map cost).sum ≤ charge x * number x := by
      have hall : ∀ e ∈ items.filter fun e => decide (A x e), A x e :=
        fun e he => of_decide_eq_true (List.mem_filter.mp he).2
      rw [sum_eq_charge fun e he => hcost x e (hall e he)]
      exact mul_le_mul_of_nonneg_left
        (hnumber x List.mem_cons_self _ List.filter_sublist hall) (hcharge x List.mem_cons_self)
    have hothers : ((items.filter fun e => ¬ A x e).map cost).sum ≤
        (accounts.map fun x => charge x * number x).sum := by
      refine ih (fun e he => ?_) (fun y hy => hcharge y (List.mem_cons_of_mem _ hy))
        fun y hy some hsome => hnumber y (List.mem_cons_of_mem _ hy) some
          (hsome.trans List.filter_sublist)
      obtain ⟨hmem, hnot⟩ := List.mem_filter.mp he
      obtain ⟨y, hy, hA⟩ := hattributed e hmem
      rcases List.mem_cons.mp hy with rfl | hy
      · simp [hA] at hnot
      · exact ⟨y, hy, hA⟩
    rw [List.map_cons, List.sum_cons]
    linarith

/-- If the items of an account all have one key and no key occurs twice, then each account is
charged once. -/
theorem sum_le_of_nodup {key : α → γ} (hattributed : ∀ e ∈ items, ∃ x ∈ accounts, A x e)
    (hcost : ∀ x e, A x e → cost e = charge x) (hcharge : ∀ x ∈ accounts, 0 ≤ charge x)
    (hkey : ∀ x e e', A x e → A x e' → key e = key e') (hnodup : (items.map key).Nodup) :
    (items.map cost).sum ≤ (accounts.map charge).sum := by
  have hle : (items.map cost).sum ≤ (accounts.map fun x => charge x * 1).sum := by
    refine sum_le hattributed hcost hcharge fun x _ some hsome hall => ?_
    have hkeys : (some.map key).Nodup := hnodup.sublist (hsome.map key)
    match some with
    | [] => simp
    | [_] => simp
    | e :: e' :: rest =>
      have heq := hkey x e e' (hall e (by simp)) (hall e' (by simp))
      simp [heq] at hkeys
  simpa using hle

end Attribution
