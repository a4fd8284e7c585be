import Mathlib.Data.List.Basic

/-!
# Lists that keep the first element of each key

An element whose key is taken is not added. Adding the same elements again changes nothing, so what
has stopped half-way may be started again from the beginning.
-/

namespace FirstWins

variable {α κ : Type} [DecidableEq κ] (key : α → κ)

/-- Add an element unless its key is taken. -/
def add (xs : List α) (x : α) : List α := if key x ∈ xs.map key then xs else xs ++ [x]

/-- Add elements one after the other. -/
def addAll (xs ys : List α) : List α := ys.foldl (add key) xs

variable {key} {x y : α} {xs ys zs : List α} {k : κ}

@[simp] theorem addAll_nil : addAll key xs [] = xs := rfl

@[simp] theorem addAll_cons : addAll key xs (y :: ys) = addAll key (add key xs y) ys := rfl

theorem addAll_append : addAll key xs (ys ++ zs) = addAll key (addAll key xs ys) zs :=
  List.foldl_append

/-- An element with a new key comes last. -/
theorem add_of_notMem (h : key x ∉ xs.map key) : add key xs x = xs ++ [x] := if_neg h

/-- An element with a taken key is not added. -/
theorem add_of_mem (h : key x ∈ xs.map key) : add key xs x = xs := if_pos h

/-- The keys after an element has been added. -/
theorem mem_keys_add : k ∈ (add key xs x).map key ↔ k ∈ xs.map key ∨ k = key x := by
  by_cases h : key x ∈ xs.map key
  · rw [add_of_mem h]
    refine ⟨.inl, ?_⟩
    rintro (hk | rfl)
    · exact hk
    · exact h
  · rw [add_of_notMem h, List.map_append, List.mem_append, List.map_singleton, List.mem_singleton]

/-- The keys after elements have been added. -/
theorem mem_keys_addAll : k ∈ (addAll key xs ys).map key ↔ k ∈ xs.map key ∨ k ∈ ys.map key := by
  induction ys generalizing xs with
  | nil => simp
  | cons y ys ih => rw [addAll_cons, ih, mem_keys_add, List.map_cons, List.mem_cons, or_assoc]

/-- An element was there, or it was added under a new key. -/
theorem mem_addAll (h : x ∈ addAll key xs ys) : x ∈ xs ∨ x ∈ ys ∧ key x ∉ xs.map key := by
  induction ys generalizing xs with
  | nil => exact .inl h
  | cons y ys ih =>
    rcases ih h with hx | ⟨hx, hnew⟩
    · by_cases hy : key y ∈ xs.map key
      · rw [add_of_mem hy] at hx
        exact .inl hx
      · rw [add_of_notMem hy] at hx
        rcases List.mem_append.mp hx with hx | hx
        · exact .inl hx
        · obtain rfl := List.mem_singleton.mp hx
          exact .inr ⟨List.mem_cons_self, hy⟩
    · exact .inr ⟨List.mem_cons_of_mem y hx, fun hk => hnew (mem_keys_add.mpr (.inl hk))⟩

/-- Of the elements with a new key one is added. -/
theorem exists_mem_addAll (hx : x ∈ ys) (hnew : key x ∉ xs.map key) :
    ∃ y ∈ ys, key y = key x ∧ y ∈ addAll key xs ys := by
  have hkey : key x ∈ (addAll key xs ys).map key :=
    mem_keys_addAll.mpr (.inr (List.mem_map_of_mem hx))
  obtain ⟨y, hy, hsame⟩ := List.mem_map.mp hkey
  rcases mem_addAll hy with hold | ⟨hadded, -⟩
  · exact absurd (List.mem_map.mpr ⟨y, hold, hsame⟩) hnew
  · exact ⟨y, hadded, hsame, hy⟩

/-- Elements with taken keys change nothing. -/
theorem addAll_of_keys (h : ∀ y ∈ ys, key y ∈ xs.map key) : addAll key xs ys = xs := by
  induction ys with
  | nil => rfl
  | cons y ys ih =>
    rw [addAll_cons, add_of_mem (h y List.mem_cons_self)]
    exact ih fun z hz => h z (List.mem_cons_of_mem y hz)

/-- After some elements have been added, adding them again with more is adding the rest. -/
theorem addAll_again : addAll key (addAll key xs ys) (ys ++ zs) = addAll key xs (ys ++ zs) := by
  have hsame : addAll key (addAll key xs ys) ys = addAll key xs ys :=
    addAll_of_keys fun y hy => mem_keys_addAll.mpr (.inr (List.mem_map_of_mem hy))
  rw [addAll_append, hsame, ← addAll_append]

end FirstWins
