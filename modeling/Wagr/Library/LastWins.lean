import Mathlib.Algebra.Order.BigOperators.Group.List
import Mathlib.Data.List.Pairwise

/-!
# Maps filled from a list

A map that is filled from a list of keyed elements keeps the last element of each key. Its
elements are found from the end of the list, and their sum falls short of the sum of the list by
what was replaced.
-/

namespace LastWins

variable {α κ M : Type} [DecidableEq κ] (key : α → κ)

/-- The element that the map holds for the key: the last one with it. -/
def find (xs : List α) (k : κ) : Option α := xs.reverse.find? fun x => key x = k

/-- The elements of the map, in the order of the list. -/
def kept (xs : List α) : List α := xs.pwFilter fun x y => key x ≠ key y

variable {key} {x y : α} {xs : List α} {k : κ}

/-- A later element is found first. -/
theorem find_cons : find key (x :: xs) k =
    (find key xs k).or (if key x = k then some x else none) := by
  unfold find
  rw [List.reverse_cons, List.find?_append]
  by_cases hx : key x = k <;> simp [hx]

/-- No element is found if there is none with the key. -/
theorem find_eq_none : find key xs k = none ↔ ∀ x ∈ xs, key x ≠ k := by
  simp [find]

/-- What is found is an element with the key. -/
theorem mem_of_find (key : α → κ) (h : find key xs k = some x) : x ∈ xs ∧ key x = k := by
  obtain ⟨hkey, -⟩ := List.find?_eq_some_iff_append.mp h
  exact ⟨List.mem_reverse.mp (List.mem_of_find?_eq_some h), of_decide_eq_true hkey⟩

/-- Some element is found for the key of every element. -/
theorem exists_find (key : α → κ) (hx : x ∈ xs) : ∃ y, find key xs (key x) = some y := by
  cases h : find key xs (key x) with
  | none => exact absurd rfl (find_eq_none.mp h x hx)
  | some y => exact ⟨y, rfl⟩

/-- An element whose key comes again is dropped. -/
theorem kept_cons_of_mem (h : ∃ y ∈ xs, key y = key x) : kept key (x :: xs) = kept key xs := by
  refine List.pwFilter_cons_of_neg fun hall => ?_
  obtain ⟨y, hy, hkey⟩ := h
  have htrans : ∀ {a b c : α}, key a ≠ key c → key a ≠ key b ∨ key b ≠ key c := by
    intro a b c hac
    by_cases hab : key a = key b
    · exact .inr fun hbc => hac (hab.trans hbc)
    · exact .inl hab
  exact (List.forall_mem_pwFilter (R := fun a b => key a ≠ key b) htrans x xs).mp hall y hy
    hkey.symm

/-- An element whose key does not come again is kept. -/
theorem kept_cons_of_forall (h : ∀ y ∈ xs, key y ≠ key x) :
    kept key (x :: xs) = x :: kept key xs :=
  List.pwFilter_cons_of_pos fun y hy => (h y (List.pwFilter_subset xs hy)).symm

/-- The map holds one element for each key. -/
theorem pairwise_kept : (kept key xs).Pairwise fun x y => key x ≠ key y :=
  List.pairwise_pwFilter xs

/-- The elements of the map are those that are found. -/
theorem mem_kept : x ∈ kept key xs ↔ find key xs (key x) = some x := by
  induction xs with
  | nil => simp [kept, find]
  | cons y ys ih =>
    rw [find_cons]
    by_cases h : ∃ z ∈ ys, key z = key y
    · rw [kept_cons_of_mem h, ih]
      cases hfind : find key ys (key x) with
      | some z => simp
      | none =>
        have hne := find_eq_none.mp hfind
        have hyx : key y ≠ key x := by
          obtain ⟨z, hz, hkey⟩ := h
          exact fun heq => hne z hz (hkey.trans heq)
        simp [hyx]
    · have hall : ∀ z ∈ ys, key z ≠ key y := fun z hz hkey => h ⟨z, hz, hkey⟩
      rw [kept_cons_of_forall hall, List.mem_cons, ih]
      constructor
      · rintro (rfl | hfind)
        · rw [find_eq_none.mpr hall]
          simp
        · simp [hfind]
      · intro hor
        cases hfind : find key ys (key x) with
        | some z =>
          rw [hfind] at hor
          exact .inr (by simpa using hor)
        | none =>
          rw [hfind] at hor
          by_cases hyx : key y = key x
          · exact .inl (by simpa [hyx, eq_comm] using hor)
          · simp [hyx] at hor

section Sum

variable [AddCommMonoid M] {f : α → M}

/-- If what was replaced is zero, the elements of a key sum up to the one that is found. -/
theorem sum_filter_eq (hzero : xs.Pairwise fun x y => key x = key y → f x = 0)
    (hfind : find key xs k = some x) : ((xs.filter fun y => key y = k).map f).sum = f x := by
  induction xs with
  | nil => simp [find] at hfind
  | cons y ys ih =>
    obtain ⟨hy, hys⟩ := List.pairwise_cons.mp hzero
    rw [find_cons] at hfind
    cases hlater : find key ys k with
    | some z =>
      rw [hlater] at hfind
      obtain rfl : z = x := by simpa using hfind
      obtain ⟨hz, hkey⟩ := mem_of_find key hlater
      by_cases hyk : key y = k
      · rw [List.filter_cons_of_pos (by simpa using hyk), List.map_cons, List.sum_cons,
          hy z hz (hyk.trans hkey.symm), zero_add]
        exact ih hys hlater
      · rw [List.filter_cons_of_neg (by simpa using hyk)]
        exact ih hys hlater
    | none =>
      rw [hlater] at hfind
      have hnone : ys.filter (fun y => key y = k) = [] :=
        List.filter_eq_nil_iff.mpr fun z hz => by simpa using find_eq_none.mp hlater z hz
      by_cases hyk : key y = k
      · obtain rfl : y = x := by simpa [hyk] using hfind
        rw [List.filter_cons_of_pos (by simpa using hyk), hnone]
        simp
      · simp [hyk] at hfind

variable [PartialOrder M] [IsOrderedCancelAddMonoid M]

/-- The map never sums up to more than the list. -/
theorem sum_kept_le (key : α → κ) (h : ∀ x ∈ xs, 0 ≤ f x) :
    ((kept key xs).map f).sum ≤ (xs.map f).sum :=
  List.Sublist.sum_le_sum ((List.pwFilter_sublist xs).map f) (by simpa using h)

/-- The map sums up to the list exactly if what was replaced is zero. -/
theorem sum_kept_eq_iff (h : ∀ x ∈ xs, 0 ≤ f x) :
    ((kept key xs).map f).sum = (xs.map f).sum ↔
      xs.Pairwise fun x y => key x = key y → f x = 0 := by
  induction xs with
  | nil => simp [kept]
  | cons x xs ih =>
    obtain ⟨hx, hxs⟩ := List.forall_mem_cons.mp h
    rw [List.pairwise_cons, List.map_cons, List.sum_cons]
    by_cases hrepeat : ∃ y ∈ xs, key y = key x
    · rw [kept_cons_of_mem hrepeat]
      have hle := sum_kept_le key hxs
      constructor
      · intro hsum
        have hxle : f x + (xs.map f).sum ≤ 0 + (xs.map f).sum := by
          rw [zero_add, ← hsum]
          exact hle
        have hzero : f x = 0 := le_antisymm (le_of_add_le_add_right hxle) hx
        rw [hzero, zero_add] at hsum
        exact ⟨fun _ _ _ => hzero, (ih hxs).mp hsum⟩
      · rintro ⟨hzero, hrest⟩
        obtain ⟨y, hy, hkey⟩ := hrepeat
        rw [hzero y hy hkey.symm, zero_add]
        exact (ih hxs).mpr hrest
    · have hall : ∀ y ∈ xs, key y ≠ key x := fun y hy hkey => hrepeat ⟨y, hy, hkey⟩
      rw [kept_cons_of_forall hall, List.map_cons, List.sum_cons, add_right_inj, ih hxs]
      constructor
      · exact fun hrest => ⟨fun y hy hkey => absurd hkey.symm (hall y hy), hrest⟩
      · exact fun hrest => hrest.2

end Sum

end LastWins
