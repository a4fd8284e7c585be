import Mathlib.Data.List.Basic
import Mathlib.Data.List.Nodup

/-!
# Tables with a unique key

A table is a list of rows in which no key occurs twice. The key constraint is part
of the value, so every statement that builds a table has to respect it, and two rows
with one key are the same row. Updates take the rows a condition selects and may not
change keys.
-/

namespace Relational

variable {κ ρ : Type} {key : ρ → κ}

/-- Rows without a repeated key. -/
structure Table (ρ : Type) {κ : Type} (key : ρ → κ) where
  /-- The rows in storage order. -/
  rows : List ρ
  /-- The key constraint. -/
  unique : (rows.map key).Nodup

namespace Table

/-- The table without rows. -/
def empty : Table ρ key := ⟨[], List.nodup_nil⟩

/-- Change the rows that satisfy `p` by a function that keeps the key. -/
def updateWhere (t : Table ρ key) (p : ρ → Bool) (f : ρ → ρ) (hf : ∀ r, key (f r) = key r) :
    Table ρ key where
  rows := t.rows.map fun r => if p r then f r else r
  unique := by
    have hkey : (key ∘ fun r => if p r then f r else r) = key := by
      funext r
      by_cases hp : p r
      · simp [hp, hf]
      · simp [hp]
    rw [List.map_map, hkey]
    exact t.unique

/-- Remove the rows that satisfy `p`. -/
def deleteWhere (t : Table ρ key) (p : ρ → Bool) : Table ρ key where
  rows := t.rows.filter fun r => !p r
  unique := t.unique.sublist (List.filter_sublist.map key)

/-- Append a row with a new key. -/
def insert (t : Table ρ key) (r : ρ) (hr : key r ∉ t.rows.map key) : Table ρ key where
  rows := t.rows ++ [r]
  unique := by
    rw [List.map_append, List.map_singleton]
    exact t.unique.append (List.nodup_singleton _) (by simpa using hr)

/-- Insert a row, or change the row that already has its key. -/
def upsert [DecidableEq κ] (t : Table ρ key) (r : ρ) (f : ρ → ρ)
    (hf : ∀ r, key (f r) = key r) : Table ρ key :=
  if hr : key r ∈ t.rows.map key then t.updateWhere (fun r' => decide (key r' = key r)) f hf
  else t.insert r hr

/-- The row with a key. -/
def lookup [DecidableEq κ] (t : Table ρ key) (k : κ) : Option ρ :=
  t.rows.find? fun r => decide (key r = k)

/-- How many rows satisfy `p`. -/
def count (t : Table ρ key) (p : ρ → Bool) : ℕ := t.rows.countP p

variable {t : Table ρ key} {p : ρ → Bool} {f : ρ → ρ} {hf : ∀ r, key (f r) = key r} {r r' : ρ}

/-- Rows of one table with one key are equal. -/
theorem eq_of_key (hr : r ∈ t.rows) (hr' : r' ∈ t.rows) (hkey : key r = key r') : r = r' :=
  List.inj_on_of_nodup_map t.unique hr hr' hkey

/-- A lookup finds a row with the key. -/
theorem lookup_some [DecidableEq κ] {k : κ} (h : t.lookup k = some r) : r ∈ t.rows ∧ key r = k :=
  ⟨List.mem_of_find?_eq_some h, by simpa using List.find?_some h⟩

/-- A row is found under its key. -/
theorem lookup_of_mem [DecidableEq κ] (h : r ∈ t.rows) : t.lookup (key r) = some r := by
  cases hfind : t.lookup (key r) with
  | none => exact absurd (by simp) (List.find?_eq_none.mp hfind r h)
  | some r' =>
    obtain ⟨hr', hkey⟩ := lookup_some hfind
    rw [eq_of_key hr' h hkey]

/-- The rows that satisfy `p` if one at most does. -/
theorem filter_eq_toList (h : ∀ r ∈ t.rows, ∀ r' ∈ t.rows, p r = true → p r' = true → r' = r) :
    t.rows.filter p = (t.rows.find? p).toList := by
  have hnodup : t.rows.Nodup := t.unique.of_map
  generalize t.rows = rows at h hnodup
  induction rows with
  | nil => rfl
  | cons r rows ih =>
    by_cases hp : p r = true
    · have hnil : rows.filter p = [] := by
        refine List.filter_eq_nil_iff.mpr fun r' hr' hp' => ?_
        have heq := h r List.mem_cons_self r' (List.mem_cons_of_mem _ hr') hp hp'
        exact (List.nodup_cons.mp hnodup).1 (heq ▸ hr')
      rw [List.filter_cons_of_pos hp, List.find?_cons_of_pos hp, hnil]
      rfl
    · rw [List.filter_cons_of_neg hp, List.find?_cons_of_neg hp]
      refine ih (fun r₁ h₁ r₂ h₂ => ?_) (List.nodup_cons.mp hnodup).2
      exact h r₁ (List.mem_cons_of_mem _ h₁) r₂ (List.mem_cons_of_mem _ h₂)

/-- A row whose key is unique is the one that is counted. -/
theorem count_pos : 0 < t.count p ↔ ∃ r ∈ t.rows, p r = true := List.countP_pos_iff

/-- The rows after an update. -/
@[simp] theorem mem_updateWhere :
    r' ∈ (t.updateWhere p f hf).rows ↔ ∃ r ∈ t.rows, (if p r then f r else r) = r' := by
  simp [updateWhere]

/-- Two updates of the same rows are one. -/
theorem updateWhere_updateWhere {g : ρ → ρ} {hg : ∀ r, key (g r) = key r}
    (hp : ∀ r, p (f r) = p r) :
    (t.updateWhere p f hf).updateWhere p g hg =
      t.updateWhere p (fun r => g (f r)) fun r => (hg (f r)).trans (hf r) := by
  unfold updateWhere
  rw [Table.mk.injEq, List.map_map]
  refine List.map_congr_left fun r _ => ?_
  by_cases hr : p r = true
  · simp [hr, hp]
  · simp [hr]

/-- An update of no row changes nothing. -/
theorem updateWhere_of_count (h : t.count p = 0) : t.updateWhere p f hf = t := by
  have hnone := List.countP_eq_zero.mp h
  unfold updateWhere
  rw [Table.mk.injEq]
  refine (List.map_congr_left fun r hr => ?_).trans (List.map_id t.rows)
  exact if_neg (hnone r hr)

/-- A deletion of no row changes nothing. -/
theorem deleteWhere_of_count (h : t.count p = 0) : t.deleteWhere p = t := by
  have hnone := List.countP_eq_zero.mp h
  unfold deleteWhere
  rw [Table.mk.injEq]
  exact List.filter_eq_self.mpr fun r hr => by simpa using hnone r hr

/-- The rows after a deletion. -/
@[simp] theorem mem_deleteWhere : r ∈ (t.deleteWhere p).rows ↔ r ∈ t.rows ∧ p r = false := by
  simp [deleteWhere]

/-- The rows after an insertion. -/
@[simp] theorem mem_insert {hr : key r ∉ t.rows.map key} :
    r' ∈ (t.insert r hr).rows ↔ r' ∈ t.rows ∨ r' = r := by
  simp [insert]

/-- A row after an upsert is an old row, the new row if its key is new, or the changed row with
its key. -/
theorem mem_upsert [DecidableEq κ] (h : r' ∈ (t.upsert r f hf).rows) :
    r' ∈ t.rows ∨ (key r ∉ t.rows.map key ∧ r' = r) ∨
      ∃ r₀ ∈ t.rows, key r₀ = key r ∧ r' = f r₀ := by
  unfold upsert at h
  split at h
  · obtain ⟨r₀, hr₀, heq⟩ := mem_updateWhere.mp h
    by_cases hkey : key r₀ = key r
    · simp only [hkey, decide_true, if_true] at heq
      exact .inr (.inr ⟨r₀, hr₀, hkey, heq.symm⟩)
    · simp only [hkey, decide_false, Bool.false_eq_true, if_false] at heq
      exact .inl (heq ▸ hr₀)
  · rename_i hnew
    rcases mem_insert.mp h with h | h
    · exact .inl h
    · exact .inr (.inl ⟨hnew, h⟩)

/-- Every old row survives an upsert, changed by `f` if it has the key. -/
theorem upsert_of_key [DecidableEq κ] (hr : r' ∈ t.rows) :
    (if key r' = key r then f r' else r') ∈ (t.upsert r f hf).rows := by
  unfold upsert
  split
  · exact mem_updateWhere.mpr ⟨r', hr, by simp⟩
  · rename_i hnew
    have hne : key r' ≠ key r := fun h => hnew (h ▸ List.mem_map_of_mem hr)
    rw [if_neg hne]
    exact mem_insert.mpr (.inl hr)

end Table

end Relational
