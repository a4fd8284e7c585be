import Wagr.Web.LeagueSettings
import Mathlib.Logic.Relation

/-!
# The settings form

The handlers of `LeagueSettings.tsx` that change the payout rows, and which controls the page
offers for a list of rows. What the form can hold are the rows of a served structure after any
number of these operations.
-/

namespace Wagr

namespace LeagueSettingsPage

variable {totalRosters : ℤ} {rows rows' : List PageEntry}

/-- The rows of the page for what the API serves of the rules. -/
def servedRows (rules : List PayoutEntry) : List PageEntry :=
  normalizeEntries (rules.map fun e => e.encode.json)

/-- `Math.ceil(totalRosters / 2)`. -/
def maxPlaces (totalRosters : ℤ) : ℤ := (totalRosters + 1) / 2

/-- `placeOptions`. -/
def placeOptions (totalRosters : ℤ) : List ℤ :=
  (List.range (maxPlaces totalRosters).toNat).map fun (i : ℕ) => (i : ℤ) + 1

/-- `placements`. -/
def placements (rows : List PageEntry) : List PageEntry :=
  rows.filter fun r => r.type = some "placement"

/-- `updateRow`, which `updateWeekly` repeats. -/
def updateRow (i : ℕ) (patch : PageEntry → PageEntry) (rows : List PageEntry) : List PageEntry :=
  rows.modify i patch

/-- `removeRow`. -/
def removeRow (i : ℕ) (rows : List PageEntry) : List PageEntry := rows.eraseIdx i

/-- The largest place of the placements, 0 if there is none. -/
def maxPlace (rows : List PageEntry) : ℤ :=
  (placements rows).foldl (fun m r => max m (r.place.getD 0)) 0

/-- The row that `handleAddPlacement` appends. -/
def newPlacement (nextPlace : ℤ) : PageEntry where
  type := some "placement"
  bonusType := none
  label := some (ordinalLabel nextPlace)
  place := some nextPlace
  amountCents := some 0
  weeks := none
  criteria := none

/-- `handleAddPlacement`. -/
def handleAddPlacement (totalRosters : ℤ) (rows : List PageEntry) : List PageEntry :=
  if maxPlaces totalRosters ≤ (placements rows).length then rows
  else rows ++ [newPlacement (Binary64.round (maxPlace rows + 1))]

/-- `handleAddWeekly`. -/
def handleAddWeekly (rows : List PageEntry) : List PageEntry :=
  rows ++ [{
    type := some "weekly"
    bonusType := some "weekly_high_score"
    label := some "Weekly High Score"
    place := none
    amountCents := some 0
    weeks := some 14
    criteria := none }]

/-- The operations of the form. Numbers are what `parseInt` makes of the typed text before it is
rounded, and thresholds what `Number` does. -/
inductive FormOp
  | addPlacement
  | addWeekly
  | choosePlace (i : ℕ) (place : ℤ)
  | chooseBonus (i : ℕ) (bonusType : String)
  | typeThreshold (i : ℕ) (threshold : ℚ)
  | typeAmount (i : ℕ) (dollars : ℤ)
  | typeWeeks (i : ℕ) (weeks : ℤ)
  | remove (i : ℕ)

/-- The patch of a row for another bonus type. -/
def bonusPatch (bt : String) (row : PageEntry) : PageEntry :=
  { row with
    bonusType := some bt
    label := some (defaultLabelForBonusType bt)
    weeks := if isWeeklyBonus (some bt) then some (row.weeks.getD 14) else none
    criteria := if bt = "score_threshold" then some (some (row.criteria.join.getD 100)) else none }

/-- What an operation does to the rows. -/
def FormOp.run (totalRosters : ℤ) (rows : List PageEntry) : FormOp → List PageEntry
  | addPlacement => handleAddPlacement totalRosters rows
  | addWeekly => handleAddWeekly rows
  | choosePlace i place => updateRow i (fun row => { row with
      place := some place
      label := some (ordinalLabel place) }) rows
  | chooseBonus i bt => updateRow i (bonusPatch bt) rows
  | typeThreshold i threshold =>
    updateRow i (fun row => { row with criteria := some (some threshold) }) rows
  | typeAmount i dollars => updateRow i (fun row => { row with
      amountCents := some (Binary64.round (Binary64.round dollars * 100)) }) rows
  | typeWeeks i weeks =>
    updateRow i (fun row => { row with weeks := some (Binary64.round weeks) }) rows
  | remove i => removeRow i rows

/-- The page shows the row among the placements or the bonuses. -/
def Shown (row : PageEntry) : Prop := row.type = some "placement" ∨ row.type = some "weekly"

/-- The page offers the operation. -/
def FormOp.Offered (totalRosters : ℤ) (rows : List PageEntry) : FormOp → Prop
  | addPlacement => True
  | addWeekly => True
  | choosePlace i place =>
    place ∈ placeOptions totalRosters ∧ ∃ row ∈ rows[i]?, row.type = some "placement"
  | chooseBonus i bt =>
    bt ∈ bonusTypeOptions.map Prod.fst ∧ ∃ row ∈ rows[i]?, row.type = some "weekly"
  | typeThreshold i _ =>
    ∃ row ∈ rows[i]?, row.type = some "weekly" ∧ row.bonusType = some "score_threshold"
  | typeAmount i _ => ∃ row ∈ rows[i]?, Shown row
  | typeWeeks i _ => ∃ row ∈ rows[i]?, row.type = some "weekly" ∧ isWeeklyBonus row.bonusType = true
  | remove i => ∃ row ∈ rows[i]?, Shown row

/-- An operation of a certain kind that the page offers. -/
def FormStep (totalRosters : ℤ) (ok : List PageEntry → FormOp → Prop)
    (rows rows' : List PageEntry) :
    Prop :=
  ∃ op : FormOp, op.Offered totalRosters rows ∧ ok rows op ∧ rows' = op.run totalRosters rows

/-- The rows after any number of operations. -/
def Edits (totalRosters : ℤ) (ok : List PageEntry → FormOp → Prop) :
    List PageEntry → List PageEntry → Prop :=
  Relation.ReflTransGen (FormStep totalRosters ok)

/-- The form can hold the rows: they come from a served structure by its operations. -/
def Holds (totalRosters : ℤ) (rows : List PageEntry) : Prop :=
  ∃ served, Edits totalRosters (fun _ _ => True) (servedRows served) rows

/-- The form can hold the rows of a served structure. -/
theorem holds_served (served : List PayoutEntry) : Holds totalRosters (servedRows served) :=
  ⟨served, .refl⟩

/-- The form can hold the rows after an operation. -/
theorem Holds.run (h : Holds totalRosters rows) (op : FormOp) (hop : op.Offered totalRosters rows) :
    Holds totalRosters (op.run totalRosters rows) := by
  obtain ⟨served, hedits⟩ := h
  exact ⟨served, hedits.tail ⟨op, hop, trivial, rfl⟩⟩

/-- The places of the selector are those from 1 to the maximum. -/
@[simp] theorem mem_placeOptions {place : ℤ} :
    place ∈ placeOptions totalRosters ↔ 1 ≤ place ∧ place ≤ maxPlaces totalRosters := by
  unfold placeOptions
  constructor
  · intro h
    obtain ⟨i, hi, rfl⟩ := List.mem_map.mp h
    have hlt := List.mem_range.mp hi
    omega
  · rintro ⟨hone, hle⟩
    exact List.mem_map.mpr ⟨(place - 1).toNat, List.mem_range.mpr (by omega), by omega⟩

/-- A row after a patch is an old row or the patched one. -/
theorem mem_updateRow {i : ℕ} {patch : PageEntry → PageEntry} {row : PageEntry}
    (h : row ∈ updateRow i patch rows) :
    row ∈ rows ∨ ∃ old, rows[i]? = some old ∧ row = patch old := by
  obtain ⟨j, hj⟩ := List.mem_iff_getElem?.mp h
  rw [updateRow, List.getElem?_modify] at hj
  cases hold : rows[j]? with
  | none => simp [hold] at hj
  | some old =>
    rw [hold, Option.map_eq_map, Option.map_some, Option.some.injEq] at hj
    split at hj
    · rename_i hij
      subst hij
      exact .inr ⟨old, hold, hj.symm⟩
    · subst hj
      exact .inl (List.mem_of_getElem? hold)

/-- The maximum of a start and the places of some rows: it bounds all of them and is one of them. -/
theorem foldl_max_place (l : List PageEntry) (m : ℤ) :
    let result := l.foldl (fun m r => max m (r.place.getD 0)) m
    m ≤ result ∧ (∀ r ∈ l, r.place.getD 0 ≤ result) ∧
      (result = m ∨ ∃ r ∈ l, r.place.getD 0 = result) := by
  induction l generalizing m with
  | nil => simp
  | cons r l ih =>
    obtain ⟨hstart, hrest, hone⟩ := ih (max m (r.place.getD 0))
    rw [List.foldl_cons]
    refine ⟨by omega, fun r' hr' => ?_, ?_⟩
    · rcases List.mem_cons.mp hr' with rfl | hr'
      · omega
      · exact hrest r' hr'
    · rcases hone with hsame | ⟨r', hr', heq⟩
      · rcases max_choice m (r.place.getD 0) with hm | hr
        · exact .inl (hsame.trans hm)
        · exact .inr ⟨r, List.mem_cons_self, (hsame.trans hr).symm⟩
      · exact .inr ⟨r', List.mem_cons_of_mem r hr', heq⟩

/-- The largest place is not negative. -/
theorem maxPlace_nonneg : 0 ≤ maxPlace rows := (foldl_max_place (placements rows) 0).1

/-- No place is larger than the largest. -/
theorem le_maxPlace {row : PageEntry} {place : ℤ} (hrow : row ∈ placements rows)
    (hplace : row.place = some place) : place ≤ maxPlace rows := by
  have hle := (foldl_max_place (placements rows) 0).2.1 row hrow
  rwa [hplace] at hle

/-- A positive largest place is the place of a row. -/
theorem exists_maxPlace (h : 0 < maxPlace rows) :
    ∃ row ∈ placements rows, row.place = some (maxPlace rows) := by
  rcases (foldl_max_place (placements rows) 0).2.2 with hzero | ⟨row, hrow, hplace⟩
  · exact absurd hzero h.ne'
  · refine ⟨row, hrow, ?_⟩
    cases hsome : row.place with
    | none =>
      rw [hsome] at hplace
      exact absurd hplace h.ne
    | some place =>
      rw [hsome] at hplace
      exact congrArg some hplace

end LeagueSettingsPage

end Wagr
