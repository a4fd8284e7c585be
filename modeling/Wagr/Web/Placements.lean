import Wagr.Library.LastWins
import Wagr.Web.SaveSettings

/-!
# Places in the settings form

The form limits the number of placements and offers only places up to that limit, but it derives a
new place from the largest one and offers places that are taken. So its operations keep the places
apart and in range only if a placement is added while the last place is free, and the chosen place
is taken by no other row.
-/

namespace Wagr

namespace LeagueSettingsPage

variable {totalRosters : ℤ} {rows rows' : List PageEntry}

/-- The placements have different places, all between 1 and the maximum. -/
structure PlacesValid (totalRosters : ℤ) (rows : List PageEntry) : Prop where
  /-- No two placements have the same place. -/
  distinct : ∀ (i j : ℕ) (row row' : PageEntry), i ≠ j → rows[i]? = some row →
    rows[j]? = some row' →
    row.type = some "placement" → row'.type = some "placement" → row.place ≠ row'.place
  /-- Every placement has a place that the selector offers. -/
  offered : ∀ row ∈ rows, row.type = some "placement" →
    ∃ place ∈ placeOptions totalRosters, row.place = some place

/-- What an operation must respect: a placement is added while no row has the last place (unless the
limit is reached and nothing is added), and the chosen place is taken by no other placement. -/
def KeepsPlaces (totalRosters : ℤ) (rows : List PageEntry) : FormOp → Prop
  | .addPlacement => maxPlaces totalRosters ≤ (placements rows).length ∨
    ∀ row ∈ rows, row.type = some "placement" → row.place ≠ some (maxPlaces totalRosters)
  | .choosePlace i place => ∀ (j : ℕ) (row : PageEntry), j ≠ i → rows[j]? = some row →
    row.type = some "placement" → row.place ≠ some place
  | _ => True

/-- Rows of the same types and places are as valid. -/
theorem PlacesValid.updateRow (h : PlacesValid totalRosters rows) {i : ℕ}
    {patch : PageEntry → PageEntry}
    (hpatch : ∀ row, rows[i]? = some row → (patch row).type = some "placement" →
      row.type = some "placement" ∧ (patch row).place = row.place) :
    PlacesValid totalRosters (updateRow i patch rows) := by
  have hback : ∀ (j : ℕ) row, (LeagueSettingsPage.updateRow i patch rows)[j]? = some row →
      row.type = some "placement" →
      ∃ old, rows[j]? = some old ∧ old.type = some "placement" ∧ row.place = old.place := by
    intro j row hrow htype
    rw [LeagueSettingsPage.updateRow, List.getElem?_modify] at hrow
    cases hold : rows[j]? with
    | none => simp [hold] at hrow
    | some old =>
      rw [hold, Option.map_eq_map, Option.map_some, Option.some.injEq] at hrow
      split at hrow
      · rename_i hij
        subst hij hrow
        exact ⟨old, rfl, hpatch old hold htype⟩
      · subst hrow
        exact ⟨old, rfl, htype, rfl⟩
  refine ⟨fun j k row row' hne hrow hrow' htype htype' => ?_, fun row hrow htype => ?_⟩
  · obtain ⟨old, hold, holdtype, hplace⟩ := hback j row hrow htype
    obtain ⟨old', hold', holdtype', hplace'⟩ := hback k row' hrow' htype'
    rw [hplace, hplace']
    exact h.distinct j k old old' hne hold hold' holdtype holdtype'
  · obtain ⟨j, hj⟩ := List.mem_iff_getElem?.mp hrow
    obtain ⟨old, hold, holdtype, hplace⟩ := hback j row hj htype
    rw [hplace]
    exact h.offered old (List.mem_of_getElem? hold) holdtype

/-- Removing a row keeps the places valid. -/
theorem PlacesValid.removeRow (h : PlacesValid totalRosters rows) (i : ℕ) :
    PlacesValid totalRosters (removeRow i rows) := by
  have hback : ∀ j : ℕ, (LeagueSettingsPage.removeRow i rows)[j]? =
      rows[if j < i then j else j + 1]? := by
    intro j
    rw [LeagueSettingsPage.removeRow, List.getElem?_eraseIdx]
    split_ifs
    · rfl
    · rfl
  refine ⟨fun j k row row' hne hrow hrow' => ?_, fun row hrow => ?_⟩
  · rw [hback] at hrow hrow'
    refine h.distinct _ _ row row' ?_ hrow hrow'
    split_ifs
    all_goals omega
  · exact h.offered row (List.mem_of_mem_eraseIdx hrow)

/-- A row that is no placement may be appended. -/
theorem PlacesValid.append (h : PlacesValid totalRosters rows) {row : PageEntry}
    (hrow : row.type ≠ some "placement") : PlacesValid totalRosters (rows ++ [row]) := by
  have hback : ∀ (j : ℕ) r, (rows ++ [row])[j]? = some r → r.type = some "placement" →
      rows[j]? = some r := by
    intro j r hr htype
    rw [List.getElem?_append] at hr
    split_ifs at hr
    · exact hr
    · obtain rfl := List.mem_singleton.mp (List.mem_of_getElem? hr)
      exact absurd htype hrow
  refine ⟨fun j k r r' hne hr hr' htype htype' => ?_, fun r hr htype => ?_⟩
  · exact h.distinct j k r r' hne (hback j r hr htype) (hback k r' hr' htype') htype htype'
  · obtain ⟨j, hj⟩ := List.mem_iff_getElem?.mp hr
    exact h.offered r (List.mem_of_getElem? (hback j r hj htype)) htype

/-- A placement may be appended exactly if its place is offered and not taken. -/
theorem PlacesValid.append_iff (h : PlacesValid totalRosters rows) (place : ℤ) :
    PlacesValid totalRosters (rows ++ [newPlacement place]) ↔
      place ∈ placeOptions totalRosters ∧
        ∀ row ∈ rows, row.type = some "placement" → row.place ≠ some place := by
  have hlast : (rows ++ [newPlacement place])[rows.length]? = some (newPlacement place) := by
    rw [List.getElem?_append_right (by omega), Nat.sub_self]
    rfl
  constructor
  · intro hvalid
    refine ⟨?_, fun row hrow htype => ?_⟩
    · obtain ⟨p, hp, hplace⟩ := hvalid.offered _ (List.mem_append_right rows List.mem_cons_self) rfl
      obtain rfl : place = p := Option.some.inj hplace
      exact hp
    · obtain ⟨j, hj⟩ := List.mem_iff_getElem?.mp hrow
      have hlt : j < rows.length := (List.getElem?_eq_some_iff.mp hj).1
      exact hvalid.distinct j rows.length row (newPlacement place) (by omega)
        ((List.getElem?_append_left hlt).trans hj) hlast htype rfl
  · rintro ⟨hoffered, hfree⟩
    have hback : ∀ (j : ℕ) r, (rows ++ [newPlacement place])[j]? = some r →
        rows[j]? = some r ∨ j = rows.length ∧ r = newPlacement place := by
      intro j r hr
      rw [List.getElem?_append] at hr
      split_ifs at hr with hlt
      · exact .inl hr
      · have hzero : j - rows.length = 0 := by
          by_contra hne
          rw [List.getElem?_cons, if_neg hne] at hr
          simp at hr
        rw [hzero] at hr
        exact .inr ⟨by omega, (Option.some.inj hr).symm⟩
    refine ⟨fun j k r r' hne hr hr' htype htype' => ?_, fun r hr htype => ?_⟩
    · rcases hback j r hr with hr | ⟨rfl, rfl⟩ <;> rcases hback k r' hr' with hr' | ⟨rfl, rfl⟩
      · exact h.distinct j k r r' hne hr hr' htype htype'
      · exact hfree r (List.mem_of_getElem? hr) htype
      · exact (hfree r' (List.mem_of_getElem? hr') htype').symm
      · exact absurd rfl hne
    · rcases List.mem_append.mp hr with hr | hr
      · exact h.offered r hr htype
      · obtain rfl := List.mem_singleton.mp hr
        exact ⟨place, hoffered, rfl⟩

/-- Choosing a place for a placement keeps the places valid exactly if no other placement has it. -/
theorem PlacesValid.choose_iff (h : PlacesValid totalRosters rows) {i : ℕ} {place : ℤ}
    {chosen : PageEntry} (hchosen : rows[i]? = some chosen) (htype : chosen.type = some "placement")
    (hplace : place ∈ placeOptions totalRosters) :
    PlacesValid totalRosters (FormOp.run totalRosters rows (.choosePlace i place)) ↔
      KeepsPlaces totalRosters rows (.choosePlace i place) := by
  obtain ⟨patch, hpatch⟩ : ∃ patch : PageEntry → PageEntry, patch = fun row => { row with
      place := some place
      label := some (ordinalLabel place) } := ⟨_, rfl⟩
  have hrun : FormOp.run totalRosters rows (.choosePlace i place) =
      LeagueSettingsPage.updateRow i patch rows := by
    rw [hpatch]
    rfl
  have hpatched : ∀ row, (patch row).type = row.type ∧ (patch row).place = some place := by
    rw [hpatch]
    exact fun row => ⟨rfl, rfl⟩
  have hself : (LeagueSettingsPage.updateRow i patch rows)[i]? = some (patch chosen) := by
    rw [LeagueSettingsPage.updateRow, List.getElem?_modify, hchosen]
    simp
  have hother : ∀ j : ℕ, j ≠ i → (LeagueSettingsPage.updateRow i patch rows)[j]? = rows[j]? := by
    intro j hne
    rw [LeagueSettingsPage.updateRow, List.getElem?_modify]
    simp [hne.symm]
  rw [hrun]
  constructor
  · intro hvalid j row hne hrow hrowtype
    have hdistinct := hvalid.distinct j i row (patch chosen) hne ((hother j hne).trans hrow) hself
      hrowtype ((hpatched chosen).1.trans htype)
    rwa [(hpatched chosen).2] at hdistinct
  · intro hfree
    refine ⟨fun j k row row' hne hrow hrow' hrowtype hrowtype' => ?_, fun row hrow hrowtype => ?_⟩
    · by_cases hj : j = i
      · subst hj
        obtain rfl := Option.some.inj (hself.symm.trans hrow)
        rw [hother k hne.symm] at hrow'
        rw [(hpatched chosen).2]
        exact (hfree k row' hne.symm hrow' hrowtype').symm
      · rw [hother j hj] at hrow
        by_cases hk : k = i
        · subst hk
          obtain rfl := Option.some.inj (hself.symm.trans hrow')
          rw [(hpatched chosen).2]
          exact hfree j row hj hrow hrowtype
        · rw [hother k hk] at hrow'
          exact h.distinct j k row row' hne hrow hrow' hrowtype hrowtype'
    · rcases mem_updateRow hrow with hold | ⟨old, -, rfl⟩
      · exact h.offered row hold hrowtype
      · exact ⟨place, hplace, (hpatched old).2⟩

/-- A league of at most `2 ^ 31` teams has no place that a double does not hold. -/
theorem round_place {place : ℤ} (hsize : totalRosters < 2 ^ 31) (hnonneg : 0 ≤ place)
    (hle : place ≤ maxPlaces totalRosters) : Binary64.round (place + 1) = place + 1 := by
  refine Binary64.exact_of_lt ?_
  unfold maxPlaces at hle
  omega

/-- Adding a placement keeps the places valid exactly if the last place is free, or the limit is
reached. -/
theorem PlacesValid.add_iff (h : PlacesValid totalRosters rows) (hsize : totalRosters < 2 ^ 31) :
    PlacesValid totalRosters (FormOp.run totalRosters rows .addPlacement) ↔
      KeepsPlaces totalRosters rows .addPlacement := by
  change PlacesValid totalRosters (handleAddPlacement totalRosters rows) ↔ _ ∨ _
  unfold handleAddPlacement
  split_ifs with hlimit
  · exact ⟨fun _ => .inl hlimit, fun _ => h⟩
  have hmem : ∀ row, row ∈ placements rows ↔ row ∈ rows ∧ row.type = some "placement" := by
    intro row
    simp [placements]
  have hnonneg : 0 ≤ maxPlace rows := maxPlace_nonneg
  have hbound : maxPlace rows ≤ maxPlaces totalRosters := by
    rcases hnonneg.eq_or_lt with hzero | hpos
    · have hlength : (0 : ℤ) ≤ (placements rows).length := Int.natCast_nonneg _
      omega
    · obtain ⟨row, hrow, hplace⟩ := exists_maxPlace hpos
      obtain ⟨place, hoffered, hrowplace⟩ :=
        h.offered row ((hmem row).mp hrow).1 ((hmem row).mp hrow).2
      obtain rfl : maxPlace rows = place := Option.some.inj (hplace.symm.trans hrowplace)
      exact (mem_placeOptions.mp hoffered).2
  rw [round_place hsize hnonneg hbound, h.append_iff, mem_placeOptions]
  constructor
  · rintro ⟨⟨-, hle⟩, -⟩
    refine .inr fun row hrow htype hplace => ?_
    have hlast := le_maxPlace ((hmem row).mpr ⟨hrow, htype⟩) hplace
    omega
  · rintro (hfull | hfree)
    · exact absurd hfull hlimit
    · refine ⟨⟨by omega, ?_⟩, fun row hrow htype hplace => ?_⟩
      · rcases hnonneg.eq_or_lt with hzero | hpos
        · have hlength : (0 : ℤ) ≤ (placements rows).length := Int.natCast_nonneg _
          omega
        · obtain ⟨row, hrow, hplace⟩ := exists_maxPlace hpos
          have hne := hfree row ((hmem row).mp hrow).1 ((hmem row).mp hrow).2
          rw [hplace] at hne
          have hdifferent : maxPlace rows ≠ maxPlaces totalRosters :=
            fun heq => hne (congrArg some heq)
          omega
      · have hlast := le_maxPlace ((hmem row).mpr ⟨hrow, htype⟩) hplace
        omega

/-- An operation keeps the places valid exactly if it respects them. -/
theorem PlacesValid.run_iff (h : PlacesValid totalRosters rows) (hsize : totalRosters < 2 ^ 31)
    {op : FormOp} (hop : op.Offered totalRosters rows) :
    PlacesValid totalRosters (op.run totalRosters rows) ↔ KeepsPlaces totalRosters rows op := by
  cases op with
  | addPlacement => exact h.add_iff hsize
  | addWeekly => exact iff_of_true (h.append (by decide)) trivial
  | choosePlace i place =>
    obtain ⟨hplace, chosen, hchosen, htype⟩ := hop
    exact h.choose_iff hchosen htype hplace
  | chooseBonus i bt =>
    refine iff_of_true (h.updateRow fun row hrow htype => ?_) trivial
    exact ⟨htype, rfl⟩
  | typeThreshold i threshold =>
    exact iff_of_true (h.updateRow fun row hrow htype => ⟨htype, rfl⟩) trivial
  | typeAmount i dollars =>
    exact iff_of_true (h.updateRow fun row hrow htype => ⟨htype, rfl⟩) trivial
  | typeWeeks i weeks =>
    exact iff_of_true (h.updateRow fun row hrow htype => ⟨htype, rfl⟩) trivial
  | remove i => exact iff_of_true (h.removeRow i) trivial

/-- The saved entries: each place is offered by the selector, and no entry replaces another one. -/
def PlacesReached (totalRosters : ℤ) (entries : List PayoutEntry) : Prop :=
  ∀ e ∈ entries, e.type = "placement" → e.place ∈ placeOptions totalRosters ∧
    placeToEntry (entries.filter fun e => e.type = "placement") e.place = some e

/-- A placement is saved with the place of its row. -/
theorem PlacesValid.decoded (h : PlacesValid totalRosters rows) (hsize : totalRosters < 2 ^ 31)
    {row : PageEntry} (hrow : row ∈ rows) {e : PayoutEntry} (he : decodeRow row = some e)
    (htype : e.type = "placement") :
    row.type = some "placement" ∧ row.place = some e.place ∧
      e.place ∈ placeOptions totalRosters := by
  obtain ⟨place, cents, weeks, hplace, -, -, rfl⟩ := decodeRow_eq_some he
  have hrowtype : row.type = some "placement" := by
    cases hsome : row.type with
    | none =>
      rw [hsome] at htype
      exact absurd htype (show "" ≠ "placement" by decide)
    | some type =>
      rw [hsome] at htype
      exact congrArg some htype
  obtain ⟨p, hp, hrowplace⟩ := h.offered row hrow hrowtype
  have hsmall : p.natAbs < 2 ^ 53 := by
    obtain ⟨hone, hle⟩ := mem_placeOptions.mp hp
    unfold maxPlaces at hle
    omega
  rw [hrowplace, decodeInt_of_lt hsmall] at hplace
  obtain rfl := Option.some.inj hplace
  exact ⟨hrowtype, hrowplace, hp⟩

/-- Valid places are all reached after they have been saved. -/
theorem PlacesValid.reached (h : PlacesValid totalRosters rows) (hsize : totalRosters < 2 ^ 31)
    {entries : List PayoutEntry} (hentries : decodeRows rows = some entries) :
    PlacesReached totalRosters entries := by
  have hforall := decodeRows_eq_some.mp hentries
  have hrow : ∀ e ∈ entries, ∃ (i : ℕ) (row : PageEntry), entries[i]? = some e ∧
      rows[i]? = some row ∧ decodeRow row = some e := by
    intro e he
    obtain ⟨i, hi, rfl⟩ := List.mem_iff_getElem.mp he
    have hi' : i < rows.length := hforall.length_eq ▸ hi
    exact ⟨i, rows[i], List.getElem?_eq_getElem hi, List.getElem?_eq_getElem hi',
      hforall.get hi' hi⟩
  intro e he htype
  obtain ⟨i, row, hei, hri, hdecode⟩ := hrow e he
  obtain ⟨hrowtype, hplace, hoffered⟩ := h.decoded hsize (List.mem_of_getElem? hri) hdecode htype
  refine ⟨hoffered, ?_⟩
  have hmem : e ∈ entries.filter fun e => e.type = "placement" :=
    List.mem_filter.mpr ⟨he, decide_eq_true htype⟩
  obtain ⟨e', hfind⟩ := LastWins.exists_find PayoutEntry.place hmem
  obtain ⟨hmem', hsame⟩ := LastWins.mem_of_find PayoutEntry.place hfind
  obtain ⟨he', htype'⟩ := List.mem_filter.mp hmem'
  obtain ⟨j, row', hej, hrj, hdecode'⟩ := hrow e' he'
  obtain ⟨hrowtype', hplace', -⟩ :=
    h.decoded hsize (List.mem_of_getElem? hrj) hdecode' (of_decide_eq_true htype')
  have hindex : i = j := by
    by_contra hne
    exact h.distinct i j row row' hne hri hrj hrowtype hrowtype' (by rw [hplace, hplace', hsame])
  obtain rfl : e = e' := by
    rw [hindex, hej] at hei
    exact (Option.some.inj hei).symm
  exact hfind

/-- Operations that respect the places keep them valid, every other operation does not, and entries
with valid places are all reached. -/
theorem placesValid_iff (totalRosters : Int32) {rows rows' : List PageEntry}
    (h : Edits totalRosters.toInt (KeepsPlaces totalRosters.toInt) rows rows')
    (hvalid : PlacesValid totalRosters.toInt rows) :
    PlacesValid totalRosters.toInt rows' ∧
      (∀ op : FormOp, op.Offered totalRosters.toInt rows' →
        (PlacesValid totalRosters.toInt (op.run totalRosters.toInt rows') ↔
          KeepsPlaces totalRosters.toInt rows' op)) ∧
      ∀ entries, decodeRows rows' = some entries → PlacesReached totalRosters.toInt entries := by
  have hsize : totalRosters.toInt < 2 ^ 31 := totalRosters.toInt_lt
  have hvalid' : PlacesValid totalRosters.toInt rows' := by
    induction h with
    | refl => exact hvalid
    | tail _ hstep ih =>
      obtain ⟨op, hop, hkeeps, rfl⟩ := hstep
      exact (ih.run_iff hsize hop).mpr hkeeps
  exact ⟨hvalid', fun op hop => hvalid'.run_iff hsize hop,
    fun entries hentries => hvalid'.reached hsize hentries⟩

/-- Without placements all places are valid. -/
theorem placesValid_nil : PlacesValid totalRosters [] :=
  ⟨fun i j row row' _ hrow => by simp at hrow, fun row hrow => by simp at hrow⟩

/-- Two placements are added, the first gets the third place, the second is removed, and the
placement added last gets the fourth place. -/
theorem placesValid_chosenPlaces : PlacesValid 8 [newPlacement 3, newPlacement 4] := by
  let keeps := KeepsPlaces (8 : Int32).toInt
  have hadd : FormStep (8 : Int32).toInt keeps [] [newPlacement 1] :=
    ⟨.addPlacement, trivial, .inr (by simp), rfl⟩
  have hadd' : FormStep (8 : Int32).toInt keeps [newPlacement 1] [newPlacement 1, newPlacement 2] :=
    ⟨.addPlacement, trivial, .inr (by decide), rfl⟩
  have hthird : ∀ (j : ℕ) (row : PageEntry), j ≠ 0 →
      [newPlacement 1, newPlacement 2][j]? = some row → row.type = some "placement" →
        row.place ≠ some 3 := by
    intro j row _ hrow _
    have hfree : ∀ row ∈ [newPlacement 1, newPlacement 2], row.place ≠ some 3 := by decide
    exact hfree row (List.mem_of_getElem? hrow)
  have hchoose : FormStep (8 : Int32).toInt keeps [newPlacement 1, newPlacement 2]
      [newPlacement 3, newPlacement 2] :=
    ⟨.choosePlace 0 3, ⟨by decide, newPlacement 1, rfl, rfl⟩, hthird, rfl⟩
  have hremove : FormStep (8 : Int32).toInt keeps [newPlacement 3, newPlacement 2]
      [newPlacement 3] := ⟨.remove 1, ⟨newPlacement 2, rfl, .inl rfl⟩, trivial, rfl⟩
  have hlast : FormStep (8 : Int32).toInt keeps [newPlacement 3] [newPlacement 3, newPlacement 4] :=
    ⟨.addPlacement, trivial, .inr (by decide), rfl⟩
  have hedits := ((((Relation.ReflTransGen.single hadd).tail hadd').tail hchoose).tail hremove).tail
    hlast
  exact (placesValid_iff 8 hedits placesValid_nil).1

/-- The place of the third placement is above the limit although the first one was removed. -/
theorem not_placesValid : ¬ ∀ (totalRosters : Int32) (rows rows' : List PageEntry),
    PlacesValid totalRosters.toInt rows → Edits totalRosters.toInt (fun _ _ => True) rows rows' →
      PlacesValid totalRosters.toInt rows' := by
  intro hall
  have hadd : FormStep (4 : Int32).toInt (fun _ _ => True) [] [newPlacement 1] :=
    ⟨.addPlacement, trivial, trivial, rfl⟩
  have hadd' : FormStep (4 : Int32).toInt (fun _ _ => True) [newPlacement 1]
      [newPlacement 1, newPlacement 2] := ⟨.addPlacement, trivial, trivial, rfl⟩
  have hremove : FormStep (4 : Int32).toInt (fun _ _ => True) [newPlacement 1, newPlacement 2]
      [newPlacement 2] := ⟨.remove 0, ⟨newPlacement 1, rfl, .inl rfl⟩, trivial, rfl⟩
  have hlast : FormStep (4 : Int32).toInt (fun _ _ => True) [newPlacement 2]
      [newPlacement 2, newPlacement 3] := ⟨.addPlacement, trivial, trivial, rfl⟩
  have hedits := (((Relation.ReflTransGen.single hadd).tail hadd').tail hremove).tail hlast
  have hvalid := hall 4 [] _ placesValid_nil hedits
  obtain ⟨place, hplace, hthree⟩ := hvalid.offered (newPlacement 3) (by simp) rfl
  obtain rfl : 3 = place := Option.some.inj hthree
  exact absurd (mem_placeOptions.mp hplace).2 (by decide)

end LeagueSettingsPage

end Wagr
