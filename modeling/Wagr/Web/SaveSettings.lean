import Wagr.Database.Effects
import Wagr.Library.Execution
import Wagr.Service.Gateway
import Wagr.Web.SettingsForm

/-!
# Saving the settings

What `handleSave` sends through the gateway, what the service stores, and what the page shows after
it is read back. A number is sent as its digits, and the handler refuses digits that are no `int64`.
All other rows come back as they were, except that zero weeks are left out.
-/

namespace Wagr

open Interaction Interaction.Program Relational

/-- The range of `int64`, and of `int`. -/
def IsInt64 (n : ℤ) : Prop := -2 ^ 63 ≤ n ∧ n < 2 ^ 63

instance : DecidablePred IsInt64 := fun _ => inferInstanceAs (Decidable (_ ∧ _))

/-- The database with another time of the last update of a league. -/
def Database.touchLeague (db : Database) (leagueID : String) (time : ℕ) : Database :=
  (db.updateLeagues (fun l => l.id = leagueID) (fun l => { l with updatedAt := time })
    fun _ => rfl).2

namespace LeagueSettingsPage

variable {totalRosters : ℤ} {rows rows' : List PageEntry} {row row' : PageEntry}

/-- `json.Unmarshal` of the digits of a number, an error if they are out of range. A number that is
left out stays zero. -/
def decodeInt : Option ℤ → Option ℤ
  | none => some 0
  | some n => if IsInt64 (Binary64.digits n) then some (Binary64.digits n) else none

/-- `json.Unmarshal` of a row as `JSON.stringify` writes it. -/
def decodeRow (row : PageEntry) : Option PayoutEntry := do
  let place ← decodeInt row.place
  let amountCents ← decodeInt row.amountCents
  let weeks ← decodeInt row.weeks
  return {
    type := row.type.getD ""
    bonusType := row.bonusType.getD ""
    label := row.label.getD ""
    place := place
    amountCents := Int64.ofInt amountCents
    weeks := weeks
    criteria := row.criteria }

/-- `json.Unmarshal` of the rows; one error refuses all of them. -/
def decodeRows (rows : List PageEntry) : Option (List PayoutEntry) := rows.mapM decodeRow

/-- `json.Unmarshal` of the body that `handleSave` sends. -/
def decodeBody (fee : Int64) (rows : List PageEntry) : Option UpdateSettingsRequest :=
  (decodeRows rows).map fun entries => ⟨fee, some entries⟩

/-- The request that `handleSave` sends. -/
def saveEndpoint (authHeader leagueID : String) (fee : Int64) (rows : List PageEntry) : Endpoint :=
  .league authHeader (.updateLeagueSettings leagueID (decodeBody fee rows))

/-- The gateway lets the request pass, the service stores the rows and reads the settings back, and
the page shows other rows for them. -/
def Saves (jwt : JWT) (now : ℕ) (authHeader leagueID : String) (fee : Int64) (w w' : World)
    (rows rows' : List PageEntry) : Prop :=
  ∃ userID req settings calls,
    (saveEndpoint authHeader leagueID fee rows).request jwt now =
      .ok (.updateLeagueSettings leagueID userID req) ∧
    (updateLeagueSettings leagueID userID req).run.Yields (.ok settings) calls ∧
    Leads World.handles w calls w' ∧ rows' = servedRows settings.payoutStructure

/-- Rows with the same fields, where no weeks are zero weeks. -/
structure SameRow (row row' : PageEntry) : Prop where
  type : row'.type = row.type
  bonusType : row'.bonusType = row.bonusType
  label : row'.label = row.label
  place : row'.place = row.place
  amountCents : row'.amountCents = row.amountCents
  weeks : row'.weeks.getD 0 = row.weeks.getD 0
  criteria : row'.criteria = row.criteria

/-- The rows have the same fields. -/
def SameRows (rows rows' : List PageEntry) : Prop := List.Forall₂ SameRow rows rows'

/-- The amounts have at most 53 bits. -/
def SmallAmounts (rows : List PageEntry) : Prop :=
  ∀ row ∈ rows, ∀ cents ∈ row.amountCents, cents.natAbs < 2 ^ 53

/-! ## The rows of the form -/

/-- What the fields of a row in the form look like. -/
structure WellFormed (row : PageEntry) : Prop where
  type : row.type.isSome
  bonusType : if row.type = some "weekly" then ∃ bt ∈ row.bonusType, bt ≠ ""
    else row.bonusType = none
  label : ∃ label ∈ row.label, label ≠ ""
  place : ∀ n ∈ row.place, n ≠ 0 ∧ Binary64.Exact n
  amountCents : row.amountCents.isSome
  weeks : ∀ n ∈ row.weeks, Binary64.Exact n

/-- A label for a place is not empty. -/
theorem ordinalLabel_ne (n : ℤ) : ordinalLabel n ≠ "" := by
  unfold ordinalLabel
  dsimp only
  split_ifs
  all_goals simp

/-- A label for a bonus type is not empty. -/
theorem defaultLabelForBonusType_ne {bt : String} (h : bt ≠ "") :
    defaultLabelForBonusType bt ≠ "" := by
  unfold defaultLabelForBonusType
  cases hlookup : bonusTypeOptions.lookup bt with
  | none => exact h
  | some label =>
    obtain ⟨bt', hmem⟩ : ∃ bt', (bt', label) ∈ bonusTypeOptions := by
      obtain ⟨l₁, l₂, hoptions, -⟩ := List.lookup_eq_some_iff.mp hlookup
      exact ⟨bt, by simp [hoptions]⟩
    have hall : ∀ o ∈ bonusTypeOptions, o.2 ≠ "" := by decide
    exact hall _ hmem

/-- The bonus type that the page takes for an entry is not empty. -/
theorem servedBonus_ne (e : PayoutEntry) :
    e.encode.json.bonusType.getD "weekly_high_score" ≠ "" := by
  by_cases hempty : e.bonusType = ""
  · simp [PayoutEntry.encode, StoredEntry.json, hempty]
  · simp [PayoutEntry.encode, StoredEntry.json, hempty]

/-- The rows of a served structure are well formed. -/
theorem wellFormed_served (i : ℕ) (e : PayoutEntry) :
    WellFormed (normalizeEntry i e.encode.json) where
  type := rfl
  bonusType := by
    have hbonus := servedBonus_ne e
    by_cases hweekly : e.type = "weekly"
    · simp [normalizeEntry, PayoutEntry.encode, StoredEntry.json, hweekly] at hbonus ⊢
      exact hbonus
    · simp [normalizeEntry, PayoutEntry.encode, StoredEntry.json, hweekly]
  label := by
    by_cases hlabel : e.label = ""
    · by_cases hweekly : e.type = "weekly"
      · refine ⟨_, ?_, defaultLabelForBonusType_ne (servedBonus_ne e)⟩
        simp [normalizeEntry, PayoutEntry.encode, StoredEntry.json, hlabel, hweekly]
      · refine ⟨_, ?_, ordinalLabel_ne (e.encode.json.place.getD (i + 1))⟩
        simp [normalizeEntry, PayoutEntry.encode, StoredEntry.json, hlabel, hweekly]
    · refine ⟨e.label, ?_, hlabel⟩
      simp [normalizeEntry, PayoutEntry.encode, StoredEntry.json, hlabel]
  place := by
    intro n hn
    by_cases hzero : e.place = 0
    · simp [normalizeEntry, PayoutEntry.encode, StoredEntry.json, hzero] at hn
    · simp [normalizeEntry, PayoutEntry.encode, StoredEntry.json, hzero] at hn
      subst hn
      exact ⟨Binary64.round_ne_zero hzero, Binary64.exact_round e.place⟩
  amountCents := rfl
  weeks := by
    intro n hn
    by_cases hzero : e.weeks = 0
    · simp [normalizeEntry, PayoutEntry.encode, StoredEntry.json, hzero] at hn
    · simp [normalizeEntry, PayoutEntry.encode, StoredEntry.json, hzero] at hn
      subst hn
      exact Binary64.exact_round e.weeks

/-- A patch of one well-formed row keeps the rows well formed. -/
theorem wellFormed_updateRow (h : ∀ row ∈ rows, WellFormed row) {i : ℕ}
    {patch : PageEntry → PageEntry}
    (hpatch : ∀ row, rows[i]? = some row → WellFormed row → WellFormed (patch row)) :
    ∀ row ∈ updateRow i patch rows, WellFormed row := by
  intro row hrow
  rcases mem_updateRow hrow with hold | ⟨old, hold, rfl⟩
  · exact h row hold
  · exact hpatch old hold (h old (List.mem_of_getElem? hold))

/-- An operation keeps the rows well formed. -/
theorem wellFormed_run (hsize : totalRosters < 2 ^ 31)
    (h : ∀ row ∈ rows, WellFormed row) {op : FormOp}
    (hop : op.Offered totalRosters rows) : ∀ row ∈ op.run totalRosters rows, WellFormed row := by
  cases op with
  | addPlacement =>
    intro row hrow
    simp only [FormOp.run, handleAddPlacement] at hrow
    split_ifs at hrow
    · exact h row hrow
    · rcases List.mem_append.mp hrow with hrow | hrow
      · exact h row hrow
      · obtain rfl := List.mem_singleton.mp hrow
        refine ⟨rfl, rfl, ⟨_, rfl, ordinalLabel_ne _⟩, ?_, rfl, ?_⟩
        · rintro n ⟨⟩
          have hnonneg : 0 ≤ maxPlace rows := maxPlace_nonneg
          exact ⟨Binary64.round_ne_zero (by omega), Binary64.exact_round _⟩
        · rintro n ⟨⟩
  | addWeekly =>
    intro row hrow
    rcases List.mem_append.mp hrow with hrow | hrow
    · exact h row hrow
    · obtain rfl := List.mem_singleton.mp hrow
      refine ⟨rfl, ⟨_, rfl, by decide⟩, ⟨_, rfl, by decide⟩, ?_, rfl, ?_⟩
      · rintro n ⟨⟩
      · rintro n ⟨⟩
        exact Binary64.exact_of_lt (by decide)
  | choosePlace i place =>
    obtain ⟨hplace, chosen, hchosen, htype⟩ := hop
    refine wellFormed_updateRow h fun row hrow hwf => ⟨hwf.type, hwf.bonusType,
      ⟨_, rfl, ordinalLabel_ne place⟩, ?_, hwf.amountCents, hwf.weeks⟩
    rintro n ⟨⟩
    obtain ⟨hone, hle⟩ := mem_placeOptions.mp hplace
    refine ⟨by omega, Binary64.exact_of_lt ?_⟩
    unfold maxPlaces at hle
    omega
  | chooseBonus i bt =>
    obtain ⟨hbt, chosen, hchosen, htype⟩ := hop
    have hne : bt ≠ "" := by
      have hall : ∀ o ∈ bonusTypeOptions.map Prod.fst, o ≠ "" := by decide
      exact hall bt hbt
    refine wellFormed_updateRow h fun row hrow hwf => ⟨hwf.type, ?_,
      ⟨_, rfl, defaultLabelForBonusType_ne hne⟩, hwf.place, hwf.amountCents, ?_⟩
    · obtain rfl : chosen = row := Option.some.inj (hchosen.symm.trans hrow)
      have hpatched : (bonusPatch bt chosen).type = some "weekly" := htype
      rw [if_pos hpatched]
      exact ⟨bt, rfl, hne⟩
    · intro n hn
      simp only [bonusPatch] at hn
      split_ifs at hn
      · cases hn
        cases hweeks : row.weeks with
        | none => exact Binary64.exact_of_lt (by decide)
        | some n => exact hwf.weeks n hweeks
      · cases hn
  | typeThreshold i threshold =>
    exact wellFormed_updateRow h fun row hrow hwf =>
      ⟨hwf.type, hwf.bonusType, hwf.label, hwf.place, hwf.amountCents, hwf.weeks⟩
  | typeAmount i dollars =>
    exact wellFormed_updateRow h fun row hrow hwf =>
      ⟨hwf.type, hwf.bonusType, hwf.label, hwf.place, rfl, hwf.weeks⟩
  | typeWeeks i weeks =>
    refine wellFormed_updateRow h fun row hrow hwf =>
      ⟨hwf.type, hwf.bonusType, hwf.label, hwf.place, hwf.amountCents, ?_⟩
    rintro n ⟨⟩
    exact Binary64.exact_round weeks
  | remove i => exact fun row hrow => h row (List.mem_of_mem_eraseIdx hrow)

/-- All rows that the form can hold are well formed. -/
theorem Holds.wellFormed (h : Holds totalRosters rows) (hsize : totalRosters < 2 ^ 31) :
    ∀ row ∈ rows, WellFormed row := by
  obtain ⟨served, hedits⟩ := h
  induction hedits with
  | refl =>
    intro row hrow
    obtain ⟨i, hi, rfl⟩ := List.mem_mapIdx.mp hrow
    rw [List.getElem_map]
    exact wellFormed_served i _
  | tail hedits hstep ih =>
    obtain ⟨op, hop, -, rfl⟩ := hstep
    exact wellFormed_run hsize ih hop

/-! ## The round trip -/

/-- Small numbers are decoded as they are. -/
theorem decodeInt_of_lt {n : ℤ} (h : n.natAbs < 2 ^ 53) : decodeInt (some n) = some n := by
  have hfits : IsInt64 n := by
    constructor
    all_goals omega
  rw [decodeInt, Binary64.digits_of_lt h, if_pos hfits]

/-- Missing numbers are decoded as zero. -/
theorem decodeInt_getD (n : Option ℤ) : decodeInt n = decodeInt (some (n.getD 0)) := by
  cases n with
  | none => exact (decodeInt_of_lt (by decide)).symm
  | some n => rfl

/-- Digits are refused exactly if they are out of range. -/
theorem decodeInt_eq_none {n : Option ℤ} :
    decodeInt n = none ↔ ∃ k ∈ n, ¬ IsInt64 (Binary64.digits k) := by
  cases n with
  | none => simp [decodeInt]
  | some n => simp [decodeInt]

/-- What is decoded as a number is the double of the page again. -/
theorem round_decodeInt {n : Option ℤ} {k : ℤ} (h : decodeInt n = some k)
    (hexact : ∀ m ∈ n, Binary64.Exact m) : Binary64.round k = n.getD 0 := by
  cases n with
  | none =>
    obtain rfl := Option.some.inj h
    exact Binary64.round_zero
  | some n =>
    simp only [decodeInt] at h
    split_ifs at h
    obtain rfl := Option.some.inj h
    exact Binary64.round_digits (hexact n rfl)

/-- Rows with the same fields are sent as the same entry. -/
theorem SameRow.decodeRow (h : SameRow row row') : decodeRow row' = decodeRow row := by
  unfold LeagueSettingsPage.decodeRow
  rw [h.type, h.bonusType, h.label, h.place, h.amountCents, h.criteria, decodeInt_getD row'.weeks,
    h.weeks, ← decodeInt_getD row.weeks]

/-- Rows with the same fields add the same to the total. -/
theorem SameRow.rowTotal (h : SameRow row row') : rowTotal row' = rowTotal row := by
  unfold LeagueSettingsPage.rowTotal
  rw [h.type, h.bonusType, h.amountCents, h.weeks]

/-- A decoded row. -/
theorem decodeRow_eq_some {e : PayoutEntry} (h : decodeRow row = some e) :
    ∃ place cents weeks, decodeInt row.place = some place ∧ decodeInt row.amountCents = some cents ∧
      decodeInt row.weeks = some weeks ∧ e = ⟨row.type.getD "", row.bonusType.getD "",
        row.label.getD "", place, Int64.ofInt cents, weeks, row.criteria⟩ := by
  simp only [decodeRow, Option.bind_eq_bind, Option.bind_eq_some_iff, Option.pure_def] at h
  obtain ⟨place, hplace, cents, hcents, weeks, hweeks, he⟩ := h
  exact ⟨place, cents, weeks, hplace, hcents, hweeks, (Option.some.inj he).symm⟩

/-- A row that is saved is shown with the same fields. -/
theorem WellFormed.served (h : WellFormed row)
    (hamount : ∀ cents ∈ row.amountCents, cents.natAbs < 2 ^ 53)
    {e : PayoutEntry} (he : decodeRow row = some e) (i : ℕ) :
    SameRow row (normalizeEntry i e.encode.json) := by
  obtain ⟨place, cents, weeks, hplace, hcents, hweeks, rfl⟩ := decodeRow_eq_some he
  obtain ⟨type, htype⟩ := Option.isSome_iff_exists.mp h.type
  obtain ⟨label, hlabel, hlabelne⟩ := h.label
  obtain ⟨amount, hamountrow⟩ := Option.isSome_iff_exists.mp h.amountCents
  have hround := round_decodeInt hplace fun n hn => (h.place n hn).2
  have hroundweeks := round_decodeInt hweeks h.weeks
  have hamountlt := hamount amount hamountrow
  have hcents' : cents = amount := by
    rw [hamountrow, decodeInt_of_lt hamountlt] at hcents
    exact (Option.some.inj hcents).symm
  refine ⟨?_, ?_, ?_, ?_, ?_, ?_, rfl⟩
  · simp [normalizeEntry, PayoutEntry.encode, StoredEntry.json, htype]
  · have hbonus := h.bonusType
    by_cases hweekly : type = "weekly"
    · rw [htype, hweekly, if_pos rfl] at hbonus
      obtain ⟨bt, hbt, hne⟩ := hbonus
      simp [normalizeEntry, PayoutEntry.encode, StoredEntry.json, htype, hweekly,
        Option.mem_def.mp hbt, hne]
    · rw [htype, if_neg (by simpa using hweekly)] at hbonus
      simp [normalizeEntry, PayoutEntry.encode, StoredEntry.json, htype, hweekly, hbonus]
  · simp [normalizeEntry, PayoutEntry.encode, StoredEntry.json, Option.mem_def.mp hlabel, hlabelne]
  · cases hsome : row.place with
    | none =>
      rw [hsome] at hplace
      obtain rfl := Option.some.inj hplace
      rfl
    | some n =>
      rw [hsome, Option.getD_some] at hround
      have hne : place ≠ 0 := by
        rintro rfl
        rw [Binary64.round_zero] at hround
        exact (h.place n hsome).1 hround.symm
      simp [normalizeEntry, PayoutEntry.encode, StoredEntry.json, hne, hround]
  · have hfits : (Int64.ofInt amount).toInt = amount := by
      rw [Int64.toInt_ofInt_of_le]
      all_goals omega
    have hsame : Binary64.round amount = amount := Binary64.exact_of_lt hamountlt
    simp only [normalizeEntry, PayoutEntry.encode, StoredEntry.json, Option.map_some,
      hcents', hfits,
      hsame, hamountrow]
  · rw [← hroundweeks]
    by_cases hzero : weeks = 0
    · simp [normalizeEntry, PayoutEntry.encode, StoredEntry.json, hzero]
    · simp [normalizeEntry, PayoutEntry.encode, StoredEntry.json, hzero]

/-- The rows are decoded one by one. -/
theorem decodeRows_eq_some {entries : List PayoutEntry} : decodeRows rows = some entries ↔
    List.Forall₂ (fun row e => decodeRow row = some e) rows entries := by
  induction rows generalizing entries with
  | nil => simp [decodeRows, eq_comm]
  | cons row rows ih =>
    rw [decodeRows, List.mapM_cons, List.forall₂_cons_left_iff]
    simp only [Option.bind_eq_bind, Option.bind_eq_some_iff, Option.pure_def, Option.some.injEq]
    constructor
    · rintro ⟨e, he, rest, hrest, rfl⟩
      exact ⟨e, rest, he, ih.mp hrest, rfl⟩
    · rintro ⟨e, rest, he, hrest, rfl⟩
      exact ⟨e, he, rest, ih.mpr hrest, rfl⟩

/-- One refused row refuses all. -/
theorem decodeRows_eq_none : decodeRows rows = none ↔ ∃ row ∈ rows, decodeRow row = none := by
  induction rows with
  | nil => simp [decodeRows]
  | cons row rows ih =>
    rw [decodeRows, List.mapM_cons, List.exists_mem_cons_iff, ← ih]
    cases hrow : decodeRow row with
    | none => simp
    | some e =>
      cases hrest : decodeRows rows with
      | none =>
        unfold decodeRows at hrest
        simp [hrest]
      | some rest =>
        unfold decodeRows at hrest
        simp [hrest]

/-- A row with a small amount is refused because of its place or its weeks. -/
theorem decodeRow_eq_none (hamount : ∀ cents ∈ row.amountCents, cents.natAbs < 2 ^ 53) :
    decodeRow row = none ↔
      ∃ n, (n ∈ row.place ∨ n ∈ row.weeks) ∧ ¬ IsInt64 (Binary64.digits n) := by
  have hcents : decodeInt row.amountCents ≠ none := by
    rw [Ne, decodeInt_eq_none]
    rintro ⟨cents, hcents, hrange⟩
    have hlt := hamount cents hcents
    rw [Binary64.digits_of_lt hlt] at hrange
    exact hrange ⟨by omega, by omega⟩
  have hnone : decodeRow row = none ↔ decodeInt row.place = none ∨ decodeInt row.weeks = none := by
    obtain ⟨cents, hcents⟩ := Option.ne_none_iff_exists'.mp hcents
    unfold decodeRow
    rw [hcents]
    cases decodeInt row.place with
    | none => simp
    | some place =>
      cases decodeInt row.weeks with
      | none => simp
      | some weeks => simp
  rw [hnone, decodeInt_eq_none, decodeInt_eq_none]
  constructor
  · rintro (⟨n, hn, hrange⟩ | ⟨n, hn, hrange⟩)
    · exact ⟨n, .inl hn, hrange⟩
    · exact ⟨n, .inr hn, hrange⟩
  · rintro ⟨n, hn | hn, hrange⟩
    · exact .inl ⟨n, hn, hrange⟩
    · exact .inr ⟨n, hn, hrange⟩

/-- Rows with the same fields are sent as the same entries. -/
theorem SameRows.decodeRows (h : SameRows rows rows') : decodeRows rows' = decodeRows rows := by
  induction h with
  | nil => rfl
  | cons hrow _ ih =>
    unfold LeagueSettingsPage.decodeRows at ih ⊢
    rw [List.mapM_cons, List.mapM_cons, hrow.decodeRow, ih]

/-- Rows with the same fields have the same total. -/
theorem SameRows.totalPayout (h : SameRows rows rows') : totalPayout rows' = totalPayout rows := by
  unfold LeagueSettingsPage.totalPayout
  generalize some (0 : ℤ) = start
  induction h generalizing start with
  | nil => rfl
  | cons hrow _ ih =>
    rw [List.foldl_cons, List.foldl_cons, hrow.rowTotal]
    exact ih _

/-- What is saved of well-formed rows is shown with the same fields. -/
theorem sameRows_served (h : ∀ row ∈ rows, WellFormed row) (hamounts : SmallAmounts rows)
    {entries : List PayoutEntry} (hentries : decodeRows rows = some entries) :
    SameRows rows (servedRows entries) := by
  have hforall := decodeRows_eq_some.mp hentries
  have hlength : rows.length = (servedRows entries).length := by
    rw [hforall.length_eq]
    simp [servedRows, normalizeEntries]
  refine List.forall₂_iff_get.mpr ⟨hlength, fun i hi hi' => ?_⟩
  have hlt : i < entries.length := hforall.length_eq ▸ hi
  have hmem : rows[i] ∈ rows := List.getElem_mem hi
  have hserved := (h _ hmem).served (hamounts _ hmem) (hforall.get hi hlt) i
  simpa [servedRows, normalizeEntries] using hserved

/-! ## The service -/

/-- The settings that the service reads from a row. -/
def settingsOf (isCommissioner : Bool) (l : LeagueRow) : LeagueSettings where
  entryFeeCents := l.entryFeeCents
  totalRosters := l.totalRosters
  payoutStructure := (l.payoutStructure.bind PayoutJSON.unmarshal).getD []
  isCommissioner := isCommissioner
  cancelledAt := l.cancelledAt

variable {db db' : Database} {w w' w'' : World} {leagueID userID authHeader : String} {fee : Int64}
  {entries : List PayoutEntry} {req : UpdateSettingsRequest} {settings : LeagueSettings}
  {calls : List (Sigma Ret)} {jwt : JWT} {now : ℕ} {claims : Claims}

/-- The settings that are read. -/
theorem yields_getLeagueSettings :
    (getLeagueSettings leagueID userID).run.Yields (.ok settings) calls ↔
      ∃ row : LeagueSettingsRow,
        calls = [⟨.query (.leagueSettings leagueID userID), .ok (some row)⟩] ∧
        settings = ⟨row.entryFeeCents, row.totalRosters,
          (row.payoutJSON.bind PayoutJSON.unmarshal).getD [], row.isCommissioner,
          row.cancelledAt⟩ := by
  unfold getLeagueSettings
  rw [Program.yields_run_bind]
  constructor
  · rintro ⟨r, first, rest, hfirst, rfl, hrest⟩
    obtain ⟨answer, hanswer, rfl⟩ := yields_wrapErr.mp hfirst
    obtain rfl := (yields_query (q := .leagueSettings leagueID userID)).mp hanswer
    match answer, hrest with
    | .error _, hrest => cases hrest.1
    | .ok none, hrest => cases (Program.yields_pure.mp hrest).1
    | .ok (some row), hrest =>
      obtain ⟨hsettings, rfl⟩ := Program.yields_pure.mp hrest
      exact ⟨row, rfl, Except.ok.inj hsettings⟩
  · rintro ⟨row, rfl, rfl⟩
    have hquery :=
      (yields_query (q := .leagueSettings leagueID userID) (r := .ok (some row))).mpr rfl
    exact ⟨_, _, [], yields_wrapErr.mpr ⟨_, hquery, rfl⟩, rfl, Program.yields_pure.mpr ⟨rfl, rfl⟩⟩

/-- The settings that reading returns are those of the league's row. -/
theorem returns_getLeagueSettings :
    (getLeagueSettings leagueID userID).run.Returns (mayAnswer db) (.ok settings) ↔
      ∃ l, db.leagues.lookup leagueID = some l ∧
        settings = settingsOf (db.ownsMembership leagueID userID) l := by
  rw [Program.returns_iff_yields]
  constructor
  · rintro ⟨calls, hyields, hmay⟩
    obtain ⟨row, rfl, rfl⟩ := yields_getLeagueSettings.mp hyields
    have hrow : some row = (db.leagues.lookup leagueID).map _ := hmay _ List.mem_cons_self
    obtain ⟨l, hl, rfl⟩ := Option.map_eq_some_iff.mp hrow.symm
    exact ⟨l, hl, rfl⟩
  · rintro ⟨l, hl, rfl⟩
    refine ⟨_, yields_getLeagueSettings.mpr ⟨⟨_, _, _, _, _⟩, rfl, rfl⟩, fun call hcall => ?_⟩
    obtain rfl := List.mem_singleton.mp hcall
    change some _ = (db.leagues.lookup leagueID).map _
    rw [hl]
    rfl

/-- The endpoint serves the settings of the league's row. -/
theorem responds_settings :
    (ReadEndpoint.settings leagueID).Responds db userID ⟨200, .settings settings⟩ ↔
      ∃ l, db.leagues.lookup leagueID = some l ∧
        settings = settingsOf (db.ownsMembership leagueID userID) l := by
  rw [← returns_getLeagueSettings]
  unfold ReadEndpoint.Responds ReadEndpoint.respond Handler.getLeagueSettings
  rw [returns_bind]
  constructor
  · rintro ⟨r, hr, hresp⟩
    cases r with
    | error e => cases returns_pure.mp hresp
    | ok settings' =>
      cases returns_pure.mp hresp
      exact hr
  · intro hr
    exact ⟨.ok settings, hr, returns_pure.mpr rfl⟩

/-- The commissioner check that succeeds. -/
theorem yields_requireCommissioner :
    (requireCommissioner leagueID userID).run.Yields (.ok ()) calls ↔
      calls = [⟨.query (.isCommissioner leagueID userID), .ok (some true)⟩] := by
  unfold requireCommissioner
  rw [Program.yields_run_bind]
  constructor
  · rintro ⟨r, first, rest, hfirst, rfl, hrest⟩
    obtain ⟨answer, hanswer, rfl⟩ := Program.yields_run_lift.mp hfirst
    obtain rfl := (yields_query (q := .isCommissioner leagueID userID)).mp hanswer
    match answer, hrest with
    | .error _, hrest => cases (Program.yields_pure.mp hrest).1
    | .ok none, hrest => cases (Program.yields_pure.mp hrest).1
    | .ok (some false), hrest => cases (Program.yields_pure.mp hrest).1
    | .ok (some true), hrest =>
      obtain ⟨-, rfl⟩ := Program.yields_pure.mp hrest
      rfl
  · rintro rfl
    exact ⟨_, _, [], Program.yields_run_lift.mpr ⟨_, yields_query.mpr rfl, rfl⟩, rfl,
      Program.yields_pure.mpr ⟨rfl, rfl⟩⟩

/-- A save that the service accepts: the check, the statement, and the settings that are read. -/
theorem yields_updateLeagueSettings (hfee : ¬ req.entryFeeCents < 0) :
    (updateLeagueSettings leagueID userID req).run.Yields (.ok settings) calls ↔
      ∃ n rest, calls = ⟨.query (.isCommissioner leagueID userID), .ok (some true)⟩ ::
          ⟨.exec (.updateSettings leagueID req.entryFeeCents (.marshal req.payoutStructure)),
            .ok n⟩ :: rest ∧
        (getLeagueSettings leagueID userID).run.Yields (.ok settings) rest := by
  unfold updateLeagueSettings
  rw [if_neg hfee, Program.yields_run_bind]
  constructor
  · rintro ⟨r, first, rest, hcheck, rfl, hrest⟩
    cases r with
    | error e => cases hrest.1
    | ok _ =>
      obtain rfl := yields_requireCommissioner.mp hcheck
      obtain ⟨answer, first, rest', hexec, rfl, hread⟩ := Program.yields_run_bind.mp hrest
      obtain ⟨answer, hstatement, rfl⟩ := yields_wrapErr.mp hexec
      obtain rfl := yields_exec.mp hstatement
      cases answer with
      | error e => cases hread.1
      | ok n => exact ⟨n, rest', rfl, hread⟩
  · rintro ⟨n, rest, rfl, hread⟩
    refine ⟨.ok (), _, _, yields_requireCommissioner.mpr rfl, rfl, ?_⟩
    refine Program.yields_run_bind.mpr ⟨.ok n, [_], rest, ?_, rfl, hread⟩
    exact yields_wrapErr.mpr ⟨.ok n, yields_exec.mpr rfl, rfl⟩

/-- What the gateway makes of the page's request. -/
theorem request_saveEndpoint (hauth : authMiddleware jwt now authHeader = .ok claims) :
    (saveEndpoint authHeader leagueID fee rows).request jwt now =
      match decodeRows rows with
      | none => Handler.badRequest "invalid request body"
      | some entries => if fee < 0 then Handler.badRequest "entry_fee_cents must be non-negative"
        else .ok (.updateLeagueSettings leagueID claims.userID ⟨fee, some entries⟩) := by
  change (authMiddleware jwt now authHeader >>= fun claims =>
    Handler.request claims (.updateLeagueSettings leagueID (decodeBody fee rows))) = _
  rw [hauth]
  change Handler.request claims (.updateLeagueSettings leagueID (decodeBody fee rows)) = _
  unfold Handler.request decodeBody
  cases decodeRows rows with
  | none => rfl
  | some entries => rfl

/-- The entries that were saved are in the league's row. -/
theorem payoutStructure_saved {time n : ℕ} {fresh : String} {l : LeagueRow}
    (hrun : (Statement.updateSettings leagueID fee (.marshal (some entries))).run time fresh db =
      some (n, db')) (hl : db'.leagues.lookup leagueID = some l) (isCommissioner : Bool) :
    (settingsOf isCommissioner l).payoutStructure = entries := by
  obtain ⟨hmem, hid⟩ := Table.lookup_some hl
  obtain ⟨old, -, heq⟩ := (mem_updateSettings hrun).mp hmem
  split_ifs at heq with hold
  · subst heq
    simp [settingsOf, PayoutJSON.unmarshal_marshal]
  · exact absurd (heq ▸ hid) hold

/-- A save stores the decoded entries in the league's row, and the page shows them. -/
theorem Saves.saved (h : Saves jwt now authHeader leagueID fee w w' rows rows') :
    ∃ entries, decodeRows rows = some entries ∧ rows' = servedRows entries ∧
      (∃ l, w'.db.leagues.lookup leagueID = some l) ∧
      ∃ time fresh n, (Statement.updateSettings leagueID fee (.marshal (some entries))).run time
        fresh w.db = some (n, w'.db) := by
  obtain ⟨userID, req, settings, calls, hrequest, hyields, hleads, rfl⟩ := h
  obtain ⟨claims, hauth, -⟩ := ok_of_bind hrequest
  rw [request_saveEndpoint hauth] at hrequest
  cases hentries : decodeRows rows with
  | none =>
    rw [hentries] at hrequest
    cases hrequest
  | some entries =>
    rw [hentries] at hrequest
    dsimp only at hrequest
    split_ifs at hrequest with hfee
    · cases hrequest
    · cases hrequest
      have hnonneg : ¬ (UpdateSettingsRequest.mk fee (some entries)).entryFeeCents < 0 := hfee
      obtain ⟨n, rest, rfl, hread⟩ := (yields_updateLeagueSettings hnonneg).mp hyields
      obtain ⟨row, rfl, rfl⟩ := yields_getLeagueSettings.mp hread
      obtain ⟨u, hcheck, v, hexec, x, hquery, rfl⟩ := hleads
      obtain ⟨rfl, -⟩ := hcheck
      obtain ⟨time, fresh, db, -, hrun, rfl⟩ : u.Executes _ n v := hexec
      obtain ⟨rfl, hrow⟩ := hquery
      obtain ⟨l, hl, rfl⟩ := Option.map_eq_some_iff.mp (Eq.symm hrow)
      have hstructure := payoutStructure_saved hrun hl true
      exact ⟨entries, rfl, congrArg servedRows hstructure, ⟨l, hl⟩, time, fresh, n, hrun⟩

/-- Rows that are not refused can be saved by the commissioner of a league. -/
theorem exists_saves (hauth : authMiddleware jwt now authHeader = .ok claims)
    (hleague : ∃ l ∈ w.db.leagues.rows, l.id = leagueID)
    (howner : w.db.ownsMembership leagueID claims.userID = true) (hfee : 0 ≤ fee)
    (hentries : decodeRows rows = some entries) :
    ∃ w', Saves jwt now authHeader leagueID fee w w' rows (servedRows entries) := by
  obtain ⟨l, hl, rfl⟩ := hleague
  obtain ⟨fresh, hfresh⟩ := Infinite.exists_notMem_finset w.issued.toFinset
  have hfresh : fresh ∉ w.issued := fun hmem => hfresh (List.mem_toFinset.mpr hmem)
  have hnonneg : ¬ (UpdateSettingsRequest.mk fee (some entries)).entryFeeCents < 0 :=
    Int64.not_lt.mpr hfee
  obtain ⟨db, hdb⟩ : ∃ db, (Statement.updateSettings l.id fee (.marshal (some entries))).run 0 fresh
      w.db = some (w.db.leagues.count fun r => r.id = l.id, db) := ⟨_, rfl⟩
  obtain ⟨l', hl'⟩ : ∃ l', db.leagues.lookup l.id = some l' := by
    have hrow := (mem_updateSettings hdb).mpr ⟨l, hl, if_pos rfl⟩
    have hfound := Table.lookup_of_mem hrow
    exact ⟨_, hfound⟩
  let row : LeagueSettingsRow := ⟨l'.entryFeeCents, l'.totalRosters, l'.payoutStructure,
    db.ownsMembership l.id claims.userID, l'.cancelledAt⟩
  have hcheck : w.db.userMemberships l.id claims.userID ≠ [] := by
    intro hnone
    simp [Database.ownsMembership, hnone] at howner
  have hread : (getLeagueSettings l.id claims.userID).run.Yields
      (.ok (settingsOf row.isCommissioner l'))
      [⟨.query (.leagueSettings l.id claims.userID), .ok (some row)⟩] :=
    yields_getLeagueSettings.mpr ⟨row, rfl, rfl⟩
  refine ⟨{ w with db := db, issued := fresh :: w.issued }, claims.userID, _, _, _, ?_,
    (yields_updateLeagueSettings hnonneg).mpr
      ⟨w.db.leagues.count fun r => r.id = l.id, _, rfl, hread⟩, ?_, ?_⟩
  · rw [request_saveEndpoint hauth, hentries]
    exact if_neg hnonneg
  · refine ⟨w, ⟨rfl, ?_⟩, _, ⟨0, fresh, db, hfresh, hdb, rfl⟩, _, ⟨rfl, ?_⟩, rfl⟩
    · change some true = if _ then none else some _
      rw [if_neg hcheck, howner]
    · change some row = (db.leagues.lookup l.id).map _
      rw [hl']
      rfl
  · exact congrArg servedRows (payoutStructure_saved hdb hl' row.isCommissioner).symm

/-- Saving the same entries again changes nothing but the time of the last update. -/
theorem saved_twice {db'' : Database} {time time' n n' : ℕ} {fresh fresh' : String}
    (hrun : (Statement.updateSettings leagueID fee (.marshal (some entries))).run time fresh db =
      some (n, db'))
    (hrun' : (Statement.updateSettings leagueID fee (.marshal (some entries))).run time' fresh' db'
      = some (n', db'')) : db'' = db'.touchLeague leagueID time' := by
  cases hrun
  cases hrun'
  dsimp only [Database.touchLeague, Database.updateLeagues]
  rw [Table.updateWhere_updateWhere, Table.updateWhere_updateWhere]
  · exact fun _ => rfl
  · exact fun _ => rfl

/-- The endpoint serves every user the rows that the page shows after a save. -/
theorem Saves.served (h : Saves jwt now authHeader leagueID fee w w' rows rows') (userID : String) :
    ∃ settings, ∀ settings',
      (ReadEndpoint.settings leagueID).Responds w'.db userID ⟨200, .settings settings'⟩ ↔
        settings' = settings ∧ servedRows settings'.payoutStructure = rows' := by
  obtain ⟨entries, -, rfl, ⟨l, hl⟩, time, fresh, n, hrun⟩ := h.saved
  refine ⟨settingsOf (w'.db.ownsMembership leagueID userID) l, fun settings' => ?_⟩
  rw [responds_settings]
  constructor
  · rintro ⟨l', hl', rfl⟩
    obtain rfl : l = l' := Option.some.inj (hl.symm.trans hl')
    exact ⟨rfl, congrArg servedRows (payoutStructure_saved hrun hl _)⟩
  · rintro ⟨rfl, -⟩
    exact ⟨l, hl, rfl⟩

/-- Rows that are saved come back with the same fields, where no weeks are zero weeks, and saving
them again changes nothing but the time of the last update. -/
theorem Saves.lossless {totalRosters : ℤ}
    (h : Saves jwt now authHeader leagueID fee w w' rows rows')
    (hrows : Holds totalRosters rows) (hsize : totalRosters < 2 ^ 31)
    (hamounts : SmallAmounts rows) :
    SameRows rows rows' ∧ totalPayout rows' = totalPayout rows ∧
      ∀ {later : ℕ} {header : String} {w'' : World} {rows'' : List PageEntry},
        Saves jwt later header leagueID fee w' w'' rows' rows'' →
          rows'' = rows' ∧ ∃ time, w''.db = w'.db.touchLeague leagueID time := by
  obtain ⟨entries, hentries, hrows', -, time, fresh, n, hrun⟩ := h.saved
  have hsame : SameRows rows rows' := by
    rw [hrows']
    exact sameRows_served (hrows.wellFormed hsize) hamounts hentries
  have hagain : decodeRows rows' = some entries := hsame.decodeRows.trans hentries
  refine ⟨hsame, hsame.totalPayout, fun {later header w'' rows''} h' => ?_⟩
  obtain ⟨entries', hentries', hrows'', -, time', fresh', n', hrun'⟩ := h'.saved
  obtain rfl : entries = entries' := Option.some.inj (hagain.symm.trans hentries')
  exact ⟨hrows''.trans hrows'.symm, time', saved_twice hrun hrun'⟩

/-- A save leads to a world in which nothing of the rows is lost. -/
structure Lossless (jwt : JWT) (leagueID : String) (fee : Int64) (w' : World)
    (rows rows' : List PageEntry) : Prop where
  /-- The rows come back with the same fields. -/
  same : SameRows rows rows'
  total : totalPayout rows' = totalPayout rows
  /-- The endpoint serves the same rows to every user. -/
  served : ∀ userID, ∃ settings, ∀ settings',
    (ReadEndpoint.settings leagueID).Responds w'.db userID ⟨200, .settings settings'⟩ ↔
      settings' = settings ∧ servedRows settings'.payoutStructure = rows'
  /-- A second save changes nothing but the time at which the league was last updated. -/
  again : ∀ (later : ℕ) (header : String) (w'' : World) (rows'' : List PageEntry),
    Saves jwt later header leagueID fee w' w'' rows' rows'' →
      rows'' = rows' ∧ ∃ time, w''.db = w'.db.touchLeague leagueID time

/-- The gateway refuses the body with the rows of the form exactly if the digits of a place or of
weeks are out of range. Otherwise the commissioner of a league can save them, and whatever is saved
comes back with the same fields. -/
theorem saved_lossless (totalRosters : Int32) {rows : List PageEntry}
    (hrows : Holds totalRosters.toInt rows) (hamounts : SmallAmounts rows) {jwt : JWT} {now : ℕ}
    {authHeader : String} {claims : Claims}
    (hauth : authMiddleware jwt now authHeader = .ok claims) (leagueID : String) (fee : Int64) :
    ((saveEndpoint authHeader leagueID fee rows).request jwt now =
        .error ⟨400, .message "invalid request body"⟩ ↔
      ∃ row ∈ rows, ∃ n, (n ∈ row.place ∨ n ∈ row.weeks) ∧ ¬ IsInt64 (Binary64.digits n)) ∧
    ∀ w : World,
      ((∃ l ∈ w.db.leagues.rows, l.id = leagueID) →
        w.db.ownsMembership leagueID claims.userID = true → 0 ≤ fee → decodeRows rows ≠ none →
          ∃ w' rows', Saves jwt now authHeader leagueID fee w w' rows rows') ∧
      ∀ (w' : World) (rows' : List PageEntry),
        Saves jwt now authHeader leagueID fee w w' rows rows' →
          Lossless jwt leagueID fee w' rows rows' := by
  have hsize : totalRosters.toInt < 2 ^ 31 := totalRosters.toInt_lt
  refine ⟨?_, fun w => ⟨fun hleague howner hfee hdecoded => ?_, fun w' rows' h => ?_⟩⟩
  · have hrefused : (saveEndpoint authHeader leagueID fee rows).request jwt now =
        .error ⟨400, .message "invalid request body"⟩ ↔ decodeRows rows = none := by
      rw [request_saveEndpoint hauth]
      cases decodeRows rows with
      | none => simp [Handler.badRequest]
      | some entries =>
        by_cases hfee : fee < 0
        · simp [hfee, Handler.badRequest]
        · simp [hfee]
    rw [hrefused, decodeRows_eq_none]
    refine exists_congr fun row => and_congr_right fun hrow => ?_
    exact decodeRow_eq_none (hamounts row hrow)
  · obtain ⟨entries, hentries⟩ := Option.ne_none_iff_exists'.mp hdecoded
    obtain ⟨w', h⟩ := exists_saves hauth hleague howner hfee hentries
    exact ⟨w', _, h⟩
  · obtain ⟨hsame, htotal, hagain⟩ := h.lossless hrows hsize hamounts
    exact ⟨hsame, htotal, h.served, fun later header w'' rows'' h' => hagain h'⟩

/-- A world with one league and its commissioner. -/
def oneLeague : World where
  db := {
    users := ⟨[
      { id := "u1"
        walletAddress := "0.0.9"
        walletType := "hedera"
        nonce := "" }], by simp⟩
    profiles := ⟨[
      { userID := "u1"
        platform := "sleeper"
        platformUserID := "p1"
        platformUsername := "p1"
        displayName := "p1"
        avatarURL := "" }], by simp⟩
    leagues := ⟨[
      { id := "L"
        platform := "sleeper"
        platformLeagueID := "1"
        name := "League"
        sport := "nfl"
        season := "2025"
        status := some "pre_draft"
        totalRosters := 4
        scoringType := "ppr"
        createdAt := 0
        updatedAt := 0 }], by simp⟩
    members := ⟨[
      { id := "m1"
        leagueID := "L"
        platform := "sleeper"
        platformUserID := "p1"
        platformUsername := "p1"
        teamName := ""
        displayName := "p1"
        avatarURL := ""
        isOwner := true
        rosterID := 1
        wins := 0
        losses := 0
        ties := 0
        totalPoints := 0
        createdAt := 0 }], by simp⟩ }

/-- A season payout and a bonus with so many weeks, as the form adds them. -/
def twoRows (weeks : ℤ) : List PageEntry := [newPlacement 1, {
  type := some "weekly"
  bonusType := some "weekly_high_score"
  label := some "Weekly High Score"
  place := none
  amountCents := some 0
  weeks := some (Binary64.round weeks)
  criteria := none }]

/-- The form can hold the two rows. -/
theorem holds_twoRows (weeks : ℤ) : Holds (4 : Int32).toInt (twoRows weeks) := by
  have hserved : Holds (4 : Int32).toInt (servedRows []) := holds_served []
  have hplacement := hserved.run .addPlacement trivial
  have hweekly := hplacement.run .addWeekly trivial
  exact hweekly.run (.typeWeeks 1 weeks) ⟨_, rfl, rfl, rfl⟩

/-- The amounts of the two rows are zero. -/
theorem smallAmounts_twoRows (weeks : ℤ) : SmallAmounts (twoRows weeks) := by
  simp [SmallAmounts, twoRows, newPlacement]

/-- The header of the commissioner's requests, with a token that was issued at the time 0. -/
def commissionerHeader : String := "Bearer " ++ generateJWT JWT.mock 0 ⟨"u1", "0.0.9", "hedera"⟩

/-- The gateway lets the commissioner's requests pass. -/
theorem auth_commissionerHeader :
    authMiddleware JWT.mock 5 commissionerHeader = .ok ⟨"u1", "0.0.9", "hedera"⟩ := by
  rw [commissionerHeader, authMiddleware_generateJWT JWT.lawful_mock]
  rfl

/-- The commissioner saves the two rows. -/
theorem saved_lossless_twoRows : ∃ w' rows',
    Saves JWT.mock 5 commissionerHeader "L" 100 oneLeague w' (twoRows 14) rows' ∧
    Lossless JWT.mock "L" 100 w' (twoRows 14) rows' := by
  obtain ⟨hrefused, hsaves⟩ := saved_lossless 4 (holds_twoRows 14) (smallAmounts_twoRows 14)
    auth_commissionerHeader "L" 100
  have hone : Binary64.digits 1 = 1 := Binary64.digits_of_lt (by decide)
  have hweeks : Binary64.digits (Binary64.round 14) = 14 := Binary64.digits_of_lt (by decide)
  have hinRange : ¬ ∃ row ∈ twoRows 14, ∃ n, (n ∈ row.place ∨ n ∈ row.weeks) ∧
      ¬ IsInt64 (Binary64.digits n) := by
    simp [twoRows, newPlacement, hone, hweeks, IsInt64]
  have hdecoded : decodeRows (twoRows 14) ≠ none := by
    intro hnone
    refine hinRange (hrefused.mp ?_)
    rw [request_saveEndpoint auth_commissionerHeader, hnone]
    rfl
  obtain ⟨hexists, hlossless⟩ := hsaves oneLeague
  obtain ⟨w', rows', h⟩ := hexists ⟨_, List.mem_cons_self, rfl⟩ (by decide) (by decide) hdecoded
  exact ⟨w', rows', h, hlossless w' rows' h⟩

/-- So many weeks can be typed that the form cannot be saved. -/
theorem not_alwaysSaved : ¬ ∀ (totalRosters : Int32) (rows : List PageEntry),
    Holds totalRosters.toInt rows → SmallAmounts rows →
    ∀ (jwt : JWT) (now : ℕ) (authHeader leagueID : String) (claims : Claims) (fee : Int64)
      (w : World), authMiddleware jwt now authHeader = .ok claims →
      (∃ l ∈ w.db.leagues.rows, l.id = leagueID) →
      w.db.ownsMembership leagueID claims.userID = true → 0 ≤ fee →
        ∃ w' rows', Saves jwt now authHeader leagueID fee w w' rows rows' ∧
          SameRows rows rows' := by
  intro hall
  obtain ⟨w', rows', h, -⟩ := hall 4 (twoRows (10 ^ 20)) (holds_twoRows (10 ^ 20))
    (smallAmounts_twoRows (10 ^ 20)) JWT.mock 5 commissionerHeader "L" _ 100 oneLeague
    auth_commissionerHeader ⟨_, List.mem_cons_self, rfl⟩ (by decide) (by decide)
  obtain ⟨entries, hentries, -⟩ := h.saved
  have hweeks : decodeInt (some (Binary64.round (10 ^ 20))) = none := by decide +kernel
  have hrefused : decodeRows (twoRows (10 ^ 20)) = none := by
    refine decodeRows_eq_none.mpr ⟨_, List.mem_cons_of_mem _ List.mem_cons_self, ?_⟩
    exact (decodeRow_eq_none (by simp)).mpr ((decodeInt_eq_none.mp hweeks).imp fun _ h =>
      ⟨.inr h.1, h.2⟩)
  rw [hrefused] at hentries
  cases hentries

end LeagueSettingsPage

end Wagr
