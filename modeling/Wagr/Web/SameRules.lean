import Wagr.Web.LeagueSettings

/-!
# When the page and the oracle see the same rules

The settings page shows an entry without type as a placement and a weekly entry without bonus
type as a high score bonus. The oracle pays neither. It also computes with 64-bit integers where
the page has doubles. Apart from that, both read the same rules, from the stored list as well as
from the one the API serves.
-/

namespace Wagr

open LeagueSettingsPage

/-- Two selections from a list are the same iff they agree entry by entry, if the first selects
only what the second does. -/
theorem filterMap_eq_iff {α β : Type} {f g : α → Option β}
    (hselect : ∀ a, (f a).isSome → (g a).isSome) {l : List α} :
    l.filterMap f = l.filterMap g ↔ ∀ a ∈ l, f a = g a := by
  have hlength : ∀ l : List α, (l.filterMap f).length ≤ (l.filterMap g).length := by
    intro l
    rw [List.length_filterMap_eq_countP, List.length_filterMap_eq_countP]
    exact List.countP_mono_left fun a _ => hselect a
  refine ⟨fun h => ?_, List.filterMap_congr⟩
  induction l with
  | nil => simp
  | cons a l ih =>
    rw [List.filterMap_cons, List.filterMap_cons] at h
    have hl := hlength l
    have ha := hselect a
    rcases hf : f a with _ | b
    · rcases hg : g a with _ | c
      · simp only [hf, hg] at h
        simpa [hf, hg] using ih h
      · simp only [hf, hg] at h
        rw [h, List.length_cons] at hl
        omega
    · obtain ⟨c, hg⟩ := Option.isSome_iff_exists.mp (ha (by simp [hf]))
      simp only [hf, hg, List.cons.injEq] at h
      simpa [hf, hg, h.1] using ih h.2

/-- The rules on the page do not depend on the index, which is only used in labels. -/
theorem rules_normalizeEntries (entries : List PageEntry) :
    (normalizeEntries entries).filterMap PageEntry.rule =
      entries.filterMap fun e => (normalizeEntry 0 e).rule := by
  have hindex : ∀ i e, (normalizeEntry i e).rule = (normalizeEntry 0 e).rule := fun i e => rfl
  unfold normalizeEntries
  rw [List.mapIdx_eq_zipIdx_map, List.filterMap_map]
  have hfun : PageEntry.rule ∘ (fun x : PageEntry × ℕ => normalizeEntry x.2 x.1) =
      (fun e => (normalizeEntry 0 e).rule) ∘ Prod.fst := funext fun x => hindex x.2 x.1
  rw [hfun, ← List.filterMap_map, List.zipIdx_map_fst]

/-- The entries with a rule are the placements and the weekly ones. -/
theorem isSome_payoutRule {type bonusType : String} {place amount : ℤ}
    {criteria : Option (Option ℚ)} :
    (payoutRule type bonusType place amount criteria).isSome ↔
      type = "placement" ∨ type = "weekly" := by
  by_cases hplacement : type = "placement"
  · simp [payoutRule, hplacement]
  · by_cases hweekly : type = "weekly"
    · by_cases hhigh : bonusType = "weekly_high_score"
      · simp [payoutRule, hweekly, hhigh]
      · by_cases hthreshold : bonusType = "score_threshold"
        · rcases criteria with _ | _ | points <;> simp [payoutRule, hweekly, hthreshold]
        · simp [payoutRule, hweekly, hhigh, hthreshold]
    · simp [payoutRule, hplacement, hweekly]

namespace StoredEntry

/-- The entry has a type, weekly ones a bonus type, and the numbers the oracle pays by are
doubles. -/
def SameRule (e : StoredEntry) : Prop :=
  e.type ≠ none ∧
  (e.type = some "placement" → Binary64.Exact (e.place.getD 0) ∧
    Binary64.Exact (e.amountCents.getD 0).toInt) ∧
  (e.type = some "weekly" → e.bonusType ≠ none ∧
    (e.bonusType = some "weekly_high_score" ∨
      e.bonusType = some "score_threshold" ∧ e.criteria.join ≠ none →
        Binary64.Exact (e.amountCents.getD 0).toInt))

instance : DecidablePred SameRule := fun e => by unfold SameRule; infer_instance

/-- The page has the nearest double for the place. -/
theorem place_json (e : StoredEntry) : e.json.place.getD 0 = Binary64.round (e.place.getD 0) := by
  rcases hplace : e.place with _ | place
  · simp [json, hplace]
  · simp [json, hplace]

/-- The page has the nearest double for the amount. -/
theorem amountCents_json (e : StoredEntry) :
    e.json.amountCents.getD 0 = Binary64.round (e.amountCents.getD 0).toInt := by
  rcases hamount : e.amountCents with _ | cents
  · simp [json, hamount]
  · simp [json, hamount]

/-- Two weekly rules with one bonus type are the same iff they are unpaid or of one amount. -/
theorem weekly_rule_eq_iff (bonusType : String) (place place' amount amount' : ℤ)
    (criteria : Option (Option ℚ)) :
    payoutRule "weekly" bonusType place amount criteria =
        payoutRule "weekly" bonusType place' amount' criteria ↔
      (bonusType = "weekly_high_score" ∨
        bonusType = "score_threshold" ∧ criteria.join ≠ none → amount = amount') := by
  by_cases hhigh : bonusType = "weekly_high_score"
  · simp [payoutRule, hhigh]
  · by_cases hthreshold : bonusType = "score_threshold"
    · rcases criteria with _ | _ | points <;> simp [payoutRule, hthreshold]
    · simp [payoutRule, hhigh, hthreshold]

/-- The page and the oracle have the same rule for an entry iff `SameRule` holds of it. -/
theorem rule_decode_eq_iff (e : StoredEntry) :
    e.decode.rule = (normalizeEntry 0 e.json).rule ↔ e.SameRule := by
  have hpage : (normalizeEntry 0 e.json).rule =
      payoutRule (e.type.getD "placement")
        ((if e.type = some "weekly" then some (e.bonusType.getD "weekly_high_score")
          else none).getD "")
        (Binary64.round (e.place.getD 0)) (Binary64.round (e.amountCents.getD 0).toInt)
        e.criteria := by
    rw [← place_json, ← amountCents_json]
    rfl
  have horacle : e.decode.rule = payoutRule (e.type.getD "") (e.bonusType.getD "")
      (e.place.getD 0) (e.amountCents.getD 0).toInt e.criteria := rfl
  rw [hpage, horacle]
  rcases htype : e.type with _ | type
  · simp [SameRule, htype, payoutRule]
  · by_cases hplacement : type = "placement"
    · simp only [SameRule, htype, hplacement, payoutRule]
      simp [Binary64.Exact, eq_comm]
    · by_cases hweekly : type = "weekly"
      · rcases hbonus : e.bonusType with _ | bonusType
        · simp [SameRule, htype, hweekly, hbonus, payoutRule]
        · simp only [hweekly, if_true, Option.getD_some]
          rw [weekly_rule_eq_iff]
          simp [SameRule, htype, hweekly, hbonus, Binary64.Exact, eq_comm]
      · simp [SameRule, htype, hplacement, hweekly, payoutRule]

/-- The page lists the entries the oracle pays by. -/
theorem isSome_rule_json (e : StoredEntry) (h : e.decode.rule.isSome) :
    (normalizeEntry 0 e.json).rule.isSome := by
  have hsome := isSome_payoutRule.mp h
  refine isSome_payoutRule.mpr ?_
  rcases htype : e.type with _ | type
  · simp [decode, htype] at hsome
  · simpa [decode, normalizeEntry, json, htype] using hsome

end StoredEntry

/-- The page reads the rules of the oracle from what is stored iff `SameRule` holds of every
entry. -/
theorem stored_rules_iff (stored : List StoredEntry) :
    (stored.map StoredEntry.decode).filterMap PayoutEntry.rule =
        (normalizeEntries (stored.map StoredEntry.json)).filterMap PageEntry.rule ↔
      ∀ e ∈ stored, e.SameRule := by
  rw [rules_normalizeEntries, List.filterMap_map, List.filterMap_map]
  have hpointwise := filterMap_eq_iff StoredEntry.isSome_rule_json (l := stored)
  exact hpointwise.trans (forall₂_congr fun e _ => e.rule_decode_eq_iff)

/-- The settings page and the oracle read the same rules from a stored payout structure iff every
entry has a type, every weekly one a bonus type, and all numbers the oracle pays by are doubles.
From what the API serves, where absent types and bonus types are empty ones, they read the same
rules iff this holds of the served entries. These rules are what the jobs pay. -/
theorem page_rules_iff (stored : List StoredEntry) :
    PaysRules (stored.map StoredEntry.decode)
      ((stored.map StoredEntry.decode).filterMap PayoutEntry.rule) ∧
    ((stored.map StoredEntry.decode).filterMap PayoutEntry.rule =
        (normalizeEntries (stored.map StoredEntry.json)).filterMap PageEntry.rule ↔
      ∀ e ∈ stored, e.SameRule) ∧
    ((stored.map StoredEntry.decode).filterMap PayoutEntry.rule =
        (normalizeEntries (stored.map fun e => e.decode.encode.json)).filterMap PageEntry.rule ↔
      ∀ e ∈ stored, e.decode.encode.SameRule) := by
  refine ⟨paysRules _, stored_rules_iff stored, ?_⟩
  -- the oracle reads the served list as it reads the stored one
  have hserved := stored_rules_iff (stored.map fun e => e.decode.encode)
  simpa [Function.comp_def] using hserved

/-- A weekly high score bonus of older versions is on the page, but the oracle pays nothing. -/
theorem legacy_bonus_unpaid :
    ¬ ∀ stored : List StoredEntry,
      (stored.map StoredEntry.decode).filterMap PayoutEntry.rule =
        (normalizeEntries (stored.map StoredEntry.json)).filterMap PageEntry.rule := by
  intro h
  have hlegacy := h [{
    type := some "weekly"
    label := some "Weekly High Score"
    amountCents := some 1000
    weeks := some 14 }]
  revert hlegacy
  decide +kernel

end Wagr
