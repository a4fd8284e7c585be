import Wagr.Service.Oracle
import Wagr.Library.Binary64

/-!
# The settings page

What `LeagueSettings.tsx` makes of a payout structure, and which rules the oracle would pay from
it. The page fills in missing fields, the oracle reads them as zero values, so the same entry may
be one rule to the page and another to the oracle.
-/

namespace Wagr

/-- An entry as the page holds it. Its numbers are doubles, here all without fraction. -/
structure PageEntry where
  type : Option String
  bonusType : Option String
  label : Option String
  place : Option ℤ
  amountCents : Option ℤ
  weeks : Option ℤ
  criteria : Option (Option ℚ)

/-- `res.json()` of one entry; integers become doubles. -/
def StoredEntry.json (e : StoredEntry) : PageEntry where
  type := e.type
  bonusType := e.bonusType
  label := e.label
  place := e.place.map Binary64.round
  amountCents := e.amountCents.map fun cents => Binary64.round cents.toInt
  weeks := e.weeks.map Binary64.round
  criteria := e.criteria

namespace LeagueSettingsPage

/-- `BONUS_TYPE_OPTIONS`. -/
def bonusTypeOptions : List (String × String) :=
  [("weekly_high_score", "Weekly High Score"), ("highest_weekly_score", "Highest Weekly Score"),
    ("score_threshold", "Score Threshold")]

/-- `defaultLabelForBonusType`. -/
def defaultLabelForBonusType (bt : String) : String := (bonusTypeOptions.lookup bt).getD bt

/-- `ordinalLabel`. -/
def ordinalLabel (n : ℤ) : String :=
  let s := n.tmod 100
  if 11 ≤ s ∧ s ≤ 13 then toString n ++ "th Place"
  else if n.tmod 10 = 1 then toString n ++ "st Place"
  else if n.tmod 10 = 2 then toString n ++ "nd Place"
  else if n.tmod 10 = 3 then toString n ++ "rd Place"
  else toString n ++ "th Place"

/-- One round of `normalizeEntries`. -/
def normalizeEntry (i : ℕ) (e : PageEntry) : PageEntry where
  type := some (e.type.getD "placement")
  bonusType := if e.type = some "weekly" then some (e.bonusType.getD "weekly_high_score") else none
  label :=
    if e.label.getD "" ≠ "" then e.label
    else if e.type = some "weekly" then
      some (defaultLabelForBonusType (e.bonusType.getD "weekly_high_score"))
    else some (ordinalLabel (e.place.getD (i + 1)))
  place := e.place
  amountCents := e.amountCents
  weeks := e.weeks
  criteria := e.criteria

/-- `normalizeEntries`. -/
def normalizeEntries (entries : List PageEntry) : List PageEntry :=
  entries.mapIdx normalizeEntry

/-- `WEEKLY_BONUS_TYPES`. -/
def weeklyBonusTypes : List String := ["weekly_high_score", "score_threshold"]

/-- `isWeeklyBonus`. -/
def isWeeklyBonus (bt : Option String) : Bool := bt.getD "weekly_high_score" ∈ weeklyBonusTypes

/-- What `totalPayout` adds for a row, `none` for `NaN`. -/
def rowTotal (r : PageEntry) : Option ℤ :=
  if r.type = some "weekly" ∧ isWeeklyBonus r.bonusType then
    r.amountCents.map fun cents => Binary64.round (cents * r.weeks.getD 0)
  else r.amountCents

/-- `totalPayout`, `none` for `NaN`. -/
def totalPayout (rows : List PageEntry) : Option ℤ :=
  rows.foldl (fun s r => do return Binary64.round ((← s) + (← rowTotal r))) (some 0)

end LeagueSettingsPage

/-! ## The rules of the oracle -/

/-- What the oracle pays for an entry: a place, a weekly bonus, or nothing although the entry
counts as weekly. -/
inductive PayoutRule
  | placement (place amountCents : ℤ)
  | highScore (amountCents : ℤ)
  | threshold (points : ℚ) (amountCents : ℤ)
  | unpaid
  deriving DecidableEq

/-- The rule of an entry that counts as a placement or as weekly. -/
def payoutRule (type bonusType : String) (place amountCents : ℤ) (criteria : Option (Option ℚ)) :
    Option PayoutRule :=
  if type = "placement" then some (.placement place amountCents)
  else if type = "weekly" then
    if bonusType = "weekly_high_score" then some (.highScore amountCents)
    else if bonusType = "score_threshold" then
      match criteria with
      | some (some points) => some (.threshold points amountCents)
      | _ => some .unpaid
    else some .unpaid
  else none

/-- The rule the oracle pays for an entry. -/
def PayoutEntry.rule (e : PayoutEntry) : Option PayoutRule :=
  payoutRule e.type e.bonusType e.place e.amountCents.toInt e.criteria

/-- The rule the oracle would pay for an entry of the page; missing fields are zero values. -/
def PageEntry.rule (e : PageEntry) : Option PayoutRule :=
  payoutRule (e.type.getD "") (e.bonusType.getD "") (e.place.getD 0) (e.amountCents.getD 0)
    e.criteria

namespace PayoutRule

/-- Whom a rule pays for a week: the matchup, the payout type and the amount. -/
def weekly (matchups : List PlatformMatchup) : PayoutRule → List (PlatformMatchup × String × ℤ)
  | .highScore cents => (highScorer matchups).map (·, "weekly_high_score", cents)
  | .threshold points cents => (thresholdScorers matchups points).map (·, "score_threshold", cents)
  | _ => []

/-- What a rule pays for a place. -/
def placed (place : ℤ) : PayoutRule → Option ℤ
  | .placement place' cents => if place' = place then some cents else none
  | _ => none

end PayoutRule

namespace PayoutEntry

/-- An entry of another type than the two is no rule. -/
theorem rule_eq_none {e : PayoutEntry} (hplacement : e.type ≠ "placement")
    (hweekly : e.type ≠ "weekly") : e.rule = none := by
  simp [rule, payoutRule, hplacement, hweekly]

/-- A placement entry is the rule of its place. -/
theorem rule_placement {e : PayoutEntry} (h : e.type = "placement") :
    e.rule = some (.placement e.place e.amountCents.toInt) := by
  simp [rule, payoutRule, h]

/-- The rule of a weekly entry pays its qualifiers. -/
theorem rule_weekly {e : PayoutEntry} (h : e.type = "weekly") (matchups : List PlatformMatchup) :
    ∃ r, e.rule = some r ∧ r.weekly matchups =
      (weeklyQualifiers matchups e).map fun m => (m, e.bonusType, e.amountCents.toInt) := by
  have hrule : e.rule = payoutRule "weekly" e.bonusType e.place e.amountCents.toInt e.criteria := by
    simp [rule, h]
  rw [hrule]
  by_cases hhigh : e.bonusType = "weekly_high_score"
  · exact ⟨.highScore e.amountCents.toInt, by simp [payoutRule, hhigh],
      by simp [weeklyQualifiers, hhigh, PayoutRule.weekly]⟩
  · by_cases hthreshold : e.bonusType = "score_threshold"
    · rcases hcriteria : e.criteria with _ | _ | points
      · exact ⟨.unpaid, by simp [payoutRule, hthreshold],
          by simp [weeklyQualifiers, hthreshold, hcriteria, PayoutRule.weekly]⟩
      · exact ⟨.unpaid, by simp [payoutRule, hthreshold],
          by simp [weeklyQualifiers, hthreshold, hcriteria, PayoutRule.weekly]⟩
      · exact ⟨.threshold points e.amountCents.toInt, by simp [payoutRule, hthreshold],
          by simp [weeklyQualifiers, hthreshold, hcriteria, PayoutRule.weekly]⟩
    · exact ⟨.unpaid, by simp [payoutRule, hhigh, hthreshold],
        by simp [weeklyQualifiers, hhigh, hthreshold, PayoutRule.weekly]⟩

/-- The rule of a weekly entry pays no place. -/
theorem placed_weekly {e : PayoutEntry} (h : e.type = "weekly") {r : PayoutRule}
    (hr : e.rule = some r) (place : ℤ) : r.placed place = none := by
  simp only [rule, payoutRule, h] at hr
  rcases r with _ | _ | _ | _
  · exfalso
    revert hr
    simp only [String.reduceEq, if_false, if_true]
    split_ifs <;> try split
    all_goals simp
  all_goals rfl

end PayoutEntry

/-- The weekly job pays the weekly rules. -/
theorem weekly_rules (entries : List PayoutEntry) (matchups : List PlatformMatchup) :
    ((entries.filter fun e => e.type = "weekly").flatMap fun e =>
      (weeklyQualifiers matchups e).map fun m => (m, e.bonusType, e.amountCents.toInt)) =
        (entries.filterMap PayoutEntry.rule).flatMap (PayoutRule.weekly matchups) := by
  induction entries with
  | nil => rfl
  | cons e entries ih =>
    by_cases hweekly : e.type = "weekly"
    · obtain ⟨r, hr, hpays⟩ := PayoutEntry.rule_weekly hweekly matchups
      simp [hweekly, hr, hpays, ← ih]
    · by_cases hplacement : e.type = "placement"
      · simp [hplacement, PayoutEntry.rule_placement hplacement, PayoutRule.weekly, ← ih]
      · simp [hweekly, PayoutEntry.rule_eq_none hplacement hweekly, ← ih]

/-- The season-end job pays the placement rules, the last one for each place. -/
theorem placement_rules (entries : List PayoutEntry) (place : ℤ) :
    (placeToEntry (entries.filter fun e => e.type = "placement") place).map
      (fun e => e.amountCents.toInt) =
        (entries.filterMap PayoutEntry.rule).reverse.findSome? (PayoutRule.placed place) := by
  unfold placeToEntry
  rw [← List.filter_reverse, ← List.filterMap_reverse, List.find?_filter]
  simp only [Bool.decide_and, Bool.decide_eq_true]
  induction entries.reverse with
  | nil => rfl
  | cons e rest ih =>
    by_cases hplacement : e.type = "placement"
    · have hrule := PayoutEntry.rule_placement hplacement
      by_cases hplace : e.place = place
      · simp [hplacement, hrule, hplace, PayoutRule.placed]
      · simp [hplacement, hrule, hplace, PayoutRule.placed, ih]
    · by_cases hweekly : e.type = "weekly"
      · obtain ⟨r, hr, -⟩ := PayoutEntry.rule_weekly hweekly []
        simp [hplacement, hr, PayoutEntry.placed_weekly hweekly hr, ih]
      · simp [hplacement, PayoutEntry.rule_eq_none hplacement hweekly, ih]

/-- The jobs pay what the rules say. -/
structure PaysRules (entries : List PayoutEntry) (rules : List PayoutRule) : Prop where
  /-- What the weekly job pays for the weekly entries of a list. -/
  weekly : ∀ matchups, ((entries.filter fun e => e.type = "weekly").flatMap fun e =>
    (weeklyQualifiers matchups e).map fun m => (m, e.bonusType, e.amountCents.toInt)) =
      rules.flatMap (PayoutRule.weekly matchups)
  /-- What the season-end job pays for a place. -/
  placement : ∀ place,
    (placeToEntry (entries.filter fun e => e.type = "placement") place).map
      (fun e => e.amountCents.toInt) = rules.reverse.findSome? (PayoutRule.placed place)

/-- The jobs pay the rules of the entries. -/
theorem paysRules (entries : List PayoutEntry) :
    PaysRules entries (entries.filterMap PayoutEntry.rule) :=
  ⟨weekly_rules entries, placement_rules entries⟩

end Wagr
