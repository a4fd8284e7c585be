import Wagr.Payouts.Distributed
import Wagr.Web.SettingsForm

/-!
# Payouts and the total on the settings page

The settings page promises each weekly bonus once for each of its weeks, and each place once. The
oracle does not look at the number of weeks. It distributes no more than promised as long as no
weekly bonus has more qualifiers over the season than weeks, no paid place has two teams, and
no event is paid twice.
-/

namespace Wagr

open Interaction Relational System

variable {svc : Service} {crypto : Crypto} {a b : BackendConfig} {l : BackendLabel}
  {ok : BackendConfig → BackendLabel → Prop} {leagueID : String} {rules : List PayoutEntry}
  {ledger : List WeeklyEventRow}

/-! ## The total of the page -/

namespace PayoutEntry

/-- The page multiplies the amount by the number of weeks. -/
def CountsWeeks (e : PayoutEntry) : Prop :=
  e.type = "weekly" ∧ LeagueSettingsPage.isWeeklyBonus e.encode.bonusType = true

instance (e : PayoutEntry) : Decidable e.CountsWeeks := inferInstanceAs (Decidable (_ ∧ _))

/-- How often the page counts the amount. -/
def times (e : PayoutEntry) : ℤ := if e.CountsWeeks then e.weeks else 1

/-- What the page promises for an entry, without rounding. -/
def promise (e : PayoutEntry) : ℤ := e.amountCents.toInt * e.times

end PayoutEntry

/-- What the page promises for payout rules, without rounding. -/
def promised (rules : List PayoutEntry) : ℤ := (rules.map PayoutEntry.promise).sum

namespace LeagueSettingsPage

/-- What the page adds for a served entry. -/
theorem rowTotal_served (i : ℕ) (e : PayoutEntry) :
    rowTotal (normalizeEntry i e.encode.json) = some (if e.CountsWeeks then
      Binary64.round (Binary64.round e.amountCents.toInt * Binary64.round e.weeks)
      else Binary64.round e.amountCents.toInt) := by
  have hamount : (normalizeEntry i e.encode.json).amountCents =
      some (Binary64.round e.amountCents.toInt) := rfl
  have hweeks : (normalizeEntry i e.encode.json).weeks.getD 0 = Binary64.round e.weeks := by
    by_cases hzero : e.weeks = 0
    · simp [normalizeEntry, PayoutEntry.encode, StoredEntry.json, hzero]
    · simp [normalizeEntry, PayoutEntry.encode, StoredEntry.json, hzero]
  have hcounts : ((normalizeEntry i e.encode.json).type = some "weekly" ∧
      isWeeklyBonus (normalizeEntry i e.encode.json).bonusType = true) ↔ e.CountsWeeks := by
    have htype : (normalizeEntry i e.encode.json).type = some e.type := rfl
    have hstored : e.encode.json.bonusType = e.encode.bonusType := rfl
    rw [htype, Option.some.injEq]
    refine and_congr_right fun hweekly => ?_
    have hbonus : (normalizeEntry i e.encode.json).bonusType =
        some (e.encode.bonusType.getD "weekly_high_score") := by
      rw [← hstored]
      exact if_pos (congrArg some hweekly)
    rw [hbonus, isWeeklyBonus, isWeeklyBonus, Option.getD_some]
  unfold rowTotal
  by_cases hweekly : e.CountsWeeks
  · rw [if_pos (hcounts.mpr hweekly), if_pos hweekly, hamount, hweeks, Option.map_some]
  · rw [if_neg fun h => hweekly (hcounts.mp h), if_neg hweekly, hamount]

/-- No part of the total is negative. -/
def NonNegative (rules : List PayoutEntry) : Prop :=
  ∀ e ∈ rules, 0 ≤ e.amountCents.toInt ∧ (e.CountsWeeks → 0 ≤ e.weeks)

/-- A promise below `2 ^ 53` is shown exactly. -/
theorem rowTotal_exact {e : PayoutEntry} (i : ℕ) (hamount : 0 ≤ e.amountCents.toInt)
    (hweeks : e.CountsWeeks → 0 ≤ e.weeks) (hsmall : e.promise < 2 ^ 53) :
    rowTotal (normalizeEntry i e.encode.json) = some e.promise := by
  rw [rowTotal_served, PayoutEntry.promise, PayoutEntry.times]
  rw [PayoutEntry.promise, PayoutEntry.times] at hsmall
  by_cases hweekly : e.CountsWeeks
  · rw [if_pos hweekly] at hsmall ⊢
    rw [if_pos hweekly]
    have hnonneg := hweeks hweekly
    rcases hamount.eq_or_lt with hzero | hpos
    · simp [← hzero]
    · rcases hnonneg.eq_or_lt with hzero | hweek
      · simp [← hzero]
      · have hle : e.amountCents.toInt ≤ e.amountCents.toInt * e.weeks := by nlinarith
        have hle' : e.weeks ≤ e.amountCents.toInt * e.weeks := by nlinarith
        have hexact : Binary64.round e.amountCents.toInt = e.amountCents.toInt :=
          Binary64.exact_of_lt (by omega)
        have hexact' : Binary64.round e.weeks = e.weeks := Binary64.exact_of_lt (by omega)
        have hproduct : Binary64.round (e.amountCents.toInt * e.weeks) =
          e.amountCents.toInt * e.weeks := Binary64.exact_of_lt (by omega)
        rw [hexact, hexact', hproduct]
  · rw [if_neg hweekly] at hsmall ⊢
    rw [if_neg hweekly, mul_one]
    have hexact : Binary64.round e.amountCents.toInt = e.amountCents.toInt :=
      Binary64.exact_of_lt (by omega)
    rw [hexact]

/-- A promise is not negative. -/
theorem NonNegative.promise (h : NonNegative rules) {e : PayoutEntry} (he : e ∈ rules) :
    0 ≤ e.promise := by
  obtain ⟨hamount, hweeks⟩ := h e he
  refine mul_nonneg hamount ?_
  unfold PayoutEntry.times
  split
  · rename_i hweekly
    exact hweeks hweekly
  · exact Int.one_nonneg

/-- The total is not negative. -/
theorem NonNegative.promised (h : NonNegative rules) : 0 ≤ promised rules := by
  refine List.sum_nonneg fun n hn => ?_
  obtain ⟨e, he, rfl⟩ := List.mem_map.mp hn
  exact h.promise he

/-- A total below `2 ^ 53` is shown exactly. -/
theorem totalPayout_served (h : NonNegative rules) (hsmall : promised rules < 2 ^ 53) :
    totalPayout (servedRows rules) = some (promised rules) := by
  have hrows : ∀ (offset : ℕ) (start : ℤ), 0 ≤ start → start + Wagr.promised rules < 2 ^ 53 →
      ((rules.map fun e => e.encode.json).mapIdx fun i => normalizeEntry (i + offset)).foldl
        (fun s r => do return Binary64.round ((← s) + (← rowTotal r))) (some start) =
        some (start + Wagr.promised rules) := by
    clear hsmall
    induction rules with
    | nil => simp [Wagr.promised]
    | cons e rules ih =>
      intro offset start hstart hsmall
      have hrest : NonNegative rules := fun e he => h e (List.mem_cons_of_mem _ he)
      have hsum : Wagr.promised (e :: rules) = e.promise + Wagr.promised rules := by
        simp [Wagr.promised]
      have hpromise := h.promise List.mem_cons_self
      have htail := hrest.promised
      obtain ⟨hamount, hweeks⟩ := h e List.mem_cons_self
      rw [hsum] at hsmall ⊢
      have hrow : rowTotal (normalizeEntry (0 + offset) e.encode.json) = some e.promise :=
        rowTotal_exact _ hamount hweeks (by omega)
      have hexact : Binary64.round (start + e.promise) = start + e.promise :=
        Binary64.exact_of_lt (by omega)
      have hshift : (fun i => normalizeEntry (i + 1 + offset)) =
          fun i => normalizeEntry (i + (offset + 1)) := by
        funext i
        rw [Nat.add_assoc, Nat.add_comm 1]
      rw [List.map_cons, List.mapIdx_cons, List.foldl_cons, hrow, hshift, ← add_assoc]
      change List.foldl _ (some (Binary64.round (start + e.promise))) _ = _
      rw [hexact]
      exact ih hrest (offset + 1) (start + e.promise) (by omega) (by omega)
  have htotal := hrows 0 0 le_rfl (by omega)
  simpa [totalPayout, servedRows, normalizeEntries] using htotal

/-- The total the page shows is not below the promised one. -/
def ShowsPromised (rules : List PayoutEntry) : Prop :=
  ∃ total ∈ totalPayout (servedRows rules), Wagr.promised rules ≤ total

/-- Rounding only matters from `2 ^ 53` on. -/
theorem NonNegative.showsPromised (h : NonNegative rules) (hsmall : Wagr.promised rules < 2 ^ 53) :
    ShowsPromised rules :=
  ⟨Wagr.promised rules, totalPayout_served h hsmall, le_rfl⟩

end LeagueSettingsPage

/-! ## What weekly events cost -/

/-- A weekly bonus has at most `n` qualifiers, counted by week and team, in all matchups that were
fetched for the league. -/
def FiresAtMost (a : BackendConfig) (leagueID : String) (entry : PayoutEntry) (n : ℤ) : Prop :=
  ∀ fired : List (ℤ × ℤ), fired.Nodup →
    (∀ p ∈ fired, a.SomeTrace fun _ trace => Qualified trace leagueID entry p.1 p.2) →
      (fired.length : ℤ) ≤ n

/-- The week and the matchups of an answer. -/
def matchupsOf : Sigma Ret → Option (ℤ × List PlatformMatchup)
  | ⟨.platformMatchups _ _ week, .ok matchups⟩ => some (week, matchups)
  | _ => none

/-- A bound on the qualifiers, from all matchups that were fetched. -/
theorem firesAtMost_of_mem {entry : PayoutEntry} {qualifiers : List (ℤ × ℤ)}
    (h : ∀ t ∈ a.threads, ∀ call ∈ t.trace, ∀ fetched ∈ matchupsOf call,
      ∀ m ∈ weeklyQualifiers (fetched.2.filter fun m => 0 < m.matchupID) entry,
        (fetched.1, m.rosterID) ∈ qualifiers) :
    FiresAtMost a leagueID entry qualifiers.length := by
  intro fired hnodup hfired
  have hsubset : fired ⊆ qualifiers := by
    rintro ⟨week, rosterID⟩ hp
    obtain ⟨i, t, ht, -, -, league, -, -, -, -, matchups, hmatchups, m, hm, rfl⟩ := hfired _ hp
    exact h t (List.mem_of_getElem? ht) _ hmatchups (week, matchups) rfl m hm
  exact Int.ofNat_le.mpr (hnodup.subperm hsubset).length_le

/-- The page counts the weeks of an entry that has qualifiers. -/
theorem Qualified.countsWeeks {trace : List (Sigma Ret)} {entry : PayoutEntry} {week rosterID : ℤ}
    (h : Qualified trace leagueID entry week rosterID) : entry.CountsWeeks := by
  obtain ⟨-, -, -, -, -, -, htype, matchups, -, m, hm, -⟩ := h
  refine ⟨htype, ?_⟩
  unfold weeklyQualifiers at hm
  split at hm
  · rename_i hhigh
    simp only [PayoutEntry.encode, hhigh]
    rfl
  · split at hm
    · rename_i hthreshold
      simp only [PayoutEntry.encode, hthreshold]
      rfl
    · cases hm

/-- The entry a roster has qualified for is one of the kept rules. -/
theorem Runs.qualified_rules (h : Runs svc crypto (KeepsRules leagueID rules) a)
    {entry : PayoutEntry} {week rosterID : ℤ}
    (hqualified : a.SomeTrace fun _ trace => Qualified trace leagueID entry week rosterID) :
    entry ∈ rules.filter fun e => e.type = "weekly" := by
  obtain ⟨i, t, ht, stream, hread, league, hleague, hid, hentry, htype, -⟩ := hqualified
  have hsubset : league.payoutStructure ⊆ rules := h.readsRules ht hread league hleague hid
  exact List.mem_filter.mpr ⟨hsubset hentry, decide_eq_true htype⟩

/-- The entry is one an event may have been recorded for. -/
def PaysFor (a : BackendConfig) (leagueID : String) (entry : PayoutEntry) (e : WeeklyEventRow) :
    Prop :=
  (a.SomeTrace fun _ trace => Qualified trace leagueID entry e.week e.rosterID) ∧
    entry.bonusType = e.payoutType ∧ entry.amountCents = e.amountCents

/-- Events of one entry differ in week or team. -/
theorem Recorded.fired_nodup (h : Recorded leagueID a ledger) {entry : PayoutEntry}
    {events : List WeeklyEventRow} (hevents : events ⊆ ledger)
    (hnodup : (events.map WeeklyEventRow.id).Nodup)
    (hentry : ∀ e ∈ events, PaysFor a leagueID entry e) :
    (events.map fun e => (e.week, e.rosterID)).Nodup := by
  refine List.Nodup.map_on (fun e he e' he' heq => ?_) hnodup.of_map
  obtain ⟨hweek, hroster⟩ := Prod.mk.inj heq
  have htype : e.payoutType = e'.payoutType :=
    (hentry e he).2.1.symm.trans (hentry e' he').2.1
  have hleague : e.leagueID = e'.leagueID :=
    (h.league e (hevents he)).1.trans (h.league e' (hevents he')).1.symm
  refine List.inj_on_of_nodup_map h.keys (hevents he) (hevents he') ?_
  simp only [WeeklyEventRow.key, hleague, hweek, hroster, htype]

/-- Different events of the ledger cost at most what the page promises for weekly entries. -/
theorem Recorded.events_le (h : Recorded leagueID a ledger)
    (hrun : Runs svc crypto (KeepsRules leagueID rules) a)
    (hnonneg : ∀ e ∈ rules, 0 ≤ e.amountCents.toInt)
    (hfires : ∀ e ∈ rules, e.CountsWeeks → FiresAtMost a leagueID e e.weeks)
    {events : List WeeklyEventRow} (hevents : events ⊆ ledger)
    (hnodup : (events.map WeeklyEventRow.id).Nodup) :
    (events.map fun e => e.amountCents.toInt).sum ≤
      ((rules.filter fun e => e.type = "weekly").map PayoutEntry.promise).sum := by
  refine Attribution.sum_le (A := PaysFor a leagueID) (fun e he => ?_) (fun entry e hpays => ?_)
    (fun entry hentry => ?_) fun entry hentry some hsome hpays => ?_
  · obtain ⟨entry, hqualified, hrest⟩ := h.qualified e (hevents he)
    exact ⟨entry, hrun.qualified_rules hqualified, hqualified, hrest⟩
  · rw [hpays.2.2]
  · exact hnonneg entry (List.mem_filter.mp hentry).1
  · by_cases hweekly : entry.CountsWeeks
    · have hfired := h.fired_nodup (List.Subset.trans hsome.subset hevents)
        (hnodup.sublist (hsome.map _)) hpays
      have hle := hfires entry (List.mem_filter.mp hentry).1 hweekly _ hfired fun p hp => by
        obtain ⟨e, he, rfl⟩ := List.mem_map.mp hp
        exact (hpays e he).1
      rw [PayoutEntry.times, if_pos hweekly]
      simpa using hle
    · have hnone : some = [] := by
        refine List.eq_nil_iff_forall_not_mem.mpr fun e he => hweekly ?_
        obtain ⟨i, t, -, hqualified⟩ := (hpays e he).1
        exact hqualified.countsWeeks
      rw [PayoutEntry.times, if_neg hweekly, hnone]
      decide

/-! ## What places cost -/

/-- The final standings were fetched to settle the league. -/
def SettledWith (trace : List (Sigma Ret)) (leagueID : String) (standings : List PlatformStanding) :
    Prop :=
  ∃ stream, (⟨.query .seasonEndLeagues, .ok stream⟩ : Sigma Ret) ∈ trace ∧
    ∃ league ∈ stream.rows.filterMap OracleLeagueRow.load, league.id = leagueID ∧
      (⟨.finalStandings league.platform league.platformLeagueID, .ok standings⟩ : Sigma Ret) ∈ trace

/-- The places of the placement entries are each taken by at most one team in all final standings
that were fetched for the league. -/
def PlacesOnce (a : BackendConfig) (leagueID : String) (rules : List PayoutEntry) : Prop :=
  ∀ standings, (a.SomeTrace fun _ trace => SettledWith trace leagueID standings) →
    ∀ e ∈ rules, e.type = "placement" →
      (standings.map PlatformStanding.place).count e.place ≤ 1

/-- The rule for a place is one of the placement entries. -/
theorem placeToEntry_mem {entries : List PayoutEntry} {place : ℤ} {e : PayoutEntry}
    (h : placeToEntry entries place = some e) : e ∈ entries ∧ e.place = place := by
  have hmem := List.mem_of_find?_eq_some h
  have hplace := List.find?_some h
  exact ⟨List.mem_reverse.mp hmem, of_decide_eq_true hplace⟩

/-- The places of one settlement cost at most what the page promises for placement entries. -/
theorem Runs.places_le (h : Runs svc crypto (KeepsRules leagueID rules) a)
    (hnonneg : ∀ e ∈ rules, 0 ≤ e.amountCents.toInt) (hplaces : PlacesOnce a leagueID rules)
    {payouts : List (ℤ × Int64)}
    (hplaced : a.SomeTrace fun _ trace => Placed trace leagueID payouts) :
    (∀ p ∈ payouts, 0 ≤ p.2.toInt) ∧ (payouts.map fun p => p.2.toInt).sum ≤
      ((rules.filter fun e => e.type = "placement").map fun e => e.amountCents.toInt).sum := by
  obtain ⟨i, t, ht, stream, hread, league, hleague, hid, standings, hstandings,
    hsublist, hentries⟩ :=
    hplaced
  have hsubset : league.payoutStructure ⊆ rules := h.readsRules ht hread league hleague hid
  have hentry : ∀ p ∈ payouts, ∃ e ∈ rules.filter fun e => e.type = "placement",
      e.place = p.1 ∧ e.amountCents = p.2 := by
    intro p hp
    obtain ⟨e, he, hamount⟩ := Option.map_eq_some_iff.mp (hentries p hp)
    obtain ⟨hmem, hplace⟩ := placeToEntry_mem he
    obtain ⟨hmem, htype⟩ := List.mem_filter.mp hmem
    exact ⟨e, List.mem_filter.mpr ⟨hsubset hmem, htype⟩, hplace, hamount⟩
  have hnodup : (payouts.map Prod.fst).Nodup := by
    refine List.nodup_iff_count_le_one.mpr fun place => ?_
    by_cases hmem : place ∈ payouts.map Prod.fst
    · obtain ⟨p, hp, rfl⟩ := List.mem_map.mp hmem
      obtain ⟨e, he, hplace, -⟩ := hentry p hp
      obtain ⟨he, htype⟩ := List.mem_filter.mp he
      have honce := hplaces standings ⟨i, t, ht, stream, hread, league, hleague, hid,
        hstandings⟩ e he
        (of_decide_eq_true htype)
      rw [hplace] at honce
      exact (hsublist.count_le _).trans honce
    · rw [List.count_eq_zero_of_not_mem hmem]
      exact Nat.zero_le 1
  constructor
  · intro p hp
    obtain ⟨e, he, -, hamount⟩ := hentry p hp
    exact hamount ▸ hnonneg e (List.mem_filter.mp he).1
  · refine Attribution.sum_le_of_nodup (A := fun e p => e.place = p.1 ∧ e.amountCents = p.2)
      hentry (fun e p hpays => ?_) (fun e he => ?_) (fun e p p' hpays hpays' => ?_)
      hnodup
    · rw [hpays.2]
    · exact hnonneg e (List.mem_filter.mp he).1
    · exact hpays.1.symm.trans hpays'.1

/-! ## The result -/

/-- Weekly and placement entries together cost at most the promised total. -/
theorem parts_le_promised (hnonneg : ∀ e ∈ rules, 0 ≤ e.amountCents.toInt) :
    ((rules.filter fun e => e.type = "weekly").map PayoutEntry.promise).sum +
      ((rules.filter fun e => e.type = "placement").map fun e => e.amountCents.toInt).sum ≤
        promised rules := by
  induction rules with
  | nil => simp [promised]
  | cons e rules ih =>
    have hrest := ih fun e he => hnonneg e (List.mem_cons_of_mem _ he)
    have hamount := hnonneg e List.mem_cons_self
    have hsum : promised (e :: rules) = e.promise + promised rules := by simp [promised]
    rw [hsum]
    by_cases hweekly : e.type = "weekly"
    · have hplacement : ¬ e.type = "placement" := by simp [hweekly]
      rw [List.filter_cons_of_pos (by simpa), List.filter_cons_of_neg (by simpa),
        List.map_cons, List.sum_cons]
      omega
    · have honce : e.promise = e.amountCents.toInt := by
        rw [PayoutEntry.promise, PayoutEntry.times, if_neg fun h => hweekly h.1, mul_one]
      rw [List.filter_cons_of_neg (by simpa)]
      by_cases hplacement : e.type = "placement"
      · rw [List.filter_cons_of_pos (by simpa), List.map_cons, List.sum_cons]
        omega
      · rw [List.filter_cons_of_neg (by simpa)]
        omega

/-- Along every run that keeps the rules, the season-end transactions that have succeeded pay at
most what the page promises for placement entries. -/
theorem Runs.season_le (h : Runs svc crypto (KeepsRules leagueID rules) a)
    (hnonneg : ∀ e ∈ rules, 0 ≤ e.amountCents.toInt) (hplaces : PlacesOnce a leagueID rules) :
    (((a.world.submissions.filter fun s => s.HasPaid leagueID).filter fun s =>
      s.purpose = .seasonEnd leagueID).map Submission.total).sum ≤ 10000 *
        ((rules.filter fun e => e.type = "placement").map fun e => e.amountCents.toInt).sum := by
  have hcharge : 0 ≤ ((rules.filter fun e => e.type = "placement").map
      fun e => e.amountCents.toInt).sum := by
    refine List.sum_nonneg fun n hn => ?_
    obtain ⟨e, he, rfl⟩ := List.mem_map.mp hn
    exact hnonneg e (List.mem_filter.mp he).1
  have hpairwise : ((a.world.submissions.filter fun s => s.HasPaid leagueID).filter fun s =>
      s.purpose = .seasonEnd leagueID).Pairwise fun s s' =>
        s.purpose = .seasonEnd leagueID → s'.purpose ≠ .seasonEnd leagueID := by
    refine List.Pairwise.filter _ (List.Pairwise.filter _ ?_)
    rw [List.pairwise_iff_getElem]
    intro k n hk hn hlt hseason hseason'
    have heq := h.season_once (List.getElem?_eq_getElem hk) (List.getElem?_eq_getElem hn) hseason
      hseason'
    omega
  have hseason : ∀ s ∈ (a.world.submissions.filter fun s => s.HasPaid leagueID).filter fun s =>
      s.purpose = .seasonEnd leagueID, s ∈ a.world.submissions ∧
        s.purpose = .seasonEnd leagueID := by
    intro s hs
    obtain ⟨hs, hpurpose⟩ := List.mem_filter.mp hs
    exact ⟨(List.mem_filter.mp hs).1, of_decide_eq_true hpurpose⟩
  generalize (a.world.submissions.filter fun s => s.HasPaid leagueID).filter fun s =>
    s.purpose = .seasonEnd leagueID = subs at hpairwise hseason
  match subs with
  | [] => simpa using hcharge
  | [s] =>
    obtain ⟨hs, hpurpose⟩ := hseason s List.mem_cons_self
    obtain ⟨payouts, hplaced, hamounts⟩ := h.season_placed hs hpurpose
    obtain ⟨hcents, hle⟩ := h.places_le hnonneg hplaces hplaced
    have hwords : s.total ≤ 10000 * (payouts.map fun p => p.2.toInt).sum := by
      rw [Submission.total, hamounts, List.map_map]
      exact sum_words_le hcents
    simp only [List.map_cons, List.map_nil, List.sum_cons, List.sum_nil]
    omega
  | s :: s' :: rest =>
    have hs := (hseason s (by simp)).2
    have hs' := (hseason s' (by simp)).2
    exact absurd hs' ((List.pairwise_cons.mp hpairwise).1 s' List.mem_cons_self hs)

/-- Along every run that keeps the rules and reads only unheld events, the weekly transactions that
have succeeded pay at most what the page promises for weekly entries. -/
theorem Runs.weekly_le
    (h : Runs svc crypto (fun a l => KeepsRules leagueID rules a l ∧ ReadsUnheld a l) a)
    (hnonneg : ∀ e ∈ rules, 0 ≤ e.amountCents.toInt)
    (hfires : ∀ e ∈ rules, e.CountsWeeks → FiresAtMost a leagueID e e.weeks) :
    (((a.world.submissions.filter fun s => s.HasPaid leagueID).filter fun s =>
      ¬ s.purpose = .seasonEnd leagueID).map Submission.total).sum ≤ 10000 *
        ((rules.filter fun e => e.type = "weekly").map PayoutEntry.promise).sum := by
  have hkeeps : Runs svc crypto (KeepsRules leagueID rules) a := h.mono fun _ _ hok => hok.1
  have hexclusive : EventsExclusive a := Runs.eventsExclusive (h.mono fun _ _ hok => hok.2)
  obtain ⟨ledger, hrecorded, -, hpaysLedger⟩ := h.exists_ledger leagueID
  have hweekly : ∀ s ∈ (a.world.submissions.filter fun s => s.HasPaid leagueID).filter fun s =>
      ¬ s.purpose = .seasonEnd leagueID, s.PaysFrom ledger := by
    intro s hs
    obtain ⟨hs, hpurpose⟩ := List.mem_filter.mp hs
    obtain ⟨hsubmitted, hpaid⟩ := List.mem_filter.mp hs
    have hid : s.purpose.leagueID = leagueID := (of_decide_eq_true hpaid).2
    have hledger := hpaysLedger s hsubmitted
    cases hkind : s.purpose with
    | seasonEnd leagueID' =>
      rw [hkind] at hid hpurpose
      subst hid
      simp [Purpose.leagueID] at hpurpose
    | weekly leagueID' eventIDs =>
      rw [hkind] at hid
      exact hledger eventIDs (hkind.trans (congrArg (Purpose.weekly · eventIDs) hid))
  have hdisjoint : ((a.world.submissions.filter fun s => s.HasPaid leagueID).filter fun s =>
      ¬ s.purpose = .seasonEnd leagueID).Pairwise fun s s' =>
        s.purpose.eventIDs.Disjoint s'.purpose.eventIDs := by
    refine ((hexclusive.pairwise.filter _).filter _).imp_of_mem
      fun {s s'} hs hs' hone id hid hid' => ?_
    have hsucceeded := (of_decide_eq_true (List.mem_filter.mp (List.mem_filter.mp hs).1).2).1
    have hsucceeded' := (of_decide_eq_true (List.mem_filter.mp (List.mem_filter.mp hs').1).2).1
    exact hone id ⟨hid, by simp [hsucceeded]⟩ ⟨hid', by simp [hsucceeded']⟩
  obtain ⟨events, hevents, hnodup, -, hsum⟩ := exists_events hweekly hdisjoint
  have hle := hrecorded.events_le hkeeps hnonneg hfires hevents hnodup
  have hamounts : ∀ e ∈ events, 0 ≤ e.amountCents.toInt := by
    intro e he
    obtain ⟨entry, hqualified, -, hamount⟩ := hrecorded.qualified e (hevents he)
    exact hamount ▸ hnonneg entry (List.mem_filter.mp (hkeeps.qualified_rules hqualified)).1
  have hwords := sum_words_le hamounts
  rw [hsum]
  exact hwords.trans (by omega)

/-- Along every run that keeps payout rules with non-negative amounts and reads only unheld events,
the oracle distributes at most what the settings page promises, if each weekly bonus has no more
qualifiers than weeks, each paid place has one team at most, and the page does not show less than
it promises. -/
theorem distributed_le_promised
    (h : Runs svc crypto (fun a l => KeepsRules leagueID rules a l ∧ ReadsUnheld a l) a)
    (hnonneg : ∀ e ∈ rules, 0 ≤ e.amountCents.toInt)
    (hfires : ∀ e ∈ rules, e.CountsWeeks → FiresAtMost a leagueID e e.weeks)
    (hplaces : PlacesOnce a leagueID rules) (hshown : LeagueSettingsPage.ShowsPromised rules) :
    ∃ total, LeagueSettingsPage.totalPayout (LeagueSettingsPage.servedRows rules) = some total ∧
      a.world.distributed leagueID ≤ 10000 * total := by
  obtain ⟨total, htotal, hpromised⟩ := hshown
  have hseason := Runs.season_le (h.mono fun _ _ hok => hok.1) hnonneg hplaces
  have hweekly := Runs.weekly_le h hnonneg hfires
  have hparts := parts_le_promised hnonneg
  have hsplit := List.sum_map_filter_add_sum_map_filter_not
    (fun s : Submission => s.purpose = .seasonEnd leagueID) Submission.total
    (a.world.submissions.filter fun s => s.HasPaid leagueID)
  refine ⟨total, htotal, ?_⟩
  unfold World.distributed
  omega

/-! ## Seasons -/

/-- A weekly bonus of one dollar for one week. -/
def oneWeek : PayoutEntry := { Schedule.highScore with weeks := 1 }

/-- The best team of the first week is paid. -/
def firstWeek : Schedule :=
  Schedule.fundedLeague oneWeek ++ Schedule.weekly 4 "e1" ++ Schedule.payWeekly 4 "tx1" ++
    [.env (.settle 0 true), .call 4 (.succeed 0 ""), .call 4 (.succeed 0 "f3")]

/-- The result at the end of this run, where all that was promised has been distributed. -/
theorem distributed_le_promised_firstWeek : ∃ a, Runs .mock .mock (fun a l =>
      KeepsRules Schedule.leagueID [oneWeek] a l ∧ ReadsUnheld a l) a ∧
    a.world.distributed Schedule.leagueID = 10000 * 100 ∧
    ∃ total, LeagueSettingsPage.totalPayout (LeagueSettingsPage.servedRows [oneWeek]) = some total ∧
      a.world.distributed Schedule.leagueID ≤ 10000 * total := by
  obtain ⟨a, hrun, hpaid, hmatchups⟩ := firstWeek.exists_run .mock .mock
    (fun a l => KeepsRules Schedule.leagueID [oneWeek] a l ∧ ReadsFresh a l)
    (fun a => a.world.distributed Schedule.leagueID = 10000 * 100 ∧
      ∀ t ∈ a.threads, ∀ call ∈ t.trace, ∀ fetched ∈ matchupsOf call,
        ∀ m ∈ weeklyQualifiers (fetched.2.filter fun m => 0 < m.matchupID) oneWeek,
          (fetched.1, m.rosterID) ∈ [((1, 1) : ℤ × ℤ)]) (by decide +kernel)
  have hunheld : Runs .mock .mock (fun a l =>
      KeepsRules Schedule.leagueID [oneWeek] a l ∧ ReadsUnheld a l) a :=
    hrun.mono fun _ _ hok => ⟨hok.1, hok.2.readsUnheld⟩
  refine ⟨a, hunheld, hpaid, distributed_le_promised hunheld (by decide) ?_ ?_ ?_⟩
  · intro e he _
    obtain rfl := List.mem_singleton.mp he
    exact firesAtMost_of_mem hmatchups
  · intro standings _ e he hplacement
    obtain rfl := List.mem_singleton.mp he
    exact absurd hplacement (by decide)
  · refine LeagueSettingsPage.NonNegative.showsPromised (fun e he => ?_) (by decide)
    obtain rfl := List.mem_singleton.mp he
    decide

/-- The best team of the second week is paid as well. -/
def secondWeek : Schedule :=
  firstWeek ++ [.env (.payEntryFee 10 Schedule.leagueKey Schedule.dollar),
    .spawn .runWeeklyPayoutJob, .call 5 (.succeed 0 ""),
    .call 5 (.reply (.currentWeek "sleeper") (.ok 3)),
    .call 5 (.reply (.platformMatchups "sleeper" "7" 2) (.ok [⟨1, 1, 100⟩])),
    .call 5 (.succeed 0 ""), .call 5 (.succeed 0 "e2"), .call 5 (.succeed 0 "")] ++
    Schedule.payWeekly 5 "tx2" ++ [.env (.settle 1 true)]

/-- A bonus for one week is paid in two weeks, although the rules are kept and no event is read
twice. -/
theorem exists_overpaid : ∃ a, Runs .mock .mock (fun a l =>
      KeepsRules Schedule.leagueID [oneWeek] a l ∧ ReadsFresh a l) a ∧
    LeagueSettingsPage.totalPayout (LeagueSettingsPage.servedRows [oneWeek]) = some 100 ∧
    ¬ a.world.distributed Schedule.leagueID ≤ 10000 * 100 := by
  obtain ⟨a, hrun, hpaid⟩ := secondWeek.exists_run .mock .mock
    (fun a l => KeepsRules Schedule.leagueID [oneWeek] a l ∧ ReadsFresh a l)
    (fun a => ¬ a.world.distributed Schedule.leagueID ≤ 10000 * 100) (by decide +kernel)
  exact ⟨a, hrun, by decide, hpaid⟩

end Wagr
