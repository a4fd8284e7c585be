import Wagr.Payouts.Settlement

/-!
# The final standings of a bracket

The platform reports a winners bracket, and the adapter turns it into standings: a placement
game gives its winner the place of the game and its loser the next one. If the places are at least
two apart, then each place and each roster is paid at most once, as long as the next place is
an `int` again.
-/

namespace Wagr

open Interaction Protocol

/-! ## The adapter -/

/-- `BracketEntry`: a game of the bracket. Rosters that are not decided yet are zero. -/
structure BracketEntry where
  winner : Int64
  loser : Int64
  place : Option Int64
  deriving DecidableEq

/-- What a round of `GetFinalStandings` appends. -/
def BracketEntry.standings (entry : BracketEntry) : List PlatformStanding :=
  match entry.place with
  | none => []
  | some place =>
    (if entry.winner ≠ 0 then [⟨entry.winner.toInt, place.toInt⟩] else []) ++
      (if entry.loser ≠ 0 then [⟨entry.loser.toInt, (place + 1).toInt⟩] else [])

/-- `GetFinalStandings`, given the answer of `GetWinnersBracket`. -/
def getFinalStandings (bracket : Except GoError (List BracketEntry)) :
    Except GoError (List PlatformStanding) :=
  bracket.map fun entries => entries.flatMap BracketEntry.standings

/-! ## Brackets -/

/-- The rosters of a placement game that are decided. -/
def BracketEntry.rosters (entry : BracketEntry) : List Int64 :=
  if entry.place.isSome then [entry.winner, entry.loser].filter fun roster => roster ≠ 0 else []

/-- Places at least two apart, and no roster in two placement games. -/
structure WellFormedBracket (bracket : List BracketEntry) : Prop where
  places : (bracket.filterMap BracketEntry.place).Pairwise fun p q => 2 ≤ |p.toInt - q.toInt|
  rosters : (bracket.flatMap BracketEntry.rosters).Nodup

/-- The standing is the winner's or the loser's of a decided placement game. -/
def DecidedStanding (bracket : List BracketEntry) (standing : PlatformStanding) : Prop :=
  ∃ entry ∈ bracket, ∃ place, entry.place = some place ∧
    ((entry.winner ≠ 0 ∧ standing = ⟨entry.winner.toInt, place.toInt⟩) ∨
      (entry.loser ≠ 0 ∧ standing = ⟨entry.loser.toInt, place.toInt + 1⟩))

/-- The place of a decided loser is an `int`. -/
def BracketEntry.NextPlaceFits (entry : BracketEntry) : Prop :=
  entry.loser ≠ 0 → ∀ place, entry.place = some place → place.toInt ≠ 2 ^ 63 - 1

variable {bracket : List BracketEntry} {entry : BracketEntry} {standing : PlatformStanding}

/-- The place after a place that is not the last `int`. -/
theorem toInt_next {place : Int64} (h : place.toInt ≠ 2 ^ 63 - 1) :
    (place + 1).toInt = place.toInt + 1 := by
  have hadd : (place + 1).toInt = (place.toInt + 1).bmod (2 ^ 64) := Int64.toInt_add place 1
  have hlow := Int64.le_toInt place
  have hhigh := Int64.toInt_lt place
  rw [hadd, Int.bmod_eq_of_le_mul_two (by omega) (by omega)]

/-- Where the next place is an `int`, the standings of a game are those of its rosters. -/
theorem mem_standings (hfits : entry.NextPlaceFits) :
    standing ∈ entry.standings ↔ ∃ place, entry.place = some place ∧
      ((entry.winner ≠ 0 ∧ standing = ⟨entry.winner.toInt, place.toInt⟩) ∨
        (entry.loser ≠ 0 ∧ standing = ⟨entry.loser.toInt, place.toInt + 1⟩)) := by
  unfold BracketEntry.standings
  cases hplace : entry.place with
  | none => simp
  | some place =>
    by_cases hloser : entry.loser = 0
    · by_cases hwinner : entry.winner = 0 <;> simp [hwinner, hloser]
    · have hnext := toInt_next (hfits hloser place hplace)
      by_cases hwinner : entry.winner = 0 <;> simp [hwinner, hloser, hnext]

/-- The rosters of the standings of a game. -/
theorem map_rosterID_standings :
    entry.standings.map PlatformStanding.rosterID = entry.rosters.map Int64.toInt := by
  unfold BracketEntry.standings BracketEntry.rosters
  cases entry.place with
  | none => rfl
  | some place =>
    by_cases hwinner : entry.winner = 0 <;> by_cases hloser : entry.loser = 0 <;>
      simp [hwinner, hloser]

/-- The standings are those of the decided placement games. -/
theorem mem_finalStandings (hfits : ∀ entry ∈ bracket, entry.NextPlaceFits) :
    standing ∈ bracket.flatMap BracketEntry.standings ↔ DecidedStanding bracket standing := by
  rw [List.mem_flatMap]
  exact exists_congr fun entry => and_congr_right fun hentry => mem_standings (hfits entry hentry)

/-- The places of the standings are distinct. -/
theorem nodup_places (h : WellFormedBracket bracket)
    (hfits : ∀ entry ∈ bracket, entry.NextPlaceFits) :
    ((bracket.flatMap BracketEntry.standings).map PlatformStanding.place).Nodup := by
  refine List.pairwise_map.mpr (List.pairwise_flatMap.mpr ⟨fun entry hentry => ?_, ?_⟩)
  · unfold BracketEntry.standings
    cases hplace : entry.place with
    | none => exact .nil
    | some place =>
      by_cases hloser : entry.loser = 0
      · by_cases hwinner : entry.winner = 0 <;> simp [hwinner, hloser]
      · have hnext := toInt_next (hfits entry hentry hloser place hplace)
        by_cases hwinner : entry.winner = 0 <;> simp [hwinner, hloser, hnext]
  · refine (List.pairwise_filterMap.mp h.places).imp_of_mem ?_
    intro entry entry' hentry hentry' hfar standing hstanding standing' hstanding' hsame
    obtain ⟨place, hplace, hp⟩ := (mem_standings (hfits entry hentry)).mp hstanding
    obtain ⟨place', hplace', hp'⟩ := (mem_standings (hfits entry' hentry')).mp hstanding'
    have hapart := le_abs.mp (hfar place hplace place' hplace')
    rcases hp with ⟨-, rfl⟩ | ⟨-, rfl⟩ <;> rcases hp' with ⟨-, rfl⟩ | ⟨-, rfl⟩ <;>
      simp only at hsame <;> omega

/-- The rosters of the standings are distinct. -/
theorem nodup_rosters (h : WellFormedBracket bracket) :
    ((bracket.flatMap BracketEntry.standings).map PlatformStanding.rosterID).Nodup := by
  have hmap : (bracket.flatMap BracketEntry.standings).map PlatformStanding.rosterID =
      (bracket.flatMap BracketEntry.rosters).map Int64.toInt := by
    rw [List.map_flatMap, List.map_flatMap]
    exact List.flatMap_congr fun entry _ => map_rosterID_standings
  rw [hmap]
  exact h.rosters.map fun _ _ heq => Int64.toInt_inj.mp heq

/-! ## What is paid from a bracket -/

/-- What is resolved are standings, in their order. -/
theorem Resolution.sublist {entries : List PayoutEntry} {members : List LeagueMember}
    {standings : List PlatformStanding} {lookups : DepTrace} {resolved : List ResolvedPayout}
    (h : Resolution entries members standings lookups resolved) :
    (resolved.map fun r => (r.place, r.member.rosterID)).Sublist
      (standings.map fun s => (s.place, s.rosterID)) := by
  induction h with
  | nil => exact .slnil
  | skip hnone _ ih => exact ih.cons _
  | unknown e hsome haccount _ ih => exact ih.cons _
  | eligible addr hsome haccount _ ih =>
    rw [List.map_cons, List.map_cons, rosterID_of_candidate hsome]
    exact ih.cons_cons _

/-- Each place and each roster is paid at most once. -/
structure PaysOnce (league : OracleLeague) (bracket : List BracketEntry) (calls : DepTrace) :
    Prop where
  places : ∀ standings, getFinalStandings (.ok bracket) = .ok standings →
    (standings.map PlatformStanding.place).Nodup
  rosters : ∀ standings, getFinalStandings (.ok bracket) = .ok standings →
    (standings.map PlatformStanding.rosterID).Nodup
  exact : ∀ standings, getFinalStandings (.ok bracket) = .ok standings →
    ∀ standing, standing ∈ standings ↔ DecidedStanding bracket standing
  sends : ∀ before key recipients amounts r after,
    calls = before ++ ⟨.distribute key recipients amounts, r⟩ :: after →
      ∃ resolved, Covered league before key recipients amounts resolved ∧
        (resolved.map ResolvedPayout.place).Nodup ∧
        (resolved.map fun r => r.member.rosterID).Nodup

/-- **Each place and each roster is paid at most once** from a bracket with places at least two
apart, as long as the places of the losers are `int`s. -/
theorem paysOnce_of_yields (bracket : List BracketEntry) (h : WellFormedBracket bracket)
    (hfits : ∀ entry ∈ bracket, entry.NextPlaceFits)
    (league : OracleLeague) (calls : DepTrace) (r : Except GoError Unit)
    (hyields : (settleSeasonEnd .any league).run.Yields r calls)
    (hread : ∀ standings, ⟨.finalStandings league.platform league.platformLeagueID,
      .ok standings⟩ ∈ calls → getFinalStandings (.ok bracket) = .ok standings) :
    PaysOnce league bracket calls := by
  have hplaces := nodup_places h hfits
  have hrosters := nodup_rosters h
  refine ⟨?_, ?_, ?_, ?_⟩
  · rintro standings heq
    cases heq
    exact hplaces
  · rintro standings heq
    cases heq
    exact hrosters
  · rintro standings heq standing
    cases heq
    exact mem_finalStandings hfits
  · intro before key recipients amounts d after hcalls
    obtain ⟨resolved, hcovered, -⟩ :=
      (SettlementCourse.of_yields hyields).settledExactly.sends _ _ _ _ _ _ hcalls
    refine ⟨resolved, hcovered, ?_⟩
    rcases hcovered.resolves with ⟨-, rfl⟩ | ⟨standings, members, hstandings, -, hresolution⟩
    · exact ⟨.nil, .nil⟩
    have hbefore : ⟨.finalStandings league.platform league.platformLeagueID, .ok standings⟩ ∈
        calls := hcalls ▸ List.mem_append_left _ hstandings
    cases hread standings hbefore
    have hsublist := hresolution.sublist
    constructor
    · have hsub := hsublist.map Prod.fst
      rw [List.map_map, List.map_map] at hsub
      exact hplaces.sublist hsub
    · have hsub := hsublist.map Prod.snd
      rw [List.map_map, List.map_map] at hsub
      exact hrosters.sublist hsub

/-- Two semifinals, the final, the game for the third place, and one that is not decided yet. -/
def BracketEntry.sample : List BracketEntry :=
  [⟨2, 3, none⟩, ⟨1, 4, none⟩, ⟨2, 1, some 1⟩, ⟨3, 4, some 3⟩, ⟨0, 0, some 5⟩]

/-- A settlement that pays three places from a bracket. -/
theorem paysOnce_sample : PaysOnce (.sample sampleRules) BracketEntry.sample
    (sampleCalls sampleRules true) := by
  have hplaces : ∀ place ∈ BracketEntry.sample.filterMap BracketEntry.place, place.toInt ≤ 5 := by
    simp [BracketEntry.sample]
  have hfits : ∀ entry ∈ BracketEntry.sample, entry.NextPlaceFits := by
    intro entry hentry _ place hplace
    have hle := hplaces place (List.mem_filterMap.mpr ⟨entry, hentry, hplace⟩)
    omega
  refine paysOnce_of_yields BracketEntry.sample ⟨by decide, by decide⟩ hfits
    _ _ _ (Program.yields_play (DepRet.sample true) _) fun standings h => ?_
  cases Program.answer_of_mem_play h
  rfl

/-- A loser's place may wrap around to the first place of all. -/
theorem not_placesDistinct : ¬ ∀ bracket standings, WellFormedBracket bracket →
    getFinalStandings (.ok bracket) = .ok standings →
      (standings.map PlatformStanding.place).Nodup := by
  intro h
  have hnodup := h [⟨1, 2, some Int64.maxValue⟩, ⟨3, 4, some Int64.minValue⟩] _
    ⟨by decide, by decide⟩ rfl
  exact absurd hnodup (by decide)

end Wagr
