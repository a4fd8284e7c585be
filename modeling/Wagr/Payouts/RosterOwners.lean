import Wagr.Fantasy.Sleeper
import Wagr.Leagues.Seats
import Wagr.Payouts.Provenance

/-!
# The pool goes to the owners of rosters

The backend never sees Sleeper itself, only what its adapter has made of Sleeper's responses. If
every answer of the platform came through the adapter, then every transfer goes back to the
responses: Sleeper has served the game or the matchups in which a roster has earned a rule, and the
rosters in which it belongs to the account that the paid user has linked.
-/

namespace Wagr

open Interaction Protocol System Relational Sleeper

variable {svc : Service} {crypto : Crypto} {api : API} {a b : BackendConfig} {l : BackendLabel}
  {leagueID : String} {entry : PayoutEntry}

/-- Every answer of the platform comes from the adapter. -/
def FromSleeper (api : API) (_ : BackendConfig) (l : BackendLabel) : Prop :=
  ∀ i c r, l = .call i c r → api.Answers c r

/-- Every answer of the platform in a trace came from the adapter. -/
theorem Runs.answers (h : Runs svc crypto (FromSleeper api) a) {i : ℕ} {t : BackendThread}
    (ht : a.threads[i]? = some t) {c : Call} {r : Ret c} (hcall : (⟨c, r⟩ : Sigma Ret) ∈ t.trace) :
    api.Answers c r := by
  obtain ⟨m, -⟩ := Reaches.moment_of_mem h rfl ht hcall
  exact m.assumed i c r rfl

/-! ## Seats -/

/-- Sleeper has served an account for the league under the requested ID, with its roster. -/
structure SleeperSeat (api : API) (platformLeagueID account : String) (rosterID : ℤ)
    (isOwner : Bool) : Prop where
  served : ∃ requested league users rosters, api.Serves (.league requested) league ∧
    league.leagueID = platformLeagueID ∧ api.Serves (.leagueUsers requested) users ∧
    api.Serves (.leagueRosters requested) rosters ∧
    (∃ user ∈ users, user.userID = account ∧ user.isOwner = isOwner) ∧
    rosterID = (rosterIDByOwner rosters account).toInt ∧
    (rosterID ≠ 0 → ∃ roster ∈ rosters, roster.ownerID = account ∧
      roster.rosterID.toInt = rosterID)

/-- What the platform has named to an import, Sleeper has served. -/
theorem Runs.sleeperSeat (h : Runs svc crypto (FromSleeper api) a) {key : String × String}
    {account : String} {rosterID : ℤ} {isOwner : Bool}
    (hnamed : a.SomeTrace fun _ trace => SeatNamed trace key account rosterID isOwner) :
    SleeperSeat api key.2 account rosterID isOwner := by
  obtain ⟨i, t, ht, requested, platformLeague, platformMembers, hleague, hid, hmembers, pm, hpm,
    rfl, rfl, rfl⟩ := hnamed
  obtain ⟨-, league, hserved, rfl⟩ := API.answers_league.mp (h.answers ht hleague)
  obtain ⟨-, users, husers, rosters, hrosters, rfl⟩ :=
    API.answers_members.mp (h.answers ht hmembers)
  obtain ⟨user, huser, rfl⟩ := List.mem_map.mp hpm
  refine ⟨requested, league, users, rosters, hserved, hid, husers, hrosters,
    ⟨user, huser, rfl, rfl⟩, rfl, fun hne => ?_⟩
  have hroster : rosterIDByOwner rosters user.userID ≠ 0 := by
    intro hzero
    refine hne ?_
    simp [LeagueUser.member, hzero]
  obtain ⟨roster, hmem, howner, hid⟩ := owner_of_rosterIDByOwner hroster
  exact ⟨roster, hmem, howner, congrArg Int64.toInt hid⟩

/-- The user has asked to link a name, which Sleeper has served with an account that has the seat.
-/
def HoldsSeat (api : API) (a : BackendConfig) (platformLeagueID userID : String) (rosterID : ℤ)
    (isOwner : Bool) : Prop :=
  ∃ username user, (∃ (i : ℕ) (t : BackendThread), a.threads[i]? = some t ∧
      t.job = .linkPlatformProfile userID ⟨"sleeper", username⟩) ∧
    api.Serves (.user username) (some user) ∧
    SleeperSeat api platformLeagueID user.userID rosterID isOwner

/-- Who was linked to a membership holds its seat. -/
theorem Runs.holdsSeat {d : BackendConfig} (hd : Runs svc crypto (FromSleeper api) d)
    (hda : (backend svc crypto).Reaches (FromSleeper api) d a) {userID : String} {m : MemberRow}
    (hm : m ∈ d.world.db.members.rows) (hlinked : d.world.db.linkedTo userID m = true)
    {r : LeagueRow} (hr : r ∈ d.world.db.leagues.rows) (hid : r.id = m.leagueID) :
    HoldsSeat api a r.platformLeagueID userID m.rosterID m.isOwner := by
  obtain ⟨-, hnamed⟩ := hd.seated hm hr hid
  have hseat := hd.sleeperSeat hnamed
  obtain ⟨p, hp, hjoins⟩ := List.any_eq_true.mp hlinked
  simp only [MemberRow.joins, Bool.and_eq_true, decide_eq_true_eq] at hjoins
  obtain ⟨⟨-, haccount⟩, huser⟩ := hjoins
  obtain ⟨i, t, ht, username, answer, hreq, hanswer, hanswered⟩ := hd.linkRequested hp
  obtain ⟨hplatform, user, hserved, rfl⟩ := API.answers_user.mp (hd.answers ht hanswer)
  obtain ⟨u, hu, hjob, -⟩ := hda.thread_later ht
  have hsame : m.platformUserID = user.userID := haccount.trans hanswered.symm
  rw [hsame] at hseat
  refine ⟨username, user, ⟨i, u, hu, ?_⟩, hserved, hseat⟩
  rw [hjob, hreq, ← huser, ← hplatform]
  rfl

/-! ## Leagues -/

/-- Some thread has read the league from the database. -/
def LeagueRead (a : BackendConfig) (league : OracleLeague) : Prop :=
  ∃ (i : ℕ) (t : BackendThread) (call : Sigma Ret) (stream : RowStream OracleLeagueRow),
    a.threads[i]? = some t ∧ call ∈ t.trace ∧
    (∀ w w' : World, w.handles call.1 call.2 w' → stream.Leagues w.db) ∧
    league ∈ stream.rows.filterMap OracleLeagueRow.load

/-- A league that some thread has read is the one that its ID stands for. -/
theorem LeagueRead.platformKey {ok : BackendConfig → BackendLabel → Prop} {d : BackendConfig}
    {league : OracleLeague} (hread : LeagueRead a league) (hd : Runs svc crypto ok d)
    (hda : (backend svc crypto).Reaches ok d a) {r : LeagueRow}
    (hr : r ∈ d.world.db.leagues.rows) (hid : league.id = r.id) :
    r.platformKey = (league.platform, league.platformLeagueID) := by
  obtain ⟨i, t, call, stream, ht, hcall, hrows, hleague⟩ := hread
  obtain ⟨o, ho, hload⟩ := List.mem_filterMap.mp hleague
  obtain ⟨entries, -, rfl⟩ := Option.map_eq_some_iff.mp hload
  -- the league was read before the row was seen, or after
  rcases hda.mem_or_moment ht hcall with ⟨u, hu, hmem⟩ | ⟨m, -⟩
  · obtain ⟨m, -⟩ := Reaches.moment_of_mem hd rfl hu hmem
    obtain ⟨r', hr', rfl⟩ := hrows _ _ m.handles o ho
    have hbefore : Runs svc crypto ok m.before := m.reached
    exact ((hbefore.standsFor hr').later m.later).rows r hr hid.symm
  · obtain ⟨r', hr', rfl⟩ := hrows _ _ m.handles o ho
    exact (((hd.standsFor hr).later m.reached).rows r' hr' hid).symm

/-- Who was linked to a membership of a league that was read holds its seat in this league. -/
theorem LeagueRead.holdsSeat {d : BackendConfig} {league : OracleLeague}
    (hread : LeagueRead a league) (hd : Runs svc crypto (FromSleeper api) d)
    (hda : (backend svc crypto).Reaches (FromSleeper api) d a) {userID : String} {m : MemberRow}
    (hm : m ∈ d.world.db.members.rows) (hlinked : d.world.db.linkedTo userID m = true)
    (hid : league.id = m.leagueID) :
    HoldsSeat api a league.platformLeagueID userID m.rosterID m.isOwner := by
  obtain ⟨r, hr, hsame⟩ := hd.membersHaveLeagues m hm
  have hkey := hread.platformKey hd hda hr (hid.trans hsame.symm)
  have hplatformID : r.platformLeagueID = league.platformLeagueID := congrArg Prod.snd hkey
  exact hplatformID ▸ hd.holdsSeat hda hm hlinked hr hsame

/-- Who was commissioner of a league that was read holds an owner's seat in this league. -/
theorem LeagueRead.ownerSeat {league : OracleLeague} (hread : LeagueRead a league)
    {userID : String} (hwas : WasCommissioner svc crypto (FromSleeper api) a league.id userID) :
    ∃ rosterID, HoldsSeat api a league.platformLeagueID userID rosterID true := by
  obtain ⟨d, hd, hda, howns⟩ := hwas
  obtain ⟨⟨m, p⟩, hmem, howner⟩ := List.any_eq_true.mp howns
  have howner : m.isOwner = true := howner
  obtain ⟨m', hm', hpair⟩ := List.mem_flatMap.mp hmem
  obtain ⟨p', hp', heq⟩ := List.mem_map.mp hpair
  cases heq
  obtain ⟨hm, hleague⟩ := List.mem_filter.mp hm'
  obtain ⟨hp, hjoins⟩ := List.mem_filter.mp hp'
  have hlinked : d.world.db.linkedTo userID m = true := List.any_eq_true.mpr ⟨p, hp, hjoins⟩
  have hholds := hread.holdsSeat hd hda hm hlinked (of_decide_eq_true hleague).symm
  exact ⟨m.rosterID, howner ▸ hholds⟩

/-! ## What Sleeper has served -/

/-- Sleeper has served the matchups of a week in which the roster qualifies for the rule, or a
bracket with a game that puts the roster on the place of the rule. -/
def Sleeper.API.Earns (api : API) (platformLeagueID : String) (entry : PayoutEntry)
    (rosterID : ℤ) : Purpose → Prop
  | .weekly _ _ => ∃ week matchups, api.Serves (.leagueMatchups platformLeagueID week) matchups ∧
      ∃ m ∈ weeklyQualifiers ((matchups.map Matchup.platformMatchup).filter fun m =>
        0 < m.matchupID) entry, m.rosterID = rosterID
  | .seasonEnd _ => rosterID ≠ 0 ∧
      ∃ bracket, api.Serves (.winnersBracket platformLeagueID) bracket ∧
        ∃ game ∈ bracket, ∃ place, game.place = some place ∧
          ((rosterID = game.winner.toInt ∧ entry.place = place.toInt) ∨
            (rosterID = game.loser.toInt ∧ entry.place = (place + 1).toInt))

/-- A standing comes from a placement game, and no roster is zero. -/
theorem game_of_mem_standings {bracket : List BracketEntry} {standing : PlatformStanding}
    (h : standing ∈ bracket.flatMap BracketEntry.standings) : standing.rosterID ≠ 0 ∧
      ∃ game ∈ bracket, ∃ place, game.place = some place ∧
        ((standing.rosterID = game.winner.toInt ∧ standing.place = place.toInt) ∨
          (standing.rosterID = game.loser.toInt ∧ standing.place = (place + 1).toInt)) := by
  obtain ⟨game, hgame, hstanding⟩ := List.mem_flatMap.mp h
  unfold BracketEntry.standings at hstanding
  cases hplace : game.place with
  | none => simp [hplace] at hstanding
  | some place =>
    simp only [hplace, List.mem_append, List.mem_ite_nil_right, List.mem_singleton] at hstanding
    rcases hstanding with ⟨hne, rfl⟩ | ⟨hne, rfl⟩
    · exact ⟨fun h => hne (Int64.toInt_inj.mp h), game, hgame, place, hplace, .inl ⟨rfl, rfl⟩⟩
    · exact ⟨fun h => hne (Int64.toInt_inj.mp h), game, hgame, place, hplace, .inr ⟨rfl, rfl⟩⟩

/-- What a roster has earned in an answer of the platform, it has earned in what Sleeper has
served. -/
theorem Runs.earns (h : Runs svc crypto (FromSleeper api) a) {rosterID : ℤ} {purpose : Purpose}
    (hearns : a.SomeTrace fun _ trace => Earns trace entry rosterID purpose) :
    ∃ league, LeagueRead a league ∧ league.id = purpose.leagueID ∧
      api.Earns league.platformLeagueID entry rosterID purpose := by
  obtain ⟨i, t, ht, hearns⟩ := hearns
  cases purpose with
  | weekly leagueID eventIDs =>
    obtain ⟨week, stream, hread, league, hleague, hid, -, -, matchups, hmatchups, m, hm, hroster⟩ :=
      hearns
    obtain ⟨-, served, hserves, rfl⟩ := API.answers_matchups.mp (h.answers ht hmatchups)
    exact ⟨league, ⟨i, t, _, stream, ht, hread, fun w w' hhandles => leagues_of_weekly hhandles.2,
      hleague⟩, hid, week, served, hserves, m, hm, hroster⟩
  | seasonEnd leagueID =>
    obtain ⟨league, hid, ⟨stream, hread, hleague⟩, standings, hstandings, hmem⟩ := hearns
    obtain ⟨-, bracket, hserves, rfl⟩ := API.answers_standings.mp (h.answers ht hstandings)
    obtain ⟨hne, hgame⟩ := game_of_mem_standings hmem
    exact ⟨league, ⟨i, t, _, stream, ht, hread,
      fun w w' hhandles => leagues_of_seasonEnd hhandles.2, hleague⟩, hid, hne, bracket, hserves,
      hgame⟩

/-! ## Transfers -/

/-- A transfer goes to the owner of a roster: the roster has earned a rule of the amount, which was
set by an owner of the league, and the paid user holds the roster. All three are what Sleeper
has served for one of its leagues. -/
structure PaysOwner (api : API) (a : BackendConfig) (purpose : Purpose) (address : Address)
    (word : UInt256) (platformLeagueID : String) (entry : PayoutEntry) (rosterID : ℤ)
    (userID : String) : Prop where
  amount : word = abiWord (toMicroUSDC entry.amountCents)
  type : entry.type = purpose.ruleType
  rule : ∃ commissioner settings rosterID', (∃ (i : ℕ) (t : BackendThread),
      a.threads[i]? = some t ∧
        t.job = .updateLeagueSettings purpose.leagueID commissioner settings) ∧
    entry ∈ settings.payoutStructure.getD [] ∧
    HoldsSeat api a platformLeagueID commissioner rosterID' true
  earned : api.Earns platformLeagueID entry rosterID purpose
  owner : ∃ isOwner, HoldsSeat api a platformLeagueID userID rosterID isOwner
  wallet : ∃ wallet, a.world.db.walletOf userID = some wallet ∧
    a.SomeTrace fun _ trace => LookedUp trace wallet address

deriving instance DecidableEq for PlatformUser, PlatformMember, PlatformRoster

/-- What Sleeper serves of a league whose commissioner wins the championship, before and after the
season is complete. -/
def championship (complete : Bool) : (resource : Resource) → Answer resource
  | .user username => .ok ⟨200, .ok (some ⟨username, username, username, ""⟩)⟩
  | .league _ =>
    .ok ⟨200, .ok ⟨"7", "league", "2024", "nfl", 2, if complete then "complete" else "in_season"⟩⟩
  | .leagueUsers _ => .ok ⟨200, .ok [⟨"p1", "p1", "", true, []⟩, ⟨"p2", "p2", "", false, []⟩]⟩
  | .leagueRosters _ => .ok ⟨200, .ok [⟨2, "p2", 0, 0, 0, 0⟩, ⟨1, "p1", 0, 0, 0, 0⟩]⟩
  | .leagueMatchups _ _ => .ok ⟨200, .ok []⟩
  | .winnersBracket _ => .ok ⟨200, .ok [⟨1, 2, some 1⟩]⟩
  | .nflState => .ok ⟨200, .ok ⟨17, "2024"⟩⟩

/-- The API that serves this. -/
def championshipAPI : API := fun resource answer =>
  ∃ complete, answer = championship complete resource

/-- The platform's answer in the label is the one the adapter makes of what is served. -/
def servedIn (complete : Bool) : BackendLabel → Bool
  | .call _ (.platformUser platform username) r =>
    r = ((registered platform (Adapter.getUser username)).run.play (championship complete)).1
  | .call _ (.platformLeague platform leagueID) r =>
    r = ((registered platform (Adapter.getLeague leagueID)).run.play (championship complete)).1
  | .call _ (.platformMembers platform leagueID) r =>
    r = ((registered platform (Adapter.getLeagueMembers leagueID)).run.play
      (championship complete)).1
  | .call _ (.platformRosters platform leagueID) r =>
    r = ((registered platform (Adapter.getLeagueRosters leagueID)).run.play
      (championship complete)).1
  | .call _ (.finalStandings platform leagueID) r =>
    r = ((registered platform (Adapter.getFinalStandings leagueID)).run.play
      (championship complete)).1
  | .call _ c _ => (platformService c).isNone
  | _ => true

/-- Such an answer comes from the adapter. -/
theorem fromSleeper_of_servedIn {complete : Bool} (h : servedIn complete l = true) :
    FromSleeper championshipAPI a l := by
  have hplay : ∀ {α : Type} {x : Program Resource Answer α} {r : α},
      r = (x.play (championship complete)).1 → x.Returns championshipAPI r := by
    rintro α x r rfl
    exact Program.returns_play (fun _ => ⟨complete, rfl⟩) x
  rintro i c r rfl x hx
  cases c with
  | platformUser | platformLeague | platformMembers | platformRosters | finalStandings =>
    cases hx
    exact hplay (of_decide_eq_true h)
  | platformMatchups | currentWeek | currentSeason => cases h
  | _ => cases hx

/-- The commissioner links an account and imports the league, sets a rule of one dollar for the
champion and pays the fee; when the season is complete, the job pays the champion. -/
def championPaid : Schedule :=
  Schedule.signUp 0 "0.0.9" "n1" "u1" ++ Schedule.link 1 "u1" "sleeper" (.mock "p1") "f1" ++
    [.spawn (.importLeague "u1" ⟨"sleeper", "7"⟩),
      .call 2 (.reply (.platformLeague "sleeper" "7")
        (.ok { PlatformLeague.mock "in_season" with scoringType := "unknown" })),
      .call 2 (.reply (.platformMembers "sleeper" "7")
        (.ok [.mock "p1" 1 true, .mock "p2" 2 false])),
      .call 2 (.reply (.platformRosters "sleeper" "7")
        (.ok [⟨2, "p2", 0, 0, 0, 0⟩, ⟨1, "p1", 0, 0, 0, 0⟩])),
      .call 2 (.succeed 0 Schedule.leagueID),
      .spawn (.updateLeagueSettings Schedule.leagueID "u1" ⟨100, some [Schedule.firstPlace]⟩),
      .call 3 (.succeed 0 ""), .call 3 (.succeed 0 "f2"), .call 3 (.succeed 0 ""),
      .env (.payEntryFee 9 Schedule.leagueKey Schedule.dollar),
      .spawn .runSeasonEndPayoutJob, .call 4 (.succeed 0 ""),
      .call 4 (.reply (.platformLeague "sleeper" "7")
        (.ok { PlatformLeague.mock "complete" with scoringType := "unknown" })),
      .call 4 (.reply (.finalStandings "sleeper" "7") (.ok [⟨1, 1⟩, ⟨2, 2⟩])),
      .call 4 (.succeed 0 ""), .call 4 (.reply (.mirrorAccount "0.0.9") none),
      .call 4 (.reply (.contractCall 5 (.leagueTotals Schedule.leagueKey))
        (.ok Schedule.oneDollar)),
      .call 4 (.succeed 0 "f3"), .call 4 (.succeed 0 "tx")]

end Wagr
