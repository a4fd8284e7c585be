import Wagr.Payouts.Bracket

/-!
# The Sleeper platform

The backend knows one fantasy platform. Its client gets resources from Sleeper's API and decodes the
responses, the adapter makes answers of the platform calls from them, and the registry refuses every
other platform. What the API answers is not known here.
-/

namespace Wagr

open Interaction

namespace Sleeper

/-! ## The API -/

/-- `User`. -/
structure User where
  userID : String
  username : String
  displayName : String
  avatar : String

/-- `League`. -/
structure League where
  leagueID : String
  name : String
  season : String
  sport : String
  totalRosters : Int64
  status : String

/-- `LeagueUser`: an account with a place in a league. -/
structure LeagueUser where
  userID : String
  displayName : String
  avatar : String
  isOwner : Bool
  /-- The entries of the map. -/
  metadata : List (String × String)

/-- `Roster`, with its record. The owner is empty if there is none. -/
structure Roster where
  rosterID : Int64
  ownerID : String
  wins : Int64
  losses : Int64
  ties : Int64
  fpts : Int64

/-- `Matchup`: one team's side. -/
structure Matchup where
  matchupID : Int64
  rosterID : Int64
  points : ℚ

/-- `NFLState`. -/
structure NFLState where
  week : Int64
  season : String

/-- The resources the client gets, one for each of its URLs. -/
inductive Resource
  | user (username : String)
  | league (leagueID : String)
  | leagueUsers (leagueID : String)
  | leagueRosters (leagueID : String)
  | leagueMatchups (leagueID : String) (week : ℤ)
  | winnersBracket (leagueID : String)
  | nflState

/-- What a resource is decoded to. A user may be `null`. -/
abbrev Resource.Body : Resource → Type
  | .user _ => Option User
  | .league _ => League
  | .leagueUsers _ => List LeagueUser
  | .leagueRosters _ => List Roster
  | .leagueMatchups _ _ => List Matchup
  | .winnersBracket _ => List BracketEntry
  | .nflState => NFLState

/-- A response: its status, and what the JSON decoder makes of its body. -/
structure Response (α : Type) where
  statusCode : ℕ
  body : Except GoError α

/-- The answer to a request. -/
abbrev Answer (resource : Resource) : Type := Except GoError (Response resource.Body)

/-! ## The client -/

/-- A function that may ask Sleeper. -/
abbrev Client := ExceptT GoError (Program Resource Answer)

/-- `c.httpClient.Get`. -/
def request (resource : Resource) (what : String) : Client (Response resource.Body) :=
  wrapErr ("failed to fetch " ++ what) (ExceptT.mk (Program.perform resource))

/-- The check of the status and the decoding. -/
def decodeBody {α : Type} (resp : Response α) (what : String) : Client α :=
  if resp.statusCode ≠ 200 then
    throw (.text "unexpected status code: %d" [toString resp.statusCode])
  else wrapErr ("failed to decode " ++ what ++ " response") (ofResult resp.body)

/-- The methods that treat every status but 200 alike. -/
def get (resource : Resource) (what : String) : Client resource.Body := do
  let resp ← request resource what
  decodeBody resp what

/-- The methods that have an error of their own for status 404. -/
def find (resource : Resource) (what id : String) : Client resource.Body := do
  let resp ← request resource what
  if resp.statusCode = 404 then throw (.text (what ++ " not found: %s") [id])
  else decodeBody resp what

namespace Client

/-- `Client.GetUser`. -/
def getUser (username : String) : Client User := do
  match ← find (.user username) "user" username with
  | none => throw (.text "user not found: %s" [username])
  | some user => return user

/-- `Client.GetLeague`. -/
def getLeague (leagueID : String) : Client League := find (.league leagueID) "league" leagueID

/-- `Client.GetLeagueUsers`. -/
def getLeagueUsers (leagueID : String) : Client (List LeagueUser) :=
  get (.leagueUsers leagueID) "league users"

/-- `Client.GetLeagueRosters`. -/
def getLeagueRosters (leagueID : String) : Client (List Roster) :=
  get (.leagueRosters leagueID) "rosters"

/-- `Client.GetLeagueMatchups`. -/
def getLeagueMatchups (leagueID : String) (week : ℤ) : Client (List Matchup) :=
  get (.leagueMatchups leagueID week) "matchups"

/-- `Client.GetWinnersBracket`. -/
def getWinnersBracket (leagueID : String) : Client (List BracketEntry) :=
  get (.winnersBracket leagueID) "winners bracket"

/-- `Client.GetNFLState`. -/
def getNFLState : Client NFLState := get .nflState "NFL state"

end Client

/-! ## The adapter -/

/-- `convertLeague`. -/
def convertLeague (league : League) : PlatformLeague where
  platformLeagueID := league.leagueID
  name := league.name
  sport := league.sport
  season := league.season
  status := league.status
  totalRosters := league.totalRosters.toInt
  scoringType := "unknown"

/-- The map `rosterIDByOwner`: a later roster replaces an earlier one, and who has none gets zero.
-/
def rosterIDByOwner (rosters : List Roster) (ownerID : String) : Int64 :=
  ((rosters.reverse.find? fun r => r.ownerID = ownerID).map Roster.rosterID).getD 0

/-- The member that the adapter makes of a user of the league. -/
def LeagueUser.member (rosters : List Roster) (user : LeagueUser) : PlatformMember where
  platformUserID := user.userID
  username := user.userID
  displayName := user.displayName
  avatarURL := user.avatar
  isOwner := user.isOwner
  rosterID := (rosterIDByOwner rosters user.userID).toInt
  teamName := (user.metadata.lookup "team_name").getD ""

/-- The roster that the adapter makes of one. -/
def Roster.platformRoster (roster : Roster) : PlatformRoster where
  rosterID := roster.rosterID.toInt
  ownerID := roster.ownerID
  wins := roster.wins.toInt
  losses := roster.losses.toInt
  ties := roster.ties.toInt
  totalPoints := roster.fpts.toInt

/-- The matchup that the adapter makes of one. -/
def Matchup.platformMatchup (m : Matchup) : PlatformMatchup where
  rosterID := m.rosterID.toInt
  matchupID := m.matchupID.toInt
  points := m.points

namespace Adapter

/-- `Adapter.GetUser`. -/
def getUser (identifier : String) : Client PlatformUser := do
  let user ← Client.getUser identifier
  return ⟨user.userID, user.username, user.displayName, user.avatar⟩

/-- `Adapter.GetLeague`. -/
def getLeague (leagueID : String) : Client PlatformLeague := do
  let league ← Client.getLeague leagueID
  return convertLeague league

/-- `Adapter.GetLeagueMembers`. -/
def getLeagueMembers (leagueID : String) : Client (List PlatformMember) := do
  let users ← Client.getLeagueUsers leagueID
  let rosters ← Client.getLeagueRosters leagueID
  return users.map (LeagueUser.member rosters)

/-- `Adapter.GetLeagueRosters`. -/
def getLeagueRosters (leagueID : String) : Client (List PlatformRoster) := do
  let rosters ← Client.getLeagueRosters leagueID
  return rosters.map Roster.platformRoster

/-- `Adapter.GetLeagueMatchups`. -/
def getLeagueMatchups (leagueID : String) (week : ℤ) : Client (List PlatformMatchup) := do
  let matchups ← Client.getLeagueMatchups leagueID week
  return matchups.map Matchup.platformMatchup

/-- `Adapter.GetFinalStandings`. -/
def getFinalStandings (leagueID : String) : Client (List PlatformStanding) := do
  let bracket ← Client.getWinnersBracket leagueID
  return bracket.flatMap BracketEntry.standings

/-- `Adapter.GetCurrentWeek`. -/
def getCurrentWeek : Client ℤ := do
  let state ← Client.getNFLState
  return state.week.toInt

/-- `Adapter.GetCurrentSeason`. -/
def getCurrentSeason : Client String := do
  let state ← Client.getNFLState
  return state.season

end Adapter

/-! ## The registry -/

/-- The platforms that are registered when the gateway and the oracle start. -/
def registry : List String := ["sleeper"]

/-- `Registry.Get`, before the platform is asked. -/
def registered {α : Type} (platform : String) (x : Client α) : Client α :=
  if platform ∈ registry then x else throw (.text "platform %s not registered" [platform])

/-- `PlatformService`: how the platform calls are answered. -/
def platformService : (c : Call) → Option (Program Resource Answer (Ret c))
  | .platformUser platform username => some (registered platform (Adapter.getUser username)).run
  | .platformLeague platform leagueID => some (registered platform (Adapter.getLeague leagueID)).run
  | .platformMembers platform leagueID =>
    some (registered platform (Adapter.getLeagueMembers leagueID)).run
  | .platformRosters platform leagueID =>
    some (registered platform (Adapter.getLeagueRosters leagueID)).run
  | .platformMatchups platform leagueID week =>
    some (registered platform (Adapter.getLeagueMatchups leagueID week)).run
  | .finalStandings platform leagueID =>
    some (registered platform (Adapter.getFinalStandings leagueID)).run
  | .currentWeek platform => some (registered platform Adapter.getCurrentWeek).run
  | .currentSeason platform => some (registered platform Adapter.getCurrentSeason).run
  | _ => none

/-- What Sleeper may answer to each request. -/
abbrev API := (resource : Resource) → Answer resource → Prop

/-- `PlatformService` may answer the call so, as far as Sleeper is concerned. -/
def API.Answers (api : API) (c : Call) (r : Ret c) : Prop :=
  ∀ x ∈ platformService c, x.Returns api r

/-! ## What the answers say -/

/-- Sleeper may serve the resource with this content. -/
def API.Serves (api : API) (resource : Resource) (body : resource.Body) : Prop :=
  ∃ resp, api resource (.ok resp) ∧ resp.statusCode = 200 ∧ resp.body = .ok body

section Client

variable {api : API} {resource : Resource} {what id : String}

/-- A request is answered with a response. -/
theorem returns_request {resp : Response resource.Body} :
    (request resource what).run.Returns api (.ok resp) ↔ api resource (.ok resp) :=
  Program.returns_run_adapt_ok.trans Program.returns_perform

/-- Only the body of a response with status 200 is decoded. -/
theorem returns_decodeBody {α : Type} {resp : Response α} {body : α} :
    (decodeBody resp what).run.Returns api (.ok body) ↔
      resp.statusCode = 200 ∧ resp.body = .ok body := by
  unfold decodeBody
  split
  · rename_i hstatus
    simp [hstatus]
  · rename_i hstatus
    rw [wrapErr, Program.returns_run_adapt_ok]
    simp only [not_not.mp hstatus, true_and]
    exact Program.returns_pure.trans eq_comm

/-- What is got was served. -/
theorem returns_get {body : resource.Body} :
    (get resource what).run.Returns api (.ok body) ↔ api.Serves resource body := by
  simp only [get, Program.returns_run_bind_ok, returns_request, returns_decodeBody, API.Serves]

/-- What is found was served. -/
theorem returns_find {body : resource.Body} :
    (find resource what id).run.Returns api (.ok body) ↔ api.Serves resource body := by
  simp only [find, Program.returns_run_bind_ok, returns_request, API.Serves]
  refine exists_congr fun resp => and_congr_right fun _ => ?_
  split
  · rename_i hstatus
    simp [hstatus]
  · exact returns_decodeBody

/-- The client's users were served. -/
theorem returns_getUser {username : String} {user : User} :
    (Client.getUser username).run.Returns api (.ok user) ↔
      api.Serves (.user username) (some user) := by
  have hfind : ∀ body : Option User, (find (.user username) "user" username).run.Returns api
      (.ok body) ↔ api.Serves (.user username) body :=
    @returns_find api (.user username) "user" username
  simp only [Client.getUser, Program.returns_run_bind_ok, hfind]
  constructor
  · rintro ⟨body, hserves, hbody⟩
    cases body with
    | none => cases Program.returns_run_throw.mp hbody
    | some user' => cases Program.returns_run_pure.mp hbody; exact hserves
  · exact fun hserves => ⟨some user, hserves, Program.returns_run_pure.mpr rfl⟩

/-- The client's leagues were served. -/
theorem returns_getLeague {leagueID : String} {league : League} :
    (Client.getLeague leagueID).run.Returns api (.ok league) ↔
      api.Serves (.league leagueID) league :=
  @returns_find api (.league leagueID) "league" leagueID league

/-- The client's users of a league were served. -/
theorem returns_getLeagueUsers {leagueID : String} {users : List LeagueUser} :
    (Client.getLeagueUsers leagueID).run.Returns api (.ok users) ↔
      api.Serves (.leagueUsers leagueID) users :=
  @returns_get api (.leagueUsers leagueID) "league users" users

/-- The client's rosters were served. -/
theorem returns_getLeagueRosters {leagueID : String} {rosters : List Roster} :
    (Client.getLeagueRosters leagueID).run.Returns api (.ok rosters) ↔
      api.Serves (.leagueRosters leagueID) rosters :=
  @returns_get api (.leagueRosters leagueID) "rosters" rosters

/-- The client's matchups were served. -/
theorem returns_getLeagueMatchups {leagueID : String} {week : ℤ} {matchups : List Matchup} :
    (Client.getLeagueMatchups leagueID week).run.Returns api (.ok matchups) ↔
      api.Serves (.leagueMatchups leagueID week) matchups :=
  @returns_get api (.leagueMatchups leagueID week) "matchups" matchups

/-- The client's brackets were served. -/
theorem returns_getWinnersBracket {leagueID : String} {bracket : List BracketEntry} :
    (Client.getWinnersBracket leagueID).run.Returns api (.ok bracket) ↔
      api.Serves (.winnersBracket leagueID) bracket :=
  @returns_get api (.winnersBracket leagueID) "winners bracket" bracket

/-- Only a registered platform is asked. -/
theorem returns_registered {α : Type} {platform : String} {x : Client α} {a : α} :
    (registered platform x).run.Returns api (.ok a) ↔
      platform = "sleeper" ∧ x.run.Returns api (.ok a) := by
  unfold registered
  split
  · rename_i hmem
    obtain rfl := List.mem_singleton.mp hmem
    simp
  · rename_i hmem
    have hne : platform ≠ "sleeper" := fun h => hmem (List.mem_singleton.mpr h)
    simp [hne]

end Client

namespace API

variable {api : API} {platform leagueID : String}

/-- A platform call is answered by its program. -/
theorem answers_some {c : Call} {r : Ret c} {x : Program Resource Answer (Ret c)}
    (h : platformService c = some x) : api.Answers c r ↔ x.Returns api r := by
  simp only [Answers, h, Option.mem_def, Option.some.injEq, forall_eq']

/-- An account was served. -/
theorem answers_user {username : String} {user : PlatformUser} :
    api.Answers (.platformUser platform username) (.ok user) ↔ platform = "sleeper" ∧
      ∃ u, api.Serves (.user username) (some u) ∧
        user = ⟨u.userID, u.username, u.displayName, u.avatar⟩ := by
  refine (answers_some rfl).trans ?_
  simp only [returns_registered, Adapter.getUser, Program.returns_run_bind_ok,
    returns_getUser, Program.returns_run_pure, Except.ok.injEq]

/-- A league was served. -/
theorem answers_league {league : PlatformLeague} :
    api.Answers (.platformLeague platform leagueID) (.ok league) ↔ platform = "sleeper" ∧
      ∃ l, api.Serves (.league leagueID) l ∧ league = convertLeague l := by
  refine (answers_some rfl).trans ?_
  simp only [returns_registered, Adapter.getLeague, Program.returns_run_bind_ok,
    returns_getLeague, Program.returns_run_pure, Except.ok.injEq]

/-- The members were made from users and rosters that were served. -/
theorem answers_members {members : List PlatformMember} :
    api.Answers (.platformMembers platform leagueID) (.ok members) ↔ platform = "sleeper" ∧
      ∃ users, api.Serves (.leagueUsers leagueID) users ∧
        ∃ rosters, api.Serves (.leagueRosters leagueID) rosters ∧
          members = users.map (LeagueUser.member rosters) := by
  refine (answers_some rfl).trans ?_
  simp only [returns_registered, Adapter.getLeagueMembers,
    Program.returns_run_bind_ok, returns_getLeagueUsers, returns_getLeagueRosters,
    Program.returns_run_pure, Except.ok.injEq]

/-- The matchups were served. -/
theorem answers_matchups {week : ℤ} {matchups : List PlatformMatchup} :
    api.Answers (.platformMatchups platform leagueID week) (.ok matchups) ↔
      platform = "sleeper" ∧ ∃ served, api.Serves (.leagueMatchups leagueID week) served ∧
        matchups = served.map Matchup.platformMatchup := by
  refine (answers_some rfl).trans ?_
  simp only [returns_registered, Adapter.getLeagueMatchups,
    Program.returns_run_bind_ok, returns_getLeagueMatchups, Program.returns_run_pure,
    Except.ok.injEq]

/-- The standings are those of a bracket that was served. -/
theorem answers_standings {standings : List PlatformStanding} :
    api.Answers (.finalStandings platform leagueID) (.ok standings) ↔ platform = "sleeper" ∧
      ∃ bracket, api.Serves (.winnersBracket leagueID) bracket ∧
        standings = bracket.flatMap BracketEntry.standings := by
  refine (answers_some rfl).trans ?_
  simp only [returns_registered, Adapter.getFinalStandings,
    Program.returns_run_bind_ok, returns_getWinnersBracket, Program.returns_run_pure,
    Except.ok.injEq]

end API

/-- An account without a roster has roster zero. -/
theorem owner_of_rosterIDByOwner {rosters : List Roster} {ownerID : String}
    (h : rosterIDByOwner rosters ownerID ≠ 0) : ∃ roster ∈ rosters, roster.ownerID = ownerID ∧
      roster.rosterID = rosterIDByOwner rosters ownerID := by
  unfold rosterIDByOwner at h ⊢
  cases hfind : rosters.reverse.find? fun r => r.ownerID = ownerID with
  | none => simp [hfind] at h
  | some roster =>
    refine ⟨roster, List.mem_reverse.mp (List.mem_of_find?_eq_some hfind), ?_, by simp⟩
    simpa using List.find?_some hfind

end Sleeper

end Wagr
