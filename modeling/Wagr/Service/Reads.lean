import Wagr.Service.League

/-!
# Read endpoints

The `GET` routes that `league.Handler` registers: the user's leagues, a league with its
members, its settings, and the payment status of its members. None of them changes
anything, so a response depends only on the answers a database in one state gives.
-/

namespace Wagr

open Interaction

/-- A league as the read endpoints return it. -/
structure League where
  id : String
  platform : String
  platformLeagueID : String
  name : String
  season : String
  sport : String
  status : String
  totalRosters : ℤ
  scoringType : String
  entryFeeCents : Int64
  isCommissioner : Bool
  /-- No query reads it. -/
  importedBy : String
  importedAt : ℕ
  lastSyncedAt : Option ℕ
  cancelledAt : Option ℕ
  deriving DecidableEq

/-- `Scan` of a league's columns; a status that is NULL does not fit into a string. -/
def LeagueRow.scan (row : LeagueRow) (isCommissioner : Bool) : Except GoError League :=
  match row.status with
  | none => .error (.text "can't scan into dest[6]: cannot scan NULL into *string" [])
  | some status => .ok
    { id := row.id
      platform := row.platform
      platformLeagueID := row.platformLeagueID
      name := row.name
      season := row.season
      sport := row.sport
      status := status
      totalRosters := row.totalRosters
      scoringType := row.scoringType
      entryFeeCents := row.entryFeeCents
      isCommissioner := isCommissioner
      importedBy := ""
      importedAt := row.createdAt
      lastSyncedAt := some row.updatedAt
      cancelledAt := row.cancelledAt }

/-- `GetUserLeagues`. The loop ends when the row stream does, whether or not it failed. -/
def getUserLeagues (userID : String) : Go (List League) := do
  let stream ← wrapErr "failed to query user leagues" (query (.userLeagues userID))
  wrapErr "failed to scan league"
    (ofResult (stream.rows.mapM fun row => row.league.scan row.isCommissioner))

/-- The league of a row that `GetLeague` has queried, `none` if there was none. -/
def scanLeague : Option LeagueRow → Except GoError League
  | none => .error (.text "no rows in result set" [])
  | some row => row.scan false

/-- `GetLeague`. -/
def getLeague (leagueID : String) : Go League := wrapErr "failed to get league" do
  let row : Option LeagueRow ← query (.league leagueID)
  ofResult (scanLeague row)

/-- `GetPaymentStatus`. -/
def getPaymentStatus (leagueID userID : String) : Go (List LeagueMember) := do
  let isMember : Bool ← wrapErr "failed to verify league membership"
    (query (.isMember leagueID userID))
  if isMember then getLeagueMembers leagueID else throw .notLeagueMember

/-- The body of a response. -/
inductive ResponseBody
  | message (text : String)
  /-- The text of an error. -/
  | error (err : GoError)
  | leagues (leagues : List League)
  | league (league : League) (members : List LeagueMember)
  | settings (settings : LeagueSettings)
  | members (members : List LeagueMember)

/-- A response: the HTTP status and the body. -/
structure HTTPResponse where
  status : ℕ
  body : ResponseBody

namespace Handler

/-- `Handler.GetUserLeagues`. -/
def getUserLeagues (userID : String) : Job HTTPResponse := do
  match ← (Wagr.getUserLeagues userID).run with
  | .error err => return ⟨500, .error err⟩
  | .ok leagues => return ⟨200, .leagues leagues⟩

/-- `Handler.GetLeague`. -/
def getLeague (leagueID : String) : Job HTTPResponse := do
  if leagueID = "" then return ⟨400, .message "league_id is required"⟩
  else
    match ← (Wagr.getLeague leagueID).run with
    | .error err => return ⟨404, .error err⟩
    | .ok league =>
      match ← (getLeagueMembers leagueID).run with
      | .error err => return ⟨500, .error err⟩
      | .ok members => return ⟨200, .league league members⟩

/-- `Handler.GetLeagueSettings`. -/
def getLeagueSettings (leagueID userID : String) : Job HTTPResponse := do
  match ← (Wagr.getLeagueSettings leagueID userID).run with
  | .error err => return ⟨500, .error err⟩
  | .ok settings => return ⟨200, .settings settings⟩

/-- `Handler.GetPaymentStatus`. -/
def getPaymentStatus (leagueID userID : String) : Job HTTPResponse := do
  match ← (Wagr.getPaymentStatus leagueID userID).run with
  | .error err =>
    if err.is .notLeagueMember then return ⟨403, .message "forbidden"⟩
    else return ⟨500, .error err⟩
  | .ok members => return ⟨200, .members members⟩

end Handler

/-- The read endpoints that `RegisterRoutes` registers. -/
inductive ReadEndpoint
  | userLeagues
  | league (leagueID : String)
  | settings (leagueID : String)
  | paymentStatus (leagueID : String)
  deriving DecidableEq

/-- The response of an endpoint to the user of the claims in the request's context. -/
def ReadEndpoint.respond (claims : Option String) (e : ReadEndpoint) : Job HTTPResponse :=
  match claims with
  | none => return ⟨401, .message "unauthorized"⟩
  | some userID =>
    match e with
    | .userLeagues => Handler.getUserLeagues userID
    | .league leagueID => Handler.getLeague leagueID
    | .settings leagueID => Handler.getLeagueSettings leagueID userID
    | .paymentStatus leagueID => Handler.getPaymentStatus leagueID userID

/-- The answers that calls may get from a database in one state: errors, and truthful rows. -/
def mayAnswer (db : Database) : (c : Call) → Ret c → Prop
  | .query _, .error _ => True
  | .query q, .ok r => q.Answers db r
  | _, _ => True

/-- The endpoint may respond so to the user while the database is in this state. The league ID of
the path is spelled as the database prints it. -/
def ReadEndpoint.Responds (db : Database) (userID : String) (e : ReadEndpoint)
    (resp : HTTPResponse) : Prop :=
  (e.respond (some userID)).Returns (mayAnswer db) resp

/-- The answers that calls may get whatever text the path has for a league ID. -/
def mayAnswerText (db : Database) : (c : Call) → Ret c → Prop
  | .query _, .error _ => True
  | .query q, .ok r => q.AnswersText db r
  | _, _ => True

/-- The endpoint may respond so to the user while the database is in this state. The path has any
text for the league ID. -/
def ReadEndpoint.RespondsText (db : Database) (userID : String) (e : ReadEndpoint)
    (resp : HTTPResponse) : Prop :=
  (e.respond (some userID)).Returns (mayAnswerText db) resp

end Wagr
