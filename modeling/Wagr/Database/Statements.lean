import Wagr.Database.Schema

/-!
# SQL statements that write

Every statement of the league and auth services that changes the database, with its
parameters. A statement runs atomically at some time `now`, may use one fresh UUID, and
either violates a constraint or returns its result: the number of affected rows, or what
its `RETURNING` clause names. The transaction of `ImportLeague` is one statement, because
its effects appear together at the commit.
-/

namespace Wagr

open Relational

/-- The values `ImportLeague` writes for a member. -/
structure MemberValues where
  platformUserID : String
  platformUsername : String
  teamName : String
  displayName : String
  avatarURL : String
  isOwner : Bool
  rosterID : ℤ
  wins : ℤ
  losses : ℤ
  ties : ℤ
  totalPoints : ℚ
  deriving DecidableEq

/-- The values `ImportLeague` writes for a league. -/
structure LeagueValues where
  platform : String
  platformLeagueID : String
  name : String
  sport : String
  season : String
  status : String
  totalRosters : ℤ
  scoringType : String
  deriving DecidableEq

/-- The writing statements. -/
inductive Statement
  | upsertProfile (p : ProfileRow)
  | importLeague (league : LeagueValues) (members : List MemberValues)
  | deleteMembership (leagueID userID : String)
  | deleteLeague (leagueID : String)
  | updateSettings (leagueID : String) (entryFeeCents : Int64) (payoutJSON : PayoutJSON)
  | setPaymentToken (leagueID userID token : String)
  | markPaid (leagueID userID transactionID : String)
  | cancelLeague (leagueID : String)
  | reactivateLeague (leagueID : String)
  | resetRefunded (leagueID : String)
  | markRefunded (leagueID userID transactionID : String)
  | insertWeeklyEvent (leagueID : String) (week rosterID : ℤ) (platformUserID payoutType : String)
      (points : ℚ) (amountCents : Int64) (walletAddress : String)
  | markWeeklyEventExecuted (id txHash : String)
  | markSettledWithoutPayout (leagueID : String)
  | claimPayout (leagueID : String)
  | markPayoutFailed (leagueID : String)
  | markPayoutExecuted (leagueID txHash : String)
  | recordMemberPayout (leagueID : String) (rosterID place : ℤ) (amountCents : Int64)
      (txHash : String)
  | updateLeagueStatus (leagueID oldStatus newStatus : String)
  | upsertNonce (walletAddress walletType nonce : String)
  | rotateNonce (userID nonce : String)
  deriving DecidableEq

/-- What a statement returns. -/
abbrev Statement.Result : Statement → Type
  | .upsertProfile _ => ProfileRow
  | .importLeague _ _ => LeagueRow × List MemberRow
  | .upsertNonce _ _ _ => String
  | _ => ℕ

/-- The UUID drawn for the row of a new member. The string an import draws stands for all of its
UUIDs, and the account tells them apart. -/
def MemberValues.rowID (m : MemberValues) (fresh : String) : String :=
  fresh ++ "/" ++ m.platformUserID

/-- A new membership row. -/
def MemberValues.row (m : MemberValues) (id : String) (createdAt : ℕ)
    (leagueID platform : String) : MemberRow where
  id := id
  leagueID := leagueID
  platform := platform
  platformUserID := m.platformUserID
  platformUsername := m.platformUsername
  teamName := m.teamName
  displayName := m.displayName
  avatarURL := m.avatarURL
  isOwner := m.isOwner
  rosterID := m.rosterID
  wins := m.wins
  losses := m.losses
  ties := m.ties
  totalPoints := m.totalPoints
  createdAt := createdAt

/-- `ON CONFLICT (league_id, platform_user_id) DO UPDATE`: ownership and roster stay. -/
def MemberValues.refresh (m : MemberValues) (r : MemberRow) : MemberRow :=
  { r with
    teamName := m.teamName
    displayName := m.displayName
    avatarURL := m.avatarURL
    wins := m.wins
    losses := m.losses
    ties := m.ties
    totalPoints := m.totalPoints }

/-- A new league row. -/
def LeagueValues.row (l : LeagueValues) (now : ℕ) (id : String) : LeagueRow where
  id := id
  platform := l.platform
  platformLeagueID := l.platformLeagueID
  name := l.name
  sport := l.sport
  season := l.season
  status := some l.status
  totalRosters := l.totalRosters
  scoringType := l.scoringType
  createdAt := now
  updatedAt := now

/-- `ON CONFLICT (platform, platform_league_id) DO UPDATE`. -/
def LeagueValues.refresh (l : LeagueValues) (now : ℕ) (r : LeagueRow) : LeagueRow :=
  { r with
    name := l.name
    status := some l.status
    totalRosters := l.totalRosters
    updatedAt := now }

/-- A refresh keeps the row's key. -/
theorem LeagueValues.refresh_id (l : LeagueValues) (now : ℕ) (r : LeagueRow) :
    (l.refresh now r).id = r.id := rfl

/-- A refresh keeps the row's key. -/
theorem MemberValues.refresh_key (m : MemberValues) (r : MemberRow) :
    (m.refresh r).key = r.key := rfl

namespace Database

variable (db : Database)

/-- `UPDATE leagues SET f WHERE p`. -/
def updateLeagues (p : LeagueRow → Bool) (f : LeagueRow → LeagueRow) (hf : ∀ r, (f r).id = r.id) :
    ℕ × Database :=
  (db.leagues.count p, { db with leagues := db.leagues.updateWhere p f hf })

/-- `UPDATE league_members SET f WHERE p`. -/
def updateMembers (p : MemberRow → Bool) (f : MemberRow → MemberRow)
    (hf : ∀ r, (f r).key = r.key) : ℕ × Database :=
  (db.members.count p, { db with members := db.members.updateWhere p f hf })

/-- The memberships of a league that are joined to a profile of the user. -/
def membershipOf (leagueID userID : String) (m : MemberRow) : Bool :=
  m.leagueID = leagueID && db.linkedTo userID m

/-- The row an import of a platform league conflicts with (`UNIQUE (platform,
platform_league_id)`). -/
def leagueByPlatform (platform platformLeagueID : String) : Option LeagueRow :=
  db.leagues.rows.find? fun r =>
    r.platform = platform && r.platformLeagueID = platformLeagueID

/-- `INSERT … ON CONFLICT` of one league. -/
def upsertLeague (now : ℕ) (fresh : String) (l : LeagueValues) : Option (LeagueRow × Database) :=
  match db.leagueByPlatform l.platform l.platformLeagueID with
  | some r => some (l.refresh now r, { db with
      leagues := db.leagues.updateWhere (fun r' => decide (r'.id = r.id)) (l.refresh now)
        (l.refresh_id now) })
  | none =>
    if h : (l.row now fresh).id ∈ db.leagues.rows.map LeagueRow.id then none
    else some (l.row now fresh, { db with leagues := db.leagues.insert (l.row now fresh) h })

/-- `INSERT … ON CONFLICT` of one member. -/
def upsertMember (now : ℕ) (fresh leagueID platform : String) (db : Database)
    (m : MemberValues) : Database :=
  { db with
    members := db.members.upsert (m.row (m.rowID fresh) now leagueID platform) m.refresh
      m.refresh_key }

/-- `DELETE FROM leagues WHERE id = $1`, cascading to memberships and weekly events. -/
def deleteLeague (leagueID : String) : ℕ × Database :=
  (db.leagues.count fun l => l.id = leagueID, { db with
    leagues := db.leagues.deleteWhere fun l => l.id = leagueID
    members := db.members.deleteWhere fun m => m.leagueID = leagueID
    weeklyEvents := db.weeklyEvents.deleteWhere fun e => e.leagueID = leagueID })

end Database

/-- The payout types the table admits. -/
def weeklyPayoutTypes : List String := ["weekly_high_score", "score_threshold"]

/-- The result of a statement and the database after it, `none` if it violates a constraint. -/
def Statement.run (now : ℕ) (fresh : String) (db : Database) :
    (s : Statement) → Option (s.Result × Database)
  | .upsertProfile p =>
    if db.users.rows.any fun u => u.id = p.userID then
      let profiles := db.profiles.upsert p
        (fun r => { r with
          platformUsername := p.platformUsername
          displayName := p.displayName
          avatarURL := p.avatarURL }) fun _ => rfl
      some (p, { db with profiles := profiles })
    else none
  | .importLeague league members => do
    let (l, db) ← db.upsertLeague now fresh league
    let db := members.foldl (Database.upsertMember now fresh l.id league.platform) db
    let rows := members.filterMap fun m => db.members.lookup (l.id, m.platformUserID)
    return ((l, rows), db)
  | .deleteMembership leagueID userID =>
    some (db.members.count (db.membershipOf leagueID userID), { db with
      members := db.members.deleteWhere (db.membershipOf leagueID userID) })
  | .deleteLeague leagueID => some (db.deleteLeague leagueID)
  | .updateSettings leagueID entryFeeCents payoutJSON =>
    some (db.updateLeagues (fun l => l.id = leagueID)
      (fun l => { l with
        entryFeeCents := entryFeeCents
        payoutStructure := some payoutJSON
        updatedAt := now }) fun _ => rfl)
  | .setPaymentToken leagueID userID token =>
    some (db.updateMembers (db.membershipOf leagueID userID)
      (fun m => { m with paymentToken := some token }) fun _ => rfl)
  | .markPaid leagueID userID transactionID =>
    some (db.updateMembers (db.membershipOf leagueID userID)
      (fun m => { m with
        paymentStatus := .paid
        transactionHash := some transactionID
        paidAt := some now }) fun _ => rfl)
  | .cancelLeague leagueID =>
    some (db.updateLeagues (fun l => l.id = leagueID && l.cancelledAt.isNone)
      (fun l => { l with cancelledAt := some now, updatedAt := now }) fun _ => rfl)
  | .reactivateLeague leagueID =>
    some (db.updateLeagues (fun l => l.id = leagueID && l.cancelledAt.isSome)
      (fun l => { l with cancelledAt := none, updatedAt := now }) fun _ => rfl)
  | .resetRefunded leagueID =>
    some (db.updateMembers (fun m => m.leagueID = leagueID && m.paymentStatus = .refunded)
      (fun m => { m with
        paymentStatus := .unpaid
        transactionHash := none }) fun _ => rfl)
  | .markRefunded leagueID userID transactionID =>
    some (db.updateMembers (db.membershipOf leagueID userID)
      (fun m => { m with
        paymentStatus := .refunded
        transactionHash := some transactionID }) fun _ => rfl)
  | .insertWeeklyEvent leagueID week rosterID platformUserID payoutType points amountCents
      walletAddress =>
    let event : WeeklyEventRow :=
      { id := fresh, leagueID, week, rosterID, platformUserID, payoutType, points, amountCents,
        walletAddress }
    if payoutType ∈ weeklyPayoutTypes ∧ leagueID ∈ db.leagues.rows.map LeagueRow.id then
      if h : event.key ∈ db.weeklyEvents.rows.map WeeklyEventRow.key then some ((0 : ℕ), db)
      else some ((1 : ℕ), { db with weeklyEvents := db.weeklyEvents.insert event h })
    else none
  | .markWeeklyEventExecuted id txHash =>
    some (db.weeklyEvents.count fun e => e.id = id, { db with
      weeklyEvents := db.weeklyEvents.updateWhere (fun e => e.id = id)
        (fun e => { e with txHash := some txHash, executedAt := some now }) fun _ => rfl })
  | .markSettledWithoutPayout leagueID =>
    some (db.updateLeagues (fun l => l.id = leagueID && l.payoutStatus = .pending)
      (fun l => { l with
        status := some "complete"
        payoutStatus := .executed
        payoutsExecutedAt := some now
        updatedAt := now }) fun _ => rfl)
  | .claimPayout leagueID =>
    some (db.updateLeagues (fun l => l.id = leagueID && l.payoutStatus = .pending)
      (fun l => { l with payoutStatus := .executing, updatedAt := now }) fun _ => rfl)
  | .markPayoutFailed leagueID =>
    some (db.updateLeagues (fun l => l.id = leagueID && l.payoutStatus = .executing)
      (fun l => { l with payoutStatus := .failed, updatedAt := now }) fun _ => rfl)
  | .markPayoutExecuted leagueID txHash =>
    some (db.updateLeagues (fun l => l.id = leagueID && l.payoutStatus = .executing)
      (fun l => { l with
        status := some "complete"
        payoutStatus := .executed
        payoutTxHash := some txHash
        payoutsExecutedAt := some now
        updatedAt := now }) fun _ => rfl)
  | .recordMemberPayout leagueID rosterID place amountCents txHash =>
    some (db.updateMembers (fun m => m.leagueID = leagueID && m.rosterID = rosterID)
      (fun m => { m with
        finalRank := some place
        payoutAmountCents := some amountCents
        payoutTxHash := some txHash
        payoutPaidAt := some now }) fun _ => rfl)
  | .updateLeagueStatus leagueID oldStatus newStatus =>
    some (db.updateLeagues (fun l => l.id = leagueID && l.status.getD "" = oldStatus)
      (fun l => { l with status := some newStatus, updatedAt := now }) fun _ => rfl)
  | .upsertNonce walletAddress walletType nonce =>
    match db.users.lookup walletAddress with
    | some u => some (u.id, { db with
        users := db.users.updateWhere (fun u => u.walletAddress = walletAddress)
          (fun u => { u with nonce := nonce, walletType := walletType }) fun _ => rfl })
    | none =>
      let user : UserRow := { id := fresh, walletAddress, walletType, nonce }
      if h : user.walletAddress ∈ db.users.rows.map UserRow.walletAddress then none
      else some (fresh, { db with users := db.users.insert user h })
  | .rotateNonce userID nonce =>
    some (db.users.count fun u => u.id = userID, { db with
      users := db.users.updateWhere (fun u => u.id = userID)
        (fun u => { u with nonce := nonce }) fun _ => rfl })

end Wagr
