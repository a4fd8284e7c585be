import Wagr.Database.Statements
import Wagr.Library.Uuid
import Mathlib.Data.List.Sort

/-!
# SQL queries

The queries of the league and auth services and the answers a truthful database may give.
A query for several rows is answered by a stream: some of the rows in some order, and an
error if the stream breaks off early. A query for one row returns one of the matching
rows if there are any. IDs are values of the type `uuid`, and the database prints each of them
in one way but reads it in several.
-/

namespace Wagr

/-- What `rows.Next` and `rows.Err` deliver. -/
structure RowStream (α : Type) where
  rows : List α
  err : Option GoError := none

/-- The stream delivers the rows in some order satisfying `sorted`, and all of them unless
it ends with an error. -/
def RowStream.Delivers {α : Type} (s : RowStream α) (all : List α)
    (sorted : List α → Prop) : Prop :=
  ∃ order, order.Perm all ∧ sorted order ∧ s.rows <+: order ∧ (s.err = none → s.rows = order)

/-- A league as the payout jobs select it. -/
structure OracleLeagueRow where
  id : String
  platform : String
  platformLeagueID : String
  payoutJSON : PayoutJSON
  deriving DecidableEq

/-- A league eligible for status refresh; the status is `""` when it is NULL. -/
structure StatusRefreshLeague where
  id : String
  platform : String
  platformLeagueID : String
  season : String
  status : String
  deriving DecidableEq

/-- A member as `GetLeagueMembers` selects it. -/
structure LeagueMember where
  id : String
  leagueID : String
  userID : Option String
  platform : String
  platformUserID : String
  platformUsername : String
  teamName : String
  displayName : String
  avatarURL : String
  isOwner : Bool
  rosterID : ℤ
  wins : ℤ
  losses : ℤ
  ties : ℤ
  totalPoints : ℚ
  walletAddress : String
  paymentStatus : PaymentStatus
  paymentToken : Option String
  transactionHash : Option String
  paidAt : Option ℕ
  joinedAt : ℕ
  deriving DecidableEq

/-- An event that has not been marked executed. -/
structure WeeklyEvent where
  id : String
  walletAddress : String
  amountCents : Int64
  deriving DecidableEq

/-- What `InitiatePayment` reads. -/
structure MemberFee where
  entryFeeCents : Int64
  paymentStatus : PaymentStatus
  deriving DecidableEq

/-- What `ConfirmPayment` reads. -/
structure MemberPayment where
  walletAddress : String
  entryFeeCents : Int64
  paymentStatus : PaymentStatus
  deriving DecidableEq

/-- What `ConfirmRefund` reads. -/
structure MemberRefund where
  walletAddress : String
  paymentStatus : PaymentStatus
  cancelledAt : Option ℕ
  deriving DecidableEq

/-- What `GetUserLeagues` reads of a league. -/
structure UserLeagueRow where
  league : LeagueRow
  isCommissioner : Bool
  deriving DecidableEq

/-- What `GetLeagueSettings` reads. -/
structure LeagueSettingsRow where
  entryFeeCents : Int64
  totalRosters : ℤ
  payoutJSON : Option PayoutJSON
  isCommissioner : Bool
  cancelledAt : Option ℕ
  deriving DecidableEq

/-- The queries. -/
inductive Query
  | weeklyPayoutLeagues
  | seasonEndLeagues
  | statusRefreshLeagues
  | leagueMembers (leagueID : String)
  | unexecutedEvents (leagueID : String) (week : ℤ)
  | isCommissioner (leagueID userID : String)
  | memberFee (leagueID userID : String)
  | memberPayment (leagueID userID : String)
  | memberRefund (leagueID userID : String)
  | linkedMembers (leagueID : String)
  | leagueSettings (leagueID userID : String)
  | userByWallet (walletAddress : String)
  | userLeagues (userID : String)
  | league (leagueID : String)
  | isMember (leagueID userID : String)
  deriving DecidableEq

/-- The answer to a query; `none` stands for `pgx.ErrNoRows`. -/
abbrev Query.Answer : Query → Type
  | .weeklyPayoutLeagues => RowStream OracleLeagueRow
  | .seasonEndLeagues => RowStream OracleLeagueRow
  | .statusRefreshLeagues => RowStream StatusRefreshLeague
  | .leagueMembers _ => RowStream LeagueMember
  | .unexecutedEvents _ _ => RowStream WeeklyEvent
  | .isCommissioner _ _ => Option Bool
  | .memberFee _ _ => Option MemberFee
  | .memberPayment _ _ => Option MemberPayment
  | .memberRefund _ _ => Option MemberRefund
  | .linkedMembers _ => ℕ
  | .leagueSettings _ _ => Option LeagueSettingsRow
  | .userByWallet _ => Option UserRow
  | .userLeagues _ => RowStream UserLeagueRow
  | .league _ => Option LeagueRow
  | .isMember _ _ => Bool

/-- A league row as the payout jobs see it. -/
def LeagueRow.oracleRow (l : LeagueRow) : OracleLeagueRow where
  id := l.id
  platform := l.platform
  platformLeagueID := l.platformLeagueID
  payoutJSON := l.payoutStructure.getD (.entries [])

/-- In season, not cancelled, and with payout rules of any kind. -/
def LeagueRow.mayPayWeekly (l : LeagueRow) : Bool :=
  l.status = some "in_season" && l.cancelledAt.isNone && l.payoutStructure.isSome

/-- The statuses the refresh looks at. -/
def LeagueRow.needsRefresh (l : LeagueRow) : Bool :=
  l.cancelledAt.isNone &&
    (l.status.isNone || l.status ∈ [some "pre_draft", some "drafting", some "post_season"])

namespace Database

variable (db : Database)

/-- `LEFT JOIN users`: the wallet address of a user. -/
def walletOf (userID : String) : Option String :=
  (db.users.rows.find? fun u => u.id = userID).map UserRow.walletAddress

/-- The row that `GetLeagueMembers` builds from a membership and a joined profile. -/
def memberRow (m : MemberRow) (p : Option ProfileRow) : LeagueMember where
  id := m.id
  leagueID := m.leagueID
  userID := (p.map ProfileRow.userID).or m.userID
  platform := m.platform
  platformUserID := m.platformUserID
  platformUsername := m.platformUsername
  teamName := m.teamName
  displayName := m.displayName
  avatarURL := m.avatarURL
  isOwner := m.isOwner
  rosterID := m.rosterID
  wins := m.wins
  losses := m.losses
  ties := m.ties
  totalPoints := m.totalPoints
  walletAddress := ((p.bind fun p => db.walletOf p.userID).or m.walletAddress).getD ""
  paymentStatus := m.paymentStatus
  paymentToken := m.paymentToken
  transactionHash := m.transactionHash
  paidAt := m.paidAt
  joinedAt := m.createdAt

/-- `LEFT JOIN platform_profiles`: one row for each joined profile, or one without any. -/
def memberRows (m : MemberRow) : List LeagueMember :=
  match db.profiles.rows.filter m.joins with
  | [] => [db.memberRow m none]
  | profiles => profiles.map fun p => db.memberRow m (some p)

/-- The memberships of the league that are joined to the user, with the joined profile. -/
def userMemberships (leagueID userID : String) : List (MemberRow × ProfileRow) :=
  (db.members.rows.filter fun m => m.leagueID = leagueID).flatMap fun m =>
    (db.profiles.rows.filter fun p => m.joins p && p.userID = userID).map fun p => (m, p)

/-- `COALESCE(u.wallet_address, lm.wallet_address, '')`. -/
def walletAddress (m : MemberRow) (p : ProfileRow) : String :=
  ((db.walletOf p.userID).or m.walletAddress).getD ""

/-- The rows `InitiatePayment` chooses from. -/
def memberFees (leagueID userID : String) : List MemberFee :=
  match db.leagues.lookup leagueID with
  | none => []
  | some l => (db.userMemberships leagueID userID).map fun (m, _) =>
    ⟨l.entryFeeCents, m.paymentStatus⟩

/-- The rows `ConfirmPayment` chooses from. -/
def memberPayments (leagueID userID : String) : List MemberPayment :=
  match db.leagues.lookup leagueID with
  | none => []
  | some l => (db.userMemberships leagueID userID).map fun (m, p) =>
    ⟨db.walletAddress m p, l.entryFeeCents, m.paymentStatus⟩

/-- The rows `ConfirmRefund` chooses from. -/
def memberRefunds (leagueID userID : String) : List MemberRefund :=
  match db.leagues.lookup leagueID with
  | none => []
  | some l => (db.userMemberships leagueID userID).map fun (m, p) =>
    ⟨db.walletAddress m p, m.paymentStatus, l.cancelledAt⟩

/-- The unexecuted events of a league and week. -/
def unexecutedEvents (leagueID : String) (week : ℤ) : List WeeklyEvent :=
  (db.weeklyEvents.rows.filter fun e =>
    e.leagueID = leagueID && e.week = week && e.executedAt.isNone).map fun e =>
      ⟨e.id, e.walletAddress, e.amountCents⟩

/-- `BOOL_OR(is_owner)` over the user's memberships of the league. -/
def ownsMembership (leagueID userID : String) : Bool :=
  (db.userMemberships leagueID userID).any fun (m, _) => m.isOwner

/-- The leagues the user is joined to. -/
def userLeagues (userID : String) : List UserLeagueRow :=
  (db.leagues.rows.filter fun l => db.userMemberships l.id userID ≠ []).map fun l =>
    ⟨l, db.ownsMembership l.id userID⟩

end Database

/-- One of the matching rows, or none if there are none. -/
def OneOf {α : Type} (rows : List α) : Option α → Prop
  | some r => r ∈ rows
  | none => rows = []

/-- The answers a truthful database may give to a query that spells its IDs as the database prints
them. -/
def Query.Answers (db : Database) : (q : Query) → q.Answer → Prop
  | .weeklyPayoutLeagues, s =>
    let candidates := db.leagues.rows.filter LeagueRow.mayPayWeekly
    -- `jsonb_array_length` fails the whole query on a value that is not an array
    (∀ l ∈ candidates, (l.oracleRow.payoutJSON.arrayLength?).isSome) ∧
      RowStream.Delivers s ((candidates.filter fun l =>
        0 < l.oracleRow.payoutJSON.arrayLength?.getD 0).map LeagueRow.oracleRow) fun _ => True
  | .seasonEndLeagues, s =>
    RowStream.Delivers s ((db.leagues.rows.filter fun l => l.status = some "in_season" &&
      l.payoutStatus = .pending && l.cancelledAt.isNone).map LeagueRow.oracleRow) fun _ => True
  | .statusRefreshLeagues, s =>
    RowStream.Delivers s ((db.leagues.rows.filter LeagueRow.needsRefresh).map fun l =>
      ⟨l.id, l.platform, l.platformLeagueID, l.season, l.status.getD ""⟩) fun _ => True
  | .leagueMembers leagueID, s =>
    RowStream.Delivers s ((db.members.rows.filter fun m => m.leagueID = leagueID).flatMap
      db.memberRows) fun order => order.Pairwise fun m m' => m.rosterID ≤ m'.rosterID
  | .unexecutedEvents leagueID week, s =>
    RowStream.Delivers s (db.unexecutedEvents leagueID week) fun _ => True
  | .isCommissioner leagueID userID, r =>
    r = if db.userMemberships leagueID userID = [] then none
      else some (db.ownsMembership leagueID userID)
  | .memberFee leagueID userID, r => OneOf (db.memberFees leagueID userID) r
  | .memberPayment leagueID userID, r => OneOf (db.memberPayments leagueID userID) r
  | .memberRefund leagueID userID, r => OneOf (db.memberRefunds leagueID userID) r
  | .linkedMembers leagueID, n =>
    n = ((db.members.rows.filter fun m => m.leagueID = leagueID).flatMap fun m =>
      db.profiles.rows.filter m.joins).length
  | .leagueSettings leagueID userID, r =>
    r = (db.leagues.lookup leagueID).map fun l =>
      ⟨l.entryFeeCents, l.totalRosters, l.payoutStructure, db.ownsMembership leagueID userID,
        l.cancelledAt⟩
  | .userByWallet walletAddress, r => r = db.users.lookup walletAddress
  | .userLeagues userID, s =>
    RowStream.Delivers s (db.userLeagues userID) fun order =>
      order.Pairwise fun l l' => l'.league.createdAt ≤ l.league.createdAt
  | .league leagueID, r => r = db.leagues.lookup leagueID
  | .isMember leagueID userID, r => r = decide (db.userMemberships leagueID userID ≠ [])

/-- The text that PostgreSQL prints for the `uuid` it reads from a text, `none` if it reads none. -/
def uuidText (text : String) : Option String :=
  (Uuid.read text.toList).map fun bytes => String.ofList (Uuid.print bytes)

/-- A printed `uuid` is its own text. -/
theorem uuidText_printed {text id : String} (h : uuidText text = some id) :
    uuidText id = some id := by
  obtain ⟨bytes, hread, rfl⟩ := Option.map_eq_some_iff.mp h
  have hprinted := Uuid.read_print (Uuid.read_length hread)
  simp [uuidText, hprinted]

/-- The answers to a query that takes its league ID from the text of a request. Each text that
PostgreSQL reads as the league's `uuid` finds its rows; a text that is no `uuid` fails the query. -/
def Query.AnswersText (db : Database) : (q : Query) → q.Answer → Prop
  | .leagueMembers text, s =>
    ∃ leagueID, uuidText text = some leagueID ∧ (Query.leagueMembers leagueID).Answers db s
  | .unexecutedEvents text week, s =>
    ∃ leagueID, uuidText text = some leagueID ∧ (Query.unexecutedEvents leagueID week).Answers db s
  | .isCommissioner text userID, r =>
    ∃ leagueID, uuidText text = some leagueID ∧ (Query.isCommissioner leagueID userID).Answers db r
  | .memberFee text userID, r =>
    ∃ leagueID, uuidText text = some leagueID ∧ (Query.memberFee leagueID userID).Answers db r
  | .memberPayment text userID, r =>
    ∃ leagueID, uuidText text = some leagueID ∧ (Query.memberPayment leagueID userID).Answers db r
  | .memberRefund text userID, r =>
    ∃ leagueID, uuidText text = some leagueID ∧ (Query.memberRefund leagueID userID).Answers db r
  | .linkedMembers text, n =>
    ∃ leagueID, uuidText text = some leagueID ∧ (Query.linkedMembers leagueID).Answers db n
  | .leagueSettings text userID, r =>
    ∃ leagueID, uuidText text = some leagueID ∧ (Query.leagueSettings leagueID userID).Answers db r
  | .league text, r =>
    ∃ leagueID, uuidText text = some leagueID ∧ (Query.league leagueID).Answers db r
  | .isMember text userID, r =>
    ∃ leagueID, uuidText text = some leagueID ∧ (Query.isMember leagueID userID).Answers db r
  | q, r => q.Answers db r

example : uuidText "{11111111222233334444-555555555aBc}" =
    some "11111111-2222-3333-4444-555555555abc" := by decide

example : uuidText "11111111-2222-3333-4444-55555555-5555" = some
    "11111111-2222-3333-4444-555555555555" := by decide

example : uuidText "1-1111111-2222-3333-4444-555555555555" = none := by decide

end Wagr
