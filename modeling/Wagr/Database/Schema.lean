import Wagr.Basic
import Wagr.Library.Table
import Mathlib.Data.Rat.Defs

/-!
# Tables of the backend

The tables of the migrations as the league and auth services use them. `metadata` is read by
nobody and left out, and so are the surrogate keys of profiles and the times at which users,
profiles, memberships and events were created and updated, except for the time at which a
membership was created: no modelled function decides by them, and they are returned only in the
bodies of answers to logins and changes, which are left out as well. IDs are held as PostgreSQL
prints them. A league's payout structure is JSON, which may be `null` or something the Go code
cannot decode.
-/

namespace Wagr

open Relational

/-- A rule as the Go code holds it (`PayoutEntry`). -/
structure PayoutEntry where
  /-- `"placement"` or `"weekly"`. -/
  type : String
  /-- `"weekly_high_score"` or `"score_threshold"` for weekly rules. -/
  bonusType : String
  label : String
  place : ℤ
  amountCents : Int64
  weeks : ℤ
  /-- `BonusCriteria`: absent, or a threshold that may itself be absent. -/
  criteria : Option (Option ℚ)
  deriving DecidableEq

/-- A rule as it is stored; every field may be missing. -/
structure StoredEntry where
  type : Option String := none
  bonusType : Option String := none
  label : Option String := none
  place : Option ℤ := none
  amountCents : Option Int64 := none
  weeks : Option ℤ := none
  criteria : Option (Option ℚ) := none
  deriving DecidableEq

/-- `json.Unmarshal` of one rule: missing fields keep their zero values. -/
def StoredEntry.decode (e : StoredEntry) : PayoutEntry where
  type := e.type.getD ""
  bonusType := e.bonusType.getD ""
  label := e.label.getD ""
  place := e.place.getD 0
  amountCents := e.amountCents.getD 0
  weeks := e.weeks.getD 0
  criteria := e.criteria

/-- `json.Marshal` of one rule: fields tagged `omitempty` are left out at their zero values. -/
def PayoutEntry.encode (e : PayoutEntry) : StoredEntry where
  type := some e.type
  bonusType := if e.bonusType = "" then none else some e.bonusType
  label := some e.label
  place := if e.place = 0 then none else some e.place
  amountCents := some e.amountCents
  weeks := if e.weeks = 0 then none else some e.weeks
  criteria := e.criteria

/-- Decoding undoes encoding. -/
@[simp] theorem PayoutEntry.decode_encode (e : PayoutEntry) : e.encode.decode = e := by
  have hbonus : (if e.bonusType = "" then none else some e.bonusType).getD "" = e.bonusType := by
    split <;> simp_all
  have hplace : (if e.place = 0 then none else some e.place).getD 0 = e.place := by
    split <;> simp_all
  have hweeks : (if e.weeks = 0 then none else some e.weeks).getD 0 = e.weeks := by
    split <;> simp_all
  simp only [encode, StoredEntry.decode, hbonus, hplace, hweeks, Option.getD_some]

/-- A JSON value of the column `payout_structure`. -/
inductive PayoutJSON
  /-- The JSON value `null`. -/
  | null
  /-- An array of rules. -/
  | entries (es : List StoredEntry)
  /-- A value the Go code fails to decode, with its length if it is an array. -/
  | other (arrayLength : Option ℕ)
  deriving DecidableEq

namespace PayoutJSON

/-- `jsonb_array_length`, an error on values that are not arrays. -/
def arrayLength? : PayoutJSON → Option ℕ
  | .null => none
  | .entries es => some es.length
  | .other n => n

/-- `json.Unmarshal` into a slice of rules. -/
def unmarshal : PayoutJSON → Option (List PayoutEntry)
  | .null => some []
  | .entries es => some (es.map StoredEntry.decode)
  | .other _ => none

/-- `json.Marshal` of a slice of rules, where `none` is the nil slice. -/
def marshal : Option (List PayoutEntry) → PayoutJSON
  | none => .null
  | some es => .entries (es.map PayoutEntry.encode)

/-- What was marshalled is unmarshalled again, the nil slice as an empty one. -/
theorem unmarshal_marshal (es : Option (List PayoutEntry)) :
    unmarshal (marshal es) = some (es.getD []) := by
  cases es with
  | none => rfl
  | some es =>
    have hcomp : StoredEntry.decode ∘ PayoutEntry.encode = id :=
      funext PayoutEntry.decode_encode
    simp [marshal, unmarshal, hcomp]

end PayoutJSON

/-- `leagues.payout_status`. -/
inductive PayoutStatus
  | pending
  | executing
  | executed
  | failed
  deriving DecidableEq, Repr

/-- `league_members.payment_status`. -/
inductive PaymentStatus
  | unpaid
  | paid
  | refunded
  deriving DecidableEq, Repr

/-- A row of `users`. -/
structure UserRow where
  id : String
  walletAddress : String
  walletType : String
  nonce : String
  deriving DecidableEq

/-- A row of `platform_profiles`. -/
structure ProfileRow where
  userID : String
  platform : String
  platformUserID : String
  platformUsername : String
  displayName : String
  avatarURL : String
  deriving DecidableEq

/-- A row of `leagues`. -/
structure LeagueRow where
  id : String
  platform : String
  platformLeagueID : String
  name : String
  sport : String
  season : String
  status : Option String
  totalRosters : ℤ
  scoringType : String
  createdAt : ℕ
  updatedAt : ℕ
  entryFeeCents : Int64 := 0
  payoutStructure : Option PayoutJSON := none
  cancelledAt : Option ℕ := none
  payoutStatus : PayoutStatus := .pending
  payoutTxHash : Option String := none
  payoutsExecutedAt : Option ℕ := none
  deriving DecidableEq

/-- A row of `league_members`. -/
structure MemberRow where
  id : String
  leagueID : String
  userID : Option String := none
  platform : String
  platformUserID : String
  platformUsername : String
  teamName : String
  displayName : String
  avatarURL : String
  isOwner : Bool
  rosterID : ℤ
  wins : ℤ
  losses : ℤ
  ties : ℤ
  totalPoints : ℚ
  createdAt : ℕ
  walletAddress : Option String := none
  paymentStatus : PaymentStatus := .unpaid
  paymentToken : Option String := none
  transactionHash : Option String := none
  paidAt : Option ℕ := none
  finalRank : Option ℤ := none
  payoutAmountCents : Option Int64 := none
  payoutTxHash : Option String := none
  payoutPaidAt : Option ℕ := none
  deriving DecidableEq

/-- A row of `weekly_payout_events`. -/
structure WeeklyEventRow where
  id : String
  leagueID : String
  week : ℤ
  rosterID : ℤ
  platformUserID : String
  payoutType : String
  points : ℚ
  amountCents : Int64
  walletAddress : String
  txHash : Option String := none
  executedAt : Option ℕ := none
  deriving DecidableEq

/-- `UNIQUE (user_id, platform, platform_user_id)`. -/
def ProfileRow.key (p : ProfileRow) : String × String × String :=
  (p.userID, p.platform, p.platformUserID)

/-- `UNIQUE (league_id, platform_user_id)`. -/
def MemberRow.key (m : MemberRow) : String × String := (m.leagueID, m.platformUserID)

/-- `UNIQUE (league_id, week, roster_id, payout_type)`. -/
def WeeklyEventRow.key (e : WeeklyEventRow) : String × ℤ × ℤ × String :=
  (e.leagueID, e.week, e.rosterID, e.payoutType)

/-- The database. -/
structure Database where
  users : Table UserRow UserRow.walletAddress := .empty
  profiles : Table ProfileRow ProfileRow.key := .empty
  leagues : Table LeagueRow LeagueRow.id := .empty
  members : Table MemberRow MemberRow.key := .empty
  weeklyEvents : Table WeeklyEventRow WeeklyEventRow.key := .empty

/-- A membership and a profile with the same platform account. -/
def MemberRow.joins (m : MemberRow) (p : ProfileRow) : Bool :=
  m.platform = p.platform && m.platformUserID = p.platformUserID

/-- The membership is joined to some profile of the user. -/
def Database.linkedTo (db : Database) (userID : String) (m : MemberRow) : Bool :=
  db.profiles.rows.any fun p => m.joins p && p.userID = userID

end Wagr
