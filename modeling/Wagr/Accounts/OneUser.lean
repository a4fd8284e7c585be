import Wagr.Accounts.Linking
import Wagr.Service.Scenario

/-!
# One account, one user

A profile is unique for its user and account together, so a second user may link an account
as well. As long as no link does so, and no link or import brings a second wallet onto a
roster, each membership has one row and each roster one wallet.
-/

namespace Wagr

open Interaction Relational

variable {svc : Service} {crypto : Crypto} {a : BackendConfig}

/-- Links are of accounts no other user has, and rosters keep to one wallet. -/
def SoleUsers (a : BackendConfig) (l : BackendLabel) : Prop := LinksUnclaimed a l ∧ RostersKept a l

instance (a : BackendConfig) (l : BackendLabel) : Decidable (SoleUsers a l) :=
  inferInstanceAs (Decidable ((∀ s ∈ applied a l, s.Unclaimed a.world.db) ∧
    ∀ s ∈ applied a l, s.KeepsRosters a.world.db))

/-- Along every run whose links and imports meet the condition, no platform account has two users,
`GetLeagueMembers` returns one row for each membership, the wallet of a roster does not depend on
the order of the rows, and a further step keeps the accounts unique exactly if it links no account
of another user. -/
theorem identitiesUnique_iff (h : Runs svc crypto SoleUsers a) :
    a.world.db.IdentitiesUnique ∧ a.world.db.OneRowEach ∧ a.world.db.OrderIrrelevant ∧
      ∀ l b, (backend svc crypto).Step a l b →
        (b.world.db.IdentitiesUnique ↔ LinksUnclaimed a l) := by
  have hinv : a.world.db.IdentitiesUnique ∧ a.world.db.RostersAgree := by
    induction h with
    | refl => constructor <;> simp [Database.IdentitiesUnique, Database.RostersAgree, initialConfig,
        Table.empty]
    | tail hrun hlast ih =>
      obtain ⟨l, ⟨hlinks, hrosters⟩, hl⟩ := hlast
      obtain ⟨hunique, hagree⟩ := ih
      exact ⟨(identitiesUnique_step hunique hl).mpr hlinks,
        rostersAgree_step (Runs.references hrun) hagree hl hlinks hrosters⟩
  obtain ⟨hunique, hagree⟩ := hinv
  exact ⟨hunique, hunique.oneRowEach, hagree.orderIrrelevant hunique,
    fun l b hl => identitiesUnique_step hunique hl⟩

/-- Two users link their own accounts, which are the members of a league. -/
def ownAccounts : Schedule :=
  Schedule.signUp 0 "0.0.9" "n1" "u1" ++ Schedule.signUp 1 "0.0.8" "n2" "u2" ++
    Schedule.link 2 "u1" "sleeper" (.mock "p1") "f1" ++
    Schedule.link 3 "u2" "sleeper" (.mock "p2") "f2" ++
    Schedule.importLeague 4 "u1" "sleeper" (.mock "in_season")
      [.mock "p1" 1 true, .mock "p2" 2 false] Schedule.leagueID

/-- The result at the end of that run. -/
theorem identitiesUnique_ownAccounts : ∃ a, Runs .mock .mock SoleUsers a ∧
    a.world.db.members.rows.length = 2 ∧ a.world.db.profiles.rows.length = 2 ∧
    a.world.db.IdentitiesUnique ∧ a.world.db.OneRowEach ∧ a.world.db.OrderIrrelevant ∧
      ∀ l b, (backend .mock .mock).Step a l b →
        (b.world.db.IdentitiesUnique ↔ LinksUnclaimed a l) := by
  obtain ⟨a, hrun, hmembers, hprofiles⟩ := ownAccounts.exists_run .mock .mock SoleUsers
    (fun a => a.world.db.members.rows.length = 2 ∧ a.world.db.profiles.rows.length = 2) (by decide)
  exact ⟨a, hrun, hmembers, hprofiles, identitiesUnique_iff hrun⟩

/-- Two users link one account, which is the member of a league. -/
def sharedAccount : Schedule :=
  Schedule.signUp 0 "0.0.9" "n1" "u1" ++ Schedule.signUp 1 "0.0.8" "n2" "u2" ++
    Schedule.link 2 "u1" "sleeper" (.mock "p1") "f1" ++
    Schedule.link 3 "u2" "sleeper" (.mock "p1") "f2" ++
    Schedule.importLeague 4 "u1" "sleeper" (.mock "in_season") [.mock "p1" 1 true] Schedule.leagueID

/-- The rows `GetLeagueMembers` may return for a league. -/
def Database.leagueMemberRows (db : Database) (leagueID : String) : List LeagueMember :=
  (db.members.rows.filter fun m => m.leagueID = leagueID).flatMap db.memberRows

/-- All rows in an order that keeps the rosters sorted are an answer. -/
theorem answers_leagueMembers {db : Database} {leagueID : String} {rows : List LeagueMember}
    (hperm : rows.Perm (db.leagueMemberRows leagueID))
    (hsorted : rows.Pairwise fun m m' => m.rosterID ≤ m'.rosterID) :
    Query.Answers db (.leagueMembers leagueID) { rows := rows } :=
  ⟨rows, hperm, hsorted, List.prefix_rfl, fun _ => rfl⟩

/-- The account has two users, the member has two rows, and the wallet of its roster depends on
their order. -/
theorem exists_account_shared : ∃ a, Runs .mock .mock (fun _ _ => True) a ∧
    ¬ a.world.db.IdentitiesUnique ∧ ¬ a.world.db.OneRowEach ∧ ¬ a.world.db.OrderIrrelevant := by
  obtain ⟨a, hrun, ⟨p, hp, p', hp', hplatform, haccount, huser⟩, hlength, hsorted,
    hreverse, hwallet⟩ :=
    sharedAccount.exists_run .mock .mock (fun _ _ => True) (fun a =>
      (∃ p ∈ a.world.db.profiles.rows, ∃ p' ∈ a.world.db.profiles.rows, p'.platform = p.platform ∧
        p'.platformUserID = p.platformUserID ∧ p'.userID ≠ p.userID) ∧
      (a.world.db.leagueMemberRows Schedule.leagueID).length ≠
        (a.world.db.members.rows.filter fun m => m.leagueID = Schedule.leagueID).length ∧
      (a.world.db.leagueMemberRows Schedule.leagueID).Pairwise
        (fun m m' => m.rosterID ≤ m'.rosterID) ∧
      (a.world.db.leagueMemberRows Schedule.leagueID).reverse.Pairwise
        (fun m m' => m.rosterID ≤ m'.rosterID) ∧
      (memberByRoster (a.world.db.leagueMemberRows Schedule.leagueID).reverse 1).map
          LeagueMember.walletAddress ≠
        (memberByRoster (a.world.db.leagueMemberRows Schedule.leagueID) 1).map
          LeagueMember.walletAddress) (by decide)
  refine ⟨a, hrun, fun hunique => ?_, fun hrows => ?_, fun horder => ?_⟩
  · exact huser (hunique p hp p' hp' hplatform haccount)
  · have hperm := hrows _ _ (answers_leagueMembers (List.Perm.refl _) hsorted) rfl
    exact hlength (by simpa using hperm.length_eq)
  · exact hwallet (horder _ 1 _ _ (answers_leagueMembers (List.Perm.refl _) hsorted)
      (answers_leagueMembers (List.reverse_perm _) hreverse) rfl rfl)

end Wagr
