import Wagr.Service.Rows
import Wagr.Service.Oracle

/-!
# Platform accounts and their users

What `GetLeagueMembers` and the payout jobs make of the profiles if no platform account is
linked to two users: one row for each membership, and for each roster one wallet, in
whatever order the rows arrive.
-/

namespace Wagr

open Interaction Relational

namespace Database

variable (db : Database)

/-- No platform account is linked to two users. -/
def IdentitiesUnique : Prop :=
  ∀ p ∈ db.profiles.rows, ∀ p' ∈ db.profiles.rows, p'.platform = p.platform →
    p'.platformUserID = p.platformUserID → p'.userID = p.userID

/-- The row of a membership if it is joined to one profile at most. -/
def soleRow (m : MemberRow) : LeagueMember := db.memberRow m (db.profiles.rows.find? m.joins)

/-- Memberships with one roster have one wallet. -/
def RostersAgree : Prop :=
  ∀ m ∈ db.members.rows, ∀ m' ∈ db.members.rows, m'.leagueID = m.leagueID →
    m'.rosterID = m.rosterID → (db.soleRow m').walletAddress = (db.soleRow m).walletAddress

/-- A full answer to `GetLeagueMembers` has one row for each membership. -/
def OneRowEach : Prop :=
  ∀ leagueID s, Query.Answers db (.leagueMembers leagueID) s → s.err = none →
    (s.rows.map fun r => (r.leagueID, r.platformUserID)).Perm
      ((db.members.rows.filter fun m => m.leagueID = leagueID).map MemberRow.key)

/-- The wallet of a roster is the same for all full answers to `GetLeagueMembers`. -/
def OrderIrrelevant : Prop :=
  ∀ leagueID rosterID s s', Query.Answers db (.leagueMembers leagueID) s →
    Query.Answers db (.leagueMembers leagueID) s' → s.err = none → s'.err = none →
      (memberByRoster s'.rows rosterID).map LeagueMember.walletAddress =
        (memberByRoster s.rows rosterID).map LeagueMember.walletAddress

end Database

variable {db : Database}

/-- Profiles of one account are the same row. -/
theorem Database.IdentitiesUnique.eq (h : db.IdentitiesUnique) {p p' : ProfileRow}
    (hp : p ∈ db.profiles.rows) (hp' : p' ∈ db.profiles.rows) (hplatform : p'.platform = p.platform)
    (haccount : p'.platformUserID = p.platformUserID) : p' = p :=
  Table.eq_of_key hp' hp
    (Prod.ext (h p hp p' hp' hplatform haccount) (Prod.ext hplatform haccount))

/-- The account a membership is joined to. -/
theorem MemberRow.joins_iff {m : MemberRow} {p : ProfileRow} :
    m.joins p = true ↔ p.platform = m.platform ∧ p.platformUserID = m.platformUserID := by
  simp only [MemberRow.joins, Bool.and_eq_true, decide_eq_true_eq]
  constructor
  · rintro ⟨hplatform, haccount⟩
    exact ⟨hplatform.symm, haccount.symm⟩
  · rintro ⟨hplatform, haccount⟩
    exact ⟨hplatform.symm, haccount.symm⟩

/-- A membership has one row. -/
theorem Database.IdentitiesUnique.memberRows (h : db.IdentitiesUnique) (m : MemberRow) :
    db.memberRows m = [db.soleRow m] := by
  have hsole : db.profiles.rows.filter m.joins = (db.profiles.rows.find? m.joins).toList := by
    refine Table.filter_eq_toList fun p hp p' hp' hjoins hjoins' => ?_
    obtain ⟨hplatform, haccount⟩ := MemberRow.joins_iff.mp hjoins
    obtain ⟨hplatform', haccount'⟩ := MemberRow.joins_iff.mp hjoins'
    exact h.eq hp hp' (hplatform'.trans hplatform.symm) (haccount'.trans haccount.symm)
  unfold Database.memberRows Database.soleRow
  rw [hsole]
  cases db.profiles.rows.find? m.joins <;> rfl

/-- The rows of the members of a league. -/
theorem Database.IdentitiesUnique.delivers (h : db.IdentitiesUnique) {leagueID : String}
    {s : RowStream LeagueMember} (hs : Query.Answers db (.leagueMembers leagueID) s)
    (hfull : s.err = none) :
    s.rows.Perm ((db.members.rows.filter fun m => m.leagueID = leagueID).map db.soleRow) := by
  obtain ⟨order, hperm, -, -, hall⟩ := hs
  rw [hall hfull]
  refine hperm.trans (List.Perm.of_eq ?_)
  rw [List.map_eq_flatMap]
  exact List.flatMap_congr fun m _ => h.memberRows m

/-- One row for each membership. -/
theorem Database.IdentitiesUnique.oneRowEach (h : db.IdentitiesUnique) : db.OneRowEach := by
  intro leagueID s hs hfull
  refine ((h.delivers hs hfull).map _).trans (List.Perm.of_eq ?_)
  rw [List.map_map]
  rfl

/-- Rows in another order yield the same wallet for a roster if those of each roster have one. -/
theorem memberByRoster_perm {rows rows' : List LeagueMember} (hperm : rows'.Perm rows)
    (hagree : ∀ r ∈ rows, ∀ r' ∈ rows, r'.rosterID = r.rosterID →
      r'.walletAddress = r.walletAddress) (rosterID : ℤ) :
    (memberByRoster rows' rosterID).map LeagueMember.walletAddress =
      (memberByRoster rows rosterID).map LeagueMember.walletAddress := by
  unfold memberByRoster
  cases hfind : rows.reverse.find? fun r => r.rosterID = rosterID with
  | none =>
    have hnone : rows'.reverse.find? (fun r => decide (r.rosterID = rosterID)) = none := by
      simp only [List.find?_eq_none, List.mem_reverse, hperm.mem_iff] at hfind ⊢
      exact hfind
    rw [hnone]
  | some r =>
    have hr : r ∈ rows := List.mem_reverse.mp (List.mem_of_find?_eq_some hfind)
    have hroster : r.rosterID = rosterID := by simpa using List.find?_some hfind
    cases hfind' : rows'.reverse.find? fun r => r.rosterID = rosterID with
    | none =>
      simp only [List.find?_eq_none, List.mem_reverse, hperm.mem_iff] at hfind'
      exact absurd (by simpa using hroster) (hfind' r hr)
    | some r' =>
      have hr' : r' ∈ rows :=
        hperm.mem_iff.mp (List.mem_reverse.mp (List.mem_of_find?_eq_some hfind'))
      have hroster' : r'.rosterID = rosterID := by simpa using List.find?_some hfind'
      exact congrArg some (hagree r hr r' hr' (hroster'.trans hroster.symm))

/-- One wallet for each roster. -/
theorem Database.RostersAgree.orderIrrelevant (hagree : db.RostersAgree) (h : db.IdentitiesUnique) :
    db.OrderIrrelevant := by
  intro leagueID rosterID s s' hs hs' hfull hfull'
  have hrows := h.delivers hs hfull
  refine memberByRoster_perm ((h.delivers hs' hfull').trans hrows.symm) ?_ rosterID
  intro r hr r' hr' hroster
  obtain ⟨m, hm, rfl⟩ := List.mem_map.mp (hrows.mem_iff.mp hr)
  obtain ⟨m', hm', rfl⟩ := List.mem_map.mp (hrows.mem_iff.mp hr')
  simp only [List.mem_filter, decide_eq_true_eq] at hm hm'
  exact hagree m hm.1 m' hm'.1 (hm'.2.trans hm.2.symm) hroster

end Wagr
