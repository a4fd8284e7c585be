import Wagr.Database.Effects
import Wagr.Database.Queries

/-!
# What statements do to profiles and memberships

A profile keeps its user and its platform account, and is new only in a link of an existing
user. A membership keeps its league, account and roster, and is new only in an import.
-/

namespace Wagr

open Relational

variable {now : ℕ} {fresh : String} {db db' : Database} {s : Statement}

/-! ## Profiles -/

/-- What a statement does to the profiles: those that are there keep their keys, or a link of an
existing user adds one. -/
theorem Statement.run_profiles {r : s.Result} (h : s.run now fresh db = some (r, db')) :
    (∃ f : ProfileRow → ProfileRow, (∀ p, (f p).key = p.key) ∧
      db'.profiles.rows = db.profiles.rows.map f ∧
        ∀ p, s = .upsertProfile p → p.key ∈ db.profiles.rows.map ProfileRow.key) ∨
    ∃ p, s = .upsertProfile p ∧ (∃ u ∈ db.users.rows, u.id = p.userID) ∧
      p.key ∉ db.profiles.rows.map ProfileRow.key ∧
        db'.profiles.rows = db.profiles.rows ++ [p] := by
  have hsame : db'.profiles = db.profiles → (∀ p, s ≠ .upsertProfile p) →
      ∃ f : ProfileRow → ProfileRow, (∀ p, (f p).key = p.key) ∧
        db'.profiles.rows = db.profiles.rows.map f ∧
          ∀ p, s = .upsertProfile p → p.key ∈ db.profiles.rows.map ProfileRow.key :=
    fun heq hs => ⟨id, fun _ => rfl, by rw [heq, List.map_id], fun p h => absurd h (hs p)⟩
  cases s with
  | upsertProfile p =>
    simp only [run] at h
    split at h
    · rename_i huser
      cases h
      obtain ⟨u, hu, hid⟩ := List.any_eq_true.mp huser
      unfold Table.upsert
      split
      · rename_i hold
        refine .inl ⟨_, fun r => ?_, rfl, fun p' hp' => ?_⟩
        · split <;> rfl
        · cases hp'
          exact hold
      · rename_i hnew
        exact .inr ⟨p, rfl, ⟨u, hu, of_decide_eq_true hid⟩, hnew, rfl⟩
    · cases h
  | importLeague league members => exact .inl (hsame (by rw [import_frame h]) (by simp))
  | insertWeeklyEvent leagueID week rosterID platformUserID payoutType points amountCents wallet =>
    simp only [run] at h
    split at h
    · split at h <;> cases h <;> exact .inl (hsame rfl (by simp))
    · cases h
  | upsertNonce walletAddress walletType nonce =>
    simp only [run] at h
    split at h
    · cases h
      exact .inl (hsame rfl (by simp))
    · split at h <;> cases h
      exact .inl (hsame rfl (by simp))
  | _ =>
    cases h
    exact .inl (hsame rfl (by simp))

/-- Users keep their wallets. -/
theorem Statement.run_walletOf {r : s.Result} (h : s.run now fresh db = some (r, db'))
    {userID wallet : String} (hwallet : db.walletOf userID = some wallet) :
    db'.walletOf userID = some wallet := by
  obtain ⟨u, hu, hwallet⟩ := Option.map_eq_some_iff.mp hwallet
  rcases s.run_users h with ⟨hrows, -⟩ | ⟨nonce, walletType, -, hrows⟩ |
    ⟨walletAddress, walletType, nonce, -, -, hrows⟩
  · rw [Database.walletOf, hrows, hu]
    exact congrArg some hwallet
  · have hkeep : ∀ u : UserRow, (if s.Resets u then
        { u with nonce := nonce, walletType := walletType u } else u).id = u.id := by
      intro u
      split <;> rfl
    rw [Database.walletOf, hrows, List.find?_map]
    simp only [Function.comp_def, hkeep, hu, Option.map_some]
    split <;> exact congrArg some hwallet
  · rw [Database.walletOf, hrows, List.find?_append, hu]
    exact congrArg some hwallet

/-! ## Memberships -/

/-- How a statement may change a row of `league_members`. -/
def Statement.MemberStep (now : ℕ) (db : Database) (s : Statement) (m m' : MemberRow) : Prop :=
  m' = m ∨ match s with
    | .importLeague _ members => ∃ v ∈ members, m' = v.refresh m
    | .setPaymentToken leagueID userID token => db.membershipOf leagueID userID m = true ∧
        m' = { m with paymentToken := some token }
    | .markPaid leagueID userID transactionID => db.membershipOf leagueID userID m = true ∧
        m' = { m with
          paymentStatus := .paid
          transactionHash := some transactionID
          paidAt := some now }
    | .resetRefunded leagueID => m.leagueID = leagueID ∧ m.paymentStatus = .refunded ∧
        m' = { m with
          paymentStatus := .unpaid
          transactionHash := none }
    | .markRefunded leagueID userID transactionID => db.membershipOf leagueID userID m = true ∧
        m' = { m with
          paymentStatus := .refunded
          transactionHash := some transactionID }
    | .recordMemberPayout leagueID rosterID place amountCents txHash => m.leagueID = leagueID ∧
        m.rosterID = rosterID ∧ m' = { m with
          finalRank := some place
          payoutAmountCents := some amountCents
          payoutTxHash := some txHash
          payoutPaidAt := some now }
    | _ => False

/-- Two rows for one account of one league, with the same roster and wallet. -/
def MemberRow.SameMember (m m' : MemberRow) : Prop :=
  m'.key = m.key ∧ m'.platform = m.platform ∧ m'.rosterID = m.rosterID ∧
    m'.walletAddress = m.walletAddress

/-- Rows keep their league, account, roster and wallet. -/
theorem Statement.MemberStep.sameMember {m m' : MemberRow} (h : s.MemberStep now db m m') :
    m.SameMember m' := by
  rcases h with rfl | h
  · exact ⟨rfl, rfl, rfl, rfl⟩
  · cases s with
    | importLeague =>
      obtain ⟨v, -, rfl⟩ := h
      exact ⟨rfl, rfl, rfl, rfl⟩
    | setPaymentToken | markPaid | markRefunded =>
      obtain ⟨-, rfl⟩ := h
      exact ⟨rfl, rfl, rfl, rfl⟩
    | resetRefunded | recordMemberPayout =>
      obtain ⟨-, -, rfl⟩ := h
      exact ⟨rfl, rfl, rfl, rfl⟩
    | _ => exact h.elim

/-- The ID of the league an import writes to. -/
def Database.importID (db : Database) (fresh : String) (league : LeagueValues) : String :=
  ((db.leagueByPlatform league.platform league.platformLeagueID).map LeagueRow.id).getD fresh

/-- The league an import writes to has this ID. -/
theorem upsertLeague_id {league : LeagueValues} {l : LeagueRow}
    (h : db.upsertLeague now fresh league = some (l, db')) : l.id = db.importID fresh league := by
  unfold Database.upsertLeague at h
  unfold Database.importID
  split at h
  · rename_i hl
    cases h
    rw [hl]
    rfl
  · rename_i hl
    rw [hl]
    split at h
    · cases h
    · cases h
      rfl

/-- Where a membership row after a statement comes from: a row that was there, or an import of an
account that was no member. -/
def Statement.MemberOrigin (now : ℕ) (fresh : String) (db : Database) (s : Statement)
    (m' : MemberRow) : Prop :=
  (∃ m ∈ db.members.rows, s.MemberStep now db m m') ∨
    ∃ league members, s = .importLeague league members ∧ ∃ v ∈ members, ∃ w ∈ members,
      (db.importID fresh league, v.platformUserID) ∉ db.members.rows.map MemberRow.key ∧
        m' = w.refresh
          (v.row (v.rowID fresh) now (db.importID fresh league) league.platform)

/-- A row that was there has an origin. -/
theorem memberOrigin_of_mem {m' : MemberRow} (h : m' ∈ db.members.rows) :
    s.MemberOrigin now fresh db m' :=
  .inl ⟨m', h, .inl rfl⟩

/-- The rows after an update have an origin if the update is a step of the statement. -/
theorem memberOrigin_of_update {p : MemberRow → Bool} {f : MemberRow → MemberRow}
    {hf : ∀ r, (f r).key = r.key} {m' : MemberRow}
    (h : m' ∈ (db.updateMembers p f hf).2.members.rows)
    (hstep : ∀ m, p m = true → s.MemberStep now db m (f m)) : s.MemberOrigin now fresh db m' := by
  simp only [Database.updateMembers, Table.mem_updateWhere] at h
  obtain ⟨m, hm, rfl⟩ := h
  refine .inl ⟨m, hm, ?_⟩
  split
  · exact hstep m (by assumption)
  · exact .inl rfl

/-- The rows after member upserts: old rows, perhaps refreshed, and rows of new members. -/
theorem mem_foldl_upsertMember {leagueID platform : String} {members : List MemberValues}
    {m' : MemberRow}
    (h : m' ∈ (members.foldl (Database.upsertMember now fresh leagueID platform) db).members.rows) :
    (∃ m ∈ db.members.rows, m' = m ∨ ∃ v ∈ members, m' = v.refresh m) ∨
      ∃ v ∈ members, ∃ w ∈ members,
        (leagueID, v.platformUserID) ∉ db.members.rows.map MemberRow.key ∧
          m' = w.refresh (v.row (v.rowID fresh) now leagueID platform) := by
  induction members generalizing db with
  | nil => exact .inl ⟨m', h, .inl rfl⟩
  | cons x members ih =>
    rw [List.foldl_cons] at h
    rcases ih h with ⟨m, hm, hrefresh⟩ | ⟨v, hv, w, hw, hnew, rfl⟩
    · rcases Table.mem_upsert hm with hm | ⟨hnew, rfl⟩ | ⟨m₀, hm₀, -, rfl⟩
      · refine .inl ⟨m, hm, hrefresh.imp_right ?_⟩
        rintro ⟨v, hv, rfl⟩
        exact ⟨v, List.mem_cons_of_mem _ hv, rfl⟩
      · rcases hrefresh with rfl | ⟨v, hv, rfl⟩
        · exact .inr ⟨x, List.mem_cons_self, x, List.mem_cons_self, hnew, rfl⟩
        · exact .inr ⟨x, List.mem_cons_self, v, List.mem_cons_of_mem _ hv, hnew, rfl⟩
      · rcases hrefresh with rfl | ⟨v, hv, rfl⟩
        · exact .inl ⟨m₀, hm₀, .inr ⟨x, List.mem_cons_self, rfl⟩⟩
        · exact .inl ⟨m₀, hm₀, .inr ⟨v, List.mem_cons_of_mem _ hv, rfl⟩⟩
    · refine .inr ⟨v, List.mem_cons_of_mem _ hv, w, List.mem_cons_of_mem _ hw, ?_, rfl⟩
      intro hold
      obtain ⟨m, hm, hkey⟩ := List.mem_map.mp hold
      refine hnew (List.mem_map.mpr ⟨_, Table.upsert_of_key hm, ?_⟩)
      split
      · rw [MemberValues.refresh_key, hkey]
      · exact hkey

/-- The membership rows after a statement. -/
theorem Statement.run_members {r : s.Result} (h : s.run now fresh db = some (r, db'))
    {m' : MemberRow} (hm' : m' ∈ db'.members.rows) : s.MemberOrigin now fresh db m' := by
  cases s with
  | upsertProfile p =>
    simp only [run] at h
    split at h <;> cases h
    exact memberOrigin_of_mem hm'
  | importLeague league members =>
    obtain ⟨l, mid, hupsert, rfl⟩ := import_run h
    have hmembers : mid.members = db.members := by rw [upsertLeague_eq hupsert]
    rcases mem_foldl_upsertMember hm' with ⟨m, hm, hrefresh⟩ | ⟨v, hv, w, hw, hnew, rfl⟩
    · exact .inl ⟨m, hmembers ▸ hm, hrefresh⟩
    · rw [hmembers, upsertLeague_id hupsert] at hnew
      rw [upsertLeague_id hupsert]
      exact .inr ⟨league, members, rfl, v, hv, w, hw, hnew, rfl⟩
  | deleteMembership leagueID userID =>
    cases h
    simp only [Table.mem_deleteWhere] at hm'
    exact memberOrigin_of_mem hm'.1
  | deleteLeague leagueID =>
    cases h
    simp only [Table.mem_deleteWhere] at hm'
    exact memberOrigin_of_mem hm'.1
  | insertWeeklyEvent leagueID week rosterID platformUserID payoutType points amountCents wallet =>
    simp only [run] at h
    split at h
    · split at h <;> cases h <;> exact memberOrigin_of_mem hm'
    · cases h
  | upsertNonce walletAddress walletType nonce =>
    simp only [run] at h
    split at h
    · cases h
      exact memberOrigin_of_mem hm'
    · split at h <;> cases h
      exact memberOrigin_of_mem hm'
  | setPaymentToken | markPaid | resetRefunded | markRefunded | recordMemberPayout =>
    cases h
    exact memberOrigin_of_update hm' fun m hp => .inr (by simpa using hp)
  | _ =>
    cases h
    exact memberOrigin_of_mem hm'

/-! ## Seats -/

/-- The league and account of a row with its roster and its ownership. -/
def MemberRow.seat (m : MemberRow) : (String × String) × ℤ × Bool := (m.key, m.rosterID, m.isOwner)

/-- Rows keep their seats. -/
theorem Statement.MemberStep.seat {m m' : MemberRow} (h : s.MemberStep now db m m') :
    m'.seat = m.seat := by
  rcases h with rfl | h
  · rfl
  · cases s with
    | importLeague =>
      obtain ⟨v, -, rfl⟩ := h
      rfl
    | setPaymentToken | markPaid | markRefunded =>
      obtain ⟨-, rfl⟩ := h
      rfl
    | resetRefunded | recordMemberPayout =>
      obtain ⟨-, -, rfl⟩ := h
      rfl
    | _ => exact h.elim

section Upserts

variable {leagueID platform : String} {members : List MemberValues}

/-- Every row survives an upsert with its seat. -/
theorem upsertMember_keeps {m : MemberRow} (hm : m ∈ db.members.rows) (v : MemberValues) :
    ∃ m' ∈ (db.upsertMember now fresh leagueID platform v).members.rows, m'.seat = m.seat := by
  refine ⟨_, Table.upsert_of_key hm, ?_⟩
  split <;> rfl

/-- Every row survives the upserts of an import with its seat. -/
theorem foldl_upsertMember_keeps {m : MemberRow} (hm : m ∈ db.members.rows) :
    ∃ m' ∈ (members.foldl (Database.upsertMember now fresh leagueID platform) db).members.rows,
      m'.seat = m.seat := by
  induction members generalizing db m with
  | nil => exact ⟨m, hm, rfl⟩
  | cons v members ih =>
    obtain ⟨mid, hmid, hseat⟩ := upsertMember_keeps hm v
    obtain ⟨m', hm', hseat'⟩ := ih hmid
    exact ⟨m', hm', hseat'.trans hseat⟩

/-- After the upserts of an import every account it names has a row. -/
theorem foldl_upsertMember_key {v : MemberValues} (hv : v ∈ members) :
    ∃ m ∈ (members.foldl (Database.upsertMember now fresh leagueID platform) db).members.rows,
      m.key = (leagueID, v.platformUserID) := by
  induction members generalizing db with
  | nil => cases hv
  | cons x members ih =>
    rcases List.mem_cons.mp hv with rfl | hv
    · have hrow : ∃ m ∈ (db.upsertMember now fresh leagueID platform v).members.rows,
          m.key = (leagueID, v.platformUserID) := by
        by_cases hold : (leagueID, v.platformUserID) ∈ db.members.rows.map MemberRow.key
        · obtain ⟨m, hm, hkey⟩ := List.mem_map.mp hold
          obtain ⟨m', hm', hseat⟩ :
            ∃ m' ∈ (db.upsertMember now fresh leagueID platform v).members.rows,
              m'.seat = m.seat := upsertMember_keeps hm v
          exact ⟨m', hm', (congrArg Prod.fst hseat).trans hkey⟩
        · have hnew : (v.row (v.rowID fresh) now leagueID platform).key ∉ db.members.rows.map
              MemberRow.key := hold
          refine ⟨v.row (v.rowID fresh) now leagueID platform, ?_, rfl⟩
          simp only [Database.upsertMember, Table.upsert]
          rw [dif_neg hnew]
          exact Table.mem_insert.mpr (.inr rfl)
      obtain ⟨m, hm, hkey⟩ := hrow
      obtain ⟨m', hm', hseat⟩ :
        ∃ m' ∈ (members.foldl (Database.upsertMember now fresh leagueID platform)
          (db.upsertMember now fresh leagueID platform v)).members.rows, m'.seat = m.seat :=
        foldl_upsertMember_keeps hm
      exact ⟨m', hm', (congrArg Prod.fst hseat).trans hkey⟩
    · exact ih hv

/-- After an import its platform league is found under the ID of the import. -/
theorem import_leagueByPlatform {league : LeagueValues}
    {r : (Statement.importLeague league members).Result}
    (h : (Statement.importLeague league members).run now fresh db = some (r, db')) :
    ∃ l, db'.leagueByPlatform league.platform league.platformLeagueID = some l ∧
      l.id = db.importID fresh league := by
  obtain ⟨l, mid, hupsert, hleagues⟩ := import_leagues h
  have hfind : mid.leagueByPlatform league.platform league.platformLeagueID = some l := by
    unfold Database.upsertLeague at hupsert
    split at hupsert
    · rename_i l₀ hl₀
      cases hupsert
      unfold Database.leagueByPlatform at hl₀ ⊢
      have hkeep : ∀ r : LeagueRow,
          (if decide (r.id = l₀.id) then league.refresh now r else r).platform = r.platform ∧
          (if decide (r.id = l₀.id) then league.refresh now r else r).platformLeagueID =
            r.platformLeagueID := by
        intro r
        split <;> exact ⟨rfl, rfl⟩
      simp only [Table.updateWhere, List.find?_map, Function.comp_def, (hkeep _).1,
        (hkeep _).2, hl₀,
        Option.map_some, decide_true, if_true]
    · rename_i hnone
      split at hupsert
      · cases hupsert
      · cases hupsert
        unfold Database.leagueByPlatform at hnone ⊢
        simp [Table.insert, hnone, LeagueValues.row]
  refine ⟨l, ?_, upsertLeague_id hupsert⟩
  unfold Database.leagueByPlatform at hfind ⊢
  rw [hleagues, hfind]

end Upserts

end Wagr
