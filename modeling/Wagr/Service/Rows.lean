import Wagr.Service.Steps
import Wagr.Database.MemberEffects

/-!
# Where rows come from

Every row after a step was there, or was changed by the statement that takes effect, or is a
new row of it. IDs are drawn once, and what one table says of another stays true.
-/

namespace Wagr

open Interaction Relational

variable {svc : Service} {crypto : Crypto} {a b : BackendConfig} {l : BackendLabel}
  {ok : BackendConfig → BackendLabel → Prop}

/-- The IDs drawn are never forgotten. -/
theorem step_issued (h : (backend svc crypto).Step a l b) {id : String}
    (hid : id ∈ a.world.issued) : id ∈ b.world.issued := by
  rcases step_db h with ⟨-, -, hissued⟩ | ⟨s, -, now, fresh, r, -, -, hissued, -⟩
  · exact hissued ▸ hid
  · exact hissued ▸ List.mem_cons_of_mem _ hid

/-! ## Users -/

/-- Users keep their IDs and wallets, and a step that resets none of them changes none. -/
theorem step_users (hstep : (backend svc crypto).Step a l b) {u : UserRow}
    (hu : u ∈ a.world.db.users.rows) : ∃ u' ∈ b.world.db.users.rows, u'.id = u.id ∧
      u'.walletAddress = u.walletAddress ∧
        ((∀ s, applied a l = some s → ¬ s.Resets u) → u' = u) := by
  rcases step_db hstep with ⟨-, hdb, -⟩ | ⟨s, hs, now, fresh, r, hfresh, hrun, -, -⟩
  · exact ⟨u, hdb ▸ hu, rfl, rfl, fun _ => rfl⟩
  · rcases s.run_users hrun with ⟨hrows, -⟩ | ⟨nonce, walletType, -, hrows⟩ |
      ⟨walletAddress, walletType, nonce, -, -, hrows⟩
    · exact ⟨u, hrows ▸ hu, rfl, rfl, fun _ => rfl⟩
    · refine ⟨if s.Resets u then { u with nonce := nonce, walletType := walletType u }
        else u, ?_, ?_⟩
      · rw [hrows]
        exact List.mem_map_of_mem hu
      · by_cases hreset : s.Resets u
        · rw [if_pos hreset]
          exact ⟨rfl, rfl, fun hnone => absurd hreset (hnone s hs)⟩
        · rw [if_neg hreset]
          exact ⟨rfl, rfl, fun _ => rfl⟩
    · exact ⟨u, by simp [hrows, hu], rfl, rfl, fun _ => rfl⟩

/-- No user ID occurs twice, and every user ID was drawn as a UUID. -/
structure UserIDs (w : World) : Prop where
  nodup : (w.db.users.rows.map UserRow.id).Nodup
  issued : ∀ u ∈ w.db.users.rows, u.id ∈ w.issued

/-- New users get new IDs. -/
theorem UserIDs.step (h : UserIDs a.world) (hstep : (backend svc crypto).Step a l b) :
    UserIDs b.world := by
  rcases step_db hstep with ⟨-, hdb, hissued⟩ | ⟨s, -, now, fresh, r, hfresh, hrun, hissued, -⟩
  · constructor
    · rw [hdb]
      exact h.nodup
    · rw [hdb, hissued]
      exact h.issued
  · rcases s.run_users hrun with ⟨hrows, -⟩ | ⟨nonce, walletType, -, hrows⟩ |
      ⟨walletAddress, walletType, nonce, -, -, hrows⟩
    · constructor
      · rw [hrows]
        exact h.nodup
      · rw [hrows, hissued]
        exact fun u hu => List.mem_cons_of_mem _ (h.issued u hu)
    · have hids : b.world.db.users.rows.map UserRow.id = a.world.db.users.rows.map UserRow.id := by
        rw [hrows, List.map_map]
        refine List.map_congr_left fun u _ => ?_
        simp only [Function.comp]
        split <;> rfl
      constructor
      · rw [hids]
        exact h.nodup
      · intro u hu
        have hid := hids ▸ List.mem_map_of_mem (f := UserRow.id) hu
        obtain ⟨u₀, hu₀, heq⟩ := List.mem_map.mp hid
        rw [hissued, ← heq]
        exact List.mem_cons_of_mem _ (h.issued u₀ hu₀)
    · constructor
      · rw [hrows, List.map_append, List.map_singleton]
        refine h.nodup.append (List.nodup_singleton _) ?_
        simp only [List.disjoint_singleton, List.mem_map, not_exists, not_and]
        rintro u hu rfl
        exact hfresh (h.issued u hu)
      · intro u hu
        rw [hrows] at hu
        rw [hissued]
        rcases List.mem_append.mp hu with hu | hu
        · exact List.mem_cons_of_mem _ (h.issued u hu)
        · obtain rfl := List.mem_singleton.mp hu
          exact List.mem_cons_self

/-! ## Leagues -/

/-- A row after a step was there, or was changed by the statement that takes effect, or is the
new row of an import. -/
theorem step_row (h : (backend svc crypto).Step a l b) {r' : LeagueRow}
    (hr' : r' ∈ b.world.db.leagues.rows) :
    (∃ r ∈ a.world.db.leagues.rows, r' = r ∨
      ∃ now s, applied a l = some s ∧ s.LeagueStep now a.world.db r r') ∨
    ∃ league : LeagueValues, ∃ now fresh, r' = league.row now fresh ∧ fresh ∉ a.world.issued ∧
      fresh ∈ b.world.issued := by
  rcases step_db h with ⟨-, hdb, -⟩ | ⟨s, hs, now, fresh, r, hfresh, hrun, hissued, -⟩
  · exact .inl ⟨r', hdb ▸ hr', .inl rfl⟩
  · rcases s.run_leagues hrun hr' with ⟨r, hr, hstep⟩ | ⟨league, members, rfl, rfl, -⟩
    · exact .inl ⟨r, hr, .inr ⟨now, s, hs, hstep⟩⟩
    · exact .inr ⟨league, now, fresh, rfl, hfresh, hissued ▸ List.mem_cons_self⟩

/-! ## Profiles and memberships -/

/-- Users keep their wallets in a step. -/
theorem step_walletOf (hstep : (backend svc crypto).Step a l b) {userID wallet : String}
    (hwallet : a.world.db.walletOf userID = some wallet) :
    b.world.db.walletOf userID = some wallet := by
  rcases step_db hstep with ⟨-, hdb, -⟩ | ⟨s, -, now, fresh, r, -, hrun, -, -⟩
  · rw [hdb]
    exact hwallet
  · exact s.run_walletOf hrun hwallet

/-- The profiles after a step are those before, with the same keys, or one more of a link. -/
theorem step_profiles (hstep : (backend svc crypto).Step a l b) :
    (∃ f : ProfileRow → ProfileRow, (∀ p, (f p).key = p.key) ∧
      b.world.db.profiles.rows = a.world.db.profiles.rows.map f ∧
        ∀ p, applied a l = some (.upsertProfile p) →
          p.key ∈ a.world.db.profiles.rows.map ProfileRow.key) ∨
    ∃ p, applied a l = some (.upsertProfile p) ∧
      (∃ wallet, a.world.db.walletOf p.userID = some wallet) ∧
        p.key ∉ a.world.db.profiles.rows.map ProfileRow.key ∧
          b.world.db.profiles.rows = a.world.db.profiles.rows ++ [p] := by
  rcases step_db hstep with ⟨hnone, hdb, -⟩ | ⟨s, hs, now, fresh, r, -, hrun, -, -⟩
  · exact .inl ⟨id, fun _ => rfl, by rw [hdb, List.map_id], by simp [hnone]⟩
  · rcases s.run_profiles hrun with ⟨f, hf, hrows, hold⟩ | ⟨p, rfl, ⟨u, hu, hid⟩, hnew, hrows⟩
    · refine .inl ⟨f, hf, hrows, fun p hp => hold p ?_⟩
      exact Option.some.inj (hs.symm.trans hp)
    · refine .inr ⟨p, hs, ?_, hnew, hrows⟩
      cases hfind : a.world.db.users.rows.find? fun u => u.id = p.userID with
      | none => exact absurd (by simpa using hid) (List.find?_eq_none.mp hfind u hu)
      | some u => exact ⟨u.walletAddress, by simp [Database.walletOf, hfind]⟩

/-- A membership stays linked to its users. -/
theorem step_linkedTo (hstep : (backend svc crypto).Step a l b) {userID : String} {m m' : MemberRow}
    (hsame : m.SameMember m') (h : a.world.db.linkedTo userID m = true) :
    b.world.db.linkedTo userID m' = true := by
  obtain ⟨hkey, hplatform, -, -⟩ := hsame
  have haccount : m'.platformUserID = m.platformUserID := congrArg Prod.snd hkey
  obtain ⟨p, hp, hjoin⟩ := List.any_eq_true.mp h
  have hkeep : ∀ p' : ProfileRow, p'.key = p.key → (m'.joins p' && p'.userID = userID) = true := by
    intro p' hp'
    simp only [ProfileRow.key, Prod.mk.injEq] at hp'
    obtain ⟨huser, hplatform', haccount'⟩ := hp'
    simpa [MemberRow.joins, huser, hplatform', haccount', hplatform, haccount] using hjoin
  refine List.any_eq_true.mpr ?_
  rcases step_profiles hstep with ⟨f, hf, hrows, -⟩ | ⟨p', -, -, -, hrows⟩
  · refine ⟨f p, ?_, hkeep _ (hf p)⟩
    rw [hrows]
    exact List.mem_map_of_mem hp
  · refine ⟨p, ?_, hkeep p rfl⟩
    rw [hrows]
    exact List.mem_append_left _ hp

/-- A membership after a step was there, or is new in an import of an account that was no
member. -/
theorem step_member (hstep : (backend svc crypto).Step a l b) {m' : MemberRow}
    (hm' : m' ∈ b.world.db.members.rows) :
    (∃ m ∈ a.world.db.members.rows, m' = m ∨
      ∃ now s, applied a l = some s ∧ s.MemberStep now a.world.db m m') ∨
    ∃ now fresh league members, applied a l = some (.importLeague league members) ∧
      fresh ∉ a.world.issued ∧ fresh ∈ b.world.issued ∧
        ∃ v ∈ members, ∃ w ∈ members, (a.world.db.importID fresh league, v.platformUserID) ∉
          a.world.db.members.rows.map MemberRow.key ∧
            m' = w.refresh (v.row (v.rowID fresh) now (a.world.db.importID fresh league)
              league.platform) := by
  rcases step_db hstep with ⟨-, hdb, -⟩ | ⟨s, hs, now, fresh, r, hfresh, hrun, hissued, -⟩
  · exact .inl ⟨m', hdb ▸ hm', .inl rfl⟩
  · rcases s.run_members hrun hm' with ⟨m, hm, hmember⟩ |
      ⟨league, members, rfl, v, hv, w, hw, hnew, rfl⟩
    · exact .inl ⟨m, hm, .inr ⟨now, s, hs, hmember⟩⟩
    · exact .inr ⟨now, fresh, league, members, hs, hfresh,
        hissued ▸ List.mem_cons_self, v, hv, w, hw, hnew, rfl⟩

/-- A membership keeps its league, account, roster and wallet. -/
theorem sameMember_of_step {m m' : MemberRow} (h : m' = m ∨
    ∃ now s, applied a l = some s ∧ s.MemberStep now a.world.db m m') : m.SameMember m' := by
  rcases h with rfl | ⟨now, s, -, hmember⟩
  · exact ⟨rfl, rfl, rfl, rfl⟩
  · exact hmember.sameMember

/-- What the tables say of each other. -/
structure References (w : World) : Prop where
  leagues : ∀ r ∈ w.db.leagues.rows, r.id ∈ w.issued
  members : ∀ m ∈ w.db.members.rows, m.leagueID ∈ w.issued
  profiles : ∀ p ∈ w.db.profiles.rows, ∃ wallet, w.db.walletOf p.userID = some wallet

/-- The references are kept by every step. -/
theorem References.step (h : References a.world) (hstep : (backend svc crypto).Step a l b) :
    References b.world := by
  constructor
  · intro r' hr'
    rcases step_row hstep hr' with
      ⟨r, hr, rfl | ⟨now, s, -, hleague⟩⟩ | ⟨league, now, fresh, rfl, -, hold⟩
    · exact step_issued hstep (h.leagues r' hr)
    · exact hleague.id ▸ step_issued hstep (h.leagues r hr)
    · exact hold
  · intro m' hm'
    rcases step_member hstep hm' with ⟨m, hm, hmember⟩ |
      ⟨now, fresh, league, members, -, -, hold, v, -, w, -, -, rfl⟩
    · have hleague : m'.leagueID = m.leagueID := congrArg Prod.fst (sameMember_of_step hmember).1
      exact hleague ▸ step_issued hstep (h.members m hm)
    · change a.world.db.importID fresh league ∈ b.world.issued
      unfold Database.importID
      cases hl : a.world.db.leagueByPlatform league.platform league.platformLeagueID with
      | none => exact hold
      | some r => exact step_issued hstep (h.leagues r (leagueByPlatform_some hl).1)
  · intro p' hp'
    have hkeep : ∀ p ∈ a.world.db.profiles.rows, ∀ userID, userID = p.userID →
        ∃ wallet, b.world.db.walletOf userID = some wallet := by
      rintro p hp userID rfl
      obtain ⟨wallet, hwallet⟩ := h.profiles p hp
      exact ⟨wallet, step_walletOf hstep hwallet⟩
    rcases step_profiles hstep with ⟨f, hf, hrows, -⟩ | ⟨p, -, ⟨wallet, hwallet⟩, -, hrows⟩
    · rw [hrows] at hp'
      obtain ⟨p, hp, rfl⟩ := List.mem_map.mp hp'
      exact hkeep p hp _ (congrArg Prod.fst (hf p))
    · rw [hrows] at hp'
      rcases List.mem_append.mp hp' with hp | hp
      · exact hkeep p' hp _ rfl
      · obtain rfl := List.mem_singleton.mp hp
        exact ⟨wallet, step_walletOf hstep hwallet⟩

/-- The references are right in every run. -/
theorem Runs.references (h : Runs svc crypto ok a) : References a.world := by
  refine h.invariant (I := fun a => References a.world) ?_ fun hinv _ hstep => hinv.step hstep
  constructor <;> simp [initialConfig, Table.empty]

/-- The league of every membership is there. -/
def MembersHaveLeagues (db : Database) : Prop :=
  ∀ m ∈ db.members.rows, ∃ r ∈ db.leagues.rows, r.id = m.leagueID

/-- A deletion of a league removes its memberships, and an import adds members to its league
only. -/
theorem MembersHaveLeagues.step (h : MembersHaveLeagues a.world.db)
    (hstep : (backend svc crypto).Step a l b) : MembersHaveLeagues b.world.db := by
  rcases step_db hstep with ⟨-, hdb, -⟩ | ⟨s, -, now, fresh, result, -, hrun, -, -⟩
  · rw [hdb]
    exact h
  intro m' hm'
  rcases s.run_members hrun hm' with ⟨m, hm, hmember⟩ | ⟨league, members, rfl, v, -, w, -, -, rfl⟩
  · obtain ⟨r, hr, hid⟩ := h m hm
    have hleague : m'.leagueID = m.leagueID := congrArg Prod.fst hmember.sameMember.1
    rcases s.run_keepsLeague hrun hr with rfl | ⟨r', hr', hid'⟩
    · obtain ⟨-, hdb⟩ := Prod.mk.inj (Option.some.inj hrun)
      rw [← hdb] at hm'
      have hother := (Table.mem_deleteWhere.mp hm').2
      exact absurd (hleague.trans hid.symm) (by simpa using hother)
    · exact ⟨r', hr', by rw [hid', hid, hleague]⟩
  · obtain ⟨r, hr, hid⟩ := import_leagueByPlatform hrun
    exact ⟨r, (leagueByPlatform_some hr).1, hid⟩

/-- The league of every membership is there in every run. -/
theorem Runs.membersHaveLeagues (h : Runs svc crypto ok a) : MembersHaveLeagues a.world.db := by
  refine h.invariant (I := fun a => MembersHaveLeagues a.world.db) ?_
    fun hinv _ hstep => hinv.step hstep
  simp [MembersHaveLeagues, initialConfig, Table.empty]

end Wagr
