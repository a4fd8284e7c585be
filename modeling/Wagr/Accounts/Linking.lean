import Wagr.Accounts.Identities

/-!
# Linking accounts and importing members

A link is unclaimed if no other user has the account. It keeps the rosters if it brings no
second wallet onto one, and so does an import. Nothing else changes who gets a roster's
prize.
-/

namespace Wagr

open Interaction Relational

variable {svc : Service} {crypto : Crypto} {a b : BackendConfig} {l : BackendLabel}
  {ok : BackendConfig → BackendLabel → Prop}

/-- The statement links no account that another user has. -/
def Statement.Unclaimed (db : Database) : Statement → Prop
  | .upsertProfile p => ∀ p' ∈ db.profiles.rows, p'.platform = p.platform →
      p'.platformUserID = p.platformUserID → p'.userID = p.userID
  | _ => True

/-- The memberships of the league an import refreshes. -/
def Database.importedMembers (db : Database) (league : LeagueValues) : List MemberRow :=
  match db.leagueByPlatform league.platform league.platformLeagueID with
  | some l => db.members.rows.filter fun m => m.leagueID = l.id
  | none => []

/-- The members of an import that are no members yet. -/
def Database.newMembers (db : Database) (league : LeagueValues) (members : List MemberValues) :
    List MemberValues :=
  members.filter fun v =>
    v.platformUserID ∉ (db.importedMembers league).map MemberRow.platformUserID

/-- The memberships of a league with those an import adds, whatever its ID is. -/
def Database.membersWith (db : Database) (league : LeagueValues) (members : List MemberValues) :
    List MemberRow :=
  db.importedMembers league ++ (db.newMembers league members).map fun v =>
    v.row "" 0 "" league.platform

/-- The statement brings no second wallet onto a roster: the other memberships with the roster of
a linked account have the wallet of its user, and those with the roster of a new member have its
wallet. -/
def Statement.KeepsRosters (db : Database) : Statement → Prop
  | .upsertProfile p => ∀ m ∈ db.members.rows, ∀ m' ∈ db.members.rows, m'.leagueID = m.leagueID →
      m'.rosterID = m.rosterID → m.joins p = true → m'.joins p = false →
        (db.soleRow m').walletAddress = db.walletAddress m p
  | .importLeague league members => ∀ m ∈ db.membersWith league members,
      ∀ m' ∈ db.membersWith league members, m'.rosterID = m.rosterID →
        (db.soleRow m').walletAddress = (db.soleRow m).walletAddress
  | _ => True

instance (db : Database) (s : Statement) : Decidable (s.Unclaimed db) := by
  rcases s with _ | _ <;> unfold Statement.Unclaimed <;> infer_instance

instance (db : Database) (s : Statement) : Decidable (s.KeepsRosters db) := by
  rcases s with _ | _ <;> unfold Statement.KeepsRosters <;> infer_instance

/-- A link that takes effect is of an account no other user has. -/
def LinksUnclaimed (a : BackendConfig) (l : BackendLabel) : Prop :=
  ∀ s ∈ applied a l, s.Unclaimed a.world.db

/-- A link or an import that takes effect brings no second wallet onto a roster. -/
def RostersKept (a : BackendConfig) (l : BackendLabel) : Prop :=
  ∀ s ∈ applied a l, s.KeepsRosters a.world.db

/-- The accounts stay unique in a step exactly if a link in it is unclaimed. -/
theorem identitiesUnique_step (h : a.world.db.IdentitiesUnique)
    (hstep : (backend svc crypto).Step a l b) :
    b.world.db.IdentitiesUnique ↔ LinksUnclaimed a l := by
  rcases step_profiles hstep with ⟨f, hf, hrows, hold⟩ | ⟨p, hp, -, -, hrows⟩
  · have hunique : b.world.db.IdentitiesUnique := by
      intro p' hp' q' hq' hplatform haccount
      rw [hrows] at hp' hq'
      obtain ⟨p, hp, rfl⟩ := List.mem_map.mp hp'
      obtain ⟨q, hq, rfl⟩ := List.mem_map.mp hq'
      have hpkey := hf p
      have hqkey := hf q
      simp only [ProfileRow.key, Prod.mk.injEq] at hpkey hqkey
      rw [hqkey.2.1, hpkey.2.1] at hplatform
      rw [hqkey.2.2, hpkey.2.2] at haccount
      rw [hqkey.1, hpkey.1]
      exact h p hp q hq hplatform haccount
    refine iff_of_true hunique fun s hs => ?_
    cases s with
    | upsertProfile p =>
      intro p' hp' hplatform haccount
      obtain ⟨q, hq, hkey⟩ := List.mem_map.mp (hold p hs)
      simp only [ProfileRow.key, Prod.mk.injEq] at hkey
      rw [← hkey.1]
      exact h q hq p' hp' (hplatform.trans hkey.2.1.symm) (haccount.trans hkey.2.2.symm)
    | _ => trivial
  · have hmem : ∀ q, q ∈ b.world.db.profiles.rows ↔ q ∈ a.world.db.profiles.rows ∨ q = p := by
      simp [hrows]
    constructor
    · intro hb s hs
      cases hp.symm.trans hs
      intro p' hp' hplatform haccount
      exact hb p ((hmem p).mpr (.inr rfl)) p' ((hmem p').mpr (.inl hp')) hplatform haccount
    · intro hlinks q hq q' hq' hplatform haccount
      rcases (hmem q).mp hq with hq | rfl
      · rcases (hmem q').mp hq' with hq' | rfl
        · exact h q hq q' hq' hplatform haccount
        · exact (hlinks _ hp q hq hplatform.symm haccount.symm).symm
      · rcases (hmem q').mp hq' with hq' | rfl
        · exact hlinks _ hp q' hq' hplatform haccount
        · rfl

/-- The wallet of a membership depends on its account and wallet column. -/
theorem soleRow_wallet {db : Database} {m m' : MemberRow} (hplatform : m'.platform = m.platform)
    (haccount : m'.platformUserID = m.platformUserID)
    (hwallet : m'.walletAddress = m.walletAddress) :
    (db.soleRow m').walletAddress = (db.soleRow m).walletAddress := by
  have hjoins : m'.joins = m.joins := by
    funext p
    simp only [MemberRow.joins, hplatform, haccount]
  simp only [Database.soleRow, Database.memberRow, hjoins, hwallet]

/-- Where the profiles only change their names, every membership keeps its wallet. -/
theorem soleRow_of_map (h : References a.world) (hstep : (backend svc crypto).Step a l b)
    {f : ProfileRow → ProfileRow} (hf : ∀ p, (f p).key = p.key)
    (hrows : b.world.db.profiles.rows = a.world.db.profiles.rows.map f) (m : MemberRow) :
    (b.world.db.soleRow m).walletAddress = (a.world.db.soleRow m).walletAddress := by
  have hjoins : m.joins ∘ f = m.joins := by
    funext p
    have hkey := hf p
    simp only [ProfileRow.key, Prod.mk.injEq] at hkey
    simp only [Function.comp, MemberRow.joins, hkey]
  have hfind : b.world.db.profiles.rows.find? m.joins =
      (a.world.db.profiles.rows.find? m.joins).map f := by
    rw [hrows, List.find?_map, hjoins]
  unfold Database.soleRow
  rw [hfind]
  cases hp : a.world.db.profiles.rows.find? m.joins with
  | none => rfl
  | some p =>
    obtain ⟨wallet, hwallet⟩ := h.profiles p (List.mem_of_find?_eq_some hp)
    have huser : (f p).userID = p.userID := congrArg Prod.fst (hf p)
    simp only [Database.memberRow, Option.map_some, Option.bind_some, huser, hwallet,
      step_walletOf hstep hwallet]

/-- A new profile gives the memberships joined to it the wallet of its user. -/
theorem soleRow_of_append (h : References a.world) (hstep : (backend svc crypto).Step a l b)
    {p : ProfileRow} (hrows : b.world.db.profiles.rows = a.world.db.profiles.rows ++ [p])
    (hnew : ∀ p' ∈ a.world.db.profiles.rows, p'.platform = p.platform →
      p'.platformUserID ≠ p.platformUserID)
    (hwallet : ∃ wallet, a.world.db.walletOf p.userID = some wallet) (m : MemberRow) :
    (b.world.db.soleRow m).walletAddress =
      if m.joins p then a.world.db.walletAddress m p else (a.world.db.soleRow m).walletAddress := by
  unfold Database.soleRow
  rw [hrows, List.find?_append]
  cases hp : a.world.db.profiles.rows.find? m.joins with
  | some q =>
    have hnot : m.joins p = false := by
      by_contra hjoins
      obtain ⟨hplatform, haccount⟩ := MemberRow.joins_iff.mp (by simpa using hjoins)
      obtain ⟨hplatform', haccount'⟩ := MemberRow.joins_iff.mp (List.find?_some hp)
      exact hnew q (List.mem_of_find?_eq_some hp) (hplatform'.trans hplatform.symm)
        (haccount'.trans haccount.symm)
    obtain ⟨wallet, hq⟩ := h.profiles q (List.mem_of_find?_eq_some hp)
    simp only [Option.some_or, hnot, Bool.false_eq_true, if_false, Database.memberRow,
      Option.bind_some, hq, step_walletOf hstep hq]
  | none =>
    obtain ⟨wallet, hwallet⟩ := hwallet
    by_cases hjoins : m.joins p = true
    · simp only [Option.none_or, List.find?_cons_of_pos hjoins, hjoins, if_true, Database.memberRow,
        Database.walletAddress, Option.bind_some, hwallet, step_walletOf hstep hwallet]
    · simp only [Option.none_or, List.find?_cons_of_neg hjoins, List.find?_nil, hjoins,
        Bool.false_eq_true, if_false]
      rfl

/-- The members of the league after an import are those it had and those it adds. -/
theorem mem_membersWith (h : References a.world) (hstep : (backend svc crypto).Step a l b)
    {fresh : String} {league : LeagueValues} {members : List MemberValues}
    (happlied : applied a l = some (.importLeague league members)) (hfresh : fresh ∉ a.world.issued)
    {m' : MemberRow} (hm' : m' ∈ b.world.db.members.rows)
    (hleague : m'.leagueID = a.world.db.importID fresh league) :
    ∃ m ∈ a.world.db.membersWith league members, m'.platform = m.platform ∧
      m'.platformUserID = m.platformUserID ∧ m'.rosterID = m.rosterID ∧
        m'.walletAddress = m.walletAddress := by
  rcases step_member hstep hm' with ⟨m, hm, hmember⟩ |
    ⟨now, fresh', league', members', happlied', -, -, v, hv, w, -, hnew, rfl⟩
  · obtain ⟨hkey, hplatform, hroster, hwallet⟩ := sameMember_of_step hmember
    simp only [MemberRow.key, Prod.mk.injEq] at hkey
    refine ⟨m, List.mem_append_left _ ?_, hplatform, hkey.2, hroster, hwallet⟩
    have hid : m.leagueID = a.world.db.importID fresh league := hkey.1.symm.trans hleague
    unfold Database.importID at hid
    unfold Database.importedMembers
    cases hl : a.world.db.leagueByPlatform league.platform league.platformLeagueID with
    | none =>
      rw [hl] at hid
      have hid' : m.leagueID = fresh := hid
      exact absurd (hid' ▸ h.members m hm) hfresh
    | some r =>
      rw [hl] at hid
      exact List.mem_filter.mpr ⟨hm, by simpa using hid⟩
  · cases happlied.symm.trans happlied'
    refine ⟨v.row "" 0 "" league.platform, List.mem_append_right _ ?_, rfl, rfl, rfl, rfl⟩
    refine List.mem_map_of_mem (List.mem_filter.mpr ⟨hv, ?_⟩)
    simp only [decide_eq_true_eq]
    intro hold
    obtain ⟨m, hm, haccount⟩ := List.mem_map.mp hold
    unfold Database.importedMembers at hm
    cases hl : a.world.db.leagueByPlatform league.platform league.platformLeagueID with
    | none =>
      rw [hl] at hm
      cases hm
    | some r =>
      rw [hl] at hm
      simp only [List.mem_filter, decide_eq_true_eq] at hm
      refine hnew (List.mem_map.mpr ⟨m, hm.1, ?_⟩)
      simp [MemberRow.key, Database.importID, hl, hm.2, haccount]

/-- The rosters agree after a step without a new profile that keeps them. -/
theorem rostersAgree_of_map (h : References a.world) (hagree : a.world.db.RostersAgree)
    (hstep : (backend svc crypto).Step a l b) (hrosters : RostersKept a l)
    (hsame : ∀ m, (b.world.db.soleRow m).walletAddress = (a.world.db.soleRow m).walletAddress) :
    b.world.db.RostersAgree := by
  intro m' hm' n' hn' hleague hroster
  rw [hsame, hsame]
  have himport :
      ∀ (fresh : String) league members, applied a l = some (.importLeague league members) →
      fresh ∉ a.world.issued → m'.leagueID = a.world.db.importID fresh league →
        (a.world.db.soleRow n').walletAddress = (a.world.db.soleRow m').walletAddress := by
    intro fresh league members happlied hfresh hid
    obtain ⟨m, hm, hplatform, haccount, hmroster, hwallet⟩ :=
      mem_membersWith h hstep happlied hfresh hm' hid
    obtain ⟨n, hn, hplatform', haccount', hnroster, hwallet'⟩ :=
      mem_membersWith h hstep happlied hfresh hn' (hleague.trans hid)
    rw [soleRow_wallet hplatform haccount hwallet, soleRow_wallet hplatform' haccount' hwallet']
    exact hrosters _ happlied m hm n hn
      ((hnroster.symm.trans hroster).trans hmroster)
  rcases step_member hstep hm' with ⟨m, hm, hmember⟩ |
    ⟨now, fresh, league, members, happlied, hfresh, -, v, -, w, -, -, rfl⟩
  · rcases step_member hstep hn' with ⟨n, hn, hmember'⟩ |
      ⟨now, fresh, league, members, happlied, hfresh, -, v, -, w, -, -, rfl⟩
    · obtain ⟨hkey, hplatform, hmroster, hwallet⟩ := sameMember_of_step hmember
      obtain ⟨hkey', hplatform', hnroster, hwallet'⟩ := sameMember_of_step hmember'
      simp only [MemberRow.key, Prod.mk.injEq] at hkey hkey'
      rw [soleRow_wallet hplatform hkey.2 hwallet, soleRow_wallet hplatform' hkey'.2 hwallet']
      exact hagree m hm n hn ((hkey'.1.symm.trans hleague).trans hkey.1)
        ((hnroster.symm.trans hroster).trans hmroster)
    · exact himport fresh league members happlied hfresh hleague.symm
  · exact himport fresh league members happlied hfresh rfl

/-- The rosters agree after a step that keeps them. -/
theorem rostersAgree_step (h : References a.world) (hagree : a.world.db.RostersAgree)
    (hstep : (backend svc crypto).Step a l b) (hlinks : LinksUnclaimed a l)
    (hrosters : RostersKept a l) : b.world.db.RostersAgree := by
  rcases step_profiles hstep with ⟨f, hf, hrows, -⟩ | ⟨p, hp, hwallet, hnew, hrows⟩
  · exact rostersAgree_of_map h hagree hstep hrosters (soleRow_of_map h hstep hf hrows)
  · have hmem : ∀ m' ∈ b.world.db.members.rows, m' ∈ a.world.db.members.rows := by
      intro m' hm'
      rcases step_member hstep hm' with ⟨m, hm, rfl | ⟨now, s, hs, rfl | hmember⟩⟩ |
        ⟨now, fresh, league, members, happlied, -⟩
      · exact hm
      · exact hm
      · cases hp.symm.trans hs
        exact hmember.elim
      · cases hp.symm.trans happlied
    have hsole := soleRow_of_append h hstep hrows (fun p' hp' hplatform haccount => by
      have huser := hlinks _ hp p' hp' hplatform haccount
      exact hnew (List.mem_map.mpr ⟨p', hp', Prod.ext huser (Prod.ext hplatform haccount)⟩)) hwallet
    intro m hm n hn hleague hroster
    have hm := hmem m hm
    have hn := hmem n hn
    rw [hsole, hsole]
    cases hmp : m.joins p with
    | false =>
      cases hnp : n.joins p with
      | false => exact hagree m hm n hn hleague hroster
      | true => exact (hrosters _ hp n hn m hm hleague.symm hroster.symm hnp hmp).symm
    | true =>
      cases hnp : n.joins p with
      | false => exact hrosters _ hp m hm n hn hleague hroster hmp hnp
      | true =>
        have haccount : n.platformUserID = m.platformUserID :=
          (MemberRow.joins_iff.mp hnp).2.symm.trans (MemberRow.joins_iff.mp hmp).2
        rw [Table.eq_of_key hn hm (Prod.ext hleague haccount)]

end Wagr
