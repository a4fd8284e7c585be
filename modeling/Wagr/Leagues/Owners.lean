import Wagr.Library.History
import Wagr.Service.Rows
import Wagr.Service.Scenario

/-!
# Owners of rosters

An import writes the roster and the ownership of an account only when its row is new, and leaves
the rows of accounts that are no longer members. So the memberships are those of the platform's
response exactly if no roster and no ownership has moved since an account was first imported.
-/

namespace Wagr

open Interaction Protocol Relational

variable {svc : Service} {crypto : Crypto} {a b : BackendConfig} {l : BackendLabel}
  {ok : BackendConfig → BackendLabel → Prop} {db db' : Database} {now : ℕ} {fresh : String}
  {league : LeagueValues} {members : List MemberValues}

/-! ## What an import writes -/

/-- The members an import writes are those of an answer of the platform. -/
def Reported (trace : List (Sigma Ret)) (league : LeagueValues) (members : List MemberValues) :
    Prop :=
  ∃ platformLeagueID platformMembers rosters,
    (⟨.platformMembers league.platform platformLeagueID, .ok platformMembers⟩ : Sigma Ret) ∈ trace ∧
      members = platformMembers.map (memberValues rosters)

/-- Imports write what was reported. -/
def reportedRule (_ : Request) (trace : List (Sigma Ret)) : Call → Prop
  | .exec (.importLeague league members) => Reported trace league members
  | _ => True

/-- The call imports nothing. -/
def Call.importsNothing : Call → Prop
  | .exec (.importLeague _ _) => False
  | _ => True

/-- Requests other than an import import nothing. -/
theorem Request.mayCall.importsNothing {req : Request} {c : Call} (h : req.mayCall c)
    (hreq : ∀ userID importReq, req ≠ .importLeague userID importReq) : c.importsNothing := by
  cases c with
  | exec s =>
    cases s with
    | importLeague league members =>
      cases req with
      | importLeague userID importReq => exact absurd rfl (hreq userID importReq)
      | _ => exact h.elim
    | _ => trivial
  | _ => trivial

/-- Every request imports only what was reported. -/
theorem conforms_reported (req : Request) :
    (history reportedRule).Conforms (req, []) ((backend svc crypto).body req) fun _ _ => True := by
  by_cases himport : ∃ userID importReq, req = .importLeague userID importReq
  · obtain ⟨userID, importReq, rfl⟩ := himport
    refine conforms_toDone (conforms_run_bind.mpr (conforms_wrapErr.mpr ⟨trivial, fun pl => ?_⟩))
    cases pl with
    | error e => trivial
    | ok pl =>
      refine conforms_run_bind.mpr (conforms_wrapErr.mpr ⟨trivial, fun platformMembers => ?_⟩)
      cases platformMembers with
      | error e => trivial
      | ok platformMembers =>
        refine conforms_run_bind.mpr (conforms_wrapErr.mpr ⟨trivial, fun rosters => ?_⟩)
        cases rosters with
        | error e => trivial
        | ok rosters =>
          refine conforms_wrapErr.mpr
            ⟨⟨importReq.platformLeagueID, platformMembers, rosters, ?_, rfl⟩, fun _ => trivial⟩
          exact List.mem_cons_of_mem _ List.mem_cons_self
  · have hreq : ∀ userID importReq, req ≠ .importLeague userID importReq :=
      fun userID importReq h => himport ⟨userID, importReq, h⟩
    refine (conforms_history ((calls_request req).weaken fun c hc later _ => ?_)).mono
      fun _ _ _ => trivial
    have hnothing := hc.importsNothing hreq
    cases c with
    | exec s =>
      cases s with
      | importLeague league members => exact hnothing.elim
      | _ => trivial
    | _ => trivial

/-- An import that takes effect writes what the platform has answered to some thread. -/
theorem Runs.reported (h : Runs svc crypto ok a) (hstep : (backend svc crypto).Step a l b)
    (hs : applied a l = some (.importLeague league members)) :
    a.SomeTrace fun _ trace => Reported trace league members := by
  obtain ⟨i, t, ht, earlier, hsuffix, hallows⟩ := h.applied_allowed conforms_reported hstep hs
  rw [history_phase] at hallows
  obtain ⟨platformLeagueID, platformMembers, rosters, hread, heq⟩ := hallows
  exact ⟨i, t, ht, platformLeagueID, platformMembers, rosters, hsuffix.subset hread, heq⟩

/-! ## Seats after an import -/

/-- A row after an import has the seat of a row that was there, or of a new account. -/
theorem import_seats {r : (Statement.importLeague league members).Result}
    (h : (Statement.importLeague league members).run now fresh db = some (r, db')) {m' : MemberRow}
    (hm' : m' ∈ db'.members.rows) : (∃ m ∈ db.members.rows, m'.seat = m.seat) ∨
      ∃ v ∈ members,
        m'.seat = ((db.importID fresh league, v.platformUserID), v.rosterID, v.isOwner) := by
  rcases Statement.run_members h hm' with ⟨m, hm, hmember⟩ |
    ⟨league', members', heq, v, hv, w, -, -, rfl⟩
  · exact .inl ⟨m, hm, hmember.seat⟩
  · cases heq
    exact .inr ⟨v, hv, rfl⟩

/-- Every row survives an import with its seat, and every account of the import has a row. -/
theorem import_rows {r : (Statement.importLeague league members).Result}
    (h : (Statement.importLeague league members).run now fresh db = some (r, db')) :
    (∀ m ∈ db.members.rows, ∃ m' ∈ db'.members.rows, m'.seat = m.seat) ∧
      ∀ v ∈ members, ∃ m' ∈ db'.members.rows,
        m'.key = (db.importID fresh league, v.platformUserID) := by
  obtain ⟨l, mid, hupsert, rfl⟩ := import_run h
  have hmembers : mid.members = db.members := by rw [upsertLeague_eq hupsert]
  refine ⟨fun m hm => foldl_upsertMember_keeps (hmembers ▸ hm), fun v hv => ?_⟩
  rw [← upsertLeague_id hupsert]
  exact foldl_upsertMember_key hv

/-! ## Rosters in different hands -/

/-- No two memberships of a league hold the same roster. -/
def RostersDistinct (rows : List MemberRow) : Prop :=
  ∀ m ∈ rows, ∀ m' ∈ rows, m.leagueID = m'.leagueID → m.rosterID = m'.rosterID →
    m.rosterID ≠ 0 → m = m'

instance (rows : List MemberRow) : Decidable (RostersDistinct rows) :=
  inferInstanceAs (Decidable (∀ m ∈ rows, ∀ m' ∈ rows, m.leagueID = m'.leagueID →
    m.rosterID = m'.rosterID → m.rosterID ≠ 0 → m = m'))

/-- The memberships of the league are those of the response. -/
structure OwnersCurrent (db : Database) (leagueID : String) (members : List MemberValues) :
    Prop where
  /-- Every member of the response has a row with its roster and its ownership. -/
  rows : ∀ v ∈ members, ∃ m ∈ db.members.rows,
    m.seat = ((leagueID, v.platformUserID), v.rosterID, v.isOwner)
  /-- The payout jobs find the member of the response under its roster. -/
  byRoster : ∀ stream, (Query.leagueMembers leagueID).Answers db stream → stream.err = none →
    ∀ v ∈ members, v.rosterID ≠ 0 →
      ∃ m ∈ memberByRoster stream.rows v.rosterID, m.platformUserID = v.platformUserID

/-- The memberships that an import of the league finds. -/
def Database.membersBefore (db : Database) (league : LeagueValues) : List MemberRow :=
  match db.leagueByPlatform league.platform league.platformLeagueID with
  | some r => db.members.rows.filter fun m => m.leagueID = r.id
  | none => []

/-- Nothing has moved: accounts that have a row return with its roster and its ownership, and no
roster of the response is in the row of another account. -/
structure OwnersKept (rows : List MemberRow) (members : List MemberValues) : Prop where
  kept : ∀ v ∈ members, ∀ m ∈ rows, m.platformUserID = v.platformUserID →
    m.rosterID = v.rosterID ∧ m.isOwner = v.isOwner
  consistent : ∀ v ∈ members, ∀ v' ∈ members, v.platformUserID = v'.platformUserID →
    v.rosterID = v'.rosterID ∧ v.isOwner = v'.isOwner
  free : ∀ v ∈ members, v.rosterID ≠ 0 → ∀ m ∈ rows, m.rosterID = v.rosterID →
    m.platformUserID = v.platformUserID
  distinct : ∀ v ∈ members, v.rosterID ≠ 0 → ∀ v' ∈ members, v.rosterID = v'.rosterID →
    v.platformUserID = v'.platformUserID

instance (rows : List MemberRow) (members : List MemberValues) :
    Decidable (OwnersKept rows members) :=
  decidable_of_iff (_ ∧ _ ∧ _ ∧ _)
    ⟨fun h => ⟨h.1, h.2.1, h.2.2.1, h.2.2.2⟩, fun h => ⟨h.kept, h.consistent, h.free, h.distinct⟩⟩

/-- The league and the members of an import that takes effect in the step. -/
def imported (a : BackendConfig) (l : BackendLabel) : Option (LeagueValues × List MemberValues) :=
  match applied a l with
  | some (.importLeague league members) => some (league, members)
  | _ => none

/-- The statement of an import. -/
theorem imported_eq : (league, members) ∈ imported a l ↔
    applied a l = some (.importLeague league members) := by
  unfold imported
  cases applied a l with
  | none => simp
  | some s => cases s <;> simp

/-- An import that takes effect in the step finds that nothing has moved. -/
def ImportsKept (a : BackendConfig) (l : BackendLabel) : Prop :=
  ∀ i ∈ imported a l, OwnersKept (a.world.db.membersBefore i.1) i.2

instance (a : BackendConfig) (l : BackendLabel) : Decidable (ImportsKept a l) :=
  inferInstanceAs (Decidable (∀ i ∈ imported a l, OwnersKept (a.world.db.membersBefore i.1) i.2))

/-- After an import that takes effect in the step, the memberships are those of the response. -/
def ImportsCurrent (a : BackendConfig) (l : BackendLabel) (b : BackendConfig) : Prop :=
  ∀ i ∈ imported a l,
    ∃ r, b.world.db.leagueByPlatform i.1.platform i.1.platformLeagueID = some r ∧
      OwnersCurrent b.world.db r.id i.2

/-- The parts of a seat. -/
theorem seat_eq {m : MemberRow} {key : String × String} {rosterID : ℤ} {isOwner : Bool}
    (h : m.seat = (key, rosterID, isOwner)) : m.leagueID = key.1 ∧ m.platformUserID = key.2 ∧
      m.rosterID = rosterID ∧ m.isOwner = isOwner := by
  simp only [MemberRow.seat, Prod.mk.injEq] at h
  obtain ⟨rfl, rfl, rfl⟩ := h
  exact ⟨rfl, rfl, rfl, rfl⟩

/-- Two rows with one seat agree. -/
theorem seat_parts {m m' : MemberRow} (h : m'.seat = m.seat) : m'.leagueID = m.leagueID ∧
    m'.platformUserID = m.platformUserID ∧ m'.rosterID = m.rosterID ∧ m'.isOwner = m.isOwner :=
  seat_eq h

/-- The memberships that an import finds are those under its ID. -/
theorem mem_membersBefore {w : World} (href : References w) (hfresh : fresh ∉ w.issued)
    {m : MemberRow} : m ∈ w.db.membersBefore league ↔
      m ∈ w.db.members.rows ∧ m.leagueID = w.db.importID fresh league := by
  unfold Database.membersBefore Database.importID
  cases w.db.leagueByPlatform league.platform league.platformLeagueID with
  | some r => simp
  | none =>
    simp only [List.not_mem_nil, Option.map_none, Option.getD_none, false_iff, not_and]
    rintro hm rfl
    exact hfresh (href.members m hm)

/-- If no roster is in two rows, the payout jobs find the row that holds it. -/
theorem RostersDistinct.byRoster (h : RostersDistinct db.members.rows) {m : MemberRow}
    (hm : m ∈ db.members.rows) (hroster : m.rosterID ≠ 0) {stream : RowStream LeagueMember}
    (hanswer : (Query.leagueMembers m.leagueID).Answers db stream) (herr : stream.err = none) :
    ∃ m' ∈ memberByRoster stream.rows m.rosterID, m'.platformUserID = m.platformUserID := by
  obtain ⟨order, hperm, -, -, hall⟩ := hanswer
  rw [hall herr]
  -- what the rows of the answer come from
  have hrow : ∀ x : LeagueMember, x ∈ order ↔ ∃ m₀ ∈ db.members.rows, m₀.leagueID = m.leagueID ∧
      x ∈ db.memberRows m₀ := by
    intro x
    rw [hperm.mem_iff]
    simp [and_assoc]
  have hparts : ∀ m₀ : MemberRow, ∀ x ∈ db.memberRows m₀, x.rosterID = m₀.rosterID ∧
      x.platformUserID = m₀.platformUserID := by
    intro m₀ x hx
    unfold Database.memberRows at hx
    split at hx
    · obtain rfl := List.mem_singleton.mp hx
      exact ⟨rfl, rfl⟩
    · obtain ⟨p, -, rfl⟩ := List.mem_map.mp hx
      exact ⟨rfl, rfl⟩
  have hsome : ∃ x ∈ db.memberRows m, x.rosterID = m.rosterID := by
    obtain ⟨x, hx⟩ : ∃ x, x ∈ db.memberRows m := by
      unfold Database.memberRows
      split
      · exact ⟨_, List.mem_singleton.mpr rfl⟩
      · rename_i profiles hne
        obtain ⟨p, hp⟩ := List.exists_mem_of_ne_nil _ hne
        exact ⟨_, List.mem_map_of_mem hp⟩
    exact ⟨x, hx, (hparts m x hx).1⟩
  obtain ⟨x, hx, hxroster⟩ := hsome
  cases hfind : memberByRoster order m.rosterID with
  | none =>
    have hnot := List.find?_eq_none.mp hfind x
      (List.mem_reverse.mpr ((hrow x).mpr ⟨m, hm, rfl, hx⟩))
    simp [hxroster] at hnot
  | some y =>
    refine ⟨y, rfl, ?_⟩
    have hy := List.mem_reverse.mp (List.mem_of_find?_eq_some hfind)
    have hyroster : y.rosterID = m.rosterID := by simpa using List.find?_some hfind
    obtain ⟨m₀, hm₀, hleague, hyrow⟩ := (hrow y).mp hy
    obtain ⟨hroster₀, haccount₀⟩ := hparts m₀ y hyrow
    have heq : m = m₀ := h m hm m₀ hm₀ hleague.symm (hyroster.symm.trans hroster₀) hroster
    rw [haccount₀, heq]

/-! ## One step -/

section Import

variable {r : (Statement.importLeague league members).Result} {rows : List MemberRow}

/-- After an import that moves nothing, no roster is in two rows. -/
theorem RostersDistinct.import_of_kept (hdistinct : RostersDistinct db.members.rows)
    (h : (Statement.importLeague league members).run now fresh db = some (r, db'))
    (hrows : ∀ m, m ∈ rows ↔ m ∈ db.members.rows ∧ m.leagueID = db.importID fresh league)
    (hkept : OwnersKept rows members) : RostersDistinct db'.members.rows := by
  intro m' hm' n' hn' hleague hroster hne
  -- rows of one account are the same row
  suffices haccount : m'.platformUserID = n'.platformUserID from
    Table.eq_of_key hm' hn' (Prod.ext hleague haccount)
  rcases import_seats h hm' with ⟨m, hm, hseat⟩ | ⟨v, hv, hseat⟩
  · obtain ⟨hm₁, hm₂, hm₃, -⟩ := seat_parts hseat
    rcases import_seats h hn' with ⟨n, hn, hseat'⟩ | ⟨v', hv', hseat'⟩
    · obtain ⟨hn₁, hn₂, hn₃, -⟩ := seat_parts hseat'
      have heq : m = n := hdistinct m hm n hn (hm₁.symm.trans (hleague.trans hn₁))
        (hm₃.symm.trans (hroster.trans hn₃)) (hm₃ ▸ hne)
      rw [hm₂, hn₂, heq]
    · obtain ⟨hn₁, hn₂, hn₃, -⟩ := seat_eq hseat'
      have hmem : m ∈ rows := (hrows m).mpr ⟨hm, hm₁.symm.trans (hleague.trans hn₁)⟩
      have hsame : m.rosterID = v'.rosterID := hm₃.symm.trans (hroster.trans hn₃)
      rw [hm₂, hn₂]
      exact hkept.free v' hv' (hsame ▸ hm₃ ▸ hne) m hmem hsame
  · obtain ⟨hm₁, hm₂, hm₃, -⟩ := seat_eq hseat
    rcases import_seats h hn' with ⟨n, hn, hseat'⟩ | ⟨v', hv', hseat'⟩
    · obtain ⟨hn₁, hn₂, hn₃, -⟩ := seat_parts hseat'
      have hmem : n ∈ rows := (hrows n).mpr ⟨hn, hn₁.symm.trans (hleague.symm.trans hm₁)⟩
      have hsame : n.rosterID = v.rosterID := hn₃.symm.trans (hroster.symm.trans hm₃)
      rw [hm₂, hn₂]
      exact (hkept.free v hv (hm₃ ▸ hne) n hmem hsame).symm
    · obtain ⟨hn₁, hn₂, hn₃, -⟩ := seat_eq hseat'
      rw [hm₂, hn₂]
      exact hkept.distinct v hv (hm₃ ▸ hne) v' hv' (hm₃.symm.trans (hroster.trans hn₃))

/-- After an import that moves nothing, the rows are those of the response. -/
theorem OwnersKept.current (hkept : OwnersKept rows members)
    (hdistinct : RostersDistinct db.members.rows)
    (h : (Statement.importLeague league members).run now fresh db = some (r, db'))
    (hrows : ∀ m, m ∈ rows ↔ m ∈ db.members.rows ∧ m.leagueID = db.importID fresh league) :
    OwnersCurrent db' (db.importID fresh league) members := by
  have hseats : ∀ v ∈ members, ∃ m ∈ db'.members.rows,
      m.seat = ((db.importID fresh league, v.platformUserID), v.rosterID, v.isOwner) := by
    intro v hv
    obtain ⟨m', hm', hkey⟩ := (import_rows h).2 v hv
    have hleague : m'.leagueID = db.importID fresh league := congrArg Prod.fst hkey
    have haccount : m'.platformUserID = v.platformUserID := congrArg Prod.snd hkey
    suffices hsame : m'.rosterID = v.rosterID ∧ m'.isOwner = v.isOwner from
      ⟨m', hm', by rw [MemberRow.seat, hkey, hsame.1, hsame.2]⟩
    rcases import_seats h hm' with ⟨m, hm, hseat⟩ | ⟨v', hv', hseat⟩
    · obtain ⟨h₁, h₂, h₃, h₄⟩ := seat_parts hseat
      rw [h₃, h₄]
      exact hkept.kept v hv m ((hrows m).mpr ⟨hm, h₁.symm.trans hleague⟩) (h₂.symm.trans haccount)
    · obtain ⟨-, h₂, h₃, h₄⟩ := seat_eq hseat
      rw [h₃, h₄]
      exact hkept.consistent v' hv' v hv (h₂.symm.trans haccount)
  refine ⟨hseats, fun stream hanswer herr v hv hne => ?_⟩
  obtain ⟨m, hm, hseat⟩ := hseats v hv
  obtain ⟨hleague, haccount, hroster, -⟩ := seat_eq hseat
  have hmember : v.platformUserID = m.platformUserID := haccount.symm
  have hdistinct' := hdistinct.import_of_kept h hrows hkept
  rw [← hroster] at hne ⊢
  rw [hmember]
  exact hdistinct'.byRoster hm hne (hleague ▸ hanswer) herr

/-- If the rows after an import are those of the response, it has moved nothing. -/
theorem OwnersCurrent.kept (hcurrent : OwnersCurrent db' (db.importID fresh league) members)
    (hdistinct : RostersDistinct db'.members.rows)
    (h : (Statement.importLeague league members).run now fresh db = some (r, db'))
    (hrows : ∀ m, m ∈ rows ↔ m ∈ db.members.rows ∧ m.leagueID = db.importID fresh league) :
    OwnersKept rows members := by
  -- the row after the import of a row before it, and of a member of the response
  have hold : ∀ m ∈ rows, ∃ m' ∈ db'.members.rows,
      m'.leagueID = db.importID fresh league ∧ m'.platformUserID = m.platformUserID ∧
        m'.rosterID = m.rosterID ∧ m'.isOwner = m.isOwner := by
    intro m hm
    obtain ⟨hmem, hleague⟩ := (hrows m).mp hm
    obtain ⟨m', hm', hseat⟩ := (import_rows h).1 m hmem
    obtain ⟨h₁, h₂⟩ := seat_parts hseat
    exact ⟨m', hm', h₁.trans hleague, h₂⟩
  have hnew : ∀ v ∈ members, ∃ m' ∈ db'.members.rows,
      m'.leagueID = db.importID fresh league ∧ m'.platformUserID = v.platformUserID ∧
        m'.rosterID = v.rosterID ∧ m'.isOwner = v.isOwner := by
    intro v hv
    obtain ⟨m', hm', hseat⟩ := hcurrent.rows v hv
    exact ⟨m', hm', seat_eq hseat⟩
  constructor
  · intro v hv m hm haccount
    obtain ⟨m', hm', h₁, h₂, h₃, h₄⟩ := hold m hm
    obtain ⟨n', hn', k₁, k₂, k₃, k₄⟩ := hnew v hv
    have heq : m' = n' := Table.eq_of_key hm' hn'
      (Prod.ext (h₁.trans k₁.symm) (h₂.trans (haccount.trans k₂.symm)))
    rw [← h₃, ← h₄, heq, k₃, k₄]
    exact ⟨rfl, rfl⟩
  · intro v hv v' hv' haccount
    obtain ⟨m', hm', h₁, h₂, h₃, h₄⟩ := hnew v hv
    obtain ⟨n', hn', k₁, k₂, k₃, k₄⟩ := hnew v' hv'
    have heq : m' = n' := Table.eq_of_key hm' hn'
      (Prod.ext (h₁.trans k₁.symm) (h₂.trans (haccount.trans k₂.symm)))
    rw [← h₃, ← h₄, heq, k₃, k₄]
    exact ⟨rfl, rfl⟩
  · intro v hv hne m hm hroster
    obtain ⟨m', hm', h₁, h₂, h₃, -⟩ := hold m hm
    obtain ⟨n', hn', k₁, k₂, k₃, -⟩ := hnew v hv
    have heq : n' = m' := hdistinct n' hn' m' hm' (k₁.trans h₁.symm)
      (k₃.trans (hroster.symm.trans h₃.symm)) (k₃ ▸ hne)
    rw [← h₂, ← k₂, heq]
  · intro v hv hne v' hv' hroster
    obtain ⟨m', hm', h₁, h₂, h₃, -⟩ := hnew v hv
    obtain ⟨n', hn', k₁, k₂, k₃, -⟩ := hnew v' hv'
    have heq : m' = n' := hdistinct m' hm' n' hn' (h₁.trans k₁.symm)
      (h₃.trans (hroster.trans k₃.symm)) (h₃ ▸ hne)
    rw [← h₂, ← k₂, heq]

end Import

/-- A step that imports nothing puts no roster into a second row. -/
theorem RostersDistinct.step_of_none (h : RostersDistinct a.world.db.members.rows)
    (hstep : (backend svc crypto).Step a l b) (hl : ∀ league members,
      applied a l ≠ some (.importLeague league members)) :
    RostersDistinct b.world.db.members.rows := by
  have horigin :
      ∀ m' ∈ b.world.db.members.rows, ∃ m ∈ a.world.db.members.rows, m.SameMember m' := by
    intro m' hm'
    rcases step_member hstep hm' with ⟨m, hm, hmember⟩ | ⟨now, fresh, league, members, himport, -⟩
    · exact ⟨m, hm, sameMember_of_step hmember⟩
    · exact absurd himport (hl league members)
  intro m' hm' n' hn' hleague hroster hne
  obtain ⟨m, hm, hkey, -, hsame, -⟩ := horigin m' hm'
  obtain ⟨n, hn, hkey', -, hsame', -⟩ := horigin n' hn'
  have heq : m = n := by
    refine h m hm n hn ?_ (hsame.symm.trans (hroster.trans hsame')) (hsame ▸ hne)
    exact (congrArg Prod.fst hkey).symm.trans (hleague.trans (congrArg Prod.fst hkey'))
  exact Table.eq_of_key hm' hn' (hkey.trans (heq ▸ hkey'.symm))

/-- A step keeps rosters apart and imports what the platform reports exactly if its import, if
any, moves nothing. -/
theorem step_current_iff (href : References a.world) (h : RostersDistinct a.world.db.members.rows)
    (hstep : (backend svc crypto).Step a l b) :
    (RostersDistinct b.world.db.members.rows ∧ ImportsCurrent a l b) ↔ ImportsKept a l := by
  by_cases himport : ∃ league members, applied a l = some (.importLeague league members)
  · obtain ⟨league, members, hs⟩ := himport
    have hi : (league, members) ∈ imported a l := imported_eq.mpr hs
    rcases step_db hstep with ⟨hnone, -⟩ | ⟨s, hs', now, fresh, r, hfresh, hrun, -, -⟩
    · rw [hs] at hnone
      cases hnone
    · obtain rfl := Option.some.inj (hs'.symm.trans hs)
      have hrows : ∀ m, m ∈ a.world.db.membersBefore league ↔ m ∈ a.world.db.members.rows ∧
          m.leagueID = a.world.db.importID fresh league := fun m => mem_membersBefore href hfresh
      obtain ⟨r', hr', hid⟩ := import_leagueByPlatform hrun
      constructor
      · rintro ⟨hdistinct, hcurrent⟩ i hi'
        obtain rfl := Option.some.inj (hi.symm.trans hi')
        obtain ⟨r'', hr'', hcurrent⟩ := hcurrent _ hi
        obtain rfl := Option.some.inj (hr'.symm.trans hr'')
        rw [hid] at hcurrent
        exact hcurrent.kept hdistinct hrun hrows
      · intro hkept
        refine ⟨h.import_of_kept hrun hrows (hkept _ hi), fun i hi' => ?_⟩
        obtain rfl := Option.some.inj (hi.symm.trans hi')
        refine ⟨r', hr', ?_⟩
        rw [hid]
        exact (hkept _ hi).current h hrun hrows
  · have hnone : ∀ i, i ∉ imported a l := fun i hi => himport ⟨i.1, i.2, imported_eq.mp hi⟩
    constructor
    · exact fun _ i hi => absurd hi (hnone i)
    · refine fun _ =>
        ⟨h.step_of_none hstep fun league members hs => himport ⟨league, members, hs⟩, ?_⟩
      exact fun i hi => absurd hi (hnone i)

/-! ## The result -/

/-- Along every run whose imports move nothing no roster of a league is in two rows. A further step
keeps it so, and leaves the memberships of an import as the platform has reported them, exactly if
it moves nothing either. -/
theorem ownersCurrent_iff (h : Runs svc crypto ImportsKept a) :
    RostersDistinct a.world.db.members.rows ∧ ∀ l b, (backend svc crypto).Step a l b →
      (∀ i ∈ imported a l, a.SomeTrace fun _ trace => Reported trace i.1 i.2) ∧
        ((RostersDistinct b.world.db.members.rows ∧ ImportsCurrent a l b) ↔ ImportsKept a l) := by
  have hinv : RostersDistinct a.world.db.members.rows := by
    induction h with
    | refl => simp [RostersDistinct, initialConfig, Table.empty]
    | tail hrun hlast ih =>
      obtain ⟨l, hl, hstep⟩ := hlast
      exact ((step_current_iff (Runs.references hrun) ih hstep).mpr hl).1
  refine ⟨hinv, fun l b hstep => ⟨fun i hi => ?_, step_current_iff h.references hinv hstep⟩⟩
  exact h.reported hstep (imported_eq.mp hi)

/-- A league is imported, and again when one more member has joined. -/
def memberJoins : Schedule :=
  Schedule.importLeague 0 "u1" "sleeper" (.mock "in_season")
    [.mock "p1" 1 true] Schedule.leagueID ++
    Schedule.importLeague 1 "u1" "sleeper" (.mock "in_season")
      [.mock "p1" 1 true, .mock "p2" 2 false] "f1"

/-- The result at the end of that run, where the league has both members. -/
theorem ownersCurrent_memberJoins : ∃ a, Runs .mock .mock ImportsKept a ∧
    a.world.db.members.rows.length = 2 ∧
    RostersDistinct a.world.db.members.rows ∧ ∀ l b, (backend .mock .mock).Step a l b →
      (∀ i ∈ imported a l, a.SomeTrace fun _ trace => Reported trace i.1 i.2) ∧
        ((RostersDistinct b.world.db.members.rows ∧ ImportsCurrent a l b) ↔ ImportsKept a l) := by
  obtain ⟨a, hrun, htwo⟩ := memberJoins.exists_run .mock .mock ImportsKept
    (fun a => a.world.db.members.rows.length = 2) (by decide)
  exact ⟨a, hrun, htwo, ownersCurrent_iff hrun⟩

/-- A league is imported, a member leaves and another one takes the roster over. -/
def rosterTaken : Schedule :=
  Schedule.importLeague 0 "u1" "sleeper" (.mock "in_season")
      [.mock "p1" 1 true, .mock "p2" 2 false] Schedule.leagueID ++
    Schedule.prepareImport 1 "u1" "sleeper" (.mock "in_season")
      [.mock "p1" 1 true, .mock "p3" 2 false]

/-- The next import leaves two rows with this roster. -/
theorem exists_roster_shared : ∃ a l b, Runs .mock .mock (fun _ _ => True) a ∧
    (backend .mock .mock).Step a l b ∧ (imported a l).isSome = true ∧
      ¬ RostersDistinct b.world.db.members.rows :=
  rosterTaken.exists_step (.call 1 (.succeed 0 "f1")) .mock .mock (fun _ _ => True)
    (fun a l b => (imported a l).isSome = true ∧ ¬ RostersDistinct b.world.db.members.rows)
    (by decide)

end Wagr
