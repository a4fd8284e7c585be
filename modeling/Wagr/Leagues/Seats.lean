import Wagr.Leagues.Owners

/-!
# Where seats and linked accounts come from

A membership keeps the roster and the ownership that the platform has named for its account in the
answer to some import of the league, and a profile links an account that the platform has named
in the answer to a request of its user. The ID of a league stands for one league of the platform,
even after the league is deleted.
-/

namespace Wagr

open Interaction Protocol System Relational

variable {svc : Service} {crypto : Crypto} {a b : BackendConfig} {l : BackendLabel}
  {ok : BackendConfig → BackendLabel → Prop}

/-! ## What is written -/

/-- The platform has named the league and its members to an import. -/
def Imported (trace : List (Sigma Ret)) (league : LeagueValues) (members : List MemberValues) :
    Prop :=
  ∃ requested platformLeague platformMembers rosters,
    (⟨.platformLeague league.platform requested, .ok platformLeague⟩ : Sigma Ret) ∈ trace ∧
    platformLeague.platformLeagueID = league.platformLeagueID ∧
    (⟨.platformMembers league.platform requested, .ok platformMembers⟩ : Sigma Ret) ∈ trace ∧
    members = platformMembers.map (memberValues rosters)

/-- The user has asked to link a name, and the platform has named the account for it. -/
def LinkAnswered (req : Request) (trace : List (Sigma Ret)) (key : String × String × String) :
    Prop :=
  ∃ username user, req = .linkPlatformProfile key.1 ⟨key.2.1, username⟩ ∧
    (⟨.platformUser key.2.1 username, .ok user⟩ : Sigma Ret) ∈ trace ∧
    user.platformUserID = key.2.2

/-- Members and accounts are written as the platform has named them. -/
def platformRule (req : Request) (trace : List (Sigma Ret)) : Call → Prop
  | .exec (.importLeague league members) => Imported trace league members
  | .exec (.upsertProfile p) => LinkAnswered req trace p.key
  | _ => True

/-- The requests that write what the platform has answered. -/
def Request.writesAnswers : Request → Bool
  | .linkPlatformProfile _ _ => true
  | .importLeague _ _ => true
  | _ => false

/-- The other requests write no member and no account. -/
theorem conforms_writesNothing {req : Request} (hreq : req.writesAnswers = false) :
    (history platformRule).Conforms (req, []) ((backend svc crypto).body req) fun _ _ => True := by
  refine (conforms_history ((calls_request req).weaken fun c hc later _ => ?_)).mono
    fun _ _ _ => trivial
  cases c with
  | exec s =>
    cases req with
    | linkPlatformProfile | importLeague => cases hreq
    | _ => cases s <;> trivial
  | _ => trivial

/-- Every request writes what the platform has named. -/
theorem conforms_platform (req : Request) :
    (history platformRule).Conforms (req, []) ((backend svc crypto).body req) fun _ _ => True := by
  cases req with
  | linkPlatformProfile userID linkReq =>
    refine conforms_toDone (conforms_run_bind.mpr (conforms_wrapErr.mpr
      ⟨trivial, fun user => ?_⟩))
    cases user with
    | error e => trivial
    | ok user =>
      refine conforms_wrapErr.mpr
        ⟨⟨linkReq.platformUsername, user, rfl, List.mem_cons_self, rfl⟩, fun _ => trivial⟩
  | importLeague userID importReq =>
    refine conforms_toDone (conforms_run_bind.mpr (conforms_wrapErr.mpr ⟨trivial, fun pl => ?_⟩))
    cases pl with
    | error e => trivial
    | ok pl =>
      refine conforms_run_bind.mpr (conforms_wrapErr.mpr ⟨trivial, fun platformMembers => ?_⟩)
      cases platformMembers with
      | error e => trivial
      | ok platformMembers =>
        refine conforms_run_bind.mpr (conforms_wrapErr.mpr ⟨trivial, fun rosters => ?_⟩)
        cases rosters with
        | error e => trivial
        | ok rosters =>
          refine conforms_wrapErr.mpr ⟨⟨importReq.platformLeagueID, pl, platformMembers, rosters,
            ?_, rfl, ?_, rfl⟩, fun _ => trivial⟩
          · exact List.mem_cons_of_mem _ (List.mem_cons_of_mem _ List.mem_cons_self)
          · exact List.mem_cons_of_mem _ List.mem_cons_self
  | _ => exact conforms_writesNothing rfl

/-! ## Which league an ID stands for -/

/-- The platform and its ID of the league. -/
def LeagueRow.platformKey (r : LeagueRow) : String × String := (r.platform, r.platformLeagueID)

/-- Leagues keep their place on the platform. -/
theorem Statement.LeagueStep.platformKey {now : ℕ} {db : Database} {s : Statement}
    {r r' : LeagueRow} (h : s.LeagueStep now db r r') : r'.platformKey = r.platformKey := by
  rcases h with rfl | h
  · rfl
  · cases s with
    | importLeague =>
      obtain ⟨rfl, -⟩ := h
      rfl
    | updateSettings =>
      obtain ⟨-, rfl⟩ := h
      rfl
    | cancelLeague | reactivateLeague | markSettledWithoutPayout | claimPayout | markPayoutFailed
    | markPayoutExecuted | updateLeagueStatus =>
      obtain ⟨-, -, rfl⟩ := h
      rfl
    | _ => exact h.elim

/-- The ID stands for this league of the platform, and always will. -/
structure StandsFor (w : World) (id : String) (key : String × String) : Prop where
  issued : id ∈ w.issued
  rows : ∀ r ∈ w.db.leagues.rows, r.id = id → r.platformKey = key

/-- The ID of a stored league stands for it. -/
theorem Runs.standsFor (h : Runs svc crypto ok a) {r : LeagueRow}
    (hr : r ∈ a.world.db.leagues.rows) : StandsFor a.world r.id r.platformKey where
  issued := h.references.leagues r hr
  rows r' hr' hid := by rw [Table.eq_of_key hr' hr hid]

/-- An ID that was drawn is not given to another league. -/
theorem StandsFor.step {id : String} {key : String × String} (h : StandsFor a.world id key)
    (hstep : (backend svc crypto).Step a l b) : StandsFor b.world id key where
  issued := step_issued hstep h.issued
  rows r' hr' hid := by
    rcases step_row hstep hr' with ⟨r, hr, rfl | ⟨now, s, -, hleague⟩⟩ |
      ⟨league, now, fresh, rfl, hfresh, -⟩
    · exact h.rows r' hr hid
    · rw [hleague.platformKey]
      exact h.rows r hr (hleague.id.symm.trans hid)
    · have hnew : fresh = id := hid
      exact absurd h.issued (hnew ▸ hfresh)

/-- What an ID stands for in a run. -/
theorem StandsFor.later {id : String} {key : String × String} (h : StandsFor a.world id key)
    (hlater : (backend svc crypto).Reaches ok a b) : StandsFor b.world id key :=
  hlater.invariant (I := fun a => StandsFor a.world id key) h fun hinv _ hstep => hinv.step hstep

/-! ## Seats -/

/-- The platform has named the account, the roster and the ownership to an import of the league. -/
def SeatNamed (trace : List (Sigma Ret)) (key : String × String) (account : String) (rosterID : ℤ)
    (isOwner : Bool) : Prop :=
  ∃ requested platformLeague platformMembers,
    (⟨.platformLeague key.1 requested, .ok platformLeague⟩ : Sigma Ret) ∈ trace ∧
    platformLeague.platformLeagueID = key.2 ∧
    (⟨.platformMembers key.1 requested, .ok platformMembers⟩ : Sigma Ret) ∈ trace ∧
    ∃ pm ∈ platformMembers, pm.platformUserID = account ∧ pm.rosterID = rosterID ∧
      pm.isOwner = isOwner

/-- What was named stays so. -/
theorem SeatNamed.mono {trace later : List (Sigma Ret)} {key : String × String} {account : String}
    {rosterID : ℤ} {isOwner : Bool} (h : SeatNamed trace key account rosterID isOwner)
    (hlater : trace <:+ later) : SeatNamed later key account rosterID isOwner := by
  obtain ⟨requested, platformLeague, platformMembers, hleague, hid, hmembers, hpm⟩ := h
  exact ⟨requested, platformLeague, platformMembers, hlater.subset hleague, hid,
    hlater.subset hmembers, hpm⟩

/-- Every member of an import was named. -/
theorem Imported.seatNamed {trace : List (Sigma Ret)} {league : LeagueValues}
    {members : List MemberValues} (h : Imported trace league members) {v : MemberValues}
    (hv : v ∈ members) : SeatNamed trace (league.platform, league.platformLeagueID)
      v.platformUserID v.rosterID v.isOwner := by
  obtain ⟨requested, platformLeague, platformMembers, rosters, hleague, hid, hmembers, rfl⟩ := h
  obtain ⟨pm, hpm, rfl⟩ := List.mem_map.mp hv
  exact ⟨requested, platformLeague, platformMembers, hleague, hid, hmembers, pm, hpm, rfl, rfl, rfl⟩

/-- The membership is one of the league, on the platform of the league, and was named so. -/
def MemberRow.Seated (a : BackendConfig) (m : MemberRow) (r : LeagueRow) : Prop :=
  m.platform = r.platform ∧ a.SomeTrace fun _ trace =>
    SeatNamed trace r.platformKey m.platformUserID m.rosterID m.isOwner

/-- A seat stays where it is. -/
theorem MemberRow.Seated.step {m m' : MemberRow} {r r' : LeagueRow} (h : m.Seated a r)
    (hstep : (backend svc crypto).Step a l b) (hseat : m'.seat = m.seat)
    (hplatform : m'.platform = m.platform) (hkey : r'.platformKey = r.platformKey) :
    m'.Seated b r' := by
  obtain ⟨-, haccount, hroster, howner⟩ := seat_parts hseat
  have hsame : r'.platform = r.platform := congrArg Prod.fst hkey
  unfold MemberRow.Seated
  rw [hplatform, hsame, hkey, haccount, hroster, howner]
  exact ⟨h.1, hstep.someTrace (fun _ _ _ hnamed => hnamed.mono (List.suffix_cons _ _)) h.2⟩

/-- Every membership in every run is seated in its league. -/
theorem Runs.seated (h : Runs svc crypto ok a) {m : MemberRow} {r : LeagueRow}
    (hm : m ∈ a.world.db.members.rows) (hr : r ∈ a.world.db.leagues.rows)
    (hid : r.id = m.leagueID) : m.Seated a r := by
  induction h generalizing m r with
  | refl => cases hm
  | @tail a b hrun hlast ih =>
    obtain ⟨l, hok, hstep⟩ := hlast
    -- a membership that was there has kept its league
    have hkept : ∀ m₀ ∈ a.world.db.members.rows, m.seat = m₀.seat → m.platform = m₀.platform →
        m.Seated b r := by
      intro m₀ hm₀ hseat hplatform
      obtain ⟨hleague, -⟩ := seat_parts hseat
      rcases step_row hstep hr with ⟨r₀, hr₀, rfl | ⟨now, s, -, hrow⟩⟩ |
        ⟨league, now, fresh, rfl, hfresh, -⟩
      · exact (ih hm₀ hr₀ (hid.trans hleague)).step hstep hseat hplatform rfl
      · exact (ih hm₀ hr₀ (hrow.id.symm.trans (hid.trans hleague))).step hstep hseat hplatform
          hrow.platformKey
      · have hnew : fresh = m₀.leagueID := hid.trans hleague
        exact absurd ((Runs.references hrun).members m₀ hm₀) (hnew ▸ hfresh)
    rcases step_db hstep with ⟨-, hdb, -⟩ | ⟨s, hs, now, fresh, result, -, hresult, -, -⟩
    · exact hkept m (hdb ▸ hm) rfl rfl
    · rcases s.run_members hresult hm with ⟨m₀, hm₀, hmember⟩ |
        ⟨league, members, rfl, v, hv, w, -, -, rfl⟩
      · exact hkept m₀ hm₀ hmember.seat hmember.sameMember.2.1
      · -- the league of a new membership is the one that is imported
        obtain ⟨r₀, hfind, hr₀⟩ := import_leagueByPlatform hresult
        obtain ⟨hmem, hplatform, hplatformID⟩ := leagueByPlatform_some hfind
        obtain rfl : r = r₀ := Table.eq_of_key hr hmem (hid.trans hr₀.symm)
        obtain ⟨i, t, ht, earlier, hsuffix, hallows⟩ :=
          Runs.applied_allowed hrun conforms_platform hstep hs
        rw [history_phase] at hallows
        have hnamed := (hallows.seatNamed hv).mono hsuffix
        have hseated : MemberRow.Seated a
            (w.refresh (v.row (v.rowID fresh) now (a.world.db.importID fresh league)
              league.platform)) r := by
          refine ⟨hplatform.symm, i, t, ht, ?_⟩
          rw [LeagueRow.platformKey, hplatform, hplatformID]
          exact hnamed
        exact hseated.step hstep rfl rfl rfl

/-! ## Linked accounts -/

/-- The user of the profile has asked to link its account. -/
def LinkRequested (a : BackendConfig) (p : ProfileRow) : Prop :=
  a.SomeTrace fun req trace => LinkAnswered req trace p.key

/-- A link that was requested stays so. -/
theorem LinkRequested.step {p p' : ProfileRow} (h : LinkRequested a p)
    (hstep : (backend svc crypto).Step a l b) (hkey : p'.key = p.key) : LinkRequested b p' := by
  unfold LinkRequested
  rw [hkey]
  refine hstep.someTrace ?_ h
  rintro req trace call ⟨username, user, hreq, hanswer, haccount⟩
  exact ⟨username, user, hreq, List.mem_cons_of_mem _ hanswer, haccount⟩

/-- Every profile in every run was requested by its user. -/
theorem Runs.linkRequested (h : Runs svc crypto ok a) {p : ProfileRow}
    (hp : p ∈ a.world.db.profiles.rows) : LinkRequested a p := by
  induction h generalizing p with
  | refl => cases hp
  | @tail a b hrun hlast ih =>
    obtain ⟨l, -, hstep⟩ := hlast
    rcases step_profiles hstep with ⟨f, hf, hrows, -⟩ | ⟨p', hs, -, -, hrows⟩
    · rw [hrows] at hp
      obtain ⟨p₀, hp₀, rfl⟩ := List.mem_map.mp hp
      exact (ih hp₀).step hstep (hf p₀)
    · rw [hrows] at hp
      rcases List.mem_append.mp hp with hp | hp
      · exact (ih hp).step hstep rfl
      · obtain rfl := List.mem_singleton.mp hp
        obtain ⟨i, t, ht, earlier, hsuffix, hallows⟩ :=
          Runs.applied_allowed hrun conforms_platform hstep hs
        rw [history_phase] at hallows
        obtain ⟨username, user, hreq, hanswer, haccount⟩ := hallows
        have hrequested : LinkRequested a p :=
          ⟨i, t, ht, username, user, hreq, hsuffix.subset hanswer, haccount⟩
        exact hrequested.step hstep rfl

end Wagr
