import Wagr.Library.History
import Wagr.Service.Rows
import Wagr.Service.Scenario

/-!
# Deleting a league

A user who leaves a league takes it along if nobody linked is left. The check and the deletion are
two statements, so a member who is linked between them goes with the league, and an error after the
first statement leaves the membership removed. In all other runs deletions are atomic.
-/

namespace Wagr

open Interaction Protocol Relational System

variable {svc : Service} {crypto : Crypto} {a b : BackendConfig} {l : BackendLabel}
  {ok : BackendConfig → BackendLabel → Prop} {leagueID userID : String}

/-! ## The calls of a deletion -/

/-- What `DeleteLeague` may call next. -/
inductive DeletionCall (leagueID userID : String) : List (Sigma Ret) → Call → Prop
  | remove : DeletionCall leagueID userID [] (.exec (.deleteMembership leagueID userID))
  | count {n : ℕ} (hn : n ≠ 0) : DeletionCall leagueID userID
      [⟨.exec (.deleteMembership leagueID userID), .ok n⟩] (.query (.linkedMembers leagueID))
  | delete {n : ℕ} (hn : n ≠ 0) : DeletionCall leagueID userID
      [⟨.query (.linkedMembers leagueID), .ok (0 : ℕ)⟩,
        ⟨.exec (.deleteMembership leagueID userID), .ok n⟩] (.exec (.deleteLeague leagueID))

/-- What `DeleteLeague` may return. -/
inductive DeletionResult (leagueID userID : String) :
    List (Sigma Ret) → Except GoError Response → Prop
  | notRemoved (e err : GoError) : DeletionResult leagueID userID
      [⟨.exec (.deleteMembership leagueID userID), .error e⟩] (.error err)
  | noMember (err : GoError) : DeletionResult leagueID userID
      [⟨.exec (.deleteMembership leagueID userID), .ok (0 : ℕ)⟩] (.error err)
  | notCounted {n : ℕ} (hn : n ≠ 0) (e err : GoError) : DeletionResult leagueID userID
      [⟨.query (.linkedMembers leagueID), .error e⟩,
        ⟨.exec (.deleteMembership leagueID userID), .ok n⟩] (.error err)
  | kept {n k : ℕ} (hk : k ≠ 0) (resp : Response) : DeletionResult leagueID userID
      [⟨.query (.linkedMembers leagueID), .ok k⟩,
        ⟨.exec (.deleteMembership leagueID userID), .ok n⟩] (.ok resp)
  | notDeleted {n : ℕ} (hn : n ≠ 0) (e err : GoError) : DeletionResult leagueID userID
      [⟨.exec (.deleteLeague leagueID), .error e⟩, ⟨.query (.linkedMembers leagueID), .ok (0 : ℕ)⟩,
        ⟨.exec (.deleteMembership leagueID userID), .ok n⟩] (.error err)
  | deleted {n k : ℕ} (resp : Response) : DeletionResult leagueID userID
      [⟨.exec (.deleteLeague leagueID), .ok k⟩, ⟨.query (.linkedMembers leagueID), .ok (0 : ℕ)⟩,
        ⟨.exec (.deleteMembership leagueID userID), .ok n⟩] (.ok resp)

/-- Deletions make their calls in order, and other requests their own. -/
def deletionRule (req : Request) (trace : List (Sigma Ret)) (c : Call) : Prop :=
  match req with
  | .deleteLeague leagueID userID => DeletionCall leagueID userID trace c
  | req => req.mayCall c

/-- Deletions return what they may. -/
def deletionResult (req : Request) (φ : Request × List (Sigma Ret))
    (r : Except GoError Response) : Prop :=
  match req with
  | .deleteLeague leagueID userID => DeletionResult leagueID userID φ.2 r
  | _ => True

/-- Every request keeps to the rule. -/
theorem conforms_deletion (req : Request) : (history deletionRule).Conforms (req, [])
    ((backend svc crypto).body req) (deletionResult req) := by
  by_cases hdelete : ∃ leagueID userID, req = .deleteLeague leagueID userID
  · obtain ⟨leagueID, userID, rfl⟩ := hdelete
    refine conforms_run_bind.mpr ?_
    refine conforms_run_bind.mpr (conforms_wrapErr.mpr ⟨.remove, fun n => ?_⟩)
    cases n with
    | error e => exact .notRemoved e _
    | ok n =>
      refine conforms_run_ite.mpr ⟨?_, fun hn => ?_⟩
      · rintro rfl
        exact .noMember _
      refine conforms_run_bind.mpr (conforms_wrapErr.mpr ⟨.count hn, fun k => ?_⟩)
      cases k with
      | error e => exact .notCounted hn e _
      | ok k =>
        refine conforms_run_ite.mpr ⟨?_, fun hk => .kept hk _⟩
        rintro rfl
        refine conforms_run_bind.mpr (conforms_wrapErr.mpr ⟨.delete hn, fun d => ?_⟩)
        cases d with
        | error e => exact .notDeleted hn e _
        | ok d => exact .deleted _
  · have hrule : ∀ trace c, req.mayCall c → deletionRule req trace c := by
      cases req with
      | deleteLeague leagueID userID => exact absurd ⟨leagueID, userID, rfl⟩ hdelete
      | _ => exact fun _ _ hc => hc
    have hresult : ∀ φ r, deletionResult req φ r := by
      cases req with
      | deleteLeague leagueID userID => exact absurd ⟨leagueID, userID, rfl⟩ hdelete
      | _ => exact fun _ _ => trivial
    exact (conforms_history ((calls_request req).weaken fun c hc later _ => hrule later c hc)).mono
      fun φ r _ => hresult φ r

/-- The call ends a deletion with an error after its first statement. -/
def failsDeletion : Sigma Ret → Bool
  | ⟨.query (.linkedMembers _), .error _⟩ => true
  | ⟨.exec (.deleteLeague _), .error _⟩ => true
  | _ => false

/-- The step ends a deletion with an error after its first statement. -/
def endsDeletion : BackendLabel → Bool
  | .call _ c r => failsDeletion ⟨c, r⟩
  | _ => false

/-- The thread is about to delete a league. -/
def Deleting (leagueID : String) (t : BackendThread) : Prop :=
  t.stopped = false ∧ ∃ next, t.rest = .call (.exec (.deleteLeague leagueID)) next

section Threads

variable {i : ℕ} {t : BackendThread}

/-- A thread that calls keeps to the rule. -/
theorem Runs.deletionCall (h : Runs svc crypto ok a) (ht : a.threads[i]? = some t) {c : Call}
    {next : Ret c → Job (Except GoError Response)} (hrest : t.rest = .call c next) :
    deletionRule t.job t.trace c := by
  have hfollows := follows_of_reaches h conforms_deletion (by simp [initialConfig]) i t ht
  have hallows := hfollows.allows hrest
  rwa [phaseOf, history_phase] at hallows

/-- A thread of a deletion that has returned has done so with one of its results. -/
theorem Runs.deletionResult (h : Runs svc crypto ok a) (ht : a.threads[i]? = some t)
    (hjob : t.job = .deleteLeague leagueID userID) {x : Except GoError Response}
    (hrest : t.rest = .done x) : DeletionResult leagueID userID t.trace x := by
  have hfollows := follows_of_reaches h conforms_deletion (by simp [initialConfig]) i t ht
  have hresult := hfollows.result hrest
  rw [phaseOf, history_phase, hjob] at hresult
  exact hresult

/-- What is called before the count and the deletion of a league. -/
theorem deletionRule_exec {req : Request} {trace : List (Sigma Ret)}
    (h : deletionRule req trace (.exec (.deleteLeague leagueID))) :
    ∃ (userID : String) (n : ℕ), req = .deleteLeague leagueID userID ∧ n ≠ 0 ∧
      trace = [⟨.query (.linkedMembers leagueID), .ok (0 : ℕ)⟩,
        ⟨.exec (.deleteMembership leagueID userID), .ok n⟩] := by
  cases req with
  | deleteLeague leagueID' userID =>
    cases h with
    | delete hn => exact ⟨userID, _, rfl, hn, rfl⟩
  | _ => exact h.elim

theorem deletionRule_query {req : Request} {trace : List (Sigma Ret)}
    (h : deletionRule req trace (.query (.linkedMembers leagueID))) :
    ∃ (userID : String) (n : ℕ), req = .deleteLeague leagueID userID ∧ n ≠ 0 ∧
      trace = [⟨.exec (.deleteMembership leagueID userID), .ok n⟩] := by
  cases req with
  | deleteLeague leagueID' userID =>
    cases h with
    | count hn => exact ⟨userID, _, rfl, hn, rfl⟩
  | _ => exact h.elim

end Threads

/-! ## Linked leagues -/

/-- Some membership of the league is linked to a user. -/
def Database.Linked (db : Database) (leagueID : String) : Prop :=
  ∃ m ∈ db.members.rows, m.leagueID = leagueID ∧ ∃ p ∈ db.profiles.rows, m.joins p = true

/-- The count is zero exactly if the league is not linked. -/
theorem linkedMembers_zero {db : Database} :
    (Query.linkedMembers leagueID).Answers db (0 : ℕ) ↔ ¬ db.Linked leagueID := by
  constructor
  · rintro hzero ⟨m, hm, hleague, p, hp, hjoins⟩
    have hmem : p ∈ (db.members.rows.filter fun m => m.leagueID = leagueID).flatMap fun m =>
        db.profiles.rows.filter m.joins :=
      List.mem_flatMap.mpr ⟨m, by simp [hm, hleague], List.mem_filter.mpr ⟨hp, hjoins⟩⟩
    rw [List.eq_nil_of_length_eq_zero hzero.symm] at hmem
    cases hmem
  · intro hnone
    refine (List.length_eq_zero_iff.mpr (List.flatMap_eq_nil_iff.mpr fun m hm => ?_)).symm
    obtain ⟨hm, hleague⟩ := List.mem_filter.mp hm
    refine List.filter_eq_nil_iff.mpr fun p hp hjoins => hnone ⟨m, hm, ?_, p, hp, hjoins⟩
    exact of_decide_eq_true hleague

/-- The statement links a membership of the league: the profile of a member, or a new member with a
profile. -/
def Statement.links (db : Database) (leagueID : String) : Statement → Prop
  | .upsertProfile p => ∃ m ∈ db.members.rows, m.leagueID = leagueID ∧ m.joins p = true
  | .importLeague league members =>
    (∃ r ∈ db.leagueByPlatform league.platform league.platformLeagueID, r.id = leagueID) ∧
      ∃ v ∈ members, (leagueID, v.platformUserID) ∉ db.members.rows.map MemberRow.key ∧
        ∃ p ∈ db.profiles.rows, p.platform = league.platform ∧ p.platformUserID = v.platformUserID
  | _ => False

/-- Accounts decide what is joined. -/
theorem joins_congr {m m' : MemberRow} {p p' : ProfileRow} (hm : m.SameMember m')
    (hp : p'.key = p.key) : m'.joins p' = m.joins p := by
  obtain ⟨hkey, hplatform, -, -⟩ := hm
  simp only [MemberRow.key, ProfileRow.key, Prod.mk.injEq] at hkey hp
  simp [MemberRow.joins, hkey, hplatform, hp]

/-- A statement that links a league leaves it linked. -/
theorem linked_of_links {s : Statement} (hstep : (backend svc crypto).Step a l b)
    (hs : applied a l = some s) (hlinks : s.links a.world.db leagueID) :
    b.world.db.Linked leagueID := by
  rcases step_db hstep with ⟨hnone, -, -⟩ | ⟨s', hs', now, fresh, r, -, hrun, -, -⟩
  · rw [hs] at hnone
    cases hnone
  obtain rfl : s = s' := Option.some.inj (hs.symm.trans hs')
  cases s with
  | upsertProfile p =>
    obtain ⟨m, hm, hleague, hjoins⟩ := hlinks
    have hmembers : b.world.db.members = a.world.db.members := by
      simp only [Statement.run] at hrun
      split at hrun
      · obtain ⟨-, hdb⟩ := Prod.mk.inj (Option.some.inj hrun)
        rw [← hdb]
      · cases hrun
    obtain ⟨p', hp', hkey⟩ : ∃ p' ∈ b.world.db.profiles.rows, p'.key = p.key := by
      rcases Statement.run_profiles hrun with ⟨f, hf, hrows, hold⟩ | ⟨p₁, heq, -, -, hrows⟩
      · obtain ⟨p₀, hp₀, hkey⟩ := List.mem_map.mp (hold p rfl)
        exact ⟨f p₀, hrows ▸ List.mem_map_of_mem hp₀, (hf p₀).trans hkey⟩
      · cases heq
        exact ⟨p, by simp [hrows], rfl⟩
    refine ⟨m, hmembers ▸ hm, hleague, p', hp', ?_⟩
    rw [joins_congr ⟨rfl, rfl, rfl, rfl⟩ hkey]
    exact hjoins
  | importLeague league members =>
    obtain ⟨⟨r₀, hr₀, rfl⟩, v, hv, hnew, p, hp, hplatform, haccount⟩ := hlinks
    have hid : a.world.db.importID fresh league = r₀.id := by
      rw [Database.importID, hr₀]
      rfl
    have hkey : ∃ m ∈ b.world.db.members.rows, m.key = (r₀.id, v.platformUserID) := by
      obtain ⟨l₀, mid, hupsert, hdb⟩ := import_run hrun
      rw [hdb, ← hid, ← upsertLeague_id hupsert]
      exact foldl_upsertMember_key hv
    obtain ⟨m, hm, hkey⟩ := hkey
    rcases Statement.run_members hrun hm with ⟨m₀, hm₀, hmember⟩ |
      ⟨league', members', heq, v', -, w, -, -, rfl⟩
    · exact absurd (List.mem_map.mpr ⟨m₀, hm₀, hmember.sameMember.1.symm.trans hkey⟩) hnew
    · cases heq
      refine ⟨_, hm, congrArg Prod.fst hkey, p, ?_, ?_⟩
      · rw [import_frame hrun]
        exact hp
      · have haccount' : v'.platformUserID = v.platformUserID := congrArg Prod.snd hkey
        simp [MemberRow.joins, haccount', hplatform, haccount, MemberValues.refresh,
          MemberValues.row]
  | _ => exact hlinks.elim

/-- Nothing else links a league. -/
theorem not_linked_step (hstep : (backend svc crypto).Step a l b)
    (hissued : leagueID ∈ a.world.issued) (hnot : ¬ a.world.db.Linked leagueID)
    (hlinks : ∀ s, applied a l = some s → ¬ s.links a.world.db leagueID) :
    ¬ b.world.db.Linked leagueID := by
  rintro ⟨m', hm', hleague, p', hp', hjoins⟩
  have hprofile : (∃ p ∈ a.world.db.profiles.rows, p'.key = p.key) ∨
      applied a l = some (.upsertProfile p') := by
    rcases step_profiles hstep with ⟨f, hf, hrows, -⟩ | ⟨p, hs, -, -, hrows⟩
    · obtain ⟨p, hp, rfl⟩ := List.mem_map.mp (hrows ▸ hp')
      exact .inl ⟨p, hp, hf p⟩
    · rcases List.mem_append.mp (hrows ▸ hp') with hp | hp
      · exact .inl ⟨p', hp, rfl⟩
      · obtain rfl := List.mem_singleton.mp hp
        exact .inr hs
  rcases step_member hstep hm' with ⟨m, hm, hmember⟩ |
    ⟨now, fresh, league, members, hs, hfresh, -, v, hv, w, -, hnew, rfl⟩
  · have hsame := sameMember_of_step hmember
    have hleague' : m.leagueID = leagueID := (congrArg Prod.fst hsame.1).symm.trans hleague
    rcases hprofile with ⟨p, hp, hkey⟩ | hs
    · exact hnot ⟨m, hm, hleague', p, hp, joins_congr hsame hkey ▸ hjoins⟩
    · exact hlinks _ hs ⟨m, hm, hleague', joins_congr hsame rfl ▸ hjoins⟩
  · obtain ⟨p, hp, hkey⟩ : ∃ p ∈ a.world.db.profiles.rows, p'.key = p.key := by
      rcases hprofile with hprofile | hs'
      · exact hprofile
      · cases hs.symm.trans hs'
    have hid : a.world.db.importID fresh league = leagueID := hleague
    rw [hid] at hnew
    refine hlinks _ hs ⟨?_, v, hv, hnew, p, hp, ?_⟩
    · unfold Database.importID at hid
      cases hfound : a.world.db.leagueByPlatform league.platform league.platformLeagueID with
      | none =>
        rw [hfound] at hid
        have heq : fresh = leagueID := hid
        exact absurd (heq ▸ hissued) hfresh
      | some r =>
        rw [hfound] at hid
        exact ⟨r, rfl, hid⟩
    · simp only [MemberRow.joins, Bool.and_eq_true, decide_eq_true_eq] at hjoins
      simp only [ProfileRow.key, Prod.mk.injEq] at hkey
      exact ⟨hkey.2.1.symm.trans hjoins.1.symm, hkey.2.2.symm.trans hjoins.2.symm⟩

/-! ## Atomic deletions -/

/-- A league that the step deletes is not linked. -/
def DeletesUnlinked (a b : BackendConfig) : Prop :=
  ∀ r ∈ a.world.db.leagues.rows, r.id ∉ b.world.db.leagues.rows.map LeagueRow.id →
    ¬ a.world.db.Linked r.id

/-- Deletions that have returned an error have removed no membership. -/
def ErrorsRemoveNothing (a : BackendConfig) : Prop :=
  ∀ (i : ℕ) (t : BackendThread), a.threads[i]? = some t → ∀ leagueID userID e,
    t.job = .deleteLeague leagueID userID → t.rest = .done (.error e) →
      ∀ n : ℕ, ⟨.exec (.deleteMembership leagueID userID), .ok n⟩ ∈ t.trace → n = 0

/-- A removal of memberships that was reported as failed removes none later. -/
def LateRemovesNothing (a : BackendConfig) (l : BackendLabel) (b : BackendConfig) : Prop :=
  ∀ k now fresh leagueID userID, l = .env (.land k now fresh) →
    a.world.inFlight[k]? = some (.deleteMembership leagueID userID) →
      b.world.db.members.rows = a.world.db.members.rows

/-- After the step no linked league can be deleted, and no error has removed a membership. -/
structure DeletesAtomically (svc : Service) (crypto : Crypto) (a : BackendConfig) (l : BackendLabel)
    (b : BackendConfig) : Prop where
  unlinked : ∀ l' c, (backend svc crypto).Step b l' c → DeletesUnlinked b c
  errors : ErrorsRemoveNothing b
  late : LateRemovesNothing a l b

/-- No count and no deletion of a league fails, no statement links a league that a thread is about
to delete, and no failed removal finds a membership later. -/
structure LeavesDeletions (a : BackendConfig) (l : BackendLabel) : Prop where
  answered : ∀ i c r, l = .call i c r → failsDeletion ⟨c, r⟩ = false
  linksNone : ∀ s, applied a l = some s → ∀ (i : ℕ) (t : BackendThread) leagueID,
    a.threads[i]? = some t → Deleting leagueID t → ¬ s.links a.world.db leagueID
  landsNone : ∀ k now fresh leagueID userID, l = .env (.land k now fresh) →
    a.world.inFlight[k]? = some (.deleteMembership leagueID userID) →
      ∀ m ∈ a.world.db.members.rows, a.world.db.membershipOf leagueID userID m = false

/-- What holds while all steps leave deletions alone. -/
structure UnlinkedDeletions (a : BackendConfig) : Prop where
  noneInFlight : ∀ leagueID, .deleteLeague leagueID ∉ a.world.inFlight
  unlinked : ∀ (i : ℕ) (t : BackendThread) leagueID, a.threads[i]? = some t →
    Deleting leagueID t → ¬ a.world.db.Linked leagueID
  answered : ∀ (i : ℕ) (t : BackendThread), a.threads[i]? = some t →
    ∀ call ∈ t.trace, failsDeletion call = false

/-- A thread that is about to delete a league has removed a membership and counted none. -/
theorem Runs.deleting (h : Runs svc crypto ok a) {i : ℕ} {t : BackendThread}
    (ht : a.threads[i]? = some t) (hd : Deleting leagueID t) :
    ∃ (userID : String) (n : ℕ), t.job = .deleteLeague leagueID userID ∧ n ≠ 0 ∧
      t.trace = [⟨.query (.linkedMembers leagueID), .ok (0 : ℕ)⟩,
        ⟨.exec (.deleteMembership leagueID userID), .ok n⟩] := by
  obtain ⟨-, next, hrest⟩ := hd
  exact deletionRule_exec (h.deletionCall ht hrest)

/-- The ID of a league whose membership was removed has been drawn. -/
theorem Runs.removed_issued (h : Runs svc crypto ok a) {i : ℕ} {t : BackendThread}
    (ht : a.threads[i]? = some t) {n : ℕ} (hn : n ≠ 0)
    (hcall : ⟨.exec (.deleteMembership leagueID userID), .ok n⟩ ∈ t.trace) :
    leagueID ∈ a.world.issued := by
  refine Reaches.answered (T := fun a _ _ call => ∀ n : ℕ, n ≠ 0 →
    call = ⟨.exec (.deleteMembership leagueID userID), .ok n⟩ → leagueID ∈ a.world.issued)
    h rfl ?_ ?_ ht hcall n hn rfl
  · exact fun hstep _ _ _ hold n hn heq => step_issued hstep (hold n hn heq)
  · rintro b c i t q r next hrun - hstep - - n hn heq
    refine step_issued hstep ?_
    cases heq
    cases hstep with
    | call _ _ _ hw =>
      obtain ⟨now, fresh, db, -, hremove, -⟩ := hw
      obtain ⟨hcount, -⟩ := Prod.mk.inj (Option.some.inj hremove)
      have hpos : 0 < b.world.db.members.count (b.world.db.membershipOf leagueID userID) := by
        rw [hcount]
        omega
      obtain ⟨m, hm, hmembership⟩ := Table.count_pos.mp hpos
      have hleague : m.leagueID = leagueID := by
        simp only [Database.membershipOf, Bool.and_eq_true, decide_eq_true_eq] at hmembership
        exact hmembership.1
      exact hleague ▸ (Runs.references hrun).members m hm

/-- Only its deletion makes a league disappear. -/
theorem applied_deleteLeague (hstep : (backend svc crypto).Step a l b) {r : LeagueRow}
    (hr : r ∈ a.world.db.leagues.rows) (hgone : r.id ∉ b.world.db.leagues.rows.map LeagueRow.id) :
    applied a l = some (.deleteLeague r.id) := by
  rcases step_db hstep with ⟨-, hdb, -⟩ | ⟨s, hs, now, fresh, result, -, hrun, -, -⟩
  · exact absurd (List.mem_map_of_mem (hdb ▸ hr)) hgone
  · rcases s.run_keepsLeague hrun hr with rfl | ⟨r', hr', hid⟩
    · exact hs
    · exact absurd (List.mem_map.mpr ⟨r', hr', hid⟩) hgone

/-- The invariant holds at the start. -/
theorem unlinkedDeletions_initial : UnlinkedDeletions initialConfig := by
  constructor <;> simp [initialConfig]

/-- Steps that leave deletions alone keep the invariant. -/
theorem UnlinkedDeletions.step (hinv : UnlinkedDeletions a) (h : Runs svc crypto ok a)
    (hstep : (backend svc crypto).Step a l b) (hl : LeavesDeletions a l) : UnlinkedDeletions b := by
  constructor
  · intro leagueID hmem
    rcases step_inFlight hstep hmem with hold | ⟨i, e, rfl⟩
    · exact hinv.noneInFlight leagueID hold
    · cases hl.answered i _ _ rfl
  · intro i t' leagueID ht' hd
    have hb : Runs svc crypto (fun _ _ => True) b :=
      (h.mono fun _ _ _ => trivial).step trivial hstep
    obtain ⟨userID, n, hjob, hn, htrace⟩ := hb.deleting ht' hd
    rcases hstep.thread_cases ht' with ⟨j, -, rfl⟩ | ⟨hbefore, -⟩ | ⟨t, -, -, rfl⟩ |
      ⟨t, c, r, next, rfl, ht, -, -, hw, rfl⟩
    · cases htrace
    · have hcall : ⟨.exec (.deleteMembership leagueID userID), .ok n⟩ ∈ t'.trace := by simp [htrace]
      have hissued := h.removed_issued hbefore hn hcall
      refine not_linked_step hstep hissued (hinv.unlinked i t' leagueID hbefore hd) ?_
      exact fun s hs => hl.linksNone s hs i t' leagueID hbefore hd
    · cases hd.1
    · obtain ⟨hcall, -⟩ := List.cons.inj htrace
      cases hcall
      obtain ⟨hworld, hanswers⟩ := hw
      rw [hworld]
      exact linkedMembers_zero.mp hanswers
  · intro i t' ht'
    rcases hstep.thread_cases ht' with ⟨j, -, rfl⟩ | ⟨hbefore, -⟩ | ⟨t, -, ht, rfl⟩ |
      ⟨t, c, r, next, rfl, ht, -, -, -, rfl⟩
    · exact fun call hcall => by cases hcall
    · exact hinv.answered i t' hbefore
    · exact hinv.answered i t ht
    · exact List.forall_mem_cons.mpr ⟨hl.answered i c r rfl, hinv.answered i t ht⟩

/-- The invariant holds in every run whose steps leave deletions alone. -/
theorem Runs.unlinkedDeletions (h : Runs svc crypto LeavesDeletions a) : UnlinkedDeletions a := by
  induction h with
  | refl => exact unlinkedDeletions_initial
  | tail hrun hlast ih =>
    obtain ⟨l, hl, hstep⟩ := hlast
    exact ih.step hrun hstep hl

/-- Under the invariant only leagues without linked memberships can be deleted. -/
theorem UnlinkedDeletions.deletesUnlinked (hinv : UnlinkedDeletions a)
    (hstep : (backend svc crypto).Step a l b) : DeletesUnlinked a b := by
  intro r hr hgone
  have happlied := applied_deleteLeague hstep hr hgone
  cases hstep with
  | spawn j => cases happlied
  | stop ht => cases happlied
  | @call i t c next result w ht hrest hrun hw =>
    cases c with
    | exec s =>
      cases result with
      | error e => cases happlied
      | ok n =>
        cases happlied
        exact hinv.unlinked i t r.id ht ⟨hrun, next, hrest⟩
    | _ => cases happlied
  | @env e w hw =>
    cases e with
    | land k now fresh =>
      exact absurd (List.mem_of_getElem? happlied) (hinv.noneInFlight r.id)
    | _ => cases happlied

/-- Under the invariant errors remove nothing. -/
theorem UnlinkedDeletions.errorsRemoveNothing (hinv : UnlinkedDeletions a)
    (h : Runs svc crypto ok a) : ErrorsRemoveNothing a := by
  intro i t ht leagueID userID e hjob hrest n hcall
  have hanswered := hinv.answered i t ht
  generalize htrace : t.trace = trace at hcall hanswered
  have hresult := h.deletionResult ht hjob hrest
  rw [htrace] at hresult
  cases hresult with
  | notRemoved e' => simp at hcall
  | noMember =>
    cases List.mem_singleton.mp hcall
    rfl
  | notCounted hn e' =>
    have hfails := hanswered _ List.mem_cons_self
    cases hfails
  | notDeleted hn e' =>
    have hfails := hanswered _ List.mem_cons_self
    cases hfails

/-- A removal that takes effect deletes the memberships of the user in the league. -/
theorem members_of_removal (hstep : (backend svc crypto).Step a l b)
    (hs : applied a l = some (.deleteMembership leagueID userID)) : b.world.db.members =
      a.world.db.members.deleteWhere (a.world.db.membershipOf leagueID userID) := by
  rcases step_db hstep with ⟨hnone, -, -⟩ | ⟨s, hs', now, fresh, result, -, hrun, -, -⟩
  · rw [hs] at hnone
    cases hnone
  · obtain rfl := Option.some.inj (hs.symm.trans hs')
    obtain ⟨-, hdb⟩ := Prod.mk.inj (Option.some.inj hrun)
    rw [← hdb]

/-- A removal that finds no membership removes none. -/
theorem LeavesDeletions.lateRemovesNothing (hl : LeavesDeletions a l)
    (hstep : (backend svc crypto).Step a l b) : LateRemovesNothing a l b := by
  rintro k now fresh leagueID userID rfl hflight
  rw [members_of_removal hstep hflight]
  refine List.filter_eq_self.mpr fun m hm => ?_
  rw [hl.landsNone k now fresh leagueID userID rfl hflight m hm]
  rfl

/-- A removal that removes none has found none. -/
theorem LateRemovesNothing.landsNone (h : LateRemovesNothing a l b)
    (hstep : (backend svc crypto).Step a l b) {k now : ℕ} {fresh : String}
    (hl : l = .env (.land k now fresh))
    (hflight : a.world.inFlight[k]? = some (.deleteMembership leagueID userID)) :
    ∀ m ∈ a.world.db.members.rows, a.world.db.membershipOf leagueID userID m = false := by
  intro m hm
  have hs : applied a l = some (.deleteMembership leagueID userID) := by rw [hl]; exact hflight
  rw [← h k now fresh leagueID userID hl hflight, members_of_removal hstep hs] at hm
  simpa using (Table.mem_deleteWhere.mp hm).2

/-- A deletion whose count or whose deletion of the league fails returns an error, and the
membership stays removed. -/
theorem not_errorsRemoveNothing (h : Runs svc crypto ok a) {i : ℕ} {c : Call} {r : Ret c}
    (hstep : (backend svc crypto).Step a (.call i c r) b) (hfails : failsDeletion ⟨c, r⟩ = true) :
    ¬ ErrorsRemoveNothing b := by
  intro herrors
  have hb : Runs svc crypto (fun _ _ => True) b := (h.mono fun _ _ _ => trivial).step trivial hstep
  obtain ⟨t, ht, leagueID, userID, n, hjob, hn, htrace⟩ : ∃ t, b.threads[i]? = some t ∧
      ∃ (leagueID userID : String) (n : ℕ), t.job = .deleteLeague leagueID userID ∧ n ≠ 0 ∧
        (∃ e, t.trace = [⟨.query (.linkedMembers leagueID), .error e⟩,
          ⟨.exec (.deleteMembership leagueID userID), .ok n⟩] ∨
        t.trace = [⟨.exec (.deleteLeague leagueID), .error e⟩,
          ⟨.query (.linkedMembers leagueID), .ok (0 : ℕ)⟩,
          ⟨.exec (.deleteMembership leagueID userID), .ok n⟩]) := by
    cases hstep with
    | @call i t c next r w ht hrest hrun hw =>
      have hlt : i < a.threads.length := (List.getElem?_eq_some_iff.mp ht).1
      have hrule := h.deletionCall ht hrest
      refine ⟨t.answer c r next, List.getElem?_set_self hlt, ?_⟩
      unfold failsDeletion at hfails
      split at hfails
      · rename_i leagueID e heq
        cases heq
        obtain ⟨userID, n, hjob, hn, htrace⟩ := deletionRule_query hrule
        exact ⟨leagueID, userID, n, hjob, hn, e, .inl (congrArg (_ :: ·) htrace)⟩
      · rename_i leagueID e heq
        cases heq
        obtain ⟨userID, n, hjob, hn, htrace⟩ := deletionRule_exec hrule
        exact ⟨leagueID, userID, n, hjob, hn, e, .inr (congrArg (_ :: ·) htrace)⟩
      · cases hfails
  obtain ⟨e, htrace⟩ := htrace
  cases hrest : t.rest with
  | call c next =>
    have hrule : DeletionCall leagueID userID t.trace c := by
      have hrule := hb.deletionCall ht hrest
      rwa [hjob] at hrule
    rcases htrace with htrace | htrace
    · rw [htrace] at hrule
      cases hrule
    · rw [htrace] at hrule
      cases hrule
  | done x =>
    have hresult := hb.deletionResult ht hjob hrest
    have hmem : ⟨.exec (.deleteMembership leagueID userID), .ok n⟩ ∈ t.trace := by
      rcases htrace with htrace | htrace
      · simp [htrace]
      · simp [htrace]
    cases x with
    | error e' => exact hn (herrors i t ht leagueID userID e' hjob hrest n hmem)
    | ok resp =>
      rcases htrace with htrace | htrace
      · rw [htrace] at hresult
        cases hresult
      · rw [htrace] at hresult
        cases hresult

/-- If a statement links a league that a thread is about to delete, the thread may delete it
next. -/
theorem exists_deletes_linked (h : Runs svc crypto ok a) (hstep : (backend svc crypto).Step a l b)
    {s : Statement} (hs : applied a l = some s) {i : ℕ} {t : BackendThread}
    (ht : a.threads[i]? = some t) (hd : Deleting leagueID t)
    (hlinks : s.links a.world.db leagueID) :
    ∃ l' c, (backend svc crypto).Step b l' c ∧ ¬ DeletesUnlinked b c := by
  have hb : Runs svc crypto (fun _ _ => True) b := (h.mono fun _ _ _ => trivial).step trivial hstep
  obtain ⟨hrun, next, hrest⟩ := hd
  have hthread : b.threads[i]? = some t := by
    cases hstep with
    | spawn j => cases hs
    | stop _ => cases hs
    | env _ => exact ht
    | @call j u c next' r w hu hrest' _ _ =>
      by_cases hij : j = i
      · subst hij
        obtain rfl : u = t := Option.some.inj (hu.symm.trans ht)
        obtain rfl : c = .exec (.deleteLeague leagueID) := by
          rw [hrest] at hrest'
          cases hrest'
          rfl
        cases r with
        | error e => cases hs
        | ok n =>
          cases hs
          exact hlinks.elim
      · rw [List.getElem?_set_ne hij]
        exact ht
  have hlinked := linked_of_links hstep hs hlinks
  obtain ⟨m, hm, hleague, -⟩ := id hlinked
  obtain ⟨r, hr, hid⟩ := hb.membersHaveLeagues m hm
  obtain ⟨fresh, hfresh⟩ := Infinite.exists_notMem_finset b.world.issued.toFinset
  have hw : (backend svc crypto).handles b.world (.exec (.deleteLeague leagueID))
      (.ok (b.world.db.deleteLeague leagueID).1)
      { b.world with
        db := (b.world.db.deleteLeague leagueID).2
        issued := fresh :: b.world.issued } :=
    ⟨0, fresh, _, by simpa using hfresh, rfl, rfl⟩
  refine ⟨_, _, .call hthread hrest hrun hw, fun hunlinked => ?_⟩
  have hleagueID : r.id = leagueID := hid.trans hleague
  refine hunlinked r hr ?_ (hleagueID ▸ hlinked)
  intro hkept
  obtain ⟨r', hr', hid'⟩ := List.mem_map.mp hkept
  have hother := (Table.mem_deleteWhere.mp hr').2
  simp [hid', hleagueID] at hother

/-- **Deletions are atomic exactly while the other steps leave them alone.** In a run whose steps
all leave deletions alone, every deleted league is unlinked and no error has removed a membership;
and this stays so in a further step exactly if that step leaves deletions alone, too. -/
theorem deletesAtomically_iff (h : Runs svc crypto LeavesDeletions a) :
    (∀ l b, (backend svc crypto).Step a l b → DeletesUnlinked a b) ∧ ErrorsRemoveNothing a ∧
      ∀ l b, (backend svc crypto).Step a l b →
        (DeletesAtomically svc crypto a l b ↔ LeavesDeletions a l) := by
  have hinv := h.unlinkedDeletions
  refine ⟨fun l b hstep => hinv.deletesUnlinked hstep, hinv.errorsRemoveNothing h,
    fun l b hstep => ⟨fun hatomic => ⟨?_, ?_, ?_⟩, fun hl => ?_⟩⟩
  · rintro i c r rfl
    by_contra hfails
    exact not_errorsRemoveNothing h hstep (by simpa using hfails) hatomic.errors
  · intro s hs i t leagueID ht hd hlinks
    obtain ⟨l', c, hnext, hlinked⟩ := exists_deletes_linked h hstep hs ht hd hlinks
    exact hlinked (hatomic.unlinked l' c hnext)
  · exact fun k now fresh leagueID userID heq hflight => hatomic.late.landsNone hstep heq hflight
  · have hinv' := hinv.step h hstep hl
    exact ⟨fun l' c => hinv'.deletesUnlinked, hinv'.errorsRemoveNothing (h.step hl hstep),
      hl.lateRemovesNothing hstep⟩

/-! ## Three runs -/

instance (db : Database) (leagueID : String) : Decidable (db.Linked leagueID) :=
  inferInstanceAs (Decidable (∃ m ∈ db.members.rows, m.leagueID = leagueID ∧
    ∃ p ∈ db.profiles.rows, m.joins p = true))

instance (a b : BackendConfig) : Decidable (DeletesUnlinked a b) :=
  inferInstanceAs (Decidable (∀ r ∈ a.world.db.leagues.rows,
    r.id ∉ b.world.db.leagues.rows.map LeagueRow.id → ¬ a.world.db.Linked r.id))

/-- The call deletes a league. -/
def Call.deletesLeague : Call → Bool
  | .exec (.deleteLeague _) => true
  | _ => false

/-- The next call of the thread deletes a league. -/
def deletesNext (t : BackendThread) : Bool :=
  match t.rest with
  | .call c _ => c.deletesLeague
  | .done _ => false

/-- Nothing fails or lands, and other threads wait while one is about to delete a league. -/
def deletesAlone (a : BackendConfig) : BackendLabel → Bool
  | .call _ c r => !failsDeletion ⟨c, r⟩ && (c.deletesLeague || !a.threads.any deletesNext)
  | .env (.land _ _ _) => false
  | _ => true

/-- Such steps leave deletions alone. -/
theorem leavesDeletions_of_alone (h : deletesAlone a l = true) : LeavesDeletions a l := by
  constructor
  · rintro i c r rfl
    exact (Bool.not_eq_true' _).mp (Bool.and_eq_true_iff.mp h).1
  · rintro s hs i t leagueID ht ⟨-, next, hrest⟩ hlinks
    cases l with
    | call j c r =>
      rcases Bool.or_eq_true_iff.mp (Bool.and_eq_true_iff.mp h).2 with hdeletes | hnone
      · cases c with
        | exec s' =>
          cases s' with
          | deleteLeague leagueID' =>
            cases r with
            | error e => cases hs
            | ok n =>
              cases hs
              exact hlinks
          | _ => cases hdeletes
        | _ => cases hdeletes
      · have hnext : deletesNext t = true := by
          rw [deletesNext, hrest]
          rfl
        have hany := List.any_eq_true.mpr ⟨t, List.mem_of_getElem? ht, hnext⟩
        simp [hany] at hnone
    | env e =>
      cases e with
      | land k now fresh => cases h
      | _ => cases hs
    | _ => cases hs
  · rintro k now fresh leagueID userID rfl
    cases h

/-- A user imports a league with two members and leaves it, up to the count. -/
def leaves : Schedule :=
  Schedule.signUp 0 "0.0.9" "n1" "u1" ++ Schedule.signUp 1 "0.0.8" "n2" "u2" ++
    Schedule.link 2 "u1" "sleeper" (.mock "p1") "f1" ++
    Schedule.importLeague 3 "u1" "sleeper" (.mock "in_season")
      [.mock "p1" 1 true, .mock "p2" 2 false]
      Schedule.leagueID ++
    [.spawn (.deleteLeague Schedule.leagueID "u1"), .call 4 (.succeed 0 "f2")]

/-- The count finds no linked membership. -/
def leavesAlone : Schedule := leaves ++ [.call 4 (.succeed 0 "")]

/-- Then the other member is linked. -/
def linkedLate : Schedule := leavesAlone ++ Schedule.link 5 "u2" "sleeper" (.mock "p2") "f3"

/-- The league is deleted with its last linked membership. -/
theorem deletesAtomically_lastMember : ∃ a l b, Runs .mock .mock LeavesDeletions a ∧
    (backend .mock .mock).Step a l b ∧ a.world.db.leagues.rows ≠ [] ∧
    b.world.db.leagues.rows = [] ∧ DeletesAtomically .mock .mock a l b := by
  obtain ⟨a, l, b, hrun, hstep, hbefore, hafter, halone⟩ :=
    leavesAlone.exists_step (.call 4 (.succeed 0 "f3")) .mock .mock
      (fun a l => deletesAlone a l = true)
      (fun a l b => a.world.db.leagues.rows ≠ [] ∧ b.world.db.leagues.rows = [] ∧
        deletesAlone a l = true) (by decide +kernel)
  have hrun' := hrun.mono fun _ _ => leavesDeletions_of_alone
  exact ⟨a, l, b, hrun', hstep, hbefore, hafter,
    ((deletesAtomically_iff hrun').2.2 l b hstep).mpr (leavesDeletions_of_alone halone)⟩

/-- Deletions are not atomic. A member who is linked after the count goes with the league, and a
count that fails leaves the membership removed. -/
theorem not_deletesAtomically :
    (¬ ∀ a l b, Runs .mock .mock (fun _ _ => True) a → (backend .mock .mock).Step a l b →
      DeletesUnlinked a b) ∧
    ¬ ∀ a, Runs .mock .mock (fun _ _ => True) a → ErrorsRemoveNothing a := by
  constructor
  · obtain ⟨a, l, b, hrun, hstep, hlinked⟩ :=
      linkedLate.exists_step (.call 4 (.succeed 0 "f4")) .mock .mock (fun _ _ => True)
        (fun a _ b => ¬ DeletesUnlinked a b) (by decide +kernel)
    exact fun hall => hlinked (hall a l b hrun hstep)
  · obtain ⟨a, l, b, hrun, hstep, hfails⟩ :=
      leaves.exists_step (.call 4 .fail) .mock .mock (fun _ _ => True)
        (fun _ l _ => endsDeletion l = true) (by decide +kernel)
    intro hall
    cases l with
    | call i c r =>
      exact not_errorsRemoveNothing hrun hstep hfails (hall b (hrun.step trivial hstep))
    | _ => cases hfails

end Wagr
