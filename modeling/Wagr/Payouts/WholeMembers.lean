import Wagr.Accounts.OneUser
import Wagr.Library.History
import Wagr.Payouts.SettlementCourse
import Wagr.Service.Steps
import Wagr.Service.Scenario

/-!
# Member lists that break off

`GetLeagueMembers` reads rows until there are none left and does not ask why, so a stream that
breaks off looks like a short list, and the settlement skips the winners that are missing. If
streams do not break off, a league is paid or closed only after all its members were read.
-/

namespace Wagr

open Interaction Protocol System

variable {svc : Service} {crypto : Crypto} {a b c : BackendConfig} {l : BackendLabel}
  {ok : BackendConfig → BackendLabel → Prop} {req : Request} {trace later : List (Sigma Ret)}
  {leagueID : String}

/-! ## One read -/

/-- The rows that arrive are all rows if the stream ends without an error, or with one after the
last row. -/
theorem RowStream.Delivers.perm_iff {α : Type} {s : RowStream α} {all : List α}
    {sorted : List α → Prop} (h : s.Delivers all sorted) :
    s.rows.Perm all ↔ s.err = none ∨ s.rows.length = all.length := by
  obtain ⟨order, hperm, -, hfront, hwhole⟩ := h
  constructor
  · exact fun hrows => .inr hrows.length_eq
  · rintro (herr | hlength)
    · rw [hwhole herr]
      exact hperm
    · rw [hfront.eq_of_length (hlength.trans hperm.length_eq.symm)]
      exact hperm

/-- What `GetLeagueMembers` makes of the answer to its query. -/
theorem yields_getLeagueMembers {r : Ret (.query (.leagueMembers leagueID))}
    {result : Except GoError (List LeagueMember)} :
    (getLeagueMembers leagueID).run.Yields result [⟨.query (.leagueMembers leagueID), r⟩] ↔
      result = (r.mapError (.wrap "failed to query league members")).map RowStream.rows := by
  change Program.Yields _ (.call (Call.query (.leagueMembers leagueID)) _) _ ↔ _
  constructor
  · intro h
    cases h with
    | call _ h =>
      cases r with
      | ok stream => cases h; rfl
      | error e => cases h; rfl
  · rintro rfl
    refine .call r ?_
    cases r with
    | ok stream => exact .done
    | error e => exact .done

/-- The league and the stream of members that are read in the step. -/
def membersStream : BackendLabel → Option (String × RowStream LeagueMember)
  | .call _ (.query (.leagueMembers leagueID)) (.ok stream) => some (leagueID, stream)
  | _ => none

/-- A stream of members that is read has not failed before its last row. -/
def MembersWhole (a : BackendConfig) (l : BackendLabel) : Prop :=
  ∀ read ∈ membersStream l, read.2.err = none ∨
    read.2.rows.length = (a.world.db.leagueMemberRows read.1).length

instance (a : BackendConfig) (l : BackendLabel) : Decidable (MembersWhole a l) :=
  inferInstanceAs (Decidable (∀ read ∈ membersStream l, read.2.err = none ∨
    read.2.rows.length = (a.world.db.leagueMemberRows read.1).length))

/-- `GetLeagueMembers` returns an error or all members. -/
def MembersOrError (a : BackendConfig) (l : BackendLabel) : Prop :=
  ∀ i leagueID r, l = .call i (.query (.leagueMembers leagueID)) r → ∀ result,
    (getLeagueMembers leagueID).run.Yields result [⟨.query (.leagueMembers leagueID), r⟩] →
      (∃ e, result = .error e) ∨
        ∃ members, result = .ok members ∧ members.Perm (a.world.db.leagueMemberRows leagueID)

/-- The answer to the query for the members. -/
theorem step_leagueMembers {i : ℕ} {stream : RowStream LeagueMember}
    (h : (backend svc crypto).Step a (.call i (.query (.leagueMembers leagueID)) (.ok stream)) b) :
    stream.Delivers (a.world.db.leagueMemberRows leagueID)
      fun order => order.Pairwise fun m m' => m.rosterID ≤ m'.rosterID := by
  cases h with
  | call _ _ _ hw => exact hw.2

/-- A step returns an error or all members exactly if the stream of members is whole. -/
theorem membersOrError_iff (hstep : (backend svc crypto).Step a l b) :
    MembersOrError a l ↔ MembersWhole a l := by
  constructor
  · rintro h ⟨leagueID, stream⟩ hread
    obtain ⟨i, rfl⟩ : ∃ i, l = .call i (.query (.leagueMembers leagueID)) (.ok stream) := by
      unfold membersStream at hread
      split at hread
      · cases hread
        exact ⟨_, rfl⟩
      · cases hread
    rcases h i leagueID (.ok stream) rfl _ (yields_getLeagueMembers.mpr rfl) with
      ⟨e, heq⟩ | ⟨members, heq, hperm⟩
    · cases heq
    · cases heq
      exact (step_leagueMembers hstep).perm_iff.mp hperm
  · rintro h i leagueID r rfl result hresult
    obtain rfl := yields_getLeagueMembers.mp hresult
    cases r with
    | error e => exact .inl ⟨_, rfl⟩
    | ok stream =>
      exact .inr ⟨_, rfl, (step_leagueMembers hstep).perm_iff.mpr (h _ rfl)⟩

/-! ## What a settlement is based on -/

/-- The league that the call claims, pays or marks executed. -/
def Call.closes : Call → Option String
  | .exec (.markSettledWithoutPayout leagueID) => some leagueID
  | .exec (.claimPayout leagueID) => some leagueID
  | .exec (.markPayoutExecuted leagueID _) => some leagueID
  | .contractExecute (.seasonEnd leagueID) _ _ _ => some leagueID
  | _ => none

/-- The league was selected and has no placement entries. -/
def NoPlacements (trace : List (Sigma Ret)) (leagueID : String) : Prop :=
  ∃ selection, (⟨.query .seasonEndLeagues, .ok selection⟩ : Sigma Ret) ∈ trace ∧
    ∃ league ∈ selection.rows.filterMap OracleLeagueRow.load, league.id = leagueID ∧
      league.placementEntries = []

/-- The members of the league were read. -/
def MembersRead (trace : List (Sigma Ret)) (leagueID : String) : Prop :=
  ∃ stream, (⟨.query (.leagueMembers leagueID), .ok stream⟩ : Sigma Ret) ∈ trace

/-- A league is claimed, paid and marked executed after its members were read. One without placement
entries is marked executed at once. -/
def closeRule (_ : Request) (trace : List (Sigma Ret)) (c : Call) : Prop :=
  ∀ leagueID ∈ c.closes, MembersRead trace leagueID ∨
    (c = .exec (.markSettledWithoutPayout leagueID) ∧ NoPlacements trace leagueID)

/-- A call that closes no league is always allowed. -/
theorem closeRule_of_none (req : Request) (trace : List (Sigma Ret)) {c : Call}
    (h : c.closes = none) : closeRule req trace c := by
  intro leagueID hleague
  rw [h] at hleague
  cases hleague

/-- After the members were read, the calls of the settlement are allowed. -/
theorem Call.settles.closeRule {c : Call} (h : c.settles leagueID)
    (hread : MembersRead trace leagueID) :
    closeRule req trace c := by
  intro leagueID' hleague
  obtain rfl : leagueID' = leagueID := by
    cases c with
    | exec s =>
      cases s with
      | markSettledWithoutPayout | claimPayout | markPayoutExecuted =>
        cases hleague
        exact h
      | _ => cases hleague
    | contractExecute purpose key recipients amounts =>
      obtain rfl : purpose = .seasonEnd leagueID := h
      cases hleague
      rfl
    | _ => cases hleague
  exact .inl hread

/-- The settlement of a selected league keeps to the rule. -/
theorem conforms_settle_closeRule {league : OracleLeague} {selection : RowStream OracleLeagueRow}
    (hselected : (⟨.query .seasonEndLeagues, .ok selection⟩ : Sigma Ret) ∈ trace)
    (hleague : league ∈ selection.rows.filterMap OracleLeagueRow.load) :
    (history closeRule).Conforms (req, trace) (processSeasonEndForLeague svc league).run
      fun φ _ => φ.1 = req ∧ trace <:+ φ.2 := by
  have hcalls : Calls (Call.settles league.id) (processSeasonEndForLeague svc league).run :=
    calls_processSeasonEndForLeague
  refine conforms_run_bind.mpr (conforms_wrapErr.mpr (conforms_run_bind.mpr
    ⟨(fun _ h => nomatch h), fun status => ?_⟩))
  cases status with
  | error e => exact ⟨rfl, List.suffix_cons _ _⟩
  | ok status =>
    replace hcalls := (conforms_run_bind.mp (conforms_wrapErr.mp (conforms_run_bind.mp hcalls))).2
      (.ok status)
    refine conforms_run_ite.mpr ⟨fun _ => ⟨rfl, List.suffix_cons _ _⟩, fun hstatus => ?_⟩
    replace hcalls := (conforms_run_ite.mp hcalls).2 hstatus
    refine conforms_run_ite.mpr ⟨fun hentries => ?_, fun hentries => ?_⟩
    · refine conforms_run_bind.mpr (conforms_exec.mpr ⟨?_, fun _ => ?_, fun _ => ?_⟩)
      · rintro leagueID ⟨⟩
        exact .inr ⟨rfl, selection, List.mem_cons_of_mem _ hselected, league, hleague,
          rfl, hentries⟩
      · exact ⟨rfl, (List.suffix_cons _ _).trans (List.suffix_cons _ _)⟩
      · exact ⟨rfl, (List.suffix_cons _ _).trans (List.suffix_cons _ _)⟩
    · replace hcalls := (conforms_run_ite.mp hcalls).2 hentries
      refine conforms_run_bind.mpr (conforms_wrapErr.mpr
        ⟨(fun _ h => nomatch h), fun standings => ?_⟩)
      have hgrow := (List.suffix_cons ⟨.platformLeague league.platform league.platformLeagueID,
        .ok status⟩ trace).trans (List.suffix_cons
          ⟨.finalStandings league.platform league.platformLeagueID, standings⟩ _)
      cases standings with
      | error e => exact ⟨rfl, hgrow⟩
      | ok standings =>
        replace hcalls := (conforms_wrapErr.mp (conforms_run_bind.mp hcalls)).2 (.ok standings)
        refine conforms_run_bind.mpr (conforms_wrapErr.mpr (conforms_run_bind.mpr
          (conforms_wrapErr.mpr (conforms_query.mpr ⟨(fun _ h => nomatch h), fun stream => ?_,
            fun _ => ⟨rfl, hgrow.trans (List.suffix_cons _ _)⟩⟩))))
        have hquery := conforms_wrapErr.mp (conforms_run_bind.mp
          (conforms_wrapErr.mp (conforms_run_bind.mp hcalls)))
        have hrest : Calls (Call.settles league.id) (do
            let resolved ← ExceptT.lift (resolveStandings (seasonEndDeps svc (.seasonEnd league.id))
              league.placementEntries stream.rows standings)
            if resolved.isEmpty then
              (seasonEndDeps svc (.seasonEnd league.id)).markSettledWithoutPayout league.id
            else payResolved (seasonEndDeps svc (.seasonEnd league.id)) league.id resolved :
              Go Unit).run := (conforms_query.mp hquery).2.1 stream
        -- from here on every call closes this league only, and its members were read
        have hread : ∀ later,
            (⟨.query (.leagueMembers league.id), .ok stream⟩ : Sigma Ret) ∈ later →
            ∀ c, c.settles league.id → closeRule req later c :=
          fun later hlater c hc => hc.closeRule ⟨stream, hlater⟩
        exact (conforms_history (hrest.weaken fun c hc later hlater =>
          hread later (hlater.subset List.mem_cons_self) c hc)).mono fun φ _ hφ =>
            ⟨hφ.1, (hgrow.trans (List.suffix_cons _ _)).trans hφ.2⟩

/-- Every request keeps to the rule. -/
theorem conforms_closeRule (req : Request) :
    (history closeRule).Conforms (req, []) ((backend svc crypto).body req) fun _ _ => True := by
  by_cases hreq : req = .runSeasonEndPayoutJob
  · subst hreq
    refine conforms_toDone (conforms_run_ite.mpr ⟨fun _ => ?_, fun _ => trivial⟩)
    refine conforms_run_bind.mpr (conforms_wrapErr.mpr (conforms_query.mpr
      ⟨(fun _ h => nomatch h), fun selection => conforms_run_lift.mpr ?_, fun _ => trivial⟩))
    refine (conforms_forM (I := fun φ : Request × List (Sigma Ret) =>
      (⟨.query .seasonEndLeagues, .ok selection⟩ : Sigma Ret) ∈ φ.2) ?_
        List.mem_cons_self).mono fun _ _ _ => trivial
    rintro league hleague ⟨req, trace⟩ hselected
    exact conforms_bind.mpr ((conforms_settle_closeRule hselected hleague).mono
      fun φ _ h => h.2.subset hselected)
  · have hcalls : Calls (fun c => c.closes = none) ((backend svc crypto).body req) := by
      refine (calls_request req).weaken fun c hc => ?_
      cases c with
      | exec s =>
        cases s with
        | markSettledWithoutPayout | claimPayout | markPayoutExecuted =>
          cases req with
          | runSeasonEndPayoutJob => exact absurd rfl hreq
          | _ => exact hc.elim
        | _ => rfl
      | contractExecute purpose key recipients amounts =>
        cases purpose with
        | seasonEnd leagueID => exact absurd hc hreq
        | weekly leagueID eventIDs => rfl
      | _ => rfl
    exact (conforms_history (hcalls.weaken fun _ hc _ _ =>
      closeRule_of_none _ _ hc)).mono fun _ _ _ => trivial

/-! ## Runs -/

/-- The members were read in the run, and were all the members that the league had then. -/
def ReadWhole (svc : Service) (crypto : Crypto) (a : BackendConfig) (leagueID : String)
    (stream : RowStream LeagueMember) : Prop :=
  ∃ i b c, Runs svc crypto (fun _ _ => True) b ∧
    (backend svc crypto).Step b (.call i (.query (.leagueMembers leagueID)) (.ok stream)) c ∧
    (backend svc crypto).Reaches (fun _ _ => True) c a ∧
    stream.rows.Perm (b.world.db.leagueMemberRows leagueID)

/-- Every league that was claimed, paid or marked executed was so after all its members were read,
unless it has no placement entries. -/
def ClosedOnAllMembers (svc : Service) (crypto : Crypto) (a : BackendConfig) : Prop :=
  ∀ (i : ℕ) (t : BackendThread), a.threads[i]? = some t → ∀ c r earlier,
    (⟨c, r⟩ : Sigma Ret) :: earlier <:+ t.trace → ∀ leagueID ∈ c.closes,
      (MembersRead earlier leagueID ∨
        (c = .exec (.markSettledWithoutPayout leagueID) ∧ NoPlacements earlier leagueID)) ∧
      ∀ stream, (⟨.query (.leagueMembers leagueID), .ok stream⟩ : Sigma Ret) ∈ earlier →
        ReadWhole svc crypto a leagueID stream

/-- Along a run whose streams are whole, every list of members was whole. -/
theorem Runs.readWhole (h : Runs svc crypto MembersWhole a) {i : ℕ} {t : BackendThread}
    (ht : a.threads[i]? = some t) {stream : RowStream LeagueMember}
    (hread : (⟨.query (.leagueMembers leagueID), .ok stream⟩ : Sigma Ret) ∈ t.trace) :
    ReadWhole svc crypto a leagueID stream := by
  refine h.answered (T := fun a _ _ call => ∀ stream : RowStream LeagueMember,
    call = (⟨.query (.leagueMembers leagueID), .ok stream⟩ : Sigma Ret) →
      ReadWhole svc crypto a leagueID stream) rfl ?_ ?_ ht hread stream rfl
  · intro a b l hstep _ _ _ hcall stream heq
    obtain ⟨i, c, d, hrun, hread, hlater, hperm⟩ := hcall stream heq
    exact ⟨i, c, d, hrun, hread, hlater.step trivial hstep, hperm⟩
  · rintro b c i t q r next hrun hwhole hstep - - stream heq
    cases heq
    exact ⟨i, b, c, hrun.mono fun _ _ _ => trivial, hstep, .refl,
      (step_leagueMembers hstep).perm_iff.mpr (hwhole _ rfl)⟩

/-- In every run a league is closed after its members were read, or has no placement entries. -/
theorem Runs.closesRead (h : Runs svc crypto ok a) {i : ℕ} {t : BackendThread}
    (ht : a.threads[i]? = some t) {c : Call} {r : Ret c} {earlier : List (Sigma Ret)}
    (hcall : (⟨c, r⟩ : Sigma Ret) :: earlier <:+ t.trace) : closeRule t.job earlier c := by
  refine trace_of_reaches (T := fun req trace => ∀ c r earlier,
    (⟨c, r⟩ : Sigma Ret) :: earlier <:+ trace → closeRule req earlier c) h rfl conforms_closeRule
      (fun _ _ _ _ hsuffix => by cases List.suffix_nil.mp hsuffix) ?_ ht List.suffix_rfl c r earlier
      hcall
  intro j trace c' r' hallows hold c r earlier hsuffix
  rcases List.suffix_cons_iff.mp hsuffix with heq | hsuffix
  · obtain ⟨hcall, rfl⟩ := List.cons.inj heq
    cases hcall
    rw [history_phase] at hallows
    exact hallows
  · exact hold c r earlier hsuffix

/-- Along every run whose streams of members are whole, a league is claimed, paid and marked
executed only after all its members were read, or if it has no placement entries. In a further step
`GetLeagueMembers` returns an error or all members exactly if its stream is whole. -/
theorem membersWhole_iff (h : Runs svc crypto MembersWhole a) :
    ClosedOnAllMembers svc crypto a ∧ ∀ l b, (backend svc crypto).Step a l b →
      (MembersOrError a l ↔ MembersWhole a l) := by
  refine ⟨fun i t ht c r earlier hcall leagueID hleague => ⟨?_, fun stream hread => ?_⟩,
    fun l b hstep => membersOrError_iff hstep⟩
  · exact h.closesRead ht hcall leagueID hleague
  · exact h.readWhole ht (hcall.subset (List.mem_cons_of_mem _ hread))

/-- The result for a run that claims a league for its only member. -/
theorem membersWhole_claimed : ∃ a, Runs .mock .mock MembersWhole a ∧
    (∃ t ∈ a.threads[4]?, ∃ call ∈ t.trace, call.1.closes = some Schedule.leagueID) ∧
    ClosedOnAllMembers .mock .mock a ∧ ∀ l b, (backend .mock .mock).Step a l b →
      (MembersOrError a l ↔ MembersWhole a l) := by
  obtain ⟨a, hrun, hclosed⟩ := (Schedule.fundedLeague Schedule.firstPlace ++ Schedule.seasonEnd 4 ++
    Schedule.proceed 4 0 ["f3"]).exists_run .mock .mock MembersWhole
      (fun a => ∃ t ∈ a.threads[4]?, ∃ call ∈ t.trace, call.1.closes = some Schedule.leagueID)
      (by decide +kernel)
  exact ⟨a, hrun, hclosed, membersWhole_iff hrun⟩

/-! ## A stream that breaks off -/

/-- How a schedule answers a call, or after how many rows of the members it breaks off. -/
def World.respondBroken (d : Decision ⊕ ℕ) (w : World) (c : Call) : Option (Ret c × World) :=
  match d with
  | .inl d => World.respond d w c
  | .inr n =>
    match c with
    | .query (.leagueMembers leagueID) => (Query.eval w.db (.leagueMembers leagueID)).map fun s =>
        (.ok ⟨s.rows.take n, some World.timeout⟩, w)
    | _ => none

/-- A stream may break off after any of its rows. -/
theorem World.respondBroken_handles {d : Decision ⊕ ℕ} {w w' : World} {c : Call} {r : Ret c}
    (h : World.respondBroken d w c = some (r, w')) : w.handles c r w' := by
  cases d with
  | inl d => exact World.respond_handles h
  | inr n =>
    cases c with
    | query q =>
      cases q with
      | leagueMembers leagueID =>
        simp only [respondBroken] at h
        obtain ⟨s, hs, heq⟩ := Option.map_eq_some_iff.mp h
        cases heq
        have hanswer : Query.Answers w.db (.leagueMembers leagueID) s := Query.eval_answers hs
        obtain ⟨order, hperm, hsorted, hfront, -⟩ := hanswer
        exact ⟨rfl, order, hperm, hsorted, (List.take_prefix _ _).trans hfront, by simp⟩
      | _ => cases h
    | _ => cases h

/-- Thread `i` runs the season-end job up to the query for the members, which is next. -/
def readStandings (i : ℕ) : Schedule :=
  [.spawn .runSeasonEndPayoutJob, .call i (.succeed 0 ""),
    .call i (.reply (.platformLeague "sleeper" "7") (.ok (.mock "complete"))),
    .call i (.reply (.finalStandings "sleeper" "7") (.ok [⟨1, 1⟩]))]

/-- The league was marked executed, and no transaction was sent. -/
def ClosedUnpaid (a : BackendConfig) : Prop :=
  (∃ r ∈ a.world.db.leagues.rows, r.id = Schedule.leagueID ∧ r.payoutStatus = .executed) ∧
    a.world.submissions = []

instance (a : BackendConfig) : Decidable (ClosedUnpaid a) :=
  inferInstanceAs (Decidable ((∃ r ∈ a.world.db.leagues.rows,
    r.id = Schedule.leagueID ∧ r.payoutStatus = .executed) ∧ a.world.submissions = []))

/-- The stream of a league's members fails before the first row. The run then marks the league
executed, and its only member, who has won, is never paid. -/
theorem exists_closed_without_members : ∃ a l b c, Runs .mock .mock (fun _ _ => True) a ∧
    (backend .mock .mock).Step a l b ∧ ¬ MembersOrError a l ∧
    (backend .mock .mock).Reaches (fun _ _ => True) b c ∧
    a.world.db.leagueMemberRows Schedule.leagueID ≠ [] ∧ ClosedUnpaid c := by
  have hreplay : ((Schedule.fundedLeague Schedule.firstPlace ++ readStandings 4).replay .mock .mock
      fun _ _ => true).any (fun a =>
        decide (a.world.db.leagueMemberRows Schedule.leagueID ≠ []) &&
        ((backend .mock .mock).move World.respondBroken (.call 4 (.inr 0)) a).any fun step =>
          !decide (MembersWhole a step.1) &&
          ((backend .mock .mock).replay World.respondBroken (fun _ _ => true)
            [.call 4 (.inl (.succeed 0 "f3"))] step.2).any fun c =>
            decide (ClosedUnpaid c)) = true := by
    decide +kernel
  obtain ⟨a, ha, hread⟩ := (Option.any_eq_true _ _).mp hreplay
  obtain ⟨hmembers, hread⟩ := Bool.and_eq_true_iff.mp hread
  obtain ⟨⟨l, b⟩, hb, hbroken⟩ := (Option.any_eq_true _ _).mp hread
  obtain ⟨hbroken, hclosed⟩ := Bool.and_eq_true_iff.mp hbroken
  obtain ⟨c, hc, hclosed⟩ := (Option.any_eq_true _ _).mp hclosed
  have hstep : (backend .mock .mock).Step a l b := step_of_move World.respondBroken_handles hb
  refine ⟨a, l, b, c, Schedule.reaches (fun _ _ _ => trivial) ha, hstep, ?_,
    reaches_of_replay World.respondBroken_handles (fun _ _ _ => trivial) hc,
    of_decide_eq_true hmembers, of_decide_eq_true hclosed⟩
  rw [membersOrError_iff hstep]
  simpa using hbroken

end Wagr
