import Wagr.Payouts.Once
import Wagr.Payouts.Receipts

/-!
# Interrupted settlements

A league that a settlement has claimed and left in `executing` is never selected again. Once nothing
that is running or in flight can finish the settlement, the league stays as it is: no job sends
another transaction for it, marks it, or records a payout, until somebody deletes it.
-/

namespace Wagr

open Interaction Protocol Relational System

/-- The call sends the season-end transaction of the league, or says how it went. -/
def Call.finishes (leagueID : String) : Call → Prop
  | .contractExecute (.seasonEnd leagueID') _ _ _ => leagueID' = leagueID
  | .exec (.markPayoutFailed leagueID') => leagueID' = leagueID
  | .exec (.markPayoutExecuted leagueID' _) => leagueID' = leagueID
  | _ => False

/-- The thread has won the claim of the league and may go on with its settlement. -/
def MayFinish (leagueID : String) (t : BackendThread) : Prop :=
  seasonPhase leagueID t ≠ .idle ∧ t.stopped = false ∧
    ∃ c, t.rest.MayCall c ∧ c.finishes leagueID

/-- The league was left in `executing`: nothing that is running or in flight can change that. -/
structure Interrupted (leagueID : String) (a : BackendConfig) : Prop where
  issued : leagueID ∈ a.world.issued
  executing : ∀ r ∈ a.world.db.leagues.rows, r.id = leagueID → r.payoutStatus = .executing
  threads : ∀ (i : ℕ) (t : BackendThread), a.threads[i]? = some t → ¬ MayFinish leagueID t
  inFlight : ∀ s ∈ a.world.inFlight, ¬ (Call.exec s).finishes leagueID

variable {svc : Service} {crypto : Crypto} {a b : BackendConfig} {l : BackendLabel}
  {ok : BackendConfig → BackendLabel → Prop} {leagueID : String}

/-! ## Threads -/

/-- Nothing finishes a settlement that was not claimed. -/
theorem phase_of_finishes {φ : SeasonPhase} {c : Call}
    (hallows : (seasonProtocol leagueID).allows φ c) (hc : c.finishes leagueID) : φ ≠ .idle := by
  rintro rfl
  cases c with
  | exec s =>
    cases s with
    | markPayoutFailed | markPayoutExecuted => cases hallows.2 hc
    | _ => exact hc.elim
  | contractExecute purpose key recipients amounts =>
    cases purpose with
    | seasonEnd leagueID' => cases hallows.2 hc
    | weekly leagueID' eventIDs => exact hc.elim
  | _ => exact hc.elim

/-- Only a claim that is won ends the idle phase. -/
theorem phase_after_idle {c : Call} {r : Ret c} (hallows : (seasonProtocol leagueID).allows .idle c)
    (hwins : winsClaim leagueID ⟨c, r⟩ = false) :
    (seasonProtocol leagueID).next .idle c r = .idle := by
  rcases season_next_cases (r := r) hallows with ⟨hwins', -⟩ | ⟨-, -, hclaimed, -⟩ |
    ⟨-, -, resp, hresp, -⟩ | ⟨-, -, -, hnext⟩
  · cases hwins.symm.trans hwins'
  · cases hclaimed
  · cases hresp
  · exact hnext

/-- A running thread makes no call that finishes the settlement. -/
theorem Interrupted.not_finishes (hinv : Interrupted leagueID a) (h : Runs svc crypto ok a) {i : ℕ}
    {t : BackendThread} (ht : a.threads[i]? = some t) {c : Call}
    {next : Ret c → Job (Except GoError Response)} (hrest : t.rest = .call c next)
    (hrun : t.stopped = false) : ¬ c.finishes leagueID := by
  intro hc
  have hallows := (follows_of_reaches h (conforms_seasonProtocol leagueID) (by simp [initialConfig])
    i t ht).allows hrest
  exact hinv.threads i t ht ⟨phase_of_finishes hallows hc, hrun, c, hrest ▸ .here, hc⟩

/-- A step wins no claim of the league. -/
theorem Interrupted.no_claim (hinv : Interrupted leagueID a)
    (hstep : (backend svc crypto).Step a l b) :
    l.counts (winsClaim leagueID) = 0 := by
  by_contra hwins
  obtain ⟨⟨r, hr, hid, hpending⟩, -⟩ := step_winsClaim hstep hwins
  cases hpending.symm.trans (hinv.executing r hr hid)

/-- No thread can finish the settlement after a step either. -/
theorem Interrupted.threads_step (hinv : Interrupted leagueID a) (h : Runs svc crypto ok a)
    (hstep : (backend svc crypto).Step a l b) {i : ℕ} {t' : BackendThread}
    (ht' : b.threads[i]? = some t') : ¬ MayFinish leagueID t' := by
  rintro ⟨hphase, hrun, c', hmay, hfinishes⟩
  rcases hstep.thread_cases ht' with ⟨j, -, rfl⟩ | ⟨ht, -⟩ | ⟨t, -, ht, rfl⟩ |
    ⟨t, c, r, next, rfl, ht, hrest, hrun', -, rfl⟩
  · exact hphase rfl
  · exact hinv.threads i t' ht ⟨hphase, hrun, c', hmay, hfinishes⟩
  · cases hrun
  · have hmay' : t.rest.MayCall c' := hrest ▸ .later not_false r hmay
    by_cases hidle : seasonPhase leagueID t = .idle
    · have hallows := (follows_of_reaches h (conforms_seasonProtocol leagueID)
        (by simp [initialConfig]) i t ht).allows hrest
      have hwins : winsClaim leagueID ⟨c, r⟩ = false := by
        simpa [Label.counts] using hinv.no_claim hstep
      refine hphase ?_
      rw [seasonPhase, phaseOf_answer]
      rw [seasonPhase] at hidle
      rw [hidle] at hallows ⊢
      exact phase_after_idle hallows hwins
    · exact hinv.threads i t ht ⟨hidle, hrun', c', hmay', hfinishes⟩

/-! ## The league -/

/-- Only a call that finishes the settlement of a league ends its being executed. -/
theorem Statement.LeagueStep.executing {now : ℕ} {db : Database} {s : Statement}
    {r r' : LeagueRow} (h : s.LeagueStep now db r r') (hexecuting : r.payoutStatus = .executing) :
    r'.payoutStatus = .executing ∨ (Call.exec s).finishes r.id := by
  rcases h with rfl | h
  · exact .inl hexecuting
  · cases s with
    | importLeague =>
      obtain ⟨rfl, -⟩ := h
      exact .inl hexecuting
    | updateSettings =>
      obtain ⟨-, rfl⟩ := h
      exact .inl hexecuting
    | cancelLeague | reactivateLeague | updateLeagueStatus =>
      obtain ⟨-, -, rfl⟩ := h
      exact .inl hexecuting
    | markSettledWithoutPayout | claimPayout =>
      obtain ⟨-, hpending, -⟩ := h
      cases hpending.symm.trans hexecuting
    | markPayoutFailed | markPayoutExecuted =>
      obtain ⟨rfl, -, -⟩ := h
      exact .inr rfl
    | _ => exact h.elim

/-- No statement that takes effect finishes the settlement. -/
theorem Interrupted.not_applied (hinv : Interrupted leagueID a) (h : Runs svc crypto ok a)
    (hstep : (backend svc crypto).Step a l b) {s : Statement} (hs : applied a l = some s) :
    ¬ (Call.exec s).finishes leagueID := by
  cases hstep with
  | spawn j => cases hs
  | stop ht => cases hs
  | @call i t c next r w ht hrest hrun hw =>
    cases c with
    | exec s' =>
      cases r with
      | ok r =>
        cases hs
        exact hinv.not_finishes h ht hrest hrun
      | error e => cases hs
    | _ => cases hs
  | @env e w hw =>
    cases e with
    | land k now fresh => exact hinv.inFlight s (List.mem_of_getElem? hs)
    | _ => cases hs

/-- An interrupted settlement stays so. -/
theorem Interrupted.step (hinv : Interrupted leagueID a) (h : Runs svc crypto ok a)
    (hstep : (backend svc crypto).Step a l b) : Interrupted leagueID b where
  issued := step_issued hstep hinv.issued
  executing r' hr' hid := by
    rcases step_row hstep hr' with ⟨r, hr, rfl | ⟨now, s, hs, hleague⟩⟩ |
      ⟨league, now, fresh, rfl, hfresh, -⟩
    · exact hinv.executing r' hr hid
    · have hsame : r.id = leagueID := hleague.id.symm.trans hid
      rcases hleague.executing (hinv.executing r hr hsame) with hexecuting | hfinishes
      · exact hexecuting
      · exact absurd (hsame ▸ hfinishes) (hinv.not_applied h hstep hs)
    · have hnew : fresh = leagueID := hid
      exact absurd hinv.issued (hnew ▸ hfresh)
  threads i t' ht' := hinv.threads_step h hstep ht'
  inFlight s hs := by
    rcases step_inFlight hstep hs with hs | ⟨i, e, rfl⟩
    · exact hinv.inFlight s hs
    · cases hstep with
      | call ht hrest hrun hw => exact hinv.not_finishes h ht hrest hrun

/-- A step sends no season-end transaction of the league. -/
theorem Interrupted.not_sends (hinv : Interrupted leagueID a) (h : Runs svc crypto ok a)
    (hstep : (backend svc crypto).Step a l b) : sends l ≠ some (.seasonEnd leagueID) := by
  intro hsends
  obtain ⟨i, key, recipients, amounts, r, rfl⟩ := sends_eq hsends
  cases hstep with
  | call ht hrest hrun hw => exact hinv.not_finishes h ht hrest hrun rfl

/-- An interrupted settlement stays so in a run, and sends no season-end transaction any more. -/
theorem Interrupted.run (hinv : Interrupted leagueID a) (h : Runs svc crypto ok a)
    (hreach : (backend svc crypto).Reaches ok a b) :
    Runs svc crypto ok b ∧ Interrupted leagueID b ∧
      ∀ (k : ℕ) (s : Submission), b.world.submissions[k]? = some s →
        s.purpose = .seasonEnd leagueID → k < a.world.submissions.length := by
  induction hreach with
  | refl => exact ⟨h, hinv, fun k s hs _ => (List.getElem?_eq_some_iff.mp hs).1⟩
  | @tail b c _ hlast ih =>
    obtain ⟨l, hok, hstep⟩ := hlast
    obtain ⟨hrun, hinterrupted, hsent⟩ := ih
    refine ⟨hrun.step hok hstep, hinterrupted.step hrun hstep, fun k s' hs' hpurpose => ?_⟩
    rcases step_submission hstep hs' with ⟨s, hs, hsame, -⟩ |
      ⟨-, i, key, recipients, amounts, r, rfl⟩
    · exact hsent k s hs (hsame.symm.trans hpurpose)
    · exact absurd (congrArg some hpurpose) (hinterrupted.not_sends hrun hstep)

/-- What is left of an interrupted settlement. -/
structure LeftAlone (leagueID : String) (a b : BackendConfig) : Prop where
  /-- The league stays in `executing`. -/
  executing : ∀ r ∈ b.world.db.leagues.rows, r.id = leagueID → r.payoutStatus = .executing
  /-- No season-end transaction of it is sent. -/
  sent : ∀ (k : ℕ) (s : Submission), b.world.submissions[k]? = some s →
    s.purpose = .seasonEnd leagueID → k < a.world.submissions.length
  /-- No payout is on record with its members. -/
  records : ∀ m ∈ b.world.db.members.rows, m.leagueID = leagueID → m.payoutTxHash = none

/-- A league in `executing` that no running thread and no statement in flight can settle stays as it
is, whatever runs afterwards. -/
theorem interrupted_left_alone (h : Runs svc crypto ok a) {r : LeagueRow}
    (hr : r ∈ a.world.db.leagues.rows) (hexecuting : r.payoutStatus = .executing)
    (hthreads : ∀ (i : ℕ) (t : BackendThread), a.threads[i]? = some t → ¬ MayFinish r.id t)
    (hinFlight : ∀ s ∈ a.world.inFlight, ¬ (Call.exec s).finishes r.id)
    (hreach : (backend svc crypto).Reaches ok a b) : LeftAlone r.id a b := by
  have hstart : Interrupted r.id a := by
    refine ⟨h.references.leagues r hr, fun r' hr' hid => ?_, hthreads, hinFlight⟩
    exact Table.eq_of_key hr' hr hid ▸ hexecuting
  obtain ⟨hrun, hinterrupted, hsent⟩ := hstart.run h hreach
  refine ⟨hinterrupted.executing, hsent, fun m hm hid => ?_⟩
  -- a payout is on record only with members of executed leagues
  by_contra hne
  obtain ⟨txHash, htx⟩ := Option.ne_none_iff_exists'.mp hne
  obtain ⟨r', hr', hid'⟩ := hrun.membersHaveLeagues m hm
  have hexecuted := ((hrun.payoutOnRecord hm htx).settled.rows r' hr' hid').1
  cases hexecuted.symm.trans (hinterrupted.executing r' hr' (hid'.trans hid))

/-- The season-end job crashes after it has claimed the league. -/
def crashedSettlement : Schedule :=
  Schedule.fundedLeague Schedule.firstPlace ++ Schedule.seasonEnd 4 ++
    [.call 4 (.succeed 0 "f3"), .stop 4]

/-- The job is started again, and the member tries to cancel the league. -/
def restartedSettlement : Schedule :=
  [.spawn .runSeasonEndPayoutJob, .call 5 (.succeed 0 "")] ++ Schedule.cancel 6 "f4"

/-- The thread has made a call and returned. -/
def Returned (t : BackendThread) : Prop :=
  t.trace ≠ [] ∧ match t.rest with
    | .done _ => True
    | .call _ _ => False

instance (t : BackendThread) : Decidable (Returned t) := by
  unfold Returned
  split <;> infer_instance

/-- After the crash the job is started again, runs to its end, and leaves the league alone; and so
does a cancellation. -/
theorem interrupted_left_alone_crashedSettlement : ∃ a b, Runs .mock .mock (fun _ _ => True) a ∧
    (backend .mock .mock).Reaches (fun _ _ => True) a b ∧
    (∃ r ∈ a.world.db.leagues.rows, r.id = Schedule.leagueID ∧ r.payoutStatus = .executing) ∧
    (∀ i ∈ [5, 6], a.threads[i]? = none ∧ ∃ t ∈ b.threads[i]?, Returned t) ∧
    LeftAlone Schedule.leagueID a b := by
  obtain ⟨a, hrun, ⟨r, hr, hid, hexecuting⟩, hthreads, hinFlight, hrestart⟩ :=
    crashedSettlement.exists_run .mock .mock (fun _ _ => True)
      (fun a => (∃ r ∈ a.world.db.leagues.rows, r.id = Schedule.leagueID ∧
        r.payoutStatus = .executing) ∧
        (∀ t ∈ a.threads, seasonPhase Schedule.leagueID t = .idle ∨ t.stopped = true) ∧
        a.world.inFlight = [] ∧
        ((backend .mock .mock).replay World.respond (fun _ _ => true) restartedSettlement a).any
          fun b => decide (∀ i ∈ [5, 6], a.threads[i]? = none ∧ ∃ t ∈ b.threads[i]?, Returned t))
      (by decide +kernel)
  obtain ⟨b, hreplay, hreturned⟩ := (Option.any_eq_true _ _).mp hrestart
  have hreach : (backend .mock .mock).Reaches (fun _ _ => True) a b :=
    reaches_of_replay World.respond_handles (fun _ _ _ => trivial) hreplay
  refine ⟨a, b, hrun, hreach, ⟨r, hr, hid, hexecuting⟩, of_decide_eq_true hreturned, ?_⟩
  rw [← hid] at hthreads ⊢
  refine interrupted_left_alone hrun hr hexecuting ?_ (by simp [hinFlight]) hreach
  rintro i t ht ⟨hphase, hrunning, -⟩
  rcases hthreads t (List.mem_of_getElem? ht) with hidle | hstopped
  · exact hphase hidle
  · cases hstopped.symm.trans hrunning

end Wagr
