import Wagr.Payouts.Failed

/-!
# Cancelled leagues are not paid

`CancelLeague` looks neither at the payout status nor at the chain, the claim does not look at
`cancelled_at`, and a weekly run pays the leagues of a list it has loaded before. Cancelled
leagues stay unpaid, in the database and on the chain, exactly as long as none of these gaps
is hit.
-/

namespace Wagr

open Interaction Protocol Relational System

variable {svc : Service} {crypto : Crypto} {a b : BackendConfig} {l : BackendLabel}
  {ok : BackendConfig → BackendLabel → Prop} {leagueID : String} {bonuses : Bool}

/-! ## The leagues a weekly run has loaded -/

/-- The phase is the list of leagues loaded so far; a weekly transaction pays one of them. -/
def loadedProtocol : Protocol Call Ret (List String) where
  allows loaded
    | .contractExecute (.weekly leagueID _) _ _ _ => leagueID ∈ loaded
    | _ => True
  next loaded
    | .query .weeklyPayoutLeagues, .ok stream => stream.rows.map OracleLeagueRow.id ++ loaded
    | _, _ => loaded

/-- The leagues a thread has loaded for weekly payouts. -/
abbrev weeklyLoaded (t : BackendThread) : List String :=
  loadedProtocol.phaseOf (fun _ : Request => []) t

/-- The weekly payout of a loaded league is allowed. -/
theorem paysWeekly_allows {loaded : List String} {c : Call} (hc : c.paysWeekly leagueID)
    (hloaded : leagueID ∈ loaded) :
    loadedProtocol.allows loaded c ∧ ∀ r, loadedProtocol.next loaded c r = loaded := by
  cases c with
  | contractExecute purpose key recipients amounts =>
    obtain ⟨eventIDs, rfl⟩ := hc
    exact ⟨hloaded, fun _ => rfl⟩
  | query q => cases q <;> first | exact hc.elim | exact ⟨trivial, fun _ => rfl⟩
  | _ => exact ⟨trivial, fun _ => rfl⟩

/-- Every request pays only leagues it has loaded. -/
theorem conforms_loadedProtocol (req : Request) :
    loadedProtocol.Conforms [] ((backend svc crypto).body req) fun _ _ => True := by
  by_cases hreq : req = .runWeeklyPayoutJob
  · subst hreq
    refine conforms_toDone (conforms_run_ite.mpr ⟨fun _ => ?_, fun _ => trivial⟩)
    refine conforms_run_bind.mpr (conforms_wrapErr.mpr (conforms_query.mpr
      ⟨trivial, fun stream => ?_, fun _ => trivial⟩))
    refine conforms_run_lift.mpr (Conforms.mono
      (conforms_forM (I := fun loaded => ∀ row ∈ stream.rows, row.id ∈ loaded)
        (fun league hleague loaded hloaded => ?_) ?_) fun _ _ _ => trivial)
    · obtain ⟨row, hrow, hload⟩ := List.mem_filterMap.mp hleague
      have hid : league.id ∈ loaded := by
        obtain ⟨entries, -, rfl⟩ := Option.map_eq_some_iff.mp hload
        exact hloaded row hrow
      refine (conforms_of_footprint calls_weeklyRound fun c hc => paysWeekly_allows hc hid).mono
        fun ψ _ hψ => ?_
      exact hψ ▸ hloaded
    · intro row hrow
      exact List.mem_append_left _ (List.mem_map_of_mem hrow)
  · refine (conforms_of_footprint (calls_request req) fun c hc => ?_).mono fun _ _ _ => trivial
    cases c with
    | contractExecute purpose key recipients amounts =>
      cases purpose with
      | seasonEnd leagueID => exact ⟨trivial, fun _ => rfl⟩
      | weekly leagueID eventIDs => exact absurd hc hreq
    | query q =>
      cases q with
      | weeklyPayoutLeagues =>
        cases req with
        | runWeeklyPayoutJob => exact absurd rfl hreq
        | _ => exact hc.elim
      | _ => exact ⟨trivial, fun _ => rfl⟩
    | _ => exact ⟨trivial, fun _ => rfl⟩

/-- The thread has loaded the league, is running and may still send a weekly transaction for
it. -/
def MaySendWeekly (leagueID : String) (t : BackendThread) : Prop :=
  t.stopped = false ∧ leagueID ∈ weeklyLoaded t ∧ ∃ eventIDs key recipients amounts,
    t.rest.MayCall (.contractExecute (.weekly leagueID eventIDs) key recipients amounts)

/-- An answer that adds a league to the loaded ones comes from a list of active leagues. -/
theorem active_of_loaded {w w' : World} {c : Call} {r : Ret c} {loaded : List String}
    (hw : w.handles c r w') (hloaded : leagueID ∈ loadedProtocol.next loaded c r)
    (hnew : leagueID ∉ loaded) :
    ∃ row ∈ w'.db.leagues.rows, row.id = leagueID ∧ row.cancelledAt = none := by
  cases c with
  | query q =>
    cases q with
    | weeklyPayoutLeagues =>
      cases r with
      | error e => exact absurd hloaded hnew
      | ok stream =>
        obtain ⟨rfl, -, order, hperm, -, hinitial, -⟩ := hw
        rcases List.mem_append.mp hloaded with hrow | hold
        · obtain ⟨oracleRow, horacle, rfl⟩ := List.mem_map.mp hrow
          have hmem := hperm.mem_iff.mp (hinitial.subset horacle)
          obtain ⟨row, hcandidate, rfl⟩ := List.mem_map.mp hmem
          obtain ⟨hrow, hpays⟩ := List.mem_filter.mp (List.mem_filter.mp hcandidate).1
          simp only [LeagueRow.mayPayWeekly, Bool.and_eq_true, Option.isNone_iff_eq_none] at hpays
          exact ⟨row, hrow, rfl, hpays.1.2⟩
        · exact absurd hold hnew
    | _ => exact absurd hloaded hnew
  | _ => exact absurd hloaded hnew

/-- A thread that may send for a league after a step could do so before, or it has just loaded
the league, which is active then. -/
theorem maySendWeekly_step (h : (backend svc crypto).Step a l b) {i : ℕ} {t' : BackendThread}
    (ht' : b.threads[i]? = some t') (hsend : MaySendWeekly leagueID t') :
    (∃ t, a.threads[i]? = some t ∧ MaySendWeekly leagueID t) ∨
      ∃ row ∈ b.world.db.leagues.rows, row.id = leagueID ∧ row.cancelledAt = none := by
  obtain ⟨hrunning, hloaded, eventIDs, key, recipients, amounts, hmay⟩ := hsend
  cases h with
  | spawn j =>
    rcases getElem?_append_thread ht' with ⟨-, rfl⟩ | ht
    · cases hloaded
    · exact .inl ⟨t', ht, hrunning, hloaded, eventIDs, key, recipients, amounts, hmay⟩
  | @call k t c next r w ht hrest hrun hw =>
    rcases getElem?_set_thread ht ht' with ⟨rfl, rfl⟩ | ⟨-, ht⟩
    · by_cases hold : leagueID ∈ weeklyLoaded t
      · refine .inl ⟨t, ht, hrun, hold, eventIDs, key, recipients, amounts, ?_⟩
        rw [hrest]
        exact .later not_false r hmay
      · exact .inr (active_of_loaded hw hloaded hold)
    · exact .inl ⟨t', ht, hrunning, hloaded, eventIDs, key, recipients, amounts, hmay⟩
  | @stop k t ht =>
    rcases getElem?_set_thread ht ht' with ⟨rfl, rfl⟩ | ⟨-, ht⟩
    · cases hrunning
    · exact .inl ⟨t', ht, hrunning, hloaded, eventIDs, key, recipients, amounts, hmay⟩
  | env hw => exact .inl ⟨t', ht', hrunning, hloaded, eventIDs, key, recipients, amounts, hmay⟩

/-! ## The result -/

/-- The transaction pays the league out: it is its season-end payout or, where `bonuses` says
that weekly bonuses count as well, one of its weekly payouts. -/
def Purpose.PaysOut (bonuses : Bool) (leagueID : String) (purpose : Purpose) : Prop :=
  purpose = .seasonEnd leagueID ∨ bonuses = true ∧ purpose = .weekly leagueID purpose.eventIDs

instance (purpose : Purpose) : Decidable (purpose.PaysOut bonuses leagueID) :=
  inferInstanceAs (Decidable (_ ∨ _ ∧ _))

/-- A transaction that pays a league out is sent for this league. -/
theorem Purpose.PaysOut.leagueID_eq {purpose : Purpose}
    (h : purpose.PaysOut bonuses leagueID) : leagueID = purpose.leagueID := by
  rcases h with rfl | ⟨-, hweekly⟩
  · rfl
  · rw [hweekly]
    rfl

/-- The league is pending or failed, every transaction that pays it out has been reverted, and
no running thread may still send a weekly transaction for it. -/
structure NotPaid (bonuses : Bool) (a : BackendConfig) (r : LeagueRow) : Prop where
  unpaid : r.Unpaid
  reverted : ∀ s ∈ a.world.submissions, s.purpose.PaysOut bonuses r.id → s.outcome = .reverted
  idle : ∀ (i : ℕ) t, a.threads[i]? = some t → ¬ MaySendWeekly r.id t

/-- No cancelled league is executing or executed, none is paid out on the chain or can still
be, and no running thread may still pay it. -/
def CancelledUnpaid (bonuses : Bool) (a : BackendConfig) : Prop :=
  ∀ r ∈ a.world.db.leagues.rows, r.cancelledAt ≠ none → NotPaid bonuses a r

/-- A cancellation meets a league that has not been paid and that no weekly run still works
on, and a claim or a settlement meets no pending league that is cancelled. -/
def CancelsUnpaid (bonuses : Bool) (a : BackendConfig) (l : BackendLabel) : Prop :=
  ∀ s ∈ applied a l, ∀ r ∈ a.world.db.leagues.rows,
    (s = .cancelLeague r.id → r.cancelledAt = none → NotPaid bonuses a r) ∧
    (s = .claimPayout r.id ∨ s = .markSettledWithoutPayout r.id → r.payoutStatus = .pending →
      r.cancelledAt = none)

/-- The step sends no transaction for a cancelled league. -/
def SendsActive (a : BackendConfig) (l : BackendLabel) : Prop :=
  ∀ purpose ∈ sends l, ∀ row ∈ a.world.db.leagues.rows, row.id = purpose.leagueID →
    row.cancelledAt = none

instance (a : BackendConfig) (l : BackendLabel) : Decidable (SendsActive a l) :=
  inferInstanceAs (Decidable (∀ purpose ∈ sends l, ∀ row ∈ a.world.db.leagues.rows,
    row.id = purpose.leagueID → row.cancelledAt = none))

/-- How a statement changes a row that is cancelled afterwards. -/
theorem Statement.LeagueStep.cancelled {now : ℕ} {db : Database} {s : Statement}
    {r r' : LeagueRow} (h : s.LeagueStep now db r r') (hcancelled : r'.cancelledAt ≠ none) :
    r'.id = r.id ∧
      ((s = .cancelLeague r.id ∧ r.cancelledAt = none ∧ r'.payoutStatus = r.payoutStatus) ∨
      (r.cancelledAt ≠ none ∧ (r.Unpaid → r'.Unpaid ∨
        (s = .claimPayout r.id ∨ s = .markSettledWithoutPayout r.id) ∧
          r.payoutStatus = .pending))) := by
  rcases h with rfl | h
  · exact ⟨rfl, .inr ⟨hcancelled, .inl⟩⟩
  · cases s with
    | importLeague league members =>
      obtain ⟨rfl, -⟩ := h
      exact ⟨rfl, .inr ⟨hcancelled, .inl⟩⟩
    | updateSettings leagueID fee payoutJSON =>
      obtain ⟨-, rfl⟩ := h
      exact ⟨rfl, .inr ⟨hcancelled, .inl⟩⟩
    | updateLeagueStatus leagueID oldStatus newStatus =>
      obtain ⟨-, -, rfl⟩ := h
      exact ⟨rfl, .inr ⟨hcancelled, .inl⟩⟩
    | cancelLeague leagueID =>
      obtain ⟨rfl, hactive, rfl⟩ := h
      exact ⟨rfl, .inl ⟨rfl, hactive, rfl⟩⟩
    | reactivateLeague leagueID =>
      obtain ⟨-, -, rfl⟩ := h
      exact absurd rfl hcancelled
    | markSettledWithoutPayout leagueID | claimPayout leagueID =>
      obtain ⟨rfl, hpending, rfl⟩ := h
      exact ⟨rfl, .inr ⟨hcancelled, fun _ => .inr ⟨by simp, hpending⟩⟩⟩
    | markPayoutFailed leagueID =>
      obtain ⟨-, -, rfl⟩ := h
      exact ⟨rfl, .inr ⟨hcancelled, fun _ => .inl (.inr rfl)⟩⟩
    | markPayoutExecuted leagueID txHash =>
      obtain ⟨-, hexecuting, rfl⟩ := h
      exact ⟨rfl, .inr
        ⟨hcancelled, fun hunpaid => by simp [LeagueRow.Unpaid, hexecuting] at hunpaid⟩⟩
    | _ => exact h.elim

/-- Where cancelled leagues are unpaid, no transaction is sent for one. -/
theorem Runs.sendsActive (h : Runs svc crypto ok a) (hinv : CancelledUnpaid bonuses a)
    (hstep : (backend svc crypto).Step a l b) : SendsActive a l := by
  intro purpose hpurpose row hrow hid
  by_contra hcancelled
  have hnot := hinv row hrow hcancelled
  obtain ⟨i, key, recipients, amounts, r, rfl⟩ := sends_eq hpurpose
  cases purpose with
  | seasonEnd leagueID =>
    obtain rfl : row.id = leagueID := hid
    obtain ⟨hzero, -, hclaimed⟩ := h.first_submission hstep
    rcases hnot.unpaid with hpending | hfailed
    · exact hclaimed row hrow rfl hpending
    · exact (h.sent_of_failed hrow hfailed).ne' hzero
  | weekly leagueID eventIDs =>
    obtain rfl : row.id = leagueID := hid
    cases hstep with
    | @call _ t _ next _ w ht hrest hrun hw =>
      have hfollows := follows_of_reaches h conforms_loadedProtocol (by simp [initialConfig]) i t ht
      refine hnot.idle i t ht
        ⟨hrun, hfollows.allows hrest, eventIDs, key, recipients, amounts, ?_⟩
      rw [hrest]
      exact .here

/-- The reverted transactions of a league stay so, and no other is sent for it, while it is
cancelled. -/
theorem reverted_step (hstep : (backend svc crypto).Step a l b) {r : LeagueRow}
    (hreverted : ∀ s ∈ a.world.submissions, s.purpose.PaysOut bonuses r.id →
      s.outcome = .reverted)
    (hsends : ∀ purpose ∈ sends l, ¬ purpose.PaysOut bonuses r.id) {s' : Submission}
    (hs' : s' ∈ b.world.submissions) (hpays : s'.purpose.PaysOut bonuses r.id) :
    s'.outcome = .reverted := by
  rcases step_submissions hstep hs' with ⟨s, hs, heq, hcases⟩ |
    ⟨i, key, recipients, amounts, res, rfl⟩
  · have hbefore : s.outcome = .reverted := hreverted s hs (heq ▸ hpays)
    rcases hcases with rfl | hpending
    · exact hbefore
    · cases hpending.symm.trans hbefore
  · exact absurd hpays (hsends _ rfl)

/-- Cancelled leagues stay unpaid in a step that cancels only unpaid leagues. -/
theorem cancelledUnpaid_step (h : Runs svc crypto ok a) (hinv : CancelledUnpaid bonuses a)
    (hstep : (backend svc crypto).Step a l b) (hok : CancelsUnpaid bonuses a l) :
    CancelledUnpaid bonuses b := by
  intro r' hr' hcancelled
  have hidle : (∃ r ∈ a.world.db.leagues.rows, r.id = r'.id ∧
      ∀ (i : ℕ) t, a.threads[i]? = some t → ¬ MaySendWeekly r.id t) →
      ∀ (i : ℕ) t, b.threads[i]? = some t → ¬ MaySendWeekly r'.id t := by
    rintro ⟨r, -, hid, hno⟩ i t' ht' hsend
    rcases maySendWeekly_step hstep ht' hsend with ⟨t, ht, hsend⟩ | ⟨row, hrow, hrowid, hactive⟩
    · exact hno i t ht (hid ▸ hsend)
    · rw [Table.eq_of_key hrow hr' hrowid] at hactive
      exact hcancelled hactive
  rcases step_row hstep hr' with ⟨r, hr, rfl | ⟨now, s, hs, hrow⟩⟩ | ⟨league, now, fresh, rfl, -⟩
  · obtain ⟨hunpaid, hreverted, hno⟩ := hinv r' hr hcancelled
    refine ⟨hunpaid, fun s' hs' => reverted_step hstep hreverted ?_ hs',
      hidle ⟨r', hr, rfl, hno⟩⟩
    intro purpose hpurpose hpays
    exact hcancelled (h.sendsActive hinv hstep purpose hpurpose r' hr hpays.leagueID_eq)
  · obtain ⟨hcancel, hclaim⟩ := hok s hs r hr
    -- A step that applies a statement sends nothing.
    have hsends : ∀ purpose ∈ sends l, ¬ purpose.PaysOut bonuses r.id := by
      intro purpose hpurpose
      obtain ⟨i, key, recipients, amounts, res, rfl⟩ := sends_eq hpurpose
      cases hs
    obtain ⟨hid, ⟨rfl, hactive, hstatus⟩ | ⟨hcancelled₀, hnext⟩⟩ := hrow.cancelled hcancelled
    · obtain ⟨hunpaid, hreverted, hno⟩ := hcancel rfl hactive
      refine ⟨?_, fun s' hs' hpays => ?_, hidle ⟨r, hr, hid.symm, hno⟩⟩
      · unfold LeagueRow.Unpaid at hunpaid ⊢
        rwa [hstatus]
      · exact reverted_step hstep hreverted hsends hs' (hid ▸ hpays)
    · obtain ⟨hunpaid, hreverted, hno⟩ := hinv r hr hcancelled₀
      refine ⟨?_, fun s' hs' hpays => ?_, hidle ⟨r, hr, hid.symm, hno⟩⟩
      · rcases hnext hunpaid with hunpaid' | ⟨hs', hpending⟩
        · exact hunpaid'
        · exact absurd (hclaim hs' hpending) hcancelled₀
      · exact reverted_step hstep hreverted hsends hs' (hid ▸ hpays)
  · exact absurd rfl hcancelled

/-- A league that is active before it is cancelled is cancelled afterwards. -/
theorem cancelLeague_run {now : ℕ} {fresh : String} {db db' : Database} {r : LeagueRow}
    {n : (Statement.cancelLeague r.id).Result}
    (h : (Statement.cancelLeague r.id).run now fresh db = some (n, db'))
    (hr : r ∈ db.leagues.rows) (hactive : r.cancelledAt = none) :
    { r with cancelledAt := some now, updatedAt := now } ∈ db'.leagues.rows := by
  cases h
  simp only [Table.mem_updateWhere]
  exact ⟨r, hr, by simp [hactive]⟩

/-- A claim or a settlement of a pending league leaves it executing or executed. -/
theorem claim_run {now : ℕ} {fresh : String} {db db' : Database} {s : Statement} {r : LeagueRow}
    {n : s.Result} (h : s.run now fresh db = some (n, db'))
    (hs : s = .claimPayout r.id ∨ s = .markSettledWithoutPayout r.id)
    (hr : r ∈ db.leagues.rows) (hpending : r.payoutStatus = .pending) :
    ∃ r' ∈ db'.leagues.rows, r'.cancelledAt = r.cancelledAt ∧ ¬ r'.Unpaid := by
  rcases hs with rfl | rfl
  · cases h
    refine ⟨{ r with payoutStatus := .executing, updatedAt := now }, ?_, rfl,
      by simp [LeagueRow.Unpaid]⟩
    simp only [Table.mem_updateWhere]
    exact ⟨r, hr, by simp [hpending]⟩
  · cases h
    refine ⟨{ r with
      status := some "complete"
      payoutStatus := .executed
      payoutsExecutedAt := some now
      updatedAt := now }, ?_, rfl, by simp [LeagueRow.Unpaid]⟩
    simp only [Table.mem_updateWhere]
    exact ⟨r, hr, by simp [hpending]⟩

/-- A cancellation does not stop a thread that may send for a league. -/
theorem maySendWeekly_cancel (h : Runs svc crypto ok a) (hstep : (backend svc crypto).Step a l b)
    {id : String} (hs : applied a l = some (.cancelLeague id)) {i : ℕ} {t : BackendThread}
    (ht : a.threads[i]? = some t) (hsend : MaySendWeekly leagueID t) :
    ∃ t', b.threads[i]? = some t' ∧ MaySendWeekly leagueID t' := by
  cases hstep with
  | spawn j => cases hs
  | stop hu => cases hs
  | env hw => exact ⟨t, ht, hsend⟩
  | @call k u c next r w hu hrest hrun hw =>
    by_cases hki : k = i
    · subst hki
      obtain rfl := Option.some.inj (hu.symm.trans ht)
      obtain ⟨-, -, eventIDs, key, recipients, amounts, hmay⟩ := hsend
      have hweekly : u.job = .runWeeklyPayoutJob := h.mayCall hu hmay
      have hhere : u.rest.MayCall c := by
        rw [hrest]
        exact .here
      have hcall := h.mayCall hu hhere
      rw [hweekly] at hcall
      cases c with
      | exec s =>
        cases r with
        | ok r =>
          cases hs
          exact hcall.elim
        | error e => cases hs
      | _ => cases hs
    · exact ⟨t, by rwa [List.getElem?_set_ne hki], hsend⟩

/-- Where cancelled leagues are unpaid after a step, the step cancels only unpaid leagues. -/
theorem cancelsUnpaid_of_cancelledUnpaid (h : Runs svc crypto ok a)
    (hstep : (backend svc crypto).Step a l b) (hinv : CancelledUnpaid bonuses b) :
    CancelsUnpaid bonuses a l := by
  intro s hs r hr
  rcases step_db hstep with ⟨hnone, -⟩ | ⟨s', hs', now, fresh, n, -, hrun, -, hsubmissions⟩
  · cases hnone.symm.trans hs
  · obtain rfl : s' = s := Option.some.inj (hs'.symm.trans hs)
    constructor
    · rintro rfl hactive
      obtain ⟨hunpaid, hreverted, hno⟩ := hinv _ (cancelLeague_run hrun hr hactive) (by simp)
      refine ⟨hunpaid, hsubmissions ▸ hreverted, fun i t ht hsend => ?_⟩
      obtain ⟨t', ht', hsend'⟩ := maySendWeekly_cancel h hstep hs ht hsend
      exact hno i t' ht' hsend'
    · intro hpays hpending
      by_contra hcancelled
      obtain ⟨r', hr', hcancelled', hpaid⟩ := claim_run hrun hpays hr hpending
      exact hpaid (hinv r' hr' (hcancelled'.trans_ne hcancelled)).unpaid

/-- Along every run in which cancellations and claims keep out of each other's way, no
transaction is sent for a cancelled league, no cancelled league is executing or executed or
paid out on the chain, and a further step keeps it so exactly if it meets the condition as
well. This holds whether or not weekly bonuses count as paying a league out. -/
theorem cancelledUnpaid_iff (bonuses : Bool) (h : Runs svc crypto (CancelsUnpaid bonuses) a) :
    CancelledUnpaid bonuses a ∧ ∀ l b, (backend svc crypto).Step a l b →
      SendsActive a l ∧ (CancelledUnpaid bonuses b ↔ CancelsUnpaid bonuses a l) := by
  have hinv : CancelledUnpaid bonuses a := by
    induction h with
    | refl => simp [CancelledUnpaid, initialConfig, Table.empty]
    | tail hrun hlast ih =>
      obtain ⟨l, hok, hl⟩ := hlast
      exact cancelledUnpaid_step hrun ih hl hok
  exact ⟨hinv, fun l b hl => ⟨h.sendsActive hinv hl, cancelsUnpaid_of_cancelledUnpaid h hl,
    cancelledUnpaid_step h hinv hl⟩⟩

/-- Like `CancelsUnpaid`, with the cancellation while no weekly run has loaded any league. -/
def CancelsIdle (bonuses : Bool) (a : BackendConfig) (l : BackendLabel) : Prop :=
  ∀ s ∈ applied a l, ∀ r ∈ a.world.db.leagues.rows,
    (s = .cancelLeague r.id → r.cancelledAt = none → r.Unpaid ∧
      (∀ s ∈ a.world.submissions, s.purpose.PaysOut bonuses r.id → s.outcome = .reverted) ∧
      ∀ t ∈ a.threads, weeklyLoaded t = []) ∧
    (s = .claimPayout r.id ∨ s = .markSettledWithoutPayout r.id → r.payoutStatus = .pending →
      r.cancelledAt = none)

instance (a : BackendConfig) (l : BackendLabel) : Decidable (CancelsIdle bonuses a l) :=
  inferInstanceAs (Decidable (∀ s ∈ applied a l, ∀ r ∈ a.world.db.leagues.rows,
    (s = .cancelLeague r.id → r.cancelledAt = none → r.Unpaid ∧
      (∀ s ∈ a.world.submissions, s.purpose.PaysOut bonuses r.id → s.outcome = .reverted) ∧
      ∀ t ∈ a.threads, weeklyLoaded t = []) ∧
    (s = .claimPayout r.id ∨ s = .markSettledWithoutPayout r.id → r.payoutStatus = .pending →
      r.cancelledAt = none)))

/-- The condition holds while no weekly run has loaded any league. -/
theorem CancelsIdle.cancelsUnpaid (h : CancelsIdle bonuses a l) : CancelsUnpaid bonuses a l := by
  intro s hs r hr
  obtain ⟨hcancel, hclaim⟩ := h s hs r hr
  refine ⟨fun heq hactive => ?_, hclaim⟩
  obtain ⟨hunpaid, hreverted, hidle⟩ := hcancel heq hactive
  refine ⟨hunpaid, hreverted, fun i t ht hsend => ?_⟩
  have hloaded := hsend.2.1
  rw [hidle t (List.mem_of_getElem? ht)] at hloaded
  cases hloaded

/-- The transaction of a league is reverted, the league is marked failed and then cancelled,
and another season-end run passes it over. -/
def cancelledInTime : Schedule :=
  revertedPayout ++ Schedule.cancel 5 "f5" ++
    [.spawn .runSeasonEndPayoutJob, .call 6 (.succeed 0 "")]

/-- A league is cancelled between the job's query and its claim. -/
def cancelledTooLate : Schedule :=
  Schedule.fundedLeague Schedule.firstPlace ++ Schedule.seasonEnd 4 ++ Schedule.cancel 5 "f3" ++
    [.call 4 (.succeed 0 "f4")]

/-- The job then pays the league nevertheless. -/
def paidAfterCancellation : Schedule :=
  cancelledTooLate ++ [.call 4 (.succeed 0 "tx"), .env (.settle 0 true), .call 4 (.succeed 0 ""),
    .call 4 (.succeed 0 "f5")]

/-- A league whose transaction has succeeded is marked failed, since its receipt was lost, and
then cancelled. -/
def paidBeforeCancellation : Schedule :=
  lostReceipt ++ Schedule.cancel 5 "f5"

/-- The equivalence at the end of a run in which a league is cancelled after its transaction
was reverted. -/
theorem cancelledUnpaid_cancelledInTime : ∃ a, Runs .mock .mock (CancelsUnpaid true) a ∧
    (∃ r ∈ a.world.db.leagues.rows, r.cancelledAt ≠ none ∧
      ∃ s ∈ a.world.submissions, s.purpose.PaysOut true r.id) ∧
    CancelledUnpaid true a ∧ ∀ l b, (backend .mock .mock).Step a l b →
      SendsActive a l ∧ (CancelledUnpaid true b ↔ CancelsUnpaid true a l) := by
  obtain ⟨a, hidle, hrow⟩ := cancelledInTime.exists_run .mock .mock (CancelsIdle true)
    (fun a => ∃ r ∈ a.world.db.leagues.rows, r.cancelledAt ≠ none ∧
      ∃ s ∈ a.world.submissions, s.purpose.PaysOut true r.id) (by decide)
  have hrun : Runs .mock .mock (CancelsUnpaid true) a := hidle.mono fun _ _ h => h.cancelsUnpaid
  exact ⟨a, hrun, hrow, cancelledUnpaid_iff true hrun⟩

/-- A transaction is sent for a cancelled league; afterwards the league is cancelled, executed
and paid on the chain. A failed league whose receipt was lost is cancelled although it has
been paid. -/
theorem exists_cancelled_paid :
    (∃ a l b, Runs .mock .mock (fun _ _ => True) a ∧ (backend .mock .mock).Step a l b ∧
      ¬ SendsActive a l) ∧
    (∃ a, Runs .mock .mock (fun _ _ => True) a ∧ ∃ r ∈ a.world.db.leagues.rows,
      r.cancelledAt ≠ none ∧ r.payoutStatus = .executed ∧
        ∃ s ∈ a.world.submissions, s.purpose = .seasonEnd r.id ∧ s.outcome = .succeeded) ∧
    ∃ a, Runs .mock .mock (fun _ _ => True) a ∧ ∃ r ∈ a.world.db.leagues.rows,
      r.cancelledAt ≠ none ∧ r.payoutStatus = .failed ∧
        ∃ s ∈ a.world.submissions, s.purpose = .seasonEnd r.id ∧ s.outcome = .succeeded :=
  ⟨cancelledTooLate.exists_step (.call 4 (.succeed 0 "tx")) .mock .mock (fun _ _ => True)
      (fun a l _ => ¬ SendsActive a l) (by decide),
    paidAfterCancellation.exists_run .mock .mock (fun _ _ => True)
      (fun a => ∃ r ∈ a.world.db.leagues.rows, r.cancelledAt ≠ none ∧ r.payoutStatus = .executed ∧
        ∃ s ∈ a.world.submissions, s.purpose = .seasonEnd r.id ∧ s.outcome = .succeeded)
      (by decide),
    paidBeforeCancellation.exists_run .mock .mock (fun _ _ => True)
      (fun a => ∃ r ∈ a.world.db.leagues.rows, r.cancelledAt ≠ none ∧ r.payoutStatus = .failed ∧
        ∃ s ∈ a.world.submissions, s.purpose = .seasonEnd r.id ∧ s.outcome = .succeeded)
      (by decide)⟩

end Wagr
