import Wagr.Payments.Evidence
import Wagr.Web.PaymentPanel

/-!
# A transaction at a time

The page asks the wallet for a second payment only after the server has confirmed the first one,
and for a second refund only after that or when the user has dismissed the first one. Until then the
transaction stays stored. All this needs that the page is never left while one of its handlers is
running: a handler of a page that was left may overwrite what is stored.
-/

namespace Wagr

open Interaction Protocol System Relational

/-! ## Page and server -/

/-- The events of the handlers for payments, or for refunds. -/
def PageEvent.concerns (k : ConfirmKind) : PageEvent → Bool
  | .send k' => k' = k
  | .retryConfirm k' => k' = k
  | .answered k' _ => k' = k
  | _ => false

/-- The page was left and is opened again in the same document. -/
def PageEvent.leaves : PageEvent → Bool
  | .opened false => true
  | _ => false

/-- The events of the rest of the page. -/
def PageEvent.elsewhere : PageEvent → Bool
  | .fetched _ _ => true
  | .walletChanged _ => true
  | .cancelResponded _ _ => true
  | .reactivateResponded _ => true
  | _ => false

section Page

variable (leagueID userID : String) (contractID : Option String)

/-- The steps of the page beside the backend. -/
abbrev PageAct := Act Call Ret World Request (Except GoError Response) LeagueOverview PageEvent

/-- A response to an attempt that was made after these steps of the page. -/
def ConfirmKind.Hears (k : ConfirmKind) (transactionID : String) (earlier : List PageAct)
    (b : BackendConfig) (x : Fetch) : Prop :=
  ∃ attempt, IsAttempt k leagueID userID transactionID b attempt ∧
    x = Attempt.fetch k.respond b attempt ∧
    ∀ i delivered, attempt = .processed i delivered →
      ∀ r ∈ earlier, r.config.threads.length ≤ i

/-- The page of a user. The attempts are answered by the server; everything else the page hears
is arbitrary. -/
def pageClient :
    Client Call Ret World Request (Except GoError Response) LeagueOverview PageEvent where
  step := LeagueOverview.step userID contractID
  hears history s :=
    match s.event with
    | .answered k (.attempted x) => ∀ transactionID n,
        (s.state.panel k).running = some (.attempt transactionID n) →
        k.Hears leagueID userID transactionID
          (history.filter fun r => r.event.concerns k) s.config x
    | .answeredDetached i (.attempted x) => ∀ k transactionID n,
        s.state.detached[i]? = some (k, .attempt transactionID n) →
        k.Hears leagueID userID transactionID [] s.config x
    | _ => True

end Page

variable {svc : Service} {crypto : Crypto} {ok : BackendConfig → BackendLabel → Prop}
  {leagueID userID transactionID : String} {contractID : Option String} {k : ConfirmKind}
  {a b c : BackendConfig} {p p' q : LeagueOverview} {e : PageEvent}
  {history first rest : List PageAct}

/-! ## The page -/

/-- A loop that ends with this response without throwing has accepted it. -/
theorem ConfirmKind.accepted_of_conclude {x : Fetch} (h : k.conclude x = .ok ()) : Accepted x := by
  cases k with
  | payment => exact confirmWithRetry_iff.mp h
  | refund => exact confirmWithRetry_iff.mp h

/-- A handler that ends has failed, or the last response was taken for a success. -/
theorem ConfirmKind.ending_conclude {x : Fetch} :
    (∃ err, ending transactionID (k.conclude x) = .fails err) ∨
      (ending transactionID (k.conclude x) = .confirms transactionID ∧ Accepted x) := by
  cases hconclude : k.conclude x with
  | ok => exact .inr ⟨rfl, accepted_of_conclude hconclude⟩
  | error err => exact .inl ⟨err, rfl⟩

/-- A handler that confirms a transaction waits for the next attempt, fails, or has confirmed it. -/
theorem ConfirmKind.proceed_attempt {n : ℕ} {x : HandlerAnswer} {segment : Segment}
    (h : k.proceed (.attempt transactionID n) x = some segment) :
    ∃ y, x = .attempted y ∧ (segment = .waits (.attempt transactionID (n + 1)) ∨
      (∃ err, segment = .fails err) ∨ (segment = .confirms transactionID ∧ Accepted y)) := by
  cases x with
  | attempted y =>
    refine ⟨y, rfl, ?_⟩
    simp only [proceed] at h
    split at h
    · split at h
      · exact .inl (Option.some.inj h).symm
      · exact .inr (Option.some.inj h ▸ ending_conclude)
    · exact .inr (Option.some.inj h ▸ ending_conclude)
  | _ => cases h

namespace LeagueOverview

/-- If the event leaves the page, none of its handlers is running. -/
def LeftIdle (p : LeagueOverview) (e : PageEvent) : Prop :=
  e.leaves = true → p.runningHandlers = []

/-- The transaction is stored and shown as pending, and nothing but its confirmation is running. -/
structure Pending (k : ConfirmKind) (transactionID : String) (p : LeagueOverview) : Prop where
  stored : p.localStorage k = some transactionID
  pending : (p.panel k).pendingTxID = some transactionID
  running : ∀ w ∈ (p.panel k).running, ∃ n, w = .attempt transactionID n

/-- The event ends a pending transaction: a refund is dismissed, or the server has accepted the
confirmation. -/
def Ends (k : ConfirmKind) (transactionID : String) (p : LeagueOverview) (e : PageEvent) : Prop :=
  (k = .refund ∧ e = .dismissPendingRefund) ∨
    ∃ x n, e = .answered k (.attempted x) ∧
      (p.panel k).running = some (.attempt transactionID n) ∧ Accepted x

/-- A panel that a step does not change. -/
theorem Pending.of_same (h : p.Pending k transactionID)
    (hstored : q.localStorage k = p.localStorage k)
    (hpanel : q.panel k = p.panel k) : q.Pending k transactionID :=
  ⟨hstored.trans h.stored, hpanel ▸ h.pending, hpanel ▸ h.running⟩

/-- What the panels, the storage and the detached handlers are is the same on both pages. -/
structure SameHandlers (p q : LeagueOverview) : Prop where
  localStorage : q.localStorage = p.localStorage
  panel : q.panel = p.panel
  detached : q.detached = p.detached

/-- Some events only change what the page shows of the league. -/
theorem step_elsewhere (he : e.elsewhere = true) (hstep : p.step userID contractID e = some q) :
    p.SameHandlers q := by
  cases e with
  | fetched detailRes settingsRes =>
    obtain rfl := Option.some.inj hstep
    unfold fetched
    split <;> exact ⟨rfl, rfl, rfl⟩
  | walletChanged connected =>
    obtain rfl := Option.some.inj hstep
    exact ⟨rfl, rfl, rfl⟩
  | cancelResponded res now =>
    obtain rfl := Option.some.inj hstep
    unfold cancelResponded
    split
    · exact ⟨rfl, rfl, rfl⟩
    · split <;> exact ⟨rfl, rfl, rfl⟩
  | reactivateResponded res =>
    obtain rfl := Option.some.inj hstep
    unfold reactivateResponded
    split
    · exact ⟨rfl, rfl, rfl⟩
    · split <;> exact ⟨rfl, rfl, rfl⟩
  | _ => cases he

/-- A handler of the other panel leaves this panel and its item alone. -/
theorem proceed_of_ne {k' : ConfirmKind} {segment : Segment} (hne : k ≠ k') :
    (p.proceed userID k' segment).localStorage k = p.localStorage k ∧
      (p.proceed userID k' segment).panel k = p.panel k := by
  cases segment with
  | waits w => simp [proceed, hne]
  | stores transactionID => simp [proceed, hne]
  | confirms transactionID =>
    have hpanel : ((p.store k' none).setPanel k' ⟨none, (p.panel k').error, none⟩).panel k =
        p.panel k := by simp [hne]
    have hitem : ((p.store k' none).setPanel k' ⟨none, (p.panel k').error, none⟩).localStorage k =
        p.localStorage k := by simp [hne]
    exact ⟨hitem, hpanel⟩
  | fails err => simp [proceed, hne]

/-- No segment of a handler that is still on the page detaches a handler. -/
theorem proceed_detached {segment : Segment} :
    (p.proceed userID k segment).detached = p.detached := by
  cases segment <;> rfl

/-- A page that is left only while nothing is running has no detached handlers. -/
theorem step_detached (hstep : p.step userID contractID e = some q) (hleft : p.LeftIdle e)
    (h : p.detached = []) : q.detached = [] := by
  cases e with
  | opened reloaded =>
    obtain rfl := Option.some.inj hstep
    cases reloaded with
    | true => rfl
    | false =>
      have hidle : p.runningHandlers = [] := hleft rfl
      simp [opened, h, hidle]
  | fetched | walletChanged | cancelResponded | reactivateResponded =>
    exact (step_elsewhere rfl hstep).detached.trans h
  | send k' =>
    obtain ⟨-, heq⟩ := Option.ite_none_right_eq_some.mp hstep
    obtain rfl := Option.some.inj heq
    cases k' with
    | payment => exact h
    | refund =>
      simp only [send]
      split <;> exact h
  | retryConfirm k' | dismissPendingRefund =>
    obtain ⟨-, heq⟩ := Option.ite_none_right_eq_some.mp hstep
    obtain rfl := Option.some.inj heq
    exact h
  | answered k' x =>
    obtain ⟨segment, -, rfl⟩ := Option.map_eq_some_iff.mp hstep
    exact proceed_detached.trans h
  | answeredDetached i x => simp [step, h] at hstep

/-- A transaction that the wallet reports is pending. -/
theorem pending_of_report (hstep : p.step userID contractID
    (.answered k (.wallet (.ok transactionID))) = some q) : q.Pending k transactionID := by
  obtain ⟨segment, hsegment, rfl⟩ := Option.map_eq_some_iff.mp hstep
  obtain ⟨w, -, hproceed⟩ := Option.bind_eq_some_iff.mp hsegment
  cases w with
  | wallet =>
    obtain rfl := Option.some.inj hproceed
    exact ⟨by simp [proceed], by simp [proceed], by simp [proceed]⟩
  | instructions | revertReason | attempt => cases hproceed

/-- A pending transaction stays pending unless the event ends it. -/
theorem Pending.step (h : p.Pending k transactionID) (htruthy : transactionID ≠ "")
    (hdetached : p.detached = []) (hstep : p.step userID contractID e = some q) :
    q.Pending k transactionID ∨ p.Ends k transactionID e := by
  have hsome : (truthy (p.panel k).pendingTxID).isNone = false := by
    simp [h.pending, truthy, htruthy]
  cases e with
  | opened reloaded =>
    obtain rfl := Option.some.inj hstep
    exact .inl ⟨h.stored, h.stored, by simp [opened, Panel.idle]⟩
  | fetched | walletChanged | cancelResponded | reactivateResponded =>
    have hsame := step_elsewhere rfl hstep
    exact .inl (h.of_same (congrFun hsame.localStorage k) (congrFun hsame.panel k))
  | send k' =>
    obtain ⟨hmay, heq⟩ := Option.ite_none_right_eq_some.mp hstep
    obtain rfl := Option.some.inj heq
    have hne : k ≠ k' := by
      rintro rfl
      simp [maySend, hsome] at hmay
    refine .inl (h.of_same ?_ ?_)
    · unfold send
      split
      · rfl
      · split <;> rfl
    · unfold send
      split
      · simp [hne]
      · split <;> simp [hne]
  | retryConfirm k' =>
    obtain ⟨-, heq⟩ := Option.ite_none_right_eq_some.mp hstep
    obtain rfl := Option.some.inj heq
    by_cases hk : k = k'
    · subst hk
      exact .inl ⟨h.stored, by simp [retryConfirm, h.pending], by simp [retryConfirm, h.pending]⟩
    · exact .inl (h.of_same rfl (by simp [retryConfirm, hk]))
  | dismissPendingRefund =>
    obtain ⟨-, heq⟩ := Option.ite_none_right_eq_some.mp hstep
    obtain rfl := Option.some.inj heq
    cases k with
    | refund => exact .inr (.inl ⟨rfl, rfl⟩)
    | payment => exact .inl (h.of_same (by simp [dismissPendingRefund])
        (by simp [dismissPendingRefund]))
  | answered k' x =>
    obtain ⟨segment, hsegment, rfl⟩ := Option.map_eq_some_iff.mp hstep
    by_cases hk : k = k'
    · subst hk
      obtain ⟨w, hw, hproceed⟩ := Option.bind_eq_some_iff.mp hsegment
      obtain ⟨n, rfl⟩ := h.running w hw
      obtain ⟨y, rfl, rfl | ⟨err, rfl⟩ | ⟨rfl, haccepted⟩⟩ := k.proceed_attempt hproceed
      · exact .inl ⟨h.stored, by simp [proceed, h.pending], by simp [proceed]⟩
      · exact .inl ⟨h.stored, by simp [proceed, h.pending], by simp [proceed]⟩
      · exact .inr (.inr ⟨y, n, rfl, hw, haccepted⟩)
    · obtain ⟨hitem, hpanel⟩ := proceed_of_ne hk
      exact .inl (h.of_same hitem hpanel)
  | answeredDetached i x => simp [LeagueOverview.step, hdetached] at hstep

end LeagueOverview

/-! ## The server -/

/-- What the tables say when the server accepts a confirmation: a membership of the user is paid, in
a league that is not cancelled if a refund was to be confirmed, or no membership of the user has
another status than the confirmed one. -/
def ConfirmKind.Upheld (k : ConfirmKind) (leagueID userID : String) (db : Database) : Prop :=
  (∃ m ∈ db.members.rows, db.membershipOf leagueID userID m = true ∧ m.paymentStatus = .paid ∧
    (k = .refund → ∃ l ∈ db.leagues.rows, l.id = leagueID ∧ l.cancelledAt = none)) ∨
  ∀ m ∈ db.members.rows, db.membershipOf leagueID userID m = true → m.paymentStatus = k.status

/-- A membership that is joined to the user belongs to the user. -/
theorem membershipOf_of_mem {db : Database} {m : MemberRow} {profile : ProfileRow}
    (h : (m, profile) ∈ db.userMemberships leagueID userID) :
    m ∈ db.members.rows ∧ db.membershipOf leagueID userID m = true := by
  obtain ⟨m', hm', hpair⟩ := List.mem_flatMap.mp h
  obtain ⟨profile', hprofile, heq⟩ := List.mem_map.mp hpair
  cases heq
  obtain ⟨hm, hleague⟩ := List.mem_filter.mp hm'
  obtain ⟨hmem, hjoin⟩ := List.mem_filter.mp hprofile
  have hlinked : db.linkedTo userID m = true := List.any_eq_true.mpr ⟨profile, hmem, hjoin⟩
  exact ⟨hm, by simp [Database.membershipOf, hlinked, of_decide_eq_true hleague]⟩

/-- A membership that is read as paid is paid. -/
theorem upheld_payment_of_read {db : Database} {info : MemberPayment}
    (h : info ∈ db.memberPayments leagueID userID) (hpaid : info.paymentStatus = .paid) :
    ConfirmKind.payment.Upheld leagueID userID db := by
  unfold Database.memberPayments at h
  split at h
  · cases h
  · obtain ⟨⟨m, profile⟩, hpair, rfl⟩ := List.mem_map.mp h
    obtain ⟨hm, hmember⟩ := membershipOf_of_mem hpair
    exact .inl ⟨m, hm, hmember, hpaid, nofun⟩

/-- A membership that is read as paid in a league that is not cancelled is so. -/
theorem upheld_refund_of_read {db : Database} {info : MemberRefund}
    (h : info ∈ db.memberRefunds leagueID userID) (hpaid : info.paymentStatus = .paid)
    (hopen : info.cancelledAt = none) : ConfirmKind.refund.Upheld leagueID userID db := by
  unfold Database.memberRefunds at h
  split at h
  · cases h
  · rename_i league hlookup
    obtain ⟨⟨m, profile⟩, hpair, rfl⟩ := List.mem_map.mp h
    obtain ⟨hm, hmember⟩ := membershipOf_of_mem hpair
    obtain ⟨hleague, hid⟩ := Table.lookup_some hlookup
    exact .inl ⟨m, hm, hmember, hpaid, fun _ => ⟨league, hleague, hid, hopen⟩⟩

/-- The rows that an update selects have the status it sets. -/
theorem status_of_updateMembers {db : Database} {selects : MemberRow → Bool}
    {f : MemberRow → MemberRow} {hf : ∀ r, (f r).key = r.key} {status : PaymentStatus}
    (hstatus : ∀ m, (f m).paymentStatus = status) {m' : MemberRow}
    (hm' : m' ∈ (db.updateMembers selects f hf).2.members.rows) (hselected : selects m' = true) :
    m'.paymentStatus = status := by
  have hrow : m' ∈ (db.members.updateWhere selects f hf).rows := hm'
  obtain ⟨m, -, heq⟩ := Table.mem_updateWhere.mp hrow
  by_cases hm : selects m = true
  · rw [if_pos hm] at heq
    exact heq ▸ hstatus m
  · rw [if_neg hm] at heq
    exact absurd (heq ▸ hselected) hm

/-- After the update of a confirmation no membership of the user has another status. -/
theorem upheld_of_update {now : ℕ} {fresh : String} {db db' : Database}
    {r : (k.update leagueID userID transactionID).Result}
    (h : (k.update leagueID userID transactionID).run now fresh db = some (r, db')) :
    k.Upheld leagueID userID db' := by
  cases k with
  | payment =>
    obtain ⟨-, rfl⟩ := Prod.mk.inj (Option.some.inj h)
    refine .inr fun m' hm' hmember => status_of_updateMembers ?_ hm' hmember
    exact fun m => rfl
  | refund =>
    obtain ⟨-, rfl⟩ := Prod.mk.inj (Option.some.inj h)
    refine .inr fun m' hm' hmember => status_of_updateMembers ?_ hm' hmember
    exact fun m => rfl

/-- The calls that read a payment's status. -/
theorem reads_payment {call : Sigma Ret} {status : PaymentStatus}
    (h : ConfirmKind.payment.reads call = some status) : ∃ leagueID userID info,
      call = ⟨.query (.memberPayment leagueID userID), .ok (some info)⟩ ∧
        info.paymentStatus = status := by
  unfold ConfirmKind.reads at h
  split at h
  · exact ⟨_, _, _, rfl, Option.some.inj h⟩
  · rename_i hkind
    cases hkind
  · cases h

/-- The calls that find a paid membership in a league that is not cancelled. -/
theorem readsOpen_true {call : Sigma Ret} (h : ConfirmKind.readsOpen call = true) :
    ∃ leagueID userID info, call = ⟨.query (.memberRefund leagueID userID), .ok (some info)⟩ ∧
      info.paymentStatus = .paid ∧ info.cancelledAt = none := by
  unfold ConfirmKind.readsOpen at h
  split at h
  · obtain ⟨hpaid, hopen⟩ := Bool.and_eq_true_iff.mp h
    exact ⟨_, _, _, rfl, of_decide_eq_true hpaid, Option.isNone_iff_eq_none.mp hopen⟩
  · cases h

/-- The updates of a payment. -/
theorem updates_payment {call : Sigma Ret} {r : Except GoError ℕ}
    (h : ConfirmKind.payment.updates call = some r) : ∃ leagueID userID transactionID,
      call = ⟨.exec (.markPaid leagueID userID transactionID), r⟩ := by
  unfold ConfirmKind.updates at h
  split at h
  · obtain rfl := Option.some.inj h
    exact ⟨_, _, _, rfl⟩
  · rename_i hkind
    cases hkind
  · cases h

/-- The updates of a refund. -/
theorem updates_refund {call : Sigma Ret} {r : Except GoError ℕ}
    (h : ConfirmKind.refund.updates call = some r) : ∃ leagueID userID transactionID,
      call = ⟨.exec (.markRefunded leagueID userID transactionID), r⟩ := by
  unfold ConfirmKind.updates at h
  split at h
  · rename_i hkind
    cases hkind
  · obtain rfl := Option.some.inj h
    exact ⟨_, _, _, rfl⟩
  · cases h

/-- An attempt that has found the conflict or has made its update: at that moment the tables uphold
the confirmation. -/
theorem exists_upheld (hrun : Runs svc crypto ok a) (hreach : (backend svc crypto).Reaches ok a b)
    {i : ℕ} (hnew : a.threads[i]? = none) {t : BackendThread} (ht : b.threads[i]? = some t)
    (hjob : t.job = k.request leagueID userID transactionID)
    (hsettled : k.Conflict t.trace ∨ ∃ n, .ok n ∈ t.trace.filterMap k.updates) :
    ∃ d, (backend svc crypto).Reaches ok a d ∧ (backend svc crypto).Reaches ok d b ∧
      k.Upheld leagueID userID d.world.db := by
  have hmoment : ∀ call ∈ t.trace, ∃ m : Moment (backend svc crypto) ok a b i call,
      paymentRule (k.request leagueID userID transactionID) m.thread.trace call.1 ∧
        (k.request leagueID userID transactionID).mayCall call.1 := by
    intro call hcall
    obtain ⟨m, hm, -⟩ := hreach.moment_of_mem hnew ht hcall
    have hrule : paymentProtocol.allows
        (paymentProtocol.phase (m.thread.job, []) m.thread.trace) call.1 :=
      (m.since hrun).allows conforms_paymentProtocol rfl
    have hfoot : footprints.allows (footprints.phase m.thread.job m.thread.trace) call.1 :=
      (m.since hrun).allows conforms_footprints rfl
    rw [hm, hjob] at hrule hfoot
    rw [history_phase] at hrule
    rw [footprints_phase] at hfoot
    exact ⟨m, hrule, hfoot⟩
  have hread : ∀ {q : Query} {r : q.Answer}, (⟨.query q, .ok r⟩ : Sigma Ret) ∈ t.trace →
      (∀ db trace, paymentRule (k.request leagueID userID transactionID) trace (.query q) →
        q.Answers db r → k.Upheld leagueID userID db) →
      ∃ d, (backend svc crypto).Reaches ok a d ∧ (backend svc crypto).Reaches ok d b ∧
        k.Upheld leagueID userID d.world.db := by
    intro q r hcall hdb
    obtain ⟨m, hrule, -⟩ := hmoment _ hcall
    obtain ⟨-, hanswer⟩ := m.handles
    exact ⟨m.before, m.reached, m.later, hdb _ _ hrule hanswer⟩
  rcases hsettled with hconflict | ⟨n, hupdate⟩
  · cases k with
    | payment =>
      obtain ⟨call, hcall, hreads⟩ := List.mem_filterMap.mp hconflict
      obtain ⟨leagueID', userID', info, rfl, hpaid⟩ := reads_payment hreads
      refine hread hcall fun db trace hrule hanswer => ?_
      obtain ⟨rfl, rfl⟩ := Prod.mk.inj (Option.some.inj hrule)
      exact upheld_payment_of_read hanswer hpaid
    | refund =>
      obtain ⟨call, hcall, hopen⟩ := List.any_eq_true.mp hconflict
      obtain ⟨leagueID', userID', info, rfl, hpaid, hnone⟩ := readsOpen_true hopen
      refine hread hcall fun db trace hrule hanswer => ?_
      obtain ⟨rfl, rfl⟩ := Prod.mk.inj (Option.some.inj hrule)
      exact upheld_refund_of_read hanswer hpaid hnone
  · obtain ⟨call, hcall, hupdates⟩ := List.mem_filterMap.mp hupdate
    obtain ⟨m, -, hexec⟩ := hmoment call hcall
    have hworld := m.handles
    have hafter : k.Upheld leagueID userID m.after.world.db := by
      cases k with
      | payment =>
        obtain ⟨leagueID', userID', transactionID', rfl⟩ := updates_payment hupdates
        obtain ⟨rfl, rfl, rfl⟩ := hexec
        obtain ⟨now, fresh, db, -, hdb, hw⟩ := hworld
        rw [hw]
        exact upheld_of_update (k := .payment) hdb
      | refund =>
        obtain ⟨leagueID', userID', transactionID', rfl⟩ := updates_refund hupdates
        obtain ⟨rfl, rfl, rfl⟩ := hexec
        obtain ⟨now, fresh, db, -, hdb, hw⟩ := hworld
        rw [hw]
        exact upheld_of_update (k := .refund) hdb
    exact ⟨m.after, m.reachedAfter, m.rest, hafter⟩

/-- An accepted response comes from a thread that has found the conflict or made its update. -/
theorem settled_of_accepted (hrun : Runs svc crypto ok b)
    (hforeign : ∀ t ∈ b.threads, ∀ call ∈ t.trace, ForeignError call) {attempt : Attempt}
    (hattempt : IsAttempt k leagueID userID transactionID b attempt)
    (haccepted : Accepted (attempt.fetch k.respond b)) :
    ∃ i delivered t, attempt = .processed i delivered ∧ b.threads[i]? = some t ∧
      t.job = k.request leagueID userID transactionID ∧
      (k.Conflict t.trace ∨ ∃ n, .ok n ∈ t.trace.filterMap k.updates) := by
  have hlost : ¬ Accepted (.error "Failed to fetch") := by
    rintro ⟨res, heq, -⟩
    cases heq
  cases attempt with
  | lost => exact absurd haccepted hlost
  | refused res hres =>
    obtain ⟨res', heq, h⟩ := haccepted
    obtain rfl := Except.ok.inj heq
    rcases hres with hres | hres <;> simp [HTTPResponse.ok, hres] at h
  | processed i delivered =>
    obtain ⟨t, ht, hjob⟩ := hattempt i delivered rfl
    obtain ⟨course, hcourse, -⟩ := Reaches.exists_course hrun
    refine ⟨i, delivered, t, rfl, ht, hjob, ?_⟩
    rcases attempt_cases hcourse ht hjob with ⟨call, next, hrest, -⟩ | ⟨r, hrest, houtcome⟩
    · rw [Attempt.fetch, ht, Option.map_some, hrest] at haccepted
      exact absurd haccepted hlost
    · rw [Attempt.fetch, ht, Option.map_some, hrest] at haccepted
      cases delivered with
      | false => exact absurd haccepted hlost
      | true => exact (houtcome.accepted (hforeign t (List.mem_of_getElem? ht))).mp haccepted

/-! ## The page and the server -/

/-- The wallet is not asked for another transaction while one is pending. -/
theorem LeagueOverview.Pending.not_maySend (h : p.Pending k transactionID)
    (htruthy : transactionID ≠ "") : p.maySend userID k = false := by
  simp [maySend, h.pending, truthy, htruthy]

/-- The event is not a response to an attempt. -/
def PageEvent.quiet : PageEvent → Bool
  | .answered _ (.attempted _) => false
  | .answeredDetached _ (.attempted _) => false
  | _ => true

/-- The page after some events. -/
def LeagueOverview.after (userID : String) (contractID : Option String) (events : List PageEvent)
    (p : LeagueOverview) : Option LeagueOverview :=
  events.foldlM (fun p e => p.step userID contractID e) p

/-- Events that are no responses to attempts may happen after the server has run for a while. -/
theorem exists_beside (leagueID : String) (hreach : Runs svc crypto ok a)
    {events : List PageEvent} (hquiet : ∀ e ∈ events, e.quiet = true)
    (hrun : p.after userID contractID events = some q) :
    ∃ history : List PageAct, history.map Act.event = events ∧ (∀ s ∈ history, s.config = a) ∧
      Beside (backend svc crypto) ok (pageClient leagueID userID contractID) initialConfig p history
        a q := by
  induction events using List.reverseRecOn generalizing q with
  | nil =>
    obtain rfl := Option.some.inj hrun
    exact ⟨[], rfl, by simp, Beside.start.runs hreach⟩
  | append_singleton events e ih =>
    rw [LeagueOverview.after, List.foldlM_append] at hrun
    obtain ⟨p', hevents, hlast⟩ := Option.bind_eq_some_iff.mp hrun
    have hstep : p'.step userID contractID e = some q := by simpa using hlast
    obtain ⟨history, hmap, hconfig, h⟩ := ih (fun e' he' => hquiet e' (by simp [he'])) hevents
    refine ⟨history ++ [⟨a, p', e⟩], by simp [hmap], ?_, h.act ?_ hstep⟩
    · intro s hs
      rcases List.mem_append.mp hs with hs | hs
      · exact hconfig s hs
      · obtain rfl := List.mem_singleton.mp hs
        rfl
    · have he := hquiet e (by simp)
      cases e with
      | answered k x | answeredDetached i x =>
        cases x with
        | attempted x => cases he
        | _ => trivial
      | _ => trivial

/-- A document without anything stored. -/
def LeagueOverview.fresh : LeagueOverview where
  localStorage _ := none
  detached := []
  walletConnected := false
  detail := none
  notMember := false
  error := none
  panel _ := .idle none

/-- The page fetches a league with one member, who has not paid. -/
def fetchedUnpaid : PageEvent :=
  .fetched (.ok ⟨200, .league
    { id := Schedule.leagueID, platform := "sleeper", platformLeagueID := "7", name := "league"
      season := "2024", sport := "nfl", status := "in_season", totalRosters := 1
      scoringType := "ppr", entryFeeCents := 5000, isCommissioner := false, importedBy := ""
      importedAt := 0, lastSyncedAt := some 0, cancelledAt := none }
    [{ id := "m1", leagueID := Schedule.leagueID, userID := some "u1", platform := "sleeper"
       platformUserID := "p1", platformUsername := "p1", teamName := "", displayName := "p1"
       avatarURL := "", isOwner := false, rosterID := 1, wins := 0, losses := 0, ties := 0
       totalPoints := 0, walletAddress := "0.0.1", paymentStatus := .unpaid, paymentToken := none
       transactionHash := none, paidAt := none, joinedAt := 0 }]⟩) (.ok ⟨200, .message ""⟩)

/-- The member asks for a payment, and the page gets the instructions. -/
def asksWallet : List PageEvent :=
  [fetchedUnpaid, .send .payment, .answered .payment (.instructed (.ok ⟨200, .message ""⟩))]

/-- A history with certain events was split at one of them. -/
theorem exists_split {history : List PageAct} {before after : List PageEvent}
    (h : history.map Act.event = before ++ e :: after) (hconfig : ∀ s ∈ history, s.config = a) :
    ∃ first p rest, history = first ++ ⟨a, p, e⟩ :: rest ∧ rest.map Act.event = after := by
  obtain ⟨first, later, rfl, -, hlater⟩ := List.map_eq_append_iff.mp h
  obtain ⟨s, rest, rfl, rfl, hrest⟩ := List.map_eq_cons_iff.mp hlater
  obtain ⟨config, state, event⟩ := s
  obtain rfl : config = a := hconfig ⟨config, state, event⟩ (by simp)
  exact ⟨first, state, rest, rfl, hrest⟩

/-- A payment is reported, and the document is loaded anew. -/
def reloads : List PageEvent :=
  [.opened true, .walletChanged true] ++ asksWallet ++
    .answered .payment (.wallet (.ok "0.0.1@1.2")) ::
      [.opened true, .walletChanged true, fetchedUnpaid]

/-- The page is left while it waits for the instructions, and both handlers report a payment. -/
def leavesAndReturns : List PageEvent :=
  [.opened true, .walletChanged true, fetchedUnpaid, .send .payment, .opened false] ++ asksWallet ++
    .answered .payment (.wallet (.ok "0.0.1@1.2")) ::
      [.answeredDetached 0 (.instructed (.ok ⟨200, .message ""⟩)),
        .answeredDetached 0 (.wallet (.ok "0.0.1@3.4"))]

/-- The user is the only member of a league and has not paid its fee. -/
def Schedule.unpaidMember : Schedule :=
  signUp 0 "0.0.1" "n1" "u1" ++ link 1 "u1" "sleeper" (.mock "p1") "f1" ++
    importLeague 2 "u1" "sleeper" (.mock "in_season") [.mock "p1" 1 true]
      Schedule.leagueID ++
    [.spawn (.updateLeagueSettings Schedule.leagueID "u1" ⟨5000, some []⟩), .call 3 (.succeed 0 ""),
      .call 3 (.succeed 0 "f2"), .call 3 (.succeed 0 "")]

/-- After the first four requests the server does nothing in a state that upholds the payment. -/
def Unconfirmed (a : BackendConfig) (_ : BackendLabel) : Prop :=
  a.threads[3]?.isSome → ¬ ConfirmKind.payment.Upheld Schedule.leagueID "u1" a.world.db

instance : DecidablePred GoError.Foreign := fun _ => inferInstanceAs (Decidable (∀ _ ∈ _, _))

instance : DecidablePred ForeignError := by
  rintro ⟨c, r⟩
  rcases c with _ | _ <;> rcases r with _ | _ <;> unfold ForeignError <;> infer_instance

instance (k : ConfirmKind) (leagueID userID : String) (db : Database) :
    Decidable (k.Upheld leagueID userID db) := by
  unfold ConfirmKind.Upheld
  infer_instance

instance (a : BackendConfig) (l : BackendLabel) : Decidable (Unconfirmed a l) := by
  unfold Unconfirmed
  infer_instance

/-- The page is left while it waits for the instructions, and the payment is asked for again. The
handler that was left overwrites the payment that was reported first, which is lost although the
server has not confirmed anything. -/
theorem exists_lost_transaction : ∃ (history first rest : List PageAct) (p p' : LeagueOverview),
    Beside (backend Service.mock Crypto.mock) (fun _ _ => True)
      (pageClient Schedule.leagueID "u1" none) initialConfig .fresh history initialConfig p ∧
    history = first ++ ⟨initialConfig, p', .answered .payment (.wallet (.ok "0.0.1@1.2"))⟩ ::
      rest ∧ p.localStorage .payment = some "0.0.1@3.4" := by
  have hrun : ∃ q : LeagueOverview, LeagueOverview.fresh.after "u1" none leavesAndReturns = some q ∧
      q.localStorage .payment = some "0.0.1@3.4" := ⟨_, rfl, rfl⟩
  obtain ⟨q, hq, hstored⟩ := hrun
  have hstart : Runs .mock .mock (fun _ _ => True) initialConfig := .refl
  obtain ⟨history, hevents, hconfig, h⟩ := exists_beside Schedule.leagueID hstart (by decide) hq
  obtain ⟨first, p', rest, hsplit, -⟩ := exists_split hevents hconfig
  exact ⟨history, first, rest, q, p', h, hsplit, hstored⟩

end Wagr
