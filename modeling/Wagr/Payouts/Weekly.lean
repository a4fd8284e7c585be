import Wagr.Payouts.WeeklyEvents
import Wagr.Service.Scenario

/-!
# Weekly events are paid once

A run pays whatever unexecuted events it has read. An event is paid at most once as long as
a read never returns an event that another run holds, or that a transaction has paid or may
still pay.
-/

namespace Wagr

open Interaction Protocol System

variable {svc : Service} {crypto : Crypto} {a b : BackendConfig} {l : BackendLabel}
  {ok : BackendConfig → BackendLabel → Prop} {eventID : String}

/-- The transaction pays the event, or may still pay it. -/
def Submission.Pays (s : Submission) (eventID : String) : Prop :=
  eventID ∈ s.purpose.eventIDs ∧ s.outcome ≠ .reverted

/-- Every event has one holder or one transaction at most. -/
structure EventsExclusive (a : BackendConfig) : Prop where
  holder : ∀ eventID (i j : ℕ) t u, a.threads[i]? = some t → a.threads[j]? = some u →
    MayPay eventID t → MayPay eventID u → i = j
  held : ∀ eventID (i : ℕ) t, a.threads[i]? = some t → MayPay eventID t →
    ∀ s ∈ a.world.submissions, ¬ s.Pays eventID
  paid : ∀ eventID (k n : ℕ) s s', a.world.submissions[k]? = some s →
    a.world.submissions[n]? = some s' → s.Pays eventID → s'.Pays eventID → k = n

/-- In the step thread `i` reads the event, and it may pay it afterwards. -/
def ReadsToPay (a : BackendConfig) (l : BackendLabel) (i : ℕ) (eventID : String) : Prop :=
  ∃ t c r next, l = .call i c r ∧ c.readsEvents ∧ a.threads[i]? = some t ∧
    t.rest = .call c next ∧ MayPay eventID (t.answer c r next)

/-- An event that is read to be paid is held by no other run, and no transaction has paid it or
may still pay it. -/
def ReadsUnheld (a : BackendConfig) (l : BackendLabel) : Prop :=
  ∀ i eventID, ReadsToPay a l i eventID →
    (∀ (j : ℕ) t, a.threads[j]? = some t → j ≠ i → ¬ MayPay eventID t) ∧
      ∀ s ∈ a.world.submissions, ¬ s.Pays eventID

/-- The step is the transaction of thread `i` for weekly events. -/
def PaysWeekly (l : BackendLabel) (i : ℕ) : Prop :=
  ∃ leagueID eventIDs key recipients amounts r,
    l = .call i (.contractExecute (.weekly leagueID eventIDs) key recipients amounts) r

/-- A call that does not read events leaves the held events alone or is a transaction. -/
theorem held_next {held : List String} {c : Call} {r : Ret c} (hc : ¬ c.readsEvents) :
    heldProtocol.next held c r = held ∨ heldProtocol.next held c r = [] ∧
      ∃ leagueID eventIDs key recipients amounts,
        c = .contractExecute (.weekly leagueID eventIDs) key recipients amounts := by
  cases c with
  | query q =>
    cases q with
    | unexecutedEvents leagueID week => exact absurd trivial hc
    | _ => exact .inl rfl
  | contractExecute purpose key recipients amounts =>
    cases purpose with
    | seasonEnd leagueID => exact .inl rfl
    | weekly leagueID eventIDs =>
      exact .inr ⟨rfl, leagueID, eventIDs, key, recipients, amounts, rfl⟩
  | _ => exact .inl rfl

/-- A thread that may pay an event after a step could do so before and has not sent its
transaction in the step, or it has just read the event. -/
theorem mayPay_step (h : (backend svc crypto).Step a l b) {i : ℕ} {t' : BackendThread}
    (ht' : b.threads[i]? = some t') (hpay : MayPay eventID t') :
    (∃ t, a.threads[i]? = some t ∧ MayPay eventID t ∧ ¬ PaysWeekly l i) ∨
      ReadsToPay a l i eventID := by
  cases h with
  | spawn j =>
    rcases getElem?_append_thread ht' with ⟨-, rfl⟩ | ht
    · cases hpay.2.1
    · exact .inl ⟨t', ht, hpay, by rintro ⟨_, _, _, _, _, _, h⟩; cases h⟩
  | @call k t c next r w ht hrest hrun hw =>
    rcases getElem?_set_thread ht ht' with ⟨rfl, rfl⟩ | ⟨hne, ht⟩
    · by_cases hreads : c.readsEvents
      · exact .inr ⟨t, c, r, next, rfl, hreads, ht, hrest, hpay⟩
      · obtain ⟨-, hheld, leagueID, eventIDs, key, recipients, amounts, hid, hmay⟩ := hpay
        have hnext : heldEvents (t.answer c r next) = heldProtocol.next (heldEvents t) c r := rfl
        rw [hnext] at hheld
        rcases held_next hreads with hsame | ⟨hnone, -⟩
        · rw [hsame] at hheld
          refine .inl ⟨t, ht,
            ⟨hrun, hheld, leagueID, eventIDs, key, recipients, amounts, hid, ?_⟩, ?_⟩
          · rw [hrest]
            exact .later hreads r hmay
          · rintro ⟨_, _, _, _, _, _, h⟩
            cases h
            rw [← hsame] at hheld
            cases hheld
        · rw [hnone] at hheld
          cases hheld
    · refine .inl ⟨t', ht, hpay, ?_⟩
      rintro ⟨_, _, _, _, _, _, h⟩
      cases h
      exact hne rfl
  | @stop k t ht =>
    rcases getElem?_set_thread ht ht' with ⟨rfl, rfl⟩ | ⟨-, ht⟩
    · cases hpay.1
    · exact .inl ⟨t', ht, hpay, by rintro ⟨_, _, _, _, _, _, h⟩; cases h⟩
  | env hw => exact .inl ⟨t', ht', hpay, by rintro ⟨_, _, _, _, _, _, h⟩; cases h⟩

/-- Whoever sends a transaction for an event was about to pay it. -/
theorem Runs.mayPay_of_sends (h : Runs svc crypto ok a) {i : ℕ} {purpose : Purpose} {key : Bytes32}
    {recipients : List Address} {amounts : List Int64}
    {r : Ret (.contractExecute purpose key recipients amounts)}
    (hstep : (backend svc crypto).Step a
      (.call i (.contractExecute purpose key recipients amounts) r) b)
    (hid : eventID ∈ purpose.eventIDs) :
    PaysWeekly (.call i (.contractExecute purpose key recipients amounts) r : BackendLabel) i ∧
      ∃ t, a.threads[i]? = some t ∧ MayPay eventID t := by
  cases purpose with
  | seasonEnd leagueID => cases hid
  | weekly leagueID eventIDs =>
    refine ⟨⟨leagueID, eventIDs, key, recipients, amounts, r, rfl⟩, ?_⟩
    cases hstep with
    | @call _ t _ next _ w ht hrest hrun hw =>
      have hfollows := follows_of_reaches h conforms_heldProtocol (by simp [initialConfig]) i t ht
      refine ⟨t, ht, hrun, hfollows.allows hrest eventID hid, leagueID, eventIDs, key, recipients,
        amounts, hid, ?_⟩
      rw [hrest]
      exact .here

/-- A transaction that pays an event after a step paid it before. -/
theorem Submission.Pays.before {s s' : Submission} (h : s'.Pays eventID)
    (hpurpose : s'.purpose = s.purpose) (hcases : s' = s ∨ s.outcome = .pending) :
    s.Pays eventID := by
  refine ⟨hpurpose ▸ h.1, ?_⟩
  rcases hcases with rfl | hpending
  · exact h.2
  · simp [hpending]

/-- The exclusion is kept by a step that reads only unheld events. -/
theorem EventsExclusive.step (h : Runs svc crypto ok a) (hinv : EventsExclusive a)
    (hstep : (backend svc crypto).Step a l b) (hok : ReadsUnheld a l) : EventsExclusive b where
  holder eventID i j t u ht hu hpt hpu := by
    rcases mayPay_step hstep ht hpt with ⟨t₀, ht₀, hpt₀, -⟩ | hreads
    · rcases mayPay_step hstep hu hpu with ⟨u₀, hu₀, hpu₀, -⟩ | hreads'
      · exact hinv.holder eventID i j t₀ u₀ ht₀ hu₀ hpt₀ hpu₀
      · by_contra hne
        exact (hok j eventID hreads').1 i t₀ ht₀ hne hpt₀
    · rcases mayPay_step hstep hu hpu with ⟨u₀, hu₀, hpu₀, -⟩ | hreads'
      · by_contra hne
        exact (hok i eventID hreads).1 j u₀ hu₀ (Ne.symm hne) hpu₀
      · obtain ⟨t₀, c, r, next, rfl, -⟩ := hreads
        obtain ⟨u₀, c', r', next', heq, -⟩ := hreads'
        cases heq
        rfl
  held eventID i t ht hpt s hs hpays := by
    rcases step_submissions hstep hs with ⟨s₀, hs₀, hpurpose, hcases⟩ |
      ⟨k, key, recipients, amounts, r, rfl⟩
    · have hpays₀ := hpays.before hpurpose hcases
      rcases mayPay_step hstep ht hpt with ⟨t₀, ht₀, hpt₀, -⟩ | hreads
      · exact hinv.held eventID i t₀ ht₀ hpt₀ s₀ hs₀ hpays₀
      · exact (hok i eventID hreads).2 s₀ hs₀ hpays₀
    · obtain ⟨hpaysk, u, hu, hpu⟩ := h.mayPay_of_sends hstep hpays.1
      rcases mayPay_step hstep ht hpt with ⟨t₀, ht₀, hpt₀, hnot⟩ | hreads
      · obtain rfl := hinv.holder eventID i k t₀ u ht₀ hu hpt₀ hpu
        exact hnot hpaysk
      · obtain ⟨t₀, c, r', next, heq, hc, -⟩ := hreads
        cases heq
        exact hc
  paid eventID k n s s' hs hs' hpays hpays' := by
    rcases step_submission hstep hs with ⟨s₀, hs₀, hpurpose, hcases⟩ |
      ⟨rfl, i, key, recipients, amounts, r, rfl⟩
    · have hpays₀ := hpays.before hpurpose hcases
      rcases step_submission hstep hs' with ⟨s₁, hs₁, hpurpose', hcases'⟩ |
        ⟨rfl, i, key, recipients, amounts, r, rfl⟩
      · exact hinv.paid eventID k n s₀ s₁ hs₀ hs₁ hpays₀ (hpays'.before hpurpose' hcases')
      · obtain ⟨-, u, hu, hpu⟩ := h.mayPay_of_sends hstep hpays'.1
        exact absurd hpays₀ (hinv.held eventID i u hu hpu s₀ (List.mem_of_getElem? hs₀))
    · rcases step_submission hstep hs' with ⟨s₁, hs₁, hpurpose', hcases'⟩ | ⟨rfl, -⟩
      · obtain ⟨-, u, hu, hpu⟩ := h.mayPay_of_sends hstep hpays.1
        exact absurd (hpays'.before hpurpose' hcases')
          (hinv.held eventID i u hu hpu s₁ (List.mem_of_getElem? hs₁))
      · rfl

/-- Reading events changes nothing in the world. -/
theorem world_of_readsEvents {w w' : World} {c : Call} {r : Ret c} (hc : c.readsEvents)
    (hw : w.handles c r w') : w' = w := by
  cases c with
  | query q => exact hw.1
  | _ => cases hc

/-- A step after which the exclusion holds reads only unheld events. -/
theorem EventsExclusive.readsUnheld (hinv : EventsExclusive b)
    (hstep : (backend svc crypto).Step a l b) : ReadsUnheld a l := by
  rintro i eventID ⟨t, c, r, next, rfl, hc, ht, hrest, hpay⟩
  cases hstep with
  | @call _ t' _ next' _ w ht' hrest' hrun hw =>
    obtain rfl := Option.some.inj (ht.symm.trans ht')
    cases hrest.symm.trans hrest'
    obtain rfl := world_of_readsEvents hc hw
    have hlt : i < a.threads.length := (List.getElem?_eq_some_iff.mp ht).1
    have hafter : (a.threads.set i (t.answer c r next))[i]? = some (t.answer c r next) :=
      List.getElem?_set_self hlt
    refine ⟨fun j u hu hne hpu => ?_, fun s hs => hinv.held eventID i _ hafter hpay s hs⟩
    have hu' : (a.threads.set i (t.answer c r next))[j]? = some u := by
      rwa [List.getElem?_set_ne (Ne.symm hne)]
    exact hne (hinv.holder eventID j i u _ hu' hafter hpu hpay)

/-- No event is in two transactions that have succeeded. -/
def PaidOnce (a : BackendConfig) : Prop :=
  ∀ eventID (k n : ℕ) s s', a.world.submissions[k]? = some s →
    a.world.submissions[n]? = some s' → eventID ∈ s.purpose.eventIDs →
    eventID ∈ s'.purpose.eventIDs → s.outcome = .succeeded → s'.outcome = .succeeded → k = n

/-- The exclusion holds along every run whose reads return only unheld events. -/
theorem Runs.eventsExclusive (h : Runs svc crypto ReadsUnheld a) : EventsExclusive a := by
  induction h with
  | refl => constructor <;> simp [initialConfig]
  | tail hrun hlast ih =>
    obtain ⟨l, hok, hl⟩ := hlast
    exact ih.step hrun hl hok

/-- Along every run whose reads return only unheld events, no event is paid twice, each has one
holder or one transaction at most, and a further step keeps it so exactly if it reads only
unheld events as well. -/
theorem eventsExclusive_iff (h : Runs svc crypto ReadsUnheld a) :
    PaidOnce a ∧ EventsExclusive a ∧ ∀ l b, (backend svc crypto).Step a l b →
      (EventsExclusive b ↔ ReadsUnheld a l) := by
  have hinv : EventsExclusive a := h.eventsExclusive
  refine ⟨?_, hinv, fun l b hl => ⟨fun hb => hb.readsUnheld hl, hinv.step h hl⟩⟩
  intro eventID k n s s' hs hs' hid hid' hsucceeded hsucceeded'
  exact hinv.paid eventID k n s s' hs hs' ⟨hid, by simp [hsucceeded]⟩ ⟨hid', by simp [hsucceeded']⟩

/-- The thread and the events of an answered read. -/
def eventsRead : BackendLabel → Option (ℕ × List String)
  | .call i (.query (.unexecutedEvents _ _)) (.ok stream) =>
    some (i, stream.rows.map WeeklyEvent.id)
  | _ => none

/-- A read returns only events that nobody has read and that are in no transaction. -/
def ReadsFresh (a : BackendConfig) (l : BackendLabel) : Prop :=
  ∀ read ∈ eventsRead l, ∀ eventID ∈ read.2,
    (∀ t ∈ a.threads, eventID ∉ heldEvents t) ∧
      ∀ s ∈ a.world.submissions, eventID ∉ s.purpose.eventIDs

instance (a : BackendConfig) (l : BackendLabel) : Decidable (ReadsFresh a l) :=
  inferInstanceAs (Decidable (∀ read ∈ eventsRead l, ∀ eventID ∈ read.2,
    (∀ t ∈ a.threads, eventID ∉ heldEvents t) ∧
      ∀ s ∈ a.world.submissions, eventID ∉ s.purpose.eventIDs))

/-- Events that nobody has read are unheld. -/
theorem ReadsFresh.readsUnheld (h : ReadsFresh a l) : ReadsUnheld a l := by
  rintro i eventID ⟨t, c, r, next, rfl, hc, -, -, -, hheld, -⟩
  cases c with
  | query q =>
    cases q with
    | unexecutedEvents leagueID week =>
      cases r with
      | error e => cases hheld
      | ok stream =>
        obtain ⟨hthreads, hsubmissions⟩ := h _ rfl eventID hheld
        refine ⟨fun j u hu _ hpay => hthreads u (List.mem_of_getElem? hu) hpay.2.1, ?_⟩
        exact fun s hs hpays => hsubmissions s hs hpays.1
    | _ => cases hc
  | _ => cases hc

/-- A weekly run pays the best team of the week, and a second run finds the event executed. -/
def successiveRuns : Schedule :=
  Schedule.fundedLeague Schedule.highScore ++ Schedule.weekly 4 "e1" ++
    Schedule.payWeekly 4 "tx1" ++
    [.env (.settle 0 true), .call 4 (.succeed 0 ""), .call 4 (.succeed 0 "f3")] ++
    Schedule.weekly 5 "e2"

/-- The result at the end of that run, where one transaction has succeeded. -/
theorem eventsExclusive_successiveRuns : ∃ a, Runs .mock .mock ReadsUnheld a ∧
    (∃ s ∈ a.world.submissions, "e1" ∈ s.purpose.eventIDs ∧ s.outcome = .succeeded) ∧
    PaidOnce a ∧ EventsExclusive a ∧ ∀ l b, (backend .mock .mock).Step a l b →
      (EventsExclusive b ↔ ReadsUnheld a l) := by
  obtain ⟨a, hfresh, hpaid⟩ := successiveRuns.exists_run .mock .mock ReadsFresh
    (fun a => ∃ s ∈ a.world.submissions, "e1" ∈ s.purpose.eventIDs ∧ s.outcome = .succeeded)
    (by decide)
  have hrun : Runs .mock .mock ReadsUnheld a := hfresh.mono fun _ _ h => h.readsUnheld
  exact ⟨a, hrun, hpaid, eventsExclusive_iff hrun⟩

/-- Two runs read the event of the week before either has paid it. -/
def overlappingRuns : Schedule :=
  Schedule.fundedLeague Schedule.highScore ++
    [.env (.payEntryFee 10 Schedule.leagueKey Schedule.dollar)] ++
    Schedule.weekly 4 "e1" ++ Schedule.weekly 5 "e2" ++
    Schedule.payWeekly 4 "tx1" ++ Schedule.payWeekly 5 "tx2" ++
    [.env (.settle 0 true), .env (.settle 1 true)]

/-- Both transactions pay the event and succeed. -/
theorem exists_event_paid_twice :
    ∃ a, Runs .mock .mock (fun _ _ => True) a ∧ ¬ PaidOnce a := by
  obtain ⟨a, hrun, s, hs, s', hs', hid, hid', hsucceeded, hsucceeded'⟩ :=
    overlappingRuns.exists_run .mock .mock (fun _ _ => True)
      (fun a => ∃ s ∈ a.world.submissions[0]?, ∃ s' ∈ a.world.submissions[1]?,
        "e1" ∈ s.purpose.eventIDs ∧ "e1" ∈ s'.purpose.eventIDs ∧
          s.outcome = .succeeded ∧ s'.outcome = .succeeded) (by decide)
  refine ⟨a, hrun, fun honce => ?_⟩
  cases honce "e1" 0 1 s s' hs hs' hid hid' hsucceeded hsucceeded'

end Wagr
