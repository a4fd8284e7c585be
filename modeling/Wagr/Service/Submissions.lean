import Wagr.Library.Past
import Wagr.Service.Steps

/-!
# Transactions the network has received

Every transaction was sent by a thread, keeps its data, and is settled once. What a thread was
told of its transactions is true of the submissions ever after.
-/

namespace Wagr

open Interaction System

variable {svc : Service} {crypto : Crypto} {a b : BackendConfig} {l : BackendLabel}
  {ok : BackendConfig → BackendLabel → Prop}

/-- The submissions are one transaction: settling it changes nothing but the outcome, once. -/
structure Submission.Same (s s' : Submission) : Prop where
  purpose : s'.purpose = s.purpose
  leagueID : s'.leagueID = s.leagueID
  recipients : s'.recipients = s.recipients
  amounts : s'.amounts = s.amounts
  outcome : s.outcome = .pending ∨ s'.outcome = s.outcome

/-- A submission is itself. -/
theorem Submission.Same.refl (s : Submission) : s.Same s := ⟨rfl, rfl, rfl, rfl, .inr rfl⟩

/-- Two steps of one transaction. -/
theorem Submission.Same.trans {s s' s'' : Submission} (h : s.Same s') (h' : s'.Same s'') :
    s.Same s'' where
  purpose := h'.purpose.trans h.purpose
  leagueID := h'.leagueID.trans h.leagueID
  recipients := h'.recipients.trans h.recipients
  amounts := h'.amounts.trans h.amounts
  outcome := by
    rcases h.outcome with hpending | hsame
    · exact .inl hpending
    · rcases h'.outcome with hpending | hsame'
      · exact .inl (hsame.symm.trans hpending)
      · exact .inr (hsame'.trans hsame)

/-- A transaction that is settled stays as it is. -/
theorem Submission.Same.eq {s s' : Submission} (h : s.Same s') (hs : s.outcome ≠ .pending) :
    s' = s := by
  obtain ⟨hpurpose, hkey, hrecipients, hamounts, houtcome⟩ := h
  cases s
  cases s'
  simp_all

/-- A transaction stays where it is. -/
theorem step_keeps_submission (h : (backend svc crypto).Step a l b) {k : ℕ} {s : Submission}
    (hs : a.world.submissions[k]? = some s) :
    ∃ s', b.world.submissions[k]? = some s' ∧ s.Same s' := by
  have hlt := (List.getElem?_eq_some_iff.mp hs).1
  cases h with
  | spawn j => exact ⟨s, hs, .refl s⟩
  | stop ht => exact ⟨s, hs, .refl s⟩
  | call ht hrest hrun hw =>
    rcases World.handles_cases hw with ⟨s', r', -, now, fresh, db, -, -, rfl⟩ | ⟨s', e, -, rfl⟩ |
      ⟨purpose, key, recipients, amounts, -, rfl⟩ | ⟨nonce, -, -, rfl⟩ | ⟨-, rfl⟩
    · exact ⟨s, hs, .refl s⟩
    · exact ⟨s, hs, .refl s⟩
    · exact ⟨s, by rwa [World.submit, List.getElem?_append_left hlt], .refl s⟩
    · exact ⟨s, hs, .refl s⟩
    · exact ⟨s, hs, .refl s⟩
  | env hw =>
    rcases World.act_cases hw with ⟨n, now, fresh, -, hland⟩ | ⟨n, succeeds, -, hsettle⟩ |
      ⟨-, storage, rfl⟩
    · obtain ⟨s', r, db, -, -, -, rfl⟩ := World.land_eq hland
      exact ⟨s, hs, .refl s⟩
    · obtain ⟨s₀, hs₀, hpending, ⟨storage, -, -, rfl⟩ | ⟨-, rfl⟩⟩ := World.settle_eq hsettle
      all_goals
        by_cases hnk : n = k
        · subst hnk
          obtain rfl := Option.some.inj (hs₀.symm.trans hs)
          exact ⟨_, List.getElem?_set_self hlt, rfl, rfl, rfl, rfl, .inl hpending⟩
        · exact ⟨s, by rwa [List.getElem?_set_ne hnk], .refl s⟩
    · exact ⟨s, hs, .refl s⟩

/-- A transaction after a step was there, or is the one the step sends. -/
theorem step_sent (h : (backend svc crypto).Step a l b) {k : ℕ} {s' : Submission}
    (hs' : b.world.submissions[k]? = some s') :
    (∃ s, a.world.submissions[k]? = some s ∧ s.Same s') ∨
    ∃ i amounts r,
      l = .call i (.contractExecute s'.purpose s'.leagueID s'.recipients amounts) r ∧
        s'.amounts = amounts.map abiWord := by
  rcases hold : a.world.submissions[k]? with _ | s
  · rcases step_submission_amounts h hs' with ⟨s, hs, -⟩ |
      ⟨rfl, i, key, recipients, amounts, r, rfl, -⟩
    · exact absurd (hold.symm.trans hs) (by simp)
    · cases h with
      | call ht hrest hrun hw =>
        have hhandled : a.world.handles _ r _ := hw
        rcases World.handles_cases hhandled with ⟨s, r', heq, -⟩ | ⟨s, e, heq, -⟩ |
          ⟨purpose, key', recipients', amounts', heq, rfl⟩ | ⟨nonce, heq, -⟩ | ⟨-, rfl⟩
        · cases heq
        · cases heq
        · obtain ⟨rfl, rfl, rfl, rfl⟩ := Call.contractExecute.inj heq
          simp only [World.submit, List.getElem?_concat_length, Option.some.injEq] at hs'
          refine .inr ⟨i, amounts, r, ?_, by rw [← hs']⟩
          rw [← hs']
        · cases heq
        · exact absurd (hold.symm.trans hs') (by simp)
  · obtain ⟨s'', hs'', hsame⟩ := step_keeps_submission h hold
    obtain rfl := Option.some.inj (hs''.symm.trans hs')
    exact .inl ⟨s, rfl, hsame⟩

/-- Along a run a transaction stays where it is. -/
theorem submission_later (h : (backend svc crypto).Reaches ok a b) {k : ℕ} {s : Submission}
    (hs : a.world.submissions[k]? = some s) :
    ∃ s', b.world.submissions[k]? = some s' ∧ s.Same s' := by
  induction h with
  | refl => exact ⟨s, hs, .refl s⟩
  | tail _ hlast ih =>
    obtain ⟨l, -, hstep⟩ := hlast
    obtain ⟨s', hs', hsame⟩ := ih
    obtain ⟨s'', hs'', hsame'⟩ := step_keeps_submission hstep hs'
    exact ⟨s'', hs'', hsame.trans hsame'⟩

/-- Every transaction was sent by some thread. -/
theorem Runs.sent (h : Runs svc crypto ok a) {k : ℕ} {s : Submission}
    (hs : a.world.submissions[k]? = some s) :
    ∃ amounts, s.amounts = amounts.map abiWord ∧ a.SomeTrace fun _ trace => ∃ r,
      (⟨.contractExecute s.purpose s.leagueID s.recipients amounts, r⟩ : Sigma Ret) ∈ trace := by
  induction h generalizing s with
  | refl => cases hs
  | @tail a b hrun hlast ih =>
    obtain ⟨l, -, hstep⟩ := hlast
    rcases step_sent hstep hs with ⟨s₀, hs₀, hsame⟩ | ⟨i, amounts, r, rfl, hamounts⟩
    · obtain ⟨amounts, hamounts, hsent⟩ := ih hs₀
      refine ⟨amounts, hsame.amounts.trans hamounts, hstep.someTrace ?_ ?_⟩
      · rintro _ trace call ⟨r, hr⟩
        exact ⟨r, List.mem_cons_of_mem _ hr⟩
      · rw [hsame.purpose, hsame.leagueID, hsame.recipients]
        exact hsent
    · exact ⟨amounts, hamounts, hstep.someTrace_call fun t ht => ⟨r, List.mem_cons_self⟩⟩

/-- A transaction whose submission was answered is where the answer says. -/
theorem Runs.received (h : Runs svc crypto ok a) {i : ℕ} {t : BackendThread}
    (ht : a.threads[i]? = some t) {purpose : Purpose} {key : Bytes32} {recipients : List Address}
    {amounts : List Int64} {resp : TransactionResponse}
    (hcall : (⟨.contractExecute purpose key recipients amounts, .ok resp⟩ : Sigma Ret) ∈ t.trace) :
    ∃ s, a.world.submissions[resp.index]? = some s ∧ s.purpose = purpose ∧ s.leagueID = key ∧
      s.recipients = recipients ∧ s.amounts = amounts.map abiWord := by
  obtain ⟨m, -⟩ := Reaches.moment_of_mem h rfl ht hcall
  obtain ⟨hindex, hworld⟩ := m.handles
  have hnew : m.after.world.submissions[resp.index]? =
      some ⟨purpose, key, recipients, amounts.map abiWord, .pending⟩ := by
    rw [hworld, hindex, World.submit, List.getElem?_concat_length]
  obtain ⟨s, hs, hsame⟩ := submission_later m.rest hnew
  exact ⟨s, hs, hsame.purpose, hsame.leagueID, hsame.recipients, hsame.amounts⟩

/-- A transaction whose receipt reported success has succeeded. -/
theorem Runs.receipted (h : Runs svc crypto ok a) {i : ℕ} {t : BackendThread}
    (ht : a.threads[i]? = some t) {resp : TransactionResponse}
    (hcall : (⟨.getReceipt resp, .ok .success⟩ : Sigma Ret) ∈ t.trace) :
    ∃ s, a.world.submissions[resp.index]? = some s ∧ s.outcome = .succeeded := by
  obtain ⟨m, -⟩ := Reaches.moment_of_mem h rfl ht hcall
  obtain ⟨-, houtcome⟩ := m.handles
  obtain ⟨s, hs, hsucceeded⟩ := Option.map_eq_some_iff.mp houtcome
  obtain ⟨s', hs', hsame⟩ := submission_later m.later hs
  refine ⟨s', hs', ?_⟩
  rcases hsame.outcome with hpending | heq
  · exact absurd (hpending.symm.trans hsucceeded) (by decide)
  · exact heq.trans hsucceeded

end Wagr
