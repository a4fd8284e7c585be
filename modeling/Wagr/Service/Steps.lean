import Wagr.Service.Footprint

/-!
# What one step of the backend does

Every step is spelled out once, for each part of the world: which statement takes effect,
what happens to the statements in flight, the submissions, the escrow's storage and the
nonces. The calls of every thread stay in the footprint of its request, and every
statement in flight was issued by some thread.
-/

namespace Wagr

open Interaction Protocol

variable {svc : Service} {crypto : Crypto} {a b : BackendConfig} {l : BackendLabel}
  {ok : BackendConfig → BackendLabel → Prop}

/-- The runs of the backend from its start whose steps satisfy an assumption. -/
abbrev Runs (svc : Service) (crypto : Crypto) (ok : BackendConfig → BackendLabel → Prop)
    (a : BackendConfig) : Prop :=
  (backend svc crypto).Reaches ok initialConfig a

/-- The statement a step brings into effect: it is executed successfully, or it was in flight
and lands. -/
def applied (a : BackendConfig) : BackendLabel → Option Statement
  | .call _ (.exec s) (.ok _) => some s
  | .env (.land k _ _) => a.world.inFlight[k]?
  | _ => none

/-- What the transaction is for that a step sends. -/
def sends : BackendLabel → Option Purpose
  | .call _ (.contractExecute purpose _ _ _) _ => some purpose
  | _ => none

/-- A step that sends a transaction answers the call for it. -/
theorem sends_eq {purpose : Purpose} (h : purpose ∈ sends l) :
    ∃ i key recipients amounts r,
      l = .call i (.contractExecute purpose key recipients amounts) r := by
  cases l with
  | call i c r =>
    cases c with
    | contractExecute purpose' key recipients amounts =>
      obtain rfl : purpose' = purpose := Option.some.inj h
      exact ⟨i, key, recipients, amounts, r, rfl⟩
    | _ => cases h
  | _ => cases h

/-- What a statement that takes effect does to the world. -/
def World.Updates (w : World) (s : Statement) (w' : World) : Prop :=
  ∃ now fresh r, fresh ∉ w.issued ∧ s.run now fresh w.db = some (r, w'.db) ∧
    w'.issued = fresh :: w.issued ∧ w'.submissions = w.submissions

/-- The world after an answered call. -/
theorem World.handles_cases {w w' : World} {c : Call} {r : Ret c} (h : w.handles c r w') :
    (∃ s r', (⟨c, r⟩ : Sigma Ret) = ⟨.exec s, .ok r'⟩ ∧ w.Executes s r' w') ∨
    (∃ s e, (⟨c, r⟩ : Sigma Ret) = ⟨.exec s, .error e⟩ ∧
      w' = { w with inFlight := w.inFlight ++ [s] }) ∨
    (∃ purpose leagueID recipients amounts,
      c = .contractExecute purpose leagueID recipients amounts ∧
      w' = w.submit purpose leagueID recipients amounts) ∨
    (∃ nonce, (⟨c, r⟩ : Sigma Ret) = ⟨.generateNonce, .ok nonce⟩ ∧ nonce ∉ w.nonces ∧
      w' = { w with nonces := nonce :: w.nonces }) ∨
    ((∀ s, c ≠ .exec s) ∧ w' = w) := by
  cases c with
  | exec s =>
    cases r with
    | ok r => exact .inl ⟨s, r, rfl, h⟩
    | error e => exact .inr (.inl ⟨s, e, rfl, h⟩)
  | query q => exact .inr (.inr (.inr (.inr ⟨by simp, h.1⟩)))
  | contractExecute purpose leagueID recipients amounts =>
    cases r with
    | ok resp => exact .inr (.inr (.inl ⟨purpose, leagueID, recipients, amounts, rfl, h.2⟩))
    | error e =>
      rcases h with h | h
      · exact .inr (.inr (.inr (.inr ⟨by simp, h⟩)))
      · exact .inr (.inr (.inl ⟨purpose, leagueID, recipients, amounts, rfl, h⟩))
  | getReceipt resp => exact .inr (.inr (.inr (.inr ⟨by simp, h.1⟩)))
  | generateNonce =>
    cases r with
    | ok nonce => exact .inr (.inr (.inr (.inl ⟨nonce, rfl, h.1, h.2⟩)))
    | error e => exact .inr (.inr (.inr (.inr ⟨by simp, h⟩)))
  | _ => exact .inr (.inr (.inr (.inr ⟨by simp, h⟩)))

/-- The world after a landing. -/
theorem World.land_eq {w w' : World} {k now : ℕ} {fresh : String}
    (h : w.land k now fresh = some w') :
    ∃ s r db, w.inFlight[k]? = some s ∧ fresh ∉ w.issued ∧ s.run now fresh w.db = some (r, db) ∧
      w' = { w with db := db, inFlight := w.inFlight.eraseIdx k, issued := fresh :: w.issued } := by
  simp only [land, Option.bind_eq_bind, Option.bind_eq_some_iff] at h
  obtain ⟨s, hs, h⟩ := h
  split at h
  · cases h
  · rename_i hfresh
    obtain ⟨⟨r, db⟩, hrun, h⟩ := Option.bind_eq_some_iff.mp h
    cases h
    exact ⟨s, r, db, hs, hfresh, hrun, rfl⟩

/-- The world after a settlement. -/
theorem World.settle_eq {w w' : World} {k : ℕ} {succeeds : Bool}
    (h : w.settle k succeeds = some w') :
    ∃ s, w.submissions[k]? = some s ∧ s.outcome = .pending ∧
      ((∃ storage, succeeds = true ∧
        w.storage.distributePayout s.leagueID s.recipients s.amounts = .ok storage ∧
        w' = { w with
          storage := storage
          submissions := w.submissions.set k { s with outcome := .succeeded } }) ∨
      (succeeds = false ∧
        w' = { w with submissions := w.submissions.set k { s with outcome := .reverted } })) := by
  simp only [settle, Option.bind_eq_bind, Option.bind_eq_some_iff] at h
  obtain ⟨s, hs, h⟩ := h
  split at h
  · cases h
  · rename_i hpending
    refine ⟨s, hs, not_not.mp hpending, ?_⟩
    cases succeeds with
    | true =>
      simp only [if_true] at h
      split at h
      · rename_i storage hstorage
        cases h
        exact .inl ⟨storage, rfl, hstorage, rfl⟩
      · cases h
    | false =>
      cases h
      exact .inr ⟨rfl, rfl⟩

/-- The world after an activity of the surroundings, except for the escrow's storage. -/
theorem World.act_cases {w w' : World} {e : Activity} (h : w.act e = some w') :
    (∃ k now fresh, e = .land k now fresh ∧ w.land k now fresh = some w') ∨
    (∃ k succeeds, e = .settle k succeeds ∧ w.settle k succeeds = some w') ∨
    ((∀ k now fresh, e ≠ .land k now fresh) ∧ ∃ storage, w' = { w with storage := storage }) := by
  cases e with
  | land k now fresh => exact .inl ⟨k, now, fresh, rfl, h⟩
  | settle k succeeds => exact .inr (.inl ⟨k, succeeds, rfl, h⟩)
  | payEntryFee member leagueId amount =>
    simp only [act] at h
    split at h
    · cases h
      exact .inr (.inr ⟨by simp, _, rfl⟩)
    · cases h
  | claimRefund member leagueId =>
    simp only [act] at h
    split at h
    · cases h
      exact .inr (.inr ⟨by simp, _, rfl⟩)
    · cases h

/-- An answered call that is no statement brings none into effect. -/
theorem applied_call {i : ℕ} {c : Call} {r : Ret c} (h : ∀ s, c ≠ .exec s) :
    applied a (.call i c r) = none := by
  cases c with
  | exec s => exact absurd rfl (h s)
  | _ => rfl

/-- An activity that is no landing brings no statement into effect. -/
theorem applied_env {e : Activity} (h : ∀ k now fresh, e ≠ .land k now fresh) :
    applied a (.env e) = none := by
  cases e with
  | land k now fresh => exact absurd rfl (h k now fresh)
  | _ => rfl

/-- A step leaves the database alone or brings one statement into effect. -/
theorem step_db (h : (backend svc crypto).Step a l b) :
    (applied a l = none ∧ b.world.db = a.world.db ∧ b.world.issued = a.world.issued) ∨
      ∃ s, applied a l = some s ∧ a.world.Updates s b.world := by
  cases h with
  | spawn j => exact .inl ⟨rfl, rfl, rfl⟩
  | stop ht => exact .inl ⟨rfl, rfl, rfl⟩
  | call ht hrest hrun hw =>
    rcases World.handles_cases hw with ⟨s, r', heq, now, fresh, db, hfresh, hs, rfl⟩ |
      ⟨s, e, heq, rfl⟩ | ⟨purpose, leagueID, recipients, amounts, heq, rfl⟩ |
      ⟨nonce, heq, hnonce, rfl⟩ | ⟨hc, rfl⟩
    · cases heq
      exact .inr ⟨s, rfl, now, fresh, r', hfresh, hs, rfl, rfl⟩
    · cases heq
      exact .inl ⟨rfl, rfl, rfl⟩
    · subst heq
      exact .inl ⟨rfl, rfl, rfl⟩
    · cases heq
      exact .inl ⟨rfl, rfl, rfl⟩
    · exact .inl ⟨applied_call hc, rfl, rfl⟩
  | env hw =>
    rcases World.act_cases hw with ⟨k, now, fresh, rfl, hland⟩ | ⟨k, succeeds, rfl, hsettle⟩ |
      ⟨hland, storage, rfl⟩
    · obtain ⟨s, r, db, hs, hfresh, hrun, rfl⟩ := World.land_eq hland
      exact .inr ⟨s, hs, now, fresh, r, hfresh, hrun, rfl, rfl⟩
    · obtain ⟨s, hs, hpending, ⟨storage, -, -, rfl⟩ | ⟨-, rfl⟩⟩ := World.settle_eq hsettle
      · exact .inl ⟨rfl, rfl, rfl⟩
      · exact .inl ⟨rfl, rfl, rfl⟩
    · exact .inl ⟨applied_env hland, rfl, rfl⟩

/-- A step only adds a statement in flight when a call reports an error for it. -/
theorem step_inFlight (h : (backend svc crypto).Step a l b) {s : Statement}
    (hs : s ∈ b.world.inFlight) :
    s ∈ a.world.inFlight ∨ ∃ i e, l = .call i (.exec s) (.error e) := by
  cases h with
  | spawn j => exact .inl hs
  | stop ht => exact .inl hs
  | call ht hrest hrun hw =>
    rcases World.handles_cases hw with ⟨s', r', heq, now, fresh, db, hfresh, hrun', rfl⟩ |
      ⟨s', e, heq, rfl⟩ | ⟨purpose, leagueID, recipients, amounts, heq, rfl⟩ |
      ⟨nonce, heq, hnonce, rfl⟩ | ⟨hc, rfl⟩
    · exact .inl hs
    · cases heq
      rcases List.mem_append.mp hs with hs | hs
      · exact .inl hs
      · obtain rfl := List.mem_singleton.mp hs
        exact .inr ⟨_, e, rfl⟩
    · exact .inl hs
    · exact .inl hs
    · exact .inl hs
  | env hw =>
    rcases World.act_cases hw with ⟨k, now, fresh, rfl, hland⟩ | ⟨k, succeeds, rfl, hsettle⟩ |
      ⟨hland, storage, rfl⟩
    · obtain ⟨s', r, db, hs', hfresh, hrun, rfl⟩ := World.land_eq hland
      exact .inl (List.mem_of_mem_eraseIdx hs)
    · obtain ⟨s', hs', hpending, ⟨storage, -, -, rfl⟩ | ⟨-, rfl⟩⟩ := World.settle_eq hsettle
      · exact .inl hs
      · exact .inl hs
    · exact .inl hs

/-- A step leaves a submission alone, settles a pending one or adds a new one at the end, with the
words of its amounts. -/
theorem step_submission_amounts (h : (backend svc crypto).Step a l b) {k : ℕ} {s' : Submission}
    (hs' : b.world.submissions[k]? = some s') :
    (∃ s, a.world.submissions[k]? = some s ∧ s'.purpose = s.purpose ∧ s'.amounts = s.amounts ∧
      (s' = s ∨ s.outcome = .pending)) ∨
    (k = a.world.submissions.length ∧ ∃ i key recipients amounts r,
      l = .call i (.contractExecute s'.purpose key recipients amounts) r ∧
        s'.amounts = amounts.map abiWord) := by
  have hkeep : ∀ {k : ℕ} {s' : Submission}, a.world.submissions[k]? = some s' →
      ∃ s, a.world.submissions[k]? = some s ∧ s'.purpose = s.purpose ∧ s'.amounts = s.amounts ∧
        (s' = s ∨ s.outcome = .pending) :=
    fun {k s'} h => ⟨s', h, rfl, rfl, .inl rfl⟩
  cases h with
  | spawn j => exact .inl (hkeep hs')
  | stop ht => exact .inl (hkeep hs')
  | @call i t c next r w ht hrest hrun hw =>
    rcases World.handles_cases hw with ⟨s, r', heq, now, fresh, db, -, -, rfl⟩ |
      ⟨s, e, -, rfl⟩ | ⟨purpose, key, recipients, amounts, rfl, rfl⟩ | ⟨nonce, -, -, rfl⟩ |
      ⟨-, rfl⟩
    · exact .inl (hkeep hs')
    · exact .inl (hkeep hs')
    · rcases Nat.lt_trichotomy k a.world.submissions.length with hlt | rfl | hgt
      · exact .inl (hkeep (by simpa [World.submit, List.getElem?_append_left hlt] using hs'))
      · simp only [World.submit, List.getElem?_concat_length, Option.some.injEq] at hs'
        subst hs'
        exact .inr ⟨rfl, i, key, recipients, amounts, r, rfl, rfl⟩
      · rw [World.submit, List.getElem?_eq_none (by simp; omega)] at hs'
        cases hs'
    · exact .inl (hkeep hs')
    · exact .inl (hkeep hs')
  | @env e w hw =>
    rcases World.act_cases hw with ⟨n, now, fresh, rfl, hland⟩ | ⟨n, succeeds, rfl, hsettle⟩ |
      ⟨-, storage, rfl⟩
    · obtain ⟨s, r, db, -, -, -, rfl⟩ := World.land_eq hland
      exact .inl (hkeep hs')
    · obtain ⟨s, hs, hpending, ⟨storage, -, -, rfl⟩ | ⟨-, rfl⟩⟩ := World.settle_eq hsettle
      all_goals
        by_cases hnk : n = k
        · subst hnk
          rw [List.getElem?_set_self (List.getElem?_eq_some_iff.mp hs).1] at hs'
          obtain rfl := Option.some.inj hs'
          exact .inl ⟨s, hs, rfl, rfl, .inr hpending⟩
        · rw [List.getElem?_set_ne hnk] at hs'
          exact .inl (hkeep hs')
    · exact .inl (hkeep hs')

/-- A step leaves a submission alone, settles a pending one or adds a new one at the end. -/
theorem step_submission (h : (backend svc crypto).Step a l b) {k : ℕ} {s' : Submission}
    (hs' : b.world.submissions[k]? = some s') :
    (∃ s, a.world.submissions[k]? = some s ∧ s'.purpose = s.purpose ∧
      (s' = s ∨ s.outcome = .pending)) ∨
    (k = a.world.submissions.length ∧
      ∃ i key recipients amounts r,
        l = .call i (.contractExecute s'.purpose key recipients amounts) r) := by
  rcases step_submission_amounts h hs' with ⟨s, hs, hpurpose, -, hcases⟩ |
    ⟨hk, i, key, recipients, amounts, r, hcall, -⟩
  · exact .inl ⟨s, hs, hpurpose, hcases⟩
  · exact .inr ⟨hk, i, key, recipients, amounts, r, hcall⟩

/-- A submission after a step was there, was pending before, or is new. -/
theorem step_submissions (h : (backend svc crypto).Step a l b) {s' : Submission}
    (hs' : s' ∈ b.world.submissions) :
    (∃ s ∈ a.world.submissions, s'.purpose = s.purpose ∧ (s' = s ∨ s.outcome = .pending)) ∨
    ∃ i key recipients amounts r,
      l = .call i (.contractExecute s'.purpose key recipients amounts) r := by
  obtain ⟨k, hk⟩ := List.mem_iff_getElem?.mp hs'
  rcases step_submission h hk with ⟨s, hs, hpurpose, hcases⟩ | ⟨-, hcall⟩
  · exact .inl ⟨s, List.mem_of_getElem? hs, hpurpose, hcases⟩
  · exact .inr hcall

/-! ## Which call a statement comes from -/

/-- Some thread's call of the statement was answered. -/
def Called (a : BackendConfig) (s : Statement) : Prop :=
  a.SomeTrace fun _ trace => ∃ r, (⟨.exec s, r⟩ : Sigma Ret) ∈ trace

/-- What was called stays so. -/
theorem Called.step {s : Statement} (h : Called a s) (hstep : (backend svc crypto).Step a l b) :
    Called b s := by
  refine hstep.someTrace (fun req trace call hp => ?_) h
  obtain ⟨r, hr⟩ := hp
  exact ⟨r, List.mem_cons_of_mem _ hr⟩

/-- A statement in flight was called by some thread. -/
theorem Runs.inFlight_called (h : Runs svc crypto ok a) {s : Statement}
    (hs : s ∈ a.world.inFlight) : Called a s := by
  induction h with
  | refl => simp [initialConfig] at hs
  | tail hrun hlast ih =>
    obtain ⟨l, -, hstep⟩ := hlast
    rcases step_inFlight hstep hs with hs | ⟨i, e, rfl⟩
    · exact (ih hs).step hstep
    · exact hstep.someTrace_call fun t ht => ⟨.error e, List.mem_cons_self⟩

/-- A statement that takes effect was called by some thread. -/
theorem Runs.applied_called (h : Runs svc crypto ok a) (hstep : (backend svc crypto).Step a l b)
    {s : Statement} (hs : applied a l = some s) : Called b s := by
  cases l with
  | call i c r =>
    cases c with
    | exec s' =>
      cases r with
      | ok r =>
        cases hs
        exact hstep.someTrace_call fun t ht => ⟨.ok r, List.mem_cons_self⟩
      | error e => cases hs
    | _ => cases hs
  | env e =>
    cases e with
    | land k now fresh => exact (h.inFlight_called (List.mem_of_getElem? hs)).step hstep
    | _ => cases hs
  | _ => cases hs

/-! ## Who has issued a statement -/

section Issued

variable {Φ : Type} {P : Protocol Call Ret Φ} {start : Request → Φ}
  {Q : Request → Φ → Except GoError Response → Prop}

/-- Some thread was, now or earlier, allowed to run the statement. -/
def Allowed (P : Protocol Call Ret Φ) (start : Request → Φ) (a : BackendConfig) (s : Statement) :
    Prop :=
  a.SomeTrace fun req trace => ∃ earlier, earlier <:+ trace ∧
    P.allows (P.phase (start req) earlier) (.exec s)

/-- What was allowed stays so. -/
theorem Allowed.step {s : Statement} (h : Allowed P start a s)
    (hstep : (backend svc crypto).Step a l b) : Allowed P start b s := by
  refine hstep.someTrace (fun req trace call hp => ?_) h
  obtain ⟨earlier, hsuffix, hallows⟩ := hp
  exact ⟨earlier, hsuffix.trans (List.suffix_cons _ _), hallows⟩

/-- A statement in flight was allowed to some thread. -/
theorem Runs.inFlight_allowed (h : Runs svc crypto ok a)
    (hbody : ∀ req, P.Conforms (start req) ((backend svc crypto).body req) (Q req))
    {s : Statement} (hs : s ∈ a.world.inFlight) : Allowed P start a s := by
  induction h with
  | refl => simp [initialConfig] at hs
  | @tail a b hrun hlast ih =>
    obtain ⟨l, -, hstep⟩ := hlast
    rcases step_inFlight hstep hs with hs | ⟨i, e, rfl⟩
    · exact (ih hs).step hstep
    · refine hstep.someTrace_call fun t ht => ⟨t.trace, List.suffix_cons _ _, ?_⟩
      cases hstep with
      | call hu hrest hrun' hw =>
        obtain rfl := Option.some.inj (ht.symm.trans hu)
        exact (follows_of_reaches hrun hbody (by simp [initialConfig]) _ _ hu).allows hrest

/-- A statement that takes effect was allowed to some thread. -/
theorem Runs.applied_allowed (h : Runs svc crypto ok a)
    (hbody : ∀ req, P.Conforms (start req) ((backend svc crypto).body req) (Q req))
    (hstep : (backend svc crypto).Step a l b) {s : Statement} (hs : applied a l = some s) :
    Allowed P start a s := by
  cases hstep with
  | spawn j => cases hs
  | stop ht => cases hs
  | @call i t c next r w ht hrest hrun hw =>
    have hallows := (follows_of_reaches h hbody (by simp [initialConfig]) _ _ ht).allows hrest
    cases c with
    | exec s' =>
      cases r with
      | ok r =>
        cases hs
        exact ⟨i, t, ht, t.trace, List.suffix_rfl, hallows⟩
      | error e => cases hs
    | _ => cases hs
  | @env e w hw =>
    cases e with
    | land k now fresh => exact h.inFlight_allowed hbody (List.mem_of_getElem? hs)
    | _ => cases hs

end Issued

/-- The footprints as a protocol whose phase is the request. -/
def footprints : Protocol Call Ret Request := ⟨Request.mayCall, fun req _ _ => req⟩

/-- The phase of the footprints never changes. -/
@[simp] theorem footprints_phase (req : Request) (trace : List (Sigma Ret)) :
    footprints.phase req trace = req := by
  induction trace with
  | nil => rfl
  | cons call trace ih => exact ih

/-- Every request keeps to its footprint. -/
theorem conforms_footprints (req : Request) :
    footprints.Conforms req ((backend svc crypto).body req) fun _ _ => True :=
  (conforms_of_footprint (P := footprints) (calls_request req)
    fun _ hc => ⟨hc, fun _ => rfl⟩).mono fun _ _ _ => trivial

/-- Every call a thread may still make is in its footprint. -/
theorem Runs.mayCall (h : Runs svc crypto ok a) {i : ℕ} {t : BackendThread}
    (ht : a.threads[i]? = some t) {c : Call} (hc : t.rest.MayCall c) : t.job.mayCall c := by
  have hfollows : footprints.Conforms (footprints.phase t.job t.trace) t.rest fun _ _ => True :=
    follows_of_reaches h conforms_footprints (by simp [initialConfig]) i t ht
  rw [footprints_phase] at hfollows
  generalize t.rest = rest at hfollows hc
  induction hc with
  | here => exact hfollows.1
  | later hd r hlater ih => exact ih (hfollows.2 r)

/-- A statement that takes effect is in the footprint of some request. -/
theorem Runs.mayExec (h : Runs svc crypto ok a) (hstep : (backend svc crypto).Step a l b)
    {s : Statement} (hs : applied a l = some s) : ∃ req : Request, req.mayExec s := by
  obtain ⟨i, t, ht, earlier, -, hallows⟩ :=
    h.applied_allowed (P := footprints) conforms_footprints hstep hs
  rw [footprints_phase] at hallows
  exact ⟨t.job, hallows⟩

end Wagr
