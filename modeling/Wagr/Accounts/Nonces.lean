import Wagr.Accounts.LoginProtocol
import Wagr.Service.Rows

/-!
# Every nonce is in one place

A drawn nonce is held by one thread, in flight in one statement, or stored for one user.
Steps move it between these places, and a nonce that has left them never comes back.
-/

namespace Wagr

open Interaction Protocol System Relational

variable {svc : Service} {crypto : Crypto} {a b : BackendConfig} {l : BackendLabel}
  {ok : BackendConfig → BackendLabel → Prop} {n : String}

/-- The nonce a call stores. -/
def Call.storedNonce : Call → Option String
  | .exec s => s.storedNonce
  | _ => none

/-- The call has drawn the nonce. -/
def draws (n : String) : Sigma Ret → Bool
  | ⟨.generateNonce, .ok nonce⟩ => nonce = n
  | _ => false

/-- Whether the thread holds the nonce. -/
def holds (crypto : Crypto) (n : String) (t : BackendThread) : ℕ :=
  if (loginState crypto t).held = some n then 1 else 0

/-- The users the nonce is stored for. -/
def storedFor (n : String) (w : World) : ℕ := w.db.users.rows.countP fun u => u.nonce = n

/-- The statements in flight that store the nonce. -/
def inFlightWith (n : String) (w : World) : ℕ := w.inFlight.countP fun s => s.storedNonce = some n

/-- In how many places a nonce is. -/
def noncePlaces (crypto : Crypto) (n : String) (a : BackendConfig) : ℕ :=
  storedFor n a.world + inFlightWith n a.world + total (holds crypto n) a.threads

/-- Whether a step stores the nonce. -/
def stores (n : String) (a : BackendConfig) (l : BackendLabel) : ℕ :=
  if (applied a l).bind Statement.storedNonce = some n then 1 else 0

/-- How many users with the nonce get another one in a step. -/
def replaces (n : String) (a : BackendConfig) (l : BackendLabel) : ℕ :=
  a.world.db.users.rows.countP fun u =>
    decide (∃ s ∈ applied a l, s.Resets u) && decide (u.nonce = n)

/-- A statement resets one user at most. -/
theorem UserIDs.countP_resets (h : UserIDs a.world) (s : Statement) :
    a.world.db.users.rows.countP (fun u => decide (s.Resets u)) ≤ 1 := by
  have hcount : ∀ {κ : Type} [DecidableEq κ] (key : UserRow → κ) (k : κ),
      (a.world.db.users.rows.map key).Nodup →
        a.world.db.users.rows.countP (fun u => decide (key u = k)) ≤ 1 := by
    intro κ _ key k hnodup
    have hle := List.nodup_iff_count_le_one.mp hnodup k
    rw [List.count, List.countP_map] at hle
    exact hle
  cases s with
  | upsertNonce walletAddress walletType nonce => exact hcount _ _ a.world.db.users.unique
  | rotateNonce userID nonce => exact hcount _ _ h.nodup
  | _ =>
    rw [List.countP_eq_zero.mpr fun u _ hu => (of_decide_eq_true hu).elim]
    exact Nat.zero_le 1

/-- Giving a nonce to the rows that satisfy `p` replaces theirs. -/
theorem countP_reset (rows : List UserRow) (p : UserRow → Bool) (nonce : String)
    (walletType : UserRow → String) :
    (rows.map fun u =>
        if p u then { u with nonce := nonce, walletType := walletType u } else u).countP
        (fun u => u.nonce = n) + rows.countP (fun u => p u && decide (u.nonce = n)) =
      rows.countP (fun u => u.nonce = n) + if nonce = n then rows.countP p else 0 := by
  induction rows with
  | nil => simp
  | cons u rows ih =>
    simp only [List.map_cons, List.countP_cons]
    by_cases hp : p u
    · by_cases hnonce : nonce = n
      · simp only [hp, hnonce, if_true, Bool.true_and, decide_true] at ih ⊢
        omega
      · simp only [hp, hnonce, if_true, if_false, Bool.true_and, decide_false,
          Bool.false_eq_true] at ih ⊢
        omega
    · simp only [hp, if_false, Bool.false_and, Bool.false_eq_true, Nat.add_zero] at ih ⊢
      omega

/-- Storing a nonce replaces those of the users it resets. -/
theorem step_storedFor (h : UserIDs a.world) (hstep : (backend svc crypto).Step a l b) :
    storedFor n b.world + replaces n a l ≤ storedFor n a.world + stores n a l := by
  rcases step_db hstep with ⟨hnone, hdb, -⟩ | ⟨s, hs, now, fresh, r, hfresh, hrun, hissued, -⟩
  · simp [storedFor, replaces, hnone, hdb]
  · have hreplaces : replaces n a l = a.world.db.users.rows.countP
        fun u => decide (s.Resets u) && decide (u.nonce = n) := by
      simp [replaces, hs]
    rcases s.run_users hrun with ⟨hrows, hnone⟩ | ⟨nonce, walletType, hnonce, hrows⟩ |
      ⟨walletAddress, walletType, nonce, rfl, hnew, hrows⟩
    · have hzero : replaces n a l = 0 := by
        rw [hreplaces]
        refine List.countP_eq_zero.mpr fun u _ hu => ?_
        simp only [Bool.and_eq_true, decide_eq_true_eq] at hu
        exact hu.1.storedNonce hnone
      simp [storedFor, stores, hzero, hs, hnone, hrows]
    · have hcount := countP_reset (n := n) a.world.db.users.rows (fun u => decide (s.Resets u))
        nonce walletType
      have hle := h.countP_resets s
      simp only [decide_eq_true_eq] at hcount
      simp only [storedFor, stores, hreplaces, hs, hnonce, hrows, Option.bind_some,
        Option.some.injEq]
      split
      · rw [if_pos (by assumption)] at hcount
        omega
      · rw [if_neg (by assumption)] at hcount
        omega
    · have hzero : replaces n a l = 0 := by
        rw [hreplaces]
        refine List.countP_eq_zero.mpr fun u hu hboth => ?_
        simp only [Bool.and_eq_true, decide_eq_true_eq] at hboth
        exact hnew (hboth.1 ▸ List.mem_map_of_mem hu)
      simp [storedFor, stores, hzero, hs, hrows, Statement.storedNonce, List.countP_cons]

/-- An allowed call stores the nonce the thread holds, or draws a new one. -/
theorem holds_answer {t : BackendThread} {c : Call} {r : Ret c}
    {next : Ret c → Job (Except GoError Response)}
    (hallows : (loginProtocol crypto).allows (loginState crypto t) c) :
    holds crypto n (t.answer c r next) + (if c.storedNonce = some n then 1 else 0) ≤
      holds crypto n t + if draws n ⟨c, r⟩ then 1 else 0 := by
  have hnext : loginState crypto (t.answer c r next) =
    LoginState.next crypto (loginState crypto t) c r := rfl
  have hsame : (LoginState.next crypto (loginState crypto t) c r).held =
      (loginState crypto t).held →
      c.storedNonce = none → holds crypto n (t.answer c r next) +
        (if c.storedNonce = some n then 1 else 0) ≤
          holds crypto n t + if draws n ⟨c, r⟩ then 1 else 0 := by
    intro hheld hnone
    simp only [holds, hnext, hheld, hnone, reduceCtorEq, if_false]
    omega
  cases c with
  | exec s =>
    cases s with
    | upsertNonce walletAddress walletType nonce =>
      obtain ⟨-, hheld⟩ := hallows
      simp [holds, hnext, LoginState.next, hheld, Call.storedNonce, Statement.storedNonce]
    | rotateNonce userID nonce =>
      obtain ⟨-, hheld, user, hphase, -⟩ := hallows
      cases r with
      | ok count =>
        simp [holds, hnext, LoginState.next, hphase, hheld, Call.storedNonce, Statement.storedNonce]
      | error e =>
        simp [holds, hnext, LoginState.next, hheld, Call.storedNonce, Statement.storedNonce]
    | _ => exact hsame rfl rfl
  | query q =>
    cases q with
    | userByWallet walletAddress =>
      rcases r with e | _ | user
      · exact hsame rfl rfl
      · exact hsame rfl rfl
      · exact hsame rfl rfl
    | _ => exact hsame rfl rfl
  | mirrorKey accountID =>
    cases r with
    | error e => exact hsame rfl rfl
    | ok key =>
      refine hsame ?_ rfl
      simp only [LoginState.next]
      split
      · split <;> rfl
      · rfl
  | generateNonce =>
    cases r with
    | error e => exact hsame rfl rfl
    | ok nonce => simp [holds, hnext, LoginState.next, Call.storedNonce, draws]
  | _ => exact hsame rfl rfl

/-- Nonces that are not stored stay where they are. -/
theorem Runs.step_held (h : Runs svc crypto ok a) (hstep : (backend svc crypto).Step a l b) :
    inFlightWith n b.world + total (holds crypto n) b.threads + stores n a l ≤
      inFlightWith n a.world + total (holds crypto n) a.threads + l.counts (draws n) := by
  cases hstep with
  | spawn j =>
    have hstart : holds crypto n (Thread.start (backend svc crypto) j) = 0 := rfl
    simp [stores, applied, hstart]
  | @stop i t ht =>
    have hset := total_set (f := holds crypto n) (u := { t with stopped := true }) ht
    have hsame : holds crypto n { t with stopped := true } = holds crypto n t := rfl
    simp only [stores, applied, Option.bind_none, reduceCtorEq, if_false]
    omega
  | @call i t c next r w ht hrest hrun hw =>
    have hallows := (follows_of_reaches h conforms_loginProtocol (by simp [initialConfig]) i t
      ht).allows hrest
    have hset := total_set (f := holds crypto n) (u := t.answer c r next) ht
    have hholds : holds crypto n (t.answer c r next) + (if c.storedNonce = some n then 1 else 0) ≤
        holds crypto n t + if draws n ⟨c, r⟩ then 1 else 0 := holds_answer hallows
    have hflight : inFlightWith n w + stores n a (.call i c r) = inFlightWith n a.world +
        if c.storedNonce = some n then 1 else 0 := by
      rcases World.handles_cases hw with ⟨s, r', heq, now, fresh, db, -, -, rfl⟩ |
        ⟨s, e, heq, rfl⟩ | ⟨purpose, key, recipients, amounts, rfl, rfl⟩ | ⟨nonce, heq, -, rfl⟩ |
        ⟨hc, rfl⟩
      · cases heq
        simp only [stores, applied, Option.bind_some, inFlightWith]
        rfl
      · cases heq
        simp only [stores, applied, Option.bind_none, inFlightWith, List.countP_append,
          List.countP_singleton, reduceCtorEq, if_false, Nat.add_zero, decide_eq_true_eq]
        rfl
      · simp [stores, applied, Call.storedNonce, inFlightWith, World.submit]
      · cases heq
        simp [stores, applied, Call.storedNonce, inFlightWith]
      · have hnone : c.storedNonce = none := by
          cases c with
          | exec s => exact absurd rfl (hc s)
          | _ => rfl
        simp [stores, applied_call hc, hnone]
    simp only [Label.counts]
    omega
  | @env e w hw =>
    have hflight : inFlightWith n w + stores n a (.env e) = inFlightWith n a.world := by
      rcases World.act_cases hw with ⟨k, now, fresh, rfl, hland⟩ | ⟨k, succeeds, rfl, hsettle⟩ |
        ⟨hland, storage, rfl⟩
      · obtain ⟨s, r, db, hs, -, -, rfl⟩ := World.land_eq hland
        obtain ⟨hk, hget⟩ := List.getElem?_eq_some_iff.mp hs
        have hperm := List.getElem_cons_eraseIdx_perm hk
        have hcount := hperm.countP_eq fun s => decide (s.storedNonce = some n)
        rw [hget, List.countP_cons] at hcount
        simpa [inFlightWith, stores, applied, hs] using hcount
      · obtain ⟨s, -, -, ⟨storage, -, -, rfl⟩ | ⟨-, rfl⟩⟩ := World.settle_eq hsettle
        · simp [stores, applied, inFlightWith]
        · simp [stores, applied, inFlightWith]
      · simp [stores, applied_env hland, inFlightWith]
    simp only [Label.counts]
    omega

/-- A step moves nonces, draws new ones and forgets those it replaces. -/
theorem Runs.step_noncePlaces (h : Runs svc crypto ok a) (hids : UserIDs a.world)
    (hstep : (backend svc crypto).Step a l b) :
    noncePlaces crypto n b + replaces n a l ≤ noncePlaces crypto n a + l.counts (draws n) := by
  have hstored := step_storedFor (n := n) hids hstep
  have hheld := h.step_held (n := n) hstep
  unfold noncePlaces
  omega

/-- Only a draw changes the nonces drawn so far. -/
theorem World.handles_nonces {w w' : World} {c : Call} {r : Ret c} (h : w.handles c r w')
    (hc : c ≠ .generateNonce) : w'.nonces = w.nonces := by
  rcases World.handles_cases h with ⟨s, r', -, now, fresh, db, -, -, rfl⟩ | ⟨s, e, -, rfl⟩ |
    ⟨purpose, key, recipients, amounts, -, rfl⟩ | ⟨nonce, heq, -, -⟩ | ⟨-, rfl⟩
  · rfl
  · rfl
  · rfl
  · cases heq
    exact absurd rfl hc
  · rfl

/-- The surroundings draw no nonces. -/
theorem World.act_nonces {w w' : World} {e : Activity} (h : w.act e = some w') :
    w'.nonces = w.nonces := by
  rcases World.act_cases h with ⟨k, now, fresh, rfl, hland⟩ | ⟨k, succeeds, rfl, hsettle⟩ |
    ⟨-, storage, rfl⟩
  · obtain ⟨s, r, db, -, -, -, rfl⟩ := World.land_eq hland
    rfl
  · obtain ⟨s, -, -, ⟨storage, -, -, rfl⟩ | ⟨-, rfl⟩⟩ := World.settle_eq hsettle
    · rfl
    · rfl
  · rfl

/-- The nonces drawn so far grow by the nonce a step draws, which is new. -/
theorem step_nonces (hstep : (backend svc crypto).Step a l b) (n : String) :
    (n ∈ b.world.nonces ↔ n ∈ a.world.nonces) ∧ l.counts (draws n) = 0 ∨
      n ∈ b.world.nonces ∧ n ∉ a.world.nonces ∧ l.counts (draws n) = 1 := by
  cases hstep with
  | spawn j => exact .inl ⟨Iff.rfl, rfl⟩
  | stop ht => exact .inl ⟨Iff.rfl, rfl⟩
  | @call i t c next r w ht hrest hrun hw =>
    have hother : c ≠ .generateNonce → w.nonces = a.world.nonces := World.handles_nonces hw
    cases c with
    | generateNonce =>
      cases r with
      | error e =>
        obtain rfl := hw
        exact .inl ⟨Iff.rfl, rfl⟩
      | ok nonce =>
        obtain ⟨hnew, rfl⟩ := hw
        by_cases hn : nonce = n
        · subst hn
          exact .inr ⟨List.mem_cons_self, hnew, by simp [Label.counts, draws]⟩
        · exact .inl ⟨by simp [Ne.symm hn], by simp [Label.counts, draws, hn]⟩
    | _ => exact .inl ⟨by rw [hother (by simp)], rfl⟩
  | @env e w hw => exact .inl ⟨by rw [World.act_nonces hw], rfl⟩

/-- Every nonce is in one place at most, and only drawn nonces are anywhere. -/
structure NoncesOnce (crypto : Crypto) (a : BackendConfig) : Prop where
  ids : UserIDs a.world
  places_le : ∀ n, noncePlaces crypto n a ≤ 1
  drawn : ∀ n, 0 < noncePlaces crypto n a → n ∈ a.world.nonces

/-- Steps keep every nonce in one place. -/
theorem NoncesOnce.step (h : Runs svc crypto ok a) (hinv : NoncesOnce crypto a)
    (hstep : (backend svc crypto).Step a l b) : NoncesOnce crypto b := by
  refine ⟨hinv.ids.step hstep, fun n => ?_, fun n hpos => ?_⟩
  all_goals
    have hplaces := h.step_noncePlaces (n := n) hinv.ids hstep
    have hle := hinv.places_le n
    have hdrawn := hinv.drawn n
    rcases step_nonces hstep n with ⟨hiff, hcount⟩ | ⟨hmem, hnew, hcount⟩
  · omega
  · have hzero : noncePlaces crypto n a = 0 := by
      by_contra hne
      exact hnew (hdrawn (Nat.pos_of_ne_zero hne))
    omega
  · exact hiff.mpr (hdrawn (by omega))
  · exact hmem

/-- Along every run every nonce is in one place at most. -/
theorem Runs.noncesOnce (h : Runs svc crypto ok a) : NoncesOnce crypto a := by
  induction h with
  | refl =>
    have hzero : ∀ n, noncePlaces crypto n initialConfig = 0 := fun n => rfl
    exact ⟨⟨List.nodup_nil, by simp [initialConfig, Table.empty]⟩, by simp [hzero], by simp [hzero]⟩
  | tail hrun hlast ih =>
    obtain ⟨l, -, hl⟩ := hlast
    exact ih.step hrun hl

end Wagr
