import Wagr.Accounts.Nonces

/-!
# The course of a verification

Which calls lead a verification from one phase to the next, and that the user it has found
stays the user of its wallet.
-/

namespace Wagr

open Interaction Protocol System Relational

variable {svc : Service} {crypto : Crypto} {a b : BackendConfig} {l : BackendLabel}
  {ok : BackendConfig → BackendLabel → Prop} {req : VerifyRequest} {user : UserRow}

/-- The message is the login message of the nonce stored for the wallet. -/
def Database.Expects (db : Database) (req : VerifyRequest) : Prop :=
  ∃ user ∈ db.users.lookup req.walletAddress, req.message = loginMessage user.nonce

instance (db : Database) (req : VerifyRequest) : Decidable (db.Expects req) :=
  inferInstanceAs (Decidable (∃ user ∈ db.users.lookup req.walletAddress,
    req.message = loginMessage user.nonce))

/-- The thread is running a verification that has accepted its signature and not yet replaced
the nonce. -/
def InLogin (crypto : Crypto) (req : VerifyRequest) (t : BackendThread) : Prop :=
  t.stopped = false ∧ t.job = .verifySignature req ∧
    ∃ user, (loginState crypto t).phase = .checked user

/-- The user a verification has found. -/
def LoginPhase.known : LoginPhase → Option UserRow
  | .idle => none
  | .found user => some user
  | .checked user => some user
  | .accepted user => some user

/-- What is expected, in terms of the rows. -/
theorem Database.expects_iff {db : Database} : db.Expects req ↔ ∃ u ∈ db.users.rows,
    u.walletAddress = req.walletAddress ∧ req.message = loginMessage u.nonce := by
  constructor
  · rintro ⟨u, hu, hmessage⟩
    obtain ⟨hmem, hwallet⟩ := Table.lookup_some hu
    exact ⟨u, hmem, hwallet, hmessage⟩
  · rintro ⟨u, hmem, hwallet, hmessage⟩
    exact ⟨u, hwallet ▸ Table.lookup_of_mem hmem, hmessage⟩

/-- Different nonces have different login messages. -/
theorem loginMessage_injective : Function.Injective loginMessage :=
  fun _ _ h => (String.append_right_inj _).mp h

/-- The request is never forgotten. -/
theorem LoginState.next_req {st : LoginState} {c : Call} {r : Ret c} :
    (LoginState.next crypto st c r).req = st.req := by
  unfold LoginState.next
  repeat' split
  all_goals rfl

/-- The login state of a thread knows its request. -/
theorem loginState_req (t : BackendThread) : (loginState crypto t).req = t.job := by
  have htrace : ∀ trace : List (Sigma Ret),
      ((loginProtocol crypto).phase { req := t.job } trace).req = t.job := by
    intro trace
    induction trace with
    | nil => rfl
    | cons call trace ih => exact LoginState.next_req.trans ih
  exact htrace t.trace

/-- The login state after an answered call. -/
theorem loginState_answer {t : BackendThread} {c : Call} {r : Ret c}
    {next : Ret c → Job (Except GoError Response)} :
    loginState crypto (t.answer c r next) = LoginState.next crypto (loginState crypto t) c r := rfl

/-- What an answered call does to the phase. -/
theorem LoginState.next_cases (crypto : Crypto) (st : LoginState) (c : Call) (r : Ret c) :
    ((LoginState.next crypto st c r).phase = st.phase ∧ c.storedNonce = none) ∨
    (LoginState.next crypto st c r).phase = .idle ∨
    (∃ walletAddress user,
      (⟨c, r⟩ : Sigma Ret) = ⟨.query (.userByWallet walletAddress), .ok (some user)⟩ ∧
        (LoginState.next crypto st c r).phase = .found user) ∨
    (∃ account key req user, (⟨c, r⟩ : Sigma Ret) = ⟨.mirrorKey account, .ok key⟩ ∧
      st.req = .verifySignature req ∧ st.phase = .found user ∧ accepts crypto key req = true ∧
        (LoginState.next crypto st c r).phase = .checked user) ∨
    ∃ userID nonce count user,
      (⟨c, r⟩ : Sigma Ret) = ⟨.exec (.rotateNonce userID nonce), .ok count⟩ ∧
      st.phase = .checked user ∧ (LoginState.next crypto st c r).phase = .accepted user := by
  cases c with
  | exec s =>
    cases s with
    | upsertNonce => exact .inr (.inl rfl)
    | rotateNonce userID nonce =>
      cases r with
      | error e => exact .inr (.inl rfl)
      | ok count =>
        simp only [LoginState.next]
        split
        · rename_i user hphase
          exact .inr (.inr (.inr (.inr ⟨userID, nonce, count, user, rfl, hphase, rfl⟩)))
        · exact .inr (.inl rfl)
    | _ => exact .inl ⟨rfl, rfl⟩
  | query q =>
    cases q with
    | userByWallet walletAddress =>
      rcases r with e | _ | user
      · exact .inl ⟨rfl, rfl⟩
      · exact .inl ⟨rfl, rfl⟩
      · exact .inr (.inr (.inl ⟨walletAddress, user, rfl, rfl⟩))
    | _ => exact .inl ⟨rfl, rfl⟩
  | mirrorKey account =>
    cases r with
    | error e => exact .inl ⟨rfl, rfl⟩
    | ok key =>
      simp only [LoginState.next]
      split
      · rename_i req user hreq hphase
        split
        · rename_i haccepts
          exact .inr (.inr
            (.inr (.inl ⟨account, key, req, user, rfl, hreq, hphase, haccepts, rfl⟩)))
        · exact .inl ⟨rfl, rfl⟩
      · exact .inl ⟨rfl, rfl⟩
  | generateNonce =>
    cases r with
    | error e => exact .inr (.inl rfl)
    | ok nonce => exact .inl ⟨rfl, rfl⟩
  | _ => exact .inl ⟨rfl, rfl⟩

/-- Every thread of a run follows the protocol of the login requests. -/
theorem Runs.followsLogin (h : Runs svc crypto ok a) {i : ℕ} {t : BackendThread}
    (ht : a.threads[i]? = some t) :
    (loginProtocol crypto).Follows (fun req : Request => { req := req })
    (fun _ => TokenAccepted) t :=
  follows_of_reaches h conforms_loginProtocol (by simp [initialConfig]) i t ht

/-- A thread in the login after a step was so before, and the step is no statement of it for a
nonce, or its signature has just been accepted. -/
theorem inLogin_step (hstep : (backend svc crypto).Step a l b) {i : ℕ} {t' : BackendThread}
    (ht' : b.threads[i]? = some t') (hlogin : InLogin crypto req t') :
    (∃ t, a.threads[i]? = some t ∧ InLogin crypto req t ∧
      ∀ c r, l = .call i c r → c.storedNonce = none) ∨
    ∃ account key t, l = .call i (.mirrorKey account) (.ok key) ∧ a.threads[i]? = some t ∧
      t.job = .verifySignature req ∧ accepts crypto key req = true := by
  obtain ⟨hrun, hjob, user, hphase⟩ := hlogin
  rcases hstep.thread_cases ht' with ⟨j, -, rfl⟩ | ⟨ht, hl⟩ | ⟨t, rfl, ht, rfl⟩ |
    ⟨t, c, r, next, rfl, ht, hrest, hrun', hw, rfl⟩
  · cases hphase
  · refine .inl ⟨t', ht, ⟨hrun, hjob, user, hphase⟩, fun c r heq => ?_⟩
    exact absurd (Label.caller_eq_some.mpr ⟨c, r, heq⟩) hl
  · cases hrun
  · rw [loginState_answer] at hphase
    rcases LoginState.next_cases crypto (loginState crypto t) c r with
      ⟨hsame, hnone⟩ | hidle | ⟨walletAddress, user', -, hfound⟩ |
      ⟨account, key, req', user', heq, hreq, -, haccepts, -⟩ |
      ⟨userID, nonce, count, user', -, -, haccepted⟩
    · refine .inl ⟨t, ht, ⟨hrun', hjob, user, hsame ▸ hphase⟩, fun c' r' heq => ?_⟩
      cases heq
      exact hnone
    · cases hphase.symm.trans hidle
    · cases hphase.symm.trans hfound
    · cases heq
      have hreq' : Request.verifySignature req' = .verifySignature req :=
        (hreq.symm.trans (loginState_req t)).trans hjob
      cases hreq'
      exact .inr ⟨account, key, t, rfl, ht, hjob, haccepts⟩
    · cases hphase.symm.trans haccepted

/-- A verification that is accepted after a step was so before, or the step replaces the nonce of
its user. -/
theorem Runs.accepted_step (h : Runs svc crypto ok a) (hstep : (backend svc crypto).Step a l b)
    {i : ℕ} {t' : BackendThread} (ht' : b.threads[i]? = some t')
    (hphase : (loginState crypto t').phase = .accepted user) :
    (∃ t, a.threads[i]? = some t ∧ t.job = t'.job ∧ (loginState crypto t).phase = .accepted user ∧
      l.caller ≠ some i) ∨
    ∃ t nonce count, l = .call i (.exec (.rotateNonce user.id nonce)) (.ok count) ∧
      a.threads[i]? = some t ∧ t.job = t'.job ∧ t.stopped = false ∧
        (loginState crypto t).phase = .checked user := by
  rcases hstep.thread_cases ht' with ⟨j, -, rfl⟩ | ⟨ht, hl⟩ | ⟨t, rfl, ht, rfl⟩ |
    ⟨t, c, r, next, rfl, ht, hrest, hrun, hw, rfl⟩
  · cases hphase
  · exact .inl ⟨t', ht, rfl, hphase, hl⟩
  · exact .inl ⟨t, ht, rfl, hphase, by simp [Label.caller]⟩
  · have hallows := (h.followsLogin ht).allows hrest
    rw [loginState_answer] at hphase
    rcases LoginState.next_cases crypto (loginState crypto t) c r with
      ⟨hsame, -⟩ | hidle | ⟨walletAddress, user', -, hfound⟩ |
      ⟨account, key, req', user', -, -, -, -, hchecked⟩ |
      ⟨userID, nonce, count, user', heq, hchecked, haccepted⟩
    · exact absurd (hsame.symm.trans hphase) (hallows.1 user)
    · cases hphase.symm.trans hidle
    · cases hphase.symm.trans hfound
    · cases hphase.symm.trans hchecked
    · cases hphase.symm.trans haccepted
      cases heq
      obtain ⟨-, -, user', hchecked', rfl⟩ := hallows
      cases hchecked.symm.trans hchecked'
      exact .inr ⟨t, nonce, count, rfl, ht, rfl, hrun, hchecked⟩

/-! ## The user of a verification -/

/-- The user has the wallet of the job's request, and so has its row. -/
def KnownUser (db : Database) (job : Request) (user : UserRow) : Prop :=
  ∃ req, job = .verifySignature req ∧ user.walletAddress = req.walletAddress ∧
    ∃ u ∈ db.users.rows, u.id = user.id ∧ u.walletAddress = req.walletAddress

/-- The user a verification has found stays the user of its wallet. -/
theorem Runs.knownUser (h : Runs svc crypto ok a) {i : ℕ} {t' : BackendThread}
    (ht' : a.threads[i]? = some t') (hknown : (loginState crypto t').phase.known = some user) :
    KnownUser a.world.db t'.job user := by
  induction h generalizing i t' user with
  | refl => simp [initialConfig] at ht'
  | @tail a b hrun hlast ih =>
    obtain ⟨l, -, hstep⟩ := hlast
    have hkeep : ∀ t₀ : BackendThread, a.threads[i]? = some t₀ → t₀.job = t'.job →
        (loginState crypto t₀).phase.known = some user → KnownUser b.world.db t'.job user := by
      intro t₀ ht₀ hjob hknown₀
      obtain ⟨req, hreq, hwallet, u, hu, hid, huwallet⟩ := ih ht₀ hknown₀
      obtain ⟨u', hu', hid', hwallet', -⟩ := step_users hstep hu
      exact ⟨req, hjob ▸ hreq, hwallet, u', hu', hid'.trans hid, hwallet'.trans huwallet⟩
    rcases hstep.thread_cases ht' with ⟨j, -, rfl⟩ | ⟨ht, -⟩ | ⟨t, rfl, ht, rfl⟩ |
      ⟨t, c, r, next, rfl, ht, hrest, -, hw, rfl⟩
    · cases hknown
    · exact hkeep t' ht rfl hknown
    · exact hkeep t ht rfl hknown
    · have hallows := (Runs.followsLogin hrun ht).allows hrest
      rw [loginState_answer] at hknown
      rcases LoginState.next_cases crypto (loginState crypto t) c r with
        ⟨hsame, -⟩ | hidle | ⟨walletAddress, user', heq, hfound⟩ |
        ⟨account, key, req', user', -, -, hphase, -, hchecked⟩ |
        ⟨userID, nonce, count, user', -, hphase, haccepted⟩
      · exact hkeep t ht rfl (hsame ▸ hknown)
      · simp [hidle, LoginPhase.known] at hknown
      · cases heq
        obtain ⟨-, req, hreq, rfl⟩ := hallows
        obtain ⟨hw, hanswer⟩ := hw
        simp only [hfound, LoginPhase.known, Option.some.injEq] at hknown
        subst hknown
        obtain ⟨hmem, hwallet⟩ := Table.lookup_some hanswer.symm
        refine ⟨req, (loginState_req t).symm.trans hreq, hwallet, user', ?_, rfl, hwallet⟩
        rw [hw]
        exact hmem
      · refine hkeep t ht rfl ?_
        rw [hphase]
        rw [hchecked] at hknown
        exact hknown
      · refine hkeep t ht rfl ?_
        rw [hphase]
        rw [haccepted] at hknown
        exact hknown

end Wagr
