import Wagr.Accounts.Verification
import Wagr.Service.Scenario

/-!
# A login signature is used once

The message of a verification is never compared with the stored nonce. Tokens are returned
only for the login message of the stored nonce, and never twice for one message, as long as
no other signature is accepted and no other call replaces the nonce before the verification
does.
-/

namespace Wagr

open Interaction Protocol System Relational

variable {svc : Service} {crypto : Crypto} {a b : BackendConfig} {l : BackendLabel}
  {ok : BackendConfig → BackendLabel → Prop} {req : VerifyRequest} {user : UserRow}

/-- A signature that is accepted is one of the login message for the wallet's stored nonce, and
a nonce is replaced by no other call while a verification for its wallet is in the login. -/
structure AcceptsExpected (crypto : Crypto) (a : BackendConfig) (l : BackendLabel) : Prop where
  accepted : ∀ i account key t req, l = .call i (.mirrorKey account) (.ok key) →
    a.threads[i]? = some t → t.job = .verifySignature req → accepts crypto key req = true →
      a.world.db.Expects req
  undisturbed : ∀ s, applied a l = some s → ∀ (i : ℕ) t req, a.threads[i]? = some t →
    InLogin crypto req t → l.caller ≠ some i →
      ∀ u ∈ a.world.db.users.rows, u.walletAddress = req.walletAddress → ¬ s.Resets u

/-- Every verification in the login has the message for the nonce of its wallet. -/
def LoginsExpected (crypto : Crypto) (a : BackendConfig) : Prop :=
  ∀ (i : ℕ) t req, a.threads[i]? = some t → InLogin crypto req t → a.world.db.Expects req

/-- No two verifications with one message have returned a token. -/
def TokensOnce (a : BackendConfig) : Prop :=
  ∀ (i j : ℕ) t u req req' resp resp', a.threads[i]? = some t → a.threads[j]? = some u →
    t.job = .verifySignature req → u.job = .verifySignature req' →
      t.rest = .done (.ok (.token resp)) → u.rest = .done (.ok (.token resp')) →
        req.message = req'.message → i = j

/-- A token that a call returns is for the wallet of its request, whose message is the login
message of the nonce stored for the wallet. -/
def ReturnsExpected (a : BackendConfig) (l : BackendLabel) (b : BackendConfig) : Prop :=
  ∀ i t resp, l.caller = some i → b.threads[i]? = some t → t.rest = .done (.ok (.token resp)) →
    ∃ req, t.job = .verifySignature req ∧ resp.walletAddress = req.walletAddress ∧
      a.world.db.Expects req

/-- A spent nonce was drawn and is nowhere any more. -/
def Spent (crypto : Crypto) (a : BackendConfig) (n : String) : Prop :=
  n ∈ a.world.nonces ∧ noncePlaces crypto n a = 0

/-- Every accepted verification has spent the nonce in its message, and no two the same. -/
structure LoginInvariant (crypto : Crypto) (a : BackendConfig) : Prop where
  expected : LoginsExpected crypto a
  spent : ∀ (i : ℕ) t req user, a.threads[i]? = some t → t.job = .verifySignature req →
    (loginState crypto t).phase = .accepted user →
      ∃ n, req.message = loginMessage n ∧ Spent crypto a n
  distinct : ∀ (i j : ℕ) t u req req' user user', a.threads[i]? = some t →
    a.threads[j]? = some u → t.job = .verifySignature req → u.job = .verifySignature req' →
      (loginState crypto t).phase = .accepted user →
        (loginState crypto u).phase = .accepted user' → req.message = req'.message → i = j

/-- A spent nonce stays so. -/
theorem Spent.step (h : Runs svc crypto ok a) (hstep : (backend svc crypto).Step a l b) {n : String}
    (hspent : Spent crypto a n) : Spent crypto b n := by
  obtain ⟨hdrawn, hzero⟩ := hspent
  have honce : NoncesOnce crypto a := h.noncesOnce
  have hplaces := h.step_noncePlaces (n := n) honce.ids hstep
  rcases step_nonces hstep n with ⟨hiff, hcount⟩ | ⟨-, hnew, -⟩
  · exact ⟨hiff.mpr hdrawn, by omega⟩
  · exact absurd hdrawn hnew

/-- A stored nonce is in some place. -/
theorem stored_noncePlaces {u : UserRow} (hu : u ∈ a.world.db.users.rows) :
    0 < noncePlaces crypto u.nonce a := by
  have hstored : 0 < storedFor u.nonce a.world := List.countP_pos_iff.mpr ⟨u, hu, by simp⟩
  unfold noncePlaces
  omega

/-- A statement that replaces a stored nonce spends it. -/
theorem Runs.spends (h : Runs svc crypto ok a) (hstep : (backend svc crypto).Step a l b)
    {s : Statement} (hs : applied a l = some s) {u : UserRow} (hu : u ∈ a.world.db.users.rows)
    (hreset : s.Resets u) : Spent crypto b u.nonce := by
  have honce : NoncesOnce crypto a := h.noncesOnce
  have hplaces := h.step_noncePlaces (n := u.nonce) honce.ids hstep
  have hle := honce.places_le u.nonce
  have hdrawn : u.nonce ∈ a.world.nonces := honce.drawn _ (stored_noncePlaces hu)
  have hreplaces : 0 < replaces u.nonce a l :=
    List.countP_pos_iff.mpr ⟨u, hu, by simp [hs, hreset]⟩
  rcases step_nonces hstep u.nonce with ⟨hiff, hcount⟩ | ⟨-, hnew, -⟩
  · exact ⟨hiff.mpr hdrawn, by omega⟩
  · exact absurd hdrawn hnew

/-- A verification that is accepted was so before, or the step spends the nonce in its message,
which was stored for the wallet. -/
theorem Runs.login_step (h : Runs svc crypto ok a) (hexpected : LoginsExpected crypto a)
    (hstep : (backend svc crypto).Step a l b) {i : ℕ} {t' : BackendThread}
    (ht' : b.threads[i]? = some t') (hjob : t'.job = .verifySignature req)
    (hphase : (loginState crypto t').phase = .accepted user) :
    (∃ t, a.threads[i]? = some t ∧ t.job = .verifySignature req ∧
      (loginState crypto t).phase = .accepted user ∧ l.caller ≠ some i) ∨
    l.caller = some i ∧ user.walletAddress = req.walletAddress ∧
      ∃ u ∈ a.world.db.users.rows, u.walletAddress = req.walletAddress ∧
        req.message = loginMessage u.nonce ∧ Spent crypto b u.nonce := by
  rcases h.accepted_step hstep ht' hphase with ⟨t, ht, hsame, hphase, hl⟩ |
    ⟨t, nonce, count, rfl, ht, hsame, hrun, hchecked⟩
  · exact .inl ⟨t, ht, hsame.trans hjob, hphase, hl⟩
  · have hlogin : InLogin crypto req t := ⟨hrun, hsame.trans hjob, user, hchecked⟩
    obtain ⟨u, hu, hwallet, hmessage⟩ := Database.expects_iff.mp (hexpected i t req ht hlogin)
    obtain ⟨req', hjob', huser, u', hu', hid, hwallet'⟩ :=
      h.knownUser ht (by rw [hchecked]; rfl)
    cases hjob'.symm.trans (hsame.trans hjob)
    obtain rfl := Table.eq_of_key hu' hu (hwallet'.trans hwallet.symm)
    exact .inr ⟨rfl, huser, u', hu, hwallet, hmessage, h.spends hstep rfl hu hid⟩

/-- A call that replaces a nonce stores one. -/
theorem storedNonce_of_resets {i : ℕ} {c : Call} {r : Ret c} {s : Statement} {u : UserRow}
    (hs : applied a (.call i c r) = some s) (hreset : s.Resets u) : c.storedNonce ≠ none := by
  cases c with
  | exec s' =>
    cases r with
    | error e => cases hs
    | ok r =>
      cases hs
      exact hreset.storedNonce
  | _ => cases hs

/-- The login expectation is kept by a step that meets the condition. -/
theorem LoginsExpected.step (hexpected : LoginsExpected crypto a)
    (hstep : (backend svc crypto).Step a l b) (hok : AcceptsExpected crypto a l) :
    LoginsExpected crypto b := by
  intro i t' req ht' hlogin
  rcases inLogin_step hstep ht' hlogin with ⟨t, ht, hlogin, hnone⟩ |
    ⟨account, key, t, rfl, ht, hjob, haccepts⟩
  · obtain ⟨u, hu, hwallet, hmessage⟩ := Database.expects_iff.mp (hexpected i t req ht hlogin)
    obtain ⟨u', hu', -, hwallet', hsame⟩ := step_users hstep hu
    have hkeep : u' = u := by
      refine hsame fun s hs hreset => ?_
      by_cases hcaller : l.caller = some i
      · obtain ⟨c, r, rfl⟩ := Label.caller_eq_some.mp hcaller
        exact storedNonce_of_resets hs hreset (hnone c r rfl)
      · exact hok.undisturbed s hs i t req ht hlogin hcaller u hu hwallet hreset
    subst hkeep
    exact Database.expects_iff.mpr ⟨u', hu', hwallet, hmessage⟩
  · have hexpects := hok.accepted i account key t req rfl ht hjob haccepts
    cases hstep with
    | call _ _ _ hw =>
      obtain rfl := hw
      exact hexpects

/-- The message of an accepted verification is not the login message of a stored nonce. -/
theorem LoginInvariant.message_ne (hinv : LoginInvariant crypto a) {i : ℕ} {t : BackendThread}
    (ht : a.threads[i]? = some t) (hjob : t.job = .verifySignature req)
    (hphase : (loginState crypto t).phase = .accepted user) {u : UserRow}
    (hu : u ∈ a.world.db.users.rows) : req.message ≠ loginMessage u.nonce := by
  intro hmessage'
  obtain ⟨n, hmessage, -, hzero⟩ := hinv.spent i t req user ht hjob hphase
  obtain rfl := loginMessage_injective (hmessage.symm.trans hmessage')
  have hstored : 0 < noncePlaces crypto u.nonce a := stored_noncePlaces hu
  omega

/-- The login invariant is kept by a step that meets the condition. -/
theorem LoginInvariant.step (h : Runs svc crypto ok a) (hinv : LoginInvariant crypto a)
    (hstep : (backend svc crypto).Step a l b) (hok : AcceptsExpected crypto a l) :
    LoginInvariant crypto b := by
  refine ⟨hinv.expected.step hstep hok, ?_, ?_⟩
  · intro i t' req user ht' hjob hphase
    rcases h.login_step hinv.expected hstep ht' hjob hphase with ⟨t, ht, hjob, hphase, -⟩ |
      ⟨-, -, u, -, -, hmessage, hspent⟩
    · obtain ⟨n, hmessage, hspent⟩ := hinv.spent i t req user ht hjob hphase
      exact ⟨n, hmessage, hspent.step h hstep⟩
    · exact ⟨u.nonce, hmessage, hspent⟩
  · intro i j t' u' req req' user user' ht' hu' hjob hjob' hphase hphase' hmessages
    rcases h.login_step hinv.expected hstep ht' hjob hphase with ⟨t, ht, hjob, hphase, -⟩ |
      ⟨hcaller, -, u, hu, -, hmessage, -⟩
    · rcases h.login_step hinv.expected hstep hu' hjob' hphase' with ⟨u, hu, hjob', hphase', -⟩ |
        ⟨-, -, u, hu, -, hmessage, -⟩
      · exact hinv.distinct i j t u req req' user user' ht hu hjob hjob' hphase hphase' hmessages
      · exact absurd (hmessages.trans hmessage) (hinv.message_ne ht hjob hphase hu)
    · rcases h.login_step hinv.expected hstep hu' hjob' hphase' with ⟨u', hu', hjob', hphase', -⟩ |
        ⟨hcaller', -⟩
      · exact absurd (hmessages.symm.trans hmessage) (hinv.message_ne hu' hjob' hphase' hu)
      · exact Option.some.inj (hcaller.symm.trans hcaller')

/-- A thread whose call is not answered is the same after a step that applies a statement. -/
theorem thread_of_applied (hstep : (backend svc crypto).Step a l b) {s : Statement}
    (hs : applied a l = some s) {i : ℕ} {t : BackendThread} (ht : a.threads[i]? = some t)
    (hl : l.caller ≠ some i) : b.threads[i]? = some t := by
  cases hstep with
  | spawn | stop => cases hs
  | @call k t' c next r w =>
    have hne : k ≠ i := fun hki => hl (congrArg some hki)
    rwa [List.getElem?_set_ne hne]
  | env => exact ht

/-- A step after which every login is expected meets the condition. -/
theorem LoginsExpected.acceptsExpected (h : Runs svc crypto ok a)
    (hstep : (backend svc crypto).Step a l b) (hbefore : LoginsExpected crypto a)
    (hexpected : LoginsExpected crypto b) : AcceptsExpected crypto a l := by
  constructor
  · rintro i account key t req rfl ht hjob haccepts
    cases hstep with
    | @call _ t' _ next _ w ht' hrest hrun hw =>
      obtain rfl := Option.some.inj (ht.symm.trans ht')
      obtain rfl := hw
      obtain ⟨-, req', user, hreq, hphase⟩ := (h.followsLogin ht).allows hrest
      have hreq' : Request.verifySignature req' = .verifySignature req :=
        (hreq.symm.trans (loginState_req t)).trans hjob
      cases hreq'
      have hlt : i < a.threads.length := (List.getElem?_eq_some_iff.mp ht).1
      refine hexpected i _ req (List.getElem?_set_self hlt) ⟨hrun, hjob, user, ?_⟩
      rw [loginState_answer]
      simp only [LoginState.next, hreq, hphase, haccepts, if_true]
  · intro s hs i t req ht hlogin hl u hu hwallet hreset
    have ht' := thread_of_applied hstep hs ht hl
    obtain ⟨u₀, hu₀, hwallet₀, hmessage⟩ := Database.expects_iff.mp (hbefore i t req ht hlogin)
    obtain ⟨u', hu', -, hmessage'⟩ := Database.expects_iff.mp (hexpected i t req ht' hlogin)
    obtain rfl := Table.eq_of_key hu₀ hu (hwallet₀.trans hwallet.symm)
    have hnonce : u₀.nonce = u'.nonce := loginMessage_injective (hmessage.symm.trans hmessage')
    obtain ⟨-, hzero⟩ := h.spends hstep hs hu hreset
    have hstored : 0 < noncePlaces crypto u'.nonce b := stored_noncePlaces hu'
    rw [hnonce] at hzero
    omega

/-- A token that is returned is expected. -/
theorem Runs.returnsExpected (h : Runs svc crypto ok a) (hexpected : LoginsExpected crypto a)
    (hstep : (backend svc crypto).Step a l b) : ReturnsExpected a l b := by
  intro i t' resp hcaller ht' hrest
  have hb : Runs svc crypto (fun _ _ => True) b :=
    (h.mono fun _ _ _ => trivial).step trivial hstep
  have hfollows : (loginProtocol crypto).Follows _ _ t' := hb.followsLogin ht'
  obtain ⟨req, user, hreq, hphase, rfl⟩ := hfollows.result hrest _ rfl
  have hjob := (loginState_req t').symm.trans hreq
  rcases h.login_step hexpected hstep ht' hjob hphase with ⟨t, -, -, -, hl⟩ |
    ⟨-, hwallet, u, hu, huwallet, hmessage, -⟩
  · exact absurd hcaller hl
  · exact ⟨req, hjob, hwallet, Database.expects_iff.mpr ⟨u, hu, huwallet, hmessage⟩⟩

/-- Accepted verifications with different messages return different tokens. -/
theorem LoginInvariant.tokensOnce (h : Runs svc crypto ok a) (hinv : LoginInvariant crypto a) :
    TokensOnce a := by
  intro i j t u req req' resp resp' ht hu hjob hjob' hrest hrest' hmessages
  obtain ⟨-, user, -, hphase, -⟩ := (h.followsLogin ht).result hrest _ rfl
  obtain ⟨-, user', -, hphase', -⟩ := (h.followsLogin hu).result hrest' _ rfl
  exact hinv.distinct i j t u req req' user user' ht hu hjob hjob' hphase hphase' hmessages

/-- Along every run whose steps meet the condition, every token is returned for the login message
of the nonce then stored for the wallet, no message gets two tokens, and a further step keeps the
logins expected exactly if it meets the condition as well. -/
theorem loginsExpected_iff (h : Runs svc crypto (AcceptsExpected crypto) a) :
    TokensOnce a ∧ LoginsExpected crypto a ∧ ∀ l b, (backend svc crypto).Step a l b →
      ReturnsExpected a l b ∧ (LoginsExpected crypto b ↔ AcceptsExpected crypto a l) := by
  have hinv : LoginInvariant crypto a := by
    induction h with
    | refl => constructor <;> simp [LoginsExpected, initialConfig]
    | tail hrun hlast ih =>
      obtain ⟨l, hok, hl⟩ := hlast
      exact ih.step hrun hl hok
  refine ⟨hinv.tokensOnce h, hinv.expected, fun l b hl => ⟨h.returnsExpected hinv.expected hl, ?_⟩⟩
  constructor
  · exact hinv.expected.acceptsExpected h hl
  · exact hinv.expected.step hl

/-- The verification whose signature is accepted in a step. -/
def acceptedRequest (crypto : Crypto) (a : BackendConfig) : BackendLabel → Option VerifyRequest
  | .call i (.mirrorKey _) (.ok key) =>
    match a.threads[i]?.map Thread.job with
    | some (.verifySignature req) => if accepts crypto key req then some req else none
    | _ => none
  | _ => none

/-- The accepted message is expected, and a nonce is stored while only the caller knows a user. -/
def AcceptsAlone (crypto : Crypto) (a : BackendConfig) (l : BackendLabel) : Prop :=
  (∀ req ∈ acceptedRequest crypto a l, a.world.db.Expects req) ∧
    ∀ s ∈ applied a l, s.storedNonce ≠ none → ∀ i ∈ List.range a.threads.length,
      l.caller ≠ some i → ∀ t ∈ a.threads[i]?, (loginState crypto t).phase.known = none

instance (a : BackendConfig) (l : BackendLabel) : Decidable (AcceptsAlone crypto a l) :=
  inferInstanceAs (Decidable ((∀ req ∈ acceptedRequest crypto a l, a.world.db.Expects req) ∧
    ∀ s ∈ applied a l, s.storedNonce ≠ none → ∀ i ∈ List.range a.threads.length,
      l.caller ≠ some i → ∀ t ∈ a.threads[i]?, (loginState crypto t).phase.known = none))

/-- Logins one after the other meet the condition. -/
theorem AcceptsAlone.acceptsExpected (h : AcceptsAlone crypto a l) :
    AcceptsExpected crypto a l := by
  constructor
  · rintro i account key t req rfl ht hjob haccepts
    exact h.1 req (by simp [acceptedRequest, ht, hjob, haccepts])
  · rintro s hs i t req ht ⟨-, -, user, hphase⟩ hcaller u hu hwallet hreset
    have hlt : i < a.threads.length := (List.getElem?_eq_some_iff.mp ht).1
    have hidle := h.2 s hs hreset.storedNonce i (List.mem_range.mpr hlt) hcaller t ht
    rw [hphase] at hidle
    cases hidle

/-- The request of a verification that has returned a token. -/
def tokenRequest (t : BackendThread) : Option VerifyRequest :=
  match t.job, t.rest with
  | .verifySignature req, .done (.ok (.token _)) => some req
  | _, _ => none

/-- What a verification with a token has returned. -/
theorem tokenRequest_eq {t : BackendThread} (h : tokenRequest t = some req) :
    t.job = .verifySignature req ∧ ∃ resp, t.rest = .done (.ok (.token resp)) := by
  unfold tokenRequest at h
  split at h
  · rename_i resp hjob hrest
    cases h
    exact ⟨hjob, resp, hrest⟩
  · cases h

/-- The wallet signs the message for its first nonce. -/
def firstLogin : VerifyRequest where
  walletAddress := "0.0.9"
  message := loginMessage "n1"
  signature := "00000000000000000000000000000000000000000000000000000000000000ff" ++
    "316e203a65636e6f4e0a0a3a524741572068746977206574616369746e656874"

/-- A wallet logs in once. -/
def properLogin : Schedule :=
  Schedule.signUp 0 "0.0.9" "n1" "u1" ++ Schedule.verify 1 firstLogin "n2" ++
    [.call 1 (.succeed 0 "f1")]

/-- The result at the end of that run, where the verification has returned its token. -/
theorem loginsExpected_properLogin : ∃ a, Runs .mock .mock (AcceptsExpected .mock) a ∧
    (∃ t ∈ a.threads, tokenRequest t = some firstLogin) ∧
    TokensOnce a ∧ LoginsExpected .mock a ∧ ∀ l b, (backend .mock .mock).Step a l b →
      ReturnsExpected a l b ∧ (LoginsExpected .mock b ↔ AcceptsExpected .mock a l) := by
  obtain ⟨a, halone, htoken⟩ := properLogin.exists_run .mock .mock (AcceptsAlone .mock)
    (fun a => ∃ t ∈ a.threads, tokenRequest t = some firstLogin) (by decide +kernel)
  have hrun : Runs .mock .mock (AcceptsExpected .mock) a :=
    halone.mono fun _ _ h => h.acceptsExpected
  exact ⟨a, hrun, htoken, loginsExpected_iff hrun⟩

/-- The wallet signs some other text. -/
def otherText : VerifyRequest where
  walletAddress := "0.0.9"
  message := "anything"
  signature := "00000000000000000000000000000000000000000000000000000000000000ff" ++
    "676e696874796e61380a3a6567617373654d2064656e67695320617265646548"

/-- The signature of another text logs in twice. -/
def replayedSignature : Schedule :=
  Schedule.signUp 0 "0.0.9" "n1" "u1" ++ Schedule.verify 1 otherText "n2" ++
    [.call 1 (.succeed 0 "f1")] ++ Schedule.verify 2 otherText "n3"

/-- The second login with one signature returns a token as well, and neither message is one for a
stored nonce. -/
theorem exists_signature_replayed : ∃ a l b, Runs .mock .mock (fun _ _ => True) a ∧
    (backend .mock .mock).Step a l b ∧ ¬ ReturnsExpected a l b ∧ ¬ TokensOnce b := by
  obtain ⟨a, l, b, hrun, hstep, hcaller, hunexpected, ⟨t, ht, htoken⟩, u, hu, htoken'⟩ :=
    replayedSignature.exists_step (.call 2 (.succeed 0 "f2")) .mock .mock (fun _ _ => True)
      (fun a l b => l.caller = some 2 ∧ ¬ a.world.db.Expects otherText ∧
        (∃ t ∈ b.threads[1]?, tokenRequest t = some otherText) ∧
          ∃ t ∈ b.threads[2]?, tokenRequest t = some otherText) (by decide +kernel)
  obtain ⟨hjob, resp, hrest⟩ := tokenRequest_eq htoken
  obtain ⟨hjob', resp', hrest'⟩ := tokenRequest_eq htoken'
  refine ⟨a, l, b, hrun, hstep, fun hreturns => ?_, fun honce => ?_⟩
  · obtain ⟨req, hreq, -, hexpects⟩ := hreturns 2 u resp' hcaller hu hrest'
    cases hjob'.symm.trans hreq
    exact hunexpected hexpects
  · cases honce 1 2 t u _ _ resp resp' ht hu hjob hjob' hrest hrest' rfl

end Wagr
