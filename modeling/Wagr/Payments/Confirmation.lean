import Wagr.Service.Steps

/-!
# The course of a payment confirmation

A confirmation reads the member's data, looks up the address of the member's wallet, reads what
the escrow holds for this address, and marks the membership paid if that is the entry fee at
least.
-/

namespace Wagr

open Interaction Protocol System

/-- How far a confirmation is. -/
inductive ConfirmPhase
  | idle
  | informed (info : MemberPayment)
  | resolved (info : MemberPayment) (address : Address)
  | verified (info : MemberPayment) (address : Address)
  deriving DecidableEq

/-- What a request remembers of its confirmation. -/
structure ConfirmState where
  req : Request
  phase : ConfirmPhase := .idle

/-- The calls a confirmation state allows. -/
def ConfirmState.allows (st : ConfirmState) : Call → Prop
  | .query (.memberPayment leagueID userID) =>
    ∃ transactionID, st.req = .confirmPayment leagueID userID transactionID
  | .contractCall _ (.payments key address) =>
    ∀ leagueID userID transactionID, st.req = .confirmPayment leagueID userID transactionID →
      uuidToBytes32 leagueID = .ok key ∧ ∃ info, st.phase = .resolved info address
  | .exec (.markPaid leagueID userID transactionID) =>
    st.req = .confirmPayment leagueID userID transactionID ∧
      ∃ info address, st.phase = .verified info address
  | _ => True

/-- The confirmation state after an answered call. -/
def ConfirmState.next (st : ConfirmState) : (c : Call) → Ret c → ConfirmState
  | .query (.memberPayment _ _), .ok (some info) =>
    match st.phase with
    | .idle => { st with phase := .informed info }
    | _ => st
  | .mirrorAccount wallet, mirror =>
    match st.phase, evmAddressOf wallet mirror with
    | .informed info, .ok address =>
      if wallet = info.walletAddress then { st with phase := .resolved info address } else st
    | _, _ => st
  | .contractCall _ (.payments _ address), .ok result =>
    match st.phase, decodePayment result with
    | .resolved info _, .ok paid =>
      if paid < toMicroUSDC info.entryFeeCents then st
      else { st with phase := .verified info address }
    | _, _ => st
  | _, _ => st

/-- The protocol of the payment confirmations. -/
def confirmProtocol : Protocol Call Ret ConfirmState := ⟨ConfirmState.allows, ConfirmState.next⟩

/-- The confirmation state of a thread. -/
abbrev confirmState (t : BackendThread) : ConfirmState :=
  confirmProtocol.phaseOf (fun req : Request => { req := req }) t

variable {svc : Service} {crypto : Crypto} {a b : BackendConfig} {l : BackendLabel}
  {ok : BackendConfig → BackendLabel → Prop}

/-- The calls of other requests are allowed and leave an idle state alone. -/
theorem mayCall_allows {req : Request} {c : Call} (hc : req.mayCall c)
    (hreq : ∀ leagueID userID transactionID,
      req ≠ .confirmPayment leagueID userID transactionID) :
    confirmProtocol.allows { req := req } c ∧
      ∀ r, confirmProtocol.next { req := req } c r = { req := req } := by
  cases c with
  | exec s =>
    cases s with
    | markPaid leagueID userID transactionID =>
      cases req with
      | confirmPayment => exact absurd rfl (hreq _ _ _)
      | _ => exact hc.elim
    | _ => exact ⟨trivial, fun _ => rfl⟩
  | query q =>
    cases q with
    | memberPayment leagueID userID =>
      cases req with
      | confirmPayment => exact absurd rfl (hreq _ _ _)
      | _ => exact hc.elim
    | _ => exact ⟨trivial, fun _ => rfl⟩
  | contractCall contract read =>
    cases read with
    | payments key address =>
      refine ⟨fun _ _ _ h => absurd h (hreq _ _ _), fun r => ?_⟩
      cases r <;> rfl
    | leagueTotals key => exact ⟨trivial, fun _ => rfl⟩
  | _ => exact ⟨trivial, fun _ => rfl⟩

/-- Reading a payment that covers the fee leads to the phase `verified`. -/
theorem conforms_readMemberPayment {leagueID userID transactionID message : String}
    {info : MemberPayment} {address : Address} :
    confirmProtocol.Conforms
      { req := .confirmPayment leagueID userID transactionID, phase := .resolved info address }
      (readMemberPayment svc leagueID address message).run fun st r =>
        ∀ paid, r = .ok paid → ¬ paid < toMicroUSDC info.entryFeeCents →
          st = ⟨.confirmPayment leagueID userID transactionID, .verified info address⟩ := by
  refine conforms_run_bind.mpr (conforms_wrapErr.mpr (conforms_ofResult.mpr ?_))
  cases hkey : uuidToBytes32 leagueID with
  | error e =>
    intro paid h
    cases h
  | ok key =>
    refine conforms_run_bind.mpr (conforms_wrapErr.mpr (conforms_ofResult.mpr ?_))
    cases hederaAccountToEVM svc.hederaEscrowContractID with
    | error e =>
      intro paid h
      cases h
    | ok contract =>
      refine conforms_wrapErr.mpr (conforms_run_bind.mpr ⟨?_, fun result => ?_⟩)
      · intro leagueID' userID' transactionID' h
        cases h
        exact ⟨hkey, info, rfl⟩
      · cases result with
        | error e =>
          intro paid h
          cases h
        | ok result =>
          intro paid h hfee
          change (decodePayment result).mapError _ = _ at h
          cases hdecode : decodePayment result with
          | error e =>
            rw [hdecode] at h
            cases h
          | ok value =>
            rw [hdecode] at h
            cases h
            simp [confirmProtocol, ConfirmState.next, hdecode, hfee]

/-- A confirmation marks a membership paid only after it has verified the payment. -/
theorem conforms_confirmPayment {leagueID userID transactionID : String} :
    confirmProtocol.Conforms { req := .confirmPayment leagueID userID transactionID }
      (confirmPayment svc leagueID userID transactionID).run fun _ _ => True := by
  refine conforms_run_bind.mpr (conforms_wrapErr.mpr (conforms_query.mpr
    ⟨⟨transactionID, rfl⟩, fun info => ?_, fun _ => trivial⟩))
  cases info with
  | none => trivial
  | some info =>
    refine conforms_run_ite.mpr ⟨fun _ => trivial, fun _ => ?_⟩
    refine conforms_run_bind.mpr (conforms_wrapErr.mpr ⟨trivial, fun mirror => ?_⟩)
    change confirmProtocol.Conforms _ (pure (evmAddressOf info.walletAddress mirror)) _
    cases haddress : evmAddressOf info.walletAddress mirror with
    | error e => trivial
    | ok address =>
      have hresolved : confirmProtocol.next
          { req := .confirmPayment leagueID userID transactionID, phase := .informed info }
            (.mirrorAccount info.walletAddress) mirror =
          ⟨.confirmPayment leagueID userID transactionID, .resolved info address⟩ := by
        simp [confirmProtocol, ConfirmState.next, haddress]
      change confirmProtocol.Conforms (confirmProtocol.next
        { req := .confirmPayment leagueID userID transactionID, phase := .informed info }
          (.mirrorAccount info.walletAddress) mirror) _ _
      rw [hresolved]
      refine conforms_run_bind.mpr (conforms_readMemberPayment.mono fun st paid hst => ?_)
      cases paid with
      | error e => trivial
      | ok paid =>
        refine conforms_run_ite.mpr ⟨fun _ => trivial, fun hfee => ?_⟩
        obtain rfl := hst paid rfl hfee
        refine conforms_run_bind.mpr (conforms_wrapErr.mpr (conforms_exec.mpr ?_))
        exact ⟨⟨rfl, info, address, rfl⟩, fun _ => trivial, fun _ => trivial⟩

/-- Every request marks memberships paid only after it has verified the payment. -/
theorem conforms_confirmProtocol (req : Request) :
    confirmProtocol.Conforms { req := req } ((backend svc crypto).body req) fun _ _ => True := by
  by_cases hreq : ∃ leagueID userID transactionID,
      req = .confirmPayment leagueID userID transactionID
  · obtain ⟨leagueID, userID, transactionID, rfl⟩ := hreq
    exact conforms_toDone conforms_confirmPayment
  · simp only [not_exists] at hreq
    exact (conforms_of_footprint (P := confirmProtocol) (calls_request req)
      fun _ hc => mayCall_allows hc hreq).mono fun _ _ _ => trivial

/-! ## The phases of a thread -/

/-- What an answered call does to the confirmation state. -/
theorem ConfirmState.next_cases (st : ConfirmState) (c : Call) (r : Ret c) :
    ConfirmState.next st c r = st ∨
    (∃ leagueID userID info, (⟨c, r⟩ : Sigma Ret) =
        ⟨.query (.memberPayment leagueID userID), .ok (some info)⟩ ∧
      st.phase = .idle ∧ ConfirmState.next st c r = { st with phase := .informed info }) ∨
    (∃ mirror info address, (⟨c, r⟩ : Sigma Ret) = ⟨.mirrorAccount info.walletAddress, mirror⟩ ∧
      st.phase = .informed info ∧ evmAddressOf info.walletAddress mirror = .ok address ∧
        ConfirmState.next st c r = { st with phase := .resolved info address }) ∨
    ∃ contract key address result info found paid, (⟨c, r⟩ : Sigma Ret) =
        ⟨.contractCall contract (.payments key address), .ok result⟩ ∧
      st.phase = .resolved info found ∧ decodePayment result = .ok paid ∧
        ¬ paid < toMicroUSDC info.entryFeeCents ∧
          ConfirmState.next st c r = { st with phase := .verified info address } := by
  cases c with
  | query q =>
    cases q with
    | memberPayment leagueID userID =>
      rcases r with e | _ | info
      · exact .inl rfl
      · exact .inl rfl
      · simp only [next]
        split
        · rename_i hphase
          exact .inr (.inl ⟨leagueID, userID, info, rfl, hphase, rfl⟩)
        · exact .inl rfl
    | _ => exact .inl rfl
  | mirrorAccount wallet =>
    simp only [next]
    split
    · rename_i info address hphase haddress
      split
      · rename_i hwallet
        subst hwallet
        exact .inr (.inr (.inl ⟨r, info, address, rfl, hphase, haddress, rfl⟩))
      · exact .inl rfl
    · exact .inl rfl
  | contractCall contract read =>
    cases read with
    | leagueTotals key => exact .inl rfl
    | payments key address =>
      cases r with
      | error e => exact .inl rfl
      | ok result =>
        simp only [next]
        split
        · rename_i info found paid hphase hdecode
          split
          · exact .inl rfl
          · rename_i hfee
            exact .inr (.inr (.inr ⟨contract, key, address, result, info, found, paid, rfl,
              hphase, hdecode, hfee, rfl⟩))
        · exact .inl rfl
  | _ => exact .inl rfl

/-- The confirmation state after an answered call. -/
theorem confirmState_answer {t : BackendThread} {c : Call} {r : Ret c}
    {next : Ret c → Job (Except GoError Response)} :
    confirmState (t.answer c r next) = ConfirmState.next (confirmState t) c r := rfl

/-- The request is never forgotten. -/
theorem ConfirmState.next_req (st : ConfirmState) (c : Call) (r : Ret c) :
    (ConfirmState.next st c r).req = st.req := by
  rcases ConfirmState.next_cases st c r with heq | ⟨_, _, _, -, -, heq⟩ |
    ⟨_, _, _, -, -, -, heq⟩ | ⟨_, _, _, _, _, _, _, -, -, -, -, heq⟩ <;> rw [heq]

/-- A thread's state is about the thread's request. -/
theorem confirm_req (req : Request) (trace : List (Sigma Ret)) :
    (confirmProtocol.phase { req := req } trace).req = req := by
  induction trace with
  | nil => rfl
  | cons call trace ih => exact (ConfirmState.next_req _ call.1 call.2).trans ih

/-- What has been verified stays so. -/
theorem verified_next {st : ConfirmState} {info : MemberPayment} {address : Address}
    (h : st.phase = .verified info address) (c : Call) (r : Ret c) :
    (ConfirmState.next st c r).phase = .verified info address := by
  rcases ConfirmState.next_cases st c r with heq | ⟨_, _, _, -, hidle, -⟩ |
    ⟨_, _, _, -, hinformed, -⟩ | ⟨_, _, _, _, _, _, _, -, hresolved, -⟩
  · rw [heq, h]
  · cases h.symm.trans hidle
  · cases h.symm.trans hinformed
  · cases h.symm.trans hresolved

/-- What was verified earlier in a trace is verified at its end. -/
theorem verified_of_suffix {req : Request} {earlier trace : List (Sigma Ret)}
    (hsuffix : earlier <:+ trace) {info : MemberPayment} {address : Address}
    (h : (confirmProtocol.phase { req := req } earlier).phase = .verified info address) :
    (confirmProtocol.phase { req := req } trace).phase = .verified info address := by
  obtain ⟨later, rfl⟩ := hsuffix
  induction later with
  | nil => exact h
  | cons call later ih => exact verified_next ih call.1 call.2

/-! ## What has been verified -/

/-- A request whose payment was verified: what it was asked, what it has read of the member, and
the address whose payment it has read. -/
structure Confirmation where
  leagueID : String
  userID : String
  transactionID : String
  info : MemberPayment
  address : Address
  deriving DecidableEq

/-- What a thread has verified. -/
def confirmation (t : BackendThread) : Option Confirmation :=
  match t.job, (confirmState t).phase with
  | .confirmPayment leagueID userID transactionID, .verified info address =>
    some ⟨leagueID, userID, transactionID, info, address⟩
  | _, _ => none

/-- Some thread has verified the payment. -/
def Confirmed (a : BackendConfig) (c : Confirmation) : Prop :=
    ∃ t ∈ a.threads, confirmation t = some c

/-- What a thread with a confirmation is. -/
theorem confirmation_eq {t : BackendThread} {c : Confirmation} : confirmation t = some c ↔
    t.job = .confirmPayment c.leagueID c.userID c.transactionID ∧
      (confirmState t).phase = .verified c.info c.address := by
  unfold confirmation
  constructor
  · intro h
    split at h
    · rename_i hjob hphase
      cases h
      exact ⟨hjob, hphase⟩
    · cases h
  · rintro ⟨hjob, hphase⟩
    rw [hjob, hphase]

/-- What is confirmed stays so. -/
theorem Confirmed.step {c : Confirmation} (h : Confirmed a c)
    (hstep : (backend svc crypto).Step a l b) : Confirmed b c := by
  obtain ⟨t, ht, hconfirmed⟩ := h
  obtain ⟨i, hi⟩ := List.mem_iff_getElem?.mp ht
  have hsome : a.SomeTrace fun req trace =>
      req = .confirmPayment c.leagueID c.userID c.transactionID ∧
        (confirmProtocol.phase { req := req } trace).phase = .verified c.info c.address :=
    ⟨i, t, hi, confirmation_eq.mp hconfirmed⟩
  obtain ⟨k, u, hu, hverified⟩ := hstep.someTrace
    (fun req trace call hp => ⟨hp.1, verified_next hp.2 call.1 call.2⟩) hsome
  exact ⟨u, List.mem_of_getElem? hu, confirmation_eq.mpr hverified⟩

/-- A statement that marks a membership paid follows a confirmation. -/
theorem Runs.confirmed (h : Runs svc crypto ok a) (hstep : (backend svc crypto).Step a l b)
    {leagueID userID transactionID : String}
    (hs : applied a l = some (.markPaid leagueID userID transactionID)) :
    ∃ info address, Confirmed a ⟨leagueID, userID, transactionID, info, address⟩ := by
  obtain ⟨i, t, ht, earlier, hsuffix, hreq, info, address, hphase⟩ :=
    h.applied_allowed (P := confirmProtocol) conforms_confirmProtocol hstep hs
  have hjob : t.job = .confirmPayment leagueID userID transactionID :=
    (confirm_req t.job earlier).symm.trans hreq
  exact ⟨info, address, t, List.mem_of_getElem? ht,
    confirmation_eq.mpr ⟨hjob, verified_of_suffix hsuffix hphase⟩⟩

/-- A thread with a confirmation after a step had it before, or has just read the payment. -/
theorem confirmed_cases (hrun : Runs svc crypto ok a) (hstep : (backend svc crypto).Step a l b)
    {c : Confirmation} (h : Confirmed b c) : Confirmed a c ∨
      ∃ i contract key result paid, uuidToBytes32 c.leagueID = .ok key ∧ b.world = a.world ∧
        l = .call i (.contractCall contract (.payments key c.address)) (.ok result) ∧
          decodePayment result = .ok paid ∧ ¬ paid < toMicroUSDC c.info.entryFeeCents := by
  obtain ⟨t', ht', hconfirmed⟩ := h
  obtain ⟨i, hi⟩ := List.mem_iff_getElem?.mp ht'
  rcases hstep.thread_cases hi with ⟨req, rfl, rfl⟩ | ⟨ht, -⟩ | ⟨t, rfl, ht, rfl⟩ |
    ⟨t, call, r, next, rfl, ht, hrest, -, hw, rfl⟩
  · cases (confirmation_eq.mp hconfirmed).2
  · exact .inl ⟨t', List.mem_of_getElem? ht, hconfirmed⟩
  · exact .inl ⟨t, List.mem_of_getElem? ht, hconfirmed⟩
  · obtain ⟨hjob, hphase⟩ := confirmation_eq.mp hconfirmed
    rw [confirmState_answer] at hphase
    rcases ConfirmState.next_cases (confirmState t) call r with hsame | ⟨_, _, info, -, -, hnext⟩ |
      ⟨_, _, _, -, -, -, hnext⟩ |
      ⟨contract, key, address, result, info, found, paid, hcall, -, hdecode, hfee, hnext⟩
    · rw [hsame] at hphase
      exact .inl ⟨t, List.mem_of_getElem? ht, confirmation_eq.mpr ⟨hjob, hphase⟩⟩
    · rw [hnext] at hphase
      cases hphase
    · rw [hnext] at hphase
      cases hphase
    · rw [hnext] at hphase
      injection hphase with hinfo haddress
      subst hinfo haddress
      cases hcall
      have hfollows :=
        follows_of_reaches hrun conforms_confirmProtocol (by simp [initialConfig]) i t ht
      have hallows := hfollows.allows hrest _ _ _ ((confirm_req t.job t.trace).trans hjob)
      exact .inr ⟨i, contract, key, result, paid, hallows.1, hw, rfl, hdecode, hfee⟩

end Wagr
