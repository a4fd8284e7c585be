import Wagr.Payments.Evidence
import Wagr.Payments.Scope
import Wagr.Service.Scenario

/-!
# What a confirmation knows

What a confirmation has read of its member stays true: the league and the wallet of the user.
The address its payment was read for is the one its own lookup of this wallet has found. The
payment covers the fee when it is read, and as long as it is not refunded.
-/

namespace Wagr

open Interaction Protocol System Relational

variable {svc : Service} {crypto : Crypto} {a b : BackendConfig} {l : BackendLabel}
  {ok : BackendConfig → BackendLabel → Prop}

/-! ## What was read of the member -/

/-- What a confirmation has read of its member. -/
def ConfirmPhase.info : ConfirmPhase → Option MemberPayment
  | .idle => none
  | .informed info => some info
  | .resolved info _ => some info
  | .verified info _ => some info

/-- The address a confirmation has found for the wallet of its member. -/
def ConfirmPhase.found : ConfirmPhase → Option Address
  | .idle => none
  | .informed _ => none
  | .resolved _ address => some address
  | .verified _ address => some address

/-- What a thread has learnt of its member is true, and the address it has found is the answer of
its own lookup of the member's wallet. -/
structure Learnt (w : World) (t : BackendThread) : Prop where
  member : ∀ leagueID userID transactionID, t.job = .confirmPayment leagueID userID transactionID →
    ∀ info ∈ (confirmState t).phase.info,
      leagueID ∈ w.issued ∧ w.db.walletOf userID = some info.walletAddress
  read : ∀ info ∈ (confirmState t).phase.info, info.walletAddress ∈ walletsRead t.trace
  lookedUp : ∀ leagueID userID transactionID,
    t.job = .confirmPayment leagueID userID transactionID →
      ∀ info ∈ (confirmState t).phase.info, ∀ address ∈ (confirmState t).phase.found,
        Resolved t.trace info.walletAddress address

/-- What a thread has learnt stays true while it does nothing. -/
theorem Learnt.step {t : BackendThread} (h : Learnt a.world t)
    (hstep : (backend svc crypto).Step a l b) : Learnt b.world t := by
  refine ⟨fun leagueID userID transactionID hjob info hinfo => ?_, h.read, h.lookedUp⟩
  obtain ⟨hissued, hwallet⟩ := h.member leagueID userID transactionID hjob info hinfo
  exact ⟨step_issued hstep hissued, step_walletOf hstep hwallet⟩

/-- The user's wallet in the rows of a membership. -/
theorem wallet_of_membership {w : World} {leagueID userID : String} {m : MemberRow}
    {p : ProfileRow} (hrefs : References w)
    (h : (m, p) ∈ w.db.userMemberships leagueID userID) :
    w.db.walletOf userID = some (w.db.walletAddress m p) := by
  obtain ⟨m', -, hmp⟩ := List.mem_flatMap.mp h
  obtain ⟨p', hp', heq⟩ := List.mem_map.mp hmp
  cases heq
  obtain ⟨hp, hjoin⟩ := List.mem_filter.mp hp'
  simp only [Bool.and_eq_true, decide_eq_true_eq] at hjoin
  obtain ⟨wallet, hwallet⟩ := hrefs.profiles p hp
  rw [← hjoin.2]
  simp [Database.walletAddress, hwallet]

/-- The member's data that a query returns are those of the league and the user. -/
theorem memberPayment_true {w : World} {leagueID userID : String} {info : MemberPayment}
    (hrefs : References w) (h : info ∈ w.db.memberPayments leagueID userID) :
    leagueID ∈ w.issued ∧ w.db.walletOf userID = some info.walletAddress ∧
      ∀ r ∈ w.db.leagues.rows, r.id = leagueID → r.entryFeeCents = info.entryFeeCents := by
  unfold Database.memberPayments at h
  split at h
  · cases h
  · rename_i r hlookup
    obtain ⟨hr, hid⟩ := Table.lookup_some hlookup
    obtain ⟨⟨m, p⟩, hmp, rfl⟩ := List.mem_map.mp h
    have hwallet := wallet_of_membership hrefs hmp
    refine ⟨hid ▸ hrefs.leagues r hr, hwallet, fun r' hr' hid' => ?_⟩
    rw [Table.eq_of_key hr' hr (hid'.trans hid.symm)]

/-- A thread that has read its member's data just now. -/
theorem informed_answer {t : BackendThread} {leagueID userID : String} {info : MemberPayment}
    (hallows : confirmProtocol.allows (confirmState t) (.query (.memberPayment leagueID userID)))
    (hw : a.world.handles (.query (.memberPayment leagueID userID)) (.ok (some info)) b.world)
    (hrefs : References a.world) :
    (∀ leagueID' userID' transactionID, t.job = .confirmPayment leagueID' userID' transactionID →
      leagueID' = leagueID ∧ userID' = userID) ∧
    leagueID ∈ b.world.issued ∧ b.world.db.walletOf userID = some info.walletAddress ∧
      ∀ r ∈ b.world.db.leagues.rows, r.id = leagueID → r.entryFeeCents = info.entryFeeCents := by
  obtain ⟨hworld, hanswer⟩ := hw
  obtain ⟨transactionID, hallowed⟩ := hallows
  rw [hworld]
  refine ⟨fun leagueID' userID' transactionID' hjob => ?_, memberPayment_true hrefs hanswer⟩
  cases hjob.symm.trans ((confirm_req t.job t.trace).symm.trans hallowed)
  exact ⟨rfl, rfl⟩

/-- What a thread learns from an answer is true. -/
theorem Learnt.answer {t : BackendThread} {c : Call} {r : Ret c}
    {next : Ret c → Job (Except GoError Response)} (h : Learnt b.world t)
    (hrefs : References a.world)
    (hallows : confirmProtocol.allows (confirmState t) c) (hw : a.world.handles c r b.world) :
    Learnt b.world (t.answer c r next) := by
  have hjob : (t.answer c r next).job = t.job := rfl
  have hgrow : t.trace <:+ (t.answer c r next).trace := List.suffix_cons _ _
  rcases ConfirmState.next_cases (confirmState t) c r with hsame |
    ⟨leagueID, userID, info, hcall, -, hnext⟩ |
    ⟨mirror, info, address, hcall, hphase, haddress, hnext⟩ |
    ⟨contract, key, address, result, info, found, paid, hcall, hphase, -, -, hnext⟩
  · constructor <;> rw [confirmState_answer, hsame]
    · exact h.member
    · exact fun info hinfo => walletsRead_mono hgrow (h.read info hinfo)
    · exact fun _ _ _ hreq info hinfo address haddress =>
        (h.lookedUp _ _ _ hreq info hinfo address haddress).mono hgrow
  · cases hcall
    obtain ⟨hsame, hissued, hwallet, -⟩ := informed_answer hallows hw hrefs
    constructor <;> rw [confirmState_answer, hnext]
    · intro leagueID' userID' transactionID hreq info' hinfo
      obtain rfl : info = info' := Option.some.inj hinfo
      obtain ⟨rfl, rfl⟩ := hsame _ _ _ (hjob ▸ hreq)
      exact ⟨hissued, hwallet⟩
    · intro info' hinfo
      obtain rfl : info = info' := Option.some.inj hinfo
      exact List.mem_flatMap.mpr ⟨_, List.mem_cons_self, by simp [Call.wallets]⟩
    · intro _ _ _ _ _ _ address haddress
      cases haddress
  · cases hcall
    have hinfo : info ∈ (confirmState t).phase.info := by simp [hphase, ConfirmPhase.info]
    constructor <;> rw [confirmState_answer, hnext]
    · intro leagueID userID transactionID hreq info' hinfo'
      obtain rfl : info = info' := Option.some.inj hinfo'
      exact h.member _ _ _ (hjob ▸ hreq) info hinfo
    · intro info' hinfo'
      obtain rfl : info = info' := Option.some.inj hinfo'
      exact walletsRead_mono hgrow (h.read info hinfo)
    · intro _ _ _ _ info' hinfo' address' haddress'
      obtain rfl : info = info' := Option.some.inj hinfo'
      obtain rfl : address = address' := Option.some.inj haddress'
      exact resolved_of_lookup (h.read info hinfo) haddress
  · cases hcall
    have hinfo : info ∈ (confirmState t).phase.info := by simp [hphase, ConfirmPhase.info]
    constructor <;> rw [confirmState_answer, hnext]
    · intro leagueID userID transactionID hreq info' hinfo'
      obtain rfl : info = info' := Option.some.inj hinfo'
      exact h.member _ _ _ (hjob ▸ hreq) info hinfo
    · intro info' hinfo'
      obtain rfl : info = info' := Option.some.inj hinfo'
      exact walletsRead_mono hgrow (h.read info hinfo)
    · intro leagueID userID transactionID hreq info' hinfo' address' haddress'
      obtain rfl : info = info' := Option.some.inj hinfo'
      obtain rfl : address = address' := Option.some.inj haddress'
      -- The request reads the payment only at the address it has found.
      obtain ⟨-, info', hphase'⟩ := hallows _ _ _ ((confirm_req t.job t.trace).trans (hjob ▸ hreq))
      obtain ⟨rfl, rfl⟩ := ConfirmPhase.resolved.inj (hphase.symm.trans hphase')
      refine (h.lookedUp _ _ _ (hjob ▸ hreq) info hinfo found ?_).mono hgrow
      simp [hphase, ConfirmPhase.found]

/-- Every thread has learnt the truth. -/
theorem Runs.learnt (h : Runs svc crypto ok a) :
    ∀ (i : ℕ) t, a.threads[i]? = some t → Learnt a.world t := by
  induction h with
  | refl => simp [initialConfig]
  | @tail a b hrun hlast ih =>
    obtain ⟨l, -, hstep⟩ := hlast
    intro i t' ht'
    rcases hstep.thread_cases ht' with ⟨req, rfl, rfl⟩ | ⟨ht, -⟩ | ⟨t, rfl, ht, rfl⟩ |
      ⟨t, c, r, next, rfl, ht, hrest, -, hw, rfl⟩
    · constructor
      · intro leagueID userID transactionID _ info hinfo
        cases hinfo
      · intro info hinfo
        cases hinfo
      · intro leagueID userID transactionID _ info hinfo
        cases hinfo
    · exact (ih i t' ht).step hstep
    · have hlearnt := (ih i t ht).step hstep
      exact ⟨hlearnt.member, hlearnt.read, hlearnt.lookedUp⟩
    · have hfollows :=
        follows_of_reaches hrun conforms_confirmProtocol (by simp [initialConfig]) i t ht
      exact ((ih i t ht).step hstep).answer (Runs.references hrun) (hfollows.allows hrest) hw

/-- A request with this confirmation has found the address by its own lookup of the wallet it has
read. -/
def Confirmation.LookedUp (a : BackendConfig) (c : Confirmation) : Prop :=
  ∃ t ∈ a.threads, confirmation t = some c ∧ Resolved t.trace c.info.walletAddress c.address

/-- What a confirmation has learnt is true. -/
theorem Runs.confirmed_learnt (h : Runs svc crypto ok a) {c : Confirmation} (hc : Confirmed a c) :
    c.leagueID ∈ a.world.issued ∧ a.world.db.walletOf c.userID = some c.info.walletAddress ∧
      c.LookedUp a := by
  obtain ⟨t, ht, hconfirmed⟩ := hc
  obtain ⟨hjob, hphase⟩ := confirmation_eq.mp hconfirmed
  obtain ⟨i, hi⟩ := List.mem_iff_getElem?.mp ht
  have hlearnt := h.learnt i t hi
  have hinfo : c.info ∈ (confirmState t).phase.info := by simp [hphase, ConfirmPhase.info]
  obtain ⟨hissued, hwallet⟩ := hlearnt.member _ _ _ hjob c.info hinfo
  refine ⟨hissued, hwallet, t, ht, hconfirmed, hlearnt.lookedUp _ _ _ hjob c.info hinfo _ ?_⟩
  simp [hphase, ConfirmPhase.found]

/-- What was looked up stays so. -/
theorem Confirmation.LookedUp.step {c : Confirmation} (h : c.LookedUp a)
    (hstep : (backend svc crypto).Step a l b) : c.LookedUp b := by
  obtain ⟨t, ht, hconfirmed, hresolved⟩ := h
  obtain ⟨i, hi⟩ := List.mem_iff_getElem?.mp ht
  have hsome : a.SomeTrace fun req trace =>
      (req = .confirmPayment c.leagueID c.userID c.transactionID ∧
        (confirmProtocol.phase { req := req } trace).phase = .verified c.info c.address) ∧
      Resolved trace c.info.walletAddress c.address :=
    ⟨i, t, hi, confirmation_eq.mp hconfirmed, hresolved⟩
  obtain ⟨k, u, hu, hverified, hresolved'⟩ := hstep.someTrace (fun req trace call hp =>
    ⟨⟨hp.1.1, verified_next hp.1.2 call.1 call.2⟩, hp.2.mono (List.suffix_cons _ _)⟩) hsome
  exact ⟨u, List.mem_of_getElem? hu, confirmation_eq.mpr hverified, hresolved'⟩

/-! ## The payment -/

/-- The escrow holds the payment a confirmation has required. -/
def Confirmation.Covered (w : World) (c : Confirmation) : Prop :=
  ∃ key, uuidToBytes32 c.leagueID = .ok key ∧
    (toMicroUSDC c.info.entryFeeCents).toInt ≤ (w.storage.payments key c.address).val

/-- A payment stays in the escrow while it is not refunded. -/
theorem Confirmation.Covered.step {c : Confirmation} (h : c.Covered a.world)
    (hstep : (backend svc crypto).Step a l b)
    (hrefund : ∀ key, uuidToBytes32 c.leagueID = .ok key → l ≠ .env (.claimRefund c.address key)) :
    c.Covered b.world := by
  obtain ⟨key, hkey, hpaid⟩ := h
  refine ⟨key, hkey, hpaid.trans ?_⟩
  exact_mod_cast step_payments hstep (hrefund key hkey)

/-- A payment is in the escrow when it is confirmed. -/
theorem confirmed_covered (hrun : Runs svc crypto ok a) (hstep : (backend svc crypto).Step a l b)
    (hreads : ReadsTruthfully a l) {c : Confirmation} (h : Confirmed b c) :
    Confirmed a c ∨ c.Covered b.world := by
  rcases confirmed_cases hrun hstep h with h |
    ⟨i, contract, key, result, paid, hkey, hworld, rfl, hdecode, hfee⟩
  · exact .inl h
  · obtain ⟨word, hword, hlength, hvalue⟩ := hreads
    have hle := decodePayment_le hdecode hword hlength
    rw [hvalue, ← hworld] at hle
    have hcovers : ¬ paid.toInt < (toMicroUSDC c.info.entryFeeCents).toInt :=
      fun hlt => hfee (Int64.lt_iff_toInt_lt.mpr hlt)
    exact .inr ⟨key, hkey, by omega⟩

/-- The payments that threads have verified. -/
def confirmations (a : BackendConfig) : List Confirmation := a.threads.filterMap confirmation

/-- A verified payment is among the confirmations. -/
theorem mem_confirmations {c : Confirmation} : c ∈ confirmations a ↔ Confirmed a c := by
  simp [confirmations, Confirmed, List.mem_filterMap]

/-- The statements that mark the memberships of a user in a league: which ones, the payment status
they get, and the transaction. -/
def Statement.marks : Statement → Option (String × String × PaymentStatus × String)
  | .markPaid leagueID userID transactionID => some (leagueID, userID, .paid, transactionID)
  | .markRefunded leagueID userID transactionID => some (leagueID, userID, .refunded, transactionID)
  | _ => none

/-- Such a statement marks the memberships of its user and leaves the others alone. -/
theorem step_marks (hstep : (backend svc crypto).Step a l b) {s : Statement}
    (hs : applied a l = some s) {leagueID userID transactionID : String} {status : PaymentStatus}
    (hmarks : s.marks = some (leagueID, userID, status, transactionID)) {m' : MemberRow}
    (hm' : m' ∈ b.world.db.members.rows) :
    ∃ m ∈ a.world.db.members.rows, m.SameMember m' ∧
      ((a.world.db.membershipOf leagueID userID m = true ∧ m'.paymentStatus = status ∧
        m'.transactionHash = some transactionID) ∨
      (a.world.db.membershipOf leagueID userID m = false ∧ m' = m)) := by
  rcases step_db hstep with ⟨hnone, -⟩ | ⟨s', hs', now, fresh, n, -, hrun, -⟩
  · cases hs.symm.trans hnone
  · obtain rfl : s = s' := Option.some.inj (hs.symm.trans hs')
    generalize b.world.db = db at hrun hm'
    cases s with
    | markPaid | markRefunded =>
      cases hmarks
      cases hrun
      obtain ⟨m, hm, rfl⟩ := List.mem_map.mp hm'
      refine ⟨m, hm, ?_⟩
      cases hmember : a.world.db.membershipOf leagueID userID m with
      | true => exact ⟨⟨rfl, rfl, rfl, rfl⟩, .inl ⟨rfl, rfl, rfl⟩⟩
      | false => exact ⟨⟨rfl, rfl, rfl, rfl⟩, .inr ⟨rfl, rfl⟩⟩
    | _ => cases hmarks

/-- Other steps mark no membership paid and leave the transactions of the paid ones alone. -/
theorem step_stays_paid (hstep : (backend svc crypto).Step a l b)
    (hmark : ∀ leagueID userID transactionID,
      applied a l ≠ some (.markPaid leagueID userID transactionID)) {m' : MemberRow}
    (hm' : m' ∈ b.world.db.members.rows) (hpaid : m'.paymentStatus = .paid) :
    ∃ m ∈ a.world.db.members.rows, m.SameMember m' ∧ m.paymentStatus = .paid ∧
      m'.transactionHash = m.transactionHash := by
  rcases step_member hstep hm' with ⟨m, hm, hmember⟩ |
    ⟨now, fresh, league, members, -, -, -, v, -, w, -, -, rfl⟩
  · refine ⟨m, hm, sameMember_of_step hmember, ?_⟩
    rcases hmember with rfl | ⟨now, s, hs, rfl | hmember⟩
    · exact ⟨hpaid, rfl⟩
    · exact ⟨hpaid, rfl⟩
    · cases s with
      | markPaid leagueID userID transactionID => exact absurd hs (hmark _ _ _)
      | importLeague =>
        obtain ⟨v, -, rfl⟩ := hmember
        exact ⟨hpaid, rfl⟩
      | setPaymentToken =>
        obtain ⟨-, rfl⟩ := hmember
        exact ⟨hpaid, rfl⟩
      | markRefunded =>
        obtain ⟨-, rfl⟩ := hmember
        cases hpaid
      | resetRefunded =>
        obtain ⟨-, -, rfl⟩ := hmember
        cases hpaid
      | recordMemberPayout =>
        obtain ⟨-, -, rfl⟩ := hmember
        exact ⟨hpaid, rfl⟩
      | _ => exact hmember.elim
  · cases hpaid

/-- Only a confirmation marks a membership paid, and it leaves its transaction there. -/
theorem step_paid (hstep : (backend svc crypto).Step a l b) {m' : MemberRow}
    (hm' : m' ∈ b.world.db.members.rows) (hpaid : m'.paymentStatus = .paid) :
    ∃ m ∈ a.world.db.members.rows, m.SameMember m' ∧
      ((m.paymentStatus = .paid ∧ m'.transactionHash = m.transactionHash ∧
        ∀ leagueID userID transactionID,
          applied a l = some (.markPaid leagueID userID transactionID) →
            a.world.db.membershipOf leagueID userID m = false) ∨
      ∃ leagueID userID transactionID,
        applied a l = some (.markPaid leagueID userID transactionID) ∧
        a.world.db.membershipOf leagueID userID m ∧ m'.transactionHash = some transactionID) := by
  by_cases hmark : ∃ leagueID userID transactionID,
      applied a l = some (.markPaid leagueID userID transactionID)
  · obtain ⟨leagueID, userID, transactionID, hs⟩ := hmark
    obtain ⟨m, hm, hsame, ⟨hmember, -, hhash⟩ | ⟨hother, rfl⟩⟩ := step_marks hstep hs rfl hm'
    · exact ⟨m, hm, hsame, .inr ⟨leagueID, userID, transactionID, hs, hmember, hhash⟩⟩
    · refine ⟨m', hm, hsame, .inl ⟨hpaid, rfl, fun leagueID' userID' transactionID' hs' => ?_⟩⟩
      cases hs.symm.trans hs'
      exact hother
  · simp only [not_exists] at hmark
    obtain ⟨m, hm, hsame, hpaidm, hhash⟩ := step_stays_paid hstep hmark hm' hpaid
    exact ⟨m, hm, hsame, .inl ⟨hpaidm, hhash, fun _ _ _ hs => absurd hs (hmark _ _ _)⟩⟩

/-- A user of the membership had a payment for its league confirmed, at the address that the
request has found for the user's wallet. -/
structure ConfirmedFor (a : BackendConfig) (m : MemberRow) (c : Confirmation) : Prop where
  confirmed : Confirmed a c
  league : c.leagueID = m.leagueID
  linked : a.world.db.linkedTo c.userID m = true
  wallet : a.world.db.walletOf c.userID = some c.info.walletAddress
  lookedUp : c.LookedUp a

/-- The membership was marked by the confirmation. -/
structure MarkedBy (a : BackendConfig) (m : MemberRow) (c : Confirmation) : Prop
    extends ConfirmedFor a m c where
  transaction : m.transactionHash = some c.transactionID

/-- A confirmation for a linked membership of its league is one for the membership. -/
theorem Runs.confirmedFor (h : Runs svc crypto ok a) {m : MemberRow} {c : Confirmation}
    (hc : Confirmed a c) (hleague : c.leagueID = m.leagueID)
    (hlinked : a.world.db.linkedTo c.userID m = true) : ConfirmedFor a m c := by
  obtain ⟨-, hwallet, hlookedUp⟩ := h.confirmed_learnt hc
  exact ⟨hc, hleague, hlinked, hwallet, hlookedUp⟩

/-- A payment confirmed for a membership stays so. -/
theorem ConfirmedFor.step {m m' : MemberRow} {c : Confirmation} (h : ConfirmedFor a m c)
    (hstep : (backend svc crypto).Step a l b) (hsame : m.SameMember m') : ConfirmedFor b m' c := by
  have hleague : m'.leagueID = m.leagueID := congrArg Prod.fst hsame.1
  exact ⟨h.confirmed.step hstep, h.league.trans hleague.symm, step_linkedTo hstep hsame h.linked,
    step_walletOf hstep h.wallet, h.lookedUp.step hstep⟩

/-- Every paid membership was marked by a confirmation. -/
theorem Runs.markedBy (h : Runs svc crypto ok a) {m : MemberRow} (hm : m ∈ a.world.db.members.rows)
    (hpaid : m.paymentStatus = .paid) : ∃ c, MarkedBy a m c := by
  induction h generalizing m with
  | refl => simp [initialConfig, Table.empty] at hm
  | @tail a b hrun hlast ih =>
    obtain ⟨l, -, hstep⟩ := hlast
    obtain ⟨m₀, hm₀, hsame,
      ⟨hpaid₀, hhash, -⟩ | ⟨leagueID, userID, transactionID, hs, hmember, hhash⟩⟩ :=
      step_paid hstep hm hpaid
    · obtain ⟨c, hc⟩ := ih hm₀ hpaid₀
      exact ⟨c, hc.toConfirmedFor.step hstep hsame, hhash.trans hc.transaction⟩
    · obtain ⟨info, address, hconfirmed⟩ := Runs.confirmed hrun hstep hs
      simp only [Database.membershipOf, Bool.and_eq_true, decide_eq_true_eq] at hmember
      have hfor : ConfirmedFor a m₀ ⟨leagueID, userID, transactionID, info, address⟩ :=
        Runs.confirmedFor hrun hconfirmed hmember.1.symm hmember.2
      exact ⟨_, hfor.step hstep hsame, hhash⟩

end Wagr
