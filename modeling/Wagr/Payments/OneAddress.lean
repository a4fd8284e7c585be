import Wagr.Payments.Evidence
import Wagr.Payments.Verified

/-!
# One account, one address

Every account has one EVM address. The mirror node reports it or gives no usable answer, and
then the address is made from the account number. The two agree for some accounts only. As
long as no lookup fails for another account, payments are read and payouts are sent at the
account's own address, and a refund is confirmed only after the payment there was zero.
-/

namespace Wagr

open Interaction Protocol System Relational

variable {svc : Service} {crypto : Crypto} {a b : BackendConfig} {l : BackendLabel}
  {ok : BackendConfig → BackendLabel → Prop} {evm : String → Address} {accountID : String}

/-! ## Looking up one address -/

/-- The 20 bytes of the address in an answer of the mirror node, if there are any. -/
def mirrorBytes (mirror : Option String) : Option (List (BitVec 8)) :=
  (mirror.bind fun text => Bytes.decodeHex (trimHexPrefix text.toList)).filter fun bytes =>
    bytes.length = 20

/-- The answer of the mirror node has the account's address or none. -/
def Reports (evm : String → Address) (accountID : String) (mirror : Option String) : Prop :=
  ∀ bytes ∈ mirrorBytes mirror, Bytes.bigEndian bytes = (evm accountID).toNat

/-- The address made from the account number is the account's address. -/
def LongZero (evm : String → Address) (accountID : String) : Prop :=
  ∀ address, hederaAccountToEVM accountID = .ok address → address = evm accountID

/-- Account lookups report the account's address or fail. -/
def mirrorAnswers (evm : String → Address) : (c : Call) → Ret c → Prop
  | .mirrorAccount accountID, mirror => Reports evm accountID mirror
  | _, _ => True

instance (mirror : Option String) : Decidable (Reports evm accountID mirror) := by
  unfold Reports
  infer_instance

instance : Decidable (LongZero evm accountID) :=
  decidable_of_iff (∀ address ∈ (hederaAccountToEVM accountID).toOption,
    address = evm accountID) (by
    unfold LongZero
    cases hederaAccountToEVM accountID <;> simp [Except.toOption])

/-- An answer with an address leads to it. -/
theorem evmAddressOf_some {mirror : Option String} {bytes : List (BitVec 8)}
    (h : bytes ∈ mirrorBytes mirror) :
    evmAddressOf accountID mirror = .ok (BitVec.ofNat 160 (Bytes.bigEndian bytes)) := by
  obtain ⟨hbytes, hlength⟩ := Option.filter_eq_some_iff.mp h
  obtain ⟨text, rfl, hdecode⟩ := Option.bind_eq_some_iff.mp hbytes
  have hdigits := Bytes.decodeHex_length hdecode
  have hsize := Bytes.utf8ByteSize_of_decodeHex hdecode
  have hlength : bytes.length = 20 := of_decide_eq_true hlength
  have hne : text ≠ "" := by
    rintro rfl
    rw [show trimHexPrefix ("" : String).toList = [] from rfl] at hdigits
    simp only [List.length_nil] at hdigits
    omega
  have hused : ¬ (text = "" ∨ (String.ofList (trimHexPrefix text.toList)).utf8ByteSize ≠ 40) := by
    rintro (h | h)
    · exact hne h
    · omega
  simp only [evmAddressOf, if_neg hused, hdecode]

/-- Without an address in the answer it is made from the account number. -/
theorem evmAddressOf_none {mirror : Option String} (h : mirrorBytes mirror = none) :
    evmAddressOf accountID mirror = hederaAccountToEVM accountID := by
  unfold evmAddressOf
  split
  · rfl
  · rename_i text
    dsimp only
    split
    · rfl
    · rename_i hused
      split
      · rfl
      · rename_i bytes hdecode
        have hsize : (String.ofList (trimHexPrefix text.toList)).utf8ByteSize = 40 := by
          by_contra hne
          exact hused (.inr hne)
        have hdigits := Bytes.decodeHex_length hdecode
        rw [Bytes.utf8ByteSize_of_decodeHex hdecode] at hsize
        have hlength : bytes.length = 20 := by omega
        have hsome : mirrorBytes (some text) = some bytes := by
          simp [mirrorBytes, hdecode, hlength]
        cases h.symm.trans hsome

/-- A lookup that reports the account's address, or fails for an account whose number makes it,
finds no other address. -/
theorem evmAddressOf_eq {mirror : Option String} {address : Address}
    (hreports : Reports evm accountID mirror)
    (hfails : mirrorBytes mirror = none → LongZero evm accountID)
    (h : evmAddressOf accountID mirror = .ok address) : address = evm accountID := by
  cases hbytes : mirrorBytes mirror with
  | none =>
    rw [evmAddressOf_none hbytes] at h
    exact hfails hbytes address h
  | some bytes =>
    rw [evmAddressOf_some hbytes, hreports bytes hbytes, BitVec.ofNat_toNat,
      BitVec.setWidth_eq] at h
    exact (Except.ok.inj h).symm

/-- Some answer reports the account's address. -/
theorem exists_reports (evm : String → Address) (accountID : String) :
    ∃ mirror, Reports evm accountID mirror ∧
      evmAddressOf accountID mirror = .ok (evm accountID) := by
  obtain ⟨bytes, hlength, hvalue⟩ : ∃ bytes : List (BitVec 8), bytes.length = 20 ∧
      Bytes.bigEndian bytes = (evm accountID).toNat := by
    refine ⟨Bytes.toBytes 20 (evm accountID).toNat, Bytes.length_toBytes _ _, ?_⟩
    rw [Bytes.bigEndian_toBytes]
    exact Nat.mod_eq_of_lt (evm accountID).isLt
  have hdecode := Bytes.decodeHex_encodeHex bytes
  have hbytes : mirrorBytes (some (String.ofList ('0' :: 'x' :: Bytes.encodeHex bytes))) =
      some bytes := by
    simp [mirrorBytes, trimHexPrefix, hdecode, hlength]
  refine ⟨_, fun bytes' h => ?_, (evmAddressOf_some hbytes).trans ?_⟩
  · rw [← Option.some.inj (hbytes.symm.trans h)]
    exact hvalue
  · rw [hvalue, BitVec.ofNat_toNat, BitVec.setWidth_eq]

/-- What a lookup may return. -/
theorem returns_getAccountEVMAddress {r : Except GoError Address} :
    (getAccountEVMAddress accountID).run.Returns (mirrorAnswers evm) r ↔
      ∃ mirror, Reports evm accountID mirror ∧ evmAddressOf accountID mirror = r := by
  constructor
  · intro h
    cases h with
    | call mirror hreports hrest =>
      cases hrest
      exact ⟨mirror, hreports, rfl⟩
  · rintro ⟨mirror, hreports, rfl⟩
    exact .call mirror hreports .done

/-- All successful lookups of an account agree if and only if its number makes its address. -/
theorem lookups_agree_iff : (∀ address address',
    (getAccountEVMAddress accountID).run.Returns (mirrorAnswers evm) (.ok address) →
      (getAccountEVMAddress accountID).run.Returns (mirrorAnswers evm) (.ok address') →
        address = address') ↔ LongZero evm accountID := by
  constructor
  · intro h address haddress
    obtain ⟨mirror, hreports, hfound⟩ := exists_reports evm accountID
    refine h address (evm accountID) (returns_getAccountEVMAddress.mpr ⟨none, ?_, haddress⟩)
      (returns_getAccountEVMAddress.mpr ⟨mirror, hreports, hfound⟩)
    intro bytes hbytes
    cases hbytes
  · intro h address address' hreturns hreturns'
    obtain ⟨mirror, hreports, hfound⟩ := returns_getAccountEVMAddress.mp hreturns
    obtain ⟨mirror', hreports', hfound'⟩ := returns_getAccountEVMAddress.mp hreturns'
    have heq := evmAddressOf_eq hreports (fun _ => h) hfound
    have heq' := evmAddressOf_eq hreports' (fun _ => h) hfound'
    rw [heq, heq']

/-! ## Looking up addresses in runs -/

/-- The step answers no call, or answers it with what a lookup may report. -/
def LooksUpTruthfully (evm : String → Address) : BackendLabel → Prop
  | .call _ c r => mirrorAnswers evm c r
  | _ => True

/-- Account lookups report the account's address or fail, and reads of payments are true. -/
structure AnswersTruthfully (evm : String → Address) (a : BackendConfig) (l : BackendLabel) :
    Prop where
  lookups : LooksUpTruthfully evm l
  reads : ReadsTruthfully a l

/-- A lookup fails only for an account whose number makes its address. -/
def FailsLongZero (evm : String → Address) : BackendLabel → Prop
  | .call _ (.mirrorAccount accountID) mirror => mirrorBytes mirror = none → LongZero evm accountID
  | _ => True

/-- Whether a request confirms a refund. -/
def Request.isRefund : Request → Bool
  | .confirmRefund _ _ _ => true
  | _ => false

/-- A refund reads no payment whose last 8 bytes are zero, unless all are. -/
def RefundReadsFit (a : BackendConfig) : BackendLabel → Prop
  | .call i (.contractCall _ (.payments key address)) (.ok _) =>
    (∃ t ∈ a.threads[i]?, t.job.isRefund = true) →
      (a.world.storage.payments key address).val % 2 ^ 64 = 0 →
        a.world.storage.payments key address = 0
  | _ => True

/-- A failed lookup makes no difference, and a refund sees whether the payment is zero. -/
structure FailuresHarmless (evm : String → Address) (a : BackendConfig) (l : BackendLabel) :
    Prop where
  fails : FailsLongZero evm l
  fit : RefundReadsFit a l

/-- Thread `i` of the run has read the payment as zero, and it was zero when the read was
answered. -/
def WasZero (svc : Service) (crypto : Crypto) (a : BackendConfig) (i : ℕ) (key : Bytes32)
    (address : Address) : Prop :=
  ∃ before after contract result, Runs svc crypto (fun _ _ => True) before ∧
    (backend svc crypto).Step before
      (.call i (.contractCall contract (.payments key address)) (.ok result)) after ∧
    (backend svc crypto).Reaches (fun _ _ => True) after a ∧
    decodePayment result = .ok 0 ∧ before.world.storage.payments key address = 0

/-- A step treats every account as having one address: lookups find it, a confirmation reads the
payment of its league there, a refund is marked by a request that read that payment when it was
zero, and a payout goes there. -/
structure OneAddress (svc : Service) (crypto : Crypto) (evm : String → Address)
    (a : BackendConfig) (l : BackendLabel) : Prop where
  found : ∀ i accountID mirror address, l = .call i (.mirrorAccount accountID) mirror →
    evmAddressOf accountID mirror = .ok address → address = evm accountID
  verified : ∀ i t contract key address r leagueID userID,
    l = .call i (.contractCall contract (.payments key address)) r → a.threads[i]? = some t →
      t.job.verifies = some (leagueID, userID) → uuidToBytes32 leagueID = .ok key ∧
        ∃ wallet, a.world.db.walletOf userID = some wallet ∧ address = evm wallet
  zero : ∀ i t contract key address result,
    l = .call i (.contractCall contract (.payments key address)) (.ok result) →
      a.threads[i]? = some t → t.job.isRefund = true → decodePayment result = .ok 0 →
        a.world.storage.payments key address = 0
  refunded : ∀ leagueID userID transactionID,
    applied a l = some (.markRefunded leagueID userID transactionID) →
      ∃ key wallet, uuidToBytes32 leagueID = .ok key ∧ a.world.db.walletOf userID = some wallet ∧
        ∃ i t, a.threads[i]? = some t ∧ t.job = .confirmRefund leagueID userID transactionID ∧
          ReadsAs t.trace (.payments key (evm wallet)) 0 ∧ WasZero svc crypto a i key (evm wallet)
  paid : ∀ i t purpose key recipients amounts r,
    l = .call i (.contractExecute purpose key recipients amounts) r → a.threads[i]? = some t →
      ∃ payees, PaysPayees t.trace purpose key recipients amounts payees ∧
        ∀ p ∈ payees, p.address = evm p.wallet

/-- What a thread has looked up is the account's address. -/
theorem Runs.lookedUp (h : Runs svc crypto ok a)
    (hok : ∀ a l, ok a l → LooksUpTruthfully evm l ∧ FailsLongZero evm l) {i : ℕ}
    {t : BackendThread} (ht : a.threads[i]? = some t) {wallet : String} {address : Address}
    (hresolved : Resolved t.trace wallet address) : address = evm wallet := by
  obtain ⟨-, mirror, hmirror, haddress⟩ := hresolved
  have hcalls := h.answered (T := fun _ _ _ call => ∀ accountID mirror,
      call = (⟨.mirrorAccount accountID, mirror⟩ : Sigma Ret) →
        Reports evm accountID mirror ∧ (mirrorBytes mirror = none → LongZero evm accountID))
    (by simp [initialConfig]) (fun _ _ _ _ hcall => hcall) ?_ ht hmirror wallet mirror rfl
  · exact evmAddressOf_eq hcalls.1 hcalls.2 haddress
  · rintro a b i t q r next - hallowed - - - accountID mirror heq
    cases heq
    exact hok _ _ hallowed

/-- A wallet that a confirmation reads is its user's. -/
theorem wallet_of_answer {w w' : World} {c : Call} {r : Ret c} {req : Request}
    {trace : List (Sigma Ret)} {leagueID userID wallet : String} (hrefs : References w)
    (hw : w.handles c r w') (hrule : paymentRule req trace c)
    (hreq : req.verifies = some (leagueID, userID)) (hwallet : wallet ∈ c.wallets r) :
    w'.db.walletOf userID = some wallet := by
  cases c with
  | query q =>
    obtain ⟨rfl, hanswer⟩ := hw
    cases q with
    | memberPayment leagueID' userID' =>
      rcases r with e | _ | info
      · cases hwallet
      · cases hwallet
      · obtain rfl := List.mem_singleton.mp hwallet
        cases hreq.symm.trans hrule
        exact (memberPayment_true hrefs hanswer).2.1
    | memberRefund leagueID' userID' =>
      rcases r with e | _ | info
      · cases hwallet
      · cases hwallet
      · obtain rfl := List.mem_singleton.mp hwallet
        cases hreq.symm.trans hrule
        have hmem : info ∈ w'.db.memberRefunds leagueID userID := hanswer
        unfold Database.memberRefunds at hmem
        split at hmem
        · cases hmem
        · obtain ⟨⟨m, p⟩, hmp, rfl⟩ := List.mem_map.mp hmem
          exact wallet_of_membership hrefs hmp
    | leagueMembers leagueID' | unexecutedEvents leagueID' week =>
      cases hreq.symm.trans hrule
    | _ => cases hwallet
  | _ => cases hwallet

/-- The wallet a confirmation has read is its user's. -/
theorem Runs.walletRead (h : Runs svc crypto ok a) {i : ℕ} {t : BackendThread}
    (ht : a.threads[i]? = some t) {leagueID userID wallet : String}
    (hreq : t.job.verifies = some (leagueID, userID)) (hread : wallet ∈ walletsRead t.trace) :
    a.world.db.walletOf userID = some wallet := by
  obtain ⟨call, hcall, hwallet⟩ := List.mem_flatMap.mp hread
  refine h.answered (T := fun a _ req call => ∀ leagueID userID,
    req.verifies = some (leagueID, userID) →
      ∀ wallet ∈ call.1.wallets call.2, a.world.db.walletOf userID = some wallet)
    (by simp [initialConfig]) ?_ ?_ ht hcall leagueID userID hreq wallet hwallet
  · intro a b l hstep _ _ _ hkeep leagueID userID hreq wallet hwallet
    exact step_walletOf hstep (hkeep leagueID userID hreq wallet hwallet)
  · intro a b i t q r next hrun _ hstep ht hrest leagueID userID hreq wallet hwallet
    have hfollows :=
      follows_of_reaches hrun conforms_paymentProtocol (by simp [initialConfig]) i t ht
    have hallows := hfollows.allows hrest
    rw [phaseOf, history_phase] at hallows
    cases hstep with
    | call ht' hrest' hstopped hw =>
      exact wallet_of_answer (Runs.references hrun) hw hallows hreq hwallet

/-- A refund that reads zero from a true answer reads a payment of zero. -/
theorem zero_of_decodePayment {result : String} {value : UInt256}
    (hdecode : decodePayment result = .ok 0)
    (htrue : ∃ word ∈ Bytes.decodeHex (trimHexPrefix result.toList), word.length = 32 ∧
      Bytes.bigEndian word = value.val) : value.val % 2 ^ 64 = 0 := by
  obtain ⟨word, hword, hlength, hvalue⟩ := htrue
  rw [decodePayment_word hword hlength, hvalue] at hdecode
  have hlow := congrArg (fun v : Int64 => v.toUInt64.toNat) (Except.ok.inj hdecode)
  have hnone : (0 : Int64).toUInt64.toNat = 0 := rfl
  simpa [hnone] using hlow

/-- A true answer for a payment whose last 8 bytes are zero reads as zero. -/
theorem decodePayment_zero {result : String} {value : UInt256}
    (htrue : ∃ word ∈ Bytes.decodeHex (trimHexPrefix result.toList), word.length = 32 ∧
      Bytes.bigEndian word = value.val) (hzero : value.val % 2 ^ 64 = 0) :
    decodePayment result = .ok 0 := by
  obtain ⟨word, hword, hlength, hvalue⟩ := htrue
  have hnone : UInt64.ofNat value.val = 0 := by
    apply UInt64.toNat_inj.mp
    rw [UInt64.toNat_ofNat', hzero]
    rfl
  rw [decodePayment_word hword hlength, hvalue, hnone]
  rfl

/-- The steps in question: true answers, harmless failures. -/
def TreatsAlike (evm : String → Address) (a : BackendConfig) (l : BackendLabel) : Prop :=
  AnswersTruthfully evm a l ∧ FailuresHarmless evm a l

/-- A zero that a refund has read was there. -/
theorem Runs.wasZero (h : Runs svc crypto (TreatsAlike evm) a) {i : ℕ} {t : BackendThread}
    (ht : a.threads[i]? = some t) (hrefund : t.job.isRefund = true) {key : Bytes32}
    {address : Address} (hread : ReadsAs t.trace (.payments key address) 0) :
    WasZero svc crypto a i key address := by
  obtain ⟨contract, result, hcall, hzero⟩ := hread
  refine h.answered (T := fun a i req call => ∀ contract key address result,
      call = (⟨.contractCall contract (.payments key address), .ok result⟩ : Sigma Ret) →
        req.isRefund = true → decodePayment result = .ok 0 → WasZero svc crypto a i key address)
    (by simp [initialConfig]) ?_ ?_ ht hcall contract key address result rfl hrefund hzero
  · intro a b l hstep i req call hkeep contract key address result heq hrefund hzero
    obtain ⟨before, after, contract', result', hrun, hread, hlater, hvalue⟩ :=
      hkeep contract key address result heq hrefund hzero
    exact ⟨before, after, contract', result', hrun, hread, hlater.step trivial hstep, hvalue⟩
  · rintro a b i t q r next hrun ⟨htrue, hharmless⟩ hstep ht - contract key address result heq
      hrefund hzero
    cases heq
    have hmod := zero_of_decodePayment hzero htrue.reads
    have hvalue := hharmless.fit ⟨t, ht, hrefund⟩ hmod
    have hweak : Runs svc crypto (fun _ _ => True) a := hrun.mono fun _ _ _ => trivial
    exact ⟨a, b, contract, result, hweak, hstep, .refl, hzero, hvalue⟩

/-- In a run with true answers and harmless failures a further step with true answers treats
every account as having one address exactly if its failures are harmless as well. -/
theorem oneAddress_step_iff (h : Runs svc crypto (TreatsAlike evm) a)
    (hstep : (backend svc crypto).Step a l b) (htrue : AnswersTruthfully evm a l) :
    OneAddress svc crypto evm a l ↔ FailuresHarmless evm a l := by
  have hfound : ∀ {i : ℕ} {t : BackendThread}, a.threads[i]? = some t → ∀ {wallet address},
      Resolved t.trace wallet address → address = evm wallet := fun ht _ _ hresolved =>
    h.lookedUp (fun _ _ hok => ⟨hok.1.lookups, hok.2.fails⟩) ht hresolved
  constructor
  · intro hone
    constructor
    · cases l with
      | call i c r =>
        cases c with
        | mirrorAccount accountID =>
          intro hfails address haddress
          exact hone.found i accountID r address rfl ((evmAddressOf_none hfails).trans haddress)
        | _ => trivial
      | _ => trivial
    · cases l with
      | call i c r =>
        cases c with
        | contractCall contract read =>
          cases read with
          | payments key address =>
            cases r with
            | error e => trivial
            | ok result =>
              rintro ⟨t, ht, hrefund⟩ hmod
              exact hone.zero i t contract key address result rfl ht hrefund
                (decodePayment_zero htrue.reads hmod)
          | leagueTotals key => cases r <;> trivial
        | _ => trivial
      | _ => trivial
  · intro hharmless
    constructor
    · rintro i accountID mirror address rfl haddress
      exact evmAddressOf_eq htrue.lookups hharmless.fails haddress
    · rintro i t contract key address r leagueID userID rfl ht hreq
      obtain ⟨hkey, wallet, hresolved⟩ := h.rule hstep ht leagueID userID hreq
      exact ⟨hkey, wallet, h.walletRead ht hreq hresolved.1, hfound ht hresolved⟩
    · rintro i t contract key address result rfl ht hrefund hzero
      exact hharmless.fit ⟨t, ht, hrefund⟩ (zero_of_decodePayment hzero htrue.reads)
    · intro leagueID userID transactionID hs
      obtain ⟨i, t, ht, earlier, hsuffix, hallows⟩ :=
        h.applied_allowed conforms_paymentProtocol hstep hs
      rw [history_phase] at hallows
      change paymentRule t.job earlier
        (.exec (.markRefunded leagueID userID transactionID)) at hallows
      obtain ⟨hjob, key, wallet, address, hkey, hresolved, hread⟩ := hallows
      have hreq : t.job.verifies = some (leagueID, userID) := by rw [hjob]; rfl
      have hresolved := hresolved.mono hsuffix
      have hread := hread.mono hsuffix
      obtain rfl := hfound ht hresolved
      have hzero := h.wasZero ht (by rw [hjob]; rfl) hread
      exact ⟨key, wallet, hkey, h.walletRead ht hreq hresolved.1, i, t, ht, hjob, hread, hzero⟩
    · rintro i t purpose key recipients amounts r rfl ht
      obtain ⟨payees, hpays⟩ := h.rule hstep ht
      exact ⟨payees, hpays, fun p hp => hfound ht (hpays.resolved p hp)⟩

/-- For every account all successful lookups agree exactly if its number makes its address. In
every run with true answers and harmless failures every step with true answers treats every
account as having one address exactly if its failures are harmless. -/
theorem oneAddress_iff (svc : Service) (crypto : Crypto) (evm : String → Address) :
    (∀ accountID, (∀ address address',
      (getAccountEVMAddress accountID).run.Returns (mirrorAnswers evm) (.ok address) →
        (getAccountEVMAddress accountID).run.Returns (mirrorAnswers evm) (.ok address') →
          address = address') ↔ LongZero evm accountID) ∧
    ∀ a l b, Runs svc crypto (TreatsAlike evm) a → (backend svc crypto).Step a l b →
      AnswersTruthfully evm a l →
        (OneAddress svc crypto evm a l ↔ FailuresHarmless evm a l) :=
  ⟨fun _ => lookups_agree_iff, fun _ _ _ => oneAddress_step_iff⟩

/-! ## Concrete runs -/

instance (c : Call) (r : Ret c) : Decidable (mirrorAnswers evm c r) := by
  rcases c with _ | _ <;> unfold mirrorAnswers <;> infer_instance

instance : Decidable (LooksUpTruthfully evm l) := by
  rcases l with _ | _ | _ | _ <;> unfold LooksUpTruthfully <;> infer_instance

instance : Decidable (FailsLongZero evm l) := by
  rcases l with _ | ⟨_, _ | _, _⟩ | _ | _ <;> unfold FailsLongZero <;> infer_instance

instance : Decidable (RefundReadsFit a l) := by
  rcases l with _ | ⟨_, _ | _, r⟩ | _ | _
  case call.contractCall contract read =>
    rcases read with _ | _ <;> rcases r with _ | _ <;> unfold RefundReadsFit <;> infer_instance
  all_goals unfold RefundReadsFit; infer_instance

instance : Decidable (AnswersTruthfully evm a l) :=
  decidable_of_iff (LooksUpTruthfully evm l ∧ ReadsTruthfully a l)
    ⟨fun h => ⟨h.1, h.2⟩, fun h => ⟨h.lookups, h.reads⟩⟩

instance : Decidable (FailuresHarmless evm a l) :=
  decidable_of_iff (FailsLongZero evm l ∧ RefundReadsFit a l)
    ⟨fun h => ⟨h.1, h.2⟩, fun h => ⟨h.fails, h.fit⟩⟩

instance : Decidable (TreatsAlike evm a l) := by
  unfold TreatsAlike
  infer_instance

/-- The address whose payment a call reads. -/
def Call.readsPaymentAt : Call → Option Address
  | .contractCall _ (.payments _ address) => some address
  | _ => none

/-- The thread has read no payment at the address. -/
def ReadsElsewhere (t : BackendThread) (address : Address) : Prop :=
  ∀ call ∈ t.trace, call.1.readsPaymentAt ≠ some address

instance (t : BackendThread) (address : Address) : Decidable (ReadsElsewhere t address) := by
  unfold ReadsElsewhere
  infer_instance

namespace Schedule

/-- The address of the member's account, which comes from its key. -/
def keyAddress : Address := 0x1111111111111111111111111111111111111111

/-- The addresses of all accounts; only the member's comes from a key. -/
def accountAddress (accountID : String) : Address :=
  if accountID = "0.0.9" then keyAddress else (hederaAccountToEVM accountID).toOption.getD 0

/-- The member of a league pays from that address, and a confirmation looks it up; then the
league is cancelled. -/
def paidFromKey : Schedule :=
  (fundedLeague firstPlace).dropLast ++ [.env (.payEntryFee keyAddress leagueKey dollar),
    .spawn (.confirmPayment leagueID "u1" "tx"), .call 4 (.succeed 0 ""),
    .call 4 (.reply (.mirrorAccount "0.0.9") (some "0x1111111111111111111111111111111111111111")),
    .call 4 (.reply (.contractCall 5 (.payments leagueKey keyAddress)) (.ok oneDollar)),
    .call 4 (.succeed 0 "f3")] ++ cancel 5 "f4"

/-- The lookup of the refund's confirmation fails, and it reads the payment of another address. -/
def refundElsewhere : Schedule := paidFromKey ++ (confirmRefund 6 "u1" "f5").dropLast

/-- The member claims the refund, and the lookup of its confirmation succeeds. -/
def refundFromKey : Schedule :=
  paidFromKey ++ [.env (.claimRefund keyAddress leagueKey),
    .spawn (.confirmRefund leagueID "u1" "tx2"), .call 6 (.succeed 0 ""),
    .call 6 (.reply (.mirrorAccount "0.0.9") (some "0x1111111111111111111111111111111111111111")),
    .call 6 (.reply (.contractCall 5 (.payments leagueKey keyAddress)) (.ok noPayment))]

end Schedule

/-- A refund that is confirmed at the member's own address is such a step. -/
theorem exists_refunded_oneAddress : ∃ a l b,
    Runs .mock .mock (TreatsAlike Schedule.accountAddress) a ∧
      (backend .mock .mock).Step a l b ∧
      applied a l = some (.markRefunded Schedule.leagueID "u1" "tx2") ∧
      OneAddress .mock .mock Schedule.accountAddress a l := by
  obtain ⟨a, l, b, hrun, hstep, ⟨htrue, hharmless⟩, hs⟩ :=
    Schedule.refundFromKey.exists_step (.call 6 (.succeed 0 "f5")) .mock .mock
      (TreatsAlike Schedule.accountAddress) (fun a l _ => TreatsAlike Schedule.accountAddress a l ∧
        applied a l = some (.markRefunded Schedule.leagueID "u1" "tx2")) (by decide +kernel)
  have hiff := (oneAddress_iff .mock .mock Schedule.accountAddress).2 a l b hrun hstep htrue
  exact ⟨a, l, b, hrun, hstep, hs, hiff.mpr hharmless⟩

/-- One failed lookup, and a member is marked refunded whose payment is still there. -/
theorem exists_refunded_unpaid : ∃ a l b,
    Runs .mock .mock (AnswersTruthfully Schedule.accountAddress) a ∧
      (backend .mock .mock).Step a l b ∧ AnswersTruthfully Schedule.accountAddress a l ∧
      applied a l = some (.markRefunded Schedule.leagueID "u1" "tx2") ∧
      (a.world.storage.payments Schedule.leagueKey (Schedule.accountAddress "0.0.9")).val =
        1000000 ∧
      ¬ OneAddress .mock .mock Schedule.accountAddress a l := by
  obtain ⟨a, l, b, hrun, hstep, htrue, hs, hpayment, hwallet, hreads⟩ :=
    Schedule.refundElsewhere.exists_step (.call 6 (.succeed 0 "f5")) .mock .mock
      (AnswersTruthfully Schedule.accountAddress)
      (fun a l _ => AnswersTruthfully Schedule.accountAddress a l ∧
        applied a l = some (.markRefunded Schedule.leagueID "u1" "tx2") ∧
        (a.world.storage.payments Schedule.leagueKey (Schedule.accountAddress "0.0.9")).val =
          1000000 ∧
        a.world.db.walletOf "u1" = some "0.0.9" ∧
        ∀ t ∈ a.threads, t.job.isRefund = true →
          ReadsElsewhere t (Schedule.accountAddress "0.0.9")) (by decide +kernel)
  refine ⟨a, l, b, hrun, hstep, htrue, hs, hpayment, fun hone => ?_⟩
  obtain ⟨key, wallet, -, hwallet', i, t, ht, hjob, ⟨contract, result, hcall, -⟩, -⟩ :=
    hone.refunded _ _ _ hs
  obtain rfl : "0.0.9" = wallet := Option.some.inj (hwallet.symm.trans hwallet')
  have hrefund : t.job.isRefund = true := by
    rw [hjob]
    rfl
  exact hreads t (List.mem_of_getElem? ht) hrefund _ hcall rfl

end Wagr
