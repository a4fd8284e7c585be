import Wagr.Service.Scenario
import Wagr.Service.Rules

/-!
# Payment checks over all numbers

The service multiplies the fee as an `int64` and compares it with the low 64 bits of what the
escrow holds for a member. The comparison is exact if the product fits and the low bits say the
same as the whole word.
-/

namespace Wagr

open Interaction Program

variable {svc : Service} {leagueID userID transactionID : String} {fee : Int64} {v : UInt256}
  {calls : List (Sigma Ret)} {r : Except GoError Unit}

/-- The text is the number as an ABI word in hexadecimal. -/
def IsWord (result : String) (v : UInt256) : Prop :=
  ∃ word ∈ Bytes.decodeHex (trimHexPrefix result.toList), word.length = 32 ∧
    Bytes.bigEndian word = v.val

/-- The answers that name the fee name this one, and the answers of the escrow are the word of this
value. -/
def Sees (fee : Int64) (v : UInt256) : Sigma Ret → Prop
  | ⟨.query (.memberFee _ _), .ok (some info)⟩ => info.entryFeeCents = fee
  | ⟨.query (.memberPayment _ _), .ok (some info)⟩ => info.entryFeeCents = fee
  | ⟨.contractCall _ (.payments _ _), .ok result⟩ => IsWord result v
  | _ => True

/-- The escrow has answered what it holds for the member. -/
def ReadsPayment (calls : List (Sigma Ret)) : Prop :=
  ∃ contract key address result,
    (⟨.contractCall contract (.payments key address), .ok result⟩ : Sigma Ret) ∈ calls

/-- The statement was run. -/
def Executes (s : Statement) (calls : List (Sigma Ret)) : Prop :=
  ∃ answer, (⟨.exec s, answer⟩ : Sigma Ret) ∈ calls

/-- With this fee and this value the outcomes are those of exact integers: the instructions ask for
`10_000` times the fee, a member is marked paid exactly if the value was read and is at least that,
and marked refunded exactly if the value was read and is zero. -/
structure ChecksExact (fee : Int64) (v : UInt256) : Prop where
  asks : ∀ (svc : Service) (leagueID userID : String) (instructions : PaymentInstructions)
    (calls : List (Sigma Ret)),
    (initiatePayment svc leagueID userID).run.Yields (.ok instructions) calls →
      (∀ call ∈ calls, Sees fee v call) → instructions.amountUSDC.toInt = 10000 * fee.toInt
  pays : ∀ (svc : Service) (leagueID userID transactionID : String) (r : Except GoError Unit)
    (calls : List (Sigma Ret)),
    (confirmPayment svc leagueID userID transactionID).run.Yields r calls →
      (∀ call ∈ calls, Sees fee v call) →
        (Executes (.markPaid leagueID userID transactionID) calls ↔
          ReadsPayment calls ∧ 10000 * fee.toInt ≤ v.val)
  refunds : ∀ (svc : Service) (leagueID userID transactionID : String) (r : Except GoError Unit)
    (calls : List (Sigma Ret)),
    (confirmRefund svc leagueID userID transactionID).run.Yields r calls →
      (∀ call ∈ calls, Sees fee v call) →
        (Executes (.markRefunded leagueID userID transactionID) calls ↔
          ReadsPayment calls ∧ v.val = 0)

/-! ## What both confirmations do -/

/-- The steps that both confirmations make after they have read the membership. -/
def verifyPayment (svc : Service) (leagueID walletAddress readMessage markMessage : String)
    (refuses : Int64 → Prop) [DecidablePred refuses] (mark : Statement) : Go Unit := do
  let evmAddr ← wrapErr ("invalid wallet address " ++ walletAddress)
    (getAccountEVMAddress walletAddress)
  let value ← readMemberPayment svc leagueID evmAddr readMessage
  if refuses value then throw .paymentInsufficient
  else
    let _ ← wrapErr markMessage (exec mark)
    return

/-- What reading the escrow calls and returns. -/
theorem yields_readMemberPayment {address : Address} {message : String} {r : Except GoError Int64}
    (h : (readMemberPayment svc leagueID address message).run.Yields r calls) :
    (calls = [] ∧ ∃ e, r = .error e) ∨ ∃ contract key answer,
      calls = [⟨.contractCall contract (.payments key address), answer⟩] ∧
        r = (answer.bind decodePayment).mapError (.wrap message) := by
  obtain ⟨_, _, rest, hkey, rfl, hrest⟩ := yields_run_bind.mp h
  obtain ⟨_, hkey', rfl⟩ := yields_wrapErr.mp hkey
  obtain ⟨rfl, rfl⟩ := yields_ofResult.mp hkey'
  clear h hkey hkey'
  cases hleague : uuidToBytes32 leagueID with
  | error e =>
    rw [hleague] at hrest
    obtain ⟨rfl, rfl⟩ := hrest
    exact .inl ⟨rfl, _, rfl⟩
  | ok key =>
    rw [hleague] at hrest
    obtain ⟨_, _, rest, hcontract, rfl, hread⟩ := yields_run_bind.mp hrest
    obtain ⟨_, hcontract', rfl⟩ := yields_wrapErr.mp hcontract
    obtain ⟨rfl, rfl⟩ := yields_ofResult.mp hcontract'
    clear hrest hcontract hcontract'
    cases hcontract : hederaAccountToEVM svc.hederaEscrowContractID with
    | error e =>
      rw [hcontract] at hread
      obtain ⟨rfl, rfl⟩ := hread
      exact .inl ⟨rfl, _, rfl⟩
    | ok contract =>
      rw [hcontract] at hread
      obtain ⟨_, hread', rfl⟩ := yields_wrapErr.mp hread
      obtain ⟨answer, _, rest, hcall, rfl, hdecode⟩ := yields_run_bind.mp hread'
      obtain rfl := (yields_perform
        (c := Call.contractCall contract (.payments key address))).mp hcall
      refine .inr ⟨contract, key, answer, ?_⟩
      cases answer with
      | error e =>
        obtain ⟨rfl, rfl⟩ := hdecode
        exact ⟨rfl, rfl⟩
      | ok result =>
        obtain ⟨rfl, rfl⟩ := yields_ofResult.mp hdecode
        exact ⟨rfl, rfl⟩

/-- The value as the service reads it. -/
def lowWord (v : UInt256) : Int64 := (UInt64.ofNat v.val).toInt64

/-- The service reads the last 64 bits of the word. -/
theorem IsWord.decodePayment {result : String} (h : IsWord result v) :
    decodePayment result = .ok (lowWord v) := by
  obtain ⟨word, hword, hlength, hvalue⟩ := h
  rw [decodePayment_word hword hlength, hvalue, lowWord]

@[simp] theorem not_executes_nil {s : Statement} : ¬ Executes s [] := by
  rintro ⟨answer, hmem⟩
  simp at hmem

@[simp] theorem executes_cons {s : Statement} {c : Call} {answer : Ret c} :
    Executes s (⟨c, answer⟩ :: calls) ↔ .exec s = c ∨ Executes s calls := by
  constructor
  · rintro ⟨answer', hmem⟩
    rcases List.mem_cons.mp hmem with heq | hmem
    · exact .inl (congrArg Sigma.fst heq)
    · exact .inr ⟨answer', hmem⟩
  · rintro (rfl | ⟨answer', hmem⟩)
    · exact ⟨answer, List.mem_cons_self⟩
    · exact ⟨answer', List.mem_cons_of_mem _ hmem⟩

@[simp] theorem not_readsPayment_nil : ¬ ReadsPayment [] := by
  rintro ⟨contract, key, address, result, hmem⟩
  simp at hmem

@[simp] theorem readsPayment_exec {s : Statement} {answer : Ret (.exec s)} :
    ReadsPayment (⟨.exec s, answer⟩ :: calls) ↔ ReadsPayment calls := by
  simp [ReadsPayment]

@[simp] theorem readsPayment_query {q : Query} {answer : Ret (.query q)} :
    ReadsPayment (⟨.query q, answer⟩ :: calls) ↔ ReadsPayment calls := by
  simp [ReadsPayment]

@[simp] theorem readsPayment_mirrorAccount {accountID : String} {answer : Option String} :
    ReadsPayment (⟨.mirrorAccount accountID, answer⟩ :: calls) ↔ ReadsPayment calls := by
  simp [ReadsPayment]

/-- A verification marks the member exactly if it reads the escrow and does not refuse the value. -/
theorem verifyPayment_iff {walletAddress readMessage markMessage : String} {refuses : Int64 → Prop}
    [DecidablePred refuses] {mark : Statement}
    (h : (verifyPayment svc leagueID walletAddress readMessage markMessage refuses
      mark).run.Yields r
      calls) (hsees : ∀ call ∈ calls, Sees fee v call) :
    Executes mark calls ↔ ReadsPayment calls ∧ ¬ refuses (lowWord v) := by
  obtain ⟨_, _, rest, haddress, rfl, hrest⟩ := yields_run_bind.mp h
  obtain ⟨_, haddress', rfl⟩ := yields_wrapErr.mp haddress
  obtain ⟨mirror, first, none, hmirror, hfound, rfl⟩ := yields_bind.mp haddress'
  obtain rfl := (yields_perform (c := Call.mirrorAccount walletAddress)).mp hmirror
  obtain ⟨rfl, rfl⟩ := yields_pure.mp hfound
  clear h haddress haddress' hmirror hfound
  simp only [List.append_nil, List.cons_append, List.nil_append, executes_cons,
    readsPayment_mirrorAccount, reduceCtorEq, false_or]
  cases haddress : evmAddressOf walletAddress mirror with
  | error e =>
    rw [haddress] at hrest
    obtain ⟨rfl, rfl⟩ := hrest
    simp
  | ok address =>
    rw [haddress] at hrest
    obtain ⟨_, first, tail, hread, rfl, htail⟩ := yields_run_bind.mp hrest
    rcases yields_readMemberPayment hread with ⟨rfl, e, rfl⟩ | ⟨contract, key, answer, rfl, rfl⟩
    · obtain ⟨rfl, rfl⟩ := htail
      simp
    · cases answer with
      | error e =>
        obtain ⟨rfl, rfl⟩ := htail
        simp [ReadsPayment]
      | ok result =>
        have hword : IsWord result v :=
          hsees ⟨.contractCall contract (.payments key address), .ok result⟩
          (by simp)
        have hreads : ReadsPayment
            ([⟨.contractCall contract (.payments key address), .ok result⟩] ++
          tail) := ⟨contract, key, address, result, by simp⟩
        rw [Except.bind, hword.decodePayment, mapError_ok] at htail
        dsimp only at htail
        split_ifs at htail with hrefuses
        · obtain ⟨rfl, rfl⟩ := yields_pure.mp htail
          simp [hrefuses]
        · obtain ⟨_, _, rest, hmark, rfl, -⟩ := yields_run_bind.mp htail
          obtain ⟨answer, hmark', rfl⟩ := yields_wrapErr.mp hmark
          obtain rfl := yields_exec.mp hmark'
          exact iff_of_true (by simp) ⟨hreads, hrefuses⟩

/-- The calls of a payment confirmation: its query, and the verification if there is one. -/
theorem confirmPayment_iff
    (h : (confirmPayment svc leagueID userID transactionID).run.Yields r calls)
    (hsees : ∀ call ∈ calls, Sees fee v call) :
    Executes (.markPaid leagueID userID transactionID) calls ↔
      ReadsPayment calls ∧ ¬ lowWord v < toMicroUSDC fee := by
  obtain ⟨_, _, rest, hinfo, rfl, hrest⟩ := yields_run_bind.mp h
  obtain ⟨answer, hinfo', rfl⟩ := yields_wrapErr.mp hinfo
  obtain rfl := (yields_query (q := .memberPayment leagueID userID)).mp hinfo'
  clear h hinfo hinfo'
  simp only [List.cons_append, List.nil_append, executes_cons, readsPayment_query, reduceCtorEq,
    false_or]
  have hnothing : rest = [] → (Executes (.markPaid leagueID userID transactionID) rest ↔
      ReadsPayment rest ∧ ¬ lowWord v < toMicroUSDC fee) := by
    rintro rfl
    simp
  rcases answer with e | _ | info
  · exact hnothing hrest.2
  · exact hnothing (yields_pure.mp hrest).2
  · rw [mapError_ok] at hrest
    dsimp only at hrest
    split_ifs at hrest with hpaid
    · exact hnothing (yields_pure.mp hrest).2
    · have hfee : info.entryFeeCents = fee :=
        hsees ⟨.query (.memberPayment leagueID userID), .ok (some info)⟩ (by simp)
      rw [hfee] at hrest
      exact verifyPayment_iff hrest fun call hcall => hsees call (by simp [hcall])

/-- The calls of a refund confirmation: its query, and the verification if there is one. -/
theorem confirmRefund_iff
    (h : (confirmRefund svc leagueID userID transactionID).run.Yields r calls)
    (hsees : ∀ call ∈ calls, Sees fee v call) :
    Executes (.markRefunded leagueID userID transactionID) calls ↔
      ReadsPayment calls ∧ lowWord v = 0 := by
  obtain ⟨_, _, rest, hinfo, rfl, hrest⟩ := yields_run_bind.mp h
  obtain ⟨answer, hinfo', rfl⟩ := yields_wrapErr.mp hinfo
  obtain rfl := (yields_query (q := .memberRefund leagueID userID)).mp hinfo'
  clear h hinfo hinfo'
  simp only [List.cons_append, List.nil_append, executes_cons, readsPayment_query, reduceCtorEq,
    false_or]
  have hnothing : rest = [] → (Executes (.markRefunded leagueID userID transactionID) rest ↔
      ReadsPayment rest ∧ lowWord v = 0) := by
    rintro rfl
    simp
  rcases answer with e | _ | info
  · exact hnothing hrest.2
  · exact hnothing (yields_pure.mp hrest).2
  · rw [mapError_ok] at hrest
    dsimp only at hrest
    split_ifs at hrest with hpaid hcancelled
    · exact hnothing (yields_pure.mp hrest).2
    · exact hnothing (yields_pure.mp hrest).2
    · have hverified := verifyPayment_iff hrest fun call hcall => hsees call (by simp [hcall])
      simpa using hverified

/-- The instructions ask for the product. -/
theorem initiatePayment_amount {instructions : PaymentInstructions}
    (h : (initiatePayment svc leagueID userID).run.Yields (.ok instructions) calls)
    (hsees : ∀ call ∈ calls, Sees fee v call) : instructions.amountUSDC = toMicroUSDC fee := by
  obtain ⟨_, _, rest, hinfo, rfl, hrest⟩ := yields_run_bind.mp h
  obtain ⟨answer, hinfo', rfl⟩ := yields_wrapErr.mp hinfo
  obtain rfl := (yields_query (q := .memberFee leagueID userID)).mp hinfo'
  rcases answer with e | _ | info
  · cases hrest.1
  · cases (yields_pure.mp hrest).1
  · rw [mapError_ok] at hrest
    dsimp only at hrest
    split_ifs at hrest with hpaid
    · cases (yields_pure.mp hrest).1
    · have hfee : info.entryFeeCents = fee :=
        hsees ⟨.query (.memberFee leagueID userID), .ok (some info)⟩ (by simp)
      have hinstructions := Except.ok.inj (yields_pure.mp hrest).1
      rw [hinstructions, hfee]

/-! ## Exact comparisons -/

/-- The product fits, and either the value does too or its last 64 bits are as good: they are a
positive `int64` that is at least the product. -/
def ChecksFit (fee : Int64) (v : UInt256) : Prop :=
  10000 * fee.toInt < 2 ^ 63 ∧ (v.val < 2 ^ 63 ∨
    0 < v.val % 2 ^ 64 ∧ v.val % 2 ^ 64 < 2 ^ 63 ∧ 10000 * fee.toInt ≤ (v.val % 2 ^ 64 : ℕ))

/-- The last 64 bits as a signed number. -/
theorem toInt_lowWord (v : UInt256) : (lowWord v).toInt =
    if v.val % 2 ^ 64 < 2 ^ 63 then ((v.val % 2 ^ 64 : ℕ) : ℤ)
    else (v.val % 2 ^ 64 : ℕ) - 2 ^ 64 := by
  change (BitVec.ofNat 64 v.val).toInt = _
  rw [BitVec.toInt_eq_toNat_cond, BitVec.toNat_ofNat]
  split_ifs <;> omega

/-- The product modulo `2 ^ 64`. -/
theorem toInt_toMicroUSDC (fee : Int64) :
    (toMicroUSDC fee).toInt = (10000 * fee.toInt).bmod (2 ^ 64) := by
  rw [mul_comm]
  exact Int64.toInt_mul fee 10000

/-- The product is exact if it fits. -/
theorem toInt_toMicroUSDC_of_lt (hfee : 0 ≤ fee.toInt) (hfits : 10000 * fee.toInt < 2 ^ 63) :
    (toMicroUSDC fee).toInt = 10000 * fee.toInt := by
  rw [toInt_toMicroUSDC]
  exact Int.bmod_eq_of_le (by omega) (by omega)

/-- If the product fits, both comparisons are exact exactly if the value or its last bits do. -/
theorem comparisons_iff (hfee : 0 ≤ fee.toInt) (hfits : 10000 * fee.toInt < 2 ^ 63) :
    ((¬ lowWord v < toMicroUSDC fee ↔ 10000 * fee.toInt ≤ v.val) ∧ (lowWord v = 0 ↔ v.val = 0)) ↔
      ChecksFit fee v := by
  have hzero : lowWord v = 0 ↔ (lowWord v).toInt = 0 := by
    rw [← Int64.toInt_inj, Int64.toInt_zero]
  have hlow := toInt_lowWord v
  unfold ChecksFit
  rw [hzero, Int64.lt_iff_toInt_lt, toInt_toMicroUSDC_of_lt hfee hfits, hlow]
  have hsame : v.val < 2 ^ 63 → v.val % 2 ^ 64 = v.val := fun h => Nat.mod_eq_of_lt (by omega)
  have hbound : v.val % 2 ^ 64 < 2 ^ 64 := Nat.mod_lt _ (by decide)
  have hrequired : 0 ≤ 10000 * fee.toInt := by omega
  generalize 10000 * fee.toInt = required at hfits hrequired ⊢
  generalize v.val % 2 ^ 64 = low at hsame hbound ⊢
  generalize v.val = value at hsame ⊢
  clear hlow hzero
  by_cases hvalue : value < 2 ^ 63
  · rw [hsame hvalue, if_pos hvalue]
    exact iff_of_true ⟨not_lt, Int.natCast_eq_zero⟩ ⟨hfits, .inl hvalue⟩
  · -- the value exceeds every product, so its last bits must not say otherwise
    have hcovered : required ≤ value := by omega
    have hnonzero : value ≠ 0 := by omega
    simp only [hcovered, hnonzero, hvalue, hfits, iff_true, iff_false, false_or, true_and]
    split_ifs with hsmall
    · omega
    · omega

/-- `0x` and the digits of the word. -/
def wordText (v : UInt256) : String :=
  String.ofList ('0' :: 'x' :: Bytes.encodeHex (Bytes.toBytes 32 v.val))

/-- The prefix is cut off. -/
theorem trimHexPrefix_prefixed (digits : List Char) :
    trimHexPrefix ('0' :: 'x' :: digits) = digits := rfl

/-- The text is the word of the value. -/
theorem isWord_wordText (v : UInt256) : IsWord (wordText v) v := by
  refine ⟨Bytes.toBytes 32 v.val, ?_, Bytes.length_toBytes .., ?_⟩
  · rw [wordText, String.toList_ofList, trimHexPrefix_prefixed, Bytes.decodeHex_encodeHex]
    rfl
  · have hsize : (256 : ℕ) ^ 32 = 2 ^ 256 := by norm_num
    rw [Bytes.bigEndian_toBytes, hsize]
    exact Nat.mod_eq_of_lt v.isLt

/-! ## Runs that get to the comparison -/

/-- The ID of a league whose runs get to the comparison. -/
def comparedLeague : String := "11111111-2222-3333-4444-555555555555"

/-- Looking up an address makes one call. -/
theorem yields_getAccountEVMAddress (accountID : String) (mirror : Option String) :
    (getAccountEVMAddress accountID).run.Yields (evmAddressOf accountID mirror)
      [⟨.mirrorAccount accountID, mirror⟩] := by
  have hcall : (perform (.mirrorAccount accountID)).Yields mirror
      [⟨.mirrorAccount accountID, mirror⟩] :=
    (yields_perform (c := Call.mirrorAccount accountID)).mpr rfl
  exact yields_bind.mpr ⟨mirror, _, [], hcall, .done, rfl⟩

/-- Reading the escrow makes one call. -/
theorem yields_readContractPayment (contract : Address) (read : ContractRead) (result : String) :
    (readContractPayment contract read).run.Yields (decodePayment result)
      [⟨.contractCall contract read, .ok result⟩] := by
  have hcall : (perform (.contractCall contract read)).Yields (.ok result)
      [⟨.contractCall contract read, .ok result⟩] :=
    (yields_perform (c := Call.contractCall contract read)).mpr rfl
  exact yields_run_bind.mpr ⟨.ok result, _, [], hcall, rfl, yields_ofResult.mpr ⟨rfl, rfl⟩⟩

/-- A verification may read any value. -/
theorem exists_verifyPayment (readMessage markMessage : String) (refuses : Int64 → Prop)
    [DecidablePred refuses] (mark : Statement) (fee : Int64) (v : UInt256) : ∃ r calls,
      (verifyPayment .mock comparedLeague "0.0.7" readMessage markMessage refuses mark).run.Yields
        r calls ∧ (∀ call ∈ calls, Sees fee v call) ∧ ReadsPayment calls := by
  obtain ⟨address, haddress⟩ : ∃ address, evmAddressOf "0.0.7" none = .ok address := ⟨7, by decide⟩
  obtain ⟨key, hkey⟩ : ∃ key, uuidToBytes32 comparedLeague = .ok key := ⟨_, rfl⟩
  obtain ⟨contract, hcontract⟩ : ∃ contract, hederaAccountToEVM "0.0.5" = .ok contract :=
    ⟨5, by decide⟩
  have hresolve : (wrapErr ("invalid wallet address " ++ "0.0.7")
      (getAccountEVMAddress "0.0.7")).run.Yields (.ok address)
      [⟨.mirrorAccount "0.0.7", none⟩] := by
    exact yields_wrapErr.mpr ⟨.ok address, haddress ▸ yields_getAccountEVMAddress "0.0.7" none, rfl⟩
  have hread : (readMemberPayment .mock comparedLeague address readMessage).run.Yields
      (.ok (lowWord v)) [⟨.contractCall contract (.payments key address), .ok (wordText v)⟩] := by
    refine yields_run_bind.mpr ⟨.ok key, [], _, ?_, rfl, ?_⟩
    · exact yields_wrapErr.mpr ⟨.ok key, yields_ofResult.mpr ⟨hkey.symm, rfl⟩, rfl⟩
    refine yields_run_bind.mpr ⟨.ok contract, [], _, ?_, rfl, ?_⟩
    · exact yields_wrapErr.mpr ⟨.ok contract, yields_ofResult.mpr ⟨hcontract.symm, rfl⟩, rfl⟩
    have hdecode := yields_readContractPayment contract (.payments key address) (wordText v)
    rw [(isWord_wordText v).decodePayment] at hdecode
    exact yields_wrapErr.mpr ⟨.ok (lowWord v), hdecode, rfl⟩
  obtain ⟨r, tail, htail, hsees⟩ : ∃ r tail, (if refuses (lowWord v) then throw .paymentInsufficient
      else do
        let _ ← wrapErr markMessage (exec mark)
        return : Go Unit).run.Yields r tail ∧ ∀ call ∈ tail, Sees fee v call := by
    by_cases hrefuses : refuses (lowWord v)
    · rw [if_pos hrefuses]
      exact ⟨_, [], .done, by simp⟩
    · rw [if_neg hrefuses]
      have hmark : (wrapErr markMessage (exec mark)).run.Yields
          (.error (.wrap markMessage .notLeagueMember)) [⟨.exec mark, .error .notLeagueMember⟩] :=
        yields_wrapErr.mpr ⟨.error .notLeagueMember, yields_exec.mpr rfl, rfl⟩
      refine ⟨_, _, yields_run_bind.mpr ⟨_, _, [], hmark, rfl, rfl, rfl⟩, ?_⟩
      intro call hcall
      obtain rfl := List.mem_singleton.mp hcall
      trivial
  refine ⟨r, _, yields_run_bind.mpr ⟨_, _, _, hresolve, rfl, yields_run_bind.mpr
    ⟨_, _, _, hread, rfl, htail⟩⟩, ?_, contract, key, address, wordText v, by simp⟩
  intro call hcall
  simp only [List.cons_append, List.nil_append, List.mem_cons] at hcall
  rcases hcall with rfl | rfl | hcall
  · trivial
  · exact isWord_wordText v
  · exact hsees call hcall

/-- A query may be answered with any rows. -/
theorem yields_read (message : String) (q : Query) (rows : q.Answer) :
    (wrapErr message (query q)).run.Yields (.ok rows) [⟨.query q, .ok rows⟩] :=
  yields_wrapErr.mpr ⟨.ok rows, yields_query.mpr rfl, rfl⟩

/-- A payment confirmation may read any fee and any value. -/
theorem exists_confirmPayment (fee : Int64) (v : UInt256) : ∃ r calls,
    (confirmPayment .mock comparedLeague "u1" "0.0.7@1").run.Yields r calls ∧
      (∀ call ∈ calls, Sees fee v call) ∧ ReadsPayment calls := by
  obtain ⟨r, calls, hcalls, hsees, hreads⟩ := exists_verifyPayment
    "failed to verify on-chain payment" "failed to update payment status"
    (fun paid => paid < toMicroUSDC fee) (.markPaid comparedLeague "u1" "0.0.7@1") fee v
  have hinfo := yields_read "failed to fetch member info" (.memberPayment comparedLeague "u1")
    (some ⟨"0.0.7", fee, .unpaid⟩)
  refine ⟨r, _, yields_run_bind.mpr ⟨_, _, _, hinfo, rfl, hcalls⟩, ?_,
    readsPayment_query.mpr hreads⟩
  exact List.forall_mem_cons.mpr ⟨rfl, hsees⟩

/-- A refund confirmation may read any value. -/
theorem exists_confirmRefund (fee : Int64) (v : UInt256) : ∃ r calls,
    (confirmRefund .mock comparedLeague "u1" "0.0.7@1").run.Yields r calls ∧
      (∀ call ∈ calls, Sees fee v call) ∧ ReadsPayment calls := by
  obtain ⟨r, calls, hcalls, hsees, hreads⟩ := exists_verifyPayment
    "failed to verify on-chain refund" "failed to update refund status"
    (fun onChain => onChain ≠ 0) (.markRefunded comparedLeague "u1" "0.0.7@1") fee v
  have hinfo := yields_read "failed to fetch member info" (.memberRefund comparedLeague "u1")
    (some ⟨"0.0.7", .paid, some 0⟩)
  refine ⟨r, _, yields_run_bind.mpr ⟨_, _, _, hinfo, rfl, hcalls⟩, ?_,
    readsPayment_query.mpr hreads⟩
  exact List.forall_mem_cons.mpr ⟨trivial, hsees⟩

/-- The instructions may be asked for with any fee. -/
theorem exists_initiatePayment (fee : Int64) (v : UInt256) : ∃ instructions calls,
    (initiatePayment .mock comparedLeague "u1").run.Yields (.ok instructions) calls ∧
      ∀ call ∈ calls, Sees fee v call := by
  have hinfo := yields_read "failed to fetch member payment info" (.memberFee comparedLeague "u1")
    (some ⟨fee, .unpaid⟩)
  refine ⟨_, _, yields_run_bind.mpr ⟨_, _, [], hinfo, rfl, yields_pure.mpr ⟨rfl, rfl⟩⟩, ?_⟩
  exact List.forall_mem_cons.mpr ⟨rfl, by simp⟩

/-- **When payment checks are exact.** With a non-negative fee the instructions and both
confirmations act on exact integers if and only if the product fits, and the value does or its last
64 bits are as good. -/
theorem checksExact_iff (fee : Int64) (v : UInt256) (hfee : 0 ≤ fee.toInt) :
    ChecksExact fee v ↔ ChecksFit fee v := by
  constructor
  · intro h
    have hfits : 10000 * fee.toInt < 2 ^ 63 := by
      obtain ⟨instructions, calls, hcalls, hsees⟩ := exists_initiatePayment fee v
      rw [← h.asks _ _ _ _ _ hcalls hsees]
      exact instructions.amountUSDC.toInt_lt
    refine (comparisons_iff hfee hfits).mp ⟨?_, ?_⟩
    · obtain ⟨r, calls, hcalls, hsees, hreads⟩ := exists_confirmPayment fee v
      have hexact := h.pays _ _ _ _ _ _ hcalls hsees
      rw [confirmPayment_iff hcalls hsees] at hexact
      simpa [hreads] using hexact
    · obtain ⟨r, calls, hcalls, hsees, hreads⟩ := exists_confirmRefund fee v
      have hexact := h.refunds _ _ _ _ _ _ hcalls hsees
      rw [confirmRefund_iff hcalls hsees] at hexact
      simpa [hreads] using hexact
  · intro h
    obtain ⟨hpays, hrefunds⟩ := (comparisons_iff hfee h.1).mpr h
    refine ⟨fun svc leagueID userID instructions calls hcalls hsees => ?_,
      fun svc leagueID userID transactionID r calls hcalls hsees => ?_,
      fun svc leagueID userID transactionID r calls hcalls hsees => ?_⟩
    · rw [initiatePayment_amount hcalls hsees, toInt_toMicroUSDC_of_lt hfee h.1]
    · rw [confirmPayment_iff hcalls hsees, hpays]
    · rw [confirmRefund_iff hcalls hsees, hrefunds]

theorem checksExact_fiftyDollars : ChecksExact 5000 50000000 :=
  (checksExact_iff 5000 50000000 (by decide)).mpr ⟨by decide, .inl (by decide)⟩

/-- With a fee of which the product is too large, a member who has paid nothing may be marked
paid. -/
theorem exists_unpaid_marked : ∃ (r : Except GoError Unit) (calls : List (Sigma Ret)),
    (confirmPayment .mock comparedLeague "u1" "0.0.7@1").run.Yields r calls ∧
      (∀ call ∈ calls, Sees 922337203685478 0 call) ∧
      Executes (.markPaid comparedLeague "u1" "0.0.7@1") calls := by
  obtain ⟨r, calls, hcalls, hsees, hreads⟩ := exists_confirmPayment 922337203685478 0
  exact ⟨r, calls, hcalls, hsees, (confirmPayment_iff hcalls hsees).mpr ⟨hreads, by decide⟩⟩

/-- The refund of a member whose payment is `2 ^ 64` may be marked although nothing was paid
back. -/
theorem exists_unrefunded_marked : ∃ (r : Except GoError Unit) (calls : List (Sigma Ret)),
    (confirmRefund .mock comparedLeague "u1" "0.0.7@1").run.Yields r calls ∧
      (∀ call ∈ calls, Sees 5000 (Fin.ofNat _ (2 ^ 64)) call) ∧
      Executes (.markRefunded comparedLeague "u1" "0.0.7@1") calls := by
  obtain ⟨r, calls, hcalls, hsees, hreads⟩ := exists_confirmRefund 5000 (Fin.ofNat _ (2 ^ 64))
  exact ⟨r, calls, hcalls, hsees, (confirmRefund_iff hcalls hsees).mpr ⟨hreads, by decide⟩⟩

/-- The product of a fee wraps around, and a value of `2 ^ 64` is read as zero. -/
theorem not_checksExact :
    ¬ ChecksExact 922337203685478 0 ∧ ¬ ChecksExact 5000 (Fin.ofNat _ (2 ^ 64)) := by
  constructor
  · intro h
    obtain ⟨r, calls, hcalls, hsees, hmarked⟩ := exists_unpaid_marked
    have hcovered := ((h.pays _ _ _ _ _ _ hcalls hsees).mp hmarked).2
    exact absurd hcovered (by decide)
  · intro h
    obtain ⟨r, calls, hcalls, hsees, hmarked⟩ := exists_unrefunded_marked
    have hzero := ((h.refunds _ _ _ _ _ _ hcalls hsees).mp hmarked).2
    exact absurd hzero (by decide)

end Wagr
