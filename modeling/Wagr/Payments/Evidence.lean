import Wagr.Library.History
import Wagr.Service.Steps

/-!
# What payments, refunds and payouts rest on

Every read of a payment, every refund and every payout transaction rests on earlier answers:
on the wallets the database has returned, on the addresses found for them, and on what the
contract holds. The rules here say on which, and every request keeps to them.
-/

namespace Wagr

open Interaction Protocol

/-- The league and the user whose payment or refund a request confirms. -/
def Request.verifies : Request → Option (String × String)
  | .confirmPayment leagueID userID _ => some (leagueID, userID)
  | .confirmRefund leagueID userID _ => some (leagueID, userID)
  | _ => none

/-- The wallets in an answer of the database. -/
def Call.wallets : (c : Call) → Ret c → List String
  | .query (.memberPayment _ _), .ok (some info) => [info.walletAddress]
  | .query (.memberRefund _ _), .ok (some info) => [info.walletAddress]
  | .query (.leagueMembers _), .ok stream => stream.rows.map LeagueMember.walletAddress
  | .query (.unexecutedEvents _ _), .ok stream => stream.rows.map WeeklyEvent.walletAddress
  | _, _ => []

/-- The wallets that were read. -/
def walletsRead (trace : List (Sigma Ret)) : List String :=
  trace.flatMap fun call => call.1.wallets call.2

/-- The address was found for a wallet that was read. -/
def Resolved (trace : List (Sigma Ret)) (wallet : String) (address : Address) : Prop :=
  wallet ∈ walletsRead trace ∧ ∃ mirror, (⟨.mirrorAccount wallet, mirror⟩ : Sigma Ret) ∈ trace ∧
    evmAddressOf wallet mirror = .ok address

/-- The contract was read, and the value is what the mirror node's answer decodes to. -/
def ReadsAs (trace : List (Sigma Ret)) (read : ContractRead) (value : Int64) : Prop :=
  ∃ contract result, (⟨.contractCall contract read, .ok result⟩ : Sigma Ret) ∈ trace ∧
    decodePayment result = .ok value

/-- Someone a transaction pays. -/
structure Payee where
  wallet : String
  amountCents : Int64
  address : Address

/-- The transaction pays the payees: each at the address found for the wallet, all amounts in
micro-USDC, from the league's entry, after a check against what the league holds. -/
structure PaysPayees (trace : List (Sigma Ret)) (purpose : Purpose) (key : Bytes32)
    (recipients : List Address) (amounts : List Int64) (payees : List Payee) : Prop where
  league : uuidToBytes32 purpose.leagueID = .ok key
  resolved : ∀ p ∈ payees, Resolved trace p.wallet p.address
  addresses : recipients = payees.map Payee.address
  microUSDC : amounts = payees.map fun p => toMicroUSDC p.amountCents
  covered : ∃ balance, ReadsAs trace (.leagueTotals key) balance ∧ ¬ sumPayout amounts > balance

/-- Which calls a request may make after a trace. -/
def paymentRule (req : Request) (trace : List (Sigma Ret)) : Call → Prop
  | .query (.memberPayment leagueID userID) => req.verifies = some (leagueID, userID)
  | .query (.memberRefund leagueID userID) => req.verifies = some (leagueID, userID)
  | .query (.leagueMembers _) => req.verifies = none
  | .query (.unexecutedEvents _ _) => req.verifies = none
  | .contractCall _ (.payments key address) =>
    ∀ leagueID userID, req.verifies = some (leagueID, userID) →
      uuidToBytes32 leagueID = .ok key ∧ ∃ wallet, Resolved trace wallet address
  | .contractExecute purpose key recipients amounts =>
    ∃ payees, PaysPayees trace purpose key recipients amounts payees
  | .exec (.markRefunded leagueID userID transactionID) =>
    req = .confirmRefund leagueID userID transactionID ∧ ∃ key wallet address,
      uuidToBytes32 leagueID = .ok key ∧ Resolved trace wallet address ∧
        ReadsAs trace (.payments key address) 0
  | _ => True

/-- The protocol of these rules. -/
abbrev paymentProtocol : Protocol Call Ret (Request × List (Sigma Ret)) := history paymentRule

variable {svc : Service} {crypto : Crypto} {req : Request} {trace later : List (Sigma Ret)}
  {a b : BackendConfig} {ok : BackendConfig → BackendLabel → Prop}

/-- What was read stays so. -/
theorem walletsRead_mono (hlater : trace <:+ later) : walletsRead trace ⊆ walletsRead later := by
  intro wallet hwallet
  obtain ⟨call, hcall, hmem⟩ := List.mem_flatMap.mp hwallet
  exact List.mem_flatMap.mpr ⟨call, hlater.subset hcall, hmem⟩

/-- What was resolved stays so. -/
theorem Resolved.mono {wallet : String} {address : Address} (h : Resolved trace wallet address)
    (hlater : trace <:+ later) : Resolved later wallet address := by
  obtain ⟨hread, mirror, hmirror, haddress⟩ := h
  exact ⟨walletsRead_mono hlater hread, mirror, hlater.subset hmirror, haddress⟩

/-- What was read from the contract stays so. -/
theorem ReadsAs.mono {read : ContractRead} {value : Int64} (h : ReadsAs trace read value)
    (hlater : trace <:+ later) : ReadsAs later read value := by
  obtain ⟨contract, result, hresult, hvalue⟩ := h
  exact ⟨contract, result, hlater.subset hresult, hvalue⟩

/-- The evidence for a transaction stays so. -/
theorem PaysPayees.mono {purpose : Purpose} {key : Bytes32} {recipients : List Address}
    {amounts : List Int64} {payees : List Payee}
    (h : PaysPayees trace purpose key recipients amounts payees) (hlater : trace <:+ later) :
    PaysPayees later purpose key recipients amounts payees := by
  obtain ⟨balance, hbalance, hcovered⟩ := h.covered
  exact ⟨h.league, fun p hp => (h.resolved p hp).mono hlater, h.addresses, h.microUSDC, balance,
    hbalance.mono hlater, hcovered⟩

/-- A program whose calls the rules allow at any later time. -/
theorem conforms_rest {α : Type} {x : Job α}
    (hx : Calls (fun c => ∀ later, trace <:+ later → paymentRule req later c) x) :
    paymentProtocol.Conforms (req, trace) x fun φ _ => φ.1 = req :=
  (conforms_history hx).mono fun _ _ h => h.1

/-! ## Confirmations -/

/-- A request that confirms a payment or refund reads the payment of its league at the address
it has found. -/
theorem conforms_readVerified {leagueID userID wallet message : String} {address : Address}
    (hreq : req.verifies = some (leagueID, userID)) (haddress : Resolved trace wallet address) :
    paymentProtocol.Conforms (req, trace) (readMemberPayment svc leagueID address message).run
      fun φ r => φ.1 = req ∧ trace <:+ φ.2 ∧ ∀ paid, r = .ok paid →
        ∃ key, uuidToBytes32 leagueID = .ok key ∧ ReadsAs φ.2 (.payments key address) paid := by
  refine conforms_run_bind.mpr (conforms_wrapErr.mpr (conforms_ofResult.mpr ?_))
  cases hkey : uuidToBytes32 leagueID with
  | error e => exact ⟨rfl, List.suffix_rfl, by intro paid h; cases h⟩
  | ok key =>
    refine conforms_run_bind.mpr (conforms_wrapErr.mpr (conforms_ofResult.mpr ?_))
    cases hederaAccountToEVM svc.hederaEscrowContractID with
    | error e => exact ⟨rfl, List.suffix_rfl, by intro paid h; cases h⟩
    | ok contract =>
      refine conforms_wrapErr.mpr (conforms_run_bind.mpr ⟨?_, fun result => ?_⟩)
      · intro leagueID' userID' hreq'
        cases hreq.symm.trans hreq'
        exact ⟨hkey, wallet, haddress⟩
      · cases result with
        | error e => exact ⟨rfl, List.suffix_cons _ _, by intro paid h; cases h⟩
        | ok result =>
          refine ⟨rfl, List.suffix_cons _ _, fun paid h => ⟨key, rfl, contract, result, ?_, ?_⟩⟩
          · exact List.mem_cons_self
          · change (decodePayment result).mapError _ = _ at h
            cases hdecode : decodePayment result with
            | error e =>
              rw [hdecode] at h
              cases h
            | ok value =>
              rw [hdecode] at h
              cases h
              rfl

/-- The wallet of a confirmation is looked up after it was read. -/
theorem resolved_of_lookup {wallet : String} {mirror : Option String} {address : Address}
    (hread : wallet ∈ walletsRead trace) (haddress : evmAddressOf wallet mirror = .ok address) :
    Resolved (⟨.mirrorAccount wallet, mirror⟩ :: trace) wallet address := by
  have hgrow : trace <:+ (⟨.mirrorAccount wallet, mirror⟩ : Sigma Ret) :: trace :=
    List.suffix_cons _ _
  exact ⟨walletsRead_mono hgrow hread, mirror, List.mem_cons_self, haddress⟩

/-- `ConfirmPayment` keeps to the rules. -/
theorem conforms_confirmPayment_rule {leagueID userID transactionID : String} :
    paymentProtocol.Conforms (.confirmPayment leagueID userID transactionID, [])
      (confirmPayment svc leagueID userID transactionID).run fun _ _ => True := by
  refine conforms_run_bind.mpr (conforms_wrapErr.mpr (conforms_query.mpr
    ⟨rfl, fun info => ?_, fun _ => trivial⟩))
  cases info with
  | none => trivial
  | some info =>
    refine conforms_run_ite.mpr ⟨fun _ => trivial, fun _ => ?_⟩
    refine conforms_run_bind.mpr (conforms_wrapErr.mpr ⟨trivial, fun mirror => ?_⟩)
    change paymentProtocol.Conforms _ (pure (evmAddressOf info.walletAddress mirror)) _
    cases haddress : evmAddressOf info.walletAddress mirror with
    | error e => trivial
    | ok address =>
      have hread : info.walletAddress ∈
          walletsRead [⟨.query (.memberPayment leagueID userID), .ok (some info)⟩] := by
        simp [walletsRead, Call.wallets]
      have hresolved := resolved_of_lookup hread haddress
      refine conforms_run_bind.mpr ((conforms_readVerified rfl hresolved).mono fun φ paid _ => ?_)
      cases paid with
      | error e => trivial
      | ok paid =>
        refine conforms_run_ite.mpr ⟨fun _ => trivial, fun _ => ?_⟩
        exact conforms_run_bind.mpr (conforms_wrapErr.mpr (conforms_exec.mpr
          ⟨trivial, fun _ => trivial, fun _ => trivial⟩))

/-- `ConfirmRefund` keeps to the rules: a membership is marked refunded after a zero was read. -/
theorem conforms_confirmRefund_rule {leagueID userID transactionID : String} :
    paymentProtocol.Conforms (.confirmRefund leagueID userID transactionID, [])
      (confirmRefund svc leagueID userID transactionID).run fun _ _ => True := by
  refine conforms_run_bind.mpr (conforms_wrapErr.mpr (conforms_query.mpr
    ⟨rfl, fun info => ?_, fun _ => trivial⟩))
  cases info with
  | none => trivial
  | some info =>
    refine conforms_run_ite.mpr ⟨fun _ => trivial, fun _ => ?_⟩
    refine conforms_run_ite.mpr ⟨fun _ => trivial, fun _ => ?_⟩
    refine conforms_run_bind.mpr (conforms_wrapErr.mpr ⟨trivial, fun mirror => ?_⟩)
    change paymentProtocol.Conforms _ (pure (evmAddressOf info.walletAddress mirror)) _
    cases haddress : evmAddressOf info.walletAddress mirror with
    | error e => trivial
    | ok address =>
      have hread : info.walletAddress ∈
          walletsRead [⟨.query (.memberRefund leagueID userID), .ok (some info)⟩] := by
        simp [walletsRead, Call.wallets]
      have hresolved := resolved_of_lookup hread haddress
      refine conforms_run_bind.mpr ((conforms_readVerified rfl hresolved).mono ?_)
      rintro ⟨req, trace⟩ paid ⟨rfl, hgrow, hread⟩
      cases paid with
      | error e => trivial
      | ok paid =>
        refine conforms_run_ite.mpr ⟨fun _ => trivial, fun hzero => ?_⟩
        obtain rfl : paid = 0 := not_not.mp hzero
        obtain ⟨key, hkey, hzero⟩ := hread 0 rfl
        refine conforms_run_bind.mpr (conforms_wrapErr.mpr (conforms_exec.mpr
          ⟨?_, fun _ => trivial, fun _ => trivial⟩))
        exact ⟨rfl, key, _, address, hkey, hresolved.mono hgrow, hzero⟩

/-! ## Payouts -/

/-- After its balance check a payout makes only calls that the rules allow at any later time. -/
theorem calls_executeChecked {purpose : Purpose} {key : Bytes32} {recipients : List Address}
    {amounts : List Int64} {payees : List Payee}
    (hpays : PaysPayees trace purpose key recipients amounts payees) :
    Calls (fun c => ∀ later, trace <:+ later → paymentRule req later c)
      (executeDistributePayout purpose key recipients amounts).run :=
  calls_executeDistributePayout (fun _ hlater => ⟨payees, hpays.mono hlater⟩)
    fun _ _ _ => trivial

/-- The balance read before a payout. -/
theorem conforms_readTotal {contract : Address} {key : Bytes32} :
    paymentProtocol.Conforms (req, trace) (readContractPayment contract (.leagueTotals key)).run
      fun φ r => φ.1 = req ∧ trace <:+ φ.2 ∧ ∀ balance, r = .ok balance →
        ReadsAs φ.2 (.leagueTotals key) balance := by
  refine conforms_run_bind.mpr ⟨trivial, fun result => ?_⟩
  cases result with
  | error e => exact ⟨rfl, List.suffix_cons _ _, by intro balance h; cases h⟩
  | ok result =>
    exact ⟨rfl, List.suffix_cons _ _, fun balance h => ⟨contract, result, List.mem_cons_self, h⟩⟩

/-- The events of a payout are resolved one after the other. -/
theorem conforms_resolveEvents_rule {events : List WeeklyEvent} {trace : List (Sigma Ret)}
    (hread : ∀ ev ∈ events, ev.walletAddress ∈ walletsRead trace) :
    paymentProtocol.Conforms (req, trace) (resolveEvents events) fun φ resolved =>
      φ.1 = req ∧ trace <:+ φ.2 ∧ ∀ p ∈ resolved, Resolved φ.2 p.1.walletAddress p.2 := by
  induction events generalizing trace with
  | nil => exact ⟨rfl, List.suffix_rfl, by simp⟩
  | cons ev events ih =>
    refine conforms_bind.mpr (conforms_bind.mpr ⟨trivial, fun mirror => ?_⟩)
    have hgrow : trace <:+ (⟨.mirrorAccount ev.walletAddress, mirror⟩ : Sigma Ret) :: trace :=
      List.suffix_cons _ _
    have htail := ih fun e he => walletsRead_mono hgrow (hread e (List.mem_cons_of_mem _ he))
    refine conforms_bind.mpr (htail.mono ?_)
    rintro ⟨req', later⟩ resolved ⟨rfl, hlater, hresolved⟩
    cases haddress : evmAddressOf ev.walletAddress mirror with
    | error e => exact ⟨rfl, hgrow.trans hlater, hresolved⟩
    | ok address =>
      have hhead := resolved_of_lookup (hread ev List.mem_cons_self) haddress
      refine ⟨rfl, hgrow.trans hlater, fun p hp => ?_⟩
      rcases List.mem_cons.mp hp with rfl | hp
      · exact hhead.mono hlater
      · exact hresolved p hp

/-- The second half of a weekly payout keeps to the rules. -/
theorem conforms_payWeeklyEvents_rule {league : OracleLeague} {events : List WeeklyEvent}
    (hread : ∀ ev ∈ events, ev.walletAddress ∈ walletsRead trace) :
    paymentProtocol.Conforms (req, trace) (payWeeklyEvents svc league events).run
      fun φ _ => φ.1 = req := by
  refine conforms_run_bind.mpr (conforms_wrapErr.mpr (conforms_ofResult.mpr ?_))
  cases hkey : uuidToBytes32 league.id with
  | error e => rfl
  | ok key =>
    refine conforms_run_bind.mpr (conforms_wrapErr.mpr (conforms_ofResult.mpr ?_))
    cases hederaAccountToEVM svc.hederaEscrowContractID with
    | error e => rfl
    | ok contract =>
      refine conforms_run_bind.mpr (conforms_run_lift.mpr ?_)
      refine (conforms_resolveEvents_rule hread).mono ?_
      rintro ⟨req', later⟩ resolved ⟨rfl, -, hresolved⟩
      refine conforms_run_ite.mpr ⟨fun _ => rfl, fun _ => ?_⟩
      refine conforms_run_bind.mpr (conforms_wrapErr.mpr (conforms_readTotal.mono ?_))
      rintro ⟨req'', latest⟩ balance ⟨rfl, hlater, hbalance⟩
      cases balance with
      | error e => rfl
      | ok balance =>
        refine conforms_run_ite.mpr ⟨fun _ => rfl, fun hcovered => ?_⟩
        have hpays : PaysPayees latest (.weekly league.id (resolved.map fun r => r.1.id)) key
            (resolved.map Prod.snd) (resolved.map fun r => toMicroUSDC r.1.amountCents)
            (resolved.map fun r => ⟨r.1.walletAddress, r.1.amountCents, r.2⟩) := by
          refine ⟨hkey, ?_, by simp [Function.comp_def], by simp [Function.comp_def],
            balance, hbalance _ rfl, hcovered⟩
          intro p hp
          obtain ⟨r, hr, rfl⟩ := List.mem_map.mp hp
          exact (hresolved r hr).mono hlater
        refine conforms_rest (.run_bind (.wrapErr (calls_executeChecked hpays)) fun hash => ?_)
        exact .lift (.forM fun id => .bind (.exec fun _ _ => trivial) fun _ => trivial)

/-- The weekly payout of a league keeps to the rules. -/
theorem conforms_weeklyRound_rule {league : OracleLeague} (hreq : req.verifies = none) :
    paymentProtocol.Conforms (req, trace) (weeklyRound svc league) fun φ _ => φ.1 = req := by
  refine conforms_ite.mpr ⟨fun _ => rfl, fun _ => conforms_bind.mpr ⟨trivial, fun week => ?_⟩⟩
  cases week with
  | error e => rfl
  | ok week =>
    refine conforms_ite.mpr ⟨fun _ => rfl, fun _ => conforms_bind.mpr ?_⟩
    refine conforms_run_bind.mpr (conforms_wrapErr.mpr ⟨trivial, fun matchups => ?_⟩)
    cases matchups with
    | error e => rfl
    | ok matchups =>
      refine conforms_run_bind.mpr (conforms_wrapErr.mpr (conforms_run_bind.mpr
        (conforms_wrapErr.mpr (conforms_query.mpr ⟨hreq, fun members => ?_, fun _ => rfl⟩))))
      have hrecord :
          ∀ {trace : List (Sigma Ret)} (members : List LeagueMember) (entry : PayoutEntry)
          (m : PlatformMatchup), Calls (fun c => ∀ later, trace <:+ later → paymentRule req later c)
            (recordWeeklyEvent league (week - 1) members entry m).run :=
        fun _ _ _ => calls_recordWeeklyEvent fun _ _ _ _ _ _ _ _ _ => trivial
      refine conforms_run_bind.mpr ((conforms_history (Calls.run_forM fun entry =>
        Calls.run_forM (hrecord _ entry))).mono ?_)
      rintro ⟨req', later⟩ recorded ⟨rfl, -⟩
      cases recorded with
      | error e => rfl
      | ok recorded =>
        refine conforms_run_bind.mpr (conforms_wrapErr.mpr (conforms_query.mpr
          ⟨hreq, fun stream => ?_, fun _ => rfl⟩))
        refine conforms_run_ite.mpr ⟨fun _ => rfl, fun _ => ?_⟩
        refine (conforms_payWeeklyEvents_rule fun ev hev => ?_).mono fun _ _ h => h
        refine List.mem_flatMap.mpr ⟨_, List.mem_cons_self, ?_⟩
        exact List.mem_map_of_mem hev

/-- The standings of a settlement are resolved one after the other. -/
theorem conforms_resolveStandings_rule {entries : List PayoutEntry} {members : List LeagueMember}
    {purpose : Purpose} {standings : List PlatformStanding} {trace : List (Sigma Ret)}
    (hread : ∀ m ∈ members, m.walletAddress ∈ walletsRead trace) :
    paymentProtocol.Conforms (req, trace)
      (resolveStandings (seasonEndDeps svc purpose) entries members standings) fun φ resolved =>
      φ.1 = req ∧ trace <:+ φ.2 ∧ ∀ r ∈ resolved,
        Resolved φ.2 r.member.walletAddress r.evmAddr := by
  induction standings generalizing trace with
  | nil => exact ⟨rfl, List.suffix_rfl, by simp⟩
  | cons standing standings ih =>
    have hhead : paymentProtocol.Conforms (req, trace)
        (resolveStanding (seasonEndDeps svc purpose) entries members standing) fun φ head =>
        φ.1 = req ∧ trace <:+ φ.2 ∧
          ∀ r ∈ head, Resolved φ.2 r.member.walletAddress r.evmAddr := by
      refine conforms_resolveStanding ⟨rfl, List.suffix_rfl, by simp⟩ ?_
      intro entry member _ hmember
      have hmem : member ∈ members := List.mem_reverse.mp (List.mem_of_find?_eq_some hmember)
      refine ⟨trivial, fun mirror =>
        ⟨⟨rfl, List.suffix_cons _ _, by simp⟩, fun addr haddress => ?_⟩⟩
      refine ⟨rfl, List.suffix_cons _ _, fun r hr => ?_⟩
      obtain rfl := Option.some.inj hr
      exact resolved_of_lookup (hread member hmem) haddress
    refine conforms_bind.mpr (hhead.mono ?_)
    rintro ⟨req', later⟩ head ⟨rfl, hgrow, hresolved⟩
    refine conforms_bind.mpr ((ih fun m hm => walletsRead_mono hgrow (hread m hm)).mono ?_)
    rintro ⟨req'', latest⟩ tail ⟨rfl, hlater, htail⟩
    refine ⟨rfl, hgrow.trans hlater, fun r hr => ?_⟩
    rcases List.mem_append.mp hr with hr | hr
    · exact (hresolved r (Option.mem_toList.mp hr)).mono hlater
    · exact htail r hr

/-- The payment of a settlement keeps to the rules. -/
theorem conforms_payResolved_rule {leagueID : String} {resolved : List ResolvedPayout}
    (hresolved : ∀ r ∈ resolved, Resolved trace r.member.walletAddress r.evmAddr) :
    paymentProtocol.Conforms (req, trace)
      (payResolved (seasonEndDeps svc (.seasonEnd leagueID)) leagueID resolved).run
      fun φ _ => φ.1 = req := by
  refine conforms_run_bind.mpr (conforms_wrapErr.mpr (conforms_ofResult.mpr ?_))
  cases hkey : uuidToBytes32 leagueID with
  | error e => rfl
  | ok key =>
    refine conforms_run_bind.mpr (conforms_wrapErr.mpr (conforms_run_bind.mpr
      (conforms_wrapErr.mpr (conforms_ofResult.mpr ?_))))
    cases hederaAccountToEVM svc.hederaEscrowContractID with
    | error e => rfl
    | ok contract =>
      refine conforms_readTotal.mono ?_
      rintro ⟨req', later⟩ balance ⟨rfl, hlater, hbalance⟩
      cases balance with
      | error e => rfl
      | ok balance =>
        refine conforms_run_ite.mpr ⟨fun _ => rfl, fun hcovered => conforms_rest ?_⟩
        have hpays : PaysPayees later (.seasonEnd leagueID) key
            (resolved.map ResolvedPayout.evmAddr) (resolved.map fun r => toMicroUSDC r.amountCents)
            (resolved.map fun r => ⟨r.member.walletAddress, r.amountCents, r.evmAddr⟩) := by
          refine ⟨hkey, ?_, by simp [Function.comp_def], by simp [Function.comp_def],
            balance, hbalance _ rfl, hcovered⟩
          intro p hp
          obtain ⟨r, hr, rfl⟩ := List.mem_map.mp hp
          exact (hresolved r hr).mono hlater
        refine .run_bind (.wrapErr (.run_bind (.exec fun _ _ => trivial) fun _ => trivial))
          fun claimed => .run_ite (fun _ => ?_) fun _ => trivial
        refine .run_bind (.lift (calls_executeChecked hpays)) fun txHash => ?_
        cases txHash with
        | error e =>
          exact .run_bind (.lift (.run_bind (.exec fun _ _ => trivial) fun _ => trivial))
            fun _ => trivial
        | ok txHash =>
          refine .run_bind (.wrapErr (.run_bind (.exec fun _ _ => trivial) fun _ => trivial))
            fun updated => .run_ite (fun _ => ?_) fun _ => trivial
          exact .lift (.forM fun r => .bind (.run_bind (.exec fun _ _ => trivial) fun _ => trivial)
            fun _ => trivial)

/-- The settlement of a league keeps to the rules. -/
theorem conforms_settleSeasonEnd_rule {league : OracleLeague} (hreq : req.verifies = none) :
    paymentProtocol.Conforms (req, trace) (processSeasonEndForLeague svc league).run
      fun φ _ => φ.1 = req := by
  have hsettle : ∀ {trace : List (Sigma Ret)} purpose, paymentProtocol.Conforms (req, trace)
      ((seasonEndDeps svc purpose).markSettledWithoutPayout league.id).run fun φ _ => φ.1 = req :=
    fun _ => conforms_rest (.run_bind (.exec fun _ _ => trivial) fun _ => trivial)
  refine conforms_run_bind.mpr (conforms_wrapErr.mpr (conforms_run_bind.mpr
    ⟨trivial, fun status => ?_⟩))
  cases status with
  | error e => rfl
  | ok status =>
    refine conforms_run_ite.mpr ⟨fun _ => rfl, fun _ => conforms_run_ite.mpr
      ⟨fun _ => hsettle _, fun _ => conforms_run_bind.mpr (conforms_wrapErr.mpr
        ⟨trivial, fun standings => ?_⟩)⟩⟩
    cases standings with
    | error e => rfl
    | ok standings =>
      refine conforms_run_bind.mpr (conforms_wrapErr.mpr (conforms_run_bind.mpr
        (conforms_wrapErr.mpr (conforms_query.mpr ⟨hreq, fun stream => ?_, fun _ => rfl⟩))))
      refine conforms_run_bind.mpr (conforms_run_lift.mpr ?_)
      refine (conforms_resolveStandings_rule fun m hm => ?_).mono ?_
      · refine List.mem_flatMap.mpr ⟨_, List.mem_cons_self, ?_⟩
        exact List.mem_map_of_mem hm
      · rintro ⟨req', later⟩ resolved ⟨rfl, -, hresolved⟩
        exact conforms_run_ite.mpr ⟨fun _ => hsettle _, fun _ =>
          conforms_payResolved_rule hresolved⟩

/-! ## All requests -/

/-- The calls of the remaining requests are always allowed. -/
theorem Request.mayCall.paymentRule {c : Call} (h : req.mayCall c) (hreq : req.verifies = none)
    (hweekly : req ≠ .runWeeklyPayoutJob) (hseason : req ≠ .runSeasonEndPayoutJob) :
    paymentRule req later c := by
  cases c with
  | exec s =>
    cases s with
    | markRefunded leagueID userID transactionID =>
      cases req with
      | confirmRefund => cases hreq
      | _ => exact h.elim
    | _ => trivial
  | query q =>
    cases q with
    | memberPayment leagueID userID | memberRefund leagueID userID =>
      cases req with
      | confirmPayment | confirmRefund => cases hreq
      | _ => exact h.elim
    | leagueMembers | unexecutedEvents => exact hreq
    | _ => trivial
  | contractCall contract read =>
    cases read with
    | payments key address =>
      intro leagueID userID hverifies
      cases hreq.symm.trans hverifies
    | leagueTotals key => trivial
  | contractExecute purpose key recipients amounts =>
    cases purpose with
    | seasonEnd leagueID => exact absurd h hseason
    | weekly leagueID eventIDs => exact absurd h hweekly
  | _ => trivial

/-- Every request keeps to the rules. -/
theorem conforms_paymentProtocol (req : Request) :
    paymentProtocol.Conforms (req, []) ((backend svc crypto).body req) fun _ _ => True := by
  have hother : req.verifies = none → req ≠ .runWeeklyPayoutJob → req ≠ .runSeasonEndPayoutJob →
      paymentProtocol.Conforms (req, []) ((backend svc crypto).body req) fun _ _ => True := by
    intro hreq hweekly hseason
    have hcalls : Calls (fun c => ∀ later, [] <:+ later → paymentRule req later c)
        ((backend svc crypto).body req) :=
      (calls_request req).weaken fun c hc _ _ => hc.paymentRule hreq hweekly hseason
    exact (conforms_rest hcalls).mono fun _ _ _ => trivial
  cases req with
  | confirmPayment => exact conforms_toDone conforms_confirmPayment_rule
  | confirmRefund => exact conforms_toDone conforms_confirmRefund_rule
  | runWeeklyPayoutJob =>
    refine conforms_toDone (conforms_run_ite.mpr ⟨fun _ => ?_, fun _ => trivial⟩)
    refine conforms_run_bind.mpr (conforms_wrapErr.mpr (conforms_query.mpr
      ⟨trivial, fun stream => conforms_run_lift.mpr ?_, fun _ => trivial⟩))
    refine (conforms_forM (I := fun φ => φ.1 = .runWeeklyPayoutJob) ?_ rfl).mono
      fun _ _ _ => trivial
    rintro league - ⟨req, trace⟩ rfl
    exact conforms_weeklyRound_rule rfl
  | runSeasonEndPayoutJob =>
    refine conforms_toDone (conforms_run_ite.mpr ⟨fun _ => ?_, fun _ => trivial⟩)
    refine conforms_run_bind.mpr (conforms_wrapErr.mpr (conforms_query.mpr
      ⟨trivial, fun stream => conforms_run_lift.mpr ?_, fun _ => trivial⟩))
    refine (conforms_forM (I := fun φ => φ.1 = .runSeasonEndPayoutJob) ?_ rfl).mono
      fun _ _ _ => trivial
    rintro league - ⟨req, trace⟩ rfl
    exact conforms_bind.mpr (conforms_settleSeasonEnd_rule rfl)
  | _ => exact hother rfl (by simp) (by simp)

/-- The rules hold of every call that is answered. -/
theorem Runs.rule (h : Runs svc crypto ok a) {i : ℕ} {c : Call} {r : Ret c}
    (hstep : (backend svc crypto).Step a (.call i c r) b) {t : BackendThread}
    (ht : a.threads[i]? = some t) : paymentRule t.job t.trace c := by
  cases hstep with
  | call ht' hrest hstopped hw =>
    obtain rfl := Option.some.inj (ht.symm.trans ht')
    have hfollows := follows_of_reaches h conforms_paymentProtocol (by simp [initialConfig]) i _ ht
    have hallows := hfollows.allows hrest
    rw [phaseOf, history_phase] at hallows
    exact hallows

end Wagr
