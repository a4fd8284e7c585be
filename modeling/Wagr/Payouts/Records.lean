import Wagr.Library.History
import Wagr.Library.Past
import Wagr.Service.Rows

/-!
# What the oracle writes down has happened

The jobs send money only to addresses they have resolved for wallets they have read, and they
record a payment only after its transaction was received and its receipt reported success. All of
this is a rule about the calls of one thread, for both jobs at once.
-/

namespace Wagr

open Interaction Protocol

/-- The member was listed for the league. -/
def Listed (trace : List (Sigma Ret)) (leagueID : String) (m : LeagueMember) : Prop :=
  ∃ stream, (⟨.query (.leagueMembers leagueID), .ok stream⟩ : Sigma Ret) ∈ trace ∧
    m ∈ stream.rows

/-- The address is what the lookup of the wallet gave. -/
def LookedUp (trace : List (Sigma Ret)) (walletAddress : String) (address : Address) : Prop :=
  ∃ mirror, (⟨.mirrorAccount walletAddress, mirror⟩ : Sigma Ret) ∈ trace ∧
    evmAddressOf walletAddress mirror = .ok address

/-- The event was read for the league and its wallet resolved. -/
def EventResolved (trace : List (Sigma Ret)) (leagueID : String) (e : WeeklyEvent × Address) :
    Prop :=
  (∃ week stream, (⟨.query (.unexecutedEvents leagueID week), .ok stream⟩ : Sigma Ret) ∈ trace ∧
    e.1 ∈ stream.rows) ∧ LookedUp trace e.1.walletAddress e.2

/-- The league was read, and its final standings put the roster on the place. -/
def Stands (trace : List (Sigma Ret)) (league : OracleLeague) (rosterID place : ℤ) : Prop :=
  (∃ stream, (⟨.query .seasonEndLeagues, .ok stream⟩ : Sigma Ret) ∈ trace ∧
    league ∈ stream.rows.filterMap OracleLeagueRow.load) ∧
  ∃ standings, (⟨.finalStandings league.platform league.platformLeagueID, .ok standings⟩ :
    Sigma Ret) ∈ trace ∧ (⟨rosterID, place⟩ : PlatformStanding) ∈ standings

/-- The member of a place was listed for the league and its wallet resolved; the roster stands on
the place, whose rule has the amount. -/
structure PlaceResolved (trace : List (Sigma Ret)) (leagueID : String) (r : ResolvedPayout) :
    Prop where
  listed : Listed trace leagueID r.member
  wallet : r.member.walletAddress ≠ ""
  lookedUp : LookedUp trace r.member.walletAddress r.evmAddr
  stands : ∃ league, Stands trace league r.member.rosterID r.place ∧ league.id = leagueID ∧
    (placeToEntry (league.payoutStructure.filter fun e => e.type = "placement") r.place).map
      PayoutEntry.amountCents = some r.amountCents

/-- The transfers are those of events or of places that were resolved. -/
def Transfers (trace : List (Sigma Ret)) (recipients : List Address) (amounts : List Int64) :
    Purpose → Prop
  | .weekly leagueID eventIDs => ∃ events : List (WeeklyEvent × Address),
      (∀ e ∈ events, EventResolved trace leagueID e) ∧ eventIDs = events.map (fun e => e.1.id) ∧
        recipients = events.map Prod.snd ∧ amounts = events.map fun e => toMicroUSDC e.1.amountCents
  | .seasonEnd leagueID => ∃ resolved : List ResolvedPayout,
      (∀ r ∈ resolved, PlaceResolved trace leagueID r) ∧
        recipients = resolved.map ResolvedPayout.evmAddr ∧
          amounts = resolved.map fun r => toMicroUSDC r.amountCents

/-- The transaction was sent under this ID and its receipt reported success. -/
def Succeeded (trace : List (Sigma Ret)) (purpose : Purpose) (recipients : List Address)
    (amounts : List Int64) (txHash : String) : Prop :=
  ∃ key resp, resp.transactionID = txHash ∧
    (⟨.contractExecute purpose key recipients amounts, .ok resp⟩ : Sigma Ret) ∈ trace ∧
      (⟨.getReceipt resp, .ok .success⟩ : Sigma Ret) ∈ trace

/-- What has to have happened before a member's payout is recorded: the league's transaction has
paid the place, and the league was marked executed with it. -/
def PlacePaid (trace : List (Sigma Ret)) (leagueID : String) (rosterID place : ℤ)
    (amountCents : Int64) (txHash : String) : Prop :=
  (∃ resolved : List ResolvedPayout,
    Succeeded trace (.seasonEnd leagueID) (resolved.map ResolvedPayout.evmAddr)
      (resolved.map fun r => toMicroUSDC r.amountCents) txHash ∧
    ∃ r ∈ resolved, PlaceResolved trace leagueID r ∧ r.member.rosterID = rosterID ∧
      r.place = place ∧ r.amountCents = amountCents) ∧
  (⟨.exec (.markPayoutExecuted leagueID txHash), .ok (1 : ℕ)⟩ : Sigma Ret) ∈ trace

/-- Transactions pay what was resolved, and payments are recorded when they have succeeded. -/
def recordsRule (_ : Request) (trace : List (Sigma Ret)) : Call → Prop
  | .contractExecute purpose _ recipients amounts => Transfers trace recipients amounts purpose
  | .exec (.insertWeeklyEvent leagueID _ rosterID _ _ _ _ walletAddress) =>
    ∃ m, Listed trace leagueID m ∧ m.rosterID = rosterID ∧ m.walletAddress = walletAddress ∧
      walletAddress ≠ ""
  | .exec (.markWeeklyEventExecuted id txHash) =>
    ∃ leagueID eventIDs recipients amounts, id ∈ eventIDs ∧
      Succeeded trace (.weekly leagueID eventIDs) recipients amounts txHash
  | .exec (.markPayoutExecuted leagueID txHash) =>
    ∃ recipients amounts, Succeeded trace (.seasonEnd leagueID) recipients amounts txHash
  | .exec (.recordMemberPayout leagueID rosterID place amountCents txHash) =>
    PlacePaid trace leagueID rosterID place amountCents txHash
  | _ => True

/-- The protocol of this rule. -/
abbrev recordsProtocol : Protocol Call Ret (Request × List (Sigma Ret)) := history recordsRule

/-- The call neither pays nor records anything. -/
def Call.unrecorded : Call → Prop
  | .contractExecute _ _ _ _ => False
  | .exec s =>
    match s with
    | .insertWeeklyEvent _ _ _ _ _ _ _ _ => False
    | .markWeeklyEventExecuted _ _ => False
    | .markPayoutExecuted _ _ => False
    | .recordMemberPayout _ _ _ _ _ => False
    | _ => True
  | _ => True

variable {svc : Service} {crypto : Crypto} {req : Request} {trace later : List (Sigma Ret)}
  {α β : Type} {leagueID : String} {recipients : List Address} {amounts : List Int64}
  {purpose : Purpose} {txHash : String}

/-! ## What has happened stays so -/

/-- A listed member stays listed. -/
theorem Listed.mono {m : LeagueMember} (h : Listed trace leagueID m) (hlater : trace <:+ later) :
    Listed later leagueID m := by
  obtain ⟨stream, hread, hm⟩ := h
  exact ⟨stream, hlater.subset hread, hm⟩

/-- A resolved wallet stays resolved. -/
theorem LookedUp.mono {walletAddress : String} {address : Address}
    (h : LookedUp trace walletAddress address) (hlater : trace <:+ later) :
    LookedUp later walletAddress address := by
  obtain ⟨mirror, hread, haddress⟩ := h
  exact ⟨mirror, hlater.subset hread, haddress⟩

/-- A roster that stands on a place stays there. -/
theorem Stands.mono {league : OracleLeague} {rosterID place : ℤ}
    (h : Stands trace league rosterID place) (hlater : trace <:+ later) :
    Stands later league rosterID place := by
  obtain ⟨⟨stream, hread, hleague⟩, standings, hfetched, hstanding⟩ := h
  exact ⟨⟨stream, hlater.subset hread, hleague⟩, standings, hlater.subset hfetched, hstanding⟩

/-- A resolved place stays resolved. -/
theorem PlaceResolved.mono {r : ResolvedPayout} (h : PlaceResolved trace leagueID r)
    (hlater : trace <:+ later) : PlaceResolved later leagueID r where
  listed := h.listed.mono hlater
  wallet := h.wallet
  lookedUp := h.lookedUp.mono hlater
  stands := by
    obtain ⟨league, hstands, hrest⟩ := h.stands
    exact ⟨league, hstands.mono hlater, hrest⟩

/-- The resolved events of an earlier trace stay so. -/
theorem EventResolved.mono {e : WeeklyEvent × Address}
    (h : EventResolved trace leagueID e) (hlater : trace <:+ later) :
    EventResolved later leagueID e := by
  obtain ⟨⟨week, stream, hread, he⟩, hlookup⟩ := h
  exact ⟨⟨week, stream, hlater.subset hread, he⟩, hlookup.mono hlater⟩

/-- Transfers that were resolved stay so. -/
theorem Transfers.mono (h : Transfers trace recipients amounts purpose)
    (hlater : trace <:+ later) : Transfers later recipients amounts purpose := by
  cases purpose with
  | seasonEnd leagueID =>
    obtain ⟨resolved, hresolved, hrest⟩ := h
    exact ⟨resolved, fun r hr => (hresolved r hr).mono hlater, hrest⟩
  | weekly leagueID eventIDs =>
    obtain ⟨events, hresolved, hrest⟩ := h
    exact ⟨events, fun e he => (hresolved e he).mono hlater, hrest⟩

/-- A transaction that has succeeded stays so. -/
theorem Succeeded.mono (h : Succeeded trace purpose recipients amounts txHash)
    (hlater : trace <:+ later) : Succeeded later purpose recipients amounts txHash := by
  obtain ⟨key, resp, hhash, hsent, hreceipt⟩ := h
  exact ⟨key, resp, hhash, hlater.subset hsent, hlater.subset hreceipt⟩

/-- A paid place stays paid. -/
theorem PlacePaid.mono {rosterID place : ℤ} {amountCents : Int64}
    (h : PlacePaid trace leagueID rosterID place amountCents txHash) (hlater : trace <:+ later) :
    PlacePaid later leagueID rosterID place amountCents txHash := by
  obtain ⟨⟨resolved, hpaid, r, hr, hresolved, hrest⟩, hmarked⟩ := h
  exact ⟨⟨resolved, hpaid.mono hlater, r, hr, hresolved.mono hlater, hrest⟩, hlater.subset hmarked⟩

/-! ## Rules for programs -/

/-- Other calls are always allowed. -/
theorem Call.unrecorded.recordsRule {c : Call} (h : c.unrecorded) :
    recordsRule req later c := by
  cases c with
  | contractExecute => exact h.elim
  | exec s => cases s <;> first | exact trivial | exact h.elim
  | _ => trivial

/-- A program that records nothing conforms and returns what it returns by itself. -/
theorem conforms_unrecorded {x : Job α} {Q : α → Prop}
    (hx : (footprint Call.unrecorded).Conforms () x fun _ r => Q r) :
    recordsProtocol.Conforms (req, trace) x fun φ r => trace <:+ φ.2 ∧ Q r := by
  refine (conforms_history_returns ?_).mono fun _ _ h => h.2
  induction x with
  | done a => exact hx
  | call c next ih => exact ⟨fun _ _ => hx.1.recordsRule, fun r => ih r (hx.2 r)⟩

/-- Such a program, without a look at its result. -/
theorem conforms_unrecorded_run {x : Job α} (hx : Calls Call.unrecorded x) :
    recordsProtocol.Conforms (req, trace) x fun φ _ => trace <:+ φ.2 :=
  (conforms_unrecorded hx).mono fun _ _ h => h.1

/-- Such calls before a program that conforms after any of their answers. -/
theorem conforms_unrecorded_bind {x : Go α} {f : α → Go β}
    (hx : Calls Call.unrecorded x.run)
    (hf : ∀ req later r, trace <:+ later →
      recordsProtocol.Conforms (req, later) (f r).run fun φ _ => trace <:+ φ.2) :
    recordsProtocol.Conforms (req, trace) (x >>= f).run fun φ _ => trace <:+ φ.2 := by
  refine conforms_run_bind.mpr ((conforms_unrecorded_run hx).mono ?_)
  rintro ⟨req', later⟩ r hlater
  cases r with
  | error e => exact hlater
  | ok r => exact hf req' later r hlater

/-- A loop whose rounds conform after everything that has happened before. -/
theorem conforms_records_forM {xs : List α} {f : α → Job PUnit}
    (hround : ∀ x ∈ xs, ∀ req later, trace <:+ later →
      recordsProtocol.Conforms (req, later) (f x) fun φ _ => later <:+ φ.2) :
    recordsProtocol.Conforms (req, trace) (xs.forM f) fun φ _ => trace <:+ φ.2 := by
  refine conforms_forM (I := fun φ : Request × List (Sigma Ret) => trace <:+ φ.2) ?_
    List.suffix_rfl
  rintro x hx ⟨req', later⟩ hlater
  exact (hround x hx req' later hlater).mono fun _ _ h => hlater.trans h

/-- A transaction of resolved transfers may be sent, and when its ID is returned it has
succeeded. -/
theorem conforms_execute_records {key : Bytes32} (h : Transfers trace recipients amounts purpose) :
    recordsProtocol.Conforms (req, trace)
      (executeDistributePayout purpose key recipients amounts).run fun φ r => trace <:+ φ.2 ∧
        ∀ txHash, r = .ok txHash → Succeeded φ.2 purpose recipients amounts txHash := by
  have hfails : ∀ {later : List (Sigma Ret)} {e : GoError}, trace <:+ later → trace <:+ later ∧
      ∀ txHash, (Except.error e : Except GoError String) = .ok txHash →
        Succeeded later purpose recipients amounts txHash := by
    intro later e hlater
    exact ⟨hlater, fun _ h => by cases h⟩
  refine conforms_run_ite.mpr ⟨fun _ => hfails List.suffix_rfl, fun _ => ?_⟩
  refine conforms_run_ite.mpr ⟨fun _ => hfails List.suffix_rfl, fun _ => ?_⟩
  refine conforms_run_bind.mpr (conforms_wrapErr.mpr ⟨h, fun resp => ?_⟩)
  have hsent : ∀ r, trace <:+ (⟨.contractExecute purpose key recipients amounts, r⟩ : Sigma Ret) ::
      trace := fun r => List.suffix_cons _ _
  cases resp with
  | error e => exact hfails (hsent _)
  | ok resp =>
    refine conforms_run_bind.mpr (conforms_wrapErr.mpr ⟨trivial, fun receipt => ?_⟩)
    have hgrow := (hsent (.ok resp)).trans (List.suffix_cons ⟨.getReceipt resp, receipt⟩ _)
    match receipt with
    | .error e => exact hfails hgrow
    | .ok (.failure status) => exact hfails hgrow
    | .ok .success =>
      refine ⟨hgrow, fun txHash heq => ?_⟩
      obtain rfl := Except.ok.inj heq
      exact ⟨key, resp, rfl, List.mem_cons_of_mem _ List.mem_cons_self, List.mem_cons_self⟩

/-! ## Weekly payouts -/

/-- The resolved events are among the events, and their wallets were resolved. -/
theorem conforms_resolveEvents_records {events : List WeeklyEvent} :
    recordsProtocol.Conforms (req, trace) (resolveEvents events) fun φ resolved =>
      trace <:+ φ.2 ∧ ∀ e ∈ resolved, e.1 ∈ events ∧ LookedUp φ.2 e.1.walletAddress e.2 := by
  induction events generalizing req trace with
  | nil => exact ⟨List.suffix_rfl, fun _ h => absurd h List.not_mem_nil⟩
  | cons ev events ih =>
    refine conforms_bind.mpr (conforms_bind.mpr ⟨trivial, fun mirror => ?_⟩)
    refine conforms_bind.mpr (ih.mono ?_)
    rintro ⟨req', later⟩ resolved ⟨hlater, hresolved⟩
    have hlookup := hlater.subset List.mem_cons_self
    have hgrow := (List.suffix_cons _ _).trans hlater
    have hrest : ∀ e ∈ resolved, e.1 ∈ ev :: events ∧ LookedUp later e.1.walletAddress e.2 :=
      fun e he => ⟨List.mem_cons_of_mem _ (hresolved e he).1, (hresolved e he).2⟩
    cases haddress : evmAddressOf ev.walletAddress mirror with
    | error e => exact ⟨hgrow, hrest⟩
    | ok addr =>
      refine ⟨hgrow, fun e he => ?_⟩
      rcases List.mem_cons.mp he with rfl | he
      · exact ⟨List.mem_cons_self, mirror, hlookup, haddress⟩
      · exact hrest e he

/-- Events that were read are paid, and marked executed once that has succeeded. -/
theorem conforms_payWeeklyEvents_records {league : OracleLeague} {week : ℤ}
    {stream : RowStream WeeklyEvent}
    (hread : (⟨.query (.unexecutedEvents league.id week), .ok stream⟩ : Sigma Ret) ∈ trace) :
    recordsProtocol.Conforms (req, trace) (payWeeklyEvents svc league stream.rows).run
      fun φ _ => trace <:+ φ.2 := by
  refine conforms_unrecorded_bind (.wrapErr trivial) fun _ first key hfirst => ?_
  refine conforms_run_bind.mpr (conforms_wrapErr.mpr (conforms_ofResult.mpr ?_))
  cases hederaAccountToEVM svc.hederaEscrowContractID with
  | error e => exact hfirst
  | ok contract =>
    refine conforms_run_bind.mpr (conforms_run_lift.mpr (conforms_resolveEvents_records.mono ?_))
    rintro ⟨_, second⟩ resolved ⟨hsecond, hresolved⟩
    have hgrow := hfirst.trans hsecond
    refine conforms_run_ite.mpr ⟨fun _ => hgrow, fun _ => ?_⟩
    refine (conforms_unrecorded_bind (.wrapErr (calls_readContractPayment trivial))
      fun _ third balance hthird => ?_).mono fun _ _ h => hgrow.trans h
    refine conforms_run_ite.mpr ⟨fun _ => hthird, fun _ => ?_⟩
    have htransfers : Transfers third (resolved.map Prod.snd)
        (resolved.map fun r => toMicroUSDC r.1.amountCents)
        (.weekly league.id (resolved.map fun r => r.1.id)) := by
      refine ⟨resolved, fun e he => ⟨⟨week, stream, ?_, (hresolved e he).1⟩, ?_⟩, rfl, rfl, rfl⟩
      · exact (hgrow.trans hthird).subset hread
      · exact (hresolved e he).2.mono hthird
    refine conforms_run_bind.mpr (conforms_wrapErr.mpr
      ((conforms_execute_records htransfers).mono ?_))
    rintro ⟨_, fourth⟩ txHash ⟨hfourth, hsucceeded⟩
    have hgrow' := hthird.trans hfourth
    cases txHash with
    | error e => exact hgrow'
    | ok txHash =>
      refine conforms_run_lift.mpr ((conforms_records_forM fun id hid _ last hlast => ?_).mono
        fun _ _ h => hgrow'.trans h)
      have hpaid : ∃ leagueID eventIDs recipients amounts, id ∈ eventIDs ∧
          Succeeded last (.weekly leagueID eventIDs) recipients amounts txHash :=
        ⟨_, _, _, _, hid, (hsucceeded txHash rfl).mono hlast⟩
      exact conforms_bind.mpr (conforms_exec.mpr
        ⟨hpaid, fun _ => List.suffix_cons _ _, fun _ => List.suffix_cons _ _⟩)

/-- The event of a qualifier is recorded for a listed member and its wallet. -/
theorem conforms_recordWeeklyEvent_records {league : OracleLeague} {week : ℤ}
    {members : List LeagueMember} {entry : PayoutEntry} {m : PlatformMatchup}
    (hlisted : ∀ member ∈ members, Listed trace league.id member) :
    recordsProtocol.Conforms (req, trace) (recordWeeklyEvent league week members entry m).run
      fun φ _ => trace <:+ φ.2 := by
  unfold recordWeeklyEvent
  split
  · exact List.suffix_rfl
  · rename_i member hmember
    refine conforms_run_ite.mpr ⟨fun _ => List.suffix_rfl, fun hwallet => ?_⟩
    have hmem := List.mem_reverse.mp (List.mem_of_find?_eq_some hmember)
    have hroster : member.rosterID = m.rosterID := by
      simpa using List.find?_some hmember
    refine conforms_run_bind.mpr (conforms_wrapErr.mpr (conforms_exec.mpr
      ⟨⟨member, hlisted member hmem, hroster, rfl, hwallet⟩, fun _ => ?_, fun _ => ?_⟩))
    · exact List.suffix_cons _ _
    · exact List.suffix_cons _ _

/-- The weekly payout of a league records its qualifiers, and pays and marks its events. -/
theorem conforms_processWeekly_records {league : OracleLeague} {entries : List PayoutEntry}
    {week : ℤ} : recordsProtocol.Conforms (req, trace)
      (processWeeklyPayoutsForLeague svc league entries week).run fun φ _ => trace <:+ φ.2 := by
  refine conforms_unrecorded_bind (.wrapErr (.mk (.perform trivial)))
    fun _ first matchups hfirst => ?_
  refine (conforms_run_bind.mpr (conforms_wrapErr.mpr (conforms_run_bind.mpr
    (conforms_wrapErr.mpr (conforms_query.mpr
      ⟨trivial, fun stream => ?_, fun _ => List.suffix_cons _ _⟩))))).mono
        fun _ _ h => hfirst.trans h
  change recordsProtocol.Conforms _ (ExceptT.run _) _
  have hlisted : ∀ later, ⟨.query (.leagueMembers league.id), .ok stream⟩ :: first <:+ later →
      ∀ member ∈ stream.rows, Listed later league.id member :=
    fun later hlater member hm => ⟨stream, hlater.subset List.mem_cons_self, hm⟩
  refine conforms_run_bind.mpr ((conforms_run_forM (I := fun φ : Request × List (Sigma Ret) =>
    ⟨.query (.leagueMembers league.id), .ok stream⟩ :: first <:+ φ.2) ?_ List.suffix_rfl).mono ?_)
  · rintro entry - φ hφ
    refine conforms_run_forM (I := fun φ : Request × List (Sigma Ret) =>
      ⟨.query (.leagueMembers league.id), .ok stream⟩ :: first <:+ φ.2) ?_ hφ
    rintro m - ⟨_, later⟩ hlater
    exact (conforms_recordWeeklyEvent_records (hlisted later hlater)).mono
      fun _ _ h => hlater.trans h
  · rintro ⟨_, third⟩ recorded hthird
    have hgrow := (List.suffix_cons _ _).trans hthird
    cases recorded with
    | error e => exact hgrow
    | ok recorded =>
      refine conforms_run_bind.mpr (conforms_wrapErr.mpr (conforms_query.mpr
        ⟨trivial, fun events => ?_, fun _ => hgrow.trans (List.suffix_cons _ _)⟩))
      refine conforms_run_ite.mpr
        ⟨fun _ => hgrow.trans (List.suffix_cons _ _), fun _ => ?_⟩
      exact (conforms_payWeeklyEvents_records List.mem_cons_self).mono
        fun _ _ h => hgrow.trans ((List.suffix_cons _ _).trans h)

/-! ## Season-end payouts -/

/-- The resolved places are those of listed members whose wallets were resolved. -/
theorem conforms_resolveStandings_records {league : OracleLeague}
    {members : List LeagueMember} {standings : List PlatformStanding}
    (hlisted : ∀ member ∈ members, Listed trace league.id member)
    (hstands : ∀ standing ∈ standings, Stands trace league standing.rosterID standing.place) :
    recordsProtocol.Conforms (req, trace)
      (resolveStandings (seasonEndDeps svc purpose)
        (league.payoutStructure.filter fun e => e.type = "placement") members standings)
      fun φ resolved => trace <:+ φ.2 ∧ ∀ r ∈ resolved, PlaceResolved φ.2 league.id r := by
  induction standings generalizing req trace with
  | nil => exact ⟨List.suffix_rfl, fun _ h => absurd h List.not_mem_nil⟩
  | cons standing standings ih =>
    have hhead : recordsProtocol.Conforms (req, trace)
        (resolveStanding (seasonEndDeps svc purpose)
          (league.payoutStructure.filter fun e => e.type = "placement") members standing)
        fun φ head => trace <:+ φ.2 ∧ ∀ r ∈ head, PlaceResolved φ.2 league.id r := by
      unfold resolveStanding
      split
      · exact ⟨List.suffix_rfl, by simp⟩
      · rename_i entry hentry
        split
        · exact ⟨List.suffix_rfl, by simp⟩
        · rename_i member hmember
          have hmem := List.mem_reverse.mp (List.mem_of_find?_eq_some hmember)
          have hroster : member.rosterID = standing.rosterID := by
            simpa using List.find?_some hmember
          refine conforms_ite.mpr ⟨fun _ => ⟨List.suffix_rfl, by simp⟩, fun hwallet => ?_⟩
          refine conforms_bind.mpr (conforms_bind.mpr ⟨trivial, fun mirror => ?_⟩)
          refine conforms_pure.mpr ?_
          have hgrow := List.suffix_cons (⟨.mirrorAccount member.walletAddress, mirror⟩ :
            Sigma Ret) trace
          cases haddress : evmAddressOf member.walletAddress mirror with
          | error e => exact ⟨hgrow, by simp⟩
          | ok addr =>
            refine ⟨hgrow, fun r hr => ?_⟩
            obtain rfl := Option.some.inj hr
            refine ⟨(hlisted member hmem).mono hgrow, hwallet,
              ⟨mirror, List.mem_cons_self, haddress⟩,
              league, ?_, rfl, by rw [hentry]; rfl⟩
            rw [hroster]
            exact (hstands standing List.mem_cons_self).mono hgrow
    refine conforms_bind.mpr (hhead.mono ?_)
    rintro ⟨req', first⟩ head ⟨hfirst, hhead⟩
    refine conforms_bind.mpr ((ih (fun m hm => (hlisted m hm).mono hfirst)
      fun x hx => (hstands x (List.mem_cons_of_mem _ hx)).mono hfirst).mono ?_)
    rintro ⟨_, last⟩ tail ⟨hlast, htail⟩
    refine ⟨hfirst.trans hlast, fun r hr => ?_⟩
    rcases List.mem_append.mp hr with hr | hr
    · exact (hhead r (by simpa using hr)).mono hlast
    · exact htail r hr

/-- After the transaction the league is marked, and the payouts of its members are recorded if it
has succeeded. -/
theorem conforms_finishPayout_records {resolved : List ResolvedPayout}
    {result : Except GoError String}
    (hresolved : ∀ r ∈ resolved, PlaceResolved trace leagueID r)
    (hsucceeded : ∀ txHash, result = .ok txHash → Succeeded trace (.seasonEnd leagueID)
      (resolved.map ResolvedPayout.evmAddr) (resolved.map fun r => toMicroUSDC r.amountCents)
      txHash) :
    recordsProtocol.Conforms (req, trace)
      (finishPayout (seasonEndDeps svc purpose) leagueID resolved result).run
      fun φ _ => trace <:+ φ.2 := by
  cases result with
  | error err =>
    refine conforms_unrecorded_run (.run_bind (.lift ?_) fun _ => trivial)
    exact .run_bind (.exec trivial) fun _ => trivial
  | ok txHash =>
    have hpaid := hsucceeded txHash rfl
    refine conforms_run_bind.mpr (conforms_wrapErr.mpr (conforms_run_bind.mpr (conforms_exec.mpr
      ⟨⟨_, _, hpaid⟩, fun rowsAffected => ?_, fun _ => List.suffix_cons _ _⟩)))
    have hgrow := List.suffix_cons (⟨.exec (.markPayoutExecuted leagueID txHash),
      .ok rowsAffected⟩ : Sigma Ret) trace
    refine conforms_run_ite.mpr ⟨fun hone => ?_, fun _ => hgrow⟩
    have hmarked : rowsAffected = (1 : ℕ) := of_decide_eq_true hone
    subst hmarked
    refine conforms_run_lift.mpr ((conforms_records_forM fun r hr _ later hlater => ?_).mono
      fun _ _ h => hgrow.trans h)
    refine conforms_bind.mpr (conforms_run_bind.mpr (conforms_exec.mpr
      ⟨⟨⟨resolved, hpaid.mono (hgrow.trans hlater), r, hr, ?_, rfl, rfl, rfl⟩,
        hlater.subset List.mem_cons_self⟩, fun _ => ?_, fun _ => ?_⟩))
    · exact (hresolved r hr).mono (hgrow.trans hlater)
    · exact List.suffix_cons _ _
    · exact List.suffix_cons _ _

/-- LookedUp places are paid, and recorded once that has succeeded. -/
theorem conforms_payResolved_records {resolved : List ResolvedPayout}
    (hresolved : ∀ r ∈ resolved, PlaceResolved trace leagueID r) :
    recordsProtocol.Conforms (req, trace)
      (payResolved (seasonEndDeps svc (.seasonEnd leagueID)) leagueID resolved).run
      fun φ _ => trace <:+ φ.2 := by
  refine conforms_unrecorded_bind (.wrapErr trivial) fun _ first key hfirst => ?_
  refine Conforms.mono (conforms_unrecorded_bind (.wrapErr (.run_bind (.wrapErr trivial)
    fun contract => calls_readContractPayment trivial)) fun _ second balance hsecond => ?_)
      fun _ _ h => hfirst.trans h
  refine conforms_run_ite.mpr ⟨fun _ => hsecond, fun _ => ?_⟩
  refine Conforms.mono (conforms_unrecorded_bind (.wrapErr (.run_bind (.exec trivial)
    fun _ => trivial)) fun _ third claimed hthird => ?_) fun _ _ h => hsecond.trans h
  have hgrow := (hfirst.trans hsecond).trans hthird
  refine conforms_run_ite.mpr ⟨fun _ => ?_, fun _ => hthird⟩
  have htransfers : Transfers third (resolved.map ResolvedPayout.evmAddr)
      (resolved.map fun r => toMicroUSDC r.amountCents) (.seasonEnd leagueID) :=
    ⟨resolved, fun r hr => (hresolved r hr).mono hgrow, rfl, rfl⟩
  refine conforms_run_bind.mpr (conforms_run_lift.mpr
    ((conforms_execute_records htransfers).mono ?_))
  rintro ⟨_, fourth⟩ result ⟨hfourth, hsucceeded⟩
  refine (conforms_finishPayout_records (fun r hr => ?_) hsucceeded).mono
    fun _ _ h => (hthird.trans hfourth).trans h
  exact (hresolved r hr).mono (hgrow.trans hfourth)

/-- The settlement of a league pays and records the places of listed members. -/
theorem conforms_processSeasonEnd_records {league : OracleLeague}
    (hread : ∃ stream, (⟨.query .seasonEndLeagues, .ok stream⟩ : Sigma Ret) ∈ trace ∧
      league ∈ stream.rows.filterMap OracleLeagueRow.load) :
    recordsProtocol.Conforms (req, trace) (processSeasonEndForLeague svc league).run
      fun φ _ => trace <:+ φ.2 := by
  have hsettle : ∀ {req : Request} {trace : List (Sigma Ret)} {purpose : Purpose},
      recordsProtocol.Conforms (req, trace)
        ((seasonEndDeps svc purpose).markSettledWithoutPayout league.id).run
        fun φ _ => trace <:+ φ.2 :=
    conforms_unrecorded_run (.run_bind (.exec trivial) fun _ => trivial)
  refine conforms_unrecorded_bind (.wrapErr (.run_bind (.mk (.perform trivial))
    fun _ => trivial)) fun _ first status hfirst => ?_
  refine conforms_run_ite.mpr ⟨fun _ => hfirst, fun _ => conforms_run_ite.mpr
    ⟨fun _ => hsettle.mono fun _ _ h => hfirst.trans h, fun _ => ?_⟩⟩
  refine conforms_run_bind.mpr (conforms_wrapErr.mpr ⟨trivial, fun standings => ?_⟩)
  have hsecond := hfirst.trans (List.suffix_cons
    (⟨.finalStandings league.platform league.platformLeagueID, standings⟩ : Sigma Ret) first)
  cases standings with
  | error e => exact hsecond
  | ok standings =>
    refine conforms_run_bind.mpr (conforms_wrapErr.mpr (conforms_run_bind.mpr
      (conforms_wrapErr.mpr (conforms_query.mpr
        ⟨trivial, fun stream => ?_, fun _ => hsecond.trans (List.suffix_cons _ _)⟩))))
    change recordsProtocol.Conforms _ (ExceptT.run _) _
    have hgrow := hsecond.trans (List.suffix_cons
      (⟨.query (.leagueMembers league.id), .ok stream⟩ : Sigma Ret) _)
    obtain ⟨leagues, hleagues, hleague⟩ := hread
    refine conforms_run_bind.mpr (conforms_run_lift.mpr ((conforms_resolveStandings_records
      (fun member hm => ⟨stream, List.mem_cons_self, hm⟩) fun standing hstanding =>
        ⟨⟨leagues, hgrow.subset hleagues, hleague⟩, standings, ?_, hstanding⟩).mono ?_))
    · exact List.mem_cons_of_mem _ List.mem_cons_self
    · rintro ⟨_, third⟩ resolved ⟨hthird, hresolved⟩
      refine conforms_run_ite.mpr ⟨fun _ => ?_, fun _ => ?_⟩
      · exact hsettle.mono fun _ _ h => (hgrow.trans hthird).trans h
      · exact (conforms_payResolved_records hresolved).mono
          fun _ _ h => (hgrow.trans hthird).trans h

/-! ## All requests -/

/-- Requests other than the payout jobs neither pay nor record anything. -/
theorem Request.mayCall.unrecorded {c : Call} (h : req.mayCall c)
    (hweekly : req ≠ .runWeeklyPayoutJob) (hseason : req ≠ .runSeasonEndPayoutJob) :
    c.unrecorded := by
  cases c with
  | contractExecute purpose key recipients amounts =>
    cases purpose with
    | seasonEnd leagueID => exact absurd h hseason
    | weekly leagueID eventIDs => exact absurd h hweekly
  | exec s =>
    cases s with
    | insertWeeklyEvent | markWeeklyEventExecuted | markPayoutExecuted | recordMemberPayout =>
      cases req with
      | runWeeklyPayoutJob => exact absurd rfl hweekly
      | runSeasonEndPayoutJob => exact absurd rfl hseason
      | _ => exact h.elim
    | _ => trivial
  | _ => trivial

/-- Every request follows the rule. -/
theorem conforms_records (req : Request) :
    recordsProtocol.Conforms (req, []) ((backend svc crypto).body req) fun _ _ => True := by
  by_cases hweekly : req = .runWeeklyPayoutJob
  · subst hweekly
    refine conforms_toDone (conforms_run_ite.mpr ⟨fun _ => ?_, fun _ => trivial⟩)
    refine conforms_run_bind.mpr (conforms_wrapErr.mpr (conforms_query.mpr
      ⟨trivial, fun stream => conforms_run_lift.mpr ?_, fun _ => trivial⟩))
    refine (conforms_records_forM fun league _ _ later _ => ?_).mono fun _ _ _ => trivial
    refine conforms_ite.mpr ⟨fun _ => List.suffix_rfl, fun _ => conforms_bind.mpr ?_⟩
    refine ⟨trivial, fun week => ?_⟩
    have hgrow := List.suffix_cons (⟨.currentWeek league.platform, week⟩ : Sigma Ret) later
    cases week with
    | error e => exact hgrow
    | ok week =>
      refine conforms_ite.mpr ⟨fun _ => hgrow, fun _ => conforms_bind.mpr ?_⟩
      exact conforms_processWeekly_records.mono fun _ _ h => hgrow.trans h
  by_cases hseason : req = .runSeasonEndPayoutJob
  · subst hseason
    refine conforms_toDone (conforms_run_ite.mpr ⟨fun _ => ?_, fun _ => trivial⟩)
    refine conforms_run_bind.mpr (conforms_wrapErr.mpr (conforms_query.mpr
      ⟨trivial, fun stream => conforms_run_lift.mpr ?_, fun _ => trivial⟩))
    refine (conforms_records_forM fun league hleague _ later hlater => ?_).mono
      fun _ _ _ => trivial
    exact conforms_bind.mpr (conforms_processSeasonEnd_records
      ⟨stream, hlater.subset List.mem_cons_self, hleague⟩)
  · have hcalls : Calls Call.unrecorded ((backend svc crypto).body req) :=
      (calls_request req).weaken fun c hc => hc.unrecorded hweekly hseason
    exact (conforms_unrecorded_run hcalls).mono fun _ _ _ => trivial

end Wagr
