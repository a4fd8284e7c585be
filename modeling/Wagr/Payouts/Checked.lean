import Wagr.Library.History
import Wagr.Service.Steps

/-!
# Payouts are made of configured amounts and checked first

Weekly events are recorded for entries of the league and teams that qualify in the matchups of
the week. The amounts of every payout transaction are the cents of events that were read, or of
the placement entries of the league for the final standings, in micro-USDC, and their sum was
compared with the balance the mirror node reported for the league.
-/

namespace Wagr

open Interaction Protocol

/-- In the matchups of a week that were fetched for the league, the roster qualifies for a weekly
entry of the league. -/
def Qualified (trace : List (Sigma Ret)) (leagueID : String) (entry : PayoutEntry)
    (week rosterID : ℤ) : Prop :=
  ∃ stream, (⟨.query .weeklyPayoutLeagues, .ok stream⟩ : Sigma Ret) ∈ trace ∧
    ∃ league ∈ stream.rows.filterMap OracleLeagueRow.load, league.id = leagueID ∧
      entry ∈ league.payoutStructure ∧ entry.type = "weekly" ∧ ∃ matchups,
        (⟨.platformMatchups league.platform league.platformLeagueID week, .ok matchups⟩ :
          Sigma Ret) ∈ trace ∧
        ∃ m ∈ weeklyQualifiers (matchups.filter fun m => 0 < m.matchupID) entry,
          m.rosterID = rosterID

/-- The final standings were fetched for the league, and each of the places is among them and has
the amount of its placement entry. -/
def Placed (trace : List (Sigma Ret)) (leagueID : String) (payouts : List (ℤ × Int64)) : Prop :=
  ∃ stream, (⟨.query .seasonEndLeagues, .ok stream⟩ : Sigma Ret) ∈ trace ∧
    ∃ league ∈ stream.rows.filterMap OracleLeagueRow.load, league.id = leagueID ∧ ∃ standings,
      (⟨.finalStandings league.platform league.platformLeagueID, .ok standings⟩ : Sigma Ret) ∈
        trace ∧
      (payouts.map Prod.fst).Sublist (standings.map PlatformStanding.place) ∧
      ∀ p ∈ payouts, (placeToEntry (league.payoutStructure.filter fun e => e.type = "placement")
        p.1).map PayoutEntry.amountCents = some p.2

/-- The cents are amounts the purpose provides for: of weekly events that were read, or of the
placements of the league. -/
def Configured (trace : List (Sigma Ret)) (cents : List Int64) : Purpose → Prop
  | .weekly leagueID eventIDs => ∃ week stream, ∃ events : List WeeklyEvent,
      (⟨.query (.unexecutedEvents leagueID week), .ok stream⟩ : Sigma Ret) ∈ trace ∧
        events.Sublist stream.rows ∧ eventIDs = events.map WeeklyEvent.id ∧
          cents = events.map WeeklyEvent.amountCents
  | .seasonEnd leagueID => ∃ payouts, Placed trace leagueID payouts ∧ cents = payouts.map Prod.snd

/-- The transaction pays the cents, and the check against the reported balance has passed. -/
structure Checked (trace : List (Sigma Ret)) (purpose : Purpose) (key : Bytes32)
    (recipients : List Address) (amounts cents : List Int64) : Prop where
  configured : Configured trace cents purpose
  league : uuidToBytes32 purpose.leagueID = .ok key
  microUSDC : amounts = cents.map toMicroUSDC
  recipients : recipients.length = cents.length
  covered : ∃ contract result balance,
    (⟨.contractCall contract (.leagueTotals key), .ok result⟩ : Sigma Ret) ∈ trace ∧
      decodePayment result = .ok balance ∧ ¬ sumPayout amounts > balance

/-- Events are only recorded for qualified rosters, and only checked transactions are submitted. -/
def checkedRule (_ : Request) (trace : List (Sigma Ret)) : Call → Prop
  | .contractExecute purpose key recipients amounts =>
    ∃ cents, Checked trace purpose key recipients amounts cents
  | .exec (.insertWeeklyEvent leagueID week rosterID _ payoutType _ amountCents _) =>
    ∃ entry, Qualified trace leagueID entry week rosterID ∧ entry.bonusType = payoutType ∧
      entry.amountCents = amountCents
  | _ => True

/-- The protocol of this rule. -/
abbrev checkedProtocol : Protocol Call Ret (Request × List (Sigma Ret)) := history checkedRule

/-- The call neither records an event nor submits a transaction. -/
def Call.paysNothing : Call → Prop
  | .contractExecute _ _ _ _ => False
  | .exec (.insertWeeklyEvent _ _ _ _ _ _ _ _) => False
  | _ => True

/-- A roster that has qualified stays qualified. -/
theorem Qualified.mono {trace later : List (Sigma Ret)} {leagueID : String} {entry : PayoutEntry}
    {week rosterID : ℤ} (h : Qualified trace leagueID entry week rosterID)
    (hlater : trace <:+ later) : Qualified later leagueID entry week rosterID := by
  obtain ⟨stream, hread, league, hleague, hid, hentry, htype, matchups, hmatchups, hm⟩ := h
  exact ⟨stream, hlater.subset hread, league, hleague, hid, hentry, htype, matchups,
    hlater.subset hmatchups, hm⟩

/-- Places that were fetched stay so. -/
theorem Placed.mono {trace later : List (Sigma Ret)} {leagueID : String}
    {payouts : List (ℤ × Int64)} (h : Placed trace leagueID payouts) (hlater : trace <:+ later) :
    Placed later leagueID payouts := by
  obtain ⟨stream, hread, league, hleague, hid, standings, hstandings, hplaces⟩ := h
  exact ⟨stream, hlater.subset hread, league, hleague, hid, standings, hlater.subset hstandings,
    hplaces⟩

/-- What a purpose provides for stays so. -/
theorem Configured.mono {trace later : List (Sigma Ret)} {cents : List Int64} {purpose : Purpose}
    (h : Configured trace cents purpose) (hlater : trace <:+ later) :
    Configured later cents purpose := by
  cases purpose with
  | weekly leagueID eventIDs =>
    obtain ⟨week, stream, events, hread, hevents⟩ := h
    exact ⟨week, stream, events, hlater.subset hread, hevents⟩
  | seasonEnd leagueID =>
    obtain ⟨payouts, hplaced, hcents⟩ := h
    exact ⟨payouts, hplaced.mono hlater, hcents⟩

variable {svc : Service} {crypto : Crypto} {req : Request} {trace later : List (Sigma Ret)}
  {a b : BackendConfig} {ok : BackendConfig → BackendLabel → Prop} {α β : Type}

/-- Other calls are always allowed. -/
theorem Call.paysNothing.checkedRule {c : Call} (h : c.paysNothing) :
    checkedRule req later c := by
  cases c with
  | contractExecute => exact h.elim
  | exec s =>
    cases s with
    | insertWeeklyEvent => exact h.elim
    | _ => trivial
  | _ => trivial

/-- A program that pays nothing conforms. -/
theorem conforms_paysNothing {x : Job α} {Q : α → Prop}
    (hx : (footprint Call.paysNothing).Conforms () x fun _ r => Q r) :
    checkedProtocol.Conforms (req, trace) x fun φ r => φ.1 = req ∧ trace <:+ φ.2 ∧ Q r := by
  refine conforms_history_returns ?_
  induction x with
  | done a => exact hx
  | call c next ih => exact ⟨fun _ _ => hx.1.checkedRule, fun r => ih r (hx.2 r)⟩

/-- Such calls before a program that conforms after any of their answers. -/
theorem conforms_paysNothing_bind {x : Go α} {f : α → Go β}
    (hx : Calls Call.paysNothing x.run)
    (hf : ∀ later r, trace <:+ later → checkedProtocol.Conforms (req, later) (f r).run fun φ _ =>
      φ.1 = req ∧ trace <:+ φ.2) :
    checkedProtocol.Conforms (req, trace) (x >>= f).run fun φ _ => φ.1 = req ∧ trace <:+ φ.2 := by
  refine conforms_run_bind.mpr ((conforms_paysNothing hx).mono ?_)
  rintro ⟨req', later⟩ r ⟨rfl, hlater, -⟩
  cases r with
  | error e => exact ⟨rfl, hlater⟩
  | ok r => exact hf later r hlater

/-- A program that pays nothing, without a look at its result. -/
theorem conforms_paysNothing_run {x : Job α} (hx : Calls Call.paysNothing x) :
    checkedProtocol.Conforms (req, trace) x fun φ _ => φ.1 = req ∧ trace <:+ φ.2 :=
  (conforms_paysNothing hx).mono fun _ _ h => ⟨h.1, h.2.1⟩

/-- A checked transaction may be submitted. -/
theorem conforms_execute_checked {purpose : Purpose} {key : Bytes32} {recipients : List Address}
    {amounts cents : List Int64} (h : Checked trace purpose key recipients amounts cents) :
    checkedProtocol.Conforms (req, trace)
      (executeDistributePayout purpose key recipients amounts).run
      fun φ _ => φ.1 = req ∧ trace <:+ φ.2 := by
  refine conforms_run_ite.mpr ⟨fun _ => ⟨rfl, List.suffix_rfl⟩, fun _ => ?_⟩
  refine conforms_run_ite.mpr ⟨fun _ => ⟨rfl, List.suffix_rfl⟩, fun _ => ?_⟩
  refine conforms_run_bind.mpr (conforms_wrapErr.mpr ⟨⟨cents, h⟩, fun resp => ?_⟩)
  have hgrow : ∀ r, trace <:+ (⟨.contractExecute purpose key recipients amounts, r⟩ : Sigma Ret) ::
      trace := fun r => List.suffix_cons _ _
  cases resp with
  | error e => exact ⟨rfl, hgrow _⟩
  | ok resp =>
    refine (conforms_paysNothing_bind (.wrapErr (.mk (.perform trivial)))
      fun later receipt hlater => ?_).mono fun _ _ h => ⟨h.1, (hgrow _).trans h.2⟩
    cases receipt <;> exact ⟨rfl, hlater⟩

/-- The balance is one the mirror node has reported. -/
theorem conforms_readBalance {contract : Address} {key : Bytes32} :
    checkedProtocol.Conforms (req, trace) (readContractPayment contract (.leagueTotals key)).run
      fun φ r => φ.1 = req ∧ trace <:+ φ.2 ∧ ∀ balance, r = .ok balance → ∃ contract result,
        (⟨.contractCall contract (.leagueTotals key), .ok result⟩ : Sigma Ret) ∈ φ.2 ∧
          decodePayment result = .ok balance := by
  refine conforms_run_bind.mpr ⟨trivial, fun result => ?_⟩
  cases result with
  | error e => exact ⟨rfl, List.suffix_cons _ _, by intro balance h; cases h⟩
  | ok result =>
    exact ⟨rfl, List.suffix_cons _ _, fun balance h => ⟨contract, result, List.mem_cons_self, h⟩⟩

/-! ## Weekly payouts -/

/-- The resolved events are among the events, in their order. -/
theorem resolveEvents_sublist {events : List WeeklyEvent} :
    (footprint Call.paysNothing).Conforms () (resolveEvents events) fun _ resolved =>
      (resolved.map Prod.fst).Sublist events := by
  induction events with
  | nil => exact List.Sublist.refl _
  | cons ev events ih =>
    refine conforms_bind.mpr (conforms_bind.mpr ⟨trivial, fun mirror => ?_⟩)
    refine conforms_bind.mpr (ih.mono fun _ resolved hresolved => ?_)
    cases evmAddressOf ev.walletAddress mirror with
    | error e => exact hresolved.cons ev
    | ok addr => exact hresolved.cons_cons ev

/-- The events that were read are checked and paid. -/
theorem conforms_payWeeklyEvents_checked {league : OracleLeague} {week : ℤ}
    {stream : RowStream WeeklyEvent}
    (hread : (⟨.query (.unexecutedEvents league.id week), .ok stream⟩ : Sigma Ret) ∈ trace) :
    checkedProtocol.Conforms (req, trace) (payWeeklyEvents svc league stream.rows).run
      fun φ _ => φ.1 = req ∧ trace <:+ φ.2 := by
  refine conforms_run_bind.mpr (conforms_wrapErr.mpr (conforms_ofResult.mpr ?_))
  cases hkey : uuidToBytes32 league.id with
  | error e => exact ⟨rfl, List.suffix_rfl⟩
  | ok key =>
    refine conforms_paysNothing_bind (.wrapErr trivial) fun later contract hlater => ?_
    refine conforms_run_bind.mpr (conforms_run_lift.mpr
      ((conforms_paysNothing resolveEvents_sublist).mono ?_))
    rintro ⟨req', resolvedAt⟩ resolved ⟨rfl, hresolvedAt, hsublist⟩
    have hgrow := hlater.trans hresolvedAt
    refine conforms_run_ite.mpr ⟨fun _ => ⟨rfl, hgrow⟩, fun _ => ?_⟩
    refine conforms_run_bind.mpr (conforms_wrapErr.mpr (conforms_readBalance.mono ?_))
    rintro ⟨reqRead, latest⟩ balance ⟨rfl, hlatest, hbalance⟩
    have hgrow := hgrow.trans hlatest
    cases balance with
    | error e => exact ⟨rfl, hgrow⟩
    | ok balance =>
      refine conforms_run_ite.mpr ⟨fun _ => ⟨rfl, hgrow⟩, fun hcheck => ?_⟩
      obtain ⟨contract, result, hresult, hdecode⟩ := hbalance balance rfl
      have hchecked : Checked latest (.weekly league.id (resolved.map fun r => r.1.id)) key
          (resolved.map Prod.snd) (resolved.map fun r => toMicroUSDC r.1.amountCents)
          (resolved.map fun r => r.1.amountCents) := by
        refine ⟨⟨week, stream, resolved.map Prod.fst, hgrow.subset hread, hsublist, ?_, ?_⟩, hkey,
          by simp [Function.comp_def], by simp, contract, result, balance, hresult, hdecode, hcheck⟩
        · simp [Function.comp_def]
        · simp [Function.comp_def]
      refine conforms_run_bind.mpr
        (conforms_wrapErr.mpr ((conforms_execute_checked hchecked).mono ?_))
      rintro ⟨reqDone, done⟩ txHash ⟨rfl, hdone⟩
      have hgrow := hgrow.trans hdone
      cases txHash with
      | error e => exact ⟨rfl, hgrow⟩
      | ok txHash =>
        refine (conforms_paysNothing_run ?_).mono fun _ _ h => ⟨h.1, hgrow.trans h.2⟩
        exact .lift (.forM fun id => .bind (.exec trivial) fun _ => trivial)

/-- The event of a qualifier may be recorded. -/
theorem conforms_recordWeeklyEvent_checked {league : OracleLeague} {week : ℤ}
    {members : List LeagueMember} {entry : PayoutEntry} {m : PlatformMatchup}
    (hqualified : Qualified trace league.id entry week m.rosterID) :
    checkedProtocol.Conforms (req, trace) (recordWeeklyEvent league week members entry m).run
      fun φ _ => φ.1 = req ∧ trace <:+ φ.2 := by
  unfold recordWeeklyEvent
  split
  · exact ⟨rfl, List.suffix_rfl⟩
  · refine conforms_run_ite.mpr ⟨fun _ => ⟨rfl, List.suffix_rfl⟩, fun _ => ?_⟩
    refine conforms_run_bind.mpr (conforms_wrapErr.mpr (conforms_exec.mpr
      ⟨⟨entry, hqualified, rfl, rfl⟩, fun _ => ?_, fun _ => ?_⟩))
    · exact ⟨rfl, List.suffix_cons _ _⟩
    · exact ⟨rfl, List.suffix_cons _ _⟩

/-- The weekly payout of a selected league records the qualifiers of its entries, reads its events
and pays them. -/
theorem conforms_weeklyRound_checked {league : OracleLeague} {stream : RowStream OracleLeagueRow}
    (hread : (⟨.query .weeklyPayoutLeagues, .ok stream⟩ : Sigma Ret) ∈ trace)
    (hleague : league ∈ stream.rows.filterMap OracleLeagueRow.load) :
    checkedProtocol.Conforms (req, trace) (weeklyRound svc league)
      fun φ _ => φ.1 = req ∧ trace <:+ φ.2 := by
  refine conforms_ite.mpr ⟨fun _ => ⟨rfl, List.suffix_rfl⟩, fun _ => ?_⟩
  have hperform : Calls Call.paysNothing (perform (.currentWeek league.platform)) :=
    .perform trivial
  refine conforms_bind.mpr ((conforms_paysNothing_run hperform).mono ?_)
  rintro ⟨req, first⟩ week ⟨rfl, hfirst⟩
  cases week with
  | error e => exact ⟨rfl, hfirst⟩
  | ok week =>
    refine conforms_ite.mpr ⟨fun _ => ⟨rfl, hfirst⟩, fun _ => conforms_bind.mpr ?_⟩
    refine conforms_run_bind.mpr (conforms_wrapErr.mpr ⟨trivial, fun matchups => ?_⟩)
    have hsecond := hfirst.trans (List.suffix_cons ⟨.platformMatchups league.platform
      league.platformLeagueID (week - 1), matchups⟩ first)
    cases matchups with
    | error e => exact ⟨rfl, hsecond⟩
    | ok matchups =>
      refine (conforms_paysNothing_bind (.wrapErr (calls_getLeagueMembers trivial))
        fun third members hthird => ?_).mono fun _ _ h => ⟨h.1, hsecond.trans h.2⟩
      refine conforms_run_bind.mpr
        ((conforms_run_forM (I := fun φ : Request × List (Sigma Ret) => φ.1 = req ∧
        ⟨.platformMatchups league.platform league.platformLeagueID (week - 1), .ok matchups⟩ ::
          first <:+ φ.2) ?_ ⟨rfl, hthird⟩).mono ?_)
      · rintro entry hentry φ hφ
        refine conforms_run_forM (I := fun φ : Request × List (Sigma Ret) => φ.1 = req ∧
          ⟨.platformMatchups league.platform league.platformLeagueID (week - 1), .ok matchups⟩ ::
            first <:+ φ.2) ?_ hφ
        rintro m hm ⟨req, later⟩ ⟨rfl, hlater⟩
        obtain ⟨hmem, htype⟩ := List.mem_filter.mp hentry
        have hqualified : Qualified later league.id entry (week - 1) m.rosterID :=
          ⟨stream, (hsecond.trans hlater).subset hread, league, hleague, rfl, hmem,
            of_decide_eq_true htype, matchups, hlater.subset List.mem_cons_self, m, hm, rfl⟩
        exact (conforms_recordWeeklyEvent_checked hqualified).mono
          fun _ _ h => ⟨h.1, hlater.trans h.2⟩
      · rintro ⟨req, fourth⟩ recorded ⟨rfl, hfourth⟩
        cases recorded with
        | error e => exact ⟨rfl, hfourth⟩
        | ok recorded =>
          refine conforms_run_bind.mpr (conforms_wrapErr.mpr (conforms_query.mpr
            ⟨trivial, fun stream => ?_, fun _ => ⟨rfl, hfourth.trans (List.suffix_cons _ _)⟩⟩))
          refine conforms_run_ite.mpr
            ⟨fun _ => ⟨rfl, hfourth.trans (List.suffix_cons _ _)⟩, fun _ => ?_⟩
          exact (conforms_payWeeklyEvents_checked List.mem_cons_self).mono
            fun _ _ h => ⟨h.1, hfourth.trans ((List.suffix_cons _ _).trans h.2)⟩

/-! ## Season-end payouts -/

/-- The resolved standings are among the standings, in their order, and are paid by the placement
entries of their places. -/
theorem resolveStandings_placed {entries : List PayoutEntry} {members : List LeagueMember}
    {purpose : Purpose} {standings : List PlatformStanding} :
    (footprint Call.paysNothing).Conforms ()
      (resolveStandings (seasonEndDeps svc purpose) entries members standings) fun _ resolved =>
        (resolved.map ResolvedPayout.place).Sublist (standings.map PlatformStanding.place) ∧
          ∀ r ∈ resolved, (placeToEntry entries r.place).map PayoutEntry.amountCents =
            some r.amountCents := by
  induction standings with
  | nil => exact ⟨List.Sublist.refl _, fun _ hr => absurd hr List.not_mem_nil⟩
  | cons standing standings ih =>
    have hhead : (footprint Call.paysNothing).Conforms ()
        (resolveStanding (seasonEndDeps svc purpose) entries members standing) fun _ head =>
        ∀ r ∈ head, r.place = standing.place ∧
          (placeToEntry entries r.place).map PayoutEntry.amountCents = some r.amountCents := by
      have hskip : ∀ r ∈ (none : Option ResolvedPayout), r.place = standing.place ∧
          (placeToEntry entries r.place).map PayoutEntry.amountCents = some r.amountCents :=
        fun _ hr => absurd hr (Option.not_mem_none _)
      refine conforms_resolveStanding hskip fun entry member hentry _ => ?_
      refine ⟨trivial, fun mirror => ⟨hskip, fun addr _ r hr => ?_⟩⟩
      obtain rfl := Option.some.inj hr
      exact ⟨rfl, by simp [hentry]⟩
    refine conforms_bind.mpr (hhead.mono fun _ head hhead => conforms_bind.mpr
      (ih.mono fun _ tail htail => ?_))
    obtain ⟨hplaces, hamounts⟩ := htail
    cases head with
    | none => exact ⟨hplaces.cons standing.place, hamounts⟩
    | some r =>
      obtain ⟨hplace, hamount⟩ := hhead r rfl
      refine ⟨?_, fun r' hr' => ?_⟩
      · change (r.place :: tail.map ResolvedPayout.place).Sublist _
        rw [hplace]
        exact hplaces.cons_cons standing.place
      · rcases List.mem_cons.mp hr' with rfl | hr'
        · exact hamount
        · exact hamounts r' hr'

/-- A resolved settlement is checked and paid. -/
theorem conforms_payResolved_checked {leagueID : String} {resolved : List ResolvedPayout}
    (hconfigured : Configured trace (resolved.map ResolvedPayout.amountCents)
      (.seasonEnd leagueID)) :
    checkedProtocol.Conforms (req, trace)
      (payResolved (seasonEndDeps svc (.seasonEnd leagueID)) leagueID resolved).run
      fun φ _ => φ.1 = req ∧ trace <:+ φ.2 := by
  refine conforms_run_bind.mpr (conforms_wrapErr.mpr (conforms_ofResult.mpr ?_))
  cases hkey : uuidToBytes32 leagueID with
  | error e => exact ⟨rfl, List.suffix_rfl⟩
  | ok key =>
    refine conforms_run_bind.mpr (conforms_wrapErr.mpr (conforms_run_bind.mpr
      (conforms_wrapErr.mpr (conforms_ofResult.mpr ?_))))
    cases hederaAccountToEVM svc.hederaEscrowContractID with
    | error e => exact ⟨rfl, List.suffix_rfl⟩
    | ok contract =>
      refine conforms_readBalance.mono ?_
      rintro ⟨req, later⟩ balance ⟨rfl, hlater, hbalance⟩
      cases balance with
      | error e => exact ⟨rfl, hlater⟩
      | ok balance =>
        refine conforms_run_ite.mpr ⟨fun _ => ⟨rfl, hlater⟩, fun hcheck => ?_⟩
        obtain ⟨contract, result, hresult, hdecode⟩ := hbalance balance rfl
        refine Conforms.mono (Q := fun φ _ => φ.1 = req ∧ later <:+ φ.2) ?_
          fun _ _ h => ⟨h.1, hlater.trans h.2⟩
        refine conforms_paysNothing_bind (.wrapErr (.run_bind (.exec trivial) fun _ => trivial))
          fun last claimed hlast => ?_
        refine conforms_run_ite.mpr ⟨fun _ => ?_, fun _ => ⟨rfl, hlast⟩⟩
        have hgrow := hlater.trans hlast
        have hchecked : Checked last (.seasonEnd leagueID) key
            (resolved.map ResolvedPayout.evmAddr) (resolved.map fun r => toMicroUSDC r.amountCents)
            (resolved.map ResolvedPayout.amountCents) :=
          ⟨hconfigured.mono hgrow, hkey, by simp [Function.comp_def], by simp, contract, result,
            balance, hlast.subset hresult, hdecode, hcheck⟩
        refine conforms_run_bind.mpr (conforms_run_lift.mpr
          ((conforms_execute_checked hchecked).mono ?_))
        rintro ⟨req, done⟩ txHash ⟨rfl, hdone⟩
        refine (conforms_paysNothing_run ?_).mono fun _ _ h =>
          ⟨h.1, hlast.trans (hdone.trans h.2)⟩
        cases txHash with
        | error e =>
          exact .run_bind (.lift (.run_bind (.exec trivial) fun _ => trivial)) fun _ => trivial
        | ok txHash =>
          refine .run_bind (.wrapErr (.run_bind (.exec trivial) fun _ => trivial)) fun updated =>
            .run_ite (fun _ => ?_) fun _ => trivial
          exact .lift (.forM fun r => .bind (.run_bind (.exec trivial) fun _ => trivial)
            fun _ => trivial)

/-- The settlement of a selected league pays its placement entries. -/
theorem conforms_settleSeasonEnd_checked {league : OracleLeague}
    {stream : RowStream OracleLeagueRow}
    (hread : (⟨.query .seasonEndLeagues, .ok stream⟩ : Sigma Ret) ∈ trace)
    (hleague : league ∈ stream.rows.filterMap OracleLeagueRow.load) :
    checkedProtocol.Conforms (req, trace) (processSeasonEndForLeague svc league).run
      fun φ _ => φ.1 = req ∧ trace <:+ φ.2 := by
  have hsettle : ∀ {trace : List (Sigma Ret)} purpose, checkedProtocol.Conforms (req, trace)
      ((seasonEndDeps svc purpose).markSettledWithoutPayout league.id).run
      fun φ _ => φ.1 = req ∧ trace <:+ φ.2 :=
    fun _ => conforms_paysNothing_run (.run_bind (.exec trivial) fun _ => trivial)
  refine conforms_paysNothing_bind (.wrapErr (.run_bind (.mk (.perform trivial))
    fun _ => trivial)) fun first status hfirst => ?_
  refine conforms_run_ite.mpr ⟨fun _ => ⟨rfl, hfirst⟩, fun _ => conforms_run_ite.mpr
    ⟨fun _ => (hsettle _).mono fun _ _ h => ⟨h.1, hfirst.trans h.2⟩, fun _ => ?_⟩⟩
  refine conforms_run_bind.mpr (conforms_wrapErr.mpr ⟨trivial, fun standings => ?_⟩)
  have hsecond := hfirst.trans (List.suffix_cons ⟨.finalStandings league.platform
    league.platformLeagueID, standings⟩ first)
  cases standings with
  | error e => exact ⟨rfl, hsecond⟩
  | ok standings =>
    refine (conforms_paysNothing_bind (.wrapErr (calls_getLeagueMembers trivial))
      fun third members hthird => ?_).mono fun _ _ h => ⟨h.1, hsecond.trans h.2⟩
    refine conforms_run_bind.mpr (conforms_run_lift.mpr
      ((conforms_paysNothing resolveStandings_placed).mono ?_))
    rintro ⟨req, last⟩ resolved ⟨rfl, hlast, hplaces, hamounts⟩
    have hgrow := hthird.trans hlast
    refine conforms_run_ite.mpr ⟨fun _ => (hsettle _).mono fun _ _ h => ⟨h.1, hgrow.trans h.2⟩,
      fun _ => (conforms_payResolved_checked ?_).mono fun _ _ h => ⟨h.1, hgrow.trans h.2⟩⟩
    refine ⟨resolved.map fun r => (r.place, r.amountCents), ⟨stream,
      (hsecond.trans hgrow).subset hread, league, hleague, rfl, standings,
      hgrow.subset List.mem_cons_self, ?_, ?_⟩, ?_⟩
    · simpa [Function.comp_def] using hplaces
    · intro p hp
      obtain ⟨r, hr, rfl⟩ := List.mem_map.mp hp
      exact hamounts r hr
    · simp [Function.comp_def]

/-! ## All requests -/

/-- Requests other than the payout jobs pay nothing. -/
theorem Request.mayCall.paysNothing {c : Call} (h : req.mayCall c)
    (hweekly : req ≠ .runWeeklyPayoutJob) (hseason : req ≠ .runSeasonEndPayoutJob) :
    c.paysNothing := by
  cases c with
  | contractExecute purpose key recipients amounts =>
    cases purpose with
    | seasonEnd leagueID => exact absurd h hseason
    | weekly leagueID eventIDs => exact absurd h hweekly
  | exec s =>
    cases s with
    | insertWeeklyEvent =>
      cases req with
      | runWeeklyPayoutJob => exact absurd rfl hweekly
      | _ => exact h.elim
    | _ => trivial
  | _ => trivial

/-- Every request submits only checked transactions. -/
theorem conforms_checkedProtocol (req : Request) :
    checkedProtocol.Conforms (req, []) ((backend svc crypto).body req) fun _ _ => True := by
  by_cases hweekly : req = .runWeeklyPayoutJob
  · subst hweekly
    refine conforms_toDone (conforms_run_ite.mpr ⟨fun _ => ?_, fun _ => trivial⟩)
    refine conforms_run_bind.mpr (conforms_wrapErr.mpr (conforms_query.mpr
      ⟨trivial, fun stream => conforms_run_lift.mpr ?_, fun _ => trivial⟩))
    refine (conforms_forM (I := fun φ => φ.1 = .runWeeklyPayoutJob ∧
      (⟨.query .weeklyPayoutLeagues, .ok stream⟩ : Sigma Ret) ∈ φ.2) ?_
        ⟨rfl, List.mem_cons_self⟩).mono fun _ _ _ => trivial
    rintro league hleague ⟨req, trace⟩ ⟨rfl, hread⟩
    exact (conforms_weeklyRound_checked hread hleague).mono
      fun φ _ h => ⟨h.1, h.2.subset hread⟩
  by_cases hseason : req = .runSeasonEndPayoutJob
  · subst hseason
    refine conforms_toDone (conforms_run_ite.mpr ⟨fun _ => ?_, fun _ => trivial⟩)
    refine conforms_run_bind.mpr (conforms_wrapErr.mpr (conforms_query.mpr
      ⟨trivial, fun stream => conforms_run_lift.mpr ?_, fun _ => trivial⟩))
    refine (conforms_forM (I := fun φ => φ.1 = .runSeasonEndPayoutJob ∧
      (⟨.query .seasonEndLeagues, .ok stream⟩ : Sigma Ret) ∈ φ.2) ?_
        ⟨rfl, List.mem_cons_self⟩).mono fun _ _ _ => trivial
    rintro league hleague ⟨req, trace⟩ ⟨rfl, hread⟩
    refine conforms_bind.mpr ((conforms_settleSeasonEnd_checked hread hleague).mono ?_)
    exact fun φ _ h => ⟨h.1, h.2.subset hread⟩
  · have hcalls : Calls Call.paysNothing ((backend svc crypto).body req) :=
      (calls_request req).weaken fun c hc => hc.paysNothing hweekly hseason
    exact (conforms_paysNothing_run hcalls).mono fun _ _ _ => trivial

/-- Every submitted transaction is checked. -/
theorem Runs.checked (h : Runs svc crypto ok a) {i : ℕ} {purpose : Purpose} {key : Bytes32}
    {recipients : List Address} {amounts : List Int64}
    {r : Ret (.contractExecute purpose key recipients amounts)}
    (hstep : (backend svc crypto).Step a (.call i _ r) b) {t : BackendThread}
    (ht : a.threads[i]? = some t) :
    ∃ cents, Checked t.trace purpose key recipients amounts cents := by
  cases hstep with
  | call ht' hrest hstopped hw =>
    obtain rfl := Option.some.inj (ht.symm.trans ht')
    have hfollows := follows_of_reaches h conforms_checkedProtocol (by simp [initialConfig]) i _ ht
    have hallows := hfollows.allows hrest
    rw [phaseOf, history_phase] at hallows
    exact hallows

end Wagr
