import Wagr.Service.Rules

/-!
# Which request makes which calls

Every request and job is bounded by the statements, queries and transactions it can issue
at all, whatever answers it gets. Properties that depend only on who may run which
statement follow from this bound; the others need it to leave the remaining requests out.
-/

namespace Wagr

open Interaction Protocol

namespace Request

/-- The statements of a request. -/
def mayExec : Request → Statement → Prop
  | .getOrCreateNonce walletAddress _, .upsertNonce walletAddress' _ _ =>
    walletAddress' = walletAddress
  | .verifySignature _, .rotateNonce _ _ => True
  | .linkPlatformProfile userID req, .upsertProfile p =>
    p.userID = userID ∧ p.platform = req.platform
  | .importLeague _ req, .importLeague league _ => league.platform = req.platform
  | .deleteLeague leagueID userID, .deleteMembership leagueID' userID' =>
    leagueID' = leagueID ∧ userID' = userID
  | .deleteLeague leagueID _, .deleteLeague leagueID' => leagueID' = leagueID
  | .updateLeagueSettings leagueID _ req, .updateSettings leagueID' fee payoutJSON =>
    leagueID' = leagueID ∧ fee = req.entryFeeCents ∧ payoutJSON = .marshal req.payoutStructure
  | .setPaymentToken leagueID userID token, .setPaymentToken leagueID' userID' token' =>
    leagueID' = leagueID ∧ userID' = userID ∧ token' = token
  | .confirmPayment leagueID userID transactionID, .markPaid leagueID' userID' transactionID' =>
    leagueID' = leagueID ∧ userID' = userID ∧ transactionID' = transactionID
  | .cancelLeague leagueID _, .cancelLeague leagueID' => leagueID' = leagueID
  | .reactivateLeague leagueID _, .reactivateLeague leagueID' => leagueID' = leagueID
  | .reactivateLeague leagueID _, .resetRefunded leagueID' => leagueID' = leagueID
  | .confirmRefund leagueID userID transactionID, .markRefunded leagueID' userID' transactionID' =>
    leagueID' = leagueID ∧ userID' = userID ∧ transactionID' = transactionID
  | .runWeeklyPayoutJob, .insertWeeklyEvent _ _ _ _ _ _ _ _ => True
  | .runWeeklyPayoutJob, .markWeeklyEventExecuted _ _ => True
  | .runSeasonEndPayoutJob, .markSettledWithoutPayout _ => True
  | .runSeasonEndPayoutJob, .claimPayout _ => True
  | .runSeasonEndPayoutJob, .markPayoutFailed _ => True
  | .runSeasonEndPayoutJob, .markPayoutExecuted _ _ => True
  | .runSeasonEndPayoutJob, .recordMemberPayout _ _ _ _ _ => True
  | .refreshLeagueStatuses, .updateLeagueStatus _ _ newStatus => newStatus ≠ "complete"
  | _, _ => False

/-- The queries of a request, as far as they tell requests apart. -/
def mayQuery : Request → Query → Prop
  | .runWeeklyPayoutJob, .weeklyPayoutLeagues => True
  | .runWeeklyPayoutJob, .leagueMembers _ => True
  | .runWeeklyPayoutJob, .unexecutedEvents _ _ => True
  | .runSeasonEndPayoutJob, .seasonEndLeagues => True
  | .runSeasonEndPayoutJob, .leagueMembers _ => True
  | .refreshLeagueStatuses, .statusRefreshLeagues => True
  | .deleteLeague _ _, .linkedMembers _ => True
  | .updateLeagueSettings _ _ _, .isCommissioner _ _ => True
  | .updateLeagueSettings _ _ _, .leagueSettings _ _ => True
  | .cancelLeague _ _, .isCommissioner _ _ => True
  | .reactivateLeague _ _, .isCommissioner _ _ => True
  | .confirmPayment _ _ _, .memberPayment _ _ => True
  | .confirmRefund _ _ _, .memberRefund _ _ => True
  | .verifySignature _, .userByWallet _ => True
  | _, _ => False

/-- The requests that draw nonces. -/
def mayDraw : Request → Prop
  | .getOrCreateNonce _ _ => True
  | .verifySignature _ => True
  | _ => False

/-- The calls of a request. -/
def mayCall (req : Request) : Call → Prop
  | .exec s => req.mayExec s
  | .query q => req.mayQuery q
  | .contractExecute purpose _ _ _ =>
    match purpose with
    | .seasonEnd _ => req = .runSeasonEndPayoutJob
    | .weekly _ _ => req = .runWeeklyPayoutJob
  | .getReceipt _ => req = .runSeasonEndPayoutJob ∨ req = .runWeeklyPayoutJob
  | .generateNonce => req.mayDraw
  | .mirrorKey _ => ∃ req', req = .verifySignature req'
  | _ => True

end Request

/-- The calls of a program are in a set. -/
abbrev Calls {α : Type} (p : Call → Prop) (x : Job α) : Prop :=
  (footprint p).Conforms () x fun _ _ => True

namespace Calls

variable {α β : Type} {p : Call → Prop}

/-- One call. -/
theorem perform {c : Call} (h : p c) : Calls p (perform c) := ⟨h, fun _ => trivial⟩

/-- One call whose answer carries an error. -/
theorem mk {x : Job (Except GoError α)} (h : Calls p x) : Calls p (ExceptT.mk x : Go α).run := h

/-- One statement. -/
theorem exec {s : Statement} (h : p (.exec s)) : Calls p (exec s).run := ⟨h, fun _ => trivial⟩

/-- One query. -/
theorem query {q : Query} (h : p (.query q)) : Calls p (query q).run := ⟨h, fun _ => trivial⟩

/-- Sequential composition. -/
theorem bind {x : Job α} {f : α → Job β} (hx : Calls p x) (hf : ∀ a, Calls p (f a)) :
    Calls p (x >>= f) :=
  conforms_bind.mpr (Conforms.mono hx fun _ a _ => hf a)

/-- Sequential composition of programs that may fail. -/
theorem run_bind {x : Go α} {f : α → Go β} (hx : Calls p x.run) (hf : ∀ a, Calls p (f a).run) :
    Calls p (x >>= f).run := by
  refine conforms_run_bind.mpr (Conforms.mono hx fun _ r _ => ?_)
  cases r with
  | ok a => exact hf a
  | error e => trivial

/-- Wrapping errors calls nothing. -/
theorem wrapErr {message : String} {x : Go α} (hx : Calls p x.run) :
    Calls p (wrapErr message x).run :=
  conforms_wrapErr.mpr (Conforms.mono hx fun _ _ _ => trivial)

/-- A program that cannot fail, used among programs that may. -/
theorem lift {x : Job α} (hx : Calls p x) : Calls p (ExceptT.lift x : Go α).run :=
  conforms_run_lift.mpr hx

/-- A larger set of calls. -/
theorem weaken {p' : Call → Prop} {x : Job α} (hx : Calls p x) (himp : ∀ c, p c → p' c) :
    Calls p' x :=
  (conforms_of_footprint (P := footprint p') hx fun c hc => ⟨himp c hc, fun _ => rfl⟩).mono
    fun _ _ _ => trivial

/-- A loop makes the calls of its rounds. -/
theorem forM {xs : List α} {f : α → Job PUnit} (h : ∀ x, Calls p (f x)) : Calls p (xs.forM f) :=
  conforms_forM (I := fun _ => True) (fun x _ _ _ => h x) trivial

/-- A loop that may fail makes the calls of its rounds. -/
theorem run_forM {xs : List α} {f : α → Go PUnit} (h : ∀ x, Calls p (f x).run) :
    Calls p (xs.forM f).run :=
  conforms_run_forM (I := fun _ => True) (fun x _ _ _ => h x) trivial

/-- Both branches of a case distinction. -/
theorem ite {c : Prop} [Decidable c] {x y : Job α} (hx : c → Calls p x) (hy : ¬ c → Calls p y) :
    Calls p (if c then x else y) :=
  conforms_ite.mpr ⟨hx, hy⟩

/-- Both branches of a case distinction between programs that may fail. -/
theorem run_ite {c : Prop} [Decidable c] {x y : Go α} (hx : c → Calls p x.run)
    (hy : ¬ c → Calls p y.run) : Calls p (if c then x else y).run :=
  conforms_run_ite.mpr ⟨hx, hy⟩

end Calls

variable {svc : Service} {crypto : Crypto} {p : Call → Prop}

/-- Resolving an address asks the mirror node. -/
theorem calls_getAccountEVMAddress {accountID : String} (h : p (.mirrorAccount accountID)) :
    Calls p (getAccountEVMAddress accountID).run :=
  .bind (.perform h) fun _ => trivial

/-- Reading the contract asks the mirror node. -/
theorem calls_readContractPayment {contractAddr : Address} {read : ContractRead}
    (h : p (.contractCall contractAddr read)) :
    Calls p (readContractPayment contractAddr read).run :=
  .run_bind (.mk (.perform h)) fun _ => trivial

/-- A payout submits its transaction and asks for the receipt. -/
theorem calls_executeDistributePayout {purpose : Purpose} {leagueID : Bytes32}
    {recipients : List Address} {amounts : List Int64}
    (hexecute : p (.contractExecute purpose leagueID recipients amounts))
    (hreceipt : ∀ resp, p (.getReceipt resp)) :
    Calls p (executeDistributePayout purpose leagueID recipients amounts).run := by
  refine .run_ite (fun _ => trivial) fun _ => .run_ite (fun _ => trivial) fun _ => ?_
  refine .run_bind (.wrapErr (.mk (.perform hexecute))) fun resp => ?_
  refine .run_bind (.wrapErr (.mk (.perform (hreceipt resp)))) fun receipt => ?_
  cases receipt <;> trivial

/-- Loading the members is one query. -/
theorem calls_getLeagueMembers {leagueID : String} (h : p (.query (.leagueMembers leagueID))) :
    Calls p (getLeagueMembers leagueID).run :=
  .run_bind (.wrapErr (.query h)) fun _ => trivial

/-- Resolving the events asks the mirror node. -/
theorem calls_resolveEvents {events : List WeeklyEvent} (h : ∀ id, p (.mirrorAccount id)) :
    Calls p (resolveEvents events) := by
  induction events with
  | nil => trivial
  | cons ev events ih =>
    refine .bind (calls_getAccountEVMAddress (h _)) fun addr => .bind ih fun resolved => ?_
    cases addr <;> trivial

/-- The calls of the weekly payout of one league. -/
def Call.paysWeekly (leagueID : String) : Call → Prop
  | .exec s =>
    match s with
    | .insertWeeklyEvent leagueID' _ _ _ _ _ _ _ => leagueID' = leagueID
    | .markWeeklyEventExecuted _ _ => True
    | _ => False
  | .query q =>
    match q with
    | .leagueMembers leagueID' => leagueID' = leagueID
    | .unexecutedEvents leagueID' _ => leagueID' = leagueID
    | _ => False
  | .contractExecute purpose _ _ _ => ∃ eventIDs, purpose = .weekly leagueID eventIDs
  | .getReceipt _ => True
  | .currentWeek _ => True
  | .platformMatchups _ _ _ => True
  | .mirrorAccount _ => True
  | .contractCall _ _ => True
  | _ => False

/-- The calls of paying weekly events. -/
theorem calls_payWeeklyEvents {league : OracleLeague} {events : List WeeklyEvent}
    (hmirror : ∀ id, p (.mirrorAccount id))
    (hread : ∀ contract read, p (.contractCall contract read))
    (hpay : ∀ eventIDs key recipients amounts,
      p (.contractExecute (.weekly league.id eventIDs) key recipients amounts))
    (hreceipt : ∀ resp, p (.getReceipt resp))
    (hmark : ∀ id txHash, p (.exec (.markWeeklyEventExecuted id txHash))) :
    Calls p (payWeeklyEvents svc league events).run := by
  refine .run_bind (.wrapErr trivial) fun leagueIDBytes => ?_
  refine .run_bind (.wrapErr trivial) fun contractEVM => ?_
  refine .run_bind (.lift (calls_resolveEvents hmirror)) fun resolved => ?_
  refine .run_ite (fun _ => trivial) fun _ => ?_
  refine .run_bind (.wrapErr (calls_readContractPayment (hread _ _))) fun balance => ?_
  refine .run_ite (fun _ => trivial) fun _ => ?_
  refine .run_bind (.wrapErr (calls_executeDistributePayout (hpay _ _ _ _) hreceipt)) fun hash => ?_
  exact .lift (.forM fun id => .bind (.exec (hmark _ _)) fun _ => trivial)

/-- Recording an event is one statement at most. -/
theorem calls_recordWeeklyEvent {league : OracleLeague} {week : ℤ} {members : List LeagueMember}
    {entry : PayoutEntry} {m : PlatformMatchup}
    (h : ∀ week rosterID user payoutType points amount wallet, p (.exec
      (.insertWeeklyEvent league.id week rosterID user payoutType points amount wallet))) :
    Calls p (recordWeeklyEvent league week members entry m).run := by
  unfold recordWeeklyEvent
  split
  · trivial
  · refine .run_ite (fun _ => trivial) fun _ => ?_
    exact .run_bind (.wrapErr (.exec (h _ _ _ _ _ _ _))) fun _ => trivial

/-- The weekly payout of a league makes only calls for this league. -/
theorem calls_processWeekly {league : OracleLeague} {entries : List PayoutEntry} {week : ℤ} :
    Calls (Call.paysWeekly league.id)
      (processWeeklyPayoutsForLeague svc league entries week).run := by
  refine .run_bind (.wrapErr (.mk (.perform trivial))) fun matchups => ?_
  refine .run_bind (.wrapErr (calls_getLeagueMembers rfl)) fun members => ?_
  refine .run_bind (.run_forM fun entry => .run_forM fun m =>
    calls_recordWeeklyEvent fun _ _ _ _ _ _ _ => rfl) fun _ => ?_
  refine .run_bind (.wrapErr (.query rfl)) fun stream => ?_
  refine .run_ite (fun _ => trivial) fun _ => ?_
  exact calls_payWeeklyEvents (fun _ => trivial) (fun _ _ => trivial) (fun _ _ _ _ => ⟨_, rfl⟩)
    (fun _ => trivial) fun _ _ => trivial

/-- A round of the weekly job makes only calls for its league. -/
theorem calls_weeklyRound {league : OracleLeague} :
    Calls (Call.paysWeekly league.id) (weeklyRound svc league) := by
  refine .ite (fun _ => trivial) fun _ => .bind (.perform trivial) fun week => ?_
  cases week with
  | error e => trivial
  | ok week => exact .ite (fun _ => trivial) fun _ => .bind calls_processWeekly fun _ => trivial

/-- The calls of a weekly payout are calls of the weekly job. -/
theorem Call.paysWeekly.mayCall {leagueID : String} {c : Call} (h : c.paysWeekly leagueID) :
    Request.mayCall .runWeeklyPayoutJob c := by
  cases c with
  | exec s => cases s <;> first | exact trivial | exact h.elim
  | query q => cases q <;> first | exact trivial | exact h.elim
  | contractExecute purpose key recipients amounts =>
    obtain ⟨eventIDs, rfl⟩ := h
    rfl
  | getReceipt resp => exact .inr rfl
  | _ => trivial

/-- The calls of the weekly job. -/
theorem calls_runWeeklyPayoutJob :
    Calls (Request.mayCall .runWeeklyPayoutJob) (runWeeklyPayoutJob svc).run := by
  refine .run_ite (fun _ => ?_) fun _ => trivial
  refine .run_bind (.wrapErr (.query trivial)) fun stream => .lift (.forM fun league => ?_)
  exact calls_weeklyRound.weaken fun _ => Call.paysWeekly.mayCall

/-- The rule of one step of the resolution loop: the account of the member with a payout is looked
up, and nothing is looked up where there is none. -/
theorem conforms_resolveStanding {Φ : Type} {P : Protocol Call Ret Φ} {φ : Φ}
    {Q : Φ → Option ResolvedPayout → Prop} {entries : List PayoutEntry}
    {members : List LeagueMember} {standing : PlatformStanding} {purpose : Purpose}
    (hskip : Q φ none)
    (hlookup : ∀ entry member, placeToEntry entries standing.place = some entry →
      memberByRoster members standing.rosterID = some member →
        P.allows φ (.mirrorAccount member.walletAddress) ∧ ∀ mirror,
          Q (P.next φ (.mirrorAccount member.walletAddress) mirror) none ∧
          ∀ addr, evmAddressOf member.walletAddress mirror = .ok addr →
            Q (P.next φ (.mirrorAccount member.walletAddress) mirror)
              (some ⟨member, entry.amountCents, standing.place, addr⟩)) :
    P.Conforms φ (resolveStanding (seasonEndDeps svc purpose) entries members standing) Q := by
  unfold resolveStanding
  split
  · exact hskip
  · rename_i entry hentry
    split
    · exact hskip
    · rename_i member hmember
      obtain ⟨hallows, hanswer⟩ := hlookup entry member hentry hmember
      refine conforms_ite.mpr ⟨fun _ => hskip, fun _ => ?_⟩
      refine conforms_bind.mpr (conforms_bind.mpr ⟨hallows, fun mirror => conforms_pure.mpr ?_⟩)
      obtain ⟨hfails, hfinds⟩ := hanswer mirror
      cases haddress : evmAddressOf member.walletAddress mirror with
      | error e => exact hfails
      | ok addr => exact hfinds addr haddress

/-- The calls of one resolution round of the season-end settlement. -/
theorem calls_resolveStandings {entries : List PayoutEntry} {members : List LeagueMember}
    {standings : List PlatformStanding} {purpose : Purpose} (h : ∀ id, p (.mirrorAccount id)) :
    Calls p (resolveStandings (seasonEndDeps svc purpose) entries members standings) := by
  induction standings with
  | nil => trivial
  | cons standing standings ih =>
    refine .bind (conforms_resolveStanding trivial fun _ _ _ _ => ?_) fun head =>
      .bind ih fun tail => trivial
    exact ⟨h _, fun _ => ⟨trivial, fun _ _ => trivial⟩⟩

/-- The calls of the settlement of one league. -/
def Call.settles (leagueID : String) : Call → Prop
  | .exec s =>
    match s with
    | .markSettledWithoutPayout leagueID' => leagueID' = leagueID
    | .claimPayout leagueID' => leagueID' = leagueID
    | .markPayoutFailed leagueID' => leagueID' = leagueID
    | .markPayoutExecuted leagueID' _ => leagueID' = leagueID
    | .recordMemberPayout leagueID' _ _ _ _ => leagueID' = leagueID
    | _ => False
  | .query q => q = .leagueMembers leagueID
  | .contractExecute purpose _ _ _ => purpose = .seasonEnd leagueID
  | .getReceipt _ => True
  | .platformLeague _ _ => True
  | .finalStandings _ _ => True
  | .mirrorAccount _ => True
  | .contractCall _ _ => True
  | _ => False

/-- The settlement of a league makes only calls for this league. -/
theorem calls_processSeasonEndForLeague {league : OracleLeague} :
    Calls (Call.settles league.id) (processSeasonEndForLeague svc league).run := by
  have hsettle : ∀ purpose, Calls (Call.settles league.id)
      ((seasonEndDeps svc purpose).markSettledWithoutPayout league.id).run :=
    fun _ => .run_bind (.exec rfl) fun _ => trivial
  refine .run_bind (.wrapErr (.run_bind (.mk (.perform trivial)) fun _ => trivial)) fun status => ?_
  refine .run_ite (fun _ => trivial) fun _ => .run_ite (fun _ => hsettle _) fun _ => ?_
  refine .run_bind (.wrapErr (.mk (.perform trivial))) fun standings => ?_
  refine .run_bind (.wrapErr (calls_getLeagueMembers rfl)) fun members => ?_
  refine .run_bind (.lift (calls_resolveStandings fun _ => trivial)) fun resolved => ?_
  refine .run_ite (fun _ => hsettle _) fun _ => ?_
  refine .run_bind (.wrapErr trivial) fun leagueIDBytes => ?_
  refine .run_bind (.wrapErr (.run_bind (.wrapErr trivial) fun contractEVM =>
    calls_readContractPayment trivial)) fun balance => ?_
  refine .run_ite (fun _ => trivial) fun _ => ?_
  refine .run_bind (.wrapErr (.run_bind (.exec rfl) fun _ => trivial)) fun claimed => ?_
  refine .run_ite (fun _ => ?_) fun _ => trivial
  refine .run_bind (.lift (calls_executeDistributePayout rfl fun _ => trivial)) fun txHash => ?_
  cases txHash with
  | error e => exact .run_bind (.lift (.run_bind (.exec rfl) fun _ => trivial)) fun _ => trivial
  | ok txHash =>
    refine .run_bind (.wrapErr (.run_bind (.exec rfl) fun _ => trivial)) fun updated => ?_
    refine .run_ite (fun _ => ?_) fun _ => trivial
    exact .lift (.forM fun r => .bind (.run_bind (.exec rfl) fun _ => trivial) fun _ => trivial)

/-- The calls of a settlement are calls of the season-end job. -/
theorem Call.settles.mayCall {leagueID : String} {c : Call} (h : c.settles leagueID) :
    Request.mayCall .runSeasonEndPayoutJob c := by
  cases c with
  | exec s => cases s <;> first | exact trivial | exact h.elim
  | query q =>
    obtain rfl : q = .leagueMembers leagueID := h
    trivial
  | contractExecute purpose key recipients amounts =>
    obtain rfl : purpose = .seasonEnd leagueID := h
    rfl
  | getReceipt resp => exact .inl rfl
  | _ => trivial

/-- The calls of the season-end job. -/
theorem calls_runSeasonEndPayoutJob :
    Calls (Request.mayCall .runSeasonEndPayoutJob) (runSeasonEndPayoutJob svc).run := by
  refine .run_ite (fun _ => ?_) fun _ => trivial
  refine .run_bind (.wrapErr (.query trivial)) fun stream => .lift (.forM fun league => ?_)
  exact .bind (calls_processSeasonEndForLeague.weaken fun _ => Call.settles.mayCall)
    fun _ => trivial

/-- The refresh maps `complete` down. -/
theorem canonicalLeagueStatus_ne_complete (status : String) :
    canonicalLeagueStatus status ≠ "complete" := by
  unfold canonicalLeagueStatus
  split
  · decide
  · rename_i hne
    exact fun h => hne (.inr h)

/-- The refresh never stores `complete`. -/
theorem nextLeagueStatus_ne_complete {stored platform : String}
    (h : (nextLeagueStatus stored platform).2 = true) :
    (nextLeagueStatus stored platform).1 ≠ "complete" := by
  revert h
  simp only [nextLeagueStatus]
  generalize (if stored = "" then "pre_draft" else stored) = effectiveStored
  cases leagueStatusRank effectiveStored with
  | none => simp
  | some storedRank =>
    by_cases hpost : effectiveStored = "post_season"
    · cases leagueStatusRank platform with
      | none => simp [hpost]
      | some platformRank => by_cases hle : storedRank ≤ platformRank <;> simp [hpost, hle]
    · cases leagueStatusRank (canonicalLeagueStatus platform) with
      | none => simp [hpost]
      | some targetRank =>
        by_cases hle : targetRank ≤ storedRank
        · simp [hpost, hle]
        · simp [hpost, hle, canonicalLeagueStatus_ne_complete]

/-- The calls of the status refresh: every update moves a league to its next status. -/
theorem calls_runRefreshLeagueStatuses (hquery : p (.query .statusRefreshLeagues))
    (hplatform : ∀ platform platformLeagueID, p (.currentSeason platform) ∧
      p (.platformLeague platform platformLeagueID))
    (hupdate : ∀ leagueID oldStatus platform, (nextLeagueStatus oldStatus platform).2 = true →
      p (.exec (.updateLeagueStatus leagueID oldStatus (nextLeagueStatus oldStatus platform).1))) :
    Calls p runRefreshLeagueStatuses.run := by
  have hseasons : ∀ platforms, Calls p (currentSeasons platforms) := by
    intro platforms
    induction platforms with
    | nil => trivial
    | cons platform platforms ih =>
      refine .bind (.perform (hplatform platform "").1) fun season => .bind ih fun seasons => ?_
      cases season <;> trivial
  have hrefresh : ∀ leagues, Calls p
      (refreshLeagueStatuses fetchPlatformStatus updateStatus leagues) := by
    intro leagues
    induction leagues with
    | nil => trivial
    | cons l leagues ih =>
      refine .bind ?_ fun changed => .bind ih fun updated => trivial
      have hfetch := (hplatform l.platform l.platformLeagueID).2
      refine .bind (.run_bind (.mk (.perform hfetch)) fun _ => trivial) fun status => ?_
      cases status with
      | error e => trivial
      | ok status =>
        refine .ite (fun _ => trivial) fun _ => .ite (fun hnext => ?_) fun _ => trivial
        refine .bind (.run_bind (.exec (hupdate _ _ _ hnext)) fun _ => trivial) fun changed => ?_
        cases changed <;> trivial
  refine .run_bind (.wrapErr (.query hquery)) fun stream => ?_
  split
  · trivial
  · refine .run_bind (.lift (hseasons _)) fun seasons => ?_
    exact .run_bind (.lift (hrefresh _)) fun _ => trivial

/-- The calls of `getLeagueSettings`. -/
theorem calls_getLeagueSettings {leagueID userID : String}
    (h : p (.query (.leagueSettings leagueID userID))) :
    Calls p (getLeagueSettings leagueID userID).run := by
  refine .run_bind (.wrapErr (.query h)) fun row => ?_
  cases row <;> trivial

/-- The commissioner check is one query. -/
theorem calls_requireCommissioner {leagueID userID : String}
    (h : p (.query (.isCommissioner leagueID userID))) :
    Calls p (requireCommissioner leagueID userID).run := by
  refine .run_bind (.lift (.query h)) fun row => ?_
  match row with
  | .ok (some true) => trivial
  | .ok (some false) => trivial
  | .ok none => trivial
  | .error _ => trivial

/-- Reading a payment asks the mirror node. -/
theorem calls_readMemberPayment {leagueID message : String} {evmAddr : Address}
    (h : ∀ contract read, p (.contractCall contract read)) :
    Calls p (readMemberPayment svc leagueID evmAddr message).run := by
  refine .run_bind (.wrapErr trivial) fun key => .run_bind (.wrapErr trivial) fun contract => ?_
  exact .wrapErr (calls_readContractPayment (h _ _))

/-- The calls of `ConfirmPayment`. -/
theorem calls_confirmPayment {leagueID userID transactionID : String} :
    Calls (Request.mayCall (.confirmPayment leagueID userID transactionID))
      (confirmPayment svc leagueID userID transactionID).run := by
  refine .run_bind (.wrapErr (.query trivial)) fun info => ?_
  cases info with
  | none => trivial
  | some info =>
    refine .run_ite (fun _ => trivial) fun _ => ?_
    refine .run_bind (.wrapErr (calls_getAccountEVMAddress trivial)) fun evmAddr => ?_
    refine .run_bind (calls_readMemberPayment fun _ _ => trivial) fun paid => ?_
    refine .run_ite (fun _ => trivial) fun _ => ?_
    exact .run_bind (.wrapErr (.exec ⟨rfl, rfl, rfl⟩)) fun _ => trivial

/-- The calls of `ConfirmRefund`. -/
theorem calls_confirmRefund {leagueID userID transactionID : String} :
    Calls (Request.mayCall (.confirmRefund leagueID userID transactionID))
      (confirmRefund svc leagueID userID transactionID).run := by
  refine .run_bind (.wrapErr (.query trivial)) fun info => ?_
  cases info with
  | none => trivial
  | some info =>
    refine .run_ite (fun _ => trivial) fun _ => .run_ite (fun _ => trivial) fun _ => ?_
    refine .run_bind (.wrapErr (calls_getAccountEVMAddress trivial)) fun evmAddr => ?_
    refine .run_bind (calls_readMemberPayment fun _ _ => trivial) fun paid => ?_
    refine .run_ite (fun _ => trivial) fun _ => ?_
    exact .run_bind (.wrapErr (.exec ⟨rfl, rfl, rfl⟩)) fun _ => trivial

/-- The calls of `VerifySignature`. -/
theorem calls_verifySignature {req : VerifyRequest} :
    Calls (Request.mayCall (.verifySignature req)) (verifySignature crypto req).run := by
  refine .run_bind (.lift (.query trivial)) fun user => ?_
  match user with
  | .error _ => trivial
  | .ok none => trivial
  | .ok (some user) =>
    refine .run_bind (.lift (.run_bind (.wrapErr (.run_bind (.mk (.perform ⟨req, rfl⟩)) fun key =>
      .run_ite (fun _ => trivial) fun _ => trivial)) fun keyInfo => trivial)) fun valid => ?_
    refine .run_bind trivial fun _ => ?_
    refine .run_bind (.wrapErr (.mk (.perform trivial))) fun newNonce => ?_
    exact .run_bind (.wrapErr (.exec trivial)) fun _ => trivial

/-- Every request makes only the calls of its footprint. -/
theorem calls_request (req : Request) :
    Calls req.mayCall (requestProgram svc crypto req).run := by
  cases req with
  | getOrCreateNonce walletAddress walletType =>
    refine .run_bind (.run_ite (fun _ => trivial) fun _ => ?_) fun _ => trivial
    refine .run_bind (.wrapErr (.mk (.perform trivial))) fun nonce => ?_
    exact .run_bind (.wrapErr (.exec rfl)) fun _ => trivial
  | verifySignature req => exact .run_bind calls_verifySignature fun _ => trivial
  | linkPlatformProfile userID req =>
    refine .run_bind (.run_bind (.wrapErr (.mk (.perform trivial))) fun platformUser => ?_)
      fun _ => trivial
    exact .wrapErr (.exec ⟨rfl, rfl⟩)
  | importLeague userID req =>
    refine .run_bind (.run_bind (.wrapErr (.mk (.perform trivial))) fun league => ?_)
      fun _ => trivial
    refine .run_bind (.wrapErr (.mk (.perform trivial))) fun members => ?_
    refine .run_bind (.wrapErr (.mk (.perform trivial))) fun rosters => ?_
    exact .wrapErr (.exec rfl)
  | deleteLeague leagueID userID =>
    refine .run_bind (.run_bind (.wrapErr (.exec ⟨rfl, rfl⟩)) fun n => ?_) fun _ => trivial
    refine .run_ite (fun _ => trivial) fun _ => ?_
    refine .run_bind (.wrapErr (.query trivial)) fun remaining => ?_
    refine .run_ite (fun _ => ?_) fun _ => trivial
    exact .run_bind (.wrapErr (.exec rfl)) fun _ => trivial
  | updateLeagueSettings leagueID userID req =>
    refine .run_bind (.run_ite (fun _ => trivial) fun _ => ?_) fun _ => trivial
    refine .run_bind (calls_requireCommissioner trivial) fun _ => ?_
    refine .run_bind (.wrapErr (.exec ⟨rfl, rfl, rfl⟩)) fun _ => ?_
    exact calls_getLeagueSettings trivial
  | setPaymentToken leagueID userID token =>
    refine .run_bind (.run_ite (fun _ => trivial) fun _ => ?_) fun _ => trivial
    refine .run_bind (.wrapErr (.exec ⟨rfl, rfl, rfl⟩)) fun n => ?_
    exact .run_ite (fun _ => trivial) fun _ => trivial
  | confirmPayment leagueID userID transactionID =>
    exact .run_bind calls_confirmPayment fun _ => trivial
  | cancelLeague leagueID userID =>
    refine .run_bind (.run_bind (calls_requireCommissioner trivial) fun _ => ?_) fun _ => trivial
    refine .run_bind (.wrapErr (.exec rfl)) fun n => ?_
    exact .run_ite (fun _ => trivial) fun _ => trivial
  | reactivateLeague leagueID userID =>
    refine .run_bind (.run_bind (calls_requireCommissioner trivial) fun _ => ?_) fun _ => trivial
    refine .run_bind (.wrapErr (.exec rfl)) fun n => ?_
    refine .run_ite (fun _ => trivial) fun _ => ?_
    exact .run_bind (.wrapErr (.exec rfl)) fun _ => trivial
  | confirmRefund leagueID userID transactionID =>
    exact .run_bind calls_confirmRefund fun _ => trivial
  | runWeeklyPayoutJob => exact .run_bind calls_runWeeklyPayoutJob fun _ => trivial
  | runSeasonEndPayoutJob => exact .run_bind calls_runSeasonEndPayoutJob fun _ => trivial
  | refreshLeagueStatuses =>
    refine .run_bind (calls_runRefreshLeagueStatuses trivial (fun _ _ => ⟨trivial, trivial⟩)
      fun _ _ _ hnext => ?_) fun _ => trivial
    exact nextLeagueStatus_ne_complete hnext

end Wagr
