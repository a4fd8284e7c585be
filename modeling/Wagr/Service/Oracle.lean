import Wagr.Service.Hedera

/-!
# The oracle jobs

The weekly payout job, the season-end payout job and the status refresh of
`service_oracle.go`. The season-end settlement is written over its injected dependencies,
as in the source, and then wired to the database, the mirror node and the contract.
-/

namespace Wagr

open Interaction

/-- The fields of a league the jobs work with. -/
structure OracleLeague where
  id : String
  platform : String
  platformLeagueID : String
  payoutStructure : List PayoutEntry

/-- A selected league with its rules, unless they cannot be decoded. -/
def OracleLeagueRow.load (l : OracleLeagueRow) : Option OracleLeague :=
  l.payoutJSON.unmarshal.map fun entries => ⟨l.id, l.platform, l.platformLeagueID, entries⟩

/-- `GetLeagueMembers`. The loop ends when the row stream does, whether or not it failed. -/
def getLeagueMembers (leagueID : String) : Go (List LeagueMember) := do
  let stream ← wrapErr "failed to query league members" (query (.leagueMembers leagueID))
  return stream.rows

/-- The map from rosters to members; a later member replaces an earlier one. -/
def memberByRoster (members : List LeagueMember) (rosterID : ℤ) : Option LeagueMember :=
  members.reverse.find? fun m => m.rosterID = rosterID

/-- `cents * 10_000`. -/
def toMicroUSDC (cents : Int64) : Int64 := cents * 10000

/-- The running `int64` sum of the amounts. -/
def sumPayout (amounts : List Int64) : Int64 := amounts.foldl (· + ·) 0

/-! ## Weekly payouts -/

/-- `highScorer`: the first matchup with the highest positive score. -/
def highScorer (matchups : List PlatformMatchup) : List PlatformMatchup :=
  let best := matchups.foldl (fun (best : Option PlatformMatchup) m =>
    if m.points ≤ 0 then best
    else match best with
      | none => some m
      | some b => if b.points < m.points then some m else some b) none
  best.toList

/-- `thresholdScorers`. -/
def thresholdScorers (matchups : List PlatformMatchup) (threshold : ℚ) : List PlatformMatchup :=
  matchups.filter fun m => threshold ≤ m.points

/-- `weeklyQualifiers`. -/
def weeklyQualifiers (matchups : List PlatformMatchup) (entry : PayoutEntry) :
    List PlatformMatchup :=
  if entry.bonusType = "weekly_high_score" then highScorer matchups
  else if entry.bonusType = "score_threshold" then
    match entry.criteria with
    | some (some threshold) => thresholdScorers matchups threshold
    | _ => []
  else []

/-- Record the event of one qualifier, unless it has no member or no wallet. -/
def recordWeeklyEvent (league : OracleLeague) (week : ℤ) (members : List LeagueMember)
    (entry : PayoutEntry) (m : PlatformMatchup) : Go Unit :=
  match memberByRoster members m.rosterID with
  | none => return
  | some member =>
    if member.walletAddress = "" then return
    else do
      let _ ← wrapErr ("failed to record weekly event for roster " ++ toString m.rosterID)
        (exec (.insertWeeklyEvent league.id week m.rosterID member.platformUserID entry.bonusType
          m.points entry.amountCents member.walletAddress))
      return

/-- The events whose wallet resolves, with their addresses. -/
def resolveEvents : List WeeklyEvent → Job (List (WeeklyEvent × Address))
  | [] => return []
  | ev :: events => do
    let addr ← (getAccountEVMAddress ev.walletAddress).run
    let resolved ← resolveEvents events
    match addr with
    | .error _ => return resolved
    | .ok addr => return (ev, addr) :: resolved

/-- Mark the events of a transaction executed; failures are logged only. -/
def markEventsExecuted (txHash : String) (eventIDs : List String) : Job Unit :=
  eventIDs.forM fun id => do
    let _ ← (exec (.markWeeklyEventExecuted id txHash)).run
    return

/-- The second half of `processWeeklyPayoutsForLeague`: pay the resolved events. -/
def payWeeklyEvents (svc : Service) (league : OracleLeague) (events : List WeeklyEvent) :
    Go Unit := do
  let leagueIDBytes ← wrapErr "invalid league ID" (ofResult (uuidToBytes32 league.id))
  let contractEVM ← wrapErr "invalid escrow contract ID"
    (ofResult (hederaAccountToEVM svc.hederaEscrowContractID))
  let resolved ← ExceptT.lift (resolveEvents events)
  if resolved = [] then return
  else
    let recipients := resolved.map Prod.snd
    let amounts := resolved.map fun r => toMicroUSDC r.1.amountCents
    let executedEventIDs := resolved.map fun r => r.1.id
    let escrowBalance ← wrapErr "failed to read escrow balance"
      (readContractPayment contractEVM (.leagueTotals leagueIDBytes))
    if sumPayout amounts > escrowBalance then throw .insufficientEscrow
    else
      let txHash ← wrapErr "on-chain execution failed"
        (executeDistributePayout (.weekly league.id executedEventIDs) leagueIDBytes recipients
          amounts)
      ExceptT.lift (markEventsExecuted txHash executedEventIDs)

/-- `processWeeklyPayoutsForLeague`. -/
def processWeeklyPayoutsForLeague (svc : Service) (league : OracleLeague)
    (entries : List PayoutEntry) (week : ℤ) : Go Unit := do
  let matchups ← wrapErr "failed to fetch matchups"
    (ExceptT.mk (perform (.platformMatchups league.platform league.platformLeagueID week)))
  let activeMatchups := matchups.filter fun m => 0 < m.matchupID
  let members ← wrapErr "failed to load members" (getLeagueMembers league.id)
  entries.forM fun entry =>
    (weeklyQualifiers activeMatchups entry).forM (recordWeeklyEvent league week members entry)
  let stream ← wrapErr "failed to load unexecuted weekly events"
    (query (.unexecutedEvents league.id week))
  if stream.rows = [] then return
  else payWeeklyEvents svc league stream.rows

/-- One round of `RunWeeklyPayoutJob`; failures are logged only. -/
def weeklyRound (svc : Service) (league : OracleLeague) : Job Unit := do
  let weeklyEntries := league.payoutStructure.filter fun e => e.type = "weekly"
  if weeklyEntries = [] then return
  else
    match ← perform (.currentWeek league.platform) with
    | .error _ => return
    | .ok currentWeek =>
      if currentWeek - 1 < 1 then return
      else
        let _ ← (processWeeklyPayoutsForLeague svc league weeklyEntries (currentWeek - 1)).run
        return

/-- `RunWeeklyPayoutJob`. -/
def runWeeklyPayoutJob (svc : Service) : Go Unit := do
  if svc.hederaClient then
    let stream ← wrapErr "failed to load leagues for weekly payout job" (query .weeklyPayoutLeagues)
    ExceptT.lift ((stream.rows.filterMap OracleLeagueRow.load).forM (weeklyRound svc))
  else throw .missingOperatorKey

/-! ## Season-end payouts -/

/-- The external calls of the season-end settlement. -/
structure SeasonEndDeps (m : Type → Type) where
  platformStatus : (platform platformLeagueID : String) → ExceptT GoError m String
  finalStandings : (platform platformLeagueID : String) → ExceptT GoError m (List PlatformStanding)
  loadMembers : (leagueID : String) → ExceptT GoError m (List LeagueMember)
  resolveEVM : (accountID : String) → ExceptT GoError m Address
  escrowBalance : (leagueID : Bytes32) → ExceptT GoError m Int64
  distribute : (leagueID : Bytes32) → List Address → List Int64 → ExceptT GoError m String
  markSettledWithoutPayout : (leagueID : String) → ExceptT GoError m Unit
  claimPayout : (leagueID : String) → ExceptT GoError m Bool
  markPayoutFailed : (leagueID : String) → ExceptT GoError m Unit
  markPayoutExecuted : (leagueID txHash : String) → ExceptT GoError m Bool
  recordMemberPayout : (leagueID : String) → (rosterID place : ℤ) → (amountCents : Int64) →
    (txHash : String) → ExceptT GoError m Unit

/-- A standing that will be paid. -/
structure ResolvedPayout where
  member : LeagueMember
  amountCents : Int64
  place : ℤ
  evmAddr : Address

section Settlement

variable {m : Type → Type} [Monad m] (deps : SeasonEndDeps m)

/-- The map from places to rules; a later rule replaces an earlier one. -/
def placeToEntry (placementEntries : List PayoutEntry) (place : ℤ) : Option PayoutEntry :=
  placementEntries.reverse.find? fun e => e.place = place

/-- One round of the resolution loop, `none` if the standing is skipped. -/
def resolveStanding (placementEntries : List PayoutEntry) (members : List LeagueMember)
    (standing : PlatformStanding) : m (Option ResolvedPayout) :=
  match placeToEntry placementEntries standing.place with
  | none => return none
  | some entry =>
    match memberByRoster members standing.rosterID with
    | none => return none
    | some member =>
      if member.walletAddress = "" then return none
      else do
        match ← (deps.resolveEVM member.walletAddress).run with
        | .error _ => return none
        | .ok addr => return some ⟨member, entry.amountCents, standing.place, addr⟩

/-- The resolution loop. -/
def resolveStandings (placementEntries : List PayoutEntry) (members : List LeagueMember) :
    List PlatformStanding → m (List ResolvedPayout)
  | [] => return []
  | standing :: standings => do
    let head ← resolveStanding deps placementEntries members standing
    let tail ← resolveStandings placementEntries members standings
    return head.toList ++ tail

/-- Record what each member was paid; failures are logged only. -/
def recordMemberPayouts (leagueID txHash : String) (resolved : List ResolvedPayout) : m Unit :=
  resolved.forM fun r => do
    let _ ← (deps.recordMemberPayout leagueID r.member.rosterID r.place r.amountCents txHash).run
    return

/-- The last part of `settleSeasonEnd`: mark the league after the transaction. -/
def finishPayout (leagueID : String) (resolved : List ResolvedPayout) :
    Except GoError String → ExceptT GoError m Unit
  | .error err => do
    let _ ← ExceptT.lift (deps.markPayoutFailed leagueID).run
    throw (.wrap "on-chain execution failed" err)
  | .ok txHash => do
    let updated ← wrapErr "failed to update league payout status"
      (deps.markPayoutExecuted leagueID txHash)
    if updated then ExceptT.lift (recordMemberPayouts deps leagueID txHash resolved)
    else throw (.text "league %s was not in 'executing' when marking tx %s executed"
      [leagueID, txHash])

/-- The middle part of `settleSeasonEnd`: check the escrow, claim the league and pay. -/
def payResolved (leagueID : String) (resolved : List ResolvedPayout) : ExceptT GoError m Unit := do
  let leagueIDBytes ← wrapErr "invalid league ID" (ofResult (uuidToBytes32 leagueID))
  let recipients := resolved.map ResolvedPayout.evmAddr
  let amounts := resolved.map fun r => toMicroUSDC r.amountCents
  let escrowBalance ← wrapErr "failed to read escrow balance" (deps.escrowBalance leagueIDBytes)
  if sumPayout amounts > escrowBalance then throw .insufficientEscrow
  else
    let claimed ← wrapErr "failed to claim league for payout" (deps.claimPayout leagueID)
    if claimed then
      let txHash ← ExceptT.lift (deps.distribute leagueIDBytes recipients amounts).run
      finishPayout deps leagueID resolved txHash
    else return

/-- `settleSeasonEnd`. -/
def settleSeasonEnd (league : OracleLeague) : ExceptT GoError m Unit := do
  let platformStatus ← wrapErr "failed to fetch platform league status"
    (deps.platformStatus league.platform league.platformLeagueID)
  if platformStatus ≠ "complete" then return
  else
    let placementEntries := league.payoutStructure.filter fun e => e.type = "placement"
    if placementEntries = [] then deps.markSettledWithoutPayout league.id
    else
      let standings ← wrapErr "failed to fetch final standings"
        (deps.finalStandings league.platform league.platformLeagueID)
      let members ← wrapErr "failed to load members" (deps.loadMembers league.id)
      let resolved ← ExceptT.lift (resolveStandings deps placementEntries members standings)
      if resolved.isEmpty then deps.markSettledWithoutPayout league.id
      else payResolved deps league.id resolved

end Settlement

/-- `seasonEndDeps`: the dependencies wired to the surroundings. -/
def seasonEndDeps (svc : Service) (purpose : Purpose) : SeasonEndDeps Job where
  platformStatus platform platformLeagueID := do
    let l ← ExceptT.mk (perform (.platformLeague platform platformLeagueID))
    return l.status
  finalStandings platform platformLeagueID :=
    ExceptT.mk (perform (.finalStandings platform platformLeagueID))
  loadMembers := getLeagueMembers
  resolveEVM := getAccountEVMAddress
  escrowBalance leagueID := do
    let contractEVM ← wrapErr "invalid escrow contract ID"
      (ofResult (hederaAccountToEVM svc.hederaEscrowContractID))
    readContractPayment contractEVM (.leagueTotals leagueID)
  distribute := executeDistributePayout purpose
  markSettledWithoutPayout leagueID := do
    let _ ← exec (.markSettledWithoutPayout leagueID)
    return
  claimPayout leagueID := do
    let rowsAffected : ℕ ← exec (.claimPayout leagueID)
    return rowsAffected = 1
  markPayoutFailed leagueID := do
    let _ ← exec (.markPayoutFailed leagueID)
    return
  markPayoutExecuted leagueID txHash := do
    let rowsAffected : ℕ ← exec (.markPayoutExecuted leagueID txHash)
    return rowsAffected = 1
  recordMemberPayout leagueID rosterID place amountCents txHash := do
    let _ ← exec (.recordMemberPayout leagueID rosterID place amountCents txHash)
    return

/-- `processSeasonEndForLeague`. -/
def processSeasonEndForLeague (svc : Service) (league : OracleLeague) : Go Unit :=
  settleSeasonEnd (seasonEndDeps svc (.seasonEnd league.id)) league

/-- `RunSeasonEndPayoutJob`. -/
def runSeasonEndPayoutJob (svc : Service) : Go Unit := do
  if svc.hederaClient then
    let stream ← wrapErr "failed to load leagues for season-end payout job"
      (query .seasonEndLeagues)
    ExceptT.lift ((stream.rows.filterMap OracleLeagueRow.load).forM fun league => do
      let _ ← (processSeasonEndForLeague svc league).run
      return)
  else throw .missingOperatorKey

/-! ## Status refresh -/

/-- `leagueStatusRank`. -/
def leagueStatusRank (status : String) : Option ℕ :=
  [("pre_draft", 0), ("drafting", 1), ("in_season", 2), ("post_season", 2),
    ("complete", 3)].lookup status

/-- `canonicalLeagueStatus`. -/
def canonicalLeagueStatus (status : String) : String :=
  if status = "post_season" ∨ status = "complete" then "in_season" else status

/-- `nextLeagueStatus`: the status to store and whether an update is needed. -/
def nextLeagueStatus (stored platform : String) : String × Bool :=
  let effectiveStored := if stored = "" then "pre_draft" else stored
  match leagueStatusRank effectiveStored with
  | none => (stored, false)
  | some storedRank =>
    if effectiveStored = "post_season" then
      match leagueStatusRank platform with
      | some platformRank =>
        if storedRank ≤ platformRank then ("in_season", true) else (stored, false)
      | none => (stored, false)
    else
      match leagueStatusRank (canonicalLeagueStatus platform) with
      | some targetRank =>
        if targetRank ≤ storedRank then (stored, false)
        else (canonicalLeagueStatus platform, true)
      | none => (stored, false)

/-- `filterCurrentSeasonLeagues`. -/
def filterCurrentSeasonLeagues (leagues : List StatusRefreshLeague)
    (seasonByPlatform : List (String × String)) : List StatusRefreshLeague :=
  leagues.filter fun l => seasonByPlatform.lookup l.platform = some l.season

section Refresh

variable {m : Type → Type} [Monad m]

/-- One round of `refreshLeagueStatuses`: whether the league was updated. -/
def refreshLeagueStatus
    (fetch : (platform platformLeagueID : String) → ExceptT GoError m String)
    (update : (leagueID oldStatus newStatus : String) → ExceptT GoError m Bool)
    (l : StatusRefreshLeague) : m Bool := do
  match ← (fetch l.platform l.platformLeagueID).run with
  | .error _ => return false
  | .ok platformStatus =>
    if (leagueStatusRank platformStatus).isNone then return false
    else if (nextLeagueStatus l.status platformStatus).2 then
      match ← (update l.id l.status (nextLeagueStatus l.status platformStatus).1).run with
      | .error _ => return false
      | .ok changed => return changed
    else return false

/-- `refreshLeagueStatuses`: how many leagues were updated. -/
def refreshLeagueStatuses
    (fetch : (platform platformLeagueID : String) → ExceptT GoError m String)
    (update : (leagueID oldStatus newStatus : String) → ExceptT GoError m Bool) :
    List StatusRefreshLeague → m ℕ
  | [] => return 0
  | l :: leagues => do
    let changed ← refreshLeagueStatus fetch update l
    let updated ← refreshLeagueStatuses fetch update leagues
    return (if changed then 1 else 0) + updated

end Refresh

/-- The loop that looks up each platform's season once; failed lookups are left out. -/
def currentSeasons : List String → Job (List (String × String))
  | [] => return []
  | platform :: platforms => do
    let season ← perform (.currentSeason platform)
    let seasons ← currentSeasons platforms
    match season with
    | .error _ => return seasons
    | .ok season => return (platform, season) :: seasons

/-- The platform lookup of the status refresh. -/
def fetchPlatformStatus (platform platformLeagueID : String) : Go String := do
  let pl ← ExceptT.mk (perform (.platformLeague platform platformLeagueID))
  return pl.status

/-- The conditional update of the status refresh. -/
def updateStatus (leagueID oldStatus newStatus : String) : Go Bool := do
  let rowsAffected : ℕ ← exec (.updateLeagueStatus leagueID oldStatus newStatus)
  return 0 < rowsAffected

/-- `RefreshLeagueStatuses`. -/
def runRefreshLeagueStatuses : Go Unit := do
  let stream ← wrapErr "failed to load leagues for status refresh" (query .statusRefreshLeagues)
  match stream.err with
  | some err => throw (.wrap "failed to iterate league rows" err)
  | none =>
    let seasonByPlatform ← ExceptT.lift
      (currentSeasons (stream.rows.map StatusRefreshLeague.platform).eraseDups)
    let candidates := filterCurrentSeasonLeagues stream.rows seasonByPlatform
    let _ ← ExceptT.lift (refreshLeagueStatuses fetchPlatformStatus updateStatus candidates)
    return

end Wagr
