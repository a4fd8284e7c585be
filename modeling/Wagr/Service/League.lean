import Wagr.Service.Oracle

/-!
# League requests

The requests of `service.go` that change the database: linking a platform account,
importing, deleting and configuring a league, confirming payments and refunds, cancelling
and reactivating.
-/

namespace Wagr

open Interaction

/-- `LinkPlatformRequest`. -/
structure LinkPlatformRequest where
  platform : String
  platformUsername : String
  deriving DecidableEq

/-- `ImportLeagueRequest`. -/
structure ImportLeagueRequest where
  platform : String
  platformLeagueID : String
  deriving DecidableEq

/-- `UpdateSettingsRequest`; the payout structure is `none` if the body has none. -/
structure UpdateSettingsRequest where
  entryFeeCents : Int64
  payoutStructure : Option (List PayoutEntry)
  deriving DecidableEq

/-- `LeagueSettings`. -/
structure LeagueSettings where
  entryFeeCents : Int64
  totalRosters : ℤ
  payoutStructure : List PayoutEntry
  isCommissioner : Bool
  cancelledAt : Option ℕ

/-- `LinkPlatformProfile`. -/
def linkPlatformProfile (userID : String) (req : LinkPlatformRequest) : Go ProfileRow := do
  let platformUser ← wrapErr ("failed to fetch user from " ++ req.platform)
    (ExceptT.mk (perform (.platformUser req.platform req.platformUsername)))
  wrapErr "failed to link platform profile" (exec (.upsertProfile
    { userID := userID
      platform := req.platform
      platformUserID := platformUser.platformUserID
      platformUsername := platformUser.username
      displayName := platformUser.displayName
      avatarURL := platformUser.avatarURL }))

/-- The roster map of `ImportLeague`; a later roster replaces an earlier one. -/
def rosterMap (rosters : List PlatformRoster) (ownerID : String) : Option PlatformRoster :=
  rosters.reverse.find? fun r => r.ownerID = ownerID

/-- The values `ImportLeague` writes for a member. -/
def memberValues (rosters : List PlatformRoster) (pm : PlatformMember) : MemberValues :=
  let roster := rosterMap rosters pm.platformUserID
  { platformUserID := pm.platformUserID
    platformUsername := pm.username
    teamName := pm.teamName
    displayName := pm.displayName
    avatarURL := pm.avatarURL
    isOwner := pm.isOwner
    rosterID := pm.rosterID
    wins := (roster.map PlatformRoster.wins).getD 0
    losses := (roster.map PlatformRoster.losses).getD 0
    ties := (roster.map PlatformRoster.ties).getD 0
    totalPoints := (roster.map PlatformRoster.totalPoints).getD 0 }

/-- `ImportLeague`. -/
def importLeague (req : ImportLeagueRequest) : Go (LeagueRow × List MemberRow) := do
  let platformLeague ← wrapErr ("failed to fetch league from " ++ req.platform)
    (ExceptT.mk (perform (.platformLeague req.platform req.platformLeagueID)))
  let platformMembers ← wrapErr "failed to fetch league members"
    (ExceptT.mk (perform (.platformMembers req.platform req.platformLeagueID)))
  let platformRosters ← wrapErr "failed to fetch league rosters"
    (ExceptT.mk (perform (.platformRosters req.platform req.platformLeagueID)))
  wrapErr "failed to insert league" (exec (.importLeague
    { platform := req.platform
      platformLeagueID := platformLeague.platformLeagueID
      name := platformLeague.name
      sport := platformLeague.sport
      season := platformLeague.season
      status := platformLeague.status
      totalRosters := platformLeague.totalRosters
      scoringType := platformLeague.scoringType }
    (platformMembers.map (memberValues platformRosters))))

/-- `DeleteLeague`. -/
def deleteLeague (leagueID userID : String) : Go Unit := do
  let rowsAffected : ℕ ← wrapErr "failed to remove league membership"
    (exec (.deleteMembership leagueID userID))
  if rowsAffected = 0 then throw (.text "league not found or user is not a member" [])
  else
    let remaining : ℕ ← wrapErr "failed to check remaining members"
      (query (.linkedMembers leagueID))
    if remaining = 0 then
      let _ ← wrapErr "failed to delete league" (exec (.deleteLeague leagueID))
      return
    else return

/-- The check that the user is commissioner; any failure of the query counts as a no. -/
def requireCommissioner (leagueID userID : String) : Go Unit := do
  match ← ExceptT.lift (query (.isCommissioner leagueID userID)).run with
  | .ok (some true) => return
  | _ => throw .notCommissioner

/-- `GetLeagueSettings`. A stored array with an entry that cannot be decoded counts as empty here,
where the code keeps what it has decoded; `UpdateLeagueSettings` never stores one. -/
def getLeagueSettings (leagueID userID : String) : Go LeagueSettings := do
  let row : Option LeagueSettingsRow ← wrapErr "failed to get league settings"
    (query (.leagueSettings leagueID userID))
  match row with
  | none => throw (.wrap "failed to get league settings" (.text "no rows in result set" []))
  | some row => return {
      entryFeeCents := row.entryFeeCents
      totalRosters := row.totalRosters
      payoutStructure := (row.payoutJSON.bind PayoutJSON.unmarshal).getD []
      isCommissioner := row.isCommissioner
      cancelledAt := row.cancelledAt }

/-- `UpdateLeagueSettings` behind its handler, which refuses negative fees. -/
def updateLeagueSettings (leagueID userID : String) (req : UpdateSettingsRequest) :
    Go LeagueSettings := do
  if req.entryFeeCents < 0 then throw (.text "entry_fee_cents must be non-negative" [])
  else
    requireCommissioner leagueID userID
    let _ ← wrapErr "failed to update league settings" (exec (.updateSettings leagueID
      req.entryFeeCents (.marshal req.payoutStructure)))
    getLeagueSettings leagueID userID

/-- `SetPaymentToken`. -/
def setPaymentToken (leagueID userID token : String) : Go Unit := do
  if token ≠ "hbar" ∧ token ≠ "usdc" then
    throw (.text "invalid token: must be 'hbar' or 'usdc'" [])
  else
    let rowsAffected : ℕ ← wrapErr "failed to set payment token"
      (exec (.setPaymentToken leagueID userID token))
    if rowsAffected = 0 then throw .notLeagueMember else return

/-- The instructions for a payment, without the amount as text. -/
structure PaymentInstructions where
  contractID : String
  usdcTokenID : String
  amountUSDC : Int64
  deriving DecidableEq

/-- `InitiatePayment`. -/
def initiatePayment (svc : Service) (leagueID userID : String) : Go PaymentInstructions := do
  let info : Option MemberFee ← wrapErr "failed to fetch member payment info"
    (query (.memberFee leagueID userID))
  match info with
  | none => throw .notLeagueMember
  | some info =>
    if info.paymentStatus = .paid then throw .alreadyPaid
    else return {
      contractID := svc.hederaEscrowContractID
      usdcTokenID := svc.hederaUSDCTokenID
      amountUSDC := toMicroUSDC info.entryFeeCents }

/-- Read `payments` of the escrow for the member's EVM address. -/
def readMemberPayment (svc : Service) (leagueID : String) (evmAddr : Address)
    (message : String) : Go Int64 := do
  let leagueIdBytes ← wrapErr "invalid league ID" (ofResult (uuidToBytes32 leagueID))
  let contractEVM ← wrapErr "invalid contract ID"
    (ofResult (hederaAccountToEVM svc.hederaEscrowContractID))
  wrapErr message (readContractPayment contractEVM (.payments leagueIdBytes evmAddr))

/-- `ConfirmPayment`. -/
def confirmPayment (svc : Service) (leagueID userID transactionID : String) : Go Unit := do
  let info : Option MemberPayment ← wrapErr "failed to fetch member info"
    (query (.memberPayment leagueID userID))
  match info with
  | none => throw .notLeagueMember
  | some info =>
    if info.paymentStatus = .paid then throw .alreadyPaid
    else
      let evmAddr ← wrapErr ("invalid wallet address " ++ info.walletAddress)
        (getAccountEVMAddress info.walletAddress)
      let paid ← readMemberPayment svc leagueID evmAddr "failed to verify on-chain payment"
      if paid < toMicroUSDC info.entryFeeCents then throw .paymentInsufficient
      else
        let _ ← wrapErr "failed to update payment status"
          (exec (.markPaid leagueID userID transactionID))
        return

/-- `CancelLeague`. -/
def cancelLeague (leagueID userID : String) : Go Unit := do
  requireCommissioner leagueID userID
  let rowsAffected : ℕ ← wrapErr "failed to cancel league" (exec (.cancelLeague leagueID))
  if rowsAffected = 0 then throw .leagueAlreadyCancelled else return

/-- `ReactivateLeague`. -/
def reactivateLeague (leagueID userID : String) : Go Unit := do
  requireCommissioner leagueID userID
  let rowsAffected : ℕ ← wrapErr "failed to reactivate league" (exec (.reactivateLeague leagueID))
  if rowsAffected = 0 then throw .leagueNotCancelled
  else
    let _ ← wrapErr "failed to reset refunded members" (exec (.resetRefunded leagueID))
    return

/-- `ConfirmRefund`. -/
def confirmRefund (svc : Service) (leagueID userID transactionID : String) : Go Unit := do
  let info : Option MemberRefund ← wrapErr "failed to fetch member info"
    (query (.memberRefund leagueID userID))
  match info with
  | none => throw .notLeagueMember
  | some info =>
    if info.paymentStatus ≠ .paid then throw .paymentInsufficient
    else if info.cancelledAt = none then throw .leagueNotCancelled
    else
      let evmAddr ← wrapErr ("invalid wallet address " ++ info.walletAddress)
        (getAccountEVMAddress info.walletAddress)
      let onChain ← readMemberPayment svc leagueID evmAddr "failed to verify on-chain refund"
      if onChain ≠ 0 then throw .paymentInsufficient
      else
        let _ ← wrapErr "failed to update refund status"
          (exec (.markRefunded leagueID userID transactionID))
        return

end Wagr
