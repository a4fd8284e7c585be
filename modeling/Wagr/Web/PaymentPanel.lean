import Wagr.Library.Beside
import Wagr.Payments.Agreement

/-!
# The payment panel of a league's page

`LeagueOverview.tsx` lets a member pay the entry fee, and claim it back once the league is
cancelled. A handler of the panel waits for the server, the wallet or the mirror node; when one of
them answers, it runs up to where it waits again. The transaction that the wallet reports is kept
in `localStorage`, so that it can still be confirmed after the page was loaded anew. A handler goes
on if the page is left for another one of the same document: it can no longer change what the page
shows, but it can change what is stored.

The wallet is a Hedera wallet, as the panel refuses all others before it asks anybody, and a
response of `/pay` with success carries instructions that can be decoded.
-/

namespace Wagr

open Interaction System

/-- `LeagueDetail`. -/
structure LeagueDetail where
  league : League
  members : List LeagueMember

/-- What a handler of the panel waits for. -/
inductive Waiting
  /-- The response to `/pay`. -/
  | instructions
  /-- The answer of the wallet. -/
  | wallet
  /-- The reason the mirror node gives for a revert, and the wallet's message. -/
  | revertReason (message : String)
  /-- The response to an attempt at confirming a transaction. -/
  | attempt (transactionID : String) (n : ℕ)
  deriving DecidableEq

/-- What a handler of the panel is answered. -/
inductive HandlerAnswer
  | instructed (res : Fetch)
  | wallet (res : Except String String)
  | reverted (reason : Option String)
  | attempted (res : Fetch)

/-- What a handler does until it waits again or returns. -/
inductive Segment
  | waits (w : Waiting)
  /-- It stores the transaction and makes the first attempt at confirming it. -/
  | stores (transactionID : String)
  /-- It has confirmed the transaction. -/
  | confirms (transactionID : String)
  | fails (error : PageError)

/-- A string that counts as true. -/
def truthy (s : Option String) : Option String := s.filter (· ≠ "")

/-- `String.prototype.includes`. -/
def includes (message part : String) : Bool := decide (part.toList <:+: message.toList)

/-- `/transaction ([\d.@]+)/` matches the message. -/
def hasTransaction (message : String) : Bool :=
  (List.range 10).any (fun digit => includes message ("transaction " ++ toString digit)) ||
    includes message "transaction ." || includes message "transaction @"

/-- What a response without success makes a handler throw. -/
def HTTPResponse.pageError (res : HTTPResponse) (failed : String) : PageError :=
  match res.body with
  | .message "" => .text (failed ++ " (" ++ toString res.status ++ ")")
  | body => .body body

namespace ConfirmKind

/-- What the loop makes of the response to its last attempt. -/
def conclude (k : ConfirmKind) (x : Fetch) : Except PageError Unit := k.loop fun _ => x

/-- How a handler ends after its last attempt. -/
def ending (transactionID : String) : Except PageError Unit → Segment
  | .ok () => .confirms transactionID
  | .error err => .fails err

/-- `handlePay` and `handleClaimRefund` after an answer. The two differ in that only a refund that
is reverted is looked up. -/
def proceed (k : ConfirmKind) : Waiting → HandlerAnswer → Option Segment
  | .instructions, .instructed (.error message) => some (.fails (.text message))
  | .instructions, .instructed (.ok res) =>
    if res.status = 409 then some (.fails (.text "Entry fee already paid"))
    else if res.ok then some (.waits .wallet)
    else some (.fails (res.pageError "Failed to initiate payment"))
  | .wallet, .wallet (.ok transactionID) => some (.stores transactionID)
  | .wallet, .wallet (.error message) =>
    if includes message.toLower "reject" || includes message.toLower "cancel" then
      some (.fails (.text "Transaction rejected in HashPack"))
    else if k = .refund && includes message "CONTRACT_REVERT_EXECUTED" &&
      hasTransaction message then
      some (.waits (.revertReason message))
    else some (.fails (.text ("HashPack transaction failed: " ++ message)))
  | .revertReason message, .reverted reason =>
    match truthy reason with
    | some reason => some (.fails (.text ("Contract reverted: \"" ++ reason ++ "\"")))
    | none => some (.fails (.text ("HashPack transaction failed: " ++ message)))
  | .attempt transactionID n, .attempted x =>
    match x with
    | .ok ⟨402, body⟩ =>
      if n < maxAttempts then some (.waits (.attempt transactionID (n + 1)))
      else some (ending transactionID (k.conclude (.ok ⟨402, body⟩)))
    | x => some (ending transactionID (k.conclude x))
  | _, _ => none

end ConfirmKind

/-- The state the page keeps about payments, or about refunds. -/
structure Panel where
  pendingTxID : Option String
  error : Option PageError
  /-- The handler that is running, if the page is loading. -/
  running : Option Waiting

/-- A panel no handler of which is running. -/
def Panel.idle (pendingTxID : Option String) : Panel := ⟨pendingTxID, none, none⟩

/-- The page of a league, and what the document keeps for it. -/
structure LeagueOverview where
  /-- The items `wagr_pending_tx_…` and `wagr_pending_refund_…`. -/
  localStorage : ConfirmKind → Option String
  /-- The handlers of a page that was left. -/
  detached : List (ConfirmKind × Waiting)
  walletConnected : Bool
  detail : Option LeagueDetail
  notMember : Bool
  error : Option PageError
  panel : ConfirmKind → Panel

/-- What happens on the page. -/
inductive PageEvent
  /-- The page is opened, in a document that is loaded anew or in the one it was left in. -/
  | opened (reloaded : Bool)
  | fetched (detailRes settingsRes : Fetch)
  | walletChanged (connected : Bool)
  /-- "Pay Entry Fee" or "Claim Refund". -/
  | send (k : ConfirmKind)
  /-- "Confirm Existing Payment" or "Confirm Existing Refund". -/
  | retryConfirm (k : ConfirmKind)
  /-- "Try New Transaction". -/
  | dismissPendingRefund
  | answered (k : ConfirmKind) (x : HandlerAnswer)
  | answeredDetached (i : ℕ) (x : HandlerAnswer)
  /-- The response to the commissioner's request, at some time. -/
  | cancelResponded (res : Fetch) (now : ℕ)
  | reactivateResponded (res : Fetch)

/-- What `fetchAll` makes of the responses: the league, none to somebody who is no member. -/
def fetchAll : Fetch → Fetch → Except PageError (Option LeagueDetail)
  | .error message, _ => .error (.text message)
  | _, .error message => .error (.text message)
  | .ok detailRes, .ok settingsRes =>
    if detailRes.status = 403 then .ok none
    else if ¬ detailRes.ok then
      .error (.text ("Failed to load league (" ++ toString detailRes.status ++ ")"))
    else if ¬ settingsRes.ok then
      .error (.text ("Failed to load settings (" ++ toString settingsRes.status ++ ")"))
    else
      match detailRes.body with
      | .league league members => .ok (some ⟨league, members⟩)
      | body => .error (.body body)

namespace LeagueOverview

/-- A step changes one panel. -/
def setPanel (p : LeagueOverview) (k : ConfirmKind) (panel : Panel) : LeagueOverview :=
  { p with panel := Function.update p.panel k panel }

/-- A step changes one item of the storage. -/
def store (p : LeagueOverview) (k : ConfirmKind) (item : Option String) : LeagueOverview :=
  { p with localStorage := Function.update p.localStorage k item }

section Fields

variable (p : LeagueOverview) (k k' : ConfirmKind) (panel : Panel) (item : Option String)

@[simp] theorem setPanel_localStorage : (p.setPanel k panel).localStorage = p.localStorage := rfl

@[simp] theorem setPanel_detached : (p.setPanel k panel).detached = p.detached := rfl

@[simp] theorem setPanel_self : (p.setPanel k panel).panel k = panel := Function.update_self ..

@[simp] theorem store_panel : (p.store k item).panel = p.panel := rfl

@[simp] theorem store_detached : (p.store k item).detached = p.detached := rfl

@[simp] theorem store_self : (p.store k item).localStorage k = item := Function.update_self ..

variable {k k'}

@[simp] theorem setPanel_of_ne (hne : k' ≠ k) : (p.setPanel k panel).panel k' = p.panel k' :=
  Function.update_of_ne hne ..

@[simp] theorem store_of_ne (hne : k' ≠ k) :
    (p.store k item).localStorage k' = p.localStorage k' :=
  Function.update_of_ne hne ..

end Fields

/-- The handlers that are running. -/
def runningHandlers (p : LeagueOverview) : List (ConfirmKind × Waiting) :=
  [ConfirmKind.payment, .refund].filterMap fun k => (p.panel k).running.map fun w => (k, w)

/-- The page is opened. The pending transactions are read from the storage. -/
def opened (p : LeagueOverview) (reloaded : Bool) : LeagueOverview where
  localStorage := p.localStorage
  detached := if reloaded then [] else p.detached ++ p.runningHandlers
  walletConnected := !reloaded && p.walletConnected
  detail := none
  notMember := false
  error := none
  panel k := .idle (p.localStorage k)

/-- The page has fetched the league. -/
def fetched (p : LeagueOverview) : Except PageError (Option LeagueDetail) → LeagueOverview
  | .ok none => { p with notMember := true }
  | .ok (some detail) => { p with detail := some detail }
  | .error err => { p with error := some err }

/-- `myMember`, on a page that shows the league. -/
def myMember (userID : String) (p : LeagueOverview) : Option (League × LeagueMember) :=
  if p.error.isSome || p.notMember then none
  else p.detail.bind fun detail =>
    (detail.members.find? fun m => m.userID = some userID).map fun m => (detail.league, m)

/-- What the panel lets the member do: pay, claim a refund, or neither. -/
def offers (userID : String) (p : LeagueOverview) (k : ConfirmKind) : Bool :=
  match p.myMember userID with
  | none => false
  | some (league, m) =>
    match k with
    | .payment => m.paymentStatus = .unpaid && league.cancelledAt.isNone
    | .refund => m.paymentStatus = .paid && league.cancelledAt.isSome

/-- The button that asks the wallet for a transaction is shown and enabled. -/
def maySend (userID : String) (p : LeagueOverview) (k : ConfirmKind) : Bool :=
  p.offers userID k && (truthy (p.panel k).pendingTxID).isNone && (p.panel k).running.isNone &&
    p.walletConnected &&
    (k = .refund || (p.myMember userID).any fun (_, m) => m.walletAddress ≠ "")

/-- The buttons for the pending transaction are shown and enabled. -/
def mayRetry (userID : String) (p : LeagueOverview) (k : ConfirmKind) : Bool :=
  p.offers userID k && (truthy (p.panel k).pendingTxID).isSome && (p.panel k).running.isNone

/-- `handlePay` and `handleClaimRefund` until they wait. -/
def send (contractID : Option String) (p : LeagueOverview) (k : ConfirmKind) : LeagueOverview :=
  match k with
  | .payment => p.setPanel k ⟨(p.panel k).pendingTxID, none, some .instructions⟩
  | .refund =>
    match truthy contractID with
    | none => p.setPanel k
        { p.panel k with error := some (.text "Contract ID not configured") }
    | some _ => p.setPanel k ⟨(p.panel k).pendingTxID, none, some .wallet⟩

/-- `handleRetryConfirm` and `handleRetryRefundConfirm` until they wait. -/
def retryConfirm (p : LeagueOverview) (k : ConfirmKind) : LeagueOverview :=
  p.setPanel k ⟨(p.panel k).pendingTxID, none,
    (p.panel k).pendingTxID.map fun transactionID => .attempt transactionID 1⟩

/-- `handleDismissPendingRefund`. -/
def dismissPendingRefund (p : LeagueOverview) : LeagueOverview :=
  (p.store .refund none).setPanel .refund ⟨none, none, (p.panel .refund).running⟩

/-- `markLocalPaid` and `markLocalRefunded`, and the end of the handler. -/
def markLocal (userID : String) (p : LeagueOverview) (k : ConfirmKind) (transactionID : String) :
    LeagueOverview :=
  { (p.store k none).setPanel k ⟨none, (p.panel k).error, none⟩ with
    detail := p.detail.map fun detail =>
      { detail with
        members := detail.members.map fun m =>
          if m.userID = some userID then
            { m with paymentStatus := k.status, transactionHash := some transactionID }
          else m } }

/-- The running handler does a segment. -/
def proceed (userID : String) (p : LeagueOverview) (k : ConfirmKind) : Segment → LeagueOverview
  | .waits w => p.setPanel k { p.panel k with running := some w }
  | .stores transactionID => (p.store k (some transactionID)).setPanel k
      ⟨some transactionID, (p.panel k).error, some (.attempt transactionID 1)⟩
  | .confirms transactionID => p.markLocal userID k transactionID
  | .fails err => p.setPanel k ⟨(p.panel k).pendingTxID, some err, none⟩

/-- A handler of a page that was left does a segment. -/
def proceedDetached (p : LeagueOverview) (i : ℕ) (k : ConfirmKind) : Segment → LeagueOverview
  | .waits w => { p with detached := p.detached.set i (k, w) }
  | .stores transactionID => { p.store k (some transactionID) with
      detached := p.detached.set i (k, .attempt transactionID 1) }
  | .confirms _ => { p.store k none with detached := p.detached.eraseIdx i }
  | .fails _ => { p with detached := p.detached.eraseIdx i }

/-- What `handleCancelLeague` makes of the response. -/
def cancelResponded (p : LeagueOverview) (now : ℕ) : Fetch → LeagueOverview
  | .error message => { p with error := some (.text message) }
  | .ok res =>
    if res.ok then
      { p with detail := p.detail.map fun detail =>
          { detail with league := { detail.league with cancelledAt := some now } } }
    else { p with error := some (res.pageError "Failed to cancel league") }

/-- What `handleReactivateLeague` makes of the response. -/
def reactivateResponded (p : LeagueOverview) : Fetch → LeagueOverview
  | .error message => { p with error := some (.text message) }
  | .ok res =>
    if res.ok then
      { p with detail := p.detail.map fun detail =>
          { detail with
            league := { detail.league with cancelledAt := none }
            members := detail.members.map fun m =>
              if m.paymentStatus = .refunded then
                { m with paymentStatus := .unpaid, transactionHash := none }
              else m } }
    else { p with error := some (res.pageError "Failed to reactivate league") }

/-- The page after an event. -/
def step (userID : String) (contractID : Option String) (p : LeagueOverview) :
    PageEvent → Option LeagueOverview
  | .opened reloaded => some (p.opened reloaded)
  | .fetched detailRes settingsRes => some (p.fetched (fetchAll detailRes settingsRes))
  | .walletChanged connected => some { p with walletConnected := connected }
  | .send k => if p.maySend userID k then some (p.send contractID k) else none
  | .retryConfirm k => if p.mayRetry userID k then some (p.retryConfirm k) else none
  | .dismissPendingRefund =>
    if p.mayRetry userID .refund then some p.dismissPendingRefund else none
  | .answered k x =>
    ((p.panel k).running.bind fun w => k.proceed w x).map (p.proceed userID k)
  | .answeredDetached i x =>
    p.detached[i]?.bind fun (k, w) => (k.proceed w x).map (p.proceedDetached i k)
  | .cancelResponded res now => some (p.cancelResponded now res)
  | .reactivateResponded res => some (p.reactivateResponded res)

end LeagueOverview

/-! ## The attempts -/

namespace ConfirmKind

variable {k : ConfirmKind} {transactionID : String} {fetch : ℕ → Fetch}

/-- A handler that waits for attempt `n` is answered with the responses one after the other. -/
def respondAll (k : ConfirmKind) (transactionID : String) (fetch : ℕ → Fetch) (n : ℕ) :
    (remaining : ℕ) → Option Segment
  | 0 => k.proceed (.attempt transactionID n) (.attempted (fetch n))
  | remaining + 1 =>
    match k.proceed (.attempt transactionID n) (.attempted (fetch n)) with
    | some (.waits _) => respondAll k transactionID fetch (n + 1) remaining
    | segment => segment

/-- The attempts of a loop end with the response to the last one. -/
theorem fetchWithRetry_lastAttempt (fetch : ℕ → Fetch) :
    fetchWithRetry fetch none 1 maxAttempts =
      match fetch (lastAttempt fetch) with
      | .ok res => .ok (some res)
      | .error message => .error (.text message) :=
  fetchWithRetry_eq fetch none 1 7

/-- A loop ends as its last response makes it end. -/
theorem loop_eq_conclude : k.loop fetch = k.conclude (fetch (lastAttempt fetch)) := by
  have hsame : ∀ notFound failed : String, confirmWithRetry notFound failed fetch =
      confirmWithRetry notFound failed fun _ => fetch (lastAttempt fetch) := by
    intro notFound failed
    rw [confirmWithRetry, confirmWithRetry, fetchWithRetry_lastAttempt fetch,
      fetchWithRetry_lastAttempt]
  cases k with
  | payment => exact hsame _ _
  | refund => exact hsame _ _

/-- An attempt that is not the last one and is answered with 402 is followed by the next one. -/
theorem proceed_of_pending {n : ℕ} {res : HTTPResponse} (hn : n < maxAttempts)
    (hres : res.status = 402) : k.proceed (.attempt transactionID n) (.attempted (.ok res)) =
      some (.waits (.attempt transactionID (n + 1))) := by
  obtain ⟨status, body⟩ := res
  obtain rfl : status = 402 := hres
  simp only [proceed]
  rw [if_pos hn]

/-- Any other response ends the handler. -/
theorem proceed_of_last {n : ℕ} {x : Fetch}
    (hx : n < maxAttempts → ∀ res, x = .ok res → res.status ≠ 402) :
    k.proceed (.attempt transactionID n) (.attempted x) =
      some (ending transactionID (k.conclude x)) := by
  simp only [proceed]
  split
  · rename_i body
    rw [if_neg fun hn => hx hn _ rfl rfl]
  · rfl

/-- A handler ends with the first response that is not 402, or else with the last one. -/
theorem respondAll_eq {n remaining : ℕ} (hn : n + remaining = maxAttempts) :
    k.respondAll transactionID fetch n remaining =
      some (ending transactionID (k.conclude (fetch
        (((List.range' n remaining).find? fun n =>
          match fetch n with
          | .ok res => res.status ≠ 402
          | .error _ => true).getD maxAttempts)))) := by
  induction remaining generalizing n with
  | zero =>
    obtain rfl := hn
    exact proceed_of_last fun hn => absurd hn (by omega)
  | succ remaining ih =>
    rw [respondAll, List.range'_succ, List.find?_cons]
    cases hfetch : fetch n with
    | error message =>
      rw [proceed_of_last (x := .error message) nofun]
      simp only [Option.getD_some, hfetch]
      cases k.conclude (.error message) <;> rfl
    | ok res =>
      by_cases hres : res.status = 402
      · rw [proceed_of_pending (by omega) hres]
        simp only [hres, ne_eq, not_true_eq_false, decide_false]
        exact ih (by omega)
      · rw [proceed_of_last fun _ res' heq => Except.ok.inj heq ▸ hres]
        simp only [hres, ne_eq, not_false_eq_true, decide_true, Option.getD_some, hfetch]
        cases k.conclude (.ok res) <;> rfl

/-- The handler makes the attempts of the loop and ends as the loop does. -/
theorem respondAll_eq_loop : k.respondAll transactionID fetch 1 (maxAttempts - 1) =
    some (ending transactionID (k.loop fetch)) := by
  rw [loop_eq_conclude]
  exact respondAll_eq rfl

end ConfirmKind

end Wagr
