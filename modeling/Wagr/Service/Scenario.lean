import Wagr.Service.World
import Wagr.Library.Replay

/-!
# Schedules of the backend

Concrete runs are given as schedules. Queries are evaluated in storage order, statements
are executed or reported as failed, and the network answers truthfully or not at all.
Everything a schedule computes is a run of the backend.
-/

namespace Wagr

open Interaction System

/-- A stream of all rows. -/
def RowStream.all {α : Type} (rows : List α) : RowStream α := ⟨rows, none⟩

/-- A stream of all rows delivers them. -/
theorem RowStream.all_delivers {α : Type} {rows all : List α} {sorted : List α → Prop}
    (hperm : rows.Perm all) (hsorted : sorted rows) : (RowStream.all rows).Delivers all sorted :=
  ⟨rows, hperm, hsorted, List.prefix_rfl, fun _ => rfl⟩

/-- A sorted stream delivers its rows in their order. -/
theorem RowStream.sorted_delivers {α β : Type} [LinearOrder β] (key : α → β) (rows : List α) :
    (RowStream.all (rows.insertionSort fun x y => key x ≤ key y)).Delivers rows
      fun order => order.Pairwise fun x y => key x ≤ key y := by
  have htotal : Std.Total fun x y : α => key x ≤ key y := ⟨fun x y => le_total (key x) (key y)⟩
  have htrans : IsTrans α fun x y => key x ≤ key y := ⟨fun _ _ _ => le_trans⟩
  exact all_delivers (List.perm_insertionSort _ _) (List.pairwise_insertionSort _ _)

/-- Some row of a list is one of them. -/
theorem oneOf_head? {α : Type} (rows : List α) : OneOf rows rows.head? := by
  cases rows with
  | nil => rfl
  | cons r rows => exact List.mem_cons_self

/-- An answer to a query, with the rows in storage order unless the query sorts them. -/
def Query.eval (db : Database) : (q : Query) → Option q.Answer
  | .weeklyPayoutLeagues =>
    let candidates := db.leagues.rows.filter LeagueRow.mayPayWeekly
    if ∀ l ∈ candidates, (l.oracleRow.payoutJSON.arrayLength?).isSome then
      some (RowStream.all ((candidates.filter fun l =>
        0 < l.oracleRow.payoutJSON.arrayLength?.getD 0).map LeagueRow.oracleRow))
    else none
  | .seasonEndLeagues =>
    some (RowStream.all ((db.leagues.rows.filter fun l => l.status = some "in_season" &&
      l.payoutStatus = .pending && l.cancelledAt.isNone).map LeagueRow.oracleRow))
  | .statusRefreshLeagues =>
    some (RowStream.all ((db.leagues.rows.filter LeagueRow.needsRefresh).map fun l =>
      ⟨l.id, l.platform, l.platformLeagueID, l.season, l.status.getD ""⟩))
  | .leagueMembers leagueID =>
    some (RowStream.all (((db.members.rows.filter fun m => m.leagueID = leagueID).flatMap
      db.memberRows).insertionSort fun m m' => m.rosterID ≤ m'.rosterID))
  | .unexecutedEvents leagueID week => some (RowStream.all (db.unexecutedEvents leagueID week))
  | .isCommissioner leagueID userID =>
    some (if db.userMemberships leagueID userID = [] then none
      else some (db.ownsMembership leagueID userID))
  | .memberFee leagueID userID => some (db.memberFees leagueID userID).head?
  | .memberPayment leagueID userID => some (db.memberPayments leagueID userID).head?
  | .memberRefund leagueID userID => some (db.memberRefunds leagueID userID).head?
  | .linkedMembers leagueID =>
    some ((db.members.rows.filter fun m => m.leagueID = leagueID).flatMap fun m =>
      db.profiles.rows.filter m.joins).length
  | .leagueSettings leagueID userID =>
    some ((db.leagues.lookup leagueID).map fun l =>
      ⟨l.entryFeeCents, l.totalRosters, l.payoutStructure, db.ownsMembership leagueID userID,
        l.cancelledAt⟩)
  | .userByWallet walletAddress => some (db.users.lookup walletAddress)
  | .userLeagues userID =>
    some (RowStream.all ((db.userLeagues userID).insertionSort fun l l' =>
      l'.league.createdAt ≤ l.league.createdAt))
  | .league leagueID => some (db.leagues.lookup leagueID)
  | .isMember leagueID userID => some (decide (db.userMemberships leagueID userID ≠ []))

/-- An evaluated query is answered truthfully. -/
theorem Query.eval_answers {db : Database} {q : Query} {r : q.Answer}
    (h : q.eval db = some r) : q.Answers db r := by
  cases q with
  | weeklyPayoutLeagues =>
    simp only [eval] at h
    split at h
    · rename_i harrays
      cases h
      exact ⟨harrays, RowStream.all_delivers (.refl _) trivial⟩
    · cases h
  | seasonEndLeagues | statusRefreshLeagues | unexecutedEvents =>
    cases h
    exact RowStream.all_delivers (.refl _) trivial
  | leagueMembers leagueID =>
    cases h
    exact RowStream.sorted_delivers LeagueMember.rosterID _
  | userLeagues userID =>
    cases h
    -- the newest league comes first
    exact RowStream.sorted_delivers
      (fun l : UserLeagueRow => OrderDual.toDual l.league.createdAt) _
  | memberFee | memberPayment | memberRefund =>
    cases h
    exact oneOf_head? _
  | isCommissioner | linkedMembers | leagueSettings | userByWallet | league | isMember =>
    cases h
    rfl

/-- How a schedule answers a call. -/
inductive Decision
  /-- The call succeeds; `now` and `fresh` are the time and the random string it uses. -/
  | succeed (now : ℕ) (fresh : String)
  /-- The call reports an error; a statement stays in flight, a transaction was received. -/
  | fail
  /-- The platform or the mirror node answers. -/
  | reply (c : Call) (r : Ret c)

namespace World

variable (w : World)

/-- The answer of a call that succeeds. -/
def succeed (now : ℕ) (fresh : String) : (c : Call) → Option (Ret c × World)
  | .exec s =>
    if fresh ∈ w.issued then none
    else (s.run now fresh w.db).map fun (r, db) =>
      (.ok r, { w with db := db, issued := fresh :: w.issued })
  | .query q => (q.eval w.db).map fun r => (.ok r, w)
  | .contractExecute purpose leagueID recipients amounts =>
    some (.ok ⟨w.submissions.length, fresh⟩, w.submit purpose leagueID recipients amounts)
  | .getReceipt resp =>
    match w.submissions[resp.index]?.map Submission.outcome with
    | some .succeeded => some (.ok .success, w)
    | some .reverted => some (.ok (.failure "CONTRACT_REVERT_EXECUTED"), w)
    | _ => none
  | .generateNonce =>
    if fresh ∈ w.nonces then none else some (.ok fresh, { w with nonces := fresh :: w.nonces })
  | _ => none

/-- The error of a call that fails. -/
def timeout : GoError := .text "context deadline exceeded" []

/-- The answer of a call that fails. -/
def fail : (c : Call) → Option (Ret c × World)
  | .exec s => some (.error timeout, { w with inFlight := w.inFlight ++ [s] })
  | .query _ => some (.error timeout, w)
  | .contractExecute purpose leagueID recipients amounts =>
    some (.error timeout, w.submit purpose leagueID recipients amounts)
  | .getReceipt _ => some (.error timeout, w)
  | .generateNonce => some (.error timeout, w)
  | _ => none

/-- An answer of the platform or the mirror node. -/
def reply : (c : Call) → Ret c → Option World
  | .exec _, _ => none
  | .query _, _ => none
  | .contractExecute _ _ _ _, _ => none
  | .getReceipt _, _ => none
  | .generateNonce, _ => none
  | _, _ => some w

/-- The answer a schedule chooses. -/
def respond (d : Decision) (w : World) (c : Call) : Option (Ret c × World) :=
  match d with
  | .succeed now fresh => w.succeed now fresh c
  | .fail => w.fail c
  | .reply c' r => if h : c' = c then (w.reply c' r).map fun w' => (h ▸ r, w') else none

variable {w} {w' : World} {c : Call} {r : Ret c}

/-- A call that succeeds is handled by the world. -/
theorem succeed_handles {now : ℕ} {fresh : String} (h : w.succeed now fresh c = some (r, w')) :
    w.handles c r w' := by
  cases c with
  | exec s =>
    simp only [succeed] at h
    split at h
    · cases h
    · rename_i hfresh
      obtain ⟨⟨r', db⟩, hrun, heq⟩ := Option.map_eq_some_iff.mp h
      cases heq
      exact ⟨now, fresh, db, hfresh, hrun, rfl⟩
  | query q =>
    obtain ⟨r', hr', heq⟩ := Option.map_eq_some_iff.mp h
    cases heq
    exact ⟨rfl, Query.eval_answers hr'⟩
  | contractExecute purpose leagueID recipients amounts =>
    cases h
    exact ⟨rfl, rfl⟩
  | getReceipt resp =>
    simp only [succeed] at h
    split at h
    · rename_i houtcome
      cases h
      exact ⟨rfl, houtcome⟩
    · rename_i houtcome
      cases h
      exact ⟨rfl, houtcome⟩
    · cases h
  | generateNonce =>
    simp only [succeed] at h
    split at h
    · cases h
    · rename_i hfresh
      cases h
      exact ⟨hfresh, rfl⟩
  | _ => cases h

/-- A call that fails is handled by the world. -/
theorem fail_handles (h : w.fail c = some (r, w')) : w.handles c r w' := by
  cases c with
  | exec s =>
    cases h
    rfl
  | query q =>
    cases h
    exact ⟨rfl, trivial⟩
  | contractExecute purpose leagueID recipients amounts =>
    cases h
    exact .inr rfl
  | getReceipt resp =>
    cases h
    exact ⟨rfl, trivial⟩
  | generateNonce =>
    cases h
    rfl
  | _ => cases h

/-- An answer of the platform or the mirror node is handled by the world. -/
theorem reply_handles (h : w.reply c r = some w') : w.handles c r w' := by
  cases c with
  | exec | query | contractExecute | getReceipt | generateNonce => cases h
  | _ =>
    cases h
    rfl

/-- Every chosen answer is handled by the world. -/
theorem respond_handles {d : Decision} (h : respond d w c = some (r, w')) : w.handles c r w' := by
  cases d with
  | succeed now fresh => exact succeed_handles h
  | fail => exact fail_handles h
  | reply c' r' =>
    simp only [respond] at h
    split at h
    · rename_i hc
      subst hc
      obtain ⟨w'', hw, heq⟩ := Option.map_eq_some_iff.mp h
      cases heq
      exact reply_handles hw
    · cases h

end World

/-- A schedule of the backend. -/
abbrev Schedule := List (Move Request Activity Decision)

/-- A league of the platform. -/
def PlatformLeague.mock (status : String) : PlatformLeague where
  platformLeagueID := "7"
  name := "league"
  sport := "nfl"
  season := "2024"
  status := status
  totalRosters := 2
  scoringType := "ppr"

/-- An account of the platform. -/
def PlatformUser.mock (platformUserID : String) : PlatformUser where
  platformUserID := platformUserID
  username := platformUserID
  displayName := platformUserID
  avatarURL := ""

/-- A member of a platform league. -/
def PlatformMember.mock (platformUserID : String) (rosterID : ℤ) (isOwner : Bool) :
    PlatformMember where
  platformUserID := platformUserID
  username := platformUserID
  displayName := platformUserID
  avatarURL := ""
  isOwner := isOwner
  rosterID := rosterID
  teamName := ""

/-- A configured service. -/
def Service.mock : Service := ⟨"0.0.5", "0.0.6", true⟩

/-- Signatures that consist of the key and the end of the message. -/
def Crypto.mock : Crypto where
  decompressPubkey := some
  keccak256 := id
  ecdsaVerify := fun _ _ _ _ => false
  ed25519Verify := fun pubKey message sig => sig = pubKey ++ message.reverse.take 32

namespace Schedule

/-- Thread `i` asks for a nonce, which creates the user. -/
def signUp (i : ℕ) (walletAddress nonce userID : String) : Schedule :=
  [.spawn (.getOrCreateNonce walletAddress "hedera"), .call i (.succeed 0 nonce),
    .call i (.succeed 0 userID)]

/-- The key of the wallets in the schedules. -/
def publicKey : HederaKeyInfo :=
  ⟨"00000000000000000000000000000000000000000000000000000000000000ff", "ED25519"⟩

/-- Thread `i` verifies a signature up to the statement that replaces the nonce, which is next. -/
def verify (i : ℕ) (req : VerifyRequest) (nonce : String) : Schedule :=
  [.spawn (.verifySignature req), .call i (.succeed 0 ""),
    .call i (.reply (.mirrorKey req.walletAddress) (.ok publicKey)), .call i (.succeed 0 nonce)]

/-- Thread `i` links a platform account to a user. -/
def link (i : ℕ) (userID platform : String) (user : PlatformUser) (fresh : String) : Schedule :=
  [.spawn (.linkPlatformProfile userID ⟨platform, user.username⟩),
    .call i (.reply (.platformUser platform user.username) (.ok user)),
    .call i (.succeed 0 fresh)]

/-- Thread `i` imports a league up to its statement. -/
def prepareImport (i : ℕ) (userID platform : String) (league : PlatformLeague)
    (members : List PlatformMember) : Schedule :=
  [.spawn (.importLeague userID ⟨platform, league.platformLeagueID⟩),
    .call i (.reply (.platformLeague platform league.platformLeagueID) (.ok league)),
    .call i (.reply (.platformMembers platform league.platformLeagueID) (.ok members)),
    .call i (.reply (.platformRosters platform league.platformLeagueID) (.ok []))]

/-- Thread `i` imports a league. -/
def importLeague (i : ℕ) (userID platform : String) (league : PlatformLeague)
    (members : List PlatformMember) (fresh : String) : Schedule :=
  prepareImport i userID platform league members ++ [.call i (.succeed 0 fresh)]

/-- Thread `i` makes calls that succeed. -/
def proceed (i now : ℕ) (fresh : List String) : Schedule :=
  fresh.map fun f => .call i (.succeed now f)

/-- The ID of the league in the schedules. -/
def leagueID : String := "00000000-0000-0000-0000-000000000001"

/-- Its key on the chain. -/
def leagueKey : Bytes32 := 1 <<< 128

/-- A rule that pays one dollar to the first place. -/
def firstPlace : PayoutEntry where
  type := "placement"
  bonusType := ""
  label := "champion"
  place := 1
  amountCents := 100
  weeks := 0
  criteria := none

/-- A rule that pays one dollar to the best team of a week. -/
def highScore : PayoutEntry where
  type := "weekly"
  bonusType := "weekly_high_score"
  label := "high score"
  place := 0
  amountCents := 100
  weeks := 0
  criteria := none

/-- One dollar in micro-USDC. -/
def dollar : UInt256 := ⟨1000000, by decide⟩

/-- The first four threads create a commissioner, who is the only member of an imported league
with one rule; then the member pays one dollar. -/
def fundedLeague (rule : PayoutEntry) : Schedule :=
  signUp 0 "0.0.9" "n1" "u1" ++ link 1 "u1" "sleeper" (.mock "p1") "f1" ++
    importLeague 2 "u1" "sleeper" (.mock "in_season") [.mock "p1" 1 true] leagueID ++
    [.spawn (.updateLeagueSettings leagueID "u1" ⟨100, some [rule]⟩), .call 3 (.succeed 0 ""),
      .call 3 (.succeed 0 "f2"), .call 3 (.succeed 0 ""),
      .env (.payEntryFee 9 leagueKey dollar)]

/-- What the mirror node reports for a pool of one dollar. -/
def oneDollar : String := "00000000000000000000000000000000000000000000000000000000000f4240"

/-- Thread `i` cancels the league at time 7. -/
def cancel (i : ℕ) (fresh : String) : Schedule :=
  [.spawn (.cancelLeague leagueID "u1"), .call i (.succeed 0 ""), .call i (.succeed 7 fresh)]

/-- Thread `i` confirms a user's payment of one dollar. -/
def confirm (i : ℕ) (userID : String) (fresh : String) : Schedule :=
  [.spawn (.confirmPayment leagueID userID "tx"), .call i (.succeed 0 ""),
    .call i (.reply (.mirrorAccount "0.0.9") none),
    .call i (.reply (.contractCall 5 (.payments leagueKey 9)) (.ok oneDollar)),
    .call i (.succeed 0 fresh)]

/-- Two users are members of a league, and each pays one dollar and confirms it. -/
def twoPayments : Schedule :=
  signUp 0 "0.0.9" "n1" "u1" ++ link 1 "u1" "sleeper" (.mock "p1") "f1" ++
    signUp 2 "0.0.10" "n2" "u2" ++ link 3 "u2" "sleeper" (.mock "p2") "f2" ++
    importLeague 4 "u1" "sleeper" (.mock "in_season") [.mock "p1" 1 true, .mock "p2" 2 false]
      leagueID ++
    [.spawn (.updateLeagueSettings leagueID "u1" ⟨100, some []⟩), .call 5 (.succeed 0 ""),
      .call 5 (.succeed 0 "f3"), .call 5 (.succeed 0 ""), .env (.payEntryFee 9 leagueKey dollar),
      .env (.payEntryFee 10 leagueKey dollar)] ++
    confirm 6 "u1" "f4" ++
    [.spawn (.confirmPayment leagueID "u2" "tx2"), .call 7 (.succeed 0 ""),
      .call 7 (.reply (.mirrorAccount "0.0.10") none),
      .call 7 (.reply (.contractCall 5 (.payments leagueKey 10)) (.ok oneDollar)),
      .call 7 (.succeed 0 "f5")]

/-- What the mirror node reports for an address without a payment. -/
def noPayment : String := "0000000000000000000000000000000000000000000000000000000000000000"

/-- Thread `i` confirms a user's refund. -/
def confirmRefund (i : ℕ) (userID : String) (fresh : String) : Schedule :=
  [.spawn (.confirmRefund leagueID userID "tx2"), .call i (.succeed 0 ""),
    .call i (.reply (.mirrorAccount "0.0.9") none),
    .call i (.reply (.contractCall 5 (.payments leagueKey 9)) (.ok noPayment)),
    .call i (.succeed 0 fresh)]

/-- Thread `i` reactivates the league up to the reset of its refunded members, which is next. -/
def reactivate (i : ℕ) (fresh : String) : Schedule :=
  [.spawn (.reactivateLeague leagueID "u1"), .call i (.succeed 0 ""), .call i (.succeed 8 fresh)]

/-- Thread `i` runs the weekly job until it has read the events of the week. -/
def weekly (i : ℕ) (fresh : String) : Schedule :=
  [.spawn .runWeeklyPayoutJob, .call i (.succeed 0 ""),
    .call i (.reply (.currentWeek "sleeper") (.ok 2)),
    .call i (.reply (.platformMatchups "sleeper" "7" 1) (.ok [⟨1, 1, 100⟩])),
    .call i (.succeed 0 ""), .call i (.succeed 0 fresh), .call i (.succeed 0 "")]

/-- Thread `i` sends the transaction for the events it has read. -/
def payWeekly (i : ℕ) (txHash : String) : Schedule :=
  [.call i (.reply (.mirrorAccount "0.0.9") none),
    .call i (.reply (.contractCall 5 (.leagueTotals leagueKey)) (.ok oneDollar)),
    .call i (.succeed 0 txHash)]

/-- Thread `i` runs the season-end job up to the claim of the league, which is next. -/
def seasonEnd (i : ℕ) : Schedule :=
  [.spawn .runSeasonEndPayoutJob, .call i (.succeed 0 ""),
    .call i (.reply (.platformLeague "sleeper" "7") (.ok (.mock "complete"))),
    .call i (.reply (.finalStandings "sleeper" "7") (.ok [⟨1, 1⟩])), .call i (.succeed 0 ""),
    .call i (.reply (.mirrorAccount "0.0.9") none),
    .call i (.reply (.contractCall 5 (.leagueTotals leagueKey)) (.ok oneDollar))]

end Schedule

variable (svc : Service) (crypto : Crypto)

/-- The configuration a schedule leads to from the start, if its steps pass the check. -/
def Schedule.replay (check : BackendConfig → BackendLabel → Bool) (ms : Schedule) :
    Option BackendConfig :=
  (backend svc crypto).replay World.respond check ms initialConfig

variable {svc crypto}

/-- A schedule that can be replayed is a run of the backend. -/
theorem Schedule.reaches {ok : BackendConfig → BackendLabel → Prop}
    {check : BackendConfig → BackendLabel → Bool} {ms : Schedule} {a : BackendConfig}
    (hcheck : ∀ a l, check a l = true → ok a l) (h : ms.replay svc crypto check = some a) :
    (backend svc crypto).Reaches ok initialConfig a :=
  reaches_of_replay World.respond_handles hcheck h

/-- A schedule whose last configuration has a property shows that some run has it. -/
theorem Schedule.exists_run (ms : Schedule) (svc : Service) (crypto : Crypto)
    (ok : BackendConfig → BackendLabel → Prop) [∀ a l, Decidable (ok a l)]
    (p : BackendConfig → Prop) [DecidablePred p]
    (h : (ms.replay svc crypto fun a l => decide (ok a l)).any (fun a => decide (p a)) = true) :
    ∃ a, (backend svc crypto).Reaches ok initialConfig a ∧ p a := by
  cases hreplay : ms.replay svc crypto fun a l => decide (ok a l) with
  | none =>
    rw [hreplay] at h
    cases h
  | some a =>
    rw [hreplay] at h
    exact ⟨a, Schedule.reaches (fun _ _ => of_decide_eq_true) hreplay, of_decide_eq_true h⟩

/-- A schedule and one more move show that some step of a run has a property. -/
theorem Schedule.exists_step (ms : Schedule) (m : Move Request Activity Decision) (svc : Service)
    (crypto : Crypto) (ok : BackendConfig → BackendLabel → Prop) [∀ a l, Decidable (ok a l)]
    (p : BackendConfig → BackendLabel → BackendConfig → Prop) [∀ a l b, Decidable (p a l b)]
    (h : (ms.replay svc crypto fun a l => decide (ok a l)).any (fun a =>
      ((backend svc crypto).move World.respond m a).any fun step =>
        decide (p a step.1 step.2)) = true) :
    ∃ a l b, (backend svc crypto).Reaches ok initialConfig a ∧ (backend svc crypto).Step a l b ∧
      p a l b := by
  cases hreplay : ms.replay svc crypto fun a l => decide (ok a l) with
  | none =>
    rw [hreplay] at h
    cases h
  | some a =>
    rw [hreplay] at h
    cases hmove : (backend svc crypto).move World.respond m a with
    | none =>
      simp only [Option.any_some, hmove] at h
      cases h
    | some step =>
      simp only [Option.any_some, hmove] at h
      exact ⟨a, step.1, step.2, Schedule.reaches (fun _ _ => of_decide_eq_true) hreplay,
        step_of_move World.respond_handles hmove, of_decide_eq_true h⟩

end Wagr
