import Wagr.Library.Execution
import Wagr.Library.FirstWins
import Wagr.Service.Footprint

/-!
# One weekly run for one league

What `processWeeklyPayoutsForLeague` calls, part by part, and what its calls do to the recorded
events: it inserts the events of its qualifiers one after the other, and nothing else adds, changes
or removes what an event records.
-/

namespace Wagr

open Interaction Protocol Program Relational

variable {svc : Service} {league : OracleLeague} {entries : List PayoutEntry} {week : ℤ}
  {members : List LeagueMember} {matchups : List PlatformMatchup}
  {planned rest : List WeeklyEventRow}
  {calls : List (Sigma Ret)} {r : Except GoError Unit} {w w' : World}

/-! ## Planned events -/

/-- What an event records, without its ID and its transaction. -/
def WeeklyEventRow.record (e : WeeklyEventRow) : WeeklyEventRow :=
  { e with
    id := ""
    txHash := none
    executedAt := none }

/-- What the events of a database record. -/
def Database.records (db : Database) : List WeeklyEventRow :=
  db.weeklyEvents.rows.map WeeklyEventRow.record

/-- The statement that inserts an event. -/
def WeeklyEventRow.insertion (e : WeeklyEventRow) : Statement :=
  .insertWeeklyEvent e.leagueID e.week e.rosterID e.platformUserID e.payoutType
    e.points e.amountCents
    e.walletAddress

/-- The event of a qualifier, `none` without member or wallet. -/
def qualifierEvent (league : OracleLeague) (week : ℤ) (members : List LeagueMember)
    (entry : PayoutEntry) (m : PlatformMatchup) : Option WeeklyEventRow :=
  match memberByRoster members m.rosterID with
  | none => none
  | some member =>
    if member.walletAddress = "" then none
    else some {
      id := ""
      leagueID := league.id
      week := week
      rosterID := m.rosterID
      platformUserID := member.platformUserID
      payoutType := entry.bonusType
      points := m.points
      amountCents := entry.amountCents
      walletAddress := member.walletAddress }

/-- The events of an entry. -/
def entryEvents (league : OracleLeague) (week : ℤ) (members : List LeagueMember)
    (matchups : List PlatformMatchup) (entry : PayoutEntry) : List WeeklyEventRow :=
  (weeklyQualifiers (matchups.filter fun m => 0 < m.matchupID) entry).filterMap
    (qualifierEvent league week members entry)

/-- All events that a run inserts, in order. -/
def plannedEvents (league : OracleLeague) (week : ℤ) (members : List LeagueMember)
    (matchups : List PlatformMatchup) (entries : List PayoutEntry) : List WeeklyEventRow :=
  entries.flatMap (entryEvents league week members matchups)

/-- The calls insert the events up to the first error. -/
inductive Inserts : List WeeklyEventRow → List (Sigma Ret) → Except GoError Unit → Prop
  | done : Inserts [] [] (.ok ())
  | next {e : WeeklyEventRow} {planned : List WeeklyEventRow} {calls : List (Sigma Ret)}
      {r : Except GoError Unit} (n : e.insertion.Result) :
      Inserts planned calls r → Inserts (e :: planned) (⟨.exec e.insertion, .ok n⟩ :: calls) r
  | fail {e : WeeklyEventRow} {planned : List WeeklyEventRow} (err err' : GoError) :
      Inserts (e :: planned) [⟨.exec e.insertion, .error err⟩] (.error err')

/-- After complete insertions come more. -/
theorem Inserts.append {first : List (Sigma Ret)} (h : Inserts planned first (.ok ()))
    (h' : Inserts rest calls r) : Inserts (planned ++ rest) (first ++ calls) r := by
  generalize hok : (Except.ok () : Except GoError Unit) = ok at h
  induction h with
  | done => exact h'
  | next n _ ih => exact .next n (ih hok)
  | fail => cases hok

/-- After an error comes nothing. -/
theorem Inserts.append_error {err : GoError} (h : Inserts planned calls (.error err)) :
    Inserts (planned ++ rest) calls (.error err) := by
  generalize herr : (Except.error err : Except GoError Unit) = error at h
  induction h with
  | done => cases herr
  | next n _ ih => exact .next n (ih herr)
  | fail e e' => exact .fail e e'

/-- A loop inserts the events of its rounds. -/
theorem inserts_forM {α : Type} {xs : List α} {f : α → Go Unit} {plan : α → List WeeklyEventRow}
    (hround : ∀ x ∈ xs, ∀ r calls, (f x).run.Yields r calls → Inserts (plan x) calls r)
    (h : (xs.forM f).run.Yields r calls) : Inserts (xs.flatMap plan) calls r := by
  induction xs generalizing calls with
  | nil =>
    obtain ⟨rfl, rfl⟩ := yields_pure.mp h
    exact .done
  | cons x xs ih =>
    obtain ⟨r', first, rest, hfirst, rfl, hrest⟩ := yields_run_bind.mp h
    have hinserts := hround x List.mem_cons_self r' first hfirst
    rw [List.flatMap_cons]
    cases r' with
    | error e =>
      obtain ⟨rfl, rfl⟩ := hrest
      rw [List.append_nil]
      exact hinserts.append_error
    | ok _ =>
      exact hinserts.append (ih (fun y hy => hround y (List.mem_cons_of_mem x hy)) hrest)

/-- One round inserts the event of its qualifier, if there is one. -/
theorem inserts_recordWeeklyEvent {entry : PayoutEntry} {m : PlatformMatchup}
    (h : (recordWeeklyEvent league week members entry m).run.Yields r calls) :
    Inserts (qualifierEvent league week members entry m).toList calls r := by
  unfold recordWeeklyEvent at h
  unfold qualifierEvent
  cases hmember : memberByRoster members m.rosterID with
  | none =>
    rw [hmember] at h
    obtain ⟨rfl, rfl⟩ := yields_pure.mp h
    exact .done
  | some member =>
    rw [hmember] at h
    dsimp only at h ⊢
    split_ifs at h ⊢ with hwallet
    · obtain ⟨rfl, rfl⟩ := yields_pure.mp h
      exact .done
    · obtain ⟨_, first, rest, hexec, rfl, hrest⟩ := yields_run_bind.mp h
      obtain ⟨answer, hexec', rfl⟩ := yields_wrapErr.mp hexec
      obtain rfl := yields_exec.mp hexec'
      cases answer with
      | error e =>
        obtain ⟨rfl, rfl⟩ := hrest
        exact .fail e _
      | ok n =>
        obtain ⟨rfl, rfl⟩ := yields_pure.mp hrest
        exact .next n .done

/-! ## The calls of a run -/

/-- The calls that ask the mirror node. -/
def Call.asksMirror : Call → Prop
  | .mirrorAccount _ | .contractCall _ _ => True
  | _ => False

/-- The calls after a transaction: asking for its receipt and marking events executed. -/
def Call.marksSent : Call → Prop
  | .getReceipt _ | .exec (.markWeeklyEventExecuted _ _) => True
  | _ => False

/-- The call that sends a transaction. -/
def Call.sends : Call → Bool
  | .contractExecute _ _ _ _ => true
  | _ => false

/-- No transaction is sent. -/
def SendsNothing (calls : List (Sigma Ret)) : Prop := ∀ call ∈ calls, call.1.sends = false

/-- The lookups of the events' wallets with their answers. -/
def lookups (events : List WeeklyEvent) (mirrors : List (Option String)) : List (Sigma Ret) :=
  List.zipWith (fun ev mirror => ⟨.mirrorAccount ev.walletAddress, mirror⟩) events mirrors

/-- The events whose wallet resolves, with their addresses. -/
def resolvedEvents (events : List WeeklyEvent) (mirrors : List (Option String)) :
    List (WeeklyEvent × Address) :=
  (events.zip mirrors).filterMap fun (ev, mirror) =>
    match evmAddressOf ev.walletAddress mirror with
    | .ok addr => some (ev, addr)
    | .error _ => none

/-- The entries of a transaction for resolved events: address and amount. -/
def paidEntries (resolved : List (WeeklyEvent × Address)) : List (Address × Int64) :=
  resolved.map fun r => (r.2, toMicroUSDC r.1.amountCents)

/-- How paying some events may go: it fails before the transaction, no wallet resolves, or the
transaction is sent for the events whose wallet does. -/
inductive Pays (events : List WeeklyEvent) : List (Sigma Ret) → Except GoError Unit → Prop
  | refused {calls : List (Sigma Ret)} (err : GoError) (hasks : ∀ call ∈ calls, call.1.asksMirror) :
      Pays events calls (.error err)
  | nothing {mirrors : List (Option String)} (hlength : mirrors.length = events.length)
      (hnone : resolvedEvents events mirrors = []) : Pays events (lookups events mirrors) (.ok ())
  | sent {mirrors : List (Option String)} {rest : List (Sigma Ret)} {r : Except GoError Unit}
      (hlength : mirrors.length = events.length) (read : Sigma Ret) (hread : read.1.asksMirror)
      (purpose : Purpose) (key : Bytes32) (recipients : List Address) (amounts : List Int64)
      (answer : Ret (.contractExecute purpose key recipients amounts))
      (hequal : recipients.length = amounts.length)
      (hentries : recipients.zip amounts = paidEntries (resolvedEvents events mirrors))
      (hrest : ∀ call ∈ rest, call.1.marksSent) :
      Pays events (lookups events mirrors ++
        read :: ⟨.contractExecute purpose key recipients amounts, answer⟩ :: rest) r

/-- Calls that ask the mirror node send nothing. -/
theorem sendsNothing_asksMirror (h : ∀ call ∈ calls, call.1.asksMirror) : SendsNothing calls := by
  intro call hcall
  have hasks := h call hcall
  cases hcase : call.1 with
  | contractExecute =>
    rw [hcase] at hasks
    exact hasks.elim
  | _ => rfl

/-- Calls after a transaction send nothing. -/
theorem sendsNothing_marksSent (h : ∀ call ∈ calls, call.1.marksSent) : SendsNothing calls := by
  intro call hcall
  have hmarks := h call hcall
  cases hcase : call.1 with
  | contractExecute =>
    rw [hcase] at hmarks
    exact hmarks.elim
  | _ => rfl

/-- Insertions send nothing. -/
theorem Inserts.sendsNothing (h : Inserts planned calls r) : SendsNothing calls := by
  induction h with
  | done => exact fun call hcall => by simp at hcall
  | next n _ ih => exact List.forall_mem_cons.mpr ⟨rfl, ih⟩
  | fail => exact List.forall_mem_cons.mpr ⟨rfl, fun call hcall => by simp at hcall⟩

/-- Resolving the events looks up each wallet once. -/
theorem yields_resolveEvents {events : List WeeklyEvent} {resolved : List (WeeklyEvent × Address)}
    (h : (resolveEvents events).Yields resolved calls) : ∃ mirrors, mirrors.length = events.length ∧
      calls = lookups events mirrors ∧ resolved = resolvedEvents events mirrors := by
  induction events generalizing resolved calls with
  | nil =>
    obtain ⟨rfl, rfl⟩ := yields_pure.mp h
    exact ⟨[], rfl, rfl, rfl⟩
  | cons ev events ih =>
    obtain ⟨addr, first, _, haddr, hmore, rfl⟩ := yields_bind.mp h
    obtain ⟨later, second, third, hlater, hlast, rfl⟩ := yields_bind.mp hmore
    obtain ⟨mirrors, hlength, rfl, rfl⟩ := ih hlater
    obtain ⟨mirror, fourth, fifth, hmirror, hpure, rfl⟩ := yields_bind.mp haddr
    obtain rfl := (yields_perform (c := Call.mirrorAccount ev.walletAddress)).mp hmirror
    obtain ⟨rfl, rfl⟩ := yields_pure.mp hpure
    refine ⟨mirror :: mirrors, congrArg (· + 1) hlength, ?_⟩
    cases hfound : evmAddressOf ev.walletAddress mirror with
    | error e =>
      rw [hfound] at hlast
      obtain ⟨rfl, rfl⟩ := yields_pure.mp hlast
      simp [lookups, resolvedEvents, hfound]
    | ok address =>
      rw [hfound] at hlast
      obtain ⟨rfl, rfl⟩ := yields_pure.mp hlast
      simp [lookups, resolvedEvents, hfound]

/-- The lookups ask the mirror node. -/
theorem asksMirror_lookups {events : List WeeklyEvent} {mirrors : List (Option String)} :
    ∀ call ∈ lookups events mirrors, call.1.asksMirror := by
  intro call hcall
  obtain ⟨i, hi, rfl⟩ := List.mem_iff_getElem.mp hcall
  simp [lookups, Call.asksMirror]

/-- Sending a transaction comes first, and then at most its receipt. -/
theorem yields_executeDistributePayout {purpose : Purpose} {key : Bytes32}
    {recipients : List Address}
    {amounts : List Int64} {d : Except GoError String} (hequal : recipients.length = amounts.length)
    (hne : recipients ≠ [])
    (h : (executeDistributePayout purpose key recipients amounts).run.Yields d calls) :
    ∃ (answer : Ret (.contractExecute purpose key recipients amounts)) (rest : List (Sigma Ret)),
      calls = ⟨.contractExecute purpose key recipients amounts, answer⟩ :: rest ∧
        ∀ call ∈ rest, call.1.marksSent := by
  unfold executeDistributePayout at h
  rw [if_neg (not_not.mpr hequal), if_neg hne] at h
  obtain ⟨_, _, rest, hsend, rfl, hreceipt⟩ := yields_run_bind.mp h
  obtain ⟨answer, hsend', rfl⟩ := yields_wrapErr.mp hsend
  obtain rfl := (yields_perform
    (c := Call.contractExecute purpose key recipients amounts)).mp hsend'
  refine ⟨answer, rest, rfl, ?_⟩
  cases answer with
  | error e =>
    obtain ⟨-, rfl⟩ := hreceipt
    simp
  | ok resp =>
    obtain ⟨_, _, last, hreceipt', rfl, hlast⟩ := yields_run_bind.mp hreceipt
    obtain ⟨receipt, hreceipt'', rfl⟩ := yields_wrapErr.mp hreceipt'
    obtain rfl := (yields_perform (c := Call.getReceipt resp)).mp hreceipt''
    obtain rfl : last = [] := by
      rcases receipt with e | _ | status
      · exact hlast.2
      · exact (yields_pure.mp hlast).2
      · exact (yields_pure.mp hlast).2
    simp [Call.marksSent]

/-- The calls of paying events. -/
theorem pays_payWeeklyEvents {events : List WeeklyEvent}
    (h : (payWeeklyEvents svc league events).run.Yields r calls) : Pays events calls r := by
  obtain ⟨_, _, rest₁, hkey, rfl, h₁⟩ := yields_run_bind.mp h
  obtain ⟨_, hkey', rfl⟩ := yields_wrapErr.mp hkey
  obtain ⟨rfl, rfl⟩ := yields_ofResult.mp hkey'
  clear h hkey hkey'
  cases hleague : uuidToBytes32 league.id with
  | error e =>
    rw [hleague] at h₁
    obtain ⟨rfl, rfl⟩ := h₁
    exact .refused _ (by simp)
  | ok key =>
    rw [hleague] at h₁
    obtain ⟨_, _, rest₂, hcontract, rfl, h₂⟩ := yields_run_bind.mp h₁
    obtain ⟨_, hcontract', rfl⟩ := yields_wrapErr.mp hcontract
    obtain ⟨rfl, rfl⟩ := yields_ofResult.mp hcontract'
    clear h₁ hcontract hcontract'
    cases hcontract : hederaAccountToEVM svc.hederaEscrowContractID with
    | error e =>
      rw [hcontract] at h₂
      obtain ⟨rfl, rfl⟩ := h₂
      exact .refused _ (by simp)
    | ok contract =>
      rw [hcontract] at h₂
      obtain ⟨_, _, rest₃, hlift, rfl, h₃⟩ := yields_run_bind.mp h₂
      obtain ⟨resolved, hresolve, rfl⟩ := yields_run_lift.mp hlift
      obtain ⟨mirrors, hlength, rfl, rfl⟩ := yields_resolveEvents hresolve
      clear h₂ hlift hresolve
      dsimp only at h₃
      split_ifs at h₃ with hnone
      · obtain ⟨rfl, rfl⟩ := yields_pure.mp h₃
        rw [List.append_nil]
        exact .nothing hlength hnone
      obtain ⟨_, reads, rest₄, hread, rfl, h₄⟩ := yields_run_bind.mp h₃
      obtain ⟨balance, hread', rfl⟩ := yields_wrapErr.mp hread
      obtain ⟨read, rfl, hasks⟩ : ∃ read : Sigma Ret, reads = [read] ∧ read.1.asksMirror := by
        obtain ⟨answer, _, _, hcall, rfl, hdecode⟩ := yields_run_bind.mp hread'
        obtain rfl := (yields_perform
          (c := Call.contractCall contract (.leagueTotals key))).mp hcall
        cases answer with
        | error e =>
          obtain ⟨-, rfl⟩ := hdecode
          exact ⟨_, rfl, trivial⟩
        | ok result =>
          obtain ⟨-, rfl⟩ := yields_ofResult.mp hdecode
          exact ⟨_, rfl, trivial⟩
      have hbefore : ∀ call ∈ lookups events mirrors ++ [read], call.1.asksMirror := by
        intro call hcall
        rcases List.mem_append.mp hcall with hcall | hcall
        · exact asksMirror_lookups call hcall
        · exact List.mem_singleton.mp hcall ▸ hasks
      cases balance with
      | error e =>
        obtain ⟨rfl, rfl⟩ := h₄
        exact .refused _ (by simpa using hbefore)
      | ok balance =>
        rw [mapError_ok] at h₄
        dsimp only at h₄
        split_ifs at h₄ with hshort
        · obtain ⟨rfl, rfl⟩ := yields_pure.mp h₄
          exact .refused _ (by simpa using hbefore)
        obtain ⟨sent, sending, rest₅, hsend, rfl, h₅⟩ := yields_run_bind.mp h₄
        obtain ⟨sent', hsend', rfl⟩ := yields_wrapErr.mp hsend
        obtain ⟨answer, receipts, rfl, hreceipts⟩ :=
          yields_executeDistributePayout (by simp) (by simpa using hnone) hsend'
        have hmarks : ∀ call ∈ rest₅, call.1.marksSent := by
          cases sent' with
          | error e =>
            obtain ⟨-, rfl⟩ := h₅
            simp
          | ok txHash =>
            have hcalls : Calls Call.marksSent (ExceptT.lift (markEventsExecuted txHash
                ((resolvedEvents events mirrors).map fun r => r.1.id)) : Go Unit).run :=
              .lift (.forM fun id => .bind (.exec trivial) fun _ => trivial)
            exact hcalls.mem_calls h₅
        have hzip : ((resolvedEvents events mirrors).map Prod.snd).zip
            ((resolvedEvents events mirrors).map fun r => toMicroUSDC r.1.amountCents) =
              paidEntries (resolvedEvents events mirrors) := by
          rw [paidEntries, List.zip_map']
        have hrest : ∀ call ∈ receipts ++ rest₅, call.1.marksSent := by
          intro call hcall
          rcases List.mem_append.mp hcall with hcall | hcall
          · exact hreceipts call hcall
          · exact hmarks call hcall
        have hsent := Pays.sent (r := r) hlength read hasks _ key _ _ answer (by simp) hzip hrest
        simpa using hsent

/-- How a run may go: an error stops it at its first two reads, at an insertion or at the read of
the events, or the events that it reads are paid. -/
inductive WeeklyRun (league : OracleLeague) (entries : List PayoutEntry) (week : ℤ) :
    List (Sigma Ret) → Except GoError Unit → Prop
  | noMatchups (e err : GoError) : WeeklyRun league entries week
      [⟨.platformMatchups league.platform league.platformLeagueID week, .error e⟩] (.error err)
  | noMembers (matchups : List PlatformMatchup) (e err : GoError) : WeeklyRun league entries week
      [⟨.platformMatchups league.platform league.platformLeagueID week, .ok matchups⟩,
        ⟨.query (.leagueMembers league.id), .error e⟩] (.error err)
  | notRecorded (matchups : List PlatformMatchup) (members : RowStream LeagueMember)
      {inserts : List (Sigma Ret)} {err : GoError}
      (h : Inserts (plannedEvents league week members.rows matchups entries) inserts (.error err)) :
      WeeklyRun league entries week
        (⟨.platformMatchups league.platform league.platformLeagueID week, .ok matchups⟩ ::
          ⟨.query (.leagueMembers league.id), .ok members⟩ :: inserts) (.error err)
  | notRead (matchups : List PlatformMatchup) (members : RowStream LeagueMember)
      {inserts : List (Sigma Ret)} (e err : GoError)
      (h : Inserts (plannedEvents league week members.rows matchups entries) inserts (.ok ())) :
      WeeklyRun league entries week
        (⟨.platformMatchups league.platform league.platformLeagueID week, .ok matchups⟩ ::
          ⟨.query (.leagueMembers league.id), .ok members⟩ ::
          (inserts ++ [⟨.query (.unexecutedEvents league.id week), .error e⟩])) (.error err)
  | pays (matchups : List PlatformMatchup) (members : RowStream LeagueMember)
      {inserts paying : List (Sigma Ret)} {r : Except GoError Unit} (events : RowStream WeeklyEvent)
      (h : Inserts (plannedEvents league week members.rows matchups entries) inserts (.ok ()))
      (hpays : Pays events.rows paying r) :
      WeeklyRun league entries week
        (⟨.platformMatchups league.platform league.platformLeagueID week, .ok matchups⟩ ::
          ⟨.query (.leagueMembers league.id), .ok members⟩ ::
          (inserts ++ ⟨.query (.unexecutedEvents league.id week), .ok events⟩ :: paying)) r

/-- Every finished run goes one of these ways. -/
theorem weeklyRun_of_yields
    (h : (processWeeklyPayoutsForLeague svc league entries week).run.Yields r calls) :
    WeeklyRun league entries week calls r := by
  obtain ⟨_, _, rest₁, hmatchups, rfl, h₁⟩ := yields_run_bind.mp h
  obtain ⟨answer, hmatchups', rfl⟩ := yields_wrapErr.mp hmatchups
  obtain rfl := (yields_perform (c := Call.platformMatchups league.platform league.platformLeagueID
    week)).mp hmatchups'
  clear h hmatchups hmatchups'
  cases answer with
  | error e =>
    obtain ⟨rfl, rfl⟩ := h₁
    exact .noMatchups e _
  | ok matchups =>
    obtain ⟨_, _, rest₂, hmembers, rfl, h₂⟩ := yields_run_bind.mp h₁
    obtain ⟨loaded, hmembers', rfl⟩ := yields_wrapErr.mp hmembers
    obtain ⟨_, _, rest₃, hquery, rfl, hrows⟩ := yields_run_bind.mp hmembers'
    obtain ⟨answer, hquery', rfl⟩ := yields_wrapErr.mp hquery
    obtain rfl := (yields_query (q := .leagueMembers league.id)).mp hquery'
    clear h₁ hmembers hmembers' hquery hquery'
    cases answer with
    | error e =>
      obtain ⟨rfl, rfl⟩ := hrows
      obtain ⟨rfl, rfl⟩ := h₂
      exact .noMembers matchups e _
    | ok members =>
      obtain ⟨rfl, rfl⟩ := yields_pure.mp hrows
      obtain ⟨recorded, inserts, rest₄, hloop, rfl, h₄⟩ := yields_run_bind.mp h₂
      have hinserts : Inserts (plannedEvents league week members.rows matchups entries) inserts
          recorded := by
        refine inserts_forM (fun entry _ r calls hround => ?_) hloop
        rw [entryEvents, List.filterMap_eq_flatMap_toList]
        exact inserts_forM (fun m _ r calls => inserts_recordWeeklyEvent) hround
      cases recorded with
      | error e =>
        obtain ⟨rfl, rfl⟩ := h₄
        have hrun := WeeklyRun.notRecorded matchups members hinserts
        simpa using hrun
      | ok _ =>
        obtain ⟨_, _, rest₅, hread, rfl, h₅⟩ := yields_run_bind.mp h₄
        obtain ⟨answer, hread', rfl⟩ := yields_wrapErr.mp hread
        obtain rfl := (yields_query (q := .unexecutedEvents league.id week)).mp hread'
        cases answer with
        | error e =>
          obtain ⟨rfl, rfl⟩ := h₅
          exact .notRead matchups members e _ hinserts
        | ok events =>
          refine .pays matchups members events hinserts ?_
          rw [mapError_ok] at h₅
          dsimp only at h₅
          split_ifs at h₅ with hempty
          · obtain ⟨rfl, rfl⟩ := yields_pure.mp h₅
            rw [hempty]
            have hnothing : Pays [] (lookups [] []) (.ok ()) := .nothing rfl rfl
            exact hnothing
          · exact pays_payWeeklyEvents h₅

/-! ## No other request -/

/-- What members and the network do on the chain. -/
def Activity.onChain : Activity → Bool
  | .land _ _ _ => false
  | _ => true

/-- Something may happen on the chain. -/
def World.Drifts : World → World → Prop :=
  Relation.ReflTransGen fun w w' => ∃ a : Activity, a.onChain ∧ w.act a = some w'

/-- The call executes a statement. -/
def Call.executes : Call → Bool
  | .exec _ => true
  | _ => false

/-- How a call may be answered while there is no other request. -/
def World.answers (w : World) (c : Call) (r : Ret c) (w' : World) : Prop :=
  ∃ u, w.Drifts u ∧ u.handles c r w'

/-- What happens on the chain does not touch the database. -/
theorem World.Drifts.same (h : w.Drifts w') : w'.db = w.db ∧ w'.inFlight = w.inFlight := by
  induction h with
  | refl => exact ⟨rfl, rfl⟩
  | @tail u u' _ hlast ih =>
    obtain ⟨a, hchain, hact⟩ := hlast
    have hsame : u'.db = u.db ∧ u'.inFlight = u.inFlight := by
      cases a with
      | land k now fresh => cases hchain
      | settle k succeeds =>
        obtain ⟨s, -, hsettle⟩ := Option.bind_eq_some_iff.mp hact
        split_ifs at hsettle
        · split at hsettle
          · cases hsettle
            exact ⟨rfl, rfl⟩
          · cases hsettle
        · cases hsettle
          exact ⟨rfl, rfl⟩
      | payEntryFee member leagueId amount | claimRefund member leagueId =>
        simp only [World.act] at hact
        split at hact
        · cases hact
          exact ⟨rfl, rfl⟩
        · cases hact
    exact ⟨hsame.1.trans ih.1, hsame.2.trans ih.2⟩

/-- A statement takes effect. -/
theorem answers_exec {s : Statement} {n : s.Result} (h : w.answers (.exec s) (.ok n) w') :
    ∃ now fresh, s.run now fresh w.db = some (n, w'.db) ∧ w'.inFlight = w.inFlight := by
  obtain ⟨u, hdrift, now, fresh, db, -, hrun, rfl⟩ := h
  exact ⟨now, fresh, hdrift.same.1 ▸ hrun, hdrift.same.2⟩

/-- A failed statement is in flight. -/
theorem answers_exec_error {s : Statement} {e : GoError}
    (h : w.answers (.exec s) (.error e) w') :
    w'.db = w.db ∧ w'.inFlight = w.inFlight ++ [s] := by
  obtain ⟨u, hdrift, rfl⟩ := h
  exact ⟨hdrift.same.1, congrArg (· ++ [s]) hdrift.same.2⟩

/-- A query is answered from the database. -/
theorem answers_query {q : Query} {rows : q.Answer} (h : w.answers (.query q) (.ok rows) w') :
    q.Answers w.db rows := by
  obtain ⟨u, hdrift, -, hanswers⟩ := h
  exact hdrift.same.1 ▸ hanswers

/-- Only statements change the database. -/
theorem answers_same {c : Call} {r : Ret c} (hc : c.executes = false) (h : w.answers c r w') :
    w'.db = w.db ∧ w'.inFlight = w.inFlight := by
  obtain ⟨u, hdrift, hw⟩ := h
  have hsame : w'.db = u.db ∧ w'.inFlight = u.inFlight := by
    cases c with
    | exec s => cases hc
    | query q | getReceipt resp => exact hw.1 ▸ ⟨rfl, rfl⟩
    | contractExecute purpose leagueID recipients amounts =>
      cases r with
      | ok resp => exact hw.2 ▸ ⟨rfl, rfl⟩
      | error e =>
        rcases hw with rfl | rfl
        · exact ⟨rfl, rfl⟩
        · exact ⟨rfl, rfl⟩
    | generateNonce =>
      cases r with
      | ok nonce => exact hw.2 ▸ ⟨rfl, rfl⟩
      | error e =>
        obtain rfl : w' = u := hw
        exact ⟨rfl, rfl⟩
    | _ =>
      obtain rfl : w' = u := hw
      exact ⟨rfl, rfl⟩
  exact ⟨hsame.1.trans hdrift.same.1, hsame.2.trans hdrift.same.2⟩

/-! ## The effect of a run -/

/-- No event is lost or changed, and new ones are not executed. -/
structure OnlyRecords (db db' : Database) : Prop where
  keeps : db.weeklyEvents.rows <+: db'.weeklyEvents.rows
  unexecuted : ∀ e ∈ db'.weeklyEvents.rows, e ∈ db.weeklyEvents.rows ∨ e.executedAt = none

theorem OnlyRecords.refl (db : Database) : OnlyRecords db db := ⟨List.prefix_rfl, fun _ => .inl⟩

theorem OnlyRecords.trans {db db' db'' : Database} (h : OnlyRecords db db')
    (h' : OnlyRecords db' db'') :
    OnlyRecords db db'' := by
  refine ⟨h.keeps.trans h'.keeps, fun e he => ?_⟩
  rcases h'.unexecuted e he with he | he
  · exact h.unexecuted e he
  · exact .inr he

/-- The keys of the records are those of the events. -/
theorem keys_records (db : Database) :
    db.records.map WeeklyEventRow.key = db.weeklyEvents.rows.map WeeklyEventRow.key := by
  rw [Database.records, List.map_map]
  rfl

/-- What is inserted is recorded, unless its key is taken. -/
theorem insertion_run {e : WeeklyEventRow} {now : ℕ} {fresh : String} {db db' : Database}
    {n : e.insertion.Result} (h : e.insertion.run now fresh db = some (n, db')) :
    db'.records = FirstWins.add WeeklyEventRow.key db.records e.record ∧ OnlyRecords db db' := by
  simp only [WeeklyEventRow.insertion, Statement.run] at h
  split_ifs at h with hvalid htaken
  · cases h
    rw [FirstWins.add_of_mem]
    · exact ⟨rfl, .refl db⟩
    · rw [keys_records]
      exact htaken
  · cases h
    refine ⟨?_, List.prefix_append _ _, fun e he => ?_⟩
    · rw [FirstWins.add_of_notMem]
      · exact List.map_append
      · rw [keys_records]
        exact htaken
    · rcases List.mem_append.mp he with he | he
      · exact .inl he
      · obtain rfl := List.mem_singleton.mp he
        exact .inr rfl

/-- Complete insertions record all events. -/
theorem Inserts.records (h : Inserts planned calls (.ok ()))
    (hleads : Leads World.answers w calls w') :
    w'.db.records =
        FirstWins.addAll WeeklyEventRow.key w.db.records (planned.map WeeklyEventRow.record) ∧
      OnlyRecords w.db w'.db ∧ w'.inFlight = w.inFlight := by
  generalize hok : (Except.ok () : Except GoError Unit) = ok at h
  induction h generalizing w with
  | done =>
    obtain rfl : w' = w := hleads
    exact ⟨rfl, .refl _, rfl⟩
  | next n _ ih =>
    obtain ⟨u, hexec, hrest⟩ := hleads
    obtain ⟨now, fresh, hrun, hsame⟩ := answers_exec hexec
    obtain ⟨hadded, honly⟩ := insertion_run hrun
    obtain ⟨hrecords, honly', hflight⟩ := ih hrest hok
    rw [List.map_cons, FirstWins.addAll_cons, ← hadded]
    exact ⟨hrecords, honly.trans honly', hflight.trans hsame⟩
  | fail => cases hok

/-- Insertions that fail record the events before one whose insertion is in flight. -/
theorem Inserts.records_error {err : GoError} (h : Inserts planned calls (.error err))
    (hleads : Leads World.answers w calls w') : ∃ front e back, planned = front ++ e :: back ∧
      w'.db.records =
        FirstWins.addAll WeeklyEventRow.key w.db.records (front.map WeeklyEventRow.record) ∧
      OnlyRecords w.db w'.db ∧ w'.inFlight = w.inFlight ++ [e.insertion] := by
  generalize herr : (Except.error err : Except GoError Unit) = error at h
  induction h generalizing w with
  | done => cases herr
  | next n _ ih =>
    obtain ⟨u, hexec, hrest⟩ := hleads
    obtain ⟨now, fresh, hrun, hsame⟩ := answers_exec hexec
    obtain ⟨hadded, honly⟩ := insertion_run hrun
    obtain ⟨front, e', back, rfl, hrecords, honly', hflight⟩ := ih hrest herr
    refine ⟨_ :: front, e', back, rfl, ?_, honly.trans honly', hsame ▸ hflight⟩
    rw [List.map_cons, FirstWins.addAll_cons, ← hadded]
    exact hrecords
  | fail e e' =>
    obtain ⟨u, hexec, rfl⟩ := hleads
    obtain ⟨hdb, hflight⟩ := answers_exec_error hexec
    exact ⟨[], _, _, rfl, by rw [hdb]; rfl, hdb ▸ .refl _, hflight⟩

/-- The event of a qualifier is that of its member. -/
theorem qualifierEvent_eq_some {entry : PayoutEntry} {m : PlatformMatchup} {e : WeeklyEventRow} :
    qualifierEvent league week members entry m = some e ↔ ∃ member,
      memberByRoster members m.rosterID = some member ∧ member.walletAddress ≠ "" ∧
        e = ⟨"", league.id, week, m.rosterID, member.platformUserID, entry.bonusType, m.points,
          entry.amountCents, member.walletAddress, none, none⟩ := by
  unfold qualifierEvent
  cases memberByRoster members m.rosterID with
  | none => simp
  | some member =>
    dsimp only
    split_ifs with hwallet
    · simp [hwallet]
    · constructor
      · intro h
        exact ⟨member, rfl, hwallet, (Option.some.inj h).symm⟩
      · rintro ⟨_, hmember, -, rfl⟩
        obtain rfl := Option.some.inj hmember
        rfl

/-- The planned events are those of the qualifiers. -/
theorem mem_entryEvents {entry : PayoutEntry} {e : WeeklyEventRow} :
    e ∈ entryEvents league week members matchups entry ↔
      ∃ m ∈ weeklyQualifiers (matchups.filter fun m => 0 < m.matchupID) entry,
        qualifierEvent league week members entry m = some e := List.mem_filterMap

/-- A planned event is its own record. -/
theorem record_plannedEvent {e : WeeklyEventRow}
    (he : e ∈ plannedEvents league week members matchups entries) : e.record = e := by
  obtain ⟨entry, -, he⟩ := List.mem_flatMap.mp he
  obtain ⟨m, -, hevent⟩ := mem_entryEvents.mp he
  obtain ⟨member, -, -, rfl⟩ := qualifierEvent_eq_some.mp hevent
  rfl

/-- Planned events are their own records. -/
theorem map_record_of_subset (h : planned ⊆ plannedEvents league week members matchups entries) :
    planned.map WeeklyEventRow.record = planned := by
  conv_rhs => rw [← List.map_id planned]
  exact List.map_congr_left fun e he => record_plannedEvent (h he)

/-- Two calls that are not statements do not touch the database. -/
theorem leads_reads {c c' : Call} {r : Ret c} {r' : Ret c'} (hc : c.executes = false)
    (hc' : c'.executes = false) (hleads : Leads World.answers w (⟨c, r⟩ :: ⟨c', r'⟩ :: calls) w') :
    ∃ u, u.db = w.db ∧ u.inFlight = w.inFlight ∧ Leads World.answers u calls w' := by
  obtain ⟨u, hfirst, v, hsecond, hrest⟩ := hleads
  obtain ⟨hdb, hflight⟩ := answers_same hc hfirst
  obtain ⟨hdb', hflight'⟩ := answers_same hc' hsecond
  exact ⟨v, hdb'.trans hdb, hflight'.trans hflight, hrest⟩

/-- Asking the mirror node does not touch the database. -/
theorem leads_asksMirror (hasks : ∀ call ∈ calls, call.1.asksMirror)
    (hleads : Leads World.answers w calls w') : w'.db = w.db ∧ w'.inFlight = w.inFlight := by
  have hsame : (w'.db, w'.inFlight) = (w.db, w.inFlight) := by
    refine hleads.same (f := fun w => (w.db, w.inFlight)) fun call hcall u u' hu => ?_
    have hc : call.1.executes = false := by
      have hc := hasks call hcall
      cases hcase : call.1 with
      | exec s =>
        rw [hcase] at hc
        exact hc.elim
      | _ => rfl
    obtain ⟨hdb, hflight⟩ := answers_same hc hu
    rw [hdb, hflight]
  exact ⟨congrArg Prod.fst hsame, congrArg Prod.snd hsame⟩

/-- Marking events executed changes no record. -/
theorem leads_marksSent (hmarks : ∀ call ∈ calls, call.1.marksSent)
    (hleads : Leads World.answers w calls w') : w'.db.records = w.db.records := by
  refine hleads.same (f := fun w => w.db.records) fun call hcall u u' hu => ?_
  obtain ⟨c, r⟩ := call
  have hc := hmarks ⟨c, r⟩ hcall
  cases c with
  | exec s =>
    cases r with
    | error e => rw [(answers_exec_error hu).1]
    | ok n =>
      cases s with
      | markWeeklyEventExecuted id txHash =>
        obtain ⟨now, fresh, hrun, -⟩ := answers_exec hu
        obtain ⟨-, hdb⟩ := Prod.mk.inj (Option.some.inj hrun)
        simp only [← hdb, Database.records, Table.updateWhere, List.map_map]
        refine List.map_congr_left fun e _ => ?_
        by_cases hid : e.id = id
        · simp [hid, WeeklyEventRow.record]
        · simp [hid]
      | _ => exact hc.elim
  | _ => rw [(answers_same rfl hu).1]

/-- Paying events changes no record, and does not touch the database before a transaction is
sent. -/
theorem Pays.leads {events : List WeeklyEvent} (h : Pays events calls r)
    (hleads : Leads World.answers w calls w') : w'.db.records = w.db.records ∧
      (SendsNothing calls → w'.db = w.db ∧ w'.inFlight = w.inFlight) := by
  cases h with
  | refused err hasks =>
    have hsame := leads_asksMirror hasks hleads
    exact ⟨by rw [hsame.1], fun _ => hsame⟩
  | nothing hlength hnone =>
    have hsame := leads_asksMirror asksMirror_lookups hleads
    exact ⟨by rw [hsame.1], fun _ => hsame⟩
  | sent hlength read hread purpose key recipients amounts answer hequal hentries hrest =>
    refine ⟨?_, fun hnothing => ?_⟩
    · obtain ⟨u, hlookups, v, hcall, x, hsend, hmarks⟩ := leads_append.mp hleads
      have hread' : Leads World.answers u [read] v := ⟨v, hcall, rfl⟩
      have hasks : ∀ call ∈ [read], call.1.asksMirror := List.forall_mem_singleton.mpr hread
      rw [leads_marksSent hrest hmarks, (answers_same rfl hsend).1,
        (leads_asksMirror hasks hread').1, (leads_asksMirror asksMirror_lookups hlookups).1]
    · have hsends := hnothing ⟨.contractExecute purpose key recipients amounts, answer⟩ (by simp)
      cases hsends

/-- A run that gets to paying has recorded all planned events. -/
theorem Pays.recorded {platform platformLeagueID leagueID : String}
    {found : List PlatformMatchup} {stream : RowStream LeagueMember}
    {inserts paying : List (Sigma Ret)}
    {events : RowStream WeeklyEvent} (hpays : Pays events.rows paying r)
    (hinserts : Inserts (plannedEvents league week stream.rows found entries) inserts (.ok ()))
    (hleads : Leads World.answers w
      (⟨.platformMatchups platform platformLeagueID week, .ok found⟩ ::
      ⟨.query (.leagueMembers leagueID), .ok stream⟩ ::
        (inserts ++ ⟨.query (.unexecutedEvents leagueID week), .ok events⟩ :: paying)) w') :
    ∃ u : World, (Query.unexecutedEvents leagueID week).Answers u.db events ∧
      OnlyRecords w.db u.db ∧ u.db.records = FirstWins.addAll WeeklyEventRow.key w.db.records
        (plannedEvents league week stream.rows found entries) ∧ w'.db.records = u.db.records := by
  obtain ⟨v, hdb, -, hrest⟩ := leads_reads rfl rfl hleads
  obtain ⟨u, hinserted, x, hquery, hpaid⟩ := leads_append.mp hrest
  obtain ⟨hrecords, honly, -⟩ := hinserts.records hinserted
  obtain ⟨hsame, -⟩ := answers_same rfl hquery
  rw [map_record_of_subset (List.Subset.refl _), hdb] at hrecords
  exact ⟨u, answers_query hquery, hdb ▸ honly, hrecords, hsame ▸ (hpays.leads hpaid).1⟩

end Wagr
