import Wagr.Payouts.WeeklyRun
import Wagr.Service.Scenario

/-!
# Weekly runs after a failure

A run that fails before its transaction has recorded some of its events and nothing else. A later
run with the same matchups, members and rules records the others, so afterwards the events are those
of one run that has not failed, and it pays all events of the week that have not been executed.
-/

namespace Wagr

open Interaction Protocol Program Relational

variable {svc : Service} {league : OracleLeague} {entries : List PayoutEntry} {week : ℤ}
  {members : List LeagueMember} {matchups : List PlatformMatchup} {calls : List (Sigma Ret)}
  {r : Except GoError Unit} {w w₁ w₂ w' : World}

/-- The matchups and the members that an answer gives, if it gives any. -/
def gives (matchups : List PlatformMatchup) (members : List LeagueMember) : Sigma Ret → Bool
  | ⟨.platformMatchups _ _ _, .ok found⟩ => found = matchups
  | ⟨.query (.leagueMembers _), .ok stream⟩ => stream.rows = members
  | _ => true

/-- The run reads these matchups and members, if it gets that far. -/
def Given (matchups : List PlatformMatchup) (members : List LeagueMember)
    (calls : List (Sigma Ret)) : Prop := ∀ call ∈ calls, gives matchups members call

/-- A run that begins with both reads has read them. -/
theorem Given.read {platform platformLeagueID leagueID : String} {found : List PlatformMatchup}
    {stream : RowStream LeagueMember} {rest : List (Sigma Ret)}
    (h : Given matchups members (⟨.platformMatchups platform platformLeagueID week, .ok found⟩ ::
      ⟨.query (.leagueMembers leagueID), .ok stream⟩ :: rest)) :
    found = matchups ∧ stream.rows = members := by
  obtain ⟨hmatchups, hrest⟩ := List.forall_mem_cons.mp h
  obtain ⟨hmembers, -⟩ := List.forall_mem_cons.mp hrest
  exact ⟨of_decide_eq_true hmatchups, of_decide_eq_true hmembers⟩

/-- The run sends the entries in one transaction, or none if there are no entries. -/
def SendsEntries (entries : List (Address × Int64)) (calls : List (Sigma Ret)) : Prop :=
  entries = [] ∧ SendsNothing calls ∨
    ∃ before purpose key recipients amounts answer rest,
      calls = before ++ ⟨.contractExecute purpose key recipients amounts, answer⟩ :: rest ∧
        SendsNothing before ∧ SendsNothing rest ∧ recipients.length = amounts.length ∧
        recipients.zip amounts = entries

/-- The events are read to the end, if the call reads events. -/
def readsToEnd : Sigma Ret → Bool
  | ⟨.query (.unexecutedEvents _ _), .ok stream⟩ => stream.err.isNone
  | _ => true

/-- The run reads events to the end. -/
def ReadsAllEvents (calls : List (Sigma Ret)) : Prop := ∀ call ∈ calls, readsToEnd call

/-- After a failed run from `w`, a statement that it was told to have failed may take effect. -/
def Settles (w w₁ w₂ : World) : Prop :=
  w₂ = w₁ ∨ ∃ now fresh, w₁.land w.inFlight.length now fresh = some w₂

/-- The run pays each unexecuted event of the week whose wallet resolves: its lookups are those of
all these events, in some order, and it sends the amount of each resolved one to its address. -/
def PaysUnexecuted (league : OracleLeague) (week : ℤ) (db : Database) (calls : List (Sigma Ret)) :
    Prop :=
  ∃ events mirrors, events.Perm (db.unexecutedEvents league.id week) ∧
    mirrors.length = events.length ∧ lookups events mirrors <:+: calls ∧
      SendsEntries (paidEntries (resolvedEvents events mirrors)) calls

/-- A run without error reads the events after it has recorded all planned ones, and pays what it
reads. -/
theorem WeeklyRun.recorded (h : WeeklyRun league entries week calls (.ok ()))
    (hgiven : Given matchups members calls) (hleads : Leads World.answers w calls w') :
    ∃ (u : World) (stream : RowStream WeeklyEvent) (paying before : List (Sigma Ret)),
      calls = before ++ ⟨.query (.unexecutedEvents league.id week), .ok stream⟩ ::
        paying ∧ SendsNothing before ∧ Pays stream.rows paying (.ok ()) ∧
      (Query.unexecutedEvents league.id week).Answers u.db stream ∧ OnlyRecords w.db u.db ∧
      u.db.records = FirstWins.addAll WeeklyEventRow.key w.db.records
        (plannedEvents league week members matchups entries) ∧ w'.db.records = u.db.records := by
  cases h with
  | pays found stream events hinserts hpays =>
    obtain ⟨rfl, rfl⟩ := hgiven.read
    obtain ⟨u, hanswers, honly, hrecords, hsame⟩ := hpays.recorded hinserts hleads
    refine ⟨u, events, _, _ :: _ :: _, rfl, ?_, hpays, hanswers, honly, hrecords, hsame⟩
    exact List.forall_mem_cons.mpr ⟨rfl, List.forall_mem_cons.mpr ⟨rfl, hinserts.sendsNothing⟩⟩

/-- A run that fails before its transaction has recorded the planned events up to one of them, which
may be in flight. -/
theorem WeeklyRun.stopped {err : GoError} (h : WeeklyRun league entries week calls (.error err))
    (hgiven : Given matchups members calls) (hleads : Leads World.answers w calls w')
    (hnothing : SendsNothing calls) : ∃ front back,
      plannedEvents league week members matchups entries = front ++ back ∧
      w'.db.records = FirstWins.addAll WeeklyEventRow.key w.db.records front ∧
        OnlyRecords w.db w'.db ∧
      (w'.inFlight = w.inFlight ∨
        ∃ e later, back = e :: later ∧ w'.inFlight = w.inFlight ++ [e.insertion]) := by
  cases h with
  | noMatchups e err =>
    obtain ⟨u, hread, rfl⟩ := hleads
    obtain ⟨hdb, hflight⟩ := answers_same rfl hread
    exact ⟨[], _, rfl, by rw [hdb]; rfl, hdb ▸ .refl _, .inl hflight⟩
  | noMembers found e err =>
    obtain ⟨u, hdb, hflight, rfl⟩ := leads_reads rfl rfl hleads
    exact ⟨[], _, rfl, by rw [hdb]; rfl, hdb ▸ .refl _, .inl hflight⟩
  | notRecorded found stream hinserts =>
    obtain ⟨rfl, rfl⟩ := hgiven.read
    obtain ⟨u, hdb, hflight, hrest⟩ := leads_reads rfl rfl hleads
    obtain ⟨front, e, back, hplanned, hrecords, honly, hlast⟩ := hinserts.records_error hrest
    rw [map_record_of_subset (hplanned ▸ List.subset_append_left front _), hdb] at hrecords
    exact ⟨front, e :: back, hplanned, hrecords, hdb ▸ honly, .inr ⟨e, back, rfl, hflight ▸ hlast⟩⟩
  | notRead found stream e err hinserts =>
    obtain ⟨rfl, rfl⟩ := hgiven.read
    obtain ⟨u, hdb, hflight, hrest⟩ := leads_reads rfl rfl hleads
    obtain ⟨v, hinserted, x, hquery, rfl⟩ := leads_append.mp hrest
    obtain ⟨hrecords, honly, hlast⟩ := hinserts.records hinserted
    obtain ⟨hsame, hsame'⟩ := answers_same rfl hquery
    rw [map_record_of_subset (List.Subset.refl _), hdb] at hrecords
    exact ⟨_, [], (List.append_nil _).symm, hsame ▸ hrecords, hsame ▸ hdb ▸ honly,
      .inl (hsame'.trans (hlast.trans hflight))⟩
  | pays found stream events hinserts hpays =>
    obtain ⟨rfl, rfl⟩ := hgiven.read
    obtain ⟨u, hdb, hflight, hrest⟩ := leads_reads rfl rfl hleads
    obtain ⟨v, hinserted, x, hquery, hpaid⟩ := leads_append.mp hrest
    obtain ⟨hrecords, honly, hlast⟩ := hinserts.records hinserted
    obtain ⟨hsame, hsame'⟩ := answers_same rfl hquery
    obtain ⟨hend, hend'⟩ := (hpays.leads hpaid).2 fun call hcall => hnothing call (by simp [hcall])
    rw [map_record_of_subset (List.Subset.refl _), hdb] at hrecords
    refine ⟨_, [], (List.append_nil _).symm, ?_, ?_, .inl ?_⟩
    · rw [hend, hsame, hrecords]
    · rw [hend, hsame, ← hdb]
      exact honly
    · rw [hend', hsame', hlast, hflight]

/-- Whatever becomes of a failed statement, a failed run has recorded the planned events up to one
of them. -/
theorem WeeklyRun.settled {err : GoError} (h : WeeklyRun league entries week calls (.error err))
    (hgiven : Given matchups members calls) (hleads : Leads World.answers w calls w₁)
    (hnothing : SendsNothing calls) (hsettles : Settles w w₁ w₂) : ∃ front back,
      plannedEvents league week members matchups entries = front ++ back ∧
      w₂.db.records = FirstWins.addAll WeeklyEventRow.key w.db.records front ∧
      OnlyRecords w.db w₁.db ∧ OnlyRecords w₁.db w₂.db := by
  obtain ⟨front, back, hplanned, hrecords, honly, hflight⟩ := h.stopped hgiven hleads hnothing
  rcases hsettles with rfl | ⟨now, fresh, hland⟩
  · exact ⟨front, back, hplanned, hrecords, honly, .refl _⟩
  unfold World.land at hland
  rcases hflight with hsame | ⟨e, later, rfl, hflight⟩
  · simp [hsame] at hland
  · have hmem : e ∈ plannedEvents league week members matchups entries := by simp [hplanned]
    have hself := record_plannedEvent hmem
    simp only [hflight, List.getElem?_concat_length, Option.bind_eq_bind, Option.bind_some] at hland
    split_ifs at hland
    obtain ⟨⟨n, db⟩, hrun, hlands⟩ := Option.bind_eq_some_iff.mp hland
    obtain rfl := Option.some.inj hlands
    obtain ⟨hadded, honly'⟩ := insertion_run hrun
    refine ⟨front ++ [e], later, by simp [hplanned], ?_, honly, honly'⟩
    rw [FirstWins.addAll_append, ← hrecords, FirstWins.addAll_cons, FirstWins.addAll_nil,
      hadded, hself]

/-- A run without error pays each unexecuted event that it reads. -/
theorem Pays.sendsEntries {events : List WeeklyEvent} (h : Pays events calls (.ok ())) :
    ∃ mirrors, mirrors.length = events.length ∧ lookups events mirrors <+: calls ∧
      SendsEntries (paidEntries (resolvedEvents events mirrors)) calls := by
  cases h with
  | nothing hlength hnone =>
    refine ⟨_, hlength, List.prefix_rfl, .inl ⟨?_, sendsNothing_asksMirror asksMirror_lookups⟩⟩
    rw [hnone]
    rfl
  | sent hlength read hread purpose key recipients amounts answer hequal hentries hrest =>
    rename_i mirrors rest
    refine ⟨mirrors, hlength, List.prefix_append _ _,
      .inr ⟨lookups events mirrors ++ [read], purpose,
      key, recipients, amounts, answer, rest, ?_, ?_, sendsNothing_marksSent hrest,
        hequal, hentries⟩⟩
    · simp
    · refine sendsNothing_asksMirror fun call hcall => ?_
      rcases List.mem_append.mp hcall with hcall | hcall
      · exact asksMirror_lookups call hcall
      · exact List.mem_singleton.mp hcall ▸ hread

/-- Calls that send nothing may come first. -/
theorem SendsEntries.append {sent : List (Address × Int64)} {first rest : List (Sigma Ret)}
    (hfirst : SendsNothing first) (h : SendsEntries sent rest) :
    SendsEntries sent (first ++ rest) := by
  rcases h with ⟨hnone, hrest⟩ | ⟨before, purpose, key, recipients, amounts, answer, after, rfl,
    hbefore, hafter, hequal, hzip⟩
  · exact .inl ⟨hnone, List.forall_mem_append.mpr ⟨hfirst, hrest⟩⟩
  · refine .inr ⟨first ++ before, purpose, key, recipients, amounts, answer, after, ?_, ?_, hafter,
      hequal, hzip⟩
    · rw [List.append_assoc]
    · exact List.forall_mem_append.mpr ⟨hfirst, hbefore⟩

/-- **A failed weekly run loses and duplicates nothing.** A run that fails before its transaction
changes no event and marks none executed. After it, a run without failure leaves the records of a
single run without failure, and pays each event that is then unexecuted and whose wallet resolves.
-/
theorem retry_loses_nothing {err : GoError}
    (hfailed : (processWeeklyPayoutsForLeague svc league entries week).run.Yields
      (.error err) calls)
    (hleads : Leads World.answers w calls w₁) (hgiven : Given matchups members calls)
    (hnothing : SendsNothing calls) (hsettles : Settles w w₁ w₂) :
    OnlyRecords w.db w₁.db ∧ OnlyRecords w₁.db w₂.db ∧ ∀ later w₃,
      (processWeeklyPayoutsForLeague svc league entries week).run.Yields (.ok ()) later →
      Leads World.answers w₂ later w₃ → Given matchups members later →
      ReadsAllEvents later →
        (∀ single w', (processWeeklyPayoutsForLeague svc league entries week).run.Yields (.ok ())
            single → Leads World.answers w single w' → Given matchups members single →
          w₃.db.records = w'.db.records) ∧
        ∃ db, OnlyRecords w₂.db db ∧ db.records = w₃.db.records ∧
          PaysUnexecuted league week db later := by
  obtain ⟨front, back, hplanned, hrecords, honly, honly'⟩ :=
    (weeklyRun_of_yields hfailed).settled hgiven hleads hnothing hsettles
  refine ⟨honly, honly', fun later w₃ hlater hleads' hgiven' hreads => ?_⟩
  obtain ⟨u, stream, paying, before, rfl, hbefore, hpays, hanswers, honlyu, hrecordsu, hsame⟩ :=
    (weeklyRun_of_yields hlater).recorded hgiven' hleads'
  have hall : w₃.db.records = FirstWins.addAll WeeklyEventRow.key w.db.records
      (plannedEvents league week members matchups entries) := by
    rw [hsame, hrecordsu, hrecords, hplanned, FirstWins.addAll_again]
  refine ⟨fun single w' hsingle hleadsw hgivenw => ?_, u.db, honlyu, hsame.symm, ?_⟩
  · obtain ⟨u', -, -, -, -, -, -, -, -, hrecordsw, hsamew⟩ :=
      (weeklyRun_of_yields hsingle).recorded hgivenw hleadsw
    rw [hall, hsamew, hrecordsw]
  · obtain ⟨order, hperm, -, -, hcomplete⟩ := hanswers
    have hend : stream.err.isNone :=
      hreads ⟨.query (.unexecutedEvents league.id week), .ok stream⟩ (by simp)
    have hrows : stream.rows = order := hcomplete (Option.isNone_iff_eq_none.mp hend)
    obtain ⟨mirrors, hlength, hprefix, hsends⟩ := hpays.sendsEntries
    refine ⟨stream.rows, mirrors, hrows ▸ hperm, hlength, ?_, ?_⟩
    · refine hprefix.isInfix.trans ?_
      exact ⟨before ++ [⟨.query (.unexecutedEvents league.id week), .ok stream⟩], [], by simp⟩
    · have hquery : SendsNothing [⟨.query (.unexecutedEvents league.id week), .ok stream⟩] :=
        List.forall_mem_singleton.mpr rfl
      exact hsends.append hquery |>.append hbefore

/-! ## A late insertion -/

/-- Something may happen on the chain before a call is answered. -/
def World.respondAfter (d : Option Activity × Decision) (w : World) (c : Call) :
    Option (Ret c × World) :=
  match d.1 with
  | none => w.respond d.2 c
  | some a => if a.onChain then (w.act a).bind fun u => u.respond d.2 c else none

/-- These are possible answers. -/
theorem World.respondAfter_answers {d : Option Activity × Decision} {c : Call} {r : Ret c}
    (h : respondAfter d w c = some (r, w')) : w.answers c r w' := by
  obtain ⟨a, d⟩ := d
  cases a with
  | none => exact ⟨w, .refl, respond_handles h⟩
  | some a =>
    simp only [respondAfter] at h
    split_ifs at h with hchain
    obtain ⟨u, hact, hanswer⟩ := Option.bind_eq_some_iff.mp h
    exact ⟨u, .single ⟨a, hchain, hact⟩, respond_handles hanswer⟩

/-- What is answered in this way is a run. -/
theorem follow_respondAfter {α : Type} {ds : List (Option Activity × Decision)} {x : Job α} {a : α}
    (h : follow World.respondAfter ds w x = some (a, calls, w')) :
    x.Yields a calls ∧ Leads World.answers w calls w' := by
  refine follow_runs ?_ h
  exact World.respondAfter_answers

/-- The league of the schedules. -/
def scheduledLeague : OracleLeague := ⟨Schedule.leagueID, "sleeper", "7", []⟩

/-- A rule that pays one dollar for ninety points. -/
def ninetyPoints : PayoutEntry :=
  { Schedule.highScore with
    bonusType := "score_threshold"
    criteria := some (some 90) }

/-- A run for a week with two prizes. -/
abbrev twoPrizes : Go Unit :=
  processWeeklyPayoutsForLeague .mock scheduledLeague [Schedule.highScore, ninetyPoints] 1

/-- The league has one member and a pool of two dollars. -/
def twoDollarLeague : Schedule :=
  Schedule.fundedLeague Schedule.highScore ++
    [.env (.payEntryFee 10 Schedule.leagueKey Schedule.dollar)]

/-- What the mirror node reports for a pool of two dollars. -/
def twoDollars : String := "00000000000000000000000000000000000000000000000000000000001e8480"

/-- The only team has a hundred points. -/
def oneTeam : List PlatformMatchup := [⟨1, 1, 100⟩]

/-- Its members. -/
def scheduledMembers (db : Database) : List LeagueMember :=
  (db.members.rows.filter fun m => m.leagueID = Schedule.leagueID).flatMap db.memberRows

/-- The second insertion fails. -/
def failedRun : List (Option Activity × Decision) :=
  [(none, .reply (.platformMatchups "sleeper" "7" 1) (.ok oneTeam)), (none, .succeed 0 ""),
    (none, .succeed 0 "e1"), (none, .fail)]

/-- Both events are paid. -/
def completeRun : List (Option Activity × Decision) :=
  [(none, .reply (.platformMatchups "sleeper" "7" 1) (.ok oneTeam)), (none, .succeed 0 ""),
    (none, .succeed 0 "f3"), (none, .succeed 0 "f4"), (none, .succeed 0 ""),
    (none, .reply (.mirrorAccount "0.0.9") none), (none, .reply (.mirrorAccount "0.0.9") none),
    (none, .reply (.contractCall 5 (.leagueTotals Schedule.leagueKey)) (.ok twoDollars)),
    (none, .succeed 0 "tx"), (some (.settle 0 true), .succeed 0 ""), (none, .succeed 0 "f5"),
    (none, .succeed 0 "f6")]

/-- The second insertion fails and takes effect late; the next run pays both events. -/
theorem retry_loses_nothing_lateInsertion : ∃ (w w₁ w₂ w₃ : World) (e : GoError)
    (calls later : List (Sigma Ret)), twoPrizes.run.Yields (.error e) calls ∧
    Leads World.answers w calls w₁ ∧ w₁.land 0 0 "e2" = some w₂ ∧
    twoPrizes.run.Yields (.ok ()) later ∧ Leads World.answers w₂ later w₃ ∧
    OnlyRecords w.db w₁.db ∧ w₁.db.records.length = 1 ∧ w₃.db.records.length = 2 ∧
    ∃ db, OnlyRecords w₂.db db ∧ db.records = w₃.db.records ∧
      PaysUnexecuted scheduledLeague 1 db later := by
  have hreplay : (twoDollarLeague.replay .mock .mock fun _ _ => true).any (fun a =>
      (follow World.respondAfter failedRun a.world twoPrizes.run).any fun f =>
        !f.1.isOk && f.2.1.all (gives oneTeam (scheduledMembers a.world.db)) &&
        f.2.1.all (fun call => !call.1.sends) && f.2.2.db.records.length == 1 &&
        a.world.inFlight.length == 0 &&
        (f.2.2.land 0 0 "e2").any fun w₂ =>
          (follow World.respondAfter completeRun w₂ twoPrizes.run).any fun g =>
            g.1.isOk && g.2.1.all (gives oneTeam (scheduledMembers a.world.db)) &&
            g.2.1.all readsToEnd && g.2.2.db.records.length == 2) = true := by
    decide +kernel
  obtain ⟨a, -, hfailed⟩ := (Option.any_eq_true _ _).mp hreplay
  obtain ⟨⟨r, calls, w₁⟩, hf, hfailed⟩ := (Option.any_eq_true _ _).mp hfailed
  obtain ⟨hfailed, hlater⟩ := Bool.and_eq_true_iff.mp hfailed
  obtain ⟨w₂, hland, hlater⟩ := (Option.any_eq_true _ _).mp hlater
  obtain ⟨⟨r', later, w₃⟩, hg, hlater⟩ := (Option.any_eq_true _ _).mp hlater
  simp only [Bool.and_eq_true, List.all_eq_true, Bool.not_eq_true', beq_iff_eq] at hfailed hlater
  obtain ⟨⟨⟨⟨herror, hgiven⟩, hnothing⟩, hone⟩, hflight⟩ := hfailed
  obtain ⟨⟨⟨hok, hgiven'⟩, hreads⟩, htwo⟩ := hlater
  obtain ⟨hyields, hleads⟩ := follow_respondAfter hf
  obtain ⟨hyields', hleads'⟩ := follow_respondAfter hg
  cases r with
  | ok _ => cases herror
  | error e =>
    cases r' with
    | error _ => cases hok
    | ok _ =>
      have hsettles : Settles a.world w₁ w₂ := .inr ⟨0, "e2", hflight ▸ hland⟩
      have hresult := retry_loses_nothing hyields hleads hgiven hnothing hsettles
      exact ⟨a.world, w₁, w₂, w₃, e, calls, later, hyields, hleads, hland, hyields', hleads',
        hresult.1, hone, htwo, (hresult.2.2 later w₃ hyields' hleads' hgiven' hreads).2⟩

end Wagr
