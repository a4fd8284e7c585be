import Wagr.Payouts.WeeklyRetry
import Mathlib.Data.Set.Card

/-!
# The prizes of a week

Every entry promises its prize to every team that qualifies for it. The events of a week are keyed
by team and type, and what comes second under a key is not recorded. So every prize has an event of
its own exactly if no team has two prizes of one type.
-/

namespace Wagr

open Interaction Protocol Program

variable {svc : Service} {league : OracleLeague} {entries : List PayoutEntry} {week : ℤ}
  {members : List LeagueMember} {matchups : List PlatformMatchup} {calls : List (Sigma Ret)}
  {r : Except GoError Unit} {w w' : World}

/-- Entry `i` promises its prize to a team whose member has a wallet. -/
structure Promises (entries : List PayoutEntry) (matchups : List PlatformMatchup)
    (members : List LeagueMember) (i : ℕ) (rosterID : ℤ) (entry : PayoutEntry)
    (member : LeagueMember) : Prop where
  isEntry : entries[i]? = some entry
  qualifies : ∃ m ∈ weeklyQualifiers (matchups.filter fun m => 0 < m.matchupID) entry,
    m.rosterID = rosterID
  isMember : memberByRoster members rosterID = some member
  hasWallet : member.walletAddress ≠ ""

/-- The prizes: positions of entries with teams. -/
def prizes (entries : List PayoutEntry) (matchups : List PlatformMatchup)
    (members : List LeagueMember) : Set (ℕ × ℤ) :=
  {p | ∃ entry member, Promises entries matchups members p.1 p.2 entry member}

/-- An event of the week pays a team an amount. -/
structure WeeklyEventRow.PaysTeam (e : WeeklyEventRow) (league : OracleLeague) (week rosterID : ℤ)
    (amountCents : Int64) (walletAddress : String) : Prop where
  leagueID : e.leagueID = league.id
  week : e.week = week
  rosterID : e.rosterID = rosterID
  amountCents : e.amountCents = amountCents
  walletAddress : e.walletAddress = walletAddress

/-- Every prize has an event of its own, which pays the team the amount of the entry. -/
def EveryPrizeRecorded (league : OracleLeague) (entries : List PayoutEntry) (week : ℤ)
    (matchups : List PlatformMatchup) (members : List LeagueMember) (db : Database) : Prop :=
  ∃ event : ℕ × ℤ → WeeklyEventRow, Set.InjOn event (prizes entries matchups members) ∧
    ∀ i rosterID entry member, Promises entries matchups members i rosterID entry member →
      event (i, rosterID) ∈ db.weeklyEvents.rows ∧ (event (i, rosterID)).PaysTeam league week
        rosterID entry.amountCents member.walletAddress

/-- No team with a wallet has two prizes of one type. -/
def OnePrizePerType (entries : List PayoutEntry) (matchups : List PlatformMatchup)
    (members : List LeagueMember) : Prop :=
  ∀ i j rosterID entry entry' member member',
    Promises entries matchups members i rosterID entry member →
    Promises entries matchups members j rosterID entry' member' →
    entry.bonusType = entry'.bonusType → i = j

/-- The platform answers, and no statement or query fails. -/
def undisturbed : Sigma Ret → Bool
  | ⟨.platformMatchups _ _ _, .error _⟩ => false
  | ⟨.exec _, .error _⟩ => false
  | ⟨.query _, .error _⟩ => false
  | ⟨.query (.leagueMembers _), .ok stream⟩ => stream.err.isNone
  | ⟨.query (.unexecutedEvents _ _), .ok stream⟩ => stream.err.isNone
  | _ => true

/-- Insertions that fail have a call that fails. -/
theorem Inserts.not_undisturbed {planned : List WeeklyEventRow} {e : GoError}
    (h : Inserts planned calls (.error e)) : ∃ call ∈ calls, undisturbed call = false := by
  generalize herr : (Except.error e : Except GoError Unit) = error at h
  induction h with
  | done => cases herr
  | next n _ ih =>
    obtain ⟨call, hcall, hfails⟩ := ih herr
    exact ⟨call, List.mem_cons_of_mem _ hcall, hfails⟩
  | fail => exact ⟨_, List.mem_cons_self, rfl⟩

/-- Without such failures a run records all planned events. -/
theorem WeeklyRun.records (h : WeeklyRun league entries week calls r)
    (hleads : Leads World.answers w calls w') (hgiven : Given matchups members calls)
    (hcalls : ∀ call ∈ calls, undisturbed call) :
    w'.db.records = FirstWins.addAll WeeklyEventRow.key w.db.records
      (plannedEvents league week members matchups entries) := by
  cases h with
  | noMatchups e err =>
    have hfails := hcalls _ List.mem_cons_self
    cases hfails
  | noMembers found e err =>
    have hfails := hcalls _ (List.mem_cons_of_mem _ List.mem_cons_self)
    cases hfails
  | notRecorded found stream hinserts =>
    obtain ⟨call, hcall, hfails⟩ := hinserts.not_undisturbed
    have hworks := hcalls call (List.mem_cons_of_mem _ (List.mem_cons_of_mem _ hcall))
    exact absurd hworks (by simp [hfails])
  | notRead found stream e err hinserts =>
    have hfails := hcalls ⟨.query (.unexecutedEvents league.id week), .error e⟩ (by simp)
    cases hfails
  | pays found stream events hinserts hpays =>
    obtain ⟨rfl, rfl⟩ := hgiven.read
    obtain ⟨u, -, -, hrecords, hsame⟩ := hpays.recorded hinserts hleads
    rw [hsame, hrecords]

/-- The planned events are those of the prizes. -/
theorem mem_plannedEvents {e : WeeklyEventRow}
    (he : e ∈ plannedEvents league week members matchups entries) :
    ∃ i entry member, Promises entries matchups members i e.rosterID entry member ∧
      e.payoutType = entry.bonusType ∧
      e.PaysTeam league week e.rosterID entry.amountCents member.walletAddress := by
  obtain ⟨entry, hentry, he⟩ := List.mem_flatMap.mp he
  obtain ⟨m, hm, hevent⟩ := mem_entryEvents.mp he
  obtain ⟨member, hmember, hwallet, rfl⟩ := qualifierEvent_eq_some.mp hevent
  obtain ⟨i, hi⟩ := List.mem_iff_getElem?.mp hentry
  exact ⟨i, entry, member, ⟨hi, ⟨m, hm, rfl⟩, hmember, hwallet⟩, rfl, rfl, rfl, rfl, rfl, rfl⟩

/-- Every prize is planned. -/
theorem Promises.planned {i : ℕ} {rosterID : ℤ} {entry : PayoutEntry} {member : LeagueMember}
    (h : Promises entries matchups members i rosterID entry member) :
    ∃ e ∈ plannedEvents league week members matchups entries,
      e.key = (league.id, week, rosterID, entry.bonusType) := by
  obtain ⟨m, hm, rfl⟩ := h.qualifies
  refine ⟨⟨"", league.id, week, m.rosterID, member.platformUserID, entry.bonusType, m.points,
    entry.amountCents, member.walletAddress, none, none⟩, ?_, rfl⟩
  refine List.mem_flatMap.mpr ⟨entry, List.mem_of_getElem? h.isEntry,
    mem_entryEvents.mpr ⟨m, hm, ?_⟩⟩
  exact qualifierEvent_eq_some.mpr ⟨member, h.isMember, h.hasWallet, rfl⟩

/-- No event of the week has been recorded. -/
def FreshWeek (league : OracleLeague) (week : ℤ) (db : Database) : Prop :=
  ∀ e ∈ db.weeklyEvents.rows, ¬ (e.leagueID = league.id ∧ e.week = week)

/-- Events of a fresh week are planned ones. -/
theorem FreshWeek.mem_planned {e : WeeklyEventRow} (hfresh : FreshWeek league week w.db)
    (hrecords : w'.db.records = FirstWins.addAll WeeklyEventRow.key w.db.records
      (plannedEvents league week members matchups entries))
    (he : e ∈ w'.db.weeklyEvents.rows) (hleague : e.leagueID = league.id) (hweek : e.week = week) :
    e.record ∈ plannedEvents league week members matchups entries := by
  have hmem : e.record ∈ w'.db.records := List.mem_map_of_mem he
  rw [hrecords] at hmem
  rcases FirstWins.mem_addAll hmem with hold | ⟨hnew, -⟩
  · obtain ⟨e', he', hsame⟩ := List.mem_map.mp hold
    have hleague' : e'.record.leagueID = e.record.leagueID := by rw [hsame]
    have hweek' : e'.record.week = e.record.week := by rw [hsame]
    exact absurd ⟨hleague'.trans hleague, hweek'.trans hweek⟩ (hfresh e' he')
  · exact hnew

/-- In a fresh week every prize gets an event under its key. -/
theorem FreshWeek.exists_event {i : ℕ} {rosterID : ℤ} {entry : PayoutEntry} {member : LeagueMember}
    (hfresh : FreshWeek league week w.db)
    (hrecords : w'.db.records = FirstWins.addAll WeeklyEventRow.key w.db.records
      (plannedEvents league week members matchups entries))
    (h : Promises entries matchups members i rosterID entry member) :
    ∃ e ∈ w'.db.weeklyEvents.rows, e.key = (league.id, week, rosterID, entry.bonusType) := by
  obtain ⟨e, he, hkey⟩ : ∃ e ∈ plannedEvents league week members matchups entries,
      e.key = (league.id, week, rosterID, entry.bonusType) := h.planned
  have hnew : e.key ∉ w.db.records.map WeeklyEventRow.key := by
    rw [keys_records, hkey]
    intro hold
    obtain ⟨e', he', hsame⟩ := List.mem_map.mp hold
    simp only [WeeklyEventRow.key, Prod.mk.injEq] at hsame
    exact hfresh e' he' ⟨hsame.1, hsame.2.1⟩
  obtain ⟨e', -, hsame, hadded⟩ := FirstWins.exists_mem_addAll he hnew
  rw [← hrecords] at hadded
  obtain ⟨e'', he'', rfl⟩ := List.mem_map.mp hadded
  exact ⟨e'', he'', hsame.trans hkey⟩

/-- The type of the entry at a position. -/
def typeAt (entries : List PayoutEntry) (i : ℕ) : String :=
  (entries[i]?.map PayoutEntry.bonusType).getD ""

theorem Promises.typeAt_eq {i : ℕ} {rosterID : ℤ} {entry : PayoutEntry} {member : LeagueMember}
    (h : Promises entries matchups members i rosterID entry member) :
    typeAt entries i = entry.bonusType := by
  simp [typeAt, h.isEntry]

/-- What injects a finite set into the image of a function shows that the function does, too. -/
theorem injOn_of_mapsTo_image {ι τ : Type} {s : Set ι} {f g : ι → τ} (hs : s.Finite)
    (hg : Set.InjOn g s) (hmaps : ∀ i ∈ s, g i ∈ f '' s) : Set.InjOn f s := by
  refine Set.injOn_of_ncard_image_eq (le_antisymm (Set.ncard_image_le hs) ?_) hs
  exact Set.ncard_le_ncard_of_injOn g hmaps hg (hs.image f)

/-- Only finitely many entries have a prize for a team. -/
theorem finite_prizes (rosterID : ℤ) :
    {i | (i, rosterID) ∈ prizes entries matchups members}.Finite := by
  refine (Set.finite_lt_nat entries.length).subset ?_
  rintro i ⟨entry, member, hpromise⟩
  exact (List.getElem?_eq_some_iff.mp hpromise.isEntry).1

/-- Events of their own need different types: a team has no more events than types. -/
theorem EveryPrizeRecorded.onePrizePerType (hfresh : FreshWeek league week w.db)
    (hrecords : w'.db.records = FirstWins.addAll WeeklyEventRow.key w.db.records
      (plannedEvents league week members matchups entries))
    (h : EveryPrizeRecorded league entries week matchups members w'.db) :
    OnePrizePerType entries matchups members := by
  obtain ⟨event, hinj, hevent⟩ := h
  intro i j rosterID entry entry' member member' hi hj hsame
  have htypes : Set.InjOn (typeAt entries)
      {k | (k, rosterID) ∈ prizes entries matchups members} := by
    have hg : Set.InjOn (fun k => (event (k, rosterID)).payoutType)
        {k | (k, rosterID) ∈ prizes entries matchups members} := by
      intro k hk l hl htype
      obtain ⟨entryₖ, memberₖ, hpromise⟩ := id hk
      obtain ⟨entryₗ, memberₗ, hpromise'⟩ := id hl
      obtain ⟨hrow, hpays⟩ := hevent k rosterID entryₖ memberₖ hpromise
      obtain ⟨hrow', hpays'⟩ := hevent l rosterID entryₗ memberₗ hpromise'
      have hkey : (event (k, rosterID)).key = (event (l, rosterID)).key := by
        simp only [WeeklyEventRow.key, hpays.leagueID, hpays'.leagueID, hpays.week, hpays'.week,
          hpays.rosterID, hpays'.rosterID, Prod.mk.injEq, true_and]
        exact htype
      have hrows := w'.db.weeklyEvents.eq_of_key hrow hrow' hkey
      exact congrArg Prod.fst (hinj hk hl hrows)
    refine injOn_of_mapsTo_image (finite_prizes rosterID) hg ?_
    rintro k ⟨entryₖ, memberₖ, hpromise⟩
    obtain ⟨hrow, hpays⟩ := hevent k rosterID entryₖ memberₖ hpromise
    have hplanned := hfresh.mem_planned hrecords hrow hpays.leagueID hpays.week
    obtain ⟨l, entryₗ, memberₗ, hpromise', htype, -⟩ := mem_plannedEvents hplanned
    have hroster : (event (k, rosterID)).record.rosterID = rosterID := hpays.rosterID
    rw [hroster] at hpromise'
    exact ⟨l, ⟨entryₗ, memberₗ, hpromise'⟩, hpromise'.typeAt_eq.trans htype.symm⟩
  refine htypes ⟨entry, member, hi⟩ ⟨entry', member', hj⟩ ?_
  rw [hi.typeAt_eq, hj.typeAt_eq, hsame]

/-- With different types every prize has the event under its key. -/
theorem OnePrizePerType.everyPrizeRecorded (hfresh : FreshWeek league week w.db)
    (hrecords : w'.db.records = FirstWins.addAll WeeklyEventRow.key w.db.records
      (plannedEvents league week members matchups entries))
    (h : OnePrizePerType entries matchups members) :
    EveryPrizeRecorded league entries week matchups members w'.db := by
  have hsome : ∀ p ∈ prizes entries matchups members, ∃ e ∈ w'.db.weeklyEvents.rows,
      e.key = (league.id, week, p.2, typeAt entries p.1) := by
    rintro p ⟨entry, member, hpromise⟩
    rw [hpromise.typeAt_eq]
    exact hfresh.exists_event hrecords hpromise
  have hnonempty : Nonempty WeeklyEventRow := ⟨⟨"", "", 0, 0, "", "", 0, 0, "", none, none⟩⟩
  choose! event hrow hkey using hsome
  refine ⟨event, ?_, fun i rosterID entry member hpromise => ?_⟩
  · rintro ⟨i, rosterID⟩ hi ⟨j, rosterID'⟩ hj heq
    have hkeys := (hkey _ hi).symm.trans (heq ▸ hkey _ hj)
    simp only [Prod.mk.injEq, true_and] at hkeys
    obtain ⟨rfl, htype⟩ := hkeys
    obtain ⟨entry, member, hpromise⟩ := hi
    obtain ⟨entry', member', hpromise'⟩ := hj
    rw [hpromise.typeAt_eq, hpromise'.typeAt_eq] at htype
    rw [h i j rosterID entry entry' member member' hpromise hpromise' htype]
  · have hi : (i, rosterID) ∈ prizes entries matchups members := ⟨entry, member, hpromise⟩
    have hkeys := hkey _ hi
    simp only [WeeklyEventRow.key, hpromise.typeAt_eq, Prod.mk.injEq] at hkeys
    obtain ⟨hleague, hweek, hroster, htype⟩ := hkeys
    have hplanned := hfresh.mem_planned hrecords (hrow _ hi) hleague hweek
    obtain ⟨j, entry', member', hpromise', htype', hpays⟩ := mem_plannedEvents hplanned
    have hroster' : (event (i, rosterID)).record.rosterID = rosterID := hroster
    rw [hroster'] at hpromise'
    obtain rfl : i = j := h i j rosterID entry entry' member member' hpromise hpromise'
      (htype.symm.trans htype')
    obtain rfl : entry = entry' :=
      Option.some.inj (hpromise.isEntry.symm.trans hpromise'.isEntry)
    obtain rfl : member = member' :=
      Option.some.inj (hpromise.isMember.symm.trans hpromise'.isMember)
    exact ⟨hrow _ hi, hleague, hweek, hroster, hpays.amountCents, hpays.walletAddress⟩

/-- **Every prize of a week is recorded exactly if no team has two prizes of one type.** In a run on
a week without events in which nothing fails that the run reads or writes, each prize gets an event
of its own exactly then. -/
theorem everyPrizeRecorded_iff
    (h : (processWeeklyPayoutsForLeague svc league entries week).run.Yields r calls)
    (hleads : Leads World.answers w calls w') (hgiven : Given matchups members calls)
    (hcalls : ∀ call ∈ calls, undisturbed call) (hfresh : FreshWeek league week w.db) :
    EveryPrizeRecorded league entries week matchups members w'.db ↔
      OnePrizePerType entries matchups members := by
  have hrecords := (weeklyRun_of_yields h).records hleads hgiven hcalls
  constructor
  · exact fun hrecorded => hrecorded.onePrizePerType hfresh hrecords
  · exact fun htypes => htypes.everyPrizeRecorded hfresh hrecords

/-- Entries of different types promise no team two prizes of one type. -/
theorem onePrizePerType_of_nodup (h : (entries.map PayoutEntry.bonusType).Nodup) :
    OnePrizePerType entries matchups members := by
  intro i j rosterID entry entry' member member' hi hj hsame
  have hlt := (List.getElem?_eq_some_iff.mp hi.isEntry).1
  refine (List.getElem?_inj (by simpa using hlt) h).mp ?_
  rw [List.getElem?_map, List.getElem?_map, hi.isEntry, hj.isEntry]
  exact congrArg some hsame

/-- Without events there is no event of the week. -/
theorem freshWeek_of_isEmpty {db : Database} (h : db.weeklyEvents.rows.isEmpty = true) :
    FreshWeek league week db := by
  intro e he
  rw [List.isEmpty_iff.mp h] at he
  cases he

/-- A run that records and pays the prizes of the only team. -/
theorem everyPrizeRecorded_twoPrizes : ∃ (w w' : World) (calls : List (Sigma Ret)),
    twoPrizes.run.Yields (.ok ()) calls ∧ Leads World.answers w calls w' ∧
    EveryPrizeRecorded scheduledLeague [Schedule.highScore, ninetyPoints] 1 oneTeam
      (scheduledMembers w.db) w'.db := by
  have hreplay : (twoDollarLeague.replay .mock .mock fun _ _ => true).any (fun a =>
      a.world.db.weeklyEvents.rows.isEmpty &&
      (follow World.respondAfter completeRun a.world twoPrizes.run).any fun f =>
        f.1.isOk && f.2.1.all (gives oneTeam (scheduledMembers a.world.db)) &&
        f.2.1.all undisturbed) = true := by
    decide +kernel
  obtain ⟨a, -, hrun⟩ := (Option.any_eq_true _ _).mp hreplay
  obtain ⟨hempty, hrun⟩ := Bool.and_eq_true_iff.mp hrun
  obtain ⟨⟨r, calls, w'⟩, hf, hrun⟩ := (Option.any_eq_true _ _).mp hrun
  simp only [Bool.and_eq_true, List.all_eq_true] at hrun
  obtain ⟨⟨hok, hgiven⟩, hcalls⟩ := hrun
  obtain ⟨hyields, hleads⟩ := follow_respondAfter hf
  cases r with
  | error _ => cases hok
  | ok _ =>
    have htypes : OnePrizePerType [Schedule.highScore, ninetyPoints] oneTeam
        (scheduledMembers a.world.db) := onePrizePerType_of_nodup (by decide)
    exact ⟨a.world, w', calls, hyields, hleads, (everyPrizeRecorded_iff hyields hleads hgiven hcalls
      (freshWeek_of_isEmpty hempty)).mpr htypes⟩

/-! ## Two rules of one type -/

/-- A second rule for the best team, which pays two dollars. -/
def secondHighScore : PayoutEntry := { Schedule.highScore with amountCents := 200 }

/-- A run for a week with two prizes of one type. -/
abbrev twoHighScores : Go Unit :=
  processWeeklyPayoutsForLeague .mock scheduledLeague [Schedule.highScore, secondHighScore] 1

/-- The second insertion finds its key taken, so one event is paid. -/
def oneEventRun : List (Option Activity × Decision) :=
  [(none, .reply (.platformMatchups "sleeper" "7" 1) (.ok oneTeam)), (none, .succeed 0 ""),
    (none, .succeed 0 "f3"), (none, .succeed 0 "f4"), (none, .succeed 0 ""),
    (none, .reply (.mirrorAccount "0.0.9") none),
    (none, .reply (.contractCall 5 (.leagueTotals Schedule.leagueKey)) (.ok twoDollars)),
    (none, .succeed 0 "tx"), (some (.settle 0 true), .succeed 0 ""), (none, .succeed 0 "f5")]

/-- Not every prize is recorded: the best team gets one dollar and never the other two. -/
theorem not_everyPrizeRecorded : ¬ ∀ (svc : Service) (league : OracleLeague)
    (entries : List PayoutEntry) (week : ℤ) (r : Except GoError Unit) (calls : List (Sigma Ret))
    (w w' : World) (matchups : List PlatformMatchup) (members : List LeagueMember),
    (processWeeklyPayoutsForLeague svc league entries week).run.Yields r calls →
    Leads World.answers w calls w' → Given matchups members calls →
    (∀ call ∈ calls, undisturbed call) → FreshWeek league week w.db →
      EveryPrizeRecorded league entries week matchups members w'.db := by
  have hreplay : (twoDollarLeague.replay .mock .mock fun _ _ => true).any (fun a =>
      a.world.db.weeklyEvents.rows.isEmpty &&
      (memberByRoster (scheduledMembers a.world.db) 1).any (fun m => m.walletAddress ≠ "") &&
      (follow World.respondAfter oneEventRun a.world twoHighScores.run).any fun f =>
        f.2.1.all (gives oneTeam (scheduledMembers a.world.db)) &&
        f.2.1.all undisturbed) = true := by
    decide +kernel
  obtain ⟨a, -, hrun⟩ := (Option.any_eq_true _ _).mp hreplay
  obtain ⟨hstart, hrun⟩ := Bool.and_eq_true_iff.mp hrun
  obtain ⟨hempty, hmember⟩ := Bool.and_eq_true_iff.mp hstart
  obtain ⟨member, hmember, hwallet⟩ := (Option.any_eq_true _ _).mp hmember
  obtain ⟨⟨r, calls, w'⟩, hf, hrun⟩ := (Option.any_eq_true _ _).mp hrun
  simp only [Bool.and_eq_true, List.all_eq_true] at hrun
  obtain ⟨hgiven, hcalls⟩ := hrun
  obtain ⟨hyields, hleads⟩ := follow_respondAfter hf
  have hfresh : FreshWeek scheduledLeague 1 a.world.db := freshWeek_of_isEmpty hempty
  have hqualifies : ∀ entry ∈ [Schedule.highScore, secondHighScore],
      ∃ m ∈ weeklyQualifiers (oneTeam.filter fun m => 0 < m.matchupID) entry, m.rosterID = 1 := by
    decide +kernel
  intro hall
  have hrecorded := hall .mock scheduledLeague [Schedule.highScore, secondHighScore] 1 r calls
    a.world w' oneTeam (scheduledMembers a.world.db) hyields hleads hgiven hcalls hfresh
  have htypes := hrecorded.onePrizePerType hfresh
    ((weeklyRun_of_yields hyields).records hleads hgiven hcalls)
  have hsame : 0 = 1 := htypes 0 1 1 Schedule.highScore secondHighScore member member
    ⟨rfl, hqualifies _ (by simp), hmember, of_decide_eq_true hwallet⟩
    ⟨rfl, hqualifies _ (by simp), hmember, of_decide_eq_true hwallet⟩ rfl
  cases hsame

end Wagr
