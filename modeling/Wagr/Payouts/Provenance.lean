import Wagr.Leagues.Commissioner
import Wagr.Payouts.Receipts

/-!
# Why every transfer was made

The oracle pays for rules it has read from the database, to wallets of members it has read there.
The rules were set by a user who was commissioner of the league, and the wallets are those of users
who had linked the platform account of a membership. So every transfer of every payout transaction
goes back to a rule of a commissioner, a roster that has earned its amount, and a user linked to
the roster.
-/

namespace Wagr

open Interaction Protocol System Relational

variable {svc : Service} {crypto : Crypto} {a b : BackendConfig} {l : BackendLabel}
  {ok : BackendConfig → BackendLabel → Prop} {leagueID : String} {entry : PayoutEntry}

/-- The rule is one of a request of a user who was commissioner of the league. -/
def RuleDecided (svc : Service) (crypto : Crypto) (ok : BackendConfig → BackendLabel → Prop)
    (a : BackendConfig) (leagueID : String) (entry : PayoutEntry) : Prop :=
  ∃ userID settings,
    Decided svc crypto ok a leagueID (.updateLeagueSettings leagueID userID settings) ∧
      entry ∈ settings.payoutStructure.getD []

/-- A rule that was decided stays so. -/
theorem RuleDecided.later (h : RuleDecided svc crypto ok a leagueID entry)
    (hlater : (backend svc crypto).Reaches ok a b) :
    RuleDecided svc crypto ok b leagueID entry := by
  obtain ⟨userID, settings, hdecided, hentry⟩ := h
  exact ⟨userID, settings, hdecided.later hlater, hentry⟩

/-! ## Rules that were read -/

/-- The rows are leagues of the database. -/
def RowStream.Leagues (db : Database) (stream : RowStream OracleLeagueRow) : Prop :=
  ∀ o ∈ stream.rows, ∃ r ∈ db.leagues.rows, r.oracleRow = o

/-- Delivered rows of selected leagues are leagues of the database. -/
theorem RowStream.Delivers.leagues {db : Database} {stream : RowStream OracleLeagueRow}
    {p : LeagueRow → Bool} (h : stream.Delivers
      ((db.leagues.rows.filter p).map LeagueRow.oracleRow) fun _ => True) :
    stream.Leagues db := by
  intro o ho
  obtain ⟨r, hr, heq⟩ := List.mem_map.mp (h.mem ho)
  exact ⟨r, (List.mem_filter.mp hr).1, heq⟩

/-- The weekly job reads leagues of the database. -/
theorem leagues_of_weekly {db : Database} {stream : RowStream OracleLeagueRow}
    (h : Query.weeklyPayoutLeagues.Answers db stream) : stream.Leagues db := by
  have hdelivers := h.2
  rw [List.filter_filter] at hdelivers
  exact hdelivers.leagues

/-- The season-end job reads leagues of the database. -/
theorem leagues_of_seasonEnd {db : Database} {stream : RowStream OracleLeagueRow}
    (h : Query.seasonEndLeagues.Answers db stream) : stream.Leagues db :=
  RowStream.Delivers.leagues h

/-- A rule of a league that is read from the database was decided. -/
theorem Runs.ruleDecided_of_load (h : Runs svc crypto ok a) {stream : RowStream OracleLeagueRow}
    (hrows : stream.Leagues a.world.db) {league : OracleLeague}
    (hleague : league ∈ stream.rows.filterMap OracleLeagueRow.load)
    (hentry : entry ∈ league.payoutStructure) : RuleDecided svc crypto ok a league.id entry := by
  obtain ⟨o, ho, hload⟩ := List.mem_filterMap.mp hleague
  obtain ⟨r, hr, rfl⟩ := hrows o ho
  obtain ⟨entries, hentries, rfl⟩ := Option.map_eq_some_iff.mp hload
  have hstored : r.oracleRow.payoutJSON = r.payoutStructure.getD (.entries []) := rfl
  rw [hstored] at hentries
  rcases h.settingsDecided hr with ⟨-, hnone⟩ | ⟨userID, settings, hdecided, -, hrules⟩
  · rw [hnone] at hentries
    obtain rfl : [] = entries := Option.some.inj hentries
    cases hentry
  · rw [hrules, Option.getD_some, PayoutJSON.unmarshal_marshal] at hentries
    obtain rfl := Option.some.inj hentries
    exact ⟨userID, settings, hdecided, hentry⟩

/-- A rule that a thread has read was decided, whichever query of leagues it was read with. -/
theorem Runs.ruleDecided_of_read (h : Runs svc crypto ok a) {i : ℕ} {t : BackendThread}
    (ht : a.threads[i]? = some t) {call : Sigma Ret} (hcall : call ∈ t.trace)
    {stream : RowStream OracleLeagueRow}
    (hrows : ∀ w w' : World, w.handles call.1 call.2 w' → stream.Leagues w.db)
    {league : OracleLeague} (hleague : league ∈ stream.rows.filterMap OracleLeagueRow.load)
    (hentry : entry ∈ league.payoutStructure) : RuleDecided svc crypto ok a league.id entry := by
  obtain ⟨m, -⟩ := Reaches.moment_of_mem h rfl ht hcall
  have hbefore : Runs svc crypto ok m.before := m.reached
  exact (hbefore.ruleDecided_of_load (hrows _ _ m.handles) hleague hentry).later m.later

/-! ## Users that were linked -/

/-- At an earlier moment of the run the user was linked to a membership of the league on the roster,
and had this wallet. -/
def WasLinked (svc : Service) (crypto : Crypto) (ok : BackendConfig → BackendLabel → Prop)
    (a : BackendConfig) (leagueID : String) (rosterID : ℤ) (userID wallet : String) : Prop :=
  ∃ d, Runs svc crypto ok d ∧ (backend svc crypto).Reaches ok d a ∧
    (∃ m ∈ d.world.db.members.rows, m.leagueID = leagueID ∧ m.rosterID = rosterID ∧
      d.world.db.linkedTo userID m = true) ∧ d.world.db.walletOf userID = some wallet

/-- Who was linked stays so. -/
theorem WasLinked.later {rosterID : ℤ} {userID wallet : String}
    (h : WasLinked svc crypto ok a leagueID rosterID userID wallet)
    (hlater : (backend svc crypto).Reaches ok a b) :
    WasLinked svc crypto ok b leagueID rosterID userID wallet := by
  obtain ⟨d, hd, hda, hlinked⟩ := h
  exact ⟨d, hd, Relation.ReflTransGen.trans hda hlater, hlinked⟩

/-- No statement ever gives a membership a wallet of its own. -/
theorem Runs.memberWallet (h : Runs svc crypto ok a) {m : MemberRow}
    (hm : m ∈ a.world.db.members.rows) : m.walletAddress = none := by
  induction h generalizing m with
  | refl => cases hm
  | @tail a b hrun hlast ih =>
    obtain ⟨l, -, hstep⟩ := hlast
    rcases step_member hstep hm with ⟨m₀, hm₀, hmember⟩ |
      ⟨now, fresh, league, members, -, -, -, v, -, w, -, -, rfl⟩
    · obtain ⟨-, -, -, hwallet⟩ := sameMember_of_step hmember
      exact hwallet.trans (ih hm₀)
    · rfl

/-- A listed member with a wallet is a membership that some user was linked to. -/
theorem Runs.wasLinked_of_listed (h : Runs svc crypto ok a) {i : ℕ} {t : BackendThread}
    (ht : a.threads[i]? = some t) {m : LeagueMember} (hlisted : Listed t.trace leagueID m)
    (hwallet : m.walletAddress ≠ "") :
    ∃ userID, WasLinked svc crypto ok a leagueID m.rosterID userID m.walletAddress := by
  obtain ⟨stream, hread, hm⟩ := hlisted
  obtain ⟨moment, -⟩ := Reaches.moment_of_mem h rfl ht hread
  have hbefore : Runs svc crypto ok moment.before := moment.reached
  obtain ⟨-, order, hperm, -, hfirst, -⟩ := moment.handles
  obtain ⟨row, hrow, hlist⟩ := List.mem_flatMap.mp (hperm.mem_iff.mp (hfirst.mem hm))
  obtain ⟨hrow, hleague⟩ := List.mem_filter.mp hrow
  have hnone := hbefore.memberWallet hrow
  unfold Database.memberRows at hlist
  split at hlist
  · obtain rfl := List.mem_singleton.mp hlist
    simp [Database.memberRow, hnone] at hwallet
  · obtain ⟨p, hp, rfl⟩ := List.mem_map.mp hlist
    obtain ⟨hp, hjoins⟩ := List.mem_filter.mp hp
    obtain ⟨wallet, hwalletOf⟩ := hbefore.references.profiles p hp
    refine ⟨p.userID, moment.before, hbefore, moment.later, ⟨row, hrow, by simpa using hleague, rfl,
      List.any_eq_true.mpr ⟨p, hp, by simpa using hjoins⟩⟩, ?_⟩
    simp [Database.memberRow, hwalletOf]

/-- Every event was recorded for a member of its roster who was listed with its wallet. -/
def EventListed (a : BackendConfig) (e : WeeklyEventRow) : Prop :=
  e.walletAddress ≠ "" ∧ a.SomeTrace fun _ trace => ∃ m, Listed trace e.leagueID m ∧
    m.rosterID = e.rosterID ∧ m.walletAddress = e.walletAddress

/-- An event stays listed while it keeps its key and its wallet. -/
theorem EventListed.step {e e' : WeeklyEventRow} (h : EventListed a e)
    (hstep : (backend svc crypto).Step a l b) (hsame : e.SameEvent e')
    (hwallet : e'.walletAddress = e.walletAddress) : EventListed b e' := by
  have hkey := hsame.key
  simp only [WeeklyEventRow.key, Prod.mk.injEq] at hkey
  obtain ⟨hleague, -, hroster, -⟩ := hkey
  unfold EventListed
  rw [hwallet, hleague, hroster]
  refine ⟨h.1, hstep.someTrace ?_ h.2⟩
  rintro _ trace call ⟨m, hlisted, hm⟩
  exact ⟨m, hlisted.mono (List.suffix_cons _ _), hm⟩

/-- Every event in every run was recorded for a listed member. -/
theorem Runs.eventListed (h : Runs svc crypto ok a) {e : WeeklyEventRow}
    (he : e ∈ a.world.db.weeklyEvents.rows) : EventListed a e := by
  induction h generalizing e with
  | refl => cases he
  | @tail a b hrun hlast ih =>
    obtain ⟨l, -, hstep⟩ := hlast
    rcases step_eventStep hstep he with ⟨e₀, he₀, rfl | ⟨s, now, -, hmoves⟩⟩ |
      ⟨s, fresh, hs, -, -, hinserts⟩
    · exact (ih he₀).step hstep (.refl e) rfl
    · obtain ⟨hsame, hwallet, -⟩ := hmoves.sameEvent
      exact (ih he₀).step hstep hsame hwallet
    · obtain ⟨-, -, -, -, -, rfl⟩ := hinserts
      obtain ⟨i, t, ht, earlier, hsuffix, hallows⟩ :=
        Runs.applied_allowed hrun conforms_records hstep hs
      rw [Protocol.history_phase] at hallows
      obtain ⟨m, hlisted, hroster, hwallet, hne⟩ := hallows
      have hlisted : EventListed a e := ⟨hne, i, t, ht, m, hlisted.mono hsuffix, hroster, hwallet⟩
      exact hlisted.step hstep (.refl e) rfl

/-! ## Transfers -/

/-- The kind of rules a payout is for. -/
def Purpose.ruleType : Purpose → String
  | .seasonEnd _ => "placement"
  | .weekly _ _ => "weekly"

/-- Some thread has found that the roster earns the rule: it qualified in a week, or it stands on
the place of the rule at the end of the season. -/
def Earns (trace : List (Sigma Ret)) (entry : PayoutEntry) (rosterID : ℤ) : Purpose → Prop
  | .weekly leagueID _ => ∃ week, Qualified trace leagueID entry week rosterID
  | .seasonEnd leagueID => ∃ league, league.id = leagueID ∧ Stands trace league rosterID entry.place

/-- Why an amount was sent to an address: a rule of that amount which a commissioner has set, a
roster that has earned it, and a user linked to the roster whose wallet has the address. -/
def Justified (svc : Service) (crypto : Crypto) (ok : BackendConfig → BackendLabel → Prop)
    (a : BackendConfig) (purpose : Purpose) (address : Address) (word : UInt256) : Prop :=
  ∃ entry rosterID userID wallet, RuleDecided svc crypto ok a purpose.leagueID entry ∧
    entry.type = purpose.ruleType ∧ word = abiWord (toMicroUSDC entry.amountCents) ∧
    (a.SomeTrace fun _ trace => Earns trace entry rosterID purpose) ∧
    WasLinked svc crypto ok a purpose.leagueID rosterID userID wallet ∧
    a.SomeTrace fun _ trace => LookedUp trace wallet address

/-- A weekly rule for which a roster qualified was decided. -/
theorem Runs.ruleDecided_of_qualified (h : Runs svc crypto ok a) {week rosterID : ℤ}
    (hqualified : a.SomeTrace fun _ trace => Qualified trace leagueID entry week rosterID) :
    RuleDecided svc crypto ok a leagueID entry ∧ entry.type = "weekly" := by
  obtain ⟨i, t, ht, stream, hread, league, hleague, rfl, hentry, htype, -⟩ := hqualified
  refine ⟨h.ruleDecided_of_read ht hread (fun w w' hhandles => ?_) hleague hentry, htype⟩
  exact leagues_of_weekly hhandles.2

/-- The transfer of a resolved event is justified. -/
theorem Runs.justified_of_event (h : Runs svc crypto ok a) {i : ℕ} {t : BackendThread}
    (ht : a.threads[i]? = some t) {eventIDs : List String} {e : WeeklyEvent × Address}
    (hresolved : EventResolved t.trace leagueID e) :
    Justified svc crypto ok a (.weekly leagueID eventIDs) e.2
      (abiWord (toMicroUSDC e.1.amountCents)) := by
  obtain ⟨⟨week, stream, hread, hrow⟩, hlookup⟩ := hresolved
  obtain ⟨m, -⟩ := Reaches.moment_of_mem h rfl ht hread
  have hbefore : Runs svc crypto ok m.before := m.reached
  obtain ⟨-, hanswer⟩ := m.handles
  obtain ⟨e₀, he₀, rfl, heq⟩ := hanswer.event hrow
  -- the event is on the ledger, so its roster has qualified
  obtain ⟨ledger, hrecorded, -, -⟩ := hbefore.exists_ledger e₀.leagueID
  obtain ⟨e₁, he₁, hsame⟩ := hrecorded.rows e₀ he₀ rfl
  obtain ⟨entry, hqualified, -, hamount⟩ := hrecorded.qualified e₁ he₁
  have hkey := hsame.key
  simp only [WeeklyEventRow.key, Prod.mk.injEq] at hkey
  obtain ⟨-, -, hroster, -⟩ := hkey
  rw [← hroster] at hqualified
  obtain ⟨hdecided, htype⟩ := hbefore.ruleDecided_of_qualified hqualified
  -- and it was recorded for a listed member, so a user was linked
  obtain ⟨hne, j, u, hu, member, hlisted, hmember, hwallet⟩ := hbefore.eventListed he₀
  rw [← hwallet] at hne
  obtain ⟨userID, hlinked⟩ := hbefore.wasLinked_of_listed hu hlisted hne
  rw [hmember] at hlinked
  have hevent : e.1.walletAddress = member.walletAddress ∧ e.1.amountCents = entry.amountCents := by
    rw [← heq]
    exact ⟨hwallet.symm, hsame.amountCents.trans hamount.symm⟩
  refine ⟨entry, e₀.rosterID, userID, _, hdecided.later m.later, htype, by rw [hevent.2], ?_,
    hlinked.later m.later, i, t, ht, hevent.1 ▸ hlookup⟩
  obtain ⟨n, v, hv, hearned⟩ := hqualified
  refine Reaches.someTrace m.later ?_ ⟨n, v, hv, e₁.week, hearned⟩
  rintro _ trace call ⟨week, hq⟩
  exact ⟨week, hq.mono (List.suffix_cons _ _)⟩

/-- The transfer of a resolved place is justified. -/
theorem Runs.justified_of_place (h : Runs svc crypto ok a) {i : ℕ} {t : BackendThread}
    (ht : a.threads[i]? = some t) {r : ResolvedPayout}
    (hresolved : PlaceResolved t.trace leagueID r) :
    Justified svc crypto ok a (.seasonEnd leagueID) r.evmAddr
      (abiWord (toMicroUSDC r.amountCents)) := by
  obtain ⟨league, hstands, rfl, hamount⟩ := hresolved.stands
  obtain ⟨entry, hfind, hamount⟩ := Option.map_eq_some_iff.mp hamount
  have hplace : entry.place = r.place := by simpa using List.find?_some hfind
  have hmem := List.mem_reverse.mp (List.mem_of_find?_eq_some hfind)
  obtain ⟨hentry, htype⟩ := List.mem_filter.mp hmem
  obtain ⟨⟨stream, hread, hleague⟩, -⟩ := id hstands
  have hdecided := h.ruleDecided_of_read ht hread
    (fun w w' hhandles => leagues_of_seasonEnd hhandles.2) hleague hentry
  obtain ⟨userID, hlinked⟩ := h.wasLinked_of_listed ht hresolved.listed hresolved.wallet
  refine ⟨entry, r.member.rosterID, userID, _, hdecided, of_decide_eq_true htype, by rw [hamount],
    ⟨i, t, ht, league, rfl, hplace ▸ hstands⟩, hlinked, i, t, ht, hresolved.lookedUp⟩

/-- Every transfer of a payout transaction is justified. -/
theorem Runs.justified_of_transfer (h : Runs svc crypto ok a) {s : Submission}
    (hs : s ∈ a.world.submissions) {transfer : Address × UInt256}
    (htransfer : transfer ∈ s.recipients.zip s.amounts) :
    Justified svc crypto ok a s.purpose transfer.1 transfer.2 := by
  obtain ⟨k, hk⟩ := List.mem_iff_getElem?.mp hs
  obtain ⟨amounts, hwords, i, t, ht, r, hcall⟩ := h.sent hk
  obtain ⟨htransfers, -⟩ := h.transfers_of_call ht hcall
  cases hpurpose : s.purpose with
  | weekly leagueID eventIDs =>
    rw [hpurpose] at htransfers
    obtain ⟨events, hresolved, -, hrecipients, rfl⟩ := htransfers
    rw [hrecipients, hwords, List.map_map, List.zip_map'] at htransfer
    obtain ⟨e, he, rfl⟩ := List.mem_map.mp htransfer
    exact h.justified_of_event ht (hresolved e he)
  | seasonEnd leagueID =>
    rw [hpurpose] at htransfers
    obtain ⟨resolved, hresolved, hrecipients, rfl⟩ := htransfers
    rw [hrecipients, hwords, List.map_map, List.zip_map'] at htransfer
    obtain ⟨place, hplace, rfl⟩ := List.mem_map.mp htransfer
    exact h.justified_of_place ht (hresolved place hplace)

/-- The weekly job pays the high score of one dollar that the commissioner has set. -/
def highScorePaid : Schedule :=
  Schedule.fundedLeague Schedule.highScore ++ Schedule.weekly 4 "f3" ++ Schedule.payWeekly 4 "tx"

end Wagr
