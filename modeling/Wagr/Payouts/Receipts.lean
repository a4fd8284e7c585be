import Wagr.Payments.Evidence
import Wagr.Payouts.Distributed
import Wagr.Payouts.KeptRules
import Wagr.Payouts.Ledger
import Wagr.Payouts.Records
import Wagr.Payouts.Status
import Wagr.Service.Events
import Wagr.Service.Submissions
import Wagr.Service.Scenario

/-!
# Payouts on record have been paid

A weekly event that is marked executed, a league with a transaction ID and a member with a payout
on record all point to a transaction that the network has executed, and this transaction has paid
what the record says.
-/

namespace Wagr

open Interaction Protocol System Relational

variable {svc : Service} {crypto : Crypto} {a b : BackendConfig} {l : BackendLabel}
  {ok : BackendConfig → BackendLabel → Prop} {leagueID txHash : String} {s : Submission}

/-! ## Transactions that succeeded -/

/-- A transaction that a thread has sent transfers what the thread has resolved, from the entry of
the league. -/
theorem Runs.transfers_of_call (h : Runs svc crypto ok a) {i : ℕ} {t : BackendThread}
    (ht : a.threads[i]? = some t) {purpose : Purpose} {key : Bytes32} {recipients : List Address}
    {amounts : List Int64} {r : Ret (.contractExecute purpose key recipients amounts)}
    (hcall : (⟨.contractExecute purpose key recipients amounts, r⟩ : Sigma Ret) ∈ t.trace) :
    Transfers t.trace recipients amounts purpose ∧ uuidToBytes32 purpose.leagueID = .ok key := by
  obtain ⟨m, -, hsuffix⟩ := Reaches.moment_of_mem h rfl ht hcall
  have htransfers := m.allows conforms_records rfl
  have hpayment := m.allows conforms_paymentProtocol rfl
  rw [Protocol.history_phase] at htransfers hpayment
  obtain ⟨payees, hpays⟩ := hpayment
  exact ⟨Transfers.mono htransfers hsuffix, hpays.league⟩

/-- The transaction has paid from the entry of its league, and this ID was returned for it. -/
structure PaidAs (a : BackendConfig) (s : Submission) (txHash : String) : Prop where
  succeeded : s.outcome = .succeeded
  league : uuidToBytes32 s.purpose.leagueID = .ok s.leagueID
  sent : a.SomeTrace fun _ trace => ∃ key amounts resp, resp.transactionID = txHash ∧
    a.world.submissions[resp.index]? = some s ∧
      (⟨.contractExecute s.purpose key s.recipients amounts, .ok resp⟩ : Sigma Ret) ∈ trace

/-- A transaction that has succeeded stays as it is. -/
theorem PaidAs.step (h : PaidAs a s txHash) (hstep : (backend svc crypto).Step a l b) :
    PaidAs b s txHash where
  succeeded := h.succeeded
  league := h.league
  sent := by
    have hkeep : ∀ k : ℕ, a.world.submissions[k]? = some s → b.world.submissions[k]? = some s := by
      intro k hk
      obtain ⟨s', hs', hsame⟩ := step_keeps_submission hstep hk
      rw [hs', hsame.eq (by simp [h.succeeded])]
    obtain ⟨i, t, ht, key, amounts, resp, htx, hs, hcall⟩ := h.sent
    refine hstep.someTrace (p := fun _ trace => ∃ key amounts resp, resp.transactionID = txHash ∧
      b.world.submissions[resp.index]? = some s ∧
        (⟨.contractExecute s.purpose key s.recipients amounts, .ok resp⟩ : Sigma Ret) ∈ trace)
      ?_ ⟨i, t, ht, key, amounts, resp, htx, hkeep _ hs, hcall⟩
    rintro _ trace call ⟨key, amounts, resp, htx, hs, hcall⟩
    exact ⟨key, amounts, resp, htx, hs, List.mem_cons_of_mem _ hcall⟩

/-- What a thread knows to have succeeded is a transaction that has succeeded. -/
theorem Runs.paidAs (h : Runs svc crypto ok a) {i : ℕ} {t : BackendThread}
    (ht : a.threads[i]? = some t) {purpose : Purpose} {recipients : List Address}
    {amounts : List Int64} (hs : Succeeded t.trace purpose recipients amounts txHash) :
    Transfers t.trace recipients amounts purpose ∧ ∃ s, PaidAs a s txHash ∧
      s.purpose = purpose ∧ s.recipients = recipients ∧ s.amounts = amounts.map abiWord := by
  obtain ⟨key, resp, htx, hsent, hreceipt⟩ := hs
  obtain ⟨s, hs, rfl, rfl, rfl, hwords⟩ := h.received ht hsent
  obtain ⟨s', hs', hsucceeded⟩ := h.receipted ht hreceipt
  obtain rfl := Option.some.inj (hs.symm.trans hs')
  obtain ⟨htransfers, hleague⟩ := h.transfers_of_call ht hsent
  exact ⟨htransfers, s, ⟨hsucceeded, hleague, i, t, ht, _, amounts, resp, htx, hs, hsent⟩, rfl,
    rfl, hwords⟩

/-! ## Weekly events -/

/-- The query for unexecuted events returns events of the league. -/
theorem Query.Answers.event {db : Database} {week : ℤ} {stream : RowStream WeeklyEvent}
    (h : (Query.unexecutedEvents leagueID week).Answers db stream) {event : WeeklyEvent}
    (hevent : event ∈ stream.rows) : ∃ e ∈ db.weeklyEvents.rows, e.leagueID = leagueID ∧
      (⟨e.id, e.walletAddress, e.amountCents⟩ : WeeklyEvent) = event := by
  obtain ⟨e, he, heq⟩ := List.mem_map.mp (RowStream.Delivers.mem h hevent)
  obtain ⟨he, hselected⟩ := List.mem_filter.mp he
  simp only [Bool.and_eq_true, decide_eq_true_eq] at hselected
  exact ⟨e, he, hselected.1.1, heq⟩

/-- The event was transferred to this address by the transaction, at its place and with its
amount. -/
structure Submission.PaysEvent (s : Submission) (e : WeeklyEventRow) (address : Address) :
    Prop where
  purpose : ∃ eventIDs, s.purpose = .weekly e.leagueID eventIDs
  transfer : ∃ k : ℕ, s.purpose.eventIDs[k]? = some e.id ∧ s.amounts[k]? = some e.word ∧
    s.recipients[k]? = some address

/-- The event is marked with a transaction that has paid it, at the address found for its
wallet. -/
def EventPaid (a : BackendConfig) (e : WeeklyEventRow) : Prop :=
  ∃ txHash s address, e.txHash = some txHash ∧ PaidAs a s txHash ∧ s.PaysEvent e address ∧
    a.SomeTrace fun _ trace => LookedUp trace e.walletAddress address

/-- A paid event stays paid while its row is the same event with the same transaction. -/
theorem EventPaid.step {e : WeeklyEventRow} (h : EventPaid a e)
    (hstep : (backend svc crypto).Step a l b) : EventPaid b e := by
  obtain ⟨txHash, s, address, htx, hpaid, hpays, hlookup⟩ := h
  exact ⟨txHash, s, address, htx, hpaid.step hstep, hpays,
    hstep.someTrace (fun _ _ _ hp => hp.mono (List.suffix_cons _ _)) hlookup⟩

/-- A statement that marks an event executed comes after the payment of the event. -/
theorem Runs.eventPaid_of_mark (h : Runs svc crypto ok a)
    (hstep : (backend svc crypto).Step a l b) {e e' : WeeklyEventRow} {now : ℕ}
    (he : e ∈ a.world.db.weeklyEvents.rows)
    (hs : applied a l = some (.markWeeklyEventExecuted e.id txHash))
    (he' : e' = { e with txHash := some txHash, executedAt := some now }) : EventPaid a e' := by
  obtain ⟨i, t, ht, earlier, hsuffix, hallows⟩ := h.applied_allowed conforms_records hstep hs
  rw [Protocol.history_phase] at hallows
  obtain ⟨leagueID, eventIDs, recipients, amounts, hid, hsucceeded⟩ := hallows
  obtain ⟨⟨events, hresolved, rfl, rfl, rfl⟩, s, hpaid, hpurpose, hrecipients, hamounts⟩ :=
    h.paidAs ht (hsucceeded.mono hsuffix)
  obtain ⟨⟨event, address⟩, hevent, hid⟩ := List.mem_map.mp hid
  obtain ⟨k, hk⟩ := List.mem_iff_getElem?.mp hevent
  obtain ⟨⟨week, stream, hread, hrow⟩, hlookup⟩ := hresolved _ hevent
  -- the event was in the database when it was read, and is the one that is marked
  obtain ⟨m, -⟩ := Reaches.moment_of_mem h rfl ht hread
  have hbefore : Runs svc crypto ok m.before := m.reached
  obtain ⟨-, hanswer⟩ := m.handles
  obtain ⟨e₀, he₀, hleague, rfl⟩ := hanswer.event hrow
  obtain ⟨hsame, hwallet⟩ := hbefore.event_since m.later he₀ he hid.symm
  have hleague' : e.leagueID = leagueID := (congrArg Prod.fst hsame.key).trans hleague
  subst he'
  refine ⟨txHash, s, address, rfl, hpaid, ⟨⟨_, hleague'.symm ▸ hpurpose⟩, k, ?_, ?_, ?_⟩, i, t, ht,
    ?_⟩
  · rw [hpurpose, Purpose.eventIDs, List.getElem?_map, hk]
    exact congrArg some hid
  · simp [hamounts, hk, WeeklyEventRow.word, hsame.amountCents]
  · simp [hrecipients, hk]
  · exact hwallet ▸ hlookup

/-- The weekly job pays the best team of the week and marks the event. -/
def markedEvent : Schedule :=
  Schedule.fundedLeague Schedule.highScore ++ Schedule.weekly 4 "e1" ++
    Schedule.payWeekly 4 "tx1" ++
    [.env (.settle 0 true), .call 4 (.succeed 0 ""), .call 4 (.succeed 0 "f3")]

/-- A statement keeps the transaction ID of a league, and executed leagues executed, or it marks
an executing league executed. -/
theorem Statement.LeagueStep.hash {now : ℕ} {db : Database} {s : Statement} {r r' : LeagueRow}
    (h : s.LeagueStep now db r r') :
    (r'.payoutTxHash = r.payoutTxHash ∧
      (r.payoutStatus = .executed → r'.payoutStatus = .executed)) ∨
    ∃ txHash, s = .markPayoutExecuted r.id txHash ∧ r.payoutStatus = .executing ∧
      r'.payoutStatus = .executed ∧ r'.payoutTxHash = some txHash := by
  rcases h with rfl | h
  · exact .inl ⟨rfl, fun h => h⟩
  · cases s with
    | importLeague =>
      obtain ⟨rfl, -⟩ := h
      exact .inl ⟨rfl, fun h => h⟩
    | updateSettings =>
      obtain ⟨-, rfl⟩ := h
      exact .inl ⟨rfl, fun h => h⟩
    | cancelLeague | reactivateLeague | updateLeagueStatus =>
      obtain ⟨-, -, rfl⟩ := h
      exact .inl ⟨rfl, fun h => h⟩
    | markSettledWithoutPayout =>
      obtain ⟨-, -, rfl⟩ := h
      exact .inl ⟨rfl, fun _ => rfl⟩
    | claimPayout | markPayoutFailed =>
      obtain ⟨-, hstatus, rfl⟩ := h
      exact .inl ⟨rfl, fun h => by rw [hstatus] at h; cases h⟩
    | markPayoutExecuted leagueID txHash =>
      obtain ⟨rfl, hexecuting, rfl⟩ := h
      exact .inr ⟨txHash, rfl, hexecuting, rfl, rfl⟩
    | _ => exact h.elim

/-- The league was settled with this transaction: as long as its row is there, it says so. -/
structure SettledBy (a : BackendConfig) (leagueID txHash : String) : Prop where
  issued : leagueID ∈ a.world.issued
  rows : ∀ r ∈ a.world.db.leagues.rows, r.id = leagueID →
    r.payoutStatus = .executed ∧ r.payoutTxHash = some txHash

/-- A league is settled once. -/
theorem SettledBy.step (h : SettledBy a leagueID txHash)
    (hstep : (backend svc crypto).Step a l b) : SettledBy b leagueID txHash where
  issued := step_issued hstep h.issued
  rows r' hr' hid := by
    rcases step_row hstep hr' with ⟨r, hr, rfl | ⟨now, s, -, hleague⟩⟩ |
      ⟨league, now, fresh, rfl, hfresh, -⟩
    · exact h.rows r' hr hid
    · obtain ⟨hexecuted, hhash⟩ := h.rows r hr (hleague.id.symm.trans hid)
      rcases hleague.hash with ⟨hsame, hkeep⟩ | ⟨_, -, hexecuting, -⟩
      · exact ⟨hkeep hexecuted, hsame.trans hhash⟩
      · rw [hexecuted] at hexecuting
        cases hexecuting
    · have hnew : fresh = leagueID := hid
      exact absurd h.issued (hnew ▸ hfresh)

/-- Marking a league executed settles it, if it affects a row. -/
theorem markPayoutExecuted_run {now : ℕ} {fresh : String} {db db' : Database}
    (h : (Statement.markPayoutExecuted leagueID txHash).run now fresh db = some ((1 : ℕ), db')) :
    (∃ r ∈ db.leagues.rows, r.id = leagueID) ∧ ∀ r ∈ db'.leagues.rows, r.id = leagueID →
      r.payoutStatus = .executed ∧ r.payoutTxHash = some txHash := by
  obtain ⟨hcount, rfl⟩ := Prod.mk.inj (Option.some.inj h)
  have hpos : 0 < db.leagues.count fun l => l.id = leagueID && l.payoutStatus = .executing :=
    hcount ▸ Nat.one_pos
  obtain ⟨r₁, hr₁, hmatch⟩ := Table.count_pos.mp hpos
  simp only [Bool.and_eq_true, decide_eq_true_eq] at hmatch
  refine ⟨⟨r₁, hr₁, hmatch.1⟩, fun r' hr' hid => ?_⟩
  obtain ⟨r, hr, rfl⟩ := List.mem_map.mp hr'
  have hsame : r.id = leagueID := by
    split at hid <;> exact hid
  obtain rfl : r = r₁ := Table.eq_of_key hr hr₁ (hsame.trans hmatch.1.symm)
  simp [hmatch]

/-- A thread that was told that it has marked the league has settled it. -/
theorem Runs.settledBy (h : Runs svc crypto ok a) {i : ℕ} {t : BackendThread}
    (ht : a.threads[i]? = some t)
    (hcall : (⟨.exec (.markPayoutExecuted leagueID txHash), .ok (1 : ℕ)⟩ : Sigma Ret) ∈ t.trace) :
    SettledBy a leagueID txHash := by
  obtain ⟨m, -⟩ := Reaches.moment_of_mem h rfl ht hcall
  have hbefore : Runs svc crypto ok m.before := m.reached
  obtain ⟨now, fresh, db, -, hrun, hafter⟩ := m.handles
  obtain ⟨⟨r, hr, hid⟩, hrows⟩ := markPayoutExecuted_run hrun
  have hsettled : SettledBy m.after leagueID txHash := by
    have hissued : leagueID ∈ m.before.world.issued := hid ▸ hbefore.references.leagues r hr
    constructor
    · rw [hafter]
      exact List.mem_cons_of_mem _ hissued
    · rw [hafter]
      exact hrows
  exact Reaches.invariant (I := fun a => SettledBy a leagueID txHash) m.rest hsettled
    fun hinv _ hstep => hinv.step hstep

/-! ## Members -/

/-- A statement keeps the payout of a member, or records one for its roster. -/
theorem Statement.MemberStep.payout {now : ℕ} {db : Database} {s : Statement} {m m' : MemberRow}
    (h : s.MemberStep now db m m') :
    (m'.payoutTxHash = m.payoutTxHash ∧ m'.finalRank = m.finalRank ∧
      m'.payoutAmountCents = m.payoutAmountCents) ∨
    ∃ place amountCents txHash,
      s = .recordMemberPayout m.leagueID m.rosterID place amountCents txHash ∧
        m'.payoutTxHash = some txHash ∧ m'.finalRank = some place ∧
          m'.payoutAmountCents = some amountCents := by
  rcases h with rfl | h
  · exact .inl ⟨rfl, rfl, rfl⟩
  · cases s with
    | importLeague =>
      obtain ⟨v, -, rfl⟩ := h
      exact .inl ⟨rfl, rfl, rfl⟩
    | setPaymentToken | markPaid | markRefunded =>
      obtain ⟨-, rfl⟩ := h
      exact .inl ⟨rfl, rfl, rfl⟩
    | resetRefunded =>
      obtain ⟨-, -, rfl⟩ := h
      exact .inl ⟨rfl, rfl, rfl⟩
    | recordMemberPayout leagueID rosterID place amountCents txHash =>
      obtain ⟨rfl, rfl, rfl⟩ := h
      exact .inr ⟨place, amountCents, txHash, rfl, rfl, rfl, rfl⟩
    | _ => exact h.elim

/-- The place was transferred to the address found for the wallet of a member on the roster. -/
structure Submission.PaysPlace (s : Submission) (a : BackendConfig) (leagueID : String)
    (rosterID place : ℤ) (amountCents : Int64) : Prop where
  purpose : s.purpose = .seasonEnd leagueID
  transfer : ∃ (k : ℕ) (address : Address),
    s.amounts[k]? = some (abiWord (toMicroUSDC amountCents)) ∧ s.recipients[k]? = some address ∧
      a.SomeTrace fun _ trace => ∃ r,
      PlaceResolved trace leagueID r ∧ r.member.rosterID = rosterID ∧ r.place = place ∧
        r.evmAddr = address

/-- A place that was paid stays so. -/
theorem Submission.PaysPlace.step {rosterID place : ℤ} {amountCents : Int64}
    (h : s.PaysPlace a leagueID rosterID place amountCents)
    (hstep : (backend svc crypto).Step a l b) :
    s.PaysPlace b leagueID rosterID place amountCents where
  purpose := h.purpose
  transfer := by
    obtain ⟨k, address, hamount, hrecipient, hresolved⟩ := h.transfer
    refine ⟨k, address, hamount, hrecipient, hstep.someTrace ?_ hresolved⟩
    rintro _ trace call ⟨r, hr, hrest⟩
    exact ⟨r, hr.mono (List.suffix_cons _ _), hrest⟩

/-- The record of a member's payout: the place and the amount that the league's transaction has
paid. -/
structure PayoutOnRecord (a : BackendConfig) (m : MemberRow) (txHash : String) : Prop where
  paid : ∃ place amountCents s, m.finalRank = some place ∧
    m.payoutAmountCents = some amountCents ∧ PaidAs a s txHash ∧
      s.PaysPlace a m.leagueID m.rosterID place amountCents
  settled : SettledBy a m.leagueID txHash

/-- A record stays true while the member's payout columns stay as they are. -/
theorem PayoutOnRecord.step {m m' : MemberRow} (h : PayoutOnRecord a m txHash)
    (hstep : (backend svc crypto).Step a l b) (hsame : m.SameMember m')
    (hrank : m'.finalRank = m.finalRank) (hamount : m'.payoutAmountCents = m.payoutAmountCents) :
    PayoutOnRecord b m' txHash := by
  obtain ⟨hkey, -, hroster, -⟩ := hsame
  have hleague : m'.leagueID = m.leagueID := congrArg Prod.fst hkey
  obtain ⟨place, amountCents, s, hplace, hcents, hpaid, hpays⟩ := h.paid
  constructor
  · rw [hleague, hroster, hrank, hamount]
    exact ⟨place, amountCents, s, hplace, hcents, hpaid.step hstep, hpays.step hstep⟩
  · rw [hleague]
    exact h.settled.step hstep

/-- What a thread has to know before it records the payout of a member is true of the chain and
of the league. -/
theorem Runs.paysPlace (h : Runs svc crypto ok a) {i : ℕ} {t : BackendThread}
    (ht : a.threads[i]? = some t) {rosterID place : ℤ} {amountCents : Int64}
    (hpaid : PlacePaid t.trace leagueID rosterID place amountCents txHash) :
    (∃ s, PaidAs a s txHash ∧ s.PaysPlace a leagueID rosterID place amountCents) ∧
      SettledBy a leagueID txHash := by
  obtain ⟨⟨resolved, hsucceeded, r, hr, hresolved, rfl, rfl, rfl⟩, hmarked⟩ := hpaid
  obtain ⟨-, s, hpaid, hpurpose, hrecipients, hamounts⟩ := h.paidAs ht hsucceeded
  obtain ⟨k, hk⟩ := List.mem_iff_getElem?.mp hr
  refine ⟨⟨s, hpaid, hpurpose, k, r.evmAddr, ?_, ?_, i, t, ht, r, hresolved, rfl, rfl, rfl⟩,
    h.settledBy ht hmarked⟩
  · simp [hamounts, hk]
  · simp [hrecipients, hk]

/-- In every run every payout on record has been paid by the transaction it names. -/
theorem Runs.payoutOnRecord (h : Runs svc crypto ok a) {m : MemberRow}
    (hm : m ∈ a.world.db.members.rows) (htx : m.payoutTxHash = some txHash) :
    PayoutOnRecord a m txHash := by
  induction h generalizing m with
  | refl => cases hm
  | @tail a b hrun hlast ih =>
    obtain ⟨l, -, hstep⟩ := hlast
    rcases step_member hstep hm with ⟨m₀, hm₀, rfl | ⟨now, s, hs, hmember⟩⟩ |
      ⟨now, fresh, league, members, -, -, -, v, -, w, -, -, rfl⟩
    · exact (ih hm₀ htx).step hstep ⟨rfl, rfl, rfl, rfl⟩ rfl rfl
    · rcases hmember.payout with ⟨hhash, hrank, hamount⟩ |
        ⟨place, amountCents, txHash', rfl, hhash, hrank, hamount⟩
      · exact (ih hm₀ (hhash.symm.trans htx)).step hstep hmember.sameMember hrank hamount
      · obtain rfl := Option.some.inj (hhash.symm.trans htx)
        obtain ⟨i, t, ht, earlier, hsuffix, hallows⟩ :=
          Runs.applied_allowed hrun conforms_records hstep hs
        rw [Protocol.history_phase] at hallows
        obtain ⟨⟨s, hpaid, hpays⟩, hsettled⟩ :=
          Runs.paysPlace hrun ht (PlacePaid.mono hallows hsuffix)
        obtain ⟨hkey, -, hroster, -⟩ := hmember.sameMember
        have hleague : m.leagueID = m₀.leagueID := congrArg Prod.fst hkey
        constructor
        · rw [hleague, hroster]
          exact ⟨place, amountCents, s, hrank, hamount, hpaid.step hstep, hpays.step hstep⟩
        · rw [hleague]
          exact hsettled.step hstep
    · cases htx

/-- What a payout on record with a member means: the league was settled with the transaction, which
is its only one for the season, has succeeded, and has paid the place of the member's roster. -/
structure MemberPaid (a : BackendConfig) (m : MemberRow) (txHash : String) : Prop where
  league : ∃ r ∈ a.world.db.leagues.rows, r.id = m.leagueID ∧ r.payoutStatus = .executed ∧
    r.payoutTxHash = some txHash
  paid : ∃ place amountCents s, m.finalRank = some place ∧
    m.payoutAmountCents = some amountCents ∧ PaidAs a s txHash ∧
      s.PaysPlace a m.leagueID m.rosterID place amountCents ∧
        ∀ s' ∈ a.world.submissions, s'.purpose = .seasonEnd m.leagueID → s' = s

/-- The season-end job settles the league and records the payout of its only member. -/
def recordedPayout : Schedule :=
  Schedule.fundedLeague Schedule.firstPlace ++ Schedule.seasonEnd 4 ++
    [.call 4 (.succeed 0 "f3"), .call 4 (.succeed 0 "tx"), .env (.settle 0 true),
      .call 4 (.succeed 0 ""), .call 4 (.succeed 0 "f4"), .call 4 (.succeed 0 "f5")]

end Wagr
