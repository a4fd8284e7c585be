import Wagr.Service.Rules

/-!
# The course of a settlement

`settleSeasonEnd` over dependencies that may answer in any way. Its calls come in a fixed
order: the platform's status, the standings, the members, the addresses of the eligible
standings, the balance, the claim, the transaction, the mark, and the records. A settlement may
end after each of them, and `SettlementCourse` lists how.
-/

namespace Wagr

open Interaction Protocol

/-! ## The dependencies as calls -/

/-- The calls of the injected dependencies. -/
inductive DepCall
  | platformStatus (platform platformLeagueID : String)
  | finalStandings (platform platformLeagueID : String)
  | loadMembers (leagueID : String)
  | resolveEVM (accountID : String)
  | escrowBalance (leagueID : Bytes32)
  | distribute (leagueID : Bytes32) (recipients : List Address) (amounts : List Int64)
  | markSettledWithoutPayout (leagueID : String)
  | claimPayout (leagueID : String)
  | markPayoutFailed (leagueID : String)
  | markPayoutExecuted (leagueID txHash : String)
  | recordMemberPayout (leagueID : String) (rosterID place : ℤ) (amountCents : Int64)
      (txHash : String)

/-- Their answers. -/
abbrev DepRet : DepCall → Type
  | .platformStatus _ _ => Except GoError String
  | .finalStandings _ _ => Except GoError (List PlatformStanding)
  | .loadMembers _ => Except GoError (List LeagueMember)
  | .resolveEVM _ => Except GoError Address
  | .escrowBalance _ => Except GoError Int64
  | .distribute _ _ _ => Except GoError String
  | .markSettledWithoutPayout _ => Except GoError Unit
  | .claimPayout _ => Except GoError Bool
  | .markPayoutFailed _ => Except GoError Unit
  | .markPayoutExecuted _ _ => Except GoError Bool
  | .recordMemberPayout _ _ _ _ _ => Except GoError Unit

/-- Make one of these calls. -/
def DepCall.perform (c : DepCall) : Program DepCall DepRet (DepRet c) := Program.perform c

/-- Dependencies about whose behaviour nothing is known. -/
def SeasonEndDeps.any : SeasonEndDeps (Program DepCall DepRet) where
  platformStatus platform platformLeagueID :=
    ExceptT.mk (DepCall.platformStatus platform platformLeagueID).perform
  finalStandings platform platformLeagueID :=
    ExceptT.mk (DepCall.finalStandings platform platformLeagueID).perform
  loadMembers leagueID := ExceptT.mk (DepCall.loadMembers leagueID).perform
  resolveEVM accountID := ExceptT.mk (DepCall.resolveEVM accountID).perform
  escrowBalance leagueID := ExceptT.mk (DepCall.escrowBalance leagueID).perform
  distribute leagueID recipients amounts :=
    ExceptT.mk (DepCall.distribute leagueID recipients amounts).perform
  markSettledWithoutPayout leagueID :=
    ExceptT.mk (DepCall.markSettledWithoutPayout leagueID).perform
  claimPayout leagueID := ExceptT.mk (DepCall.claimPayout leagueID).perform
  markPayoutFailed leagueID := ExceptT.mk (DepCall.markPayoutFailed leagueID).perform
  markPayoutExecuted leagueID txHash :=
    ExceptT.mk (DepCall.markPayoutExecuted leagueID txHash).perform
  recordMemberPayout leagueID rosterID place amountCents txHash :=
    ExceptT.mk (DepCall.recordMemberPayout leagueID rosterID place amountCents txHash).perform

/-- The answered calls of a settlement. -/
abbrev DepTrace := List (Sigma DepRet)

/-- The call writes: to the database or to the chain. -/
def DepCall.writes : DepCall → Bool
  | .distribute _ _ _ => true
  | .markSettledWithoutPayout _ => true
  | .claimPayout _ => true
  | .markPayoutFailed _ => true
  | .markPayoutExecuted _ _ => true
  | .recordMemberPayout _ _ _ _ _ => true
  | _ => false

/-- The call sends the transaction. -/
def DepCall.distributes : DepCall → Bool
  | .distribute _ _ _ => true
  | _ => false

/-- The call looks an address up. -/
def DepCall.looksUp : DepCall → Bool
  | .resolveEVM _ => true
  | _ => false

/-- A recorded payout: league, roster, place, cents and transaction. -/
def recorded : Sigma DepRet → Option (String × ℤ × ℤ × Int64 × String)
  | ⟨.recordMemberPayout leagueID rosterID place amountCents txHash, _⟩ =>
    some (leagueID, rosterID, place, amountCents, txHash)
  | _ => none

/-! ## Eligible standings -/

/-- The placement entries of a league. -/
def OracleLeague.placementEntries (league : OracleLeague) : List PayoutEntry :=
  league.payoutStructure.filter fun e => e.type = "placement"

/-- The entry of the standing's place, and the member of its roster if it has a wallet. -/
def candidate (entries : List PayoutEntry) (members : List LeagueMember)
    (standing : PlatformStanding) : Option (PayoutEntry × LeagueMember) := do
  let entry ← placeToEntry entries standing.place
  let member ← memberByRoster members standing.rosterID
  if member.walletAddress = "" then none else some (entry, member)

/-- The eligible standings in their order, given the addresses that were looked up: those with an
entry for their place and a member with a wallet whose address was found. -/
inductive Resolution (entries : List PayoutEntry) (members : List LeagueMember) :
    List PlatformStanding → DepTrace → List ResolvedPayout → Prop
  | nil : Resolution entries members [] [] []
  | skip {standing standings lookups resolved} (h : candidate entries members standing = none) :
      Resolution entries members standings lookups resolved →
      Resolution entries members (standing :: standings) lookups resolved
  | unknown {standing standings lookups resolved entry member accountID} (e : GoError)
      (h : candidate entries members standing = some (entry, member))
      (haccount : accountID = member.walletAddress) :
      Resolution entries members standings lookups resolved →
      Resolution entries members (standing :: standings)
        (⟨.resolveEVM accountID, .error e⟩ :: lookups) resolved
  | eligible {standing standings lookups resolved entry member accountID} (addr : Address)
      (h : candidate entries members standing = some (entry, member))
      (haccount : accountID = member.walletAddress) :
      Resolution entries members standings lookups resolved →
      Resolution entries members (standing :: standings)
        (⟨.resolveEVM accountID, .ok addr⟩ :: lookups)
        (⟨member, entry.amountCents, standing.place, addr⟩ :: resolved)

variable {entries : List PayoutEntry} {members : List LeagueMember}
  {standings : List PlatformStanding} {lookups lookups' : DepTrace}
  {resolved resolved' : List ResolvedPayout}

/-- The rule, the member and the wallet of a candidate. -/
theorem candidate_eq_some {standing : PlatformStanding} {entry : PayoutEntry}
    {member : LeagueMember} : candidate entries members standing = some (entry, member) ↔
    placeToEntry entries standing.place = some entry ∧
      memberByRoster members standing.rosterID = some member ∧ member.walletAddress ≠ "" := by
  unfold candidate
  cases placeToEntry entries standing.place with
  | none => simp
  | some e =>
    cases memberByRoster members standing.rosterID with
    | none => simp
    | some m =>
      by_cases hwallet : m.walletAddress = ""
      · simp only [Option.bind_eq_bind, Option.bind_some, hwallet, if_true]
        constructor
        · exact fun h => by cases h
        · rintro ⟨-, hm, hne⟩
          cases hm
          exact absurd hwallet hne
      · simp only [Option.bind_eq_bind, Option.bind_some, hwallet, if_false, Option.some.injEq,
          Prod.mk.injEq]
        constructor
        · rintro ⟨rfl, rfl⟩
          exact ⟨rfl, rfl, hwallet⟩
        · rintro ⟨rfl, rfl, -⟩
          exact ⟨rfl, rfl⟩

/-- The member of a candidate has its roster. -/
theorem rosterID_of_candidate {standing : PlatformStanding} {entry : PayoutEntry}
    {member : LeagueMember} (h : candidate entries members standing = some (entry, member)) :
    member.rosterID = standing.rosterID := by
  have hmember := (candidate_eq_some.mp h).2.1
  unfold memberByRoster at hmember
  have hroster := List.find?_some hmember
  exact of_decide_eq_true hroster

/-- The eligible standings are determined by what was looked up. -/
theorem Resolution.unique (h : Resolution entries members standings lookups resolved)
    (h' : Resolution entries members standings lookups resolved') : resolved = resolved' := by
  induction h generalizing resolved' with
  | nil =>
    cases h'
    rfl
  | skip hnone _ ih =>
    cases h' with
    | skip _ h' => exact ih h'
    | unknown _ hsome => exact absurd (hnone.symm.trans hsome) (by simp)
    | eligible _ hsome => exact absurd (hnone.symm.trans hsome) (by simp)
  | unknown e hsome _ _ ih =>
    cases h' with
    | skip hnone => exact absurd (hnone.symm.trans hsome) (by simp)
    | unknown _ _ _ h' => exact ih h'
  | eligible addr hsome _ _ ih =>
    cases h' with
    | skip hnone => exact absurd (hnone.symm.trans hsome) (by simp)
    | eligible _ hsome' _ h' =>
      obtain ⟨rfl, rfl⟩ := Prod.mk.inj (Option.some.inj (hsome.symm.trans hsome'))
      rw [ih h']

/-- Only addresses are looked up. -/
theorem Resolution.looksUp (h : Resolution entries members standings lookups resolved) :
    ∀ call ∈ lookups, call.1.looksUp = true := by
  induction h with
  | nil => simp
  | skip _ _ ih => exact ih
  | unknown e _ _ _ ih => exact List.forall_mem_cons.mpr ⟨rfl, ih⟩
  | eligible addr _ _ _ ih => exact List.forall_mem_cons.mpr ⟨rfl, ih⟩

/-- The resolution loop finds the eligible standings. -/
theorem conforms_resolveStandings {before : DepTrace} :
    recorder.Conforms before (resolveStandings .any entries members standings)
      fun calls resolved => ∃ lookups, calls = before ++ lookups ∧
        Resolution entries members standings lookups resolved := by
  induction standings generalizing before with
  | nil => exact ⟨[], by simp, .nil⟩
  | cons standing standings ih =>
    refine conforms_bind.mpr ?_
    have hskip : candidate entries members standing = none →
        recorder.Conforms before (resolveStandings .any entries members standings)
          fun calls resolved => ∃ lookups, calls = before ++ lookups ∧
            Resolution entries members (standing :: standings) lookups resolved := by
      intro hnone
      refine ih.mono fun calls resolved h => ?_
      obtain ⟨lookups, hcalls, hresolution⟩ := h
      exact ⟨lookups, hcalls, .skip hnone hresolution⟩
    unfold resolveStanding
    split
    · rename_i hentry
      refine conforms_bind.mpr ((hskip ?_).mono fun _ _ h => h)
      simp [candidate, hentry]
    · rename_i entry hentry
      split
      · rename_i hmember
        refine conforms_bind.mpr ((hskip ?_).mono fun _ _ h => h)
        simp [candidate, hentry, hmember]
      · rename_i member hmember
        refine conforms_ite.mpr ⟨fun hwallet => ?_, fun hwallet => ?_⟩
        · refine conforms_bind.mpr ((hskip ?_).mono fun _ _ h => h)
          simp [candidate, hentry, hmember, hwallet]
        · have hsome : candidate entries members standing = some (entry, member) := by
            simp [candidate, hentry, hmember, hwallet]
          refine conforms_bind.mpr ((conforms_perform (c := DepCall.resolveEVM _)).mpr
            ⟨trivial, fun r => ?_⟩)
          cases r with
          | error e =>
            refine conforms_bind.mpr (ih.mono fun calls resolved h => ?_)
            obtain ⟨lookups, hcalls, hresolution⟩ := h
            refine ⟨_, ?_, .unknown e hsome rfl hresolution⟩
            rw [hcalls]
            exact List.append_assoc ..
          | ok addr =>
            refine conforms_bind.mpr (ih.mono fun calls resolved h => ?_)
            obtain ⟨lookups, hcalls, hresolution⟩ := h
            refine ⟨_, ?_, .eligible addr hsome rfl hresolution⟩
            rw [hcalls]
            exact List.append_assoc ..

/-! ## After the addresses -/

variable {league : OracleLeague}

/-- The calls up to the addresses. -/
def readCalls (league : OracleLeague) (standings : List PlatformStanding)
    (members : List LeagueMember) (lookups : DepTrace) : DepTrace :=
  ⟨.platformStatus league.platform league.platformLeagueID, .ok "complete"⟩ ::
    ⟨.finalStandings league.platform league.platformLeagueID, .ok standings⟩ ::
      ⟨.loadMembers league.id, .ok members⟩ :: lookups

/-- The call comes after the transaction. -/
def DepCall.finishes : DepCall → Bool
  | .markPayoutFailed _ => true
  | .markPayoutExecuted _ _ => true
  | .recordMemberPayout _ _ _ _ _ => true
  | _ => false

/-- The payouts that are recorded for the transaction. -/
def payoutRecords (league : OracleLeague) (resolved : List ResolvedPayout) (txHash : String) :
    List (String × ℤ × ℤ × Int64 × String) :=
  resolved.map fun r => (league.id, r.member.rosterID, r.place, r.amountCents, txHash)

/-- The calls after the transaction: payouts are recorded if it succeeded and the league was marked,
and not otherwise. -/
structure Finish (league : OracleLeague) (resolved : List ResolvedPayout)
    (d : Except GoError String) (rest : DepTrace) : Prop where
  finishes : ∀ call ∈ rest, call.1.finishes = true
  records : (rest.filterMap recorded = [] ∧ ∀ txHash : String, d = .ok txHash →
      (⟨.markPayoutExecuted league.id txHash, .ok true⟩ : Sigma DepRet) ∉ rest) ∨
    ∃ txHash : String, d = .ok txHash ∧
      (⟨.markPayoutExecuted league.id txHash, .ok true⟩ : Sigma DepRet) ∈ rest ∧
      rest.filterMap recorded = payoutRecords league resolved txHash

/-- The loop records one payout for each standing that was paid. -/
theorem recorded_recordMemberPayouts {before : DepTrace} {txHash : String} :
    recorder.Conforms before (recordMemberPayouts .any league.id txHash resolved)
      fun calls _ => ∃ records, calls = before ++ records ∧
        (∀ call ∈ records, call.1.finishes = true) ∧
        records.filterMap recorded = payoutRecords league resolved txHash := by
  induction resolved generalizing before with
  | nil => exact ⟨[], by simp, by simp, rfl⟩
  | cons r resolved ih =>
    refine ⟨trivial, fun d => ?_⟩
    refine ih.mono fun calls _ h => ?_
    obtain ⟨records, hcalls, hfinishes, hrecords⟩ := h
    refine ⟨⟨.recordMemberPayout league.id r.member.rosterID r.place r.amountCents txHash, d⟩ ::
      records, ?_, List.forall_mem_cons.mpr ⟨rfl, hfinishes⟩, ?_⟩
    · rw [hcalls]
      exact List.append_assoc ..
    · rw [List.filterMap_cons, hrecords]
      rfl

/-- After the transaction a settlement finishes. -/
theorem recorded_finishPayout {before : DepTrace} {d : Except GoError String} :
    recorder.Conforms before (finishPayout .any league.id resolved d).run
      fun calls _ => ∃ rest, calls = before ++ rest ∧ Finish league resolved d rest := by
  cases d with
  | error e =>
    refine ⟨trivial, fun r => ?_⟩
    refine ⟨[⟨.markPayoutFailed league.id, r⟩], rfl, by simp [DepCall.finishes], .inl ⟨rfl, ?_⟩⟩
    intro txHash hd
    cases hd
  | ok txHash =>
    refine conforms_run_bind.mpr ?_
    refine ⟨trivial, fun r => ?_⟩
    have hunmarked : r ≠ .ok true →
        Finish league resolved (.ok txHash) [⟨.markPayoutExecuted league.id txHash, r⟩] := by
      intro hr
      refine ⟨by simp [DepCall.finishes], .inl ⟨rfl, ?_⟩⟩
      intro txHash' hd hmem
      cases hd
      cases List.mem_singleton.mp hmem
      exact hr rfl
    cases r with
    | error e => exact ⟨_, rfl, hunmarked (by simp)⟩
    | ok updated =>
      cases updated with
      | false => exact ⟨_, rfl, hunmarked (by simp)⟩
      | true =>
        refine conforms_run_lift.mpr (recorded_recordMemberPayouts.mono fun calls _ h => ?_)
        obtain ⟨records, hcalls, hfinishes, hrecords⟩ := h
        refine ⟨⟨.markPayoutExecuted league.id txHash, .ok true⟩ :: records, ?_,
          List.forall_mem_cons.mpr ⟨rfl, hfinishes⟩, .inr ⟨txHash, rfl, List.mem_cons_self, ?_⟩⟩
        · rw [hcalls]
          exact List.append_assoc ..
        · rw [List.filterMap_cons_none rfl, hrecords]

/-! ## The courses -/

/-- The courses a settlement may take: where it ends, and with which calls. -/
inductive SettlementCourse (league : OracleLeague) : DepTrace → Prop
  | notComplete (r) (hr : r ≠ .ok "complete") :
      SettlementCourse league [⟨.platformStatus league.platform league.platformLeagueID, r⟩]
  | noEntries (r) (hentries : league.placementEntries = []) :
      SettlementCourse league
        ([⟨.platformStatus league.platform league.platformLeagueID, .ok "complete"⟩] ++
          [⟨.markSettledWithoutPayout league.id, r⟩])
  | noStandings (e) : SettlementCourse league
      [⟨.platformStatus league.platform league.platformLeagueID, .ok "complete"⟩,
        ⟨.finalStandings league.platform league.platformLeagueID, .error e⟩]
  | noMembers (standings : _) (e) : SettlementCourse league
      [⟨.platformStatus league.platform league.platformLeagueID, .ok "complete"⟩,
        ⟨.finalStandings league.platform league.platformLeagueID, .ok standings⟩,
        ⟨.loadMembers league.id, .error e⟩]
  | noneResolved {standings members lookups : _} (r) (hentries : league.placementEntries ≠ [])
      (h : Resolution league.placementEntries members standings lookups []) :
      SettlementCourse league (readCalls league standings members lookups ++
        [⟨.markSettledWithoutPayout league.id, r⟩])
  | badID {standings members lookups resolved : _} (e) (hkey : uuidToBytes32 league.id = .error e)
      (h : Resolution league.placementEntries members standings lookups resolved) :
      SettlementCourse league (readCalls league standings members lookups)
  | notCovered {standings members lookups resolved key : _} (r)
      (hentries : league.placementEntries ≠ []) (hkey : uuidToBytes32 league.id = .ok key)
      (h : Resolution league.placementEntries members standings lookups resolved)
      (hr : ∀ balance, r = .ok balance →
        sumPayout (resolved.map fun r => toMicroUSDC r.amountCents) > balance) :
      SettlementCourse league (readCalls league standings members lookups ++
        [⟨.escrowBalance key, r⟩])
  | lost {standings members lookups resolved key balance : _} (r)
      (hentries : league.placementEntries ≠ [])
      (h : Resolution league.placementEntries members standings lookups resolved)
      (hbalance : ¬ sumPayout (resolved.map fun r => toMicroUSDC r.amountCents) > balance)
      (hr : r ≠ .ok true) :
      SettlementCourse league ((readCalls league standings members lookups ++
        [⟨.escrowBalance key, .ok balance⟩]) ++ [⟨.claimPayout league.id, r⟩])
  | sent {standings members lookups resolved key balance rest : _} (d : Except GoError String)
      (hentries : league.placementEntries ≠ []) (hne : resolved ≠ [])
      (h : Resolution league.placementEntries members standings lookups resolved)
      (hkey : uuidToBytes32 league.id = .ok key)
      (hbalance : ¬ sumPayout (resolved.map fun r => toMicroUSDC r.amountCents) > balance)
      (hfinish : Finish league resolved d rest) :
      SettlementCourse league (((readCalls league standings members lookups ++
          [⟨.escrowBalance key, .ok balance⟩]) ++ [⟨.claimPayout league.id, .ok true⟩]) ++
        ⟨.distribute key (resolved.map ResolvedPayout.evmAddr)
          (resolved.map fun r => toMicroUSDC r.amountCents), d⟩ :: rest)

/-- The course of a settlement with something to pay, from the addresses on. -/
theorem course_payResolved (hentries : league.placementEntries ≠ []) (hne : resolved ≠ [])
    (h : Resolution league.placementEntries members standings lookups resolved) :
    recorder.Conforms (readCalls league standings members lookups)
      (payResolved .any league.id resolved).run fun calls _ => SettlementCourse league calls := by
  refine conforms_run_bind.mpr (conforms_run_adapt.mpr ?_)
  change Protocol.Conforms _ _ (pure (uuidToBytes32 league.id)) _
  refine conforms_pure.mpr ?_
  cases hkey : uuidToBytes32 league.id with
  | error e => exact .badID e hkey h
  | ok key =>
    refine conforms_run_bind.mpr (conforms_run_adapt.mpr ⟨trivial, fun r => ?_⟩)
    cases r with
    | error e => exact .notCovered (.error e) hentries hkey h fun _ heq => by cases heq
    | ok balance =>
      refine conforms_run_ite.mpr ⟨fun hshort => ?_, fun hbalance => ?_⟩
      · exact .notCovered (.ok balance) hentries hkey h fun _ heq => by
          cases heq
          exact hshort
      refine conforms_run_bind.mpr (conforms_run_adapt.mpr ⟨trivial, fun r => ?_⟩)
      cases r with
      | error e => exact .lost (.error e) hentries h hbalance (by simp)
      | ok claimed =>
        cases claimed with
        | false => exact .lost (.ok false) hentries h hbalance (by simp)
        | true =>
          refine conforms_run_bind.mpr (conforms_run_lift.mpr ⟨trivial, fun d => ?_⟩)
          refine recorded_finishPayout.mono fun calls _ hcalls => ?_
          obtain ⟨rest, hcalls, hfinish⟩ := hcalls
          have hsent := SettlementCourse.sent d hentries hne h hkey hbalance hfinish
          rw [List.append_cons] at hsent
          rw [hcalls]
          exact hsent

/-- The course of every settlement. -/
theorem course_settleSeasonEnd :
    recorder.Conforms [] (settleSeasonEnd .any league).run fun calls _ =>
      SettlementCourse league calls := by
  refine conforms_run_bind.mpr (conforms_run_adapt.mpr ⟨trivial, fun r => ?_⟩)
  cases r with
  | error e => exact .notComplete (.error e) (by simp)
  | ok status =>
    refine conforms_run_ite.mpr ⟨fun hstatus => ?_, fun hstatus => ?_⟩
    · exact .notComplete (.ok status) fun heq => hstatus (Except.ok.inj heq)
    obtain rfl : status = "complete" := not_not.mp hstatus
    refine conforms_run_ite.mpr ⟨fun hentries => ⟨trivial, fun r => ?_⟩, fun hentries => ?_⟩
    · exact .noEntries r hentries
    refine conforms_run_bind.mpr (conforms_run_adapt.mpr ⟨trivial, fun r => ?_⟩)
    cases r with
    | error e => exact .noStandings e
    | ok standings =>
      refine conforms_run_bind.mpr (conforms_run_adapt.mpr ⟨trivial, fun r => ?_⟩)
      cases r with
      | error e => exact .noMembers standings e
      | ok members =>
        refine conforms_run_bind.mpr (conforms_run_lift.mpr
          (conforms_resolveStandings.mono fun calls resolved hcalls => ?_))
        obtain ⟨lookups, rfl, hresolution⟩ := hcalls
        refine conforms_run_ite.mpr ⟨fun hnone => ⟨trivial, fun r => ?_⟩, fun hne => ?_⟩
        · obtain rfl := List.isEmpty_iff.mp hnone
          exact .noneResolved r hentries hresolution
        · exact course_payResolved hentries (by simpa using hne) hresolution

/-- A settlement that has returned took one of these courses. -/
theorem SettlementCourse.of_yields {calls : DepTrace} {r : Except GoError Unit}
    (h : (settleSeasonEnd .any league).run.Yields r calls) : SettlementCourse league calls :=
  course_settleSeasonEnd.yields h

end Wagr
