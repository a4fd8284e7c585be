import Wagr.Payouts.MicroUSDC
import Wagr.Payouts.SettlementCourse
import Wagr.Service.Scenario
import Mathlib.Algebra.Order.BigOperators.Group.List

/-!
# What one settlement does

A league that is not claimed is not paid, a settlement that stops early writes nothing, and what
is paid and recorded is what was resolved.
-/

namespace Wagr

open Interaction Protocol

/-! ## Amounts -/

/-- Every amount in micro-USDC and their sum fit into an `int64`. -/
structure NoOverflow (cents : List Int64) : Prop where
  each : ∀ c ∈ cents, -2 ^ 63 ≤ 10000 * c.toInt ∧ 10000 * c.toInt < 2 ^ 63
  total : -2 ^ 63 ≤ 10000 * (cents.map Int64.toInt).sum ∧
    10000 * (cents.map Int64.toInt).sum < 2 ^ 63

/-- The sum is taken modulo `2 ^ 64`. -/
theorem toInt_sumPayout (amounts : List Int64) :
    (sumPayout amounts).toInt = (amounts.map Int64.toInt).sum.bmod (2 ^ 64) := by
  have hstart : ∀ start : Int64, (amounts.foldl (· + ·) start).toInt =
      (start.toInt + (amounts.map Int64.toInt).sum).bmod (2 ^ 64) := by
    induction amounts with
    | nil =>
      intro start
      have hlow := Int64.le_toInt start
      have hhigh := Int64.toInt_lt start
      rw [List.foldl_nil, List.map_nil, List.sum_nil, add_zero,
        Int.bmod_eq_of_le_mul_two (by omega) (by omega)]
    | cons amount amounts ih =>
      intro start
      have hadd : (start + amount).toInt = (start.toInt + amount.toInt).bmod (2 ^ 64) :=
        Int64.toInt_add _ _
      rw [List.foldl_cons, ih, hadd, List.map_cons, List.sum_cons, Int.bmod_add_bmod, add_assoc]
  have hzero : (0 : Int64).toInt = 0 := rfl
  have hsum := hstart 0
  rw [hzero, zero_add] at hsum
  exact hsum

/-- Without overflow the amounts are the cents times 10,000. -/
theorem NoOverflow.toInt {cents : List Int64} (h : NoOverflow cents) {c : Int64} (hc : c ∈ cents) :
    (toMicroUSDC c).toInt = 10000 * c.toInt := by
  have hmul : (toMicroUSDC c).toInt = (c.toInt * 10000).bmod (2 ^ 64) := Int64.toInt_mul c 10000
  obtain ⟨hlow, hhigh⟩ := h.each c hc
  rw [hmul, mul_comm, Int.bmod_eq_of_le_mul_two (by omega) (by omega)]

/-- Without overflow the total is the sum of the cents times 10,000. -/
theorem NoOverflow.sum {cents : List Int64} (h : NoOverflow cents) :
    (sumPayout (cents.map toMicroUSDC)).toInt = 10000 * (cents.map Int64.toInt).sum := by
  have hamounts : (cents.map toMicroUSDC).map Int64.toInt = cents.map fun c => 10000 * c.toInt := by
    rw [List.map_map]
    exact List.map_congr_left fun c hc => h.toInt hc
  obtain ⟨hlow, hhigh⟩ := h.total
  rw [toInt_sumPayout, hamounts, List.sum_map_mul_left,
    Int.bmod_eq_of_le_mul_two (by omega) (by omega)]

/-- Without overflow the total of a list of payouts is the sum of their cents times 10,000. -/
theorem NoOverflow.sum_payouts {resolved : List ResolvedPayout}
    (h : NoOverflow (resolved.map ResolvedPayout.amountCents)) :
    (sumPayout (resolved.map fun r => toMicroUSDC r.amountCents)).toInt =
      10000 * (resolved.map fun r => r.amountCents.toInt).sum := by
  have hsum := h.sum
  rw [List.map_map, List.map_map] at hsum
  exact hsum

/-- Rules with non-negative amounts whose sum is small enough do not overflow. -/
theorem NoOverflow.of_sum_le {rules : List PayoutEntry}
    (hnonneg : ∀ e ∈ rules, 0 ≤ e.amountCents.toInt)
    (hsum : (rules.map fun e => e.amountCents.toInt).sum ≤ 922337203685477) :
    NoOverflow (rules.map PayoutEntry.amountCents) := by
  have hnonneg' : ∀ x ∈ rules.map fun e => e.amountCents.toInt, 0 ≤ x := by
    intro x hx
    obtain ⟨e, he, rfl⟩ := List.mem_map.mp hx
    exact hnonneg e he
  have hpos := List.sum_nonneg hnonneg'
  refine ⟨fun c hc => ?_, ?_⟩
  · obtain ⟨e, he, rfl⟩ := List.mem_map.mp hc
    have hlow := hnonneg e he
    have hhigh := List.single_le_sum hnonneg' _ (List.mem_map_of_mem he)
    omega
  · rw [List.map_map]
    change -2 ^ 63 ≤ 10000 * (rules.map fun e => e.amountCents.toInt).sum ∧
      10000 * (rules.map fun e => e.amountCents.toInt).sum < 2 ^ 63
    omega

/-! ## What a settlement may do -/

section

variable (league : OracleLeague) (calls : DepTrace)

/-- What was resolved: the eligible standings of the list read and of the addresses looked up. -/
def Resolves (resolved : List ResolvedPayout) : Prop :=
  (league.placementEntries = [] ∧ resolved = []) ∨
    ∃ standings members,
      ⟨.finalStandings league.platform league.platformLeagueID, .ok standings⟩ ∈ calls ∧
      ⟨.loadMembers league.id, .ok members⟩ ∈ calls ∧
      Resolution league.placementEntries members standings
        (calls.filter fun call => call.1.looksUp) resolved

/-- The platform is not complete, or something could not be read, or the escrow is short. -/
inductive StopsEarly : Prop
  | status (r) (h : r ≠ .ok "complete")
    (hmem : ⟨.platformStatus league.platform league.platformLeagueID, r⟩ ∈ calls)
  | standings (e)
    (hmem : ⟨.finalStandings league.platform league.platformLeagueID, .error e⟩ ∈ calls)
  | members (e) (hmem : ⟨.loadMembers league.id, .error e⟩ ∈ calls)
  | balance (key) (e) (hmem : ⟨.escrowBalance key, .error e⟩ ∈ calls)
  | short (key) (balance) (resolved) (hmem : ⟨.escrowBalance key, .ok balance⟩ ∈ calls)
    (hresolves : Resolves league calls resolved)
    (hexact : NoOverflow (resolved.map ResolvedPayout.amountCents))
    (hshort : balance.toInt < 10000 * (resolved.map fun r => r.amountCents.toInt).sum)

/-- The transaction pays the resolved standings, each with its cents times 10,000, after a claim
that was won, and its total is covered by the balance read. -/
structure Covered (key : Bytes32) (recipients : List Address) (amounts : List Int64)
    (resolved : List ResolvedPayout) : Prop where
  resolves : Resolves league calls resolved
  nonempty : resolved ≠ []
  keyed : uuidToBytes32 league.id = .ok key
  addresses : recipients = resolved.map ResolvedPayout.evmAddr
  cents : amounts = resolved.map fun r => toMicroUSDC r.amountCents
  exact : NoOverflow (resolved.map ResolvedPayout.amountCents) →
    amounts.map Int64.toInt = resolved.map fun r => 10000 * r.amountCents.toInt
  balance : ∃ balance, ⟨.escrowBalance key, .ok balance⟩ ∈ calls ∧ sumPayout amounts ≤ balance ∧
    (NoOverflow (resolved.map ResolvedPayout.amountCents) →
      10000 * (resolved.map fun r => r.amountCents.toInt).sum ≤ balance.toInt)
  claimed : ⟨.claimPayout league.id, .ok true⟩ ∈ calls

/-- What a transaction pays is all that was resolved, and it is what is recorded if the transaction
succeeded and the league was marked. -/
structure RecordsSent (resolved : List ResolvedPayout) (r : Except GoError String) : Prop where
  all : ∀ resolved', Resolves league calls resolved' ↔ resolved' = resolved
  records : ∀ txHash, r = .ok txHash →
    ⟨.markPayoutExecuted league.id txHash, .ok true⟩ ∈ calls →
      calls.filterMap recorded = payoutRecords league resolved txHash

/-- One settlement pays, writes and records exactly what it resolved. -/
structure SettledExactly : Prop where
  once : calls.countP (fun call => call.1.distributes) ≤ 1
  sends : ∀ before key recipients amounts r after,
    calls = before ++ ⟨.distribute key recipients amounts, r⟩ :: after →
      ∃ resolved, Covered league before key recipients amounts resolved ∧
        RecordsSent league calls resolved r
  stops : StopsEarly league calls → ∀ call ∈ calls, call.1.writes = false
  lost : ∀ leagueID r, ⟨.claimPayout leagueID, r⟩ ∈ calls → r ≠ .ok true →
    calls.filter (fun call => call.1.writes) = [⟨.claimPayout league.id, r⟩]
  settles : ∀ leagueID r, ⟨.markSettledWithoutPayout leagueID, r⟩ ∈ calls →
    leagueID = league.id ∧ Resolves league calls []
  recordsOnly : calls.filterMap recorded ≠ [] → ∃ key recipients amounts txHash,
    ⟨.distribute key recipients amounts, .ok txHash⟩ ∈ calls ∧
      ⟨.markPayoutExecuted league.id txHash, .ok true⟩ ∈ calls

end

/-! ## The course of a settlement -/

variable {entries : List PayoutEntry} {members : List LeagueMember}
  {standings : List PlatformStanding} {lookups : DepTrace}
  {resolved resolved' : List ResolvedPayout}
  {league : OracleLeague} {calls reads later : DepTrace} {key : Bytes32}
  {recipients : List Address} {amounts : List Int64}

/-- The call comes after the addresses: it reads the balance or writes. -/
def DepCall.late : DepCall → Bool
  | .escrowBalance _ => true
  | c => c.writes

/-- A call after the addresses is none of the reads before. -/
theorem DepCall.late_cases {c : DepCall} (h : c.late = true) :
    c.looksUp = false ∧ (∀ platform id, c ≠ .platformStatus platform id) ∧
      (∀ platform id, c ≠ .finalStandings platform id) ∧ ∀ leagueID, c ≠ .loadMembers leagueID := by
  cases c <;> simp_all [late, writes, looksUp]

/-- What is among the reads of a settlement. -/
theorem mem_readCalls (hlookups : ∀ call ∈ lookups, call.1.looksUp = true)
    (hlater : ∀ call ∈ later, call.1.late = true) {call : Sigma DepRet}
    (h : call ∈ readCalls league standings members lookups ++ later) :
    call = ⟨.platformStatus league.platform league.platformLeagueID, .ok "complete"⟩ ∨
    call = ⟨.finalStandings league.platform league.platformLeagueID, .ok standings⟩ ∨
    call = ⟨.loadMembers league.id, .ok members⟩ ∨ call.1.looksUp = true ∨
    (call ∈ later ∧ call.1.late = true) := by
  rcases List.mem_append.mp h with h | h
  · simp only [readCalls, List.mem_cons] at h
    rcases h with h | h | h | h
    · exact .inl h
    · exact .inr (.inl h)
    · exact .inr (.inr (.inl h))
    · exact .inr (.inr (.inr (.inl (hlookups _ h))))
  · exact .inr (.inr (.inr (.inr ⟨h, hlater _ h⟩)))

/-- The addresses looked up. -/
theorem filter_looksUp (hlookups : ∀ call ∈ lookups, call.1.looksUp = true)
    (hlater : ∀ call ∈ later, call.1.late = true) :
    (readCalls league standings members lookups ++ later).filter (fun call => call.1.looksUp) =
      lookups := by
  have hall : lookups.filter (fun call => call.1.looksUp) = lookups :=
    List.filter_eq_self.mpr hlookups
  have hnone : later.filter (fun call => call.1.looksUp) = [] :=
    List.filter_eq_nil_iff.mpr fun call hcall => by
      simp [(DepCall.late_cases (hlater call hcall)).1]
  rw [List.filter_append, hnone, List.append_nil]
  exact hall

/-- What was resolved is known after the reads. -/
theorem resolves_iff (hentries : league.placementEntries ≠ [])
    (hlater : ∀ call ∈ later, call.1.late = true)
    (h : Resolution league.placementEntries members standings lookups resolved) :
    Resolves league (readCalls league standings members lookups ++ later) resolved' ↔
      resolved' = resolved := by
  have hlookups := h.looksUp
  constructor
  · rintro (⟨hnone, -⟩ | ⟨standings', members', hstandings, hmembers, hresolution⟩)
    · exact absurd hnone hentries
    · rw [filter_looksUp hlookups hlater] at hresolution
      have hstandings' : standings' = standings := by
        rcases mem_readCalls hlookups hlater hstandings with heq | heq | heq | heq | ⟨-, heq⟩
        · cases heq
        · cases heq
          rfl
        · cases heq
        · cases heq
        · cases heq
      have hmembers' : members' = members := by
        rcases mem_readCalls hlookups hlater hmembers with heq | heq | heq | heq | ⟨-, heq⟩
        · cases heq
        · cases heq
        · cases heq
          rfl
        · cases heq
        · cases heq
      subst hstandings' hmembers'
      exact hresolution.unique h
  · rintro rfl
    refine .inr ⟨standings, members, ?_, ?_, ?_⟩
    · simp [readCalls]
    · simp [readCalls]
    · rw [filter_looksUp hlookups hlater]
      exact h

/-- A settlement that has read everything, and has not found the escrow short, does not stop. -/
theorem not_stopsEarly (hentries : league.placementEntries ≠ [])
    (hlater : ∀ call ∈ later, call.1.late = true)
    (h : Resolution league.placementEntries members standings lookups resolved)
    (hbalance : ∀ key r, ⟨.escrowBalance key, r⟩ ∈ later → ∃ balance, r = .ok balance ∧
      ¬ sumPayout (resolved.map fun r => toMicroUSDC r.amountCents) > balance) :
    ¬ StopsEarly league (readCalls league standings members lookups ++ later) := by
  have hlookups := h.looksUp
  intro hstops
  cases hstops with
  | status r hr hmem =>
    rcases mem_readCalls hlookups hlater hmem with heq | heq | heq | heq | ⟨-, heq⟩
    · cases heq
      exact hr rfl
    all_goals cases heq
  | standings e hmem =>
    rcases mem_readCalls hlookups hlater hmem with heq | heq | heq | heq | ⟨-, heq⟩
    all_goals cases heq
  | members e hmem =>
    rcases mem_readCalls hlookups hlater hmem with heq | heq | heq | heq | ⟨-, heq⟩
    all_goals cases heq
  | balance key e hmem =>
    rcases mem_readCalls hlookups hlater hmem with heq | heq | heq | heq | ⟨hmem, -⟩
    · cases heq
    · cases heq
    · cases heq
    · cases heq
    · obtain ⟨balance, heq, -⟩ := hbalance _ _ hmem
      cases heq
  | short key balance resolved' hmem hresolves hexact hshort =>
    obtain rfl := (resolves_iff hentries hlater h).mp hresolves
    rcases mem_readCalls hlookups hlater hmem with heq | heq | heq | heq | ⟨hmem, -⟩
    · cases heq
    · cases heq
    · cases heq
    · cases heq
    · obtain ⟨balance', heq, hcovered⟩ := hbalance _ _ hmem
      cases heq
      refine hcovered (Int64.lt_iff_toInt_lt.mpr ?_)
      rw [hexact.sum_payouts]
      exact hshort

/-! ## How a settlement ends -/

/-- No transaction is sent. -/
theorem countP_distributes (h : ∀ key recipients amounts d,
    (⟨.distribute key recipients amounts, d⟩ : Sigma DepRet) ∉ calls) :
    calls.countP (fun call => call.1.distributes) = 0 := by
  refine List.countP_eq_zero.mpr fun call hcall hdistributes => ?_
  obtain ⟨c, r⟩ := call
  cases c with
  | distribute => exact h _ _ _ _ hcall
  | _ => cases hdistributes

/-- No payout is recorded. -/
theorem filterMap_recorded (h : ∀ leagueID rosterID place cents txHash r,
    (⟨.recordMemberPayout leagueID rosterID place cents txHash, r⟩ : Sigma DepRet) ∉ calls) :
    calls.filterMap recorded = [] := by
  refine List.filterMap_eq_nil_iff.mpr fun call hcall => ?_
  obtain ⟨c, r⟩ := call
  cases c with
  | recordMemberPayout => exact absurd hcall (h _ _ _ _ _ _)
  | _ => rfl

/-- Nothing is written. -/
theorem filter_writes (h : ∀ call ∈ reads, call.1.writes = false) :
    reads.filter (fun call => call.1.writes) = [] :=
  List.filter_eq_nil_iff.mpr fun call hcall => by simp [h call hcall]

/-- A settlement that only reads. -/
theorem settledExactly_of_reads (h : ∀ call ∈ calls, call.1.writes = false) :
    SettledExactly league calls := by
  have hwrites :
      ∀ {c : DepCall} {r : DepRet c}, c.writes = true → (⟨c, r⟩ : Sigma DepRet) ∉ calls := by
    intro c r hc hmem
    exact absurd (hc.symm.trans (h _ hmem)) (by decide)
  refine ⟨?_, ?_, fun _ => h, ?_, ?_, ?_⟩
  · rw [countP_distributes fun _ _ _ _ => hwrites rfl]
    exact Nat.zero_le 1
  · rintro before key recipients amounts r after rfl
    exact absurd (List.mem_append_right before List.mem_cons_self) (hwrites rfl)
  · exact fun leagueID r hmem => absurd hmem (hwrites rfl)
  · exact fun leagueID r hmem => absurd hmem (hwrites rfl)
  · exact fun hne => absurd (filterMap_recorded fun _ _ _ _ _ _ => hwrites rfl) hne

/-- A settlement that reads and then makes one write that is no transaction: it marks a league with
nothing to pay, or loses the claim. -/
theorem settledExactly_of_write {c : DepCall} {r : DepRet c}
    (hreads : ∀ call ∈ reads, call.1.writes = false)
    (hstops : ¬ StopsEarly league (reads ++ [⟨c, r⟩]))
    (hwrite : (c = .markSettledWithoutPayout league.id ∧
        Resolves league (reads ++ [⟨c, r⟩]) []) ∨
      ∃ r', (⟨c, r⟩ : Sigma DepRet) = ⟨.claimPayout league.id, r'⟩ ∧ r' ≠ .ok true) :
    SettledExactly league (reads ++ [⟨c, r⟩]) := by
  have hmem : ∀ {c' : DepCall} {r' : DepRet c'}, c'.writes = true →
      (⟨c', r'⟩ : Sigma DepRet) ∈ reads ++ [⟨c, r⟩] → (⟨c', r'⟩ : Sigma DepRet) = ⟨c, r⟩ := by
    intro c' r' hc' hmem
    rcases List.mem_append.mp hmem with hmem | hmem
    · exact absurd (hc'.symm.trans (hreads _ hmem)) (by decide)
    · exact List.mem_singleton.mp hmem
  have hnodistribute : ∀ key recipients amounts d,
      (⟨.distribute key recipients amounts, d⟩ : Sigma DepRet) ∉ reads ++ [⟨c, r⟩] := by
    intro key recipients amounts d h
    have heq := hmem rfl h
    rcases hwrite with ⟨rfl, -⟩ | ⟨r', heq', -⟩
    · cases heq
    · cases heq.trans heq'
  have hnorecord : ∀ leagueID rosterID place cents txHash r',
      (⟨.recordMemberPayout leagueID rosterID place cents txHash, r'⟩ : Sigma DepRet) ∉
        reads ++ [⟨c, r⟩] := by
    intro leagueID rosterID place cents txHash r' h
    have heq := hmem rfl h
    rcases hwrite with ⟨rfl, -⟩ | ⟨r'', heq', -⟩
    · cases heq
    · cases heq.trans heq'
  refine ⟨?_, ?_, fun h => absurd h hstops, ?_, ?_, ?_⟩
  · rw [countP_distributes hnodistribute]
    exact Nat.zero_le 1
  · intro before key recipients amounts d after heq
    have h := List.mem_append_right before
      (List.mem_cons_self
        (a := (⟨.distribute key recipients amounts, d⟩ : Sigma DepRet)) (l := after))
    rw [← heq] at h
    exact absurd h (hnodistribute _ _ _ _)
  · intro leagueID r' h hlost
    have hclaim := hmem rfl h
    rw [List.filter_append, filter_writes hreads, ← hclaim]
    rcases hwrite with ⟨rfl, -⟩ | ⟨r'', heq, -⟩
    · cases hclaim
    · cases hclaim.trans heq
      rfl
  · intro leagueID r' h
    have hmark := hmem rfl h
    rcases hwrite with ⟨rfl, hnone⟩ | ⟨r'', heq, -⟩
    · cases hmark
      exact ⟨rfl, hnone⟩
    · cases hmark.trans heq
  · exact fun hne => absurd (filterMap_recorded hnorecord) hne

/-- A settlement that wins the claim, sends its transaction and finishes. -/
theorem settledExactly_of_sent {d : DepRet (.distribute key recipients amounts)} {rest : DepTrace}
    (hcalls : calls = (reads ++ [⟨.claimPayout league.id, .ok true⟩]) ++
      ⟨.distribute key recipients amounts, d⟩ :: rest)
    (hreads : ∀ call ∈ reads, call.1.writes = false)
    (hcovered : Covered league
      (reads ++ [⟨.claimPayout league.id, .ok true⟩]) key recipients amounts
      resolved)
    (hresolves : ∀ resolved', Resolves league calls resolved' ↔ resolved' = resolved)
    (hstops : ¬ StopsEarly league calls) (hfinish : Finish league resolved d rest) :
    SettledExactly league calls := by
  subst hcalls
  obtain ⟨hrest, hrecords⟩ := hfinish
  have hmem : ∀ {call : Sigma DepRet}, call.1.writes = true →
      call ∈ (reads ++ [(⟨.claimPayout league.id, .ok true⟩ : Sigma DepRet)]) ++
        (⟨.distribute key recipients amounts, d⟩ : Sigma DepRet) :: rest →
      call = ⟨.claimPayout league.id, .ok true⟩ ∨
        call = ⟨.distribute key recipients amounts, d⟩ ∨
          (call ∈ rest ∧ call.1.finishes = true) := by
    intro call hwrites hcall
    simp only [List.mem_append, List.mem_cons, List.not_mem_nil, or_false] at hcall
    rcases hcall with (hcall | hcall) | hcall | hcall
    · exact absurd (hwrites.symm.trans (hreads _ hcall)) (by decide)
    · exact .inl hcall
    · exact .inr (.inl hcall)
    · exact .inr (.inr ⟨hcall, hrest _ hcall⟩)
  have hfirst : ∀ key' recipients' amounts' d',
      (⟨.distribute key' recipients' amounts', d'⟩ : Sigma DepRet) ∉
        reads ++ [⟨.claimPayout league.id, .ok true⟩] := by
    intro key' recipients' amounts' d' hcall
    rcases List.mem_append.mp hcall with hcall | hcall
    · exact absurd (hreads _ hcall) (by simp [DepCall.writes])
    · cases List.mem_singleton.mp hcall
  have hlast : ∀ key' recipients' amounts' d',
      (⟨.distribute key' recipients' amounts', d'⟩ : Sigma DepRet) ∉ rest :=
    fun _ _ _ _ hcall => absurd (hrest _ hcall) (by simp [DepCall.finishes])
  have hmarked : ∀ {txHash : String},
      (⟨.markPayoutExecuted league.id txHash, .ok true⟩ : Sigma DepRet) ∈
        (reads ++ [(⟨.claimPayout league.id, .ok true⟩ : Sigma DepRet)]) ++
          (⟨.distribute key recipients amounts, d⟩ : Sigma DepRet) :: rest →
      (⟨.markPayoutExecuted league.id txHash, .ok true⟩ : Sigma DepRet) ∈ rest := by
    intro txHash hcall
    rcases hmem rfl hcall with heq | heq | ⟨hcall, -⟩
    · cases heq
    · cases heq
    · exact hcall
  have hnone : (reads ++ [(⟨.claimPayout league.id, .ok true⟩ : Sigma DepRet)]).filterMap
      recorded = [] := by
    refine filterMap_recorded fun _ _ _ _ _ _ hcall => ?_
    rcases List.mem_append.mp hcall with hcall | hcall
    · exact absurd (hreads _ hcall) (by simp [DepCall.writes])
    · cases List.mem_singleton.mp hcall
  have hall : ((reads ++ [(⟨.claimPayout league.id, .ok true⟩ : Sigma DepRet)]) ++
      (⟨.distribute key recipients amounts, d⟩ : Sigma DepRet) :: rest).filterMap recorded =
        rest.filterMap recorded := by
    rw [List.filterMap_append, hnone, List.filterMap_cons_none rfl, List.nil_append]
  refine ⟨?_, ?_, fun h => absurd h hstops, ?_, ?_, ?_⟩
  · rw [List.countP_append, List.countP_cons, countP_distributes hfirst, countP_distributes hlast]
    simp [DepCall.distributes]
  · intro before key' recipients' amounts' d' after heq
    obtain ⟨rfl, hsame, -⟩ := (List.append_cons_inj_of_notMem (hfirst _ _ _ _)
      (hlast _ _ _ _)).mp heq
    cases hsame
    refine ⟨resolved, hcovered, hresolves, fun txHash hd hmark => ?_⟩
    rw [hall]
    rcases hrecords with ⟨-, hunmarked⟩ | ⟨txHash', hd', -, hpayouts⟩
    · exact absurd (hmarked hmark) (hunmarked txHash hd)
    · cases hd.symm.trans hd'
      exact hpayouts
  · intro leagueID r hcall hlost
    rcases hmem rfl hcall with heq | heq | ⟨-, heq⟩
    · cases heq
      exact absurd rfl hlost
    · cases heq
    · cases heq
  · intro leagueID r hcall
    rcases hmem rfl hcall with heq | heq | ⟨-, heq⟩
    · cases heq
    · cases heq
    · cases heq
  · intro hne
    rw [hall] at hne
    rcases hrecords with ⟨hempty, -⟩ | ⟨txHash, rfl, hmark, -⟩
    · exact absurd hempty hne
    · refine ⟨key, recipients, amounts, txHash, ?_, ?_⟩
      · exact List.mem_append_right _ List.mem_cons_self
      · exact List.mem_append_right _ (List.mem_cons_of_mem _ hmark)

/-- A call that finishes a settlement is a write. -/
theorem DepCall.writes_of_finishes {c : DepCall} (h : c.finishes = true) : c.writes = true := by
  cases c <;> simp_all [finishes, writes]

/-- What was resolved is still known after the balance and the writes. -/
theorem resolves_afterBalance (hentries : league.placementEntries ≠ [])
    (h : Resolution league.placementEntries members standings lookups resolved) {key : Bytes32}
    {balance : DepRet (.escrowBalance key)} {rest : DepTrace}
    (hrest : ∀ call ∈ rest, call.1.writes = true) :
    Resolves league ((readCalls league standings members lookups ++
      [⟨.escrowBalance key, balance⟩]) ++ rest) resolved' ↔ resolved' = resolved := by
  rw [List.append_assoc]
  refine resolves_iff hentries ?_ h
  refine List.forall_mem_cons.mpr ⟨rfl, fun call hcall => ?_⟩
  have hwrites := hrest call hcall
  cases hc : call.1 <;> simp_all [DepCall.late, DepCall.writes]

/-- With a sufficient balance a settlement does not stop. -/
theorem not_stopsEarly_afterBalance (hentries : league.placementEntries ≠ [])
    (h : Resolution league.placementEntries members standings lookups resolved) {key : Bytes32}
    {balance : Int64} (hbalance : ¬ sumPayout (resolved.map fun r => toMicroUSDC r.amountCents) >
      balance) {rest : DepTrace} (hrest : ∀ call ∈ rest, call.1.writes = true) :
    ¬ StopsEarly league ((readCalls league standings members lookups ++
      [⟨.escrowBalance key, .ok balance⟩]) ++ rest) := by
  rw [List.append_assoc]
  refine not_stopsEarly hentries ?_ h ?_
  · refine List.forall_mem_cons.mpr ⟨rfl, fun call hcall => ?_⟩
    have hwrites := hrest call hcall
    cases hc : call.1 <;> simp_all [DepCall.late, DepCall.writes]
  · intro key' r hmem
    rcases List.mem_cons.mp hmem with heq | hmem
    · cases heq
      exact ⟨balance, rfl, hbalance⟩
    · exact absurd (hrest _ hmem) (by simp [DepCall.writes])

/-- The transaction of a claimed settlement is covered. -/
theorem covered_of_claimed (hentries : league.placementEntries ≠ []) (hne : resolved ≠ [])
    (h : Resolution league.placementEntries members standings lookups resolved) {key : Bytes32}
    (hkey : uuidToBytes32 league.id = .ok key) {balance : Int64}
    (hbalance : ¬ sumPayout (resolved.map fun r => toMicroUSDC r.amountCents) > balance) :
    Covered league ((readCalls league standings members lookups ++
        [⟨.escrowBalance key, .ok balance⟩]) ++ [⟨.claimPayout league.id, .ok true⟩]) key
      (resolved.map ResolvedPayout.evmAddr) (resolved.map fun r => toMicroUSDC r.amountCents)
      resolved := by
  have hle : sumPayout (resolved.map fun r => toMicroUSDC r.amountCents) ≤ balance :=
    Int64.not_lt.mp hbalance
  refine ⟨(resolves_afterBalance hentries h (by simp [DepCall.writes])).mpr rfl, hne, hkey, rfl,
    rfl, fun hexact => ?_, ⟨balance, by simp, hle, fun hexact => ?_⟩, by simp⟩
  · rw [List.map_map]
    exact List.map_congr_left fun r hr => hexact.toInt (List.mem_map_of_mem hr)
  · rw [← hexact.sum_payouts]
    exact Int64.le_iff_toInt_le.mp hle

/-- From the claim on there are only writes. -/
theorem Finish.writes {d : DepRet (.distribute key recipients amounts)} {rest : DepTrace}
    (hfinish : Finish league resolved d rest) :
    ∀ call ∈ [(⟨.claimPayout league.id, .ok true⟩ : Sigma DepRet)] ++
      ⟨.distribute key recipients amounts, d⟩ :: rest, call.1.writes = true := by
  refine List.forall_mem_cons.mpr ⟨rfl, List.forall_mem_cons.mpr ⟨rfl, fun call hcall => ?_⟩⟩
  exact DepCall.writes_of_finishes (hfinish.finishes call hcall)

/-- A claimed settlement settles exactly. -/
theorem settledExactly_of_claimed (hentries : league.placementEntries ≠ []) (hne : resolved ≠ [])
    (h : Resolution league.placementEntries members standings lookups resolved) {key : Bytes32}
    (hkey : uuidToBytes32 league.id = .ok key) {balance : Int64}
    (hreads : ∀ call ∈ readCalls league standings members lookups ++
      [(⟨.escrowBalance key, .ok balance⟩ : Sigma DepRet)], call.1.writes = false)
    (hbalance : ¬ sumPayout (resolved.map fun r => toMicroUSDC r.amountCents) > balance)
    {d : Except GoError String} {rest : DepTrace} (hfinish : Finish league resolved d rest) :
    SettledExactly league (((readCalls league standings members lookups ++
        [⟨.escrowBalance key, .ok balance⟩]) ++ [⟨.claimPayout league.id, .ok true⟩]) ++
      ⟨.distribute key (resolved.map ResolvedPayout.evmAddr)
        (resolved.map fun r => toMicroUSDC r.amountCents), d⟩ :: rest) := by
  refine settledExactly_of_sent rfl hreads (covered_of_claimed hentries hne h hkey hbalance)
    ?_ ?_ hfinish
  · rw [List.append_assoc]
    exact fun resolved' => resolves_afterBalance hentries h hfinish.writes
  · rw [List.append_assoc]
    exact not_stopsEarly_afterBalance hentries h hbalance hfinish.writes

/-- Nothing is written before the addresses are known. -/
theorem Resolution.readsOnly
    (h : Resolution entries members standings lookups resolved) :
    ∀ call ∈ readCalls league standings members lookups, call.1.writes = false := by
  simp only [readCalls, List.forall_mem_cons]
  refine ⟨rfl, rfl, rfl, fun call hcall => ?_⟩
  have hlooksUp := h.looksUp call hcall
  cases hc : call.1 <;> simp_all [DepCall.looksUp, DepCall.writes]

/-- Nothing is written before the claim. -/
theorem Resolution.balanceOnly (h : Resolution entries members standings lookups resolved)
    {r : DepRet (.escrowBalance key)} :
    ∀ call ∈ readCalls league standings members lookups ++ [⟨.escrowBalance key, r⟩],
      call.1.writes = false := by
  intro call hcall
  rcases List.mem_append.mp hcall with hcall | hcall
  · exact h.readsOnly call hcall
  · rw [List.mem_singleton.mp hcall]
    rfl

/-- A league without placement entries is marked settled. -/
theorem settledExactly_of_noEntries (hentries : league.placementEntries = [])
    (r : DepRet (.markSettledWithoutPayout league.id)) :
    SettledExactly league ([⟨.platformStatus league.platform league.platformLeagueID,
      .ok "complete"⟩] ++ [⟨.markSettledWithoutPayout league.id, r⟩]) := by
  refine settledExactly_of_write (by simp [DepCall.writes]) ?_ (.inl ⟨rfl, .inl ⟨hentries, rfl⟩⟩)
  intro hstops
  cases hstops with
  | status r' hr hmem =>
    rcases List.mem_cons.mp hmem with heq | hmem
    · cases heq
      exact hr rfl
    · cases List.mem_singleton.mp hmem
  | standings e hmem => simp at hmem
  | members e hmem => simp at hmem
  | balance key e hmem => simp at hmem
  | short key balance resolved hmem => simp at hmem

/-- A league whose standings are all skipped is marked settled. -/
theorem settledExactly_of_noneResolved (hentries : league.placementEntries ≠ [])
    (h : Resolution league.placementEntries members standings lookups [])
    (r : DepRet (.markSettledWithoutPayout league.id)) :
    SettledExactly league (readCalls league standings members lookups ++
      [⟨.markSettledWithoutPayout league.id, r⟩]) := by
  have hlate : ∀ call ∈ [(⟨.markSettledWithoutPayout league.id, r⟩ : Sigma DepRet)],
      call.1.late = true := by simp [DepCall.late, DepCall.writes]
  refine settledExactly_of_write h.readsOnly ?_
    (.inl ⟨rfl, (resolves_iff hentries hlate h).mpr rfl⟩)
  exact not_stopsEarly hentries hlate h fun key r hmem => by cases List.mem_singleton.mp hmem

/-- Every course of a settlement settles exactly. -/
theorem SettlementCourse.settledExactly (h : SettlementCourse league calls) :
    SettledExactly league calls := by
  cases h with
  | notComplete r hr => exact settledExactly_of_reads (by simp [DepCall.writes])
  | noEntries r hentries => exact settledExactly_of_noEntries hentries r
  | noStandings e => exact settledExactly_of_reads (by simp [DepCall.writes])
  | noMembers standings e => exact settledExactly_of_reads (by simp [DepCall.writes])
  | noneResolved r hentries h => exact settledExactly_of_noneResolved hentries h r
  | badID e hkey h => exact settledExactly_of_reads h.readsOnly
  | notCovered r hentries hkey h hr => exact settledExactly_of_reads h.balanceOnly
  | lost r hentries h hbalance hr =>
    exact settledExactly_of_write h.balanceOnly
      (not_stopsEarly_afterBalance hentries h hbalance (by simp [DepCall.writes]))
      (.inr ⟨r, rfl, hr⟩)
  | sent d hentries hne h hkey hbalance hfinish =>
    exact settledExactly_of_claimed hentries hne h hkey h.balanceOnly hbalance hfinish

/-- **A settlement pays, writes and records exactly what it resolved**, whatever the dependencies
answer. -/
theorem settledExactly_of_yields (league : OracleLeague) (calls : DepTrace)
    (r : Except GoError Unit) (h : (settleSeasonEnd .any league).run.Yields r calls) :
    SettledExactly league calls :=
  (SettlementCourse.of_yields h).settledExactly

/-- A league with the given rules. -/
def OracleLeague.sample (payoutStructure : List PayoutEntry) : OracleLeague where
  id := "11111111-2222-3333-4444-555555555555"
  platform := "sleeper"
  platformLeagueID := "1"
  payoutStructure := payoutStructure

/-- The member of a roster. -/
def LeagueMember.sample (rosterID : ℤ) (walletAddress : String) : LeagueMember where
  id := "22222222-3333-4444-5555-666666666666"
  leagueID := "11111111-2222-3333-4444-555555555555"
  userID := none
  platform := "sleeper"
  platformUserID := "1"
  platformUsername := ""
  teamName := ""
  displayName := ""
  avatarURL := ""
  isOwner := false
  rosterID := rosterID
  wins := 0
  losses := 0
  ties := 0
  totalPoints := 0
  walletAddress := walletAddress
  paymentStatus := .paid
  paymentToken := none
  transactionHash := none
  paidAt := none
  joinedAt := 0

/-- Four members, one of them without a wallet. -/
def sampleMembers : List LeagueMember :=
  [.sample 1 "0.0.1001", .sample 2 "0.0.1002", .sample 3 "0.0.1003", .sample 4 ""]

/-- Roster 2 wins the final, and roster 3 the game for the third place. -/
def sampleStandings : List PlatformStanding := [⟨2, 1⟩, ⟨1, 2⟩, ⟨3, 3⟩, ⟨4, 4⟩]

/-- A rule for a place. -/
def samplePlace (place : ℤ) (amountCents : Int64) : PayoutEntry :=
  { Schedule.firstPlace with place, amountCents }

/-- Rules for three places. -/
def sampleRules : List PayoutEntry := [samplePlace 1 100, samplePlace 2 50, samplePlace 3 25]

/-- Everything can be read and the transaction succeeds; the league may be marked or not. -/
def DepRet.sample (updated : Bool) : (c : DepCall) → DepRet c
  | .platformStatus _ _ => .ok "complete"
  | .finalStandings _ _ => .ok sampleStandings
  | .loadMembers _ => .ok sampleMembers
  | .resolveEVM accountID => .ok ((hederaAccountToEVM accountID).toOption.getD 0)
  | .escrowBalance _ => .ok 10000000
  | .distribute _ _ _ => .ok "tx"
  | .markSettledWithoutPayout _ => .ok ()
  | .claimPayout _ => .ok true
  | .markPayoutFailed _ => .ok ()
  | .markPayoutExecuted _ _ => .ok updated
  | .recordMemberPayout _ _ _ _ _ => .ok ()

/-- The calls of a settlement with these answers. -/
def sampleCalls (rules : List PayoutEntry) (updated : Bool) : DepTrace :=
  ((settleSeasonEnd .any (.sample rules)).run.play (DepRet.sample updated)).2

/-- The payouts that such a settlement records. -/
def sampleRecords : List (String × ℤ × ℤ × Int64 × String) :=
  [("11111111-2222-3333-4444-555555555555", 2, 1, 100, "tx"),
    ("11111111-2222-3333-4444-555555555555", 1, 2, 50, "tx"),
    ("11111111-2222-3333-4444-555555555555", 3, 3, 25, "tx")]

/-- One settlement that pays and records three payouts. -/
theorem settledExactly_sample :
    SettledExactly (.sample sampleRules) (sampleCalls sampleRules true) ∧
      (sampleCalls sampleRules true).filterMap recorded = sampleRecords :=
  ⟨settledExactly_of_yields _ _ _ (Program.yields_play (DepRet.sample true) _), by decide +kernel⟩

/-- A transaction that succeeded: its recipients and its hash. -/
def transaction : Sigma DepRet → Option (List Address × String)
  | ⟨.distribute _ recipients _, .ok txHash⟩ => some (recipients, txHash)
  | _ => none

/-- A transaction is not recorded if the league is not marked after it. -/
theorem not_recordsEverySent : ¬ ∀ (league : OracleLeague) (calls : DepTrace)
    (r : Except GoError Unit), (settleSeasonEnd .any league).run.Yields r calls →
      ∀ recipients txHash, (recipients, txHash) ∈ calls.filterMap transaction →
        (calls.filterMap recorded).length = recipients.length := by
  intro h
  have hlength := h (.sample sampleRules) (sampleCalls sampleRules false) _
    (Program.yields_play (DepRet.sample false) _) [1002, 1001, 1003] "tx" (by decide +kernel)
  have hnone : ((sampleCalls sampleRules false).filterMap recorded).length = 0 := by
    decide +kernel
  rw [hnone] at hlength
  exact absurd hlength (by simp)

end Wagr
