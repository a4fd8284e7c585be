import Wagr.Library.LastWins
import Wagr.Payouts.Settlement

/-!
# Places with several rules

A commissioner may give one place several rules. The settings page adds them up, the settlement
keeps the last one. So a settlement in which nothing else goes wrong pays what the rules promise
exactly if the rules that were replaced pay nothing.
-/

namespace Wagr

open Interaction Protocol

/-! ## A settlement in which nothing goes wrong -/

/-- The rules of a place, apart from the last one, pay nothing. -/
def ReplacedPayNothing (entries : List PayoutEntry) : Prop :=
  entries.Pairwise fun e e' => e.place = e'.place → e.amountCents = 0

/-- Each place with a rule is filled by one roster, whose member has a wallet. -/
def EveryPlaceFilled (entries : List PayoutEntry) (members : List LeagueMember)
    (standings : List PlatformStanding) : Prop :=
  ∀ e ∈ entries, ∃ standing member,
    standings.filter (fun s => s.place = e.place) = [standing] ∧
    memberByRoster members standing.rosterID = some member ∧ member.walletAddress ≠ ""

/-- Everything is read, the escrow covers what is resolved, and the claim is won. -/
structure NothingFails (league : OracleLeague) (standings : List PlatformStanding)
    (members : List LeagueMember) (calls : DepTrace) : Prop where
  key : ∃ key, uuidToBytes32 league.id = .ok key
  complete : ∀ r, ⟨.platformStatus league.platform league.platformLeagueID, r⟩ ∈ calls →
    r = .ok "complete"
  standings : ∀ r, ⟨.finalStandings league.platform league.platformLeagueID, r⟩ ∈ calls →
    r = .ok standings
  members : ∀ r, ⟨.loadMembers league.id, r⟩ ∈ calls → r = .ok members
  addresses : ∀ accountID r, ⟨.resolveEVM accountID, r⟩ ∈ calls → ∃ addr, r = .ok addr
  balance : ∀ key r, ⟨.escrowBalance key, r⟩ ∈ calls → ∃ balance, r = .ok balance ∧
    ∀ resolved, Resolves league calls resolved →
      10000 * (resolved.map fun r => r.amountCents.toInt).sum ≤ balance.toInt
  claimed : ∀ r, ⟨.claimPayout league.id, r⟩ ∈ calls → r = .ok true

/-- The recipients of all transactions, with their amounts. -/
def sentPayouts (calls : DepTrace) : List (Address × Int64) :=
  calls.flatMap fun call => match call.1 with
    | .distribute _ recipients amounts => recipients.zip amounts
    | _ => []

/-- The settlement pays every rule: in total, and to the roster at each place. -/
structure HonoursRules (league : OracleLeague) (standings : List PlatformStanding)
    (calls : DepTrace) (resolved : List ResolvedPayout) : Prop where
  resolves : Resolves league calls resolved
  sends : sentPayouts calls = resolved.map fun r => (r.evmAddr, toMicroUSDC r.amountCents)
  total : ((sentPayouts calls).map fun p => p.2.toInt).sum =
    10000 * (league.placementEntries.map fun e => e.amountCents.toInt).sum
  places : ∀ standing ∈ standings, (∃ e ∈ league.placementEntries, e.place = standing.place) →
    ((resolved.filter fun r => r.place = standing.place ∧
        r.member.rosterID = standing.rosterID).map fun r => (toMicroUSDC r.amountCents).toInt).sum =
      10000 * ((league.placementEntries.filter fun e => e.place = standing.place).map
        fun e => e.amountCents.toInt).sum

/-! ## What is resolved -/

variable {entries : List PayoutEntry} {members : List LeagueMember}
  {standings : List PlatformStanding} {standing : PlatformStanding} {lookups calls : DepTrace}
  {resolved : List ResolvedPayout} {league : OracleLeague} {entry : PayoutEntry}

/-- Place, roster and cents of a payout. -/
def ResolvedPayout.view (r : ResolvedPayout) : ℤ × ℤ × Int64 :=
  (r.place, r.member.rosterID, r.amountCents)

/-- Place, roster and cents of a standing, if it is a candidate. -/
def candidateView (entries : List PayoutEntry) (members : List LeagueMember)
    (standing : PlatformStanding) : Option (ℤ × ℤ × Int64) :=
  (candidate entries members standing).map fun c =>
    (standing.place, standing.rosterID, c.1.amountCents)

/-- If every address is found, the candidates are resolved. -/
theorem Resolution.view (h : Resolution entries members standings lookups resolved)
    (hfound : ∀ accountID r, ⟨.resolveEVM accountID, r⟩ ∈ lookups → ∃ addr, r = .ok addr) :
    resolved.map ResolvedPayout.view = standings.filterMap (candidateView entries members) := by
  induction h with
  | nil => rfl
  | skip hnone _ ih =>
    rw [List.filterMap_cons_none (by simp [candidateView, hnone])]
    exact ih hfound
  | unknown e hsome haccount _ ih =>
    obtain ⟨addr, heq⟩ := hfound _ _ List.mem_cons_self
    cases heq
  | @eligible standing standings lookups resolved entry member accountID addr hsome haccount _ ih =>
    have hview : candidateView entries members standing =
        some (standing.place, standing.rosterID, entry.amountCents) := by
      simp [candidateView, hsome]
    have hroster := rosterID_of_candidate hsome
    rw [List.filterMap_cons_some hview, List.map_cons,
      ih fun accountID r hr => hfound accountID r (List.mem_cons_of_mem _ hr)]
    simp [ResolvedPayout.view, hroster]

/-! ## What is resolved if every place is filled -/

/-- Two standings of one place are no candidates. -/
theorem EveryPlaceFilled.pairwise (h : EveryPlaceFilled entries members standings) :
    standings.Pairwise fun s s' => s.place = s'.place → ∀ e ∈ entries, e.place ≠ s.place := by
  refine List.pairwise_iff_forall_sublist.mpr fun {s s'} hsublist hsame e he hplace => ?_
  obtain ⟨standing, -, hfilter, -⟩ := h e he
  have hpair : [s, s'].filter (fun s => s.place = e.place) = [s, s'] :=
    List.filter_eq_self.mpr (by simp [hplace, ← hsame])
  have hlength := (hsublist.filter fun s => s.place = e.place).length_le
  rw [hpair, hfilter] at hlength
  exact absurd hlength (by simp)

/-- What the view of a standing shows. -/
theorem mem_candidateView {v : ℤ × ℤ × Int64} :
    v ∈ candidateView entries members standing ↔ ∃ entry member,
      candidate entries members standing = some (entry, member) ∧
        (standing.place, standing.rosterID, entry.amountCents) = v := by
  simp [candidateView]

/-- The standing at the place of a rule that was kept is a candidate. -/
theorem EveryPlaceFilled.candidate (h : EveryPlaceFilled entries members standings)
    (hentry : placeToEntry entries entry.place = some entry) :
    ∃ standing ∈ standings, standing.place = entry.place ∧ ∃ member,
      candidate entries members standing = some (entry, member) := by
  obtain ⟨hmem, -⟩ := LastWins.mem_of_find PayoutEntry.place hentry
  obtain ⟨standing, member, hfilter, hmember, hwallet⟩ := h entry hmem
  have hstanding : standing ∈ standings.filter fun s => s.place = entry.place := by simp [hfilter]
  obtain ⟨hstanding, hplace⟩ := List.mem_filter.mp hstanding
  have hplace : standing.place = entry.place := of_decide_eq_true hplace
  refine ⟨standing, hstanding, hplace, member, candidate_eq_some.mpr ⟨?_, hmember, hwallet⟩⟩
  rw [hplace]
  exact hentry

/-- What is resolved are the rules that were kept. -/
theorem EveryPlaceFilled.perm (h : EveryPlaceFilled entries members standings) :
    ((standings.filterMap (candidateView entries members)).map fun v => (v.1, v.2.2)).Perm
      ((LastWins.kept PayoutEntry.place entries).map fun e => (e.place, e.amountCents)) := by
  refine (List.perm_ext_iff_of_nodup ?_ ?_).mpr fun v => ?_
  · refine List.pairwise_map.mpr (List.pairwise_filterMap.mpr (h.pairwise.imp ?_))
    intro s s' hdistinct v hv v' hv' heq
    obtain ⟨entry, member, hentry, rfl⟩ := mem_candidateView.mp hv
    obtain ⟨entry', member', -, rfl⟩ := mem_candidateView.mp hv'
    obtain ⟨hmem, hplace⟩ :=
      LastWins.mem_of_find PayoutEntry.place (candidate_eq_some.mp hentry).1
    exact hdistinct (Prod.mk.inj heq).1 entry hmem hplace
  · refine List.pairwise_map.mpr (LastWins.pairwise_kept.imp ?_)
    intro e e' hplace heq
    exact hplace (Prod.mk.inj heq).1
  · simp only [List.mem_map, List.mem_filterMap]
    constructor
    · rintro ⟨w, ⟨standing, hstanding, hw⟩, rfl⟩
      obtain ⟨entry, member, hentry, rfl⟩ := mem_candidateView.mp hw
      have hfind := (candidate_eq_some.mp hentry).1
      obtain ⟨hmem, hplace⟩ := LastWins.mem_of_find PayoutEntry.place hfind
      refine ⟨entry, LastWins.mem_kept.mpr ?_, by rw [hplace]⟩
      rw [hplace]
      exact hfind
    · rintro ⟨entry, hentry, rfl⟩
      obtain ⟨standing, hstanding, hplace, member, hcandidate⟩ :=
        h.candidate (LastWins.mem_kept.mp hentry)
      refine ⟨_, ⟨standing, hstanding, mem_candidateView.mpr ⟨entry, member, hcandidate, rfl⟩⟩, ?_⟩
      rw [hplace]

/-- The roster at a place gets the rule of the place that was kept. -/
theorem EveryPlaceFilled.filter (h : EveryPlaceFilled entries members standings)
    (hstanding : standing ∈ standings)
    (hentry : placeToEntry entries standing.place = some entry) :
    (standings.filterMap (candidateView entries members)).filter
        (fun v => v.1 = standing.place ∧ v.2.1 = standing.rosterID) =
      [(standing.place, standing.rosterID, entry.amountCents)] := by
  obtain ⟨hmem, hplace⟩ := LastWins.mem_of_find PayoutEntry.place hentry
  obtain ⟨standing', member, hfilter, hmember, hwallet⟩ := h entry hmem
  obtain rfl : standing = standing' := by
    have hin : standing ∈ standings.filter fun s => s.place = entry.place :=
      List.mem_filter.mpr ⟨hstanding, by simp [hplace]⟩
    rw [hfilter] at hin
    exact List.mem_singleton.mp hin
  have hcandidate := candidate_eq_some.mpr ⟨hentry, hmember, hwallet⟩
  rw [hplace] at hfilter
  have hviews : (standings.filterMap (candidateView entries members)).filter
      (fun v => v.1 = standing.place ∧ v.2.1 = standing.rosterID) =
        ((standings.filter fun s => s.place = standing.place).filter
          fun s => s.rosterID = standing.rosterID).filterMap (candidateView entries members) := by
    rw [List.filter_filterMap, List.filter_filter, List.filterMap_filter]
    refine List.filterMap_congr fun s _ => ?_
    cases hview : candidateView entries members s with
    | none => simp
    | some v =>
      obtain ⟨e, m, -, rfl⟩ := mem_candidateView.mp hview
      by_cases hs : s.place = standing.place
      · by_cases hroster : s.rosterID = standing.rosterID
        · simp [hs, hroster]
        · simp [hroster]
      · simp [hs]
  rw [hviews, hfilter]
  simp [candidateView, hcandidate]

/-! ## Amounts -/

/-- What is resolved is the rules that were kept. -/
theorem EveryPlaceFilled.resolved_perm (h : EveryPlaceFilled entries members standings)
    (hview : resolved.map ResolvedPayout.view =
      standings.filterMap (candidateView entries members)) :
    (resolved.map fun r => (r.place, r.amountCents)).Perm
      ((LastWins.kept PayoutEntry.place entries).map fun e => (e.place, e.amountCents)) := by
  have hmap : (resolved.map fun r => (r.place, r.amountCents)) =
      (resolved.map ResolvedPayout.view).map fun v => (v.1, v.2.2) := by
    rw [List.map_map]
    rfl
  rw [hmap, hview]
  exact h.perm

/-- What is resolved sums up to the rules that were kept. -/
theorem EveryPlaceFilled.sum_resolved (h : EveryPlaceFilled entries members standings)
    (hview : resolved.map ResolvedPayout.view =
      standings.filterMap (candidateView entries members)) :
    (resolved.map fun r => r.amountCents.toInt).sum =
      ((LastWins.kept PayoutEntry.place entries).map fun e => e.amountCents.toInt).sum := by
  have hperm := ((h.resolved_perm hview).map fun v => v.2.toInt).sum_eq
  rw [List.map_map, List.map_map] at hperm
  exact hperm

/-- Without overflow in the rules there is none in what is resolved. -/
theorem EveryPlaceFilled.noOverflow (h : EveryPlaceFilled entries members standings)
    (hview : resolved.map ResolvedPayout.view =
      standings.filterMap (candidateView entries members))
    (hnonneg : ∀ e ∈ entries, 0 ≤ e.amountCents.toInt)
    (hexact : NoOverflow (entries.map PayoutEntry.amountCents)) :
    NoOverflow (resolved.map ResolvedPayout.amountCents) := by
  have hentry : ∀ r ∈ resolved, ∃ e ∈ entries, e.amountCents = r.amountCents := by
    intro r hr
    have hmem : (r.place, r.amountCents) ∈
        (LastWins.kept PayoutEntry.place entries).map fun e => (e.place, e.amountCents) :=
      (h.resolved_perm hview).mem_iff.mp (List.mem_map_of_mem hr)
    obtain ⟨e, he, heq⟩ := List.mem_map.mp hmem
    exact ⟨e, List.pwFilter_subset entries he, (Prod.mk.inj heq).2⟩
  have hsum := h.sum_resolved hview
  have hle := LastWins.sum_kept_le PayoutEntry.place hnonneg
  have hpos : 0 ≤ (resolved.map fun r => r.amountCents.toInt).sum := by
    refine List.sum_nonneg fun c hc => ?_
    obtain ⟨r, hr, rfl⟩ := List.mem_map.mp hc
    obtain ⟨e, he, heq⟩ := hentry r hr
    rw [← heq]
    exact hnonneg e he
  refine ⟨fun c hc => ?_, ?_⟩
  · obtain ⟨r, hr, rfl⟩ := List.mem_map.mp hc
    obtain ⟨e, he, heq⟩ := hentry r hr
    rw [← heq]
    exact hexact.each _ (List.mem_map_of_mem he)
  · have htotal := hexact.total
    rw [List.map_map] at htotal
    have hbound : (resolved.map fun r => r.amountCents.toInt).sum ≤
        (entries.map (Int64.toInt ∘ PayoutEntry.amountCents)).sum := hsum ▸ hle
    rw [List.map_map]
    change -2 ^ 63 ≤ 10000 * (resolved.map fun r => r.amountCents.toInt).sum ∧
      10000 * (resolved.map fun r => r.amountCents.toInt).sum < 2 ^ 63
    omega

/-- The rules that were replaced pay nothing, in integers. -/
theorem replacedPayNothing_iff : ReplacedPayNothing entries ↔
    entries.Pairwise fun e e' => e.place = e'.place → e.amountCents.toInt = 0 := by
  have hzero : ∀ c : Int64, c = 0 ↔ c.toInt = 0 := fun c => by
    rw [← Int64.toInt_inj]
    exact Iff.rfl
  simp only [ReplacedPayNothing, hzero]

/-- A settlement that sends what is resolved honours the rules if those that were replaced pay
nothing. -/
theorem honoursRules_iff_of_sends
    (hfilled : EveryPlaceFilled league.placementEntries members standings)
    (hview : resolved.map ResolvedPayout.view =
      standings.filterMap (candidateView league.placementEntries members))
    (hnonneg : ∀ e ∈ league.placementEntries, 0 ≤ e.amountCents.toInt)
    (hexact : NoOverflow (league.placementEntries.map PayoutEntry.amountCents))
    (hresolves : Resolves league calls resolved)
    (hsends : sentPayouts calls = resolved.map fun r => (r.evmAddr, toMicroUSDC r.amountCents)) :
    (∃ resolved, HonoursRules league standings calls resolved) ↔
      ReplacedPayNothing league.placementEntries := by
  have hmicro : ∀ r ∈ resolved, (toMicroUSDC r.amountCents).toInt = 10000 * r.amountCents.toInt :=
    fun r hr => (hfilled.noOverflow hview hnonneg hexact).toInt (List.mem_map_of_mem hr)
  have htotal : ((sentPayouts calls).map fun p => p.2.toInt).sum = 10000 *
      ((LastWins.kept PayoutEntry.place league.placementEntries).map
        fun e => e.amountCents.toInt).sum := by
    rw [hsends, List.map_map, ← hfilled.sum_resolved hview, ← List.sum_map_mul_left]
    exact congrArg List.sum (List.map_congr_left hmicro)
  rw [replacedPayNothing_iff, ← LastWins.sum_kept_eq_iff hnonneg]
  constructor
  · rintro ⟨resolved', hhonours⟩
    have hsum := hhonours.total
    rw [htotal] at hsum
    omega
  · intro hsum
    have hzero := (LastWins.sum_kept_eq_iff hnonneg).mp hsum
    refine ⟨resolved, hresolves, hsends, by rw [htotal, hsum], ?_⟩
    rintro standing hstanding ⟨e, he, hplace⟩
    obtain ⟨entry, hentry⟩ := LastWins.exists_find PayoutEntry.place he
    rw [hplace] at hentry
    have hpaid := hfilled.filter hstanding hentry
    rw [← hview, List.filter_map] at hpaid
    have hsingle := congrArg (List.map fun v : ℤ × ℤ × Int64 => (toMicroUSDC v.2.2).toInt) hpaid
    rw [List.map_map] at hsingle
    have hsum : (toMicroUSDC entry.amountCents).toInt = 10000 * entry.amountCents.toInt :=
      hexact.toInt (List.mem_map_of_mem (LastWins.mem_of_find PayoutEntry.place hentry).1)
    rw [LastWins.sum_filter_eq hzero hentry, ← hsum]
    exact (congrArg List.sum hsingle).trans List.sum_singleton

/-! ## Every settlement in which nothing goes wrong -/

/-- Only transactions send anything. -/
theorem sentPayouts_eq_nil (h : ∀ call ∈ calls, call.1.distributes = false) :
    sentPayouts calls = [] := by
  refine List.flatMap_eq_nil_iff.mpr fun call hcall => ?_
  have hno := h call hcall
  cases hc : call.1 <;> simp_all [DepCall.distributes]

/-- What a settlement with one transaction sends. -/
theorem sentPayouts_of_sent {first rest : DepTrace} {key : Bytes32} {d : Except GoError String}
    (hfirst : ∀ call ∈ first, call.1.distributes = false)
    (hrest : ∀ call ∈ rest, call.1.distributes = false) :
    sentPayouts (first ++ ⟨.distribute key (resolved.map ResolvedPayout.evmAddr)
      (resolved.map fun r => toMicroUSDC r.amountCents), d⟩ :: rest) =
      resolved.map fun r => (r.evmAddr, toMicroUSDC r.amountCents) := by
  have hnone := sentPayouts_eq_nil hfirst
  have hnone' := sentPayouts_eq_nil hrest
  unfold sentPayouts at hnone hnone' ⊢
  rw [List.flatMap_append, List.flatMap_cons, hnone, hnone', List.nil_append, List.append_nil]
  exact List.zip_map'.trans (by simp)

/-- The reads of a settlement send nothing. -/
theorem Resolution.sendsNothing (h : Resolution entries members standings lookups resolved) :
    ∀ call ∈ readCalls league standings members lookups, call.1.distributes = false := by
  intro call hcall
  have hread := h.readsOnly call hcall
  cases hc : call.1 <;> simp_all [DepCall.distributes, DepCall.writes]

/-- If every place is filled something is resolved. -/
theorem EveryPlaceFilled.resolved_ne_nil (h : EveryPlaceFilled entries members standings)
    (hentries : entries ≠ [])
    (hview : resolved.map ResolvedPayout.view =
      standings.filterMap (candidateView entries members)) : resolved ≠ [] := by
  rintro rfl
  obtain ⟨e, he⟩ := List.exists_mem_of_ne_nil entries hentries
  obtain ⟨entry, hentry⟩ := LastWins.exists_find PayoutEntry.place he
  rw [← (LastWins.mem_of_find PayoutEntry.place hentry).2] at hentry
  obtain ⟨standing, hstanding, -, member, hcandidate⟩ := h.candidate hentry
  have hnone := List.filterMap_eq_nil_iff.mp hview.symm standing hstanding
  simp [candidateView, hcandidate] at hnone

/-- If nothing fails, the candidates among the standings are resolved. -/
theorem NothingFails.view {standings' : List PlatformStanding} {members' : List LeagueMember}
    {later : DepTrace}
    (hfine : NothingFails league standings members
      (readCalls league standings' members' lookups ++ later))
    (h : Resolution entries members' standings' lookups resolved) :
    standings' = standings ∧ members' = members ∧
      resolved.map ResolvedPayout.view = standings.filterMap (candidateView entries members) := by
  have hstandings := hfine.standings (.ok standings') (by simp [readCalls])
  have hmembers := hfine.members (.ok members') (by simp [readCalls])
  cases hstandings
  cases hmembers
  refine ⟨rfl, rfl, h.view fun accountID r hr => hfine.addresses accountID r ?_⟩
  exact List.mem_append_left _ (List.mem_cons_of_mem _ (List.mem_cons_of_mem _
    (List.mem_cons_of_mem _ hr)))

/-- **Every rule is honoured exactly if the rules that were replaced pay nothing**, in a settlement
in which nothing else goes wrong. -/
theorem honoursRules_iff (league : OracleLeague) (standings : List PlatformStanding)
    (members : List LeagueMember) (calls : DepTrace) (r : Except GoError Unit)
    (hyields : (settleSeasonEnd .any league).run.Yields r calls)
    (hfine : NothingFails league standings members calls)
    (hfilled : EveryPlaceFilled league.placementEntries members standings)
    (hnonneg : ∀ e ∈ league.placementEntries, 0 ≤ e.amountCents.toInt)
    (hexact : NoOverflow (league.placementEntries.map PayoutEntry.amountCents)) :
    (∃ resolved, HonoursRules league standings calls resolved) ↔
      ReplacedPayNothing league.placementEntries := by
  cases SettlementCourse.of_yields hyields with
  | notComplete r hr => exact absurd (hfine.complete _ List.mem_cons_self) hr
  | noEntries r hentries =>
    have hview : ([] : List ResolvedPayout).map ResolvedPayout.view =
        standings.filterMap (candidateView league.placementEntries members) := by
      simp [hentries, candidateView, candidate, placeToEntry]
    exact honoursRules_iff_of_sends hfilled hview hnonneg hexact (.inl ⟨hentries, rfl⟩)
      (sentPayouts_eq_nil (by simp [DepCall.distributes]))
  | noStandings e =>
    cases hfine.standings (.error e) (by simp)
  | noMembers standings' e =>
    cases hfine.members (.error e) (by simp)
  | noneResolved r hentries h =>
    obtain ⟨rfl, rfl, hview⟩ := hfine.view h
    exact absurd rfl (hfilled.resolved_ne_nil hentries hview)
  | badID e hkey h =>
    obtain ⟨key, hkey'⟩ := hfine.key
    cases hkey.symm.trans hkey'
  | notCovered r hentries hkey h hr =>
    obtain ⟨rfl, rfl, hview⟩ := hfine.view h
    obtain ⟨balance, rfl, hcovers⟩ := hfine.balance _ r (by simp)
    have hle := hcovers _ ((resolves_iff hentries (by simp [DepCall.late]) h).mpr rfl)
    have hshort := Int64.lt_iff_toInt_lt.mp (hr balance rfl)
    rw [(hfilled.noOverflow hview hnonneg hexact).sum_payouts] at hshort
    omega
  | lost r hentries h hbalance hr =>
    exact absurd (hfine.claimed r (by simp)) hr
  | sent d hentries hne h hkey hbalance hfinish =>
    have hordered := hfine
    rw [List.append_assoc, List.append_assoc] at hordered
    obtain ⟨rfl, rfl, hview⟩ := hordered.view h
    refine honoursRules_iff_of_sends hfilled hview hnonneg hexact ?_ ?_
    · rw [List.append_assoc]
      exact (resolves_afterBalance hentries h hfinish.writes).mpr rfl
    refine sentPayouts_of_sent (fun call hcall => ?_) fun call hcall => ?_
    · rcases List.mem_append.mp hcall with hcall | hcall
      · rcases List.mem_append.mp hcall with hcall | hcall
        · exact h.sendsNothing call hcall
        · rw [List.mem_singleton.mp hcall]
          rfl
      · rw [List.mem_singleton.mp hcall]
        rfl
    · have hfinishes := hfinish.finishes call hcall
      cases hc : call.1 <;> simp_all [DepCall.finishes, DepCall.distributes]

/-- An escrow that covers all rules covers what is resolved. -/
theorem EveryPlaceFilled.sum_resolved_le (h : EveryPlaceFilled entries members standings)
    (hview : resolved.map ResolvedPayout.view =
      standings.filterMap (candidateView entries members))
    (hnonneg : ∀ e ∈ entries, 0 ≤ e.amountCents.toInt) :
    (resolved.map fun r => r.amountCents.toInt).sum ≤
      (entries.map fun e => e.amountCents.toInt).sum := by
  rw [h.sum_resolved hview]
  exact LastWins.sum_kept_le PayoutEntry.place hnonneg

/-- In the sample settlement nothing fails if the rules are covered. -/
theorem nothingFails_sample {rules : List PayoutEntry}
    (hfilled : EveryPlaceFilled (OracleLeague.sample rules).placementEntries sampleMembers
      sampleStandings)
    (hnonneg : ∀ e ∈ (OracleLeague.sample rules).placementEntries, 0 ≤ e.amountCents.toInt)
    (hcovers : 10000 * ((OracleLeague.sample rules).placementEntries.map
      fun e => e.amountCents.toInt).sum ≤ 10000000) :
    NothingFails (.sample rules) sampleStandings sampleMembers (sampleCalls rules true) where
  key := ⟨_, (by decide : uuidToBytes32 "11111111-2222-3333-4444-555555555555" =
    .ok 0x1111111122223333444455555555555500000000000000000000000000000000)⟩
  complete r h := Program.answer_of_mem_play h
  standings r h := Program.answer_of_mem_play h
  members r h := Program.answer_of_mem_play h
  addresses accountID r h := ⟨_, Program.answer_of_mem_play h⟩
  balance key r h := by
    refine ⟨10000000, Program.answer_of_mem_play h, fun resolved hresolves => ?_⟩
    rcases hresolves with ⟨-, rfl⟩ | ⟨standings, members, hstandings, hmembers, hresolution⟩
    · decide
    · cases Program.answer_of_mem_play hstandings
      cases Program.answer_of_mem_play hmembers
      have hview := hresolution.view fun accountID r hr =>
        ⟨_, Program.answer_of_mem_play (List.mem_filter.mp hr).1⟩
      have hle := hfilled.sum_resolved_le hview hnonneg
      change _ ≤ (10000000 : ℤ)
      omega
  claimed r h := Program.answer_of_mem_play h

/-- In the sample settlement the first three places are filled. -/
theorem everyPlaceFilled_sample {rules : List PayoutEntry}
    (h : ∀ e ∈ (OracleLeague.sample rules).placementEntries, e.place ∈ [1, 2, 3]) :
    EveryPlaceFilled (OracleLeague.sample rules).placementEntries sampleMembers
      sampleStandings := by
  intro e he
  have hplace := h e he
  simp only [List.mem_cons, List.not_mem_nil, or_false] at hplace
  rcases hplace with heq | heq | heq
  · rw [heq]
    exact ⟨⟨2, 1⟩, .sample 2 "0.0.1002", by decide, by decide, by decide⟩
  · rw [heq]
    exact ⟨⟨1, 2⟩, .sample 1 "0.0.1001", by decide, by decide, by decide⟩
  · rw [heq]
    exact ⟨⟨3, 3⟩, .sample 3 "0.0.1003", by decide, by decide, by decide⟩

/-- A settlement that pays four rules for three places, of which the first is replaced and pays
nothing. -/
theorem honoursRules_sample : ∃ resolved,
    HonoursRules (.sample (samplePlace 1 0 :: sampleRules)) sampleStandings
      (sampleCalls (samplePlace 1 0 :: sampleRules) true) resolved ∧
    sentPayouts (sampleCalls (samplePlace 1 0 :: sampleRules) true) =
      [(1002, 1000000), (1001, 500000), (1003, 250000)] := by
  let rules := samplePlace 1 0 :: sampleRules
  have hfilled := @everyPlaceFilled_sample rules (by decide)
  have hnonneg : ∀ e ∈ (OracleLeague.sample rules).placementEntries, 0 ≤ e.amountCents.toInt := by
    decide
  have hfine := nothingFails_sample hfilled hnonneg (by decide)
  have hexact := NoOverflow.of_sum_le hnonneg (by decide +kernel)
  have hiff := honoursRules_iff (.sample rules) sampleStandings sampleMembers
    (sampleCalls rules true) _ (Program.yields_play (DepRet.sample true) _) hfine hfilled hnonneg
    hexact
  have hreplaced : ReplacedPayNothing (OracleLeague.sample rules).placementEntries := by
    unfold ReplacedPayNothing
    decide +kernel
  obtain ⟨resolved, hhonours⟩ := hiff.mpr hreplaced
  exact ⟨resolved, hhonours, by decide +kernel⟩

/-- Of two rules for the first place only the last one is paid. -/
theorem not_everyRuleHonoured : ¬ ∀ (league : OracleLeague) (standings : List PlatformStanding)
    (members : List LeagueMember) (calls : DepTrace) (r : Except GoError Unit),
    (settleSeasonEnd .any league).run.Yields r calls →
    NothingFails league standings members calls →
    EveryPlaceFilled league.placementEntries members standings →
    (∀ e ∈ league.placementEntries, 0 ≤ e.amountCents.toInt) →
    NoOverflow (league.placementEntries.map PayoutEntry.amountCents) →
      ∃ resolved, HonoursRules league standings calls resolved := by
  intro h
  let rules := samplePlace 1 200 :: sampleRules
  have hfilled := @everyPlaceFilled_sample rules (by decide)
  have hnonneg : ∀ e ∈ (OracleLeague.sample rules).placementEntries, 0 ≤ e.amountCents.toInt := by
    decide
  have hexact := NoOverflow.of_sum_le hnonneg (by decide +kernel)
  obtain ⟨resolved, hhonours⟩ := h (.sample rules) sampleStandings sampleMembers
    (sampleCalls rules true) _ (Program.yields_play (DepRet.sample true) _)
    (nothingFails_sample hfilled hnonneg (by decide)) hfilled hnonneg hexact
  have htotal := hhonours.total
  have hsent : sentPayouts (sampleCalls rules true) =
      [(1002, 1000000), (1001, 500000), (1003, 250000)] := by decide +kernel
  rw [hsent] at htotal
  exact absurd htotal (by decide +kernel)

end Wagr
