import Wagr.Payouts.Checked
import Wagr.Service.Rows

/-!
# Payout rules that are kept

If no settings with other payout rules are saved for a league, its row has these rules or none
yet, and the payout jobs never read others for it.
-/

namespace Wagr

open Interaction Relational System

variable {svc : Service} {crypto : Crypto} {a b : BackendConfig} {l : BackendLabel}
  {ok : BackendConfig → BackendLabel → Prop} {leagueID : String} {rules : List PayoutEntry}

/-- The payout rules that a statement saves for the league. -/
def Statement.savedRules (leagueID : String) : Statement → Option PayoutJSON
  | .updateSettings leagueID' _ payoutJSON => if leagueID' = leagueID then some payoutJSON else none
  | _ => none

/-- Settings that the step saves for the league have these payout rules. -/
def KeepsRules (leagueID : String) (rules : List PayoutEntry) (a : BackendConfig)
    (l : BackendLabel) : Prop :=
  ∀ s ∈ applied a l, ∀ payoutJSON ∈ s.savedRules leagueID, payoutJSON = .marshal (some rules)

instance (leagueID : String) (rules : List PayoutEntry) (a : BackendConfig) (l : BackendLabel) :
    Decidable (KeepsRules leagueID rules a l) :=
  inferInstanceAs (Decidable (∀ s ∈ applied a l, ∀ payoutJSON ∈ s.savedRules leagueID,
    payoutJSON = .marshal (some rules)))

/-- The rules of a row of the league are kept. -/
def HasRules (leagueID : String) (rules : List PayoutEntry) (db : Database) : Prop :=
  ∀ r ∈ db.leagues.rows, r.id = leagueID →
    r.payoutStructure = none ∨ r.payoutStructure = some (.marshal (some rules))

/-- A step that keeps the rules keeps them in the row. -/
theorem HasRules.step (h : HasRules leagueID rules a.world.db)
    (hstep : (backend svc crypto).Step a l b) (hok : KeepsRules leagueID rules a l) :
    HasRules leagueID rules b.world.db := by
  intro r' hr' hid
  rcases step_row hstep hr' with ⟨r, hr, rfl | ⟨now, s, hs, hmoves⟩⟩ | ⟨league, now, fresh, rfl, -⟩
  · exact h r' hr hid
  · have hrid : r.id = leagueID := hmoves.id.symm.trans hid
    rcases hmoves.payoutStructure with hsame | ⟨entryFeeCents, payoutJSON, rfl, hnew⟩
    · rw [hsame]
      exact h r hr hrid
    · have hkept : payoutJSON = .marshal (some rules) := hok _ hs payoutJSON (if_pos hrid)
      exact .inr (hnew.trans (congrArg some hkept))
  · exact .inl rfl

/-- The rules are kept in the row along every run that keeps them. -/
theorem Runs.hasRules (h : Runs svc crypto (KeepsRules leagueID rules) a) :
    HasRules leagueID rules a.world.db := by
  refine h.invariant (I := fun a => HasRules leagueID rules a.world.db) ?_
    fun hinv hok hstep => hinv.step hstep hok
  simp [HasRules, initialConfig, Table.empty]

/-- A league that is selected from the rows has the kept rules or none. -/
theorem HasRules.load {db : Database} (h : HasRules leagueID rules db)
    {stream : RowStream OracleLeagueRow}
    (hrows : ∀ o ∈ stream.rows, ∃ r ∈ db.leagues.rows, r.oracleRow = o) {league : OracleLeague}
    (hleague : league ∈ stream.rows.filterMap OracleLeagueRow.load) (hid : league.id = leagueID) :
    league.payoutStructure ⊆ rules := by
  obtain ⟨o, ho, hload⟩ := List.mem_filterMap.mp hleague
  obtain ⟨r, hr, rfl⟩ := hrows o ho
  obtain ⟨entries, hentries, rfl⟩ := Option.map_eq_some_iff.mp hload
  have hstored : r.oracleRow.payoutJSON = r.payoutStructure.getD (.entries []) := rfl
  rw [hstored] at hentries
  rcases h r hr hid with hnone | hkept
  · rw [hnone] at hentries
    obtain rfl : [] = entries := Option.some.inj hentries
    exact List.nil_subset rules
  · rw [hkept] at hentries
    obtain rfl : rules = entries :=
      Option.some.inj ((PayoutJSON.unmarshal_marshal (some rules)).symm.trans hentries)
    exact List.Subset.refl rules

/-- Rows that are delivered are among the selected ones. -/
theorem RowStream.Delivers.mem {α : Type} {s : RowStream α} {all : List α}
    {sorted : List α → Prop} (h : s.Delivers all sorted) {x : α} (hx : x ∈ s.rows) : x ∈ all := by
  obtain ⟨order, hperm, -, hfirst, -⟩ := h
  exact hperm.mem_iff.mp (hfirst.mem hx)

/-- A query of the payout jobs has only returned leagues with the kept rules or none. -/
def ReadsRules (leagueID : String) (rules : List PayoutEntry) : Sigma Ret → Prop
  | ⟨.query .weeklyPayoutLeagues, .ok stream⟩ =>
    ∀ league ∈ stream.rows.filterMap OracleLeagueRow.load, league.id = leagueID →
      league.payoutStructure ⊆ rules
  | ⟨.query .seasonEndLeagues, .ok stream⟩ =>
    ∀ league ∈ stream.rows.filterMap OracleLeagueRow.load, league.id = leagueID →
      league.payoutStructure ⊆ rules
  | _ => True

/-- A truthful answer returns kept rules. -/
theorem HasRules.answers {w w' : World} (h : HasRules leagueID rules w.db) {c : Call} {r : Ret c}
    (hhandles : w.handles c r w') : ReadsRules leagueID rules ⟨c, r⟩ := by
  have hselected : ∀ {stream : RowStream OracleLeagueRow} {p : LeagueRow → Bool},
      stream.Delivers ((w.db.leagues.rows.filter p).map LeagueRow.oracleRow) (fun _ => True) →
        ∀ o ∈ stream.rows, ∃ r ∈ w.db.leagues.rows, r.oracleRow = o := by
    intro stream p hdelivers o ho
    obtain ⟨r, hr, heq⟩ := List.mem_map.mp (hdelivers.mem ho)
    exact ⟨r, (List.mem_filter.mp hr).1, heq⟩
  cases c with
  | query q =>
    cases r with
    | error e => cases q <;> trivial
    | ok stream =>
      cases q with
      | weeklyPayoutLeagues =>
        have hdelivers := hhandles.2.2
        rw [List.filter_filter] at hdelivers
        exact fun league hleague => h.load (hselected hdelivers) hleague
      | seasonEndLeagues =>
        exact fun league hleague => h.load (hselected hhandles.2) hleague
      | _ => trivial
  | _ => trivial

/-- Along every run that keeps the rules, the payout jobs read no others for the league. -/
theorem Runs.readsRules (h : Runs svc crypto (KeepsRules leagueID rules) a) {i : ℕ}
    {t : BackendThread} (ht : a.threads[i]? = some t) {call : Sigma Ret} (hcall : call ∈ t.trace) :
    ReadsRules leagueID rules call := by
  refine h.answered (T := fun _ _ _ call => ReadsRules leagueID rules call) rfl
    (fun _ _ _ _ hread => hread) ?_ ht hcall
  intro b c i t q r next hrun hok hstep ht hrest
  cases hstep with
  | call hu hrest' hstopped hhandles => exact (Runs.hasRules hrun).answers hhandles

end Wagr
