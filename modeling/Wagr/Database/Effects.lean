import Wagr.Database.Statements

/-!
# What statements do to the rows of each table

For every table one theorem says where the rows after a statement come from: a row that
was there, changed in a way that depends only on the statement, or one new row. Invariants
of the tables are proved from these theorems and never unfold a statement again.
-/

namespace Wagr

open Relational

variable {now : ℕ} {fresh : String} {db db' : Database} {s : Statement}

/-! ## Leagues -/

/-- How a statement may change a row of `leagues`. -/
def Statement.LeagueStep (now : ℕ) (db : Database) (s : Statement) (l l' : LeagueRow) : Prop :=
  l' = l ∨ match s with
    | .importLeague league _ => l' = league.refresh now l ∧
        db.leagueByPlatform league.platform league.platformLeagueID = some l
    | .updateSettings leagueID entryFeeCents payoutJSON => l.id = leagueID ∧
        l' = { l with
          entryFeeCents := entryFeeCents
          payoutStructure := some payoutJSON
          updatedAt := now }
    | .cancelLeague leagueID => l.id = leagueID ∧ l.cancelledAt = none ∧
        l' = { l with cancelledAt := some now, updatedAt := now }
    | .reactivateLeague leagueID => l.id = leagueID ∧ l.cancelledAt ≠ none ∧
        l' = { l with cancelledAt := none, updatedAt := now }
    | .markSettledWithoutPayout leagueID => l.id = leagueID ∧ l.payoutStatus = .pending ∧
        l' = { l with
          status := some "complete"
          payoutStatus := .executed
          payoutsExecutedAt := some now
          updatedAt := now }
    | .claimPayout leagueID => l.id = leagueID ∧ l.payoutStatus = .pending ∧
        l' = { l with payoutStatus := .executing, updatedAt := now }
    | .markPayoutFailed leagueID => l.id = leagueID ∧ l.payoutStatus = .executing ∧
        l' = { l with payoutStatus := .failed, updatedAt := now }
    | .markPayoutExecuted leagueID txHash => l.id = leagueID ∧ l.payoutStatus = .executing ∧
        l' = { l with
          status := some "complete"
          payoutStatus := .executed
          payoutTxHash := some txHash
          payoutsExecutedAt := some now
          updatedAt := now }
    | .updateLeagueStatus leagueID oldStatus newStatus => l.id = leagueID ∧
        l.status.getD "" = oldStatus ∧
          l' = { l with status := some newStatus, updatedAt := now }
    | _ => False

/-- Rows keep their IDs. -/
theorem Statement.LeagueStep.id {l l' : LeagueRow} (h : s.LeagueStep now db l l') :
    l'.id = l.id := by
  rcases h with rfl | h
  · rfl
  · cases s with
    | importLeague =>
      obtain ⟨rfl, -⟩ := h
      rfl
    | updateSettings =>
      obtain ⟨-, rfl⟩ := h
      rfl
    | cancelLeague | reactivateLeague | markSettledWithoutPayout | claimPayout | markPayoutFailed
    | markPayoutExecuted | updateLeagueStatus =>
      obtain ⟨-, -, rfl⟩ := h
      rfl
    | _ => exact h.elim

/-- Only new settings change the entry fee. -/
theorem Statement.LeagueStep.entryFee {l l' : LeagueRow} (h : s.LeagueStep now db l l') :
    l'.entryFeeCents = l.entryFeeCents ∨ ∃ leagueID entryFeeCents payoutJSON,
      s = .updateSettings leagueID entryFeeCents payoutJSON ∧ l.id = leagueID ∧
        l'.entryFeeCents = entryFeeCents := by
  rcases h with rfl | h
  · exact .inl rfl
  · cases s with
    | updateSettings leagueID entryFeeCents payoutJSON =>
      obtain ⟨hid, rfl⟩ := h
      exact .inr ⟨leagueID, entryFeeCents, payoutJSON, rfl, hid, rfl⟩
    | importLeague =>
      obtain ⟨rfl, -⟩ := h
      exact .inl rfl
    | cancelLeague | reactivateLeague | markSettledWithoutPayout | claimPayout | markPayoutFailed
    | markPayoutExecuted | updateLeagueStatus =>
      obtain ⟨-, -, rfl⟩ := h
      exact .inl rfl
    | _ => exact h.elim

/-- Only new settings change the payout structure. -/
theorem Statement.LeagueStep.payoutStructure {l l' : LeagueRow} (h : s.LeagueStep now db l l') :
    l'.payoutStructure = l.payoutStructure ∨ ∃ entryFeeCents payoutJSON,
      s = .updateSettings l.id entryFeeCents payoutJSON ∧ l'.payoutStructure = some payoutJSON := by
  rcases h with rfl | h
  · exact .inl rfl
  · cases s with
    | updateSettings leagueID entryFeeCents payoutJSON =>
      obtain ⟨rfl, rfl⟩ := h
      exact .inr ⟨entryFeeCents, payoutJSON, rfl, rfl⟩
    | importLeague =>
      obtain ⟨rfl, -⟩ := h
      exact .inl rfl
    | cancelLeague | reactivateLeague | markSettledWithoutPayout | claimPayout | markPayoutFailed
    | markPayoutExecuted | updateLeagueStatus =>
      obtain ⟨-, -, rfl⟩ := h
      exact .inl rfl
    | _ => exact h.elim

/-- No statement changes the platform or the season. -/
theorem Statement.LeagueStep.season {l l' : LeagueRow} (h : s.LeagueStep now db l l') :
    l'.platform = l.platform ∧ l'.season = l.season := by
  rcases h with rfl | h
  · exact ⟨rfl, rfl⟩
  · cases s with
    | importLeague =>
      obtain ⟨rfl, -⟩ := h
      exact ⟨rfl, rfl⟩
    | updateSettings =>
      obtain ⟨-, rfl⟩ := h
      exact ⟨rfl, rfl⟩
    | cancelLeague | reactivateLeague | markSettledWithoutPayout | claimPayout | markPayoutFailed
    | markPayoutExecuted | updateLeagueStatus =>
      obtain ⟨-, -, rfl⟩ := h
      exact ⟨rfl, rfl⟩
    | _ => exact h.elim

/-- Where a league row after a statement comes from. -/
def Statement.LeagueOrigin (now : ℕ) (fresh : String) (db : Database) (s : Statement)
    (l' : LeagueRow) : Prop :=
  (∃ l ∈ db.leagues.rows, s.LeagueStep now db l l') ∨
    ∃ league members, s = .importLeague league members ∧ l' = league.row now fresh ∧
      db.leagueByPlatform league.platform league.platformLeagueID = none

/-- A row that was there has an origin. -/
theorem leagueOrigin_of_mem {l' : LeagueRow} (h : l' ∈ db.leagues.rows) :
    s.LeagueOrigin now fresh db l' :=
  .inl ⟨l', h, .inl rfl⟩

/-- The rows after an update have an origin if the update is a step of the statement. -/
theorem leagueOrigin_of_update {p : LeagueRow → Bool} {f : LeagueRow → LeagueRow}
    {hf : ∀ r, (f r).id = r.id} {l' : LeagueRow}
    (h : l' ∈ (db.updateLeagues p f hf).2.leagues.rows)
    (hstep : ∀ l, p l = true → s.LeagueStep now db l (f l)) : s.LeagueOrigin now fresh db l' := by
  simp only [Database.updateLeagues, Table.mem_updateWhere] at h
  obtain ⟨l, hl, rfl⟩ := h
  refine .inl ⟨l, hl, ?_⟩
  split
  · exact hstep l (by assumption)
  · exact .inl rfl

/-- Member upserts change nothing but the members. -/
theorem foldl_upsertMember {fresh leagueID platform : String} {members : List MemberValues} :
    ∃ rows, members.foldl (Database.upsertMember now fresh leagueID platform) db =
      { db with members := rows } := by
  induction members generalizing db with
  | nil => exact ⟨db.members, rfl⟩
  | cons m members ih =>
    obtain ⟨rows, hrows⟩ := @ih (Database.upsertMember now fresh leagueID platform db m)
    exact ⟨rows, hrows⟩

/-- A league upsert changes nothing but the leagues. -/
theorem upsertLeague_eq {league : LeagueValues} {l : LeagueRow}
    (h : db.upsertLeague now fresh league = some (l, db')) :
    db' = { db with leagues := db'.leagues } := by
  unfold Database.upsertLeague at h
  split at h
  · cases h
    rfl
  · split at h <;> cases h
    rfl

/-- The row an import conflicts with. -/
theorem leagueByPlatform_some {platform platformLeagueID : String} {l : LeagueRow}
    (h : db.leagueByPlatform platform platformLeagueID = some l) :
    l ∈ db.leagues.rows ∧ l.platform = platform ∧ l.platformLeagueID = platformLeagueID := by
  have hkeys := List.find?_some h
  simp only [Bool.and_eq_true, decide_eq_true_eq] at hkeys
  exact ⟨List.mem_of_find?_eq_some h, hkeys.1, hkeys.2⟩

/-- The league rows after an import. -/
theorem mem_upsertLeague {league : LeagueValues} {r : LeagueRow}
    (h : db.upsertLeague now fresh league = some (r, db')) {l' : LeagueRow} :
    l' ∈ db'.leagues.rows ↔
      match db.leagueByPlatform league.platform league.platformLeagueID with
      | some l => l' = league.refresh now l ∨ l' ∈ db.leagues.rows ∧ l'.id ≠ l.id
      | none => l' = league.row now fresh ∨ l' ∈ db.leagues.rows := by
  unfold Database.upsertLeague at h
  cases hl : db.leagueByPlatform league.platform league.platformLeagueID with
  | some l =>
    rw [hl] at h
    cases h
    simp only [Table.mem_updateWhere, decide_eq_true_eq]
    have hmem := (leagueByPlatform_some hl).1
    constructor
    · rintro ⟨l₀, hl₀, rfl⟩
      split
      · rename_i hid
        exact .inl (by rw [Table.eq_of_key hl₀ hmem hid])
      · rename_i hid
        exact .inr ⟨hl₀, hid⟩
    · rintro (rfl | ⟨hl', hid⟩)
      · exact ⟨l, hmem, by rw [if_pos rfl]⟩
      · exact ⟨l', hl', by rw [if_neg hid]⟩
  | none =>
    rw [hl] at h
    dsimp only at h
    split at h
    · cases h
    · cases h
      simp only [Table.mem_insert, or_comm]

/-- The league rows after an import have an origin. -/
theorem leagueOrigin_of_upsert {league : LeagueValues} {members : List MemberValues}
    {r : LeagueRow} (h : db.upsertLeague now fresh league = some (r, db')) {l' : LeagueRow}
    (hl' : l' ∈ db'.leagues.rows) :
    (Statement.importLeague league members).LeagueOrigin now fresh db l' := by
  rw [mem_upsertLeague h] at hl'
  split at hl'
  · rename_i l hl
    rcases hl' with rfl | ⟨hl', -⟩
    · exact .inl ⟨l, (leagueByPlatform_some hl).1, .inr ⟨rfl, hl⟩⟩
    · exact leagueOrigin_of_mem hl'
  · rename_i hl
    rcases hl' with rfl | hl'
    · exact .inr ⟨league, members, rfl, rfl, hl⟩
    · exact leagueOrigin_of_mem hl'

/-- An import upserts its league and then its members. -/
theorem import_run {league : LeagueValues} {members : List MemberValues}
    {r : (Statement.importLeague league members).Result}
    (h : (Statement.importLeague league members).run now fresh db = some (r, db')) :
    ∃ l mid, db.upsertLeague now fresh league = some (l, mid) ∧
      db' = members.foldl (Database.upsertMember now fresh l.id league.platform) mid := by
  simp only [Statement.run, Option.bind_eq_bind, Option.bind_eq_some_iff] at h
  obtain ⟨⟨l, mid⟩, hupsert, hrest⟩ := h
  cases hrest
  exact ⟨l, mid, hupsert, rfl⟩

/-- The leagues after an import are those after its league upsert. -/
theorem import_leagues {league : LeagueValues} {members : List MemberValues}
    {r : (Statement.importLeague league members).Result}
    (h : (Statement.importLeague league members).run now fresh db = some (r, db')) :
    ∃ l mid, db.upsertLeague now fresh league = some (l, mid) ∧ db'.leagues = mid.leagues := by
  obtain ⟨l, mid, hupsert, rfl⟩ := import_run h
  obtain ⟨rows, hrows⟩ := @foldl_upsertMember now mid fresh l.id league.platform members
  exact ⟨l, mid, hupsert, by rw [hrows]⟩

/-- An import changes leagues and members only. -/
theorem import_frame {league : LeagueValues} {members : List MemberValues}
    {r : (Statement.importLeague league members).Result}
    (h : (Statement.importLeague league members).run now fresh db = some (r, db')) :
    db' = { db with leagues := db'.leagues, members := db'.members } := by
  obtain ⟨l, mid, hupsert, rfl⟩ := import_run h
  obtain ⟨rows, hrows⟩ := @foldl_upsertMember now mid fresh l.id league.platform members
  rw [hrows, upsertLeague_eq hupsert]

/-- The league rows after a statement. -/
theorem Statement.run_leagues {r : s.Result} (h : s.run now fresh db = some (r, db'))
    {l' : LeagueRow} (hl' : l' ∈ db'.leagues.rows) : s.LeagueOrigin now fresh db l' := by
  cases s with
  | upsertProfile p =>
    simp only [run] at h
    split at h <;> cases h
    exact leagueOrigin_of_mem hl'
  | importLeague league members =>
    obtain ⟨l, mid, hupsert, hleagues⟩ := import_leagues h
    rw [hleagues] at hl'
    exact leagueOrigin_of_upsert hupsert hl'
  | deleteLeague leagueID =>
    cases h
    simp only [Table.mem_deleteWhere] at hl'
    exact leagueOrigin_of_mem hl'.1
  | insertWeeklyEvent leagueID week rosterID platformUserID payoutType points amountCents wallet =>
    simp only [run] at h
    split at h
    · split at h <;> cases h <;> exact leagueOrigin_of_mem hl'
    · cases h
  | upsertNonce walletAddress walletType nonce =>
    simp only [run] at h
    split at h
    · cases h
      exact leagueOrigin_of_mem hl'
    · split at h <;> cases h
      exact leagueOrigin_of_mem hl'
  | updateSettings | cancelLeague | reactivateLeague | markSettledWithoutPayout | claimPayout
  | markPayoutFailed | markPayoutExecuted | updateLeagueStatus =>
    cases h
    exact leagueOrigin_of_update hl' fun l hp =>
      .inr (by simpa [Option.isSome_iff_ne_none] using hp)
  | _ =>
    cases h
    exact leagueOrigin_of_mem hl'

/-- A league whose ID is kept by an update. -/
theorem exists_of_updateLeagues {p : LeagueRow → Bool} {f : LeagueRow → LeagueRow}
    {hf : ∀ r, (f r).id = r.id} {l : LeagueRow} (hl : l ∈ db.leagues.rows) :
    ∃ l' ∈ (db.updateLeagues p f hf).2.leagues.rows, l'.id = l.id := by
  refine ⟨if p l then f l else l, ?_, ?_⟩
  · simp only [Database.updateLeagues, Table.mem_updateWhere]
    exact ⟨l, hl, rfl⟩
  · split
    · exact hf l
    · rfl

/-- Only its deletion removes a league. -/
theorem Statement.run_keepsLeague {r : s.Result} (h : s.run now fresh db = some (r, db'))
    {l : LeagueRow} (hl : l ∈ db.leagues.rows) :
    s = .deleteLeague l.id ∨ ∃ l' ∈ db'.leagues.rows, l'.id = l.id := by
  have hsame : db'.leagues = db.leagues → ∃ l' ∈ db'.leagues.rows, l'.id = l.id :=
    fun heq => ⟨l, heq ▸ hl, rfl⟩
  cases s with
  | upsertProfile p =>
    simp only [run] at h
    split at h <;> cases h
    exact .inr (hsame rfl)
  | importLeague league members =>
    obtain ⟨l₁, mid, hupsert, hleagues⟩ := import_leagues h
    rw [hleagues]
    cases hold : db.leagueByPlatform league.platform league.platformLeagueID with
    | none => exact .inr ⟨l, (mem_upsertLeague hupsert).mpr (by simp [hold, hl]), rfl⟩
    | some l₀ =>
      by_cases hid : l.id = l₀.id
      · exact .inr
          ⟨league.refresh now l₀, (mem_upsertLeague hupsert).mpr (by simp [hold]), hid.symm⟩
      · exact .inr ⟨l, (mem_upsertLeague hupsert).mpr (by simp [hold, hl, hid]), rfl⟩
  | deleteLeague leagueID =>
    cases h
    by_cases hid : l.id = leagueID
    · exact .inl (by rw [hid])
    · exact .inr ⟨l, Table.mem_deleteWhere.mpr ⟨hl, by simp [hid]⟩, rfl⟩
  | insertWeeklyEvent leagueID week rosterID platformUserID payoutType points amountCents wallet =>
    simp only [run] at h
    split at h
    · split at h <;> cases h <;> exact .inr (hsame rfl)
    · cases h
  | upsertNonce walletAddress walletType nonce =>
    simp only [run] at h
    split at h
    · cases h
      exact .inr (hsame rfl)
    · split at h <;> cases h
      exact .inr (hsame rfl)
  | updateSettings | cancelLeague | reactivateLeague | markSettledWithoutPayout | claimPayout
  | markPayoutFailed | markPayoutExecuted | updateLeagueStatus =>
    cases h
    exact .inr (exists_of_updateLeagues hl)
  | _ =>
    cases h
    exact .inr (hsame rfl)

/-! ## Users -/

/-- The nonce a statement stores. -/
def Statement.storedNonce : Statement → Option String
  | .upsertNonce _ _ nonce => some nonce
  | .rotateNonce _ nonce => some nonce
  | _ => none

/-- The users whose nonce a statement replaces. -/
def Statement.Resets : Statement → UserRow → Prop
  | .upsertNonce walletAddress _ _, u => u.walletAddress = walletAddress
  | .rotateNonce userID _, u => u.id = userID
  | _, _ => False

instance (s : Statement) (u : UserRow) : Decidable (s.Resets u) := by
  cases s <;> unfold Statement.Resets <;> infer_instance

/-- A statement that replaces a nonce stores one. -/
theorem Statement.Resets.storedNonce {u : UserRow} (h : s.Resets u) : s.storedNonce ≠ none := by
  cases s with
  | upsertNonce | rotateNonce => simp [Statement.storedNonce]
  | _ => exact h.elim

/-- What a statement does to the table of users: nothing, a new nonce for the rows it resets, or
a new row with the nonce. -/
theorem Statement.run_users {r : s.Result} (h : s.run now fresh db = some (r, db')) :
    (db'.users.rows = db.users.rows ∧ s.storedNonce = none) ∨
    (∃ nonce, ∃ walletType : UserRow → String, s.storedNonce = some nonce ∧
      db'.users.rows = db.users.rows.map fun u =>
        if s.Resets u then { u with nonce := nonce, walletType := walletType u } else u) ∨
    ∃ walletAddress walletType nonce, s = .upsertNonce walletAddress walletType nonce ∧
      walletAddress ∉ db.users.rows.map UserRow.walletAddress ∧
      db'.users.rows = db.users.rows ++ [⟨fresh, walletAddress, walletType, nonce⟩] := by
  cases s with
  | upsertNonce walletAddress walletType nonce =>
    simp only [run] at h
    split at h
    · cases h
      refine .inr (.inl ⟨nonce, fun _ => walletType, rfl, ?_⟩)
      simp [Table.updateWhere, Resets]
    · split at h
      · cases h
      · rename_i hnew
        cases h
        exact .inr (.inr ⟨walletAddress, walletType, nonce, rfl, hnew, rfl⟩)
  | rotateNonce userID nonce =>
    cases h
    refine .inr (.inl ⟨nonce, UserRow.walletType, rfl, ?_⟩)
    simp [Table.updateWhere, Resets]
  | importLeague league members => exact .inl ⟨by rw [import_frame h], rfl⟩
  | upsertProfile p =>
    simp only [run] at h
    split at h <;> cases h
    exact .inl ⟨rfl, rfl⟩
  | insertWeeklyEvent leagueID week rosterID platformUserID payoutType points amountCents wallet =>
    simp only [run] at h
    split at h
    · split at h <;> cases h <;> exact .inl ⟨rfl, rfl⟩
    · cases h
  | _ =>
    cases h
    exact .inl ⟨rfl, rfl⟩

/-- The leagues after settings have taken effect. -/
theorem mem_updateSettings {now : ℕ} {fresh : String} {db db' : Database} {leagueID : String}
    {fee : Int64} {j : PayoutJSON} {n : ℕ}
    (h : (Statement.updateSettings leagueID fee j).run now fresh db = some (n, db'))
    {r : LeagueRow} :
    r ∈ db'.leagues.rows ↔ ∃ r₀ ∈ db.leagues.rows,
      (if r₀.id = leagueID then
        { r₀ with entryFeeCents := fee, payoutStructure := some j, updatedAt := now }
        else r₀) = r := by
  cases h
  simp only [Table.mem_updateWhere, decide_eq_true_eq]

end Wagr
