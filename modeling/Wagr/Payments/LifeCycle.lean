import Wagr.Payments.Reset
import Wagr.Payments.Reactivated

/-!
# The life cycle of a membership's payment

A membership is unpaid, then paid, then refunded, then unpaid again. The requests check the
status and the league before they read the chain, and write without a second look; a
reactivation can fail between its two statements.
-/

namespace Wagr

open Interaction System Relational

variable {svc : Service} {crypto : Crypto} {a b : BackendConfig} {l : BackendLabel}
  {ok : BackendConfig → BackendLabel → Prop}

/-- The league is there and cancelled. -/
def Database.Cancelled (db : Database) (leagueID : String) : Prop :=
  ∃ r ∈ db.leagues.rows, r.id = leagueID ∧ r.cancelledAt ≠ none

/-- Some membership of the league is refunded. -/
def Database.HasRefunded (db : Database) (leagueID : String) : Prop :=
  ∃ m ∈ db.members.rows, m.leagueID = leagueID ∧ m.paymentStatus = .refunded

/-- Every membership that is there before and after the step keeps its status or moves one step
in the cycle. -/
def MovesInCycle (a : BackendConfig) (l : BackendLabel) (b : BackendConfig) : Prop :=
  ∀ m ∈ a.world.db.members.rows, ∀ m' ∈ b.world.db.members.rows, m'.key = m.key →
    m'.paymentStatus = m.paymentStatus ∨
    (m.paymentStatus = .unpaid ∧ m'.paymentStatus = .paid ∧ a.world.db.Active m.leagueID) ∨
    (m.paymentStatus = .paid ∧ m'.paymentStatus = .refunded ∧ a.world.db.Cancelled m.leagueID) ∨
    (m.paymentStatus = .refunded ∧ m'.paymentStatus = .unpaid ∧
      applied a l = some (.resetRefunded m.leagueID))

/-- An active league has refunded memberships only while a reactivation is about to reset them. -/
def NoneLeftRefunded (a : BackendConfig) : Prop :=
  ∀ m ∈ a.world.db.members.rows, m.paymentStatus = .refunded → a.world.db.Active m.leagueID →
    ∃ t ∈ a.threads, Resetting m.leagueID t

/-- The statement marks memberships in their turn: as paid those that are unpaid in an active
league or paid, as refunded those that are paid in a cancelled league or refunded. -/
def Statement.InTurn (db : Database) : Statement → Prop
  | .markPaid leagueID userID _ => ∀ m ∈ db.members.rows, db.membershipOf leagueID userID m →
      m.paymentStatus ≠ .refunded ∧ (m.paymentStatus = .unpaid → db.Active leagueID)
  | .markRefunded leagueID userID _ => ∀ m ∈ db.members.rows, db.membershipOf leagueID userID m →
      m.paymentStatus ≠ .unpaid ∧ (m.paymentStatus = .paid → db.Cancelled leagueID)
  | _ => True

/-- No reactivation leaves refunded memberships in an active league: if one fails between its
statements, another one is between them, and so it is if an activating statement that was reported
as failed takes effect. -/
def ResetsFollow (a : BackendConfig) : BackendLabel → Prop
  | .call i (.exec (.resetRefunded leagueID)) (.error _) =>
    a.world.db.Active leagueID → a.world.db.HasRefunded leagueID →
      ∃ t ∈ a.threads.eraseIdx i, Resetting leagueID t
  | .stop i => ∀ t ∈ a.threads[i]?, ∀ leagueID ∈ t.job.reactivates, Resetting leagueID t →
      a.world.db.Active leagueID → a.world.db.HasRefunded leagueID →
        ∃ t ∈ a.threads.eraseIdx i, Resetting leagueID t
  | .env (.land k _ _) => ∀ s ∈ a.world.inFlight[k]?, ∀ r ∈ a.world.db.leagues.rows,
      s = .reactivateLeague r.id → a.world.db.HasRefunded r.id → ∃ t ∈ a.threads, Resetting r.id t
  | _ => True

/-- A step that marks memberships in their turn and leaves no refunded membership behind. -/
structure KeepsCycle (a : BackendConfig) (l : BackendLabel) : Prop where
  inTurn : ∀ s ∈ applied a l, s.InTurn a.world.db
  resets : ResetsFollow a l

instance (db : Database) (leagueID : String) : Decidable (db.Cancelled leagueID) := by
  unfold Database.Cancelled
  infer_instance

instance (db : Database) (leagueID : String) : Decidable (db.HasRefunded leagueID) := by
  unfold Database.HasRefunded
  infer_instance

instance (db : Database) (s : Statement) : Decidable (s.InTurn db) := by
  rcases s with _ | _ <;> unfold Statement.InTurn <;> infer_instance

instance (a : BackendConfig) (l : BackendLabel) : Decidable (ResetsFollow a l) := by
  unfold ResetsFollow
  split <;> infer_instance

instance (a : BackendConfig) (l : BackendLabel) : Decidable (KeepsCycle a l) :=
  decidable_of_iff (_ ∧ _) ⟨fun h => ⟨h.1, h.2⟩, fun h => ⟨h.inTurn, h.resets⟩⟩

/-- An active league is not cancelled. -/
theorem Database.Active.not_cancelled {db : Database} {leagueID : String} (h : db.Active leagueID) :
    ¬ db.Cancelled leagueID := by
  rintro ⟨r', hr', hid', hcancelled⟩
  obtain ⟨r, hr, hid, hactive⟩ := h
  rw [Table.eq_of_key hr' hr (hid'.trans hid.symm)] at hcancelled
  exact hcancelled hactive

/-! ## What a step does to the statuses -/

/-- How a statement sets the payment status of a membership. -/
def Statement.SetsStatus (db : Database) (m : MemberRow) : Statement → PaymentStatus → Prop
  | .markPaid leagueID userID _, status => db.membershipOf leagueID userID m ∧ status = .paid
  | .markRefunded leagueID userID _, status => db.membershipOf leagueID userID m ∧
    status = .refunded
  | .resetRefunded leagueID, status => m.leagueID = leagueID ∧ m.paymentStatus = .refunded ∧
      status = .unpaid
  | _, _ => False

/-- Where the status of a membership after a step comes from. -/
theorem step_status (hstep : (backend svc crypto).Step a l b) {m' : MemberRow}
    (hm' : m' ∈ b.world.db.members.rows) :
    (∃ m ∈ a.world.db.members.rows, m.SameMember m' ∧ (m'.paymentStatus = m.paymentStatus ∨
      ∃ s, applied a l = some s ∧ s.SetsStatus a.world.db m m'.paymentStatus)) ∨
    (m'.paymentStatus = .unpaid ∧ m'.key ∉ a.world.db.members.rows.map MemberRow.key) := by
  rcases step_member hstep hm' with ⟨m, hm, hmember⟩ |
    ⟨now, fresh, league, members, -, -, -, v, -, w, -, hnew, rfl⟩
  · refine .inl ⟨m, hm, sameMember_of_step hmember, ?_⟩
    rcases hmember with rfl | ⟨now, s, hs, rfl | hmember⟩
    · exact .inl rfl
    · exact .inl rfl
    · cases s with
      | markPaid | markRefunded =>
        obtain ⟨hmember, rfl⟩ := hmember
        exact .inr ⟨_, hs, hmember, rfl⟩
      | resetRefunded =>
        obtain ⟨hleague, hrefunded, rfl⟩ := hmember
        exact .inr ⟨_, hs, hleague, hrefunded, rfl⟩
      | importLeague =>
        obtain ⟨v, -, rfl⟩ := hmember
        exact .inl rfl
      | setPaymentToken =>
        obtain ⟨-, rfl⟩ := hmember
        exact .inl rfl
      | recordMemberPayout =>
        obtain ⟨-, -, rfl⟩ := hmember
        exact .inl rfl
      | _ => exact hmember.elim
  · exact .inr ⟨rfl, hnew⟩

/-- A statement that marks a user's memberships marks each of them. -/
theorem status_of_applied (hstep : (backend svc crypto).Step a l b) {s : Statement}
    (hs : applied a l = some s) {leagueID userID transactionID : String} {m : MemberRow}
    (hm : m ∈ a.world.db.members.rows) (hmember : a.world.db.membershipOf leagueID userID m) :
    (s = .markPaid leagueID userID transactionID →
      ∃ m' ∈ b.world.db.members.rows, m'.key = m.key ∧ m'.paymentStatus = .paid) ∧
    (s = .markRefunded leagueID userID transactionID →
      ∃ m' ∈ b.world.db.members.rows, m'.key = m.key ∧ m'.paymentStatus = .refunded) := by
  rcases step_db hstep with ⟨hnone, -, -⟩ | ⟨s', hs', now, fresh, r, -, hrun, -, -⟩
  · cases hnone.symm.trans hs
  · cases hs.symm.trans hs'
    constructor <;> rintro rfl <;> obtain ⟨-, hdb⟩ := Prod.mk.inj (Option.some.inj hrun) <;>
      rw [← hdb] <;> refine ⟨_, List.mem_map.mpr ⟨m, hm, rfl⟩, ?_⟩ <;> rw [if_pos hmember] <;>
      exact ⟨rfl, rfl⟩

/-- A reset leaves no refunded membership in the league. -/
theorem not_refunded_of_reset (hstep : (backend svc crypto).Step a l b) {leagueID : String}
    (hs : applied a l = some (.resetRefunded leagueID)) {m' : MemberRow}
    (hm' : m' ∈ b.world.db.members.rows) (hleague : m'.leagueID = leagueID) :
    m'.paymentStatus ≠ .refunded := by
  rcases step_db hstep with ⟨hnone, -, -⟩ | ⟨s', hs', now, fresh, r, -, hrun, -, -⟩
  · cases hnone.symm.trans hs
  · cases hs.symm.trans hs'
    obtain ⟨-, hdb⟩ := Prod.mk.inj (Option.some.inj hrun)
    rw [← hdb] at hm'
    obtain ⟨m, hm, rfl⟩ := List.mem_map.mp hm'
    split
    · simp
    · rename_i hkeep
      rw [if_neg hkeep] at hleague
      intro hrefunded
      exact hkeep (by simp [hleague, hrefunded])

/-- An activating statement activates its league and leaves the memberships alone. -/
theorem activated_of_applied (hstep : (backend svc crypto).Step a l b) {leagueID : String}
    (hs : applied a l = some (.reactivateLeague leagueID)) {r : LeagueRow}
    (hr : r ∈ a.world.db.leagues.rows) (hid : r.id = leagueID) :
    b.world.db.Active leagueID ∧ b.world.db.members = a.world.db.members := by
  rcases step_db hstep with ⟨hnone, -, -⟩ | ⟨s', hs', now, fresh, n, -, hrun, -, -⟩
  · cases hnone.symm.trans hs
  · cases hs.symm.trans hs'
    obtain ⟨-, hdb⟩ := Prod.mk.inj (Option.some.inj hrun)
    rw [← hdb]
    refine ⟨⟨_, List.mem_map.mpr ⟨r, hr, rfl⟩, ?_⟩, rfl⟩
    split
    · exact ⟨hid, rfl⟩
    · rename_i hkeep
      exact ⟨hid, by simpa [hid] using hkeep⟩

/-- A league that is active after a step was active before, was activated by it, or is new. -/
theorem active_cases (hstep : (backend svc crypto).Step a l b) {leagueID : String}
    (h : b.world.db.Active leagueID) : a.world.db.Active leagueID ∨
      (applied a l = some (.reactivateLeague leagueID) ∧ a.world.db.Cancelled leagueID) ∨
        leagueID ∉ a.world.issued := by
  by_cases hs : applied a l = some (.reactivateLeague leagueID)
  · obtain ⟨r', hr', hid, -⟩ := h
    rcases step_row hstep hr' with ⟨r, hr, hrow⟩ | ⟨league, now, fresh, rfl, hfresh, -⟩
    · have hid' : r.id = leagueID := by
        rcases hrow with rfl | ⟨now, s, -, hleague⟩
        · exact hid
        · exact hleague.id.symm.trans hid
      by_cases hactive : r.cancelledAt = none
      · exact .inl ⟨r, hr, hid', hactive⟩
      · exact .inr (.inl ⟨hs, r, hr, hid', hactive⟩)
    · obtain rfl : fresh = leagueID := hid
      exact .inr (.inr hfresh)
  · by_cases hissued : leagueID ∈ a.world.issued
    · exact .inl (active_of_step hstep hs hissued h)
    · exact .inr (.inr hissued)

/-! ## Moves -/

/-- Statements in their turn move the memberships in the cycle. -/
theorem movesInCycle_of_inTurn (hstep : (backend svc crypto).Step a l b)
    (hturn : ∀ s ∈ applied a l, s.InTurn a.world.db) : MovesInCycle a l b := by
  intro m hm m' hm' hkey
  rcases step_status hstep hm' with ⟨m₀, hm₀, hsame, hstatus | ⟨s, hs, hsets⟩⟩ | ⟨-, hnew⟩
  · rw [Table.eq_of_key hm₀ hm (hsame.1.symm.trans hkey)] at hstatus
    exact .inl hstatus
  · rw [Table.eq_of_key hm₀ hm (hsame.1.symm.trans hkey)] at hsets
    have hturn := hturn s hs
    cases s with
    | markPaid leagueID userID transactionID =>
      obtain ⟨hmember, hpaid⟩ := hsets
      obtain ⟨hrefunded, hactive⟩ := hturn m hm hmember
      simp only [Database.membershipOf, Bool.and_eq_true, decide_eq_true_eq] at hmember
      cases hstatus : m.paymentStatus with
      | unpaid => exact .inr (.inl ⟨rfl, hpaid, hmember.1 ▸ hactive hstatus⟩)
      | paid => exact .inl hpaid
      | refunded => exact absurd hstatus hrefunded
    | markRefunded leagueID userID transactionID =>
      obtain ⟨hmember, hrefunded⟩ := hsets
      obtain ⟨hunpaid, hcancelled⟩ := hturn m hm hmember
      simp only [Database.membershipOf, Bool.and_eq_true, decide_eq_true_eq] at hmember
      cases hstatus : m.paymentStatus with
      | unpaid => exact absurd hstatus hunpaid
      | paid => exact .inr (.inr (.inl ⟨rfl, hrefunded, hmember.1 ▸ hcancelled hstatus⟩))
      | refunded => exact .inl hrefunded
    | resetRefunded leagueID =>
      obtain ⟨rfl, hrefunded, hunpaid⟩ := hsets
      exact .inr (.inr (.inr ⟨hrefunded, hunpaid, hs⟩))
    | _ => exact hsets.elim
  · exact absurd (hkey ▸ List.mem_map_of_mem hm) hnew

/-- Moves in the cycle come from statements in their turn. -/
theorem inTurn_of_movesInCycle (hstep : (backend svc crypto).Step a l b)
    (hmoves : MovesInCycle a l b) :
    ∀ s ∈ applied a l, s.InTurn a.world.db := by
  intro s hs
  cases s with
  | markPaid leagueID userID transactionID =>
    intro m hm hmember
    obtain ⟨m', hm', hkey, hpaid⟩ := (status_of_applied hstep hs hm hmember).1 rfl
    simp only [Database.membershipOf, Bool.and_eq_true, decide_eq_true_eq] at hmember
    rcases hmoves m hm m' hm' hkey with hstatus | ⟨hunpaid, -, hactive⟩ | ⟨-, hrefunded, -⟩ |
      ⟨-, hunpaid', -⟩
    · rw [← hstatus, hpaid]
      exact ⟨by simp, by simp⟩
    · rw [hunpaid]
      exact ⟨by simp, fun _ => hmember.1 ▸ hactive⟩
    · cases hpaid.symm.trans hrefunded
    · cases hpaid.symm.trans hunpaid'
  | markRefunded leagueID userID transactionID =>
    intro m hm hmember
    obtain ⟨m', hm', hkey, hrefunded⟩ := (status_of_applied hstep hs hm hmember).2 rfl
    simp only [Database.membershipOf, Bool.and_eq_true, decide_eq_true_eq] at hmember
    rcases hmoves m hm m' hm' hkey with hstatus | ⟨-, hpaid', -⟩ | ⟨hpaid, -, hcancelled⟩ |
      ⟨-, hunpaid', -⟩
    · rw [← hstatus, hrefunded]
      exact ⟨by simp, by simp⟩
    · cases hrefunded.symm.trans hpaid'
    · rw [hpaid]
      exact ⟨by simp, fun _ => hmember.1 ▸ hcancelled⟩
    · cases hrefunded.symm.trans hunpaid'
  | _ => trivial

/-! ## Resets -/

/-- A reactivation between its statements is still there after the step if the step is not its own;
if the step is its own and leaves refunded memberships, another one is there. -/
theorem resetting_step (hrun : Runs svc crypto ok a) (hstep : (backend svc crypto).Step a l b)
    (hresets : ResetsFollow a l) {leagueID : String} (h : ∃ t ∈ a.threads, Resetting leagueID t)
    (hactive : a.world.db.Active leagueID) (hrefunded : a.world.db.HasRefunded leagueID)
    (hkept : b.world.db.HasRefunded leagueID) : ∃ t ∈ b.threads, Resetting leagueID t := by
  obtain ⟨t, ht, hresetting⟩ := h
  obtain ⟨i, hi⟩ := List.mem_iff_getElem?.mp ht
  -- another reactivation is not touched by a step of thread `i`
  have hother : (∃ t ∈ a.threads.eraseIdx i, Resetting leagueID t) →
      (l = .stop i ∨ ∃ r, l = .call i (.exec (.resetRefunded leagueID)) r) →
        ∃ t ∈ b.threads, Resetting leagueID t := by
    rintro ⟨t', ht', hresetting'⟩ hl
    obtain ⟨j, hne, hj⟩ := List.mem_eraseIdx_iff_getElem?.mp ht'
    rcases hresetting'.step hrun hj hstep with hsame | hstop | ⟨r, hcall⟩
    · exact ⟨t', List.mem_of_getElem? hsame, hresetting'⟩
    · rcases hl with hl | ⟨r', hl⟩
      · cases hl.symm.trans hstop
        exact absurd rfl hne
      · cases hl.symm.trans hstop
    · rcases hl with hl | ⟨r', hl⟩
      · cases hl.symm.trans hcall
      · cases hl.symm.trans hcall
        exact absurd rfl hne
  rcases hresetting.step hrun hi hstep with hsame | rfl | ⟨r, rfl⟩
  · exact ⟨t, List.mem_of_getElem? hsame, hresetting⟩
  · exact hother (hresets t hi leagueID hresetting.league hresetting hactive hrefunded) (.inl rfl)
  · cases r with
    | error e => exact hother (hresets hactive hrefunded) (.inr ⟨_, rfl⟩)
    | ok r =>
      obtain ⟨m', hm', hleague, hstatus⟩ := hkept
      exact absurd hstatus (not_refunded_of_reset hstep rfl hm' hleague)

/-- An activated league with refunded memberships has a reactivation between its statements. -/
theorem resetting_of_activated (hrun : Runs svc crypto ok a)
    (hstep : (backend svc crypto).Step a l b) (hresets : ResetsFollow a l) {leagueID : String}
    (hs : applied a l = some (.reactivateLeague leagueID))
    (hcancelled : a.world.db.Cancelled leagueID)
    (hrefunded : a.world.db.HasRefunded leagueID) : ∃ t ∈ b.threads, Resetting leagueID t := by
  cases l with
  | call i c r =>
    cases c with
    | exec s =>
      cases r with
      | error e => cases hs
      | ok r =>
        cases hs
        refine resetting_of_reactivate hrun hstep ?_
        obtain ⟨r₀, hr₀, hid, hnone⟩ := hcancelled
        cases hstep with
        | call ht hrest hrunning hw =>
          obtain ⟨now, fresh, db, -, hexec, -⟩ := hw
          obtain ⟨hcount, -⟩ := Prod.mk.inj (Option.some.inj hexec)
          have hpos := (Table.count_pos (t := a.world.db.leagues) (p := fun l =>
            l.id = leagueID && l.cancelledAt.isSome)).mpr
              ⟨r₀, hr₀, by simpa [hid, Option.isSome_iff_ne_none] using hnone⟩
          rw [← hcount]
          exact Nat.pos_iff_ne_zero.mp hpos
    | _ => cases hs
  | env e =>
    cases e with
    | land k now fresh =>
      obtain ⟨r, hr, rfl, -⟩ := hcancelled
      obtain ⟨t, ht, hresetting⟩ := hresets _ hs r hr rfl hrefunded
      cases hstep with
      | env hw => exact ⟨t, ht, hresetting⟩
    | _ => cases hs
  | _ => cases hs

/-- A step that keeps the cycle leaves no refunded membership behind. -/
theorem NoneLeftRefunded.step (h : NoneLeftRefunded a) (hrun : Runs svc crypto ok a)
    (hstep : (backend svc crypto).Step a l b) (hl : KeepsCycle a l) : NoneLeftRefunded b := by
  intro m' hm' hrefunded' hactive'
  rcases step_status hstep hm' with ⟨m, hm, hsame, hstatus⟩ | ⟨hunpaid, -⟩
  · have hleague : m'.leagueID = m.leagueID := congrArg Prod.fst hsame.1
    have hissued := (Runs.references hrun).members m hm
    rw [hleague] at hactive' ⊢
    have hkept : b.world.db.HasRefunded m.leagueID := ⟨m', hm', hleague, hrefunded'⟩
    have hrefunded : m.paymentStatus = .refunded := by
      rcases hstatus with hstatus | ⟨s, hs, hsets⟩
      · exact hstatus.symm.trans hrefunded'
      · rw [hrefunded'] at hsets
        cases s with
        | markRefunded leagueID userID transactionID =>
          obtain ⟨hunpaid, hcancelled⟩ := hl.inTurn _ hs m hm hsets.1
          have hmember := hsets.1
          simp only [Database.membershipOf, Bool.and_eq_true, decide_eq_true_eq] at hmember
          cases hstatus : m.paymentStatus with
          | unpaid => exact absurd hstatus hunpaid
          | refunded => rfl
          | paid =>
            have hactive := active_of_step hstep (by rw [hs]; simp) hissued hactive'
            exact absurd (hmember.1 ▸ hcancelled hstatus) hactive.not_cancelled
        | markPaid => cases hsets.2
        | resetRefunded => cases hsets.2.2
        | _ => exact hsets.elim
    rcases active_cases hstep hactive' with hactive | ⟨hs, hcancelled⟩ | hnew
    · exact resetting_step hrun hstep hl.resets (h m hm hrefunded hactive) hactive
        ⟨m, hm, rfl, hrefunded⟩ hkept
    · exact resetting_of_activated hrun hstep hl.resets hs hcancelled ⟨m, hm, rfl, hrefunded⟩
    · exact absurd hissued hnew
  · cases hunpaid.symm.trans hrefunded'

/-- A step that leaves no refunded membership behind has its resets followed. -/
theorem resetsFollow_of_noneLeft (hstep : (backend svc crypto).Step a l b)
    (h : NoneLeftRefunded b) :
    ResetsFollow a l := by
  have hstep' := hstep
  cases hstep with
  | spawn j => trivial
  | @call i t c next r w ht hrest hrun hw =>
    cases c with
    | exec s =>
      cases s with
      | resetRefunded leagueID =>
        cases r with
        | ok r => trivial
        | error e =>
          rintro hactive ⟨m, hm, rfl, hrefunded⟩
          obtain rfl : w = _ := hw
          obtain ⟨t', ht', hresetting⟩ := h m hm hrefunded hactive
          obtain ⟨j, hj⟩ := List.mem_iff_getElem?.mp ht'
          rcases getElem?_set_thread ht hj with ⟨-, rfl⟩ | ⟨hne, hj⟩
          · exact absurd hresetting.due not_due_of_reset
          · exact ⟨t', List.mem_eraseIdx_iff_getElem?.mpr ⟨j, hne, hj⟩, hresetting⟩
      | _ => trivial
    | _ => trivial
  | @stop i t ht =>
    rintro u hu leagueID hleague hresetting hactive ⟨m, hm, rfl, hrefunded⟩
    obtain ⟨t', ht', hresetting'⟩ := h m hm hrefunded hactive
    obtain ⟨j, hj⟩ := List.mem_iff_getElem?.mp ht'
    rcases getElem?_set_thread ht hj with ⟨-, rfl⟩ | ⟨hne, hj⟩
    · cases hresetting'.running
    · exact ⟨t', List.mem_eraseIdx_iff_getElem?.mpr ⟨j, hne, hj⟩, hresetting'⟩
  | @env e w hw =>
    cases e with
    | land k now fresh =>
      rintro s hs r hr rfl ⟨m, hm, hleague, hrefunded⟩
      obtain ⟨hactive, hmembers⟩ := activated_of_applied hstep' hs hr rfl
      rw [← hleague] at hactive ⊢
      exact h m (hmembers ▸ hm) hrefunded hactive
    | _ => trivial

/-- No refunded membership is left behind in any run that keeps the cycle. -/
theorem Runs.noneLeftRefunded (h : Runs svc crypto ok a) (hok : ∀ a l, ok a l → KeepsCycle a l) :
    NoneLeftRefunded a := by
  induction h with
  | refl => simp [NoneLeftRefunded, initialConfig, Table.empty]
  | @tail a b hrun hlast ih =>
    obtain ⟨l, hl, hstep⟩ := hlast
    exact ih.step hrun hstep (hok _ _ hl)

/-- Along every run that keeps the cycle no active league has a refunded membership left, and the
next step moves the memberships in the cycle and leaves none behind exactly if it keeps it. -/
theorem lifeCycle_iff (h : Runs svc crypto KeepsCycle a) (hstep : (backend svc crypto).Step a l b) :
    NoneLeftRefunded a ∧ ((MovesInCycle a l b ∧ NoneLeftRefunded b) ↔ KeepsCycle a l) := by
  have hnone := h.noneLeftRefunded fun _ _ => id
  refine ⟨hnone, ?_, fun hl => ⟨movesInCycle_of_inTurn hstep hl.inTurn, hnone.step h hstep hl⟩⟩
  rintro ⟨hmoves, hnone'⟩
  exact ⟨inTurn_of_movesInCycle hstep hmoves, resetsFollow_of_noneLeft hstep hnone'⟩

/-! ## Runs -/

instance (a : BackendConfig) (l : BackendLabel) (b : BackendConfig) :
    Decidable (MovesInCycle a l b) := by
  unfold MovesInCycle
  infer_instance

instance (a : BackendConfig) : Decidable (NoneLeftRefunded a) := by
  unfold NoneLeftRefunded
  infer_instance

/-- A payment, its refund and the reset of a reactivation make the whole cycle. -/
theorem exists_cycle : ∃ a l b, Runs .mock .mock KeepsCycle a ∧ (backend .mock .mock).Step a l b ∧
    Reactivates l Schedule.leagueID ∧ a.world.db.HasRefunded Schedule.leagueID ∧
      NoneLeftRefunded a ∧ (MovesInCycle a l b ∧ NoneLeftRefunded b) := by
  obtain ⟨a, l, b, hrun, hstep, hl, hrefunded, hkeeps⟩ :=
    refundConfirmed.exists_step (.call 7 (.succeed 0 "f7")) .mock .mock KeepsCycle
    (fun a l _ => Reactivates l Schedule.leagueID ∧ a.world.db.HasRefunded Schedule.leagueID ∧
      KeepsCycle a l) (by decide +kernel)
  obtain ⟨hnone, hiff⟩ := lifeCycle_iff hrun hstep
  exact ⟨a, l, b, hrun, hstep, hl, hrefunded, hnone, hiff.mpr hkeeps⟩

/-- A payment is confirmed for a league that has been cancelled, up to the statement. -/
def paidWhileCancelled : Schedule :=
  Schedule.fundedLeague Schedule.firstPlace ++ Schedule.cancel 4 "f3" ++
    (Schedule.confirm 5 "u1" "f4").dropLast

/-- The reset of a reactivation reports an error. -/
def resetFails : Schedule := refundConfirmed ++ [.call 7 .fail]

/-- A membership of a cancelled league becomes paid, and a failed reactivation leaves a refunded
membership in an active league. -/
theorem exists_cycle_broken :
    (∃ a l b, Runs .mock .mock (fun _ _ => True) a ∧ (backend .mock .mock).Step a l b ∧
      ¬ MovesInCycle a l b) ∧
    ∃ a, Runs .mock .mock (fun _ _ => True) a ∧ ¬ NoneLeftRefunded a := by
  constructor
  · exact paidWhileCancelled.exists_step (.call 5 (.succeed 0 "f4")) .mock .mock (fun _ _ => True)
      (fun a l b => ¬ MovesInCycle a l b) (by decide +kernel)
  · exact resetFails.exists_run .mock .mock (fun _ _ => True) (fun a => ¬ NoneLeftRefunded a)
      (by decide +kernel)

end Wagr
