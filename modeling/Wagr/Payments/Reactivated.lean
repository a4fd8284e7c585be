import Wagr.Library.Past
import Wagr.Payments.OnChain

/-!
# Reactivated leagues

A reactivation resets the memberships that the database knows to be refunded. The database
knows of a refund only through a separate request, so a membership whose refund nobody has
confirmed stays paid. Whether a reactivation leaves the memberships as the escrow has them is
decided by what has happened before it: by the refunds that were claimed, and by the
confirmations that have come after them.
-/

namespace Wagr

open Interaction System Relational

variable {svc : Service} {crypto : Crypto} {a b : BackendConfig} {l : BackendLabel}
  {ok : BackendConfig → BackendLabel → Prop}

/-- Members claim refunds only while their league is cancelled in the database. -/
def ClaimsWhileCancelled (a : BackendConfig) : BackendLabel → Prop
  | .env (.claimRefund _ key) => ∀ r ∈ a.world.db.leagues.rows, uuidToBytes32 r.id = .ok key →
      r.cancelledAt ≠ none
  | _ => True

/-- A step with truthful reads and refunds of cancelled leagues only. -/
structure CancelledRefunds (a : BackendConfig) (l : BackendLabel) : Prop where
  reads : ReadsTruthfully a l
  claims : ClaimsWhileCancelled a l

/-- A reactivation of the league succeeds with this step. -/
def Reactivates (l : BackendLabel) (leagueID : String) : Prop :=
  match l with
  | .call _ (.exec (.resetRefunded leagueID')) (.ok _) => leagueID' = leagueID
  | _ => False

/-- A confirmed payment for the membership is in the escrow. -/
def Backed (a : BackendConfig) (m : MemberRow) : Prop :=
  ∃ c, ConfirmedFor a m c ∧ c.Covered a.world

/-- The membership's fee was claimed back: payments for it were confirmed, and none of them is in
the escrow. -/
def ClaimedBack (a : BackendConfig) (m : MemberRow) : Prop :=
  (∃ c, ConfirmedFor a m c) ∧ ¬ Backed a m

/-- Every paid membership of the league has a confirmed payment that is in the escrow, and every
membership whose fee was claimed back is unpaid. -/
def RefundsSettled (a : BackendConfig) (leagueID : String) : Prop :=
  ∀ m ∈ a.world.db.members.rows, m.leagueID = leagueID →
    (m.paymentStatus = .paid → Backed a m) ∧ (ClaimedBack a m → m.paymentStatus = .unpaid)

instance (a : BackendConfig) (l : BackendLabel) : Decidable (ClaimsWhileCancelled a l) := by
  rcases l with _ | _ | _ | _ | _ <;> unfold ClaimsWhileCancelled <;> infer_instance

instance (a : BackendConfig) (l : BackendLabel) : Decidable (CancelledRefunds a l) :=
  decidable_of_iff (_ ∧ _) ⟨fun h => ⟨h.1, h.2⟩, fun h => ⟨h.reads, h.claims⟩⟩

instance (l : BackendLabel) (leagueID : String) : Decidable (Reactivates l leagueID) := by
  unfold Reactivates
  split <;> infer_instance

/-- The step in which a reactivation succeeds. -/
theorem reactivates_eq {leagueID : String} (h : Reactivates l leagueID) :
    ∃ i r, l = .call i (.exec (.resetRefunded leagueID)) (.ok r) := by
  unfold Reactivates at h
  split at h
  · subst h
    exact ⟨_, _, rfl⟩
  · exact h.elim

/-- What a successful reactivation does: it resets the refunded memberships of the league. -/
theorem reactivates_step (hstep : (backend svc crypto).Step a l b) {leagueID : String}
    (h : Reactivates l leagueID) : b.world.storage = a.world.storage ∧
      b.world.db.profiles = a.world.db.profiles ∧
      ∀ m', m' ∈ b.world.db.members.rows ↔ ∃ m ∈ a.world.db.members.rows,
        m' = if m.leagueID = leagueID ∧ m.paymentStatus = .refunded then
          { m with
            paymentStatus := .unpaid
            transactionHash := none } else m := by
  obtain ⟨i, r, rfl⟩ := reactivates_eq h
  cases hstep with
  | call ht hrest hrun hw =>
    obtain ⟨now, fresh, db, -, hs, rfl⟩ := hw
    cases hs
    refine ⟨rfl, rfl, fun m' => List.mem_map.trans ?_⟩
    simp only [Bool.and_eq_true, decide_eq_true_eq]
    constructor
    · rintro ⟨m, hm, rfl⟩
      exact ⟨m, hm, rfl⟩
    · rintro ⟨m, hm, rfl⟩
      exact ⟨m, hm, rfl⟩

/-- A payment was confirmed after a reactivation if it was before. -/
theorem confirmedFor_reactivated (hrun : Runs svc crypto ok a)
    (hstep : (backend svc crypto).Step a l b) {leagueID : String} (h : Reactivates l leagueID)
    {m m' : MemberRow} (hsame : m.SameMember m') {c : Confirmation} :
    ConfirmedFor b m' c ↔ ConfirmedFor a m c := by
  obtain ⟨-, hprofiles, -⟩ := reactivates_step hstep h
  constructor
  · intro hfor
    obtain ⟨hkey, hplatform, -, -⟩ := hsame
    obtain ⟨hleague', haccount⟩ := Prod.mk.inj hkey
    have hconfirmed : Confirmed a c := by
      rcases confirmed_cases hrun hstep hfor.confirmed with hconfirmed |
        ⟨i, contract, key, result, paid, -, -, rfl, -, -⟩
      · exact hconfirmed
      · exact h.elim
    refine hrun.confirmedFor hconfirmed (hfor.league.trans hleague') ?_
    simpa only [Database.linkedTo, MemberRow.joins, hprofiles, hplatform, haccount]
      using hfor.linked
  · intro hfor
    exact hfor.step hstep hsame

/-- A reactivation leaves the confirmed payments as they are. -/
theorem backed_reactivated (hrun : Runs svc crypto ok a) (hstep : (backend svc crypto).Step a l b)
    {leagueID : String} (h : Reactivates l leagueID) {m m' : MemberRow} (hsame : m.SameMember m') :
    Backed b m' ↔ Backed a m := by
  obtain ⟨hstorage, -, -⟩ := reactivates_step hstep h
  have hcovered : ∀ c : Confirmation, c.Covered b.world ↔ c.Covered a.world := by
    intro c
    simp only [Confirmation.Covered, hstorage]
  constructor
  · rintro ⟨c, hfor, hc⟩
    exact ⟨c, (confirmedFor_reactivated hrun hstep h hsame).mp hfor, (hcovered c).mp hc⟩
  · rintro ⟨c, hfor, hc⟩
    exact ⟨c, (confirmedFor_reactivated hrun hstep h hsame).mpr hfor, (hcovered c).mpr hc⟩

/-! ## The refunds nobody has recorded -/

/-- With this step the fee of a paid membership is claimed back: all its payments that were
confirmed and are in the escrow are the caller's. -/
def ClaimsFee (a : BackendConfig) (l : BackendLabel) (m : MemberRow) : Prop :=
  m.paymentStatus = .paid ∧ ∃ member key, l = .env (.claimRefund member key) ∧
    uuidToBytes32 m.leagueID = .ok key ∧ ∀ c, ConfirmedFor a m c → c.Covered a.world →
      c.address = member ∧ 0 < (toMicroUSDC c.info.entryFeeCents).toInt

/-- This step marks the membership paid while none of its confirmed payments is in the escrow: they
were claimed back after they had been read. -/
def MarksLate (a : BackendConfig) (l : BackendLabel) (m : MemberRow) : Prop :=
  (∃ leagueID userID transactionID, applied a l = some (.markPaid leagueID userID transactionID) ∧
    a.world.db.membershipOf leagueID userID m = true) ∧ ¬ Backed a m

/-- This step records a refund of the membership. -/
def RecordsRefund (a : BackendConfig) (l : BackendLabel) (m : MemberRow) : Prop :=
  ∃ leagueID userID transactionID,
    applied a l = some (.markRefunded leagueID userID transactionID) ∧
      a.world.db.membershipOf leagueID userID m = true

/-- Among the steps of a run, newest first, is one that takes the fee of the membership back or
marks it paid too late, and no later one records a refund. -/
def Unrecorded : List (BackendConfig × BackendLabel) → String × String → Prop
  | [], _ => False
  | (a, l) :: past, key => ∃ m ∈ a.world.db.members.rows, m.key = key ∧
      (ClaimsFee a l m ∨ MarksLate a l m ∨ Unrecorded past key ∧ ¬ RecordsRefund a l m)

/-- A membership whose refund nobody has recorded is marked paid. -/
theorem Unrecorded.paid {past : List (BackendConfig × BackendLabel)}
    (h : (backend svc crypto).Trail ok initialConfig past a) {m : MemberRow}
    (hm : m ∈ a.world.db.members.rows) (hunrecorded : Unrecorded past m.key) :
    m.paymentStatus = .paid := by
  induction h generalizing m with
  | start => exact hunrecorded.elim
  | @step past a b l hbefore hok hstep ih =>
    obtain ⟨m₀, hm₀, hkey, hcases⟩ := hunrecorded
    rcases step_member hstep hm with ⟨m₁, hm₁, hmember⟩ |
      ⟨now, fresh, league, members, -, -, -, v, -, w, -, hnew, rfl⟩
    · have hsame := sameMember_of_step hmember
      obtain rfl : m₀ = m₁ := Table.eq_of_key hm₀ hm₁ (hkey.trans hsame.1)
      rcases hcases with ⟨hpaid, member, key, rfl, -⟩ |
        ⟨⟨leagueID, userID, transactionID, hs, hmarked⟩, -⟩ | ⟨hpast, hrecords⟩
      · rcases hmember with rfl | ⟨now, s, hs, -⟩
        · exact hpaid
        · cases hs
      · obtain ⟨m₂, hm₂, hsame₂, ⟨-, hpaid, -⟩ | ⟨hother, rfl⟩⟩ := step_marks hstep hs rfl hm
        · exact hpaid
        · obtain rfl : m₀ = m := Table.eq_of_key hm₀ hm₂ hkey
          exact absurd hmarked (by simp [hother])
      · have hpaid := ih hm₀ (hkey ▸ hpast)
        rcases hmember with rfl | ⟨now, s, hs, rfl | hmember⟩
        · exact hpaid
        · exact hpaid
        · cases s with
          | markPaid =>
            obtain ⟨-, rfl⟩ := hmember
            rfl
          | markRefunded leagueID userID transactionID =>
            exact absurd ⟨leagueID, userID, transactionID, hs, hmember.1⟩ hrecords
          | resetRefunded => cases hpaid.symm.trans hmember.2.1
          | importLeague =>
            obtain ⟨v, -, rfl⟩ := hmember
            exact hpaid
          | setPaymentToken =>
            obtain ⟨-, rfl⟩ := hmember
            exact hpaid
          | recordMemberPayout =>
            obtain ⟨-, -, rfl⟩ := hmember
            exact hpaid
          | _ => exact hmember.elim
    · exact absurd (List.mem_map.mpr ⟨m₀, hm₀, hkey⟩) hnew

/-- A confirmed payment stays in the escrow in a step that does not claim the fee back. -/
theorem Backed.step {m m' : MemberRow} (h : Backed a m) (hstep : (backend svc crypto).Step a l b)
    (hsame : m.SameMember m') (hpaid : m.paymentStatus = .paid) (hkeeps : ¬ ClaimsFee a l m) :
    Backed b m' := by
  by_cases hclaims : ∃ member key, l = .env (.claimRefund member key) ∧
      uuidToBytes32 m.leagueID = .ok key
  · obtain ⟨member, key, rfl, hkey⟩ := hclaims
    -- Some payment is another caller's, or free.
    have hother : ∃ c, ConfirmedFor a m c ∧ c.Covered a.world ∧
        ¬ (c.address = member ∧ 0 < (toMicroUSDC c.info.entryFeeCents).toInt) := by
      by_contra hnone
      refine hkeeps ⟨hpaid, member, key, rfl, hkey, fun c hfor hc => ?_⟩
      by_contra hc'
      exact hnone ⟨c, hfor, hc, hc'⟩
    obtain ⟨c, hfor, hc, hother⟩ := hother
    refine ⟨c, hfor.step hstep hsame, ?_⟩
    by_cases haddress : c.address = member
    · have hfree := not_lt.mp fun hpos => hother ⟨haddress, hpos⟩
      exact ⟨key, hfor.league ▸ hkey, hfree.trans (Int.natCast_nonneg _)⟩
    · refine hc.step hstep fun key' _ heq => haddress ?_
      cases heq
      rfl
  · obtain ⟨c, hfor, hc⟩ := h
    refine ⟨c, hfor.step hstep hsame, hc.step hstep fun key hkey heq => ?_⟩
    exact hclaims ⟨c.address, key, heq, hfor.league ▸ hkey⟩

/-- A membership that is marked paid has a confirmed payment in the escrow, or its fee was taken
back and nobody has recorded it. -/
theorem backed_or_unrecorded {past : List (BackendConfig × BackendLabel)}
    (h : (backend svc crypto).Trail ok initialConfig past a) {m : MemberRow}
    (hm : m ∈ a.world.db.members.rows) (hpaid : m.paymentStatus = .paid) :
    Backed a m ∨ Unrecorded past m.key := by
  induction h generalizing m with
  | start => simp [initialConfig, Table.empty] at hm
  | @step past a b l hbefore hok hstep ih =>
    obtain ⟨m₀, hm₀, hsame, ⟨hpaid₀, -, -⟩ |
      ⟨leagueID, userID, transactionID, hs, hmarked, -⟩⟩ := step_paid hstep hm hpaid
    · by_cases hclaims : ClaimsFee a l m₀
      · exact .inr ⟨m₀, hm₀, hsame.1.symm, .inl hclaims⟩
      rcases ih hm₀ hpaid₀ with hbacked | hpast
      · exact .inl (hbacked.step hstep hsame hpaid₀ hclaims)
      · refine .inr ⟨m₀, hm₀, hsame.1.symm, .inr (.inr ⟨hsame.1 ▸ hpast, ?_⟩)⟩
        rintro ⟨leagueID, userID, transactionID, hs, hrecorded⟩
        obtain ⟨m₁, hm₁, hsame₁, ⟨-, hrefunded, -⟩ | ⟨hother, rfl⟩⟩ := step_marks hstep hs rfl hm
        · cases hpaid.symm.trans hrefunded
        · obtain rfl : m₀ = m := Table.eq_of_key hm₀ hm₁ hsame.1.symm
          exact absurd hrecorded (by simp [hother])
    · by_cases hbacked : Backed a m₀
      · obtain ⟨c, hfor, hc⟩ := hbacked
        refine .inl ⟨c, hfor.step hstep hsame, hc.step hstep fun key _ heq => ?_⟩
        rw [heq] at hs
        cases hs
      · exact .inr ⟨m₀, hm₀, hsame.1.symm,
          .inr (.inl ⟨⟨leagueID, userID, transactionID, hs, hmarked⟩, hbacked⟩)⟩

/-- The refund is confirmed, and the commissioner reactivates the league up to the reset. -/
def refundConfirmed : Schedule :=
  refundedAfterCancel ++ Schedule.confirmRefund 6 "u1" "f5" ++ Schedule.reactivate 7 "f6"

/-- The commissioner reactivates the league before the refund is confirmed, up to the reset. -/
def refundUnconfirmed : Schedule := refundedAfterCancel ++ Schedule.reactivate 6 "f5"

/-- Two members have paid when the league is cancelled; the refund of one of them is claimed and
confirmed, and the commissioner reactivates the league up to the reset. -/
def oneRefunded : Schedule :=
  Schedule.twoPayments ++ Schedule.cancel 8 "f6" ++
    [.env (.claimRefund 9 Schedule.leagueKey)] ++ Schedule.confirmRefund 9 "u1" "f7" ++
    Schedule.reactivate 10 "f8"

end Wagr
