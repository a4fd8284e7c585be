import Wagr.Leagues.Commissioner

/-!
# Who changes what is known of a payment

The payment columns of a membership change only by a request of a user who is linked to the
membership at that moment, or when a commissioner reactivates the league, which forgets a refund.
-/

namespace Wagr

open Interaction Protocol System Relational

variable {svc : Service} {crypto : Crypto} {a b : BackendConfig} {l : BackendLabel}
  {ok : BackendConfig → BackendLabel → Prop}

/-- The payment columns of a membership. -/
def MemberRow.payment (m : MemberRow) :
    PaymentStatus × Option String × Option String × Option ℕ :=
  (m.paymentStatus, m.paymentToken, m.transactionHash, m.paidAt)

/-- The league and the user of a request about a member's own payment. -/
def Request.paymentOf : Request → Option (String × String)
  | .setPaymentToken leagueID userID _ => some (leagueID, userID)
  | .confirmPayment leagueID userID _ => some (leagueID, userID)
  | .confirmRefund leagueID userID _ => some (leagueID, userID)
  | _ => none

/-- What a request makes of the payment columns. -/
def Request.Records (req : Request) (m m' : MemberRow) : Prop :=
  match req with
  | .setPaymentToken _ _ token =>
    m'.payment = (m.paymentStatus, some token, m.transactionHash, m.paidAt)
  | .confirmPayment _ _ transactionID =>
    ∃ now, m'.payment = (.paid, m.paymentToken, some transactionID, some now)
  | .confirmRefund _ _ transactionID =>
    m'.payment = (.refunded, m.paymentToken, some transactionID, m.paidAt)
  | .reactivateLeague _ _ => m.paymentStatus = .refunded ∧
    m'.payment = (.unpaid, m.paymentToken, none, m.paidAt)
  | _ => False

/-- A statement changes the payment columns as a request for it records them: for a user linked to
the membership, or for a decision about the league. -/
theorem Statement.MemberStep.records {now : ℕ} {db : Database} {s : Statement} {m m' : MemberRow}
    (h : s.MemberStep now db m m') : m'.payment = m.payment ∨
      (∀ req : Request, req.mayExec s → req.Records m m') ∧
        ((∃ userID, db.linkedTo userID m = true ∧
          ∀ req : Request, req.mayExec s → req.paymentOf = some (m.leagueID, userID)) ∨
        s.decidesFor = some m.leagueID) := by
  have hlinked : ∀ {leagueID userID : String}, db.membershipOf leagueID userID m = true →
      leagueID = m.leagueID ∧ db.linkedTo userID m = true := by
    intro leagueID userID hmember
    obtain ⟨hleague, hlink⟩ := Bool.and_eq_true_iff.mp hmember
    exact ⟨(of_decide_eq_true hleague).symm, hlink⟩
  rcases h with rfl | h
  · exact .inl rfl
  · cases s with
    | importLeague =>
      obtain ⟨v, -, rfl⟩ := h
      exact .inl rfl
    | recordMemberPayout =>
      obtain ⟨-, -, rfl⟩ := h
      exact .inl rfl
    | setPaymentToken leagueID userID token =>
      obtain ⟨hmember, rfl⟩ := h
      obtain ⟨rfl, hlink⟩ := hlinked hmember
      refine .inr ⟨fun req hreq => ?_, .inl ⟨userID, hlink, fun req hreq => ?_⟩⟩
      all_goals
        cases req with
        | setPaymentToken =>
          obtain ⟨rfl, rfl, rfl⟩ := hreq
          rfl
        | _ => exact hreq.elim
    | markPaid leagueID userID transactionID =>
      obtain ⟨hmember, rfl⟩ := h
      obtain ⟨rfl, hlink⟩ := hlinked hmember
      refine .inr ⟨fun req hreq => ?_, .inl ⟨userID, hlink, fun req hreq => ?_⟩⟩
      · cases req with
        | confirmPayment =>
          obtain ⟨-, -, rfl⟩ := hreq
          exact ⟨now, rfl⟩
        | _ => exact hreq.elim
      · cases req with
        | confirmPayment =>
          obtain ⟨rfl, rfl, -⟩ := hreq
          rfl
        | _ => exact hreq.elim
    | markRefunded leagueID userID transactionID =>
      obtain ⟨hmember, rfl⟩ := h
      obtain ⟨rfl, hlink⟩ := hlinked hmember
      refine .inr ⟨fun req hreq => ?_, .inl ⟨userID, hlink, fun req hreq => ?_⟩⟩
      all_goals
        cases req with
        | confirmRefund =>
          obtain ⟨rfl, rfl, rfl⟩ := hreq
          rfl
        | _ => exact hreq.elim
    | resetRefunded leagueID =>
      obtain ⟨rfl, hrefunded, rfl⟩ := h
      refine .inr ⟨fun req hreq => ?_, .inr rfl⟩
      cases req with
      | reactivateLeague => exact ⟨hrefunded, rfl⟩
      | _ => exact hreq.elim
    | _ => exact h.elim

/-- A statement that takes effect is in the footprint of a thread's request. -/
theorem Runs.thread_mayExec (h : Runs svc crypto ok a) (hstep : (backend svc crypto).Step a l b)
    {s : Statement} (hs : applied a l = some s) :
    ∃ (i : ℕ) (t : BackendThread), a.threads[i]? = some t ∧ t.job.mayExec s := by
  obtain ⟨i, t, ht, earlier, -, hallows⟩ :=
    h.applied_allowed (P := footprints) conforms_footprints hstep hs
  rw [footprints_phase] at hallows
  exact ⟨i, t, ht, hallows⟩

/-- Every change of a membership's payment status, token, transaction hash or payment time is the
one that a request records: of a user who is linked to the membership when it happens, or of a
commissioner of its league. -/
theorem payment_change_authorized (h : Runs svc crypto ok a)
    (hstep : (backend svc crypto).Step a l b) {m m' : MemberRow}
    (hm : m ∈ a.world.db.members.rows) (hm' : m' ∈ b.world.db.members.rows)
    (hkey : m'.key = m.key) (hchange : m'.payment ≠ m.payment) :
    ∃ req : Request, req.Records m m' ∧
      ((∃ (i : ℕ) (t : BackendThread), a.threads[i]? = some t ∧ t.job = req ∧ ∃ userID,
        req.paymentOf = some (m.leagueID, userID) ∧ a.world.db.linkedTo userID m = true) ∨
      Decided svc crypto ok a m.leagueID req) := by
  rcases step_member hstep hm' with ⟨m₀, hm₀, hmember⟩ |
    ⟨now, fresh, league, members, -, -, -, v, -, w, -, hnew, rfl⟩
  · obtain rfl : m₀ = m :=
      Table.eq_of_key hm₀ hm ((sameMember_of_step hmember).1.symm.trans hkey)
    rcases hmember with rfl | ⟨now, s, hs, hmember⟩
    · exact absurd rfl hchange
    · obtain ⟨hrecords, hwho⟩ := hmember.records.resolve_left hchange
      rcases hwho with ⟨userID, hlinked, hof⟩ | hfor
      · obtain ⟨i, t, ht, hexec⟩ := h.thread_mayExec hstep hs
        exact ⟨t.job, hrecords _ hexec, .inl ⟨i, t, ht, rfl, userID, hof _ hexec, hlinked⟩⟩
      · obtain ⟨req, hdecided, hexec⟩ := h.decided hstep hs hfor
        exact ⟨req, hrecords req hexec, .inr hdecided⟩
  · have hold : m.key ∈ a.world.db.members.rows.map MemberRow.key := List.mem_map_of_mem hm
    rw [← hkey] at hold
    exact absurd hold hnew

/-- The member confirms its payment; the statement that marks it paid is next. -/
def confirming : Schedule :=
  Schedule.fundedLeague Schedule.firstPlace ++ (Schedule.confirm 4 "u1" "f3").dropLast

/-- The membership becomes paid, so a linked user has asked for it. -/
theorem payment_change_authorized_confirming : ∃ a l b, Runs .mock .mock (fun _ _ => True) a ∧
    (backend .mock .mock).Step a l b ∧ ∃ m ∈ a.world.db.members.rows,
      ∃ m' ∈ b.world.db.members.rows, m'.key = m.key ∧ m'.paymentStatus ≠ m.paymentStatus ∧
        ∃ req : Request, req.Records m m' ∧
          ((∃ (i : ℕ) (t : BackendThread), a.threads[i]? = some t ∧ t.job = req ∧ ∃ userID,
            req.paymentOf = some (m.leagueID, userID) ∧ a.world.db.linkedTo userID m = true) ∨
          Decided .mock .mock (fun _ _ => True) a m.leagueID req) := by
  obtain ⟨a, l, b, hrun, hstep, m, hm, m', hm', hkey, hpaid⟩ := confirming.exists_step
    (.call 4 (.succeed 0 "f3")) .mock .mock (fun _ _ => True)
    (fun a _ b => ∃ m ∈ a.world.db.members.rows, ∃ m' ∈ b.world.db.members.rows, m'.key = m.key ∧
      m'.paymentStatus ≠ m.paymentStatus) (by decide)
  exact ⟨a, l, b, hrun, hstep, m, hm, m', hm', hkey, hpaid,
    payment_change_authorized hrun hstep hm hm' hkey fun h => hpaid (congrArg Prod.fst h)⟩

end Wagr
