import Wagr.Payments.Verified

/-!
# Every paid membership has a payment of its own

A confirmation marks every membership its user is linked to, and what it has verified is one
address's payment. As long as a user has one membership in a league, and no two memberships
are marked for one address, the paid memberships are backed one by one, and the league's
total covers their fees.
-/

namespace Wagr

open Interaction Protocol System Accounting

variable {svc : Service} {crypto : Crypto} {a b : BackendConfig} {l : BackendLabel}
  {ok : BackendConfig → BackendLabel → Prop}

/-- The memberships of a league that are marked paid. -/
def Database.paidMembers (db : Database) (leagueID : String) : List MemberRow :=
  db.members.rows.filter fun m => m.leagueID = leagueID && m.paymentStatus = .paid

/-- The paid memberships of every league were marked by confirmations of payments that cover the
entry fee and were made from different addresses, and the league's total covers all their
fees. -/
def PaymentsBacked (a : BackendConfig) : Prop :=
  ∀ r ∈ a.world.db.leagues.rows, ∀ key, uuidToBytes32 r.id = .ok key →
    (a.world.db.paidMembers r.id).length * (r.entryFeeCents.toInt * 10000) ≤
        (a.world.storage.leagueTotals key).val ∧
      ∃ payer : MemberRow → Confirmation,
        (∀ m ∈ a.world.db.paidMembers r.id, MarkedBy a m (payer m) ∧
          r.entryFeeCents.toInt * 10000 ≤
            (a.world.storage.payments key (payer m).address).val) ∧
        ∀ m ∈ a.world.db.paidMembers r.id, ∀ m' ∈ a.world.db.paidMembers r.id,
          (payer m').address = (payer m).address → m' = m

/-- Marking the user's memberships of the league marks one that its payment can back: the fee is
computed without overflow, there is one membership, and no other one was paid from the address. -/
structure MarksOwn (a : BackendConfig) (leagueID userID : String) : Prop where
  fits : ∀ r ∈ a.world.db.leagues.rows, r.id = leagueID →
    (toMicroUSDC r.entryFeeCents).toInt = r.entryFeeCents.toInt * 10000
  single : ∀ m ∈ a.world.db.members.rows, ∀ m' ∈ a.world.db.members.rows,
    a.world.db.membershipOf leagueID userID m → a.world.db.membershipOf leagueID userID m' → m' = m
  ownAddress : ∀ c ∈ confirmations a, ∀ c' ∈ confirmations a,
    c.leagueID = leagueID → c.userID = userID → c'.leagueID = leagueID → c'.address = c.address →
      ∀ m ∈ a.world.db.paidMembers leagueID,
        a.world.db.linkedTo c'.userID m → a.world.db.linkedTo userID m

instance (a : BackendConfig) (leagueID userID : String) : Decidable (MarksOwn a leagueID userID) :=
  decidable_of_iff (_ ∧ _ ∧ _)
    ⟨fun h => ⟨h.1, h.2.1, h.2.2⟩, fun h => ⟨h.fits, h.single, h.ownAddress⟩⟩

/-- A step that marks memberships paid marks one of its own. -/
def MarksOwnStep (a : BackendConfig) (l : BackendLabel) : Prop :=
  match applied a l with
  | some (.markPaid leagueID userID _) => MarksOwn a leagueID userID
  | _ => True

instance (a : BackendConfig) (l : BackendLabel) : Decidable (MarksOwnStep a l) := by
  unfold MarksOwnStep
  split <;> infer_instance

instance (a : BackendConfig) (l : BackendLabel) : Decidable (PaymentsOnly a l) :=
  decidable_of_iff (_ ∧ _ ∧ _)
    ⟨fun h => ⟨h.1, h.2.1, h.2.2⟩, fun h => ⟨h.funds, h.reads, h.fees⟩⟩

/-! ## The fee of a confirmation -/

/-- The fee a thread has read is that of the league. -/
def FeeLearnt (w : World) (t : BackendThread) : Prop :=
  ∀ leagueID userID transactionID, t.job = .confirmPayment leagueID userID transactionID →
    ∀ info ∈ (confirmState t).phase.info, ∀ r ∈ w.db.leagues.rows, r.id = leagueID →
      r.entryFeeCents = info.entryFeeCents

/-- The fee of a league does not change once a thread has read it. -/
theorem FeeLearnt.step {i : ℕ} {t : BackendThread} (h : FeeLearnt a.world t)
    (ht : a.threads[i]? = some t) (hrun : Runs svc crypto ok a) (hok : PaymentsOnly a l)
    (hstep : (backend svc crypto).Step a l b) : FeeLearnt b.world t := by
  intro leagueID userID transactionID hjob info hinfo r' hr' hid
  obtain ⟨hissued, -⟩ := (hrun.learnt i t ht).member _ _ _ hjob info hinfo
  obtain ⟨r, hr, hid', hfee⟩ := hok.fee hstep hissued
    ⟨t, List.mem_of_getElem? ht, by rw [hjob]; rfl⟩ hr' hid
  exact hfee.trans (h _ _ _ hjob info hinfo r hr hid')

/-- In a run without withdrawals every thread knows the fee. -/
theorem Runs.feeLearnt (h : Runs svc crypto ok a) (hok : ∀ a l, ok a l → PaymentsOnly a l) :
    ∀ (i : ℕ) t, a.threads[i]? = some t → FeeLearnt a.world t := by
  induction h with
  | refl => simp [initialConfig]
  | @tail a b hrun hlast ih =>
    obtain ⟨l, hl, hstep⟩ := hlast
    have hkeep : ∀ (i : ℕ) t, a.threads[i]? = some t → FeeLearnt b.world t :=
      fun i t ht => (ih i t ht).step ht hrun (hok _ _ hl) hstep
    intro i t' ht'
    rcases hstep.thread_cases ht' with ⟨req, rfl, rfl⟩ | ⟨ht, -⟩ | ⟨t, rfl, ht, rfl⟩ |
      ⟨t, c, r, next, rfl, ht, hrest, -, hw, rfl⟩
    · intro leagueID userID transactionID _ info hinfo
      cases hinfo
    · exact hkeep i t' ht
    · exact hkeep i t ht
    · intro leagueID userID transactionID hjob info hinfo
      rw [confirmState_answer] at hinfo
      rcases ConfirmState.next_cases (confirmState t) c r with hsame |
        ⟨leagueID', userID', info', hcall, -, hnext⟩ |
        ⟨mirror, info', address, hcall, hphase, -, hnext⟩ |
        ⟨contract, key, address, result, info', found, paid, hcall, hphase, -, -, hnext⟩
      · rw [hsame] at hinfo
        exact hkeep i t ht _ _ _ hjob info hinfo
      · rw [hnext] at hinfo
        obtain rfl : info' = info := Option.some.inj hinfo
        cases hcall
        have hfollows :=
          follows_of_reaches hrun conforms_confirmProtocol (by simp [initialConfig]) i t ht
        obtain ⟨hsame, -, -, hfee⟩ :=
          informed_answer (hfollows.allows hrest) hw (Runs.references hrun)
        rw [(hsame _ _ _ hjob).1]
        exact hfee
      all_goals
        rw [hnext] at hinfo
        obtain rfl : info' = info := Option.some.inj hinfo
        exact hkeep i t ht _ _ _ hjob info' (by simp [hphase, ConfirmPhase.info])

/-- In a run without withdrawals every confirmed payment covers the fee of the league. -/
theorem Runs.confirmed_covers (h : Runs svc crypto ok a) (hok : ∀ a l, ok a l → PaymentsOnly a l)
    {c : Confirmation} (hc : Confirmed a c) : c.Covered a.world ∧
      ∀ r ∈ a.world.db.leagues.rows, r.id = c.leagueID →
        r.entryFeeCents = c.info.entryFeeCents := by
  constructor
  · induction h with
    | refl =>
      obtain ⟨t, ht, -⟩ := hc
      cases ht
    | @tail a b hrun hlast ih =>
      obtain ⟨l, hl, hstep⟩ := hlast
      rcases confirmed_covered hrun hstep (hok _ _ hl).reads hc with hc | hcovered
      · refine (ih hc).step hstep ?_
        rintro key - rfl
        exact (hok _ _ hl).funds
      · exact hcovered
  · obtain ⟨t, ht, hconfirmed⟩ := hc
    obtain ⟨hjob, hphase⟩ := confirmation_eq.mp hconfirmed
    obtain ⟨i, hi⟩ := List.mem_iff_getElem?.mp ht
    exact h.feeLearnt hok i t hi _ _ _ hjob c.info (by simp [hphase, ConfirmPhase.info])

/-! ## The payers -/

/-- Memberships with their confirmations. -/
structure PaidBy (a : BackendConfig) (paid : MemberRow → Prop)
    (payer : String × String → Confirmation) : Prop where
  confirmed : ∀ m ∈ a.world.db.members.rows, paid m → ConfirmedFor a m (payer m.key)
  fits : ∀ m ∈ a.world.db.members.rows, paid m → ∀ r ∈ a.world.db.leagues.rows,
    r.id = m.leagueID → (toMicroUSDC r.entryFeeCents).toInt = r.entryFeeCents.toInt * 10000
  own : ∀ m ∈ a.world.db.members.rows, ∀ m' ∈ a.world.db.members.rows, paid m → paid m' →
    m'.leagueID = m.leagueID → (payer m'.key).address = (payer m.key).address → m'.key = m.key

/-- A thread with a confirmation confirms a payment of its league. -/
theorem Confirmed.confirms {c : Confirmation} (h : Confirmed a c) :
    ∃ t ∈ a.threads, t.job.confirms = some c.leagueID := by
  obtain ⟨t, ht, hconfirmed⟩ := h
  obtain ⟨hjob, -⟩ := confirmation_eq.mp hconfirmed
  refine ⟨t, ht, ?_⟩
  rw [hjob]
  rfl

/-- The payers of memberships stay their payers. -/
theorem PaidBy.step {paid : MemberRow → Prop} {payer : String × String → Confirmation}
    (h : PaidBy a paid payer) (hrefs : References a.world) (hok : PaymentsOnly a l)
    (hstep : (backend svc crypto).Step a l b)
    (hpaid : ∀ m' ∈ b.world.db.members.rows, m'.paymentStatus = .paid →
      ∃ m ∈ a.world.db.members.rows, m.SameMember m' ∧ paid m) :
    PaidBy b (fun m => m.paymentStatus = .paid) payer := by
  constructor
  · intro m' hm' hpaid'
    obtain ⟨m, hm, hsame, hpaidm⟩ := hpaid m' hm' hpaid'
    rw [hsame.1]
    exact (h.confirmed m hm hpaidm).step hstep hsame
  · intro m' hm' hpaid' r' hr' hid
    obtain ⟨m, hm, hsame, hpaidm⟩ := hpaid m' hm' hpaid'
    have hfor := h.confirmed m hm hpaidm
    have hleague' : m'.leagueID = m.leagueID := congrArg Prod.fst hsame.1
    obtain ⟨r, hr, hid', hfee⟩ := hok.fee hstep (hrefs.members m hm)
      (hfor.league ▸ hfor.confirmed.confirms) hr' (hid.trans hleague')
    rw [hfee]
    exact h.fits m hm hpaidm r hr hid'
  · intro m₁' hm₁' m₂' hm₂' hpaid₁ hpaid₂ hleague haddress
    obtain ⟨m₁, hm₁, hsame₁, hpaid₁⟩ := hpaid m₁' hm₁' hpaid₁
    obtain ⟨m₂, hm₂, hsame₂, hpaid₂⟩ := hpaid m₂' hm₂' hpaid₂
    have hleague₁ : m₁'.leagueID = m₁.leagueID := congrArg Prod.fst hsame₁.1
    have hleague₂ : m₂'.leagueID = m₂.leagueID := congrArg Prod.fst hsame₂.1
    rw [hsame₁.1, hsame₂.1] at haddress ⊢
    exact h.own m₁ hm₁ m₂ hm₂ hpaid₁ hpaid₂ (hleague₂ ▸ hleague₁ ▸ hleague) haddress

/-- A confirmation can pay for the memberships it marks if it marks its own. -/
theorem PaidBy.mark {paid : MemberRow → Prop} {payer : String × String → Confirmation}
    {leagueID userID : String} {c : Confirmation} (hrun : Runs svc crypto ok a)
    (h : PaidBy a paid payer)
    (hpaid : ∀ m ∈ a.world.db.members.rows, paid m → m.paymentStatus = .paid)
    (hconfirmed : Confirmed a c) (hleague : c.leagueID = leagueID) (huser : c.userID = userID)
    (hown : MarksOwn a leagueID userID) :
    ∃ payer', PaidBy a (fun m => paid m ∨ a.world.db.membershipOf leagueID userID m) payer' ∧
      ∀ m ∈ a.world.db.members.rows,
        (a.world.db.membershipOf leagueID userID m = true → payer' m.key = c) ∧
        (a.world.db.membershipOf leagueID userID m = false → payer' m.key = payer m.key) := by
  subst hleague huser
  let marked := (a.world.db.members.rows.filter (a.world.db.membershipOf c.leagueID c.userID)).map
    MemberRow.key
  have hmarked : ∀ m ∈ a.world.db.members.rows,
      m.key ∈ marked ↔ a.world.db.membershipOf c.leagueID c.userID m = true := by
    intro m hm
    constructor
    · intro hkey
      obtain ⟨m', hm', hkey⟩ := List.mem_map.mp hkey
      obtain ⟨hm', hmember⟩ := List.mem_filter.mp hm'
      exact Relational.Table.eq_of_key hm' hm hkey ▸ hmember
    · intro hmember
      exact List.mem_map_of_mem (List.mem_filter.mpr ⟨hm, hmember⟩)
  have hmember : ∀ m, a.world.db.membershipOf c.leagueID c.userID m = true ↔
      m.leagueID = c.leagueID ∧ a.world.db.linkedTo c.userID m = true := by
    intro m
    simp [Database.membershipOf]
  -- no membership outside the marked one was paid from the address
  have hother : ∀ m ∈ a.world.db.members.rows, paid m → m.leagueID = c.leagueID →
      (payer m.key).address = c.address → m.key ∈ marked := by
    intro m hm hpaidm hleague haddress
    have hfor := h.confirmed m hm hpaidm
    have hlinked' := hown.ownAddress _ (mem_confirmations.mpr hconfirmed) _
      (mem_confirmations.mpr hfor.confirmed) rfl rfl (hfor.league.trans hleague) haddress m
      (by simp [Database.paidMembers, hm, hleague, hpaid m hm hpaidm]) hfor.linked
    exact (hmarked m hm).mpr ((hmember m).mpr ⟨hleague, hlinked'⟩)
  refine ⟨fun key => if key ∈ marked then c else payer key, ⟨?_, ?_, ?_⟩, fun m hm => ?_⟩
  · intro m hm hpaidm
    by_cases hkey : m.key ∈ marked
    · obtain ⟨hleague, hlinked⟩ := (hmember m).mp ((hmarked m hm).mp hkey)
      rw [if_pos hkey]
      exact hrun.confirmedFor hconfirmed hleague.symm hlinked
    · rw [if_neg hkey]
      exact h.confirmed m hm (hpaidm.resolve_right fun hm' => hkey ((hmarked m hm).mpr hm'))
  · intro m hm hpaidm r hr hid
    rcases hpaidm with hpaidm | hmarkedm
    · exact h.fits m hm hpaidm r hr hid
    · exact hown.fits r hr (hid.trans ((hmember m).mp hmarkedm).1)
  · intro m₁ hm₁ m₂ hm₂ hpaid₁ hpaid₂ hleague haddress
    by_cases hkey₁ : m₁.key ∈ marked
    · have hmember₁ := (hmarked m₁ hm₁).mp hkey₁
      have hleague₁ : m₁.leagueID = c.leagueID := ((hmember m₁).mp hmember₁).1
      have hkey₂ : m₂.key ∈ marked := by
        by_contra hkey₂
        rw [if_pos hkey₁, if_neg hkey₂] at haddress
        exact hkey₂ (hother m₂ hm₂ (hpaid₂.resolve_right fun hm' =>
          hkey₂ ((hmarked m₂ hm₂).mpr hm'))
          (hleague.trans hleague₁) haddress)
      rw [hown.single m₁ hm₁ m₂ hm₂ hmember₁ ((hmarked m₂ hm₂).mp hkey₂)]
    · have hpaid₁ := hpaid₁.resolve_right fun hm' => hkey₁ ((hmarked m₁ hm₁).mpr hm')
      have hkey₂ : m₂.key ∉ marked := by
        intro hkey₂
        have hleague₂ : m₂.leagueID = c.leagueID := ((hmember m₂).mp ((hmarked m₂ hm₂).mp hkey₂)).1
        rw [if_neg hkey₁, if_pos hkey₂] at haddress
        exact hkey₁ (hother m₁ hm₁ hpaid₁ (hleague.symm.trans hleague₂) haddress.symm)
      have hpaid₂ := hpaid₂.resolve_right fun hm' => hkey₂ ((hmarked m₂ hm₂).mpr hm')
      rw [if_neg hkey₁, if_neg hkey₂] at haddress
      exact h.own m₁ hm₁ m₂ hm₂ hpaid₁ hpaid₂ hleague haddress
  · constructor
    · intro hmember'
      exact if_pos ((hmarked m hm).mpr hmember')
    · intro hother'
      exact if_neg fun hkey => by simp [(hmarked m hm).mp hkey] at hother'

/-- The paid memberships have payers in every run whose confirmations mark their own. -/
theorem Runs.paidBy (h : Runs svc crypto ok a)
    (hok : ∀ a l, ok a l → PaymentsOnly a l ∧ MarksOwnStep a l) :
    ∃ payer, PaidBy a (fun m => m.paymentStatus = .paid) payer ∧
      ∀ m ∈ a.world.db.members.rows, m.paymentStatus = .paid →
        m.transactionHash = some (payer m.key).transactionID := by
  induction h with
  | refl =>
    refine ⟨fun _ => ⟨"", "", "", ⟨"", 0, .unpaid⟩, 0⟩, ⟨?_, ?_, ?_⟩, ?_⟩ <;>
      simp [initialConfig, Relational.Table.empty]
  | @tail a b hrun hlast ih =>
    obtain ⟨l, hl, hstep⟩ := hlast
    obtain ⟨payer, hpaid, hhash⟩ := ih
    obtain ⟨honly, hown⟩ := hok a l hl
    have hrefs := Runs.references hrun
    by_cases hmark : ∃ leagueID userID transactionID,
        applied a l = some (.markPaid leagueID userID transactionID)
    · obtain ⟨leagueID, userID, transactionID, hs⟩ := hmark
      obtain ⟨info, address, hconfirmed⟩ := Runs.confirmed hrun hstep hs
      have hown' : MarksOwn a leagueID userID := by
        unfold MarksOwnStep at hown
        rwa [hs] at hown
      obtain ⟨payer', hpaid', hpayer⟩ :=
        hpaid.mark hrun (fun _ _ => id) hconfirmed rfl rfl hown'
      refine ⟨payer', hpaid'.step hrefs honly hstep fun m' hm' hpaidm => ?_,
        fun m' hm' hpaidm => ?_⟩
      · obtain ⟨m, hm, hsame, hcases⟩ := step_paid hstep hm' hpaidm
        refine ⟨m, hm, hsame, hcases.imp And.left ?_⟩
        rintro ⟨leagueID', userID', transactionID', hs', hmember, -⟩
        cases hs.symm.trans hs'
        exact hmember
      · obtain ⟨m, hm, hsame, ⟨hpaid₀, hsamehash, hother⟩ |
          ⟨leagueID', userID', transactionID', hs', hmember, hnewhash⟩⟩ :=
          step_paid hstep hm' hpaidm
        · rw [hsamehash, hsame.1, (hpayer m hm).2 (hother _ _ _ hs)]
          exact hhash m hm hpaid₀
        · cases hs.symm.trans hs'
          rw [hnewhash, hsame.1, (hpayer m hm).1 hmember]
    · simp only [not_exists] at hmark
      refine ⟨payer, hpaid.step hrefs honly hstep fun m' hm' hpaidm => ?_,
        fun m' hm' hpaidm => ?_⟩
      · obtain ⟨m, hm, hsame, hpaid₀, -⟩ := step_stays_paid hstep hmark hm' hpaidm
        exact ⟨m, hm, hsame, hpaid₀⟩
      · obtain ⟨m, hm, hsame, hpaid₀, hsamehash⟩ := step_stays_paid hstep hmark hm' hpaidm
        rw [hsamehash, hsame.1]
        exact hhash m hm hpaid₀

/-- The totals are the sums of the payments in every run without withdrawals. -/
theorem Runs.deposited (h : Runs svc crypto ok a) (hok : ∀ a l, ok a l → KeepsFunds l) :
    Deposited a.world := by
  refine h.invariant (I := fun a => Deposited a.world) ?_
    fun hinv hl hstep => hinv.step hstep (hok _ _ hl)
  intro key
  simp [initialConfig, Storage.pools]

/-- Every paid membership is backed by its own payment in every run whose confirmations mark their
own. -/
theorem paymentsBacked_of_marksOwn
    (h : Runs svc crypto (fun a l => PaymentsOnly a l ∧ MarksOwnStep a l) a) :
    PaymentsBacked a := by
  obtain ⟨payer, hpaid, hhash⟩ := h.paidBy fun _ _ => id
  have hdeposited := h.deposited fun _ _ hl => hl.1.funds
  intro r hr key hkey
  have hmem : ∀ m ∈ a.world.db.paidMembers r.id, m ∈ a.world.db.members.rows ∧
      m.leagueID = r.id ∧ m.paymentStatus = .paid := by
    intro m hm
    simpa [Database.paidMembers] using hm
  have hfee : ∀ m ∈ a.world.db.paidMembers r.id, r.entryFeeCents.toInt * 10000 ≤
      (a.world.storage.payments key (payer m.key).address).val := by
    intro m hm
    obtain ⟨hm, hleague, hpaidm⟩ := hmem m hm
    have hfor := hpaid.confirmed m hm hpaidm
    obtain ⟨⟨key', hkey', hpayment⟩, hfee⟩ :=
      h.confirmed_covers (fun _ _ hl => hl.1) hfor.confirmed
    rw [hfor.league, hleague] at hkey'
    cases hkey.symm.trans hkey'
    rwa [← hfee r hr (hleague.symm.trans hfor.league.symm),
      hpaid.fits m hm hpaidm r hr hleague.symm] at hpayment
  have hown : ∀ m ∈ a.world.db.paidMembers r.id, ∀ m' ∈ a.world.db.paidMembers r.id,
      (payer m'.key).address = (payer m.key).address → m' = m := by
    intro m hm m' hm' haddress
    obtain ⟨hm, hleague, hpaidm⟩ := hmem m hm
    obtain ⟨hm', hleague', hpaidm'⟩ := hmem m' hm'
    exact Relational.Table.eq_of_key hm' hm
      (hpaid.own m hm m' hm' hpaidm hpaidm' (hleague'.trans hleague.symm) haddress)
  have hmarked : ∀ m ∈ a.world.db.paidMembers r.id, MarkedBy a m (payer m.key) := by
    intro m hm
    obtain ⟨hm, -, hpaidm⟩ := hmem m hm
    exact ⟨hpaid.confirmed m hm hpaidm, hhash m hm hpaidm⟩
  refine ⟨?_, fun m => payer m.key, fun m hm => ⟨hmarked m hm, hfee m hm⟩, hown⟩
  have hnodup : ((a.world.db.paidMembers r.id).map fun m => (payer m.key).address).Nodup :=
    (a.world.db.members.unique.of_map.filter _).map_on fun m hm m' hm' heq =>
      (hown m hm m' hm' heq.symm).symm
  have hshare : ∀ address ∈ (a.world.db.paidMembers r.id).map fun m => (payer m.key).address,
      (r.entryFeeCents.toInt * 10000).toNat ≤
        (a.world.storage.pools fun _ => 0).share key address := by
    intro address haddress
    obtain ⟨m, hm, rfl⟩ := List.mem_map.mp haddress
    exact Int.toNat_le.mpr (hfee m hm)
  have hsum := Pools.length_mul_le_sum (a.world.storage.pools fun _ => 0) key
    hnodup hshare
  have hbalance : (a.world.storage.leagueTotals key).val + 0 = _ := hdeposited key
  rw [List.length_map, ← hbalance, Nat.add_zero] at hsum
  calc ((a.world.db.paidMembers r.id).length : ℤ) * (r.entryFeeCents.toInt * 10000)
      ≤ (a.world.db.paidMembers r.id).length * ((r.entryFeeCents.toInt * 10000).toNat : ℤ) :=
        Int.mul_le_mul_of_nonneg_left (Int.self_le_toNat _) (Int.natCast_nonneg _)
    _ ≤ (a.world.storage.leagueTotals key).val := by exact_mod_cast hsum

/-! ## Runs -/

/-- Two confirmed payments of two members are such a run. -/
theorem exists_paymentsBacked : ∃ a,
    Runs .mock .mock (fun a l => PaymentsOnly a l ∧ MarksOwnStep a l) a ∧
      (a.world.db.paidMembers Schedule.leagueID).length = 2 ∧ PaymentsBacked a := by
  obtain ⟨a, hrun, hpaid⟩ := Schedule.twoPayments.exists_run .mock .mock
    (fun a l => PaymentsOnly a l ∧ MarksOwnStep a l)
    (fun a => (a.world.db.paidMembers Schedule.leagueID).length = 2) (by decide +kernel)
  exact ⟨a, hrun, hpaid, paymentsBacked_of_marksOwn hrun⟩

/-- One user links two members of a league and pays one fee, which is confirmed. -/
def twoAccounts : Schedule :=
  Schedule.signUp 0 "0.0.9" "n1" "u1" ++ Schedule.link 1 "u1" "sleeper" (.mock "p1") "f1" ++
    Schedule.link 2 "u1" "sleeper" (.mock "p2") "f2" ++
    Schedule.importLeague 3 "u1" "sleeper" (.mock "in_season")
      [.mock "p1" 1 true, .mock "p2" 2 false]
      Schedule.leagueID ++
    [.spawn (.updateLeagueSettings Schedule.leagueID "u1" ⟨100, some []⟩), .call 4 (.succeed 0 ""),
      .call 4 (.succeed 0 "f3"), .call 4 (.succeed 0 ""),
      .env (.payEntryFee 9 Schedule.leagueKey Schedule.dollar)] ++ Schedule.confirm 5 "u1" "f4"

/-- One payment marks both memberships paid. -/
theorem exists_payment_shared :
    ∃ a, Runs .mock .mock PaymentsOnly a ∧ ¬ PaymentsBacked a := by
  obtain ⟨a, hrun, ⟨r, hr, hid, hfee⟩, hpaid, htotal⟩ :=
    twoAccounts.exists_run .mock .mock PaymentsOnly
    (fun a => (∃ r ∈ a.world.db.leagues.rows, r.id = Schedule.leagueID ∧ r.entryFeeCents = 100) ∧
      (a.world.db.paidMembers Schedule.leagueID).length = 2 ∧
        (a.world.storage.leagueTotals Schedule.leagueKey).val = 1000000) (by decide +kernel)
  refine ⟨a, hrun, fun hbacked => ?_⟩
  have hkey : uuidToBytes32 r.id = .ok Schedule.leagueKey := by
    rw [hid]
    decide +kernel
  obtain ⟨hcovered, -⟩ := hbacked r hr _ hkey
  rw [hid, hpaid, htotal, hfee] at hcovered
  exact absurd hcovered (by decide)

end Wagr
