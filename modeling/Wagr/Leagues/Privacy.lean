import Wagr.Service.Reads
import Wagr.Service.Scenario
import Wagr.Service.Footprint

/-!
# What non-members learn

Two databases that differ only in the memberships of one league, to none of which the user is
linked, give the same answers to every query about the user and to every query about another
league. The endpoint that returns the league with its members asks nobody whether they belong
to it: its responses are the same only if the league has the same members in both databases. The
endpoint serves a league under every spelling of its ID.
-/

namespace Wagr

open Interaction Protocol Program

/-- The databases differ only in the memberships of the league. -/
structure SameOutside (leagueID : String) (db db' : Database) : Prop where
  users : db.users = db'.users
  profiles : db.profiles = db'.profiles
  leagues : db.leagues = db'.leagues
  weeklyEvents : db.weeklyEvents = db'.weeklyEvents
  members : ∀ m : MemberRow, m.leagueID ≠ leagueID →
    (m ∈ db.members.rows ↔ m ∈ db'.members.rows)

/-- The user is linked to no membership of the league. -/
def NotLinked (db : Database) (leagueID userID : String) : Prop :=
  db.userMemberships leagueID userID = []

/-- The members of a league, as rows of the list. -/
def Database.memberList (db : Database) (leagueID : String) : List LeagueMember :=
  (db.members.rows.filter fun m => m.leagueID = leagueID).flatMap db.memberRows

variable {leagueID leagueID' text userID : String} {db db' : Database}

/-! ## Queries -/

/-- A stream delivers a list in any order. -/
theorem delivers_congr {α : Type} {s : RowStream α} {all all' : List α} {sorted : List α → Prop}
    (h : all.Perm all') : s.Delivers all sorted ↔ s.Delivers all' sorted := by
  constructor
  · rintro ⟨order, horder, hrest⟩
    exact ⟨order, horder.trans h, hrest⟩
  · rintro ⟨order, horder, hrest⟩
    exact ⟨order, horder.trans h.symm, hrest⟩

namespace SameOutside

/-- The relation is symmetric. -/
theorem symm (h : SameOutside leagueID db db') : SameOutside leagueID db' db :=
  ⟨h.users.symm, h.profiles.symm, h.leagues.symm, h.weeklyEvents.symm,
    fun m hm => (h.members m hm).symm⟩

/-- Another league has the same memberships. -/
theorem members_perm (h : SameOutside leagueID db db') (hother : leagueID' ≠ leagueID) :
    (db.members.rows.filter fun m => m.leagueID = leagueID').Perm
      (db'.members.rows.filter fun m => m.leagueID = leagueID') := by
  have hnodup := fun db : Database => (List.Nodup.of_map _ db.members.unique).filter
    fun m => decide (m.leagueID = leagueID')
  refine (List.perm_ext_iff_of_nodup (hnodup db) (hnodup db')).mpr fun m => ?_
  simp only [List.mem_filter, decide_eq_true_eq]
  constructor
  · rintro ⟨hm, rfl⟩
    exact ⟨(h.members m hother).mp hm, rfl⟩
  · rintro ⟨hm, rfl⟩
    exact ⟨(h.members m hother).mpr hm, rfl⟩

/-- A membership is joined to the same profiles and users. -/
theorem memberRows (h : SameOutside leagueID db db') : db.memberRows = db'.memberRows := by
  funext m
  simp only [Database.memberRows, Database.memberRow, Database.walletOf, h.users, h.profiles]

/-- Another league has the same members. -/
theorem memberList (h : SameOutside leagueID db db') (hother : leagueID' ≠ leagueID) :
    (db.memberList leagueID').Perm (db'.memberList leagueID') := by
  rw [Database.memberList, Database.memberList, h.memberRows]
  exact (h.members_perm hother).flatMap_right _

/-- The user has the same memberships in every league. -/
theorem userMemberships (h : SameOutside leagueID db db') (hu : NotLinked db leagueID userID)
    (hu' : NotLinked db' leagueID userID) (leagueID' : String) :
    (db.userMemberships leagueID' userID).Perm (db'.userMemberships leagueID' userID) := by
  by_cases heq : leagueID' = leagueID
  · subst heq
    rw [hu, hu']
  · simp only [Database.userMemberships, h.profiles]
    exact (h.members_perm heq).flatMap_right _

/-- The user is a member of the same leagues. -/
theorem userMemberships_eq_nil (h : SameOutside leagueID db db')
    (hu : NotLinked db leagueID userID) (hu' : NotLinked db' leagueID userID)
    (leagueID' : String) :
    db.userMemberships leagueID' userID = [] ↔ db'.userMemberships leagueID' userID = [] := by
  have hperm := h.userMemberships hu hu' leagueID'
  constructor
  · intro hnil
    rw [hnil] at hperm
    exact List.nil_perm.mp hperm
  · intro hnil
    rw [hnil] at hperm
    exact List.perm_nil.mp hperm

/-- The user is commissioner of the same leagues. -/
theorem ownsMembership (h : SameOutside leagueID db db') (hu : NotLinked db leagueID userID)
    (hu' : NotLinked db' leagueID userID) (leagueID' : String) :
    db.ownsMembership leagueID' userID = db'.ownsMembership leagueID' userID :=
  (h.userMemberships hu hu' leagueID').any_eq

/-- The user's leagues are the same. -/
theorem userLeagues (h : SameOutside leagueID db db') (hu : NotLinked db leagueID userID)
    (hu' : NotLinked db' leagueID userID) : db.userLeagues userID = db'.userLeagues userID := by
  simp only [Database.userLeagues, h.leagues, h.userMemberships_eq_nil hu hu',
    h.ownsMembership hu hu', ne_eq]

/-- What the read endpoints may ask about a user without asking for the members of a league. -/
def asks (leagueID userID : String) : Call → Prop
  | .query (.userLeagues userID') => userID' = userID
  | .query (.league _) => True
  | .query (.leagueSettings _ userID') => userID' = userID
  | .query (.isMember _ userID') => userID' = userID
  | .query (.leagueMembers text) => uuidText text ≠ some leagueID
  | _ => False

/-- These calls get the same answers. -/
theorem mayAnswerText_iff (h : SameOutside leagueID db db') (hu : NotLinked db leagueID userID)
    (hu' : NotLinked db' leagueID userID) {c : Call} (hc : asks leagueID userID c) (r : Ret c) :
    mayAnswerText db c r ↔ mayAnswerText db' c r := by
  cases c with
  | query q =>
    cases r with
    | error e => exact Iff.rfl
    | ok r =>
      cases q with
      | userLeagues userID' =>
        obtain rfl : userID' = userID := hc
        change RowStream.Delivers r _ _ ↔ RowStream.Delivers r _ _
        rw [h.userLeagues hu hu']
      | league text =>
        refine exists_congr fun leagueID' => and_congr_right fun _ => ?_
        change r = _ ↔ r = _
        rw [h.leagues]
      | leagueSettings text userID' =>
        obtain rfl : userID' = userID := hc
        refine exists_congr fun leagueID' => and_congr_right fun _ => ?_
        change r = _ ↔ r = _
        rw [h.leagues, h.ownsMembership hu hu']
      | isMember text userID' =>
        obtain rfl : userID' = userID := hc
        refine exists_congr fun leagueID' => and_congr_right fun _ => ?_
        change r = decide _ ↔ r = decide _
        simp only [ne_eq, h.userMemberships_eq_nil hu hu']
      | leagueMembers text =>
        refine exists_congr fun leagueID' => and_congr_right fun htext => ?_
        have hother : leagueID' ≠ leagueID := fun heq => hc (htext.trans (congrArg some heq))
        exact delivers_congr (h.memberList hother)
      | _ => exact hc.elim
  | _ => exact hc.elim

end SameOutside

/-! ## Endpoints -/

/-- The queries that an endpoint asks for a user. -/
def ReadEndpoint.queries (userID : String) : ReadEndpoint → List Query
  | .userLeagues => [.userLeagues userID]
  | .league text => [.league text, .leagueMembers text]
  | .settings text => [.leagueSettings text userID]
  | .paymentStatus text => [.isMember text userID, .leagueMembers text]

/-- An endpoint calls nothing else. -/
theorem calls_respond {p : Call → Prop} {e : ReadEndpoint}
    (h : ∀ q ∈ e.queries userID, p (.query q)) : Calls p (e.respond (some userID)) := by
  cases e with
  | userLeagues =>
    have hcalls : Calls p (getUserLeagues userID).run :=
      .run_bind (.wrapErr (.query (h _ (by simp [ReadEndpoint.queries])))) fun _ =>
        .wrapErr trivial
    refine .bind hcalls fun r => ?_
    cases r <;> trivial
  | league text =>
    refine .ite (fun _ => trivial) fun _ => ?_
    have hcalls : Calls p (getLeague text).run :=
      .wrapErr (.run_bind (.query (h _ (by simp [ReadEndpoint.queries]))) fun _ => trivial)
    refine .bind hcalls fun r => ?_
    cases r with
    | error e => trivial
    | ok league =>
      refine .bind (calls_getLeagueMembers (h _ (by simp [ReadEndpoint.queries]))) fun r => ?_
      cases r <;> trivial
  | settings text =>
    refine .bind (calls_getLeagueSettings (h _ (by simp [ReadEndpoint.queries]))) fun r => ?_
    cases r <;> trivial
  | paymentStatus text =>
    have hcalls : Calls p (getPaymentStatus text userID).run :=
      .run_bind (.wrapErr (.query (h _ (by simp [ReadEndpoint.queries])))) fun _ =>
        .run_ite (fun _ => calls_getLeagueMembers (h _ (by simp [ReadEndpoint.queries])))
          fun _ => trivial
    refine .bind hcalls fun r => ?_
    cases r with
    | ok members => trivial
    | error e => exact .ite (fun _ => trivial) fun _ => trivial

/-- Only the endpoints of the league and of its payment status ask for the members of the league. -/
theorem asks_of_mem_queries {e : ReadEndpoint}
    (hleague : ∀ text, e = .league text → uuidText text ≠ some leagueID)
    (hstatus : ∀ text, e = .paymentStatus text → uuidText text ≠ some leagueID) {q : Query}
    (hq : q ∈ e.queries userID) : SameOutside.asks leagueID userID (.query q) := by
  cases e with
  | userLeagues =>
    obtain rfl := List.mem_singleton.mp hq
    rfl
  | league text =>
    obtain rfl | hq := List.mem_cons.mp hq
    · trivial
    · obtain rfl := List.mem_singleton.mp hq
      exact hleague text rfl
  | settings text =>
    obtain rfl := List.mem_singleton.mp hq
    rfl
  | paymentStatus text =>
    obtain rfl | hq := List.mem_cons.mp hq
    · rfl
    · obtain rfl := List.mem_singleton.mp hq
      exact hstatus text rfl

/-- The text that the path of an endpoint has for a league ID. -/
def ReadEndpoint.leagueText : ReadEndpoint → Option String
  | .userLeagues => none
  | .league text => some text
  | .settings text => some text
  | .paymentStatus text => some text

/-- An ID as the database prints it gets the responses of its own spelling. -/
theorem respondsText_printed {e : ReadEndpoint} {resp : HTTPResponse}
    (h : ∀ id ∈ e.leagueText, ∃ text, uuidText text = some id) :
    e.RespondsText db userID resp ↔ e.Responds db userID resp := by
  have hprinted : ∀ id ∈ e.leagueText, ∀ p : String → Prop,
      (∃ leagueID, uuidText id = some leagueID ∧ p leagueID) ↔ p id := by
    intro id hid p
    obtain ⟨text, htext⟩ := h id hid
    simp [uuidText_printed htext]
  have hcalls : Calls (fun c => ∀ r, mayAnswerText db c r ↔ mayAnswer db c r)
      (e.respond (some userID)) := by
    refine calls_respond fun q hq r => ?_
    cases r with
    | error err => exact Iff.rfl
    | ok r =>
      cases e with
      | userLeagues =>
        obtain rfl := List.mem_singleton.mp hq
        exact Iff.rfl
      | league id =>
        obtain rfl | hq := List.mem_cons.mp hq
        · exact hprinted id rfl fun id => (Query.league id).Answers db r
        · obtain rfl := List.mem_singleton.mp hq
          exact hprinted id rfl fun id => (Query.leagueMembers id).Answers db r
      | settings id =>
        obtain rfl := List.mem_singleton.mp hq
        exact hprinted id rfl fun id => (Query.leagueSettings id userID).Answers db r
      | paymentStatus id =>
        obtain rfl | hq := List.mem_cons.mp hq
        · exact hprinted id rfl fun id => (Query.isMember id userID).Answers db r
        · obtain rfl := List.mem_singleton.mp hq
          exact hprinted id rfl fun id => (Query.leagueMembers id).Answers db r
  exact hcalls.returns_congr fun c hc => hc

/-- What loading the members returns. -/
theorem returns_getLeagueMembers {may : (c : Call) → Ret c → Prop}
    {r : Except GoError (List LeagueMember)} :
    (getLeagueMembers leagueID).run.Returns may r ↔
      ∃ answer, may (.query (.leagueMembers leagueID)) answer ∧
        r = (answer.mapError (.wrap "failed to query league members")).map RowStream.rows := by
  simp only [getLeagueMembers, returns_run_bind, returns_wrapErr, returns_query]
  constructor
  · rintro ⟨stream, ⟨answer, hanswer, rfl⟩, hr⟩
    refine ⟨answer, hanswer, ?_⟩
    cases answer with
    | error e => exact hr
    | ok stream => exact returns_pure.mp hr
  · rintro ⟨answer, hanswer, rfl⟩
    refine ⟨_, ⟨answer, hanswer, rfl⟩, ?_⟩
    cases answer with
    | error e => rfl
    | ok stream => exact returns_pure.mpr rfl

/-- What looking up the league returns. -/
theorem returns_getLeague {may : (c : Call) → Ret c → Prop} {r : Except GoError League} :
    (getLeague leagueID).run.Returns may r ↔
      ∃ answer, may (.query (.league leagueID)) answer ∧
        r = (answer.bind scanLeague).mapError (.wrap "failed to get league") := by
  simp only [getLeague, returns_wrapErr, returns_run_bind]
  constructor
  · rintro ⟨r', ⟨answer, hanswer, hr'⟩, rfl⟩
    refine ⟨answer, (returns_query (q := .league leagueID)).mp hanswer, ?_⟩
    cases answer with
    | error e =>
      obtain rfl := hr'
      rfl
    | ok row =>
      obtain rfl := returns_pure.mp hr'
      rfl
  · rintro ⟨answer, hanswer, rfl⟩
    refine ⟨answer.bind scanLeague,
      ⟨answer, (returns_query (q := .league leagueID)).mpr hanswer, ?_⟩, rfl⟩
    cases answer with
    | error e => rfl
    | ok row => exact returns_pure.mpr rfl

/-- The response with a league and its members. -/
def membersResponse (league : League) : Except GoError (RowStream LeagueMember) → HTTPResponse
  | .error err => ⟨500, .error (.wrap "failed to query league members" err)⟩
  | .ok stream => ⟨200, .league league stream.rows⟩

/-- What the endpoint of the league responds. -/
theorem responds_league {resp : HTTPResponse} (hne : text ≠ "") :
    (ReadEndpoint.league text).RespondsText db userID resp ↔
      ∃ answer, mayAnswerText db (.query (.league text)) answer ∧
        match answer.bind scanLeague with
        | .error err => resp = ⟨404, .error (.wrap "failed to get league" err)⟩
        | .ok league => ∃ answer', mayAnswerText db (.query (.leagueMembers text)) answer' ∧
          resp = membersResponse league answer' := by
  simp only [ReadEndpoint.RespondsText, ReadEndpoint.respond, Handler.getLeague, if_neg hne,
    returns_bind, returns_getLeague]
  constructor
  · rintro ⟨_, ⟨answer, hanswer, rfl⟩, hresp⟩
    refine ⟨answer, hanswer, ?_⟩
    cases hscan : answer.bind scanLeague with
    | error err =>
      rw [hscan] at hresp
      exact returns_pure.mp hresp
    | ok league =>
      rw [hscan] at hresp
      obtain ⟨_, hmembers, hresp⟩ := returns_bind.mp hresp
      obtain ⟨answer', hanswer', rfl⟩ := returns_getLeagueMembers.mp hmembers
      refine ⟨answer', hanswer', ?_⟩
      cases answer' <;> exact returns_pure.mp hresp
  · rintro ⟨answer, hanswer, hresp⟩
    refine ⟨_, ⟨answer, hanswer, rfl⟩, ?_⟩
    cases hscan : answer.bind scanLeague with
    | error err =>
      rw [hscan] at hresp
      exact returns_pure.mpr hresp
    | ok league =>
      rw [hscan] at hresp
      obtain ⟨answer', hanswer', rfl⟩ := hresp
      refine returns_bind.mpr ⟨_, returns_getLeagueMembers.mpr ⟨answer', hanswer', rfl⟩, ?_⟩
      cases answer' <;> exact returns_pure.mpr rfl

/-- A user who is not linked to the league is not told the payment status of its members. -/
theorem responds_paymentStatus {resp : HTTPResponse} (htext : uuidText text = some leagueID)
    (hu : NotLinked db leagueID userID) :
    (ReadEndpoint.paymentStatus text).RespondsText db userID resp ↔
      resp = ⟨403, .message "forbidden"⟩ ∨
        ∃ err : GoError, err.is .notLeagueMember = false ∧
          resp = ⟨500, .error (.wrap "failed to verify league membership" err)⟩ := by
  have hreturns : ∀ r : Except GoError (List LeagueMember),
      (getPaymentStatus text userID).run.Returns (mayAnswerText db) r ↔
        ∃ err, r = .error err ∧ (err = .notLeagueMember ∨
          ∃ e, err = .wrap "failed to verify league membership" e) := by
    intro r
    simp only [getPaymentStatus, returns_run_bind, returns_wrapErr]
    constructor
    · rintro ⟨_, ⟨answer, hanswer, rfl⟩, hr⟩
      have hanswer := (returns_query (q := .isMember text userID)).mp hanswer
      cases answer with
      | error e => exact ⟨_, hr, .inr ⟨e, rfl⟩⟩
      | ok found =>
        obtain ⟨leagueID', htext', hanswer⟩ := hanswer
        obtain rfl : leagueID = leagueID' := Option.some.inj (htext.symm.trans htext')
        obtain rfl : found = decide (db.userMemberships leagueID userID ≠ []) := hanswer
        rw [show db.userMemberships leagueID userID = [] from hu] at hr
        exact ⟨_, returns_pure.mp hr, .inl rfl⟩
    · rintro ⟨err, rfl, rfl | ⟨e, rfl⟩⟩
      · refine ⟨.ok false, ⟨.ok false, (returns_query (q := .isMember text userID)).mpr ?_,
          rfl⟩, returns_pure.mpr rfl⟩
        refine ⟨leagueID, htext, ?_⟩
        change false = decide (db.userMemberships leagueID userID ≠ [])
        rw [show db.userMemberships leagueID userID = [] from hu]
        rfl
      · exact ⟨.error _,
          ⟨.error e, (returns_query (q := .isMember text userID)).mpr trivial, rfl⟩, rfl⟩
  simp only [ReadEndpoint.RespondsText, ReadEndpoint.respond, Handler.getPaymentStatus,
    returns_bind, hreturns]
  constructor
  · rintro ⟨_, ⟨err, rfl, herr⟩, hresp⟩
    dsimp only at hresp
    by_cases his : err.is .notLeagueMember = true
    · rw [if_pos his] at hresp
      exact .inl (returns_pure.mp hresp)
    · rw [if_neg his] at hresp
      rcases herr with rfl | ⟨e, rfl⟩
      · exact absurd rfl his
      · refine .inr ⟨e, ?_, returns_pure.mp hresp⟩
        simpa [GoError.is] using his
  · rintro (rfl | ⟨e, he, rfl⟩)
    · refine ⟨_, ⟨_, rfl, .inl rfl⟩, ?_⟩
      exact returns_pure.mpr rfl
    · refine ⟨_, ⟨_, rfl, .inr ⟨e, rfl⟩⟩, ?_⟩
      have his : ¬ (GoError.wrap "failed to verify league membership" e).is .notLeagueMember := by
        simpa [GoError.is] using he
      dsimp only
      rw [if_neg his]
      exact returns_pure.mpr rfl

/-! ## The same responses -/

/-- The league has a row with a status. -/
def Readable (db : Database) (leagueID : String) : Prop :=
  ∃ row, db.leagues.lookup leagueID = some row ∧ row.status.isSome

/-- The row of a readable league is scanned. -/
theorem Readable.scan (h : Readable db leagueID) :
    ∃ league, scanLeague (db.leagues.lookup leagueID) = .ok league := by
  obtain ⟨row, hrow, hstatus⟩ := h
  obtain ⟨status, hstatus⟩ := Option.isSome_iff_exists.mp hstatus
  rw [hrow]
  simp [scanLeague, LeagueRow.scan, hstatus]

/-- Without such a row there is no league. -/
theorem scan_of_not_readable (h : ¬ Readable db leagueID) :
    ∃ err, scanLeague (db.leagues.lookup leagueID) = .error err := by
  cases hrow : db.leagues.lookup leagueID with
  | none => exact ⟨_, rfl⟩
  | some row =>
    have hstatus : row.status = none := by
      by_contra hne
      exact h ⟨row, hrow, Option.isSome_iff_ne_none.mpr hne⟩
    simp only [scanLeague, LeagueRow.scan, hstatus]
    exact ⟨_, rfl⟩

/-- The empty text is no `uuid`. -/
theorem ne_empty_of_uuidText (h : uuidText text = some leagueID) : text ≠ "" := by
  rintro rfl
  cases h

/-- The endpoint of the league finds its row. -/
theorem mayAnswerText_league (htext : uuidText text = some leagueID)
    {answer : Except GoError (Option LeagueRow)} :
    mayAnswerText db (.query (.league text)) answer ↔
      ∀ row, answer = .ok row → row = db.leagues.lookup leagueID := by
  cases answer with
  | error err =>
    refine iff_of_true trivial fun row heq => ?_
    cases heq
  | ok row =>
    constructor
    · rintro ⟨leagueID', htext', hrow⟩ _ ⟨⟩
      obtain rfl : leagueID = leagueID' := Option.some.inj (htext.symm.trans htext')
      exact hrow
    · exact fun hrow => ⟨leagueID, htext, hrow row rfl⟩

/-- The endpoint of the league loads its members. -/
theorem mayAnswerText_leagueMembers (htext : uuidText text = some leagueID)
    {answer : Except GoError (RowStream LeagueMember)} :
    mayAnswerText db (.query (.leagueMembers text)) answer ↔
      ∀ stream, answer = .ok stream → (Query.leagueMembers leagueID).Answers db stream := by
  cases answer with
  | error err =>
    refine iff_of_true trivial fun stream heq => ?_
    cases heq
  | ok stream =>
    constructor
    · rintro ⟨leagueID', htext', hstream⟩ _ ⟨⟩
      obtain rfl : leagueID = leagueID' := Option.some.inj (htext.symm.trans htext')
      exact hstream
    · exact fun hstream => ⟨leagueID, htext, hstream stream rfl⟩

/-- The endpoint of the league responds with its members, in some order. -/
theorem responds_memberList (userID : String) (htext : uuidText text = some leagueID)
    {league : League} (hleague : scanLeague (db.leagues.lookup leagueID) = .ok league) :
    ∃ members : List LeagueMember, members.Perm (db.memberList leagueID) ∧
      (ReadEndpoint.league text).RespondsText db userID ⟨200, .league league members⟩ := by
  let members := (db.memberList leagueID).insertionSort fun m m' => m.rosterID ≤ m'.rosterID
  have hanswers : (Query.leagueMembers leagueID).Answers db (RowStream.all members) :=
    Query.eval_answers rfl
  have hrow : mayAnswerText db (.query (.league text)) (.ok (db.leagues.lookup leagueID)) :=
    (mayAnswerText_league htext).mpr fun row heq => (Except.ok.inj heq).symm
  refine ⟨members, List.perm_insertionSort _ _,
    (responds_league (ne_empty_of_uuidText htext)).mpr ⟨_, hrow, ?_⟩⟩
  change match scanLeague (db.leagues.lookup leagueID) with
    | .error err => _
    | .ok league => _
  rw [hleague]
  refine ⟨.ok (RowStream.all members), (mayAnswerText_leagueMembers htext).mpr ?_, rfl⟩
  rintro _ ⟨⟩
  exact hanswers

/-- The members it responds with are members of the league. -/
theorem subperm_of_responds (htext : uuidText text = some leagueID) {league : League}
    {members : List LeagueMember}
    (h : (ReadEndpoint.league text).RespondsText db userID ⟨200, .league league members⟩) :
    members.Subperm (db.memberList leagueID) := by
  obtain ⟨answer, -, hresp⟩ := (responds_league (ne_empty_of_uuidText htext)).mp h
  cases hscan : answer.bind scanLeague with
  | error err =>
    rw [hscan] at hresp
    simp at hresp
  | ok league' =>
    rw [hscan] at hresp
    obtain ⟨answer', hanswer', hresp⟩ := hresp
    cases answer' with
    | error err => simp [membersResponse] at hresp
    | ok stream =>
      obtain ⟨order, hperm, -, hprefix, -⟩ :=
        (mayAnswerText_leagueMembers htext).mp hanswer' stream rfl
      simp only [membersResponse, HTTPResponse.mk.injEq, ResponseBody.league.injEq,
        true_and] at hresp
      obtain ⟨-, rfl⟩ := hresp
      exact hprefix.sublist.subperm.trans hperm.subperm

/-- If the endpoint of a readable league responds the same, the league has the same members. -/
theorem memberList_perm_of_responds (htext : uuidText text = some leagueID)
    (hleagues : db.leagues = db'.leagues) (hreadable : Readable db leagueID)
    (hsame : ∀ resp, (ReadEndpoint.league text).RespondsText db userID resp ↔
      (ReadEndpoint.league text).RespondsText db' userID resp) :
    (db.memberList leagueID).Perm (db'.memberList leagueID) := by
  obtain ⟨league, hleague⟩ := hreadable.scan
  have hleague' : scanLeague (db'.leagues.lookup leagueID) = .ok league := hleagues ▸ hleague
  obtain ⟨members, hperm, hresp⟩ := responds_memberList userID htext hleague
  obtain ⟨members', hperm', hresp'⟩ := responds_memberList userID htext hleague'
  have hsub := subperm_of_responds htext ((hsame _).mp hresp)
  have hsub' := subperm_of_responds htext ((hsame _).mpr hresp')
  exact (hperm.symm.subperm.trans hsub).antisymm (hperm'.symm.subperm.trans hsub')

/-- The endpoint of the league responds the same if its league cannot be read, or has the same
members. -/
theorem responds_league_congr (h : SameOutside leagueID db db')
    (htext : uuidText text = some leagueID)
    (hmembers : Readable db leagueID → (db.memberList leagueID).Perm (db'.memberList leagueID))
    (resp : HTTPResponse) :
    (ReadEndpoint.league text).RespondsText db userID resp ↔
      (ReadEndpoint.league text).RespondsText db' userID resp := by
  have hne := ne_empty_of_uuidText htext
  rw [responds_league hne, responds_league hne]
  refine exists_congr fun answer => ?_
  rw [mayAnswerText_league htext, mayAnswerText_league htext, ← h.leagues]
  refine and_congr_right fun hanswer => ?_
  cases hscan : answer.bind scanLeague with
  | error err => exact Iff.rfl
  | ok league =>
    have hreadable : Readable db leagueID := by
      cases answer with
      | error err => cases hscan
      | ok row =>
        obtain rfl : row = db.leagues.lookup leagueID := hanswer row rfl
        by_contra hnot
        obtain ⟨err, herr⟩ := scan_of_not_readable hnot
        exact absurd (hscan.symm.trans herr) (by simp)
    refine exists_congr fun answer' => and_congr_left fun _ => ?_
    rw [mayAnswerText_leagueMembers htext, mayAnswerText_leagueMembers htext]
    exact forall_congr' fun stream => imp_congr_right fun _ => delivers_congr (hmembers hreadable)

/-- For a user who is linked to no membership of the league, every read endpoint responds the same
to two databases that differ only in those memberships, except the endpoint of the league itself,
however the path spells its ID: there a league that can be read must have the same members in
both. -/
theorem readsAgree_iff (h : SameOutside leagueID db db') (hu : NotLinked db leagueID userID)
    (hu' : NotLinked db' leagueID userID) (e : ReadEndpoint) :
    (∀ resp, e.RespondsText db userID resp ↔ e.RespondsText db' userID resp) ↔
      ((∃ text, e = .league text ∧ uuidText text = some leagueID) → Readable db leagueID →
        (db.memberList leagueID).Perm (db'.memberList leagueID)) := by
  by_cases hleague : ∃ text, e = .league text ∧ uuidText text = some leagueID
  · obtain ⟨text, rfl, htext⟩ := hleague
    constructor
    · exact fun hsame _ hreadable => memberList_perm_of_responds htext h.leagues hreadable hsame
    · exact fun hmembers => responds_league_congr h htext (hmembers ⟨text, rfl, htext⟩)
  · refine ⟨fun _ hspelled => absurd hspelled hleague, fun _ resp => ?_⟩
    by_cases hstatus : ∃ text, e = .paymentStatus text ∧ uuidText text = some leagueID
    · obtain ⟨text, rfl, htext⟩ := hstatus
      rw [responds_paymentStatus htext hu, responds_paymentStatus htext hu']
    · have hcalls : Calls (SameOutside.asks leagueID userID) (e.respond (some userID)) :=
        calls_respond fun q hq => asks_of_mem_queries
          (fun text he htext => hleague ⟨text, he, htext⟩)
          (fun text he htext => hstatus ⟨text, he, htext⟩) hq
      exact hcalls.returns_congr fun c hc r => h.mayAnswerText_iff hu hu' hc r

/-- A database with one league and one member, who has paid or not. -/
def oneMember (paymentStatus : PaymentStatus) (transactionHash : Option String) : Database where
  leagues := ⟨[
    { id := "11111111-2222-3333-4444-555555555555"
      platform := "sleeper"
      platformLeagueID := "784512"
      name := "Home League"
      sport := "nfl"
      season := "2025"
      status := some "in_season"
      totalRosters := 1
      scoringType := "ppr"
      createdAt := 0
      updatedAt := 0 }], by simp⟩
  members := ⟨[
    { id := "22222222-3333-4444-5555-666666666666"
      leagueID := "11111111-2222-3333-4444-555555555555"
      platform := "sleeper"
      platformUserID := "1001"
      platformUsername := "alice"
      teamName := "Aces"
      displayName := "Alice"
      avatarURL := ""
      isOwner := true
      rosterID := 1
      wins := 0
      losses := 0
      ties := 0
      totalPoints := 0
      createdAt := 0
      paymentStatus := paymentStatus
      transactionHash := transactionHash }], by simp⟩

/-- The payment of the one member is no difference outside the league. -/
theorem oneMember_sameOutside {s s' : PaymentStatus} {t t' : Option String} :
    SameOutside "11111111-2222-3333-4444-555555555555" (oneMember s t) (oneMember s' t') := by
  refine ⟨rfl, rfl, rfl, rfl, fun m hm => ?_⟩
  constructor
  · intro hmem
    obtain rfl := List.mem_singleton.mp hmem
    exact absurd rfl hm
  · intro hmem
    obtain rfl := List.mem_singleton.mp hmem
    exact absurd rfl hm

/-- The payment status of the one member cannot be told from the responses to a stranger. -/
theorem oneMember_paymentStatus :
    NotLinked (oneMember .paid (some "0.0.1001@1")) "11111111-2222-3333-4444-555555555555"
        "stranger" ∧
      ∀ resp : HTTPResponse,
        (ReadEndpoint.paymentStatus "11111111-2222-3333-4444-555555555555").RespondsText
            (oneMember .paid (some "0.0.1001@1")) "stranger" resp ↔
          (ReadEndpoint.paymentStatus "11111111-2222-3333-4444-555555555555").RespondsText
            (oneMember .unpaid none) "stranger" resp :=
  ⟨rfl, (readsAgree_iff oneMember_sameOutside rfl rfl _).mpr fun h => by
    obtain ⟨text, he, -⟩ := h
    cases he⟩

/-- A stranger is told by the endpoint of the league whether its member has paid, under the ID as
the database prints it and under another spelling. -/
theorem exists_readsDiffer :
    SameOutside "11111111-2222-3333-4444-555555555555" (oneMember .paid (some "0.0.1001@1"))
        (oneMember .unpaid none) ∧
      NotLinked (oneMember .paid (some "0.0.1001@1"))
        "11111111-2222-3333-4444-555555555555" "stranger" ∧
      NotLinked (oneMember .unpaid none) "11111111-2222-3333-4444-555555555555" "stranger" ∧
      ∀ text ∈ ["11111111-2222-3333-4444-555555555555", "{11111111222233334444555555555555}"],
        ∃ resp, (ReadEndpoint.league text).RespondsText
            (oneMember .paid (some "0.0.1001@1")) "stranger" resp ∧
          ¬ (ReadEndpoint.league text).RespondsText
            (oneMember .unpaid none) "stranger" resp := by
  refine ⟨oneMember_sameOutside, rfl, rfl, fun text htext => ?_⟩
  have hread : uuidText text = some "11111111-2222-3333-4444-555555555555" := by
    revert text
    decide
  obtain ⟨league, hleague⟩ : ∃ league, scanLeague
      ((oneMember .paid (some "0.0.1001@1")).leagues.lookup
        "11111111-2222-3333-4444-555555555555") = .ok league := ⟨_, rfl⟩
  obtain ⟨members, hperm, hresp⟩ := responds_memberList "stranger" hread hleague
  refine ⟨_, hresp, fun hresp' => ?_⟩
  have hsub := hperm.symm.subperm.trans (subperm_of_responds hread hresp')
  have hpaid : ∀ m ∈ (oneMember .paid (some "0.0.1001@1")).memberList
      "11111111-2222-3333-4444-555555555555", m.paymentStatus = .paid := by decide
  have hunpaid : ∀ m ∈ (oneMember .unpaid none).memberList
      "11111111-2222-3333-4444-555555555555", m.paymentStatus = .unpaid := by decide
  have hmem := List.mem_cons_self (a := (oneMember .paid (some "0.0.1001@1")).memberRow
    ((oneMember .paid (some "0.0.1001@1")).members.rows.head (by simp [oneMember])) none) (l := [])
  exact absurd ((hpaid _ hmem).symm.trans (hunpaid _ (hsub.subset hmem))) (by decide)

end Wagr
