import Wagr.Service.World

/-!
# Proof rules for the services' programs

The rules of `Protocol.Conforms` for the calls of the services and for their common
helpers, stated with the answers split into results and errors. `requestCalls` bounds the
calls each request can make at all; it is enough for every property that only depends on
which statements a request may run.
-/

namespace Wagr

open Interaction Protocol

section Rules

variable {Φ α : Type} {P : Protocol Call Ret Φ} {φ : Φ}

/-- An answer is a result or an error. -/
theorem forall_except {ε : Type} {p : Except ε α → Prop} :
    (∀ r, p r) ↔ (∀ a, p (.ok a)) ∧ ∀ e, p (.error e) := by
  constructor
  · intro h
    exact ⟨fun a => h (.ok a), fun e => h (.error e)⟩
  · rintro ⟨hok, herror⟩ (e | a)
    · exact herror e
    · exact hok a

/-- Every call can be answered. -/
theorem nonempty_ret (c : Call) : Nonempty (Ret c) := by
  cases c with
  | mirrorAccount accountID => exact ⟨none⟩
  | _ => exact ⟨.error (.text "" [])⟩

/-- One call. -/
@[simp] theorem conforms_call' {c : Call} {Q : Φ → Ret c → Prop} :
    Conforms (α := no_index (Ret c)) P φ (perform c) Q ↔
      P.allows φ c ∧ ∀ r, Q (P.next φ c r) r := Iff.rfl

/-- One statement. -/
@[simp] theorem conforms_exec {s : Statement} {Q : Φ → Except GoError s.Result → Prop} :
    Conforms (α := no_index (Except GoError s.Result)) P φ
        (ExceptT.run (α := no_index s.Result) (exec s)) Q ↔
      P.allows φ (.exec s) ∧ (∀ r, Q (P.next φ (.exec s) (.ok r)) (.ok r)) ∧
        ∀ e, Q (P.next φ (.exec s) (.error e)) (.error e) := by
  have hsplit := forall_except (p := fun r : Except GoError s.Result =>
    Q (P.next φ (.exec s) r) r)
  exact and_congr_right fun _ => hsplit

/-- One query. -/
@[simp] theorem conforms_query {q : Query} {Q : Φ → Except GoError q.Answer → Prop} :
    Conforms (α := no_index (Except GoError q.Answer)) P φ
        (ExceptT.run (α := no_index q.Answer) (query q)) Q ↔
      P.allows φ (.query q) ∧ (∀ r, Q (P.next φ (.query q) (.ok r)) (.ok r)) ∧
        ∀ e, Q (P.next φ (.query q) (.error e)) (.error e) := by
  have hsplit := forall_except (p := fun r : Except GoError q.Answer =>
    Q (P.next φ (.query q) r) r)
  exact and_congr_right fun _ => hsplit

/-- A step whose error is wrapped. -/
@[simp] theorem conforms_wrapErr {message : String} {x : Go α}
    {Q : Φ → Except GoError α → Prop} :
    P.Conforms φ (wrapErr message x).run Q ↔
      P.Conforms φ x.run fun φ r => Q φ (r.mapError (.wrap message)) :=
  conforms_run_adapt

@[simp] theorem mapError_ok {ε ε' : Type} {f : ε → ε'} {a : α} :
    (Except.ok a : Except ε α).mapError f = .ok a := rfl

@[simp] theorem mapError_error {ε ε' : Type} {f : ε → ε'} {e : ε} :
    (Except.error e : Except ε α).mapError f = .error (f e) := rfl

/-- A step without calls. -/
@[simp] theorem conforms_ofResult {x : Except GoError α} {Q : Φ → Except GoError α → Prop} :
    P.Conforms φ (ofResult x : Go α).run Q ↔ Q φ x := Iff.rfl

/-- A program whose result is forgotten. -/
theorem conforms_toDone {x : Go α} (h : P.Conforms φ x.run fun _ _ => True) :
    P.Conforms φ x.toDone.run fun _ _ => True := by
  refine conforms_run_bind.mpr (h.mono fun ψ r _ => ?_)
  cases r <;> trivial

/-- The call of one query. -/
theorem yields_query {q : Query} {r : Except GoError q.Answer} {calls : List (Sigma Ret)} :
    Program.Yields (α := no_index (Except GoError q.Answer)) r
      (ExceptT.run (α := no_index q.Answer) (query q)) calls ↔ calls = [⟨.query q, r⟩] :=
  Program.yields_perform (c := Call.query q)

/-- The call of one statement. -/
theorem yields_exec {s : Statement} {r : Except GoError s.Result} {calls : List (Sigma Ret)} :
    Program.Yields (α := no_index (Except GoError s.Result)) r
      (ExceptT.run (α := no_index s.Result) (exec s)) calls ↔ calls = [⟨.exec s, r⟩] :=
  Program.yields_perform (c := Call.exec s)

/-- The calls of a program whose error is wrapped. -/
theorem yields_wrapErr {message : String} {x : Go α} {r : Except GoError α}
    {calls : List (Sigma Ret)} :
    (wrapErr message x).run.Yields r calls ↔
      ∃ r', x.run.Yields r' calls ∧ r = r'.mapError (.wrap message) :=
  Program.yields_run_adapt

/-- A step without calls. -/
theorem yields_ofResult {x r : Except GoError α} {calls : List (Sigma Ret)} :
    (ofResult x : Go α).run.Yields r calls ↔ r = x ∧ calls = [] :=
  Program.yields_pure

/-- What one query returns. -/
theorem returns_query {may : (c : Call) → Ret c → Prop} {q : Query} {r : Except GoError q.Answer} :
    Program.Returns (α := no_index (Except GoError q.Answer)) may r
      (ExceptT.run (α := no_index q.Answer) (query q)) ↔ may (.query q) r :=
  Program.returns_perform (c := Call.query q)

/-- What a program returns whose error is wrapped. -/
theorem returns_wrapErr {may : (c : Call) → Ret c → Prop} {message : String} {x : Go α}
    {r : Except GoError α} :
    (wrapErr message x).run.Returns may r ↔
      ∃ r', x.run.Returns may r' ∧ r = r'.mapError (.wrap message) :=
  Program.returns_run_adapt

end Rules

end Wagr
