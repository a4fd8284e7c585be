import Mathlib.Data.List.Basic

/-!
# Programs as trees of calls

A program that talks to its surroundings is a tree: it either returns a value, or
makes a call and continues with whatever answer comes back. Answers are typed by
the call. Nothing here says what an answer may be, so one program can be run alone,
against a simulator, or interleaved with others.

A `Protocol` follows the calls of one program with a phase. `Conforms` is the
weakest precondition of a program with respect to a protocol: in every phase only
the allowed calls are made, whatever the answers are.
-/

namespace Interaction

/-- A program over calls `C` with answers `R`, returning a value of type `α`. -/
inductive Program (C : Type) (R : C → Type) (α : Type) : Type
  /-- The program has returned. -/
  | done (a : α)
  /-- The program makes the call `c` and continues with its answer. -/
  | call (c : C) (next : R c → Program C R α)

variable {C : Type} {R : C → Type} {α β ε Φ : Type}

namespace Program

/-- Sequential composition: graft the second program onto the leaves of the first. -/
def bind : Program C R α → (α → Program C R β) → Program C R β
  | .done a, f => f a
  | .call c next, f => .call c (fun r => (next r).bind f)

instance : Monad (Program C R) where
  pure := .done
  bind := Program.bind

/-- The program that makes one call and returns its answer. -/
def perform (c : C) : Program C R (R c) := .call c .done

/-- Some sequence of answers leads the program to make the call `c`, with no call in `avoid`
before it. -/
inductive MayCallBefore (avoid : C → Prop) (c : C) : Program C R α → Prop
  | here {next : R c → Program C R α} : MayCallBefore avoid c (.call c next)
  | later {d : C} {next : R d → Program C R α} (hd : ¬ avoid d) (r : R d) :
      MayCallBefore avoid c (next r) → MayCallBefore avoid c (.call d next)

/-- Some sequence of answers leads the program to make the call `c`. -/
abbrev MayCall (c : C) : Program C R α → Prop := MayCallBefore (fun _ => False) c

/-- What may be called before something may be called. -/
theorem MayCallBefore.mayCall {avoid : C → Prop} {c : C} {x : Program C R α}
    (h : x.MayCallBefore avoid c) : x.MayCall c := by
  induction h with
  | here => exact .here
  | later hd r h ih => exact .later not_false r ih

/-- The answered calls, the first one first, lead the program to return the value. -/
inductive Yields (a : α) : Program C R α → List (Sigma R) → Prop
  | done : Yields a (.done a) []
  | call {c : C} {next : R c → Program C R α} {calls : List (Sigma R)} (r : R c) :
      Yields a (next r) calls → Yields a (.call c next) (⟨c, r⟩ :: calls)

/-- The value the program returns and the calls it makes when `f` answers them. -/
def play (f : (c : C) → R c) : Program C R α → α × List (Sigma R)
  | .done a => (a, [])
  | .call c next => (((next (f c)).play f).1, ⟨c, f c⟩ :: ((next (f c)).play f).2)

/-- A played program has made its calls. -/
theorem yields_play (f : (c : C) → R c) (x : Program C R α) :
    x.Yields (x.play f).1 (x.play f).2 := by
  induction x with
  | done a => exact .done
  | call c next ih => exact .call (f c) (ih (f c))

/-- In a played program `f` answers every call. -/
theorem answer_of_mem_play {f : (c : C) → R c} {x : Program C R α} {c : C} {r : R c}
    (h : ⟨c, r⟩ ∈ (x.play f).2) : r = f c := by
  induction x with
  | done a => simp [play] at h
  | call d next ih =>
    rcases List.mem_cons.mp h with heq | hmem
    · cases heq
      rfl
    · exact ih (f d) hmem

section Yields

variable {a : α} {calls : List (Sigma R)}

/-- A returned value makes no call. -/
@[simp] theorem yields_pure {b : α} :
    (pure b : Program C R α).Yields a calls ↔ a = b ∧ calls = [] := by
  constructor
  · rintro ⟨⟩
    exact ⟨rfl, rfl⟩
  · rintro ⟨rfl, rfl⟩
    exact .done

/-- The answered call is the first one. -/
@[simp] theorem yields_call {c : C} {next : R c → Program C R α} :
    (Program.call c next).Yields a calls ↔
      ∃ r rest, calls = ⟨c, r⟩ :: rest ∧ (next r).Yields a rest := by
  constructor
  · rintro ⟨⟩
    rename_i rest r hrest
    exact ⟨r, rest, rfl, hrest⟩
  · rintro ⟨r, rest, rfl, hrest⟩
    exact .call r hrest

/-- A single call returns its answer. -/
@[simp] theorem yields_perform {c : C} {r : R c} :
    (perform c : Program C R (R c)).Yields r calls ↔ calls = [⟨c, r⟩] := by
  constructor
  · intro h
    obtain ⟨r', rest, rfl, hdone⟩ := yields_call.mp h
    obtain ⟨rfl, rfl⟩ := yields_pure.mp hdone
    rfl
  · rintro rfl
    exact .call r .done

/-- The calls of a composed program are those of its parts. -/
theorem yields_bind {x : Program C R α} {f : α → Program C R β} {b : β} :
    (x >>= f).Yields b calls ↔
      ∃ a first rest, x.Yields a first ∧ (f a).Yields b rest ∧ calls = first ++ rest := by
  induction x generalizing calls with
  | done a =>
    constructor
    · exact fun h => ⟨a, [], calls, .done, h, rfl⟩
    · rintro ⟨a', first, rest, hfirst, hrest, rfl⟩
      obtain ⟨rfl, rfl⟩ := yields_pure.mp hfirst
      exact hrest
  | call c next ih =>
    change (Program.call c fun r => next r >>= f).Yields b calls ↔ _
    simp only [yields_call, ih]
    constructor
    · rintro ⟨r, _, rfl, a, first, rest, hfirst, hrest, rfl⟩
      exact ⟨a, ⟨c, r⟩ :: first, rest, ⟨r, first, rfl, hfirst⟩, hrest, rfl⟩
    · rintro ⟨a, _, rest, ⟨r, first, rfl, hfirst⟩, hrest, rfl⟩
      exact ⟨r, first ++ rest, rfl, a, first, rest, hfirst, hrest, rfl⟩

/-- A program that may fail and is continued: after an error of its own it makes no more calls. -/
theorem yields_run_bind {x : ExceptT ε (Program C R) α} {f : α → ExceptT ε (Program C R) β}
    {b : Except ε β} :
    (x >>= f).run.Yields b calls ↔ ∃ r first rest, x.run.Yields r first ∧ calls = first ++ rest ∧
      match r with
      | .ok a => (f a).run.Yields b rest
      | .error e => b = .error e ∧ rest = [] := by
  change (x.run >>= ExceptT.bindCont f).Yields b calls ↔ _
  rw [yields_bind]
  refine exists_congr fun r => exists_congr fun first => exists_congr fun rest => ?_
  refine and_congr_right fun _ => and_comm.trans (and_congr_right fun _ => ?_)
  cases r with
  | ok a => exact Iff.rfl
  | error e => exact yields_pure

/-- A program whose errors are changed. -/
theorem yields_run_adapt {ε' : Type} {f : ε → ε'} {x : ExceptT ε (Program C R) α}
    {b : Except ε' α} :
    (ExceptT.adapt f x).run.Yields b calls ↔ ∃ r, x.run.Yields r calls ∧ b = r.mapError f := by
  change (x.run >>= fun r => pure (r.mapError f)).Yields b calls ↔ _
  simp only [yields_bind, yields_pure]
  constructor
  · rintro ⟨r, first, rest, hfirst, ⟨rfl, rfl⟩, rfl⟩
    exact ⟨r, by rwa [List.append_nil], rfl⟩
  · rintro ⟨r, hfirst, rfl⟩
    exact ⟨r, calls, [], hfirst, ⟨rfl, rfl⟩, (List.append_nil calls).symm⟩

/-- A program that does not fail. -/
theorem yields_run_lift {x : Program C R α} {b : Except ε α} :
    (ExceptT.lift x : ExceptT ε (Program C R) α).run.Yields b calls ↔
      ∃ a, x.Yields a calls ∧ b = .ok a := by
  change (x >>= fun a => pure (Except.ok a)).Yields b calls ↔ _
  simp only [yields_bind, yields_pure]
  constructor
  · rintro ⟨a, first, rest, hfirst, ⟨rfl, rfl⟩, rfl⟩
    exact ⟨a, by rwa [List.append_nil], rfl⟩
  · rintro ⟨a, hfirst, rfl⟩
    exact ⟨a, calls, [], hfirst, ⟨rfl, rfl⟩, (List.append_nil calls).symm⟩

end Yields

/-- With answers of a certain kind the program may return the value. -/
inductive Returns (may : (c : C) → R c → Prop) (a : α) : Program C R α → Prop
  | done : Returns may a (.done a)
  | call {c : C} {next : R c → Program C R α} (r : R c) (hr : may c r) :
      Returns may a (next r) → Returns may a (.call c next)

section Returns

variable {may : (c : C) → R c → Prop} {a : α}

/-- A returned value is the only one. -/
@[simp] theorem returns_pure {b : α} : (pure b : Program C R α).Returns may a ↔ a = b := by
  constructor
  · rintro ⟨⟩
    rfl
  · rintro rfl
    exact .done

/-- A call is answered, and the rest returns. -/
@[simp] theorem returns_call {c : C} {next : R c → Program C R α} :
    (Program.call c next).Returns may a ↔ ∃ r, may c r ∧ (next r).Returns may a := by
  constructor
  · rintro ⟨⟩
    rename_i r hr hreturns
    exact ⟨r, hr, hreturns⟩
  · rintro ⟨r, hr, hreturns⟩
    exact .call r hr hreturns

/-- A single call returns one of its answers. -/
@[simp] theorem returns_perform {c : C} {r : R c} :
    (perform c : Program C R (R c)).Returns may r ↔ may c r := by
  constructor
  · intro h
    obtain ⟨r', hr', hdone⟩ := returns_call.mp h
    have heq : r = r' := returns_pure.mp hdone
    exact heq ▸ hr'
  · exact fun h => .call r h .done

/-- A program may return what it yields with calls that were answered in this way. -/
theorem returns_iff_yields {x : Program C R α} :
    x.Returns may a ↔ ∃ calls, x.Yields a calls ∧ ∀ call ∈ calls, may call.1 call.2 := by
  constructor
  · intro h
    induction h with
    | done => exact ⟨[], .done, by simp⟩
    | call r hr _ ih =>
      obtain ⟨calls, hyields, hmay⟩ := ih
      exact ⟨⟨_, r⟩ :: calls, .call r hyields, List.forall_mem_cons.mpr ⟨hr, hmay⟩⟩
  · rintro ⟨calls, hyields, hmay⟩
    induction hyields with
    | done => exact .done
    | call r _ ih =>
      obtain ⟨hr, hrest⟩ := List.forall_mem_cons.mp hmay
      exact .call r hr (ih hrest)

/-- A composed program returns what its second part does after some value of its first. -/
@[simp] theorem returns_bind {x : Program C R α} {f : α → Program C R β} {b : β} :
    (x >>= f).Returns may b ↔ ∃ a, x.Returns may a ∧ (f a).Returns may b := by
  induction x with
  | done a =>
    constructor
    · exact fun h => ⟨a, .done, h⟩
    · rintro ⟨a', ha', h⟩
      obtain rfl : a' = a := returns_pure.mp ha'
      exact h
  | call c next ih =>
    change (Program.call c fun r => next r >>= f).Returns may b ↔ _
    simp only [returns_call, ih]
    constructor
    · rintro ⟨r, hr, a, hnext, hf⟩
      exact ⟨a, ⟨r, hr, hnext⟩, hf⟩
    · rintro ⟨a, ⟨r, hr, hnext⟩, hf⟩
      exact ⟨r, hr, a, hnext, hf⟩

/-- A played program returns its value if the answers are allowed. -/
theorem returns_play {f : (c : C) → R c} (hf : ∀ c, may c (f c)) (x : Program C R α) :
    x.Returns may (x.play f).1 := by
  induction x with
  | done a => exact .done
  | call c next ih => exact .call (f c) (hf c) (ih (f c))

/-- A program that may fail and is continued: it returns what the rest does, or its own error. -/
theorem returns_run_bind {x : ExceptT ε (Program C R) α} {f : α → ExceptT ε (Program C R) β}
    {b : Except ε β} :
    (x >>= f).run.Returns may b ↔ ∃ r, x.run.Returns may r ∧ match r with
      | .ok a => (f a).run.Returns may b
      | .error e => b = .error e := by
  change (x.run >>= ExceptT.bindCont f).Returns may b ↔ _
  rw [returns_bind]
  refine exists_congr fun r => and_congr_right fun _ => ?_
  cases r with
  | ok a => exact Iff.rfl
  | error e => exact returns_pure

/-- A program that may fail and is continued succeeds if both parts do. -/
theorem returns_run_bind_ok {x : ExceptT ε (Program C R) α} {f : α → ExceptT ε (Program C R) β}
    {b : β} : (x >>= f).run.Returns may (.ok b) ↔
      ∃ a, x.run.Returns may (.ok a) ∧ (f a).run.Returns may (.ok b) := by
  rw [returns_run_bind]
  constructor
  · rintro ⟨r, hr, hrest⟩
    cases r with
    | ok a => exact ⟨a, hr, hrest⟩
    | error e => cases hrest
  · rintro ⟨a, ha, hrest⟩
    exact ⟨.ok a, ha, hrest⟩

/-- A returned value of a program that may fail. -/
@[simp] theorem returns_run_pure {a : α} {b : Except ε α} :
    (pure a : ExceptT ε (Program C R) α).run.Returns may b ↔ b = .ok a := returns_pure

/-- A program that fails. -/
@[simp] theorem returns_run_throw {e : ε} {b : Except ε α} :
    (throw e : ExceptT ε (Program C R) α).run.Returns may b ↔ b = .error e := returns_pure

/-- A program that succeeds does so as well when its errors are changed. -/
theorem returns_run_adapt_ok {ε' : Type} {f : ε → ε'} {x : ExceptT ε (Program C R) α} :
    (ExceptT.adapt f x).run.Returns may (.ok a) ↔ x.run.Returns may (.ok a) := by
  change (x.run >>= fun r => pure (r.mapError f)).Returns may (.ok a) ↔ _
  simp only [returns_bind, returns_pure]
  constructor
  · rintro ⟨r, hr, heq⟩
    cases r with
    | ok a => cases heq; exact hr
    | error e => cases heq
  · exact fun h => ⟨.ok a, h, rfl⟩

/-- A program whose errors are changed. -/
theorem returns_run_adapt {ε' : Type} {f : ε → ε'} {x : ExceptT ε (Program C R) α}
    {b : Except ε' α} :
    (ExceptT.adapt f x).run.Returns may b ↔ ∃ r, x.run.Returns may r ∧ b = r.mapError f := by
  change (x.run >>= fun r => pure (r.mapError f)).Returns may b ↔ _
  simp only [returns_bind, returns_pure]

end Returns

end Program

/-- A protocol: which calls a phase allows, and the phase after an answered call. -/
structure Protocol (C : Type) (R : C → Type) (Φ : Type) where
  /-- The calls a program may make in a phase. -/
  allows : Φ → C → Prop
  /-- The phase after a call has been answered. -/
  next : Φ → (c : C) → R c → Φ

namespace Protocol

variable (P : Protocol C R Φ)

/-- From phase `φ` the program makes only allowed calls, whatever the answers, and
every value it returns satisfies the postcondition `Q` in the phase reached. -/
def Conforms : Φ → Program C R α → (Φ → α → Prop) → Prop
  | φ, .done a, Q => Q φ a
  | φ, .call c next, Q => P.allows φ c ∧ ∀ r, Conforms (P.next φ c r) (next r) Q

variable {P} {Q Q' : Φ → α → Prop} {φ : Φ}

/-- A returned value has to meet the postcondition in the current phase. -/
@[simp] theorem conforms_pure {a : α} :
    P.Conforms φ (pure a : Program C R α) Q ↔ Q φ a := Iff.rfl

/-- A call has to be allowed, and the rest has to conform after every answer. -/
@[simp] theorem conforms_call {c : C} {next : R c → Program C R α} :
    P.Conforms φ (.call c next) Q ↔
      P.allows φ c ∧ ∀ r, P.Conforms (P.next φ c r) (next r) Q := Iff.rfl

/-- A single call returns its answer in the phase the answer leads to. -/
@[simp] theorem conforms_perform {c : C} {Q : Φ → R c → Prop} :
    P.Conforms φ (Program.perform c) Q ↔ P.allows φ c ∧ ∀ r, Q (P.next φ c r) r := Iff.rfl

/-- Weakening of the postcondition. -/
theorem Conforms.mono {p : Program C R α} (h : P.Conforms φ p Q)
    (hQ : ∀ φ a, Q φ a → Q' φ a) : P.Conforms φ p Q' := by
  induction p generalizing φ with
  | done a => exact hQ φ a h
  | call c next ih => exact ⟨h.1, fun r => ih r (h.2 r)⟩

/-- The rule of sequential composition: the postcondition of the first program is
that the rest conforms. -/
@[simp] theorem conforms_bind {p : Program C R α} {f : α → Program C R β} {Q : Φ → β → Prop} :
    P.Conforms φ (p >>= f) Q ↔ P.Conforms φ p (fun φ a => P.Conforms φ (f a) Q) := by
  induction p generalizing φ with
  | done a => exact Iff.rfl
  | call c next ih =>
    change _ ∧ (∀ r, P.Conforms _ (next r >>= f) Q) ↔ _
    simp only [ih, conforms_call]

/-- The rule for a loop over a list: what holds before each round holds at the end. -/
theorem conforms_forM {xs : List α} {f : α → Program C R PUnit} {I : Φ → Prop}
    (hround : ∀ x ∈ xs, ∀ φ, I φ → P.Conforms φ (f x) (fun φ _ => I φ)) (hI : I φ) :
    P.Conforms φ (xs.forM f) (fun φ _ => I φ) := by
  induction xs generalizing φ with
  | nil => exact hI
  | cons x xs ih =>
    change P.Conforms φ (f x >>= fun _ => xs.forM f) _
    rw [conforms_bind]
    refine (hround x List.mem_cons_self φ hI).mono fun ψ _ hψ => ?_
    exact ih (fun y hy => hround y (List.mem_cons_of_mem x hy)) hψ

/-- The rule for a loop over a list whose rounds each establish something about their element that
the later rounds keep. -/
theorem conforms_forM_each {xs : List α} {f : α → Program C R PUnit} {I : Φ → Prop}
    {T : α → Φ → Prop}
    (hround : ∀ x ∈ xs, ∀ φ, I φ → P.Conforms φ (f x) fun ψ _ =>
      I ψ ∧ T x ψ ∧ ∀ y, T y φ → T y ψ) (hI : I φ) :
    P.Conforms φ (xs.forM f) fun ψ _ => I ψ ∧ (∀ x ∈ xs, T x ψ) ∧ ∀ y, T y φ → T y ψ := by
  induction xs generalizing φ with
  | nil => exact ⟨hI, by simp, fun _ h => h⟩
  | cons x xs ih =>
    change P.Conforms φ (f x >>= fun _ => xs.forM f) _
    rw [conforms_bind]
    refine (hround x List.mem_cons_self φ hI).mono fun ψ _ hψ => ?_
    obtain ⟨hI', hx, hkeep⟩ := hψ
    refine (ih (fun y hy => hround y (List.mem_cons_of_mem x hy)) hI').mono fun χ _ hχ => ?_
    obtain ⟨hI'', hall, hkeep'⟩ := hχ
    refine ⟨hI'', fun y hy => ?_, fun y hy => hkeep' y (hkeep y hy)⟩
    rcases List.mem_cons.mp hy with rfl | hy
    · exact hkeep' y hx
    · exact hall y hy

/-- If every call can be answered, a program may return, with a value that satisfies the
postcondition. -/
theorem Conforms.exists_returns {p : Program C R α} (h : P.Conforms φ p Q)
    (hanswer : ∀ c, Nonempty (R c)) :
    ∃ ψ a, p.Returns (fun _ _ => True) a ∧ Q ψ a := by
  induction p generalizing φ with
  | done a => exact ⟨φ, a, .done, h⟩
  | call c next ih =>
    obtain ⟨r⟩ := hanswer c
    obtain ⟨ψ, a, hreturns, hQ⟩ := ih r (h.2 r)
    exact ⟨ψ, a, .call r trivial hreturns, hQ⟩

/-- The rule of composition for programs that may fail: an error skips the rest. -/
@[simp] theorem conforms_run_bind {x : ExceptT ε (Program C R) α}
    {f : α → ExceptT ε (Program C R) β} {Q : Φ → Except ε β → Prop} :
    P.Conforms φ (x >>= f).run Q ↔
      P.Conforms φ x.run (fun φ r => match r with
        | .ok a => P.Conforms φ (f a).run Q
        | .error e => Q φ (.error e)) := by
  change P.Conforms φ (x.run >>= ExceptT.bindCont f) Q ↔ _
  rw [conforms_bind]
  have hcont : ∀ ψ r, P.Conforms ψ (ExceptT.bindCont f r) Q ↔
      (match r with
        | .ok a => P.Conforms ψ (f a).run Q
        | .error e => Q ψ (.error e)) := by
    intro ψ r
    cases r <;> exact Iff.rfl
  simp only [hcont]

/-- A returned value of a program that may fail. -/
@[simp] theorem conforms_run_pure {a : α} {Q : Φ → Except ε α → Prop} :
    P.Conforms φ (pure a : ExceptT ε (Program C R) α).run Q ↔ Q φ (.ok a) := Iff.rfl

/-- An error skips everything. -/
@[simp] theorem conforms_run_throw {e : ε} {Q : Φ → Except ε α → Prop} :
    P.Conforms φ (throw e : ExceptT ε (Program C R) α).run Q ↔ Q φ (.error e) := Iff.rfl

/-- Both branches of a case distinction. -/
@[simp] theorem conforms_ite {c : Prop} [Decidable c] {x y : Program C R α} :
    P.Conforms φ (if c then x else y) Q ↔
      (c → P.Conforms φ x Q) ∧ (¬ c → P.Conforms φ y Q) := by
  by_cases hc : c <;> simp [hc]

/-- Both branches of a case distinction between programs that may fail. -/
@[simp] theorem conforms_run_ite {c : Prop} [Decidable c] {x y : ExceptT ε (Program C R) α}
    {Q : Φ → Except ε α → Prop} :
    P.Conforms φ (if c then x else y).run Q ↔
      (c → P.Conforms φ x.run Q) ∧ (¬ c → P.Conforms φ y.run Q) := by
  by_cases hc : c <;> simp [hc]

/-- A program that reports its error as a value. -/
@[simp] theorem conforms_run_mk {x : Program C R (Except ε α)} {Q : Φ → Except ε α → Prop} :
    P.Conforms φ (ExceptT.mk x).run Q ↔ P.Conforms φ x Q := Iff.rfl

/-- A program that cannot fail, used among programs that may. -/
@[simp] theorem conforms_run_lift {x : Program C R α} {Q : Φ → Except ε α → Prop} :
    P.Conforms φ (ExceptT.lift x).run Q ↔ P.Conforms φ x (fun φ a => Q φ (.ok a)) := by
  change P.Conforms φ (x >>= fun a => pure (.ok a)) Q ↔ _
  rw [conforms_bind]
  exact Iff.rfl

/-- A program whose errors are changed. -/
@[simp] theorem conforms_run_adapt {ε' : Type} {f : ε → ε'} {x : ExceptT ε (Program C R) α}
    {Q : Φ → Except ε' α → Prop} :
    P.Conforms φ (ExceptT.adapt f x).run Q ↔
      P.Conforms φ x.run (fun φ r => Q φ (r.mapError f)) := by
  change P.Conforms φ (x.run >>= fun r => pure (r.mapError f)) Q ↔ _
  rw [conforms_bind]
  exact Iff.rfl

/-- The rule for a loop over a list whose rounds may fail and then end the loop. -/
theorem conforms_run_forM {xs : List α} {f : α → ExceptT ε (Program C R) PUnit}
    {I : Φ → Prop}
    (hround : ∀ x ∈ xs, ∀ φ, I φ → P.Conforms φ (f x).run (fun φ _ => I φ)) (hI : I φ) :
    P.Conforms φ (xs.forM f).run (fun φ _ => I φ) := by
  induction xs generalizing φ with
  | nil => exact hI
  | cons x xs ih =>
    change P.Conforms φ (f x >>= fun _ => xs.forM f).run _
    rw [conforms_run_bind]
    refine (hround x List.mem_cons_self φ hI).mono fun ψ r hψ => ?_
    cases r with
    | ok _ => exact ih (fun y hy => hround y (List.mem_cons_of_mem x hy)) hψ
    | error _ => exact hψ

/-- The protocol without phases that allows the calls in a set. -/
def footprint (p : C → Prop) : Protocol C R Unit := ⟨fun _ => p, fun _ _ _ => ()⟩

/-- A program whose calls are allowed and do not move the phase conforms, and stays in it. -/
theorem conforms_of_footprint {p : C → Prop} {x : Program C R α}
    (hx : (footprint p).Conforms () x fun _ _ => True)
    (hp : ∀ c, p c → P.allows φ c ∧ ∀ r, P.next φ c r = φ) :
    P.Conforms φ x fun ψ _ => ψ = φ := by
  induction x with
  | done a => rfl
  | call c next ih =>
    refine ⟨(hp c hx.1).1, fun r => ?_⟩
    rw [(hp c hx.1).2 r]
    exact ih r (hx.2 r)

/-- What a program returns depends only on the answers to the calls it may make. -/
theorem Conforms.returns_congr {p : C → Prop} {x : Program C R α} {Q : Unit → α → Prop}
    {may may' : (c : C) → R c → Prop} {a : α} (h : (footprint p).Conforms () x Q)
    (hmay : ∀ c, p c → ∀ r, may c r ↔ may' c r) : x.Returns may a ↔ x.Returns may' a := by
  induction x with
  | done b =>
    change (pure b : Program C R α).Returns may a ↔ (pure b : Program C R α).Returns may' a
    simp only [Program.returns_pure]
  | call c next ih =>
    simp only [Program.returns_call]
    refine exists_congr fun r => ?_
    rw [hmay c h.1 r, ih r (h.2 r)]

/-- The protocol that allows everything and records the answered calls, the first one first. -/
def recorder : Protocol C R (List (Sigma R)) :=
    ⟨fun _ _ => True, fun calls c r => calls ++ [⟨c, r⟩]⟩

/-- What a program establishes about the recorded calls holds when it has returned. -/
theorem Conforms.yields {x : Program C R α} {Q : List (Sigma R) → α → Prop} {a : α}
    {before calls : List (Sigma R)} (h : recorder.Conforms before x Q) (hx : x.Yields a calls) :
    Q (before ++ calls) a := by
  induction hx generalizing before with
  | done =>
    rw [List.append_nil]
    exact h
  | call r _ ih =>
    rw [List.append_cons]
    exact ih (h.2 r)

/-- The phase reached from `φ` by answered calls, the newest call first. -/
def phase (P : Protocol C R Φ) (φ : Φ) : List (Sigma R) → Φ
  | [] => φ
  | ⟨c, r⟩ :: trace => P.next (P.phase φ trace) c r

end Protocol

end Interaction
