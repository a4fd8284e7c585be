import Wagr.Library.Interleaving

/-!
# Earlier moments of a run

A thread decides by answers it was given at some time. Each of them was given in a configuration
the run has passed through, with the thread's earlier calls as its trace, and the world of that
moment allowed it. What no step undoes still holds at the end. Where it matters what happened
before what, a run is taken together with the steps behind it.
-/

namespace Interaction

variable {C : Type} {R : C → Type} {W J E α : Type}

namespace System

variable {S : System C R W J E α} {ok : Config C R W J α → Label C R J E → Prop}
  {a b : Config C R W J α}

/-- The moment on a run from `a` to `b` at which a call of thread `i` was answered: the
configurations before and after, and the thread about to make the call. -/
structure Moment (S : System C R W J E α) (ok : Config C R W J α → Label C R J E → Prop)
    (a b : Config C R W J α) (i : ℕ) (call : Sigma R) where
  /-- The configuration in which the call was answered. -/
  before : Config C R W J α
  /-- The configuration after the answer. -/
  after : Config C R W J α
  /-- The thread before the answer. -/
  thread : Thread C R J α
  reached : S.Reaches ok a before
  assumed : ok before (.call i call.1 call.2)
  answered : S.Step before (.call i call.1 call.2) after
  rest : S.Reaches ok after b
  found : before.threads[i]? = some thread

namespace Moment

variable {i : ℕ} {call : Sigma R}

/-- The world allowed the answer. -/
theorem handles (h : Moment S ok a b i call) :
    S.handles h.before.world call.1 call.2 h.after.world := by
  obtain ⟨before, after, thread, -, -, hstep, -, -⟩ := h
  cases hstep with
  | call ht hrest hrun hw => exact hw

/-- The run reaches the moment's end. -/
theorem reachedAfter (h : Moment S ok a b i call) : S.Reaches ok a h.after :=
  h.reached.step h.assumed h.answered

/-- The run goes on from the moment. -/
theorem later (h : Moment S ok a b i call) : S.Reaches ok h.before b :=
  Relation.ReflTransGen.head ⟨_, h.assumed, h.answered⟩ h.rest

/-- A moment of a run is one of a longer run. -/
def extend (h : Moment S ok a b i call) {c : Config C R W J α} {l : Label C R J E} (hok : ok b l)
    (hstep : S.Step b l c) : Moment S ok a c i call :=
  { h with rest := h.rest.step hok hstep }

/-- A moment of a run is one of a run that has started earlier. -/
def since {c : Config C R W J α} (h : Moment S ok a b i call) (hbefore : S.Reaches ok c a) :
    Moment S ok c b i call :=
  { h with reached := hbefore.trans h.reached }

end Moment

/-- Every answer in the trace of a thread that was started on a run has its moment: the thread's
trace was then what lies below the answer. -/
theorem Reaches.moment (h : S.Reaches ok a b) {i : ℕ} (ha : a.threads[i]? = none)
    {t : Thread C R J α} (ht : b.threads[i]? = some t) {call : Sigma R} {earlier : List (Sigma R)}
    (hcall : call :: earlier <:+ t.trace) :
    ∃ m : Moment S ok a b i call, m.thread.job = t.job ∧ m.thread.trace = earlier := by
  induction h generalizing t with
  | refl => simp [ha] at ht
  | @tail b c hrun hlast ih =>
    obtain ⟨l, hok, hstep⟩ := hlast
    have hkeep : ∀ {u : Thread C R J α}, b.threads[i]? = some u → u.job = t.job →
        call :: earlier <:+ u.trace → ∃ m : Moment S ok a c i call,
          m.thread.job = t.job ∧ m.thread.trace = earlier := by
      intro u hu hjob hsuffix
      obtain ⟨m, hm, htrace⟩ := ih hu hsuffix
      exact ⟨m.extend hok hstep, hm.trans hjob, htrace⟩
    rcases hstep.thread_cases ht with ⟨j, -, rfl⟩ | ⟨hbefore, -⟩ | ⟨u, -, hu, rfl⟩ |
      ⟨u, q, r, next, rfl, hu, -, -, -, rfl⟩
    · cases List.suffix_nil.mp hcall
    · exact hkeep hbefore rfl hcall
    · exact hkeep hu rfl hcall
    · rcases List.suffix_cons_iff.mp hcall with heq | hsuffix
      · obtain ⟨rfl, rfl⟩ := List.cons.inj heq
        exact ⟨⟨b, c, u, hrun, hok, hstep, .refl, hu⟩, rfl, rfl⟩
      · exact hkeep hu rfl hsuffix

/-- Every answered call of such a thread has its moment, and the thread's trace has grown since. -/
theorem Reaches.moment_of_mem (h : S.Reaches ok a b) {i : ℕ} (ha : a.threads[i]? = none)
    {t : Thread C R J α} (ht : b.threads[i]? = some t) {call : Sigma R} (hcall : call ∈ t.trace) :
    ∃ m : Moment S ok a b i call, m.thread.job = t.job ∧ m.thread.trace <:+ t.trace := by
  obtain ⟨later, earlier, htrace⟩ := List.append_of_mem hcall
  have hsuffix : call :: earlier <:+ t.trace := htrace ▸ List.suffix_append later (call :: earlier)
  obtain ⟨m, hjob, rfl⟩ := h.moment ha ht hsuffix
  exact ⟨m, hjob, (List.suffix_cons _ _).trans hsuffix⟩

/-- A call in a trace at the end of a run was there at its start, or has its moment on the run. -/
theorem Reaches.mem_or_moment (h : S.Reaches ok a b) {i : ℕ} {t : Thread C R J α}
    (ht : b.threads[i]? = some t) {call : Sigma R} (hcall : call ∈ t.trace) :
    (∃ u, a.threads[i]? = some u ∧ call ∈ u.trace) ∨
      ∃ m : Moment S ok a b i call, m.thread.job = t.job := by
  induction h generalizing t with
  | refl => exact .inl ⟨t, ht, hcall⟩
  | @tail b c hrun hlast ih =>
    obtain ⟨l, hok, hstep⟩ := hlast
    have hkeep : ∀ {u : Thread C R J α}, b.threads[i]? = some u → u.job = t.job →
        call ∈ u.trace → (∃ u, a.threads[i]? = some u ∧ call ∈ u.trace) ∨
          ∃ m : Moment S ok a c i call, m.thread.job = t.job := by
      intro u hu hjob hmem
      rcases ih hu hmem with hstart | ⟨m, hm⟩
      · exact .inl hstart
      · exact .inr ⟨m.extend hok hstep, hm.trans hjob⟩
    rcases hstep.thread_cases ht with ⟨j, -, rfl⟩ | ⟨hbefore, -⟩ | ⟨u, -, hu, rfl⟩ |
      ⟨u, q, r, next, rfl, hu, -, -, -, rfl⟩
    · cases hcall
    · exact hkeep hbefore rfl hcall
    · exact hkeep hu rfl hcall
    · rcases List.mem_cons.mp hcall with rfl | hmem
      · exact .inr ⟨⟨b, c, u, hrun, hok, hstep, .refl, hu⟩, rfl⟩
      · exact hkeep hu rfl hmem

/-- What some thread's trace says is still said at the end of a run, if traces only say more as
they grow. -/
theorem Reaches.someTrace (h : S.Reaches ok a b) {p : J → List (Sigma R) → Prop}
    (hp : ∀ j trace call, p j trace → p j (call :: trace)) (ha : a.SomeTrace p) : b.SomeTrace p :=
  h.invariant (I := fun a => a.SomeTrace p) ha fun hinv _ hstep => hstep.someTrace hp hinv

/-- A call was allowed by every protocol the programs conform to. -/
theorem Moment.allows {i : ℕ} {call : Sigma R} {Φ : Type} {P : Protocol C R Φ} {start : J → Φ}
    {Q : J → Φ → α → Prop} (m : Moment S ok a b i call)
    (hbody : ∀ j, P.Conforms (start j) (S.body j) (Q j)) (ha : a.threads = []) :
    P.allows (P.phase (start m.thread.job) m.thread.trace) call.1 := by
  have hfollows := Protocol.follows_of_reaches m.reached hbody (by simp [ha]) _ _ m.found
  have hstep := m.answered
  have hfound := m.found
  generalize m.after = c at hstep
  cases hstep with
  | call ht hrest hrun hw =>
    obtain rfl := Option.some.inj (ht.symm.trans hfound)
    exact hfollows.allows hrest

/-! ## Runs with their steps -/

/-- A run from `a` with the steps it has taken, newest first, each with the configuration it was
taken in. -/
inductive Trail (S : System C R W J E α) (ok : Config C R W J α → Label C R J E → Prop)
    (a : Config C R W J α) :
    List (Config C R W J α × Label C R J E) → Config C R W J α → Prop
  | start : Trail S ok a [] a
  | step {past : List (Config C R W J α × Label C R J E)} {b c : Config C R W J α}
      {l : Label C R J E} (hbefore : Trail S ok a past b) (hok : ok b l) (hstep : S.Step b l c) :
      Trail S ok a ((b, l) :: past) c

/-- A run with its steps is a run. -/
theorem Trail.reaches {past : List (Config C R W J α × Label C R J E)}
    (h : S.Trail ok a past b) : S.Reaches ok a b := by
  induction h with
  | start => exact .refl
  | step _ hok hstep ih => exact ih.step hok hstep

/-- Every run has taken some steps. -/
theorem Reaches.trail (h : S.Reaches ok a b) : ∃ past, S.Trail ok a past b := by
  induction h with
  | refl => exact ⟨[], .start⟩
  | tail _ hlast ih =>
    obtain ⟨past, hpast⟩ := ih
    obtain ⟨l, hok, hstep⟩ := hlast
    exact ⟨_, hpast.step hok hstep⟩

end System

end Interaction
