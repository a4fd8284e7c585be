import Wagr.Library.Program
import Mathlib.Logic.Relation
import Mathlib.Algebra.Order.BigOperators.Group.List
import Mathlib.Algebra.Order.Group.Nat
import Mathlib.Algebra.Ring.Nat

/-!
# Interleaved runs of programs

A `System` runs any number of programs against one world. A step starts a program,
answers the next call of one of them, stops one for good, or lets the surroundings
act. Programs that are never scheduled again have stopped as well, so every prefix
of a program occurs.

Each thread keeps the trace of its answered calls. An assumption on a run is a
predicate on its steps, read in the configuration before the step. Invariants are
proved step by step, and a protocol that every body conforms to is followed by
every thread of every run.
-/

namespace Interaction

/-- Programs of type `Program C R α`, one for each job in `J`, over a world `W`
whose surroundings can take the actions `E`. -/
structure System (C : Type) (R : C → Type) (W J E α : Type) where
  /-- The program of a job. -/
  body : J → Program C R α
  /-- How the world may answer a call, and the world afterwards. -/
  handles : W → (c : C) → R c → W → Prop
  /-- The world after an action of the surroundings, if the action is possible. -/
  act : W → E → Option W

/-- A started job, with its answered calls (newest first) and what is left to run. -/
structure Thread (C : Type) (R : C → Type) (J α : Type) where
  /-- The job the thread was started for. -/
  job : J
  /-- The answered calls, newest first. -/
  trace : List (Sigma R)
  /-- What is left of the program. -/
  rest : Program C R α
  /-- Whether the thread was stopped for good. -/
  stopped : Bool := false

/-- The world together with all threads started so far. -/
structure Config (C : Type) (R : C → Type) (W J α : Type) where
  /-- The state the threads share. -/
  world : W
  /-- The threads in the order they were started. -/
  threads : List (Thread C R J α)

/-- What happens in one step. -/
inductive Label (C : Type) (R : C → Type) (J E : Type)
  /-- A new thread starts on a job. -/
  | spawn (j : J)
  /-- The next call of thread `i` is answered. -/
  | call (i : ℕ) (c : C) (r : R c)
  /-- Thread `i` stops for good. -/
  | stop (i : ℕ)
  /-- The surroundings act. -/
  | env (e : E)

variable {C : Type} {R : C → Type} {W J E α Φ : Type}

/-- The thread of a job that has not made a call yet. -/
def Thread.start (S : System C R W J E α) (j : J) : Thread C R J α := ⟨j, [], S.body j, false⟩

/-- The thread after its call `c` was answered with `r`. -/
def Thread.answer (t : Thread C R J α) (c : C) (r : R c) (next : R c → Program C R α) :
    Thread C R J α := { t with trace := ⟨c, r⟩ :: t.trace, rest := next r }

/-- How many of the answered calls of a step satisfy `p`. -/
def Label.counts (p : Sigma R → Bool) : Label C R J E → ℕ
  | .call _ c r => if p ⟨c, r⟩ then 1 else 0
  | _ => 0

/-- The thread whose call a step answers. -/
def Label.caller : Label C R J E → Option ℕ
  | .call i _ _ => some i
  | _ => none

/-- A step has a caller if it answers a call. -/
theorem Label.caller_eq_some {l : Label C R J E} {i : ℕ} :
    l.caller = some i ↔ ∃ c r, l = .call i c r := by
  cases l with
  | call k c r =>
    simp only [caller, Option.some.injEq]
    constructor
    · rintro rfl
      exact ⟨c, r, rfl⟩
    · rintro ⟨c', r', heq⟩
      cases heq
      rfl
  | _ => simp [caller]

/-- Some thread has a trace with a property. -/
def Config.SomeTrace (a : Config C R W J α) (p : J → List (Sigma R) → Prop) : Prop :=
  ∃ (i : ℕ) (t : Thread C R J α), a.threads[i]? = some t ∧ p t.job t.trace

namespace System

variable (S : System C R W J E α)

/-- The steps of a system. -/
inductive Step : Config C R W J α → Label C R J E → Config C R W J α → Prop
  | spawn {a} (j : J) :
      Step a (.spawn j) { a with threads := a.threads ++ [Thread.start S j] }
  | call {a} {i : ℕ} {t : Thread C R J α} {c : C} {next : R c → Program C R α} {r : R c} {w : W}
      (ht : a.threads[i]? = some t) (hrest : t.rest = .call c next) (hrun : t.stopped = false)
      (hw : S.handles a.world c r w) :
      Step a (.call i c r) ⟨w, a.threads.set i (t.answer c r next)⟩
  | stop {a} {i : ℕ} {t : Thread C R J α} (ht : a.threads[i]? = some t) :
      Step a (.stop i) { a with threads := a.threads.set i { t with stopped := true } }
  | env {a} {e : E} {w : W} (hw : S.act a.world e = some w) :
      Step a (.env e) { a with world := w }

/-- Runs whose steps all satisfy the assumption `ok`. -/
def Reaches (ok : Config C R W J α → Label C R J E → Prop) :
    Config C R W J α → Config C R W J α → Prop :=
  Relation.ReflTransGen fun a b => ∃ l, ok a l ∧ S.Step a l b

variable {S} {ok : Config C R W J α → Label C R J E → Prop} {a b : Config C R W J α}

/-- A property kept by every step that satisfies the assumption holds along runs. -/
theorem Reaches.invariant {I : Config C R W J α → Prop} (h : S.Reaches ok a b) (ha : I a)
    (hstep : ∀ {a b l}, I a → ok a l → S.Step a l b → I b) : I b := by
  induction h with
  | refl => exact ha
  | tail _ hlast ih =>
    obtain ⟨l, hok, hl⟩ := hlast
    exact hstep ih hok hl

/-- Weaker assumptions allow more runs. -/
theorem Reaches.mono {ok' : Config C R W J α → Label C R J E → Prop} (h : S.Reaches ok a b)
    (himp : ∀ a l, ok a l → ok' a l) : S.Reaches ok' a b :=
  Relation.ReflTransGen.mono (fun _ _ ⟨l, hok, hl⟩ => ⟨l, himp _ l hok, hl⟩) _ _ h

/-- One more step at the end of a run. -/
theorem Reaches.step {c : Config C R W J α} {l : Label C R J E} (h : S.Reaches ok a b)
    (hok : ok b l) (hl : S.Step b l c) : S.Reaches ok a c :=
  Relation.ReflTransGen.tail h ⟨l, hok, hl⟩

/-- The threads after a call has been answered: thread `i` has moved, the others have not. -/
theorem getElem?_set_thread {ts : List (Thread C R J α)} {i j : ℕ} {t u v : Thread C R J α}
    (ht : ts[i]? = some t) (hv : (ts.set i u)[j]? = some v) :
    (j = i ∧ v = u) ∨ (j ≠ i ∧ ts[j]? = some v) := by
  by_cases hij : i = j
  · subst hij
    have hlt : i < ts.length := (List.getElem?_eq_some_iff.mp ht).1
    rw [List.getElem?_set_self hlt] at hv
    exact .inl ⟨rfl, (Option.some.inj hv).symm⟩
  · rw [List.getElem?_set_ne hij] at hv
    exact .inr ⟨fun h => hij h.symm, hv⟩

/-- The threads after a start: the new thread is the last one. -/
theorem getElem?_append_thread {ts : List (Thread C R J α)} {j : ℕ} {u v : Thread C R J α}
    (hv : (ts ++ [u])[j]? = some v) :
    (j = ts.length ∧ v = u) ∨ ts[j]? = some v := by
  rcases Nat.lt_trichotomy j ts.length with hlt | heq | hgt
  · exact .inr (by rwa [List.getElem?_append_left hlt] at hv)
  · subst heq
    simp only [List.getElem?_concat_length, Option.some.injEq] at hv
    exact .inl ⟨rfl, hv.symm⟩
  · rw [List.getElem?_eq_none (by simp; omega)] at hv
    cases hv

/-- Where a thread comes from in a step: it has started, it was not touched, it has stopped, or
its call was answered. -/
theorem Step.thread_cases {a b : Config C R W J α} {l : Label C R J E} (h : S.Step a l b) {i : ℕ}
    {t' : Thread C R J α} (ht' : b.threads[i]? = some t') :
    (∃ j, l = .spawn j ∧ t' = Thread.start S j) ∨
    (a.threads[i]? = some t' ∧ l.caller ≠ some i) ∨
    (∃ t, l = .stop i ∧ a.threads[i]? = some t ∧ t' = { t with stopped := true }) ∨
    ∃ t c r next, l = .call i c r ∧ a.threads[i]? = some t ∧ t.rest = .call c next ∧
      t.stopped = false ∧ S.handles a.world c r b.world ∧ t' = t.answer c r next := by
  cases h with
  | spawn j =>
    rcases getElem?_append_thread ht' with ⟨-, rfl⟩ | ht
    · exact .inl ⟨j, rfl, rfl⟩
    · exact .inr (.inl ⟨ht, by simp [Label.caller]⟩)
  | @call k t c next r w ht hrest hrun hw =>
    rcases getElem?_set_thread ht ht' with ⟨rfl, rfl⟩ | ⟨hne, ht⟩
    · exact .inr (.inr (.inr ⟨t, c, r, next, rfl, ht, hrest, hrun, hw, rfl⟩))
    · exact .inr (.inl ⟨ht, by simp [Label.caller, Ne.symm hne]⟩)
  | @stop k t ht =>
    rcases getElem?_set_thread ht ht' with ⟨rfl, rfl⟩ | ⟨-, ht⟩
    · exact .inr (.inr (.inl ⟨t, rfl, ht, rfl⟩))
    · exact .inr (.inl ⟨ht, by simp [Label.caller]⟩)
  | env hw => exact .inr (.inl ⟨ht', by simp [Label.caller]⟩)

/-- A thread keeps its job and only extends its trace. -/
theorem Step.thread_later {a b : Config C R W J α} {l : Label C R J E} (h : S.Step a l b) {i : ℕ}
    {t : Thread C R J α} (ht : a.threads[i]? = some t) :
    ∃ u, b.threads[i]? = some u ∧ u.job = t.job ∧ t.trace <:+ u.trace := by
  have hlt : i < a.threads.length := (List.getElem?_eq_some_iff.mp ht).1
  cases h with
  | spawn j => exact ⟨t, by rwa [List.getElem?_append_left hlt], rfl, List.suffix_rfl⟩
  | @call k u c next r w hu hrest hrun hw =>
    by_cases hik : k = i
    · subst hik
      obtain rfl : u = t := Option.some.inj (hu.symm.trans ht)
      exact ⟨u.answer c r next, List.getElem?_set_self hlt, rfl, List.suffix_cons _ _⟩
    · exact ⟨t, by rwa [List.getElem?_set_ne hik], rfl, List.suffix_rfl⟩
  | @stop k u hu =>
    by_cases hik : k = i
    · subst hik
      obtain rfl : u = t := Option.some.inj (hu.symm.trans ht)
      exact ⟨{ u with stopped := true }, List.getElem?_set_self hlt, rfl, List.suffix_rfl⟩
    · exact ⟨t, by rwa [List.getElem?_set_ne hik], rfl, List.suffix_rfl⟩
  | env hw => exact ⟨t, ht, rfl, List.suffix_rfl⟩

/-- Along a run a thread keeps its job and only extends its trace. -/
theorem Reaches.thread_later (h : S.Reaches ok a b) {i : ℕ} {t : Thread C R J α}
    (ht : a.threads[i]? = some t) :
    ∃ u, b.threads[i]? = some u ∧ u.job = t.job ∧ t.trace <:+ u.trace := by
  induction h with
  | refl => exact ⟨t, ht, rfl, List.suffix_rfl⟩
  | tail _ hlast ih =>
    obtain ⟨u, hu, hjob, hsuffix⟩ := ih
    obtain ⟨l, -, hstep⟩ := hlast
    obtain ⟨v, hv, hjob', hsuffix'⟩ := hstep.thread_later hu
    exact ⟨v, hv, hjob'.trans hjob, hsuffix.trans hsuffix'⟩

/-- A property of single threads holds of every thread of a run if it holds of fresh
threads and is kept by answered calls and by stopping. -/
theorem Reaches.threads {T : Thread C R J α → Prop} (h : S.Reaches ok a b)
    (hstart : ∀ j, T (Thread.start S j))
    (hanswer : ∀ (t : Thread C R J α) c next r,
      T t → t.rest = .call c next → T (t.answer c r next))
    (hstop : ∀ t : Thread C R J α, T t → T { t with stopped := true })
    (ha : ∀ (i : ℕ) t, a.threads[i]? = some t → T t) :
    ∀ (i : ℕ) t, b.threads[i]? = some t → T t := by
  refine h.invariant (I := fun a => ∀ (i : ℕ) t, a.threads[i]? = some t → T t) ha ?_
  intro a b l hinv _ hl
  cases hl with
  | spawn j =>
    intro i t ht
    rcases getElem?_append_thread ht with ⟨_, rfl⟩ | ht
    · exact hstart j
    · exact hinv i t ht
  | call ht hrest _ _ =>
    intro i u hu
    rcases getElem?_set_thread ht hu with ⟨_, rfl⟩ | ⟨_, hu⟩
    · exact hanswer _ _ _ _ (hinv _ _ ht) hrest
    · exact hinv i u hu
  | stop ht =>
    intro i u hu
    rcases getElem?_set_thread ht hu with ⟨_, rfl⟩ | ⟨_, hu⟩
    · exact hstop _ (hinv _ _ ht)
    · exact hinv i u hu
  | env _ => exact hinv

/-- A property of traces that survives further calls is never lost. -/
theorem Step.someTrace {a b : Config C R W J α} {l : Label C R J E} (h : S.Step a l b)
    {p : J → List (Sigma R) → Prop}
    (hp : ∀ j trace call, p j trace → p j (call :: trace)) (ha : a.SomeTrace p) :
    b.SomeTrace p := by
  obtain ⟨i, t, ht, hpt⟩ := ha
  cases h with
  | spawn j =>
    have hlt : i < a.threads.length := (List.getElem?_eq_some_iff.mp ht).1
    exact ⟨i, t, by rwa [List.getElem?_append_left hlt], hpt⟩
  | @call k u c next r w hu hrest hrun hw =>
    by_cases hik : k = i
    · subst hik
      have hut : u = t := Option.some.inj (hu.symm.trans ht)
      subst hut
      have hlt : k < a.threads.length := (List.getElem?_eq_some_iff.mp ht).1
      exact ⟨k, u.answer c r next, List.getElem?_set_self hlt, hp _ _ _ hpt⟩
    · exact ⟨i, t, by rwa [List.getElem?_set_ne hik], hpt⟩
  | @stop k u hu =>
    by_cases hik : k = i
    · subst hik
      have hut : u = t := Option.some.inj (hu.symm.trans ht)
      subst hut
      have hlt : k < a.threads.length := (List.getElem?_eq_some_iff.mp ht).1
      exact ⟨k, { u with stopped := true }, List.getElem?_set_self hlt, hpt⟩
    · exact ⟨i, t, by rwa [List.getElem?_set_ne hik], hpt⟩
  | env hw => exact ⟨i, t, ht, hpt⟩

/-- After an answered call some thread's trace ends with it. -/
theorem Step.someTrace_call {a b : Config C R W J α} {i : ℕ} {c : C} {r : R c}
    (h : S.Step a (.call i c r) b) {p : J → List (Sigma R) → Prop}
    (hp : ∀ t : Thread C R J α, a.threads[i]? = some t → p t.job (⟨c, r⟩ :: t.trace)) :
    b.SomeTrace p := by
  cases h with
  | @call k u c next r w hu hrest hrun hw =>
    have hlt : i < a.threads.length := (List.getElem?_eq_some_iff.mp hu).1
    exact ⟨i, u.answer c r next, List.getElem?_set_self hlt, hp u hu⟩

/-- A number summed over all threads. -/
def total (f : Thread C R J α → ℕ) (ts : List (Thread C R J α)) : ℕ := (ts.map f).sum

variable {f : Thread C R J α → ℕ} {ts : List (Thread C R J α)} {t u : Thread C R J α} {i : ℕ}

/-- A new thread adds its own number. -/
@[simp] theorem total_append : total f (ts ++ [u]) = total f ts + f u := by
  simp [total]

/-- Replacing a thread replaces its number. -/
theorem total_set (ht : ts[i]? = some t) : total f (ts.set i u) + f t = total f ts + f u := by
  induction ts generalizing i with
  | nil => simp at ht
  | cons v ts ih =>
    cases i with
    | zero =>
      simp only [List.getElem?_cons_zero, Option.some.injEq] at ht
      subst ht
      simp only [total, List.set_cons_zero, List.map_cons, List.sum_cons]
      omega
    | succ i =>
      rw [List.getElem?_cons_succ] at ht
      have hrest := ih ht
      simp only [total, List.set_cons_succ, List.map_cons, List.sum_cons] at hrest ⊢
      omega

/-- A single thread's number is part of the total. -/
theorem le_total (ht : ts[i]? = some t) : f t ≤ total f ts :=
  List.le_sum_of_mem (List.mem_map_of_mem (List.mem_of_getElem? ht))

/-- The total of a sum. -/
theorem total_add {g : Thread C R J α → ℕ} :
    total (fun t => f t + g t) ts = total f ts + total g ts :=
  List.sum_map_add

/-- A bound on every thread's number is one on the total. -/
theorem total_le_total {g : Thread C R J α → ℕ} (h : ∀ (i : ℕ) t, ts[i]? = some t → f t ≤ g t) :
    total f ts ≤ total g ts := by
  refine List.sum_le_sum fun t ht => ?_
  obtain ⟨i, hi⟩ := List.mem_iff_getElem?.mp ht
  exact h i t hi

/-- A step adds its own answered call to the number of calls in all traces. -/
theorem Step.total_countP {a b : Config C R W J α} {l : Label C R J E} (h : S.Step a l b)
    (p : Sigma R → Bool) :
    total (fun t => t.trace.countP p) b.threads =
      total (fun t => t.trace.countP p) a.threads + l.counts p := by
  cases h with
  | spawn j => simp [Thread.start, Label.counts]
  | @call i t c next r w ht hrest hrun hw =>
    have hset := total_set (f := fun t : Thread C R J α => t.trace.countP p)
      (u := t.answer c r next) ht
    simp only [Thread.answer, List.countP_cons] at hset
    simp only [Label.counts, Thread.answer]
    omega
  | @stop i t ht =>
    have hset := total_set (f := fun t : Thread C R J α => t.trace.countP p)
      (u := { t with stopped := true }) ht
    exact Nat.add_right_cancel hset
  | env hw => rfl

end System

namespace Protocol

variable (P : Protocol C R Φ) (start : J → Φ)

/-- The phase of a thread, from the start phase of its job and its trace. -/
def phaseOf (t : Thread C R J α) : Φ := P.phase (start t.job) t.trace

/-- The thread keeps to the protocol from its current phase on and returns only results that
satisfy the postcondition of its job. -/
def Follows (Q : J → Φ → α → Prop) (t : Thread C R J α) : Prop :=
  P.Conforms (P.phaseOf start t) t.rest (Q t.job)

variable {P start} {Q : J → Φ → α → Prop} {S : System C R W J E α}

@[simp] theorem phaseOf_start (j : J) : P.phaseOf start (Thread.start S j) = start j := rfl

@[simp] theorem phaseOf_answer (t : Thread C R J α) (c : C) (r : R c)
    (next : R c → Program C R α) :
    P.phaseOf start (t.answer c r next) = P.next (P.phaseOf start t) c r := rfl

@[simp] theorem phaseOf_stopped (t : Thread C R J α) (b : Bool) :
    P.phaseOf start { t with stopped := b } = P.phaseOf start t := rfl

/-- A thread about to make a call is allowed to make it. -/
theorem Follows.allows {t : Thread C R J α} (h : P.Follows start Q t) {c : C}
    {next : R c → Program C R α} (hrest : t.rest = .call c next) :
    P.allows (P.phaseOf start t) c := by
  unfold Follows at h
  rw [hrest] at h
  exact h.1

/-- The result of a thread satisfies the postcondition. -/
theorem Follows.result {t : Thread C R J α} (h : P.Follows start Q t) {x : α}
    (hrest : t.rest = .done x) : Q t.job (P.phaseOf start t) x := by
  unfold Follows at h
  rw [hrest] at h
  exact h

/-- If every body conforms to the protocol, every thread of every run follows it. -/
theorem follows_of_reaches {ok : Config C R W J α → Label C R J E → Prop}
    {a b : Config C R W J α} (h : S.Reaches ok a b)
    (hbody : ∀ j, P.Conforms (start j) (S.body j) (Q j))
    (ha : ∀ (i : ℕ) t, a.threads[i]? = some t → P.Follows start Q t) :
    ∀ (i : ℕ) t, b.threads[i]? = some t → P.Follows start Q t := by
  refine h.threads (T := P.Follows start Q) hbody ?_ (fun _ ht => ht) ha
  intro t c next r ht hrest
  unfold Follows at ht ⊢
  rw [hrest] at ht
  exact ht.2 r

/-- A property of traces that every allowed call keeps holds of every thread of every run, at
every earlier moment. -/
theorem trace_of_reaches {ok : Config C R W J α → Label C R J E → Prop}
    {T : J → List (Sigma R) → Prop}
    {a b : Config C R W J α} (h : S.Reaches ok a b) (ha : a.threads = [])
    (hbody : ∀ j, P.Conforms (start j) (S.body j) (Q j)) (hnil : ∀ j, T j [])
    (hcons : ∀ j trace c r, P.allows (P.phase (start j) trace) c → T j trace →
      T j (⟨c, r⟩ :: trace)) {i : ℕ} {t : Thread C R J α} (ht : b.threads[i]? = some t)
    {trace : List (Sigma R)} (htrace : trace <:+ t.trace) : T t.job trace := by
  have hboth : ∀ (i : ℕ) t, b.threads[i]? = some t →
      P.Follows start Q t ∧ ∀ trace, trace <:+ t.trace → T t.job trace := by
    refine h.threads (T := fun t => P.Follows start Q t ∧ ∀ trace, trace <:+ t.trace →
      T t.job trace)
      (fun j => ⟨hbody j, fun trace hnil' => ?_⟩) ?_ (fun _ ht => ht) (by simp [ha])
    · rw [List.suffix_nil.mp hnil']
      exact hnil j
    · rintro t c next r ⟨hfollows, htrace⟩ hrest
      have hallows := hfollows.allows hrest
      unfold Follows at hfollows ⊢
      rw [hrest] at hfollows
      refine ⟨hfollows.2 r, fun trace hsuffix => ?_⟩
      rcases List.suffix_cons_iff.mp hsuffix with rfl | hsuffix
      · exact hcons _ _ _ _ hallows (htrace _ List.suffix_rfl)
      · exact htrace _ hsuffix
  exact (hboth i t ht).2 trace htrace

end Protocol

end Interaction
