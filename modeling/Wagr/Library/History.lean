import Wagr.Library.Interleaving

/-!
# Protocols that remember every answer

The phase of a history protocol is a job together with the trace of its answered calls, so
that a rule for a call may ask for any earlier answer. Rules that only ask for what has been
answered survive further calls, and a program that makes only such calls needs no phases.
-/

namespace Interaction

variable {C : Type} {R : C → Type} {W J E α : Type}

namespace Protocol

/-- The protocol that allows the calls for which a rule holds of the job and of everything
answered so far. -/
def history (rule : J → List (Sigma R) → C → Prop) : Protocol C R (J × List (Sigma R)) where
  allows φ c := rule φ.1 φ.2 c
  next φ c r := (φ.1, ⟨c, r⟩ :: φ.2)

variable {rule : J → List (Sigma R) → C → Prop} {j : J} {trace : List (Sigma R)}

/-- The phase after a trace is the trace. -/
@[simp] theorem history_phase (trace : List (Sigma R)) :
    (history rule).phase (j, []) trace = (j, trace) := by
  induction trace with
  | nil => rfl
  | cons call trace ih =>
    obtain ⟨c, r⟩ := call
    change (history rule).next ((history rule).phase (j, []) trace) c r = _
    rw [ih]
    rfl

/-- A program only extends the trace. -/
theorem Conforms.grows {x : Program C R α} {Q : J × List (Sigma R) → α → Prop}
    (hx : (history rule).Conforms (j, trace) x Q) :
    (history rule).Conforms (j, trace) x fun φ r => (φ.1 = j ∧ trace <:+ φ.2) ∧ Q φ r := by
  induction x generalizing trace with
  | done a => exact ⟨⟨rfl, List.suffix_rfl⟩, hx⟩
  | call c next ih =>
    refine ⟨hx.1, fun r => (ih r (hx.2 r)).mono ?_⟩
    rintro φ a ⟨⟨hjob, hsuffix⟩, hQ⟩
    exact ⟨⟨hjob, (List.suffix_cons _ _).trans hsuffix⟩, hQ⟩

/-- A program whose calls are allowed after every continuation of the trace conforms, only
extends the trace, and returns what it returns by itself. -/
theorem conforms_history_returns {x : Program C R α} {Q : α → Prop}
    (hx : (footprint fun c => ∀ later, trace <:+ later → rule j later c).Conforms () x
      fun _ r => Q r) :
    (history rule).Conforms (j, trace) x fun φ r => φ.1 = j ∧ trace <:+ φ.2 ∧ Q r := by
  have hgrow : ∀ later, trace <:+ later →
      (history rule).Conforms (j, later) x fun φ r => φ.1 = j ∧ trace <:+ φ.2 ∧ Q r := by
    induction x with
    | done a => exact fun later hlater => ⟨rfl, hlater, hx⟩
    | call c next ih =>
      intro later hlater
      refine ⟨hx.1 later hlater, fun r => ?_⟩
      exact ih r (hx.2 r) _ (hlater.trans (List.suffix_cons _ _))
  exact hgrow trace List.suffix_rfl

/-- A program whose calls are allowed after every continuation of the trace conforms and only
extends the trace. -/
theorem conforms_history {x : Program C R α}
    (hx : (footprint fun c => ∀ later, trace <:+ later → rule j later c).Conforms () x
      fun _ _ => True) :
    (history rule).Conforms (j, trace) x fun φ _ => φ.1 = j ∧ trace <:+ φ.2 :=
  (conforms_history_returns hx).mono fun _ _ h => ⟨h.1, h.2.1⟩

end Protocol

namespace System

variable {S : System C R W J E α} {ok : Config C R W J α → Label C R J E → Prop}
  {a b : Config C R W J α}

/-- What holds of every answered call when it is answered, and is kept by every step, holds of
every call in every trace. The number of the thread is known. -/
theorem Reaches.answered {T : Config C R W J α → ℕ → J → Sigma R → Prop} (h : S.Reaches ok a b)
    (ha : a.threads = [])
    (hkeep : ∀ {a b l}, S.Step a l b → ∀ i j call, T a i j call → T b i j call)
    (hanswer : ∀ {b c : Config C R W J α} {i t q r next}, S.Reaches ok a b →
      ok b (.call i q r) → S.Step b (.call i q r) c → b.threads[i]? = some t →
      t.rest = .call q next → T c i t.job ⟨q, r⟩)
    {i : ℕ} {t : Thread C R J α} (ht : b.threads[i]? = some t) {call : Sigma R}
    (hcall : call ∈ t.trace) : T b i t.job call := by
  induction h generalizing i t call with
  | refl => simp [ha] at ht
  | @tail b c hrun hlast ih =>
    obtain ⟨l, hok, hstep⟩ := hlast
    rcases hstep.thread_cases ht with ⟨j, rfl, rfl⟩ | ⟨hbefore, -⟩ | ⟨u, rfl, hu, rfl⟩ |
      ⟨u, q, r, next, rfl, hu, hrest, -, -, rfl⟩
    · cases hcall
    · exact hkeep hstep _ _ _ (ih hbefore hcall)
    · exact hkeep hstep _ _ _ (ih hu hcall)
    · rcases List.mem_cons.mp hcall with rfl | hcall
      · have hnew : T c i u.job ⟨q, r⟩ := hanswer hrun hok hstep hu hrest
        exact hnew
      · exact hkeep hstep _ _ _ (ih hu hcall)

end System

end Interaction
