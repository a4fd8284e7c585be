import Wagr.Library.Interleaving

/-!
# Courses

The course of a run lists its steps, each with the configuration before it, so that a
statement can speak of what happened after a certain step. Every run has a course, and every
answered call of a course is in the trace of the thread that made it.
-/

namespace Interaction.System

variable {C : Type} {R : C → Type} {W J E α : Type}

/-- The steps that lead from one configuration to another, the first one first. -/
inductive Course (S : System C R W J E α) : Config C R W J α →
    List (Config C R W J α × Label C R J E) → Config C R W J α → Prop
  | start (a) : Course S a [] a
  | step {a b c course l} : Course S a course b → S.Step b l c → Course S a (course ++ [(b, l)]) c

variable {S : System C R W J E α} {ok : Config C R W J α → Label C R J E → Prop}
  {a b : Config C R W J α} {course : List (Config C R W J α × Label C R J E)}

/-- A course whose steps satisfy an assumption is a run. -/
theorem Course.reaches (h : S.Course a course b) (hok : ∀ s ∈ course, ok s.1 s.2) :
    S.Reaches ok a b := by
  induction h with
  | start => exact .refl
  | step _ hstep ih =>
    have hlast := hok _ (List.mem_append_right _ List.mem_cons_self)
    exact (ih fun s hs => hok s (List.mem_append_left _ hs)).step hlast hstep

/-- Every run has a course. -/
theorem Reaches.exists_course (h : S.Reaches ok a b) :
    ∃ course, S.Course a course b ∧ ∀ s ∈ course, ok s.1 s.2 := by
  induction h with
  | refl => exact ⟨[], .start a, by simp⟩
  | tail _ hlast ih =>
    obtain ⟨course, hcourse, hok⟩ := ih
    obtain ⟨l, hl, hstep⟩ := hlast
    refine ⟨_, hcourse.step hstep, fun s hs => ?_⟩
    rcases List.mem_append.mp hs with hs | hs
    · exact hok s hs
    · obtain rfl := List.mem_singleton.mp hs
      exact hl

/-- A call that was answered in the course is in the trace of its thread. -/
theorem Course.answered (h : S.Course a course b) {before : Config C R W J α} {i : ℕ} {q : C}
    {r : R q} (hcall : (before, .call i q r) ∈ course) :
    ∃ t, b.threads[i]? = some t ∧ ⟨q, r⟩ ∈ t.trace := by
  induction h with
  | start => simp at hcall
  | @step b c course l hcourse hstep ih =>
    rcases List.mem_append.mp hcall with hcall | hcall
    · obtain ⟨t, ht, hmem⟩ := ih hcall
      obtain ⟨u, hu, -, hsuffix⟩ := hstep.thread_later ht
      exact ⟨u, hu, hsuffix.subset hmem⟩
    · obtain ⟨rfl, rfl⟩ := Prod.mk.inj (List.mem_singleton.mp hcall)
      cases hstep with
      | call ht hrest hrun hw =>
        have hlt := (List.getElem?_eq_some_iff.mp ht).1
        exact ⟨_, List.getElem?_set_self hlt, List.mem_cons_self⟩

end Interaction.System
