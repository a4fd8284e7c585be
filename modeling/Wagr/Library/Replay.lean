import Wagr.Library.Interleaving

/-!
# Replayed schedules

A schedule names, step by step, which thread moves and how its call is answered. Replaying
it computes the configuration it leads to, or fails at the first move that is impossible.
What a replay computes is reached by a run, so a single evaluation shows that a
configuration is reachable.
-/

namespace Interaction

/-- One move of a schedule; `D` says how a call is answered. -/
inductive Move (J E D : Type)
  | spawn (j : J)
  | call (i : ℕ) (d : D)
  | stop (i : ℕ)
  | env (e : E)

namespace System

variable {C : Type} {R : C → Type} {W J E D α : Type} (S : System C R W J E α)
  (respond : D → W → (c : C) → Option (R c × W))

/-- One move of a schedule, if it is possible. -/
def move (m : Move J E D) (a : Config C R W J α) : Option (Label C R J E × Config C R W J α) :=
  match m with
  | .spawn j => some (.spawn j, { a with threads := a.threads ++ [Thread.start S j] })
  | .call i d =>
    match a.threads[i]? with
    | none => none
    | some t =>
      match t.rest with
      | .done _ => none
      | .call c next =>
        if t.stopped then none
        else (respond d a.world c).map fun (r, w) =>
          (.call i c r, ⟨w, a.threads.set i (t.answer c r next)⟩)
  | .stop i => a.threads[i]?.map fun t =>
      (.stop i, { a with threads := a.threads.set i { t with stopped := true } })
  | .env e => (S.act a.world e).map fun w => (.env e, { a with world := w })

/-- Replay a schedule whose steps pass a check. -/
def replay (check : Config C R W J α → Label C R J E → Bool) :
    List (Move J E D) → Config C R W J α → Option (Config C R W J α)
  | [], a => some a
  | m :: ms, a =>
    match S.move respond m a with
    | none => none
    | some (l, b) => if check a l then replay check ms b else none

variable {S respond} {a b : Config C R W J α} {l : Label C R J E}

/-- A possible move is a step, if the answers are those of the world. -/
theorem step_of_move
    (hrespond : ∀ {d w c r w'}, respond d w c = some (r, w') → S.handles w c r w')
    {m : Move J E D} (h : S.move respond m a = some (l, b)) : S.Step a l b := by
  cases m with
  | spawn j =>
    cases h
    exact .spawn j
  | call i d =>
    simp only [move] at h
    split at h
    · cases h
    · rename_i t ht
      split at h
      · cases h
      · rename_i c next hrest
        split at h
        · cases h
        · rename_i hrun
          obtain ⟨⟨r, w⟩, hr, heq⟩ := Option.map_eq_some_iff.mp h
          cases heq
          exact .call ht hrest (by simpa using hrun) (hrespond hr)
  | stop i =>
    obtain ⟨t, ht, heq⟩ := Option.map_eq_some_iff.mp h
    cases heq
    exact .stop ht
  | env e =>
    obtain ⟨w, hw, heq⟩ := Option.map_eq_some_iff.mp h
    cases heq
    exact .env hw

/-- A replay is a run, and its steps satisfy what the check guarantees. -/
theorem reaches_of_replay {ok : Config C R W J α → Label C R J E → Prop}
    {check : Config C R W J α → Label C R J E → Bool}
    (hrespond : ∀ {d w c r w'}, respond d w c = some (r, w') → S.handles w c r w')
    (hcheck : ∀ a l, check a l = true → ok a l) {ms : List (Move J E D)}
    (h : S.replay respond check ms a = some b) : S.Reaches ok a b := by
  induction ms generalizing a with
  | nil =>
    cases h
    exact .refl
  | cons m ms ih =>
    simp only [replay] at h
    split at h
    · cases h
    · rename_i l c hmove
      split at h
      · rename_i hpass
        exact .head ⟨l, hcheck a l hpass, step_of_move hrespond hmove⟩ (ih h)
      · cases h

end System

end Interaction
