import Wagr.Library.Interleaving
import Mathlib.Data.Set.Basic

/-!
# Programs that run alone

While one thread moves and nothing else happens, every answer comes from the world the thread
itself has left behind. The worlds that are possible after the calls so far are then the phase
of a protocol, and `Conforms` becomes a logic with pre- and postconditions on the world.
-/

namespace Interaction

variable {C : Type} {R : C → Type} {W J E α : Type}

namespace System

/-- Steps in which only thread `i` moves, and is given answers of a certain kind. -/
def Alone (may : Sigma R → Prop) (i : ℕ) (_ : Config C R W J α) (l : Label C R J E) : Prop :=
  ∃ c r, l = .call i c r ∧ may ⟨c, r⟩

instance (may : Sigma R → Prop) [DecidablePred may] (i : ℕ) (a : Config C R W J α)
    (l : Label C R J E) : Decidable (Alone may i a l) :=
  match l with
  | .call k c r => decidable_of_iff (k = i ∧ may ⟨c, r⟩) ⟨fun h => ⟨c, r, by rw [h.1], h.2⟩, by
      rintro ⟨c', r', heq, hmay⟩
      cases heq
      exact ⟨rfl, hmay⟩⟩
  | .spawn _ | .stop _ | .env _ => .isFalse (by
      rintro ⟨c, r, heq, -⟩
      cases heq)

/-- The protocol of a program that runs alone: the phase is the set of worlds that are possible
after answers of a certain kind. -/
def worlds (S : System C R W J E α) (allows : C → Prop) (may : Sigma R → Prop) :
    Protocol C R (Set W) where
  allows φ c := φ.Nonempty → allows c
  next φ c r := {w' | may ⟨c, r⟩ ∧ ∃ w ∈ φ, S.handles w c r w'}

/-- The call never changes the world. -/
def Quiet (S : System C R W J E α) (c : C) : Prop := ∀ w r w', S.handles w c r w' → w' = w

variable {S : System C R W J E α} {allows : C → Prop} {may : Sigma R → Prop}
  {a b : Config C R W J α} {i : ℕ} {t u : Thread C R J α} {φ : Set W} {Q : Set W → α → Prop}

/-- If no world is possible, nothing happens. -/
theorem conforms_worlds_empty {β : Type} {x : Program C R β} {Q : Set W → β → Prop}
    (hQ : ∀ r, Q ∅ r) : (S.worlds allows may).Conforms ∅ x Q := by
  induction x with
  | done r => exact hQ r
  | call c next ih =>
    refine ⟨fun h => absurd h Set.not_nonempty_empty, fun r => ?_⟩
    have hnone : (S.worlds allows may).next ∅ c r = ∅ := by simp [worlds]
    rw [hnone]
    exact ih r

/-- A thread that runs alone from a possible world keeps to what its program conforms to. -/
theorem Reaches.alone (h : S.Reaches (Alone may i) a b) (ht : a.threads[i]? = some t)
    (hφ : a.world ∈ φ) (hx : (S.worlds allows may).Conforms φ t.rest Q) :
    ∃ u ψ, b.threads[i]? = some u ∧ u.job = t.job ∧ b.world ∈ ψ ∧
      (S.worlds allows may).Conforms ψ u.rest Q := by
  induction h with
  | refl => exact ⟨t, φ, ht, rfl, hφ, hx⟩
  | @tail b c hrun hlast ih =>
    obtain ⟨u, ψ, hu, hjob, hψ, hrest⟩ := ih
    obtain ⟨l, ⟨q, r, rfl, hmay⟩, hstep⟩ := hlast
    cases hstep with
    | @call _ v _ next _ w hv hv' hrun' hw =>
      obtain rfl : u = v := Option.some.inj (hu.symm.trans hv)
      rw [hv'] at hrest
      have hlt : i < b.threads.length := (List.getElem?_eq_some_iff.mp hu).1
      have hpossible : w ∈ (S.worlds allows may).next ψ q r := ⟨hmay, b.world, hψ, hw⟩
      exact ⟨u.answer q r next, _, List.getElem?_set_self hlt, hjob, hpossible, hrest.2 r⟩

/-- The result of a thread that has run alone satisfies the postcondition in some set of worlds
that contains the one reached. -/
theorem Reaches.alone_result (h : S.Reaches (Alone may i) a b) (ht : a.threads[i]? = some t)
    (hφ : a.world ∈ φ) (hx : (S.worlds allows may).Conforms φ t.rest Q)
    (hu : b.threads[i]? = some u) {x : α} (hdone : u.rest = .done x) :
    ∃ ψ, b.world ∈ ψ ∧ Q ψ x := by
  obtain ⟨v, ψ, hv, -, hψ, hrest⟩ := h.alone ht hφ hx
  obtain rfl : u = v := Option.some.inj (hu.symm.trans hv)
  rw [hdone] at hrest
  exact ⟨ψ, hψ, hrest⟩

/-- A thread that runs alone and makes only quiet calls changes nothing, at any moment. -/
theorem Reaches.alone_quiet (h : S.Reaches (Alone may i) a b) (ht : a.threads[i]? = some t)
    (hφ : a.world ∈ φ) (hx : (S.worlds S.Quiet may).Conforms φ t.rest Q) : b.world = a.world := by
  induction h with
  | refl => rfl
  | @tail b c hrun hlast ih =>
    obtain ⟨u, ψ, hu, -, hψ, hrest⟩ := Reaches.alone hrun ht hφ hx
    obtain ⟨l, ⟨q, r, rfl, -⟩, hstep⟩ := hlast
    cases hstep with
    | @call _ v _ next _ w hv hv' _ hw =>
      obtain rfl : u = v := Option.some.inj (hu.symm.trans hv)
      rw [hv'] at hrest
      have hquiet : S.Quiet q := hrest.1 ⟨b.world, hψ⟩
      exact (hquiet _ _ _ hw).trans ih

end System

end Interaction
