import Wagr.Library.Program

/-!
# Programs that run alone

The answered calls of a program lead from one state of its surroundings to another. What a finished
run does to the state is the effect of its calls, one after the other.
-/

namespace Interaction

variable {C : Type} {R : C → Type} {W α β : Type}

/-- The answered calls, the first one first, lead from a state to another. -/
def Leads (handles : W → (c : C) → R c → W → Prop) : W → List (Sigma R) → W → Prop
  | w, [], w' => w' = w
  | w, ⟨c, r⟩ :: calls, w' => ∃ u, handles w c r u ∧ Leads handles u calls w'

/-- Run a program alone; `D` says how a call is answered. -/
def follow {D : Type} (respond : D → W → (c : C) → Option (R c × W)) :
    List D → W → Program C R α → Option (α × List (Sigma R) × W)
  | [], w, .done a => some (a, [], w)
  | d :: ds, w, .call c next =>
    match respond d w c with
    | none => none
    | some (r, u) => (follow respond ds u (next r)).map fun (a, calls, w') =>
      (a, ⟨c, r⟩ :: calls, w')
  | _, _, _ => none

variable {handles : W → (c : C) → R c → W → Prop} {w w' : W} {first rest calls : List (Sigma R)}

/-- Calls are followed by calls. -/
theorem leads_append :
    Leads handles w (first ++ rest) w' ↔ ∃ u, Leads handles w first u ∧
      Leads handles u rest w' := by
  induction first generalizing w with
  | nil =>
    constructor
    · exact fun h => ⟨w, rfl, h⟩
    · rintro ⟨u, rfl, h⟩
      exact h
  | cons call first ih =>
    obtain ⟨c, r⟩ := call
    constructor
    · rintro ⟨v, hcall, h⟩
      obtain ⟨u, hfirst, hrest⟩ := ih.mp h
      exact ⟨u, ⟨v, hcall, hfirst⟩, hrest⟩
    · rintro ⟨u, ⟨v, hcall, hfirst⟩, hrest⟩
      exact ⟨v, hcall, ih.mpr ⟨u, hfirst, hrest⟩⟩

/-- A program that is run alone makes its calls, and they lead to the state after it. -/
theorem follow_runs {D : Type} {respond : D → W → (c : C) → Option (R c × W)}
    (hrespond : ∀ {d w c r w'}, respond d w c = some (r, w') → handles w c r w') {ds : List D}
    {x : Program C R α} {a : α} (h : follow respond ds w x = some (a, calls, w')) :
    x.Yields a calls ∧ Leads handles w calls w' := by
  induction ds generalizing w x calls with
  | nil =>
    cases x with
    | done b =>
      cases h
      exact ⟨.done, rfl⟩
    | call c next => cases h
  | cons d ds ih =>
    cases x with
    | done b => cases h
    | call c next =>
      simp only [follow] at h
      split at h
      · cases h
      · rename_i r u hanswer
        obtain ⟨⟨b, calls, w''⟩, hrest, heq⟩ := Option.map_eq_some_iff.mp h
        cases heq
        obtain ⟨hyields, hleads⟩ := ih hrest
        exact ⟨.call r hyields, u, hrespond hanswer, hleads⟩

/-- What no call changes is the same afterwards. -/
theorem Leads.same {f : W → β} (h : Leads handles w calls w')
    (hcalls : ∀ call ∈ calls, ∀ u u', handles u call.1 call.2 u' → f u' = f u) : f w' = f w := by
  induction calls generalizing w with
  | nil => rw [show w' = w from h]
  | cons call calls ih =>
    obtain ⟨u, hcall, hrest⟩ := h
    rw [ih hrest fun call hmem => hcalls call (List.mem_cons_of_mem _ hmem)]
    exact hcalls call List.mem_cons_self w u hcall

/-- All calls of a finished run are in the program's footprint. -/
theorem Protocol.Conforms.mem_calls {p : C → Prop} {x : Program C R α} {Q : Unit → α → Prop} {a : α}
    (h : (Protocol.footprint p).Conforms () x Q) (hx : x.Yields a calls) :
    ∀ call ∈ calls, p call.1 := by
  induction hx with
  | done => simp
  | call r _ ih =>
    exact List.forall_mem_cons.mpr ⟨h.1, ih (h.2 r)⟩

end Interaction
