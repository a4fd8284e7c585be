import Wagr.Library.Past

/-!
# A client beside a system

A client takes its own steps while a system runs; what it may hear depends on the configuration of
the system and on what both have done so far. The history lists the client's steps with the
configurations they were taken in. What a step establishes lasts until a step of the client ends it.
-/

namespace Interaction.System

variable {C : Type} {R : C → Type} {W J E α X Event : Type}

/-- A step of the client, with the configuration and the client's state before it. -/
structure Act (C : Type) (R : C → Type) (W J α X Event : Type) where
  /-- The configuration in which the step is taken. -/
  config : Config C R W J α
  /-- The client before the step. -/
  state : X
  /-- The step. -/
  event : Event

/-- A client: its steps, and what it may hear after a history. -/
structure Client (C : Type) (R : C → Type) (W J α X Event : Type) where
  /-- The client after an event, if the event is possible. -/
  step : X → Event → Option X
  /-- The history and the configuration allow the event. -/
  hears : List (Act C R W J α X Event) → Act C R W J α X Event → Prop

variable {S : System C R W J E α} {ok : Config C R W J α → Label C R J E → Prop}
  {K : Client C R W J α X Event} {a b : Config C R W J α} {x y : X}
  {history first rest : List (Act C R W J α X Event)} {s : Act C R W J α X Event}

/-- The system runs from `a` to `b` and the client beside it from `x` to `y`; the history has the
client's steps, the first one first. -/
inductive Beside (S : System C R W J E α) (ok : Config C R W J α → Label C R J E → Prop)
    (K : Client C R W J α X Event) (a : Config C R W J α) (x : X) :
    List (Act C R W J α X Event) → Config C R W J α → X → Prop
  | start : Beside S ok K a x [] a x
  | run {history b c y l} : Beside S ok K a x history b y → ok b l → S.Step b l c →
      Beside S ok K a x history c y
  | act {history b y e z} : Beside S ok K a x history b y → K.hears history ⟨b, y, e⟩ →
      K.step y e = some z → Beside S ok K a x (history ++ [⟨b, y, e⟩]) b z

namespace Beside

/-- The system takes a run. -/
theorem reaches (h : Beside S ok K a x history b y) : S.Reaches ok a b := by
  induction h with
  | start => exact .refl
  | run _ hok hstep ih => exact ih.step hok hstep
  | act _ _ _ ih => exact ih

/-- The system takes a run up to every step of the client. -/
theorem reaches_config (h : Beside S ok K a x history b y) (hs : s ∈ history) :
    S.Reaches ok a s.config := by
  induction h with
  | start => simp at hs
  | run _ _ _ ih => exact ih hs
  | act hbefore _ _ ih =>
    rcases List.mem_append.mp hs with hs | hs
    · exact ih hs
    · obtain rfl := List.mem_singleton.mp hs
      exact hbefore.reaches

/-- The system may run on by itself. -/
theorem runs {c : Config C R W J α} (h : Beside S ok K a x history b y)
    (hrun : S.Reaches ok b c) : Beside S ok K a x history c y := by
  induction hrun with
  | refl => exact h
  | tail _ hlast ih =>
    obtain ⟨l, hok, hstep⟩ := hlast
    exact ih.run hok hstep

/-- A step of the history was taken after those in front of it. -/
theorem split (h : Beside S ok K a x history b y) (hhistory : history = first ++ s :: rest) :
    Beside S ok K a x first s.config s.state ∧ K.hears first s ∧ S.Reaches ok s.config b := by
  induction h generalizing rest with
  | start => simp at hhistory
  | run _ hok hstep ih =>
    obtain ⟨hbefore, hhears, hreach⟩ := ih hhistory
    exact ⟨hbefore, hhears, hreach.step hok hstep⟩
  | act hbefore hhears hz ih =>
    rcases List.eq_nil_or_concat rest with rfl | ⟨rest', r, rfl⟩
    · obtain ⟨rfl, hlast⟩ := List.append_inj' hhistory rfl
      obtain rfl := List.singleton_inj.mp hlast
      exact ⟨hbefore, hhears, .refl⟩
    · have hsplit := hhistory.trans (show _ = first ++ s :: rest' ++ [r] by simp)
      exact ih (List.append_inj' hsplit rfl).1

/-- What every step of the client in the history keeps holds before each of them and at the end. -/
theorem invariant {I : X → Prop} (h : Beside S ok K a x history b y) (hstart : I x)
    (hkeep : ∀ s ∈ history, I s.state → ∀ z, K.step s.state s.event = some z → I z) :
    I y ∧ ∀ s ∈ history, I s.state := by
  induction h with
  | start => exact ⟨hstart, by simp⟩
  | run _ _ _ ih => exact ih hkeep
  | @act history b y e z _ _ hz ih =>
    obtain ⟨hy, hall⟩ := ih fun s hs => hkeep s (List.mem_append_left _ hs)
    constructor
    · exact hkeep ⟨b, y, e⟩ (by simp) hy z hz
    · intro s hs
      rcases List.mem_append.mp hs with hs | hs
      · exact hall s hs
      · obtain rfl := List.mem_singleton.mp hs
        exact hy

/-- What a step of the client establishes holds at the end, or a later step has ended it. -/
theorem lasts {P : X → Prop} {ends : Act C R W J α X Event → Prop}
    (h : Beside S ok K a x history b y) (hhistory : history = first ++ s :: rest)
    (hnow : ∀ z, K.step s.state s.event = some z → P z)
    (hkeep : ∀ r ∈ rest, P r.state → ∀ z, K.step r.state r.event = some z → P z ∨ ends r) :
    S.Reaches ok s.config b ∧ (P y ∨ ∃ before r after, rest = before ++ r :: after ∧
      S.Reaches ok s.config r.config ∧ S.Reaches ok r.config b ∧ P r.state ∧
      K.hears (first ++ s :: before) r ∧ ends r) := by
  induction h generalizing rest with
  | start => simp at hhistory
  | run hbefore hok hstep ih =>
    obtain ⟨hreach, hend⟩ := ih hhistory hkeep
    refine ⟨hreach.step hok hstep, ?_⟩
    rcases hend with hP | ⟨before, r, after, hrest, hfrom, hto, hr⟩
    · exact .inl hP
    · exact .inr ⟨before, r, after, hrest, hfrom, hto.step hok hstep, hr⟩
  | @act history b y e z hbefore hhears hz ih =>
    rcases List.eq_nil_or_concat rest with rfl | ⟨rest', r, rfl⟩
    · obtain ⟨-, hlast⟩ := List.append_inj' hhistory rfl
      obtain rfl := List.singleton_inj.mp hlast
      exact ⟨.refl, .inl (hnow z hz)⟩
    · have hsplit : history ++ [⟨b, y, e⟩] = first ++ s :: rest' ++ [r] := by simpa using hhistory
      obtain ⟨rfl, hlast⟩ := List.append_inj' hsplit rfl
      obtain rfl := List.singleton_inj.mp hlast
      obtain ⟨hreach, hend⟩ := ih rfl fun r hr => hkeep r (by simp [hr])
      refine ⟨hreach, ?_⟩
      rcases hend with hP | ⟨before, r, after, hrest, hfrom, hto, hr⟩
      · rcases hkeep ⟨b, y, e⟩ (by simp) hP z hz with hz' | hends
        · exact .inl hz'
        · exact .inr ⟨rest', ⟨b, y, e⟩, [], by simp, hreach, .refl, hP, hhears, hends⟩
      · exact .inr ⟨before, r, after ++ [⟨b, y, e⟩], by simp [hrest], hfrom, hto, hr⟩

end Beside

end Interaction.System
