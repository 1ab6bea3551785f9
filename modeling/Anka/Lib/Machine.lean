import Mathlib.Logic.Relation

/-!
# Labelled machines and their runs

A machine steps deterministically on a label: `step s i = some s'`, or `none` where the
operation does not return. A step is taken under a guard `ok`, a condition on the state and the
label; `Run ok` is a run all of whose steps meet it, and `Run (fun _ _ => True)` is any run.

`Run.invariant`: what every step that meets the guard preserves holds after every run.
-/

namespace Machine

variable {σ ι : Type} (step : σ → ι → Option σ)

/-- One step on a label that meets the guard. -/
def Step (ok : σ → ι → Prop) (s s' : σ) : Prop := ∃ i, ok s i ∧ step s i = some s'

/-- A run whose steps all meet the guard. -/
def Run (ok : σ → ι → Prop) : σ → σ → Prop := Relation.ReflTransGen (Step step ok)

/-- Every state of any run from an initial state. -/
def Reachable (init : σ → Prop) (s : σ) : Prop :=
  ∃ s0, init s0 ∧ Run step (fun _ _ => True) s0 s

/-- Every state of a run under a guard from an initial state. -/
def ReachableIf (ok : σ → ι → Prop) (init : σ → Prop) (s : σ) : Prop :=
  ∃ s0, init s0 ∧ Run step ok s0 s

variable {step}

theorem Run.invariant {ok : σ → ι → Prop} {inv : σ → Prop}
    (hstep : ∀ s i s', inv s → ok s i → step s i = some s' → inv s') {s s' : σ}
    (hr : Run step ok s s') (hs : inv s) : inv s' := by
  induction hr with
  | refl => exact hs
  | tail _ h ih =>
    obtain ⟨i, hok, hi⟩ := h
    exact hstep _ i _ ih hok hi

variable {ok : σ → ι → Prop}

theorem Run.mono {ok' : σ → ι → Prop} (h : ∀ s i, ok s i → ok' s i) {s s' : σ}
    (hr : Run step ok s s') : Run step ok' s s' :=
  Relation.ReflTransGen.mono (fun _ _ ⟨i, hok, hi⟩ => ⟨i, h _ i hok, hi⟩) _ _ hr

theorem ReachableIf.invariant {ok : σ → ι → Prop} {init inv : σ → Prop} (hi : ∀ s, init s → inv s)
    (hstep : ∀ s i s', inv s → ok s i → step s i = some s' → inv s') {s : σ}
    (hr : ReachableIf step ok init s) : inv s := by
  obtain ⟨s0, h0, hru⟩ := hr
  exact hru.invariant hstep (hi s0 h0)

theorem Reachable.invariant {init inv : σ → Prop} (hi : ∀ s, init s → inv s)
    (hstep : ∀ s i s', inv s → step s i = some s' → inv s') {s : σ}
    (hr : Reachable step init s) : inv s :=
  @ReachableIf.invariant σ ι step (fun _ _ => True) init inv hi
    (fun s i s' hs _ => hstep s i s' hs) s hr

variable {init : σ → Prop} {s s' : σ}

theorem ReachableIf.reachable (hr : ReachableIf step ok init s) : Reachable step init s := by
  obtain ⟨s0, h0, hru⟩ := hr
  exact ⟨s0, h0, hru.mono fun _ _ _ => trivial⟩

theorem Reachable.tail {i : ι} (hr : Reachable step init s)
    (h : step s i = some s') : Reachable step init s' := by
  obtain ⟨s0, h0, hru⟩ := hr
  exact ⟨s0, h0, hru.tail ⟨i, trivial, h⟩⟩

theorem Reachable.trans (hr : Reachable step init s)
    (h : Run step (fun _ _ => True) s s') : Reachable step init s' := by
  obtain ⟨s0, h0, hru⟩ := hr
  exact ⟨s0, h0, hru.trans h⟩

/-! ## Runs along their labels -/

/-- The run that takes these labels. -/
inductive Path (step : σ → ι → Option σ) (ok : σ → ι → Prop) : σ → List ι → σ → Prop
  | nil (s : σ) : Path step ok s [] s
  | cons {s t s' : σ} {i : ι} {labels : List ι} (hok : ok s i) (hstep : step s i = some t)
      (hrest : Path step ok t labels s') : Path step ok s (i :: labels) s'

/-! ## Concrete runs -/

/-- The labels taken in order, each under the guard. -/
def replay (step : σ → ι → Option σ) (ok : σ → ι → Prop) [∀ s i, Decidable (ok s i)] :
    List ι → σ → Option σ
  | [], s => some s
  | i :: rest, s => if ok s i then (step s i).bind (replay step ok rest) else none

theorem run_of_replay [∀ s i, Decidable (ok s i)] {l : List ι}
    (h : replay step ok l s = some s') : Run step ok s s' := by
  induction l generalizing s with
  | nil => exact Option.some.inj h ▸ .refl
  | cons i rest ih =>
    unfold replay at h
    split at h
    · rename_i hok
      obtain ⟨t, ht, h⟩ := Option.bind_eq_some_iff.mp h
      exact .head ⟨i, hok, ht⟩ (ih h)
    · cases h

/-! ## Steps as chains of atomic changes -/

theorem chain_preserved {change : σ → σ → Prop} {inv : σ → Prop}
    (hch : ∀ s s', change s s' → inv s → inv s') {s s' : σ}
    (h : Relation.ReflTransGen change s s') (hs : inv s) : inv s' := by
  induction h with
  | refl => exact hs
  | tail _ hc ih => exact hch _ _ hc ih

end Machine
