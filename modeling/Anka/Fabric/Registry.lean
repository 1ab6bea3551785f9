import Anka.Fabric.Refine

/-!
# The registry calls of a Fabric call

A Fabric owns its pointer registry, and most calls on the Fabric do not touch it. `FabricOp.Calls`
lists the registry calls that a Fabric call can make, and **`step_calls`** says that it makes no
others: a run of the Fabric is a run of its registry. What is known about every run of the registry,
or about every run without certain calls, therefore holds in a Fabric.
-/

namespace Anka

open Rust Res

namespace Fabric

variable {f f' : Fabric} {P : RegistryOp → Prop}

/-- The registry is untouched. -/
def SameRegistry (f f' : Fabric) : Prop := f'.scopedPointers = f.scopedPointers

/-- Between the two Fabrics the registry took calls of a kind. -/
def Called (P : RegistryOp → Prop) (f f' : Fabric) : Prop :=
  Machine.Run ScopedPointers.step (fun _ => P) f.scopedPointers f'.scopedPointers

theorem SameRegistry.called (h : f.SameRegistry f') : f.Called P f' := by
  rw [Called, h]
  exact .refl

theorem Logged.registry (h : Logged f f') : f.SameRegistry f' := by
  rw [SameRegistry, h]

theorem Change.called {G : Guard} (h : Change G f f') : f.Called G.registry f' := by
  cases h with
  | silent _ _ _ _ _ _ _ _ _ _ _ hc => exact hc
  | _ => exact .refl

theorem Changes.called {G : Guard} (h : Changes G f f') : f.Called G.registry f' := by
  induction h with
  | refl => exact .refl
  | tail _ hc ih => exact Relation.ReflTransGen.trans ih hc.called

/-- **A Fabric call makes no other calls on the registry than those of its table.** -/
theorem step_calls {op : FabricOp} (h : f.step op = some f') : f.Called op.Calls f' := by
  let F : Footprint := { registry := op.Calls, numbered := False }
  have hw : op.Within F f :=
    { op.within_any f with registry := fun _ hc => hc }
  refine step_invariant (F := F) id hw (fun g g' hch hg => ?_) .refl h
  exact Relation.ReflTransGen.trans hg hch.called

/-! ## Runs -/

theorem withHeapWork_reachable {host : Host} {g : Nat} {w : Option HeapWorkLimits}
    {s s' : ScopedPointers} {heap heap' : HeapFabric} (hs : s.Reachable)
    (h : withHeapWork host s heap g w = ok (s', heap')) : s'.Reachable := by
  cases w with
  | none =>
    simp only [withHeapWork, ok.injEq, Prod.mk.injEq] at h
    exact h.1 ▸ hs
  | some l =>
    simp only [withHeapWork, eq_ok] at h
    obtain ⟨_, -, work, r, -, s1, hc, rfl, -⟩ := h
    exact Machine.Reachable.tail hs (@ScopedPointers.step_of_run _ _
      (.chargeHeapFabricStorage r) hc)

theorem Constructed.registry (h : Constructed f) : f.scopedPointers.Reachable := by
  cases h with
  | new host m h =>
    obtain ⟨s, hs, h⟩ := bind_eq_ok.mp h
    exact ok.inj h ▸ ⟨s, .new host 4096 hs, .refl⟩
  | withPreprocessorStorage host m h =>
    simp only [Fabric.withPreprocessorStorage, eq_ok] at h
    obtain ⟨_, -, -, s, hs, rfl⟩ := h
    exact ⟨s, .withLimits host _ hs, .refl⟩
  | withPrivateHeapProfile host m l p w wo h =>
    simp only [Fabric.withPrivateHeapProfile, bind_eq_ok] at h
    obtain ⟨_, -, _, -, s, hs, _, -, h⟩ := h
    split at h
    · simp only [eq_ok] at h
      obtain ⟨heap, r, -, s1, hc, s2, heap1, hw, _, -, rfl⟩ := h
      have hs1 : s1.Reachable := Machine.Reachable.tail
        ⟨s, .withHeapPlacementAndWorkers host l p w hs, .refl⟩
        (@ScopedPointers.step_of_run _ _ (.chargeHeapFabricStorage r) hc)
      exact withHeapWork_reachable hs1 hw
    · cases h

theorem Reachable.registry (h : f.Reachable) : f.scopedPointers.Reachable :=
  Machine.Reachable.invariant (fun _ h => h.registry)
    (fun _ _ _ hs hst => Machine.Reachable.trans hs
      (Machine.Run.mono (fun _ _ _ => trivial) (step_calls hst))) h

end Fabric

end Anka
