import Anka.ScopedPointers.Lifetimes

/-!
# Live locals

A local pointer is live while its slot is `Live` at its generation with a local record. Only leaving
its scope ends that: every other call, on scopes, locals, owners, heap lifetimes or workers, leaves
a live local as it is (`run_live`, `Run.live`). Together with `Lifetimes`, where leaving the scope
ends the lifetime for good, this says when the locals of a scope are live and when they are dead.

Scopes are numbered upwards and never again (`Run.nextScope_le`).
-/

namespace Anka

open Rust Res

namespace ScopedPointers

variable {F : RegistryFootprint} {s s' t : ScopedPointers} {scope : Scope} {domain : Nat}
  {pointer : ScopedPointer} {owner : OwnerAccount}

/-- The slot of the pointer is live at its generation, with a local record of the scope and the
domain. -/
def LiveLocal (s : ScopedPointers) (scope : Scope) (domain : Nat)
    (pointer : ScopedPointer) : Prop :=
  ∃ slot a, s.slots[pointer.slot]? = some slot ∧ slot.state = .live ∧
    slot.generation = pointer.generation ∧ slot.record = .local a ∧ a.scope = scope ∧
    a.domain = domain

theorem LiveLocal.allocation (h : LiveLocal s scope domain pointer) :
    ∃ a, s.allocation pointer domain = ok a := by
  obtain ⟨slot, a, hs, hst, hg, hr, -, hd⟩ := h
  exact ⟨a, by simp [ScopedPointers.allocation, hs, okOr, require, hst, hg,
    Slot.local?_eq_some.mpr hr, hd]⟩

theorem LiveLocal.of_set {i : Nat} {old new : Slot} (h : LiveLocal s scope domain pointer)
    (hold : s.slots[i]? = some old) (ho : old.state ≠ .live ∨ ∀ a, old.record ≠ .local a)
    (hsl : s'.slots = s.slots.set i new) : LiveLocal s' scope domain pointer := by
  obtain ⟨slot, a, hs, hst, hg, hr, hsc⟩ := h
  have hn : i ≠ pointer.slot := by
    rintro rfl
    obtain rfl := Option.mem_unique hold hs
    rcases ho with hd | hl
    · exact hd hst
    · exact hl a hr
  refine ⟨slot, a, ?_, hst, hg, hr, hsc⟩
  rw [hsl, List.getElem?_set_ne hn, hs]

/-! ## Every call -/

/-- **Only leaving its scope ends a live local.** -/
theorem Change.live (hc : Change F s s') (hk : ¬ F.left scope)
    (h : LiveLocal s scope domain pointer) : LiveLocal s' scope domain pointer := by
  cases hc with
  | localWrite i bo old new hold hf hnw hbo ha hl =>
    obtain ⟨slot, a, hs, hst, hg, hr, hsc, hd⟩ := h
    by_cases hi : i = pointer.slot
    · subst hi
      obtain rfl := Option.mem_unique hold hs
      obtain ⟨hli, hsa, b, hb, hb1, hb2⟩ := hl a hst hr
      exact ⟨new, b, by rw [getElem?_set_row hold, if_pos rfl], hli, hsa.trans hg, hb,
        hb1.trans hsc, hb2.trans hd⟩
    · exact ⟨slot, a, by rw [List.getElem?_set_ne hi, hs], hst, hg, hr, hsc, hd⟩
  | localsReleased other hle =>
    obtain ⟨slot, a, hs, hst, hg, hr, rfl, hd⟩ := h
    have hne : a.scope ≠ other := fun heq => hk (heq ▸ hle)
    refine ⟨slot, a, ?_, hst, hg, hr, rfl, hd⟩
    simp [releaseLocals, List.getElem?_mapIdx, hs, Slot.local?_eq_some.mpr hr, hne]
  | reserved _ _ _ _ _ _ _ _ _ _ _ _ _ _ _ _ _ hs hf =>
    exact h.of_set hs (.inl (by simp [hf])) rfl
  | refunded _ r re slot _ _ hr hs =>
    obtain ⟨slot', _, hn⟩ := reservationRecord_eq_ok.mp hr
    exact h.of_set hn.slot_eq (.inr (by simp [hn.record_eq])) rfl
  | relabelled i slot _ _ _ _ _ hs hr =>
    exact h.of_set hs (.inr (by simp [hr])) rfl
  | ownerClosed _ owner =>
    obtain ⟨slot, a, hs, hst, hg, hr, hsc⟩ := h
    have hh : slot.heap? = none := Slot.heap?_eq_none.mpr (by simp [hr])
    exact ⟨slot, a, by simp [hs, Slot.closedBy, hh], hst, hg, hr, hsc⟩
  | _ => exact h

theorem run_live {op : RegistryOp} (h : LiveLocal s scope domain pointer)
    (ho : op ≠ .leaveScope scope) (hr : s.run op = ok s') : LiveLocal s' scope domain pointer :=
  @Machine.chain_preserved _ (Change { left := fun other => op = .leaveScope other })
    (fun t => LiveLocal t scope domain pointer) (fun _ _ hc => hc.live ho) s s'
    (run_changes (fun _ => id) (fun _ => trivial) hr) h

theorem Run.live {ok : RegistryOp → Prop} (ho : ¬ ok (.leaveScope scope))
    (h : LiveLocal s scope domain pointer) (hr : Machine.Run step (fun _ => ok) s s') :
    LiveLocal s' scope domain pointer := by
  refine @Machine.Run.invariant _ _ step (fun _ => ok) (fun t => LiveLocal t scope domain pointer)
    (fun t op u ht hop hs => ?_) s s' hr h
  rcases step_eq_some hs with hr | rfl
  · exact run_live ht (fun heq => ho (heq ▸ hop)) hr
  · exact ht

theorem LiveLocal.ended (hr : Reachable s) (h : LiveLocal s scope domain pointer)
    (hl : s.leaveScope scope = ok s') : Ended s' pointer.slot pointer.generation := by
  obtain ⟨slot, a, hs, hst, hg, hre, hsc, -⟩ := h
  rw [← hg]
  exact leaveScope_ended hr.consistent.directory.active hl hs hst hre hsc

/-! ## Scope numbers -/

theorem Change.nextScope_le (h : Change F s s') : s.nextScope ≤ s'.nextScope := by
  cases h with
  | quiet _ _ _ _ _ _ hs => exact hs
  | _ => exact Nat.le_refl _

theorem Run.nextScope_le {ok : ScopedPointers → RegistryOp → Prop}
    (hr : Machine.Run step ok s s') : s.nextScope ≤ s'.nextScope := by
  refine @Machine.Run.invariant _ _ step ok (fun t => s.nextScope ≤ t.nextScope)
    (fun t op u ht _ hs => ht.trans ?_) s s' hr (Nat.le_refl _)
  rcases step_eq_some hs with hr | rfl
  · exact @Machine.chain_preserved _ (Change {}) (fun v => t.nextScope ≤ v.nextScope)
      (fun _ _ hc hv => hv.trans hc.nextScope_le) t u
      (run_changes (fun _ _ => trivial) (fun _ => trivial) hr) (Nat.le_refl _)
  · exact Nat.le_refl _

end ScopedPointers

end Anka
