import Anka.ScopedPointers.Extents

/-!
# Lifetimes do not come back

A pointer names a slot and a generation. Every slot ages: its generation never falls, and within one
generation its stage only moves from `Reserved` over `Live`, `Closing` and `Retired` to `Free` or
`Exhausted` (`Change.aged`, `Run.aged`). Local and heap lifetimes share this one law, whichever path
releases them.

* A lifetime that has ended (`Ended`) stays so in every later registry, and every reading operation
  rejects its pointers as stale (`Ended.rejects`).
* A lifetime is issued at the generation after the slot's, so no later one is issued under the same
  slot and generation (`Issues.advances`).
* `no_pointer_resurrection` puts the two together with what ends a lifetime: leaving its scope, or
  its slot leaving `Live`.

A slot at generation `u32::MAX` is not available again: its release makes it `Exhausted`.
-/

namespace Anka

open Rust Res List Option ScopedPointers Slot SlotState

/-! ## Slots only age -/

theorem SlotState.rank_le_free (st : SlotState) : st.rank ≤ SlotState.free.rank := by
  cases st <;> decide

theorem Slot.age_release (slot : Slot) : slot.age ≤ slot.release.age := by
  refine age_le rfl ?_
  unfold release
  split
  · exact rank_le_free _
  · exact rank_le_free _

theorem Slot.age_vacated (slot : Slot) : slot.age ≤ slot.vacated.age :=
  age_release { slot with record := .empty }

theorem Slot.age_closedBy (o : OwnerAccount) (slot : Slot) : slot.age ≤ (slot.closedBy o).age := by
  refine age_le (closedBy_generation o slot) ?_
  unfold closedBy
  split
  · rename_i h
    simp only [Bool.and_eq_true, Bool.or_eq_true, beq_iff_eq] at h
    rcases h.2 with hs | hs
    · simp [hs, rank]
    · simp [hs, rank]
  · exact Nat.le_refl _

variable {i : Nat}

namespace ScopedPointers

variable {F : RegistryFootprint} {s s' : ScopedPointers}

/-- The slot is still there and not younger. -/
def Aged (s : ScopedPointers) (i : Nat) (age : Nat ×ₗ Nat) : Prop :=
  ∃ slot, s.slots[i]? = some slot ∧ age ≤ slot.age

variable {age : Nat ×ₗ Nat} {op : RegistryOp} {slot : Slot} {pointer : ScopedPointer}
  {scope : Scope}

theorem aged_set {j : Nat} {old new : Slot} (h : Aged s j age) (hold : s.slots[i]? = some old)
    (ha : old.age ≤ new.age) (hsl : s'.slots = s.slots.set i new) : Aged s' j age := by
  obtain ⟨slot, hs, hl⟩ := h
  unfold Aged
  rw [hsl, getElem?_set_row hold]
  split
  · rename_i hi
    rw [← hi, hold] at hs
    cases hs
    exact ⟨new, rfl, hl.trans ha⟩
  · exact ⟨slot, hs, hl⟩

theorem Change.aged (hc : Change F s s') (h : Aged s i age) : Aged s' i age := by
  cases hc with
  | localWrite j b old new hold _ _ _ ha => exact aged_set h hold ha rfl
  | localsReleased scope =>
    obtain ⟨slot, hs, hl⟩ := h
    unfold Aged
    simp only [releaseLocals, getElem?_mapIdx, hs, map_some]
    refine ⟨_, rfl, hl.trans ?_⟩
    split
    · exact age_release slot
    · exact le_rfl
  | reserved a o j c l ro old r p ex _ _ _ _ _ _ _ hs _ _ _ hr =>
    refine aged_set h hs ?_ rfl
    rw [hr]
    exact (age_lt_of_generation (Nat.lt_succ_self _)).le
  | refunded a r re slot p _ _ hs => exact aged_set h hs (age_vacated slot) rfl
  | relabelled j slot new re re' job job' hs _ _ _ _ _ _ _ _ _ _ _ ha =>
    exact aged_set h hs ha rfl
  | ownerClosed a o =>
    obtain ⟨slot, hs, hl⟩ := h
    refine ⟨slot.closedBy o, ?_, hl.trans (age_closedBy o slot)⟩
    simp [hs]
  | _ => exact h

theorem run_aged (h : Aged s i age) (hs : s.step op = some s') : Aged s' i age := by
  rcases step_eq_some hs with hr | rfl
  · exact @Machine.chain_preserved _ (Change {}) (fun t => Aged t i age)
      (fun _ _ hc => hc.aged) s s'
      (run_changes (fun _ _ => trivial) (fun _ => trivial) hr) h
  · exact h

/-- **Slots age along every run.** -/
theorem Run.aged (h : Aged s i age) (hr : Machine.Run step (fun _ _ => True) s s') :
    Aged s' i age :=
  @Machine.Run.invariant _ _ step (fun _ _ => True) (fun t => Aged t i age)
    (fun _ _ _ ht _ hs => run_aged ht hs) s s' hr h

/-! ## Ended lifetimes -/

/-- The slot is past the generation, or at it and neither `Reserved` nor `Live` any more. -/
def Ended (s : ScopedPointers) (i generation : Nat) : Prop :=
  Aged s i (toLex (generation, SlotState.closing.rank))

theorem not_live_of_age {g : Nat} (h : toLex (g, SlotState.closing.rank) ≤ slot.age) :
    ¬ (slot.state = .live ∧ slot.generation = g) := by
  rintro ⟨hl, rfl⟩
  rw [age, hl, Prod.Lex.toLex_le_toLex] at h
  rcases h with hlt | ⟨-, hle⟩
  · exact Nat.lt_irrefl _ hlt
  · exact absurd hle (by simp [rank])

theorem ended_of_left {slot new : Slot} (ha : slot.age ≤ new.age) (hl : slot.state = .live)
    (hle : ¬ (new.state = .live ∧ new.generation = slot.generation)) :
    toLex (slot.generation, SlotState.closing.rank) ≤ new.age := by
  rw [age, age, Prod.Lex.toLex_le_toLex, hl] at ha
  rw [age, Prod.Lex.toLex_le_toLex]
  rcases ha with hlt | ⟨heq, hr⟩
  · exact .inl hlt
  · refine .inr ⟨heq, ?_⟩
    have hst : new.state ≠ .live := fun h => hle ⟨h, heq.symm⟩
    cases hs : new.state with
    | live => exact absurd hs hst
    | reserved =>
      rw [hs] at hr
      exact absurd hr (by simp [rank])
    | closing | retired | free | exhausted => simp [rank]

/-- Every operation that reads through a pointer answers that this one is stale. -/
structure Rejects (s : ScopedPointers) (pointer : ScopedPointer) : Prop where
  add : ∀ domain delta, s.add pointer domain delta = err .stale
  resolve : ∀ domain width write, s.resolve pointer domain width write = err .stale
  readSpan : ∀ domain owner length, s.readSpan pointer domain owner length = err .stale
  writeSpan : ∀ domain owner length, s.writeSpan pointer domain owner length = err .stale
  addHeapPointer : ∀ owner delta, s.addHeapPointer pointer owner delta = err (.pointer .stale)
  prepareHeapPointer : ∀ owner, s.prepareHeapPointer pointer owner = err (.pointer .stale)

theorem Ended.rejects (h : Ended s pointer.slot pointer.generation) : Rejects s pointer := by
  obtain ⟨slot, hsl, ha⟩ := h
  have hs := not_live_of_age ha
  have hl : ∀ d, s.allocation pointer d = err .stale := by
    intro d
    simp [allocation, hsl, okOr, require, hs]
  have hh : ∀ o, s.prepareHeapPointer pointer o = err (.pointer .stale) := by
    intro o
    have hs' : ¬ (slot.generation = pointer.generation ∧ slot.state = .live) :=
      fun h => hs h.symm
    simp [prepareHeapPointer, hsl, okOr, require, hs']
  constructor
  · intro d de
    simp [add, hl]
  · intro d wi w
    simp [resolve, hl]
  · intro d o l
    simp [readSpan, hl]
  · intro d o l
    simp [writeSpan, readSpan, hl]
  · intro o de
    simp [addHeapPointer, hh]
  · exact hh

theorem leaveScope_ended
    (ha : ∀ (i : Nat) (slot : Slot), s.slots[i]? = some slot → slot.inactive = false →
      i < s.activeSlotsEnd) (h : s.leaveScope scope = ok s') {a : LocalAllocation}
    (hs : s.slots[i]? = some slot) (hl : slot.state = .live)
    (hr : slot.record = .local a) (hsc : a.scope = scope) : Ended s' i slot.generation := by
  simp only [leaveScope, eq_ok] at h
  obtain ⟨-, -, index, -, rfl⟩ := h
  have hb : i < s.activeSlotsEnd := ha i slot hs (by simp [inactive, hl])
  have hlo : slot.local?.any (fun b => b.scope == scope) = true := by
    simp [local?_eq_some.mpr hr, hsc]
  refine ⟨slot.release, ?_, ended_of_left (age_release slot) hl ?_⟩
  · simp [advance, trimActiveSlots, releaseLocals, getElem?_mapIdx, hs, hb, hlo]
  · rintro ⟨hst, -⟩
    unfold release at hst
    split at hst <;> cases hst

/-! ## Issued lifetimes -/

/-- The call issues a lifetime under the slot and generation. -/
inductive Issues (s : ScopedPointers) : RegistryOp → Nat → Nat → Prop
  | register (scope : Scope) (domain base length : Nat) (writable : Bool) (pointer : ScopedPointer)
      (t : ScopedPointers) (h : s.register scope domain base length writable = ok (pointer, t)) :
      Issues s (.register scope domain base length writable) pointer.slot pointer.generation
  | registerBacked (scope : Scope) (domain base length : Nat) (writable : Bool)
      (backing : PointerBacking) (pointer : ScopedPointer) (t : ScopedPointers)
      (h : s.register scope domain base length writable = ok (pointer, t)) :
      Issues s (.registerBacked scope domain base length writable backing) pointer.slot
        pointer.generation
  | reserveHeap (owner : OwnerAccount) (logical revision : Nat) (r : HeapReservation)
      (t : ScopedPointers) (h : s.reserveHeap owner logical revision = ok (r, t)) :
      Issues s (.reserveHeap owner logical revision) r.slot r.generation

theorem register_issues {d base l : Nat} {w : Bool}
    (h : s.register scope d base l w = ok (pointer, s')) :
    (∃ old, s.slots[pointer.slot]? = some old ∧ old.generation + 1 = pointer.generation) ∧
      Aged s' pointer.slot (toLex (pointer.generation, 0)) := by
  simp only [register, eq_ok] at h
  obtain ⟨-, _, -, -, i, -, old, hold, rfl, rfl⟩ := h
  refine ⟨⟨old, hold, rfl⟩, ?_⟩
  unfold Aged
  simp only [advance]
  rw [getElem?_set_row hold, if_pos rfl]
  refine ⟨_, rfl, ?_⟩
  rw [age, Prod.Lex.toLex_le_toLex]
  exact .inr ⟨rfl, Nat.zero_le _⟩

theorem reserveHeap_issues {o : OwnerAccount} {l re : Nat} {r : HeapReservation}
    (h : s.reserveHeap o l re = ok (r, s')) :
    (∃ old, s.slots[r.slot]? = some old ∧ old.generation + 1 = r.generation) ∧
      Aged s' r.slot (toLex (r.generation, 0)) := by
  simp only [reserveHeap, eq_ok, slotAt_eq_ok] at h
  obtain ⟨_, -, -, -, _, -, -, -, _, -, -, _, -, _, -, -, slot, -, c, -, old,
    hold, _, _, -, _, -, _, -, _, -, rfl, rfl⟩ := h
  refine ⟨⟨old, hold, rfl⟩, ?_⟩
  unfold Aged
  simp only [advance]
  rw [getElem?_set_row hold, if_pos rfl]
  exact ⟨_, rfl, le_rfl⟩

theorem Issues.advances {i g : Nat} (h : Issues s op i g) :
    (∃ old, s.slots[i]? = some old ∧ old.generation + 1 = g) ∧
      (s.step op = some s' → Aged s' i (toLex (g, 0))) := by
  cases h with
  | register scope d base l w pointer t h =>
    obtain ⟨hb, ha⟩ := register_issues h
    refine ⟨hb, fun hs => ?_⟩
    simp only [step, run, h, mapErr, ok_bind, pure_eq, some.injEq] at hs
    exact hs ▸ ha
  | registerBacked scope d base l w b pointer t h =>
    obtain ⟨hb, ha⟩ := register_issues h
    refine ⟨hb, fun hs => ?_⟩
    cases hbi : (t.bindBacking pointer b : Res HeapError _) with
    | ok u =>
      simp only [step, run, h, mapErr, ok_bind, hbi, some.injEq] at hs
      exact hs ▸ @Machine.chain_preserved _ (Change {})
        (fun v => Aged v pointer.slot (toLex (pointer.generation, 0))) (fun _ _ hc => hc.aged) t u
        (bindBacking_changes hbi) ha
    | err e => simp [bindBacking] at hbi
    | panic => simp [step, run, h, mapErr, hbi] at hs
  | reserveHeap o lo re r t h =>
    obtain ⟨hb, ha⟩ := reserveHeap_issues h
    refine ⟨hb, fun hs => ?_⟩
    simp only [step, run, h, ok_bind, pure_eq, some.injEq] at hs
    exact hs ▸ ha

theorem Aged.not_issued {g g' : Nat} (h : Aged s i (toLex (g, 0))) (hi : Issues s op i g') :
    g < g' := by
  obtain ⟨⟨old, hold, rfl⟩, -⟩ := @Issues.advances s s op i g' hi
  obtain ⟨slot, hs, ha⟩ := h
  obtain rfl := mem_unique hold hs
  rw [age, Prod.Lex.toLex_le_toLex] at ha
  rcases ha with hl | ⟨heq, -⟩
  · exact Nat.lt_succ_of_lt hl
  · exact Nat.lt_succ_of_le (Nat.le_of_eq heq)

/-- **No pointer resurrection.** In every reachable registry: leaving a scope ends the lifetimes of
its live buffers, and a slot that leaves `Live` ends its lifetime; the pointers of an ended lifetime
are rejected as stale by every reading operation in every later registry; and no later call issues a
lifetime, local or heap, under a slot and generation that were issued before. -/
theorem no_pointer_resurrection (hreach : Reachable s) :
    (∀ (scope : Scope) (s' : ScopedPointers) (i : Nat) (slot : Slot) (a : LocalAllocation),
      s.leaveScope scope = ok s' → s.slots[i]? = some slot → slot.state = .live →
      slot.record = .local a → a.scope = scope → Ended s' i slot.generation) ∧
    (∀ (op : RegistryOp) (s' : ScopedPointers) (i : Nat) (slot new : Slot), s.step op = some s' →
      s.slots[i]? = some slot → slot.state = .live → s'.slots[i]? = some new →
      ¬ (new.state = .live ∧ new.generation = slot.generation) → Ended s' i slot.generation) ∧
    (∀ (s' : ScopedPointers) (pointer : ScopedPointer),
      Ended s pointer.slot pointer.generation → Machine.Run step (fun _ _ => True) s s' →
      Rejects s' pointer) ∧
    ∀ (op op' : RegistryOp) (s1 s2 : ScopedPointers) (i g i' g' : Nat), Issues s op i g →
      s.step op = some s1 → Machine.Run step (fun _ _ => True) s1 s2 → Issues s2 op' i' g' →
      (i, g) ≠ (i', g') := by
  refine ⟨?_, ?_, ?_, ?_⟩
  · intro scope s' i slot a hle hs hl hre hsc
    exact leaveScope_ended hreach.consistent.directory.active hle hs hl hre hsc
  · intro op s' i slot new hst hs hl hn hlf
    obtain ⟨new', hn', ha⟩ := run_aged ⟨slot, hs, le_rfl⟩ hst
    obtain rfl := mem_unique hn hn'
    exact ⟨new, hn, ended_of_left ha hl hlf⟩
  · intro s' pointer hen hr
    exact Ended.rejects (Run.aged hen hr)
  · rintro op op' s1 s2 i g i' g' hi hst hr hi' heq
    obtain ⟨rfl, rfl⟩ := Prod.mk.inj heq
    have hla := Run.aged (hi.advances.2 hst) hr
    exact Nat.lt_irrefl g (hla.not_issued hi')

/-- A buffer of four bytes whose scope is left, and whose slot is then registered again. -/
theorem no_pointer_resurrection_reused : ∃ s s' : ScopedPointers, Reachable s ∧
    s.step (.leaveScope ⟨1⟩) = some s' ∧
    ∀ t, Machine.Run step (fun _ _ => True) s' t → Rejects t ⟨0, 1, 0⟩ := by
  let calls := [RegistryOp.enterScopeFor 0, .register ⟨1⟩ 7 4096 4 true]
  have hru : (new exactHost 1 >>= fun s => calls.foldlM run s).isOkAnd (fun s =>
      (s.leaveScope ⟨1⟩).isOkAnd fun s' => s.slots[0]?.any fun slot => slot.local?.any fun a =>
        decide (slot.state = .live ∧ slot.generation = 1 ∧ a.scope = ⟨1⟩ ∧
          s.step (.leaveScope ⟨1⟩) = some s')) = true := by
    decide +kernel
  simp only [isOkAnd_eq_true, bind_eq_ok, Option.any_eq_true, decide_eq_true_eq,
    local?_eq_some] at hru
  obtain ⟨s, ⟨s0, h0, hs⟩, s', hl, slot, hsl, a, hre, hli, hg, hsc, hst⟩ := hru
  have hr := reachable_of_calls (.new exactHost 1 h0) hs
  have hen := (no_pointer_resurrection hr).1 ⟨1⟩ s' 0 slot a hl hsl hli hre hsc
  rw [hg] at hen
  refine ⟨s, s', hr, hst, fun t ht => ?_⟩
  exact (no_pointer_resurrection (.tail hr hst)).2.2.1 t ⟨0, 1, 0⟩ hen ht

end ScopedPointers

end Anka
