import Anka.Core.Events
import Anka.Core.Precise
import Anka.Core.Validator
import Anka.Fabric.WriteXorExecute

/-!
# The admitted code stays where it is (`core.rs` 438–500, 896–916)

Admission compares the code with the bytes of a sealed object that the address map of the core has
at the code base. A core changes no byte of a sealed object: its stores are requests of mutating
kinds or go to the private heap, and an instruction cycle that faults changes the logs only. So as
long as no other call takes the code out of its object (`FrameState.codeIn`), what the core fetches
inside the admitted code is the instruction that was validated (`fetch_code`).

Only the bytes that lie inside the object are kept: admission does not ask for the rest of them, and
no fetch reaches past the end of an object.
-/

namespace Anka

open Rust Res Option Fabric

/-! ## The address map -/

variable {map : List AddressMapEntry} {addr len k : Nat}

theorem Anka64Core.mapEntries_some {stop : Nat} {found : ObjectId × Nat}
    {r : Option (ObjectId × Nat)}
    (h : map.foldlM (mapEntry addr stop len) (some found) = ok r) : r = some found := by
  induction map with
  | nil => exact (ok.inj h).symm
  | cons e rest ih =>
    rw [List.foldlM_cons, bind_eq_ok] at h
    obtain ⟨r', hen, hr⟩ := h
    simp only [mapEntry, bind_eq_ok, okOr_eq_ok] at hen
    obtain ⟨en, -, hen⟩ := hen
    split at hen
    · simp [require] at hen
    · cases hen
      exact ih hr

theorem Anka64Core.resolve_of_entries {ε : Type} {stop off : Nat} {o : ObjectId}
    {r : Option (ObjectId × Nat)} (hk : addr + k < stop)
    (h : map.foldlM (mapEntry addr stop len) none = ok (some (o, off)))
    (hr : (AddressMap.resolve (addr + k) map : Res ε _) = ok r) : r = some (o, off + k) := by
  induction map with
  | nil => cases h
  | cons e rest ih =>
    rw [List.foldlM_cons, bind_eq_ok] at h
    obtain ⟨r', hen, hre⟩ := h
    simp only [mapEntry, bind_eq_ok, okOr_eq_ok, checkedAdd_eq_some] at hen
    obtain ⟨_, ⟨hm, rfl⟩, hen⟩ := hen
    have hend : (plus e.virtBase e.size : Res ε _) = ok (e.virtBase + e.size) :=
      plus_eq_ok.mpr ⟨hm, rfl⟩
    unfold AddressMap.resolve at hr
    split at hen
    · -- the entry that contains the range
      simp only [eq_ok] at hen
      obtain ⟨⟨-, hb, hs⟩, _, ⟨-, rfl⟩, _, -, rfl⟩ := hen
      have hf := mapEntries_some hre
      simp only [some.injEq, Prod.mk.injEq] at hf
      obtain ⟨rfl, rfl⟩ := hf
      rw [if_pos (by omega), hend, ok_bind, if_pos (by omega)] at hr
      simp only [eq_ok] at hr
      obtain ⟨_, ⟨-, rfl⟩, rfl⟩ := hr
      rw [some.injEq, Prod.mk.injEq]
      exact ⟨rfl, by omega⟩
    · -- an entry apart from it
      rename_i ha
      cases hen
      split at hr
      · rw [hend, ok_bind, if_neg (by omega)] at hr
        exact ih hre hr
      · exact ih hre hr

/-! ## The code of a program -/

namespace FrameState

/-- The address map has the code in its object. -/
def Mapped (state : FrameState) (map : List AddressMapEntry) : Prop :=
  ∀ k r, k < state.program.code.length →
    (AddressMap.resolve (state.codeBase + k) map : Res (FaultRecord × Fabric) _) = ok (some r) →
    r = (state.codeObject, state.codeOffset + k)

theorem checkedPointerMapping_mapped {c : Anka64Core} {state : FrameState}
    (h : c.checkedPointerMapping state.codeBase state.program.code.length =
      ok (state.codeObject, state.codeOffset)) : state.Mapped c.addressMap := by
  intro k r hk hr
  simp only [Anka64Core.checkedPointerMapping, eq_ok, filter_eq_some_iff, checkedAdd_eq_some] at h
  obtain ⟨_, ⟨⟨-, rfl⟩, -⟩, _, hen, rfl⟩ := h
  exact some.inj (Anka64Core.resolve_of_entries (Nat.add_lt_add_left hk _) hen hr)

/-- The object of the code is sealed, and has the code as far as it reaches. -/
def codeIn (state : FrameState) (f : Fabric) : Bool :=
  (f.objects.get state.codeObject).any fun obj => decide (obj.state = .sealed) &&
    (f.placement.get state.codeObject).any fun base =>
      decide (∀ k < state.program.code.length, state.codeOffset + k < obj.size →
        f.memory[base + (state.codeOffset + k)]? = state.program.code[k]?)

variable {state : FrameState} {f f' : Fabric}

theorem codeIn_eq_true : state.codeIn f = true ↔ ∃ obj base,
    f.objects.get state.codeObject = some obj ∧ obj.state = .sealed ∧
    f.placement.get state.codeObject = some base ∧
    ∀ k < state.program.code.length, state.codeOffset + k < obj.size →
      f.memory[base + (state.codeOffset + k)]? = state.program.code[k]? := by
  simp only [codeIn, any_eq_true, Bool.and_eq_true, decide_eq_true_eq]
  constructor
  · rintro ⟨obj, ho, hs, base, hba, hb⟩
    exact ⟨obj, base, ho, hs, hba, hb⟩
  · rintro ⟨obj, base, ho, hs, hba, hb⟩
    exact ⟨obj, ho, hs, base, hba, hb⟩

theorem codeIn_of_slice {obj : Object} {base : Nat} (ho : f.objects.get state.codeObject = some obj)
    (hs : obj.state = .sealed) (hb : f.placement.get state.codeObject = some base)
    (h : slice f.memory (base + state.codeOffset) state.program.code.length = state.program.code) :
    state.codeIn f = true := by
  refine codeIn_eq_true.mpr ⟨obj, base, ho, hs, hb, fun k hk _ => ?_⟩
  rw [← Nat.add_assoc, ← getElem?_slice hk, h]

theorem codeIn_logged (h : Logged f f') : state.codeIn f' = state.codeIn f := by
  rw [h]
  rfl

end FrameState

namespace Anka64Core

variable {c c' : Anka64Core} {f f' : Fabric} {state : FrameState}

/-- **What is fetched inside the admitted code is the instruction that was validated.** -/
theorem fetch_code {insn validated : DecodedInsn} (hc : state.codeIn f = true)
    (hm : state.Mapped c.addressMap) (hp : c.pc = state.codeBase + k)
    (hv : insnAt state.program.code k = ok validated) (h : c.fetch f = ok (insn, f')) :
    insn = validated := by
  simp only [fetch, fabricRead, resolveOrFault, eq_ok] at h
  obtain ⟨-, b, f1, ⟨r, ⟨_, hr, o, off, rfl, rfl⟩, hre⟩, word, hw, -, rfl, -⟩ := h
  simp only [insnAt, eq_ok] at hv
  obtain ⟨hk, rfl⟩ := hv
  rw [hp] at hr
  obtain ⟨rfl, rfl⟩ := Prod.mk.inj (hm k _ (by omega) hr)
  obtain ⟨-, ⟨g, ha⟩, physical, ht, rfl⟩ := executeRead_eq_ok hre
  obtain ⟨obj', ho', -, -, -, hra⟩ := authorize_object ha
  obtain ⟨obj, base, ho, -, hb, hby⟩ := FrameState.codeIn_eq_true.mp hc
  obtain ⟨base', hb', -, rfl⟩ := translate_eq_some ht
  obtain rfl := mem_unique ho ho'
  obtain rfl := mem_unique hb hb'
  simp only [wordOf, eq_ok] at hw
  obtain ⟨-, rfl⟩ := hw
  simp only [makeRequest, Width.bytes] at hra ⊢
  have hs : slice f.memory (base + (state.codeOffset + k)) 4 = slice state.program.code k 4 := by
    refine slice_ext fun i hi => ?_
    rw [Nat.add_assoc, Nat.add_assoc, hby (k + i) (by omega) (by omega)]
  rw [hs, slice, List.take_take, Nat.min_self]

end Anka64Core

/-! ## What keeps the code -/

/-- What every call on a Fabric keeps and the logs have no part in. -/
structure Fabric.Lawful (f : Fabric) : Prop where
  numbered : Numbered f
  writeXorExecute : WriteXorExecute f
  provenance : Provenance f

/-- The calls a core makes: checked ones, no commit of what was prepared before, and exchanges of
kind Atomic only. -/
def FabricOp.OfCore : FabricOp → Prop
  | .advance _ => False
  | .executeAtomicXchg request _ => request.kind = .atomic
  | op => op.Checked

theorem FabricOp.Plain.ofCore {op : FabricOp} (h : op.Plain) : op.OfCore := by
  cases op <;> first | exact h | exact h.elim

namespace Fabric

variable {f f' : Fabric} {op : FabricOp} {state : FrameState}

theorem Reachable.lawful (h : Reachable f) : f.Lawful :=
  ⟨h.numbered, h.writeXorExecute, h.provenance⟩

theorem Lawful.step (h : f.Lawful) (hs : f.step op = some f') : f'.Lawful :=
  Machine.chain_preserved (fun _ _ hc hg => ⟨hc.numbered hg.numbered,
      hc.writeXorExecute trivial hg.writeXorExecute, hc.provenance hg.provenance⟩)
    (run_changes (G := Guard.any) (fun _ => h.numbered) (op.meets_any f) (step_eq_some.mp hs)) h

theorem Lawful.logged (h : f.Lawful) (hl : Logged f f') : f'.Lawful := by
  rw [hl]
  exact ⟨h.numbered, { h.writeXorExecute with }, { h.provenance with }⟩

theorem Lawful.codeIn (h : f.Lawful) (ho : op.OfCore) (hs : f.step op = some f')
    (hco : state.codeIn f = true) : state.codeIn f' = true := by
  have hc : op.Checked := by
    cases op <;> first | exact ho | trivial
  have hp : InPlace f op := by
    cases op <;> first | exact ho.elim | trivial
  have hx : ¬ ExchangesAsRead state.codeObject op := by
    rintro ⟨request, data, rfl, -, hki⟩
    rw [show request.kind = .atomic from ho] at hki
    cases hki
  obtain ⟨obj, base, hob, hsl, hb, hby⟩ := FrameState.codeIn_eq_true.mp hco
  obtain ⟨hobjs, hplm, -⟩ := step_transacts hc hp hs
  refine FrameState.codeIn_eq_true.mpr ⟨obj, base, hobjs ▸ hob, hsl, hplm ▸ hb, fun k hk hi => ?_⟩
  rw [h.writeXorExecute.sealed_byte h.provenance hc hp hx hs hob hsl hb
    ⟨Nat.le_add_right _ _, by omega⟩, hby k hk hi]

end Fabric

end Anka
