import Anka.Link.Reference
import Mathlib.Data.List.Count

/-!
# The validator does not depend on where code lies

A module is validated with its imported CALLs left open, its linked code is validated closed and at
another base. `checkFrame_eq` carries the checks of one frame over, given what linking does to
one instruction (`Relocated`); the tiling of the code by the frames is carried over by
`tileFrom_shift` and `tileFrom_append`.
-/

namespace Anka

open Rust Res List FrameManifest

/-! ## Tilings -/

variable {pc : Nat}

namespace FrameManifest

variable {prior stop : Nat} {l : List (Nat × Nat)}

theorem tileFrom_append {l' : List (Nat × Nat)} :
    tileFrom prior (l ++ l') = (tileFrom prior l >>= fun stop => tileFrom stop l') := by
  induction l generalizing prior with
  | nil => rfl
  | cons r l ih =>
    simp only [cons_append, tileFrom, ih]
    cases require (r.1 = prior ∧ r.1 < r.2) FrameError.geometry <;> rfl

theorem tileFrom_cons_eq_ok {r : Nat × Nat} :
    tileFrom prior (r :: l) = ok stop ↔ r.1 = prior ∧ r.1 < r.2 ∧ tileFrom r.2 l = ok stop := by
  simp [tileFrom, bind_eq_ok, and_assoc]

theorem tileFrom_shift (base : Nat) (h : tileFrom prior l = ok stop) :
    tileFrom (base + prior) (l.map fun r => (base + r.1, base + r.2)) = ok (base + stop) := by
  induction l generalizing prior with
  | nil =>
    obtain rfl := ok.inj h
    rfl
  | cons r l ih =>
    obtain ⟨hs, hl, hr⟩ := tileFrom_cons_eq_ok.mp h
    rw [map_cons, tileFrom_cons_eq_ok]
    exact ⟨by rw [hs], Nat.add_lt_add_left hl base, ih hr⟩

section

variable (h : tileFrom prior l = ok stop)
include h

theorem tileFrom_bounds : prior ≤ stop ∧ ∀ r ∈ l, prior ≤ r.1 ∧ r.1 < r.2 ∧ r.2 ≤ stop := by
  induction l generalizing prior with
  | nil =>
    obtain rfl := ok.inj h
    exact ⟨le_refl _, by simp⟩
  | cons r l ih =>
    obtain ⟨rfl, hl, hre⟩ := tileFrom_cons_eq_ok.mp h
    obtain ⟨hle, hb⟩ := ih hre
    refine ⟨by omega, forall_mem_cons.mpr ⟨⟨le_refl _, hl, hle⟩, fun r' hr' => ?_⟩⟩
    have hr := hb r' hr'
    omega

theorem tileFrom_pairwise : l.Pairwise fun r r' => r.2 ≤ r'.1 := by
  induction l generalizing prior with
  | nil => exact .nil
  | cons r l ih =>
    obtain ⟨-, -, hre⟩ := tileFrom_cons_eq_ok.mp h
    exact .cons (fun r' hr' => ((tileFrom_bounds hre).2 r' hr').1) (ih hre)

theorem tileFrom_covers {x : Nat} (hl : prior ≤ x)
    (hh : x < stop) : ∃ r ∈ l, r.1 ≤ x ∧ x < r.2 := by
  induction l generalizing prior with
  | nil =>
    obtain rfl := ok.inj h
    omega
  | cons r l ih =>
    obtain ⟨rfl, -, hre⟩ := tileFrom_cons_eq_ok.mp h
    by_cases hx : x < r.2
    · exact ⟨r, mem_cons_self, hl, hx⟩
    · obtain ⟨r', hr', hi⟩ := ih hre (by omega)
      exact ⟨r', mem_cons_of_mem r hr', hi⟩

end

theorem lastOf_aligned {code : List UInt8} {en n : Nat} (ha : en % 4 = 0)
    (h : lastOf code en n = ok pc) : pc % 4 = 0 := by
  induction n with
  | zero =>
    obtain rfl := ok.inj h
    exact ha
  | succ n ih =>
    simp only [lastOf, bind_eq_ok] at h
    obtain ⟨insn, -, h⟩ := h
    split at h
    · exact ih h
    · obtain rfl := ok.inj h
      omega

theorem tileFrom_sort {r : List (Nat × Nat)} :
    tileFrom 0 (r.insertionSort rangeLe) = ok stop ↔
      ∃ order, order.Perm r ∧ tileFrom 0 order = ok stop := by
  constructor
  · exact fun h => ⟨_, perm_insertionSort _ _, h⟩
  · rintro ⟨order, hp, h⟩
    have hto : Std.Total rangeLe := ⟨fun a b => by unfold rangeLe; omega⟩
    have ht : IsTrans (Nat × Nat) rangeLe := ⟨fun a b c => by unfold rangeLe; omega⟩
    have ho : order.Pairwise rangeLe := by
      refine (List.Pairwise.and_mem.mp (tileFrom_pairwise h)).imp fun hr => .inl ?_
      have hl := ((tileFrom_bounds h).2 _ hr.1).2.1
      omega
    have hs : r.insertionSort rangeLe = order := by
      refine List.Perm.eq_of_pairwise (fun a b _ _ ha hb => ?_) (pairwise_insertionSort _ _)
        ho ((perm_insertionSort _ _).trans hp.symm)
      unfold rangeLe at ha hb
      exact Prod.ext (by omega) (by omega)
    rw [hs, h]

end FrameManifest

/-! ## What the validator has checked -/

namespace ValidatedPointerProgram

/-- The frames in some order tile the code. -/
def Tiled (code : List UInt8) (frames : List FrameManifest) : Prop :=
  ∃ order, order.Perm (frames.map fun f => (f.entry, f.stop)) ∧
    FrameManifest.tileFrom 0 order = ok code.length

theorem validateStructure_eq_ok {code : List UInt8} {frames : List FrameManifest}
    {open' : List Nat} :
    validateStructure code frames open' = ok () ↔
      code ≠ [] ∧ code.length % 4 = 0 ∧ frames ≠ [] ∧ frames.length ≤ 4096 ∧ Tiled code frames ∧
        ∀ index frame, frames[index]? = some frame →
          FrameManifest.checkFrame code frames open' (frame, index) = ok () := by
  have hl : (∀ e ∈ frames.zipIdx, checkFrame code frames open' e = ok ()) ↔
      ∀ index frame, frames[index]? = some frame →
        checkFrame code frames open' (frame, index) = ok () := by
    constructor
    · exact fun h index frame hfr => h (frame, index) (mk_mem_zipIdx_iff_getElem?.mpr hfr)
    · exact fun h e he => h e.2 e.1 (mk_mem_zipIdx_iff_getElem?.mp he)
  simp only [validateStructure, eq_ok, forM_eq_ok, hl]
  constructor
  · rintro ⟨⟨hco, hm, hf, hcn⟩, stop, ht, rfl, hc, -⟩
    exact ⟨hco, hm, hf, hcn, tileFrom_sort.mp ht, hc⟩
  · rintro ⟨hco, hm, hf, hcn, ht, hc⟩
    exact ⟨⟨hco, hm, hf, hcn⟩, _, tileFrom_sort.mpr ht, rfl, hc, rfl⟩

end ValidatedPointerProgram

/-! ## Relocation of one frame -/

namespace Link

/-- `code'` holds `code` at `base`, with PFRAME indices shifted by `before`, and the CALLs of
`open'` retargeted to entries of `frames'`. -/
structure Relocated (code code' : List UInt8) (base before : Nat) (open' : List Nat)
    (frames' : List FrameManifest) : Prop where
  base_aligned : base % 4 = 0
  fits : base + code.length ≤ code'.length
  le_max : code'.length ≤ u64Max
  desc : ∀ pc, pc % 4 = 0 → pc + 4 ≤ code.length →
    (insnOf code' (base + pc)).desc = (insnOf code pc).desc
  legal : ∀ pc, pc % 4 = 0 → pc + 4 ≤ code.length →
    (insnOf code' (base + pc)).isIllegal = (insnOf code pc).isIllegal
  frame : ∀ pc, pc % 4 = 0 → pc + 4 ≤ code.length →
    (insnOf code pc).desc.semantics = .pointerFrame →
    (insnOf code' (base + pc)).imm = (insnOf code pc).imm + before
  calls : ∀ pc ∈ open', (insnOf code pc).desc.semantics = .call
  opened : ∀ pc, pc % 4 = 0 → pc + 4 ≤ code.length → pc ∈ open' →
    ∃ f ∈ frames', (f.entry : Int) = (base + pc : Nat) + (insnOf code' (base + pc)).imm * 4
  same : ∀ pc, pc % 4 = 0 → pc + 4 ≤ code.length → pc ∉ open' →
    (insnOf code pc).desc.semantics ≠ .pointerFrame →
    (insnOf code' (base + pc)).imm = (insnOf code pc).imm

variable {code code' : List UInt8} {base before : Nat} {open' : List Nat}
  {frames frames' : List FrameManifest} {frame : FrameManifest}

namespace Relocated

section

variable (h : Relocated code code' base before open' frames')
include h

theorem insnAt_eq
    (hi : pc + 4 ≤ code.length) : insnAt code' (base + pc) = ok (insnOf code' (base + pc)) := by
  have hf := h.fits
  exact insnAt_of_le (by omega)

theorem previousOf_eq {en n : Nat} (ha : en % 4 = 0) (hi : en + 4 * n ≤ code.length)
    (hp : FrameManifest.previousOf code en n = ok pc) :
    FrameManifest.previousOf code' (base + en) n = ok (base + pc) := by
  induction n with
  | zero =>
    obtain rfl := ok.inj hp
    rfl
  | succ n ih =>
    have hpc : en + 4 * n + 4 ≤ code.length := by omega
    simp only [previousOf, insnAt_of_le hpc, ok_bind] at hp
    simp only [previousOf, Nat.add_assoc base, h.insnAt_eq hpc, ok_bind, h.desc _ (by omega) hpc]
    split at hp
    · rename_i hn
      rw [if_pos hn]
      exact ih (by omega) hp
    · rename_i ho
      obtain rfl := ok.inj hp
      rw [if_neg ho]

theorem lastOf_eq {en n : Nat} (ha : en % 4 = 0) (hi : en + 4 * n + 4 ≤ code.length)
    (hl : FrameManifest.lastOf code en n = ok pc) :
    FrameManifest.lastOf code' (base + en) n = ok (base + pc) := by
  induction n with
  | zero =>
    obtain rfl := ok.inj hl
    rfl
  | succ n ih =>
    simp only [lastOf, insnAt_of_le hi, ok_bind] at hl
    simp only [lastOf, Nat.add_assoc base, h.insnAt_eq hi, ok_bind, h.desc _ (by omega) hi]
    split at hl
    · rename_i hn
      rw [if_pos hn]
      exact ih (by omega) hl
    · rename_i ho
      obtain rfl := ok.inj hl
      rw [if_neg ho]

theorem imm_eq (ha : pc % 4 = 0)
    (hi : pc + 4 ≤ code.length) (hf : (insnOf code pc).desc.semantics ≠ .pointerFrame)
    (hc : (insnOf code pc).desc.semantics ≠ .call) :
    (insnOf code' (base + pc)).imm = (insnOf code pc).imm :=
  h.same pc ha hi (fun ho => hc (h.calls pc ho)) hf

theorem checkInsn_eq (hents : ∀ f ∈ frames, ∃ f' ∈ frames', f'.entry = base + f.entry)
    (hen : frame.entry % 4 = 0) (ha : pc % 4 = 0) (hlo : frame.entry ≤ pc)
    (hi : pc + 4 ≤ code.length) (hc : FrameManifest.checkInsn code frames open' frame pc = ok ()) :
    FrameManifest.checkInsn code' frames' [] (shiftFrame base frame) (base + pc) = ok () := by
  simp only [checkInsn, insnAt_of_le hi, ok_bind, eq_ok] at hc
  obtain ⟨hl, hc⟩ := hc
  simp only [checkInsn, h.insnAt_eq hi, ok_bind, eq_ok, h.legal pc ha hi, h.desc pc ha hi]
  refine ⟨hl, ?_⟩
  have him := h.imm_eq ha hi
  cases hs : (insnOf code pc).desc.semantics <;> rw [hs] at hc him
  case pointerFrame =>
    rw [require_eq_ok] at hc ⊢
    rw [hc]
    rfl
  case pointerLocal =>
    rw [require_eq_ok] at hc ⊢
    rw [him (by decide) (by decide)]
    exact hc
  case pointerUnframe =>
    rw [require_eq_ok] at hc ⊢
    exact mem_map_of_mem hc
  case branch =>
    simp only [require_eq_ok] at hc ⊢
    rw [him (by decide) (by decide)]
    simp only [shiftFrame]
    omega
  case call =>
    simp only [require_eq_ok, List.not_mem_nil, false_or, List.any_eq_true, decide_eq_true_eq]
      at hc ⊢
    by_cases ho : pc ∈ open'
    · exact h.opened pc ha hi ho
    · obtain ⟨f, hf, ht⟩ := hc.resolve_left ho
      obtain ⟨f', hf', hen'⟩ := hents f hf
      refine ⟨f', hf', ?_⟩
      rw [h.same pc ha hi ho (by rw [hs]; decide), hen']
      omega
  case ret =>
    simp only [eq_ok] at hc ⊢
    obtain ⟨p, hp, hex⟩ := hc
    have hsc := h.previousOf_eq hen (by omega) hp
    refine ⟨base + p, ?_, mem_map_of_mem hex⟩
    have hd : base + pc - (shiftFrame base frame).entry = pc - frame.entry := by
      simp only [shiftFrame]
      omega
    rw [hd]
    exact hsc
  all_goals exact hc

theorem checkExit_eq
    (hst : frame.stop ≤ code.length) (hc : FrameManifest.checkExit code frame pc = ok ()) :
    FrameManifest.checkExit code' (shiftFrame base frame) (base + pc) = ok () := by
  have hf := h.fits
  have hm := h.le_max
  have hb := h.base_aligned
  simp only [checkExit, eq_ok, Option.any_eq_true, decide_eq_true_eq] at hc ⊢
  obtain ⟨⟨hl, ⟨_, ⟨-, rfl⟩, hh⟩, ha, hcn⟩, insn, hi, hs⟩ := hc
  have hin : pc + 4 ≤ code.length := by omega
  obtain ⟨-, rfl⟩ := insnAt_eq_ok.mp hi
  refine ⟨⟨?_, ⟨base + pc + 4, ⟨by omega, rfl⟩, ?_⟩, by omega, ?_⟩, _, h.insnAt_eq hin, ?_⟩
  · exact Nat.add_le_add_left hl base
  · simp only [shiftFrame]
    omega
  · simp only [shiftFrame]
    rw [count_map_of_injective _ _ (fun a b hab => Nat.add_left_cancel hab)]
    exact hcn
  · rw [h.desc pc ha hin, hs]

/-- **A frame that was checked in its module is checked in the link.** -/
theorem checkFrame_eq (hent : ∀ f ∈ frames, ∃ f' ∈ frames', f'.entry = base + f.entry) {ind : Nat}
    (hc : FrameManifest.checkFrame code frames open' (frame, ind) = ok ()) :
    FrameManifest.checkFrame code' frames' [] (shiftFrame base frame, before + ind) = ok () := by
  have hfi := h.fits
  have hb := h.base_aligned
  simp only [checkFrame, eq_ok, forM_eq_ok, mem_range]
    at hc ⊢
  obtain ⟨⟨hlt, hs, hen, hst, hsz, hsi, hlo, hex⟩, first, hf, ⟨hse,
    him⟩, hch, hins, la, hl, last, hls, hr, ha⟩ := hc
  obtain ⟨hin, rfl⟩ := insnAt_eq_ok.mp hf
  obtain ⟨hla, rfl⟩ := insnAt_eq_ok.mp hls
  have hcn : (shiftFrame base frame).stop - (shiftFrame base frame).entry =
      frame.stop - frame.entry := by
    simp only [shiftFrame]
    omega
  rw [hcn]
  refine ⟨⟨?_, ?_, ?_, ?_, hsz, hsi, hlo, ?_⟩, _, h.insnAt_eq hin, ⟨?_, ?_⟩,
    hch, fun i hi => ?_, base + la, ?_, _, h.insnAt_eq hla, ?_, ?_⟩
  · exact Nat.add_lt_add_left hlt base
  · exact (Nat.add_le_add_left hs base).trans hfi
  · exact (by omega : (base + frame.entry) % 4 = 0)
  · exact (by omega : (base + frame.stop) % 4 = 0)
  · simpa [shiftFrame] using hex
  · rw [h.desc _ hen hin, hse]
  · rw [h.frame _ hen hin hse, him]
    omega
  · have hp : (shiftFrame base frame).entry + 4 * i = base + (frame.entry + 4 * i) :=
      Nat.add_assoc ..
    rw [hp]
    exact h.checkInsn_eq hent hen (by omega) (by omega) (by omega) (hins i hi)
  · exact h.lastOf_eq hen (by omega) hl
  · rw [h.desc _ (lastOf_aligned hen hl) hla, hr]
  · intro pc hp
    obtain ⟨exit', hexi', rfl⟩ := mem_map.mp hp
    exact h.checkExit_eq hs (ha exit' hexi')

end

end Relocated

end Link

end Anka
