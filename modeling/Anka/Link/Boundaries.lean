import Anka.Core.Discipline
import Anka.Link.Relocate

/-!
# Function boundaries

A path of a program goes from an instruction to the next one or to the target of a branch; a CALL
continues behind itself, and RET, TRAP, ERET and HALT end the path. `run_within` says that the core
follows such paths.

The validator looks at the targets of branches and at the end of each frame apart from one another:
a branch may go anywhere in its frame, and the frame ends in RET up to NOPs. So the NOPs behind the
last RET are allowed targets, and from there a path runs into the next frame. `path_within_iff` says
that this is the only way out: the paths from an entry stay in the frame exactly when none of them
branches into the NOPs at its end. `path_leaves` is a program that has one.
-/

namespace Anka

open Rust Res

/-- Control can pass to the next instruction. -/
def DecodedInsn.passes (insn : DecodedInsn) : Bool :=
  match insn.desc.semantics with
  | .ret | .trap | .eret | .halt => false
  | .branch => insn.cond != .al
  | _ => true

/-- The instruction at `pc` is a branch to `target`. -/
def Jumps (code : List UInt8) (pc target : Nat) : Prop :=
  pc + 4 ≤ code.length ∧ (insnOf code pc).desc.semantics = .branch ∧
    (target : Int) = pc + (insnOf code pc).imm * 4

/-- Where control goes from the instruction at `pc`. -/
inductive Flows (code : List UInt8) (pc : Nat) : Nat → Prop
  | next (hin : pc + 4 ≤ code.length) (hpasses : (insnOf code pc).passes = true) :
      Flows code pc (pc + 4)
  | taken {target : Nat} (hjumps : Jumps code pc target) : Flows code pc target

/-- The addresses a path reaches. -/
def Path (code : List UInt8) : Nat → Nat → Prop := Relation.ReflTransGen (Flows code)

namespace FrameManifest

variable {code : List UInt8} {frames : List FrameManifest} {frame : FrameManifest}

/-- The address lies in the frame. -/
def Holds (frame : FrameManifest) (pc : Nat) : Prop := frame.entry ≤ pc ∧ pc < frame.stop

/-- From the address to the end of the frame there are NOPs only. -/
def Padding (code : List UInt8) (frame : FrameManifest) (pc : Nat) : Prop :=
  ∀ q, pc ≤ q → q < frame.stop → q % 4 = 0 → (insnOf code q).desc.semantics = .nop

theorem lastOf_eq_ok {en n pc : Nat} (h : lastOf code en n = ok pc) :
    ∃ k ≤ n, pc = en + 4 * k ∧
      ∀ i, k < i → i ≤ n → (insnOf code (en + 4 * i)).desc.semantics = .nop := by
  induction n with
  | zero => exact ⟨0, le_refl 0, (ok.inj h).symm, fun i hi hl => absurd hi (Nat.not_lt.mpr hl)⟩
  | succ n ih =>
    simp only [lastOf, bind_eq_ok, insnAt_eq_ok] at h
    obtain ⟨_, ⟨-, rfl⟩, h⟩ := h
    split at h
    · rename_i hno
      obtain ⟨k, hk, rfl, hn⟩ := ih h
      refine ⟨k, by omega, rfl, fun i hi hl => ?_⟩
      rcases Nat.lt_or_eq_of_le hl with hlt | rfl
      · exact hn i hi (by omega)
      · exact hno
    · exact ⟨n + 1, le_refl _, (ok.inj h).symm, fun i hi hl => absurd hi (Nat.not_lt.mpr hl)⟩

/-- What the validator has checked of the control flow of a frame whose last RET is at `last`. -/
structure Bounded (code : List UInt8) (frame : FrameManifest) (last : Nat) : Prop where
  entry_aligned : frame.entry % 4 = 0
  stop_aligned : frame.stop % 4 = 0
  fits : frame.stop ≤ code.length
  branch : ∀ pc, frame.Holds pc → pc % 4 = 0 → (insnOf code pc).desc.semantics = .branch →
    (frame.entry : Int) < pc + (insnOf code pc).imm * 4 ∧
      (pc : Int) + (insnOf code pc).imm * 4 < frame.stop
  last_holds : frame.Holds last
  last_aligned : last % 4 = 0
  ret : (insnOf code last).desc.semantics = .ret
  padding : ∀ q, last < q → q < frame.stop → q % 4 = 0 → (insnOf code q).desc.semantics = .nop

theorem bounded_of_checkFrame {importCalls : List Nat} {i : Nat}
    (h : checkFrame code frames importCalls (frame, i) = ok ()) :
    ∃ last, Bounded code frame last := by
  simp only [checkFrame, eq_ok, forM_eq_ok, List.mem_range] at h
  obtain ⟨⟨hlt, hf, hen, hs, -⟩, _, -, -, -, hins, last, hl, _, hr, hse, -⟩ := h
  obtain ⟨-, rfl⟩ := insnAt_eq_ok.mp hr
  have ha := lastOf_aligned hen hl
  obtain ⟨k, hk, rfl, hn⟩ := lastOf_eq_ok hl
  refine ⟨_, hen, hs, hf, fun pc hp hpc4 hb => ?_, ⟨by omega, by omega⟩, ha, hse,
    fun q hq hq' hq4 => ?_⟩
  · obtain ⟨hlo, hh⟩ := hp
    have hi := hins ((pc - frame.entry) / 4) (by omega)
    rw [show frame.entry + 4 * ((pc - frame.entry) / 4) = pc by omega] at hi
    simp only [checkInsn, insnAt_of_le (show pc + 4 ≤ code.length by omega), ok_bind, hb,
      eq_ok] at hi
    exact hi.2
  · have hno := hn ((q - frame.entry) / 4) (by omega) (by omega)
    rwa [show frame.entry + 4 * ((q - frame.entry) / 4) = q by omega] at hno

namespace Bounded

variable {last pc target : Nat}

section

variable (h : Bounded code frame last)
include h

theorem padding_iff : Padding code frame pc ↔ last < pc := by
  constructor
  · intro hp
    by_contra hle
    have hn := hp last (by omega) h.last_holds.2 h.last_aligned
    rw [h.ret] at hn
    cases hn
  · exact fun hl q hq => h.padding q (by omega)

theorem flows_le (hl : frame.entry ≤ pc) (hh : pc ≤ last) (ha : pc % 4 = 0)
    (hf : Flows code pc target) (hq : Jumps code pc target → ¬ Padding code frame target) :
    frame.entry ≤ target ∧ target ≤ last ∧ target % 4 = 0 := by
  have hls := h.last_holds.2
  have hla := h.last_aligned
  cases hf with
  | next hin hpasses =>
    have hne : pc ≠ last := by
      rintro rfl
      simp [DecodedInsn.passes, h.ret] at hpasses
    omega
  | taken hjumps =>
    have hn := mt h.padding_iff.mpr (hq hjumps)
    obtain ⟨-, hs, ht⟩ := hjumps
    have hb := h.branch pc ⟨hl, by omega⟩ ha hs
    omega

theorem path_le (hq : ∀ pc target, Path code frame.entry pc → Jumps code pc target →
      ¬ Padding code frame target) (hp : Path code frame.entry pc) :
    frame.entry ≤ pc ∧ pc ≤ last ∧ pc % 4 = 0 := by
  induction hp with
  | refl => exact ⟨le_refl _, h.last_holds.1, h.entry_aligned⟩
  | tail hp hf ih => exact h.flows_le ih.1 ih.2.1 ih.2.2 hf (hq _ _ hp)

theorem path_stop (hp : Padding code frame pc) (hpc : pc ≤ frame.stop)
    (ha : pc % 4 = 0) : Path code pc frame.stop := by
  obtain ⟨n, hn⟩ : ∃ n, frame.stop = pc + 4 * n :=
    ⟨(frame.stop - pc) / 4, by have := h.stop_aligned; omega⟩
  have hf := h.fits
  have hr : ∀ k ≤ n, Path code pc (pc + 4 * k) := by
    intro k hk
    induction k with
    | zero => exact .refl
    | succ k ih =>
      have hno := hp (pc + 4 * k) (by omega) (by omega) (by omega)
      refine (ih (by omega)).tail (.next (by omega) ?_)
      simp [DecodedInsn.passes, hno]
  exact hn ▸ hr n (le_refl n)

end

end Bounded

end FrameManifest

namespace ValidatedPointerProgram

open FrameManifest

variable {code : List UInt8} {frames : List FrameManifest} {frame other : FrameManifest}
  {importCalls : List Nat} {pc : Nat}

theorem exists_bounded (h : validateStructure code frames importCalls = ok ())
    (hf : frame ∈ frames) : ∃ last, Bounded code frame last := by
  obtain ⟨i, hi⟩ := List.mem_iff_getElem?.mp hf
  exact bounded_of_checkFrame ((validateStructure_eq_ok.mp h).2.2.2.2.2 i frame hi)

theorem Tiled.holds_unique (h : Tiled code frames) (hfr : frame ∈ frames) (ho : other ∈ frames)
    (hp : frame.Holds pc) (hp' : other.Holds pc) :
    (other.entry, other.stop) = (frame.entry, frame.stop) := by
  obtain ⟨order, hpe, ht⟩ := h
  have hm : ∀ f ∈ frames, (f.entry, f.stop) ∈ order := fun f hf =>
    hpe.mem_iff.mpr (List.mem_map_of_mem hf)
  have ha : order.Pairwise fun r r' => r.2 ≤ r'.1 ∨ r'.2 ≤ r.1 :=
    (tileFrom_pairwise ht).imp Or.inl
  by_contra hne
  have hs : Std.Symm fun r r' : Nat × Nat => r.2 ≤ r'.1 ∨ r'.2 ≤ r.1 := ⟨fun _ _ => Or.symm⟩
  have hd := ha.forall (hm other ho) (hm frame hfr) hne
  unfold Holds at hp hp'
  omega

/-- **Function boundaries.** The paths from the entry of a frame stay in this frame, and so out of
every other, exactly when none of them branches into the NOPs at its end. -/
theorem path_within_iff (h : validateStructure code frames importCalls = ok ())
    (hframe : frame ∈ frames) :
    (∀ pc, Path code frame.entry pc → frame.Holds pc ∧
        ∀ other ∈ frames, other.Holds pc → (other.entry, other.stop) = (frame.entry, frame.stop)) ↔
      ∀ pc target, Path code frame.entry pc → Jumps code pc target →
        ¬ Padding code frame target := by
  obtain ⟨last, hb⟩ := exists_bounded h hframe
  constructor
  · intro hw pc target hp hjumps hpa
    have ht : Path code frame.entry target := hp.tail (.taken hjumps)
    have ha : ∀ q, Path code frame.entry q → q % 4 = 0 := by
      intro q hq
      induction hq with
      | refl => exact hb.entry_aligned
      | tail _ hf ih =>
        cases hf with
        | next => omega
        | taken hjumps => have := hjumps.2.2; omega
    have hs := hb.path_stop hpa (hw target ht).1.2.le (ha target ht)
    exact lt_irrefl _ (hw frame.stop (ht.trans hs)).1.2
  · intro hqu pc hp
    obtain ⟨hl, hhi, -⟩ := hb.path_le hqu hp
    have hh : frame.Holds pc := ⟨hl, hhi.trans_lt hb.last_holds.2⟩
    exact ⟨hh, fun other ho =>
      (validateStructure_eq_ok.mp h).2.2.2.2.1.holds_unique hframe ho hh⟩

/-- The code of one function: PFRAME, PUNFRAME, RET. -/
def leafCode : List UInt8 :=
  Asm64.toBytes [encodeS 0x2C 0, encodeS 0x2E 0, encodeS 0x38 0]

/-- A frame of one module. -/
def leafFrame : FrameManifest := { entry := 0, stop := 12, size := 16, exits := [4], locals := [] }

theorem path_within_leaf : validateStructure leafCode [leafFrame] [] = ok () ∧
    ∀ pc, Path leafCode 0 pc → leafFrame.Holds pc := by
  have hv : validateStructure leafCode [leafFrame] [] = ok () := by decide +kernel
  have hq : ∀ pc < 9, (insnOf leafCode pc).desc.semantics ≠ .branch := by decide +kernel
  refine ⟨hv, fun pc hp => ?_⟩
  refine ((path_within_iff hv (List.mem_singleton.mpr rfl)).mpr ?_ pc hp).1
  exact fun pc target _ hjumps => absurd hjumps.2.1 (hq pc (Nat.lt_succ_of_le
    (Nat.le_of_add_le_add_right hjumps.1)))

/-- Two functions: the first branches to the NOP behind its RET. -/
def paddedCode : List UInt8 :=
  Asm64.toBytes [encodeS 0x2C 0, encodeB 0x30 10 3, encodeS 0x2E 0,
    encodeS 0x38 0, Asm64.nop, encodeS 0x2C 1, encodeS 0x2E 0,
    encodeS 0x38 0]

/-- Two frames, with a gap of padding. -/
def paddedFrames : List FrameManifest :=
  [{ entry := 0, stop := 20, size := 16, exits := [8], locals := [] },
   { entry := 20, stop := 32, size := 16, exits := [24], locals := [] }]

/-- The validator accepts a function that runs into the next one. -/
theorem path_leaves : validateStructure paddedCode paddedFrames [] = ok () ∧
    Path paddedCode 0 20 := by
  refine ⟨by decide +kernel, ?_⟩
  have hf : Flows paddedCode 0 4 := .next (by decide) (by decide +kernel)
  have hb : Flows paddedCode 4 16 := .taken ⟨by decide, by decide +kernel, by decide +kernel⟩
  have hn : Flows paddedCode 16 20 := .next (by decide) (by decide +kernel)
  exact ((Relation.ReflTransGen.single hf).tail hb).tail hn

end ValidatedPointerProgram

/-! ## The core follows the paths -/

/-- The instruction neither leaves the function nor calls another. -/
def Sem.isLocal : Sem → Bool
  | .call | .ret | .trap | .eret | .halt => false
  | _ => true

namespace Anka64Core

variable {c c' : Anka64Core} {f f' : Fabric} {insn : DecodedInsn} {r : StepResult}

theorem execute_pc (hl : insn.desc.semantics.isLocal = true)
    (h : c.execute f insn = ok (r, c', f')) :
    insn.passes = true ∧ c'.pc = c.pc + 4 ∨
      insn.desc.semantics = .branch ∧ (c'.pc : Int) = (c.pc + insn.imm * 4) % 2 ^ 64 := by
  simp only [execute, eq_ok] at h
  obtain ⟨next, ⟨-, rfl⟩, -, h⟩ := h
  unfold DecodedInsn.passes
  cases hs : insn.desc.semantics <;> simp only [hs, proceed] at h ⊢
  case call | ret | trap | eret | halt =>
    rw [hs] at hl
    cases hl
  case branch =>
    split at h
    · simp only [branchTarget, eq_ok] at h
      obtain ⟨_, ⟨-, rfl⟩, -, rfl, -⟩ := h
      exact .inr ⟨trivial, asU64_asI64_add c.pc _⟩
    · rename_i ht
      simp only [ok_bind, ok.injEq, Prod.mk.injEq] at h
      obtain ⟨-, rfl, -⟩ := h
      refine .inl ⟨bne_iff_ne.mpr fun ha => ht ?_, rfl⟩
      rw [ha]
      rfl
  case alu | cmp | mov | movi | lea | nop =>
    simp only [ok.injEq, Prod.mk.injEq] at h
    obtain ⟨-, rfl, -⟩ := h
    exact .inl ⟨trivial, rfl⟩
  all_goals
    obtain ⟨_, -, h⟩ := bind_eq_ok.mp h
    simp only [ok.injEq, Prod.mk.injEq] at h
    obtain ⟨-, rfl, -⟩ := h
    exact .inl ⟨trivial, rfl⟩

/-- The core executes a local instruction of the code at `base`. -/
def Follows (code : List UInt8) (base : Nat) (s s' : Anka64Core × Fabric) : Prop :=
  ∃ pc r, s.1.pc = base + pc ∧ pc + 4 ≤ code.length ∧
    (insnOf code pc).desc.semantics.isLocal = true ∧
    s.1.execute s.2 (insnOf code pc) = ok (r, s'.1, s'.2)

variable {code : List UInt8} {frame : FrameManifest} {s s' : Anka64Core × Fabric}

theorem Follows.flows {base pc last : Nat} (h : Follows code base s s')
    (hb : frame.Bounded code last) (hh : frame.Holds pc) (ha : pc % 4 = 0)
    (hf : base + code.length ≤ u64Max) (hp : s.1.pc = base + pc) :
    ∃ pc', s'.1.pc = base + pc' ∧ Flows code pc pc' := by
  obtain ⟨q, r, hq, hin, hl, h⟩ := h
  obtain rfl : pc = q := by omega
  rcases execute_pc hl h with ⟨hpasses, hn⟩ | ⟨hs, ht⟩
  · exact ⟨pc + 4, by omega, .next hin hpasses⟩
  · have hbr := hb.branch pc hh ha hs
    have hst := hb.fits
    unfold u64Max at hf
    exact ⟨((pc : Int) + (insnOf code pc).imm * 4).toNat, by omega, .taken ⟨hin, hs, by omega⟩⟩

/-- **A run inside a function.** While the core executes local instructions from the entry of a
frame whose paths do not branch into its padding, it stays in this frame. -/
theorem run_within {frames : List FrameManifest} {importCalls : List Nat} {base : Nat}
    (hvalid : ValidatedPointerProgram.validateStructure code frames importCalls = ok ())
    (hframe : frame ∈ frames)
    (hquiet : ∀ pc target, Path code frame.entry pc → Jumps code pc target →
      ¬ frame.Padding code target) (hfits : base + code.length ≤ u64Max)
    (hentry : s.1.pc = base + frame.entry) (hrun : Relation.ReflTransGen (Follows code base) s s') :
    ∃ pc, s'.1.pc = base + pc ∧ frame.Holds pc ∧ Path code frame.entry pc := by
  obtain ⟨last, hb⟩ := ValidatedPointerProgram.exists_bounded hvalid hframe
  have hh : ∀ pc, Path code frame.entry pc → frame.Holds pc ∧ pc % 4 = 0 := fun pc hp =>
    have ⟨hl, hhi, ha⟩ := hb.path_le hquiet hp
    ⟨⟨hl, hhi.trans_lt hb.last_holds.2⟩, ha⟩
  induction hrun with
  | refl => exact ⟨frame.entry, hentry, (hh _ .refl).1, .refl⟩
  | tail _ hs ih =>
    obtain ⟨pc, hpc, hin, hp⟩ := ih
    obtain ⟨pc', hpc', hf⟩ := hs.flows hb hin (hh pc hp).2 hfits hpc
    have hp' := hp.tail hf
    exact ⟨pc', hpc', (hh pc' hp').1, hp'⟩

open ValidatedPointerProgram Watched in
/-- A function of a module enters its frame. -/
theorem run_within_entry : ∃ s s', Follows (movesSpCode.take 16) 0 s s' ∧
    ∃ pc, s'.1.pc = 0 + pc ∧ pc < 16 := by
  let code := movesSpCode.take 16
  have hr : Fabric.leadsTo 128 movesSpSetup (fun f =>
      (movesSpCore.admitPointerProgram f movesSp 0 64 128).isOkAnd fun s =>
        decide (s.1.pc = 0) && (s.1.execute s.2 (insnOf code 0)).isOkAnd fun _ => true) = true := by
    decide +kernel
  obtain ⟨f, -, hf⟩ := Fabric.exists_of_replay hr
  simp only [isOkAnd_eq_true, Bool.and_eq_true, decide_eq_true_eq] at hf
  obtain ⟨s, -, hp, ⟨r, s'⟩, hs, -⟩ := hf
  have hfi : Follows code 0 s s' := ⟨0, r, hp, by decide, by decide +kernel, hs⟩
  have hv : validateStructure code (movesSp.frames.take 1) [4] = ok () := by decide +kernel
  have hq : ∀ pc < 13, (insnOf code pc).desc.semantics ≠ .branch := by decide +kernel
  obtain ⟨pc, hp', hh, -⟩ := run_within hv List.mem_cons_self (fun pc _ _ hjumps =>
    absurd hjumps.2.1 (hq pc (Nat.lt_succ_of_le (Nat.le_of_add_le_add_right hjumps.1))))
    (by decide) hp (.single hfi)
  exact ⟨s, s', hfi, pc, hp', hh.2⟩

end Anka64Core

end Anka
