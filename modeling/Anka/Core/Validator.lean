import Anka.Core.State
import Anka.Lib.Loops
import Mathlib.Data.List.Sort

/-!
# The validator of pointer programs (`pointer_frames.rs`)

`ValidatedPointerProgram::validate` accepts code with frame manifests when the frames tile the code,
every frame starts with its own PFRAME and ends in RET, its locals are aligned, inside the frame and
disjoint, no instruction names memory by integers, leaves an event or halts, PUNFRAME stands at the
listed exits only, a branch stays inside its frame, a CALL goes to the entry of a frame, and a RET
follows an exit.

It does not look at the registers an instruction writes, and not at the path on which a RET is
reached: a branch can reach a RET from anywhere in the frame, and the program can change SP and FP
like any other register.

`code[i..i + 4]` panics outside the code. The set of import sites is a list here; only the module
constructor passes sites, and `validate` passes none.
-/

namespace Anka

open Rust Res

/-- `decode(u32::from_le_bytes(code[pc..pc + 4]))`. -/
def insnAt (code : List UInt8) (pc : Nat) : Res FrameError DecodedInsn := do
  check (pc + 4 ≤ code.length)
  return decode (BitVec.ofNat 32 (ofLeBytes (slice code pc 4)))

namespace FrameManifest

/-- The loop over the sorted ranges: each starts where the one before ends. Answers the last end. -/
def tileFrom : Nat → List (Nat × Nat) → Res FrameError Nat
  | prior, [] => ok prior
  | prior, (start, stop) :: rest => do
    require (start = prior ∧ start < stop) .geometry
    tileFrom stop rest

/-- The order of `sort_unstable` on pairs. -/
def rangeLe (a b : Nat × Nat) : Prop := a.1 < b.1 ∨ a.1 = b.1 ∧ a.2 ≤ b.2
  deriving Decidable

/-- The loop over the locals of a frame: each is aligned, inside the frame and disjoint from those
before it. -/
def checkLocals (size : Nat) : List LocalStorage → List LocalStorage → Res FrameError Unit
  | _, [] => ok ()
  | prior, l :: rest => do
    require (l.alignment ∈ [1, 2, 4, 8, 16] ∧ l.offset % l.alignment = 0 ∧ l.length ≠ 0 ∧
      (checkedAdd l.offset l.length).any (fun stop => decide (stop ≤ size)) = true ∧
      (l.pointerSlot = true → l.alignment = 16 ∧ l.length = 16)) .manifest
    require ((prior.any fun other => decide (l.offset < other.offset + other.length) &&
      decide (other.offset < l.offset + l.length)) = false) .manifest
    checkLocals size (prior ++ [l]) rest

/-- The scan before a RET that is `n` instructions above the entry: the nearest instruction that is
no NOP, or the entry. -/
def previousOf (code : List UInt8) (entry : Nat) : Nat → Res FrameError Nat
  | 0 => ok entry
  | n + 1 => do
    let insn ← insnAt code (entry + 4 * n)
    if insn.desc.semantics = .nop then previousOf code entry n else ok (entry + 4 * n)

/-- The scan from the last instruction of a frame, `n` above the entry, over NOPs. -/
def lastOf (code : List UInt8) (entry : Nat) : Nat → Res FrameError Nat
  | 0 => ok entry
  | n + 1 => do
    let insn ← insnAt code (entry + 4 * (n + 1))
    if insn.desc.semantics = .nop then lastOf code entry n else ok (entry + 4 * (n + 1))

/-- One instruction of a frame. -/
def checkInsn (code : List UInt8) (frames : List FrameManifest) (importCalls : List Nat)
    (frame : FrameManifest) (pc : Nat) : Res FrameError Unit := do
  let insn ← insnAt code pc
  require (insn.isIllegal = false) .manifest
  match insn.desc.semantics with
  | .load | .store | .loadByte | .storeByte | .xchg | .eret | .halt => err .manifest
  | .pointerFrame => require (pc = frame.entry) .control
  | .pointerLocal => require (0 ≤ insn.imm ∧ insn.imm.toNat < frame.locals.length) .manifest
  | .pointerUnframe => require (pc ∈ frame.exits) .control
  | .branch =>
    let target := (pc : Int) + insn.imm * 4
    require ((frame.entry : Int) < target ∧ target < frame.stop) .control
  | .call =>
    let target := (pc : Int) + insn.imm * 4
    require (pc ∈ importCalls ∨ (frames.any fun f => decide ((f.entry : Int) = target)) = true)
      .control
  | .ret => do
    let previous ← previousOf code frame.entry ((pc - frame.entry) / 4)
    require (previous ∈ frame.exits) .control
  | _ => ok ()

/-- One listed exit. -/
def checkExit (code : List UInt8) (frame : FrameManifest) (pc : Nat) : Res FrameError Unit := do
  require (frame.entry ≤ pc ∧ (checkedAdd pc 4).any (fun n => decide (n < frame.stop)) = true ∧
    pc % 4 = 0 ∧ frame.exits.count pc = 1) .control
  let insn ← insnAt code pc
  require (insn.desc.semantics = .pointerUnframe) .control

/-- One frame under its index. -/
def checkFrame (code : List UInt8) (frames : List FrameManifest) (importCalls : List Nat)
    (indexed : FrameManifest × Nat) : Res FrameError Unit := do
  let (frame, index) := indexed
  require (frame.entry < frame.stop ∧ frame.stop ≤ code.length ∧ frame.entry % 4 = 0 ∧
    frame.stop % 4 = 0 ∧ frame.size ≠ 0 ∧ frame.size % 16 = 0 ∧ frame.locals.length ≤ 4096 ∧
    frame.exits ≠ []) .manifest
  let first ← insnAt code frame.entry
  require (first.desc.semantics = .pointerFrame ∧ first.imm = index) .manifest
  checkLocals frame.size [] frame.locals
  let count := (frame.stop - frame.entry) / 4
  (List.range count).forM fun i => checkInsn code frames importCalls frame (frame.entry + 4 * i)
  let lastPc ← lastOf code frame.entry (count - 1)
  let last ← insnAt code lastPc
  require (last.desc.semantics = .ret) .control
  frame.exits.forM (checkExit code frame)

end FrameManifest

namespace ValidatedPointerProgram

/-- The frames tile the code and return at their exits (81). -/
def validateStructure (code : List UInt8) (frames : List FrameManifest)
    (importCalls : List Nat) : Res FrameError Unit := do
  require (code ≠ [] ∧ code.length % 4 = 0 ∧ frames ≠ [] ∧ frames.length ≤ 4096) .geometry
  let ranges := (frames.map fun f => (f.entry, f.stop)).insertionSort FrameManifest.rangeLe
  let priorEnd ← FrameManifest.tileFrom 0 ranges
  require (priorEnd = code.length) .geometry
  frames.zipIdx.forM (FrameManifest.checkFrame code frames importCalls)
  require (priorEnd = code.length) .geometry

/-- `validate`. Every frame that was checked starts inside the code, so the last branch is never
taken. -/
def validate (code : List UInt8) (frames : List FrameManifest) :
    Res FrameError ValidatedPointerProgram := do
  validateStructure code frames []
  if h : ∀ frame ∈ frames, frame.entry < code.length then ok { code, frames, entry_lt := h }
  else panic

/-- The program came out of the validator. -/
def Accepted (program : ValidatedPointerProgram) : Prop :=
  validate program.code program.frames = ok program
  deriving Decidable

theorem Accepted.entry {p : ValidatedPointerProgram} (h : Accepted p) {index : Nat}
    {fr : FrameManifest} (hfr : p.frames[index]? = some fr) :
    ∃ insn, insnAt p.code fr.entry = ok insn ∧ insn.desc.semantics = .pointerFrame ∧
      insn.imm = index := by
  simp only [Accepted, validate, validateStructure, bind_eq_ok] at h
  obtain ⟨_, ⟨_, -, _, -, _, -, _, hf, -⟩, -⟩ := h
  have hm : (fr, index) ∈ p.frames.zipIdx :=
    List.mk_mem_zipIdx_iff_getElem?.mpr hfr
  have hc := forM_eq_ok.mp hf _ hm
  simp only [FrameManifest.checkFrame, eq_ok] at hc
  obtain ⟨-, insn, hi, ⟨hs, him⟩, -⟩ := hc
  exact ⟨insn, hi, hs, him⟩

end ValidatedPointerProgram

end Anka
