import Anka.Core.Step

/-!
# Condition codes are exact (`core.rs`)

`update_flags` computes the flags from wrapped results and sign bits, and `Flags::test` combines
them. After a subtraction a condition holds exactly when the comparison it names does
(`Cond.compares`); after an addition C and V hold exactly when the sum leaves the unsigned and the
signed range.
-/

namespace Anka

open Rust Res

/-- The comparison that a condition names. -/
def Cond.compares (a b : BitVec 64) : Cond → Prop
  | .eq => a = b
  | .ne => a ≠ b
  | .lt => a.toInt < b.toInt
  | .ge => b.toInt ≤ a.toInt
  | .le => a.toInt ≤ b.toInt
  | .gt => b.toInt < a.toInt
  | .ult => a.toNat < b.toNat
  | .uge => b.toNat ≤ a.toNat
  | .ule => a.toNat ≤ b.toNat
  | .ugt => b.toNat < a.toNat
  | .al => True

namespace Flags

variable (flags : Flags) (a b : BitVec 64)

theorem sub_sign : (a - b).msb ≠ ((a ^^^ b) &&& (a ^^^ (a - b))).msb ↔ a.toInt < b.toInt := by
  have ha := a.isLt
  have hb := b.isLt
  simp only [BitVec.msb_and, BitVec.msb_xor]
  simp only [BitVec.msb_eq_decide, BitVec.toInt_eq_toNat_cond, BitVec.toNat_sub]
  grind

theorem sub_zero : (a - b).toNat = 0 ↔ a = b := by
  have ha := a.isLt
  have hb := b.isLt
  rw [BitVec.toNat_sub, BitVec.toNat_eq]
  omega

theorem test_sub (cond : Cond) :
    (flags.update .sub a.toNat b.toNat (aluEval .sub a.toNat b.toNat)).test cond = true ↔
      cond.compares a b := by
  have hs := sub_sign a b
  have hz := sub_zero a b
  have heq := @BitVec.toInt_inj _ a b
  have heq' := @BitVec.toNat_inj _ a b
  simp only [update, aluEval, BitVec.ofNat_toNat, BitVec.setWidth_eq]
  cases cond <;> simp only [test, Cond.compares] <;> grind

theorem add_carry : (a + b).toNat < a.toNat ↔ 2 ^ 64 - 1 < a.toNat + b.toNat := by
  have ha := a.isLt
  have hb := b.isLt
  rw [BitVec.toNat_add]
  omega

theorem add_overflow : (~~~(a ^^^ b) &&& (a ^^^ (a + b))).msb = true ↔
    ¬ (-2 ^ 63 ≤ a.toInt + b.toInt ∧ a.toInt + b.toInt ≤ 2 ^ 63 - 1) := by
  have ha := a.isLt
  have hb := b.isLt
  simp only [BitVec.msb_and, BitVec.msb_xor, BitVec.msb_not]
  simp only [BitVec.msb_eq_decide, BitVec.toInt_eq_toNat_cond, BitVec.toNat_add]
  grind

end Flags

variable {word : BitVec 32} {insn : DecodedInsn}

theorem decode_flags (hi : decode word = insn) :
    (insn.desc.semantics = .cmp ∨ insn.desc.semantics = .alu .sub → insn.desc.flags = .sub) ∧
    (insn.desc.semantics = .alu .add → insn.desc.flags = .arith) := by
  have ht : ∀ d ∈ INSNS, (d.semantics = .cmp ∨ d.semantics = .alu .sub → d.flags = .sub) ∧
      (d.semantics = .alu .add → d.flags = .arith) := by
    decide
  unfold decode at hi
  split at hi <;> subst hi
  · rename_i d hd
    exact ht d (List.mem_of_find?_eq_some hd)
  · simp [ILLEGAL_DESC]

variable {c c' : Anka64Core} {f f' : Fabric} {a b : BitVec 64} {r : StepResult}

/-- **Condition codes are exact.** -/
theorem flags_exact (hinsn : decode word = insn) (ha : c.r insn.rs1 = a.toNat)
    (hb : c.operandB insn = b.toNat) (h : c.execute f insn = ok (r, c', f')) :
    (insn.desc.semantics = .cmp ∨ insn.desc.semantics = .alu .sub →
      ∀ cond, c'.flags.test cond = true ↔ cond.compares a b) ∧
    (insn.desc.semantics = .alu .add →
      (c'.flags.c = true ↔ 2 ^ 64 - 1 < a.toNat + b.toNat) ∧
      (c'.flags.v = true ↔ ¬ (-2 ^ 63 ≤ a.toInt + b.toInt ∧ a.toInt + b.toInt ≤ 2 ^ 63 - 1))) := by
  obtain ⟨hsu, had⟩ := decode_flags hinsn
  simp only [Anka64Core.execute, eq_ok] at h
  obtain ⟨next, -, -, h⟩ := h
  constructor
  · intro hs cond
    rw [← c.flags.test_sub a b cond, ← ha, ← hb, ← hsu hs]
    obtain hs | hs := hs <;> rw [hs] at h <;> cases h <;> rfl
  · intro hs
    have hf := had hs
    rw [hs] at h
    cases h
    simp only [Anka64Core.aluInsn, hf, ha, hb, Flags.update, aluEval, BitVec.ofNat_toNat,
      BitVec.setWidth_eq, decide_eq_true_eq, Flags.add_carry, Flags.add_overflow, and_self]

/-- CMP of the least signed number and 1. -/
theorem flags_exact_least : ∃ (f : Fabric) (c c' : Anka64Core), c.r 0 = 2 ^ 63 ∧ c.r 1 = 1 ∧
    c.execute f (decode 0x24004000) = ok (.continue, c', f) ∧ c'.flags.test .lt = true ∧
    c'.flags.test .ugt = true := by
  have hn : (Fabric.new exactHost 0).isOkAnd (fun _ => true) = true := by decide +kernel
  obtain ⟨f, -⟩ := isOkAnd_eq_true.mp hn
  let c := { Anka64Core.new 1 ⟨0⟩ ⟨0⟩ with r := fun i => if i = 0 then 2 ^ 63 else 1 }
  have ha : c.r (decode 0x24004000).rs1 = (2 ^ 63 : BitVec 64).toNat := by decide +kernel
  have hb : c.operandB (decode 0x24004000) = (1 : BitVec 64).toNat := by decide
  have hs := (flags_exact (f := f) rfl ha hb rfl).1 (.inl rfl)
  refine ⟨f, c, _, rfl, rfl, rfl, (hs .lt).mpr ?_, (hs .ugt).mpr ?_⟩ <;>
    simp only [Cond.compares] <;> decide +kernel

end Anka
