import Anka.Isa
import Anka.Lib.Words

/-!
# Instruction words (`isa.rs`)

The encoders of the four formats and the emitters of the assembler. A field is masked to its width,
as the source masks it.

An emitter appends one word or panics. `Emit` is a call of one of them, `Emit.operands` the name and
the operands it is asked for, `Emit.word` the word it appends. `emit_decodes_iff`: the word decodes
to the instruction of that name with those operands exactly when the operands fit (`Operands.Fit`).
Immediates are checked before they are masked, and so are the operands of the pointer instructions.
Register numbers of the other emitters and branch displacements are masked without a check.

Left out: the disassembler, the listing and the list of words in which an assembler collects them.
-/

namespace Anka

open Rust Res

/-- An instruction word of format R (149). -/
def encodeR (opcode : Nat) (rd rs1 rs2 : Register) : BitVec 32 :=
  BitVec.ofNat 32 (opcode * 2 ^ 26 + rd.val * 2 ^ 22 + rs1.val * 2 ^ 18 + rs2.val * 2 ^ 14)

/-- `encode_i`: the low 18 bits of the immediate. -/
def encodeI (opcode : Nat) (rd rs1 : Register) (imm : Int) : BitVec 32 :=
  BitVec.ofNat 32 (opcode * 2 ^ 26 + rd.val * 2 ^ 22 + rs1.val * 2 ^ 18 +
    (BitVec.ofInt 18 imm).toNat)

/-- `encode_b`: the low 22 bits of the offset. -/
def encodeB (opcode : Nat) (cond : Fin 16) (offset : Int) : BitVec 32 :=
  BitVec.ofNat 32 (opcode * 2 ^ 26 + cond.val * 2 ^ 22 + (BitVec.ofInt 22 offset).toNat)

/-- An instruction word of format S (169). -/
def encodeS (opcode imm : Nat) : BitVec 32 := BitVec.ofNat 32 (opcode * 2 ^ 26 + imm % 2 ^ 26)

namespace Asm64

/-- The word of `nop`. -/
def nop : BitVec 32 := encodeS 0x3F 0

/-- The word of `call`. -/
def call (wordOff : Int) : BitVec 32 := encodeB 0x32 0 wordOff

/-- `to_bytes` (`isa.rs` 362-368). -/
def toBytes (words : List (BitVec 32)) : List UInt8 := words.flatMap fun w => leBytes 4 w.toNat

end Asm64

/-! ## The emitters -/

/-- `r as u32 & 0xF`. -/
def lane (r : Nat) : Register := ⟨r % 16, Nat.mod_lt _ (by decide)⟩

/-- `cond as u8`. -/
def Cond.code : Cond → Fin 16
  | .eq => 0
  | .ne => 1
  | .lt => 2
  | .ge => 3
  | .le => 4
  | .gt => 5
  | .ult => 6
  | .uge => 7
  | .ule => 8
  | .ugt => 9
  | .al => 15

/-- What eighteen bits hold (138). -/
def fitsImm18 (v : Int) : Prop := -2 ^ 17 ≤ v ∧ v < 2 ^ 17
  deriving Decidable

/-- An instruction as it is written: its name and its operands. An operand that it does not have is
zero, and a CALL has the condition `eq`. -/
inductive Operands where
  | r (name : String) (rd rs1 rs2 : Nat)
  | i (name : String) (rd rs1 : Nat) (imm : Int)
  | b (name : String) (cond : Cond) (offset : Int)
  | s (name : String) (imm : Nat)
  | access (name : String) (rd rs1 width : Nat)

/-- A call of an emitter of `Asm64` (`isa.rs` 302-356). -/
inductive Emit where
  | add (rd a b : Nat)
  | sub (rd a b : Nat)
  | and (rd a b : Nat)
  | or (rd a b : Nat)
  | xor (rd a b : Nat)
  | shl (rd a b : Nat)
  | shr (rd a b : Nat)
  | asr (rd a b : Nat)
  | cmp (a b : Nat)
  | mov (rd rs : Nat)
  | mul (rd a b : Nat)
  | addi (rd a : Nat) (i : Int)
  | subi (rd a : Nat) (i : Int)
  | cmpi (a : Nat) (i : Int)
  | movi (rd : Nat) (i : Int)
  | ld (rd base : Nat) (disp : Int)
  | ldb (rd base : Nat) (disp : Int)
  | stb (src base : Nat) (disp : Int)
  | st (src base : Nat) (disp : Int)
  | lea (rd base : Nat) (disp : Int)
  | xchg (rd base : Nat) (disp : Int)
  | pmov (d s : Nat)
  | padd (d s t : Nat)
  | pload (d s : Nat) (disp : Int)
  | pstore (d s : Nat) (disp : Int)
  | pread (d s width : Nat)
  | pwrite (d s width : Nat)
  | pframe (index : Nat)
  | plocal (d index : Nat)
  | punframe
  | bcc (cond : Cond) (wordOff : Int)
  | call (wordOff : Int)
  | ret
  | trap (v : UInt8)
  | eret
  | nop
  | halt

/-- What an emitter is asked for. -/
def Emit.operands : Emit → Operands
  | add rd a b => .r "add" rd a b
  | sub rd a b => .r "sub" rd a b
  | and rd a b => .r "and" rd a b
  | or rd a b => .r "or" rd a b
  | xor rd a b => .r "xor" rd a b
  | shl rd a b => .r "shl" rd a b
  | shr rd a b => .r "shr" rd a b
  | asr rd a b => .r "asr" rd a b
  | cmp a b => .r "cmp" 0 a b
  | mov rd rs => .r "mov" rd rs 0
  | mul rd a b => .r "mul" rd a b
  | addi rd a i => .i "addi" rd a i
  | subi rd a i => .i "subi" rd a i
  | cmpi a i => .i "cmpi" 0 a i
  | movi rd i => .i "movi" rd 0 i
  | ld rd base disp => .i "ld" rd base disp
  | ldb rd base disp => .i "ldb" rd base disp
  | stb src base disp => .i "stb" src base disp
  | st src base disp => .i "st" src base disp
  | lea rd base disp => .i "lea" rd base disp
  | xchg rd base disp => .i "xchg" rd base disp
  | pmov d s => .r "pmov" d s 0
  | padd d s t => .r "padd" d s t
  | pload d s disp => .i "pload" d s disp
  | pstore d s disp => .i "pstore" d s disp
  | pread d s width => .access "pread" d s width
  | pwrite d s width => .access "pwrite" d s width
  | pframe index => .s "pframe" index
  | plocal d index => .i "plocal" d 0 index
  | punframe => .s "punframe" 0
  | bcc cond wordOff => .b "b" cond wordOff
  | call wordOff => .b "call" .eq wordOff
  | ret => .s "ret" 0
  | trap v => .s "trap" v.toNat
  | eret => .s "eret" 0
  | nop => .s "nop" 0
  | halt => .s "halt" 0

section Words

variable {ε : Type}

/-- The opcode of a name; its row must have the emitter's format. -/
def named (name : String) (format : Format) : Res ε Nat :=
  match byName name with
  | some d => do
    check (d.format = format)
    return d.opcode
  | none => panic

/-- `emit_r_named`, `emit_i_named`, `emit_b_named` and `emit_s_named` (`isa.rs` 266-298). -/
def Operands.emit : Operands → Res ε (BitVec 32)
  | r name rd rs1 rs2 => do
    let opcode ← named name .r
    return encodeR opcode (lane rd) (lane rs1) (lane rs2)
  | i name rd rs1 imm => do
    check (fitsImm18 imm)
    let opcode ← named name .i
    return encodeI opcode (lane rd) (lane rs1) imm
  | b name cond offset => do
    let opcode ← named name .b
    return encodeB opcode cond.code offset
  | s name imm => do
    let opcode ← named name .s
    return encodeS opcode imm
  | access _ _ _ _ => panic

/-- A word that the decoder rejects panics (328). -/
def emitPointerWord (word : BitVec 32) : Res ε (BitVec 32) := do
  check ((decode word).isIllegal = false)
  return word

/-- The first register of a pair (332). -/
def assertPair (r : Nat) : Res ε Unit := check (r ≤ 10 ∧ r % 2 = 0)

/-- `pload` and `pstore`. -/
def pointerCell (opcode d s : Nat) (disp : Int) : Res ε (BitVec 32) := do
  assertPair d
  assertPair s
  check (fitsImm18 disp)
  emitPointerWord (encodeI opcode (lane d) (lane s) disp)

/-- A pointer access of one, two, four or eight bytes (337). -/
def pointerWidth (opcode d s width : Nat) : Res ε (BitVec 32) := do
  check (d ≤ 12)
  assertPair s
  check (width = 1 ∨ width = 2 ∨ width = 4 ∨ width = 8)
  emitPointerWord (encodeR opcode (lane d) (lane s) 0 ||| BitVec.ofNat 32 width.log2)

/-- The word an emitter appends. The pointer instructions have their opcodes written out; all others
are looked up by name. -/
def Emit.word : Emit → Res ε (BitVec 32)
  | pmov d s => do
    assertPair d
    assertPair s
    emitPointerWord (encodeR 0x26 (lane d) (lane s) 0)
  | padd d s t => do
    assertPair d
    assertPair s
    check (t ≤ 12)
    emitPointerWord (encodeR 0x27 (lane d) (lane s) (lane t))
  | pload d s disp => pointerCell 0x28 d s disp
  | pstore d s disp => pointerCell 0x29 d s disp
  | pread d s width => pointerWidth 0x2A d s width
  | pwrite d s width => pointerWidth 0x2B d s width
  | pframe index => do
    check (index < 2 ^ 26)
    emitPointerWord (encodeS 0x2C index)
  | plocal d index => do
    assertPair d
    check (index < 2 ^ 17)
    emitPointerWord (encodeI 0x2D (lane d) 0 index)
  | punframe => emitPointerWord (encodeS 0x2E 0)
  | e => e.operands.emit

example : Emit.nop.word = (ok Asm64.nop : Res ε _) := rfl

example (wordOff : Int) : (Emit.call wordOff).word = (ok (Asm64.call wordOff) : Res ε _) := rfl

end Words

/-- The decoded instruction is the one that was asked for: it has the name, and the operands are
those that were written. -/
def Operands.Decoded (insn : DecodedInsn) : Operands → Prop
  | r name rd rs1 rs2 => insn.desc.name = name ∧ insn.desc.format = .r ∧
      insn.rd.val = rd ∧ insn.rs1.val = rs1 ∧ insn.rs2.val = rs2
  | i name rd rs1 imm => insn.desc.name = name ∧ insn.desc.format = .i ∧
      insn.rd.val = rd ∧ insn.rs1.val = rs1 ∧ insn.imm = imm
  | b name cond offset => insn.desc.name = name ∧ insn.desc.format = .b ∧
      insn.cond = cond ∧ insn.imm = offset
  | s name imm => insn.desc.name = name ∧ insn.desc.format = .s ∧ insn.imm = imm
  | access name rd rs1 width => insn.desc.name = name ∧ insn.desc.format = .r ∧
      insn.rd.val = rd ∧ insn.rs1.val = rs1 ∧ 2 ^ (insn.raw.toNat % 4) = width

/-- The register numbers, the displacement and the vector fit their fields. -/
def Operands.Fit : Operands → Prop
  | r _ rd rs1 rs2 => rd < 16 ∧ rs1 < 16 ∧ rs2 < 16
  | i _ rd rs1 _ => rd < 16 ∧ rs1 < 16
  | b _ _ offset => -2 ^ 21 ≤ offset ∧ offset < 2 ^ 21
  | s _ imm => imm < 2 ^ 26
  | access _ _ _ _ => True

/-! ## What a word decodes to -/

section Decode

variable {word : BitVec 32} {d : InsnDesc} {name : String} {opcode : Nat}

theorem toNat_shiftRight (word : BitVec 32) (lo : Nat) :
    (word >>> lo).toNat = word.toNat / 2 ^ lo := by
  rw [BitVec.toNat_ushiftRight, Nat.shiftRight_eq_div_pow]

theorem registerField_val (word : BitVec 32) (lo : Nat) :
    (registerField word lo).val = word.toNat / 2 ^ lo % 16 :=
  congrArg (· % 16) (toNat_shiftRight word lo)

theorem byName_row (h : byName name = some d) :
    d.name = name ∧ byOpcode d.opcode = some d ∧ d.opcode < 64 := by
  have ht : ∀ d ∈ INSNS, byOpcode d.opcode = some d ∧ d.opcode < 64 := by decide
  exact ⟨by simpa using List.find?_some h, ht d (List.mem_of_find?_eq_some h)⟩

theorem named_eq_ok {ε : Type} {fo : Format} (h : named name fo = (ok opcode : Res ε _)) :
    ∃ d, byName name = some d ∧ d.format = fo ∧ d.opcode = opcode := by
  unfold named at h
  split at h
  · rename_i d hd
    simp only [eq_ok] at h
    exact ⟨d, hd, h⟩
  · cases h

theorem decode_of_opcode (h : byOpcode opcode = some d) (hw : word.toNat / 2 ^ 26 = opcode) :
    decode word = { desc := d, rd := registerField word 22, rs1 := registerField word 18
                    rs2 := registerField word 14, imm := (operandsOf word d.format).1
                    cond := (operandsOf word d.format).2, raw := word } := by
  rw [decode, toNat_shiftRight, hw, h]

theorem signExtend_eq_iff {bits : Nat} {v : Int} (hb : bits = 18 ∨ bits = 22)
    (h : word.toNat % 2 ^ bits = (BitVec.ofInt bits v).toNat) :
    signExtend word bits = v ↔ -2 ^ (bits - 1) ≤ v ∧ v < 2 ^ (bits - 1) := by
  have hf : word.setWidth bits = BitVec.ofInt bits v := by
    refine BitVec.eq_of_toNat_eq ?_
    rw [BitVec.toNat_setWidth, h]
  rw [signExtend, hf]
  constructor
  · intro heq
    rw [← heq]
    exact ⟨BitVec.le_toInt _, BitVec.toInt_lt⟩
  · rintro ⟨hl, hh⟩
    rcases hb with rfl | rfl <;> rw [BitVec.toInt_ofInt, Int.bmod_eq_of_le] <;> norm_num at * <;>
      omega

theorem toNat_encodeR (ho : opcode < 64) (rd rs1 rs2 : Register) :
    (encodeR opcode rd rs1 rs2).toNat =
      opcode * 2 ^ 26 + rd.val * 2 ^ 22 + rs1.val * 2 ^ 18 + rs2.val * 2 ^ 14 := by
  rw [encodeR, BitVec.toNat_ofNat, Nat.mod_eq_of_lt (by omega)]

variable (hd : byName name = some d)
include hd

theorem encodeR_decoded (hf : d.format = .r) (rd rs1 rs2 : Nat) :
    (Operands.r name rd rs1 rs2).Decoded
        (decode (encodeR d.opcode (lane rd) (lane rs1) (lane rs2))) ↔
      (Operands.r name rd rs1 rs2).Fit := by
  obtain ⟨hn, hr, ho⟩ := byName_row hd
  have hw := toNat_encodeR ho (lane rd) (lane rs1) (lane rs2)
  simp only [lane] at hw
  rw [decode_of_opcode hr (by simp only [lane]; omega)]
  simp only [Operands.Decoded, Operands.Fit, hn, hf, registerField_val, true_and, lane, hw]
  omega

theorem encodeI_decoded (hf : d.format = .i) (rd rs1 : Nat) {imm : Int} (hi : fitsImm18 imm) :
    (Operands.i name rd rs1 imm).Decoded (decode (encodeI d.opcode (lane rd) (lane rs1) imm)) ↔
      (Operands.i name rd rs1 imm).Fit := by
  obtain ⟨hn, hr, ho⟩ := byName_row hd
  have hfi := (BitVec.ofInt 18 imm).isLt
  have hw : (encodeI d.opcode (lane rd) (lane rs1) imm).toNat = d.opcode * 2 ^ 26 +
      rd % 16 * 2 ^ 22 + rs1 % 16 * 2 ^ 18 + (BitVec.ofInt 18 imm).toNat := by
    simp only [encodeI, lane, BitVec.toNat_ofNat]
    omega
  have hv : signExtend (encodeI d.opcode (lane rd) (lane rs1) imm) 18 = imm :=
    (signExtend_eq_iff (.inl rfl) (by omega)).mpr hi
  rw [decode_of_opcode hr (by omega)]
  simp only [Operands.Decoded, Operands.Fit, hn, hf, operandsOf, hv, registerField_val,
    hw, true_and, and_true]
  omega

theorem encodeB_decoded (hf : d.format = .b) (cond : Cond) (o : Int) :
    (Operands.b name cond o).Decoded (decode (encodeB d.opcode cond.code o)) ↔
      (Operands.b name cond o).Fit := by
  obtain ⟨hn, hr, ho⟩ := byName_row hd
  have hfi := (BitVec.ofInt 22 o).isLt
  have hw : (encodeB d.opcode cond.code o).toNat =
      d.opcode * 2 ^ 26 + cond.code.val * 2 ^ 22 + (BitVec.ofInt 22 o).toNat := by
    simp only [encodeB, BitVec.toNat_ofNat]
    omega
  have hc : Cond.fromU8 (registerField (encodeB d.opcode cond.code o) 22) = cond := by
    have hco : (registerField (encodeB d.opcode cond.code o) 22).val = cond.code.val := by
      rw [registerField_val, hw]
      omega
    rw [hco]
    cases cond <;> rfl
  rw [decode_of_opcode hr (by omega)]
  simp only [Operands.Decoded, Operands.Fit, hn, hf, operandsOf, hc, true_and]
  exact signExtend_eq_iff (.inr rfl) (by omega)

theorem encodeS_decoded (hf : d.format = .s) (imm : Nat) :
    (Operands.s name imm).Decoded (decode (encodeS d.opcode imm)) ↔ (Operands.s name imm).Fit := by
  obtain ⟨hn, hr, ho⟩ := byName_row hd
  have hw : (encodeS d.opcode imm).toNat = d.opcode * 2 ^ 26 + imm % 2 ^ 26 := by
    simp only [encodeS, BitVec.toNat_ofNat]
    omega
  rw [decode_of_opcode hr (by omega)]
  simp only [Operands.Decoded, Operands.Fit, hn, hf, operandsOf, BitVec.toNat_setWidth, hw,
    true_and, Nat.cast_inj]
  omega

theorem access_decoded (hf : d.format = .r) {rd rs1 width : Nat} (hrd : rd < 16)
    (hrs : rs1 < 16) (hwi : width = 1 ∨ width = 2 ∨ width = 4 ∨ width = 8) :
    (Operands.access name rd rs1 width).Decoded
      (decode (encodeR d.opcode (lane rd) (lane rs1) 0 ||| BitVec.ofNat 32 width.log2)) := by
  obtain ⟨hn, hr, ho⟩ := byName_row hd
  have hlo : width.log2 < 4 ∧ 2 ^ width.log2 = width := by
    rcases hwi with rfl | rfl | rfl | rfl <;> decide
  have hb := toNat_encodeR ho (lane rd) (lane rs1) 0
  have hw : (encodeR d.opcode (lane rd) (lane rs1) 0 ||| BitVec.ofNat 32 width.log2).toNat =
      d.opcode * 2 ^ 26 + rd * 2 ^ 22 + rs1 * 2 ^ 18 + width.log2 := by
    have hor := Nat.two_pow_add_eq_or_of_lt (show width.log2 < 2 ^ 14 by omega)
      (d.opcode * 2 ^ 12 + rd * 2 ^ 8 + rs1 * 2 ^ 4)
    have hl : 2 ^ 14 * (d.opcode * 2 ^ 12 + rd * 2 ^ 8 + rs1 * 2 ^ 4) =
        (encodeR d.opcode (lane rd) (lane rs1) 0).toNat := by
      rw [hb]
      simp only [lane, Fin.val_zero]
      omega
    rw [BitVec.toNat_or, BitVec.toNat_ofNat, Nat.mod_eq_of_lt (by omega), ← hl, ← hor]
    omega
  rw [decode_of_opcode hr (by omega)]
  refine ⟨hn, hf, ?_, ?_, ?_⟩
  · rw [registerField_val, hw]
    omega
  · rw [registerField_val, hw]
    omega
  · have hl : (d.opcode * 2 ^ 26 + rd * 2 ^ 22 + rs1 * 2 ^ 18 + width.log2) % 4 = width.log2 := by
      omega
    rw [hw, hl]
    exact hlo.2

omit hd in
theorem Operands.emit_decoded {ε : Type} {o : Operands} (h : o.emit = (ok word : Res ε _)) :
    o.Decoded (decode word) ↔ o.Fit := by
  cases o with
  | r name rd rs1 rs2 =>
    simp only [emit, eq_ok] at h
    obtain ⟨_, hn, rfl⟩ := h
    obtain ⟨d, hd, hf, rfl⟩ := named_eq_ok hn
    exact encodeR_decoded hd hf rd rs1 rs2
  | i name rd rs1 imm =>
    simp only [emit, eq_ok] at h
    obtain ⟨hi, _, hn, rfl⟩ := h
    obtain ⟨d, hd, hf, rfl⟩ := named_eq_ok hn
    exact encodeI_decoded hd hf rd rs1 hi
  | b name cond off =>
    simp only [emit, eq_ok] at h
    obtain ⟨_, hn, rfl⟩ := h
    obtain ⟨d, hd, hf, rfl⟩ := named_eq_ok hn
    exact encodeB_decoded hd hf cond off
  | s name imm =>
    simp only [emit, eq_ok] at h
    obtain ⟨_, hn, rfl⟩ := h
    obtain ⟨d, hd, hf, rfl⟩ := named_eq_ok hn
    exact encodeS_decoded hd hf imm
  | access => cases h

end Decode

/-- **Every emitter.** The word it appends decodes to the instruction of its name with the operands
it was given exactly when the operands fit their fields. -/
theorem emit_decodes_iff {ε : Type} {e : Emit} {word : BitVec 32}
    (h : e.word = (ok word : Res ε _)) : e.operands.Decoded (decode word) ↔ e.operands.Fit := by
  cases e with
  | pmov d s =>
    simp only [Emit.word, emitPointerWord, eq_ok] at h
    obtain ⟨-, -, -, rfl⟩ := h
    exact @encodeR_decoded _ "pmov" rfl rfl d s 0
  | padd d s t =>
    simp only [Emit.word, emitPointerWord, eq_ok] at h
    obtain ⟨-, -, -, -, rfl⟩ := h
    exact @encodeR_decoded _ "padd" rfl rfl d s t
  | pload d s disp =>
    simp only [Emit.word, pointerCell, emitPointerWord, eq_ok] at h
    obtain ⟨-, -, hdi, -, rfl⟩ := h
    exact @encodeI_decoded _ "pload" rfl rfl d s _ hdi
  | pstore d s disp =>
    simp only [Emit.word, pointerCell, emitPointerWord, eq_ok] at h
    obtain ⟨-, -, hdi, -, rfl⟩ := h
    exact @encodeI_decoded _ "pstore" rfl rfl d s _ hdi
  | pread d s width =>
    simp only [Emit.word, pointerWidth, assertPair, emitPointerWord, eq_ok] at h
    obtain ⟨hd, ⟨hs, -⟩, hw, -, rfl⟩ := h
    exact iff_of_true (@access_decoded _ "pread" rfl rfl _ _ _ (by omega) (by omega) hw) trivial
  | pwrite d s width =>
    simp only [Emit.word, pointerWidth, assertPair, emitPointerWord, eq_ok] at h
    obtain ⟨hd, ⟨hs, -⟩, hw, -, rfl⟩ := h
    exact iff_of_true (@access_decoded _ "pwrite" rfl rfl _ _ _ (by omega) (by omega) hw) trivial
  | pframe index =>
    simp only [Emit.word, emitPointerWord, eq_ok] at h
    obtain ⟨-, -, rfl⟩ := h
    exact @encodeS_decoded _ "pframe" rfl rfl index
  | plocal d index =>
    simp only [Emit.word, emitPointerWord, eq_ok] at h
    obtain ⟨-, hi, -, rfl⟩ := h
    exact @encodeI_decoded _ "plocal" rfl rfl d 0 _ ⟨by omega, by omega⟩
  | punframe =>
    simp only [Emit.word, emitPointerWord, eq_ok] at h
    obtain ⟨-, rfl⟩ := h
    exact @encodeS_decoded _ "punframe" rfl rfl 0
  | _ => exact Operands.emit_decoded h

/-- A branch to itself, and a pointer access of eight bytes. -/
theorem emit_decodes_iff_branch :
    (Emit.bcc .al 0).operands.Decoded (decode (encodeB 0x30 15 0)) ∧
      (Emit.pread 12 10 8).operands.Decoded (decode (encodeR 0x2A 12 10 0 ||| 3#32)) :=
  ⟨(emit_decodes_iff (e := .bcc .al 0) (ε := Empty) rfl).mpr ⟨by decide, by decide⟩,
    (emit_decodes_iff (e := .pread 12 10 8) (ε := Empty) (by decide)).mpr trivial⟩

/-- `mov r16, r1` is emitted as `mov r0, r1`, and a branch over 2²¹ words forwards as one backwards.
-/
theorem emit_truncates :
    (Emit.mov 16 1).word = (ok (encodeR 0x0A 0 1 0) : Res Empty _) ∧
      ¬ (Emit.mov 16 1).operands.Decoded (decode (encodeR 0x0A 0 1 0)) ∧
      (Emit.bcc .al (2 ^ 21)).word = (ok (encodeB 0x30 15 (-2 ^ 21)) : Res Empty _) ∧
      ¬ (Emit.bcc .al (2 ^ 21)).operands.Decoded (decode (encodeB 0x30 15 (-2 ^ 21))) := by
  refine ⟨by decide, fun h => ?_, by decide, fun h => ?_⟩
  · exact absurd h.2.2.1 (by decide)
  · exact absurd h.2.2.2 (by decide)

/-! ## CALL -/

theorem toNat_call (off : Int) :
    (Asm64.call off).toNat = 50 * 2 ^ 26 + (BitVec.ofInt 22 off).toNat := by
  have hl := (BitVec.ofInt 22 off).isLt
  have hc : Asm64.call off =
      BitVec.ofNat 32 (50 * 2 ^ 26 + 0 * 2 ^ 22 + (BitVec.ofInt 22 off).toNat) := rfl
  rw [hc, BitVec.toNat_ofNat, Nat.mod_eq_of_lt (by omega)]
  omega

variable {word : BitVec 32}

theorem byOpcode_of_call (h : word.toNat / 2 ^ 22 = 800) :
    byOpcode (word >>> 26).toNat = some ⟨"call", 0x32, .b, .call, .none⟩ := by
  have ho : (word >>> 26).toNat = 50 := by
    rw [BitVec.toNat_ushiftRight, Nat.shiftRight_eq_div_pow]
    omega
  rw [ho]
  rfl

theorem decode_of_call (h : word.toNat / 2 ^ 22 = 800) :
    (decode word).desc = ⟨"call", 0x32, .b, .call, .none⟩ ∧
      (decode word).imm = (word.setWidth 22).toInt := by
  unfold decode
  rw [byOpcode_of_call h]
  exact ⟨rfl, rfl⟩

theorem imm_call {off : Int} (hl : -2 ^ 21 ≤ off) (hh : off < 2 ^ 21) :
    (decode (Asm64.call off)).imm = off := by
  have hlt := (BitVec.ofInt 22 off).isLt
  have hw := toNat_call off
  have hf : (Asm64.call off).setWidth 22 = BitVec.ofInt 22 off := by
    refine BitVec.eq_of_toNat_eq ?_
    rw [BitVec.toNat_setWidth, hw]
    omega
  rw [(decode_of_call (by omega)).2, hf, BitVec.toInt_ofInt, Int.bmod_eq_of_le]
  all_goals norm_num
  all_goals omega

theorem call_imm (h : word.toNat / 2 ^ 22 = 800) : word = Asm64.call (decode word).imm := by
  refine BitVec.eq_of_toNat_eq ?_
  rw [toNat_call, (decode_of_call h).2, BitVec.ofInt_toInt, BitVec.toNat_setWidth]
  omega

/-! ## PFRAME -/

theorem decode_desc_mem (word : BitVec 32) :
    (decode word).desc ∈ INSNS ∨ (decode word).desc = ILLEGAL_DESC := by
  unfold decode
  split
  · rename_i d hd
    exact .inl (List.mem_of_find?_eq_some hd)
  · exact .inr rfl

theorem decode_desc_congr {word word' : BitVec 32}
    (h : word'.toNat / 2 ^ 26 = word.toNat / 2 ^ 26) :
    (decode word').desc = (decode word).desc := by
  have ho : (word' >>> 26).toNat = (word >>> 26).toNat := by
    rw [BitVec.toNat_ushiftRight, BitVec.toNat_ushiftRight, Nat.shiftRight_eq_div_pow,
      Nat.shiftRight_eq_div_pow, h]
  unfold decode
  rw [ho]
  split <;> rfl

theorem desc_pointerFrame (h : (decode word).desc.semantics = .pointerFrame) :
    (decode word).desc = ⟨"pframe", 0x2C, .s, .pointerFrame, .none⟩ := by
  have ht : ∀ d ∈ INSNS, d.semantics = .pointerFrame →
    d = ⟨"pframe", 0x2C, .s, .pointerFrame, .none⟩ := by
    decide
  rcases decode_desc_mem word with hm | hi
  · exact ht _ hm h
  · rw [hi] at h
    cases h

theorem imm_pointerFrame (h : (decode word).desc.semantics = .pointerFrame) :
    (decode word).imm = (word.toNat % 2 ^ 26 : Nat) := by
  have hde := desc_pointerFrame h
  unfold decode at hde ⊢
  split at hde
  · rename_i d hd
    obtain rfl : d = _ := hde
    simp [operandsOf, BitVec.toNat_setWidth]
  · simp [ILLEGAL_DESC] at hde

theorem isIllegal_of_control {insn : DecodedInsn} (ho : insn.desc.opcode ≠ 0xFF)
    (h : insn.desc.semantics = .pointerFrame ∨ insn.desc.semantics = .call) :
    insn.isIllegal = false := by
  unfold DecodedInsn.isIllegal
  rcases h with h | h <;> simp [h, ho]

end Anka
