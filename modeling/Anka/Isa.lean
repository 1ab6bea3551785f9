import Anka.Lib.Res

/-!
# The instruction set (`desc.rs`, `isa.rs`)

The description table and the decoder. A word is a `BitVec 32`; its register fields are `Fin 16`,
its immediate an `Int`. `decode` never fails: an opcode that is not in the table, and a pointer
instruction whose reserved lanes are not zero or whose pairs are not pairs, is illegal
(`DecodedInsn.isIllegal`), and the core faults on it before it does anything.

Left out: operand patterns and memory effects, which only the disassembler and the theory generator
read.
-/

namespace Anka

/-! ## The description table -/

/-- The formats of a word. -/
inductive Format where
  | r
  | i
  | b
  | s
  deriving DecidableEq

/-- The ALU operations. -/
inductive AluOp where
  | add
  | sub
  | and
  | or
  | xor
  | shl
  | shr
  | asr
  | mul
  deriving DecidableEq

/-- Which flags an instruction sets. -/
inductive FlagEffect where
  | arith
  | sub
  | logic
  | none
  deriving DecidableEq

/-- What an instruction does architecturally. -/
inductive Sem where
  | pointerMove
  | pointerAdd
  | pointerLoad
  | pointerStore
  | pointerRead
  | pointerWrite
  | pointerFrame
  | pointerLocal
  | pointerUnframe
  | alu (op : AluOp)
  | cmp
  | mov
  | movi
  | load
  | loadByte
  | store
  | storeByte
  | xchg
  | lea
  | branch
  | call
  | ret
  | trap
  | eret
  | nop
  | halt
  deriving DecidableEq

/-- A row of the table. -/
structure InsnDesc where
  name : String
  opcode : Nat
  format : Format
  semantics : Sem
  flags : FlagEffect
  deriving DecidableEq

/-- `INSNS` (`desc.rs` 163-215). -/
def INSNS : List InsnDesc :=
  [ ⟨"add", 0x01, .r, .alu .add, .arith⟩
  , ⟨"sub", 0x02, .r, .alu .sub, .sub⟩
  , ⟨"and", 0x03, .r, .alu .and, .logic⟩
  , ⟨"or", 0x04, .r, .alu .or, .logic⟩
  , ⟨"xor", 0x05, .r, .alu .xor, .logic⟩
  , ⟨"shl", 0x06, .r, .alu .shl, .logic⟩
  , ⟨"shr", 0x07, .r, .alu .shr, .logic⟩
  , ⟨"asr", 0x08, .r, .alu .asr, .logic⟩
  , ⟨"mul", 0x0B, .r, .alu .mul, .logic⟩
  , ⟨"cmp", 0x09, .r, .cmp, .sub⟩
  , ⟨"mov", 0x0A, .r, .mov, .none⟩
  , ⟨"addi", 0x10, .i, .alu .add, .arith⟩
  , ⟨"subi", 0x11, .i, .alu .sub, .sub⟩
  , ⟨"andi", 0x12, .i, .alu .and, .logic⟩
  , ⟨"ori", 0x13, .i, .alu .or, .logic⟩
  , ⟨"xori", 0x14, .i, .alu .xor, .logic⟩
  , ⟨"cmpi", 0x15, .i, .cmp, .sub⟩
  , ⟨"movi", 0x16, .i, .movi, .none⟩
  , ⟨"ld", 0x20, .i, .load, .none⟩
  , ⟨"st", 0x21, .i, .store, .none⟩
  , ⟨"lea", 0x22, .i, .lea, .none⟩
  , ⟨"xchg", 0x23, .i, .xchg, .none⟩
  , ⟨"ldb", 0x24, .i, .loadByte, .none⟩
  , ⟨"stb", 0x25, .i, .storeByte, .none⟩
  , ⟨"pmov", 0x26, .r, .pointerMove, .none⟩
  , ⟨"padd", 0x27, .r, .pointerAdd, .none⟩
  , ⟨"pload", 0x28, .i, .pointerLoad, .none⟩
  , ⟨"pstore", 0x29, .i, .pointerStore, .none⟩
  , ⟨"pread", 0x2A, .r, .pointerRead, .none⟩
  , ⟨"pwrite", 0x2B, .r, .pointerWrite, .none⟩
  , ⟨"pframe", 0x2C, .s, .pointerFrame, .none⟩
  , ⟨"plocal", 0x2D, .i, .pointerLocal, .none⟩
  , ⟨"punframe", 0x2E, .s, .pointerUnframe, .none⟩
  , ⟨"b", 0x30, .b, .branch, .none⟩
  , ⟨"call", 0x32, .b, .call, .none⟩
  , ⟨"ret", 0x38, .s, .ret, .none⟩
  , ⟨"trap", 0x39, .s, .trap, .none⟩
  , ⟨"eret", 0x3A, .s, .eret, .none⟩
  , ⟨"nop", 0x3F, .s, .nop, .none⟩
  , ⟨"halt", 0x3E, .s, .halt, .none⟩ ]

/-- `by_opcode` (`desc.rs` 221). -/
def byOpcode (opcode : Nat) : Option InsnDesc := INSNS.find? fun d => d.opcode == opcode

/-- `by_name` (`desc.rs` 225). -/
def byName (name : String) : Option InsnDesc := INSNS.find? fun d => d.name == name

/-! ## Register conventions and conditions -/

/-- A register number. -/
abbrev Register := Fin 16

instance Register.neZero : NeZero (16 : Nat) := ⟨by decide⟩

/-- There are six pointer pairs. -/
instance Register.neZeroPairs : NeZero (6 : Nat) := ⟨by decide⟩

theorem lanes_le : 13 ≤ 16 := by decide

theorem Register.lane_lt {r : Register} (h : r.val ≤ 12) : r.val < 13 :=
  Nat.lt_succ_of_le h

/-- isa.rs 30. -/
def FP : Register := 13
/-- isa.rs 31. -/
def LR : Register := 14
/-- isa.rs 32. -/
def SP : Register := 15

/-- The conditions of a branch. -/
inductive Cond where
  | eq
  | ne
  | lt
  | ge
  | le
  | gt
  | ult
  | uge
  | ule
  | ugt
  | al
  deriving DecidableEq

/-- `Cond::from_u8`: an unassigned code is unconditional. -/
def Cond.fromU8 (v : Nat) : Cond :=
  match v with
  | 0 => .eq
  | 1 => .ne
  | 2 => .lt
  | 3 => .ge
  | 4 => .le
  | 5 => .gt
  | 6 => .ult
  | 7 => .uge
  | 8 => .ule
  | 9 => .ugt
  | _ => .al

/-! ## The decoder -/

/-- An instruction word, taken apart. -/
structure DecodedInsn where
  desc : InsnDesc
  rd : Register
  rs1 : Register
  rs2 : Register
  imm : Int
  cond : Cond
  raw : BitVec 32
  deriving DecidableEq

/-- `ILLEGAL_DESC`: the sentinel for an unknown opcode. -/
def ILLEGAL_DESC : InsnDesc :=
  { name := "???", opcode := 0xFF, format := .s, semantics := .halt, flags := .none }

/-- A register that starts a pair. -/
def Register.isPair (v : Register) : Bool := decide (v.val ≤ 10) && v.val % 2 == 0

/-- The words that fault (isa.rs 111). -/
def DecodedInsn.isIllegal (insn : DecodedInsn) : Bool :=
  let func := (insn.raw &&& 0x3fff#32).toNat
  insn.desc.opcode == 0xFF ||
    match insn.desc.semantics with
    | .pointerMove => !insn.rd.isPair || !insn.rs1.isPair || insn.rs2 != 0 || func != 0
    | .pointerAdd => !insn.rd.isPair || !insn.rs1.isPair || decide (12 < insn.rs2.val) || func != 0
    | .pointerLoad | .pointerStore => !insn.rd.isPair || !insn.rs1.isPair
    | .pointerRead | .pointerWrite =>
      decide (12 < insn.rd.val) || !insn.rs1.isPair || insn.rs2 != 0 || decide (3 < func)
    | .pointerLocal => !insn.rd.isPair || insn.rs1 != 0 || decide (insn.imm < 0)
    | .pointerUnframe => insn.raw &&& 0x3ffffff#32 != 0
    | _ => false

/-- The four bits at `lo`. -/
def registerField (word : BitVec 32) (lo : Nat) : Register :=
  ⟨(word >>> lo).toNat % 16, Nat.mod_lt _ (by decide)⟩

/-- `sign_extend` of the low bits of a word. -/
def signExtend (word : BitVec 32) (bits : Nat) : Int := (word.setWidth bits).toInt

/-- The immediate and the condition of a format. -/
def operandsOf (word : BitVec 32) : Format → Int × Cond
  | .r => (0, .al)
  | .i => (signExtend word 18, .al)
  | .b => (signExtend word 22, Cond.fromU8 (registerField word 22))
  | .s => ((word.setWidth 26).toNat, .al)

/-- The instruction of a word (isa.rs 182). -/
def decode (word : BitVec 32) : DecodedInsn :=
  match byOpcode (word >>> 26).toNat with
  | some d =>
    { desc := d
      rd := registerField word 22
      rs1 := registerField word 18
      rs2 := registerField word 14
      imm := (operandsOf word d.format).1
      cond := (operandsOf word d.format).2
      raw := word }
  | none =>
    { desc := ILLEGAL_DESC, rd := 0, rs1 := 0, rs2 := 0, imm := 0, cond := .al, raw := word }

end Anka
