import Anka.Core.Frames

/-!
# The core: one instruction cycle (`core.rs`)

`step` fetches a word through the Fabric, decodes it and dispatches on its meaning. `Continue` and
`Halted` are values, `Fault` is the error: a fault leaves the core as it was, while its transaction
may have left a trace in the Fabric.

Bare additions on `u64` and `i64` are checked, as everywhere in this development.
-/

namespace Anka

open Rust Res

/-- `StepResult`, the fault apart. -/
inductive StepResult where
  | «continue»
  | halted

/-- The instructions that name memory by integers: a protected program may not use them. -/
def Sem.isMemory : Sem → Bool
  | .load | .store | .loadByte | .storeByte | .xchg => true
  | _ => false

/-- The low two bits of a pointer access. -/
def accessWidth (raw : BitVec 32) : Width :=
  match (raw &&& 3#32).toNat with
  | 0 => .byte
  | 1 => .half
  | 2 => .word
  | _ => .double

/-- `uN::from_le_bytes` of the first bytes of a result. -/
def wordOf {ε : Type} (bytes : List UInt8) (n : Nat) : Res ε Nat := do
  check (n ≤ bytes.length)
  return ofLeBytes (bytes.take n)

/-- The result of an ALU operation (1248). -/
def aluEval (op : AluOp) (a b : Nat) : Nat :=
  let x := BitVec.ofNat 64 a
  let y := BitVec.ofNat 64 b
  BitVec.toNat <| match op with
    | .add => x + y
    | .sub => x - y
    | .and => x &&& y
    | .or => x ||| y
    | .xor => x ^^^ y
    | .shl => x <<< (b % 64)
    | .shr => x >>> (b % 64)
    | .asr => x.sshiftRight (b % 64)
    | .mul => x * y

/-- `update_flags`. -/
def Flags.update (flags : Flags) (effect : FlagEffect) (a b result : Nat) : Flags :=
  let x := BitVec.ofNat 64 a
  let y := BitVec.ofNat 64 b
  let z := BitVec.ofNat 64 result
  match effect with
  | .arith =>
    { z := result == 0, n := z.msb, c := decide (result < a)
      v := (~~~(x ^^^ y) &&& (x ^^^ z)).msb }
  | .sub =>
    { z := result == 0, n := z.msb, c := decide (b ≤ a), v := ((x ^^^ y) &&& (x ^^^ z)).msb }
  | .logic => { z := result == 0, n := z.msb, c := false, v := false }
  | .none => flags

namespace Anka64Core

variable (c : Anka64Core)

/-! ## Faults -/

variable (f : Fabric) (addr : Nat) (width : Width)

/-- A fault the core raises itself. -/
def faultRecord (object : ObjectId) (generation : Option Generation) (offset : Nat) (width : Width)
    (kind : AccessKind) (reason : FaultReason) : FaultRecord :=
  { agent := c.agent, domain := c.domain, privilege := c.privilege, transaction := ⟨0⟩, object
    generation, offset, width, length := width.bytes, kind, pc := some c.pc, reason }

/-- The fault that reports a pointer error (610). -/
def pointerFault : PointerMachineError → FaultRecord
  | .fabric fault => fault
  | _ => c.faultRecord ⟨0⟩ none c.pc .word .fetch .controlFlowViolation

/-! ## Integer memory -/

/-- The object and offset behind an integer address, or a translation fault. -/
def resolveOrFault (kind : AccessKind) : Res (FaultRecord × Fabric) MemoryRequest := do
  let resolved ← AddressMap.resolve addr c.addressMap
  let (object, offset) ← okOr resolved (c.faultRecord ⟨0⟩ none addr width kind .translationFault, f)
  return c.makeRequest object offset width kind

/-- A read at a virtual address (1319). -/
def fabricRead (kind : AccessKind) : Res (FaultRecord × Fabric) (List UInt8 × Fabric) := do
  let request ← c.resolveOrFault f addr width kind
  f.executeRead request

/-- A write at a virtual address (1345). -/
def fabricWrite (data : List UInt8) : Res (FaultRecord × Fabric) Fabric := do
  let request ← c.resolveOrFault f addr width .write
  f.executeWrite request data

/-- An exchange at a virtual address (1371). -/
def fabricAtomicXchg (newValue : List UInt8) :
    Res (FaultRecord × Fabric) (List UInt8 × Fabric) := do
  let request ← c.resolveOrFault f addr width .atomic
  f.executeAtomicXchg request newValue

/-- One entry of the byte search: two entries that hold the address are an ambiguity. -/
def byteEntry (selected : Option (ObjectId × Nat)) (e : AddressMapEntry) :
    Option (Option (ObjectId × Nat)) :=
  match (checkedSub addr e.virtBase).filter fun relative => decide (relative < e.size) with
  | none => some selected
  | some relative =>
    if selected.isSome = true then none
    else (checkedAdd e.objOffset relative).map fun offset => some (e.object, offset)

/-- `byte_request`: only the operand byte, without wrapping. -/
def byteRequest (base : Nat) (displacement : Int) (kind : AccessKind) :
    Res (FaultRecord × Fabric) MemoryRequest := do
  let address := checkedAddSigned base displacement
  let resolved := address.bind fun addr => (c.addressMap.foldlM (byteEntry addr) none).join
  let (object, offset) ← okOr resolved
    (c.faultRecord ⟨0⟩ none (address.getD base) .byte kind .translationFault, f)
  return c.makeRequest object offset .byte kind

/-- The five instructions that name memory by integers. -/
def memoryInsn (insn : DecodedInsn) : Res (FaultRecord × Fabric) (Anka64Core × Fabric) :=
  let addr := wrappingAdd (c.r insn.rs1) (asU64 insn.imm)
  match insn.desc.semantics with
  | .load => do
    let (bytes, f) ← c.fabricRead f addr .double .read
    let value ← wordOf bytes 8
    return (c.writeRegister insn.rd value, f)
  | .store => do
    let f ← c.fabricWrite f addr .double (leBytes 8 (c.r insn.rd))
    return (c, f)
  | .loadByte => do
    let request ← c.byteRequest f (c.r insn.rs1) insn.imm .read
    let (bytes, f) ← f.executeRead request
    let value ← wordOf bytes 1
    return (c.writeRegister insn.rd value, f)
  | .storeByte => do
    let request ← c.byteRequest f (c.r insn.rs1) insn.imm .write
    let f ← f.executeWrite request (leBytes 1 (c.r insn.rd))
    return (c, f)
  | _ => do
    let (bytes, f) ← c.fabricAtomicXchg f addr .double (leBytes 8 (c.r insn.rd))
    let value ← wordOf bytes 8
    return (c.writeRegister insn.rd value, f)

/-! ## Pointer instructions -/

/-- The dispatch of the nine pointer instructions. -/
def pointerInsn (insn : DecodedInsn) :
    Res (PointerMachineError × Fabric) (Anka64Core × Fabric) := do
  let _ ← keeping f (c.frameCurrent f)
  match insn.desc.semantics with
  | .pointerMove => do
    let c ← keeping f (c.pointerMove f insn.rd insn.rs1)
    return (c, f)
  | .pointerAdd => do
    let c ← keeping f (c.pointerAdd f insn.rd insn.rs1 (asI64 (c.r insn.rs2)))
    return (c, f)
  | .pointerLoad => c.pointerLoadIndirect f insn.rd insn.rs1 insn.imm
  | .pointerStore => do
    let f ← c.pointerStoreIndirect f insn.rd insn.rs1 insn.imm
    return (c, f)
  | .pointerRead => do
    let (bytes, f) ← c.pointerRead f insn.rs1 (accessWidth insn.raw)
    check (bytes.length ≤ 8)
    return (c.writeRegister insn.rd (ofLeBytes bytes), f)
  | .pointerWrite => do
    let width := accessWidth insn.raw
    let f ← c.pointerWrite f insn.rs1 width (leBytes width.bytes (c.r insn.rd))
    return (c, f)
  | .pointerFrame => keeping f (c.enterPointerFrame f insn.imm.toNat)
  | .pointerLocal => do
    let c ← keeping f (c.lookupPointerLocal f insn.rd insn.imm.toNat)
    return (c, f)
  | _ => keeping f (c.leavePointerFrame f)

/-! ## Control flow -/

/-- `(self.pc as i64 + insn.imm * 4) as u64`. -/
def branchTarget {ε : Type} (c : Anka64Core) (imm : Int) : Res ε Nat := do
  let target := asI64 c.pc + imm * 4
  check (-2 ^ 63 ≤ target ∧ target < 2 ^ 63)
  return asU64 target

/-- A fault at the instruction itself. -/
def controlFault (object : ObjectId) : FaultRecord :=
  c.faultRecord object none c.pc .word .fetch .controlFlowViolation

/-- CALL inside a protected program must reach the entry of a frame. -/
def callsEntry (imm : Int) : Bool :=
  c.pointerFrames.all fun state => state.program.frames.any fun frame =>
    decide (((state.codeBase + frame.entry : Nat) : Int) = c.pc + imm * 4)

/-- CALL: mint and transfer, or fault with nothing changed. -/
def callInsn (imm : Int) : Res (FaultRecord × Fabric) (Anka64Core × Nat) := do
  require (c.callsEntry imm = true) (c.pointerFault (.frame .control), f)
  let returnAddr ← plus c.pc 4
  let resolved ← AddressMap.resolve c.pc c.addressMap
  let (codeObject, _) ← okOr resolved (c.controlFault ⟨0⟩, f)
  let obj ← okOr (f.objects.get codeObject) (c.controlFault codeObject, f)
  let c := c.writeRegister LR returnAddr
  let c := { c with returnStack :=
    { codeObject, generation := obj.generation, target := returnAddr } :: c.returnStack }
  let next ← c.branchTarget imm
  return ({ c with pointerFrames := c.pointerFrames.map fun state =>
    { state with pendingEntry := some next } }, next)

/-- The fault of a RET whose authority does not match. -/
def returnFault (auth : ReturnAuthority) : FaultRecord :=
  c.faultRecord auth.codeObject (some auth.generation) (c.r LR) .word .fetch .controlFlowViolation

/-- RET: peek, validate, then pop. -/
def retInsn : Res (FaultRecord × Fabric) (Anka64Core × Nat) := do
  require ((c.pointerFrames.any fun s =>
    s.active.any fun a => a.callDepth == c.returnStack.length) = false)
    (c.pointerFault (.frame .control), f)
  match c.returnStack with
  | [] => err (c.faultRecord ⟨0⟩ none (c.r LR) .word .fetch .controlFlowViolation, f)
  | auth :: rest => do
    require (c.r LR = auth.target) (c.returnFault auth, f)
    require (((f.objects.get auth.codeObject).any fun obj =>
      decide (obj.generation = auth.generation)) = true) (c.returnFault auth, f)
    return ({ c with returnStack := rest }, auth.target)

/-- TRAP: the event frame returns to the next instruction. -/
def trapInsn (next : Nat) : Anka64Core :=
  c.enterEvent { returnPc := next, returnPrivilege := c.privilege
                 interruptsWereEnabled := c.interruptsEnabled, cause := .syscall }

/-! ## Scalar instructions -/

/-- `alu_operand_b` and `cmp_operand_b`: the second register, or the immediate. -/
def operandB (insn : DecodedInsn) : Nat :=
  match insn.desc.format with
  | .r => c.r insn.rs2
  | _ => asU64 insn.imm

/-- An ALU instruction: the result and its flags. -/
def aluInsn (op : AluOp) (insn : DecodedInsn) : Anka64Core :=
  let a := c.r insn.rs1
  let b := c.operandB insn
  let result := aluEval op a b
  { c.writeRegister insn.rd result with flags := c.flags.update insn.desc.flags a b result }

/-- A comparison: the flags of a subtraction. -/
def cmpInsn (insn : DecodedInsn) : Anka64Core :=
  let a := c.r insn.rs1
  let b := c.operandB insn
  { c with flags := c.flags.update insn.desc.flags a b (aluEval .sub a b) }

/-! ## The cycle -/

/-- `self.pc = next_pc`, and `Continue`. -/
def proceed {ε : Type} (c : Anka64Core) (f : Fabric) (next : Nat) :
    Res ε (StepResult × Anka64Core × Fabric) :=
  ok (.continue, { c with pc := next }, f)

/-- Fetch and decode. -/
def fetch (f : Fabric) : Res (FaultRecord × Fabric) (DecodedInsn × Fabric) := do
  require (c.pc % 4 = 0) (c.faultRecord ⟨0⟩ none c.pc .word .fetch .alignmentFault, f)
  let (bytes, f) ← c.fabricRead f c.pc .word .fetch
  let word ← wordOf bytes 4
  let insn := decode (BitVec.ofNat 32 word)
  require (insn.isIllegal = false) (c.faultRecord ⟨0⟩ none c.pc .word .fetch .illegalInstruction, f)
  return (insn, f)

/-- Dispatch on the meaning of an instruction. -/
def execute (insn : DecodedInsn) :
    Res (FaultRecord × Fabric) (StepResult × Anka64Core × Fabric) := do
  let next ← plus c.pc 4
  require (¬ (c.pointerFrames.isSome = true ∧ insn.desc.semantics.isMemory = true))
    (c.pointerFault .contextMode, f)
  match insn.desc.semantics with
  | .alu op => proceed (c.aluInsn op insn) f next
  | .cmp => proceed (c.cmpInsn insn) f next
  | .mov => proceed (c.writeRegister insn.rd (c.r insn.rs1)) f next
  | .movi => proceed (c.writeRegister insn.rd (asU64 insn.imm)) f next
  | .lea => proceed (c.writeRegister insn.rd (wrappingAdd (c.r insn.rs1) (asU64 insn.imm))) f next
  | .load | .store | .loadByte | .storeByte | .xchg => do
    let (c, f) ← c.memoryInsn f insn
    proceed c f next
  | .branch => do
    let next ← if c.flags.test insn.cond = true then c.branchTarget insn.imm else ok next
    proceed c f next
  | .call => do
    let (c, next) ← c.callInsn f insn.imm
    proceed c f next
  | .ret => do
    let (c, next) ← c.retInsn f
    proceed c f next
  | .trap => proceed (c.trapInsn next) f c.trapVector
  | .eret => do
    let c ← okOr c.eventReturn (c.controlFault ⟨0⟩, f)
    proceed c f c.pc
  | .nop => proceed c f next
  | .halt => return (.halted, { c with halted := true }, f)
  | _ => do
    let (c, f) ← mapErr (c.pointerInsn f insn) fun e => (c.pointerFault e.1, e.2)
    proceed c f next

/-- One instruction (905). -/
def step : Res (FaultRecord × Fabric) (StepResult × Anka64Core × Fabric) :=
  if c.halted = true then ok (.halted, c, f)
  else do
    let (insn, f) ← c.fetch f
    c.execute f insn

end Anka64Core

end Anka
