import Anka.Core.Pointers

/-!
# The core: admission and pointer frames (`core.rs`)

A trusted loader admits a validated program for a sealed code object and a protected stack. PFRAME
then issues one local identity for each entry of the frame's manifest, PLOCAL looks one up, and
PUNFRAME retires the frame at one of its exits.

Left out: the host may refuse the vectors PFRAME reserves, which ends the instruction with
`Capacity` before anything changes.
-/

namespace Anka

open Rust Res

/-- The event image without its frames. -/
def SavedEventContext.dropFrames (saved : SavedEventContext) : SavedEventContext :=
  { saved with image := saved.image.map fun image => { image with frames := none } }

namespace Anka64Core

variable (c : Anka64Core)

variable (f : Fabric)

/-- `frame_current`: user mode, inside the admitted code, whose object is still the sealed one. -/
def frameCurrent : Res PointerMachineError FrameState := do
  let state ← okOr c.pointerFrames .contextMode
  require (c.privilege = .user ∧ state.context = c.contextId ∧ state.domain = c.domain ∧
    ((f.objects.get state.codeObject).any fun o =>
      decide (o.generation = state.codeGeneration) && decide (o.state = .sealed)) = true ∧
    ((checkedSub c.pc state.codeBase).any fun pc => decide (pc < state.program.code.length)) =
      true) (.frame .context)
  let mapped ← c.checkedPointerMapping c.pc 4
  let shifted ← plus state.codeOffset c.pc
  let offset ← minus shifted state.codeBase
  require (mapped = (state.codeObject, offset)) (.frame .context)
  return state

/-- The loop over the manifest of a frame: the request that registers one local. -/
def localRegistration (state : FrameState) (base offset : Nat) (storage : LocalStorage) :
    Res PointerMachineError Registration := do
  let address ← okOr (checkedAdd base storage.offset) (.frame .geometry)
  let (object, localOffset) ← c.checkedPointerMapping address storage.length
  require (object = state.stackObject ∧ checkedAdd offset storage.offset = some localOffset ∧
    (storage.pointerSlot = true → localOffset % 16 = 0)) (.frame .geometry)
  return {
    request := { c.makeRequest object localOffset .byte .read with length := storage.length }
    address, writable := storage.writable }

/-- The stack of the admitted program is still mapped, live and inside memory. -/
def checkStack (state : FrameState) (frame : FrameManifest) : Res PointerMachineError Unit := do
  let stackLen ← okOr ((checkedSub state.stackHigh state.stackLow).filter fun n => decide (0 < n))
    (.frame .geometry)
  require (state.stackLow % 16 = 0 ∧ state.stackHigh % 16 = 0 ∧ state.cursor % 16 = 0 ∧
    state.cursor ≤ state.stackHigh ∧ frame.size ≠ 0 ∧ frame.size % 16 = 0) (.frame .geometry)
  let mapped ← c.checkedPointerMapping state.stackLow stackLen
  require (mapped = (state.stackObject, state.stackOffset)) (.frame .geometry)
  require (((f.objects.get state.stackObject).any fun o =>
    decide (o.generation = state.stackGeneration) && o.state.isLive &&
      (checkedAdd state.stackOffset stackLen).any fun stop => decide (stop ≤ o.size)) = true)
    (.frame .geometry)
  let physical ← okOr (f.translate state.stackObject state.stackOffset) (.frame .geometry)
  require (physical % 16 = 0 ∧
    ((checkedAdd physical stackLen).any fun n => decide (n ≤ f.memory.length)) = true)
    (.frame .geometry)

/-- Opens the frame at an index of the manifest (520). -/
def enterPointerFrame (index : Nat) : Res PointerMachineError (Anka64Core × Fabric) := do
  let state ← c.frameCurrent f
  let frame ← okOr state.program.frames[index]? (.frame .manifest)
  require (state.pendingEntry = some c.pc ∧ c.pc = state.codeBase + frame.entry ∧
    (state.active.any fun a => a.callDepth == c.returnStack.length) = false) (.frame .control)
  c.checkStack f state frame
  let base ← okOr ((checkedSub state.cursor frame.size).filter fun n => decide (state.stackLow ≤ n))
    (.frame .capacity)
  let offset ← okOr (checkedAdd state.stackOffset (base - state.stackLow)) (.frame .geometry)
  let mapped ← c.checkedPointerMapping base frame.size
  require (mapped = (state.stackObject, offset)) (.frame .geometry)
  let whole := { c.makeRequest state.stackObject offset .byte .read with length := frame.size }
  let registrations ← frame.locals.mapM (c.localRegistration state base offset)
  let ((scope, locals), f) ← f.issuePointerFrame c.contextId whole base registrations
  let active : ActiveFrame :=
    { scope, manifest := index, callDepth := c.returnStack.length, parentCursor := state.cursor
      parentFp := c.r FP, returnLr := c.r LR, locals }
  let c := { c with pointerFrames := some { state with
    active := active :: state.active, cursor := base, pendingEntry := none } }
  return ((c.writeRegister SP base).writeRegister FP base, f)

/-- A pointer to a local of the open frame (570). -/
def lookupPointerLocal (dst : Register) (index : Nat) : Res PointerMachineError Anka64Core := do
  let _ ← pointerPairIndex dst
  let state ← c.frameCurrent f
  let frame ← okOr (state.active.head?.filter fun a => a.callDepth == c.returnStack.length)
    (.frame .control)
  let pointer ← okOr frame.locals[index]? (.frame .manifest)
  let _ ← f.scopedPointerBacking pointer c.domain
  c.installPointer dst (some pointer)

/-- Closes the open frame (579). -/
def leavePointerFrame : Res PointerMachineError (Anka64Core × Fabric) := do
  let state ← c.frameCurrent f
  match state.active with
  | [] => err (.frame .control)
  | frame :: rest => do
    require (frame.callDepth = c.returnStack.length) (.frame .control)
    let manifest ← unwrap state.program.frames[frame.manifest]?
    require (c.pc - state.codeBase ∈ manifest.exits) (.frame .control)
    let f ← f.retirePointerFrame frame.scope frame.locals
    let c := { c with
      pointerFrames := some { state with active := rest, cursor := frame.parentCursor } }
    return (((c.writeRegister SP frame.parentCursor).writeRegister FP frame.parentFp).writeRegister
      LR frame.returnLr, f)

/-- `let _ = fabric.retire_pointer_frame(..)`: a refusal is ignored. -/
def retireFrame (frame : ActiveFrame) : Res PointerMachineError Fabric :=
  match f.retirePointerFrame frame.scope frame.locals with
  | ok f => ok f
  | err _ => ok f
  | .panic => .panic

/-- `retire_all_pointer_frames`: the live frames, then those of the suspended events. -/
def retireAllPointerFrames : Res PointerMachineError (Anka64Core × Fabric) := do
  let suspended := c.savedEventContexts.filterMap fun saved => saved.image.bind (·.frames)
  let frames := (c.pointerFrames.toList ++ suspended).flatMap (·.active)
  let f ← frames.foldlM retireFrame f
  return ({ c with
    pointerFrames := none
    savedEventContexts := c.savedEventContexts.map SavedEventContext.dropFrames }, f)

/-- `admit_pointer_program`. The mapping of the code ends inside `u64`, so the last branch is never
taken. -/
def admitPointerProgram (program : ValidatedPointerProgram) (codeBase stackLow stackHigh : Nat) :
    Res PointerMachineError (Anka64Core × Fabric) := do
  let length := program.code.length
  require (c.pointerFrames.isNone = true ∧ c.eventFrames = [] ∧ c.returnStack = [] ∧
    c.privilege = .user ∧ stackLow < stackHigh ∧ stackLow % 16 = 0 ∧ stackHigh % 16 = 0)
    (.frame .geometry)
  let (object, offset) ← c.checkedPointerMapping codeBase length
  let obj ← okOr (f.objects.get object) (.frame .geometry)
  require (obj.state = .sealed) (.frame .geometry)
  let physical ← okOr (f.translate object offset) (.frame .geometry)
  require (((checkedAdd physical length).any fun n => decide (n ≤ f.memory.length)) = true ∧
    slice f.memory physical length = program.code) (.frame .geometry)
  let (stackObject, stackOffset) ← c.checkedPointerMapping stackLow (stackHigh - stackLow)
  let stack ← okOr (f.objects.get stackObject) (.frame .geometry)
  let (_, codeOffset) ← c.checkedPointerMapping codeBase 4
  let _ ← mapErr (f.authorize (c.makeRequest object codeOffset .word .fetch)) fun _ =>
    .frame .geometry
  let f ← mapErr (f.protectPointerStack stackObject c.contextId c.domain) fun _ => .frame .context
  let c ← c.enableProtectedContext
  if h : codeBase + length ≤ u64Max then
    let state : FrameState :=
      { program, context := c.contextId, domain := c.domain, codeObject := object
        codeGeneration := obj.generation, codeOffset := offset, codeBase, stackLow, stackHigh
        stackObject, stackGeneration := stack.generation, stackOffset, cursor := stackHigh
        pendingEntry := some codeBase, active := [], code_le := h }
    return ({ c with pointerFrames := some state }.writeRegister SP stackHigh, f)
  else panic

end Anka64Core

end Anka
