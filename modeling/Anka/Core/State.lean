import Anka.Fabric.Step
import Anka.Isa

/-!
# The core: state, registers and events (`core.rs`, `core/heap.rs`, `pointer_frames.rs`)

A core holds the register file with the kinds of its six register pairs, the program counter and
flags, the protected return stack, and the stack of events it is inside of. Every event pushes a
public header (`event_frames`) and a private context (`saved_event_contexts`); in a protected
context the latter holds the complete register image, kinds, flags and return stack included.

The stacks are lists with the top first. `u64` values are natural numbers, as in the Fabric.

`ValidatedPointerProgram` carries the fact about its manifests that execution relies on, and
`FrameState` the one admission adds, so no entry address overflows. The validator is in
`Core/Validator`. The parser of linked manifests and the diagnostics are left out, and so is the
counter that numbers contexts: a core is created under a number of its own.
-/

namespace Anka

open Rust Res

/-! ## Frame manifests -/

/-- A local of a frame. -/
structure LocalStorage where
  offset : Nat
  length : Nat
  alignment : Nat
  writable : Bool
  pointerSlot : Bool
  deriving DecidableEq

/-- A frame of the manifest. -/
structure FrameManifest where
  entry : Nat
  stop : Nat
  size : Nat
  exits : List Nat
  locals : List LocalStorage
  deriving DecidableEq

/-- Code with its frame manifests; every entry is inside the code. -/
structure ValidatedPointerProgram where
  code : List UInt8
  frames : List FrameManifest
  entry_lt : ∀ frame ∈ frames, frame.entry < code.length
  deriving DecidableEq

/-- A frame that PFRAME entered and PUNFRAME has not left. -/
structure ActiveFrame where
  scope : Scope
  manifest : Nat
  callDepth : Nat
  parentCursor : Nat
  parentFp : Nat
  returnLr : Nat
  locals : List ScopedPointer

/-- The admitted program of a context and its frames; the mapped code ends inside `u64`. -/
structure FrameState where
  program : ValidatedPointerProgram
  context : Nat
  domain : DomainId
  codeObject : ObjectId
  codeGeneration : Generation
  codeOffset : Nat
  codeBase : Nat
  stackLow : Nat
  stackHigh : Nat
  stackObject : ObjectId
  stackGeneration : Generation
  stackOffset : Nat
  cursor : Nat
  pendingEntry : Option Nat
  active : List ActiveFrame
  code_le : codeBase + program.code.length ≤ u64Max

/-! ## Control state -/

/-- Protected return authority minted by CALL. -/
structure ReturnAuthority where
  codeObject : ObjectId
  generation : Generation
  target : Nat

/-- Why a handler runs. -/
inductive EventCause where
  | syscall
  | timerInterrupt
  | deviceInterrupt
  deriving DecidableEq

/-- The public header of an event. -/
structure EventFrame where
  returnPc : Nat
  returnPrivilege : Privilege
  interruptsWereEnabled : Bool
  cause : EventCause
  deriving DecidableEq

/-- The condition flags. -/
structure Flags where
  z : Bool := false
  n : Bool := false
  c : Bool := false
  v : Bool := false

/-- The condition holds (core.rs 144). -/
def Flags.test (f : Flags) : Cond → Bool
  | .eq => f.z
  | .ne => !f.z
  | .lt => f.n != f.v
  | .ge => f.n == f.v
  | .le => f.z || f.n != f.v
  | .gt => !f.z && f.n == f.v
  | .ult => !f.c
  | .uge => f.c
  | .ule => !f.c || f.z
  | .ugt => f.c && !f.z
  | .al => true

/-- The sixteen register words. -/
abbrev Words := Register → Nat

/-- The kinds of the six register pairs. -/
abbrev Kinds := Fin 6 → Option ScopedPointer

/-- What an event saves of a core. -/
structure EventRegisterImage where
  words : Words
  kinds : Kinds
  flags : Flags
  returnStack : List ReturnAuthority
  halted : Bool
  frames : Option FrameState

/-- The image with the reply in its first pair, and for `malloc` the status in its second. -/
def EventRegisterImage.withReply (image : EventRegisterImage) (pointer : Option ScopedPointer)
    (status : Nat) (malloc : Bool) : EventRegisterImage :=
  let words := (pointer.map (·.words)).getD (0, 0)
  let image := { image with
    words := Function.update (Function.update image.words 0 words.1) 1 words.2
    kinds := Function.update image.kinds 0 pointer }
  if malloc = true then
    { image with
      words := Function.update (Function.update image.words 2 status) 3 0
      kinds := Function.update image.kinds 1 none }
  else image

/-- The private part of an event; `scalar_results` are the explicit results of a syscall. -/
structure SavedEventContext where
  eventId : Nat
  resultConsumed : Bool
  header : EventFrame
  contextId : Nat
  domain : DomainId
  image : Option EventRegisterImage
  scalarResults : Fin 13 → Option Nat

/-- A mapped span of addresses. -/
structure AddressMapEntry where
  virtBase : Nat
  size : Nat
  object : ObjectId
  objOffset : Nat

/-- The interrupts that wait. -/
structure PendingSet where
  timer : Bool
  device : Bool

/-- Which source is served next. -/
inductive InterruptTurn where
  | timer
  | device

/-- The state of a core. -/
structure Anka64Core where
  heapOwner : Option AllocationOwner
  nextEventId : Nat
  contextId : Nat
  protectedContextEnabled : Bool
  savedEventContexts : List SavedEventContext
  pointerPairs : Kinds
  pointerFrames : Option FrameState
  r : Words
  pc : Nat
  flags : Flags
  agent : AgentId
  domain : DomainId
  privilege : Privilege
  addressMap : List AddressMapEntry
  halted : Bool
  trapVector : Nat
  eventFrames : List EventFrame
  interruptsEnabled : Bool
  pending : PendingSet
  interruptTurn : InterruptTurn
  returnStack : List ReturnAuthority

/-- A one-use permission to answer the allocation syscall of one event. -/
structure HeapEventPermit where
  owner : AllocationOwner
  event : Nat
  number : Nat
  deriving DecidableEq

namespace Anka64Core

variable (c : Anka64Core)

/-- `new`, under the context number it is given. -/
def new (contextId : Nat) (agent : AgentId) (domain : DomainId) : Anka64Core :=
  { heapOwner := none
    nextEventId := 1
    contextId
    protectedContextEnabled := false
    savedEventContexts := []
    pointerPairs := fun _ => none
    pointerFrames := none
    r := fun _ => 0
    pc := 0
    flags := {}
    agent
    domain
    privilege := .user
    addressMap := []
    halted := false
    trapVector := 0
    eventFrames := []
    interruptsEnabled := true
    pending := { timer := false, device := false }
    interruptTurn := .timer
    returnStack := [] }

/-! ## Registers -/

/-- The pair a register below 12 belongs to. -/
def pairOf (register : Register) (h : register.val < 12) : Fin 6 := ⟨register.val / 2, by omega⟩

/-- `write_register`: an ordinary write takes the kind of the pair, whatever the value. -/
def writeRegister (register : Register) (value : Nat) : Anka64Core :=
  { c with
    pointerPairs := if h : register.val < 12 then
      Function.update c.pointerPairs (pairOf register h) none else c.pointerPairs
    r := Function.update c.r register value }

/-- `enable_protected_context`: never in the middle of an unprotected event. -/
def enableProtectedContext : Res PointerMachineError Anka64Core := do
  require (c.protectedContextEnabled = true ∨ c.eventFrames = []) .contextMode
  return { c with protectedContextEnabled := true }

/-! ## Events -/

/-- `enter_event`: a protected context moves its complete image aside. -/
def enterEvent (header : EventFrame) : Anka64Core :=
  let image : EventRegisterImage :=
    { words := c.r, kinds := c.pointerPairs, flags := c.flags, returnStack := c.returnStack
      halted := c.halted, frames := c.pointerFrames }
  let saved : SavedEventContext :=
    { eventId := c.nextEventId, resultConsumed := false, header, contextId := c.contextId
      domain := c.domain, image := if c.protectedContextEnabled = true then some image else none
      scalarResults := fun _ => none }
  { c with
    returnStack := if c.protectedContextEnabled = true then [] else c.returnStack
    pointerFrames := if c.protectedContextEnabled = true then none else c.pointerFrames
    nextEventId := if c.nextEventId = 0 then 0 else (checkedAdd c.nextEventId 1).getD 0
    savedEventContexts := saved :: c.savedEventContexts
    eventFrames := header :: c.eventFrames
    pointerPairs := fun _ => none
    privilege := .supervisor
    interruptsEnabled := false }

/-- The explicit results of a syscall are ordinary register writes. -/
def writeResults (results : Fin 13 → Option Nat) : Anka64Core :=
  (List.finRange 13).foldl
    (fun c i => match results i with
      | some value => c.writeRegister (i.castLE lanes_le) value
      | none => c) c

/-- The image of a protected context, and the results of its syscall over it. -/
def restoreImage (image : EventRegisterImage) (cause : EventCause) (results : Fin 13 → Option Nat) :
    Anka64Core :=
  let c := { c with
    r := image.words, pointerPairs := image.kinds, flags := image.flags
    returnStack := image.returnStack, pointerFrames := image.frames, halted := image.halted }
  if cause = .syscall then c.writeResults results else c

/-- A pointer frame is active. -/
def inPointerFrame : Bool := c.pointerFrames.any fun s => !s.active.isEmpty

/-- `event_return`: peek, validate, consume. A rejection changes nothing. -/
def eventReturn : Option Anka64Core :=
  match c.eventFrames, c.savedEventContexts with
  | header :: frames, saved :: rest =>
    if frames.length = rest.length ∧ saved.contextId = c.contextId ∧ saved.domain = c.domain ∧
        saved.header = header ∧ c.protectedContextEnabled = saved.image.isSome ∧
        c.inPointerFrame = false then
      let c := { c with savedEventContexts := rest, eventFrames := frames }
      let c := match saved.image with
        | some image => c.restoreImage image header.cause saved.scalarResults
        | none => c
      some { c with
        privilege := header.returnPrivilege
        interruptsEnabled := header.interruptsWereEnabled
        pc := header.returnPc }
    else none
  | _, _ => none

/-- The timer asks for service (core.rs 824). -/
def postTimerInterrupt : Anka64Core :=
  { c with pending := { c.pending with timer := true } }

/-- A device asks for service (core.rs 831). -/
def postDeviceInterrupt : Anka64Core :=
  { c with pending := { c.pending with device := true } }

/-- The arbiter: a lone source is served, a tie goes by turn and flips it. -/
def arbitrate : Option (EventCause × PendingSet × InterruptTurn) :=
  match c.pending.timer, c.pending.device with
  | false, false => none
  | true, false => some (.timerInterrupt, { c.pending with timer := false }, c.interruptTurn)
  | false, true => some (.deviceInterrupt, { c.pending with device := false }, c.interruptTurn)
  | true, true =>
    match c.interruptTurn with
    | .timer => some (.timerInterrupt, { c.pending with timer := false }, .device)
    | .device => some (.deviceInterrupt, { c.pending with device := false }, .timer)

/-- `deliver_pending`: at most one source, only when interrupts are enabled. -/
def deliverPending : Bool × Anka64Core :=
  if c.interruptsEnabled = false then (false, c)
  else match c.arbitrate with
    | none => (false, c)
    | some (cause, pending, interruptTurn) =>
      let c := { c with pending, interruptTurn }
      let c := c.enterEvent
        { returnPc := c.pc, returnPrivilege := c.privilege
          interruptsWereEnabled := c.interruptsEnabled, cause }
      (true, { c with privilege := .supervisor, interruptsEnabled := false, pc := c.trapVector })

/-! ## Syscall results and heap replies -/

/-- `write_syscall_result`: also recorded for the return of an open syscall. -/
def writeSyscallResult (register : Register) (value : Nat) : Anka64Core :=
  let c := c.writeRegister register value
  if h : register.val ≤ 12 then
    if c.privilege = .supervisor then
      match c.savedEventContexts with
      | saved :: rest =>
        if saved.contextId = c.contextId ∧ saved.domain = c.domain ∧
            saved.header.cause = .syscall ∧ saved.image.isSome = true ∧
            saved.resultConsumed = false then
          { c with savedEventContexts := { saved with
              scalarResults := Function.update saved.scalarResults
                ⟨register.val, Register.lane_lt h⟩
                (some value) } :: rest }
        else c
      | [] => c
    else c
  else c

/-- `protected_syscall_image`: the context and image of an intact protected syscall. -/
def protectedSyscallImage : Option (SavedEventContext × EventRegisterImage) :=
  match c.eventFrames, c.savedEventContexts with
  | header :: frames, saved :: rest =>
    if c.privilege = .supervisor ∧ c.protectedContextEnabled = true ∧
        frames.length = rest.length ∧ saved.contextId = c.contextId ∧ saved.domain = c.domain ∧
        saved.header = header ∧ header.cause = .syscall ∧ c.inPointerFrame = false then
      saved.image.map fun image => (saved, image)
    else none
  | _, _ => none

/-- Names the process whose heap the core uses (heap.rs 16). -/
def bindHeapProcess (key : ProcessKey) : Anka64Core :=
  { c with heapOwner := some { process := key, context := c.contextId, domain := c.domain } }

/-- `heap_owner()`: the bound owner, if it is this context's. -/
def currentHeapOwner : Res HeapError AllocationOwner :=
  okOr (c.heapOwner.filter fun o => o.context == c.contextId && o.domain == c.domain) .owner

/-- What a heap call needs of a saved event (heap.rs 28). -/
def prepareHeapEvent (owner : AllocationOwner) : Res HeapError HeapEventPermit := do
  let (saved, image) ← okOr c.protectedSyscallImage .owner
  let current ← c.currentHeapOwner
  require (current = owner ∧ saved.eventId ≠ 0 ∧ saved.resultConsumed = false ∧
    (∀ i, saved.scalarResults i = none) ∧ (image.words 0 = 21 ∨ image.words 0 = 22)) .owner
  return { owner, event := saved.eventId, number := image.words 0 }

/-- The permit is still the one of the event (heap.rs 48). -/
def validHeapEvent (permit : HeapEventPermit) (owner : AllocationOwner) : Bool :=
  (c.prepareHeapEvent owner).isOkAnd fun p => p == permit

/-- `commit_heap_event`: the reply of one event, once. -/
def commitHeapEvent {ε : Type} (c : Anka64Core) (permit : HeapEventPermit)
    (pointer : Option ScopedPointer) (status : Nat) (malloc : Bool) : Res ε Anka64Core := do
  check (c.validHeapEvent permit permit.owner = true)
  check (permit.number = if malloc = true then 21 else 22)
  check (malloc = true ∨ pointer = none)
  match c.savedEventContexts with
  | [] => panic
  | saved :: rest =>
    let image ← unwrap saved.image
    return { c with savedEventContexts := { saved with
        image := some (image.withReply pointer status malloc)
        resultConsumed := true } :: rest }

end Anka64Core

end Anka
