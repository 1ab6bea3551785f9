import Anka.Fabric.Transactions

/-!
# The Fabric: protected pointer cells and local pointers (`fabric.rs`)

A protected cell is sixteen bytes that hold a pointer's two words and, beside them, a tag in
`pointer_cells` under the object, its generation and the offset. `store_pointer_cell` writes both,
`load_pointer_cell` returns the pointer only when both agree. The byte writers of the other modules
remove tags and never add one.

`PointerMachineError` is the error of the pointer instructions, which the Fabric shares with the
core.
-/

namespace Anka

open Rust Res

/-- Why a manifest or a frame is rejected. -/
inductive FrameError where
  | geometry
  | manifest
  | context
  | control
  | capacity
  deriving DecidableEq

/-- Why a pointer operation fails. -/
inductive PointerMachineError where
  | invalidPair
  | missingKind
  | unmapped
  | unaligned
  | frame (e : FrameError)
  | contextMode
  | pointer (e : PointerError)
  | heap (e : HeapError)
  | fabric (fault : FaultRecord)

/-- The sixteen bytes of a pointer's words, or of null. -/
def pointerBytes : Option ScopedPointer → List UInt8
  | some p => leBytes 8 p.words.1 ++ leBytes 8 p.words.2
  | none => leBytes 8 0 ++ leBytes 8 0

@[simp] theorem length_pointerBytes (p : Option ScopedPointer) : (pointerBytes p).length = 16 := by
  cases p <;> simp [pointerBytes]

namespace Fabric

variable (f : Fabric)

/-! ## Protected stacks and local registration -/

/-- `protect_pointer_stack`: no other domain, and no domain without a CPU, may hold authority. -/
def protectPointerStack (object : ObjectId) (owner : Nat) (domain : DomainId) :
    Res Unit Fabric := do
  require ((f.pointerStackObjects.get object).all (fun b => b == (owner, domain)) = true) ()
  require ((f.domains.any fun _ d => d.id != domain &&
    d.capabilities.any fun e => e.cap.object == object) = false) ()
  require ((f.agents.any fun _ a => !a.kind.isCpu &&
    (f.domains.get a.domain).any fun d => d.capabilities.any fun e => e.cap.object == object) =
      false) ()
  require ((f.domains.any fun _ d => d.capabilities.any fun e => e.cap.object == object &&
    !f.agents.any fun _ a => a.domain == d.id && a.kind.isCpu) = false) ()
  return { f with pointerStackObjects := f.pointerStackObjects.insert object (owner, domain) }

/-- The fault that reports a cell (fabric.rs 1563). -/
def pointerCellFault (request : MemoryRequest) (reason : FaultReason) : FaultRecord :=
  { agent := request.context.agent
    domain := request.context.domain
    privilege := request.context.privilege
    transaction := ⟨0⟩
    object := request.object
    generation := (f.objects.get request.object).map (·.generation)
    offset := request.offset
    width := request.width
    length := request.length
    kind := request.kind
    pc := none
    reason }

/-- `checked_local_backing`: READ, and WRITE when writable, over a span that fits memory. -/
def checkedLocalBacking (request : MemoryRequest) (writable : Bool) :
    Res PointerMachineError PointerBacking := do
  require (request.length ≠ 0) (.pointer .invalidRange)
  let reading := { request with kind := .read }
  let generation ← mapErr (f.authorize reading) fun reason =>
    .fabric (f.pointerCellFault reading reason)
  let writing := { request with kind := .write }
  let _ ← mapErr (if writable = true then f.authorize writing else ok generation) fun reason =>
    .fabric (f.pointerCellFault writing reason)
  let phys ← okOr (f.translate request.object request.offset) .unmapped
  let stop ← okOr (checkedAdd phys request.length) .unmapped
  require (stop ≤ f.memory.length) .unmapped
  return { object := request.object, generation, offset := request.offset }

/-- A local's pointer, in a scope (fabric.rs 1432). -/
def registerScopedPointer (scope : Scope) (request : MemoryRequest) (address : Nat)
    (writable : Bool) : Res PointerMachineError (ScopedPointer × Fabric) := do
  let backing ← f.checkedLocalBacking request writable
  let (pointer, s) ← mapErr (f.scopedPointers.register scope request.context.domain.raw address
    request.length writable) .pointer
  let s ← s.bindBacking pointer backing
  return (pointer, { f with scopedPointers := s })

/-- The tags inside the backing of one retiring local go with it. -/
def retireLocal (pointer : ScopedPointer) : Fabric :=
  let length := ((f.scopedPointers.storageSpan pointer).map (·.2)).getD 0
  let taken := f.scopedPointers.takeBacking pointer
  match taken.1 with
  | none => { f with scopedPointers := taken.2 }
  | some b => { f with
      scopedPointers := taken.2
      pointerCells := f.pointerCells.retain fun key _ =>
        !(key.object == b.object && key.generation == b.generation &&
          decide (b.offset ≤ key.offset) && decide (key.offset - b.offset < length)) }

/-- Ends a scope and forgets the cells of its locals (fabric.rs 1416). -/
def retirePointerFrame (scope : Scope) (locals : List ScopedPointer) :
    Res PointerMachineError Fabric := do
  let s ← mapErr (f.scopedPointers.leaveScope scope) .pointer
  return locals.foldl retireLocal { f with scopedPointers := s }

/-- `scoped_pointer_backing`: a live local pointer of the domain over a live object. -/
def scopedPointerBacking (pointer : ScopedPointer) (domain : DomainId) :
    Res PointerMachineError (ObjectId × Nat) := do
  let _ ← mapErr (f.scopedPointers.transport pointer domain.raw) .pointer
  let b ← okOr (f.scopedPointers.backing pointer) .missingKind
  require (((f.objects.get b.object).any fun o =>
    decide (o.generation = b.generation) && o.state.isLive) = true) (.pointer .stale)
  let offset ← okOr (checkedAdd b.offset pointer.words.2) .unmapped
  return (b.object, offset)

/-! ## Cells -/

/-- `checked_pointer_cell`: kind, size and alignment, under the object's current generation. -/
def checkedPointerCell (request : MemoryRequest) (kind : AccessKind) :
    Res FaultRecord CellKey := do
  require (request.kind = kind ∧ request.length = 16 ∧ request.offset % 16 = 0)
    (f.pointerCellFault request .invalidSpan)
  let object ← okOr (f.objects.get request.object) (f.pointerCellFault request .invalidObject)
  return { object := request.object, generation := object.generation, offset := request.offset }

/-- `self.pointer_cells.insert(key, pointer)`. -/
def tagCell (key : CellKey) (pointer : ScopedPointer) : Fabric :=
  { f with
    pointerCells := f.pointerCells.insert key pointer
    history := .stored key pointer (f.placement.get key.object) :: f.history }

/-- A pointer that is stored must be a live local of the requesting domain; null needs nothing. -/
def checkStored (request : MemoryRequest) : Option ScopedPointer → Res FaultRecord Unit
  | none => ok ()
  | some pointer => do
    let _ ← mapErr (f.scopedPointerBacking pointer request.context.domain) fun _ =>
      f.pointerCellFault request .noCapability
    return ()

/-- Stores a pointer, or null, in a cell (fabric.rs 1525). -/
def storePointerCell (request : MemoryRequest) (pointer : Option ScopedPointer) :
    Res (FaultRecord × Fabric) Fabric := do
  mapErr (f.checkStored request pointer) fun fault => (fault, f)
  let key ← mapErr (f.checkedPointerCell request .write) fun fault => (fault, f)
  let f ← f.executeWrite request (pointerBytes pointer)
  match pointer with
  | some pointer => ok (f.tagCell key pointer)
  | none => ok f

/-- The pointer a cell's bytes and tag agree on; null when neither is there. -/
def cellPointer (key : CellKey) (bytes : List UInt8) : Option (Option ScopedPointer) :=
  match f.pointerCells.get key with
  | some pointer => if bytes = pointerBytes (some pointer) then some (some pointer) else none
  | none => if bytes.all (· == 0) = true then some none else none

/-- The pointer in a cell (fabric.rs 1540). -/
def loadPointerCell (request : MemoryRequest) :
    Res (FaultRecord × Fabric) (Option ScopedPointer × Fabric) := do
  let key ← mapErr (f.checkedPointerCell request .read) fun fault => (fault, f)
  let (bytes, f) ← f.executeRead request
  let pointer ← okOr (f.cellPointer key bytes) (f.pointerCellFault request .noCapability, f)
  return (pointer, f)

end Fabric

end Anka
