import Anka.Fabric.LocalFrames

/-!
# The Fabric: private heap storage (`fabric/heap.rs`, `heap/cells.rs`, `heap/application.rs`)

A heap lifetime that the registry has reserved is attached to a private row: an object identity that
never enters the object table or the placement map, the two extents, and one tag per sixteen bytes
of the dedicated pool. Live access authenticates the pointer in the registry, the row behind it, and
that nothing legacy reaches into the pool (`heap_pool_is_private`).

A range of bytes together with the range of tags that covers it is a `HeapSpan`.
-/

namespace Anka

open Rust Res

/-- Two extents that share an address. -/
def Extent.meets (a b : Extent) : Bool :=
  decide (a.base < b.base + b.size) && decide (b.base < a.base + a.size)

namespace HeapFabric

variable {ε : Type} (h : HeapFabric)

/-- Replaces one row (heap.rs 125). -/
def setRow (slot : Nat) (row : PrivateHeapRow) : Res ε HeapFabric := do
  check (slot < h.rows.length)
  return { h with rows := h.rows.set slot (some row), rowsEnd := max h.rowsEnd (slot + 1) }

/-- `remove_row`: the search bound shrinks past empty rows. -/
def removeRow (slot : Nat) : Res ε HeapFabric := do
  check (slot < h.rows.length)
  let rows := h.rows.set slot none
  return { h with rows, rowsEnd := trimEnd (fun i => rows[i]?.any Option.isNone) h.rowsEnd }

/-- `shadow_index`: the tag of an aligned cell of the pool. -/
def shadowIndex (physical : Nat) : Option Nat :=
  (checkedSub physical h.pool.base).bind fun offset =>
    if physical % 16 = 0 ∧ (checkedAdd offset 16).any (fun stop =>
        decide (stop ≤ h.pool.size)) = true ∧
        offset / 16 < h.shadow.length
    then some (offset / 16) else none

/-- `check_extents` and `check_layout`. -/
def checkExtents (e : HeapExtents) : Res HeapError Unit :=
  require (h.pool.base ≤ e.physical.base ∧
    e.physical.endAddr.any (fun stop => decide (stop ≤ h.endAddr)) = true ∧
    h.virtualWindow.base ≤ e.virtualExtent.base ∧
    e.virtualExtent.endAddr.any (fun stop =>
      decide (stop ≤ h.virtualWindow.base + h.virtualWindow.size)) = true ∧
    (h.shadowIndex e.physical.base).isSome = true ∧
    ((e.physical.endAddr.bind fun stop => checkedSub stop 16).bind h.shadowIndex).isSome = true)
    .configuration

/-- `check_plan`: an empty row, the layout, and a census of the rows already held. -/
def checkPlan (plan : HeapAttachmentPlan) : Res HeapError Unit := do
  let row ← okOr h.rows[plan.reservation.slot]? .configuration
  require (row = none) .busy
  h.checkExtents plan.extents
  let held := h.rows.filterMap id
  check ((held.all fun r => r.extents.physical.endAddr.isSome &&
    r.extents.virtualExtent.endAddr.isSome) = true)
  require ((held.any fun r => plan.extents.physical.meets r.extents.physical ||
    r.owner == plan.owner && plan.extents.virtualExtent.meets
      r.extents.virtualExtent) = false) .busy

end HeapFabric

/-- The bytes `[start, stop)` and the tags `[first, past)` that cover them. -/
structure HeapSpan where
  start : Nat
  stop : Nat
  first : Nat
  past : Nat

/-- `LiveHeap`: an authenticated pointer and its row. -/
structure LiveHeap where
  pointer : HeapPointerPlan
  row : PrivateHeapRow

namespace Fabric

variable (f : Fabric)

/-! ## Attachment -/

/-- `heap_pool_is_private`: no placement, no transaction in flight and no cell reaches the pool. -/
def heapPoolIsPrivate : Bool :=
  !(f.placement.any fun id base =>
      (f.objects.get id).all fun object => f.heapPoolOverlaps base object.size) &&
    !(f.transactions.any fun tx => !tx.state.isTerminal &&
      (f.privateHeapObject tx.request.object ||
        tx.physicalAddress.any fun p => f.heapPoolOverlaps p tx.request.length)) &&
    !(f.pointerCells.any fun key _ => (f.cellAddress key).all fun base =>
      f.heapPoolOverlaps base 16)

/-- `attach_private_heap`: the row takes the next object identity, and the floor follows it. -/
def attachPrivateHeap (reservation : HeapReservation) (currentOwner : AllocationOwner)
    (expectedRevision : Nat) : Res HeapError (ObjectId × Fabric) := do
  require ((f.domains.get currentOwner.domain).isSome = true) .owner
  let plan ← f.scopedPointers.prepareHeapAttachment reservation currentOwner expectedRevision
  let heap ← okOr f.privateHeap .configuration
  heap.checkPlan plan
  require (f.heapPoolIsPrivate = true) .busy
  let object ← okOr f.nextFreshObjectId (.capacity .identity)
  let next ← okOr (checkedAdd object.raw 1) (.capacity .identity)
  let row : PrivateHeapRow :=
    { reservation := plan.reservation, owner := plan.owner, object, objectGeneration := ⟨0⟩
      logical := plan.logical, extents := plan.extents, plannedRights := .RW
      initializedBytes := 0, initializationVersion := 0 }
  let scopedPointers ← f.scopedPointers.commitHeapAttachment plan
  let heap ← heap.setRow plan.reservation.slot row
  return (object, { f with
    scopedPointers, privateHeap := some { heap with objectIdFloor := next }, nextObjectId := next })

/-! ## Live access -/

/-- A registered CPU agent of the domain. -/
def cpuAgentOf (agent : AgentId) (domain : DomainId) : Bool :=
  (f.agents.get agent).any fun a => a.domain == domain && a.kind.isCpu

/-- The live allocation of a pointer (cells.rs 39). -/
def checkedLiveHeap (owner : AllocationOwner) (agent : AgentId) (pointer : ScopedPointer) :
    Res HeapError LiveHeap := do
  require ((f.domains.get owner.domain).isSome = true ∧
    f.cpuAgentOf agent owner.domain = true) .owner
  let plan ← f.scopedPointers.prepareHeapPointer pointer owner
  let heap ← okOr f.privateHeap .configuration
  let row ← okOr heap.rows[plan.reservation.slot]?.join .staleReservation
  require (row.reservation = plan.reservation ∧ row.owner = plan.owner ∧
    row.logical = plan.logical ∧ row.extents = plan.extents ∧ row.objectGeneration = ⟨0⟩ ∧
    row.object.raw < heap.objectIdFloor) .staleReservation
  require (row.plannedRights = heapRights plan.writable) (.pointer .rights)
  require (row.initializedBytes = row.extents.physical.size ∧ row.initializationVersion ≠ 0) .busy
  heap.checkExtents row.extents
  let stop ← okOr row.extents.physical.endAddr .configuration
  require (stop ≤ f.memory.length) .configuration
  require ((f.objects.get row.object).isNone = true ∧ (f.placement.get row.object).isNone = true ∧
    f.heapPoolIsPrivate = true) .busy
  return { pointer := plan, row }

/-- `checked_heap_backing_span`: indexing only, after the caller's own authentication. -/
def checkedHeapBackingSpan (logical : Nat) (extents : HeapExtents) (offset length : Nat)
    (cell : Bool) : Res HeapError HeapSpan := do
  require (length ≠ 0 ∧ length ≤ 4096 ∧ offset ≤ logical ∧ length ≤ logical - offset)
    (.pointer .bounds)
  require (cell = true → length = 16 ∧ offset % 16 = 0) .size
  let start ← okOr (checkedAdd extents.physical.base offset) .size
  let stop ← okOr (checkedAdd start length) .size
  require (stop ≤ f.memory.length) .configuration
  let heap ← okOr f.privateHeap .configuration
  let first ← okOr (heap.shadowIndex (start / 16 * 16)) .configuration
  let last ← okOr (heap.shadowIndex ((stop - 1) / 16 * 16)) .configuration
  require (last + 1 ≤ heap.shadow.length ∧ first ≤ last + 1) .configuration
  return { start, stop, first, past := last + 1 }

/-- The span of an access through a pointer (cells.rs 95). -/
def checkedHeapSpan (live : LiveHeap) (length : Nat) (cell : Bool) : Res HeapError HeapSpan :=
  f.checkedHeapBackingSpan live.row.logical live.row.extents live.pointer.position length cell

/-- The bytes of a span and the tags over it change together; `private_heap` is there by then. -/
def writeHeap {ε : Type} (f : Fabric) (span : HeapSpan) (data : List UInt8)
    (tags : List (Option ScopedPointer) → List (Option ScopedPointer)) : Res ε Fabric := do
  check (data.length = span.stop - span.start)
  let heap ← unwrap f.privateHeap
  let f := f.writeMemory span.start data
  return { f with privateHeap := some { heap with shadow := tags heap.shadow } }

/-- `shadow[first..past].fill(None)`. -/
def untag (span : HeapSpan) (shadow : List (Option ScopedPointer)) : List (Option ScopedPointer) :=
  overwrite shadow span.first (List.replicate (span.past - span.first) none)

/-! ## Heap cells -/

/-- `read_span` of the registry, for the empty span a stored token is checked with. -/
def localInScope (pointer : ScopedPointer) (owner : AllocationOwner) :
    Res PointerError Unit := do
  let a ← f.scopedPointers.allocation pointer owner.domain.raw
  require (f.scopedPointers.scopeOwner a.scope = some owner.context) .invalidScope
  require (pointer.position ≤ a.length) .bounds
  let _ ← okOr (checkedAdd a.base pointer.position) .bounds
  return ()

/-- `authorize_pointer_output` for an empty range: a READ grant that covers the point. -/
def authorizePointerPoint (agent : AgentId) (domain : DomainId) (object : ObjectId) (offset : Nat) :
    Bool :=
  f.cpuAgentOf agent domain && !f.foreignStack object domain &&
    (f.objects.get object).any (fun obj => decide (offset ≤ obj.size)) &&
    (f.domains.get domain).any fun d => d.capabilities.any fun e =>
      e.cap.object == object && f.validate e.cap &&
        e.cap.permissions.contains AccessKind.read.requiredPermission &&
        decide (e.cap.offset ≤ offset) && decide (offset - e.cap.offset ≤ e.cap.length)

/-- `authenticate_heap_cell_source`: a live heap pointer, or a live local one. -/
def authenticateHeapCellSource (owner : AllocationOwner) (agent : AgentId)
    (pointer : ScopedPointer) : Res HeapError Unit :=
  if f.scopedPointers.isHeapPointer pointer = true then do
    let _ ← f.checkedLiveHeap owner agent pointer
    return ()
  else do
    mapErr (f.localInScope pointer owner) .pointer
    let (object, offset) ← mapErr (f.scopedPointerBacking pointer owner.domain) fun _ =>
      .pointer .stale
    require (f.authorizePointerPoint agent owner.domain object offset = true) (.pointer .rights)

/-- A pointer stored into a heap cell is authenticated; null is not. -/
def authenticateStored (owner : AllocationOwner) (agent : AgentId) :
    Option ScopedPointer → Res HeapError Unit
  | none => ok ()
  | some pointer => f.authenticateHeapCellSource owner agent pointer

/-- Stores a pointer in a heap cell (cells.rs 181). -/
def storeHeapPointerCell (owner : AllocationOwner) (agent : AgentId) (destination : ScopedPointer)
    (source : Option ScopedPointer) : Res HeapError Fabric := do
  let live ← f.checkedLiveHeap owner agent destination
  require (live.row.plannedRights = .RW) (.pointer .rights)
  let span ← f.checkedHeapSpan live 16 true
  f.authenticateStored owner agent source
  f.writeHeap span (pointerBytes source) fun shadow => shadow.set span.first source

/-- `load_heap_pointer_cell`: nothing changes. -/
def loadHeapPointerCell (owner : AllocationOwner) (agent : AgentId) (sourceCell : ScopedPointer) :
    Res HeapError (Option ScopedPointer) := do
  let live ← f.checkedLiveHeap owner agent sourceCell
  let span ← f.checkedHeapSpan live 16 true
  let heap ← unwrap f.privateHeap
  let pointer ← unwrap heap.shadow[span.first]?
  require (slice f.memory span.start (span.stop - span.start) = pointerBytes pointer) .missingKind
  f.authenticateStored owner agent pointer
  return pointer

/-- `write_heap_bytes`: every overlapping tag goes, whatever the bytes. -/
def writeHeapBytes (owner : AllocationOwner) (agent : AgentId) (destination : ScopedPointer)
    (bytes : List UInt8) : Res HeapError Fabric := do
  let live ← f.checkedLiveHeap owner agent destination
  require (live.row.plannedRights = .RW) (.pointer .rights)
  let span ← f.checkedHeapSpan live bytes.length false
  f.writeHeap span bytes (untag span)

/-- `read_heap_bytes`: an empty read needs the live pointer only. -/
def readHeapBytes (owner : AllocationOwner) (agent : AgentId) (pointer : ScopedPointer)
    (length : Nat) : Res HeapError (List UInt8) := do
  let live ← f.checkedLiveHeap owner agent pointer
  if length = 0 then return []
  let span ← f.checkedHeapSpan live length false
  return slice f.memory span.start (span.stop - span.start)

/-- `store_heap_token_in_local`: a live heap token into a protected cell of an ordinary object. -/
def storeHeapTokenInLocal (request : MemoryRequest) (owner : AllocationOwner)
    (pointer : ScopedPointer) : Res (FaultRecord × Fabric) Fabric := do
  require (request.context.domain = owner.domain) (f.pointerCellFault request .noCapability, f)
  let _ ← mapErr (f.checkedLiveHeap owner request.context.agent pointer) fun _ =>
    (f.pointerCellFault request .noCapability, f)
  let key ← mapErr (f.checkedPointerCell request .write) fun fault => (fault, f)
  let f ← f.executeWrite request (pointerBytes (some pointer))
  return f.tagCell key pointer

end Fabric

end Anka
