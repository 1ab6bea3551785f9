import Anka.Lib.Bytes
import Anka.Lib.Map
import Anka.ScopedPointers.Workers

/-!
# The Fabric: state and constructors (`fabric.rs`, `fabric/heap.rs`)

One `Fabric` holds the object table, protection domains, registered agents, the placement map,
physical memory, the pointer registry, the protected pointer cells, the transaction log and, in the
heap profiles, the private heap storage. Every operation takes it by exclusive reference, so a call
is a function from a Fabric to its result and the Fabric it leaves.

`history` is a ghost field: the source has no such log and no function reads it. It records, latest
first, what was minted, which physical bytes were written, which cells were tagged and where objects
were placed, so that results about whole runs can say "minted earlier" or "not written since".

`HeapFabric` carries the fact that its pool and its virtual window end inside `u64`, which the
source re-checks with `expect("validated heap pool")`.

Left out: `FabricTimer` and `timer`, which no other operation reads.
-/

namespace Anka

open Rust Res

/-! ## Private heap storage -/

/-- One attached heap lifetime: object identity, extents, planned rights and progress. -/
structure PrivateHeapRow where
  reservation : HeapReservation
  owner : AllocationOwner
  object : ObjectId
  objectGeneration : Generation
  logical : Nat
  extents : HeapExtents
  plannedRights : Permissions
  initializedBytes : Nat
  initializationVersion : Nat
  deriving DecidableEq

/-- The caller's name for a request. -/
structure HeapWorkTicket where
  row : Nat
  operation : Nat
  deriving DecidableEq

/-- Where a request is kept. -/
structure CpuSourceKey where
  index : Nat
  generation : Nat
  request : Nat
  deriving DecidableEq

/-- The direction of a request. -/
inductive CpuAccess where
  | read
  | write
  deriving DecidableEq

/-- What a request was admitted for. -/
structure WorkBinding where
  reservation : HeapReservation
  owner : AllocationOwner
  object : ObjectId
  objectGeneration : Generation
  logical : Nat
  extents : HeapExtents
  rights : Permissions
  agent : AgentId
  offset : Nat
  length : Nat
  access : CpuAccess
  deriving DecidableEq

/-- A request as the ledger has it. -/
structure WorkRecord where
  ticket : HeapWorkTicket
  source : CpuSourceKey
  binding : WorkBinding
  deriving DecidableEq

/-- How far a request is. -/
inductive CpuRequestState where
  | prepared
  | committed
  | cancelled
  deriving DecidableEq

/-- A queued command, pinned to one ledger row; the payload is a fixed array. -/
structure CpuRequest where
  key : CpuSourceKey
  pin : HeapWorkTicket
  binding : WorkBinding
  payload : List UInt8
  state : CpuRequestState

/-- One place for a request. -/
structure CpuSourceSlot where
  nextGeneration : Option Nat
  request : Option CpuRequest

/-- The bounded ledger of CPU heap work and its request backend. -/
structure HeapCpuWork where
  records : List (Option WorkRecord)
  sources : List CpuSourceSlot
  nextOperation : Nat
  nextRequest : Option Nat

/-- How many requests there may be. -/
structure HeapWorkLimits where
  tickets : Nat
  requests : Nat

/-- The dedicated pool, its rows by registry slot, and one tag per sixteen bytes. -/
structure HeapFabric where
  pool : Extent
  virtualWindow : Extent
  rows : List (Option PrivateHeapRow)
  rowsEnd : Nat
  shadow : List (Option ScopedPointer)
  work : Option HeapCpuWork
  objectIdFloor : Nat
  pool_le : pool.base + pool.size ≤ u64Max
  window_le : virtualWindow.base + virtualWindow.size ≤ u64Max

namespace HeapFabric

/-- The object is one of the pool (heap.rs 121). -/
def containsObject (h : HeapFabric) (id : ObjectId) : Bool :=
  (h.rows.take h.rowsEnd).any fun row => row.any fun r => r.object == id

/-- `end`. -/
def endAddr (h : HeapFabric) : Nat := h.pool.base + h.pool.size

/-- `overlaps`: an empty span overlaps nothing, one that overflows everything. -/
def overlaps (h : HeapFabric) (base length : Nat) : Bool :=
  length != 0 && (checkedAdd base length).all fun stop =>
    decide (base < h.endAddr) && decide (h.pool.base < stop)

end HeapFabric

/-! ## The Fabric -/

/-- `(ObjectId, Generation, u64)`: the key of a protected cell. -/
structure CellKey where
  object : ObjectId
  generation : Generation
  offset : Nat
  deriving DecidableEq

/-- What the ghost history records. -/
inductive Effect where
  /-- `grant` or `grant_with_authority_id` put the capability into the domain. -/
  | granted (domain : DomainId) (cap : Capability64)
  /-- `derive` or `derive_from_authority_id` did, from a parent. -/
  | derived (domain : DomainId) (cap : Capability64)
  /-- The physical bytes `[base, base + length)` were assigned. -/
  | wrote (base length : Nat)
  /-- The cell was tagged while its object was placed at `base`. -/
  | stored (key : CellKey) (pointer : ScopedPointer) (base : Option Nat)
  | placed (id : ObjectId) (base : Nat)

/-- The state of the Fabric. -/
structure Fabric where
  scopedPointers : ScopedPointers
  pointerStackObjects : Map ObjectId (Nat × DomainId)
  pointerCells : Map CellKey ScopedPointer
  objects : Map ObjectId Object
  domains : Map DomainId DomainState
  agents : Map AgentId AgentState
  placement : Map ObjectId Nat
  memory : List UInt8
  privateHeap : Option HeapFabric
  faultLog : List FaultRecord
  transactions : List Transaction
  nextObjectId : Nat
  nextDomainId : Nat
  nextTxId : Nat
  nextAuthorityId : Nat
  history : List Effect

namespace Fabric

/-- A new Fabric (fabric.rs 124). -/
def fromParts (memory : List UInt8) (scopedPointers : ScopedPointers)
    (privateHeap : Option HeapFabric) : Fabric :=
  { scopedPointers
    pointerStackObjects := ∅
    pointerCells := ∅
    objects := ∅
    domains := ∅
    agents := ∅
    placement := ∅
    memory
    privateHeap
    faultLog := []
    transactions := []
    nextObjectId := 0
    nextDomainId := 0
    nextTxId := 0
    nextAuthorityId := 0
    history := [] }

/-- `new`: no private heap. -/
def new (host : Host) (memSize : Nat) : Res HeapError Fabric := do
  let registry ← ScopedPointers.new host 4096
  return fromParts (List.replicate memSize 0) registry none

/-- `with_preprocessor_storage`: exact memory and bounded pointer metadata; `err ()` is `Err(())`.
-/
def withPreprocessorStorage (host : Host) (memSize : Nat) : Res Unit Fabric := do
  let capacity ← okOr (host.reserve .memory memSize) ()
  require (capacity ≤ memSize) ()
  let limits : RegistryLimits :=
    { slots := 4096, scopes := 4096, owners := 0, cleanup := 0, globalBytes := 2 * 1024 * 1024
      globalBytes_le := by decide }
  let registry ← mapErr (ScopedPointers.withLimits host limits) fun _ => ()
  return fromParts (List.replicate memSize 0) registry none

end Fabric

namespace HeapFabric

/-- `footprint`: the inline descriptor, both arrays and the fixed scratch allowance. -/
def footprint (host : Host) (rows shadow : Nat) : Res HeapError Nat :=
  sumBytes host [(.heapFabric, 1), (.privateHeapRow, rows), (.scopedPointer, shadow),
    (.fabricScratch, 1)] 0

/-- `new` with `retained_bytes`; the pool and window bounds come from the extent managers. -/
def new (host : Host) (slots : Nat) (limits : HeapPlacementLimits) (remaining : Nat)
    (hpool : limits.physicalPool.base + limits.physicalPool.size ≤ u64Max)
    (hwindow : limits.virtualWindow.base + limits.virtualWindow.size ≤ u64Max) :
    Res HeapError (HeapFabric × Nat) := do
  let cells := limits.physicalPool.size / 16
  let needed ← footprint host slots cells
  require (needed ≤ remaining) (.capacity .globalBytes)
  let rows ← fixedTable host .heapRows slots
  let shadow ← fixedTable host .heapShadow cells
  let retained ← footprint host rows shadow
  require (retained ≤ remaining) (.capacity .globalBytes)
  return ({ pool := limits.physicalPool, virtualWindow := limits.virtualWindow
            rows := List.replicate slots none, rowsEnd := 0
            shadow := List.replicate cells none, work := none, objectIdFloor := 0
            pool_le := hpool, window_le := hwindow }, retained)

end HeapFabric

namespace HeapCpuWork

/-- The bytes of the tables (work.rs 112). -/
def footprint (host : Host) (tickets requests : Nat) : Res HeapError Nat :=
  sumBytes host [(.workRecord, tickets), (.cpuSourceSlot, requests), (.workScratch, 1)] 0

/-- `new` with `retained_bytes`. -/
def new (host : Host) (limits : HeapWorkLimits) (remaining : Nat) :
    Res HeapError (HeapCpuWork × Nat) := do
  require (limits.tickets ≤ u32Max ∧ limits.requests ≤ u32Max) .configuration
  let needed ← footprint host limits.tickets limits.requests
  require (needed ≤ remaining) (.capacity .globalBytes)
  let records ← fixedTable host .workRecords limits.tickets
  let sources ← fixedTable host .workSources limits.requests
  let retained ← footprint host records sources
  require (retained ≤ remaining) (.capacity .globalBytes)
  return ({ records := List.replicate limits.tickets none
            sources := List.replicate limits.requests { nextGeneration := some 0, request := none }
            nextOperation := 1, nextRequest := some 0 }, retained)

end HeapCpuWork

namespace Fabric

/-- The optional CPU-work tables of `with_private_heap_profile`. -/
def withHeapWork (host : Host) (registry : ScopedPointers) (heap : HeapFabric) (globalBytes : Nat) :
    Option HeapWorkLimits → Res HeapError (ScopedPointers × HeapFabric)
  | none => ok (registry, heap)
  | some limits => do
    let remaining ← minus globalBytes registry.fixedMetadataBytes
    let (work, retained) ← HeapCpuWork.new host limits remaining
    let registry ← registry.chargeHeapFabricStorage retained
    return (registry, { heap with work := some work })

/-- `with_private_heap_profile`: the one constructor of the heap profiles. A window that overflows
is rejected by the extent managers before the heap storage is built. -/
def withPrivateHeapProfile (host : Host) (memSize : Nat) (limits : RegistryLimits)
    (placement : HeapPlacementLimits) (workers : Nat) (workLimits : Option HeapWorkLimits) :
    Res HeapError Fabric := do
  let stop ← okOr placement.physicalPool.endAddr .configuration
  require (stop ≤ memSize) .configuration
  let registry ← ScopedPointers.withHeapPlacementAndWorkers host limits placement workers
  let remaining ← minus limits.globalBytes registry.fixedMetadataBytes
  if h : placement.physicalPool.base + placement.physicalPool.size ≤ u64Max ∧
      placement.virtualWindow.base + placement.virtualWindow.size ≤ u64Max then do
    let (heap, retained) ← HeapFabric.new host limits.slots placement remaining h.1 h.2
    let registry ← registry.chargeHeapFabricStorage retained
    let (registry, heap) ← withHeapWork host registry heap limits.globalBytes workLimits
    let _ ← okOr (host.reserve .memory memSize) .hostAllocation
    return fromParts (List.replicate memSize 0) registry (some heap)
  else panic

/-! ## Shared observations -/

/-- The object is one of the private heap (heap.rs 275). -/
def privateHeapObject (f : Fabric) (object : ObjectId) : Bool :=
  f.privateHeap.any fun h => h.containsObject object

/-- The span meets the private heap (heap.rs 281). -/
def heapPoolOverlaps (f : Fabric) (base length : Nat) : Bool :=
  f.privateHeap.any fun h => h.overlaps base length

/-- The physical address of a protected cell, if its object is placed and the sum fits. -/
def cellAddress (f : Fabric) (key : CellKey) : Option Nat :=
  (f.placement.get key.object).bind fun base => checkedAdd base key.offset

/-- `self.memory[base..base + data.len()].copy_from_slice(data)`. -/
def writeMemory (f : Fabric) (base : Nat) (data : List UInt8) : Fabric :=
  { f with
    memory := overwrite f.memory base data
    history := .wrote base data.length :: f.history }

end Fabric

end Anka
