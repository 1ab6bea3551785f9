import Anka.Fabric.HeapWork

/-!
# The Fabric: initialization and publication (`heap/initialization.rs`, `compiler_loader.rs`)

An attached lifetime is private until it is published. It is zeroed in aligned chunks; any other
write to it starts that over. Publication makes the completed lifetime live: a heap reply as it is,
with rights READ and WRITE, a compiler region or artifact together with its image.

A snapshot (`HeapInitialization`) is a copy of a row that its holder may keep: its value is
arbitrary here, and every operation compares it with the row.

`check_heap_cleanup_drain` of `workers/retirement.rs` is here because publication uses it too.

Left out: `WorkspaceDirectory::decode`, which a compiler region of 1024 bytes must pass. Its verdict
is the argument `directory` of `publishCompilerRegion`, so both are covered.
-/

namespace Anka

open Rust Res

/-- `HeapInitialization`: the row as its holder saw it. -/
structure HeapInitialization where
  row : PrivateHeapRow

/-- Every byte is written (initialization.rs 29). -/
def HeapInitialization.isComplete (snapshot : HeapInitialization) : Bool :=
  snapshot.row.initializedBytes == snapshot.row.extents.physical.size

/-- What one chunk of an initialization commits. -/
structure InitializationPlan where
  registry : HeapAttachmentPlan
  row : PrivateHeapRow

/-- A region as a compiler is told of it. -/
structure CompilerHeapRegion where
  pointer : ScopedPointer
  words : List Nat

/-- initialization.rs 7. -/
def CHUNK_LIMIT : Nat := 4096

/-- workspace.rs 8. -/
def DIRECTORY_SOURCE_LIMIT : Nat := 1024 * 1024 - 8

/-- `rights`: what a compiler region of the role may be used for. -/
def compilerRights (role : Nat) : Res HeapError Permissions :=
  if role = 1 ∨ role = 15 then ok .READ
  else if role = 2 ∨ role = 3 ∨ role = 16 then ok .RW
  else err .configuration

/-- The account of an owner (application.rs 14). -/
def ScopedPointers.heapAccount (s : ScopedPointers) (owner : AllocationOwner) :
    Option OwnerAccount :=
  ((s.heap.accounts.filterMap id).find? fun a => a.owner == owner).map (·.token)

namespace Fabric

variable (f : Fabric)

/-! ## Drainage -/

variable (current : CurrentHeapProcess) (snapshot : HeapInitialization)

/-- Some domain holds a capability or a device authority for the object. -/
def authorityNames (object : ObjectId) : Bool :=
  f.domains.any fun _ d => (d.capabilities.any fun e => e.cap.object == object) ||
    d.deviceAuthorities.any fun e => e.object == object

/-- `check_heap_cleanup_drain`: no request of the lifetime, and nothing legacy names its object. -/
def checkHeapCleanupDrain (plan : HeapClosurePlan) (object : ObjectId) :
    Res HeapError Unit := do
  f.checkAttachedHeapCustody plan object
  let counts ← f.heapWorkCensus plan.reservation plan.owner object
  require (counts = 0 ∧ f.heapPoolIsPrivate = true ∧ (f.objects.get object).isNone = true ∧
    (f.placement.get object).isNone = true ∧ (f.pointerStackObjects.get object).isNone = true ∧
    f.scopedPointers.localBackingReferences object = false ∧ f.authorityNames object = false) .busy

/-! ## Initialization -/

/-- The plan for a private row (initialization.rs 54). -/
def preparePrivateInitialization (reservation : HeapReservation) (currentOwner : AllocationOwner)
    (object : ObjectId) (expectedRevision : Nat) : Res HeapError InitializationPlan := do
  require ((f.domains.get currentOwner.domain).isSome = true) .owner
  let registry ← f.scopedPointers.prepareHeapInitialization reservation currentOwner
    expectedRevision
  let heap ← okOr f.privateHeap .configuration
  let row ← okOr heap.rows[registry.reservation.slot]?.join .staleInitialization
  require (row.reservation = reservation ∧ row.owner = registry.owner ∧ row.object = object ∧
    row.objectGeneration = ⟨0⟩ ∧ row.logical = registry.logical ∧ row.extents = registry.extents ∧
    row.plannedRights = .RW) .staleInitialization
  heap.checkExtents registry.extents
  let stop ← okOr row.extents.physical.endAddr .configuration
  require (stop ≤ f.memory.length ∧ row.initializedBytes ≤ row.extents.physical.size ∧
    row.initializedBytes % 16 = 0) .configuration
  require (f.heapPoolIsPrivate = true) .busy
  return { registry, row }

/-- The row is still the snapshot's (initialization.rs 103). -/
def checkInitializationSnapshot (currentOwner : AllocationOwner) (expectedRevision : Nat) :
    Res HeapError InitializationPlan := do
  let plan ← f.preparePrivateInitialization snapshot.row.reservation currentOwner
    snapshot.row.object
    expectedRevision
  require (plan.row = snapshot.row) .staleInitialization
  return plan

/-- The pool's bytes for a part of a row (initialization.rs 139). -/
def privateInitializationSpan (row : PrivateHeapRow) (offset amount : Nat) :
    Res HeapError HeapSpan := do
  let physical := row.extents.physical
  require (amount ≠ 0 ∧ amount ≤ CHUNK_LIMIT ∧ offset ≤ physical.size ∧
    amount ≤ physical.size - offset) .size
  let start ← okOr (checkedAdd physical.base offset) .size
  let stop ← okOr (checkedAdd start amount) .size
  require (stop ≤ f.memory.length) .configuration
  let heap ← okOr f.privateHeap .configuration
  let first ← okOr (heap.shadowIndex (start / 16 * 16)) .configuration
  let last ← okOr (heap.shadowIndex ((stop - 1) / 16 * 16)) .configuration
  require (last + 1 ≤ heap.shadow.length ∧ first ≤ last + 1) .configuration
  return { start, stop, first, past := last + 1 }

/-- `heap.set_row`, on the Fabric. -/
def setHeapRow {ε : Type} (f : Fabric) (slot : Nat) (row : PrivateHeapRow) : Res ε Fabric := do
  let heap ← unwrap f.privateHeap
  let heap ← heap.setRow slot row
  return { f with privateHeap := some heap }

/-- `commit_private_initialization`: bytes, tags and progress change together. -/
def commitPrivateInitialization {ε : Type} (f : Fabric) (plan : InitializationPlan)
    (span : HeapSpan) (data : List UInt8) : Res ε (HeapInitialization × Fabric) := do
  let f ← f.writeHeap span data (untag span)
  let f ← f.setHeapRow plan.registry.reservation.slot plan.row
  let scopedPointers ← f.scopedPointers.commitHeapInitialization plan.registry
  return ({ row := plan.row }, { f with scopedPointers })

/-- The row with the next version. -/
def nextVersion (row : PrivateHeapRow) : Res HeapError PrivateHeapRow := do
  let initializationVersion ← okOr (checkedAdd row.initializationVersion 1) (.capacity .identity)
  return { row with initializationVersion }

/-- `initialize_private_heap_chunk`: the next aligned chunk is zeroed. -/
def initializePrivateHeapChunk (currentOwner : AllocationOwner) (amount expectedRevision : Nat) :
    Res HeapError (HeapInitialization × Fabric) := do
  let plan ← f.checkInitializationSnapshot snapshot currentOwner expectedRevision
  require (amount % 16 = 0) .size
  let span ← f.privateInitializationSpan plan.row plan.row.initializedBytes amount
  let row ← nextVersion plan.row
  let initializedBytes ← plus row.initializedBytes amount
  f.commitPrivateInitialization { plan with row := { row with initializedBytes } } span
    (List.replicate (span.stop - span.start) 0)

/-- `write_private_heap`: arbitrary staging bytes; the whole prefix must be zeroed again. -/
def writePrivateHeap (currentOwner : AllocationOwner) (offset : Nat) (data : List UInt8)
    (expectedRevision : Nat) : Res HeapError (HeapInitialization × Fabric) := do
  let plan ← f.checkInitializationSnapshot snapshot currentOwner expectedRevision
  let span ← f.privateInitializationSpan plan.row offset data.length
  let row ← nextVersion plan.row
  f.commitPrivateInitialization { plan with row := { row with initializedBytes := 0 } } span data

/-! ## Publication -/

/-- The checks of `publish_heap_reply` on the Fabric, up to the census of the core's mappings. -/
def prepareHeapReply (owner : AllocationOwner) (agent : AgentId) (snapshot : HeapInitialization) :
    Res HeapError InitializationPlan := do
  let plan ← f.checkInitializationSnapshot snapshot owner f.scopedPointers.heap.revision
  require (snapshot.isComplete = true ∧ snapshot.row.initializationVersion ≠ 0) .staleInitialization
  require (f.cpuAgentOf agent owner.domain = true) .owner
  let closure ← f.scopedPointers.prepareAttachedHeapClosure plan.row.reservation owner
  f.checkHeapCleanupDrain closure plan.row.object
  return plan

/-- The commit of `publish_heap_reply` on the Fabric. -/
def commitHeapReply {ε : Type} (f : Fabric) (plan : InitializationPlan) :
    Res ε (ScopedPointer × Fabric) := do
  let (pointer, scopedPointers) ← f.scopedPointers.commitHeapPublication plan.registry
  return (pointer, { f with scopedPointers })

/-- `publish_heap_reply` on the Fabric, for any core that accepts the reply. -/
def publishHeap (owner : AllocationOwner) (agent : AgentId) (snapshot : HeapInitialization) :
    Res HeapError (ScopedPointer × Fabric) := do
  let plan ← f.prepareHeapReply owner agent snapshot
  f.commitHeapReply plan

/-- The region's pointer and its words (compiler_loader.rs 21). -/
def describeCompilerRegion (role validBytes : Nat) : Res HeapError CompilerHeapRegion := do
  let plan ← f.checkInitializationSnapshot snapshot current.owner f.scopedPointers.heap.revision
  let rights ← compilerRights role
  require (snapshot.isComplete = true ∧ snapshot.row.initializationVersion ≠ 0 ∧
    validBytes ≤ plan.row.logical) .staleInitialization
  let pointer := plan.registry.pointer
  let account ← okOr (f.scopedPointers.heapAccount current.owner) .owner
  return { pointer
           words := [role, if rights = .READ then 1 else 3, plan.row.object.raw,
             plan.row.objectGeneration.raw, pointer.words.1, pointer.words.2, plan.row.logical,
             validBytes, 1, plan.row.logical, plan.row.extents.virtualExtent.base,
             plan.row.extents.physical.size, account.serial, plan.row.reservation.job, 0, 0] }

/-- The eight bytes at word `i` of a payload. -/
def payloadWord (payload : List UInt8) (i : Nat) : Nat := ofLeBytes (slice payload (i * 8) 8)

/-- The shape a payload and its cells must have for the role. -/
def checkRegionShape (role logical : Nat) (payload : List UInt8)
    (cells : List (Nat × ScopedPointer)) (directory : Bool) : Res HeapError Unit := do
  require (payload.length ≤ DIRECTORY_SOURCE_LIMIT ∧ cells.length ≤ 5 ∧
    (role ≠ 15 → cells = []) ∧
    (role = 15 → (payload.length = 768 ∨ payload.length = 1024) ∧ cells.length = 5) ∧
    (role = 2 ∨ role = 3 ∨ role = 16 → payload = [])) .configuration
  require (role = 15 ∧ payload.length = 1024 → payloadWord payload 13 = 1024 ∧
    payloadWord payload 15 = 1 ∧ payloadWord payload 70 = 1024 ∧ logical = 1024 ∧
    directory = true) .configuration

/-- One cell of a region: it stands in its record, the payload holds its words, and it is live, or
the region's own pointer in the fourth record. Answers the index of its tag. -/
def checkRegionCell (row : PrivateHeapRow) (payload : List UInt8) (own : ScopedPointer)
    (cell : (Nat × ScopedPointer) × Nat) : Res HeapError (Nat × ScopedPointer) := do
  let ((offset, pointer), i) := cell
  require (offset = 160 + i * 128) .size
  let span ← f.checkedHeapBackingSpan row.logical row.extents offset 16 true
  require (offset + 16 ≤ payload.length ∧ slice payload offset 16 = pointerBytes (some pointer))
    .missingKind
  if i = 3 then require (pointer = own) .missingKind
  else do
    let _ ← f.checkedLiveHeap current.owner current.agent pointer
    pure ()
  return (span.first, pointer)

/-- The image of a first publication: the payload from the base, then the tags of its cells. -/
def writeImage {ε : Type} (f : Fabric) (start : Nat) (payload : List UInt8)
    (tags : List (Nat × ScopedPointer)) : Res ε Fabric := do
  check (start + payload.length ≤ f.memory.length)
  let heap ← unwrap f.privateHeap
  let f := f.writeMemory start payload
  let shadow := tags.foldl (fun shadow tag => shadow.set tag.1 (some tag.2)) heap.shadow
  return { f with privateHeap := some { heap with shadow } }

/-- Writes a region's cells and publishes it (compiler_loader.rs 70). -/
def publishCompilerRegion (role : Nat) (payload : List UInt8) (cells : List (Nat × ScopedPointer))
    (directory : Bool) : Res HeapError (CompilerHeapRegion × Fabric) := do
  let rights ← compilerRights role
  let region ← f.describeCompilerRegion current snapshot role payload.length
  let plan ← f.checkInitializationSnapshot snapshot current.owner f.scopedPointers.heap.revision
  require (f.cpuAgentOf current.agent current.owner.domain = true) .configuration
  checkRegionShape role plan.row.logical payload cells directory
  let closure ← f.scopedPointers.prepareAttachedHeapClosure plan.row.reservation current.owner
  f.checkHeapCleanupDrain closure plan.row.object
  let tags ← cells.zipIdx.mapM (f.checkRegionCell current plan.row payload region.pointer)
  let row ← nextVersion plan.row
  let f ← f.writeImage plan.row.extents.physical.base payload tags
  let f ← f.setHeapRow plan.registry.reservation.slot { row with plannedRights := rights }
  let (pointer, scopedPointers) ←
    f.scopedPointers.commitHeapImagePublication plan.registry (decide (rights = .RW))
  check (pointer = region.pointer)
  return (region, { f with scopedPointers })

/-- `publish_compiler_artifact`: a sealed image of exactly the logical length, READ only. -/
def publishCompilerArtifact (payload : List UInt8) :
    Res HeapError ((ObjectId × ScopedPointer) × Fabric) := do
  let plan ← f.checkInitializationSnapshot snapshot current.owner f.scopedPointers.heap.revision
  require (snapshot.isComplete = true ∧ snapshot.row.initializationVersion ≠ 0 ∧ payload ≠ [] ∧
    payload.length = plan.row.logical ∧
    f.cpuAgentOf current.agent current.owner.domain = true) .configuration
  let closure ← f.scopedPointers.prepareAttachedHeapClosure plan.row.reservation current.owner
  f.checkHeapCleanupDrain closure plan.row.object
  let row ← nextVersion plan.row
  let f ← f.writeImage plan.row.extents.physical.base payload []
  let f ← f.setHeapRow plan.registry.reservation.slot { row with plannedRights := .READ }
  let (pointer, scopedPointers) ← f.scopedPointers.commitHeapImagePublication plan.registry false
  return ((row.object, pointer), { f with scopedPointers })

end Fabric

end Anka
