import Anka.Placement
import Anka.State

/-!
# The pointer registry: state and constructors (`scoped_pointers.rs`, `scoped_pointers/heap.rs`)

One fixed directory of slots holds protected local and heap identities; the heap ledger beside it
holds owner accounts, the cleanup directory (which is also the cleanup queue), worker roles, host
storage charges and, in the placement profile, the two extent managers. All tables are allocated
by a constructor and never grow.

The constructors charge the tables' storage to the global budget. `RegistryLimits` carries the
range of its `u64` field, since the budget bounds every later sum.
-/

namespace Anka

open Rust Res

/-! ## Local identities -/

/-- Why a pointer operation fails. -/
inductive PointerError where
  | exhausted
  | invalidScope
  | invalidRange
  | stale
  | domain
  | rights
  | bounds
  deriving DecidableEq

/-- A scope's number. -/
structure Scope where
  raw : Nat
  deriving DecidableEq

/-- A protected pointer: stable slot, slot generation, byte position. -/
structure ScopedPointer where
  slot : Nat
  generation : Nat
  position : Nat
  deriving DecidableEq

/-- `words`: the two ABI words; the first packs the generation over the one-based slot. -/
def ScopedPointer.words (p : ScopedPointer) : Nat × Nat :=
  (p.generation * 2 ^ 32 ||| (p.slot + 1), p.position)

/-- The Fabric identity behind a local pointer. -/
structure PointerBacking where
  object : ObjectId
  generation : Generation
  offset : Nat
  deriving DecidableEq

/-- The memory of a local. -/
structure LocalAllocation where
  scope : Scope
  domain : Nat
  base : Nat
  length : Nat
  writable : Bool
  backing : Option PointerBacking
  deriving DecidableEq

/-- How far a slot is. -/
inductive SlotState where
  | free
  | reserved
  | live
  | closing
  | exhausted
  | retired
  deriving DecidableEq

/-- The slot carries a heap lifetime: `Reserved | Live | Closing | Retired`. -/
def SlotState.isHeld : SlotState → Bool
  | reserved => true
  | live => true
  | closing => true
  | retired => true
  | free => false
  | exhausted => false

/-- `Closing | Retired`. -/
def SlotState.isPending : SlotState → Bool
  | closing => true
  | retired => true
  | _ => false

/-! ## Owners, reservations and cleanup -/

/-- Trusted process descriptor of an allocating process. -/
structure AllocationOwner where
  process : ProcessKey
  context : Nat
  domain : DomainId
  deriving DecidableEq

/-- What can run out. -/
inductive Resource where
  | globalBytes
  | ownerBytes
  | slots
  | owners
  | cleanup
  | workers
  | workTickets
  | backendRequests
  | hostStorage
  | identity
  deriving DecidableEq

/-- Why a heap operation fails. -/
inductive HeapError where
  | configuration
  | hostAllocation
  | capacity (r : Resource)
  | size
  | owner
  | closed
  | staleReservation
  | staleRevision
  | staleInitialization
  | pointer (e : PointerError)
  | missingKind
  | invalidFree
  | busy
  | worker
  | lease
  | staleWork
  | workState
  | staleCleanup
  | physicalPlacement (e : PlacementError)
  | virtualPlacement (e : PlacementError)
  deriving DecidableEq

/-- Opaque account capability. -/
structure OwnerAccount where
  index : Nat
  serial : Nat
  deriving DecidableEq

/-- Private staging identity of one heap lifetime. -/
structure HeapReservation where
  slot : Nat
  generation : Nat
  job : Nat
  owner : OwnerAccount
  deriving DecidableEq

/-- `HeapReservation::key`: the managers' name for the lifetime. -/
def HeapReservation.key (r : HeapReservation) : ReservationKey :=
  { owner := r.owner.serial, slot := r.slot % 2 ^ 32 + 1, generation := r.generation,
    job := r.job }

/-- What an owner may use, and uses. -/
structure Account where
  token : OwnerAccount
  owner : AllocationOwner
  closed : Bool
  limit : Nat
  reserved : Nat
  deriving DecidableEq

/-- The two extents of an allocation. -/
structure HeapExtents where
  physical : Extent
  virtualExtent : Extent
  deriving DecidableEq

/-- An allocation. -/
structure HeapRecord where
  owner : OwnerAccount
  logical : Nat
  rounded : Nat
  cleanup : Nat
  published : Bool
  writable : Bool
  everAttached : Bool
  extents : Option HeapExtents
  deriving DecidableEq

/-- What a slot holds. -/
inductive Record where
  | empty
  | «local» (a : LocalAllocation)
  | heap (r : HeapRecord)
  deriving DecidableEq

/-- A pointer's target, by generation. -/
structure Slot where
  generation : Nat
  state : SlotState
  record : Record
  deriving DecidableEq

/-- A slot before its first use (scoped_pointers.rs 84). -/
def Slot.EMPTY : Slot := { generation := 0, state := .free, record := .empty }

/-- `Slot::release`: a slot at the last generation is retired for good. -/
def Slot.release (s : Slot) : Slot :=
  { s with state := if s.generation = u32Max then .exhausted else .free }

/-- Who a worker is. -/
structure CleanupWorkerIdentity where
  process : ProcessKey
  context : Nat
  domain : DomainId
  deriving DecidableEq

/-- One-based worker row and nonreused serial. -/
structure CleanupWorker where
  row : Nat
  serial : Nat
  deriving DecidableEq

/-- A fenced worker gets no jobs. -/
inductive WorkerState where
  | active
  | fenced
  deriving DecidableEq

/-- An admitted worker. -/
structure WorkerRecord where
  handle : CleanupWorker
  identity : CleanupWorkerIdentity
  state : WorkerState
  deriving DecidableEq

/-- Who has a job. -/
inductive JobLease where
  | unowned (epoch : Nat)
  | held (epoch : Nat) (worker : CleanupWorker)
  | revoking (epoch : Nat) (worker : CleanupWorker)
  deriving DecidableEq

/-- The job is held by the worker, or being taken back from it (workers.rs 53). -/
def JobLease.refersTo : JobLease → CleanupWorker → Bool
  | held _ w, handle => w == handle
  | revoking _ w, handle => w == handle
  | unowned _, _ => false

/-- `let JobLease::Unowned { epoch } = lease`. -/
def JobLease.unowned? : JobLease → Option Nat
  | unowned epoch => some epoch
  | _ => none

/-- How far the scrubbing is. -/
inductive HeapScrubProgress where
  | pending
  | scrubbing (done : Nat)
  | clean
  deriving DecidableEq

/-- `let HeapScrubProgress::Scrubbing(done) = progress`. -/
def HeapScrubProgress.scrubbing? : HeapScrubProgress → Option Nat
  | scrubbing done => some done
  | _ => none

/-- The cleanup of an allocation. -/
structure CleanupRecord where
  reservation : HeapReservation
  queued : Bool
  lease : JobLease
  version : Nat
  sequence : Nat
  progress : HeapScrubProgress
  deriving DecidableEq

/-- Memory that the host keeps. -/
structure HostStorageReservation where
  row : Nat
  identity : Nat
  account : OwnerAccount
  deriving DecidableEq

/-- Its row. -/
structure HostStorageRecord where
  token : HostStorageReservation
  logical : Nat
  rounded : Nat
  deriving DecidableEq

/-! ## The registry -/

/-- The memory of a frame. -/
structure LocalFrameBacking where
  backing : PointerBacking
  length : Nat
  deriving DecidableEq

/-- An open scope. -/
structure ScopeRecord where
  scope : Scope
  owner : Nat
  frame : Option LocalFrameBacking
  deriving DecidableEq

/-- Both managers of the placement profile; one virtual arena per account row. -/
structure HeapPlacement where
  physical : PhysicalPlacementManager
  virtualArenas : List VirtualLayoutBuilder
  deriving DecidableEq

/-- Accounts, jobs, workers and what is charged. -/
structure HeapLedger where
  accounts : List (Option Account)
  cleanup : List (Option CleanupRecord)
  workers : List (Option WorkerRecord)
  hostStorage : List (Option HostStorageRecord)
  nextWorker : Nat
  nextOwner : Nat
  nextJob : Nat
  revision : Nat
  fixedBytes : Nat
  reservedBytes : Nat
  limit : Nat
  placement : Option HeapPlacement
  deriving DecidableEq

/-- `HeapLedger::advance`: the revision saturates. -/
def HeapLedger.advance (h : HeapLedger) : HeapLedger :=
  { h with revision := saturatingAdd h.revision 1 }

/-- The registry of pointers. -/
structure ScopedPointers where
  slots : List Slot
  scopes : List (Option ScopeRecord)
  activeSlotsEnd : Nat
  activeScopesEnd : Nat
  nextScope : Nat
  heap : HeapLedger
  deriving DecidableEq

/-! ## Constructors -/

/-- The sizes of the tables. -/
structure RegistryLimits where
  slots : Nat
  scopes : Nat
  owners : Nat
  cleanup : Nat
  globalBytes : Nat
  globalBytes_le : globalBytes ≤ u64Max

/-- The sizes of the placement. -/
structure HeapPlacementLimits where
  physicalPool : Extent
  physicalClaims : Nat
  virtualWindow : Extent
  perOwnerClaims : Nat

/-- `bytes::<T>(count)`. -/
def bytes (host : Host) (t : HostType) (count : Nat) : Res HeapError Nat :=
  okOr (checkedMul count (host.sizeOf t)) .configuration

/-- The checked sum of storage charges. -/
def sumBytes (host : Host) : List (HostType × Nat) → Nat → Res HeapError Nat
  | [], sum => ok sum
  | (t, n) :: rest, sum => do
    let b ← bytes host t n
    let sum ← okOr (checkedAdd sum b) .configuration
    sumBytes host rest sum

/-- `fixed_table`: the capacity the host grants, or `HostAllocation`. -/
def fixedTable (host : Host) (t : HostTable) (length : Nat) : Res HeapError Nat :=
  okOr (host.reserve t length) .hostAllocation

namespace ScopedPointers

/-- The footprint closure of `with_limits`. -/
def footprint (host : Host) (slots scopes owners cleanup hostRows : Nat) :
    Res HeapError Nat :=
  sumBytes host [(.scopedPointers, 1), (.slot, slots), (.scopeRecord, scopes),
    (.account, owners), (.cleanupRecord, cleanup), (.hostStorageRecord, hostRows)] 0

/-- A registry without placement (heap.rs 190). -/
def withLimits (host : Host) (limits : RegistryLimits) : Res HeapError ScopedPointers := do
  require (limits.slots ≤ u32Max ∧ limits.cleanup ≤ u32Max) .configuration
  let needed ← footprint host limits.slots limits.scopes limits.owners limits.cleanup limits.cleanup
  require (needed ≤ limits.globalBytes) (.capacity .globalBytes)
  let slots ← fixedTable host .slots limits.slots
  let scopes ← fixedTable host .scopes limits.scopes
  let accounts ← fixedTable host .accounts limits.owners
  let cleanup ← fixedTable host .cleanup limits.cleanup
  let hostStorage ← fixedTable host .hostStorage limits.cleanup
  let fixedBytes ← footprint host slots scopes accounts cleanup hostStorage
  require (fixedBytes ≤ limits.globalBytes) (.capacity .globalBytes)
  return {
    slots := List.replicate limits.slots Slot.EMPTY
    scopes := List.replicate limits.scopes none
    activeSlotsEnd := 0
    activeScopesEnd := 0
    nextScope := 1
    heap := {
      accounts := List.replicate limits.owners none
      cleanup := List.replicate limits.cleanup none
      workers := []
      hostStorage := List.replicate limits.cleanup none
      nextWorker := 1
      nextOwner := 1
      nextJob := 1
      revision := 0
      fixedBytes
      reservedBytes := 0
      limit := limits.globalBytes
      placement := none } }

/-- `new`: the local-only profile; `expect` on the construction. -/
def new (host : Host) (capacity : Nat) : Res HeapError ScopedPointers :=
  let capacity := min capacity u32Max
  let limits : RegistryLimits :=
    { slots := capacity, scopes := capacity, owners := 0, cleanup := 0,
      globalBytes := u64Max, globalBytes_le := Nat.le_refl _ }
  match withLimits host limits with
  | ok s => ok s
  | _ => panic

/-- What the tables took (heap.rs 256). -/
def fixedMetadataBytes (s : ScopedPointers) : Nat := s.heap.fixedBytes

/-- `total_reserved_bytes`: an unchecked sum. -/
def totalReservedBytes {ε : Type} (s : ScopedPointers) : Res ε Nat :=
  plus s.heap.fixedBytes s.heap.reservedBytes

end ScopedPointers

namespace VirtualLayoutBuilder

/-- What the bounded tables of an arena take (placement.rs 478). -/
def minimumReservationBytes (host : Host) (pool : Extent) (claims : Nat) :
    Res PlacementError Nat := do
  require (validExtent pool = true) .invalidPool
  Claims.minimumBytes host claims

/-- `reusable`: the arena of account row `owner`, and the capacities it retains. -/
def reusableFor (host : Host) (owner : Nat) (pool : Extent) (claims : Nat) :
    Res PlacementError (VirtualLayoutBuilder × Nat) := do
  let _ ← minimumReservationBytes host pool claims
  let (claims, rowsCap, free) ← Claims.new host (.arenaRows owner) (.arenaFree owner) claims pool
  let limit ← unwrap pool.endAddr
  return ({ layoutStart := pool.base, limit, reusable := { free, claims, owner := none } }, rowsCap)

end VirtualLayoutBuilder

namespace HeapPlacement

/-- The bytes of the placement (placement.rs 70). -/
def minimumBytes (host : Host) (limits : HeapPlacementLimits) (owners : Nat) :
    Res HeapError Nat := do
  let physical ← mapErr (Claims.minimumBytes host limits.physicalClaims) .physicalPlacement
  let virtualBytes ← mapErr (VirtualLayoutBuilder.minimumReservationBytes host
    limits.virtualWindow limits.perOwnerClaims) .virtualPlacement
  okOr (do
    let n ← checkedAdd (host.sizeOf .virtualLayoutBuilder) virtualBytes
    let n ← checkedMul n owners
    let n ← checkedAdd n physical
    checkedAdd n host.placementScratch) .configuration

/-- The arenas of the first `owners` account rows, with their retained bytes. -/
def arenas (host : Host) (limits : HeapPlacementLimits) :
    Nat → Res HeapError (List VirtualLayoutBuilder × Nat)
  | 0 => ok ([], 0)
  | n + 1 => do
    let (built, held) ← arenas host limits n
    let (arena, rowsCap) ← mapErr (VirtualLayoutBuilder.reusableFor host n limits.virtualWindow
      limits.perOwnerClaims) .virtualPlacement
    let rows ← mapErr (storageBytes host .claim rowsCap) .virtualPlacement
    let free ← mapErr (storageBytes host .extent arena.reusable.free.capacity) .virtualPlacement
    let one ← mapErr (okOr (checkedAdd rows free) .overflow) .virtualPlacement
    let held ← okOr (checkedAdd held one) .configuration
    return (built ++ [arena], held)

/-- `HeapPlacement::new` and `retained_bytes`: the managers and the bytes they retain. -/
def new (host : Host) (limits : HeapPlacementLimits) (owners : Nat) :
    Res HeapError (HeapPlacement × Nat) := do
  let (bounded, rowsCap, free) ← mapErr (Claims.new host .physicalRows .physicalFree
    limits.physicalClaims limits.physicalPool) .physicalPlacement
  let arenaCap ← okOr (host.reserve .arenas owners) .hostAllocation
  let (virtualArenas, arenaBytes) ← arenas host limits owners
  let inline ← bytes host .virtualLayoutBuilder arenaCap
  let rows ← mapErr (storageBytes host .claim rowsCap) .physicalPlacement
  let freeBytes ← mapErr (storageBytes host .extent free.capacity) .physicalPlacement
  let physical ← mapErr (okOr (checkedAdd rows freeBytes) .overflow) .physicalPlacement
  let n ← okOr (checkedAdd inline physical) .configuration
  let n ← okOr (checkedAdd n host.placementScratch) .configuration
  let n ← okOr (checkedAdd n arenaBytes) .configuration
  return ({ physical := { pool := limits.physicalPool, free, bounded }, virtualArenas }, n)

end HeapPlacement

namespace ScopedPointers

/-- A registry with placement (placement.rs 187). -/
def withHeapPlacement (host : Host) (limits : RegistryLimits) (placement : HeapPlacementLimits) :
    Res HeapError ScopedPointers := do
  let registry ← withLimits host limits
  let minimum ← HeapPlacement.minimumBytes host placement limits.owners
  let remaining ← minus limits.globalBytes registry.fixedMetadataBytes
  require (minimum ≤ remaining) (.capacity .globalBytes)
  let (managers, additional) ← HeapPlacement.new host placement limits.owners
  require (additional ≤ remaining) (.capacity .globalBytes)
  let fixedBytes ← plus registry.heap.fixedBytes additional
  return { registry with heap := { registry.heap with fixedBytes, placement := some managers } }

/-- A registry with placement and workers (workers.rs 95). -/
def withHeapPlacementAndWorkers (host : Host) (limits : RegistryLimits)
    (placement : HeapPlacementLimits) (capacity : Nat) : Res HeapError ScopedPointers := do
  require (capacity ≤ u32Max) .configuration
  let registry ← withHeapPlacement host limits placement
  let remaining ← minus limits.globalBytes registry.fixedMetadataBytes
  let needed ← bytes host .workerRecord capacity
  require (needed ≤ remaining) (.capacity .globalBytes)
  let rows ← fixedTable host .workers capacity
  let retained ← bytes host .workerRecord rows
  require (retained ≤ remaining) (.capacity .globalBytes)
  let fixedBytes ← plus registry.heap.fixedBytes retained
  return { registry with
    heap := { registry.heap with fixedBytes, workers := List.replicate capacity none } }

/-- `charge_heap_fabric_storage`: construction-time charge of the enclosing Fabric's storage. -/
def chargeHeapFabricStorage (s : ScopedPointers) (additional : Nat) :
    Res HeapError ScopedPointers := do
  require (s.heap.revision = 0 ∧ s.activeSlotsEnd = 0 ∧ s.activeScopesEnd = 0 ∧
    s.heap.reservedBytes = 0 ∧ (s.heap.accounts.any (·.isSome)) = false ∧
    (s.heap.cleanup.any (·.isSome)) = false ∧ (s.heap.workers.any (·.isSome)) = false) .busy
  let total ← s.totalReservedBytes
  let remaining ← minus s.heap.limit total
  require (additional ≤ remaining) (.capacity .globalBytes)
  let fixedBytes ← plus s.heap.fixedBytes additional
  return { s with heap := { s.heap with fixedBytes } }

end ScopedPointers

end Anka
