import Anka.Fabric.HeapStaging

/-!
# The Fabric: cleanup workers (`heap/workers.rs` and its submodules)

A worker claims a closed lifetime, retires it once nothing of it is in use, zeroes its extent in
aligned chunks and releases it. A supervisor can revoke the lease of a worker at any time and
recover the job, which then starts over.

`CurrentHeapRetirement` is the kernel's descriptor of the worker with a census of all processes for
one object. Its values are arbitrary here, and so are snapshots and leases.
-/

namespace Anka

open Rust Res

/-- The worker and the object it retires. -/
structure CurrentHeapRetirement where
  worker : CurrentHeapProcess
  object : ObjectId

/-- `HeapCleanupSnapshot`: the row and the job as their holder saw them. -/
structure HeapCleanupSnapshot where
  row : PrivateHeapRow
  status : HeapCleanupStatus

namespace Fabric

variable (f : Fabric)

/-! ## Roles and leases -/

variable (current : CurrentHeapRetirement) (snapshot : HeapCleanupSnapshot)

/-- The worker that a process describes (workers.rs 39). -/
def checkedCleanupDescriptor (current : CurrentHeapProcess) :
    Res HeapError CleanupWorkerIdentity := do
  require (f.privateHeap.isSome = true ∧
    f.currentProcess current.context current.domain current.agent = true) .worker
  return current.identity

/-- Admits a cleanup worker (workers.rs 60). -/
def enrollHeapCleanupWorker (current : CurrentHeapProcess) (expected : Nat) :
    Res HeapError (CleanupWorker × Fabric) := do
  let identity ← f.checkedCleanupDescriptor current
  let (worker, scopedPointers) ← f.scopedPointers.enrollCleanupWorkerRecord identity expected
  return (worker, { f with scopedPointers })

/-- Gives a worker a job (workers.rs 70). -/
def claimHeapCleanupJob (current : CurrentHeapProcess) (worker : CleanupWorker)
    (reservation : HeapReservation) (owner : AllocationOwner) (object : ObjectId) (expected : Nat) :
    Res HeapError (CleanupLease × Fabric) := do
  let identity ← f.checkedCleanupDescriptor current
  let plan ← f.scopedPointers.prepareHeapWorkerClaim worker identity reservation owner expected
  f.checkAttachedHeapCustody plan.closure object
  let (lease, scopedPointers) ← f.scopedPointers.commitHeapWorkerClaim plan
  return (lease, { f with scopedPointers })

/-! ## Retirement -/

/-- Takes an object's authority away (retirement.rs 5). -/
def retireHeapAuthority (lease : CleanupLease) (owner : AllocationOwner) :
    Res HeapError Fabric := do
  let identity ← f.checkedCleanupDescriptor current.worker
  let plan ← f.scopedPointers.prepareHeapRetirement lease identity owner
  f.checkHeapCleanupDrain plan.closure current.object
  let scopedPointers ← f.scopedPointers.commitHeapRetirement plan
  return { f with scopedPointers }

/-! ## Scrub and release -/

/-- Starts to scrub (cleanup.rs 33). -/
def beginHeapScrub (lease : CleanupLease) (owner : AllocationOwner) :
    Res HeapError (HeapCleanupSnapshot × Fabric) := do
  let identity ← f.checkedCleanupDescriptor current.worker
  let plan ← f.scopedPointers.prepareHeapScrubBegin lease identity owner
  f.checkHeapCleanupDrain plan.closure current.object
  let heap ← unwrap f.privateHeap
  let row ← unwrap heap.rows[plan.closure.reservation.slot]?.join
  let (status, scopedPointers) ← f.scopedPointers.commitHeapScrub plan
  return ({ row, status }, { f with scopedPointers })

/-- The row is the snapshot's (cleanup.rs 49). -/
def checkCleanupSnapshotRow (plan : HeapClosurePlan) : Res HeapError Unit := do
  require (current.object = snapshot.row.object) .staleCleanup
  f.checkHeapCleanupDrain plan current.object
  let heap ← unwrap f.privateHeap
  let row ← unwrap heap.rows[plan.reservation.slot]?
  require (row = some snapshot.row) .staleCleanup

/-- `scrub_heap_chunk`: one aligned chunk of the extent is zeroed and untagged. -/
def scrubHeapChunk (amount : Nat) : Res HeapError (HeapCleanupSnapshot × Fabric) := do
  let identity ← f.checkedCleanupDescriptor current.worker
  let plan ← f.scopedPointers.prepareHeapScrubChunk snapshot.status identity snapshot.row.owner
    amount
  f.checkCleanupSnapshotRow current snapshot plan.closure
  let extents := plan.closure.extents
  let before : HeapCleanupStatus := { lease := plan.lease, job := plan.prior }
  let offset := before.done extents.physical.size
  let span ← f.checkedHeapBackingSpan extents.physical.size extents offset amount false
  let f ← f.writeHeap span (List.replicate (span.stop - span.start) 0) (untag span)
  let (status, scopedPointers) ← f.scopedPointers.commitHeapScrub plan
  return ({ row := snapshot.row, status }, { f with scopedPointers })

/-- `release_clean_heap`: extents, charge, job and row go back at once. -/
def releaseCleanHeap : Res HeapError Fabric := do
  let identity ← f.checkedCleanupDescriptor current.worker
  let plan ← f.scopedPointers.prepareHeapRelease snapshot.status identity snapshot.row.owner
  f.checkCleanupSnapshotRow current snapshot plan.cleanup.closure
  let slot := plan.cleanup.closure.reservation.slot
  let scopedPointers ← f.scopedPointers.commitHeapRelease plan
  let heap ← unwrap f.privateHeap
  let heap ← heap.removeRow slot
  return { f with scopedPointers, privateHeap := some heap }

/-! ## Recovery -/

/-- Takes a job back from a fenced worker (recovery.rs 8). -/
def revokeHeapCleanupJob (lease : CleanupLease) (owner : AllocationOwner) (object : ObjectId) :
    Res HeapError Fabric := do
  let plan ← f.scopedPointers.prepareWorkerTransition lease owner false
  f.checkAttachedHeapCustody plan.closure object
  let scopedPointers ← f.scopedPointers.commitHeapWorkerRecovery plan
  return { f with scopedPointers }

/-- Frees a job whose worker is gone (recovery.rs 24). -/
def recoverHeapCleanupJob (lease : CleanupLease) (owner : AllocationOwner) (object : ObjectId) :
    Res HeapError Fabric := do
  let plan ← f.scopedPointers.prepareWorkerTransition lease owner true
  f.checkAttachedHeapCustody plan.closure object
  if plan.closure.stage = .retired then f.checkHeapCleanupDrain plan.closure object
  else do
    let _ ← f.heapWorkCensus plan.closure.reservation owner object
    pure ()
  require (f.heapPoolIsPrivate = true) .busy
  let scopedPointers ← f.scopedPointers.commitHeapWorkerRecovery plan
  return { f with scopedPointers }

end Fabric

end Anka
