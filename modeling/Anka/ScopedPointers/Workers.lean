import Anka.ScopedPointers.Custody

/-!
# The pointer registry: cleanup workers (`heap/workers.rs` and its submodules)

Roles and leases on queued jobs, retirement of a closed lifetime, the scrub's progress, fenced
recovery, and the exact return of extents and charge.
-/

namespace Anka

open Rust Res

/-- A worker's right to a job. -/
structure CleanupLease where
  reservation : HeapReservation
  worker : CleanupWorker
  epoch : Nat
  deriving DecidableEq

/-- What a claim commits. -/
structure HeapWorkerClaimPlan where
  closure : HeapClosurePlan
  cleanup : Nat
  prior : JobLease
  lease : CleanupLease
  revision : Nat

/-- Exact observation of a cleanup job under a lease. -/
structure HeapCleanupStatus where
  lease : CleanupLease
  job : CleanupRecord
  deriving DecidableEq

/-- What a scrub commits. -/
structure HeapCleanupPlan where
  closure : HeapClosurePlan
  lease : CleanupLease
  cleanup : Nat
  prior : CleanupRecord
  next : CleanupRecord
  revision : Nat

/-- What a release commits. -/
structure HeapReleasePlan where
  cleanup : HeapCleanupPlan
  placement : HeapPlacement.Refund
  rounded : Nat
  accountReserved : Nat

/-- What a recovery commits. -/
structure HeapWorkerRecoveryPlan where
  closure : HeapClosurePlan
  cleanup : Nat
  prior : CleanupRecord
  nextLease : JobLease
  nextVersion : Nat
  revision : Nat

/-- What a retirement commits. -/
structure HeapRetirementPlan where
  closure : HeapClosurePlan
  lease : CleanupLease
  cleanup : Nat
  revision : Nat

/-- The bytes that are clean (cleanup.rs 23). -/
def HeapCleanupStatus.done (status : HeapCleanupStatus) (rounded : Nat) : Nat :=
  match status.job.progress with
  | .pending => 0
  | .scrubbing done => done
  | .clean => rounded

namespace ScopedPointers

variable (s : ScopedPointers)

/-! ## Roles -/

/-- The row of a worker (workers.rs 118). -/
def worker (handle : CleanupWorker) : Res HeapError WorkerRecord := do
  let index ← okOr (checkedSub handle.row 1) .worker
  okOr (s.heap.workers[index]?.join.filter fun r => handle.serial != 0 && r.handle == handle)
    .worker

/-- The worker is active and is who it says (workers.rs 128). -/
def currentWorker (handle : CleanupWorker) (identity : CleanupWorkerIdentity) :
    Res HeapError Unit := do
  let row ← s.worker handle
  require (row.state = .active ∧ identity.context ≠ 0 ∧ row.identity = identity) .worker

/-- Admits a worker (workers.rs 142). -/
def enrollCleanupWorkerRecord (identity : CleanupWorkerIdentity) (expected : Nat) :
    Res HeapError (CleanupWorker × ScopedPointers) := do
  require (expected = s.heap.revision ∧ expected ≠ u64Max) .staleRevision
  require (identity.context ≠ 0 ∧
    (s.heap.workers.any fun r => r.any fun r => r.identity.process == identity.process) = false)
    .worker
  require (s.heap.nextWorker ≠ 0 ∧ s.heap.nextWorker ≠ u64Max) (.capacity .identity)
  let index ← okOr (freeRow s.heap.workers) (.capacity .workers)
  let handle : CleanupWorker := { row := index % 2 ^ 32 + 1, serial := s.heap.nextWorker }
  let nextWorker ← plus s.heap.nextWorker 1
  let row : WorkerRecord := { handle, identity, state := .active }
  let s := { s with heap := { s.heap with
    nextWorker, workers := s.heap.workers.set index (some row) } }
  return (handle, s.advance)

/-- A worker gets no more jobs (workers.rs 277). -/
def fenceCleanupWorkerRecord (handle : CleanupWorker) : Res HeapError ScopedPointers := do
  let row ← s.worker handle
  require (row.state = .active) .worker
  let workers := s.heap.workers.set (handle.row - 1) (some { row with state := .fenced })
  return { s with heap := { s.heap with workers } }.advance

/-- Forgets a fenced worker (workers.rs 296). -/
def removeCleanupWorkerRecord (handle : CleanupWorker) : Res HeapError ScopedPointers := do
  let row ← s.worker handle
  require (row.state = .fenced) .worker
  require ((s.heap.cleanup.any fun job => job.any fun job => job.lease.refersTo handle) = false)
    .busy
  let workers := s.heap.workers.set (handle.row - 1) none
  return { s with heap := { s.heap with workers } }.advance

/-! ## Leases -/

/-- Plans to give a job (workers.rs 186). -/
def prepareHeapWorkerClaim (handle : CleanupWorker) (identity : CleanupWorkerIdentity)
    (r : HeapReservation) (owner : AllocationOwner) (expected : Nat) :
    Res HeapError HeapWorkerClaimPlan := do
  require (expected = s.heap.revision ∧ expected ≠ u64Max) .staleRevision
  s.currentWorker handle identity
  let closure ← s.prepareAttachedHeapClosure r owner
  let record ← s.reservationRecord r
  check (record.cleanup < s.heap.cleanup.length)
  let job ← okOr s.heap.cleanup[record.cleanup]?.join .staleReservation
  let slot ← s.slotAt r.slot
  require (slot.state.isPending = true ∧ job.queued = true ∧ job.progress = .pending) .busy
  let epoch ← okOr job.lease.unowned? .lease
  let epoch ← okOr (checkedAdd epoch 1) (.capacity .identity)
  return { closure, cleanup := record.cleanup, prior := job.lease,
           lease := { reservation := r, worker := handle, epoch }, revision := expected }

/-- Gives it (workers.rs 230). -/
def commitHeapWorkerClaim {ε : Type} (s : ScopedPointers) (plan : HeapWorkerClaimPlan) :
    Res ε (CleanupLease × ScopedPointers) := do
  check (s.heap.revision = plan.revision)
  let job ← unwrap s.heap.cleanup[plan.cleanup]?.join
  check (job.reservation = plan.lease.reservation)
  check (job.queued = true)
  check (job.lease = plan.prior)
  let job := { job with lease := .held plan.lease.epoch plan.lease.worker }
  let cleanup := s.heap.cleanup.set plan.cleanup (some job)
  return (plan.lease, { s with heap := { s.heap with cleanup } }.advance)

/-- The lease is the job's (workers.rs 249). -/
def prepareHeapWorkerLease (lease : CleanupLease) (identity : CleanupWorkerIdentity)
    (owner : AllocationOwner) : Res HeapError HeapClosurePlan := do
  s.currentWorker lease.worker identity
  let plan ← s.prepareAttachedHeapClosure lease.reservation owner
  let record ← s.reservationRecord lease.reservation
  check (record.cleanup < s.heap.cleanup.length)
  let job ← okOr s.heap.cleanup[record.cleanup]?.join .staleReservation
  let slot ← s.slotAt lease.reservation.slot
  require (slot.state.isPending = true ∧ job.queued = true ∧ lease.epoch ≠ 0 ∧
    job.lease = .held lease.epoch lease.worker) .lease
  return plan

/-! ## Recovery -/

/-- `prepare_worker_transition`: revoke a held lease, or recover a revoking one once its worker
is fenced. -/
def prepareWorkerTransition (lease : CleanupLease) (owner : AllocationOwner) (recover : Bool) :
    Res HeapError HeapWorkerRecoveryPlan := do
  let worker ← s.worker lease.worker
  let closure ← s.prepareAttachedHeapClosure lease.reservation owner
  let record ← s.reservationRecord lease.reservation
  check (record.cleanup < s.heap.cleanup.length)
  let job ← okOr s.heap.cleanup[record.cleanup]?.join .staleReservation
  let slot ← s.slotAt lease.reservation.slot
  require (slot.state.isPending = true ∧ job.queued = true) .busy
  let expected := if recover then JobLease.revoking lease.epoch lease.worker
    else .held lease.epoch lease.worker
  require (lease.epoch ≠ 0 ∧ job.lease = expected) .lease
  require (recover = true → worker.state = .fenced) .worker
  let nextVersion ← okOr (if recover then checkedAdd job.version 1 else some job.version)
    (.capacity .identity)
  let nextLease := if recover then JobLease.unowned lease.epoch
    else .revoking lease.epoch lease.worker
  return { closure, cleanup := record.cleanup, prior := job, nextLease, nextVersion,
           revision := s.heap.revision }

/-- Takes the job back (recovery.rs 108). -/
def commitHeapWorkerRecovery {ε : Type} (s : ScopedPointers) (plan : HeapWorkerRecoveryPlan) :
    Res ε ScopedPointers := do
  check (s.heap.revision = plan.revision)
  check (s.heap.cleanup[plan.cleanup]? = some (some plan.prior))
  let progress := match plan.nextLease with
    | .unowned _ => .pending
    | _ => plan.prior.progress
  let job := { plan.prior with
    lease := plan.nextLease, version := plan.nextVersion, progress }
  let cleanup := s.heap.cleanup.set plan.cleanup (some job)
  return { s with heap := { s.heap with cleanup } }.advance

/-! ## Retirement -/

/-- Plans a retirement (retirement.rs 21). -/
def prepareHeapRetirement (lease : CleanupLease) (identity : CleanupWorkerIdentity)
    (owner : AllocationOwner) : Res HeapError HeapRetirementPlan := do
  let closure ← s.prepareHeapWorkerLease lease identity owner
  require (closure.stage ≠ .retired) .lease
  let record ← s.reservationRecord lease.reservation
  return { closure, lease, cleanup := record.cleanup, revision := s.heap.revision }

/-- `local_backing_references`: any local record, live or not, backed by the object. -/
def localBackingReferences (object : ObjectId) : Bool :=
  s.slots.any fun slot => slot.local?.any fun a => a.backing.any fun b => b.object == object

/-- Retires (retirement.rs 52). -/
def commitHeapRetirement {ε : Type} (s : ScopedPointers) (plan : HeapRetirementPlan) :
    Res ε ScopedPointers := do
  check (s.heap.revision = plan.revision)
  let job ← unwrap s.heap.cleanup[plan.cleanup]?.join
  check (job.reservation = plan.lease.reservation)
  check (job.queued = true)
  check (job.lease = .held plan.lease.epoch plan.lease.worker)
  let slot ← s.slotAt plan.lease.reservation.slot
  check (slot.generation = plan.lease.reservation.generation)
  check (slot.state = .closing)
  let slots := s.slots.set plan.lease.reservation.slot { slot with state := .retired }
  return { s with slots }.advance

/-! ## Scrub and release -/

/-- Plans a step of the scrub (cleanup.rs 75). -/
def prepareRetiredCleanup (lease : CleanupLease) (identity : CleanupWorkerIdentity)
    (owner : AllocationOwner) (expected : Option HeapCleanupStatus) :
    Res HeapError HeapCleanupPlan := do
  let closure ← s.prepareHeapWorkerLease lease identity owner
  require (closure.stage = .retired) .busy
  let record ← s.reservationRecord lease.reservation
  check (record.cleanup < s.heap.cleanup.length)
  let prior ← okOr s.heap.cleanup[record.cleanup]?.join .staleReservation
  require ((expected.all fun status => status == { lease, job := prior }) = true) .staleCleanup
  return { closure, lease, cleanup := record.cleanup, prior, next := prior,
           revision := s.heap.revision }

/-- Plans its beginning (cleanup.rs 101). -/
def prepareHeapScrubBegin (lease : CleanupLease) (identity : CleanupWorkerIdentity)
    (owner : AllocationOwner) : Res HeapError HeapCleanupPlan := do
  let plan ← s.prepareRetiredCleanup lease identity owner none
  require (plan.prior.progress = .pending) .busy
  return { plan with next := { plan.next with progress := .scrubbing 0 } }

/-- Plans one chunk (cleanup.rs 115). -/
def prepareHeapScrubChunk (status : HeapCleanupStatus) (identity : CleanupWorkerIdentity)
    (owner : AllocationOwner) (amount : Nat) : Res HeapError HeapCleanupPlan := do
  let plan ← s.prepareRetiredCleanup status.lease identity owner (some status)
  let done ← okOr plan.prior.progress.scrubbing? .busy
  let rounded := plan.closure.extents.physical.size
  require (amount ≠ 0 ∧ amount ≤ 4096 ∧ amount % 16 = 0) .size
  let left ← minus rounded done
  require (amount ≤ left) .size
  let version ← okOr (checkedAdd plan.prior.version 1) (.capacity .identity)
  let sequence ← okOr (checkedAdd plan.prior.sequence 1) (.capacity .identity)
  let reached ← plus done amount
  let progress := if reached = rounded then .clean else .scrubbing reached
  return { plan with next := { plan.next with version, sequence, progress } }

/-- Nothing has changed since the plan (cleanup.rs 148). -/
def checkCleanupCommit {ε : Type} (s : ScopedPointers) (plan : HeapCleanupPlan) :
    Res ε Unit := do
  check (s.heap.revision = plan.revision)
  check (s.heap.cleanup[plan.cleanup]? = some (some plan.prior))
  let slot ← s.slotAt plan.lease.reservation.slot
  check (slot.state = .retired)
  check (slot.generation = plan.lease.reservation.generation)

/-- Scrubs as planned (cleanup.rs 161). -/
def commitHeapScrub {ε : Type} (s : ScopedPointers) (plan : HeapCleanupPlan) :
    Res ε (HeapCleanupStatus × ScopedPointers) := do
  s.checkCleanupCommit plan
  let cleanup := s.heap.cleanup.set plan.cleanup (some plan.next)
  return ({ lease := plan.lease, job := plan.next },
    { s with heap := { s.heap with cleanup } }.advance)

/-- Plans the release (cleanup.rs 171). -/
def prepareHeapRelease (status : HeapCleanupStatus) (identity : CleanupWorkerIdentity)
    (owner : AllocationOwner) : Res HeapError HeapReleasePlan := do
  let cleanup ← s.prepareRetiredCleanup status.lease identity owner (some status)
  require (status.job.progress = .clean) .busy
  let reservation := cleanup.closure.reservation
  let record ← s.reservationRecord reservation
  let account ← s.account reservation.owner
  let p ← okOr s.heap.placement .configuration
  let placement ← p.prepareCancel reservation cleanup.closure.extents cleanup.revision
  return { cleanup, placement, rounded := record.rounded, accountReserved := account.reserved }

/-- Releases (cleanup.rs 201). -/
def commitHeapRelease (plan : HeapReleasePlan) : Res HeapError ScopedPointers := do
  s.checkCleanupCommit plan.cleanup
  let reservation := plan.cleanup.closure.reservation
  let row ← unwrap s.heap.accounts[reservation.owner.index]?.join
  check (row.reserved = plan.accountReserved)
  let p ← unwrap s.heap.placement
  let p ← p.commitCancel reservation.owner plan.placement plan.cleanup.revision
  s.releaseLifetime reservation reservation.owner plan.cleanup.cleanup plan.rounded (some p)

end ScopedPointers

end Anka
