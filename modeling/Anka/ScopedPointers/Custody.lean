import Anka.ScopedPointers.Heap

/-!
# The pointer registry: attachment, publication and closure plans

`heap/fabric.rs`, `heap/closure.rs`, `heap/cells.rs`, `heap/application.rs` and `heap/work.rs`. The
Fabric asks the registry for a plan, checks its own custody row against it, and commits; nothing
else touches the registry in between. Every plan re-authenticates the lifetime, its cleanup row,
both extents and the charges (`checkCharges`).
-/

namespace Anka

open Rust Res

/-- What an attachment commits. -/
structure HeapAttachmentPlan where
  reservation : HeapReservation
  owner : AllocationOwner
  logical : Nat
  extents : HeapExtents
  revision : Nat

/-- The payload of the reserved row; no authority until publication. -/
def HeapAttachmentPlan.pointer (plan : HeapAttachmentPlan) : ScopedPointer :=
  { slot := plan.reservation.slot, generation := plan.reservation.generation, position := 0 }

/-- What closing found. -/
inductive HeapCloseOutcome where
  | closed
  | alreadyClosing
  | alreadyRetired

/-- What a closure commits. -/
structure HeapClosurePlan where
  reservation : HeapReservation
  owner : AllocationOwner
  logical : Nat
  writable : Bool
  extents : HeapExtents
  cleanup : Nat
  stage : SlotState
  revision : Nat

/-- What an access found. -/
structure HeapPointerPlan where
  reservation : HeapReservation
  owner : AllocationOwner
  logical : Nat
  writable : Bool
  extents : HeapExtents
  position : Nat

/-- `rights` of a closure or pointer plan. -/
def heapRights (writable : Bool) : Permissions := if writable then .RW else .READ

namespace ScopedPointers

variable (s : ScopedPointers)

/-! ## Attachment and initialization -/

variable (r : HeapReservation) (currentOwner : AllocationOwner)

/-- `prepare_heap_private`: exact private custody, attached or not yet. -/
def prepareHeapPrivate (expectedRevision : Nat) (attached : Bool) :
    Res HeapError HeapAttachmentPlan := do
  let account ← s.account r.owner
  require (account.owner = currentOwner) .owner
  require (account.closed = false) .closed
  require (expectedRevision = s.heap.revision) .staleRevision
  require (s.heap.revision ≠ u64Max) (.capacity .identity)
  let record ← s.reservationRecord r
  let slot ← s.slotAt r.slot
  require (slot.state = .reserved ∧ record.everAttached = attached ∧ record.published = false) .busy
  check (record.cleanup < s.heap.cleanup.length)
  require ((s.heap.cleanup[record.cleanup]?.join.any fun job => !job.queued) = true) .busy
  let extents ← s.reservedExtents r
  s.checkCharges record account extents
  return { reservation := r, owner := account.owner, logical := record.logical, extents,
           revision := s.heap.revision }

/-- Plans an attachment (fabric.rs 61). -/
def prepareHeapAttachment (expectedRevision : Nat) : Res HeapError HeapAttachmentPlan :=
  s.prepareHeapPrivate r currentOwner expectedRevision false

/-- Plans an initialization (fabric.rs 72). -/
def prepareHeapInitialization (expectedRevision : Nat) : Res HeapError HeapAttachmentPlan :=
  s.prepareHeapPrivate r currentOwner expectedRevision true

/-- Attaches as planned (fabric.rs 132). -/
def commitHeapAttachment {ε : Type} (s : ScopedPointers) (plan : HeapAttachmentPlan) :
    Res ε ScopedPointers := do
  check (plan.revision = s.heap.revision)
  let slot ← s.slotAt plan.reservation.slot
  let record ← unwrap slot.heap?
  let slot := { slot with record := .heap { record with everAttached := true } }
  return { s with slots := s.slots.set plan.reservation.slot slot }.advance

/-- Initializes as planned (fabric.rs 146). -/
def commitHeapInitialization {ε : Type} (s : ScopedPointers) (plan : HeapAttachmentPlan) :
    Res ε ScopedPointers := do
  check (plan.revision = s.heap.revision)
  return s.advance

/-- `commit_heap_image_publication`: rights are fixed at first publication. -/
def commitHeapImagePublication {ε : Type} (s : ScopedPointers) (plan : HeapAttachmentPlan)
    (writable : Bool) : Res ε (ScopedPointer × ScopedPointers) := do
  check (plan.revision = s.heap.revision)
  let slot ← s.slotAt plan.reservation.slot
  check (slot.state = .reserved)
  check (slot.generation = plan.reservation.generation)
  let record ← unwrap slot.heap?
  check (record.everAttached = true ∧ record.published = false)
  let slot := { slot with
    state := .live, record := .heap { record with published := true, writable } }
  return (plan.pointer, { s with slots := s.slots.set plan.reservation.slot slot }.advance)

/-- Publishes as planned (fabric.rs 161). -/
def commitHeapPublication {ε : Type} (s : ScopedPointers) (plan : HeapAttachmentPlan) :
    Res ε (ScopedPointer × ScopedPointers) :=
  s.commitHeapImagePublication plan true

/-! ## Closure -/

/-- The progress fits the state of the slot. -/
def progressValid (stage : SlotState) (rounded : Nat) (job : CleanupRecord) : Prop :=
  match job.progress with
  | .pending => True
  | .scrubbing done => stage = .retired ∧ done < rounded ∧ done % 16 = 0
  | .clean => stage = .retired ∧ job.version ≠ 0 ∧ job.sequence ≠ 0

instance (stage : SlotState) (rounded : Nat) (job : CleanupRecord) :
    Decidable (progressValid stage rounded job) := by
  unfold progressValid
  cases job.progress <;> exact inferInstance

/-- `prepare_attached_heap_closure`: the retained lifetime, at any stage, whatever the revision. -/
def prepareAttachedHeapClosure (owner : AllocationOwner) : Res HeapError HeapClosurePlan := do
  let account ← s.account r.owner
  require (account.owner = owner) .owner
  let record ← s.reservationRecord r
  require (record.everAttached = true) .busy
  let slot ← s.slotAt r.slot
  let stage := slot.state
  check (record.cleanup < s.heap.cleanup.length)
  let job ← okOr s.heap.cleanup[record.cleanup]?.join .staleReservation
  require (job.queued = stage.isPending ∧ ¬ (account.closed = true ∧ stage.isPending = false) ∧
    ¬ (stage = .reserved ∧ record.published = true) ∧
    ¬ (stage = .live ∧ record.published = false)) .configuration
  require (progressValid stage record.rounded job) .configuration
  let extents ← s.reservedExtents r
  s.checkCharges record account extents
  return { reservation := r, owner, logical := record.logical, writable := record.writable,
           extents, cleanup := record.cleanup, stage, revision := s.heap.revision }

/-- Closes as planned (closure.rs 118). -/
def commitAttachedHeapClosure {ε : Type} (s : ScopedPointers) (plan : HeapClosurePlan) :
    Res ε (HeapCloseOutcome × ScopedPointers) := do
  check (plan.revision = s.heap.revision)
  let slot ← s.slotAt plan.reservation.slot
  let job ← unwrap s.heap.cleanup[plan.cleanup]?.join
  check (slot.generation = plan.reservation.generation)
  check (slot.state = plan.stage)
  check (job.reservation = plan.reservation)
  check (job.queued = plan.stage.isPending)
  if plan.stage = .retired then return (.alreadyRetired, s)
  if plan.stage = .closing then return (.alreadyClosing, s)
  let s := { s with
    slots := s.slots.set plan.reservation.slot { slot with state := .closing }
    heap := { s.heap with
      cleanup := s.heap.cleanup.set plan.cleanup (some { job with queued := true }) } }
  return (.closed, s.advance)

/-! ## Live heap pointers -/

/-- The slot is a heap slot (cells.rs 43). -/
def isHeapPointer (pointer : ScopedPointer) : Bool :=
  s.slots[pointer.slot]?.any fun slot => slot.heap?.isSome

/-- The allocation of a pointer (cells.rs 49). -/
def prepareHeapPointer (pointer : ScopedPointer) (currentOwner : AllocationOwner) :
    Res HeapError HeapPointerPlan := do
  let slot ← okOr s.slots[pointer.slot]? (.pointer .stale)
  require (slot.generation = pointer.generation ∧ slot.state = .live) (.pointer .stale)
  let record ← okOr slot.heap? (.pointer .stale)
  let account ← s.account record.owner
  require (account.owner = currentOwner) .owner
  require (account.closed = false) .closed
  require (record.everAttached = true ∧ record.published = true) (.pointer .stale)
  let job ← okOr s.heap.cleanup[record.cleanup]?.join .staleReservation
  let reservation := job.reservation
  require (job.queued = false ∧ reservation.slot = pointer.slot ∧
    reservation.generation = pointer.generation ∧ reservation.owner = record.owner)
    .staleReservation
  let extents ← s.reservedExtents reservation
  s.checkCharges record account extents
  require (pointer.position ≤ record.logical) (.pointer .bounds)
  return { reservation, owner := account.owner, logical := record.logical,
           writable := record.writable, extents, position := pointer.position }

/-- Moves a pointer inside its allocation (application.rs 60). -/
def addHeapPointer (pointer : ScopedPointer) (owner : AllocationOwner) (delta : Int) :
    Res HeapError ScopedPointer := do
  let plan ← s.prepareHeapPointer pointer owner
  let position ← okOr
    ((checkedAddSigned pointer.position delta).filter fun p => decide (p ≤ plan.logical))
    (.pointer .bounds)
  return { pointer with position }

/-! ## Work revisions -/

/-- `commit_heap_work_cleanup_revision` after its preparation. -/
def heapWorkCleanupRevision : ScopedPointers := s.advance

/-- Work that outlives its closure (work.rs 24). -/
def prepareRetainedHeapWork (owner : AllocationOwner) : Res HeapError HeapClosurePlan := do
  let plan ← s.prepareAttachedHeapClosure r owner
  let record ← s.reservationRecord r
  let slot ← s.slotAt r.slot
  require (record.published = true ∧ (slot.state = .live ∨ slot.state = .closing)) .staleWork
  return plan

/-- The revision after one change (work.rs 42). -/
def prepareHeapWorkRevision (expected : Nat) : Res HeapError Nat := do
  require (expected = s.heap.revision ∧ expected ≠ u64Max) .staleRevision
  return expected

/-- Takes the planned revision (work.rs 54). -/
def commitHeapWorkRevision {ε : Type} (s : ScopedPointers) (plan : Nat) :
    Res ε ScopedPointers := do
  check (s.heap.revision = plan)
  check (plan ≠ u64Max)
  return s.advance

end ScopedPointers

end Anka
