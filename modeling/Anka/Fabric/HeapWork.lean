import Anka.Fabric.Heap

/-!
# The Fabric: closure and CPU work (`heap/closure.rs`, `heap/work.rs`, `heap/work/runtime.rs`)

A CPU request is admitted into two bounded tables at once: a ledger record under a ticket, and a
backend source that pins the record and holds the payload. Both carry the same binding, the exact
lifetime, range and rights it was admitted for. It is executed or cancelled, then consumed.

`check_pins` compares the tables in both directions before every operation on them. All its failures
are `StaleWork`, so it is one test here.

`CurrentHeapProcess` is the kernel's descriptor of a running process. Its values are arbitrary here.
-/

namespace Anka

open Rust Res

/-- The descriptor of a running process: what `owner()`, `identity()` and `agent()` answer. -/
structure CurrentHeapProcess where
  key : ProcessKey
  context : Nat
  domain : DomainId
  agent : AgentId

namespace CurrentHeapProcess

/-- The owner that the process is. -/
def owner (p : CurrentHeapProcess) : AllocationOwner :=
  { process := p.key, context := p.context, domain := p.domain }

/-- The worker that the process is. -/
def identity (p : CurrentHeapProcess) : CleanupWorkerIdentity :=
  { process := p.key, context := p.context, domain := p.domain }

end CurrentHeapProcess

/-- work.rs 11. -/
def MAX_CPU_BYTES : Nat := 4096

/-- How a request ended. -/
inductive HeapWorkOutcome where
  | committed
  | cancelled

/-- What `finish_heap_cpu_work` answers: a prepared request is not terminal. -/
def CpuRequestState.outcome : CpuRequestState → Res HeapError HeapWorkOutcome
  | .prepared => err .workState
  | .committed => ok .committed
  | .cancelled => ok .cancelled

/-- `PreparedPair`: both rows of one admission. -/
structure PreparedPair where
  record : WorkRecord
  request : CpuRequest

/-- The range of a binding: nonempty, bounded, inside the logical allocation. -/
def WorkBinding.InRange (b : WorkBinding) : Prop :=
  b.length ≠ 0 ∧ b.length ≤ MAX_CPU_BYTES ∧ b.offset ≤ b.logical ∧ b.length ≤ b.logical - b.offset ∧
    b.offset + b.length ≤ u64Max
  deriving Decidable

namespace HeapCpuWork

variable {ε : Type} (w : HeapCpuWork)

/-- The request of a source slot. -/
def requestAt (index : Nat) : Option CpuRequest :=
  w.sources[index]?.bind (·.request)

/-- `checked_record`: the ticket's record and its source agree on everything. -/
def checkedRecord (ticket : HeapWorkTicket) : Res HeapError WorkRecord := do
  let index ← okOr (checkedSub ticket.row 1) .staleWork
  let record ← okOr w.records[index]?.join .staleWork
  require (ticket.operation ≠ 0 ∧ ticket = record.ticket) .staleWork
  let slot ← okOr w.sources[record.source.index]? .staleWork
  let source ← okOr slot.request .staleWork
  require (source.key = record.source ∧ source.pin = ticket ∧ source.binding = record.binding ∧
    slot.nextGeneration = checkedAdd source.key.generation 1 ∧ record.binding.InRange) .staleWork
  return record

/-- Every record names its row and has its source. -/
def recordsPinned : Bool :=
  w.records.zipIdx.all fun row => row.1.all fun record =>
    record.ticket.row == row.2 + 1 && (w.checkedRecord record.ticket).isOkAnd fun _ => true

/-- Every source names its slot and has its record. -/
def sourcesPinned : Bool :=
  w.sources.zipIdx.all fun row => row.1.request.all fun source =>
    source.key.index == row.2 &&
      (w.checkedRecord source.pin).isOkAnd fun record => record.source == source.key

/-- The tables have not moved (work.rs 194). -/
def checkPins : Res HeapError Unit :=
  require (w.recordsPinned = true ∧ w.sourcesPinned = true) .staleWork

/-- The payload of a request: the input of a write, zeros for a read. -/
def payloadFor (binding : WorkBinding) (write : Option (List UInt8)) :
    Res HeapError (List UInt8) :=
  match binding.access, write with
  | .write, some bytes => do
    require (bytes.length = binding.length ∧ bytes.length ≤ MAX_CPU_BYTES) .configuration
    return overwrite (List.replicate MAX_CPU_BYTES 0) 0 bytes
  | .read, none => ok (List.replicate MAX_CPU_BYTES 0)
  | _, _ => err .configuration

/-- `prepare`: a free row in each table, and the next identities. -/
def prepare (binding : WorkBinding) (write : Option (List UInt8)) :
    Res HeapError PreparedPair := do
  w.checkPins
  require (w.nextOperation ≠ 0 ∧ w.nextOperation ≠ u64Max) (.capacity .identity)
  let request ← okOr w.nextRequest (.capacity .identity)
  let ledger ← okOr (freeRow w.records) (.capacity .workTickets)
  let source ← okOr
    (w.sources.findIdx? fun s => s.request.isNone && s.nextGeneration.isSome)
    (.capacity .backendRequests)
  -- `ledger as u32 + 1` overflows only at the last value of the width
  check (ledger % 2 ^ 32 < u32Max)
  let ticket : HeapWorkTicket := { row := ledger % 2 ^ 32 + 1, operation := w.nextOperation }
  let generation ← unwrap (w.sources[source]?.bind (·.nextGeneration))
  let key : CpuSourceKey := { index := source % 2 ^ 32, generation, request }
  let payload ← payloadFor binding write
  return { record := { ticket, source := key, binding }
           request := { key, pin := ticket, binding, payload, state := .prepared } }

/-- `commit`: both rows are written, and the identities move on. -/
def commit (plan : PreparedPair) : Res ε (HeapWorkTicket × HeapCpuWork) := do
  let ticket := plan.record.ticket
  let key := plan.record.source
  let index ← minus ticket.row 1
  check (ticket.operation = w.nextOperation)
  check (w.nextRequest = some key.request)
  check (w.records[index]? = some none)
  let source ← unwrap w.sources[key.index]?
  check (source.request = none)
  check (source.nextGeneration = some key.generation)
  let nextOperation ← plus w.nextOperation 1
  return (ticket, { w with
    records := w.records.set index (some plan.record)
    sources := w.sources.set key.index
      { nextGeneration := checkedAdd key.generation 1, request := some plan.request }
    nextOperation
    nextRequest := checkedAdd key.request 1 })

/-- The request of a source takes another state and payload. -/
def settle (index : Nat) (payload : List UInt8 → List UInt8) (state : CpuRequestState) :
    Res ε HeapCpuWork := do
  let slot ← unwrap w.sources[index]?
  let request ← unwrap slot.request
  let settled : CpuRequest := { request with payload := payload request.payload, state := state }
  return { w with sources := w.sources.set index { slot with request := some settled } }

/-- Both rows of a ticket are emptied; no identity goes back. -/
def remove (record : WorkRecord) : Res ε HeapCpuWork := do
  let slot ← unwrap w.sources[record.source.index]?
  let _ ← unwrap slot.request
  let index ← minus record.ticket.row 1
  check (index < w.records.length)
  return { w with
    sources := w.sources.set record.source.index { slot with request := none }
    records := w.records.set index none }

end HeapCpuWork

namespace Fabric

variable (f : Fabric)

/-! ## Custody and closure -/

variable (current : CurrentHeapProcess) (ticket : HeapWorkTicket)

/-- The row agrees with the closure (closure.rs 35). -/
def checkAttachedHeapCustody (plan : HeapClosurePlan) (object : ObjectId) :
    Res HeapError Unit := do
  let heap ← okOr f.privateHeap .configuration
  let row ← okOr heap.rows[plan.reservation.slot]?.join .staleReservation
  require (row.reservation = plan.reservation ∧ row.owner = plan.owner ∧ row.object = object ∧
    row.objectGeneration = ⟨0⟩ ∧ row.object.raw < heap.objectIdFloor ∧ row.logical = plan.logical ∧
    row.extents = plan.extents ∧ row.plannedRights = heapRights plan.writable) .staleReservation
  heap.checkExtents row.extents
  require (row.extents.physical.endAddr.any (fun stop => decide (stop ≤ f.memory.length)) = true)
    .configuration

/-- Closes an attached allocation (closure.rs 19). -/
def closeAttachedHeap (reservation : HeapReservation) (owner : AllocationOwner)
    (object : ObjectId) : Res HeapError (HeapCloseOutcome × Fabric) := do
  let plan ← f.scopedPointers.prepareAttachedHeapClosure reservation owner
  f.checkAttachedHeapCustody plan object
  let (outcome, scopedPointers) ← f.scopedPointers.commitAttachedHeapClosure plan
  return (outcome, { f with scopedPointers })

/-! ## Admission -/

/-- `self.private_heap.as_ref().and_then(|h| h.work.as_ref())`. -/
def heapWork : Option HeapCpuWork := f.privateHeap.bind (·.work)

/-- The work tables of the private heap, replaced. -/
def withHeapCpuWork {ε : Type} (f : Fabric) (work : HeapCpuWork) : Res ε Fabric := do
  let heap ← unwrap f.privateHeap
  return { f with privateHeap := some { heap with work := some work } }

/-- The domain and the agent of a process are current, under their own names. -/
def currentProcess (context : Nat) (domain : DomainId) (agent : AgentId) : Bool :=
  context != 0 && (f.domains.get domain).any (fun d => d.id == domain) &&
    (f.agents.get agent).any fun a => a.id == agent && a.domain == domain && a.kind.isCpu

/-- The plan of a request (work.rs 293). -/
def prepareHeapCpuWork (pointer : Option ScopedPointer) (length : Nat) (write : Option (List UInt8))
    (expected : Nat) : Res HeapError (Nat × PreparedPair) := do
  let work ← okOr f.heapWork .configuration
  let revision ← f.scopedPointers.prepareHeapWorkRevision expected
  require (f.currentProcess current.context current.domain current.agent = true) .owner
  let pointer ← okOr pointer .missingKind
  let live ← f.checkedLiveHeap current.owner current.agent pointer
  require (write.isSome = true → live.row.plannedRights = .RW) (.pointer .rights)
  let _ ← f.checkedHeapSpan live length false
  let binding : WorkBinding :=
    { reservation := live.pointer.reservation, owner := current.owner, object := live.row.object
      objectGeneration := live.row.objectGeneration, logical := live.row.logical
      extents := live.row.extents, rights := live.row.plannedRights, agent := current.agent
      offset := live.pointer.position, length
      access := if write.isSome = true then .write else .read }
  let pair ← work.prepare binding write
  return (revision, pair)

/-- Enters a planned request (work.rs 371). -/
def commitHeapCpuWork {ε : Type} (f : Fabric) (revision : Nat) (pair : PreparedPair) :
    Res ε (HeapWorkTicket × Fabric) := do
  let work ← unwrap f.heapWork
  let (ticket, work) ← work.commit pair
  let f ← f.withHeapCpuWork work
  let scopedPointers ← f.scopedPointers.commitHeapWorkRevision revision
  return (ticket, { f with scopedPointers })

/-- A read request (work.rs 348). -/
def registerHeapCpuRead (pointer : Option ScopedPointer) (length expected : Nat) :
    Res HeapError (HeapWorkTicket × Fabric) := do
  let (revision, pair) ← f.prepareHeapCpuWork current pointer length none expected
  f.commitHeapCpuWork revision pair

/-- A write request (work.rs 359). -/
def registerHeapCpuWrite (pointer : Option ScopedPointer) (bytes : List UInt8) (expected : Nat) :
    Res HeapError (HeapWorkTicket × Fabric) := do
  let (revision, pair) ← f.prepareHeapCpuWork current pointer bytes.length (some bytes) expected
  f.commitHeapCpuWork revision pair

/-! ## Execution and consumption -/

/-- `check_retained_work_record`: the binding still names the retained allocation. -/
def checkRetainedWorkRecord (record : WorkRecord) : Res HeapError Unit := do
  let b := record.binding
  let plan ← f.scopedPointers.prepareRetainedHeapWork b.reservation b.owner
  f.checkAttachedHeapCustody plan b.object
  require (b.objectGeneration = ⟨0⟩ ∧ b.rights = heapRights plan.writable ∧
    (b.access = .write → b.rights = .RW) ∧ b.logical = plan.logical ∧ b.extents = plan.extents)
    .staleWork

/-- The record of a ticket (runtime.rs 47). -/
def checkedWorkRecord : Res HeapError (HeapCpuWork × WorkRecord) := do
  let work ← okOr f.heapWork .configuration
  work.checkPins
  let record ← work.checkedRecord ticket
  f.checkRetainedWorkRecord record
  return (work, record)

/-- The effect of a request: a read is captured in its payload, a write goes to memory and untags
every cell it meets. -/
def workEffect {ε : Type} (f : Fabric) (work : HeapCpuWork) (record : WorkRecord)
    (request : CpuRequest) (span : HeapSpan) : Res ε (Fabric × HeapCpuWork) :=
  match record.binding.access with
  | .read => do
    let bytes := slice f.memory span.start (span.stop - span.start)
    let work ← work.settle record.source.index (overwrite · 0 bytes) .committed
    return (f, work)
  | .write => do
    let f ← f.writeHeap span (request.payload.take record.binding.length) (untag span)
    let work ← work.settle record.source.index id .committed
    return (f, work)

/-- `execute_heap_cpu_work`: the effect, then the terminal state. -/
def executeHeapCpuWork : Res HeapError Fabric := do
  let (work, record) ← f.checkedWorkRecord ticket
  let request ← unwrap (work.requestAt record.source.index)
  require (request.state = .prepared) .workState
  require (f.heapPoolIsPrivate = true) .busy
  let b := record.binding
  let span ← f.checkedHeapBackingSpan b.logical b.extents b.offset b.length false
  let (f, work) ← f.workEffect work record request span
  let f ← f.withHeapCpuWork work
  return { f with scopedPointers := f.scopedPointers.heapWorkCleanupRevision }

/-- Gives a request up (runtime.rs 128). -/
def cancelHeapCpuWork : Res HeapError Fabric := do
  let (work, record) ← f.checkedWorkRecord ticket
  let request ← unwrap (work.requestAt record.source.index)
  require (request.state = .prepared) .workState
  let work ← work.settle record.source.index (fun p => List.replicate p.length 0) .cancelled
  let f ← f.withHeapCpuWork work
  return { f with scopedPointers := f.scopedPointers.heapWorkCleanupRevision }

/-- The loop of `current_work_census`: every record is checked, the selected ones counted. -/
def censusRecords (selected : HeapReservation) : List WorkRecord → Nat → Res HeapError Nat
  | [], count => ok count
  | record :: rest, count => do
    f.checkRetainedWorkRecord record
    let count ←
      if record.binding.reservation = selected then okOr (checkedAdd count 1) .configuration
      else ok count
    censusRecords selected rest count

/-- `current_work_census`: the requests of the lifetime that are not consumed. DMA work is not
enabled, so its count is always zero. -/
def currentWorkCensus (selected : HeapReservation) : Res HeapError Nat := do
  let heap ← okOr f.privateHeap .configuration
  match heap.work with
  | none => return 0
  | some work => do
    work.checkPins
    f.censusRecords selected (work.records.filterMap id) 0

/-- How many requests a reservation has (runtime.rs 172). -/
def heapWorkCensus (reservation : HeapReservation) (owner : AllocationOwner) (object : ObjectId) :
    Res HeapError Nat := do
  let plan ← f.scopedPointers.prepareAttachedHeapClosure reservation owner
  f.checkAttachedHeapCustody plan object
  f.currentWorkCensus reservation

/-- `finish_heap_cpu_work`: only a terminal request is consumed. -/
def finishHeapCpuWork : Res HeapError (HeapWorkOutcome × Fabric) := do
  let (work, record) ← f.checkedWorkRecord ticket
  let request ← unwrap (work.requestAt record.source.index)
  let outcome ← request.state.outcome
  let census ← f.currentWorkCensus record.binding.reservation
  require (census ≠ 0) .staleWork
  let work ← work.remove record
  let f ← f.withHeapCpuWork work
  return (outcome, { f with scopedPointers := f.scopedPointers.heapWorkCleanupRevision })

end Fabric

end Anka
