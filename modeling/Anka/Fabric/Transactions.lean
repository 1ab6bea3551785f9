import Anka.Fabric.Authority

/-!
# The Fabric: transactions (`fabric.rs`)

A request is submitted, authorized, translated and committed, one phase per `advance`; other
operations may come between any two phases. The physical address is recorded by the translation
and authority is checked again by the commit (`validate_precommit`). `execute_read`,
`execute_write` and `execute_atomic_xchg` run all phases in one call; the exchange performs its own
write after the same gate.

The calls that can return a fault do so with a changed Fabric (the faulted transaction and the
fault log), so their errors carry it.
-/

namespace Anka.Fabric

open Rust Res

variable (f : Fabric)

/-! ## The log -/

/-- `self.transactions[idx]`. -/
def transactionAt {ε : Type} (f : Fabric) (idx : Nat) : Res ε Transaction :=
  unwrap f.transactions[idx]?

/-- Replaces one transaction. -/
def setTransaction (idx : Nat) (tx : Transaction) : Fabric :=
  { f with transactions := f.transactions.set idx tx }

/-- The record `fault_transaction` writes. -/
def faultRecord (tx : Transaction) (reason : FaultReason) : FaultRecord :=
  { agent := tx.request.context.agent
    domain := tx.request.context.domain
    privilege := tx.request.context.privilege
    transaction := tx.id
    object := tx.request.object
    generation := tx.authGeneration
    offset := tx.request.offset
    width := tx.request.width
    length := tx.request.length
    kind := tx.request.kind
    pc := none
    reason }

/-- Ends a transaction and logs why (1277). -/
def faultTransaction {ε : Type} (f : Fabric) (idx : Nat) (reason : FaultReason) :
    Res ε Fabric := do
  let tx ← f.transactionAt idx
  let record := faultRecord tx reason
  let f := f.setTransaction idx { tx with state := .faulted, fault := some record }
  return { f with faultLog := f.faultLog ++ [record] }

/-! ## Phases -/

/-- The transaction `submit` appends. -/
def requested (request : MemoryRequest) (writeData : Option (List UInt8)) : Transaction :=
  { id := ⟨f.nextTxId⟩, request, state := .requested, authGeneration := none
    physicalAddress := none, writeData, readData := none, fault := none }

/-- Zero-length spans and spans that overflow are faulted by `submit`. -/
def invalidSpan (request : MemoryRequest) : Bool :=
  request.length == 0 || (checkedAdd request.offset request.length).isNone

/-- A new transaction (1098). -/
def submit {ε : Type} (f : Fabric) (request : MemoryRequest) (writeData : Option (List UInt8)) :
    Res ε (Nat × Fabric) := do
  let nextTxId ← plus f.nextTxId 1
  let idx := f.transactions.length
  let f := { f with
    nextTxId, transactions := f.transactions ++ [f.requested request writeData] }
  let f ← (if invalidSpan request = true then f.faultTransaction idx .invalidSpan else ok f)
  return (idx, f)

/-- Authorizes, or faults (1147). -/
def phaseAuthorize {ε : Type} (f : Fabric) (idx : Nat) (tx : Transaction) : Res ε Fabric :=
  match f.authorize tx.request with
  | ok g => ok (f.setTransaction idx { tx with authGeneration := some g, state := .authorized })
  | err reason => f.faultTransaction idx reason
  | .panic => .panic

/-- Translates the address, or faults (1160). -/
def phaseTranslate {ε : Type} (f : Fabric) (idx : Nat) (tx : Transaction) : Res ε Fabric :=
  match f.translate tx.request.object tx.request.offset with
  | some phys =>
    ok (f.setTransaction idx { tx with physicalAddress := some phys, state := .prepared })
  | none => f.faultTransaction idx .translationFault

/-- The checks of `validate_precommit`: the prepared span, or why the transaction faults. -/
def precommit (tx : Transaction) : Res FaultReason (Nat × Nat) := do
  let _ ← f.authorize tx.request
  let phys ← okOr tx.physicalAddress .translationFault
  let physEnd ← okOr (checkedAdd phys tx.request.length) .invalidSpan
  require (physEnd ≤ f.memory.length) .invalidSpan
  require (f.heapPoolOverlaps phys tx.request.length = false) .translationFault
  -- the payload is checked for the mutating kinds only
  require (tx.request.kind.mutates = true →
    (tx.writeData.any fun data => data.length == tx.request.length) = true) .lengthMismatch
  return (phys, physEnd)

/-- `validate_precommit`: a failed check faults the transaction. -/
def validatePrecommit (idx : Nat) (tx : Transaction) : Res Fabric (Nat × Nat) :=
  match f.precommit tx with
  | ok span => ok span
  | err reason => f.faultTransaction idx reason >>= err
  | .panic => .panic

/-- Clear the cells of a prepared span and copy the transaction's payload over it;
`copy_from_slice` panics on a payload of another length. -/
def writeSpan {ε : Type} (f : Fabric) (tx : Transaction) (base stop : Nat) : Res ε Fabric := do
  let f ← f.clearPointerCellsPhysical base (stop - base)
  let data ← unwrap tx.writeData
  check (data.length = stop - base)
  return f.writeMemory base data

/-- What a commit does after the gate, by the request's kind. -/
def commitEffect {ε : Type} (f : Fabric) (idx : Nat) (tx : Transaction) (base stop : Nat) :
    Res ε Fabric :=
  if tx.request.kind.mutates = true then do
    let f ← f.writeSpan tx base stop
    return f.setTransaction idx { tx with state := .committed }
  else
    let readData := some (slice f.memory base (stop - base))
    ok (f.setTransaction idx { tx with readData, state := .committed })

/-- Checks again, and moves the bytes (1253). -/
def phaseCommit {ε : Type} (f : Fabric) (idx : Nat) (tx : Transaction) : Res ε Fabric :=
  match f.validatePrecommit idx tx with
  | ok (base, stop) => f.commitEffect idx tx base stop
  | err f' => ok f'
  | .panic => .panic

/-- `advance`: the next phase of a transaction; terminal ones stay. -/
def advance {ε : Type} (f : Fabric) (idx : Nat) : Res ε Fabric := do
  let tx ← f.transactionAt idx
  match tx.state with
  | .requested => f.phaseAuthorize idx tx
  | .authorized => f.phaseTranslate idx tx
  | .prepared => f.phaseCommit idx tx
  | .committed => ok f
  | .faulted => ok f

/-- One event of `run_schedule`. -/
def runEvent {ε : Type} (f : Fabric) : Event → Res ε Fabric
  | .advance idx => f.advance idx
  | .revoke id => ok (f.revoke id)
  | .move id base => ok (f.moveObject id base).2

/-- `run_schedule`: all events in their order. -/
def runSchedule {ε : Type} (f : Fabric) (events : List Event) : Res ε Fabric :=
  events.foldlM runEvent f

/-! ## Whole transactions -/

/-- The transaction after its phases: committed, or the fault it returns; anything else is the
`unreachable!` of the source. -/
def settle (idx : Nat) : Res (FaultRecord × Fabric) Transaction := do
  let tx ← f.transactionAt idx
  match tx.state with
  | .committed => ok tx
  | .faulted => unwrap tx.fault >>= fun record => err (record, f)
  | _ => panic

/-- Submit a request and advance it three times. -/
def runToCommit {ε : Type} (f : Fabric) (request : MemoryRequest)
    (writeData : Option (List UInt8)) : Res ε (Nat × Fabric) := do
  let (idx, f) ← f.submit request writeData
  let f ← f.advance idx
  let f ← f.advance idx
  let f ← f.advance idx
  return (idx, f)

/-- A read, all phases (1317). -/
def executeRead (request : MemoryRequest) :
    Res (FaultRecord × Fabric) (List UInt8 × Fabric) := do
  let (idx, f) ← f.runToCommit request none
  let tx ← f.settle idx
  let data ← unwrap tx.readData
  return (data, f)

/-- A write, all phases (1341). -/
def executeWrite (request : MemoryRequest) (data : List UInt8) :
    Res (FaultRecord × Fabric) Fabric := do
  let (idx, f) ← f.runToCommit request (some data)
  let _ ← f.settle idx
  return f

/-- The early return of an exchange whose transaction faulted before the gate. -/
def returnFault (tx : Transaction) : Res (FaultRecord × Fabric) Unit :=
  if tx.state = .faulted then unwrap tx.fault >>= fun record => err (record, f) else ok ()

/-- The gate of an exchange: the fault of a rejected transaction is returned. -/
def precommitOrReturn (idx : Nat) (tx : Transaction) : Res (FaultRecord × Fabric) (Nat × Nat) :=
  match f.validatePrecommit idx tx with
  | ok span => ok span
  | err f' => do
    let tx' ← f'.transactionAt idx
    let record ← unwrap tx'.fault
    err (record, f')
  | .panic => .panic

/-- `execute_atomic_xchg`: the write after the gate does not look at the request's kind. -/
def executeAtomicXchg (request : MemoryRequest) (newValue : List UInt8) :
    Res (FaultRecord × Fabric) (List UInt8 × Fabric) := do
  let (idx, f) ← f.submit request (some newValue)
  let f ← f.advance idx
  let f ← f.advance idx
  let tx ← f.transactionAt idx
  f.returnFault tx
  let (base, stop) ← f.precommitOrReturn idx tx
  let oldValue := slice f.memory base (stop - base)
  let f ← f.writeSpan tx base stop
  return (oldValue, f.setTransaction idx { tx with state := .committed })

/-! ## What the gate establishes -/

/-- The gate passes: authority is current, the span is the prepared one and fits, and a mutating
kind has a payload of the requested length. -/
structure Admitted (f : Fabric) (tx : Transaction) (base stop : Nat) : Prop where
  authorized : ∃ g, f.authorize tx.request = ok g
  address : tx.physicalAddress = some base
  stop_eq : stop = base + tx.request.length
  stop_le : stop ≤ u64Max
  fits : stop ≤ f.memory.length
  outside : f.heapPoolOverlaps base tx.request.length = false
  payload : tx.request.kind.mutates = true →
    ∃ data, tx.writeData = some data ∧ data.length = tx.request.length

theorem precommit_eq_ok {f : Fabric} {tx : Transaction} {base stop : Nat}
    (h : f.precommit tx = ok (base, stop)) : Admitted f tx base stop := by
  simp only [precommit, eq_ok] at h
  obtain ⟨g, hg, phys, hph, _, ⟨hm, rfl⟩, hf, hpo, hp, rfl, rfl⟩ := h
  refine ⟨⟨g, hg⟩, hph, rfl, hm, hf, hpo, fun hk => ?_⟩
  obtain ⟨data, hd, hl⟩ := (Option.any_eq_true _ _).mp (hp hk)
  exact ⟨data, hd, eq_of_beq hl⟩

/-! ## Trace collection -/

/-- `discard_completed_compiler_trace`: only when every transaction is terminal. -/
def discardCompletedCompilerTrace : Res Unit Fabric := do
  require ((f.transactions.any fun tx => !tx.state.isTerminal) = false) ()
  return { f with transactions := [] }

/-- `collect_admitted_compiler_trace` and `collect_application_run_trace`: the fault log goes too.
Whether the vectors' capacities pass is the host's answer and changes nothing. -/
def collectTrace : Res Unit Fabric := do
  let f ← f.discardCompletedCompilerTrace
  return { f with faultLog := [] }

end Anka.Fabric
