import Anka.Fabric.Transactions
import Anka.Lib.SlotBank

/-!
# Device controllers (`block.rs`, `nic.rs`, `os.rs`)

The block and the network controller accept requests into two slots each, move their bytes by a
transaction of the Fabric in a domain made for the request, and keep the completion until the kernel
takes it. Both are a `SlotBank` with what is theirs: the block controller its storage and a latency,
the network controller its queues of received and sent frames. `DeviceController` is one of the two.

A pending request goes through `Waiting` (block only), `DmaReady` and `DmaInFlight`; `tick` moves
every slot by one such step.

`DeviceController.requests` is the bank of a controller through what the kernel can ask of a
request: who submitted it, under which delegation, and in which domain its bytes move.

Left out: the debug assertions of `assert_conservation`, and the registry that binds a controller to
its device object.
-/

namespace Anka

open Rust Res

/-- block.rs 37. -/
def NUM_SLOTS : Nat := 2

/-! ## Identities -/

/-- Requester identity as the controllers store it; both parts are `u32`. -/
structure RequesterKey where
  slot : Nat
  generation : Nat

/-- Provenance of one transfer of a capability. -/
structure DelegationId where
  client : ProcessKey
  driver : ProcessKey
  incarnation : Nat

/-- A request of one controller: the slot and its generation. -/
structure RequestHandle where
  slot : Nat
  generation : Nat

/-- How a request ended. -/
inductive DeviceCompletionStatus where
  | success
  | dmaFault (reason : FaultReason)
  deriving DecidableEq

/-- The handle of a request, as the controllers hand it out. -/
def RequestHandle.ofKey (key : BankKey NUM_SLOTS) : RequestHandle :=
  { slot := key.slot, generation := key.generation }

/-- The request of one transfer (fabric.rs 1690). -/
def dmaRequest (agent : AgentId) (domain : DomainId) (object : ObjectId) (offset length : Nat)
    (kind : AccessKind) : MemoryRequest :=
  { context := { agent, domain, privilege := .user }, object, offset, width := .byte, length, kind }

/-- The two slots in the order of the loops. -/
def bothSlots {ε σ : Type} (s : σ) (body : σ → Fin NUM_SLOTS → Res ε σ) : Res ε σ :=
  (List.finRange NUM_SLOTS).foldlM body s

/-- What a tick does with a transaction in flight: one phase, and the outcome once it is terminal.
-/
def Fabric.progress {ε : Type} (f : Fabric) (txIdx : Nat) :
    Res ε (Option (DeviceCompletionStatus × Transaction) × Fabric) := do
  let tx ← f.transactionAt txIdx
  let f ← (if tx.state.isTerminal = true then ok f else f.advance txIdx)
  let tx ← f.transactionAt txIdx
  match tx.state with
  | .committed => return (some (.success, tx), f)
  | .faulted =>
    return (some (.dmaFault ((tx.fault.map (·.reason)).getD .translationFault), tx), f)
  | _ => return (none, f)

/-! ## Block storage -/

/-- The blocks of a device. -/
structure BlockStorage where
  data : List UInt8
  blockSize : Nat
  numBlocks : Nat
  length_eq : data.length = numBlocks * blockSize

namespace BlockStorage

/-- Blocks of zeros (block.rs 55). -/
def new (numBlocks blockSize : Nat) : BlockStorage :=
  { data := List.replicate (numBlocks * blockSize) 0, blockSize, numBlocks
    length_eq := List.length_replicate }

/-- The bytes of a block (block.rs 72). -/
def readBlock (s : BlockStorage) (blockNumber : Nat) : Option (List UInt8) :=
  if blockNumber < s.numBlocks then some (slice s.data (blockNumber * s.blockSize) s.blockSize)
  else none

end BlockStorage

/-! ## The block controller -/

/-- A block to read, and where to put it. -/
structure BlockRequest where
  blockNumber : Nat
  requester : RequesterKey
  targetObject : ObjectId
  targetOffset : Nat
  sourceDomain : DomainId
  sourceAuthorityId : Option AuthorityId
  delegationId : Option DelegationId

/-- The end of a read. -/
structure BlockCompletion where
  handle : RequestHandle
  requester : RequesterKey
  blockNumber : Nat
  status : DeviceCompletionStatus
  delegationId : Option DelegationId

/-- Where an accepted block request is; the domain was made for its transfer. -/
inductive BlockPending where
  | waiting (request : BlockRequest) (remainingTicks : Nat) (dmaDomain : DomainId)
  | dmaReady (request : BlockRequest) (dmaDomain : DomainId)
  | dmaInFlight (request : BlockRequest) (dmaDomain : DomainId) (txIdx : Nat)

/-- How a submission is answered. -/
inductive SubmitResult where
  | accepted (handle : RequestHandle)
  | deviceBusy
  | invalidBlock
  | delegationFailed

/-- The block device. -/
structure BlockController where
  slots : SlotBank NUM_SLOTS BlockPending BlockCompletion
  storage : BlockStorage
  latency : Nat
  storageAgent : AgentId
  eventSequence : Nat

namespace BlockController

variable {ε : Type} (c : BlockController)

/-- An idle block device (block.rs 252). -/
def new (storage : BlockStorage) (latency : Nat) (storageAgent : AgentId) : BlockController :=
  { slots := .empty, storage, latency, storageAgent, eventSequence := 0 }

/-- The domain of the transfer: from the exact authority, or from any of the domain's. -/
def delegate (request : BlockRequest) (f : Fabric) : Res Fabric (DomainId × Fabric) :=
  match request.sourceAuthorityId with
  | some id => f.delegateDmaSpanFromAuthorityId request.sourceDomain id request.targetObject
      request.targetOffset c.storage.blockSize .WRITE
  | none => f.delegateDmaSpan request.sourceDomain request.targetObject request.targetOffset
      c.storage.blockSize .WRITE

/-- Takes a request into a free slot (block.rs 277). -/
def submit (request : BlockRequest) (f : Fabric) :
    Res ε (SubmitResult × BlockController × Fabric) :=
  if request.sourceAuthorityId.isNone = true ∧ request.delegationId.isSome = true then
    ok (.delegationFailed, c, f)
  else if c.storage.numBlocks ≤ request.blockNumber then ok (.invalidBlock, c, f)
  else match c.slots.freeSlot with
    | none => ok (.deviceBusy, c, f)
    | some i =>
      match c.delegate request f with
      | ok (dmaDomain, f) =>
        let pending := .waiting request (max c.latency 1) dmaDomain
        ok (.accepted (.ofKey (c.slots.keyAt i)), { c with slots := c.slots.accept i pending }, f)
      | err f => ok (.delegationFailed, c, f)
      | .panic => .panic

/-- The first phase of a tick: a waiting request counts down. -/
def countDown (i : Fin NUM_SLOTS) : Res ε BlockController :=
  match c.slots.slots i with
  | .pending (.waiting request remainingTicks dmaDomain) => do
    let remaining ← minus remainingTicks 1
    let pending := if remaining = 0 then .dmaReady request dmaDomain
      else .waiting request remaining dmaDomain
    return { c with slots := c.slots.advance i pending }
  | _ => ok c

/-- The second phase: a ready request submits its transaction. -/
def startDma (s : BlockController × Fabric) (i : Fin NUM_SLOTS) :
    Res ε (BlockController × Fabric) :=
  let (c, f) := s
  match c.slots.slots i with
  | .pending (.dmaReady request dmaDomain) => do
    let data ← unwrap (c.storage.readBlock request.blockNumber)
    let (txIdx, f) ← f.submit (dmaRequest c.storageAgent dmaDomain request.targetObject
      request.targetOffset c.storage.blockSize .write) (some data)
    return ({ c with slots := c.slots.advance i (.dmaInFlight request dmaDomain txIdx) }, f)
  | _ => ok (c, f)

/-- The third phase: a request in flight advances, and completes once its transaction is terminal.
-/
def advanceDma (s : BlockController × Fabric) (i : Fin NUM_SLOTS) :
    Res ε (BlockController × Fabric) :=
  let (c, f) := s
  match c.slots.slots i with
  | .pending (.dmaInFlight request dmaDomain txIdx) => do
    let (outcome, f) ← f.progress txIdx
    match outcome with
    | none => return (c, f)
    | some (status, _) =>
      let f := f.destroyDomain dmaDomain
      let completion : BlockCompletion :=
        { handle := .ofKey (c.slots.keyAt i), requester := request.requester
          blockNumber := request.blockNumber, status, delegationId := request.delegationId }
      let eventSequence ← unwrap (checkedAdd c.eventSequence 1)
      return ({ c with slots := c.slots.finish i completion, eventSequence }, f)
  | _ => ok (c, f)

/-- One cycle of both slots (block.rs 355). -/
def tick (f : Fabric) : Res ε (BlockController × Fabric) := do
  let c ← bothSlots c countDown
  let s ← bothSlots (c, f) startDma
  bothSlots s advanceDma

/-- The oldest completion (block.rs 448). -/
def consumeCompletion : Res ε (Option BlockCompletion × BlockController) := do
  let (completion, slots) ← c.slots.take
  return (completion, { c with slots })

end BlockController

namespace BlockPending

/-- The request of a slot. -/
def request : BlockPending → BlockRequest
  | waiting request _ _ => request
  | dmaReady request _ => request
  | dmaInFlight request _ _ => request

/-- The domain that the transfer uses. -/
def dmaDomain : BlockPending → DomainId
  | waiting _ _ domain => domain
  | dmaReady _ domain => domain
  | dmaInFlight _ domain _ => domain

end BlockPending

/-! ## The network controller -/

/-- nic.rs 39. -/
def NIC_MAX_FRAME_SIZE : Nat := 1514
/-- nic.rs 42. -/
def NIC_RX_QUEUE_CAPACITY : Nat := 16

/-- The two directions. -/
inductive NicOperation where
  | rx
  | tx
  deriving DecidableEq

/-- Where to put a frame. -/
structure NicRxRequest where
  requester : RequesterKey
  targetObject : ObjectId
  targetOffset : Nat
  sourceDomain : DomainId
  sourceAuthorityId : AuthorityId
  delegationId : Option DelegationId

/-- Where to take a frame from. -/
structure NicTxRequest where
  requester : RequesterKey
  sourceObject : ObjectId
  sourceOffset : Nat
  sourceDomain : DomainId
  sourceAuthorityId : AuthorityId
  frameLen : Nat
  delegationId : Option DelegationId

/-- The end of a transfer. -/
structure NicCompletion where
  handle : RequestHandle
  requester : RequesterKey
  operation : NicOperation
  status : DeviceCompletionStatus
  transferredLen : Nat
  delegationId : Option DelegationId

/-- Where an accepted network request is. -/
inductive NicPending where
  | rxDmaReady (request : NicRxRequest) (frame : List UInt8) (dmaDomain : DomainId)
  | txDmaReady (request : NicTxRequest) (dmaDomain : DomainId)
  | dmaInFlight (requester : RequesterKey) (operation : NicOperation) (frameLen : Nat)
      (delegationId : Option DelegationId) (dmaDomain : DomainId) (txIdx : Nat)

/-- How a submission is answered. -/
inductive NicSubmitResult where
  | accepted (handle : RequestHandle)
  | noPacket
  | deviceBusy
  | delegationFailed

/-- The network device. -/
structure NicController where
  rxQueue : List (List UInt8)
  txSink : List (List UInt8)
  eventSequence : Nat
  attentionPending : Bool
  slots : SlotBank NUM_SLOTS NicPending NicCompletion
  dmaAgent : AgentId

namespace NicController

variable {ε : Type} (c : NicController)

/-- An idle network device (nic.rs 188). -/
def new (dmaAgent : AgentId) : NicController :=
  { rxQueue := [], txSink := [], eventSequence := 0, attentionPending := false, slots := .empty
    dmaAgent }

/-- `inject_rx`: `none` is `false`. -/
def injectRx (frame : List UInt8) : Option NicController :=
  if NIC_MAX_FRAME_SIZE < frame.length ∨ NIC_RX_QUEUE_CAPACITY ≤ c.rxQueue.length then none
  else (checkedAdd c.eventSequence 1).map fun eventSequence =>
    { c with rxQueue := c.rxQueue ++ [frame], eventSequence, attentionPending := true }

/-- The oldest sent frame (nic.rs 530). -/
def takeTx : Option (List UInt8) × NicController :=
  (c.txSink.head?, { c with txSink := c.txSink.tail })

/-- The completion of an empty frame, which needs no transfer. -/
def emptyRx (i : Fin NUM_SLOTS) (request : NicRxRequest) : NicCompletion :=
  { handle := .ofKey (c.slots.keyAt i), requester := request.requester, operation := .rx
    status := .success, transferredLen := 0, delegationId := request.delegationId }

/-- `submit_rx`: the first frame of the queue goes with the request. For an empty frame the slot is
completed at once, with no transfer; the bank logs it as accepted and finished. -/
def submitRx (request : NicRxRequest) (f : Fabric) :
    Res ε (NicSubmitResult × NicController × Fabric) :=
  match c.slots.freeSlot with
  | none => ok (.deviceBusy, c, f)
  | some i =>
    match c.rxQueue with
    | [] => ok (.noPacket, c, f)
    | frame :: rxQueue =>
      let handle := .ofKey (c.slots.keyAt i)
      if frame.length = 0 then
        let slots := c.slots.complete i (.rxDmaReady request frame request.sourceDomain)
          (c.emptyRx i request)
        ok (.accepted handle, { c with rxQueue, slots }, f)
      else match f.delegateDmaSpanFromAuthorityId request.sourceDomain request.sourceAuthorityId
          request.targetObject request.targetOffset frame.length .WRITE with
        | ok (dmaDomain, f) =>
          let slots := c.slots.accept i (.rxDmaReady request frame dmaDomain)
          ok (.accepted handle, { c with rxQueue, slots }, f)
        | err f => ok (.delegationFailed, c, f)
        | .panic => .panic

/-- Takes a transmission into a free slot (nic.rs 293). -/
def submitTx (request : NicTxRequest) (f : Fabric) :
    Res ε (NicSubmitResult × NicController × Fabric) :=
  match c.slots.freeSlot with
  | none => ok (.deviceBusy, c, f)
  | some i =>
    match f.delegateDmaSpanFromAuthorityId request.sourceDomain request.sourceAuthorityId
        request.sourceObject request.sourceOffset request.frameLen .READ with
    | ok (dmaDomain, f) =>
      ok (.accepted (.ofKey (c.slots.keyAt i)),
        { c with slots := c.slots.accept i (.txDmaReady request dmaDomain) }, f)
    | err f => ok (.delegationFailed, c, f)
    | .panic => .panic

/-- The first phase of a tick: a ready request submits its transaction. -/
def startDma (s : NicController × Fabric) (i : Fin NUM_SLOTS) :
    Res ε (NicController × Fabric) :=
  let (c, f) := s
  match c.slots.slots i with
  | .pending (.rxDmaReady request frame dmaDomain) => do
    let (txIdx, f) ← f.submit (dmaRequest c.dmaAgent dmaDomain request.targetObject
      request.targetOffset frame.length .write) (some frame)
    let pending := .dmaInFlight request.requester .rx frame.length request.delegationId dmaDomain
      txIdx
    return ({ c with slots := c.slots.advance i pending }, f)
  | .pending (.txDmaReady request dmaDomain) => do
    let (txIdx, f) ← f.submit (dmaRequest c.dmaAgent dmaDomain request.sourceObject
      request.sourceOffset request.frameLen .read) none
    let pending := .dmaInFlight request.requester .tx request.frameLen request.delegationId
      dmaDomain txIdx
    return ({ c with slots := c.slots.advance i pending }, f)
  | _ => ok (c, f)

/-- A committed transmission puts the bytes it read into the sink. -/
def sent (operation : NicOperation) (status : DeviceCompletionStatus)
    (tx : Transaction) : Res ε (List (List UInt8)) :=
  if status = .success ∧ operation = .tx then do
    let bytes ← unwrap tx.readData
    return c.txSink ++ [bytes]
  else ok c.txSink

/-- The second phase: a request in flight advances, and completes once its transaction is
terminal. -/
def advanceDma (s : NicController × Fabric) (i : Fin NUM_SLOTS) :
    Res ε (NicController × Fabric) :=
  let (c, f) := s
  match c.slots.slots i with
  | .pending (.dmaInFlight requester operation frameLen delegationId dmaDomain txIdx) => do
    let (outcome, f) ← f.progress txIdx
    match outcome with
    | none => return (c, f)
    | some (status, tx) =>
      let txSink ← c.sent operation status tx
      let f := f.destroyDomain dmaDomain
      let completion : NicCompletion :=
        { handle := .ofKey (c.slots.keyAt i), requester, operation, status
          transferredLen := if status = .success then frameLen else 0, delegationId }
      return ({ c with slots := c.slots.finish i completion, txSink }, f)
  | _ => ok (c, f)

/-- One cycle of both slots (nic.rs 328). -/
def tick (f : Fabric) : Res ε (NicController × Fabric) := do
  let s ← bothSlots (c, f) startDma
  bothSlots s advanceDma

/-- The oldest completion (nic.rs 443). -/
def consumeCompletion : Res ε (Option NicCompletion × NicController) := do
  let (completion, slots) ← c.slots.take
  return (completion, { c with slots })

end NicController

namespace NicPending

/-- Who asked. -/
def requester : NicPending → RequesterKey
  | rxDmaReady request _ _ => request.requester
  | txDmaReady request _ => request.requester
  | dmaInFlight requester _ _ _ _ _ => requester

/-- The delegation it came with. -/
def delegationId : NicPending → Option DelegationId
  | rxDmaReady request _ _ => request.delegationId
  | txDmaReady request _ => request.delegationId
  | dmaInFlight _ _ _ delegationId _ _ => delegationId

/-- The domain that the transfer uses. -/
def dmaDomain : NicPending → DomainId
  | rxDmaReady _ _ domain => domain
  | txDmaReady _ domain => domain
  | dmaInFlight _ _ _ _ domain _ => domain

end NicPending

/-! ## Controllers and the registry -/

/-- What the kernel can ask of an accepted request. -/
structure RequestInfo where
  requester : RequesterKey
  delegationId : Option DelegationId
  dmaDomain : DomainId

/-- A completion of either device. -/
inductive DeviceCompletion where
  | block (completion : BlockCompletion)
  | nic (completion : NicCompletion)

namespace DeviceCompletion

/-- Its slot (os.rs 958). -/
def handle : DeviceCompletion → RequestHandle
  | block c => c.handle
  | nic c => c.handle

/-- Who asked (os.rs 966). -/
def requester : DeviceCompletion → RequesterKey
  | block c => c.requester
  | nic c => c.requester

/-- The delegation it came with. -/
def delegationId : DeviceCompletion → Option DelegationId
  | block c => c.delegationId
  | nic c => c.delegationId

end DeviceCompletion

/-- Either device. -/
inductive DeviceController where
  | block (controller : BlockController)
  | nic (controller : NicController)

namespace DeviceController

/-- One cycle (os.rs 789). -/
def tick {ε : Type} (d : DeviceController) (f : Fabric) : Res ε (DeviceController × Fabric) :=
  match d with
  | block c => do let (c, f) ← c.tick f; return (block c, f)
  | nic c => do let (c, f) ← c.tick f; return (nic c, f)

/-- The oldest completion (os.rs 840). -/
def consumeCompletion {ε : Type} (d : DeviceController) :
    Res ε (Option DeviceCompletion × DeviceController) :=
  match d with
  | block c => do let (r, c) ← c.consumeCompletion; return (r.map .block, block c)
  | nic c => do let (r, c) ← c.consumeCompletion; return (r.map .nic, nic c)

end DeviceController

end Anka
