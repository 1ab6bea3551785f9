import Anka.Fabric.Phases
import Anka.Fabric.Step

/-!
# What a Fabric call can do

`Change` lists the atomic changes of a Fabric: everything any call does to objects, placement,
domains, transactions, memory, protected cells and the history is a chain of them, and each
constructor carries what the call had checked by then. Registered agents, protected stacks, private
heap rows and counters take part in the checks only; a change to them, or a run of calls on the
registry, is `silent`.

Changes are under a guard. Its footprint says what they touch: the registry calls they make, the
entries of a domain, the trace. Four of them are under a condition on the state and the
change: relocating an object, granting a capability, deriving one and tagging a cell. `Guard.any`
lets every change through; results that hold only under a condition choose another one.
`FabricOp.Meets` says when a call meets a guard, so what a call leaves alone follows from a guard
that forbids it.
-/

namespace Anka

open Rust Res

/-- The registry calls a Fabric call can make. -/
def FabricOp.Calls : FabricOp → RegistryOp → Prop
  | .registry op, call => call = op
  | .registerScopedPointer scope _ _ _, call => ∃ domain base length writable backing,
      call = .registerBacked scope domain base length writable backing
  | .issuePointerFrame owner _ _ _, call => (∃ frame, call = .enterFrame owner frame) ∨
      ∃ scope domain base length writable backing,
        call = .registerBacked scope domain base length writable backing
  | .retirePointerFrame scope _, call => call = .leaveScope scope ∨
      ∃ pointer, call = .takeBacking pointer
  | .attachPrivateHeap r owner revision, call => call = .attach r owner revision
  | .initializePrivateHeapChunk snapshot owner _ revision, call =>
      call = .initializeChunk snapshot.row.reservation owner revision
  | .writePrivateHeap snapshot owner _ _ revision, call =>
      call = .initializeChunk snapshot.row.reservation owner revision
  | .publishHeap owner _ snapshot, call => ∃ revision,
      call = .publish snapshot.row.reservation owner revision true
  | .publishCompilerRegion current snapshot _ _ _ _, call => ∃ revision writable,
      call = .publish snapshot.row.reservation current.owner revision writable
  | .publishCompilerArtifact current snapshot _, call => ∃ revision,
      call = .publish snapshot.row.reservation current.owner revision false
  | .closeAttachedHeap r owner _, call => call = .closeAttached r owner
  | .registerHeapCpuRead _ _ _ expected, call => call = .workRevision expected
  | .registerHeapCpuWrite _ _ _ expected, call => call = .workRevision expected
  | .executeHeapCpuWork _, call => call = .workCleanupRevision
  | .cancelHeapCpuWork _, call => call = .workCleanupRevision
  | .finishHeapCpuWork _, call => call = .workCleanupRevision
  | .enrollHeapCleanupWorker current expected, call =>
      call = .enrollWorker current.identity expected
  | .claimHeapCleanupJob current worker r owner _ expected, call =>
      call = .claim worker current.identity r owner expected
  | .retireHeapAuthority current lease owner, call =>
      call = .retire lease current.worker.identity owner
  | .beginHeapScrub current lease owner, call =>
      call = .scrubBegin lease current.worker.identity owner
  | .scrubHeapChunk current snapshot amount, call =>
      call = .scrubChunk snapshot.status current.worker.identity snapshot.row.owner amount
  | .releaseCleanHeap current snapshot, call =>
      call = .release snapshot.status current.worker.identity snapshot.row.owner
  | .revokeHeapCleanupJob lease owner _, call => call = .transition lease owner false
  | .recoverHeapCleanupJob lease owner _, call => call = .transition lease owner true
  | _, _ => False

/-- A call on objects, placement, domains or authorities. -/
def FabricOp.OnTables : FabricOp → Prop
  | .allocAuthorityId => True
  | .allocObject _ _ _ => True
  | .placeObject _ _ => True
  | .moveObject _ _ => True
  | .revoke _ => True
  | .sealObject _ => True
  | .destroyObject _ => True
  | .rollbackUnpublishedObject _ => True
  | .createDomain => True
  | .tryCreateCompilerDomain => True
  | .destroyDomain _ => True
  | .grant _ _ _ _ _ => True
  | .grantWithAuthorityId _ _ _ _ _ _ => True
  | .removeByAuthorityId _ _ => True
  | .derive _ _ _ _ _ => True
  | .deriveFromAuthorityId _ _ _ _ _ _ _ => True
  | .deriveDeviceFromAuthorityId _ _ _ _ _ _ _ _ => True
  | .delegateDmaSpan _ _ _ _ _ => True
  | .delegateDmaSpanFromAuthorityId _ _ _ _ _ _ => True
  | .grantDeviceWithAuthorityId _ _ _ _ => True
  | _ => False

/-- A call that adds to the trace or takes a row of it through a phase. -/
def FabricOp.OnTrace : FabricOp → Prop
  | .submit _ _ => True
  | .advance _ => True
  | .executeRead _ => True
  | .executeWrite _ _ => True
  | .executeAtomicXchg _ _ => True
  | .storePointerCell _ _ => True
  | .loadPointerCell _ => True
  | .storeHeapTokenInLocal _ _ _ => True
  | _ => False

/-- A call that discards the trace. -/
def FabricOp.ClearsTrace : FabricOp → Prop
  | .discardCompletedCompilerTrace => True
  | .collectTrace => True
  | _ => False

/-- The call changes the entries of this domain. -/
def FabricOp.names (id : DomainId) : FabricOp → Bool
  | .destroyDomain domain => domain == id
  | .grant domain _ _ _ _ => domain == id
  | .grantWithAuthorityId domain _ _ _ _ _ => domain == id
  | .removeByAuthorityId domain _ => domain == id
  | .derive domain _ _ _ _ => domain == id
  | .deriveFromAuthorityId _ _ dst _ _ _ _ => dst == id
  | .deriveDeviceFromAuthorityId _ _ _ _ _ dst _ _ => dst == id
  | .grantDeviceWithAuthorityId domain _ _ _ => domain == id
  | _ => false

/-- What changes may touch. -/
structure Footprint where
  /-- Calls on the registry. -/
  registry : RegistryOp → Prop := fun _ => True
  /-- The entries of a domain. -/
  domain : DomainId → Prop := fun _ => True
  /-- New transactions and phases of old ones. -/
  trace : Prop := True
  /-- A row of a kind that does not mutate is committed by a write. -/
  exchange : Prop := True
  /-- The trace is discarded. -/
  discard : Prop := True
  /-- Domain numbers in use were handed out. -/
  numbered : Prop := True

/-- The registry took calls that the footprint has. -/
abbrev Footprint.Run (F : Footprint) : ScopedPointers → ScopedPointers → Prop :=
  Machine.Run ScopedPointers.step fun _ => F.registry

variable {s s' : ScopedPointers} {F : Footprint}

theorem ScopedPointers.step_of_run {op : RegistryOp} (h : s.run op = ok s') :
    s.step op = some s' := by
  simp only [ScopedPointers.step, h]

theorem Footprint.run_call {call : RegistryOp} (hc : F.registry call) (h : s.run call = ok s') :
    F.Run s s' :=
  .single ⟨call, hc, ScopedPointers.step_of_run h⟩

/-- A footprint and conditions on four changes. -/
structure Guard extends Footprint where
  relocate : Fabric → ObjectId → Nat → Prop := fun _ _ _ => True
  grant : List Transaction → DomainId → Capability64 → Prop := fun _ _ _ => True
  derive : List Transaction → DomainId → Capability64 → Prop := fun _ _ _ => True
  tag : ScopedPointer → Prop := fun _ => True

/-- No condition. -/
def Guard.any : Guard := {}

/-- The capability a grant over an object mints. -/
def rootOf (obj : Object) (object : ObjectId) (offset length : Nat) (permissions : Permissions) :
    Capability64 :=
  { object, generation := obj.generation, offset, length, permissions }

/-- The call keeps to the conditions of the guard. -/
def FabricOp.Abides (G : Guard) (f : Fabric) : FabricOp → Prop
  | .placeObject id base => G.relocate f id base
  | .moveObject id base => G.relocate f id base
  | .grant domain object offset length perms => ∀ obj, f.objects.get object = some obj →
      G.grant f.transactions domain (rootOf obj object offset length perms)
  | .grantWithAuthorityId domain object offset length perms _ => ∀ obj,
      f.objects.get object = some obj →
      G.grant f.transactions domain (rootOf obj object offset length perms)
  | .derive domain parent offset length perms =>
      G.derive f.transactions domain (Fabric.childOf parent offset length perms)
  | .deriveFromAuthorityId src source dst offset length perms _ => ∀ e,
      f.authorityEntry src source = some e →
      G.derive f.transactions dst (Fabric.childOf e.cap offset length perms)
  | .delegateDmaSpan _ _ offset length perms => ∀ parent,
      G.derive f.transactions ⟨f.nextDomainId⟩ (Fabric.childOf parent offset length perms)
  | .delegateDmaSpanFromAuthorityId _ _ _ offset length perms => ∀ parent,
      G.derive f.transactions ⟨f.nextDomainId⟩ (Fabric.childOf parent offset length perms)
  | .storePointerCell _ pointer => ∀ p, pointer = some p → G.tag p
  | .storeHeapTokenInLocal _ _ pointer => G.tag pointer
  | _ => True

/-- The call stays within the footprint. -/
structure FabricOp.Within (F : Footprint) (f : Fabric) (op : FabricOp) : Prop where
  registry : ∀ call, op.Calls call → F.registry call
  domain : ∀ id, op.names id = true → F.domain id
  fresh : op.OnTables → F.domain ⟨f.nextDomainId⟩
  trace : op.OnTrace → F.trace
  exchange : ∀ request data, op = .executeAtomicXchg request data → F.exchange
  discard : op.ClearsTrace → F.discard

theorem FabricOp.within_any (f : Fabric) (op : FabricOp) : op.Within {} f :=
  ⟨fun _ _ => trivial, fun _ _ => trivial, fun _ => trivial, fun _ => trivial, fun _ _ _ => trivial,
    fun _ => trivial⟩

/-- The call keeps to the guard. -/
structure FabricOp.Meets (G : Guard) (f : Fabric) (op : FabricOp) : Prop where
  abides : op.Abides G f
  within : op.Within G.toFootprint f

theorem FabricOp.Within.meets {f : Fabric} {op : FabricOp} (h : op.Within F f) :
    op.Meets { F with } f :=
  ⟨by cases op <;> simp [FabricOp.Abides], h⟩

theorem FabricOp.meets_any (f : Fabric) (op : FabricOp) : op.Meets Guard.any f :=
  (op.within_any f).meets

namespace Fabric

/-- An entry of some domain, or a capability that a mint returned. -/
def Presentable (f : Fabric) (cap : Capability64) : Prop :=
  f.Minted cap ∨ ∃ domain d e, f.domains.get domain = some d ∧ e ∈ d.capabilities ∧ e.cap = cap

/-- A private heap row has the identity. -/
def HeapRowId (privateHeap : Option HeapFabric) (id : ObjectId) : Prop :=
  ∃ heap row, privateHeap = some heap ∧ some row ∈ heap.rows ∧ row.object = id

/-- The atomic changes under a guard. -/
inductive Change (G : Guard) : Fabric → Fabric → Prop
  | silent (f : Fabric) (scopedPointers : ScopedPointers)
      (pointerStackObjects : Map ObjectId (Nat × DomainId)) (agents : Map AgentId AgentState)
      (privateHeap : Option HeapFabric) (faultLog : List FaultRecord)
      (nextObjectId nextTxId nextAuthorityId : Nat)
      (hpool : privateHeap.map HeapFabric.pool = f.privateHeap.map HeapFabric.pool)
      (hnext : f.nextObjectId ≤ nextObjectId)
      (hrows : ∀ id, HeapRowId privateHeap id → HeapRowId f.privateHeap id ∨
        id.raw < nextObjectId ∧ f.objects.get id = none)
      (hcalls : G.Run f.scopedPointers scopedPointers) :
      Change G f { f with
        scopedPointers, pointerStackObjects, agents, privateHeap, faultLog, nextObjectId, nextTxId
        nextAuthorityId }
  | allocated (f : Fabric) (id : ObjectId) (obj : Object) (hid : id.raw = f.nextObjectId)
      (hgen : obj.generation = ⟨0⟩) (hst : obj.state = .active)
      (hobject : f.objects.get id = none) (hpl : f.placement.get id = none) :
      Change G f { f with
        objects := f.objects.insert id obj, nextObjectId := f.nextObjectId + 1 }
  /-- The object goes to a base where its extent fits, meets no other live one and not the pool. -/
  | placed (f : Fabric) (id : ObjectId) (base : Nat) (obj : Object)
      (hobject : f.objects.get id = some obj) (hend : base + obj.size ≤ u64Max)
      (hpool : f.heapPoolOverlaps base obj.size = false)
      (hfree : ∀ id' base' obj', id' ≠ id → f.placement.get id' = some base' →
        f.objects.get id' = some obj' → obj'.state.isLive = true → base' + obj'.size ≤ u64Max →
        ¬ meets base obj.size base' obj'.size)
      (hguard : G.relocate f id base) :
      Change G f { f with
        pointerCells := if f.placement.get id = some base then f.pointerCells
          else f.pointerCells.retain fun key _ => key.object != id
        placement := f.placement.insert id base
        history := .placed id base :: f.history }
  | revoked (f : Fabric) (id : ObjectId) :
      Change G f { f with
        pointerCells := f.pointerCells.retain fun key _ => key.object != id
        objects := f.objects.modify id fun obj =>
          { obj with generation := obj.generation.next, state := .revoked } }
  | sealed (f : Fabric) (id : ObjectId) (obj : Object) (hobject : f.objects.get id = some obj)
      (hact : obj.state = .active) :
      Change G f { f with
        objects := f.objects.insert id
          { obj with generation := obj.generation.next, state := .sealed } }
  | destroyed (f : Fabric) (id : ObjectId) :
      Change G f { f with
        pointerStackObjects := f.pointerStackObjects.erase id
        objects := f.objects.erase id
        placement := f.placement.erase id }
  | rolledBack (f : Fabric) (id : ObjectId) (obj : Object) (hobject : f.objects.get id = some obj)
      (hact : obj.state = .active) (hnext : id.raw + 1 = f.nextObjectId)
      (hcaps : ∀ domain d e, f.domains.get domain = some d → e ∈ d.capabilities → e.cap.object ≠ id)
      (htxs : ∀ tx ∈ f.transactions, tx.request.object ≠ id) :
      Change G f { f with
        placement := f.placement.erase id, objects := f.objects.erase id, nextObjectId := id.raw }
  | domainCreated (f : Fabric)
      (hnamed : G.domain ⟨f.nextDomainId⟩) :
      Change G f { f with
        nextDomainId := f.nextDomainId + 1
        domains := f.domains.insert ⟨f.nextDomainId⟩
          { id := ⟨f.nextDomainId⟩, capabilities := [], deviceAuthorities := [] } }
  /-- Capabilities leave domains, or device authorities change. -/
  | domainsEdited (f : Fabric) (domains : Map DomainId DomainState)
      (h : ∀ domain d', domains.get domain = some d' →
        ∃ d, f.domains.get domain = some d ∧ ∀ e ∈ d'.capabilities, e ∈ d.capabilities)
      (hnamed : ∀ domain, G.domain domain ∨ domains.get domain = f.domains.get domain) :
      Change G f { f with domains }
  | granted (f : Fabric) (domain : DomainId) (d : DomainState) (obj : Object) (object : ObjectId)
      (offset length : Nat) (perms : Permissions) (authorityId : Option AuthorityId)
      (hdom : f.domains.get domain = some d) (hobject : f.objects.get object = some obj)
      (hgrant : grantable obj.state perms = true) (hrange : offset + length ≤ obj.size)
      (hguard : G.grant f.transactions domain (rootOf obj object offset length perms))
      (hnamed : G.domain domain) :
      Change G f { f with
        domains := f.domains.insert domain { d with
          capabilities := d.capabilities ++
            [{ cap := rootOf obj object offset length perms, authorityId }] }
        history := .granted domain (rootOf obj object offset length perms) :: f.history }
  | derived (f : Fabric) (domain : DomainId) (d : DomainState) (parent : Capability64)
      (offset length : Nat) (perms : Permissions) (authorityId : Option AuthorityId)
      (hdom : f.domains.get domain = some d) (hpar : G.numbered → f.Presentable parent)
      (hval : f.validate parent = true) (hnarrows : narrows parent offset length perms = true)
      (hguard : G.derive f.transactions domain (childOf parent offset length perms))
      (hnamed : G.domain domain) :
      Change G f { f with
        domains := f.domains.insert domain { d with
          capabilities :=
            d.capabilities ++ [{ cap := childOf parent offset length perms, authorityId }] }
        history := .derived domain (childOf parent offset length perms) :: f.history }
  | submitted (f : Fabric) (tx : Transaction) (nextTxId : Nat) (hst : tx.state = .requested)
      (htrc : G.trace) :
      Change G f { f with nextTxId, transactions := f.transactions ++ [tx] }
  | authorized (f : Fabric) (idx : Nat) (tx : Transaction) (g : Generation)
      (htx : f.transactions[idx]? = some tx) (hst : tx.state = .requested)
      (hauth : f.authorize tx.request = ok g)
      (htrc : G.trace) :
      Change G f (f.setTransaction idx { tx with authGeneration := some g, state := .authorized })
  | prepared (f : Fabric) (idx : Nat) (tx : Transaction) (physical : Nat)
      (htx : f.transactions[idx]? = some tx) (hst : tx.state = .authorized)
      (htr : f.translate tx.request.object tx.request.offset = some physical)
      (htrc : G.trace) :
      Change G f (f.setTransaction idx
        { tx with physicalAddress := some physical, state := .prepared })
  | faulted (f : Fabric) (idx : Nat) (tx : Transaction) (record : FaultRecord)
      (faultLog : List FaultRecord) (htx : f.transactions[idx]? = some tx)
      (hst : tx.state ≠ .committed)
      (htrc : G.trace) :
      Change G f { f with
        transactions := f.transactions.set idx { tx with state := .faulted, fault := some record }
        faultLog }
  | readCommitted (f : Fabric) (idx : Nat) (tx : Transaction) (base stop : Nat)
      (htx : f.transactions[idx]? = some tx) (hst : tx.state = .prepared)
      (hgate : Admitted f tx base stop) (hkind : tx.request.kind.mutates = false)
      (htrc : G.trace) :
      Change G f (f.setTransaction idx
        { tx with readData := some (slice f.memory base (stop - base)), state := .committed })
  /-- A mutating kind, or an exchange of any kind. -/
  | writeCommitted (f : Fabric) (idx : Nat) (tx : Transaction) (base stop : Nat)
      (data : List UInt8) (cells : Map CellKey ScopedPointer)
      (htx : f.transactions[idx]? = some tx) (hst : tx.state = .prepared)
      (hgate : Admitted f tx base stop) (hdata : tx.writeData = some data)
      (hlen : data.length = stop - base) (hcells : Cleared f base data.length cells)
      (htrc : G.trace) (hkind : tx.request.kind.mutates = true ∨ G.exchange) :
      Change G f { f with
        pointerCells := cells
        memory := overwrite f.memory base data
        transactions := f.transactions.set idx { tx with state := .committed }
        history := .wrote base data.length :: f.history }
  | wrote (f : Fabric) (base : Nat) (data : List UInt8) (cells : Map CellKey ScopedPointer)
      (hfits : base + data.length ≤ f.memory.length) (hcells : Cleared f base data.length cells)
      (hpool : f.heapPoolOverlaps base data.length = false) :
      Change G f { f with
        pointerCells := cells
        memory := overwrite f.memory base data
        history := .wrote base data.length :: f.history }
  /-- Bytes of the dedicated pool; the tags there are the shadow's. -/
  | heapWrote (f : Fabric) (heap : HeapFabric) (shadow : List (Option ScopedPointer)) (base : Nat)
      (data : List UInt8) (hheap : f.privateHeap = some heap)
      (hfits : base + data.length ≤ f.memory.length) (hbase : heap.pool.base ≤ base)
      (hend : base + data.length ≤ heap.endAddr) :
      Change G f { f with
        privateHeap := some { heap with shadow }
        memory := overwrite f.memory base data
        history := .wrote base data.length :: f.history }
  | cellStored (f : Fabric) (key : CellKey) (pointer : ScopedPointer) (obj : Object) (base : Nat)
      (hobject : f.objects.get key.object = some obj) (hlive : obj.state.isLive = true)
      (hrange : key.offset + 16 ≤ obj.size) (hpl : f.placement.get key.object = some base)
      (hguard : G.tag pointer) :
      Change G f (f.tagCell key pointer)
  | cellsDropped (f : Fabric) (cells : Map CellKey ScopedPointer)
      (h : ∀ key p, cells.get key = some p → f.pointerCells.get key = some p) :
      Change G f { f with pointerCells := cells }
  | traceCleared (f : Fabric) (hdisc : G.discard) : Change G f { f with transactions := [] }

/-- A chain of atomic changes. -/
abbrev Changes (G : Guard) : Fabric → Fabric → Prop := Relation.ReflTransGen (Change G)

theorem Change.object {G : Guard} {f f' : Fabric} {id : ObjectId} {obj : Object}
    (hc : Change G f f') (ho : f'.objects.get id = some obj) :
    (∃ obj0, f.objects.get id = some obj0 ∧ (obj = obj0 ∨
      obj = { obj0 with generation := obj0.generation.next, state := .revoked } ∨
      obj0.state = .active ∧
        obj = { obj0 with generation := obj0.generation.next, state := .sealed })) ∨
    id.raw = f.nextObjectId ∧ f'.nextObjectId = f.nextObjectId + 1 ∧ f.placement.get id = none ∧
      obj.generation = ⟨0⟩ ∧ obj.state = .active := by
  cases hc with
  | allocated _ _ hid hgen hst _ hpl =>
    rw [Map.get_insert] at ho
    split at ho
    · rename_i heq
      cases ho
      exact .inr ⟨heq ▸ hid, rfl, heq ▸ hpl, hgen, hst⟩
    · exact .inl ⟨obj, ho, .inl rfl⟩
  | revoked =>
    rw [Map.get_modify] at ho
    split at ho
    · obtain ⟨obj0, ho0, rfl⟩ := Option.map_eq_some_iff.mp ho
      exact .inl ⟨obj0, ‹id = _› ▸ ho0, .inr (.inl rfl)⟩
    · exact .inl ⟨obj, ho, .inl rfl⟩
  | sealed _ obj0 hobject hact =>
    rw [Map.get_insert] at ho
    split at ho
    · rename_i heq
      cases ho
      exact .inl ⟨obj0, heq ▸ hobject, .inr (.inr ⟨hact, rfl⟩)⟩
    · exact .inl ⟨obj, ho, .inl rfl⟩
  | destroyed | rolledBack =>
    rw [Map.get_erase] at ho
    split at ho
    · cases ho
    · exact .inl ⟨obj, ho, .inl rfl⟩
  | _ => exact .inl ⟨obj, ho, .inl rfl⟩

end Fabric

end Anka
