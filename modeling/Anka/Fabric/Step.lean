import Anka.Fabric.HeapCleanup
import Anka.ScopedPointers.Step

/-!
# The Fabric as a state machine

`FabricOp` is one call on a Fabric: every public and crate-internal operation that can change it,
and every call on its registry that other modules make directly. Identities, addresses, requests,
payloads and tokens are arbitrary. A schedule is a sequence of these calls, so
a run of the machine is any interleaving of the phases of any number of transactions with any other
operations.

The one value a caller cannot choose freely is the parent of `derive`: capabilities have no public
constructor, so the call is there only for one that a mint returned.

A call that returns an error may have changed the Fabric (a faulted transaction, a spent domain
number); `run` answers with the Fabric it leaves either way. A panic has no successor state.
-/

namespace Anka

open Rust Res

/-- One call on a Fabric. -/
inductive FabricOp where
  | allocAuthorityId
  | allocObject (name : String) (size : Nat) (kind : ObjectKind)
  | placeObject (id : ObjectId) (physicalBase : Nat)
  | moveObject (id : ObjectId) (newBase : Nat)
  | revoke (id : ObjectId)
  | sealObject (id : ObjectId)
  | destroyObject (id : ObjectId)
  | rollbackUnpublishedObject (id : ObjectId)
  | createDomain
  | tryCreateCompilerDomain
  | destroyDomain (id : DomainId)
  | registerAgent (id : AgentId) (kind : AgentKind) (domain : DomainId)
  | zeroObjectExtent (id : ObjectId)
  | zeroPhysical (base size : Nat)
  | initializeObject (id : ObjectId) (offset : Nat) (data : List UInt8)
  | tryWritePhysical (addr : Nat) (data : List UInt8)
  | grant (domain : DomainId) (object : ObjectId) (offset length : Nat) (perms : Permissions)
  | grantWithAuthorityId (domain : DomainId) (object : ObjectId) (offset length : Nat)
      (perms : Permissions) (authorityId : AuthorityId)
  | removeByAuthorityId (domain : DomainId) (target : AuthorityId)
  | derive (domain : DomainId) (parent : Capability64) (childOffset childLength : Nat)
      (childPerms : Permissions)
  | deriveFromAuthorityId (srcDomain : DomainId) (sourceAuthorityId : AuthorityId)
      (dstDomain : DomainId) (childOffset childLength : Nat) (childPerms : Permissions)
      (newAuthorityId : AuthorityId)
  | deriveDeviceFromAuthorityId (srcDomain : DomainId) (sourceAuthorityId : AuthorityId)
      (expectedObject : ObjectId) (expectedGeneration : Generation)
      (exactSourceRights : DeviceRights) (dstDomain : DomainId) (childRights : DeviceRights)
      (newAuthorityId : AuthorityId)
  | delegateDmaSpan (sourceDomain : DomainId) (object : ObjectId) (offset length : Nat)
      (perms : Permissions)
  | delegateDmaSpanFromAuthorityId (sourceDomain : DomainId) (sourceAuthorityId : AuthorityId)
      (object : ObjectId) (offset length : Nat) (perms : Permissions)
  | grantDeviceWithAuthorityId (domain : DomainId) (object : ObjectId) (rights : DeviceRights)
      (authorityId : AuthorityId)
  | submit (request : MemoryRequest) (writeData : Option (List UInt8))
  | advance (idx : Nat)
  | executeRead (request : MemoryRequest)
  | executeWrite (request : MemoryRequest) (data : List UInt8)
  | executeAtomicXchg (request : MemoryRequest) (newValue : List UInt8)
  | discardCompletedCompilerTrace
  | collectTrace
  | protectPointerStack (object : ObjectId) (owner : Nat) (domain : DomainId)
  | registerScopedPointer (scope : Scope) (request : MemoryRequest) (address : Nat)
      (writable : Bool)
  | retirePointerFrame (scope : Scope) (locals : List ScopedPointer)
  | storePointerCell (request : MemoryRequest) (pointer : Option ScopedPointer)
  | loadPointerCell (request : MemoryRequest)
  | issuePointerFrame (owner : Nat) (frame : MemoryRequest) (address : Nat)
      (registrations : List Registration)
  | attachPrivateHeap (reservation : HeapReservation) (currentOwner : AllocationOwner)
      (expectedRevision : Nat)
  | storeHeapPointerCell (owner : AllocationOwner) (agent : AgentId) (destination : ScopedPointer)
      (source : Option ScopedPointer)
  | writeHeapBytes (owner : AllocationOwner) (agent : AgentId) (destination : ScopedPointer)
      (bytes : List UInt8)
  | storeHeapTokenInLocal (request : MemoryRequest) (owner : AllocationOwner)
      (pointer : ScopedPointer)
  | initializePrivateHeapChunk (snapshot : HeapInitialization) (currentOwner : AllocationOwner)
      (amount expectedRevision : Nat)
  | writePrivateHeap (snapshot : HeapInitialization) (currentOwner : AllocationOwner) (offset : Nat)
      (data : List UInt8) (expectedRevision : Nat)
  | publishHeap (owner : AllocationOwner) (agent : AgentId) (snapshot : HeapInitialization)
  | publishCompilerRegion (current : CurrentHeapProcess) (snapshot : HeapInitialization)
      (role : Nat) (payload : List UInt8) (cells : List (Nat × ScopedPointer)) (directory : Bool)
  | publishCompilerArtifact (current : CurrentHeapProcess) (snapshot : HeapInitialization)
      (payload : List UInt8)
  | closeAttachedHeap (reservation : HeapReservation) (owner : AllocationOwner) (object : ObjectId)
  | registerHeapCpuRead (current : CurrentHeapProcess) (pointer : Option ScopedPointer)
      (length expected : Nat)
  | registerHeapCpuWrite (current : CurrentHeapProcess) (pointer : Option ScopedPointer)
      (bytes : List UInt8) (expected : Nat)
  | executeHeapCpuWork (ticket : HeapWorkTicket)
  | cancelHeapCpuWork (ticket : HeapWorkTicket)
  | finishHeapCpuWork (ticket : HeapWorkTicket)
  | enrollHeapCleanupWorker (current : CurrentHeapProcess) (expected : Nat)
  | claimHeapCleanupJob (current : CurrentHeapProcess) (worker : CleanupWorker)
      (reservation : HeapReservation) (owner : AllocationOwner) (object : ObjectId) (expected : Nat)
  | retireHeapAuthority (current : CurrentHeapRetirement) (lease : CleanupLease)
      (owner : AllocationOwner)
  | beginHeapScrub (current : CurrentHeapRetirement) (lease : CleanupLease)
      (owner : AllocationOwner)
  | scrubHeapChunk (current : CurrentHeapRetirement) (snapshot : HeapCleanupSnapshot) (amount : Nat)
  | releaseCleanHeap (current : CurrentHeapRetirement) (snapshot : HeapCleanupSnapshot)
  | revokeHeapCleanupJob (lease : CleanupLease) (owner : AllocationOwner) (object : ObjectId)
  | recoverHeapCleanupJob (lease : CleanupLease) (owner : AllocationOwner) (object : ObjectId)
  /-- A call that other modules make on `fabric.scoped_pointers`. -/
  | registry (op : RegistryOp)

namespace Fabric

/-- A call whose error leaves the Fabric as it was. -/
def orKeep {ε : Type} (f : Fabric) (x : Res ε Fabric) : Res Fabric Fabric :=
  mapErr x fun _ => f

/-- The Fabric of a result. -/
def left {ε α : Type} (x : Res ε (α × Fabric)) : Res ε Fabric := do
  let (_, f) ← x
  return f

/-- The Fabric a call leaves, with a value or with an error. -/
def run (f : Fabric) : FabricOp → Res Fabric Fabric
  | .allocAuthorityId => f.orKeep (left f.allocAuthorityId)
  | .allocObject name size kind => f.orKeep (left (f.tryAllocObject name size kind))
  | .placeObject id base => ok (f.placeObject id base).2
  | .moveObject id base => ok (f.moveObject id base).2
  | .revoke id => ok (f.revoke id)
  | .sealObject id => ok (f.sealObject id).2
  | .destroyObject id => ok (f.destroyObject id)
  | .rollbackUnpublishedObject id => f.orKeep (f.rollbackUnpublishedObject id)
  | .createDomain => left f.createDomain
  | .tryCreateCompilerDomain => f.orKeep (left f.tryCreateCompilerDomain)
  | .destroyDomain id => ok (f.destroyDomain id)
  | .registerAgent id kind domain => ok (f.registerAgent id kind domain)
  | .zeroObjectExtent id => f.orKeep (f.zeroObjectExtent id)
  | .zeroPhysical base size => f.orKeep (f.zeroPhysical base size)
  | .initializeObject id offset data => f.orKeep (f.initializeObject id offset data)
  | .tryWritePhysical addr data => f.orKeep (f.tryWritePhysical addr data)
  | .grant domain object offset length perms =>
    f.orKeep (left (f.grant domain object offset length perms))
  | .grantWithAuthorityId domain object offset length perms authorityId =>
    f.orKeep (left (f.grantWithAuthorityId domain object offset length perms authorityId))
  | .removeByAuthorityId domain target => ok (f.removeByAuthorityId domain target).2
  | .derive domain parent offset length perms =>
    -- no caller can present a parent that was never minted
    if f.history.any (mints parent) = true then
      f.orKeep (left (f.derive domain parent offset length perms))
    else .panic
  | .deriveFromAuthorityId src source dst offset length perms authorityId =>
    f.orKeep (left (f.deriveFromAuthorityId src source dst offset length perms authorityId))
  | .deriveDeviceFromAuthorityId src source object generation rights dst child authorityId =>
    f.orKeep (left
      (f.deriveDeviceFromAuthorityId src source object generation rights dst child authorityId))
  | .delegateDmaSpan domain object offset length perms =>
    left (f.delegateDmaSpan domain object offset length perms)
  | .delegateDmaSpanFromAuthorityId domain source object offset length perms =>
    left (f.delegateDmaSpanFromAuthorityId domain source object offset length perms)
  | .grantDeviceWithAuthorityId domain object rights authorityId =>
    f.orKeep (f.grantDeviceWithAuthorityId domain object rights authorityId)
  | .submit request writeData => left (f.submit request writeData)
  | .advance idx => f.advance idx
  | .executeRead request => left (mapErr (f.executeRead request) (·.2))
  | .executeWrite request data => mapErr (f.executeWrite request data) (·.2)
  | .executeAtomicXchg request newValue =>
    left (mapErr (f.executeAtomicXchg request newValue) (·.2))
  | .discardCompletedCompilerTrace => f.orKeep f.discardCompletedCompilerTrace
  | .collectTrace => f.orKeep f.collectTrace
  | .protectPointerStack object owner domain => f.orKeep (f.protectPointerStack object owner domain)
  | .registerScopedPointer scope request address writable =>
    f.orKeep (left (f.registerScopedPointer scope request address writable))
  | .retirePointerFrame scope locals => f.orKeep (f.retirePointerFrame scope locals)
  | .storePointerCell request pointer => mapErr (f.storePointerCell request pointer) (·.2)
  | .loadPointerCell request => left (mapErr (f.loadPointerCell request) (·.2))
  | .issuePointerFrame owner frame address registrations =>
    f.orKeep (left (f.issuePointerFrame owner frame address registrations))
  | .attachPrivateHeap reservation currentOwner expectedRevision =>
    f.orKeep (left (f.attachPrivateHeap reservation currentOwner expectedRevision))
  | .storeHeapPointerCell owner agent destination source =>
    f.orKeep (f.storeHeapPointerCell owner agent destination source)
  | .writeHeapBytes owner agent destination bytes =>
    f.orKeep (f.writeHeapBytes owner agent destination bytes)
  | .storeHeapTokenInLocal request owner pointer =>
    mapErr (f.storeHeapTokenInLocal request owner pointer) (·.2)
  | .initializePrivateHeapChunk snapshot owner amount revision =>
    f.orKeep (left (f.initializePrivateHeapChunk snapshot owner amount revision))
  | .writePrivateHeap snapshot owner offset data revision =>
    f.orKeep (left (f.writePrivateHeap snapshot owner offset data revision))
  | .publishHeap owner agent snapshot => f.orKeep (left (f.publishHeap owner agent snapshot))
  | .publishCompilerRegion current snapshot role payload cells directory =>
    f.orKeep (left (f.publishCompilerRegion current snapshot role payload cells directory))
  | .publishCompilerArtifact current snapshot payload =>
    f.orKeep (left (f.publishCompilerArtifact current snapshot payload))
  | .closeAttachedHeap reservation owner object =>
    f.orKeep (left (f.closeAttachedHeap reservation owner object))
  | .registerHeapCpuRead current pointer length expected =>
    f.orKeep (left (f.registerHeapCpuRead current pointer length expected))
  | .registerHeapCpuWrite current pointer bytes expected =>
    f.orKeep (left (f.registerHeapCpuWrite current pointer bytes expected))
  | .executeHeapCpuWork ticket => f.orKeep (f.executeHeapCpuWork ticket)
  | .cancelHeapCpuWork ticket => f.orKeep (f.cancelHeapCpuWork ticket)
  | .finishHeapCpuWork ticket => f.orKeep (left (f.finishHeapCpuWork ticket))
  | .enrollHeapCleanupWorker current expected =>
    f.orKeep (left (f.enrollHeapCleanupWorker current expected))
  | .claimHeapCleanupJob current worker reservation owner object expected =>
    f.orKeep (left (f.claimHeapCleanupJob current worker reservation owner object expected))
  | .retireHeapAuthority current lease owner => f.orKeep (f.retireHeapAuthority current lease owner)
  | .beginHeapScrub current lease owner => f.orKeep (left (f.beginHeapScrub current lease owner))
  | .scrubHeapChunk current snapshot amount =>
    f.orKeep (left (f.scrubHeapChunk current snapshot amount))
  | .releaseCleanHeap current snapshot => f.orKeep (f.releaseCleanHeap current snapshot)
  | .revokeHeapCleanupJob lease owner object => f.orKeep (f.revokeHeapCleanupJob lease owner object)
  | .recoverHeapCleanupJob lease owner object =>
    f.orKeep (f.recoverHeapCleanupJob lease owner object)
  | .registry op => f.orKeep (do
    let s ← f.scopedPointers.run op
    return { f with scopedPointers := s })

/-- The Fabric after one call. -/
def step (f : Fabric) (op : FabricOp) : Option Fabric :=
  match f.run op with
  | ok f' => some f'
  | err f' => some f'
  | .panic => none

/-- The Fabrics the constructors return. -/
inductive Constructed : Fabric → Prop
  | new (host : Host) (memSize : Nat) {f : Fabric} (h : new host memSize = ok f) : Constructed f
  | withPreprocessorStorage (host : Host) (memSize : Nat) {f : Fabric}
      (h : withPreprocessorStorage host memSize = ok f) : Constructed f
  | withPrivateHeapProfile (host : Host) (memSize : Nat) (limits : RegistryLimits)
      (placement : HeapPlacementLimits) (workers : Nat) (workLimits : Option HeapWorkLimits)
      {f : Fabric}
        (h : withPrivateHeapProfile host memSize limits placement workers workLimits = ok f) :
      Constructed f

/-- Every Fabric that calls can lead to from a constructor. -/
def Reachable (f : Fabric) : Prop := Machine.Reachable step Constructed f

/-! ## What the constructors build -/

/-- The Fabric a constructor returns: every table is empty. -/
structure Fresh (f : Fabric) : Prop where
  pointerCells : f.pointerCells = ∅
  objects : f.objects = ∅
  domains : f.domains = ∅
  placement : f.placement = ∅
  transactions : f.transactions = []
  history : f.history = []
  rows : ∀ heap row, f.privateHeap = some heap → some row ∉ heap.rows

theorem fromParts_fresh (m : List UInt8) (s : ScopedPointers) {h : Option HeapFabric}
    (hr : ∀ heap row, h = some heap → some row ∉ heap.rows) : Fresh (fromParts m s h) :=
  ⟨rfl, rfl, rfl, rfl, rfl, rfl, hr⟩

theorem heapRows_empty {host : Host} {s re ret g : Nat} {l : HeapPlacementLimits}
    {w : Option HeapWorkLimits} {heap heap' : HeapFabric} {r r' : ScopedPointers}
    {hp : l.physicalPool.base + l.physicalPool.size ≤ u64Max}
    {hwi : l.virtualWindow.base + l.virtualWindow.size ≤ u64Max}
    (hh : HeapFabric.new host s l re hp hwi = ok (heap, ret))
    (hw : withHeapWork host r heap g w = ok (r', heap')) : ∀ row, some row ∉ heap'.rows := by
  simp only [HeapFabric.new, eq_ok] at hh
  obtain ⟨_, -, -, _, -, _, -, _, -, -, rfl, -⟩ := hh
  intro row hr
  cases w with
  | none =>
    cases hw
    simp at hr
  | some l =>
    simp only [withHeapWork, eq_ok] at hw
    obtain ⟨_, -, _, _, -, _, -, -, rfl⟩ := hw
    simp at hr

theorem Constructed.fresh {f : Fabric} (h : Constructed f) : Fresh f := by
  cases h with
  | new host m h =>
    simp only [Fabric.new, eq_ok] at h
    obtain ⟨s, -, rfl⟩ := h
    exact fromParts_fresh _ _ (by simp)
  | withPreprocessorStorage host m h =>
    simp only [Fabric.withPreprocessorStorage, eq_ok] at h
    obtain ⟨_, -, -, s, -, rfl⟩ := h
    exact fromParts_fresh _ _ (by simp)
  | withPrivateHeapProfile host m l p wo w h =>
    simp only [Fabric.withPrivateHeapProfile, eq_ok] at h
    obtain ⟨_, -, -, s, -, _, -, h⟩ := h
    split at h
    · simp only [eq_ok] at h
      obtain ⟨_, _, hh, _, -, _, heap, hw, _, -, rfl⟩ := h
      refine fromParts_fresh _ _ fun heap' row heq => ?_
      exact Option.some.inj heq ▸ heapRows_empty hh hw row
    · cases h

/-! ## Steps -/

theorem step_eq_some {f f' : Fabric} {op : FabricOp} :
    f.step op = some f' ↔ f.run op = ok f' ∨ f.run op = err f' := by
  unfold step
  split <;> simp_all

/-- **A schedule is a run of calls**, so what every run keeps holds after it. -/
theorem run_of_schedule {f f' : Fabric} {ev : List Event}
    (h : (f.runSchedule ev : Res Fabric Fabric) = ok f') :
    Machine.Run step (fun _ _ => True) f f' := by
  induction ev generalizing f with
  | nil => exact ok.inj h ▸ .refl
  | cons eve ev ih =>
    obtain ⟨g, hev, hr⟩ := bind_eq_ok.mp h
    refine .head ?_ (ih hr)
    cases eve with
    | advance idx => exact ⟨.advance idx, trivial, step_eq_some.mpr (.inl hev)⟩
    | revoke id => exact ⟨.revoke id, trivial, step_eq_some.mpr (.inl hev)⟩
    | move id base => exact ⟨.moveObject id base, trivial, step_eq_some.mpr (.inl hev)⟩

/-- Some calls lead from a new Fabric to one with the property. -/
def leadsTo (memSize : Nat) (ops : List FabricOp) (P : Fabric → Bool) : Bool :=
  (Fabric.new exactHost memSize).isOkAnd fun f =>
    (Machine.replay step (fun _ _ => True) ops f).any P

theorem exists_of_replay {ok : Fabric → FabricOp → Prop} [∀ f op, Decidable (ok f op)] {m : Nat}
    {ops : List FabricOp} {P : Fabric → Bool}
    (h : (Fabric.new exactHost m).isOkAnd (fun f => (Machine.replay step ok ops f).any P) = true) :
    ∃ f, Machine.ReachableIf step ok Constructed f ∧ P f = true := by
  obtain ⟨f0, hn, h⟩ := isOkAnd_eq_true.mp h
  obtain ⟨f, hf, hP⟩ := (Option.any_eq_true _ _).mp h
  exact ⟨f, ⟨f0, .new exactHost m hn, Machine.run_of_replay hf⟩, hP⟩

end Fabric

end Anka
