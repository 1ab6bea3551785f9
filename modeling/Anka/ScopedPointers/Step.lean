import Anka.Lib.Machine
import Anka.ScopedPointers.Workers

/-!
# The pointer registry as a state machine

`RegistryOp` is one call that the crate can make on a registry: every mutating operation, each
plan together with its commit (the two run under one exclusive borrow, with only reads of the
registry in between), and the preflights that only read. Tokens, pointers, leases and statuses are
arbitrary values, so stale, forged and replayed ones are included.

An error leaves the registry as it was: every operation finishes its checks before its first
write. A panic has no successor state.
-/

namespace Anka

open Rust Res List Option

/-- One call on a registry. -/
inductive RegistryOp where
  | chargeHeapFabricStorage (additional : Nat)
  | enterScopeFor (owner : Nat)
  | enterFrame (owner : Nat) (frame : LocalFrameBacking)
  | register (scope : Scope) (domain base length : Nat) (writable : Bool)
  | registerBacked (scope : Scope) (domain base length : Nat) (writable : Bool)
      (backing : PointerBacking)
  | takeBacking (pointer : ScopedPointer)
  | leaveScope (scope : Scope)
  | admitOwner (owner : AllocationOwner) (limit : Nat)
  | reserveHeap (owner : OwnerAccount) (logical expectedRevision : Nat)
  | abortHeap (r : HeapReservation)
  | closeHeap (owner : OwnerAccount) (pointer : ScopedPointer)
  | closeOwner (owner : OwnerAccount)
  | releaseOwner (owner : OwnerAccount)
  | releaseClosedHeapAccounts
  | reserveHostStorage (owner : OwnerAccount) (logical expectedRevision : Nat)
  | releaseHostStorage (token : HostStorageReservation)
  | attach (r : HeapReservation) (owner : AllocationOwner) (expectedRevision : Nat)
  | initializeChunk (r : HeapReservation) (owner : AllocationOwner) (expectedRevision : Nat)
  | publish (r : HeapReservation) (owner : AllocationOwner) (expectedRevision : Nat)
      (writable : Bool)
  | closeAttached (r : HeapReservation) (owner : AllocationOwner)
  | enrollWorker (identity : CleanupWorkerIdentity) (expected : Nat)
  | claim (worker : CleanupWorker) (identity : CleanupWorkerIdentity) (r : HeapReservation)
      (owner : AllocationOwner) (expected : Nat)
  | fenceWorker (worker : CleanupWorker)
  | removeWorker (worker : CleanupWorker)
  | retire (lease : CleanupLease) (identity : CleanupWorkerIdentity) (owner : AllocationOwner)
  | scrubBegin (lease : CleanupLease) (identity : CleanupWorkerIdentity) (owner : AllocationOwner)
  | scrubChunk (status : HeapCleanupStatus) (identity : CleanupWorkerIdentity)
      (owner : AllocationOwner) (amount : Nat)
  | release (status : HeapCleanupStatus) (identity : CleanupWorkerIdentity)
      (owner : AllocationOwner)
  | transition (lease : CleanupLease) (owner : AllocationOwner) (recover : Bool)
  | workRevision (expected : Nat)
  | workCleanupRevision
  | reservedExtents (r : HeapReservation)
  | heapPointer (pointer : ScopedPointer) (owner : AllocationOwner)
  | retainedWork (r : HeapReservation) (owner : AllocationOwner)

variable {s : ScopedPointers}

namespace ScopedPointers

/-- The result of one call: the state after it, or the error. -/
def run (s : ScopedPointers) : RegistryOp → Res HeapError ScopedPointers
  | .chargeHeapFabricStorage n => s.chargeHeapFabricStorage n
  | .enterScopeFor owner => do
    let (_, s) ← mapErr (s.enterScopeFor owner) .pointer
    return s
  | .enterFrame owner frame => do
    let (scope, s) ← mapErr (s.enterScopeFor owner) .pointer
    s.bindFrame scope frame
  | .register scope domain base length writable => do
    let (_, s) ← mapErr (s.register scope domain base length writable) .pointer
    return s
  | .registerBacked scope domain base length writable backing => do
    let (pointer, s) ← mapErr (s.register scope domain base length writable) .pointer
    s.bindBacking pointer backing
  | .takeBacking pointer => ok (s.takeBacking pointer).2
  | .leaveScope scope => mapErr (s.leaveScope scope) .pointer
  | .admitOwner owner limit => do
    let (_, s) ← s.admitOwner owner limit
    return s
  | .reserveHeap owner logical revision => do
    let (_, s) ← s.reserveHeap owner logical revision
    return s
  | .abortHeap r => s.abortHeap r
  | .closeHeap owner pointer => s.closeHeap owner pointer
  | .closeOwner owner => do
    let (_, s) ← s.closeOwner owner
    return s
  | .releaseOwner owner => s.releaseOwner owner
  | .releaseClosedHeapAccounts => s.releaseClosedHeapAccounts
  | .reserveHostStorage owner logical revision => do
    let (_, s) ← s.reserveHostStorage owner logical revision
    return s
  | .releaseHostStorage token => s.releaseHostStorage token
  | .attach r owner revision => do
    let plan ← s.prepareHeapAttachment r owner revision
    s.commitHeapAttachment plan
  | .initializeChunk r owner revision => do
    let plan ← s.prepareHeapInitialization r owner revision
    s.commitHeapInitialization plan
  | .publish r owner revision writable => do
    let plan ← s.prepareHeapInitialization r owner revision
    let (_, s) ← s.commitHeapImagePublication plan writable
    return s
  | .closeAttached r owner => do
    let plan ← s.prepareAttachedHeapClosure r owner
    let (_, s) ← s.commitAttachedHeapClosure plan
    return s
  | .enrollWorker identity expected => do
    let (_, s) ← s.enrollCleanupWorkerRecord identity expected
    return s
  | .claim worker identity r owner expected => do
    let plan ← s.prepareHeapWorkerClaim worker identity r owner expected
    let (_, s) ← s.commitHeapWorkerClaim plan
    return s
  | .fenceWorker worker => s.fenceCleanupWorkerRecord worker
  | .removeWorker worker => s.removeCleanupWorkerRecord worker
  | .retire lease identity owner => do
    let plan ← s.prepareHeapRetirement lease identity owner
    s.commitHeapRetirement plan
  | .scrubBegin lease identity owner => do
    let plan ← s.prepareHeapScrubBegin lease identity owner
    let (_, s) ← s.commitHeapScrub plan
    return s
  | .scrubChunk status identity owner amount => do
    let plan ← s.prepareHeapScrubChunk status identity owner amount
    let (_, s) ← s.commitHeapScrub plan
    return s
  | .release status identity owner => do
    let plan ← s.prepareHeapRelease status identity owner
    s.commitHeapRelease plan
  | .transition lease owner recover => do
    let plan ← s.prepareWorkerTransition lease owner recover
    s.commitHeapWorkerRecovery plan
  | .workRevision expected => do
    let plan ← s.prepareHeapWorkRevision expected
    s.commitHeapWorkRevision plan
  | .workCleanupRevision => ok s.heapWorkCleanupRevision
  | .reservedExtents r => do
    let _ ← s.reservedExtents r
    return s
  | .heapPointer pointer owner => do
    let _ ← s.prepareHeapPointer pointer owner
    return s
  | .retainedWork r owner => do
    let _ ← s.prepareRetainedHeapWork r owner
    return s

/-- The state after one call. -/
def step (s : ScopedPointers) (op : RegistryOp) : Option ScopedPointers :=
  match s.run op with
  | ok s' => some s'
  | err _ => some s
  | .panic => none

/-- The registries the constructors return. -/
inductive Constructed : ScopedPointers → Prop
  | new (host : Host) (capacity : Nat) {s : ScopedPointers}
      (h : new host capacity = ok s) : Constructed s
  | withLimits (host : Host) (limits : RegistryLimits) {s : ScopedPointers}
      (h : withLimits host limits = ok s) : Constructed s
  | withHeapPlacement (host : Host) (limits : RegistryLimits) (placement : HeapPlacementLimits)
      {s : ScopedPointers} (h : withHeapPlacement host limits placement = ok s) : Constructed s
  | withHeapPlacementAndWorkers (host : Host) (limits : RegistryLimits)
      (placement : HeapPlacementLimits) (capacity : Nat) {s : ScopedPointers}
      (h : withHeapPlacementAndWorkers host limits placement capacity = ok s) : Constructed s

/-- Every registry that calls can lead to from a constructor. -/
def Reachable (s : ScopedPointers) : Prop := Machine.Reachable step Constructed s

/-! ## What the constructors build -/

/-- The registry a constructor returns: empty tables, no charge, a budget that covers the
infrastructure, and managers without claims. -/
structure Fresh (s : ScopedPointers) : Prop where
  slots : ∃ n ≤ u32Max, s.slots = List.replicate n Slot.EMPTY
  scopes : ∃ n, s.scopes = List.replicate n none
  accounts : ∃ n, s.heap.accounts = List.replicate n none
  cleanup : ∃ n ≤ u32Max, s.heap.cleanup = List.replicate n none
  hostStorage : ∃ n, s.heap.hostStorage = List.replicate n none
  workers : ∃ n, s.heap.workers = List.replicate n none
  activeSlotsEnd : s.activeSlotsEnd = 0
  reservedBytes : s.heap.reservedBytes = 0
  fixed_le : s.heap.fixedBytes ≤ s.heap.limit
  limit_le : s.heap.limit ≤ u64Max
  counters : s.nextScope = 1 ∧ s.heap.nextOwner = 1 ∧ s.heap.nextJob = 1 ∧ s.heap.nextWorker = 1
  placement : ∀ p, s.heap.placement = some p → p.physical.bounded.Empty ∧
    p.physical.pool.endAddr.isSome = true ∧ p.virtualArenas.length = s.heap.accounts.length ∧
    ∀ arena ∈ p.virtualArenas, arena.reusable.claims.Empty ∧ arena.layoutStart ≤ arena.limit ∧
      arena.limit ≤ u64Max

theorem Fresh.slot_eq (h : Fresh s) {i : Nat} {slot : Slot} (hsl : s.slots[i]? = some slot) :
    slot = Slot.EMPTY := by
  obtain ⟨n, -, hs⟩ := h.slots
  exact eq_of_mem_replicate (hs ▸ mem_of_getElem? hsl)

theorem Fresh.not_heap (h : Fresh s) {i : Nat} {slot : Slot} {r : HeapRecord}
    (hs : s.slots[i]? = some slot) : slot.record ≠ .heap r := by
  rw [h.slot_eq hs]
  nofun

theorem not_some_replicate {α : Type} {n i : Nat} {a : α} {rows : List (Option α)}
    (h : rows = List.replicate n none) : rows[i]? ≠ some (some a) := by
  intro hr
  have hm : some a ∈ List.replicate n none := h ▸ mem_of_getElem? hr
  cases eq_of_mem_replicate hm

variable {host : Host} {limits : RegistryLimits}

theorem withLimits_fresh (h : withLimits host limits = ok s) :
    Fresh s ∧ s.heap.limit = limits.globalBytes ∧ s.heap.placement = none ∧
      s.heap.accounts = List.replicate limits.owners none := by
  simp only [withLimits, eq_ok] at h
  obtain ⟨⟨hs, hc⟩, _, -, -, _, -, _, -, _, -, _, -, _, -, fi, -, hf, rfl⟩ := h
  refine ⟨⟨⟨_, hs, rfl⟩, ⟨_, rfl⟩, ⟨_, rfl⟩, ⟨_, hc, rfl⟩, ⟨_, rfl⟩, ⟨0, rfl⟩, rfl, rfl, hf,
    limits.globalBytes_le, ⟨rfl, rfl, rfl, rfl⟩, fun _ h => by cases h⟩, rfl, rfl, rfl⟩

theorem arenas_fresh {limits : HeapPlacementLimits} {n b : Nat}
    {are : List VirtualLayoutBuilder} (h : HeapPlacement.arenas host limits n = ok (are, b)) :
    are.length = n ∧ ∀ ar ∈ are, ar.reusable.claims.Empty ∧
      ar.layoutStart ≤ ar.limit ∧ ar.limit ≤ u64Max := by
  induction n generalizing are b with
  | zero =>
    cases h
    exact ⟨rfl, nofun⟩
  | succ n ih =>
    simp only [HeapPlacement.arenas, VirtualLayoutBuilder.reusableFor, eq_ok] at h
    obtain ⟨bu, held, hb, ar, _, ⟨_, -, c, _, free, hn, l, hl, rfl, rfl⟩, _,
      -, _, -, _, -, _, -, rfl, -⟩ := h
    obtain ⟨hle, hal⟩ := ih hb
    obtain ⟨hm, hen⟩ := checkedAdd_eq_some.mp hl
    refine ⟨by simp [hle], fun a ha => ?_⟩
    rcases mem_append.mp ha with ha | ha
    · exact hal a ha
    · obtain rfl := mem_singleton.mp ha
      exact ⟨Claims.new_empty hn, by simp only; omega, by simp only; omega⟩

theorem withHeapPlacement_fresh
    {placement : HeapPlacementLimits} (h : withHeapPlacement host limits placement = ok s) :
    Fresh s ∧ s.heap.limit = limits.globalBytes := by
  simp only [withHeapPlacement, HeapPlacement.new, eq_ok] at h
  obtain ⟨r, hr, _, -, _, ⟨hle, rfl⟩, -, m, ad,
    ⟨b, _, free, hn, _, -, ar, _, ha, _, -, _, -, _, -, _, -, _, -, _, -, _, -, rfl,
      rfl⟩, had, _, ⟨-, rfl⟩, rfl⟩ := h
  obtain ⟨hf, hl, -, ho⟩ := withLimits_fresh hr
  obtain ⟨hln, hal⟩ := arenas_fresh ha
  rw [fixedMetadataBytes] at had hle
  refine ⟨{ hf with fixed_le := ?_, placement := ?_ }, hl⟩
  · simp only [hl]
    omega
  · rintro p hp
    cases hp
    exact ⟨Claims.new_empty hn, Claims.new_pool hn, by simp [hln, ho], hal⟩

theorem Constructed.fresh (h : Constructed s) : Fresh s := by
  cases h with
  | new host c h =>
    unfold ScopedPointers.new at h
    dsimp only at h
    split at h
    · rename_i ho
      cases h
      exact (withLimits_fresh ho).1
    · cases h
  | withLimits host limits h => exact (withLimits_fresh h).1
  | withHeapPlacement host limits p h => exact (withHeapPlacement_fresh h).1
  | withHeapPlacementAndWorkers host limits p c h =>
    simp only [ScopedPointers.withHeapPlacementAndWorkers, eq_ok] at h
    obtain ⟨-, r, hr, _, ⟨hle, rfl⟩, _, -, -, _, -, _, -, hre, _, ⟨-, rfl⟩, rfl⟩ := h
    obtain ⟨hf, hl⟩ := withHeapPlacement_fresh hr
    rw [fixedMetadataBytes] at hre hle
    exact { hf with workers := ⟨_, rfl⟩, fixed_le := by simp only [hl]; omega }

/-! ## Steps -/

theorem step_eq_some {s' : ScopedPointers} {op : RegistryOp} (h : s.step op = some s') :
    s.run op = ok s' ∨ s' = s := by
  unfold step at h
  split at h
  · rename_i heq
    exact .inl (by rw [heq, some.inj h])
  · exact .inr (some.inj h).symm
  · cases h

theorem reachable_of_calls {s0 : ScopedPointers} {ops : List RegistryOp} (h0 : Constructed s0)
    (h : ops.foldlM run s0 = ok s) : Reachable s := by
  suffices hr : ∀ t, Reachable t → ops.foldlM run t = ok s → Reachable s from
    hr s0 ⟨s0, h0, .refl⟩ h
  clear h h0
  induction ops with
  | nil =>
    intro t ht h
    cases h
    exact ht
  | cons op ops ih =>
    intro t ht h
    simp only [foldlM_cons, bind_eq_ok] at h
    obtain ⟨u, hu, h⟩ := h
    refine ih u (Machine.Reachable.tail (i := op) ht ?_) h
    simp only [step, hu]

/-! A small registry: two lifetimes of one owner in two pages. -/

/-- Two slots and one of everything else. -/
def smallLimits : RegistryLimits :=
  { slots := 2, scopes := 1, owners := 1, cleanup := 1, globalBytes := 100000
    globalBytes_le := by decide }

/-- Two pages for one owner. -/
def smallWindow : HeapPlacementLimits :=
  { physicalPool := ⟨65536, 8192⟩, physicalClaims := 1, virtualWindow := ⟨1048576, 8192⟩
    perOwnerClaims := 1 }

/-- The owner of the examples. -/
def firstOwner : AllocationOwner := { process := ⟨1, 0⟩, context := 1, domain := ⟨0⟩ }

/-- The owner is admitted and reserves 100 bytes, -/
def firstCalls : List RegistryOp := [.admitOwner firstOwner 8192, .reserveHeap ⟨0, 1⟩ 100 1]

/-- which gives it this reservation. -/
def firstReservation : HeapReservation := { slot := 0, generation := 1, job := 1, owner := ⟨0, 1⟩ }

end ScopedPointers

end Anka
