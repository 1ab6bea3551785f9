import Anka.ScopedPointers.Local

/-!
# The pointer registry: heap lifetimes (`scoped_pointers/heap.rs` and its submodules)

Admission, attachment, publication, closure and return of heap lifetimes, owner accounts and host
storage. A `prepare…` function only reads; its plan is consumed by the matching `commit…` under
the same exclusive borrow. The assertions of a commit, its `unwrap`s and its bare subtractions are
`check`, `unwrap` and `minus`, so a commit that could fail panics in the model.

`account`, `reservationRecord` and `reservedExtents` are the lookups every operation starts with:
a token is authentic only if the row it names carries exactly that token.
-/

namespace Anka

open Rust Res

/-- `close_owner`'s loop over the slots: a reserved or live lifetime of the owner closes. -/
def Slot.closedBy (owner : OwnerAccount) (slot : Slot) : Slot :=
  if slot.heap?.any (fun r => r.owner == owner) && (slot.state == .reserved || slot.state == .live)
  then { slot with state := .closing } else slot

/-- A job of the owner that is not queued yet. -/
def CleanupRecord.queuedBy (owner : OwnerAccount) (job : CleanupRecord) : Bool :=
  job.reservation.owner == owner && !job.queued

/-- `close_owner`'s loop over the jobs. -/
def CleanupRecord.closedBy (owner : OwnerAccount) (job : CleanupRecord) : CleanupRecord :=
  if job.queuedBy owner then { job with queued := true } else job

/-- The slot of a lifetime that was returned: `record = Empty`, then `release`. -/
def Slot.vacated (slot : Slot) : Slot := { slot with record := .empty }.release

namespace HeapPlacement

variable (p : HeapPlacement)

/-- `AdmissionPlacement`: both managers' admission plans. -/
structure Admission where
  physical : Take
  virtualPlan : Take

/-- `ReturnPlacement`: both managers' return plans. -/
structure Refund where
  physical : Return
  virtualPlan : Return

/-- Plans the extents of a reservation (placement.rs 127). -/
def prepareReserve (r : HeapReservation) (rounded revision : Nat) :
    Res HeapError Admission := do
  let physical ← mapErr (p.physical.prepareHeapTake r.key rounded revision) .physicalPlacement
  let arena ← unwrap p.virtualArenas[r.owner.index]?
  let virtualPlan ← mapErr (arena.prepareHeapTake r.key rounded revision) .virtualPlacement
  return { physical, virtualPlan }

/-- Claims them (placement.rs 146). -/
def commitReserve (owner : OwnerAccount) (plan : Admission) (revision : Nat) :
    Res HeapError HeapPlacement := do
  let physical ← p.physical.commitHeapTake plan.physical revision
  let arena ← unwrap p.virtualArenas[owner.index]?
  let arena ← arena.commitHeapTake plan.virtualPlan revision
  return { physical, virtualArenas := p.virtualArenas.set owner.index arena }

/-- Plans their release (placement.rs 156). -/
def prepareCancel (r : HeapReservation) (extents : HeapExtents) (revision : Nat) :
    Res HeapError Refund := do
  let physical ← mapErr (p.physical.prepareHeapReturn r.key extents.physical revision)
    .physicalPlacement
  let arena ← unwrap p.virtualArenas[r.owner.index]?
  let virtualPlan ← mapErr (arena.prepareHeapReturn r.key extents.virtualExtent revision)
    .virtualPlacement
  return { physical, virtualPlan }

/-- Releases them (placement.rs 175). -/
def commitCancel (owner : OwnerAccount) (plan : Refund) (revision : Nat) :
    Res HeapError HeapPlacement := do
  let physical ← p.physical.commitHeapReturn plan.physical revision
  let arena ← unwrap p.virtualArenas[owner.index]?
  let arena ← arena.commitHeapReturn plan.virtualPlan revision
  return { physical, virtualArenas := p.virtualArenas.set owner.index arena }

end HeapPlacement

namespace ScopedPointers

variable (s : ScopedPointers)

/-! ## Lookups -/

variable (r : HeapReservation)

/-- The account of a token (heap.rs 263). -/
def account (token : OwnerAccount) : Res HeapError Account :=
  okOr (s.heap.accounts[token.index]?.join.filter fun a => a.token == token) .owner

/-- The record of a reservation (heap.rs 419). -/
def reservationRecord : Res HeapError HeapRecord := do
  let _ ← s.account r.owner
  let slot ← okOr s.slots[r.slot]? .staleReservation
  require (slot.generation = r.generation ∧ slot.state.isHeld = true) .staleReservation
  let record ← okOr slot.heap? .staleReservation
  require (record.owner = r.owner ∧
    (s.heap.cleanup[record.cleanup]?.join.any fun job => job.reservation == r) = true)
    .staleReservation
  return record

/-- `reserved_extents`: both managers still hold the recorded extents under the key. -/
def reservedExtents : Res HeapError HeapExtents := do
  let record ← s.reservationRecord r
  let extents ← okOr record.extents .configuration
  let placement ← okOr s.heap.placement .configuration
  require (placement.physical.reservationExtent r.key = some extents.physical) .staleReservation
  let arena ← unwrap placement.virtualArenas[r.owner.index]?
  require (arena.reservationExtent r.key = some extents.virtualExtent) .staleReservation
  return extents

/-- `self.slots[i]`. -/
def slotAt {ε : Type} (s : ScopedPointers) (i : Nat) : Res ε Slot := unwrap s.slots[i]?

/-- `self.heap.accounts[token.index].as_mut().unwrap()` with its `reserved` replaced. -/
def setReserved {ε : Type} (s : ScopedPointers) (index : Nat) (f : Nat → Res ε Nat) :
    Res ε (List (Option Account)) := do
  let a ← unwrap s.heap.accounts[index]?.join
  let reserved ← f a.reserved
  return s.heap.accounts.set index (some { a with reserved })

/-- The consistency check that four preflights share: size, rounding, both extents and charges. -/
def checkCharges (record : HeapRecord) (account : Account) (extents : HeapExtents) :
    Res HeapError Unit := do
  require (record.logical ≠ 0 ∧ record.logical ≤ i64Max) .configuration
  let rounded ← mapErr (pageCeil record.logical) fun _ => .size
  require (rounded = record.rounded ∧ extents.physical.size = record.rounded ∧
    extents.virtualExtent.size = record.rounded ∧ record.rounded ≤ account.reserved ∧
    account.reserved ≤ s.heap.reservedBytes) .configuration

/-! ## Owner accounts -/

/-- Bind (or unbind) the virtual arena of an account row, after its check. -/
def bindArena (index : Nat) (before after : Option Nat) :
    Res HeapError (Option HeapPlacement) :=
  match s.heap.placement with
  | none => ok none
  | some p => do
    let arena ← unwrap p.virtualArenas[index]?
    mapErr (arena.checkBinding before) .virtualPlacement
    return some { p with virtualArenas := p.virtualArenas.set index (arena.bindOwner after) }

/-- Opens an account (heap.rs 277). -/
def admitOwner (owner : AllocationOwner) (limit : Nat) :
    Res HeapError (OwnerAccount × ScopedPointers) := do
  require (owner.context ≠ 0) .owner
  require ((s.heap.accounts.any fun a => a.any fun a => a.owner.process == owner.process) = false)
    .owner
  require (s.heap.revision ≠ u64Max ∧ s.heap.nextOwner ≠ u64Max) (.capacity .identity)
  let index ← okOr (freeRow s.heap.accounts) (.capacity .owners)
  let token : OwnerAccount := { index, serial := s.heap.nextOwner }
  let placement ← s.bindArena index none (some token.serial)
  let nextOwner ← plus s.heap.nextOwner 1
  let row : Account := { token, owner, closed := false, limit, reserved := 0 }
  let s := { s with heap := { s.heap with
    placement, nextOwner, accounts := s.heap.accounts.set index (some row) } }
  return (token, s.advance)

/-- `close_owner`: fence the account, close its lifetimes, queue its jobs. -/
def closeOwner (owner : OwnerAccount) : Res HeapError (Nat × ScopedPointers) := do
  let account ← s.account owner
  if account.closed then return (0, s)
  let row ← unwrap s.heap.accounts[owner.index]?.join
  let accounts := s.heap.accounts.set owner.index (some { row with closed := true })
  let queued := s.heap.cleanup.countP fun job => job.any (·.queuedBy owner)
  let s := { s with
    slots := s.slots.map (Slot.closedBy owner)
    heap := { s.heap with
      accounts, cleanup := s.heap.cleanup.map (Option.map (CleanupRecord.closedBy owner)) } }
  return (queued, s.advance)

/-- Closes an account with nothing in it (heap.rs 551). -/
def releaseOwner (owner : OwnerAccount) : Res HeapError ScopedPointers := do
  let account ← s.account owner
  require (account.closed = true ∧ account.reserved = 0 ∧
    (s.heap.cleanup.any fun job => job.any fun j => j.reservation.owner == owner) = false) .busy
  let placement ← s.bindArena owner.index (some owner.serial) none
  check (owner.index < s.heap.accounts.length)
  let s := { s with heap := { s.heap with
    placement, accounts := s.heap.accounts.set owner.index none } }
  return s.advance

/-- The loop body of `release_closed_heap_accounts`: the result of the release is dropped. -/
def releaseClosedAccount {ε : Type} (s : ScopedPointers) (index : Nat) :
    Res ε ScopedPointers :=
  match s.heap.accounts[index]?.join with
  | none => ok s
  | some a =>
    if a.closed ∧ a.reserved = 0 then
      match s.releaseOwner a.token with
      | .ok s' => ok s'
      | .err _ => ok s
      | .panic => panic
    else ok s

/-- Closes all that are empty (application.rs 77). -/
def releaseClosedHeapAccounts {ε : Type} (s : ScopedPointers) : Res ε ScopedPointers :=
  (List.range s.heap.accounts.length).foldlM releaseClosedAccount s

/-! ## Reservation and cancellation -/

/-- The slot of a lifetime that was just reserved. -/
def reservedSlot (record : HeapRecord) : Slot :=
  { generation := r.generation, state := .reserved, record := .heap record }

/-- The cleanup job of a lifetime that was just reserved. -/
def reservedJob : CleanupRecord :=
  { reservation := r, queued := false, lease := .unowned 0, version := 0, sequence := 0,
    progress := .pending }

/-- The record of a lifetime that was just reserved. -/
def reservedRecord (owner : OwnerAccount) (logical rounded cleanup : Nat)
    (extents : Option HeapExtents) : HeapRecord :=
  { owner, logical, rounded, cleanup, published := false, writable := true, everAttached := false,
    extents }

/-- Both managers' admission, in the placement profile. -/
def takeExtents (rounded : Nat) : Res HeapError (Option HeapPlacement × Option HeapExtents) :=
  match s.heap.placement with
  | none => ok (none, none)
  | some p => do
    let plan ← p.prepareReserve r rounded s.heap.revision
    let p ← p.commitReserve r.owner plan s.heap.revision
    return (some p, some
      { physical := plan.physical.extent, virtualExtent := plan.virtualPlan.extent })

/-- Takes slot, job, extents and charge, or nothing (heap.rs 332). -/
def reserveHeap (owner : OwnerAccount) (logical expectedRevision : Nat) :
    Res HeapError (HeapReservation × ScopedPointers) := do
  let account ← s.account owner
  require (account.closed = false) .closed
  require (logical ≠ 0 ∧ logical ≤ i64Max) .size
  let rounded ← mapErr (pageCeil logical) fun _ => .size
  require (expectedRevision = s.heap.revision) .staleRevision
  require (s.heap.revision ≠ u64Max ∧ s.heap.nextJob ≠ u64Max) (.capacity .identity)
  let left ← minus account.limit account.reserved
  require (rounded ≤ left) (.capacity .ownerBytes)
  let total ← s.totalReservedBytes
  let left ← minus s.heap.limit total
  require (rounded ≤ left) (.capacity .globalBytes)
  let slot ← okOr s.freeSlot (.capacity .slots)
  let cleanup ← okOr (freeRow s.heap.cleanup) (.capacity .cleanup)
  let old ← s.slotAt slot
  let reservation : HeapReservation :=
    { slot, generation := old.generation + 1, job := s.heap.nextJob, owner }
  let (placement, extents) ← s.takeExtents reservation rounded
  let accounts ← s.setReserved owner.index fun n => plus n rounded
  let reservedBytes ← plus s.heap.reservedBytes rounded
  let nextJob ← plus s.heap.nextJob 1
  let s := { s with
    slots := s.slots.set slot
      (reservedSlot reservation (reservedRecord owner logical rounded cleanup extents))
    activeSlotsEnd := max s.activeSlotsEnd (slot + 1)
    heap := { s.heap with
      placement, accounts, reservedBytes, nextJob
      cleanup := s.heap.cleanup.set cleanup (some (reservedJob reservation)) } }
  return (reservation, s.advance)

/-- The writes that return a lifetime's charge, cleanup row and slot. -/
def releaseLifetime (owner : OwnerAccount) (cleanup rounded : Nat)
    (placement : Option HeapPlacement) : Res HeapError ScopedPointers := do
  let accounts ← s.setReserved owner.index fun n => minus n rounded
  let reservedBytes ← minus s.heap.reservedBytes rounded
  check (cleanup < s.heap.cleanup.length)
  let slot ← s.slotAt r.slot
  let s := { s with
    slots := s.slots.set r.slot slot.vacated
    heap := { s.heap with
      placement, accounts, reservedBytes
      cleanup := s.heap.cleanup.set cleanup none } }
  return s.trimActiveSlots.advance

/-- Both managers' return, for a record that holds extents exactly in the placement profile. -/
def giveBackExtents (record : HeapRecord) : Res HeapError (Option HeapPlacement) :=
  match s.heap.placement, record.extents with
  | none, none => ok none
  | some p, some e => do
    require (e.physical.size = record.rounded ∧ e.virtualExtent.size = record.rounded)
      .staleReservation
    let plan ← p.prepareCancel r e s.heap.revision
    let p ← p.commitCancel record.owner plan s.heap.revision
    return some p
  | _, _ => err .configuration

/-- Gives all of it back (heap.rs 448). -/
def abortHeap : Res HeapError ScopedPointers := do
  let record ← s.reservationRecord r
  require (record.published = false ∧ record.everAttached = false) .busy
  let slot ← s.slotAt r.slot
  require (slot.state = .reserved ∨ slot.state = .closing) .busy
  let account ← s.account record.owner
  require (record.rounded ≤ account.reserved ∧ account.reserved ≤ s.heap.reservedBytes)
    .configuration
  let placement ← s.giveBackExtents r record
  s.releaseLifetime r record.owner record.cleanup record.rounded placement

/-- `close_heap`: close one whole live heap by its base pointer. -/
def closeHeap (owner : OwnerAccount) (pointer : ScopedPointer) :
    Res HeapError ScopedPointers := do
  let account ← s.account owner
  require (account.closed = false) .closed
  let slot ← okOr s.slots[pointer.slot]? .invalidFree
  require (pointer.position = 0 ∧ slot.generation = pointer.generation ∧ slot.state = .live)
    .invalidFree
  let record ← okOr slot.heap? .invalidFree
  require (record.owner = owner ∧ record.published = true) .invalidFree
  let job ← unwrap s.heap.cleanup[record.cleanup]?.join
  let s := { s with
    slots := s.slots.set pointer.slot { slot with state := .closing }
    heap := { s.heap with
      cleanup := s.heap.cleanup.set record.cleanup (some { job with queued := true }) } }
  return s.advance

/-! ## Host storage -/

/-- Takes a row and a charge (host_storage.rs 26). -/
def reserveHostStorage (owner : OwnerAccount) (logical expectedRevision : Nat) :
    Res HeapError (HostStorageReservation × ScopedPointers) := do
  let account ← s.account owner
  require (account.closed = false) .closed
  require (logical ≠ 0 ∧ logical ≤ i64Max) .size
  let rounded ← mapErr (pageCeil logical) fun _ => .size
  require (expectedRevision = s.heap.revision) .staleRevision
  require (s.heap.revision ≠ u64Max ∧ s.heap.nextJob ≠ u64Max) (.capacity .identity)
  require ((checkedSub account.limit account.reserved).any fun n => decide (rounded ≤ n))
    (.capacity .ownerBytes)
  let total ← s.totalReservedBytes
  require ((checkedSub s.heap.limit total).any fun n => decide (rounded ≤ n))
    (.capacity .globalBytes)
  let row ← okOr (freeRow s.heap.hostStorage) (.capacity .hostStorage)
  let token : HostStorageReservation := { row, identity := s.heap.nextJob, account := owner }
  let accounts ← s.setReserved owner.index fun n => plus n rounded
  let reservedBytes ← plus s.heap.reservedBytes rounded
  let nextJob ← plus s.heap.nextJob 1
  let s := { s with heap := { s.heap with
    accounts, reservedBytes, nextJob
    hostStorage := s.heap.hostStorage.set row (some { token, logical, rounded }) } }
  return (token, s.advance)

/-- The row of a token (host_storage.rs 55). -/
def hostStorageRecord (token : HostStorageReservation) : Res HeapError HostStorageRecord := do
  let _ ← s.account token.account
  okOr (s.heap.hostStorage[token.row]?.join.filter fun r => r.token == token) .staleReservation

/-- Gives both back (host_storage.rs 76). -/
def releaseHostStorage (token : HostStorageReservation) : Res HeapError ScopedPointers := do
  let record ← s.hostStorageRecord token
  let account ← s.account token.account
  require (record.rounded ≤ account.reserved ∧ account.reserved ≤ s.heap.reservedBytes)
    .configuration
  let accounts ← s.setReserved token.account.index fun n => minus n record.rounded
  let reservedBytes ← minus s.heap.reservedBytes record.rounded
  let s := { s with heap := { s.heap with
    accounts, reservedBytes, hostStorage := s.heap.hostStorage.set token.row none } }
  return s.advance

end ScopedPointers

end Anka
