import Anka.ScopedPointers.Step
import Mathlib.Data.Prod.Lex

/-!
# What one registry call can change

Every call of the registry is a chain of the atomic changes below (`run_changes`), so an invariant
is proved once per change and not once per call. A change keeps the guard its call established:
which row was free, which record the token named, what the plan reserved.

The lookups come first: a token that is accepted names the row that carries it
(`account_eq_ok`, `Names`).
-/

namespace Anka

open Rust Res List Option Slot

variable {s : Slot} {r : HeapRecord} {owner : OwnerAccount} {old new : Slot}

@[simp] theorem Slot.heap?_eq_some : s.heap? = some r ↔ s.record = .heap r := by
  unfold heap?
  cases s.record <;> simp

@[simp] theorem Slot.local?_eq_some {a : LocalAllocation} :
    s.local? = some a ↔ s.record = .local a := by
  unfold local?
  cases s.record <;> simp

theorem Slot.heap?_eq_none : s.heap? = none ↔ ∀ r, s.record ≠ .heap r := by
  unfold heap?
  cases s.record <;> simp

@[simp] theorem Slot.release_record (s : Slot) : s.release.record = s.record := rfl

@[simp] theorem Slot.vacated_record (s : Slot) : s.vacated.record = .empty := rfl

@[simp] theorem Slot.closedBy_record (owner : OwnerAccount) (s : Slot) :
    (s.closedBy owner).record = s.record := by
  unfold closedBy
  split <;> rfl

@[simp] theorem Slot.closedBy_generation (owner : OwnerAccount) (s : Slot) :
    (s.closedBy owner).generation = s.generation := by
  unfold closedBy
  split <;> rfl

@[simp] theorem CleanupRecord.closedBy_reservation (owner : OwnerAccount) (job : CleanupRecord) :
    (job.closedBy owner).reservation = job.reservation := by
  unfold CleanupRecord.closedBy
  split <;> rfl

theorem Slot.closedBy_eq (h : s.record = .heap r) :
    s.closedBy owner = if r.owner = owner ∧ (s.state = .reserved ∨ s.state = .live) then
      { s with state := .closing } else s := by
  unfold closedBy
  rw [heap?_eq_some.mpr h]
  simp

theorem Slot.closedBy_held (h : s.state.isHeld = true) :
    (s.closedBy owner).state.isHeld = true := by
  unfold closedBy
  split
  · rfl
  · exact h

theorem Slot.available_iff : s.available = true ↔ s.state = .free ∧ s.generation < u32Max := by
  simp [available]

namespace ScopedPointers

/-! ## Lookups -/

variable {s : ScopedPointers} {slot : Slot} {ε : Type} {i : Nat} {r : HeapReservation}

theorem slotAt_eq_ok : (s.slotAt i : Res ε Slot) = ok slot ↔ s.slots[i]? = some slot := by
  simp [slotAt]

theorem account_eq_ok {token : OwnerAccount} {a : Account} :
    s.account token = ok a ↔ s.heap.accounts[token.index]? = some (some a) ∧ a.token = token := by
  unfold account
  rw [okOr_eq_ok, filter_eq_some_iff, join_eq_some_iff]
  simp

/-- The reservation names this slot, record and cleanup job, under a present account. -/
structure Names (s : ScopedPointers) (r : HeapReservation) (slot : Slot) (record : HeapRecord)
    (job : CleanupRecord) : Prop where
  account : ∃ a, s.account r.owner = ok a
  slot_eq : s.slots[r.slot]? = some slot
  generation : slot.generation = r.generation
  held : slot.state.isHeld = true
  record_eq : slot.record = .heap record
  owner : record.owner = r.owner
  job_eq : s.heap.cleanup[record.cleanup]? = some (some job)
  reservation : job.reservation = r

theorem reservationRecord_eq_ok {re : HeapRecord} :
    s.reservationRecord r = ok re ↔ ∃ slot job, Names s r slot re job := by
  simp only [reservationRecord, eq_ok, heap?_eq_some, Option.any_eq_true,
    Option.join_eq_some_iff, beq_iff_eq]
  constructor
  · rintro ⟨a, ha, slot, hslot, ⟨hgen, hheld⟩, r', hre, ⟨ho, job, hjob, hres⟩, rfl⟩
    exact ⟨slot, job, ⟨a, ha⟩, hslot, hgen, hheld, hre, ho, hjob, hres⟩
  · rintro ⟨slot, job, ⟨a, ha⟩, hslot, hgen, hheld, hre, ho, hjob, hres⟩
    exact ⟨a, ha, slot, hslot, ⟨hgen, hheld⟩, re, hre, ⟨ho, job, hjob, hres⟩, rfl⟩

theorem Names.unique {record record' : HeapRecord}
    {job : CleanupRecord} (hn : Names s r slot record job)
    (h : s.reservationRecord r = ok record') : record = record' := by
  have hrecord := reservationRecord_eq_ok.mpr ⟨slot, job, hn⟩
  exact ok.inj (hrecord.symm.trans h)

theorem freeSlot_eq_some (h : s.freeSlot = some i) :
    ∃ slot, s.slots[i]? = some slot ∧ slot.state = .free ∧ slot.generation < u32Max := by
  obtain ⟨hi, ha, -⟩ := findIdx?_eq_some_iff_getElem.mp h
  exact ⟨s.slots[i], getElem?_eq_getElem hi, available_iff.mp ha⟩

theorem setReserved_eq_ok {index : Nat} {f : Nat → Res ε Nat} {ac : List (Option Account)} :
    s.setReserved index f = ok ac ↔ ∃ a n, s.heap.accounts[index]? = some (some a) ∧
      f a.reserved = ok n ∧ ac = s.heap.accounts.set index (some { a with reserved := n }) := by
  simp only [setReserved, eq_ok, join_eq_some_iff]
  constructor
  · rintro ⟨a, ha, n, hn, rfl⟩
    exact ⟨a, n, ha, hn, rfl⟩
  · rintro ⟨a, n, ha, hn, rfl⟩
    exact ⟨a, ha, n, hn, rfl⟩

end ScopedPointers

/-! ## Atomic changes -/

variable {job job' : CleanupRecord}

/-- A lifetime's slot state, record and cleanup job agree. -/
structure Settled (state : SlotState) (record : HeapRecord) (job : CleanupRecord) : Prop where
  queued : job.queued = state.isPending
  reserved : state = .reserved → record.published = false
  live : state = .live → record.published = true
  progress : ScopedPointers.progressValid state record.rounded job

theorem ScopedPointers.progressValid.pending {st : SlotState} {ro : Nat}
    (h : progressValid st ro job) (hs : st ≠ .retired) : job.progress = .pending := by
  unfold progressValid at h
  split at h
  · assumption
  · exact absurd h.1 hs
  · exact absurd h.1 hs

/-! ### What only grows -/

/-- Where a slot stands within one generation. -/
def SlotState.rank : SlotState → Nat
  | reserved => 0
  | live => 1
  | closing => 2
  | retired => 3
  | free => 4
  | exhausted => 4

/-- The age of a slot: its generation, and its stage within it. -/
def Slot.age (s : Slot) : Nat ×ₗ Nat := toLex (s.generation, s.state.rank)

/-- A lease is claimed, revoked and returned once per epoch. -/
def JobLease.clock : JobLease → Nat
  | held epoch _ => 3 * epoch
  | revoking epoch _ => 3 * epoch + 1
  | unowned epoch => 3 * epoch + 2

/-- The order in which scrubbing goes on. -/
def HeapScrubProgress.rank : HeapScrubProgress → Nat
  | pending => 0
  | scrubbing _ => 1
  | clean => 2

/-- The clock of a cleanup job: its lease, its version, and how far the scrub is. -/
def CleanupRecord.clock (job : CleanupRecord) : Nat ×ₗ Nat ×ₗ Nat :=
  toLex (job.lease.clock, toLex (job.version, job.progress.rank))

theorem Slot.age_le (hgen : new.generation = old.generation)
    (hra : old.state.rank ≤ new.state.rank) : old.age ≤ new.age := by
  unfold age
  rw [Prod.Lex.toLex_le_toLex, hgen]
  exact .inr ⟨rfl, hra⟩

theorem Slot.age_lt_of_generation (h : old.generation < new.generation) : old.age < new.age := by
  unfold age
  rw [Prod.Lex.toLex_lt_toLex]
  exact .inl h

theorem CleanupRecord.clock_lt_of_lease (h : job.lease.clock < job'.lease.clock) :
    job.clock < job'.clock := by
  unfold CleanupRecord.clock
  rw [Prod.Lex.toLex_lt_toLex]
  exact .inl h

theorem CleanupRecord.clock_lt_of_version (hl : job'.lease = job.lease)
    (h : job.version < job'.version) : job.clock < job'.clock := by
  unfold CleanupRecord.clock
  rw [Prod.Lex.toLex_lt_toLex, hl, Prod.Lex.toLex_lt_toLex]
  exact .inr ⟨rfl, .inl h⟩

theorem CleanupRecord.clock_lt_of_progress (hl : job'.lease = job.lease)
    (hv : job'.version = job.version) (h : job.progress.rank < job'.progress.rank) :
    job.clock < job'.clock := by
  unfold CleanupRecord.clock
  rw [Prod.Lex.toLex_lt_toLex, hl, Prod.Lex.toLex_lt_toLex, hv]
  exact .inr ⟨rfl, .inr ⟨rfl, h⟩⟩

theorem JobLease.unowned?_eq_some {l : JobLease} {epoch : Nat} :
    l.unowned? = some epoch ↔ l = .unowned epoch := by
  cases l <;> simp [JobLease.unowned?]

/-- A record of the same lifetime: only publication, rights and attachment may differ. -/
structure HeapRecord.Same (a b : HeapRecord) : Prop where
  owner : b.owner = a.owner
  logical : b.logical = a.logical
  rounded : b.rounded = a.rounded
  cleanup : b.cleanup = a.cleanup
  extents : b.extents = a.extents

/-- The calls about roles. -/
def RegistryOp.roles : RegistryOp → Bool
  | enrollWorker _ _ | fenceWorker _ | removeWorker _ => true
  | _ => false

/-- What only few calls do. -/
structure RegistryFootprint where
  /-- The scopes that are left. -/
  left : Scope → Prop := fun _ => True
  /-- The worker rows are written. -/
  roles : Prop := True

/-- Both managers return what the lifetime holds (nothing, without the placement profile). -/
inductive Refunds (revision : Nat) (r : HeapReservation) :
    Option HeapPlacement → Option HeapPlacement → Prop
  | unplaced : Refunds revision r none none
  | placed {p p' : HeapPlacement} (e : HeapExtents) (plan : HeapPlacement.Refund)
      (hprep : p.prepareCancel r e revision = ok plan)
      (hcom : p.commitCancel r.owner plan revision = ok p') :
      Refunds revision r (some p) (some p')

namespace ScopedPointers

/-- What a call does to the worker rows: a row was there before, and not fenced if it is active now,
or it has the next serial; and a row goes only when no job's lease refers to its worker. -/
structure WorkersFollow (s : ScopedPointers) (workers : List (Option WorkerRecord))
    (nextWorker : Nat) : Prop where
  counter : s.heap.nextWorker ≤ nextWorker
  rows : ∀ (i : Nat) (w : WorkerRecord), workers[i]? = some (some w) →
    (∃ w0, s.heap.workers[i]? = some (some w0) ∧ w0.handle = w.handle ∧
      (w.state = .active → w0.state = .active)) ∨
      w.handle.serial = s.heap.nextWorker ∧ s.heap.nextWorker < nextWorker
  kept : ∀ (i : Nat) (w : WorkerRecord), s.heap.workers[i]? = some (some w) →
    (∃ w', workers[i]? = some (some w') ∧ w'.handle = w.handle) ∨
      ∀ (row : Nat) (job : CleanupRecord), s.heap.cleanup[row]? = some (some job) →
        job.lease.refersTo w.handle = false

theorem WorkersFollow.same (s : ScopedPointers) :
    WorkersFollow s s.heap.workers s.heap.nextWorker :=
  ⟨Nat.le_refl _, fun _ w hw => .inl ⟨w, hw, rfl, id⟩, fun _ w hw => .inl ⟨w, hw, rfl⟩⟩

/-- One atomic change of the registry, within a footprint. -/
inductive Change (F : RegistryFootprint) : ScopedPointers → ScopedPointers → Prop
  /-- Scopes, worker roles and the revision. -/
  | quiet (s : ScopedPointers) (scopes : List (Option ScopeRecord))
      (activeScopesEnd nextScope revision : Nat) (workers : List (Option WorkerRecord))
      (nextWorker : Nat) (hsc : s.nextScope ≤ nextScope)
      (hmax : nextScope = s.nextScope ∨ nextScope ≤ u64Max)
      (hscopes : ∀ (i : Nat) (r : ScopeRecord), scopes[i]? = some (some r) →
        r.scope.raw < nextScope ∨ ∃ r0, s.scopes[i]? = some (some r0) ∧ r0.scope = r.scope)
      (hworker : nextWorker = s.heap.nextWorker ∨ nextWorker ≤ u64Max)
      (hworkers : WorkersFollow s workers nextWorker)
      (hroles : F.roles ∨ workers = s.heap.workers) :
      Change F s { s with
        scopes, activeScopesEnd, nextScope, heap := { s.heap with revision, workers, nextWorker } }
  /-- Construction-time storage of the enclosing Fabric. -/
  | fixedCharge (s : ScopedPointers) (n : Nat)
      (h : s.heap.fixedBytes + s.heap.reservedBytes + n ≤ s.heap.limit) :
      Change F s { s with heap := { s.heap with fixedBytes := s.heap.fixedBytes + n } }
  | trimmed (s : ScopedPointers) : Change F s s.trimActiveSlots
  /-- A slot without a heap record is written without one. -/
  | localWrite (s : ScopedPointers) (i bound : Nat) (old new : Slot)
      (hold : s.slots[i]? = some old) (hfree : old.state = .free ∨ ∃ a, old.record = .local a)
      (hnew : ∃ a, new.record = .local a)
      (hbound : bound = s.activeSlotsEnd ∧ (new.inactive = false → old.inactive = false) ∨
        bound = max s.activeSlotsEnd (i + 1))
      (hage : old.age ≤ new.age)
      (hlives : ∀ a, old.state = .live → old.record = .local a →
        new.state = .live ∧ new.generation = old.generation ∧
          ∃ b, new.record = .local b ∧ b.scope = a.scope ∧ b.domain = a.domain) :
      Change F s { s with slots := s.slots.set i new, activeSlotsEnd := bound }
  | localsReleased (s : ScopedPointers) (scope : Scope) (hleft : F.left scope) :
      Change F s { s with slots := releaseLocals s.slots s.activeSlotsEnd scope }
  | admitted (s : ScopedPointers) (index : Nat) (row : Account)
      (placement : Option HeapPlacement) (hfree : s.heap.accounts[index]? = some none)
      (htok : row.token = { index, serial := s.heap.nextOwner }) (hopen : row.closed = false)
      (hzero : row.reserved = 0) (hnext : s.heap.nextOwner + 1 ≤ u64Max)
      (hbind : s.bindArena index none (some s.heap.nextOwner) = ok placement) :
      Change F s { s with heap := { s.heap with
        placement, nextOwner := s.heap.nextOwner + 1
        accounts := s.heap.accounts.set index (some row) } }
  | reserved (s : ScopedPointers) (a : Account) (owner : OwnerAccount)
      (slot cleanup logical rounded : Nat) (old : Slot) (r : HeapReservation)
      (placement : Option HeapPlacement) (extents : Option HeapExtents)
      (hacc : s.account owner = ok a) (hopen : a.closed = false)
      (hlogc : logical ≠ 0 ∧ logical ≤ i64Max) (hround : pageCeil logical = ok rounded)
      (hjob : s.heap.nextJob + 1 ≤ u64Max) (hlim : a.reserved + rounded ≤ a.limit)
      (htot : s.heap.fixedBytes + s.heap.reservedBytes + rounded ≤ s.heap.limit)
      (hslot : s.slots[slot]? = some old) (hfree : old.state = .free)
      (hgen : old.generation < u32Max) (hrow : s.heap.cleanup[cleanup]? = some none)
      (hr : r = { slot, generation := old.generation + 1, job := s.heap.nextJob, owner })
      (htake : s.takeExtents r rounded = ok (placement, extents)) :
      Change F s { s with
        slots := s.slots.set slot
          (reservedSlot r (reservedRecord owner logical rounded cleanup extents))
        activeSlotsEnd := max s.activeSlotsEnd (slot + 1)
        heap := { s.heap with
          placement, nextJob := s.heap.nextJob + 1
          accounts := s.heap.accounts.set owner.index
            (some { a with reserved := a.reserved + rounded })
          reservedBytes := s.heap.reservedBytes + rounded
          cleanup := s.heap.cleanup.set cleanup (some (reservedJob r)) } }
  | refunded (s : ScopedPointers) (a : Account) (r : HeapReservation) (record : HeapRecord)
      (slot : Slot) (placement : Option HeapPlacement) (hacc : s.account r.owner = ok a)
      (hrecord : s.reservationRecord r = ok record) (hslot : s.slots[r.slot]? = some slot)
      (hheld : record.rounded ≤ a.reserved) (htot : record.rounded ≤ s.heap.reservedBytes)
      (hrefund : Refunds s.heap.revision r s.heap.placement placement) :
      Change F s { s with
        slots := s.slots.set r.slot slot.vacated
        heap := { s.heap with
          placement
          accounts := s.heap.accounts.set r.owner.index
            (some { a with reserved := a.reserved - record.rounded })
          reservedBytes := s.heap.reservedBytes - record.rounded
          cleanup := s.heap.cleanup.set record.cleanup none } }
  | hostReserved (s : ScopedPointers) (a : Account) (owner : OwnerAccount)
      (row logical rounded : Nat) (hacc : s.account owner = ok a)
      (hround : pageCeil logical = ok rounded) (hjob : s.heap.nextJob + 1 ≤ u64Max)
      (hlim : a.reserved + rounded ≤ a.limit)
      (htot : s.heap.fixedBytes + s.heap.reservedBytes + rounded ≤ s.heap.limit)
      (hrow : s.heap.hostStorage[row]? = some none) :
      Change F s { s with heap := { s.heap with
        nextJob := s.heap.nextJob + 1
        accounts := s.heap.accounts.set owner.index
          (some { a with reserved := a.reserved + rounded })
        reservedBytes := s.heap.reservedBytes + rounded
        hostStorage := s.heap.hostStorage.set row (some
          { token := { row, identity := s.heap.nextJob, account := owner }, logical, rounded }) } }
  | hostRefunded (s : ScopedPointers) (a : Account) (token : HostStorageReservation)
      (record : HostStorageRecord) (hacc : s.account token.account = ok a)
      (hrow : s.heap.hostStorage[token.row]? = some (some record)) (htok : record.token = token)
      (hheld : record.rounded ≤ a.reserved) (htot : record.rounded ≤ s.heap.reservedBytes) :
      Change F s { s with heap := { s.heap with
        accounts := s.heap.accounts.set token.account.index
          (some { a with reserved := a.reserved - record.rounded })
        reservedBytes := s.heap.reservedBytes - record.rounded
        hostStorage := s.heap.hostStorage.set token.row none } }
  /-- A lifetime moves to another stage; its identity, charge and extents stay. -/
  | relabelled (s : ScopedPointers) (i : Nat) (slot new : Slot) (record record' : HeapRecord)
      (job job' : CleanupRecord) (hslot : s.slots[i]? = some slot)
      (hrecord : slot.record = .heap record) (hnew : new.record = .heap record')
      (hsame : record.Same record') (hgen : new.generation = slot.generation)
      (hheld : new.state.isHeld = true) (hlive : slot.inactive = false)
      (hjob : s.heap.cleanup[record.cleanup]? = some (some job))
      (hres : job'.reservation = job.reservation)
      (hsetl : Settled slot.state record job → Settled new.state record' job')
      (hpend : slot.state.isPending = true → new.state.isPending = true)
      (hatt : record'.everAttached = true →
        record.everAttached = true ∨ s.heap.placement.isSome = true)
      (hage : slot.age ≤ new.age) (hclock : job.clock ≤ job'.clock)
      (hrefers : ∀ handle, job'.lease.refersTo handle = true →
        job.lease.refersTo handle = true ∨ ∃ row, s.worker handle = ok row) :
      Change F s { s with
        slots := s.slots.set i new
        heap := { s.heap with cleanup := s.heap.cleanup.set record.cleanup (some job') } }
  | ownerClosed (s : ScopedPointers) (a : Account) (owner : OwnerAccount)
      (hacc : s.account owner = ok a) :
      Change F s { s with
        slots := s.slots.map (Slot.closedBy owner)
        heap := { s.heap with
          accounts := s.heap.accounts.set owner.index (some { a with closed := true })
          cleanup := s.heap.cleanup.map (Option.map (CleanupRecord.closedBy owner)) } }
  | ownerReleased (s : ScopedPointers) (a : Account) (owner : OwnerAccount)
      (placement : Option HeapPlacement) (hacc : s.account owner = ok a)
      (hzero : a.reserved = 0)
      (hjobs : (s.heap.cleanup.any fun job => job.any fun j =>
        j.reservation.owner == owner) = false)
      (hbind : s.bindArena owner.index (some owner.serial) none = ok placement) :
      Change F s { s with heap := { s.heap with
        placement, accounts := s.heap.accounts.set owner.index none } }

/-- A chain of changes. -/
abbrev Changes (F : RegistryFootprint) : ScopedPointers → ScopedPointers → Prop :=
  Relation.ReflTransGen (Change F)

end ScopedPointers

end Anka
