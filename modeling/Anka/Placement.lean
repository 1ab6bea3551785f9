import Anka.Lib.Res
import Anka.Lib.Table

/-!
# Bounded extent managers (`placement.rs`, `placement/bounded.rs`)

`Claims` with its free list is the extent algebra both managers of the heap profile share: the
physical manager over one dedicated pool, and one virtual arena per owner account. A `prepare…`
function computes a plan and changes nothing; the matching commit applies it. The commits' debug
assertions and index expressions are `check`s here, so that a commit which could not be applied
panics in the model as it does in the source.

Host allocation is outside the program: `Host.reserve` answers with the capacity the allocator
grants a table (at least the one asked for), or refuses; `Host.sizeOf` is `size_of`. A free list
keeps its capacity, because `Claims::shape` and `prepare_return` read it.

`Vec::partition_point` is documented on a vector partitioned by the predicate, where it is the
length of the prefix that satisfies it (`takeWhile`).

The `ObjectId` mode of the physical manager is `ObjectPlacementManager`. Left out: the monotonic
layout of the virtual one, which the heap registry never uses.
-/

namespace Anka

open Rust Res List Option
variable {size rounded : Nat}

/-! ## Host allocation -/

/-- The Rust types whose `size_of` the registry charges. -/
inductive HostType where
  | scopedPointers
  | slot
  | scopeRecord
  | account
  | cleanupRecord
  | hostStorageRecord
  | workerRecord
  | claim
  | extent
  | virtualLayoutBuilder
  | heapFabric
  | privateHeapRow
  | scopedPointer
  | fabricScratch
  | workRecord
  | cpuSourceSlot
  | workScratch

/-- The tables the registry allocates once. -/
inductive HostTable where
  | slots
  | scopes
  | accounts
  | cleanup
  | hostStorage
  | workers
  | physicalRows
  | physicalFree
  | arenas
  | arenaRows (owner : Nat)
  | arenaFree (owner : Nat)
  | heapRows
  | heapShadow
  | workRecords
  | workSources
  | memory

/-- The host: type layouts, and the capacity `try_reserve_exact` leaves a table with. -/
structure Host where
  sizeOf : HostType → Nat
  /-- Value storage of the largest admission or return plan (`HeapPlacement::scratch_bytes`). -/
  placementScratch : Nat
  reserve : HostTable → Nat → Option Nat
  le_reserve : ∀ t n c, reserve t n = some c → n ≤ c

/-- A host whose types take one byte each and whose allocator grants exactly what is asked. -/
def exactHost : Host :=
  { sizeOf := fun _ => 1, placementScratch := 1, reserve := fun _ n => some n
    le_reserve := fun _ _ _ h => Nat.le_of_eq (some.inj h) }

/-! ## Extents -/

/-- A half-open extent `[base, base + size)`, physical or virtual. -/
structure Extent where
  base : Nat
  size : Nat
  deriving DecidableEq

/-- `end`: `None` when it overflows. -/
def Extent.endAddr (e : Extent) : Option Nat := checkedAdd e.base e.size

/-- Why a placement fails. -/
inductive PlacementError where
  | invalidPool
  | zeroSize
  | overflow
  | ownerAlreadyAllocated
  | unknownOwner
  | composedReleaseRequiresFabricCheck
  | objectStillPlaced
  | outOfMemory
  | unknownObject
  | objectAlreadyPlaced
  | fabricRejected
  | reservationCapacity
  | hostAllocation
  | reservationMismatch
  | wrongMode
  deriving DecidableEq

/-- `PLACEMENT_PAGE_SIZE`. -/
def pageSize : Nat := 0x1000

/-- On a page boundary (placement.rs 92). -/
def isPageAligned (v : Nat) : Bool := v % pageSize == 0

/-- Minimal page rounding; zero is not a valid request. -/
def pageCeil (size : Nat) : Res PlacementError Nat := do
  require (size ≠ 0) .zeroSize
  let v ← okOr (checkedAdd size (pageSize - 1)) .overflow
  let rounded := v / pageSize * pageSize
  require (rounded ≠ 0) .overflow
  return rounded

section

variable (h : pageCeil size = ok rounded)
include h

theorem pageCeil_rounded {ag : Nat} (h' : pageCeil rounded = ok ag) : ag = rounded := by
  simp only [pageCeil, eq_ok, pageSize] at h h'
  obtain ⟨-, _, ⟨-, rfl⟩, -, rfl⟩ := h
  obtain ⟨-, _, ⟨-, rfl⟩, -, rfl⟩ := h'
  omega

theorem pageCeil_le : rounded ≤ u64Max := by
  simp only [pageCeil, eq_ok] at h
  obtain ⟨-, _, ⟨hm, rfl⟩, -, rfl⟩ := h
  exact Nat.le_trans (Nat.div_mul_le_self _ _) hm

theorem pageCeil_ge : size ≤ rounded := by
  simp only [pageCeil, eq_ok, pageSize] at h
  obtain ⟨_, _, ⟨_, rfl⟩, _, rfl⟩ := h
  omega

theorem pageCeil_pos : 0 < rounded := by
  simp only [pageCeil, eq_ok] at h
  obtain ⟨-, v, -, hn, rfl⟩ := h
  omega

theorem pageCeil_dvd : pageSize ∣ rounded := by
  simp only [pageCeil, eq_ok] at h
  obtain ⟨-, v, -, -, rfl⟩ := h
  exact Nat.dvd_mul_left _ _

end

/-- Whole pages that end in memory (placement.rs 107). -/
def validExtent (e : Extent) : Bool :=
  e.size != 0 && isPageAligned e.base && isPageAligned e.size && e.endAddr.isSome

/-! ## Claims -/

/-- Exact identity of one reservation. -/
structure ReservationKey where
  owner : Nat
  slot : Nat
  generation : Nat
  job : Nat
  deriving DecidableEq

/-- No field is zero (bounded.rs 16). -/
def ReservationKey.valid (k : ReservationKey) : Bool :=
  k.owner != 0 && k.slot != 0 && k.generation != 0 && k.job != 0 && k.job != u64Max

/-- A claimed extent. -/
structure Claim where
  key : ReservationKey
  extent : Extent
  deriving DecidableEq

/-- A free list with the capacity it was allocated with. -/
structure FreeList where
  extents : List Extent
  capacity : Nat
  deriving DecidableEq

/-- The table of claims. -/
structure Claims where
  rows : List (Option Claim)
  held : Nat
  deriving DecidableEq

/-- A planned claim. -/
structure Take where
  claim : Nat
  hole : Nat
  before : Extent
  suffix : Option Extent
  key : ReservationKey
  extent : Extent
  revision : Nat

/-- A planned release. -/
structure Return where
  claim : Nat
  index : Nat
  left : Bool
  right : Bool
  merged : Extent
  key : ReservationKey
  extent : Extent
  revision : Nat

/-- `storage_bytes::<T>(capacity)`. -/
def storageBytes (host : Host) (t : HostType) (capacity : Nat) : Res PlacementError Nat :=
  okOr (checkedMul capacity (host.sizeOf t)) .overflow

variable {plan : Return} {ε : Type}

namespace Claims

variable {pool : Extent} {c c' : Claims} {free : FreeList} {key : ReservationKey} {rev : Nat}

/-- The bytes of a table (bounded.rs 68). -/
def minimumBytes (host : Host) (k : Nat) : Res PlacementError Nat := do
  require (k ≤ u32Max) .reservationCapacity
  let n ← okOr (checkedAdd k 2) .overflow
  let rows ← storageBytes host .claim k
  let free ← storageBytes host .extent n
  okOr (checkedAdd rows free) .overflow

/-- `Claims::new`: the claims table, its capacity, and a free list that holds the whole pool. -/
def new (host : Host) (rowsTable freeTable : HostTable) (k : Nat) (pool : Extent) :
    Res PlacementError (Claims × Nat × FreeList) := do
  let _ ← minimumBytes host k
  require (validExtent pool = true) .invalidPool
  let rowsCap ← okOr (host.reserve rowsTable k) .hostAllocation
  let freeCap ← okOr (host.reserve freeTable (k + 2)) .hostAllocation
  return ({ rows := List.replicate k none, held := 0 }, rowsCap,
    { extents := [pool], capacity := freeCap })

/-- No row holds a claim, in a table of a representable size. -/
def Empty (c : Claims) : Prop := ∃ k ≤ u32Max, c.rows = List.replicate k none

variable {host : Host} {rowsTable freeTable : HostTable} {k cap : Nat} {i : Nat} {e : Extent}
  {log : Nat} {free' : FreeList} {bad : PlacementError → Prop}

theorem new_empty (h : new host rowsTable freeTable k pool = ok (c, cap, free)) : c.Empty := by
  simp only [new, minimumBytes, eq_ok] at h
  obtain ⟨_, ⟨hk, -⟩, -, _, -, _, -, rfl, -⟩ := h
  exact ⟨k, hk, rfl⟩

theorem new_pool (h : new host rowsTable freeTable k pool = ok (c, cap, free)) :
    pool.endAddr.isSome = true := by
  simp only [new, eq_ok, validExtent, Bool.and_eq_true] at h
  obtain ⟨_, -, ⟨-, hen⟩, -⟩ := h
  exact hen

/-- The extent of the first row under `key`. -/
def extent (c : Claims) (key : ReservationKey) : Option Extent :=
  ((c.rows.filterMap id).find? fun r => r.key == key).map (·.extent)

/-- Table and free list fit (bounded.rs 114). -/
def shape (c : Claims) (free : FreeList) : Res PlacementError Unit :=
  require (c.held ≤ c.rows.length ∧ free.extents.length ≤ c.held + 1 ∧
    c.rows.length + 2 ≤ free.capacity) .reservationMismatch

/-- Plans a claim: first fit (bounded.rs 124). -/
def prepareTake (c : Claims) (free : FreeList) (key : ReservationKey) (logical revision : Nat) :
    Res PlacementError Take := do
  c.shape free
  require (key.valid = true ∧ revision ≠ u64Max ∧ (c.extent key).isNone) .reservationMismatch
  require (c.held ≠ c.rows.length) .reservationCapacity
  let claim ← okOr (c.rows.findIdx? (·.isNone)) .reservationCapacity
  let size ← pageCeil logical
  let hole ← okOr (free.extents.findIdx? fun e => decide (size ≤ e.size)) .outOfMemory
  let before ← unwrap free.extents[hole]?
  let endAt ← okOr (checkedAdd before.base size) .overflow
  return { claim, hole, before,
           suffix := if size < before.size then some ⟨endAt, before.size - size⟩ else none,
           key, extent := ⟨before.base, size⟩, revision }

/-- `take`: commit an admission plan. -/
def take (c : Claims) (free : FreeList) (plan : Take) (revision : Nat) :
    Res ε (Claims × FreeList) := do
  check (plan.revision = revision)
  check (c.rows[plan.claim]? = some none)
  check (free.extents[plan.hole]? = some plan.before)
  let extents := match plan.suffix with
    | some suffix => free.extents.set plan.hole suffix
    | none => free.extents.eraseIdx plan.hole
  let held ← plus c.held 1
  return ({ rows := c.rows.set plan.claim (some ⟨plan.key, plan.extent⟩), held },
    { free with extents })

/-- Plans a release: joins its neighbours (bounded.rs 189). -/
def prepareReturn (c : Claims) (free : FreeList) (pool : Extent) (key : ReservationKey)
    (extent : Extent) (revision : Nat) : Res PlacementError Return := do
  c.shape free
  let claim ← okOr (c.rows.findIdx? (· == some ⟨key, extent⟩)) .reservationMismatch
  let endAt ← okOr extent.endAddr .overflow
  require (validExtent extent = true ∧ pool.base ≤ extent.base) .reservationMismatch
  let poolEnd ← unwrap pool.endAddr
  require (endAt ≤ poolEnd ∧ c.held ≠ 0 ∧ free.extents.length ≠ free.capacity) .reservationMismatch
  let index := (free.extents.takeWhile fun e => decide (e.base < extent.base)).length
  let before := if index = 0 then none else free.extents[index - 1]?
  let after := free.extents[index]?
  require ((before.all fun e => e.endAddr.any fun n => decide (n ≤ extent.base)) = true ∧
    (after.all fun e => decide (endAt ≤ e.base)) = true) .reservationMismatch
  let left := before.any fun e => e.endAddr == some extent.base
  let right := after.any fun e => e.base == endAt
  let base := if left then (before.map (·.base)).getD extent.base else extent.base
  let mergedEnd ← okOr (if right then after.bind Extent.endAddr else some endAt) .overflow
  let size ← okOr (checkedSub mergedEnd base) .overflow
  return { claim, index, left, right, merged := ⟨base, size⟩, key, extent, revision }

/-- `give_back`: commit a return plan. The three list edits are the source's `insert`, the
`remove` of the right neighbour, and the write (or the `remove` and write) of the merged extent. -/
def giveBack (c : Claims) (free : FreeList) (plan : Return) (revision : Nat) :
    Res ε (Claims × FreeList) := do
  check (plan.revision = revision)
  check (c.rows[plan.claim]? = some (some ⟨plan.key, plan.extent⟩))
  check (free.extents.length < free.capacity)
  check (plan.index ≤ free.extents.length)
  let inserted := free.extents.insertIdx plan.index plan.extent
  check (plan.right = true → plan.index + 1 < inserted.length)
  let closed := if plan.right then inserted.eraseIdx (plan.index + 1) else inserted
  check (plan.index < closed.length)
  check (plan.left = true → 0 < plan.index)
  let extents :=
    if plan.left then (closed.eraseIdx plan.index).set (plan.index - 1) plan.merged
    else closed.set plan.index plan.merged
  let held ← minus c.held 1
  return ({ rows := c.rows.set plan.claim none, held }, { free with extents })

/-! ### What the commits do to the claims -/

/-- Exactly one row is claimed under the key, with this extent. -/
def Holds (c : Claims) (key : ReservationKey) (e : Extent) : Prop :=
  ∃ i, c.rows[i]? = some (some ⟨key, e⟩) ∧
    ∀ (j : Nat) (claim : Claim), c.rows[j]? = some (some claim) → claim.key = key → j = i

theorem extent_eq_none (h : c.extent key = none) {cl : Claim}
    (hr : c.rows[i]? = some (some cl)) : cl.key ≠ key := by
  simp only [extent, map_eq_none_iff, find?_eq_none, beq_iff_eq] at h
  exact h cl (mem_filterMap.mpr ⟨some cl, mem_of_getElem? hr, rfl⟩)

theorem Holds.extent (h : c.Holds key e) : c.extent key = some e := by
  obtain ⟨i, hr, hu⟩ := h
  cases hex : c.extent key with
  | none => exact absurd rfl (extent_eq_none hex hr)
  | some e' =>
    simp only [Claims.extent, map_eq_some_iff] at hex
    obtain ⟨claim, hf, rfl⟩ := hex
    obtain ⟨row, hm, hr'⟩ := mem_filterMap.mp (mem_of_find?_eq_some hf)
    obtain ⟨j, hj⟩ := mem_iff_getElem?.mp hm
    obtain rfl : row = some claim := hr'
    have hk : claim.key = key := by simpa using find?_some hf
    rw [hu j claim hj hk, hr] at hj
    obtain rfl := some.inj (some.inj hj)
    rfl

/-- What an admission plan has checked. -/
structure TakeChecked (c : Claims) (free : FreeList) (key : ReservationKey)
    (logical revision : Nat) (plan : Take) : Prop where
  free_row : c.rows[plan.claim]? = some none
  fresh : ∀ (i : Nat) (claim : Claim), c.rows[i]? = some (some claim) → claim.key ≠ key
  key_eq : plan.key = key
  revision_eq : plan.revision = revision
  size : pageCeil logical = ok plan.extent.size
  hole : free.extents[plan.hole]? = some plan.before
  room : c.held < c.rows.length

theorem prepareTake_eq_ok {plan : Take} (h : c.prepareTake free key log rev = ok plan) :
    TakeChecked c free key log rev plan := by
  simp only [prepareTake, shape, eq_ok, isNone_iff_eq_none] at h
  obtain ⟨⟨hh, -⟩, ⟨-, -, hk⟩, hro, claim, hc, size, hs, hole, -, b, hb, _, -, rfl⟩ := h
  obtain ⟨hl, hn, -⟩ := findIdx?_eq_some_iff_getElem.mp hc
  have hr : c.rows[claim]? = some none := by
    rw [getElem?_eq_getElem hl, isNone_iff_eq_none.mp hn]
  exact ⟨hr, fun i cl hcl => extent_eq_none hk hcl, rfl, rfl, hs, hb, by omega⟩

theorem take_eq_ok {plan : Take} (h : (c.take free plan rev : Res ε _) = ok (c', free')) :
    c.rows[plan.claim]? = some none ∧
      c'.rows = c.rows.set plan.claim (some ⟨plan.key, plan.extent⟩) := by
  simp only [take, eq_ok] at h
  obtain ⟨-, hr, -, _, -, rfl, -⟩ := h
  exact ⟨hr, rfl⟩

theorem giveBack_eq_ok (h : (c.giveBack free plan rev : Res ε _) = ok (c', free')) :
    c.rows[plan.claim]? = some (some ⟨plan.key, plan.extent⟩) ∧
      c'.rows = c.rows.set plan.claim none := by
  simp only [giveBack, eq_ok] at h
  obtain ⟨-, hr, -, -, -, -, -, _, -, rfl, -⟩ := h
  exact ⟨hr, rfl⟩

/-- What a return plan has checked. -/
structure ReturnChecked (c : Claims) (free : FreeList) (key : ReservationKey) (extent : Extent)
    (revision : Nat) (plan : Return) : Prop where
  row : c.rows[plan.claim]? = some (some ⟨key, extent⟩)
  key_eq : plan.key = key
  extent_eq : plan.extent = extent
  revision_eq : plan.revision = revision
  held : c.held ≠ 0
  room : free.extents.length < free.capacity
  index : plan.index ≤ free.extents.length
  right : plan.right = true → plan.index < free.extents.length
  left : plan.left = true → 0 < plan.index

theorem prepareReturn_eq_ok {ex : Extent}
    (h : c.prepareReturn free pool key ex rev = ok plan) :
    ReturnChecked c free key ex rev plan := by
  simp only [prepareReturn, shape, eq_ok] at h
  obtain ⟨⟨hh, hf, hca⟩, cl, hc, _, -, -, _, -, ⟨-, hn, -⟩, -, _, -, _, -, rfl⟩ := h
  obtain ⟨hlt, hro, -⟩ := findIdx?_eq_some_iff_getElem.mp hc
  have hi : (free.extents.takeWhile fun e => decide (e.base < ex.base)).length ≤
      free.extents.length := (List.takeWhile_prefix _).length_le
  refine ⟨?_, rfl, rfl, rfl, hn, by omega, hi, fun hr => ?_, fun hl => ?_⟩
  · rw [List.getElem?_eq_getElem hlt, beq_iff_eq.mp hro]
  · simp only [Option.any_eq_true] at hr
    obtain ⟨e, he, -⟩ := hr
    exact (List.getElem?_eq_some_iff.mp he).1
  · by_contra hz
    simp only [Nat.not_lt, Nat.le_zero_eq] at hz
    simp [hz] at hl

theorem prepareTake_avoids (c : Claims) (free : FreeList)
    (key : ReservationKey) (log rev : Nat) (hb : ∀ e, ¬ bad e) :
    (c.prepareTake free key log rev).Avoids bad := by
  simp only [prepareTake, shape, pageCeil, avoids_iff, okOr_eq_ok, hb]
  intro _ _ _ _ _ _ cl hc size hs hole hh
  obtain ⟨hl, -⟩ := findIdx?_eq_some_iff_getElem.mp hh
  simp [hl]

theorem take_avoids {bad : ε → Prop} {plan : Take}
    (h : TakeChecked c free key log rev plan) (hr : c.rows.length ≤ u32Max) :
    (c.take free plan rev : Res ε _).Avoids bad := by
  have hro := h.room
  simp only [take, avoids_iff]
  refine ⟨h.revision_eq, fun _ _ => ⟨h.free_row, fun _ _ => ⟨h.hole, fun _ _ => ?_⟩⟩⟩
  unfold u64Max
  unfold u32Max at hr
  omega

theorem prepareReturn_avoids (c : Claims) (free : FreeList) (key : ReservationKey) (ex : Extent)
    (rev : Nat) (hb : ∀ e, ¬ bad e) (hp : pool.endAddr.isSome = true) :
    (c.prepareReturn free pool key ex rev).Avoids bad := by
  simp [prepareReturn, shape, hb, hp]

theorem giveBack_avoids {bad : ε → Prop} {ex : Extent}
    (h : ReturnChecked c free key ex rev plan) :
    (c.giveBack free plan rev : Res ε _).Avoids bad := by
  have hi := h.index
  have hri := h.right
  have hh := h.held
  have hin : (free.extents.insertIdx plan.index plan.extent).length =
      free.extents.length + 1 := by simp [length_insertIdx, hi]
  simp only [giveBack, avoids_iff]
  refine ⟨h.revision_eq, fun _ _ => ⟨by rw [h.row, h.key_eq, h.extent_eq], fun _ _ => ⟨h.room,
    fun _ _ =>
      ⟨hi, fun _ _ => ⟨fun hr => ?_, fun _ _ => ⟨?_, fun _ _ => ⟨h.left, fun _ _ => ?_⟩⟩⟩⟩⟩⟩⟩
  · have := hri hr
    omega
  · split
    · rename_i hr
      have := hri hr
      rw [length_eraseIdx]
      split <;> omega
    · omega
  · omega

theorem take_holds (hf : c.rows[i]? = some none) (hr : c'.rows = c.rows.set i (some ⟨key, e⟩))
    (hfr : ∀ (j : Nat) (cl : Claim), c.rows[j]? = some (some cl) → cl.key ≠ key) :
    c'.Holds key e := by
  refine ⟨i, ?_, fun j cl hj hk => ?_⟩
  · rw [hr, getElem?_set_row hf, if_pos rfl]
  · rw [hr, getElem?_set_row hf] at hj
    split at hj
    · exact Eq.symm ‹_›
    · exact absurd hk (hfr j cl hj)

theorem Holds.set {old new : Option Claim} (h : c.Holds key e) (hr : c.rows[i]? = some old)
    (hro : c'.rows = c.rows.set i new) (hold : ∀ claim, old = some claim → claim.key ≠ key)
    (hn : ∀ claim, new = some claim → claim.key ≠ key) : c'.Holds key e := by
  obtain ⟨k, hk, hu⟩ := h
  have hi : i ≠ k := by
    rintro rfl
    rw [hk] at hr
    exact hold _ (some.inj hr).symm rfl
  refine ⟨k, ?_, fun j claim hj hke => ?_⟩
  · rw [hro, getElem?_set_row hr, if_neg hi]
    exact hk
  · rw [hro, getElem?_set_row hr] at hj
    split at hj
    · exact absurd hke (hn claim (some.inj hj))
    · exact hu j claim hj hke

end Claims

/-! ## The physical manager -/

/-- `PhysicalPlacementManager`, bounded profile. -/
structure PhysicalPlacementManager where
  pool : Extent
  free : FreeList
  bounded : Claims
  deriving DecidableEq

namespace PhysicalPlacementManager

variable (m : PhysicalPlacementManager)

/-- Where a reservation lies (placement.rs 336). -/
def reservationExtent (key : ReservationKey) : Option Extent :=
  m.bounded.extent key

/-- Plans a claim (placement.rs 339). -/
def prepareHeapTake (key : ReservationKey) (logical revision : Nat) : Res PlacementError Take :=
  m.bounded.prepareTake m.free key logical revision

/-- Claims as planned (placement.rs 351). -/
def commitHeapTake (plan : Take) (revision : Nat) :
    Res ε PhysicalPlacementManager := do
  let (bounded, free) ← m.bounded.take m.free plan revision
  return { m with bounded, free }

/-- Plans a release (placement.rs 357). -/
def prepareHeapReturn (key : ReservationKey) (extent : Extent) (revision : Nat) :
    Res PlacementError Return :=
  m.bounded.prepareReturn m.free m.pool key extent revision

/-- Releases as planned (placement.rs 369). -/
def commitHeapReturn (plan : Return) (revision : Nat) :
    Res ε PhysicalPlacementManager := do
  let (bounded, free) ← m.bounded.giveBack m.free plan revision
  return { m with bounded, free }

end PhysicalPlacementManager

/-! ## The per-owner virtual window -/

/-- One owner's addresses. -/
structure VirtualArena where
  free : FreeList
  claims : Claims
  owner : Option Nat
  deriving DecidableEq

/-- `VirtualLayoutBuilder`, reusable profile. -/
structure VirtualLayoutBuilder where
  layoutStart : Nat
  limit : Nat
  reusable : VirtualArena
  deriving DecidableEq

namespace VirtualLayoutBuilder

variable (v : VirtualLayoutBuilder)

/-- The window the arena manages. -/
def window : Extent := ⟨v.layoutStart, v.limit - v.layoutStart⟩

/-- The arena is bound to `owner`, holds no claim, and its whole window is free. -/
def checkBinding (owner : Option Nat) : Res PlacementError Unit :=
  require (v.reusable.owner = owner ∧ v.reusable.claims.held = 0 ∧
    v.reusable.free.extents = [v.window]) .reservationMismatch

/-- Gives the arena to an owner (placement.rs 511). -/
def bindOwner (owner : Option Nat) : VirtualLayoutBuilder :=
  { v with reusable := { v.reusable with owner } }

/-- Where a reservation lies (placement.rs 514). -/
def reservationExtent (key : ReservationKey) : Option Extent :=
  if v.reusable.owner = some key.owner then v.reusable.claims.extent key else none

/-- Plans a claim (placement.rs 524). -/
def prepareHeapTake (key : ReservationKey) (logical revision : Nat) :
    Res PlacementError Take := do
  require (v.reusable.owner = some key.owner) .reservationMismatch
  v.reusable.claims.prepareTake v.reusable.free key logical revision

/-- Claims as planned (placement.rs 538). -/
def commitHeapTake (plan : Take) (revision : Nat) : Res ε VirtualLayoutBuilder := do
  let (claims, free) ← v.reusable.claims.take v.reusable.free plan revision
  return { v with reusable := { v.reusable with claims, free } }

/-- Plans a release (placement.rs 542). -/
def prepareHeapReturn (key : ReservationKey) (extent : Extent) (revision : Nat) :
    Res PlacementError Return := do
  require (v.reusable.owner = some key.owner) .reservationMismatch
  v.reusable.claims.prepareReturn v.reusable.free v.window key extent revision

/-- Releases as planned (placement.rs 568). -/
def commitHeapReturn (plan : Return) (revision : Nat) :
    Res ε VirtualLayoutBuilder := do
  let (claims, free) ← v.reusable.claims.giveBack v.reusable.free plan revision
  return { v with reusable := { v.reusable with claims, free } }

end VirtualLayoutBuilder

end Anka
