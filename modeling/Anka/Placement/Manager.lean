import Mathlib.Data.List.Sort
import Mathlib.Data.Finset.Basic
import Anka.Fabric.Finality
import Anka.Fabric.Provenance
import Anka.Placement.Claims

/-!
# The physical placement manager of objects (`placement.rs`)

Model of `PhysicalPlacementManager` as `new` builds it: a pool, a free list, the extents allocated
to `ObjectId` owners, and the owners whose placement Fabric has accepted (`committed`).

* `allocate` and `release_reservation` make every check before their first write, so their errors
  carry no state. `release_unplaced` and `allocate_and_place_object` write before they can fail;
  their errors carry the manager (and the Fabric) as they leave them, and that it is the one they
  found is a result.
* `insert_free_and_coalesce` pushes, sorts by base and merges in one pass (`coalesceStep`).
  `sort_by_key` is stable, as `insertionSort` is. Its `expect`s and debug assertions are checks.
* `BTreeSet<ObjectId>` is a `Finset`.

Between the calls Fabric takes any of its own steps, so objects are placed, moved and destroyed
behind the manager's back.

Results: the free list and the allocated extents divide the pool after every run (`Kept`), whatever
Fabric does; an error changes nothing, the rolled-back one included, because the allocated extents
determine the free list (`rollback`); `placement_manager_composed` states the whole.
-/

namespace Anka

open Rust Res Placement

/-- `PhysicalPlacementManager`, with the tables of the `ObjectId` mode. -/
structure ObjectPlacementManager where
  pool : Extent
  free : List Extent
  allocated : Map ObjectId Extent
  committed : Finset ObjectId
  bounded : Option Claims

/-- Where an object lies (fabric.rs 259). -/
def Fabric.physicalBase (f : Fabric) (id : ObjectId) : Option Nat :=
  if f.privateHeapObject id = true then none else f.placement.get id

namespace ObjectPlacementManager

/-- A manager of an empty pool (placement.rs 132). -/
def new (poolBase poolSize : Nat) : Res PlacementError ObjectPlacementManager := do
  let pool : Extent := ⟨poolBase, poolSize⟩
  require (validExtent pool = true) .invalidPool
  return { pool, free := [pool], allocated := ∅, committed := ∅, bounded := none }

/-- Takes pages for an object (placement.rs 172). -/
def allocate (m : ObjectPlacementManager) (owner : ObjectId) (requestedSize : Nat) :
    Res PlacementError (Extent × ObjectPlacementManager) := do
  require (m.bounded.isNone = true) .wrongMode
  require (m.allocated.get owner = none) .ownerAlreadyAllocated
  let size ← pageCeil requestedSize
  let idx ← okOr (m.free.findIdx? fun e => decide (size ≤ e.size)) .outOfMemory
  let slot ← unwrap m.free[idx]?
  let candidate : Extent := ⟨slot.base, size⟩
  let candidateEnd ← okOr candidate.endAddr .overflow
  let slotEnd ← okOr slot.endAddr .overflow
  require (candidateEnd ≤ slotEnd) .outOfMemory
  let free := if candidate.size = slot.size then m.free.eraseIdx idx
    else m.free.set idx ⟨candidateEnd, slotEnd - candidateEnd⟩
  return (candidate, { m with free, allocated := m.allocated.insert owner candidate })

/-- One turn of the merging loop: `ext` extends the last extent if the two touch. -/
def coalesceStep {ε : Type} (merged : List Extent) (ext : Extent) : Res ε (List Extent) :=
  match merged.getLast? with
  | none => ok (merged ++ [ext])
  | some last => do
    let lastEnd ← unwrap last.endAddr
    if lastEnd = ext.base then
      let size ← unwrap (checkedAdd last.size ext.size)
      return merged.dropLast ++ [{ last with size }]
    else
      check (lastEnd < ext.base)
      return merged ++ [ext]

/-- Puts an extent back among the free ones (placement.rs 286). -/
def insertFreeAndCoalesce {ε : Type} (m : ObjectPlacementManager) (extent : Extent) :
    Res ε ObjectPlacementManager := do
  check (validExtent extent = true)
  let sorted := (m.free ++ [extent]).insertionSort fun x y => x.base ≤ y.base
  let free ← sorted.foldlM coalesceStep []
  return { m with free }

/-- Gives the pages of an object back (placement.rs 221). -/
def releaseReservation (m : ObjectPlacementManager) (owner : ObjectId) :
    Res PlacementError (Extent × ObjectPlacementManager) := do
  require (owner ∉ m.committed) .composedReleaseRequiresFabricCheck
  let extent ← okOr (m.allocated.get owner) .unknownOwner
  let m ← insertFreeAndCoalesce { m with allocated := m.allocated.erase owner } extent
  return (extent, m)

/-- Gives back what was never placed (placement.rs 239). -/
def releaseUnplaced (m : ObjectPlacementManager) (f : Fabric) (owner : ObjectId) :
    Res (PlacementError × ObjectPlacementManager) (Extent × ObjectPlacementManager) := do
  require (f.physicalBase owner = none) (.objectStillPlaced, m)
  require (m.allocated.get owner ≠ none) (.unknownOwner, m)
  let m := { m with committed := m.committed.erase owner }
  mapErr (m.releaseReservation owner) fun e => (e, m)

/-- Takes pages and places the object there (placement.rs 258). -/
def allocateAndPlaceObject (m : ObjectPlacementManager) (f : Fabric) (owner : ObjectId) :
    Res (PlacementError × ObjectPlacementManager × Fabric)
      (Extent × ObjectPlacementManager × Fabric) := do
  let obj ← okOr (f.objects.get owner) (.unknownObject, m, f)
  require (f.physicalBase owner = none) (.objectAlreadyPlaced, m, f)
  let (extent, m) ← mapErr (m.allocate owner obj.size) fun e => (e, m, f)
  match f.placeObject owner extent.base with
  | (true, f) => return (extent, { m with committed := insert owner m.committed }, f)
  | (false, f) => do
    let (rolledBack, m) ← expectOk (m.releaseReservation owner)
    check (rolledBack = extent)
    .err (.fabricRejected, m, f)

/-- The owners and their extents. -/
def holdings (m : ObjectPlacementManager) : List (ObjectId × Extent) :=
  m.allocated.entries.map fun x => (x.1, x.2)

variable {m m' : ObjectPlacementManager} {owner : ObjectId} {e : Extent}

theorem mem_holdings : (owner, e) ∈ m.holdings ↔ m.allocated.get owner = some e := by
  rw [← Map.mem_entries_iff, holdings, List.mem_map]
  constructor
  · rintro ⟨x, hx, heq⟩
    cases heq
    exact hx
  · intro h
    exact ⟨_, h, rfl⟩

/-! ## Allocating -/

variable {size : Nat}

theorem allocate_eq_ok (h : m.allocate owner size = ok (e, m')) :
    m.allocated.get owner = none ∧ pageCeil size = ok e.size ∧ ∃ idx slot,
      m.free[idx]? = some slot ∧ e.base = slot.base ∧ e.size ≤ slot.size ∧
      m' = { m with
        free := cut m.free idx slot e.size, allocated := m.allocated.insert owner e } := by
  simp only [allocate, eq_ok, endAddr_eq_some] at h
  obtain ⟨-, hno, n, hn, idx, hi, slot, hs, _, ⟨-, rfl⟩, _, ⟨-, rfl⟩, -, rfl, rfl⟩ := h
  obtain ⟨hl, hf, -⟩ := List.findIdx?_eq_some_iff_getElem.mp hi
  rw [List.getElem?_eq_getElem hl] at hs
  rw [Option.some.inj hs] at hf
  have hle : n ≤ slot.size := of_decide_eq_true hf
  refine ⟨hno, hn, idx, slot, by rw [List.getElem?_eq_getElem hl, hs], rfl, hle, ?_⟩
  congr 1
  unfold cut
  by_cases heq : n = slot.size
  · rw [if_pos heq, if_neg (by simp [heq])]
  · have hl : n < slot.size := by omega
    have hr : slot.base + slot.size - (slot.base + n) = slot.size - n := by omega
    simp only [heq, hl, if_false, if_true, hr]

theorem allocate_not_panic (m : ObjectPlacementManager) (owner : ObjectId) (size : Nat) :
    m.allocate owner size ≠ panic := by
  refine @Avoids.not_panic _ _ _ (fun _ => False) ?_
  simp only [allocate, pageCeil, avoids_iff, okOr_eq_ok]
  intro _ _ _ _ n hn idx hi
  obtain ⟨hl, -⟩ := List.findIdx?_eq_some_iff_getElem.mp hi
  simp [hl]

theorem allocate_divides (h : Divides m.pool m.free m.holdings)
    (ha : m.allocate owner size = ok (e, m')) : Divides m'.pool m'.free m'.holdings := by
  obtain ⟨hn, hs, idx, slot, hsl, hb, hl, rfl⟩ := allocate_eq_ok ha
  have hc := h.carve owner hsl (pageCeil_pos hs) (pageCeil_dvd hs) hl
  have hh : holdings { m with
      free := cut m.free idx slot e.size, allocated := m.allocated.insert owner e } =
      (owner, ⟨slot.base, e.size⟩) :: m.holdings := by
    rw [holdings, Map.entries_insert hn, List.map_cons, ← hb, holdings]
  rw [hh]
  exact hc

/-! ## Sorting and merging -/

section Coalesce

variable {A B : List Extent} {l r : Option Extent} {ε : Type}

theorem coalesce_apart (X acc : List Extent)
    (ha : (acc ++ X).Pairwise fun x y => x.base + x.size < y.base)
    (hf : ∀ x ∈ acc ++ X, x.base + x.size ≤ u64Max) :
    (X.foldlM coalesceStep acc : Res ε _) = ok (acc ++ X) := by
  induction X generalizing acc with
  | nil => simp
  | cons x X ih =>
    have hs : (coalesceStep acc x : Res ε _) = ok (acc ++ [x]) := by
      unfold coalesceStep
      cases hl : acc.getLast? with
      | none => rfl
      | some last =>
        have hm : last ∈ acc := List.mem_of_getLast? hl
        have hlt := (List.pairwise_append.mp ha).2.2 last hm x (by simp)
        have hen : last.endAddr = some (last.base + last.size) :=
          endAddr_eq_some.mpr ⟨hf last (by simp [hm]), rfl⟩
        simp [hen, unwrap, check, hlt, Nat.ne_of_lt hlt]
    rw [List.foldlM_cons, hs, ok_bind, ih (acc ++ [x]) (by simpa using ha) (by simpa using hf)]
    simp

theorem coalesceStep_left (h : Place A l e r B) :
    (coalesceStep (A ++ l.toList) e : Res ε _) = ok (A ++ [merge l e none]) := by
  unfold coalesceStep
  cases l with
  | some x =>
    obtain ⟨-, ht⟩ := h.left x rfl
    have hen : x.endAddr = some e.base := ht ▸ h.endAddr (by simp)
    have hf := h.fits_self
    have hs : checkedAdd x.size e.size = some (x.size + e.size) :=
      checkedAdd_eq_some.mpr ⟨by omega, rfl⟩
    have hm : merge (some x) e none = { x with size := x.size + e.size } := by
      simp only [merge, Option.map_some, Option.map_none, Option.getD_some, Option.getD_none]
      congr 1
      omega
    simp [hen, unwrap, hs, hm]
  | none =>
    have hm : merge none e none = e := by
      simp only [merge, Option.map_none, Option.getD_none, Nat.add_sub_cancel_left]
    cases hl : (A ++ Option.toList none).getLast? with
    | none => simp [hm]
    | some last =>
      have hme : last ∈ A := List.mem_of_getLast? (by simpa using hl)
      have hlt := h.before last hme
      simp [h.endAddr (x := last) (by simp [hme]), unwrap, check, hlt, Nat.ne_of_lt hlt, hm]

theorem coalesceStep_right (h : Place A l e r B) :
    (r.toList.foldlM coalesceStep (A ++ [merge l e none]) : Res ε _) =
      ok (A ++ [merge l e r]) := by
  cases r with
  | none => simp
  | some x =>
    have ht := h.right x rfl
    have hf := h.fits x (by simp)
    have hl := h.left_le
    have hen : (merge l e none).endAddr = some x.base := by
      refine endAddr_eq_some.mpr ?_
      simp only [merge, Option.map_none, Option.getD_none]
      omega
    have hs : checkedAdd (merge l e none).size x.size = some ((merge l e none).size + x.size) := by
      refine checkedAdd_eq_some.mpr ⟨?_, rfl⟩
      simp only [merge, Option.map_none, Option.getD_none]
      omega
    have hm : { merge l e none with size := (merge l e none).size + x.size } =
        merge l e (some x) := by
      simp only [merge, Option.map_none, Option.getD_none, Option.map_some, Option.getD_some]
      congr 1
      omega
    simp [coalesceStep, hen, unwrap, hs, hm]

/-- The sorted list has the extent at its place. -/
theorem sort_place {free : List Extent} (h : Place A l e r B)
    (hf : free = A ++ l.toList ++ (r.toList ++ B)) (hpo : 0 < e.size)
    (ha : free.Pairwise fun x y => x.base + x.size < y.base) :
    (free ++ [e]).insertionSort (fun x y => x.base ≤ y.base) =
      A ++ l.toList ++ e :: (r.toList ++ B) := by
  rw [hf] at ha ⊢
  obtain ⟨hAl, hr, hc⟩ := List.pairwise_append.mp ha
  have hw : ∀ {X : List Extent}, (X.Pairwise fun x y => x.base + x.size < y.base) →
      X.Pairwise fun x y => x.base < y.base := fun hX => hX.imp fun hl => by omega
  have haf : ∀ x ∈ r.toList ++ B, e.base < x.base := by
    intro x hx
    have := h.end_le hx
    omega
  have hs : (A ++ l.toList ++ e :: (r.toList ++ B)).Pairwise fun x y => x.base < y.base := by
    refine List.pairwise_append.mpr ⟨hw hAl, List.pairwise_cons.mpr ⟨haf, hw hr⟩, ?_⟩
    intro x hx y hy
    rcases List.mem_cons.mp hy with rfl | hy
    · exact h.base_lt hx
    · have := hc x hx y hy
      omega
  have hp : ((A ++ l.toList ++ (r.toList ++ B) ++ [e]).insertionSort
      fun x y => x.base ≤ y.base).Perm (A ++ l.toList ++ e :: (r.toList ++ B)) :=
    (List.perm_insertionSort _ _).trans ((List.perm_append_singleton _ _).trans
      List.perm_middle.symm)
  -- the bases are distinct, so only one order of the elements is sorted
  refine @List.Perm.eq_of_pairwise _ (fun x y => x.base ≤ y.base) _ _ ?_ ?_
    (hs.imp fun hl => Nat.le_of_lt hl) hp
  · intro x y hx hy hxy hyx
    by_contra hne
    have hsy : Std.Symm fun x y : Extent => x.base ≠ y.base := ⟨fun _ _ hxy => hxy.symm⟩
    have hd : (A ++ l.toList ++ e :: (r.toList ++ B)).Pairwise
        fun x y => x.base ≠ y.base := hs.imp fun hl => Nat.ne_of_lt hl
    exact hd.forall (hp.mem_iff.mp hx) hy hne (Nat.le_antisymm hxy hyx)
  · have hto : Std.Total fun x y : Extent => x.base ≤ y.base := ⟨fun x y => Nat.le_total _ _⟩
    have ht : IsTrans Extent fun x y => x.base ≤ y.base := ⟨fun x y z => Nat.le_trans⟩
    exact List.pairwise_insertionSort _ _

end Coalesce

/-- **A held extent can be freed.** -/
theorem insertFree_divides {ε : Type} {free : List Extent} {held held' : List (ObjectId × Extent)}
    (h : Divides m.pool free held) (hme : (owner, e) ∈ held)
    (hp : held.Perm ((owner, e) :: held')) (hf : m.free = free) :
    ∃ merged, (m.insertFreeAndCoalesce e : Res ε _) = ok { m with free := merged } ∧
      Divides m.pool merged held' := by
  subst hf
  have hv := h.valid (List.mem_append_right _ (List.mem_map_of_mem (f := Prod.snd) hme))
  obtain ⟨hpo, -⟩ := validExtent_iff.mp hv
  obtain ⟨A, l, r, B, hpl, hf, hd⟩ := h.give_back hme
  have hm := hd held' hp
  have hso := sort_place hpl hf hpo h.free_apart
  -- the holes up to the extent, the extent, the hole after it, the rest
  have hh : ((A ++ l.toList).foldlM coalesceStep [] : Res ε _) = ok (A ++ l.toList) := by
    refine coalesce_apart (A ++ l.toList) [] ?_ fun x hx => hpl.fits x (List.mem_append_left _ hx)
    have ha := h.free_apart
    rw [hf] at ha
    exact (List.pairwise_append.mp ha).1
  have hsu : (B.foldlM coalesceStep (A ++ [merge l e r]) : Res ε _) =
      ok (A ++ merge l e r :: B) := by
    have hs : A ++ merge l e r :: B = (A ++ [merge l e r]) ++ B := by simp
    rw [hs]
    refine coalesce_apart B (A ++ [merge l e r]) ?_ fun x hx => ?_
    · rw [← hs]
      exact hm.free_apart
    · rw [← hs] at hx
      exact (validExtent_iff.mp (hm.valid (List.mem_append_left _ hx))).2.2.2
  refine ⟨_, ?_, hm⟩
  simp only [insertFreeAndCoalesce, check, hv, if_true, ok_bind, hso, List.foldlM_append,
    hh, List.foldlM_cons, coalesceStep_left hpl, coalesceStep_right hpl, hsu, pure_eq]

/-! ## Releasing -/

/-- The manager after an owner's extent is freed. -/
def freed (m : ObjectPlacementManager) (owner : ObjectId) (free : List Extent) :
    ObjectPlacementManager :=
  { m with free, allocated := m.allocated.erase owner, committed := m.committed.erase owner }

theorem holdings_erase (hget : m.allocated.get owner = some e) (free : List Extent) :
    m.holdings.Perm ((owner, e) :: (m.freed owner free).holdings) :=
  (Map.entries_erase hget).map fun x : (_ : ObjectId) × Extent => (x.1, x.2)

theorem releaseReservation_ok (h : Divides m.pool m.free m.holdings)
    (hget : m.allocated.get owner = some e) (hn : owner ∉ m.committed) :
    ∃ free, m.releaseReservation owner = ok (e, m.freed owner free) ∧
      Divides m.pool free (m.freed owner free).holdings := by
  obtain ⟨free, hi, hd⟩ := insertFree_divides (ε := PlacementError)
    (m := { m with allocated := m.allocated.erase owner }) h (mem_holdings.mpr hget)
    (holdings_erase hget []) rfl
  refine ⟨free, ?_, hd⟩
  simp [releaseReservation, require, hn, hget, okOr, hi, freed]

/-- **A fresh allocation that is released leaves the manager as it was.** -/
theorem rollback (h : Divides m.pool m.free m.holdings) (hn : owner ∉ m.committed)
    (ha : m.allocate owner size = ok (e, m')) : m'.releaseReservation owner = ok (e, m) := by
  have hd' := allocate_divides h ha
  obtain ⟨hno, -, idx, slot, -, -, -, rfl⟩ := allocate_eq_ok ha
  obtain ⟨free, hr, hd⟩ := releaseReservation_ok hd'
    (show Map.get (m.allocated.insert owner e) owner = some e by simp [Map.get_insert]) hn
  have hs : (freed { m with
      free := cut m.free idx slot e.size, allocated := m.allocated.insert owner e } owner free) =
      { m with free } := by
    simp [freed, Map.erase_insert hno, Finset.erase_eq_of_notMem hn]
  rw [hs] at hr hd
  have hf : free = m.free := hd.free_determined h (.refl _)
  rw [hr, hf]

end ObjectPlacementManager

/-! ## The manager together with Fabric -/

open ObjectPlacementManager

/-- One call on the manager, or anything Fabric does in between. -/
inductive PlacementOp where
  | allocate (owner : ObjectId) (requestedSize : Nat)
  | allocateAndPlaceObject (owner : ObjectId)
  | releaseReservation (owner : ObjectId)
  | releaseUnplaced (owner : ObjectId)
  | fabric (op : FabricOp)

namespace Placement

/-- The manager and the Fabric a call leaves, with a value or with an error. -/
def run (s : ObjectPlacementManager × Fabric) : PlacementOp →
    Res (PlacementError × ObjectPlacementManager × Fabric) (ObjectPlacementManager × Fabric)
  | .allocate owner size => do
    let (_, m) ← mapErr (s.1.allocate owner size) fun e => (e, s)
    return (m, s.2)
  | .allocateAndPlaceObject owner => do
    let (_, s) ← s.1.allocateAndPlaceObject s.2 owner
    return s
  | .releaseReservation owner => do
    let (_, m) ← mapErr (s.1.releaseReservation owner) fun e => (e, s)
    return (m, s.2)
  | .releaseUnplaced owner => do
    let (_, m) ← mapErr (s.1.releaseUnplaced s.2 owner) fun e => (e.1, e.2, s.2)
    return (m, s.2)
  | .fabric op =>
    match s.2.step op with
    | some f => ok (s.1, f)
    | none => panic

/-- One call, if it returns. -/
def step (s : ObjectPlacementManager × Fabric) (op : PlacementOp) :
    Option (ObjectPlacementManager × Fabric) :=
  match run s op with
  | ok s' => some s'
  | err (_, s') => some s'
  | .panic => none

/-- A new manager over the pool and a new Fabric. -/
def Constructed (pool : Extent) (s : ObjectPlacementManager × Fabric) : Prop :=
  ObjectPlacementManager.new pool.base pool.size = ok s.1 ∧ Fabric.Constructed s.2

/-- Every state that calls and Fabric's own steps can lead to. -/
def Reachable (pool : Extent) : ObjectPlacementManager × Fabric → Prop :=
  Machine.Reachable step (Constructed pool)

/-- What every run keeps. -/
structure Kept (pool : Extent) (s : ObjectPlacementManager × Fabric) : Prop where
  pool_eq : s.1.pool = pool
  divides : Divides s.1.pool s.1.free s.1.holdings
  committed : ∀ owner ∈ s.1.committed, s.1.allocated.get owner ≠ none
  fabric : Fabric.Reachable s.2

/-- What a call that returns has done. -/
inductive Moves (s : ObjectPlacementManager × Fabric) : ObjectPlacementManager × Fabric → Prop
  | allocated (owner : ObjectId) (size : Nat) (e : Extent) (m : ObjectPlacementManager)
      (h : s.1.allocate owner size = ok (e, m)) : Moves s (m, s.2)
  | placed (owner : ObjectId) (size : Nat) (e : Extent) (m : ObjectPlacementManager) (f : Fabric)
      (h : s.1.allocate owner size = ok (e, m)) (hpl : s.2.placeObject owner e.base = (true, f)) :
      Moves s ({ m with committed := insert owner m.committed }, f)
  /-- A committed owner's extent is freed only where Fabric answers that it is not placed. -/
  | freed (owner : ObjectId) (e : Extent) (free : List Extent)
      (hget : s.1.allocated.get owner = some e)
      (hunplaced : owner ∈ s.1.committed → s.2.physicalBase owner = none)
      (h : Divides s.1.pool free (s.1.freed owner free).holdings) :
        Moves s (s.1.freed owner free, s.2)
  | fabric (op : FabricOp) (f : Fabric) (h : s.2.step op = some f) : Moves s (s.1, f)

variable {pool : Extent} {s s' : ObjectPlacementManager × Fabric}

/-- A call that is no Fabric step ends with a value as `Moves` says, or with an error in the state
it began in. -/
def Ends (s : ObjectPlacementManager × Fabric)
    (x : Res (PlacementError × ObjectPlacementManager × Fabric)
      (ObjectPlacementManager × Fabric)) :
    Prop :=
  (∃ s', x = ok s' ∧ Moves s s') ∨ ∃ e, x = err (e, s)

theorem ends_allocate (s : ObjectPlacementManager × Fabric) (owner : ObjectId) (size : Nat) :
    Ends s (run s (.allocate owner size)) := by
  cases h : s.1.allocate owner size with
  | ok r => exact .inl ⟨(r.2, s.2), by simp [run, h, mapErr], .allocated owner size r.1 r.2 h⟩
  | err e => exact .inr ⟨e, by simp [run, h, mapErr]⟩
  | panic => exact absurd h (allocate_not_panic s.1 owner size)

section

variable (h : Kept pool s)
include h

theorem Kept.not_committed {owner : ObjectId}
    (hn : s.1.allocated.get owner = none) : owner ∉ s.1.committed :=
  fun hm => h.committed owner hm hn

theorem Kept.ends_allocateAndPlaceObject (owner : ObjectId) :
    Ends s (run s (.allocateAndPlaceObject owner)) := by
  cases ho : s.2.objects.get owner with
  | none => exact .inr ⟨.unknownObject, by simp [run, allocateAndPlaceObject, ho, okOr]⟩
  | some obj =>
    by_cases hb : s.2.physicalBase owner = none
    · cases ha : s.1.allocate owner obj.size with
      | ok r =>
        obtain ⟨e, m⟩ := r
        cases hpl : s.2.placeObject owner e.base with
        | mk p f =>
          cases p with
          | true =>
            refine .inl ⟨_, ?_, .placed owner obj.size e m f ha hpl⟩
            simp [run, allocateAndPlaceObject, ho, okOr, require, hb, mapErr, ha, hpl]
          | false =>
            -- Fabric rejected the placement: the reservation is rolled back
            have hba := rollback h.divides (h.not_committed (allocate_eq_ok ha).1) ha
            obtain ⟨m0, f0⟩ := s
            obtain rfl : f = f0 := by
              have hs := Fabric.placeObject_refused owner e.base (by rw [hpl])
              rwa [hpl] at hs
            refine .inr ⟨.fabricRejected, ?_⟩
            simp [run, allocateAndPlaceObject, ho, okOr, require, hb, mapErr, ha, hpl,
              hba, expectOk, check]
      | err e =>
        refine .inr ⟨e, ?_⟩
        simp [run, allocateAndPlaceObject, ho, okOr, require, hb, mapErr, ha]
      | panic => exact absurd ha (allocate_not_panic s.1 owner obj.size)
    · refine .inr ⟨.objectAlreadyPlaced, ?_⟩
      simp [run, allocateAndPlaceObject, ho, okOr, require, hb]

theorem Kept.ends_releaseReservation (owner : ObjectId) :
    Ends s (run s (.releaseReservation owner)) := by
  by_cases hc : owner ∈ s.1.committed
  · refine .inr ⟨.composedReleaseRequiresFabricCheck, ?_⟩
    simp [run, releaseReservation, require, hc, mapErr]
  · cases hget : s.1.allocated.get owner with
    | none =>
      refine .inr ⟨.unknownOwner, ?_⟩
      simp [run, releaseReservation, require, hc, hget, okOr, mapErr]
    | some e =>
      obtain ⟨free, hr, hd⟩ := releaseReservation_ok h.divides hget hc
      refine .inl ⟨_, by simp [run, hr, mapErr], .freed owner e free hget ?_ hd⟩
      intro hm
      exact absurd hm hc

theorem Kept.ends_releaseUnplaced (owner : ObjectId) : Ends s (run s (.releaseUnplaced owner)) := by
  by_cases hb : s.2.physicalBase owner = none
  · cases hget : s.1.allocated.get owner with
    | none =>
      refine .inr ⟨.unknownOwner, ?_⟩
      simp [run, releaseUnplaced, require, hb, hget, mapErr]
    | some e =>
      obtain ⟨free, hr, hd⟩ := @releaseReservation_ok
        { s.1 with committed := s.1.committed.erase owner } owner e h.divides hget
        (Finset.notMem_erase owner _)
      refine .inl ⟨(s.1.freed owner free, s.2), ?_, .freed owner e free hget (fun _ => hb) hd⟩
      simp [run, releaseUnplaced, require, hb, hget, mapErr, hr, freed]
  · refine .inr ⟨.objectStillPlaced, ?_⟩
    simp [run, releaseUnplaced, require, hb, mapErr]

theorem Kept.ends (op : PlacementOp) :
    Ends s (run s op) ∨ ∃ fop, op = .fabric fop ∧ s.2.step fop = none := by
  cases op with
  | allocate owner size => exact .inl (ends_allocate s owner size)
  | allocateAndPlaceObject owner => exact .inl (h.ends_allocateAndPlaceObject owner)
  | releaseReservation owner => exact .inl (h.ends_releaseReservation owner)
  | releaseUnplaced owner => exact .inl (h.ends_releaseUnplaced owner)
  | fabric op =>
    cases hs : s.2.step op with
    | none => exact .inr ⟨op, rfl, hs⟩
    | some f =>
      refine .inl (.inl ⟨(s.1, f), ?_, .fabric op f hs⟩)
      simp [run, hs]

theorem Kept.step_cases {op : PlacementOp} (hs : step s op = some s') : Moves s s' ∨ s' = s := by
  unfold step at hs
  rcases h.ends op with (⟨t, hr, hm⟩ | ⟨e, hr⟩) | ⟨fop, rfl, hn⟩
  · rw [hr] at hs
    exact .inl (Option.some.inj hs ▸ hm)
  · rw [hr] at hs
    exact .inr (Option.some.inj hs).symm
  · simp [run, hn] at hs

end

/-! ## Every run -/

theorem Moves.kept (hmo : Moves s s') (h : Kept pool s) : Kept pool s' := by
  cases hmo with
  | allocated owner size e m ha =>
    have hd := allocate_divides h.divides ha
    obtain ⟨-, -, _, _, -, -, -, rfl⟩ := allocate_eq_ok ha
    refine ⟨h.pool_eq, hd, fun owner' hm => ?_, h.fabric⟩
    rw [Map.get_insert]
    split
    · exact Option.some_ne_none e
    · exact h.committed owner' hm
  | placed owner size e m f ha hpl =>
    have hd := allocate_divides h.divides ha
    obtain ⟨-, -, _, _, -, -, -, rfl⟩ := allocate_eq_ok ha
    refine ⟨h.pool_eq, hd, fun owner' hm => ?_, ?_⟩
    · dsimp only
      rw [Map.get_insert]
      split
      · exact Option.some_ne_none e
      · rename_i hn
        exact h.committed owner' ((Finset.mem_insert.mp hm).resolve_left hn)
    · refine .tail (i := .placeObject owner e.base) h.fabric ?_
      simp [Fabric.step, Fabric.run, hpl]
  | freed owner e free hget hunplaced hd =>
    refine ⟨h.pool_eq, hd, fun owner' hm => ?_, h.fabric⟩
    obtain ⟨hn, hm⟩ := Finset.mem_erase.mp hm
    simp only [ObjectPlacementManager.freed]
    rw [Map.get_erase, if_neg hn]
    exact h.committed owner' hm
  | fabric op f hs =>
    exact ⟨h.pool_eq, h.divides, h.committed, .tail h.fabric hs⟩

theorem Constructed.kept (h : Constructed pool s) : Kept pool s := by
  obtain ⟨m, f⟩ := s
  obtain ⟨hn, hf⟩ := h
  simp only [ObjectPlacementManager.new, eq_ok] at hn
  obtain ⟨hv, rfl⟩ := hn
  exact ⟨rfl, divides_pool hv, fun owner hm => absurd hm (Finset.notMem_empty owner), f, hf, .refl⟩

theorem Reachable.kept (hr : Reachable pool s) : Kept pool s := by
  refine @Machine.Reachable.invariant _ _ step (Constructed pool) (Kept pool)
    (fun _ => Constructed.kept) (fun s op s' h hs => ?_) s hr
  rcases h.step_cases hs with hm | rfl
  · exact hm.kept h
  · exact h

/-! ## Fabric's own answer -/

/-- Every placed object exists. -/
def PlacedExist (f : Fabric) : Prop :=
  ∀ id base, f.placement.get id = some base → f.objects.get id ≠ none

theorem change_placedExist {f f' : Fabric} (hc : Fabric.Change Guard.any f f')
    (h : PlacedExist f) : PlacedExist f' := by
  cases hc with
  | allocated | sealed =>
    intro id' base hpl
    dsimp only
    rw [Map.get_insert]
    split
    · exact Option.some_ne_none _
    · exact h id' base hpl
  | placed id base obj ho =>
    intro id' base' hpl
    dsimp only at hpl
    rw [Map.get_insert] at hpl
    split at hpl
    · rename_i heq
      rw [heq, ho]
      exact Option.some_ne_none obj
    · exact h id' base' hpl
  | revoked id =>
    intro id' base hpl
    dsimp only
    rw [Map.get_modify]
    split
    · rename_i heq
      have hex := h id' base hpl
      rw [heq] at hex
      simpa using hex
    · exact h id' base hpl
  | destroyed id | rolledBack id =>
    intro id' base hpl
    dsimp only at hpl ⊢
    rw [Map.get_erase] at hpl ⊢
    split at hpl
    · cases hpl
    · rename_i hn
      rw [if_neg hn]
      exact h id' base hpl
  | _ => exact h

theorem reachable_placedExist {f : Fabric} (hr : Fabric.Reachable f) : PlacedExist f := by
  refine hr.invariant (fun _ _ => change_placedExist) fun g hg id base hpl => ?_
  rw [hg.placement, Map.get_empty] at hpl
  cases hpl

theorem physicalBase_eq {f : Fabric} (hr : Fabric.Reachable f) (id : ObjectId) :
    f.physicalBase id = f.placement.get id := by
  unfold Fabric.physicalBase
  split
  · rename_i hp
    obtain ⟨-, hn⟩ := hr.identities.private_none hp
    cases hpl : f.placement.get id with
    | none => rfl
    | some base => exact absurd hn (reachable_placedExist hr id base hpl)
  · rfl

/-- **The manager and Fabric, composed.** After every run of calls on the manager, with any steps of
Fabric in between: the free extents and the allocated ones are page-aligned and not empty, share no
address and cover exactly the pool, so no byte is lost or gained; the free list is sorted and no two
of its extents touch; the committed owners are allocated ones. A call that ends with an error leaves
the manager and the Fabric as they were, and no call on the manager panics. An address of a
committed owner's extent is free after a step only if Fabric had no placement for the owner before
it. -/
theorem placement_manager_composed (hreach : Reachable pool s) :
    (∀ e ∈ s.1.free ++ s.1.holdings.map Prod.snd, validExtent e = true) ∧
    (s.1.free ++ s.1.holdings.map Prod.snd).Pairwise Extent.Disjoint ∧
    (∀ n, pool.base ≤ n ∧ n < pool.base + pool.size ↔
      ∃ e ∈ s.1.free ++ s.1.holdings.map Prod.snd, e.base ≤ n ∧ n < e.base + e.size) ∧
    (s.1.free.map Extent.size).sum + (s.1.holdings.map fun x => x.2.size).sum = pool.size ∧
    (s.1.free.Pairwise fun x y => x.base + x.size < y.base) ∧
    (∀ owner ∈ s.1.committed, ∃ e, s.1.allocated.get owner = some e) ∧
    (∀ op e s', run s op = err (e, s') → s' = s) ∧
    (∀ op, run s op = panic → ∃ fop, op = .fabric fop) ∧
    ∀ op s' owner e n, step s op = some s' → owner ∈ s.1.committed →
      s.1.allocated.get owner = some e → e.base ≤ n ∧ n < e.base + e.size → Covered s'.1.free n →
      s.2.placement.get owner = none := by
  have h := hreach.kept
  have hd := h.divides
  rw [h.pool_eq] at hd
  refine ⟨fun e he => hd.valid he, hd.disjoint, hd.covers, hd.sizes,
    hd.free_apart, fun owner hme => Option.ne_none_iff_exists'.mp (h.committed owner hme),
    ?_, ?_, ?_⟩
  · intro op e s' her
    rcases h.ends op with (⟨t, hr, -⟩ | ⟨e', hr⟩) | ⟨fop, rfl, hn⟩
    · rw [hr] at her
      cases her
    · rw [hr] at her
      cases her
      rfl
    · simp [run, hn] at her
  · intro op hp
    rcases h.ends op with (⟨t, hr, -⟩ | ⟨e', hr⟩) | ⟨fop, rfl, -⟩
    · rw [hr] at hp
      cases hp
    · rw [hr] at hp
      cases hp
    · exact ⟨fop, rfl⟩
  · intro op s' owner e n hst hc hget hi hf
    -- while the owner has the extent, its addresses are not free
    have hh : ∀ t : ObjectPlacementManager × Fabric, Kept pool t →
        t.1.allocated.get owner = some e → ¬ Covered t.1.free n := by
      intro t ht hget' hco
      refine ((ht.divides.free_iff n).mp hco).2 ⟨e, ?_, hi⟩
      exact List.mem_map_of_mem (f := Prod.snd) (mem_holdings.mpr hget')
    rcases h.step_cases hst with hm | rfl
    · have hk := hm.kept h
      cases hm with
      | allocated owner' size e' m ha | placed owner' size e' m f ha hpla =>
        obtain ⟨hn, -, _, _, -, -, -, rfl⟩ := allocate_eq_ok ha
        refine absurd hf (hh _ hk ?_)
        have hne : owner ≠ owner' := by
          rintro rfl
          rw [hn] at hget
          cases hget
        simpa [Map.get_insert, hne] using hget
      | freed owner' e' free hget' hunplaced _ =>
        by_cases hs : owner = owner'
        · rw [← physicalBase_eq h.fabric, hs]
          exact hunplaced (hs ▸ hc)
        · refine absurd hf (hh _ hk ?_)
          simpa [ObjectPlacementManager.freed, Map.get_erase, hs] using hget
      | fabric op f hfa => exact absurd hf (hh _ hk hget)
    · exact absurd hf (hh _ h hget)

/-- An object of 100 bytes is placed in the first of two pages; once Fabric has destroyed it, its
page joins the free list again. -/
theorem placement_manager_composed_destroyed : ∃ s s', Reachable ⟨4096, 8192⟩ s ∧
    ⟨0⟩ ∈ s.1.committed ∧ s.1.free = [⟨8192, 4096⟩] ∧
    step s (.releaseUnplaced ⟨0⟩) = some s' ∧ s'.1.free = [⟨4096, 8192⟩] ∧
    s.2.placement.get ⟨0⟩ = none := by
  let calls : List PlacementOp := [.fabric (.allocObject "a" 100 .memory),
    .allocateAndPlaceObject ⟨0⟩, .fabric (.destroyObject ⟨0⟩)]
  have hru : (ObjectPlacementManager.new 4096 8192).isOkAnd (fun m =>
      (Fabric.new exactHost 0).isOkAnd fun f =>
        (Machine.replay step (fun _ _ => True) calls (m, f)).any fun s =>
          (step s (.releaseUnplaced ⟨0⟩)).any fun s' => decide (⟨0⟩ ∈ s.1.committed ∧
            s.1.free = [⟨8192, 4096⟩] ∧ s.1.allocated.get ⟨0⟩ = some ⟨4096, 4096⟩ ∧
            s'.1.free = [⟨4096, 8192⟩])) = true := by
    decide +kernel
  simp only [isOkAnd_eq_true, Option.any_eq_true, decide_eq_true_eq] at hru
  obtain ⟨m, hm, f, hf, s, hs, s', hst, hc, hfr, hget, hfr'⟩ := hru
  have hr : Reachable ⟨4096, 8192⟩ s :=
    ⟨(m, f), ⟨hm, .new exactHost 0 hf⟩, Machine.run_of_replay hs⟩
  have hl := (placement_manager_composed hr).2.2.2.2.2.2.2.2
  refine ⟨s, s', hr, hc, hfr, hst, hfr', ?_⟩
  refine hl _ s' ⟨0⟩ ⟨4096, 4096⟩ 4096 hst hc hget (by decide) ?_
  rw [hfr']
  exact ⟨⟨4096, 8192⟩, by simp, by decide⟩

/-- **The two managers agree.** When the bounded manager and this one hold the same extents of a
pool, whatever calls led there, they have the same free list and give a request the same extent. -/
theorem managers_agree {k : Nat} {c : Claims × FreeList} (hc : Claims.Reachable pool k c)
    (hs : Reachable pool s)
    (hheld : (c.1.claimed.map Claim.extent).Perm (s.1.holdings.map Prod.snd)) :
    c.2.extents = s.1.free ∧ ∀ key owner size revision plan e m,
      c.1.prepareTake c.2 key size revision = ok plan →
        s.1.allocate owner size = ok (e, m) → plan.extent = e := by
  have hd : Divides pool _ _ := hs.kept.pool_eq ▸ hs.kept.divides
  rw [← Claims.snd_holdings] at hheld
  have hf := hc.tidy.1.divides.free_determined hd hheld
  refine ⟨hf, fun key owner size revision plan e m hp ha => ?_⟩
  -- both round the size up to pages and take the first hole that is large enough
  simp only [Claims.prepareTake, ObjectPlacementManager.allocate, eq_ok, hf] at hp ha
  obtain ⟨-, -, -, _, -, n, hn, i, hi, slot, hsl, _, -, rfl⟩ := hp
  obtain ⟨-, -, n', hn', i', hi', slot', hsl', _, -, _, -, -, rfl, -⟩ := ha
  obtain rfl := ok.inj (hn.symm.trans hn')
  obtain rfl := Option.mem_unique hi hi'
  rw [Option.mem_unique hsl hsl']

/-- Two histories that end with the first and the third of four pages held. The bounded manager
takes three and returns the middle one; this one gives its first page back and out again in between.
Both admit a request of 100 bytes, and both give it the second page. -/
theorem managers_agree_returned : ∃ c s plan m, Claims.Reachable ⟨4096, 16384⟩ 3 c ∧
    Reachable ⟨4096, 16384⟩ s ∧ c.2.extents = s.1.free ∧
    c.1.prepareTake c.2 ⟨1, 4, 1, 4⟩ 100 4 = ok plan ∧ s.1.allocate ⟨9⟩ 100 = ok (⟨8192, 4096⟩, m) ∧
    plan.extent = ⟨8192, 4096⟩ := by
  let takes : List ClaimsOp := [.take ⟨1, 1, 1, 1⟩ 4096 0, .take ⟨1, 2, 1, 2⟩ 4096 1,
    .take ⟨1, 3, 1, 3⟩ 4096 2, .giveBack ⟨1, 2, 1, 2⟩ ⟨8192, 4096⟩ 3]
  let calls : List PlacementOp := [.allocate ⟨0⟩ 4096, .allocate ⟨1⟩ 4096, .releaseReservation ⟨0⟩,
    .allocate ⟨2⟩ 4096, .allocate ⟨3⟩ 4096, .releaseReservation ⟨1⟩]
  have hru :
    (Claims.new exactHost .physicalRows .physicalFree 3 ⟨4096, 16384⟩).isOkAnd (fun built =>
      (Machine.replay (Claims.step ⟨4096, 16384⟩) (fun _ _ => True) takes (built.1, built.2.2)).any
        fun c => (ObjectPlacementManager.new 4096 16384).isOkAnd fun m =>
          (Fabric.new exactHost 0).isOkAnd fun f =>
            (Machine.replay step (fun _ _ => True) calls (m, f)).any fun s =>
              decide ((c.1.claimed.map Claim.extent).Perm (s.1.holdings.map Prod.snd)) &&
              (c.1.prepareTake c.2 ⟨1, 4, 1, 4⟩ 100 4).isOkAnd (fun _ => true) &&
              (s.1.allocate ⟨9⟩ 100).isOkAnd fun r => decide (r.1 = ⟨8192, 4096⟩)) = true := by
    decide +kernel
  simp only [isOkAnd_eq_true, Option.any_eq_true, Bool.and_eq_true, decide_eq_true_eq] at hru
  obtain ⟨built, hn, c, hc, m, hm, f, hf, s, hs, ⟨hh, plan, hp, -⟩, r, hr, hex⟩ := hru
  have hre : Claims.Reachable ⟨4096, 16384⟩ 3 c :=
    ⟨_, ⟨exactHost, .physicalRows, .physicalFree, built.2.1, hn⟩, Machine.run_of_replay hc⟩
  have hre' : Reachable ⟨4096, 16384⟩ s :=
    ⟨(m, f), ⟨hm, .new exactHost 0 hf⟩, Machine.run_of_replay hs⟩
  obtain ⟨hfr, hsa⟩ := managers_agree hre hre' hh
  obtain ⟨e, m'⟩ := r
  obtain rfl : e = ⟨8192, 4096⟩ := hex
  exact ⟨c, s, plan, m', hre, hre', hfr, hp, hr, hsa _ _ _ _ _ _ _ hp hr⟩

end Placement

end Anka
