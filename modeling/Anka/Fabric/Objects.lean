import Anka.Fabric.State

/-!
# The Fabric: objects, placement, domains and trusted byte writers (`fabric.rs`)

Object identities come from one counter that legacy objects and private heap rows share; only
`rollback_unpublished_object` ever moves it back. `place_object` is the single writer of the
placement map and keeps live extents disjoint. Every byte writer crosses
`clear_pointer_cells_physical` first, so that no protected cell survives a write to its bytes.

A method that answers `false` or `None` before it changes anything is an `Res Unit` here, and
`err ()` is that answer. `place_object` and `seal_object` keep their boolean beside the Fabric they
leave.
-/

namespace Anka.Fabric

open Rust Res

variable (f : Fabric)

/-! ## Identities and objects -/

variable (id : ObjectId)

/-- `alloc_authority_id`: `None` leaves the counter where it is. -/
def allocAuthorityId : Res Unit (AuthorityId × Fabric) := do
  let next ← okOr (checkedAdd f.nextAuthorityId 1) ()
  return (⟨f.nextAuthorityId⟩, { f with nextAuthorityId := next })

/-- The next identity, if it is free (206). -/
def nextFreshObjectId : Option ObjectId :=
  let id : ObjectId := ⟨f.nextObjectId⟩
  if (checkedAdd f.nextObjectId 1).isNone || (f.objects.get id).isSome ||
      (f.placement.get id).isSome ||
      f.privateHeap.any fun h => decide (id.raw < h.objectIdFloor) || h.containsObject id
  then none else some id

/-- A new object, or none (192). -/
def tryAllocObject (name : String) (size : Nat) (kind : ObjectKind) :
    Res Unit (ObjectId × Fabric) := do
  let id ← okOr f.nextFreshObjectId ()
  let next ← unwrap (checkedAdd id.raw 1)
  let object : Object := { id, generation := ⟨0⟩, size, state := .active, kind, name }
  return (id, { f with objects := f.objects.insert id object, nextObjectId := next })

/-- One entry of the overlap scan: a live object other than `id` whose extent meets
`[physicalBase, newEnd)`. -/
def collides (physicalBase newEnd : Nat) (existingId : ObjectId) (existingBase : Nat) : Bool :=
  existingId != id && (f.objects.get existingId).any fun obj =>
    obj.state.isLive && (checkedAdd existingBase obj.size).any fun existingEnd =>
      decide (physicalBase < existingEnd) && decide (existingBase < newEnd)

/-- `place_object`: a new base drops the object's protected cells. -/
def placeObject (physicalBase : Nat) : Bool × Fabric :=
  if f.privateHeapObject id = true then (false, f)
  else match f.objects.get id with
    | none => (false, f)
    | some obj =>
      match checkedAdd physicalBase obj.size with
      | none => (false, f)
      | some newEnd =>
        if f.heapPoolOverlaps physicalBase obj.size = true then (false, f)
        else if f.placement.any (f.collides id physicalBase newEnd) = true then (false, f)
        else
          let pointerCells :=
            if f.placement.get id = some physicalBase then f.pointerCells
            else f.pointerCells.retain fun key _ => key.object != id
          (true, { f with
            pointerCells
            placement := f.placement.insert id physicalBase
            history := .placed id physicalBase :: f.history })

/-- `move_object`: the old translation stays until every check has passed. -/
def moveObject (newBase : Nat) : Bool × Fabric := f.placeObject id newBase

/-- `revoke`: bump the generation, mark `Revoked`, drop the object's protected cells. -/
def revoke : Fabric :=
  if f.privateHeapObject id = true then f
  else { f with
    pointerCells := f.pointerCells.retain fun key _ => key.object != id
    objects := f.objects.modify id fun obj =>
      { obj with generation := obj.generation.next, state := .revoked } }

/-- `seal_object`: `Active` to `Sealed` with a generation bump. -/
def sealObject : Bool × Fabric :=
  if f.privateHeapObject id = true then (false, f)
  else match f.objects.get id with
    | none => (false, f)
    | some obj =>
      if obj.state ≠ .active then (false, f)
      else
        let obj := { obj with generation := obj.generation.next, state := .sealed }
        (true, { f with objects := f.objects.insert id obj })

/-- `destroy_object`: the protected cells stay; no later object can answer for them. -/
def destroyObject : Fabric :=
  if f.privateHeapObject id = true then f
  else { f with
    pointerStackObjects := f.pointerStackObjects.erase id
    objects := f.objects.erase id
    placement := f.placement.erase id }

/-- Some capability or device authority of some domain names the object. -/
def namedByDomain : Bool :=
  f.domains.any fun _ d => d.capabilities.any (fun e => e.cap.object == id) ||
    d.deviceAuthorities.any (fun e => e.object == id)

/-- `rollback_unpublished_object`: only the most recent identity, never published. -/
def rollbackUnpublishedObject : Res Unit Fabric := do
  require ((f.privateHeap.any fun h => decide (id.raw < h.objectIdFloor)) = false) ()
  require (checkedAdd id.raw 1 = some f.nextObjectId) ()
  let obj ← okOr (f.objects.get id) ()
  require (obj.state = .active) ()
  require (obj.id = id) ()
  require (f.namedByDomain id = false ∧
    (f.transactions.any fun tx => tx.request.object == id) = false ∧
    (f.faultLog.any fun fault => fault.object == id) = false) ()
  return { f with
    placement := f.placement.erase id
    objects := f.objects.erase id
    nextObjectId := id.raw }

/-! ## Domains and agents -/

/-- A new domain (373). -/
def createDomain {ε : Type} (f : Fabric) : Res ε (DomainId × Fabric) := do
  let id : DomainId := ⟨f.nextDomainId⟩
  let next ← plus f.nextDomainId 1
  let domain : DomainState := { id, capabilities := [], deviceAuthorities := [] }
  return (id, { f with nextDomainId := next, domains := f.domains.insert id domain })

/-- A new domain, or none (367). -/
def tryCreateCompilerDomain : Res Unit (DomainId × Fabric) := do
  let _ ← okOr (checkedAdd f.nextDomainId 1) ()
  require ((f.domains.get ⟨f.nextDomainId⟩).isNone = true) ()
  f.createDomain

/-- Forgets a domain (384). -/
def destroyDomain (id : DomainId) : Fabric := { f with domains := f.domains.erase id }

/-- An agent in a domain (464). -/
def registerAgent (id : AgentId) (kind : AgentKind) (domain : DomainId) : Fabric :=
  { f with agents := f.agents.insert id { id, kind, domain } }

/-! ## Byte writers -/

/-- The cell lies outside `[base, stop)`; a cell whose address cannot be formed does not. -/
def cellOutside (base stop : Nat) (key : CellKey) : Bool :=
  (f.cellAddress key).any fun cell =>
    (checkedAdd cell 16).any fun cellEnd => !(decide (base < cellEnd) && decide (cell < stop))

/-- `clear_pointer_cells_physical`: the barrier every byte writer shares. -/
def clearPointerCellsPhysical {ε : Type} (f : Fabric) (base length : Nat) : Res ε Fabric :=
  if length = 0 then ok f
  else do
    let stop ← unwrap (checkedAdd base length)
    return { f with pointerCells := f.pointerCells.retain fun key _ => f.cellOutside base stop key }

/-- Clear the protected cells of a span and write it. -/
def clearAndWrite {ε : Type} (f : Fabric) (base : Nat) (data : List UInt8) : Res ε Fabric := do
  let f ← f.clearPointerCellsPhysical base data.length
  return f.writeMemory base data

/-- Zeroes the bytes of an object (342). -/
def zeroObjectExtent : Res Unit Fabric := do
  require (f.privateHeapObject id = false) ()
  let obj ← okOr (f.objects.get id) ()
  require (obj.state = .active) ()
  let base ← okOr (f.placement.get id) ()
  let stop ← okOr (checkedAdd base obj.size) ()
  require (stop ≤ f.memory.length) ()
  require (f.heapPoolOverlaps base obj.size = false) ()
  f.clearAndWrite base (List.replicate obj.size 0)

/-- Zeroes physical memory outside the pool (454). -/
def zeroPhysical (base size : Nat) : Res Unit Fabric := do
  require (f.heapPoolOverlaps base size = false) ()
  let stop ← okOr (checkedAdd base size) ()
  require (stop ≤ f.memory.length) ()
  f.clearAndWrite base (List.replicate size 0)

/-- `initialize_object`: active objects only, object-relative. -/
def initializeObject (offset : Nat) (data : List UInt8) : Res Unit Fabric := do
  require (f.privateHeapObject id = false) ()
  let obj ← okOr (f.objects.get id) ()
  require (obj.state = .active) ()
  require (data.length ≤ obj.size) ()
  require (offset ≤ obj.size - data.length) ()
  let physBase ← okOr (f.placement.get id) ()
  let base ← okOr (checkedAdd physBase offset) ()
  let stop ← okOr (checkedAdd base data.length) ()
  require (stop ≤ f.memory.length) ()
  require (f.heapPoolOverlaps base data.length = false) ()
  f.clearAndWrite base data

/-- `try_write_physical`: trusted bootstrap, outside the pool. -/
def tryWritePhysical (addr : Nat) (data : List UInt8) : Res Unit Fabric := do
  require (f.heapPoolOverlaps addr data.length = false) ()
  let stop ← okOr (checkedAdd addr data.length) ()
  require (stop ≤ f.memory.length) ()
  f.clearAndWrite addr data

end Anka.Fabric
