import Anka.Core.State

/-!
# The core: mappings and pointer instructions (`core.rs`, `core/heap.rs`)

A pointer instruction authenticates what it is given before it does anything: the kind of a register
pair must agree with its words (`captured_pointer`), the pointer must name a live lifetime of this
context's domain or heap owner (`check_application_pointer`), and an address must lie in exactly one
mapping whose object is the one behind the pointer. Only `install_pointer` gives a pair a kind.

An error leaves the core as it was. It may leave a faulted transaction in the Fabric, so the
functions that submit one return the Fabric with the error.
-/

namespace Anka

open Rust Res

namespace AddressMap

/-- `resolve`: the first entry that holds the address. -/
def resolve {ε : Type} (addr : Nat) : List AddressMapEntry → Res ε (Option (ObjectId × Nat))
  | [] => ok none
  | e :: rest =>
    if e.virtBase ≤ addr then do
      let stop ← plus e.virtBase e.size
      if addr < stop then do
        let offset ← plus e.objOffset (addr - e.virtBase)
        return some (e.object, offset)
      else resolve addr rest
    else resolve addr rest

end AddressMap

namespace Anka64Core

variable (c : Anka64Core)

/-! ## Requests and mappings -/

variable (f : Fabric)

/-- A request in the core's name (core.rs 1280). -/
def makeRequest (object : ObjectId) (offset : Nat) (width : Width) (kind : AccessKind) :
    MemoryRequest :=
  { context := { agent := c.agent, domain := c.domain, privilege := c.privilege }
    object, offset, width, length := width.bytes, kind }

/-- One entry of the search: an entry that meets the range must be the only one and contain it. -/
def mapEntry (address stop length : Nat) (selected : Option (ObjectId × Nat))
    (e : AddressMapEntry) : Res PointerMachineError (Option (ObjectId × Nat)) := do
  let entryEnd ← okOr (checkedAdd e.virtBase e.size) .unmapped
  if address < entryEnd ∧ e.virtBase < stop then do
    require (selected = none ∧ e.virtBase ≤ address ∧ stop ≤ entryEnd) .unmapped
    let offset ← okOr (checkedAdd e.objOffset (address - e.virtBase)) .unmapped
    let _ ← okOr (checkedAdd offset length) .unmapped
    return some (e.object, offset)
  else return selected

/-- The object and offset of a mapped span (core.rs 681). -/
def checkedPointerMapping (address length : Nat) :
    Res PointerMachineError (ObjectId × Nat) := do
  let stop ← okOr ((checkedAdd address length).filter fun _ => length != 0) .unmapped
  let selected ← c.addressMap.foldlM (mapEntry address stop length) none
  okOr selected .unmapped

/-- The request for the cell at an address (core.rs 696). -/
def pointerCellRequest (address : Nat) (kind : AccessKind) :
    Res PointerMachineError MemoryRequest := do
  let (object, offset) ← c.checkedPointerMapping address 16
  require (offset % 16 = 0) .unaligned
  return { c.makeRequest object offset .double kind with length := 16 }

/-! ## Register pairs -/

/-- The number of the pair that starts at a register (core.rs 621). -/
def pointerPairIndex (start : Register) : Res PointerMachineError (Fin 6) :=
  if h : start.val ≤ 10 ∧ start.val % 2 = 0 then ok (pairOf start (by omega)) else err .invalidPair

/-- `captured_pointer`: the kind and the words must agree; null has neither. -/
def capturedPointer (start : Register) : Res PointerMachineError (Option ScopedPointer) := do
  let index ← pointerPairIndex start
  let words := (c.r start, c.r (start + 1))
  match c.pointerPairs index with
  | some pointer => do
    require (pointer.words = words) .missingKind
    return some pointer
  | none => do
    require (words = (0, 0)) .missingKind
    return none

/-- `install_pointer`: the only way a pair gets a kind. -/
def installPointer (start : Register) (pointer : Option ScopedPointer) :
    Res PointerMachineError Anka64Core := do
  let index ← pointerPairIndex start
  let c ← c.enableProtectedContext
  let words := (pointer.map (·.words)).getD (0, 0)
  return { c with
    r := Function.update (Function.update c.r start words.1) (start + 1) words.2
    pointerPairs := Function.update c.pointerPairs index pointer }

/-! ## Authentication -/

/-- The pointer is current for this core (heap.rs 76). -/
def checkApplicationPointer (pointer : ScopedPointer) : Res PointerMachineError Unit :=
  if f.scopedPointers.isHeapPointer pointer = true then do
    let owner ← mapErr c.currentHeapOwner .heap
    let _ ← mapErr (f.checkedLiveHeap owner c.agent pointer) .heap
    return ()
  else do
    let _ ← f.scopedPointerBacking pointer c.domain
    return ()

/-- Moves a pointer of either kind (heap.rs 95). -/
def addApplicationPointer (pointer : ScopedPointer) (delta : Int) :
    Res PointerMachineError ScopedPointer :=
  if f.scopedPointers.isHeapPointer pointer = true then do
    let owner ← mapErr c.currentHeapOwner .heap
    mapErr (f.scopedPointers.addHeapPointer pointer owner delta) .heap
  else mapErr (f.scopedPointers.add pointer c.domain.raw delta) .pointer

/-- The pointer in a pair, checked (core.rs 660). -/
def authenticatedPointer (start : Register) :
    Res PointerMachineError (Option ScopedPointer) := do
  match ← c.capturedPointer start with
  | some pointer => do
    c.checkApplicationPointer f pointer
    return some pointer
  | none => return none

/-- `authenticated_pointer(..)?.ok_or(MissingKind)?`. -/
def operandPointer (start : Register) : Res PointerMachineError ScopedPointer := do
  let pointer ← c.authenticatedPointer f start
  okOr pointer .missingKind

/-! ## Moves and arithmetic -/

/-- Copies a pair (core.rs 668). -/
def pointerMove (dst src : Register) : Res PointerMachineError Anka64Core := do
  let _ ← pointerPairIndex dst
  let captured ← c.authenticatedPointer f src
  c.installPointer dst captured

/-- Moves the pointer of a pair (core.rs 674). -/
def pointerAdd (dst src : Register) (delta : Int) : Res PointerMachineError Anka64Core := do
  let _ ← pointerPairIndex dst
  let pointer ← c.operandPointer f src
  let pointer ← c.addApplicationPointer f pointer delta
  c.installPointer dst (some pointer)

/-! ## Cells -/

/-- A pointer error that leaves the Fabric as it is. -/
def keeping {α : Type} (f : Fabric) (x : Res PointerMachineError α) :
    Res (PointerMachineError × Fabric) α := mapErr x fun e => (e, f)

/-- `map_err(PointerMachineError::Fabric)`. -/
def fabricError {α : Type} (x : Res (FaultRecord × Fabric) α) :
    Res (PointerMachineError × Fabric) α := mapErr x fun e => (.fabric e.1, e.2)

/-- `pointer_address`: the displaced pointer, resolved and mapped onto its own backing. -/
def pointerAddress (start : Register) (disp : Int) (write : Bool) :
    Res PointerMachineError Nat := do
  let pointer ← c.operandPointer f start
  let pointer ← mapErr (f.scopedPointers.add pointer c.domain.raw disp) .pointer
  let address ← mapErr (f.scopedPointers.resolve pointer c.domain.raw 16 write) .pointer
  let mapped ← c.checkedPointerMapping address 16
  let backing ← f.scopedPointerBacking pointer c.domain
  require (mapped = backing) .unmapped
  return address

/-- `pointer_store`: a heap token is stored under its owner, anything else under the domain. -/
def pointerStore (src : Register) (address : Nat) :
    Res (PointerMachineError × Fabric) Fabric := do
  let captured ← keeping f (c.authenticatedPointer f src)
  let request ← keeping f (c.pointerCellRequest address .write)
  match captured.filter f.scopedPointers.isHeapPointer with
  | some pointer => do
    let owner ← keeping f (mapErr c.currentHeapOwner .heap)
    fabricError (f.storeHeapTokenInLocal request owner pointer)
  | none => fabricError (f.storePointerCell request captured)

/-- `pointer_load`: what a cell holds is authenticated again before it gets a kind. -/
def pointerLoad (dst : Register) (address : Nat) :
    Res (PointerMachineError × Fabric) (Anka64Core × Fabric) := do
  let _ ← keeping f (pointerPairIndex dst)
  let request ← keeping f (c.pointerCellRequest address .read)
  let (pointer, f) ← fabricError (f.loadPointerCell request)
  keeping f (match pointer with
    | some pointer => c.checkApplicationPointer f pointer
    | none => ok ())
  let c ← keeping f (c.installPointer dst pointer)
  return (c, f)

/-- Loads a pointer through a pointer (heap.rs 117). -/
def pointerLoadIndirect (dst base : Register) (displacement : Int) :
    Res (PointerMachineError × Fabric) (Anka64Core × Fabric) := do
  let pointer ← keeping f (c.operandPointer f base)
  if f.scopedPointers.isHeapPointer pointer = true then do
    let _ ← keeping f (pointerPairIndex dst)
    let pointer ← keeping f (c.addApplicationPointer f pointer displacement)
    let owner ← keeping f (mapErr c.currentHeapOwner .heap)
    let token ← keeping f (mapErr (f.loadHeapPointerCell owner c.agent pointer) .heap)
    let c ← keeping f (c.installPointer dst token)
    return (c, f)
  else do
    let address ← keeping f (c.pointerAddress f base displacement false)
    c.pointerLoad f dst address

/-- Stores a pointer through a pointer (heap.rs 143). -/
def pointerStoreIndirect (src base : Register) (displacement : Int) :
    Res (PointerMachineError × Fabric) Fabric := do
  let pointer ← keeping f (c.operandPointer f base)
  if f.scopedPointers.isHeapPointer pointer = true then do
    let source ← keeping f (c.authenticatedPointer f src)
    let pointer ← keeping f (c.addApplicationPointer f pointer displacement)
    let owner ← keeping f (mapErr c.currentHeapOwner .heap)
    keeping f (mapErr (f.storeHeapPointerCell owner c.agent pointer source) .heap)
  else do
    let address ← keeping f (c.pointerAddress f base displacement true)
    c.pointerStore f src address

/-! ## Bytes -/

/-- The mapping of a resolved local address must be the backing of its pointer. -/
def checkedBacking (pointer : ScopedPointer) (address length : Nat) :
    Res PointerMachineError (ObjectId × Nat) := do
  let mapped ← c.checkedPointerMapping address length
  let backing ← f.scopedPointerBacking pointer c.domain
  require (backing = mapped) .unmapped
  return mapped

/-- Reads through the pointer of a pair (core.rs 722). -/
def pointerRead (start : Register) (width : Width) :
    Res (PointerMachineError × Fabric) (List UInt8 × Fabric) := do
  let pointer ← keeping f (c.operandPointer f start)
  if f.scopedPointers.isHeapPointer pointer = true then do
    let owner ← keeping f (mapErr c.currentHeapOwner .heap)
    let bytes ← keeping f (mapErr (f.readHeapBytes owner c.agent pointer width.bytes) .heap)
    return (bytes, f)
  else do
    let address ← keeping f
      (mapErr (f.scopedPointers.resolve pointer c.domain.raw width.bytes false) .pointer)
    let (object, offset) ← keeping f (c.checkedBacking f pointer address width.bytes)
    fabricError (f.executeRead (c.makeRequest object offset width .read))

/-- Writes through the pointer of a pair (core.rs 736). -/
def pointerWrite (start : Register) (width : Width) (data : List UInt8) :
    Res (PointerMachineError × Fabric) Fabric := do
  let pointer ← keeping f (c.operandPointer f start)
  if f.scopedPointers.isHeapPointer pointer = true then do
    keeping f (require (data.length = width.bytes) .missingKind)
    let owner ← keeping f (mapErr c.currentHeapOwner .heap)
    keeping f (mapErr (f.writeHeapBytes owner c.agent pointer data) .heap)
  else do
    let address ← keeping f
      (mapErr (f.scopedPointers.resolve pointer c.domain.raw width.bytes true) .pointer)
    let (object, offset) ← keeping f (c.checkedBacking f pointer address width.bytes)
    fabricError (f.executeWrite (c.makeRequest object offset width .write) data)

end Anka64Core

end Anka
