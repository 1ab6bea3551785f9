import Anka.ScopedPointers.State

/-!
# The pointer registry: local scopes and pointers (`scoped_pointers.rs`)

Local pointers live in LIFO scopes. `active_slots_end` and `active_scopes_end` bound the scans of
the two tables; leaving a scope trims both. A slice `self.scopes[..end]` is `take end`, which is
the slice as long as the bound is inside the table; the directory invariant has that bound.

`add`, `resolve`, `read_span` and `write_span` only read: each starts with `allocation`, which
authenticates the pointer's slot and generation.
-/

namespace Anka

open Rust Res

/-- A slot that can be admitted: `Free` with a generation left. -/
def Slot.available (s : Slot) : Bool := s.state == .free && decide (s.generation < u32Max)

/-- The local record of a slot. -/
def Slot.local? (s : Slot) : Option LocalAllocation :=
  match s.record with
  | .local a => some a
  | _ => none

/-- The heap record of a slot. -/
def Slot.heap? (s : Slot) : Option HeapRecord :=
  match s.record with
  | .heap r => some r
  | _ => none

/-- The slots `trim_active_slots` drops from the scan: `Free | Exhausted`. -/
def Slot.inactive (s : Slot) : Bool := s.state == .free || s.state == .exhausted

namespace ScopedPointers

variable (s : ScopedPointers)

/-- `self.heap.advance()`. -/
def advance : ScopedPointers := { s with heap := s.heap.advance }

/-- The scope records a scan visits. -/
def activeScopes : List ScopeRecord :=
  (s.scopes.take s.activeScopesEnd).filterMap id

/-- Whose scope it is (174). -/
def scopeOwner (scope : Scope) : Option Nat :=
  (s.activeScopes.find? fun r => r.scope == scope).map (·.owner)

/-- The owner has no later scope (182). -/
def isTop (scope : Scope) : Bool :=
  (s.scopeOwner scope).any fun owner =>
    !(s.activeScopes.any fun r => r.owner == owner && decide (scope.raw < r.scope.raw))

/-- The first slot that can be used (191). -/
def freeSlot : Option Nat := s.slots.findIdx? Slot.available

/-- Preflight of an entire frame: a scope row, `locals` slots, and revision headroom. -/
def preflightFrame (locals : Nat) : Res PointerError Unit :=
  require (s.nextScope ≠ u64Max ∧ s.scopes.any (·.isNone) = true ∧
    locals ≤ ((s.slots.filter Slot.available).take locals).length ∧
    ((checkedAdd locals 1).bind (checkedAdd s.heap.revision)).isSome) .exhausted

/-- A new scope (144). -/
def enterScopeFor (owner : Nat) : Res PointerError (Scope × ScopedPointers) := do
  s.preflightFrame 0
  let index ← unwrap (freeRow s.scopes)
  let scope : Scope := ⟨s.nextScope⟩
  let nextScope ← plus s.nextScope 1
  let s := { s with
    nextScope
    scopes := s.scopes.set index (some { scope, owner, frame := none })
    activeScopesEnd := max s.activeScopesEnd (index + 1) }
  return (scope, s.advance)

/-- `bind_frame`: the first record of the scope takes the frame; it must not have one. -/
def bindFrame {ε : Type} (s : ScopedPointers) (scope : Scope) (frame : LocalFrameBacking) :
    Res ε ScopedPointers := do
  let index ← unwrap (s.scopes.findIdx? fun r => r.any fun r => r.scope == scope)
  let record ← unwrap (s.scopes[index]?.join)
  check (record.frame = none)
  return { s with scopes := s.scopes.set index (some { record with frame := some frame }) }

/-- The frames of the open scopes (162). -/
def liveFrameBackings : List LocalFrameBacking :=
  s.activeScopes.filterMap (·.frame)

/-- The memory of the live locals (166). -/
def liveLocalBackings : List LocalFrameBacking :=
  (s.slots.take s.activeSlotsEnd).filterMap fun slot =>
    if slot.state = .live then
      slot.local?.bind fun a => a.backing.map fun backing => { backing, length := a.length }
    else none

/-- `register`: a live local record in the first available slot. -/
def register (scope : Scope) (domain base length : Nat) (writable : Bool) :
    Res PointerError (ScopedPointer × ScopedPointers) := do
  require (s.isTop scope = true) .invalidScope
  let _ ← okOr (checkedAdd base length) .invalidRange
  require (s.heap.revision ≠ u64Max) .exhausted
  let slot ← okOr s.freeSlot .exhausted
  let old ← unwrap s.slots[slot]?
  let generation := old.generation + 1
  let record := Record.local { scope, domain, base, length, writable, backing := none }
  let s := { s with
    slots := s.slots.set slot { generation, state := .live, record }
    activeSlotsEnd := max s.activeSlotsEnd (slot + 1) }
  return ({ slot, generation, position := 0 }, s.advance)

/-- `allocation`: the live local record under a pointer. -/
def allocation (pointer : ScopedPointer) (domain : Nat) : Res PointerError LocalAllocation := do
  let slot ← okOr s.slots[pointer.slot]? .stale
  require (slot.state = .live ∧ slot.generation = pointer.generation) .stale
  let a ← okOr slot.local? .stale
  require (a.domain = domain) .domain
  return a

/-- `add`: byte displacement; one past the end is transportable. -/
def add (pointer : ScopedPointer) (domain : Nat) (delta : Int) :
    Res PointerError ScopedPointer := do
  let a ← s.allocation pointer domain
  let position ← okOr (checkedAddSigned pointer.position delta) .bounds
  require (position ≤ a.length) .bounds
  return { pointer with position }

/-- `resolve`: the address of a nonempty span inside the buffer. -/
def resolve (pointer : ScopedPointer) (domain width : Nat) (write : Bool) :
    Res PointerError Nat := do
  let a ← s.allocation pointer domain
  require (¬ (write = true ∧ a.writable = false)) .rights
  let stop ← okOr (checkedAdd pointer.position width) .bounds
  require (width ≠ 0 ∧ stop ≤ a.length) .bounds
  okOr (checkedAdd a.base pointer.position) .bounds

/-- `read_span`: the scope's owner must be the given one; the span may be empty. -/
def readSpan (pointer : ScopedPointer) (domain owner length : Nat) : Res PointerError Nat := do
  let a ← s.allocation pointer domain
  require (s.scopeOwner a.scope = some owner) .invalidScope
  require (pointer.position ≤ a.length ∧ length ≤ a.length - pointer.position) .bounds
  okOr (checkedAdd a.base pointer.position) .bounds

/-- `write_span`: `read_span` of a writable buffer. -/
def writeSpan (pointer : ScopedPointer) (domain owner length : Nat) : Res PointerError Nat := do
  let address ← s.readSpan pointer domain owner length
  let a ← s.allocation pointer domain
  require (a.writable = true) .rights
  return address

/-- `add(pointer, domain, 0)`: the only displacement the Fabric asks for. -/
def transport (pointer : ScopedPointer) (domain : Nat) : Res PointerError ScopedPointer := do
  let a ← s.allocation pointer domain
  require (pointer.position ≤ a.length) .bounds
  return pointer

/-- `storage_span`: base and length of the record, whatever the slot's state. -/
def storageSpan (pointer : ScopedPointer) : Option (Nat × Nat) := do
  let slot ← s.slots[pointer.slot]?
  guard (slot.generation = pointer.generation)
  let a ← slot.local?
  return (a.base, a.length)

/-- `bind_backing`: asserts the exact live local record and that it has no backing. -/
def bindBacking {ε : Type} (s : ScopedPointers) (pointer : ScopedPointer)
    (backing : PointerBacking) : Res ε ScopedPointers := do
  let slot ← unwrap s.slots[pointer.slot]?
  check (slot.generation = pointer.generation)
  check (slot.state = .live)
  let a ← unwrap slot.local?
  check (a.backing = none)
  let record := Record.local { a with backing := some backing }
  return { s with slots := s.slots.set pointer.slot { slot with record } }

/-- The memory of a pointer (380). -/
def backing (pointer : ScopedPointer) : Option PointerBacking := do
  let slot ← s.slots[pointer.slot]?
  guard (slot.generation = pointer.generation)
  let a ← slot.local?
  a.backing

/-- `take_backing`: the backing of a record that is no longer live. -/
def takeBacking (pointer : ScopedPointer) : Option PointerBacking × ScopedPointers :=
  match s.slots[pointer.slot]? with
  | none => (none, s)
  | some slot =>
    if slot.generation ≠ pointer.generation ∨ slot.state = .live then (none, s)
    else match slot.record with
      | .local a =>
        let record := Record.local { a with backing := none }
        (a.backing, { s with slots := s.slots.set pointer.slot { slot with record } })
      | _ => (none, s)

/-- `trim_active_slots`: shorten the scan past free and exhausted slots. -/
def trimActiveSlots : ScopedPointers :=
  { s with activeSlotsEnd :=
      trimEnd (fun i => s.slots[i]?.any Slot.inactive) s.activeSlotsEnd }

/-- The scope's local slots of the active prefix are released. -/
def releaseLocals (slots : List Slot) (bound : Nat) (scope : Scope) : List Slot :=
  slots.mapIdx fun i slot =>
    if i < bound && slot.local?.any (fun a => a.scope == scope) then slot.release else slot

/-- `leave_scope`: LIFO exit; only local records of this scope are released. -/
def leaveScope (scope : Scope) : Res PointerError ScopedPointers := do
  require (s.isTop scope = true) .invalidScope
  check (s.activeSlotsEnd ≤ s.slots.length)
  let index ← unwrap (s.scopes.findIdx? fun r => r.any fun r => r.scope == scope)
  let scopes := s.scopes.set index none
  let s := { s with
    slots := releaseLocals s.slots s.activeSlotsEnd scope
    scopes
    activeScopesEnd := trimEnd (fun i => scopes[i]?.any Option.isNone) s.activeScopesEnd }
  return s.trimActiveSlots.advance

end ScopedPointers

end Anka
