import Anka.Fabric.PointerCells

/-!
# The Fabric: local frames (`fabric/local_frames.rs`)

`issue_pointer_frame` checks a whole frame, then zeroes its bytes, drops the tags in it, enters a
scope and registers every local. Nothing it does after the first write can fail for a reason it has
not checked; the `expect`s of that part are panics here.

Left out: the host may refuse the result vector, which ends the call with `Exhausted` before
anything changes.
-/

namespace Anka

open Rust Res

/-- `overlaps`: invalid ranges fail closed. -/
def rangesOverlap (a n b m : Nat) : Bool :=
  n != 0 && m != 0 &&
    match checkedAdd a n, checkedAdd b m with
    | some endA, some endB => decide (a < endB) && decide (b < endA)
    | _, _ => true

theorem not_meets_of_rangesOverlap {a n b m : Nat} (hn : n ≠ 0) (hm : m ≠ 0)
    (h : rangesOverlap a n b m = false) : ¬ meets a n b m := by
  have hn' : (n != 0) = true := by simpa using hn
  have hm' : (m != 0) = true := by simpa using hm
  rintro ⟨hl, hr⟩
  unfold rangesOverlap at h
  rw [hn', hm', Bool.true_and, Bool.true_and] at h
  split at h
  · rename_i endA endB hen hend
    obtain ⟨-, rfl⟩ := checkedAdd_eq_some.mp hen
    obtain ⟨-, rfl⟩ := checkedAdd_eq_some.mp hend
    simp [hl, hr] at h
  · cases h

/-- One local of a frame: `(MemoryRequest, u64, bool)`. -/
structure Registration where
  request : MemoryRequest
  address : Nat
  writable : Bool

/-- The adjacent comparison that makes the pairwise one unnecessary. -/
def orderedDisjoint : List Registration → Bool
  | a :: b :: rest =>
    (checkedAdd a.address a.request.length).any (fun stop => decide (stop ≤ b.address)) &&
      orderedDisjoint (b :: rest)
  | _ => true

namespace Fabric

variable (f : Fabric)

/-- The loop over the registrations: each inside the frame, backed, and disjoint from the ones
before it. -/
def checkRegistrations (frame : MemoryRequest) (address stop : Nat) (backing : PointerBacking)
    (ordered : Bool) : List Registration → List Registration → Res PointerMachineError Unit
  | _, [] => ok ()
  | prior, r :: rest => do
    require (r.request.context = frame.context ∧ r.request.kind = .read ∧
      r.request.object = frame.object ∧ address ≤ r.address ∧
      (checkedAdd r.address r.request.length).any (fun n => decide (n ≤ stop)) = true ∧
      checkedAdd frame.offset (r.address - address) = some r.request.offset)
      (.pointer .invalidRange)
    let current ← f.checkedLocalBacking r.request r.writable
    require (current.generation = backing.generation) (.pointer .invalidRange)
    require (ordered = true ∨ (prior.any fun other =>
      rangesOverlap r.address r.request.length other.address other.request.length) = false)
      (.pointer .invalidRange)
    checkRegistrations frame address stop backing ordered (prior ++ [r]) rest

/-- A live frame or local whose bytes the new frame would share. -/
def sharesBacking (frame : MemoryRequest) (physical : Nat) (live : LocalFrameBacking) : Bool :=
  live.backing.object == frame.object &&
      rangesOverlap frame.offset frame.length live.backing.offset live.length ||
    ((f.placement.get live.backing.object).bind fun b => checkedAdd b live.backing.offset).any
      fun addr => rangesOverlap physical frame.length addr live.length

/-- Work in flight over the bytes of the new frame. -/
def sharesTransaction (frame : MemoryRequest) (physical : Nat) (tx : Transaction) : Bool :=
  let r := tx.request
  !tx.state.isTerminal &&
    (r.object == frame.object && rangesOverlap frame.offset frame.length r.offset r.length ||
      tx.physicalAddress.any (fun addr => rangesOverlap physical frame.length addr r.length) ||
      ((f.placement.get r.object).bind fun b => checkedAdd b r.offset).any
        fun addr => rangesOverlap physical frame.length addr r.length)

/-- No other span meets the frame's (140). -/
def preflightLocalFrameExclusion (frame : MemoryRequest) (physical : Nat) :
    Res PointerMachineError Unit := do
  require ((f.agents.any fun id a =>
    id != frame.context.agent && a.domain == frame.context.domain) = false) (.pointer .rights)
  require ((f.domains.any fun _ d => d.id != frame.context.domain && d.capabilities.any fun e =>
    e.cap.object == frame.object && f.validate e.cap &&
      rangesOverlap frame.offset frame.length e.cap.offset e.cap.length) = false) (.pointer .rights)
  require ((f.objects.any fun _ o => o.id != frame.object && o.state.isLive &&
    (f.placement.get o.id).any fun base => rangesOverlap physical frame.length base o.size) = false)
    (.pointer .rights)
  require ((f.scopedPointers.liveFrameBackings ++ f.scopedPointers.liveLocalBackings).any
    (f.sharesBacking frame physical) = false) (.pointer .rights)
  require (f.transactions.any (f.sharesTransaction frame physical) = false) (.pointer .rights)

/-- The frame's bytes become zero and the tags in them go; a cell whose object is not placed is
none of them. -/
def clearFrame (physical length : Nat) : Fabric :=
  let f := f.writeMemory physical (List.replicate length 0)
  { f with pointerCells := f.pointerCells.retain fun key _ =>
      (f.cellAddress key).all fun cell => !rangesOverlap physical length cell 16 }

/-- Register the locals of a frame in order. -/
def registerLocals {ε : Type} (scope : Scope) (domain : DomainId) (generation : Generation) :
    ScopedPointers → List Registration → Res ε (List ScopedPointer × ScopedPointers)
  | s, [] => ok ([], s)
  | s, r :: rest => do
    let (pointer, s) ← expectOk (s.register scope domain.raw r.address r.request.length r.writable)
    let s ← s.bindBacking pointer
      { object := r.request.object, generation, offset := r.request.offset }
    let (pointers, s) ← registerLocals scope domain generation s rest
    return (pointer :: pointers, s)

/-- A frame's scope and its locals, all or none (20). -/
def issuePointerFrame (owner : Nat) (frame : MemoryRequest) (address : Nat)
    (registrations : List Registration) :
    Res PointerMachineError ((Scope × List ScopedPointer) × Fabric) := do
  require (owner ≠ 0 ∧ frame.context.privilege = .user ∧ frame.kind = .read ∧
    f.pointerStackObjects.get frame.object = some (owner, frame.context.domain) ∧
    ((f.agents.get frame.context.agent).any fun a =>
      a.domain == frame.context.domain && a.kind.isCpu) = true) (.pointer .domain)
  require (address % 16 = 0 ∧ frame.offset % 16 = 0 ∧ frame.length ≠ 0 ∧
    frame.length % 16 = 0 ∧ registrations.length ≤ 4096) (.pointer .invalidRange)
  let stop ← okOr (checkedAdd address frame.length) (.pointer .invalidRange)
  let _ ← okOr (checkedAdd frame.offset frame.length) (.pointer .invalidRange)
  let backing ← f.checkedLocalBacking frame true
  let physical ← okOr (f.translate frame.object frame.offset) .unmapped
  let physicalEnd ← okOr (checkedAdd physical frame.length) (.pointer .invalidRange)
  require (physical % 16 = 0 ∧ physicalEnd ≤ f.memory.length ∧
    f.heapPoolOverlaps physical frame.length = false) (.pointer .invalidRange)
  mapErr (f.scopedPointers.preflightFrame registrations.length) .pointer
  f.checkRegistrations frame address stop backing (orderedDisjoint registrations) [] registrations
  f.preflightLocalFrameExclusion frame physical
  let f := f.clearFrame physical frame.length
  let (scope, s) ← expectOk (f.scopedPointers.enterScopeFor owner)
  let s ← s.bindFrame scope { backing, length := frame.length }
  let (pointers, s) ← registerLocals scope frame.context.domain backing.generation s registrations
  return ((scope, pointers), { f with scopedPointers := s })

end Fabric

end Anka
