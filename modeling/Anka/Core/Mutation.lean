import Anka.Core.Machine
import Anka.Lib.InPlace

/-!
# The core: the instruction cycle in place (`core.rs`, `core/heap.rs`, `fabric/local_frames.rs`)

`Anka64Core.step` returns the core and the Fabric of an instruction that ended well, and only the
Fabric with a fault. The source changes both through `&mut` and returns on an error with whatever
it had changed by then. `Mut.step` is the cycle in that form: every assignment and every check in
the order of the source, and the whole system beside a fault as beside a result. A function that
cannot fail is one assignment; one that only looks is the function of the modules before.

`Mut.step_eq` is the connection: an instruction that faults has assigned nothing in the core, and
in the Fabric what its transactions left there.
-/

namespace Anka

open Rust Res InPlace List

/-! ## Looking and assigning -/

namespace Mut

variable {ε α β : Type} {ε' : Type}

/-- Through `&self` and `&Fabric`. -/
def look (x : Anka64Core → Fabric → Res ε α) : InPlace System ε α :=
  ask fun s => x s.core s.fabric

/-- Through `&mut self`. -/
def modifyCore (g : Anka64Core → Anka64Core) : InPlace System ε Unit :=
  modify fun s => { s with core := g s.core }

/-- Through `&self` and `&mut Fabric`. -/
def onFabric (x : Anka64Core → InPlace Fabric ε α) : InPlace System ε α := fun s =>
  match x s.core s.fabric with
  | ok (a, fabric) => ok (a, { s with fabric })
  | err (e, fabric) => err (e, { s with fabric })
  | .panic => .panic

/-- A call on the Fabric that returns a value with it. -/
def returning (x : Fabric → Res (ε × Fabric) (α × Fabric)) : InPlace Fabric ε α := x

/-- A call on the Fabric that returns nothing but it. -/
def assigning (x : Fabric → Res (ε × Fabric) Fabric) : InPlace Fabric ε Unit := fun f =>
  x f >>= fun f => ok ((), f)

/-- A call that leaves the core as it was when it fails. -/
def coreKept (x : Anka64Core → Fabric → Res (ε × Fabric) (α × Anka64Core × Fabric)) :
    InPlace System ε α := fun s =>
  match x s.core s.fabric with
  | ok (a, core, fabric) => ok (a, { core, fabric })
  | err (e, fabric) => err (e, { s with fabric })
  | .panic => .panic

theorem pure_eq_coreKept (a : α) :
    (pure a : InPlace System ε α) = coreKept fun c f => ok (a, c, f) := rfl

theorem modifyCore_eq_coreKept (g : Anka64Core → Anka64Core) :
    (modifyCore g : InPlace System ε Unit) = coreKept fun c f => ok ((), g c, f) := rfl

theorem onFabric_eq_coreKept (x : Anka64Core → InPlace Fabric ε α) :
    onFabric x = coreKept fun c f => x c f >>= fun r => ok (r.1, c, r.2) := by
  funext s
  cases hx : x s.core s.fabric <;> simp [onFabric, coreKept, hx]

theorem look_bind (x : Anka64Core → Fabric → Res ε α)
    (y : α → Anka64Core → Fabric → Res (ε × Fabric) (β × Anka64Core × Fabric)) :
    (look x >>= fun a => coreKept (y a)) =
      coreKept fun c f => mapErr (x c f) (·, f) >>= fun a => y a c f := by
  funext s
  rw [bind_apply]
  cases hx : x s.core s.fabric <;> simp [look, ask, coreKept, hx, mapErr]

theorem onFabric_bind (x : Anka64Core → InPlace Fabric ε α)
    (y : α → Anka64Core → Fabric → Res (ε × Fabric) (β × Anka64Core × Fabric)) :
    (onFabric x >>= fun a => coreKept (y a)) =
      coreKept fun c f => x c f >>= fun r => y r.1 c r.2 := by
  funext s
  rw [bind_apply]
  cases hx : x s.core s.fabric <;> simp [onFabric, coreKept, hx]

theorem coreKept_bind (x : Anka64Core → Fabric → Res (ε × Fabric) (α × Anka64Core × Fabric))
    {y : α → Anka64Core → Fabric → Res (ε × Fabric) (β × Anka64Core × Fabric)}
    (hy : ∀ a c f e, y a c f ≠ err e) :
    (coreKept x >>= fun a => coreKept (y a)) =
      coreKept fun c f => x c f >>= fun r => y r.1 r.2.1 r.2.2 := by
  funext s
  rw [bind_apply]
  cases hx : x s.core s.fabric with
  | ok r =>
    cases hr : y r.1 r.2.1 r.2.2 with
    | err e => exact absurd hr (hy _ _ _ _)
    | ok r' => simp [coreKept, hx, hr]
    | panic => simp [coreKept, hx, hr]
  | err e => simp [coreKept, hx]
  | panic => simp [coreKept, hx]

theorem mapFail_coreKept (x : Anka64Core → Fabric → Res (ε × Fabric) (α × Anka64Core × Fabric))
    (g : ε → ε') :
    (coreKept x).mapFail g = coreKept fun c f => mapErr (x c f) fun e => (g e.1, e.2) := by
  funext s
  cases hx : x s.core s.fabric <;> simp [mapFail, coreKept, hx, mapErr]

open Anka64Core

/-! ## The Fabric -/

/-- `leave_scope`, in place. -/
def leaveScope (scope : Scope) : InPlace ScopedPointers PointerError Unit := do
  ask fun s => require (s.isTop scope = true) .invalidScope
  ask fun s => check (s.activeSlotsEnd ≤ s.slots.length)
  modify fun s => { s with slots := ScopedPointers.releaseLocals s.slots s.activeSlotsEnd scope }
  let index ← ask fun s => unwrap (s.scopes.findIdx? fun r => r.any fun r => r.scope == scope)
  modify fun s => { s with scopes := s.scopes.set index none }
  modify fun s => { s with
    activeScopesEnd := trimEnd (fun i => s.scopes[i]?.any Option.isNone) s.activeScopesEnd }
  modify ScopedPointers.trimActiveSlots
  modify ScopedPointers.advance

theorem leaveScope_eq (sc : Scope) :
    leaveScope sc = atomic fun s => s.leaveScope sc >>= fun s => ok ((), s) := by
  unfold leaveScope
  simp (disch := simp) only [modify_eq_atomic, ask_bind_atomic, atomic_bind_atomic, ok_bind]
  simp only [ScopedPointers.leaveScope, bind_assoc, pure_eq, ok_bind]

/-- A call on the registry of a Fabric. -/
def onRegistry (x : InPlace ScopedPointers ε α) : InPlace Fabric ε α := fun f =>
  match x f.scopedPointers with
  | ok (a, scopedPointers) => ok (a, { f with scopedPointers })
  | err (e, scopedPointers) => err (e, { f with scopedPointers })
  | .panic => .panic

theorem onRegistry_atomic (x : ScopedPointers → Res ε (α × ScopedPointers)) :
    onRegistry (atomic x) = atomic fun f =>
      x f.scopedPointers >>= fun r => ok (r.1, { f with scopedPointers := r.2 }) := by
  funext f
  cases hx : x f.scopedPointers <;> simp [onRegistry, atomic, hx]

/-- `retire_pointer_frame`, in place. -/
def retirePointerFrame (scope : Scope) (locals : List ScopedPointer) :
    InPlace Fabric PointerMachineError Unit := do
  (onRegistry (leaveScope scope)).mapFail .pointer
  modify fun f => locals.foldl Fabric.retireLocal f

theorem retirePointerFrame_eq (s : Scope) (l : List ScopedPointer) :
    retirePointerFrame s l = atomic fun f => f.retirePointerFrame s l >>= fun f => ok ((), f) := by
  unfold retirePointerFrame
  rw [leaveScope_eq, onRegistry_atomic, mapFail_atomic, modify_eq_atomic,
    atomic_bind_atomic _ (by simp)]
  congr 1
  funext f
  cases h : f.scopedPointers.leaveScope s <;>
    simp [Fabric.retirePointerFrame, h, mapErr]

/-- The loop that registers the locals: each `expect` may panic, none can fail. -/
def registerLocals (scope : Scope) (domain : DomainId) (generation : Generation) :
    List Registration → InPlace ScopedPointers ε (List ScopedPointer)
  | [] => pure []
  | r :: rest => do
    let pointer ← atomic fun s =>
      expectOk (s.register scope domain.raw r.address r.request.length r.writable)
    atomic fun s => s.bindBacking pointer
      { object := r.request.object, generation, offset := r.request.offset } >>= fun s => ok ((), s)
    let pointers ← registerLocals scope domain generation rest
    return pointer :: pointers

/-- `issue_pointer_frame`, in place. -/
def issuePointerFrame (owner : Nat) (frame : MemoryRequest) (address : Nat)
    (registrations : List Registration) :
    InPlace Fabric PointerMachineError (Scope × List ScopedPointer) := do
  ask fun f => require (owner ≠ 0 ∧ frame.context.privilege = .user ∧ frame.kind = .read ∧
    f.pointerStackObjects.get frame.object = some (owner, frame.context.domain) ∧
    ((f.agents.get frame.context.agent).any fun a =>
      a.domain == frame.context.domain && a.kind.isCpu) = true) (.pointer .domain)
  ask fun _ => require (address % 16 = 0 ∧ frame.offset % 16 = 0 ∧ frame.length ≠ 0 ∧
    frame.length % 16 = 0 ∧ registrations.length ≤ 4096) (.pointer .invalidRange)
  let stop ← ask fun _ => okOr (checkedAdd address frame.length) (.pointer .invalidRange)
  let _ ← ask fun _ => okOr (checkedAdd frame.offset frame.length) (.pointer .invalidRange)
  let backing ← ask fun f => f.checkedLocalBacking frame true
  let physical ← ask fun f => okOr (f.translate frame.object frame.offset) .unmapped
  let physicalEnd ← ask fun _ => okOr (checkedAdd physical frame.length) (.pointer .invalidRange)
  ask fun f => require (physical % 16 = 0 ∧ physicalEnd ≤ f.memory.length ∧
    f.heapPoolOverlaps physical frame.length = false) (.pointer .invalidRange)
  ask fun f => mapErr (f.scopedPointers.preflightFrame registrations.length) .pointer
  ask fun f => f.checkRegistrations frame address stop backing (orderedDisjoint registrations) []
    registrations
  ask fun f => f.preflightLocalFrameExclusion frame physical
  modify fun f => f.writeMemory physical (List.replicate frame.length 0)
  modify fun f => { f with pointerCells := f.pointerCells.retain fun key _ =>
    (f.cellAddress key).all fun cell => !rangesOverlap physical frame.length cell 16 }
  let scope ← onRegistry (atomic fun s => expectOk (s.enterScopeFor owner))
  onRegistry (atomic fun s =>
    s.bindFrame scope { backing, length := frame.length } >>= fun s => ok ((), s))
  let pointers ← onRegistry
    (registerLocals scope frame.context.domain backing.generation registrations)
  return (scope, pointers)

theorem registerLocals_ne_err (sc : Scope) (d : DomainId) (g : Generation) (re : List Registration)
    (s : ScopedPointers) (e : ε) : (Fabric.registerLocals sc d g s re : Res ε _) ≠ err e := by
  induction re generalizing s with
  | nil => simp [Fabric.registerLocals]
  | cons r rest ih => simp [Fabric.registerLocals, ScopedPointers.bindBacking, ih]

theorem registerLocals_eq (scope : Scope) (domain : DomainId) (generation : Generation)
    (registrations : List Registration) :
    (registerLocals scope domain generation registrations : InPlace ScopedPointers ε _) =
      atomic fun s => Fabric.registerLocals scope domain generation s registrations := by
  induction registrations with
  | nil => rfl
  | cons r rest ih =>
    have hr := registerLocals_ne_err (ε := ε) scope domain generation rest
    simp (disch := simp [hr, ScopedPointers.bindBacking]) only [registerLocals, ih,
      pure_eq_atomic, atomic_bind_atomic, bind_assoc, ok_bind]
    simp only [Fabric.registerLocals, pure_eq]

theorem issuePointerFrame_eq (owner : Nat) (frame : MemoryRequest) (address : Nat)
    (registrations : List Registration) :
    issuePointerFrame owner frame address registrations =
      atomic fun f => f.issuePointerFrame owner frame address registrations := by
  unfold issuePointerFrame
  simp (disch := simp [registerLocals_ne_err, ScopedPointers.bindFrame]) only [registerLocals_eq,
    onRegistry_atomic, modify_eq_atomic, pure_eq_atomic, ask_bind_atomic, atomic_bind_atomic,
    bind_assoc, ok_bind]
  simp only [Fabric.issuePointerFrame, pure_eq, Fabric.clearFrame]

/-- The bytes of a span, then the tags over it. -/
def writeHeap (span : HeapSpan) (data : List UInt8)
    (tags : List (Option ScopedPointer) → List (Option ScopedPointer)) : InPlace Fabric ε Unit := do
  ask fun _ => check (data.length = span.stop - span.start)
  modify fun f => f.writeMemory span.start data
  let heap ← ask fun f => unwrap f.privateHeap
  modify fun f => { f with privateHeap := some { heap with shadow := tags heap.shadow } }

theorem writeHeap_eq (span : HeapSpan) (data : List UInt8)
    (tags : List (Option ScopedPointer) → List (Option ScopedPointer)) :
    (writeHeap span data tags : InPlace Fabric ε Unit) =
      atomic fun f => f.writeHeap span data tags >>= fun f => ok ((), f) := by
  unfold writeHeap
  simp (disch := simp) only [modify_eq_atomic, ask_bind_atomic, atomic_bind_atomic, ok_bind]
  simp only [Fabric.writeHeap, bind_assoc, pure_eq, ok_bind, Fabric.writeMemory]

/-- `store_heap_pointer_cell`, in place. -/
def storeHeapPointerCell (owner : AllocationOwner) (agent : AgentId) (destination : ScopedPointer)
    (source : Option ScopedPointer) : InPlace Fabric HeapError Unit := do
  let live ← ask fun f => f.checkedLiveHeap owner agent destination
  ask fun _ => require (live.row.plannedRights = .RW) (.pointer .rights)
  let span ← ask fun f => f.checkedHeapSpan live 16 true
  ask fun f => f.authenticateStored owner agent source
  writeHeap span (pointerBytes source) fun shadow => shadow.set span.first source

theorem storeHeapPointerCell_eq (owner : AllocationOwner) (agent : AgentId)
    (destination : ScopedPointer) (source : Option ScopedPointer) :
    storeHeapPointerCell owner agent destination source =
      atomic fun f => f.storeHeapPointerCell owner agent destination source >>= fun f =>
        ok ((), f) := by
  unfold storeHeapPointerCell
  simp only [writeHeap_eq, ask_bind_atomic]
  simp only [Fabric.storeHeapPointerCell, bind_assoc]

/-- `write_heap_bytes`, in place. -/
def writeHeapBytes (owner : AllocationOwner) (agent : AgentId) (destination : ScopedPointer)
    (bytes : List UInt8) : InPlace Fabric HeapError Unit := do
  let live ← ask fun f => f.checkedLiveHeap owner agent destination
  ask fun _ => require (live.row.plannedRights = .RW) (.pointer .rights)
  let span ← ask fun f => f.checkedHeapSpan live bytes.length false
  writeHeap span bytes (Fabric.untag span)

theorem writeHeapBytes_eq (owner : AllocationOwner) (agent : AgentId) (destination : ScopedPointer)
    (bytes : List UInt8) :
    writeHeapBytes owner agent destination bytes =
      atomic fun f => f.writeHeapBytes owner agent destination bytes >>= fun f => ok ((), f) := by
  unfold writeHeapBytes
  simp only [writeHeap_eq, ask_bind_atomic]
  simp only [Fabric.writeHeapBytes, bind_assoc]

/-! ## Pointer instructions -/

/-- `enable_protected_context`, in place. -/
def enableProtectedContext : InPlace System PointerMachineError Unit := do
  look fun c _ => require (c.protectedContextEnabled = true ∨ c.eventFrames = []) .contextMode
  modifyCore fun c => { c with protectedContextEnabled := true }

/-- `install_pointer`, in place. -/
def installPointer (start : Register) (pointer : Option ScopedPointer) :
    InPlace System PointerMachineError Unit := do
  let index ← look fun _ _ => pointerPairIndex start
  enableProtectedContext
  let words := (pointer.map (·.words)).getD (0, 0)
  modifyCore fun c => { c with r := Function.update c.r start words.1 }
  modifyCore fun c => { c with r := Function.update c.r (start + 1) words.2 }
  modifyCore fun c => { c with pointerPairs := Function.update c.pointerPairs index pointer }

/-- A core function that only looks at the Fabric, in place. -/
def changing (x : Anka64Core → Fabric → Res PointerMachineError Anka64Core) :
    InPlace System PointerMachineError Unit :=
  coreKept fun c f => keeping f (x c f) >>= fun c => ok ((), c, f)

theorem look_bind_changing (x : Anka64Core → Fabric → Res PointerMachineError α)
    (y : α → Anka64Core → Fabric → Res PointerMachineError Anka64Core) :
    (look x >>= fun a => changing (y a)) = changing fun c f => x c f >>= fun a => y a c f := by
  unfold changing
  simp only [look_bind, keeping, mapErr_bind, bind_assoc]

theorem installPointer_eq (s : Register) (pointer : Option ScopedPointer) :
    installPointer s pointer = changing fun c _ => c.installPointer s pointer := by
  unfold installPointer enableProtectedContext
  simp (disch := simp) only [modifyCore_eq_coreKept, coreKept_bind, look_bind, ok_bind, bind_assoc]
  simp only [changing, Anka64Core.installPointer, Anka64Core.enableProtectedContext, keeping,
    mapErr_bind, bind_assoc, pure_eq, mapErr_ok, ok_bind]

/-- `pointer_move`, in place. -/
def pointerMove (dst src : Register) : InPlace System PointerMachineError Unit := do
  let _ ← look fun _ _ => pointerPairIndex dst
  let captured ← look fun c f => c.authenticatedPointer f src
  installPointer dst captured

theorem pointerMove_eq (dst src : Register) :
    pointerMove dst src = changing fun c f => c.pointerMove f dst src := by
  unfold pointerMove
  simp only [installPointer_eq, look_bind_changing, Anka64Core.pointerMove]

/-- `pointer_add`, in place. -/
def pointerAdd (dst src : Register) (delta : Int) : InPlace System PointerMachineError Unit := do
  let _ ← look fun _ _ => pointerPairIndex dst
  let pointer ← look fun c f => c.operandPointer f src
  let pointer ← look fun c f => c.addApplicationPointer f pointer delta
  installPointer dst (some pointer)

theorem pointerAdd_eq (dst src : Register) (delta : Int) :
    pointerAdd dst src delta = changing fun c f => c.pointerAdd f dst src delta := by
  unfold pointerAdd
  simp only [installPointer_eq, look_bind_changing, Anka64Core.pointerAdd]

/-- `lookup_pointer_local`, in place. -/
def lookupPointerLocal (dst : Register) (index : Nat) :
    InPlace System PointerMachineError Unit := do
  let _ ← look fun _ _ => pointerPairIndex dst
  let state ← look fun c f => c.frameCurrent f
  let frame ← look fun c _ =>
    okOr (state.active.head?.filter fun a => a.callDepth == c.returnStack.length) (.frame .control)
  let pointer ← look fun _ _ => okOr frame.locals[index]? (.frame .manifest)
  let _ ← look fun c f => f.scopedPointerBacking pointer c.domain
  installPointer dst (some pointer)

theorem lookupPointerLocal_eq (dst : Register) (index : Nat) :
    lookupPointerLocal dst index = changing fun c f => c.lookupPointerLocal f dst index := by
  unfold lookupPointerLocal
  simp only [installPointer_eq, look_bind_changing, Anka64Core.lookupPointerLocal]

/-- A pointer instruction in place, as the core and the Fabric it leaves. -/
def yielding (x : Anka64Core → Fabric → Res (PointerMachineError × Fabric)
    (Anka64Core × Fabric)) :
    InPlace System PointerMachineError Unit :=
  coreKept fun c f => x c f >>= fun r => ok ((), r.1, r.2)

/-- `map_err(PointerMachineError::Fabric)` on a call that may leave a fault in the Fabric. -/
def faulting (x : Anka64Core → InPlace Fabric FaultRecord α) :
    InPlace System PointerMachineError α :=
  onFabric fun c => (x c).mapFail .fabric

/-- `map_err(PointerMachineError::Heap)`. -/
def onHeap (x : Anka64Core → AllocationOwner → InPlace Fabric HeapError Unit) :
    InPlace System PointerMachineError Unit := do
  let owner ← look fun c _ => mapErr c.currentHeapOwner .heap
  onFabric fun c => (x c owner).mapFail .heap

/-- `pointer_load`, in place. -/
def pointerLoad (dst : Register) (address : Nat) : InPlace System PointerMachineError Unit := do
  let _ ← look fun _ _ => pointerPairIndex dst
  let request ← look fun c _ => c.pointerCellRequest address .read
  let pointer ← faulting fun _ => returning fun f => f.loadPointerCell request
  look fun c f => match pointer with
    | some pointer => c.checkApplicationPointer f pointer
    | none => ok ()
  installPointer dst pointer

theorem pointerLoad_eq (dst : Register) (address : Nat) :
    pointerLoad dst address = yielding fun c f => c.pointerLoad f dst address := by
  unfold pointerLoad faulting
  simp only [installPointer_eq, changing, onFabric_bind, look_bind]
  simp only [yielding, Anka64Core.pointerLoad, keeping, fabricError, mapFail, returning, bind_assoc]
  rfl

/-- `pointer_load_indirect`, in place. -/
def pointerLoadIndirect (dst base : Register) (displacement : Int) :
    InPlace System PointerMachineError Unit := do
  let pointer ← look fun c f => c.operandPointer f base
  let heap ← look fun _ f => ok (f.scopedPointers.isHeapPointer pointer)
  if heap = true then
    let _ ← look fun _ _ => pointerPairIndex dst
    let pointer ← look fun c f => c.addApplicationPointer f pointer displacement
    let owner ← look fun c _ => mapErr c.currentHeapOwner .heap
    let token ← look fun c f => mapErr (f.loadHeapPointerCell owner c.agent pointer) .heap
    installPointer dst token
  else
    let address ← look fun c f => c.pointerAddress f base displacement false
    pointerLoad dst address

theorem coreKept_ite (b : Bool)
    (x y : Anka64Core → Fabric → Res (ε × Fabric) (α × Anka64Core × Fabric)) :
    (if b = true then coreKept x else coreKept y) =
      coreKept fun c f => if b = true then x c f else y c f := by
  cases b <;> rfl

theorem bind_ite {δ : Type} (b : Bool) (x y : Res ε α) (f : α → Res ε δ) :
    ((if b = true then x else y) >>= f) = if b = true then x >>= f else y >>= f := by
  cases b <;> rfl

theorem pointerLoadIndirect_eq (dst base : Register) (displacement : Int) :
    pointerLoadIndirect dst base displacement =
      yielding fun c f => c.pointerLoadIndirect f dst base displacement := by
  unfold pointerLoadIndirect
  simp only [installPointer_eq, pointerLoad_eq, changing, yielding, look_bind, coreKept_ite]
  simp only [Anka64Core.pointerLoadIndirect, keeping, bind_assoc, pure_eq, ok_bind, mapErr_ok,
    bind_ite]

/-- `pointer_store_indirect`, in place. -/
def pointerStoreIndirect (src base : Register) (displacement : Int) :
    InPlace System PointerMachineError Unit := do
  let pointer ← look fun c f => c.operandPointer f base
  let heap ← look fun _ f => ok (f.scopedPointers.isHeapPointer pointer)
  if heap = true then
    let source ← look fun c f => c.authenticatedPointer f src
    let pointer ← look fun c f => c.addApplicationPointer f pointer displacement
    onHeap fun c owner => storeHeapPointerCell owner c.agent pointer source
  else
    let address ← look fun c f => c.pointerAddress f base displacement true
    onFabric fun c => assigning fun f => c.pointerStore f src address

/-- A pointer instruction that leaves the core as it is. -/
def storing (x : Anka64Core → Fabric → Res (PointerMachineError × Fabric) Fabric) :
    InPlace System PointerMachineError Unit :=
  coreKept fun c f => x c f >>= fun f => ok ((), c, f)

theorem onHeap_eq (x : Anka64Core → AllocationOwner → Fabric → Res HeapError Fabric) :
    (onHeap fun c owner => atomic fun f => x c owner f >>= fun f => ok ((), f)) =
      storing fun c f => keeping f (mapErr c.currentHeapOwner .heap) >>= fun owner =>
        keeping f (mapErr (x c owner f) .heap) := by
  unfold onHeap
  simp only [onFabric_eq_coreKept, look_bind, mapFail_atomic, atomic_apply, mapErr_bind, bind_assoc,
    mapErr_ok, ok_bind, storing, keeping]

theorem pointerStoreIndirect_eq (src base : Register) (displacement : Int) :
    pointerStoreIndirect src base displacement =
      storing fun c f => c.pointerStoreIndirect f src base displacement := by
  unfold pointerStoreIndirect
  simp only [storeHeapPointerCell_eq, onHeap_eq, onFabric_eq_coreKept, assigning, storing,
    look_bind, coreKept_ite, mapErr_ok, bind_assoc, ok_bind]
  simp only [Anka64Core.pointerStoreIndirect, keeping, bind_assoc, bind_ite]

/-- `pointer_write`, in place. -/
def pointerWrite (start : Register) (width : Width) (data : List UInt8) :
    InPlace System PointerMachineError Unit := do
  let pointer ← look fun c f => c.operandPointer f start
  let heap ← look fun _ f => ok (f.scopedPointers.isHeapPointer pointer)
  if heap = true then
    look fun _ _ => require (data.length = width.bytes) .missingKind
    onHeap fun c owner => writeHeapBytes owner c.agent pointer data
  else
    let address ← look fun c f =>
      mapErr (f.scopedPointers.resolve pointer c.domain.raw width.bytes true) .pointer
    let (object, offset) ← look fun c f => c.checkedBacking f pointer address width.bytes
    faulting fun c => assigning fun f =>
      f.executeWrite (c.makeRequest object offset width .write) data

theorem pointerWrite_eq (s : Register) (w : Width) (data : List UInt8) :
    pointerWrite s w data = storing fun c f => c.pointerWrite f s w data := by
  unfold pointerWrite faulting
  simp only [writeHeapBytes_eq, onHeap_eq, onFabric_eq_coreKept, assigning, storing, look_bind,
    coreKept_ite, mapFail, mapErr_bind, mapErr_ok, bind_assoc, ok_bind]
  simp only [Anka64Core.pointerWrite, keeping, fabricError, bind_assoc, bind_ite]

/-! ## Frames -/

/-- `self.pointer_frames.as_mut().unwrap()`. -/
def modifyFrames (g : FrameState → FrameState) : InPlace System ε Unit := do
  let state ← look fun c _ => unwrap c.pointerFrames
  modifyCore fun c => { c with pointerFrames := some (g state) }

/-- `enter_pointer_frame`, in place. -/
def enterPointerFrame (index : Nat) : InPlace System PointerMachineError Unit := do
  let state ← look fun c f => c.frameCurrent f
  let frame ← look fun _ _ => okOr state.program.frames[index]? (.frame .manifest)
  look fun c _ => require (state.pendingEntry = some c.pc ∧ c.pc = state.codeBase + frame.entry ∧
    (state.active.any fun a => a.callDepth == c.returnStack.length) = false) (.frame .control)
  look fun c f => c.checkStack f state frame
  let base ← look fun _ _ =>
    okOr ((checkedSub state.cursor frame.size).filter fun n => decide (state.stackLow ≤ n))
      (.frame .capacity)
  let offset ← look fun _ _ =>
    okOr (checkedAdd state.stackOffset (base - state.stackLow)) (.frame .geometry)
  let mapped ← look fun c _ => c.checkedPointerMapping base frame.size
  look fun _ _ => require (mapped = (state.stackObject, offset)) (.frame .geometry)
  let whole ← look fun c _ =>
    ok { c.makeRequest state.stackObject offset .byte .read with length := frame.size }
  let registrations ← look fun c _ => frame.locals.mapM (c.localRegistration state base offset)
  let (scope, locals) ← onFabric fun c => issuePointerFrame c.contextId whole base registrations
  let c ← look fun c _ => ok c
  let active : ActiveFrame :=
    { scope, manifest := index, callDepth := c.returnStack.length, parentCursor := state.cursor
      parentFp := c.r FP, returnLr := c.r LR, locals }
  modifyFrames fun state => { state with active := active :: state.active }
  modifyFrames fun state => { state with cursor := base }
  modifyFrames fun state => { state with pendingEntry := none }
  modifyCore fun c => c.writeRegister SP base
  modifyCore fun c => c.writeRegister FP base

theorem unwrap_some (a : α) : (unwrap (some a) : Res ε α) = ok a := rfl

theorem frameCurrent_frames {c : Anka64Core} {f : Fabric} {state : FrameState}
    (h : c.frameCurrent f = ok state) : c.pointerFrames = some state := by
  simp only [frameCurrent, eq_ok] at h
  obtain ⟨_, hs, -, _, _, -, _, -, _, -, -, rfl⟩ := h
  exact hs

theorem enterPointerFrame_eq (i : Nat) :
    enterPointerFrame i = yielding fun c f => keeping f (c.enterPointerFrame f i) := by
  unfold enterPointerFrame modifyFrames
  simp (disch := simp) only [modifyCore_eq_coreKept, look_bind, coreKept_bind, onFabric_bind,
    ok_bind, bind_assoc, issuePointerFrame_eq, mapErr_ok, unwrap_some, atomic_apply]
  unfold yielding
  congr 1
  funext c f
  simp only [Anka64Core.enterPointerFrame, keeping, mapErr_bind, bind_assoc, pure_eq, mapErr_ok,
    ok_bind]
  refine bind_congr fun state hs => ?_
  rw [frameCurrent_frames (mapErr_eq_ok.mp hs)]
  rfl

/-- `leave_pointer_frame`, in place. -/
def leavePointerFrame : InPlace System PointerMachineError Unit := do
  let state ← look fun c f => c.frameCurrent f
  let frame ← look fun _ _ => okOr state.active.head? (.frame .control)
  look fun c _ => require (frame.callDepth = c.returnStack.length) (.frame .control)
  let manifest ← look fun _ _ => unwrap state.program.frames[frame.manifest]?
  look fun c _ => require (c.pc - state.codeBase ∈ manifest.exits) (.frame .control)
  onFabric fun _ => retirePointerFrame frame.scope frame.locals
  modifyFrames fun state => { state with active := state.active.tail }
  modifyFrames fun state => { state with cursor := frame.parentCursor }
  modifyCore fun c => c.writeRegister SP frame.parentCursor
  modifyCore fun c => c.writeRegister FP frame.parentFp
  modifyCore fun c => c.writeRegister LR frame.returnLr

theorem leavePointerFrame_eq :
    leavePointerFrame = yielding fun c f => keeping f (c.leavePointerFrame f) := by
  unfold leavePointerFrame modifyFrames
  simp (disch := simp) only [modifyCore_eq_coreKept, look_bind, coreKept_bind, onFabric_bind,
    ok_bind, bind_assoc, retirePointerFrame_eq, mapErr_ok, mapErr_bind, unwrap_some, atomic_apply]
  unfold yielding
  congr 1
  funext c f
  simp only [Anka64Core.leavePointerFrame, keeping, mapErr_bind, bind_assoc]
  refine bind_congr fun state hs => ?_
  rw [frameCurrent_frames (mapErr_eq_ok.mp hs)]
  cases ha : state.active with
  | nil => rfl
  | cons fr rest =>
    simp only [head?_cons, okOr, mapErr_ok, ok_bind, unwrap_some, mapErr_bind, bind_assoc,
      pure_eq, ha, tail_cons]

/-! ## Events -/

/-- `event_return`: `None` is the error. -/
def eventReturn : InPlace System Unit Nat := do
  let header ← look fun c _ => okOr c.eventFrames.head? ()
  let saved ← look fun c _ => okOr c.savedEventContexts.head? ()
  look fun c _ => require (c.eventFrames.length = c.savedEventContexts.length ∧
    saved.contextId = c.contextId ∧ saved.domain = c.domain ∧ saved.header = header ∧
    c.protectedContextEnabled = saved.image.isSome) ()
  look fun c _ => require (c.inPointerFrame = false) ()
  modifyCore fun c => { c with savedEventContexts := c.savedEventContexts.tail }
  modifyCore fun c => { c with eventFrames := c.eventFrames.tail }
  modifyCore fun c => match saved.image with
    | some image => c.restoreImage image header.cause saved.scalarResults
    | none => c
  modifyCore fun c => { c with privilege := header.returnPrivilege }
  modifyCore fun c => { c with interruptsEnabled := header.interruptsWereEnabled }
  modifyCore fun c => { c with pc := header.returnPc }
  return header.returnPc

theorem eventReturn_eq : eventReturn = coreKept fun c f =>
    okOr (c.eventReturn) ((), f) >>= fun c' => ok (c'.pc, c', f) := by
  unfold eventReturn
  simp (disch := simp) only [modifyCore_eq_coreKept, pure_eq_coreKept, look_bind, coreKept_bind,
    ok_bind]
  congr 1
  funext c f
  unfold Anka64Core.eventReturn
  cases hfrs : c.eventFrames with
  | nil => rfl
  | cons header fr =>
    cases hs : c.savedEventContexts with
    | nil => rfl
    | cons s rest =>
      simp only [head?_cons, okOr, mapErr_ok, ok_bind, length_cons, Nat.add_right_cancel_iff,
        tail_cons]
      by_cases hv : fr.length = rest.length ∧ s.contextId = c.contextId ∧
          s.domain = c.domain ∧ s.header = header ∧
          c.protectedContextEnabled = s.image.isSome
      · by_cases hf : c.inPointerFrame = false
        · rw [if_pos ⟨hv.1, hv.2.1, hv.2.2.1, hv.2.2.2.1, hv.2.2.2.2, hf⟩]
          simp only [require, if_pos hv, if_pos hf]
          cases s.image <;> rfl
        · simp [require, hv, hf, mapErr]
      · rw [if_neg fun h => hv ⟨h.1, h.2.1, h.2.2.1, h.2.2.2.1, h.2.2.2.2.1⟩]
        simp only [require, if_neg hv]
        rfl

/-! ## The cycle -/

theorem mapErr_check (b : Prop) [Decidable b] (g : ε → ε') : mapErr (check b) g = check b := by
  unfold check
  split <;> rfl

theorem mapErr_wordOf (b : List UInt8) (n : Nat) (g : ε → ε') :
    mapErr (wordOf b n) g = wordOf b n := by
  simp only [wordOf, mapErr_bind, mapErr_check, pure_eq, mapErr_ok]

/-- The nine pointer instructions, before `pointer_fault`. -/
def pointerInsn (insn : DecodedInsn) : InPlace System PointerMachineError Unit := do
  let _ ← look fun c f => c.frameCurrent f
  match insn.desc.semantics with
  | .pointerMove => pointerMove insn.rd insn.rs1
  | .pointerAdd => do
    let delta ← look fun c _ => ok (asI64 (c.r insn.rs2))
    pointerAdd insn.rd insn.rs1 delta
  | .pointerLoad => pointerLoadIndirect insn.rd insn.rs1 insn.imm
  | .pointerStore => pointerStoreIndirect insn.rd insn.rs1 insn.imm
  | .pointerRead => do
    let bytes ← onFabric fun c => returning fun f => c.pointerRead f insn.rs1 (accessWidth insn.raw)
    look fun _ _ => check (bytes.length ≤ 8)
    modifyCore fun c => c.writeRegister insn.rd (ofLeBytes bytes)
  | .pointerWrite => do
    let width := accessWidth insn.raw
    let data ← look fun c _ => ok (leBytes width.bytes (c.r insn.rd))
    pointerWrite insn.rs1 width data
  | .pointerFrame => enterPointerFrame insn.imm.toNat
  | .pointerLocal => lookupPointerLocal insn.rd insn.imm.toNat
  | _ => leavePointerFrame

theorem pointerInsn_eq (insn : DecodedInsn) :
    pointerInsn insn = yielding fun c f => c.pointerInsn f insn := by
  unfold pointerInsn Anka64Core.pointerInsn
  cases insn.desc.semantics <;>
    simp only [pointerMove_eq, pointerAdd_eq, pointerLoadIndirect_eq, pointerStoreIndirect_eq,
      pointerWrite_eq, enterPointerFrame_eq, lookupPointerLocal_eq, leavePointerFrame_eq,
      modifyCore_eq_coreKept, changing, yielding, storing, look_bind, onFabric_bind, keeping,
      mapErr_ok, mapErr_check, bind_assoc, ok_bind, pure_eq]
  rfl

/-- The five instructions that name memory by integers. -/
def memoryInsn (insn : DecodedInsn) : InPlace System FaultRecord Unit := do
  let addr ← look fun c _ => ok (wrappingAdd (c.r insn.rs1) (asU64 insn.imm))
  match insn.desc.semantics with
  | .load => do
    let bytes ← onFabric fun c => returning fun f => c.fabricRead f addr .double .read
    let value ← look fun _ _ => wordOf bytes 8
    modifyCore fun c => c.writeRegister insn.rd value
  | .store =>
    onFabric fun c => assigning fun f => c.fabricWrite f addr .double (leBytes 8 (c.r insn.rd))
  | .loadByte => do
    let bytes ← onFabric fun c => returning fun f => do
      let request ← c.byteRequest f (c.r insn.rs1) insn.imm .read
      f.executeRead request
    let value ← look fun _ _ => wordOf bytes 1
    modifyCore fun c => c.writeRegister insn.rd value
  | .storeByte =>
    onFabric fun c => assigning fun f => do
      let request ← c.byteRequest f (c.r insn.rs1) insn.imm .write
      f.executeWrite request (leBytes 1 (c.r insn.rd))
  | _ => do
    let bytes ← onFabric fun c => returning fun f =>
      c.fabricAtomicXchg f addr .double (leBytes 8 (c.r insn.rd))
    let value ← look fun _ _ => wordOf bytes 8
    modifyCore fun c => c.writeRegister insn.rd value

theorem memoryInsn_eq (insn : DecodedInsn) :
    memoryInsn insn = coreKept fun c f => c.memoryInsn f insn >>= fun r => ok ((), r.1, r.2) := by
  unfold memoryInsn Anka64Core.memoryInsn
  cases insn.desc.semantics <;>
    simp only [modifyCore_eq_coreKept, look_bind, onFabric_bind, mapErr_ok, mapErr_wordOf,
      bind_assoc, ok_bind, pure_eq] <;>
    simp only [onFabric_eq_coreKept, look_bind, assigning, returning, mapErr_ok,
      bind_assoc, ok_bind]

/-- Fetch and decode. -/
def fetch : InPlace System FaultRecord DecodedInsn := do
  look fun c _ => require (c.pc % 4 = 0) (c.faultRecord ⟨0⟩ none c.pc .word .fetch .alignmentFault)
  let bytes ← onFabric fun c => returning fun f => c.fabricRead f c.pc .word .fetch
  let word ← look fun _ _ => wordOf bytes 4
  let insn := decode (BitVec.ofNat 32 word)
  look fun c _ => require (insn.isIllegal = false)
    (c.faultRecord ⟨0⟩ none c.pc .word .fetch .illegalInstruction)
  return insn

theorem mapErr_require (b : Prop) [Decidable b] (e : ε) (g : ε → ε') :
    mapErr (require b e) g = require b (g e) := by
  unfold require
  split <;> rfl

theorem mapErr_okOr (o : Option α) (e : ε) (g : ε → ε') : mapErr (okOr o e) g = okOr o (g e) := by
  cases o <;> rfl

theorem mapErr_plus (a b : Nat) (g : ε → ε') : mapErr (plus a b) g = plus a b := by
  unfold plus unwrap
  cases checkedAdd a b <;> rfl

theorem fetch_eq : fetch = onFabric fun c => returning fun f => c.fetch f := by
  rw [onFabric_eq_coreKept fun c => returning fun f => c.fetch f]
  unfold fetch
  simp only [pure_eq_coreKept, look_bind, onFabric_bind, mapErr_require, mapErr_wordOf]
  simp only [Anka64Core.fetch, returning, bind_assoc, pure_eq, ok_bind]

/-- CALL. -/
def callInsn (imm : Int) : InPlace System FaultRecord Nat := do
  look fun c _ => require (c.callsEntry imm = true) (c.pointerFault (.frame .control))
  let returnAddr ← look fun c _ => plus c.pc 4
  let resolved ← look fun c _ => AddressMap.resolve c.pc c.addressMap
  let (codeObject, _) ← look fun c _ => okOr resolved (c.controlFault ⟨0⟩)
  let obj ← look fun c f => okOr (f.objects.get codeObject) (c.controlFault codeObject)
  modifyCore fun c => c.writeRegister LR returnAddr
  modifyCore fun c => { c with returnStack :=
    { codeObject, generation := obj.generation, target := returnAddr } :: c.returnStack }
  let next ← look fun c _ => c.branchTarget imm
  modifyCore fun c => { c with pointerFrames := c.pointerFrames.map fun state =>
    { state with pendingEntry := some next } }
  return next

theorem mapErr_resolve (addr : Nat) (entries : List AddressMapEntry) (g : ε → ε') :
    mapErr (AddressMap.resolve addr entries) g = AddressMap.resolve addr entries := by
  induction entries with
  | nil => rfl
  | cons e rest ih =>
    unfold AddressMap.resolve
    split
    · rw [mapErr_bind, mapErr_plus]
      refine bind_congr fun stop _ => ?_
      split
      · rw [mapErr_bind, mapErr_plus]
        rfl
      · exact ih
    · exact ih

theorem branchTarget_ne_err {c : Anka64Core} {imm : Int} {e : ε} :
    (c.branchTarget imm : Res ε Nat) ≠ err e := by
  simp [branchTarget]

theorem mapErr_branchTarget (c : Anka64Core) (imm : Int) (g : ε → ε') :
    mapErr (c.branchTarget imm) g = c.branchTarget imm := by
  simp only [branchTarget, mapErr_bind, mapErr_check, pure_eq, mapErr_ok]

theorem callInsn_eq (imm : Int) : callInsn imm = coreKept fun c f =>
    c.callInsn f imm >>= fun r => ok (r.2, r.1, f) := by
  unfold callInsn
  simp (disch := simp [branchTarget_ne_err]) only [pure_eq_coreKept, modifyCore_eq_coreKept,
    coreKept_bind, look_bind, ok_bind, mapErr_require, mapErr_okOr, mapErr_plus, mapErr_resolve,
    mapErr_branchTarget]
  simp only [Anka64Core.callInsn, bind_assoc, pure_eq, ok_bind]

/-- RET. -/
def retInsn : InPlace System FaultRecord Nat := do
  look fun c _ => require ((c.pointerFrames.any fun s =>
    s.active.any fun a => a.callDepth == c.returnStack.length) = false)
    (c.pointerFault (.frame .control))
  let auth ← look fun c _ => okOr c.returnStack.head?
    (c.faultRecord ⟨0⟩ none (c.r LR) .word .fetch .controlFlowViolation)
  look fun c _ => require (c.r LR = auth.target) (c.returnFault auth)
  look fun c f => require (((f.objects.get auth.codeObject).any fun obj =>
    decide (obj.generation = auth.generation)) = true) (c.returnFault auth)
  modifyCore fun c => { c with returnStack := c.returnStack.tail }
  return auth.target

theorem retInsn_eq : retInsn = coreKept fun c f => c.retInsn f >>= fun r => ok (r.2, r.1, f) := by
  unfold retInsn
  simp (disch := simp) only [pure_eq_coreKept, modifyCore_eq_coreKept, coreKept_bind, look_bind,
    ok_bind, mapErr_require, mapErr_okOr]
  congr 1
  funext c f
  unfold Anka64Core.retInsn
  cases hr : c.returnStack with
  | nil => simp only [head?_nil, okOr, bind_assoc, err_bind]
  | cons auth rest =>
    simp only [head?_cons, okOr, bind_assoc, ok_bind, tail_cons, pure_eq]

/-- Dispatch on the meaning of an instruction: where it continues, or nowhere for HALT. A fault of a
pointer instruction goes through `pointer_fault`. -/
def dispatch (insn : DecodedInsn) (next : Nat) : InPlace System FaultRecord (Option Nat) :=
  match insn.desc.semantics with
  | .alu op => do
    let c ← look fun c _ => ok c
    let result := aluEval op (c.r insn.rs1) (c.operandB insn)
    modifyCore fun c => c.writeRegister insn.rd result
    modifyCore fun c' => { c' with
      flags := c'.flags.update insn.desc.flags (c.r insn.rs1) (c.operandB insn) result }
    return some next
  | .cmp => do
    modifyCore fun c => c.cmpInsn insn
    return some next
  | .mov => do
    modifyCore fun c => c.writeRegister insn.rd (c.r insn.rs1)
    return some next
  | .movi => do
    modifyCore fun c => c.writeRegister insn.rd (asU64 insn.imm)
    return some next
  | .lea => do
    modifyCore fun c => c.writeRegister insn.rd (wrappingAdd (c.r insn.rs1) (asU64 insn.imm))
    return some next
  | .load | .store | .loadByte | .storeByte | .xchg => do
    memoryInsn insn
    return some next
  | .branch => do
    let next ← look fun c _ =>
      if c.flags.test insn.cond = true then c.branchTarget insn.imm else ok next
    return some next
  | .call => do
    let next ← callInsn insn.imm
    return some next
  | .ret => do
    let next ← retInsn
    return some next
  | .trap => do
    modifyCore fun c => c.trapInsn next
    let next ← look fun c _ => ok c.trapVector
    return some next
  | .eret => do
    let fault ← look fun c _ => ok (c.controlFault ⟨0⟩)
    let next ← eventReturn.mapFail fun _ => fault
    return some next
  | .nop => return some next
  | .halt => do
    modifyCore fun c => { c with halted := true }
    return none
  | _ => do
    let c ← look fun c _ => ok c
    (pointerInsn insn).mapFail c.pointerFault
    return some next

/-- The end of a cycle: `self.pc = next_pc` and `Continue`, or `Halted`. -/
def conclude : Option Nat → InPlace System FaultRecord StepResult
  | some next => do
    modifyCore fun c => { c with pc := next }
    return .continue
  | none => return .halted

/-- The third part of `step`. -/
def execute (insn : DecodedInsn) : InPlace System FaultRecord StepResult := do
  let next ← look fun c _ => plus c.pc 4
  look fun c _ => require (¬ (c.pointerFrames.isSome = true ∧ insn.desc.semantics.isMemory = true))
    (c.pointerFault .contextMode)
  let next ← dispatch insn next
  conclude next

/-- What `conclude` makes of the core and the Fabric. -/
def concluded (next : Option Nat) (c : Anka64Core) (f : Fabric) :
    StepResult × Anka64Core × Fabric :=
  match next with
  | some next => (.continue, { c with pc := next }, f)
  | none => (.halted, c, f)

theorem conclude_eq (next : Option Nat) :
    conclude next = coreKept fun c f => ok (concluded next c f) := by
  cases next <;> rfl

theorem mapErr_if (b : Bool) (x y : Res ε α) (g : ε → ε') :
    mapErr (if b = true then x else y) g = if b = true then mapErr x g else mapErr y g := by
  cases b <;> rfl

theorem execute_eq (insn : DecodedInsn) : execute insn = coreKept fun c f => c.execute f insn := by
  unfold execute dispatch Anka64Core.execute
  cases hs : insn.desc.semantics <;>
    simp (disch := simp) only [memoryInsn_eq, callInsn_eq, retInsn_eq, eventReturn_eq,
      pointerInsn_eq, yielding, mapFail_coreKept, modifyCore_eq_coreKept, pure_eq_coreKept,
      conclude_eq, coreKept_bind, look_bind, mapErr_ok, mapErr_require, mapErr_plus, mapErr_if,
      mapErr_branchTarget, mapErr_bind, mapErr_okOr, bind_assoc, ok_bind, concluded,
        proceed, pure_eq]
  case alu | trap => rfl
  case branch => simp only [bind_ite, ok_bind]

/-- `step`, in place. -/
def step : InPlace System FaultRecord StepResult := do
  let halted ← look fun c _ => ok c.halted
  if halted = true then return .halted
  else
    let insn ← fetch
    execute insn

/-- **The connection with `Anka64Core.step`.** -/
theorem step_eq : step = coreKept fun c f => c.step f := by
  unfold step
  simp only [fetch_eq, execute_eq, onFabric_bind, pure_eq_coreKept, coreKept_ite, look_bind,
    mapErr_ok, ok_bind]
  rfl

end Mut

end Anka
