import Anka.Core.Step

/-!
# The core: what an instruction does

`Effect` is the complete inversion of an instruction that ends without a fault: what becomes of the
core, which call it made on the Fabric, and for a pointer that gets into a register pair or into a
cell where it came from. `execute_effect` is the only place where the instructions are gone through
for it; the results about pointer kinds, frames and events are derived from its cases.
-/

namespace Anka

open Rust Res Fabric

/-- An access that stores no pointer and opens or closes nothing. -/
def FabricOp.Plain : FabricOp → Prop
  | .executeRead _ | .executeWrite _ _ | .loadPointerCell _ | .writeHeapBytes _ _ _ _ => True
  | .executeAtomicXchg request _ => request.kind = .atomic
  | _ => False

/-- What one plain access leaves, or no access at all. -/
def Fabric.Accesses (f f' : Fabric) : Prop := f' = f ∨ ∃ op, FabricOp.Plain op ∧ f.step op = some f'

/-- The call that stores a pointer, or null, into a cell. -/
inductive FabricOp.Stores (pointer : Option ScopedPointer) : FabricOp → Prop
  | cell (request : MemoryRequest) : Stores pointer (.storePointerCell request pointer)
  | heapCell (owner : AllocationOwner) (agent : AgentId) (destination : ScopedPointer) :
      Stores pointer (.storeHeapPointerCell owner agent destination pointer)
  | token (request : MemoryRequest) (owner : AllocationOwner) (p : ScopedPointer)
      (h : pointer = some p) : Stores pointer (.storeHeapTokenInLocal request owner p)

/-- The instructions that do more than write a register or memory and go on. -/
def Sem.movesControl : Sem → Bool
  | .call | .ret | .trap | .eret | .halt | .pointerFrame | .pointerUnframe => true
  | _ => false

variable {dst : Register} {width : Width}

namespace Anka64Core

variable {c c' : Anka64Core} {f f' : Fabric} {req : MemoryRequest} {bytes data : List UInt8}
  {insn : DecodedInsn}

/-- Where the pointer that an instruction puts into a register pair comes from. -/
inductive Obtains (c : Anka64Core) (f : Fabric) : Option ScopedPointer → Fabric → Prop
  | moved (src : Register) {pointer : Option ScopedPointer}
      (h : c.authenticatedPointer f src = ok pointer) : Obtains c f pointer f
  | displaced (src : Register) (delta : Int) {p q : ScopedPointer}
      (hp : c.operandPointer f src = ok p) (hq : c.addApplicationPointer f p delta = ok q) :
      Obtains c f (some q) f
  | loaded (request : MemoryRequest) {pointer : Option ScopedPointer} {f' : Fabric}
      (h : f.loadPointerCell request = ok (pointer, f'))
      (hlive : ∀ p, pointer = some p → c.checkApplicationPointer f' p = ok ()) :
      Obtains c f pointer f'
  | heapLoaded (owner : AllocationOwner) (cell : ScopedPointer) {pointer : Option ScopedPointer}
      (howner : c.currentHeapOwner = ok owner)
      (h : f.loadHeapPointerCell owner c.agent cell = ok pointer) : Obtains c f pointer f
  | frameLocal {state : FrameState} {frame : ActiveFrame} {index : Nat} {p : ScopedPointer}
      {backing : ObjectId × Nat} (hst : c.frameCurrent f = ok state)
      (hfr : state.active.head? = some frame) (hloc : frame.locals[index]? = some p)
      (hlive : f.scopedPointerBacking p c.domain = ok backing) : Obtains c f (some p) f

/-- What an instruction with this meaning does when it does not fault. -/
inductive Effect (c : Anka64Core) (f : Fabric) : Sem → Anka64Core → Fabric → Prop
  /-- An ordinary register write. -/
  | scalar (sem : Sem) (rd : Register) (value : Nat) (flags : Flags) (next : Nat) {f' : Fabric}
      (hsem : sem.movesControl = false) (hf : f.Accesses f') :
      Effect c f sem { c.writeRegister rd value with flags, pc := next } f'
  /-- No register is written. -/
  | quiet (sem : Sem) (flags : Flags) (next : Nat) {f' : Fabric} (hsem : sem.movesControl = false)
      (hf : f.Accesses f') : Effect c f sem { c with flags, pc := next } f'
  | installed (sem : Sem) (start : Register) (pointer : Option ScopedPointer) (c1 : Anka64Core)
      (next : Nat) {f' : Fabric} (hsem : sem.movesControl = false)
        (hsource : c.Obtains f pointer f')
      (h : c.installPointer start pointer = ok c1) : Effect c f sem { c1 with pc := next } f'
  | stored (src : Register) (pointer : Option ScopedPointer) (op : FabricOp) (next : Nat)
      {f' : Fabric} (hsource : c.authenticatedPointer f src = ok pointer)
      (hop : FabricOp.Stores pointer op) (hf : f.step op = some f') :
      Effect c f .pointerStore { c with pc := next } f'
  | framed (index : Nat) (c1 : Anka64Core) (next : Nat) {f' : Fabric}
      (h : c.enterPointerFrame f index = ok (c1, f')) :
      Effect c f .pointerFrame { c1 with pc := next } f'
  | unframed (c1 : Anka64Core) (next : Nat) {f' : Fabric}
      (h : c.leavePointerFrame f = ok (c1, f')) :
      Effect c f .pointerUnframe { c1 with pc := next } f'
  | called (imm : Int) (c1 : Anka64Core) (next : Nat) (h : c.callInsn f imm = ok (c1, next)) :
      Effect c f .call { c1 with pc := next } f
  | returned (c1 : Anka64Core) (next : Nat) (h : c.retInsn f = ok (c1, next)) :
      Effect c f .ret { c1 with pc := next } f
  | trapped : Effect c f .trap { c.trapInsn (c.pc + 4) with pc := c.trapVector } f
  | resumed (c1 : Anka64Core) (h : c.eventReturn = some c1) : Effect c f .eret c1 f
  | halted : Effect c f .halt { c with halted := true } f

theorem accesses_refl (f : Fabric) : f.Accesses f := .inl rfl

theorem accesses_read (h : f.executeRead req = ok (bytes, f')) : f.Accesses f' :=
  .inr ⟨.executeRead req, trivial, step_eq_some.mpr (.inl (by
    simp [run, left, h, mapErr]))⟩

theorem accesses_write (h : f.executeWrite req data = ok f') : f.Accesses f' :=
  .inr ⟨.executeWrite req data, trivial, step_eq_some.mpr (.inl (by
    simp [run, h, mapErr]))⟩

theorem accesses_xchg {old : List UInt8} (hk : req.kind = .atomic)
    (h : f.executeAtomicXchg req data = ok (old, f')) : f.Accesses f' :=
  .inr ⟨.executeAtomicXchg req data, hk, step_eq_some.mpr (.inl (by
    simp [run, left, h, mapErr]))⟩

theorem accesses_heapWrite {o : AllocationOwner} {ag : AgentId} {p : ScopedPointer}
    (h : f.writeHeapBytes o ag p data = ok f') : f.Accesses f' :=
  .inr ⟨.writeHeapBytes o ag p data, trivial, step_eq_some.mpr (.inl (by
    simp [run, orKeep, h, mapErr]))⟩

theorem accesses_fabricRead {addr : Nat} {kind : AccessKind}
    (h : c.fabricRead f addr width kind = ok (bytes, f')) : f.Accesses f' := by
  obtain ⟨req, -, h⟩ := bind_eq_ok.mp h
  exact accesses_read h

/-! ## Integer memory -/

theorem memoryInsn_effect {sem : Sem} (next : Nat) (hsem : sem.movesControl = false)
    (h : c.memoryInsn f insn = ok (c', f')) : c.Effect f sem { c' with pc := next } f' := by
  unfold memoryInsn at h
  simp only at h
  split at h
  · simp only [eq_ok] at h
    obtain ⟨bytes, f1, hr, v, -, rfl, rfl⟩ := h
    exact .scalar sem insn.rd v c.flags next hsem (accesses_fabricRead hr)
  · simp only [eq_ok] at h
    obtain ⟨f1, hw, rfl, rfl⟩ := h
    obtain ⟨req, -, hw⟩ := bind_eq_ok.mp hw
    exact .quiet sem c.flags next hsem (accesses_write hw)
  · simp only [eq_ok] at h
    obtain ⟨req, -, bytes, f1, hr, v, -, rfl, rfl⟩ := h
    exact .scalar sem insn.rd v c.flags next hsem (accesses_read hr)
  · simp only [eq_ok] at h
    obtain ⟨req, -, f1, hw, rfl, rfl⟩ := h
    exact .quiet sem c.flags next hsem (accesses_write hw)
  · simp only [eq_ok] at h
    obtain ⟨bytes, f1, hx, v, -, rfl, rfl⟩ := h
    obtain ⟨req, hre, hx⟩ := bind_eq_ok.mp hx
    simp only [resolveOrFault, eq_ok] at hre
    obtain ⟨_, -, _, _, -, rfl⟩ := hre
    exact .scalar sem insn.rd v c.flags next hsem (accesses_xchg rfl hx)

/-! ## Pointer instructions -/

variable {α : Type} {a : α} {address : Nat} {displacement : Int} {start : Register}

theorem keeping_eq_ok {x : Res PointerMachineError α} : keeping f x = ok a ↔ x = ok a :=
  mapErr_eq_ok

theorem fabricError_eq_ok {x : Res (FaultRecord × Fabric) α} :
    fabricError x = ok a ↔ x = ok a :=
  mapErr_eq_ok

theorem pointerLoad_obtains (h : c.pointerLoad f dst address = ok (c', f')) :
    ∃ po, c.Obtains f po f' ∧ c.installPointer dst po = ok c' := by
  simp only [pointerLoad, eq_ok, keeping_eq_ok, fabricError_eq_ok] at h
  obtain ⟨_, -, req, -, po, f1, hl, hlive, c1, hi, rfl, rfl⟩ := h
  refine ⟨po, .loaded req hl fun p hp => ?_, hi⟩
  subst hp
  exact hlive

theorem pointerLoadIndirect_obtains {base : Register}
    (h : c.pointerLoadIndirect f dst base displacement = ok (c', f')) :
    ∃ pointer, c.Obtains f pointer f' ∧ c.installPointer dst pointer = ok c' := by
  obtain ⟨p, -, h⟩ := bind_eq_ok.mp h
  split at h
  · simp only [eq_ok, keeping_eq_ok] at h
    obtain ⟨_, -, cell, -, o, howner, t, hl, c1, hi, rfl, rfl⟩ := h
    exact ⟨t, .heapLoaded o cell howner hl, hi⟩
  · obtain ⟨address, -, h⟩ := bind_eq_ok.mp h
    exact pointerLoad_obtains h

theorem pointerStore_effect {src : Register} (next : Nat)
    (h : c.pointerStore f src address = ok f') :
    c.Effect f .pointerStore { c with pc := next } f' := by
  simp only [pointerStore, bind_eq_ok, keeping_eq_ok] at h
  obtain ⟨ca, hc, req, -, h⟩ := h
  split at h
  · rename_i pointer hpo
    simp only [eq_ok, keeping_eq_ok, fabricError_eq_ok] at h
    obtain ⟨o, -, h⟩ := h
    refine .stored src ca _ next hc
      (.token req o pointer (Option.filter_eq_some_iff.mp hpo).1)
      (step_eq_some.mpr (.inl ?_))
    simp [run, h, mapErr]
  · refine .stored src ca _ next hc (.cell req)
      (step_eq_some.mpr (.inl ?_))
    simp [run, fabricError_eq_ok.mp h, mapErr]

theorem pointerStoreIndirect_effect {src base : Register} (next : Nat)
    (h : c.pointerStoreIndirect f src base displacement = ok f') :
    c.Effect f .pointerStore { c with pc := next } f' := by
  obtain ⟨p, -, h⟩ := bind_eq_ok.mp h
  split at h
  · simp only [eq_ok, keeping_eq_ok] at h
    obtain ⟨s, hsource, d, -, o, -, h⟩ := h
    refine .stored src s _ next hsource (.heapCell o c.agent d) (step_eq_some.mpr (.inl ?_))
    simp [run, orKeep, h, mapErr]
  · obtain ⟨address, -, h⟩ := bind_eq_ok.mp h
    exact pointerStore_effect next h

theorem pointerRead_accesses (h : c.pointerRead f start width = ok (bytes, f')) :
    f.Accesses f' := by
  obtain ⟨p, -, h⟩ := bind_eq_ok.mp h
  split at h
  · simp only [eq_ok] at h
    obtain ⟨_, -, _, -, -, rfl⟩ := h
    exact accesses_refl f
  · simp only [bind_eq_ok, Prod.exists, fabricError_eq_ok] at h
    obtain ⟨_, -, o, off, -, h⟩ := h
    exact accesses_read h

theorem pointerWrite_accesses (h : c.pointerWrite f start width data = ok f') : f.Accesses f' := by
  obtain ⟨p, -, h⟩ := bind_eq_ok.mp h
  split at h
  · simp only [eq_ok, keeping_eq_ok] at h
    obtain ⟨-, ow, -, h⟩ := h
    exact accesses_heapWrite h
  · simp only [bind_eq_ok, Prod.exists, fabricError_eq_ok] at h
    obtain ⟨_, -, o, off, -, h⟩ := h
    exact accesses_write h

theorem lookupPointerLocal_obtains {i : Nat} (h : c.lookupPointerLocal f dst i = ok c') :
    ∃ pointer, c.Obtains f pointer f ∧ c.installPointer dst pointer = ok c' := by
  simp only [lookupPointerLocal, eq_ok] at h
  obtain ⟨_, -, s, hst, fr, hfr, p, hloc, _, _, hlive, hi⟩ := h
  exact ⟨some p, .frameLocal hst (Option.filter_eq_some_iff.mp hfr).1 hloc hlive, hi⟩

theorem pointerInsn_effect (next : Nat)
    (hsem : insn.desc.semantics = .pointerMove ∨ insn.desc.semantics = .pointerAdd ∨
      insn.desc.semantics = .pointerLoad ∨ insn.desc.semantics = .pointerStore ∨
      insn.desc.semantics = .pointerRead ∨ insn.desc.semantics = .pointerWrite ∨
      insn.desc.semantics = .pointerFrame ∨ insn.desc.semantics = .pointerLocal ∨
      insn.desc.semantics = .pointerUnframe) (h : c.pointerInsn f insn = ok (c', f')) :
    c.Effect f insn.desc.semantics { c' with pc := next } f' := by
  unfold pointerInsn at h
  obtain ⟨_, -, h⟩ := bind_eq_ok.mp h
  rcases hsem with hs | hs | hs | hs | hs | hs | hs | hs | hs <;> rw [hs] at h ⊢ <;> simp only at h
  · simp only [eq_ok, keeping_eq_ok] at h
    obtain ⟨c1, hm, rfl, rfl⟩ := h
    simp only [pointerMove, bind_eq_ok] at hm
    obtain ⟨_, -, ca, hc, hi⟩ := hm
    exact .installed _ insn.rd ca c1 next rfl (.moved insn.rs1 hc) hi
  · simp only [eq_ok, keeping_eq_ok] at h
    obtain ⟨c1, ha, rfl, rfl⟩ := h
    simp only [pointerAdd, bind_eq_ok] at ha
    obtain ⟨_, -, p, hp, q, hq, hi⟩ := ha
    exact .installed _ insn.rd _ c1 next rfl (.displaced insn.rs1 _ hp hq) hi
  · obtain ⟨po, hsource, hi⟩ := pointerLoadIndirect_obtains h
    exact .installed _ insn.rd po c' next rfl hsource hi
  · simp only [eq_ok] at h
    obtain ⟨f1, hsto, rfl, rfl⟩ := h
    exact pointerStoreIndirect_effect next hsto
  · simp only [eq_ok] at h
    obtain ⟨bytes, f1, hr, -, rfl, rfl⟩ := h
    exact .scalar _ insn.rd _ c.flags next rfl (pointerRead_accesses hr)
  · simp only [eq_ok] at h
    obtain ⟨f1, hw, rfl, rfl⟩ := h
    exact .quiet _ c.flags next rfl (pointerWrite_accesses hw)
  · exact .framed _ c' next (keeping_eq_ok.mp h)
  · simp only [eq_ok, keeping_eq_ok] at h
    obtain ⟨c1, hloc, rfl, rfl⟩ := h
    obtain ⟨po, hsource, hi⟩ := lookupPointerLocal_obtains hloc
    exact .installed _ insn.rd po c1 next rfl hsource hi
  · exact .unframed c' next (keeping_eq_ok.mp h)

/-! ## The cycle -/

/-- **The inversion of an instruction.** -/
theorem execute_effect {r : StepResult} (h : c.execute f insn = ok (r, c', f')) :
    c.Effect f insn.desc.semantics c' f' := by
  simp only [execute, eq_ok] at h
  obtain ⟨next, ⟨_, rfl⟩, _, h⟩ := h
  cases hsem : insn.desc.semantics <;> simp only [hsem, proceed] at h
  case load | store | loadByte | storeByte | xchg =>
    obtain ⟨⟨c1, f1⟩, hm, h⟩ := bind_eq_ok.mp h
    simp only [ok.injEq, Prod.mk.injEq] at h
    obtain ⟨-, rfl, rfl⟩ := h
    exact memoryInsn_effect _ rfl hm
  case call =>
    obtain ⟨⟨c1, next⟩, hc, h⟩ := bind_eq_ok.mp h
    simp only [ok.injEq, Prod.mk.injEq] at h
    obtain ⟨-, rfl, rfl⟩ := h
    exact .called insn.imm c1 next hc
  case ret =>
    obtain ⟨⟨c1, next⟩, hre, h⟩ := bind_eq_ok.mp h
    simp only [ok.injEq, Prod.mk.injEq] at h
    obtain ⟨-, rfl, rfl⟩ := h
    exact .returned c1 next hre
  case trap =>
    simp only [ok.injEq, Prod.mk.injEq] at h
    obtain ⟨-, rfl, rfl⟩ := h
    exact .trapped
  case eret =>
    obtain ⟨c1, hr, h⟩ := bind_eq_ok.mp h
    simp only [ok.injEq, Prod.mk.injEq] at h
    obtain ⟨-, rfl, rfl⟩ := h
    exact .resumed c1 (okOr_eq_ok.mp hr)
  case branch =>
    split at h <;> obtain ⟨next, _, h⟩ := bind_eq_ok.mp h <;>
      simp only [ok.injEq, Prod.mk.injEq] at h <;> obtain ⟨-, rfl, rfl⟩ := h <;>
      exact .quiet _ c.flags next rfl (accesses_refl f)
  case alu op =>
    simp only [ok.injEq, Prod.mk.injEq] at h
    obtain ⟨-, rfl, rfl⟩ := h
    exact .scalar _ insn.rd _ _ (c.pc + 4) rfl (accesses_refl f)
  case cmp =>
    simp only [ok.injEq, Prod.mk.injEq] at h
    obtain ⟨-, rfl, rfl⟩ := h
    exact .quiet _ _ (c.pc + 4) rfl (accesses_refl f)
  case mov | movi | lea =>
    simp only [ok.injEq, Prod.mk.injEq] at h
    obtain ⟨-, rfl, rfl⟩ := h
    exact .scalar _ insn.rd _ c.flags (c.pc + 4) rfl (accesses_refl f)
  case nop =>
    simp only [ok.injEq, Prod.mk.injEq] at h
    obtain ⟨-, rfl, rfl⟩ := h
    exact .quiet _ c.flags (c.pc + 4) rfl (accesses_refl f)
  case halt =>
    simp only [eq_ok] at h
    obtain ⟨-, rfl, rfl⟩ := h
    exact .halted
  all_goals
    obtain ⟨⟨c1, f1⟩, hpo, h⟩ := bind_eq_ok.mp h
    simp only [ok.injEq, Prod.mk.injEq] at h
    obtain ⟨-, rfl, rfl⟩ := h
    rw [← hsem]
    exact pointerInsn_effect _ (by simp [hsem]) (mapErr_eq_ok.mp hpo)

end Anka64Core

end Anka
