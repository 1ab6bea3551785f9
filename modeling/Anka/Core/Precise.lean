import Anka.Core.Mutation
import Anka.Core.Returns
import Anka.Fabric.Phases

/-!
# The core: faults are precise

A fault leaves the core as it was, and in the Fabric no more than rows of the two logs: a byte, a
cell, a scope or a heap lifetime that an instruction was about to change is not changed.

The connection between the cycle in place and `Anka64Core.step` (`Mut.step_eq`) says the first half.
For the second, `OnlyLogs` says what a transaction may leave behind; the rules of `Raises` carry it
through the instructions.
-/

namespace Anka

open Rust Res Raises

variable {idx : Nat}

namespace Fabric

variable {f f' f'' : Fabric} {ε α : Type} {req : MemoryRequest}

theorem OnlyLogs.refl (f : Fabric) : OnlyLogs f f :=
  ⟨rfl, List.prefix_rfl, List.prefix_rfl⟩

theorem OnlyLogs.trans (h : OnlyLogs f f') (h' : OnlyLogs f' f'') : OnlyLogs f f'' where
  logged := by
    have hf := h.logged
    have hf' := h'.logged
    unfold Logged at hf hf' ⊢
    rw [hf', hf]
  transactions := h.transactions.trans h'.transactions
  faults := h.faults.trans h'.faults

/-- A call whose errors leave only logs behind. -/
abbrev Precise (f : Fabric) (x : Res (ε × Fabric) α) : Prop := x.Raises fun e => OnlyLogs f e.2

/-! ## What a whole transaction leaves -/

variable {data : Option (List UInt8)} {e : ε}

theorem executeRead_raises (req : MemoryRequest) : Precise f (f.executeRead req) := by
  rintro ⟨r, f'⟩ h
  simp only [executeRead, bind_eq_err, runToCommit_ne_err, false_or, Prod.exists, unwrap_ne_err,
    pure_eq, reduceCtorEq, and_false, exists_false, or_false] at h
  obtain ⟨idx, g, hr, hs⟩ := h
  exact settled_eq_err hr hs

theorem executeWrite_raises (req : MemoryRequest) (data : List UInt8) :
    Precise f (f.executeWrite req data) := fun _ => executeWrite_eq_err

theorem executeAtomicXchg_raises (req : MemoryRequest) (data : List UInt8) :
    Precise f (f.executeAtomicXchg req data) := fun _ h => (executeAtomicXchg_logged h).1

/-! ## Pointer cells -/

theorem raises_kept {ε' : Type} {x : Res ε α} {g : ε → ε'} :
    Precise f (mapErr x fun e => (g e, f)) :=
  raises_mapErr fun _ _ => OnlyLogs.refl f

theorem require_raises {c : Prop} [Decidable c] : Precise f (require c (e, f)) := by
  intro e' h
  obtain ⟨-, rfl⟩ := require_eq_err.mp h
  exact OnlyLogs.refl f

theorem okOr_raises {o : Option α} : Precise f (okOr o (e, f)) := by
  intro e' h
  obtain ⟨-, rfl⟩ := okOr_eq_err.mp h
  exact OnlyLogs.refl f

theorem storePointerCell_raises (req : MemoryRequest) (p : Option ScopedPointer) :
    Precise f (f.storePointerCell req p) := by
  refine raises_kept.bind fun _ _ => raises_kept.bind fun key _ => ?_
  refine (executeWrite_raises req _).bind fun g _ => raises_of_ne_err fun e => ?_
  cases p <;> nofun

theorem storeHeapTokenInLocal_raises (req : MemoryRequest) (o : AllocationOwner)
    (p : ScopedPointer) : Precise f (f.storeHeapTokenInLocal req o p) := by
  refine require_raises.bind fun _ _ => raises_kept.bind fun _ _ => raises_kept.bind fun key _ => ?_
  exact (executeWrite_raises req _).bind fun g _ => raises_of_ne_err (by simp)

theorem loadPointerCell_raises (req : MemoryRequest) :
    Precise f (f.loadPointerCell req) := by
  refine raises_kept.bind fun key _ => (executeRead_raises req).bind fun r hr => ?_
  refine bind ?_ fun _ _ => raises_of_ne_err (by simp)
  exact okOr_raises.mono fun e he => (executeRead_eq_ok hr).1.trans he

theorem loadPointerCell_logs {p : Option ScopedPointer}
    (h : f.loadPointerCell req = ok (p, f')) : OnlyLogs f f' := by
  simp only [loadPointerCell, eq_ok] at h
  obtain ⟨_, -, b, g, hr, _, -, -, rfl⟩ := h
  exact (executeRead_eq_ok hr).1

end Fabric

/-! ## Instructions -/

namespace Anka64Core

open Fabric

variable {c : Anka64Core} {f f' : Fabric} {ε α : Type}

theorem keeping_raises {x : Res PointerMachineError α} : Precise f (keeping f x) :=
  raises_kept

theorem fabricError_raises {x : Res (FaultRecord × Fabric) α}
    (h : Precise f x) : Precise f (fabricError x) :=
  raises_mapErr h

theorem resolveOrFault_raises (addr : Nat) (w : Width) (kind : AccessKind) :
    Precise f (c.resolveOrFault f addr w kind) := by
  refine bind (raises_of_ne_err fun e => ?_) fun _ _ => ?_
  · rw [← Mut.mapErr_resolve (ε := Empty) _ _ Empty.elim]
    simp
  · exact okOr_raises.bind fun _ _ => raises_of_ne_err (by simp)

theorem fabricRead_raises (addr : Nat) (w : Width) (kind : AccessKind) :
    Precise f (c.fabricRead f addr w kind) :=
  (resolveOrFault_raises addr w kind).bind fun req _ => executeRead_raises req

theorem fabricRead_logs {addr : Nat} {w : Width} {kind : AccessKind} {b : List UInt8}
    (h : c.fabricRead f addr w kind = ok (b, f')) : OnlyLogs f f' := by
  obtain ⟨req, -, hr⟩ := bind_eq_ok.mp h
  exact (executeRead_eq_ok hr).1

theorem byteRequest_raises (base : Nat) (d : Int) (kind : AccessKind) :
    Precise f (c.byteRequest f base d kind) :=
  okOr_raises.bind fun _ _ => raises_of_ne_err (by simp)

theorem wordOf_raises {P : ε → Prop} (b : List UInt8) (n : Nat) :
    (wordOf b n : Res ε Nat).Raises P :=
  raises_of_ne_err (by simp [wordOf])

theorem memoryInsn_raises (insn : DecodedInsn) : Precise f (c.memoryInsn f insn) := by
  have hl : ∀ (bytes : List UInt8) (n : Nat) (g : Fabric),
      Precise f (wordOf bytes n >>= fun value => pure (c.writeRegister insn.rd value, g) :
        Res (FaultRecord × Fabric) _) := fun bytes n g =>
    (wordOf_raises bytes n).bind fun _ _ => raises_of_ne_err (by simp)
  unfold memoryInsn
  simp only
  split
  · exact (fabricRead_raises _ _ _).bind fun r _ => hl r.1 8 r.2
  · refine bind ?_ fun _ _ => raises_of_ne_err (by simp)
    exact (resolveOrFault_raises _ _ _).bind fun req _ => executeWrite_raises req _
  · refine (byteRequest_raises _ _ _).bind fun req _ => ?_
    exact (executeRead_raises req).bind fun r _ => hl r.1 1 r.2
  · refine (byteRequest_raises _ _ _).bind fun req _ => ?_
    exact (executeWrite_raises req _).bind fun _ _ => raises_of_ne_err (by simp)
  · refine bind ?_ fun r _ => hl r.1 8 r.2
    exact (resolveOrFault_raises _ _ _).bind fun req _ => executeAtomicXchg_raises req _

theorem pointerLoad_raises (dst : Register) (ad : Nat) : Precise f (c.pointerLoad f dst ad) := by
  refine keeping_raises.bind fun _ _ => keeping_raises.bind fun req _ => ?_
  refine (fabricError_raises (loadPointerCell_raises req)).bind fun r hr => ?_
  have hl : OnlyLogs f r.2 := loadPointerCell_logs (mapErr_eq_ok.mp hr)
  refine bind (keeping_raises.mono fun _ he => hl.trans he) fun _ _ => ?_
  refine bind (keeping_raises.mono fun _ he => hl.trans he) fun _ _ => ?_
  exact raises_of_ne_err (by simp)

theorem pointerLoadIndirect_raises (dst base : Register) (d : Int) :
    Precise f (c.pointerLoadIndirect f dst base d) := by
  refine keeping_raises.bind fun pointer _ => ?_
  split
  · iterate 5 refine keeping_raises.bind fun _ _ => ?_
    exact raises_of_ne_err (by simp)
  · exact keeping_raises.bind fun _ _ => pointerLoad_raises dst _

theorem pointerStore_raises (src : Register) (ad : Nat) : Precise f (c.pointerStore f src ad) := by
  refine keeping_raises.bind fun captured _ => keeping_raises.bind fun req _ => ?_
  split
  · exact keeping_raises.bind fun _ _ =>
      fabricError_raises (storeHeapTokenInLocal_raises req _ _)
  · exact fabricError_raises (storePointerCell_raises req captured)

theorem pointerStoreIndirect_raises (src base : Register) (d : Int) :
    Precise f (c.pointerStoreIndirect f src base d) := by
  refine keeping_raises.bind fun pointer _ => ?_
  split
  · iterate 3 refine keeping_raises.bind fun _ _ => ?_
    exact keeping_raises
  · exact keeping_raises.bind fun _ _ => pointerStore_raises src _

theorem pointerRead_raises (s : Register) (w : Width) : Precise f (c.pointerRead f s w) := by
  refine keeping_raises.bind fun pointer _ => ?_
  split
  · refine keeping_raises.bind fun _ _ => keeping_raises.bind fun _ _ => ?_
    exact raises_of_ne_err (by simp)
  · refine keeping_raises.bind fun _ _ => keeping_raises.bind fun _ _ => ?_
    exact fabricError_raises (executeRead_raises _)

theorem pointerWrite_raises (s : Register) (w : Width) (data : List UInt8) :
    Precise f (c.pointerWrite f s w data) := by
  refine keeping_raises.bind fun pointer _ => ?_
  split
  · exact keeping_raises.bind fun _ _ => keeping_raises.bind fun _ _ => keeping_raises
  · refine keeping_raises.bind fun _ _ => keeping_raises.bind fun _ _ => ?_
    exact fabricError_raises (executeWrite_raises _ _)

theorem pointerInsn_raises (insn : DecodedInsn) : Precise f (c.pointerInsn f insn) := by
  unfold pointerInsn
  refine keeping_raises.bind fun _ _ => ?_
  split
  · exact keeping_raises.bind fun _ _ => raises_of_ne_err (by simp)
  · exact keeping_raises.bind fun _ _ => raises_of_ne_err (by simp)
  · exact pointerLoadIndirect_raises _ _ _
  · exact (pointerStoreIndirect_raises _ _ _).bind fun _ _ => raises_of_ne_err (by simp)
  · exact (pointerRead_raises _ _).bind fun _ _ => raises_of_ne_err (by simp)
  · exact (pointerWrite_raises _ _ _).bind fun _ _ => raises_of_ne_err (by simp)
  · exact keeping_raises
  · exact keeping_raises.bind fun _ _ => raises_of_ne_err (by simp)
  · exact keeping_raises

theorem callInsn_raises (imm : Int) : Precise f (c.callInsn f imm) := by
  refine require_raises.bind fun _ _ => bind (raises_of_ne_err (by simp [plus])) fun _ _ => ?_
  refine bind (raises_of_ne_err fun e => ?_) fun resolved _ => ?_
  · rw [← Mut.mapErr_resolve (ε := Empty) _ _ Empty.elim]
    simp
  · refine okOr_raises.bind fun _ _ => okOr_raises.bind fun _ _ => ?_
    exact raises_of_ne_err (by simp [Mut.branchTarget_ne_err])

theorem retInsn_raises : Precise f (c.retInsn f) := by
  refine require_raises.bind fun _ _ => ?_
  split
  · exact raises_err (OnlyLogs.refl f)
  · refine require_raises.bind fun _ _ => require_raises.bind fun _ _ => ?_
    exact raises_of_ne_err (by simp)

theorem execute_raises (insn : DecodedInsn) : Precise f (c.execute f insn) := by
  have hp : ∀ (c : Anka64Core) (f' : Fabric) (next : Nat),
      Precise f (proceed c f' next : Res (FaultRecord × Fabric) _) :=
    fun _ _ _ => raises_of_ne_err (by simp [proceed])
  unfold execute
  refine bind (raises_of_ne_err (by simp [plus])) fun next _ => ?_
  refine require_raises.bind fun _ _ => ?_
  cases insn.desc.semantics
  case load | store | loadByte | storeByte | xchg =>
    exact (memoryInsn_raises insn).bind fun _ _ => hp _ _ _
  case branch =>
    simp only
    split
    · exact bind (raises_of_ne_err (by simp [Mut.branchTarget_ne_err])) fun _ _ => hp _ _ _
    · exact hp _ _ _
  case call => exact (callInsn_raises insn.imm).bind fun _ _ => hp _ _ _
  case ret => exact retInsn_raises.bind fun _ _ => hp _ _ _
  case eret => exact okOr_raises.bind fun _ _ => hp _ _ _
  case alu | cmp | mov | movi | lea | trap | nop => exact hp _ _ _
  case halt => exact raises_of_ne_err (by simp)
  all_goals
    refine bind (raises_mapErr ?_) fun _ _ => hp _ _ _
    exact pointerInsn_raises insn

theorem fetch_raises : Precise f (c.fetch f) := by
  refine require_raises.bind fun _ _ => (fabricRead_raises _ _ _).bind fun r hr => ?_
  refine (wordOf_raises _ _).bind fun _ _ => ?_
  refine bind (require_raises.mono fun e he => (fabricRead_logs hr).trans he) fun _ _ => ?_
  exact raises_of_ne_err (by simp)

theorem fetch_logs {insn : DecodedInsn} (h : c.fetch f = ok (insn, f')) : OnlyLogs f f' := by
  simp only [fetch, eq_ok] at h
  obtain ⟨-, b, g, hr, _, -, -, -, rfl⟩ := h
  exact fabricRead_logs hr

theorem step_raises : Precise f (c.step f) := by
  unfold step
  split
  · exact raises_of_ne_err (by simp)
  · exact fetch_raises.bind fun r hr =>
      (execute_raises r.1).mono fun _ he => (fetch_logs hr).trans he

end Anka64Core

/-- **Faults are precise.** For every core, Fabric and memory, an instruction cycle that ends in a
fault leaves the whole core as it was. In the Fabric the transaction log and the fault log may have
grown, with the transaction counter; memory, pointer cells and heap tags, scopes, locals and heap
lifetimes and everything else are as they were. -/
theorem fault_precise {s s' : System} {fault : FaultRecord} (h : Mut.step s = err (fault, s')) :
    s'.core = s.core ∧ s.fabric.OnlyLogs s'.fabric := by
  rw [Mut.step_eq] at h
  unfold Mut.coreKept at h
  split at h
  · cases h
  · rename_i e fabric hs
    cases h
    exact ⟨rfl, Anka64Core.step_raises _ hs⟩
  · cases h

/-- A sealed code object whose first instruction stores into the object itself. -/
def storeIntoCode : List FabricOp :=
  [.createDomain, .registerAgent ⟨0⟩ (.cpu ⟨0⟩) ⟨0⟩, .allocObject "text" 16 .memory,
    .placeObject ⟨0⟩ 0, .initializeObject ⟨0⟩ 0 [0, 0, 0x04, 0x84], .sealObject ⟨0⟩,
    .grant ⟨0⟩ ⟨0⟩ 0 16 ⟨0x05⟩]

/-- The cycle ends in a fault that left a row in both logs. -/
def faultsInLog (s : System) : Bool :=
  match Mut.step s with
  | err (_, s') => decide (s.fabric.transactions.length + 2 = s'.fabric.transactions.length) &&
      decide (s.fabric.faultLog.length + 1 = s'.fabric.faultLog.length)
  | _ => false

/-- The store is fetched, faults for want of WRITE, and has changed the logs only. -/
theorem fault_precise_store : ∃ (s s' : System) (fault : FaultRecord),
    Mut.step s = err (fault, s') ∧
    s.fabric.transactions.length + 2 = s'.fabric.transactions.length ∧
    s'.core = s.core ∧ s.fabric.OnlyLogs s'.fabric := by
  have hr : Fabric.leadsTo 16 storeIntoCode (fun f =>
        faultsInLog ⟨Observed.userCore 0, f⟩) = true := by
    decide +kernel
  obtain ⟨_, -, h⟩ := isOkAnd_eq_true.mp hr
  obtain ⟨f, -, h⟩ := (Option.any_eq_true _ _).mp h
  unfold faultsInLog at h
  split at h
  · rename_i fault s' hs
    rw [Bool.and_eq_true, decide_eq_true_eq] at h
    exact ⟨_, s', fault, hs, h.1, fault_precise hs⟩
  · cases h

end Anka
