import Anka.Core.Effect

/-!
# The core: what an instruction does to control

The control state of a core is its privilege, the interrupt mask, the two event stacks and the
return stack. Registers, flags, pointer kinds and frames are not part of it.

* `execute_control`: CALL pushes the authority of its own address, RET pops one that is still valid,
  TRAP enters an event, ERET leaves one, and every other instruction leaves control as it was.
* `deliverPending_control` and `eventReturn_control` say the same of the two calls that move control
  without an instruction.
-/

namespace Anka

open Rust Res

/-- What CALL, RET, events and their returns move. A saved context keeps its header and, in a
protected context, the return stack it took aside. -/
structure Control where
  privilege : Privilege
  interruptsEnabled : Bool
  eventFrames : List EventFrame
  saved : List (EventFrame × Option (List ReturnAuthority))
  returnStack : List ReturnAuthority

/-- The control part of a saved context. -/
def SavedEventContext.control (saved : SavedEventContext) :
    EventFrame × Option (List ReturnAuthority) :=
  (saved.header, saved.image.map (·.returnStack))

namespace Control

/-- A new event; with `own` the return stack goes aside and the handler starts with an empty one. -/
def enter (k : Control) (own : Bool) (header : EventFrame) : Control :=
  { privilege := .supervisor
    interruptsEnabled := false
    eventFrames := header :: k.eventFrames
    saved := (header, if own = true then some k.returnStack else none) :: k.saved
    returnStack := if own = true then [] else k.returnStack }

/-- The top event is left: its header decides what is restored. -/
structure Leaves (k : Control) (own : Bool) (header : EventFrame) (k' : Control) : Prop where
  frames : k.eventFrames = header :: k'.eventFrames
  saved : ∃ returns, k.saved = (header, returns) :: k'.saved ∧ returns.isSome = own ∧
    k'.returnStack = returns.getD k.returnStack
  privilege : k'.privilege = header.returnPrivilege
  interrupts : k'.interruptsEnabled = header.interruptsWereEnabled

end Control

namespace Anka64Core

variable {c c' : Anka64Core} {f f' : Fabric}

/-- The control state of a core. -/
def control (c : Anka64Core) : Control :=
  { privilege := c.privilege, interruptsEnabled := c.interruptsEnabled
    eventFrames := c.eventFrames, saved := c.savedEventContexts.map (·.control)
    returnStack := c.returnStack }

/-- The header of an event that would resume at `resume`. -/
def headerAt (c : Anka64Core) (resume : Nat) (cause : EventCause) : EventFrame :=
  { returnPc := resume, returnPrivilege := c.privilege
    interruptsWereEnabled := c.interruptsEnabled, cause }

/-! ## Registers, frames and pointers -/

/-- A core with the control of `c`. -/
def Keeps (c c' : Anka64Core) : Prop := c'.control = c.control

/-- Registers, kinds and frames apart the core is `c`, and a protected context stays one. -/
def Rewrites (c c' : Anka64Core) : Prop :=
  ∃ words kinds frames enabled, (c.protectedContextEnabled = true → enabled = true) ∧
    c' = { c with
      r := words, pointerPairs := kinds, pointerFrames := frames
      protectedContextEnabled := enabled }

theorem Rewrites.keeps (h : c.Rewrites c') : c.Keeps c' := by
  obtain ⟨_, _, _, _, -, rfl⟩ := h
  rfl

theorem enableProtectedContext_rewrites : c.enableProtectedContext.Yields c.Rewrites :=
  yields_seq fun _ => yields_ok ⟨_, _, _, true, fun _ => rfl, rfl⟩

theorem installPointer_rewrites (s : Register) (p : Option ScopedPointer) :
    (c.installPointer s p).Yields c.Rewrites := by
  refine yields_seq fun _ => enableProtectedContext_rewrites.bind fun c1 hc1 => yields_ok ?_
  obtain ⟨_, _, _, _, hen, rfl⟩ := hc1
  exact ⟨_, _, _, _, hen, rfl⟩

theorem enterPointerFrame_rewrites (i : Nat) :
    (c.enterPointerFrame f i).Yields fun r => c.Rewrites r.1 := by
  unfold enterPointerFrame
  iterate 10 refine yields_seq fun _ => ?_
  exact yields_ok ⟨_, _, _, _, id, rfl⟩

theorem leavePointerFrame_rewrites : (c.leavePointerFrame f).Yields fun r => c.Rewrites r.1 := by
  unfold leavePointerFrame
  refine yields_seq fun state => ?_
  cases state.active with
  | nil => exact yields_err _
  | cons fr rest =>
    iterate 4 refine yields_seq fun _ => ?_
    exact yields_ok ⟨_, _, _, _, id, rfl⟩

theorem admitPointerProgram_rewrites (p : ValidatedPointerProgram) (co st s : Nat) :
    (c.admitPointerProgram f p co st s).Yields fun r => c.Rewrites r.1 := by
  unfold admitPointerProgram
  simp only
  iterate 11 refine yields_seq fun _ => ?_
  refine enableProtectedContext_rewrites.bind fun c1 hc1 => ?_
  obtain ⟨_, _, _, _, hen, rfl⟩ := hc1
  split
  · exact yields_ok ⟨_, _, _, _, hen, rfl⟩
  · exact yields_panic

/-! ## Events -/

@[simp] theorem enterEvent_control (header : EventFrame) :
    (c.enterEvent header).control = c.control.enter c.protectedContextEnabled header := by
  unfold enterEvent control Control.enter SavedEventContext.control
  cases c.protectedContextEnabled <;> simp

/-- One explicit result. -/
def writeResult (results : Fin 13 → Option Nat) (c : Anka64Core) (i : Fin 13) : Anka64Core :=
  match results i with
  | some value => c.writeRegister (i.castLE lanes_le) value
  | none => c

theorem writeResults_eq_foldl (re : Fin 13 → Option Nat) :
    c.writeResults re = (List.finRange 13).foldl (writeResult re) c := rfl

theorem foldl_writeResult_frame (re : Fin 13 → Option Nat) (l : List (Fin 13)) (c : Anka64Core) :
    ∃ w kinds, l.foldl (writeResult re) c = { c with r := w, pointerPairs := kinds } := by
  induction l generalizing c with
  | nil => exact ⟨c.r, c.pointerPairs, rfl⟩
  | cons i l ih =>
    obtain ⟨w, kinds, heq⟩ := ih (writeResult re c i)
    refine ⟨w, kinds, heq.trans ?_⟩
    unfold writeResult
    split <;> rfl

/-- **The inversion of a return.** The image of the top context comes back, its results over it. -/
theorem eventReturn_eq_some (h : c.eventReturn = some c') :
    ∃ header frames saved rest, c.eventFrames = header :: frames ∧
      c.savedEventContexts = saved :: rest ∧ saved.header = header ∧
      c.protectedContextEnabled = saved.image.isSome ∧
      c' = { (match saved.image with
        | some image => ({ c with savedEventContexts := rest, eventFrames := frames
            : Anka64Core }).restoreImage image header.cause saved.scalarResults
        | none => { c with savedEventContexts := rest, eventFrames := frames }) with
        privilege := header.returnPrivilege
        interruptsEnabled := header.interruptsWereEnabled
        pc := header.returnPc } := by
  unfold eventReturn at h
  split at h
  · rename_i header frames saved rest hf hs
    split at h
    · rename_i hv
      exact ⟨header, frames, saved, rest, hf, hs, hv.2.2.2.1, hv.2.2.2.2.1,
        (Option.some.inj h).symm⟩
    · cases h
  · cases h

theorem eventReturn_control (h : c.eventReturn = some c') :
    ∃ header, c.control.Leaves c.protectedContextEnabled header c'.control ∧
      c'.pc = header.returnPc := by
  obtain ⟨header, fr, s, rest, hf, hs, hh, hm, rfl⟩ := eventReturn_eq_some h
  refine ⟨header, ?_, rfl⟩
  have hs' : c.control.saved = (header, s.image.map (·.returnStack)) ::
      rest.map SavedEventContext.control := by
    simp [control, hs, SavedEventContext.control, hh]
  cases hi : s.image with
  | none =>
    rw [hi] at hm hs'
    exact ⟨hf, ⟨none, hs', hm.symm, rfl⟩, rfl, rfl⟩
  | some i =>
    rw [hi] at hm hs'
    simp only [restoreImage]
    split
    · -- the results are register writes
      rw [writeResults_eq_foldl]
      obtain ⟨w, k, heq⟩ := foldl_writeResult_frame s.scalarResults (List.finRange 13)
        { c with
          savedEventContexts := rest, eventFrames := fr, r := i.words
          pointerPairs := i.kinds, flags := i.flags, returnStack := i.returnStack
          pointerFrames := i.frames, halted := i.halted }
      rw [heq]
      exact ⟨hf, ⟨some i.returnStack, hs', hm.symm, rfl⟩, rfl, rfl⟩
    · exact ⟨hf, ⟨some i.returnStack, hs', hm.symm, rfl⟩, rfl, rfl⟩

theorem deliverPending_control :
    (c.deliverPending.1 = false ∧ c.deliverPending.2 = c) ∨
    (c.deliverPending.1 = true ∧ c.interruptsEnabled = true ∧
      ∃ cause, c.deliverPending.2.control =
        c.control.enter c.protectedContextEnabled (c.headerAt c.pc cause)) := by
  unfold deliverPending
  split
  · exact .inl ⟨rfl, rfl⟩
  · rename_i hm
    split
    · exact .inl ⟨rfl, rfl⟩
    · rename_i cause pending turn _
      refine .inr ⟨rfl, by simpa using hm, cause, ?_⟩
      exact @enterEvent_control { c with pending := pending, interruptTurn := turn }
        (c.headerAt c.pc cause)

/-! ## Calls and returns -/

variable {next : Nat} {r : StepResult}

/-- **The inversion of CALL.** -/
theorem callInsn_eq_ok {imm : Int} (h : c.callInsn f imm = ok (c', next)) :
    ∃ o off obj, (AddressMap.resolve c.pc c.addressMap :
        Res (FaultRecord × Fabric) _) = ok (some (o, off)) ∧
      f.objects.get o = some obj ∧ c.callsEntry imm = true ∧
      next = asU64 (asI64 c.pc + imm * 4) ∧
      c' = { c.writeRegister LR (c.pc + 4) with
        returnStack := ⟨o, obj.generation, c.pc + 4⟩ :: c.returnStack
        pointerFrames := c.pointerFrames.map fun state =>
          { state with pendingEntry := some next } } := by
  simp only [callInsn, branchTarget, eq_ok] at h
  obtain ⟨hen, _, ⟨-, rfl⟩, re, hr, o, off, rfl, obj, ho, next, ⟨-, rfl⟩, rfl, rfl⟩ := h
  exact ⟨o, off, obj, hr, ho, hen, rfl, rfl⟩

/-- **The inversion of RET.** -/
theorem retInsn_eq_ok (h : c.retInsn f = ok (c', next)) :
    ∃ auth rest, c.returnStack = auth :: rest ∧ next = auth.target ∧
      (∃ obj, f.objects.get auth.codeObject = some obj ∧ obj.generation = auth.generation) ∧
      (c.pointerFrames.any fun s =>
        s.active.any fun a => a.callDepth == c.returnStack.length) = false ∧
      c' = { c with returnStack := rest } := by
  simp only [retInsn, bind_eq_ok, require_eq_ok] at h
  obtain ⟨_, ha, h⟩ := h
  cases hs : c.returnStack with
  | nil => simp [hs] at h
  | cons auth rest =>
    simp only [hs, eq_ok] at h ha
    obtain ⟨_, hg, rfl, rfl⟩ := h
    obtain ⟨obj, ho, heq⟩ := (Option.any_eq_true _ _).mp hg
    exact ⟨auth, rest, rfl, rfl, ⟨obj, ho, of_decide_eq_true heq⟩, ha, rfl⟩

/-! ## The cycle -/

theorem step_eq_ok (h : c.step f = ok (r, c', f')) :
    (c.halted = true ∧ r = .halted ∧ c' = c ∧ f' = f) ∨
    (c.halted = false ∧ ∃ insn f1, c.fetch f = ok (insn, f1) ∧
      c.execute f1 insn = ok (r, c', f')) := by
  unfold step at h
  split at h
  · rename_i hh
    simp only [ok.injEq, Prod.mk.injEq] at h
    exact .inl ⟨hh, h.1.symm, h.2.1.symm, h.2.2.symm⟩
  · rename_i hh
    obtain ⟨⟨insn, f1⟩, hf, hex⟩ := bind_eq_ok.mp h
    exact .inr ⟨by simpa using hh, insn, f1, hf, hex⟩

/-- What an instruction that ends without a fault does to control. -/
def ControlEffect (c : Anka64Core) (f : Fabric) (c' : Anka64Core) : Sem → Prop
  | .call => ∃ object offset obj, (AddressMap.resolve c.pc c.addressMap :
        Res (FaultRecord × Fabric) _) = ok (some (object, offset)) ∧
      f.objects.get object = some obj ∧
      c'.control = { c.control with
        returnStack := ⟨object, obj.generation, c.pc + 4⟩ :: c.returnStack }
  | .ret => ∃ auth, c.returnStack = auth :: c'.returnStack ∧ c'.pc = auth.target ∧
      (∃ obj, f.objects.get auth.codeObject = some obj ∧ obj.generation = auth.generation) ∧
      c'.control = { c.control with returnStack := c'.returnStack }
  | .trap => c'.control = c.control.enter c.protectedContextEnabled (c.headerAt (c.pc + 4) .syscall)
  | .eret => ∃ header, c.control.Leaves c.protectedContextEnabled header c'.control ∧
      c'.pc = header.returnPc
  | _ => c.Keeps c'

theorem ControlEffect.of_keeps {sem : Sem} (hs : sem.movesControl = false) (h : c.Keeps c') :
    c.ControlEffect f c' sem := by
  cases sem
  case call | ret | trap | eret => cases hs
  all_goals exact h

theorem Effect.control {sem : Sem} (h : c.Effect f sem c' f') : c.ControlEffect f c' sem := by
  cases h with
  | scalar _ _ _ _ _ hs | quiet _ _ _ hs => exact .of_keeps hs rfl
  | installed _ s p c1 _ hs _ hi =>
    have hk := (installPointer_rewrites s p c1 hi).keeps
    exact .of_keeps hs hk
  | stored | halted => rfl
  | framed i c1 _ hf =>
    have hk := (enterPointerFrame_rewrites i _ hf).keeps
    exact hk
  | unframed c1 _ hf =>
    have hk := (leavePointerFrame_rewrites _ hf).keeps
    exact hk
  | called _ _ _ hc =>
    obtain ⟨o, off, obj, hrs, ho, -, -, rfl⟩ := callInsn_eq_ok hc
    exact ⟨o, off, obj, hrs, ho, rfl⟩
  | returned _ _ hre =>
    obtain ⟨auth, rest, hst, rfl, hg, -, rfl⟩ := retInsn_eq_ok hre
    exact ⟨auth, hst, rfl, hg, rfl⟩
  | trapped => exact enterEvent_control _
  | resumed _ hr => exact eventReturn_control hr

theorem execute_control {insn : DecodedInsn} (h : c.execute f insn = ok (r, c', f')) :
    c.ControlEffect f c' insn.desc.semantics :=
  (execute_effect h).control

end Anka64Core

end Anka
