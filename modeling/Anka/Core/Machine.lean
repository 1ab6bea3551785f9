import Anka.Core.Control

/-!
# The core as a state machine

A `System` is one core and the Fabric it runs on. `CoreOp` is one call: an instruction cycle, the
interrupt calls, the calls of the kernel on a core it hosts, or any call on the Fabric, which stands
for the kernel, the devices and the other cores. A fault of an instruction keeps the core and the
Fabric it left; a refused call changes nothing; a panic has no successor state.

An `Observed` system carries a trace of its run that the core does not see: for each call context
the CALLs that have not been returned from, and the address at which each open event resumes. The
trace is written from the instruction that was fetched and from the answers of the calls, never
from the stacks of the core. The parameter `own` says whether an event opens a call context of its
own.

`run_moves` says what every call does to the control state under what was observed of it; the
invariants of the modules after this one are derived from it alone.
-/

namespace Anka

open Rust Res Option Anka64Core

/-- A core and the Fabric it runs on. -/
structure System where
  core : Anka64Core
  fabric : Fabric

/-- One call on a core, or on the Fabric around it. -/
inductive CoreOp where
  | step
  | deliverPending
  | postTimerInterrupt
  | postDeviceInterrupt
  | eventReturn
  /-- The kernel parks a core that entered it, and resumes it after the return. -/
  | setHalted (halted : Bool)
  | writeSyscallResult (register : Register) (value : Nat)
  | enableProtectedContext
  | admitPointerProgram (program : ValidatedPointerProgram) (codeBase stackLow stackHigh : Nat)
  | retireAllPointerFrames
  | bindHeapProcess (key : ProcessKey)
  | commitHeapEvent (permit : HeapEventPermit) (pointer : Option ScopedPointer) (status : Nat)
      (malloc : Bool)
  | fabric (op : FabricOp)

namespace System

/-- A call on the core that may be refused. -/
def tryCore {ε : Type} (s : System) (x : Res ε (Anka64Core × Fabric)) : Option System :=
  match x with
  | ok (core, fabric) => some { core, fabric }
  | err _ => some s
  | .panic => none

/-- The system a call leaves. -/
def run (s : System) : CoreOp → Option System
  | .step =>
    match s.core.step s.fabric with
    | ok (_, core, fabric) => some { core, fabric }
    | err (_, fabric) => some { s with fabric }
    | .panic => none
  | .deliverPending => some { s with core := s.core.deliverPending.2 }
  | .postTimerInterrupt => some { s with core := s.core.postTimerInterrupt }
  | .postDeviceInterrupt => some { s with core := s.core.postDeviceInterrupt }
  | .eventReturn => some { s with core := s.core.eventReturn.getD s.core }
  | .setHalted halted => some { s with core := { s.core with halted } }
  | .writeSyscallResult register value =>
    some { s with core := s.core.writeSyscallResult register value }
  | .enableProtectedContext =>
    s.tryCore (do let core ← s.core.enableProtectedContext; return (core, s.fabric))
  | .admitPointerProgram program codeBase stackLow stackHigh =>
    s.tryCore (s.core.admitPointerProgram s.fabric program codeBase stackLow stackHigh)
  | .retireAllPointerFrames => s.tryCore (s.core.retireAllPointerFrames s.fabric)
  | .bindHeapProcess key => some { s with core := s.core.bindHeapProcess key }
  | .commitHeapEvent permit pointer status malloc =>
    s.tryCore (do
      let core ← (s.core.commitHeapEvent permit pointer status malloc : Res HeapError _)
      return (core, s.fabric))
  | .fabric op => (s.fabric.step op).map fun fabric => { s with fabric }

end System

/-! ## The trace of a run -/

/-- Where a CALL was executed: its address, and the object it was fetched from at that time. -/
structure CallSite where
  pc : Nat
  object : ObjectId
  generation : Generation
  deriving DecidableEq

/-- What an observer sees of one call. -/
inductive Observation where
  | quiet
  | call (site : CallSite)
  | ret
  | enter (resume : Nat)
  | leave
  deriving DecidableEq

/-- The CALL at the program counter. -/
def Anka64Core.callSite (c : Anka64Core) (f : Fabric) : Observation :=
  match (AddressMap.resolve c.pc c.addressMap : Res (FaultRecord × Fabric) _) with
  | ok (some (object, _)) =>
    match f.objects.get object with
    | some obj => .call { pc := c.pc, object, generation := obj.generation }
    | none => .quiet
  | _ => .quiet

/-- What an instruction that ended without a fault shows. -/
def Anka64Core.observeInsn (c : Anka64Core) (f : Fabric) : Sem → Observation
  | .call => c.callSite f
  | .ret => .ret
  | .trap => .enter (c.pc + 4)
  | .eret => .leave
  | _ => .quiet

namespace System

/-- What an observer sees of a call. A fault, a halted core and a refused return show nothing. -/
def observe (s : System) : CoreOp → Observation
  | .step =>
    match s.core.step s.fabric, s.core.fetch s.fabric with
    | ok _, ok (insn, f) =>
      if s.core.halted = true then .quiet else s.core.observeInsn f insn.desc.semantics
    | _, _ => .quiet
  | .deliverPending => if s.core.deliverPending.1 = true then .enter s.core.pc else .quiet
  | .eventReturn => if s.core.eventReturn.isSome = true then .leave else .quiet
  | _ => .quiet

end System

/-- The CALLs not yet returned from, in the current call context and in the suspended ones, and
where the open events resume; the latest first. -/
structure ControlTrace where
  calls : List CallSite
  suspended : List (List CallSite)
  resumes : List Nat

namespace ControlTrace

/-- Nothing has been observed. -/
def empty : ControlTrace := { calls := [], suspended := [], resumes := [] }

/-- The trace after one observation; `own` says whether an event has its own call context. -/
def observe (t : ControlTrace) (own : Bool) : Observation → ControlTrace
  | .quiet => t
  | .call site => { t with calls := site :: t.calls }
  | .ret => { t with calls := t.calls.tail }
  | .enter resume =>
    if own = true then
      { calls := [], suspended := t.calls :: t.suspended, resumes := resume :: t.resumes }
    else { t with resumes := resume :: t.resumes }
  | .leave =>
    if own = true then
      { calls := t.suspended.headD [], suspended := t.suspended.tail, resumes := t.resumes.tail }
    else { t with resumes := t.resumes.tail }

end ControlTrace

/-- A system and what was observed of it. -/
structure Observed where
  system : System
  trace : ControlTrace

namespace Observed

/-- One call, observed. -/
def step (own : Anka64Core → Bool) (o : Observed) (op : CoreOp) : Option Observed :=
  (o.system.run op).map fun system =>
    { system, trace := o.trace.observe (own o.system.core) (o.system.observe op) }

/-- A core outside any event and any call, in user mode; everything else is arbitrary. -/
structure Initial (o : Observed) : Prop where
  privilege : o.system.core.privilege = .user
  frames : o.system.core.eventFrames = []
  saved : o.system.core.savedEventContexts = []
  returns : o.system.core.returnStack = []
  trace : o.trace = .empty

/-- Every state of any run. -/
def Reachable (own : Anka64Core → Bool) (o : Observed) : Prop :=
  Machine.Reachable (step own) Initial o

theorem exists_of_replay {own : Anka64Core → Bool} {m : Nat} {se : List FabricOp}
    {c : Anka64Core} {ops : List CoreOp} {P : Observed → Bool}
    (hc : c.privilege = .user ∧ c.eventFrames = [] ∧ c.savedEventContexts = [] ∧ c.returnStack = [])
    (h : Fabric.leadsTo m se (fun f =>
        (Machine.replay (step own) (fun _ _ => True) ops ⟨⟨c, f⟩, .empty⟩).any P) = true) :
    ∃ o, Reachable own o ∧ P o = true := by
  obtain ⟨_, -, h⟩ := isOkAnd_eq_true.mp h
  obtain ⟨f, -, h⟩ := (any_eq_true _ _).mp h
  obtain ⟨o, ho, hP⟩ := (any_eq_true _ _).mp h
  exact ⟨o, ⟨_, ⟨hc.1, hc.2.1, hc.2.2.1, hc.2.2.2, rfl⟩, Machine.run_of_replay ho⟩, hP⟩

end Observed

/-! ## What a call does to control -/

namespace Anka64Core

variable {c c' : Anka64Core} {f : Fabric}

theorem retireAllPointerFrames_keeps :
    (c.retireAllPointerFrames f).Yields fun r => c.Keeps r.1 := by
  unfold retireAllPointerFrames
  simp only
  refine yields_seq fun _ => yields_ok ?_
  simp only [Keeps, control, List.map_map, Control.mk.injEq, true_and, and_true]
  refine List.map_congr_left fun saved _ => ?_
  simp [SavedEventContext.control, SavedEventContext.dropFrames, Function.comp_def]

theorem withReply_frame (i : EventRegisterImage) (p : Option ScopedPointer) (st : Nat) (m : Bool) :
    ∃ words kinds, i.withReply p st m = { i with words, kinds } := by
  unfold EventRegisterImage.withReply
  cases m <;> exact ⟨_, _, rfl⟩

variable {saved : SavedEventContext} {rest : List SavedEventContext}

/-- The top context after a result was written. -/
def recorded (c : Anka64Core) (saved : SavedEventContext) (register : Register) (value : Nat) :
    SavedEventContext :=
  if h : register.val ≤ 12 then
    if c.privilege = .supervisor ∧ saved.contextId = c.contextId ∧ saved.domain = c.domain ∧
        saved.header.cause = .syscall ∧ saved.image.isSome = true ∧
        saved.resultConsumed = false then
      { saved with
        scalarResults := Function.update saved.scalarResults ⟨register.val, Register.lane_lt h⟩
          (some value) }
    else saved
  else saved

theorem writeSyscallResult_eq (hs : c.savedEventContexts = saved :: rest) (r : Register) (v : Nat) :
    c.writeSyscallResult r v = { c.writeRegister r v with
      savedEventContexts := c.recorded saved r v :: rest } := by
  unfold writeSyscallResult recorded
  have hw : (c.writeRegister r v).savedEventContexts = saved :: rest := hs
  by_cases hl : r.val ≤ 12
  · simp only [dif_pos hl, hw]
    by_cases hp : (c.writeRegister r v).privilege = .supervisor
    · have hp' : c.privilege = .supervisor := hp
      simp only [if_pos hp, hp', true_and]
      split
      · rename_i ho
        exact congrArg (fun top => { c.writeRegister r v with
          savedEventContexts := top :: rest }) (if_pos ho).symm
      · rename_i ho
        refine Eq.trans ?_ (congrArg (fun top => { c.writeRegister r v with
          savedEventContexts := top :: rest }) (if_neg ho).symm)
        rw [← hw]
    · have hp' : ¬ c.privilege = .supervisor := hp
      simp only [if_neg hp, hp', false_and, if_false]
      rw [← hw]
  · simp only [dif_neg hl]
    rw [← hw]

theorem commitHeapEvent_eq_ok {ε : Type} {pe : HeapEventPermit} {p : Option ScopedPointer}
    {st : Nat} {m : Bool} (h : (c.commitHeapEvent pe p st m : Res ε _) = ok c') :
    ∃ saved rest image, c.savedEventContexts = saved :: rest ∧ saved.image = some image ∧
      saved.header.cause = .syscall ∧ saved.resultConsumed = false ∧
      (∀ i, saved.scalarResults i = none) ∧
      c' = { c with savedEventContexts := { saved with
        image := some (image.withReply p st m), resultConsumed := true } :: rest } := by
  simp only [commitHeapEvent, bind_eq_ok] at h
  obtain ⟨_, hv, _, -, _, -, h⟩ := h
  obtain ⟨_, hp, -⟩ := isOkAnd_eq_true.mp (check_eq_ok.mp hv)
  simp only [prepareHeapEvent, eq_ok] at hp
  obtain ⟨saved, image, hi, _, -, ⟨-, -, hu, hn, -⟩, -⟩ := hp
  unfold protectedSyscallImage at hi
  split at hi
  · rename_i header frames top rest hf hs
    split at hi
    · rename_i ho
      obtain ⟨-, -, -, -, -, hh, hc, -⟩ := ho
      obtain ⟨image', ht, heq⟩ := map_eq_some_iff.mp hi
      obtain ⟨rfl, rfl⟩ := Prod.mk.inj heq
      simp only [hs, eq_ok, ht, some.injEq] at h
      obtain ⟨_, rfl, rfl⟩ := h
      exact ⟨top, rest, image', hs, ht, hh ▸ hc, hu, hn, rfl⟩
    · cases hi
  · cases hi

theorem writeSyscallResult_nil (h : c.savedEventContexts = []) (r : Register) (value : Nat) :
    c.writeSyscallResult r value = c.writeRegister r value := by
  have hn : (c.writeRegister r value).savedEventContexts = [] := h
  unfold writeSyscallResult
  simp only [hn]
  repeat' split
  all_goals rfl

theorem recorded_frame (saved : SavedEventContext) (r : Register) (v : Nat) :
    (c.recorded saved r v).image = saved.image ∧ (c.recorded saved r v).header = saved.header := by
  unfold recorded
  repeat' split
  all_goals exact ⟨rfl, rfl⟩

theorem writeSyscallResult_keeps (r : Register) (v : Nat) : c.Keeps (c.writeSyscallResult r v) := by
  cases hs : c.savedEventContexts with
  | nil =>
    rw [writeSyscallResult_nil hs]
    rfl
  | cons saved rest =>
    -- only the recorded results of the top context change
    obtain ⟨hi, hh⟩ := c.recorded_frame saved r v
    rw [writeSyscallResult_eq hs]
    simp [Keeps, control, hs, SavedEventContext.control, hi, hh, writeRegister]

theorem commitHeapEvent_keeps {ε : Type} (pe : HeapEventPermit) (p : Option ScopedPointer)
    (st : Nat) (m : Bool) : (c.commitHeapEvent pe p st m : Res ε _).Yields c.Keeps := by
  intro c' h
  obtain ⟨saved, rest, i, hs, hi, -, -, -, rfl⟩ := commitHeapEvent_eq_ok h
  obtain ⟨words, kinds, heq⟩ := withReply_frame i p st m
  simp [Keeps, control, hs, SavedEventContext.control, hi, heq]

end Anka64Core

namespace System

variable {s s' : System}

/-- What a call with this observation does to the control state. -/
inductive Moves (s s' : System) : Observation → Prop
  | quiet : s.core.Keeps s'.core → Moves s s' .quiet
  | call (site : CallSite) : s'.core.control = { s.core.control with
        returnStack := ⟨site.object, site.generation, site.pc + 4⟩ :: s.core.returnStack } →
      Moves s s' (.call site)
  | ret (auth : ReturnAuthority) : s.core.returnStack = auth :: s'.core.returnStack →
      s'.core.control = { s.core.control with returnStack := s'.core.returnStack } →
      Moves s s' .ret
  | enter (resume : Nat) (cause : EventCause) : s'.core.control =
        s.core.control.enter s.core.protectedContextEnabled (s.core.headerAt resume cause) →
      Moves s s' (.enter resume)
  | leave (header : EventFrame) :
      s.core.control.Leaves s.core.protectedContextEnabled header s'.core.control →
      s'.core.pc = header.returnPc → Moves s s' .leave

theorem moves_of_effect {f : Fabric} {sem : Sem}
    (h : s.core.ControlEffect f s'.core sem) : Moves s s' (s.core.observeInsn f sem) := by
  cases sem
  case call =>
    obtain ⟨o, off, obj, hr, ho, hc⟩ := h
    simp only [observeInsn, callSite, hr, ho]
    exact .call _ hc
  case ret =>
    obtain ⟨auth, hs, _, _, hc⟩ := h
    exact .ret auth hs hc
  case trap => exact .enter _ _ h
  case eret =>
    obtain ⟨header, hl, hp⟩ := h
    exact .leave header hl hp
  all_goals exact .quiet h

theorem run_step (h : s.run .step = some s') :
    s.observe .step = .quiet ∧ s'.core = s.core ∨
    ∃ r insn f, s.core.execute f insn = ok (r, s'.core, s'.fabric) ∧
      s.observe .step = s.core.observeInsn f insn.desc.semantics := by
  cases hs : s.core.step s.fabric with
  | ok re =>
    obtain ⟨r, core, fa⟩ := re
    simp only [run, hs, some.injEq] at h
    subst h
    obtain ⟨hh, -, hc, -⟩ | ⟨hh, insn, f, hf, hex⟩ :=
      step_eq_ok hs
    · refine .inl ⟨?_, hc⟩
      simp only [observe, hs]
      split <;> simp [hh]
    · exact .inr ⟨r, insn, f, hex, by simp [observe, hs, hf, hh]⟩
  | err fau =>
    simp only [run, hs, some.injEq] at h
    subst h
    exact .inl ⟨by simp [observe, hs], rfl⟩
  | panic => simp [run, hs] at h

theorem tryCore_keeps {ε : Type} {x : Res ε (Anka64Core × Fabric)}
    (hx : x.Yields fun r => s.core.Keeps r.1) (h : s.tryCore x = some s') :
    s.core.Keeps s'.core := by
  unfold tryCore at h
  split at h
  · obtain rfl := some.inj h
    exact hx _ rfl
  · obtain rfl := some.inj h
    rfl
  · cases h

theorem run_moves {op : CoreOp} (h : s.run op = some s') : Moves s s' (s.observe op) := by
  cases op with
  | step =>
    rcases run_step h with ⟨ho, hco⟩ | ⟨r, insn, f, hex, ho⟩
    · rw [ho]
      exact .quiet (congrArg control hco)
    · rw [ho]
      exact moves_of_effect (execute_control hex)
  | deliverPending =>
    obtain rfl := some.inj h
    obtain ⟨hd, hco⟩ | ⟨hd, -, cause, hct⟩ :=
      @deliverPending_control s.core
    · simp only [observe, hd]
      exact .quiet (congrArg control hco)
    · simp only [observe, hd, if_true]
      exact .enter _ cause hct
  | eventReturn =>
    obtain rfl := some.inj h
    cases hre : s.core.eventReturn with
    | none =>
      simp only [observe, hre]
      exact .quiet rfl
    | some core =>
      obtain ⟨header, hl, hp⟩ := eventReturn_control hre
      simp only [observe, hre, isSome_some, if_true]
      exact .leave header hl hp
  | postTimerInterrupt | postDeviceInterrupt | setHalted _ | bindHeapProcess _ =>
    obtain rfl := some.inj h
    exact .quiet rfl
  | writeSyscallResult re v =>
    obtain rfl := some.inj h
    exact .quiet (writeSyscallResult_keeps re v)
  | enableProtectedContext =>
    exact .quiet (tryCore_keeps
      (enableProtectedContext_rewrites.bind fun _ hc => yields_ok hc.keeps) h)
  | admitPointerProgram pr co stackLow sta =>
    exact .quiet (tryCore_keeps
      (fun r hr => (Anka64Core.admitPointerProgram_rewrites _ _ _ _ r hr).keeps) h)
  | retireAllPointerFrames =>
    exact .quiet (tryCore_keeps retireAllPointerFrames_keeps h)
  | commitHeapEvent pe p st m =>
    exact .quiet (tryCore_keeps
      ((commitHeapEvent_keeps pe p st m).bind fun _ hc => yields_ok hc) h)
  | fabric op =>
    obtain ⟨fabric, -, rfl⟩ := map_eq_some_iff.mp h
    exact .quiet rfl

end System

end Anka
