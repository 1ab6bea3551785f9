import Anka.Core.Code
import Anka.Core.FrameIssue
import Anka.ScopedPointers.Locals

/-!
# The context that holds pointer frames

Frames belong to a call context. Only one context of a core can hold them: the program's own, at the
bottom of the event stack. Admission is refused inside an event, an event of a protected core moves
the frames aside with the rest of the image, and a handler has none (`Settled`). `program` is that
context, whether it runs or is suspended.

`FrameMove` says what any call on the core or the Fabric does to it: `run_frameMove` goes through
the calls once, and the stack discipline is derived from its cases. The calls it is about are those
of `System.Faithful`: a loader admits what the validator accepted, no other caller of the Fabric
leaves the scope of an active frame or takes the admitted code out of its sealed object, and the
process is not torn down. The core itself does neither (`run_codeIn`).
-/

namespace Anka

open Rust Res List Option SavedEventContext Anka64Core Fabric

/-! ## Scopes of a frame -/

/-- The Fabric call leaves this scope of the registry. -/
def FabricOp.leaves : FabricOp → Scope → Bool
  | .registry (.leaveScope left), scope => left == scope
  | .retirePointerFrame left _, scope => left == scope
  | _, _ => false

theorem FabricOp.leaves_of_calls {op : FabricOp} {scope : Scope}
    (h : op.Calls (.leaveScope scope)) : op.leaves scope = true := by
  cases op <;> simp_all [FabricOp.Calls, FabricOp.leaves]
  subst h
  simp

namespace Fabric

variable {f f' f'' : Fabric} {scopes : Scope → Prop} {scope : Scope}
  {regs : List Registration}

/-- Between the two Fabrics none of these scopes was left. -/
def Spares (scopes : Scope → Prop) (f f' : Fabric) : Prop :=
  f.Called (fun call => ∀ scope, scopes scope → call ≠ .leaveScope scope) f'

theorem Spares.trans (h : f.Spares scopes f') (h' : f'.Spares scopes f'') : f.Spares scopes f'' :=
  Relation.ReflTransGen.trans h h'

variable {P : RegistryOp → Prop} {domain : Nat} {pointer : ScopedPointer} {owner : Nat}
  {frame : MemoryRequest} {addr : Nat} {locals : List ScopedPointer}

theorem Called.spares (h : f.Called P f') (hP : ∀ scope, scopes scope → ¬ P (.leaveScope scope)) :
    f.Spares scopes f' := by
  refine .mono (fun _ call hcall scope hs heq => ?_) h
  subst heq
  exact hP scope hs hcall

theorem SameRegistry.spares (h : f.SameRegistry f') : f.Spares scopes f' := h.called

theorem Called.run (h : f.Called P f') :
    Machine.Run ScopedPointers.step (fun _ _ => True) f.scopedPointers f'.scopedPointers :=
  Machine.Run.mono (fun _ _ _ => trivial) h

theorem Spares.live (h : f.Spares scopes f')
    (hsc : scopes scope) (hlive : f.scopedPointers.LiveLocal scope domain pointer) :
    f'.scopedPointers.LiveLocal scope domain pointer :=
  ScopedPointers.Run.live (fun hs => hs scope hsc rfl) hlive h

theorem Accesses.spares (h : f.Accesses f') : f.Spares scopes f' := by
  obtain rfl | ⟨op, hp, hs⟩ := h
  · exact .refl
  · refine (step_calls hs).spares fun scope _ hca => ?_
    cases op <;> first | exact hp.elim | exact hca.elim

theorem stores_spares {pointer : Option ScopedPointer} {op : FabricOp}
    (hop : FabricOp.Stores pointer op) (h : f.step op = some f') : f.Spares scopes f' := by
  refine (step_calls h).spares fun scope _ hca => ?_
  cases hop <;> exact hca.elim

theorem live_of_registered {domain : DomainId} {g : Generation} {s s' : ScopedPointers}
    {po : List ScopedPointer} (h : s.Registered s' scope domain g regs po) :
    ∀ p ∈ po, s'.LiveLocal scope domain.raw p := by
  have hh := h.held
  clear h
  induction hh with
  | nil => nofun
  | cons hs _ ih =>
    exact forall_mem_cons.mpr ⟨⟨_, _, hs, rfl, rfl, rfl, rfl, rfl⟩, ih⟩

theorem step_issued {r : Scope × List ScopedPointer}
    (h : f.issuePointerFrame owner frame addr regs = ok (r, f')) :
    f.step (.issuePointerFrame owner frame addr regs) = some f' :=
  step_eq_some.mpr (.inl (by simp [run, orKeep, h]))

theorem step_retired (h : f.retirePointerFrame scope locals = ok f') :
    f.step (.retirePointerFrame scope locals) = some f' :=
  step_eq_some.mpr (.inl (by simp [run, orKeep, h]))

theorem step_protected {o : ObjectId} {owner : Nat} {domain : DomainId}
    (h : f.protectPointerStack o owner domain = ok f') :
    f.step (.protectPointerStack o owner domain) = some f' :=
  step_eq_some.mpr (.inl (by simp [run, orKeep, h]))

theorem issuePointerFrame_locals
    (h : f.issuePointerFrame owner frame addr regs = ok ((scope, locals), f')) :
    scope.raw = f.scopedPointers.nextScope ∧ scope.raw < f'.scopedPointers.nextScope ∧
      ∀ p ∈ locals, f'.scopedPointers.LiveLocal scope frame.context.domain.raw p := by
  simp only [issuePointerFrame, eq_ok, pure_eq] at h
  obtain ⟨-, -, _, -, _, -, _, -, ph, -, _, -, -, -, -, -, scope', s1,
    hen, s2, hfr, locals', s3, hl, ⟨rfl, rfl⟩, rfl⟩ := h
  have hlive := live_of_registered (ScopedPointers.registerLocals_registered hl)
  have hla := ScopedPointers.Run.nextScope_le (@registerLocals_run
    Guard.any _ _ _ _ _ _ _ _ (fun _ _ _ _ _ => trivial) hl)
  simp only [ScopedPointers.bindFrame, eq_ok] at hfr
  obtain ⟨_, -, _, -, -, rfl⟩ := hfr
  simp only [ScopedPointers.enterScopeFor, eq_ok] at hen
  obtain ⟨-, _, -, _, ⟨-, rfl⟩, rfl, rfl⟩ := hen
  exact ⟨rfl, hla, hlive⟩

theorem retirePointerFrame_ended (hr : f.scopedPointers.Reachable)
    (hlive : f.scopedPointers.LiveLocal scope domain pointer)
    (h : f.retirePointerFrame scope locals = ok f') :
    f'.scopedPointers.Ended pointer.slot pointer.generation := by
  simp only [retirePointerFrame, bind_eq_ok, pure_eq_ok] at h
  obtain ⟨s, hl, rfl⟩ := h
  have hended := hlive.ended hr (mapErr_eq_ok.mp hl)
  exact ScopedPointers.Run.aged hended (@retireLocals_changes Guard.any
    { f with scopedPointers := s }
    locals fun _ => trivial).called.run

end Fabric

/-! ## Contexts -/

/-- What a call context has of its frames: the admitted program, the depth of its return stack,
where it runs and its two stack registers. -/
structure FrameContext where
  frames : Option FrameState
  depth : Nat
  pc : Nat
  sp : Nat
  fp : Nat

/-- The running context. -/
def Anka64Core.running (c : Anka64Core) : FrameContext :=
  { frames := c.pointerFrames, depth := c.returnStack.length, pc := c.pc, sp := c.r SP,
    fp := c.r FP }

/-- The context below an event, given the one above it: the saved image, or without one the same
context. -/
def SavedEventContext.under (above : FrameContext) (saved : SavedEventContext) : FrameContext :=
  match saved.image with
  | some image =>
    { frames := image.frames, depth := image.returnStack.length, pc := saved.header.returnPc
      sp := image.words SP, fp := image.words FP }
  | none => above

/-- The context of the program, below all events. -/
def Anka64Core.program (c : Anka64Core) : FrameContext :=
  c.savedEventContexts.foldl SavedEventContext.under c.running

namespace FrameContext

variable {x y : FrameContext}

/-- The same context, or two without frames. -/
def Same (x y : FrameContext) : Prop := y = x ∨ x.frames = none ∧ y.frames = none

theorem Same.refl (x : FrameContext) : x.Same x := .inl rfl

theorem Same.under (h : x.Same y) (sa : List SavedEventContext) :
    (sa.foldl SavedEventContext.under x).Same (sa.foldl SavedEventContext.under y) := by
  induction sa generalizing x y with
  | nil => exact h
  | cons top sa ih =>
    refine ih ?_
    unfold under
    cases top.image with
    | none => exact h
    | some i => exact .inl rfl

/-- The frames of the context are as they were, and so is where it runs. -/
structure Kept (x y : FrameContext) : Prop where
  frames : y.frames = x.frames
  place : x.frames ≠ none → y.depth = x.depth ∧ y.pc = x.pc

theorem Kept.refl (x : FrameContext) : x.Kept x := ⟨rfl, fun _ => ⟨rfl, rfl⟩⟩

theorem Same.kept (h : x.Same y) : x.Kept y := by
  obtain rfl | ⟨hx, hy⟩ := h
  · exact .refl _
  · exact ⟨hy.trans hx.symm, fun hn => absurd hx hn⟩

/-- The active frames, the latest first. -/
def active (x : FrameContext) : List ActiveFrame := (x.frames.map (·.active)).getD []

/-- The locals of the active frames. -/
def locals (x : FrameContext) : List ScopedPointer := x.active.flatMap (·.locals)

end FrameContext

/-! ## Only the program has frames -/

namespace Anka64Core

variable {c c' : Anka64Core} {f f' : Fabric}

/-- Outside the program's own context there are no frames. -/
structure Settled (c : Anka64Core) : Prop where
  depth : c.eventFrames.length = c.savedEventContexts.length
  guarded : c.pointerFrames ≠ none → c.protectedContextEnabled = true
  handler : c.savedEventContexts ≠ [] → c.pointerFrames = none
  nested : ∀ saved ∈ c.savedEventContexts.dropLast, saved.image.bind (·.frames) = none

theorem program_of_nil (h : c.savedEventContexts = []) : c.program = c.running := by
  simp [program, h]

theorem Settled.of_sameEvents (hc : c.Settled) (h : c.SameEvents c')
    (hfrs : c'.pointerFrames = none ↔ c.pointerFrames = none) : c'.Settled where
  depth := by rw [h.frames, h.saved, hc.depth]
  guarded := fun hn => h.guarded (hc.guarded (fun hnone => hn (hfrs.mpr hnone)))
  handler := fun hn => hfrs.mpr (hc.handler (h.saved ▸ hn))
  nested := h.saved ▸ hc.nested

theorem Settled.same_of_handler (hc : c.Settled) (hn : c.savedEventContexts ≠ [])
    (hs : c'.savedEventContexts = c.savedEventContexts) (hfrs : c'.pointerFrames = none) :
    c.program.Same c'.program := by
  unfold program
  rw [hs]
  exact .under (.inr ⟨hc.handler hn, hfrs⟩) _

/-- The context an event pushes. -/
def pushed (c : Anka64Core) (header : EventFrame) : SavedEventContext :=
  { c.savedBy header with
    image := if c.protectedContextEnabled = true then some c.registerImage else none }

theorem pushed_under (header : EventFrame) (hc : c.Settled) {ab : FrameContext}
    (ha : c.pointerFrames = none → ab.frames = none) :
    ({ c.running with pc := header.returnPc } : FrameContext).Same
      ((c.pushed header).under ab) := by
  by_cases hg : c.protectedContextEnabled = true
  · refine .inl ?_
    simp [under, pushed, savedBy, hg, running, registerImage]
  · have hnone : c.pointerFrames = none := by
      by_contra hne
      exact hg (hc.guarded hne)
    refine .inr ⟨hnone, ?_⟩
    simp [under, pushed, hg, ha hnone]

theorem enterEvent_settled (header : EventFrame) (hc : c.Settled) (pc : Nat) :
    ({ c.enterEvent header with pc } : Anka64Core).Settled where
  depth := by simp [enterEvent, hc.depth]
  guarded := by
    intro hne
    by_contra hg
    have hg' : ¬ c.protectedContextEnabled = true := hg
    simp only [enterEvent, if_neg hg'] at hne
    exact hg' (hc.guarded hne)
  handler := by
    intro _
    by_cases hg : c.protectedContextEnabled = true
    · simp [enterEvent, hg]
    · simp only [enterEvent, if_neg hg]
      by_contra hne
      exact hg (hc.guarded hne)
  nested := by
    intro sa hm
    simp only [enterEvent] at hm
    by_cases hn : c.savedEventContexts = []
    · simp [hn] at hm
    · rw [dropLast_cons_of_ne_nil hn] at hm
      rcases mem_cons.mp hm with rfl | hm
      · -- a handler that is interrupted has no frames
        simp only
        split
        · simp [hc.handler hn]
        · rfl
      · exact hc.nested sa hm

theorem enterEvent_program (header : EventFrame) (hc : c.Settled) (pc : Nat) :
    (c.savedEventContexts = [] → ({ c.running with pc := header.returnPc } : FrameContext).Same
      ({ c.enterEvent header with pc } : Anka64Core).program) ∧
    (c.savedEventContexts ≠ [] → c.program.Same
      ({ c.enterEvent header with pc } : Anka64Core).program) := by
  have hfrs : c.pointerFrames = none → (c.enterEvent header).pointerFrames = none := by
    intro hnone
    simp [enterEvent, hnone]
  have hu := @pushed_under c header hc ({ c.enterEvent header with pc } : Anka64Core).running hfrs
  constructor
  · intro hni
    have hp : ({ c.enterEvent header with pc } : Anka64Core).program =
        (c.pushed header).under ({ c.enterEvent header with pc } : Anka64Core).running := by
      unfold program
      change List.foldl _ _ (_ :: c.savedEventContexts) = _
      rw [hni]
      rfl
    exact hp ▸ hu
  · intro hn
    refine .under (.inr ⟨hc.handler hn, ?_⟩) _
    obtain heq | ⟨-, hnone⟩ := hu
    · exact (congrArg FrameContext.frames heq).trans (hc.handler hn)
    · exact hnone

theorem restoreImage_running (i : EventRegisterImage) (ca : EventCause)
    (re : Fin 13 → Option Nat) : (c.restoreImage i ca re).running =
      { frames := i.frames, depth := i.returnStack.length, pc := c.pc
        sp := i.words SP, fp := i.words FP } := by
  unfold restoreImage
  split
  · rw [writeResults_eq_foldl]
    generalize hbase : ({ c with
      r := i.words, pointerPairs := i.kinds, flags := i.flags
      returnStack := i.returnStack, pointerFrames := i.frames
      halted := i.halted } : Anka64Core) = base
    have hw := foldl_writeResult_words re (List.finRange 13) base
    obtain ⟨words, k, heq⟩ := foldl_writeResult_frame re (List.finRange 13) base
    have hsp := hw SP
    have hfp := hw FP
    rw [dif_neg (by decide), heq] at hsp hfp
    rw [heq]
    subst hbase
    simp only [running]
    exact congrArg₂ _ hsp hfp
  · rfl

section

variable (hc : c.Settled)
include hc

/-- A return of the outermost event brings the program back; one of a nested event does not touch
it. -/
theorem eventReturn_settled (h : c.eventReturn = some c') :
    c'.Settled ∧ c.program.Same c'.program := by
  obtain ⟨header, frames, sa, rest, hfrs, hsa, hhd, hg, hc'⟩ :=
    eventReturn_eq_some h
  obtain ⟨hfrs', hsa', -, -, -, -, hg'⟩ := eventReturn_pops h hfrs hsa
  have hnone : c.pointerFrames = none := hc.handler (by simp [hsa])
  have hp : c.program = rest.foldl under (sa.under c.running) := by
    simp [program, hsa]
  have hdep : c'.eventFrames.length = c'.savedEventContexts.length := by
    have := hc.depth
    simpa [hfrs, hsa, hfrs', hsa'] using this
  have hns (hn : rest ≠ []) : ∀ s ∈ sa :: rest.dropLast, s.image.bind (·.frames) = none := by
    rw [← dropLast_cons_of_ne_nil hn, ← hsa]
    exact hc.nested
  have hrs : ∀ s ∈ c'.savedEventContexts.dropLast, s.image.bind (·.frames) = none := by
    intro s hs
    rw [hsa'] at hs
    have hn : rest ≠ [] := by
      rintro rfl
      cases hs
    exact hns hn s (mem_cons_of_mem _ hs)
  cases hi : sa.image with
  | none =>
    -- an unprotected context stays as it is
    have hr : c'.running.frames = none := by
      rw [hc', hi]
      exact hnone
    refine ⟨⟨hdep, fun hn => absurd hr hn, fun _ => hr, hrs⟩, ?_⟩
    rw [hp, program, hsa']
    refine .under (.inr ⟨?_, hr⟩) _
    simp [under, hi, running, hnone]
  | some i =>
    have hr : c'.running = sa.under c.running := by
      have hre := @restoreImage_running
        { c with savedEventContexts := rest, eventFrames := frames } i header.cause
        sa.scalarResults
      rw [hc', hi]
      simp only [under, hi, hhd]
      simp only [running] at hre ⊢
      simp_all
    refine ⟨⟨hdep, fun _ => ?_, fun hn => ?_, hrs⟩, .inl ?_⟩
    · rw [hg', hg, hi, isSome_some]
    · -- the context of a nested event is a handler's
      have hfrs := congrArg FrameContext.frames hr
      have hh := hns (hsa' ▸ hn) sa mem_cons_self
      simpa [under, hi, running, hh] using hfrs.trans (by simpa [under, hi] using hh)
    · rw [hp, program, hsa', hr]

theorem deliverPending_settled :
    c.deliverPending.2.Settled ∧ c.program.Same c.deliverPending.2.program := by
  unfold deliverPending
  split
  · exact ⟨hc, .refl _⟩
  · split
    · exact ⟨hc, .refl _⟩
    · rename_i cause pending turn _
      have hc0 : ({ c with pending, interruptTurn := turn } : Anka64Core).Settled :=
        { hc with }
      refine ⟨enterEvent_settled _ hc0 _, ?_⟩
      obtain ⟨hp, hh⟩ := enterEvent_program (c.headerAt c.pc cause) hc0 c.trapVector
      by_cases hn : c.savedEventContexts = []
      · rw [program_of_nil hn]
        exact hp hn
      · exact hh hn

theorem Settled.of_top {sa top : SavedEventContext} {rest : List SavedEventContext}
    (hsa : c.savedEventContexts = sa :: rest) (hu : ∀ above, top.under above = sa.under above)
    (hi : top.image.bind (·.frames) = sa.image.bind (·.frames))
    (hfrs : c'.pointerFrames = c.pointerFrames) (hev : c'.eventFrames = c.eventFrames)
    (hsa' : c'.savedEventContexts = top :: rest) : c'.Settled ∧ c.program.Same c'.program := by
  have hnone : c'.pointerFrames = none := hfrs.trans (hc.handler (by simp [hsa]))
  refine ⟨⟨?_, fun hne => absurd hnone hne, fun _ => hnone, ?_⟩, ?_⟩
  · rw [hev, hc.depth, hsa, hsa']
    rfl
  · have hn := hc.nested
    rw [hsa] at hn
    rw [hsa']
    intro s hs
    by_cases hni : rest = []
    · simp [hni] at hs
    · rw [dropLast_cons_of_ne_nil hni] at hs hn
      rcases mem_cons.mp hs with rfl | hs
      · exact hi.trans (hn sa mem_cons_self)
      · exact hn s (mem_cons_of_mem _ hs)
  · unfold program
    rw [hsa, hsa', foldl_cons, foldl_cons, hu]
    refine .under ?_ _
    unfold under
    cases sa.image with
    | none => exact .inr ⟨hfrs.symm.trans hnone, hnone⟩
    | some i => exact .inl rfl

theorem writeSyscallResult_settled (r : Register) (v : Nat) :
    (c.writeSyscallResult r v).Settled ∧ c.program.Kept (c.writeSyscallResult r v).program := by
  cases hs : c.savedEventContexts with
  | nil =>
    rw [writeSyscallResult_nil hs, program_of_nil hs,
      program_of_nil (show (c.writeRegister r v).savedEventContexts = [] from hs)]
    exact ⟨{ hc with }, rfl, fun _ => ⟨rfl, rfl⟩⟩
  | cons sa rest =>
    rw [writeSyscallResult_eq hs]
    have ht := c.recorded_frame sa r v
    obtain ⟨hse, hp⟩ := @Settled.of_top c { c.writeRegister r v with
        savedEventContexts := c.recorded sa r v :: rest } hc sa
      (c.recorded sa r v) rest hs
      (fun above => by simp only [under, ht.1, ht.2])
      (by rw [ht.1]) rfl rfl rfl
    exact ⟨hse, hp.kept⟩

theorem commitHeapEvent_settled {ε : Type} {p : HeapEventPermit}
    {pointer : Option ScopedPointer} {status : Nat} {malloc : Bool}
    (h : (c.commitHeapEvent p pointer status malloc : Res ε _) = ok c') :
    c'.Settled ∧ c.program.Same c'.program := by
  obtain ⟨sa, rest, image, hs, hi, -, -, -, rfl⟩ := commitHeapEvent_eq_ok h
  have hw (register : Register) (hr : 4 ≤ register.val) :
      (image.withReply pointer status malloc).words register = image.words register := by
    rw [withReply_words image ⟨pointer, status, malloc⟩, Answers.replyWord]
    have hn (k : Register) (hk : k.val < 4) : register ≠ k := by
      rintro rfl
      omega
    simp [hn 0, hn 1, hn 2, hn 3]
  obtain ⟨w, ki, heq⟩ := withReply_frame image pointer status malloc
  refine hc.of_top hs (fun above => ?_) ?_ rfl rfl rfl
  · have hsp := hw SP (by decide)
    have hfp := hw FP (by decide)
    simp only [under, hi, hsp, hfp]
    rw [heq]
  · simp [hi, heq]

end

/-! ## The instructions of frames -/

theorem frameCurrent_domain {st : FrameState} (h : c.frameCurrent f = ok st) :
    st.domain = c.domain := by
  simp only [frameCurrent, eq_ok] at h
  obtain ⟨_, -, ⟨-, -, hd, -⟩, _, _, -, _, -, _, -, -, rfl⟩ := h
  exact hd

/-- The context PFRAME leaves. -/
def framedContext (c : Anka64Core) (state : FrameState) (index : Nat) (scope : Scope)
    (locals : List ScopedPointer) (base pc : Nat) : FrameContext :=
  { frames := some { state with
      active := { scope, manifest := index, callDepth := c.returnStack.length
                  parentCursor := state.cursor, parentFp := c.r FP, returnLr := c.r LR
                  locals } :: state.active
      cursor := base
      pendingEntry := none }
    depth := c.returnStack.length, pc, sp := base, fp := base }

/-- **The inversion of PFRAME.** -/
theorem enterPointerFrame_frames {index : Nat} (h : c.enterPointerFrame f index = ok (c', f')) :
    ∃ st frame scope locals base owner whole regs,
      c.pointerFrames = some st ∧ st.program.frames[index]? = some frame ∧
      st.pendingEntry = some c.pc ∧ c.pc = st.codeBase + frame.entry ∧
      (∀ a ∈ st.active, a.callDepth ≠ c.returnStack.length) ∧
      base + frame.size = st.cursor ∧ st.stackLow ≤ base ∧
      f.issuePointerFrame owner whole base regs = ok ((scope, locals), f') ∧
      whole.context.domain = st.domain ∧
      ∀ pc, ({ c' with pc } : Anka64Core).running =
        c.framedContext st index scope locals base pc := by
  simp only [enterPointerFrame, eq_ok] at h
  obtain ⟨st, hst, frame, hfr, ⟨hpend, hent, hfresh⟩, -, base, hbase, o, -,
    _, _, -, -, regs, -, scope, locals, _, hi, rfl, rfl⟩ := h
  obtain ⟨hbase, hlow⟩ := filter_eq_some_iff.mp hbase
  obtain ⟨hs, rfl⟩ := checkedSub_eq_some.mp hbase
  refine ⟨st, frame, scope, locals, _, _, _, regs, Mut.frameCurrent_frames hst, hfr,
    hpend, hent, ?_, Nat.sub_add_cancel hs, of_decide_eq_true hlow, hi,
    (frameCurrent_domain hst).symm, fun pc => ?_⟩
  · intro a ha hdep
    have := any_eq_false.mp hfresh a ha
    simp [hdep] at this
  · simp [running, framedContext, writeRegister, SP, FP]

/-- **The inversion of PUNFRAME.** -/
theorem leavePointerFrame_frames (h : c.leavePointerFrame f = ok (c', f')) :
    ∃ st frame rest, c.pointerFrames = some st ∧ st.active = frame :: rest ∧
      frame.callDepth = c.returnStack.length ∧
      f.retirePointerFrame frame.scope frame.locals = ok f' ∧
      ∀ pc, ({ c' with pc } : Anka64Core).running =
        { frames := some { st with active := rest, cursor := frame.parentCursor }
          depth := c.returnStack.length, pc, sp := frame.parentCursor, fp := frame.parentFp } := by
  obtain ⟨st, hst, h⟩ := bind_eq_ok.mp h
  cases hact : st.active with
  | nil => simp [hact] at h
  | cons frame rest =>
    simp only [hact, eq_ok] at h
    obtain ⟨hdep, _, -, -, _, hr, rfl, rfl⟩ := h
    refine ⟨st, frame, rest, Mut.frameCurrent_frames hst, hact, hdep, hr, fun pc => ?_⟩
    simp [running, writeRegister, SP, FP, LR]

theorem asU64_asI64_add (pc : Nat) (k : Int) :
    (asU64 (asI64 pc + k) : Int) = (pc + k) % 2 ^ 64 := by
  have hp : asI64 pc % 2 ^ 64 = (pc : Int) % 2 ^ 64 := by
    unfold asI64
    rw [BitVec.toInt_ofNat']
    exact Int.bmod_emod
  unfold asU64
  rw [BitVec.toNat_ofInt]
  omega

theorem callInsn_frames {imm : Int} {next : Nat} (h : c.callInsn f imm = ok (c', next)) :
    c'.pointerFrames = c.pointerFrames.map (fun state => { state with pendingEntry := some next }) ∧
      c'.returnStack.length = c.returnStack.length + 1 ∧
      ∀ state, c.pointerFrames = some state →
        ∃ frame ∈ state.program.frames, next = state.codeBase + frame.entry := by
  obtain ⟨_, _, _, -, -, hent, rfl, rfl⟩ := callInsn_eq_ok h
  refine ⟨rfl, rfl, fun state hst => ?_⟩
  rw [callsEntry, hst, all_some] at hent
  obtain ⟨frame, hfr, ht⟩ := any_eq_true.mp hent
  refine ⟨frame, hfr, ?_⟩
  have ht := of_decide_eq_true ht
  have hlt := state.program.entry_lt frame hfr
  have hl := state.code_le
  have hn := asU64_asI64_add c.pc (imm * 4)
  rw [← ht] at hn
  unfold u64Max at hl
  change asU64 (asI64 c.pc + imm * 4) = _
  omega

theorem retInsn_frames {next : Nat} (h : c.retInsn f = ok (c', next)) :
    c'.pointerFrames = c.pointerFrames ∧ c.returnStack.length = c'.returnStack.length + 1 ∧
      ∀ state, c.pointerFrames = some state →
        ∀ a ∈ state.active, a.callDepth ≠ c.returnStack.length := by
  obtain ⟨auth, rest, hs, -, -, hact, rfl⟩ := retInsn_eq_ok h
  refine ⟨rfl, congrArg List.length hs, fun state hst a ha hdep => ?_⟩
  rw [hst, any_some] at hact
  have := any_eq_false.mp hact a ha
  simp [hdep] at this

/-- **The inversion of an admission.** -/
theorem admitPointerProgram_frames {p : ValidatedPointerProgram} {co sta st : Nat}
    (h : c.admitPointerProgram f p co sta st = ok (c', f')) :
    c.pointerFrames = none ∧ c.eventFrames = [] ∧ c'.protectedContextEnabled = true ∧
      f.SameRegistry f' ∧
      (∃ o owner domain, f.step (.protectPointerStack o owner domain) = some f') ∧
      c'.returnStack = [] ∧ sta < st ∧
      ∃ state, c'.pointerFrames = some state ∧ state.program = p ∧
        state.codeBase = co ∧ state.stackLow = sta ∧ state.stackHigh = st ∧
        state.cursor = st ∧ state.pendingEntry = some co ∧ state.active = [] ∧
        c'.r SP = st ∧ state.Mapped c.addressMap ∧ state.codeIn f' = true := by
  simp only [admitPointerProgram, enableProtectedContext, bind_eq_ok, Prod.exists, require_eq_ok,
    mapErr_eq_ok] at h
  obtain ⟨_, ⟨hnone, hev, hr, -, hs, -⟩, o, off, hm, obj, ho, _, hsl,
    ph, ht, _, ⟨-, hcode⟩, _, _, -, _, -, _, _, -, _, -, f1, hp, c1, ⟨_, -, hc1⟩,
    h⟩ := h
  obtain rfl := ok.inj hc1
  have hste := step_protected hp
  split at h
  · simp only [pure_eq_ok, Prod.mk.injEq] at h
    obtain ⟨rfl, rfl⟩ := h
    simp only [protectPointerStack, eq_ok] at hp
    obtain ⟨-, -, -, -, rfl⟩ := hp
    refine ⟨by simpa using hnone, hev, rfl, rfl, ⟨_, _, _, hste⟩, hr, hs, _, rfl, rfl, rfl,
      rfl, rfl, rfl, rfl, rfl, by simp [writeRegister],
      FrameState.checkedPointerMapping_mapped hm, ?_⟩
    obtain ⟨base, hbase, -, rfl⟩ := translate_eq_some (okOr_eq_ok.mp ht)
    exact FrameState.codeIn_of_slice (okOr_eq_ok.mp ho) hsl hbase hcode
  · cases h

end Anka64Core

/-! ## What a call does to the program's frames -/

/-- The instructions that open or close a frame or a call. -/
def Sem.movesFrames : Sem → Bool
  | .call | .ret | .pointerFrame | .pointerUnframe => true
  | _ => false

/-- The scopes of the active frames. -/
def FrameContext.scopes (x : FrameContext) (scope : Scope) : Prop := ∃ a ∈ x.active, a.scope = scope

/-- What a call does to the context of the program. The label is the instruction of the program that
the call completed, if any. -/
inductive FrameMove (map : List AddressMapEntry) (x : FrameContext) (f : Fabric) :
    Option Sem → FrameContext → Fabric → Prop
  | kept {y : FrameContext} {f' : Fabric} (h : x.Kept y) (hf : f.Spares x.scopes f') :
      FrameMove map x f none y f'
  | ordinary (sem : Sem) {y : FrameContext} {f' : Fabric} (hsem : sem.movesFrames = false)
      (hfrs : y.frames = x.frames) (hdep : x.frames ≠ none → y.depth = x.depth)
      (hf : f.Spares x.scopes f') : FrameMove map x f (some sem) y f'
  | framed (state : FrameState) (index : Nat) (frame : FrameManifest) (scope : Scope)
      (locals : List ScopedPointer) (base pc returnLr : Nat) {f' : Fabric}
      (hst : x.frames = some state) (hfr : state.program.frames[index]? = some frame)
      (hpend : state.pendingEntry = some x.pc) (hent : x.pc = state.codeBase + frame.entry)
      (hfresh : ∀ a ∈ state.active, a.callDepth ≠ x.depth)
      (hbase : base + frame.size = state.cursor) (hlow : state.stackLow ≤ base)
      (hnew : f.scopedPointers.nextScope ≤ scope.raw)
      (hnumbered : scope.raw < f'.scopedPointers.nextScope)
      (hlive : ∀ p ∈ locals, f'.scopedPointers.LiveLocal scope state.domain.raw p)
      (hf : f.Spares x.scopes f') :
      FrameMove map x f (some .pointerFrame)
        { frames := some { state with
            active := { scope, manifest := index, callDepth := x.depth, parentCursor := state.cursor
                        parentFp := x.fp, returnLr, locals } :: state.active
            cursor := base
            pendingEntry := none }
          depth := x.depth, pc, sp := base, fp := base } f'
  | unframed (state : FrameState) (frame : ActiveFrame) (rest : List ActiveFrame) (pc : Nat)
      {f' : Fabric} (hst : x.frames = some state) (hact : state.active = frame :: rest)
      (hdep : frame.callDepth = x.depth)
      (hended : f.scopedPointers.Reachable → ∀ domain p,
        f.scopedPointers.LiveLocal frame.scope domain p →
        f'.scopedPointers.Ended p.slot p.generation)
      (hf : f.Spares (· ≠ frame.scope) f') :
      FrameMove map x f (some .pointerUnframe)
        { frames := some { state with active := rest, cursor := frame.parentCursor }
          depth := x.depth, pc, sp := frame.parentCursor, fp := frame.parentFp } f'
  | called {y : FrameContext} {f' : Fabric}
      (hfrs : y.frames = x.frames.map fun state => { state with pendingEntry := some y.pc })
      (hent : ∀ state, x.frames = some state →
        ∃ frame ∈ state.program.frames, y.pc = state.codeBase + frame.entry)
      (hdep : y.depth = x.depth + 1) (hf : f.Spares x.scopes f') :
        FrameMove map x f (some .call) y f'
  | returned {y : FrameContext} {f' : Fabric} (hfrs : y.frames = x.frames)
      (hdep : x.depth = y.depth + 1)
      (hcls : ∀ state, x.frames = some state → ∀ a ∈ state.active, a.callDepth ≠ x.depth)
      (hf : f.Spares x.scopes f') : FrameMove map x f (some .ret) y f'
  | admitted (state : FrameState) {y : FrameContext} {f' : Fabric} (hnone : x.frames = none)
      (hst : y.frames = some state) (haccp : state.program.Accepted)
      (hcursor : state.cursor = state.stackHigh) (hlow : state.stackLow < state.stackHigh)
      (hpend : state.pendingEntry = some state.codeBase) (hact : state.active = [])
      (hsp : y.sp = state.cursor) (hmapped : state.Mapped map) (hcode : state.codeIn f' = true)
      (hf : f.Spares x.scopes f') : FrameMove map x f none y f'

variable {sem : Sem}

namespace System

variable {s s' : System} {op : CoreOp}

/-- The instruction a call completed: fetched, and ended without a fault. -/
def completed (s : System) : CoreOp → Option Sem
  | .step =>
    match s.core.step s.fabric, s.core.fetch s.fabric with
    | ok _, ok (insn, _) => if s.core.halted = true then none else some insn.desc.semantics
    | _, _ => none
  | _ => none

/-- The instruction of the program, not of a handler, that a call completed. -/
def advances (s : System) (op : CoreOp) : Option Sem :=
  if s.core.savedEventContexts.isEmpty = true then s.completed op else none

/-- The calls around a program that keep to its admission. -/
def Faithful (s : System) : CoreOp → Prop
  | .admitPointerProgram program _ _ _ => program.Accepted
  | .retireAllPointerFrames => False
  | .fabric op => (s.core.program.active.all fun a => !op.leaves a.scope) = true ∧
      (s.core.program.frames.all fun state => (s.fabric.step op).all state.codeIn) = true
  | _ => True

instance (s : System) : DecidablePred s.Faithful
  | .admitPointerProgram program _ _ _ => inferInstanceAs (Decidable program.Accepted)
  | .retireAllPointerFrames => inferInstanceAs (Decidable False)
  | .fabric op =>
    inferInstanceAs (Decidable ((s.core.program.active.all fun a => !op.leaves a.scope) = true ∧
      (s.core.program.frames.all fun state => (s.fabric.step op).all state.codeIn) = true))
  | .step | .deliverPending | .postTimerInterrupt | .postDeviceInterrupt | .eventReturn
      | .setHalted _
  | .writeSyscallResult _ _ | .enableProtectedContext | .bindHeapProcess _
  | .commitHeapEvent _ _ _ _ => inferInstanceAs (Decidable True)

theorem completed_eq_some (h : s.completed op = some sem) :
    op = .step ∧ s.core.halted = false ∧ ∃ insn f, s.core.fetch s.fabric = ok (insn, f) ∧
      insn.desc.semantics = sem := by
  cases op with
  | step =>
    refine ⟨rfl, ?_⟩
    simp only [completed] at h
    split at h
    · rename_i insn f hfe _
      split at h
      · cases h
      · rename_i hh
        exact ⟨by simpa using hh, insn, f, ‹_›, some.inj h⟩
    · cases h
  | _ => cases h

theorem advances_eq_some (h : s.advances op = some sem) :
    s.core.savedEventContexts = [] ∧ s.completed op = some sem := by
  unfold advances at h
  split at h
  · rename_i hn
    exact ⟨isEmpty_iff.mp hn, h⟩
  · cases h

theorem completed_of_execute {insn : DecodedInsn} {f : Fabric}
    {r : StepResult × Anka64Core × Fabric} (hh : s.core.halted = false)
    (hfe : s.core.fetch s.fabric = ok (insn, f)) (hs : s.core.step s.fabric = ok r) :
    s.completed .step = some insn.desc.semantics := by
  simp [completed, hs, hfe, hh]

end System

namespace Anka64Core

variable {c c' : Anka64Core} {f f' : Fabric}

theorem Effect.spares {scopes : Scope → Prop} (h : c.Effect f sem c' f')
    (hsem : sem ≠ .pointerUnframe) : f.Spares scopes f' := by
  cases h with
  | scalar _ _ _ _ _ _ hf | quiet _ _ _ _ hf => exact hf.spares
  | installed _ _ _ _ _ _ hs _ =>
    cases hs with
    | loaded r hl _ =>
      exact (@step_calls f f' (.loadPointerCell r) (step_eq_some.mpr
        (.inl (by simp [run, hl])))).spares fun _ _ hca => hca.elim
    | _ => exact .refl
  | stored _ _ op _ _ hop hf => exact stores_spares hop hf
  | framed i c1 next hfr =>
    obtain ⟨_, _, _, _, _, _, _, _, -, -, -, -, -, -, -, hi, -⟩ := enterPointerFrame_frames hfr
    refine (step_calls (step_issued hi)).spares fun scope _ hca => ?_
    simp [FabricOp.Calls] at hca
  | unframed => exact absurd rfl hsem
  | called | returned | trapped | resumed | halted => exact .refl

theorem Effect.ofCore (h : c.Effect f sem c' f') :
    f' = f ∨ ∃ op : FabricOp, op.OfCore ∧ f.step op = some f' := by
  cases h with
  | scalar _ _ _ _ _ _ hf | quiet _ _ _ _ hf =>
    obtain rfl | ⟨op, hp, hste⟩ := hf
    · exact .inl rfl
    · exact .inr ⟨op, hp.ofCore, hste⟩
  | installed _ _ _ _ _ _ hs _ =>
    cases hs with
    | loaded r hl _ =>
      exact .inr ⟨.loadPointerCell r, trivial, step_eq_some.mpr (.inl (by simp [run, hl]))⟩
    | _ => exact .inl rfl
  | stored _ _ op _ _ hop hf =>
    exact .inr ⟨op, by cases hop <;> trivial, hf⟩
  | framed i c1 next hfr =>
    obtain ⟨_, _, _, _, _, _, _, _, -, -, -, -, -, -, -, hi, -⟩ := enterPointerFrame_frames hfr
    exact .inr ⟨.issuePointerFrame _ _ _ _, trivial, step_issued hi⟩
  | unframed c1 next hfr =>
    obtain ⟨_, _, _, -, -, -, hr, -⟩ := leavePointerFrame_frames hfr
    exact .inr ⟨.retirePointerFrame _ _, trivial, step_retired hr⟩
  | called | returned | trapped | resumed | halted => exact .inl rfl

theorem Effect.frames_none_iff (h : c.Effect f sem c' f') (ht : sem ≠ .trap)
    (her : sem ≠ .eret) : c'.pointerFrames = none ↔ c.pointerFrames = none := by
  cases h with
  | scalar | quiet | stored | halted => exact Iff.rfl
  | installed _ _ _ c1 next _ _ hi =>
    simp only [installPointer, enableProtectedContext, eq_ok] at hi
    obtain ⟨_, -, _, ⟨-, rfl⟩, rfl⟩ := hi
    exact Iff.rfl
  | framed _ c1 next hfr =>
    obtain ⟨_, _, _, _, _, _, _, _, hst, -, -, -, -, -, -, -, -, hr⟩ :=
      enterPointerFrame_frames hfr
    have hfrs := congrArg FrameContext.frames (hr next)
    simp only [running, framedContext] at hfrs
    simp [hfrs, hst]
  | unframed c1 next hfr =>
    obtain ⟨_, _, _, hst, -, -, -, hr⟩ := leavePointerFrame_frames hfr
    have hfrs := congrArg FrameContext.frames (hr next)
    simp only [running] at hfrs
    simp [hfrs, hst]
  | called _ _ _ hcall => simp [(callInsn_frames hcall).1]
  | returned _ _ hre => simp [(retInsn_frames hre).1]
  | trapped => exact absurd rfl ht
  | resumed => exact absurd rfl her

theorem Effect.handler (hc : c.Settled) (hn : c.savedEventContexts ≠ [])
    (h : c.Effect f sem c' f') : c'.Settled ∧ c.program.Same c'.program := by
  obtain ⟨ht, her, hs⟩ | ⟨rfl, rfl⟩ | ⟨rfl, hr⟩ := h.events
  · have hfrs := h.frames_none_iff ht her
    exact ⟨hc.of_sameEvents hs hfrs, hc.same_of_handler hn hs.saved (hfrs.mpr (hc.handler hn))⟩
  · exact ⟨enterEvent_settled _ hc _,
      (enterEvent_program (c.headerAt (c.pc + 4) .syscall) hc c.trapVector).2 hn⟩
  · exact eventReturn_settled hc hr

theorem Effect.not_unframe (h : c.Effect f sem c' f') (hnone : c.pointerFrames = none) :
    sem ≠ .pointerUnframe := by
  rintro rfl
  cases h with
  | unframed _ _ hfr =>
    obtain ⟨_, _, _, hst, -⟩ := leavePointerFrame_frames hfr
    cases hnone.symm.trans hst
  | scalar _ _ _ _ _ hsem | quiet _ _ _ hsem | installed _ _ _ _ _ hsem => cases hsem

/-- **An instruction of the program**, whose fetch kept the registry. -/
theorem Effect.frameMove {f0 : Fabric} (hf : f0.SameRegistry f) (hc : c.Settled)
    (hn : c.savedEventContexts = []) (h : c.Effect f sem c' f') :
    c'.Settled ∧ FrameMove c.addressMap c.program f0 (some sem) c'.program f' := by
  rw [program_of_nil hn]
  have hs (hu : sem ≠ .pointerUnframe) : f0.Spares c.running.scopes f' :=
    hf.spares.trans (h.spares hu)
  obtain ⟨ht, her, hsa⟩ | ⟨rfl, rfl⟩ | ⟨rfl, hrt⟩ := h.events
  · refine ⟨hc.of_sameEvents hsa (h.frames_none_iff ht her), ?_⟩
    rw [program_of_nil (hsa.saved.trans hn)]
    have ho (hsem : sem.movesFrames = false) (hfrs : c'.pointerFrames = c.pointerFrames)
        (hrts : c'.returnStack = c.returnStack) :
        FrameMove c.addressMap c.running f0 (some sem) c'.running f' := by
      refine .ordinary sem hsem hfrs (fun _ => congrArg List.length hrts) (hs ?_)
      rintro rfl
      cases hsem
    cases h with
    | scalar _ _ _ _ _ hsem | quiet _ _ _ hsem =>
      exact ho (by cases sem <;> cases hsem <;> rfl) rfl rfl
    | installed _ _ _ c1 next hsem _ hi =>
      simp only [installPointer, enableProtectedContext, eq_ok] at hi
      obtain ⟨_, -, _, ⟨-, rfl⟩, rfl⟩ := hi
      exact ho (by cases sem <;> cases hsem <;> rfl) rfl rfl
    | stored | halted => exact ho rfl rfl rfl
    | framed i c1 next hfr =>
      obtain ⟨st, frame, scope, locals, base, owner, w, regs, hst, hm,
        hpend, hent, hfresh, hbase, hlow, his, hd, hr⟩ :=
        enterPointerFrame_frames hfr
      obtain ⟨hsc, hnumbered, hlive⟩ := issuePointerFrame_locals his
      rw [hr next]
      exact .framed st i frame scope locals base next (c.r LR) hst hm hpend
        hent hfresh hbase hlow (hf ▸ hsc.ge) hnumbered (hd ▸ hlive) (hs (by simp))
    | unframed c1 next hfr =>
      obtain ⟨st, frame, rest, hst, hact, hdep, hre, hr⟩ :=
        leavePointerFrame_frames hfr
      rw [hr next]
      refine .unframed st frame rest next hst hact hdep (hf ▸ fun hrc domain p hlive =>
        retirePointerFrame_ended hrc hlive hre) (hf.spares.trans ?_)
      refine (step_calls (step_retired hre)).spares fun scope hne hca => ?_
      simp only [FabricOp.Calls, RegistryOp.leaveScope.injEq, reduceCtorEq, exists_false,
        or_false] at hca
      exact hne hca
    | called imm c1 next hcall =>
      obtain ⟨hfrs, hdep, hent⟩ := callInsn_frames hcall
      exact .called hfrs hent hdep (hs (by simp))
    | returned c1 next hret =>
      obtain ⟨hfrs, hdep, hcls⟩ := retInsn_frames hret
      exact .returned hfrs hdep hcls (hs (by simp))
    | trapped => exact absurd rfl ht
    | resumed => exact absurd rfl her
  · have hp := (enterEvent_program (c.headerAt (c.pc + 4) .syscall) hc c.trapVector).1 hn
    refine ⟨enterEvent_settled _ hc _, ?_⟩
    obtain heq | ⟨hx, hy⟩ := hp
    · have hfrs := congrArg FrameContext.frames heq
      have hdep := congrArg FrameContext.depth heq
      exact .ordinary .trap rfl hfrs (fun _ => hdep) (hs (by simp))
    · exact .ordinary .trap rfl (hy.trans hx.symm) (fun hne => absurd hx hne) (hs (by simp))
  · obtain ⟨_, _, _, _, -, hsv, -⟩ := eventReturn_eq_some hrt
    cases hn.symm.trans hsv

end Anka64Core

namespace System

variable {s s' : System} {op : CoreOp}

theorem frameMove_of_kept (hcm : s.completed op = none)
    (hk : s.core.program.Kept s'.core.program) (hfa : s.fabric.SameRegistry s'.fabric) :
    FrameMove s.core.addressMap s.core.program s.fabric (s.advances op) s'.core.program
      s'.fabric := by
  have ha : s.advances op = none := by
    unfold advances
    rw [hcm]
    exact ite_self _
  rw [ha]
  exact .kept hk hfa.spares

theorem step_frameMove (hs : s.core.Settled) (h : s.run .step = some s') :
    s'.core.Settled ∧
      FrameMove s.core.addressMap s.core.program s.fabric (s.advances .step) s'.core.program
        s'.fabric := by
  cases hste : s.core.step s.fabric with
  | ok re =>
    obtain ⟨r, core, fa⟩ := re
    simp only [run, hste, some.injEq] at h
    subst h
    obtain ⟨hh, -, rfl, rfl⟩ | ⟨hh, insn, f, hfe, hex⟩ :=
      step_eq_ok hste
    · -- a halted core
      refine ⟨hs, frameMove_of_kept ?_ (.refl _) rfl⟩
      simp only [completed, hste]
      split <;> simp [hh]
    · have hef := execute_effect hex
      have hsa : s.fabric.SameRegistry f := (fetch_logs hfe).logged.registry
      have hcm := completed_of_execute hh hfe hste
      by_cases hn : s.core.savedEventContexts = []
      · have ha : s.advances .step = some insn.desc.semantics := by
          simp [advances, hn, hcm]
        rw [ha]
        exact hef.frameMove hsa hs hn
      · obtain ⟨hse, hp⟩ := hef.handler hs hn
        have ha : s.advances .step = none := by simp [advances, hn]
        rw [ha]
        exact ⟨hse, .kept hp.kept (hsa.spares.trans (hef.spares (hef.not_unframe (hs.handler hn))))⟩
  | err fau =>
    have hl := step_raises _ hste
    simp only [run, hste, some.injEq] at h
    subst h
    refine ⟨hs, frameMove_of_kept ?_ (.refl _) hl.logged.registry⟩
    simp [completed, hste]
  | panic => simp [run, hste] at h

/-- What a call does to the Fabric: an instruction cycle logs, and may make a call of a core. -/
inductive Touches (f : Fabric) (op : CoreOp) (f' : Fabric) : Prop
  | logs (h : Fabric.Logged f f')
  | core (call : FabricOp) {g : Fabric} (hlogged : Fabric.Logged f g) (hcall : call.OfCore)
      (h : g.step call = some f')
  | outside (call : FabricOp) (hop : op = .fabric call) (h : f.step call = some f')

theorem run_touches (hop : s.Faithful op) (h : s.run op = some s') :
    Touches s.fabric op s'.fabric := by
  cases op with
  | step =>
    cases hs : s.core.step s.fabric with
    | ok re =>
      obtain ⟨r, core, fabric⟩ := re
      simp only [run, hs, some.injEq] at h
      subst h
      obtain ⟨-, -, rfl, rfl⟩ | ⟨-, insn, f, hfe, hex⟩ := step_eq_ok hs
      · exact .logs rfl
      · have hlogged := (fetch_logs hfe).logged
        obtain rfl | ⟨call, hcall, hca⟩ := (execute_effect hex).ofCore
        · exact .logs hlogged
        · exact .core call hlogged hcall hca
    | err fa =>
      have hl := step_raises _ hs
      simp only [run, hs, some.injEq] at h
      subst h
      exact .logs hl.logged
    | panic => simp [run, hs] at h
  | deliverPending | eventReturn | postTimerInterrupt | postDeviceInterrupt | setHalted _
  | bindHeapProcess _ | writeSyscallResult _ _ =>
    obtain rfl := some.inj h
    exact .logs rfl
  | enableProtectedContext | commitHeapEvent _ _ _ _ =>
    obtain h | rfl := tryCore_eq_some h
    · simp only [eq_ok] at h
      obtain ⟨_, -, -, hfa⟩ := h
      exact .logs (hfa ▸ rfl)
    · exact .logs rfl
  | admitPointerProgram p co sta st =>
    obtain h | rfl := tryCore_eq_some h
    · obtain ⟨-, -, -, -, ⟨_, _, _, hs⟩, -⟩ := Anka64Core.admitPointerProgram_frames h
      exact .core (.protectPointerStack _ _ _)
        (show Fabric.Logged s.fabric s.fabric from rfl) trivial hs
    · exact .logs rfl
  | retireAllPointerFrames => exact hop.elim
  | fabric op =>
    obtain ⟨fabric, hs, rfl⟩ := map_eq_some_iff.mp h
    exact .outside op rfl hs

theorem run_lawful (hop : s.Faithful op) (h : s.run op = some s') (hf : s.fabric.Lawful) :
    s'.fabric.Lawful := by
  cases run_touches hop h with
  | logs h => exact hf.logged h
  | core call hlogged _ h => exact (hf.logged hlogged).step h
  | outside call _ h => exact hf.step h

/-- **A faithful call leaves the admitted code where it is.** -/
theorem run_codeIn (hop : s.Faithful op) (h : s.run op = some s') (hf : s.fabric.Lawful)
    {st : FrameState} (hst : s.core.program.frames = some st)
    (hcode : st.codeIn s.fabric = true) : st.codeIn s'.fabric = true := by
  cases run_touches hop h with
  | logs h => rwa [FrameState.codeIn_logged h]
  | core call hlogged hcall h =>
    exact (hf.logged hlogged).codeIn hcall h (by rwa [FrameState.codeIn_logged hlogged])
  | outside call hfa hca =>
    subst hfa
    have hk := hop.2
    rw [hst, hca] at hk
    exact hk

/-- The address map of a core is given to it once. -/
theorem run_addressMap (hop : s.Faithful op) (h : s.run op = some s') :
    s'.core.addressMap = s.core.addressMap := by
  cases op with
  | step =>
    obtain ⟨-, hco⟩ | ⟨r, insn, f, hex, -⟩ := run_step h
    · rw [hco]
    · obtain ⟨-, -, hsa⟩ | ⟨-, hco⟩ | ⟨-, hr⟩ := (execute_effect hex).events
      · exact hsa.addressMap
      · rw [hco]
        rfl
      · exact eventReturn_addressMap hr
  | deliverPending =>
    obtain rfl := some.inj h
    simp only [deliverPending]
    repeat' split
    all_goals rfl
  | eventReturn =>
    obtain rfl := some.inj h
    cases hr : s.core.eventReturn with
    | none => rfl
    | some core => exact eventReturn_addressMap hr
  | postTimerInterrupt | postDeviceInterrupt | setHalted _ | bindHeapProcess _ =>
    obtain rfl := some.inj h
    rfl
  | writeSyscallResult re v =>
    obtain rfl := some.inj h
    cases hs : s.core.savedEventContexts with
    | nil =>
      rw [writeSyscallResult_nil hs]
      rfl
    | cons sa rest =>
      rw [writeSyscallResult_eq hs]
      rfl
  | enableProtectedContext =>
    obtain h | rfl := tryCore_eq_some h
    · simp only [enableProtectedContext, eq_ok] at h
      obtain ⟨_, ⟨-, rfl⟩, hco, -⟩ := h
      rw [← hco]
    · rfl
  | admitPointerProgram p co sta st =>
    obtain h | rfl := tryCore_eq_some h
    · exact (Anka64Core.admitPointerProgram_rewrites _ _ _ _ _ h).sameEvents.addressMap
    · rfl
  | retireAllPointerFrames => exact hop.elim
  | commitHeapEvent pe pointer status m =>
    obtain h | rfl := tryCore_eq_some h
    · simp only [eq_ok] at h
      obtain ⟨core, hcm, rfl, -⟩ := h
      obtain ⟨_, _, _, -, -, -, -, -, heq⟩ := commitHeapEvent_eq_ok hcm
      rw [heq]
    · rfl
  | fabric op =>
    obtain ⟨fabric, -, rfl⟩ := map_eq_some_iff.mp h
    rfl

/-- **Every faithful call.** -/
theorem run_frameMove (hs : s.core.Settled) (hop : s.Faithful op) (h : s.run op = some s') :
    s'.core.Settled ∧
      FrameMove s.core.addressMap s.core.program s.fabric (s.advances op) s'.core.program
        s'.fabric := by
  cases op with
  | step => exact step_frameMove hs h
  | deliverPending =>
    obtain rfl := some.inj h
    obtain ⟨hse, hp⟩ := deliverPending_settled hs
    exact ⟨hse, frameMove_of_kept rfl hp.kept rfl⟩
  | eventReturn =>
    obtain rfl := some.inj h
    cases hr : s.core.eventReturn with
    | none => exact ⟨hs, frameMove_of_kept rfl (.refl _) rfl⟩
    | some core =>
      obtain ⟨hse, hp⟩ := eventReturn_settled hs hr
      exact ⟨hse, frameMove_of_kept rfl hp.kept rfl⟩
  | postTimerInterrupt | postDeviceInterrupt | setHalted _ | bindHeapProcess _ =>
    obtain rfl := some.inj h
    exact ⟨{ hs with }, frameMove_of_kept rfl (.refl _) rfl⟩
  | writeSyscallResult r v =>
    obtain rfl := some.inj h
    obtain ⟨hse, hp⟩ := writeSyscallResult_settled hs r v
    exact ⟨hse, frameMove_of_kept rfl hp rfl⟩
  | enableProtectedContext =>
    obtain h | rfl := tryCore_eq_some h
    · simp only [enableProtectedContext, eq_ok] at h
      obtain ⟨_, ⟨-, rfl⟩, hco, hfa⟩ := h
      refine ⟨hco ▸ { hs with guarded := fun _ => rfl }, frameMove_of_kept rfl ?_ ?_⟩
      · exact hco ▸ .refl _
      · exact hfa ▸ rfl
    · exact ⟨hs, frameMove_of_kept rfl (.refl _) rfl⟩
  | admitPointerProgram p co stackLow sta =>
    obtain h | rfl := tryCore_eq_some h
    · have hsa : s.core.SameEvents s'.core :=
        (Anka64Core.admitPointerProgram_rewrites _ _ _ _ _ h).sameEvents
      obtain ⟨hnone, hev, hg, hre, -, hrt, hlow, st, hst, rfl, rfl, rfl, rfl,
        hcursor, hpend, hact, hsp, hmapped, hcode⟩ := Anka64Core.admitPointerProgram_frames h
      have hn : s.core.savedEventContexts = [] := by
        have := hs.depth
        rw [hev] at this
        exact length_eq_zero_iff.mp this.symm
      have hn' := hsa.saved.trans hn
      refine ⟨⟨by simp [hsa.frames, hev, hn'], fun _ => hg, fun hne => absurd hn' hne,
        by simp [hn']⟩, ?_⟩
      have had : s.advances (.admitPointerProgram st.program st.codeBase st.stackLow
          st.stackHigh) = none := ite_self _
      rw [had, program_of_nil hn, program_of_nil hn']
      exact .admitted st hnone hst hop hcursor hlow hpend hact (hsp.trans hcursor.symm)
        hmapped hcode hre.spares
    · exact ⟨hs, frameMove_of_kept rfl (.refl _) rfl⟩
  | retireAllPointerFrames => exact hop.elim
  | commitHeapEvent pe pointer status m =>
    obtain h | rfl := tryCore_eq_some h
    · obtain ⟨core, hcm, hs'⟩ := bind_eq_ok.mp h
      simp only [eq_ok] at hs'
      obtain ⟨rfl, hfa⟩ := hs'
      obtain ⟨hse, hp⟩ := commitHeapEvent_settled hs hcm
      exact ⟨hse, frameMove_of_kept rfl hp.kept (hfa ▸ rfl)⟩
    · exact ⟨hs, frameMove_of_kept rfl (.refl _) rfl⟩
  | fabric op =>
    obtain ⟨fabric, hste, rfl⟩ := map_eq_some_iff.mp h
    have had : s.advances (.fabric op) = none := ite_self _
    rw [had]
    refine ⟨hs, .kept (.refl _) ?_⟩
    refine (step_calls hste).spares ?_
    rintro scope ⟨a, ha, rfl⟩ hca
    have := all_eq_true.mp hop.1 a ha
    simp [FabricOp.leaves_of_calls hca] at this

end System

end Anka
