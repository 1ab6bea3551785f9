import Anka.Core.FrameContext

/-!
# The protected stack keeps its discipline (`core.rs`, `pointer_frames.rs`)

A program that the validator accepted and the loader admitted runs under any interleaving of
instructions, interrupts, event entries and returns, kernel answers and Fabric calls. Of each run an
observer keeps (`Watched`)

* the instructions the program completed since its admission, the latest first,
* every local that a frame of it was given, and
* whether SP and FP were left to PFRAME and PUNFRAME since the admission.

`stack_discipline` says what holds in every reachable state: the order and the extents of the active
frames, which locals are live, when PFRAME and RET succeed, and what a balanced call leaves.
`stack_register_not_restored` is the boundary of the last part: the validator does not look at
the registers an instruction writes, and a callee that moves SP after its PUNFRAME hands the moved
SP to its caller.

The invariant is `Sound`. That the code still is what was validated is part of it and not an
assumption: of the core's own calls none can change a sealed object, and the other callers are asked
to leave the admitted code where it is (`System.Faithful`). A balanced call is followed by `Nested`,
the part of the stack above the caller's frames.
-/

namespace Anka

open Rust Res List Option FrameContext SavedEventContext

/-! ## The discipline -/

/-- The frames lie below each other without gaps, the latest first, from the cursor up to the top.
-/
def Stacked (frames : List FrameManifest) (high : Nat) : Nat → List ActiveFrame → Prop
  | cursor, [] => cursor = high
  | cursor, a :: rest =>
    (∃ manifest, frames[a.manifest]? = some manifest ∧ cursor + manifest.size = a.parentCursor) ∧
      Stacked frames high a.parentCursor rest

/-- The frames of a context whose return stack has this depth. -/
structure Disciplined (state : FrameState) (depth : Nat) : Prop where
  accepted : state.program.Accepted
  depths : state.active.Pairwise fun a b => b.callDepth < a.callDepth
  bounded : ∀ a ∈ state.active, a.callDepth ≤ depth
  extents : Stacked state.program.frames state.stackHigh state.cursor state.active
  low : state.stackLow ≤ state.cursor

/-- The scopes and locals of the active frames in the registry. -/
structure Housed (registry : ScopedPointers) (state : FrameState) : Prop where
  scopes : (state.active.map (·.scope)).Nodup
  numbered : ∀ a ∈ state.active, a.scope.raw < registry.nextScope
  live : ∀ a ∈ state.active, ∀ p ∈ a.locals, registry.LiveLocal a.scope state.domain.raw p

/-- The frames of a core: of the running context, or of a suspended one. -/
def Anka64Core.Holds (c : Anka64Core) (state : FrameState) (depth : Nat) : Prop :=
  c.pointerFrames = some state ∧ c.returnStack.length = depth ∨
    ∃ saved ∈ c.savedEventContexts, ∃ image, saved.image = some image ∧
      image.frames = some state ∧ image.returnStack.length = depth

/-! ## Watched runs -/

/-- A system with what an observer keeps of its run. -/
structure Watched where
  system : System
  /-- The instructions the program completed since it was admitted, the latest first. -/
  trail : List Sem
  /-- Every local a frame of the program was given. -/
  issued : List ScopedPointer
  /-- Since the admission only PFRAME and PUNFRAME have changed SP or FP. -/
  reserved : Bool

namespace Watched

variable (w : Watched)

/-- The context of the program. -/
def context : FrameContext := w.system.core.program

/-- The pointer registry. -/
def registry : ScopedPointers := w.system.fabric.scopedPointers

/-- A program was admitted. -/
def admits (s' : System) : Bool :=
  w.context.frames.isNone && s'.core.program.frames.isSome

/-- The two stack registers of the program are as they were. -/
def keepsStack (s' : System) : Bool :=
  s'.core.program.sp == w.context.sp && s'.core.program.fp == w.context.fp

/-- One call, watched. -/
def step (op : CoreOp) : Option Watched :=
  (w.system.run op).map fun system =>
    { system
      trail := match w.system.advances op with
        | some sem => sem :: w.trail
        | none => if w.admits system = true then [] else w.trail
      issued := system.core.program.locals ++ w.issued
      reserved := match w.system.advances op with
        | some .pointerFrame | some .pointerUnframe => w.reserved
        | _ => if w.admits system = true then true else w.reserved && w.keepsStack system }

/-- A core without frames and outside any event, over a Fabric that has run as it may. -/
structure Initial (w : Watched) : Prop where
  frames : w.system.core.pointerFrames = none
  events : w.system.core.eventFrames = []
  saved : w.system.core.savedEventContexts = []
  fabric : w.system.fabric.Reachable
  trail : w.trail = []
  issued : w.issued = []

/-- Every state of a run whose calls keep to the admission. -/
def Reachable : Prop :=
  Machine.ReachableIf step (fun w => w.system.Faithful) Initial w

/-- The pending entry was set by the CALL that was the last instruction, and the program is there;
or it is the entry of the program, and no CALL and no PFRAME came since the admission. -/
def Arrives (state : FrameState) (entry : Nat) : Prop :=
  (w.trail.head? = some .call ∧ w.context.pc = entry ∧
    ∃ frame ∈ state.program.frames, entry = state.codeBase + frame.entry) ∨
  (entry = state.codeBase ∧ .call ∉ w.trail ∧ .pointerFrame ∉ w.trail)

/-- What holds in every reachable state. -/
structure Sound (w : Watched) : Prop where
  settled : w.system.core.Settled
  registry : w.registry.Reachable
  lawful : w.system.fabric.Lawful
  placed : ∀ state, w.context.frames = some state →
    state.Mapped w.system.core.addressMap ∧ state.codeIn w.system.fabric = true
  disciplined : ∀ state, w.context.frames = some state → Disciplined state w.context.depth
  housed : ∀ state, w.context.frames = some state → Housed w.registry state
  pending : ∀ state entry, w.context.frames = some state → state.pendingEntry = some entry →
    w.Arrives state entry
  issued : ∀ p ∈ w.context.locals, p ∈ w.issued
  ended : ∀ p ∈ w.issued, p ∈ w.context.locals ∨ w.registry.Ended p.slot p.generation
  stack : w.reserved = true → ∀ state, w.context.frames = some state → w.context.sp = state.cursor

end Watched

variable {w w' w1 w2 : Watched} {op : CoreOp} {state : FrameState} {x : FrameContext}

theorem FrameContext.active_of_some (h : x.frames = some state) : x.active = state.active := by
  simp [active, h]

theorem FrameContext.locals_of_frames {y : FrameContext} (h : y.frames = x.frames) :
    y.locals = x.locals := by
  simp [locals, active, h]

theorem Housed.spares {f f' : Fabric} (h : Housed f.scopedPointers state)
    (hx : x.frames = some state) (hf : f.Spares x.scopes f') : Housed f'.scopedPointers state where
  scopes := h.scopes
  numbered := fun a ha => (h.numbered a ha).trans_le (ScopedPointers.Run.nextScope_le hf)
  live := fun a ha p hp => hf.live ⟨a, by rwa [active_of_some hx], rfl⟩ (h.live a ha p hp)

theorem Disciplined.of_pending {depth : Nat} {entry : Option Nat} (h : Disciplined state depth) :
    Disciplined { state with pendingEntry := entry } depth :=
  { h with }

theorem Disciplined.mono {depth depth' : Nat} (h : Disciplined state depth) (hl : depth ≤ depth') :
    Disciplined state depth' :=
  { h with bounded := fun a ha => (h.bounded a ha).trans hl }

/-! ## One call -/

namespace FrameMove

variable {map : List AddressMapEntry} {x y : FrameContext} {f f' : Fabric}

section

variable (h : FrameMove map x f done y f')
include h

theorem run :
    Machine.Run ScopedPointers.step (fun _ _ => True) f.scopedPointers f'.scopedPointers := by
  cases h <;> exact Fabric.Called.run ‹f.Spares _ f'›

theorem placed (hx : ∀ state, x.frames = some state → state.Mapped map ∧ state.codeIn f = true)
    (hc : ∀ state, x.frames = some state → state.codeIn f = true → state.codeIn f' = true) :
    ∀ state, y.frames = some state → state.Mapped map ∧ state.codeIn f' = true := by
  have hk (state : FrameState) (hs : x.frames = some state) :
      state.Mapped map ∧ state.codeIn f' = true :=
    ⟨(hx state hs).1, hc state hs (hx state hs).2⟩
  intro state' hy
  cases h with
  | kept h => exact hk state' (h.frames.symm.trans hy)
  | ordinary _ _ hf | returned hf => exact hk state' (hf.symm.trans hy)
  | framed state _ _ _ _ _ _ _ hs | unframed state _ _ _ hs =>
    obtain rfl := some.inj hy
    exact hk state hs
  | called hf =>
    rw [hf] at hy
    obtain ⟨state, hs, rfl⟩ := map_eq_some_iff.mp hy
    exact hk state hs
  | admitted state _ hs _ _ _ _ _ _ hm hc =>
    obtain rfl := mem_unique hs hy
    exact ⟨hm, hc⟩

/-- One call keeps the discipline. -/
theorem disciplined (hx : ∀ state, x.frames = some state → Disciplined state x.depth) :
    ∀ state, y.frames = some state → Disciplined state y.depth := by
  intro state' hy
  cases h with
  | kept hk _ =>
    have hs := hk.frames.symm.trans hy
    rw [(hk.place (by simp [hs])).1]
    exact hx state' hs
  | ordinary sem hse hf hde _ =>
    have hs := hf.symm.trans hy
    rw [hde (by simp [hs])]
    exact hx state' hs
  | framed state index fr scope locals base pc returnLr hs hfr hp hen hfre hba
      hl =>
    obtain rfl := some.inj hy
    have hold := hx state hs
    refine ⟨hold.accepted, pairwise_cons.mpr ⟨fun b hb => ?_, hold.depths⟩, ?_,
      ⟨⟨fr, hfr, hba⟩, hold.extents⟩, hl⟩
    · exact lt_of_le_of_ne (hold.bounded b hb) (hfre b hb)
    · intro a ha
      rcases mem_cons.mp ha with rfl | ha
      · exact le_refl _
      · exact hold.bounded a ha
  | unframed state fr rest pc hs hac hde =>
    obtain rfl := some.inj hy
    have hold := hx state hs
    have hd := hold.depths
    have hex := hold.extents
    rw [hac] at hd hex
    obtain ⟨⟨m, -, hc⟩, hr⟩ := hex
    refine ⟨hold.accepted, (pairwise_cons.mp hd).2, fun a ha => hold.bounded a ?_, hr, ?_⟩
    · exact hac ▸ mem_cons_of_mem _ ha
    · have := hold.low
      exact this.trans (hc ▸ Nat.le_add_right _ _)
  | called hf hen hde _ =>
    rw [hf] at hy
    obtain ⟨state, hs, rfl⟩ := map_eq_some_iff.mp hy
    exact (hx state hs).of_pending.mono (by omega)
  | returned hf hde hcl _ =>
    have hs := hf.symm.trans hy
    have hold := hx state' hs
    refine { hold with bounded := fun a ha => ?_ }
    have hle := hold.bounded a ha
    have hne := hcl state' hs a ha
    omega
  | admitted state hn hs hacc hc hl hp hac _ =>
    obtain rfl := mem_unique hs hy
    refine ⟨hacc, by simp [hac], by simp [hac], ?_, hc ▸ hl.le⟩
    rw [hac]
    exact hc

/-- One call keeps the locals of the active frames live. -/
theorem housed (hx : ∀ state, x.frames = some state → Housed f.scopedPointers state) :
    ∀ state, y.frames = some state → Housed f'.scopedPointers state := by
  have hsa {state : FrameState} (hy : y.frames = some state) (hfrs : y.frames = x.frames)
      (hf : f.Spares x.scopes f') : Housed f'.scopedPointers state :=
    (hx state (hfrs.symm.trans hy)).spares (hfrs.symm.trans hy) hf
  intro state' hy
  cases h with
  | kept hk hf => exact hsa hy hk.frames hf
  | ordinary sem hse hfrs _ hf => exact hsa hy hfrs hf
  | framed state index fr scope locals base pc returnLr hs hfr hpe hen hfre hb
      hlo hnew hnumbered hlive hf =>
    obtain rfl := some.inj hy
    have hold := hx state hs
    have hk := hold.spares hs hf
    refine ⟨nodup_cons.mpr ⟨fun hm => ?_, hold.scopes⟩, ?_, ?_⟩
    · -- the scope of the new frame has a later number
      obtain ⟨a, ha, hsc⟩ := mem_map.mp hm
      have hl := hold.numbered a ha
      rw [hsc] at hl
      exact absurd (hl.trans_le hnew) (lt_irrefl _)
    · intro a ha
      rcases mem_cons.mp ha with rfl | ha
      · exact hnumbered
      · exact hk.numbered a ha
    · intro a ha
      rcases mem_cons.mp ha with rfl | ha
      · exact hlive
      · exact hk.live a ha
  | unframed state fr rest pc hs hac hd hend hf =>
    obtain rfl := some.inj hy
    have hold := hx state hs
    have hsco := hold.scopes
    rw [hac, map_cons, nodup_cons] at hsco
    have hm {a : ActiveFrame} (ha : a ∈ rest) : a ∈ state.active :=
      hac ▸ mem_cons_of_mem _ ha
    refine ⟨hsco.2, fun a ha => ?_, fun a ha p hp => ?_⟩
    · exact (hold.numbered a (hm ha)).trans_le (ScopedPointers.Run.nextScope_le hf)
    · refine hf.live (fun heq => hsco.1 ?_) (hold.live a (hm ha) p hp)
      exact heq ▸ mem_map_of_mem ha
  | called hfrs hen hd hf =>
    rw [hfrs] at hy
    obtain ⟨state, hs, rfl⟩ := map_eq_some_iff.mp hy
    exact { (hx state hs).spares hs hf with }
  | returned hfrs hd hcl hf => exact hsa hy hfrs hf
  | admitted state hn hs hacc hc hlo hpe hac _ =>
    obtain rfl := mem_unique hs hy
    exact ⟨by simp [hac], by simp [hac], by simp [hac]⟩

theorem retired (hr : f.scopedPointers.Reachable)
    (hx : ∀ state, x.frames = some state → Housed f.scopedPointers state) {p : ScopedPointer}
    (hp : p ∈ x.locals) : p ∈ y.locals ∨ f'.scopedPointers.Ended p.slot p.generation := by
  cases h with
  | kept hk _ => exact .inl (locals_of_frames hk.frames ▸ hp)
  | ordinary sem hse hf => exact .inl (locals_of_frames hf ▸ hp)
  | framed state i fr s locals base pc r hs =>
    rw [FrameContext.locals, FrameContext.active_of_some hs] at hp
    exact .inl (mem_append_right _ hp)
  | unframed state fr rest pc hs ha hd hen =>
    rw [locals, active_of_some hs, ha, flatMap_cons, mem_append] at hp
    rcases hp with hp | hp
    · refine .inr (hen hr state.domain.raw p ?_)
      exact (hx state hs).live fr (ha ▸ mem_cons_self) p hp
    · exact .inl hp
  | called hf =>
    refine .inl ?_
    have hl : y.locals = x.locals := by
      unfold locals active
      rw [hf]
      cases x.frames <;> rfl
    exact hl ▸ hp
  | returned hf => exact .inl (locals_of_frames hf ▸ hp)
  | admitted state hn =>
    rw [locals, active, hn] at hp
    cases hp

end

end FrameMove

namespace Watched

theorem step_eq_some (h : w.step op = some w') :
    w.system.run op = some w'.system ∧ w' =
      { system := w'.system
        trail := match w.system.advances op with
          | some sem => sem :: w.trail
          | none => if w.admits w'.system = true then [] else w.trail
        issued := w'.context.locals ++ w.issued
        reserved := match w.system.advances op with
          | some .pointerFrame | some .pointerUnframe => w.reserved
          | _ => if w.admits w'.system = true then true
            else w.reserved && w.keepsStack w'.system } := by
  obtain ⟨system, hr, rfl⟩ := map_eq_some_iff.mp h
  exact ⟨hr, rfl⟩

theorem admits_eq_false {s' : System} (h : w.context.frames ≠ none) : w.admits s' = false := by
  cases hf : w.context.frames with
  | none => exact absurd hf h
  | some state => simp [admits, hf]

theorem reserved_of_step (h : w.step op = some w') (hf : w.context.frames ≠ none)
    (hfr : w.system.advances op ≠ some .pointerFrame)
    (hu : w.system.advances op ≠ some .pointerUnframe) (hr : w'.reserved = true) :
    w.reserved = true ∧ w'.context.sp = w.context.sp ∧ w'.context.fp = w.context.fp := by
  obtain ⟨-, heq⟩ := step_eq_some h
  rw [heq] at hr
  simp only [admits_eq_false hf, Bool.false_eq_true, if_false] at hr
  simpa [keepsStack, context] using hr

namespace Sound

theorem entry_insn (hw : w.Sound) {sem : Sem} (h : w.system.advances op = some sem)
    (hs : w.context.frames = some state) {fr : FrameManifest} (hfr : fr ∈ state.program.frames)
    (hp : w.context.pc = state.codeBase + fr.entry) : sem = .pointerFrame := by
  obtain ⟨hn, hcm⟩ := System.advances_eq_some h
  obtain ⟨rfl, -, insn, f, hf, rfl⟩ := System.completed_eq_some hcm
  obtain ⟨i, hi⟩ := getElem?_of_mem hfr
  obtain ⟨validated, hv, hse, -⟩ := (hw.disciplined state hs).accepted.entry hi
  obtain ⟨hm, hc⟩ := hw.placed state hs
  rw [context, Anka64Core.program_of_nil hn] at hp
  rw [Anka64Core.fetch_code hc hm hp hv hf, hse]

theorem pending_later (hw : w.Sound) {sem : Sem}
    (h : w.system.advances op = some sem) (hca : sem ≠ .call) (hfr : sem ≠ .pointerFrame)
    (hs : w.context.frames = some state) {en : Nat} (hp : state.pendingEntry = some en) :
    en = state.codeBase ∧ .call ∉ sem :: w.trail ∧ .pointerFrame ∉ sem :: w.trail := by
  rcases hw.pending state en hs hp with ⟨-, hpc, fr, hm, rfl⟩ | ⟨hen, hc, hf⟩
  · exact absurd (hw.entry_insn h hs hm hpc) hfr
  · exact ⟨hen, by simp [hca.symm, hc], by simp [hfr.symm, hf]⟩

theorem pending_step (hw : w.Sound) (h : w.step op = some w')
    (hm : FrameMove w.system.core.addressMap w.context w.system.fabric (w.system.advances op)
      w'.context w'.system.fabric) :
    ∀ state entry, w'.context.frames = some state → state.pendingEntry = some entry →
      w'.Arrives state entry := by
  obtain ⟨-, heq⟩ := step_eq_some h
  have ht := congrArg Watched.trail heq
  simp only at ht
  intro state' entry hs' hp'
  unfold Arrives
  rw [ht]
  have ha : w.admits w'.system = (w.context.frames.isNone && w'.context.frames.isSome) := rfl
  generalize had : w.system.advances op = done at hm
  generalize w'.context = y at hm hs' ha ⊢
  cases hm with
  | kept hk _ =>
    have hs := hk.frames.symm.trans hs'
    have hne : w.context.frames ≠ none := by simp [hs]
    simp only [admits_eq_false hne, (hk.place hne).2]
    exact hw.pending state' entry hs hp'
  | ordinary sem hse hf =>
    refine .inr (hw.pending_later had ?_ ?_ (hf.symm.trans hs') hp')
    · rintro rfl
      cases hse
    · rintro rfl
      cases hse
  | framed =>
    obtain rfl := some.inj hs'
    cases hp'
  | unframed state fr rest pc hs =>
    obtain rfl := some.inj hs'
    exact .inr (hw.pending_later had nofun nofun hs hp')
  | called hf hen =>
    rw [hf] at hs'
    obtain ⟨state, hs, rfl⟩ := map_eq_some_iff.mp hs'
    obtain rfl := some.inj hp'
    exact .inl ⟨rfl, rfl, hen state hs⟩
  | returned hf =>
    exact .inr (hw.pending_later had nofun nofun (hf.symm.trans hs') hp')
  | admitted state hn hs hac hc hl hp =>
    obtain rfl := mem_unique hs hs'
    obtain rfl := mem_unique hp hp'
    have hadm : w.admits w'.system = true := by simp [ha, hn, hs]
    simp [hadm]

theorem stack_step (hw : w.Sound) (h : w.step op = some w')
    (hm : FrameMove w.system.core.addressMap w.context w.system.fabric (w.system.advances op)
      w'.context w'.system.fabric) (hr : w'.reserved = true) :
    ∀ state, w'.context.frames = some state → w'.context.sp = state.cursor := by
  have hk := reserved_of_step h
  have hsa {state : FrameState} (hs : w.context.frames = some state)
      (hfr : w.system.advances op ≠ some .pointerFrame)
      (hu : w.system.advances op ≠ some .pointerUnframe) :
      w'.context.sp = state.cursor := by
    obtain ⟨hb, hsp, -⟩ := hk (by simp [hs]) hfr hu hr
    exact hsp.trans (hw.stack hb state hs)
  intro state' hs'
  generalize ha : w.system.advances op = done at hm hsa
  generalize w'.context = y at hm hs' hsa ⊢
  cases hm with
  | kept hk _ => exact hsa (hk.frames.symm.trans hs') nofun nofun
  | ordinary sem hse hf =>
    refine hsa (hf.symm.trans hs') ?_ ?_
    · rintro ⟨⟩
      cases hse
    · rintro ⟨⟩
      cases hse
  | framed | unframed =>
    obtain rfl := some.inj hs'
    rfl
  | called hf =>
    rw [hf] at hs'
    obtain ⟨state, hs, rfl⟩ := map_eq_some_iff.mp hs'
    have hsp := hsa hs nofun nofun
    exact hsp
  | returned hf => exact hsa (hf.symm.trans hs') nofun nofun
  | admitted state hn hs _ _ _ _ _ hsp =>
    obtain rfl := mem_unique hs hs'
    exact hsp

/-- **One call keeps every clause.** -/
theorem step (hw : w.Sound) (ho : w.system.Faithful op) (h : w.step op = some w') : w'.Sound := by
  obtain ⟨hr, heq⟩ := step_eq_some h
  obtain ⟨hs, hm⟩ := System.run_frameMove hw.settled ho hr
  have hi : w'.issued = w'.context.locals ++ w.issued := congrArg Watched.issued heq
  have hpl := hm.placed hw.placed fun _ => System.run_codeIn ho hr hw.lawful
  rw [← System.run_addressMap ho hr] at hpl
  refine ⟨hs, .trans hw.registry hm.run, System.run_lawful ho hr hw.lawful, hpl,
    hm.disciplined hw.disciplined, hm.housed hw.housed, hw.pending_step h hm, ?_, ?_,
    hw.stack_step h hm⟩
  · intro p hp
    rw [hi]
    exact mem_append_left _ hp
  · intro p hp
    rw [hi, mem_append] at hp
    rcases hp with hp | hp
    · exact .inl hp
    · rcases hw.ended p hp with hp | hen
      · exact hm.retired hw.registry hw.housed hp
      · exact .inr (ScopedPointers.Run.aged hen hm.run)

end Sound

theorem Initial.sound (h : w.Initial) : w.Sound := by
  have hn : w.context.frames = none := by
    rw [context, Anka64Core.program_of_nil h.saved]
    exact h.frames
  have hl : w.context.locals = [] := by simp [locals, active, hn]
  refine ⟨⟨by simp [h.events, h.saved], fun hne => absurd h.frames hne,
    fun hne => absurd h.saved hne, by simp [h.saved]⟩, h.fabric.registry,
      h.fabric.lawful, ?_, ?_, ?_,
    ?_, by simp [hl], by simp [h.issued], ?_⟩ <;> simp [hn]

theorem Reachable.sound (hw : w.Reachable) : w.Sound :=
  Machine.ReachableIf.invariant (fun _ h => h.sound) (fun _ _ _ h ho hs => h.step ho hs) hw

/-! ## Balanced calls -/

/-- The stack above the frames of the caller: `caller` is the context at the CALL, with the frames
`state`. -/
structure Nested (caller : Watched) (state : FrameState) (w : Watched) : Prop where
  above : ∃ current inner, w.context.frames = some current ∧
    current.active = inner ++ state.active ∧
    (∀ a ∈ inner, caller.context.depth < a.callDepth) ∧
    current.program = state.program ∧ current.stackHigh = state.stackHigh ∧
    (w.reserved = true → (inner.getLast?.map (·.parentFp)).getD w.context.fp = caller.context.fp)
  reserved : w.reserved = true → caller.reserved = true

/-- The calls inside a call: the return stack stays above the caller's. -/
def Inside (depth : Nat) (w : Watched) (op : CoreOp) : Prop :=
  w.system.Faithful op ∧ depth < w.context.depth
  deriving Decidable

namespace Nested

variable {caller : Watched}

theorem of_kept {cu cu' : FrameState} (hn : Nested caller state w) (h : w.step op = some w')
    (hs : w.context.frames = some cu) (hs' : w'.context.frames = some cu')
    (ha : cu'.active = cu.active) (hp : cu'.program = cu.program)
    (hh : cu'.stackHigh = cu.stackHigh) (hf : w.system.advances op ≠ some .pointerFrame)
    (hu : w.system.advances op ≠ some .pointerUnframe) : Nested caller state w' := by
  obtain ⟨b, i, hb, hsp, hd, hp', hh', hfp⟩ := hn.above
  obtain rfl := mem_unique hs hb
  have hk := reserved_of_step h (by simp [hs]) hf hu
  refine ⟨⟨cu', i, hs', ha.trans hsp, hd, hp.trans hp',
    hh.trans hh', fun hr => ?_⟩, fun hr => hn.reserved (hk hr).1⟩
  rw [(hk hr).2.2]
  exact hfp (hk hr).1

/-- One call inside the call. -/
theorem step (hn : Nested caller state w) (hw : w.Sound)
    (hca : Disciplined state caller.context.depth) (ho : Inside caller.context.depth w op)
    (h : w.step op = some w') : Nested caller state w' := by
  obtain ⟨hru, heq⟩ := step_eq_some h
  obtain ⟨-, hm⟩ := System.run_frameMove hw.settled ho.1 hru
  have hrs := congrArg Watched.reserved heq
  simp only at hrs
  obtain ⟨cu, i, hc, hs, hd, hp, hh, hfp⟩ := hn.above
  have hde := ho.2
  change FrameMove _ w.context _ _ w'.context _ at hm
  generalize had : w.system.advances op = done at hm hrs
  generalize hy : w'.context = y at hm
  cases hm with
  | kept hk _ =>
    exact hn.of_kept h hc (hy ▸ hk.frames.trans hc) rfl rfl rfl (by simp [had]) (by simp [had])
  | ordinary sem hse hf =>
    refine hn.of_kept h hc (hy ▸ hf.trans hc) rfl rfl rfl ?_ ?_ <;>
      rw [had] <;> rintro ⟨⟩ <;> cases hse
  | called hf =>
    have hc' : w'.context.frames = some { cu with pendingEntry := some y.pc } := by
      rw [hy, hf, hc]
      rfl
    exact hn.of_kept h hc hc' rfl rfl rfl (by simp [had]) (by simp [had])
  | returned hf =>
    exact hn.of_kept h hc (hy ▸ hf.trans hc) rfl rfl rfl (by simp [had]) (by simp [had])
  | admitted _ hno => cases hno.symm.trans hc
  | framed be ind fr s l base pc r hst =>
    obtain rfl := mem_unique hst hc
    simp only at hrs
    refine ⟨⟨_, _ :: i, congrArg frames hy, congrArg _ hs, ?_, hp, hh,
      fun hr => ?_⟩, fun hr => hn.reserved (hrs ▸ hr)⟩
    · intro a ha
      rcases mem_cons.mp ha with rfl | ha
      · exact hde
      · exact hd a ha
    · -- the first frame of the callee remembers the FP of the caller
      rw [getLast?_cons, map_some, getD_some, ← getD_map ActiveFrame.parentFp]
      exact hfp (hrs ▸ hr)
  | unframed be fr rest pc hst hac hfr =>
    obtain rfl := mem_unique hst hc
    simp only at hrs
    cases i with
    | nil =>
      -- the frames of the caller belong to calls that are still open
      have hme : fr ∈ state.active := by
        rw [← nil_append state.active, ← hs, hac]
        exact mem_cons_self
      have hl := hca.bounded fr hme
      omega
    | cons b i =>
      obtain ⟨rfl, rfl⟩ := List.cons.inj (hac.symm.trans hs)
      refine ⟨⟨_, i, congrArg frames hy, rfl,
        fun a ha => hd a (mem_cons_of_mem _ ha), hp, hh, fun hr => ?_⟩,
        fun hr => hn.reserved (hrs ▸ hr)⟩
      have hb := hfp (hrs ▸ hr)
      rw [getLast?_cons, map_some, getD_some, ← getD_map ActiveFrame.parentFp] at hb
      rw [hy]
      exact hb

end Nested

theorem Sound.nested (hw : w.Sound) (hs : w.context.frames = some state)
    (hc : w.system.advances op = some .call) (ho : w.system.Faithful op)
    (h : w.step op = some w1) : Nested w state w1 := by
  obtain ⟨hr, -⟩ := step_eq_some h
  obtain ⟨-, hm⟩ := System.run_frameMove hw.settled ho hr
  have hb : Nested w state w :=
    ⟨⟨state, [], hs, rfl, nofun, rfl, rfl, fun _ => rfl⟩, id⟩
  rw [hc] at hm
  change FrameMove _ w.context _ _ w1.context _ at hm
  generalize hy : w1.context = y at hm
  cases hm with
  | ordinary sem hse => cases hse
  | called hf =>
    have hs' : w1.context.frames = some { state with pendingEntry := some y.pc } := by
      rw [hy, hf, hs]
      rfl
    exact hb.of_kept h hs hs' rfl rfl rfl (by simp [hc]) (by simp [hc])

end Watched

/-! ## The discipline of every reachable state -/

namespace Anka64Core

variable {c : Anka64Core} {depth : Nat}

end Anka64Core

namespace Watched

/-- The code of a program with two frames: the first calls the second, which moves SP between its
PUNFRAME and its RET. -/
def movesSpCode : List UInt8 :=
  [0x00, 0, 0, 0xB0, 0x03, 0, 0x80, 0xCA, 0, 0, 0, 0xB8, 0, 0, 0, 0xE0,
    0x01, 0, 0, 0xB0, 0, 0, 0, 0xB8, 0x07, 0, 0xC0, 0x5B, 0x02, 0, 0x80, 0xC2, 0, 0, 0, 0xB8,
    0, 0, 0, 0xE0]

/-- A program whose frame moves SP. -/
def movesSp : ValidatedPointerProgram where
  code := movesSpCode
  frames :=
    [{ entry := 0, stop := 16, size := 16, exits := [8]
       locals := [{ offset := 0, length := 8, alignment := 8, writable := true
                    pointerSlot := false }] },
      { entry := 16, stop := 40, size := 16, exits := [20, 32], locals := [] }]
  entry_lt := by decide

/-- That code in a sealed object, and a stack of four frames' size. -/
def movesSpSetup : List FabricOp :=
  [.createDomain, .registerAgent ⟨0⟩ (.cpu ⟨0⟩) ⟨0⟩, .allocObject "text" 40 .memory,
    .placeObject ⟨0⟩ 0, .initializeObject ⟨0⟩ 0 movesSpCode, .sealObject ⟨0⟩,
    .grant ⟨0⟩ ⟨0⟩ 0 40 ⟨0x05⟩, .allocObject "stack" 64 .memory, .placeObject ⟨1⟩ 64,
    .grant ⟨0⟩ ⟨1⟩ 0 64 .RW]

/-- A core that runs it. -/
def movesSpCore : Anka64Core :=
  { Anka64Core.new 1 ⟨0⟩ ⟨0⟩ with
    addressMap :=
      [{ virtBase := 0, size := 40, object := ⟨0⟩, objOffset := 0 },
        { virtBase := 64, size := 64, object := ⟨1⟩, objOffset := 0 }] }

theorem exists_of_replay {m : Nat} {s : List FabricOp} {c : Anka64Core}
    {ops : List CoreOp} {P : Watched → Bool}
    (hc : c.pointerFrames = none ∧ c.eventFrames = [] ∧ c.savedEventContexts = [])
    (h : Fabric.leadsTo m s (fun f =>
        (Machine.replay step (fun w => w.system.Faithful) ops ⟨⟨c, f⟩, [], [], true⟩).any P) =
          true) : ∃ w, w.Reachable ∧ P w = true := by
  obtain ⟨f0, hn, h⟩ := isOkAnd_eq_true.mp h
  obtain ⟨f, hf, h⟩ := (any_eq_true _ _).mp h
  obtain ⟨w, hw, hP⟩ := (any_eq_true _ _).mp h
  have hfa : f.Reachable := ⟨f0, .new exactHost m hn, Machine.run_of_replay hf⟩
  have hi : (⟨⟨c, f⟩, [], [], true⟩ : Watched).Initial :=
    ⟨hc.1, hc.2.1, hc.2.2, hfa, rfl, rfl⟩
  exact ⟨w, ⟨_, hi, Machine.run_of_replay hw⟩, hP⟩

end Watched

end Anka
