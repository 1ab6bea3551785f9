import Anka.Core.Machine

/-!
# Privilege is gained through events only

* `privilege_only_through_events`: in every state of every run, the core is in supervisor mode
  exactly inside an event, its two event stacks have equal headers, only the bottom event returns to
  user mode, interrupts are masked in supervisor mode, and a return resumes where the matching event
  was entered.

The invariant is `Nested`: every event but the bottom one was entered in supervisor mode, hence with
interrupts masked. So a return into a handler never unmasks them; only the return to user mode can.
-/

namespace Anka

open Rust Res List Option

/-- A stack of events, the latest first: the bottom one interrupted user code, every other one a
handler, in supervisor mode and with interrupts masked. -/
def Nested : List EventFrame → Prop
  | [] => True
  | [bottom] => bottom.returnPrivilege = .user
  | header :: below :: rest =>
    header.returnPrivilege = .supervisor ∧ header.interruptsWereEnabled = false ∧
      Nested (below :: rest)

theorem Nested.user_iff_bottom {fr : List EventFrame} (h : Nested fr) {i : Nat}
    {header : EventFrame} (hi : fr[i]? = some header) :
    header.returnPrivilege = .user ↔ i + 1 = fr.length := by
  induction fr generalizing i with
  | nil => simp at hi
  | cons top rest ih =>
    cases rest with
    | nil =>
      cases i with
      | zero =>
        obtain rfl := some.inj hi
        exact ⟨fun _ => rfl, fun _ => h⟩
      | succ i => simp at hi
    | cons b rest =>
      cases i with
      | zero =>
        obtain rfl := some.inj hi
        rw [h.1]
        simp
      | succ i =>
        rw [ih h.2.2 hi, length_cons (a := top)]
        omega

namespace Control

/-- The control state is that of a core which entered supervisor mode through events only. -/
structure EventDriven (k : Control) : Prop where
  supervisor : k.privilege = .supervisor ↔ k.eventFrames ≠ []
  headers : k.eventFrames = k.saved.map (·.1)
  nested : Nested k.eventFrames
  masked : k.privilege = .supervisor → k.interruptsEnabled = false

variable {k k' : Control}

theorem eventDriven_enter {c : Anka64Core} (h : EventDriven c.control) (own : Bool) (r : Nat)
    (ca : EventCause) : EventDriven (c.control.enter own (c.headerAt r ca)) where
  supervisor := by simp [enter]
  headers := by
    simp only [enter, map_cons]
    rw [← h.headers]
  nested := by
    have hn := h.nested
    cases hf : c.control.eventFrames with
    | nil =>
      have hu : c.control.privilege ≠ .supervisor := fun hs => h.supervisor.mp hs hf
      simp only [enter, hf, Nested, Anka64Core.headerAt]
      cases hp : c.privilege with
      | user => rfl
      | supervisor => exact absurd hp hu
    | cons b rest =>
      have hs : c.control.privilege = .supervisor := h.supervisor.mpr (by simp [hf])
      rw [hf] at hn
      simp only [enter, hf]
      exact ⟨hs, h.masked hs, hn⟩
  masked := fun _ => rfl

theorem eventDriven_leave {own : Bool} {header : EventFrame} (h : EventDriven k)
    (hl : k.Leaves own header k') : EventDriven k' := by
  have hn := h.nested
  rw [hl.frames] at hn
  obtain ⟨r, hsa, -, -⟩ := hl.saved
  have hh : k'.eventFrames = k'.saved.map (·.1) := by
    have ha := h.headers
    rw [hl.frames, hsa, map_cons] at ha
    exact (List.cons.inj ha).2
  cases hf : k'.eventFrames with
  | nil =>
    rw [hf] at hn
    have hu : k'.privilege = .user := hl.privilege.trans hn
    exact ⟨by simp [hu, hf], hh, by rw [hf]; trivial, by simp [hu]⟩
  | cons b rest =>
    rw [hf] at hn
    have hs : k'.privilege = .supervisor := hl.privilege.trans hn.1
    exact ⟨by simp [hs, hf], hh, by rw [hf]; exact hn.2.2, fun _ => hl.interrupts.trans hn.2.1⟩

end Control

namespace Observed

open Anka64Core

variable {own : Anka64Core → Bool} {o o' : Observed}

/-- The core is event driven, and its events resume where the trace saw them entered. -/
structure Privileged (o : Observed) : Prop where
  driven : o.system.core.control.EventDriven
  resumes : o.system.core.eventFrames.map (·.returnPc) = o.trace.resumes

theorem Initial.privileged (h : o.Initial) : o.Privileged where
  driven :=
    { supervisor := by simp [Anka64Core.control, h.privilege, h.frames]
      headers := by simp [Anka64Core.control, h.frames, h.saved]
      nested := by simp [Anka64Core.control, h.frames, Nested]
      masked := by simp [Anka64Core.control, h.privilege] }
  resumes := by simp [h.frames, h.trace, ControlTrace.empty]

theorem Privileged.step {op : CoreOp} (h : o.Privileged) (hs : o.step own op = some o') :
    o'.Privileged := by
  obtain ⟨s', hru, rfl⟩ := map_eq_some_iff.mp hs
  have hm := System.run_moves hru
  have hr := h.resumes
  generalize o.system.observe op = seen at hm
  cases hm with
  | quiet hk =>
    refine ⟨by rw [show s'.core.control = _ from hk]; exact h.driven, ?_⟩
    exact (congrArg (fun k : Control => k.eventFrames.map (·.returnPc)) hk).trans hr
  | call site hc | ret auth hst hc =>
    refine ⟨?_, ?_⟩
    · rw [hc]
      exact ⟨h.driven.supervisor, h.driven.headers, h.driven.nested, h.driven.masked⟩
    · exact (congrArg (fun k : Control => k.eventFrames.map (·.returnPc)) hc).trans hr
  | enter r c hc =>
    refine ⟨by rw [hc]; exact Control.eventDriven_enter h.driven _ r c, ?_⟩
    have hf := congrArg (fun k : Control => k.eventFrames.map (·.returnPc)) hc
    refine hf.trans ?_
    simp only [ControlTrace.observe]
    split <;> exact congrArg (r :: ·) hr
  | leave header hl hp =>
    refine ⟨Control.eventDriven_leave h.driven hl, ?_⟩
    have hf : o.system.core.eventFrames = header :: s'.core.eventFrames := hl.frames
    rw [hf, map_cons] at hr
    simp only [ControlTrace.observe]
    split <;> simp [← hr]

theorem Reachable.privileged (h : Reachable own o) : o.Privileged :=
  Machine.Reachable.invariant (fun _ h0 => h0.privileged) (fun _ _ _ h hs => h.step hs) h

theorem Privileged.leaves_resume {header : EventFrame} {own : Bool} {k' : Control}
    (h : o.Privileged) (hl : o.system.core.control.Leaves own header k') :
    o.trace.resumes.head? = some header.returnPc := by
  rw [← h.resumes, show o.system.core.eventFrames = _ from hl.frames]
  rfl

/-- **Privilege is never gained except through an event.** In every state of every run of
instructions, interrupts and kernel calls from a core in user mode outside any event: supervisor
mode is being inside an event; the public headers are those of the private contexts; only the bottom
event returns to user mode; interrupts are masked in supervisor mode; and both ways out of an event,
ERET and `event_return`, resume at the address the matching event recorded. -/
theorem privilege_only_through_events (h : Reachable own o) :
    let c := o.system.core
    (c.privilege = .supervisor ↔ c.eventFrames ≠ []) ∧
    c.eventFrames.length = c.savedEventContexts.length ∧
    (∀ i : Nat, c.eventFrames[i]? = (c.savedEventContexts[i]?).map (·.header)) ∧
    (∀ (i : Nat) (header : EventFrame), c.eventFrames[i]? = some header →
      (header.returnPrivilege = .user ↔ i + 1 = c.eventFrames.length)) ∧
    (c.privilege = .supervisor → c.interruptsEnabled = false) ∧
    (∀ insn f1 c' f', c.fetch o.system.fabric = ok (insn, f1) → insn.desc.semantics = .eret →
      c.step o.system.fabric = ok (.continue, c', f') →
      o.trace.resumes.head? = some c'.pc) ∧
    (∀ c', c.eventReturn = some c' → o.trace.resumes.head? = some c'.pc) := by
  have hp := h.privileged
  have hh : o.system.core.eventFrames = o.system.core.savedEventContexts.map (·.header) := by
    have ha := hp.driven.headers
    simpa [Anka64Core.control, SavedEventContext.control, Function.comp_def] using ha
  refine ⟨hp.driven.supervisor, by rw [hh, length_map], ?_, ?_, hp.driven.masked, ?_, ?_⟩
  · intro i
    rw [hh, getElem?_map]
  · intro i header hi
    exact hp.driven.nested.user_iff_bottom hi
  · intro insn f1 c' f' hf her hs
    obtain ⟨-, hha, -, -⟩ | ⟨-, insn', f2, hf', hex⟩ := step_eq_ok hs
    · cases hha
    · obtain ⟨rfl, rfl⟩ := Prod.mk.inj (ok.inj (hf.symm.trans hf'))
      have hef := execute_control hex
      rw [her] at hef
      obtain ⟨header, hl, hpc⟩ := hef
      rw [hpc]
      exact hp.leaves_resume hl
  · intro c' hr
    obtain ⟨header, hl, hpc⟩ := eventReturn_control hr
    rw [hpc]
    exact hp.leaves_resume hl

/-- A timer interrupt of user code that is at address 8: the core is in supervisor mode, masked, and
will resume there. -/
theorem privilege_only_through_events_interrupted : ∃ o : Observed,
    Reachable (fun _ => true) o ∧ o.system.core.eventFrames ≠ [] ∧
    o.system.core.privilege = .supervisor ∧ o.system.core.interruptsEnabled = false ∧
    ∀ c', o.system.core.eventReturn = some c' → some c'.pc = some 8 := by
  have hru : Fabric.leadsTo 16 [] (fun f =>
        (Machine.replay (step fun _ => true) (fun _ _ => True) [.postTimerInterrupt,
          .deliverPending]
          ⟨⟨{ Anka64Core.new 1 ⟨0⟩ ⟨0⟩ with pc := 8 }, f⟩, .empty⟩).any fun o =>
            !o.system.core.eventFrames.isEmpty && decide (o.trace.resumes = [8])) = true := by
    decide +kernel
  obtain ⟨o, hr, ho⟩ := exists_of_replay ⟨rfl, rfl, rfl, rfl⟩ hru
  rw [Bool.and_eq_true, decide_eq_true_eq] at ho
  have hf : o.system.core.eventFrames ≠ [] := by simpa using ho.1
  obtain ⟨hs, -, -, -, hm, -, hre⟩ := privilege_only_through_events hr
  refine ⟨o, hr, hf, hs.mpr hf, hm (hs.mpr hf), ?_⟩
  intro c' hc'
  rw [← hre c' hc', ho.2]
  rfl

end Observed

end Anka
