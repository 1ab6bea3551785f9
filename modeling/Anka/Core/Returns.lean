import Anka.Core.Machine

/-!
# Returns go to the matching call

CALL pushes a return authority that no register, memory or pointer instruction can reach; RET
compares LR with the top one, compares the generation of the object the CALL was in, and pops it.

* `ret_returns_to_latest_call`: in every run, a RET that succeeds goes behind the latest CALL of its
  call context that has not been returned from, and the object of that CALL has the generation it
  had then. The events of a protected context have call contexts of their own; an unprotected core
  keeps one return stack through all its events, and its handlers share the interrupted context.
* `shared_return_stack`: that they share it is visible. In a core as `new` makes it, a TRAP inside a
  called function lets the first RET of the handler return to the user's CALL, in supervisor mode.

The invariant is `Consistent`: the return stack is that of the open CALLs of the current call
context, and the stacks set aside in the saved images are those of the suspended ones.
-/

namespace Anka

open Rust Res List Option ControlTrace Anka64Core

/-- The authority CALL mints at a site. -/
def CallSite.authority (site : CallSite) : ReturnAuthority :=
  { codeObject := site.object, generation := site.generation, target := site.pc + 4 }

/-- Events that have their own call context: those of a protected context. -/
def Anka64Core.ownsCalls (c : Anka64Core) : Bool := c.protectedContextEnabled

namespace Observed

variable {o o' : Observed}

/-- The stacks of the core are the authorities of the open CALLs of the trace. -/
structure Consistent (o : Observed) : Prop where
  returns : o.system.core.control.returnStack = o.trace.calls.map CallSite.authority
  suspended : o.system.core.control.saved.filterMap (·.2) =
    o.trace.suspended.map (List.map CallSite.authority)

theorem Initial.consistent (h : o.Initial) : o.Consistent where
  returns := by simp [Anka64Core.control, h.returns, h.trace, ControlTrace.empty]
  suspended := by simp [Anka64Core.control, h.saved, h.trace, ControlTrace.empty]

theorem Consistent.step {op : CoreOp} (h : o.Consistent)
    (hste : o.step Anka64Core.ownsCalls op = some o') : o'.Consistent := by
  obtain ⟨s', hru, rfl⟩ := map_eq_some_iff.mp hste
  have hm := System.run_moves hru
  have hr := h.returns
  have hs := h.suspended
  generalize o.system.observe op = seen at hm
  cases hm with
  | quiet hk =>
    rw [← show s'.core.control = _ from hk] at hr hs
    exact ⟨hr, hs⟩
  | call site hc =>
    refine ⟨?_, by rw [hc]; exact hs⟩
    rw [hc]
    exact congrArg (site.authority :: ·) hr
  | ret auth hst hc =>
    refine ⟨?_, by rw [hc]; exact hs⟩
    have hp : s'.core.returnStack = (o.trace.calls.map CallSite.authority).tail := by
      rw [← hr, show o.system.core.control.returnStack = _ from hst, tail_cons]
    rw [hc]
    simpa [observe] using hp
  | enter re ca hc =>
    rw [show ownsCalls o.system.core = o.system.core.protectedContextEnabled from rfl]
    cases ho : o.system.core.protectedContextEnabled with
    | true =>
      -- the stack goes aside with the image, and the trace suspends the open CALLs
      refine ⟨by simp [hc, ho, Control.enter, observe], ?_⟩
      simp [hc, ho, Control.enter, observe, hr, hs]
    | false =>
      refine ⟨?_, ?_⟩
      · simpa [hc, ho, Control.enter, observe] using hr
      · simpa [hc, ho, Control.enter, observe] using hs
  | leave header hl hpc =>
    obtain ⟨r, hsa, ho, hre⟩ := hl.saved
    rw [show ownsCalls o.system.core = o.system.core.protectedContextEnabled from rfl, ← ho]
    rw [hsa] at hs
    cases r with
    | none =>
      refine ⟨?_, ?_⟩
      · simpa [observe, hre] using hr
      · simpa [observe] using hs
    | some st =>
      -- the suspended CALLs of the trace are those of the stack that comes back
      cases hca : o.trace.suspended with
      | nil => simp [hca] at hs
      | cons c rest =>
        simp only [hca, filterMap_cons, map_cons, List.cons.injEq] at hs
        refine ⟨?_, ?_⟩
        · simpa [observe, hca, hre] using hs.1
        · simpa [observe, hca] using hs.2

theorem Reachable.consistent (h : Reachable Anka64Core.ownsCalls o) : o.Consistent :=
  Machine.Reachable.invariant (fun _ h0 => h0.consistent) (fun _ _ _ h hs => h.step hs) h

/-- The RET at `o` that leads to `c'` returned behind the latest open CALL, whose object still has
the generation it had when the CALL executed. -/
def ReturnsToCall (o : Observed) (f : Fabric) (c' : Anka64Core) : Prop :=
  ∃ call rest, o.trace.calls = call :: rest ∧ c'.pc = call.pc + 4 ∧
    ∃ obj, f.objects.get call.object = some obj ∧ obj.generation = call.generation

/-- **Return-address integrity.** For every program, memory and run: a RET that continues goes
exactly behind the latest CALL of its call context that has not been returned from, and only if the
object that held the CALL still has the generation it had. -/
theorem ret_returns_to_latest_call (h : Reachable Anka64Core.ownsCalls o) {insn : DecodedInsn}
    {f1 f' : Fabric} {c' : Anka64Core}
    (hfetch : o.system.core.fetch o.system.fabric = ok (insn, f1))
    (hret : insn.desc.semantics = .ret)
    (hstep : o.system.core.step o.system.fabric = ok (.continue, c', f')) :
    o.ReturnsToCall f1 c' := by
  obtain ⟨-, hh, -, -⟩ | ⟨-, insn', f2, hfetch', hex⟩ := step_eq_ok hstep
  · cases hh
  · obtain ⟨rfl, rfl⟩ := Prod.mk.inj (ok.inj (hfetch.symm.trans hfetch'))
    have hef := execute_control hex
    rw [hret] at hef
    obtain ⟨auth, hs, hp, hg, -⟩ := hef
    have hc : auth :: c'.returnStack = o.trace.calls.map CallSite.authority :=
      hs.symm.trans h.consistent.returns
    obtain ⟨call, rest, hca, rfl, -⟩ := map_eq_cons_iff.mp hc.symm
    exact ⟨call, rest, hca, hp, hg⟩

/-! ## Runs -/

/-- One code object with CALL +2 at 0, HALT at 4, TRAP at 8 and RET at 12. -/
def callThenTrap : List FabricOp :=
  [.createDomain, .registerAgent ⟨0⟩ (.cpu ⟨0⟩) ⟨0⟩, .allocObject "text" 16 .memory,
    .placeObject ⟨0⟩ 0,
    .initializeObject ⟨0⟩ 0 [0x02, 0, 0x80, 0xCA, 0, 0, 0, 0xF8, 0, 0, 0, 0xE4, 0, 0, 0, 0xE0],
    .sealObject ⟨0⟩, .grant ⟨0⟩ ⟨0⟩ 0 16 ⟨0x05⟩]

/-- A new core over that object; its handler starts at the given address. -/
def userCore (trapVector : Nat) : Anka64Core :=
  { Anka64Core.new 1 ⟨0⟩ ⟨0⟩ with
    addressMap := [{ virtBase := 0, size := 16, object := ⟨0⟩, objOffset := 0 }], trapVector }

/-- The next instruction is a RET, and it continues. -/
def retContinues (o : Observed) : Bool :=
  match o.system.core.fetch o.system.fabric, o.system.core.step o.system.fabric with
  | ok (insn, _), ok (.continue, _, _) => insn.desc.semantics == .ret
  | _, _ => false

theorem retContinues_eq_true (h : o.retContinues = true) : ∃ insn f1 c' f',
    o.system.core.fetch o.system.fabric = ok (insn, f1) ∧ insn.desc.semantics = .ret ∧
    o.system.core.step o.system.fabric = ok (.continue, c', f') := by
  unfold retContinues at h
  split at h
  · rename_i insn f1 c' f' hf hs
    exact ⟨insn, f1, c', f', hf, by simpa using h, hs⟩
  · cases h

/-- The RET of a handler in an unprotected core returns to the CALL it interrupted. -/
theorem ret_returns_to_latest_call_in_handler : ∃ (o : Observed) (f1 : Fabric) (c' : Anka64Core),
    Reachable Anka64Core.ownsCalls o ∧ o.system.core.privilege = .supervisor ∧
    o.ReturnsToCall f1 c' := by
  have hru : Fabric.leadsTo 16 callThenTrap (fun f =>
        (Machine.replay (step ownsCalls) (fun _ _ => True) [.step, .step]
          ⟨⟨userCore 12, f⟩, .empty⟩).any fun o =>
            o.retContinues && decide (o.system.core.privilege = .supervisor)) = true := by
    decide +kernel
  obtain ⟨o, hr, ho⟩ := exists_of_replay ⟨rfl, rfl, rfl, rfl⟩ hru
  rw [Bool.and_eq_true, decide_eq_true_eq] at ho
  obtain ⟨insn, f1, c', f', hf, hre, hs⟩ := retContinues_eq_true ho.1
  exact ⟨o, f1, c', hr, ho.2, ret_returns_to_latest_call hr hf hre hs⟩

/-- **Events of an unprotected core share its return stack**: counted by event, a RET can continue
though no CALL of its own event is open. -/
theorem shared_return_stack : ¬ ∀ (o : Observed) (insn : DecodedInsn) (f1 f' : Fabric)
    (c' : Anka64Core), Reachable (fun _ => true) o →
    o.system.core.fetch o.system.fabric = ok (insn, f1) → insn.desc.semantics = .ret →
    o.system.core.step o.system.fabric = ok (.continue, c', f') → o.ReturnsToCall f1 c' := by
  intro ha
  have hru : Fabric.leadsTo 16 callThenTrap (fun f =>
        (Machine.replay (step fun _ => true) (fun _ _ => True) [.step, .step]
          ⟨⟨userCore 12, f⟩, .empty⟩).any fun o =>
            o.retContinues && o.trace.calls.isEmpty) = true := by
    decide +kernel
  obtain ⟨o, hr, ho⟩ := exists_of_replay ⟨rfl, rfl, rfl, rfl⟩ hru
  rw [Bool.and_eq_true, List.isEmpty_iff] at ho
  obtain ⟨insn, f1, c', f', hf, hre, hs⟩ := retContinues_eq_true ho.1
  obtain ⟨call, rest, hc, -⟩ := ha o insn f1 f' c' hr hf hre hs
  rw [ho.2] at hc
  cases hc

end Observed

end Anka
