import Anka.Core.Mutation
import Anka.Fabric.Registry
import Anka.ScopedPointers.Totality
import Mathlib.Data.List.Chain

/-!
# A pointer frame is issued whole or not at all

`issue_pointer_frame` checks first and then writes. What it checks of the registry is enough for the
rest of the call: `enterFrame_ready` and `registerLocals_ready` say that after the preflight the
scope is entered and every local registered, and what the slots then hold.
**`issuePointerFrame_whole`** puts the call together: an error leaves the Fabric as it was, no
`expect` fails, and a frame that was issued is zero, untagged and apart from everything else that is
live (`FrameIssued`).
-/

namespace Anka

open Rust Res Option ScopedPointers

/-! ## The registry after the preflight -/

namespace ScopedPointers

variable {s s' : ScopedPointers} {scope : Scope} {n : Nat}

/-- The registry has room for `n` more locals under the scope. -/
structure Ready (s : ScopedPointers) (scope : Scope) (n : Nat) : Prop where
  top : s.isTop scope = true
  revision : s.heap.revision + n ≤ u64Max
  slots : n ≤ s.slots.countP Slot.available

/-- The slot of a registered local. -/
def localSlot (scope : Scope) (domain : DomainId) (generation : Generation) (p : ScopedPointer)
    (r : Registration) : Slot where
  generation := p.generation
  state := .live
  record := .local
    { scope, domain := domain.raw, base := r.address, length := r.request.length
      writable := r.writable
      backing := some { object := r.request.object, generation, offset := r.request.offset } }

theorem isTop_of_latest {r : ScopeRecord} (hr : r ∈ s.activeScopes) (hs : r.scope = scope)
    (hl : ∀ q ∈ s.activeScopes, q.scope.raw ≤ scope.raw) : s.isTop scope = true := by
  have hf : (s.activeScopes.find? fun r => r.scope == scope).isSome = true := by
    rw [List.find?_isSome]
    exact ⟨r, hr, by simp [hs]⟩
  obtain ⟨q, hq⟩ := isSome_iff_exists.mp hf
  rw [isTop, scopeOwner, hq, map_some, any_some, Bool.not_eq_true', List.any_eq_false]
  intro q' hq'
  simp [hl q' hq']

variable {ε : Type} {dom : DomainId} {generation : Generation}
  {regs : List Registration}

/-- After the preflight of a frame its scope is entered, and there is room for its locals. -/
theorem enterFrame_ready {owner : Nat} (hc : Counters s)
    (hp : s.preflightFrame n = ok ()) (frame : LocalFrameBacking) :
    ∃ scope t u, s.enterScopeFor owner = ok (scope, t) ∧
      (t.bindFrame scope frame : Res ε _) = ok u ∧ u.slots = s.slots ∧ Ready u scope n := by
  simp only [preflightFrame, require_eq_ok, isSome_iff_exists, bind_eq_some_iff,
    checkedAdd_eq_some, List.length_take, ← List.countP_eq_length_filter] at hp
  obtain ⟨hn, hf, hs, _, _, ⟨-, rfl⟩, hma, rfl⟩ := hp
  obtain ⟨index, hid⟩ : ∃ index, freeRow s.scopes = some index := by
    rw [← isSome_iff_exists, freeRow, List.findIdx?_isSome]
    exact hf
  have hsc := hc.scope
  have hen : s.enterScopeFor owner = ok (⟨s.nextScope⟩, ({ s with
      nextScope := s.nextScope + 1
      scopes := s.scopes.set index (some { scope := ⟨s.nextScope⟩, owner, frame := none })
      activeScopesEnd := max s.activeScopesEnd (index + 1) } : ScopedPointers).advance) := by
    simp only [enterScopeFor, preflightFrame, bind_eq_ok, require_eq_ok, unwrap_eq_ok, plus_eq_ok,
      pure_eq]
    refine ⟨(), ⟨hn, hf, by simp, ?_⟩, index, hid, _, ⟨by omega, rfl⟩, rfl⟩
    rw [show checkedAdd 0 1 = some 1 from rfl, bind_some, isSome_iff_exists]
    exact ⟨_, checkedAdd_eq_some.mpr ⟨by omega, rfl⟩⟩
  obtain ⟨u, hu⟩ := (@bindFrame_avoids _ _ _ ε (fun _ => True) hc _ hen frame).exists_ok
  refine ⟨_, _, u, hen, hu, ?_⟩
  have hl := hc.of_changes ((enterScopeFor_changes hen).trans (bindFrame_changes hu))
  simp only [bindFrame, bind_eq_ok, unwrap_eq_ok, check_eq_ok, pure_eq_ok, join_eq_some_iff] at hu
  obtain ⟨k, hk, re, hr, _, -, rfl⟩ := hu
  obtain ⟨hlt, hm, hfi⟩ := List.findIdx?_eq_some_iff_getElem.mp hk
  rw [List.getElem?_eq_getElem hlt, some.injEq] at hr
  refine ⟨rfl, isTop_of_latest (r := { re with frame := some frame }) ?_ ?_ fun q hq => ?_, ?_, ?_⟩
  · -- the new row is in the table, so the first row of the scope is not behind it
    have hle : k ≤ index := by
      by_contra hgt
      have hno := hfi index (by omega)
      simp [advance] at hno
    refine List.mem_filterMap.mpr ⟨some _, List.mem_of_getElem? (i := k) ?_, rfl⟩
    rw [List.getElem?_take_of_lt (by simp only [advance]; omega), List.getElem?_set_self hlt]
  · simpa [hr] using hm
  · obtain ⟨row, hro, hso⟩ := List.mem_filterMap.mp hq
    obtain rfl : row = some q := hso
    obtain ⟨i, hi⟩ := List.mem_iff_getElem?.mp (List.mem_of_mem_take hro)
    exact Nat.le_of_lt_succ (hl.scopes i q hi)
  · simp only [advance, HeapLedger.advance, saturatingAdd]
    omega
  · exact hs.trans (Nat.min_le_right _ _)

theorem register_bound {r : Registration} {p : ScopedPointer} {t u : ScopedPointers}
    (hr : s.register scope dom.raw r.address r.request.length r.writable = ok (p, t))
    (hb : (t.bindBacking p { object := r.request.object, generation, offset := r.request.offset } :
      Res ε _) = ok u) :
    ∃ old, s.slots[p.slot]? = some old ∧ old.available = true ∧ p.generation = old.generation + 1 ∧
      u = { s with
        slots := s.slots.set p.slot (localSlot scope dom generation p r)
        activeSlotsEnd := max s.activeSlotsEnd (p.slot + 1)
        heap := s.heap.advance } := by
  simp only [register, eq_ok]
    at hr
  obtain ⟨-, _, -, -, i, hi, old, hold, rfl, rfl⟩ := hr
  obtain ⟨hl, hav, -⟩ := List.findIdx?_eq_some_iff_getElem.mp hi
  obtain rfl := some.inj ((List.getElem?_eq_getElem hl).symm.trans hold)
  simp only [bindBacking, advance, List.getElem?_set_self hl, eq_ok, Slot.local?_eq_some,
    some.injEq, List.set_set] at hb
  obtain ⟨_, rfl, -, -, a, ha, -, rfl⟩ := hb
  cases ha
  exact ⟨_, hold, hav, rfl, rfl⟩

/-- The locals of a frame: each in a slot of its own that was available, under a new generation. -/
structure Registered (s s' : ScopedPointers) (scope : Scope) (domain : DomainId)
    (generation : Generation) (registrations : List Registration) (pointers : List ScopedPointer) :
    Prop where
  fresh : ∀ p ∈ pointers, ∃ old, s.slots[p.slot]? = some old ∧ old.available = true ∧
    old.generation < p.generation
  distinct : (pointers.map (·.slot)).Nodup
  held : List.Forall₂ (fun p r => s'.slots[p.slot]? = some (localSlot scope domain generation p r))
    pointers registrations
  kept : ∀ i, i ∉ pointers.map (·.slot) → s'.slots[i]? = s.slots[i]?

theorem registerLocals_registered {pointers : List ScopedPointer}
    (h : (Fabric.registerLocals scope dom generation s regs : Res ε _) =
      ok (pointers, s')) : Registered s s' scope dom generation regs pointers := by
  induction regs generalizing s pointers with
  | nil =>
    cases h
    exact ⟨nofun, .nil, .nil, fun _ _ => rfl⟩
  | cons r rest ih =>
    simp only [Fabric.registerLocals, eq_ok] at h
    obtain ⟨p, t, hre, u, hb, pointers, _, hr, rfl, rfl⟩ := h
    obtain ⟨old, hold, ha, hge, rfl⟩ := register_bound hre hb
    have his := ih hr
    have hg := fun j => @getElem?_set_row _ s.slots p.slot j
      (localSlot scope dom generation p r) old hold
    -- the slot of the first local is taken, so no later one gets it
    have hne : ∀ q ∈ pointers, q.slot ≠ p.slot := by
      intro q hq hsa
      obtain ⟨slot, hs, ht, -⟩ := his.fresh q hq
      rw [hg, if_pos hsa.symm] at hs
      rw [← some.inj hs] at ht
      cases ht
    have hn : p.slot ∉ pointers.map (·.slot) := by
      simpa [List.mem_map] using hne
    refine ⟨List.forall_mem_cons.mpr ⟨⟨old, hold, ha, by omega⟩, fun q hq => ?_⟩,
      List.nodup_cons.mpr ⟨hn, his.distinct⟩, .cons ?_ his.held, fun i hi => ?_⟩
    · obtain ⟨slot, hs, hr⟩ := his.fresh q hq
      rw [hg, if_neg (hne q hq).symm] at hs
      exact ⟨slot, hs, hr⟩
    · rw [his.kept _ hn, hg, if_pos rfl]
    · rw [List.map_cons, List.mem_cons, not_or] at hi
      rw [his.kept i hi.2, hg, if_neg (Ne.symm hi.1)]

/-- With room for all locals of a frame, all of them are registered. -/
theorem registerLocals_ready (h : Ready s scope regs.length)
    (hin : ∀ r ∈ regs, r.address + r.request.length ≤ u64Max) :
    ∃ result, (Fabric.registerLocals scope dom generation s regs : Res ε _) =
      ok result := by
  induction regs generalizing s with
  | nil => exact ⟨_, rfl⟩
  | cons r rest ih =>
    rw [List.forall_mem_cons] at hin
    have hrv := h.revision
    have hro := h.slots
    rw [List.length_cons] at hrv hro
    have hs : (s.register scope dom.raw r.address r.request.length r.writable).Avoids
        fun _ => True := by
      simp only [register, avoids_iff, okOr_eq_ok, h.top, freeSlot, List.findIdx?_isSome,
        List.any_eq_true]
      refine fun _ _ => ⟨fun _ => ?_, fun _ _ => ⟨fun _ => by omega, fun _ _ => ⟨fun _ =>
        List.countP_pos_iff.mp (by omega), fun i hi => ?_⟩⟩⟩
      · rw [checkedAdd_eq_some.mpr ⟨hin.1, rfl⟩]
        rfl
      · obtain ⟨slot, hsl, -⟩ := freeSlot_eq_some hi
        rw [hsl]
        rfl
    obtain ⟨⟨p, t⟩, hr⟩ := hs.exists_ok
    obtain ⟨u, hb⟩ := (@bindBacking_avoids s t p scope ε (fun _ => True) dom.raw r.address
      r.request.length r.writable hr
      { object := r.request.object, generation, offset := r.request.offset }).exists_ok
    have hre : Ready u scope rest.length := by
      obtain ⟨old, hold, ha, -, rfl⟩ := register_bound hr hb
      obtain ⟨hl, rfl⟩ := List.getElem?_eq_some_iff.mp hold
      refine ⟨h.top, ?_, ?_⟩
      · simp only [HeapLedger.advance, saturatingAdd]
        omega
      · have ht : (localSlot scope dom generation p r).available = false := rfl
        simp only [List.countP_set hl, ha, ht, if_true, Bool.false_eq_true, if_false]
        omega
    obtain ⟨result, hrs⟩ := ih hre hin.2
    refine ⟨(p :: result.1, result.2), ?_⟩
    simp [Fabric.registerLocals, hr, expectOk, hb, hrs]

end ScopedPointers

/-! ## The checks of a frame -/

theorem disjoint_of_rangesOverlap {a n b m : Nat} (h : rangesOverlap a n b m = false) :
    Disjoint (span a n) (span b m) := by
  rcases Nat.eq_zero_or_pos n with rfl | hn
  · simp [span]
  · rcases Nat.eq_zero_or_pos m with rfl | hm
    · simp [span]
    · exact disjoint_span (not_meets_of_rangesOverlap hn.ne' hm.ne' h)

/-- The locals have no byte in common. -/
def Registration.Apart (a b : Registration) : Prop :=
  Disjoint (span a.address a.request.length) (span b.address b.request.length)

theorem pairwise_of_orderedDisjoint {l : List Registration} (h : orderedDisjoint l = true) :
    l.Pairwise Registration.Apart := by
  have hc : l.Pairwise fun a b => a.address + a.request.length ≤ b.address := by
    have ht : IsTrans Registration fun a b => a.address + a.request.length ≤ b.address :=
      ⟨fun a b c => by omega⟩
    rw [← List.isChain_iff_pairwise]
    induction l with
    | nil => exact .nil
    | cons a rest ih =>
      cases rest with
      | nil => exact .singleton a
      | cons b rest =>
        simp only [orderedDisjoint, Bool.and_eq_true, any_eq_true, checkedAdd_eq_some,
          decide_eq_true_eq] at h
        obtain ⟨⟨_, ⟨-, rfl⟩, hl⟩, h⟩ := h
        exact .cons_cons hl (ih h)
  refine hc.imp fun hl => disjoint_span fun hm => ?_
  unfold meets at hm
  omega

namespace Fabric

variable {f f' : Fabric} {frame : MemoryRequest} {address phys : Nat}
  {regs : List Registration}

/-- The range of the object shares no byte with the frame, by its offsets or by its place. -/
def ApartFrom (f : Fabric) (frame : MemoryRequest) (physical : Nat) (object : ObjectId)
    (offset length : Nat) : Prop :=
  (object = frame.object → Disjoint (span frame.offset frame.length) (span offset length)) ∧
    ∀ base, f.placement.get object = some base →
      Disjoint (span physical frame.length) (span (base + offset) length)

theorem apartFrom_of_checks {ob : ObjectId} {o length : Nat} (hf : phys + frame.length ≤ u64Max)
    (ho : (ob == frame.object && rangesOverlap frame.offset frame.length o length) = false)
    (hp : (((f.placement.get ob).bind fun b => checkedAdd b o).any fun addr =>
      rangesOverlap phys frame.length addr length) = false) :
    f.ApartFrom frame phys ob o length := by
  constructor
  · rintro rfl
    rw [beq_self_eq_true, Bool.true_and] at ho
    exact disjoint_of_rangesOverlap ho
  · intro base hb
    rw [hb, bind_some] at hp
    by_cases hs : base + o ≤ u64Max
    · rw [checkedAdd_eq_some.mpr ⟨hs, rfl⟩, any_some] at hp
      exact disjoint_of_rangesOverlap hp
    · -- past the address space there is no byte of the frame
      refine disjoint_span fun hm => ?_
      unfold meets at hm
      omega

/-- What an issued frame is: zero, untagged, with its locals in it, and apart from every live frame
and local, every open transaction and every other live object. -/
structure FrameIssued (f f' : Fabric) (frame : MemoryRequest) (address physical : Nat)
    (registrations : List Registration) (scope : Scope) (pointers : List ScopedPointer) : Prop where
  placed : f.translate frame.object frame.offset = some physical
  zero : slice f'.memory physical frame.length = List.replicate frame.length 0
  untagged : ∀ key p cell, f'.pointerCells.get key = some p → f'.cellAddress key = some cell →
    Disjoint (span physical frame.length) (span cell 16)
  registered : ∃ generation, f.scopedPointers.Registered f'.scopedPointers scope
    frame.context.domain generation registrations pointers
  inside : ∀ r ∈ registrations,
    address ≤ r.address ∧ r.address + r.request.length ≤ address + frame.length
  disjoint : registrations.Pairwise Registration.Apart
  backings : ∀ live ∈ f.scopedPointers.liveFrameBackings ++ f.scopedPointers.liveLocalBackings,
    f.ApartFrom frame physical live.backing.object live.backing.offset live.length
  transactions : ∀ tx ∈ f.transactions, tx.state.isTerminal = false →
    f.ApartFrom frame physical tx.request.object tx.request.offset tx.request.length ∧
      ∀ addr, tx.physicalAddress = some addr →
        Disjoint (span physical frame.length) (span addr tx.request.length)
  objects : ∀ id o base, f.objects.get id = some o → o.id ≠ frame.object → o.state.isLive = true →
    f.placement.get o.id = some base → Disjoint (span physical frame.length) (span base o.size)

theorem checkRegistrations_eq_ok {stop : Nat} {b : PointerBacking} {o : Bool}
    {p : List Registration}
    (h : f.checkRegistrations frame address stop b o p regs = ok ()) :
    (∀ r ∈ regs, address ≤ r.address ∧ r.address + r.request.length ≤ stop) ∧
      (o = true ∨ (p.Pairwise Registration.Apart →
        (p ++ regs).Pairwise Registration.Apart)) := by
  induction regs generalizing p with
  | nil => exact ⟨nofun, .inr fun hp => by rwa [List.append_nil]⟩
  | cons r rest ih =>
    simp only [checkRegistrations, eq_ok, any_eq_true, decide_eq_true_eq] at h
    obtain ⟨⟨-, -, -, hl, ⟨_, ⟨-, rfl⟩, hh⟩, -⟩, _, -, -, ha, h⟩ := h
    obtain ⟨hi, hd⟩ := ih h
    refine ⟨List.forall_mem_cons.mpr ⟨⟨hl, hh⟩, hi⟩, ?_⟩
    rcases hd with ho | hd
    · exact .inl ho
    rcases ha with ho | ha
    · exact .inl ho
    refine .inr fun hp => ?_
    rw [List.append_cons]
    refine hd (List.pairwise_append.mpr ⟨hp, List.pairwise_singleton _ r, ?_⟩)
    intro q hq r' hr'
    obtain rfl := List.mem_singleton.mp hr'
    exact (disjoint_of_rangesOverlap (by simpa using List.any_eq_false.mp ha q hq)).symm

theorem checkedLocalBacking_avoids (r : MemoryRequest) (w : Bool) :
    (f.checkedLocalBacking r w).Avoids fun _ => False := by
  cases w <;> simp [checkedLocalBacking, authorize]

theorem checkRegistrations_avoids (stop : Nat) (b : PointerBacking) (o : Bool)
    (p : List Registration) :
    (f.checkRegistrations frame address stop b o p regs).Avoids fun _ => False := by
  induction regs generalizing p with
  | nil => exact avoids_ok _
  | cons r rest ih => simp [checkRegistrations, checkedLocalBacking_avoids, ih]

theorem issuePointerFrame_avoids (hc : f.scopedPointers.Counters) (owner : Nat) :
    (f.issuePointerFrame owner frame address regs).Avoids fun _ => False := by
  simp only [issuePointerFrame, avoids_bind, avoids_require, avoids_okOr, avoids_mapErr,
    checkedLocalBacking_avoids, checkRegistrations_avoids, preflightLocalFrameExclusion,
    preflightFrame, okOr_eq_ok, checkedAdd_eq_some, mapErr_eq_ok, false_imp_iff,
    implies_true, true_and]
  rintro _ - _ - _ ⟨hs, rfl⟩ _ - backing - phys - _ - _ - _ hp _ hch _ -
  -- after the checks nothing of the registry refuses the frame
  obtain ⟨scope, t, u, hen, hb, -, hre⟩ := @enterFrame_ready _ _
    PointerMachineError owner hc hp { backing, length := frame.length }
  obtain ⟨result, hl⟩ := @registerLocals_ready u scope PointerMachineError
    frame.context.domain backing.generation regs hre
    fun r hr => ((checkRegistrations_eq_ok hch).1 r hr).2.trans hs
  have hsa : (f.clearFrame phys frame.length).scopedPointers = f.scopedPointers := rfl
  simp [hsa, hen, expectOk, hb, hl]

theorem issuePointerFrame_issued {ow : Nat} {scope : Scope} {pointers : List ScopedPointer}
    (h : f.issuePointerFrame ow frame address regs = ok ((scope, pointers), f')) :
    ∃ phys, FrameIssued f f' frame address phys regs scope pointers := by
  simp only [issuePointerFrame, preflightLocalFrameExclusion, eq_ok, pure_eq] at h
  obtain ⟨-, -, _, ⟨hst, rfl⟩, _, -, b, -, phys, hp, _, ⟨hf, rfl⟩, ⟨-,
    hm, -⟩, hpr, hch, ⟨-, -, hob, hb, ht⟩,
    _, t, hen, u, hbi, _, s, hlo, ⟨rfl, rfl⟩, rfl⟩ := h
  -- entering the scope leaves the slots alone
  simp only [enterScopeFor, bindFrame, eq_ok] at hen hbi
  obtain ⟨-, _, -, _, -, rfl, rfl⟩ := hen
  obtain ⟨_, -, _, -, -, rfl⟩ := hbi
  have hr := registerLocals_registered hlo
  obtain ⟨hi, hd⟩ := checkRegistrations_eq_ok hch
  refine ⟨phys, hp, ?_, fun key p cell hc had => ?_, ⟨_, hr.fresh,
    hr.distinct, hr.held, hr.kept⟩, hi, ?_,
    fun live hl => ?_, fun tx htx hop => ?_, fun id o base ho hn hl hba => ?_⟩
  · have hle := List.length_replicate (n := frame.length) (a := (0 : UInt8))
    have hz := @slice_overwrite _ phys f.memory (List.replicate frame.length 0) (by omega)
    rwa [hle] at hz
  · have hk := (Map.get_retain_eq_some.mp hc).2
    have hs : (f.writeMemory phys (List.replicate frame.length 0)).cellAddress key =
      some cell := had
    rw [hs, all_some, Bool.not_eq_true'] at hk
    exact disjoint_of_rangesOverlap hk
  · rcases hd with hor | hd
    · exact pairwise_of_orderedDisjoint hor
    · exact hd .nil
  · have ha := List.any_eq_false.mp hb live hl
    rw [sharesBacking, Bool.not_eq_true, Bool.or_eq_false_iff] at ha
    exact apartFrom_of_checks hf ha.1 ha.2
  · have ha := List.any_eq_false.mp ht tx htx
    simp only [sharesTransaction, hop, Bool.not_false, Bool.true_and, Bool.not_eq_true,
      Bool.or_eq_false_iff] at ha
    refine ⟨apartFrom_of_checks hf ha.1.1 ha.2, fun addr hadd => ?_⟩
    have had := ha.1.2
    rw [hadd, any_some] at had
    exact disjoint_of_rangesOverlap had
  · have ha := Map.any_eq_false.mp hob id o ho
    rw [hba, hl, any_some, bne_iff_ne.mpr hn, Bool.true_and, Bool.true_and] at ha
    exact disjoint_of_rangesOverlap ha

/-- **A pointer frame is issued whole or not at all.** An error leaves the Fabric as it was, on a
Fabric that has run as it may no `expect` of the call fails, and what it issues is a frame. -/
theorem issuePointerFrame_whole (f : Fabric) (owner : Nat) (frame : MemoryRequest) (address : Nat)
    (regs : List Registration) :
    (∀ e f', Mut.issuePointerFrame owner frame address regs f = err (e, f') → f' = f) ∧
    (f.Reachable → Mut.issuePointerFrame owner frame address regs f ≠ panic) ∧
    ∀ scope pointers f', Mut.issuePointerFrame owner frame address regs f =
        ok ((scope, pointers), f') →
      ∃ phys, FrameIssued f f' frame address phys regs scope pointers := by
  rw [Mut.issuePointerFrame_eq, InPlace.atomic_apply]
  refine ⟨fun e f' her => ?_, fun hr hp => ?_, fun scope pointers f' ho => ?_⟩
  · obtain ⟨_, -, hsa⟩ := mapErr_eq_err.mp her
    cases hsa
    rfl
  · have hs := @issuePointerFrame_avoids f frame address regs hr.registry.counters owner
    cases hi : f.issuePointerFrame owner frame address regs <;>
      rw [hi] at hp hs <;> first | exact hs | cases hp
  · exact issuePointerFrame_issued (mapErr_eq_ok.mp ho)

/-- A read of `length` bytes of the stack object at `offset`. -/
def stackRange (offset length : Nat) : MemoryRequest :=
  { context := { agent := ⟨0⟩, domain := ⟨0⟩, privilege := .user }, object := ⟨0⟩, offset
    width := .double, length, kind := .read }

/-- A frame of 32 bytes with two locals, on a stack of 64 bytes. -/
theorem issuePointerFrame_whole_two_locals : ∃ (f f' : Fabric) (scope : Scope)
    (pointers : List ScopedPointer) (phys : Nat), f.Reachable ∧ pointers.length = 2 ∧
    Mut.issuePointerFrame 1 (stackRange 16 32) 80
      [⟨stackRange 16 8, 80, true⟩, ⟨stackRange 32 16, 96, true⟩] f = ok ((scope, pointers), f') ∧
    FrameIssued f f' (stackRange 16 32) 80 phys
      [⟨stackRange 16 8, 80, true⟩, ⟨stackRange 32 16, 96, true⟩] scope pointers := by
  have hru : leadsTo 64 [.createDomain, .registerAgent ⟨0⟩ (.cpu ⟨0⟩) ⟨0⟩,
      .allocObject "stack" 64 .memory,
        .placeObject ⟨0⟩ 0, .grant ⟨0⟩ ⟨0⟩ 0 64 .RW, .protectPointerStack ⟨0⟩ 1 ⟨0⟩] (fun f =>
      (Mut.issuePointerFrame 1 (stackRange 16 32) 80
        [⟨stackRange 16 8, 80, true⟩, ⟨stackRange 32 16, 96, true⟩] f).isOkAnd fun r =>
          decide (r.1.2.length = 2)) = true := by
    decide +kernel
  obtain ⟨f, hr, hf⟩ := exists_of_replay hru
  obtain ⟨⟨⟨scope, pointers⟩, f'⟩, hi, hc⟩ := isOkAnd_eq_true.mp hf
  have hr := Machine.ReachableIf.reachable hr
  obtain ⟨phys, his⟩ := (issuePointerFrame_whole f _ _ _ _).2.2 _ _ _ hi
  exact ⟨f, f', scope, pointers, phys, hr, of_decide_eq_true hc, hi, his⟩

end Fabric

end Anka
