import Anka.Fabric.Change

/-!
# Private heap calls as atomic changes

A call on the private heap writes bytes and tags of the pool (`Change.heapWrote`), and replaces
rows, work tables and the registry (`Change.silent`). One lemma per preflight says what it
established (`HeapSpan.Covers`, `Staged`), one per call that it is a chain of the two.
-/

namespace Anka

open Rust Res List Option

/-- The span of `length` bytes from `base` and exactly the tags of the cells it meets. -/
structure HeapSpan.Covers (span : HeapSpan) (heap : HeapFabric) (base length : Nat) : Prop where
  start_eq : span.start = base
  stop_eq : span.stop = base + length
  length_pos : 0 < length
  first : heap.shadowIndex (base / 16 * 16) = some span.first
  last : ∃ last, heap.shadowIndex ((base + length - 1) / 16 * 16) = some last ∧ span.past = last + 1
  past_le : span.past ≤ heap.shadow.length

theorem HeapFabric.shadowIndex_eq_some {heap : HeapFabric} {p i : Nat}
    (h : heap.shadowIndex p = some i) :
    p % 16 = 0 ∧ heap.pool.base ≤ p ∧ p + 16 ≤ heap.endAddr ∧
      i = (p - heap.pool.base) / 16 ∧ i < heap.shadow.length := by
  obtain ⟨offset, ho, h⟩ := bind_eq_some_iff.mp h
  obtain ⟨hl, rfl⟩ := checkedSub_eq_some.mp ho
  split at h
  · rename_i hc
    obtain ⟨hm, ha, hlt⟩ := hc
    obtain ⟨stop, hs, hsi⟩ := (any_eq_true _ _).mp ha
    obtain ⟨-, rfl⟩ := checkedAdd_eq_some.mp hs
    rw [decide_eq_true_eq] at hsi
    obtain rfl := some.inj h
    refine ⟨hm, hl, ?_, rfl, hlt⟩
    unfold HeapFabric.endAddr
    omega
  · cases h

theorem HeapSpan.Covers.in_pool {span : HeapSpan} {heap : HeapFabric} {base length : Nat}
    (h : span.Covers heap base length) : heap.pool.base ≤ base ∧ base + length ≤ heap.endAddr := by
  obtain ⟨last, hl, -⟩ := h.last
  obtain ⟨-, hb, -⟩ := HeapFabric.shadowIndex_eq_some h.first
  obtain ⟨-, -, hen, -⟩ := HeapFabric.shadowIndex_eq_some hl
  have hp := h.length_pos
  omega

variable {agent : AgentId} {exp : Nat}

namespace Fabric

variable {G : Guard} {f f' : Fabric} {s : ScopedPointers} {call : RegistryOp} {heap : HeapFabric}
  {ε : Type} {length offset rev : Nat} {span : HeapSpan} {data pl : List UInt8}
  {tags : List (Option ScopedPointer) → List (Option ScopedPointer)} {extents : HeapExtents}
  {owner : AllocationOwner} {current : CurrentHeapProcess} {plan : InitializationPlan}
  {snap : HeapInitialization} {row : PrivateHeapRow} {obj : ObjectId} {lease : CleanupLease}

/-! ## Silent changes -/

theorem Change.aside (pointerStackObjects : Map ObjectId (Nat × DomainId))
    (agents : Map AgentId AgentState) (faultLog : List FaultRecord) (nextAuthorityId : Nat)
    (hc : G.Run f.scopedPointers s) : Change G f { f with
      scopedPointers := s, pointerStackObjects, agents, faultLog, nextAuthorityId } :=
  .silent f s pointerStackObjects agents f.privateHeap faultLog f.nextObjectId f.nextTxId
    nextAuthorityId rfl (Nat.le_refl _) (fun _ => .inl) hc

theorem Change.registry (hc : G.Run f.scopedPointers s) :
    Change G f { f with scopedPointers := s } := .aside _ _ _ _ hc

theorem registry_changes (hcall : G.registry call) (h : f.scopedPointers.run call = ok s) :
    Changes G f { f with scopedPointers := s } :=
  .single (.registry (Footprint.run_call hcall h))

theorem Change.heapEdited {heap' : HeapFabric} (hh : f.privateHeap = some heap)
    (hc : G.Run f.scopedPointers s) (hp : heap'.pool = heap.pool)
    (hro : ∀ row', some row' ∈ heap'.rows → ∃ row, some row ∈ heap.rows ∧
      row.object = row'.object) :
    Change G f { f with scopedPointers := s, privateHeap := some heap' } := by
  refine .silent f s f.pointerStackObjects f.agents (some heap') f.faultLog
    f.nextObjectId f.nextTxId
    f.nextAuthorityId (by rw [hh, map_some, map_some, hp]) (Nat.le_refl _) ?_ hc
  rintro id ⟨heap1, row', heq, hr', rfl⟩
  obtain rfl := some.inj heq
  obtain ⟨row, hr, ho⟩ := hro row' hr'
  exact .inl ⟨heap, row, hh, hr, ho⟩

/-! ## Bytes and tags -/

theorem checkedHeapBackingSpan_yields (log : Nat) (extents : HeapExtents) (offset length : Nat)
    (cell : Bool) : (f.checkedHeapBackingSpan log extents offset length cell).Yields fun span =>
      offset + length ≤ log ∧ (cell = true → length = 16 ∧ offset % 16 = 0) ∧
      ∃ heap, f.privateHeap = some heap ∧
        span.Covers heap (extents.physical.base + offset) length ∧
        span.stop ≤ f.memory.length := by
  intro span h
  simp only [checkedHeapBackingSpan, eq_ok] at h
  obtain ⟨⟨hpo, _, ho, hle⟩, hc, _, ⟨_, rfl⟩, _, ⟨_, rfl⟩, hfi, heap, hh,
    first, hf, last, hl, ⟨hp, _⟩, rfl⟩ := h
  exact ⟨by omega, hc, heap, hh, ⟨rfl, rfl, by omega, hf, ⟨last, hl, rfl⟩, hp⟩, hfi⟩

theorem privateInitializationSpan_yields (row : PrivateHeapRow) (offset am : Nat) :
    (f.privateInitializationSpan row offset am).Yields fun span =>
      offset + am ≤ row.extents.physical.size ∧ ∃ heap, f.privateHeap = some heap ∧
        span.Covers heap (row.extents.physical.base + offset) am ∧
        span.stop ≤ f.memory.length := by
  intro span h
  simp only [privateInitializationSpan, eq_ok] at h
  obtain ⟨⟨hpo, _, ho, hle⟩, _, ⟨_, rfl⟩, _, ⟨_, rfl⟩, hfi, heap, hh,
    first, hf, last, hl, ⟨hp, _⟩, rfl⟩ := h
  exact ⟨by omega, heap, hh, ⟨rfl, rfl, by omega, hf, ⟨last, hl, rfl⟩, hp⟩, hfi⟩

theorem writeHeap_eq_ok {base : Nat} (hh : f.privateHeap = some heap)
    (hs : span.Covers heap base length) (hf : span.stop ≤ f.memory.length)
    (h : (f.writeHeap span data tags : Res ε Fabric) = ok f') :
    data.length = length ∧ f' = { f.writeMemory base data with
      privateHeap := some { heap with shadow := tags heap.shadow } } ∧ Change G f f' := by
  simp only [writeHeap, eq_ok, hh, some.injEq] at h
  obtain ⟨hl, _, rfl, rfl⟩ := h
  have hp := hs.in_pool
  rw [hs.stop_eq] at hf hl
  rw [hs.start_eq] at hl ⊢
  exact ⟨by omega, rfl, .heapWrote f heap _ base data hh (by omega) hp.1 (by omega)⟩

variable {log : Nat} {cell : Bool} {destination : ScopedPointer} {work : HeapCpuWork} {u : Unit}
  {r : HeapReservation} {wr : Bool} {ptr : ScopedPointer} {rsv : HeapReservation}

theorem writeHeap_changes
    (hs : f.checkedHeapBackingSpan log extents offset length cell = ok span)
    (h : (f.writeHeap span data tags : Res ε Fabric) = ok f') : Changes G f f' := by
  obtain ⟨_, _, heap, hh, hc, hf⟩ := checkedHeapBackingSpan_yields _ _ _ _ _ span hs
  exact .single (writeHeap_eq_ok hh hc hf h).2.2

theorem storeHeapPointerCell_changes {so : Option ScopedPointer}
    (h : f.storeHeapPointerCell owner agent destination so = ok f') : Changes G f f' := by
  simp only [storeHeapPointerCell, checkedHeapSpan, bind_eq_ok] at h
  obtain ⟨live, -, _, -, span, hs, _, -, hw⟩ := h
  exact writeHeap_changes hs hw

theorem writeHeapBytes_changes {b : List UInt8}
    (h : f.writeHeapBytes owner agent destination b = ok f') : Changes G f f' := by
  simp only [writeHeapBytes, checkedHeapSpan, bind_eq_ok] at h
  obtain ⟨live, -, _, -, span, hs, hw⟩ := h
  exact writeHeap_changes hs hw

/-! ## Work tables -/

theorem withHeapCpuWork_eq_ok (h : (f.withHeapCpuWork work : Res ε Fabric) = ok f') :
    ∃ heap, f.privateHeap = some heap ∧
      f' = { f with privateHeap := some { heap with work := some work } } := by
  simp only [withHeapCpuWork, eq_ok] at h
  obtain ⟨heap, hh, rfl⟩ := h
  exact ⟨heap, hh, rfl⟩

theorem withHeapCpuWork_changes (hcall : G.registry call)
    (h : (f.withHeapCpuWork work : Res ε Fabric) = ok f')
    (hr : f'.scopedPointers.run call = ok s) : Changes G f { f' with scopedPointers := s } := by
  obtain ⟨heap, hh, rfl⟩ := withHeapCpuWork_eq_ok h
  exact .single (Change.heapEdited hh (Footprint.run_call hcall hr) rfl
    fun row hro => ⟨row, hro, rfl⟩)

theorem registered_changes {ptr : Option ScopedPointer} {w : Option (List UInt8)}
    (hcall : G.registry (.workRevision exp)) :
    (f.prepareHeapCpuWork current ptr length w exp >>= fun (rev, pair) =>
      f.commitHeapCpuWork rev pair).Yields fun r => Changes G f r.2 := by
  intro r h
  simp only [prepareHeapCpuWork, commitHeapCpuWork, eq_ok] at h
  obtain ⟨_, _, ⟨_, -, rev, hr, -, _, -, _, -, -, _, -, _, -, rfl, rfl⟩, _, -, _, _, -,
    f1, hw, s, hc, rfl⟩ := h
  refine withHeapCpuWork_changes hcall hw ?_
  obtain ⟨heap, -, rfl⟩ := withHeapCpuWork_eq_ok hw
  simp only [ScopedPointers.run, bind_eq_ok]
  exact ⟨rev, hr, hc⟩

theorem workEffect_changes (work : HeapCpuWork) (rec : WorkRecord) (re : CpuRequest)
    (hs : f.checkedHeapBackingSpan log extents offset length cell = ok span) :
    (f.workEffect work rec re span : Res ε _).Yields fun r => Changes G f r.1 := by
  unfold workEffect
  split
  · exact yields_seq fun _ => yields_ok .refl
  · intro r h
    obtain ⟨f1, hw, h⟩ := bind_eq_ok.mp h
    obtain ⟨_, _, h⟩ := bind_eq_ok.mp h
    obtain rfl := ok.inj h
    exact writeHeap_changes hs hw

section

variable (hcall : G.registry .workCleanupRevision)
include hcall

theorem executeHeapCpuWork_changes (t : HeapWorkTicket) :
    (f.executeHeapCpuWork t).Yields (Changes G f) := by
  intro f' h
  simp only [executeHeapCpuWork, eq_ok] at h
  obtain ⟨work, rec, _, re, _, _, _, span, hs, f1, work', hef, f2, hw, rfl⟩ := h
  exact (workEffect_changes work rec re hs _ hef).trans (withHeapCpuWork_changes hcall hw rfl)

theorem cancelHeapCpuWork_changes (t : HeapWorkTicket) :
    (f.cancelHeapCpuWork t).Yields (Changes G f) := by
  intro f' h
  simp only [cancelHeapCpuWork, eq_ok] at h
  obtain ⟨_, _, _, _, _, _, work, _, f1, hw, rfl⟩ := h
  exact withHeapCpuWork_changes hcall hw rfl

theorem finishHeapCpuWork_changes (t : HeapWorkTicket) :
    (f.finishHeapCpuWork t).Yields fun r => Changes G f r.2 := by
  intro r h
  simp only [finishHeapCpuWork, eq_ok] at h
  obtain ⟨_, _, _, _, _, o, _, _, _, _, work, _, f1, hw, rfl⟩ := h
  exact withHeapCpuWork_changes hcall hw rfl

end

/-! ## Staging -/

variable {s : ScopedPointers}

theorem checkCharges_room {re : HeapRecord} {ac : Account}
    (h : s.checkCharges re ac extents = ok u) :
    re.logical ≤ extents.physical.size := by
  simp only [ScopedPointers.checkCharges, eq_ok] at h
  obtain ⟨_, ro, hc, rfl, hs, _⟩ := h
  rw [hs]
  exact pageCeil_ge hc

theorem prepareHeapPrivate_room {att : Bool} {plan : HeapAttachmentPlan}
    (h : s.prepareHeapPrivate r owner rev att = ok plan) :
    plan.logical ≤ plan.extents.physical.size := by
  simp only [ScopedPointers.prepareHeapPrivate, eq_ok] at h
  obtain ⟨_, _, _, _, _, _, _, _, _, _, _, _, _, _, _, hc, rfl⟩ := h
  exact checkCharges_room hc

/-- What a staging plan has established: the row of an unpublished lifetime, its registry plan, and
a quiet pool. -/
structure Staged (f : Fabric) (owner : AllocationOwner) (plan : InitializationPlan) : Prop where
  registry : ∃ revision, f.scopedPointers.prepareHeapInitialization plan.row.reservation owner
    revision = ok plan.registry
  row : ∃ heap, f.privateHeap = some heap ∧
    heap.rows[plan.registry.reservation.slot]? = some (some plan.row) ∧
    heap.checkExtents plan.row.extents = ok ()
  extents : plan.row.extents = plan.registry.extents
  logical : plan.row.logical = plan.registry.logical
  room : plan.row.logical ≤ plan.row.extents.physical.size
  fits : plan.row.extents.physical.endAddr.any (fun stop => decide (stop ≤ f.memory.length)) = true
  progress : plan.row.initializedBytes ≤ plan.row.extents.physical.size ∧
    plan.row.initializedBytes % 16 = 0
  pool : f.heapPoolIsPrivate = true

theorem checkInitializationSnapshot_yields (snap : HeapInitialization) (owner : AllocationOwner)
    (rev : Nat) : (f.checkInitializationSnapshot snap owner rev).Yields fun plan =>
      f.Staged owner plan ∧ plan.row = snap.row ∧
        f.scopedPointers.prepareHeapInitialization snap.row.reservation owner rev =
          ok plan.registry := by
  intro plan h
  simp only [checkInitializationSnapshot, preparePrivateInitialization, eq_ok] at h
  obtain ⟨_, ⟨_, registry, hre, heap, hh, row, hro, ⟨hr, _, _, _, hl,
    hex, _⟩, hla, stop, hs, ⟨hf, hle, hm⟩, hp, rfl⟩, hsa, rfl⟩ := h
  refine ⟨⟨⟨rev, ?_⟩, ⟨heap, hh, join_eq_some_iff.mp hro, ?_⟩, hex, hl, ?_,
    by simp [hs, hf], ⟨hle, hm⟩, hp⟩, hsa, hre⟩
  · rw [hr]
    exact hre
  · rw [hex]
    exact hla
  · rw [hl, hex]
    exact prepareHeapPrivate_room hre

theorem setHeapRow_changes {heap1 : HeapFabric} {f1 : Fabric} (hc : G.Run f1.scopedPointers s)
    (hp : f.Staged owner plan) (hh : f.privateHeap = some heap) (hf1 : f1.privateHeap = some heap1)
    (hro : heap1.rows = heap.rows) (ho : row.object = plan.row.object)
    (h : (f1.setHeapRow plan.registry.reservation.slot row : Res ε Fabric) = ok f') :
    Changes G f1 { f' with scopedPointers := s } := by
  simp only [setHeapRow, HeapFabric.setRow, eq_ok, hf1, some.injEq] at h
  obtain ⟨_, rfl, _, ⟨_, rfl⟩, rfl⟩ := h
  obtain ⟨heap2, hh2, hr, -⟩ := hp.row
  obtain rfl := mem_unique hh hh2
  refine .single (Change.heapEdited hf1 hc rfl fun row' hr' => ?_)
  rcases mem_or_eq_of_mem_set hr' with hr' | hr'
  · exact ⟨row', hr', rfl⟩
  · obtain rfl := some.inj hr'
    exact ⟨plan.row, by rw [hro]; exact mem_of_getElem? hr, ho.symm⟩

theorem nextVersion_yields (row : PrivateHeapRow) : (nextVersion row).Yields fun row' =>
    row' = { row with initializationVersion := row.initializationVersion + 1 } := by
  intro row' h
  simp only [nextVersion, eq_ok] at h
  obtain ⟨_, ⟨_, rfl⟩, rfl⟩ := h
  rfl

section

variable (hcall : G.registry (.initializeChunk snap.row.reservation owner rev))
include hcall

theorem commitPrivateInitialization_changes {am : Nat}
    (hp : f.checkInitializationSnapshot snap owner rev = ok plan)
    (ho : row.object = plan.row.object)
    (hsp : f.privateInitializationSpan plan.row offset am = ok span) :
    (f.commitPrivateInitialization { plan with row := row } span data : Res HeapError _).Yields
      fun r => Changes G f r.2 := by
  intro r h
  obtain ⟨_, heap, hh, hc, hf⟩ := privateInitializationSpan_yields _ _ _ span hsp
  simp only [commitPrivateInitialization, eq_ok] at h
  obtain ⟨f1, hw, f2, hr, s, hco, rfl⟩ := h
  obtain ⟨_, rfl, hch⟩ := writeHeap_eq_ok (G := G) hh hc hf hw
  obtain ⟨hs, -, hre⟩ := checkInitializationSnapshot_yields _ _ _ plan hp
  refine .head hch (setHeapRow_changes (Footprint.run_call hcall ?_) hs hh rfl rfl ho hr)
  simp only [setHeapRow, eq_ok] at hr
  obtain ⟨_, -, _, -, rfl⟩ := hr
  simp only [ScopedPointers.run, bind_eq_ok]
  exact ⟨plan.registry, hre, hco⟩

theorem initializePrivateHeapChunk_changes {am : Nat} :
    (f.initializePrivateHeapChunk snap owner am rev).Yields fun r => Changes G f r.2 := by
  intro r h
  simp only [initializePrivateHeapChunk, bind_eq_ok] at h
  obtain ⟨plan, hp, _, _, span, hs, row, hr, _, _, h⟩ := h
  obtain rfl := nextVersion_yields _ _ hr
  refine commitPrivateInitialization_changes hcall hp ?_ hs r h
  rfl

theorem writePrivateHeap_changes :
    (f.writePrivateHeap snap owner offset data rev).Yields fun r => Changes G f r.2 := by
  intro r h
  simp only [writePrivateHeap, bind_eq_ok] at h
  obtain ⟨plan, hp, span, hs, row, hr, h⟩ := h
  obtain rfl := nextVersion_yields _ _ hr
  refine commitPrivateInitialization_changes hcall hp ?_ hs r h
  rfl

end

/-! ## Publication -/

theorem publication_run {s' : ScopedPointers} {plan : HeapAttachmentPlan}
    (hp : s.prepareHeapInitialization r owner rev = ok plan)
    (h : (s.commitHeapImagePublication plan wr : Res HeapError _) = ok (ptr, s')) :
    s.run (.publish r owner rev wr) = ok s' := by
  simp only [ScopedPointers.run, eq_ok]
  exact ⟨plan, hp, ptr, _, h, rfl⟩

theorem publishHeap_changes
    (hcall : ∀ rev, G.registry (.publish snap.row.reservation owner rev true)) :
    (f.publishHeap owner agent snap).Yields fun r => Changes G f r.2 := by
  intro r h
  simp only [publishHeap, prepareHeapReply, commitHeapReply, eq_ok] at h
  obtain ⟨_, ⟨plan, hp, -, -, _, -, -, rfl⟩, ptr, s, hc, rfl⟩ := h
  obtain ⟨-, -, hr⟩ := checkInitializationSnapshot_yields _ _ _ plan hp
  exact registry_changes (hcall _) (publication_run hr hc)

theorem checkExtents_in_pool {e : HeapExtents} (h : heap.checkExtents e = ok u) :
    heap.pool.base ≤ e.physical.base ∧ e.physical.base + e.physical.size ≤ heap.endAddr := by
  rw [HeapFabric.checkExtents, require_eq_ok] at h
  simp only [Option.any_eq_true, Extent.endAddr, checkedAdd_eq_some, decide_eq_true_eq] at h
  obtain ⟨hb, ⟨_, ⟨_, rfl⟩, hen⟩, _⟩ := h
  exact ⟨hb, hen⟩

theorem writeImage_eq_ok {tags : List (Nat × ScopedPointer)} (hp : f.Staged owner plan)
    (hl : pl.length ≤ plan.row.logical)
    (h : (f.writeImage plan.row.extents.physical.base pl tags : Res ε Fabric) = ok f') :
    ∃ heap, f.privateHeap = some heap ∧
      f' = { f.writeMemory plan.row.extents.physical.base pl with
        privateHeap := some { heap with
          shadow := tags.foldl (fun shadow tag => shadow.set tag.1 (some tag.2)) heap.shadow } } ∧
      Change G f f' := by
  simp only [writeImage, eq_ok] at h
  obtain ⟨hf, heap, hh, rfl⟩ := h
  obtain ⟨heap1, hh1, _, hex⟩ := hp.row
  obtain rfl := mem_unique hh hh1
  have hpo := checkExtents_in_pool hex
  have hr := hp.room
  exact ⟨heap, hh, rfl, .heapWrote f heap _ _ pl hh hf hpo.1 (by omega)⟩

theorem image_changes {tags : List (Nat × ScopedPointer)} {f1 f2 : Fabric}
    (hcall : G.registry (.publish snap.row.reservation owner rev wr))
    (hp : f.checkInitializationSnapshot snap owner rev = ok plan)
    (hl : pl.length ≤ plan.row.logical) (ho : row.object = plan.row.object)
    (hi : (f.writeImage plan.row.extents.physical.base pl tags :
      Res HeapError Fabric) = ok f1)
    (hr : (f1.setHeapRow plan.registry.reservation.slot row : Res HeapError Fabric) = ok f2)
    (hc : (f2.scopedPointers.commitHeapImagePublication plan.registry wr :
      Res HeapError _) = ok (ptr, s)) : Changes G f { f2 with scopedPointers := s } := by
  obtain ⟨hs, -, hre⟩ := checkInitializationSnapshot_yields _ _ _ plan hp
  obtain ⟨heap, hh, rfl, hch⟩ := writeImage_eq_ok (G := G) hs hl hi
  refine .head hch (setHeapRow_changes (Footprint.run_call hcall ?_) hs hh rfl rfl ho hr)
  simp only [setHeapRow, eq_ok] at hr
  obtain ⟨_, -, _, -, rfl⟩ := hr
  exact publication_run hre hc

theorem describeCompilerRegion_yields (current : CurrentHeapProcess) (snap : HeapInitialization)
    (role v : Nat) :
    (f.describeCompilerRegion current snap role v).Yields fun _ =>
      v ≤ snap.row.logical ∧ snap.isComplete = true := by
  intro re h
  simp only [describeCompilerRegion, eq_ok] at h
  obtain ⟨plan, hp, _, _, ⟨hc, _, hv⟩, _⟩ := h
  rw [(checkInitializationSnapshot_yields _ _ _ plan hp).2.1] at hv
  exact ⟨hv, hc⟩

theorem publishCompilerRegion_changes {role : Nat} {c : List (Nat × ScopedPointer)} {d : Bool}
    (hcall : ∀ rev wr,
      G.registry (.publish snap.row.reservation current.owner rev wr)) :
    (f.publishCompilerRegion current snap role pl c d).Yields fun r =>
      Changes G f r.2 := by
  intro r h
  simp only [publishCompilerRegion, eq_ok] at h
  obtain ⟨ri, _, re, hr, plan, hp, _, _, _, _, _, tags, _, row, hv, f1,
    hi, f2, hro, _, s, hc, _, rfl⟩ := h
  obtain ⟨-, hs, -⟩ := checkInitializationSnapshot_yields _ _ _ plan hp
  obtain ⟨hl, -⟩ := describeCompilerRegion_yields _ _ _ _ re hr
  obtain rfl := nextVersion_yields _ _ hv
  refine image_changes (hcall _ _) hp (by rw [hs]; exact hl) ?_ hi hro hc
  rfl

theorem publishCompilerArtifact_changes (hcall : ∀ rev,
      G.registry (.publish snap.row.reservation current.owner rev false)) :
    (f.publishCompilerArtifact current snap pl).Yields fun r => Changes G f r.2 := by
  intro r h
  simp only [publishCompilerArtifact, eq_ok] at h
  obtain ⟨plan, hp, ⟨_, _, _, hl, _⟩, _, _, _, row, hv, f1, hi, f2, hr, _, s, hc, rfl⟩ := h
  obtain rfl := nextVersion_yields _ _ hv
  refine image_changes (hcall _) hp hl.le ?_ hi hr hc
  rfl

/-! ## Closure and cleanup -/

theorem closeAttachedHeap_changes (hcall : G.registry (.closeAttached rsv owner)) :
    (f.closeAttachedHeap rsv owner obj).Yields fun r => Changes G f r.2 := by
  intro r h
  simp only [closeAttachedHeap, eq_ok] at h
  obtain ⟨plan, hp, -, o, s, hc, rfl⟩ := h
  refine registry_changes hcall ?_
  simp only [ScopedPointers.run, eq_ok]
  exact ⟨plan, hp, o, s, hc, rfl⟩

theorem enrollHeapCleanupWorker_changes
    (hcall : G.registry (.enrollWorker current.identity exp)) :
    (f.enrollHeapCleanupWorker current exp).Yields fun r => Changes G f r.2 := by
  intro r h
  simp only [enrollHeapCleanupWorker, checkedCleanupDescriptor, eq_ok] at h
  obtain ⟨_, ⟨-, rfl⟩, w, s, hen, rfl⟩ := h
  refine registry_changes hcall ?_
  simp only [ScopedPointers.run, eq_ok]
  exact ⟨w, s, hen, rfl⟩

theorem claimHeapCleanupJob_changes {w : CleanupWorker}
    (hcall : G.registry (.claim w current.identity rsv owner exp)) :
    (f.claimHeapCleanupJob current w rsv owner obj exp).Yields fun r =>
      Changes G f r.2 := by
  intro r h
  simp only [claimHeapCleanupJob, checkedCleanupDescriptor, eq_ok] at h
  obtain ⟨_, ⟨-, rfl⟩, plan, hp, -, lease, s, hc, rfl⟩ := h
  refine registry_changes hcall ?_
  simp only [ScopedPointers.run, eq_ok]
  exact ⟨plan, hp, lease, s, hc, rfl⟩

variable {current : CurrentHeapRetirement}

theorem retireHeapAuthority_changes
    (hcall : G.registry (.retire lease current.worker.identity owner)) :
    (f.retireHeapAuthority current lease owner).Yields (Changes G f) := by
  intro f' h
  simp only [retireHeapAuthority, checkedCleanupDescriptor, eq_ok] at h
  obtain ⟨_, ⟨-, rfl⟩, plan, hp, -, s, hc, rfl⟩ := h
  refine registry_changes hcall ?_
  simp only [ScopedPointers.run, bind_eq_ok]
  exact ⟨plan, hp, hc⟩

theorem beginHeapScrub_changes
    (hcall : G.registry (.scrubBegin lease current.worker.identity owner)) :
    (f.beginHeapScrub current lease owner).Yields fun r => Changes G f r.2 := by
  intro r h
  simp only [beginHeapScrub, checkedCleanupDescriptor, eq_ok] at h
  obtain ⟨_, ⟨-, rfl⟩, plan, hp, -, _, -, _, -, st, s, hc, rfl⟩ := h
  refine registry_changes hcall ?_
  simp only [ScopedPointers.run, eq_ok]
  exact ⟨plan, hp, st, s, hc, rfl⟩

theorem scrubHeapChunk_changes {snap : HeapCleanupSnapshot} {am : Nat}
    (hcall : G.registry (.scrubChunk snap.status current.worker.identity
      snap.row.owner am)) :
    (f.scrubHeapChunk current snap am).Yields fun r => Changes G f r.2 := by
  intro r h
  simp only [scrubHeapChunk, checkedCleanupDescriptor, eq_ok] at h
  obtain ⟨_, ⟨-, rfl⟩, plan, hp, -, span, hs, f1, hw, st, s, hc, rfl⟩ := h
  refine (writeHeap_changes hs hw).trans (registry_changes hcall ?_)
  simp only [writeHeap, eq_ok] at hw
  obtain ⟨-, _, -, rfl⟩ := hw
  simp only [ScopedPointers.run, eq_ok]
  exact ⟨plan, hp, st, s, hc, rfl⟩

theorem releaseCleanHeap_changes {snap : HeapCleanupSnapshot}
    (hcall : G.registry (.release snap.status current.worker.identity snap.row.owner)) :
    (f.releaseCleanHeap current snap).Yields (Changes G f) := by
  intro f' h
  simp only [releaseCleanHeap, checkedCleanupDescriptor, HeapFabric.removeRow, eq_ok] at h
  obtain ⟨_, ⟨-, rfl⟩, plan, hp, -, s, hc, heap, hh, _, ⟨_, rfl⟩, rfl⟩ := h
  refine .single (Change.heapEdited hh (Footprint.run_call hcall ?_) rfl fun row hr => ?_)
  · simp only [ScopedPointers.run, bind_eq_ok]
    exact ⟨plan, hp, hc⟩
  · rcases mem_or_eq_of_mem_set hr with hr | hr
    · exact ⟨row, hr, rfl⟩
    · cases hr

theorem revokeHeapCleanupJob_changes (hcall : G.registry (.transition lease owner false)) :
    (f.revokeHeapCleanupJob lease owner obj).Yields (Changes G f) := by
  intro f' h
  simp only [revokeHeapCleanupJob, eq_ok] at h
  obtain ⟨plan, hp, -, s, hc, rfl⟩ := h
  refine registry_changes hcall ?_
  simp only [ScopedPointers.run, bind_eq_ok]
  exact ⟨plan, hp, hc⟩

theorem recoverHeapCleanupJob_changes (hcall : G.registry (.transition lease owner true)) :
    (f.recoverHeapCleanupJob lease owner obj).Yields (Changes G f) := by
  intro f' h
  simp only [recoverHeapCleanupJob, bind_eq_ok] at h
  obtain ⟨plan, hp, _, -, h⟩ := h
  split at h
  all_goals
    simp only [bind_eq_ok, pure_eq_ok] at h
    obtain ⟨_, -, _, -, s, hc, rfl⟩ := h
    refine registry_changes hcall ?_
    simp only [ScopedPointers.run, bind_eq_ok]
    exact ⟨plan, hp, hc⟩

end Fabric

end Anka
