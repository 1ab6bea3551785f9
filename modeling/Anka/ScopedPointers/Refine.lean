import Anka.ScopedPointers.Change

/-!
# Registry calls are chains of atomic changes

One lemma per call that writes; `run_changes` collects them.
-/

namespace Anka

open Rust Res List Option

namespace ScopedPointers

variable {F : RegistryFootprint} {s s' : ScopedPointers} {owner : AllocationOwner} {scope : Scope}
  {pointer : ScopedPointer} {token : HostStorageReservation} {revision : Nat} {r : HeapReservation}
  {slot : Slot} {record : HeapRecord} {job : CleanupRecord} {placement : Option HeapPlacement}
  {plan : HeapCleanupPlan} {handle : CleanupWorker} {identity : CleanupWorkerIdentity}
  {lease : CleanupLease} {status : HeapCleanupStatus}

theorem Change.advance (s : ScopedPointers) : Change F s s.advance :=
  .quiet s s.scopes s.activeScopesEnd s.nextScope (saturatingAdd s.heap.revision 1) s.heap.workers
    s.heap.nextWorker (Nat.le_refl _) (.inl rfl) (fun _ r hr => .inr ⟨r, hr, rfl⟩) (.inl rfl)
    (.same s) (.inr rfl)

theorem Change.advanced {t : ScopedPointers} (h : Change F s t) : Changes F s t.advance :=
  (Relation.ReflTransGen.single h).tail (Change.advance t)

/-! ## Scopes and local pointers -/

theorem enterScopeFor_changes {owner : Nat} (h : s.enterScopeFor owner = ok (scope, s')) :
    Changes F s s' := by
  simp only [enterScopeFor, eq_ok] at h
  obtain ⟨-, ind, hf, _, ⟨hm, rfl⟩, -, rfl⟩ := h
  refine (Change.quiet s _ _ _ s.heap.revision s.heap.workers s.heap.nextWorker (Nat.le_succ _)
    (.inr hm) (fun i r hr => ?_) (.inl rfl) (.same s) (.inr rfl)).advanced
  rw [getElem?_set_row (freeRow_eq_some hf)] at hr
  split at hr
  · cases hr
    exact .inl (Nat.lt_succ_self _)
  · exact .inr ⟨r, hr, rfl⟩

variable {ε : Type} {writable : Bool} {n : Nat} {logical : Nat} {expected : Nat}

theorem bindFrame_changes {fr : LocalFrameBacking}
    (h : (s.bindFrame scope fr : Res ε _) = ok s') : Changes F s s' := by
  simp only [bindFrame, eq_ok] at h
  obtain ⟨ind, -, record, hre, -, rfl⟩ := h
  refine .single (.quiet s _ s.activeScopesEnd s.nextScope s.heap.revision s.heap.workers
    s.heap.nextWorker (Nat.le_refl _) (.inl rfl) (fun i r hr => ?_) (.inl rfl) (.same s) (.inr rfl))
  have hro := join_eq_some_iff.mp hre
  rw [getElem?_set_row hro] at hr
  split at hr
  · rename_i hi
    cases hr
    exact .inr ⟨record, hi ▸ hro, rfl⟩
  · exact .inr ⟨r, hr, rfl⟩

theorem register_changes {d base l : Nat}
    (h : s.register scope d base l writable = ok (pointer, s')) : Changes F s s' := by
  simp only [register, eq_ok] at h
  obtain ⟨-, _, -, -, i, hf, old, hold, -, rfl⟩ := h
  obtain ⟨slot, hs, hst, -⟩ := freeSlot_eq_some hf
  obtain rfl := mem_unique hs hold
  exact (Change.localWrite s i _ slot _ hs (.inl hst) ⟨_, rfl⟩ (.inr rfl)
    (Slot.age_lt_of_generation (Nat.lt_succ_self _)).le
    fun _ hl => by simp [hst] at hl).advanced

theorem bindBacking_changes {ba : PointerBacking}
    (h : (s.bindBacking pointer ba : Res ε _) = ok s') : Changes F s s' := by
  simp only [bindBacking, eq_ok, Slot.local?_eq_some] at h
  obtain ⟨slot, hs, -, hli, a, ha, -, rfl⟩ := h
  refine .single (.localWrite s pointer.slot s.activeSlotsEnd slot _ hs (.inr ⟨a, ha⟩) ⟨_, rfl⟩
    (.inl ⟨rfl, fun hi => hi⟩) (Slot.age_le rfl (Nat.le_refl _)) fun b hb hl => ?_)
  obtain rfl := Record.local.inj (ha.symm.trans hl)
  exact ⟨hb, rfl, _, rfl, rfl, rfl⟩

theorem takeBacking_changes (s : ScopedPointers) (pointer : ScopedPointer) :
    Changes F s (s.takeBacking pointer).2 := by
  unfold takeBacking
  split
  · exact .refl
  · rename_i slot hs
    split
    · exact .refl
    · rename_i hd
      split
      · rename_i a ha
        exact .single (.localWrite s pointer.slot s.activeSlotsEnd slot _ hs (.inr ⟨a, ha⟩)
          ⟨_, rfl⟩ (.inl ⟨rfl, fun hi => hi⟩) (Slot.age_le rfl (Nat.le_refl _))
          fun _ hl => absurd (.inr hl) hd)
      · exact .refl

theorem leaveScope_changes (hl : F.left scope) (h : s.leaveScope scope = ok s') :
    Changes F s s' := by
  simp only [leaveScope, eq_ok] at h
  obtain ⟨-, -, ind, hi, rfl⟩ := h
  have hk : ∀ (i : Nat) (r : ScopeRecord), (s.scopes.set ind none)[i]? = some (some r) →
      s.scopes[i]? = some (some r) := by
    intro i r hr
    rw [getElem?_set] at hr
    split at hr
    · split at hr <;> cases hr
    · exact hr
  -- the scope's slots go first, then the scope row, then the scan bound
  have hs := Change.localsReleased s scope hl
  have hro := @Change.quiet F { s with slots := releaseLocals s.slots s.activeSlotsEnd scope }
    (s.scopes.set ind none) (trimEnd (fun i => (s.scopes.set ind none)[i]?.any Option.isNone)
      s.activeScopesEnd) s.nextScope s.heap.revision s.heap.workers s.heap.nextWorker
    (Nat.le_refl _) (.inl rfl) (fun i r hr => .inr ⟨r, hk i r hr, rfl⟩) (.inl rfl)
    (.same { s with slots := releaseLocals s.slots s.activeSlotsEnd scope }) (.inr rfl)
  exact (((Relation.ReflTransGen.single hs).tail hro).tail (.trimmed _)).tail (.advance _)

/-! ## Owners and charges -/

theorem chargeHeapFabricStorage_changes (h : s.chargeHeapFabricStorage n = ok s') :
    Changes F s s' := by
  simp only [chargeHeapFabricStorage, totalReservedBytes, eq_ok] at h
  obtain ⟨-, _, ⟨-, rfl⟩, _, ⟨hl, rfl⟩, hn, _, ⟨-, rfl⟩, rfl⟩ := h
  exact .single (.fixedCharge s n (by omega))

theorem admitOwner_changes {l : Nat} {token : OwnerAccount}
    (h : s.admitOwner owner l = ok (token, s')) : Changes F s s' := by
  simp only [admitOwner, eq_ok] at h
  obtain ⟨-, -, -, i, hf, placement, hb, _, ⟨hn, rfl⟩, -, rfl⟩ := h
  exact (Change.admitted s i _ placement (freeRow_eq_some hf) rfl rfl rfl hn hb).advanced

theorem closeOwner_changes {owner : OwnerAccount} (h : s.closeOwner owner = ok (n, s')) :
    Changes F s s' := by
  simp only [closeOwner, bind_eq_ok] at h
  obtain ⟨a, ha, h⟩ := h
  split at h
  · simp only [eq_ok] at h
    exact h.2 ▸ .refl
  · simp only [eq_ok, join_eq_some_iff] at h
    obtain ⟨row, hr, -, rfl⟩ := h
    obtain rfl := row_unique (account_eq_ok.mp ha).1 hr
    exact (Change.ownerClosed s a owner ha).advanced

theorem releaseOwner_changes {owner : OwnerAccount} (h : s.releaseOwner owner = ok s') :
    Changes F s s' := by
  simp only [releaseOwner, eq_ok] at h
  obtain ⟨a, ha, ⟨-, hz, hj⟩, placement, hb, -, rfl⟩ := h
  exact (Change.ownerReleased s a owner placement ha hz hj hb).advanced

theorem releaseClosedAccount_changes {i : Nat}
    (h : (s.releaseClosedAccount i : Res HeapError _) = ok s') : Changes F s s' := by
  unfold releaseClosedAccount at h
  split at h
  · cases h
    exact .refl
  · split at h
    · split at h
      · rename_i ho
        cases h
        exact releaseOwner_changes ho
      · cases h
        exact .refl
      · cases h
    · cases h
      exact .refl

theorem releaseClosedHeapAccounts_changes
    (h : (s.releaseClosedHeapAccounts : Res HeapError _) = ok s') : Changes F s s' := by
  unfold releaseClosedHeapAccounts at h
  generalize List.range s.heap.accounts.length = rows at h
  induction rows generalizing s with
  | nil =>
    cases h
    exact .refl
  | cons i rows ih =>
    simp only [foldlM_cons, bind_eq_ok] at h
    obtain ⟨t, ht, h⟩ := h
    exact (releaseClosedAccount_changes ht).trans (ih h)

theorem reserveHeap_changes {owner : OwnerAccount}
    (h : s.reserveHeap owner logical revision = ok (r, s')) : Changes F s s' := by
  simp only [reserveHeap, totalReservedBytes, eq_ok, slotAt_eq_ok, setReserved_eq_ok] at h
  obtain ⟨a, ha, ho, hl, ro, hr, -, -, _, ⟨hre, rfl⟩, hli, _,
    ⟨-, rfl⟩, _, ⟨htt, rfl⟩, hto, slot, hs, c, hro, old, hold, placement, ex,
    ht, _, ⟨row, _, hac, ⟨-, rfl⟩, rfl⟩, _, ⟨-, rfl⟩, _, ⟨hj, rfl⟩, rfl, rfl⟩ := h
  obtain rfl := row_unique (account_eq_ok.mp ha).1 hac
  obtain ⟨free, hf, hst, hg⟩ := freeSlot_eq_some hs
  obtain rfl := mem_unique hf hold
  exact (Change.reserved s a owner slot c logical ro free _ placement ex ha ho
    hl hr hj (by omega) (by omega) hf hst hg (freeRow_eq_some hro) rfl
    ht).advanced

theorem releaseLifetime_changes (hn : Names s r slot record job)
    (hr : Refunds s.heap.revision r s.heap.placement placement)
    (h : s.releaseLifetime r record.owner record.cleanup record.rounded placement = ok s') :
    Changes F s s' := by
  have hre := reservationRecord_eq_ok.mpr ⟨slot, job, hn⟩
  obtain ⟨a, ha⟩ := hn.account
  simp only [releaseLifetime, eq_ok, setReserved_eq_ok, slotAt_eq_ok] at h
  obtain ⟨_, ⟨row, _, hro, ⟨hh, rfl⟩, rfl⟩, _, ⟨ht, rfl⟩, -, slot', hs', rfl⟩ := h
  rw [hn.owner] at hro ⊢
  obtain rfl := row_unique (account_eq_ok.mp ha).1 hro
  obtain rfl := mem_unique hn.slot_eq hs'
  have hc := @Change.refunded F s a r record slot placement ha hre hs' hh ht hr
  exact ((Relation.ReflTransGen.single hc).tail (.trimmed _)).tail (.advance _)

theorem giveBackExtents_refunds (ho : record.owner = r.owner)
    (h : s.giveBackExtents r record = ok placement) :
    Refunds s.heap.revision r s.heap.placement placement := by
  unfold giveBackExtents at h
  split at h
  · rename_i hn _
    rw [hn]
    cases h
    exact .unplaced
  · rename_i p e hs _
    simp only [eq_ok] at h
    obtain ⟨-, plan, hpl, p', hp', rfl⟩ := h
    rw [hs]
    exact .placed e plan hpl (ho ▸ hp')
  · cases h

theorem abortHeap_changes (h : s.abortHeap r = ok s') : Changes F s s' := by
  simp only [abortHeap, eq_ok] at h
  obtain ⟨record, hr, -, _, -, -, _, -, -, placement, hp, h⟩ := h
  obtain ⟨slot, job, hn⟩ := reservationRecord_eq_ok.mp hr
  exact releaseLifetime_changes hn (giveBackExtents_refunds hn.owner hp) h

theorem reserveHostStorage_changes {owner : OwnerAccount}
    (h : s.reserveHostStorage owner logical revision = ok (token, s')) : Changes F s s' := by
  simp only [reserveHostStorage, totalReservedBytes, eq_ok, setReserved_eq_ok, Option.any_eq_true,
    decide_eq_true_eq] at h
  obtain ⟨a, ha, -, -, ro, hr, -, -, ⟨n, ⟨hn, rfl⟩, hl⟩, _, ⟨-, rfl⟩, ⟨m, ⟨hm, rfl⟩,
    ht⟩, row, hro, _, ⟨a', _, hac, ⟨-, rfl⟩, rfl⟩, _, ⟨-, rfl⟩, _,
    ⟨hj, rfl⟩, -, rfl⟩ := h
  obtain rfl := row_unique (account_eq_ok.mp ha).1 hac
  exact (Change.hostReserved s a owner row logical ro ha hr hj (by omega) (by omega)
    (freeRow_eq_some hro)).advanced

theorem hostStorageRecord_eq_ok {record : HostStorageRecord}
    (h : s.hostStorageRecord token = ok record) :
    s.heap.hostStorage[token.row]? = some (some record) ∧ record.token = token := by
  simp only [hostStorageRecord, eq_ok, filter_eq_some_iff, join_eq_some_iff, beq_iff_eq] at h
  obtain ⟨_, -, h⟩ := h
  exact h

theorem releaseHostStorage_changes (h : s.releaseHostStorage token = ok s') : Changes F s s' := by
  simp only [releaseHostStorage, eq_ok, setReserved_eq_ok] at h
  obtain ⟨record, hr, a, ha, ⟨hh, -⟩, _, ⟨a', _, hro, ⟨-, rfl⟩, rfl⟩, _, ⟨ht, rfl⟩, rfl⟩ := h
  obtain ⟨hho, hto⟩ := hostStorageRecord_eq_ok hr
  obtain rfl := row_unique (account_eq_ok.mp ha).1 hro
  exact (Change.hostRefunded s a token record ha hho hto hh ht).advanced

/-! ## Lifetimes -/

theorem inactive_of_isHeld (h : slot.state.isHeld = true) : slot.inactive = false := by
  unfold Slot.inactive
  cases hs : slot.state <;> simp_all [SlotState.isHeld]

theorem Names.slotChange (hn : Names s r slot record job) (new : Slot) (record' : HeapRecord)
    (hne : new.record = .heap record') (hs : record.Same record')
    (hg : new.generation = slot.generation) (hh : new.state.isHeld = true)
    (hse : Settled slot.state record job → Settled new.state record' job)
    (hp : slot.state.isPending = true → new.state.isPending = true)
    (ha : record'.everAttached = true → record.everAttached = true ∨ s.heap.placement.isSome = true)
    (hr : slot.state.rank ≤ new.state.rank) :
    Change F s { s with slots := s.slots.set r.slot new } := by
  have hc := @Change.relabelled F s r.slot slot new record record' job job hn.slot_eq
    hn.record_eq hne hs hg hh (inactive_of_isHeld hn.held) hn.job_eq rfl
    hse hp ha (Slot.age_le hg hr) le_rfl fun _ => .inl
  rwa [set_row_self hn.job_eq] at hc

theorem Names.jobChange (hn : Names s r slot record job) (job' : CleanupRecord)
    (hre : job'.reservation = job.reservation)
    (hs : Settled slot.state record job → Settled slot.state record job')
    (hc : job.clock ≤ job'.clock) (hr : ∀ handle, job'.lease.refersTo handle = true →
      job.lease.refersTo handle = true ∨ ∃ row, s.worker handle = ok row) :
    Change F s { s with heap := { s.heap with
      cleanup := s.heap.cleanup.set record.cleanup (some job') } } := by
  have hch := @Change.relabelled F s r.slot slot slot record record job job' hn.slot_eq
    hn.record_eq hn.record_eq ⟨rfl, rfl, rfl, rfl, rfl⟩ rfl hn.held
    (inactive_of_isHeld hn.held) hn.job_eq hre hs id .inl le_rfl hc hr
  rwa [set_row_self hn.slot_eq] at hch

theorem reservedExtents_eq_ok {e : HeapExtents} (h : s.reservedExtents r = ok e) :
    ∃ record p ar, s.reservationRecord r = ok record ∧ record.extents = some e ∧
      s.heap.placement = some p ∧ p.physical.reservationExtent r.key = some e.physical ∧
      p.virtualArenas[r.owner.index]? = some ar ∧
      ar.reservationExtent r.key = some e.virtualExtent := by
  simp only [reservedExtents, eq_ok] at h
  obtain ⟨record, hr, ex, hex, p, hp, hph, ar, ha, hv, rfl⟩ := h
  exact ⟨record, p, ar, hr, hex, hp, hph, ha, hv⟩

theorem prepareHeapPrivate_eq_ok {att : Bool} {plan : HeapAttachmentPlan}
    (h : s.prepareHeapPrivate r owner revision att = ok plan) :
    ∃ slot record job, Names s r slot record job ∧ slot.state = .reserved ∧
      record.everAttached = att ∧ record.published = false ∧ s.heap.placement.isSome = true ∧
      plan.reservation = r ∧ plan.revision = s.heap.revision := by
  simp only [prepareHeapPrivate, eq_ok, slotAt_eq_ok] at h
  obtain ⟨a, -, -, -, -, -, record, hr, slot, hs, ⟨hst, ha, hpu⟩, -, -, e, hex, -, rfl⟩ := h
  obtain ⟨slot', job, hn⟩ := reservationRecord_eq_ok.mp hr
  obtain rfl := mem_unique hn.slot_eq hs
  obtain ⟨_, p, _, -, -, hp, -⟩ := reservedExtents_eq_ok hex
  exact ⟨slot', record, job, hn, hst, ha, hpu, by rw [hp]; rfl, rfl, rfl⟩

/-- What a closure plan has checked. -/
structure ClosureChecked (s : ScopedPointers) (r : HeapReservation) (owner : AllocationOwner)
    (plan : HeapClosurePlan) (slot : Slot) (record : HeapRecord) (job : CleanupRecord) :
    Prop where
  names : Names s r slot record job
  attached : record.everAttached = true
  settled : Settled slot.state record job
  positive : 0 < record.rounded
  extents : s.reservedExtents r = ok plan.extents
  size : plan.extents.physical.size = record.rounded
  plan_eq : plan = { plan with
    reservation := r, owner, logical := record.logical, writable := record.writable
    cleanup := record.cleanup, stage := slot.state, revision := s.heap.revision }

theorem prepareAttachedHeapClosure_eq_ok {plan : HeapClosurePlan}
    (h : s.prepareAttachedHeapClosure r owner = ok plan) :
    ∃ slot record job, ClosureChecked s r owner plan slot record job := by
  simp only [prepareAttachedHeapClosure, checkCharges, eq_ok, slotAt_eq_ok, join_eq_some_iff] at h
  obtain ⟨a, -, -, record, hre, ha, slot, hsl, -, job, hj, ⟨hq, -, hrs, hl⟩,
    hpg, e, hex, ⟨-, _, hr, rfl, hsi, -⟩, rfl⟩ := h
  obtain ⟨slot', job', hn⟩ := reservationRecord_eq_ok.mp hre
  obtain rfl := mem_unique hn.slot_eq hsl
  obtain rfl := row_unique hn.job_eq hj
  refine ⟨slot', record, job', hn, ha, ⟨hq, ?_, ?_, hpg⟩, pageCeil_pos hr, hex, hsi, rfl⟩
  · intro hs
    simpa using fun hp => hrs ⟨hs, hp⟩
  · intro hs
    simpa using fun hp => hl ⟨hs, hp⟩

theorem closing_changes {i : Nat} (hsl : s.slots[i]? = some slot)
    (hre : slot.record = .heap record) (hh : slot.state.isHeld = true)
    (hr : slot.state ≠ .retired) (hj : s.heap.cleanup[record.cleanup]? = some (some job)) :
    Changes F s { s with
      slots := s.slots.set i { slot with state := .closing }
      heap := { s.heap with
        cleanup := s.heap.cleanup.set record.cleanup (some { job with queued := true }) }
          }.advance := by
  have hra : slot.state.rank ≤ SlotState.closing.rank := by
    cases hs : slot.state <;> simp_all [SlotState.isHeld, SlotState.rank]
  refine (Change.relabelled s i slot { slot with state := .closing } record record job
    { job with queued := true } hsl hre hre ⟨rfl, rfl, rfl, rfl, rfl⟩ rfl rfl
    (inactive_of_isHeld hh) hj rfl (fun hse => ?_) (fun _ => rfl) .inl
    (Slot.age_le rfl hra) le_rfl fun _ => .inl).advanced
  have hp := hse.progress.pending hr
  exact ⟨rfl, fun h => (by cases h), fun h => (by cases h), by simp [progressValid, hp]⟩

theorem closeHeap_changes {owner : OwnerAccount} (h : s.closeHeap owner pointer = ok s') :
    Changes F s s' := by
  simp only [closeHeap, eq_ok, join_eq_some_iff, Slot.heap?_eq_some] at h
  obtain ⟨a, -, -, slot, hs, ⟨-, -, hl⟩, record, hr, ⟨-, -⟩, job, hj, rfl⟩ := h
  exact closing_changes hs hr (by rw [hl]; rfl) (by rw [hl]; decide) hj

theorem attach_changes (h : s.run (.attach r owner revision) = ok s') : Changes F s s' := by
  simp only [run, prepareHeapAttachment, commitHeapAttachment, eq_ok, slotAt_eq_ok,
    Slot.heap?_eq_some] at h
  obtain ⟨plan, hpl, -, slot', hs, record', hre, rfl⟩ := h
  obtain ⟨slot, record, job, hn, -, -, -, hp, hr, -⟩ := prepareHeapPrivate_eq_ok hpl
  rw [hr] at hs ⊢
  obtain rfl := mem_unique hn.slot_eq hs
  obtain rfl : record = record' := by simpa [hn.record_eq] using hre
  refine (hn.slotChange { slot with record := .heap { record with everAttached := true } } _
    rfl ⟨rfl, rfl, rfl, rfl, rfl⟩ rfl hn.held ?_ id (fun _ => .inr hp) (Nat.le_refl _)).advanced
  exact fun hse => { hse with }

theorem publish_changes (h : s.run (.publish r owner revision writable) = ok s') :
    Changes F s s' := by
  simp only [run, prepareHeapInitialization, commitHeapImagePublication, eq_ok, slotAt_eq_ok,
    Slot.heap?_eq_some] at h
  obtain ⟨plan, hp, _, _, ⟨-, slot', hs, -, -, record', hre, -, -, rfl⟩, rfl⟩ := h
  obtain ⟨slot, record, job, hn, hst, -, -, -, hr, -⟩ := prepareHeapPrivate_eq_ok hp
  rw [hr] at hs ⊢
  obtain rfl := mem_unique hn.slot_eq hs
  obtain rfl : record = record' := by simpa [hn.record_eq] using hre
  let published : HeapRecord := { record with published := true, writable }
  refine (hn.slotChange { slot with state := .live, record := .heap published } published rfl
    ⟨rfl, rfl, rfl, rfl, rfl⟩ rfl rfl ?_ ?_ .inl (by simp [hst, SlotState.rank])).advanced
  · intro hse
    have hpe := hse.progress.pending (by rw [hst]; decide)
    exact ⟨by rw [hse.queued, hst]; rfl, (fun h => by cases h), fun _ => rfl,
      by simp [progressValid, hpe]⟩
  · intro h
    rw [hst] at h
    cases h

theorem closeAttached_changes (h : s.run (.closeAttached r owner) = ok s') : Changes F s s' := by
  simp only [run, eq_ok] at h
  obtain ⟨plan, hp, o, t, hc, rfl⟩ := h
  obtain ⟨slot, record, job, hch⟩ := prepareAttachedHeapClosure_eq_ok hp
  have hn := hch.names
  rw [hch.plan_eq] at hc
  simp only [commitAttachedHeapClosure, eq_ok, slotAt_eq_ok, join_eq_some_iff] at hc
  obtain ⟨-, slot', hs, job', hj, -, -, -, -, hc⟩ := hc
  obtain rfl := mem_unique hn.slot_eq hs
  obtain rfl := row_unique hn.job_eq hj
  split at hc
  · cases hc
    exact .refl
  rename_i hr
  split at hc <;> cases hc
  · exact .refl
  · exact closing_changes hs hn.record_eq hn.held hr hj

/-! ## Workers -/

theorem workers_changes (s : ScopedPointers) (workers : List (Option WorkerRecord))
    (nextWorker : Nat) (h : nextWorker = s.heap.nextWorker ∨ nextWorker ≤ u64Max)
    (hf : WorkersFollow s workers nextWorker) (hro : F.roles) :
    Changes F s { s with heap := { s.heap with workers, nextWorker } }.advance :=
  (Change.quiet s s.scopes s.activeScopesEnd s.nextScope s.heap.revision workers nextWorker
    (Nat.le_refl _) (.inl rfl) (fun _ r hr => .inr ⟨r, hr, rfl⟩) h hf (.inl hro)).advanced

theorem worker_eq_ok {row : WorkerRecord} (h : s.worker handle = ok row) :
    s.heap.workers[handle.row - 1]? = some (some row) ∧ row.handle = handle := by
  simp only [worker, eq_ok, filter_eq_some_iff, join_eq_some_iff, Bool.and_eq_true, beq_iff_eq] at h
  obtain ⟨_, ⟨-, rfl⟩, hr, -, hh⟩ := h
  exact ⟨hr, hh⟩

theorem enrollCleanupWorkerRecord_changes (hro : F.roles)
    (h : s.enrollCleanupWorkerRecord identity expected = ok (handle, s')) : Changes F s s' := by
  simp only [enrollCleanupWorkerRecord, eq_ok] at h
  obtain ⟨-, -, -, ind, hf, _, ⟨hm, rfl⟩, -, rfl⟩ := h
  have hr := freeRow_eq_some hf
  refine workers_changes s _ _ (.inr hm) ⟨Nat.le_succ _, fun i w hw => ?_, fun i w hw => ?_⟩ hro
  · rw [getElem?_set_row hr] at hw
    split at hw
    · cases hw
      exact .inr ⟨rfl, Nat.lt_succ_self _⟩
    · exact .inl ⟨w, hw, rfl, id⟩
  · refine .inl ⟨w, ?_, rfl⟩
    rw [getElem?_set_row hr, if_neg]
    · exact hw
    · rintro rfl
      rw [hr] at hw
      cases hw

theorem fenceCleanupWorkerRecord_changes (hro : F.roles)
    (h : s.fenceCleanupWorkerRecord handle = ok s') : Changes F s s' := by
  simp only [fenceCleanupWorkerRecord, eq_ok] at h
  obtain ⟨row, hwo, -, rfl⟩ := h
  obtain ⟨hr, -⟩ := worker_eq_ok hwo
  refine workers_changes s _ _ (.inl rfl) ⟨Nat.le_refl _, fun i w hw => ?_, fun i w hw => ?_⟩ hro
  · rw [getElem?_set_row hr] at hw
    split at hw
    · rename_i hi
      cases hw
      exact .inl ⟨row, hi ▸ hr, rfl, fun h => by cases h⟩
    · exact .inl ⟨w, hw, rfl, id⟩
  · rw [getElem?_set_row hr]
    split
    · rename_i hi
      rw [← hi, hr] at hw
      cases hw
      exact .inl ⟨_, rfl, rfl⟩
    · exact .inl ⟨w, hw, rfl⟩

theorem removeCleanupWorkerRecord_changes (hro : F.roles)
    (h : s.removeCleanupWorkerRecord handle = ok s') : Changes F s s' := by
  simp only [removeCleanupWorkerRecord, eq_ok] at h
  obtain ⟨row, hwo, -, hu, rfl⟩ := h
  obtain ⟨hr, hh⟩ := worker_eq_ok hwo
  refine workers_changes s _ _ (.inl rfl) ⟨Nat.le_refl _, fun i w hw => ?_, fun i w hw => ?_⟩ hro
  · rw [getElem?_set_row hr] at hw
    split at hw
    · cases hw
    · exact .inl ⟨w, hw, rfl, id⟩
  · rw [getElem?_set_row hr]
    split
    · -- the removed row: no job's lease refers to it
      rename_i hi
      rw [← hi, hr] at hw
      cases hw
      refine .inr fun i job hj => ?_
      have hj' := any_eq_false.mp hu _ (mem_of_getElem? hj)
      rw [hh]
      simpa using hj'
    · exact .inl ⟨w, hw, rfl⟩

theorem currentWorker_eq_ok {u : Unit} (h : s.currentWorker handle identity = ok u) :
    ∃ row, s.worker handle = ok row ∧ row.state = .active := by
  simp only [currentWorker, eq_ok] at h
  obtain ⟨row, hr, ha, -⟩ := h
  exact ⟨row, hr, ha⟩

theorem claim_changes (h : s.run (.claim handle identity r owner expected) = ok s') :
    Changes F s s' := by
  simp only [run, prepareHeapWorkerClaim, commitHeapWorkerClaim, eq_ok, join_eq_some_iff] at h
  obtain ⟨_, ⟨-, hw, _, -, record, hre, -, job0, hj0, _, -, -, epoch, hep, _,
    ⟨-, rfl⟩, rfl⟩, _, _, ⟨-, job', hj, -, -, -, -, rfl⟩, rfl⟩ := h
  obtain ⟨slot, job, hn⟩ := reservationRecord_eq_ok.mp hre
  obtain rfl := row_unique hn.job_eq hj
  obtain rfl := row_unique hn.job_eq hj0
  have hl := JobLease.unowned?_eq_some.mp hep
  refine (hn.jobChange { job with lease := .held (epoch + 1) handle } rfl (fun hs =>
    { hs with }) ?_ ?_).advanced
  · refine (CleanupRecord.clock_lt_of_lease ?_).le
    simp only [hl, JobLease.clock]
    omega
  · intro handle' hr
    obtain rfl : handle = handle' := by simpa [JobLease.refersTo] using hr
    obtain ⟨row, hro, -⟩ := currentWorker_eq_ok hw
    exact .inr ⟨row, hro⟩

theorem prepareHeapWorkerLease_eq_ok {plan : HeapClosurePlan}
    (h : s.prepareHeapWorkerLease lease identity owner = ok plan) :
    s.prepareAttachedHeapClosure lease.reservation owner = ok plan := by
  simp only [prepareHeapWorkerLease, eq_ok] at h
  obtain ⟨-, plan', hp, _, -, -, _, -, _, -, -, rfl⟩ := h
  exact hp

theorem retire_changes (h : s.run (.retire lease identity owner) = ok s') : Changes F s s' := by
  simp only [run, prepareHeapRetirement, commitHeapRetirement, eq_ok, slotAt_eq_ok,
    join_eq_some_iff] at h
  obtain ⟨_, ⟨_, hcl, -, record', hr, rfl⟩, -, _, -, -, -, -, slot', hsl, -, hc, rfl⟩ := h
  obtain ⟨slot, record, job, hch⟩ :=
    prepareAttachedHeapClosure_eq_ok (prepareHeapWorkerLease_eq_ok hcl)
  have hn := hch.names
  obtain rfl := mem_unique hn.slot_eq hsl
  refine (hn.slotChange { slot with state := .retired } record hn.record_eq
    ⟨rfl, rfl, rfl, rfl, rfl⟩ rfl rfl ?_ (fun _ => rfl) .inl
    (by simp [hc, SlotState.rank])).advanced
  intro hs
  have hp := hs.progress.pending (by rw [hc]; decide)
  exact ⟨by rw [hs.queued, hc]; rfl, (fun h => by cases h), (fun h => by cases h),
    by simp [progressValid, hp]⟩

/-- What a retired-cleanup plan has checked. -/
structure CleanupChecked (s : ScopedPointers) (lease : CleanupLease) (owner : AllocationOwner)
    (plan : HeapCleanupPlan) (slot : Slot) (record : HeapRecord) : Prop where
  closure : ClosureChecked s lease.reservation owner plan.closure slot record plan.prior
  retired : slot.state = .retired
  plan_eq : plan = { plan with
    lease, cleanup := record.cleanup, next := plan.prior, revision := s.heap.revision }

theorem prepareRetiredCleanup_eq_ok {expected : Option HeapCleanupStatus}
    (h : s.prepareRetiredCleanup lease identity owner expected = ok plan) :
    ∃ slot record, CleanupChecked s lease owner plan slot record := by
  simp only [prepareRetiredCleanup, eq_ok, join_eq_some_iff] at h
  obtain ⟨c, hcl, hs, record', hr, -, p, hp, -, rfl⟩ := h
  obtain ⟨slot, record, job, hc⟩ :=
    prepareAttachedHeapClosure_eq_ok (prepareHeapWorkerLease_eq_ok hcl)
  have hsa := hc.names.unique hr
  rw [← hsa] at hp ⊢
  obtain rfl := row_unique hc.names.job_eq hp
  refine ⟨slot, record, hc, ?_, rfl⟩
  rw [hc.plan_eq] at hs
  exact hs

theorem commitHeapScrub_eq_ok (h : (s.commitHeapScrub plan : Res HeapError _) =
    ok (status, s')) :
    s' = { s with heap := { s.heap with
      cleanup := s.heap.cleanup.set plan.cleanup (some plan.next) } }.advance := by
  simp only [commitHeapScrub, eq_ok] at h
  obtain ⟨-, -, rfl⟩ := h
  rfl

theorem CleanupChecked.scrubbed {job' : CleanupRecord} {next : HeapCleanupStatus}
    (hc : CleanupChecked s lease owner plan slot record)
    (hco : (s.commitHeapScrub { plan with next := job' } : Res HeapError _) = ok (next, s'))
    (hre : job'.reservation = plan.prior.reservation) (hq : job'.queued = plan.prior.queued)
    (hl : job'.lease = plan.prior.lease) (hv : progressValid .retired record.rounded job')
    (hcl : plan.prior.clock < job'.clock) : Changes F s s' := by
  have hs := hc.closure.settled
  have hro : plan.cleanup = record.cleanup := by rw [hc.plan_eq]
  rw [commitHeapScrub_eq_ok hco, hro]
  refine (hc.closure.names.jobChange job' hre (fun _ => ?_) hcl.le fun handle hr =>
    .inl (hl ▸ hr)).advanced
  exact ⟨hq.trans hs.queued, hs.reserved, hs.live, hc.retired ▸ hv⟩

theorem scrubBegin_changes (h : s.run (.scrubBegin lease identity owner) = ok s') :
    Changes F s s' := by
  simp only [run, prepareHeapScrubBegin, eq_ok] at h
  obtain ⟨_, ⟨plan, hp, hpe, rfl⟩, status, t, hco, rfl⟩ := h
  obtain ⟨slot, record, hc⟩ := prepareRetiredCleanup_eq_ok hp
  have hn : plan.next = plan.prior := by rw [hc.plan_eq]
  rw [hn] at hco
  exact hc.scrubbed hco rfl rfl rfl ⟨rfl, hc.closure.positive, rfl⟩
    (CleanupRecord.clock_lt_of_progress rfl rfl (by simp [hpe, HeapScrubProgress.rank]))

theorem scrubChunk_changes {am : Nat}
    (h : s.run (.scrubChunk status identity owner am) = ok s') : Changes F s s' := by
  simp only [run, prepareHeapScrubChunk, eq_ok] at h
  obtain ⟨_, ⟨plan, hpl, done, hd, ⟨hne, -, hm⟩, _, ⟨hl, rfl⟩, hf, _, ⟨-, rfl⟩, _,
    ⟨-, rfl⟩, _, ⟨-, rfl⟩, rfl⟩, next, t, hco, rfl⟩ := h
  obtain ⟨slot, record, hc⟩ := prepareRetiredCleanup_eq_ok hpl
  have hpr : plan.prior.progress = .scrubbing done := by
    cases hp : plan.prior.progress <;> simp_all [HeapScrubProgress.scrubbing?]
  have hv := hc.closure.settled.progress
  simp only [progressValid, hpr] at hv
  have hn : plan.next = plan.prior := by rw [hc.plan_eq]
  rw [hn, hc.closure.size] at hco
  rw [hc.closure.size] at hl hf
  refine hc.scrubbed hco rfl rfl rfl ?_ (CleanupRecord.clock_lt_of_version rfl (Nat.lt_succ_self _))
  by_cases hcl : done + am = record.rounded
  · simp [progressValid, hcl]
  · simp only [progressValid, hcl, if_false]
    exact ⟨trivial, by omega, by omega⟩

theorem release_changes (h : s.run (.release status identity owner) = ok s') : Changes F s s' := by
  simp only [run, prepareHeapRelease, commitHeapRelease, eq_ok] at h
  obtain ⟨_, ⟨c, hcl, hcle, record', hre, a, -, p, hp, plan, hpl, rfl⟩, -, _,
    -, -, p', hp', p'', hco, h⟩ := h
  obtain ⟨slot, record, hc⟩ := prepareRetiredCleanup_eq_ok hcl
  obtain rfl := mem_unique hp hp'
  have hr : c.closure.reservation = status.lease.reservation := by
    rw [hc.closure.plan_eq]
  have hro : c.cleanup = record.cleanup := by rw [hc.plan_eq]
  have hrv : c.revision = s.heap.revision := by rw [hc.plan_eq]
  simp only [hr, hro, hrv] at hre hpl hco h
  obtain rfl := hc.closure.names.unique hre
  rw [← hc.closure.names.owner] at h
  refine releaseLifetime_changes hc.closure.names ?_ h
  rw [hp]
  exact .placed _ plan hpl hco

theorem transition_changes {re : Bool} (h : s.run (.transition lease owner re) = ok s') :
    Changes F s s' := by
  simp only [run, prepareWorkerTransition, commitHeapWorkerRecovery, eq_ok, slotAt_eq_ok,
    join_eq_some_iff] at h
  obtain ⟨_, ⟨_, -, _, -, record, hre, -, job', hj, _, -, -, ⟨-, hl⟩, -, version,
    hv, rfl⟩, -, -, rfl⟩ := h
  obtain ⟨slot, job, hn⟩ := reservationRecord_eq_ok.mp hre
  obtain rfl := row_unique hn.job_eq hj
  cases re with
  | true =>
    -- recovery restarts the scrub: any progress is valid again as `pending`
    refine (hn.jobChange { job with lease := .unowned lease.epoch, version, progress := .pending }
      rfl (fun hs => { hs with progress := trivial }) ?_
      (by simp [JobLease.refersTo])).advanced
    refine (CleanupRecord.clock_lt_of_lease ?_).le
    simp [hl, JobLease.clock]
  | false =>
    obtain rfl : job.version = version := by simpa using hv
    refine (hn.jobChange { job with lease := .revoking lease.epoch lease.worker } rfl
      (fun hs => { hs with }) ?_
      ?_).advanced
    · refine (CleanupRecord.clock_lt_of_lease ?_).le
      simp [hl, JobLease.clock]
    · intro handle hr
      exact .inl (by simpa [hl, JobLease.refersTo] using hr)

/-! ## All calls -/

theorem changes_of_call {α : Type} {x : Res HeapError (α × ScopedPointers)}
    (hx : ∀ a t, x = ok (a, t) → Changes F s t)
    (h : (do let (_, t) ← x; return t) = ok s') : Changes F s s' := by
  simp only [eq_ok] at h
  obtain ⟨a, t, ht, rfl⟩ := h
  exact hx a t ht

/-- **Every call that returns is a chain of atomic changes.** -/
theorem run_changes {op : RegistryOp} (hl : ∀ scope, op = .leaveScope scope → F.left scope)
    (hr : op.roles = true → F.roles) (h : s.run op = ok s') : Changes F s s' := by
  cases op with
  | chargeHeapFabricStorage n => exact chargeHeapFabricStorage_changes h
  | enterScopeFor =>
    exact changes_of_call (fun _ _ hs => enterScopeFor_changes (mapErr_eq_ok.mp hs)) h
  | enterFrame owner fr =>
    simp only [run, eq_ok] at h
    obtain ⟨_, _, hs, hb⟩ := h
    exact (enterScopeFor_changes hs).trans (bindFrame_changes hb)
  | register => exact changes_of_call (fun _ _ hs => register_changes (mapErr_eq_ok.mp hs)) h
  | registerBacked scope d base l writable b =>
    simp only [run, eq_ok] at h
    obtain ⟨_, _, hs, hb⟩ := h
    exact (register_changes hs).trans (bindBacking_changes hb)
  | takeBacking pointer =>
    cases h
    exact takeBacking_changes s pointer
  | leaveScope scope => exact leaveScope_changes (hl scope rfl) (mapErr_eq_ok.mp h)
  | admitOwner => exact changes_of_call (fun _ _ => admitOwner_changes) h
  | reserveHeap => exact changes_of_call (fun _ _ => reserveHeap_changes) h
  | abortHeap r => exact abortHeap_changes h
  | closeHeap owner pointer => exact closeHeap_changes h
  | closeOwner => exact changes_of_call (fun _ _ => closeOwner_changes) h
  | releaseOwner owner => exact releaseOwner_changes h
  | releaseClosedHeapAccounts => exact releaseClosedHeapAccounts_changes h
  | reserveHostStorage => exact changes_of_call (fun _ _ => reserveHostStorage_changes) h
  | releaseHostStorage token => exact releaseHostStorage_changes h
  | attach r owner revision => exact attach_changes h
  | initializeChunk r owner revision =>
    simp only [run, commitHeapInitialization, eq_ok] at h
    obtain ⟨_, -, -, rfl⟩ := h
    exact .single (.advance s)
  | publish r owner revision writable => exact publish_changes h
  | closeAttached r owner => exact closeAttached_changes h
  | enrollWorker =>
    exact changes_of_call (fun _ _ => enrollCleanupWorkerRecord_changes (hr rfl)) h
  | claim w identity r owner expected => exact claim_changes h
  | fenceWorker w => exact fenceCleanupWorkerRecord_changes (hr rfl) h
  | removeWorker w => exact removeCleanupWorkerRecord_changes (hr rfl) h
  | retire lease identity owner => exact retire_changes h
  | scrubBegin lease identity owner => exact scrubBegin_changes h
  | scrubChunk status identity owner am => exact scrubChunk_changes h
  | release status identity owner => exact release_changes h
  | transition lease owner re => exact transition_changes h
  | workRevision expected =>
    simp only [run, commitHeapWorkRevision, eq_ok] at h
    obtain ⟨_, -, -, -, rfl⟩ := h
    exact .single (.advance s)
  | workCleanupRevision =>
    cases h
    exact .single (.advance s)
  | reservedExtents | heapPointer | retainedWork =>
    simp only [run, eq_ok] at h
    obtain ⟨_, -, rfl⟩ := h
    exact .refl

theorem Reachable.invariant {inv : ScopedPointers → Prop} (hi : ∀ s, Constructed s → inv s)
    (hc : ∀ s s', Change {} s s' → inv s → inv s') (hr : Reachable s) : inv s := by
  refine Machine.Reachable.invariant hi (fun t op t' ht hs => ?_) hr
  rcases step_eq_some hs with hru | rfl
  · exact Machine.chain_preserved hc (run_changes (fun _ _ => trivial) (fun _ => trivial) hru) ht
  · exact ht

end ScopedPointers

end Anka
