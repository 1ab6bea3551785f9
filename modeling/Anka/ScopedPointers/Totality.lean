import Anka.ScopedPointers.Extents

/-!
# No registry call panics or finds its own state misconfigured

`HeapError::Configuration` is the error of a registry that contradicts itself. Under the invariants
(`Consistent`) no call returns it and no `unwrap`, assertion or bare subtraction of a commit fails.
One call is left: attachment (and the diagnostic `reserved_extents`) in a registry that was built
without the placement profile, where there are no extents to attach.

**`directory_bijection`** states the whole: the correspondence between cleanup rows and heap slots,
the queue, closed accounts, the scan bound, the claims of both managers, and totality.
-/

namespace Anka

open Rust Res List Option

/-- The two operations that ask for the extents of a lifetime that was never attached. -/
def RegistryOp.NeedsPlacement : RegistryOp → Prop
  | .attach _ _ _ => True
  | .reservedExtents _ => True
  | _ => False

namespace ScopedPointers

variable {F : RegistryFootprint} {s s' : ScopedPointers} {slot : Slot} {a : Account}
  {r : HeapReservation} {record : HeapRecord} {job : CleanupRecord} {token : OwnerAccount}
  {owner : AllocationOwner} {hdl : CleanupWorker} {wid : CleanupWorkerIdentity}
  {lease : CleanupLease} {st : HeapCleanupStatus} {ptr : ScopedPointer} {scope : Scope}
  {rev : Nat}

/-- The error of a registry that contradicts itself. -/
abbrev Misconfigured (e : HeapError) : Prop := e = .configuration

/-! ## Counters -/

/-- Every counter is a `u64`, and scope numbers in use were handed out. -/
structure Counters (s : ScopedPointers) : Prop where
  scope : s.nextScope ≤ u64Max
  owner : s.heap.nextOwner ≤ u64Max
  job : s.heap.nextJob ≤ u64Max
  worker : s.heap.nextWorker ≤ u64Max
  scopes : ∀ (i : Nat) (r : ScopeRecord), s.scopes[i]? = some (some r) → r.scope.raw < s.nextScope

theorem Change.counters (hch : Change F s s') (h : Counters s) : Counters s' := by
  cases hch with
  | quiet sc ac ne rev w n hsc hm hs hwo =>
    have hn := h.scope
    have hw := h.worker
    refine ⟨by simp only; omega, h.owner, h.job, by simp only; omega, fun i r hr => ?_⟩
    rcases hs i r hr with hl | ⟨r0, hr0, hsa⟩
    · exact hl
    · exact Nat.lt_of_lt_of_le (hsa ▸ h.scopes i r0 hr0) hsc
  | admitted ind row p hf ht ho hz hn hb =>
    exact { h with owner := hn }
  | reserved _ _ _ _ _ _ _ _ _ _ _ _ _ _ hj | hostReserved _ _ _ _ _ _ _ hj =>
    exact { h with job := hj }
  | _ => exact { h with }

theorem Counters.of_changes (h : Counters s) (hch : Changes {} s s') : Counters s' :=
  Machine.chain_preserved (fun _ _ hchg h => hchg.counters h) hch h

/-! ## Lookups -/

theorem account_avoids : (s.account token).Avoids Misconfigured := by
  simp [account]

theorem reservationRecord_avoids : (s.reservationRecord r).Avoids Misconfigured := by
  simp [reservationRecord, account_avoids]

theorem worker_avoids : (s.worker hdl).Avoids Misconfigured := by
  simp [worker]

variable {i : Nat} {ε : Type} {bad : ε → Prop} {e : HeapExtents}

theorem slotAt_avoids (h : s.slots[i]? = some slot) : (s.slotAt i : Res ε Slot).Avoids bad := by
  simp [slotAt, h]

theorem cleanup_lt (h : s.reservationRecord r = ok record) :
    record.cleanup < s.heap.cleanup.length := by
  obtain ⟨slot, job, hn⟩ := reservationRecord_eq_ok.mp h
  exact (List.getElem?_eq_some_iff.mp hn.job_eq).1

theorem slotAt_avoids_of_record (h : s.reservationRecord r = ok record) :
    (s.slotAt r.slot : Res ε Slot).Avoids bad := by
  obtain ⟨slot, job, hn⟩ := reservationRecord_eq_ok.mp h
  exact slotAt_avoids hn.slot_eq

theorem account_lt (h : s.account token = ok a) : token.index < s.heap.accounts.length :=
  (List.getElem?_eq_some_iff.mp (account_eq_ok.mp h).1).1

theorem setReserved_avoids {f : Nat → Res ε Nat} (ha : s.account token = ok a)
    (hf : (f a.reserved).Avoids bad) : (s.setReserved token.index f).Avoids bad := by
  simp [setReserved, (account_eq_ok.mp ha).1, hf]

theorem totalReservedBytes_avoids {bad : HeapError → Prop} (h : Ledger s) :
    (s.totalReservedBytes : Res HeapError Nat).Avoids bad := by
  have := h.quota.globalLimit
  have := h.shapes.limit_le
  rw [totalReservedBytes, avoids_plus]
  omega

theorem pageCeil_avoids {bad : PlacementError → Prop} (n : Nat) (hb : ∀ e, ¬ bad e) :
    (pageCeil n).Avoids bad := by
  simp [pageCeil, hb]

theorem Extents.placed (h : Extents s) {slot : Slot} {r : HeapRecord} (hs : s.slots[i]? = some slot)
    (hr : slot.record = .heap r) (ha : r.everAttached = true) : s.heap.placement.isSome = true := by
  cases hp : s.heap.placement with
  | some p => rfl
  | none => exact absurd ha (by simp [(h.unplaced hp i slot r hs hr).2])

theorem Names.reservedExtents_ok (hc : Consistent s) (hn : Names s r slot record job)
    (hp : s.heap.placement.isSome = true) : ∃ e, s.reservedExtents r = ok e := by
  obtain ⟨p, hp⟩ := isSome_iff_exists.mp hp
  obtain ⟨e, v, hex, -, -, hph, hv, hvo, hvi⟩ :=
    (hc.extents.claimed p hp _ slot record job hn.slot_eq hn.record_eq hn.job_eq).held
  rw [hn.owner] at hv
  rw [hn.reservation] at hph hvi
  have hr : v.reservationExtent r.key = some e.virtualExtent := by
    rw [VirtualLayoutBuilder.reservationExtent, if_pos]
    · exact hvi.extent
    · rw [hvo, hn.owner]
      rfl
  refine ⟨e, ?_⟩
  simp only [reservedExtents, eq_ok]
  exact ⟨record, reservationRecord_eq_ok.mpr ⟨slot, job, hn⟩, e, hex, p, hp,
    hph.extent, v, hv, hr, rfl⟩

theorem reservedExtents_avoids (hc : Consistent s)
    (hp : s.heap.placement.isSome = true) : (s.reservedExtents r).Avoids Misconfigured := by
  refine avoids_bind.mpr ⟨reservationRecord_avoids, fun record hr => ?_⟩
  obtain ⟨slot, job, hn⟩ := reservationRecord_eq_ok.mp hr
  obtain ⟨e, hex⟩ := hn.reservedExtents_ok hc hp
  rw [reservedExtents, hr, ok_bind] at hex
  rw [hex]
  exact avoids_ok e

theorem Paired.names (hc : Consistent s) (hp : Paired s i slot record job) :
    Names s job.reservation slot record job := by
  have hs := hp.slot_eq
  have hr := hp.record_eq
  obtain ⟨a, ha, ht⟩ := tokenAt_eq_some.mp (hc.ledger.tokens.heapOwner i slot record hs hr)
  refine ⟨⟨a, account_eq_ok.mpr ?_⟩, ?_, hp.generation.symm,
    hc.ledger.shapes.held i slot record hs hr, hr, hp.owner.symm, hp.job_eq, rfl⟩
  · rw [hp.owner]
    exact ⟨ha, ht⟩
  · rw [hp.index]
    exact hs

theorem Names.sizes (hc : Consistent s) (hn : Names s r slot record job)
    (hex : s.reservedExtents r = ok e) :
    e.physical.size = record.rounded ∧ e.virtualExtent.size = record.rounded := by
  obtain ⟨record', p, _, hr, hs, hp, -⟩ := reservedExtents_eq_ok hex
  obtain rfl := hn.unique hr
  obtain ⟨e', v, hex', hsi, hv, -⟩ :=
    (hc.extents.claimed p hp _ slot record job hn.slot_eq hn.record_eq hn.job_eq).held
  obtain rfl := mem_unique hs hex'
  exact ⟨hsi, hv⟩

theorem Names.charged (hl : Ledger s) (hn : Names s r slot record job)
    (ha : s.account r.owner = ok a) :
    record.rounded ≤ a.reserved ∧ a.reserved ≤ s.heap.reservedBytes := by
  obtain ⟨ho, ht⟩ := hl.quota.of_account ha
  refine ⟨?_, ht⟩
  have hle := @le_charge _ (Slot.chargeTo r.owner) _ _ _ hn.slot_eq
  rw [Slot.chargeTo_owner hn.record_eq hn.owner] at hle
  unfold owned at ho
  omega

theorem checkCharges_avoids (hc : Consistent s)
    (hn : Names s r slot record job) (ha : s.account r.owner = ok a)
    (hex : s.reservedExtents r = ok e) : (s.checkCharges record a e).Avoids Misconfigured := by
  obtain ⟨hz, hm, hr⟩ :=
    hc.ledger.shapes.rounded _ slot record hn.slot_eq hn.record_eq
  obtain ⟨hs, hv⟩ := hn.sizes hc hex
  obtain ⟨hh, ht⟩ := hn.charged hc.ledger ha
  simp [checkCharges, hz, hm, hr, hs, hv, hh, ht]

/-! ## Both managers -/

theorem takeExtents_avoids (hx : Extents s) (ro : Nat) (ha : s.account r.owner = ok a) :
    (s.takeExtents r ro).Avoids Misconfigured := by
  unfold takeExtents
  split
  · exact avoids_ok _
  rename_i p hp
  have hs := hx.sound p hp
  obtain ⟨v, hv⟩ : ∃ v, p.virtualArenas[r.owner.index]? = some v :=
    ⟨_, getElem?_eq_getElem (hs.arenas ▸ account_lt ha)⟩
  refine avoids_bind.mpr ⟨?_, fun plan hpl => .map ?_⟩
  · simp only [HeapPlacement.prepareReserve, PhysicalPlacementManager.prepareHeapTake,
      VirtualLayoutBuilder.prepareHeapTake, hv, avoids_iff, Misconfigured, reduceCtorEq,
      isSome_some]
    exact ⟨Claims.prepareTake_avoids _ _ _ _ _ fun _ => id,
      fun _ _ w _ _ _ => Claims.prepareTake_avoids _ _ _ _ _ fun _ => id⟩
  · simp only [HeapPlacement.prepareReserve, PhysicalPlacementManager.prepareHeapTake,
      VirtualLayoutBuilder.prepareHeapTake, hv, eq_ok, some.injEq] at hpl
    obtain ⟨take, ht, w, rfl, vt, ⟨_, hvt⟩, rfl⟩ := hpl
    simp only [HeapPlacement.commitReserve, PhysicalPlacementManager.commitHeapTake,
      VirtualLayoutBuilder.commitHeapTake, hv, avoids_iff, unwrap_eq_ok, some.injEq,
      isSome_some]
    refine ⟨Claims.take_avoids (Claims.prepareTake_eq_ok ht) hs.rows, ?_⟩
    rintro _ _ w rfl
    exact Claims.take_avoids (Claims.prepareTake_eq_ok hvt) (hs.arena _ _ hv).1

theorem cancel_avoids {p : HeapPlacement} {n : Nat} (hs : p.Sound n)
    (r : HeapReservation) (e : HeapExtents) (hl : r.owner.index < n) :
    (p.prepareCancel r e rev).Avoids Misconfigured ∧
    ∀ plan, p.prepareCancel r e rev = ok plan →
      (p.commitCancel r.owner plan rev).Avoids Misconfigured := by
  obtain ⟨v, hv⟩ : ∃ v, p.virtualArenas[r.owner.index]? = some v :=
    ⟨_, getElem?_eq_getElem (hs.arenas ▸ hl)⟩
  obtain ⟨-, hst, hli⟩ := hs.arena _ _ hv
  have hw : v.window.endAddr.isSome = true := by
    simp only [VirtualLayoutBuilder.window, Extent.endAddr, isSome_iff_ne_none, ne_eq,
      checkedAdd_eq_none]
    omega
  constructor
  · simp only [HeapPlacement.prepareCancel, PhysicalPlacementManager.prepareHeapReturn,
      VirtualLayoutBuilder.prepareHeapReturn, hv, avoids_iff, unwrap_eq_ok, some.injEq,
      Misconfigured, reduceCtorEq, isSome_some]
    refine ⟨Claims.prepareReturn_avoids _ _ _ _ _ (fun _ => id) hs.pool, ?_⟩
    rintro _ _ w rfl _ _
    exact Claims.prepareReturn_avoids _ _ _ _ _ (fun _ => id) hw
  · intro plan hp
    simp only [HeapPlacement.prepareCancel, PhysicalPlacementManager.prepareHeapReturn,
      VirtualLayoutBuilder.prepareHeapReturn, eq_ok, hv, some.injEq] at hp
    obtain ⟨ret, hr, w, rfl, vret, ⟨-, hvr⟩, rfl⟩ := hp
    simp only [HeapPlacement.commitCancel, PhysicalPlacementManager.commitHeapReturn,
      VirtualLayoutBuilder.commitHeapReturn, avoids_iff, hv, isSome_some, unwrap_eq_ok,
      some.injEq]
    refine ⟨Claims.giveBack_avoids (Claims.prepareReturn_eq_ok hr), ?_⟩
    rintro _ _ w rfl
    exact Claims.giveBack_avoids (Claims.prepareReturn_eq_ok hvr)

theorem bindArena_avoids (hx : Extents s) {ind : Nat} (b af : Option Nat)
    (hl : ind < s.heap.accounts.length) : (s.bindArena ind b af).Avoids Misconfigured := by
  unfold bindArena
  split
  · exact avoids_ok _
  · rename_i p hp
    have hv : ind < p.virtualArenas.length := by
      rw [(hx.sound p hp).arenas]
      exact hl
    simp [VirtualLayoutBuilder.checkBinding, hv]

/-! ## Scopes -/

theorem enterScopeFor_avoids (hcn : Counters s) (owner : Nat) :
    (s.enterScopeFor owner).Avoids fun _ => False := by
  have := hcn.scope
  simp only [enterScopeFor, preflightFrame, avoids_iff, eq_ok]
  intro _ hp
  refine ⟨?_, fun _ _ => by omega⟩
  have ha := hp.2.1
  simpa [freeRow, findIdx?_isSome] using ha

theorem bindFrame_avoids (hcn : Counters s) {owner : Nat}
    (h : s.enterScopeFor owner = ok (scope, s')) (frame : LocalFrameBacking) :
    (s'.bindFrame scope frame : Res ε _).Avoids bad := by
  simp only [enterScopeFor, eq_ok] at h
  obtain ⟨-, ind, hf, _, ⟨-, rfl⟩, rfl, rfl⟩ := h
  have hrw := freeRow_eq_some hf
  have hg := fun j => @getElem?_set_row _ s.scopes ind j
    (some { scope := ⟨s.nextScope⟩, owner, frame := none }) none hrw
  simp only [bindFrame, advance, avoids_iff, unwrap_eq_ok, join_eq_some_iff]
  refine ⟨?_, fun k hk => ?_⟩
  · rw [List.findIdx?_isSome, List.any_eq_true]
    refine ⟨_, mem_of_getElem? ((hg ind).trans (if_pos rfl)), by simp⟩
  · -- the new row is the only one with this number
    obtain ⟨hl, hsc, -⟩ := findIdx?_eq_some_iff_getElem.mp hk
    have hro := getElem?_eq_getElem hl
    rw [hg] at hro ⊢
    split at hro
    · rename_i hi
      rw [if_pos hi]
      refine ⟨rfl, ?_⟩
      rintro record hre
      rw [← some.inj (some.inj hre)]
    · simp only [Option.any_eq_true, beq_iff_eq] at hsc
      obtain ⟨r, hr, hs⟩ := hsc
      have := hcn.scopes k r (hro.trans (congrArg some hr))
      rw [hs] at this
      exact absurd this (Nat.lt_irrefl _)

theorem register_avoids (s : ScopedPointers) (scope : Scope) (d base l : Nat)
    (w : Bool) : (s.register scope d base l w).Avoids fun _ => False := by
  simp only [register, avoids_iff, okOr_eq_ok]
  intro _ _ _ _ _ _ i hi
  obtain ⟨slot, hs, -⟩ := freeSlot_eq_some hi
  simp [hs]

theorem bindBacking_avoids {d base l : Nat} {w : Bool}
    (h : s.register scope d base l w = ok (ptr, s')) (b : PointerBacking) :
    (s'.bindBacking ptr b : Res ε _).Avoids bad := by
  simp only [register, eq_ok] at h
  obtain ⟨-, _, -, -, i, -, old, hold, rfl, rfl⟩ := h
  have hl := (List.getElem?_eq_some_iff.mp hold).1
  simp [bindBacking, advance, hl, Slot.local?]

theorem leaveScope_avoids (hd : Directory s) : (s.leaveScope scope).Avoids fun _ => False := by
  simp only [leaveScope, avoids_iff, require_eq_ok]
  intro _ ht
  refine ⟨hd.activeEnd_le, fun _ _ => ?_⟩
  -- a top scope is one of the active records
  simp only [isTop, scopeOwner, Option.any_eq_true, Option.map_eq_some_iff] at ht
  obtain ⟨_, ⟨record, hr, -⟩, -⟩ := ht
  obtain ⟨row, hro, hs⟩ := List.mem_filterMap.mp (List.mem_of_find?_eq_some hr)
  obtain rfl : row = some record := hs
  rw [List.findIdx?_isSome, List.any_eq_true]
  have hsc := List.find?_some hr
  exact ⟨some record, mem_of_mem_take hro, hsc⟩

/-! ## Owners and charges -/

theorem chargeHeapFabricStorage_avoids (hl : Ledger s) (n : Nat) :
    (s.chargeHeapFabricStorage n).Avoids Misconfigured := by
  have hg := hl.quota.globalLimit
  have hm := hl.shapes.limit_le
  simp only [chargeHeapFabricStorage, avoids_iff, totalReservedBytes_avoids hl, eq_ok,
    Misconfigured, reduceCtorEq]
  intro _ _ t ht
  simp only [totalReservedBytes, plus_eq_ok] at ht
  exact ⟨by omega, fun left hle _ hn => by omega⟩

theorem admitOwner_avoids (hc : Consistent s) (hcn : Counters s) (l : Nat) :
    (s.admitOwner owner l).Avoids Misconfigured := by
  have := hcn.owner
  simp only [admitOwner, avoids_iff, eq_ok, Misconfigured, reduceCtorEq]
  intro _ _ _ _ _ hid ind hi
  refine ⟨bindArena_avoids hc.extents _ _ ?_, fun _ _ => by omega⟩
  exact (List.getElem?_eq_some_iff.mp (freeRow_eq_some hi)).1

theorem closeOwner_avoids : (s.closeOwner token).Avoids Misconfigured := by
  refine avoids_bind.mpr ⟨account_avoids, fun a ha => ?_⟩
  split
  · exact avoids_ok _
  · simp [(account_eq_ok.mp ha).1]

section

variable (hc : Consistent s)
include hc

theorem releaseOwner_avoids : (s.releaseOwner token).Avoids Misconfigured := by
  simp only [releaseOwner, avoids_iff, account_avoids, Misconfigured, reduceCtorEq]
  intro a ha _ _
  exact ⟨bindArena_avoids hc.extents _ _ (account_lt ha), fun _ _ => account_lt ha⟩

theorem releaseClosedAccount_avoids (ind : Nat) :
    (s.releaseClosedAccount ind : Res HeapError _).Avoids Misconfigured := by
  unfold releaseClosedAccount
  split
  · exact avoids_ok _
  · split
    · rename_i a _ _
      have hr := @releaseOwner_avoids s a.token hc
      split
      · exact avoids_ok _
      · exact avoids_ok _
      · rename_i hp
        rw [hp] at hr
        exact hr
    · exact avoids_ok _

theorem releaseClosedHeapAccounts_avoids :
    (s.releaseClosedHeapAccounts : Res HeapError _).Avoids Misconfigured := by
  unfold releaseClosedHeapAccounts
  generalize List.range s.heap.accounts.length = rows
  induction rows generalizing s with
  | nil => exact avoids_ok _
  | cons ind rows ih =>
    rw [foldlM_cons]
    exact avoids_bind.mpr ⟨releaseClosedAccount_avoids hc ind,
      fun t ht => ih (consistent_of_changes (releaseClosedAccount_changes ht) hc)⟩

theorem reserveHeap_avoids (hcn : Counters s) (l : Nat) :
    (s.reserveHeap token l rev).Avoids Misconfigured := by
  have hg := hc.ledger.quota.globalLimit
  have hm := hc.ledger.shapes.limit_le
  have hj := hcn.job
  simp only [reserveHeap, avoids_iff, account_avoids, totalReservedBytes_avoids hc.ledger, eq_ok,
    slotAt_eq_ok, Prod.forall, Misconfigured, reduceCtorEq]
  intro a ha _ _ _ _
  refine ⟨pageCeil_avoids l fun _ => id, fun rounded hr _ _ _ hid => ?_⟩
  have hli := hc.ledger.quota.ownerLimit _ _ (account_eq_ok.mp ha).1
  have ht := (hc.ledger.quota.of_account ha).2
  refine ⟨hli, fun left hl _ hf total hsu => ?_⟩
  simp only [totalReservedBytes, plus_eq_ok] at hsu
  refine ⟨by omega, fun left' hl' _ hf' i hi c _ => ?_⟩
  obtain ⟨slot, hs, -⟩ := freeSlot_eq_some hi
  refine ⟨slotAt_avoids hs, fun old _ => ⟨takeExtents_avoids hc.extents rounded ha,
    fun _ _ _ => ⟨setReserved_avoids ha ?_, fun _ _ => ⟨by omega, fun _ _ => by omega⟩⟩⟩⟩
  rw [avoids_plus]
  omega

theorem releaseLifetime_avoids (hr : s.reservationRecord r = ok record) (p : Option HeapPlacement) :
    (s.releaseLifetime r record.owner record.cleanup record.rounded p).Avoids Misconfigured := by
  obtain ⟨slot, job, hn⟩ := reservationRecord_eq_ok.mp hr
  obtain ⟨a, ha⟩ := hn.account
  obtain ⟨hh, ht⟩ := hn.charged hc.ledger ha
  simp only [releaseLifetime, avoids_iff]
  rw [hn.owner]
  exact ⟨setReserved_avoids ha (avoids_minus.mpr hh), fun _ _ => ⟨by omega, fun _ _ =>
    ⟨cleanup_lt hr, fun _ _ => slotAt_avoids_of_record hr⟩⟩⟩

theorem giveBackExtents_avoids (hn : Names s r slot record job) :
    (s.giveBackExtents r record).Avoids Misconfigured := by
  unfold giveBackExtents
  split
  · exact avoids_ok _
  · rename_i p e hp _
    obtain ⟨a, ha⟩ := hn.account
    obtain ⟨hpr, hco⟩ :=
      @cancel_avoids s.heap.revision _ _ (hc.extents.sound p hp) r e (account_lt ha)
    simp only [avoids_iff, Misconfigured, reduceCtorEq]
    intro _ _
    rw [hn.owner]
    exact ⟨hpr, hco⟩
  · -- a record has extents exactly in the placement profile
    rename_i hno hs
    cases hp : s.heap.placement with
    | none =>
      have := (hc.extents.unplaced hp _ slot record hn.slot_eq hn.record_eq).1
      exact absurd this (hno hp)
    | some p =>
      obtain ⟨e, -, hex, -⟩ := (hc.extents.claimed p hp _ slot record job hn.slot_eq
        hn.record_eq hn.job_eq).held
      exact absurd hex (hs p e hp)

theorem abortHeap_avoids : (s.abortHeap r).Avoids Misconfigured := by
  simp only [abortHeap, avoids_iff, reservationRecord_avoids, account_avoids, slotAt_eq_ok,
    Misconfigured, reduceCtorEq]
  intro record hr _ _
  obtain ⟨slot, job, hn⟩ := reservationRecord_eq_ok.mp hr
  refine ⟨slotAt_avoids hn.slot_eq, fun _ _ _ _ a ha => ?_⟩
  rw [hn.owner] at ha
  exact ⟨fun _ => hn.charged hc.ledger ha, fun _ _ => ⟨giveBackExtents_avoids hc hn,
    fun placement _ => releaseLifetime_avoids hc hr placement⟩⟩

end

theorem closeHeap_avoids (hd : Directory s) : (s.closeHeap token ptr).Avoids Misconfigured := by
  simp only [closeHeap, avoids_iff, account_avoids, okOr_eq_ok, Slot.heap?_eq_some, Misconfigured,
    reduceCtorEq]
  intro a _ _ _ slot hs _ _ record hr _ _
  obtain ⟨job, hp⟩ := hd.slotPaired _ slot record hs hr
  simp [hp.job_eq]

section

variable (hc : Consistent s)
include hc

theorem reserveHostStorage_avoids (hcn : Counters s) (l : Nat) :
    (s.reserveHostStorage token l rev).Avoids Misconfigured := by
  have hg := hc.ledger.quota.globalLimit
  have hm := hc.ledger.shapes.limit_le
  have hj := hcn.job
  simp only [reserveHostStorage, avoids_iff, account_avoids, totalReservedBytes_avoids hc.ledger,
    eq_ok, Option.any_eq_true, decide_eq_true_eq, Misconfigured, reduceCtorEq]
  intro a ha _ _ _ _
  refine ⟨pageCeil_avoids l fun _ => id, fun rounded hro _ _ _ hi _ hf total hs _ hr row _ => ?_⟩
  have hli := hc.ledger.quota.ownerLimit _ _ (account_eq_ok.mp ha).1
  have ht := (hc.ledger.quota.of_account ha).2
  simp only [totalReservedBytes, plus_eq_ok] at hs
  obtain ⟨left, ⟨hle, rfl⟩, hl⟩ := hr
  refine ⟨setReserved_avoids ha ?_, fun _ _ => ⟨by omega, fun _ _ => by omega⟩⟩
  rw [avoids_plus]
  omega

theorem releaseHostStorage_avoids (token : HostStorageReservation) :
    (s.releaseHostStorage token).Avoids Misconfigured := by
  have hr : (s.hostStorageRecord token).Avoids Misconfigured := by
    simp [hostStorageRecord, account_avoids]
  simp only [releaseHostStorage, avoids_iff, hr, account_avoids]
  intro record hro a ha
  obtain ⟨hh, ht⟩ := hostStorageRecord_eq_ok hro
  obtain ⟨ho, hto⟩ := hc.ledger.quota.of_account ha
  have hl := @le_charge _ (hostChargeTo token.account) _ _ _ hh
  simp only [hostChargeTo, Option.elim, ht, if_true] at hl
  unfold owned at ho
  exact ⟨fun _ => ⟨by omega, hto⟩, fun _ _ => ⟨setReserved_avoids ha (avoids_minus.mpr (by omega)),
    fun _ _ => by omega⟩⟩

/-! ## Plans -/

theorem prepareHeapPrivate_avoids (att : Bool) (hp : s.heap.placement.isSome = true ∨ att = true) :
    (s.prepareHeapPrivate r owner rev att).Avoids Misconfigured := by
  simp only [prepareHeapPrivate, avoids_iff, account_avoids, reservationRecord_avoids,
    require_eq_ok, slotAt_eq_ok, Misconfigured, reduceCtorEq]
  intro a ha _ _ _ _ _ _ _ _ record hr
  obtain ⟨slot, job, hn⟩ := reservationRecord_eq_ok.mp hr
  refine ⟨slotAt_avoids hn.slot_eq, fun _ _ _ hs => ⟨?_, fun _ _ _ _ => ⟨?_, fun e hex => ?_⟩⟩⟩
  · exact cleanup_lt hr
  · refine reservedExtents_avoids hc ?_
    rcases hp with hp | rfl
    · exact hp
    · exact hc.extents.placed hn.slot_eq hn.record_eq hs.2.1
  · exact checkCharges_avoids hc hn ha hex

theorem Names.stage_agrees (hn : Names s r slot record job)
    (ha : s.account r.owner = ok a) : job.queued = slot.state.isPending ∧
      ¬ (a.closed = true ∧ slot.state.isPending = false) ∧
      ¬ (slot.state = .reserved ∧ record.published = true) ∧
      ¬ (slot.state = .live ∧ record.published = false) := by
  have hs := (hn.paired hc.directory).settled
  refine ⟨hs.queued, ?_, ?_, ?_⟩
  · rintro ⟨hcl, hpe⟩
    have hr : s.heap.accounts[record.owner.index]? = some (some a) := by
      rw [hn.owner]
      exact (account_eq_ok.mp ha).1
    have := hc.directory.closed _ slot record a hn.slot_eq hn.record_eq hr hcl
    rw [this] at hpe
    cases hpe
  · rintro ⟨hst, hp⟩
    rw [hs.reserved hst] at hp
    cases hp
  · rintro ⟨hst, hp⟩
    rw [hs.live hst] at hp
    cases hp

theorem prepareAttachedHeapClosure_avoids :
    (s.prepareAttachedHeapClosure r owner).Avoids Misconfigured := by
  simp only [prepareAttachedHeapClosure, avoids_iff, account_avoids, reservationRecord_avoids,
    eq_ok, slotAt_eq_ok, join_eq_some_iff, Misconfigured, reduceCtorEq]
  intro a ha _ _ record hr _ hat
  obtain ⟨slot, job, hn⟩ := reservationRecord_eq_ok.mp hr
  refine ⟨slotAt_avoids hn.slot_eq, fun slot' hs => ⟨?_, fun _ _ job' hj => ?_⟩⟩
  · exact cleanup_lt hr
  obtain rfl := mem_unique hn.slot_eq hs
  obtain rfl := row_unique hn.job_eq hj
  exact ⟨fun _ => hn.stage_agrees hc ha, fun _ _ =>
    ⟨fun _ => (hn.paired hc.directory).settled.progress, fun _ _ =>
      ⟨reservedExtents_avoids hc (hc.extents.placed hn.slot_eq hn.record_eq hat),
        fun e hex => checkCharges_avoids hc hn ha hex⟩⟩⟩

theorem prepareHeapPointer_avoids : (s.prepareHeapPointer ptr owner).Avoids Misconfigured := by
  simp only [prepareHeapPointer, avoids_iff, account_avoids, eq_ok, Slot.heap?_eq_some,
    join_eq_some_iff, Misconfigured, reduceCtorEq]
  intro slot hs _ _ record hr a ha _ _ _ _ _ hat job hj _ hre
  refine ⟨reservedExtents_avoids hc (hc.extents.placed hs hr hat.1), fun e hex => ?_⟩
  -- the job names this very slot, so the charges are the record's
  have hn := (hc.directory.paired hs hr hj).names hc
  exact checkCharges_avoids hc hn (hn.owner ▸ ha) hex

theorem prepareRetainedHeapWork_avoids :
    (s.prepareRetainedHeapWork r owner).Avoids Misconfigured := by
  simp only [prepareRetainedHeapWork, avoids_iff, prepareAttachedHeapClosure_avoids hc,
    reservationRecord_avoids, Misconfigured, reduceCtorEq]
  intro _ _ record hr
  exact slotAt_avoids_of_record hr

end

theorem currentWorker_avoids : (s.currentWorker hdl wid).Avoids Misconfigured := by
  simp [currentWorker, worker_avoids]

section

variable (hc : Consistent s)
include hc

theorem prepareHeapWorkerLease_avoids :
    (s.prepareHeapWorkerLease lease wid owner).Avoids Misconfigured := by
  simp only [prepareHeapWorkerLease, avoids_iff, currentWorker_avoids,
    prepareAttachedHeapClosure_avoids hc, reservationRecord_avoids, Misconfigured, reduceCtorEq]
  intro _ _ _ _ record hr
  exact ⟨cleanup_lt hr, fun _ _ _ _ => slotAt_avoids_of_record hr⟩

theorem prepareRetiredCleanup_avoids {ex : Option HeapCleanupStatus} :
    (s.prepareRetiredCleanup lease wid owner ex).Avoids Misconfigured := by
  simp only [prepareRetiredCleanup, avoids_iff, prepareHeapWorkerLease_avoids hc,
    reservationRecord_avoids, Misconfigured, reduceCtorEq]
  intro _ _ _ _ record hr
  exact cleanup_lt hr

/-! ## Commits -/

theorem attach_avoids (hp : s.heap.placement.isSome = true) :
    (s.run (.attach r owner rev)).Avoids Misconfigured := by
  refine avoids_bind.mpr ⟨prepareHeapPrivate_avoids hc false (.inl hp), fun plan hpl => ?_⟩
  obtain ⟨slot, record, job, hn, -, -, -, -, hr, hre⟩ := prepareHeapPrivate_eq_ok hpl
  have hh : slot.heap? = some record := Slot.heap?_eq_some.mpr hn.record_eq
  simp only [commitHeapAttachment, hr, avoids_iff, slotAt_eq_ok, hn.slot_eq]
  exact ⟨hre, fun _ _ => ⟨slotAt_avoids hn.slot_eq, fun _ h => by cases h; rw [hh]; rfl⟩⟩

theorem publish_avoids (w : Bool) : (s.run (.publish r owner rev w)).Avoids Misconfigured := by
  refine avoids_bind.mpr ⟨prepareHeapPrivate_avoids hc true (.inr rfl), fun plan hp => ?_⟩
  obtain ⟨slot, record, job, hn, hs, ha, hpu, -, hr, hre⟩ :=
    prepareHeapPrivate_eq_ok hp
  have hh : slot.heap? = some record := Slot.heap?_eq_some.mpr hn.record_eq
  simp only [commitHeapImagePublication, hr, avoids_iff, slotAt_eq_ok, hn.slot_eq, unwrap_eq_ok,
    some.injEq]
  refine ⟨hre, fun _ _ => ⟨slotAt_avoids hn.slot_eq, ?_⟩⟩
  rintro _ rfl
  refine ⟨hs, fun _ _ => ⟨hn.generation, fun _ _ => ⟨by rw [hh]; rfl, fun record' h => ?_⟩⟩⟩
  rw [hh] at h
  cases h
  exact ⟨ha, hpu⟩

theorem closeAttached_avoids : (s.run (.closeAttached r owner)).Avoids Misconfigured := by
  refine avoids_bind.mpr ⟨prepareAttachedHeapClosure_avoids hc, fun plan hp => .map ?_⟩
  obtain ⟨slot, record, job, hch⟩ := prepareAttachedHeapClosure_eq_ok hp
  have hn := hch.names
  rw [hch.plan_eq]
  simp only [commitAttachedHeapClosure, avoids_iff, slotAt_eq_ok, hn.slot_eq, hn.job_eq,
    unwrap_eq_ok, join_some, isSome_some, some.injEq]
  refine fun _ _ => ⟨slotAt_avoids hn.slot_eq, ?_⟩
  rintro _ rfl _ rfl
  refine ⟨hn.generation, fun _ _ => ⟨rfl, fun _ _ => ⟨hn.reservation, fun _ _ =>
    ⟨hch.settled.queued, fun _ _ => ?_⟩⟩⟩⟩
  split
  · exact avoids_ok _
  · split <;> exact avoids_ok _

end

theorem enrollWorker_avoids (hcn : Counters s) (ex : Nat) :
    (s.enrollCleanupWorkerRecord wid ex).Avoids Misconfigured := by
  have := hcn.worker
  simp only [enrollCleanupWorkerRecord, avoids_iff, require_eq_ok, Misconfigured, reduceCtorEq]
  intro _ _ _ _ _ hn _ _
  omega

theorem claim_avoids (hc : Consistent s) (ex : Nat) :
    (s.run (.claim hdl wid r owner ex)).Avoids Misconfigured := by
  refine avoids_bind.mpr ⟨?_, fun plan hp => .map ?_⟩
  · simp only [prepareHeapWorkerClaim, avoids_iff, currentWorker_avoids,
      prepareAttachedHeapClosure_avoids hc, reservationRecord_avoids, Misconfigured, reduceCtorEq]
    intro _ _ _ _ _ _ record hr
    exact ⟨cleanup_lt hr, fun _ _ _ _ => slotAt_avoids_of_record hr⟩
  · simp only [prepareHeapWorkerClaim, eq_ok, join_eq_some_iff] at hp
    obtain ⟨⟨hre, -⟩, -, _, -, record, hr, -, job, hj, _, -, ⟨-, hq, -⟩, _, -, _, -, rfl⟩ := hp
    obtain ⟨slot, job', hn⟩ := reservationRecord_eq_ok.mp hr
    obtain rfl := row_unique hn.job_eq hj
    simp [commitHeapWorkerClaim, hre, hj, hn.reservation, hq]

theorem retire_avoids (hc : Consistent s) :
    (s.run (.retire lease wid owner)).Avoids Misconfigured := by
  refine avoids_bind.mpr ⟨?_, fun plan hp => ?_⟩
  · simp [prepareHeapRetirement, prepareHeapWorkerLease_avoids hc, reservationRecord_avoids]
  · simp only [prepareHeapRetirement, prepareHeapWorkerLease, eq_ok, slotAt_eq_ok,
      join_eq_some_iff] at hp
    obtain ⟨_, ⟨-, c, hcl, record', hr', -, job, hj, slot', hsl, ⟨hpe,
      hq, -, hl⟩, rfl⟩, hstg, record, hr, rfl⟩ := hp
    obtain ⟨slot, job', hn⟩ := reservationRecord_eq_ok.mp hr
    obtain rfl := hn.unique hr'
    obtain rfl := row_unique hn.job_eq hj
    obtain rfl := mem_unique hn.slot_eq hsl
    obtain ⟨_, _, _, hch⟩ := prepareAttachedHeapClosure_eq_ok hcl
    have hst : slot.state = .closing := by
      -- pending and not retired
      have hsa := hch.names.slot_eq
      rw [hsl] at hsa
      rw [hch.plan_eq, ← some.inj hsa] at hstg
      cases hs : slot.state <;> simp_all [SlotState.isPending]
    simp only [commitHeapRetirement, avoids_iff, hj, unwrap_eq_ok, slotAt_eq_ok, hsl,
      join_some, isSome_some, some.injEq]
    rintro _ _ _ rfl
    refine ⟨hn.reservation, fun _ _ => ⟨hq, fun _ _ => ⟨hl, fun _ _ =>
      ⟨slotAt_avoids hsl, ?_⟩⟩⟩⟩
    rintro _ rfl
    exact ⟨hn.generation, fun _ _ => hst⟩

theorem checkCleanupCommit_avoids {bad : HeapError → Prop} {plan : HeapCleanupPlan}
    (h : CleanupChecked s lease owner plan slot record) (next : CleanupRecord) :
    (s.checkCleanupCommit { plan with next } : Res HeapError _).Avoids bad := by
  have hn := h.closure.names
  rw [h.plan_eq]
  simp only [checkCleanupCommit, avoids_iff, hn.job_eq, slotAt_eq_ok, hn.slot_eq, some.injEq]
  refine fun _ _ _ _ => ⟨slotAt_avoids hn.slot_eq, ?_⟩
  rintro _ rfl
  exact ⟨h.retired, fun _ _ => hn.generation⟩

theorem scrubBegin_avoids (hc : Consistent s) :
    (s.run (.scrubBegin lease wid owner)).Avoids Misconfigured := by
  refine avoids_bind.mpr ⟨?_, fun plan hp => .map ?_⟩
  · simp [prepareHeapScrubBegin, prepareRetiredCleanup_avoids hc]
  · simp only [prepareHeapScrubBegin, eq_ok] at hp
    obtain ⟨plan, hp, -, rfl⟩ := hp
    obtain ⟨slot, record, hch⟩ := prepareRetiredCleanup_eq_ok hp
    simp only [commitHeapScrub, avoids_iff]
    exact checkCleanupCommit_avoids hch _

theorem scrubChunk_avoids (hc : Consistent s) (am : Nat) :
    (s.run (.scrubChunk st wid owner am)).Avoids Misconfigured := by
  refine avoids_bind.mpr ⟨?_, fun plan hpl => .map ?_⟩
  · simp only [prepareHeapScrubChunk, avoids_iff, prepareRetiredCleanup_avoids hc, eq_ok,
      Misconfigured, reduceCtorEq]
    intro plan hpl done hd _ ha
    obtain ⟨slot, record, hch⟩ := prepareRetiredCleanup_eq_ok hpl
    have hpg : plan.prior.progress = .scrubbing done := by
      cases hp : plan.prior.progress <;> simp_all [HeapScrubProgress.scrubbing?]
    have hv := hch.closure.settled.progress
    simp only [progressValid, hpg] at hv
    have hs := hch.closure.size
    have hr := hc.ledger.shapes.rounded _ slot record hch.closure.names.slot_eq
      hch.closure.names.record_eq
    have hm := pageCeil_le hr.2.2
    exact ⟨by omega, fun left hl _ hf _ _ _ _ => by omega⟩
  · simp only [prepareHeapScrubChunk, eq_ok] at hpl
    obtain ⟨plan, hpl, _, -, -, _, -, -, _, -, _, -, _, -, rfl⟩ := hpl
    obtain ⟨slot, record, hch⟩ := prepareRetiredCleanup_eq_ok hpl
    simp only [commitHeapScrub, avoids_iff]
    exact checkCleanupCommit_avoids hch _

theorem release_avoids (hc : Consistent s) :
    (s.run (.release st wid owner)).Avoids Misconfigured := by
  -- what the first plan established holds for both halves
  have hpl : ∀ c slot record,
      CleanupChecked s st.lease owner c slot record → ∃ p a, s.heap.placement = some p ∧
        c.closure.reservation = st.lease.reservation ∧
        s.account st.lease.reservation.owner = ok a ∧
        p.Sound s.heap.accounts.length ∧
        st.lease.reservation.owner.index < s.heap.accounts.length := by
    intro c slot record hch
    obtain ⟨_, p, _, -, -, hp, -⟩ := reservedExtents_eq_ok hch.closure.extents
    obtain ⟨a, ha⟩ := hch.closure.names.account
    exact ⟨p, a, hp, by rw [hch.closure.plan_eq], ha, hc.extents.sound p hp, account_lt ha⟩
  refine avoids_bind.mpr ⟨?_, fun plan hpla => ?_⟩
  · simp only [prepareHeapRelease, avoids_iff, prepareRetiredCleanup_avoids hc,
      reservationRecord_avoids, account_avoids, okOr_eq_ok, Misconfigured, reduceCtorEq]
    intro c hcl _ _ _ _ _ _
    obtain ⟨slot, record, hch⟩ := prepareRetiredCleanup_eq_ok hcl
    obtain ⟨p, a, hp, hr, ha, hs, hl⟩ := hpl _ _ _ hch
    refine ⟨fun _ => by rw [hp]; rfl, fun q hq => ?_⟩
    rw [hp] at hq
    cases hq
    rw [hr]
    exact (cancel_avoids hs _ _ hl).1
  · simp only [prepareHeapRelease, eq_ok] at hpla
    obtain ⟨c, hcl, -, record', hrc, a', ha', q, hq, re, hre, rfl⟩ := hpla
    obtain ⟨slot, record, hch⟩ := prepareRetiredCleanup_eq_ok hcl
    obtain ⟨p, a, hp, hr, ha, hs, hl⟩ := hpl _ _ _ hch
    have hrv : c.revision = s.heap.revision := by rw [hch.plan_eq]
    have hro : c.cleanup = record.cleanup := by rw [hch.plan_eq]
    simp only [hr, hrv] at hrc ha' hre ⊢
    obtain rfl := hch.closure.names.unique hrc
    obtain rfl : a = a' := ok.inj (ha.symm.trans ha')
    obtain rfl := mem_unique hp hq
    simp only [commitHeapRelease, hr, hro, hrv, avoids_iff, unwrap_eq_ok, (account_eq_ok.mp ha).1,
      hp, join_some, isSome_some, some.injEq]
    refine ⟨checkCleanupCommit_avoids hch c.next, fun _ _ => ?_⟩
    rintro _ rfl
    refine ⟨rfl, ?_⟩
    rintro _ _ _ rfl
    refine ⟨(cancel_avoids hs _ _ hl).2 re hre, fun p' _ => ?_⟩
    have hrl := releaseLifetime_avoids hc hrc (some p')
    rwa [hch.closure.names.owner] at hrl

theorem transition_avoids (hc : Consistent s) (re : Bool) :
    (s.run (.transition lease owner re)).Avoids Misconfigured := by
  refine avoids_bind.mpr ⟨?_, fun plan hp => ?_⟩
  · simp only [prepareWorkerTransition, avoids_iff, worker_avoids,
      prepareAttachedHeapClosure_avoids hc, reservationRecord_avoids, Misconfigured, reduceCtorEq]
    intro _ _ _ _ record hr
    exact ⟨cleanup_lt hr, fun _ _ _ _ => slotAt_avoids_of_record hr⟩
  · simp only [prepareWorkerTransition, eq_ok, join_eq_some_iff] at hp
    obtain ⟨_, -, _, -, record, hr, -, job, hj, _, -, -, -, -, _, -, rfl⟩ := hp
    simp [commitHeapWorkerRecovery, hj]

/-! ## Every operation -/

theorem Fresh.totalCounters (h : Fresh s) : Counters s := by
  obtain ⟨hsc, ho, hj, hw⟩ := h.counters
  obtain ⟨n, hs⟩ := h.scopes
  refine ⟨hsc ▸ by decide, ho ▸ by decide, hj ▸ by decide, hw ▸ by decide, fun i r hr => ?_⟩
  rw [hs] at hr
  exact absurd (eq_of_mem_replicate (mem_of_getElem? hr)) nofun

theorem Reachable.counters (hr : Reachable s) : Counters s :=
  hr.invariant (fun _ h => h.fresh.totalCounters) fun _ _ hch h => hch.counters h

theorem run_avoids (hc : Consistent s) (hcn : Counters s) (op : RegistryOp)
    (hp : s.heap.placement.isSome = true ∨ ¬ op.NeedsPlacement) :
    (s.run op).Avoids Misconfigured := by
  cases op with
  | chargeHeapFabricStorage n => exact chargeHeapFabricStorage_avoids hc.ledger n
  | enterScopeFor owner =>
    exact .map (avoids_mapErr.mpr ((enterScopeFor_avoids hcn owner).mono nofun))
  | enterFrame owner fr =>
    exact avoids_bind.mpr ⟨avoids_mapErr.mpr ((enterScopeFor_avoids hcn owner).mono nofun),
      fun _ h => bindFrame_avoids hcn (mapErr_eq_ok.mp h) fr⟩
  | register scope d base le w =>
    exact .map (avoids_mapErr.mpr ((register_avoids s scope d base le w).mono nofun))
  | registerBacked scope d base le w b =>
    exact avoids_bind.mpr ⟨avoids_mapErr.mpr
      ((register_avoids s scope d base le w).mono nofun),
      fun _ h => bindBacking_avoids (mapErr_eq_ok.mp h) b⟩
  | takeBacking ptr => exact avoids_ok _
  | leaveScope scope => exact avoids_mapErr.mpr ((leaveScope_avoids hc.directory).mono nofun)
  | admitOwner owner li =>
    exact .map (admitOwner_avoids hc hcn li)
  | reserveHeap owner l rev =>
    exact .map (reserveHeap_avoids hc hcn l)
  | abortHeap r => exact abortHeap_avoids hc
  | closeHeap owner ptr => exact closeHeap_avoids hc.directory
  | closeOwner owner => exact closeOwner_avoids.map
  | releaseOwner => exact releaseOwner_avoids hc
  | releaseClosedHeapAccounts => exact releaseClosedHeapAccounts_avoids hc
  | reserveHostStorage owner l rev =>
    exact .map (reserveHostStorage_avoids hc hcn l)
  | releaseHostStorage token => exact releaseHostStorage_avoids hc token
  | attach => exact attach_avoids hc (hp.resolve_right fun h => h trivial)
  | initializeChunk r owner rev =>
    refine avoids_bind.mpr ⟨prepareHeapPrivate_avoids hc true (.inr rfl), fun plan hpl => ?_⟩
    obtain ⟨_, _, _, -, -, -, -, -, -, hr⟩ := prepareHeapPrivate_eq_ok hpl
    simp [commitHeapInitialization, hr]
  | publish r owner rev w => exact publish_avoids hc w
  | closeAttached => exact closeAttached_avoids hc
  | enrollWorker wid ex =>
    exact .map (enrollWorker_avoids hcn ex)
  | claim wo wid r owner ex => exact claim_avoids hc ex
  | fenceWorker wo => simp [run, fenceCleanupWorkerRecord, worker_avoids]
  | removeWorker wo => simp [run, removeCleanupWorkerRecord, worker_avoids]
  | retire => exact retire_avoids hc
  | scrubBegin => exact scrubBegin_avoids hc
  | scrubChunk st wid owner am => exact scrubChunk_avoids hc am
  | release => exact release_avoids hc
  | transition lease owner re => exact transition_avoids hc re
  | workRevision ex =>
    refine avoids_bind.mpr ⟨by simp [prepareHeapWorkRevision], fun plan hpl => ?_⟩
    simp only [prepareHeapWorkRevision, eq_ok] at hpl
    obtain ⟨⟨hr, hm⟩, rfl⟩ := hpl
    simp [commitHeapWorkRevision, ← hr, hm]
  | workCleanupRevision => exact avoids_ok _
  | reservedExtents r =>
    exact .map (reservedExtents_avoids hc (hp.resolve_right fun h => h trivial))
  | heapPointer ptr owner =>
    exact .map (prepareHeapPointer_avoids hc)
  | retainedWork r owner =>
    exact .map (prepareRetainedHeapWork_avoids hc)

theorem reservedExtents_unplaced (hp : s.heap.placement = none) :
    (s.reservedExtents r).Avoids (fun _ => False) ∧ ∀ e, s.reservedExtents r ≠ ok e := by
  have hr : (s.reservationRecord r).Avoids fun _ => False :=
    reservationRecord_avoids.mono fun _ => False.elim
  constructor
  · simp [reservedExtents, hr, hp]
  · intro e h
    obtain ⟨_, p, _, -, -, hs, -⟩ := reservedExtents_eq_ok h
    cases hp.symm.trans hs

theorem attach_unplaced (hp : s.heap.placement = none) :
    (s.run (.attach r owner rev)).Avoids fun _ => False := by
  obtain ⟨hs, hn⟩ := @reservedExtents_unplaced s r hp
  have hre : (s.reservationRecord r).Avoids fun _ => False :=
    reservationRecord_avoids.mono fun _ => False.elim
  have ha : (s.account r.owner).Avoids fun _ => False := account_avoids.mono nofun
  simp only [run, prepareHeapAttachment, prepareHeapPrivate, avoids_iff, ha, hre, hs,
    bind_eq_ok, hn, and_false, exists_false, false_and]
  intro _ _ _ _ _ _ _ _ _ _ record hr
  exact ⟨slotAt_avoids_of_record hr, fun _ _ _ _ => cleanup_lt hr⟩

theorem Reachable.run_not_panic (hr : Reachable s) (op : RegistryOp) : s.run op ≠ panic := by
  by_cases hp : s.heap.placement.isSome = true ∨ ¬ op.NeedsPlacement
  · exact (run_avoids hr.consistent hr.counters op hp).not_panic
  · obtain ⟨hn, ho⟩ := not_or.mp hp
    rw [Bool.not_eq_true, isSome_eq_false_iff, isNone_iff_eq_none] at hn
    cases op <;> try exact absurd id ho
    case attach => exact (attach_unplaced hn).not_panic
    case reservedExtents =>
      exact (avoids_bind.mpr ⟨(reservedExtents_unplaced hn).1, fun _ _ => avoids_pure s⟩).not_panic

/-! ## The directory -/

/-- Slot `i`, with its heap record, and cleanup row `c` are one lifetime: each names the other. -/
structure Linked (s : ScopedPointers) (i c : Nat) (slot : Slot) (r : HeapRecord)
    (job : CleanupRecord) : Prop where
  slot_eq : s.slots[i]? = some slot
  record_eq : slot.record = .heap r
  held : slot.state.isHeld = true
  row_eq : s.heap.cleanup[c]? = some (some job)
  cleanup : r.cleanup = c
  index : job.reservation.slot = i
  generation : job.reservation.generation = slot.generation
  owner : job.reservation.owner = r.owner

theorem Paired.linked (hc : Consistent s) {r : HeapRecord} (h : Paired s i slot r job) :
    Linked s i r.cleanup slot r job :=
  ⟨h.slot_eq, h.record_eq, hc.ledger.shapes.held _ _ _ h.slot_eq h.record_eq,
    h.job_eq, rfl, h.index,
    h.generation, h.owner⟩

theorem Linked.settled (hc : Consistent s) {i c : Nat} {r : HeapRecord}
    (h : Linked s i c slot r job) : Settled slot.state r job :=
  (hc.directory.paired h.slot_eq h.record_eq (h.cleanup ▸ h.row_eq)).settled

/-- **The directory.** In every reachable registry the heap slots and the occupied cleanup rows
correspond one to one, a row is queued exactly when its slot is closing or retired, a closed account
has no reserved or live lifetime, the scan bound covers every slot in use, and a placement profile
holds exactly one physical and one virtual claim of the rounded size for each lifetime. No operation
panics, and `Configuration` comes back only from a registry without a placement profile, when it is
asked for the extents of a lifetime that was never attached. -/
theorem directory_bijection (hr : Reachable s) :
    (∀ (i : Nat) (slot : Slot) (r : HeapRecord), s.slots[i]? = some slot → slot.record = .heap r →
      slot.state.isHeld = true → ∃! c, ∃ job, Linked s i c slot r job) ∧
    (∀ (c : Nat) (job : CleanupRecord), s.heap.cleanup[c]? = some (some job) →
      ∃! i, ∃ slot r, Linked s i c slot r job) ∧
    (∀ i c slot r job, Linked s i c slot r job →
      (job.queued = true ↔ slot.state = .closing ∨ slot.state = .retired)) ∧
    (∀ (i : Nat) (slot : Slot) (r : HeapRecord) (a : Account), s.slots[i]? = some slot →
      slot.record = .heap r → s.heap.accounts[r.owner.index]? = some (some a) → a.closed = true →
      slot.state ≠ .reserved ∧ slot.state ≠ .live) ∧
    (∀ (i : Nat) (slot : Slot), s.slots[i]? = some slot → slot.state ≠ .free →
      slot.state ≠ .exhausted → i < s.activeSlotsEnd) ∧
    (∀ p i c slot r job, s.heap.placement = some p → Linked s i c slot r job →
      p.Claimed job.reservation r.owner r.rounded r.extents) ∧
    (∀ op, s.run op ≠ panic) ∧
    (∀ op, s.run op = err .configuration → s.heap.placement = none ∧ op.NeedsPlacement) := by
  have hc := hr.consistent
  refine ⟨fun i slot r hs hre _ => ?_, fun c job hj => ?_, fun i c slot r job h => ?_,
    fun i slot r a hs hre ha hcl => ?_, fun i slot hs hf hex => ?_,
    fun p i c slot r job hp h => ?_, hr.run_not_panic, fun op ho => ?_⟩
  · obtain ⟨job, hpa⟩ := hc.directory.slotPaired i slot r hs hre
    exact ⟨r.cleanup, ⟨job, hpa.linked hc⟩, fun c ⟨_, hc⟩ => hc.cleanup.symm⟩
  · obtain ⟨slot, r, rfl, hpa⟩ := hc.directory.jobPaired c job hj
    exact ⟨job.reservation.slot, ⟨slot, r, hpa.linked hc⟩, fun i ⟨_, _, h⟩ => h.index.symm⟩
  · rw [(h.settled hc).queued]
    cases slot.state <;> simp [SlotState.isPending]
  · have hpe := hc.directory.closed i slot r a hs hre ha hcl
    constructor <;> intro hst <;> simp [hst, SlotState.isPending] at hpe
  · exact hc.directory.active i slot hs (by simp [Slot.inactive, hf, hex])
  · exact hc.extents.claimed p hp i slot r job h.slot_eq h.record_eq (h.cleanup ▸ h.row_eq)
  · by_contra hcontra
    refine (run_avoids hc hr.counters op ?_).not_err ho rfl
    by_contra hneither
    obtain ⟨hno, hn⟩ := not_or.mp hneither
    exact hcontra ⟨by simpa using hno, not_not.mp hn⟩

/-- A registry with a placement profile that holds one lifetime, and the pair it forms. -/
theorem directory_bijection_one_lifetime : ∃ s, Reachable s ∧ s.heap.placement.isSome = true ∧
    (∃ job, s.heap.cleanup[0]? = some (some job) ∧ ∃! i, ∃ slot r, Linked s i 0 slot r job) ∧
    ∀ op, s.run op ≠ err .configuration := by
  have hru : (withHeapPlacement exactHost smallLimits smallWindow >>= fun s =>
      firstCalls.foldlM run s).isOkAnd (fun s => s.heap.placement.isSome &&
        s.heap.cleanup[0]?.join.isSome) = true := by
    decide +kernel
  simp only [isOkAnd_eq_true, bind_eq_ok, Bool.and_eq_true] at hru
  obtain ⟨s, ⟨s0, h0, hs⟩, hp, hj⟩ := hru
  have hr := reachable_of_calls (.withHeapPlacement exactHost smallLimits smallWindow h0) hs
  obtain ⟨job, hj⟩ := isSome_iff_exists.mp hj
  obtain ⟨-, hro, -, -, -, -, -, hco⟩ := directory_bijection hr
  rw [join_eq_some_iff] at hj
  refine ⟨s, hr, hp, ⟨job, hj, hro 0 job hj⟩, fun op ho => ?_⟩
  simp [(hco op ho).1] at hp

/-- A registry without a placement profile accepts a reservation and answers its attachment with
`Configuration`. -/
theorem attachment_unconfigured : ∃ s op, Reachable s ∧ s.run op = err .configuration := by
  let attach := RegistryOp.attach firstReservation firstOwner 2
  have hr : (withLimits exactHost smallLimits >>= fun s => firstCalls.foldlM run s).isOkAnd
      (fun s => decide (s.run attach = err .configuration)) = true := by decide +kernel
  simp only [isOkAnd_eq_true, bind_eq_ok, decide_eq_true_eq] at hr
  obtain ⟨s, ⟨s0, h0, hs⟩, her⟩ := hr
  exact ⟨s, attach, reachable_of_calls (.withLimits exactHost smallLimits h0) hs, her⟩

end ScopedPointers

end Anka
