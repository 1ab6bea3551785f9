import Anka.ScopedPointers.Directory

/-!
# The extents of heap lifetimes

With the placement profile every heap lifetime holds exactly one physical and one virtual claim
under its reservation key, both of its rounded size; without the profile a lifetime has no extents
and is never attached. Keys of different lifetimes differ because job numbers are not reused, so a
commit of one manager row leaves every other lifetime's claims alone.
-/

namespace Anka

open Rust Res List Option

/-- The managers fit their tables and windows, one arena per account row. -/
structure HeapPlacement.Sound (p : HeapPlacement) (owners : Nat) : Prop where
  rows : p.physical.bounded.rows.length ≤ u32Max
  pool : p.physical.pool.endAddr.isSome = true
  arenas : p.virtualArenas.length = owners
  arena : ∀ (i : Nat) (v : VirtualLayoutBuilder), p.virtualArenas[i]? = some v →
    v.reusable.claims.rows.length ≤ u32Max ∧ v.layoutStart ≤ v.limit ∧ v.limit ≤ u64Max

/-- Both managers hold exactly one claim of the record's rounded size under the reservation. -/
structure HeapPlacement.Claimed (p : HeapPlacement) (r : HeapReservation) (owner : OwnerAccount)
    (rounded : Nat) (extents : Option HeapExtents) : Prop where
  held : ∃ e v, extents = some e ∧ e.physical.size = rounded ∧ e.virtualExtent.size = rounded ∧
    p.physical.bounded.Holds r.key e.physical ∧ p.virtualArenas[owner.index]? = some v ∧
    v.reusable.owner = some owner.serial ∧ v.reusable.claims.Holds r.key e.virtualExtent

namespace ScopedPointers

variable {F : RegistryFootprint} {s s' : ScopedPointers} {t : ScopedPointers} {r : HeapReservation}
  {index ro : Nat} {after : Option Nat} {placement : Option HeapPlacement} {p : HeapPlacement}
  {owner : OwnerAccount}

/-- The placement invariant. -/
structure Extents (s : ScopedPointers) : Prop where
  sound : ∀ p, s.heap.placement = some p → p.Sound s.heap.accounts.length
  unplaced : s.heap.placement = none → ∀ (i : Nat) (slot : Slot) (r : HeapRecord),
    s.slots[i]? = some slot → slot.record = .heap r → r.extents = none ∧ r.everAttached = false
  claimed : ∀ p, s.heap.placement = some p → ∀ (i : Nat) (slot : Slot) (r : HeapRecord)
    (job : CleanupRecord), s.slots[i]? = some slot → slot.record = .heap r →
    s.heap.cleanup[r.cleanup]? = some (some job) →
    p.Claimed job.reservation r.owner r.rounded r.extents

theorem Extents.keep (h : Extents s) (hpl : t.heap.placement = s.heap.placement)
    (hl : t.heap.accounts.length = s.heap.accounts.length)
    (hsl : ∀ (i : Nat) (slot : Slot) (r : HeapRecord), t.slots[i]? = some slot →
      slot.record = .heap r → ∃ slot0 r0, s.slots[i]? = some slot0 ∧ slot0.record = .heap r0 ∧
        r0.Same r ∧ (r.everAttached = true → r0.everAttached = true ∨
          s.heap.placement.isSome = true))
    (hjo : ∀ (c : Nat) (job : CleanupRecord), t.heap.cleanup[c]? = some (some job) →
      ∃ job0, s.heap.cleanup[c]? = some (some job0) ∧ job.reservation = job0.reservation) :
    Extents t := by
  refine ⟨fun p hp => ?_, fun hn i slot r hs hr => ?_, fun p hp i slot r job hs hr hj => ?_⟩
  · rw [hl]
    exact h.sound p (hpl ▸ hp)
  · rw [hpl] at hn
    obtain ⟨slot0, r0, hs0, hr0, hsa, ha⟩ := hsl i slot r hs hr
    obtain ⟨hex, hat⟩ := h.unplaced hn i slot0 r0 hs0 hr0
    refine ⟨hsa.extents.trans hex, ?_⟩
    by_contra ht
    rcases ha (by simpa using ht) with hold | hso
    · rw [hat] at hold
      cases hold
    · rw [hn] at hso
      cases hso
  · rw [hpl] at hp
    obtain ⟨slot0, r0, hs0, hr0, hsa, -⟩ := hsl i slot r hs hr
    obtain ⟨job0, hj0, hre⟩ := hjo _ _ hj
    rw [hre, hsa.owner, hsa.rounded, hsa.extents]
    rw [hsa.cleanup] at hj0
    exact h.claimed p hp i slot0 r0 job0 hs0 hr0 hj0

variable {slot : Slot} {before : Option Nat} {n : Nat} {v : VirtualLayoutBuilder}
  {p' : HeapPlacement} {old new vold vnew : Option Claim}

theorem same_slot {i : Nat} {r : HeapRecord} (hs : s.slots[i]? = some slot)
    (hr : slot.record = .heap r) : ∃ slot0 r0, s.slots[i]? = some slot0 ∧ slot0.record = .heap r0 ∧
      r0.Same r ∧ (r.everAttached = true → r0.everAttached = true ∨
        s.heap.placement.isSome = true) :=
  ⟨slot, r, hs, hr, ⟨rfl, rfl, rfl, rfl, rfl⟩, .inl⟩

theorem same_job {c : Nat} {job : CleanupRecord} (h : s.heap.cleanup[c]? = some (some job)) :
    ∃ job0, s.heap.cleanup[c]? = some (some job0) ∧ job.reservation = job0.reservation :=
  ⟨job, h, rfl⟩

theorem Extents.of_placed (hp : t.heap.placement = some p) (hs : p.Sound t.heap.accounts.length)
    (hc : ∀ (i : Nat) (slot : Slot) (r : HeapRecord) (job : CleanupRecord),
      t.slots[i]? = some slot → slot.record = .heap r →
        t.heap.cleanup[r.cleanup]? = some (some job) →
      p.Claimed job.reservation r.owner r.rounded r.extents) : Extents t := by
  refine ⟨fun q hq => ?_, fun hn => ?_, fun q hq => ?_⟩
  · obtain rfl := mem_unique hp hq
    exact hs
  · rw [hp] at hn
    cases hn
  · obtain rfl := mem_unique hp hq
    exact hc

/-! ## Binding an arena -/

theorem bindArena_eq_ok (h : s.bindArena index before after = ok placement) :
    s.heap.placement = none ∧ placement = none ∨
    ∃ p v, s.heap.placement = some p ∧ p.virtualArenas[index]? = some v ∧
      v.reusable.owner = before ∧
      placement =
        some { p with virtualArenas := p.virtualArenas.set index (v.bindOwner after) } := by
  unfold bindArena at h
  split at h
  · rename_i hn
    cases h
    exact .inl ⟨hn, rfl⟩
  · rename_i p hp
    simp only [VirtualLayoutBuilder.checkBinding, eq_ok] at h
    obtain ⟨v, hv, ⟨ho, -⟩, rfl⟩ := h
    exact .inr ⟨p, v, hp, hv, ho, rfl⟩

theorem bound_sound (h : p.Sound n)
    (hv : p.virtualArenas[index]? = some v) :
    HeapPlacement.Sound
      { p with virtualArenas := p.virtualArenas.set index (v.bindOwner after) } n := by
  refine ⟨h.rows, h.pool, by simp [h.arenas], fun i w hw => ?_⟩
  simp only [getElem?_set_row hv] at hw
  split at hw
  · cases hw
    exact h.arena index v hv
  · exact h.arena i w hw

theorem bound_claimed {extents : Option HeapExtents} (h : p.Claimed r owner ro extents)
    (hv : p.virtualArenas[index]? = some v) (hn : index ≠ owner.index) :
    HeapPlacement.Claimed { p with virtualArenas := p.virtualArenas.set index (v.bindOwner after) }
      r owner ro extents := by
  obtain ⟨e, w, hex, hs, hvs, hp, hw, ho, hvi⟩ := h.held
  refine ⟨e, w, hex, hs, hvs, hp, ?_, ho, hvi⟩
  simp only [getElem?_set_row hv, if_neg hn]
  exact hw

theorem bind_extents (h : Extents s) {accounts : List (Option Account)} {nextOwner : Nat}
    (hb : s.bindArena index before after = ok placement)
    (hl : accounts.length = s.heap.accounts.length)
    (ho : ∀ (i : Nat) (slot : Slot) (r : HeapRecord), s.slots[i]? = some slot →
      slot.record = .heap r → index ≠ r.owner.index) :
    Extents { s with heap := { s.heap with placement, accounts, nextOwner } } := by
  rcases bindArena_eq_ok hb with ⟨hn, rfl⟩ | ⟨p, v, hp, hv, -, rfl⟩
  · refine h.keep hn.symm hl (fun i slot r hs hr => same_slot hs hr) fun c job hj => same_job hj
  · exact .of_placed rfl (hl ▸ bound_sound (h.sound p hp) hv) fun i slot r job hs hr hj =>
      bound_claimed (h.claimed p hp i slot r job hs hr hj) hv (ho i slot r hs hr)

/-! ## Admission and return -/

/-- One claim row of the physical manager and one of the owner's arena are rewritten. -/
structure Rewrites (p p' : HeapPlacement) (index : Nat) (old new vold vnew : Option Claim) :
    Prop where
  physical : ∃ i, p.physical.bounded.rows[i]? = some old ∧
    p'.physical.bounded.rows = p.physical.bounded.rows.set i new
  pool : p'.physical.pool = p.physical.pool
  arena : ∃ v v' i, p.virtualArenas[index]? = some v ∧
    p'.virtualArenas = p.virtualArenas.set index v' ∧ v.reusable.claims.rows[i]? = some vold ∧
    v'.reusable.claims.rows = v.reusable.claims.rows.set i vnew ∧
    v'.reusable.owner = v.reusable.owner ∧ v'.layoutStart = v.layoutStart ∧ v'.limit = v.limit

theorem Rewrites.sound (h : Rewrites p p' index old new vold vnew) (hs : p.Sound n) :
    p'.Sound n := by
  obtain ⟨i, -, hr⟩ := h.physical
  obtain ⟨v, v', j, hv, ha, -, hvr, -, hst, hl⟩ := h.arena
  refine ⟨by rw [hr, length_set]; exact hs.rows, h.pool ▸ hs.pool,
    by rw [ha, length_set]; exact hs.arenas, fun k w hw => ?_⟩
  rw [ha, getElem?_set_row hv] at hw
  split at hw
  · cases hw
    rw [hvr, length_set, hst, hl]
    exact hs.arena index v hv
  · exact hs.arena k w hw

theorem Rewrites.claimed (h : Rewrites p p' index old new vold vnew) {extents : Option HeapExtents}
    (hc : p.Claimed r owner ro extents)
    (hk : ∀ claim, old = some claim ∨ new = some claim ∨ vold = some claim ∨ vnew = some claim →
      claim.key ≠ r.key) : p'.Claimed r owner ro extents := by
  obtain ⟨e, w, hex, hs, hvs, hp, hw, ho, hvi⟩ := hc.held
  obtain ⟨i, hro, hr⟩ := h.physical
  obtain ⟨v, v', j, hv, ha, hvro, hvr, hvo, -, -⟩ := h.arena
  have hp' := hp.set hro hr (fun c hc => hk c (.inl hc)) fun c hc => hk c (.inr (.inl hc))
  by_cases hi : index = owner.index
  · subst hi
    obtain rfl := mem_unique hv hw
    refine ⟨e, v', hex, hs, hvs, hp', ?_, hvo.trans ho, ?_⟩
    · rw [ha, getElem?_set_row hv, if_pos rfl]
    · exact hvi.set hvro hvr (fun c hc => hk c (.inr (.inr (.inl hc))))
        fun c hc => hk c (.inr (.inr (.inr hc)))
  · refine ⟨e, w, hex, hs, hvs, hp', ?_, ho, hvi⟩
    rw [ha, getElem?_set_row hv, if_neg hi]
    exact hw

theorem takeExtents_eq_ok {ex : Option HeapExtents}
    (h : s.takeExtents r ro = ok (placement, ex)) :
    (s.heap.placement = none ∧ placement = none ∧ ex = none) ∨
    ∃ p p' e, s.heap.placement = some p ∧ placement = some p' ∧ ex = some e ∧
      Rewrites p p' r.owner.index none (some ⟨r.key, e.physical⟩) none
        (some ⟨r.key, e.virtualExtent⟩) ∧
      pageCeil ro = ok e.physical.size ∧ pageCeil ro = ok e.virtualExtent.size ∧
      p'.physical.bounded.Holds r.key e.physical ∧
      ∃ v, p'.virtualArenas[r.owner.index]? = some v ∧
        v.reusable.owner = some r.owner.serial ∧ v.reusable.claims.Holds r.key e.virtualExtent := by
  unfold takeExtents at h
  split at h
  · rename_i hn
    cases h
    exact .inl ⟨hn, rfl, rfl⟩
  rename_i p hp
  simp only [HeapPlacement.prepareReserve, HeapPlacement.commitReserve,
    PhysicalPlacementManager.prepareHeapTake, PhysicalPlacementManager.commitHeapTake,
    VirtualLayoutBuilder.prepareHeapTake, VirtualLayoutBuilder.commitHeapTake, eq_ok] at h
  obtain ⟨_, ⟨take, ht, v, hv, vt, ⟨ho, hvt⟩, rfl⟩, _, ⟨_, ⟨c, free, hco, rfl⟩, w,
    hw, _, ⟨d, vf, hvco, rfl⟩, rfl⟩, rfl, rfl⟩ := h
  obtain rfl := mem_unique hv hw
  have hc := Claims.prepareTake_eq_ok ht
  have hvc := Claims.prepareTake_eq_ok hvt
  obtain ⟨hro, hr⟩ := Claims.take_eq_ok hco
  obtain ⟨hvro, hvr⟩ := Claims.take_eq_ok hvco
  rw [hc.key_eq] at hr
  rw [hvc.key_eq] at hvr
  refine .inr ⟨p, _, _, hp, rfl, rfl, ⟨⟨_, hro, hr⟩, rfl, ⟨v, _, _, hv, rfl, hvro, hvr, rfl,
    rfl, rfl⟩⟩, hc.size, hvc.size, Claims.take_holds hro hr hc.fresh, _,
    (getElem?_set_row hv).trans (if_pos rfl), ho,
    Claims.take_holds hvro hvr hvc.fresh⟩

theorem rewrites_of_refunds {re : Nat} {before after : Option HeapPlacement}
    (h : Refunds re r before after) :
    (before = none ∧ after = none) ∨ ∃ p p' e ve, before = some p ∧ after = some p' ∧
      Rewrites p p' r.owner.index (some ⟨r.key, e⟩) none (some ⟨r.key, ve⟩) none := by
  cases h with
  | unplaced => exact .inl ⟨rfl, rfl⟩
  | @placed p p' e plan hp hc =>
    simp only [HeapPlacement.prepareCancel, HeapPlacement.commitCancel,
      PhysicalPlacementManager.prepareHeapReturn, PhysicalPlacementManager.commitHeapReturn,
      VirtualLayoutBuilder.prepareHeapReturn, VirtualLayoutBuilder.commitHeapReturn,
      eq_ok] at hp hc
    obtain ⟨ret, hre, v, hv, vret, ⟨-, hvre⟩, rfl⟩ := hp
    obtain ⟨_, ⟨c, free, hg, rfl⟩, w, hw, _, ⟨d, vfree, hvg, rfl⟩, rfl⟩ := hc
    obtain ⟨hr, hro⟩ := Claims.giveBack_eq_ok hg
    obtain ⟨hvr, hvro⟩ := Claims.giveBack_eq_ok hvg
    rw [(Claims.prepareReturn_eq_ok hre).key_eq] at hr
    rw [(Claims.prepareReturn_eq_ok hvre).key_eq] at hvr
    exact .inr ⟨p, _, _, _, rfl, rfl, ⟨_, hr, hro⟩, rfl, ⟨w, _, _, hw, rfl, hvr, hvro, rfl, rfl,
      rfl⟩⟩

theorem reserved_extents (h : Extents s) (hd : Directory s) {slot cleanup logical : Nat}
    {old : Slot} {extents : Option HeapExtents} (hro : pageCeil logical = ok ro)
    (hsl : s.slots[slot]? = some old) (hrw : s.heap.cleanup[cleanup]? = some none)
    (hr : r = { slot, generation := old.generation + 1, job := s.heap.nextJob, owner })
    (ht : s.takeExtents r ro = ok (placement, extents)) (hs : t.slots = s.slots.set slot
      (reservedSlot r (reservedRecord owner logical ro cleanup extents)))
    (hcl : t.heap.cleanup = s.heap.cleanup.set cleanup (some (reservedJob r)))
    (hl : t.heap.accounts.length = s.heap.accounts.length) (hpl : t.heap.placement = placement) :
    Extents t := by
  have hown : r.owner = owner := by rw [hr]
  -- an old lifetime keeps its slot and job, and the new reservation has another job number
  have hold : ∀ (j : Nat) (u : Slot) (q : HeapRecord) (job : CleanupRecord), slot ≠ j →
      s.slots[j]? = some u → u.record = .heap q → t.heap.cleanup[q.cleanup]? = some (some job) →
      s.heap.cleanup[q.cleanup]? = some (some job) ∧ r.key ≠ job.reservation.key := by
    intro j u q job hj hu hq hjo
    obtain ⟨job0, hpa⟩ := hd.slotPaired j u q hu hq
    rw [hcl, getElem?_set_row hrw] at hjo
    split at hjo
    · rename_i hc
      have ho := hpa.job_eq
      rw [← hc, hrw] at ho
      cases ho
    · refine ⟨hjo, fun hk => ?_⟩
      have hf := hd.jobFresh _ _ hjo
      have hnu : r.key.job = job.reservation.key.job := by rw [hk]
      simp only [HeapReservation.key, hr] at hnu
      omega
  rcases takeExtents_eq_ok ht with ⟨hn, rfl, rfl⟩ | ⟨p, p', e, hp, rfl, rfl, hre, hsi,
    hvs, hph, v, hv, hvo, hvi⟩
  · refine ⟨fun q hq => ?_, fun _ j u q hu hq => ?_, fun q hq => ?_⟩
    · rw [hpl] at hq
      cases hq
    · rw [hs] at hu
      rcases record_of_set hsl hu hq with ⟨-, -, hq⟩ | ⟨-, hu⟩
      · obtain rfl := Record.heap.inj hq
        exact ⟨rfl, rfl⟩
      · exact h.unplaced hn j u q hu hq
    · rw [hpl] at hq
      cases hq
  · refine .of_placed hpl (hl ▸ hre.sound (h.sound p hp))
      fun j u rec job hu hrc hjo => ?_
    rw [hs] at hu
    rcases record_of_set hsl hu hrc with ⟨-, -, hrc⟩ | ⟨hj, hu⟩
    · -- the new lifetime
      obtain rfl := Record.heap.inj hrc
      rw [hcl] at hjo
      obtain rfl : reservedJob r = job := by
        simpa [reservedRecord] using ((getElem?_set_row hrw).trans (if_pos rfl)).symm.trans hjo
      exact ⟨e, v, rfl, pageCeil_rounded hro hsi, pageCeil_rounded hro hvs, hph,
        hown ▸ hv, hown ▸ hvo, hvi⟩
    · obtain ⟨hjo, hk⟩ := hold j u rec job hj hu hrc hjo
      refine hre.claimed (h.claimed p hp j u rec job hu hrc hjo) ?_
      rintro claim (hc | hc | hc | hc) <;> cases hc <;> exact hk

theorem refunded_extents (h : Extents s) (hd : Directory s) {re : HeapRecord}
    (hre : s.reservationRecord r = ok re) (hsl : s.slots[r.slot]? = some slot)
    (hrf : Refunds s.heap.revision r s.heap.placement placement)
    (hs : t.slots = s.slots.set r.slot slot.vacated)
    (hcl : t.heap.cleanup = s.heap.cleanup.set re.cleanup none)
    (hl : t.heap.accounts.length = s.heap.accounts.length)
    (hpl : t.heap.placement = placement) : Extents t := by
  obtain ⟨slot', job0, hn⟩ := reservationRecord_eq_ok.mp hre
  have hold : ∀ (j : Nat) (u : Slot) (q : HeapRecord), t.slots[j]? = some u → u.record = .heap q →
      s.slots[j]? = some u := by
    intro j u q hu hq
    rw [hs] at hu
    rcases record_of_set hsl hu hq with ⟨-, -, hq⟩ | ⟨-, hu⟩
    · cases hq
    · exact hu
  have hjo : ∀ (c : Nat) (job : CleanupRecord), t.heap.cleanup[c]? = some (some job) →
      s.heap.cleanup[c]? = some (some job) ∧ r.key ≠ job.reservation.key := by
    intro c job hj
    rw [hcl, getElem?_set_row hn.job_eq] at hj
    split at hj
    · cases hj
    · rename_i hc
      refine ⟨hj, fun hk => hc ?_⟩
      have hnu : r.key.job = job.reservation.key.job := by rw [hk]
      refine hd.jobUnique _ _ job0 job hn.job_eq hj ?_
      rw [hn.reservation]
      exact hnu
  rcases rewrites_of_refunds hrf with ⟨hno, rfl⟩ | ⟨p, p', e, ve, hp, rfl, hr⟩
  · exact h.keep (hpl.trans hno.symm) hl
      (fun j u q hu hq => same_slot (hold j u q hu hq) hq) fun c job hj => same_job (hjo c job hj).1
  · refine .of_placed hpl (hl ▸ hr.sound (h.sound p hp))
      fun j u rec job hu hrc hj => ?_
    obtain ⟨hj, hk⟩ := hjo _ _ hj
    refine hr.claimed (h.claimed p hp j u rec job (hold j u rec hu hrc) hrc hj) ?_
    rintro cl (hc | hc | hc | hc) <;> cases hc <;> exact hk

/-! ## All changes -/

theorem Change.extents (hch : Change F s s') (h : Extents s) (hd : Directory s) (hl : Ledger s) :
    Extents s' := by
  have hslo := fun (i : Nat) (slot : Slot) (r : HeapRecord) (hs : s.slots[i]? = some slot)
    (hr : slot.record = .heap r) => same_slot hs hr
  have hj := fun (c : Nat) (job : CleanupRecord) (hc : s.heap.cleanup[c]? = some (some job)) =>
    same_job hc
  cases hch with
  | quiet | fixedCharge | trimmed => exact h.keep rfl rfl hslo hj
  | localWrite i bo old new hold hf hn hbo =>
    refine h.keep rfl rfl (fun j slot r hsl hr => ?_) hj
    rcases record_of_set hold hsl hr with ⟨-, -, hr'⟩ | ⟨-, hsl⟩
    · obtain ⟨a, ha⟩ := hn
      rw [ha] at hr'
      cases hr'
    · exact same_slot hsl hr
  | localsReleased sc =>
    exact h.keep rfl rfl (fun j slot r hsl hr => same_slot (of_releaseLocals hsl hr) hr) hj
  | admitted index row placement hf ht ho hz hne hbi =>
    refine bind_extents h hbi (by simp) fun i slot r hsl hr hi => ?_
    obtain ⟨a, ha, -⟩ := tokenAt_eq_some.mp (hl.tokens.heapOwner i slot r hsl hr)
    rw [← hi, hf] at ha
    cases ha
  | reserved a owner slot cleanup logical ro old r placement extents ha ho hlo hrn hjo
      hlim hto hsl hf hg hro hr htake =>
    exact reserved_extents h hd hrn hsl hro hr htake rfl rfl (by simp) rfl
  | refunded a r re slot placement ha hre hsl hh hto hrf =>
    exact refunded_extents h hd hre hsl hrf rfl rfl (by simp) rfl
  | hostReserved | hostRefunded => exact h.keep rfl (by simp) hslo hj
  | relabelled i slot new re re' job job' hsl hre hn hsa hg hh hli hjo hrs
      hsetl hpend hat =>
    refine h.keep rfl rfl (fun j u q hu hq => ?_) fun c q hq => ?_
    · rcases record_of_set hsl hu hq with ⟨rfl, rfl, -⟩ | ⟨-, hu⟩
      · obtain rfl := Record.heap.inj (hn.symm.trans hq)
        exact ⟨slot, re, hsl, hre, hsa, hat⟩
      · exact same_slot hu hq
    · simp only [getElem?_set_row hjo] at hq
      split at hq
      · rename_i hc
        cases hq
        exact ⟨job, hc ▸ hjo, hrs⟩
      · exact same_job hq
  | ownerClosed a owner ha =>
    refine h.keep rfl (by simp) (fun j u q hu hq => ?_) fun c q hq => ?_
    · simp only [getElem?_map, map_eq_some_iff] at hu
      obtain ⟨slot, hsl, rfl⟩ := hu
      rw [Slot.closedBy_record] at hq
      exact same_slot hsl hq
    · simp only [getElem?_map, map_eq_some_iff] at hq
      obtain ⟨_, hro, job, rfl, rfl⟩ := hq
      exact ⟨job, hro, CleanupRecord.closedBy_reservation owner job⟩
  | ownerReleased a owner placement ha hz hj hbi =>
    refine bind_extents h hbi (by simp) fun i slot r hsl hr hi => ?_
    obtain ⟨b, hb, hb'⟩ := tokenAt_eq_some.mp (hl.tokens.heapOwner i slot r hsl hr)
    obtain ⟨hac, ht⟩ := account_eq_ok.mp ha
    rw [← hi, hac] at hb
    refine hl.unowned ha hz hsl hr ?_
    rw [← hb', ← some.inj (some.inj hb), ht]

theorem Fresh.extents (h : Fresh s) : Extents s := by
  refine ⟨fun p hp => ?_, fun _ i slot r hs hr => absurd hr (h.not_heap hs),
    fun p _ i slot r job hs hr => absurd hr (h.not_heap hs)⟩
  obtain ⟨⟨k, hk, hro⟩, hpo, hl, ha⟩ := h.placement p hp
  refine ⟨by simp [hro, hk], hpo, hl, fun i v hv => ?_⟩
  obtain ⟨⟨m, hm, hvr⟩, hst, hli⟩ := ha v (mem_of_getElem? hv)
  exact ⟨by simp [hvr, hm], hst, hli⟩

/-- The three invariants together. -/
structure Consistent (s : ScopedPointers) : Prop where
  ledger : Ledger s
  directory : Directory s
  extents : Extents s

theorem Change.consistent (hc : Change F s s') (h : Consistent s) : Consistent s' :=
  ⟨hc.ledger h.ledger, hc.directory h.directory h.ledger, hc.extents h.extents h.directory h.ledger⟩

theorem Reachable.consistent (hr : Reachable s) : Consistent s :=
  hr.invariant (fun _ h => ⟨h.fresh.ledger, h.fresh.directory, h.fresh.extents⟩)
    fun _ _ hc h => hc.consistent h

theorem consistent_of_changes (h : Changes {} s s') (hc : Consistent s) : Consistent s' :=
  Machine.chain_preserved (fun _ _ hch hc => hch.consistent hc) h hc

end ScopedPointers

end Anka
