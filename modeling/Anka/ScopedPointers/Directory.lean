import Anka.ScopedPointers.Quota

/-!
# The cleanup directory and the heap slots

Every heap lifetime has one slot and one cleanup row, and each names the other: `Paired` says that
a slot's heap record and a cleanup job belong together and agree on stage, publication and scrub
progress (`Settled`). `Directory` is the invariant: every heap record has its job, every job its
slot, job numbers are never reused, a closed account has no reserved or live lifetime, and the
scan bound covers every slot in use.
-/

namespace Anka

open Rust Res List Option CleanupRecord Slot

namespace ScopedPointers

variable {F : RegistryFootprint} {t : ScopedPointers} {i : Nat} {slot old new : Slot}
  {r rc : HeapRecord} {job : CleanupRecord} {a : Account} {owner : OwnerAccount}

/-- A slot's heap record and a cleanup job belong to the same lifetime. -/
structure Paired (s : ScopedPointers) (i : Nat) (slot : Slot) (r : HeapRecord)
    (job : CleanupRecord) : Prop where
  slot_eq : s.slots[i]? = some slot
  record_eq : slot.record = .heap r
  job_eq : s.heap.cleanup[r.cleanup]? = some (some job)
  index : job.reservation.slot = i
  generation : job.reservation.generation = slot.generation
  owner : job.reservation.owner = r.owner
  settled : Settled slot.state r job

/-- The directory invariant. -/
structure Directory (s : ScopedPointers) : Prop where
  slotPaired : ∀ (i : Nat) (slot : Slot) (r : HeapRecord), s.slots[i]? = some slot →
    slot.record = .heap r → ∃ job, Paired s i slot r job
  jobPaired : ∀ (c : Nat) (job : CleanupRecord), s.heap.cleanup[c]? = some (some job) →
    ∃ slot r, r.cleanup = c ∧ Paired s job.reservation.slot slot r job
  jobUnique : ∀ (c d : Nat) (job job' : CleanupRecord), s.heap.cleanup[c]? = some (some job) →
    s.heap.cleanup[d]? = some (some job') → job.reservation.job = job'.reservation.job → c = d
  jobFresh : ∀ (c : Nat) (job : CleanupRecord), s.heap.cleanup[c]? = some (some job) →
    job.reservation.job < s.heap.nextJob
  closed : ∀ (i : Nat) (slot : Slot) (r : HeapRecord) (a : Account), s.slots[i]? = some slot →
    slot.record = .heap r → s.heap.accounts[r.owner.index]? = some (some a) → a.closed = true →
    slot.state.isPending = true
  active : ∀ (i : Nat) (slot : Slot), s.slots[i]? = some slot → slot.inactive = false →
    i < s.activeSlotsEnd
  activeEnd_le : s.activeSlotsEnd ≤ s.slots.length

variable {s s' : ScopedPointers}

theorem Paired.frame {j c : Nat} {row row' : Option CleanupRecord} (h : Paired s j slot r job)
    (hold : s.slots[i]? = some old) (hr : s.heap.cleanup[c]? = some row)
    (hs : t.slots = s.slots.set i new) (hcl : t.heap.cleanup = s.heap.cleanup.set c row')
    (hi : i ≠ j) (hc : c ≠ r.cleanup) : Paired t j slot r job := by
  refine { h with slot_eq := ?_, job_eq := ?_ }
  · rw [hs, getElem?_set_row hold, if_neg hi]
    exact h.slot_eq
  · rw [hcl, getElem?_set_row hr, if_neg hc]
    exact h.job_eq

theorem Paired.keep (h : Paired s i slot r job) (hs : t.slots[i]? = some slot)
    (hj : t.heap.cleanup[r.cleanup]? = some (some job)) : Paired t i slot r job :=
  { h with slot_eq := hs, job_eq := hj }

/-- The lifetimes of the accounts that are closed in `accounts` are pending. -/
def ClosedPending (s : ScopedPointers) (accounts : List (Option Account)) : Prop :=
  ∀ (i : Nat) (slot : Slot) (r : HeapRecord) (a : Account), s.slots[i]? = some slot →
    slot.record = .heap r → accounts[r.owner.index]? = some (some a) → a.closed = true →
      slot.state.isPending = true

theorem Directory.paired (h : Directory s) (hs : s.slots[i]? = some slot)
    (hr : slot.record = .heap r) (hj : s.heap.cleanup[r.cleanup]? = some (some job)) :
    Paired s i slot r job := by
  obtain ⟨job', hp⟩ := h.slotPaired i slot r hs hr
  obtain rfl := row_unique hp.job_eq hj
  exact hp

theorem Directory.keep (h : Directory s) (hcl : t.heap.cleanup = s.heap.cleanup)
    (hj : s.heap.nextJob ≤ t.heap.nextJob)
    (hsl : ∀ (i : Nat) (slot : Slot) (r : HeapRecord), slot.record = .heap r →
      (t.slots[i]? = some slot ↔ s.slots[i]? = some slot)) (hcls : ClosedPending s t.heap.accounts)
    (hac : ∀ (i : Nat) (slot : Slot), t.slots[i]? = some slot → slot.inactive = false →
      i < t.activeSlotsEnd) (hen : t.activeSlotsEnd ≤ t.slots.length) : Directory t := by
  refine ⟨fun i slot r hs hr => ?_, fun c job hj => ?_, ?_, ?_, ?_, hac, hen⟩
  · obtain ⟨job, hp⟩ := h.slotPaired i slot r ((hsl i slot r hr).mp hs) hr
    exact ⟨job, hp.keep hs (hcl ▸ hp.job_eq)⟩
  · rw [hcl] at hj
    obtain ⟨slot, r, hc, hp⟩ := h.jobPaired c job hj
    exact ⟨slot, r, hc, hp.keep ((hsl _ slot r hp.record_eq).mpr hp.slot_eq) (hcl ▸ hp.job_eq)⟩
  · rw [hcl]
    exact h.jobUnique
  · intro c job hc
    rw [hcl] at hc
    exact Nat.lt_of_lt_of_le (h.jobFresh c job hc) hj
  · intro i slot r a hs hr ha hclo
    exact hcls i slot r a ((hsl i slot r hr).mp hs) hr ha hclo

theorem Directory.closed_of_set (h : Directory s) {j : Nat} {row row' : Option Account}
    (hro : s.heap.accounts[j]? = some row)
    (hk : ∀ b, row' = some b → b.closed = true → ∃ a, row = some a ∧ a.closed = true) :
    ClosedPending s (s.heap.accounts.set j row') := by
  intro i slot r c hs hr hc hcl
  rw [getElem?_set_row hro] at hc
  split at hc
  · rename_i hj
    obtain ⟨a, rfl, ha⟩ := hk c (some.inj hc) hcl
    exact h.closed i slot r a hs hr (hj ▸ hro) ha
  · exact h.closed i slot r c hs hr hc hcl

theorem Directory.closed_of_charge (h : Directory s) (ha : s.account owner = ok a)
    (reserved : Nat) :
    ClosedPending s (s.heap.accounts.set owner.index (some { a with reserved })) := by
  refine h.closed_of_set (account_eq_ok.mp ha).1 fun b hb hc => ⟨a, rfl, ?_⟩
  obtain rfl := some.inj hb
  exact hc

theorem Directory.active_of_set (h : Directory s) {bound : Nat} (hold : s.slots[i]? = some old)
    (hb : s.activeSlotsEnd ≤ bound) (hi : new.inactive = false → i < bound) :
    ∀ (j : Nat) (slot : Slot), (s.slots.set i new)[j]? = some slot → slot.inactive = false →
      j < bound := by
  intro j slot hs ha
  rw [getElem?_set_row hold] at hs
  split at hs
  · rename_i hij
    cases hs
    exact hij ▸ hi ha
  · exact Nat.lt_of_lt_of_le (h.active j slot hs ha) hb

theorem heap_slots_of_set (hold : s.slots[i]? = some old) (hn : ∀ r, old.record ≠ .heap r)
    (hne : ∀ r, new.record ≠ .heap r) (j : Nat) (slot : Slot) (r : HeapRecord)
    (hr : slot.record = .heap r) :
    (s.slots.set i new)[j]? = some slot ↔ s.slots[j]? = some slot := by
  rw [getElem?_set_row hold]
  split
  · rename_i hi
    subst hi
    constructor
    · intro h
      cases h
      exact absurd hr (hne r)
    · intro h
      rw [hold] at h
      cases h
      exact absurd hr (hn r)
  · exact Iff.rfl

/-! ## Changes that leave the lifetimes alone -/

theorem trimmed_directory (h : Directory s) : Directory s.trimActiveSlots := by
  refine h.keep rfl (Nat.le_refl _) (fun _ _ _ _ => Iff.rfl) h.closed (fun i slot hs ha => ?_) ?_
  · have hl := h.active i slot hs ha
    by_contra hge
    have hd := of_trimEnd_le (Nat.le_of_not_lt hge) hl
    simp only [trimActiveSlots] at hs
    simp [hs, ha] at hd
  · exact Nat.le_trans (trimEnd_le _ _) h.activeEnd_le

theorem localWrite_directory (h : Directory s) (hs : Shapes s) {bound : Nat}
    (hold : s.slots[i]? = some old) (hf : old.state = .free ∨ ∃ a, old.record = .local a)
    (hn : ∃ a, new.record = .local a)
    (hb : bound = s.activeSlotsEnd ∧ (new.inactive = false → old.inactive = false) ∨
      bound = max s.activeSlotsEnd (i + 1)) :
    Directory { s with slots := s.slots.set i new, activeSlotsEnd := bound } := by
  obtain ⟨a, ha⟩ := hn
  have hl : i < s.slots.length := (List.getElem?_eq_some_iff.mp hold).1
  have hen := h.activeEnd_le
  have hw : s.activeSlotsEnd ≤ bound ∧ (new.inactive = false → i < bound) ∧
      bound ≤ s.slots.length := by
    rcases hb with ⟨rfl, hk⟩ | rfl
    · exact ⟨Nat.le_refl _, fun hac => h.active i old hold (hk hac), hen⟩
    · exact ⟨by omega, fun _ => by omega, by omega⟩
  exact h.keep rfl (Nat.le_refl _) (heap_slots_of_set hold (hs.not_heap_of_free hold hf)
    (by simp [ha])) h.closed (h.active_of_set hold hw.1 hw.2.1) (by simp [hw.2.2])

theorem releaseLocals_heap {sl : List Slot} {b : Nat} {sc : Scope} (hs : sl[i]? = some slot)
    (hr : slot.record = .heap r) : (releaseLocals sl b sc)[i]? = some slot := by
  have hl : slot.local? = none := by simp [local?, hr]
  simp [releaseLocals, getElem?_mapIdx, hs, hl]

section

variable (h : Directory s)
include h

theorem localsReleased_directory (scope : Scope) :
    Directory { s with slots := releaseLocals s.slots s.activeSlotsEnd scope } := by
  refine h.keep rfl (Nat.le_refl _) (fun i slot r hr => ⟨fun hs => of_releaseLocals hs hr,
    fun hs => releaseLocals_heap hs hr⟩) h.closed (fun i slot hs ha => ?_) ?_
  · simp only [releaseLocals, getElem?_mapIdx, map_eq_some_iff] at hs
    obtain ⟨old, hold, rfl⟩ := hs
    split at ha
    · -- a released slot is free or exhausted
      unfold release inactive at ha
      split at ha <;> simp at ha
    · exact h.active i old hold ha
  · simpa [releaseLocals] using h.activeEnd_le

/-! ## Changes of a lifetime -/

/-- Slot `i` and cleanup row `c` are written, and every other lifetime is elsewhere: the directory
holds again once the written pair does. -/
theorem Directory.write {c : Nat} {row row' : Option CleanupRecord}
    (hold : s.slots[i]? = some old)
    (hro : s.heap.cleanup[c]? = some row) (hsl : t.slots = s.slots.set i new)
    (hcl : t.heap.cleanup = s.heap.cleanup.set c row')
    -- the slot and the row were free, or belonged to one lifetime
    (ho : ∀ r, old.record = .heap r → r.cleanup = c)
    (hrw : ∀ job, row = some job → job.reservation.slot = i)
    -- the written pair
    (hpa : ∀ r, new.record = .heap r → ∃ job, Paired t i new r job)
    (hpr : ∀ job, row' = some job →
      ∃ slot r, r.cleanup = c ∧ Paired t job.reservation.slot slot r job)
    (hu : ∀ job, row' = some job → ∀ d job', d ≠ c → s.heap.cleanup[d]? = some (some job') →
      job.reservation.job ≠ job'.reservation.job)
    (hf : ∀ job, row' = some job → job.reservation.job < t.heap.nextJob)
    (hn : s.heap.nextJob ≤ t.heap.nextJob)
    (hclo : ∀ r a, new.record = .heap r →
      t.heap.accounts[r.owner.index]? = some (some a) → a.closed = true →
        new.state.isPending = true)
    (hcls : ClosedPending s t.heap.accounts)
    (hac : ∀ (j : Nat) (slot : Slot), t.slots[j]? = some slot → slot.inactive = false →
      j < t.activeSlotsEnd)
    (hen : t.activeSlotsEnd ≤ t.slots.length) : Directory t := by
  refine ⟨fun j slot r hs hr => ?_, fun d job hj => ?_, fun d e job job' hd he hsa => ?_,
    fun d job hd => ?_, fun j slot r a hs hr ha hclos => ?_, hac, hen⟩
  · rw [hsl, getElem?_set_row hold] at hs
    split at hs
    · rename_i hij
      cases hs
      exact hij ▸ hpa r hr
    · rename_i hij
      obtain ⟨job, hp⟩ := h.slotPaired j slot r hs hr
      refine ⟨job, hp.frame hold hro hsl hcl hij ?_⟩
      intro hc
      -- the other lifetime's row would be the written one, whose job names slot `i`
      rw [hc, hp.job_eq] at hro
      exact hij ((hrw job (some.inj hro).symm).symm.trans hp.index)
  · rw [hcl, getElem?_set_row hro] at hj
    split at hj
    · rename_i hcd
      exact hcd ▸ hpr job (some.inj hj)
    · rename_i hcd
      obtain ⟨slot, r, hr, hp⟩ := h.jobPaired d job hj
      refine ⟨slot, r, hr, hp.frame hold hro hsl hcl ?_ (hr ▸ hcd)⟩
      intro hi
      have hs := hp.slot_eq
      rw [← hi, hold] at hs
      cases hs
      exact hcd ((ho r hp.record_eq).symm.trans hr)
  · rw [hcl, getElem?_set_row hro] at hd he
    split at hd
    · rename_i hcd
      split at he
      · omega
      · rename_i hce
        exact absurd hsa (hu job (some.inj hd) e job' (Ne.symm hce) he)
    · rename_i hcd
      split at he
      · exact absurd hsa.symm (hu job' (some.inj he) d job (Ne.symm hcd) hd)
      · exact h.jobUnique d e job job' hd he hsa
  · rw [hcl, getElem?_set_row hro] at hd
    split at hd
    · exact hf job (some.inj hd)
    · exact Nat.lt_of_lt_of_le (h.jobFresh d job hd) hn
  · rw [hsl, getElem?_set_row hold] at hs
    split at hs
    · cases hs
      exact hclo r a hr ha hclos
    · exact hcls j slot r a hs hr ha hclos

theorem reserved_directory (hl : Ledger s) {slot cleanup l rounded : Nat} {r : HeapReservation}
    {ex : Option HeapExtents} (ha : s.account owner = ok a) (ho : a.closed = false)
    (hs : s.slots[slot]? = some old) (hf : old.state = .free)
    (hro : s.heap.cleanup[cleanup]? = some none)
    (hr : r = { slot, generation := old.generation + 1, job := s.heap.nextJob, owner })
    (hsl : t.slots = s.slots.set slot (reservedSlot r (reservedRecord owner l rounded cleanup ex)))
    (hc : t.heap.cleanup = s.heap.cleanup.set cleanup (some (reservedJob r)))
    (hac : t.heap.accounts =
      s.heap.accounts.set owner.index (some { a with reserved := a.reserved + rounded }))
    (hne : t.heap.nextJob = s.heap.nextJob + 1)
    (hen : t.activeSlotsEnd = max s.activeSlotsEnd (slot + 1)) : Directory t := by
  obtain ⟨hacc, ht⟩ := account_eq_ok.mp ha
  have hlt : slot < s.slots.length := (List.getElem?_eq_some_iff.mp hs).1
  have hp : Paired t slot (reservedSlot r (reservedRecord owner l rounded cleanup ex))
      (reservedRecord owner l rounded cleanup ex) (reservedJob r) := by
    refine ⟨?_, rfl, ?_, ?_, rfl, ?_, ⟨rfl, fun _ => rfl, nofun, trivial⟩⟩
    · rw [hsl, getElem?_set_row hs, if_pos rfl]
    · rw [hc]
      exact (getElem?_set_row hro).trans (if_pos rfl)
    · rw [hr]; rfl
    · rw [hr]; rfl
  refine h.write hs hro hsl hc ?_ nofun ?_ ?_ ?_ ?_ (by omega) ?_ ?_ ?_ ?_
  · intro q hq
    exact absurd hq (hl.shapes.not_heap_of_free hs (.inl hf) q)
  · intro q hq
    obtain rfl := Record.heap.inj hq
    exact ⟨_, hp⟩
  · intro job hj
    obtain rfl := some.inj hj
    exact ⟨_, _, rfl, hp.index ▸ hp⟩
  · intro job hj d job' hd hj'
    obtain rfl := some.inj hj
    have := h.jobFresh d job' hj'
    have hn : (reservedJob r).reservation.job = s.heap.nextJob := by rw [hr]; rfl
    omega
  · intro job hj
    obtain rfl := some.inj hj
    have hn : (reservedJob r).reservation.job = s.heap.nextJob := by rw [hr]; rfl
    omega
  · intro q b hq hb hcl
    obtain rfl := Record.heap.inj hq
    have hi : (reservedRecord owner l rounded cleanup ex).owner.index =
      owner.index := rfl
    rw [hac, hi, getElem?_set_row hacc, if_pos rfl] at hb
    obtain rfl := some.inj (some.inj hb)
    exact absurd hcl (by simp [ho])
  · rw [hac]
    exact h.closed_of_charge ha _
  · rw [hsl, hen]
    exact h.active_of_set hs (by omega) fun _ => by omega
  · have := h.activeEnd_le
    rw [hsl, hen, length_set]
    omega

theorem Names.paired {r : HeapReservation} (hn : Names s r slot rc job) :
    Paired s r.slot slot rc job :=
  h.paired hn.slot_eq hn.record_eq hn.job_eq

theorem refunded_directory {r : HeapReservation} (ha : s.account r.owner = ok a)
    (hr : s.reservationRecord r = ok rc) (hsl : s.slots[r.slot]? = some slot)
    (hs : t.slots = s.slots.set r.slot slot.vacated)
    (hc : t.heap.cleanup = s.heap.cleanup.set rc.cleanup none)
    (hacc : t.heap.accounts = s.heap.accounts.set r.owner.index
      (some { a with reserved := a.reserved - rc.rounded }))
    (hne : t.heap.nextJob = s.heap.nextJob) (hen : t.activeSlotsEnd = s.activeSlotsEnd) :
    Directory t := by
  obtain ⟨slot', job, hn⟩ := reservationRecord_eq_ok.mp hr
  obtain rfl := mem_unique hn.slot_eq hsl
  refine h.write hsl hn.job_eq hs hc ?_ ?_ nofun nofun nofun nofun (by omega) nofun ?_ ?_ ?_
  · intro q hq
    obtain rfl := Record.heap.inj (hn.record_eq.symm.trans hq)
    rfl
  · intro job' hj
    obtain rfl := some.inj hj
    rw [hn.reservation]
  · rw [hacc]
    exact h.closed_of_charge ha _
  · rw [hs, hen]
    exact h.active_of_set hsl (Nat.le_refl _) fun hac => by
      unfold vacated release inactive at hac
      split at hac <;> simp at hac
  · rw [hs, hen, length_set]
    exact h.activeEnd_le

theorem relabelled_directory {rc' : HeapRecord} {job' : CleanupRecord}
    (hs : s.slots[i]? = some slot) (hre : slot.record = .heap rc)
    (hn : new.record = .heap rc') (hsa : rc.Same rc')
    (hg : new.generation = slot.generation) (hl : slot.inactive = false)
    (hj : s.heap.cleanup[rc.cleanup]? = some (some job))
    (hr : job'.reservation = job.reservation)
    (hse : Settled slot.state rc job → Settled new.state rc' job')
    (hpe : slot.state.isPending = true → new.state.isPending = true)
    (hsl : t.slots = s.slots.set i new)
    (hc : t.heap.cleanup = s.heap.cleanup.set rc.cleanup (some job'))
    (ha : t.heap.accounts = s.heap.accounts) (hne : t.heap.nextJob = s.heap.nextJob)
    (hen : t.activeSlotsEnd = s.activeSlotsEnd) : Directory t := by
  have hold := h.paired hs hre hj
  have hp : Paired t i new rc' job' := by
    refine ⟨?_, hn, ?_, ?_, ?_, ?_, hse hold.settled⟩
    · rw [hsl, getElem?_set_row hs, if_pos rfl]
    · rw [hc, hsa.cleanup, getElem?_set_row hj, if_pos rfl]
    · rw [hr, hold.index]
    · rw [hr, hold.generation, hg]
    · rw [hr, hold.owner, hsa.owner]
  refine h.write hs hj hsl hc ?_ ?_ ?_ ?_ ?_ ?_ (by omega) ?_ ?_ ?_ ?_
  · intro q hq
    obtain rfl := Record.heap.inj (hre.symm.trans hq)
    rfl
  · intro q hq
    obtain rfl := some.inj hq
    exact hold.index
  · intro q hq
    obtain rfl := Record.heap.inj (hn.symm.trans hq)
    exact ⟨job', hp⟩
  · intro q hq
    obtain rfl := some.inj hq
    exact ⟨new, rc', hsa.cleanup, hp.index ▸ hp⟩
  · intro q hq d q' hd hq' hsm
    obtain rfl := some.inj hq
    rw [hr] at hsm
    exact hd (h.jobUnique _ _ _ _ hj hq' hsm).symm
  · intro q hq
    obtain rfl := some.inj hq
    rw [hr, hne]
    exact h.jobFresh _ _ hj
  · intro q b hq hb hcl
    obtain rfl := Record.heap.inj (hn.symm.trans hq)
    rw [ha, hsa.owner] at hb
    exact hpe (h.closed i slot rc b hs hre hb hcl)
  · rw [ha]
    exact h.closed
  · rw [hsl, hen]
    exact h.active_of_set hs (Nat.le_refl _) fun _ => h.active i slot hs hl
  · rw [hsl, hen, length_set]
    exact h.activeEnd_le

end

/-! ## Owner closure -/

theorem settled_closedBy (owner : OwnerAccount) (h : Settled slot.state r job)
    (hre : slot.record = .heap r) (ho : job.reservation.owner = r.owner)
    (hh : slot.state.isHeld = true) :
    Settled (slot.closedBy owner).state r (job.closedBy owner) := by
  rw [closedBy_eq hre]
  by_cases hm : r.owner = owner ∧ (slot.state = .reserved ∨ slot.state = .live)
  · -- a lifetime that closes now was not queued and had no scrub progress
    obtain ⟨hr, hst⟩ := hm
    have hq : job.queued = false := by
      rw [h.queued]
      rcases hst with hs | hs <;> rw [hs] <;> rfl
    have hp := h.progress.pending (by rcases hst with hs | hs <;> simp [hs])
    have hj : job.closedBy owner = { job with queued := true } := by
      simp [CleanupRecord.closedBy, CleanupRecord.queuedBy, hq, ho, hr]
    rw [if_pos ⟨hr, hst⟩, hj]
    exact ⟨rfl, nofun, nofun, by simp [progressValid, hp]⟩
  · have hj : job.closedBy owner = job := by
      by_cases hr : r.owner = owner
      · have hq : job.queued = true := by
          rw [h.queued]
          cases hs : slot.state <;> simp_all [SlotState.isPending, SlotState.isHeld]
        simp [CleanupRecord.closedBy, CleanupRecord.queuedBy, hq]
      · simp [CleanupRecord.closedBy, CleanupRecord.queuedBy, ho, hr]
    rwa [if_neg hm, hj]

theorem closedBy_pending (hr : slot.record = .heap r) (ho : r.owner = owner)
    (hh : slot.state.isHeld = true) : (slot.closedBy owner).state.isPending = true := by
  rw [closedBy_eq hr]
  split
  · rfl
  · rename_i hm
    cases hs : slot.state <;> simp_all [SlotState.isPending, SlotState.isHeld]

theorem closedBy_pending_of_pending (owner : OwnerAccount) (h : slot.state.isPending = true) :
    (slot.closedBy owner).state.isPending = true := by
  unfold Slot.closedBy
  split
  · rfl
  · exact h

theorem closedBy_inactive (h : (slot.closedBy owner).inactive = false) : slot.inactive = false := by
  unfold Slot.closedBy at h
  split at h
  · rename_i hc
    simp only [Bool.and_eq_true, Bool.or_eq_true, beq_iff_eq] at hc
    rcases hc.2 with hs | hs <;> simp [inactive, hs]
  · exact h

theorem ownerClosed_directory (h : Directory s) (hl : Ledger s) (ha : s.account owner = ok a)
    (hslo : t.slots = s.slots.map (Slot.closedBy owner))
    (hcl : t.heap.cleanup = s.heap.cleanup.map (Option.map (CleanupRecord.closedBy owner)))
    (hac : t.heap.accounts = s.heap.accounts.set owner.index (some { a with closed := true }))
    (hn : t.heap.nextJob = s.heap.nextJob) (hen : t.activeSlotsEnd = s.activeSlotsEnd) :
    Directory t := by
  have hjo : ∀ (c : Nat) (job : CleanupRecord), t.heap.cleanup[c]? = some (some job) →
      ∃ job0, s.heap.cleanup[c]? = some (some job0) ∧ job = job0.closedBy owner := by
    intro c job hjb
    rw [hcl, getElem?_map] at hjb
    obtain ⟨row, hro, hm⟩ := map_eq_some_iff.mp hjb
    obtain ⟨job0, rfl, rfl⟩ := map_eq_some_iff.mp hm
    exact ⟨job0, hro, rfl⟩
  have hpa : ∀ {i : Nat} {slot : Slot} {r : HeapRecord} {job : CleanupRecord},
      Paired s i slot r job → Paired t i (slot.closedBy owner) r (job.closedBy owner) := by
    intro i slot r job hp
    have hh := hl.shapes.held i slot r hp.slot_eq hp.record_eq
    refine ⟨?_, ?_, ?_, ?_, ?_, ?_, settled_closedBy owner hp.settled hp.record_eq hp.owner hh⟩
    · rw [hslo, getElem?_map, hp.slot_eq]; rfl
    · rw [closedBy_record, hp.record_eq]
    · rw [hcl, getElem?_map, hp.job_eq]; rfl
    · rw [closedBy_reservation, hp.index]
    · rw [closedBy_reservation, closedBy_generation, hp.generation]
    · rw [closedBy_reservation, hp.owner]
  have hsl0 : ∀ (i : Nat) (slot : Slot), t.slots[i]? = some slot →
      ∃ slot0, s.slots[i]? = some slot0 ∧ slot = slot0.closedBy owner := by
    intro i slot hsl
    rw [hslo, getElem?_map] at hsl
    obtain ⟨slot0, hs, rfl⟩ := map_eq_some_iff.mp hsl
    exact ⟨slot0, hs, rfl⟩
  refine ⟨fun i slot r hsl hr => ?_, fun c job hjb => ?_, fun c d job job' hc hd hsa => ?_,
    fun c job hc => ?_, fun i slot r b hsl hr hb hclo => ?_, fun i slot hsl hact => ?_, ?_⟩
  · obtain ⟨slot0, hs, rfl⟩ := hsl0 i slot hsl
    rw [closedBy_record] at hr
    obtain ⟨job, hp⟩ := h.slotPaired i slot0 r hs hr
    exact ⟨_, hpa hp⟩
  · obtain ⟨job0, hj, rfl⟩ := hjo c job hjb
    obtain ⟨slot, r, hr, hp⟩ := h.jobPaired c job0 hj
    rw [closedBy_reservation]
    exact ⟨_, r, hr, hpa hp⟩
  · obtain ⟨job0, hj, rfl⟩ := hjo c job hc
    obtain ⟨job1, hj', rfl⟩ := hjo d job' hd
    simp only [closedBy_reservation] at hsa
    exact h.jobUnique c d job0 job1 hj hj' hsa
  · obtain ⟨job0, hj, rfl⟩ := hjo c job hc
    rw [closedBy_reservation, hn]
    exact h.jobFresh c job0 hj
  · obtain ⟨slot0, hs, rfl⟩ := hsl0 i slot hsl
    rw [closedBy_record] at hr
    rw [hac, getElem?_set_row (account_eq_ok.mp ha).1] at hb
    split at hb
    · -- the closed account's own lifetimes
      rename_i hi
      refine closedBy_pending hr ?_ (hl.shapes.held i slot0 r hs hr)
      obtain ⟨c, hc, hc'⟩ := tokenAt_eq_some.mp (hl.tokens.heapOwner i slot0 r hs hr)
      rw [← hi, (account_eq_ok.mp ha).1] at hc
      rw [← hc', ← some.inj (some.inj hc), (account_eq_ok.mp ha).2]
    · exact closedBy_pending_of_pending owner (h.closed i slot0 r b hs hr hb hclo)
  · obtain ⟨slot0, hs, rfl⟩ := hsl0 i slot hsl
    rw [hen]
    exact h.active i slot0 hs (closedBy_inactive hact)
  · rw [hslo, hen, length_map]
    exact h.activeEnd_le

/-! ## All changes -/

theorem Change.directory (hc : Change F s s') (h : Directory s) (hl : Ledger s) : Directory s' := by
  have hs := fun (i : Nat) (slot : Slot) (r : HeapRecord) (_ : slot.record = .heap r) =>
    Iff.refl (s.slots[i]? = some slot)
  cases hc with
  | quiet => exact h.keep rfl (Nat.le_refl _) hs h.closed h.active h.activeEnd_le
  | fixedCharge => exact h.keep rfl (Nat.le_refl _) hs h.closed h.active h.activeEnd_le
  | trimmed => exact trimmed_directory h
  | localWrite i bo old new hold hf hn hbo =>
    exact localWrite_directory h hl.shapes hold hf hn hbo
  | localsReleased sc => exact localsReleased_directory h sc
  | admitted ind row p hf hto ho hz hne hbi =>
    refine h.keep rfl (Nat.le_refl _) hs (h.closed_of_set hf fun b hb hcl => ?_) h.active
      h.activeEnd_le
    obtain rfl := some.inj hb
    cases ho.symm.trans hcl
  | reserved a owner slot cleanup l ro old r p extents ha ho hlo hrn hj
      hlm ht hsl hf hg hro hr htake =>
    exact reserved_directory h hl ha ho hsl hf hro hr rfl rfl rfl rfl rfl
  | refunded a r rc slot p ha hre hsl hh ht hrf =>
    exact refunded_directory h ha hre hsl rfl rfl rfl rfl rfl
  | hostReserved a owner row l ro ha hrn hj hlm ht hro =>
    exact h.keep rfl (Nat.le_succ _) hs (h.closed_of_charge ha _) h.active h.activeEnd_le
  | hostRefunded a tok rc ha hro hto hh ht =>
    exact h.keep rfl (Nat.le_refl _) hs (h.closed_of_charge ha _) h.active h.activeEnd_le
  | relabelled i slot new rc rc' job job' hsl hre hn hs hg hh hli hj hrs
      hsetl hpend hatt =>
    exact relabelled_directory h hsl hre hn hs hg hli hj hrs hsetl hpend rfl rfl rfl rfl rfl
  | ownerClosed a owner ha => exact ownerClosed_directory h hl ha rfl rfl rfl rfl rfl
  | ownerReleased a owner p ha hz hjo hbi =>
    exact h.keep rfl (Nat.le_refl _) hs (h.closed_of_set (account_eq_ok.mp ha).1 nofun) h.active
      h.activeEnd_le

theorem Fresh.directory (h : Fresh s) : Directory s := by
  obtain ⟨m, -, hcl⟩ := h.cleanup
  have hj : ∀ (c : Nat) (job : CleanupRecord), s.heap.cleanup[c]? ≠ some (some job) :=
    fun _ _ => not_some_replicate hcl
  refine ⟨fun i slot r hs hr => absurd hr (h.not_heap hs), fun c job hc => absurd hc (hj c job),
    fun c _ job _ hc => absurd hc (hj c job), fun c job hc => absurd hc (hj c job),
    fun i slot r _ hs hr => absurd hr (h.not_heap hs), fun i slot hs ha => ?_, ?_⟩
  · rw [h.slot_eq hs] at ha
    cases ha
  · rw [h.activeSlotsEnd]
    exact Nat.zero_le _

end ScopedPointers

end Anka
