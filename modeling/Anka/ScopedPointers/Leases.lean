import Anka.ScopedPointers.Extents

/-!
# Cleanup leases are exclusive

A cleanup job carries the lease it is held under. `prepare_heap_worker_lease` accepts a lease only
if the job names exactly its epoch and worker, so at most one lease is accepted for a job at a time.
What keeps an old one out is a different counter for each race:

* the job's **clock** (`CleanupRecord.clock`): epochs tell a claim from the one before it, versions
  a scrub step from the one before it. The clock never falls (`Change.jobIs`), so a lease that was
  revoked and a status from before a scrub step are behind it for good;
* the **job number**: it is never given out again, so a released job has no row any more;
* the **worker's serial**: a fenced row does not become active again, and a row that is removed and
  taken again has another serial (`Change.workerDown`).

The ledger's revision saturates and takes no part in this.

A lease refers to its worker until it is recovered, and a worker that a lease refers to keeps its
row (`Referenced`).
-/

namespace Anka

open Rust Res List Option CleanupRecord

theorem CleanupRecord.lease_clock_le {job job' : CleanupRecord} (h : job.clock ≤ job'.clock) :
    job.lease.clock ≤ job'.lease.clock := by
  unfold clock at h
  rw [Prod.Lex.toLex_le_toLex] at h
  rcases h with hl | ⟨heq, -⟩
  · exact hl.le
  · exact heq.le

@[simp] theorem CleanupRecord.closedBy_lease (owner : OwnerAccount) (job : CleanupRecord) :
    (job.closedBy owner).lease = job.lease := by
  unfold closedBy
  split <;> rfl

@[simp] theorem CleanupRecord.closedBy_clock (owner : OwnerAccount) (job : CleanupRecord) :
    (job.closedBy owner).clock = job.clock := by
  unfold closedBy
  split <;> rfl

/-- The job a scrub step works on. -/
def RegistryOp.scrubs : RegistryOp → Option Nat
  | scrubBegin lease _ _ => some lease.reservation.job
  | scrubChunk status _ _ _ => some status.lease.reservation.job
  | _ => none

namespace ScopedPointers

variable {F : RegistryFootprint} {s s' : ScopedPointers} {number : Nat} {P : CleanupRecord → Prop}
  {new : Option CleanupRecord} {op : RegistryOp} {job : CleanupRecord} {w : CleanupWorker}
  {owner : AllocationOwner} {lease : CleanupLease} {identity : CleanupWorkerIdentity}
  {status : HeapCleanupStatus}

/-! ## Jobs only move on -/

/-- The job number was given out, and the job, while it has a row, satisfies `P`. -/
def JobIs (number : Nat) (P : CleanupRecord → Prop) (s : ScopedPointers) : Prop :=
  number < s.heap.nextJob ∧ ∀ (row : Nat) (job : CleanupRecord),
    s.heap.cleanup[row]? = some (some job) → job.reservation.job = number → P job

/-- What stays true while the clock of a job moves on. -/
def Onward (P : CleanupRecord → Prop) : Prop :=
  ∀ job job' : CleanupRecord, job.clock ≤ job'.clock → P job → P job'

variable {c : Nat} {old : Option CleanupRecord} {inv : ScopedPointers → Prop}

theorem JobIs.set (h : JobIs number P s) (hr : s.heap.cleanup[c]? = some old)
    (hc : s'.heap.cleanup = s.heap.cleanup.set c new) (hne : s.heap.nextJob ≤ s'.heap.nextJob)
    (hnw : ∀ job, new = some job → job.reservation.job = number → P job) : JobIs number P s' := by
  refine ⟨Nat.lt_of_lt_of_le h.1 hne, fun row job hj hn => ?_⟩
  rw [hc, getElem?_set_row hr] at hj
  split at hj
  · exact hnw job (some.inj hj) hn
  · exact h.2 row job hj hn

theorem Change.jobIs (hch : Change F s s') (hP : Onward P) (h : JobIs number P s) :
    JobIs number P s' := by
  cases hch with
  | reserved a owner slot cleanup logical rounded old r p extents _ _ _ _ _ _ _ _ _ _ hro
      hr =>
    refine h.set hro rfl (Nat.le_succ _) fun job hj hn => ?_
    -- the new job has a number that was not given out yet
    have hl := h.1
    cases hj
    rw [hr] at hn
    simp only [reservedJob] at hn
    omega
  | refunded a r re slot p _ hre =>
    obtain ⟨_, job, hna⟩ := reservationRecord_eq_ok.mp hre
    exact h.set hna.job_eq rfl (Nat.le_refl _) nofun
  | hostReserved => exact ⟨Nat.lt_succ_of_lt h.1, h.2⟩
  | relabelled i slot new re re' job job' _ _ _ _ _ _ _ hj hrs _ _ _ _ hc =>
    refine h.set hj rfl (Nat.le_refl _) fun job'' hj'' hn => ?_
    cases hj''
    exact hP job job' hc (h.2 _ job hj (hrs ▸ hn))
  | ownerClosed a owner =>
    refine ⟨h.1, fun row job hj hn => ?_⟩
    simp only [getElem?_map, map_eq_some_iff] at hj
    obtain ⟨_, hj, job0, rfl, rfl⟩ := hj
    rw [closedBy_reservation] at hn
    exact hP job0 _ (closedBy_clock owner job0).ge (h.2 row job0 hj hn)
  | _ => exact h

theorem step_preserved (hc : ∀ s s', Change {} s s' → inv s → inv s') (h : inv s)
    (hs : s.step op = some s') : inv s' := by
  rcases step_eq_some hs with hr | rfl
  · exact Machine.chain_preserved hc (run_changes (fun _ _ => trivial) (fun _ => trivial) hr) h
  · exact h

theorem run_preserved (hc : ∀ s s', Change {} s s' → inv s → inv s') (h : inv s)
    (hr : Machine.Run step (fun _ _ => True) s s') : inv s' :=
  hr.invariant (fun _ _ _ ht _ hs => step_preserved hc ht hs) h

theorem JobIs.run (h : JobIs number P s) (hP : Onward P)
    (hr : Machine.Run step (fun _ _ => True) s s') : JobIs number P s' :=
  @run_preserved s s' (JobIs number P) (fun _ _ hc => hc.jobIs hP) h hr

theorem jobIs_of_set (hd : Directory s) (hr : s.heap.cleanup[c]? = some (some job))
    (hc : s'.heap.cleanup = s.heap.cleanup.set c new) (hn : s'.heap.nextJob = s.heap.nextJob)
    (hnw : ∀ job', new = some job' → P job') : JobIs job.reservation.job P s' := by
  refine ⟨hn ▸ hd.jobFresh c job hr, fun row job' hj' hnu => ?_⟩
  rw [hc, getElem?_set_row hr] at hj'
  split at hj'
  · exact hnw job' (some.inj hj')
  · rename_i hne
    exact absurd (hd.jobUnique c row job job' hr hj' hnu.symm) hne

/-! ## Workers that are down -/

/-- The worker was enrolled, and its row, if it still has it, is fenced. -/
def WorkerDown (w : CleanupWorker) (s : ScopedPointers) : Prop :=
  w.serial < s.heap.nextWorker ∧ ∀ row : WorkerRecord,
    s.heap.workers[w.row - 1]? = some (some row) → row.handle = w → row.state ≠ .active

theorem Change.workerDown (hc : Change F s s') (h : WorkerDown w s) : WorkerDown w s' := by
  cases hc with
  | quiet sc ac ne r wo n _ _ _ _ hw =>
    refine ⟨Nat.lt_of_lt_of_le h.1 hw.counter, fun row hr hh ha => ?_⟩
    rcases hw.rows _ row hr with ⟨row0, hr0, hsa, hold⟩ | ⟨hs, -⟩
    · exact h.2 row0 hr0 (hsa.trans hh) (hold ha)
    · -- a row that was enrolled since has another serial
      have hl := h.1
      rw [hh] at hs
      omega
  | _ => exact h

/-- Every worker row has a serial that was given out. -/
def Enrolled (s : ScopedPointers) : Prop :=
  ∀ (i : Nat) (row : WorkerRecord), s.heap.workers[i]? = some (some row) →
    row.handle.serial < s.heap.nextWorker

theorem Change.enrolled (hc : Change F s s') (h : Enrolled s) : Enrolled s' := by
  cases hc with
  | quiet sc ac ne r wo n _ _ _ _ hw =>
    intro i row hr
    rcases hw.rows i row hr with ⟨row0, hr0, hsa, -⟩ | ⟨hs, hl⟩
    · exact hsa ▸ Nat.lt_of_lt_of_le (h i row0 hr0) hw.counter
    · exact hs ▸ hl
  | _ => exact h

/-! ## Workers that a lease refers to -/

/-- A worker that a job's lease refers to has its row. -/
def Referenced (s : ScopedPointers) : Prop :=
  ∀ (c : Nat) (job : CleanupRecord) (w : CleanupWorker), s.heap.cleanup[c]? = some (some job) →
    job.lease.refersTo w = true → ∃ row, s.worker w = ok row

theorem worker_of_row {row row' : WorkerRecord} (h : s.worker w = ok row)
    (hr : s'.heap.workers[w.row - 1]? = some (some row')) (hh : row'.handle = w) :
    s'.worker w = ok row' := by
  simp only [worker, eq_ok, filter_eq_some_iff, join_eq_some_iff, Bool.and_eq_true,
    beq_iff_eq] at h ⊢
  obtain ⟨_, ⟨hp, rfl⟩, -, hs, -⟩ := h
  exact ⟨_, ⟨hp, rfl⟩, hr, hs, hh⟩

theorem Referenced.set (h : Referenced s) (hro : s.heap.cleanup[c]? = some old)
    (hc : s'.heap.cleanup = s.heap.cleanup.set c new) (hw : s'.heap.workers = s.heap.workers)
    (hn : ∀ job w, new = some job → job.lease.refersTo w = true → ∃ row, s.worker w = ok row) :
    Referenced s' := by
  intro i job w hj hr
  rw [hc, getElem?_set_row hro] at hj
  have hold : ∃ row, s.worker w = ok row := by
    split at hj
    · exact hn job w (some.inj hj) hr
    · exact h i job w hj hr
  simpa only [worker, hw] using hold

theorem Change.referenced (hc : Change F s s') (h : Referenced s) : Referenced s' := by
  cases hc with
  | quiet sc ac ne rev wo n _ _ _ _ hw =>
    intro c job w hj hr
    obtain ⟨row, hro⟩ := h c job w hj hr
    obtain ⟨ha, hh⟩ := worker_eq_ok hro
    rcases hw.kept _ row ha with ⟨row', hro', hs⟩ | hu
    · exact ⟨row', worker_of_row hro hro' (hs.trans hh)⟩
    · have hn := hu c job hj
      rw [hh, hr] at hn
      cases hn
  | reserved a owner slot cl l ro old r p ex _ _ _ _ _ _ _ _ _ _ hro =>
    refine h.set hro rfl rfl fun job w hj hr => ?_
    cases hj
    cases hr
  | refunded a r re slot p _ hrc =>
    obtain ⟨_, job, hna⟩ := reservationRecord_eq_ok.mp hrc
    exact h.set hna.job_eq rfl rfl nofun
  | relabelled i slot new re re' job job' _ _ _ _ _ _ _ hj _ _ _ _ _ _ hre =>
    refine h.set hj rfl rfl fun job'' w hj'' hr => ?_
    cases hj''
    rcases hre w hr with hb | hp
    · exact h _ job w hj hb
    · exact hp
  | ownerClosed a owner =>
    intro c job w hj hr
    simp only [getElem?_map, map_eq_some_iff] at hj
    obtain ⟨_, hj, job0, rfl, rfl⟩ := hj
    rw [closedBy_lease] at hr
    exact h c job0 w hj hr
  | _ => exact h

/-- What every reachable registry keeps about workers. -/
structure Workers (s : ScopedPointers) : Prop where
  enrolled : Enrolled s
  referenced : Referenced s

theorem Fresh.workersKept (h : Fresh s) : Workers s := by
  obtain ⟨n, hw⟩ := h.workers
  obtain ⟨m, -, hc⟩ := h.cleanup
  exact ⟨fun i row hr => absurd hr (not_some_replicate hw),
    fun c job w hj => absurd hj (not_some_replicate hc)⟩

theorem Reachable.workersKept (hr : Reachable s) : Workers s :=
  hr.invariant (fun _ h => h.fresh.workersKept)
    fun _ _ hc h => ⟨hc.enrolled h.enrolled, hc.referenced h.referenced⟩

/-! ## Which calls write the roles -/

theorem Change.workers (hc : Change F s s') (hr : ¬ F.roles) :
    s'.heap.workers = s.heap.workers := by
  cases hc with
  | quiet => exact Or.resolve_left ‹_› hr
  | _ => rfl

theorem run_workers (ho : op.roles = false) (h : s.run op = ok s') :
    s'.heap.workers = s.heap.workers :=
  @Machine.chain_preserved _ (Change { roles := False }) (fun t => t.heap.workers = s.heap.workers)
    (fun _ _ hc ht => (hc.workers id).trans ht) s s'
    (run_changes (fun _ _ => trivial) (by simp [ho]) h) rfl

theorem run_cleanup_of_roles (ho : op.roles = true) (h : s.run op = ok s') :
    s'.heap.cleanup = s.heap.cleanup := by
  cases op with
  | enrollWorker identity ex =>
    simp only [run, enrollCleanupWorkerRecord, eq_ok] at h
    obtain ⟨_, _, ⟨-, -, -, _, -, _, -, -, rfl⟩, rfl⟩ := h
    rfl
  | fenceWorker wo =>
    simp only [run, fenceCleanupWorkerRecord, eq_ok] at h
    obtain ⟨_, -, -, rfl⟩ := h
    rfl
  | removeWorker wo =>
    simp only [run, removeCleanupWorkerRecord, eq_ok] at h
    obtain ⟨_, -, -, -, rfl⟩ := h
    rfl
  | _ => cases ho

theorem Reachable.worker_kept (hr : Reachable s) (hj : s.heap.cleanup[c]? = some (some job))
    (hre : job.lease.refersTo w = true) (hs : s.step op = some s') :
    ∃ row row', s.worker w = ok row ∧ s'.worker w = ok row' := by
  obtain ⟨row, hro⟩ := hr.workersKept.referenced c job w hj hre
  refine ⟨row, ?_⟩
  rcases step_eq_some hs with hru | rfl
  · cases ho : op.roles with
    | true =>
      have hr' : Reachable s' := Machine.Reachable.tail hr hs
      rw [← run_cleanup_of_roles ho hru] at hj
      obtain ⟨row', hro'⟩ := hr'.workersKept.referenced c job w hj hre
      exact ⟨row', hro, hro'⟩
    | false => exact ⟨row, hro, by simpa only [worker, run_workers ho hru] using hro⟩
  · exact ⟨row, hro, hro⟩

/-! ## Leases and statuses that are refused -/

theorem prepareHeapWorkerLease_held {plan : HeapClosurePlan}
    (h : s.prepareHeapWorkerLease lease identity owner = ok plan) :
    ∃ slot r job row, Names s lease.reservation slot r job ∧
      job.lease = .held lease.epoch lease.worker ∧ s.worker lease.worker = ok row ∧
      row.state = .active := by
  simp only [prepareHeapWorkerLease, eq_ok, join_eq_some_iff] at h
  obtain ⟨hw, _, -, r, hr, -, job', hj', _, -, ⟨-, -, -, hl⟩, -⟩ := h
  obtain ⟨slot, job, hn⟩ := reservationRecord_eq_ok.mp hr
  obtain rfl := row_unique hn.job_eq hj'
  obtain ⟨row, hro, ha⟩ := currentWorker_eq_ok hw
  exact ⟨slot, r, job, row, hn, hl, hro, ha⟩

/-- No caller can take a scrub step or the release with the status. -/
structure StatusRefused (s : ScopedPointers) (status : HeapCleanupStatus) : Prop where
  scrubChunk : ∀ identity owner amount plan,
    s.prepareHeapScrubChunk status identity owner amount ≠ ok plan
  release : ∀ identity owner plan, s.prepareHeapRelease status identity owner ≠ ok plan

/-- No caller is accepted with the lease, nor with a status under it. -/
structure LeaseRefused (s : ScopedPointers) (lease : CleanupLease) : Prop where
  authenticate : ∀ identity owner plan, s.prepareHeapWorkerLease lease identity owner ≠ ok plan
  retire : ∀ identity owner plan, s.prepareHeapRetirement lease identity owner ≠ ok plan
  scrubBegin : ∀ identity owner plan, s.prepareHeapScrubBegin lease identity owner ≠ ok plan
  status : ∀ status : HeapCleanupStatus, status.lease = lease → StatusRefused s status

theorem StatusRefused.of (h : ∀ identity owner plan,
    s.prepareRetiredCleanup status.lease identity owner (some status) ≠ ok plan) :
    StatusRefused s status := by
  constructor
  · intro identity owner am plan
    exact bind_ne_ok (h identity owner)
  · intro identity owner plan
    exact bind_ne_ok (h identity owner)

theorem LeaseRefused.of
    (h : ∀ identity owner plan, s.prepareHeapWorkerLease lease identity owner ≠ ok plan) :
    LeaseRefused s lease := by
  have hc : ∀ identity owner ex plan,
      s.prepareRetiredCleanup lease identity owner ex ≠ ok plan := by
    intro identity owner ex plan
    exact bind_ne_ok (h identity owner)
  refine ⟨h, ?_, ?_, ?_⟩
  · intro identity owner plan
    exact bind_ne_ok (h identity owner)
  · intro identity owner plan
    exact bind_ne_ok (hc identity owner none)
  · rintro status rfl
    exact .of fun identity owner => hc identity owner (some status)

theorem JobIs.leaseRefused (h : JobIs lease.reservation.job P s)
    (hP : ∀ job, P job → job.lease ≠ .held lease.epoch lease.worker) : LeaseRefused s lease := by
  refine .of fun identity owner plan hp => ?_
  obtain ⟨slot, r, job, row, hn, hl, -⟩ := prepareHeapWorkerLease_held hp
  exact hP job (h.2 _ job hn.job_eq (by rw [hn.reservation])) hl

theorem WorkerDown.leaseRefused (h : WorkerDown lease.worker s) : LeaseRefused s lease := by
  refine .of fun identity owner plan hp => ?_
  obtain ⟨slot, r, job, row, -, -, hr, ha⟩ := prepareHeapWorkerLease_held hp
  obtain ⟨hat, hh⟩ := worker_eq_ok hr
  exact h.2 row hat hh ha

theorem JobIs.statusRefused
    (h : JobIs status.job.reservation.job (fun job => status.job.clock < job.clock) s) :
    StatusRefused s status := by
  refine .of fun identity owner plan hp => ?_
  obtain ⟨slot, r, hc⟩ := prepareRetiredCleanup_eq_ok hp
  have hpr : status.job = plan.prior := by
    simp only [prepareRetiredCleanup, eq_ok, all_some, beq_iff_eq] at hp
    obtain ⟨_, -, -, _, -, -, p, -, hs, rfl⟩ := hp
    exact congrArg HeapCleanupStatus.job hs
  have hl := h.2 r.cleanup plan.prior hc.closure.names.job_eq (by rw [hpr])
  rw [hpr] at hl
  exact lt_irrefl _ hl

/-! ## What the cleanup calls write -/

/-- The call replaces the row of a job with the number by `new`. -/
def ReplacesJob (s s' : ScopedPointers) (number : Nat) (job : CleanupRecord)
    (new : Option CleanupRecord) : Prop :=
  job.reservation.job = number ∧ s'.heap.nextJob = s.heap.nextJob ∧
    ∃ c, s.heap.cleanup[c]? = some (some job) ∧ s'.heap.cleanup = s.heap.cleanup.set c new

theorem ReplacesJob.jobIs (h : ReplacesJob s s' number job new) (hd : Directory s)
    (hne : ∀ job', new = some job' → P job') : JobIs number P s' := by
  obtain ⟨rfl, hn, c, hr, hc⟩ := h
  exact jobIs_of_set hd hr hc hn hne

theorem transition_replacesJob {r : Bool} (h : s.run (.transition lease owner r) = ok s') :
    ∃ job new, ReplacesJob s s' lease.reservation.job job (some new) ∧
      3 * lease.epoch < new.lease.clock := by
  simp only [run, prepareWorkerTransition, commitHeapWorkerRecovery, eq_ok] at h
  obtain ⟨_, ⟨_, -, _, -, re, hre, -, job', -, _, -, -, -, -, v, -, rfl⟩, -, hr, rfl⟩ := h
  obtain ⟨slot, job, hn⟩ := reservationRecord_eq_ok.mp hre
  obtain rfl := row_unique hn.job_eq hr
  refine ⟨job, _, ⟨by rw [hn.reservation], rfl, re.cleanup, hr, rfl⟩, ?_⟩
  cases r <;> simp [JobLease.clock]

theorem commitHeapScrub_replacesJob {slot : Slot} {re : HeapRecord} {r : HeapReservation}
    {plan : HeapCleanupPlan} (h : (s.commitHeapScrub plan : Res HeapError _) = ok (status, s'))
    (hn : Names s r slot re plan.prior) : ReplacesJob s s' r.job plan.prior (some plan.next) := by
  simp only [commitHeapScrub, checkCleanupCommit, eq_ok] at h
  obtain ⟨⟨-, hr, -⟩, -, rfl⟩ := h
  exact ⟨by rw [hn.reservation], rfl, plan.cleanup, hr, rfl⟩

theorem scrub_replacesJob (ho : op.scrubs = some number) (h : s.run op = ok s') :
    ∃ job new, ReplacesJob s s' number job (some new) ∧ job.clock < new.clock := by
  cases op with
  | scrubBegin lease identity owner =>
    cases ho
    simp only [run, prepareHeapScrubBegin, eq_ok] at h
    obtain ⟨_, ⟨plan, hp, hpe, rfl⟩, status, t, hc, rfl⟩ := h
    obtain ⟨slot, r, hch⟩ := prepareRetiredCleanup_eq_ok hp
    rw [hch.plan_eq] at hc
    exact ⟨_, _, commitHeapScrub_replacesJob hc hch.closure.names,
      clock_lt_of_progress rfl rfl (by simp [hpe, HeapScrubProgress.rank])⟩
  | scrubChunk status identity owner am =>
    cases ho
    simp only [run, prepareHeapScrubChunk, eq_ok] at h
    obtain ⟨_, ⟨plan, hp, _, -, -, _, -, -, _, ⟨-, rfl⟩, _, ⟨-, rfl⟩, _, -, rfl⟩, _, t,
      hc, rfl⟩ := h
    obtain ⟨slot, r, hch⟩ := prepareRetiredCleanup_eq_ok hp
    rw [hch.plan_eq] at hc
    exact ⟨_, _, commitHeapScrub_replacesJob hc hch.closure.names,
      clock_lt_of_version rfl (Nat.lt_succ_self _)⟩
  | _ => cases ho

theorem release_replacesJob (h : s.run (.release status identity owner) = ok s') :
    ∃ job, ReplacesJob s s' status.lease.reservation.job job none := by
  simp only [run, prepareHeapRelease, commitHeapRelease, checkCleanupCommit, releaseLifetime,
    eq_ok] at h
  obtain ⟨_, ⟨cl, hc, -, _, -, _, -, _, -, _, -, rfl⟩, ⟨-, hr, -⟩, _, -, -,
    _, -, _, -, _, -, _, -, -, _, -, rfl⟩ := h
  obtain ⟨slot, r, hch⟩ := prepareRetiredCleanup_eq_ok hc
  exact ⟨cl.prior, by rw [hch.closure.names.reservation], rfl, cl.cleanup, hr, rfl⟩

theorem fenceWorker_down (hw : Enrolled s) (h : s.run (.fenceWorker w) = ok s') :
    WorkerDown w s' := by
  simp only [run, fenceCleanupWorkerRecord, eq_ok] at h
  obtain ⟨row, hr, -, rfl⟩ := h
  obtain ⟨ha, hh⟩ := worker_eq_ok hr
  refine ⟨hh ▸ hw _ row ha, fun row' hr' _ hac => ?_⟩
  simp only [advance, HeapLedger.advance] at hr'
  rw [getElem?_set_row ha, if_pos rfl] at hr'
  cases hr'
  cases hac

/-- **At most one lease is accepted for a job.** -/
theorem accepted_lease_unique (hd : Directory s) {lease' : CleanupLease}
    {identity' : CleanupWorkerIdentity} {owner' : AllocationOwner} {plan plan' : HeapClosurePlan}
    (h : s.prepareHeapWorkerLease lease identity owner = ok plan)
    (h' : s.prepareHeapWorkerLease lease' identity' owner' = ok plan')
    (hj : lease.reservation.job = lease'.reservation.job) : lease = lease' := by
  obtain ⟨_, r, job, _, hn, hh, -⟩ := prepareHeapWorkerLease_held h
  obtain ⟨_, r', job', _, hn', hh', -⟩ := prepareHeapWorkerLease_held h'
  have hnu : job.reservation.job = job'.reservation.job := by
    rw [hn.reservation, hn'.reservation, hj]
  have hro := hd.jobUnique _ _ job job' hn.job_eq hn'.job_eq hnu
  obtain rfl := row_unique hn'.job_eq (hro ▸ hn.job_eq)
  obtain ⟨hep, hw⟩ := JobLease.held.inj (hh.symm.trans hh')
  have hr := hn.reservation.symm.trans hn'.reservation
  cases lease
  cases lease'
  simp_all

/-- **Cleanup leases are exclusive.** In every reachable registry: two leases that are accepted for
one job are the same; a lease that was revoked, whose worker was fenced or whose job was released is
refused in every later registry, and so is every status under it; a status is refused in every
registry after a later scrub step of its job; and the row of a worker that a lease refers to
survives every call. -/
theorem cleanup_lease_exclusive (hreach : Reachable s) :
    (∀ (lease lease' : CleanupLease) (identity identity' : CleanupWorkerIdentity)
      (owner owner' : AllocationOwner) (plan plan' : HeapClosurePlan),
      s.prepareHeapWorkerLease lease identity owner = ok plan →
      s.prepareHeapWorkerLease lease' identity' owner' = ok plan' →
      lease.reservation.job = lease'.reservation.job → lease = lease') ∧
    (∀ (lease : CleanupLease) (owner : AllocationOwner) (recover : Bool) (s' t : ScopedPointers),
      s.run (.transition lease owner recover) = ok s' → Machine.Run step (fun _ _ => True) s' t →
      LeaseRefused t lease) ∧
    (∀ (lease : CleanupLease) (s' t : ScopedPointers), s.run (.fenceWorker lease.worker) = ok s' →
      Machine.Run step (fun _ _ => True) s' t → LeaseRefused t lease) ∧
    (∀ (status : HeapCleanupStatus) (identity : CleanupWorkerIdentity) (owner : AllocationOwner)
      (lease : CleanupLease) (s' t : ScopedPointers),
        s.run (.release status identity owner) = ok s' →
      lease.reservation.job = status.lease.reservation.job →
      Machine.Run step (fun _ _ => True) s' t → LeaseRefused t lease) ∧
    (∀ (status : HeapCleanupStatus) (c : Nat) (op : RegistryOp) (t t' u : ScopedPointers),
      s.heap.cleanup[c]? = some (some status.job) → Machine.Run step (fun _ _ => True) s t →
      op.scrubs = some status.job.reservation.job → t.run op = ok t' →
      Machine.Run step (fun _ _ => True) t' u → StatusRefused u status) ∧
    ∀ (c : Nat) (job : CleanupRecord) (w : CleanupWorker) (op : RegistryOp) (s' : ScopedPointers),
      s.heap.cleanup[c]? = some (some job) → job.lease.refersTo w = true → s.step op = some s' →
      ∃ row row', s.worker w = ok row ∧ s'.worker w = ok row' := by
  have hd : Directory s := hreach.consistent.directory
  refine ⟨?_, ?_, ?_, ?_, ?_, ?_⟩
  · intro lease lease' identity identity' owner owner' plan plan' h h' hj
    exact accepted_lease_unique hd h h' hj
  · intro lease owner recover s' t h hru
    obtain ⟨job, new, hr, hcl⟩ := transition_replacesJob h
    have hp : JobIs lease.reservation.job (fun job => 3 * lease.epoch < job.lease.clock) s' :=
      hr.jobIs hd fun job' hj' => some.inj hj' ▸ hcl
    refine (hp.run (fun _ _ hl hlt => ?_) hru).leaseRefused fun job' hlt hh => ?_
    · exact Nat.lt_of_lt_of_le hlt (lease_clock_le hl)
    · rw [hh] at hlt
      exact Nat.lt_irrefl _ hlt
  · intro lease s' t h hru
    exact (@run_preserved s' t (WorkerDown lease.worker) (fun _ _ hc => hc.workerDown)
      (fenceWorker_down hreach.workersKept.enrolled h) hru).leaseRefused
  · intro status identity owner lease s' t h hj hru
    obtain ⟨job, hr⟩ := release_replacesJob h
    have hg : JobIs lease.reservation.job (fun _ => False) s' :=
      hj ▸ hr.jobIs hd nofun
    exact (hg.run (fun _ _ _ h => h) hru).leaseRefused fun _ h => h.elim
  · intro status c op t t' u hro hst ho h hru
    have hreach' : Reachable t := Machine.Reachable.trans hreach hst
    have hb : JobIs status.job.reservation.job (fun job => status.job.clock ≤ job.clock) s :=
      ⟨hd.jobFresh c status.job hro, fun row job hj hn => by
        obtain rfl := hd.jobUnique row c job status.job hj hro hn
        rw [hro] at hj
        rw [some.inj (some.inj hj)]⟩
    obtain ⟨job, new, hr, hcl⟩ := scrub_replacesJob ho h
    obtain ⟨hn, -, c', hro', -⟩ := id hr
    have hold := (hb.run (fun _ _ hl h => h.trans hl) hst).2 c' job hro' hn
    have ha : JobIs status.job.reservation.job (fun job => status.job.clock < job.clock) t' :=
      hr.jobIs hreach'.consistent.directory fun job' hj' =>
        some.inj hj' ▸ hold.trans_lt hcl
    exact (ha.run (fun _ _ hl h => h.trans_le hl) hru).statusRefused
  · intro c job w op s' hj hre hs
    exact hreach.worker_kept hj hre hs

/-- A worker claims the job of a closed lifetime; its lease is accepted, is then revoked, and is not
accepted any more. -/
theorem cleanup_lease_exclusive_revoked : ∃ (s s' : ScopedPointers) (lease : CleanupLease)
    (identity : CleanupWorkerIdentity) (owner : AllocationOwner), Reachable s ∧
    (∃ plan, s.prepareHeapWorkerLease lease identity owner = ok plan) ∧
    s.run (.transition lease owner false) = ok s' ∧
    ∀ t, Machine.Run step (fun _ _ => True) s' t → LeaseRefused t lease := by
  let identity : CleanupWorkerIdentity := { process := ⟨2, 1⟩, context := 2, domain := ⟨1⟩ }
  let lease : CleanupLease := { reservation := firstReservation, worker := ⟨1, 1⟩, epoch := 1 }
  let calls : List RegistryOp := firstCalls ++ [.attach firstReservation firstOwner 2,
    .closeAttached firstReservation firstOwner, .enrollWorker identity 4,
    .claim ⟨1, 1⟩ identity firstReservation firstOwner 5]
  have hru : (withHeapPlacementAndWorkers exactHost smallLimits smallWindow 1 >>= fun s =>
      calls.foldlM run s).isOkAnd (fun s =>
        (s.prepareHeapWorkerLease lease identity firstOwner).isOkAnd fun _ =>
          (s.run (.transition lease firstOwner false)).isOkAnd fun _ => true) = true := by
    decide +kernel
  simp only [isOkAnd_eq_true, bind_eq_ok] at hru
  obtain ⟨s, ⟨s0, h0, hs⟩, plan, hp, s', htr, -⟩ := hru
  have hr :=
    reachable_of_calls (.withHeapPlacementAndWorkers exactHost smallLimits smallWindow 1 h0) hs
  refine ⟨s, s', lease, identity, firstOwner, hr, ⟨plan, hp⟩, htr, fun t ht => ?_⟩
  exact (cleanup_lease_exclusive hr).2.1 lease firstOwner false s' t htr ht

end ScopedPointers

end Anka
