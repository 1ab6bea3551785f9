import Anka.Kernel.Dma

/-!
# The lifecycle of a transfer (`block.rs`, `nic.rs`)

As long as the trace is kept a tick returns while the counters have room (`tick_returns`), and every
pending request is answered after `patience` ticks at the latest. `dma_lifecycle` puts together what
holds of a controller from its construction on.
-/

namespace Anka

open Rust Res List Option DeviceController SlotBank Fabric BlockController

/-! ## A tick returns -/

namespace Fabric

variable {f : Fabric}

theorem submit_returns {r : MemoryRequest} {data : Option (List UInt8)}
    (hr : f.nextTxId + 1 ≤ u64Max) : ∃ idx f',
      (f.submit r data : Res Fabric _) = ok (idx, f') ∧ f'.nextTxId = f.nextTxId + 1 := by
  have hp : (plus f.nextTxId 1 : Res Fabric _) = ok (f.nextTxId + 1) :=
    plus_eq_ok.mpr ⟨hr, rfl⟩
  simp only [submit, hp, ok_bind]
  split
  · simp [faultTransaction, transactionAt, unwrap, setTransaction]
  · simp

theorem progress_returns {idx : Nat} {tx : Transaction} (ht : f.transactions[idx]? = some tx) :
    ∃ r f', (f.progress idx : Res Fabric _) = ok (r, f') := by
  have hp : ∃ g : Fabric, (if tx.state.isTerminal = true then ok f else f.advance idx) =
      (ok g : Res Fabric _) ∧ ∃ tx', g.transactions[idx]? = some tx' := by
    split
    · exact ⟨f, rfl, tx, ht⟩
    · obtain ⟨g, hg⟩ := @advance_returns f tx Fabric idx ht
      obtain ⟨tx', ht', -⟩ := advance_advances hg idx tx ht
      exact ⟨g, hg, tx', ht'⟩
  obtain ⟨g, hg, tx', ht'⟩ := hp
  simp only [progress, transactionAt, ht, unwrap, ok_bind, hg, ht']
  split <;> exact ⟨_, _, rfl⟩

end Fabric

theorem bothSlots_returns {σ : Type} {body : σ → Fin NUM_SLOTS → Res Fabric σ} {s : σ}
    (room : Nat → σ → Prop) (hbo : ∀ n s i, room (n + 1) s → ∃ s', body s i = ok s' ∧ room n s')
    (hs : room NUM_SLOTS s) : ∃ s', bothSlots s body = ok s' ∧ room 0 s' :=
  foldlM_returns hbo (by rwa [length_finRange])

namespace BlockController

variable {spared : BankKey NUM_SLOTS → Prop} {c c' : BlockController} {f f' : Fabric}
  {i : Fin NUM_SLOTS}

/-- The block of every pending request is there, and none waits longer than the latency. -/
def Stocked (c : BlockController) : Prop :=
  ∀ i p, c.slots.slots i = .pending p →
    p.request.blockNumber < c.storage.numBlocks ∧ remainingTicks p ≤ max c.latency 1

theorem Stocked.retains (h : c.Stocked) (hr : Retains c c') : c'.Stocked := by
  intro i p' hp'
  obtain ⟨p, hp, hre, hl⟩ := hr.pending i p' hp'
  rw [hre, hr.storage, hr.latency]
  exact ⟨(h i p hp).1, Nat.le_trans hl (h i p hp).2⟩

theorem countDown_returns (hb : Custody spared True c.transfers f) :
    ∃ c', (c.countDown i : Res Fabric _) = ok c' := by
  unfold countDown
  split
  · rename_i request n domain hsl
    obtain ⟨-, span, -, -, -, hs⟩ :=
      hb.staged i _ (map_slots_eq_pending.mpr ⟨_, hsl, rfl⟩)
    have hm : (minus n 1 : Res Fabric _) = ok (n - 1) := minus_eq_ok.mpr ⟨(hs trivial).2, rfl⟩
    rw [hm]
    exact ⟨_, rfl⟩
  · exact ⟨c, rfl⟩

theorem startDma_returns (hs : c.Stocked) (hr : f.nextTxId + 1 ≤ u64Max) :
    ∃ c' f', (startDma (c, f) i : Res Fabric _) = ok (c', f') ∧
      f'.nextTxId ≤ f.nextTxId + 1 := by
  simp only [startDma]
  split
  · rename_i request domain hsl
    have hbl := (hs i _ hsl).1
    obtain ⟨idx, f', hsu, hn⟩ := @submit_returns f
      (dmaRequest c.storageAgent domain request.targetObject request.targetOffset
        c.storage.blockSize .write)
      (some (slice c.storage.data (request.blockNumber * c.storage.blockSize) c.storage.blockSize))
      hr
    have hre : c.storage.readBlock request.blockNumber = some
        (slice c.storage.data (request.blockNumber * c.storage.blockSize) c.storage.blockSize) :=
      if_pos hbl
    simp only [hre, unwrap, ok_bind, hsu, pure_eq]
    exact ⟨_, f', rfl, hn.le⟩
  · exact ⟨c, f, rfl, Nat.le_succ _⟩

section

variable (hb : Custody spared True c.transfers f)
include hb

theorem advanceDma_returns (hr : c.eventSequence + 1 ≤ u64Max) :
    ∃ c' f', (advanceDma (c, f) i : Res Fabric _) = ok (c', f') ∧
      c'.eventSequence ≤ c.eventSequence + 1 := by
  simp only [advanceDma]
  split
  · rename_i request domain idx hsl
    obtain ⟨-, span, -, -, -, hs⟩ :=
      hb.staged i _ (map_slots_eq_pending.mpr ⟨_, hsl, rfl⟩)
    obtain ⟨-, tx, -, ht, -⟩ := hs trivial
    obtain ⟨r, g, hp⟩ := progress_returns ht
    rw [hp, ok_bind]
    cases r with
    | none => exact ⟨c, g, rfl, Nat.le_succ _⟩
    | some r =>
      have hn : checkedAdd c.eventSequence 1 = some (c.eventSequence + 1) :=
        checkedAdd_eq_some.mpr ⟨hr, rfl⟩
      simp only [hn, unwrap, ok_bind, pure_eq]
      exact ⟨_, _, rfl, Nat.le_refl _⟩
  · exact ⟨c, f, rfl, Nat.le_succ _⟩

theorem countAll_returns (hs : c.Stocked) :
    ∃ c', (bothSlots c countDown : Res Fabric _) = ok c' ∧ Custody spared True c'.transfers f ∧
      c'.Stocked ∧ c'.eventSequence = c.eventSequence := by
  refine bothSlots_returns (fun _ (c' : BlockController) =>
    Custody spared True c'.transfers f ∧ c'.Stocked ∧
    c'.eventSequence = c.eventSequence) (fun _ c' i hro => ?_) ⟨hb, hs, rfl⟩
  obtain ⟨hb, hs, hev⟩ := hro
  obtain ⟨c'', hcn⟩ := countDown_returns (i := i) hb
  obtain ⟨hc, hr, hsa⟩ := countDown_eq_ok hcn
  exact ⟨c'', hcn, hb.countsDown hc, hs.retains hr, hsa.trans hev⟩

theorem startAll_returns (hs : c.Stocked)
    (ht : f.nextTxId + NUM_SLOTS ≤ u64Max) :
    ∃ s', (bothSlots (c, f) startDma : Res Fabric _) = ok s' ∧
      Custody spared True s'.1.transfers s'.2 ∧
      s'.1.Stocked ∧ s'.1.eventSequence = c.eventSequence ∧ s'.2.nextTxId ≤ u64Max := by
  refine bothSlots_returns (fun n (s : BlockController × Fabric) =>
    Custody spared True s.1.transfers s.2 ∧
    s.1.Stocked ∧ s.1.eventSequence = c.eventSequence ∧ s.2.nextTxId + n ≤ u64Max)
    (fun n s i hro => ?_)
    ⟨hb, hs, rfl, ht⟩
  obtain ⟨c, f⟩ := s
  obtain ⟨hb, hs, hev, ht⟩ := hro
  simp only at hb hs hev ht
  obtain ⟨c', f', hst, hn⟩ := startDma_returns (i := i) hs (show f.nextTxId + 1 ≤ u64Max by omega)
  obtain ⟨hsta, hr, hsa⟩ := startDma_eq_ok hst
  refine ⟨(c', f'), hst, hb.starts hsta, hs.retains hr, hsa.trans hev, ?_⟩
  show f'.nextTxId + n ≤ u64Max
  omega

theorem advanceAll_returns (hev : c.eventSequence + NUM_SLOTS ≤ u64Max) :
    ∃ s', (bothSlots (c, f) advanceDma : Res Fabric _) = ok s' ∧
      Custody spared True s'.1.transfers s'.2 ∧ s'.1.eventSequence ≤ u64Max := by
  refine bothSlots_returns (fun n (s : BlockController × Fabric) =>
    Custody spared True s.1.transfers s.2 ∧
    s.1.eventSequence + n ≤ u64Max) (fun n s i hr => ?_) ⟨hb, hev⟩
  obtain ⟨c, f⟩ := s
  obtain ⟨hb, hev⟩ := hr
  simp only at hb hev
  obtain ⟨c', f', ha, hn⟩ := advanceDma_returns (i := i) hb (by omega)
  refine ⟨(c', f'), ha, hb.progresses (advanceDma_eq_ok ha).1, ?_⟩
  show c'.eventSequence + n ≤ u64Max
  omega

theorem tick_returns (hs : c.Stocked)
    (ht : f.nextTxId + NUM_SLOTS ≤ u64Max) (hev : c.eventSequence + NUM_SLOTS ≤ u64Max) :
    ∃ c' f', (c.tick f : Res Fabric _) = ok (c', f') := by
  obtain ⟨c1, hc, hb1, hs1, hev1⟩ := countAll_returns hb hs
  obtain ⟨⟨c2, f2⟩, hst, hb2, -, hev2, -⟩ := startAll_returns hb1 hs1 ht
  obtain ⟨⟨c3, f3⟩, ha, -⟩ := advanceAll_returns hb2 (by rw [hev2, hev1]; exact hev)
  exact ⟨c3, f3, by rw [tick, hc, ok_bind, hst, ok_bind, ha]⟩

end

theorem Stocked.submit {re : BlockRequest} {r : SubmitResult} (h : c.Stocked)
    (hs : (c.submit re f : Res Fabric _) = ok (r, c', f')) : c'.Stocked := by
  unfold BlockController.submit at hs
  split at hs
  · cases hs
    exact h
  split at hs
  · cases hs
    exact h
  rename_i hbl
  split at hs
  · cases hs
    exact h
  split at hs
  · cases hs
    intro j p hp
    simp only [accept, update_slots_apply] at hp
    split at hp
    · obtain rfl := BankSlot.pending.inj hp
      exact ⟨Nat.lt_of_not_le hbl, Nat.le_refl _⟩
    · exact h j p hp
  · cases hs
    exact h
  · cases hs

theorem Stocked.tick (h : c.Stocked) (hti : (c.tick f : Res Fabric _) = ok (c', f')) :
    c'.Stocked := by
  simp only [BlockController.tick, bind_eq_ok, bothSlots] at hti
  obtain ⟨c1, hc, ⟨c2, f2⟩, hst, ha⟩ := hti
  have h1 : c1.Stocked := (InTurn.of_foldlM id (R := fun _ c c' => Retains c c')
    (fun _ _ _ hbo => (countDown_eq_ok hbo).2.1) hc).keeps
    (fun _ _ _ _ ht hs => hs.retains ht) h
  have h2 : c2.Stocked := (InTurn.of_foldlM Prod.fst (R := fun _ c c' => Retains c c')
    (fun _ _ _ hbo => (startDma_eq_ok hbo).2.1) hst).keeps
    (fun _ _ _ _ ht hs => hs.retains ht) h1
  exact (InTurn.of_foldlM Prod.fst (R := fun _ c c' => Retains c c')
    (fun _ _ _ hbo => (advanceDma_eq_ok hbo).2) ha).keeps
    (fun _ _ _ _ ht hs => hs.retains ht) h2

theorem Stocked.consumeCompletion {r : Option BlockCompletion} (h : c.Stocked)
    (hc : (c.consumeCompletion : Res Fabric _) = ok (r, c')) : c'.Stocked := by
  simp only [BlockController.consumeCompletion, eq_ok] at hc
  obtain ⟨_, s, ht, -, rfl⟩ := hc
  intro j p hp
  refine h j p ?_
  unfold SlotBank.take at ht
  split at ht
  · cases ht
    exact hp
  split at ht
  · simp only [eq_ok] at ht
    obtain ⟨_, -, -, rfl⟩ := ht
    simp only [release, update_slots_apply] at hp
    split at hp
    · cases hp
    · exact hp
  · cases ht
    exact hp

end BlockController

namespace NicController

variable {spared : BankKey NUM_SLOTS → Prop} {c : NicController} {f : Fabric} {i : Fin NUM_SLOTS}

theorem startDma_returns (hr : f.nextTxId + 1 ≤ u64Max) :
    ∃ c' f', (startDma (c, f) i : Res Fabric _) = ok (c', f') ∧
      f'.nextTxId ≤ f.nextTxId + 1 := by
  simp only [startDma]
  split
  · rename_i request frame domain _
    obtain ⟨idx, f', hs, hn⟩ := @submit_returns f (dmaRequest c.dmaAgent domain
      request.targetObject request.targetOffset frame.length .write) (some frame) hr
    rw [hs]
    exact ⟨_, f', rfl, hn.le⟩
  · rename_i request domain _
    obtain ⟨idx, f', hs, hn⟩ := @submit_returns f (dmaRequest c.dmaAgent domain
      request.sourceObject request.sourceOffset request.frameLen .read) none hr
    rw [hs]
    exact ⟨_, f', rfl, hn.le⟩
  · exact ⟨c, f, rfl, Nat.le_succ _⟩

section

variable (hb : Custody spared True c.transfers f)
include hb

theorem advanceDma_returns : ∃ s', (advanceDma (c, f) i : Res Fabric _) = ok s' := by
  simp only [advanceDma]
  split
  · rename_i requester operation frameLen delegationId domain idx hsl
    obtain ⟨-, span, -, -, -, hs⟩ :=
      hb.staged i _ (map_slots_eq_pending.mpr ⟨_, hsl, rfl⟩)
    obtain ⟨hk, tx, ag, ht, hre, ha⟩ := hs trivial
    obtain ⟨r, g, hp⟩ := progress_returns ht
    obtain ⟨hph, tx', ht', hrs⟩ := progress_eq_ok hp
    obtain ⟨tx'', ht'', hl⟩ := advance_advances hph idx tx ht
    obtain rfl := mem_unique ht' ht''
    rw [hp, ok_bind]
    rcases hrs with ⟨rfl, -⟩ | ⟨st, rfl, -, hc⟩
    · exact ⟨_, rfl⟩
    · -- a committed transmission has read its bytes
      have hse : ∃ sink, (c.sent operation st tx' : Res Fabric _) = ok sink := by
        unfold sent
        split
        · rename_i hsu
          obtain ⟨rfl, rfl⟩ := hsu
          have hr : tx'.request.kind.mutates = false := by
            rw [hl.request, hre]
            simp only [DmaSpan.request, dmaRequest, ← hk]
            rfl
          obtain ⟨byt, hby⟩ := isSome_iff_exists.mp (hl.answered ha (hc rfl) hr)
          rw [hby]
          exact ⟨_, rfl⟩
        · exact ⟨_, rfl⟩
      obtain ⟨sink, hsi⟩ := hse
      simp only [hsi, ok_bind, pure_eq]
      exact ⟨_, rfl⟩
  · exact ⟨_, rfl⟩

theorem startAll_returns (ht : f.nextTxId + NUM_SLOTS ≤ u64Max) :
    ∃ s', (bothSlots (c, f) startDma : Res Fabric _) = ok s' ∧
      Custody spared True s'.1.transfers s'.2 ∧
      s'.2.nextTxId ≤ u64Max := by
  refine bothSlots_returns (fun n (s : NicController × Fabric) =>
    Custody spared True s.1.transfers s.2 ∧
    s.2.nextTxId + n ≤ u64Max) (fun n s i hr => ?_) ⟨hb, ht⟩
  obtain ⟨c, f⟩ := s
  obtain ⟨hb, ht⟩ := hr
  simp only at hb ht
  obtain ⟨c', f', hs, hn⟩ := startDma_returns (c := c) (i := i)
    (show f.nextTxId + 1 ≤ u64Max by omega)
  refine ⟨(c', f'), hs, hb.starts (startDma_eq_ok hs), ?_⟩
  show f'.nextTxId + n ≤ u64Max
  omega

theorem advanceAll_returns :
    ∃ s', (bothSlots (c, f) advanceDma : Res Fabric _) = ok s' ∧
      Custody spared True s'.1.transfers s'.2 := by
  refine bothSlots_returns (fun _ (s : NicController × Fabric) =>
    Custody spared True s.1.transfers s.2)
    (fun _ s i hb => ?_) hb
  obtain ⟨⟨c', f'⟩, ha⟩ := advanceDma_returns (i := i) hb
  exact ⟨(c', f'), ha, hb.progresses (advanceDma_eq_ok ha)⟩

theorem tick_returns (ht : f.nextTxId + NUM_SLOTS ≤ u64Max) :
    ∃ c' f', (c.tick f : Res Fabric _) = ok (c', f') := by
  obtain ⟨⟨c1, f1⟩, hs, hb1, -⟩ := startAll_returns hb ht
  obtain ⟨⟨c2, f2⟩, ha, -⟩ := advanceAll_returns hb1
  exact ⟨c2, f2, by rw [tick, hs, ok_bind, ha]⟩

end

end NicController

/-! ## Both devices -/

namespace DeviceController

variable {spared : BankKey NUM_SLOTS → Prop} {d d' : DeviceController} {f f' : Fabric}
  {op : ControllerOp} {reply : ControllerReply}

/-- The ticks after which a request is answered, at the latest. -/
def patience : DeviceController → Nat
  | block c => max c.latency 1 + 2
  | nic _ => 3

/-- The counters have room for a tick. -/
def HasRoom (d : DeviceController) (f : Fabric) : Prop :=
  f.nextTxId + NUM_SLOTS ≤ u64Max ∧ ∀ c, d = .block c → c.eventSequence + NUM_SLOTS ≤ u64Max

/-- The blocks have their size. -/
def Stocked : DeviceController → Prop
  | block c => c.Stocked
  | nic _ => True

theorem IsNew.stocked (h : d.IsNew) : d.Stocked := by
  rcases h with ⟨s, l, ag, rfl⟩ | ⟨ag, rfl⟩
  · exact fun i p hp => nomatch hp
  · trivial

theorem IsNew.transfers_eq (h : d.IsNew) : d.transfers = .empty := by
  rcases h with ⟨s, l, ag, rfl⟩ | ⟨ag, rfl⟩ <;> rfl

theorem Stocked.call (h : d.Stocked) (hc : d.call f op = ok (reply, d', f')) : d'.Stocked := by
  cases d with
  | block c =>
    cases op with
    | submit re =>
      simp only [call, eq_ok] at hc
      obtain ⟨r, c', _, hs, -, rfl, -⟩ := hc
      exact .submit h hs
    | tick =>
      simp only [call, tick, eq_ok] at hc
      obtain ⟨_, _, ⟨c', _, ht, rfl, rfl⟩, -, rfl, -⟩ := hc
      exact .tick h ht
    | consumeCompletion =>
      simp only [call, consumeCompletion, eq_ok] at hc
      obtain ⟨_, _, ⟨r, c', hco, -, rfl⟩, -, rfl, -⟩ := hc
      exact .consumeCompletion h hco
    | fabric op =>
      simp only [call, eq_ok] at hc
      obtain ⟨_, -, -, rfl, -⟩ := hc
      exact h
    | injectRx | submitRx | submitTx | takeTx => cases hc
  | nic c =>
    have hn : ∃ c', d' = .nic c' := by
      cases op with
      | submit => cases hc
      | injectRx =>
        simp only [call] at hc
        split at hc <;> cases hc <;> exact ⟨_, rfl⟩
      | takeTx =>
        cases hc
        exact ⟨_, rfl⟩
      | _ =>
        simp only [call, tick, consumeCompletion, eq_ok] at hc
        grind
    obtain ⟨c', rfl⟩ := hn
    trivial

theorem tick_returns (hb : Custody spared True d.transfers f) (hs : d.Stocked) (hr : d.HasRoom f) :
    ∃ d' f', (d.tick f : Res Fabric _) = ok (d', f') := by
  cases d with
  | block c =>
    obtain ⟨c', f', ht⟩ := tick_returns hb hs hr.1 (hr.2 c rfl)
    exact ⟨.block c', f', by rw [tick, ht, ok_bind]; rfl⟩
  | nic c =>
    obtain ⟨c', f', ht⟩ := NicController.tick_returns hb hr.1
    exact ⟨.nic c', f', by rw [tick, ht, ok_bind]; rfl⟩

theorem Stocked.ticksLeft_le (h : d.Stocked) {i : Fin NUM_SLOTS} {t : Transfer}
    (hpe : d.transfers.slots i = .pending t) : t.stage.ticksLeft f ≤ d.patience := by
  have hph : ∀ idx, f.phasesAt idx ≤ 3 := by
    intro idx
    unfold phasesAt
    cases f.transactions[idx]? with
    | none => exact Nat.zero_le _
    | some tx => cases hs : tx.state <;> simp [hs, phasesLeft]
  cases d with
  | block c =>
    obtain ⟨p, hp, rfl⟩ := map_slots_eq_pending.mp hpe
    have hw := (h i p hp).2
    cases p with
    | waiting r n dom =>
      simp only [remainingTicks] at hw
      simp only [BlockPending.transfer, TransferStage.ticksLeft, patience]
      omega
    | dmaReady r dom =>
      simp only [BlockPending.transfer, TransferStage.ticksLeft, patience]
      omega
    | dmaInFlight r dom idx =>
      have hl := hph idx
      simp only [BlockPending.transfer, TransferStage.ticksLeft, patience]
      omega
  | nic c =>
    obtain ⟨p, hp, rfl⟩ := map_slots_eq_pending.mp hpe
    cases p with
    | rxDmaReady | txDmaReady => exact Nat.le_refl 3
    | dmaInFlight _ _ _ _ _ idx =>
      have hl := hph idx
      simp only [NicPending.transfer, TransferStage.ticksLeft, patience]
      omega

end DeviceController

/-! ## The lifecycle -/

/-- What the log of a controller says: handles are given once, a handle is answered at most once, by
a completion of its own request, no request is lost, and completions leave in the order in which the
requests became terminal. -/
structure TransferBank.Lifecycle (b : TransferBank) : Prop where
  handles : (b.accepted.map fun e => RequestHandle.ofKey e.1).Nodup
  completions : (b.finished.map fun e => e.2.handle).Nodup
  answered : ∀ key c, (key, c) ∈ b.finished →
    ∃ t, (key, t) ∈ b.accepted ∧ t.toRequestInfo.AnsweredBy key c
  kept : ∀ key t, (key, t) ∈ b.accepted → (∃ c, (key, c) ∈ b.finished) ∨
    ∃ t', b.slots key.slot = .pending t' ∧ b.keyAt key.slot = key ∧
      t'.toRequestInfo = t.toRequestInfo
  ordered : b.taken <+: b.finished

/-- What a call says it did is in the log. A submission that asks for `a` is accepted under a new
handle, with a domain that was not there before unless there is nothing to move, or it is rejected
and changes neither the controller nor a domain; a completion that is handed over is the oldest that
was not. -/
structure Logged (d : DeviceController) (f : Fabric) (op : ControllerOp) (reply : ControllerReply)
    (d' : DeviceController) (f' : Fabric) : Prop where
  accepted : ∀ a handle, d.asks op = some a → reply = .submitted (some handle) →
    ∃ key t, handle = .ofKey key ∧ d'.transfers.accepted = d.transfers.accepted ++ [(key, t)] ∧
      a.Names t ∧ (a.span.length ≠ 0 →
        t.stage.lease = some a.span ∧ f.domains.get t.dmaDomain = none)
  rejected : ∀ a, d.asks op = some a → reply = .submitted none → d' = d ∧ f'.domains = f.domains
  submitted : ∀ a, d.asks op = some a → ∃ handle, reply = .submitted handle
  consumed : op = .consumeCompletion →
    (∃ key c, reply = .completion (some c) ∧ d'.transfers.taken = d.transfers.taken ++ [(key, c)]) ∨
    (reply = .completion none ∧ d.transfers.taken = d.transfers.finished)

/-- The domain of a request is no other request's and is gone after the answer; that of a request of
`spared` is its span from the acceptance on. -/
structure TransferBank.Leased (spared : BankKey NUM_SLOTS → Prop) (b : TransferBank) (f : Fabric) :
    Prop where
  held : ∀ key t span, spared key → (key, t) ∈ b.accepted → t.stage.lease = some span →
    (∀ c, (key, c) ∉ b.finished) → span.HeldIn f t.dmaDomain
  gone : ∀ key t span c, (key, t) ∈ b.accepted → t.stage.lease = some span →
    (key, c) ∈ b.finished → f.domains.get t.dmaDomain = none
  distinct : ∀ key t span key' t' span', (key, t) ∈ b.accepted → (key', t') ∈ b.accepted →
    t.stage.lease = some span → t'.stage.lease = some span' → t.dmaDomain = t'.dmaDomain →
    key = key'

/-- Every accepted request is answered after `patience` ticks, and ticks return while the counters
have room. -/
structure DeviceController.Finite (d : DeviceController) (f : Fabric) : Prop where
  returns : d.HasRoom f → ∃ d' f', (d.tick f : Res Fabric _) = ok (d', f')
  answered : ∀ key t ops d' f', (key, t) ∈ d.transfers.accepted →
    Machine.Path DeviceController.step KeepsTrace (d, f) ops (d', f') →
    d.patience ≤ ops.countP ControllerOp.isTick → ∃ c, (key, c) ∈ d'.transfers.finished

theorem RequestHandle.ofKey_injective : Function.Injective RequestHandle.ofKey := by
  rintro ⟨slot, g⟩ ⟨slot', g'⟩ h
  simp only [RequestHandle.ofKey, RequestHandle.mk.injEq] at h
  obtain ⟨hs, rfl⟩ := h
  rw [Fin.ext hs]

variable {b : TransferBank}

theorem TransferBank.Accounted.lifecycle (h : b.Accounted) : b.Lifecycle where
  handles := by
    have hm : (b.accepted.map fun e => RequestHandle.ofKey e.1) =
        (b.accepted.map Prod.fst).map .ofKey := by rw [List.map_map]; rfl
    rw [hm]
    exact h.distinct.map RequestHandle.ofKey_injective
  completions := by
    have hm : (b.finished.map fun e => e.2.handle) =
        (b.finished.map Prod.fst).map .ofKey := by
      rw [List.map_map]
      refine map_congr_left fun e he => ?_
      obtain ⟨t, -, ha⟩ := h.answers e.1 e.2 he
      exact ha.1
    rw [hm]
    exact h.once.map RequestHandle.ofKey_injective
  answered := h.answers
  kept := h.kept
  ordered := h.taken_prefix

variable {f : Fabric} {a : Asked} {b' : TransferBank} {f' : Fabric} {d0 : DeviceController}
  {f0 : Fabric}

theorem Submits.of_some {handle : RequestHandle}
    (hn : f.Numbered) (h : Submits a b f (some handle) b' f') :
    ∃ key t, handle = .ofKey key ∧ b'.accepted = b.accepted ++ [(key, t)] ∧ a.Names t ∧
      (a.span.length ≠ 0 → t.stage.lease = some a.span ∧ f.domains.get t.dmaDomain = none) := by
  cases h with
  | accepted i t f' hf hna hs ht hl =>
    refine ⟨b.keyAt i, t, rfl, accept_accepted t, hna, fun _ => ⟨hs, ?_⟩⟩
    rw [hl.fresh]
    exact hn.get_next
  | answered i t c hf hna hno hem =>
    refine ⟨b.keyAt i, t, rfl, ?_, hna, fun hle => absurd hem hle⟩
    rw [complete, finish_accepted, accept_accepted]

theorem Submits.of_none (h : Submits a b f none b' f') : f'.domains = f.domains := by
  cases h with
  | refused f' hr => exact hr.domains

variable {d : DeviceController}

theorem Calls.logged {d' : DeviceController} {op : ControllerOp}
    {reply : ControllerReply} (hf : f.Reachable) (hb : d.transfers.Accounted)
    (h : Calls d f op reply d' f') : Logged d f op reply d' f' := by
  cases h with
  | submitted op a handle d' f' ha hs hr =>
    have hop : op ≠ .consumeCompletion := by
      rintro rfl
      cases ha
    refine ⟨?_, ?_, fun _ _ => ⟨handle, rfl⟩, fun h => absurd h hop⟩
    · intro a' handle' ha' hre
      obtain rfl := mem_unique ha ha'
      cases hre
      exact hs.of_some hf.numbered
    · intro a' ha' hre
      cases hre
      exact ⟨hr rfl, hs.of_none⟩
  | consumed r d' ht =>
    refine ⟨nofun, nofun, nofun, fun _ => ?_⟩
    rcases hb.take_eq_ok ht with ⟨ho, rfl, -⟩ | ⟨i, rest, c, ho, hc, rfl, heq⟩
    · refine .inr ⟨rfl, ?_⟩
      have hfi := hb.fifo
      rw [ho, map_nil, append_nil] at hfi
      exact (map_injective_iff.mpr held_injective hfi).symm
    · refine .inl ⟨d.transfers.keyAt i, c, rfl, ?_⟩
      rw [heq, release_taken]
  | ticked | injected | sent | other => exact ⟨nofun, nofun, nofun, nofun⟩

variable {spared : BankKey NUM_SLOTS → Prop} {traced : Prop}

theorem Custody.leased (h : Custody spared traced b f) : b.Leased spared f where
  held := h.held
  gone key t span c ht hspan hc := h.gone key t c ht (by simp [hspan]) hc
  distinct key t span key' t' span' ht ht' hspan hspan' hd :=
    h.distinct key t key' t' ht ht' (by simp [hspan]) (by simp [hspan']) hd

theorem Custody.finite (h : Custody (fun _ => False) True d.transfers f) (hs : d.Stocked) :
    d.Finite f where
  returns := DeviceController.tick_returns h hs
  answered key t ops d' f' ht hpath hti := by
    refine Due.path (i := key.slot) hpath h ?_ hti
    refine (h.accounted.kept key t ht).imp_right fun ⟨t', hp, hn, _⟩ => ?_
    exact ⟨t', hp, hn, .inl (hs.ticksLeft_le hp)⟩

theorem dma_run {g : DeviceController × Fabric → ControllerOp → Prop}
    (hsp : ∀ s op, g s op → Undisturbed spared s op)
    (hk : traced → ∀ s op, g s op → KeepsTrace s op) (hn : d0.IsNew) (hf0 : f0.Reachable)
    (hr : Machine.Run DeviceController.step g (d0, f0) (d, f)) :
    Custody spared traced d.transfers f ∧ d.Stocked := by
  refine @Machine.Run.invariant _ _ _ _
    (fun s : DeviceController × Fabric => Custody spared traced s.1.transfers s.2 ∧ s.1.Stocked)
    (fun s op s' ⟨hs, hst⟩ ho hste => ?_) _ _ hr ⟨?_, hn.stocked⟩
  · obtain ⟨reply, hc⟩ := step_eq_some.mp hste
    exact ⟨(call_eq_ok hs.reachable.numbered hc).custody hs (hsp s op ho)
      fun ht => hk ht s op ho, hst.call hc⟩
  · show Custody spared traced d0.transfers f0
    rw [hn.transfers_eq]
    exact .empty hf0

/-- **The lifecycle of transfers.** A controller that starts empty over any Fabric keeps its log in
order under every sequence of its own operations and of any calls on the Fabric, and every reply is
in the log. As long as nobody discards the trace under a transfer in flight, every request is
answered, whatever is done to its domain. The domain of a request that nobody names while it is
pending is exactly its span from the acceptance to the answer. -/
theorem dma_lifecycle {d0 : DeviceController} {f0 : Fabric} (hnew : d0.IsNew) (hf0 : f0.Reachable) :
    (∀ d f, Machine.Run DeviceController.step (fun _ _ => True) (d0, f0) (d, f) →
      d.transfers.Lifecycle ∧ ∀ op reply d' f', d.call f op = ok (reply, d', f') →
        Logged d f op reply d' f') ∧
    (∀ d f, Machine.Run DeviceController.step KeepsTrace (d0, f0) (d, f) → d.Finite f) ∧
    (∀ spared d f, Machine.Run DeviceController.step (Undisturbed spared) (d0, f0) (d, f) →
      d.transfers.Leased spared f) := by
  refine ⟨fun d f hr => ?_, fun d f hr => ?_, fun spared d f hr => ?_⟩
  · obtain ⟨hb, -⟩ : Custody (fun _ => False) False d.transfers f ∧ d.Stocked :=
      dma_run (fun s op _ => undisturbed_none s op) False.elim hnew hf0 hr
    refine ⟨hb.accounted.lifecycle, fun op reply d' f' hc => ?_⟩
    exact (call_eq_ok hb.reachable.numbered hc).logged hb.reachable hb.accounted
  · obtain ⟨hb, hs⟩ : Custody (fun _ => False) True d.transfers f ∧ d.Stocked :=
      dma_run (fun s op _ => undisturbed_none s op) (fun _ _ _ h => h) hnew hf0 hr
    exact hb.finite hs
  · exact (dma_run (fun _ _ h => h) False.elim hnew hf0 hr).1.leased

/-- One object of 64 bytes at address 0, and a domain that may write it. -/
def dmaSetup : List FabricOp :=
  [.allocObject "buffer" 64 .memory, .placeObject ⟨0⟩ 0, .createDomain, .grant ⟨0⟩ ⟨0⟩ 0 64 .WRITE]

/-- A disk of one block of 8 bytes. -/
def smallDisk : DeviceController := .block (.new (.new 1 8) 1 ⟨9⟩)

/-- The block goes to the first bytes of the object. -/
def readBlockZero : BlockRequest :=
  { blockNumber := 0, requester := ⟨0, 0⟩, targetObject := ⟨0⟩, targetOffset := 0
    sourceDomain := ⟨0⟩, sourceAuthorityId := none, delegationId := none }

theorem smallDisk_isNew : smallDisk.IsNew := .inl ⟨_, _, _, rfl⟩

/-- The domain of the pending request of a slot. -/
def TransferBank.domainAt (b : TransferBank) (i : Fin NUM_SLOTS) : Option DomainId :=
  match b.slots i with
  | .pending t => some t.dmaDomain
  | _ => none

/-- The two completions of a disk that are all there are. -/
def bothBlocks : List DeviceCompletion → Option (BlockCompletion × BlockCompletion)
  | [.block first, .block second] => some (first, second)
  | _ => none

theorem bothBlocks_eq_some {l : List DeviceCompletion} {first second : BlockCompletion}
    (h : bothBlocks l = some (first, second)) : l = [.block first, .block second] := by
  unfold bothBlocks at h
  split at h <;> cases h
  rfl

/-- The block is asked for twice, and the domain of the first request is destroyed while both are
pending. The first one is answered by a fault, and the second one, whose domain is its span all the
time, by success. -/
theorem dma_lifecycle_smallDisk : ∃ (f0 f1 f : Fabric) (d1 d : DeviceController)
    (first second : BlockCompletion), f0.Reachable ∧
    Machine.Run DeviceController.step (Undisturbed (·.slot = .last 1)) (smallDisk, f0) (d1, f1) ∧
    d1.transfers.accepted.length = 2 ∧ d1.transfers.Leased (·.slot = .last 1) f1 ∧
    Machine.Run DeviceController.step KeepsTrace (smallDisk, f0) (d, f) ∧
    d.transfers.Lifecycle ∧ d.Finite f ∧
    d.transfers.taken.map Prod.snd = [.block first, .block second] ∧
    first.status ≠ .success ∧ second.status = .success := by
  let own (_ : DeviceController × Fabric) (op : ControllerOp) : Prop := op.isFabric = false
  have hru : leadsTo 64 dmaSetup (fun f0 =>
      (Machine.replay DeviceController.step own [.submit readBlockZero, .submit readBlockZero]
        (smallDisk, f0)).any fun s =>
      decide (s.1.transfers.domainAt (.last 1) = some ⟨2⟩) &&
      (DeviceController.step s (.fabric (.destroyDomain ⟨1⟩))).any fun s1 =>
      s1.1.transfers.accepted.length == 2 && (Machine.replay DeviceController.step own
        [.tick, .tick, .tick, .consumeCompletion, .consumeCompletion] s1).any fun s2 =>
          (bothBlocks (s2.1.transfers.taken.map Prod.snd)).any fun both =>
            decide (both.1.status ≠ .success ∧ both.2.status = .success)) = true := by
    decide +kernel
  obtain ⟨f0, hr, hf0⟩ := exists_of_replay hru
  simp only [Option.any_eq_true, Bool.and_eq_true] at hf0
  obtain ⟨s, hs, hdo, ⟨d1, f1⟩, hd, ha, ⟨d, f⟩, ht, ⟨first, second⟩, hbo, hst⟩ := hf0
  -- the destruction names the first request's domain, not the second one's
  have hsp : Undisturbed (·.slot = .last 1) s (.fabric (.destroyDomain ⟨1⟩)) := by
    rintro i t hp rfl
    simp only [TransferBank.domainAt, hp, decide_eq_true_eq, some.injEq] at hdo
    rw [hdo]
    rfl
  have hown : ∀ s op, own s op → Undisturbed (·.slot = .last 1) s op ∧ KeepsTrace s op := by
    rintro s (_ | _) ho
    all_goals first
      | exact ⟨trivial, trivial⟩
      | cases ho
  have hs := Machine.run_of_replay hs
  have hp := (hs.mono fun s op ho => (hown s op ho).1).tail ⟨_, hsp, hd⟩
  have hk : Machine.Run DeviceController.step KeepsTrace (smallDisk, f0) (d, f) :=
    ((hs.mono fun s op ho => (hown s op ho).2).tail
      ⟨.fabric (.destroyDomain ⟨1⟩), False.elim, hd⟩).trans
      ((Machine.run_of_replay ht).mono fun s op ho => (hown s op ho).2)
  obtain ⟨hl, hfi, hle⟩ := dma_lifecycle smallDisk_isNew hr
  exact ⟨f0, f1, f, d1, d, first, second, hr, hp, eq_of_beq ha,
    hle _ _ _ hp, hk, (hl _ _ (hk.mono fun _ _ _ => trivial)).1,
    hfi _ _ hk, bothBlocks_eq_some hbo, of_decide_eq_true hst⟩

/-- The call panicked. -/
def panics {ε α : Type} : Res ε α → Bool
  | .panic => true
  | _ => false

theorem panics_eq_true {ε α : Type} {x : Res ε α} : panics x = true ↔ x = panic := by
  cases x <;> simp [panics]

/-- **Other callers of the Fabric.** One destroys the domain of a pending request: the request is
accepted and not yet answered, and its domain is gone. Another one takes the transaction of a
transfer in flight to its end and discards the trace, and the next tick looks up a row that is no
longer there. -/
theorem dma_domain_destroyed :
    (∃ (f0 f : Fabric) (d : DeviceController) (key : BankKey NUM_SLOTS) (t : Transfer),
      f0.Reachable ∧ Machine.Run DeviceController.step (fun _ _ => True) (smallDisk, f0) (d, f) ∧
      (key, t) ∈ d.transfers.accepted ∧ t.stage.lease = some (readBlockZero.span 8) ∧
      d.transfers.finished = [] ∧ f.domains.get t.dmaDomain = none) ∧
    ∃ (f0 f : Fabric) (d : DeviceController),
      f0.Reachable ∧ Machine.Run DeviceController.step (fun _ _ => True) (smallDisk, f0) (d, f) ∧
      d.transfers.accepted ≠ [] ∧ d.transfers.finished = [] ∧
      (d.tick f : Res Fabric _) = panic := by
  constructor
  · have hru : Fabric.leadsTo 64 dmaSetup (fun f0 =>
        (Machine.replay DeviceController.step (fun _ _ => True)
          [.submit readBlockZero, .fabric (.destroyDomain ⟨1⟩)] (smallDisk, f0)).any
          fun s => s.1.transfers.accepted.any fun e => decide
            (e.2.stage.lease = some (readBlockZero.span 8) ∧ s.1.transfers.finished = [] ∧
              s.2.domains.get e.2.dmaDomain = none)) = true := by
      decide +kernel
    obtain ⟨f0, hre, hf0⟩ := exists_of_replay hru
    simp only [Option.any_eq_true, List.any_eq_true, decide_eq_true_eq] at hf0
    obtain ⟨⟨d, f⟩, hr, ⟨key, t⟩, ht, hl, hfi, hg⟩ := hf0
    exact ⟨f0, f, d, key, t, hre, Machine.run_of_replay hr, ht, hl, hfi, hg⟩
  · have hru : Fabric.leadsTo 64 dmaSetup (fun f0 =>
        (Machine.replay DeviceController.step (fun _ _ => True)
          [.submit readBlockZero, .tick, .fabric (.advance 0), .fabric (.advance 0),
            .fabric .discardCompletedCompilerTrace] (smallDisk, f0)).any
          fun s => !s.1.transfers.accepted.isEmpty && s.1.transfers.finished.isEmpty &&
            panics (s.1.tick s.2 : Res Fabric _)) = true := by
      decide +kernel
    obtain ⟨f0, hre, hf0⟩ := exists_of_replay hru
    simp only [Option.any_eq_true, Bool.and_eq_true, Bool.not_eq_true', List.isEmpty_eq_false_iff,
      List.isEmpty_iff] at hf0
    obtain ⟨⟨d, f⟩, hr, ⟨ha, hfi⟩, hti⟩ := hf0
    exact ⟨f0, f, d, hre, Machine.run_of_replay hr, ha, hfi, panics_eq_true.mp hti⟩

end Anka
