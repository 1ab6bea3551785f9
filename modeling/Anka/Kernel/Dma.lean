import Anka.Kernel.Transfers
import Anka.Lib.Loops

/-!
# Finite transfers (`block.rs`, `nic.rs`)

A controller and a Fabric as one machine: submissions, ticks and completions of the controller, with
any calls on the Fabric in between. The requests of either controller are read as transfers
(`DeviceController.transfers`), and every operation is one of the moves of a bank of transfers
(`call_eq_ok`).

`dma_lifecycle` is what follows for a controller from its construction on. The log is in order
whatever is done to the Fabric in between. That requests are answered asks that nobody discards the
trace under a transfer in flight (`KeepsTrace`), and what a request's domain holds that nobody names
it while the request is pending (`Undisturbed`).
-/

namespace Anka

open Rust Res SlotBank Fabric

/-! ## Both controllers as banks of transfers -/

/-- What a block request moves. -/
def BlockRequest.span (blockSize : Nat) (r : BlockRequest) : DmaSpan :=
  { object := r.targetObject, offset := r.targetOffset, length := blockSize, kind := .write }

/-- A block slot's transfer. -/
def BlockPending.transfer (blockSize : Nat) (p : BlockPending) : Transfer where
  requester := p.request.requester
  delegationId := p.request.delegationId
  dmaDomain := p.dmaDomain
  stage := match p with
    | .waiting request ticks _ => .waiting (request.span blockSize) ticks
    | .dmaReady request _ => .ready (request.span blockSize)
    | .dmaInFlight _ _ txIdx => .inFlight txIdx .write

/-- The transfers of the block device. -/
def BlockController.transfers (c : BlockController) : TransferBank :=
  c.slots.map (·.transfer c.storage.blockSize) .block

/-- What a reception moves. -/
def NicRxRequest.span (length : Nat) (r : NicRxRequest) : DmaSpan :=
  { object := r.targetObject, offset := r.targetOffset, length, kind := .write }

/-- What a transmission moves. -/
def NicTxRequest.span (r : NicTxRequest) : DmaSpan :=
  { object := r.sourceObject, offset := r.sourceOffset, length := r.frameLen, kind := .read }

/-- A reception writes memory. -/
def NicOperation.kind : NicOperation → AccessKind
  | rx => .write
  | tx => .read

/-- A network slot's transfer. -/
def NicPending.transfer (p : NicPending) : Transfer where
  requester := p.requester
  delegationId := p.delegationId
  dmaDomain := p.dmaDomain
  stage := match p with
    | .rxDmaReady request frame _ => .ready (request.span frame.length)
    | .txDmaReady request _ => .ready request.span
    | .dmaInFlight _ operation _ _ _ txIdx => .inFlight txIdx operation.kind

/-- The transfers of the network device. -/
def NicController.transfers (c : NicController) : TransferBank := c.slots.map (·.transfer) .nic

/-- The transfers of a device. -/
def DeviceController.transfers : DeviceController → TransferBank
  | block c => c.transfers
  | nic c => c.transfers

/-! ## The machine -/

/-- A call on a device, or on the Fabric beside it. -/
inductive ControllerOp where
  | submit (request : BlockRequest)
  | injectRx (frame : List UInt8)
  | submitRx (request : NicRxRequest)
  | submitTx (request : NicTxRequest)
  | tick
  | consumeCompletion
  | takeTx
  | fabric (op : FabricOp)

/-- A cycle. -/
def ControllerOp.isTick : ControllerOp → Bool
  | tick => true
  | _ => false

/-- A call on the Fabric. -/
def ControllerOp.isFabric : ControllerOp → Bool
  | fabric _ => true
  | _ => false

/-- What a call answers. -/
inductive ControllerReply where
  | submitted (handle : Option RequestHandle)
  | injected (accepted : Bool)
  | completion (completion : Option DeviceCompletion)
  | frame (frame : Option (List UInt8))
  | done

/-- The slot, if accepted. -/
def SubmitResult.handle : SubmitResult → Option RequestHandle
  | accepted handle => some handle
  | _ => none

/-- The slot, if accepted. -/
def NicSubmitResult.handle : NicSubmitResult → Option RequestHandle
  | accepted handle => some handle
  | _ => none

namespace DeviceController

/-- One operation on a controller and a Fabric; an error says that the device has no such
operation. -/
def call (d : DeviceController) (f : Fabric) :
    ControllerOp → Res Fabric (ControllerReply × DeviceController × Fabric)
  | .submit request =>
    match d with
    | .block c => do
      let (r, c, f) ← c.submit request f
      return (.submitted r.handle, .block c, f)
    | .nic _ => err f
  | .injectRx frame =>
    match d with
    | .block _ => err f
    | .nic c =>
      match c.injectRx frame with
      | some c => ok (.injected true, .nic c, f)
      | none => ok (.injected false, .nic c, f)
  | .submitRx request =>
    match d with
    | .block _ => err f
    | .nic c => do
      let (r, c, f) ← c.submitRx request f
      return (.submitted r.handle, .nic c, f)
  | .submitTx request =>
    match d with
    | .block _ => err f
    | .nic c => do
      let (r, c, f) ← c.submitTx request f
      return (.submitted r.handle, .nic c, f)
  | .tick => do
    let (d, f) ← d.tick f
    return (.done, d, f)
  | .consumeCompletion => do
    let (r, d) ← d.consumeCompletion
    return (.completion r, d, f)
  | .takeTx =>
    match d with
    | .block _ => err f
    | .nic c => ok (.frame c.takeTx.1, .nic c.takeTx.2, f)
  | .fabric op => do
    let f ← unwrap (f.step op)
    return (.done, d, f)

/-- One call, if it returns. -/
def step (s : DeviceController × Fabric) (op : ControllerOp) : Option (DeviceController × Fabric) :=
  match s.1.call s.2 op with
  | ok (_, s') => some s'
  | _ => none

theorem step_eq_some {s s' : DeviceController × Fabric} {op : ControllerOp} :
    step s op = some s' ↔ ∃ reply, s.1.call s.2 op = ok (reply, s') := by
  unfold step
  split
  · rename_i reply s'' h
    simp [h]
  · rename_i hn
    simp only [reduceCtorEq, false_iff, not_exists]
    exact fun reply h => hn reply s' h

/-- A controller as its constructor makes it. -/
def IsNew (d : DeviceController) : Prop :=
  (∃ storage latency agent, d = .block (.new storage latency agent)) ∨ ∃ agent,
    d = .nic (.new agent)

/-- What an operation asks a controller to move. -/
def asks (d : DeviceController) : ControllerOp → Option Asked
  | .submit request =>
    match d with
    | .block c => some { requester := request.requester, delegationId := request.delegationId
                         span := request.span c.storage.blockSize }
    | .nic _ => none
  | .submitRx request =>
    match d with
    | .block _ => none
    | .nic c => some { requester := request.requester, delegationId := request.delegationId
                       span := request.span (c.rxQueue.headD []).length }
  | .submitTx request =>
    match d with
    | .block _ => none
    | .nic _ => some { requester := request.requester, delegationId := request.delegationId
                       span := request.span }
  | _ => none

end DeviceController

/-! ## Submissions -/

variable {c' c : NicController}

section Submissions

variable {f f' : Fabric} {P C : Type} {view : P → Transfer} {answer : C → DeviceCompletion}
  {b : SlotBank NUM_SLOTS P C} {i : Fin NUM_SLOTS}

theorem map_slots_free (hf : b.freeSlot = some i) : (b.map view answer).slots i = .free := by
  simp only [map, freeSlot_eq_some hf, BankSlot.map]

theorem Submits.of_accept {a : Asked} {p : P} (hf : b.freeSlot = some i) (hn : a.Names (view p))
    (hs : (∃ n, (view p).stage = .waiting a.span (n + 1)) ∨ (view p).stage = .ready a.span)
    (hl : f.Leases a.span (view p).dmaDomain f') :
    Submits a (b.map view answer) f (some (.ofKey (b.keyAt i)))
      ((b.accept i p).map view answer) f' := by
  have hle := Nat.pos_iff_ne_zero.mp hl.nonempty
  rw [accept_map]
  refine .accepted i (view p) f' (map_slots_free hf) hn ?_ ?_ hl
  · rcases hs with ⟨n, hs⟩ | hs <;> simp [hs, TransferStage.lease, hle]
  · intro span n hw
    rcases hs with ⟨k, hs⟩ | hs <;> rw [hs] at hw <;> cases hw
    exact Nat.succ_pos k

theorem map_slots_pending {mo : Transfer → Prop} (h : ∀ p, b.slots i = .pending p → mo (view p))
    (t : Transfer) (ht : (b.map view answer).slots i = .pending t) : mo t := by
  obtain ⟨p, hp, rfl⟩ := map_slots_eq_pending.mp ht
  exact h p hp

theorem BlockController.submit_eq_ok {c c' : BlockController} {re : BlockRequest} {r : SubmitResult}
    (hn : f.Numbered) (h : (c.submit re f : Res Fabric _) = ok (r, c', f')) :
    Submits { requester := re.requester, delegationId := re.delegationId
              span := re.span c.storage.blockSize } c.transfers f r.handle c'.transfers f' ∧
      (r.handle = none → c' = c) := by
  unfold submit at h
  split at h
  · cases h
    exact ⟨.refused f (.refl f), fun _ => rfl⟩
  split at h
  · cases h
    exact ⟨.refused f (.refl f), fun _ => rfl⟩
  split at h
  · cases h
    exact ⟨.refused f (.refl f), fun _ => rfl⟩
  rename_i i hf
  split at h
  · rename_i domain g hd
    cases h
    have hle : f.Leases (re.span c.storage.blockSize) domain f' := by
      unfold delegate at hd
      split at hd
      · exact delegateDmaSpanFromAuthorityId_leases hd
      · exact delegateDmaSpan_leases hd
    refine ⟨.of_accept hf ⟨rfl, rfl⟩ (.inl ⟨max c.latency 1 - 1, ?_⟩) hle, nofun⟩
    have hl : max c.latency 1 - 1 + 1 = max c.latency 1 := by omega
    rw [hl]
    rfl
  · rename_i g hd
    cases h
    refine ⟨.refused f' ?_, fun _ => rfl⟩
    unfold delegate at hd
    split at hd
    · exact delegateDmaSpanFromAuthorityId_refuses hn hd
    · exact delegateDmaSpan_refuses hn hd
  · cases h

theorem NicController.submitRx_eq_ok {re : NicRxRequest} {r : NicSubmitResult}
    (hn : f.Numbered) (h : (c.submitRx re f : Res Fabric _) = ok (r, c', f')) :
    Submits { requester := re.requester, delegationId := re.delegationId
              span := re.span (c.rxQueue.headD []).length } c.transfers f r.handle
        c'.transfers f' ∧
      (r.handle = none → c' = c) := by
  unfold submitRx at h
  split at h
  · cases h
    exact ⟨.refused f (.refl f), fun _ => rfl⟩
  rename_i i hf
  split at h
  · cases h
    exact ⟨.refused f (.refl f), fun _ => rfl⟩
  rename_i frame rest hq
  have hfr : (c.rxQueue.headD []).length = frame.length := by rw [hq]; rfl
  rw [hfr]
  simp only at h
  split at h
  · -- an empty frame is answered at once
    rename_i hem
    cases h
    refine ⟨?_, nofun⟩
    let pending : NicPending := .rxDmaReady re frame re.sourceDomain
    show Submits _ _ f _ ((c.slots.complete i pending (c.emptyRx i re)).map (·.transfer) .nic) f
    rw [complete_map]
    refine .answered i _ _ (map_slots_free hf) ⟨rfl, rfl⟩ ?_ hem ⟨rfl, rfl, rfl⟩
    simp [pending, NicPending.transfer, TransferStage.lease, NicRxRequest.span, hem]
  · split at h
    · rename_i domain g hd
      cases h
      exact ⟨.of_accept hf ⟨rfl, rfl⟩ (.inr rfl) (delegateDmaSpanFromAuthorityId_leases hd), nofun⟩
    · rename_i g hd
      cases h
      exact ⟨.refused f' (delegateDmaSpanFromAuthorityId_refuses hn hd), fun _ => rfl⟩
    · cases h

theorem NicController.submitTx_eq_ok {re : NicTxRequest} {r : NicSubmitResult}
    (hn : f.Numbered) (h : (c.submitTx re f : Res Fabric _) = ok (r, c', f')) :
    Submits { requester := re.requester, delegationId := re.delegationId
              span := re.span } c.transfers f r.handle c'.transfers f' ∧
      (r.handle = none → c' = c) := by
  unfold submitTx at h
  split at h
  · cases h
    exact ⟨.refused f (.refl f), fun _ => rfl⟩
  rename_i i hf
  split at h
  · rename_i domain g hd
    cases h
    exact ⟨.of_accept hf ⟨rfl, rfl⟩ (.inr rfl) (delegateDmaSpanFromAuthorityId_leases hd), nofun⟩
  · rename_i g hd
    cases h
    exact ⟨.refused f' (delegateDmaSpanFromAuthorityId_refuses hn hd), fun _ => rfl⟩
  · cases h

end Submissions

/-! ## Ticks -/

/-- The moves of all slots in turn. -/
abbrev AllSlots (R : Fin NUM_SLOTS → TransferBank × Fabric → TransferBank × Fabric → Prop) :=
  InTurn R (List.finRange NUM_SLOTS)

/-- A tick: all countdowns, then all starts, then all transactions. -/
def Ticks (s s' : TransferBank × Fabric) : Prop :=
  ∃ s1 s2, AllSlots (fun i s t => CountsDown i s.1 t.1 ∧ t.2 = s.2) s s1 ∧
    AllSlots (fun i s t => Starts i s.1 s.2 t.1 t.2) s1 s2 ∧
    AllSlots (fun i s t => Progresses i s.1 s.2 t.1 t.2) s2 s'

theorem Fabric.progress_eq_ok {f f' : Fabric} {idx : Nat}
    {r : Option (DeviceCompletionStatus × Transaction)}
    (h : (f.progress idx : Res Fabric _) = ok (r, f')) :
    f.PhaseOf idx f' ∧ ∃ tx, f'.transactions[idx]? = some tx ∧
      ((r = none ∧ tx.state.isTerminal = false) ∨
        ∃ status, r = some (status, tx) ∧ tx.state.isTerminal = true ∧
          (status = .success → tx.state = .committed)) := by
  simp only [progress, transactionAt, eq_ok] at h
  obtain ⟨tx0, ht0, g, hp, tx, ht, h⟩ := h
  have ha : (f.advance idx : Res Fabric _) = ok g := by
    split at hp
    · rename_i hte
      obtain rfl := ok.inj hp
      cases hs : tx0.state <;> simp [hs, TxState.isTerminal] at hte
      all_goals simp [advance, transactionAt, ht0, unwrap, hs]
    · exact hp
  split at h <;> rename_i hs <;> cases h
  · exact ⟨ha, tx, ht, .inr ⟨_, rfl, by simp [hs, TxState.isTerminal], fun _ => hs⟩⟩
  · exact ⟨ha, tx, ht, .inr ⟨_, rfl, by simp [hs, TxState.isTerminal], fun heq => by cases heq⟩⟩
  · refine ⟨ha, tx, ht, .inl ⟨rfl, ?_⟩⟩
    cases hc : tx.state <;> simp_all [TxState.isTerminal]

namespace BlockController

variable {c c' : BlockController} {f f' : Fabric} {i : Fin NUM_SLOTS}

/-- The ticks a pending request still waits. -/
def remainingTicks : BlockPending → Nat
  | .waiting _ n _ => n
  | _ => 0

/-- The same device; what is pending was pending, with the same request, and waits no longer. -/
structure Retains (c c' : BlockController) : Prop where
  storage : c'.storage = c.storage
  latency : c'.latency = c.latency
  pending : ∀ i p', c'.slots.slots i = .pending p' →
    ∃ p, c.slots.slots i = .pending p ∧ p'.request = p.request ∧
      remainingTicks p' ≤ remainingTicks p

theorem Retains.refl (c : BlockController) : Retains c c :=
  ⟨rfl, rfl, fun _ p hp => ⟨p, hp, rfl, Nat.le_refl _⟩⟩

theorem Retains.of_update {slot : BankSlot BlockPending BlockCompletion}
    (hs : c'.storage = c.storage) (hl : c'.latency = c.latency)
    (hsl : c'.slots.slots = Function.update c.slots.slots i slot)
    (hslo : ∀ p', slot = .pending p' → ∃ p, c.slots.slots i = .pending p ∧
      p'.request = p.request ∧ remainingTicks p' ≤ remainingTicks p) : Retains c c' := by
  refine ⟨hs, hl, fun j p' hp' => ?_⟩
  rw [hsl, update_slots_apply] at hp'
  split at hp'
  · rename_i hj
    subst hj
    exact hslo p' hp'
  · exact ⟨p', hp', rfl, Nat.le_refl _⟩

theorem countDown_eq_ok (h : (c.countDown i : Res Fabric _) = ok c') :
    CountsDown i c.transfers c'.transfers ∧ Retains c c' ∧ c'.eventSequence = c.eventSequence := by
  unfold countDown at h
  split at h
  · rename_i request n domain hs
    simp only [eq_ok] at h
    obtain ⟨_, ⟨hpo, rfl⟩, rfl⟩ := h
    obtain ⟨k, rfl⟩ := Nat.exists_eq_add_of_le' hpo
    have hn : (if k + 1 - 1 = 0 then BlockPending.dmaReady request domain
        else .waiting request (k + 1 - 1) domain).transfer c.storage.blockSize =
        { (BlockPending.waiting request (k + 1) domain).transfer c.storage.blockSize with
          stage := if k = 0 then .ready (request.span c.storage.blockSize)
            else .waiting (request.span c.storage.blockSize) k } := by
      rw [Nat.add_sub_cancel]
      split <;> rfl
    refine ⟨?_, .of_update rfl rfl rfl fun p' hp' => ⟨_, hs, ?_⟩, rfl⟩
    · simp only [transfers, advance_map, hn]
      exact .counted _ (request.span c.storage.blockSize) k
        (map_slots_eq_pending.mpr ⟨_, hs, rfl⟩) rfl
    · obtain rfl := BankSlot.pending.inj hp'
      split
      · exact ⟨rfl, Nat.zero_le _⟩
      · exact ⟨rfl, Nat.le_succ k⟩
  · rename_i ho
    obtain rfl := ok.inj h
    refine ⟨.idle (map_slots_pending fun p hp => ?_), .refl c, rfl⟩
    cases p with
    | waiting => exact absurd hp (ho _ _ _)
    | dmaReady | dmaInFlight => rfl

theorem startDma_eq_ok (h : (startDma (c, f) i : Res Fabric _) = ok (c', f')) :
    Starts i c.transfers f c'.transfers f' ∧ Retains c c' ∧ c'.eventSequence = c.eventSequence := by
  simp only [startDma] at h
  split at h
  · rename_i request domain hs
    simp only [eq_ok] at h
    obtain ⟨data, -, idx, g, hsu, rfl, rfl⟩ := h
    refine ⟨?_, .of_update rfl rfl rfl fun p' hp' => ⟨_, hs, ?_⟩, rfl⟩
    · simp only [transfers, advance_map]
      exact .started _ (request.span c.storage.blockSize) c.storageAgent (some data) idx g
        (map_slots_eq_pending.mpr ⟨_, hs, rfl⟩) rfl hsu
    · obtain rfl := BankSlot.pending.inj hp'
      exact ⟨rfl, Nat.zero_le _⟩
  · rename_i ho
    obtain ⟨rfl, rfl⟩ := Prod.mk.inj (ok.inj h)
    refine ⟨.idle fun t span ht hst => ?_, .refl c, rfl⟩
    obtain ⟨p, hp, rfl⟩ := map_slots_eq_pending.mp ht
    cases p with
    | dmaReady => exact absurd hp (ho _ _)
    | waiting | dmaInFlight => cases hst

theorem advanceDma_eq_ok (h : (advanceDma (c, f) i : Res Fabric _) = ok (c', f')) :
    Progresses i c.transfers f c'.transfers f' ∧ Retains c c' := by
  simp only [advanceDma] at h
  split at h
  · rename_i request domain idx hs
    have hpe := (map_slots_eq_pending (p := (·.transfer c.storage.blockSize))
      (c := DeviceCompletion.block)).mpr ⟨_, hs, rfl⟩
    simp only [bind_eq_ok, Prod.exists] at h
    obtain ⟨o, g, hpg, h⟩ := h
    obtain ⟨hph, tx, htx, ⟨rfl, ht⟩ | ⟨status, rfl, ht, -⟩⟩ :=
      progress_eq_ok hpg
    · cases h
      exact ⟨.moved _ idx .write _ tx hpe rfl hph htx ht, .refl c⟩
    · simp only [eq_ok] at h
      obtain ⟨_, -, rfl, rfl⟩ := h
      refine ⟨?_, .of_update rfl rfl rfl fun _ hp => by cases hp⟩
      simp only [transfers, finish_map]
      exact .answered _ idx .write _ tx _ hpe rfl hph htx ht ⟨rfl, rfl, rfl⟩
  · rename_i ho
    obtain ⟨rfl, rfl⟩ := Prod.mk.inj (ok.inj h)
    refine ⟨.idle (map_slots_pending fun p hp => ?_), .refl c⟩
    cases p with
    | dmaInFlight => exact absurd hp (ho _ _ _)
    | waiting | dmaReady => rfl

theorem tick_eq_ok (h : (c.tick f : Res Fabric _) = ok (c', f')) :
    Ticks (c.transfers, f) (c'.transfers, f') := by
  simp only [tick, bind_eq_ok, bothSlots] at h
  obtain ⟨c1, hc, ⟨c2, f2⟩, hs, ha⟩ := h
  refine ⟨(c1.transfers, f), (c2.transfers, f2), ?_, ?_, ?_⟩
  · exact .of_foldlM (fun c : BlockController => (c.transfers, f))
      (fun _ _ _ hb => ⟨(countDown_eq_ok hb).1, rfl⟩) hc
  · exact .of_foldlM (fun s : BlockController × Fabric => (s.1.transfers, s.2))
      (fun _ _ _ hb => (startDma_eq_ok hb).1) hs
  · exact .of_foldlM (fun s : BlockController × Fabric => (s.1.transfers, s.2))
      (fun _ _ _ hb => (advanceDma_eq_ok hb).1) ha

end BlockController

namespace NicController

variable {c c' : NicController} {f f' : Fabric} {i : Fin NUM_SLOTS}

theorem startDma_eq_ok (h : (startDma (c, f) i : Res Fabric _) = ok (c', f')) :
    Starts i c.transfers f c'.transfers f' := by
  simp only [startDma] at h
  split at h
  · rename_i request frame domain hs
    simp only [eq_ok] at h
    obtain ⟨idx, g, hsu, rfl, rfl⟩ := h
    simp only [transfers, advance_map]
    exact .started _ (request.span frame.length) c.dmaAgent (some frame) idx g
      (map_slots_eq_pending.mpr ⟨_, hs, rfl⟩) rfl hsu
  · rename_i request domain hs
    simp only [eq_ok] at h
    obtain ⟨idx, g, hsu, rfl, rfl⟩ := h
    simp only [transfers, advance_map]
    exact .started _ request.span c.dmaAgent none idx g
      (map_slots_eq_pending.mpr ⟨_, hs, rfl⟩) rfl hsu
  · rename_i hr htx
    obtain ⟨rfl, rfl⟩ := Prod.mk.inj (ok.inj h)
    refine .idle fun t span ht hst => ?_
    obtain ⟨p, hp, rfl⟩ := map_slots_eq_pending.mp ht
    cases p with
    | rxDmaReady => exact absurd hp (hr _ _ _)
    | txDmaReady => exact absurd hp (htx _ _)
    | dmaInFlight => cases hst

theorem advanceDma_eq_ok (h : (advanceDma (c, f) i : Res Fabric _) = ok (c', f')) :
    Progresses i c.transfers f c'.transfers f' := by
  simp only [advanceDma] at h
  split at h
  · rename_i requester operation frameLen delegationId domain idx hs
    have hpe := (map_slots_eq_pending (p := NicPending.transfer)
      (c := DeviceCompletion.nic)).mpr ⟨_, hs, rfl⟩
    simp only [bind_eq_ok, Prod.exists] at h
    obtain ⟨o, g, hpg, h⟩ := h
    obtain ⟨hph, tx, htx, ⟨rfl, ht⟩ | ⟨status, rfl, ht, -⟩⟩ :=
      progress_eq_ok hpg
    · cases h
      exact .moved _ idx operation.kind _ tx hpe rfl hph htx ht
    · simp only [eq_ok] at h
      obtain ⟨_, -, rfl, rfl⟩ := h
      simp only [transfers, finish_map]
      exact .answered _ idx operation.kind _ tx _ hpe rfl hph htx ht ⟨rfl, rfl, rfl⟩
  · rename_i ho
    obtain ⟨rfl, rfl⟩ := Prod.mk.inj (ok.inj h)
    refine .idle (map_slots_pending fun p hp => ?_)
    cases p with
    | dmaInFlight => exact absurd hp (ho _ _ _ _ _ _)
    | rxDmaReady | txDmaReady => rfl

theorem countsDown_idle : CountsDown i c.transfers c.transfers := by
  refine .idle (map_slots_pending fun p _ => ?_)
  cases p <;> rfl

theorem tick_eq_ok (h : (c.tick f : Res Fabric _) = ok (c', f')) :
    Ticks (c.transfers, f) (c'.transfers, f') := by
  simp only [tick, bind_eq_ok, bothSlots] at h
  obtain ⟨⟨c2, f2⟩, hs, ha⟩ := h
  refine ⟨(c.transfers, f), (c2.transfers, f2), ?_, ?_, ?_⟩
  · exact .idle fun _ => ⟨countsDown_idle, rfl⟩
  · exact .of_foldlM (fun s : NicController × Fabric => (s.1.transfers, s.2))
      (fun _ _ _ hb => startDma_eq_ok hb) hs
  · exact .of_foldlM (fun s : NicController × Fabric => (s.1.transfers, s.2))
      (fun _ _ _ hb => advanceDma_eq_ok hb) ha

end NicController

/-! ## Every operation as a move of the transfers -/

/-- What a call on a controller does. -/
inductive Calls (d : DeviceController) (f : Fabric) :
    ControllerOp → ControllerReply → DeviceController → Fabric → Prop
  | submitted (op : ControllerOp) (a : Asked) (handle : Option RequestHandle)
      (d' : DeviceController)
      (f' : Fabric) (hasks : d.asks op = some a)
      (hsubs : Submits a d.transfers f handle d'.transfers f') (hrefused : handle = none → d' = d) :
      Calls d f op (.submitted handle) d' f'
  | ticked (d' : DeviceController) (f' : Fabric)
      (hticks : Ticks (d.transfers, f) (d'.transfers, f')) : Calls d f .tick .done d' f'
  | consumed (r : Option DeviceCompletion) (d' : DeviceController)
      (htake : (d.transfers.take : Res Fabric _) = ok (r, d'.transfers)) :
      Calls d f .consumeCompletion (.completion r) d' f
  | injected (frame : List UInt8) (accepted : Bool) (d' : DeviceController)
      (hsame : d'.transfers = d.transfers) : Calls d f (.injectRx frame) (.injected accepted) d' f
  | sent (frame : Option (List UInt8)) (d' : DeviceController)
      (hsame : d'.transfers = d.transfers) :
      Calls d f .takeTx (.frame frame) d' f
  | other (op : FabricOp) (f' : Fabric) (hstep : f.step op = some f') :
      Calls d f (.fabric op) .done d f'

namespace DeviceController

variable {d d' : DeviceController} {f f' : Fabric}

theorem tick_eq_ok (h : (d.tick f : Res Fabric _) = ok (d', f')) :
    Ticks (d.transfers, f) (d'.transfers, f') := by
  cases d with
  | block c =>
    simp only [tick, eq_ok] at h
    obtain ⟨c', _, ht, rfl, rfl⟩ := h
    exact BlockController.tick_eq_ok ht
  | nic c =>
    simp only [tick, eq_ok] at h
    obtain ⟨c', _, ht, rfl, rfl⟩ := h
    exact NicController.tick_eq_ok ht

theorem consumeCompletion_eq_ok {r : Option DeviceCompletion}
    (h : (d.consumeCompletion : Res Fabric _) = ok (r, d')) :
    (d.transfers.take : Res Fabric _) = ok (r, d'.transfers) := by
  cases d with
  | block c =>
    simp only [consumeCompletion, BlockController.consumeCompletion, eq_ok] at h
    obtain ⟨_, _, ⟨r', sl, htake, rfl, rfl⟩, rfl, rfl⟩ := h
    exact take_map _ _ htake
  | nic c =>
    simp only [consumeCompletion, NicController.consumeCompletion, eq_ok] at h
    obtain ⟨_, _, ⟨r', sl, htake, rfl, rfl⟩, rfl, rfl⟩ := h
    exact take_map _ _ htake

theorem injectRx_transfers {fr : List UInt8} (h : c.injectRx fr = some c') :
    c'.transfers = c.transfers := by
  unfold NicController.injectRx at h
  split at h
  · cases h
  · obtain ⟨_, -, rfl⟩ := Option.map_eq_some_iff.mp h
    rfl

theorem call_eq_ok {op : ControllerOp} {reply : ControllerReply} (hn : f.Numbered)
    (h : d.call f op = ok (reply, d', f')) : Calls d f op reply d' f' := by
  cases op with
  | submit re =>
    cases d with
    | block c =>
      simp only [call, eq_ok] at h
      obtain ⟨r, c', _, hs, rfl, rfl, rfl⟩ := h
      obtain ⟨hsubs, hrefused⟩ := BlockController.submit_eq_ok hn hs
      exact .submitted _ _ _ _ _ rfl hsubs fun hno => congrArg _ (hrefused hno)
    | nic c => cases h
  | submitRx re =>
    cases d with
    | block c => cases h
    | nic c =>
      simp only [call, eq_ok] at h
      obtain ⟨r, c', _, hs, rfl, rfl, rfl⟩ := h
      obtain ⟨hsubs, hrefused⟩ := NicController.submitRx_eq_ok hn hs
      exact .submitted _ _ _ _ _ rfl hsubs fun hno => congrArg _ (hrefused hno)
  | submitTx re =>
    cases d with
    | block c => cases h
    | nic c =>
      simp only [call, eq_ok] at h
      obtain ⟨r, c', _, hs, rfl, rfl, rfl⟩ := h
      obtain ⟨hsubs, hrefused⟩ := NicController.submitTx_eq_ok hn hs
      exact .submitted _ _ _ _ _ rfl hsubs fun hno => congrArg _ (hrefused hno)
  | injectRx fr =>
    cases d with
    | block c => cases h
    | nic c =>
      simp only [call] at h
      split at h <;> cases h
      · rename_i c' hi
        exact .injected fr true _ (injectRx_transfers hi)
      · exact .injected fr false _ rfl
  | takeTx =>
    cases d with
    | block c => cases h
    | nic c =>
      cases h
      exact .sent _ _ rfl
  | tick =>
    simp only [call, eq_ok] at h
    obtain ⟨_, _, ht, rfl, rfl, rfl⟩ := h
    exact .ticked _ _ (tick_eq_ok ht)
  | consumeCompletion =>
    simp only [call, eq_ok] at h
    obtain ⟨r, _, hc, rfl, rfl, rfl⟩ := h
    exact .consumed _ _ (consumeCompletion_eq_ok hc)
  | fabric op =>
    simp only [call, eq_ok] at h
    obtain ⟨_, hstep, rfl, rfl, rfl⟩ := h
    exact .other op _ hstep

end DeviceController

/-! ## What every call keeps -/

variable {s' s : TransferBank × Fabric}

theorem Ticks.keeps {A : TransferBank → Fabric → Prop} (h : Ticks s s')
    (hc : ∀ {i b f b'}, A b f → CountsDown i b b' → A b' f)
    (hst : ∀ {i b f b' f'}, A b f → Starts i b f b' f' → A b' f')
    (hp : ∀ {i b f b' f'}, A b f → Progresses i b f b' f' → A b' f') (hs : A s.1 s.2) :
    A s'.1 s'.2 := by
  obtain ⟨s1, s2, hcn, hsta, hpg⟩ := h
  refine hpg.keeps (A := fun s : _ × _ => A s.1 s.2) (fun _ _ _ _ ht hs => hp hs ht) ?_
  refine hsta.keeps (A := fun s : _ × _ => A s.1 s.2) (fun _ _ _ _ ht hs => hst hs ht) ?_
  refine hcn.keeps (A := fun s : _ × _ => A s.1 s.2) (fun _ _ s t ht hs => ?_) hs
  rw [ht.2]
  exact hc hs ht.1

theorem Custody.ticks {spared : BankKey NUM_SLOTS → Prop} {t : Prop}
    (hb : Custody spared t s.1 s.2) (h : Ticks s s') : Custody spared t s'.1 s'.2 :=
  h.keeps countsDown starts progresses hb

/-- A request of a bank in custody that is due. -/
def Pursued (spared : BankKey NUM_SLOTS → Prop) (late : TransferStage → Bool) (m : Nat)
    (i : Fin NUM_SLOTS) (key : BankKey NUM_SLOTS) (s : TransferBank × Fabric) : Prop :=
  Custody spared True s.1 s.2 ∧ Due late m i key s.1 s.2

variable {spared : BankKey NUM_SLOTS → Prop} {i : Fin NUM_SLOTS} {m : Nat} {key : BankKey NUM_SLOTS}

theorem Due.ticks (h : Due (fun _ => false) (m + 1) i key s.1 s.2)
    (hb : Custody spared True s.1 s.2) (hticks : Ticks s s') :
    Due (fun _ => false) m i key s'.1 s'.2 := by
  obtain ⟨s1, s2, hcn, hsta, hpg⟩ := hticks
  have hn := List.nodup_finRange NUM_SLOTS
  have hi := List.mem_finRange i
  have hl : Pursued spared (fun _ => true) m i key s := by
    refine ⟨hb, h.imp_right fun ⟨t, hpe, hna, hle⟩ => ⟨t, hpe, hna, .inr ⟨rfl, ?_⟩⟩⟩
    simpa using hle
  have hc : Pursued spared (fun stage => !stage.isWaiting) m i key s1 := by
    refine hcn.carries (fun s t ht hs => ?_) (fun j s t hj ht hs => ?_)
      (fun j s t hj ht hs => ?_) hn hi hl
    · exact ⟨ht.2 ▸ hs.1.countsDown ht.1, ht.2 ▸ hs.2.countsDown ht.1⟩
    all_goals exact ⟨ht.2 ▸ hs.1.countsDown ht.1, ht.2 ▸ hs.2.countsDown_ne hj.symm ht.1⟩
  have hst : Pursued spared TransferStage.isInFlight m i key s2 := by
    refine hsta.carries (fun s t ht hs => ?_) (fun j s t hj ht hs => ?_)
      (fun j s t hj ht hs => ?_) hn hi hc
    · exact ⟨hs.1.starts ht, hs.2.starts ht⟩
    all_goals exact ⟨hs.1.starts ht, hs.2.starts_ne hs.1 hj.symm ht⟩
  have hp : Pursued spared (fun _ => false) m i key s' := by
    refine hpg.carries (fun s t ht hs => ?_) (fun j s t hj ht hs => ?_)
      (fun j s t hj ht hs => ?_) hn hi hst
    · exact ⟨hs.1.progresses ht, hs.2.progresses ht⟩
    all_goals exact ⟨hs.1.progresses ht, hs.2.progresses_ne hs.1 hj.symm ht⟩
  exact hp.2

/-- The operation is the controller's own, or a call that names no domain of a pending request of
`spared`. -/
def Undisturbed (spared : BankKey NUM_SLOTS → Prop) (s : DeviceController × Fabric) :
    ControllerOp → Prop
  | .fabric op => op.Spares spared s.1.transfers
  | _ => True

theorem undisturbed_none (s : DeviceController × Fabric) (op : ControllerOp) :
    Undisturbed (fun _ => False) s op := by
  cases op <;> simp [Undisturbed, FabricOp.Spares]

/-- The operation is the controller's own, or a call that does not discard the trace under a
transfer in flight. -/
def KeepsTrace (s : DeviceController × Fabric) : ControllerOp → Prop
  | .fabric op => op.KeepsTrace s.1.transfers
  | _ => True

section Calls

variable {d d' : DeviceController} {f f' : Fabric} {op : ControllerOp} {reply : ControllerReply}

theorem Calls.keeps {A : TransferBank → Fabric → Prop} (h : Calls d f op reply d' f')
    (hb : d.transfers.Accounted) (hA : A d.transfers f)
    (hsubs : ∀ {a handle b'}, Submits a d.transfers f handle b' f' → A b' f')
    (hticks : ∀ {s'}, op = .tick → Ticks (d.transfers, f) s' → A s'.1 s'.2)
    (hr : ∀ {i rest c}, d.transfers.order = i :: rest → d.transfers.slots i = .completed c →
      A (d.transfers.release i rest c) f)
    (hf : ∀ {call}, op = .fabric call → f.step call = some f' → A d.transfers f') :
    A d'.transfers f' := by
  cases h with
  | submitted _ _ _ _ _ _ hm => exact hsubs hm
  | ticked _ _ hm => exact hticks rfl hm
  | consumed r d' htake =>
    rcases hb.take_eq_ok htake with ⟨-, -, heq⟩ | ⟨i, rest, c, ho, hc, -, heq⟩
    · rw [heq]
      exact hA
    · rw [heq]
      exact hr ho hc
  | injected _ _ _ hsame | sent _ _ hsame =>
    rw [hsame]
    exact hA
  | other _ _ hstep => exact hf rfl hstep

theorem Calls.custody {t : Prop} (hb : Custody spared t d.transfers f)
    (hs : Undisturbed spared (d, f) op) (hk : t → KeepsTrace (d, f) op)
    (h : Calls d f op reply d' f') : Custody spared t d'.transfers f' := by
  refine h.keeps hb.accounted hb hb.submits (fun _ => hb.ticks) hb.release ?_
  rintro call rfl hstep
  exact hb.call hs hk hstep

theorem Calls.due {m : Nat} {key : BankKey NUM_SLOTS}
    (h : Due (fun _ => false) m i key d.transfers f) (hb : Custody spared True d.transfers f)
    (ho : KeepsTrace (d, f) op) (hop : op ≠ .tick) (hc : Calls d f op reply d' f') :
    Due (fun _ => false) m i key d'.transfers f' := by
  refine hc.keeps hb.accounted h (h.submits hb) (fun ht => absurd ht hop) (fun _ => h.release) ?_
  rintro call rfl hstep
  exact h.call hb ho hstep

end Calls

theorem Due.path {s s' : DeviceController × Fabric} {ops : List ControllerOp}
    (hp : Machine.Path DeviceController.step KeepsTrace s ops s')
    (hb : Custody (fun _ => False) True s.1.transfers s.2)
    (h : Due (fun _ => false) m i key s.1.transfers s.2) (hm : m ≤ ops.countP ControllerOp.isTick) :
    ∃ c, (key, c) ∈ s'.1.transfers.finished := by
  induction hp generalizing m with
  | nil s =>
    rcases h with hf | ⟨t, -, -, hl⟩
    · exact hf
    · have hpo := t.stage.ticksLeft_pos s.2
      simp only [List.countP_nil, Bool.false_eq_true, false_and, or_false] at hm hl
      omega
  | @cons s t s' op ops hok hstep _ ih =>
    obtain ⟨reply, hca⟩ := DeviceController.step_eq_some.mp hstep
    have hc := DeviceController.call_eq_ok hb.reachable.numbered hca
    have hb' := hc.custody hb (undisturbed_none s op) fun _ => hok
    by_cases ho : op = .tick
    · subst ho
      cases hc with
      | ticked _ _ hticks =>
        have hla : Due (fun _ => false) (m - 1 + 1) i key s.1.transfers s.2 :=
          h.imp_right fun ⟨t, hpe, hn, hl⟩ =>
            ⟨t, hpe, hn, .inl (by simp only [Bool.false_eq_true, false_and, or_false] at hl; omega)⟩
        refine ih hb' (hla.ticks hb hticks) ?_
        simp only [List.countP_cons, ControllerOp.isTick, if_true] at hm
        omega
      | submitted _ _ _ _ _ hasks => cases hasks
    · refine ih hb' (hc.due h hb hok ho) ?_
      have hno : ControllerOp.isTick op = false := by cases op <;> simp_all [ControllerOp.isTick]
      simpa [List.countP_cons, hno] using hm

end Anka
