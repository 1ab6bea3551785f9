import Anka.Fabric.Frames
import Anka.Kernel.Controllers

/-!
# Transfers and their domains

What a controller does with the Fabric, without the device behind it: an accepted request holds a
span of one object in a domain of its own, waits, becomes a transaction in that domain and is
answered when the transaction is terminal, and then the domain is destroyed. `Transfer` is a request
as this layer sees it, and `Submits`, `CountsDown`, `Starts` and `Progresses` are what can happen to
one; both controllers are read through `Transfer` and make such moves only.

* `Custody`: whatever else is done to the Fabric, names are given once, each is answered at most
  once and by its own request's completion, completions leave in the order in which they came, no
  domain serves two requests, and it is gone once its request is answered. Of the requests whose
  domain nobody else touches it is exactly the span from the acceptance on, and as long as nobody
  discards the trace the transfers in flight have their transactions. The moves keep it, and so does
  every call that respects the transfers (`Custody.call`).
* `Due`: how many ticks a request needs at most.
-/

namespace Anka

open Rust Res Option SlotBank

/-! ## Transfers -/

/-- The bytes a request moves: a range of one object, and the access the device makes to it. -/
structure DmaSpan where
  object : ObjectId
  offset : Nat
  length : Nat
  kind : AccessKind
  deriving DecidableEq

namespace DmaSpan

/-- The one capability of the span's domain. -/
def capability (s : DmaSpan) (generation : Generation) : Capability64 :=
  { object := s.object, generation, offset := s.offset, length := s.length
    permissions := s.kind.requiredPermission }

/-- The request of the transfer. -/
def request (s : DmaSpan) (agent : AgentId) (domain : DomainId) : MemoryRequest :=
  dmaRequest agent domain s.object s.offset s.length s.kind

/-- The domain holds the span's capability and nothing else. -/
def HeldIn (s : DmaSpan) (f : Fabric) (domain : DomainId) : Prop :=
  ∃ generation, f.domains.get domain = some
    { id := domain, capabilities := [{ cap := s.capability generation, authorityId := none }]
      deviceAuthorities := [] }

end DmaSpan

/-- Where a transfer is. Once in flight, its span is that of the transaction. -/
inductive TransferStage where
  | waiting (span : DmaSpan) (ticks : Nat)
  | ready (span : DmaSpan)
  | inFlight (txIdx : Nat) (kind : AccessKind)

namespace TransferStage

/-- The span of a transfer that has not started, if it has bytes to move. -/
def lease : TransferStage → Option DmaSpan
  | waiting span _ => if span.length = 0 then none else some span
  | ready span => if span.length = 0 then none else some span
  | inFlight .. => none

/-- Its device is still busy. -/
def isWaiting : TransferStage → Bool
  | waiting .. => true
  | _ => false

/-- Its transaction is under way. -/
def isInFlight : TransferStage → Bool
  | inFlight .. => true
  | _ => false

end TransferStage

/-- Who asked, under which delegation, and the domain of the transfer. -/
structure Transfer extends RequestInfo where
  stage : TransferStage

/-- The completion carries the request's handle, its requester and its delegation. -/
def RequestInfo.AnsweredBy (key : BankKey NUM_SLOTS) (r : RequestInfo) (c : DeviceCompletion) :
    Prop :=
  c.handle = .ofKey key ∧ c.requester = r.requester ∧ c.delegationId = r.delegationId

/-- The slots of a device, as transfers. -/
abbrev TransferBank := SlotBank NUM_SLOTS Transfer DeviceCompletion

/-- The log of a bank of transfers is in order. -/
abbrev TransferBank.Accounted (b : TransferBank) : Prop :=
  SlotBank.Recorded Transfer.toRequestInfo RequestInfo.AnsweredBy b

/-! ## Leases -/

namespace Fabric

variable {f f' : Fabric} {parent : Capability64} {perms : Permissions} {kind : AccessKind}
  {domain : DomainId} {offset length : Nat} {target : AuthorityId}

theorem createDomain_eq_ok {ε : Type} (h : (f.createDomain : Res ε _) = ok (domain, f')) :
    domain = ⟨f.nextDomainId⟩ ∧ f' = { f with
      nextDomainId := f.nextDomainId + 1
      domains := f.domains.insert domain
        { id := domain, capabilities := [], deviceAuthorities := [] } } := by
  simp only [createDomain, bind_eq_ok, pure_eq_ok, Prod.mk.injEq] at h
  obtain ⟨next, hn, rfl, rfl⟩ := h
  obtain ⟨-, rfl⟩ := plus_eq_ok.mp hn
  exact ⟨rfl, rfl⟩

theorem deriveIntoFresh_eq_ok (h : f.deriveIntoFresh parent offset length perms = ok (domain, f')) :
    domain = ⟨f.nextDomainId⟩ ∧ f.nextDomainId < f'.nextDomainId ∧
      f'.domains.get domain = some
        { id := domain
          capabilities := [{ cap := childOf parent offset length perms, authorityId := none }]
          deviceAuthorities := [] } := by
  simp only [deriveIntoFresh, eq_ok] at h
  obtain ⟨fr, g, hc, cap, g', hde, rfl, rfl⟩ := h
  obtain ⟨rfl, rfl⟩ := createDomain_eq_ok hc
  simp only [derive, pushCapability, eq_ok] at hde
  obtain ⟨-, _, -, -, -, -, _, ⟨d, hd, rfl⟩, -, rfl⟩ := hde
  rw [Map.get_insert, if_pos rfl, some.injEq] at hd
  subst hd
  exact ⟨rfl, Nat.lt_succ_self _, by simp [Map.get_insert]⟩

theorem Numbered.get_next (hn : Numbered f) : f.domains.get ⟨f.nextDomainId⟩ = none := by
  cases hd : f.domains.get ⟨f.nextDomainId⟩ with
  | none => rfl
  | some d => exact absurd (hn _ d hd) (Nat.lt_irrefl _)

theorem deriveIntoFresh_eq_err (hn : Numbered f)
    (h : f.deriveIntoFresh parent offset length perms = err f') : f'.domains = f.domains := by
  simp only [deriveIntoFresh, bind_eq_err, mapErr_eq_err, pure_eq, Prod.exists, reduceCtorEq,
    and_false, exists_false, or_false] at h
  rcases h with h | ⟨fr, g, hc, _, -, rfl⟩
  · simp [createDomain, plus] at h
  · obtain ⟨rfl, rfl⟩ := createDomain_eq_ok hc
    exact Map.erase_insert hn.get_next _

/-- The call made `domain` for the span. -/
structure Leases (f : Fabric) (span : DmaSpan) (domain : DomainId) (f' : Fabric) : Prop where
  fresh : domain = ⟨f.nextDomainId⟩
  next : f.nextDomainId < f'.nextDomainId
  held : span.HeldIn f' domain
  nonempty : 0 < span.length
  call : ∃ op, f.step op = some f' ∧ ¬ op.ClearsTrace ∧ ∀ id, op.names id = false

/-- A refused submission: no domain is made. -/
structure Refuses (f f' : Fabric) : Prop where
  domains : f'.domains = f.domains
  call : f' = f ∨ ∃ op, f.step op = some f' ∧ ¬ op.ClearsTrace ∧ ∀ id, op.names id = false

/-- The next phase of a transaction; a terminal one stays. -/
def PhaseOf (f : Fabric) (idx : Nat) (f' : Fabric) : Prop :=
  (f.advance idx : Res Fabric _) = ok f'

theorem Refuses.refl (f : Fabric) : f.Refuses f := ⟨rfl, .inl rfl⟩

theorem covers_eq_true {cap : Capability64} {object : ObjectId}
    (h : cap.covers object offset length perms = true) : cap.object = object ∧ 0 < length := by
  simp only [Capability64.covers, Bool.and_eq_true, decide_eq_true_eq] at h
  exact ⟨h.1.1.1.1.1, h.1.1.1.1.2⟩

variable {source domain : DomainId} {object : ObjectId} {offset length : Nat}

theorem deriveIntoFresh_leases {op : FabricOp} (ho : parent.object = object) (hl : 0 < length)
    (h : f.deriveIntoFresh parent offset length kind.requiredPermission = ok (domain, f'))
    (hop : f.step op = some f') (hc : ¬ op.ClearsTrace) (hnames : ∀ id, op.names id = false) :
    f.Leases { object, offset, length, kind } domain f' := by
  obtain ⟨hf, hn, hd⟩ := deriveIntoFresh_eq_ok h
  refine ⟨hf, hn, ⟨parent.generation, ?_⟩, hl, op, hop, hc, hnames⟩
  rw [hd, ← ho]
  rfl

theorem delegateDmaSpan_leases
    (h : f.delegateDmaSpan source object offset length kind.requiredPermission = ok (domain, f')) :
    f.Leases { object, offset, length, kind } domain f' := by
  have hop : f.step (.delegateDmaSpan source object offset length kind.requiredPermission) =
      some f' := step_eq_some.mpr (.inl (left_eq_ok.mpr ⟨domain, h⟩))
  simp only [delegateDmaSpan, eq_ok] at h
  obtain ⟨-, _, -, -, parent, hp, h⟩ := h
  obtain ⟨d, -, hf⟩ := bind_eq_some_iff.mp hp
  obtain ⟨ho, hl⟩ := covers_eq_true (Bool.and_eq_true _ _ ▸ List.find?_some hf).2
  exact deriveIntoFresh_leases ho hl h hop id fun _ => rfl

theorem delegateDmaSpan_refuses (hn : Numbered f)
    (h : f.delegateDmaSpan source object offset length perms = err f') : f.Refuses f' := by
  have ho : f.step (.delegateDmaSpan source object offset length perms) = some f' :=
    step_eq_some.mpr (.inr (left_eq_err.mpr h))
  refine ⟨?_, .inr ⟨_, ho, id, fun _ => rfl⟩⟩
  simp only [delegateDmaSpan, bind_eq_err, require_eq_err, okOr_eq_err] at h
  rcases h with ⟨-, rfl⟩ | ⟨_, -, ⟨-, rfl⟩ | ⟨_, -, ⟨-, rfl⟩ | ⟨_, -, ⟨-, rfl⟩ | ⟨parent, -, h⟩⟩⟩⟩
  all_goals first
    | rfl
    | exact deriveIntoFresh_eq_err hn h

theorem delegateDmaSpanFromAuthorityId_leases
    (h : f.delegateDmaSpanFromAuthorityId source target object offset length
      kind.requiredPermission = ok (domain, f')) :
    f.Leases { object, offset, length, kind } domain f' := by
  have hop : f.step (.delegateDmaSpanFromAuthorityId source target object offset length
      kind.requiredPermission) = some f' := step_eq_some.mpr (.inl (left_eq_ok.mpr ⟨domain, h⟩))
  simp only [delegateDmaSpanFromAuthorityId, eq_ok] at h
  obtain ⟨-, en, -, ho, _, -, -, -, -, hc, h⟩ := h
  exact deriveIntoFresh_leases ho (covers_eq_true hc).2 h hop id fun _ => rfl

theorem delegateDmaSpanFromAuthorityId_refuses (hn : Numbered f)
    (h : f.delegateDmaSpanFromAuthorityId source target object offset length perms = err f') :
    f.Refuses f' := by
  have ho : f.step (.delegateDmaSpanFromAuthorityId source target object offset length perms) =
      some f' := step_eq_some.mpr (.inr (left_eq_err.mpr h))
  refine ⟨?_, .inr ⟨_, ho, id, fun _ => rfl⟩⟩
  simp only [delegateDmaSpanFromAuthorityId, bind_eq_err, require_eq_err, okOr_eq_err] at h
  rcases h with ⟨-, rfl⟩ | ⟨_, -, ⟨-, rfl⟩ | ⟨_, -, ⟨-, rfl⟩ | ⟨_, -, ⟨-, rfl⟩ | ⟨_, -, ⟨-, rfl⟩ |
    ⟨_, -, ⟨-, rfl⟩ | ⟨_, -, ⟨-, rfl⟩ | ⟨_, -, ⟨-, rfl⟩ | ⟨_, -, h⟩⟩⟩⟩⟩⟩⟩⟩
  all_goals first
    | rfl
    | exact deriveIntoFresh_eq_err hn h

end Fabric

/-! ## What a controller does -/

/-- What a submission asks for. -/
structure Asked where
  requester : RequesterKey
  delegationId : Option DelegationId
  span : DmaSpan

/-- The transfer is of this requester and delegation. -/
def Asked.Names (a : Asked) (t : Transfer) : Prop :=
  t.requester = a.requester ∧ t.delegationId = a.delegationId

/-- A submission: its handle, if it is accepted, and what it leaves. -/
inductive Submits (a : Asked) (b : TransferBank) (f : Fabric) :
    Option RequestHandle → TransferBank → Fabric → Prop
  | accepted (i : Fin NUM_SLOTS) (t : Transfer) (f' : Fabric) (hfree : b.slots i = .free)
      (hnames : a.Names t) (hspan : t.stage.lease = some a.span)
      (hticks : ∀ span n, t.stage = .waiting span n → 1 ≤ n)
      (hlease : f.Leases a.span t.dmaDomain f') :
      Submits a b f (some (.ofKey (b.keyAt i))) (b.accept i t) f'
  | answered (i : Fin NUM_SLOTS) (t : Transfer) (c : DeviceCompletion) (hfree : b.slots i = .free)
      (hnames : a.Names t) (hnone : t.stage.lease = none) (hempty : a.span.length = 0)
      (hans : t.toRequestInfo.AnsweredBy (b.keyAt i) c) :
      Submits a b f (some (.ofKey (b.keyAt i))) (b.complete i t c) f
  | refused (f' : Fabric) (hrefuses : f.Refuses f') : Submits a b f none b f'

/-- A waiting transfer of the slot counts down. -/
inductive CountsDown (i : Fin NUM_SLOTS) (b : TransferBank) : TransferBank → Prop
  | counted (t : Transfer) (span : DmaSpan) (n : Nat) (hpend : b.slots i = .pending t)
      (hstg : t.stage = .waiting span (n + 1)) :
      CountsDown i b (b.advance i
        { t with stage := if n = 0 then .ready span else .waiting span n })
  | idle (h : ∀ t, b.slots i = .pending t → t.stage.isWaiting = false) : CountsDown i b b

/-- A ready transfer of the slot becomes a transaction. -/
inductive Starts (i : Fin NUM_SLOTS) (b : TransferBank) (f : Fabric) :
    TransferBank → Fabric → Prop
  | started (t : Transfer) (span : DmaSpan) (agent : AgentId) (data : Option (List UInt8))
      (idx : Nat) (f' : Fabric) (hpend : b.slots i = .pending t) (hstg : t.stage = .ready span)
      (hsub : (f.submit (span.request agent t.dmaDomain) data : Res Fabric _) = ok (idx, f')) :
      Starts i b f (b.advance i { t with stage := .inFlight idx span.kind }) f'
  | idle (h : ∀ t span, b.slots i = .pending t → t.stage ≠ .ready span) : Starts i b f b f

/-- A transfer in flight goes on by a phase, and is answered if its transaction is terminal then. -/
inductive Progresses (i : Fin NUM_SLOTS) (b : TransferBank) (f : Fabric) :
    TransferBank → Fabric → Prop
  | answered (t : Transfer) (idx : Nat) (kind : AccessKind) (f' : Fabric) (tx : Transaction)
      (c : DeviceCompletion) (hpend : b.slots i = .pending t)
      (hstg : t.stage = .inFlight idx kind) (hph : f.PhaseOf idx f')
      (htx : f'.transactions[idx]? = some tx) (hterm : tx.state.isTerminal = true)
      (hans : t.toRequestInfo.AnsweredBy (b.keyAt i) c) :
      Progresses i b f (b.finish i c) (f'.destroyDomain t.dmaDomain)
  | moved (t : Transfer) (idx : Nat) (kind : AccessKind) (f' : Fabric) (tx : Transaction)
      (hpend : b.slots i = .pending t) (hstg : t.stage = .inFlight idx kind)
      (hph : f.PhaseOf idx f') (htx : f'.transactions[idx]? = some tx)
      (hterm : tx.state.isTerminal = false) : Progresses i b f b f'
  | idle (h : ∀ t, b.slots i = .pending t → t.stage.isInFlight = false) : Progresses i b f b f

theorem Fabric.PhaseOf.step {f g : Fabric} {idx : Nat} (h : f.PhaseOf idx g) :
    f.step (.advance idx) = some g := Fabric.step_eq_some.mpr (.inl h)

theorem Fabric.step_submit {f g : Fabric} {r : MemoryRequest} {data : Option (List UInt8)}
    {idx : Nat} (h : (f.submit r data : Res Fabric _) = ok (idx, g)) :
    f.step (.submit r data) = some g :=
  Fabric.step_eq_some.mpr (.inl (Fabric.left_eq_ok.mpr ⟨idx, h⟩))

/-! ## Custody -/

/-- The stage of a transfer that was accepted for `span`. -/
def TransferStage.Serves (f : Fabric) (span : DmaSpan) (domain : DomainId) : TransferStage → Prop
  | waiting s n => s = span ∧ 1 ≤ n
  | ready s => s = span
  | inFlight idx kind => kind = span.kind ∧ ∃ tx agent, f.transactions[idx]? = some tx ∧
      tx.request = span.request agent domain ∧ Fabric.Answered tx

/-- The domains of all transfers that were ever accepted, and what the pending ones are doing. The
requests of `spared` have kept their domains, and the trace has been kept if `traced` says so. -/
structure Custody (spared : BankKey NUM_SLOTS → Prop) (traced : Prop) (b : TransferBank)
    (f : Fabric) : Prop where
  reachable : f.Reachable
  accounted : b.Accounted
  numbered : ∀ key t, (key, t) ∈ b.accepted → t.stage.lease.isSome = true →
    t.dmaDomain.raw < f.nextDomainId
  /-- no domain serves two requests -/
  distinct : ∀ key t key' t', (key, t) ∈ b.accepted → (key', t') ∈ b.accepted →
    t.stage.lease.isSome = true → t'.stage.lease.isSome = true → t.dmaDomain = t'.dmaDomain →
    key = key'
  held : ∀ key t span, spared key → (key, t) ∈ b.accepted → t.stage.lease = some span →
    (∀ c, (key, c) ∉ b.finished) → span.HeldIn f t.dmaDomain
  gone : ∀ key t c, (key, t) ∈ b.accepted → t.stage.lease.isSome = true → (key, c) ∈ b.finished →
    f.domains.get t.dmaDomain = none
  staged : ∀ i t, b.slots i = .pending t → ∃ t0 span, (b.keyAt i, t0) ∈ b.accepted ∧
    t0.stage.lease = some span ∧ t.toRequestInfo = t0.toRequestInfo ∧
    (traced → t.stage.Serves f span t.dmaDomain)

/-- The call names no domain of a pending transfer of `spared`. -/
def FabricOp.Spares (spared : BankKey NUM_SLOTS → Prop) (op : FabricOp) (b : TransferBank) : Prop :=
  ∀ i t, b.slots i = .pending t → spared (b.keyAt i) → op.names t.dmaDomain = false

/-- The call discards the trace only while no transfer is in flight. -/
def FabricOp.KeepsTrace (op : FabricOp) (b : TransferBank) : Prop :=
  op.ClearsTrace → ∀ i t, b.slots i = .pending t → t.stage.isInFlight = false

namespace Custody

variable {spared : BankKey NUM_SLOTS → Prop} {traced : Prop} {a : Asked} {i : Fin NUM_SLOTS}
  {b b' : TransferBank} {f f' : Fabric} {t : Transfer}
  {c : DeviceCompletion}

theorem empty (hf : f.Reachable) : Custody spared traced .empty f where
  reachable := hf
  accounted := empty_recorded
  numbered _ _ h := absurd h List.not_mem_nil
  distinct _ _ _ _ h := absurd h List.not_mem_nil
  held _ _ _ _ h := absurd h List.not_mem_nil
  gone _ _ _ h := absurd h List.not_mem_nil
  staged _ _ h := nomatch h

section

variable (h : Custody spared traced b f)
include h

theorem call {op : FabricOp} (hsp : op.Spares spared b) (hk : traced → op.KeepsTrace b)
    (hst : f.step op = some f') : Custody spared traced b f' := by
  constructor
  case reachable => exact h.reachable.tail hst
  case accounted => exact h.accounted
  case numbered =>
    intro key t ht hspan
    exact Nat.lt_of_lt_of_le (h.numbered key t ht hspan) (Fabric.step_nextDomainId hst)
  case distinct => exact h.distinct
  case held =>
    intro key t span hke ht hspan ho
    obtain ⟨g, hh⟩ := h.held key t span hke ht hspan ho
    refine ⟨g, hh ▸ Fabric.step_domain (h.numbered key t ht (by simp [hspan]))
      (fun hnames => ?_) hst⟩
    rcases h.accounted.kept key t ht with ⟨c, hc⟩ | ⟨t', hpend, hna, hi⟩
    · exact absurd hc (ho c)
    · have hn := hsp _ t' hpend (hna ▸ hke)
      rw [congrArg RequestInfo.dmaDomain hi, hnames] at hn
      cases hn
  case gone =>
    intro key t c ht hspan hc
    have hg := h.gone key t c ht hspan hc
    rw [Fabric.step_domain (h.numbered key t ht hspan) (fun _ => hg) hst, hg]
  case staged =>
    intro j t hpend
    obtain ⟨t0, span, ht0, hspan, hi, hs⟩ := h.staged j t hpend
    refine ⟨t0, span, ht0, hspan, hi, fun htr => ?_⟩
    replace hs := hs htr
    cases hstg : t.stage with
    | waiting | ready => simpa [hstg, TransferStage.Serves] using hs
    | inFlight idx kind =>
      rw [hstg] at hs
      obtain ⟨hki, tx, ag, htx, hr, ha⟩ := hs
      have hcl : ¬ op.ClearsTrace := fun hcl => by
        have hn := hk htr hcl j t hpend
        rw [hstg] at hn
        cases hn
      obtain ⟨tx', htx', hl⟩ := Fabric.step_advances hcl hst idx tx htx
      exact ⟨hki, tx', ag, htx', hl.request.trans hr, hl.answered ha⟩

theorem quiet {op : FabricOp} (hc : ¬ op.ClearsTrace) (hnames : ∀ id, op.names id = false)
    (hs : f.step op = some f') : Custody spared traced b f' :=
  h.call (fun _ _ _ _ => hnames _) (fun _ hcl => absurd hcl hc) hs

/-- A transfer that has just got its domain is accepted. -/
theorem accept {span : DmaSpan} (hfree : b.slots i = .free)
    (hspan : t.stage.lease = some span) (hticks : ∀ span n, t.stage = .waiting span n → 1 ≤ n)
    (hh : span.HeldIn f t.dmaDomain) (hnu : t.dmaDomain.raw < f.nextDomainId)
    (hn : ∀ key t', (key, t') ∈ b.accepted → t'.stage.lease.isSome = true →
      t'.dmaDomain ≠ t.dmaDomain) : Custody spared traced (b.accept i t) f := by
  have hm : ∀ {key : BankKey NUM_SLOTS} {t' : Transfer}, (key, t') ∈ (b.accept i t).accepted →
      (key, t') ∈ b.accepted ∨ key = b.keyAt i ∧ t' = t := by
    intro key t' ht'
    simpa using ht'
  constructor
  case reachable => exact h.reachable
  case accounted => exact h.accounted.accept hfree t
  case numbered =>
    intro key t' ht' hspan'
    rcases hm ht' with ht' | ⟨rfl, rfl⟩
    · exact h.numbered key t' ht' hspan'
    · exact hnu
  case distinct =>
    intro key t1 key' t2 ht1 ht2 hspan1 hspan2 hd
    rcases hm ht1 with hold1 | ⟨rfl, hn1⟩ <;> rcases hm ht2 with hold2 | ⟨rfl, hn2⟩
    · exact h.distinct key t1 key' t2 hold1 hold2 hspan1 hspan2 hd
    · exact absurd (hn2 ▸ hd) (hn key t1 hold1 hspan1)
    · exact absurd (hn1 ▸ hd.symm) (hn key' t2 hold2 hspan2)
    · rfl
  case held =>
    intro key t' span' hk ht' hspan' ho
    rw [accept_finished] at ho
    rcases hm ht' with ht' | ⟨rfl, rfl⟩
    · exact h.held key t' span' hk ht' hspan' ho
    · obtain rfl := mem_unique hspan hspan'
      exact hh
  case gone =>
    intro key t' c ht' hspan' hc
    rw [accept_finished] at hc
    rcases hm ht' with ht' | ⟨rfl, rfl⟩
    · exact h.gone key t' c ht' hspan' hc
    · obtain ⟨t0, ht0, -⟩ := h.accounted.answers _ c hc
      exact absurd ht0 (h.accounted.free i hfree t0)
  case staged =>
    intro j t' hj
    simp only [SlotBank.accept, SlotBank.update_slots_apply] at hj
    split at hj
    · rename_i hji
      subst hji
      cases hj
      refine ⟨t, span, ?_, hspan, rfl, fun _ => ?_⟩
      · rw [accept_accepted]
        exact List.mem_append_right _ List.mem_cons_self
      cases hstg : t.stage <;> simp [hstg, TransferStage.lease] at hspan
      · exact ⟨hspan.2, hticks _ _ hstg⟩
      · exact hspan.2
    · obtain ⟨t0, span0, ht0, hr⟩ := h.staged j t' hj
      exact ⟨t0, span0, by simpa using .inl ht0, hr⟩

theorem restage {stage : TransferStage} (hpend : b.slots i = .pending t)
    (hs : ∀ span, t.stage.Serves f span t.dmaDomain → stage.Serves f span t.dmaDomain) :
    Custody spared traced (b.advance i { t with stage }) f := by
  refine { h with accounted := h.accounted.advance hpend rfl, staged := ?_ }
  intro j t' hj
  simp only [advance, update_slots_apply] at hj
  split at hj
  · rename_i hji
    subst hji
    cases hj
    obtain ⟨t0, span, ht0, hspan, hi, hs0⟩ := h.staged j t hpend
    exact ⟨t0, span, ht0, hspan, hi, fun htr => hs span (hs0 htr)⟩
  · exact h.staged j t' hj

/-- A pending transfer is answered and its domain destroyed. -/
theorem finish (hpend : b.slots i = .pending t) (hans : t.toRequestInfo.AnsweredBy (b.keyAt i) c) :
    Custody spared traced (b.finish i c) (f.destroyDomain t.dmaDomain) := by
  have hg : ∀ id, (f.destroyDomain t.dmaDomain).domains.get id =
      if id = t.dmaDomain then none else f.domains.get id := fun id => by
    rw [Fabric.destroyDomain, Map.get_erase]
  obtain ⟨t0, span0, ht0, hspan0, hi, -⟩ := h.staged i t hpend
  constructor
  case reachable => exact h.reachable.tail (i := .destroyDomain t.dmaDomain) rfl
  case accounted => exact h.accounted.finish hpend hans
  case numbered =>
    rw [finish_accepted]
    exact h.numbered
  case distinct =>
    rw [finish_accepted]
    exact h.distinct
  case held =>
    intro key t' span hs ht' hspan ho
    rw [finish_accepted] at ht'
    simp only [finish_finished, List.mem_append, List.mem_singleton, Prod.mk.injEq,
      not_or, not_and] at ho
    obtain ⟨g, hh⟩ := h.held key t' span hs ht' hspan fun c hc => (ho c).1 hc
    refine ⟨g, ?_⟩
    rw [hg, if_neg, hh]
    intro hd
    rw [congrArg RequestInfo.dmaDomain hi] at hd
    have hk := h.distinct key t' _ t0 ht' ht0 (by simp [hspan]) (by simp [hspan0]) hd
    exact (ho c).2 hk rfl
  case gone =>
    intro key t' c' ht' hspan hc'
    rw [finish_accepted] at ht'
    rw [finish_finished, List.mem_append, List.mem_singleton, Prod.mk.injEq] at hc'
    rw [hg]
    split
    · rfl
    · rename_i hn
      rcases hc' with hc' | ⟨rfl, -⟩
      · exact h.gone key t' c' ht' hspan hc'
      · have hsa : t' = t0 := h.accounted.request_eq ht' ht0
        exact absurd (hsa ▸ (congrArg RequestInfo.dmaDomain hi).symm) hn
  case staged =>
    intro j t' hj
    simp only [SlotBank.finish, SlotBank.update_slots_apply] at hj
    split at hj
    · cases hj
    · rw [finish_accepted]
      exact h.staged j t' hj

/-- A request without bytes is answered as it is accepted, and has no domain. -/
theorem answer (hfree : b.slots i = .free) (hempty : t.stage.lease = none)
    (hans : t.toRequestInfo.AnsweredBy (b.keyAt i) c) :
    Custody spared traced (b.complete i t c) f := by
  have ha : (b.complete i t c).accepted = b.accepted ++ [(b.keyAt i, t)] := by
    rw [complete, finish_accepted, accept_accepted]
  have hf : (b.complete i t c).finished = b.finished ++ [(b.keyAt i, c)] := by
    rw [complete, finish_finished, accept_finished]
    rfl
  -- only the requests that were there have a span
  have hm : ∀ {key : BankKey NUM_SLOTS} {t' : Transfer}, (key, t') ∈ (b.complete i t c).accepted →
      t'.stage.lease.isSome = true → (key, t') ∈ b.accepted := by
    intro key t' ht' hspan
    rw [ha, List.mem_append, List.mem_singleton, Prod.mk.injEq] at ht'
    rcases ht' with ht' | ⟨-, rfl⟩
    · exact ht'
    · rw [hempty] at hspan
      cases hspan
  constructor
  case reachable => exact h.reachable
  case accounted =>
    exact (h.accounted.accept hfree t).finish (by simp [SlotBank.accept]) hans
  case numbered => exact fun key t' ht' hspan => h.numbered key t' (hm ht' hspan) hspan
  case distinct =>
    intro key t1 key' t2 ht1 ht2 hspan1 hspan2
    exact h.distinct key t1 key' t2 (hm ht1 hspan1) (hm ht2 hspan2) hspan1 hspan2
  case held =>
    intro key t' span hk ht' hspan ho
    refine h.held key t' span hk (hm ht' (by simp [hspan])) hspan fun c' hc' => ho c' ?_
    rw [hf]
    exact List.mem_append_left _ hc'
  case gone =>
    intro key t' c' ht' hspan hc'
    have hold := hm ht' hspan
    rw [hf, List.mem_append, List.mem_singleton, Prod.mk.injEq] at hc'
    rcases hc' with hc' | ⟨rfl, -⟩
    · exact h.gone key t' c' hold hspan hc'
    · exact absurd hold (h.accounted.free i hfree t')
  case staged =>
    intro j t' hj
    have hn : j ≠ i := by
      rintro rfl
      simp [SlotBank.complete, SlotBank.finish] at hj
    have hold : b.slots j = .pending t' := by
      simpa [SlotBank.complete, SlotBank.finish, SlotBank.accept, hn] using hj
    obtain ⟨t0, span0, ht0, hr⟩ := h.staged j t' hold
    rw [ha]
    exact ⟨t0, span0, List.mem_append_left _ ht0, hr⟩

theorem release {rest : List (Fin NUM_SLOTS)} (ho : b.order = i :: rest)
    (hc : b.slots i = .completed c) : Custody spared traced (b.release i rest c) f := by
  refine ⟨h.reachable, h.accounted.release ho hc, ?_, ?_, ?_, ?_, ?_⟩
  · rw [release_accepted]
    exact h.numbered
  · rw [release_accepted]
    exact h.distinct
  · rw [release_accepted, release_finished]
    exact h.held
  · rw [release_accepted, release_finished]
    exact h.gone
  · intro j t hj
    simp only [SlotBank.release, SlotBank.update_slots_apply] at hj
    split at hj
    · cases hj
    · rename_i hn
      have hk : (b.release i rest c).keyAt j = b.keyAt j := by
        simp [SlotBank.release, SlotBank.keyAt, hn]
      rw [SlotBank.release_accepted, hk]
      exact h.staged j t hj

theorem submits {handle : Option RequestHandle} (hs : Submits a b f handle b' f') :
    Custody spared traced b' f' := by
  cases hs with
  | accepted i t f' hfree hnames hspan hticks hlease =>
    obtain ⟨op, ho, hc, hnone⟩ := hlease.call
    refine (h.quiet hc hnone ho).accept hfree hspan hticks hlease.held
      (by rw [hlease.fresh]; exact hlease.next) fun key t' ht' hspan' hd => ?_
    have hl := h.numbered key t' ht' hspan'
    rw [hd, hlease.fresh] at hl
    exact Nat.lt_irrefl _ hl
  | answered i t c hfree _ hnone _ hans => exact h.answer hfree hnone hans
  | refused f' hrefuses =>
    rcases hrefuses.call with rfl | ⟨op, ho, hc, hnone⟩
    · exact h
    · exact h.quiet hc hnone ho

theorem countsDown (hc : CountsDown i b b') : Custody spared traced b' f := by
  cases hc with
  | counted t span n hpend hstg =>
    refine h.restage hpend fun span' hs => ?_
    rw [hstg] at hs
    split
    · exact hs.1
    · exact ⟨hs.1, by omega⟩
  | idle => exact h

theorem starts (hsta : Starts i b f b' f') : Custody spared traced b' f' := by
  cases hsta with
  | started t span ag data idx f' hpend hstg hsub =>
    refine (h.quiet id (fun _ => rfl) (Fabric.step_submit hsub)).restage hpend fun span' hs => ?_
    rw [hstg] at hs
    obtain ⟨rfl, tx, hr, hst⟩ := Fabric.submit_eq_ok hsub
    refine ⟨by rw [← hs], tx, ag, hr.getElem, by rw [hr.request_eq, ← hs], ?_⟩
    rcases hst with hst | hst <;> simp [Fabric.Answered, hst]
  | idle => exact h

theorem progresses (hp : Progresses i b f b' f') : Custody spared traced b' f' := by
  have hph : ∀ {idx g}, f.PhaseOf idx g → Custody spared traced b g := fun hph =>
    h.quiet id (fun _ => rfl) hph.step
  cases hp with
  | answered t idx kind f' tx c hpend _ ha _ _ hans =>
    exact (hph ha).finish hpend hans
  | moved t idx kind f' tx _ _ ha => exact hph ha
  | idle => exact h

end

end Custody

/-! ## Ticks -/

/-- The phases the transaction of a row has left. -/
def Fabric.phasesAt (f : Fabric) (idx : Nat) : Nat :=
  (f.transactions[idx]?).elim 0 fun tx => Fabric.phasesLeft tx.state

/-- The ticks after which a transfer is answered at the latest. -/
def TransferStage.ticksLeft (f : Fabric) : TransferStage → Nat
  | waiting _ n => n + 2
  | ready _ => 3
  | inFlight idx _ => max 1 (f.phasesAt idx)

theorem TransferStage.ticksLeft_pos (f : Fabric) (s : TransferStage) : 0 < s.ticksLeft f := by
  cases s <;> simp only [ticksLeft] <;> omega

/-- The request `key` of slot `i` is answered, or needs `m` ticks at most; one tick more in the
stages of `late`. -/
def Due (late : TransferStage → Bool) (m : Nat) (i : Fin NUM_SLOTS) (key : BankKey NUM_SLOTS)
    (b : TransferBank) (f : Fabric) : Prop :=
  (∃ c, (key, c) ∈ b.finished) ∨ ∃ t, b.slots i = .pending t ∧ b.keyAt i = key ∧
    (t.stage.ticksLeft f ≤ m ∨ late t.stage = true ∧ t.stage.ticksLeft f ≤ m + 1)

namespace Due

variable {spared : BankKey NUM_SLOTS → Prop} {late : TransferStage → Bool} {m : Nat}
  {i j : Fin NUM_SLOTS} {key : BankKey NUM_SLOTS} {b b' : TransferBank} {f f' : Fabric}

theorem frame (h : Due late m i key b f) (hs : b'.slots i = b.slots i)
    (hk : b'.keyAt i = b.keyAt i) (hf : ∀ e ∈ b.finished, e ∈ b'.finished)
    (hticks : ∀ t, b.slots i = .pending t → t.stage.ticksLeft f' ≤ t.stage.ticksLeft f) :
    Due late m i key b' f' := by
  rcases h with ⟨c, hc⟩ | ⟨t, hpend, hn, hl⟩
  · exact .inl ⟨c, hf _ hc⟩
  · have hm := hticks t hpend
    exact .inr ⟨t, hs.trans hpend, hk.trans hn,
      hl.imp (Nat.le_trans hm) (And.imp_right (Nat.le_trans hm))⟩

theorem ticksLeft_le (h : Custody spared True b f) (ha : Fabric.TraceAdvances f f') {t : Transfer}
    (hpend : b.slots i = .pending t) : t.stage.ticksLeft f' ≤ t.stage.ticksLeft f := by
  obtain ⟨-, span, -, -, -, hs⟩ := h.staged i t hpend
  cases hstg : t.stage with
  | waiting | ready => exact Nat.le_refl _
  | inFlight idx kind =>
    rw [hstg] at hs
    obtain ⟨-, tx, -, htx, -, -⟩ := hs trivial
    obtain ⟨tx', htx', hl⟩ := ha idx tx htx
    have hle := hl.phases
    simp only [TransferStage.ticksLeft, Fabric.phasesAt, htx, htx', elim_some]
    omega

section

variable (h : Due late m i key b f)
include h

theorem call {op : FabricOp} (hb : Custody spared True b f)
    (hk : op.KeepsTrace b) (hst : f.step op = some f') : Due late m i key b f' := by
  refine h.frame rfl rfl (fun _ he => he) fun t hpend => ?_
  by_cases hc : op.ClearsTrace
  · have hs := hk hc i t hpend
    cases hstg : t.stage with
    | waiting | ready => exact Nat.le_refl _
    | inFlight idx kind => simp [hstg, TransferStage.isInFlight] at hs
  · exact ticksLeft_le hb (Fabric.step_advances hc hst) hpend

theorem release {rest : List (Fin NUM_SLOTS)} {c : DeviceCompletion}
    (hcm : b.slots j = .completed c) : Due late m i key (b.release j rest c) f := by
  rcases h with ⟨c, hc⟩ | ⟨t, hpend, hn, hl⟩
  · exact .inl ⟨c, by simpa using hc⟩
  · have hne : i ≠ j := fun hi => by rw [hi, hcm] at hpend; cases hpend
    refine .inr ⟨t, by simpa [SlotBank.release, hne] using hpend, ?_, hl⟩
    rw [← hn]
    simp [SlotBank.release, SlotBank.keyAt, hne]

theorem submits {a : Asked} {handle : Option RequestHandle}
    (hb : Custody spared True b f) (hsu : Submits a b f handle b' f') : Due late m i key b' f' := by
  -- a slot that is taken now was free, and the slot of the request is not
  have ho : ∀ {j : Fin NUM_SLOTS} {s : Fin NUM_SLOTS → BankSlot Transfer DeviceCompletion},
      b.slots j = .free → (∀ k, k ≠ j → s k = b.slots k) → ∀ t, b.slots i = .pending t →
      s i = .pending t := by
    intro j s hfree hs t hpend
    have hn : i ≠ j := fun hi => by rw [hi, hfree] at hpend; cases hpend
    rw [hs i hn, hpend]
  cases hsu with
  | accepted j t f' hfree hnames hspan hticks hlease =>
    obtain ⟨op, hop, hcl, hnone⟩ := hlease.call
    have hke : op.KeepsTrace b := fun hcle => absurd hcle hcl
    rcases h.call hb hke hop with ⟨c, hc⟩ | ⟨t', hpend, hr⟩
    · exact .inl ⟨c, by simpa using hc⟩
    · exact .inr ⟨t', ho hfree (fun k hk => by simp [accept, hk]) t' hpend, hr⟩
  | answered j t c hfree =>
    rcases h with ⟨c', hc'⟩ | ⟨t', hpend, hr⟩
    · exact .inl ⟨c', by simp [complete, hc']⟩
    · refine .inr ⟨t', ho hfree (fun k hk => ?_) t' hpend, hr⟩
      simp [complete, finish, accept, hk]
  | refused f' hrefuses =>
    rcases hrefuses.call with rfl | ⟨op, hop, hcl, hnone⟩
    · exact h
    · exact h.call hb (fun hcle => absurd hcle hcl) hop

theorem countsDown_ne (hn : i ≠ j) (hc : CountsDown j b b') : Due late m i key b' f := by
  cases hc with
  | counted => exact h.frame (by simp [advance, hn]) rfl (fun _ he => he) fun _ _ => le_rfl
  | idle => exact h

end

theorem countsDown (h : Due (fun _ => true) m i key b f) (hc : CountsDown i b b') :
    Due (fun stage => !stage.isWaiting) m i key b' f := by
  cases hc with
  | counted t span n hpend hstg =>
    rcases h with hf | ⟨t', hpend', hn, hl⟩
    · exact .inl hf
    · obtain rfl := BankSlot.pending.inj (hpend.symm.trans hpend')
      refine .inr ⟨_, Function.update_self .., hn, ?_⟩
      simp only [hstg, TransferStage.ticksLeft] at hl
      split
      · exact .inr ⟨rfl, by simp only [TransferStage.ticksLeft]; omega⟩
      · exact .inl (by simp only [TransferStage.ticksLeft]; omega)
  | idle hi =>
    rcases h with hf | ⟨t, hpend, hn, hl⟩
    · exact .inl hf
    · refine .inr ⟨t, hpend, hn, hl.imp_right fun hla => ⟨?_, hla.2⟩⟩
      show (!t.stage.isWaiting) = true
      rw [hi t hpend, Bool.not_false]

theorem starts_ne (h : Due late m i key b f) (hb : Custody spared True b f) (hn : i ≠ j)
    (hs : Starts j b f b' f') : Due late m i key b' f' := by
  cases hs with
  | started t span ag data idx f' hpend hstg hsub =>
    exact h.frame (by simp [advance, hn]) rfl (fun _ he => he)
      fun t hpend => ticksLeft_le hb (Fabric.submit_advances hsub) hpend
  | idle => exact h

theorem starts (h : Due (fun stage => !stage.isWaiting) m i key b f)
    (hs : Starts i b f b' f') : Due TransferStage.isInFlight m i key b' f' := by
  cases hs with
  | started t span ag data idx f' hpend hstg hsub =>
    rcases h with hf | ⟨t', hpend', hn, hle⟩
    · exact .inl hf
    · obtain rfl := BankSlot.pending.inj (hpend.symm.trans hpend')
      refine .inr ⟨_, Function.update_self .., hn, .inr ⟨rfl, ?_⟩⟩
      obtain ⟨rfl, tx, hr, -⟩ := Fabric.submit_eq_ok hsub
      have hp : Fabric.phasesLeft tx.state ≤ 3 := by cases tx.state <;> simp [Fabric.phasesLeft]
      simp only [hstg, TransferStage.ticksLeft] at hle
      simp only [TransferStage.ticksLeft, Fabric.phasesAt, hr.getElem, elim_some]
      omega
  | idle hi =>
    rcases h with hf | ⟨t, hpend, hn, hle⟩
    · exact .inl hf
    · refine .inr ⟨t, hpend, hn, hle.imp_right fun hl => ⟨?_, hl.2⟩⟩
      cases hstg : t.stage with
      | waiting => simp [hstg, TransferStage.isWaiting] at hl
      | ready span => exact absurd hstg (hi t span hpend)
      | inFlight => rfl

theorem progresses_ne (h : Due late m i key b f) (hb : Custody spared True b f) (hn : i ≠ j)
    (hp : Progresses j b f b' f') : Due late m i key b' f' := by
  cases hp with
  | answered t idx kind f' tx c hpend hstg hph =>
    refine h.frame (by simp [finish, hn]) rfl (fun _ he => by simp [he]) fun t hpend => ?_
    have hl := ticksLeft_le hb (Fabric.advance_advances hph) hpend
    exact hl
  | moved t idx kind f' tx hpend hstg hph =>
    exact h.frame rfl rfl (fun _ he => he)
      fun t hpend => ticksLeft_le hb (Fabric.advance_advances hph) hpend
  | idle => exact h

theorem progresses (h : Due TransferStage.isInFlight m i key b f)
    (hp : Progresses i b f b' f') : Due (fun _ => false) m i key b' f' := by
  rcases h with ⟨c, hc⟩ | ⟨t, hpend, hn, hle⟩
  · refine .inl ⟨c, ?_⟩
    cases hp <;> simp [hc]
  · cases hp with
    | answered _ idx kind f' tx c =>
      refine .inl ⟨c, ?_⟩
      rw [finish_finished, ← hn]
      exact List.mem_append_right _ List.mem_cons_self
    | moved t' idx kind f' tx hpend' hstg hph htx hterm =>
      obtain rfl := BankSlot.pending.inj (hpend'.symm.trans hpend)
      refine .inr ⟨t', hpend', hn, .inl ?_⟩
      obtain ⟨tx0, htx0, hph⟩ := Fabric.advance_eq_ok hph
      obtain ⟨tx1, htx1, hls, -⟩ := hph.advances htx0
      obtain rfl := mem_unique htx htx1
      have hlf : Fabric.phasesLeft tx.state ≠ 0 := fun hz => by
        rw [Fabric.phasesLeft_eq_zero, hterm] at hz
        cases hz
      simp only [hstg, TransferStage.ticksLeft, Fabric.phasesAt, htx0, elim_some] at hle
      simp only [hstg, TransferStage.ticksLeft, Fabric.phasesAt, htx, elim_some]
      omega
    | idle hi =>
      refine .inr ⟨t, hpend, hn, .inl (hle.elim id fun hl => ?_)⟩
      rw [hi t hpend] at hl
      cases hl.1

end Due

end Anka
