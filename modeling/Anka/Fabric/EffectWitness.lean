import Anka.Fabric.CommitPlace

/-!
# Every memory effect has a witness of authority

Three calls change memory through a request: `execute_write`, `execute_atomic_xchg` and the
`advance` that commits. All pass one gate, which asks for the permission of the request's kind
(`required_permission`). A commit then does what the kind says, so what it did is what it was
authorized for. The other two write by their own name: `execute_write` also runs a request of kind
Atomic, and `execute_atomic_xchg` a request of any kind.

So `execute_write` needs no WRITE for a request of kind Atomic, and `execute_atomic_xchg` no ATOMIC
for a request of another kind (`effect_without_witness`); both have a witness exactly when no such
request goes through without it. `WouldWrite` is that in terms of the Fabric before the call.
Whatever the kinds, a call that returns a fault has changed the logs only.
-/

namespace Anka.Fabric

open Rust Res List Option

variable {f f' : Fabric} {request : MemoryRequest} {data : List UInt8}

/-- The requesting domain holds a capability that validates, covers the whole span and has the
permission. -/
def Holds (f : Fabric) (request : MemoryRequest) (permission : Permissions) : Prop :=
  ∃ d e, f.domains.get request.context.domain = some d ∧ e ∈ d.capabilities ∧
    f.validate e.cap = true ∧
    e.cap.covers request.object request.offset request.length permission = true

/-- Every check of the phases passes and the payload differs from the bytes that are there. -/
structure WouldWrite (f : Fabric) (request : MemoryRequest) (data : List UInt8) : Prop where
  counter : f.nextTxId + 1 ≤ u64Max
  representable : invalidSpan request = false
  authorized : ∃ g, f.authorize request = ok g
  length : data.length = request.length
  changes : ∃ physical, f.translate request.object request.offset = some physical ∧
    physical + request.length ≤ u64Max ∧ physical + request.length ≤ f.memory.length ∧
    f.heapPoolOverlaps physical request.length = false ∧
    slice f.memory physical request.length ≠ data

theorem holds_of_authorize {g : Generation} (h : f.authorize request = ok g) :
    Holds f request request.kind.requiredPermission := by
  obtain ⟨cap, ⟨d, e, hd, he, rfl, hc, hv⟩, -⟩ := authorize_eq_ok h
  exact ⟨d, e, hd, he, hv, hc⟩

/-! ## The calls go through when every check passes -/

variable {ε : Type}

theorem submit_of_representable (pl : Option (List UInt8)) (hc : f.nextTxId + 1 ≤ u64Max)
    (hs : invalidSpan request = false) :
    ∃ g, (f.submit request pl : Res ε _) = ok (f.transactions.length, g) ∧
      Row f request pl g (f.requested request pl) := by
  refine ⟨{ f with
    nextTxId := f.nextTxId + 1, transactions := f.transactions ++ [f.requested request pl] },
    ?_, ?_⟩
  · simp [submit, plus_eq_ok.mpr ⟨hc, rfl⟩, hs]
  · refine ⟨rfl, rfl, rfl, rfl, ?_, ?_⟩ <;> simp [requested]

section Row

variable {pl : Option (List UInt8)} {g : Fabric} {tx : Transaction}

theorem Row.advance_requested {gen : Generation} (h : Row f request pl g tx)
    (hs : tx.state = .requested) (ha : f.authorize request = ok gen) :
    ∃ g' tx', (g.advance f.transactions.length : Res ε Fabric) = ok g' ∧
      Row f request pl g' tx' ∧ tx'.state = .authorized := by
  have hg : g.authorize tx.request = ok gen := by rw [h.authorize_eq, h.request_eq, ha]
  refine ⟨g.setTransaction _ { tx with authGeneration := some gen, state := .authorized }, _, ?_,
    h.update rfl rfl (fun _ => ⟨gen, ha⟩) (by simp), rfl⟩
  simp [Fabric.advance, transactionAt, unwrap, h.getElem, hs, phaseAuthorize, hg]

theorem Row.advance_authorized {physical : Nat} (h : Row f request pl g tx)
    (hs : tx.state = .authorized) (ht : f.translate request.object request.offset = some physical) :
    ∃ g' tx', (g.advance f.transactions.length : Res ε Fabric) = ok g' ∧
      Row f request pl g' tx' ∧ tx'.state = .prepared := by
  have hp : g.translate tx.request.object tx.request.offset = some physical := by
    rw [h.translate_eq, h.request_eq, ht]
  refine ⟨g.setTransaction _ { tx with physicalAddress := some physical, state := .prepared }, _,
    ?_,
    h.update rfl rfl (fun _ => h.authorized (.inl hs)) (fun _ => ⟨physical, ht, rfl⟩), rfl⟩
  simp [Fabric.advance, transactionAt, unwrap, h.getElem, hs, phaseTranslate, hp]

end Row

section

variable (h : WouldWrite f request data)
include h

theorem WouldWrite.prepares : ∃ f1 f2 f3 tx base,
      (f.submit request (some data) : Res ε _) = ok (f.transactions.length, f1) ∧
      (f1.advance f.transactions.length : Res ε _) = ok f2 ∧
      (f2.advance f.transactions.length : Res ε _) = ok f3 ∧
      Row f request (some data) f3 tx ∧ tx.state = .prepared ∧
      f3.precommit tx = ok (base, base + request.length) ∧
      base + request.length ≤ u64Max := by
  obtain ⟨gen, ha⟩ := h.authorized
  obtain ⟨physical, ht, hm, hf, hp, -⟩ := h.changes
  obtain ⟨f1, h1, hr1⟩ := submit_of_representable (some data) h.counter h.representable
  obtain ⟨f2, tx2, h2, hr2, hs2⟩ := hr1.advance_requested rfl ha
  obtain ⟨f3, tx, h3, hr, hs⟩ := hr2.advance_authorized hs2 ht
  obtain ⟨_, ht', had⟩ := hr.prepared hs
  obtain rfl := mem_unique ht ht'
  have hp' : f3.heapPoolOverlaps physical request.length = false := by
    rw [hr.logged]
    exact hp
  have hf' : physical + request.length ≤ f3.memory.length := by
    rw [hr.logged]
    exact hf
  refine ⟨f1, f2, f3, tx, physical, h1, h2, h3, hr, hs, ?_, hm⟩
  simp only [precommit, hr.request_eq, bind_eq_ok, okOr_eq_ok, require_eq_ok, checkedAdd_eq_some,
    pure_eq]
  refine ⟨gen, (hr.authorize_eq _).trans ha, physical, had, _, ⟨hm, rfl⟩, (), hf', (),
    hp', (), fun _ => ?_, rfl⟩
  simp [hr.payload, h.length]

theorem WouldWrite.executeWrite (hk : request.kind.mutates = true) :
    ∃ f', f.executeWrite request data = ok f' := by
  obtain ⟨f1, f2, f3, tx, base, h1, h2, h3, hr, hs, hga, hm⟩ :=
    h.prepares (ε := FaultRecord × Fabric)
  obtain ⟨g, hg⟩ := writeSpan_of_payload (ε := FaultRecord × Fabric)
    (f := f3) hm hr.payload h.length
  have hl : g.transactions = f3.transactions := by
    obtain ⟨_, -, -, hw⟩ := writeSpan_eq_ok hg
    rw [hw.eq]
  have h4 : (f3.advance f.transactions.length : Res (FaultRecord × Fabric) Fabric) =
      ok (g.setTransaction f.transactions.length { tx with state := .committed }) := by
    simp [advance, transactionAt, hr.getElem, unwrap, hs, phaseCommit, validatePrecommit,
      hga, commitEffect, hr.request_eq, hk, hg]
  have hc : (g.setTransaction f.transactions.length
      { tx with state := .committed }).transactions[f.transactions.length]? =
        some { tx with state := .committed } := by
    rw [setTransaction, hl, hr.set_log, getElem?_concat_length]
  refine ⟨g.setTransaction f.transactions.length { tx with state := .committed }, ?_⟩
  simp [Fabric.executeWrite, runToCommit, h1, h2, h3, h4, settle, transactionAt, hc, unwrap]

theorem WouldWrite.executeAtomicXchg :
    ∃ old f', f.executeAtomicXchg request data = ok (old, f') := by
  obtain ⟨f1, f2, f3, tx, base, h1, h2, h3, hr, hs, hga, hm⟩ :=
    h.prepares (ε := FaultRecord × Fabric)
  obtain ⟨g, hg⟩ := writeSpan_of_payload (ε := FaultRecord × Fabric)
    (f := f3) hm hr.payload h.length
  refine ⟨slice f3.memory base request.length,
    g.setTransaction f.transactions.length { tx with state := .committed }, ?_⟩
  simp [Fabric.executeAtomicXchg, h1, h2, h3, transactionAt, hr.getElem, unwrap, returnFault,
    hs, precommitOrReturn, validatePrecommit, hga, hg]

theorem WouldWrite.effective (hef : Effective f request data f') : f'.memory ≠ f.memory := by
  obtain ⟨p, ht, -, hf, -, hd⟩ := h.changes
  obtain ⟨p', ht', hl, -, -, hm, -⟩ := hef.effect
  obtain rfl := mem_unique ht ht'
  intro hs
  apply hd
  rw [← hl, ← hs, hm]
  exact slice_overwrite (by omega)

end

/-! ## Only then -/

variable {tx : Transaction} {idx : Nat} {f1 f2 f3 : Fabric}

theorem representable_of_prepared {pl : Option (List UInt8)}
    (h1 : (f.submit request pl : Res ε _) = ok (idx, f1))
    (h2 : (f1.advance idx : Res ε _) = ok f2) (h3 : (f2.advance idx : Res ε _) = ok f3)
    (hr : Row f request pl f3 tx) (hst : tx.state = .prepared) :
    f.nextTxId + 1 ≤ u64Max ∧ invalidSpan request = false := by
  have hsu := h1
  simp only [submit, eq_ok] at hsu
  obtain ⟨_, ⟨hc, rfl⟩, g, hf, rfl, rfl⟩ := hsu
  refine ⟨hc, ?_⟩
  by_contra hi
  rw [Bool.not_eq_false] at hi
  rw [if_pos hi, faultTransaction_eq .invalidSpan getElem?_concat_length] at hf
  obtain rfl := ok.inj hf
  -- a faulted row stays as it is
  have hs : ∀ {g g' : Fabric} {row : Transaction},
      g.transactions[f.transactions.length]? = some row → row.state = .faulted →
      (g.advance f.transactions.length : Res ε Fabric) = ok g' → g' = g := by
    intro g g' row hg hfl ha
    simp only [advance, transactionAt, hg, unwrap, ok_bind, hfl, ok.injEq] at ha
    exact ha.symm
  have hr1 : (faultedWith { f with
      nextTxId := f.nextTxId + 1
      transactions := f.transactions ++ [f.requested request pl] } f.transactions.length
      (f.requested request pl) .invalidSpan).transactions[f.transactions.length]? = some
      { f.requested request pl with
        state := .faulted
        fault := some (faultRecord (f.requested request pl) .invalidSpan) } := by
    simp [faultedWith]
  obtain rfl := hs hr1 rfl h2
  obtain rfl := hs hr1 rfl h3
  obtain rfl := mem_unique hr1 hr.getElem
  cases hst

theorem wouldWrite_of_admitted {base stop : Nat}
    (h1 : (f.submit request (some data) : Res ε _) = ok (idx, f1))
    (h2 : (f1.advance idx : Res ε _) = ok f2) (h3 : (f2.advance idx : Res ε _) = ok f3)
    (hr : Row f request (some data) f3 tx) (hst : tx.state = .prepared)
    (hg : Admitted f3 tx base stop) (hef : Effective f request data f')
    (hch : f'.memory ≠ f.memory) : WouldWrite f request data := by
  obtain ⟨hc, hs⟩ := representable_of_prepared h1 h2 h3 hr hst
  obtain ⟨physical, ht, hl, hf, -, hme, -⟩ := hef.effect
  obtain ⟨_, ht', ha⟩ := hr.prepared hst
  obtain rfl := mem_unique ht ht'
  obtain rfl := mem_unique ha hg.address
  have hm := hg.stop_le
  rw [hg.stop_eq, hr.request_eq] at hm
  have hp := hg.outside
  rw [hr.request_eq, hr.logged] at hp
  refine ⟨hc, hs, hef.authorized, hl, physical, ht, hm, hf, hp, ?_⟩
  -- the same bytes again would not have changed memory
  intro hsa
  apply hch
  rw [hme, ← hsa]
  exact overwrite_slice hf

theorem executeWrite_wouldWrite (h : f.executeWrite request data = ok f')
    (hc : f'.memory ≠ f.memory) : request.kind.mutates = true ∧ WouldWrite f request data := by
  have hk : request.kind.mutates = true ∧ Effective f request data f' := by
    rcases executeWrite_eq_ok h with ⟨-, hl⟩ | hef
    · rw [hl] at hc
      exact absurd rfl hc
    · exact hef
  refine ⟨hk.1, ?_⟩
  simp only [Fabric.executeWrite, runToCommit, eq_ok] at h
  obtain ⟨_, _, ⟨_, f1, h1, f2, h2, f3, h3, f4, h4, rfl, rfl⟩, tx', hstl, rfl⟩ := h
  obtain ⟨rfl, tx, hr, hs⟩ := prepare_eq_ok h1 h2 h3
  obtain ⟨_, ht, hph⟩ := advance_eq_ok h4
  obtain rfl := mem_unique hr.getElem ht
  cases hph with
  | write base stop b g hp hg =>
    exact wouldWrite_of_admitted h1 h2 h3 hr hp hg hk.2 hc
  | authorized _ hrq => simp [hrq] at hs
  | prepared _ ha => simp [ha] at hs
  | read _ _ _ _ hre =>
    rw [hr.request_eq, hk.1] at hre
    cases hre
  | faulted reason =>
    rw [(hr.faultedWith reason).logged] at hc
    exact absurd rfl hc
  | done =>
    rw [hr.logged] at hc
    exact absurd rfl hc

theorem executeAtomicXchg_wouldWrite {old : List UInt8}
    (h : f.executeAtomicXchg request data = ok (old, f')) (hc : f'.memory ≠ f.memory) :
    WouldWrite f request data := by
  have hef := executeAtomicXchg_effective h
  obtain ⟨_, f1, f2, f3, g, tx, base, stop, h1, h2, h3, rfl, hr, hp, hg, -⟩ :=
    executeAtomicXchg_eq_ok h
  exact wouldWrite_of_admitted h1 h2 h3 hr hp hg hef hc

/-! ## The law -/

theorem Phase.witness (h : Phase f idx tx f') (hc : f'.memory ≠ f.memory) :
    tx.request.kind = .write ∧ Holds f tx.request .WRITE ∨
      tx.request.kind = .atomic ∧ Holds f tx.request .ATOMIC := by
  cases h with
  | write base stop b g _ hg hki =>
    obtain ⟨gen, ha⟩ := hg.authorized
    have hh := holds_of_authorize ha
    cases hk : tx.request.kind with
    | write => exact .inl ⟨rfl, by simpa [hk, AccessKind.requiredPermission] using hh⟩
    | atomic => exact .inr ⟨rfl, by simpa [hk, AccessKind.requiredPermission] using hh⟩
    | read | fetch =>
      rw [hk] at hki
      cases hki
  | _ => exact absurd rfl hc

theorem Phase.fault_keeps {tx' : Transaction} (h : Phase f idx tx f')
    (ht : f.transactions[idx]? = some tx) (ht' : f'.transactions[idx]? = some tx')
    (hf : tx'.state = .faulted) : f'.memory = f.memory ∧ f'.pointerCells = f.pointerCells := by
  cases h with
  | write base stop b g _ _ _ _ _ hw =>
    rw [setTransaction, hw.eq, getElem?_set_row ht, if_pos rfl] at ht'
    rw [← some.inj ht'] at hf
    cases hf
  | _ => exact ⟨rfl, rfl⟩

/-- **Every memory effect has a witness of authority, up to the kind of the request.** For every
Fabric, request and payload: `execute_write` has a WRITE witness exactly when no request of kind
Atomic that would go through lacks one, `execute_atomic_xchg` has an ATOMIC witness exactly when no
request of another kind that would go through lacks one, and a commit has the witness of its kind. A
call that returns a fault changes neither memory nor a pointer cell. -/
theorem effect_witness (f : Fabric) (request : MemoryRequest) (data : List UInt8) :
    ((∀ f', f.executeWrite request data = ok f' → f'.memory ≠ f.memory →
        Holds f request .WRITE) ↔
      (request.kind = .atomic → WouldWrite f request data → Holds f request .WRITE)) ∧
    ((∀ old f', f.executeAtomicXchg request data = ok (old, f') → f'.memory ≠ f.memory →
        Holds f request .ATOMIC) ↔
      (request.kind ≠ .atomic → WouldWrite f request data → Holds f request .ATOMIC)) ∧
    (∀ idx tx f', f.step (.advance idx) = some f' → f.transactions[idx]? = some tx →
      f'.memory ≠ f.memory → tx.request.kind = .write ∧ Holds f tx.request .WRITE ∨
        tx.request.kind = .atomic ∧ Holds f tx.request .ATOMIC) ∧
    (∀ record f', f.executeWrite request data = err (record, f') →
      f'.memory = f.memory ∧ f'.pointerCells = f.pointerCells) ∧
    (∀ record f', f.executeAtomicXchg request data = err (record, f') →
      f'.memory = f.memory ∧ f'.pointerCells = f.pointerCells) ∧
    ∀ idx tx tx' f', f.step (.advance idx) = some f' → f.transactions[idx]? = some tx →
      f'.transactions[idx]? = some tx' → tx'.state = .faulted →
      f'.memory = f.memory ∧ f'.pointerCells = f.pointerCells := by
  refine ⟨⟨fun h hki hw => ?_, fun h f' ho hc => ?_⟩,
    ⟨fun h _ hw => ?_, fun h old f' ho hc => ?_⟩, ?_, ?_, ?_, ?_⟩
  · obtain ⟨f', ho⟩ := hw.executeWrite (by rw [hki]; rfl)
    rcases executeWrite_eq_ok ho with ⟨hr, -⟩ | ⟨-, hef⟩
    · rw [hki] at hr
      cases hr
    · exact h f' ho (hw.effective hef)
  · obtain ⟨hm, hw⟩ := executeWrite_wouldWrite ho hc
    obtain ⟨gen, ha⟩ := hw.authorized
    cases hk : request.kind with
    | write => simpa [hk, AccessKind.requiredPermission] using holds_of_authorize ha
    | atomic => exact h hk hw
    | read | fetch =>
      rw [hk] at hm
      cases hm
  · obtain ⟨old, f', ho⟩ := hw.executeAtomicXchg
    exact h old f' ho (hw.effective (executeAtomicXchg_effective ho))
  · have hw := executeAtomicXchg_wouldWrite ho hc
    by_cases hk : request.kind = .atomic
    · obtain ⟨gen, ha⟩ := hw.authorized
      simpa [hk, AccessKind.requiredPermission] using holds_of_authorize ha
    · exact h hk hw
  · exact fun idx tx f' hs ht hc => (phase_of_step hs ht).witness hc
  · intro record f' her
    rw [(executeWrite_eq_err her).logged]
    exact ⟨rfl, rfl⟩
  · intro record f' her
    rw [(executeAtomicXchg_logged her).1.logged]
    exact ⟨rfl, rfl⟩
  · exact fun idx tx tx' f' hs ht ht' hf =>
      (phase_of_step hs ht).fault_keeps ht ht' hf

/-! ## The kinds that do not match -/

/-- Four bytes of object 0, of a kind. -/
def fourBytesAs (kind : AccessKind) : MemoryRequest := { fourBytes with kind }

/-- An object of sixteen bytes at address 0, and a domain that holds one permission over it. -/
def withPermission (permission : Permissions) : List FabricOp :=
  [.allocObject "a" 16 .memory, .placeObject ⟨0⟩ 0, .createDomain, .grant ⟨0⟩ ⟨0⟩ 0 16 permission]

theorem not_holds_of_all {permission : Permissions} {d : DomainState}
    (hd : f.domains.get request.context.domain = some d) (h : (d.capabilities.all fun e =>
      !e.cap.covers request.object request.offset request.length permission) = true) :
    ¬ Holds f request permission := by
  rintro ⟨d', e, hd', he, -, hc⟩
  obtain rfl := mem_unique hd hd'
  simpa [hc] using all_eq_true.mp h e he

/-- **An effect without a witness.** With ATOMIC alone `execute_write` changes memory, and with READ
alone `execute_atomic_xchg` does. -/
theorem effect_without_witness :
    (∃ f f' : Fabric, Reachable f ∧ f.executeWrite (fourBytesAs .atomic) [1, 2, 3, 4] = ok f' ∧
      f'.memory ≠ f.memory ∧ ¬ Holds f (fourBytesAs .atomic) .WRITE) ∧
    ∃ (f f' : Fabric) (old : List UInt8), Reachable f ∧
      f.executeAtomicXchg (fourBytesAs .read) [1, 2, 3, 4] = ok (old, f') ∧
      f'.memory ≠ f.memory ∧ ¬ Holds f (fourBytesAs .read) .ATOMIC := by
  constructor
  · have hru : leadsTo 64 (withPermission .ATOMIC) (fun f =>
          (f.executeWrite (fourBytesAs .atomic) [1, 2, 3, 4]).isOkAnd (fun f' =>
            decide (f'.memory ≠ f.memory)) && (f.domains.get ⟨0⟩).any fun d =>
              d.capabilities.all fun e => !e.cap.covers ⟨0⟩ 0 4 .WRITE) = true := by
      decide +kernel
    obtain ⟨f, hr, hf⟩ := exists_of_replay hru
    simp only [Bool.and_eq_true, isOkAnd_eq_true, Option.any_eq_true, decide_eq_true_eq] at hf
    obtain ⟨⟨f', ho, hc⟩, d, hd, hn⟩ := hf
    exact ⟨f, f', hr, ho, hc, not_holds_of_all hd hn⟩
  · have hru : leadsTo 64 (withPermission .READ) (fun f =>
          (f.executeAtomicXchg (fourBytesAs .read) [1, 2, 3, 4]).isOkAnd (fun r =>
            decide (r.2.memory ≠ f.memory)) && (f.domains.get ⟨0⟩).any fun d =>
              d.capabilities.all fun e => !e.cap.covers ⟨0⟩ 0 4 .ATOMIC) = true := by
      decide +kernel
    obtain ⟨f, hr, hf⟩ := exists_of_replay hru
    simp only [Bool.and_eq_true, isOkAnd_eq_true, Option.any_eq_true, decide_eq_true_eq] at hf
    obtain ⟨⟨⟨old, f'⟩, ho, hc⟩, d, hd, hn⟩ := hf
    exact ⟨f, f', old, hr, ho, hc, not_holds_of_all hd hn⟩

end Anka.Fabric
