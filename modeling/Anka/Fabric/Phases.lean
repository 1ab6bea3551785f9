import Anka.Fabric.Transactions

/-!
# What the phases of a transaction do

`Phase` is the complete inversion of `advance`: what the transaction was, what the phase had
checked, and the Fabric it leaves. `submit_eq_ok`, `runToCommit_eq_ok` and
`executeAtomicXchg_eq_ok` say the same of the calls that submit and run whole transactions.
Authorization and translation do not look at the transaction log, so a call that runs every phase is
decided by the Fabric it starts from.
-/

namespace Anka.Fabric

open Rust Res Option

variable {f f' : Fabric} {base idx : Nat} {ε : Type} {tx : Transaction}

/-! ## Cells and spans -/

/-- The cells that are left have no byte in `[base, base + n)`. -/
def Cleared (f : Fabric) (base n : Nat) (cells : Map CellKey ScopedPointer) : Prop :=
  ∀ key p, cells.get key = some p → f.pointerCells.get key = some p ∧
    ∀ b, f.placement.get key.object = some b → Disjoint (span base n) (span (b + key.offset) 16)

theorem cellOutside_disjoint {n b : Nat} {key : CellKey}
    (ho : f.cellOutside base (base + n) key = true) (hp : f.placement.get key.object = some b) :
    Disjoint (span base n) (span (b + key.offset) 16) := by
  simp only [cellOutside, cellAddress, hp, bind_some, any_eq_true, checkedAdd_eq_some] at ho
  obtain ⟨cell, ⟨-, rfl⟩, c, ⟨-, rfl⟩, ho⟩ := ho
  refine disjoint_span fun hm => ?_
  simp [hm.1, hm.2] at ho

variable {n : Nat} {e : ε} {stop : Nat}

theorem clearPointerCellsPhysical_eq_ok
    (h : (f.clearPointerCellsPhysical base n : Res ε Fabric) = ok f') :
    ∃ cells, f' = { f with pointerCells := cells } ∧ Cleared f base n cells := by
  unfold clearPointerCellsPhysical at h
  split at h
  · rename_i hz
    cases h
    subst hz
    exact ⟨f.pointerCells, rfl, fun key p hp => ⟨hp, fun b _ => by simp [span]⟩⟩
  · simp only [eq_ok] at h
    obtain ⟨_, ⟨-, rfl⟩, rfl⟩ := h
    refine ⟨_, rfl, fun key p hp => ?_⟩
    obtain ⟨hp, ho⟩ := Map.get_retain_eq_some.mp hp
    exact ⟨hp, fun b hb => cellOutside_disjoint ho hb⟩

theorem clearPointerCellsPhysical_ne_err :
    (f.clearPointerCellsPhysical base n : Res ε Fabric) ≠ err e := by
  unfold clearPointerCellsPhysical
  split <;> simp

/-- The Fabric after a checked write of a span: the bytes are there and no cell in it is left. -/
structure Written (f : Fabric) (base : Nat) (data : List UInt8) (f' : Fabric) : Prop where
  cleared : Cleared f base data.length f'.pointerCells
  eq : f' = { f with
    pointerCells := f'.pointerCells
    memory := overwrite f.memory base data
    history := .wrote base data.length :: f.history }

theorem writeSpan_of_payload {ε : Type} {tx : Transaction} {base n : Nat} {data : List UInt8}
    (hm : base + n ≤ u64Max) (hdata : tx.writeData = some data) (hlen : data.length = n) :
    ∃ g, (f.writeSpan tx base (base + n) : Res ε Fabric) = ok g := by
  have hc : ∃ g, (f.clearPointerCellsPhysical base n : Res ε Fabric) = ok g := by
    unfold clearPointerCellsPhysical
    split
    · exact ⟨f, rfl⟩
    · simp [checkedAdd, hm, unwrap]
  obtain ⟨g, hg⟩ := hc
  refine ⟨g.writeMemory base data, ?_⟩
  simp [writeSpan, hg, hdata, unwrap, check, hlen]

theorem writeSpan_eq_ok (h : (f.writeSpan tx base stop : Res ε Fabric) = ok f') :
    ∃ data, tx.writeData = some data ∧ data.length = stop - base ∧ Written f base data f' := by
  simp only [writeSpan, eq_ok] at h
  obtain ⟨_, hc, data, hdata, hlen, rfl⟩ := h
  obtain ⟨cells, rfl, hce⟩ := clearPointerCellsPhysical_eq_ok hc
  exact ⟨data, hdata, hlen, hlen ▸ hce, rfl⟩

theorem writeSpan_ne_err : (f.writeSpan tx base stop : Res ε Fabric) ≠ err e := by
  simp [writeSpan, clearPointerCellsPhysical_ne_err]

/-! ## One phase -/

/-- The Fabric `fault_transaction` leaves. -/
def faultedWith (f : Fabric) (idx : Nat) (tx : Transaction) (reason : FaultReason) : Fabric :=
  { f with
    transactions := f.transactions.set idx
      { tx with state := .faulted, fault := some (faultRecord tx reason) }
    faultLog := f.faultLog ++ [faultRecord tx reason] }

theorem faultTransaction_eq (r : FaultReason) (ht : f.transactions[idx]? = some tx) :
    (f.faultTransaction idx r : Res ε Fabric) = ok (f.faultedWith idx tx r) := by
  simp [faultTransaction, transactionAt, ht, unwrap, faultedWith, setTransaction]

/-- What one `advance` does to a transaction. -/
inductive Phase (f : Fabric) (idx : Nat) (tx : Transaction) : Fabric → Prop
  | authorized (g : Generation) (hst : tx.state = .requested)
      (hauth : f.authorize tx.request = ok g) :
      Phase f idx tx
        (f.setTransaction idx { tx with authGeneration := some g, state := .authorized })
  | prepared (physical : Nat) (hst : tx.state = .authorized)
      (htr : f.translate tx.request.object tx.request.offset = some physical) :
      Phase f idx tx
        (f.setTransaction idx { tx with physicalAddress := some physical, state := .prepared })
  | read (base stop : Nat) (hst : tx.state = .prepared) (hgate : Admitted f tx base stop)
      (hkind : tx.request.kind.mutates = false) :
      Phase f idx tx (f.setTransaction idx
        { tx with readData := some (slice f.memory base (stop - base)), state := .committed })
  | write (base stop : Nat) (data : List UInt8) (g : Fabric) (hst : tx.state = .prepared)
      (hgate : Admitted f tx base stop) (hkind : tx.request.kind.mutates = true)
      (hdata : tx.writeData = some data) (hlen : data.length = stop - base)
      (hwrn : Written f base data g) :
      Phase f idx tx (g.setTransaction idx { tx with state := .committed })
  | faulted (reason : FaultReason) (hst : tx.state.isTerminal = false) :
      Phase f idx tx (f.faultedWith idx tx reason)
  | done (hst : tx.state.isTerminal = true) : Phase f idx tx f

theorem phaseCommit_phase (ht : f.transactions[idx]? = some tx) (hst : tx.state = .prepared)
    (h : (f.phaseCommit idx tx : Res ε Fabric) = ok f') : Phase f idx tx f' := by
  unfold phaseCommit validatePrecommit at h
  cases hp : f.precommit tx with
  | ok span =>
    obtain ⟨base, stop⟩ := span
    simp only [hp, commitEffect] at h
    have hgate := precommit_eq_ok hp
    split at h
    · rename_i hkind
      simp only [eq_ok] at h
      obtain ⟨g, hw, rfl⟩ := h
      obtain ⟨data, hdata, hlen, hwrn⟩ := writeSpan_eq_ok hw
      exact .write base stop data g hst hgate hkind hdata hlen hwrn
    · rename_i hkind
      cases h
      exact .read base stop hst hgate (by simpa using hkind)
  | err reason =>
    simp only [hp, faultTransaction_eq reason ht, ok_bind, ok.injEq] at h
    exact h ▸ .faulted reason (by simp [hst, TxState.isTerminal])
  | panic => simp [hp] at h

/-- **The inversion of `advance`.** -/
theorem advance_eq_ok (h : (f.advance idx : Res ε Fabric) = ok f') :
    ∃ tx, f.transactions[idx]? = some tx ∧ Phase f idx tx f' := by
  simp only [advance, transactionAt, eq_ok] at h
  obtain ⟨tx, ht, h⟩ := h
  refine ⟨tx, ht, ?_⟩
  split at h
  · rename_i hst
    unfold phaseAuthorize at h
    split at h
    · rename_i g hauth
      cases h
      exact .authorized g hst hauth
    · rename_i reason _
      rw [faultTransaction_eq reason ht] at h
      exact ok.inj h ▸ .faulted reason (by simp [hst, TxState.isTerminal])
    · cases h
  · rename_i hst
    unfold phaseTranslate at h
    split at h
    · rename_i physical htr
      cases h
      exact .prepared physical hst htr
    · rw [faultTransaction_eq .translationFault ht] at h
      exact ok.inj h ▸ .faulted .translationFault (by simp [hst, TxState.isTerminal])
  · exact phaseCommit_phase ht ‹_› h
  · rename_i hst
    cases h
    exact .done (by simp [hst, TxState.isTerminal])
  · rename_i hst
    cases h
    exact .done (by simp [hst, TxState.isTerminal])

theorem Phase.commits {tx' : Transaction} (h : Phase f idx tx f')
    (ht : f.transactions[idx]? = some tx) (ht' : f'.transactions[idx]? = some tx')
    (hb : tx.state ≠ .committed) (ha : tx'.state = .committed) :
    tx.state = .prepared ∧ ∃ base stop, Admitted f tx base stop ∧
      (tx.request.kind.mutates = false ∧ f'.memory = f.memory ∧
          tx'.readData = some (slice f.memory base (stop - base)) ∨
        tx.request.kind.mutates = true ∧ ∃ data, tx.writeData = some data ∧
          data.length = stop - base ∧ f'.memory = overwrite f.memory base data) := by
  have hs : ∀ {g : Fabric} {row : Transaction}, g.transactions = f.transactions →
      (g.setTransaction idx row).transactions[idx]? = some tx' → tx' = row := by
    intro g row hg hr
    rw [setTransaction, hg, getElem?_set_row ht, if_pos rfl] at hr
    exact (some.inj hr).symm
  cases h with
  | authorized | prepared =>
    rw [hs rfl ht'] at ha
    cases ha
  | faulted =>
    rw [faultedWith, getElem?_set_row ht, if_pos rfl] at ht'
    rw [← some.inj ht'] at ha
    cases ha
  | done => exact absurd (mem_unique ht ht' ▸ ha) hb
  | read base stop hst hgate hkind =>
    refine ⟨hst, base, stop, hgate, .inl ⟨hkind, rfl, ?_⟩⟩
    rw [hs rfl ht']
  | write base stop data g hst hgate hkind hdata hlen hwrn =>
    refine ⟨hst, base, stop, hgate, .inr ⟨hkind, data, hdata, hlen, ?_⟩⟩
    rw [setTransaction, hwrn.eq]

theorem advance_ne_err : (f.advance idx : Res ε Fabric) ≠ err e := by
  have hf : ∀ r, (f.faultTransaction idx r : Res ε Fabric) ≠ err e := by
    intro r
    simp [faultTransaction, transactionAt]
  intro h
  simp only [advance, transactionAt, bind_eq_err, unwrap_ne_err, false_or] at h
  obtain ⟨tx, -, h⟩ := h
  split at h
  · unfold phaseAuthorize at h
    split at h
    · cases h
    · exact hf _ h
    · cases h
  · unfold phaseTranslate at h
    split at h
    · cases h
    · exact hf _ h
  · unfold phaseCommit at h
    split at h
    · unfold commitEffect at h
      split at h
      · simp [writeSpan_ne_err] at h
      · cases h
    · cases h
    · cases h
  · cases h
  · cases h

/-! ## A transaction from its submission on -/

/-- Only the transaction log, the fault log and the transaction counter differ. -/
def Logged (f g : Fabric) : Prop :=
  g = { f with transactions := g.transactions, faultLog := g.faultLog, nextTxId := g.nextTxId }

/-- The logs have grown, and the transaction counter; everything else is as it was. -/
structure OnlyLogs (f f' : Fabric) : Prop where
  logged : Logged f f'
  transactions : f.transactions <+: f'.transactions
  faults : f.faultLog <+: f'.faultLog

theorem Phase.faults {tx : Transaction} (h : Phase f idx tx f') : f.faultLog <+: f'.faultLog := by
  cases h with
  | authorized | prepared | read | done => exact List.prefix_rfl
  | write base stop data g hst hgate hkind hdata hlen hwrn =>
    have hf : g.faultLog = f.faultLog := by rw [hwrn.eq]
    exact hf ▸ List.prefix_rfl
  | faulted r hst => exact List.prefix_append _ _

theorem advance_faults (h : (f.advance idx : Res ε Fabric) = ok f') :
    f.faultLog <+: f'.faultLog := by
  obtain ⟨tx, -, hp⟩ := advance_eq_ok h
  exact hp.faults

/-- `tx` is the row a call has appended to the log of `f` and taken through some phases; what the
phases found is what `f` answers, since they do not look at the log. -/
structure Row (f : Fabric) (request : MemoryRequest) (data : Option (List UInt8)) (g : Fabric)
    (tx : Transaction) : Prop where
  logged : Logged f g
  log : g.transactions = f.transactions ++ [tx]
  request_eq : tx.request = request
  payload : tx.writeData = data
  authorized : tx.state = .authorized ∨ tx.state = .prepared → ∃ gen, f.authorize request = ok gen
  prepared : tx.state = .prepared → ∃ physical,
    f.translate request.object request.offset = some physical ∧ tx.physicalAddress = some physical

section Row

variable {req : MemoryRequest} {data : Option (List UInt8)} {g g' : Fabric} {tx : Transaction}

section

variable (h : Row f req data g tx)
include h

theorem Row.getElem : g.transactions[f.transactions.length]? = some tx := by
  rw [h.log, List.getElem?_concat_length]

theorem Row.authorize_eq (r : MemoryRequest) : g.authorize r = f.authorize r := by
  rw [h.logged]
  rfl

theorem Row.translate_eq (o : ObjectId) (offset : Nat) :
    g.translate o offset = f.translate o offset := by
  rw [h.logged]
  rfl

theorem Row.set_log (tx' : Transaction) :
    g.transactions.set f.transactions.length tx' = f.transactions ++ [tx'] := by
  simp [h.log]

theorem Row.update {tx' : Transaction} {log : List FaultRecord}
    (hr : tx'.request = tx.request) (hp : tx'.writeData = tx.writeData)
    (hauth : tx'.state = .authorized ∨ tx'.state = .prepared → ∃ gen, f.authorize req = ok gen)
    (hpr : tx'.state = .prepared → ∃ physical,
      f.translate req.object req.offset = some physical ∧
        tx'.physicalAddress = some physical) :
    Row f req data
      { g with transactions := g.transactions.set f.transactions.length tx', faultLog := log }
      tx' where
  logged := by rw [h.logged]; rfl
  log := h.set_log tx'
  request_eq := hr.trans h.request_eq
  payload := hp.trans h.payload
  authorized := hauth
  prepared := hpr

theorem Row.faultedWith (r : FaultReason) :
    Row f req data (g.faultedWith f.transactions.length tx r)
      { tx with state := .faulted, fault := some (faultRecord tx r) } :=
  h.update rfl rfl (by simp) (by simp)

theorem Row.advance {ε : Type} (hst : tx.state ≠ .prepared)
    (ha : (g.advance f.transactions.length : Res ε Fabric) = ok g') :
    ∃ tx', Row f req data g' tx' ∧ (tx'.state = .faulted ∨
      tx.state.isTerminal = true ∧ tx'.state = tx.state ∨ tx.state = .requested ∧
        tx'.state = .authorized ∨
      tx.state = .authorized ∧ tx'.state = .prepared) := by
  obtain ⟨_, ht, hph⟩ := advance_eq_ok ha
  obtain rfl := mem_unique h.getElem ht
  cases hph with
  | authorized gen hr hauth =>
    rw [h.request_eq, h.authorize_eq] at hauth
    exact ⟨_, h.update rfl rfl (fun _ => ⟨gen, hauth⟩) (by simp), .inr (.inr (.inl ⟨hr, rfl⟩))⟩
  | prepared p hauth htr =>
    rw [h.request_eq, h.translate_eq] at htr
    exact ⟨_, h.update rfl rfl (fun _ => h.authorized (.inl hauth))
      (fun _ => ⟨p, htr, rfl⟩), .inr (.inr (.inr ⟨hauth, rfl⟩))⟩
  | read _ _ hp => exact absurd hp hst
  | write _ _ _ _ hp => exact absurd hp hst
  | faulted r => exact ⟨_, h.faultedWith r, .inl rfl⟩
  | done hd => exact ⟨_, h, .inr (.inl ⟨hd, rfl⟩)⟩

end

end Row

variable {ε : Type} {req : MemoryRequest} {data : Option (List UInt8)} {idx : Nat}
  {tx : Transaction} {rc : FaultRecord}

theorem submit_eq_ok (h : (f.submit req data : Res ε _) = ok (idx, f')) :
    idx = f.transactions.length ∧
      ∃ tx, Row f req data f' tx ∧ (tx.state = .requested ∨ tx.state = .faulted) := by
  simp only [submit, eq_ok] at h
  obtain ⟨_, ⟨-, rfl⟩, g, hf, rfl, rfl⟩ := h
  have hr : Row f req data { f with
      nextTxId := f.nextTxId + 1, transactions := f.transactions ++ [f.requested req data] }
      (f.requested req data) := by
    refine ⟨rfl, rfl, rfl, rfl, ?_, ?_⟩ <;> simp [requested]
  refine ⟨rfl, ?_⟩
  split at hf
  · rw [faultTransaction_eq .invalidSpan List.getElem?_concat_length] at hf
    cases hf
    exact ⟨_, hr.faultedWith .invalidSpan, .inr rfl⟩
  · cases hf
    exact ⟨_, hr, .inl rfl⟩

theorem submit_faults (h : (f.submit req data : Res ε _) = ok (idx, f')) :
    f.faultLog <+: f'.faultLog := by
  simp only [submit, eq_ok] at h
  obtain ⟨_, -, g, hf, -, rfl⟩ := h
  split at hf
  · rw [faultTransaction_eq .invalidSpan List.getElem?_concat_length] at hf
    cases hf
    exact List.prefix_append _ _
  · cases hf
    exact List.prefix_rfl

theorem submit_ne_err {e : ε} : (f.submit req data : Res ε _) ≠ err e := by
  intro h
  simp only [submit, plus, bind_eq_err, unwrap_ne_err, false_or, pure_eq, reduceCtorEq, and_false,
    exists_false, or_false] at h
  obtain ⟨_, -, h⟩ := h
  split at h
  · simp [faultTransaction, transactionAt] at h
  · cases h

theorem prepare_eq_ok {f1 f2 f3 : Fabric}
    (h1 : (f.submit req data : Res ε _) = ok (idx, f1))
    (h2 : (f1.advance idx : Res ε _) = ok f2) (h3 : (f2.advance idx : Res ε _) = ok f3) :
    idx = f.transactions.length ∧
      ∃ tx, Row f req data f3 tx ∧ (tx.state = .prepared ∨ tx.state = .faulted) := by
  obtain ⟨rfl, tx1, hrow1, hst1⟩ := submit_eq_ok h1
  obtain ⟨tx2, hrow2, hst2⟩ := hrow1.advance (by rcases hst1 with h | h <;> simp [h]) h2
  have hn : tx2.state = .authorized ∨ tx2.state = .faulted := by
    grind [TxState.isTerminal]
  obtain ⟨tx3, hrow3, hst3⟩ := hrow2.advance (by rcases hn with h | h <;> simp [h]) h3
  refine ⟨rfl, tx3, hrow3, ?_⟩
  grind [TxState.isTerminal]

/-! ## Whole transactions -/

/-- A call wrote `data` over the requested span, with authority for the request. -/
structure Effective (f : Fabric) (request : MemoryRequest) (data : List UInt8) (f' : Fabric) :
    Prop where
  authorized : ∃ gen, f.authorize request = ok gen
  effect : ∃ physical, f.translate request.object request.offset = some physical ∧
    data.length = request.length ∧ physical + request.length ≤ f.memory.length ∧
    Cleared f physical data.length f'.pointerCells ∧
    f'.memory = overwrite f.memory physical data ∧
    f'.history = .wrote physical data.length :: f.history
  frame : f' = { f with
    pointerCells := f'.pointerCells, memory := f'.memory, history := f'.history
    transactions := f'.transactions, faultLog := f'.faultLog, nextTxId := f'.nextTxId }

theorem Row.effective {pa : Option (List UInt8)} {data : List UInt8} {g h : Fabric}
    {base stop : Nat} {txs : List Transaction} (hr : Row f req pa g tx)
    (hst : tx.state = .prepared) (hgate : Admitted g tx base stop)
    (hlen : data.length = stop - base) (hwrn : Written g base data h) :
    Effective f req data { h with transactions := txs } := by
  obtain ⟨p, htr, ha⟩ := hr.prepared hst
  obtain rfl := mem_unique ha hgate.address
  have hm : g.memory = f.memory := by rw [hr.logged]
  have hs := hgate.stop_eq
  rw [hr.request_eq] at hs
  refine ⟨hr.authorized (.inr hst), ⟨p, htr, by omega, ?_, ?_, ?_, ?_⟩, ?_⟩
  · exact hm ▸ hs ▸ hgate.fits
  · have hc := hwrn.cleared
    rw [hr.logged] at hc
    exact hc
  · rw [hwrn.eq, hm]
  · rw [hwrn.eq, hr.logged]
  · rw [hwrn.eq, hr.logged]

/-- What running a request through all its phases leaves. -/
theorem runToCommit_eq_ok (h : (f.runToCommit req data : Res ε _) = ok (idx, f')) :
    idx = f.transactions.length ∧ ∃ tx, f'.transactions = f.transactions ++ [tx] ∧
      (tx.state = .faulted ∧ OnlyLogs f f' ∨
        tx.state = .committed ∧ req.kind.mutates = false ∧ OnlyLogs f f' ∧
          (∃ gen, f.authorize req = ok gen) ∧
          (∃ p, f.translate req.object req.offset = some p ∧
            tx.readData = some (slice f.memory p req.length)) ∨
        tx.state = .committed ∧ req.kind.mutates = true ∧
          ∃ b, data = some b ∧ Effective f req b f') := by
  simp only [runToCommit, eq_ok] at h
  obtain ⟨_, f1, h1, f2, h2, f3, h3, f4, h4, rfl, rfl⟩ := h
  obtain ⟨rfl, tx, hr, hst⟩ := prepare_eq_ok h1 h2 h3
  refine ⟨rfl, ?_⟩
  have hl : ∀ {tx}, f4.transactions = f.transactions ++ [tx] → Logged f f4 → OnlyLogs f f4 :=
    fun hlg hlo => ⟨hlo, hlg ▸ List.prefix_append _ _, (submit_faults h1).trans
      ((advance_faults h2).trans ((advance_faults h3).trans (advance_faults h4)))⟩
  obtain ⟨_, ht, hph⟩ := advance_eq_ok h4
  obtain rfl := mem_unique hr.getElem ht
  cases hph with
  | authorized _ hre => simp [hre] at hst
  | prepared _ hauth => simp [hauth] at hst
  | read base stop hp hgate hkind =>
    refine ⟨{ tx with
      readData := some (slice f3.memory base (stop - base)), state := .committed },
      hr.set_log _, .inr (.inl ⟨rfl, hr.request_eq ▸ hkind, ?_, hr.authorized (.inr hp), ?_⟩)⟩
    · exact hl (hr.set_log _) (by rw [Logged, setTransaction, hr.logged])
    · obtain ⟨p, htr, ha⟩ := hr.prepared hp
      obtain rfl := mem_unique ha hgate.address
      refine ⟨p, htr, ?_⟩
      rw [hgate.stop_eq, hr.request_eq, Nat.add_sub_cancel_left, hr.logged]
  | write base stop b g hp hgate hkind hdata hlen hwrn =>
    refine ⟨{ tx with state := .committed }, ?_, .inr (.inr ⟨rfl, hr.request_eq ▸ hkind, b,
      hr.payload ▸ hdata,
      hr.effective hp hgate hlen hwrn⟩)⟩
    rw [setTransaction, hwrn.eq]
    exact hr.set_log _
  | faulted r =>
    have hf := hr.faultedWith r
    exact ⟨_, hf.log, .inl ⟨rfl, hl hf.log hf.logged⟩⟩
  | done hd =>
    rcases hst with hp | hfl
    · simp [hp, TxState.isTerminal] at hd
    · exact ⟨_, hr.log, .inl ⟨hfl, hl hr.log hr.logged⟩⟩

theorem runToCommit_ne_err {e : ε} : (f.runToCommit req data : Res ε _) ≠ err e := by
  simp [runToCommit, submit_ne_err, advance_ne_err]

theorem settle_eq_ok (h : f.settle idx = ok tx) :
    f.transactions[idx]? = some tx ∧ tx.state = .committed := by
  simp only [settle, transactionAt, eq_ok] at h
  obtain ⟨tx', ht, h⟩ := h
  split at h
  · cases h
    exact ⟨ht, ‹_›⟩
  · simp at h
  · cases h

theorem settle_eq_err (h : f.settle idx = err (rc, f')) :
    f' = f ∧ ∃ tx, f.transactions[idx]? = some tx ∧ tx.state = .faulted := by
  simp only [settle, transactionAt, bind_eq_err, unwrap_ne_err, unwrap_eq_ok, false_or] at h
  obtain ⟨tx, ht, h⟩ := h
  split at h
  · cases h
  · simp only [bind_eq_err, unwrap_ne_err, false_or, err.injEq, Prod.mk.injEq] at h
    obtain ⟨_, -, -, rfl⟩ := h
    exact ⟨rfl, tx, ht, ‹_›⟩
  · cases h

theorem settled_eq_ok {g : Fabric}
    (hru : (f.runToCommit req data : Res ε _) = ok (idx, g)) (hs : g.settle idx = ok tx) :
    req.kind.mutates = false ∧ OnlyLogs f g ∧ (∃ gen, f.authorize req = ok gen) ∧
        (∃ physical, f.translate req.object req.offset = some physical ∧
          tx.readData = some (slice f.memory physical req.length)) ∨
      req.kind.mutates = true ∧ ∃ bytes, data = some bytes ∧ Effective f req bytes g := by
  obtain ⟨rfl, tx', hl, hc⟩ := runToCommit_eq_ok hru
  obtain ⟨ht, hco⟩ := settle_eq_ok hs
  rw [hl, List.getElem?_concat_length] at ht
  obtain rfl := some.inj ht
  rcases hc with ⟨hf, -⟩ | ⟨-, hr⟩ | ⟨-, hw⟩
  · simp [hf] at hco
  · exact .inl hr
  · exact .inr hw

theorem settled_eq_err {g : Fabric} (hr : (f.runToCommit req data : Res ε _) = ok (idx, g))
    (hs : g.settle idx = err (rc, f')) : OnlyLogs f f' := by
  obtain ⟨rfl, tx, hlo, hca⟩ := runToCommit_eq_ok hr
  obtain ⟨rfl, tx', ht', hf⟩ := settle_eq_err hs
  rw [hlo, List.getElem?_concat_length] at ht'
  obtain rfl := some.inj ht'
  rcases hca with ⟨-, hl⟩ | ⟨hc, -⟩ | ⟨hc, -⟩
  · exact hl
  · simp [hc] at hf
  · simp [hc] at hf

variable {data : List UInt8}

theorem executeWrite_eq_ok (h : f.executeWrite req data = ok f') :
    req.kind.mutates = false ∧ Logged f f' ∨
      req.kind.mutates = true ∧ Effective f req data f' := by
  simp only [executeWrite, eq_ok] at h
  obtain ⟨idx, g, hr, tx, hs, rfl⟩ := h
  rcases settled_eq_ok hr hs with ⟨hkind, hl, -⟩ | ⟨hkind, bytes, hb, hef⟩
  · exact .inl ⟨hkind, hl.logged⟩
  · exact .inr ⟨hkind, some.inj hb ▸ hef⟩

theorem executeWrite_eq_err (h : f.executeWrite req data = err (rc, f')) :
    OnlyLogs f f' := by
  simp only [executeWrite, bind_eq_err, runToCommit_ne_err, false_or, Prod.exists, pure_eq,
    reduceCtorEq, and_false, exists_false, or_false] at h
  obtain ⟨idx, g, hr, hs⟩ := h
  exact settled_eq_err hr hs

theorem executeRead_eq_ok {b : List UInt8} (h : f.executeRead req = ok (b, f')) :
    OnlyLogs f f' ∧ (∃ gen, f.authorize req = ok gen) ∧
      ∃ physical, f.translate req.object req.offset = some physical ∧
        b = slice f.memory physical req.length := by
  simp only [executeRead, eq_ok] at h
  obtain ⟨idx, g, hru, tx, hs, _, hr, rfl, rfl⟩ := h
  rcases settled_eq_ok hru hs with
    ⟨-, hl, hauth, physical, htr, hdata⟩ | ⟨-, _, hb, -⟩
  · exact ⟨hl, hauth, physical, htr, mem_unique hr hdata⟩
  · cases hb

/-! ## Exchanges -/

theorem validatePrecommit_eq_ok {base stop : Nat}
    (h : f.validatePrecommit idx tx = ok (base, stop)) : Admitted f tx base stop := by
  unfold validatePrecommit at h
  split at h
  · rename_i hp
    cases h
    exact precommit_eq_ok hp
  · simp at h
  · cases h

theorem validatePrecommit_eq_err (ht : f.transactions[idx]? = some tx)
    (h : f.validatePrecommit idx tx = err f') : ∃ reason, f' = f.faultedWith idx tx reason := by
  unfold validatePrecommit at h
  split at h
  · cases h
  · rename_i reason _
    rw [faultTransaction_eq reason ht, ok_bind, err.injEq] at h
    exact ⟨reason, h.symm⟩
  · cases h

variable {old : List UInt8}

theorem executeAtomicXchg_eq_ok (h : f.executeAtomicXchg req data = ok (old, f')) :
    ∃ idx f1 f2 f3 g tx base stop,
      (f.submit req (some data) : Res (FaultRecord × Fabric) _) = ok (idx, f1) ∧
      (f1.advance idx : Res (FaultRecord × Fabric) _) = ok f2 ∧
      (f2.advance idx : Res (FaultRecord × Fabric) _) = ok f3 ∧
      idx = f.transactions.length ∧ Row f req (some data) f3 tx ∧ tx.state = .prepared ∧
      Admitted f3 tx base stop ∧ data.length = stop - base ∧ Written f3 base data g ∧
      old = slice f.memory base (stop - base) ∧
      f' = g.setTransaction idx { tx with state := .committed } := by
  simp only [executeAtomicXchg, transactionAt, eq_ok] at h
  obtain ⟨idx, f1, h1, f2, h2, f3, h3, tx, ht, hre, base, stop, hgate, g, hw, rfl, rfl⟩ := h
  obtain ⟨rfl, tx', hr, hst⟩ := prepare_eq_ok h1 h2 h3
  obtain rfl := mem_unique hr.getElem ht
  have hp : tx'.state = .prepared := by
    rcases hst with hp | hf
    · exact hp
    · simp [returnFault, hf] at hre
  have ha : Admitted f3 tx' base stop := by
    unfold precommitOrReturn at hgate
    split at hgate
    · rename_i hv
      cases hgate
      exact validatePrecommit_eq_ok hv
    · simp at hgate
    · cases hgate
  obtain ⟨b, hb, hlen, hwrn⟩ := writeSpan_eq_ok hw
  obtain rfl := mem_unique hr.payload hb
  refine ⟨_, f1, f2, f3, g, tx', base, stop, h1, h2, h3, rfl, hr, hp, ha, hlen, hwrn, ?_, rfl⟩
  rw [hr.logged]

theorem executeAtomicXchg_effective (h : f.executeAtomicXchg req data = ok (old, f')) :
    Effective f req data f' := by
  obtain ⟨idx, f1, f2, f3, g, tx, base, stop, -, -, -, rfl, hr, hp, hgate, hlen, hwrn, -, rfl⟩ :=
    executeAtomicXchg_eq_ok h
  exact hr.effective hp hgate hlen hwrn

theorem executeAtomicXchg_eq_err (h : f.executeAtomicXchg req data = err (rc, f')) :
    ∃ idx f1 f2 f3 tx,
      (f.submit req (some data) : Res (FaultRecord × Fabric) _) = ok (idx, f1) ∧
      (f1.advance idx : Res (FaultRecord × Fabric) _) = ok f2 ∧
      (f2.advance idx : Res (FaultRecord × Fabric) _) = ok f3 ∧
      idx = f.transactions.length ∧ Row f req (some data) f3 tx ∧
      (tx.state = .faulted ∧ f' = f3 ∨
        tx.state = .prepared ∧ ∃ reason, f' = f3.faultedWith idx tx reason) := by
  simp only [executeAtomicXchg, transactionAt, bind_eq_err, unwrap_eq_ok, Prod.exists, pure_eq,
    submit_ne_err, advance_ne_err, unwrap_ne_err, writeSpan_ne_err, reduceCtorEq, and_false,
    exists_false, or_false, false_or] at h
  obtain ⟨idx, f1, h1, f2, h2, f3, h3, tx, ht, h⟩ := h
  obtain ⟨rfl, tx', hro, hst⟩ := prepare_eq_ok h1 h2 h3
  obtain rfl := mem_unique hro.getElem ht
  refine ⟨_, f1, f2, f3, tx', h1, h2, h3, rfl, hro, ?_⟩
  rcases h with hr | ⟨_, hr, hgate⟩
  · unfold returnFault at hr
    split at hr
    · rename_i hf
      simp only [bind_eq_err, unwrap_ne_err, false_or, err.injEq, Prod.mk.injEq] at hr
      obtain ⟨_, -, -, rfl⟩ := hr
      exact .inl ⟨hf, rfl⟩
    · cases hr
  · have hp : tx'.state = .prepared := by
      rcases hst with hp | hfl
      · exact hp
      · simp [returnFault, hfl] at hr
    unfold precommitOrReturn at hgate
    split at hgate
    · cases hgate
    · rename_i g hv
      simp only [transactionAt, bind_eq_err, unwrap_ne_err, false_or, err.injEq,
        Prod.mk.injEq] at hgate
      obtain ⟨_, -, _, -, -, rfl⟩ := hgate
      exact .inr ⟨hp, validatePrecommit_eq_err ht hv⟩
    · cases hgate

theorem executeAtomicXchg_logged (h : f.executeAtomicXchg req data = err (rc, f')) :
    OnlyLogs f f' ∧ ∃ tx, f'.transactions = f.transactions ++ [tx] ∧ tx.state = .faulted := by
  obtain ⟨idx, f1, f2, f3, tx, h1, h2, h3, rfl, hr, hc⟩ := executeAtomicXchg_eq_err h
  have hf := (submit_faults h1).trans ((advance_faults h2).trans (advance_faults h3))
  rcases hc with ⟨hfl, rfl⟩ | ⟨-, r, rfl⟩
  · exact ⟨⟨hr.logged, hr.log ▸ List.prefix_append _ _, hf⟩, tx, hr.log, hfl⟩
  · have hl := hr.faultedWith r
    exact ⟨⟨hl.logged, hl.log ▸ List.prefix_append _ _,
      hf.trans (List.prefix_append _ _)⟩, _, hl.log, rfl⟩

theorem executeAtomicXchg_row (h : f.executeAtomicXchg req data = ok (old, f')) :
    ∃ tx, f'.transactions = f.transactions ++ [tx] ∧ tx.request = req ∧
      tx.state = .committed := by
  obtain ⟨idx, f1, f2, f3, g, tx, base, stop, -, -, -, rfl, hr, -, -, -, hwrn, -, rfl⟩ :=
    executeAtomicXchg_eq_ok h
  refine ⟨{ tx with state := .committed }, ?_, hr.request_eq, rfl⟩
  rw [setTransaction, hwrn.eq]
  exact hr.set_log _

end Anka.Fabric
