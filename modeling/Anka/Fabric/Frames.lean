import Anka.Fabric.WriteXorExecute

/-!
# What a call leaves of one domain and of one transaction

A domain changes only by the calls that name it (`FabricOp.names`): a call on another domain, on an
object or on memory leaves its entries as they are, and a domain that is gone does not come back,
since domains are numbered by a counter that only grows (`step_domain`). A transaction moves towards
its end and keeps its request, until the trace is discarded (`step_advances`).
-/

namespace Anka

open Rust Res

namespace Fabric

variable {f f' : Fabric} {op : FabricOp} {idx : Nat} {req : MemoryRequest}

/-! ## Domains -/

/-- Every domain but those in `only` is as before, and of those one that is gone stays so. -/
structure Confined (only : DomainId → Prop) (f f' : Fabric) : Prop where
  next : f.nextDomainId ≤ f'.nextDomainId
  domain : ∀ id, id.raw < f.nextDomainId → (only id → f.domains.get id = none) →
    f'.domains.get id = f.domains.get id

variable {G : Guard} {id : DomainId} {tx : Transaction} {ε : Type}

theorem Change.domain (h : Change G f f') (hi : id.raw < f.nextDomainId)
    (hG : G.domain id → f.domains.get id = none) : f'.domains.get id = f.domains.get id := by
  -- an update of a domain that is there
  have ho : ∀ {dom : DomainId} {d d' : DomainState}, f.domains.get dom = some d →
      G.domain dom → Map.get (f.domains.insert dom d') id = f.domains.get id := by
    intro dom d d' hd hn
    rw [Map.get_insert, if_neg]
    rintro rfl
    rw [hG hn] at hd
    cases hd
  cases h with
  | domainCreated =>
    rw [Map.get_insert, if_neg]
    rintro rfl
    exact Nat.lt_irrefl _ hi
  | domainsEdited domains hed hn =>
    rcases hn id with hn | hs
    · rw [hG hn]
      cases hd : domains.get id with
      | none => rfl
      | some d =>
        obtain ⟨d0, hd0, -⟩ := hed id d hd
        rw [hG hn] at hd0
        cases hd0
    · exact hs
  | granted _ _ _ _ _ _ _ _ hd _ _ _ _ hn | derived _ _ _ _ _ _ _ hd _ _ _ _ hn =>
    exact ho hd hn
  | _ => rfl

/-- **A call changes only the domain it names and domains without a number.** -/
theorem step_confined (h : f.step op = some f') : Confined (fun id => op.names id = true) f f' := by
  let F : Footprint :=
    { domain := fun id => id.raw < f.nextDomainId → op.names id = true, numbered := False }
  have hw : op.Within F f :=
    { op.within_any f with
      domain := fun id hi _ => hi
      fresh := fun _ hl => absurd hl (Nat.lt_irrefl _) }
  refine step_invariant (F := F) id hw (fun g g' hc hg => ?_) ⟨Nat.le_refl _, fun _ _ _ => rfl⟩ h
  refine ⟨hg.next.trans hc.nextDomainId, fun id hi ho => ?_⟩
  have hs := hg.domain id hi ho
  rw [hc.domain (Nat.lt_of_lt_of_le hi hg.next) fun hn => ?_, hs]
  rw [hs]
  exact ho (hn hi)

/-- **A domain with a number changes only by a call that names it, and stays gone.** -/
theorem step_domain (hi : id.raw < f.nextDomainId)
    (ho : op.names id = true → f.domains.get id = none) (h : f.step op = some f') :
    f'.domains.get id = f.domains.get id :=
  (step_confined h).domain id hi ho

theorem step_nextDomainId (h : f.step op = some f') : f.nextDomainId ≤ f'.nextDomainId :=
  (step_confined h).next

/-- **Domains are isolated.** A domain keeps its entries along every run whose calls do not name it,
or name it only once it is gone. -/
theorem domain_isolated (hid : id.raw < f.nextDomainId)
    (hrun : Machine.Run step (fun g op => op.names id = true → g.domains.get id = none) f f') :
    f'.domains.get id = f.domains.get id := by
  refine (@Machine.Run.invariant _ _ step _ (fun g => f.nextDomainId ≤ g.nextDomainId ∧
    g.domains.get id = f.domains.get id) (fun g op g' hg ho hs => ?_) _ _ hrun
    ⟨le_rfl, rfl⟩).2
  refine ⟨hg.1.trans (step_nextDomainId hs), ?_⟩
  rw [step_domain (hid.trans_le hg.1) ho hs, hg.2]

/-- Beside a domain with a capability and a device authority another one is granted a capability and
destroyed; and once it is destroyed itself, no grant brings it back. -/
theorem domain_isolated_beside : ∃ f f1 f2 f3 : Fabric,
    (f.domains.get ⟨0⟩).any (fun d => !d.capabilities.isEmpty &&
      !d.deviceAuthorities.isEmpty) = true ∧
    Machine.Run step (fun _ op => op.names ⟨0⟩ = false) f f1 ∧ f1.domains.get ⟨1⟩ = none ∧
    f1.domains.get ⟨0⟩ = f.domains.get ⟨0⟩ ∧ f1.step (.destroyDomain ⟨0⟩) = some f2 ∧
    f2.step (.grant ⟨0⟩ ⟨0⟩ 0 16 .RW) = some f3 ∧ f3.domains.get ⟨0⟩ = none := by
  have hr : leadsTo 64 [.createDomain, .createDomain, .allocObject "a" 16 .memory,
      .placeObject ⟨0⟩ 0,
      .allocObject "d" 16 .device, .grant ⟨0⟩ ⟨0⟩ 0 16 .RW,
      .grantDeviceWithAuthorityId ⟨0⟩ ⟨1⟩ ⟨1⟩ ⟨9⟩] (fun f => decide (0 < f.nextDomainId) &&
        (f.domains.get ⟨0⟩).any (fun d => !d.capabilities.isEmpty &&
          !d.deviceAuthorities.isEmpty) &&
        (Machine.replay step (fun _ op => op.names ⟨0⟩ = false)
          [.grant ⟨1⟩ ⟨0⟩ 0 16 .RW, .destroyDomain ⟨1⟩] f).any fun f1 =>
            (f1.domains.get ⟨1⟩).isNone && (f1.step (.destroyDomain ⟨0⟩)).any fun f2 =>
              decide (0 < f2.nextDomainId) && (f2.domains.get ⟨0⟩).isNone &&
                (f2.step (.grant ⟨0⟩ ⟨0⟩ 0 16 .RW)).isSome) = true := by
    decide +kernel
  obtain ⟨f, -, hf⟩ := exists_of_replay hr
  simp only [Bool.and_eq_true, decide_eq_true_eq, Option.any_eq_true _ (Machine.replay ..),
    Option.any_eq_true _ (step ..), Option.isNone_iff_eq_none, Option.isSome_iff_exists] at hf
  obtain ⟨⟨hi, hh⟩, f1, hb, hgo, f2, hd, ⟨hi2, hn⟩, f3, hg⟩ := hf
  have hr1 := Machine.run_of_replay hb
  refine ⟨f, f1, f2, f3, hh, hr1, hgo, domain_isolated hi ?_, hd, hg, ?_⟩
  · exact Machine.Run.mono (fun _ _ ho hna => absurd hna (by simp [ho])) hr1
  · rw [domain_isolated hi2 (.single ⟨_, fun _ => hn, hg⟩), hn]

/-! ## The trace -/

/-- The phases a transaction has left. -/
def phasesLeft : TxState → Nat
  | .requested => 3
  | .authorized => 2
  | .prepared => 1
  | .committed => 0
  | .faulted => 0

theorem phasesLeft_eq_zero {s : TxState} : phasesLeft s = 0 ↔ s.isTerminal = true := by
  cases s <;> simp [phasesLeft, TxState.isTerminal]

/-- A committed transaction that does not mutate holds what it read. -/
def Answered (tx : Transaction) : Prop :=
  tx.state = .committed → tx.request.kind.mutates = false → tx.readData.isSome = true

/-- The same transaction at the same or a later phase. -/
structure Later (tx tx' : Transaction) : Prop where
  request : tx'.request = tx.request
  phases : phasesLeft tx'.state ≤ phasesLeft tx.state
  answered : Answered tx → Answered tx'

theorem Later.refl (tx : Transaction) : Later tx tx := ⟨rfl, Nat.le_refl _, id⟩

theorem Later.trans {tx1 tx2 tx3 : Transaction} (h : Later tx1 tx2) (h' : Later tx2 tx3) :
    Later tx1 tx3 where
  request := h'.request.trans h.request
  phases := Nat.le_trans h'.phases h.phases
  answered := h'.answered ∘ h.answered

/-- Every row of the trace is still there, at the same or a later phase. -/
def TraceAdvances (f f' : Fabric) : Prop :=
  ∀ (idx : Nat) (tx : Transaction), f.transactions[idx]? = some tx →
    ∃ tx', f'.transactions[idx]? = some tx' ∧ Later tx tx'

theorem TraceAdvances.of_eq (h : f'.transactions = f.transactions) : TraceAdvances f f' :=
  fun idx tx ht => ⟨tx, by rw [h, ht], .refl tx⟩

theorem TraceAdvances.trans {g : Fabric} (h : TraceAdvances f g) (h' : TraceAdvances g f') :
    TraceAdvances f f' := by
  intro idx tx ht
  obtain ⟨tx1, ht1, hlater1⟩ := h idx tx ht
  obtain ⟨tx2, ht2, hlater2⟩ := h' idx tx1 ht1
  exact ⟨tx2, ht2, hlater1.trans hlater2⟩

theorem TraceAdvances.of_append {rows : List Transaction}
    (h : f'.transactions = f.transactions ++ rows) : TraceAdvances f f' := by
  intro idx tx ht
  refine ⟨tx, ?_, .refl tx⟩
  rw [h, List.getElem?_append_left (List.getElem?_eq_some_iff.mp ht).1, ht]

theorem TraceAdvances.of_set {tx tx' : Transaction}
    (h : f'.transactions = f.transactions.set idx tx') (ht : f.transactions[idx]? = some tx)
    (hl : Later tx tx') : TraceAdvances f f' := by
  intro i row hr
  rw [h, getElem?_set_row ht]
  split
  · rename_i hi
    subst hi
    obtain rfl := Option.mem_unique ht hr
    exact ⟨tx', rfl, hl⟩
  · exact ⟨row, hr, .refl row⟩

theorem Phase.advances {idx : Nat} (h : Phase f idx tx f')
    (ht : f.transactions[idx]? = some tx) : ∃ tx', f'.transactions[idx]? = some tx' ∧
      phasesLeft tx'.state ≤ phasesLeft tx.state - 1 ∧ Later tx tx' ∧ TraceAdvances f f' := by
  have hse : ∀ {tx' : Transaction} {g : Fabric}, g.transactions = f.transactions.set idx tx' →
      tx'.request = tx.request → phasesLeft tx'.state ≤ phasesLeft tx.state - 1 → Answered tx' →
      ∃ tx', g.transactions[idx]? = some tx' ∧ phasesLeft tx'.state ≤ phasesLeft tx.state - 1 ∧
        Later tx tx' ∧ TraceAdvances f g := by
    intro tx' g hg hre hle ha
    have hl : Later tx tx' :=
      ⟨hre, Nat.le_trans hle (Nat.sub_le _ _), fun _ => ha⟩
    exact ⟨tx', by rw [hg, getElem?_set_row ht, if_pos rfl], hle, hl, .of_set hg ht hl⟩
  cases h with
  | authorized _ hs | prepared _ hs =>
    exact hse rfl rfl (by simp [hs, phasesLeft]) fun h => by cases h
  | read base stop hs => exact hse rfl rfl (by simp [phasesLeft]) fun _ _ => rfl
  | write base stop data g hs hga hk hd hln hwr =>
    have hlo : g.transactions = f.transactions := by rw [hwr.eq]
    have hw : (g.setTransaction idx { tx with state := .committed }).transactions =
        f.transactions.set idx { tx with state := .committed } := by rw [setTransaction, hlo]
    refine hse hw rfl (by simp [phasesLeft]) fun _ hr => ?_
    rw [hk] at hr
    cases hr
  | faulted r => exact hse rfl rfl (by simp [phasesLeft]) fun h => by cases h
  | done hs =>
    refine ⟨tx, ht, ?_, .refl tx, .of_eq rfl⟩
    rw [phasesLeft_eq_zero.mpr hs]

theorem submit_advances {data : Option (List UInt8)}
    (h : (f.submit req data : Res ε _) = ok (idx, f')) : TraceAdvances f f' := by
  obtain ⟨-, tx, hr, -⟩ := submit_eq_ok h
  exact .of_append hr.log

theorem advance_advances (h : (f.advance idx : Res ε _) = ok f') : TraceAdvances f f' := by
  obtain ⟨tx, ht, hp⟩ := advance_eq_ok h
  obtain ⟨-, -, -, -, ha⟩ := hp.advances ht
  exact ha

theorem faultTransaction_returns {idx : Nat} (ht : f.transactions[idx]? = some tx)
    (r : FaultReason) :
    ∃ f', (f.faultTransaction idx r : Res ε _) = ok f' := by
  simp [faultTransaction, transactionAt, ht, unwrap]

theorem phaseCommit_returns (htx : f.transactions[idx]? = some tx) :
    ∃ f', (f.phaseCommit idx tx : Res ε _) = ok f' := by
  unfold phaseCommit validatePrecommit
  cases hga : f.precommit tx with
  | ok span =>
    obtain ⟨base, stop⟩ := span
    have ha := precommit_eq_ok hga
    simp only [commitEffect]
    split
    · rename_i hk
      obtain ⟨data, hd, hl⟩ := ha.payload hk
      have hm : base + tx.request.length ≤ u64Max := ha.stop_eq ▸ ha.stop_le
      obtain ⟨g, hg⟩ := @writeSpan_of_payload f ε tx base _ data hm hd hl
      rw [ha.stop_eq, hg]
      exact ⟨_, rfl⟩
    · exact ⟨_, rfl⟩
  | err r =>
    obtain ⟨g, hg⟩ := @faultTransaction_returns f tx Fabric idx htx r
    simp [hg]
  | panic =>
    have ht : (f.precommit tx).Avoids fun _ => False := by simp [precommit, authorize]
    exact absurd hga ht.not_panic

theorem advance_returns {idx : Nat} (ht : f.transactions[idx]? = some tx) :
    ∃ f', (f.advance idx : Res ε _) = ok f' := by
  simp only [advance, transactionAt, ht, unwrap, ok_bind]
  cases tx.state with
  | requested =>
    show ∃ f', f.phaseAuthorize idx tx = ok f'
    have hto : (f.authorize tx.request).Avoids fun _ => False := by simp [authorize]
    unfold phaseAuthorize
    split
    · exact ⟨_, rfl⟩
    · exact faultTransaction_returns ht _
    · exact absurd ‹_› hto.not_panic
  | authorized =>
    show ∃ f', f.phaseTranslate idx tx = ok f'
    unfold phaseTranslate
    split
    · exact ⟨_, rfl⟩
    · exact faultTransaction_returns ht _
  | prepared => exact phaseCommit_returns ht
  | committed => exact ⟨f, rfl⟩
  | faulted => exact ⟨f, rfl⟩

theorem executeAtomicXchg_advances {data : List UInt8}
    (h : Leaves f (.executeAtomicXchg req data) f') : TraceAdvances f f' := by
  rcases mapErr_snd_left h with ⟨old, h⟩ | ⟨r, h⟩
  · obtain ⟨tx, hl, -⟩ := executeAtomicXchg_row h
    exact .of_append hl
  · obtain ⟨-, tx, hl, -⟩ := executeAtomicXchg_logged h
    exact .of_append hl

theorem Change.advances (hx : ¬ G.exchange) (hd : ¬ G.discard) (h : Change G f f') :
    TraceAdvances f f' := by
  cases h with
  | submitted => exact .of_append rfl
  | authorized _ tx _ ht hs | prepared _ tx _ ht hs =>
    exact .of_set rfl ht ⟨rfl, by simp [hs, phasesLeft], fun _ h => by cases h⟩
  | faulted _ tx _ _ ht => exact .of_set rfl ht ⟨rfl, Nat.zero_le _, fun _ h => by cases h⟩
  | readCommitted _ tx _ _ ht => exact .of_set rfl ht ⟨rfl, Nat.zero_le _, fun _ _ _ => rfl⟩
  | writeCommitted _ tx _ _ _ _ ht _ _ _ _ _ _ hk =>
    refine .of_set rfl ht ⟨rfl, Nat.zero_le _, fun _ _ hr => ?_⟩
    rw [hk.resolve_right hx] at hr
    cases hr
  | traceCleared => exact absurd ‹_› hd
  | _ => exact .of_eq rfl

/-- **A call that does not discard the trace only takes its rows on.** An exchange commits a row of
its own, whatever its kind is. -/
theorem step_advances (hc : ¬ op.ClearsTrace) (h : f.step op = some f') : TraceAdvances f f' := by
  by_cases hx : ∃ req data, op = .executeAtomicXchg req data
  · obtain ⟨req, data, rfl⟩ := hx
    exact executeAtomicXchg_advances (step_eq_some.mp h)
  · let F : Footprint := { exchange := False, discard := False, numbered := False }
    have hw : op.Within F f :=
      { op.within_any f with
        exchange := fun req data heq => hx ⟨req, data, heq⟩, discard := hc }
    exact @step_invariant f f' op (TraceAdvances f) F id hw
      (fun g g' hch hg => hg.trans (hch.advances id id)) (.of_eq rfl) h

theorem Change.committed_row (hd : ¬ G.discard) (hdo : tx.state = .committed) (h : Change G f f')
    (ht : f.transactions[idx]? = some tx) : f'.transactions[idx]? = some tx := by
  have hse : ∀ {i : Nat} {row row' : Transaction}, f.transactions[i]? = some row →
      row.state ≠ .committed → (f.transactions.set i row')[idx]? = some tx := by
    intro i row row' hr hn
    rw [getElem?_set_row hr, if_neg, ht]
    rintro rfl
    exact hn (Option.mem_unique ht hr ▸ hdo)
  cases h with
  | submitted => rw [List.getElem?_append_left (List.getElem?_eq_some_iff.mp ht).1, ht]
  | authorized _ _ _ hr hs | prepared _ _ _ hr hs | readCommitted _ _ _ _ hr hs
  | writeCommitted _ _ _ _ _ _ hr hs => exact hse hr (by simp [hs])
  | faulted _ _ _ _ hr hn => exact hse hr hn
  | traceCleared => exact absurd ‹_› hd
  | _ => exact ht

/-- **Commits are final.** A committed transaction keeps its whole row, what it read included, along
every run that does not discard the trace. -/
theorem commit_final (htx : f.transactions[idx]? = some tx) (hdone : tx.state = .committed)
    (hrun : Machine.Run step (fun _ op => ¬ op.ClearsTrace) f f') :
    f'.transactions[idx]? = some tx := by
  refine @Machine.Run.invariant _ _ step _ (fun g => g.transactions[idx]? = some tx)
    (fun g op g' hg ho hs => ?_) _ _ hrun htx
  let F : Footprint := { discard := False, numbered := False }
  exact step_invariant (F := F) id { op.within_any g with discard := ho }
    (fun _ _ hc => hc.committed_row id hdone) hg hs

/-- A read keeps what it read though its object is revoked. -/
theorem commit_final_read : ∃ (f f' : Fabric) (tx : Transaction), tx.readData.isSome = true ∧
    f.step (.revoke ⟨0⟩) = some f' ∧ f'.transactions[0]? = some tx := by
  have hru : leadsTo 64 (beforeSeal ++ [.grant ⟨0⟩ ⟨0⟩ 0 16 .READ, .executeRead readingExchange])
      (fun f => f.transactions[0]?.any fun tx =>
        tx.readData.isSome && decide (tx.state = .committed)) = true := by
    decide +kernel
  obtain ⟨f, -, hf⟩ := exists_of_replay hru
  simp only [Option.any_eq_true, Bool.and_eq_true, decide_eq_true_eq] at hf
  obtain ⟨tx, ht, hr, hd⟩ := hf
  exact ⟨f, _, tx, hr, rfl, commit_final ht hd (.single ⟨.revoke ⟨0⟩, id, rfl⟩)⟩

end Fabric

end Anka
