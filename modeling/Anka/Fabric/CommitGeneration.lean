import Anka.Fabric.CommitPlace
import Anka.Fabric.WriteXorExecute

/-!
# At which generation a commit happens

`phase_authorize` records the generation it authorized at. The commit authorizes again and does not
compare with it, so a capability that is minted into the domain in between can stand in for the one
that a seal has made stale (`commit_at_other_generation`).

Under the condition that no mint puts into a domain a capability that covers a transaction in flight
of that domain at another generation than the recorded one (`keepsRecorded`), a commit happens at
the recorded generation, in every interleaving of any calls. The reason is that generations of
capabilities are not ahead of their objects (`Ceiling`): what covers a transaction when it is
authorized has the recorded generation, or has been stale since a seal.

The two DMA delegations need no condition: their domain is new, so no transaction in flight is of
it.
-/

namespace Anka

open Rust Res List Option

/-- Between authorization and commit. -/
def Transaction.inFlight (tx : Transaction) : Bool :=
  decide (tx.state = .authorized) || decide (tx.state = .prepared)

variable {tx : Transaction}

namespace Fabric

variable {G : Guard} {f f' : Fabric}

/-! ## The condition -/

/-- The capability, put into the domain, agrees with what its transactions in flight recorded. -/
def agrees (txs : List Transaction) (domain : DomainId) (cap : Capability64) : Bool :=
  txs.all fun tx => !(tx.inFlight && decide (tx.request.context.domain = domain) &&
    grantsRequest tx.request cap) || decide (tx.authGeneration = some cap.generation)

/-- The call mints no capability that disagrees with a transaction in flight. -/
def keepsRecorded (f : Fabric) : FabricOp → Bool
  | .grant domain object offset length perms => (f.objects.get object).all fun obj =>
      agrees f.transactions domain (rootOf obj object offset length perms)
  | .grantWithAuthorityId domain object offset length perms _ =>
    (f.objects.get object).all fun obj =>
      agrees f.transactions domain (rootOf obj object offset length perms)
  | .derive domain parent offset length perms =>
      agrees f.transactions domain (childOf parent offset length perms)
  | .deriveFromAuthorityId src source dst offset length perms _ =>
      (f.authorityEntry src source).all fun e =>
        agrees f.transactions dst (childOf e.cap offset length perms)
  | _ => true

variable {dom : DomainId} {g : Generation} {idx : Nat}

theorem agrees_iff {txs : List Transaction} {cap : Capability64} :
    agrees txs dom cap = true ↔ ∀ tx ∈ txs, tx.inFlight = true →
      tx.request.context.domain = dom → grantsRequest tx.request cap = true →
      tx.authGeneration = some cap.generation := by
  unfold agrees
  rw [List.all_eq_true]
  constructor
  · intro h tx htx hf hd hco
    have htx' := h tx htx
    simpa [hf, hd, hco] using htx'
  · intro h tx htx
    by_cases hc : tx.inFlight = true ∧ tx.request.context.domain = dom ∧
        grantsRequest tx.request cap = true
    · simp [h tx htx hc.1 hc.2.1 hc.2.2]
    · simp only [Bool.or_eq_true, Bool.not_eq_true', decide_eq_true_eq]
      refine .inl (Bool.eq_false_iff.mpr fun ht => hc ?_)
      simp only [Bool.and_eq_true, decide_eq_true_eq] at ht
      exact ⟨ht.1.1, ht.1.2, ht.2⟩

/-- The guard on changes that `keepsRecorded` puts on calls. -/
def Guard.keepsRecorded : Guard :=
  { grant := fun txs domain cap => agrees txs domain cap = true
    derive := fun txs domain cap => agrees txs domain cap = true }

/-! ## Generations of capabilities -/

/-- A capability of a generation other than the first names an object that is not `Active`, now or
later. -/
def Ceiling (f : Fabric) : Prop :=
  ∀ cap, f.Presentable cap → cap.generation ≠ ⟨0⟩ → Frozen cap.object f

theorem Change.ceiling (hG : G.numbered) (hc : Change G f f') (hi : Identities f)
    (hwx : WriteXorExecute f) (h : Ceiling f) : Ceiling f' := by
  intro cap hca hg
  rcases hc.presentable hG hca with
    hold | ⟨_, obj, o, _, _, _, rfl, ho, -, -⟩ | ⟨p, hp, hw⟩
  · exact hc.frozen (h cap hold hg)
  · -- granted over an object that is past generation 0, hence not active
    refine hc.frozen ⟨hi.objects o obj ho, fun obj' hob' => ?_⟩
    obtain rfl := mem_unique ho hob'
    exact fun ha => hg (hwx.active o obj ho ha)
  · rw [hw.object]
    exact hc.frozen (h p hp (hw.generation ▸ hg))

/-! ## What transactions in flight recorded -/

/-- Every capability of the transaction's domain that covers it has the recorded generation, or the
first one while its object is past it for good. -/
def AtGeneration (f : Fabric) (tx : Transaction) : Prop :=
  ∃ g, tx.authGeneration = some g ∧ tx.request.context.domain.raw < f.nextDomainId ∧
    ∀ d e, f.domains.get tx.request.context.domain = some d → e ∈ d.capabilities →
      grantsRequest tx.request e.cap = true →
      e.cap.generation = g ∨ e.cap.generation = ⟨0⟩ ∧ Frozen tx.request.object f

/-- What is in flight has the generation it was authorized in. -/
def Recorded (f : Fabric) : Prop := ∀ tx ∈ f.transactions, tx.inFlight = true → AtGeneration f tx

theorem AtGeneration.change (hc : Change Guard.keepsRecorded f f') (ht : tx ∈ f.transactions)
    (hf : tx.inFlight = true) (h : AtGeneration f tx) : AtGeneration f' tx := by
  obtain ⟨g, hg, hdo, hca⟩ := h
  refine ⟨g, hg, Nat.lt_of_lt_of_le hdo hc.nextDomainId, fun d' e hd' he hco => ?_⟩
  have hn (ha : agrees f.transactions tx.request.context.domain e.cap = true) :
      e.cap.generation = g :=
    some.inj ((agrees_iff.mp ha tx ht hf rfl hco).symm.trans hg)
  rcases hc.entry hd' he with
    ⟨d, hd, hold⟩ | ⟨_, _, _, _, _, -, -, -, ha, -⟩ | ⟨_, -, -, ha⟩
  · exact (hca d e hd hold hco).imp_right fun hs => ⟨hs.1, hc.frozen hs.2⟩
  · exact .inl (hn ha)
  · exact .inl (hn ha)

theorem authorized_atGeneration (hi : Identities f) (hw : WriteXorExecute f)
    (hc : Ceiling f) (hn : Numbered f) (ha : f.authorize tx.request = ok g) :
    AtGeneration f { tx with authGeneration := some g, state := .authorized } := by
  obtain ⟨obj, ho, hl, rfl, -⟩ := authorize_object ha
  obtain ⟨cap, ⟨d0, e0, hd0, -⟩, -⟩ := authorize_eq_ok ha
  refine ⟨obj.generation, rfl, hn _ d0 hd0, fun d e hd he hco => ?_⟩
  have hp : f.Presentable e.cap := .inr ⟨_, d, e, hd, he, rfl⟩
  have hsa : e.cap.object = tx.request.object := (Capability64.covers_iff.mp hco).1
  rcases ObjectState.isLive_iff.mp hl with hac | hs
  · -- an active object has no capability of a later generation
    rw [hw.active _ obj ho hac]
    by_contra hother
    have hf := hc e.cap hp fun hz => hother (.inl hz)
    exact hf.2 obj (hsa ▸ ho) hac
  · -- a sealed one has capabilities of generation 1, and stale ones of generation 0
    rw [hw.sealed _ obj ho hs]
    rcases hw.caps e.cap hp with ⟨hz, -⟩ | ⟨hon, -⟩
    · refine .inr ⟨hz, hi.objects _ obj ho, fun obj' hob' => ?_⟩
      obtain rfl := mem_unique ho hob'
      simp [hs]
    · exact .inl hon

theorem Change.recorded (hch : Change Guard.keepsRecorded f f') (hi : Identities f)
    (hw : WriteXorExecute f) (hc : Ceiling f) (hn : Numbered f) (h : Recorded f) : Recorded f' := by
  have hk : ∀ tx ∈ f.transactions, tx.inFlight = true → AtGeneration f' tx :=
    fun tx ht hf => (h tx ht hf).change hch ht hf
  -- one row is written
  have hs : ∀ {idx tx}, f'.transactions = f.transactions.set idx tx →
      (tx.inFlight = true → AtGeneration f' tx) → Recorded f' := by
    intro idx tx htxs hne tx' ht' hf
    rw [htxs] at ht'
    rcases mem_or_eq_of_mem_set ht' with hold | rfl
    · exact hk tx' hold hf
    · exact hne hf
  cases hch with
  | submitted tx _ hst =>
    intro tx' ht' hf
    rcases mem_append.mp ht' with hold | hne
    · exact hk tx' hold hf
    · rw [mem_singleton.mp hne] at hf
      simp [Transaction.inFlight, hst] at hf
  | authorized idx tx g ht _ ha =>
    have hat := authorized_atGeneration hi hw hc hn ha
    exact hs rfl fun _ => hat
  | prepared idx tx p ht hst _ =>
    -- the row keeps its request and what it recorded
    exact hs rfl fun _ =>
      hk tx (mem_of_getElem? ht) (by simp [Transaction.inFlight, hst])
  | faulted | readCommitted | writeCommitted =>
    exact hs rfl fun hf => by simp [Transaction.inFlight] at hf
  | traceCleared => exact fun _ ht => by cases ht
  | _ => exact hk

theorem Recorded.agrees_next (h : Recorded f) (cap : Capability64) :
    agrees f.transactions ⟨f.nextDomainId⟩ cap = true := by
  refine agrees_iff.mpr fun tx ht hf hd _ => ?_
  obtain ⟨_, -, hl, -⟩ := h tx ht hf
  rw [hd] at hl
  exact absurd hl (Nat.lt_irrefl _)

theorem keepsRecorded_meets {op : FabricOp} (hr : Recorded f) (h : f.keepsRecorded op = true) :
    op.Meets Guard.keepsRecorded f := by
  refine ⟨?_, op.within_any f⟩
  cases op with
  | grant | grantWithAuthorityId =>
    intro obj ho
    simpa [keepsRecorded, Guard.keepsRecorded, ho] using h
  | derive dom p o l pe => exact h
  | deriveFromAuthorityId src s dst o l pe id =>
    intro e he
    simpa [keepsRecorded, Guard.keepsRecorded, he] using h
  | delegateDmaSpan | delegateDmaSpanFromAuthorityId => exact fun p => hr.agrees_next _
  | _ => simp [FabricOp.Abides, Guard.keepsRecorded]

/-- What a run of calls under the condition keeps. -/
structure Generations (f : Fabric) : Prop where
  identities : Identities f
  writeXorExecute : WriteXorExecute f
  numbered : Numbered f
  ceiling : Ceiling f
  recorded : Recorded f

theorem Change.keepsGenerations (hc : Change Guard.keepsRecorded f f') (h : Generations f) :
    Generations f' where
  identities := hc.identities h.identities
  writeXorExecute := hc.writeXorExecute trivial h.writeXorExecute
  numbered := hc.numbered h.numbered
  ceiling := hc.ceiling trivial h.identities h.writeXorExecute h.ceiling
  recorded := hc.recorded h.identities h.writeXorExecute h.ceiling h.numbered h.recorded

theorem Fresh.generations (h : Fresh f) : Generations f where
  identities := h.identities
  writeXorExecute := h.writeXorExecute
  numbered := by
    intro dom d hd
    rw [h.domains, Map.get_empty] at hd
    cases hd
  ceiling := by
    intro cap hc
    obtain ⟨_, _, hr, -⟩ := h.noAmplification cap hc
    rw [h.history] at hr
    cases hr
  recorded := by
    intro tx ht
    rw [h.transactions] at ht
    cases ht

theorem generations_of_run
    (h : Machine.ReachableIf step (fun f op => f.keepsRecorded op = true) Constructed f) :
    Generations f :=
  reachableIf_invariant (fun _ _ hg ho => keepsRecorded_meets hg.recorded ho)
    (fun _ _ hc hg => hc.keepsGenerations hg) (fun _ hg => hg.generations) h

/-! ## The law -/

theorem Recorded.authorized (h : Recorded f) (hw : WriteXorExecute f)
    (ht : tx ∈ f.transactions) (hf : tx.inFlight = true)
    (ha : f.authorize tx.request = ok g) :
    ∃ obj, f.objects.get tx.request.object = some obj ∧
      tx.authGeneration = some obj.generation := by
  obtain ⟨g0, hg0, -, hca⟩ := h tx ht hf
  obtain ⟨cap, ⟨d, e, hd, he, rfl, hco, hv⟩, -⟩ := authorize_eq_ok ha
  obtain ⟨ho, -⟩ := Capability64.covers_iff.mp hco
  obtain ⟨-, obj, hc⟩ := validate_eq_true.mp hv
  have hob : f.objects.get tx.request.object = some obj := ho ▸ hc.object
  refine ⟨obj, hob, ?_⟩
  rcases hca d e hd he hco with hs | ⟨hz, hfr⟩
  · rw [hg0, ← hs, hc.generation]
  · -- a capability of generation 0 does not validate over a sealed object
    exfalso
    rcases ObjectState.isLive_iff.mp hc.live with hac | hsl
    · exact hfr.2 obj hob hac
    · have hon := hc.generation.trans (hw.sealed _ obj hc.object hsl)
      rw [hz] at hon
      cases hon

theorem Phase.refused {tx' : Transaction} (h : Phase f idx tx f')
    (ht : f.transactions[idx]? = some tx) (ht' : f'.transactions[idx]? = some tx')
    (hp : tx.state = .prepared) (hn : ∀ g, f.authorize tx.request ≠ ok g) :
    tx'.state = .faulted ∧ f'.memory = f.memory := by
  cases h with
  | authorized _ hs | prepared _ hs =>
    rw [hp] at hs
    cases hs
  | done hs =>
    rw [hp] at hs
    cases hs
  | read _ _ _ hg | write _ _ _ _ _ hg =>
    obtain ⟨g, ha⟩ := hg.authorized
    exact absurd ha (hn g)
  | faulted r =>
    rw [faultedWith, getElem?_set_row ht, if_pos rfl] at ht'
    rw [← some.inj ht']
    exact ⟨rfl, rfl⟩

/-- **A commit happens at the recorded generation**, in every run whose mints agree with the
transactions in flight of their domain. When a phase takes a transaction to `Committed`, its object
has the generation that the authorization recorded; and a prepared transaction whose object has
another generation, or is gone, faults and leaves memory as it is. -/
theorem commit_at_recorded_generation {idx : Nat} {tx tx' : Transaction}
    (hreach : Machine.ReachableIf step (fun f op => f.keepsRecorded op = true) Constructed f)
    (hstep : f.step (.advance idx) = some f') (htx : f.transactions[idx]? = some tx)
    (htx' : f'.transactions[idx]? = some tx') :
    (tx.state ≠ .committed → tx'.state = .committed →
      ∃ obj, f.objects.get tx.request.object = some obj ∧ tx.authGeneration = some obj.generation) ∧
    (tx.state = .prepared →
      (∀ obj, f.objects.get tx.request.object = some obj →
        tx.authGeneration ≠ some obj.generation) →
      tx'.state = .faulted ∧ f'.memory = f.memory) := by
  have hg := generations_of_run hreach
  have hph := phase_of_step hstep htx
  have hm := mem_of_getElem? htx
  refine ⟨fun hb haf => ?_, fun hp ho => ?_⟩
  · obtain ⟨hp, base, stop, hga, -⟩ := hph.commits htx htx' hb haf
    obtain ⟨g, ha⟩ := hga.authorized
    exact hg.recorded.authorized hg.writeXorExecute hm (by simp [Transaction.inFlight, hp]) ha
  · refine hph.refused htx htx' hp fun g ha => ?_
    obtain ⟨obj, hob, hs⟩ := hg.recorded.authorized hg.writeXorExecute hm
      (by simp [Transaction.inFlight, hp]) ha
    exact ho obj hob hs

/-! ## Both sides of the condition -/

/-- An authorized read of the first bytes of object 0, at generation 0. -/
def authorizedRead : List FabricOp :=
  [.allocObject "a" 16 .memory, .placeObject ⟨0⟩ 0, .createDomain, .grant ⟨0⟩ ⟨0⟩ 0 16 .READ,
    .submit readingExchange none, .advance 0]

/-- Without a seal in between the read commits at generation 0. -/
theorem commit_at_recorded_generation_read : ∃ (f f' : Fabric) (tx : Transaction) (obj : Object),
    f.step (.advance 0) = some f' ∧ f.transactions[0]? = some tx ∧ tx.state = .prepared ∧
    f.objects.get tx.request.object = some obj ∧ tx.authGeneration = some obj.generation := by
  have hru : (Fabric.new exactHost 64).isOkAnd (fun f =>
      (Machine.replay step (fun f op => f.keepsRecorded op = true)
        (authorizedRead ++ [.advance 0]) f).any fun f =>
          (f.step (.advance 0)).any fun f' => f.transactions[0]?.any fun tx =>
            f'.transactions[0]?.any fun tx' => decide (tx.state = .prepared ∧
              tx'.state = .committed)) = true := by
    decide +kernel
  obtain ⟨f, hr, hf⟩ := exists_of_replay hru
  simp only [Option.any_eq_true, decide_eq_true_eq] at hf
  obtain ⟨f', hs, tx, ht, tx', ht', hp, ha⟩ := hf
  obtain ⟨obj, ho, hsa⟩ :=
    (commit_at_recorded_generation hr hs ht ht').1 (by simp [hp]) ha
  exact ⟨f, f', tx, obj, hs, ht, hp, ho, hsa⟩

/-- **A commit happens at another generation.** The read is authorized at generation 0, a seal makes
its capability stale, a new grant covers it at generation 1, and the read commits. -/
theorem commit_at_other_generation : ∃ (f f' : Fabric) (tx tx' : Transaction) (obj : Object),
    Reachable f ∧ f.step (.advance 0) = some f' ∧ f.transactions[0]? = some tx ∧
    f'.transactions[0]? = some tx' ∧ tx.state = .prepared ∧ tx'.state = .committed ∧
    f.objects.get tx.request.object = some obj ∧ tx.authGeneration = some ⟨0⟩ ∧
    obj.generation = ⟨1⟩ := by
  have hru : leadsTo 64
      (authorizedRead ++ [.sealObject ⟨0⟩, .grant ⟨0⟩ ⟨0⟩ 0 16 .READ, .advance 0]) (fun f =>
        (f.step (.advance 0)).any fun f' => f.transactions[0]?.any fun tx =>
          f'.transactions[0]?.any fun tx' => (f.objects.get tx.request.object).any fun obj =>
            decide (tx.state = .prepared ∧ tx'.state = .committed ∧
              tx.authGeneration = some ⟨0⟩ ∧ obj.generation = ⟨1⟩)) = true := by
    decide +kernel
  obtain ⟨f, hre, hf⟩ := exists_of_replay hru
  simp only [Option.any_eq_true, decide_eq_true_eq] at hf
  obtain ⟨f', hs, tx, ht, tx', ht', obj, ho, hp, ha, hr, hg⟩ := hf
  exact ⟨f, f', tx, tx', obj, hre, hs, ht, ht', hp, ha, ho, hr, hg⟩

end Fabric

end Anka
