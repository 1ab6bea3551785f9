import Anka.Fabric.HeapRefine

/-!
# Fabric calls are chains of atomic changes

One lemma per call that writes; `run_changes` collects them. The calls that create a domain and fill
it assume that domain numbers in use are below the counter (`Numbered`), which every change keeps.
-/

namespace Anka

open Rust Res List Option

variable {base : Nat} {tx : Transaction}

namespace Fabric

variable {G : Guard} {f f' : Fabric} {id ob : ObjectId} {domain : DomainId}
  {source : AuthorityId} {off len : Nat} {perms : Permissions} {cap : Capability64}
  {data : List UInt8} {req : MemoryRequest}

/-! ## Domain numbers -/

/-- Domain numbers in use were handed out. -/
def Numbered (f : Fabric) : Prop :=
  ∀ domain d, f.domains.get domain = some d → domain.raw < f.nextDomainId

theorem Change.nextDomainId (h : Change G f f') : f.nextDomainId ≤ f'.nextDomainId := by
  cases h with
  | domainCreated => exact Nat.le_succ _
  | _ => exact Nat.le_refl _

theorem Change.numbered (hc : Change G f f') (h : Numbered f) : Numbered f' := by
  cases hc with
  | domainCreated =>
    intro domain d hd
    rw [Map.get_insert] at hd
    split at hd
    · rename_i heq
      subst heq
      exact Nat.lt_succ_self f.nextDomainId
    · exact Nat.lt_succ_of_lt (h domain d hd)
  | domainsEdited dom hed =>
    intro domain d hd
    obtain ⟨d0, hd0, -⟩ := hed domain d hd
    exact h domain d0 hd0
  | granted domain d _ _ _ _ _ _ hdo | derived domain d _ _ _ _ _ hdo =>
    intro domain' d' hd'
    rw [Map.get_insert] at hd'
    split at hd'
    · rename_i heq
      exact heq ▸ h domain d hdo
    · exact h domain' d' hd'
  | _ => exact h

/-! ## Objects -/

theorem nextFreshObjectId_eq_some (h : f.nextFreshObjectId = some id) :
    id.raw = f.nextObjectId ∧ f.objects.get id = none ∧ f.placement.get id = none := by
  unfold nextFreshObjectId at h
  dsimp only at h
  split at h
  · cases h
  · rename_i hf
    cases h
    simp only [Bool.or_eq_true, not_or, isNone_iff_eq_none, Bool.not_eq_true,
      isSome_eq_false_iff] at hf
    exact ⟨rfl, hf.1.1.2, hf.1.2⟩

theorem authorityEntry_presentable {ta : AuthorityId} {e : CapabilityEntry}
    (h : f.authorityEntry domain ta = some e) :
    ∃ d, f.domains.get domain = some d ∧ e ∈ d.capabilities := by
  obtain ⟨d, hd, he⟩ := bind_eq_some_iff.mp h
  exact ⟨d, hd, mem_of_find?_eq_some he⟩

variable {size : Nat} {authorityId : AuthorityId} {src dst : DomainId} {new : AuthorityId}
  {generation : Generation} {p : ScopedPointer} {s t u : ScopedPointers} {wr : Bool}
  {owner : Nat} {regs : List Registration} {address : Nat} {op : FabricOp}
  {inv : Fabric → Prop}

theorem tryAllocObject_changes {name : String} {kind : ObjectKind}
    (h : f.tryAllocObject name size kind = ok (id, f')) : Changes G f f' := by
  simp only [tryAllocObject, eq_ok] at h
  obtain ⟨id', hi, _, ⟨-, rfl⟩, rfl, rfl⟩ := h
  obtain ⟨hr, ho, hp⟩ := nextFreshObjectId_eq_some hi
  rw [hr]
  exact .single (.allocated f id' _ hr rfl rfl ho hp)

theorem placeObject_changes (id : ObjectId) (base : Nat) (hg : G.relocate f id base) :
    Changes G f (f.placeObject id base).2 := by
  unfold placeObject
  split
  · exact .refl
  split
  · exact .refl
  rename_i obj ho
  split
  · exact .refl
  rename_i newEnd hen
  obtain ⟨hma, rfl⟩ := checkedAdd_eq_some.mp hen
  split
  · exact .refl
  rename_i hp
  split
  · exact .refl
  rename_i hs
  refine .single (.placed f id base obj ho hma (by simpa using hp) ?_ hg)
  intro id' base' obj' hne hpl' ho' hli hen' hm
  have hc := Map.any_eq_false.mp (Bool.not_eq_true _ ▸ hs) id' base' hpl'
  simp only [collides, ho', hli, checkedAdd_eq_some.mpr ⟨hen', rfl⟩, any_some,
    Bool.true_and, Bool.and_eq_false_iff, bne_eq_false_iff_eq, decide_eq_false_iff_not] at hc
  rcases hc with heq | hl | hl
  · exact hne heq
  · exact hl hm.1
  · exact hl hm.2

theorem revoke_changes (id : ObjectId) : Changes G f (f.revoke id) := by
  unfold revoke
  split
  · exact .refl
  · exact .single (.revoked f id)

theorem sealObject_changes (id : ObjectId) : Changes G f (f.sealObject id).2 := by
  unfold sealObject
  split
  · exact .refl
  split
  · exact .refl
  rename_i obj ho
  split
  · exact .refl
  · rename_i ha
    exact .single (.sealed f id obj ho (not_not.mp ha))

theorem destroyObject_changes (id : ObjectId) : Changes G f (f.destroyObject id) := by
  unfold destroyObject
  split
  · exact .refl
  · exact .single (.destroyed f id)

theorem rollbackUnpublishedObject_changes (h : f.rollbackUnpublishedObject id = ok f') :
    Changes G f f' := by
  simp only [rollbackUnpublishedObject, eq_ok] at h
  obtain ⟨-, ⟨-, hne⟩, obj, ho, ha, -, ⟨hdo, ht, -⟩, rfl⟩ := h
  refine .single (.rolledBack f id obj ho ha hne (fun domain d e hd he => ?_) (fun tx htx => ?_))
  · have hc := Map.any_eq_false.mp hdo domain d hd
    rw [Bool.or_eq_false_iff] at hc
    simpa using any_eq_false.mp hc.1 e he
  · simpa using any_eq_false.mp ht tx htx

/-! ## Domains -/

variable {ε : Type}

theorem createDomain_changes {id : DomainId} (hna : G.domain ⟨f.nextDomainId⟩)
    (h : (f.createDomain : Res ε _) = ok (id, f')) : Changes G f f' := by
  simp only [createDomain, eq_ok] at h
  obtain ⟨_, ⟨-, rfl⟩, -, rfl⟩ := h
  exact .single (.domainCreated f hna)

theorem destroyDomain_changes {id : DomainId} (hna : G.domain id) :
    Changes G f (f.destroyDomain id) := by
  refine .single (.domainsEdited f _ (fun domain d hd => ?_) fun domain => ?_)
  · rw [Map.get_erase] at hd
    split at hd
    · cases hd
    · exact ⟨d, hd, fun _ he => he⟩
  · rw [Map.get_erase]
    split
    · rename_i heq
      exact .inl (heq ▸ hna)
    · exact .inr rfl

theorem rewritten_changes {d d' : DomainState} (hd : f.domains.get domain = some d)
    (hs : ∀ e ∈ d'.capabilities, e ∈ d.capabilities) (hna : G.domain domain) :
    Changes G f { f with domains := f.domains.insert domain d' } := by
  refine .single (.domainsEdited f _ (fun domain' e he => ?_) fun domain' => ?_)
  · rw [Map.get_insert] at he
    split at he
    · rename_i heq
      cases he
      exact ⟨d, heq ▸ hd, hs⟩
    · exact ⟨e, he, fun _ h => h⟩
  · rw [Map.get_insert]
    split
    · rename_i heq
      exact .inl (heq ▸ hna)
    · exact .inr rfl

theorem removeByAuthorityId_changes (ta : AuthorityId) (hna : G.domain domain) :
    Changes G f (f.removeByAuthorityId domain ta).2 := by
  unfold removeByAuthorityId
  split
  · exact .refl
  rename_i d hd
  split
  · exact rewritten_changes hd (fun e he => mem_of_mem_eraseIdx he) hna
  split
  · exact rewritten_changes hd (fun e he => he) hna
  · exact .refl

theorem pushDeviceAuthority_changes {en : DeviceAuthorityEntry} (hna : G.domain domain)
    (h : f.pushDeviceAuthority domain en = ok f') : Changes G f f' := by
  simp only [pushDeviceAuthority, eq_ok] at h
  obtain ⟨d, hd, rfl⟩ := h
  exact rewritten_changes hd (fun _ he => he) hna

theorem grantDeviceWithAuthorityId_changes {r : DeviceRights} (hna : G.domain domain)
    (h : f.grantDeviceWithAuthorityId domain ob r authorityId = ok f') : Changes G f f' := by
  simp only [grantDeviceWithAuthorityId, bind_eq_ok] at h
  obtain ⟨_, -, _, -, _, -, _, -, _, -, h⟩ := h
  exact pushDeviceAuthority_changes hna h

theorem deriveDeviceFromAuthorityId_changes {r c : DeviceRights}
    {re : ObjectId × Generation × DeviceRights} (hna : G.domain dst)
    (h : f.deriveDeviceFromAuthorityId src source ob generation r dst c new = ok (re, f')) :
    Changes G f f' := by
  simp only [deriveDeviceFromAuthorityId, eq_ok] at h
  obtain ⟨_, -, _, -, -, _, -, -, -, -, g, h, -, rfl⟩ := h
  exact pushDeviceAuthority_changes hna h

/-! ## Mints -/

theorem mintRoot_changes {obj : Object} {authorityId : Option AuthorityId}
    (ho : f.objects.get ob = some obj)
    (hg : G.grant f.transactions domain (rootOf obj ob off len perms))
    (hna : G.domain domain)
    (h : f.mintRoot domain obj ob off len perms authorityId = ok (cap, f')) :
    Changes G f f' := by
  simp only [mintRoot, pushCapability, eq_ok] at h
  obtain ⟨hgr, hl, hof, _, ⟨d, hd, rfl⟩, -, rfl⟩ := h
  exact .single (.granted f domain d obj ob off len perms authorityId hd ho hgr
    (by omega) hg hna)

theorem grant_changes (hm : (FabricOp.grant domain ob off len perms).Abides G f)
    (hna : G.domain domain) (h : f.grant domain ob off len perms = ok (cap, f')) :
    Changes G f f' := by
  simp only [grant, eq_ok] at h
  obtain ⟨-, -, obj, ho, -, hmi⟩ := h
  exact mintRoot_changes ho (hm obj ho) hna hmi

theorem grantWithAuthorityId_changes (hm :
    (FabricOp.grantWithAuthorityId domain ob off len perms authorityId).Abides G f)
    (hna : G.domain domain)
    (h : f.grantWithAuthorityId domain ob off len perms authorityId = ok (cap, f')) :
    Changes G f f' := by
  simp only [grantWithAuthorityId, eq_ok] at h
  obtain ⟨-, -, obj, ho, -, -, hmi⟩ := h
  exact mintRoot_changes ho (hm obj ho) hna hmi

theorem derive_changes {pa : Capability64} (hp : G.numbered → f.Presentable pa)
    (hg : G.derive f.transactions domain (childOf pa off len perms)) (hnm : G.domain domain)
    (h : f.derive domain pa off len perms = ok (cap, f')) : Changes G f f' := by
  simp only [derive, pushCapability, eq_ok] at h
  obtain ⟨-, _, -, -, hv, hna, _, ⟨d, hd, rfl⟩, -, rfl⟩ := h
  exact .single (.derived f domain d pa off len perms none hd hp hv hna hg hnm)

theorem deriveFromAuthorityId_changes
    (hm : (FabricOp.deriveFromAuthorityId src source dst off len perms new).Abides G f)
    (hnm : G.domain dst)
    (h : f.deriveFromAuthorityId src source dst off len perms new = ok (cap, f')) :
    Changes G f f' := by
  simp only [deriveFromAuthorityId, pushCapability, eq_ok] at h
  obtain ⟨e, he, -, _, -, -, hv, -, hna, -, _, ⟨d, hd, rfl⟩, -, rfl⟩ := h
  obtain ⟨d0, hd0, hme⟩ := authorityEntry_presentable he
  exact .single (.derived f dst d e.cap off len perms (some new) hd
    (fun _ => .inr ⟨src, d0, e, hd0, hme, rfl⟩) hv hna (hm e he) hnm)

section

variable (hn : G.numbered → Numbered f)
include hn

theorem deriveIntoFresh_changes {d : DomainState} {e : CapabilityEntry}
    (hd : f.domains.get domain = some d) (he : e ∈ d.capabilities)
    (hgu : G.derive f.transactions ⟨f.nextDomainId⟩ (childOf e.cap off len perms))
    (hf : G.domain ⟨f.nextDomainId⟩) :
    (f.deriveIntoFresh e.cap off len perms).Ends (fun r => Changes G f r.2)
      (Changes G f) := by
  have hcr : ∀ {id : DomainId} {g : Fabric}, (f.createDomain : Res Fabric _) = ok (id, g) →
      Changes G f g ∧ (G.numbered → g.Presentable e.cap) ∧ id = ⟨f.nextDomainId⟩ ∧
        g.transactions = f.transactions := by
    intro id g hg
    refine ⟨createDomain_changes hf hg, ?_⟩
    simp only [createDomain, eq_ok] at hg
    obtain ⟨_, -, rfl, rfl⟩ := hg
    refine ⟨fun hnu => .inr ⟨domain, d, e, ?_, he, rfl⟩, rfl, rfl⟩
    have hl := hn hnu domain d hd
    rw [Map.get_insert, if_neg (fun heq => by rw [heq] at hl; exact Nat.lt_irrefl _ hl)]
    exact hd
  simp only [deriveIntoFresh, ends_iff]
  refine ends_of (fun r hg => ?_) fun g h => by simp [createDomain, plus] at h
  obtain ⟨hc, hp, hi, ht⟩ := hcr hg
  rw [hi]
  refine ends_of (fun r hde => ?_) fun _ _ => hc.trans (destroyDomain_changes hf)
  exact hc.trans (derive_changes hp (ht ▸ hgu) hf hde)

theorem delegateDmaSpan_changes {source : DomainId}
    (hm : (FabricOp.delegateDmaSpan source ob off len perms).Abides G f)
    (hf : G.domain ⟨f.nextDomainId⟩) :
    (f.delegateDmaSpan source ob off len perms).Ends (fun r => Changes G f r.2)
      (Changes G f) := by
  simp only [delegateDmaSpan, ends_iff]
  refine ⟨fun _ => .refl, fun _ => ⟨fun _ => .refl, fun _ _ => ⟨fun _ => .refl, fun _ =>
    ⟨fun _ => .refl, fun cap hc => ?_⟩⟩⟩⟩
  obtain ⟨d, hd, hc⟩ := bind_eq_some_iff.mp hc
  obtain ⟨e, he, rfl⟩ := mem_map.mp (mem_of_find?_eq_some hc)
  exact deriveIntoFresh_changes hn hd he (hm e.cap) hf

theorem delegateDmaSpanFromAuthorityId_changes (hf : G.domain ⟨f.nextDomainId⟩)
    (hm : (FabricOp.delegateDmaSpanFromAuthorityId domain source ob off len perms).Abides
      G f) :
    (f.delegateDmaSpanFromAuthorityId domain source ob off len perms).Ends
      (fun r => Changes G f r.2) (Changes G f) := by
  simp only [delegateDmaSpanFromAuthorityId, ends_iff]
  refine ⟨fun _ => .refl, fun _ => ⟨fun _ => .refl, fun e he => ⟨fun _ => .refl, fun _ =>
    ⟨fun _ => .refl, fun _ _ => ⟨fun _ => .refl, fun _ => ⟨fun _ => .refl, fun _ =>
      ⟨fun _ => .refl, fun _ => ⟨fun _ => .refl, fun _ => ?_⟩⟩⟩⟩⟩⟩⟩⟩
  obtain ⟨d, hd, hme⟩ := authorityEntry_presentable he
  exact deriveIntoFresh_changes hn hd hme (hm e.cap) hf

end

/-! ## Byte writers -/

theorem clearAndWrite_changes (hf : base + data.length ≤ f.memory.length)
    (hp : f.heapPoolOverlaps base data.length = false)
    (h : (f.clearAndWrite base data : Res ε Fabric) = ok f') : Changes G f f' := by
  simp only [clearAndWrite, eq_ok] at h
  obtain ⟨_, hc, rfl⟩ := h
  obtain ⟨cells, rfl, hce⟩ := clearPointerCellsPhysical_eq_ok hc
  exact .single (.wrote f base data cells hf hce hp)

theorem zeroObjectExtent_changes (h : f.zeroObjectExtent id = ok f') : Changes G f f' := by
  simp only [zeroObjectExtent, eq_ok] at h
  obtain ⟨-, obj, -, -, base, -, _, ⟨-, rfl⟩, hf, hp, hw⟩ := h
  refine clearAndWrite_changes ?_ ?_ hw
  all_goals
    rw [length_replicate]
    assumption

theorem zeroPhysical_changes (h : f.zeroPhysical base size = ok f') : Changes G f f' := by
  simp only [zeroPhysical, eq_ok] at h
  obtain ⟨hp, _, ⟨-, rfl⟩, hf, hw⟩ := h
  refine clearAndWrite_changes ?_ ?_ hw
  all_goals
    rw [length_replicate]
    assumption

theorem initializeObject_changes (h : f.initializeObject id off data = ok f') :
    Changes G f f' := by
  simp only [initializeObject, eq_ok] at h
  obtain ⟨-, obj, -, -, -, -, base, -, _, ⟨-, rfl⟩, _, ⟨-, rfl⟩, hf, hp, hw⟩ := h
  exact clearAndWrite_changes hf hp hw

theorem tryWritePhysical_changes {addr : Nat} (h : f.tryWritePhysical addr data = ok f') :
    Changes G f f' := by
  simp only [tryWritePhysical, eq_ok] at h
  obtain ⟨hp, _, ⟨-, rfl⟩, hf, hw⟩ := h
  exact clearAndWrite_changes hf hp hw

/-! ## Transactions and pointer cells -/

theorem checkedPointerCell_eq_ok {kind : AccessKind} {key : CellKey}
    (h : f.checkedPointerCell req kind = ok key) :
    req.kind = kind ∧ req.length = 16 ∧ ∃ obj, f.objects.get req.object = some obj ∧
      key = ⟨req.object, obj.generation, req.offset⟩ := by
  simp only [checkedPointerCell, eq_ok] at h
  obtain ⟨⟨hk, hl, -⟩, obj, ho, rfl⟩ := h
  exact ⟨hk, hl, obj, ho, rfl⟩

/-- A cell that a write was authorized for is tagged after it. -/
def TagsCell (f : Fabric) (request : MemoryRequest) (p : ScopedPointer) (f' : Fabric) : Prop :=
  ∃ key g, f.checkedPointerCell request .write = ok key ∧
    f.executeWrite request (pointerBytes (some p)) = ok g ∧ f' = g.tagCell key p

theorem storePointerCell_ends : (f.storePointerCell req (some p)).Ends
    (f.TagsCell req p) fun r => r.2 = f ∨
      f.executeWrite req (pointerBytes (some p)) = err r := by
  simp only [storePointerCell, ends_iff]
  refine ends_of (fun _ _ => ends_of (fun key hk => ?_) fun _ _ =>
    .inl trivial) fun _ _ => .inl trivial
  exact ends_of (fun g hw => ⟨key, g, hk, hw, rfl⟩) fun _ => .inr

theorem storeHeapTokenInLocal_ends {owner : AllocationOwner} :
    (f.storeHeapTokenInLocal req owner p).Ends (f.TagsCell req p) fun r =>
      r.2 = f ∨ f.executeWrite req (pointerBytes (some p)) = err r := by
  simp only [storeHeapTokenInLocal, ends_iff]
  refine ⟨fun _ => .inl trivial, fun _ => ends_of (fun _ _ => ?_) fun _ _ => .inl trivial⟩
  refine ends_of (fun key hk => ?_) fun _ _ => .inl trivial
  exact ends_of (fun g hw => ⟨key, g, hk, hw, rfl⟩) fun _ => .inr

section Trace

variable (htrc : G.trace)
variable {idx : Nat} {req : MemoryRequest} {data : List UInt8}

include htrc

theorem faultedWith_changes (r : FaultReason) (ht : f.transactions[idx]? = some tx)
    (hs : tx.state ≠ .committed) : Changes G f (f.faultedWith idx tx r) :=
  .single (.faulted f idx tx _ _ ht hs htrc)

theorem submit_changes {data : Option (List UInt8)}
    (h : (f.submit req data : Res ε _) = ok (idx, f')) : Changes G f f' := by
  simp only [submit, eq_ok] at h
  obtain ⟨_, ⟨-, rfl⟩, g, hf, rfl, rfl⟩ := h
  refine .head (.submitted f (f.requested req data) (f.nextTxId + 1) rfl htrc) ?_
  split at hf
  · rw [faultTransaction_eq .invalidSpan getElem?_concat_length] at hf
    cases hf
    exact faultedWith_changes htrc .invalidSpan getElem?_concat_length (by simp [requested])
  · cases hf
    exact .refl

variable {g : Fabric} {ptr : ScopedPointer}

theorem writeCommit_change {stop : Nat} (ht : f.transactions[idx]? = some tx)
    (hs : tx.state = .prepared) (hg : Admitted f tx base stop)
    (hd : tx.writeData = some data) (hl : data.length = stop - base)
    (hw : Written f base data g) (hk : tx.request.kind.mutates = true ∨ G.exchange) :
    Change G f (g.setTransaction idx { tx with state := .committed }) := by
  rw [hw.eq]
  exact .writeCommitted f idx tx base stop data _ ht hs hg hd hl hw.cleared htrc hk

theorem Phase.changes (ht : f.transactions[idx]? = some tx) (h : Phase f idx tx f') :
    Changes G f f' := by
  cases h with
  | authorized g hs ha => exact .single (.authorized f idx tx g ht hs ha htrc)
  | prepared ph hs htr =>
    exact .single (.prepared f idx tx ph ht hs htr htrc)
  | read base stop hs hg hk =>
    exact .single (.readCommitted f idx tx base stop ht hs hg hk htrc)
  | write base stop data g hs hg hk hd hl hw =>
    exact .single (writeCommit_change htrc ht hs hg hd hl hw (.inl hk))
  | faulted r hs =>
    exact faultedWith_changes htrc r ht fun hc => by
      simp [hc, TxState.isTerminal] at hs
  | done => exact .refl

theorem advance_changes (h : (f.advance idx : Res ε Fabric) = ok f') : Changes G f f' := by
  obtain ⟨tx, ht, hp⟩ := advance_eq_ok h
  exact hp.changes htrc ht

theorem runToCommit_changes {data : Option (List UInt8)}
    (h : (f.runToCommit req data : Res ε _) = ok (idx, f')) : Changes G f f' := by
  simp only [runToCommit, eq_ok] at h
  obtain ⟨_, f1, h1, f2, h2, f3, h3, f4, h4, -, rfl⟩ := h
  exact (submit_changes htrc h1).trans ((advance_changes htrc h2).trans
    ((advance_changes htrc h3).trans (advance_changes htrc h4)))

theorem executeRead_changes :
    (f.executeRead req).Ends (fun r => Changes G f r.2) fun r => Changes G f r.2 := by
  simp only [executeRead, ends_iff]
  refine ends_of (fun r hr => ?_) fun _ h => absurd h runToCommit_ne_err
  have hc := runToCommit_changes htrc hr
  refine ends_of (fun _ _ _ _ => hc) fun e hs => ?_
  rw [(settle_eq_err hs).1]
  exact hc

theorem executeWrite_changes :
    (f.executeWrite req data).Ends (Changes G f) fun r => Changes G f r.2 := by
  simp only [executeWrite, ends_iff]
  refine ends_of (fun r hr => ?_) fun _ h => absurd h runToCommit_ne_err
  have hc := runToCommit_changes htrc hr
  refine ends_of (fun _ _ => hc) fun e hs => ?_
  rw [(settle_eq_err hs).1]
  exact hc

theorem executeAtomicXchg_changes (hx : G.exchange) :
    (f.executeAtomicXchg req data).Ends (fun r => Changes G f r.2) fun r =>
      Changes G f r.2 := by
  refine ends_of (fun r h => ?_) fun r h => ?_
  · obtain ⟨idx, f1, f2, f3, g, tx, base, stop, h1, h2, h3, rfl, hr, hp, hg, hl, hw, -,
      heq⟩ := executeAtomicXchg_eq_ok h
    rw [heq]
    refine (submit_changes htrc h1).trans ((advance_changes htrc h2).trans
      ((advance_changes htrc h3).tail ?_))
    exact writeCommit_change htrc hr.getElem hp hg hr.payload hl hw (.inr hx)
  · obtain ⟨idx, f1, f2, f3, tx, h1, h2, h3, rfl, hr, hc⟩ := executeAtomicXchg_eq_err h
    refine (submit_changes htrc h1).trans ((advance_changes htrc h2).trans
      ((advance_changes htrc h3).trans ?_))
    rcases hc with ⟨-, heq⟩ | ⟨hp, re, heq⟩
    · rw [heq]
    · rw [heq]
      exact faultedWith_changes htrc re hr.getElem (by simp [hp])

theorem tagged_changes {key : CellKey}
    (hg : G.tag ptr) (hke : f.checkedPointerCell req .write = ok key)
    (hw : f.executeWrite req (pointerBytes (some ptr)) = ok g) :
    Changes G f (g.tagCell key ptr) := by
  refine ((executeWrite_changes htrc).ok hw).tail ?_
  obtain ⟨hk, hle, obj, ho, rfl⟩ := checkedPointerCell_eq_ok hke
  rcases executeWrite_eq_ok hw with ⟨hr, -⟩ | ⟨-, hef⟩
  · simp [hk, AccessKind.mutates] at hr
  · obtain ⟨gen, ha⟩ := hef.authorized
    obtain ⟨physical, ht, -⟩ := hef.effect
    obtain ⟨obj', ho', hl, -, -, hra⟩ := authorize_object ha
    obtain rfl := mem_unique ho ho'
    obtain ⟨base, hp, -⟩ := translate_eq_some ht
    rw [hef.frame]
    exact .cellStored _ _ ptr obj base ho hl (hle ▸ hra) hp hg

theorem storePointerCell_changes {ptr : Option ScopedPointer}
    (hg : ∀ p, ptr = some p → G.tag p) :
    (f.storePointerCell req ptr).Ends (Changes G f) fun r => Changes G f r.2 := by
  simp only [storePointerCell, ends_iff]
  refine ends_of (fun _ _ => ends_of (fun key hk => ?_) fun _ _ => .refl) fun _ _ => .refl
  refine ends_of (fun g hw => ?_) fun _ hw => (executeWrite_changes htrc).err hw
  cases ptr with
  | none => exact (executeWrite_changes htrc).ok hw
  | some p => exact tagged_changes htrc (hg p rfl) hk hw

theorem loadPointerCell_changes :
    (f.loadPointerCell req).Ends (fun r => Changes G f r.2) fun r => Changes G f r.2 := by
  simp only [loadPointerCell, ends_iff]
  refine ends_of (fun _ _ => ?_) fun _ _ => .refl
  refine ends_of (fun r hr => ?_) fun _ hr => (executeRead_changes htrc).err hr
  have hc := (executeRead_changes htrc).ok hr
  exact ⟨fun _ => hc, fun _ _ => hc⟩

theorem storeHeapTokenInLocal_changes {owner : AllocationOwner} (hg : G.tag ptr) :
    (f.storeHeapTokenInLocal req owner ptr).Ends (Changes G f) fun r =>
      Changes G f r.2 := by
  refine ends_of (fun f' h => ?_) fun r h => ?_
  · obtain ⟨key, g, hk, hw, rfl⟩ := storeHeapTokenInLocal_ends.ok h
    exact tagged_changes htrc hg hk hw
  · rcases storeHeapTokenInLocal_ends.err h with heq | hw
    · rw [heq]
    · exact (executeWrite_changes htrc).err hw

end Trace

/-! ## Trace collection -/

variable {ε : Type} {scope : Scope} {ptr : ScopedPointer}

theorem discardCompletedCompilerTrace_changes (hd : G.discard)
    (h : f.discardCompletedCompilerTrace = ok f') : Changes G f f' := by
  simp only [discardCompletedCompilerTrace, eq_ok] at h
  obtain ⟨-, rfl⟩ := h
  exact .single (.traceCleared f hd)

theorem collectTrace_changes (hd : G.discard) (h : f.collectTrace = ok f') : Changes G f f' := by
  simp only [collectTrace, eq_ok] at h
  obtain ⟨g, hg, rfl⟩ := h
  exact (discardCompletedCompilerTrace_changes hd hg).tail (.aside _ _ _ _ .refl)

/-! ## Local frames -/

theorem registerBacked_run {domain len : Nat} {b : PointerBacking}
    (hr : s.register scope domain base len wr = ok (ptr, t))
    (hb : (t.bindBacking ptr b : Res ε ScopedPointers) = ok u) :
    s.run (.registerBacked scope domain base len wr b) = ok u := by
  simp only [ScopedPointers.bindBacking, eq_ok] at hb
  simp only [ScopedPointers.run, ScopedPointers.bindBacking, eq_ok]
  exact ⟨ptr, t, hr, hb⟩

theorem enterFrame_run {fr : LocalFrameBacking} (hen : s.enterScopeFor owner = ok (scope, t))
    (hb : (t.bindFrame scope fr : Res ε ScopedPointers) = ok u) :
    s.run (.enterFrame owner fr) = ok u := by
  simp only [ScopedPointers.bindFrame, eq_ok] at hb
  simp only [ScopedPointers.run, ScopedPointers.bindFrame, eq_ok]
  exact ⟨scope, t, hen, hb⟩

theorem registerLocals_run {ε : Type} {scope : Scope} {domain : DomainId} {s s' : ScopedPointers}
    {po : List ScopedPointer} (hc : ∀ domain base len wr backing,
      G.registry (.registerBacked scope domain base len wr backing))
    (h : (registerLocals scope domain generation s regs : Res ε _) = ok (po, s')) :
    G.Run s s' := by
  induction regs generalizing s po with
  | nil =>
    cases h
    exact .refl
  | cons r rest ih =>
    simp only [registerLocals, eq_ok] at h
    obtain ⟨ptr, t, hr, u, hb, _, _, hre, -, rfl⟩ := h
    exact (Footprint.run_call (hc _ _ _ _ _) (registerBacked_run hr hb)).trans (ih hre)

theorem protectPointerStack_changes {ob : ObjectId} {domain : DomainId}
    (h : f.protectPointerStack ob owner domain = ok f') : Changes G f f' := by
  simp only [protectPointerStack, eq_ok] at h
  obtain ⟨-, -, -, -, rfl⟩ := h
  exact .single (.aside _ _ _ _ .refl)

theorem registerScopedPointer_changes {req : MemoryRequest}
    (hc : ∀ domain base len wr backing,
      G.registry (.registerBacked scope domain base len wr backing))
    (h : f.registerScopedPointer scope req address wr = ok (ptr, f')) :
    Changes G f f' := by
  simp only [registerScopedPointer, bind_eq_ok, Prod.exists, pure_eq_ok, Prod.mk.injEq] at h
  obtain ⟨_, -, _, _, hr, s, hb, -, rfl⟩ := h
  exact registry_changes (hc _ _ _ _ _) (registerBacked_run (mapErr_eq_ok.mp hr) hb)

theorem retireLocal_changes (hc : G.registry (.takeBacking ptr)) :
    Changes G f (f.retireLocal ptr) := by
  have ht : G.Run f.scopedPointers (f.scopedPointers.takeBacking ptr).2 :=
    Footprint.run_call hc rfl
  unfold retireLocal
  dsimp only
  split
  · exact .single (.registry ht)
  · exact .head (.registry ht) (.single (.cellsDropped _ _ fun key p hp =>
      (Map.get_retain_eq_some.mp hp).1))

theorem retireLocals_changes (l : List ScopedPointer)
    (hc : ∀ ptr, G.registry (.takeBacking ptr)) : Changes G f (l.foldl retireLocal f) := by
  induction l generalizing f with
  | nil => exact .refl
  | cons ptr l ih => exact (retireLocal_changes (hc ptr)).trans ih

theorem retirePointerFrame_changes {l : List ScopedPointer}
    (hl : G.registry (.leaveScope scope)) (hc : ∀ ptr, G.registry (.takeBacking ptr))
    (h : f.retirePointerFrame scope l = ok f') : Changes G f f' := by
  simp only [retirePointerFrame, bind_eq_ok, pure_eq_ok] at h
  obtain ⟨s, hs, rfl⟩ := h
  exact (registry_changes hl (mapErr_eq_ok.mpr (mapErr_eq_ok.mp hs))).trans
    (retireLocals_changes l hc)

theorem clearFrame_changes {ph len : Nat} (hps : len ≠ 0) (hen : ph + len ≤ u64Max)
    (hf : ph + len ≤ f.memory.length) (hpo : f.heapPoolOverlaps ph len = false) :
    Changes G f (f.clearFrame ph len) := by
  refine .single (.wrote f ph (List.replicate len 0) _ (by simpa using hf) ?_
    (by rw [length_replicate]; exact hpo))
  intro key p hp
  obtain ⟨hp, ho⟩ := Map.get_retain_eq_some.mp hp
  refine ⟨hp, fun b hb => ?_⟩
  rw [length_replicate]
  refine disjoint_span fun hm => ?_
  -- a cell past the last address does not meet a span that ends before it
  have ha : b + key.offset ≤ u64Max := by
    have := hm.2
    omega
  have hc : f.cellAddress key = some (b + key.offset) := by
    simp only [cellAddress, hb, bind_some, checkedAdd_eq_some, ha, and_self]
  change (f.cellAddress key).all _ = true at ho
  rw [hc, all_some, Bool.not_eq_true'] at ho
  exact not_meets_of_rangesOverlap hps (by decide) ho hm

theorem issuePointerFrame_changes {fr : MemoryRequest} {r : Scope × List ScopedPointer}
    (hen : ∀ fr, G.registry (.enterFrame owner fr))
    (hc : ∀ scope domain base len wr backing,
      G.registry (.registerBacked scope domain base len wr backing))
    (h : f.issuePointerFrame owner fr address regs = ok (r, f')) : Changes G f f' := by
  simp only [issuePointerFrame, bind_eq_ok, okOr_eq_ok, require_eq_ok, checkedAdd_eq_some, pure_eq,
    Prod.exists, ok.injEq, Prod.mk.injEq] at h
  obtain ⟨_, -, _, ⟨-, -, hpo, -, -⟩, _, -, _, -, _, -, ph, -, _, ⟨hend, rfl⟩, _,
    ⟨-, hf, hp⟩, _, -, _, -, _, -, _, _, hs, _, hfr, _, s, hl, -, rfl⟩ := h
  refine (clearFrame_changes hpo hend hf hp).tail (.registry ?_)
  exact (Footprint.run_call (hen _) (enterFrame_run (expectOk_eq_ok.mp hs) hfr)).trans
    (registerLocals_run (hc _) hl)

/-! ## The private heap -/

theorem attachPrivateHeap_changes {r : HeapReservation} {c : AllocationOwner} {ex : Nat}
    {ob : ObjectId} (hc : G.registry (.attach r c ex))
    (h : f.attachPrivateHeap r c ex = ok (ob, f')) : Changes G f f' := by
  simp only [attachPrivateHeap, HeapFabric.setRow, eq_ok] at h
  obtain ⟨-, plan, hp, heap, hh, -, -, id, hi, _, ⟨-, rfl⟩, s, hco, _, ⟨-, rfl⟩, -, rfl⟩ := h
  obtain ⟨hra, ho, -⟩ := nextFreshObjectId_eq_some hi
  have hru : f.scopedPointers.run (.attach r c ex) = ok s := by
    simp only [ScopedPointers.run, bind_eq_ok]
    exact ⟨plan, hp, hco⟩
  refine .single (.silent f s f.pointerStackObjects f.agents _ f.faultLog (id.raw + 1) f.nextTxId
    f.nextAuthorityId (by rw [hh]; rfl) (by omega) ?_ (Footprint.run_call hc hru))
  -- the rows are those of before and the new one
  rintro id' ⟨heap', row, heq, hr, rfl⟩
  rw [← some.inj heq] at hr
  rcases mem_or_eq_of_mem_set hr with hr | hr
  · exact .inl ⟨heap, row, hh, hr, rfl⟩
  · cases hr
    exact .inr ⟨Nat.lt_succ_self _, ho⟩

/-! ## Calls -/

/-- The call returned or failed, and this is the Fabric it left. -/
def Leaves (f : Fabric) (op : FabricOp) (f' : Fabric) : Prop := f.run op = ok f' ∨ f.run op = err f'

variable {x : Res ε (α × Fabric)} {α : Type}

@[simp] theorem left_eq_ok : left x = ok f' ↔ ∃ a, x = ok (a, f') := by
  simp [left]

@[simp] theorem left_eq_err {e : ε} : left x = err e ↔ x = err e := by
  simp [left]

theorem orKeep_ends {x : Res ε Fabric} {P : Fabric → Prop} (hs : P f)
    (ho : ∀ g, x = ok g → P g) : (f.orKeep x).Ends P P := by
  simp only [orKeep, ends_iff]
  exact ends_of ho fun _ _ => hs

theorem orKeep_changes {x : Res ε Fabric} (ho : ∀ g, x = ok g → Changes G f g) :
    (f.orKeep x).Ends (Changes G f) (Changes G f) := orKeep_ends .refl ho

theorem orKeep_left_changes (ho : ∀ a g, x = ok (a, g) → Changes G f g) :
    (f.orKeep (left x)).Ends (Changes G f) (Changes G f) := by
  refine orKeep_changes fun g hg => ?_
  obtain ⟨a, ha⟩ := left_eq_ok.mp hg
  exact ho a g ha

theorem ends_left {P : Fabric → Prop} {Q : ε → Prop} :
    (left x).Ends P Q ↔ x.Ends (fun r => P r.2) Q := by
  simp only [left, ends_iff]

theorem mapErr_snd {x : Res (ε × Fabric) Fabric}
    (h : mapErr x (·.2) = ok f' ∨ mapErr x (·.2) = err f') : x = ok f' ∨ ∃ e, x = err (e, f') := by
  simp only [mapErr_eq_ok, mapErr_eq_err, Prod.exists] at h
  rcases h with h | ⟨e, _, he, rfl⟩
  · exact .inl h
  · exact .inr ⟨e, he⟩

theorem mapErr_snd_left {x : Res (ε × Fabric) (α × Fabric)}
    (h : left (mapErr x (·.2)) = ok f' ∨ left (mapErr x (·.2)) = err f') :
    (∃ a, x = ok (a, f')) ∨ ∃ e, x = err (e, f') := by
  simp only [left_eq_ok, left_eq_err, mapErr_eq_ok, mapErr_eq_err, Prod.exists] at h
  rcases h with ⟨a, h⟩ | ⟨e, _, he, rfl⟩
  · exact .inl ⟨a, h⟩
  · exact .inr ⟨e, he⟩

theorem ends_snd {x : Res (ε × Fabric) α} {P : α → Prop} {Q : Fabric → Prop}
    (h : x.Ends P fun r => Q r.2) : (mapErr x (·.2)).Ends P Q := by
  simpa only [ends_iff] using h

theorem allocAuthorityId_changes {id : AuthorityId} (h : f.allocAuthorityId = ok (id, f')) :
    Changes G f f' := by
  simp only [allocAuthorityId, eq_ok] at h
  obtain ⟨next, -, -, rfl⟩ := h
  exact .single (.aside _ _ _ _ .refl)

theorem registerAgent_changes (id : AgentId) (kind : AgentKind) (domain : DomainId) :
    Changes G f (f.registerAgent id kind domain) :=
  .single (.aside _ _ _ _ .refl)

/-- **Every call is a chain of atomic changes.** -/
theorem run_changes (hn : G.numbered → Numbered f) (hm : op.Meets G f) (h : Leaves f op f') :
    Changes G f f' := by
  suffices hen : (f.run op).Ends (Changes G f) (Changes G f) from h.elim hen.ok hen.err
  have ha := hm.abides
  obtain ⟨hc, hna, hf, htrc, hx, hd⟩ := hm.within
  have hse : ∀ {domain : DomainId}, (domain == domain) = true := beq_self_eq_true _
  cases op with
  | allocAuthorityId => exact orKeep_left_changes fun _ _ => allocAuthorityId_changes
  | allocObject => exact orKeep_left_changes fun _ _ => tryAllocObject_changes
  | placeObject id base | moveObject id base => exact placeObject_changes id base ha
  | revoke id => exact revoke_changes id
  | sealObject id => exact sealObject_changes id
  | destroyObject id => exact destroyObject_changes id
  | rollbackUnpublishedObject => exact orKeep_changes fun _ => rollbackUnpublishedObject_changes
  | createDomain =>
    refine ends_left.mpr (ends_of (fun _ => createDomain_changes (hf trivial)) fun _ h => ?_)
    simp [createDomain, plus] at h
  | tryCreateCompilerDomain =>
    refine orKeep_left_changes fun id g hg => ?_
    simp only [tryCreateCompilerDomain, bind_eq_ok] at hg
    obtain ⟨_, -, _, -, hg⟩ := hg
    exact createDomain_changes (hf trivial) hg
  | destroyDomain id => exact destroyDomain_changes (hna id hse)
  | registerAgent id kind domain => exact registerAgent_changes id kind domain
  | zeroObjectExtent => exact orKeep_changes fun _ => zeroObjectExtent_changes
  | zeroPhysical => exact orKeep_changes fun _ => zeroPhysical_changes
  | initializeObject => exact orKeep_changes fun _ => initializeObject_changes
  | tryWritePhysical => exact orKeep_changes fun _ => tryWritePhysical_changes
  | grant domain =>
    exact orKeep_left_changes fun _ _ => grant_changes ha (hna domain hse)
  | grantWithAuthorityId domain =>
    exact orKeep_left_changes fun _ _ => grantWithAuthorityId_changes ha (hna domain hse)
  | removeByAuthorityId domain ta =>
    exact removeByAuthorityId_changes ta (hna domain hse)
  | derive domain pa off len perms =>
    simp only [run]
    split
    · rename_i hmi
      exact orKeep_left_changes fun _ _ => derive_changes
        (fun _ => .inl (minted_iff.mp hmi)) ha (hna domain hse)
    · trivial
  | deriveFromAuthorityId _ _ dst =>
    exact orKeep_left_changes fun _ _ => deriveFromAuthorityId_changes ha (hna dst hse)
  | deriveDeviceFromAuthorityId _ _ _ _ _ dst =>
    exact orKeep_left_changes fun _ _ => deriveDeviceFromAuthorityId_changes (hna dst hse)
  | delegateDmaSpan =>
    exact ends_left.mpr (delegateDmaSpan_changes hn ha (hf trivial))
  | delegateDmaSpanFromAuthorityId =>
    exact ends_left.mpr (delegateDmaSpanFromAuthorityId_changes hn (hf trivial) ha)
  | grantDeviceWithAuthorityId domain =>
    exact orKeep_changes fun _ => grantDeviceWithAuthorityId_changes (hna domain hse)
  | submit =>
    exact ends_left.mpr (ends_of (fun _ => submit_changes (htrc trivial))
      fun _ h => absurd h submit_ne_err)
  | advance idx =>
    exact ends_of (fun _ => advance_changes (htrc trivial)) fun _ h => absurd h advance_ne_err
  | executeRead => exact ends_left.mpr (ends_snd (executeRead_changes (htrc trivial)))
  | executeWrite => exact ends_snd (executeWrite_changes (htrc trivial))
  | executeAtomicXchg =>
    exact ends_left.mpr (ends_snd (executeAtomicXchg_changes (htrc trivial) (hx _ _ rfl)))
  | discardCompletedCompilerTrace =>
    exact orKeep_changes fun _ => discardCompletedCompilerTrace_changes (hd trivial)
  | collectTrace => exact orKeep_changes fun _ => collectTrace_changes (hd trivial)
  | protectPointerStack => exact orKeep_changes fun _ => protectPointerStack_changes
  | registerScopedPointer =>
    exact orKeep_left_changes fun _ _ => registerScopedPointer_changes
      fun _ _ _ _ _ => hc _ ⟨_, _, _, _, _, rfl⟩
  | retirePointerFrame =>
    exact orKeep_changes fun _ => retirePointerFrame_changes (hc _ (.inl rfl))
      fun _ => hc _ (.inr ⟨_, rfl⟩)
  | storePointerCell => exact ends_snd (storePointerCell_changes (htrc trivial) ha)
  | loadPointerCell => exact ends_left.mpr (ends_snd (loadPointerCell_changes (htrc trivial)))
  | issuePointerFrame =>
    exact orKeep_left_changes fun _ _ => issuePointerFrame_changes
      (fun _ => hc _ (.inl ⟨_, rfl⟩))
      fun _ _ _ _ _ _ => hc _ (.inr ⟨_, _, _, _, _, _, rfl⟩)
  | storeHeapTokenInLocal =>
    exact ends_snd (storeHeapTokenInLocal_changes (htrc trivial) ha)
  | attachPrivateHeap =>
    exact orKeep_left_changes fun _ _ => attachPrivateHeap_changes (hc _ rfl)
  | storeHeapPointerCell => exact orKeep_changes fun _ => storeHeapPointerCell_changes
  | writeHeapBytes => exact orKeep_changes fun _ => writeHeapBytes_changes
  | initializePrivateHeapChunk =>
    exact orKeep_left_changes fun _ _ => initializePrivateHeapChunk_changes (hc _ rfl) _
  | writePrivateHeap =>
    exact orKeep_left_changes fun _ _ => writePrivateHeap_changes (hc _ rfl) _
  | publishHeap =>
    exact orKeep_left_changes fun _ _ => publishHeap_changes (fun _ => hc _ ⟨_, rfl⟩) _
  | publishCompilerRegion =>
    exact orKeep_left_changes
      fun _ _ => publishCompilerRegion_changes (fun _ _ => hc _ ⟨_, _, rfl⟩) _
  | publishCompilerArtifact =>
    exact orKeep_left_changes fun _ _ => publishCompilerArtifact_changes (fun _ => hc _ ⟨_, rfl⟩) _
  | closeAttachedHeap =>
    exact orKeep_left_changes fun _ _ => closeAttachedHeap_changes (hc _ rfl) _
  | registerHeapCpuRead | registerHeapCpuWrite =>
    exact orKeep_left_changes fun _ _ => registered_changes (hc _ rfl) _
  | executeHeapCpuWork ti =>
    exact orKeep_changes (executeHeapCpuWork_changes (hc _ rfl) ti)
  | cancelHeapCpuWork ti =>
    exact orKeep_changes (cancelHeapCpuWork_changes (hc _ rfl) ti)
  | finishHeapCpuWork ti =>
    exact orKeep_left_changes fun _ _ => finishHeapCpuWork_changes (hc _ rfl) ti _
  | enrollHeapCleanupWorker =>
    exact orKeep_left_changes fun _ _ => enrollHeapCleanupWorker_changes (hc _ rfl) _
  | claimHeapCleanupJob =>
    exact orKeep_left_changes fun _ _ => claimHeapCleanupJob_changes (hc _ rfl) _
  | retireHeapAuthority => exact orKeep_changes (retireHeapAuthority_changes (hc _ rfl))
  | beginHeapScrub => exact orKeep_left_changes fun _ _ => beginHeapScrub_changes (hc _ rfl) _
  | scrubHeapChunk => exact orKeep_left_changes fun _ _ => scrubHeapChunk_changes (hc _ rfl) _
  | releaseCleanHeap => exact orKeep_changes (releaseCleanHeap_changes (hc _ rfl))
  | revokeHeapCleanupJob => exact orKeep_changes (revokeHeapCleanupJob_changes (hc _ rfl))
  | recoverHeapCleanupJob => exact orKeep_changes (recoverHeapCleanupJob_changes (hc _ rfl))
  | registry op =>
    refine orKeep_changes fun g hg => ?_
    simp only [eq_ok] at hg
    obtain ⟨s, hs, rfl⟩ := hg
    exact registry_changes (hc op rfl) hs

theorem step_invariant {F : Footprint} (hn : ¬ F.numbered) (hw : op.Within F f)
    (hc : ∀ g g', Change { F with } g g' → inv g → inv g') (hi : inv f) (h : f.step op = some f') :
    inv f' :=
  Machine.chain_preserved hc (run_changes (fun hF => absurd hF hn) hw.meets (step_eq_some.mp h)) hi

/-! ## Invariants of runs -/

theorem Constructed.numbered (h : Constructed f) : Numbered f := by
  intro domain d hd
  rw [h.fresh.domains, Map.get_empty] at hd
  cases hd

theorem Reachable.numbered (h : Reachable f) : Numbered f := by
  refine Machine.Reachable.invariant (fun g (hg : Constructed g) => hg.numbered)
    (fun g op g' hg hs => ?_) h
  exact Machine.chain_preserved (fun _ _ hc => hc.numbered)
    (run_changes (fun _ => hg) (op.meets_any g) (step_eq_some.mp hs)) hg

theorem run_invariant {ok : Fabric → FabricOp → Prop} (hm : ∀ f op, inv f → ok f op → op.Meets G f)
    (hch : ∀ f f', Change G f f' → inv f → inv f') (hn : Numbered f) (hi : inv f)
    (hr : Machine.Run step ok f f') : inv f' := by
  have hs : ∀ g op g', Numbered g ∧ inv g → ok g op → step g op = some g' →
      Numbered g' ∧ inv g' := by
    rintro g op g' ⟨hng, hg⟩ ho hs
    exact @Machine.chain_preserved _ (Change G) (fun g => Numbered g ∧ inv g)
      (fun h h' hc hh => ⟨hc.numbered hh.1, hch h h' hc hh.2⟩) g g'
      (run_changes (fun _ => hng) (hm g op hg ho) (step_eq_some.mp hs)) ⟨hng, hg⟩
  exact (@Machine.Run.invariant _ _ step ok (fun g => Numbered g ∧ inv g) hs f f' hr ⟨hn, hi⟩).2

theorem reachableIf_invariant {ok : Fabric → FabricOp → Prop}
    (hm : ∀ f op, inv f → ok f op → op.Meets G f) (hc : ∀ f f', Change G f f' → inv f → inv f')
    (hi : ∀ f, Fresh f → inv f) (h : Machine.ReachableIf step ok Constructed f) : inv f := by
  obtain ⟨f0, hf0, hr⟩ := h
  exact run_invariant hm hc hf0.numbered (hi f0 hf0.fresh) hr

theorem Reachable.invariant (hc : ∀ f f', Change Guard.any f f' → inv f → inv f')
    (hi : ∀ f, Fresh f → inv f) (h : Reachable f) : inv f :=
  reachableIf_invariant (fun f op _ _ => op.meets_any f) hc hi h

end Fabric

end Anka
