import Anka.Fabric.Refine

/-!
# No amplification (I7)

`Within` is the order of authority: the same object and generation, a range and permissions that are
contained. Every derivation primitive hands out a capability within its parent, so by transitivity
every capability that a domain holds, or that a mint ever returned, is within one that `grant` or
`grant_with_authority_id` returned. The length of the chain and the domains it goes through play no
part. What `authorize` accepts is covered by a capability that validates, so it lies inside a root
grant made at the object's current generation.

The history records every grant; `Reachable.granted` turns an entry of it into the call that made
it.
-/

namespace Anka

open Rust Res List

/-- The authority of `c` is part of that of `root`. -/
structure Capability64.Within (c root : Capability64) : Prop where
  object : c.object = root.object
  generation : c.generation = root.generation
  start : root.offset ≤ c.offset
  stop : c.offset + c.length ≤ root.offset + root.length
  permissions : root.permissions.contains c.permissions = true

theorem Capability64.Within.refl (c : Capability64) : c.Within c :=
  ⟨rfl, rfl, Nat.le_refl _, Nat.le_refl _, Permissions.contains_iff.mpr (BitVec.and_self)⟩

theorem Capability64.Within.trans {a b c : Capability64} (ha : a.Within b) (hb : b.Within c) :
    a.Within c where
  object := ha.object.trans hb.object
  generation := ha.generation.trans hb.generation
  start := Nat.le_trans hb.start ha.start
  stop := Nat.le_trans ha.stop hb.stop
  permissions := Permissions.contains_trans hb.permissions ha.permissions

namespace Fabric

variable {G : Guard} {f f' : Fabric} {domain : DomainId} {cap : Capability64} {off len : Nat}
  {perms : Permissions} {root : Capability64}

theorem childOf_within {parent : Capability64} (h : narrows parent off len perms = true) :
    (childOf parent off len perms).Within parent := by
  obtain ⟨hp, hs, hst⟩ := narrows_iff.mp h
  exact ⟨rfl, rfl, hs, hst, hp⟩

/-! ## Roots -/

/-- A grant in the history contains the capability. -/
def Rooted (f : Fabric) (cap : Capability64) : Prop :=
  ∃ domain root, .granted domain root ∈ f.history ∧ cap.Within root

/-- Every capability that can be presented has a root. -/
def NoAmplification (f : Fabric) : Prop := ∀ cap, f.Presentable cap → Rooted f cap

/-- Where an entry of a domain comes from: it was there, it was granted now over an object whose
state allows it, or it was derived. -/
theorem Change.entry {d' : DomainState} {e : CapabilityEntry} (hc : Change G f f')
    (hd' : f'.domains.get domain = some d') (he : e ∈ d'.capabilities) :
    (∃ d, f.domains.get domain = some d ∧ e ∈ d.capabilities) ∨
    (∃ obj o off len perms, e.cap = rootOf obj o off len perms ∧
      f.objects.get o = some obj ∧ grantable obj.state perms = true ∧
      G.grant f.transactions domain e.cap ∧ .granted domain e.cap ∈ f'.history) ∨
    ∃ p, (G.numbered → f.Presentable p) ∧ e.cap.Within p ∧
      G.derive f.transactions domain e.cap := by
  -- an entry of a domain that took in a new one
  have hj : ∀ {domain' d new}, f.domains.get domain' = some d →
      Map.get (f.domains.insert domain' { d with capabilities := d.capabilities ++ [new] }) domain =
        some d' → domain = domain' ∧ e = new ∨
          ∃ d, f.domains.get domain = some d ∧ e ∈ d.capabilities := by
    intro domain' d new hd h
    rw [Map.get_insert] at h
    split at h
    · rename_i heq
      cases h
      rcases mem_append.mp he with hold | hne
      · exact .inr ⟨d, heq ▸ hd, hold⟩
      · exact .inl ⟨heq, mem_singleton.mp hne⟩
    · exact .inr ⟨d', h, he⟩
  cases hc with
  | domainCreated =>
    rw [Map.get_insert] at hd'
    split at hd'
    · cases hd'
      cases he
    · exact .inl ⟨d', hd', he⟩
  | domainsEdited dom hed =>
    obtain ⟨d, hd, hs⟩ := hed domain d' hd'
    exact .inl ⟨d, hd, hs e he⟩
  | granted _ _ obj o off len perms _ hd ho hgr _ hg =>
    rcases hj hd hd' with ⟨rfl, rfl⟩ | hold
    · exact .inr (.inl ⟨obj, o, off, len, perms, rfl, ho, hgr, hg, mem_cons_self⟩)
    · exact .inl hold
  | derived _ _ p _ _ _ _ hd hp _ hn hg =>
    rcases hj hd hd' with ⟨rfl, rfl⟩ | hold
    · exact .inr (.inr ⟨p, hp, childOf_within hn, hg⟩)
    · exact .inl hold
  | _ => exact .inl ⟨d', hd', he⟩

theorem Change.presentable (hG : G.numbered) (hc : Change G f f') (h : f'.Presentable cap) :
    f.Presentable cap ∨
    (∃ domain obj o off len perms, cap = rootOf obj o off len perms ∧
      f.objects.get o = some obj ∧ grantable obj.state perms = true ∧
      .granted domain cap ∈ f'.history) ∨
    ∃ parent, f.Presentable parent ∧ cap.Within parent := by
  rcases h with ⟨domain, hm⟩ | ⟨domain, d, e, hd, he, rfl⟩
  · cases hc with
    | granted _ _ obj o off len perms _ _ ho hg =>
      simp only [mem_cons, Effect.granted.injEq, reduceCtorEq, false_or, or_assoc] at hm
      rcases hm with ⟨-, rfl⟩ | hm
      · exact .inr (.inl ⟨_, obj, o, off, len, perms, rfl, ho, hg, mem_cons_self⟩)
      · exact .inl (.inl ⟨domain, hm⟩)
    | derived _ _ parent _ _ _ _ _ hp _ hn =>
      simp only [mem_cons, Effect.derived.injEq, reduceCtorEq, false_or] at hm
      rcases hm with hm | ⟨-, rfl⟩ | hm
      · exact .inl (.inl ⟨domain, .inl hm⟩)
      · exact .inr (.inr ⟨parent, hp hG, childOf_within hn⟩)
      · exact .inl (.inl ⟨domain, .inr hm⟩)
    | placed | writeCommitted | wrote | heapWrote | cellStored =>
      -- the new entry of the history is not a mint
      simp only [tagCell, mem_cons, reduceCtorEq, false_or] at hm
      exact .inl (.inl ⟨domain, hm⟩)
    | _ => exact .inl (.inl ⟨domain, hm⟩)
  · rcases hc.entry hd he with ⟨d0, hd0, he0⟩ |
      ⟨obj, o, off, len, perms, heq, ho, hg, -, hr⟩ |
      ⟨parent, hp, hw, -⟩
    · exact .inl (.inr ⟨domain, d0, e, hd0, he0, rfl⟩)
    · exact .inr (.inl ⟨domain, obj, o, off, len, perms, heq, ho, hg, hr⟩)
    · exact .inr (.inr ⟨parent, hp hG, hw⟩)

theorem Change.history_subset (hc : Change G f f') {e : Effect} (h : e ∈ f.history) :
    e ∈ f'.history := by
  cases hc with
  | granted | derived | placed | writeCommitted | wrote | heapWrote | cellStored =>
    exact mem_cons_of_mem _ h
  | _ => exact h

theorem Change.noAmplification (hG : G.numbered) (hc : Change G f f') (h : NoAmplification f) :
    NoAmplification f' := by
  have hk : ∀ {cap}, Rooted f cap → Rooted f' cap := by
    rintro cap ⟨domain, root, hr, hw⟩
    exact ⟨domain, root, hc.history_subset hr, hw⟩
  intro cap hca
  rcases hc.presentable hG hca with
    hold | ⟨domain, _, _, _, _, _, _, -, -, hr⟩ | ⟨p, hp, hw⟩
  · exact hk (h cap hold)
  · exact ⟨domain, cap, hr, .refl cap⟩
  · obtain ⟨domain, root, hr, hp⟩ := hk (h p hp)
    exact ⟨domain, root, hr, hw.trans hp⟩

theorem Fresh.noAmplification (h : Fresh f) : NoAmplification f := by
  rintro cap (⟨d, hm | hm⟩ | ⟨domain, d, e, hd, -⟩)
  · rw [h.history] at hm
    cases hm
  · rw [h.history] at hm
    cases hm
  · rw [h.domains, Map.get_empty] at hd
    cases hd

theorem Reachable.noAmplification (h : Reachable f) : NoAmplification f :=
  h.invariant (fun _ _ => Change.noAmplification trivial) fun _ => Fresh.noAmplification

/-! ## The grants behind the history -/

/-- One of the two granting calls returned this capability. -/
def Grants (f : Fabric) (cap : Capability64) (f' : Fabric) : Prop :=
  (∃ domain object offset length perms, f.grant domain object offset length perms = ok (cap, f')) ∨
  ∃ domain object offset length perms authorityId,
    f.grantWithAuthorityId domain object offset length perms authorityId = ok (cap, f')

/-- Every change but a grant. -/
def Guard.noGrant : Guard := { grant := fun _ _ _ => False }

theorem Change.granted_before (hc : Change Guard.noGrant f f')
    (h : .granted domain cap ∈ f'.history) : .granted domain cap ∈ f.history := by
  cases hc with
  | granted _ _ _ _ _ _ _ _ _ _ _ _ hg => exact hg.elim
  | derived | placed | writeCommitted | wrote | heapWrote | cellStored =>
    exact (mem_cons.mp h).resolve_left nofun
  | _ => exact h

theorem mintRoot_history {obj : Object} {o : ObjectId} {au : Option AuthorityId}
    (h : f.mintRoot domain obj o off len perms au = ok (cap, f')) :
    f'.history = .granted domain cap :: f.history := by
  simp only [mintRoot, pushCapability, eq_ok] at h
  obtain ⟨-, -, -, _, ⟨d, -, rfl⟩, rfl, rfl⟩ := h
  rfl

theorem step_granted {op : FabricOp} (hn : Numbered f) (hs : f.step op = some f')
    (h : .granted domain cap ∈ f'.history) : .granted domain cap ∈ f.history ∨ Grants f cap f' := by
  have hl := step_eq_some.mp hs
  have ho : op.Abides Guard.noGrant f → .granted domain cap ∈ f.history := by
    intro ha
    have hch := run_changes (fun _ => hn) ⟨ha, op.within_any f⟩ hl
    clear hs hl
    induction hch with
    | refl => exact h
    | tail _ hc ih => exact ih (hc.granted_before h)
  cases op with
  | grant domain' o off len perms =>
    simp only [run, orKeep, mapErr_eq_ok, mapErr_eq_err, left_eq_ok] at hl
    rcases hl with ⟨cap', hg⟩ | ⟨_, -, rfl⟩
    · have hm := hg
      simp only [Fabric.grant, bind_eq_ok] at hm
      obtain ⟨_, -, _, -, obj, -, _, -, hm⟩ := hm
      rw [mintRoot_history hm, mem_cons] at h
      rcases h with heq | hold
      · cases heq
        exact .inr (.inl ⟨domain, o, off, len, perms, hg⟩)
      · exact .inl hold
    · exact .inl h
  | grantWithAuthorityId domain' o off len perms au =>
    simp only [run, orKeep, mapErr_eq_ok, mapErr_eq_err, left_eq_ok] at hl
    rcases hl with ⟨cap', hg⟩ | ⟨_, -, rfl⟩
    · have hm := hg
      simp only [Fabric.grantWithAuthorityId, bind_eq_ok] at hm
      obtain ⟨_, -, _, -, obj, -, _, -, _, -, hm⟩ := hm
      rw [mintRoot_history hm, mem_cons] at h
      rcases h with heq | hold
      · cases heq
        exact .inr (.inr ⟨domain, o, off, len, perms, au, hg⟩)
      · exact .inl hold
    · exact .inl h
  | _ => exact .inl (ho (by simp [FabricOp.Abides, Guard.noGrant]))

/-- A grant of an earlier reachable Fabric from which calls led to this one. -/
def GrantedEarlier (f : Fabric) (root : Capability64) : Prop :=
  ∃ f0 f1, Reachable f0 ∧ Grants f0 root f1 ∧ Machine.Run step (fun _ _ => True) f1 f

theorem Reachable.granted (hre : Reachable f) (h : .granted domain root ∈ f.history) :
    GrantedEarlier f root := by
  have hal : Reachable f ∧ ∀ domain root, .granted domain root ∈ f.history →
      GrantedEarlier f root := by
    clear h
    obtain ⟨f0, hf0, hru⟩ := hre
    induction hru with
    | refl =>
      refine ⟨⟨f0, hf0, .refl⟩, fun domain root hr => ?_⟩
      rw [hf0.fresh.history] at hr
      cases hr
    | @tail g g' _ hlast ih =>
      obtain ⟨hg, hro⟩ := ih
      obtain ⟨op, -, hs⟩ := id hlast
      refine ⟨Machine.Reachable.tail hg hs, fun domain root hr => ?_⟩
      rcases step_granted hg.numbered hs hr with hold | hn
      · obtain ⟨a, b, ha, hgr, hab⟩ := hro domain root hold
        exact ⟨a, b, ha, hgr, hab.tail hlast⟩
      · exact ⟨g, g', hg, hn, .refl⟩
  exact hal.2 domain root h

/-! ## Requests -/

/-- The request lies inside the capability: its object, its span, its permission. -/
structure Inside (request : MemoryRequest) (root : Capability64) : Prop where
  object : root.object = request.object
  start : root.offset ≤ request.offset
  stop : request.offset + request.length ≤ root.offset + root.length
  permission : root.permissions.contains request.kind.requiredPermission = true

theorem Inside.of_covers {r : MemoryRequest} (hc : grantsRequest r cap = true)
    (hw : cap.Within root) : Inside r root := by
  obtain ⟨ho, -, hp, hs, hst⟩ := Capability64.covers_iff.mp hc
  have hl := hw.start
  have hh := hw.stop
  exact ⟨hw.object.symm.trans ho, by omega, by omega, Permissions.contains_trans hw.permissions hp⟩

/-- **No amplification.** Every capability that a domain of a reachable Fabric holds is within one
that an earlier `grant` or `grant_with_authority_id` returned; every request that `authorize`
accepts lies inside such a root grant, made at the object's current generation. -/
theorem no_amplification (hreach : Reachable f) :
    (∀ domain d e, f.domains.get domain = some d → e ∈ d.capabilities →
      ∃ root, GrantedEarlier f root ∧ e.cap.Within root) ∧
    ∀ request g, f.authorize request = ok g → ∃ root obj, GrantedEarlier f root ∧
      Inside request root ∧ f.objects.get request.object = some obj ∧
      root.generation = obj.generation := by
  have hh : ∀ domain d e, f.domains.get domain = some d → e ∈ d.capabilities →
      ∃ root, GrantedEarlier f root ∧ e.cap.Within root := by
    intro domain d e hd he
    obtain ⟨domain', root, hr, hw⟩ :=
      hreach.noAmplification e.cap (.inr ⟨domain, d, e, hd, he, rfl⟩)
    exact ⟨root, hreach.granted hr, hw⟩
  refine ⟨hh, fun request g ha => ?_⟩
  obtain ⟨cap, ⟨d, e, hd, he, rfl, hc, -⟩, rfl⟩ := authorize_eq_ok ha
  obtain ⟨root, hgr, hw⟩ := hh request.context.domain d e hd he
  obtain ⟨obj, ho, -, hg, -⟩ := authorize_object ha
  exact ⟨root, obj, hgr, .of_covers hc hw, ho, hw.generation.symm.trans hg⟩

/-- The capability of a DMA domain and the grant behind it. -/
theorem no_amplification_dma : ∃ f, Reachable f ∧ ∃ d e, f.domains.get ⟨1⟩ = some d ∧
    e ∈ d.capabilities ∧ ∃ root, GrantedEarlier f root ∧ e.cap.Within root := by
  have hru : leadsTo 64 [.allocObject "a" 16 .memory, .createDomain, .grant ⟨0⟩ ⟨0⟩ 0 16 .RW,
        .delegateDmaSpan ⟨0⟩ ⟨0⟩ 4 8 .READ] (fun f =>
      (f.domains.get ⟨1⟩).any fun d => d.capabilities.any fun _ => true) = true := by
    decide +kernel
  obtain ⟨f, hr, hf⟩ := exists_of_replay hru
  obtain ⟨d, hd, ha⟩ := (Option.any_eq_true _ _).mp hf
  obtain ⟨e, he, -⟩ := any_eq_true.mp ha
  exact ⟨f, hr, d, e, hd, he, (no_amplification hr).1 ⟨1⟩ d e hd he⟩

end Fabric

end Anka
