import Anka.Fabric.Refine

/-!
# Authority never comes back

An identity is `Dead` when it was handed out and names no live object. Revocation and destruction
make it dead, and no change ends that: an allocation takes the next identity, which is above every
one handed out, and the rollback that rewinds the counter needs an `Active` object under the last
identity. Private heap rows take their identities from the same counter; `Identities` says that no
object has one of them, so the calls that refuse such an identity lose nothing.

A dead identity has no capability that validates. Every commit authorizes again, so no transaction
that names it commits, whenever it was submitted.
-/

namespace Anka

open Rust Res List Option

theorem ObjectId.raw_ne {a b : ObjectId} (h : a ≠ b) : a.raw ≠ b.raw := by
  intro heq
  cases a
  cases b
  exact h (congrArg _ heq)

namespace Fabric

variable {G : Guard} {f f' : Fabric} {id : ObjectId}

/-! ## Identities -/

/-- Objects and private heap rows have identities below the counter, and not the same ones. -/
structure Identities (f : Fabric) : Prop where
  objects : ∀ id obj, f.objects.get id = some obj → id.raw < f.nextObjectId
  rows : ∀ id, HeapRowId f.privateHeap id → id.raw < f.nextObjectId ∧ f.objects.get id = none

theorem Identities.of_subset (h : Identities f) (hc : Change G f f')
    (hr : ∀ id, HeapRowId f'.privateHeap id → HeapRowId f.privateHeap id)
    (hn : f'.nextObjectId = f.nextObjectId) : Identities f' := by
  have hs : ∀ id obj, f'.objects.get id = some obj → ∃ obj0, f.objects.get id = some obj0 := by
    intro id obj ho
    rcases hc.object ho with ⟨obj0, ho0, -⟩ | ⟨-, hne, -⟩
    · exact ⟨obj0, ho0⟩
    · omega
  refine ⟨fun id obj ho => ?_, fun id hro => ?_⟩
  · obtain ⟨obj0, ho0⟩ := hs id obj ho
    exact hn ▸ h.objects id obj0 ho0
  · obtain ⟨hl, hno⟩ := h.rows id (hr id hro)
    refine ⟨hn ▸ hl, ?_⟩
    cases ho : f'.objects.get id with
    | none => rfl
    | some obj =>
      obtain ⟨obj0, ho0⟩ := hs id obj ho
      rw [hno] at ho0
      cases ho0

theorem Change.identities (hc : Change G f f') (h : Identities f) : Identities f' := by
  have hk := h.of_subset hc
  cases hc with
  | silent _ _ _ _ _ _ _ _ _ hnx hro _ =>
    refine ⟨fun id obj ho => Nat.lt_of_lt_of_le (h.objects id obj ho) hnx, fun id hr => ?_⟩
    rcases hro id hr with hold | hnw
    · obtain ⟨hl, hn⟩ := h.rows id hold
      exact ⟨Nat.lt_of_lt_of_le hl hnx, hn⟩
    · exact hnw
  | allocated id obj hi _ _ hob _ =>
    refine ⟨fun id' obj' ho' => ?_, fun id' hr => ?_⟩
    · dsimp only at ho' ⊢
      rw [Map.get_insert] at ho'
      split at ho'
      · rename_i heq
        rw [heq, hi]
        exact Nat.lt_succ_self _
      · exact Nat.lt_succ_of_lt (h.objects id' obj' ho')
    · obtain ⟨hl, hn⟩ := h.rows id' hr
      have hne : id' ≠ id := by
        rintro rfl
        omega
      dsimp only
      rw [Map.get_insert, if_neg hne]
      exact ⟨Nat.lt_succ_of_lt hl, hn⟩
  | rolledBack id obj hob _ hnx _ _ =>
    -- only `id` has the last identity, and it goes
    refine ⟨fun id' obj' ho' => ?_, fun id' hr => ?_⟩
    · dsimp only at ho' ⊢
      rw [Map.get_erase] at ho'
      split at ho'
      · cases ho'
      · rename_i hne
        have hl := h.objects id' obj' ho'
        have hra := ObjectId.raw_ne hne
        omega
    · obtain ⟨hl, hn⟩ := h.rows id' hr
      have hne : id' ≠ id := by
        rintro rfl
        rw [hob] at hn
        cases hn
      have hra := ObjectId.raw_ne hne
      dsimp only
      rw [Map.get_erase, if_neg hne]
      exact ⟨by omega, hn⟩
  | heapWrote heap s _ _ hh =>
    refine hk ?_ rfl
    rintro id ⟨heap', row, heq, hr, rfl⟩
    rw [← some.inj heq] at hr
    exact ⟨heap, row, hh, hr, rfl⟩
  | _ => exact hk (fun _ hr => hr) rfl

theorem Fresh.identities (h : Fresh f) : Identities f := by
  refine ⟨fun id obj ho => ?_, ?_⟩
  · rw [h.objects, Map.get_empty] at ho
    cases ho
  · rintro id ⟨heap, row, hh, hr, -⟩
    exact absurd hr (h.rows heap row hh)

theorem Reachable.identities (h : Reachable f) : Identities f :=
  h.invariant (fun _ _ => Change.identities) fun _ => Fresh.identities

theorem Identities.private_none (h : Identities f) (hp : f.privateHeapObject id = true) :
    id.raw < f.nextObjectId ∧ f.objects.get id = none := by
  obtain ⟨heap, hh, hc⟩ := (any_eq_true _ _).mp hp
  unfold HeapFabric.containsObject at hc
  obtain ⟨slot, hs, hr⟩ := any_eq_true.mp hc
  obtain ⟨row, rfl, hi⟩ := (any_eq_true _ _).mp hr
  exact h.rows id ⟨heap, row, hh, mem_of_mem_take hs, eq_of_beq hi⟩

/-! ## Commits -/

variable {idx : Nat} {tx : Transaction}

theorem Change.committed (hch : Change G f f')
    (ht : f'.transactions[idx]? = some tx) (hc : tx.state = .committed) :
    f.transactions[idx]? = some tx ∨ ∃ g, f.authorize tx.request = ok g := by
  -- a row was written: this one or another
  have hs : ∀ {i : Nat} {old new : Transaction}, f.transactions[i]? = some old →
      (f.transactions.set i new)[idx]? = some tx → tx = new ∨ f.transactions[idx]? = some tx := by
    intro i old new hold h
    rw [getElem?_set_row hold] at h
    split at h
    · exact .inl (some.inj h).symm
    · exact .inr h
  cases hch with
  | submitted new _ hst =>
    dsimp only at ht
    rw [getElem?_append] at ht
    split at ht
    · exact .inl ht
    · obtain rfl := mem_singleton.mp (mem_of_getElem? ht)
      rw [hst] at hc
      cases hc
  | authorized _ _ _ hold | prepared _ _ _ hold | faulted _ _ _ _ hold =>
    rcases hs hold ht with rfl | h
    · cases hc
    · exact .inl h
  | readCommitted _ _ _ _ hold _ hg | writeCommitted _ _ _ _ _ _ hold _ hg =>
    rcases hs hold ht with rfl | h
    · exact .inr hg.authorized
    · exact .inl h
  | traceCleared => simp at ht
  | _ => exact .inl ht

theorem Changes.committed_before (inv : Fabric → Prop) (Q : MemoryRequest → Prop)
    (hi : ∀ g g', Change G g g' → inv g → inv g')
    (hd : ∀ g request gen, inv g → Q request → g.authorize request ≠ ok gen) (hch : Changes G f f')
    (h : inv f) (ht : f'.transactions[idx]? = some tx) (hr : Q tx.request)
    (hco : tx.state = .committed) : f.transactions[idx]? = some tx := by
  induction hch with
  | refl => exact ht
  | @tail g g' hinit hc ih =>
    rcases hc.committed ht hco with hold | ⟨gen, ha⟩
    · exact ih hold
    · exact absurd ha (hd g tx.request gen (Machine.chain_preserved hi hinit h) hr)

/-! ## Dead identities -/

/-- The identity was handed out, and an object under it is in a state of `P`. -/
def Settled (P : ObjectState → Prop) (id : ObjectId) (f : Fabric) : Prop :=
  id.raw < f.nextObjectId ∧ ∀ obj, f.objects.get id = some obj → P obj.state

/-- **No change brings an identity back from states without `Active`:** new objects have new
identities, and sealing and rollback need an `Active` object. -/
theorem Change.settled {P : ObjectState → Prop} (ha : ¬ P .active) (hr : P .revoked)
    (hc : Change G f f') (h : Settled P id f) : Settled P id f' := by
  obtain ⟨hl, hst⟩ := h
  refine ⟨?_, fun obj ho => ?_⟩
  · cases hc with
    | silent _ _ _ _ _ _ _ _ _ hn _ _ => exact Nat.lt_of_lt_of_le hl hn
    | allocated => exact Nat.lt_succ_of_lt hl
    | rolledBack id' obj hob hf hn _ _ =>
      have hne : id ≠ id' := by
        rintro rfl
        exact ha (hf ▸ hst obj hob)
      have hra := ObjectId.raw_ne hne
      dsimp only
      omega
    | _ => exact hl
  · rcases hc.object ho with ⟨obj0, ho0, rfl | rfl | ⟨hs, -⟩⟩ | ⟨hi, -⟩
    · exact hst obj ho0
    · exact hr
    · exact absurd (hs ▸ hst obj0 ho0) ha
    · omega

/-- The identity was handed out and names no live object. -/
def Dead (id : ObjectId) (f : Fabric) : Prop := Settled (fun state => state.isLive = false) id f

theorem Change.dead (hc : Change G f f') (h : Dead id f) : Dead id f' :=
  hc.settled (by simp [ObjectState.isLive]) rfl h

theorem Dead.validate (h : Dead id f) {cap : Capability64} (hca : cap.object = id) :
    f.validate cap = false := by
  by_contra hval
  obtain ⟨-, obj, hc⟩ := validate_eq_true.mp (Bool.not_eq_false _ ▸ hval)
  have hd : obj.state.isLive = false := h.2 obj (hca ▸ hc.object)
  rw [hc.live] at hd
  cases hd

theorem Dead.authorize (h : Dead id f) {r : MemoryRequest} (hr : r.object = id)
    (g : Generation) : f.authorize r ≠ ok g := by
  intro ha
  obtain ⟨obj, ho, hl, -⟩ := authorize_object ha
  have hd : obj.state.isLive = false := h.2 obj (hr ▸ ho)
  rw [hl] at hd
  cases hd

theorem dead_of_step {op : FabricOp} (hi : Identities f)
    (hk : (f.objects.get id).isSome = true ∨ id.raw < f.nextObjectId)
    (hop : op = .revoke id ∨ op = .destroyObject id) (hs : f.step op = some f') : Dead id f' := by
  have hl : id.raw < f.nextObjectId := by
    rcases hk with hso | hl
    · obtain ⟨obj, ho⟩ := isSome_iff_exists.mp hso
      exact hi.objects id obj ho
    · exact hl
  by_cases hp : f.privateHeapObject id = true
  · -- the call refuses an identity of the private heap, which names no object
    have hn := (hi.private_none hp).2
    have hsa : f' = f := by
      rcases hop with rfl | rfl
      · simpa [step, run, revoke, hp] using hs.symm
      · simpa [step, run, destroyObject, hp] using hs.symm
    subst hsa
    refine ⟨hl, fun obj ho => ?_⟩
    rw [hn] at ho
    cases ho
  · rcases hop with rfl | rfl
    · simp only [step, run, revoke, if_neg hp, some.injEq] at hs
      subst hs
      refine ⟨hl, fun obj ho => ?_⟩
      rw [Map.get_modify, if_pos rfl] at ho
      obtain ⟨obj0, -, rfl⟩ := map_eq_some_iff.mp ho
      rfl
    · simp only [step, run, destroyObject, if_neg hp, some.injEq] at hs
      subst hs
      refine ⟨hl, fun obj ho => ?_⟩
      rw [Map.get_erase, if_pos rfl] at ho
      cases ho

/-- **Authority never comes back.** After a revocation or destruction of an identity that was handed
out, in every state of every later run: no capability that names it validates, every request that
names it is denied, no step commits a transaction that names it, and neither an allocation nor a
private-heap attachment returns it. -/
theorem authority_never_returns {op : FabricOp} {f1 : Fabric} (hreach : Reachable f)
    (hknown : (f.objects.get id).isSome = true ∨ id.raw < f.nextObjectId)
    (hop : op = .revoke id ∨ op = .destroyObject id) (hstep : f.step op = some f1)
    (hrun : Machine.Run step (fun _ _ => True) f1 f') :
    (∀ cap : Capability64, cap.object = id → f'.validate cap = false) ∧
    (∀ request : MemoryRequest, request.object = id → ∃ reason, f'.authorize request = err reason) ∧
    (∀ (later : FabricOp) (f'' : Fabric) (idx : Nat) (tx : Transaction),
      f'.step later = some f'' → f''.transactions[idx]? = some tx → tx.request.object = id →
      tx.state = .committed → f'.transactions[idx]? = some tx) ∧
    (∀ name size kind id' f'', f'.tryAllocObject name size kind = ok (id', f'') → id' ≠ id) ∧
    ∀ reservation owner revision id' f'',
      f'.attachPrivateHeap reservation owner revision = ok (id', f'') → id' ≠ id := by
  have hreach1 : Reachable f1 := Machine.Reachable.tail hreach hstep
  have hde1 : Dead id f1 := dead_of_step hreach.identities hknown hop hstep
  have hde : Dead id f' := run_invariant (fun g op _ _ => op.meets_any g)
    (fun _ _ hc hd => hc.dead hd) hreach1.numbered hde1 hrun
  have hreach' : Reachable f' := Machine.Reachable.trans hreach1 hrun
  have hf : ∀ {id' : ObjectId}, f'.nextFreshObjectId = some id' → id' ≠ id := by
    rintro id' hn rfl
    have hra := (nextFreshObjectId_eq_some hn).1
    have hlt := hde.1
    omega
  refine ⟨fun cap hca => hde.validate hca,
    fun request hr => authorize_denied (hde.authorize hr), ?_, ?_, ?_⟩
  · intro later f'' idx tx hl ht ho hco
    have hch := run_changes (G := Guard.any) (fun _ => hreach'.numbered) (later.meets_any f')
      (step_eq_some.mp hl)
    exact hch.committed_before (Dead id) (fun request => request.object = id)
      (fun _ _ hc hd => hc.dead hd) (fun _ _ gen hd hr => hd.authorize hr gen) hde ht
      ho hco
  · intro name size kind id' f'' hal
    simp only [tryAllocObject, eq_ok] at hal
    obtain ⟨_, hn, _, -, rfl, -⟩ := hal
    exact hf hn
  · intro reservation owner revision id' f'' ha
    simp only [attachPrivateHeap, eq_ok] at ha
    obtain ⟨-, _, -, _, -, -, -, _, hn, _, -, _, -, _, -, rfl, -⟩ := ha
    exact hf hn

/-- An object that was granted, is revoked and then allocated past. -/
theorem authority_never_returns_revoked : ∃ (f f1 f' : Fabric) (cap : Capability64), Reachable f ∧
    cap.object = ⟨0⟩ ∧ f.validate cap = true ∧ f.step (.revoke ⟨0⟩) = some f1 ∧
    f1.step (.allocObject "b" 16 .memory) = some f' ∧ f'.validate cap = false := by
  have hru : leadsTo 64 [.createDomain, .allocObject "a" 16 .memory, .placeObject ⟨0⟩ 0,
      .grant ⟨0⟩ ⟨0⟩ 0 16 .RW] (fun f => (f.objects.get ⟨0⟩).isSome &&
        ((f.revoke ⟨0⟩).step (.allocObject "b" 16 .memory)).isSome &&
        (f.domains.get ⟨0⟩).any fun d => d.capabilities.any fun e =>
          decide (e.cap.object = ⟨0⟩) && f.validate e.cap) = true := by
    decide +kernel
  obtain ⟨f, hr, hf⟩ := exists_of_replay hru
  simp only [Bool.and_eq_true, Option.any_eq_true, List.any_eq_true, decide_eq_true_eq] at hf
  obtain ⟨⟨ho, ha⟩, d, -, e, -, hc, hv⟩ := hf
  obtain ⟨f', hf'⟩ := isSome_iff_exists.mp ha
  refine ⟨f, f.revoke ⟨0⟩, f', e.cap, hr, hc, hv, rfl, hf', ?_⟩
  exact (authority_never_returns hr (.inl ho) (.inl rfl) rfl (.single ⟨_, trivial, hf'⟩)).1 _ hc

end Fabric

end Anka
