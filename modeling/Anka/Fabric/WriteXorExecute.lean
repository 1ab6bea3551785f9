import Anka.Fabric.Amplification
import Anka.Fabric.Writes

/-!
# Write xor execute

Capabilities are never purged, so the law ties every capability that was ever minted to the state of
its object: a live object is at generation 0 while `Active` and at generation 1 once `Sealed`, and a
capability of generation 0 has no EXECUTE, one of generation 1 no WRITE, ATOMIC or SEAL. Two
capabilities over one object that both validate have its generation, hence not the one and the
other.

After a seal the object is never `Active` again (`Frozen`), so no transaction of a mutating kind
passes the gate over it, and a commit over another object is apart from its extent. There are two
exceptions (`sealed_object_written`). `execute_atomic_xchg` asks for the permission of the request's
kind and writes whatever that kind is, so a request of kind Read or Fetch writes a sealed object
with READ or EXECUTE alone. And a commit lands where the translation found its object, which by then
may be the extent of a sealed one (`InPlace`).
-/

namespace Anka

open Rust Res

/-- The permissions that change an object. -/
def Permissions.modifies (p : Permissions) : Bool :=
  p.contains .WRITE || p.contains .ATOMIC || p.contains .SEAL

variable {cap : Capability64}

namespace Fabric

variable {G : Guard} {f f' : Fabric} {id : ObjectId}

/-! ## The invariant -/

/-- What a capability of each generation may carry. -/
def Exclusive (cap : Capability64) : Prop :=
  cap.generation = ⟨0⟩ ∧ cap.permissions.contains .EXECUTE = false ∨
    cap.generation = ⟨1⟩ ∧ cap.permissions.contains .WRITE = false ∧
      cap.permissions.contains .ATOMIC = false ∧ cap.permissions.contains .SEAL = false

/-- Generations follow states, and minted capabilities follow generations. -/
structure WriteXorExecute (f : Fabric) : Prop where
  active : ∀ id obj, f.objects.get id = some obj → obj.state = .active → obj.generation = ⟨0⟩
  sealed : ∀ id obj, f.objects.get id = some obj → obj.state = .sealed → obj.generation = ⟨1⟩
  caps : ∀ cap, f.Presentable cap → Exclusive cap

variable {root : Capability64} {obj : Object} {op : FabricOp}

theorem not_contains_of_within {p : Permissions} (h : cap.Within root)
    (hr : root.permissions.contains p = false) : cap.permissions.contains p = false := by
  by_contra hcap
  rw [Permissions.contains_trans h.permissions (Bool.not_eq_false _ ▸ hcap)] at hr
  cases hr

theorem Exclusive.of_within (h : Exclusive root) (hw : cap.Within root) : Exclusive cap := by
  rcases h with ⟨hg, hex⟩ | ⟨hg, hwr, ha, hs⟩
  · exact .inl ⟨hw.generation.trans hg, not_contains_of_within hw hex⟩
  · exact .inr ⟨hw.generation.trans hg, not_contains_of_within hw hwr,
      not_contains_of_within hw ha, not_contains_of_within hw hs⟩

theorem WriteXorExecute.granted {o : ObjectId} {off l : Nat} {p : Permissions}
    (h : WriteXorExecute f) (ho : f.objects.get o = some obj) (hg : grantable obj.state p = true) :
    Exclusive (rootOf obj o off l p) := by
  unfold grantable at hg
  split at hg
  · rename_i hs
    rw [Bool.not_eq_true'] at hg
    exact .inl ⟨h.active o obj ho hs, hg⟩
  · rename_i hs
    simp only [Bool.not_eq_true', Bool.or_eq_false_iff] at hg
    exact .inr ⟨h.sealed o obj ho hs, hg.1.1, hg.1.2, hg.2⟩
  · cases hg

theorem Change.generations (hc : Change G f f') (h : WriteXorExecute f) (id : ObjectId)
    (obj : Object) (ho : f'.objects.get id = some obj) :
    (obj.state = .active → obj.generation = ⟨0⟩) ∧
      (obj.state = .sealed → obj.generation = ⟨1⟩) := by
  rcases hc.object ho with ⟨obj0, ho0, rfl | rfl | ⟨ha, rfl⟩⟩ | ⟨-, -, -, hg, hst⟩
  · exact ⟨h.active id obj ho0, h.sealed id obj ho0⟩
  · exact ⟨fun ha => (by cases ha), fun hs => by cases hs⟩
  · refine ⟨fun ha => (by cases ha), fun _ => ?_⟩
    -- the bump of a seal is from 0 to 1
    rw [h.active id obj0 ho0 ha]
    rfl
  · exact ⟨fun _ => hg, fun hs => by rw [hst] at hs; cases hs⟩

theorem Change.writeXorExecute (hG : G.numbered) (hc : Change G f f') (h : WriteXorExecute f) :
    WriteXorExecute f' := by
  refine ⟨fun id obj ho => (hc.generations h id obj ho).1,
    fun id obj ho => (hc.generations h id obj ho).2, fun cap hca => ?_⟩
  rcases hc.presentable hG hca with
    hold | ⟨_, obj, o, _, _, _, rfl, hob, hg, -⟩ | ⟨p, hp, hw⟩
  · exact h.caps cap hold
  · exact h.granted hob hg
  · exact (h.caps p hp).of_within hw

theorem Fresh.writeXorExecute (h : Fresh f) : WriteXorExecute f := by
  have hn : ∀ id obj, f.objects.get id ≠ some obj := by
    intro id obj ho
    rw [h.objects, Map.get_empty] at ho
    cases ho
  refine ⟨fun id obj ho => absurd ho (hn id obj), fun id obj ho => absurd ho (hn id obj),
    fun cap hc => ?_⟩
  obtain ⟨_, _, hr, -⟩ := h.noAmplification cap hc
  rw [h.history] at hr
  cases hr

theorem Reachable.writeXorExecute (h : Reachable f) : WriteXorExecute f :=
  h.invariant (fun _ _ => Change.writeXorExecute trivial) fun _ => Fresh.writeXorExecute

/-! ## Validating capabilities -/

theorem WriteXorExecute.sealed_caps (h : WriteXorExecute f) (hca : f.Presentable cap)
    (hc : Current f cap obj) (hst : obj.state ≠ .active) : cap.permissions.modifies = false := by
  have hs : obj.state = .sealed := by
    rcases ObjectState.isLive_iff.mp hc.live with hac | hs
    · exact absurd hac hst
    · exact hs
  have hg : cap.generation = ⟨1⟩ :=
    hc.generation.trans (h.sealed cap.object obj hc.object hs)
  rcases h.caps cap hca with ⟨hz, -⟩ | ⟨-, hw, ha, hse⟩
  · rw [hg] at hz
    cases hz
  · simp [Permissions.modifies, hw, ha, hse]

theorem WriteXorExecute.active_caps (h : WriteXorExecute f)
    (hca : f.Presentable cap) (hc : Current f cap obj) (hs : obj.state = .active) :
    cap.permissions.contains .EXECUTE = false := by
  have hg : cap.generation = ⟨0⟩ :=
    hc.generation.trans (h.active cap.object obj hc.object hs)
  rcases h.caps cap hca with ⟨-, hex⟩ | ⟨ho, -⟩
  · exact hex
  · rw [hg] at ho
    cases ho

theorem WriteXorExecute.exclusive (h : WriteXorExecute f) {a b : Capability64}
    (ha : f.Presentable a) (hb : f.Presentable b) (ho : a.object = b.object)
    (hv : f.validate a = true) (hva : f.validate b = true)
    (hex : a.permissions.contains .EXECUTE = true) : b.permissions.modifies = false := by
  obtain ⟨-, obj, hc⟩ := validate_eq_true.mp hv
  obtain ⟨-, obj', hcu⟩ := validate_eq_true.mp hva
  obtain rfl := Option.some.inj (hc.object.symm.trans (ho ▸ hcu.object))
  refine h.sealed_caps hb hcu fun hac => ?_
  rw [h.active_caps ha hc hac] at hex
  cases hex

/-! ## After a seal -/

/-- The object is sealed or gone, for good. -/
def Frozen (id : ObjectId) (f : Fabric) : Prop := Settled (fun state => state ≠ .active) id f

theorem Change.frozen (hc : Change G f f') (h : Frozen id f) : Frozen id f' :=
  hc.settled (by simp) (by simp) h

theorem sealObject_frozen (hi : Identities f) (h : (f.sealObject id).1 = true) :
    Frozen id (f.sealObject id).2 := by
  unfold sealObject at h ⊢
  split at h
  · cases h
  rename_i hp
  rw [if_neg hp]
  split at h
  · cases h
  rename_i obj ho
  split at h
  · cases h
  rename_i ha
  simp only [if_neg ha]
  refine ⟨hi.objects id obj ho, fun obj' hob' => ?_⟩
  rw [Map.get_insert, if_pos rfl] at hob'
  cases hob'
  intro ha
  cases ha

theorem WriteXorExecute.denied (hw : WriteXorExecute f) {r : MemoryRequest}
    (hs : ∀ obj, f.objects.get r.object = some obj → obj.state ≠ .active)
    (hki : r.kind.mutates = true) (g : Generation) : f.authorize r ≠ ok g := by
  intro ha
  obtain ⟨cap, ⟨d, e, hd, he, rfl, hco, hv⟩, -⟩ := authorize_eq_ok ha
  obtain ⟨hca, -, hp, -⟩ := Capability64.covers_iff.mp hco
  obtain ⟨-, obj, hc⟩ := validate_eq_true.mp hv
  have hn := hw.sealed_caps (.inr ⟨_, d, e, hd, he, rfl⟩) hc (hs obj (hca ▸ hc.object))
  simp only [Permissions.modifies, Bool.or_eq_false_iff] at hn
  cases hk : r.kind with
  | read => simp [hk, AccessKind.mutates] at hki
  | fetch => simp [hk, AccessKind.mutates] at hki
  | write =>
    rw [hk] at hp
    rw [show e.cap.permissions.contains .WRITE = true from hp] at hn
    cases hn.1.1
  | atomic =>
    rw [hk] at hp
    rw [show e.cap.permissions.contains .ATOMIC = true from hp] at hn
    cases hn.1.2

/-- An exchange over the object of a kind that does not mutate. -/
def ExchangesAsRead (id : ObjectId) (op : FabricOp) : Prop :=
  ∃ request data, op = .executeAtomicXchg request data ∧ request.object = id ∧
    request.kind.mutates = false

/-- **A checked call keeps the bytes of a sealed object**, unless it is an exchange over it of a
kind that does not mutate, or commits a transaction whose object has left its place. -/
theorem WriteXorExecute.sealed_byte {base a : Nat} (hwx : WriteXorExecute f) (hp : Provenance f)
    (hop : op.Checked) (hpl : InPlace f op) (hr : ¬ ExchangesAsRead id op)
    (hs : f.step op = some f') (ho : f.objects.get id = some obj) (hst : obj.state = .sealed)
    (hb : f.placement.get id = some base) (ha : a ∈ span base obj.size) :
    f'.memory[a]? = f.memory[a]? := by
  have hl : obj.state.isLive = true := by rw [hst]; rfl
  refine (step_transacts hop hpl hs).writes.byte hp ⟨obj, ho, hl, rfl, hb⟩
    (fun request g hw hi => ?_) ha
  refine hwx.denied (fun obj' hob' hac => ?_) ?_ g
  · obtain rfl := Option.mem_unique ho (hi ▸ hob')
    rw [hst] at hac
    cases hac
  · rcases hw with hm | ⟨data, rfl⟩
    · exact hm
    · by_contra hreads
      exact hr ⟨request, data, rfl, hi, Bool.not_eq_true _ ▸ hreads⟩

theorem Frozen.commits (h : Frozen id f) (hw : WriteXorExecute f) (hn : Numbered f)
    (hs : f.step op = some f') {idx : Nat} {tx : Transaction} (ht : f'.transactions[idx]? = some tx)
    (hco : tx.state = .committed) (ho : tx.request.object = id)
    (hne : f.transactions[idx]? ≠ some tx) : tx.request.kind.mutates = false := by
  by_contra hmutates
  have hch := run_changes (G := Guard.any) (fun _ => hn) (op.meets_any f) (step_eq_some.mp hs)
  exact hne (hch.committed_before (fun g => Frozen id g ∧ WriteXorExecute g)
    (fun request => request.object = id ∧ request.kind.mutates = true)
    (fun g g' hc hg => ⟨hc.frozen hg.1, hc.writeXorExecute trivial hg.2⟩)
    (fun g request gen hg hr => hg.2.denied (hr.1 ▸ hg.1.2) hr.2 gen) ⟨h, hw⟩ ht
    ⟨ho, Bool.not_eq_false _ ▸ hmutates⟩ hco)

/-- **Write xor execute.** In every reachable Fabric no capability with EXECUTE validates while one
with WRITE, ATOMIC or SEAL on the same object does, in any two domains. After a seal no step of any
later run commits a transaction of a mutating kind over the object, and no call that runs
transactions changes a byte of its extent, as long as it is not an exchange over the object of kind
Read or Fetch, and does not commit a transaction whose object has moved since it was translated. No
transaction is of that sort in a run that keeps prepared objects in place. -/
theorem write_xor_execute (hreach : Reachable f) :
    (∀ domain domain' d d' e e', f.domains.get domain = some d → f.domains.get domain' = some d' →
      e ∈ d.capabilities → e' ∈ d'.capabilities → e.cap.object = e'.cap.object →
      f.validate e.cap = true → f.validate e'.cap = true →
      e.cap.permissions.contains .EXECUTE = true →
      e'.cap.permissions.contains .WRITE = false ∧ e'.cap.permissions.contains .ATOMIC = false ∧
        e'.cap.permissions.contains .SEAL = false) ∧
    (∀ id (f' : Fabric) op (f'' : Fabric), (f.sealObject id).1 = true →
      Machine.Run step (fun _ _ => True) (f.sealObject id).2 f' → f'.step op = some f'' →
      (∀ (idx : Nat) tx, f''.transactions[idx]? = some tx → tx.state = .committed →
        tx.request.object = id →
        f'.transactions[idx]? ≠ some tx → tx.request.kind.mutates = false) ∧
      (op.OnTrace → InPlace f' op → ¬ ExchangesAsRead id op → ∀ obj base a,
        f'.objects.get id = some obj → obj.state.isLive = true → f'.placement.get id = some base →
        a ∈ span base obj.size → f''.memory[a]? = f'.memory[a]?)) ∧
    ∀ f' op, Machine.ReachableIf step (fun f op => f.keepsPrepared op = true) Constructed f' →
      InPlace f' op := by
  have hw := hreach.writeXorExecute
  refine ⟨?_, ?_, fun f' op hk => inPlace_of_run hk⟩
  · intro domain domain' d d' e e' hd hd' he he' ho hv hv' hex
    have hn := hw.exclusive (.inr ⟨domain, d, e, hd, he, rfl⟩)
      (.inr ⟨domain', d', e', hd', he', rfl⟩)
      ho hv hv' hex
    simp only [Permissions.modifies, Bool.or_eq_false_iff] at hn
    exact ⟨hn.1.1, hn.1.2, hn.2⟩
  · intro id f' op f'' hse hr hst
    have hs : Reachable (f.sealObject id).2 :=
      Machine.Reachable.tail (i := FabricOp.sealObject id) hreach rfl
    have hf : Frozen id f' := run_invariant (fun g op _ _ => op.meets_any g)
      (fun _ _ hc hg => hc.frozen hg) hs.numbered (sealObject_frozen hreach.identities hse) hr
    have hreach' : Reachable f' := Machine.Reachable.trans hs hr
    refine ⟨fun idx tx ht hco ho hne => ?_, fun hop hp hre obj base a hob hl hb ha => ?_⟩
    · exact hf.commits hreach'.writeXorExecute hreach'.numbered hst ht hco ho hne
    · have hsta : obj.state = .sealed :=
        (ObjectState.isLive_iff.mp hl).resolve_left (hf.2 obj hob)
      exact hreach'.writeXorExecute.sealed_byte hreach'.provenance hop.checked hp hre hst hob
        hsta hb ha

/-- A request of kind Read over the first bytes of object 0. -/
def readingExchange : MemoryRequest :=
  { context := { agent := ⟨0⟩, domain := ⟨0⟩, privilege := .user }, object := ⟨0⟩, offset := 0
    width := .word, length := 4, kind := .read }

/-- The calls before the seal: an object of sixteen bytes at address 0, and a domain. -/
def beforeSeal : List FabricOp :=
  [.allocObject "code" 16 .memory, .placeObject ⟨0⟩ 0, .createDomain]

/-- Two objects side by side, and a prepared write of four bytes to object 1. -/
def writeBeside : List FabricOp :=
  beforeSeal ++ [.allocObject "data" 16 .memory, .placeObject ⟨1⟩ 16, .grant ⟨0⟩ ⟨1⟩ 0 16 .RW,
    .submit { readingExchange with object := ⟨1⟩, kind := .write } (some [1, 2, 3, 4]),
    .advance 0, .advance 0]

/-- Object 0 is sealed while the write to object 1 is prepared. The commit changes the bytes of
object 1, and none of object 0. -/
theorem write_xor_execute_after_seal : ∃ f f'' : Fabric, Reachable f ∧
    (f.sealObject ⟨0⟩).1 = true ∧ (f.sealObject ⟨0⟩).2.step (.advance 0) = some f'' ∧
    f''.memory ≠ (f.sealObject ⟨0⟩).2.memory ∧
    ∀ a ∈ span 0 16, f''.memory[a]? = (f.sealObject ⟨0⟩).2.memory[a]? := by
  have hru : (Fabric.new exactHost 64).isOkAnd (fun f =>
      (Machine.replay step (fun f op => f.keepsPrepared op = true) writeBeside f).any fun f =>
        (f.sealObject ⟨0⟩).1 && decide ((f.sealObject ⟨0⟩).2.placement.get ⟨0⟩ = some 0) &&
          ((f.sealObject ⟨0⟩).2.objects.get ⟨0⟩).any
            (fun obj => decide (obj.state.isLive = true ∧ obj.size = 16)) &&
          ((f.sealObject ⟨0⟩).2.step (.advance 0)).any fun f'' =>
            decide (f''.memory ≠ (f.sealObject ⟨0⟩).2.memory)) = true := by
    decide +kernel
  obtain ⟨f, ⟨f0, hin, hk⟩, hf⟩ := exists_of_replay hru
  simp only [Bool.and_eq_true, Option.any_eq_true, decide_eq_true_eq] at hf
  obtain ⟨⟨⟨hs, hp⟩, obj, ho, hli, hsi⟩, f'', hst, hw⟩ := hf
  have hr : Reachable f := Machine.ReachableIf.reachable ⟨f0, hin, hk⟩
  obtain ⟨-, hl, hi⟩ := write_xor_execute hr
  refine ⟨f, f'', hr, hs, hst, hw, fun a ha => ?_⟩
  refine (hl ⟨0⟩ _ _ f'' hs .refl hst).2 trivial (hi _ _ ?_) ?_ obj 0 a ho hli hp (hsi ▸ ha)
  · exact ⟨f0, hin, hk.tail ⟨.sealObject ⟨0⟩, rfl, rfl⟩⟩
  · rintro ⟨_, _, h, -⟩
    cases h

/-- **A sealed object is written.** A domain with READ alone exchanges four bytes of it; and the
write that was prepared for object 0 lands in object 1, which was put into its place and sealed. -/
theorem sealed_object_written :
    (∃ f f' f'' : Fabric, Reachable f ∧ (f.sealObject ⟨0⟩).1 = true ∧
      Machine.Run step (fun _ _ => True) (f.sealObject ⟨0⟩).2 f' ∧
      f'.step (.executeAtomicXchg readingExchange [1, 2, 3, 4]) = some f'' ∧
      (∃ tx, f''.transactions = f'.transactions ++ [tx] ∧ tx.state = .committed ∧
        tx.request = readingExchange) ∧
      f'.memory.take 4 = [0, 0, 0, 0] ∧ f''.memory.take 4 = [1, 2, 3, 4]) ∧
    ∃ f f'' : Fabric, Reachable f ∧ (f.sealObject ⟨1⟩).1 = true ∧
      (f.sealObject ⟨1⟩).2.placement.get ⟨1⟩ = some 0 ∧
      (f.sealObject ⟨1⟩).2.step (.advance 0) = some f'' ∧
      (f.sealObject ⟨1⟩).2.memory.take 4 = [0, 0, 0, 0] ∧ f''.memory.take 4 = [1, 2, 3, 4] := by
  constructor
  · have hru : leadsTo 64 beforeSeal (fun f => (f.sealObject ⟨0⟩).1 &&
        (Machine.replay step (fun _ _ => True) [.grant ⟨0⟩ ⟨0⟩ 0 16 .READ] (f.sealObject ⟨0⟩).2).any
          fun f' => decide (f'.transactions = [] ∧ f'.memory.take 4 = [0, 0, 0, 0]) &&
            (f'.step (.executeAtomicXchg readingExchange [1, 2, 3, 4])).any fun f'' =>
              decide (f''.memory.take 4 = [1, 2, 3, 4] ∧ f''.transactions.map
                (fun tx => (tx.state, tx.request)) = [(.committed, readingExchange)])) = true := by
      decide +kernel
    obtain ⟨f, hr, hf⟩ := exists_of_replay hru
    simp only [Bool.and_eq_true, Option.any_eq_true, decide_eq_true_eq] at hf
    obtain ⟨hs, f', hf', ⟨hem, hz⟩, f'', hf'', hw, hro⟩ := hf
    obtain ⟨tx, ht, hsa⟩ := List.map_eq_singleton_iff.mp hro
    obtain ⟨hst, hre⟩ := Prod.mk.inj hsa
    exact ⟨f, f', f'', hr, hs, Machine.run_of_replay hf', hf'',
      ⟨tx, by rw [ht, hem]; rfl, hst, hre⟩, hz, hw⟩
  · have hru : leadsTo 64 (preparedWrite ++ [.moveObject ⟨0⟩ 32, .placeObject ⟨1⟩ 0]) (fun f =>
        decide ((f.sealObject ⟨1⟩).1 = true ∧ (f.sealObject ⟨1⟩).2.placement.get ⟨1⟩ = some 0 ∧
          (f.sealObject ⟨1⟩).2.memory.take 4 = [0, 0, 0, 0]) &&
          ((f.sealObject ⟨1⟩).2.step (.advance 0)).any fun f'' =>
            decide (f''.memory.take 4 = [1, 2, 3, 4])) = true := by
      decide +kernel
    obtain ⟨f, hr, hf⟩ := exists_of_replay hru
    simp only [Bool.and_eq_true, Option.any_eq_true, decide_eq_true_eq] at hf
    obtain ⟨⟨hs, hp, hz⟩, f'', hste, hw⟩ := hf
    exact ⟨f, f'', hr, hs, hp, hste, hz, hw⟩

end Fabric

end Anka
