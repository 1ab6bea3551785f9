import Anka.Fabric.CommitPlace

/-!
# What the checked calls write (`fabric.rs` 1007–1580)

The calls that run transactions, and the two stores of a heap pointer and of heap bytes, change
memory by one span at most: the requested span of a request that was authorized, at the place of its
object, or bytes of the private heap pool (`Writes`). For `advance` this asks that the transaction
it commits still has its object where the translation found it (`InPlace`), as in every run that
keeps prepared objects in place.

An extent in which no authorized request writes therefore keeps every byte (`Writes.byte`).

Left out: the writers of the kernel that ask for no capability (`initialize_object`,
`try_write_physical`, `zero_physical`, the staging and scrubbing of heap chunks).
-/

namespace Anka

open Rust Res

namespace Fabric

variable {allowed : MemoryRequest → Prop} {f f' : Fabric} {req : MemoryRequest}
  {data : List UInt8}

/-- The memory a checked call leaves: nothing was written, or the span of an authorized request of
`allowed`, or bytes of the pool. -/
inductive Writes (allowed : MemoryRequest → Prop) (f : Fabric) (memory : List UInt8) : Prop
  | nothing (h : memory = f.memory)
  | span (request : MemoryRequest) (g : Generation) (base : Nat) (data : List UInt8)
      (hallowed : allowed request) (hauth : f.authorize request = ok g)
      (hpl : f.placement.get request.object = some base) (hlen : data.length = request.length)
      (hfits : base + request.offset + data.length ≤ f.memory.length)
      (h : memory = overwrite f.memory (base + request.offset) data)
  | pool (heap : HeapFabric) (base : Nat) (data : List UInt8) (hheap : f.privateHeap = some heap)
      (hbase : heap.pool.base ≤ base) (hend : base + data.length ≤ heap.endAddr)
      (hfits : base + data.length ≤ f.memory.length) (h : memory = overwrite f.memory base data)

/-- A checked call: objects and places are as they were. -/
structure Transacts (allowed : MemoryRequest → Prop) (f f' : Fabric) : Prop where
  objects : f'.objects = f.objects
  placement : f'.placement = f.placement
  writes : Writes allowed f f'.memory

theorem Writes.byte {m : List UInt8} {id : ObjectId} {base n a : Nat}
    (h : Writes allowed f m) (hp : Provenance f) (ho : Occupies f id base n)
    (hd : ∀ req g, allowed req → req.object = id → f.authorize req ≠ ok g)
    (ha : a ∈ Rust.span base n) : m[a]? = f.memory[a]? := by
  cases h with
  | nothing h => rw [h]
  | span req g base' data hallowed hauth hpl hlen hfits h =>
    have hn : id ≠ req.object := fun heq => hd req g hallowed heq.symm hauth
    have hap := hp.request_apart hauth hpl hn ho
    rw [h, getElem?_overwrite_of_notMem hfits]
    rw [hlen]
    exact Set.disjoint_right.mp hap ha
  | pool heap base' data hheap hbase hend hfits h =>
    have hou := disjoint_pool hheap (hp.outside id base n ho)
    rw [h, getElem?_overwrite_of_notMem hfits]
    refine fun hm => Set.disjoint_left.mp hou ha ?_
    simp only [Rust.span, Set.mem_Ico, HeapFabric.endAddr] at hm hend ⊢
    omega

/-! ## One call -/

theorem Transacts.refl (f : Fabric) : Transacts allowed f f := ⟨rfl, rfl, .nothing rfl⟩

theorem Logged.transacts (h : Logged f f') : Transacts allowed f f' := by
  rw [h]
  exact ⟨rfl, rfl, .nothing rfl⟩

theorem Effective.transacts (h : Effective f req data f') (hallowed : allowed req) :
    Transacts allowed f f' := by
  obtain ⟨g, hauth⟩ := h.authorized
  obtain ⟨physical, ht, hlen, hfits, -, hm, -⟩ := h.effect
  obtain ⟨base, hpl, -, rfl⟩ := translate_eq_some ht
  refine ⟨by rw [h.frame], by rw [h.frame], ?_⟩
  exact .span req g base data hallowed hauth hpl hlen (by omega) hm

theorem executeRead_transacts : (f.executeRead req).Ends (fun r => Transacts allowed f r.2)
    fun r => Transacts allowed f r.2 := by
  refine ends_of (fun r h => (executeRead_eq_ok h).1.logged.transacts) fun r h => ?_
  simp only [executeRead, bind_eq_err, runToCommit_ne_err, false_or, Prod.exists, unwrap_ne_err,
    pure_eq, reduceCtorEq, and_false, exists_false, or_false] at h
  obtain ⟨idx, g, hr, hs⟩ := h
  exact (settled_eq_err hr hs).logged.transacts

theorem executeWrite_transacts (hallowed : req.kind.mutates = true → allowed req) :
    (f.executeWrite req data).Ends (Transacts allowed f) fun r => Transacts allowed f r.2 := by
  refine ends_of (fun f' h => ?_) fun r h => (executeWrite_eq_err h).logged.transacts
  rcases executeWrite_eq_ok h with ⟨-, hl⟩ | ⟨hk, hef⟩
  · exact hl.transacts
  · exact hef.transacts (hallowed hk)

theorem executeAtomicXchg_transacts (hallowed : allowed req) :
    (f.executeAtomicXchg req data).Ends (fun r => Transacts allowed f r.2)
      fun r => Transacts allowed f r.2 :=
  ends_of (fun _ h => (executeAtomicXchg_effective h).transacts hallowed)
    fun _ h => (executeAtomicXchg_logged h).1.logged.transacts

theorem Transacts.tagCell {key : CellKey} {p : ScopedPointer} (h : Transacts allowed f f') :
    Transacts allowed f (f'.tagCell key p) :=
  ⟨h.objects, h.placement, h.writes⟩

theorem loadPointerCell_transacts : (f.loadPointerCell req).Ends
    (fun r => Transacts allowed f r.2) fun r => Transacts allowed f r.2 := by
  simp only [loadPointerCell, ends_iff]
  refine ends_of (fun key _ => ends_of (fun r hre => ?_) fun r hre => ?_) fun _ _ => .refl f
  · have hr : Transacts allowed f r.2 := executeRead_transacts.ok hre
    exact ⟨fun _ => hr, fun _ _ => hr⟩
  · exact executeRead_transacts.err hre

theorem storePointerCell_transacts {po : Option ScopedPointer}
    (hallowed : req.kind.mutates = true → allowed req) :
    (f.storePointerCell req po).Ends (Transacts allowed f)
      fun r => Transacts allowed f r.2 := by
  simp only [storePointerCell, ends_iff]
  refine ends_of (fun _ _ => ends_of (fun key _ => ends_of (fun g hw => ?_) fun r hw => ?_)
    fun _ _ => .refl f) fun _ _ => .refl f
  · have hg := (executeWrite_transacts hallowed).ok hw
    cases po with
    | none => exact hg
    | some p => exact hg.tagCell
  · exact (executeWrite_transacts hallowed).err hw

theorem storeHeapTokenInLocal_transacts {o : AllocationOwner} {p : ScopedPointer}
    (hallowed : req.kind.mutates = true → allowed req) :
    (f.storeHeapTokenInLocal req o p).Ends (Transacts allowed f)
      fun r => Transacts allowed f r.2 := by
  refine ends_of (fun f' h => ?_) fun r h => ?_
  · obtain ⟨key, g, -, hw, rfl⟩ := storeHeapTokenInLocal_ends.ok h
    exact ((executeWrite_transacts hallowed).ok hw).tagCell
  · rcases storeHeapTokenInLocal_ends.err h with heq | hw
    · rw [heq]
      exact .refl f
    · exact (executeWrite_transacts hallowed).err hw

theorem writeHeap_transacts {l o le : Nat} {ex : HeapExtents} {cell : Bool}
    {span : HeapSpan} {tags : List (Option ScopedPointer) → List (Option ScopedPointer)} {ε : Type}
    (hs : f.checkedHeapBackingSpan l ex o le cell = ok span)
    (h : (f.writeHeap span data tags : Res ε Fabric) = ok f') : Transacts allowed f f' := by
  obtain ⟨_, _, heap, hheap, hc, hfits⟩ := checkedHeapBackingSpan_yields _ _ _ _ _ span hs
  obtain ⟨hlen, rfl, -⟩ := writeHeap_eq_ok (G := Guard.any) hheap hc hfits h
  have hp := hc.in_pool
  rw [hc.stop_eq] at hfits
  exact ⟨rfl, rfl, .pool heap _ data hheap hp.1 (by omega) (by omega) rfl⟩

theorem issuePointerFrame_transacts {o ad : Nat} {r : List Registration}
    {re : Scope × List ScopedPointer}
    (hallowed : ∀ req : MemoryRequest, req.kind.mutates = true → allowed req)
    (h : f.issuePointerFrame o req ad r = ok (re, f')) : Transacts allowed f f' := by
  simp only [issuePointerFrame, checkedLocalBacking, bind_eq_ok, okOr_eq_ok, require_eq_ok,
    mapErr_eq_ok, if_true, checkedAdd_eq_some, pure_eq, Prod.exists, ok.injEq, Prod.mk.injEq] at h
  obtain ⟨_, -, _, -, _, -, _, -, _, ⟨_, -, _, -, g, hauth, -⟩, p, ht, _, ⟨-, rfl⟩, _,
    ⟨-, hfits, -⟩, _, -, _, -, _, -, _, _, -, _, -, _, _, -, -, rfl⟩ := h
  obtain ⟨base, hpl, -, rfl⟩ := translate_eq_some ht
  refine ⟨rfl, rfl, .span { req with kind := .write } g base (List.replicate req.length 0)
    (hallowed _ rfl) hauth hpl (List.length_replicate ..) ?_ rfl⟩
  rwa [List.length_replicate]

theorem retirePointerFrame_transacts {sc : Scope} {l : List ScopedPointer}
    (h : f.retirePointerFrame sc l = ok f') : Transacts allowed f f' := by
  simp only [retirePointerFrame, bind_eq_ok, pure_eq_ok] at h
  obtain ⟨s, -, rfl⟩ := h
  have hl : ∀ g : Fabric, Transacts allowed f g →
      Transacts allowed f (l.foldl retireLocal g) := by
    induction l with
    | nil => exact fun g hg => hg
    | cons p l ih =>
      refine fun g hg => ih _ ?_
      unfold retireLocal
      dsimp only
      split <;> exact ⟨hg.objects, hg.placement, hg.writes⟩
  exact hl _ ⟨rfl, rfl, .nothing rfl⟩

/-- The transaction that an `advance` commits has its object where it was translated. -/
def InPlace (f : Fabric) : FabricOp → Prop
  | .advance idx => ∀ tx, f.transactions[idx]? = some tx → tx.state = .prepared → AtPlace f tx
  | _ => True

theorem inPlace_of_run {op : FabricOp}
    (h : Machine.ReachableIf step (fun f op => f.keepsPrepared op = true) Constructed f) :
    InPlace f op := by
  cases op with
  | advance idx =>
    exact fun tx ht => (translated_of_run h).prepared tx (List.mem_of_getElem? ht)
  | _ => trivial

theorem Phase.transacts {idx : Nat} {tx : Transaction} (h : Phase f idx tx f')
    (hallowed : tx.request.kind.mutates = true → allowed tx.request)
    (hpl : tx.state = .prepared → AtPlace f tx) : Transacts allowed f f' := by
  cases h with
  | authorized | prepared | read | faulted | done => exact ⟨rfl, rfl, .nothing rfl⟩
  | write base stop data g hs hg hk hd hlen hw =>
    obtain ⟨gen, hauth⟩ := hg.authorized
    obtain ⟨obj, ho, -⟩ := authorize_object hauth
    obtain ⟨-, p, ha, hat⟩ := hpl hs
    obtain ⟨base', hp, rfl⟩ := hat obj ho
    obtain rfl := Option.mem_unique ha hg.address
    have hsto := hg.stop_eq
    have hfits := hg.fits
    refine ⟨?_, ?_, .span tx.request gen base' data (hallowed hk) hauth hp (by omega)
      (by omega) ?_⟩ <;> rw [setTransaction, hw.eq]

end Fabric

/-- The calls that programs make: transactions, cells, heap bytes and frames. -/
def FabricOp.Checked : FabricOp → Prop
  | .protectPointerStack _ _ _ => True
  | .storeHeapPointerCell _ _ _ _ => True
  | .writeHeapBytes _ _ _ _ => True
  | .issuePointerFrame _ _ _ _ => True
  | .retirePointerFrame _ _ => True
  | op => op.OnTrace

theorem FabricOp.OnTrace.checked {op : FabricOp} (h : op.OnTrace) : op.Checked := by
  cases op <;> first | exact h | exact h.elim

/-- The requests a call can write for: those of a mutating kind, and an exchange of any kind. -/
def FabricOp.MayWrite (op : FabricOp) (request : MemoryRequest) : Prop :=
  request.kind.mutates = true ∨ ∃ data, op = .executeAtomicXchg request data

namespace Fabric

variable {op : FabricOp}

/-- **What a checked call writes.** -/
theorem step_transacts (ho : op.Checked) (hpl : InPlace f op) (h : f.step op = some f') :
    Transacts op.MayWrite f f' := by
  have hen : (f.run op).Ends (Transacts op.MayWrite f) (Transacts op.MayWrite f) := by
    cases op with
    | submit =>
      refine ends_left.mpr (ends_of (fun r h => ?_) fun _ h => absurd h submit_ne_err)
      obtain ⟨-, tx, hr, -⟩ := submit_eq_ok h
      exact hr.logged.transacts
    | advance idx =>
      refine ends_of (fun g h => ?_) fun _ h => absurd h advance_ne_err
      obtain ⟨tx, ht, hp⟩ := advance_eq_ok h
      exact hp.transacts .inl (hpl tx ht)
    | executeRead => exact ends_left.mpr (ends_snd executeRead_transacts)
    | executeWrite => exact ends_snd (executeWrite_transacts .inl)
    | executeAtomicXchg =>
      exact ends_left.mpr (ends_snd (executeAtomicXchg_transacts (.inr ⟨_, rfl⟩)))
    | storePointerCell => exact ends_snd (storePointerCell_transacts .inl)
    | loadPointerCell => exact ends_left.mpr (ends_snd loadPointerCell_transacts)
    | storeHeapTokenInLocal => exact ends_snd (storeHeapTokenInLocal_transacts .inl)
    | storeHeapPointerCell =>
      refine orKeep_ends (.refl f) fun g h => ?_
      simp only [storeHeapPointerCell, checkedHeapSpan, bind_eq_ok] at h
      obtain ⟨live, -, _, -, span, hs, _, -, hw⟩ := h
      exact writeHeap_transacts hs hw
    | writeHeapBytes =>
      refine orKeep_ends (.refl f) fun g h => ?_
      simp only [writeHeapBytes, checkedHeapSpan, bind_eq_ok] at h
      obtain ⟨live, -, _, -, span, hs, hw⟩ := h
      exact writeHeap_transacts hs hw
    | issuePointerFrame =>
      refine orKeep_ends (.refl f) fun g h => ?_
      obtain ⟨_, h⟩ := left_eq_ok.mp h
      exact issuePointerFrame_transacts (fun _ => .inl) h
    | retirePointerFrame => exact orKeep_ends (.refl f) fun g h => retirePointerFrame_transacts h
    | protectPointerStack =>
      refine orKeep_ends (.refl f) fun g h => ?_
      simp only [protectPointerStack, eq_ok] at h
      obtain ⟨-, -, -, -, rfl⟩ := h
      exact ⟨rfl, rfl, .nothing rfl⟩
    | _ => exact ho.elim
  rcases step_eq_some.mp h with h | h
  · exact hen.ok h
  · exact hen.err h

end Fabric

end Anka
