import Anka.Fabric.Finality
import Anka.Fabric.Provenance

/-!
# Where a commit lands

`phase_translate` records the physical address of a transaction and `phase_commit` uses it as it is:
authority is checked again, the placement is not. A move between the two phases sends the commit to
the place the object has left, which by then may be the extent of another object
(`commit_lands_after_move`).

Under the condition that no placement relocates an object that a prepared transaction names
(`keepsPrepared`), the recorded address is the object's current one (`Translated`), in every
interleaving of any calls. A commit then reads or writes exactly the requested span of its own
object, and by single provenance no byte of another live one.
-/

namespace Anka

open Rust Res Option

variable {id : ObjectId}

namespace Fabric

variable {f f' : Fabric}

/-! ## The condition -/

/-- The placement would take an object away from where a prepared transaction has it. -/
def relocates (f : Fabric) (id : ObjectId) (base : Nat) : Bool :=
  decide (f.placement.get id ≠ some base) &&
    f.transactions.any fun tx => decide (tx.state = .prepared ∧ tx.request.object = id)

/-- The call does not relocate an object that a prepared transaction names. -/
def keepsPrepared (f : Fabric) : FabricOp → Bool
  | .placeObject id base => !f.relocates id base
  | .moveObject id base => !f.relocates id base
  | _ => true

/-- The guard on changes that `keepsPrepared` puts on calls. -/
def Guard.keepsPrepared : Guard := { relocate := fun f id base => f.relocates id base = false }

theorem keepsPrepared_meets {op : FabricOp} (h : f.keepsPrepared op = true) :
    op.Meets Guard.keepsPrepared f := by
  refine ⟨?_, op.within_any f⟩
  cases op with
  | placeObject id base => exact (Bool.not_eq_true' _).mp h
  | moveObject id base => exact (Bool.not_eq_true' _).mp h
  | _ => simp [FabricOp.Abides, Guard.keepsPrepared]

variable {base : Nat} {idx : Nat} {tx : Transaction}

theorem relocates_eq_false (h : f.relocates id base = false) :
    f.placement.get id = some base ∨
      ∀ tx ∈ f.transactions, tx.state = .prepared → tx.request.object ≠ id := by
  unfold relocates at h
  rcases Bool.and_eq_false_iff.mp h with hs | hn
  · exact .inl (by simpa using hs)
  · refine .inr fun tx ht hst ho => ?_
    have := List.any_eq_false.mp hn tx ht
    simp [hst, ho] at this

/-! ## The recorded address -/

/-- The recorded address of a prepared transaction is the one of its object, while there is one. -/
def AtPlace (f : Fabric) (tx : Transaction) : Prop :=
  tx.request.object.raw < f.nextObjectId ∧ ∃ physical, tx.physicalAddress = some physical ∧
    ∀ obj, f.objects.get tx.request.object = some obj →
      ∃ base, f.placement.get tx.request.object = some base ∧ physical = base + tx.request.offset

/-- Placed identities were handed out, and prepared transactions are at their place. -/
structure Translated (f : Fabric) : Prop where
  placed : ∀ id base, f.placement.get id = some base → id.raw < f.nextObjectId
  prepared : ∀ tx ∈ f.transactions, tx.state = .prepared → AtPlace f tx

theorem Translated.keep (h : Translated f) (hc : Change G f f')
    (hp : ∀ id, f'.placement.get id = f.placement.get id) (hn : f.nextObjectId ≤ f'.nextObjectId)
    (ht : ∀ tx ∈ f'.transactions, tx.state = .prepared → tx ∈ f.transactions) : Translated f' := by
  refine ⟨fun id base hpl => ?_, fun tx htx hs => ?_⟩
  · exact Nat.lt_of_lt_of_le (h.placed id base (hp id ▸ hpl)) hn
  · obtain ⟨hl, p, ha, hat⟩ := h.prepared tx (ht tx htx hs) hs
    refine ⟨Nat.lt_of_lt_of_le hl hn, p, ha, fun obj ho => ?_⟩
    rcases hc.object ho with ⟨obj0, ho0, -⟩ | ⟨hi, -⟩
    · obtain ⟨base, hpl, heq⟩ := hat obj0 ho0
      exact ⟨base, (hp _).trans hpl, heq⟩
    · -- no prepared transaction names the new identity
      omega

theorem Translated.set_row (h : Translated f) (hp : f'.placement = f.placement)
    (ho : f'.objects = f.objects) (hn : f'.nextObjectId = f.nextObjectId)
    (htxs : f'.transactions = f.transactions.set idx tx)
      (ht : tx.state = .prepared → AtPlace f tx) :
    Translated f' := by
  refine ⟨fun id base hpl => ?_, fun tx' ht' hs => ?_⟩
  · rw [hn]
    exact h.placed id base (hp ▸ hpl)
  · rw [htxs] at ht'
    have ha : AtPlace f tx' := by
      rcases List.mem_or_eq_of_mem_set ht' with hold | rfl
      · exact h.prepared tx' hold hs
      · exact ht hs
    unfold AtPlace at ha ⊢
    rwa [hp, ho, hn]

theorem placed_translated {obj : Object} (h : Translated f) (hids : Identities f)
    (ho : f.objects.get id = some obj) (hk : f.relocates id base = false)
    (hob : f'.objects = f.objects) (hplm : f'.placement = f.placement.insert id base)
    (hn : f'.nextObjectId = f.nextObjectId) (ht : f'.transactions = f.transactions) :
    Translated f' := by
  refine ⟨fun id' base' hp => ?_, fun tx htx hst => ?_⟩
  · rw [hplm, Map.get_insert] at hp
    rw [hn]
    split at hp
    · rename_i heq
      exact heq ▸ hids.objects id obj ho
    · exact h.placed id' base' hp
  · obtain ⟨hl, p, ha, hat⟩ := h.prepared tx (ht ▸ htx) hst
    refine ⟨hn ▸ hl, p, ha, fun obj' hobj' => ?_⟩
    obtain ⟨base', hp', heq⟩ := hat obj' (hob ▸ hobj')
    rw [hplm, Map.get_insert]
    split
    · -- the transaction's own object: it stays at its base
      rename_i hi
      rcases relocates_eq_false hk with hs | hno
      · rw [hi, hs] at hp'
        exact ⟨base, rfl, some.inj hp' ▸ heq⟩
      · exact absurd hi (hno tx (ht ▸ htx) hst)
    · exact ⟨base', hp', heq⟩

theorem erased_translated (h : Translated f) (hob : f'.objects = f.objects.erase id)
    (hplm : f'.placement = f.placement.erase id)
    (hl : ∀ id', id' ≠ id → id'.raw < f.nextObjectId → id'.raw < f'.nextObjectId)
    (htxs : ∀ tx ∈ f'.transactions, tx ∈ f.transactions)
    (hn : ∀ tx ∈ f'.transactions, tx.request.object.raw < f.nextObjectId →
      tx.request.object.raw < f'.nextObjectId) : Translated f' := by
  refine ⟨fun id' base hp => ?_, fun tx ht hs => ?_⟩
  · rw [hplm, Map.get_erase] at hp
    split at hp
    · cases hp
    · exact hl id' ‹_› (h.placed id' base hp)
  · obtain ⟨hr, p, ha, hat⟩ := h.prepared tx (htxs tx ht) hs
    refine ⟨hn tx ht hr, p, ha, fun obj ho => ?_⟩
    rw [hob, Map.get_erase] at ho
    split at ho
    · cases ho
    · rename_i hne
      obtain ⟨base, hp, heq⟩ := hat obj ho
      refine ⟨base, ?_, heq⟩
      rw [hplm, Map.get_erase, if_neg hne]
      exact hp

theorem Change.translated (hc : Change Guard.keepsPrepared f f') (hi : Identities f)
    (h : Translated f) : Translated f' := by
  have hk := h.keep hc
  cases hc with
  | silent _ _ _ _ _ _ _ _ _ hn _ _ => exact hk (fun _ => rfl) hn fun _ ht _ => ht
  | placed id base obj ho _ _ _ hg =>
    exact placed_translated h hi ho hg rfl rfl rfl rfl
  | allocated => exact hk (fun _ => rfl) (Nat.le_succ _) fun _ ht _ => ht
  | destroyed id =>
    exact erased_translated h rfl rfl (fun _ _ hl => hl) (fun _ ht => ht) fun _ _ hl => hl
  | rolledBack id obj _ _ hn _ hu =>
    refine erased_translated h rfl rfl (fun id' hne hl => ?_) (fun _ ht => ht) fun tx ht hl => ?_
    · have hr := ObjectId.raw_ne hne
      dsimp only
      omega
    · have hr := ObjectId.raw_ne (hu tx ht)
      dsimp only
      omega
  | submitted tx _ hs =>
    refine hk (fun _ => rfl) (Nat.le_refl _) fun tx' ht' hp => ?_
    rcases List.mem_append.mp ht' with hold | hnw
    · exact hold
    · rw [List.mem_singleton.mp hnw, hs] at hp
      cases hp
  | prepared idx tx p ht hs htr =>
    refine h.set_row rfl rfl rfl rfl fun _ => ?_
    obtain ⟨base, hpl, -, rfl⟩ := translate_eq_some htr
    exact ⟨h.placed _ base hpl, _, rfl, fun _ _ => ⟨base, hpl, rfl⟩⟩
  | authorized | faulted | readCommitted | writeCommitted =>
    exact h.set_row rfl rfl rfl rfl fun hp => by cases hp
  | traceCleared =>
    exact hk (fun _ => rfl) (Nat.le_refl _) fun _ ht => by cases ht
  | _ => exact hk (fun _ => rfl) (Nat.le_refl _) fun _ ht _ => ht

theorem translated_of_run
    (h : Machine.ReachableIf step (fun f op => f.keepsPrepared op = true) Constructed f) :
    Translated f := by
  have hb : Identities f ∧ Translated f := by
    refine @reachableIf_invariant Guard.keepsPrepared f (fun g => Identities g ∧ Translated g) _
      (fun g op _ ho => keepsPrepared_meets ho)
      (fun g g' hc hg => ⟨hc.identities hg.1, hc.translated hg.1 hg.2⟩)
      (fun g hg => ⟨hg.identities, ?_, ?_⟩) h
    · intro id base hp
      rw [hg.placement, Map.get_empty] at hp
      cases hp
    · intro tx ht
      rw [hg.transactions] at ht
      cases ht
  exact hb.2

theorem phase_of_step (hs : f.step (.advance idx) = some f')
    (ht : f.transactions[idx]? = some tx) : Phase f idx tx f' := by
  rcases step_eq_some.mp hs with ho | her
  · obtain ⟨tx0, ht0, hp⟩ := advance_eq_ok ho
    exact mem_unique ht0 ht ▸ hp
  · exact absurd her advance_ne_err

theorem Provenance.request_apart {r : MemoryRequest} {g : Generation} (hp : Provenance f)
    (hau : f.authorize r = ok g) (hpl : f.placement.get r.object = some base) {base' n : Nat}
    (hn : id ≠ r.object) (hoc : Occupies f id base' n) :
    Disjoint (span (base + r.offset) r.length) (span base' n) := by
  obtain ⟨obj, ho, hl, -, -, hr⟩ := authorize_object hau
  have hown : Occupies f r.object base obj.size := ⟨obj, ho, hl, rfl, hpl⟩
  have hs : span (base + r.offset) r.length ⊆ span base obj.size := by
    intro a ha
    simp only [span, Set.mem_Ico] at ha ⊢
    omega
  exact (disjoint_span (hp.apart _ _ _ _ _ _ hn.symm hown hoc)).mono_left hs

/-- **A commit lands at the object's place**, in every run whose calls do not relocate an object
that a prepared transaction names. When a phase takes a transaction to `Committed`, its object is
placed; a mutating kind replaces exactly the requested span there by its payload, another kind
captures exactly this span and changes nothing; and the span shares no byte with the extent of
another object that is `Active` or `Sealed`. -/
theorem commit_lands_at_place {idx : Nat} {tx tx' : Transaction}
    (hreach : Machine.ReachableIf step (fun f op => f.keepsPrepared op = true) Constructed f)
    (hstep : f.step (.advance idx) = some f') (htx : f.transactions[idx]? = some tx)
    (htx' : f'.transactions[idx]? = some tx') (hbefore : tx.state ≠ .committed)
    (hafter : tx'.state = .committed) :
    ∃ base, f.placement.get tx.request.object = some base ∧
      base + tx.request.offset + tx.request.length ≤ f.memory.length ∧
      (tx.request.kind.mutates = true → ∃ data, tx.writeData = some data ∧
        data.length = tx.request.length ∧
        f'.memory = overwrite f.memory (base + tx.request.offset) data) ∧
      (tx.request.kind.mutates = false → f'.memory = f.memory ∧
        tx'.readData = some (slice f.memory (base + tx.request.offset) tx.request.length)) ∧
      ∀ id base' obj, id ≠ tx.request.object → f.placement.get id = some base' →
        f.objects.get id = some obj → (obj.state = .active ∨ obj.state = .sealed) →
        Disjoint (span (base + tx.request.offset) tx.request.length) (span base' obj.size) := by
  have han : Reachable f := Machine.ReachableIf.reachable hreach
  obtain ⟨hpr, base0, stop, hg, hef⟩ :=
    (phase_of_step hstep htx).commits htx htx' hbefore hafter
  obtain ⟨gen, hau⟩ := hg.authorized
  obtain ⟨obj, ho, -⟩ := authorize_object hau
  -- the gate's address is the recorded one, and the recorded one is the object's
  obtain ⟨-, physical, ha, hat⟩ :=
    (translated_of_run hreach).prepared tx (List.mem_of_getElem? htx) hpr
  obtain ⟨base, hp, rfl⟩ := hat obj ho
  obtain rfl := mem_unique ha hg.address
  have hs : stop - (base + tx.request.offset) = tx.request.length := by
    rw [hg.stop_eq, Nat.add_sub_cancel_left]
  have hf := hg.fits
  rw [hg.stop_eq] at hf
  rw [hs] at hef
  refine ⟨base, hp, hf, fun hk => ?_, fun hk => ?_, ?_⟩
  · rcases hef with ⟨hr, -⟩ | ⟨-, data, hd, hle, hm⟩
    · rw [hk] at hr
      cases hr
    · exact ⟨data, hd, hle, hm⟩
  · rcases hef with ⟨-, hm, hd⟩ | ⟨hw, -⟩
    · exact ⟨hm, hd⟩
    · rw [hk] at hw
      cases hw
  · intro id base' obj' hn hp' ho' hl
    exact han.provenance.request_apart hau hp hn
      ⟨obj', ho', ObjectState.isLive_iff.mpr hl, rfl, hp'⟩

/-! ## Both sides of the condition -/

/-- A write of four bytes to the start of object 0. -/
def fourBytes : MemoryRequest :=
  { context := { agent := ⟨0⟩, domain := ⟨0⟩, privilege := .user }, object := ⟨0⟩, offset := 0
    width := .word, length := 4, kind := .write }

/-- Object 0 at address 0, object 1 unplaced, and a prepared write to object 0. -/
def preparedWrite : List FabricOp :=
  [.allocObject "a" 16 .memory, .placeObject ⟨0⟩ 0, .allocObject "b" 16 .memory, .createDomain,
    .grant ⟨0⟩ ⟨0⟩ 0 16 .RW, .submit fourBytes (some [1, 2, 3, 4]), .advance 0, .advance 0]

/-- Object 1 goes beside object 0, and the write lands in object 0. -/
theorem commit_lands_at_place_beside : ∃ f f' : Fabric, f.step (.advance 0) = some f' ∧
    f.placement.get ⟨1⟩ = some 16 ∧ f'.memory = overwrite f.memory 0 [1, 2, 3, 4] := by
  have hru : (Fabric.new exactHost 64).isOkAnd (fun f =>
      (Machine.replay step (fun f op => f.keepsPrepared op = true)
        (preparedWrite ++ [.placeObject ⟨1⟩ 16]) f).any fun f =>
        decide (f.placement.get ⟨0⟩ = some 0 ∧ f.placement.get ⟨1⟩ = some 16) &&
          (f.step (.advance 0)).any fun f' => f.transactions[0]?.any fun tx =>
            f'.transactions[0]?.any fun tx' => decide (tx.state = .prepared ∧
              tx.request = fourBytes ∧ tx.writeData = some [1, 2, 3, 4] ∧
              tx'.state = .committed)) = true := by
    decide +kernel
  obtain ⟨f, hre, hf⟩ := exists_of_replay hru
  simp only [Bool.and_eq_true, any_eq_true, decide_eq_true_eq] at hf
  obtain ⟨⟨hpl, hbe⟩, f', hs, tx, ht, tx', ht', hpr, hr, hd, ha⟩ := hf
  obtain ⟨base, hb, -, hw, -⟩ :=
    commit_lands_at_place hre hs ht ht' (by simp [hpr]) ha
  obtain ⟨data, hp, -, hm⟩ := hw (by rw [hr]; rfl)
  rw [hr] at hb hm
  obtain rfl := mem_unique hpl hb
  obtain rfl := mem_unique hd hp
  exact ⟨f, f', hs, hbe, hm⟩

/-- **A commit lands after a move.** Object 0 moves to address 32 and object 1 takes its old place;
the write that was prepared for object 0 then changes the bytes of object 1 and none of object 0. -/
theorem commit_lands_after_move : ∃ (f f' : Fabric) (tx tx' : Transaction), Reachable f ∧
    f.step (.advance 0) = some f' ∧ f.transactions[0]? = some tx ∧ f'.transactions[0]? = some tx' ∧
    tx.state = .prepared ∧ tx'.state = .committed ∧ tx.request = fourBytes ∧
    f.placement.get ⟨0⟩ = some 32 ∧ f.placement.get ⟨1⟩ = some 0 ∧
    (∃ obj, f.objects.get ⟨1⟩ = some obj ∧ obj.state = .active ∧ obj.size = 16) ∧
    slice f.memory 0 4 = [0, 0, 0, 0] ∧ slice f'.memory 0 4 = [1, 2, 3, 4] ∧
    slice f'.memory 32 16 = slice f.memory 32 16 := by
  have hru : leadsTo 64 (preparedWrite ++ [.moveObject ⟨0⟩ 32, .placeObject ⟨1⟩ 0]) (fun f =>
        (f.step (.advance 0)).any fun f' => f.transactions[0]?.any fun tx =>
          f'.transactions[0]?.any fun tx' => decide (tx.state = .prepared ∧
            tx'.state = .committed ∧ tx.request = fourBytes ∧
            f.placement.get ⟨0⟩ = some 32 ∧ f.placement.get ⟨1⟩ = some 0 ∧
            (f.objects.get ⟨1⟩).any (fun obj => obj.state == .active && obj.size == 16) = true ∧
            slice f.memory 0 4 = [0, 0, 0, 0] ∧ slice f'.memory 0 4 = [1, 2, 3, 4] ∧
            slice f'.memory 32 16 = slice f.memory 32 16)) = true := by
    decide +kernel
  obtain ⟨f, hr, hf⟩ := exists_of_replay hru
  simp only [any_eq_true, decide_eq_true_eq, Bool.and_eq_true, beq_iff_eq] at hf
  obtain ⟨f', hs, tx, ht, tx', ht', hre⟩ := hf
  exact ⟨f, f', tx, tx', hr, hs, ht, ht', hre⟩

end Fabric

end Anka
