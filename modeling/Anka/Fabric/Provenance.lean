import Anka.Fabric.Refine

/-!
# Single provenance of physical bytes (I9)

The extent of a placed object that is `Active` or `Sealed` is its own: it ends inside the address
space, it does not reach into the private heap pool, and it shares no address with the extent of
another such object. The scan of `place_object` establishes this for the extent it accepts; it skips
placements of objects that are not live, so what has to be seen is that no change brings a skipped
extent back to life. None does: every other change leaves a subset of the extents that were there
(`Provenance.of_subset`).
-/

namespace Anka

open Rust Res Option

namespace Fabric

variable {G : Guard} {f f' : Fabric}

/-- The placed, live object `id` has the extent `[base, base + n)`. -/
def Occupies (f : Fabric) (id : ObjectId) (base n : Nat) : Prop :=
  ∃ obj, f.objects.get id = some obj ∧ obj.state.isLive = true ∧ obj.size = n ∧
    f.placement.get id = some base

theorem Occupies.congr {id : ObjectId} {base n : Nat} (h : Occupies f id base n)
    (ho : f'.objects.get id = f.objects.get id)
    (hp : f'.placement.get id = f.placement.get id) : Occupies f' id base n := by
  rwa [Occupies, ho, hp]

/-- What holds of the extents of live objects. -/
structure Provenance (f : Fabric) : Prop where
  fits : ∀ id base n, Occupies f id base n → base + n ≤ u64Max
  outside : ∀ id base n, Occupies f id base n → f.heapPoolOverlaps base n = false
  apart : ∀ id base n id' base' n', id ≠ id' → Occupies f id base n → Occupies f id' base' n' →
    ¬ meets base n base' n'

theorem heapPoolOverlaps_congr
    (h : f'.privateHeap.map HeapFabric.pool = f.privateHeap.map HeapFabric.pool) (base n : Nat) :
    f'.heapPoolOverlaps base n = f.heapPoolOverlaps base n := by
  unfold heapPoolOverlaps
  cases hf : f.privateHeap with
  | none =>
    rw [hf, map_none, map_eq_none_iff] at h
    rw [h]
  | some heap =>
    rw [hf, map_some, map_eq_some_iff] at h
    obtain ⟨heap', hf', hp⟩ := h
    rw [hf', any_some, any_some]
    unfold HeapFabric.overlaps HeapFabric.endAddr
    rw [hp]

theorem Provenance.of_subset (h : Provenance f)
    (hs : ∀ id base n, Occupies f' id base n → Occupies f id base n)
    (hp : f'.privateHeap.map HeapFabric.pool = f.privateHeap.map HeapFabric.pool) :
    Provenance f' where
  fits id base n ho := h.fits id base n (hs id base n ho)
  outside id base n ho := by
    rw [heapPoolOverlaps_congr hp]
    exact h.outside id base n (hs id base n ho)
  apart id base n id' base' n' hne ho ho' :=
    h.apart id base n id' base' n' hne (hs id base n ho) (hs id' base' n' ho')

theorem meets_comm {a n b m : Nat} (h : meets a n b m) : meets b m a n := ⟨h.2, h.1⟩

/-- The extent that passed the scan joins the others. -/
theorem placed_provenance {id : ObjectId} {base : Nat} {obj : Object} (h : Provenance f)
    (ho : f.objects.get id = some obj) (hen : base + obj.size ≤ u64Max)
    (hpo : f.heapPoolOverlaps base obj.size = false)
    (hf : ∀ id' base' obj', id' ≠ id → f.placement.get id' = some base' →
      f.objects.get id' = some obj' → obj'.state.isLive = true → base' + obj'.size ≤ u64Max →
      ¬ meets base obj.size base' obj'.size)
    (hob : f'.objects = f.objects) (hplm : f'.placement = f.placement.insert id base)
    (hh : f'.privateHeap = f.privateHeap) : Provenance f' := by
  -- an extent afterwards is the new one or an old one of another object
  have hc : ∀ id' base' n', Occupies f' id' base' n' →
      id' = id ∧ base' = base ∧ n' = obj.size ∨ id' ≠ id ∧ Occupies f id' base' n' := by
    rintro id' base' n' ⟨obj', ho', hl, hs, hp⟩
    rw [hob] at ho'
    rw [hplm, Map.get_insert] at hp
    split at hp
    · rename_i heq
      subst heq
      obtain rfl := mem_unique ho ho'
      exact .inl ⟨rfl, (some.inj hp).symm, hs.symm⟩
    · exact .inr ⟨‹_›, obj', ho', hl, hs, hp⟩
  -- the scan compared the new extent with every old one
  have hnw : ∀ id' base' n', id' ≠ id → Occupies f id' base' n' →
      ¬ meets base obj.size base' n' := by
    rintro id' base' _ hn ⟨obj', ho', hl, rfl, hp⟩
    exact hf id' base' obj' hn hp ho' hl (h.fits id' base' _ ⟨obj', ho', hl, rfl, hp⟩)
  have hov : ∀ b n, f'.heapPoolOverlaps b n = f.heapPoolOverlaps b n := by
    intro b n
    exact heapPoolOverlaps_congr (by rw [hh]) b n
  refine ⟨fun id1 base1 n1 hoc => ?_, fun id1 base1 n1 hoc => ?_,
    fun id1 base1 n1 id2 base2 n2 hn hoc1 hoc2 => ?_⟩
  · rcases hc id1 base1 n1 hoc with ⟨-, rfl, rfl⟩ | ⟨-, hold⟩
    · exact hen
    · exact h.fits id1 base1 n1 hold
  · rw [hov]
    rcases hc id1 base1 n1 hoc with ⟨-, rfl, rfl⟩ | ⟨-, hold⟩
    · exact hpo
    · exact h.outside id1 base1 n1 hold
  · rcases hc id1 base1 n1 hoc1 with ⟨rfl, rfl, rfl⟩ | ⟨hn1, hold1⟩
    · rcases hc id2 base2 n2 hoc2 with ⟨rfl, -, -⟩ | ⟨hn2, hold2⟩
      · exact absurd rfl hn
      · exact hnw id2 base2 n2 hn2 hold2
    · rcases hc id2 base2 n2 hoc2 with ⟨rfl, rfl, rfl⟩ | ⟨-, hold2⟩
      · exact fun hm => hnw id1 base1 n1 hn1 hold1 (meets_comm hm)
      · exact h.apart id1 base1 n1 id2 base2 n2 hn hold1 hold2

theorem Change.provenance (hc : Change G f f') (h : Provenance f) : Provenance f' := by
  have hs : (∀ id base, f'.placement.get id = some base → f.placement.get id = some base) →
      ∀ id base n, Occupies f' id base n → Occupies f id base n := by
    rintro hplm id base n ⟨obj, ho, hl, hsi, hp⟩
    have hp0 := hplm id base hp
    rcases hc.object ho with ⟨obj0, ho0, rfl | rfl | ⟨ha, rfl⟩⟩ | ⟨-, -, hn, -⟩
    · exact ⟨obj, ho0, hl, hsi, hp0⟩
    · simp [ObjectState.isLive] at hl
    · exact ⟨obj0, ho0, by rw [ha]; rfl, hsi, hp0⟩
    · -- a new object is not placed
      rw [hn] at hp0
      cases hp0
  cases hc with
  | silent _ _ _ _ _ _ _ _ hpo _ _ _ => exact h.of_subset (hs fun _ _ hp => hp) hpo
  | heapWrote heap _ _ _ hh =>
    exact h.of_subset (hs fun _ _ hp => hp) (by rw [hh, map_some, map_some])
  | placed id base obj hob hen hpo hf _ =>
    exact placed_provenance h hob hen hpo hf rfl rfl rfl
  | destroyed | rolledBack =>
    refine h.of_subset (hs fun id base hp => ?_) rfl
    rw [Map.get_erase] at hp
    split at hp
    · cases hp
    · exact hp
  | _ => exact h.of_subset (hs fun _ _ hp => hp) rfl

theorem Fresh.provenance (h : Fresh f) : Provenance f := by
  have hn : ∀ id base n, ¬ Occupies f id base n := by
    rintro id base n ⟨obj, -, -, -, hp⟩
    rw [h.placement, Map.get_empty] at hp
    cases hp
  exact ⟨fun id base n ho => absurd ho (hn id base n),
    fun id base n ho => absurd ho (hn id base n),
    fun id base n _ _ _ _ ho => absurd ho (hn id base n)⟩

theorem Reachable.provenance (h : Reachable f) : Provenance f :=
  h.invariant (fun _ _ => Change.provenance) fun _ => Fresh.provenance

/-! ## In terms of addresses -/

theorem disjoint_pool {heap : HeapFabric} {base n : Nat} (hh : f.privateHeap = some heap)
    (h : f.heapPoolOverlaps base n = false) :
    Disjoint (span base n) (span heap.pool.base heap.pool.size) := by
  by_cases hz : n = 0
  · subst hz
    simp [span]
  · refine disjoint_span fun hm => ?_
    unfold heapPoolOverlaps at h
    rw [hh, any_some, HeapFabric.overlaps] at h
    have hp : (n != 0) = true := by simpa using hz
    rw [hp, Bool.true_and] at h
    cases hs : checkedAdd base n with
    | none =>
      rw [hs] at h
      cases h
    | some stop =>
      obtain ⟨-, rfl⟩ := checkedAdd_eq_some.mp hs
      rw [hs, all_some] at h
      simp [HeapFabric.endAddr, hm.1, hm.2] at h

theorem placeObject_refused (id : ObjectId) (base : Nat) (h : (f.placeObject id base).1 = false) :
    (f.placeObject id base).2 = f := by
  unfold placeObject at h ⊢
  repeat' split
  all_goals simp_all

/-- **Single provenance.** The extents of distinct placed objects that are `Active` or `Sealed` are
disjoint, end inside the address space and do not meet the private heap pool; a placement or a move
that returns `false` leaves the placement and the protected cells as they were. -/
theorem single_provenance (hreach : Reachable f) :
    (∀ id id' base base' obj obj', id ≠ id' →
      f.placement.get id = some base → f.placement.get id' = some base' →
      f.objects.get id = some obj → f.objects.get id' = some obj' →
      (obj.state = .active ∨ obj.state = .sealed) → (obj'.state = .active ∨ obj'.state = .sealed) →
      Disjoint (span base obj.size) (span base' obj'.size)) ∧
    (∀ id base obj, f.placement.get id = some base → f.objects.get id = some obj →
      (obj.state = .active ∨ obj.state = .sealed) →
      base + obj.size ≤ u64Max ∧ ∀ heap, f.privateHeap = some heap →
        Disjoint (span base obj.size) (span heap.pool.base heap.pool.size)) ∧
    (∀ id base, (f.placeObject id base).1 = false →
      (f.placeObject id base).2.placement = f.placement ∧
        (f.placeObject id base).2.pointerCells = f.pointerCells) ∧
    ∀ id base, (f.moveObject id base).1 = false →
      (f.moveObject id base).2.placement = f.placement ∧
        (f.moveObject id base).2.pointerCells = f.pointerCells := by
  have hpr := hreach.provenance
  have hoc : ∀ {id base obj}, f.placement.get id = some base → f.objects.get id = some obj →
      (obj.state = .active ∨ obj.state = .sealed) → Occupies f id base obj.size := by
    intro id base obj hp ho hl
    exact ⟨obj, ho, ObjectState.isLive_iff.mpr hl, rfl, hp⟩
  have hr : ∀ id base, (f.placeObject id base).1 = false →
      (f.placeObject id base).2.placement = f.placement ∧
        (f.placeObject id base).2.pointerCells = f.pointerCells := by
    intro id base hf
    rw [placeObject_refused id base hf]
    exact ⟨rfl, rfl⟩
  refine ⟨?_, ?_, hr, hr⟩
  · intro id id' base base' obj obj' hn hp hp' ho ho' hl hl'
    exact disjoint_span (hpr.apart id base _ id' base' _ hn (hoc hp ho hl) (hoc hp' ho' hl'))
  · intro id base obj hp ho hl
    refine ⟨hpr.fits id base _ (hoc hp ho hl), fun heap hh => ?_⟩
    exact disjoint_pool hh (hpr.outside id base _ (hoc hp ho hl))

/-- Two objects side by side. -/
theorem single_provenance_adjacent : ∃ f, Reachable f ∧ f.placement.get ⟨0⟩ = some 0 ∧
    f.placement.get ⟨1⟩ = some 16 ∧ Disjoint (span 0 16) (span 16 16) := by
  have hru : leadsTo 64 [.allocObject "a" 16 .memory, .placeObject ⟨0⟩ 0,
        .allocObject "b" 16 .memory,
        .placeObject ⟨1⟩ 16] (fun f =>
      f.placement.get ⟨0⟩ == some 0 && f.placement.get ⟨1⟩ == some 16 &&
        (f.objects.get ⟨0⟩).any (fun o => decide (o.state = .active ∧ o.size = 16)) &&
        (f.objects.get ⟨1⟩).any (fun o => decide (o.state = .active ∧ o.size = 16))) = true := by
    decide +kernel
  obtain ⟨f, hr, hf⟩ := exists_of_replay hru
  simp only [Bool.and_eq_true, beq_iff_eq, any_eq_true, decide_eq_true_eq] at hf
  obtain ⟨⟨⟨ha, hb⟩, a, ho, hs, hsi⟩, b, hob, hst, hsz⟩ := hf
  have h := (single_provenance hr).1 ⟨0⟩ ⟨1⟩ 0 16 a b (by decide) ha hb ho hob (.inl hs) (.inl hst)
  rw [hsi, hsz] at h
  exact ⟨f, hr, ha, hb, h⟩

end Fabric

end Anka
