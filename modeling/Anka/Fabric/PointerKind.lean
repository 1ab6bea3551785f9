import Anka.Fabric.Provenance

/-!
# Pointer kind cannot be forged from bytes

A tag is kept under an object, a generation and an offset, while bytes are written at physical
addresses. `Tagged` relates the two through the placement: a tag whose object is placed was put
there by a store, and nothing in the history since that store has written a byte of its cell or
placed its object anywhere else. Tags of revoked objects go with the revocation; those of destroyed
and rolled back ones stay behind without a placement, and the first placement under the identity
removes them.

A heap write does not look at the tags. It cannot meet a tagged cell because the cell is in the
extent of a live object, which is outside the pool.

The history is what the operations record. `Reachable.records` says that it records every write: a
byte that differs is in a recorded one. `Reachable.stored` turns an entry for a store into the call
that made it.
-/

namespace Anka

open Rust Res

/-- The effect leaves the sixteen bytes of the cell at `base` and the place of its object alone. -/
def Effect.Spares (key : CellKey) (base : Nat) : Effect → Prop
  | .wrote b n => Disjoint (span b n) (span (base + key.offset) 16)
  | .placed id b => id = key.object → b = base
  | _ => True

namespace Fabric

variable {G : Guard} {f f' : Fabric} {base : Nat} {key : CellKey} {p : ScopedPointer}
  {req : MemoryRequest} {post pre : List Effect}

/-! ## The invariant -/

/-- The pointer was stored into the cell and every effect since has spared it. -/
def Kept (f : Fabric) (key : CellKey) (p : ScopedPointer) (base : Nat) : Prop :=
  ∃ post pre, f.history = post ++ .stored key p (some base) :: pre ∧ ∀ e ∈ post, e.Spares key base

theorem Kept.cons {key : CellKey} {p : ScopedPointer} {base : Nat} {e : Effect}
    (h : Kept f key p base) (hh : f'.history = e :: f.history) (he : e.Spares key base) :
    Kept f' key p base := by
  obtain ⟨post, pre, heq, hs⟩ := h
  refine ⟨e :: post, pre, by rw [hh, heq, List.cons_append], fun e' he' => ?_⟩
  rcases List.mem_cons.mp he' with rfl | hold
  · exact he
  · exact hs e' hold

/-- Every tag whose object is placed: the cell is inside the live object, and was stored and kept.
-/
def Tagged (f : Fabric) : Prop :=
  ∀ key p base, f.pointerCells.get key = some p → f.placement.get key.object = some base →
    (∃ n, Occupies f key.object base n ∧ key.offset + 16 ≤ n) ∧ Kept f key p base

theorem Tagged.keep (h : Tagged f) (hst : ∀ key p base, f'.pointerCells.get key = some p →
      f'.placement.get key.object = some base →
      f.pointerCells.get key = some p ∧ f.placement.get key.object = some base ∧
      (∀ n, Occupies f key.object base n → Occupies f' key.object base n) ∧
      (f'.history = f.history ∨ ∃ e, f'.history = e :: f.history ∧ e.Spares key base)) :
    Tagged f' := by
  intro key p base hc hp
  obtain ⟨hc0, hp0, ho, hh⟩ := hst key p base hc hp
  obtain ⟨⟨n, hn, hr⟩, hk⟩ := h key p base hc0 hp0
  refine ⟨⟨n, ho n hn, hr⟩, ?_⟩
  rcases hh with heq | ⟨e, heq, he⟩
  · obtain ⟨post, pre, hsp, hs⟩ := hk
    exact ⟨post, pre, heq.trans hsp, hs⟩
  · exact hk.cons heq he

theorem Tagged.of_subset (h : Tagged f)
    (hc : ∀ key p, f'.pointerCells.get key = some p → f.pointerCells.get key = some p)
    (ho : f'.objects = f.objects) (hp : f'.placement = f.placement)
    (hh : f'.history = f.history ∨ ∃ e, f'.history = e :: f.history ∧ ∀ key base,
      e.Spares key base) :
    Tagged f' := by
  refine h.keep fun key p base hce hpl => ⟨hc key p hce, hp ▸ hpl,
    fun n hoc => hoc.congr (by rw [ho]) (by rw [hp]), ?_⟩
  rcases hh with heq | ⟨e, heq, he⟩
  · exact .inl heq
  · exact .inr ⟨e, heq, he key base⟩

theorem Tagged.wrote {n : Nat} (h : Tagged f) (hce : Cleared f base n f'.pointerCells)
    (ho : f'.objects = f.objects) (hplm : f'.placement = f.placement)
    (hh : f'.history = .wrote base n :: f.history) : Tagged f' := by
  refine h.keep fun key p b hc hp => ?_
  obtain ⟨hc0, hcl⟩ := hce key p hc
  have hp0 : f.placement.get key.object = some b := hplm ▸ hp
  exact ⟨hc0, hp0, fun m hoc => hoc.congr (by rw [ho]) (by rw [hplm]), .inr ⟨_, hh, hcl b hp0⟩⟩

theorem span_cell_subset {o n : Nat} (h : o + 16 ≤ n) : span (base + o) 16 ⊆ span base n := by
  intro a ha
  simp only [span, Set.mem_Ico] at ha ⊢
  omega

theorem Tagged.heapWrote {heap : HeapFabric} {n : Nat} (h : Tagged f) (hp : Provenance f)
    (hh : f.privateHeap = some heap) (hba : heap.pool.base ≤ base)
    (hen : base + n ≤ heap.endAddr) (hce : f'.pointerCells = f.pointerCells)
    (ho : f'.objects = f.objects) (hpl : f'.placement = f.placement)
    (hhi : f'.history = .wrote base n :: f.history) : Tagged f' := by
  refine h.wrote (fun key p hc => ?_) ho hpl hhi
  have hc0 : f.pointerCells.get key = some p := hce ▸ hc
  refine ⟨hc0, fun b hb => ?_⟩
  obtain ⟨⟨m, hoc, hr⟩, -⟩ := h key p b hc0 hb
  have hpo : span base n ⊆ span heap.pool.base heap.pool.size := by
    intro a ha
    simp only [span, Set.mem_Ico, HeapFabric.endAddr] at ha hen ⊢
    omega
  have hou := disjoint_pool hh (hp.outside key.object b m hoc)
  exact (hou.mono (span_cell_subset hr) hpo).symm

theorem placed_tagged {id : ObjectId} (h : Tagged f)
    (hce : f'.pointerCells = if f.placement.get id = some base then f.pointerCells
      else f.pointerCells.retain fun key _ => key.object != id)
    (hob : f'.objects = f.objects) (hplm : f'.placement = f.placement.insert id base)
    (hh : f'.history = .placed id base :: f.history) : Tagged f' := by
  refine h.keep fun key p b hc hp => ?_
  rw [hce] at hc
  rw [hplm, Map.get_insert] at hp
  by_cases hi : key.object = id
  · -- the tags of the object are still there, so it has not moved
    rw [if_pos hi] at hp
    obtain rfl := Option.some.inj hp
    split at hc
    · rename_i hs
      refine ⟨hc, hi ▸ hs, fun n ho => ho.congr (by rw [hob]) ?_, .inr ⟨_, hh, fun _ => rfl⟩⟩
      rw [hplm, Map.get_insert, if_pos hi, hi, hs]
    · obtain ⟨-, hk⟩ := Map.get_retain_eq_some.mp hc
      simp [hi] at hk
  · rw [if_neg hi] at hp
    have hc0 : f.pointerCells.get key = some p := by
      split at hc
      · exact hc
      · exact (Map.get_retain_eq_some.mp hc).1
    refine ⟨hc0, hp, fun n ho => ho.congr (by rw [hob]) ?_,
      .inr ⟨_, hh, fun heq => absurd heq.symm hi⟩⟩
    rw [hplm, Map.get_insert, if_neg hi]

theorem cellStored_tagged {obj : Object} (h : Tagged f) (ho : f.objects.get key.object = some obj)
    (hl : obj.state.isLive = true) (hr : key.offset + 16 ≤ obj.size)
    (hp : f.placement.get key.object = some base) : Tagged (f.tagCell key p) := by
  intro key' p' base' hc hp'
  change Map.get (f.pointerCells.insert key p) key' = some p' at hc
  change f.placement.get key'.object = some base' at hp'
  rw [Map.get_insert] at hc
  split at hc
  · rename_i heq
    subst heq
    obtain rfl := Option.some.inj hc
    obtain rfl := Option.mem_unique hp hp'
    refine ⟨⟨obj.size, ⟨obj, ho, hl, rfl, hp⟩, hr⟩, [], f.history, ?_, by simp⟩
    rw [tagCell, hp]
    rfl
  · obtain ⟨hoc, hk⟩ := h key' p' base' hc hp'
    exact ⟨hoc, hk.cons rfl trivial⟩

theorem Change.tagged (hch : Change G f f') (hpr : Provenance f) (h : Tagged f) : Tagged f' := by
  cases hch with
  | granted | derived =>
    exact h.of_subset (fun _ _ hc => hc) rfl rfl (.inr ⟨_, rfl, fun _ _ => trivial⟩)
  | cellsDropped c hsu => exact h.of_subset hsu rfl rfl (.inl rfl)
  | placed id base _ _ _ _ _ _ => exact placed_tagged h rfl rfl rfl rfl
  | wrote base data c _ hce _ => exact h.wrote hce rfl rfl rfl
  | writeCommitted _ _ base _ data c _ _ _ _ _ hce => exact h.wrote hce rfl rfl rfl
  | heapWrote heap s base data hh _ hb hen =>
    exact h.heapWrote hpr hh hb hen rfl rfl rfl rfl
  | cellStored key p obj base ho hl hr hp _ =>
    exact cellStored_tagged h ho hl hr hp
  | allocated id obj _ _ _ _ hno =>
    refine h.keep fun key p base hc hp =>
      ⟨hc, hp, fun n hoc => hoc.congr ?_ rfl, .inl rfl⟩
    rw [Map.get_insert, if_neg]
    rintro rfl
    rw [hno] at hp
    cases hp
  | revoked id =>
    refine h.keep fun key p base hc hp => ?_
    obtain ⟨hc0, hk⟩ := Map.get_retain_eq_some.mp hc
    have hn : key.object ≠ id := by simpa using hk
    refine ⟨hc0, hp, fun n hoc => hoc.congr ?_ rfl, .inl rfl⟩
    rw [Map.get_modify, if_neg hn]
  | sealed id obj ho hac =>
    refine h.keep fun key p base hc hp => ⟨hc, hp, ?_, .inl rfl⟩
    rintro n ⟨obj', hob', hl, hs, ha⟩
    by_cases hi : key.object = id
    · refine ⟨{ obj with generation := obj.generation.next, state := .sealed }, ?_, rfl, ?_, ha⟩
      · rw [Map.get_insert, if_pos hi]
      · rw [hi, ho] at hob'
        exact Option.some.inj hob' ▸ hs
    · refine ⟨obj', ?_, hl, hs, ha⟩
      rw [Map.get_insert, if_neg hi]
      exact hob'
  | destroyed id | rolledBack id =>
    refine h.keep fun key p base hc hp => ?_
    rw [Map.get_erase] at hp
    split at hp
    · cases hp
    rename_i hn
    refine ⟨hc, hp, fun n hoc => hoc.congr ?_ ?_, .inl rfl⟩
    · rw [Map.get_erase, if_neg hn]
    · rw [Map.get_erase, if_neg hn]
  | _ => exact h.of_subset (fun _ _ hc => hc) rfl rfl (.inl rfl)

theorem Reachable.tagged (h : Reachable f) : Tagged f := by
  have hb : Provenance f ∧ Tagged f := by
    refine @Reachable.invariant f (fun g => Provenance g ∧ Tagged g)
      (fun g g' hc hg => ⟨hc.provenance hg.1, hc.tagged hg.1 hg.2⟩)
        (fun g hg => ⟨hg.provenance, ?_⟩) h
    intro key p base hce
    rw [hg.pointerCells, Map.get_empty] at hce
    cases hce
  exact hb.2

/-! ## What the history records -/

/-- `new` is what the history of `f'` has before that of `f`, and a byte outside every write in it
is as it was. -/
def Records (f : Fabric) (new : List Effect) (f' : Fabric) : Prop :=
  f'.history = new ++ f.history ∧
    ∀ a, (∀ b n, .wrote b n ∈ new → a ∉ span b n) → f'.memory[a]? = f.memory[a]?

theorem Records.trans {f'' : Fabric} {new new' : List Effect} (h : Records f new f')
    (h' : Records f' new' f'') : Records f (new' ++ new) f'' := by
  refine ⟨by rw [h'.1, h.1, List.append_assoc], fun a ha => ?_⟩
  rw [h'.2 a fun b n hm => ha b n (List.mem_append_left _ hm),
    h.2 a fun b n hm => ha b n (List.mem_append_right _ hm)]

theorem Records.refl (f : Fabric) : Records f [] f := ⟨rfl, fun _ _ => rfl⟩

theorem records_overwrite {data : List UInt8} (hf : base + data.length ≤ f.memory.length)
    (hh : f'.history = .wrote base data.length :: f.history)
    (hm : f'.memory = overwrite f.memory base data) : Records f [.wrote base data.length] f' := by
  refine ⟨hh, fun a ha => ?_⟩
  rw [hm]
  exact getElem?_overwrite_of_notMem hf (ha base data.length List.mem_cons_self)

theorem Change.records (hc : Change G f f') : ∃ new, Records f new f' := by
  cases hc with
  | writeCommitted idx tx base stop data c _ _ hg hd hl =>
    have hs := hg.stop_eq
    have hf := hg.fits
    exact ⟨_, records_overwrite (by omega) rfl rfl⟩
  | wrote base data c hf => exact ⟨_, records_overwrite hf rfl rfl⟩
  | heapWrote heap s base data _ hf => exact ⟨_, records_overwrite hf rfl rfl⟩
  | placed id base => exact ⟨[.placed id base], rfl, fun _ _ => rfl⟩
  | granted domain _ obj object offset length perms =>
    exact ⟨[.granted domain (rootOf obj object offset length perms)], rfl, fun _ _ => rfl⟩
  | derived domain _ parent offset length perms =>
    exact ⟨[.derived domain (childOf parent offset length perms)], rfl, fun _ _ => rfl⟩
  | cellStored key p => exact ⟨[.stored key p (f.placement.get key.object)], rfl, fun _ _ => rfl⟩
  | _ => exact ⟨[], .refl f⟩

/-- **Every write is recorded**, along any run of calls. -/
theorem Reachable.records (hr : Reachable f) (hru : Machine.Run step (fun _ _ => True) f f') :
    ∃ new, Records f new f' := by
  have hch : ∀ {g g'}, Changes Guard.any g g' → ∃ new, Records g new g' := by
    intro g g' h
    induction h with
    | refl => exact ⟨[], .refl g⟩
    | tail _ hc ih =>
      obtain ⟨new, hn⟩ := ih
      obtain ⟨last, hl⟩ := hc.records
      exact ⟨last ++ new, hn.trans hl⟩
  induction hru with
  | refl => exact ⟨[], .refl f⟩
  | @tail g g' hinit hl ih =>
    obtain ⟨new, hn⟩ := ih
    obtain ⟨op, -, hs⟩ := hl
    have hg : Reachable g := Machine.Reachable.trans hr hinit
    obtain ⟨last, hl⟩ := hch (run_changes (fun _ => hg.numbered) (op.meets_any g)
      (step_eq_some.mp hs))
    exact ⟨last ++ new, hn.trans hl⟩

/-! ## The stores behind the history -/

/-- One of the two storing calls put the pointer into the cell, at the object's generation. -/
def StoresCell (f : Fabric) (key : CellKey) (p : ScopedPointer) (f' : Fabric) : Prop :=
  ∃ request obj, request.object = key.object ∧ request.offset = key.offset ∧
    f.objects.get key.object = some obj ∧ obj.generation = key.generation ∧
    (f.storePointerCell request (some p) = ok f' ∨
      ∃ owner, f.storeHeapTokenInLocal request owner p = ok f')

/-- Every change but a store. -/
def Guard.noTag : Guard := { tag := fun _ => False }

theorem Changes.not_stored (hch : Changes Guard.noTag f f') : ∃ new,
    f'.history = new ++ f.history ∧ ∀ key p base, .stored key p base ∉ new := by
  induction hch with
  | refl => exact ⟨[], rfl, by simp⟩
  | @tail g g' _ hc ih =>
    obtain ⟨new, hne, hn⟩ := ih
    have hk : ∀ e : Effect, (∀ key p base, e ≠ .stored key p base) →
        ∀ key p base, .stored key p base ∉ e :: new := by
      intro e he key p base hm
      rcases List.mem_cons.mp hm with heq | hold
      · exact he key p base heq.symm
      · exact hn key p base hold
    cases hc with
    | cellStored _ _ _ _ _ _ _ _ hg => exact hg.elim
    | placed | granted | derived | writeCommitted | wrote | heapWrote =>
      refine ⟨_ :: new, congrArg (_ :: ·) hne, hk _ ?_⟩
      exact nofun
    | _ => exact ⟨new, hne, hn⟩

theorem tagged_history {g : Fabric} (hke : f.checkedPointerCell req .write = ok key)
    (hw : f.executeWrite req (pointerBytes (some p)) = ok g) :
    ∃ ph, (g.tagCell key p).history =
      .stored key p (f.placement.get key.object) :: .wrote ph 16 :: f.history := by
  obtain ⟨hk, hl, obj, ho, rfl⟩ := checkedPointerCell_eq_ok hke
  rcases executeWrite_eq_ok hw with ⟨hr, -⟩ | ⟨-, hef⟩
  · simp [hk, AccessKind.mutates] at hr
  · obtain ⟨ph, -, -, -, -, -, hh⟩ := hef.effect
    refine ⟨ph, ?_⟩
    rw [tagCell, hh, hef.frame, length_pointerBytes]

variable {base : Option Nat}

theorem stored_before {new : List Effect} (h : f'.history = post ++ .stored key p base :: pre)
    (hne : f'.history = new ++ f.history) (hn : ∀ k q b, .stored k q b ∉ new) :
    ∃ post', f.history = post' ++ .stored key p base :: pre := by
  rcases List.append_eq_append_iff.mp (h.symm.trans hne) with ⟨as, rfl, hold⟩ | ⟨bs, -, hold⟩
  · cases as with
    | nil => exact ⟨[], hold.symm⟩
    | cons a as =>
      rw [List.cons_append] at hold
      obtain ⟨rfl, -⟩ := List.cons.inj hold
      exact absurd (List.mem_append_right _ List.mem_cons_self) (hn key p base)
  · exact ⟨bs, hold⟩

theorem stored_of_tagged {key' : CellKey} {p' : ScopedPointer} {g : Fabric}
    (hk : f.checkedPointerCell req .write = ok key')
    (hw : f.executeWrite req (pointerBytes (some p')) = ok g)
    (h : (g.tagCell key' p').history = post ++ .stored key p base :: pre) :
    (∃ post', f.history = post' ++ .stored key p base :: pre) ∨
      post = [] ∧ key' = key ∧ p' = p ∧ base = f.placement.get key.object := by
  obtain ⟨ph, hh⟩ := tagged_history hk hw
  cases post with
  | nil =>
    rw [hh, List.nil_append] at h
    obtain ⟨heq, -⟩ := List.cons.inj h
    cases heq
    exact .inr ⟨rfl, rfl, rfl, rfl⟩
  | cons e post =>
    rw [hh, List.cons_append] at h
    obtain ⟨-, h⟩ := List.cons.inj h
    cases post with
    | nil => cases (List.cons.inj h).1
    | cons e' post => exact .inl ⟨post, (List.cons.inj h).2⟩

/-- A store that a step adds to the history is one that the step's call made. -/
theorem step_stored {op : FabricOp} (hn : Numbered f) (hst : f.step op = some f')
    (h : f'.history = post ++ .stored key p base :: pre) :
    (∃ post', f.history = post' ++ .stored key p base :: pre) ∨
      post = [] ∧ StoresCell f key p f' ∧ base = f.placement.get key.object := by
  have hle := step_eq_some.mp hst
  have hot : op.Abides Guard.noTag f → ∃ post', f.history = post' ++ .stored key p base :: pre := by
    intro ha
    obtain ⟨new, hne, hno⟩ :=
      (run_changes (fun _ => hn) ⟨ha, op.within_any f⟩ hle).not_stored
    exact stored_before h hne hno
  have hl : Logged f f' → ∃ post', f.history = post' ++ .stored key p base :: pre := by
    intro hl
    rw [hl] at h
    exact ⟨post, h⟩
  cases op with
  | storePointerCell req po =>
    cases po with
    | none => exact .inl (hot nofun)
    | some p' =>
      rcases mapErr_snd hle with hs | ⟨r, hf⟩
      · obtain ⟨key', g, hk, hw, rfl⟩ := storePointerCell_ends.ok hs
        rcases stored_of_tagged hk hw h with hold | ⟨hp, rfl, rfl, hb⟩
        · exact .inl hold
        · obtain ⟨-, -, obj, ho, rfl⟩ := checkedPointerCell_eq_ok hk
          exact .inr ⟨hp, ⟨req, obj, rfl, rfl, ho, rfl, .inl hs⟩, hb⟩
      · rcases storePointerCell_ends.err hf with rfl | hw
        · exact .inl ⟨post, h⟩
        · exact .inl (hl (executeWrite_eq_err hw).logged)
  | storeHeapTokenInLocal req o p' =>
    rcases mapErr_snd hle with hs | ⟨r, hf⟩
    · obtain ⟨key', g, hk, hw, rfl⟩ := storeHeapTokenInLocal_ends.ok hs
      rcases stored_of_tagged hk hw h with hold | ⟨hp, rfl, rfl, hb⟩
      · exact .inl hold
      · obtain ⟨-, -, obj, ho, rfl⟩ := checkedPointerCell_eq_ok hk
        exact .inr ⟨hp, ⟨req, obj, rfl, rfl, ho, rfl, .inr ⟨o, hs⟩⟩, hb⟩
    · rcases storeHeapTokenInLocal_ends.err hf with rfl | hw
      · exact .inl ⟨post, h⟩
      · exact .inl (hl (executeWrite_eq_err hw).logged)
  | _ => exact .inl (hot (by simp [FabricOp.Abides, Guard.noTag]))

theorem Reachable.stored (hr : Reachable f) (h : f.history = post ++ .stored key p base :: pre) :
    ∃ f0 f1, Reachable f0 ∧ Reachable f1 ∧ StoresCell f0 key p f1 ∧
      base = f0.placement.get key.object ∧ f1.history = .stored key p base :: pre ∧
      Machine.Run step (fun _ _ => True) f1 f := by
  obtain ⟨g0, hg0, hru⟩ := id hr
  clear hr
  induction hru generalizing post with
  | refl =>
    rw [hg0.fresh.history] at h
    simp at h
  | @tail g g' hi hlast ih =>
    obtain ⟨op, -, hst⟩ := id hlast
    have hg : Reachable g := ⟨g0, hg0, hi⟩
    rcases step_stored hg.numbered hst h with ⟨post', hold⟩ | ⟨rfl, hs, hb⟩
    · obtain ⟨f0, f1, hf0, hf1, hs, hb, hh, hru⟩ := ih hold
      exact ⟨f0, f1, hf0, hf1, hs, hb, hh, hru.tail hlast⟩
    · exact ⟨g, g', hg, Machine.Reachable.tail hg hst, hs, hb, h, .refl⟩

/-! ## Loads -/

theorem loadPointerCell_eq_ok (h : f.loadPointerCell req = ok (some p, f')) :
    ∃ obj base, f.objects.get req.object = some obj ∧
      f.placement.get req.object = some base ∧
      f.pointerCells.get ⟨req.object, obj.generation, req.offset⟩ = some p := by
  simp only [loadPointerCell, eq_ok] at h
  obtain ⟨key, hk, b, g, hr, _, hc, rfl, rfl⟩ := h
  obtain ⟨-, -, obj, ho, rfl⟩ := checkedPointerCell_eq_ok hk
  obtain ⟨hl, -, ph, htr, -⟩ := executeRead_eq_ok hr
  obtain ⟨base, hp, -⟩ := translate_eq_some htr
  refine ⟨obj, base, ho, hp, ?_⟩
  unfold cellPointer at hc
  split at hc
  · rename_i pointer ht
    split at hc
    · cases hc
      rwa [hl.logged] at ht
    · cases hc
  · split at hc <;> cases hc

/-- **Pointer kind cannot be forged from bytes.** When a load from a cell of a reachable Fabric
returns a pointer, an earlier `store_pointer_cell` or `store_heap_token_in_local` put exactly this
pointer into exactly this cell of the object at its current generation, with the object where it is
now; since then no operation has written a byte of the cell's sixteen, and none has placed the
object elsewhere. The effects since the store are those of the history, which leaves out no write.
-/
theorem pointer_kind_unforgeable {req : MemoryRequest} {p : ScopedPointer}
    (hreach : Reachable f) (hload : f.loadPointerCell req = ok (some p, f')) :
    ∃ obj base f0 f1 since, f.objects.get req.object = some obj ∧
      f.placement.get req.object = some base ∧
      Reachable f0 ∧ StoresCell f0 ⟨req.object, obj.generation, req.offset⟩ p f1 ∧
      f0.placement.get req.object = some base ∧
      Machine.Run step (fun _ _ => True) f1 f ∧ Records f1 since f ∧
      (∀ b n, .wrote b n ∈ since → Disjoint (span b n) (span (base + req.offset) 16)) ∧
      ∀ b, .placed req.object b ∈ since → b = base := by
  obtain ⟨obj, base, ho, hp, hc⟩ := loadPointerCell_eq_ok hload
  obtain ⟨-, post, pre, hh, hs⟩ := hreach.tagged _ p base hc hp
  obtain ⟨f0, f1, hf0, hf1, hst, hb, hh1, hru⟩ := hreach.stored hh
  obtain ⟨new, hr⟩ := hf1.records hru
  -- what is recorded since the store is what the invariant speaks of
  have hsi : new = post := by
    have hsp := hr.1
    rw [hh1, hh] at hsp
    exact (List.append_cancel_right hsp).symm
  subst hsi
  exact ⟨obj, base, f0, f1, new, ho, hp, hf0, hst, hb.symm, hru, hr,
    fun b n hm => hs _ hm, fun b hm => hs _ hm rfl⟩

/-- A request for the first cell of object 0. -/
def firstCell (kind : AccessKind) : MemoryRequest :=
  { context := { agent := ⟨0⟩, domain := ⟨0⟩, privilege := .user }, object := ⟨0⟩, offset := 0
    width := .double, length := 16, kind }

/-- A pointer to a local is stored and loaded again. -/
theorem pointer_kind_unforgeable_local : ∃ f f' p, Reachable f ∧
    f.loadPointerCell (firstCell .read) = ok (some p, f') ∧
    ∃ f0 f1 generation, StoresCell f0 ⟨⟨0⟩, generation, 0⟩ p f1 := by
  have hru : leadsTo 64 [.allocObject "stack" 64 .memory, .placeObject ⟨0⟩ 0, .createDomain,
      .grant ⟨0⟩ ⟨0⟩ 0 64 .RW,
        .registry (.enterScopeFor 1),
        .registerScopedPointer ⟨1⟩ { firstCell .read with offset := 32 } 4096 true,
        .storePointerCell (firstCell .write) (some ⟨0, 1, 0⟩)] (fun f =>
      (f.loadPointerCell (firstCell .read)).isOkAnd fun result =>
        decide (result.1 = some ⟨0, 1, 0⟩)) = true := by
    decide +kernel
  obtain ⟨f, hr, hf⟩ := exists_of_replay hru
  obtain ⟨⟨_, f'⟩, hl, hp⟩ := isOkAnd_eq_true.mp hf
  obtain rfl := decide_eq_true_eq.mp hp
  obtain ⟨obj, base, f0, f1, since, -, -, -, hs, -⟩ := pointer_kind_unforgeable hr hl
  exact ⟨f, f', _, hr, hl, f0, f1, _, hs⟩

end Fabric

end Anka
