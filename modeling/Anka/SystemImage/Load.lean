import Anka.Fabric.Refine
import Anka.SystemImage.Codec

/-!
# System images: loading (`system_image.rs`)

`load_into` takes a Fabric that may already hold objects, allocates one object for each object of
the image, and places them one after the other from a page-aligned base. Each extent is zeroed, then
the contents are written at its start, then the object is sealed if the image asks for it. The
kernel starts its bump allocator above the image and above everything that was placed before.

`Loaded` is what the loop keeps: the objects made so far, in order, with their identities and bases.
-/

namespace Anka

open Rust Res List Option Fabric

namespace Fabric

/-- The bytes of memory (fabric.rs 306). -/
def memSize (f : Fabric) : Nat := f.memory.length

/-- A new object (fabric.rs 184). -/
def allocObject {ε : Type} (f : Fabric) (name : String) (size : Nat) (kind : ObjectKind) :
    Res ε (ObjectId × Fabric) :=
  match f.tryAllocObject name size kind with
  | ok r => ok r
  | _ => .panic

/-- `!mask` on `u64`. -/
def complement (mask : Nat) : Nat := u64Max - mask

/-- One placement of `physical_high_watermark`: an object that is not live is passed over. -/
def raiseWatermark (f : Fabric) (hwm : Nat) (id : ObjectId) (base : Nat) : Option Nat :=
  match f.objects.get id with
  | none => some hwm
  | some obj =>
    if obj.state.isLive = false then some hwm
    else do
      let stop ← checkedAdd base obj.size
      let aligned := (← checkedAdd stop 0xFFF) &&& complement 0xFFF
      return if aligned > hwm then aligned else hwm

/-- `physical_high_watermark`. The result is a maximum, so that the order of the entries does not
matter. -/
def physicalHighWatermark (f : Fabric) : Option Nat :=
  f.placement.entries.foldlM (fun hwm e => f.raiseWatermark hwm e.1 e.2)
    (f.privateHeap.elim 0 HeapFabric.endAddr)

end Fabric

/-- The next multiple of a power of two (system_image.rs 237). -/
def alignUp (val align : Nat) : Option Nat :=
  let mask := align - 1
  (checkedAdd val mask).map fun v => v &&& Fabric.complement mask

/-! ## Boot descriptors -/

/-- The executable of the first process: a sealed object, its code and its literals. -/
structure BootImage where
  obj : ObjectId
  codeOffset : Nat
  codeSize : Nat
  entry : Nat
  litStart : Nat

/-- A capability of the first process. -/
structure BootGrant where
  obj : ObjectId
  offset : Nat
  size : Nat
  perms : Permissions

/-- A range of the first process's address space. -/
structure BootMap where
  vaddr : Nat
  size : Nat
  obj : ObjectId
  objOffset : Nat

/-- `BootInfo` (`os.rs`). -/
structure BootInfo where
  image : BootImage
  grants : List BootGrant
  maps : List BootMap
  codeVaddr : Nat
  stackVaddr : Nat
  stackSize : Nat
  trapVaddr : Nat

/-- `Kernel` (`os.rs`), as far as the loader sets it: the Fabric and the bump allocator. -/
structure Kernel where
  fabric : Fabric
  nextPhys : Nat

/-- `Kernel::new`. -/
def Kernel.new (fabric : Fabric) : Kernel := { fabric, nextPhys := 0x100000 }

/-- What `load_into` returns. -/
structure LoadedSystem where
  kernel : Kernel
  bootInfo : BootInfo
  objectMap : Map ImageObjectRef ObjectId

/-- What the loop over the objects carries. -/
structure LoadState where
  fabric : Fabric
  currentPhys : Nat
  objectMap : Map ImageObjectRef ObjectId

namespace SystemImage

variable (m : SystemImage) (fabric : Fabric)

/-- The contents, at the start of an extent that was zeroed. -/
def writeContents (ref : ImageObjectRef) (objId : ObjectId) (contents : List UInt8) :
    Res ImageError Fabric :=
  if contents = [] then ok fabric
  else (fabric.initializeObject objId 0 contents).mapErr fun _ => .initializationFailed ref

/-- The seal, if the image asks for it. -/
def sealLoaded (ref : ImageObjectRef) (objId : ObjectId) (sealAfterLoad : Bool) :
    Res ImageError Fabric :=
  if sealAfterLoad = true then do
    let (sealed, fabric) := fabric.sealObject objId
    require (sealed = true) (.sealFailed ref)
    return fabric
  else ok fabric

/-- One object of the image. `mem_size` is read before the loop. -/
def loadObject (memSize : Nat) (s : LoadState) (imgObj : ImageObject) (i : Nat) :
    Res ImageError LoadState := do
  let ref : ImageObjectRef := ⟨UInt32.ofNat i⟩
  let (objId, fabric) ← s.fabric.allocObject imgObj.name imgObj.size.toNat imgObj.kind
  let pageSize ← okOr (alignUp imgObj.size.toNat 0x1000) .overflow
  let rangeEnd ← okOr (checkedAdd s.currentPhys pageSize) .overflow
  require (rangeEnd ≤ memSize) .physRangeExceedsFabric
  let (placed, fabric) := fabric.placeObject objId s.currentPhys
  require (placed = true) (.placementFailed ref)
  let fabric ← (fabric.zeroObjectExtent objId).mapErr fun _ => .initializationFailed ref
  let fabric ← writeContents fabric ref objId imgObj.contents
  let fabric ← sealLoaded fabric ref objId imgObj.sealAfterLoad
  return { fabric, currentPhys := rangeEnd, objectMap := s.objectMap.insert ref objId }

/-- `resolve`: indexing the map panics on a reference it does not hold. -/
def resolve (objectMap : Map ImageObjectRef ObjectId) (r : ImageObjectRef) :
    Res ImageError ObjectId := unwrap (objectMap.get r)

/-- The boot descriptor with its references resolved. -/
def bootInfo (objectMap : Map ImageObjectRef ObjectId) : Res ImageError BootInfo := do
  let obj ← resolve objectMap m.boot.image.obj
  let image : BootImage := {
    obj
    codeOffset := m.boot.image.codeOffset.toNat
    codeSize := m.boot.image.codeSize.toNat
    entry := m.boot.image.entry.toNat
    litStart := m.boot.image.litStart.toNat }
  let grants ← m.boot.grants.mapM fun g => do
    let obj ← resolve objectMap g.obj
    return { obj, offset := g.offset.toNat, size := g.size.toNat, perms := g.perms : BootGrant }
  let maps ← m.boot.maps.mapM fun map => do
    let obj ← resolve objectMap map.obj
    return { vaddr := map.vaddr.toNat, size := map.size.toNat, obj
             objOffset := map.objOffset.toNat : BootMap }
  return {
    image, grants, maps
    codeVaddr := m.boot.codeVaddr.toNat
    stackVaddr := m.boot.stackVaddr.toNat
    stackSize := m.boot.stackSize.toNat
    trapVaddr := m.boot.trapVaddr.toNat }

/-- The loop over the objects. -/
def loadObjects (physBase : Nat) : Res ImageError LoadState :=
  m.objects.zipIdx.foldlM (fun s e => loadObject fabric.memSize s e.1 e.2)
    { fabric, currentPhys := physBase, objectMap := ∅ }

/-- `load_into`. -/
def loadInto (physBase : Nat) : Res ImageError LoadedSystem := do
  m.validateModel
  require (physBase &&& 0xFFF = 0) (.physBaseNotAligned physBase)
  let s ← m.loadObjects fabric physBase
  let bootInfo ← m.bootInfo s.objectMap
  let hwm ← okOr s.fabric.physicalHighWatermark .overflow
  return {
    kernel := { Kernel.new s.fabric with nextPhys := max s.currentPhys hwm }
    bootInfo, objectMap := s.objectMap }

end SystemImage

/-! ## Pages -/

theorem Fabric.and_complement_page {v : Nat} (h : v ≤ u64Max) :
    v &&& Fabric.complement 0xFFF = v / 0x1000 * 0x1000 := by
  have hm : complement 0xFFF = (2 ^ 52 - 1) * 2 ^ 12 := by decide
  rw [hm]
  exact and_high_mask (Nat.lt_succ_of_le h)

theorem le_alignUp_page {n p : Nat} (h : alignUp n 0x1000 = some p) : n ≤ p := by
  simp only [alignUp, map_eq_some_iff, checkedAdd_eq_some] at h
  obtain ⟨v, ⟨hv, rfl⟩, rfl⟩ := h
  rw [show (0x1000 - 1 : Nat) = 0xFFF from rfl] at hv ⊢
  rw [and_complement_page hv]
  omega

namespace Fabric

variable {f f' : Fabric} {base : Nat} {id : ObjectId} {obj : Object}

/-! ## The high watermark -/

theorem raiseWatermark_eq_some {hwm hwm' : Nat} (h : f.raiseWatermark hwm id base = some hwm') :
    hwm ≤ hwm' ∧ ∀ obj, f.objects.get id = some obj → obj.state.isLive = true →
      base + obj.size ≤ u64Max ∧ base + obj.size ≤ hwm' := by
  unfold raiseWatermark at h
  split at h
  · rename_i hn
    cases h
    exact ⟨le_refl _, fun obj hobj => by simp [hn] at hobj⟩
  · rename_i obj hobj
    split at h
    · rename_i hd
      cases h
      refine ⟨le_refl _, fun obj' hobj' hl => ?_⟩
      obtain rfl : obj = obj' := mem_unique hobj hobj'
      simp [hd] at hl
    · simp only [Option.bind_eq_bind, Option.bind_eq_some_iff, checkedAdd_eq_some, Option.pure_def,
        Option.some.injEq] at h
      obtain ⟨_, ⟨-, rfl⟩, _, ⟨hm, rfl⟩, hre⟩ := h
      rw [and_complement_page hm] at hre
      have hr : hwm ≤ hwm' ∧ base + obj.size ≤ u64Max ∧ base + obj.size ≤ hwm' := by
        split at hre <;> omega
      refine ⟨hr.1, fun obj' hobj' _ => ?_⟩
      obtain rfl : obj = obj' := Option.mem_unique hobj hobj'
      exact hr.2

theorem physicalHighWatermark_eq_some {hwm : Nat} (h : f.physicalHighWatermark = some hwm) :
    (∀ heap, f.privateHeap = some heap → heap.endAddr ≤ hwm) ∧
      ∀ id base obj, f.placement.get id = some base → f.objects.get id = some obj →
        obj.state.isLive = true → base + obj.size ≤ u64Max ∧ base + obj.size ≤ hwm := by
  -- The fold only raises the mark, and raises it above each entry it passes.
  have hf : ∀ (en : List (Sigma fun _ : ObjectId => Nat)) (st : Nat),
      en.foldlM (fun hwm e => f.raiseWatermark hwm e.1 e.2) st = some hwm →
        st ≤ hwm ∧ ∀ e ∈ en, ∀ obj, f.objects.get e.1 = some obj →
          obj.state.isLive = true → e.2 + obj.size ≤ u64Max ∧ e.2 + obj.size ≤ hwm := by
    intro en
    induction en with
    | nil =>
      intro st hs
      cases hs
      exact ⟨le_refl _, by simp⟩
    | cons e en ih =>
      intro st hs
      rw [foldlM_cons, bind_eq_bind, bind_eq_some_iff] at hs
      obtain ⟨r, hr, hre⟩ := hs
      obtain ⟨hle, hent⟩ := raiseWatermark_eq_some hr
      obtain ⟨hle', hen⟩ := ih r hre
      refine ⟨hle.trans hle', fun e' he' obj hobj hl => ?_⟩
      rcases mem_cons.mp he' with rfl | he'
      · exact (hent obj hobj hl).imp_right hle'.trans'
      · exact hen e' he' obj hobj hl
  obtain ⟨hs, hen⟩ := hf _ _ h
  refine ⟨fun heap hh => ?_, fun id base obj hp hobj hl =>
    hen ⟨id, base⟩ (Map.mem_entries_iff.mpr hp) obj hobj hl⟩
  rwa [hh] at hs

/-! ## What loading one object does to the Fabric -/

/-- `f'` is `f` with the new object `obj` at `base`, holding `bytes`. -/
structure Puts (f f' : Fabric) (id : ObjectId) (obj : Object) (base : Nat) (bytes : List UInt8) :
    Prop where
  fresh : f.objects.get id = none
  objects : ∀ other, f'.objects.get other = if other = id then some obj else f.objects.get other
  placement : ∀ other, f'.placement.get other =
    if other = id then some base else f.placement.get other
  length : bytes.length = obj.size
  fits : base + obj.size ≤ f.memory.length
  memory : f'.memory = overwrite f.memory base bytes
  privateHeap : f'.privateHeap = f.privateHeap
  pool : f.heapPoolOverlaps base obj.size = false
  clear : ∀ other base' obj', f.placement.get other = some base' →
    f.objects.get other = some obj' → obj'.state.isLive = true → base' + obj'.size ≤ u64Max →
    ¬ meets base obj.size base' obj'.size

theorem allocObject_eq_ok {ε : Type} {name : String} {size : Nat} {kind : ObjectKind}
    (h : (f.allocObject name size kind : Res ε _) = ok (id, f')) :
    f.objects.get id = none ∧ f.placement.get id = none ∧
      f' = { f with
        objects := f.objects.insert id ⟨id, ⟨0⟩, size, .active, kind, name⟩
        nextObjectId := f'.nextObjectId } := by
  unfold allocObject at h
  split at h
  · rename_i hr
    cases h
    simp only [tryAllocObject, eq_ok] at hr
    obtain ⟨_, hi, _, -, rfl, rfl⟩ := hr
    obtain ⟨-, ho, hp⟩ := nextFreshObjectId_eq_some hi
    exact ⟨ho, hp, rfl⟩
  · cases h

theorem placeObject_eq_true (hobj : f.objects.get id = some obj)
    (h : f.placeObject id base = (true, f')) :
    f' = { f with
        placement := f.placement.insert id base
        pointerCells := f'.pointerCells
        history := f'.history } ∧
      f.heapPoolOverlaps base obj.size = false ∧
      ∀ other base' obj', other ≠ id → f.placement.get other = some base' →
        f.objects.get other = some obj' → obj'.state.isLive = true → base' + obj'.size ≤ u64Max →
        ¬ meets base obj.size base' obj'.size := by
  unfold placeObject at h
  rw [hobj] at h
  split at h
  · cases h
  dsimp only at h
  split at h
  · cases h
  rename_i newEnd hen
  obtain ⟨-, rfl⟩ := checkedAdd_eq_some.mp hen
  split at h
  · cases h
  rename_i hp
  split at h
  · cases h
  rename_i hs
  cases h
  refine ⟨rfl, by simpa using hp, fun other base' obj' hn hpl hobj' hl hma hm => ?_⟩
  have hc := Map.any_eq_false.mp (Bool.not_eq_true _ ▸ hs) other base' hpl
  simp [collides, hobj', hl, checkedAdd_eq_some.mpr ⟨hma, rfl⟩, hn, hm.1, hm.2]
    at hc

theorem clearAndWrite_eq_ok {ε : Type} {data : List UInt8}
    (h : (f.clearAndWrite base data : Res ε Fabric) = ok f') : Written f base data f' := by
  simp only [clearAndWrite, eq_ok] at h
  obtain ⟨_, hc, rfl⟩ := h
  obtain ⟨cells, rfl, hce⟩ := clearPointerCellsPhysical_eq_ok hc
  exact ⟨hce, rfl⟩

section

variable (hobj : f.objects.get id = some obj)
include hobj

theorem zeroObjectExtent_eq_ok
    (hp : f.placement.get id = some base) (h : f.zeroObjectExtent id = ok f') :
    base + obj.size ≤ f.memory.length ∧ Written f base (List.replicate obj.size 0) f' := by
  simp only [zeroObjectExtent, eq_ok, hobj, hp, some.injEq] at h
  obtain ⟨-, _, rfl, -, _, rfl, _, ⟨-, rfl⟩, hf, -, hw⟩ := h
  exact ⟨hf, clearAndWrite_eq_ok hw⟩

theorem initializeObject_eq_ok {data : List UInt8}
    (hp : f.placement.get id = some base) (h : f.initializeObject id 0 data = ok f') :
    data.length ≤ obj.size ∧ Written f base data f' := by
  simp only [initializeObject, eq_ok, hobj, hp, some.injEq] at h
  obtain ⟨-, _, rfl, -, hl, -, _, rfl, _, ⟨-, rfl⟩, _, -, -, -, hw⟩ := h
  exact ⟨hl, clearAndWrite_eq_ok hw⟩

theorem sealObject_eq_true (h : f.sealObject id = (true, f')) :
    f' = { f with
      objects :=
        f.objects.insert id { obj with generation := obj.generation.next, state := .sealed } } := by
  unfold sealObject at h
  rw [hobj] at h
  split at h
  · cases h
  dsimp only at h
  split at h
  · cases h
  · cases h
    rfl

end

end Fabric

/-! ## One object -/

/-- The bytes of an object after loading: its contents, then zeros up to its size. -/
def ImageObject.extent (obj : ImageObject) : List UInt8 :=
  obj.contents ++ List.replicate (obj.size.toNat - obj.contents.length) 0

/-- A Fabric object is as the image describes it. -/
structure ImageObject.Describes (img : ImageObject) (obj : Object) : Prop where
  name : obj.name = img.name
  kind : obj.kind = img.kind
  size : obj.size = img.size.toNat
  state : obj.state = if img.sealAfterLoad = true then .sealed else .active

theorem overwrite_zeros {m d : List UInt8} {base n : Nat} (hd : d.length ≤ n)
    (hf : base + n ≤ m.length) :
    overwrite (overwrite m base (List.replicate n 0)) base d =
      overwrite m base (d ++ List.replicate (n - d.length) 0) := by
  have ht : (m.take base).length = base := by
    rw [length_take]
    omega
  have hr : d.length + (n - d.length) = n := by omega
  simp only [overwrite, length_append, length_replicate, hr, append_assoc]
  rw [take_left' ht, ← drop_drop, drop_left' ht,
    drop_append_of_le_length (by rwa [length_replicate]), drop_replicate]

theorem Fabric.puts_zeros {ε : Type} {f f1 f2 f3 : Fabric} {name : String} {size base : Nat}
    {kind : ObjectKind} {id : ObjectId}
    (ha : (f.allocObject name size kind : Res ε _) = ok (id, f1))
    (hpla : f1.placeObject id base = (true, f2)) (hz : f2.zeroObjectExtent id = ok f3) :
    f.Puts f3 id ⟨id, ⟨0⟩, size, .active, kind, name⟩ base (List.replicate size 0) := by
  obtain ⟨hf, -, heq1⟩ := allocObject_eq_ok ha
  have hobj1 : f1.objects.get id = some ⟨id, ⟨0⟩, size, .active, kind, name⟩ := by
    rw [heq1, Map.get_insert, if_pos rfl]
  obtain ⟨heq2, hp, hc⟩ := placeObject_eq_true hobj1 hpla
  have hobj2 : f2.objects.get id = some ⟨id, ⟨0⟩, size, .active, kind, name⟩ := by rw [heq2, hobj1]
  have hpl2 : f2.placement.get id = some base := by rw [heq2, Map.get_insert, if_pos rfl]
  obtain ⟨hfi, -, heq3⟩ := zeroObjectExtent_eq_ok hobj2 hpl2 hz
  rw [heq2, heq1] at hfi
  rw [heq1] at hp
  constructor
  case fresh => exact hf
  case objects => exact fun o => by rw [heq3, heq2, heq1, Map.get_insert]
  case placement => exact fun o => by rw [heq3, heq2, Map.get_insert, heq1]
  case length => exact length_replicate
  case fits => exact hfi
  case memory => rw [heq3, heq2, heq1]
  case privateHeap => rw [heq3, heq2, heq1]
  case pool => exact hp
  case clear =>
    intro o base' obj' hpl' hobj' hl hm
    have hn : o ≠ id := by
      rintro rfl
      rw [hf] at hobj'
      cases hobj'
    refine hc o base' obj' hn ?_ ?_ hl hm
    · rw [heq1]
      exact hpl'
    · rw [heq1, Map.get_insert, if_neg hn]
      exact hobj'

variable {e : LoadedObject} {s' : LoadState}

namespace SystemImage

variable {f g g' : Fabric} {ref : ImageObjectRef} {id : ObjectId} {obj : Object} {base : Nat}
  {s : LoadState} {done : List LoadedObject}

theorem puts_contents {contents : List UInt8}
    (hp : f.Puts g id obj base (List.replicate obj.size 0))
    (h : writeContents g ref id contents = ok g') :
    f.Puts g' id obj base (contents ++ List.replicate (obj.size - contents.length) 0) := by
  have hobj : g.objects.get id = some obj := by rw [hp.objects, if_pos rfl]
  have hpl : g.placement.get id = some base := by rw [hp.placement, if_pos rfl]
  have hw : contents.length ≤ obj.size ∧ g'.objects = g.objects ∧ g'.placement = g.placement ∧
      g'.privateHeap = g.privateHeap ∧ g'.memory = overwrite g.memory base contents := by
    unfold writeContents at h
    split at h
    · rename_i hn
      cases h
      exact ⟨by simp [hn], rfl, rfl, rfl, by simp [hn, overwrite]⟩
    · rw [mapErr_eq_ok] at h
      obtain ⟨hl, -, heq⟩ := initializeObject_eq_ok hobj hpl h
      rw [heq]
      exact ⟨hl, rfl, rfl, rfl, rfl⟩
  obtain ⟨hl, ho, hplm, hh, hm⟩ := hw
  refine { hp with
    objects := fun other => by rw [ho, hp.objects]
    placement := fun other => by rw [hplm, hp.placement]
    length := ?_
    memory := ?_
    privateHeap := hh.trans hp.privateHeap }
  · rw [length_append, length_replicate, Nat.add_sub_cancel' hl]
  · rw [hm, hp.memory, overwrite_zeros hl hp.fits]

variable {bytes : List UInt8} {img : ImageObject} {memSize : Nat}

theorem puts_sealed {se : Bool} (hp : f.Puts g id obj base bytes)
    (ha : obj.state = .active) (h : sealLoaded g ref id se = ok g') :
    ∃ obj' : Object, obj'.name = obj.name ∧ obj'.kind = obj.kind ∧ obj'.size = obj.size ∧
      obj'.state = (if se = true then .sealed else .active) ∧
      f.Puts g' id obj' base bytes := by
  have hobj : g.objects.get id = some obj := by rw [hp.objects, if_pos rfl]
  unfold sealLoaded at h
  split at h
  · rename_i hs
    rcases hc : g.sealObject id with ⟨sealed, g1⟩
    simp only [hc, eq_ok] at h
    obtain ⟨rfl, rfl⟩ := h
    rw [if_pos hs, sealObject_eq_true hobj hc]
    refine ⟨{ obj with generation := obj.generation.next, state := .sealed }, rfl, rfl, rfl, rfl,
      { hp with objects := fun other => ?_ }⟩
    rw [Map.get_insert, hp.objects]
    split <;> rfl
  · rename_i hk
    cases h
    exact ⟨obj, rfl, rfl, rfl, by rw [if_neg hk, ha], hp⟩

theorem loadObject_eq_ok {memSize i : Nat} (h : loadObject memSize s img i = ok s') :
    ∃ id obj, img.Describes obj ∧ s.fabric.Puts s'.fabric id obj s.currentPhys img.extent ∧
      s.currentPhys + obj.size ≤ s'.currentPhys ∧
      s'.objectMap = s.objectMap.insert ⟨UInt32.ofNat i⟩ id := by
  unfold loadObject at h
  simp only [eq_ok] at h
  obtain ⟨id, f1, ha, p, hpa, _, ⟨-, rfl⟩, -, h⟩ := h
  rcases hp : f1.placeObject id s.currentPhys with ⟨placed, f2⟩
  simp only [hp] at h
  obtain ⟨rfl, f3, hz, f4, hi, f5, hse, rfl⟩ := h
  have hpu := puts_contents (puts_zeros ha hp hz) hi
  obtain ⟨obj, hn, hk, hs, hst, hpu⟩ := puts_sealed hpu rfl hse
  refine ⟨id, obj, ⟨hn, hk, hs, hst⟩, hpu, ?_, rfl⟩
  rw [hs]
  exact Nat.add_le_add_left (le_alignUp_page hpa) _

/-! ## The loop -/

/-- An object of the image with the identity and the base that it got. -/
structure LoadedObject where
  img : ImageObject
  id : ObjectId
  base : Nat

/-- The object is in the Fabric as the image describes it, and its bytes are there. -/
structure LoadedObject.In (e : LoadedObject) (f : Fabric) (obj : Object) : Prop where
  object : f.objects.get e.id = some obj
  describes : e.img.Describes obj
  placement : f.placement.get e.id = some e.base
  fits : e.base + obj.size ≤ f.memory.length
  bytes : slice f.memory e.base obj.size = e.img.extent

/-- What holds after the objects `done`, in order, have been loaded into `f`. -/
structure Loaded (f : Fabric) (done : List LoadedObject) (s : LoadState) : Prop where
  present : ∀ e ∈ done, ∃ obj, e.In s.fabric obj
  fresh : ∀ e ∈ done, f.objects.get e.id = none
  below : ∀ e ∈ done, e.base + e.img.size.toNat ≤ s.currentPhys
  ordered : done.Pairwise fun e e' => e.id ≠ e'.id ∧ e.base + e.img.size.toNat ≤ e'.base
  others : ∀ id, (∀ e ∈ done, e.id ≠ id) →
    s.fabric.objects.get id = f.objects.get id ∧ s.fabric.placement.get id = f.placement.get id
  heap : s.fabric.privateHeap = f.privateHeap
  pool : ∀ e ∈ done, f.heapPoolOverlaps e.base e.img.size.toNat = false
  clear : ∀ e ∈ done, ∀ other base obj, f.placement.get other = some base →
    f.objects.get other = some obj → obj.state.isLive = true → base + obj.size ≤ u64Max →
    ¬ meets e.base e.img.size.toNat base obj.size
  refs : ∀ r, s.objectMap.get r = (done[r.raw.toNat]?).map (·.id)

theorem loaded_nil (f : Fabric) (p : Nat) : Loaded f [] ⟨f, p, ∅⟩ := by
  constructor <;> simp

theorem LoadedObject.In.puts {o : Object} (h : e.In f o)
    (hp : f.Puts g id obj base bytes) (hb : e.base + o.size ≤ base) : e.In g o := by
  have hn : e.id ≠ id := by
    rintro rfl
    have := hp.fresh.symm.trans h.object
    cases this
  have hf : base + bytes.length ≤ f.memory.length := by
    rw [hp.length]
    exact hp.fits
  constructor
  case object => rw [hp.objects, if_neg hn, h.object]
  case describes => exact h.describes
  case placement => rw [hp.placement, if_neg hn, h.placement]
  case fits =>
    rw [hp.memory, length_overwrite hf]
    exact h.fits
  case bytes =>
    rw [hp.memory, ← h.bytes]
    refine slice_congr fun i _ hi => getElem?_overwrite_of_notMem hf fun hm => ?_
    have := hm.1
    omega

theorem Loaded.step (h : Loaded f done s)
    (hl : done.length < 2 ^ 32) (hlo : loadObject memSize s img done.length = ok s') :
    ∃ id, Loaded f (done ++ [⟨img, id, s.currentPhys⟩]) s' := by
  obtain ⟨id, obj, hd, hp, hen, hm⟩ := loadObject_eq_ok hlo
  have hs := hd.size
  -- The new identity is none of the old ones, in `f` or of the image.
  have hn : ∀ e ∈ done, e.id ≠ id := by
    rintro e he rfl
    obtain ⟨o, ho⟩ := h.present e he
    have := hp.fresh.symm.trans ho.object
    cases this
  have hf : f.objects.get id = none := (h.others id hn).1.symm.trans hp.fresh
  refine ⟨id, ?_⟩
  constructor
  case present =>
    refine forall_mem_append.mpr ⟨fun e he => ?_, forall_mem_singleton.mpr ⟨obj, ?_⟩⟩
    · obtain ⟨o, ho⟩ := h.present e he
      have hb := h.below e he
      rw [← ho.describes.size] at hb
      exact ⟨o, ho.puts hp hb⟩
    · have hby := hp.length
      constructor
      case object => rw [hp.objects, if_pos rfl]
      case describes => exact hd
      case placement => rw [hp.placement, if_pos rfl]
      case fits =>
        rw [hp.memory, length_overwrite (hby ▸ hp.fits)]
        exact hp.fits
      case bytes =>
        rw [hp.memory, ← hby]
        exact slice_overwrite (Nat.le_of_add_right_le hp.fits)
  case fresh => exact forall_mem_append.mpr ⟨h.fresh, forall_mem_singleton.mpr hf⟩
  case below =>
    refine forall_mem_append.mpr ⟨fun e he => ?_, forall_mem_singleton.mpr ?_⟩
    · exact (h.below e he).trans (Nat.le_of_add_right_le hen)
    · exact hs ▸ hen
  case ordered =>
    refine pairwise_append.mpr ⟨h.ordered, pairwise_singleton _ _, fun e he e' he' => ?_⟩
    rw [mem_singleton.mp he']
    exact ⟨hn e he, h.below e he⟩
  case others =>
    intro other hot
    rw [forall_mem_append, forall_mem_singleton] at hot
    rw [hp.objects, hp.placement, if_neg hot.2.symm, if_neg hot.2.symm]
    exact h.others other hot.1
  case heap => exact hp.privateHeap.trans h.heap
  case pool =>
    refine forall_mem_append.mpr ⟨h.pool, forall_mem_singleton.mpr ?_⟩
    have hpo := hp.pool
    rw [heapPoolOverlaps, h.heap, hs] at hpo
    exact hpo
  case clear =>
    refine forall_mem_append.mpr ⟨h.clear, forall_mem_singleton.mpr ?_⟩
    intro other base' obj' hpl' hobj' hli hma
    -- An object of `f` is still where it was.
    have hot : ∀ e ∈ done, e.id ≠ other := by
      rintro e he rfl
      have := (h.fresh e he).symm.trans hobj'
      cases this
    rw [← (h.others other hot).1] at hobj'
    rw [← (h.others other hot).2] at hpl'
    exact hs ▸ hp.clear other base' obj' hpl' hobj' hli hma
  case refs =>
    intro r
    have hra : (UInt32.ofNat done.length).toNat = done.length := UInt32.toNat_ofNat_of_lt' hl
    rw [hm, Map.get_insert, h.refs]
    split
    · rename_i hr
      rw [hr, hra, getElem?_concat_length]
      rfl
    · rename_i hr
      have hne : r.raw.toNat ≠ done.length := fun heq => hr (by
        rw [← heq, UInt32.ofNat_toNat])
      rcases Nat.lt_or_gt_of_ne hne with hlt | hg
      · rw [getElem?_append_left hlt]
      · rw [getElem?_eq_none (by omega), getElem?_eq_none (by
          rw [length_append, length_singleton]
          omega)]

theorem Loaded.run {objects : List ImageObject} (h : Loaded f done s)
    (hle : done.length + objects.length ≤ 2 ^ 32)
    (hl : (objects.zipIdx done.length).foldlM (fun s e => loadObject memSize s e.1 e.2) s = ok s') :
    ∃ done', done'.map (·.img) = done.map (·.img) ++ objects ∧ Loaded f done' s' := by
  induction objects generalizing done s with
  | nil =>
    cases hl
    exact ⟨done, by simp, h⟩
  | cons img objects ih =>
    rw [zipIdx_cons, foldlM_cons, bind_eq_ok] at hl
    obtain ⟨s1, ho, hr⟩ := hl
    rw [length_cons] at hle
    obtain ⟨id, hlo⟩ := h.step (by omega) ho
    obtain ⟨done', hi, hd'⟩ := ih hlo
      (by rw [length_append, length_singleton]; omega)
      (by rw [length_append, length_singleton]; exact hr)
    exact ⟨done', by simpa using hi, hd'⟩

/-! ## Loading is faithful -/

/-- `obj` is placed at `base`. -/
def Placed (f : Fabric) (id : ObjectId) (base : Nat) (obj : Object) : Prop :=
  f.objects.get id = some obj ∧ f.placement.get id = some base

/-- What a successful load of `m` into `f` leaves. -/
structure LoadsFaithfully (m : SystemImage) (f : Fabric) (sys : LoadedSystem) : Prop where
  /-- Every object of the image is there: new, as described, with its contents and zeros. -/
  loaded : ∀ i img, m.objects[i]? = some img → ∃ id base obj,
    sys.objectMap.get ⟨UInt32.ofNat i⟩ = some id ∧ f.objects.get id = none ∧
      LoadedObject.In ⟨img, id, base⟩ sys.kernel.fabric obj
  /-- The map holds the references of the image and no others, -/
  refs : ∀ r, (sys.objectMap.get r).isSome = true ↔ r.raw.toNat < m.objects.length
  /-- and distinct references name distinct objects. -/
  injective : ∀ r r' id, sys.objectMap.get r = some id → sys.objectMap.get r' = some id → r = r'
  /-- A loaded object shares no byte with another live object. -/
  disjoint : ∀ r id base obj, sys.objectMap.get r = some id → Placed sys.kernel.fabric id base obj →
    ∀ other base' obj', other ≠ id → Placed sys.kernel.fabric other base' obj' →
      obj'.state.isLive = true → Disjoint (span base obj.size) (span base' obj'.size)
  /-- The bump allocator starts above every live extent, -/
  nextPhys : ∀ id base obj, Placed sys.kernel.fabric id base obj → obj.state.isLive = true →
    base + obj.size ≤ sys.kernel.nextPhys
  /-- and the private heap is above it and apart from what was loaded. -/
  heap : ∀ heap, sys.kernel.fabric.privateHeap = some heap → heap.endAddr ≤ sys.kernel.nextPhys ∧
    ∀ r id base obj, sys.objectMap.get r = some id → Placed sys.kernel.fabric id base obj →
      heap.overlaps base obj.size = false

theorem Loaded.apart (h : Loaded f done s) {e' : LoadedObject} (he : e ∈ done) (he' : e' ∈ done)
    (hn : e ≠ e') : e.id ≠ e'.id ∧ ¬ meets e.base e.img.size.toNat e'.base e'.img.size.toNat := by
  have hs : Std.Symm fun e e' : LoadedObject =>
      e.id ≠ e'.id ∧ ¬ meets e.base e.img.size.toNat e'.base e'.img.size.toNat :=
    ⟨fun _ _ hee => ⟨hee.1.symm, fun hm => hee.2 ⟨hm.2, hm.1⟩⟩⟩
  have hp : done.Pairwise fun e e' =>
      e.id ≠ e'.id ∧ ¬ meets e.base e.img.size.toNat e'.base e'.img.size.toNat :=
    h.ordered.imp fun hee => ⟨hee.1, fun hm => absurd hm.2 (Nat.not_lt.mpr hee.2)⟩
  exact hp.forall he he' hn

theorem Loaded.resolve (h : Loaded f done s) {r : ImageObjectRef} (hr : s.objectMap.get r = some id)
    (hp : Placed s.fabric id base obj) :
    ∃ e ∈ done, e.id = id ∧ e.base = base ∧ e.img.size.toNat = obj.size := by
  rw [h.refs, map_eq_some_iff] at hr
  obtain ⟨e, he, rfl⟩ := hr
  have hm : e ∈ done := mem_of_getElem? he
  obtain ⟨o, ho⟩ := h.present e hm
  obtain rfl : o = obj := mem_unique ho.object hp.1
  exact ⟨e, hm, rfl, mem_unique ho.placement hp.2, ho.describes.size.symm⟩

theorem Loaded.clear_of_live (h : Loaded f done s) (he : e ∈ done) {ot : ObjectId} (hn : ot ≠ e.id)
    (hp : Placed s.fabric ot base obj) (hl : obj.state.isLive = true)
    (hm : base + obj.size ≤ u64Max) : ¬ meets e.base e.img.size.toNat base obj.size := by
  by_cases hot : ∀ e' ∈ done, e'.id ≠ ot
  · obtain ⟨hob, hpl⟩ := h.others ot hot
    exact h.clear e he ot base obj (hpl ▸ hp.2) (hob ▸ hp.1) hl hm
  · push Not at hot
    obtain ⟨e', he', rfl⟩ := hot
    obtain ⟨o, ho⟩ := h.present e' he'
    obtain rfl : o = obj := mem_unique ho.object hp.1
    obtain rfl : e'.base = base := mem_unique ho.placement hp.2
    rw [ho.describes.size]
    exact (h.apart he he' fun heq => hn (heq ▸ rfl)).2

theorem loadInto_faithful {m : SystemImage} {p : Nat} {sys : LoadedSystem}
    (h : m.loadInto f p = ok sys) : LoadsFaithfully m f sys := by
  simp only [loadInto, eq_ok] at h
  obtain ⟨hv, -, s, hlo, info, -, hwm, hhw, rfl⟩ := h
  have hc : m.objects.length ≤ 256 := (validateModel_eq_ok.mp hv).objectCount
  obtain ⟨done, him, hl⟩ := (loaded_nil f p).run (by rw [length_nil]; omega) hlo
  obtain ⟨hh, hli⟩ := physicalHighWatermark_eq_some hhw
  have hle : done.length = m.objects.length := by
    simpa using congrArg List.length him
  constructor
  case loaded =>
    intro i img hi
    rw [← nil_append m.objects, ← map_nil, ← him, getElem?_map, map_eq_some_iff] at hi
    obtain ⟨e, he, rfl⟩ := hi
    have hlt : i < done.length := (List.getElem?_eq_some_iff.mp he).1
    have hm : e ∈ done := mem_of_getElem? he
    obtain ⟨obj, hobj⟩ := hl.present e hm
    refine ⟨e.id, e.base, obj, ?_, hl.fresh e hm, hobj⟩
    have hid : (UInt32.ofNat i).toNat = i :=
      UInt32.toNat_ofNat_of_lt' (Nat.lt_trans (by omega : i < 256) (by decide))
    rw [hl.refs, hid, he]
    rfl
  case refs =>
    intro r
    rw [hl.refs, isSome_map, ← hle, isSome_getElem?]
  case injective =>
    intro r r' id hr hr'
    have hn : (done.map (·.id)).Nodup := pairwise_map.mpr (hl.ordered.imp (·.1))
    rw [hl.refs, ← getElem?_map] at hr hr'
    have hid := (List.getElem?_inj (List.getElem?_eq_some_iff.mp hr).1 hn).mp (hr.trans hr'.symm)
    exact congrArg ImageObjectRef.mk (UInt32.toNat_inj.mp hid)
  case disjoint =>
    intro r id base obj hr hp o base' obj' hne hp' hli'
    obtain ⟨e, hm, rfl, rfl, hs⟩ := hl.resolve hr hp
    have hma := (hli o base' obj' hp'.2 hp'.1 hli').1
    exact disjoint_span (hs ▸ hl.clear_of_live hm hne hp' hli' hma)
  case nextPhys =>
    intro id base obj hp hli'
    exact (hli id base obj hp.2 hp.1 hli').2.trans (le_max_right _ _)
  case heap =>
    intro heap hso
    refine ⟨(hh heap hso).trans (le_max_right _ _), fun r id base obj hr hp => ?_⟩
    obtain ⟨e, hm, rfl, rfl, hs⟩ := hl.resolve hr hp
    have hpo := hl.pool e hm
    rwa [heapPoolOverlaps, ← hl.heap, show s.fabric.privateHeap = some heap from hso, hs] at hpo

/-- **System images are canonical and load faithfully.** An accepted image decodes to itself, an
accepted byte string encodes to itself, and no byte string makes the decoder panic. Whatever the
Fabric holds, a load that succeeds leaves every object of the image as described, apart from every
live object, below the kernel's bump allocator. -/
theorem system_image_faithful :
    (∀ (m : SystemImage) b, m.encode = ok b → decode b = ok m) ∧
    (∀ b m, b.length ≤ u64Max → decode b = ok m → m.encode = ok b) ∧
    (∀ b, decode b ≠ panic) ∧
    ∀ (m : SystemImage) f physBase sys,
      m.loadInto f physBase = ok sys → LoadsFaithfully m f sys := by
  refine ⟨fun m b => decode_encode, fun b m => encode_decode, fun b hp => ?_,
    fun m f physBase sys => loadInto_faithful⟩
  have ha := decode_avoids b
  rw [hp] at ha
  exact ha

/-- A sealed object of eight bytes, two of them given, and one of sixteen that is granted and
mapped. -/
def tinyImage : SystemImage :=
  { version := 1
    objects :=
      [{ name := "", kind := .memory, size := 8, contents := [7, 9], sealAfterLoad := true },
        { name := "", kind := .memory, size := 16, contents := [5], sealAfterLoad := false }]
    boot := { image := ⟨⟨0⟩, 0, 4, 0, 0⟩, grants := [⟨⟨1⟩, 0, 16, .RW⟩], maps := [⟨64, 16, ⟨1⟩, 0⟩]
              codeVaddr := 0, stackVaddr := 0, stackSize := 0, trapVaddr := 0 } }

/-- The image is loaded behind a live object. -/
theorem tinyImage_faithful : ∃ b f live sys, Fabric.Reachable f ∧ Placed f ⟨0⟩ 0 live ∧
    live.state = .active ∧ tinyImage.encode = ok b ∧ decode b = ok tinyImage ∧
    tinyImage.loadInto f 0x1000 = ok sys ∧ LoadsFaithfully tinyImage f sys := by
  have hen : tinyImage.encode.isOkAnd (fun _ => true) = true := by decide +kernel
  have hl : leadsTo 0x3000 [.allocObject "" 8 .memory, .placeObject ⟨0⟩ 0] (fun f =>
        decide (f.placement.get ⟨0⟩ = some 0) &&
        (f.objects.get ⟨0⟩).any (fun obj => decide (obj.state = .active)) &&
        (tinyImage.loadInto f 0x1000).isOkAnd fun _ => true) = true := by
    decide +kernel
  obtain ⟨b, hb, -⟩ := isOkAnd_eq_true.mp hen
  obtain ⟨f, hr, hf⟩ := exists_of_replay hl
  simp only [Bool.and_eq_true, Option.any_eq_true, decide_eq_true_eq] at hf
  obtain ⟨⟨hp, live, hli, ha⟩, hf⟩ := hf
  obtain ⟨sys, hs, -⟩ := isOkAnd_eq_true.mp hf
  exact ⟨b, f, live, sys, hr, ⟨hli, hp⟩, ha, hb, system_image_faithful.1 _ _ hb, hs,
    system_image_faithful.2.2.2 _ _ _ _ hs⟩

/-- Two objects, at the base of the image and far above it, both revoked before the load. -/
def revokedPlacements : List FabricOp :=
  [.allocObject "" 8 .memory, .placeObject ⟨0⟩ 0, .revoke ⟨0⟩,
    .allocObject "" 8 .memory, .placeObject ⟨1⟩ 0x5000, .revoke ⟨1⟩]

/-- **Revoked objects keep their placement.** The loader puts its object over the one and starts the
bump allocator below the other. -/
theorem loads_over_revoked : ∃ f sys id obj old above, Fabric.Reachable f ∧
    tinyImage.loadInto f 0 = ok sys ∧ sys.objectMap.get ⟨0⟩ = some id ∧ id ≠ ⟨0⟩ ∧
    Placed sys.kernel.fabric id 0 obj ∧ Placed sys.kernel.fabric ⟨0⟩ 0 old ∧
    ¬ Disjoint (span 0 obj.size) (span 0 old.size) ∧
    Placed sys.kernel.fabric ⟨1⟩ 0x5000 above ∧ sys.kernel.nextPhys < 0x5000 + above.size := by
  have hl : leadsTo 0x2000 revokedPlacements (fun f =>
        (tinyImage.loadInto f 0).isOkAnd fun sys =>
          decide (sys.objectMap.get ⟨0⟩ = some ⟨2⟩ ∧ sys.kernel.fabric.placement.get ⟨2⟩ = some 0 ∧
            sys.kernel.fabric.placement.get ⟨0⟩ = some 0 ∧
            sys.kernel.fabric.placement.get ⟨1⟩ = some 0x5000 ∧ sys.kernel.nextPhys = 0x2000) &&
          (sys.kernel.fabric.objects.get ⟨2⟩).any (fun obj => decide (obj.size = 8)) &&
          (sys.kernel.fabric.objects.get ⟨0⟩).any (fun obj => decide (obj.size = 8)) &&
          (sys.kernel.fabric.objects.get ⟨1⟩).isSome) = true := by
    decide +kernel
  obtain ⟨f, hr, hf⟩ := exists_of_replay hl
  obtain ⟨sys, hsy, hf⟩ := isOkAnd_eq_true.mp hf
  simp only [Bool.and_eq_true, Option.any_eq_true, Option.isSome_iff_exists,
    decide_eq_true_eq] at hf
  obtain ⟨⟨⟨⟨hre, hplace2, hplace0, hplace1, hn⟩, obj, hobj, hs⟩, old, hold, hs'⟩, above, ha⟩ := hf
  refine ⟨f, sys, ⟨2⟩, obj, old, above, hr, hsy, hre, by decide, ⟨hobj, hplace2⟩,
    ⟨hold, hplace0⟩, ?_, ⟨ha, hplace1⟩, by omega⟩
  rw [hs, hs', disjoint_span_iff (by decide) (by decide)]
  decide

end SystemImage

end Anka
