import Anka.State
import Anka.Lib.Reader
import Mathlib.Algebra.BigOperators.Group.List.Basic

/-!
# System images: the wire format (`system_image.rs`)

A system image is a declarative boot manifest: named objects with their initial contents, and for
the first process its image, its grants and its maps, all by reference into the list of objects.
`encode` refuses what `validate_model` refuses, and writes fixed records followed by the objects;
`decode` reads the same records back and refuses anything that `encode` would not have written:
another magic or version, a reserved field that is not zero, a flag, kind or permission outside its
range, a reference outside the list, a name that is too long or not UTF-8, contents larger than
their object, and bytes after the last object.

`decode_eq_ok` says that it accepts exactly the encodings of valid images. Both round trips follow
(`decode_encode`, `encode_decode`).

Byte vectors are lists; a vector of the source is never longer than `u64Max`, so a bound on the
length of the input of `decode` stands in the statements that need it. The debug assertion on the
length of the output is `length_bytes`.
-/

namespace Anka

open Rust Res List Option

/-! ## The model -/

/-- Line 32. -/
def MAX_IMAGE_OBJECTS : Nat := 256
/-- Line 33. -/
def MAX_IMAGE_GRANTS : Nat := 1024
/-- Line 34. -/
def MAX_IMAGE_MAPS : Nat := 1024
/-- Line 35. -/
def MAX_IMAGE_NAME : Nat := 255

/-- Line 41. -/
def HEADER_SIZE : Nat := 32
/-- Line 42. -/
def BOOT_IMAGE_SIZE : Nat := 40
/-- Line 43. -/
def BOOT_LAYOUT_SIZE : Nat := 40
/-- Line 44. -/
def GRANT_RECORD_SIZE : Nat := 24
/-- Line 45. -/
def MAP_RECORD_SIZE : Nat := 32

/-- `b"ANKA64SI"`. -/
def IMAGE_MAGIC : List UInt8 := [0x41, 0x4E, 0x4B, 0x41, 0x36, 0x34, 0x53, 0x49]
/-- Line 48. -/
def IMAGE_VERSION : UInt32 := 1

/-- An index into the objects of an image. -/
structure ImageObjectRef where
  raw : UInt32
  deriving DecidableEq

/-- An object to make, with its first bytes. -/
structure ImageObject where
  name : String
  kind : ObjectKind
  size : UInt64
  contents : List UInt8
  sealAfterLoad : Bool

/-- The code to boot. -/
structure ImageBootImage where
  obj : ImageObjectRef
  codeOffset : UInt64
  codeSize : UInt64
  entry : UInt64
  litStart : UInt64

/-- A grant to the boot domain. -/
structure ImageBootGrant where
  obj : ImageObjectRef
  offset : UInt64
  size : UInt64
  perms : Permissions

/-- A mapping of the boot core. -/
structure ImageBootMap where
  vaddr : UInt64
  size : UInt64
  obj : ImageObjectRef
  objOffset : UInt64

/-- How to boot. -/
structure ImageBootInfo where
  image : ImageBootImage
  grants : List ImageBootGrant
  maps : List ImageBootMap
  codeVaddr : UInt64
  stackVaddr : UInt64
  stackSize : UInt64
  trapVaddr : UInt64

/-- Objects, and how to boot. -/
structure SystemImage where
  version : UInt32
  objects : List ImageObject
  boot : ImageBootInfo

/-- Why an image is rejected. -/
inductive ImageError where
  | badMagic
  | unsupportedVersion (version : UInt32)
  | truncated
  | trailingBytes
  | reservedNonZero
  | invalidObjectKind (byte : UInt8)
  | invalidSealFlag (byte : UInt8)
  | invalidPermissions (bits : UInt8)
  | invalidUtf8Name
  | invalidObjectRef (ref : UInt32)
  | contentExceedsSize (contentLen objectSize : Nat)
  | nameTooLong (length : Nat)
  | overflow
  | tooManyObjects (count : Nat)
  | tooManyGrants (count : Nat)
  | tooManyMaps (count : Nat)
  | physBaseNotAligned (base : Nat)
  | physRangeExceedsFabric
  | placementFailed (ref : ImageObjectRef)
  | initializationFailed (ref : ImageObjectRef)
  | sealFailed (ref : ImageObjectRef)

/-! ## Validation -/

namespace SystemImage

/-- The reference is to an object. -/
def checkRef (objCount : Nat) (r : ImageObjectRef) : Res ImageError Unit :=
  require (r.raw.toNat < objCount) (.invalidObjectRef r.raw)

/-- The checks on one object. -/
def validateObject (obj : ImageObject) : Res ImageError Unit := do
  require ((asBytes obj.name).length ≤ MAX_IMAGE_NAME) (.nameTooLong (asBytes obj.name).length)
  require (obj.contents.length ≤ obj.size.toNat)
    (.contentExceedsSize obj.contents.length obj.size.toNat)

/-- The checks on one grant. -/
def validateGrant (objCount : Nat) (g : ImageBootGrant) : Res ImageError Unit := do
  checkRef objCount g.obj
  let _ ← okOr (Permissions.fromBitsChecked g.perms.bits.toNat)
    (.invalidPermissions (UInt8.ofBitVec g.perms.bits))

/-- The checks on an image (363). -/
def validateModel (m : SystemImage) : Res ImageError Unit := do
  require (m.version = IMAGE_VERSION) (.unsupportedVersion m.version)
  require (m.objects.length ≤ MAX_IMAGE_OBJECTS) (.tooManyObjects m.objects.length)
  require (m.boot.grants.length ≤ MAX_IMAGE_GRANTS) (.tooManyGrants m.boot.grants.length)
  require (m.boot.maps.length ≤ MAX_IMAGE_MAPS) (.tooManyMaps m.boot.maps.length)
  let objCount := m.objects.length
  m.objects.forM validateObject
  checkRef objCount m.boot.image.obj
  m.boot.grants.forM (validateGrant objCount)
  m.boot.maps.forM fun map => checkRef objCount map.obj

end SystemImage

/-- An object that can be written. -/
structure ImageObject.Valid (obj : ImageObject) : Prop where
  name : (asBytes obj.name).length ≤ MAX_IMAGE_NAME
  contents : obj.contents.length ≤ obj.size.toNat

/-- A grant of an image with `n` objects that can be written. -/
structure ImageBootGrant.Valid (n : Nat) (g : ImageBootGrant) : Prop where
  obj : g.obj.raw.toNat < n
  perms : g.perms.bits.toNat ≤ 0x1F

/-- What `validate_model` accepts. -/
structure SystemImage.Valid (m : SystemImage) : Prop where
  version : m.version = IMAGE_VERSION
  objectCount : m.objects.length ≤ MAX_IMAGE_OBJECTS
  grantCount : m.boot.grants.length ≤ MAX_IMAGE_GRANTS
  mapCount : m.boot.maps.length ≤ MAX_IMAGE_MAPS
  objects : ∀ obj ∈ m.objects, obj.Valid
  image : m.boot.image.obj.raw.toNat < m.objects.length
  grants : ∀ g ∈ m.boot.grants, g.Valid m.objects.length
  maps : ∀ map ∈ m.boot.maps, map.obj.raw.toNat < m.objects.length

namespace SystemImage

theorem validateModel_eq_ok {m : SystemImage} : m.validateModel = ok () ↔ m.Valid := by
  have ho : ∀ obj, validateObject obj = ok () ↔ ImageObject.Valid obj := fun obj => by
    simp only [validateObject, eq_ok, exists_const]
    exact ⟨fun h => ⟨h.1, h.2⟩, fun h => ⟨h.1, h.2⟩⟩
  have hg : ∀ n g, validateGrant n g = ok () ↔ ImageBootGrant.Valid n g := fun n g => by
    simp only [validateGrant, checkRef, eq_ok, pure_eq, exists_const, Permissions.fromBitsChecked,
      ite_none_right_eq_some, some.injEq, exists_and_left, exists_eq', and_true]
    exact ⟨fun h => ⟨h.1, h.2⟩, fun h => ⟨h.1, h.2⟩⟩
  simp only [validateModel, checkRef, eq_ok, exists_const, forM_eq_ok, ho, hg]
  constructor <;> rintro ⟨h1, h2, h3, h4, h5, h6, h7, h8⟩ <;> exact ⟨h1, h2, h3, h4, h5, h6, h7, h8⟩

end SystemImage

/-! ## Writing -/

/-- The byte of a kind (417). -/
def objectKindToWire : ObjectKind → UInt8
  | .memory => 0
  | .device => 1
  | .ipc => 2

/-- The byte of a seal (434). -/
def sealToWire (s : Bool) : UInt8 := if s then 1 else 0

/-- The boot image record. -/
def ImageBootImage.bytes (image : ImageBootImage) : List UInt8 :=
  leBytes 4 image.obj.raw.toNat ++ leBytes 4 0 ++ leBytes 8 image.codeOffset.toNat ++
    leBytes 8 image.codeSize.toNat ++ leBytes 8 image.entry.toNat ++ leBytes 8 image.litStart.toNat

/-- A grant record. -/
def ImageBootGrant.bytes (g : ImageBootGrant) : List UInt8 :=
  leBytes 4 g.obj.raw.toNat ++ [UInt8.ofBitVec g.perms.bits] ++ [0, 0, 0] ++
    leBytes 8 g.offset.toNat ++ leBytes 8 g.size.toNat

/-- A map record. -/
def ImageBootMap.bytes (map : ImageBootMap) : List UInt8 :=
  leBytes 4 map.obj.raw.toNat ++ leBytes 4 0 ++ leBytes 8 map.vaddr.toNat ++
    leBytes 8 map.size.toNat ++ leBytes 8 map.objOffset.toNat

/-- An object record: the only one whose length is not fixed. -/
def ImageObject.bytes (obj : ImageObject) : List UInt8 :=
  leBytes 2 (asBytes obj.name).length ++ asBytes obj.name ++ [objectKindToWire obj.kind] ++
    [sealToWire obj.sealAfterLoad] ++ leBytes 4 0 ++ leBytes 8 obj.size.toNat ++
    leBytes 8 obj.contents.length ++ obj.contents

/-- The fields of the header. -/
structure ImageHeader where
  version : UInt32
  objectCount : Nat
  grantCount : Nat
  mapCount : Nat

/-- The fields of the boot layout. -/
structure ImageLayout where
  codeVaddr : UInt64
  stackVaddr : UInt64
  stackSize : UInt64
  trapVaddr : UInt64

/-- The header. The counts are written as `u32`. -/
def ImageHeader.bytes (h : ImageHeader) : List UInt8 :=
  IMAGE_MAGIC ++ leBytes 4 h.version.toNat ++ leBytes 4 h.objectCount ++ leBytes 4 h.grantCount ++
    leBytes 4 h.mapCount ++ leBytes 8 0

/-- The boot layout. -/
def ImageLayout.bytes (l : ImageLayout) : List UInt8 :=
  leBytes 8 l.codeVaddr.toNat ++ leBytes 8 l.stackVaddr.toNat ++ leBytes 8 l.stackSize.toNat ++
    leBytes 8 l.trapVaddr.toNat ++ leBytes 8 0

namespace SystemImage

/-- The counts of an image. -/
def header (m : SystemImage) : ImageHeader :=
  ⟨m.version, m.objects.length, m.boot.grants.length, m.boot.maps.length⟩

/-- The addresses of an image. -/
def layout (m : SystemImage) : ImageLayout :=
  ⟨m.boot.codeVaddr, m.boot.stackVaddr, m.boot.stackSize, m.boot.trapVaddr⟩

/-- What `encode` writes once the image is valid. -/
def bytes (m : SystemImage) : List UInt8 :=
  m.header.bytes ++ m.boot.image.bytes ++ m.layout.bytes ++ m.boot.grants.flatMap (·.bytes) ++
    m.boot.maps.flatMap (·.bytes) ++ m.objects.flatMap (·.bytes)

/-- `total.checked_add(obj_fixed)` for one object. The sum `obj_fixed` itself is not checked. -/
def addObjectLength (total : Nat) (obj : ImageObject) : Res ImageError Nat := do
  let n ← plus 2 (asBytes obj.name).length
  let n ← plus n (1 + 1 + 4 + 8 + 8)
  let objFixed ← plus n obj.contents.length
  okOr (checkedAdd total objFixed) .overflow

/-- The length that `encode` computes in advance. -/
def totalLength (m : SystemImage) : Res ImageError Nat := do
  let fixed ← okOr (checkedAdd HEADER_SIZE BOOT_IMAGE_SIZE) .overflow
  let fixed ← okOr (checkedAdd fixed BOOT_LAYOUT_SIZE) .overflow
  let grantsTotal ← okOr (checkedMul m.boot.grants.length GRANT_RECORD_SIZE) .overflow
  let mapsTotal ← okOr (checkedMul m.boot.maps.length MAP_RECORD_SIZE) .overflow
  let total ← okOr (checkedAdd fixed grantsTotal) .overflow
  let total ← okOr (checkedAdd total mapsTotal) .overflow
  m.objects.foldlM addObjectLength total

/-- The bytes of a valid image (500). -/
def encode (m : SystemImage) : Res ImageError (List UInt8) := do
  m.validateModel
  let _ ← m.totalLength
  return m.bytes

end SystemImage

/-! ## Reading -/

/-- The kind of a byte (425). -/
def wireToObjectKind (byte : UInt8) : Res ImageError ObjectKind :=
  if byte = 0 then ok .memory
  else if byte = 1 then ok .device
  else if byte = 2 then ok .ipc
  else err (.invalidObjectKind byte)

/-- The seal of a byte (438). -/
def wireToSeal (byte : UInt8) : Res ImageError Bool :=
  if byte = 0 then ok false
  else if byte = 1 then ok true
  else err (.invalidSealFlag byte)

theorem wireToObjectKind_eq_ok {byte : UInt8} {kind : ObjectKind} :
    wireToObjectKind byte = ok kind ↔ byte = objectKindToWire kind := by
  unfold wireToObjectKind
  split_ifs <;> cases kind <;> simp_all [objectKindToWire]

theorem wireToSeal_eq_ok {byte : UInt8} {s : Bool} :
    wireToSeal byte = ok s ↔ byte = sealToWire s := by
  unfold wireToSeal
  split_ifs <;> cases s <;> simp_all [sealToWire]

@[simp] theorem avoids_wireToObjectKind (byte : UInt8) :
    (wireToObjectKind byte).Avoids fun _ => False := by
  unfold wireToObjectKind
  split_ifs <;> simp [Avoids]

@[simp] theorem avoids_wireToSeal (byte : UInt8) : (wireToSeal byte).Avoids fun _ => False := by
  unfold wireToSeal
  split_ifs <;> simp [Avoids]

variable {b : List UInt8}

namespace SystemImage

variable {m : SystemImage}

/-- A reserved word of 32 bits. -/
def readReserved32 (r : List UInt8) : Res ImageError (List UInt8) := do
  let (w, r) ← readU32 .truncated r
  require (w = 0) .reservedNonZero
  return r

/-- A reserved word of 64 bits. -/
def readReserved64 (r : List UInt8) : Res ImageError (List UInt8) := do
  let (w, r) ← readU64 .truncated r
  require (w = 0) .reservedNonZero
  return r

/-- The header. -/
def decodeHeader (r : List UInt8) : Res ImageError (ImageHeader × List UInt8) := do
  let (magic, r) ← readBytes .truncated 8 r
  require (magic = IMAGE_MAGIC) .badMagic
  let (version, r) ← readU32 .truncated r
  require (version = IMAGE_VERSION) (.unsupportedVersion version)
  let (objectCount, r) ← readU32 .truncated r
  require (objectCount.toNat ≤ MAX_IMAGE_OBJECTS) (.tooManyObjects objectCount.toNat)
  let (grantCount, r) ← readU32 .truncated r
  require (grantCount.toNat ≤ MAX_IMAGE_GRANTS) (.tooManyGrants grantCount.toNat)
  let (mapCount, r) ← readU32 .truncated r
  require (mapCount.toNat ≤ MAX_IMAGE_MAPS) (.tooManyMaps mapCount.toNat)
  let r ← readReserved64 r
  return (⟨version, objectCount.toNat, grantCount.toNat, mapCount.toNat⟩, r)

/-- The boot image record. Its reference is checked after the whole record is read. -/
def decodeBootImage (objectCount : Nat) (r : List UInt8) :
    Res ImageError (ImageBootImage × List UInt8) := do
  let (imgObjRef, r) ← readU32 .truncated r
  let r ← readReserved32 r
  let (codeOffset, r) ← readU64 .truncated r
  let (codeSize, r) ← readU64 .truncated r
  let (entry, r) ← readU64 .truncated r
  let (litStart, r) ← readU64 .truncated r
  checkRef objectCount ⟨imgObjRef⟩
  return (⟨⟨imgObjRef⟩, codeOffset, codeSize, entry, litStart⟩, r)

/-- The boot layout. -/
def decodeLayout (r : List UInt8) : Res ImageError (ImageLayout × List UInt8) := do
  let (codeVaddr, r) ← readU64 .truncated r
  let (stackVaddr, r) ← readU64 .truncated r
  let (stackSize, r) ← readU64 .truncated r
  let (trapVaddr, r) ← readU64 .truncated r
  let r ← readReserved64 r
  return (⟨codeVaddr, stackVaddr, stackSize, trapVaddr⟩, r)

/-- A grant record. -/
def decodeGrant (objectCount : Nat) (r : List UInt8) :
    Res ImageError (ImageBootGrant × List UInt8) := do
  let (objRef, r) ← readU32 .truncated r
  checkRef objectCount ⟨objRef⟩
  let (permsByte, r) ← readU8 .truncated r
  let perms ← okOr (Permissions.fromBitsChecked permsByte.toNat) (.invalidPermissions permsByte)
  let (res, r) ← readBytes .truncated 3 r
  require (res = [0, 0, 0]) .reservedNonZero
  let (offset, r) ← readU64 .truncated r
  let (size, r) ← readU64 .truncated r
  return (⟨⟨objRef⟩, offset, size, perms⟩, r)

/-- A map record. -/
def decodeMap (objectCount : Nat) (r : List UInt8) :
    Res ImageError (ImageBootMap × List UInt8) := do
  let (objRef, r) ← readU32 .truncated r
  checkRef objectCount ⟨objRef⟩
  let r ← readReserved32 r
  let (vaddr, r) ← readU64 .truncated r
  let (size, r) ← readU64 .truncated r
  let (objOffset, r) ← readU64 .truncated r
  return (⟨vaddr, size, ⟨objRef⟩, objOffset⟩, r)

/-- An object record. -/
def decodeObject (r : List UInt8) : Res ImageError (ImageObject × List UInt8) := do
  let (nameLen, r) ← readU16 .truncated r
  require (nameLen.toNat ≤ MAX_IMAGE_NAME) (.nameTooLong nameLen.toNat)
  let (nameBytes, r) ← readBytes .truncated nameLen.toNat r
  let name ← okOr (fromUtf8 nameBytes) .invalidUtf8Name
  let (kindByte, r) ← readU8 .truncated r
  let kind ← wireToObjectKind kindByte
  let (sealByte, r) ← readU8 .truncated r
  let sealAfterLoad ← wireToSeal sealByte
  let r ← readReserved32 r
  let (size, r) ← readU64 .truncated r
  let (contentLen, r) ← readU64 .truncated r
  require (contentLen.toNat ≤ size.toNat) (.contentExceedsSize contentLen.toNat size.toNat)
  let (contents, r) ← readBytes .truncated contentLen.toNat r
  return (⟨name, kind, size, contents, sealAfterLoad⟩, r)

/-- The image of the bytes (591). -/
def decode (data : List UInt8) : Res ImageError SystemImage := do
  let (header, r) ← decodeHeader data
  let (image, r) ← decodeBootImage header.objectCount r
  let (layout, r) ← decodeLayout r
  let (grants, r) ← readMany (decodeGrant header.objectCount) header.grantCount r
  let (maps, r) ← readMany (decodeMap header.objectCount) header.mapCount r
  let (objects, r) ← readMany decodeObject header.objectCount r
  require (r = []) .trailingBytes
  return {
    version := header.version
    objects
    boot := {
      image, grants, maps
      codeVaddr := layout.codeVaddr
      stackVaddr := layout.stackVaddr
      stackSize := layout.stackSize
      trapVaddr := layout.trapVaddr } }

/-! ## Each reader accepts exactly what the writer writes -/

variable {r rest : List UInt8} {n : Nat}

theorem readReserved32_eq_ok : readReserved32 r = ok rest ↔ r = leBytes 4 0 ++ rest := by
  simp only [readReserved32, eq_ok, readU32_eq_ok, exists_const]
  constructor
  · rintro ⟨_, _, rfl, rfl, rfl⟩
    rfl
  · rintro rfl
    exact ⟨0, rest, rfl, rfl, rfl⟩

theorem readReserved64_eq_ok : readReserved64 r = ok rest ↔ r = leBytes 8 0 ++ rest := by
  simp only [readReserved64, eq_ok, readU64_eq_ok, exists_const]
  constructor
  · rintro ⟨_, _, rfl, rfl, rfl⟩
    rfl
  · rintro rfl
    exact ⟨0, rest, rfl, rfl, rfl⟩

@[simp] theorem avoids_readReserved32 (r : List UInt8) :
    (readReserved32 r).Avoids fun _ => False := by
  simp [readReserved32]

@[simp] theorem avoids_readReserved64 (r : List UInt8) :
    (readReserved64 r).Avoids fun _ => False := by
  simp [readReserved64]

@[simp] theorem avoids_checkRef (n : Nat) (ref : ImageObjectRef) :
    (checkRef n ref).Avoids fun _ => False := by
  simp [checkRef]

theorem checkRef_eq_ok {ref : ImageObjectRef} {u : Unit} :
    checkRef n ref = ok u ↔ ref.raw.toNat < n := require_eq_ok

theorem reads_header :
    Reads decodeHeader ImageHeader.bytes fun h =>
      h.version = IMAGE_VERSION ∧ h.objectCount ≤ MAX_IMAGE_OBJECTS ∧
        h.grantCount ≤ MAX_IMAGE_GRANTS ∧ h.mapCount ≤ MAX_IMAGE_MAPS := by
  refine ⟨fun {input rest h} => ?_, fun input => by simp [decodeHeader]⟩
  simp only [decodeHeader, eq_ok, readBytes_eq_ok, readU32_eq_ok, readReserved64_eq_ok,
    exists_const]
  constructor
  · rintro ⟨_, _, ⟨-, rfl⟩, rfl, _, _, rfl, rfl, _, _, rfl, ho, _, _, rfl, hg, _, _, rfl,
      hm, _, rfl, rfl, rfl⟩
    exact ⟨⟨rfl, ho, hg, hm⟩, by simp only [ImageHeader.bytes, append_assoc]⟩
  · rintro ⟨⟨hv, ho, hg, hm⟩, rfl⟩
    -- Each count is below its limit, so that its `u32` is the count itself.
    have hc : ∀ {n l : Nat}, l < 2 ^ 32 → n ≤ l → (UInt32.ofNat n).toNat = n :=
      fun hl hn => UInt32.toNat_ofNat_of_lt' (Nat.lt_of_le_of_lt hn hl)
    have ho' := hc (by decide) ho
    have hg' := hc (by decide) hg
    have hm' := hc (by decide) hm
    refine ⟨IMAGE_MAGIC, _, ⟨rfl, ?_⟩, rfl, h.version, _, rfl, hv, UInt32.ofNat h.objectCount, _,
      rfl, ho'.trans_le ho, UInt32.ofNat h.grantCount, _, rfl, hg'.trans_le hg,
      UInt32.ofNat h.mapCount, _, rfl, hm'.trans_le hm, rest, rfl, ?_, rfl⟩
    · rw [ho', hg', hm']
      simp only [ImageHeader.bytes, append_assoc]
    · rw [ho', hg', hm']

theorem reads_layout : Reads decodeLayout ImageLayout.bytes fun _ => True := by
  refine ⟨fun {input rest l} => ?_, fun input => by simp [decodeLayout]⟩
  simp only [decodeLayout, eq_ok, readU64_eq_ok, readReserved64_eq_ok, true_and]
  constructor
  · rintro ⟨_, _, rfl, _, _, rfl, _, _, rfl, _, _, rfl, _, rfl, rfl, rfl⟩
    simp only [ImageLayout.bytes, append_assoc]
  · rintro rfl
    simp only [ImageLayout.bytes, append_assoc]
    exact ⟨_, _, rfl, _, _, rfl, _, _, rfl, _, _, rfl, _, rfl, rfl, rfl⟩

theorem reads_bootImage (n : Nat) :
    Reads (decodeBootImage n) ImageBootImage.bytes fun image => image.obj.raw.toNat < n := by
  refine ⟨fun {input rest image} => ?_, fun input => by simp [decodeBootImage]⟩
  simp only [decodeBootImage, eq_ok, readU32_eq_ok, readU64_eq_ok,
    readReserved32_eq_ok, checkRef_eq_ok, exists_const]
  constructor
  · rintro ⟨_, _, rfl, _, rfl, _, _, rfl, _, _, rfl, _, _, rfl, _, _, rfl, hr, rfl, rfl⟩
    exact ⟨hr, by simp only [ImageBootImage.bytes, append_assoc]⟩
  · rintro ⟨hr, rfl⟩
    simp only [ImageBootImage.bytes, append_assoc]
    exact ⟨_, _, rfl, _, rfl, _, _, rfl, _, _, rfl, _, _, rfl, _, _, rfl, hr, rfl, rfl⟩

theorem reads_grant (n : Nat) :
    Reads (decodeGrant n) ImageBootGrant.bytes (ImageBootGrant.Valid n) := by
  refine ⟨fun {input rest g} => ?_, fun input => by simp [decodeGrant]⟩
  simp only [decodeGrant, eq_ok, readU32_eq_ok, readU64_eq_ok, readU8_eq_ok,
    readBytes_eq_ok, checkRef_eq_ok, Permissions.fromBitsChecked, ite_none_right_eq_some,
    some.injEq, exists_const]
  constructor
  · rintro ⟨_, _, rfl, hr, b, _, rfl, _, ⟨hb, rfl⟩, _, _, ⟨-, rfl⟩, rfl, _, _, rfl, _, _, rfl,
      rfl, rfl⟩
    refine ⟨⟨hr, ?_⟩, ?_⟩
    · simpa using hb
    · simp [ImageBootGrant.bytes]
  · rintro ⟨⟨hr, hb⟩, rfl⟩
    simp only [ImageBootGrant.bytes, append_assoc]
    refine ⟨_, _, rfl, hr, UInt8.ofBitVec g.perms.bits, _, rfl, g.perms, ⟨hb, ?_⟩, [0, 0, 0], _,
      ⟨rfl, rfl⟩, rfl, _, _, rfl, _, _, rfl, rfl, rfl⟩
    simp

theorem reads_map (n : Nat) :
    Reads (decodeMap n) ImageBootMap.bytes fun map => map.obj.raw.toNat < n := by
  refine ⟨fun {input rest map} => ?_, fun input => by simp [decodeMap]⟩
  simp only [decodeMap, eq_ok, readU32_eq_ok, readU64_eq_ok, readReserved32_eq_ok,
    checkRef_eq_ok, exists_const]
  constructor
  · rintro ⟨_, _, rfl, hr, _, rfl, _, _, rfl, _, _, rfl, _, _, rfl, rfl, rfl⟩
    exact ⟨hr, by simp only [ImageBootMap.bytes, append_assoc]⟩
  · rintro ⟨hr, rfl⟩
    simp only [ImageBootMap.bytes, append_assoc]
    exact ⟨_, _, rfl, hr, _, rfl, _, _, rfl, _, _, rfl, _, _, rfl, rfl, rfl⟩

theorem toNat_ofNat_length {obj : ImageObject} (h : obj.Valid) :
    (UInt16.ofNat (asBytes obj.name).length).toNat = (asBytes obj.name).length ∧
      (UInt64.ofNat obj.contents.length).toNat = obj.contents.length :=
  ⟨UInt16.toNat_ofNat_of_lt' (Nat.lt_of_le_of_lt h.name (by decide)),
    UInt64.toNat_ofNat_of_lt' (Nat.lt_of_le_of_lt h.contents obj.size.toNat_lt)⟩

theorem reads_object : Reads decodeObject ImageObject.bytes ImageObject.Valid := by
  refine ⟨fun {input rest obj} => ?_, fun input => by simp [decodeObject]⟩
  simp only [decodeObject, eq_ok, readU16_eq_ok, readU64_eq_ok, readU8_eq_ok,
    readBytes_eq_ok, readReserved32_eq_ok, fromUtf8_eq_some, wireToObjectKind_eq_ok,
    wireToSeal_eq_ok, exists_const]
  constructor
  · rintro ⟨na, _, rfl, hn, _, _, ⟨hle, rfl⟩, name, rfl, _, _, rfl, kind, rfl, _, _, rfl,
      s, rfl, _, rfl, size, _, rfl, c, _, rfl, hc, co, _, ⟨hl, rfl⟩, rfl,
      rfl⟩
    refine ⟨⟨hle ▸ hn, hl ▸ hc⟩, ?_⟩
    simp [ImageObject.bytes, hle, hl]
  · rintro ⟨hv, rfl⟩
    obtain ⟨hn, hc⟩ := toNat_ofNat_length hv
    refine ⟨UInt16.ofNat (asBytes obj.name).length, _, ?_, hn.trans_le hv.name, asBytes obj.name,
      _, ⟨hn.symm, rfl⟩, obj.name, rfl, objectKindToWire obj.kind, _, rfl, obj.kind, rfl,
      sealToWire obj.sealAfterLoad, _, rfl, obj.sealAfterLoad, rfl, _, rfl, obj.size, _, rfl,
      UInt64.ofNat obj.contents.length, _, rfl, hc.trans_le hv.contents, obj.contents, rest,
      ⟨hc.symm, rfl⟩, rfl, rfl⟩
    rw [hn, hc]
    simp [ImageObject.bytes]

/-! ## The whole image -/

theorem decode_eq_ok {data : List UInt8} : decode data = ok m ↔ m.Valid ∧ data = m.bytes := by
  simp only [decode, eq_ok, reads_header.eq_ok, (reads_bootImage _).eq_ok,
    reads_layout.eq_ok, ((reads_grant _).many _).eq_ok, ((reads_map _).many _).eq_ok,
    (reads_object.many _).eq_ok, exists_const, true_and]
  constructor
  · rintro ⟨⟨v, o, g, ma⟩, _,
      ⟨⟨hv, ho, hg, hm⟩, rfl⟩, i, _, ⟨hi, rfl⟩, l, _, rfl,
      grants, _, ⟨⟨rfl, hgr⟩, rfl⟩, maps, _, ⟨⟨rfl, hma⟩, rfl⟩, objects, _,
      ⟨⟨rfl, hob⟩, rfl⟩, rfl, rfl⟩
    refine ⟨⟨hv, ho, hg, hm, hob, hi, hgr, hma⟩, ?_⟩
    simp only [bytes, header, SystemImage.layout, append_assoc, append_nil]
  · rintro ⟨h, rfl⟩
    simp only [bytes, append_assoc]
    exact ⟨m.header, _, ⟨⟨h.version, h.objectCount, h.grantCount, h.mapCount⟩, rfl⟩,
      m.boot.image, _,
      ⟨h.image, rfl⟩, m.layout, _, rfl, m.boot.grants, _, ⟨⟨rfl, h.grants⟩, rfl⟩, m.boot.maps, _,
      ⟨⟨rfl, h.maps⟩, rfl⟩, m.objects, [], ⟨⟨rfl, h.objects⟩, (append_nil _).symm⟩, rfl, rfl⟩

theorem decode_avoids (data : List UInt8) : (decode data).Avoids fun _ => False := by
  simp [decode, reads_header.total, (reads_bootImage _).total, reads_layout.total,
    ((reads_grant _).many _).total, ((reads_map _).many _).total, (reads_object.many _).total]

/-! ## The length computed in advance -/

theorem length_object (obj : ImageObject) :
    obj.bytes.length = 2 + (asBytes obj.name).length + (1 + 1 + 4 + 8 + 8) +
      obj.contents.length := by
  simp only [ImageObject.bytes, length_append, length_leBytes, length_singleton]

theorem foldlM_addObjectLength {o : List ImageObject} {t n : Nat} (h : t ≤ u64Max) :
    o.foldlM addObjectLength t = ok n ↔ n = t + (o.flatMap (·.bytes)).length ∧ n ≤ u64Max := by
  induction o generalizing t with
  | nil =>
    simp only [foldlM_nil, pure_eq_ok, flatMap_nil, length_nil, Nat.add_zero]
    exact ⟨fun hn => ⟨hn.symm, hn ▸ h⟩, fun hn => hn.1.symm⟩
  | cons obj o ih =>
    have ho := length_object obj
    simp only [foldlM_cons, addObjectLength, eq_ok, flatMap_cons, length_append]
    constructor
    · rintro ⟨_, ⟨_, ⟨-, rfl⟩, _, ⟨-, rfl⟩, _, ⟨-, rfl⟩, ht, rfl⟩, hr⟩
      obtain ⟨rfl, hn⟩ := (ih ht).mp hr
      exact ⟨by omega, hn⟩
    · rintro ⟨rfl, hn⟩
      have ht : t + obj.bytes.length ≤ u64Max := by omega
      exact ⟨t + obj.bytes.length,
        ⟨_, ⟨by omega, rfl⟩, _, ⟨by omega, rfl⟩, _, ⟨by omega, rfl⟩, by omega, by omega⟩,
        (ih ht).mpr ⟨by omega, hn⟩⟩

theorem length_flatMap_const {α : Type} {w : α → List UInt8} {as : List α}
    (h : ∀ a, (w a).length = n) : (as.flatMap w).length = as.length * n := by
  rw [length_flatMap, map_congr_left fun a _ => h a, map_const', sum_replicate, Nat.nsmul_eq_mul]

theorem length_bytes (m : SystemImage) :
    m.bytes.length = HEADER_SIZE + BOOT_IMAGE_SIZE + BOOT_LAYOUT_SIZE +
      m.boot.grants.length * GRANT_RECORD_SIZE + m.boot.maps.length * MAP_RECORD_SIZE +
      (m.objects.flatMap (·.bytes)).length := by
  have hg : (m.boot.grants.flatMap (·.bytes)).length =
      m.boot.grants.length * GRANT_RECORD_SIZE :=
    length_flatMap_const fun g => by
      simp [ImageBootGrant.bytes, length_leBytes, GRANT_RECORD_SIZE]
  have hm : (m.boot.maps.flatMap (·.bytes)).length = m.boot.maps.length * MAP_RECORD_SIZE :=
    length_flatMap_const fun map => by
      simp [ImageBootMap.bytes, length_leBytes, MAP_RECORD_SIZE]
  simp only [bytes, length_append, hg, hm]
  simp [ImageHeader.bytes, ImageBootImage.bytes, ImageLayout.bytes, IMAGE_MAGIC, length_leBytes,
    HEADER_SIZE, BOOT_IMAGE_SIZE, BOOT_LAYOUT_SIZE]

theorem totalLength_eq_ok : m.totalLength = ok n ↔ n = m.bytes.length ∧ n ≤ u64Max := by
  have hb := length_bytes m
  simp only [totalLength, eq_ok, checkedMul_eq_some]
  constructor
  · rintro ⟨_, ⟨-, rfl⟩, _, ⟨-, rfl⟩, _, ⟨-, rfl⟩, _, ⟨-, rfl⟩, _, ⟨-, rfl⟩, _, ⟨ht, rfl⟩, hr⟩
    rw [foldlM_addObjectLength ht, ← hb] at hr
    exact hr
  · rintro ⟨rfl, hn⟩
    rw [hb] at hn
    refine ⟨_, ⟨?_, rfl⟩, _, ⟨?_, rfl⟩, _, ⟨?_, rfl⟩, _, ⟨?_, rfl⟩, _, ⟨?_, rfl⟩, _, ⟨?_, rfl⟩,
      (foldlM_addObjectLength ?_).mpr ⟨hb, hb ▸ hn⟩⟩ <;> omega

theorem encode_eq_ok : m.encode = ok b ↔ m.Valid ∧ b = m.bytes ∧ b.length ≤ u64Max := by
  simp only [encode, eq_ok, totalLength_eq_ok]
  constructor
  · rintro ⟨hv, _, ⟨rfl, hl⟩, rfl⟩
    exact ⟨validateModel_eq_ok.mp hv, rfl, hl⟩
  · rintro ⟨hv, rfl, hl⟩
    exact ⟨validateModel_eq_ok.mpr hv, _, ⟨rfl, hl⟩, rfl⟩

/-! ## Round trips -/

theorem decode_encode (h : m.encode = ok b) : decode b = ok m :=
  have ⟨hv, hb, _⟩ := encode_eq_ok.mp h
  decode_eq_ok.mpr ⟨hv, hb⟩

theorem encode_decode (hl : b.length ≤ u64Max) (h : decode b = ok m) : m.encode = ok b :=
  have ⟨hv, hb⟩ := decode_eq_ok.mp h
  encode_eq_ok.mpr ⟨hv, hb, hl⟩

end SystemImage

end Anka
