import Anka.Link.Module

/-!
# The check of a protected link (`ankald.rs`)

The linker runs as a guest; the host checks what it produced and repairs nothing.
`protected_geometry` adds up the sizes of the modules under the limits of a profile.
`validate_protected_link_profile` parses and validates the image as a program, collects the exports
of all modules by address, and compares the image with the modules piece by piece: frames, and code
in words of eight bytes. For an imported CALL it decodes the address that the guest chose and looks
at the export there; it never searches by name.

Every address is below the limit of the profile once the geometry is accepted, so that the sums of
addresses are sums of naturals here.
-/

namespace Anka

open Rust Res

/-! ## Profiles and images -/

/-- What a link is for. -/
inductive LinkProfile where
  | application
  | compilerAbi2
  | largeApplication
  deriving DecidableEq

/-- dev_compiler.rs 36. -/
def DEVELOPMENT_COMPILER_OUTPUT_SIZE : Nat := 0x40000
/-- ankald.rs 540. -/
def LARGE_APPLICATION_LIMIT : Nat := 2 * 1024 * 1024
/-- ankald.rs 541. -/
def PROTECTED_IMAGE_LIMIT : Nat := 1024 * 1024

namespace LinkProfile

/-- The most bytes of a module (ankald.rs 57). -/
def moduleLimit : LinkProfile → Nat
  | application => DEVELOPMENT_COMPILER_OUTPUT_SIZE
  | compilerAbi2 => 1024 * 1024
  | largeApplication => LARGE_APPLICATION_LIMIT

/-- The most bytes of an image (ankald.rs 64). -/
def imageLimit (p : LinkProfile) : Nat :=
  if p = largeApplication then LARGE_APPLICATION_LIMIT else PROTECTED_IMAGE_LIMIT

/-- The parameters of the entry (ankald.rs 67). -/
def entryParameters : LinkProfile → List Nat
  | application => []
  | compilerAbi2 => [2001, 1001]
  | largeApplication => []

end LinkProfile

/-- A linked image. -/
structure AnkaldLinkedImage where
  bytes : List UInt8
  codeSize : Nat
  litStart : Nat
  entry : Nat
  processSlotsObserved : Nat

/-- Why a link is rejected. -/
inductive AnkaldError where
  | emptyInput
  | invalidProtectedLayout
  | invalidProtectedResult
  deriving DecidableEq

/-! ## Geometry -/

/-- The running sums of `protected_geometry`. -/
structure LinkGeometry where
  code : Nat
  metadata : Nat
  frames : Nat

namespace LinkGeometry

/-- One module. -/
def add (profile : LinkProfile) (g : LinkGeometry) (input : ValidatedPointerModule) :
    Res AnkaldError LinkGeometry := do
  require (input.bytes.length ≤ profile.moduleLimit ∧ g.code % input.module.header.codeAlign = 0)
    .invalidProtectedLayout
  let code ← okOr (checkedAdd g.code input.code.length) .invalidProtectedLayout
  let manifest ← minus input.module.rodata.length 32
  let metadata ← okOr (checkedAdd g.metadata manifest) .invalidProtectedLayout
  let frames ← okOr (checkedAdd g.frames input.frames.length) .invalidProtectedLayout
  require (frames ≤ 4096 ∧
    (checkedAdd code metadata).any (fun n => decide (n ≤ profile.imageLimit)) = true)
    .invalidProtectedLayout
  return { code, metadata, frames }

end LinkGeometry

/-- The sizes that an image must have (ankald.rs 543). -/
def protectedGeometry (inputs : List ValidatedPointerModule)
    (profile : LinkProfile) : Res AnkaldError LinkGeometry := do
  require (inputs ≠ []) .emptyInput
  require (¬ (profile = .compilerAbi2 ∧ inputs.length ≠ 1)) .invalidProtectedLayout
  mapErr (validateLinkModules (inputs.map (·.module))) fun _ => .invalidProtectedLayout
  inputs.foldlM (LinkGeometry.add profile) ⟨0, 32, 0⟩

/-! ## Exports -/

/-- The exports seen so far, and the base of the next module. -/
structure ExportTable where
  exportsAt : Map Nat AomSymbol
  names : List String
  base : Nat

namespace ExportTable

/-- One export of the module at `base`. -/
def addExport (t : ExportTable) (symbol : AomSymbol) : Res AnkaldError ExportTable := do
  require (symbol.name ∉ t.names) .invalidProtectedResult
  let address := t.base + symbol.value
  require (t.exportsAt.get address = none) .invalidProtectedResult
  return { t with exportsAt := t.exportsAt.insert address symbol, names := symbol.name :: t.names }

/-- The exports of one module. -/
def addModule (t : ExportTable) (input : ValidatedPointerModule) :
    Res AnkaldError ExportTable := do
  let t ← input.exports.foldlM addExport t
  return { t with base := t.base + input.code.length }

end ExportTable

/-! ## Frames and words -/

/-- `!mask` on `u64`. -/
def complement64 (mask : Nat) : Nat := u64Max - mask

/-- One frame of the image against the frame of the module at `base`. -/
def checkLinkedFrame (base : Nat) (before after : FrameManifest) : Res AnkaldError Unit :=
  require (after.entry = base + before.entry ∧ after.stop = base + before.stop ∧
    after.size = before.size ∧ after.locals = before.locals ∧
    after.exits.length = before.exits.length ∧
    (after.exits.zip before.exits).any (fun e => e.1 != base + e.2) = false) .invalidProtectedResult

/-- `relocations`: the last relocation of an offset is the one in the map. -/
def relocationMap (relocations : List AomRelocation) : Map Nat AomRelocation :=
  relocations.foldl (fun m r => m.insert r.offset r) ∅

/-- `u64::from_le_bytes(code[pc..pc + 8])`. -/
def word64At (code : List UInt8) (pc : Nat) : Res AnkaldError Nat := do
  check (pc + 8 ≤ code.length)
  return ofLeBytes (slice code pc 8)

/-- A relocated CALL: the export at the address that the image calls is the one imported. -/
def checkCall (exportsAt : Map Nat AomSymbol) (m : AomModule) (relocation : AomRelocation)
    (pc before after : Nat) : Res AnkaldError Unit := do
  require (after / 2 ^ 32 = before / 2 ^ 32 ∧
    isPlainCall (BitVec.ofNat 32 after) = true) .invalidProtectedResult
  let target : Int := pc + (decode (BitVec.ofNat 32 after)).imm * 4
  require (0 ≤ target ∧ target ≤ u64Max) .invalidProtectedResult
  let targetExport ← okOr (exportsAt.get target.toNat) .invalidProtectedResult
  let imported ← unwrap m.symbols[relocation.symbolIndex]?
  require (targetExport.name = imported.name ∧ targetExport.kind = imported.kind ∧
    targetExport.returnType = imported.returnType ∧
    targetExport.parameterTypes = imported.parameterTypes) .invalidProtectedResult

/-- One word of a module: its index in the module, its module's base and the number of frames before
the module. -/
def checkWord (exportsAt : Map Nat AomSymbol) (code : List UInt8) (m : AomModule)
    (base before : Nat)
    (index : Nat) : Res AnkaldError Unit := do
  let offset := index * 8
  let pc := base + offset
  let original ← word64At m.code offset
  let after ← word64At code pc
  if (decode (BitVec.ofNat 32 original)).desc.semantics = .pointerFrame then
    let mapped := (original &&& 0x3ffffff) + before
    require (after = (original &&& complement64 0x3ffffff) ||| mapped) .invalidProtectedResult
  else match (relocationMap m.relocations).get offset with
    | some relocation => checkCall exportsAt m relocation pc original after
    | none => require (original = after) .invalidProtectedResult

/-- One module at its place: `(base, prefix)`, the bytes and the frames before it. -/
def checkModule (exportsAt : Map Nat AomSymbol) (code : List UInt8) (frames : List FrameManifest)
    (at' : Nat × Nat) (input : ValidatedPointerModule) : Res AnkaldError (Nat × Nat) := do
  let (base, before) := at'
  input.frames.zipIdx.forM fun e => do
    let after ← unwrap frames[before + e.2]?
    checkLinkedFrame base e.1 after
  (List.range (input.code.length / 8)).forM (checkWord exportsAt code input.module base before)
  return (base + input.code.length, before + input.frames.length)

/-- The checks on a linked image (ankald.rs 580). -/
def validateProtectedLinkProfile (inputs : List ValidatedPointerModule)
    (image : AnkaldLinkedImage) (profile : LinkProfile) : Res AnkaldError Unit := do
  let g ← protectedGeometry inputs profile
  require (image.codeSize = g.code ∧ image.litStart = g.code ∧ image.entry = 0 ∧
    image.bytes.length = g.code + g.metadata ∧
      image.processSlotsObserved = 1) .invalidProtectedResult
  let code := image.bytes.take g.code
  let metadata := image.bytes.drop g.code
  let admitted ← mapErr (ValidatedPointerProgram.fromImage code metadata) fun _ =>
    .invalidProtectedResult
  let program ← okOr admitted .invalidProtectedResult
  require (program.frames.length = g.frames) .invalidProtectedResult
  let table ← inputs.foldlM ExportTable.addModule ⟨∅, [], 0⟩
  let entry ← okOr (table.exportsAt.get 0) .invalidProtectedResult
  require (entry.name = "main" ∧ entry.returnType = 1 ∧
    entry.parameterTypes = profile.entryParameters) .invalidProtectedResult
  let _ ← inputs.foldlM (checkModule table.exportsAt code program.frames) (0, 0)

end Anka
