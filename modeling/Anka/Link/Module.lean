import Anka.Core.Manifest
import Anka.Link.Interfaces

/-!
# Object modules (`aom.rs`, `pointer_frames.rs`)

`AomModule::parse` reads an object module: a header, code, read-only data, symbols and relocations,
all of fixed width. `ValidatedPointerModule::from_aom_with_limit` accepts one that the protected
compiler profile allows: the read-only data is the frame manifest and nothing else, instructions
stand in slots of eight bytes whose second half is NOP, the exports are the frames in order, every
relocation patches a CALL to itself, and the code passes the validator with those CALLs left open.

`ValidatedPointerModule.Sound` collects what the link check relies on.
-/

namespace Anka

open Rust Res List

/-! ## The parser -/

namespace AomModule

/-- A word at an offset (aom.rs 96). -/
def readU64 (bytes : List UInt8) (offset : Nat) : Res AomError Nat := do
  let stop ← okOr (checkedAdd offset 8) .truncated
  require (stop ≤ bytes.length) .truncated
  return ofLeBytes (slice bytes offset 8)

/-- A power of two divides the value (aom.rs 102). -/
def aligned (value alignment : Nat) : Bool :=
  alignment != 0 && 2 ^ Nat.log2 alignment == alignment && value % alignment == 0

/-- A scalar that may cross modules (aom.rs 106). -/
def portablePublicType (typeTag : Nat) : Bool :=
  typeTag % 1000 == 1 || typeTag % 1000 == 2 || typeTag % 1000 == 3

/-- `public_type`: version 2 adds pointers to declared types. -/
def publicType (version t : Nat) : Bool :=
  portablePublicType t ||
    (version == AOM_TYPED_VERSION && t % 1000 == 4 && decide (0 < t / 1000) &&
      decide (t / 1000 ≤ 63))

/-- The section is inside the file (aom.rs 111). -/
def checkedRange (offset size total : Nat) : Res AomError Unit := do
  let stop ← okOr (checkedAdd offset size) .badSectionBounds
  require (stop ≤ total) .badSectionBounds

/-- The header's words (aom.rs 122). -/
def parseHeader (bytes : List UInt8) : Res AomError AomHeader := do
  let totalSize ← readU64 bytes 24
  let codeOffset ← readU64 bytes 32
  let codeSize ← readU64 bytes 40
  let codeAlign ← readU64 bytes 48
  let rodataOffset ← readU64 bytes 56
  let rodataSize ← readU64 bytes 64
  let rodataAlign ← readU64 bytes 72
  let symbolOffset ← readU64 bytes 80
  let symbolCount ← readU64 bytes 88
  let relocationOffset ← readU64 bytes 96
  let relocationCount ← readU64 bytes 104
  return { totalSize, codeOffset, codeSize, codeAlign, rodataOffset, rodataSize, rodataAlign
           symbolOffset, symbolCount, relocationOffset, relocationCount }

/-- The sections lie one after the other inside the file. -/
def checkSections (h : AomHeader) (length : Nat) : Res AomError Unit := do
  require (h.totalSize = length) .badTotalSize
  require (h.codeOffset = AOM_HEADER_SIZE ∧ h.codeSize ≠ 0 ∧ h.codeSize % 8 = 0) .badSectionBounds
  require (aligned h.codeOffset h.codeAlign = true ∧ 8 ≤ h.codeAlign ∧
    aligned h.rodataOffset h.rodataAlign = true ∧ 8 ≤ h.rodataAlign ∧
    aligned h.symbolOffset 8 = true ∧ aligned h.relocationOffset 8 = true) .badAlignment
  checkedRange h.codeOffset h.codeSize h.totalSize
  checkedRange h.rodataOffset h.rodataSize h.totalSize
  let codeEnd ← okOr (checkedAdd h.codeOffset h.codeSize) .badSectionBounds
  let rodataEnd ← okOr (checkedAdd h.rodataOffset h.rodataSize) .badSectionBounds
  require (codeEnd ≤ h.rodataOffset ∧ rodataEnd ≤ h.symbolOffset) .badSectionBounds

/-- The tables follow each other; only version 2 may have bytes after them. Answers where they
end. -/
def checkTables (h : AomHeader) (version : Nat) : Res AomError Nat := do
  let symbolBytes ← okOr (checkedMul h.symbolCount AOM_SYMBOL_SIZE) .badTableGeometry
  let expectedReloc ← okOr (checkedAdd h.symbolOffset symbolBytes) .badTableGeometry
  require (expectedReloc = h.relocationOffset) .badTableGeometry
  let relocationBytes ← okOr (checkedMul h.relocationCount AOM_RELOCATION_SIZE) .badTableGeometry
  let expectedTotal ← okOr (checkedAdd h.relocationOffset relocationBytes) .badTableGeometry
  require (¬ (version = AOM_VERSION ∧ expectedTotal ≠ h.totalSize) ∧ expectedTotal ≤ h.totalSize)
    .badTableGeometry
  return expectedTotal

/-- The trailer of version 2. -/
def parseInterface (bytes : List UInt8) (version offset : Nat) : Res AomError (List UInt8) :=
  if version = AOM_TYPED_VERSION then do
    let trailer := bytes.drop offset
    let count ← mapErr (readU64 trailer 24) fun _ => .badInterface
    require (count ≠ 0) .badInterface
    return trailer
  else ok []

/-- The name of a symbol: an identifier, padded with zeros. -/
def parseName (bytes : List UInt8) (base : Nat) : Res AomError String := do
  let nameLen ← readU64 bytes base
  require (nameLen ≠ 0 ∧ nameLen ≤ 63) .badSymbol
  require (base + 72 ≤ bytes.length) .truncated
  let nameStorage := slice bytes (base + 8) 64
  require ((nameStorage.drop nameLen).all (· == 0) = true) .badSymbol
  let nameBytes := nameStorage.take nameLen
  let first ← unwrap nameBytes[0]?
  require ((first == 0x5F || isAsciiAlphabetic first) = true ∧
    (nameBytes.drop 1).all (fun b => b == 0x5F || isAsciiAlphanumeric b) = true) .badSymbol
  okOr (fromUtf8 nameBytes) .badSymbol

/-- The binding of a symbol: an export is a slot of the code, an import has no place. -/
def checkBinding (codeSize binding inSection value size : Nat) : Res AomError Unit :=
  if binding = AOM_BINDING_EXPORT then
    require (inSection = AOM_SECTION_CODE ∧ value < codeSize ∧ value % 8 = 0) .badSymbol
  else if binding = AOM_BINDING_IMPORT then
    require (inSection = AOM_SECTION_UNDEFINED ∧ value = 0 ∧ size = 0) .badSymbol
  else err .badSymbol

/-- One symbol. -/
def parseSymbol (bytes : List UInt8) (version codeSize : Nat) (symbols : List AomSymbol)
    (base : Nat) : Res AomError AomSymbol := do
  let name ← parseName bytes base
  require (symbols.any (fun s => s.name == name) = false) .duplicateSymbol
  let binding ← readU64 bytes (base + 72)
  let kind ← readU64 bytes (base + 80)
  let inSection ← readU64 bytes (base + 88)
  let value ← readU64 bytes (base + 96)
  let size ← readU64 bytes (base + 104)
  let returnType ← readU64 bytes (base + 112)
  let argc ← readU64 bytes (base + 120)
  require (kind = AOM_SYMBOL_FUNCTION ∧ argc ≤ 4 ∧ publicType version returnType = true) .badSymbol
  checkBinding codeSize binding inSection value size
  let parameterTypes ← (List.range argc).mapM fun p => do
    let parameterType ← readU64 bytes (base + 128 + p * 8)
    require (parameterType ≠ 3 ∧ publicType version parameterType = true) .badSymbol
    return parameterType
  (List.range' argc (4 - argc)).forM fun p => do
    let unused ← readU64 bytes (base + 128 + p * 8)
    require (unused = 0) .badSymbol
  return { name, binding, kind, inSection, value, size, returnType, parameterTypes }

/-- One relocation. -/
def parseRelocation (bytes : List UInt8) (h : AomHeader) (symbols : List AomSymbol) (base : Nat) :
    Res AomError AomRelocation := do
  let inSection ← readU64 bytes base
  let offset ← readU64 bytes (base + 8)
  let width ← readU64 bytes (base + 16)
  let kind ← readU64 bytes (base + 24)
  let symbolIndex ← readU64 bytes (base + 32)
  let addend ← readU64 bytes (base + 40)
  require (inSection = AOM_SECTION_CODE ∧ width = 8 ∧ kind = AOM_RELOC_CALL_PC20 ∧ offset % 8 = 0 ∧
    (checkedAdd offset width).any (fun stop => decide (stop ≤ h.codeSize)) = true ∧
    symbolIndex < h.symbolCount) .badRelocation
  let symbol ← unwrap symbols[symbolIndex]?
  require (symbol.isImport = true) .badRelocation
  return { inSection, offset, width, kind, symbolIndex, addend := asI64 addend }

/-- The symbol table. The addresses were checked with the tables. -/
def parseSymbols (bytes : List UInt8) (version : Nat) (h : AomHeader) :
    Res AomError (List AomSymbol) :=
  (List.range h.symbolCount).foldlM (fun symbols index => do
    let symbol ← parseSymbol bytes version h.codeSize symbols
      (h.symbolOffset + index * AOM_SYMBOL_SIZE)
    return symbols ++ [symbol]) []

/-- The relocation table. -/
def parseRelocations (bytes : List UInt8) (h : AomHeader) (symbols : List AomSymbol) :
    Res AomError (List AomRelocation) :=
  (List.range h.relocationCount).mapM fun index =>
    parseRelocation bytes h symbols (h.relocationOffset + index * AOM_RELOCATION_SIZE)

/-- The interface of version 2 names the symbols of the table (304–312). -/
def checkInterface (version : Nat) (interface : List UInt8) (length : Nat)
    (symbols : List AomSymbol) : Res AomError Unit :=
  if version = AOM_TYPED_VERSION then do
    let (types, work) ← mapErr (TypeEvidence.parse interface (.ofLength length) LINK_WORK) fun _ =>
      .badInterface
    let _ ← mapErr (types.checkSymbols symbols work) fun _ => .badInterface
  else ok ()

/-- The module of a file (aom.rs 122). -/
def parse (bytes : List UInt8) : Res AomError AomModule := do
  require (AOM_HEADER_SIZE ≤ bytes.length) .truncated
  require (bytes.take 8 = AOM_MAGIC) .badMagic
  let version ← readU64 bytes 8
  require (version = AOM_VERSION ∨ version = AOM_TYPED_VERSION) (.unsupportedVersion version)
  let headerSize ← readU64 bytes 16
  require (headerSize = AOM_HEADER_SIZE) (.badHeaderSize headerSize)
  let header ← parseHeader bytes
  checkSections header bytes.length
  let expectedTotal ← checkTables header version
  let interface ← parseInterface bytes version expectedTotal
  let symbols ← parseSymbols bytes version header
  let relocations ← parseRelocations bytes header symbols
  checkInterface version interface bytes.length symbols
  return {
    interface, header, symbols, relocations
    code := slice bytes header.codeOffset header.codeSize
    rodata := slice bytes header.rodataOffset header.rodataSize }

end AomModule

/-! ## Validated modules -/

/-- Why a module is rejected. -/
inductive PointerModuleError where
  | aom (error : AomError)
  | frames (error : FrameError)
  | capacity
  | geometry
  | symbol
  | relocation
  deriving DecidableEq

/-- A module and its frames. -/
structure ValidatedPointerModule where
  bytes : List UInt8
  module : AomModule
  frames : List FrameManifest
  deriving DecidableEq

/-- `u32::from_le_bytes(code[pc..pc + 4])` inside the code. -/
def wordOf32 (code : List UInt8) (pc : Nat) : BitVec 32 :=
  BitVec.ofNat 32 (ofLeBytes (slice code pc 4))

/-- `word & !0x3fffff == CALL`: the opcode of CALL and no condition. -/
def isPlainCall (word : BitVec 32) : Bool := word &&& ~~~0x3fffff#32 == Asm64.call 0

namespace ValidatedPointerModule

/-- `module.code`. -/
abbrev code (m : ValidatedPointerModule) : List UInt8 := m.module.code

/-- The exports of a module, in the order of its symbol table. -/
def exports (m : ValidatedPointerModule) : List AomSymbol := m.module.symbols.filter (·.isExport)

/-- One slot of eight bytes. -/
def checkSlot (code : List UInt8) (i : Nat) : Res PointerModuleError Unit :=
  require (wordOf32 code (8 * i + 4) = Asm64.nop ∧
    ¬ ((insnOf code (8 * i)).desc.semantics = .call ∧ isPlainCall (wordOf32 code (8 * i)) = false))
    .relocation

/-- The lanes that a list of parameters takes: a pointer takes an even pair. -/
def lanes (parameterTypes : List Nat) : Nat :=
  parameterTypes.foldl (fun lane ty => if 1000 ≤ ty then (lane + 1) / 2 * 2 + 2 else lane + 1) 0

/-- One relocation: it patches a CALL to itself inside a frame, and no other relocation does. -/
def checkRelocation (code : List UInt8) (frames : List FrameManifest) (imports : List Nat)
    (relocation : AomRelocation) : Res PointerModuleError (List Nat) := do
  let pc := relocation.offset
  check (pc + 4 ≤ code.length)
  require (relocation.addend = 0 ∧ wordOf32 code pc = Asm64.call 0 ∧ pc ∉ imports ∧
    frames.any (fun frame => decide (frame.entry < pc) && decide (pc + 8 ≤ frame.stop)) = true)
    .relocation
  return imports ++ [pc]

/-- A module whose frames are valid (pointer_frames.rs 187). -/
def fromAomWithLimit (bytes : List UInt8) (limit : Nat) :
    Res PointerModuleError ValidatedPointerModule := do
  require (bytes.length ≤ limit) .capacity
  let module ← mapErr (AomModule.parse bytes) .aom
  require (module.header.rodataOffset = AOM_HEADER_SIZE + module.header.codeSize ∧
    module.header.symbolOffset = module.header.rodataOffset + module.header.rodataSize) .geometry
  let frames ← mapErr (ValidatedPointerProgram.parseManifest module.code module.rodata) .frames
  require (frames.any (fun frame => frame.entry % 8 != 0 || frame.stop % 8 != 0) = false) .geometry
  (List.range (module.code.length / 8)).forM (checkSlot module.code)
  let exports := module.symbols.filter (·.isExport)
  require (exports.length = frames.length ∧
    (exports.zip frames).any (fun e => e.1.value != e.2.entry) = false) .symbol
  module.symbols.forM fun symbol => require (lanes symbol.parameterTypes ≤ 4) .symbol
  let imports ← module.relocations.foldlM (checkRelocation module.code frames) []
  mapErr (ValidatedPointerProgram.validateStructure module.code frames imports) .frames
  return { bytes, module, frames }

/-! ## What a validated module guarantees -/

/-- One relocation of a validated module. -/
structure SoundRelocation (m : ValidatedPointerModule) (r : AomRelocation) : Prop where
  aligned : r.offset % 8 = 0
  le : r.offset + 8 ≤ m.code.length
  word : wordOf32 m.code r.offset = Asm64.call 0
  symbol : ∃ s, m.module.symbols[r.symbolIndex]? = some s ∧ s.isImport = true

/-- What the link check relies on. -/
structure Sound (m : ValidatedPointerModule) : Prop where
  code_lt : m.code.length < 2 ^ 64
  code_mod : m.code.length % 8 = 0
  manifest : ValidatedPointerProgram.parseManifest m.code m.module.rodata = ok m.frames
  frames_aligned : ∀ frame ∈ m.frames, frame.entry % 8 = 0 ∧ frame.stop % 8 = 0
  pad : ∀ i, 8 * i + 8 ≤ m.code.length → wordOf32 m.code (8 * i + 4) = Asm64.nop
  exports : m.exports.map (·.value) = m.frames.map (·.entry)
  relocations : ∀ r ∈ m.module.relocations, m.SoundRelocation r
  offsets : (m.module.relocations.map (·.offset)).Nodup
  checked : ValidatedPointerProgram.validateStructure m.code m.frames
    (m.module.relocations.map (·.offset)) = ok ()

end ValidatedPointerModule

namespace AomModule

variable {bytes : List UInt8} {h : AomHeader}

theorem readU64_lt {o w : Nat} (h : readU64 bytes o = ok w) : w < 2 ^ 64 := by
  simp only [readU64, eq_ok] at h
  obtain ⟨_, ⟨-, rfl⟩, hl, rfl⟩ := h
  have hlt := ofLeBytes_lt (slice bytes o 8)
  rwa [length_slice hl] at hlt

theorem parseHeader_totalSize (hp : parseHeader bytes = ok h) : h.totalSize < 2 ^ 64 := by
  simp only [parseHeader, eq_ok] at hp
  obtain ⟨_, ht, _, -, _, -, _, -, _, -, _, -, _, -, _, -, _, -, _, -, _, -, rfl⟩ := hp
  exact readU64_lt ht

theorem parseRelocation_eq_ok {sy : List AomSymbol}
    {base : Nat} {r : AomRelocation} (hp : parseRelocation bytes h sy base = ok r) :
    r.offset % 8 = 0 ∧ r.offset + 8 ≤ h.codeSize ∧
      ∃ s, sy[r.symbolIndex]? = some s ∧ s.isImport = true := by
  simp only [parseRelocation, eq_ok, Option.any_eq_true, decide_eq_true_eq] at hp
  obtain ⟨_, -, _, -, _, -, _, -, _, -, _, -, ⟨-, rfl, -, ha, ⟨_, ⟨-, rfl⟩, hl⟩, -⟩, s, hs,
    hi, rfl⟩ := hp
  exact ⟨ha, hl, s, hs, hi⟩

theorem parse_eq_ok {m : AomModule} (h : parse bytes = ok m) :
    m.code.length < 2 ^ 64 ∧ m.code.length % 8 = 0 ∧
      ∀ r ∈ m.relocations, r.offset % 8 = 0 ∧ r.offset + 8 ≤ m.code.length ∧
        ∃ s, m.symbols[r.symbolIndex]? = some s ∧ s.isImport = true := by
  simp only [parse, eq_ok] at h
  obtain ⟨-, -, v, -, -, _, -, -, header, hh, hs, t, -, i, -, sy, -, re, hre, -, rfl⟩ := h
  simp only [checkSections, checkedRange, eq_ok] at hs
  obtain ⟨ht, ⟨-, -, hm⟩, -, ⟨_, ⟨-, rfl⟩, hc⟩, -⟩ := hs
  have hl : (slice bytes header.codeOffset header.codeSize).length = header.codeSize :=
    length_slice (ht ▸ hc)
  have hlt := parseHeader_totalSize hh
  rw [hl]
  refine ⟨by omega, hm, fun r hr => ?_⟩
  obtain ⟨ind, -, hp⟩ := mem_of_mapM hre hr
  exact parseRelocation_eq_ok hp

end AomModule

namespace ValidatedPointerModule

theorem map_eq_iff_zip {α β : Type} {f : α → Nat} {g : β → Nat} {as : List α} {bs : List β} :
    as.map f = bs.map g ↔
      as.length = bs.length ∧ (as.zip bs).any (fun e => f e.1 != g e.2) = false := by
  induction as generalizing bs with
  | nil => cases bs <;> simp
  | cons a as ih =>
    cases bs with
    | nil => simp
    | cons b bs => simp [ih, and_left_comm]

theorem checkRelocations_eq_ok {code : List UInt8} {fr : List FrameManifest}
    {re : List AomRelocation} {i i' : List Nat} (hn : i.Nodup)
    (h : re.foldlM (checkRelocation code fr) i = ok i') :
    i' = i ++ re.map (·.offset) ∧ i'.Nodup ∧ ∀ r ∈ re, wordOf32 code r.offset = Asm64.call 0 := by
  induction re generalizing i with
  | nil =>
    obtain rfl := ok.inj h
    exact ⟨by simp, hn, by simp⟩
  | cons r re ih =>
    simp only [foldlM_cons, eq_ok, checkRelocation] at h
    obtain ⟨_, ⟨-, ⟨-, hwo, hne, -⟩, rfl⟩, hr⟩ := h
    obtain ⟨heq, hn', hw⟩ := ih (hn.append (nodup_singleton _) (disjoint_singleton.mpr hne)) hr
    exact ⟨by rw [heq, append_assoc]; rfl, hn', forall_mem_cons.mpr ⟨hwo, hw⟩⟩

theorem fromAomWithLimit_sound {bytes : List UInt8} {l : Nat}
    {m : ValidatedPointerModule} (h : fromAomWithLimit bytes l = ok m) : m.Sound := by
  simp only [fromAomWithLimit, eq_ok, forM_eq_ok] at h
  obtain ⟨-, mo, hp, -, fra, hf, ha, hsl, ⟨hex, hexp⟩, -, im, him, hs, rfl⟩ := h
  obtain ⟨hl, hm, hre⟩ := AomModule.parse_eq_ok hp
  obtain ⟨rfl, hn, hw⟩ := checkRelocations_eq_ok nodup_nil him
  rw [nil_append] at hn hs
  constructor
  case code_lt => exact hl
  case code_mod => exact hm
  case manifest => exact hf
  case frames_aligned =>
    intro fr hfr
    simpa using any_eq_false.mp ha fr hfr
  case pad =>
    intro i hi
    have hl : i < mo.code.length / 8 := by
      rw [Nat.lt_div_iff_mul_lt (by decide)]
      change 8 * i + 8 ≤ mo.code.length at hi
      omega
    have hslo := hsl i (mem_range.mpr hl)
    exact (require_eq_ok.mp hslo).1
  case exports => exact map_eq_iff_zip.mpr ⟨hex, hexp⟩
  case relocations =>
    intro r hr
    obtain ⟨ha, hle, hsy⟩ := hre r hr
    exact ⟨ha, hle, hw r hr, hsy⟩
  case offsets => exact hn
  case checked => exact hs

end ValidatedPointerModule

end Anka
