import Anka.Asm
import Anka.Lib.Loops
import Anka.Lib.Reader

/-!
# Object modules and their typed interfaces (`aom.rs`, `compiler_adapter/interfaces.rs`)

A module of version 2 carries an interface behind its tables: the structures it declares, with the
layout of their fields, and a record of each of its symbols, with the tags of the structures in its
type. `TypeEvidence::parse` (141–245) accepts an interface whose names are distinct identifiers,
whose layouts are those of the fields, whose structures contain only structures of a lower rank, and
whose signatures fit the argument lanes; `check_symbols` (249–266) binds its records to the symbol
table. `validate_link_modules` (354–394) compares the interfaces of a link.

All loops take from one budget of work, which is passed from call to call. The words of a
declaration and of a function record are read where the source has checked that they are there.

Main result: `validateLinkModules_agree`. In an accepted link with an interface, an import and every
export of its name have the same type, down to the tags of the structures, and a structure that two
modules declare completely is the same bytes in both.

Left out: `object_layout` and `CompatibleInterfaces` (279–345), which neither the parser nor the
link check calls.
-/

namespace Anka

open Rust Res List

/-! ## The format -/

/-- aom.rs 8. -/
def AOM_MAGIC : List UInt8 := [0x41, 0x4E, 0x4B, 0x41, 0x4F, 0x4D, 0x31, 0x00]
/-- aom.rs 9. -/
def AOM_VERSION : Nat := 1
/-- aom.rs 10. -/
def AOM_TYPED_VERSION : Nat := 2
/-- aom.rs 11. -/
def AOM_HEADER_SIZE : Nat := 112
/-- aom.rs 12. -/
def AOM_SYMBOL_SIZE : Nat := 160
/-- aom.rs 13. -/
def AOM_RELOCATION_SIZE : Nat := 48
/-- aom.rs 14. -/
def AOM_SECTION_UNDEFINED : Nat := 0
/-- aom.rs 15. -/
def AOM_SECTION_CODE : Nat := 1
/-- aom.rs 17. -/
def AOM_BINDING_EXPORT : Nat := 1
/-- aom.rs 18. -/
def AOM_BINDING_IMPORT : Nat := 2
/-- aom.rs 19. -/
def AOM_SYMBOL_FUNCTION : Nat := 1
/-- aom.rs 20. -/
def AOM_RELOC_CALL_PC20 : Nat := 1

/-- The header of a module. -/
structure AomHeader where
  totalSize : Nat
  codeOffset : Nat
  codeSize : Nat
  codeAlign : Nat
  rodataOffset : Nat
  rodataSize : Nat
  rodataAlign : Nat
  symbolOffset : Nat
  symbolCount : Nat
  relocationOffset : Nat
  relocationCount : Nat
  deriving DecidableEq

/-- A symbol; `inSection` is the source's `section`. -/
structure AomSymbol where
  name : String
  binding : Nat
  kind : Nat
  inSection : Nat
  value : Nat
  size : Nat
  returnType : Nat
  parameterTypes : List Nat
  deriving DecidableEq

namespace AomSymbol

/-- Others may call it (aom.rs 50). -/
def isExport (s : AomSymbol) : Bool := s.binding == AOM_BINDING_EXPORT

/-- Another module has it (aom.rs 54). -/
def isImport (s : AomSymbol) : Bool := s.binding == AOM_BINDING_IMPORT

end AomSymbol

/-- A word to fill in. -/
structure AomRelocation where
  inSection : Nat
  offset : Nat
  width : Nat
  kind : Nat
  symbolIndex : Nat
  addend : Int
  deriving DecidableEq

/-- A module, parsed. -/
structure AomModule where
  interface : List UInt8
  header : AomHeader
  code : List UInt8
  rodata : List UInt8
  symbols : List AomSymbol
  relocations : List AomRelocation
  deriving DecidableEq

/-- Why bytes are no module. -/
inductive AomError where
  | truncated
  | badMagic
  | unsupportedVersion (version : Nat)
  | badHeaderSize (size : Nat)
  | badTotalSize
  | badAlignment
  | badSectionBounds
  | badTableGeometry
  | badSymbol
  | duplicateSymbol
  | badRelocation
  | badInterface
  deriving DecidableEq

namespace AomModule

/-- `u8::is_ascii_alphabetic`. -/
def isAsciiAlphabetic (b : UInt8) : Bool :=
  decide (65 ≤ b.toNat ∧ b.toNat ≤ 90 ∨ 97 ≤ b.toNat ∧ b.toNat ≤ 122)

/-- `u8::is_ascii_alphanumeric`. -/
def isAsciiAlphanumeric (b : UInt8) : Bool :=
  isAsciiAlphabetic b || decide (48 ≤ b.toNat ∧ b.toNat ≤ 57)

end AomModule

/-! ## Reading an interface -/

/-- A word of eight bytes. -/
def Link.wordAt64 (code : List UInt8) (pc : Nat) : Nat := ofLeBytes (slice code pc 8)

open Link (wordAt64)

/-- interfaces.rs 9. -/
def TYPE_MAGIC : List UInt8 := [0x41, 0x4E, 0x4B, 0x41, 0x54, 0x59, 0x31, 0x00]
/-- interfaces.rs 10. -/
def TYPE_VERSION : Nat := 1
/-- interfaces.rs 11. -/
def HEADER_BYTES : Nat := 40
/-- interfaces.rs 12. -/
def DECL_BYTES : Nat := 112
/-- interfaces.rs 13. -/
def FIELD_BYTES : Nat := 160
/-- interfaces.rs 14. -/
def REF_BYTES : Nat := 80
/-- interfaces.rs 15. -/
def FUNCTION_BYTES : Nat := 480

/-- The work that a module's parser and the link check may do. -/
def LINK_WORK : Nat := 100000000

/-- `TypeError`. -/
inductive TypeError where
  | header
  | bounds
  | limit
  | work
  | name
  | duplicate
  | type
  | incomplete
  | layout
  | cycle
  | signature
  | conflict
  | unresolved
  deriving DecidableEq

/-- `TypeLimits`. -/
structure TypeLimits where
  bytes : Nat
  declarations : Nat
  fields : Nat
  functions : Nat

/-- The limits of both callers, for an interface of at most `length` bytes. -/
def TypeLimits.ofLength (length : Nat) : TypeLimits := ⟨length, 4096, 4096, 4096⟩

/-- `TypeWork::take` (40). -/
def takeWork (remaining n : Nat) : Res TypeError Nat := okOr (checkedSub remaining n) .work

/-- `word` (46). -/
def typeWord (b : List UInt8) (off : Nat) : Res TypeError Nat := do
  let stop ← okOr (checkedAdd off 8) .bounds
  require (stop ≤ b.length) .bounds
  return wordAt64 b off

/-- `end` (51): where `count` records of `stride` bytes from `start` on end. -/
def endOf (start count stride : Nat) : Res TypeError Nat := do
  let bytes ← okOr (checkedMul count stride) .bounds
  okOr (checkedAdd start bytes) .bounds

/-- `identifier` (56): a name of 64 bytes, padded with zeros. -/
def identifier (b : List UInt8) : Bool :=
  let n := b.findIdx (· == 0)
  decide (b.length = 64 ∧ n < 64 ∧ 0 < n) &&
    b.head?.any (fun c => AomModule.isAsciiAlphabetic c || c == 0x5F) &&
    (b.take n).all (fun c => AomModule.isAsciiAlphanumeric c || c == 0x5F) &&
    (b.drop n).all (· == 0)

/-- `is_power_of_two`. -/
def isPowerOfTwo (a : Nat) : Bool := a != 0 && 2 ^ Nat.log2 a == a

/-- `align` (63); the mask of a power of two drops what is left over. -/
def alignType (n a : Nat) : Res TypeError Nat := do
  require (isPowerOfTwo a = true) .layout
  let m ← okOr (checkedAdd n (a - 1)) .layout
  require (m / a * a ≤ i64Max) .layout
  return m / a * a

/-- `Decl` (70): a declaration with its fields. -/
structure Decl where
  raw : List UInt8

namespace Decl

/-- Its name (interfaces.rs 72). -/
def name (d : Decl) : List UInt8 := d.raw.take 64
/-- Its fields are known (interfaces.rs 73). -/
def complete (d : Decl) : Bool := wordAt64 d.raw 64 == 1
/-- Its size (interfaces.rs 74). -/
def size (d : Decl) : Nat := wordAt64 d.raw 72
/-- Its alignment (interfaces.rs 75). -/
def alignment (d : Decl) : Nat := wordAt64 d.raw 80
/-- How many fields (interfaces.rs 76). -/
def count (d : Decl) : Nat := wordAt64 d.raw 88
/-- Its rank: what it contains has a lower one (interfaces.rs 77). -/
def rank (d : Decl) : Nat := wordAt64 d.raw 96
/-- One field record (interfaces.rs 78). -/
def field (d : Decl) (i : Nat) : List UInt8 :=
  slice d.raw (DECL_BYTES + i * FIELD_BYTES) FIELD_BYTES

end Decl

/-- `Ref` (84): a reference to a type, of some pointer depth. -/
structure Ref where
  raw : List UInt8

namespace Ref

/-- The base of the type (interfaces.rs 86). -/
def kind (r : Ref) : Nat := wordAt64 r.raw 0
/-- How many pointers deep (interfaces.rs 87). -/
def depth (r : Ref) : Nat := wordAt64 r.raw 8
/-- The struct it names (interfaces.rs 88). -/
def tag (r : Ref) : List UInt8 := slice r.raw 16 64

end Ref

/-- `TypeEvidence` (94): the exact bytes, and where the function records begin. -/
structure TypeEvidence where
  bytes : List UInt8
  declarations : Nat
  functions : Nat
  functionsAt : Nat

/-- `decl_at` (100). -/
def declAt (bytes : List UInt8) (start : Nat) : Res TypeError Decl := do
  let countAt ← okOr (checkedAdd start 88) .bounds
  let count ← typeWord bytes countAt
  let fields ← okOr (checkedAdd start DECL_BYTES) .bounds
  let stop ← endOf fields count FIELD_BYTES
  require (stop ≤ bytes.length) .bounds
  return ⟨slice bytes start (stop - start)⟩

/-- The loop of `find` over `n` declarations from `start` on. -/
def findFrom (bytes name : List UInt8) : Nat → Nat → Nat → Res TypeError (Option Decl × Nat)
  | 0, _, work => ok (none, work)
  | n + 1, start, work => do
    let work ← takeWork work 1
    let d ← declAt bytes start
    if d.name = name then ok (some d, work) else findFrom bytes name n (start + d.raw.length) work

/-- No name of the records before the record `i` is its own. -/
def checkDistinct (record : Nat → List UInt8) (i work : Nat) : Res TypeError Nat :=
  (List.range i).foldlM (fun work j => do
    let work ← takeWork work 1
    require ((record j).take 64 ≠ (record i).take 64) .duplicate
    return work) work

namespace TypeEvidence

/-- `find` (105). -/
def find (e : TypeEvidence) (name : List UInt8) (work : Nat) :
    Res TypeError (Option Decl × Nat) :=
  findFrom e.bytes name e.declarations HEADER_BYTES work

/-- `function` (115). -/
def function (e : TypeEvidence) (i : Nat) : List UInt8 :=
  slice e.bytes (e.functionsAt + i * FUNCTION_BYTES) FUNCTION_BYTES

/-- `reference` (119). -/
def reference (e : TypeEvidence) (raw : List UInt8) (work : Nat) :
    Res TypeError (Ref × Nat) := do
  let work ← takeWork work 1
  let r : Ref := ⟨raw⟩
  require (1 ≤ r.kind ∧ r.kind ≤ 4 ∧ r.depth ≤ 63) .type
  if r.kind = 4 then
    require (identifier r.tag = true) .type
    let (found, work) ← e.find r.tag work
    require (found.isSome = true) .type
    return (r, work)
  else
    require (r.tag.all (· == 0) = true) .type
    return (r, work)

/-- `layout` (128): the size, the alignment and the rank of a value. -/
def layout (e : TypeEvidence) (r : Ref) (work : Nat) :
    Res TypeError ((Nat × Nat × Nat) × Nat) :=
  if 0 < r.depth then ok ((16, 16, 0), work)
  else match r.kind with
    | 1 => ok ((8, 8, 0), work)
    | 2 => ok ((1, 1, 0), work)
    | 4 => do
      let (found, work) ← e.find r.tag work
      let d ← okOr found .type
      require (d.complete = true) .incomplete
      return ((d.size, d.alignment, d.rank), work)
    | _ => err .layout

/-! ## The parser -/

/-- What the first loop of `parse` carries: the next declaration, the fields so far, and the work.
-/
structure Scan where
  start : Nat
  fields : Nat
  work : Nat

/-- The words of a declaration (163–173). -/
def checkShape (declarations : Nat) (d : Decl) : Res TypeError Unit := do
  require (wordAt64 d.raw 64 ≤ 1 ∧ wordAt64 d.raw 104 = 0) .type
  if wordAt64 d.raw 64 = 0 then
    require (d.size = 0 ∧ d.alignment = 0 ∧ d.count = 0 ∧ d.rank = 0) .incomplete
  else
    require (d.size ≠ 0 ∧ d.size ≤ i64Max ∧ d.count ≠ 0 ∧ isPowerOfTwo d.alignment = true ∧
      d.alignment ≤ 16 ∧ d.rank ≠ 0 ∧ d.rank ≤ declarations) .layout

/-- The first `n` declarations have other names (174–180). -/
def checkNew (bytes name : List UInt8) : Nat → Nat → Nat → Res TypeError Nat
  | 0, _, work => ok work
  | n + 1, previous, work => do
    let work ← takeWork work 1
    let old ← declAt bytes previous
    require (old.name ≠ name) .duplicate
    checkNew bytes name n (previous + old.raw.length) work

/-- One declaration in the first loop (157–182). -/
def scanDecl (e : TypeEvidence) (limits : TypeLimits) (s : Scan) (i : Nat) :
    Res TypeError Scan := do
  let work ← takeWork s.work 1
  let d ← declAt e.bytes s.start
  require (identifier d.name = true) .name
  let fields ← okOr (checkedAdd s.fields d.count) .limit
  require (fields ≤ limits.fields) .limit
  checkShape e.declarations d
  let work ← checkNew e.bytes d.name i HEADER_BYTES work
  return { start := s.start + d.raw.length, fields, work }

/-- What the loop over the fields of a declaration carries. -/
structure Laid where
  used : Nat
  alignment : Nat
  rank : Nat
  work : Nat

/-- One field (192–212). A strict decrease of the rank rules out cycles. -/
def layField (e : TypeEvidence) (d : Decl) (l : Laid) (i : Nat) : Res TypeError Laid := do
  let work ← takeWork l.work 1
  let f := d.field i
  require (identifier (f.take 64) = true) .name
  let work ← checkDistinct d.field i work
  let (r, work) ← e.reference (slice f 64 REF_BYTES) work
  let ((size, a, childRank), work) ← e.layout r work
  require (childRank < d.rank) .cycle
  let above ← okOr (checkedAdd childRank 1) .cycle
  let offset := wordAt64 f 144
  let count := wordAt64 f 152
  require (count ≠ 0) .layout
  let place ← alignType l.used a
  require (offset = place) .layout
  let bytes ← okOr (checkedMul size count) .layout
  let used ← okOr (checkedAdd offset bytes) .layout
  require (used ≤ i64Max) .layout
  return { used, alignment := max l.alignment a, rank := max l.rank above, work }

/-- One declaration in the second loop (186–216): where it begins, and the work. -/
def layDecl (e : TypeEvidence) (s : Nat × Nat) (_ : Nat) : Res TypeError (Nat × Nat) := do
  let (start, work) := s
  let work ← takeWork work 1
  let d ← declAt e.bytes start
  if d.complete = false then return (start + d.raw.length, work)
  else
    let l ← (List.range d.count).foldlM (e.layField d) ⟨0, 1, 1, work⟩
    let size ← alignType l.used l.alignment
    require (d.size = size ∧ d.alignment = l.alignment ∧ d.rank = l.rank) .layout
    return (start + d.raw.length, l.work)

/-- One reference of a function record (228–242): the lanes taken, and the work. The first reference
is the result, and a structure is passed by pointer only. -/
def checkLane (e : TypeEvidence) (f : List UInt8) (s : Nat × Nat) (p : Nat) :
    Res TypeError (Nat × Nat) := do
  let (lane, work) := s
  let raw := slice f (80 + p * REF_BYTES) REF_BYTES
  if wordAt64 f 72 < p then
    require (raw.all (· == 0) = true) .signature
    return (lane, work)
  else
    let (r, work) ← e.reference raw work
    require (¬ (r.depth = 0 ∧ (r.kind = 4 ∨ 0 < p ∧ r.kind = 3))) .signature
    let lane := if p = 0 then lane else if 0 < r.depth then (lane + 1) / 2 * 2 + 2 else lane + 1
    require (lane ≤ 4) .signature
    return (lane, work)

/-- One function record (217–243). -/
def checkFunction (e : TypeEvidence) (work i : Nat) : Res TypeError Nat := do
  let work ← takeWork work 1
  let f := e.function i
  require (identifier (f.take 64) = true) .name
  require ((wordAt64 f 64 = 1 ∨ wordAt64 f 64 = 2) ∧ wordAt64 f 72 ≤ 4) .signature
  let work ← checkDistinct e.function i work
  let (_, work) ← (List.range 5).foldlM (e.checkLane f) (0, work)
  return work

/-- The evidence of an interface (interfaces.rs 141). -/
def parse (bytes : List UInt8) (limits : TypeLimits) (work : Nat) :
    Res TypeError (TypeEvidence × Nat) := do
  let work ← takeWork work 1
  require (HEADER_BYTES ≤ bytes.length ∧ bytes.take 8 = TYPE_MAGIC ∧
    wordAt64 bytes 8 = TYPE_VERSION ∧ wordAt64 bytes 16 = bytes.length) .header
  let declarations := wordAt64 bytes 24
  let functions := wordAt64 bytes 32
  require (bytes.length ≤ limits.bytes ∧ declarations ≤ limits.declarations ∧
    functions ≤ limits.functions) .limit
  let records ← endOf HEADER_BYTES declarations DECL_BYTES
  let least ← endOf records functions FUNCTION_BYTES
  require (least ≤ bytes.length) .bounds
  let e : TypeEvidence := { bytes, declarations, functions, functionsAt := 0 }
  let s ← (List.range declarations).foldlM (e.scanDecl limits) ⟨HEADER_BYTES, 0, work⟩
  let e := { e with functionsAt := s.start }
  let stop ← endOf s.start functions FUNCTION_BYTES
  require (stop = bytes.length) .bounds
  let (_, work) ← (List.range declarations).foldlM e.layDecl (HEADER_BYTES, s.work)
  let work ← (List.range functions).foldlM e.checkFunction work
  return (e, work)

/-- One symbol against its record (252–264). -/
def checkSymbol (e : TypeEvidence) (work : Nat) (s : AomSymbol × Nat) : Res TypeError Nat := do
  let work ← takeWork work 1
  let f := e.function s.2
  let length := (f.take 64).findIdx (· == 0)
  require (length < 64) .name
  require (f.take length = asBytes s.1.name ∧ wordAt64 f 64 = s.1.binding ∧
    wordAt64 f 72 = s.1.parameterTypes.length) .signature
  (s.1.returnType :: s.1.parameterTypes).zipIdx.foldlM (fun work expected => do
    let work ← takeWork work 1
    let r : Ref := ⟨slice f (80 + expected.2 * REF_BYTES) REF_BYTES⟩
    require (r.depth * 1000 + r.kind = expected.1) .signature
    return work) work

/-- Symbols and functions agree (interfaces.rs 249). -/
def checkSymbols (e : TypeEvidence) (symbols : List AomSymbol) (work : Nat) :
    Res TypeError Nat := do
  require (symbols.length = e.functions) .signature
  symbols.zipIdx.foldlM e.checkSymbol work

/-- `same_function` (268): equal from the number of parameters on. -/
def sameFunction (e : TypeEvidence) (index : Nat) (other : TypeEvidence) (otherIndex work : Nat) :
    Res TypeError (Bool × Nat) := do
  let work ← takeWork work 8
  require (index < e.functions ∧ otherIndex < other.functions) .signature
  return ((e.function index).drop 72 == (other.function otherIndex).drop 72, work)

end TypeEvidence

/-! ## The interfaces of a link -/

/-- A module and its interface, if it has one. -/
abbrev Viewed := AomModule × Option TypeEvidence

/-- The interface of one module (358–363). -/
def viewOf (m : AomModule) (work : Nat) : Res TypeError (Option TypeEvidence × Nat) :=
  if m.interface = [] then ok (none, work)
  else do
    let (view, work) ← TypeEvidence.parse m.interface (.ofLength m.interface.length) work
    let work ← view.checkSymbols m.symbols work
    return (some view, work)

/-- The interfaces of all modules. -/
def viewAll : List AomModule → Nat → Res TypeError (List Viewed × Nat)
  | [], work => ok ([], work)
  | m :: rest, work => do
    let (view, work) ← viewOf m work
    let (views, work) ← viewAll rest work
    return ((m, view) :: views, work)

/-- A declaration against the one of its name in another interface (370–373). -/
def checkPeer (a : Decl) (work : Nat) (peer : TypeEvidence) : Res TypeError Nat := do
  let (found, work) ← peer.find a.name work
  match found with
  | none => return work
  | some b =>
    let work ← takeWork work (max a.count b.count)
    require (¬ (a.complete = true ∧ b.complete = true ∧ a.raw ≠ b.raw)) .conflict
    return work

/-- One declaration against the interfaces before (367–375). -/
def checkDeclaration (peers : List TypeEvidence) (bytes : List UInt8) (s : Nat × Nat) (_ : Nat) :
    Res TypeError (Nat × Nat) := do
  let work ← takeWork s.2 1
  let a ← declAt bytes s.1
  let work ← peers.foldlM (checkPeer a) work
  return (s.1 + a.raw.length, work)

/-- An import against one export (380–388): whether an export of its name was found, and the work.
-/
def checkExport (view peer : Option TypeEvidence) (s : AomSymbol × Nat) (acc : Bool × Nat)
    (t : AomSymbol × Nat) : Res TypeError (Bool × Nat) := do
  let work ← takeWork acc.2 1
  if s.1.name ≠ t.1.name then return (acc.1, work)
  else
    require (acc.1 = false) .duplicate
    require (s.1.returnType = t.1.returnType ∧ s.1.parameterTypes = t.1.parameterTypes) .signature
    match view, peer with
    | some a, some b =>
      let (same, work) ← a.sameFunction s.2 b t.2 work
      require (same = true) .signature
      return (true, work)
    | _, _ => return (true, work)

/-- One import against the exports of all modules (377–391). -/
def checkImport (views : List Viewed) (view : Option TypeEvidence) (work : Nat)
    (s : AomSymbol × Nat) : Res TypeError Nat := do
  let (found, work) ← views.foldlM (fun acc peer =>
    (peer.1.symbols.zipIdx.filter (·.1.isExport)).foldlM (checkExport view peer.2 s) acc)
    (false, work)
  require (found = true) .unresolved
  return work

/-- The declarations of one module, if it has an interface (365–376). -/
def checkDeclarations (peers : List TypeEvidence) (work : Nat) :
    Option TypeEvidence → Res TypeError Nat
  | none => ok work
  | some m => do
    let (_, work) ← (List.range m.declarations).foldlM (checkDeclaration peers m.bytes)
      (HEADER_BYTES, work)
    return work

/-- One module: its declarations, then its imports (364–392). -/
def checkViewed (views : List Viewed) (work : Nat) (e : Viewed × Nat) : Res TypeError Nat := do
  let work ← checkDeclarations ((views.take e.2).filterMap (·.2)) work e.1.2
  (e.1.1.symbols.zipIdx.filter (·.1.isImport)).foldlM (checkImport views e.1.2) work

/-- The interfaces of a link agree (interfaces.rs 354). -/
def validateLinkModules (modules : List AomModule) : Res TypeError Unit :=
  if modules.all (·.interface.isEmpty) then ok ()
  else do
    let (views, work) ← viewAll modules LINK_WORK
    let _ ← views.zipIdx.foldlM (checkViewed views) work

/-! ## What an accepted link agrees on -/

namespace AomModule

/-- The record of a symbol: the records are the end of the interface. -/
def functionRecord (m : AomModule) (i : Nat) : List UInt8 :=
  slice m.interface (m.interface.length - (m.symbols.length - i) * FUNCTION_BYTES) FUNCTION_BYTES

/-- The `n` declarations from `start` on. -/
def declarationsFrom (bytes : List UInt8) : Nat → Nat → List Decl
  | 0, _ => []
  | n + 1, start => match declAt bytes start with
    | ok d => d :: declarationsFrom bytes n (start + d.raw.length)
    | _ => []

/-- The structures that the interface declares. -/
def declarations (m : AomModule) : List Decl :=
  declarationsFrom m.interface (wordAt64 m.interface 24) HEADER_BYTES

end AomModule

/-- The modules of a link agree on their types. -/
structure TypesAgree (modules : List AomModule) : Prop where
  /-- An import and an export of its name have one type; of two interfaces, down to the tags. -/
  signatures : (∃ m ∈ modules, m.interface ≠ []) → ∀ m ∈ modules, ∀ m' ∈ modules, ∀ i s j t,
    m.symbols[i]? = some s → s.isImport = true → m'.symbols[j]? = some t → t.isExport = true →
    s.name = t.name → s.returnType = t.returnType ∧ s.parameterTypes = t.parameterTypes ∧
      (m.interface ≠ [] → m'.interface ≠ [] →
        (m.functionRecord i).drop 72 = (m'.functionRecord j).drop 72)
  /-- Two complete declarations of one structure are the same bytes. -/
  structures : ∀ (i j : Nat) m m', i < j → modules[i]? = some m → modules[j]? = some m' →
    m.interface ≠ [] → m'.interface ≠ [] → ∀ d ∈ m'.declarations, ∀ d',
    m.declarations.find? (·.name == d.name) = some d' → d.complete = true → d'.complete = true →
    d.raw = d'.raw

/-- The view of a module is its interface. -/
def ViewOf (m : AomModule) : Option TypeEvidence → Prop
  | none => m.interface = []
  | some v => v.bytes = m.interface ∧ v.declarations = wordAt64 m.interface 24 ∧
      v.functions = m.symbols.length ∧
      v.functionsAt + v.functions * FUNCTION_BYTES = m.interface.length

variable {m : AomModule} {v : TypeEvidence} {work work' : Nat} {bytes : List UInt8}

theorem TypeEvidence.parse_eq_ok {l : TypeLimits} (h : parse bytes l work = ok (v, work')) :
    v.bytes = bytes ∧ v.declarations = wordAt64 bytes 24 ∧
      v.functionsAt + v.functions * FUNCTION_BYTES = bytes.length := by
  simp only [parse, endOf, eq_ok, checkedMul_eq_some] at h
  obtain ⟨_, -, -, -, _, -, _, -, -, s, -, _, ⟨_, ⟨-, rfl⟩, -, rfl⟩, hs, _, _, -, _, -, rfl, -⟩ := h
  exact ⟨rfl, rfl, hs⟩

theorem viewOf_eq_ok {view : Option TypeEvidence} (h : viewOf m work = ok (view, work')) :
    ViewOf m view := by
  unfold viewOf at h
  split at h
  · rename_i he
    simp only [eq_ok] at h
    obtain ⟨rfl, -⟩ := h
    exact he
  · simp only [TypeEvidence.checkSymbols, eq_ok] at h
    obtain ⟨v, _, hp, _, ⟨hl, -⟩, rfl, -⟩ := h
    obtain ⟨hb, hd, hf⟩ := TypeEvidence.parse_eq_ok hp
    exact ⟨hb, hd, hl.symm, hf⟩

theorem viewAll_eq_ok {mo : List AomModule} {vi : List Viewed}
    (h : viewAll mo work = ok (vi, work')) : vi.map (·.1) = mo ∧ ∀ e ∈ vi, ViewOf e.1 e.2 := by
  induction mo generalizing vi work work' with
  | nil =>
    simp only [viewAll, eq_ok] at h
    obtain ⟨rfl, -⟩ := h
    exact ⟨rfl, by simp⟩
  | cons m rest ih =>
    simp only [viewAll, eq_ok] at h
    obtain ⟨view, _, hv, rest', _, hr, rfl, -⟩ := h
    obtain ⟨hm, hi⟩ := ih hr
    exact ⟨by rw [map_cons, hm], forall_mem_cons.mpr ⟨viewOf_eq_ok hv, hi⟩⟩

theorem ViewOf.function_eq (h : ViewOf m (some v)) {i : Nat} (hi : i < m.symbols.length) :
    v.function i = m.functionRecord i := by
  obtain ⟨hb, -, hf, hl⟩ := h
  have hp : m.interface.length - (m.symbols.length - i) * FUNCTION_BYTES =
      v.functionsAt + i * FUNCTION_BYTES := by
    simp only [FUNCTION_BYTES] at hl ⊢
    omega
  rw [TypeEvidence.function, AomModule.functionRecord, hb, hp]

theorem ViewOf.declarations_eq (h : ViewOf m (some v)) :
    m.declarations = AomModule.declarationsFrom v.bytes v.declarations HEADER_BYTES := by
  rw [AomModule.declarations, h.2.1, h.1]

theorem findFrom_eq_ok {name : List UInt8} {n s : Nat} {fo : Option Decl}
    (h : findFrom bytes name n s work = ok (fo, work')) :
    fo = (AomModule.declarationsFrom bytes n s).find? (·.name == name) := by
  induction n generalizing s work with
  | zero =>
    simp only [findFrom, eq_ok] at h
    exact h.1.symm
  | succ n ih =>
    simp only [findFrom, eq_ok] at h
    obtain ⟨_, -, d, hd, h⟩ := h
    simp only [AomModule.declarationsFrom, hd]
    split at h
    · rename_i hn
      simp only [eq_ok] at h
      simp [hn, ← h.1]
    · rename_i hn
      rw [find?_cons_of_neg (by simpa using hn)]
      exact ih h

theorem checkDeclaration_visits {p : List TypeEvidence} {list : List Nat} {s s' : Nat × Nat}
    (h : list.foldlM (checkDeclaration p bytes) s = ok s') {d : Decl}
    (hd : d ∈ AomModule.declarationsFrom bytes list.length s.1) {v : TypeEvidence} (hv : v ∈ p) :
    ∃ work work', checkPeer d work v = ok work' := by
  induction list generalizing s with
  | nil => cases hd
  | cons _ list ih =>
    simp only [foldlM_cons, checkDeclaration, eq_ok] at h
    obtain ⟨_, _, ⟨_, -, a, ha, _, hp, rfl, rfl⟩, h⟩ := h
    simp only [length_cons, AomModule.declarationsFrom, ha] at hd
    rcases mem_cons.mp hd with rfl | hd
    · exact foldlM_visits hp hv
    · exact ih h hd

theorem checkPeer_eq_ok {a b : Decl} (h : checkPeer a work v = ok work')
    (hf : (AomModule.declarationsFrom v.bytes v.declarations HEADER_BYTES).find?
      (·.name == a.name) = some b) (ha : a.complete = true) (hb : b.complete = true) :
    a.raw = b.raw := by
  simp only [checkPeer, eq_ok] at h
  obtain ⟨fo, _, hfind, h⟩ := h
  rw [findFrom_eq_ok hfind, hf] at h
  simp only [eq_ok] at h
  obtain ⟨_, -, hc, -⟩ := h
  exact not_not.mp fun hne => hc ⟨ha, hb, hne⟩

theorem checkExport_eq_ok {view peer : Option TypeEvidence} {s t : AomSymbol × Nat}
    {acc acc' : Bool × Nat} (h : checkExport view peer s acc t = ok acc')
    (hn : s.1.name = t.1.name) :
    s.1.returnType = t.1.returnType ∧ s.1.parameterTypes = t.1.parameterTypes ∧
      ∀ a b, view = some a → peer = some b → (a.function s.2).drop 72 =
        (b.function t.2).drop 72 := by
  simp only [checkExport, hn, ne_eq, not_true_eq_false, if_false, eq_ok] at h
  obtain ⟨_, -, -, ⟨hr, hp⟩, h⟩ := h
  refine ⟨hr, hp, ?_⟩
  rintro a b rfl rfl
  simp only [TypeEvidence.sameFunction, eq_ok] at h
  obtain ⟨_, _, ⟨_, -, -, rfl, -⟩, hs, -⟩ := h
  exact eq_of_beq hs

/-- **An accepted link agrees on its types.** -/
theorem validateLinkModules_agree {modules : List AomModule}
    (h : validateLinkModules modules = ok ()) : TypesAgree modules := by
  unfold validateLinkModules at h
  split at h
  · rename_i he
    have hnone : ∀ m ∈ modules, m.interface = [] := fun m hm =>
      isEmpty_iff.mp (all_eq_true.mp he m hm)
    refine ⟨fun ⟨m, hm, hne⟩ => absurd (hnone m hm) hne, ?_⟩
    exact fun i _ m _ _ hi _ hne => absurd (hnone m (mem_of_getElem? hi)) hne
  simp only [eq_ok] at h
  obtain ⟨vi, _, hviews, _, hloop, -⟩ := h
  obtain ⟨rfl, hview⟩ := viewAll_eq_ok hviews
  constructor
  case signatures =>
    intro _ m hm m' hm' i s j t hs hsi ht hte hn
    obtain ⟨⟨m, view⟩, he, rfl⟩ := mem_map.mp hm
    obtain ⟨⟨m', peer⟩, he', rfl⟩ := mem_map.mp hm'
    obtain ⟨k, hk⟩ := mem_iff_getElem?.mp he
    obtain ⟨_, _, hc⟩ := foldlM_visits hloop (mem_zipIdx_iff_getElem? (x := ((m, view), k)).mpr hk)
    simp only [checkViewed, eq_ok] at hc
    obtain ⟨_, -, hc⟩ := hc
    have hsm : (s, i) ∈ m.symbols.zipIdx.filter (·.1.isImport) :=
      mem_filter.mpr ⟨mem_zipIdx_iff_getElem?.mpr hs, hsi⟩
    have htm : (t, j) ∈ m'.symbols.zipIdx.filter (·.1.isExport) :=
      mem_filter.mpr ⟨mem_zipIdx_iff_getElem?.mpr ht, hte⟩
    obtain ⟨_, _, hc⟩ := foldlM_visits hc hsm
    simp only [checkImport, eq_ok] at hc
    obtain ⟨_, _, hc, -⟩ := hc
    obtain ⟨_, _, hc⟩ := foldlM_visits hc he'
    obtain ⟨_, _, hc⟩ := foldlM_visits hc htm
    obtain ⟨hr, hp, hf⟩ := checkExport_eq_ok hc hn
    refine ⟨hr, hp, fun hne hne' => ?_⟩
    cases view with
    | none => exact absurd (hview _ he) hne
    | some a =>
      cases peer with
      | none => exact absurd (hview _ he') hne'
      | some b =>
        have hi := (List.getElem?_eq_some_iff.mp hs).1
        have hj := (List.getElem?_eq_some_iff.mp ht).1
        rw [← (hview _ he).function_eq hi, ← (hview _ he').function_eq hj]
        exact hf a b rfl rfl
  case structures =>
    intro i j m m' hij hi hj hne hne' d hd d' hd' hc hc'
    rw [getElem?_map, Option.map_eq_some_iff] at hi hj
    obtain ⟨⟨m, view⟩, hi, rfl⟩ := hi
    obtain ⟨⟨m', view'⟩, hj, rfl⟩ := hj
    have hv := hview _ (mem_of_getElem? hi)
    have hv' := hview _ (mem_of_getElem? hj)
    obtain ⟨_, _, hl⟩ :=
      foldlM_visits hloop (mem_zipIdx_iff_getElem? (x := ((m', view'), j)).mpr hj)
    simp only [checkViewed, eq_ok] at hl
    obtain ⟨_, hl, -⟩ := hl
    cases view with
    | none => exact absurd hv hne
    | some a =>
      cases view' with
      | none => exact absurd hv' hne'
      | some b =>
        simp only [checkDeclarations, eq_ok] at hl
        obtain ⟨_, _, hl, -⟩ := hl
        have ha : a ∈ (vi.take j).filterMap (·.2) :=
          mem_filterMap.mpr ⟨_, mem_of_getElem? ((getElem?_take_of_lt hij).trans hi), rfl⟩
        rw [hv'.declarations_eq] at hd
        rw [hv.declarations_eq] at hd'
        obtain ⟨_, _, hp⟩ := checkDeclaration_visits hl (by simpa using hd) ha
        exact checkPeer_eq_ok hp hd' hc hc'

end Anka
