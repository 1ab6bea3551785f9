import Anka.Lib.Pieces
import Anka.Link.Check

/-!
# The reference link

What a link of protected modules is: their code one after the other, with three kinds of words. The
index of a PFRAME is shifted by the number of frames before the module; a relocated CALL goes to the
export that provides the imported symbol; every other word stays. The metadata is the manifest of
all frames, shifted by the bases of their modules.

The host never builds this image. `checkWord_eq_ok` compares one word of the check with it.
-/

namespace Anka

open Rust Res

namespace Link

/-! ## Places -/

/-- A module, the address of its code and the number of frames before it. -/
structure Place where
  input : ValidatedPointerModule
  base : Nat
  before : Nat

namespace Place

/-- The bytes of its code. -/
def length (p : Place) : Nat := p.input.code.length
/-- How many frames it has. -/
def count (p : Place) : Nat := p.input.frames.length

end Place

/-- The modules from a given address and frame index on. -/
def placesFrom (base before : Nat) : List ValidatedPointerModule → List Place
  | [] => []
  | m :: rest =>
    ⟨m, base, before⟩ :: placesFrom (base + m.code.length) (before + m.frames.length) rest

/-- The places of a link. -/
def places (inputs : List ValidatedPointerModule) : List Place := placesFrom 0 0 inputs

/-! ## Exports -/

/-- The exports of a link by address. -/
def exportsOf (ps : List Place) : List (Nat × AomSymbol) :=
  ps.flatMap fun p => p.input.exports.map fun s => (p.base + s.value, s)

/-- The export has the name and the type of the import. -/
def Provides (s imported : AomSymbol) : Prop :=
  s.name = imported.name ∧ s.kind = imported.kind ∧ s.returnType = imported.returnType ∧
    s.parameterTypes = imported.parameterTypes
  deriving Decidable

/-- The address of the export that provides a symbol. -/
def resolve (exports : List (Nat × AomSymbol)) (imported : AomSymbol) : Option Nat :=
  (exports.find? fun e => decide (Provides e.2 imported)).map (·.1)

/-! ## Words -/

/-- The symbol that the relocation at an offset imports. -/
def importAt (m : AomModule) (offset : Nat) : Option AomSymbol :=
  (m.relocations.find? fun r => r.offset == offset).bind fun r => m.symbols[r.symbolIndex]?

/-- The word with its lower half, the instruction, replaced by a CALL of `target`. -/
def callWord (word pc target : Nat) : Nat :=
  word / 2 ^ 32 * 2 ^ 32 + (Asm64.call (((target : Int) - pc) / 4)).toNat

/-- The linked word for one word of a module. -/
def linkWord (exports : List (Nat × AomSymbol)) (p : Place) (index : Nat) : Nat :=
  let offset := index * 8
  let word := wordAt64 p.input.code offset
  if (insnOf p.input.code offset).desc.semantics = .pointerFrame then word + p.before
  else match importAt p.input.module offset with
    | some imported => callWord word (p.base + offset) ((resolve exports imported).getD 0)
    | none => word

/-- The linked code of one module. -/
def linkCode (exports : List (Nat × AomSymbol)) (p : Place) : List UInt8 :=
  (List.range (p.length / 8)).flatMap fun index => leBytes 8 (linkWord exports p index)

/-! ## The image -/

/-- A frame at another base. -/
def shiftFrame (base : Nat) (frame : FrameManifest) : FrameManifest :=
  { frame with
    entry := base + frame.entry
    stop := base + frame.stop
    exits := frame.exits.map (base + ·) }

/-- The frames of a link. -/
def linkFrames (ps : List Place) : List FrameManifest :=
  ps.flatMap fun p => p.input.frames.map (shiftFrame p.base)

/-- The code of a link. -/
def linkedCode (ps : List Place) : List UInt8 := ps.flatMap (linkCode (exportsOf ps))

/-- The reference link. -/
def referenceLink (inputs : List ValidatedPointerModule) : AnkaldLinkedImage :=
  let ps := places inputs
  let code := linkedCode ps
  { bytes := code ++ manifestBytes code.length (linkFrames ps)
    codeSize := code.length
    litStart := code.length
    entry := 0
    processSlotsObserved := 1 }

/-- The modules can be linked under a profile: their sizes are within its limits, their exports have
distinct names, the export at address 0 is `main` of the profile's type, and every relocated CALL
has an export that provides what it imports. -/
structure Linkable (profile : LinkProfile)
    (inputs : List ValidatedPointerModule) : Prop where
  geometry : ∃ g, protectedGeometry inputs profile = ok g
  names : ((exportsOf (places inputs)).map (·.2.name)).Nodup
  main : ∃ s, (0, s) ∈ exportsOf (places inputs) ∧ s.name = "main" ∧ s.returnType = 1 ∧
    s.parameterTypes = profile.entryParameters
  resolved : ∀ p ∈ places inputs, ∀ offset imported,
    importAt p.input.module offset = some imported →
    (resolve (exportsOf (places inputs)) imported).isSome = true

end Link

end Anka
