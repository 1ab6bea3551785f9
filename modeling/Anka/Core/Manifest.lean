import Anka.Core.Validator
import Anka.Lib.Reader

/-!
# Frame manifests as bytes (`pointer_frames.rs`)

The literals of protected code are its frame manifest: a magic word, version 2, the length of the
code, and for each frame its entry, its end, its size and its locals, all as 64-bit words. The exits
of a frame are not in the manifest; they are the PUNFRAMEs of its code. `from_image` parses the
manifest and validates the program, and answers `None` for code that does not start with PFRAME.

`parseManifest_eq_ok` says that a manifest is determined by its frames: the parser accepts exactly
`manifestBytes` of frames that satisfy `FrameManifest.Parses`.
-/

namespace Anka

open Rust Res List

/-! ## The parser -/

namespace ValidatedPointerProgram

/-- The bytes `701P` (49). -/
def MANIFEST_MAGIC : Nat := 1345400887

/-- One little-endian word (44). -/
def word : List UInt8 → Res FrameError (Nat × List UInt8) := readLe .geometry 8

/-- One local of a frame. -/
def parseLocal (r : List UInt8) : Res FrameError (LocalStorage × List UInt8) := do
  let (offset, r) ← word r
  let (length, r) ← word r
  let (alignment, r) ← word r
  let (flags, r) ← word r
  require (flags = 1 ∨ flags = 3) .manifest
  return ({ offset, length, alignment, writable := true, pointerSlot := flags == 3 }, r)

/-- The addresses of PUNFRAME in `[entry, entry + 4 * count)`. -/
def exitsOf (code : List UInt8) (entry count : Nat) : Res FrameError (List Nat) :=
  (List.range count).foldlM (fun exits i => do
    let insn ← insnAt code (entry + 4 * i)
    return if insn.desc.semantics = .pointerUnframe then exits ++ [entry + 4 * i] else exits) []

/-- One frame. -/
def parseFrame (code : List UInt8) (r : List UInt8) :
    Res FrameError (FrameManifest × List UInt8) := do
  let (entry, r) ← word r
  let (stop, r) ← word r
  let (size, r) ← word r
  let (n, r) ← word r
  require (n ≤ 4096) .capacity
  let (locals, r) ← readMany parseLocal n r
  require (entry % 4 = 0 ∧ stop % 4 = 0 ∧ stop ≤ code.length ∧ entry < stop) .geometry
  let exits ← exitsOf code entry ((stop - entry) / 4)
  return ({ entry, stop, size, exits, locals }, r)

/-- `parse_manifest`: magic, version 2, the length of the code, the frames, and nothing else. -/
def parseManifest (code metadata : List UInt8) : Res FrameError (List FrameManifest) := do
  let (magic, r) ← readLe .manifest 8 metadata
  require (magic = MANIFEST_MAGIC) .manifest
  let (version, r) ← word r
  require (version = 2) .geometry
  let (length, r) ← word r
  require (length = code.length) .geometry
  let (count, r) ← word r
  require (count ≠ 0 ∧ count ≤ 4096) .capacity
  let (frames, r) ← readMany (parseFrame code) count r
  require (r = []) .geometry
  return frames

/-- `from_image`: `none` for code that is not protected. -/
def fromImage (code metadata : List UInt8) :
    Res FrameError (Option ValidatedPointerProgram) := do
  if code.length < 4 then return none
  let first ← insnAt code 0
  if first.desc.semantics ≠ .pointerFrame then return none
  let frames ← parseManifest code metadata
  let program ← validate code frames
  return some program

end ValidatedPointerProgram

/-! ## The bytes of a manifest -/

/-- A local: four words. Flags are 1 for data and 3 for a pointer slot. -/
def LocalStorage.bytes (l : LocalStorage) : List UInt8 :=
  leBytes 8 l.offset ++ leBytes 8 l.length ++ leBytes 8 l.alignment ++
    leBytes 8 (if l.pointerSlot = true then 3 else 1)

/-- A local that can be written. -/
structure LocalStorage.Parses (l : LocalStorage) : Prop where
  offset : l.offset < 2 ^ 64
  length : l.length < 2 ^ 64
  alignment : l.alignment < 2 ^ 64
  writable : l.writable = true

/-- A frame: four words and its locals. -/
def FrameManifest.bytes (frame : FrameManifest) : List UInt8 :=
  leBytes 8 frame.entry ++ leBytes 8 frame.stop ++ leBytes 8 frame.size ++
    leBytes 8 frame.locals.length ++ frame.locals.flatMap (·.bytes)

/-- A frame of `code` that can be written. -/
structure FrameManifest.Parses (code : List UInt8) (frame : FrameManifest) : Prop where
  entry : frame.entry < 2 ^ 64
  stop : frame.stop < 2 ^ 64
  size : frame.size < 2 ^ 64
  count : frame.locals.length ≤ 4096
  locals : ∀ l ∈ frame.locals, l.Parses
  entry_aligned : frame.entry % 4 = 0
  stop_aligned : frame.stop % 4 = 0
  stop_le : frame.stop ≤ code.length
  entry_lt : frame.entry < frame.stop
  exits : ValidatedPointerProgram.exitsOf code frame.entry ((frame.stop - frame.entry) / 4) =
    ok frame.exits

/-- The manifest of `frames` for code of a given length. -/
def manifestBytes (length : Nat) (frames : List FrameManifest) : List UInt8 :=
  leBytes 8 ValidatedPointerProgram.MANIFEST_MAGIC ++ leBytes 8 2 ++ leBytes 8 length ++
    leBytes 8 frames.length ++ frames.flatMap (·.bytes)

/-- The instruction at an address inside the code. -/
def insnOf (code : List UInt8) (pc : Nat) : DecodedInsn :=
  decode (BitVec.ofNat 32 (ofLeBytes (slice code pc 4)))

variable {code : List UInt8} {pc : Nat}

theorem insnAt_of_le (h : pc + 4 ≤ code.length) : insnAt code pc = ok (insnOf code pc) := by
  simp [insnAt, insnOf, check, h]

theorem insnAt_eq_ok {insn : DecodedInsn} :
    insnAt code pc = ok insn ↔ pc + 4 ≤ code.length ∧ insnOf code pc = insn := by
  simp [insnAt, insnOf, bind_eq_ok]

namespace ValidatedPointerProgram

/-! ## The parser accepts exactly these bytes -/

theorem reads_local : Reads parseLocal LocalStorage.bytes LocalStorage.Parses := by
  refine ⟨fun {input rest l} => ?_, fun input => by simp [parseLocal, word, readLe]⟩
  simp only [parseLocal, word, eq_ok, readLe_eq_ok, exists_const]
  constructor
  · rintro ⟨_, _, ⟨ho, rfl⟩, _, _, ⟨hl, rfl⟩, _, _, ⟨ha, rfl⟩, fl, _, ⟨-, rfl⟩,
      hf, rfl, rfl⟩
    refine ⟨⟨ho, hl, ha, rfl⟩, ?_⟩
    rcases hf with rfl | rfl <;> simp [LocalStorage.bytes]
  · rintro ⟨⟨ho, hl, ha, hw⟩, rfl⟩
    simp only [LocalStorage.bytes, append_assoc]
    obtain ⟨o, le, al, w, p⟩ := l
    obtain rfl : w = true := hw
    refine ⟨_, _, ⟨ho, rfl⟩, _, _, ⟨hl, rfl⟩, _, _, ⟨ha, rfl⟩, _, _, ⟨?_, rfl⟩, ?_, ?_, rfl⟩
    all_goals cases p <;> simp

theorem exitsOf_eq {code : List UInt8} {en c : Nat} (h : en + 4 * c ≤ code.length) :
    exitsOf code en c = ok (((List.range c).map (en + 4 * ·)).filter fun pc =>
      decide ((insnOf code pc).desc.semantics = .pointerUnframe)) := by
  induction c with
  | zero => rfl
  | succ c ih =>
    have hi : en + 4 * c + 4 ≤ code.length := by omega
    have hp := ih (by omega)
    unfold exitsOf at hp ⊢
    rw [range_succ, foldlM_append, hp]
    simp only [ok_bind, foldlM_cons, foldlM_nil, insnAt_of_le hi, map_append,
      filter_append, map_cons, map_nil, filter_cons, filter_nil]
    split
    · rename_i hu
      simp [hu]
    · rename_i ho
      simp [ho]

theorem reads_frame (code : List UInt8) :
    Reads (parseFrame code) FrameManifest.bytes (FrameManifest.Parses code) := by
  constructor
  · intro i rest fr
    simp only [parseFrame, word, eq_ok, readLe_eq_ok, (reads_local.many _).eq_ok, exists_const]
    constructor
    · rintro ⟨_, _, ⟨hent, rfl⟩, _, _, ⟨hst, rfl⟩, _, _, ⟨hsi, rfl⟩, _, _, ⟨-, rfl⟩, hc,
        l, _, ⟨⟨rfl, hl⟩, rfl⟩, ⟨hen, hs, hle, hlt⟩, _, hex, rfl, rfl⟩
      exact ⟨⟨hent, hst, hsi, hc, hl, hen, hs, hle, hlt, hex⟩,
        by simp [FrameManifest.bytes]⟩
    · rintro ⟨h, rfl⟩
      have hc : fr.locals.length < 256 ^ 8 := Nat.lt_of_le_of_lt h.count (by decide)
      simp only [FrameManifest.bytes, append_assoc]
      exact ⟨_, _, ⟨h.entry, rfl⟩, _, _, ⟨h.stop, rfl⟩, _, _, ⟨h.size, rfl⟩, _, _, ⟨hc, rfl⟩,
        h.count, _, _, ⟨⟨rfl, h.locals⟩, rfl⟩,
        ⟨h.entry_aligned, h.stop_aligned, h.stop_le, h.entry_lt⟩, _, h.exits, rfl, rfl⟩
  · intro i
    simp only [parseFrame, word, readLe, avoids_iff, avoids_readBytes, (reads_local.many _).total,
      require_eq_ok, forall_const]
    -- The frame is inside the code, so that no instruction is read outside of it.
    intro en _ stop _ _ _ _ _ _ _ _ hg
    rw [exitsOf_eq (by omega)]
    trivial

theorem parseManifest_eq_ok {code m : List UInt8} {fr : List FrameManifest}
    (hc : code.length < 2 ^ 64) :
    parseManifest code m = ok fr ↔
      m = manifestBytes code.length fr ∧ fr ≠ [] ∧ fr.length ≤ 4096 ∧
        ∀ frame ∈ fr, frame.Parses code := by
  simp only [parseManifest, word, eq_ok, readLe_eq_ok,
    ((reads_frame code).many _).eq_ok, exists_const]
  constructor
  · rintro ⟨_, _, ⟨-, rfl⟩, rfl, _, _, ⟨-, rfl⟩, rfl, _, _, ⟨-, rfl⟩, rfl, _, _, ⟨-, rfl⟩,
      ⟨hn, hl⟩, _, _, ⟨⟨rfl, hf⟩, rfl⟩, rfl, rfl⟩
    refine ⟨by simp [manifestBytes], fun hni => hn ?_, hl, hf⟩
    rw [hni, length_nil]
  · rintro ⟨rfl, hn, hl, hf⟩
    have hcn : fr.length < 256 ^ 8 := Nat.lt_of_le_of_lt hl (by decide)
    simp only [manifestBytes, append_assoc]
    exact ⟨_, _, ⟨by decide, rfl⟩, rfl, _, _, ⟨by decide, rfl⟩, rfl, _, _, ⟨hc, rfl⟩, rfl, _, _,
      ⟨hcn, rfl⟩, ⟨fun h => hn (length_eq_zero_iff.mp h), hl⟩, _, _, ⟨⟨rfl, hf⟩,
      (append_nil _).symm⟩, rfl, rfl⟩

end ValidatedPointerProgram

end Anka
