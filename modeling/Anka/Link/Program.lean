import Anka.Link.Relocate
import Mathlib.Algebra.BigOperators.Ring.List

/-!
# The reference link is a program

Linking moves the code of a module, renumbers its PFRAMEs and closes its CALLs: in the words of
`Relocated`, every frame of the link passes the validator because it did so in its module
(`relocated`, `validateStructure_linked`). The bytes of the link are described word by word
(`Assembled`), which is also how the check looks at them.

`fromImage_linked` is the result: the modules of a link that are sound, small enough and resolved
give an image that the loader of protected programs accepts.
-/

namespace Anka

open Rust Res List Option ValidatedPointerProgram FrameManifest BitVec

variable {pc : Nat}

namespace Link

/-! ## Halves of a word -/

variable {code : List UInt8}

theorem wordAt64_eq (h : pc + 8 ≤ code.length) :
    wordAt64 code pc = ofLeBytes (slice code pc 4) +
      2 ^ 32 * ofLeBytes (slice code (pc + 4) 4) := by
  have hs : slice code pc 8 = slice code pc 4 ++ slice code (pc + 4) 4 := by
    rw [slice, slice, slice, ← drop_drop, ← take_add]
  rw [wordAt64, hs, ofLeBytes_append, length_slice (by omega)]
  rfl

theorem ofLeBytes_slice_lt (code : List UInt8) (pc : Nat) :
    ofLeBytes (slice code pc 4) < 2 ^ 32 := by
  refine (ofLeBytes_lt _).trans_le ?_
  exact Nat.pow_le_pow_right (by decide) (length_take_le _ _)

theorem insnOf_low (h : pc + 8 ≤ code.length) :
    insnOf code pc = decode (BitVec.ofNat 32 (wordAt64 code pc)) := by
  have hl := ofLeBytes_slice_lt code pc
  rw [insnOf, wordAt64_eq h]
  congr 1
  refine eq_of_toNat_eq ?_
  rw [toNat_ofNat, toNat_ofNat]
  omega

theorem insnOf_high (h : pc + 8 ≤ code.length) :
    insnOf code (pc + 4) = decode (BitVec.ofNat 32 (wordAt64 code pc / 2 ^ 32)) := by
  have hl := ofLeBytes_slice_lt code pc
  have hh : wordAt64 code pc / 2 ^ 32 = ofLeBytes (slice code (pc + 4) 4) := by
    rw [wordAt64_eq h]
    omega
  rw [insnOf, hh]

theorem wordAt64_lt : wordAt64 code pc < 2 ^ 64 := by
  refine (ofLeBytes_lt _).trans_le ?_
  exact Nat.pow_le_pow_right (by decide) (length_take_le _ _)

end Link

/-! ## Frames of a validated module -/

variable {frame : FrameManifest}

namespace ValidatedPointerModule

variable {m : ValidatedPointerModule}

section

variable (h : m.Sound)
include h

theorem Sound.tiled : ValidatedPointerProgram.Tiled m.code m.frames :=
  (validateStructure_eq_ok.mp h.checked).2.2.2.2.1

theorem Sound.checkFrame {index : Nat} (hf : m.frames[index]? = some frame) :
    FrameManifest.checkFrame m.code m.frames (m.module.relocations.map (·.offset)) (frame, index) =
      ok () :=
  (validateStructure_eq_ok.mp h.checked).2.2.2.2.2 index frame hf

theorem Sound.frame_bounds (hf : frame ∈ m.frames) :
    frame.entry < frame.stop ∧ frame.stop ≤ m.code.length := by
  obtain ⟨order, hp, ht⟩ := h.tiled
  have hm : (frame.entry, frame.stop) ∈ order :=
    hp.mem_iff.mpr (mem_map_of_mem hf)
  exact ((tileFrom_bounds ht).2 _ hm).2

theorem Sound.frame_at (hpc : pc < m.code.length) :
    ∃ (index : Nat) (frame : FrameManifest), m.frames[index]? = some frame ∧ frame.entry ≤ pc ∧
      pc < frame.stop := by
  obtain ⟨o, hp, ht⟩ := h.tiled
  obtain ⟨r, hr, hin⟩ := tileFrom_covers ht (Nat.zero_le pc) hpc
  obtain ⟨frame, hf, rfl⟩ := mem_map.mp (hp.mem_iff.mp hr)
  obtain ⟨index, hi⟩ := mem_iff_getElem?.mp hf
  exact ⟨index, frame, hi, hin⟩

theorem Sound.pointerFrame (ha : pc % 4 = 0) (hin : pc + 4 ≤ m.code.length)
    (hsem : (insnOf m.code pc).desc.semantics = .pointerFrame) :
    ∃ ind < m.frames.length, (insnOf m.code pc).imm = (ind : Nat) := by
  obtain ⟨ind, frame, hfr, hl, hh⟩ := h.frame_at (show pc < m.code.length by omega)
  have hc := h.checkFrame hfr
  simp only [FrameManifest.checkFrame, eq_ok, forM_eq_ok, mem_range]
    at hc
  obtain ⟨⟨-, -, hen, hs, -⟩, first, hf, ⟨-, himm⟩, -, hins, -⟩ := hc
  obtain ⟨-, rfl⟩ := insnAt_eq_ok.mp hf
  have hi := hins ((pc - frame.entry) / 4) (by omega)
  have hp : frame.entry + 4 * ((pc - frame.entry) / 4) = pc := by omega
  rw [hp] at hi
  simp only [checkInsn, insnAt_of_le hin, ok_bind, hsem, eq_ok]
    at hi
  obtain ⟨-, rfl⟩ := hi
  exact ⟨ind, (List.getElem?_eq_some_iff.mp hfr).1, himm⟩

theorem Sound.entries_nodup : (m.frames.map (·.entry)).Nodup := by
  obtain ⟨o, hp, ht⟩ := h.tiled
  have ho : (o.map (·.1)).Nodup := by
    rw [List.Nodup, pairwise_map]
    refine (List.Pairwise.and_mem.mp (tileFrom_pairwise ht)).imp fun hr => ?_
    have hl := ((tileFrom_bounds ht).2 _ hr.1).2.1
    omega
  have hen : (o.map (·.1)).Perm (m.frames.map (·.entry)) := by
    have := hp.map (·.1)
    rwa [List.map_map] at this
  exact hen.nodup_iff.mp ho

end

end ValidatedPointerModule

namespace Link

/-! ## The places of a link -/

variable {exports : List (Nat × AomSymbol)} {imported : AomSymbol} {code : List UInt8}

/-- Validated modules, one after the other, within the limits that every profile shares. -/
structure Ready (ps : List Place) : Prop where
  sound : ∀ p ∈ ps, p.input.Sound
  bases : Running Place.base Place.length 0 ps
  befores : Running Place.before Place.count 0 ps
  size : (ps.map Place.length).sum ≤ 2 ^ 21
  count : (ps.map Place.count).sum ≤ 4096

variable {base before : Nat} {target : Nat} {r : AomRelocation} {i : Nat}

theorem running_placesFrom {inp : List ValidatedPointerModule} :
    Running Place.base Place.length base (placesFrom base before inp) ∧
      Running Place.before Place.count before (placesFrom base before inp) := by
  induction inp generalizing base before with
  | nil => exact ⟨trivial, trivial⟩
  | cons m inp ih => exact ⟨⟨rfl, ih.1⟩, ⟨rfl, ih.2⟩⟩

variable {ps : List Place} {p : Place}

theorem Ready.base_le (h : Ready ps) (hp : p ∈ ps) :
    p.base + p.length ≤ (ps.map Place.length).sum := by
  simpa using (h.bases.bounds hp).2

theorem Ready.before_le (h : Ready ps) (hp : p ∈ ps) :
    p.before + p.count ≤ (ps.map Place.count).sum := by
  simpa using (h.befores.bounds hp).2

theorem Ready.base_aligned (h : Ready ps) (hp : p ∈ ps) : p.base % 8 = 0 :=
  Nat.mod_eq_zero_of_dvd (h.bases.dvd_pos (Nat.dvd_zero 8)
    (fun q hq => Nat.dvd_of_mod_eq_zero (h.sound q hq).code_mod) hp)

theorem Ready.export_entry (h : Ready ps) {e : Nat × AomSymbol} (he : e ∈ exportsOf ps) :
    e.1 < 2 ^ 21 ∧ e.1 % 8 = 0 ∧ ∃ f ∈ linkFrames ps, f.entry = e.1 := by
  obtain ⟨p, hp, he⟩ := mem_flatMap.mp he
  obtain ⟨s, hs, rfl⟩ := mem_map.mp he
  have hso := h.sound p hp
  have hv : s.value ∈ p.input.frames.map (·.entry) := by
    rw [← hso.exports]
    exact mem_map_of_mem hs
  obtain ⟨frame, hf, hen⟩ := mem_map.mp hv
  have hb := hso.frame_bounds hf
  have ha := hso.frames_aligned frame hf
  have hba := h.base_aligned hp
  have hl : p.base + p.input.code.length ≤ (ps.map Place.length).sum := h.base_le hp
  have hsi := h.size
  refine ⟨by omega, by omega, shiftFrame p.base frame, ?_, ?_⟩
  · exact mem_flatMap.mpr ⟨p, hp, mem_map_of_mem hf⟩
  · rw [← hen]
    rfl

/-! ## Names -/

theorem mem_of_resolve (h : resolve exports imported = some target) :
    ∃ s, (target, s) ∈ exports ∧ Provides s imported := by
  rw [resolve, map_eq_some_iff] at h
  obtain ⟨⟨a, s⟩, hf, rfl⟩ := h
  exact ⟨s, mem_of_find?_eq_some hf, by simpa using find?_some hf⟩

theorem resolve_eq_some (hn : (exports.map (·.2.name)).Nodup) :
    resolve exports imported = some target ↔ ∃ s, (target, s) ∈ exports ∧ Provides s imported := by
  refine ⟨mem_of_resolve, ?_⟩
  · rintro ⟨s, hs, hp⟩
    rw [resolve, map_eq_some_iff]
    have hso : (exports.find? fun e => decide (Provides e.2 imported)).isSome = true :=
      find?_isSome.mpr ⟨_, hs, by simpa using hp⟩
    obtain ⟨e, he⟩ := isSome_iff_exists.mp hso
    have hm := mem_of_find?_eq_some he
    have hna : e.2.name = s.name := by
      have hf : Provides e.2 imported := by simpa using find?_some he
      exact hf.1.trans hp.1.symm
    have heq : e = (target, s) := inj_on_of_nodup_map hn hm hs hna
    exact ⟨e, he, by rw [heq]⟩

/-! ## Linked words -/

theorem importAt_eq_some {offset : Nat} (h : importAt p.input.module offset = some imported) :
    ∃ r ∈ p.input.module.relocations, r.offset = offset := by
  rw [importAt, bind_eq_some_iff] at h
  obtain ⟨r, hr, -⟩ := h
  exact ⟨r, mem_of_find?_eq_some hr, by simpa using find?_some hr⟩

theorem importAt_of_mem (hs : p.input.Sound) (hr : r ∈ p.input.module.relocations) :
    importAt p.input.module r.offset = p.input.module.symbols[r.symbolIndex]? := by
  have hso : (p.input.module.relocations.find? fun r' => r'.offset == r.offset).isSome = true :=
    find?_isSome.mpr ⟨r, hr, by simp⟩
  obtain ⟨r', hr'⟩ := isSome_iff_exists.mp hso
  have ho : r'.offset = r.offset := by simpa using find?_some hr'
  obtain rfl : r' = r :=
    inj_on_of_nodup_map hs.offsets (mem_of_find?_eq_some hr') hr ho
  rw [importAt, hr', bind_some]

theorem Ready.pointerFrame_room (h : Ready ps) (hp : p ∈ ps) (hi : i * 8 + 8 ≤ p.length)
    (hsem : (insnOf p.input.code (i * 8)).desc.semantics = .pointerFrame) :
    wordAt64 p.input.code (i * 8) % 2 ^ 26 + p.before < 2 ^ 26 := by
  have hc : i * 8 + 8 ≤ p.input.code.length := hi
  obtain ⟨ind, hid, himm⟩ := (h.sound p hp).pointerFrame (by omega) (by omega) hsem
  have hb : p.before + p.input.frames.length ≤ (ps.map Place.count).sum := h.before_le hp
  have hcn := h.count
  rw [insnOf_low hc] at hsem himm
  rw [imm_pointerFrame hsem, toNat_ofNat] at himm
  omega

theorem Ready.linkWord_high (h : Ready ps) (hp : p ∈ ps) (hi : i * 8 + 8 ≤ p.length)
    (exports : List (Nat × AomSymbol)) :
    linkWord exports p i < 2 ^ 64 ∧
      linkWord exports p i / 2 ^ 32 = wordAt64 p.input.code (i * 8) / 2 ^ 32 := by
  have hl : wordAt64 p.input.code (i * 8) < 2 ^ 64 := wordAt64_lt
  unfold linkWord
  dsimp only
  split
  · rename_i hsem
    have hr := h.pointerFrame_room hp hi hsem
    omega
  · split
    · rename_i imported _
      have hc := (Asm64.call
        ((((resolve exports imported).getD 0 : Nat) - (p.base + i * 8 : Nat) : Int) / 4)).isLt
      rw [callWord]
      omega
    · exact ⟨hl, rfl⟩

/-! ## Code that is put together from linked words -/

/-- `code` consists of the linked words of the modules. -/
structure Assembled (ps : List Place) (code : List UInt8) : Prop where
  length : code.length = (ps.map Place.length).sum
  word : ∀ p ∈ ps, ∀ i, i * 8 + 8 ≤ p.length →
    wordAt64 code (p.base + i * 8) = linkWord (exportsOf ps) p i

theorem running_range (s n : Nat) : Running (· * 8) (fun _ => 8) (s * 8) (List.range' s n) := by
  induction n generalizing s with
  | zero => trivial
  | succ n ih =>
    refine ⟨rfl, ?_⟩
    have hr := ih (s + 1)
    rwa [Nat.add_mul, Nat.one_mul] at hr

theorem flatMap_leBytes_eq_iff {n : Nat} {f : Nat → Nat} {bytes : List UInt8}
    (hf : ∀ i < n, f i < 2 ^ 64) (hl : bytes.length = n * 8) :
    (List.range n).flatMap (fun i => leBytes 8 (f i)) = bytes ↔ ∀ i < n,
      wordAt64 bytes (i * 8) = f i := by
  have hr := running_range 0 n
  rw [Nat.zero_mul, ← range_eq_range'] at hr
  rw [hr.flatMap_eq_iff fun i _ => length_leBytes 8 (f i)]
  simp only [map_const', length_range, sum_replicate, Nat.nsmul_eq_mul, mem_range, hl, true_and]
  refine forall_congr' fun i => forall_congr' fun hi => ?_
  have hs : (slice bytes (i * 8) 8).length = 8 := length_slice (by omega)
  constructor
  · intro h
    rw [wordAt64, h, ofLeBytes_leBytes (hf i hi)]
  · intro h
    rw [← h, wordAt64]
    nth_rewrite 1 [← leBytes_ofLeBytes (slice bytes (i * 8) 8), hs]
    rfl

theorem length_linkCode (hs : p.input.Sound) : (linkCode exports p).length = p.length := by
  have hm : p.length % 8 = 0 := hs.code_mod
  rw [linkCode, length_flatMap]
  simp only [length_leBytes, map_const', length_range, sum_replicate, Nat.nsmul_eq_mul]
  omega

theorem assembled_iff (h : Ready ps) : Assembled ps code ↔ linkedCode ps = code := by
  rw [linkedCode, h.bases.flatMap_eq_iff fun p hp => length_linkCode (h.sound p hp)]
  -- A module stands at its base exactly when its words do.
  have hw : code.length = (ps.map Place.length).sum → ∀ p ∈ ps,
      (slice code p.base p.length = linkCode (exportsOf ps) p ↔
        ∀ i, i * 8 + 8 ≤ p.length → wordAt64 code (p.base + i * 8) =
          linkWord (exportsOf ps) p i) := by
    intro hl p hp
    have hm : p.length % 8 = 0 := (h.sound p hp).code_mod
    have hf : p.base + p.length ≤ code.length := hl ▸ h.base_le hp
    have hs : (slice code p.base p.length).length = p.length / 8 * 8 := by
      rw [length_slice hf]
      omega
    rw [eq_comm, linkCode, flatMap_leBytes_eq_iff (fun i hi => (h.linkWord_high hp (by omega) _).1)
      hs]
    refine forall_congr' fun i => ?_
    have hif : i < p.length / 8 ↔ i * 8 + 8 ≤ p.length := by omega
    rw [hif]
    refine forall_congr' fun hi => ?_
    rw [wordAt64, slice_slice hi, wordAt64]
  constructor
  · exact fun hc => ⟨hc.length, fun p hp => (hw hc.length p hp).mpr (hc.word p hp)⟩
  · exact fun hc => ⟨hc.1, fun p hp => (hw hc.1 p hp).mp (hc.2 p hp)⟩

/-! ## The linked code as a relocation of its modules -/

/-- Every import of the link has a provider. -/
def Resolved (ps : List Place) : Prop :=
  ∀ p ∈ ps, ∀ offset imported, importAt p.input.module offset = some imported →
    (resolve (exportsOf ps) imported).isSome = true

/-- What linking does to one instruction. -/
inductive LinkedInsn (ps : List Place) (p : Place) (pc : Nat) (insn insn' : DecodedInsn) : Prop
  | frame (hsem : insn.desc.semantics = .pointerFrame) (hdesc : insn'.desc = insn.desc)
      (himm : insn'.imm = insn.imm + p.before)
  | call (hopen : pc ∈ p.input.module.relocations.map (·.offset))
      (hsem : insn.desc = ⟨"call", 0x32, .b, .call, .none⟩)
      (hdesc : insn'.desc = ⟨"call", 0x32, .b, .call, .none⟩)
      (htgt : ∃ f ∈ linkFrames ps, (f.entry : Int) = (p.base + pc : Nat) + insn'.imm * 4)
  | same (hsem : insn.desc.semantics ≠ .pointerFrame)
      (hcls : pc ∉ p.input.module.relocations.map (·.offset)) (heq : insn' = insn)

theorem bitVec_ofNat_callWord (word pc target : Nat) :
    BitVec.ofNat 32 (callWord word pc target) = Asm64.call (((target : Int) - pc) / 4) := by
  refine eq_of_toNat_eq ?_
  have hl := (Asm64.call (((target : Int) - pc) / 4)).isLt
  rw [toNat_ofNat, callWord]
  omega

theorem insnOf_relocation (hs : p.input.Sound) (hr : r ∈ p.input.module.relocations) :
    (insnOf p.input.code r.offset).desc = ⟨"call", 0x32, .b, .call, .none⟩ := by
  have hw : BitVec.ofNat 32 (ofLeBytes (slice p.input.code r.offset 4)) = Asm64.call 0 :=
    (hs.relocations r hr).word
  rw [insnOf, hw]
  exact (decode_of_call (by decide)).1

theorem linkedInsn_low (h : Ready ps) (hrs : Resolved ps) (hc : Assembled ps code) (hp : p ∈ ps)
    (hi : i * 8 + 8 ≤ p.length) :
    LinkedInsn ps p (i * 8) (insnOf p.input.code (i * 8)) (insnOf code (p.base + i * 8)) := by
  have hso := h.sound p hp
  have hft : p.base + p.length ≤ code.length := hc.length ▸ h.base_le hp
  have hlo : insnOf p.input.code (i * 8) = decode
    (BitVec.ofNat 32 (wordAt64 p.input.code (i * 8))) :=
    insnOf_low hi
  have hl : insnOf code (p.base + i * 8) =
      decode (BitVec.ofNat 32 (linkWord (exportsOf ps) p i)) := by
    rw [insnOf_low (by omega), hc.word p hp i hi]
  by_cases hsem : (insnOf p.input.code (i * 8)).desc.semantics = .pointerFrame
  · -- PFRAME: the index has room for the shift, so that the opcode stays.
    have hro := h.pointerFrame_room hp hi hsem
    have hw : linkWord (exportsOf ps) p i = wordAt64 p.input.code (i * 8) + p.before := by
      rw [linkWord, if_pos hsem]
    have hdesc : (insnOf code (p.base + i * 8)).desc = (insnOf p.input.code (i * 8)).desc := by
      rw [hl, hlo, hw]
      refine decode_desc_congr ?_
      rw [toNat_ofNat, toNat_ofNat]
      omega
    refine .frame hsem hdesc ?_
    rw [← hdesc, hl] at hsem
    rw [hl, imm_pointerFrame hsem, hlo, imm_pointerFrame, hw, toNat_ofNat, toNat_ofNat]
    · omega
    · rwa [← hlo, ← hdesc, hl]
  cases him : importAt p.input.module (i * 8) with
  | some imported =>
    obtain ⟨r, hr, ho⟩ := importAt_eq_some him
    obtain ⟨target, htgt⟩ := isSome_iff_exists.mp (hrs p hp _ _ him)
    obtain ⟨s, hs, -⟩ := mem_of_resolve htgt
    obtain ⟨hlt, ha, f, hf, hen⟩ := h.export_entry hs
    have hw : linkWord (exportsOf ps) p i =
        callWord (wordAt64 p.input.code (i * 8)) (p.base + i * 8) target := by
      rw [linkWord, if_neg hsem, him]
      dsimp only
      rw [htgt]
      rfl
    have hb := h.base_aligned hp
    have hle := h.base_le hp
    have hsi := h.size
    rw [hw, bitVec_ofNat_callWord] at hl
    rw [hl]
    refine .call (ho ▸ mem_map_of_mem hr) (ho ▸ insnOf_relocation hso hr) ?_ ⟨f, hf, ?_⟩
    · refine (decode_of_call ?_).1
      have hfi := (BitVec.ofInt 22 (((target : Int) - (p.base + i * 8 : Nat)) / 4)).isLt
      rw [toNat_call]
      omega
    · -- Both ends are below 2 MiB, so that the displacement fits 22 bits.
      rw [imm_call (by omega) (by omega)]
      omega
  | none =>
    refine .same hsem (fun hopen => ?_) ?_
    · obtain ⟨r, hr, ho⟩ := mem_map.mp hopen
      obtain ⟨s, hs, -⟩ := (hso.relocations r hr).symbol
      rw [← ho, importAt_of_mem hso hr, hs] at him
      cases him
    · rw [hl, hlo, linkWord, if_neg hsem, him]

theorem linkedInsn (h : Ready ps) (hrs : Resolved ps) (hc : Assembled ps code)
    (hp : p ∈ ps) (ha : pc % 4 = 0) (hin : pc + 4 ≤ p.input.code.length) :
    LinkedInsn ps p pc (insnOf p.input.code pc) (insnOf code (p.base + pc)) := by
  have hs := h.sound p hp
  have hm : p.input.code.length % 8 = 0 := hs.code_mod
  rcases (by omega : pc % 8 = 0 ∨ pc % 8 = 4) with hh | hh
  · have hl := linkedInsn_low h hrs hc hp (i := pc / 8)
      (by change pc / 8 * 8 + 8 ≤ p.input.code.length; omega)
    rwa [show pc / 8 * 8 = pc by omega] at hl
  · -- The upper half is the NOP that fills the slot.
    obtain ⟨i, rfl⟩ : ∃ i, pc = i * 8 + 4 := ⟨pc / 8, by omega⟩
    have hi : i * 8 + 8 ≤ p.length := by
      change i * 8 + 8 ≤ p.input.code.length
      omega
    have hf : p.base + p.length ≤ code.length := hc.length ▸ h.base_le hp
    refine .same ?_ (fun hopen => ?_) ?_
    · have hpa : wordOf32 p.input.code (8 * i + 4) = Asm64.nop := hs.pad i (by omega)
      rw [Nat.mul_comm i 8, insnOf, show BitVec.ofNat 32 _ = Asm64.nop from hpa]
      decide
    · obtain ⟨r, hr, ho⟩ := mem_map.mp hopen
      have := (hs.relocations r hr).aligned
      omega
    · rw [← Nat.add_assoc, insnOf_high (by omega), insnOf_high hi, hc.word p hp i hi,
        (h.linkWord_high hp hi _).2]

theorem relocated (h : Ready ps) (hrs : Resolved ps) (hco : Assembled ps code) (hp : p ∈ ps) :
    Relocated p.input.code code p.base p.before (p.input.module.relocations.map (·.offset))
      (linkFrames ps) := by
  have hs := h.sound p hp
  have hb := h.base_aligned hp
  have hl := h.base_le hp
  have hsi := h.size
  have hi : ∀ pc, pc % 4 = 0 → pc + 4 ≤ p.input.code.length →
      LinkedInsn ps p pc (insnOf p.input.code pc) (insnOf code (p.base + pc)) :=
    fun _ => linkedInsn h hrs hco hp
  constructor
  case base_aligned => omega
  case fits => exact hco.length ▸ hl
  case le_max =>
    rw [hco.length, u64Max]
    omega
  case desc =>
    intro pc ha hin
    cases hi pc ha hin with
    | frame _ hdesc _ => exact hdesc
    | call _ hsem hdesc _ => rw [hsem, hdesc]
    | same _ _ heq => rw [heq]
  case legal =>
    intro pc ha hin
    cases hi pc ha hin with
    | frame hsem hdesc _ =>
      have hf : (insnOf p.input.code pc).desc = ⟨"pframe", 0x2C, .s, .pointerFrame, .none⟩ :=
        desc_pointerFrame hsem
      rw [isIllegal_of_control (by rw [hdesc, hf]; decide) (.inl (by rw [hdesc, hf])),
        isIllegal_of_control (by rw [hf]; decide) (.inl hsem)]
    | call _ hc hdesc _ =>
      rw [isIllegal_of_control (by rw [hdesc]; decide) (.inr (by rw [hdesc])),
        isIllegal_of_control (by rw [hc]; decide) (.inr (by rw [hc]))]
    | same _ _ heq => rw [heq]
  case frame =>
    intro pc ha hin hsem
    cases hi pc ha hin with
    | frame _ _ himm => exact himm
    | call _ hc _ _ =>
      rw [hc] at hsem
      cases hsem
    | same ho _ _ => exact absurd hsem ho
  case calls =>
    intro pc hopen
    obtain ⟨r, hr, rfl⟩ := mem_map.mp hopen
    rw [insnOf_relocation hs hr]
  case opened =>
    intro pc ha hin hopen
    cases hi pc ha hin with
    | frame hsem _ _ =>
      obtain ⟨r, hr, rfl⟩ := mem_map.mp hopen
      rw [insnOf_relocation hs hr] at hsem
      cases hsem
    | call _ _ _ htgt => exact htgt
    | same _ hcls _ => exact absurd hopen hcls
  case same =>
    intro pc ha hin hcls ho
    cases hi pc ha hin with
    | frame hsem _ _ => exact absurd hsem ho
    | call hopen _ _ _ => exact absurd hopen hcls
    | same _ _ heq => rw [heq]

/-! ## The link is a program -/

theorem length_linkFrames : (linkFrames ps).length = (ps.map Place.count).sum := by
  rw [linkFrames, length_flatMap]
  simp only [length_map]
  rfl

theorem tiled_linkFrames {s : Nat} (hs : ∀ p ∈ ps, p.input.Sound)
    (hb : Running Place.base Place.length s ps) :
    ∃ o, o.Perm ((linkFrames ps).map fun f => (f.entry, f.stop)) ∧
      FrameManifest.tileFrom s o = ok (s + (ps.map Place.length).sum) := by
  induction ps generalizing s with
  | nil => exact ⟨[], .nil, rfl⟩
  | cons p ps ih =>
    obtain ⟨rfl, hr⟩ := hb
    rw [forall_mem_cons] at hs
    obtain ⟨o, hp, ht⟩ := hs.1.tiled
    obtain ⟨o', hp', ht'⟩ := ih hs.2 hr
    refine ⟨o.map (fun r => (p.base + r.1, p.base + r.2)) ++ o', ?_, ?_⟩
    · rw [linkFrames, flatMap_cons, map_append]
      refine .append ?_ hp'
      have hsh := hp.map fun r => (p.base + r.1, p.base + r.2)
      rw [List.map_map] at hsh ⊢
      exact hsh
    · rw [tileFrom_append]
      have hf := tileFrom_shift p.base ht
      rw [Nat.add_zero] at hf
      rw [hf, ok_bind, map_cons, sum_cons, ← Nat.add_assoc]
      exact ht'

theorem exists_of_linkFrames (h : Ready ps) {k : Nat} (hfr : (linkFrames ps)[k]? = some frame) :
    ∃ p ∈ ps, ∃ j f, p.input.frames[j]? = some f ∧ frame = shiftFrame p.base f ∧
      k = p.before + j := by
  obtain ⟨p, hp, j, hj, hk⟩ := h.befores.exists_of_getElem? (fun _ _ => length_map _) hfr
  rw [getElem?_map, map_eq_some_iff] at hj
  obtain ⟨f, hf, rfl⟩ := hj
  exact ⟨p, hp, j, f, hf, rfl, by omega⟩

theorem validateStructure_linked (h : Ready ps) (hps : ps ≠ []) (hr : Resolved ps)
    (hc : Assembled ps code) :
    ValidatedPointerProgram.validateStructure code (linkFrames ps) [] = ok () := by
  obtain ⟨p, hp⟩ := exists_mem_of_ne_nil ps hps
  obtain ⟨hc0, -, hfrs0, -⟩ :=
    validateStructure_eq_ok.mp (h.sound p hp).checked
  have hl : p.base + p.input.code.length ≤ (ps.map Place.length).sum := h.base_le hp
  refine validateStructure_eq_ok.mpr ⟨?_, ?_, ?_, ?_, ?_, ?_⟩
  · rintro rfl
    have hpo := length_pos_iff.mpr hc0
    have hni := hc.length
    rw [length_nil] at hni
    omega
  · have hd : 8 ∣ (ps.map Place.length).sum := by
      refine dvd_sum fun n hn => ?_
      obtain ⟨q, hq, rfl⟩ := mem_map.mp hn
      exact Nat.dvd_of_mod_eq_zero (h.sound q hq).code_mod
    rw [hc.length]
    omega
  · obtain ⟨f, hf⟩ := exists_mem_of_ne_nil _ hfrs0
    exact ne_nil_of_mem (mem_flatMap.mpr ⟨p, hp, mem_map_of_mem hf⟩)
  · rw [length_linkFrames]
    exact h.count
  · have ht := tiled_linkFrames h.sound h.bases
    rwa [Nat.zero_add, ← hc.length] at ht
  · intro k frame hfr
    obtain ⟨q, hq, j, f, hf, rfl, rfl⟩ := exists_of_linkFrames h hfr
    refine (relocated h hr hc hq).checkFrame_eq (fun f' hf' => ?_) ((h.sound q hq).checkFrame hf)
    exact ⟨shiftFrame q.base f', mem_flatMap.mpr ⟨q, hq, mem_map_of_mem hf'⟩, rfl⟩

theorem exitsOf_relocated {code' : List UInt8} {open' : List Nat} {fr' : List FrameManifest}
    (h : Relocated code code' base before open' fr') {en c : Nat} {ex : List Nat} (ha : en % 4 = 0)
    (hin : en + 4 * c ≤ code.length) (hex : ValidatedPointerProgram.exitsOf code en c = ok ex) :
    ValidatedPointerProgram.exitsOf code' (base + en) c = ok (ex.map (base + ·)) := by
  have hf := h.fits
  rw [exitsOf_eq hin] at hex
  obtain rfl := ok.inj hex
  rw [exitsOf_eq (by omega)]
  have hm : (List.range c).map (base + en + 4 * ·) =
      ((List.range c).map (en + 4 * ·)).map (base + ·) := by
    rw [List.map_map]
    exact map_congr_left fun i _ => Nat.add_assoc ..
  rw [hm, List.filter_map]
  congr 2
  refine filter_congr fun pc hp => ?_
  obtain ⟨i, hi, rfl⟩ := mem_map.mp hp
  rw [mem_range] at hi
  simp only [Function.comp]
  rw [h.desc _ (by omega) (by omega)]

theorem parses_linkFrames (h : Ready ps) (hr : Resolved ps) (hc : Assembled ps code) :
    ∀ frame ∈ linkFrames ps, frame.Parses code := by
  intro frame hfr
  obtain ⟨p, hp, hfr⟩ := mem_flatMap.mp hfr
  obtain ⟨f, hf, rfl⟩ := mem_map.mp hfr
  have hs := h.sound p hp
  obtain ⟨-, -, -, hpa⟩ := (parseManifest_eq_ok hs.code_lt).mp hs.manifest
  have hf := hpa f hf
  have hb := h.base_aligned hp
  have hle : p.base + p.input.code.length ≤ (ps.map Place.length).sum := h.base_le hp
  have hsi := h.size
  have hsto := hf.stop_le
  have hlt := hf.entry_lt
  have hen := hf.entry_aligned
  have hst := hf.stop_aligned
  have hl := hc.length
  constructor
  case entry => exact (by omega : p.base + f.entry < 2 ^ 64)
  case stop => exact (by omega : p.base + f.stop < 2 ^ 64)
  case size => exact hf.size
  case count => exact hf.count
  case locals => exact hf.locals
  case entry_aligned => exact (by omega : (p.base + f.entry) % 4 = 0)
  case stop_aligned => exact (by omega : (p.base + f.stop) % 4 = 0)
  case stop_le => exact (by omega : p.base + f.stop ≤ code.length)
  case entry_lt => exact (by omega : p.base + f.entry < p.base + f.stop)
  case exits =>
    have hcn : (shiftFrame p.base f).stop - (shiftFrame p.base f).entry = f.stop - f.entry := by
      simp only [shiftFrame]
      omega
    rw [hcn]
    exact exitsOf_relocated (relocated h hr hc hp) hen (by omega) hf.exits

/-- **The reference link is a program.** -/
theorem fromImage_linked (h : Ready ps) (hps : ps ≠ []) (hrs : Resolved ps)
    (hc : Assembled ps code) :
    ∃ program, ValidatedPointerProgram.fromImage code (manifestBytes code.length (linkFrames ps)) =
      ok (some program) ∧ program.frames = linkFrames ps := by
  have hs := validateStructure_linked h hps hrs hc
  have hp := parses_linkFrames h hrs hc
  obtain ⟨hn, hmo, hfrs, hcn, ⟨o, hpe, ht⟩, hche⟩ :=
    validateStructure_eq_ok.mp hs
  have hpo := length_pos_iff.mpr hn
  have hsi := h.size
  have hle := hc.length
  have hm : parseManifest code
      (manifestBytes code.length (linkFrames ps)) = ok (linkFrames ps) :=
    (parseManifest_eq_ok (by omega)).mpr ⟨rfl, hfrs, hcn, hp⟩
  -- The frame at address 0 starts with PFRAME.
  have hf : (insnOf code 0).desc.semantics = .pointerFrame := by
    obtain ⟨r, hr, hlo, -⟩ := tileFrom_covers ht (le_refl 0) hpo
    obtain ⟨frame, hfr, rfl⟩ := mem_map.mp (hpe.mem_iff.mp hr)
    obtain ⟨k, hk⟩ := mem_iff_getElem?.mp hfr
    have hch := hche k frame hk
    simp only [checkFrame, eq_ok] at hch
    obtain ⟨-, first, hf, ⟨hsem, -⟩, -⟩ := hch
    obtain ⟨-, rfl⟩ := insnAt_eq_ok.mp hf
    have hz : frame.entry = 0 := Nat.le_zero.mp hlo
    rwa [hz] at hsem
  have hen : ∀ frame ∈ linkFrames ps, frame.entry < code.length := fun frame hfr =>
    (hp frame hfr).entry_lt.trans_le (hp frame hfr).stop_le
  refine ⟨⟨code, linkFrames ps, hen⟩, ?_, rfl⟩
  have hl : ¬ code.length < 4 := by omega
  have hv : validate code (linkFrames ps) =
      ok ⟨code, linkFrames ps, hen⟩ := by
    rw [validate, hs, ok_bind, dif_pos hen]
  simp [fromImage, hl, insnAt_of_le (show 0 + 4 ≤ code.length by omega), hf, hm, hv]

end Link

end Anka
