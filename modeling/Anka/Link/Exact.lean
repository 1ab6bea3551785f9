import Anka.Link.Program

/-!
# The link check accepts exactly the reference link

The check is a sequence of comparisons, and for each of them there is an equivalence:

* `Holds.addModules`: the loop over the exports fails if addresses or names clash, and otherwise the
  table answers exactly the exports of the link.
* `checkWord_eq_ok`: a word passes exactly when it is the linked word and its import is resolved.
  The check decodes the displacement that it finds; that it must be the displacement of the provider
  is a fact about CALL (`call_imm`, `imm_call`) for addresses below 2 MiB.
* `checkFrames_eq_ok`: the frames of a module pass exactly when they are the shifted frames.
* `places_of_geometry`: the limits of every profile put all addresses below 2 MiB.

`protected_link_exact` puts them together. What the check asks for beyond the reference link is
`Linkable`: distinct names of exports and a `main` of the profile's type at address 0.
-/

namespace Anka

open Rust Res List Option ValidatedPointerProgram

variable {before : Nat} {p : Place} {ps : List Place}

namespace Link

/-! ## The table of exports -/

/-- No two entries share an address or a name. -/
def Distinct (entries : List (Nat × AomSymbol)) : Prop :=
  (entries.map (·.1)).Nodup ∧ (entries.map (·.2.name)).Nodup

/-- The table holds the entries, and they are distinct. -/
structure Holds (t : ExportTable) (entries : List (Nat × AomSymbol)) : Prop where
  get : ∀ a s, t.exportsAt.get a = some s ↔ (a, s) ∈ entries
  names : ∀ n, n ∈ t.names ↔ n ∈ entries.map (·.2.name)
  distinct : Distinct entries

/-- A part of the loop that fails if entries clash, and otherwise leaves them in the table. -/
structure Adds (x : Res AnkaldError ExportTable) (entries : List (Nat × AomSymbol))
    (base : Nat) :
    Prop where
  holds : ∀ t, x = ok t → Holds t entries ∧ t.base = base
  exists_ok : Distinct entries → ∃ t, x = ok t

variable {t : ExportTable} {entries more : List (Nat × AomSymbol)} {base base' : Nat}

theorem Adds.of_holds (h : Holds t entries) : Adds (ok t) entries t.base :=
  ⟨fun _ ht => ok.inj ht ▸ ⟨h, rfl⟩, fun _ => ⟨t, rfl⟩⟩

theorem Adds.bind {x : Res AnkaldError ExportTable}
    {f : ExportTable → Res AnkaldError ExportTable} (hx : Adds x entries base)
    (hf : ∀ t, Holds t entries → t.base = base → Adds (f t) (entries ++ more) base') :
    Adds (x >>= f) (entries ++ more) base' := by
  constructor
  · intro t' ht'
    obtain ⟨t, ht, ht'⟩ := bind_eq_ok.mp ht'
    obtain ⟨hh, hb⟩ := hx.holds t ht
    exact (hf t hh hb).holds t' ht'
  · intro hd
    have hl : Distinct entries := by
      simp only [Distinct, map_append] at hd
      exact ⟨hd.1.of_append_left, hd.2.of_append_left⟩
    obtain ⟨t, rfl⟩ := hx.exists_ok hl
    obtain ⟨hh, hb⟩ := hx.holds t rfl
    exact (hf t hh hb).exists_ok hd

theorem nodup_map_concat {α β : Type} {f : α → β} {l : List α} {a : α} :
    ((l ++ [a]).map f).Nodup ↔ (l.map f).Nodup ∧ f a ∉ l.map f := by
  rw [map_append, nodup_append]
  simp only [map_cons, map_nil, nodup_singleton, mem_singleton, true_and]
  refine and_congr_right fun _ => ⟨fun h hm => h _ hm _ rfl rfl, fun h b hb c hc hbc => ?_⟩
  exact h (hc ▸ hbc ▸ hb)

section

variable (h : Holds t entries)
include h

theorem Holds.get_eq_none {a : Nat} : t.exportsAt.get a = none ↔ a ∉ entries.map (·.1) := by
  rw [eq_none_iff_forall_ne_some]
  constructor
  · intro hn hm
    obtain ⟨⟨b, s⟩, he, rfl⟩ := mem_map.mp hm
    exact hn s ((h.get b s).mpr he)
  · exact fun hm s hs => hm (mem_map_of_mem ((h.get a s).mp hs))

theorem Holds.addExport (s : AomSymbol) :
    Adds (t.addExport s) (entries ++ [(t.base + s.value, s)]) t.base := by
  constructor
  · intro t' hadd
    simp only [ExportTable.addExport, eq_ok] at hadd
    obtain ⟨hn, had, rfl⟩ := hadd
    refine ⟨⟨fun a s' => ?_, fun n => ?_, ?_, ?_⟩, rfl⟩
    · rw [Map.get_insert, mem_append, mem_singleton, ← h.get, Prod.mk.injEq]
      split
      · rename_i ha
        rw [ha, had]
        simp [eq_comm]
      · rename_i ha
        simp [ha]
    · rw [mem_cons, h.names, map_append, mem_append, or_comm]
      simp
    · exact nodup_map_concat.mpr ⟨h.distinct.1, h.get_eq_none.mp had⟩
    · exact nodup_map_concat.mpr ⟨h.distinct.2, fun hm => hn ((h.names _).mpr hm)⟩
  · rintro ⟨haddre, hna⟩
    have hn := (nodup_map_concat.mp hna).2
    have had := h.get_eq_none.mpr (nodup_map_concat.mp haddre).2
    rw [← h.names] at hn
    exact ⟨_, by simp [ExportTable.addExport, hn, had, require]; rfl⟩

theorem Holds.addExports (sy : List AomSymbol) :
    Adds (sy.foldlM ExportTable.addExport t)
      (entries ++ sy.map fun s => (t.base + s.value, s)) t.base := by
  induction sy generalizing t entries with
  | nil =>
    rw [map_nil, append_nil]
    exact .of_holds h
  | cons s sy ih =>
    rw [foldlM_cons, map_cons, append_cons]
    refine (h.addExport s).bind fun t' hh hb => ?_
    have hr := ih hh
    rwa [hb] at hr

theorem Holds.addModule (m : ValidatedPointerModule) :
    Adds (t.addModule m) (entries ++ m.exports.map fun s => (t.base + s.value, s))
      (t.base + m.code.length) := by
  constructor
  · intro t' ht'
    simp only [ExportTable.addModule, eq_ok] at ht'
    obtain ⟨t1, ht1, rfl⟩ := ht'
    obtain ⟨hh, hb⟩ := (h.addExports _).holds t1 ht1
    exact ⟨⟨hh.get, hh.names, hh.distinct⟩, by rw [hb]⟩
  · intro hd
    obtain ⟨t1, ht1⟩ := (h.addExports _).exists_ok hd
    exact ⟨_, by rw [ExportTable.addModule, ht1, ok_bind]; rfl⟩

theorem Holds.addModules (before : Nat) (inputs : List ValidatedPointerModule) :
    Adds (inputs.foldlM ExportTable.addModule t)
      (entries ++ exportsOf (placesFrom t.base before inputs))
      (t.base + (inputs.map (·.code.length)).sum) := by
  induction inputs generalizing t entries before with
  | nil =>
    rw [placesFrom, exportsOf, flatMap_nil, append_nil]
    exact .of_holds h
  | cons m inputs ih =>
    rw [foldlM_cons, placesFrom, exportsOf, flatMap_cons, ← append_assoc, map_cons,
      sum_cons, ← Nat.add_assoc]
    refine (h.addModule m).bind fun t' hh hb => ?_
    have hr := ih hh (before + m.frames.length)
    rwa [hb] at hr

end

theorem Ready.addresses_nodup (h : Ready ps) : ((exportsOf ps).map (·.1)).Nodup := by
  have hm : (exportsOf ps).map (·.1) =
      ps.flatMap fun p => (p.input.exports.map (·.value)).map (p.base + ·) := by
    rw [exportsOf, map_flatMap]
    simp only [List.map_map]
    rfl
  rw [hm, nodup_flatMap]
  constructor
  · intro p hp
    rw [(h.sound p hp).exports]
    exact (h.sound p hp).entries_nodup.map fun a b hab => Nat.add_left_cancel hab
  · -- The exports of a module lie inside its code.
    have hi : ∀ p ∈ ps, ∀ a ∈ (p.input.exports.map (·.value)).map (p.base + ·),
        p.base ≤ a ∧ a < p.base + p.length := by
      intro p hp a ha
      rw [(h.sound p hp).exports, List.map_map] at ha
      obtain ⟨fr, hf, rfl⟩ := mem_map.mp ha
      have hb := (h.sound p hp).frame_bounds hf
      change p.base ≤ p.base + fr.entry ∧ p.base + fr.entry < p.base + p.input.code.length
      omega
    refine (List.Pairwise.and_mem.mp h.bases.pairwise).imp fun {p q} hpq a hp hq => ?_
    have hap := hi p hpq.1 a hp
    have haq := hi q hpq.2.1 a hq
    omega

theorem exportTable_eq_ok (inputs : List ValidatedPointerModule) :
    (∀ t, inputs.foldlM ExportTable.addModule ⟨∅, [], 0⟩ = ok t →
      Holds t (exportsOf (places inputs))) ∧
      (Distinct (exportsOf (places inputs)) →
        ∃ t, inputs.foldlM ExportTable.addModule ⟨∅, [], 0⟩ = ok t) := by
  have hem : Holds ⟨∅, [], 0⟩ [] := ⟨by simp, by simp, nodup_nil, nodup_nil⟩
  have ha := hem.addModules 0 inputs
  rw [nil_append] at ha
  exact ⟨fun t ht => (ha.holds t ht).1, ha.exists_ok⟩

/-! ## Words -/

theorem isPlainCall_iff {word : BitVec 32} :
    isPlainCall word = true ↔ word.toNat / 2 ^ 22 = 800 := by
  have hm : (~~~0x3fffff#32).toNat = (2 ^ 10 - 1) * 2 ^ 22 := by decide
  have hc : (Asm64.call 0).toNat = 800 * 2 ^ 22 := by decide
  have hl : word.toNat < 2 ^ (10 + 22) := word.isLt
  rw [isPlainCall, beq_iff_eq, ← BitVec.toNat_inj, BitVec.toNat_and, hm, and_high_mask hl, hc]
  omega

theorem pointerFrame_word {word : Nat} (hlt : word < 2 ^ 64)
    (hr : word % 2 ^ 26 + before < 2 ^ 26) :
    (word &&& complement64 0x3ffffff) ||| ((word &&& 0x3ffffff) + before) = word + before := by
  have hm : complement64 0x3ffffff = (2 ^ 38 - 1) * 2 ^ 26 := by decide
  have hh : word &&& complement64 0x3ffffff = 2 ^ 26 * (word / 2 ^ 26) := by
    rw [hm, and_high_mask (by omega), Nat.mul_comm]
  have hl : word &&& 0x3ffffff = word % 2 ^ 26 := Nat.and_two_pow_sub_one_eq_mod word 26
  rw [hh, hl, ← Nat.two_pow_add_eq_or_of_lt hr]
  omega

theorem get_relocationMap {re : List AomRelocation} (h : (re.map (·.offset)).Nodup) (offset : Nat) :
    (relocationMap re).get offset = re.find? fun r => r.offset == offset := by
  have hl : ∀ m : Map Nat AomRelocation,
      (re.foldl (fun m r => m.insert r.offset r) m).get offset =
        (re.find? fun r => r.offset == offset).or (m.get offset) := by
    induction re with
    | nil => simp
    | cons r re ih =>
      intro m
      rw [map_cons, nodup_cons] at h
      rw [foldl_cons, ih h.2, Map.get_insert, find?_cons]
      by_cases ho : r.offset = offset
      · have hn : (re.find? fun r => r.offset == offset) = none := by
          rw [find?_eq_none]
          intro r' hr' heq
          exact h.1 (mem_map.mpr ⟨r', hr', by rw [ho]; simpa using heq⟩)
        simp [ho, hn]
      · have hb : (r.offset == offset) = false := by simpa using ho
        simp [hb, Ne.symm ho]
  rw [relocationMap, hl, Map.get_empty, or_none]

theorem checkCall_eq_ok (h : Holds t entries) (ha : ∀ e ∈ entries, e.1 < 2 ^ 21 ∧ e.1 % 8 = 0)
    {m : AomModule} {r : AomRelocation} {i : AomSymbol}
    (hi : m.symbols[r.symbolIndex]? = some i) {pc af : Nat} (hpc : pc < 2 ^ 21)
    (hal : pc % 8 = 0) : checkCall t.exportsAt m r pc before af = ok () ↔
      ∃ target, resolve entries i = some target ∧ af = callWord before pc target := by
  simp only [checkCall, eq_ok, hi, exists_const, isPlainCall_iff, h.get, some.injEq,
    resolve_eq_some h.distinct.2]
  constructor
  · rintro ⟨⟨hh, hpl⟩, ⟨hlo, -⟩, s, hs, _, rfl, hp⟩
    refine ⟨_, ⟨s, hs, hp⟩, ?_⟩
    have hw := call_imm hpl
    have hl : (BitVec.ofNat 32 af).toNat = af % 2 ^ 32 := BitVec.toNat_ofNat ..
    have ho : ((((pc : Int) + (decode (BitVec.ofNat 32 af)).imm * 4).toNat : Int) - pc) / 4 =
        (decode (BitVec.ofNat 32 af)).imm := by omega
    rw [callWord, ho, ← hw, hl]
    omega
  · rintro ⟨target, ⟨s, hs, hp⟩, rfl⟩
    have hb := ha _ hs
    have hlt := (Asm64.call (((target : Int) - pc) / 4)).isLt
    have hf := (BitVec.ofInt 22 (((target : Int) - pc) / 4)).isLt
    have hc := toNat_call (((target : Int) - pc) / 4)
    have him : (decode (Asm64.call (((target : Int) - pc) / 4))).imm = ((target : Int) - pc) / 4 :=
      imm_call (by omega) (by omega)
    have ht : (pc : Int) + ((target : Int) - pc) / 4 * 4 = target := by omega
    rw [bitVec_ofNat_callWord, him, ht, Int.toNat_natCast]
    refine ⟨⟨?_, ?_⟩, ⟨by omega, by rw [u64Max]; omega⟩, s, hs, i, rfl, hp⟩
    · rw [callWord]
      omega
    · omega

theorem word64At_of_le {code : List UInt8} {pc : Nat} (h : pc + 8 ≤ code.length) :
    word64At code pc = ok (wordAt64 code pc) := by
  simp [word64At, check, h, wordAt64]

/-- One word passes exactly when it is the linked word and its import is resolved. -/
theorem checkWord_eq_ok (h : Ready ps) (ht : Holds t (exportsOf ps)) {code : List UInt8}
    (hc : code.length = (ps.map Place.length).sum) (hp : p ∈ ps) {i : Nat}
    (hi : i * 8 + 8 ≤ p.length) :
    checkWord t.exportsAt code p.input.module p.base p.before i = ok () ↔
      wordAt64 code (p.base + i * 8) = linkWord (exportsOf ps) p i ∧
        ∀ imported, importAt p.input.module (i * 8) = some imported →
          (resolve (exportsOf ps) imported).isSome = true := by
  have hso := h.sound p hp
  have hl := h.base_le hp
  have hin : i * 8 + 8 ≤ p.input.code.length := hi
  simp only [checkWord, word64At_of_le hin, word64At_of_le
    (show p.base + i * 8 + 8 ≤ code.length by omega),
    ok_bind, ← insnOf_low hin, linkWord, get_relocationMap hso.offsets]
  by_cases hs : (insnOf p.input.code (i * 8)).desc.semantics = .pointerFrame
  · -- PFRAME is never relocated.
    have hn : importAt p.input.module (i * 8) = none := by
      refine eq_none_iff_forall_ne_some.mpr fun imported himp => ?_
      obtain ⟨r, hr, ho⟩ := importAt_eq_some himp
      rw [← ho, insnOf_relocation hso hr] at hs
      cases hs
    rw [if_pos hs, if_pos hs, require_eq_ok, hn,
      pointerFrame_word wordAt64_lt (h.pointerFrame_room hp hi hs)]
    simp
  rw [if_neg hs, if_neg hs]
  cases hf : p.input.module.relocations.find? fun r => r.offset == i * 8 with
  | none =>
    have hn : importAt p.input.module (i * 8) = none := by rw [importAt, hf, bind_none]
    rw [hn, require_eq_ok, eq_comm]
    simp
  | some r =>
    have hr := mem_of_find?_eq_some hf
    have ho : r.offset = i * 8 := by simpa using find?_some hf
    obtain ⟨imported, him, -⟩ := (hso.relocations r hr).symbol
    have himp : importAt p.input.module (i * 8) = some imported := by
      rw [importAt, hf, bind_some, him]
    have hb := h.base_aligned hp
    have hsi := h.size
    rw [himp]
    dsimp only
    rw [checkCall_eq_ok ht (fun e he => ⟨(h.export_entry he).1, (h.export_entry he).2.1⟩) him
      (by omega) (by omega)]
    constructor
    · rintro ⟨ta, hrs, hw⟩
      refine ⟨by rw [hrs, hw]; rfl, ?_⟩
      rintro _ ⟨⟩
      rw [hrs]
      rfl
    · rintro ⟨hw, hrsd⟩
      obtain ⟨ta, hrs⟩ := isSome_iff_exists.mp (hrsd imported rfl)
      rw [hrs] at hw
      exact ⟨ta, hrs, hw⟩

/-! ## Frames -/

theorem checkLinkedFrame_eq_ok {base : Nat} {before after : FrameManifest} :
    checkLinkedFrame base before after = ok () ↔ after = shiftFrame base before := by
  have hex : (after.exits.length = before.exits.length ∧
      (after.exits.zip before.exits).any (fun e => e.1 != base + e.2) = false) ↔
        after.exits = before.exits.map (base + ·) := by
    rw [← List.map_id' after.exits, ValidatedPointerModule.map_eq_iff_zip, List.map_id']
  rw [checkLinkedFrame, require_eq_ok, hex]
  cases after
  simp only [shiftFrame, FrameManifest.mk.injEq]
  tauto

theorem checkFrames_eq_ok {frames : List FrameManifest}
    (hl : p.before + p.count ≤ frames.length) : (p.input.frames.zipIdx.forM fun e => do
        let after ← unwrap frames[p.before + e.2]?
        checkLinkedFrame p.base e.1 after) = (ok () : Res AnkaldError Unit) ↔
      slice frames p.before p.count = p.input.frames.map (shiftFrame p.base) := by
  rw [forM_eq_ok]
  simp only [Prod.forall, mem_zipIdx_iff_getElem?, eq_ok, checkLinkedFrame_eq_ok, exists_eq_right]
  constructor
  · intro h
    refine ext_getElem? fun i => ?_
    by_cases hi : i < p.input.frames.length
    · rw [getElem?_slice (n := p.count) hi, getElem?_map, getElem?_eq_getElem hi]
      exact h _ i (getElem?_eq_getElem hi)
    · rw [getElem?_eq_none, getElem?_eq_none]
      · rw [length_map]
        omega
      · rw [length_slice hl]
        exact Nat.le_of_not_lt hi
  · intro h fr i hf
    have hi := (List.getElem?_eq_some_iff.mp hf).1
    rw [← getElem?_slice (n := p.count) hi, h, getElem?_map, hf, map_some]

/-! ## Modules -/

/-- A module passes at its place. -/
def Passes (exportsAt : Map Nat AomSymbol) (code : List UInt8) (frames : List FrameManifest)
    (p : Place) : Prop :=
  slice frames p.before p.count = p.input.frames.map (shiftFrame p.base) ∧
    ∀ i < p.length / 8, checkWord exportsAt code p.input.module p.base p.before i = ok ()

section Modules

variable {exportsAt : Map Nat AomSymbol} {code : List UInt8} {frames : List FrameManifest}

theorem checkModule_eq_ok {r : Nat × Nat} (hl : p.before + p.count ≤ frames.length) :
    checkModule exportsAt code frames (p.base, p.before) p.input = ok r ↔
      Passes exportsAt code frames p ∧ (p.base + p.length, p.before + p.count) = r := by
  simp only [checkModule, eq_ok, checkFrames_eq_ok hl, forM_eq_ok, mem_range,
    exists_const, ← and_assoc]
  rfl

theorem checkModules_eq_ok {base : Nat} {inputs : List ValidatedPointerModule}
    (hl : before + (inputs.map (·.frames.length)).sum ≤ frames.length) :
    (∃ r, inputs.foldlM (checkModule exportsAt code frames) (base, before) = ok r) ↔
      ∀ p ∈ placesFrom base before inputs, Passes exportsAt code frames p := by
  induction inputs generalizing base before with
  | nil => simp [placesFrom]
  | cons m inputs ih =>
    rw [map_cons, sum_cons, ← Nat.add_assoc] at hl
    have hr : before + m.frames.length ≤ frames.length := by omega
    have hm : ∀ r, checkModule exportsAt code frames (base, before) m = ok r ↔
        Passes exportsAt code frames ⟨m, base, before⟩ ∧
          (base + m.code.length, before + m.frames.length) = r := fun r =>
      checkModule_eq_ok (p := ⟨m, base, before⟩) hr
    rw [placesFrom, forall_mem_cons, ← ih hl]
    simp only [foldlM_cons, bind_eq_ok, hm, and_assoc, exists_and_left, exists_eq_left']

end Modules

/-! ## Geometry -/

variable {inputs : List ValidatedPointerModule}

theorem geometry_eq_ok {profile : LinkProfile} {g g' : LinkGeometry}
    (hl : g.frames ≤ 4096 ∧ g.code + g.metadata ≤ 2 ^ 21)
    (h : inputs.foldlM (LinkGeometry.add profile) g = ok g') :
    g'.code = g.code + (inputs.map (·.code.length)).sum ∧
      g'.metadata = g.metadata + (inputs.map fun m => m.module.rodata.length - 32).sum ∧
      g'.frames = g.frames + (inputs.map (·.frames.length)).sum ∧
      g'.frames ≤ 4096 ∧ g'.code + g'.metadata ≤ 2 ^ 21 := by
  induction inputs generalizing g with
  | nil =>
    obtain rfl := ok.inj h
    exact ⟨rfl, rfl, rfl, hl⟩
  | cons m inputs ih =>
    simp only [List.foldlM_cons, LinkGeometry.add, eq_ok, Option.any_eq_true,
      decide_eq_true_eq] at h
    obtain ⟨_, ⟨-, _, ⟨-, rfl⟩, _, ⟨-, rfl⟩, _, ⟨-, rfl⟩, _, ⟨-, rfl⟩, ⟨hf, _, ⟨-, rfl⟩,
      hli⟩, rfl⟩, hr⟩ := h
    have hi : profile.imageLimit ≤ 2 ^ 21 := by cases profile <;> decide
    obtain ⟨hc, hm, hcn, hb⟩ := ih ⟨hf, by dsimp only; omega⟩ hr
    dsimp only at hc hm hcn
    simp only [map_cons, sum_cons]
    exact ⟨by omega, by omega, by omega, hb⟩

theorem map_placesFrom {base : Nat} : (placesFrom base before inputs).map (·.input) = inputs := by
  induction inputs generalizing base before with
  | nil => rfl
  | cons m inputs ih => rw [placesFrom, map_cons, ih]

theorem sum_places (f : ValidatedPointerModule → Nat) (inputs : List ValidatedPointerModule) :
    ((places inputs).map fun p => f p.input).sum = (inputs.map f).sum := by
  calc ((places inputs).map fun p => f p.input).sum
      = (((places inputs).map (·.input)).map f).sum := by
        rw [List.map_map]
        rfl
    _ = (inputs.map f).sum := by rw [places, map_placesFrom]

theorem mem_of_places (hp : p ∈ places inputs) : p.input ∈ inputs := by
  have hm : p.input ∈ (places inputs).map (·.input) := mem_map_of_mem hp
  rwa [places, map_placesFrom] at hm

theorem length_manifestBytes (l : Nat) (frames : List FrameManifest) :
    (manifestBytes l frames).length = 32 + (frames.flatMap (·.bytes)).length := by
  simp only [manifestBytes, length_append, length_leBytes]

theorem length_flatMap_linkFrames (ps : List Place) :
    ((linkFrames ps).flatMap (·.bytes)).length =
      (ps.map fun p => (p.input.frames.flatMap (·.bytes)).length).sum := by
  have hs : ∀ base frame, (shiftFrame base frame).bytes.length = frame.bytes.length := by
    simp [FrameManifest.bytes, shiftFrame]
  rw [linkFrames, flatMap_assoc, length_flatMap]
  simp only [flatMap_map, length_flatMap, hs]

section Accepted

variable {profile : LinkProfile} {inputs : List ValidatedPointerModule}
  {g : LinkGeometry}

theorem places_of_geometry (hs : ∀ m ∈ inputs, m.Sound)
    (h : protectedGeometry inputs profile = ok g) :
    places inputs ≠ [] ∧ Ready (places inputs) ∧ g.code = ((places inputs).map Place.length).sum ∧
      g.frames = (inputs.map (·.frames.length)).sum ∧
      g.metadata = 32 + ((linkFrames (places inputs)).flatMap (·.bytes)).length := by
  simp only [protectedGeometry, eq_ok] at h
  obtain ⟨hne, -, -, hl⟩ := h
  obtain ⟨hc, hme, hf, hcn, hsi⟩ := geometry_eq_ok ⟨by decide, by decide⟩ hl
  dsimp only at hc hme hf
  rw [Nat.zero_add] at hc hf
  rw [← sum_places] at hc
  have hcn' := hf
  rw [← sum_places (fun m => m.frames.length)] at hcn'
  refine ⟨?_, ⟨fun p hp => hs _ (mem_of_places hp), running_placesFrom.1, running_placesFrom.2,
    ?_, ?_⟩, hc, hf, ?_⟩
  · intro hn
    have hma : (places inputs).map (·.input) = inputs := map_placesFrom
    rw [hn] at hma
    exact hne hma.symm
  · change ((places inputs).map fun p => p.input.code.length).sum ≤ 2 ^ 21
    omega
  · change ((places inputs).map fun p => p.input.frames.length).sum ≤ 4096
    omega
  · -- The read-only data of a module is its manifest.
    have hr : inputs.map (fun m => m.module.rodata.length - 32) =
        inputs.map fun m => (m.frames.flatMap (·.bytes)).length := by
      refine map_congr_left fun m hm => ?_
      obtain ⟨hb, -⟩ := (parseManifest_eq_ok (hs m hm).code_lt).mp (hs m hm).manifest
      rw [hb, length_manifestBytes, Nat.add_sub_cancel_left]
    rw [hme, hr, length_flatMap_linkFrames, sum_places fun m => (m.frames.flatMap (·.bytes)).length]

theorem parseManifest_of_fromImage {code m : List UInt8} {pr : ValidatedPointerProgram}
    (h : ValidatedPointerProgram.fromImage code m = ok (some pr)) :
    ValidatedPointerProgram.parseManifest code m = ok pr.frames := by
  unfold fromImage at h
  split at h
  · cases h
  simp only [bind_eq_ok] at h
  obtain ⟨first, -, h⟩ := h
  split at h
  · cases h
  simp only [eq_ok, validate, some.injEq] at h
  obtain ⟨frames, hp, _, ⟨-, hv⟩, rfl⟩ := h
  split at hv
  · cases hv
    exact hp
  · cases hv

theorem passes_iff (h : Ready ps) (ht : Holds t (exportsOf ps)) {code : List UInt8}
    {frames : List FrameManifest} (hc : code.length = (ps.map Place.length).sum)
    (hf : frames.length = (ps.map Place.count).sum) :
    (∀ p ∈ ps, Passes t.exportsAt code frames p) ↔
      linkFrames ps = frames ∧ Assembled ps code ∧ Resolved ps := by
  have hwo : (∀ p ∈ ps, ∀ i < p.length / 8,
      checkWord t.exportsAt code p.input.module p.base p.before i = ok ()) ↔
        Assembled ps code ∧ Resolved ps := by
    constructor
    · intro hpa
      have hw : ∀ p ∈ ps, ∀ i, i * 8 + 8 ≤ p.length → _ := fun p hp i hi =>
        (checkWord_eq_ok h ht hc hp hi).mp (hpa p hp i (by omega))
      refine ⟨⟨hc, fun p hp i hi => (hw p hp i hi).1⟩, fun p hp offset imported him => ?_⟩
      obtain ⟨r, hr, rfl⟩ := importAt_eq_some him
      have hs := (h.sound p hp).relocations r hr
      obtain ⟨i, hi⟩ : ∃ i, r.offset = i * 8 := ⟨r.offset / 8, by have := hs.aligned; omega⟩
      have hl : r.offset + 8 ≤ p.length := hs.le
      exact (hw p hp i (by omega)).2 imported (hi ▸ him)
    · rintro ⟨ha, hrs⟩ p hp i hi
      have hi : i * 8 + 8 ≤ p.length := by omega
      exact (checkWord_eq_ok h ht hc hp hi).mpr
        ⟨ha.word p hp i hi, fun imported => hrs p hp _ imported⟩
  rw [linkFrames, h.befores.flatMap_eq_iff fun p _ => length_map _, ← hwo]
  simp only [Passes, hf, true_and, forall_and]

/-- The check, once the geometry is accepted. -/
theorem validate_eq_ok (hso : ∀ m ∈ inputs, m.Sound)
    (hg : protectedGeometry inputs profile = ok g) {i : AnkaldLinkedImage} :
    validateProtectedLinkProfile inputs i profile = ok () ↔
      Linkable profile inputs ∧ i = referenceLink inputs := by
  obtain ⟨hn, hr, hco, hf, hme⟩ := places_of_geometry hso hg
  have hsu : g.frames = ((places inputs).map Place.count).sum :=
    hf.trans (sum_places (fun m => m.frames.length) inputs).symm
  obtain ⟨hh, hex⟩ := exportTable_eq_ok inputs
  simp only [validateProtectedLinkProfile, hg, ok_bind, eq_ok, pure_eq]
  constructor
  · rintro ⟨⟨hcd, hlt, hen, hle, hsl⟩, _, hp, pr, rfl, hc,
      t, hta, s, hs, hma, _, _, hm, -⟩
    have ht := hh t hta
    have htk : (i.bytes.take g.code).length = g.code := by
      rw [length_take]
      omega
    have hpa := (checkModules_eq_ok (by rw [hc, hf, Nat.zero_add])).mp ⟨_, hm⟩
    obtain ⟨hli, ha, hrs⟩ := (passes_iff hr ht (htk.trans hco) (hc.trans hsu)).mp hpa
    refine ⟨⟨⟨g, hg⟩, ht.distinct.2, ⟨s, (ht.get 0 s).mp hs, hma⟩, hrs⟩, ?_⟩
    have hsi := hr.size
    have hb := ((parseManifest_eq_ok (by omega)).mp (parseManifest_of_fromImage hp)).1
    have hln := (assembled_iff hr).mp ha
    have hlin : (linkedCode (places inputs)).length = g.code := by rw [hln, htk]
    have hw : i.bytes = linkedCode (places inputs) ++
        manifestBytes g.code (linkFrames (places inputs)) := by
      rw [hli, ← htk, ← hb, hln, take_append_drop]
    obtain ⟨b, c, l, en, sl⟩ := i
    simp only [referenceLink, AnkaldLinkedImage.mk.injEq, hlin]
    exact ⟨hw, hcd, hlt, hen, hsl⟩
  · rintro ⟨hl, rfl⟩
    have ha := (assembled_iff hr).mpr rfl
    have hle : (linkedCode (places inputs)).length = g.code := ha.length.trans hco.symm
    obtain ⟨pr, hp, hli⟩ := fromImage_linked hr hn hl.resolved ha
    obtain ⟨t, hta⟩ := hex ⟨hr.addresses_nodup, hl.names⟩
    have ht := hh t hta
    obtain ⟨s, hs, hma⟩ := hl.main
    have hc : pr.frames.length = g.frames := by rw [hli, length_linkFrames, hsu]
    have hpa := (passes_iff hr ht (hle.trans hco) (hc.trans hsu)).mpr ⟨hli.symm, ha, hl.resolved⟩
    obtain ⟨r, hm⟩ := (checkModules_eq_ok (by rw [hc, hf, Nat.zero_add])).mpr hpa
    have htk : (referenceLink inputs).bytes.take g.code = linkedCode (places inputs) :=
      take_left' hle
    have hd : (referenceLink inputs).bytes.drop g.code =
        manifestBytes (linkedCode (places inputs)).length (linkFrames (places inputs)) :=
      drop_left' hle
    rw [htk, hd]
    refine ⟨⟨hle, hle, rfl, ?_, rfl⟩, _, hp, pr, rfl, hc, t, hta, s,
      (ht.get 0 s).mpr hs, hma, r.1, r.2, hm, trivial⟩
    rw [referenceLink, length_append, length_manifestBytes, hle, hme]

end Accepted

/-- **The link check accepts exactly the reference link.** For every list of validated modules the
check accepts an image exactly when the modules can be linked under the profile and the image is
their reference link. It therefore accepts at most one image, the loader of protected programs
accepts that image, and the modules of an accepted link agree on the types of what they import and
declare. -/
theorem protected_link_exact (profile : LinkProfile) (inputs : List ValidatedPointerModule)
    (hvalid : ∀ m ∈ inputs, ∃ bytes limit,
      ValidatedPointerModule.fromAomWithLimit bytes limit = ok m) :
    (∀ image, validateProtectedLinkProfile inputs image profile = ok () ↔
      Linkable profile inputs ∧ image = referenceLink inputs) ∧
    (∀ image image', validateProtectedLinkProfile inputs image profile = ok () →
      validateProtectedLinkProfile inputs image' profile = ok () → image = image') ∧
    (∀ image, validateProtectedLinkProfile inputs image profile = ok () →
      ∃ program, ValidatedPointerProgram.fromImage (image.bytes.take image.codeSize)
        (image.bytes.drop image.codeSize) = ok (some program)) ∧
    (∀ image, validateProtectedLinkProfile inputs image profile = ok () →
      TypesAgree (inputs.map (·.module))) := by
  have hs : ∀ m ∈ inputs, m.Sound := fun m hm => by
    obtain ⟨bytes, limit, hm⟩ := hvalid m hm
    exact ValidatedPointerModule.fromAomWithLimit_sound hm
  have hex : ∀ image, validateProtectedLinkProfile inputs image profile = ok () ↔
      Linkable profile inputs ∧ image = referenceLink inputs := by
    intro image
    constructor
    · intro h
      obtain ⟨g, hg, -⟩ := bind_eq_ok.mp h
      exact (validate_eq_ok hs hg).mp h
    · intro h
      obtain ⟨g, hg⟩ := h.1.geometry
      exact (validate_eq_ok hs hg).mpr h
  refine ⟨hex, fun image image' h h' => ?_, fun image h => ?_, fun image h => ?_⟩
  · rw [((hex image).mp h).2, ((hex image').mp h').2]
  · simp only [validateProtectedLinkProfile, eq_ok] at h
    obtain ⟨g, -, ⟨hc, -⟩, _, hp, program, rfl, -⟩ := h
    rw [hc]
    exact ⟨program, hp⟩
  · obtain ⟨g, hg⟩ := ((hex image).mp h).1.geometry
    simp only [protectedGeometry, eq_ok] at hg
    exact validateLinkModules_agree hg.2.2.1

/-! ## Two modules -/

/-- A symbol as an object module stores it. -/
def symbolBytes (s : AomSymbol) : List UInt8 :=
  leBytes 8 (asBytes s.name).length ++ asBytes s.name ++
    List.replicate (64 - (asBytes s.name).length) 0 ++
    [s.binding, s.kind, s.inSection, s.value, s.size, s.returnType, 0, 0, 0, 0, 0].flatMap
      (leBytes 8)

/-- A relocation as an object module stores it. -/
def relocationBytes (r : AomRelocation) : List UInt8 :=
  [r.inSection, r.offset, r.width, r.kind, r.symbolIndex, asU64 r.addend].flatMap (leBytes 8)

/-- The object module of one function without locals and parameters. -/
def objectOf (words : List (BitVec 32)) (exits : List Nat) (symbols : List AomSymbol)
    (relocations : List AomRelocation) : ValidatedPointerModule :=
  let code := Asm64.toBytes (words.flatMap fun w => [w, Asm64.nop])
  let frames : List FrameManifest :=
    [{ entry := 0, stop := code.length, size := 16, exits, locals := [] }]
  let rodata := manifestBytes code.length frames
  let symbolOffset := AOM_HEADER_SIZE + code.length + rodata.length
  let relocationOffset := symbolOffset + symbols.length * AOM_SYMBOL_SIZE
  let header : AomHeader := {
    totalSize := relocationOffset + relocations.length * AOM_RELOCATION_SIZE
    codeOffset := AOM_HEADER_SIZE
    codeSize := code.length
    codeAlign := 8
    rodataOffset := AOM_HEADER_SIZE + code.length
    rodataSize := rodata.length
    rodataAlign := 8
    symbolOffset
    symbolCount := symbols.length
    relocationOffset
    relocationCount := relocations.length }
  { bytes := AOM_MAGIC ++ [AOM_VERSION, AOM_HEADER_SIZE, header.totalSize, header.codeOffset,
        header.codeSize, header.codeAlign, header.rodataOffset, header.rodataSize,
          header.rodataAlign,
        header.symbolOffset, header.symbolCount, header.relocationOffset,
        header.relocationCount].flatMap (leBytes 8) ++
      code ++ rodata ++ symbols.flatMap symbolBytes ++ relocations.flatMap relocationBytes
    module := { interface := [], header, code, rodata, symbols, relocations }
    frames }

/-- A function that is exported at address 0 of its module. -/
def exported (name : String) : AomSymbol :=
  ⟨name, AOM_BINDING_EXPORT, AOM_SYMBOL_FUNCTION, AOM_SECTION_CODE, 0, 0, 1, []⟩

/-- PFRAME, PUNFRAME and RET under a name. -/
def leafModule (name : String) : ValidatedPointerModule :=
  objectOf [encodeS 0x2C 0, encodeS 0x2E 0, encodeS 0x38 0] [8] [exported name] []

/-- `main` with a CALL of an imported `leaf`. -/
def callerModule : ValidatedPointerModule :=
  objectOf [encodeS 0x2C 0, Asm64.call 0, encodeS 0x2E 0, encodeS 0x38 0] [16]
    [exported "main",
      ⟨"leaf", AOM_BINDING_IMPORT, AOM_SYMBOL_FUNCTION, AOM_SECTION_UNDEFINED, 0, 0, 1, []⟩]
    [⟨AOM_SECTION_CODE, 8, 8, AOM_RELOC_CALL_PC20, 1, 0⟩]

theorem callerModule_valid :
    ValidatedPointerModule.fromAomWithLimit callerModule.bytes 1024 = ok callerModule := by
  decide +kernel

theorem leafModule_valid : ValidatedPointerModule.fromAomWithLimit
    (leafModule "leaf").bytes 1024 = ok (leafModule "leaf") := by
  decide +kernel

/-- The two modules link: the check accepts their reference link and no other image. -/
theorem caller_and_leaf_link :
    Linkable .application [callerModule, leafModule "leaf"] ∧
      (∀ image, validateProtectedLinkProfile [callerModule, leafModule "leaf"] image
        .application = ok () → image = referenceLink [callerModule, leafModule "leaf"]) ∧
      ∃ program, ValidatedPointerProgram.fromImage
        (linkedCode (places [callerModule, leafModule "leaf"]))
        ((referenceLink [callerModule, leafModule "leaf"]).bytes.drop 56) = ok (some program) := by
  obtain ⟨hex, -, hp, -⟩ := protected_link_exact .application
    [callerModule, leafModule "leaf"] (by
      simp only [forall_mem_cons, not_mem_nil, IsEmpty.forall_iff, implies_true, and_true]
      exact ⟨⟨_, 1024, callerModule_valid⟩, ⟨_, 1024, leafModule_valid⟩⟩)
  have ha : validateProtectedLinkProfile [callerModule, leafModule "leaf"]
      (referenceLink [callerModule, leafModule "leaf"]) .application = ok () := by decide +kernel
  refine ⟨((hex _).mp ha).1, fun image h => ((hex image).mp h).2, ?_⟩
  have ht : (referenceLink [callerModule, leafModule "leaf"]).bytes.take
      (referenceLink [callerModule, leafModule "leaf"]).codeSize =
        linkedCode (places [callerModule, leafModule "leaf"]) := take_left' rfl
  have hs : (referenceLink [callerModule, leafModule "leaf"]).codeSize = 56 := by decide +kernel
  obtain ⟨program, h⟩ := hp _ ha
  rw [ht, hs] at h
  exact ⟨program, h⟩

/-- A validated module without relocations has a reference link, but the check rejects it if the
export at address 0 is not called `main`. -/
theorem leaf_without_main_rejected :
    ValidatedPointerModule.fromAomWithLimit (leafModule "leaf").bytes 1024 =
        ok (leafModule "leaf") ∧
      Resolved (places [leafModule "leaf"]) ∧
      validateProtectedLinkProfile [leafModule "leaf"] (referenceLink [leafModule "leaf"])
        .application = err .invalidProtectedResult := by
  refine ⟨leafModule_valid, fun p hp offset imported hi => ?_, by decide +kernel⟩
  obtain rfl : p = ⟨leafModule "leaf", 0, 0⟩ := mem_singleton.mp hp
  obtain ⟨r, hr, -⟩ := importAt_eq_some hi
  exact absurd hr not_mem_nil

end Link

end Anka
