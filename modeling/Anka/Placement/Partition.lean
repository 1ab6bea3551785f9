import Anka.Lib.Tiling
import Anka.Placement

/-!
# A pool divided into free and held extents

Both managers keep a sorted free list and a table of held extents, and both mean one tiling of the
pool by them: the free list is the tiling's holes in order, the table is its holdings, in any order
(`Divides`).

* What that says about the two tables: `Divides.disjoint`, `Divides.covers`, `Divides.valid`,
  `Divides.free_apart`, `Divides.length_free_le`, `Divides.free_eq_pool` and `Divides.sizes`.
* `Divides.free_determined`: the free list is a function of the held extents, so an admission that
  is undone leaves the free list it found.
* `Divides.carve`: both managers admit a request by cutting it off the front of a hole.
* `Divides.give_back`: a held extent has a `Place` in the free list, between the holes that touch it
  and the others; with the merged hole in that place the pool is divided again. The managers find
  the place and merge in their own ways.
-/

namespace Anka

open Rust Res Tiling List Option

/-- Two extents share no address. -/
def Extent.Disjoint (x y : Extent) : Prop :=
  x.base + x.size ≤ y.base ∨ y.base + y.size ≤ x.base

variable {e : Extent}

theorem endAddr_eq_some {n : Nat} :
    e.endAddr = some n ↔ e.base + e.size ≤ u64Max ∧ e.base + e.size = n := checkedAdd_eq_some

theorem validExtent_iff : validExtent e = true ↔
    0 < e.size ∧ pageSize ∣ e.base ∧ pageSize ∣ e.size ∧ e.base + e.size ≤ u64Max := by
  simp only [validExtent, isPageAligned, Extent.endAddr, Bool.and_eq_true, bne_iff_ne, ne_eq,
    beq_iff_eq, isSome_iff_exists, checkedAdd_eq_some, exists_and_left, exists_eq',
    and_true, Nat.dvd_iff_mod_eq_zero, Nat.pos_iff_ne_zero, and_assoc]

namespace Placement

variable {κ : Type}

/-- The extent of a tile. -/
def extentOf (t : Tile κ) : Extent := ⟨t.base, t.size⟩

/-- The holder and the extent of a holding. -/
def holdingOf (t : Tile κ) : Option (κ × Extent) := t.key.map fun key => (key, extentOf t)

/-- The free list and the held extents are the holes and the holdings of one tiling of the pool. -/
structure Partition (pool : Extent) (free : List Extent) (held : List (κ × Extent))
    (tiles : List (Tile κ)) : Prop where
  layout : Layout pageSize pool.base (pool.base + pool.size) tiles
  free_eq : free = (holes tiles).map extentOf
  held_perm : held.Perm (tiles.filterMap holdingOf)

/-- The free list and the held extents divide the pool. -/
structure Divides (pool : Extent) (free : List Extent) (held : List (κ × Extent)) : Prop where
  pool_valid : validExtent pool = true
  partition : ∃ tiles, Partition pool free held tiles

variable {pool : Extent} {free : List Extent} {held held' : List (κ × Extent)}
  {tiles : List (Tile κ)} {t : Tile κ} {key : κ}

theorem holdingOf_eq_some : holdingOf t = some (key, e) ↔ t = ⟨e.base, e.size, some key⟩ := by
  obtain ⟨base, size, key'⟩ := t
  cases key' with
  | none => simp [holdingOf]
  | some key' =>
    simp only [holdingOf, map_some, some.injEq, Prod.mk.injEq, Tile.mk.injEq]
    constructor
    · rintro ⟨rfl, rfl⟩
      exact ⟨rfl, rfl, rfl⟩
    · rintro ⟨rfl, rfl, rfl⟩
      exact ⟨rfl, rfl⟩

theorem holdingOf_eq_none (h : t.key = none) : holdingOf t = none := by
  simp [holdingOf, h]

/-! ## What a division says -/

theorem map_snd_holdings (tiles : List (Tile κ)) :
    (tiles.filterMap holdingOf).map Prod.snd = (holdings tiles).map extentOf := by
  induction tiles with
  | nil => rfl
  | cons t l ih =>
    cases hk : t.key with
    | none => rw [filterMap_cons_none (holdingOf_eq_none hk), holdings_cons_of_hole hk, ih]
    | some key =>
      have hh : holdingOf t = some (key, extentOf t) := by simp [holdingOf, hk]
      rw [filterMap_cons_some hh, holdings_cons_of_held (by simp [hk]), map_cons, map_cons, ih]

theorem Partition.held_extents (h : Partition pool free held tiles) :
    (held.map Prod.snd).Perm ((holdings tiles).map extentOf) := by
  rw [← map_snd_holdings]
  exact h.held_perm.map Prod.snd

theorem Partition.extents (h : Partition pool free held tiles) :
    (free ++ held.map Prod.snd).Perm (tiles.map extentOf) := by
  have hs : (holes tiles ++ holdings tiles).Perm tiles := by
    simpa [holes, holdings] using filter_append_perm (fun t : Tile κ => t.key.isNone) tiles
  rw [h.free_eq]
  refine (h.held_extents.append_left _).trans ?_
  rw [← map_append]
  exact hs.map extentOf

section

variable (h : Divides pool free held)
include h

theorem Divides.disjoint : (free ++ held.map Prod.snd).Pairwise Extent.Disjoint := by
  obtain ⟨tiles, hp⟩ := h.partition
  have hs : ∀ {x y : Extent}, x.Disjoint y → y.Disjoint x := fun hx => hx.symm
  rw [hp.extents.pairwise_iff hs, pairwise_map]
  exact hp.layout.tiles.pairwise.imp fun hl => .inl hl

theorem Divides.covers (n : Nat) :
    pool.base ≤ n ∧ n < pool.base + pool.size ↔
      ∃ e ∈ free ++ held.map Prod.snd, e.base ≤ n ∧ n < e.base + e.size := by
  obtain ⟨tiles, hp⟩ := h.partition
  have hti := hp.layout.tiles
  constructor
  · rintro ⟨hl, hh⟩
    obtain ⟨t, ht, hi⟩ := hti.covers hl hh
    exact ⟨extentOf t, hp.extents.mem_iff.mpr (mem_map_of_mem ht), hi⟩
  · rintro ⟨e, he, hl, hh⟩
    obtain ⟨t, ht, rfl⟩ := mem_map.mp (hp.extents.mem_iff.mp he)
    obtain ⟨hb, -, hs⟩ := hti.bounds ht
    exact ⟨Nat.le_trans hb hl, Nat.lt_of_lt_of_le hh hs⟩

theorem Divides.inside (he : e ∈ free ++ held.map Prod.snd) :
    pool.base ≤ e.base ∧ e.base + e.size ≤ pool.base + pool.size := by
  obtain ⟨tiles, hp⟩ := h.partition
  obtain ⟨t, ht, rfl⟩ := mem_map.mp (hp.extents.mem_iff.mp he)
  obtain ⟨hb, -, hs⟩ := hp.layout.tiles.bounds ht
  exact ⟨hb, hs⟩

theorem Divides.valid (he : e ∈ free ++ held.map Prod.snd) : validExtent e = true := by
  obtain ⟨-, -, -, hen⟩ := validExtent_iff.mp h.pool_valid
  have hi := (h.inside he).2
  obtain ⟨tiles, hp⟩ := h.partition
  obtain ⟨t, ht, rfl⟩ := mem_map.mp (hp.extents.mem_iff.mp he)
  obtain ⟨hb, hg⟩ := hp.layout.grid t ht
  exact validExtent_iff.mpr ⟨(hp.layout.tiles.bounds ht).2.1, hb, hg, Nat.le_trans hi hen⟩

theorem Divides.free_apart : free.Pairwise fun x y => x.base + x.size < y.base := by
  obtain ⟨tiles, hp⟩ := h.partition
  rw [hp.free_eq, pairwise_map]
  exact hp.layout.holes_apart

theorem Divides.length_free_le : free.length ≤ held.length + 1 := by
  obtain ⟨tiles, hp⟩ := h.partition
  have hl : held.length = (holdings tiles).length := by
    simpa using hp.held_extents.length_eq
  rw [hp.free_eq, length_map, hl]
  exact hp.layout.length_holes_le

end

theorem Divides.free_eq_pool (h : Divides pool free ([] : List (κ × Extent))) : free = [pool] := by
  obtain ⟨tiles, hp⟩ := h.partition
  have hn : holdings tiles = [] := by
    simpa using hp.held_extents.length_eq.symm
  obtain ⟨hs, -⟩ := validExtent_iff.mp h.pool_valid
  rw [hp.free_eq, hp.layout.eq_hole (by omega) hn]
  simp [holes, extentOf]

theorem Divides.sizes (h : Divides pool free held) :
    (free.map Extent.size).sum + (held.map fun x => x.2.size).sum = pool.size := by
  obtain ⟨tiles, hp⟩ := h.partition
  have hs : ((free ++ held.map Prod.snd).map Extent.size).sum =
      ((tiles.map extentOf).map Extent.size).sum := (hp.extents.map _).sum_eq
  have ht : pool.base + (tiles.map fun t => t.size).sum = pool.base + pool.size :=
    hp.layout.tiles.sum_size
  rw [List.map_append, List.sum_append, List.map_map, List.map_map] at hs
  simp only [Function.comp_def, extentOf] at hs
  omega

theorem divides_pool (hp : validExtent pool = true) :
    Divides pool [pool] ([] : List (κ × Extent)) := by
  obtain ⟨hs, hb, hpa, -⟩ := validExtent_iff.mp hp
  refine ⟨hp, [⟨pool.base, pool.size, none⟩], ⟨⟨rfl, hs, rfl⟩, ?_, .singleton _⟩, rfl, .refl _⟩
  intro t ht
  obtain rfl := mem_singleton.mp ht
  exact ⟨hb, hpa⟩

theorem Divides.perm (h : Divides pool free held) (hpe : held'.Perm held) :
    Divides pool free held' := by
  obtain ⟨tiles, hp⟩ := h.partition
  exact ⟨h.pool_valid, tiles, hp.layout, hp.free_eq, hpe.trans hp.held_perm⟩

/-! ## The held extents determine the free list -/

/-- The address lies in one of the extents. -/
def Covered (X : List Extent) (n : Nat) : Prop := ∃ x ∈ X, x.base ≤ n ∧ n < x.base + x.size

section Covered

variable {x y : Extent} {X Y : List Extent}

theorem head_base_le (hp : 0 < x.size) (hY : ∀ z ∈ Y, y.base + y.size < z.base)
    (hs : ∀ n, Covered (x :: X) n → Covered (y :: Y) n) : y.base ≤ x.base := by
  obtain ⟨z, hz, hl, -⟩ := hs x.base ⟨x, by simp, Nat.le_refl _, by omega⟩
  rcases mem_cons.mp hz with rfl | hz
  · exact hl
  · have := hY z hz
    omega

theorem head_size_le (hb : x.base = y.base) (hX : ∀ z ∈ X, x.base + x.size < z.base)
    (hs : ∀ n, Covered (y :: Y) n → Covered (x :: X) n) : y.size ≤ x.size := by
  by_contra hlt
  obtain ⟨z, hz, hl, hh⟩ := hs (x.base + x.size) ⟨y, by simp, by omega, by omega⟩
  rcases mem_cons.mp hz with rfl | hz
  · omega
  · have := hX z hz
    omega

theorem covered_tail (hX : ∀ z ∈ X, x.base + x.size < z.base)
    (hs : ∀ n, Covered (x :: X) n → Covered (x :: Y) n) (n : Nat) (h : Covered X n) :
    Covered Y n := by
  obtain ⟨z, hz, hl, hh⟩ := h
  have ha := hX z hz
  obtain ⟨v, hv, hvl, hvh⟩ := hs n ⟨z, mem_cons_of_mem x hz, hl, hh⟩
  rcases mem_cons.mp hv with rfl | hv
  · omega
  · exact ⟨v, hv, hvl, hvh⟩

theorem apart_unique (hX : X.Pairwise fun x y => x.base + x.size < y.base)
    (hY : Y.Pairwise fun x y => x.base + x.size < y.base) (hXpos : ∀ x ∈ X, 0 < x.size)
    (hYpos : ∀ y ∈ Y, 0 < y.size) (hs : ∀ n, Covered X n ↔ Covered Y n) : X = Y := by
  induction X generalizing Y with
  | nil =>
    cases Y with
    | nil => rfl
    | cons y Y =>
      have hp := hYpos y (by simp)
      obtain ⟨x, hx, -⟩ := (hs y.base).mpr ⟨y, by simp, Nat.le_refl _, by omega⟩
      cases hx
  | cons x X ih =>
    cases Y with
    | nil =>
      have hp := hXpos x (by simp)
      obtain ⟨y, hy, -⟩ := (hs x.base).mp ⟨x, by simp, Nat.le_refl _, by omega⟩
      cases hy
    | cons y Y =>
      obtain ⟨hxX, hXapart⟩ := pairwise_cons.mp hX
      obtain ⟨hyY, hYapart⟩ := pairwise_cons.mp hY
      have ht : ∀ n, Covered (x :: X) n → Covered (y :: Y) n := fun n => (hs n).mp
      have hf : ∀ n, Covered (y :: Y) n → Covered (x :: X) n := fun n => (hs n).mpr
      have hb : x.base = y.base := Nat.le_antisymm
        (head_base_le (hYpos y (by simp)) hxX hf) (head_base_le (hXpos x (by simp)) hyY ht)
      have hsi : x.size = y.size := Nat.le_antisymm (head_size_le hb.symm hyY ht)
        (head_size_le hb hxX hf)
      obtain rfl : x = y := by
        cases x
        cases y
        simp_all
      have hta := ih hXapart hYapart (fun z hz => hXpos z (by simp [hz]))
        (fun z hz => hYpos z (by simp [hz]))
        fun n => ⟨covered_tail hxX ht n, covered_tail hyY hf n⟩
      rw [hta]

end Covered

theorem Divides.free_iff (h : Divides pool free held) (n : Nat) :
    Covered free n ↔ (pool.base ≤ n ∧ n < pool.base + pool.size) ∧
      ¬ Covered (held.map Prod.snd) n := by
  obtain ⟨-, -, hd⟩ := pairwise_append.mp h.disjoint
  constructor
  · rintro ⟨x, hx, hi⟩
    refine ⟨(h.covers n).mpr ⟨x, mem_append_left _ hx, hi⟩, ?_⟩
    rintro ⟨y, hy, hyi⟩
    have := hd x hx y hy
    unfold Extent.Disjoint at this
    omega
  · rintro ⟨hp, hn⟩
    obtain ⟨e, he, hi⟩ := (h.covers n).mp hp
    rcases mem_append.mp he with he | he
    · exact ⟨e, he, hi⟩
    · exact absurd ⟨e, he, hi⟩ hn

/-- **The held extents determine the free list**, whoever holds them. -/
theorem Divides.free_determined {κ' : Type} {free' : List Extent} {held' : List (κ' × Extent)}
    (h : Divides pool free held) (h' : Divides pool free' held')
    (hh : held.map Prod.snd ~ held'.map Prod.snd) : free = free' := by
  refine apart_unique h.free_apart h'.free_apart
    (fun x hx => (validExtent_iff.mp (h.valid (mem_append_left _ hx))).1)
    (fun x hx => (validExtent_iff.mp (h'.valid (mem_append_left _ hx))).1) fun n => ?_
  rw [h.free_iff, h'.free_iff]
  simp only [Covered, hh.mem_iff]

/-! ## Cutting a request off a hole -/

theorem Partition.hole (h : Partition pool free held tiles) {i : Nat} (he : free[i]? = some e) :
    ∃ L t R, tiles = L ++ t :: R ∧ t.key = none ∧ extentOf t = e ∧ (holes L).length = i := by
  rw [h.free_eq, getElem?_map, map_eq_some_iff] at he
  obtain ⟨t, ht, rfl⟩ := he
  obtain ⟨hlt, heq⟩ := List.getElem?_eq_some_iff.mp ht
  have hs : holes tiles = (holes tiles).take i ++ t :: (holes tiles).drop (i + 1) := by
    rw [← heq, cons_getElem_drop_succ, take_append_drop]
  obtain ⟨L1, L2, rfl, hL1, hL2⟩ := filter_eq_append_iff.mp hs
  obtain ⟨M, R, rfl, hM, hk, -⟩ := filter_eq_cons_iff.mp hL2
  refine ⟨L1 ++ M, t, R, (append_assoc ..).symm, by simpa using hk, rfl, ?_⟩
  have hn : holes M = [] := filter_eq_nil_iff.mpr hM
  have hl : (holes L1).length = i := by
    rw [holes, hL1, length_take]
    exact Nat.min_eq_left (Nat.le_of_lt hlt)
  rw [holes_append, hn, append_nil, hl]

/-- The free list after `n` bytes are cut off the front of hole `i`. -/
def cut (free : List Extent) (i : Nat) (e : Extent) (n : Nat) : List Extent :=
  if n < e.size then free.set i ⟨e.base + n, e.size - n⟩ else free.eraseIdx i

theorem Divides.carve (h : Divides pool free held) {i n : Nat} (key : κ) (he : free[i]? = some e)
    (hn : 0 < n) (hp : pageSize ∣ n) (hle : n ≤ e.size) :
    Divides pool (cut free i e n) ((key, ⟨e.base, n⟩) :: held) := by
  obtain ⟨tiles, hpa⟩ := h.partition
  obtain ⟨L, t, R, rfl, hk, rfl, hi⟩ := hpa.hole he
  refine ⟨h.pool_valid, _, hpa.layout.carve key hk hn hp hle, ?_, ?_⟩
  · have hfr : free = (holes L).map extentOf ++ extentOf t :: (holes R).map extentOf := by
      rw [hpa.free_eq, holes_append, holes_cons_of_hole hk, map_append, map_cons]
    have hln : i = ((holes L).map extentOf).length := by simp [hi]
    rw [cut, hfr, hln, holes_append, holes_append, map_append, map_append, carved,
      holes_cons_of_held (some_ne_none _)]
    by_cases hl : n < t.size
    · simp [holes, extentOf, hl]
    · simp [holes, extentOf, hl, eraseIdx_append_of_length_le]
  · have hf : holdingOf ⟨t.base, n, some key⟩ = some (key, ⟨t.base, n⟩) := rfl
    have hne : (carved t n key).filterMap holdingOf = [(key, ⟨t.base, n⟩)] := by
      unfold carved
      rw [filterMap_cons_some hf]
      split <;> simp [holdingOf]
    refine (hpa.held_perm.cons _).trans ?_
    rw [filterMap_append, filterMap_append, filterMap_append, hne,
      filterMap_cons_none (holdingOf_eq_none hk)]
    exact perm_middle.symm

/-! ## The place of a held extent in the free list -/

/-- The place of an extent in a free list: the holes before it, the one that touches it on either
side if there is one, and the holes after it. -/
structure Place (A : List Extent) (l : Option Extent) (e : Extent) (r : Option Extent)
    (B : List Extent) : Prop where
  before : ∀ x ∈ A, x.base + x.size < e.base
  left : ∀ x ∈ l, 0 < x.size ∧ x.base + x.size = e.base
  right : ∀ x ∈ r, x.base = e.base + e.size
  after : ∀ x ∈ B, e.base + e.size < x.base
  fits : ∀ x ∈ A ++ l.toList ++ (r.toList ++ B), x.base + x.size ≤ u64Max
  fits_self : e.base + e.size ≤ u64Max

namespace Place

variable {A B : List Extent} {l r : Option Extent} {e x : Extent} (h : Place A l e r B)
include h

theorem base_lt (hx : x ∈ A ++ l.toList) : x.base < e.base := by
  rcases mem_append.mp hx with hx | hx
  · have := h.before x hx
    omega
  · have := h.left x (mem_toList.mp hx)
    omega

theorem end_le (hx : x ∈ r.toList ++ B) : e.base + e.size ≤ x.base := by
  rcases mem_append.mp hx with hx | hx
  · exact (h.right x (mem_toList.mp hx)).ge
  · exact Nat.le_of_lt (h.after x hx)

theorem left_le : (l.map Extent.base).getD e.base ≤ e.base := by
  cases l with
  | none => exact Nat.le_refl _
  | some y => exact Nat.le_of_lt (h.base_lt (by simp))

theorem endAddr (hx : x ∈ A ++ l.toList ++ (r.toList ++ B)) : x.endAddr = some (x.base + x.size) :=
  endAddr_eq_some.mpr ⟨h.fits x hx, rfl⟩

end Place

/-- The extent and the holes that touch it as one hole. -/
def merge (l : Option Extent) (e : Extent) (r : Option Extent) : Extent :=
  let base := (l.map Extent.base).getD e.base
  ⟨base, (r.map fun x => x.base + x.size).getD (e.base + e.size) - base⟩

theorem merge_eq_joined (l r : Option (Tile κ)) (t : Tile κ) :
    merge (l.map extentOf) (extentOf t) (r.map extentOf) = extentOf (joined l t r) := by
  cases l <;> cases r <;> rfl

theorem toList_map_extentOf (o : Option (Tile κ)) :
    (o.map extentOf).toList = o.toList.map extentOf := by
  cases o <;> rfl

section Around

variable {L R : List (Tile κ)} {l r : Option (Tile κ)} {t : Tile κ}

theorem place_of_around (hp : validExtent pool = true)
    (h : Around pageSize pool.base (pool.base + pool.size) L l t r R) :
    Place ((holes L).map extentOf) (l.map extentOf) (extentOf t) (r.map extentOf)
      ((holes R).map extentOf) := by
  obtain ⟨-, -, -, hen⟩ := validExtent_iff.mp hp
  have hf : ∀ u ∈ L ++ (l.toList ++ t :: (r.toList ++ R)), u.base + u.size ≤ u64Max :=
    fun u hu => Nat.le_trans (h.layout.tiles.bounds hu).2.2 hen
  refine ⟨?_, ?_, ?_, ?_, ?_, hf t (by simp)⟩
  · intro x hx
    obtain ⟨u, hu, rfl⟩ := mem_map.mp hx
    exact h.left_apart hu
  · intro x hx
    obtain ⟨u, rfl, rfl⟩ := map_eq_some_iff.mp hx
    exact ⟨(h.layout.tiles.bounds (by simp)).2.1, h.left_touches⟩
  · intro x hx
    obtain ⟨u, rfl, rfl⟩ := map_eq_some_iff.mp hx
    exact h.right_touches
  · intro x hx
    obtain ⟨u, hu, rfl⟩ := mem_map.mp hx
    exact h.right_apart hu
  · intro x hx
    rw [toList_map_extentOf, toList_map_extentOf, ← map_append, ← map_append, ← map_append] at hx
    obtain ⟨u, hu, rfl⟩ := mem_map.mp hx
    refine hf u ?_
    simp only [mem_append, mem_holes] at hu ⊢
    grind

theorem Partition.free_around
    (h : Partition pool free held (L ++ (l.toList ++ t :: (r.toList ++ R))))
    (ha : Around pageSize pool.base (pool.base + pool.size) L l t r R) (hh : t.key ≠ none) :
    free = (holes L).map extentOf ++ (l.map extentOf).toList ++
      ((r.map extentOf).toList ++ (holes R).map extentOf) := by
  have hl : holes l.toList = l.toList := filter_eq_self.mpr fun x hx => by
    simp [ha.left x (mem_toList.mp hx)]
  have hr : holes r.toList = r.toList := filter_eq_self.mpr fun x hx => by
    simp [ha.right x (mem_toList.mp hx)]
  rw [h.free_eq, holes_append, holes_append, holes_cons_of_held hh, holes_append, hl, hr,
    toList_map_extentOf, toList_map_extentOf]
  simp only [map_append, append_assoc]

theorem Partition.join {key : κ}
    (h : Partition pool free held (L ++ (l.toList ++ t :: (r.toList ++ R))))
    (ha : Around pageSize pool.base (pool.base + pool.size) L l t r R)
    (hk : holdingOf t = some (key, e)) (hh : held.Perm ((key, e) :: held')) :
    Partition pool ((holes L).map extentOf ++
      extentOf (joined l t r) :: (holes R).map extentOf) held'
      (L ++ joined l t r :: R) := by
  refine ⟨ha.join, ?_, ?_⟩
  · rw [holes_append, holes_cons_of_hole rfl, map_append, map_cons]
  · have hb := hh.symm.trans h.held_perm
    have hl : l.toList.filterMap holdingOf = [] := filterMap_eq_nil_iff.mpr fun x hx =>
      holdingOf_eq_none (ha.left x (mem_toList.mp hx))
    have hr : r.toList.filterMap holdingOf = [] := filterMap_eq_nil_iff.mpr fun x hx =>
      holdingOf_eq_none (ha.right x (mem_toList.mp hx))
    rw [filterMap_append, filterMap_append, filterMap_cons_some hk,
      filterMap_append, hl, hr, nil_append, nil_append] at hb
    rw [filterMap_append, filterMap_cons_none (holdingOf_eq_none rfl)]
    exact (hb.trans perm_middle).cons_inv

end Around

/-- **A held extent has its place in the free list, and with the merged hole there the pool is
divided again.** -/
theorem Divides.give_back (h : Divides pool free held) (he : (key, e) ∈ held) :
    ∃ A l r B, Place A l e r B ∧
      free = A ++ Option.toList l ++ (Option.toList r ++ B) ∧
      ∀ held', held.Perm ((key, e) :: held') → Divides pool (A ++ merge l e r :: B) held' := by
  obtain ⟨tiles, hp⟩ := h.partition
  obtain ⟨t, ht, hk⟩ := mem_filterMap.mp (hp.held_perm.mem_iff.mp he)
  obtain ⟨L0, R0, rfl⟩ := append_of_mem ht
  obtain ⟨L, l, r, R, rfl, rfl, ha⟩ := hp.layout.around
  rw [append_assoc] at hp
  have hh : t.key ≠ none := by simp [holdingOf_eq_some.mp hk]
  have hex : extentOf t = e := by
    rw [holdingOf_eq_some.mp hk]
    rfl
  refine ⟨_, _, _, _, hex ▸ place_of_around h.pool_valid ha,
    hp.free_around ha hh,
    fun held' hpe => ⟨h.pool_valid, L ++ joined l t r :: R, ?_⟩⟩
  rw [← hex, merge_eq_joined]
  exact hp.join ha hk hpe

end Placement

end Anka
