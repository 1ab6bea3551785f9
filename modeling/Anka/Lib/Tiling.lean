import Mathlib.Algebra.GroupWithZero.Nat
import Mathlib.Data.List.Chain

/-!
# Tilings of an interval

An allocator over one interval keeps a list of holes and a table of holdings. Put in order of their
bases, the two are a *tiling*: intervals that follow one another from the start to the end of the
whole, each a hole or held under a key. `Layout p a b l` says that `l` tiles `[a, b)` on a grid of
step `p`, with no two holes next to each other.

* A layout partitions the interval: its tiles are disjoint (`Tiles.pairwise`), cover it
  (`Tiles.covers`) and stay inside (`Tiles.bounds`). Its holes do not even touch
  (`Layout.holes_apart`), there is at most one more of them than there are holdings
  (`Layout.length_holes_le`), and without a holding there is exactly one (`Layout.eq_hole`).
* `Layout.carve`: cutting a holding off the front of a hole leaves a layout.
* `Around` is a holding together with the holes that touch it; `Around.join` says that turning it
  into a hole and merging it with those leaves a layout.
-/

namespace Tiling

open List Option

/-- An interval `[base, base + size)`, a hole or held under a key. -/
structure Tile (κ : Type) where
  base : Nat
  size : Nat
  key : Option κ

variable {κ : Type} {p a b : Nat} {l r L R : List (Tile κ)} {t x : Tile κ}

/-- The first point after the tile. -/
def Tile.stop (t : Tile κ) : Nat := t.base + t.size

/-- The tiles follow one another from `a` to `b`, and none is empty. -/
def Tiles : Nat → Nat → List (Tile κ) → Prop
  | a, b, [] => a = b
  | a, b, t :: l => t.base = a ∧ 0 < t.size ∧ Tiles t.stop b l

/-- The tiles that are free. -/
def holes (l : List (Tile κ)) : List (Tile κ) := l.filter (·.key.isNone)

/-- The tiles that are held. -/
def holdings (l : List (Tile κ)) : List (Tile κ) := l.filter (·.key.isSome)

/-- The tiles of `[a, b)` on a grid of step `p`, with no two holes next to each other. -/
structure Layout (p a b : Nat) (l : List (Tile κ)) : Prop where
  tiles : Tiles a b l
  grid : ∀ t ∈ l, p ∣ t.base ∧ p ∣ t.size
  apart : l.IsChain fun t u => t.key = none → u.key ≠ none

@[simp] theorem holes_append (l r : List (Tile κ)) : holes (l ++ r) = holes l ++ holes r :=
  filter_append ..

theorem mem_holes : t ∈ holes l ↔ t ∈ l ∧ t.key = none := by
  simp [holes]

theorem mem_holdings : t ∈ holdings l ↔ t ∈ l ∧ t.key ≠ none := by
  simp [holdings, isSome_iff_ne_none]

theorem holes_cons_of_hole (h : t.key = none) : holes (t :: l) = t :: holes l := by
  simp [holes, h]

theorem holes_cons_of_held (h : t.key ≠ none) : holes (t :: l) = holes l := by
  simp [holes, h]

theorem holdings_cons_of_hole (h : t.key = none) : holdings (t :: l) = holdings l := by
  simp [holdings, h]

theorem holdings_cons_of_held (h : t.key ≠ none) : holdings (t :: l) = t :: holdings l := by
  simp [holdings, isSome_iff_ne_none, h]

/-! ## What a tiling covers -/

theorem tiles_append : Tiles a b (l ++ r) ↔ ∃ m, Tiles a m l ∧ Tiles m b r := by
  induction l generalizing a with
  | nil => simp [Tiles]
  | cons t l ih =>
    simp only [cons_append, Tiles, ih]
    constructor
    · rintro ⟨hb, hs, m, hl, hr⟩
      exact ⟨m, ⟨hb, hs, hl⟩, hr⟩
    · rintro ⟨m, ⟨hb, hs, hl⟩, hr⟩
      exact ⟨hb, hs, m, hl, hr⟩

section

variable (h : Tiles a b l)
include h

theorem Tiles.le : a ≤ b := by
  induction l generalizing a with
  | nil => exact Nat.le_of_eq h
  | cons t l ih =>
    obtain ⟨rfl, -, hl⟩ := h
    exact Nat.le_trans (Nat.le_add_right _ _) (ih hl)

theorem Tiles.bounds (ht : t ∈ l) : a ≤ t.base ∧ 0 < t.size ∧ t.stop ≤ b := by
  induction l generalizing a with
  | nil => cases ht
  | cons u l ih =>
    obtain ⟨rfl, hs, hl⟩ := h
    rcases mem_cons.mp ht with rfl | ht
    · exact ⟨Nat.le_refl _, hs, hl.le⟩
    · obtain ⟨hb, hp, hst⟩ := ih hl ht
      exact ⟨Nat.le_trans (Nat.le_add_right _ _) hb, hp, hst⟩

theorem Tiles.sum_size : a + (l.map Tile.size).sum = b := by
  induction l generalizing a with
  | nil => simpa [Tiles] using h
  | cons t l ih =>
    obtain ⟨rfl, -, hl⟩ := h
    have ht := ih hl
    simp only [Tile.stop] at ht
    rw [map_cons, sum_cons]
    omega

theorem Tiles.pairwise : l.Pairwise fun t u => t.stop ≤ u.base := by
  induction l generalizing a with
  | nil => exact .nil
  | cons t l ih =>
    obtain ⟨-, -, hl⟩ := h
    exact .cons (fun u hu => (hl.bounds hu).1) (ih hl)

theorem Tiles.covers {n : Nat} (ha : a ≤ n) (hb : n < b) : ∃ t ∈ l, t.base ≤ n ∧ n < t.stop := by
  induction l generalizing a with
  | nil =>
    obtain rfl : a = b := h
    omega
  | cons t l ih =>
    obtain ⟨rfl, -, hl⟩ := h
    by_cases hn : n < t.stop
    · exact ⟨t, mem_cons_self, ha, hn⟩
    · obtain ⟨u, hu, hi⟩ := ih hl (Nat.le_of_not_lt hn)
      exact ⟨u, mem_cons_of_mem t hu, hi⟩

end

/-! ## What the holes of a layout are like -/

theorem Layout.tail (h : Layout p a b (t :: l)) : Layout p t.stop b l :=
  ⟨h.tiles.2.2, fun u hu => h.grid u (mem_cons_of_mem t hu), h.apart.tail⟩

theorem Layout.hole_apart (h : Layout p a b (t :: l)) (ht : t.key = none) (hx : x ∈ holes l) :
    t.stop < x.base := by
  cases l with
  | nil => cases hx
  | cons u l =>
    have hu : u.key ≠ none := (isChain_cons_cons.mp h.apart).1 ht
    rw [holes_cons_of_held hu] at hx
    obtain ⟨-, -, hb, hs, hl⟩ := h.tiles
    have hn := (hl.bounds (mem_holes.mp hx).1).1
    simp only [Tile.stop] at hb hn ⊢
    omega

/-- **Holes do not touch.** -/
theorem Layout.holes_apart (h : Layout p a b l) :
    (holes l).Pairwise fun t u => t.stop < u.base := by
  induction l generalizing a with
  | nil => exact .nil
  | cons t l ih =>
    by_cases ht : t.key = none
    · rw [holes_cons_of_hole ht]
      exact .cons (fun u hu => h.hole_apart ht hu) (ih h.tail)
    · rw [holes_cons_of_held ht]
      exact ih h.tail

theorem length_holes_le_of_apart (h : l.IsChain fun t u => t.key = none → u.key ≠ none) :
    (holes l).length ≤ (holdings l).length + (if l.head?.any (·.key.isNone) then 1 else 0) := by
  induction l with
  | nil => simp [holes]
  | cons t l ih =>
    have hl := ih h.tail
    by_cases ht : t.key = none
    · -- the next tile, if any, is held
      have hn : l.head?.any (·.key.isNone) = false := by
        cases l with
        | nil => rfl
        | cons u l => simpa [isSome_iff_ne_none] using (isChain_cons_cons.mp h).1 ht
      rw [holes_cons_of_hole ht, holdings_cons_of_hole ht]
      simp only [hn, Bool.false_eq_true, if_false] at hl
      simp only [length_cons, head?_cons, any_some, ht, isNone_none, if_true]
      omega
    · rw [holes_cons_of_held ht, holdings_cons_of_held ht, length_cons]
      split at hl <;> omega

theorem Layout.length_holes_le (h : Layout p a b l) :
    (holes l).length ≤ (holdings l).length + 1 := by
  have hl := length_holes_le_of_apart h.apart
  split at hl <;> omega

theorem Layout.eq_hole (h : Layout p a b l) (hab : a < b) (hn : holdings l = []) :
    l = [⟨a, b - a, none⟩] := by
  have ha : ∀ t ∈ l, t.key = none := by
    intro t ht
    by_contra hk
    have hm := mem_holdings.mpr ⟨ht, hk⟩
    rw [hn] at hm
    cases hm
  cases l with
  | nil =>
    have hsa : a = b := h.tiles
    omega
  | cons t l =>
    cases l with
    | nil =>
      obtain ⟨hb, -, hs⟩ := h.tiles
      obtain rfl : t.stop = b := hs
      have hk := ha t mem_cons_self
      cases t
      simp only [Tile.stop] at *
      subst hb hk
      simp
    | cons u l =>
      have hne := (isChain_cons_cons.mp h.apart).1 (ha t mem_cons_self)
      exact absurd (ha u (by simp)) hne

/-! ## Cutting a holding off a hole -/

/-- The front of a hole, held, and what is left of the hole. -/
def carved (t : Tile κ) (n : Nat) (k : κ) : List (Tile κ) :=
  ⟨t.base, n, some k⟩ :: if n < t.size then [⟨t.base + n, t.size - n, none⟩] else []

theorem Layout.carve {n : Nat} (k : κ) (h : Layout p a b (L ++ t :: R)) (ht : t.key = none)
    (hn : 0 < n) (hp : p ∣ n) (hl : n ≤ t.size) : Layout p a b (L ++ (carved t n k ++ R)) := by
  obtain ⟨m, hL, hb, hs, hR⟩ := tiles_append.mp h.tiles
  obtain ⟨htb, hts⟩ := h.grid t (by simp)
  obtain ⟨hch, hc, hj⟩ := isChain_append.mp h.apart
  obtain ⟨hh, hc⟩ := isChain_cons.mp hc
  refine ⟨tiles_append.mpr ⟨m, hL, ?_⟩, ?_, isChain_append.mpr ⟨hch, ?_, ?_⟩⟩
  · unfold carved
    split
    · refine ⟨hb, hn, rfl, Nat.sub_pos_of_lt ‹_›, ?_⟩
      simp only [Tile.stop] at hR ⊢
      rwa [Nat.add_assoc, Nat.add_sub_of_le hl]
    · obtain rfl : n = t.size := by omega
      exact ⟨hb, hn, hR⟩
  · intro u hu
    rcases mem_append.mp hu with hu | hu
    · exact h.grid u (by simp [hu])
    · rcases mem_append.mp hu with hu | hu
      · unfold carved at hu
        split at hu
        · rcases mem_cons.mp hu with rfl | hu
          · exact ⟨htb, hp⟩
          · obtain rfl := mem_singleton.mp hu
            exact ⟨(Nat.dvd_add_right htb).mpr hp, Nat.dvd_sub hts hp⟩
        · obtain rfl := mem_singleton.mp hu
          exact ⟨htb, hp⟩
      · exact h.grid u (by simp [hu])
  · unfold carved
    split
    · refine isChain_cons.mpr ⟨fun y _ hk => (by cases hk), ?_⟩
      exact isChain_cons.mpr ⟨fun y hy _ => hh y hy ht, hc⟩
    · exact isChain_cons.mpr ⟨fun y _ hk => (by cases hk), hc⟩
  · intro x _ y hy _
    have hy : y = ⟨t.base, n, some k⟩ := by simpa [carved] using hy.symm
    rw [hy]
    exact some_ne_none k

/-! ## Turning a holding into a hole -/

/-- A tile with the holes that touch it: `l` before and `r` after it, and no others. -/
structure Around (p a b : Nat) (L : List (Tile κ)) (l : Option (Tile κ)) (t : Tile κ)
    (r : Option (Tile κ)) (R : List (Tile κ)) : Prop where
  layout : Layout p a b (L ++ (l.toList ++ t :: (r.toList ++ R)))
  left : ∀ x ∈ l, x.key = none
  right : ∀ x ∈ r, x.key = none
  leftEnd : ∀ x ∈ L.getLast?, x.key ≠ none
  rightEnd : ∀ x ∈ R.head?, x.key ≠ none

theorem exists_left (hL : L.IsChain fun t u => t.key = none → u.key ≠ none) :
    ∃ L' l, L = L' ++ Option.toList l ∧ (∀ x ∈ l, x.key = none) ∧
      ∀ x ∈ L'.getLast?, x.key ≠ none := by
  rcases eq_nil_or_concat L with rfl | ⟨L', u, rfl⟩
  · exact ⟨[], none, rfl, nofun, nofun⟩
  · by_cases hu : u.key = none
    · refine ⟨L', some u, concat_eq_append, fun x hx => ?_, fun x hx hk => ?_⟩
      · rwa [← some.inj hx]
      · rw [concat_eq_append] at hL
        obtain ⟨-, -, hj⟩ := isChain_append.mp hL
        exact hj x hx u (by simp) hk hu
    · refine ⟨L' ++ [u], none, by simp, nofun, fun x hx => ?_⟩
      obtain rfl : u = x := by simpa using hx
      exact hu

theorem exists_right (hR : R.IsChain fun t u => t.key = none → u.key ≠ none) :
    ∃ r R', R = Option.toList r ++ R' ∧ (∀ x ∈ r, x.key = none) ∧ ∀ x ∈ R'.head?, x.key ≠ none := by
  cases R with
  | nil => exact ⟨none, [], rfl, nofun, nofun⟩
  | cons u R' =>
    by_cases hu : u.key = none
    · refine ⟨some u, R', rfl, fun x hx => ?_, fun x hx => ?_⟩
      · rwa [← some.inj hx]
      · exact (isChain_cons.mp hR).1 x hx hu
    · refine ⟨none, u :: R', rfl, nofun, fun x hx => ?_⟩
      obtain rfl : u = x := by simpa using hx
      exact hu

theorem Layout.around (h : Layout p a b (L ++ t :: R)) :
    ∃ L' l r R', L = L' ++ Option.toList l ∧ R = Option.toList r ++ R' ∧
      Around p a b L' l t r R' := by
  obtain ⟨hc, hch, -⟩ := isChain_append.mp h.apart
  obtain ⟨L', l, rfl, hl, hL'⟩ := exists_left hc
  obtain ⟨r, R', rfl, hr, hR'⟩ := exists_right hch.tail
  refine ⟨L', l, r, R', rfl, rfl, ?_, hl, hr, hL', hR'⟩
  simpa using h

section Around

variable {l r : Option (Tile κ)}

theorem Around.split (h : Around p a b L l t r R) :
    ∃ m n, Tiles a m L ∧ Tiles m t.base l.toList ∧ 0 < t.size ∧ Tiles t.stop n r.toList ∧
      Tiles n b R := by
  obtain ⟨m, hL, hre⟩ := tiles_append.mp h.layout.tiles
  obtain ⟨m', hl, rfl, hs, hre⟩ := tiles_append.mp hre
  obtain ⟨n, hr, hR⟩ := tiles_append.mp hre
  exact ⟨m, n, hL, hl, hs, hr, hR⟩

theorem Around.left_touches (h : Around p a b L (some x) t r R) : x.stop = t.base := by
  obtain ⟨_, _, -, ⟨-, -, hs⟩, -⟩ := h.split
  exact hs

theorem Around.right_touches (h : Around p a b L l t (some x) R) : x.base = t.stop := by
  obtain ⟨_, _, -, -, -, ⟨hb, -⟩, -⟩ := h.split
  exact hb

theorem Around.left_apart (h : Around p a b L l t r R) (hx : x ∈ holes L) : x.stop < t.base := by
  obtain ⟨m, _, hL, hl, -⟩ := h.split
  have hle := hl.le
  rcases eq_nil_or_concat L with rfl | ⟨L', u, rfl⟩
  · cases hx
  · have hu : u.key ≠ none := h.leftEnd u (by simp)
    rw [concat_eq_append] at hL hx
    obtain ⟨m', hL', rfl, hsi, hs⟩ := tiles_append.mp hL
    obtain rfl : u.stop = m := hs
    rw [holes_append, holes_cons_of_held hu] at hx
    have hx' : x ∈ L' := (mem_holes.mp (by simpa [holes] using hx)).1
    have hb := (hL'.bounds hx').2.2
    simp only [Tile.stop] at hle hb ⊢
    omega

theorem Around.right_apart (h : Around p a b L l t r R) (hx : x ∈ holes R) : t.stop < x.base := by
  obtain ⟨_, n, -, -, -, hr, hR⟩ := h.split
  have hl := hr.le
  cases R with
  | nil => cases hx
  | cons u R' =>
    have hu : u.key ≠ none := h.rightEnd u (by simp)
    rw [holes_cons_of_held hu] at hx
    obtain ⟨rfl, hs, hR'⟩ := hR
    have ha := (hR'.bounds (mem_holes.mp hx).1).1
    simp only [Tile.stop] at hl ha ⊢
    omega

/-- The hole that the tile and the holes that touch it become. -/
def joined (l : Option (Tile κ)) (t : Tile κ) (r : Option (Tile κ)) : Tile κ :=
  let base := (l.map Tile.base).getD t.base
  ⟨base, (r.map Tile.stop).getD t.stop - base, none⟩

theorem Around.joined_bounds (h : Around p a b L l t r R) {m n : Nat}
    (hl : Tiles m t.base l.toList) (hr : Tiles t.stop n r.toList) :
    (joined l t r).base = m ∧ (joined l t r).stop = n ∧ 0 < (joined l t r).size := by
  obtain ⟨_, _, -, -, hsi, -⟩ := h.split
  have hlm : (l.map Tile.base).getD t.base = m := by
    cases l with
    | none => exact hl.symm
    | some x => exact hl.1
  have hrn : (r.map Tile.stop).getD t.stop = n := by
    cases r with
    | none => exact hr
    | some x => exact hr.2.2
  have hm := hl.le
  have hn := hr.le
  have hs : (joined l t r).base = m ∧ (joined l t r).size = n - m := by
    simp [joined, hlm, hrn]
  simp only [Tile.stop] at hn ⊢
  omega

theorem Around.joined_grid (h : Around p a b L l t r R) :
    p ∣ (joined l t r).base ∧ p ∣ (joined l t r).size := by
  have hg := h.layout.grid
  obtain ⟨ht, hts⟩ := hg t (by simp)
  have hb : p ∣ (l.map Tile.base).getD t.base := by
    cases l with
    | none => exact ht
    | some x => exact (hg x (by simp)).1
  have hs : p ∣ (r.map Tile.stop).getD t.stop := by
    cases r with
    | none => exact Nat.dvd_add ht hts
    | some x =>
      obtain ⟨hx, hxs⟩ := hg x (by simp)
      exact Nat.dvd_add hx hxs
  exact ⟨hb, Nat.dvd_sub hs hb⟩

/-- **A holding that becomes a hole, merged with the holes that touch it, leaves a layout.** -/
theorem Around.join (h : Around p a b L l t r R) : Layout p a b (L ++ joined l t r :: R) := by
  obtain ⟨m, n, hL, hl, hsi, hr, hR⟩ := h.split
  obtain ⟨hb, hs, hp⟩ := h.joined_bounds hl hr
  obtain ⟨hc, hre, -⟩ := isChain_append.mp h.layout.apart
  obtain ⟨-, hre, -⟩ := isChain_append.mp hre
  obtain ⟨-, hch, -⟩ := isChain_append.mp hre.tail
  refine ⟨tiles_append.mpr ⟨m, hL, hb, hp, hs ▸ hR⟩, fun u hu => ?_,
    isChain_append.mpr ⟨hc, isChain_cons.mpr ⟨?_, hch⟩, ?_⟩⟩
  · rcases mem_append.mp hu with hu | hu
    · exact h.layout.grid u (by simp [hu])
    · rcases mem_cons.mp hu with rfl | hu
      · exact h.joined_grid
      · exact h.layout.grid u (by simp [hu])
  · intro y hy _
    exact h.rightEnd y hy
  · intro x hx y hy hk
    exact absurd hk (h.leftEnd x hx)

end Around

end Tiling
