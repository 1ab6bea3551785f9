import Anka.Lib.Bytes

/-!
# Concatenations at running offsets

A whole is put together from pieces, one for each item of a list, and each item knows the offset at
which its piece starts. `Running pos len start items` says that the offsets are what they should be:
the sums of the lengths before. The whole is then the concatenation exactly when every piece stands
at its offset (`Running.flatMap_eq_iff`).
-/

namespace Rust

open List

variable {α β : Type} {pos len : α → Nat} {start : Nat} {items : List α} {a : α}

/-- Each item starts where the one before it ends. -/
def Running (pos len : α → Nat) : Nat → List α → Prop
  | _, [] => True
  | start, a :: rest => pos a = start ∧ Running pos len (start + len a) rest

variable {part : α → List β}

namespace Running

section

variable (h : Running pos len start items)
include h

theorem bounds (ha : a ∈ items) : start ≤ pos a ∧ pos a + len a ≤ start + (items.map len).sum := by
  induction items generalizing start with
  | nil => cases ha
  | cons b rest ih =>
    obtain ⟨hp, hr⟩ := h
    rw [map_cons, sum_cons]
    rcases mem_cons.mp ha with rfl | ha
    · omega
    · have hb := ih hr ha
      omega

theorem pairwise : items.Pairwise fun a b => pos a + len a ≤ pos b := by
  induction items generalizing start with
  | nil => exact .nil
  | cons a rest ih =>
    obtain ⟨rfl, hr⟩ := h
    exact .cons (fun b hb => (hr.bounds hb).1) (ih hr)

theorem dvd_pos {n : Nat} (hs : n ∣ start)
    (hl : ∀ a ∈ items, n ∣ len a) (ha : a ∈ items) : n ∣ pos a := by
  induction items generalizing start with
  | nil => cases ha
  | cons b rest ih =>
    obtain ⟨hp, hr⟩ := h
    rw [forall_mem_cons] at hl
    rcases mem_cons.mp ha with rfl | ha
    · exact hp ▸ hs
    · exact ih hr (Nat.dvd_add hs hl.1) hl.2 ha

end

theorem slice_flatMap (hl : ∀ a ∈ items, (part a).length = len a)
    (h : Running pos len start items) {be : List β} (hb : be.length = start)
    (ha : a ∈ items) : slice (be ++ items.flatMap part) (pos a) (len a) = part a := by
  induction items generalizing start be with
  | nil => cases ha
  | cons b rest ih =>
    obtain ⟨hp, hr⟩ := h
    rw [forall_mem_cons] at hl
    rw [flatMap_cons]
    rcases mem_cons.mp ha with rfl | ha
    · rw [slice, hp, ← hb, drop_left, ← hl.1, take_left]
    · rw [← append_assoc]
      exact ih hl.2 hr (by rw [length_append, hb, hl.1]) ha

theorem exists_of_getElem? (hl : ∀ a ∈ items, (part a).length = len a)
    (h : Running pos len start items) {k : Nat} {b : β} (hb : (items.flatMap part)[k]? = some b) :
    ∃ a ∈ items, ∃ j, (part a)[j]? = some b ∧ start + k = pos a + j := by
  induction items generalizing start k with
  | nil => simp at hb
  | cons a rest ih =>
    obtain ⟨rfl, hr⟩ := h
    rw [forall_mem_cons] at hl
    rw [flatMap_cons] at hb
    by_cases hk : k < (part a).length
    · rw [getElem?_append_left hk] at hb
      exact ⟨a, mem_cons_self, k, hb, rfl⟩
    · rw [getElem?_append_right (by omega)] at hb
      obtain ⟨a', ha', j, hj, hp⟩ := ih hl.2 hr hb
      have := hl.1
      exact ⟨a', mem_cons_of_mem a ha', j, hj, by omega⟩

theorem flatMap_slice {w : List β} (h : Running pos len start items) :
    items.flatMap (fun a => slice w (pos a) (len a)) = slice w start (items.map len).sum := by
  induction items generalizing start with
  | nil => simp [slice]
  | cons a rest ih =>
    obtain ⟨rfl, hr⟩ := h
    rw [flatMap_cons, ih hr, map_cons, sum_cons, slice, slice, slice, take_add, drop_drop]

theorem flatMap_eq_iff {whole : List β} (h : Running pos len 0 items)
    (hle : ∀ a ∈ items, (part a).length = len a) : items.flatMap part = whole ↔
      whole.length = (items.map len).sum ∧ ∀ a ∈ items, slice whole (pos a) (len a) = part a := by
  constructor
  · rintro rfl
    refine ⟨?_, fun a ha => h.slice_flatMap hle (@length_nil β) ha⟩
    rw [length_flatMap, map_congr_left hle]
  · rintro ⟨hl, hp⟩
    have hs : items.map part = items.map fun a => slice whole (pos a) (len a) :=
      map_congr_left fun a ha => (hp a ha).symm
    rw [flatMap_def, hs, ← flatMap_def, h.flatMap_slice, ← hl, slice, drop_zero, take_length]

end Running

end Rust
