import Mathlib.Algebra.GroupWithZero.Nat
import Mathlib.Order.CompletePartialOrder
import Mathlib.Order.Interval.Set.Basic
import Mathlib.Order.Interval.Set.Disjoint

/-!
# Byte vectors and spans

A memory is a list of bytes. `overwrite m at d` is `m[at..at + d.len()].copy_from_slice(d)` and
`slice m at n` is `m[at..at + n].to_vec()`, both for spans inside the vector. `span at n` is the
set of addresses `[at, at + n)`; `leBytes` and `ofLeBytes` are `to_le_bytes` and `from_le_bytes`.
-/

namespace Rust

open List

variable {α : Type} {n base : Nat}

/-- The addresses `[at, at + n)`. -/
def span (base n : Nat) : Set Nat := Set.Ico base (base + n)

/-- Two half-open intervals that both hold an address. -/
def meets (a n b m : Nat) : Prop := a < b + m ∧ b < a + n
  deriving Decidable

/-- `m[base..base + d.len()].copy_from_slice(d)`. -/
def overwrite (m : List α) (base : Nat) (d : List α) : List α :=
  m.take base ++ d ++ m.drop (base + d.length)

/-- `m[base..base + n].to_vec()`. -/
def slice (m : List α) (base n : Nat) : List α := (m.drop base).take n

/-- `to_le_bytes` of a word of `n` bytes. -/
def leBytes (n word : Nat) : List UInt8 := (List.range n).map fun i => UInt8.ofNat (word / 256 ^ i)

/-- `from_le_bytes`. -/
def ofLeBytes (bytes : List UInt8) : Nat := bytes.foldr (fun b n => b.toNat + 256 * n) 0

@[simp] theorem length_leBytes (n word : Nat) : (leBytes n word).length = n := by simp [leBytes]

variable {a b m : Nat} {d : List α} {i : Nat}

theorem disjoint_span (h : ¬ meets a n b m) : Disjoint (span a n) (span b m) := by
  rw [span, span, Set.Ico_disjoint_Ico]
  unfold meets at h
  omega

theorem disjoint_span_iff (hn : 0 < n) (hm : 0 < m) :
    Disjoint (span a n) (span b m) ↔ ¬ meets a n b m := by
  refine ⟨fun h hme => ?_, disjoint_span⟩
  rw [span, span, Set.Ico_disjoint_Ico] at h
  unfold meets at hme
  omega

variable {m : List α}

theorem length_overwrite (h : base + d.length ≤ m.length) :
    (overwrite m base d).length = m.length := by
  simp only [overwrite, length_append, length_take, length_drop]
  omega

theorem getElem?_overwrite_of_notMem (h : base + d.length ≤ m.length)
    (hi : i ∉ span base d.length) : (overwrite m base d)[i]? = m[i]? := by
  have hl : i < base ∨ base + d.length ≤ i := by
    by_contra hc
    exact hi ⟨by omega, by omega⟩
  unfold overwrite
  rcases hl with hl | hg
  · rw [append_assoc, getElem?_append_left (by rw [length_take]; omega), getElem?_take_of_lt hl]
  · rw [getElem?_append_right (by rw [length_append, length_take]; omega),
      length_append, length_take, getElem?_drop]
    congr 1
    omega

theorem getElem?_slice (h : i < n) : (slice m base n)[i]? = m[base + i]? := by
  rw [slice, getElem?_take_of_lt h, getElem?_drop]

theorem slice_ext {m' : List α} {base' : Nat} (h : ∀ i < n, m'[base' + i]? = m[base + i]?) :
    slice m' base' n = slice m base n := by
  refine ext_getElem? fun i => ?_
  by_cases hi : i < n
  · rw [getElem?_slice hi, getElem?_slice hi, h i hi]
  · have hs : ∀ (l : List α) (at' : Nat), (slice l at' n)[i]? = none := fun l _ =>
      getElem?_eq_none (Nat.le_trans (length_take_le _ _) (by omega))
    rw [hs, hs]

theorem slice_congr {m' : List α} (h : ∀ i, base ≤ i → i < base + n → m'[i]? = m[i]?) :
    slice m' base n = slice m base n :=
  slice_ext fun i hi => h (base + i) (by omega) (by omega)

theorem slice_overwrite {m d : List α} (h : base ≤ m.length) :
    slice (overwrite m base d) base d.length = d := by
  have hl : (m.take base).length = base := by rw [length_take]; omega
  unfold slice overwrite
  rw [append_assoc, drop_append_of_le_length (by omega), drop_of_length_le (by omega),
    nil_append, take_append_of_le_length (le_refl _), take_length]

theorem overwrite_slice (h : base + n ≤ m.length) : overwrite m base (slice m base n) = m := by
  have hl : (slice m base n).length = n := by
    simp only [slice, length_take, length_drop]
    omega
  unfold overwrite
  rw [hl, slice, ← drop_drop, append_assoc, take_append_drop, take_append_drop]

theorem length_slice (h : base + n ≤ m.length) : (slice m base n).length = n := by
  simp only [slice, length_take, length_drop]
  omega

theorem slice_slice {o k : Nat} (h : o + k ≤ n) :
    slice (slice m base n) o k = slice m (base + o) k := by
  rw [slice, slice, slice, drop_take, drop_drop, take_take, Nat.min_eq_left (by omega)]

end Rust
