import Mathlib.Algebra.GroupWithZero.Nat
import Mathlib.Algebra.Order.BigOperators.Group.List
import Mathlib.Algebra.Order.Group.Nat

/-!
# Fixed tables

A table of `n` rows allocated once is a list whose length never changes: rows are read with
`t[i]?` and written with `List.set`. A `Vec<Option<T>>` is a table of optional rows, and a row is
admitted at the first free index (`freeRow`).

* The occupied rows are `t.filterMap id`; `occupied_set_some` and `occupied_set_none` say how
  filling and clearing a row changes them.
* `charge f t` is the sum of `f` over the rows; `charge_set` says how one write changes it.
* `trimEnd p n` shortens a scan bound `n` while the row below it satisfies `p`.
-/

namespace Rust

open List Option

variable {α : Type}

/-- `position(Option::is_none)`. -/
def freeRow (t : List (Option α)) : Option Nat := t.findIdx? (·.isNone)

/-- `while end > 0 && p(end - 1) { end -= 1 }`. -/
def trimEnd (p : Nat → Bool) : Nat → Nat
  | 0 => 0
  | n + 1 => if p n then trimEnd p n else n + 1

/-- The sum of `f` over the rows of a table. -/
def charge (f : α → Nat) (t : List α) : Nat := (t.map f).sum

variable {t : List (Option α)} {i : Nat}

theorem freeRow_eq_some (h : freeRow t = some i) : t[i]? = some none := by
  obtain ⟨hi, hn, -⟩ := findIdx?_eq_some_iff_getElem.mp h
  rw [getElem?_eq_getElem hi]
  simpa using hn

theorem getElem?_set_row {t : List α} {i j : Nat} {a b : α} (hi : t[i]? = some b) :
    (t.set i a)[j]? = if i = j then some a else t[j]? := by
  have hl : i < t.length := (List.getElem?_eq_some_iff.mp hi).1
  rw [getElem?_set]
  simp [hl]

variable {a : α}

theorem row_unique {b : α} (ha : t[i]? = some (some a)) (hb : t[i]? = some (some b)) : a = b :=
  some.inj (mem_unique ha hb)

theorem set_row_self {t : List α} (hi : t[i]? = some a) : t.set i a = t := by
  obtain ⟨hl, rfl⟩ := List.getElem?_eq_some_iff.mp hi
  exact set_getElem_self hl

theorem occupied_set_none (hi : t[i]? = some (some a)) :
    (t.filterMap id).Perm (a :: (t.set i none).filterMap id) := by
  induction t generalizing i with
  | nil => cases hi
  | cons row t ih =>
    cases i with
    | zero =>
      cases hi
      exact .refl _
    | succ i =>
      have ht := ih (i := i) hi
      cases row with
      | none => exact ht
      | some b => exact (ht.cons b).trans (.swap a b _)

theorem occupied_set_some (hi : t[i]? = some none) :
    ((t.set i (some a)).filterMap id).Perm (a :: t.filterMap id) := by
  have hr : (t.set i (some a))[i]? = some (some a) := by rw [getElem?_set_row hi, if_pos rfl]
  have hp := occupied_set_none hr
  rwa [set_set, set_row_self hi] at hp

theorem mem_occupied : a ∈ t.filterMap id ↔ ∃ i : Nat, t[i]? = some (some a) := by
  rw [mem_filterMap]
  constructor
  · rintro ⟨row, hm, rfl⟩
    exact mem_iff_getElem?.mp hm
  · rintro ⟨i, hi⟩
    exact ⟨some a, mem_of_getElem? hi, rfl⟩

theorem trimEnd_le (p : Nat → Bool) (n : Nat) : trimEnd p n ≤ n := by
  induction n with
  | zero => exact Nat.le_refl _
  | succ n ih =>
    unfold trimEnd
    split <;> omega

theorem of_trimEnd_le {p : Nat → Bool} {n : Nat} (hl : trimEnd p n ≤ i) (hlt : i < n) :
    p i = true := by
  induction n with
  | zero => omega
  | succ n ih =>
    unfold trimEnd at hl
    split at hl
    · by_cases hi : i = n
      · rw [hi]
        assumption
      · exact ih hl (by omega)
    · omega

theorem charge_set {f : α → Nat} {t : List α} {i : Nat} {a b : α} (h : t[i]? = some b) :
    charge f (t.set i a) + f b = charge f t + f a := by
  induction t generalizing i with
  | nil => simp at h
  | cons x t ih =>
    cases i with
    | zero =>
      have hx : x = b := by simpa using h
      simp only [set_cons_zero, charge, map_cons, sum_cons, hx]
      omega
    | succ i =>
      have hr : t[i]? = some b := by simpa using h
      have := ih hr
      simp only [charge] at this
      simp only [set_cons_succ, charge, map_cons, sum_cons]
      omega

theorem le_charge {f : α → Nat} {t : List α} {i : Nat} {a : α} (h : t[i]? = some a) :
    f a ≤ charge f t := by
  obtain ⟨hi, ha⟩ := List.getElem?_eq_some_iff.mp h
  subst ha
  exact single_le_sum (by simp) _ (mem_map_of_mem (getElem_mem hi))

variable {f : α → Nat}

theorem charge_eq_zero {t : List α} :
    charge f t = 0 ↔ ∀ (i : Nat) (a : α), t[i]? = some a → f a = 0 := by
  constructor
  · intro h i a ha
    have := @le_charge α f t i a ha
    omega
  · intro h
    unfold charge
    rw [sum_eq_zero_iff]
    intro n hn
    obtain ⟨a, ha, rfl⟩ := mem_map.mp hn
    obtain ⟨i, hi⟩ := mem_iff_getElem?.mp ha
    exact h i a hi

theorem charge_congr {g : α → Nat} {t : List α}
    (h : ∀ (i : Nat) (a : α), t[i]? = some a → f a = g a) : charge f t = charge g t := by
  unfold charge
  refine congrArg List.sum (map_congr_left fun a ha => ?_)
  obtain ⟨i, hi⟩ := mem_iff_getElem?.mp ha
  exact h i a hi

theorem charge_add (f g : α → Nat) (t : List α) :
    charge (fun a => f a + g a) t = charge f t + charge g t := by
  unfold charge
  exact sum_map_add

theorem charge_comm {β : Type} (f : α → β → Nat) (t : List α) (u : List β) :
    charge (fun a => charge (f a) u) t = charge (fun b => charge (fun a => f a b) t) u := by
  induction t with
  | nil => exact (charge_eq_zero.mpr fun _ _ _ => rfl).symm
  | cons a t ih =>
    have hc : ∀ g : α → Nat, charge g (a :: t) = g a + charge g t := fun g => by simp [charge]
    simp only [hc, ih, charge_add]

theorem charge_eq_single {t : List α} (h : t[i]? = some a)
    (ho : ∀ (j : Nat) (b : α), j ≠ i → t[j]? = some b → f b = 0) : charge f t = f a := by
  induction t generalizing i with
  | nil => simp at h
  | cons x t ih =>
    have hc : charge f (x :: t) = f x + charge f t := by simp [charge]
    cases i with
    | zero =>
      obtain rfl : x = a := by simpa using h
      have hr : charge f t = 0 :=
        charge_eq_zero.mpr fun j b hb => ho (j + 1) b (by omega) (by simpa using hb)
      omega
    | succ i =>
      have hx := ho 0 x (by omega) rfl
      have hr := ih (by simpa using h) fun j b hj hb =>
        ho (j + 1) b (by omega) (by simpa using hb)
      omega

theorem charge_map {g : α → α} (t : List α) (h : ∀ a, f (g a) = f a) :
    charge f (t.map g) = charge f t := by
  unfold charge
  rw [List.map_map]
  exact congrArg List.sum (List.map_congr_left fun a _ => h a)

theorem charge_mapIdx {g : Nat → α → α} (t : List α) (h : ∀ i a, f (g i a) = f a) :
    charge f (t.mapIdx g) = charge f t := by
  unfold charge
  congr 1
  apply ext_getElem?
  intro i
  have hr : f ∘ g i = f := funext (h i)
  simp [getElem?_mapIdx, hr]

end Rust
