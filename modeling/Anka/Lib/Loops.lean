import Anka.Lib.Res
import Mathlib.Data.List.Nodup

/-!
# Loops

`for i in list` over a mutable state is `List.foldlM`. `InTurn R list` says that the state moves by
`R i` for each element in turn; a loop whose body moves the state by `R` does (`InTurn.of_foldlM`).

* `InTurn.keeps`: what every turn keeps, the loop keeps.
* `InTurn.carries`: what the turn of one element brings about and no other turn undoes holds after
  the loop.
* `foldlM_returns`: a loop returns if every turn does, given what the turns before it left.
-/

namespace Rust

open Res List

variable {ε ι σ τ : Type}

/-- The moves of the elements, one after the other. -/
inductive InTurn (R : ι → σ → σ → Prop) : List ι → σ → σ → Prop
  | nil (s : σ) : InTurn R [] s s
  | cons {i : ι} {rest : List ι} {s t s' : σ} (hturn : R i s t) (hrest : InTurn R rest t s') :
      InTurn R (i :: rest) s s'

namespace InTurn

variable {R : ι → σ → σ → Prop} {list : List ι} {s s' : σ} {A B : σ → Prop}

theorem of_foldlM (view : τ → σ) {body : τ → ι → Res ε τ} {t t' : τ}
    (hb : ∀ t i t', body t i = ok t' → R i (view t) (view t'))
    (h : list.foldlM body t = ok t') : InTurn R list (view t) (view t') := by
  induction list generalizing t with
  | nil =>
    obtain rfl := ok.inj h
    exact .nil _
  | cons i rest ih =>
    simp only [foldlM_cons, bind_eq_ok] at h
    obtain ⟨u, hu, h⟩ := h
    exact .cons (hb t i u hu) (ih h)

theorem idle (h : ∀ i, R i s s) : InTurn R list s s := by
  induction list with
  | nil => exact .nil s
  | cons i _ ih => exact .cons (h i) ih

theorem keeps (hk : ∀ i ∈ list, ∀ s s', R i s s' → A s → A s') (h : InTurn R list s s')
    (hs : A s) : A s' := by
  induction h with
  | nil => exact hs
  | cons hturn _ ih =>
    refine ih (fun j hj => hk j (mem_cons_of_mem _ hj)) ?_
    exact hk _ mem_cons_self _ _ hturn hs

theorem carries {i : ι} (hse : ∀ s s', R i s s' → A s → B s')
    (hb : ∀ j s s', j ≠ i → R j s s' → A s → A s') (ha : ∀ j s s', j ≠ i → R j s s' → B s → B s')
    (h : InTurn R list s s') (hn : list.Nodup) (hi : i ∈ list) (hs : A s) : B s' := by
  induction h with
  | nil => exact absurd hi not_mem_nil
  | @cons j rest s t s' hturn hrest ih =>
    obtain ⟨hj, hn⟩ := nodup_cons.mp hn
    rcases mem_cons.mp hi with rfl | hi
    · refine hrest.keeps (fun k hk u u' => ha k u u' ?_) (hse _ _ hturn hs)
      rintro rfl
      exact hj hk
    · have hne : j ≠ i := fun h => hj (h ▸ hi)
      exact ih hn hi (hb j _ _ hne hturn hs)

end InTurn

theorem foldlM_returns {body : σ → ι → Res ε σ} {room : Nat → σ → Prop}
    (hb : ∀ n s i, room (n + 1) s → ∃ s', body s i = ok s' ∧ room n s') {list : List ι} {s : σ}
    (hs : room list.length s) : ∃ s', list.foldlM body s = ok s' ∧ room 0 s' := by
  induction list generalizing s with
  | nil => exact ⟨s, rfl, hs⟩
  | cons i rest ih =>
    obtain ⟨t, ht, hr⟩ := hb rest.length s i hs
    obtain ⟨s', hs', hr'⟩ := ih hr
    exact ⟨s', by rw [foldlM_cons, ht, ok_bind, hs'], hr'⟩

theorem foldlM_visits {body : σ → ι → Res ε σ} {list : List ι} {s s' : σ}
    (h : list.foldlM body s = ok s') {i : ι} (hi : i ∈ list) : ∃ t t', body t i = ok t' := by
  induction list generalizing s with
  | nil => cases hi
  | cons j rest ih =>
    simp only [foldlM_cons, bind_eq_ok] at h
    obtain ⟨t, ht, h⟩ := h
    rcases mem_cons.mp hi with rfl | hi
    · exact ⟨s, t, ht⟩
    · exact ih h hi

theorem forM_eq_ok {ε α : Type} {c : α → Res ε Unit} {list : List α} {u : Unit} :
    list.forM c = ok u ↔ ∀ a ∈ list, c a = ok () := by
  induction list with
  | nil => simp [List.forM]
  | cons a list ih =>
    simp only [List.forM, bind_eq_ok, ih, forall_mem_cons]
    constructor
    · rintro ⟨_, ha, hrest⟩
      exact ⟨ha, hrest⟩
    · rintro ⟨ha, hrest⟩
      exact ⟨(), ha, hrest⟩

theorem mem_of_mapM {ε α β : Type} {f : α → Res ε β} {list : List α} {bs : List β}
    (h : list.mapM f = ok bs) {b : β} (hb : b ∈ bs) : ∃ a ∈ list, f a = ok b := by
  induction list generalizing bs with
  | nil =>
    obtain rfl := ok.inj h
    cases hb
  | cons a list ih =>
    simp only [mapM_cons, eq_ok] at h
    obtain ⟨b', hb', bs', hbs', rfl⟩ := h
    rcases mem_cons.mp hb with rfl | hb
    · exact ⟨a, mem_cons_self, hb'⟩
    · obtain ⟨a', ha', hf'⟩ := ih hbs' hb
      exact ⟨a', mem_cons_of_mem a ha', hf'⟩

end Rust
