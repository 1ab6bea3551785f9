import Mathlib.Data.List.AList

/-!
# Ordered maps

`BTreeMap<K, V>` as an association list with distinct keys (`AList`), with the map operations the
source uses: `get`, `insert`, `remove` (`erase`), `retain`, and `any` over the entries. The list
keeps insertion order where a `BTreeMap` keeps key order; every iteration below is an `any`, an
`all` or a `retain`, which the order does not change.

Each operation has one lemma that says what `get` answers after it.
-/

namespace Rust

open List Option

/-- A map with distinct keys. -/
abbrev Map (K V : Type) := AList fun _ : K => V

namespace Map

variable {K V : Type} [DecidableEq K] {m : Map K V} {p : K → V → Bool}

/-- The value of a key. -/
def get (m : Map K V) (k : K) : Option V := m.lookup k

/-- Keeps the entries that pass. -/
def retain (m : Map K V) (p : K → V → Bool) : Map K V :=
  ⟨m.entries.filter fun e => p e.1 e.2, m.nodupKeys.sublist filter_sublist⟩

/-- Some entry satisfies `p`. -/
def any (m : Map K V) (p : K → V → Bool) : Bool := m.entries.any fun e => p e.1 e.2

/-- `if let Some(v) = get_mut(&k) { *v = f(v) }`. -/
def modify (m : Map K V) (k : K) (f : V → V) : Map K V :=
  match m.get k with
  | some v => m.insert k (f v)
  | none => m

variable {k : K}

theorem mem_entries_iff {v : V} : ⟨k, v⟩ ∈ m.entries ↔ m.get k = some v :=
  AList.mem_lookup_iff.symm

@[simp] theorem get_empty (k : K) : get (∅ : Map K V) k = none := AList.lookup_empty k

theorem get_insert (m : Map K V) (k : K) (v : V) (k' : K) :
    get (m.insert k v) k' = if k' = k then some v else m.get k' := by
  split
  · rename_i h
    rw [h]
    exact AList.lookup_insert m
  · exact AList.lookup_insert_ne ‹_›

theorem get_erase (m : Map K V) (k k' : K) :
    get (m.erase k) k' = if k' = k then none else m.get k' := by
  split
  · rename_i h
    rw [h]
    exact AList.lookup_erase k m
  · exact AList.lookup_erase_ne ‹_›

theorem entries_insert (h : m.get k = none) (v : V) :
    (m.insert k v).entries = ⟨k, v⟩ :: m.entries :=
  AList.entries_insert_of_notMem (AList.lookup_eq_none.mp h)

theorem erase_insert (h : m.get k = none) (v : V) : (m.insert k v).erase k = m := by
  refine AList.ext ?_
  have hen : ((m.insert k v).erase k).entries = (m.insert k v).entries.kerase k := rfl
  rw [hen, entries_insert h]
  exact kerase_cons_eq rfl

theorem entries_erase {v : V} (h : m.get k = some v) :
    m.entries.Perm (⟨k, v⟩ :: (m.erase k).entries) := by
  have hm := mem_entries_iff.mpr h
  obtain ⟨w, l1, l2, -, hs, her⟩ :=
    exists_of_kerase (mem_keys_of_mem hm)
  have hw : m.get k = some w := mem_entries_iff.mp (by rw [hs]; simp)
  obtain rfl : v = w := mem_unique h hw
  have hen : (m.erase k).entries = l1 ++ l2 := her
  rw [hen]
  exact (List.Perm.of_eq hs).trans perm_middle

theorem get_retain_eq_some {v : V} :
    (m.retain p).get k = some v ↔ m.get k = some v ∧ p k v = true := by
  rw [← mem_entries_iff, ← mem_entries_iff]
  exact mem_filter

theorem get_modify (m : Map K V) (k : K) (f : V → V) (k' : K) :
    (m.modify k f).get k' = if k' = k then (m.get k).map f else m.get k' := by
  unfold modify
  split
  · rename_i v h
    rw [get_insert, h]
    rfl
  · rename_i h
    split
    · rename_i hk
      rw [hk, h]
      rfl
    · rfl

theorem any_eq_true : m.any p = true ↔ ∃ k v, m.get k = some v ∧ p k v = true := by
  unfold any
  rw [List.any_eq_true]
  constructor
  · rintro ⟨⟨k, v⟩, he, hp⟩
    exact ⟨k, v, mem_entries_iff.mp he, hp⟩
  · rintro ⟨k, v, hg, hp⟩
    exact ⟨⟨k, v⟩, mem_entries_iff.mpr hg, hp⟩

theorem any_eq_false : m.any p = false ↔ ∀ k v, m.get k = some v → p k v = false := by
  rw [← Bool.not_eq_true, any_eq_true]
  constructor
  · intro h k v hg
    by_contra hp
    exact h ⟨k, v, hg, by simpa using hp⟩
  · rintro h ⟨k, v, hg, hp⟩
    rw [h k v hg] at hp
    exact Bool.false_ne_true hp

end Map

end Rust
