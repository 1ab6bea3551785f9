import Anka.Lib.Res
import Mathlib.Data.Fintype.Pi
import Mathlib.Data.List.FinRange

/-!
# Banks of request slots

A device that accepts requests into a fixed number of slots, finishes them on its own and hands the
completions over in the order in which they were finished. A slot is free, holds a pending request
of type `P`, or holds a completion of type `C`; a request is named by its slot and by the slot's
generation, which advances when the completion is taken.

`history` is a ghost field, latest first: what was accepted, finished and taken. No operation reads
it.

* `map` reads a bank through a view of its requests and completions; every operation commutes with
  it.
* `Recorded`: the log says of every name whether it was accepted, finished or taken, each at most
  once, what a slot holds is what was accepted under its name, and the queue lists what is finished
  and not yet taken. Every transition keeps it, and taking a completion then takes the oldest
  (`Recorded.take_eq_ok`, `Recorded.taken_prefix`).
-/

namespace Rust

open List

/-- One slot. -/
inductive BankSlot (P C : Type) where
  | free
  | pending (request : P)
  | completed (completion : C)

namespace BankSlot

variable {P C P' C' : Type}

/-- Nothing is in the slot. -/
def isFree : BankSlot P C → Bool
  | free => true
  | _ => false

/-- Another view of a slot. -/
def map (p : P → P') (c : C → C') : BankSlot P C → BankSlot P' C'
  | free => free
  | pending request => pending (p request)
  | completed completion => completed (c completion)

theorem isFree_iff {s : BankSlot P C} : s.isFree = true ↔ s = free := by
  cases s <;> simp [isFree]

end BankSlot

/-- The name of a request: a slot at one of its generations. -/
structure BankKey (n : Nat) where
  slot : Fin n
  generation : Nat

/-- What the log records. -/
inductive BankEvent (n : Nat) (P C : Type) where
  | accepted (key : BankKey n) (request : P)
  | finished (key : BankKey n) (completion : C)
  | taken (key : BankKey n) (completion : C)

/-- Another view of an event. -/
def BankEvent.map {n : Nat} {P C P' C' : Type} (p : P → P') (c : C → C') :
    BankEvent n P C → BankEvent n P' C'
  | accepted key request => accepted key (p request)
  | finished key completion => finished key (c completion)
  | taken key completion => taken key (c completion)

/-- Slots, their generations, the finished ones in order, and the log. -/
structure SlotBank (n : Nat) (P C : Type) where
  slots : Fin n → BankSlot P C
  generations : Fin n → Nat
  order : List (Fin n)
  history : List (BankEvent n P C)

namespace SlotBank

variable {n : Nat} {P C P' C' : Type}

/-- Every slot is free and at its first generation. -/
def empty : SlotBank n P C :=
  { slots := fun _ => .free, generations := fun _ => 0, order := [], history := [] }

/-- The name under which slot `i` holds a request now. -/
def keyAt (b : SlotBank n P C) (i : Fin n) : BankKey n :=
  { slot := i, generation := b.generations i }

/-- The first free slot. -/
def freeSlot (b : SlotBank n P C) : Option (Fin n) :=
  (List.finRange n).find? fun i => (b.slots i).isFree

/-- A request enters a slot. -/
def accept (b : SlotBank n P C) (i : Fin n) (request : P) : SlotBank n P C :=
  { b with
    slots := Function.update b.slots i (.pending request)
    history := .accepted (b.keyAt i) request :: b.history }

/-- The pending request of a slot moves on. -/
def advance (b : SlotBank n P C) (i : Fin n) (request : P) : SlotBank n P C :=
  { b with slots := Function.update b.slots i (.pending request) }

/-- A request ends. -/
def finish (b : SlotBank n P C) (i : Fin n) (completion : C) : SlotBank n P C :=
  { b with
    slots := Function.update b.slots i (.completed completion)
    order := b.order ++ [i]
    history := .finished (b.keyAt i) completion :: b.history }

/-- A request that is answered when it is accepted. -/
def complete (b : SlotBank n P C) (i : Fin n) (request : P) (completion : C) : SlotBank n P C :=
  (b.accept i request).finish i completion

/-- The slot after its completion was taken. -/
def release (b : SlotBank n P C) (i : Fin n) (rest : List (Fin n)) (completion : C) :
    SlotBank n P C :=
  { slots := Function.update b.slots i .free
    generations := Function.update b.generations i (b.generations i + 1)
    order := rest
    history := .taken (b.keyAt i) completion :: b.history }

/-- Take the completion that was finished first; a queue entry that names no completed slot is
dropped. -/
def take {ε : Type} (b : SlotBank n P C) : Res ε (Option C × SlotBank n P C) :=
  match b.order with
  | [] => .ok (none, b)
  | i :: rest =>
    match b.slots i with
    | .completed completion => do
      let _ ← plus (b.generations i) 1
      return (some completion, b.release i rest completion)
    | _ => .ok (none, { b with order := rest })

/-- The bank through a view of its requests and completions. -/
def map (p : P → P') (c : C → C') (b : SlotBank n P C) : SlotBank n P' C' :=
  { slots := fun i => (b.slots i).map p c
    generations := b.generations
    order := b.order
    history := b.history.map (·.map p c) }

/-! ## Through a view -/

variable {b b' : SlotBank n P C} {i : Fin n}

section

variable (p : P → P')
include p

theorem slots_update_map (c : C → C') (slot : BankSlot P C) :
    (fun j => (Function.update b.slots i slot j).map p c) =
      Function.update (fun j => (b.slots j).map p c) i (slot.map p c) := by
  funext j
  by_cases h : j = i
  · subst h
    simp
  · simp [h]

theorem accept_map (c : C → C') (r : P) : (b.accept i r).map p c = (b.map p c).accept i (p r) := by
  simp only [map, accept, slots_update_map]
  rfl

theorem finish_map (c : C → C') (co : C) :
    (b.finish i co).map p c = (b.map p c).finish i (c co) := by
  simp only [map, finish, slots_update_map]
  rfl

theorem complete_map (c : C → C') (r : P) (co : C) :
    (b.complete i r co).map p c = (b.map p c).complete i (p r) (c co) := by
  rw [complete, finish_map, accept_map, complete]

theorem release_map (c : C → C') (rest : List (Fin n)) (co : C) :
    (b.release i rest co).map p c = (b.map p c).release i rest (c co) := by
  simp only [map, release, slots_update_map]
  rfl

theorem advance_map (c : C → C') (r : P) :
    (b.advance i r).map p c = (b.map p c).advance i (p r) := by
  simp only [map, advance, slots_update_map]
  rfl

theorem take_map {ε : Type} (c : C → C') {r : Option C} (h : (b.take : Res ε _) = .ok (r, b')) :
    ((b.map p c).take : Res ε _) = .ok (r.map c, b'.map p c) := by
  unfold take at h ⊢
  have hor : (b.map p c).order = b.order := rfl
  rw [hor]
  split at h
  · obtain ⟨rfl, rfl⟩ := Prod.mk.inj (Res.ok.inj h)
    rfl
  · rename_i i rest _
    have hs : (b.map p c).slots i = (b.slots i).map p c := rfl
    split at h
    · rename_i co hcm
      simp only [Res.bind_eq_ok, Res.pure_eq, Res.ok.injEq, Prod.mk.injEq] at h
      obtain ⟨_, hp, rfl, rfl⟩ := h
      simp only [hs, hcm, BankSlot.map, release_map]
      have hg : (b.map p c).generations i = b.generations i := rfl
      simp [hg, hp]
    · rename_i ho
      obtain ⟨rfl, rfl⟩ := Prod.mk.inj (Res.ok.inj h)
      simp only [hs]
      cases hc : b.slots i with
      | completed co => exact absurd hc (ho co)
      | free | pending => rfl

end

theorem map_slots_eq_pending {p : P → P'} {c : C → C'} {request : P'} :
    (b.map p c).slots i = .pending request ↔ ∃ r, b.slots i = .pending r ∧ p r = request := by
  simp only [map]
  cases b.slots i <;> simp [BankSlot.map]

/-! ## The log -/

end SlotBank

namespace BankEvent

variable {n : Nat} {P C : Type}

/-- The request that entered. -/
def acceptance : BankEvent n P C → Option (BankKey n × P)
  | accepted key request => some (key, request)
  | _ => none

/-- The completion that was left. -/
def completion : BankEvent n P C → Option (BankKey n × C)
  | finished key c => some (key, c)
  | _ => none

/-- The completion that was taken. -/
def delivery : BankEvent n P C → Option (BankKey n × C)
  | taken key c => some (key, c)
  | _ => none

end BankEvent

namespace SlotBank

variable {n : Nat} {P C Q : Type} {b b' : SlotBank n P C} {i : Fin n}

/-- The requests accepted so far, in order, each with its name. -/
def accepted (b : SlotBank n P C) : List (BankKey n × P) :=
  b.history.reverse.filterMap BankEvent.acceptance

/-- The completions in the order in which the requests were finished. -/
def finished (b : SlotBank n P C) : List (BankKey n × C) :=
  b.history.reverse.filterMap BankEvent.completion

/-- The completions in the order in which they were taken. -/
def taken (b : SlotBank n P C) : List (BankKey n × C) :=
  b.history.reverse.filterMap BankEvent.delivery

@[simp] theorem accept_accepted (request : P) :
    (b.accept i request).accepted = b.accepted ++ [(b.keyAt i, request)] := by
  simp [accepted, accept, BankEvent.acceptance]

@[simp] theorem accept_finished (r : P) : (b.accept i r).finished = b.finished := by
  simp [finished, accept, BankEvent.completion]

@[simp] theorem accept_taken (r : P) : (b.accept i r).taken = b.taken := by
  simp [taken, accept, BankEvent.delivery]

@[simp] theorem finish_accepted (c : C) : (b.finish i c).accepted = b.accepted := by
  simp [accepted, finish, BankEvent.acceptance]

@[simp] theorem finish_finished (c : C) :
    (b.finish i c).finished = b.finished ++ [(b.keyAt i, c)] := by
  simp [finished, finish, BankEvent.completion]

@[simp] theorem finish_taken (c : C) : (b.finish i c).taken = b.taken := by
  simp [taken, finish, BankEvent.delivery]

@[simp] theorem release_accepted (rest : List (Fin n)) (c : C) :
    (b.release i rest c).accepted = b.accepted := by
  simp [accepted, release, BankEvent.acceptance]

@[simp] theorem release_finished (rest : List (Fin n)) (c : C) :
    (b.release i rest c).finished = b.finished := by
  simp [finished, release, BankEvent.completion]

@[simp] theorem release_taken (rest : List (Fin n)) (c : C) :
    (b.release i rest c).taken = b.taken ++ [(b.keyAt i, c)] := by
  simp [taken, release, BankEvent.delivery]

/-! ## Transitions -/

theorem update_slots_apply (slot : BankSlot P C) (j : Fin n) :
    Function.update b.slots i slot j = if j = i then slot else b.slots j := by
  by_cases h : j = i
  · subst h
    simp
  · simp [h]

theorem keyAt_inj {i j : Fin n} (h : b.keyAt i = b.keyAt j) : i = j := congrArg BankKey.slot h

theorem freeSlot_eq_some (h : b.freeSlot = some i) : b.slots i = .free :=
  BankSlot.isFree_iff.mp (@find?_some _ (fun j => (b.slots j).isFree) _ _ h)

/-- A completion as its slot holds it. -/
def held (e : BankKey n × C) : BankKey n × BankSlot P C := (e.1, .completed e.2)

theorem held_injective : Function.Injective (held : BankKey n × C → BankKey n × BankSlot P C) := by
  rintro ⟨key, c⟩ ⟨key', c'⟩ h
  simp only [held, Prod.mk.injEq, BankSlot.completed.injEq] at h
  rw [h.1, h.2]

/-- What the log says of every name, and what the slots and the queue hold of it. A request keeps
its `view` while it is pending, and `link` relates a completion to the name and the view of the
request it answers. -/
structure Recorded (view : P → Q) (link : BankKey n → Q → C → Prop)
    (b : SlotBank n P C) : Prop where
  /-- no name is given twice -/
  distinct : (b.accepted.map Prod.fst).Nodup
  /-- no request is finished twice -/
  once : (b.finished.map Prod.fst).Nodup
  answers : ∀ key c, (key, c) ∈ b.finished → ∃ p, (key, p) ∈ b.accepted ∧ link key (view p) c
  /-- an accepted request is finished, or pending under its name -/
  kept : ∀ key p, (key, p) ∈ b.accepted → (∃ c, (key, c) ∈ b.finished) ∨
    ∃ p', b.slots key.slot = .pending p' ∧ b.keyAt key.slot = key ∧ view p' = view p
  past : ∀ key p, (key, p) ∈ b.accepted → key.generation ≤ b.generations key.slot
  free : ∀ i, b.slots i = .free → ∀ p, (b.keyAt i, p) ∉ b.accepted
  pending : ∀ i p, b.slots i = .pending p →
    (∃ p0, (b.keyAt i, p0) ∈ b.accepted ∧ view p = view p0) ∧ ∀ c, (b.keyAt i, c) ∉ b.finished
  /-- the queue lists what is finished and not yet taken -/
  fifo : b.finished.map held = b.taken.map held ++ b.order.map fun i => (b.keyAt i, b.slots i)
  nodup : b.order.Nodup

variable {view : P → Q} {link : BankKey n → Q → C → Prop}

theorem empty_recorded : (empty : SlotBank n P C).Recorded view link where
  distinct := nodup_nil
  once := nodup_nil
  answers _ _ h := absurd h not_mem_nil
  kept _ _ h := absurd h not_mem_nil
  past _ _ h := absurd h not_mem_nil
  free _ _ _ h := absurd h not_mem_nil
  pending _ _ h := nomatch h
  fifo := rfl
  nodup := nodup_nil

theorem Recorded.queued (hb : b.Recorded view link) (hi : i ∈ b.order) :
    ∃ c, b.slots i = .completed c ∧ (b.keyAt i, c) ∈ b.finished := by
  have hm : (b.keyAt i, b.slots i) ∈ b.finished.map held := by
    rw [hb.fifo]
    exact mem_append_right _ (mem_map_of_mem hi)
  obtain ⟨⟨key, c⟩, hf, heq⟩ := mem_map.mp hm
  simp only [held, Prod.mk.injEq] at heq
  exact ⟨c, heq.2.symm, heq.1 ▸ hf⟩

theorem Recorded.unqueued (hb : b.Recorded view link) (hs : ∀ c, b.slots i ≠ .completed c) :
    i ∉ b.order := by
  intro hi
  obtain ⟨c, hc, -⟩ := hb.queued hi
  exact hs c hc

theorem Recorded.request_eq (hb : b.Recorded view link) {key : BankKey n} {p p' : P}
    (hp : (key, p) ∈ b.accepted) (hp' : (key, p') ∈ b.accepted) : p = p' :=
  congrArg Prod.snd (inj_on_of_nodup_map hb.distinct hp hp' rfl)

theorem Recorded.taken_prefix (hb : b.Recorded view link) : b.taken <+: b.finished := by
  have hh : b.taken.map held <+: b.finished.map (held : _ → BankKey n × BankSlot P C) :=
    hb.fifo ▸ List.prefix_append _ _
  rw [List.prefix_iff_eq_take, length_map, ← map_take] at hh
  rw [List.prefix_iff_eq_take]
  exact map_injective_iff.mpr held_injective hh

theorem map_update_slots {slot : BankSlot P C} {o : List (Fin n)} (hi : i ∉ o) :
    (o.map fun j => (b.keyAt j, Function.update b.slots i slot j)) =
      o.map fun j => (b.keyAt j, b.slots j) :=
  map_congr_left fun j hj => by
    have hn : j ≠ i := fun h => hi (h ▸ hj)
    rw [update_slots_apply, if_neg hn]

theorem nodup_concat {A B : Type} {l : List (A × B)} {key : A} {value : B}
    (h : (l.map Prod.fst).Nodup) (hke : ∀ v, (key, v) ∉ l) :
    ((l ++ [(key, value)]).map Prod.fst).Nodup := by
  rw [map_append, map_singleton, nodup_append]
  refine ⟨h, nodup_singleton _, ?_⟩
  rintro k hk k' hk' rfl
  obtain ⟨e, he, rfl⟩ := mem_map.mp hk
  obtain rfl : key = e.1 := (mem_singleton.mp hk').symm
  exact hke e.2 he

section

variable (hb : b.Recorded view link)
include hb

theorem Recorded.accept (hf : b.slots i = .free) (r : P) : (b.accept i r).Recorded view link := by
  have hq : i ∉ b.order := hb.unqueued (by simp [hf])
  constructor
  case distinct =>
    rw [accept_accepted]
    exact nodup_concat hb.distinct (hb.free i hf)
  case once => simpa using hb.once
  case answers =>
    intro key c hc
    rw [accept_finished] at hc
    obtain ⟨p, hp, hl⟩ := hb.answers key c hc
    exact ⟨p, by simp [hp], hl⟩
  case kept =>
    intro key p hp
    rw [accept_accepted, mem_append, mem_singleton, Prod.mk.injEq] at hp
    rcases hp with hp | ⟨rfl, rfl⟩
    · rw [accept_finished]
      refine (hb.kept key p hp).imp id fun ⟨p', hs, hk, hv⟩ => ⟨p', ?_, hk, hv⟩
      have hn : key.slot ≠ i := fun h => by rw [h, hf] at hs; cases hs
      simpa [SlotBank.accept, update_slots_apply, hn] using hs
    · exact .inr ⟨p, by simp [SlotBank.accept, keyAt], rfl, rfl⟩
  case past =>
    intro key p hp
    rw [accept_accepted, mem_append, mem_singleton, Prod.mk.injEq] at hp
    rcases hp with hp | ⟨rfl, rfl⟩
    · exact hb.past key p hp
    · exact Nat.le_refl _
  case free =>
    intro j hj p hp
    simp only [SlotBank.accept, update_slots_apply] at hj
    split at hj
    · cases hj
    · rename_i hn
      rw [accept_accepted, mem_append, mem_singleton, Prod.mk.injEq] at hp
      rcases hp with hp | ⟨hk, -⟩
      · exact hb.free j hj p hp
      · exact hn (keyAt_inj hk)
  case pending =>
    intro j p hj
    simp only [accept_accepted, accept_finished, mem_append, mem_singleton]
    simp only [SlotBank.accept, update_slots_apply] at hj
    split at hj
    · rename_i hji
      subst hji
      cases hj
      refine ⟨⟨_, .inr rfl, rfl⟩, fun c hc => ?_⟩
      obtain ⟨p, hp, -⟩ := hb.answers _ c hc
      exact hb.free j hf p hp
    · obtain ⟨⟨p0, hp0, hv⟩, hno⟩ := hb.pending j p hj
      exact ⟨⟨p0, .inl hp0, hv⟩, hno⟩
  case fifo =>
    rw [accept_finished, accept_taken, hb.fifo]
    exact congrArg _ (map_update_slots hq).symm
  case nodup => exact hb.nodup

theorem Recorded.advance {r r' : P} (hpe : b.slots i = .pending r) (hv : view r' = view r) :
    (b.advance i r').Recorded view link := by
  have hq : i ∉ b.order := hb.unqueued (by simp [hpe])
  refine { hb with kept := ?_, free := ?_, pending := ?_, fifo := ?_ }
  · intro key p hp
    refine (hb.kept key p hp).imp id fun ⟨p', hs, hk, hp'⟩ => ?_
    by_cases hi : key.slot = i
    · rw [hi, hpe] at hs
      cases hs
      exact ⟨r', by simp [SlotBank.advance, hi], hk, hv.trans hp'⟩
    · exact ⟨p', by simpa [SlotBank.advance, update_slots_apply, hi] using hs, hk, hp'⟩
  · intro j hj
    simp only [SlotBank.advance, update_slots_apply] at hj
    split at hj
    · cases hj
    · exact hb.free j hj
  · intro j p hj
    simp only [SlotBank.advance, update_slots_apply] at hj
    split at hj
    · rename_i hji
      subst hji
      cases hj
      obtain ⟨⟨p0, hp0, heq⟩, hn⟩ := hb.pending j r hpe
      exact ⟨⟨p0, hp0, hv.trans heq⟩, hn⟩
    · exact hb.pending j p hj
  · exact hb.fifo.trans (congrArg _ (map_update_slots hq).symm)

theorem Recorded.finish {r : P} {c : C} (hpe : b.slots i = .pending r)
    (hl : link (b.keyAt i) (view r) c) : (b.finish i c).Recorded view link := by
  have hq : i ∉ b.order := hb.unqueued (by simp [hpe])
  obtain ⟨⟨p0, hp0, hv0⟩, hno⟩ := hb.pending i r hpe
  constructor
  case distinct => simpa using hb.distinct
  case once =>
    rw [finish_finished]
    exact nodup_concat hb.once hno
  case answers =>
    intro key c' hc'
    rw [finish_finished, mem_append, mem_singleton, Prod.mk.injEq] at hc'
    rw [finish_accepted]
    rcases hc' with hc' | ⟨rfl, rfl⟩
    · exact hb.answers key c' hc'
    · exact ⟨p0, hp0, hv0 ▸ hl⟩
  case kept =>
    intro key p hp
    rw [finish_accepted] at hp
    simp only [finish_finished, mem_append, mem_singleton]
    rcases hb.kept key p hp with ⟨c', hc'⟩ | ⟨p', hs, hk, hv⟩
    · exact .inl ⟨c', .inl hc'⟩
    · by_cases hi : key.slot = i
      · exact .inl ⟨c, .inr (by rw [← hk, hi])⟩
      · exact .inr ⟨p', by simpa [SlotBank.finish, update_slots_apply, hi] using hs, hk, hv⟩
  case past =>
    rw [finish_accepted]
    exact hb.past
  case free =>
    intro j hj
    simp only [SlotBank.finish, update_slots_apply] at hj
    split at hj
    · cases hj
    · rw [finish_accepted]
      exact hb.free j hj
  case pending =>
    intro j p hj
    simp only [SlotBank.finish, update_slots_apply] at hj
    split at hj
    · cases hj
    · rename_i hne
      obtain ⟨hp, hn⟩ := hb.pending j p hj
      refine ⟨by rw [finish_accepted]; exact hp, fun c' hc' => ?_⟩
      rw [finish_finished, mem_append, mem_singleton, Prod.mk.injEq] at hc'
      rcases hc' with hc' | ⟨hk, -⟩
      · exact hn c' hc'
      · exact hne (keyAt_inj hk)
  case fifo =>
    have hr : (b.order.map fun j => (b.keyAt j, b.slots j)) =
        b.order.map fun j => (b.keyAt j, Function.update b.slots i (.completed c) j) :=
      (map_update_slots hq).symm
    rw [finish_finished, finish_taken, map_append, hb.fifo, hr, append_assoc]
    simp [SlotBank.finish, held, keyAt]
  case nodup =>
    rw [SlotBank.finish, nodup_append]
    refine ⟨hb.nodup, nodup_singleton _, ?_⟩
    rintro j hj _ hm rfl
    exact hq (mem_singleton.mp hm ▸ hj)

theorem Recorded.release {rest : List (Fin n)} {c : C} (ho : b.order = i :: rest)
    (hc : b.slots i = .completed c) : (b.release i rest c).Recorded view link := by
  have hn := hb.nodup
  rw [ho, nodup_cons] at hn
  have hk : ∀ {j}, j ≠ i → (b.release i rest c).keyAt j = b.keyAt j := by
    intro j hj
    simp [SlotBank.release, keyAt, hj]
  constructor
  case distinct => simpa using hb.distinct
  case once => simpa using hb.once
  case answers => simpa using hb.answers
  case kept =>
    intro key p hp
    rw [release_accepted] at hp
    rw [release_finished]
    refine (hb.kept key p hp).imp id fun ⟨p', hs, hke, hv⟩ => ?_
    have hne : key.slot ≠ i := fun h => by rw [h, hc] at hs; cases hs
    refine ⟨p', ?_, (hk hne).trans hke, hv⟩
    simpa [SlotBank.release, update_slots_apply, hne] using hs
  case past =>
    intro key p hp
    rw [release_accepted] at hp
    have hl := hb.past key p hp
    by_cases hi : key.slot = i
    · subst hi
      simp only [SlotBank.release, Function.update_self]
      omega
    · simpa [SlotBank.release, hi] using hl
  case free =>
    intro j hj p hp
    rw [release_accepted] at hp
    by_cases hji : j = i
    · -- the new generation of the slot is above all that were given out
      have hl := hb.past _ _ hp
      simp only [SlotBank.release, keyAt, hji, Function.update_self] at hl
      omega
    · rw [hk hji] at hp
      simp only [SlotBank.release, update_slots_apply, if_neg hji] at hj
      exact hb.free j hj p hp
  case pending =>
    intro j p hj
    simp only [SlotBank.release, update_slots_apply] at hj
    split at hj
    · cases hj
    · rename_i hne
      rw [release_accepted, release_finished, hk hne]
      exact hb.pending j p hj
  case fifo =>
    have hf := hb.fifo
    have hr : (rest.map fun j => ((b.release i rest c).keyAt j, (b.release i rest c).slots j)) =
        rest.map fun j => (b.keyAt j, b.slots j) := by
      refine map_congr_left fun j hj => ?_
      have hne : j ≠ i := fun h => hn.1 (h ▸ hj)
      rw [hk hne]
      simp [SlotBank.release, hne]
    rw [ho, map_cons, hc] at hf
    rw [release_finished, release_taken, map_append, map_singleton, append_assoc, hf]
    exact congrArg _ (congrArg (_ :: ·) hr.symm)
  case nodup => exact hn.2

theorem Recorded.take_eq_ok {ε : Type} {r : Option C} (h : (b.take : Res ε _) = .ok (r, b')) :
    (b.order = [] ∧ r = none ∧ b' = b) ∨
    ∃ i rest completion, b.order = i :: rest ∧ b.slots i = .completed completion ∧
      r = some completion ∧ b' = b.release i rest completion := by
  unfold take at h
  split at h
  · rename_i ho
    obtain ⟨rfl, rfl⟩ := Prod.mk.inj (Res.ok.inj h)
    exact .inl ⟨ho, rfl, rfl⟩
  · rename_i i rest ho
    obtain ⟨completion, hc, -⟩ := hb.queued (i := i) (by simp [ho])
    rw [hc] at h
    simp only [Res.eq_ok, Res.pure_eq] at h
    obtain ⟨_, _, rfl, rfl⟩ := h
    exact .inr ⟨i, rest, completion, ho, hc, rfl, rfl⟩

end

end SlotBank

end Rust
