import Anka.Lib.Machine
import Anka.Placement.Partition

/-!
# The bounded manager partitions its pool

`Claims` and its free list divide the pool (`Tidy`), which is what `Claims::audit` checks in the
source's tests.

* `take` cuts the claim off the front of a hole (`Tidy.take`).
* `prepare_return` finds the returned extent's place in the free list by the bases; the neighbours
  it compares with are the holes on both sides, and it merges exactly those that touch
  (`prepareReturn_of_place`). `give_back`'s insertion, removals and write put the merged hole in
  their place (`edits`).
* `Tidy` is kept by every call, refused ones included (`Tidy.step`), and no call panics.
-/

namespace Anka

open Rust Res Placement List Option

variable {claim : Claim} {ε : Type}

namespace Claims

variable {pool : Extent} {c c' : Claims} {free free' : FreeList}

/-- The claims held. -/
def claimed (c : Claims) : List Claim := c.rows.filterMap id

/-- The holders and extents of the claims. -/
def holdings (c : Claims) : List (ReservationKey × Extent) :=
  c.claimed.map fun r => (r.key, r.extent)

/-- The claims and the free list of a manager over `pool`. -/
structure Tidy (pool : Extent) (c : Claims) (free : FreeList) : Prop where
  divides : Divides pool free.extents c.holdings
  held : c.held = c.claimed.length
  keys : (c.claimed.map Claim.key).Nodup
  rows_le : c.rows.length ≤ u32Max
  capacity : c.rows.length + 2 ≤ free.capacity

theorem snd_holdings (c : Claims) : c.holdings.map Prod.snd = c.claimed.map Claim.extent := by
  simp [holdings]

theorem claimed_length_le (c : Claims) : c.claimed.length ≤ c.rows.length :=
  length_filterMap_le id c.rows

theorem Tidy.free_le (h : Tidy pool c free) : free.extents.length ≤ c.held + 1 := by
  have hl := h.divides.length_free_le
  rwa [holdings, length_map, ← h.held] at hl

theorem Tidy.shape (h : Tidy pool c free) : c.shape free = ok () := by
  refine require_eq_ok.mpr ⟨?_, h.free_le, h.capacity⟩
  rw [h.held]
  exact claimed_length_le c

theorem new_tidy {host : Host} {ro fr : HostTable} {k cap : Nat}
    (h : new host ro fr k pool = ok (c, cap, free)) : Tidy pool c free := by
  simp only [new, minimumBytes, eq_ok] at h
  obtain ⟨_, ⟨hk, -⟩, hp, _, -, fre, hc, rfl, -, rfl⟩ := h
  have hem : claimed { rows := List.replicate k none, held := 0 } = [] := by
    rw [claimed, filterMap_eq_nil_iff]
    intro row hr
    rw [eq_of_mem_replicate hr]
    rfl
  refine ⟨?_, ?_, ?_, by simpa using hk, by simpa using host.le_reserve _ _ _ hc⟩
  · rw [holdings, hem]
    exact divides_pool hp
  · rw [hem]
    rfl
  · rw [hem]
    exact .nil

/-! ## Taking -/

variable {key : ReservationKey} {plan : Take} {revision : Nat}

theorem prepareTake_cut {lo revision : Nat}
    (h : c.prepareTake free key lo revision = ok plan) :
    plan.extent.base = plan.before.base ∧ plan.extent.size ≤ plan.before.size ∧
      plan.suffix = if plan.extent.size < plan.before.size then
        some ⟨plan.before.base + plan.extent.size,
          plan.before.size - plan.extent.size⟩ else none := by
  simp only [prepareTake, eq_ok] at h
  obtain ⟨-, -, -, claim, -, size, -, hole, hh, b, hb, _, ⟨-, rfl⟩, rfl⟩ := h
  obtain ⟨hl, hf, -⟩ := findIdx?_eq_some_iff_getElem.mp hh
  rw [getElem?_eq_getElem hl] at hb
  rw [some.inj hb] at hf
  exact ⟨rfl, of_decide_eq_true hf, rfl⟩

theorem take_free
    (h : (c.take free plan revision : Res ε _) = ok (c', free')) :
    c'.held = c.held + 1 ∧ free'.capacity = free.capacity ∧
      free'.extents = match plan.suffix with
        | some suffix => free.extents.set plan.hole suffix
        | none => free.extents.eraseIdx plan.hole := by
  simp only [Claims.take, eq_ok] at h
  obtain ⟨-, -, -, _, ⟨-, rfl⟩, rfl, rfl⟩ := h
  exact ⟨rfl, rfl, rfl⟩

theorem Tidy.take (h : Tidy pool c free) {lo revision : Nat}
    (hp : c.prepareTake free key lo revision = ok plan)
    (ht : (c.take free plan revision : Res ε _) = ok (c', free')) : Tidy pool c' free' := by
  have hch := prepareTake_eq_ok hp
  obtain ⟨hb, hf, hs⟩ := prepareTake_cut hp
  obtain ⟨hro, hr⟩ := take_eq_ok ht
  obtain ⟨hcn, hcp, hex⟩ := take_free ht
  have hc : c'.claimed.Perm (⟨plan.key, plan.extent⟩ :: c.claimed) := by
    unfold claimed
    rw [hr]
    exact occupied_set_some hro
  have hcu : free'.extents = cut free.extents plan.hole plan.before plan.extent.size := by
    rw [hex, hs, cut]
    by_cases hl : plan.extent.size < plan.before.size
    · simp [hl]
    · simp [hl]
  refine ⟨?_, ?_, ?_, ?_, ?_⟩
  · have hca := h.divides.carve plan.key hch.hole (pageCeil_pos hch.size)
      (pageCeil_dvd hch.size) hf
    rw [hcu]
    refine hca.perm ((hc.map _).trans (.of_eq ?_))
    rw [map_cons, ← hb, holdings]
  · rw [hc.length_eq, length_cons, ← h.held, hcn]
  · refine (hc.map Claim.key).nodup_iff.mpr (nodup_cons.mpr ⟨?_, h.keys⟩)
    intro hm
    obtain ⟨claim, hcl, hk⟩ := mem_map.mp hm
    obtain ⟨i, hi⟩ := mem_occupied.mp hcl
    exact hch.fresh i claim hi (hk.trans hch.key_eq)
  · rw [hr, length_set]
    exact h.rows_le
  · rw [hr, length_set, hcp]
    exact h.capacity

/-! ## Returning -/

theorem edits (A B : List Extent) (l r : Option Extent) (e m : Extent) :
    let index := (A ++ l.toList).length
    let inserted := (A ++ l.toList ++ (r.toList ++ B)).insertIdx index e
    let closed := if r.isSome then inserted.eraseIdx (index + 1) else inserted
    (if l.isSome then (closed.eraseIdx index).set (index - 1) m else closed.set index m) =
      A ++ m :: B := by
  have hi : ∀ X Y : List Extent, (X ++ Y).insertIdx X.length e = X ++ e :: Y := by
    intro X Y
    induction X with
    | nil => rfl
    | cons x X ih => simp [ih]
  have her : ∀ (X Y : List Extent) (n : Nat),
      (X ++ Y).eraseIdx (X.length + n) = X ++ Y.eraseIdx n := by
    intro X Y n
    rw [eraseIdx_append_of_length_le (Nat.le_add_right _ _), Nat.add_sub_cancel_left]
  have hc : ∀ X : List Extent, (if r.isSome then
      (X ++ e :: (r.toList ++ B)).eraseIdx (X.length + 1) else X ++ e :: (r.toList ++ B)) =
        X ++ e :: B := by
    intro X
    cases r with
    | none => simp
    | some y => simp [her]
  simp only [hi, hc]
  cases l with
  | none => simp
  | some x => simp [her]

section Place

variable {A B : List Extent} {l r : Option Extent} {e : Extent}

section

variable (h : Place A l e r B)
include h

theorem index_of_place :
    ((A ++ l.toList ++ (r.toList ++ B)).takeWhile fun x => decide (x.base < e.base)).length =
      (A ++ l.toList).length := by
  have hb : ∀ x ∈ A ++ l.toList, decide (x.base < e.base) = true := fun x hx =>
    decide_eq_true (h.base_lt hx)
  have ha : (r.toList ++ B).takeWhile (fun x => decide (x.base < e.base)) = [] := by
    cases hl : r.toList ++ B with
    | nil => rfl
    | cons x rest =>
      have hle := h.end_le (x := x) (by simp [hl])
      exact takeWhile_cons_of_neg (by simp; omega)
  rw [takeWhile_append_of_pos hb, ha, append_nil]

theorem neighbour_before (F : List Extent)
    (hF : F = A ++ l.toList ++ (r.toList ++ B)) :
    let before := if (A ++ l.toList).length = 0 then none else F[(A ++ l.toList).length - 1]?
    (before.all fun x => x.endAddr.any fun n => decide (n ≤ e.base)) = true ∧
      (before.any fun x => x.endAddr == some e.base) = l.isSome ∧
      (l.isSome = true → before.map Extent.base = l.map Extent.base) := by
  cases l with
  | some x =>
    have hx := h.endAddr (x := x) (by simp)
    have ht := (h.left x rfl).2
    simp [hF, hx, ht]
  | none =>
    rcases eq_nil_or_concat A with rfl | ⟨A', x, rfl⟩
    · simp
    · have hx := h.endAddr (x := x) (by simp)
      have hl := h.before x (by simp)
      simp [hF, hx]
      omega

theorem neighbour_after (F : List Extent) (hF : F = A ++ l.toList ++ (r.toList ++ B)) :
    (F[(A ++ l.toList).length]?.all fun x => decide (e.base + e.size ≤ x.base)) = true ∧
      (F[(A ++ l.toList).length]?.any fun x => x.base == e.base + e.size) = r.isSome ∧
      (if r.isSome = true then F[(A ++ l.toList).length]?.bind Extent.endAddr
        else some (e.base + e.size)) =
        some ((r.map fun x => x.base + x.size).getD (e.base + e.size)) := by
  have hn : F[(A ++ l.toList).length]? = (r.toList ++ B).head? := by
    rw [hF, getElem?_append_right (Nat.le_refl _), Nat.sub_self, head?_eq_getElem?]
  rw [hn]
  cases r with
  | some x =>
    have hx := h.endAddr (x := x) (by simp)
    simp [h.right x rfl, hx]
  | none =>
    cases B with
    | nil => simp
    | cons x B =>
      have hl := h.after x (by simp)
      simp
      omega

/-- The plan for the return of a claimed extent at its place in the free list. -/
theorem prepareReturn_of_place
    (hf : free.extents = A ++ l.toList ++ (r.toList ++ B)) (hs : c.shape free = ok ())
    {i : Nat} {key : ReservationKey} (hrw : c.rows.findIdx? (· == some ⟨key, e⟩) = some i)
    (hpo : validExtent pool = true) (hv : validExtent e = true) (hba : pool.base ≤ e.base)
    (hst : e.base + e.size ≤ pool.base + pool.size) (hh : c.held ≠ 0)
    (hro : free.extents.length ≠ free.capacity) (revision : Nat) :
    c.prepareReturn free pool key e revision = ok
      { claim := i, index := (A ++ l.toList).length, left := l.isSome, right := r.isSome
        merged := merge l e r, key, extent := e, revision } := by
  obtain ⟨-, -, -, hp⟩ := validExtent_iff.mp hpo
  have hen : e.endAddr = some (e.base + e.size) := endAddr_eq_some.mpr ⟨h.fits_self, rfl⟩
  have hpe : pool.endAddr = some (pool.base + pool.size) := endAddr_eq_some.mpr ⟨hp, rfl⟩
  obtain ⟨hb, hlf, hl⟩ := neighbour_before h free.extents hf
  obtain ⟨ha, hri, hme⟩ := neighbour_after h free.extents hf
  have hi := index_of_place h
  rw [← hf] at hi
  -- the merged hole begins where the left neighbour does, and ends after it
  have hm : ∀ b : Option Extent,
      (l.isSome = true → b.map Extent.base = l.map Extent.base) →
      (if l.isSome then (b.map Extent.base).getD e.base else e.base) =
        (l.map Extent.base).getD e.base := by
    intro b hsa
    cases l with
    | none => rfl
    | some x => simp [hsa rfl]
  have hle : (l.map Extent.base).getD e.base ≤
      (r.map fun x => x.base + x.size).getD (e.base + e.size) := by
    have hr : e.base ≤ (r.map fun x => x.base + x.size).getD (e.base + e.size) := by
      cases r with
      | none => exact Nat.le_add_right _ _
      | some x =>
        have := h.right x rfl
        simp only [map_some, getD_some]
        omega
    exact Nat.le_trans h.left_le hr
  simp only [Claims.prepareReturn, hs, hrw, hen, hpe, okOr, unwrap, require, ok_bind, hi,
    hv, hba, hst, hh, hro, ne_eq, not_false_eq_true, and_self, if_true]
  rw [if_pos ⟨hb, ha⟩]
  simp only [ok_bind, hlf, hri, hme, hm _ hl, checkedSub, hle, if_true,
    pure_eq]
  rfl

end

end Place

theorem findIdx?_claim (h : claim ∈ c.claimed) :
    ∃ i, c.rows.findIdx? (· == some claim) = some i ∧ c.rows[i]? = some (some claim) := by
  obtain ⟨j, hj⟩ := mem_occupied.mp h
  obtain ⟨i, hi⟩ : ∃ i, c.rows.findIdx? (· == some claim) = some i :=
    isSome_iff_exists.mp (findIdx?_isSome.trans (any_eq_true.mpr
      ⟨some claim, mem_of_getElem? hj, beq_self_eq_true _⟩))
  obtain ⟨hl, hr, -⟩ := findIdx?_eq_some_iff_getElem.mp hi
  exact ⟨i, hi, by rw [getElem?_eq_getElem hl, beq_iff_eq.mp hr]⟩

theorem Tidy.claimed_pos (h : Tidy pool c free) (hc : claim ∈ c.claimed) :
    0 < c.held ∧ c.held ≤ c.rows.length := by
  rw [h.held]
  exact ⟨length_pos_of_mem hc, claimed_length_le c⟩

theorem giveBack_free {plan : Return}
    (h : (c.giveBack free plan revision : Res ε _) = ok (c', free')) :
    c'.held + 1 = c.held ∧ free'.capacity = free.capacity ∧
      (let inserted := free.extents.insertIdx plan.index plan.extent
       let closed := if plan.right then inserted.eraseIdx (plan.index + 1) else inserted
       free'.extents = if plan.left then (closed.eraseIdx plan.index).set
         (plan.index - 1) plan.merged
         else closed.set plan.index plan.merged) := by
  simp only [giveBack, eq_ok] at h
  obtain ⟨-, -, -, -, -, -, -, _, ⟨hl, rfl⟩, rfl, rfl⟩ := h
  exact ⟨Nat.sub_add_cancel hl, rfl, rfl⟩

/-- **Every claim can be returned**, which clears its row and keeps the invariant. -/
theorem Tidy.giveBack (h : Tidy pool c free) (hcl : claim ∈ c.claimed) (revision : Nat)
    (ε : Type) : ∃ plan c' free',
      c.prepareReturn free pool claim.key claim.extent revision = ok plan ∧
      (c.giveBack free plan revision : Res ε _) = ok (c', free') ∧ Tidy pool c' free' ∧
      c.claimed.Perm (claim :: c'.claimed) := by
  obtain ⟨i, hi, hro⟩ := findIdx?_claim hcl
  obtain ⟨hpo, hcn⟩ := h.claimed_pos hcl
  have hfree_le := h.free_le
  have hca := h.capacity
  have hh : (claim.key, claim.extent) ∈ c.holdings :=
    mem_map_of_mem (f := fun r : Claim => (r.key, r.extent)) hcl
  have hm : claim.extent ∈ free.extents ++ c.holdings.map Prod.snd :=
    mem_append_right _ (mem_map_of_mem (f := Prod.snd) hh)
  obtain ⟨hba, hs⟩ := h.divides.inside hm
  obtain ⟨A, l, r, B, hpl, hf, hd⟩ := h.divides.give_back hh
  have hp := prepareReturn_of_place hpl hf h.shape hi h.divides.pool_valid
    (h.divides.valid hm) hba hs (by omega) (by omega) revision
  obtain ⟨⟨c', free'⟩, hb⟩ := Avoids.exists_ok (giveBack_avoids (prepareReturn_eq_ok hp) (ε := ε))
  obtain ⟨-, hr⟩ := giveBack_eq_ok hb
  obtain ⟨hback_held, hback_cap, hex⟩ := giveBack_free hb
  have hc : c.claimed.Perm (claim :: c'.claimed) := by
    unfold claimed
    rw [hr]
    exact occupied_set_none hro
  have hk := (hc.map Claim.key).nodup_iff.mp h.keys
  refine ⟨_, c', free', hp, hb, ⟨?_, ?_, (nodup_cons.mp hk).2, ?_, ?_⟩, hc⟩
  · rw [hex, hf, edits]
    exact hd c'.holdings (hc.map fun r : Claim => (r.key, r.extent))
  · have hl := hc.length_eq
    rw [← h.held, length_cons] at hl
    omega
  · rw [hr, length_set]
    exact h.rows_le
  · rw [hr, length_set, hback_cap]
    exact h.capacity

theorem Tidy.returned (h : Tidy pool c free) {ex : Extent} {plan : Return}
    (hp : c.prepareReturn free pool key ex revision = ok plan)
    (hb : (c.giveBack free plan revision : Res ε _) = ok (c', free')) : Tidy pool c' free' := by
  have hr := (prepareReturn_eq_ok hp).row
  have hc : (⟨key, ex⟩ : Claim) ∈ c.claimed := mem_occupied.mpr ⟨_, hr⟩
  obtain ⟨plan', c1, free1, hp', hb', ht, -⟩ := h.giveBack hc revision ε
  rw [hp] at hp'
  cases hp'
  rw [hb] at hb'
  cases hb'
  exact ht

/-! ## Every sequence of calls -/

end Claims

/-- One admission or return on a manager: its preparation and its commit. -/
inductive ClaimsOp where
  | take (key : ReservationKey) (logical revision : Nat)
  | giveBack (key : ReservationKey) (extent : Extent) (revision : Nat)

namespace Claims

variable {s s' : Claims × FreeList}

/-- The result of one call: the tables after it, or the error of the preparation. -/
def apply (pool : Extent) (s : Claims × FreeList) : ClaimsOp →
    Res PlacementError (Claims × FreeList)
  | .take key logical revision => do
    let plan ← s.1.prepareTake s.2 key logical revision
    s.1.take s.2 plan revision
  | .giveBack key extent revision => do
    let plan ← s.1.prepareReturn s.2 pool key extent revision
    s.1.giveBack s.2 plan revision

/-- The tables after one call. -/
def step (pool : Extent) (s : Claims × FreeList) (op : ClaimsOp) : Option (Claims × FreeList) :=
  match apply pool s op with
  | ok s' => some s'
  | err _ => some s
  | .panic => none

/-- The tables `Claims::new` builds. -/
def Built (pool : Extent) (k : Nat) (s : Claims × FreeList) : Prop :=
  ∃ host rowsTable freeTable cap, new host rowsTable freeTable k pool = ok (s.1, cap, s.2)

/-- The tables that calls can lead to over a pool with `k` rows. -/
def Reachable (pool : Extent) (k : Nat) : Claims × FreeList → Prop :=
  Machine.Reachable (step pool) (Built pool k)

variable {op : ClaimsOp} {k : Nat}

theorem Tidy.apply (h : Tidy pool s.1 s.2) (ho : Claims.apply pool s op = ok s') :
    Tidy pool s'.1 s'.2 ∧ s'.1.rows.length = s.1.rows.length := by
  cases op with
  | take key lo revision =>
    simp only [Claims.apply, bind_eq_ok] at ho
    obtain ⟨plan, hp, ht⟩ := ho
    exact ⟨h.take hp ht, by rw [(take_eq_ok ht).2, length_set]⟩
  | giveBack key ex revision =>
    simp only [Claims.apply, bind_eq_ok] at ho
    obtain ⟨plan, hp, hb⟩ := ho
    exact ⟨h.returned hp hb, by rw [(giveBack_eq_ok hb).2, length_set]⟩

theorem apply_not_panic (op : ClaimsOp) (h : Tidy pool s.1 s.2) :
    Claims.apply pool s op ≠ panic := by
  refine @Avoids.not_panic _ _ _ (fun _ => False) ?_
  cases op with
  | take key lo revision =>
    simp only [Claims.apply, avoids_bind]
    exact ⟨prepareTake_avoids _ _ _ _ _ fun _ => not_false,
      fun plan hp => take_avoids (prepareTake_eq_ok hp) h.rows_le⟩
  | giveBack key ex revision =>
    obtain ⟨-, -, -, hen⟩ := validExtent_iff.mp h.divides.pool_valid
    have hpo : pool.endAddr.isSome = true := by simp [endAddr_eq_some.mpr ⟨hen, rfl⟩]
    simp only [Claims.apply, avoids_bind]
    exact ⟨prepareReturn_avoids _ _ _ _ _ (fun _ => not_false) hpo,
      fun plan hp => giveBack_avoids (prepareReturn_eq_ok hp)⟩

theorem Tidy.step (h : Tidy pool s.1 s.2 ∧ s.1.rows.length = k)
    (hs : Claims.step pool s op = some s') : Tidy pool s'.1 s'.2 ∧ s'.1.rows.length = k := by
  unfold Claims.step at hs
  split at hs
  · rename_i ho
    rw [some.inj hs] at ho
    exact ⟨(h.1.apply ho).1, (h.1.apply ho).2.trans h.2⟩
  · exact some.inj hs ▸ h
  · cases hs

theorem Reachable.tidy (hr : Reachable pool k s) : Tidy pool s.1 s.2 ∧ s.1.rows.length = k := by
  refine @Machine.Reachable.invariant _ _ (Claims.step pool) (Built pool k)
    (fun s => Tidy pool s.1 s.2 ∧ s.1.rows.length = k) ?_ (fun _ _ _ h hs => Tidy.step h hs) s hr
  rintro s ⟨host, ro, fr, cap, hn⟩
  refine ⟨new_tidy hn, ?_⟩
  simp only [new, eq_ok] at hn
  obtain ⟨_, -, -, _, -, _, -, hro, -⟩ := hn
  rw [← hro, length_replicate]

theorem Tidy.return_all (h : Tidy pool s.1 s.2) (o : List (Claim × Nat))
    (ho : (o.map Prod.fst).Perm s.1.claimed) : ∃ s',
      o.foldlM (fun s r => Claims.apply pool s (.giveBack r.1.key r.1.extent r.2)) s = ok s' ∧
        s'.1.claimed = [] ∧ s'.2.extents = [pool] := by
  induction o generalizing s with
  | nil =>
    have hn : s.1.claimed = [] := ho.symm.eq_nil
    have hd := h.divides
    rw [holdings, hn, map_nil] at hd
    exact ⟨s, rfl, hn, hd.free_eq_pool⟩
  | cons r o ih =>
    have hm : r.1 ∈ s.1.claimed := ho.mem_iff.mp (by simp)
    obtain ⟨plan, c', free', hp, hb, ht, hc⟩ := h.giveBack hm r.2 PlacementError
    have hr : (o.map Prod.fst).Perm c'.claimed := (ho.trans hc).cons_inv
    obtain ⟨s', hs', hdo⟩ := ih (s := (c', free')) ht hr
    refine ⟨s', ?_, hdo⟩
    rw [foldlM_cons, Claims.apply, hp, ok_bind, hb, ok_bind]
    exact hs'

/-- **The bounded manager partitions its pool.** In every reachable state of a manager over `pool`
with `k` rows, the free extents and the claimed ones are page-aligned and not empty, share no
address and cover exactly the pool; the free list is sorted and no two of its extents touch; it has
at most one extent more than there are claims, and so never outgrows its `k + 2` reserved places,
the one that a return inserts included; `held` counts the occupied rows, and no key occurs twice. No
call panics, a refused one changes nothing, and the return of all claims in any order leaves the
pool as one extent. -/
theorem bounded_manager_partition {k : Nat} {s : Claims × FreeList} (hreach : Reachable pool k s) :
    (∀ e ∈ s.2.extents ++ s.1.claimed.map Claim.extent, validExtent e = true) ∧
    (s.2.extents ++ s.1.claimed.map Claim.extent).Pairwise Extent.Disjoint ∧
    (∀ n, pool.base ≤ n ∧ n < pool.base + pool.size ↔
      ∃ e ∈ s.2.extents ++ s.1.claimed.map Claim.extent, e.base ≤ n ∧ n < e.base + e.size) ∧
    (s.2.extents.Pairwise fun x y => x.base + x.size < y.base) ∧
    (s.2.extents.length ≤ s.1.held + 1 ∧ s.1.held + 1 ≤ s.1.rows.length + 1 ∧
      s.1.rows.length = k ∧ s.2.extents.length + 1 ≤ k + 2 ∧ k + 2 ≤ s.2.capacity) ∧
    s.1.held = s.1.claimed.length ∧ (s.1.claimed.map Claim.key).Nodup ∧
    (∀ op, apply pool s op ≠ panic ∧ ∀ e, apply pool s op = err e → step pool s op = some s) ∧
    ∀ order : List (Claim × Nat), (order.map Prod.fst).Perm s.1.claimed → ∃ s',
      order.foldlM (fun s r => apply pool s (.giveBack r.1.key r.1.extent r.2)) s = ok s' ∧
        s'.1.claimed = [] ∧ s'.2.extents = [pool] := by
  obtain ⟨ht, hr⟩ := hreach.tidy
  have hf := ht.free_le
  have hca := ht.capacity
  have hc := claimed_length_le s.1
  rw [← ht.held] at hc
  have hd := ht.divides
  rw [← snd_holdings]
  refine ⟨fun e he => hd.valid he, hd.disjoint, hd.covers, hd.free_apart, ?_,
    ht.held, ht.keys, fun op => ⟨apply_not_panic op ht, fun e he => ?_⟩, ht.return_all⟩
  · omega
  · simp only [step, he]

/-- A pool of three pages with two claims, the first of which is returned before the second. -/
theorem bounded_manager_partition_three_pages : ∃ s, Reachable ⟨4096, 12288⟩ 2 s ∧
    s.2.extents = [⟨4096, 4096⟩, ⟨12288, 4096⟩] ∧ s.1.held = 1 ∧
    s.2.extents.Pairwise fun x y => x.base + x.size < y.base := by
  let pool : Extent := ⟨4096, 12288⟩
  let first : ReservationKey := { owner := 1, slot := 1, generation := 1, job := 1 }
  let second : ReservationKey := { owner := 1, slot := 2, generation := 1, job := 2 }
  let calls : List ClaimsOp := [.take first 100 0, .take second 4096 1,
    .giveBack first ⟨4096, 4096⟩ 2]
  have hru : (new exactHost .physicalRows .physicalFree 2 pool).isOkAnd (fun built =>
      (Machine.replay (step pool) (fun _ _ => True) calls (built.1, built.2.2)).any fun s =>
        decide (s.2.extents = [⟨4096, 4096⟩, ⟨12288, 4096⟩] ∧ s.1.held = 1)) = true := by
    decide +kernel
  simp only [isOkAnd_eq_true, Option.any_eq_true, decide_eq_true_eq] at hru
  obtain ⟨built, hn, s, hs, hex, hh⟩ := hru
  have hr : Reachable pool 2 s :=
    ⟨(built.1, built.2.2), ⟨exactHost, .physicalRows, .physicalFree, built.2.1, hn⟩,
      Machine.run_of_replay hs⟩
  exact ⟨s, hr, hex, hh, (bounded_manager_partition hr).2.2.2.1⟩

end Claims

end Anka
