import Anka.ScopedPointers.Refine

/-!
# Conservation of the registry's quota

A charge is entered when a heap lifetime or a host-storage row is reserved and refunded when that
row is returned. `Quota` is the conservation law: each account's `reserved` is the sum of
`rounded` over the heap records and the host-storage rows it owns, `reserved_bytes` is the sum
over the accounts, and both stay inside their limits. Any sequence of calls, with any tokens,
keeps it (**`quota_conserved`**), so the bare `+` and `-` of the reservation path are in range.

The law is over the records as they are, so a charge that were lost, entered twice or refunded
twice would break one of its equations.
-/

namespace Anka

open Rust Res List Option Slot
variable {token : OwnerAccount} {slot : Slot}

/-! ## Owned charges -/

/-- The charge of a slot to an account: its heap record's `rounded`. -/
def Slot.chargeTo (token : OwnerAccount) (slot : Slot) : Nat :=
  match slot.record with
  | .heap r => if r.owner = token then r.rounded else 0
  | _ => 0

/-- The charge of a host-storage row to an account. -/
def hostChargeTo (token : OwnerAccount) (row : Option HostStorageRecord) : Nat :=
  row.elim 0 fun r => if r.token.account = token then r.rounded else 0

/-- The charge of a slot, whoever owns it. -/
def Slot.charged (slot : Slot) : Nat := slot.heap?.elim 0 (·.rounded)

/-- The charge of a host-storage row, whoever owns it. -/
def hostCharged (row : Option HostStorageRecord) : Nat := row.elim 0 (·.rounded)

/-- What an account row has reserved. -/
def reservedOf (row : Option Account) : Nat := row.elim 0 (·.reserved)

/-- The token an account row carries. -/
def tokenAt (accounts : List (Option Account)) (i : Nat) : Option OwnerAccount :=
  accounts[i]?.join.map (·.token)

variable {r : HeapRecord}

theorem Slot.chargeTo_heap (h : slot.record = .heap r) :
    slot.chargeTo token = if r.owner = token then r.rounded else 0 := by
  simp [chargeTo, h]

theorem Slot.chargeTo_owner (h : slot.record = .heap r) (ho : r.owner = token) :
    slot.chargeTo token = r.rounded := by
  rw [chargeTo_heap h, if_pos ho]

theorem Slot.chargeTo_of_not_heap (h : ∀ r, slot.record ≠ .heap r) (token : OwnerAccount) :
    slot.chargeTo token = 0 := by
  unfold chargeTo
  split
  · exact absurd ‹_› (h _)
  · rfl

theorem Slot.chargeTo_congr {a b : Slot} (h : a.record = b.record) :
    a.chargeTo token = b.chargeTo token := by
  unfold chargeTo
  rw [h]

variable {t : OwnerAccount} {accounts : List (Option Account)} {i : Nat}

theorem tokenAt_eq_some :
    tokenAt accounts i = some t ↔ ∃ a, accounts[i]? = some (some a) ∧ a.token = t := by
  simp [tokenAt, join_eq_some_iff]

theorem tokenAt_set {a b : Account} (hr : accounts[i]? = some (some a)) (htok : b.token = a.token) :
    tokenAt (accounts.set i (some b)) = tokenAt accounts := by
  funext j
  unfold tokenAt
  rw [getElem?_set_row hr]
  split
  · rename_i hi
    rw [← hi, hr]
    simp [htok]
  · rfl

namespace ScopedPointers

variable {F : RegistryFootprint} {i : Nat} {slot : Slot} {token : OwnerAccount} {a : Account}

/-- The sum of `rounded` over the heap records and host-storage rows an account owns. -/
def owned (s : ScopedPointers) (token : OwnerAccount) : Nat :=
  charge (Slot.chargeTo token) s.slots + charge (hostChargeTo token) s.heap.hostStorage

/-- The conservation law. -/
structure Quota (s : ScopedPointers) : Prop where
  /-- Each account has reserved exactly what its records hold. -/
  reserved : ∀ (i : Nat) (a : Account), s.heap.accounts[i]? = some (some a) →
    a.reserved = s.owned a.token
  /-- The registry has reserved exactly what its accounts hold. -/
  total : s.heap.reservedBytes = charge reservedOf s.heap.accounts
  ownerLimit : ∀ (i : Nat) (a : Account), s.heap.accounts[i]? = some (some a) → a.reserved ≤ a.limit
  globalLimit : s.heap.fixedBytes + s.heap.reservedBytes ≤ s.heap.limit

/-- Every account row carries its own index and a serial that was handed out; every record's
owner is a present account. -/
structure Tokens (s : ScopedPointers) : Prop where
  row : ∀ i t, tokenAt s.heap.accounts i = some t → t.index = i ∧ t.serial < s.heap.nextOwner
  heapOwner : ∀ (i : Nat) (slot : Slot) (r : HeapRecord), s.slots[i]? = some slot →
    slot.record = .heap r → tokenAt s.heap.accounts r.owner.index = some r.owner
  hostOwner : ∀ (i : Nat) (r : HostStorageRecord), s.heap.hostStorage[i]? = some (some r) →
    tokenAt s.heap.accounts r.token.account.index = some r.token.account

/-- A slot with a heap record is held, and every charge is a rounded size. -/
structure Shapes (s : ScopedPointers) : Prop where
  held : ∀ (i : Nat) (slot : Slot) (r : HeapRecord), s.slots[i]? = some slot →
    slot.record = .heap r → slot.state.isHeld = true
  rounded : ∀ (i : Nat) (slot : Slot) (r : HeapRecord), s.slots[i]? = some slot →
    slot.record = .heap r → r.logical ≠ 0 ∧ r.logical ≤ i64Max ∧ pageCeil r.logical = ok r.rounded
  host : ∀ (i : Nat) (r : HostStorageRecord), s.heap.hostStorage[i]? = some (some r) → 0 < r.rounded
  limit_le : s.heap.limit ≤ u64Max

/-- The three together are inductive. -/
structure Ledger (s : ScopedPointers) : Prop where
  quota : Quota s
  tokens : Tokens s
  shapes : Shapes s

variable {s s' : ScopedPointers}

theorem Shapes.not_heap_of_free (h : Shapes s) (hs : s.slots[i]? = some slot)
    (hfree : slot.state = .free ∨ ∃ a, slot.record = .local a) (r : HeapRecord) :
    slot.record ≠ .heap r := by
  intro hr
  rcases hfree with hfree | ⟨a, ha⟩
  · have := h.held i slot r hs hr
    rw [hfree] at this
    cases this
  · rw [ha] at hr
    cases hr

theorem Quota.of_account (h : Quota s) (ha : s.account token = ok a) :
    a.reserved = s.owned token ∧ a.reserved ≤ s.heap.reservedBytes := by
  obtain ⟨hr, htok⟩ := account_eq_ok.mp ha
  refine ⟨htok ▸ h.reserved _ _ hr, ?_⟩
  rw [h.total]
  exact @le_charge _ reservedOf _ _ _ hr

/-! ## Writes to one row -/

theorem owned_set_slot {old : Slot} (hold : s.slots[i]? = some old) (new : Slot)
    (token : OwnerAccount) :
    charge (Slot.chargeTo token) (s.slots.set i new) + old.chargeTo token =
      charge (Slot.chargeTo token) s.slots + new.chargeTo token := charge_set hold

variable {j : Nat} {b : Account}

theorem Tokens.rows_of_set (h : Tokens s) {row : Option Account}
    (ha : s.heap.accounts[i]? = some (some a))
    (hb : (s.heap.accounts.set i row)[j]? = some (some b)) :
    i = j ∧ row = some b ∨ i ≠ j ∧ s.heap.accounts[j]? = some (some b) ∧ b.token ≠ a.token := by
  rw [getElem?_set_row ha] at hb
  by_cases hij : i = j
  · rw [if_pos hij] at hb
    exact .inl ⟨hij, some.inj hb⟩
  · rw [if_neg hij] at hb
    refine .inr ⟨hij, hb, fun htok => hij ?_⟩
    have hi := (h.row i a.token (tokenAt_eq_some.mpr ⟨a, ha, rfl⟩)).1
    have hj := (h.row j b.token (tokenAt_eq_some.mpr ⟨b, hb, rfl⟩)).1
    rw [← hi, ← hj, htok]

theorem Quota.of_rows {t : ScopedPointers}
    (hr : ∀ (i : Nat) (a : Account), t.heap.accounts[i]? = some (some a) →
      a.reserved = t.owned a.token ∧ a.reserved ≤ a.limit)
    (ht : t.heap.reservedBytes = charge reservedOf t.heap.accounts)
    (hg : t.heap.fixedBytes + t.heap.reservedBytes ≤ t.heap.limit) : Quota t :=
  ⟨fun i a ha => (hr i a ha).1, ht, fun i a ha => (hr i a ha).2, hg⟩

theorem Quota.move (h : Quota s) (ht : Tokens s) {t : ScopedPointers} (ha : s.account token = ok a)
    (haccs : t.heap.accounts = s.heap.accounts.set token.index (some b))
    (hb : b.token = a.token ∧ b.limit = a.limit)
    (ho : ∀ u, t.owned u + (if token = u then a.reserved else 0) =
      s.owned u + if token = u then b.reserved else 0) (hl : b.reserved ≤ a.limit)
    (hto : t.heap.reservedBytes + a.reserved = s.heap.reservedBytes + b.reserved)
    (hg : t.heap.fixedBytes + t.heap.reservedBytes ≤ t.heap.limit) : Quota t := by
  obtain ⟨hr, htok⟩ := account_eq_ok.mp ha
  have hm := (h.of_account ha).1
  refine .of_rows (fun j c hc => ?_) ?_ hg
  · rw [haccs] at hc
    rcases ht.rows_of_set hr hc with ⟨-, hc⟩ | ⟨-, hc, hn⟩
    · cases hc
      have hs := ho token
      rw [if_pos rfl, if_pos rfl] at hs
      rw [hb.1, hb.2, htok]
      omega
    · have hot := ho c.token
      rw [if_neg (htok ▸ hn.symm), if_neg (htok ▸ hn.symm)] at hot
      refine ⟨?_, h.ownerLimit j c hc⟩
      rw [h.reserved j c hc]
      omega
  · have hse := @charge_set _ reservedOf _ _ (some b) _ hr
    have hsu := h.total
    simp only [reservedOf, Option.elim] at hse hsu ⊢
    rw [haccs]
    omega

theorem Quota.keep (h : Quota s) {t : ScopedPointers} (haccs : t.heap.accounts = s.heap.accounts)
    (ho : ∀ token, t.owned token = s.owned token) (ht : t.heap.reservedBytes = s.heap.reservedBytes)
    (hg : t.heap.fixedBytes + t.heap.reservedBytes ≤ t.heap.limit) : Quota t := by
  refine .of_rows (fun i a ha => ?_) (by rw [ht, h.total, haccs]) hg
  rw [haccs] at ha
  exact ⟨(h.reserved i a ha).trans (ho _).symm, h.ownerLimit i a ha⟩

theorem charge_of_unowned (h : Tokens s) (hf : s.heap.nextOwner ≤ token.serial) :
    s.owned token = 0 := by
  have hs : charge (chargeTo token) s.slots = 0 := by
    rw [charge_eq_zero]
    intro i slot hsl
    unfold chargeTo
    split
    · rename_i r hr
      have := (h.row _ _ (h.heapOwner i slot r hsl hr)).2
      exact if_neg fun heq => absurd (heq ▸ this) (by omega)
    · rfl
  have hh : charge (hostChargeTo token) s.heap.hostStorage = 0 := by
    rw [charge_eq_zero]
    intro i row hro
    cases row with
    | none => rfl
    | some r =>
      have := (h.row _ _ (h.hostOwner i r hro)).2
      exact if_neg fun heq => absurd (heq ▸ this) (by omega)
  rw [owned, hs, hh]

/-- Every atomic change keeps the conservation law. -/
theorem Change.quota (hc : Change F s s') (h : Ledger s) : Quota s' := by
  have hq := h.quota
  have hg := hq.globalLimit
  cases hc with
  | quiet | trimmed => exact hq.keep rfl (fun _ => rfl) rfl hg
  | fixedCharge n hn => exact hq.keep rfl (fun _ => rfl) rfl (by simp only; omega)
  | localWrite i bound old new hold hfree hne hbo =>
    refine hq.keep rfl (fun token => ?_) rfl hg
    obtain ⟨a, ha⟩ := hne
    have hs := owned_set_slot hold new token
    rw [chargeTo_of_not_heap (h.shapes.not_heap_of_free hold hfree) token,
      chargeTo_of_not_heap (by simp [ha]) token] at hs
    simp only [owned]
    omega
  | localsReleased scope =>
    refine hq.keep rfl (fun token => ?_) rfl hg
    simp only [owned, releaseLocals]
    rw [charge_mapIdx]
    intro i slot
    split
    · exact chargeTo_congr (release_record slot)
    · rfl
  | admitted index row placement hfree htok hop hzero hnext hbi =>
    refine .of_rows (fun j b hb => ?_) ?_ hg
    · simp only [getElem?_set_row hfree] at hb
      split at hb
      · cases hb
        refine ⟨?_, by omega⟩
        exact hzero.trans (charge_of_unowned h.tokens (by simp [htok])).symm
      · exact ⟨hq.reserved j b hb, hq.ownerLimit j b hb⟩
    · have := @charge_set _ reservedOf _ _ (some row) _ hfree
      have hsu := hq.total
      simp only [reservedOf, Option.elim, hzero] at this hsu ⊢
      omega
  | reserved a owner slot cleanup logical rounded old r placement extents ha hop hlo hrn hj
      hl ht hsl hfree hge hro hr htake =>
    generalize hrc : reservedRecord owner logical rounded cleanup extents = record
    have hne : (reservedSlot r record).record = .heap record := rfl
    have ho : record.owner = owner := by rw [← hrc]; rfl
    have hrou : record.rounded = rounded := by rw [← hrc]; rfl
    refine hq.move h.tokens ha rfl ⟨rfl, rfl⟩ (fun t => ?_) hl (by simp only; omega)
      (by simp only; omega)
    have hs := owned_set_slot hsl (reservedSlot r record) t
    rw [chargeTo_of_not_heap (h.shapes.not_heap_of_free hsl (.inl hfree)),
      chargeTo_heap hne, ho] at hs
    simp only [owned]
    split_ifs at hs ⊢ <;> omega
  | refunded a r record slot placement ha hre hsl hh ht hrf =>
    obtain ⟨slot', job, hna⟩ := reservationRecord_eq_ok.mp hre
    obtain rfl := mem_unique hna.slot_eq hsl
    have hl := hq.ownerLimit _ _ (account_eq_ok.mp ha).1
    refine hq.move h.tokens ha rfl ⟨rfl, rfl⟩ (fun t => ?_) (by simp only; omega)
      (by simp only; omega) (by simp only; omega)
    have hs := owned_set_slot hsl slot'.vacated t
    rw [@chargeTo_of_not_heap slot'.vacated (by simp), chargeTo_heap hna.record_eq, hna.owner] at hs
    simp only [owned]
    split_ifs at hs ⊢ <;> omega
  | hostReserved a owner row logical rounded ha hrn hj hl ht hro =>
    refine hq.move h.tokens ha rfl ⟨rfl, rfl⟩ (fun t => ?_) hl (by simp only; omega)
      (by simp only; omega)
    have hs := @charge_set _ (hostChargeTo t) _ _ (some
      { token := { row, identity := s.heap.nextJob, account := owner }, logical, rounded }) _ hro
    simp only [hostChargeTo, Option.elim] at hs
    simp only [owned]
    split_ifs at hs ⊢ <;> omega
  | hostRefunded a token record ha hro htok hh ht =>
    have hl := hq.ownerLimit _ _ (account_eq_ok.mp ha).1
    refine hq.move h.tokens ha rfl ⟨rfl, rfl⟩ (fun t => ?_) (by simp only; omega)
      (by simp only; omega) (by simp only; omega)
    have hs := @charge_set _ (hostChargeTo t) _ _ none _ hro
    simp only [hostChargeTo, Option.elim, htok] at hs
    simp only [owned]
    split_ifs at hs ⊢ <;> omega
  | relabelled i slot new record record' job job' hsl hre hne hsa hge hh hli hj hrs
      hsetl hpend hatt =>
    refine hq.keep rfl (fun token => ?_) rfl hg
    have hs := owned_set_slot hsl new token
    rw [chargeTo_heap hre, chargeTo_heap hne, hsa.owner, hsa.rounded] at hs
    simp only [owned]
    omega
  | ownerClosed a owner ha =>
    have hslo : ∀ token, charge (chargeTo token) (s.slots.map (closedBy owner)) =
        charge (chargeTo token) s.slots := fun token =>
      charge_map _ fun slot => chargeTo_congr (closedBy_record owner slot)
    have hl := hq.ownerLimit _ _ (account_eq_ok.mp ha).1
    refine hq.move h.tokens ha rfl ⟨rfl, rfl⟩ (fun t => ?_) hl rfl hg
    simp only [owned, hslo]
  | ownerReleased a owner placement ha hzero hjo hbi =>
    obtain ⟨hro, htok⟩ := account_eq_ok.mp ha
    refine .of_rows (fun j b hb => ?_) ?_ hg
    · rcases h.tokens.rows_of_set hro hb with ⟨-, hb⟩ | ⟨-, hb, -⟩
      · cases hb
      · exact ⟨hq.reserved j b hb, hq.ownerLimit j b hb⟩
    · have hs := @charge_set _ reservedOf _ _ none _ hro
      have hsu := hq.total
      simp only [reservedOf, Option.elim, hzero] at hs hsu ⊢
      omega

/-! ## Identities and shapes -/

theorem record_of_set {old new : Slot} (hold : s.slots[i]? = some old)
    (hs : (s.slots.set i new)[j]? = some slot) (hr : slot.record = .heap r) :
    i = j ∧ slot = new ∧ new.record = .heap r ∨ i ≠ j ∧ s.slots[j]? = some slot := by
  rw [getElem?_set_row hold] at hs
  split at hs
  · rename_i hi
    obtain rfl := some.inj hs
    exact .inl ⟨hi, rfl, hr⟩
  · exact .inr ⟨‹_›, hs⟩

theorem of_releaseLocals {sl : List Slot} {bo : Nat} {sc : Scope}
    (hs : (releaseLocals sl bo sc)[i]? = some slot) (hr : slot.record = .heap r) :
    sl[i]? = some slot := by
  simp only [releaseLocals, getElem?_mapIdx, map_eq_some_iff] at hs
  obtain ⟨old, hold, hs⟩ := hs
  split at hs
  · rename_i hl
    simp only [Bool.and_eq_true, Option.any_eq_true, local?_eq_some] at hl
    obtain ⟨-, a, ha, -⟩ := hl
    rw [← hs, release_record, ha] at hr
    cases hr
  · rw [hold, hs]

/-- The heap record was reserved by the change. -/
structure Reserves (s' : ScopedPointers) (slot : Slot) (r : HeapRecord) : Prop where
  held : slot.state.isHeld = true
  logical : r.logical ≠ 0 ∧ r.logical ≤ i64Max
  rounded : pageCeil r.logical = ok r.rounded
  owner : tokenAt s'.heap.accounts r.owner.index = some r.owner

theorem Change.heap_of (hc : Change F s s') (hs : s'.slots[i]? = some slot)
    (hre : slot.record = .heap r) : (∃ slot0 r0, s.slots[i]? = some slot0 ∧
      slot0.record = .heap r0 ∧ r0.Same r ∧ (slot0.state.isHeld = true →
        slot.state.isHeld = true)) ∨
      Reserves s' slot r := by
  by_cases hk : s.slots[i]? = some slot
  · exact .inl ⟨slot, r, hk, hre, ⟨rfl, rfl, rfl, rfl, rfl⟩, id⟩
  cases hc with
  | localWrite _ _ old new hold _ hn =>
    rcases record_of_set hold hs hre with ⟨-, -, hr⟩ | ⟨-, hs⟩
    · obtain ⟨a, ha⟩ := hn
      rw [ha] at hr
      cases hr
    · exact absurd hs hk
  | localsReleased => exact absurd (of_releaseLocals hs hre) hk
  | reserved a o _ _ _ _ _ _ _ _ ha _ hl hro _ _ _ hold =>
    rcases record_of_set hold hs hre with ⟨-, rfl, hr⟩ | ⟨-, hs⟩
    · obtain rfl := Record.heap.inj hr
      obtain ⟨hac, htok⟩ := account_eq_ok.mp ha
      refine .inr ⟨rfl, hl, hro, ?_⟩
      simp only [@tokenAt_set _ _ _ { a with reserved := a.reserved + _ } hac rfl]
      exact tokenAt_eq_some.mpr ⟨a, hac, htok⟩
    · exact absurd hs hk
  | refunded _ _ _ _ _ _ _ hold =>
    rcases record_of_set hold hs hre with ⟨-, -, hr⟩ | ⟨-, hs⟩
    · cases hr
    · exact absurd hs hk
  | relabelled j old new re re' _ _ hold hold' hn hsa _ hh =>
    rcases record_of_set hold hs hre with ⟨rfl, rfl, hr⟩ | ⟨-, hs⟩
    · obtain rfl := Record.heap.inj (hn.symm.trans hr)
      exact .inl ⟨old, re, hold, hold', hsa, fun _ => hh⟩
    · exact absurd hs hk
  | ownerClosed =>
    simp only [getElem?_map, map_eq_some_iff] at hs
    obtain ⟨old, hold, rfl⟩ := hs
    rw [closedBy_record] at hre
    exact .inl ⟨old, r, hold, hre, ⟨rfl, rfl, rfl, rfl, rfl⟩, closedBy_held⟩
  | _ => exact absurd hs hk

theorem Change.host_of (hc : Change F s s') {r : HostStorageRecord}
    (hr : s'.heap.hostStorage[i]? = some (some r)) : s.heap.hostStorage[i]? = some (some r) ∨
      0 < r.rounded ∧ tokenAt s'.heap.accounts r.token.account.index = some r.token.account := by
  cases hc with
  | hostReserved a o _ _ _ ha hro _ _ _ hfree =>
    simp only [getElem?_set_row hfree] at hr
    split at hr
    · cases hr
      obtain ⟨hac, htok⟩ := account_eq_ok.mp ha
      refine .inr ⟨pageCeil_pos hro, ?_⟩
      simp only [@tokenAt_set _ _ _ { a with reserved := a.reserved + _ } hac rfl]
      exact tokenAt_eq_some.mpr ⟨a, hac, htok⟩
    · exact .inl hr
  | hostRefunded _ _ _ _ hold =>
    simp only [getElem?_set_row hold] at hr
    split at hr
    · cases hr
    · exact .inl hr
  | _ => exact .inl hr

theorem Change.shapes (hc : Change F s s') (h : Shapes s) : Shapes s' where
  held i slot r hs hr := by
    rcases hc.heap_of hs hr with ⟨slot0, r0, hs0, hr0, -, hh⟩ | hn
    · exact hh (h.held i slot0 r0 hs0 hr0)
    · exact hn.held
  rounded i slot r hs hr := by
    rcases hc.heap_of hs hr with ⟨slot0, r0, hs0, hr0, hsa, -⟩ | hn
    · rw [hsa.logical, hsa.rounded]
      exact h.rounded i slot0 r0 hs0 hr0
    · exact ⟨hn.logical.1, hn.logical.2, hn.rounded⟩
  host i r hro := (hc.host_of hro).elim (h.host i r) And.left
  limit_le := by cases hc <;> exact h.limit_le

theorem Ledger.unowned (h : Ledger s) (ha : s.account token = ok a) (hzero : a.reserved = 0)
    (hs : s.slots[i]? = some slot) (hr : slot.record = .heap r) : r.owner ≠ token := by
  intro ho
  have hsu : s.owned token = 0 := by rw [← (h.quota.of_account ha).1, hzero]
  have hl := @le_charge _ (chargeTo token) _ _ _ hs
  rw [chargeTo_owner hr ho] at hl
  have hp := pageCeil_pos (h.shapes.rounded i slot r hs hr).2.2
  unfold owned at hsu
  omega

theorem Ledger.unownedHost (h : Ledger s) (ha : s.account token = ok a) (hzero : a.reserved = 0)
    {r : HostStorageRecord} (hr : s.heap.hostStorage[i]? = some (some r)) :
    r.token.account ≠ token := by
  intro ho
  have hs : s.owned token = 0 := by rw [← (h.quota.of_account ha).1, hzero]
  have hl := @le_charge _ (hostChargeTo token) _ _ _ hr
  simp only [hostChargeTo, Option.elim, ho, if_true] at hl
  have hp := h.shapes.host i r hr
  unfold owned at hs
  omega

/-- What a change does to the account rows: their tokens stay, or a free row gets the next token, or
an account without charges goes. -/
inductive TokensFollow (s s' : ScopedPointers) : Prop
  | same (htokens : tokenAt s'.heap.accounts = tokenAt s.heap.accounts)
      (hnext : s'.heap.nextOwner = s.heap.nextOwner)
  | admitted (index : Nat) (row : Account) (hfree : s.heap.accounts[index]? = some none)
      (htok : row.token = { index, serial := s.heap.nextOwner })
      (haccs : s'.heap.accounts = s.heap.accounts.set index (some row))
      (hnext : s'.heap.nextOwner = s.heap.nextOwner + 1)
  | released (a : Account) (owner : OwnerAccount) (ha : s.account owner = ok a)
      (hzero : a.reserved = 0)
      (haccs : s'.heap.accounts = s.heap.accounts.set owner.index none)
      (hnext : s'.heap.nextOwner = s.heap.nextOwner)

theorem Change.tokensFollow (hc : Change F s s') : TokensFollow s s' := by
  cases hc with
  | admitted ind row _ hfree htok => exact .admitted ind row hfree htok rfl rfl
  | ownerReleased a o _ ha hzero => exact .released a o ha hzero rfl rfl
  | reserved _ _ _ _ _ _ _ _ _ _ ha | refunded _ _ _ _ _ ha | hostReserved _ _ _ _ _ ha
  | hostRefunded _ _ _ ha | ownerClosed _ _ ha =>
    exact .same (tokenAt_set (account_eq_ok.mp ha).1 rfl) rfl
  | _ => exact .same rfl rfl

theorem TokensFollow.row (h : TokensFollow s s') (ht : Tokens s)
    (hr : tokenAt s'.heap.accounts i = some t) : t.index = i ∧ t.serial < s'.heap.nextOwner := by
  cases h with
  | same htokens hnext => exact hnext ▸ ht.row i t (htokens ▸ hr)
  | admitted ind row hfree htok haccs hnext =>
    obtain ⟨a, ha, rfl⟩ := tokenAt_eq_some.mp hr
    rw [haccs, getElem?_set_row hfree] at ha
    rw [hnext]
    split at ha
    · cases ha
      rw [htok]
      exact ⟨‹_›, Nat.lt_succ_self _⟩
    · obtain ⟨hi, hs⟩ := ht.row i _ (tokenAt_eq_some.mpr ⟨a, ha, rfl⟩)
      exact ⟨hi, Nat.lt_succ_of_lt hs⟩
  | released a o ha hzero haccs hnext =>
    obtain ⟨b, hb, rfl⟩ := tokenAt_eq_some.mp hr
    rw [haccs] at hb
    rcases ht.rows_of_set (account_eq_ok.mp ha).1 hb with ⟨-, hb⟩ | ⟨-, hb, -⟩
    · cases hb
    · exact hnext ▸ ht.row i _ (tokenAt_eq_some.mpr ⟨b, hb, rfl⟩)

theorem TokensFollow.kept (h : TokensFollow s s') (ht : tokenAt s.heap.accounts t.index = some t)
    (ho : ∀ a, s.account t = ok a → a.reserved ≠ 0) :
    tokenAt s'.heap.accounts t.index = some t := by
  cases h with
  | same htokens => rw [htokens, ht]
  | admitted ind row hfree _ haccs =>
    obtain ⟨a, ha, -⟩ := tokenAt_eq_some.mp ht
    unfold tokenAt at ht ⊢
    rw [haccs, getElem?_set_row hfree]
    split
    · rename_i heq
      rw [heq, ha] at hfree
      cases hfree
    · exact ht
  | released a o ha hzero haccs =>
    obtain ⟨hr, htok⟩ := account_eq_ok.mp ha
    unfold tokenAt at ht ⊢
    rw [haccs, getElem?_set_row hr]
    split
    · rename_i heq
      rw [← heq, hr] at ht
      obtain rfl : o = t := htok ▸ some.inj ht
      exact absurd hzero (ho a ha)
    · exact ht

theorem Change.tokens (hc : Change F s s') (h : Ledger s) : Tokens s' where
  row i t hro := hc.tokensFollow.row h.tokens hro
  heapOwner i slot r hs hr := by
    rcases hc.heap_of hs hr with ⟨slot0, r0, hs0, hr0, hsa, -⟩ | hn
    · rw [hsa.owner]
      exact hc.tokensFollow.kept (h.tokens.heapOwner i slot0 r0 hs0 hr0)
        fun a ha hzero => h.unowned ha hzero hs0 hr0 rfl
    · exact hn.owner
  hostOwner i r hro := by
    rcases hc.host_of hro with hro | ⟨-, ho⟩
    · exact hc.tokensFollow.kept (h.tokens.hostOwner i r hro)
        fun a ha hzero => h.unownedHost ha hzero hro rfl
    · exact ho

theorem Change.ledger (hc : Change F s s') (h : Ledger s) : Ledger s' :=
  ⟨hc.quota h, hc.tokens h, hc.shapes h.shapes⟩

/-! ## The constructors -/

theorem Fresh.ledger (h : Fresh s) : Ledger s := by
  obtain ⟨m, haccs⟩ := h.accounts
  obtain ⟨k, hh⟩ := h.hostStorage
  refine ⟨.of_rows (fun i a ha => absurd ha (not_some_replicate haccs)) ?_ ?_,
    ⟨fun i t hi => ?_, fun i slot r hs hr => absurd hr (h.not_heap hs),
      fun i r hr => absurd hr (not_some_replicate hh)⟩,
    ⟨fun i slot r hs hr => absurd hr (h.not_heap hs),
      fun i slot r hs hr => absurd hr (h.not_heap hs),
      fun i r hr => absurd hr (not_some_replicate hh), h.limit_le⟩⟩
  · rw [h.reservedBytes, eq_comm, charge_eq_zero]
    intro i row hro
    cases row with
    | none => rfl
    | some a => exact absurd hro (not_some_replicate haccs)
  · rw [h.reservedBytes]
    exact h.fixed_le
  · obtain ⟨a, ha, -⟩ := tokenAt_eq_some.mp hi
    exact absurd ha (not_some_replicate haccs)

theorem Reachable.ledger (hr : Reachable s) : Ledger s :=
  hr.invariant (fun _ h => h.fresh.ledger) fun _ _ hc h => hc.ledger h

/-! ## Conservation -/

theorem Tokens.charge_once (h : Tokens s) (n : Nat)
    (htok : tokenAt s.heap.accounts token.index = some token) :
    charge (fun row => row.elim 0 fun a => if token = a.token then n else 0)
      s.heap.accounts = n := by
  obtain ⟨a, ha, rfl⟩ := tokenAt_eq_some.mp htok
  refine (charge_eq_single ha fun j row hj hr => ?_).trans (if_pos rfl)
  cases row with
  | none => rfl
  | some b =>
    refine if_neg fun heq => hj ?_
    rw [heq, (h.row j b.token (tokenAt_eq_some.mpr ⟨b, hr, rfl⟩)).1]

/-- The charge of a slot to whoever owns an account row. -/
def slotChargeOf (row : Option Account) (slot : Slot) : Nat :=
  row.elim 0 fun a => slot.chargeTo a.token

/-- The charge of a host-storage row to whoever owns an account row. -/
def hostChargeOf (row : Option Account) (r : Option HostStorageRecord) : Nat :=
  row.elim 0 fun a => hostChargeTo a.token r

theorem Tokens.slot_once (h : Tokens s) (hs : s.slots[i]? = some slot) :
    charge (fun row => slotChargeOf row slot) s.heap.accounts = slot.charged := by
  cases hre : slot.record with
  | heap r =>
    have hr := h.charge_once r.rounded (h.heapOwner i slot r hs hre)
    simpa [slotChargeOf, chargeTo, charged, heap?, hre] using hr
  | empty | «local» =>
    rw [charge_eq_zero.mpr fun _ row _ => by cases row <;> simp [slotChargeOf, chargeTo, hre]]
    simp [charged, heap?, hre]

theorem Tokens.host_once (h : Tokens s) {r : Option HostStorageRecord}
    (hr : s.heap.hostStorage[i]? = some r) :
    charge (fun row => hostChargeOf row r) s.heap.accounts = hostCharged r := by
  cases r with
  | none => exact charge_eq_zero.mpr fun _ row _ => by cases row <;> rfl
  | some r => exact h.charge_once r.rounded (h.hostOwner i r hr)

theorem Ledger.outstanding (h : Ledger s) :
    s.heap.reservedBytes = charge Slot.charged s.slots + charge hostCharged s.heap.hostStorage := by
  have hro : ∀ (i : Nat) (row : Option Account), s.heap.accounts[i]? = some row →
      reservedOf row = charge (slotChargeOf row) s.slots +
        charge (hostChargeOf row) s.heap.hostStorage := by
    intro i row hi
    cases row with
    | none =>
      have hs : charge (slotChargeOf none) s.slots = 0 := charge_eq_zero.mpr fun _ _ _ => rfl
      have hh : charge (hostChargeOf none) s.heap.hostStorage = 0 :=
        charge_eq_zero.mpr fun _ _ _ => rfl
      rw [hs, hh]
      rfl
    | some a => exact h.quota.reserved i a hi
  calc s.heap.reservedBytes
      = charge (fun row => charge (slotChargeOf row) s.slots +
          charge (hostChargeOf row) s.heap.hostStorage) s.heap.accounts := by
        rw [h.quota.total, charge_congr hro]
    _ = charge (fun slot => charge (fun row => slotChargeOf row slot) s.heap.accounts) s.slots +
          charge (fun r => charge (fun row => hostChargeOf row r) s.heap.accounts)
            s.heap.hostStorage := by
        rw [charge_add, charge_comm slotChargeOf, charge_comm hostChargeOf]
    _ = charge charged s.slots + charge hostCharged s.heap.hostStorage := by
        rw [charge_congr fun i slot hsl => h.tokens.slot_once hsl,
          charge_congr fun i r hr => h.tokens.host_once hr]

/-- **Quota conservation.** In every reachable registry each account has reserved exactly what the
heap records and host-storage rows it owns hold, the registry exactly what its accounts hold and
what all records hold, and both are within their limits; so none of the bare sums and differences
of the reservation path overflows. -/
theorem quota_conserved (hr : Reachable s) :
    (∀ (i : Nat) (a : Account), s.heap.accounts[i]? = some (some a) →
      a.reserved = s.owned a.token ∧ a.reserved ≤ a.limit) ∧
    s.heap.reservedBytes = charge reservedOf s.heap.accounts ∧
    s.heap.reservedBytes = charge Slot.charged s.slots + charge hostCharged s.heap.hostStorage ∧
    s.heap.fixedBytes + s.heap.reservedBytes ≤ s.heap.limit ∧
    (∃ total left, (s.totalReservedBytes : Res HeapError Nat) = ok total ∧
      (minus s.heap.limit total : Res HeapError Nat) = ok left) ∧
    (∀ (token : OwnerAccount) (a : Account), s.account token = ok a →
      ∃ left, (minus a.limit a.reserved : Res HeapError Nat) = ok left) := by
  have h := hr.ledger
  have hg := h.quota.globalLimit
  have hm := h.shapes.limit_le
  refine ⟨fun i a ha => ⟨h.quota.reserved i a ha, h.quota.ownerLimit i a ha⟩, h.quota.total,
    h.outstanding, hg, ⟨_, _, plus_eq_ok.mpr ⟨by omega, rfl⟩, minus_eq_ok.mpr ⟨hg, rfl⟩⟩,
    fun token a ha => ?_⟩
  exact ⟨_, minus_eq_ok.mpr ⟨h.quota.ownerLimit _ _ (account_eq_ok.mp ha).1, rfl⟩⟩

/-- A registry that owes one page for a heap lifetime of 100 bytes. -/
theorem quota_conserved_one_page : ∃ s, Reachable s ∧ s.heap.reservedBytes = 4096 ∧
    s.heap.reservedBytes = charge reservedOf s.heap.accounts := by
  have hru : (withLimits exactHost smallLimits >>= fun s => firstCalls.foldlM run s).isOkAnd
      (fun s => s.heap.reservedBytes == 4096) = true := by decide +kernel
  simp only [isOkAnd_eq_true, bind_eq_ok, beq_iff_eq] at hru
  obtain ⟨s, ⟨s0, h0, hs⟩, hb⟩ := hru
  have hr := reachable_of_calls (.withLimits exactHost smallLimits h0) hs
  exact ⟨s, hr, hb, (quota_conserved hr).2.1⟩

end ScopedPointers

end Anka
