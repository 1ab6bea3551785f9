import Anka.Lib.Bytes

/-!
# The concurrent protection fabric

`concurrent.rs` takes the transactions of several agents through their phases, over the object table
of `protection.rs`; a schedule interleaves the phases with revocations. A commit validates the
capability once more, so a revocation before it wins.

Three things are not checked. `run_schedule` indexes the transactions and the capabilities by the
event. No phase compares the object a transaction names with the object of its capability
(`commits_after_revocation`). The length of the data is narrowed to `u32` before the range check.
`revocation_wins` is the law for schedules that stay clear of all three; it holds for every
capability, minted or not, since `validate` asks for the range of the object.

A panic is `none`. Ids, agents and names are left out, and so is the domain of a fault record, which
is always 0 here.
-/

namespace Anka.Concurrent

open Rust List

/-! ## The object table -/

/-- An object lives until it is freed. -/
inductive ObjectState where
  | active
  | freed
  deriving DecidableEq

/-- An object: where it lies, and its generation. -/
structure ObjectEntry where
  generation : Nat
  base : Nat
  length : Nat
  state : ObjectState

/-- The objects by number. -/
abbrev ObjectTable := List ObjectEntry

/-- A set of permissions, a bit each. -/
abbrev Perm := UInt8

/-- protection.rs 242. -/
def Perm.WRITE : Perm := 2

/-- All the bits of `other` are set (protection.rs 248). -/
def Perm.contains (p other : Perm) : Bool := p &&& other == other

/-- Access to an object of one generation. -/
structure Capability where
  objectId : Nat
  generation : Nat
  base : Nat
  length : Nat
  perms : Perm

namespace ObjectTable

variable (t : ObjectTable)

/-- A capability to a whole live object (protection.rs 83). -/
def makeCap (objectId : Nat) (perms : Perm) : Option Capability := do
  let entry ← t[objectId]?
  if entry.state ≠ .active then none
  some
    { objectId, generation := entry.generation, base := entry.base, length := entry.length, perms }

/-- The generation wraps as a `u32`; a freed object stays freed. -/
def revoke (objectId : Nat) : ObjectTable :=
  t.modify objectId fun entry =>
    { entry with generation := (entry.generation + 1) % 2 ^ 32, state := .freed }

/-- The object lives, in the capability's generation (protection.rs 145). -/
def validate (cap : Capability) : Bool :=
  (t[cap.objectId]?).any fun entry =>
    entry.state = .active && cap.generation = entry.generation && entry.base ≤ cap.base &&
      cap.length ≤ entry.length && cap.base - entry.base ≤ entry.length - cap.length

end ObjectTable

/-- The access is inside the capability (protection.rs 294). -/
def Capability.permits (cap : Capability) (addr size : Nat) (op : Perm) : Bool :=
  if size = 0 ∨ op = 0 then false
  else if ¬ cap.perms.contains op then false
  else cap.base ≤ addr && size ≤ cap.length && addr - cap.base ≤ cap.length - size

/-! ## Transactions -/

/-- Why a transaction is denied. -/
inductive FaultReason where
  | noCapability
  | staleGeneration

/-- One denial. -/
structure FaultRecord where
  address : Nat
  size : Nat
  operation : Perm
  reason : FaultReason

/-- How far a transaction is. -/
inductive TxPhase where
  | requested
  | authorized
  | prepared
  | committed
  | faulted
  deriving DecidableEq

/-- A write under way. -/
structure Transaction where
  objectId : Nat
  authGeneration : Option Nat
  offset : Nat
  data : List UInt8
  phase : TxPhase
  fault : Option FaultRecord

/-- A transaction before its first phase (concurrent.rs 87). -/
def Transaction.new (objectId offset : Nat) (data : List UInt8) : Transaction :=
  { objectId, authGeneration := none, offset, data, phase := .requested, fault := none }

/-- `cap.base().wrapping_add(tx.offset)`. -/
def Transaction.addr (tx : Transaction) (cap : Capability) : Nat := (cap.base + tx.offset) % 2 ^ 32

/-- What the agent asked for; no phase changes it. -/
def Transaction.request (tx : Transaction) : Nat × Nat × List UInt8 :=
  (tx.objectId, tx.offset, tx.data)

/-- `tx.data.len() as u32`. -/
def Transaction.size (tx : Transaction) : Nat := tx.data.length % 2 ^ 32

/-- One event of a schedule. -/
inductive Event where
  | advance (idx : Nat)
  | revoke (id : Nat)

/-- Objects, memory and the denials so far. -/
structure ConcurrentFabric where
  objects : ObjectTable
  memory : List UInt8
  faultLog : List FaultRecord

namespace ConcurrentFabric

variable (f : ConcurrentFabric) (tx : Transaction) (cap : Capability)

/-- The fault of a denied transaction, logged and kept. -/
def deny (reason : FaultReason) : ConcurrentFabric × Transaction :=
  let record := { address := tx.addr cap, size := tx.size, operation := .WRITE, reason }
  ({ f with faultLog := f.faultLog ++ [record] },
    { tx with phase := .faulted, fault := some record })

/-- Checks the capability and records the generation (concurrent.rs 165). -/
def phaseAuthorize : ConcurrentFabric × Transaction :=
  if ¬ f.objects.validate cap then f.deny tx cap .staleGeneration
  else if ¬ cap.permits (tx.addr cap) tx.size .WRITE then f.deny tx cap .noCapability
  else (f, { tx with authGeneration := some cap.generation, phase := .authorized })

/-- The bytes are written one by one; the first outside memory panics. -/
def phaseCommit : Option (ConcurrentFabric × Transaction) :=
  if ¬ f.objects.validate cap then some (f.deny tx cap .staleGeneration)
  else if tx.data ≠ [] ∧ f.memory.length < tx.addr cap + tx.data.length then none
  else some ({ f with memory := overwrite f.memory (tx.addr cap) tx.data },
    { tx with phase := .committed })

/-- The next phase of a transaction (concurrent.rs 152). -/
def advance : Option (ConcurrentFabric × Transaction) :=
  match tx.phase with
  | .requested => some (f.phaseAuthorize tx cap)
  | .authorized => some (f, { tx with phase := .prepared })
  | .prepared => f.phaseCommit tx cap
  | .committed | .faulted => some (f, tx)

end ConcurrentFabric

/-- The fabric and the transactions of a schedule. -/
structure Schedule where
  fabric : ConcurrentFabric
  txs : List Transaction

variable (caps : List Capability)

namespace Schedule

/-- `run_schedule`: one event. -/
def runEvent (s : Schedule) : Event → Option Schedule
  | .advance idx => do
    let cap ← caps[idx]?
    let tx ← s.txs[idx]?
    let (fabric, tx) ← s.fabric.advance tx cap
    some { fabric, txs := s.txs.set idx tx }
  | .revoke id => some { s with fabric.objects := s.fabric.objects.revoke id }

/-- A schedule, event by event (concurrent.rs 237). -/
def runSchedule (s : Schedule) (events : List Event) : Option Schedule :=
  events.foldlM (runEvent caps) s

/-! ## What a schedule commits -/

/-- A transaction that an event took to Committed, with the events before it. -/
structure Commit where
  earlier : List Event
  idx : Nat
  tx : Transaction
  cap : Capability

/-- The commit of an event, by the phase of its transaction before and after. -/
def commitOf (earlier : List Event) (s s' : Schedule) : Event → List Commit
  | .advance idx =>
    match s.txs[idx]?, s'.txs[idx]?, caps[idx]? with
    | some tx, some tx', some cap =>
      if tx.phase ≠ .committed ∧ tx'.phase = .committed then [⟨earlier, idx, tx, cap⟩] else []
    | _, _, _ => []
  | .revoke _ => []

/-- The commits of a schedule, in the order of their events. -/
def commits (earlier : List Event) (s : Schedule) : List Event → List Commit
  | [] => []
  | event :: events =>
    match s.runEvent caps event with
    | some s' => commitOf caps earlier s s' event ++ commits (earlier ++ [event]) s' events
    | none => []

/-- The data of a commit, applied to memory. -/
def Commit.apply (memory : List UInt8) (c : Commit) : List UInt8 :=
  overwrite memory (c.tx.addr c.cap) c.tx.data

/-- The commit writes inside the range of the object that its transaction names. -/
def Commit.Within (t : ObjectTable) (c : Commit) : Prop :=
  ∃ entry, t[c.tx.objectId]? = some entry ∧ entry.base ≤ c.tx.addr c.cap ∧
    c.tx.addr c.cap + c.tx.data.length ≤ entry.base + entry.length

/-- What the transactions ask. -/
def requests (s : Schedule) : List (Nat × Nat × List UInt8) := s.txs.map (·.request)

/-- The transaction is committed. -/
def committed (s : Schedule) (idx : Nat) : Prop :=
  ∃ tx, s.txs[idx]? = some tx ∧ tx.phase = .committed

/-! ## The invariant -/

/-- A transaction names its capability's object, its length is a `u32`, and past the authorization
its capability permits the write. -/
structure Fits (cap : Capability) (tx : Transaction) : Prop where
  object : tx.objectId = cap.objectId
  length : tx.data.length < 2 ^ 32
  permitted : tx.phase = .authorized ∨ tx.phase = .prepared →
    cap.permits (tx.addr cap) tx.size .WRITE = true

/-- What holds after the events `earlier`, if the transactions of `named` are advanced only. -/
structure Sound (named : Nat → Prop) (earlier : List Event) (s : Schedule) : Prop where
  inside : ∀ entry ∈ s.fabric.objects, entry.base + entry.length ≤ s.fabric.memory.length
  fits : ∀ i, named i → ∃ tx cap, s.txs[i]? = some tx ∧ caps[i]? = some cap ∧ Fits cap tx
  freed : ∀ id entry, .revoke id ∈ earlier → s.fabric.objects[id]? = some entry →
    entry.state = .freed

/-- What events did from `s` to `s'`, given their commits. -/
structure Ran (s : Schedule) (log : List Commit) (s' : Schedule) : Prop where
  memory : s'.fabric.memory = log.foldl Commit.apply s.fabric.memory
  valid : ∀ c ∈ log, .revoke c.tx.objectId ∉ c.earlier ∧ c.Within s.fabric.objects ∧
    s.requests[c.idx]? = some c.tx.request
  committed : ∀ idx, s'.committed idx ↔ s.committed idx ∨ ∃ c ∈ log, c.idx = idx
  placed : ∀ c : Commit, c.Within s'.fabric.objects → c.Within s.fabric.objects
  requests : s'.requests = s.requests

theorem Ran.trans {s t s' : Schedule} {log log' : List Commit} (h : Ran s log t)
    (h' : Ran t log' s') : Ran s (log ++ log') s' where
  memory := by rw [foldl_append, ← h.memory, h'.memory]
  valid c hc := by
    rcases mem_append.mp hc with hc | hc
    · exact h.valid c hc
    · obtain ⟨hl, hw, hr⟩ := h'.valid c hc
      exact ⟨hl, h.placed c hw, h.requests ▸ hr⟩
  committed idx := by
    simp only [h'.committed, h.committed, mem_append, or_and_right, exists_or, or_assoc]
  placed c hc := h.placed c (h'.placed c hc)
  requests := h'.requests.trans h.requests

theorem within_of_validate {t : ObjectTable} {cap : Capability} {tx : Transaction}
    (hv : t.validate cap = true) (hf : Fits cap tx) (hph : tx.phase = .prepared) :
    ∃ en, t[tx.objectId]? = some en ∧ en.state = .active ∧ en.base ≤ tx.addr cap ∧
      tx.addr cap + tx.data.length ≤ en.base + en.length := by
  have hp := hf.permitted (.inr hph)
  simp only [ObjectTable.validate, Option.any_eq_true, Bool.and_eq_true, decide_eq_true_eq] at hv
  obtain ⟨en, hen, ⟨⟨⟨ha, -⟩, hb⟩, hl⟩, hr⟩ := hv
  have hs : tx.size = tx.data.length := Nat.mod_eq_of_lt hf.length
  simp only [Capability.permits, hs, Bool.if_false_left, Bool.and_eq_true, decide_eq_true_eq,
    Bool.not_eq_true', decide_eq_false_iff_not] at hp
  exact ⟨en, hf.object ▸ hen, ha, by omega, by omega⟩

theorem Commit.Within.of_revoke {t : ObjectTable} {id : Nat} {c : Commit}
    (h : c.Within (t.revoke id)) : c.Within t := by
  obtain ⟨en, hen, hr⟩ := h
  rw [ObjectTable.revoke, getElem?_modify] at hen
  obtain ⟨e, he, rfl⟩ := Option.map_eq_some_iff.mp hen
  refine ⟨e, he, ?_⟩
  split at hr <;> exact hr

variable {caps} {s : Schedule} {named : Nat → Prop} {earlier : List Event}

theorem Sound.revoke (h : Sound caps named earlier s) (id : Nat) :
    Sound caps named (earlier ++ [.revoke id])
      { s with fabric.objects := s.fabric.objects.revoke id } where
  inside entry hen := by
    obtain ⟨i, hi⟩ := mem_iff_getElem?.mp hen
    rw [ObjectTable.revoke, getElem?_modify] at hi
    obtain ⟨e, he, rfl⟩ := Option.map_eq_some_iff.mp hi
    have hin := h.inside e (mem_of_getElem? he)
    split <;> exact hin
  fits := h.fits
  freed id' entry hrevoked hen := by
    rw [ObjectTable.revoke, getElem?_modify] at hen
    obtain ⟨e, he, rfl⟩ := Option.map_eq_some_iff.mp hen
    split
    · rfl
    · rename_i hn
      refine h.freed id' e ?_ he
      simpa [Ne.symm hn] using hrevoked

/-- One phase: it keeps the request, and it writes only when it commits. -/
theorem advance_spec {f : ConcurrentFabric} {tx : Transaction} {cap : Capability}
    (hi : ∀ en ∈ f.objects, en.base + en.length ≤ f.memory.length)
    (hfi : Fits cap tx) : ∃ f' tx', f.advance tx cap = some (f', tx') ∧ f'.objects = f.objects ∧
      f'.memory.length = f.memory.length ∧ tx'.request = tx.request ∧ Fits cap tx' ∧
      (f'.memory = f.memory ∧ (tx'.phase = .committed ↔ tx.phase = .committed) ∨
        tx.phase = .prepared ∧ tx'.phase = .committed ∧ f.objects.validate cap = true ∧
          f'.memory = overwrite f.memory (tx.addr cap) tx.data) := by
  obtain ⟨ho, hl, hp⟩ := hfi
  have hf : ∀ reason, Fits cap (f.deny tx cap reason).2 := fun _ =>
    ⟨ho, hl, by simp [ConcurrentFabric.deny]⟩
  unfold ConcurrentFabric.advance
  split <;> rename_i hph
  · unfold ConcurrentFabric.phaseAuthorize
    split
    · exact ⟨_, _, rfl, rfl, rfl, rfl, hf _, .inl ⟨rfl, by simp [hph]⟩⟩
    split
    · exact ⟨_, _, rfl, rfl, rfl, rfl, hf _, .inl ⟨rfl, by simp [hph]⟩⟩
    rename_i hpe
    exact ⟨_, _, rfl, rfl, rfl, rfl, ⟨ho, hl, fun _ => not_not.mp hpe⟩, .inl ⟨rfl, by simp [hph]⟩⟩
  · exact ⟨_, _, rfl, rfl, rfl, rfl, ⟨ho, hl, fun _ => hp (.inl hph)⟩, .inl ⟨rfl, by simp [hph]⟩⟩
  · unfold ConcurrentFabric.phaseCommit
    split
    · exact ⟨_, _, rfl, rfl, rfl, rfl, hf _, .inl ⟨rfl, by simp [hph]⟩⟩
    rename_i hv
    obtain ⟨en, hen, -, -, hend⟩ :=
      within_of_validate (not_not.mp hv) ⟨ho, hl, hp⟩ hph
    have hr := hi en (mem_of_getElem? hen)
    rw [if_neg (by omega)]
    exact ⟨_, _, rfl, rfl, length_overwrite (by omega), rfl, ⟨ho, hl, by simp⟩,
      .inr ⟨hph, rfl, not_not.mp hv, rfl⟩⟩
  all_goals
    exact ⟨f, tx, rfl, rfl, rfl, rfl, ⟨ho, hl, hp⟩, .inl ⟨rfl, Iff.rfl⟩⟩

theorem committed_set {idx : Nat} {tx tx' : Transaction} {fa : ConcurrentFabric}
    (ht : s.txs[idx]? = some tx) (i : Nat) : committed ⟨fa, s.txs.set idx tx'⟩ i ↔
      i = idx ∧ tx'.phase = .committed ∨ i ≠ idx ∧ s.committed i := by
  have hid : idx < s.txs.length := (List.getElem?_eq_some_iff.mp ht).1
  simp only [committed]
  by_cases hi : i = idx
  · subst hi
    simp [hid]
  · simp [hi, getElem?_set_ne (Ne.symm hi)]

/-- One event: it does not panic, and its commit is valid. -/
theorem runEvent_spec (h : Sound caps named earlier s) (event : Event)
    (hn : ∀ idx, event = .advance idx → named idx) :
    ∃ s', s.runEvent caps event = some s' ∧ Sound caps named (earlier ++ [event]) s' ∧
      Ran s (commitOf caps earlier s s' event) s' := by
  cases event with
  | revoke id =>
    exact ⟨_, rfl, h.revoke id,
      ⟨rfl, nofun, fun _ => by simp [commitOf, committed], fun _ => .of_revoke, rfl⟩⟩
  | advance idx =>
    obtain ⟨tx, cap, ht, hc, hb⟩ := h.fits idx (hn idx rfl)
    obtain ⟨htxs, hg⟩ := List.getElem?_eq_some_iff.mp ht
    obtain ⟨f', tx', had, ho, hle, hrq, hf, hca⟩ :=
      advance_spec h.inside hb
    have hs : (s.txs.set idx tx')[idx]? = some tx' := getElem?_set_self htxs
    have hre : requests ⟨f', s.txs.set idx tx'⟩ = s.requests := by
      rw [requests, map_set, hrq, ← map_set, ← hg, set_getElem_self, requests]
    have hp : ∀ c : Commit, c.Within f'.objects → c.Within s.fabric.objects := by
      rw [ho]
      exact fun _ => id
    refine ⟨⟨f', s.txs.set idx tx'⟩, by simp [runEvent, ht, hc, had], ⟨?_, ?_, ?_⟩, ?_⟩
    · rw [ho, hle]
      exact h.inside
    · intro i hi
      by_cases heq : i = idx
      · subst heq
        exact ⟨tx', cap, hs, hc, hf⟩
      · simpa only [getElem?_set_ne (Ne.symm heq)] using h.fits i hi
    · intro id entry hr hen
      exact h.freed id entry (by simpa using hr) (ho ▸ hen)
    rcases hca with ⟨hm, hph⟩ | ⟨hpr, hco, hv, hm⟩
    · have hl : commitOf caps earlier s ⟨f', s.txs.set idx tx'⟩ (.advance idx) = [] := by
        simp only [commitOf, ht, hs, hc]
        exact if_neg fun ⟨hne, heq⟩ => hne (hph.mp heq)
      rw [hl]
      refine ⟨hm, nofun, fun i => ?_, hp, hre⟩
      rw [committed_set ht, hph]
      by_cases hi : i = idx
      · simp [hi, committed, ht]
      · simp [hi]
    · have hl : commitOf caps earlier s ⟨f', s.txs.set idx tx'⟩ (.advance idx) =
          [⟨earlier, idx, tx, cap⟩] := by
        simp only [commitOf, ht, hs, hc]
        exact if_pos ⟨by simp [hpr], hco⟩
      obtain ⟨entry, hen, ha, hw⟩ :=
        within_of_validate hv hb hpr
      rw [hl]
      refine ⟨hm, ?_, fun i => ?_, hp, hre⟩
      · simp only [mem_singleton, forall_eq]
        refine ⟨fun hr => ?_, ⟨entry, hen, hw⟩, by simp [requests, ht]⟩
        -- a revoked object is not active any more
        rw [h.freed _ entry hr hen] at ha
        cases ha
      · rw [committed_set ht]
        by_cases hi : i = idx
        · simp [hi, hco]
        · simp [hi, Ne.symm hi]

theorem runSchedule_spec (h : Sound caps named earlier s) (ev : List Event)
    (hn : ∀ idx, .advance idx ∈ ev → named idx) :
    ∃ s', s.runSchedule caps ev = some s' ∧ Ran s (commits caps earlier s ev) s' := by
  induction ev generalizing s earlier with
  | nil => exact ⟨s, rfl, rfl, nofun, by simp [commits], fun _ => id, rfl⟩
  | cons eve ev ih =>
    obtain ⟨t, hev, hs, hr⟩ := runEvent_spec h eve fun idx heq =>
      hn idx (heq ▸ mem_cons_self)
    obtain ⟨s', hru, hr'⟩ := ih hs fun idx hi => hn idx (mem_cons_of_mem _ hi)
    refine ⟨s', by simpa [runSchedule, hev] using hru, ?_⟩
    rw [commits, hev]
    exact hr.trans hr'

/-- **Revocation wins.** A schedule whose events advance transactions that are there, are new, name
the object of their capability and have a length that is a `u32`, does not panic. What it writes are
its commits in their order: each is of an object that no earlier event revoked, inside that object's
range, with the data of its request. A transaction ends Committed if it was or has a commit. -/
theorem revocation_wins (caps : List Capability) (s : Schedule) (events : List Event)
    (hinside : ∀ entry ∈ s.fabric.objects, entry.base + entry.length ≤ s.fabric.memory.length)
    (hnew : ∀ i, .advance i ∈ events → ∃ tx cap, s.txs[i]? = some tx ∧ caps[i]? = some cap ∧
      tx.phase = .requested ∧ tx.objectId = cap.objectId ∧ tx.data.length < 2 ^ 32) :
    ∃ s', s.runSchedule caps events = some s' ∧
      s'.fabric.memory = (s.commits caps [] events).foldl Commit.apply s.fabric.memory ∧
      (∀ c ∈ s.commits caps [] events, .revoke c.tx.objectId ∉ c.earlier ∧
        c.Within s.fabric.objects ∧ s.requests[c.idx]? = some c.tx.request) ∧
      ∀ idx, s'.committed idx ↔ s.committed idx ∨ ∃ c ∈ s.commits caps [] events, c.idx = idx := by
  have hs : Sound caps (.advance · ∈ events) [] s := by
    refine ⟨hinside, fun i hi => ?_, nofun⟩
    obtain ⟨tx, cap, ht, hc, hp, ho, hl⟩ := hnew i hi
    exact ⟨tx, cap, ht, hc, ho, hl, by simp [hp]⟩
  obtain ⟨s', hru, hr⟩ := runSchedule_spec hs events fun _ => id
  exact ⟨s', hru, hr.memory, hr.valid, hr.committed⟩

/-- Two objects of two bytes each, and transactions for the first byte of these objects. -/
def twoObjects (ids : List Nat) : Schedule where
  fabric := ⟨[⟨0, 0, 2, .active⟩, ⟨0, 2, 2, .active⟩], [0, 0, 0, 0], []⟩
  txs := ids.map (.new · 0 [7])

/-- The second object is revoked between two phases of its transaction; the third transaction has no
capability. -/
theorem revocation_wins_one_commit :
    ∃ s', (twoObjects [0, 1, 1]).runSchedule [⟨0, 0, 0, 2, .WRITE⟩, ⟨1, 0, 2, 2, .WRITE⟩]
        [.advance 0, .advance 1, .advance 1, .advance 0, .revoke 1, .advance 0,
          .advance 1] = some s' ∧
      s'.fabric.memory = [7, 0, 0, 0] ∧ s'.committed 0 ∧ ¬ s'.committed 1 := by
  obtain ⟨s', hr, hm, -, hco⟩ :=
    revocation_wins [⟨0, 0, 0, 2, .WRITE⟩, ⟨1, 0, 2, 2, .WRITE⟩] (twoObjects [0, 1, 1])
      [.advance 0, .advance 1, .advance 1, .advance 0, .revoke 1, .advance 0, .advance 1]
      (by decide) fun i hi => by
        obtain rfl | rfl : i = 0 ∨ i = 1 := by
          simp at hi
          omega
        all_goals exact ⟨_, _, rfl, rfl, by decide⟩
  refine ⟨s', hr, hm, (hco 0).mpr (.inr ⟨_, mem_singleton.mpr rfl, rfl⟩), ?_⟩
  rw [hco]
  rintro (⟨_, ⟨⟩, ⟨⟩⟩ | ⟨c, hc, hid⟩)
  rw [mem_singleton.mp hc] at hid
  cases hid

/-- A transaction that names a revoked object commits through the capability of another one; an
index without a transaction panics. -/
theorem commits_after_revocation :
    ((twoObjects [1]).fabric.objects.makeCap 0 .WRITE).any (fun cap =>
      ((twoObjects [1]).runSchedule [cap] (.revoke 1 :: List.replicate 3
        (.advance 0))).any fun s' =>
        s'.fabric.memory = [7, 0, 0, 0] ∧ s'.txs.map (·.phase) = [.committed]) = true ∧
    ((twoObjects [1]).runSchedule [] [.advance 0]).isNone = true := by
  decide

end Schedule
end Anka.Concurrent
