import Anka.Lib.Words
import Mathlib.Logic.Relation

/-!
# The durable authority record (`authority_persistence.rs`)

The record keeps the state of one installation: a revision, the selected value, a boot counter and
the last request that was executed. `transact` authorizes a request against trusted evidence,
reloads the state, decides (`prepare`) and commits. Only the last request is remembered; a repeated
one is answered from the record, and everything numbered before it is refused.

A backend is anything with `load` and `commit`. What an implementation owes is `Faithful`: a load
answers the stored state or an error, a commit that answers `Ok` has installed the new state, one
that fails has not, and one that answers `CommitUncertain` may have done either. `Step` is what can
happen to a record: a call, a stop between calls, and a stop inside a call, with or without its
effect. Nothing is assumed of the state a run starts from.

* `prepare_eq_commit`, `prepare_eq_replay`: what the two decisions establish.
* `Step.executes`: a step leaves the stored state alone or executes its own request, once.
* `Run.sequence`: along a run the state is the same or the sequence number has grown.
* `executes_each_request_once`: repetition is idempotent while the request is the last one, and
  requests the record has passed stay refused.
-/

namespace Anka.Authority

open Rust

/-! ## Requests and evidence -/

/-- A three-valued answer. -/
inductive Verdict where
  | unknown
  | invalid
  | valid
  deriving DecidableEq

/-- The operations of the record. -/
inductive Operation where
  | select
  | reserveBoot
  deriving DecidableEq

/-- What the authority knows of itself. -/
structure Context where
  anchor : UInt64
  installation : UInt64
  policy : UInt64
  challenge : UInt64
  now : UInt64
  selected : Bool

/-- What a caller may do. -/
structure Access where
  anchor : UInt64
  installation : UInt64
  policy : UInt64
  caller : UInt64
  incarnation : UInt64
  operation : Operation
  first : UInt64
  until_ : UInt64
  authentic : Verdict
  status : Verdict

/-- What a caller asks. -/
structure Request where
  anchor : UInt64
  installation : UInt64
  policy : UInt64
  caller : UInt64
  incarnation : UInt64
  sequence : UInt64
  expected : UInt64
  operation : Operation
  argument : UInt64
  attempt : UInt64
  deriving DecidableEq

/-- The state as a caller sees it. -/
structure Outcome where
  revision : UInt64
  value : UInt64
  boot : UInt64
  deriving DecidableEq

/-- The durable state. -/
structure State where
  revision : UInt64
  value : UInt64
  boot : UInt64
  last : Option Request
  deriving DecidableEq

namespace State

/-- The state without its last request (47). -/
def outcome (s : State) : Outcome := { revision := s.revision, value := s.value, boot := s.boot }

/-- `sequence`: zero before the first request. -/
def sequence (s : State) : UInt64 := (s.last.map (·.sequence)).getD 0

theorem sequence_of_last {s : State} {r : Request} (h : s.last = some r) :
    s.sequence = r.sequence := by
  rw [sequence, h]
  rfl

end State

/-- Why a request fails. -/
inductive Error where
  | authority
  | conflict
  | expiredRequest
  | capacity
  | exhausted
  | invalidRequest
  | backendUnavailable
  | backendBusy
  | corruptRecord
  | commitUncertain
  | bootDenied
  deriving DecidableEq

/-! ## The words of a request -/

/-- The number of an operation in both codecs. -/
def Operation.word : Operation → UInt64
  | .select => 1
  | .reserveBoot => 2

/-- The operation that a word names. -/
def Operation.ofWord (w : UInt64) : Option Operation :=
  if w = 1 then some .select else if w = 2 then some .reserveBoot else none

/-- The ten words of a request, in the order both codecs write them. -/
def Request.words (r : Request) : List UInt64 :=
  [r.anchor, r.installation, r.policy, r.caller, r.incarnation, r.sequence, r.expected,
    r.operation.word, r.argument, r.attempt]

/-- The request in ten words, read by position. -/
def Request.ofWords (w : Nat → UInt64) : Option Request :=
  (Operation.ofWord (w 7)).map fun operation =>
    { anchor := w 0, installation := w 1, policy := w 2, caller := w 3, incarnation := w 4
      sequence := w 5, expected := w 6, operation, argument := w 8, attempt := w 9 }

@[simp] theorem Operation.ofWord_word (o : Operation) : Operation.ofWord o.word = some o := by
  cases o <;> decide

theorem Operation.ofWord_eq_some {w : UInt64} {o : Operation} (h : Operation.ofWord w = some o) :
    o.word = w := by
  unfold Operation.ofWord at h
  split at h
  · cases h
    exact Eq.symm ‹w = 1›
  · split at h
    · cases h
      exact Eq.symm ‹w = 2›
    · cases h

variable {r : Request} {w : Nat → UInt64} {rev : UInt64} {o : Outcome}

theorem Request.ofWords_words (h : ∀ i v, r.words[i]? = some v → w i = v) :
    Request.ofWords w = some r := by
  have hw : ∀ i v, r.words[i]? = some v → w i = v := h
  simp only [Request.ofWords, hw 7 _ rfl, Operation.ofWord_word, Option.map_some, hw 0 _ rfl,
    hw 1 _ rfl, hw 2 _ rfl, hw 3 _ rfl, hw 4 _ rfl, hw 5 _ rfl, hw 6 _ rfl, hw 8 _ rfl,
    hw 9 _ rfl]

theorem Request.words_of_ofWords (h : Request.ofWords w = some r) :
    r.words = (List.range 10).map w := by
  obtain ⟨o, ho, rfl⟩ := Option.map_eq_some_iff.mp h
  simp only [Request.words, Operation.ofWord_eq_some ho]
  rfl

/-! ## Authorization -/

/-- `authorized`: the evidence is valid, current and about exactly this request. -/
def authorized (c : Context) (r : Request) (a : Access) : Prop :=
  c.selected = true ∧ c.anchor ≠ 0 ∧ c.installation ≠ 0 ∧
    r.anchor = c.anchor ∧ r.installation = c.installation ∧ r.policy = c.policy ∧
    a.anchor = r.anchor ∧ a.installation = r.installation ∧ a.policy = r.policy ∧
    r.caller ≠ 0 ∧ r.incarnation ≠ 0 ∧
    a.caller = r.caller ∧ a.incarnation = r.incarnation ∧ a.operation = r.operation ∧
    a.authentic = .valid ∧ a.status = .valid ∧
    a.first < a.until_ ∧ a.first ≤ c.now ∧ c.now < a.until_
  deriving Decidable

/-! ## The transition -/

/-- Answer again, or commit. -/
inductive Decision where
  | replay (outcome : Outcome)
  | commit (after : State)
  deriving DecidableEq

/-- The state after the operation of a request that passed the checks before it. -/
def operate (s : State) (r : Request) (revision : UInt64) : Except Error Decision :=
  match r.operation with
  | .select =>
    if r.attempt = 0 then
      .ok (.commit { revision, value := r.argument, boot := s.boot, last := some r })
    else .error .invalidRequest
  | .reserveBoot =>
    if r.attempt ≠ 0 ∧ r.argument = s.value then
      match checkedSucc s.boot with
      | some boot => .ok (.commit { revision, value := s.value, boot, last := some r })
      | none => .error .exhausted
    else .error .invalidRequest

/-- Decides a request against the state (77). -/
def prepare (c : Context) (s : State) (r : Request) (a : Access) (capacity : Bool) :
    Except Error Decision :=
  if ¬ authorized c r a then .error .authority
  else if s.last = some r ∧ r.sequence ≠ 0 then .ok (.replay s.outcome)
  else if r.sequence < s.sequence then .error .expiredRequest
  else if r.sequence = s.sequence then .error .conflict
  else match checkedSucc s.sequence with
    | none => .error .exhausted
    | some sequence =>
      match checkedSucc s.revision with
      | none => .error .exhausted
      | some revision =>
        if r.sequence ≠ sequence ∨ r.expected ≠ s.revision then .error .conflict
        else if capacity = false then .error .capacity
        else if r.argument = 0 then .error .invalidRequest
        else operate s r revision

/-- `DurableRecord`: a backend, with the state each call leaves it in. -/
structure DurableRecord (B : Type) where
  load : B → UInt64 → UInt64 → Except Error State × B
  commit : B → UInt64 → UInt64 → State → State → Except Error Unit × B

section Transact

variable {B : Type}

/-- Load, decide and commit (99). -/
def transact (R : DurableRecord B) (b : B) (c : Context) (r : Request) (a : Access)
    (capacity : Bool) : Except Error Outcome × B :=
  if ¬ authorized c r a then (.error .authority, b)
  else match R.load b c.anchor c.installation with
    | (.error e, b) => (.error e, b)
    | (.ok before, b) =>
      match prepare c before r a capacity with
      | .error e => (.error e, b)
      | .ok (.replay o) => (.ok o, b)
      | .ok (.commit after) =>
        match R.commit b c.anchor c.installation before after with
        | (.error e, b) => (.error e, b)
        | (.ok (), b) => (.ok after.outcome, b)

/-- What an implementation owes; `stored` is the state a reload would find. -/
structure DurableRecord.Faithful (R : DurableRecord B) (stored : B → State) : Prop where
  load_keeps : ∀ b anchor installation, stored (R.load b anchor installation).2 = stored b
  load_ok : ∀ b anchor installation s, (R.load b anchor installation).1 = .ok s → s = stored b
  commit_ok : ∀ b anchor installation before after,
    (R.commit b anchor installation before after).1 = .ok () →
      stored (R.commit b anchor installation before after).2 = after
  commit_error : ∀ b anchor installation before after e,
    (R.commit b anchor installation before after).1 = .error e → e ≠ .commitUncertain →
      stored (R.commit b anchor installation before after).2 = stored b
  commit_uncertain : ∀ b anchor installation before after,
    (R.commit b anchor installation before after).1 = .error .commitUncertain →
      stored (R.commit b anchor installation before after).2 = stored b ∨
        stored (R.commit b anchor installation before after).2 = after

end Transact

/-! ## What a decision establishes -/

/-- The request takes the one state to the other. -/
structure Executes (before : State) (r : Request) (after : State) : Prop where
  sequence : r.sequence.toNat = before.sequence.toNat + 1
  expected : r.expected = before.revision
  revision : after.revision.toNat = before.revision.toNat + 1
  last : after.last = some r
  argument : r.argument ≠ 0
  select : r.operation = .select →
    r.attempt = 0 ∧ after.value = r.argument ∧ after.boot = before.boot
  reserveBoot : r.operation = .reserveBoot → r.attempt ≠ 0 ∧ r.argument = before.value ∧
    after.value = before.value ∧ after.boot.toNat = before.boot.toNat + 1

variable {c : Context} {s s' : State} {r : Request} {a : Access} {cap : Bool}

theorem operate_executes (hsequence : checkedSucc s.sequence = some r.sequence)
    (hr : checkedSucc s.revision = some rev) (hex : r.expected = s.revision)
    (har : r.argument ≠ 0) (h : operate s r rev = .ok (.commit s')) : Executes s r s' := by
  have hsequence := checkedSucc_eq_some.mp hsequence
  have hr := checkedSucc_eq_some.mp hr
  unfold operate at h
  split at h
  · rename_i hs
    split at h
    · rename_i ha
      cases h
      exact ⟨hsequence, hex, hr, rfl, har, fun _ => ⟨ha, rfl, rfl⟩,
        fun ho => absurd (hs.symm.trans ho) (by decide)⟩
    · cases h
  · rename_i hre
    split at h
    · rename_i ha
      split at h
      · rename_i boot hb
        cases h
        exact ⟨hsequence, hex, hr, rfl, har,
          fun ho => absurd (hre.symm.trans ho) (by decide),
          fun _ => ⟨ha.1, ha.2, rfl, checkedSucc_eq_some.mp hb⟩⟩
      · cases h
    · cases h

theorem operate_ne_replay : operate s r rev ≠ .ok (.replay o) := by
  intro h
  unfold operate at h
  repeat' split at h
  all_goals cases h

theorem prepare_eq_commit (h : prepare c s r a cap = .ok (.commit s')) :
    authorized c r a ∧ Executes s r s' := by
  unfold prepare at h
  split at h
  · cases h
  rename_i hauth
  refine ⟨not_not.mp hauth, ?_⟩
  split at h
  · cases h
  split at h
  · cases h
  split at h
  · cases h
  split at h
  · cases h
  rename_i sequence hsequence
  split at h
  · cases h
  rename_i rev hr
  split at h
  · cases h
  rename_i ho
  obtain ⟨hs, hex⟩ := not_or.mp ho
  split at h
  · cases h
  split at h
  · cases h
  rename_i ha
  exact operate_executes (not_not.mp hs ▸ hsequence) hr (not_not.mp hex) ha h

theorem prepare_eq_replay :
    prepare c s r a cap = .ok (.replay o) ↔
      authorized c r a ∧ s.last = some r ∧ r.sequence ≠ 0 ∧ s.outcome = o := by
  constructor
  · intro h
    unfold prepare at h
    split at h
    · cases h
    rename_i hauth
    split at h
    · rename_i hlast
      cases h
      exact ⟨not_not.mp hauth, hlast.1, hlast.2, rfl⟩
    repeat' split at h
    all_goals first | cases h | exact absurd h operate_ne_replay
  · rintro ⟨hauth, hlast, hsequence, rfl⟩
    rw [prepare, if_neg (not_not.mpr hauth), if_pos ⟨hlast, hsequence⟩]

/-- What the record has passed: everything numbered up to its last request, but for that one. -/
def Passed (s : State) (r : Request) : Prop := r.sequence ≤ s.sequence ∧ s.last ≠ some r

variable {before after : State}

theorem Executes.sequence_after (h : Executes before r after) :
    after.sequence = r.sequence := State.sequence_of_last h.last

theorem Executes.grows (h : Executes before r after) : before.sequence < after.sequence := by
  rw [h.sequence_after, UInt64.lt_iff_toNat_lt, h.sequence]
  omega

theorem Executes.sequence_ne_zero (h : Executes before r after) : r.sequence ≠ 0 := by
  intro hz
  have hsequence := h.sequence
  rw [hz, UInt64.toNat_zero] at hsequence
  omega

/-! ## Calls -/

section Calls

variable {B : Type} {R : DurableRecord B} {stored : B → State} {b b' : B}
  {x : Except Error Outcome × B}

/-- What a call does: nothing to the stored state and an error or a replay, or the commit of its
request, answered or left uncertain. -/
inductive Called (stored : B → State) (c : Context) (r : Request) (a : Access) (b : B) :
    Except Error Outcome × B → Prop
  | refused (e : Error) (b' : B) (h : stored b' = stored b) : Called stored c r a b (.error e, b')
  | replayed (b' : B) (hauth : authorized c r a) (hlast : (stored b).last = some r)
      (hsequence : r.sequence ≠ 0) (h : stored b' = stored b) :
      Called stored c r a b (.ok (stored b).outcome, b')
  | executed (b' : B) (hauth : authorized c r a) (h : Executes (stored b) r (stored b')) :
      Called stored c r a b (.ok (stored b').outcome, b')
  | uncertain (b' : B) (hauth : authorized c r a) (h : Executes (stored b) r (stored b')) :
      Called stored c r a b (.error .commitUncertain, b')

theorem transact_called (hR : R.Faithful stored) :
    Called stored c r a b (transact R b c r a cap) := by
  unfold transact
  split
  · exact .refused _ _ rfl
  have hk := hR.load_keeps b c.anchor c.installation
  have hlo := hR.load_ok b c.anchor c.installation
  split
  · rename_i e b1 hl
    rw [hl] at hk
    exact .refused _ _ hk
  · rename_i before b1 hl
    rw [hl] at hk hlo
    obtain rfl : before = stored b := hlo before rfl
    split
    · exact .refused _ _ hk
    · rename_i o hr
      obtain ⟨hauth, hlast, hsequence, rfl⟩ := prepare_eq_replay.mp hr
      exact .replayed _ hauth hlast hsequence hk
    · rename_i after hco
      obtain ⟨hauth, hex⟩ := prepare_eq_commit hco
      have ho := hR.commit_ok b1 c.anchor c.installation (stored b) after
      have her := hR.commit_error b1 c.anchor c.installation (stored b) after
      have hu := hR.commit_uncertain b1 c.anchor c.installation (stored b) after
      split
      · rename_i e b2 hc
        rw [hc] at her hu
        by_cases he : e = .commitUncertain
        · subst he
          rcases hu rfl with hold | hn
          · exact .refused _ _ (hold.trans hk)
          · exact .uncertain _ hauth (by rwa [hn])
        · exact .refused _ _ ((her e rfl he).trans hk)
      · rename_i b2 hc
        rw [hc] at ho
        obtain rfl : stored b2 = after := ho rfl
        exact .executed _ hauth hex

section

variable (h : Called stored c r a b x)
include h

theorem Called.executes :
    stored x.2 = stored b ∨ authorized c r a ∧ Executes (stored b) r (stored x.2) := by
  cases h with
  | refused e b' h => exact .inl h
  | replayed b' _ _ _ h => exact .inl h
  | executed b' hauth h => exact .inr ⟨hauth, h⟩
  | uncertain b' hauth h => exact .inr ⟨hauth, h⟩

theorem Called.answer {o : Outcome} (hx : x.1 = .ok o) :
    (stored x.2).last = some r ∧ o = (stored x.2).outcome := by
  cases h with
  | refused | uncertain => cases hx
  | replayed b' _ hlast _ h =>
    cases hx
    rw [h]
    exact ⟨hlast, rfl⟩
  | executed b' _ h =>
    cases hx
    exact ⟨h.last, rfl⟩

theorem Called.again (hlast : (stored b).last = some r) :
    stored x.2 = stored b ∧ ∀ o, x.1 = .ok o → o = (stored b).outcome := by
  have hn : ∀ after, ¬ Executes (stored b) r after := by
    intro after hex
    have hsequence := hex.sequence
    rw [State.sequence_of_last hlast] at hsequence
    omega
  cases h with
  | refused e b' h => exact ⟨h, nofun⟩
  | replayed b' _ _ _ h => exact ⟨h, fun o ho => by cases ho; rfl⟩
  | executed b' _ h => exact absurd h (hn _)
  | uncertain b' _ h => exact absurd h (hn _)

theorem Called.of_passed (hp : Passed (stored b) r) :
    (∀ o, x.1 ≠ .ok o) ∧ stored x.2 = stored b := by
  have hn : ∀ after, ¬ Executes (stored b) r after := by
    intro after hex
    have hl := UInt64.le_iff_toNat_le.mp hp.1
    rw [hex.sequence] at hl
    omega
  cases h with
  | refused e b' h => exact ⟨nofun, h⟩
  | replayed b' _ hlast _ h => exact absurd hlast hp.2
  | executed b' _ h => exact absurd h (hn _)
  | uncertain b' _ h => exact absurd h (hn _)

end

theorem transact_replays (hR : R.Faithful stored) {x : State} (hauth : authorized c r a)
    (hlast : (stored b).last = some r) (hsequence : r.sequence ≠ 0)
    (hlo : (R.load b c.anchor c.installation).1 = .ok x) :
    (transact R b c r a cap).1 = .ok (stored b).outcome := by
  obtain rfl := hR.load_ok b c.anchor c.installation x hlo
  have hp : prepare c (stored b) r a cap = .ok (.replay (stored b).outcome) :=
    prepare_eq_replay.mpr ⟨hauth, hlast, hsequence, rfl⟩
  rw [transact, if_neg (not_not.mpr hauth)]
  rcases hl : R.load b c.anchor c.installation with ⟨re, b1⟩
  rw [hl] at hlo
  subst hlo
  simp only [hp]

/-! ## Runs -/

/-- What a step of the service is asked to do. -/
inductive Label where
  /-- A call that returns. -/
  | call (c : Context) (r : Request) (a : Access) (capacity : Bool)
  /-- The service stops and starts again between calls. -/
  | stop
  /-- It stops inside a call, and no answer is given. -/
  | cut (c : Context) (r : Request) (a : Access) (capacity : Bool)

/-- The request a step is about. -/
def Label.Asks (c : Context) (r : Request) (a : Access) : Label → Prop
  | .call c' r' a' _ => c' = c ∧ r' = r ∧ a' = a
  | .stop => False
  | .cut c' r' a' _ => c' = c ∧ r' = r ∧ a' = a

/-- What may happen to a record. -/
inductive Step (R : DurableRecord B) (stored : B → State) (b : B) : Label → B → Prop
  | call (c : Context) (r : Request) (a : Access) (capacity : Bool) :
      Step R stored b (.call c r a capacity) (transact R b c r a capacity).2
  | stop (b' : B) (h : stored b' = stored b) : Step R stored b .stop b'
  /-- Before the commit took effect, or after it. -/
  | cut (c : Context) (r : Request) (a : Access) (capacity : Bool) (b' : B)
      (h : stored b' = stored b ∨ prepare c (stored b) r a capacity = .ok (.commit (stored b'))) :
      Step R stored b (.cut c r a capacity) b'

/-- Any number of steps. -/
def Run (R : DurableRecord B) (stored : B → State) : B → B → Prop :=
  Relation.ReflTransGen fun b b' => ∃ l, Step R stored b l b'

section

variable (hR : R.Faithful stored)
include hR

theorem Step.executes {l : Label} (h : Step R stored b l b') :
    stored b' = stored b ∨
      ∃ c r a, l.Asks c r a ∧ authorized c r a ∧ Executes (stored b) r (stored b') := by
  cases h with
  | call c r a cap =>
    rcases (transact_called hR).executes with h | h
    · exact .inl h
    · exact .inr ⟨c, r, a, ⟨rfl, rfl, rfl⟩, h⟩
  | stop _ h => exact .inl h
  | cut c r a cap _ h =>
    rcases h with h | h
    · exact .inl h
    · exact .inr ⟨c, r, a, ⟨rfl, rfl, rfl⟩, prepare_eq_commit h⟩

theorem Run.sequence (h : Run R stored b b') :
    stored b' = stored b ∨ (stored b).sequence < (stored b').sequence := by
  induction h with
  | refl => exact .inl rfl
  | tail _ hs ih =>
    obtain ⟨l, hs⟩ := hs
    rcases hs.executes hR with hsa | ⟨c, r, a, -, -, hex⟩
    · rwa [hsa]
    · rcases ih with ih | ih
      · exact .inr (ih ▸ hex.grows)
      · exact .inr (UInt64.lt_trans ih hex.grows)

theorem Run.passed (h : Run R stored b b') (hp : Passed (stored b) r) : Passed (stored b') r := by
  rcases h.sequence hR with hs | hl
  · rwa [hs]
  · refine ⟨UInt64.le_trans hp.1 (UInt64.le_of_lt hl), fun hlast => ?_⟩
    have hle := hp.1
    rw [← State.sequence_of_last hlast] at hle
    exact UInt64.not_lt.mpr hle hl

theorem Run.same_of_last (h : Run R stored b b') (hlast : (stored b).last = some r)
    (hlast' : (stored b').last = some r) : stored b' = stored b := by
  rcases h.sequence hR with hs | hl
  · exact hs
  · rw [State.sequence_of_last hlast, State.sequence_of_last hlast'] at hl
    exact absurd hl (UInt64.lt_irrefl _)

/-- **Each request is executed once.** Over any run, from any state, with stops anywhere:

* a step changes the stored state only by executing the authorized request it is about: the next
  sequence number, the revision as it was, one more revision, one more boot exactly for ReserveBoot,
  another value only by Select;
* a success answers the outcome of a state whose last request is the one asked for;
* while an executed request is the last one, asking again has no effect and gives the outcome it had
  at first, or an error where the evidence is not valid or the record cannot be loaded;
* a request the record has passed is refused without effect from then on. -/
theorem executes_each_request_once (hrun : Run R stored b b') :
    (∀ l b'', Step R stored b' l b'' → stored b'' = stored b' ∨
      ∃ c r a, l.Asks c r a ∧ authorized c r a ∧ Executes (stored b') r (stored b'')) ∧
    (∀ c r a cap o, (transact R b' c r a cap).1 = .ok o →
      (stored (transact R b' c r a cap).2).last = some r ∧
        o = (stored (transact R b' c r a cap).2).outcome) ∧
    (∀ before r, Executes before r (stored b) → (stored b').last = some r → ∀ c a cap,
      stored (transact R b' c r a cap).2 = stored b' ∧
      (∀ o, (transact R b' c r a cap).1 = .ok o → o = (stored b).outcome) ∧
      (∀ s, authorized c r a → (R.load b' c.anchor c.installation).1 = .ok s →
        (transact R b' c r a cap).1 = .ok (stored b).outcome)) ∧
    (∀ r, Passed (stored b) r → ∀ c a cap,
      (∀ o, (transact R b' c r a cap).1 ≠ .ok o) ∧
        stored (transact R b' c r a cap).2 = stored b') := by
  refine ⟨fun l b'' hst => hst.executes hR, fun c r a cap o ho => ?_,
    fun before r hex hlast c a cap => ?_, fun r hp c a cap => ?_⟩
  · exact (transact_called hR).answer ho
  · have hs : stored b' = stored b := hrun.same_of_last hR hex.last hlast
    obtain ⟨hk, ha⟩ := (transact_called hR).again hlast
    refine ⟨hk, fun o ho => hs ▸ ha o ho, fun s hauth hl => ?_⟩
    rw [transact_replays hR hauth hlast hex.sequence_ne_zero hl, hs]
  · exact (transact_called hR).of_passed (hrun.passed hR hp)

end

end Calls

/-! ## The record in memory -/

/-- A backend that keeps the state in memory and never fails. -/
def memoryRecord : DurableRecord State where
  load s _ _ := (.ok s, s)
  commit _ _ _ _ after := (.ok (), after)

theorem memoryRecord_faithful : memoryRecord.Faithful id where
  load_keeps _ _ _ := rfl
  load_ok _ _ _ _ h := (Except.ok.inj h).symm
  commit_ok _ _ _ _ _ _ := rfl
  commit_error _ _ _ _ _ _ h _ := nomatch h
  commit_uncertain _ _ _ _ _ h := nomatch h

/-- Select value 9 as the first request of a record provisioned at revision 1. -/
def selectNine : Request :=
  { anchor := 1, installation := 2, policy := 3, caller := 4, incarnation := 5, sequence := 1
    expected := 1, operation := .select, argument := 9, attempt := 0 }

/-- The authority of the examples. -/
def selectContext : Context :=
  { anchor := 1, installation := 2, policy := 3, challenge := 0, now := 10, selected := true }

/-- Its caller. -/
def selectAccess : Access :=
  { anchor := 1, installation := 2, policy := 3, caller := 4, incarnation := 5, operation := .select
    first := 0, until_ := 20, authentic := .valid, status := .valid }

/-- Its first state. -/
def provisioned : State := { revision := 1, value := 7, boot := 0, last := none }

/-- The request is executed once and answered twice. -/
theorem executes_each_request_once_select :
    let selected := (transact memoryRecord provisioned selectContext selectNine selectAccess true).2
    memoryRecord.Faithful id ∧ Executes provisioned selectNine selected ∧
      selected = { revision := 2, value := 9, boot := 0, last := some selectNine } ∧
      (transact memoryRecord selected selectContext selectNine selectAccess true).1 =
        .ok { revision := 2, value := 9, boot := 0 } ∧
      (transact memoryRecord selected selectContext selectNine selectAccess true).2 = selected := by
  have hex : Executes provisioned selectNine
      (transact memoryRecord provisioned selectContext selectNine selectAccess true).2 :=
    (@prepare_eq_commit selectContext _ _ _ selectAccess true (by decide)).2
  have ha := (executes_each_request_once memoryRecord_faithful
    (b := (transact memoryRecord provisioned selectContext selectNine selectAccess true).2)
    .refl).2.2.1 provisioned selectNine hex hex.last selectContext selectAccess true
  exact ⟨memoryRecord_faithful, hex, by decide, by decide, ha.1⟩

end Anka.Authority
