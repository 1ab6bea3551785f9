import Anka.Authority.Record

/-!
# The wire format (`authority_persistence/protocol/codec.rs`)

A request is an envelope of 112 bytes, a reply 144: a magic number, a version word, a reserved word,
a correlation, the ten words of the request, and for a reply its status and the three words of an
outcome. A `Reply` can only be built by `success`, `failure` and `decode`; what they establish is
its field `wellFormed`.

* `Envelope.decode_eq_ok_iff`: a byte string decodes to an envelope exactly when it is the
  envelope's encoding.
* `Reply.decode_eq_ok_iff`: the same for a reply, bound to the envelope that is expected.
-/

namespace Anka.Authority

open Rust List Option

/-- Line 2. -/
def REQUEST_BYTES : Nat := 112

/-- Line 3. -/
def REPLY_BYTES : Nat := 144

/-- `b"ANKAPQ1\0"`. -/
def REQUEST_MAGIC : List UInt8 := [0x41, 0x4e, 0x4b, 0x41, 0x50, 0x51, 0x31, 0x00]

/-- `b"ANKAPR1\0"`. -/
def REPLY_MAGIC : List UInt8 := [0x41, 0x4e, 0x4b, 0x41, 0x50, 0x52, 0x31, 0x00]

/-- Why bytes are not a message. -/
inductive WireError where
  | length
  | incomplete
  | header
  | shape
  | binding
  | outcome
  deriving DecidableEq

/-- A request and its correlation. -/
structure Envelope where
  correlation : UInt64
  request : Request
  deriving DecidableEq

/-- What a reply reports. -/
inductive Status where
  | success
  | denied
  | conflict
  | exhausted
  | unavailable
  | uncertain
  | invalid
  deriving DecidableEq

namespace Status

/-- `self as u64`. -/
def word : Status → UInt64
  | success => 0
  | denied => 1
  | conflict => 2
  | exhausted => 3
  | unavailable => 4
  | uncertain => 5
  | invalid => 6

/-- The status that a word names (14). -/
def decode (w : UInt64) : Except WireError Status :=
  if w = 0 then .ok success
  else if w = 1 then .ok denied
  else if w = 2 then .ok conflict
  else if w = 3 then .ok exhausted
  else if w = 4 then .ok unavailable
  else if w = 5 then .ok uncertain
  else if w = 6 then .ok invalid
  else .error .header

theorem decode_eq_ok_iff {w : UInt64} {s : Status} : decode w = .ok s ↔ s.word = w := by
  constructor
  · intro h
    unfold decode at h
    repeat' split at h
    all_goals cases h
    all_goals exact Eq.symm ‹_›
  · rintro rfl
    cases s <;> decide

end Status

/-- The fields that a request must have (26). -/
def valid (r : Request) : Bool :=
  decide (r.anchor ≠ 0 ∧ r.installation ≠ 0 ∧ r.caller ≠ 0 ∧ r.incarnation ≠ 0 ∧ r.sequence ≠ 0 ∧
    r.argument ≠ 0) &&
    match r.operation with
    | .select => decide (r.attempt = 0)
    | .reserveBoot => decide (r.attempt ≠ 0)

/-- An envelope the codec writes and accepts. -/
def Envelope.Valid (e : Envelope) : Prop := e.correlation ≠ 0 ∧ valid e.request = true
  deriving Decidable

/-- Length, magic and end of a message (30). -/
def header (bytes : List UInt8) (expected : Nat) (magic : List UInt8) (ended : Bool) :
    Except WireError Unit :=
  if bytes.length ≠ expected then .error .length
  else if ended = false then .error .incomplete
  else if bytes.take 8 ≠ magic ∨ wordAt bytes 8 ≠ 1 ∨ wordAt bytes 16 ≠ 0 then .error .header
  else .ok ()

/-- The request of a message (36). -/
def readBody (bytes : List UInt8) : Except WireError Envelope :=
  match Request.ofWords fun i => wordAt bytes (32 + 8 * i) with
  | none => .error .shape
  | some request =>
    let e : Envelope := { correlation := wordAt bytes 24, request }
    if e.Valid then .ok e else .error .shape

/-- The words of `write_body`, the reserved one among them. -/
def bodyWords (e : Envelope) : List UInt64 := [1, 0, e.correlation] ++ e.request.words

namespace Envelope

/-- The request that the bytes hold (52). -/
def decode (bytes : List UInt8) (ended : Bool) : Except WireError Envelope :=
  match header bytes REQUEST_BYTES REQUEST_MAGIC ended with
  | .error e => .error e
  | .ok () => readBody bytes

/-- The bytes of a request (55). -/
def encode (e : Envelope) : Except WireError (List UInt8) :=
  if e.Valid then .ok (REQUEST_MAGIC ++ packWords (bodyWords e)) else .error .shape

end Envelope

/-- The outcome that a success must report (60). -/
def validOutcome (e : Envelope) (o : Outcome) : Prop :=
  checkedSucc e.request.expected = some o.revision ∧ o.value = e.request.argument ∧
    (e.request.operation = .select ∨ o.boot ≠ 0)
  deriving Decidable

/-- A success has an outcome that fits its request, anything else has none. -/
structure Reply where
  envelope : Envelope
  status : Status
  outcome : Option Outcome
  valid : envelope.Valid
  wellFormed : (status = .success ∧ ∃ o, outcome = some o ∧ validOutcome envelope o) ∨
    (status ≠ .success ∧ outcome = none)

namespace Reply

/-- A reply of success (65). -/
def success (envelope : Envelope) (outcome : Outcome) : Except WireError Reply :=
  if h : envelope.Valid ∧ validOutcome envelope outcome then
    .ok { envelope, status := .success, outcome := some outcome, valid := h.1
          wellFormed := .inl ⟨rfl, outcome, rfl, h.2⟩ }
  else .error .outcome

/-- A reply of failure (69). -/
def failure (envelope : Envelope) (status : Status) : Except WireError Reply :=
  if h : status ≠ .success ∧ envelope.Valid then
    .ok { envelope, status, outcome := none, valid := h.2, wellFormed := .inr ⟨h.1, rfl⟩ }
  else .error .shape

/-- The words after the body, zeros where there is no outcome. -/
def statusWords (r : Reply) : List UInt64 :=
  r.status.word :: (r.outcome.map fun o => [o.revision, o.value, o.boot]).getD [0, 0, 0]

/-- The bytes of a reply (73). -/
def encode (r : Reply) : List UInt8 :=
  REPLY_MAGIC ++ packWords (bodyWords r.envelope ++ r.statusWords)

/-- The status and outcome of a reply with this envelope. -/
def decodeStatus (bytes : List UInt8) (envelope : Envelope) : Except WireError Reply :=
  match Status.decode (wordAt bytes 112) with
  | .error e => .error e
  | .ok status =>
    let o : Outcome :=
      { revision := wordAt bytes 120, value := wordAt bytes 128, boot := wordAt bytes 136 }
    if status = .success then success envelope o
    else if (o.revision, o.value, o.boot) ≠ (0, 0, 0) then .error .outcome
    else failure envelope status

/-- The reply to a given request (79). -/
def decode (bytes : List UInt8) (ended : Bool) (expected : Envelope) : Except WireError Reply :=
  match header bytes REPLY_BYTES REPLY_MAGIC ended with
  | .error e => .error e
  | .ok () =>
    match readBody bytes with
    | .error e => .error e
    | .ok envelope =>
      if envelope ≠ expected then .error .binding else decodeStatus bytes envelope

end Reply

/-! ## Bytes and words -/

variable {magic bytes : List UInt8} {i : Nat} {ws : List UInt64} {v : UInt64}

theorem wordAt_magic (hm : magic.length = 8) (h : ws[i]? = some v) :
    wordAt (magic ++ packWords ws) (8 + 8 * i) = v := by
  rw [← hm, wordAt_append_right, hm, wordAt_packWords h]

theorem eq_magic_packWords {n : Nat} (hl : bytes.length = 8 + 8 * n) (hm : bytes.take 8 = magic)
    (hws : ws.length = n) (h : ∀ i v, ws[i]? = some v → wordAt bytes (8 + 8 * i) = v) :
    bytes = magic ++ packWords ws := by
  have hd : (bytes.drop 8).length = 8 * n := by
    rw [length_drop]
    omega
  have hw : unpackWords n (bytes.drop 8) = ws := by
    refine ext_getElem (by simp [unpackWords, hws]) fun i _ hi => ?_
    simp only [unpackWords, getElem_map, getElem_range]
    have hr := h i _ (getElem?_eq_getElem hi)
    rw [wordAt, slice] at hr ⊢
    rw [drop_drop]
    exact hr
  rw [← hw, packWords_unpackWords hd, ← hm, take_append_drop]

variable {ended : Bool}

theorem header_eq_ok_iff {ex : Nat} : header bytes ex magic ended = .ok () ↔
      bytes.length = ex ∧ ended = true ∧ bytes.take 8 = magic ∧ wordAt bytes 8 = 1 ∧
        wordAt bytes 16 = 0 := by
  unfold header
  split
  · rename_i hl
    exact ⟨nofun, fun h => absurd h.1 hl⟩
  rename_i hl
  split
  · rename_i hen
    exact ⟨nofun, fun h => absurd (hen.symm.trans h.2.1) (by decide)⟩
  rename_i hen
  split
  · rename_i hh
    refine ⟨nofun, fun h => ?_⟩
    rcases hh with hn | hn | hn
    · exact absurd h.2.2.1 hn
    · exact absurd h.2.2.2.1 hn
    · exact absurd h.2.2.2.2 hn
  · rename_i hh
    obtain ⟨hm, hr⟩ := not_or.mp hh
    obtain ⟨hv, hrs⟩ := not_or.mp hr
    exact ⟨fun _ => ⟨not_not.mp hl, Bool.eq_true_of_not_eq_false hen, not_not.mp hm,
      not_not.mp hv, not_not.mp hrs⟩, fun _ => rfl⟩

theorem length_bodyWords (e : Envelope) : (bodyWords e).length = 13 := rfl

variable {e : Envelope}

theorem readBody_eq_ok_iff : readBody bytes = .ok e ↔
      e.Valid ∧ wordAt bytes 24 = e.correlation ∧
        ∀ i v, e.request.words[i]? = some v → wordAt bytes (32 + 8 * i) = v := by
  unfold readBody
  constructor
  · intro h
    split at h
    · cases h
    rename_i request hr
    dsimp only at h
    split at h
    · rename_i hva
      cases h
      refine ⟨hva, rfl, fun i v hv => ?_⟩
      rw [Request.words_of_ofWords hr, getElem?_map, map_eq_some_iff] at hv
      obtain ⟨j, hj, rfl⟩ := hv
      obtain ⟨-, rfl⟩ := List.getElem?_eq_some_iff.mp hj
      rw [getElem_range]
    · cases h
  · rintro ⟨hva, hc, hw⟩
    rw [Request.ofWords_words hw]
    dsimp only
    rw [hc, if_pos hva]

theorem readBody_encoded {magic : List UInt8} {e : Envelope} {rest : List UInt64}
    (hm : magic.length = 8) (hva : e.Valid) :
    wordAt (magic ++ packWords (bodyWords e ++ rest)) 8 = 1 ∧
      wordAt (magic ++ packWords (bodyWords e ++ rest)) 16 = 0 ∧
      readBody (magic ++ packWords (bodyWords e ++ rest)) = .ok e := by
  refine ⟨wordAt_magic (i := 0) hm rfl, wordAt_magic (i := 1) hm rfl,
    readBody_eq_ok_iff.mpr ⟨hva, wordAt_magic (i := 2) hm rfl, fun i v hv => ?_⟩⟩
  have ho : 32 + 8 * i = 8 + 8 * (3 + i) := by omega
  have hi : i < e.request.words.length := (List.getElem?_eq_some_iff.mp hv).1
  rw [ho]
  refine wordAt_magic hm ?_
  rw [bodyWords, append_assoc, getElem?_append_right (by simp)]
  simpa [getElem?_append_left hi] using hv

theorem wordAt_bodyWords (hv : wordAt bytes 8 = 1) (hr : wordAt bytes 16 = 0)
    (hb : readBody bytes = .ok e) (h : (bodyWords e)[i]? = some v) :
    wordAt bytes (8 + 8 * i) = v := by
  obtain ⟨-, hc, hw⟩ := readBody_eq_ok_iff.mp hb
  match i, h with
  | 0, h => exact hv.trans (some.inj h)
  | 1, h => exact hr.trans (some.inj h)
  | 2, h => exact hc.trans (some.inj h)
  | i + 3, h =>
    have ho : 8 + 8 * (i + 3) = 32 + 8 * i := by omega
    rw [ho]
    exact hw i v h

/-! ## Requests -/

namespace Envelope

theorem encode_eq_ok_iff :
    e.encode = .ok bytes ↔ e.Valid ∧ bytes = REQUEST_MAGIC ++ packWords (bodyWords e) := by
  unfold encode
  split
  · rename_i hv
    exact ⟨fun h => ⟨hv, (Except.ok.inj h).symm⟩, fun h => by rw [h.2]⟩
  · rename_i hv
    exact ⟨nofun, fun h => absurd h.1 hv⟩

theorem decode_eq_ok_iff : decode bytes ended = .ok e ↔ ended = true ∧ e.encode = .ok bytes := by
  unfold decode
  rw [encode_eq_ok_iff]
  constructor
  · intro h
    split at h
    · cases h
    rename_i hh
    obtain ⟨hl, hend, hm, hve, hr⟩ := header_eq_ok_iff.mp hh
    refine ⟨hend, (readBody_eq_ok_iff.mp h).1, ?_⟩
    exact eq_magic_packWords (n := 13) hl hm (length_bodyWords e)
      fun i v hv => wordAt_bodyWords hve hr h hv
  · rintro ⟨rfl, hva, rfl⟩
    have hen := @readBody_encoded REQUEST_MAGIC e [] rfl hva
    rw [append_nil] at hen
    obtain ⟨hve, hr, hb⟩ := hen
    have hh : header (REQUEST_MAGIC ++ packWords (bodyWords e)) REQUEST_BYTES REQUEST_MAGIC
        true = .ok () := by
      refine header_eq_ok_iff.mpr ⟨?_, rfl, take_left' rfl, hve, hr⟩
      rw [length_append, length_packWords, length_bodyWords]
      rfl
    rw [hh]
    exact hb

theorem encode_of_decode (h : decode bytes ended = .ok e) :
    e.encode = .ok bytes := (decode_eq_ok_iff.mp h).2

theorem decode_of_length_ne (h : bytes.length ≠ REQUEST_BYTES) :
    decode bytes ended = .error .length := by
  rw [decode, header, if_pos h]

end Envelope

/-! ## Replies -/

variable {r : Reply}

namespace Reply

@[ext] theorem ext_fields {r' : Reply} (hen : r.envelope = r'.envelope)
    (hs : r.status = r'.status) (ho : r.outcome = r'.outcome) : r = r' := by
  obtain ⟨en, s, o, va, w⟩ := r
  obtain rfl : en = r'.envelope := hen
  obtain rfl : s = r'.status := hs
  obtain rfl : o = r'.outcome := ho
  rfl

theorem success_eq_ok_iff {o : Outcome} :
    success e o = .ok r ↔ r.envelope = e ∧ r.status = .success ∧ r.outcome = some o := by
  unfold success
  split
  · rename_i h
    constructor
    · rintro ⟨⟩
      exact ⟨rfl, rfl, rfl⟩
    · rintro ⟨hen, hs, hou⟩
      exact congrArg Except.ok (ext_fields hen.symm hs.symm hou.symm)
  · rename_i h
    refine ⟨nofun, ?_⟩
    rintro ⟨rfl, hs, hou⟩
    rcases r.wellFormed with ⟨-, o', ho', hf⟩ | ⟨hn, -⟩
    · obtain rfl : o' = o := mem_unique ho' hou
      exact absurd ⟨r.valid, hf⟩ h
    · exact absurd hs hn

theorem failure_eq_ok_iff {status : Status} : failure e status = .ok r ↔
      r.envelope = e ∧ r.status = status ∧ status ≠ .success ∧ r.outcome = none := by
  unfold failure
  split
  · rename_i h
    constructor
    · rintro ⟨⟩
      exact ⟨rfl, rfl, h.1, rfl⟩
    · rintro ⟨hen, hs, -, ho⟩
      exact congrArg Except.ok (ext_fields hen.symm hs.symm ho.symm)
  · rename_i h
    refine ⟨nofun, ?_⟩
    rintro ⟨rfl, rfl, hn, -⟩
    exact absurd ⟨hn, r.valid⟩ h

theorem length_statusWords (r : Reply) : r.statusWords.length = 4 := by
  unfold statusWords
  cases r.outcome <;> rfl

/-- The status and outcome are read exactly when their words are there. -/
theorem decodeStatus_eq_ok_iff : decodeStatus bytes e = .ok r ↔
      r.envelope = e ∧ ∀ i v, r.statusWords[i]? = some v → wordAt bytes (112 + 8 * i) = v := by
  unfold decodeStatus
  constructor
  · intro h
    split at h
    · cases h
    rename_i status hs
    rw [Status.decode_eq_ok_iff] at hs
    dsimp only at h
    split at h
    · rename_i hsu
      obtain ⟨hen, hr, ho⟩ := success_eq_ok_iff.mp h
      refine ⟨hen, fun i v hv => ?_⟩
      rw [statusWords, hr, ho, ← hsu, hs] at hv
      match i, hv with
      | 0, hv | 1, hv | 2, hv | 3, hv => exact some.inj hv
    · split at h
      · cases h
      rename_i hz
      obtain ⟨hen, hr, -, ho⟩ := failure_eq_ok_iff.mp h
      refine ⟨hen, fun i v hv => ?_⟩
      rw [statusWords, hr, ho, hs] at hv
      obtain ⟨hre, hrs⟩ := Prod.mk.inj (not_not.mp hz)
      obtain ⟨hva, hb⟩ := Prod.mk.inj hrs
      match i, hv with
      | 0, hv => exact some.inj hv
      | 1, hv => exact hre.trans (some.inj hv)
      | 2, hv => exact hva.trans (some.inj hv)
      | 3, hv => exact hb.trans (some.inj hv)
  · rintro ⟨rfl, hw⟩
    have hs : Status.decode (wordAt bytes 112) = .ok r.status :=
      Status.decode_eq_ok_iff.mpr (hw 0 _ rfl).symm
    rw [hs]
    dsimp only
    rcases r.wellFormed with ⟨hsu, o, ho, -⟩ | ⟨hn, ho⟩
    · rw [statusWords, ho] at hw
      rw [if_pos hsu, success_eq_ok_iff]
      refine ⟨rfl, hsu, ho.trans ?_⟩
      have hre : wordAt bytes 120 = o.revision := hw 1 _ rfl
      have hva : wordAt bytes 128 = o.value := hw 2 _ rfl
      have hb : wordAt bytes 136 = o.boot := hw 3 _ rfl
      rw [hre, hva, hb]
    · rw [statusWords, ho] at hw
      rw [if_neg hn, if_neg, failure_eq_ok_iff]
      · exact ⟨rfl, rfl, hn, ho⟩
      · exact not_not.mpr (by rw [hw 1 0 rfl, hw 2 0 rfl, hw 3 0 rfl])

theorem decode_eq_ok_iff {ex : Envelope} :
    decode bytes ended ex = .ok r ↔ ended = true ∧ r.envelope = ex ∧ bytes = r.encode := by
  unfold decode
  constructor
  · intro h
    split at h
    · cases h
    rename_i hh
    obtain ⟨hl, hen, hm, hve, hr⟩ := header_eq_ok_iff.mp hh
    split at h
    · cases h
    rename_i e hb
    split at h
    · cases h
    rename_i hex
    obtain ⟨rfl, hs⟩ := decodeStatus_eq_ok_iff.mp h
    refine ⟨hen, not_not.mp hex, ?_⟩
    refine eq_magic_packWords (n := 17) hl hm ?_ fun i v hv => ?_
    · rw [length_append, length_bodyWords, length_statusWords]
    · rcases Nat.lt_or_ge i 13 with hi | hi
      · rw [getElem?_append_left (by rwa [length_bodyWords])] at hv
        exact wordAt_bodyWords hve hr hb hv
      · rw [getElem?_append_right (by rwa [length_bodyWords]), length_bodyWords] at hv
        have ho : 8 + 8 * i = 112 + 8 * (i - 13) := by omega
        rw [ho]
        exact hs _ v hv
  · rintro ⟨rfl, rfl, rfl⟩
    obtain ⟨hve, hr, hb⟩ :=
      @readBody_encoded REPLY_MAGIC r.envelope r.statusWords rfl r.valid
    have hh : header r.encode REPLY_BYTES REPLY_MAGIC true = .ok () := by
      refine header_eq_ok_iff.mpr ⟨?_, rfl, take_left' rfl, hve, hr⟩
      rw [encode, length_append, length_packWords, length_append, length_bodyWords,
        length_statusWords]
      rfl
    rw [hh]
    dsimp only
    rw [show readBody r.encode = .ok r.envelope from hb]
    dsimp only
    rw [if_neg (not_not.mpr rfl), decodeStatus_eq_ok_iff]
    refine ⟨rfl, fun i v hv => ?_⟩
    have ho : 112 + 8 * i = 8 + 8 * (13 + i) := by omega
    rw [ho, encode]
    refine wordAt_magic rfl ?_
    rw [getElem?_append_right (by rw [length_bodyWords]; omega), length_bodyWords,
      Nat.add_sub_cancel_left]
    exact hv

theorem decode_encode (r : Reply) : decode r.encode true r.envelope = .ok r :=
  decode_eq_ok_iff.mpr ⟨rfl, rfl, rfl⟩

theorem encode_injective {r' : Reply} (h : r.encode = r'.encode) : r = r' := by
  have hb := (@readBody_encoded REPLY_MAGIC r.envelope r.statusWords rfl r.valid).2.2
  have hb' := (@readBody_encoded REPLY_MAGIC r'.envelope r'.statusWords rfl r'.valid).2.2
  have hen : r.envelope = r'.envelope := by
    have hs : readBody r.encode = readBody r'.encode := congrArg readBody h
    exact Except.ok.inj (hb.symm.trans (hs.trans hb'))
  have hd := decode_encode r
  rw [h, hen, decode_encode r'] at hd
  exact (Except.ok.inj hd).symm

end Reply

end Anka.Authority
