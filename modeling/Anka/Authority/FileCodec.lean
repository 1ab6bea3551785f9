import Anka.Authority.Record
import Anka.Lib.Crc

/-!
# The bytes of the file record (`authority_persistence/file_backend.rs`)

A record is 152 bytes: a magic number, seventeen words and a CRC of everything before it. `encode`
writes only states that are valid for the installation, and `decode` accepts only bytes of that
shape whose state is valid. `validSuccessor` is the backend's own check of what a commit may
install; it and `validState` are written separately from `prepare`.

* `decode_encode`: what was encoded is read back.
* `validSuccessor_of_executes`, `validState_of_executes`: what `prepare` decides to commit passes
  both checks, so the three predicates agree where they meet.
* `decode_corrupt_error`: an error within 64 consecutive bits is detected.
-/

namespace Anka.Authority.FileBackend

open Rust List Option
variable {ws : List UInt64} {bytes : List UInt8}

/-- `b"ANKAPS1\0"`. -/
def MAGIC : List UInt8 := [0x41, 0x4e, 0x4b, 0x41, 0x50, 0x53, 0x31, 0x00]

/-- Line 12. -/
def WORDS : Nat := 17

/-- Line 13. -/
def RECORD_BYTES : Nat := 8 + WORDS * 8 + 8

/-! ## The checksum -/

/-- One of the eight rounds of a byte. -/
def checksumRound (crc : UInt64) : UInt64 :=
  if crc &&& ((1 : UInt64) <<< 63) ≠ 0 then (crc <<< 1) ^^^ 0x42f0e1eba9ea3693 else crc <<< 1

/-- One byte of `checksum` (49). -/
def checksumByte (crc : UInt64) (byte : UInt8) : UInt64 :=
  checksumRound^[8] (crc ^^^ (byte.toUInt64 <<< 56))

/-- `checksum`: CRC64-ECMA. -/
def checksum (bytes : List UInt8) : UInt64 := bytes.foldl checksumByte 0

/-! ## Validity -/

/-- What `valid_state` asks of the last request. -/
def validLast (anchor installation : UInt64) (s : State) (r : Request) : Bool :=
  decide (r.anchor = anchor ∧ r.installation = installation ∧ r.caller ≠ 0 ∧ r.incarnation ≠ 0 ∧
    r.sequence ≠ 0 ∧ checkedSucc r.expected = some s.revision ∧ r.argument = s.value) &&
    match r.operation with
    | .select => decide (r.attempt = 0)
    | .reserveBoot => decide (r.attempt ≠ 0 ∧ s.boot ≠ 0)

/-- The states that a record may hold (57). -/
def validState (anchor installation : UInt64) (s : State) : Bool :=
  decide (anchor ≠ 0 ∧ installation ≠ 0 ∧ s.revision ≠ 0 ∧ s.value ≠ 0) &&
    match s.last with
    | some r => validLast anchor installation s r
    | none => true

/-- The states that may follow one another (99). -/
def validSuccessor (before after : State) : Bool :=
  match after.last with
  | none => false
  | some r =>
    decide (r.expected = before.revision ∧ checkedSucc before.revision = some after.revision ∧
      checkedSucc before.sequence = some r.sequence) &&
      match r.operation with
      | .select => decide (r.attempt = 0 ∧ after.value = r.argument ∧ after.boot = before.boot)
      | .reserveBoot =>
        decide (r.attempt ≠ 0 ∧ r.argument = before.value ∧ after.value = before.value ∧
          checkedSucc before.boot = some after.boot)

/-! ## The codec -/

/-- The words of a state, the place of a missing request filled with zeros. -/
def stateWords (anchor installation : UInt64) (s : State) : List UInt64 :=
  [1, anchor, installation, s.revision, s.value, s.boot, if s.last.isSome then 1 else 0] ++
    (s.last.map Request.words).getD (List.replicate 10 0)

/-- The words between the magic number and their checksum. -/
def recordBytes (ws : List UInt64) : List UInt8 :=
  MAGIC ++ packWords ws ++ wordBytes (checksum (MAGIC ++ packWords ws))

/-- The bytes of a record (68). -/
def encode (anchor installation : UInt64) (s : State) : Except Error (List UInt8) :=
  if validState anchor installation s = true then
    .ok (recordBytes (stateWords anchor installation s))
  else .error .corruptRecord

/-- The last request as its flag and its words say. -/
def decodeLast (flag : UInt64) (w : Nat → UInt64) : Except Error (Option Request) :=
  if flag = 0 then
    if (List.range 10).all (w · == 0) = true then .ok none else .error .corruptRecord
  else if flag = 1 then
    match Request.ofWords w with
    | some r => .ok (some r)
    | none => .error .corruptRecord
  else .error .corruptRecord

/-- The state in seventeen words. -/
def decodeWords (anchor installation : UInt64) (w : Nat → UInt64) : Except Error State :=
  if w 0 ≠ 1 then .error .corruptRecord
  else if w 1 ≠ anchor ∨ w 2 ≠ installation then .error .authority
  else match decodeLast (w 6) fun i => w (7 + i) with
    | .error e => .error e
    | .ok last =>
      let s : State := { revision := w 3, value := w 4, boot := w 5, last }
      if validState anchor installation s = true then .ok s else .error .corruptRecord

/-- The state of a record; every word is checked (81). -/
def decode (bytes : List UInt8) (anchor installation : UInt64) : Except Error State :=
  if bytes.length ≠ RECORD_BYTES ∨ bytes.take 8 ≠ MAGIC then .error .corruptRecord
  else if checksum (bytes.take (RECORD_BYTES - 8)) ≠ wordAt bytes (RECORD_BYTES - 8) then
    .error .corruptRecord
  else decodeWords anchor installation fun i => wordAt bytes (8 + 8 * i)

variable {anchor installation : UInt64} {s s' : State} {r : Request}

@[simp] theorem length_stateWords : (stateWords anchor installation s).length = WORDS := by
  cases h : s.last <;> simp [stateWords, h, Request.words, WORDS]

theorem length_recordBytes (h : ws.length = WORDS) : (recordBytes ws).length = RECORD_BYTES := by
  simp [recordBytes, h, MAGIC, RECORD_BYTES, WORDS]

theorem take_recordBytes (h : ws.length = WORDS) :
    (recordBytes ws).take (RECORD_BYTES - 8) = MAGIC ++ packWords ws := by
  have hl : RECORD_BYTES - 8 = (MAGIC ++ packWords ws).length := by
    simp [h, MAGIC, RECORD_BYTES, WORDS]
  rw [recordBytes, hl, take_left]

theorem wordAt_recordBytes_checksum (h : ws.length = WORDS) :
    wordAt (recordBytes ws) (RECORD_BYTES - 8) = checksum (MAGIC ++ packWords ws) := by
  have hl : RECORD_BYTES - 8 = (MAGIC ++ packWords ws).length + 0 := by
    simp [h, MAGIC, RECORD_BYTES, WORDS]
  rw [recordBytes, hl, wordAt_append_right, ← append_nil (wordBytes _), wordAt_wordBytes]

theorem wordAt_recordBytes {i : Nat} {v : UInt64} (h : ws[i]? = some v) :
    wordAt (recordBytes ws) (8 + 8 * i) = v := by
  have hi : i < ws.length := (List.getElem?_eq_some_iff.mp h).1
  have hm : 8 + 8 * i = MAGIC.length + 8 * i := rfl
  rw [recordBytes, append_assoc, hm, wordAt_append_right,
    wordAt_append_left (by rw [length_packWords]; omega), wordAt_packWords h]

theorem decode_recordBytes (h : ws.length = WORDS) :
    decode (recordBytes ws) anchor installation =
      decodeWords anchor installation fun i => wordAt (recordBytes ws) (8 + 8 * i) := by
  have hm : (recordBytes ws).take 8 = MAGIC := by
    rw [recordBytes, append_assoc]
    exact take_left' rfl
  rw [decode, if_neg, if_neg]
  · rw [take_recordBytes h, wordAt_recordBytes_checksum h]
    exact not_not.mpr rfl
  · rw [length_recordBytes h, hm]
    simp

variable {w : Nat → UInt64} {a : Access} {c : Context}

theorem decodeLast_words
    (h : ∀ i v, ((s.last.map Request.words).getD (List.replicate 10 0))[i]? = some v → w i = v) :
    decodeLast (if s.last.isSome then 1 else 0) w = .ok s.last := by
  cases hl : s.last with
  | none =>
    have hz : (List.range 10).all (w · == 0) = true := by
      rw [List.all_eq_true]
      intro i hi
      refine beq_iff_eq.mpr (h i 0 ?_)
      rw [hl, map_none, getD_none, getElem?_replicate_of_lt (mem_range.mp hi)]
    rw [decodeLast, if_pos (by simp), if_pos hz]
  | some r =>
    have hw : Request.ofWords w = some r :=
      Request.ofWords_words fun i v hv => h i v (by simpa [hl] using hv)
    rw [decodeLast, if_neg (by simp), if_pos (by simp), hw]

theorem decodeWords_stateWords (hva : validState anchor installation s = true)
    (h : ∀ i v, (stateWords anchor installation s)[i]? = some v → w i = v) :
    decodeWords anchor installation w = .ok s := by
  have hl : decodeLast (w 6) (fun i => w (7 + i)) = .ok s.last := by
    rw [h 6 _ rfl]
    refine decodeLast_words fun i v hv => h (7 + i) v ?_
    rw [stateWords, getElem?_append_right (by simp)]
    simpa using hv
  rw [decodeWords, if_neg (by simp [h 0 1 rfl]),
    if_neg (by simp [h 1 anchor rfl, h 2 installation rfl]), hl]
  simp only [h 3 s.revision rfl, h 4 s.value rfl, h 5 s.boot rfl]
  rw [if_pos hva]

theorem decode_encode (h : encode anchor installation s = .ok bytes) :
    decode bytes anchor installation = .ok s := by
  unfold encode at h
  split at h
  · rename_i hva
    cases h
    rw [decode_recordBytes length_stateWords]
    exact decodeWords_stateWords hva fun i v hv => wordAt_recordBytes hv
  · cases h

theorem length_of_decode (h : decode bytes anchor installation = .ok s) :
    bytes.length = RECORD_BYTES := by
  unfold decode at h
  split at h
  · cases h
  · rename_i hs
    exact not_not.mp (not_or.mp hs).1

theorem decode_words {anchor installation : UInt64} {s : State}
    (h : decode bytes anchor installation = .ok s) :
    (wordAt bytes (8 + 8 * 1) = anchor ∧ wordAt bytes (8 + 8 * 2) = installation) ∧
      validState anchor installation s = true := by
  unfold decode decodeWords at h
  dsimp only at h
  repeat' split at h
  all_goals cases h
  rename_i hn _ _ _ hv
  exact ⟨⟨not_not.mp (not_or.mp hn).1, not_not.mp (not_or.mp hn).2⟩, hv⟩

theorem decode_nonzero (h : decode bytes anchor installation = .ok s) :
    anchor ≠ 0 ∧ installation ≠ 0 := by
  have hv := (decode_words h).2
  simp only [validState, Bool.and_eq_true, decide_eq_true_eq] at hv
  exact ⟨hv.1.1, hv.1.2.1⟩

theorem decode_namespace {anchor' installation' : UInt64}
    (h : decode bytes anchor installation = .ok s)
    (h' : decode bytes anchor' installation' = .ok s') :
    anchor' = anchor ∧ installation' = installation := by
  obtain ⟨⟨ha, hi⟩, -⟩ := decode_words h
  obtain ⟨⟨ha', hi'⟩, -⟩ := decode_words h'
  exact ⟨ha'.symm.trans ha, hi'.symm.trans hi⟩

/-! ## The checks agree with `prepare` -/

theorem ne_zero_of_toNat_succ {v w : UInt64} (h : v.toNat = w.toNat + 1) : v ≠ 0 := by
  rintro rfl
  rw [UInt64.toNat_zero] at h
  omega

theorem validSuccessor_of_executes (h : Executes s r s') : validSuccessor s s' = true := by
  unfold validSuccessor
  rw [h.last]
  simp only [Bool.and_eq_true, decide_eq_true_eq]
  refine ⟨⟨h.expected, checkedSucc_eq_some.mpr h.revision, checkedSucc_eq_some.mpr h.sequence⟩, ?_⟩
  cases ho : r.operation with
  | select =>
    obtain ⟨ha, hv, hb⟩ := h.select ho
    simp [ha, hv, hb]
  | reserveBoot =>
    obtain ⟨ha, har, hv, hb⟩ := h.reserveBoot ho
    simp [ha, har, hv, checkedSucc_eq_some.mpr hb]

theorem validLast_of_executes (hau : authorized c r a) (h : Executes s r s') :
    validLast c.anchor c.installation s' r = true := by
  obtain ⟨-, -, -, ha, hin, -, -, -, -, hc, hi, -⟩ := hau
  have hr : checkedSucc r.expected = some s'.revision := by
    rw [h.expected]
    exact checkedSucc_eq_some.mpr h.revision
  have hv : r.argument = s'.value := by
    cases ho : r.operation with
    | select => exact (h.select ho).2.1.symm
    | reserveBoot => exact (h.reserveBoot ho).2.1.trans (h.reserveBoot ho).2.2.1.symm
  unfold validLast
  rw [Bool.and_eq_true, decide_eq_true_eq]
  refine ⟨⟨ha, hin, hc, hi, h.sequence_ne_zero, hr, hv⟩, ?_⟩
  cases ho : r.operation with
  | select => exact decide_eq_true (h.select ho).1
  | reserveBoot =>
    obtain ⟨hat, -, -, hb⟩ := h.reserveBoot ho
    exact decide_eq_true ⟨hat, ne_zero_of_toNat_succ hb⟩

theorem validState_of_executes (ha : authorized c r a) (h : Executes s r s') :
    validState c.anchor c.installation s' = true := by
  have hl := validLast_of_executes ha h
  have hv : s'.value ≠ 0 := by
    have hp := hl
    unfold validLast at hp
    rw [Bool.and_eq_true, decide_eq_true_eq] at hp
    exact hp.1.2.2.2.2.2.2 ▸ h.argument
  unfold validState
  rw [h.last, Bool.and_eq_true, decide_eq_true_eq]
  exact ⟨⟨ha.2.1, ha.2.2.1, ne_zero_of_toNat_succ h.revision, hv⟩, hl⟩

/-! ## What the checksum detects -/

/-- CRC64-ECMA without its leading term. -/
def generator : BitVec 64 := 0x42f0e1eba9ea3693#64

/-- The bits of a byte, most significant first. -/
def byteBits (b : UInt8) : List Bool := (List.range 8).map b.toBitVec.getMsbD

/-- The bits of a message, first to last. -/
def bits (bytes : List UInt8) : List Bool := bytes.flatMap byteBits

/-- An error on the bytes before the checksum. -/
def corrupt (bytes e : List UInt8) : List UInt8 :=
  List.zipWith (· ^^^ ·) (bytes.take (RECORD_BYTES - 8)) e ++ bytes.drop (RECORD_BYTES - 8)

theorem checksumRound_toBitVec (c : UInt64) :
    (checksumRound c).toBitVec = Crc.times generator c.toBitVec := by
  have hm : c &&& ((1 : UInt64) <<< 63) ≠ 0 ↔ c.toBitVec.msb = true := by
    have ha := @BitVec.and_twoPow 64 c.toBitVec 63
    rw [ne_eq, ← UInt64.toBitVec_inj, UInt64.toBitVec_and,
      show ((1 : UInt64) <<< 63).toBitVec = BitVec.twoPow 64 63 by decide, ha,
      BitVec.msb_eq_getLsbD_last]
    cases c.toBitVec.getLsbD 63 <;> decide
  unfold checksumRound Crc.times
  simp only [hm]
  split <;> rfl

theorem iterate_checksumRound (n : Nat) (c : UInt64) :
    (checksumRound^[n] c).toBitVec = (Crc.times generator)^[n] c.toBitVec :=
  Function.Semiconj.iterate_right (f := UInt64.toBitVec) checksumRound_toBitVec n c

theorem checksumByte_toBitVec (c : UInt64) (b : UInt8) :
    (checksumByte c b).toBitVec = (byteBits b).foldl (Crc.feed generator) c.toBitVec := by
  have hbl : (b.toUInt64 <<< 56).toBitVec = Crc.block (byteBits b) := by
    refine BitVec.eq_of_getMsbD_eq fun i hi => ?_
    have hs : (b.toUInt64 <<< 56).toBitVec = b.toBitVec.setWidth 64 <<< 56 := rfl
    rw [Crc.getMsbD_block, hs, BitVec.getMsbD_shiftLeft, BitVec.getMsbD_setWidth]
    by_cases hb : i < 8
    · simp [byteBits, hb, hi]
    · simp [byteBits, hb, BitVec.getMsbD_of_ge _ i (Nat.not_lt.mp hb)]
  rw [Crc.foldl_feed (by simp [byteBits]), ← hbl, checksumByte, iterate_checksumRound,
    UInt64.toBitVec_xor]
  rfl

theorem checksum_toBitVec (bytes : List UInt8) :
    (checksum bytes).toBitVec = (bits bytes).foldl (Crc.feed generator) 0#64 := by
  have hf : ∀ c : UInt64, (bytes.foldl checksumByte c).toBitVec =
      (bits bytes).foldl (Crc.feed generator) c.toBitVec := by
    induction bytes with
    | nil => exact fun _ => rfl
    | cons b bytes ih =>
      intro c
      rw [foldl_cons, ih, checksumByte_toBitVec, ← foldl_append]
      rfl
  exact hf 0

theorem checksumByte_xor (c d : UInt64) (x y : UInt8) :
    checksumByte (c ^^^ d) (x ^^^ y) = checksumByte c x ^^^ checksumByte d y := by
  have hs : ∀ a b c d : BitVec 64, a ^^^ b ^^^ (c ^^^ d) = a ^^^ c ^^^ (b ^^^ d) := by
    intro a b c d
    ac_rfl
  apply UInt64.toBitVec_inj.mp
  simp only [checksumByte, iterate_checksumRound, UInt64.toBitVec_xor, UInt8.toUInt64_xor,
    UInt64.shiftLeft_xor, hs, Crc.iterate_times_xor]

theorem checksum_xor {a e : List UInt8} (h : a.length = e.length) :
    checksum (List.zipWith (· ^^^ ·) a e) = checksum a ^^^ checksum e := by
  have hf : ∀ c d : UInt64, (List.zipWith (· ^^^ ·) a e).foldl checksumByte (c ^^^ d) =
      a.foldl checksumByte c ^^^ e.foldl checksumByte d := by
    induction a generalizing e with
    | nil =>
      cases e with
      | nil => exact fun _ _ => rfl
      | cons => cases h
    | cons x a ih =>
      cases e with
      | nil => cases h
      | cons y e =>
        intro c d
        rw [zipWith_cons_cons, foldl_cons, checksumByte_xor]
        exact ih (Nat.succ.inj h) _ _
  exact hf 0 0

/-- **The checksum detects every short burst.** A record is valid and an error on its first 144
bytes is not zero and within 64 consecutive bits; then no installation reads the record. -/
theorem decode_corrupt_error {e : List UInt8} {window : List Bool} {before after : Nat}
    {anchor' installation' : UInt64} (hvalid : decode bytes anchor installation = .ok s)
    (hlength : e.length = RECORD_BYTES - 8) (hset : true ∈ bits e) (hwindow : window.length ≤ 64)
    (hburst : bits e = List.replicate before false ++ window ++ List.replicate after false) :
    ∃ error, decode (corrupt bytes e) anchor' installation' = .error error := by
  have hsu : checksum (bytes.take (RECORD_BYTES - 8)) = wordAt bytes (RECORD_BYTES - 8) := by
    unfold decode at hvalid
    split at hvalid
    · cases hvalid
    · split at hvalid
      · cases hvalid
      · exact not_not.mp ‹_›
  have her : checksum e ≠ 0 := by
    intro hz
    rw [hburst] at hset
    refine Crc.foldl_feed_burst (g := generator) (by decide) hwindow (by simpa using hset) before
      after ?_
    rw [← hburst, ← checksum_toBitVec, hz]
    rfl
  have hb : (bytes.take (RECORD_BYTES - 8)).length = e.length := by
    rw [length_take, length_of_decode hvalid, hlength]
    rfl
  have hw : (List.zipWith (· ^^^ ·) (bytes.take (RECORD_BYTES - 8)) e).length =
      RECORD_BYTES - 8 := by
    rw [length_zipWith, hb, hlength, Nat.min_self]
  have hwo : wordAt (corrupt bytes e) (RECORD_BYTES - 8) = wordAt bytes (RECORD_BYTES - 8) := by
    simp only [corrupt, wordAt, slice, drop_left' hw]
  unfold decode
  split
  · exact ⟨_, rfl⟩
  split
  · exact ⟨_, rfl⟩
  rename_i hs
  rw [hwo, corrupt, take_left' hw, checksum_xor hb, ← hsu, not_not] at hs
  refine absurd ?_ her
  rw [← UInt64.zero_xor (a := checksum e), ← UInt64.xor_self, UInt64.xor_assoc, hs]

/-- One bit of the stored value is flipped; only the checksum can tell. -/
theorem decode_corrupt_error_value : ∃ bytes s error, decode bytes 1 1 = .ok s ∧
    decode (corrupt bytes (List.replicate 40 0 ++ 0x80 :: List.replicate 103 0)) 1 1 =
      .error error := by
  have hv := decode_encode
    (show encode 1 1 { revision := 1, value := 1, boot := 0, last := none } = .ok _ from rfl)
  have hb : bits (List.replicate 40 0 ++ 0x80 :: List.replicate 103 0) =
      List.replicate 320 false ++ [true] ++ List.replicate 831 false := by decide +kernel
  have hs : true ∈ bits (List.replicate 40 0 ++ 0x80 :: List.replicate 103 0) := by
    rw [hb]
    exact mem_append_left _ (mem_append_right _ mem_cons_self)
  obtain ⟨error, her⟩ :=
    decode_corrupt_error hv (by simp [RECORD_BYTES, WORDS]) hs (by simp) hb
  exact ⟨_, _, error, hv, her⟩

end Anka.Authority.FileBackend
