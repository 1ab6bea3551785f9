import Anka.Lib.Loops
import Anka.Lib.Words

/-!
# Readers

A reader takes a value from the front of a byte string and returns the rest, or fails. `Reads p w P`
says all there is to know about one: it accepts exactly the inputs that start with `w a` for a value
`a` in `P`, returns that `a` and the rest, and never panics. Both round trips of a format follow
from such a statement about its reader, and statements about the parts give the one about the whole:
`Reads.many` for a counted sequence, and for fields in a row the equations `readU32_eq_ok` and so on
after `bind_eq_ok`.
-/

namespace Rust

open Res List Option

variable {ε α : Type}

/-- `p` reads the values of `P` as `w` writes them. -/
structure Reads (p : List UInt8 → Res ε (α × List UInt8)) (w : α → List UInt8) (P : α → Prop) :
    Prop where
  eq_ok : ∀ {input rest : List UInt8} {a : α}, p input = ok (a, rest) ↔ P a ∧ input = w a ++ rest
  total : ∀ input, (p input).Avoids fun _ => False

/-! ## Bytes and words -/

/-- `read_bytes`: the next `n` bytes, or the error that says that there are fewer. -/
def readBytes (truncated : ε) (n : Nat) (r : List UInt8) : Res ε (List UInt8 × List UInt8) :=
  if r.length < n then err truncated else ok (r.take n, r.drop n)

variable {tr : ε} {n : Nat}

theorem readBytes_eq_ok {r b rest : List UInt8} :
    readBytes tr n r = ok (b, rest) ↔ b.length = n ∧ r = b ++ rest := by
  unfold readBytes
  split
  · rename_i hs
    simp only [reduceCtorEq, false_iff, not_and]
    rintro hl rfl
    rw [length_append] at hs
    omega
  · rename_i hlo
    simp only [ok.injEq, Prod.mk.injEq]
    constructor
    · rintro ⟨rfl, rfl⟩
      exact ⟨by rw [length_take]; omega, (take_append_drop n r).symm⟩
    · rintro ⟨hl, rfl⟩
      exact ⟨take_left' hl, drop_left' hl⟩

@[simp] theorem avoids_readBytes (r : List UInt8) :
    (readBytes tr n r).Avoids fun _ => False := by
  unfold readBytes
  split
  · exact id
  · trivial

/-- One byte. -/
def readU8 (truncated : ε) (r : List UInt8) : Res ε (UInt8 × List UInt8) := do
  let (b, r) ← readBytes truncated 1 r
  let b ← unwrap b[0]?
  return (b, r)

/-- A little-endian word of `n` bytes. -/
def readLe (truncated : ε) (n : Nat) (r : List UInt8) : Res ε (Nat × List UInt8) := do
  let (b, r) ← readBytes truncated n r
  return (ofLeBytes b, r)

/-- `read_u16_le`. -/
def readU16 (truncated : ε) (r : List UInt8) : Res ε (UInt16 × List UInt8) := do
  let (w, r) ← readLe truncated 2 r
  return (UInt16.ofNat w, r)

/-- `read_u32_le`. -/
def readU32 (truncated : ε) (r : List UInt8) : Res ε (UInt32 × List UInt8) := do
  let (w, r) ← readLe truncated 4 r
  return (UInt32.ofNat w, r)

/-- `read_u64_le`. -/
def readU64 (truncated : ε) (r : List UInt8) : Res ε (UInt64 × List UInt8) := do
  let (w, r) ← readLe truncated 8 r
  return (UInt64.ofNat w, r)

variable {tr : ε} {r rest : List UInt8}

theorem readU8_eq_ok {b : UInt8} : readU8 tr r = ok (b, rest) ↔ r = b :: rest := by
  simp only [readU8, eq_ok, readBytes_eq_ok]
  constructor
  · rintro ⟨byt, _, ⟨hl, rfl⟩, _, hb, rfl, rfl⟩
    obtain ⟨x, rfl⟩ := length_eq_one_iff.mp hl
    obtain rfl : x = _ := by simpa using hb
    rfl
  · rintro rfl
    exact ⟨[b], rest, ⟨rfl, rfl⟩, b, rfl, rfl, rfl⟩

theorem readLe_eq_ok {n w : Nat} :
    readLe tr n r = ok (w, rest) ↔ w < 256 ^ n ∧ r = leBytes n w ++ rest := by
  simp only [readLe, eq_ok, readBytes_eq_ok]
  constructor
  · rintro ⟨bytes, _, ⟨rfl, rfl⟩, rfl, rfl⟩
    exact ⟨ofLeBytes_lt bytes, by rw [leBytes_ofLeBytes]⟩
  · rintro ⟨hl, rfl⟩
    exact ⟨leBytes n w, rest, ⟨length_leBytes n w, rfl⟩, ofLeBytes_leBytes hl, rfl⟩

theorem readU16_eq_ok {w : UInt16} :
    readU16 tr r = ok (w, rest) ↔ r = leBytes 2 w.toNat ++ rest := by
  simp only [readU16, eq_ok, readLe_eq_ok]
  constructor
  · rintro ⟨n, _, ⟨hl, rfl⟩, rfl, rfl⟩
    rw [UInt16.toNat_ofNat_of_lt' hl]
  · rintro rfl
    exact ⟨w.toNat, rest, ⟨w.toNat_lt, rfl⟩, UInt16.ofNat_toNat, rfl⟩

theorem readU32_eq_ok {w : UInt32} :
    readU32 tr r = ok (w, rest) ↔ r = leBytes 4 w.toNat ++ rest := by
  simp only [readU32, eq_ok, readLe_eq_ok]
  constructor
  · rintro ⟨n, _, ⟨hl, rfl⟩, rfl, rfl⟩
    rw [UInt32.toNat_ofNat_of_lt' hl]
  · rintro rfl
    exact ⟨w.toNat, rest, ⟨w.toNat_lt, rfl⟩, UInt32.ofNat_toNat, rfl⟩

theorem readU64_eq_ok {w : UInt64} :
    readU64 tr r = ok (w, rest) ↔ r = leBytes 8 w.toNat ++ rest := by
  simp only [readU64, eq_ok, readLe_eq_ok]
  constructor
  · rintro ⟨n, _, ⟨hl, rfl⟩, rfl, rfl⟩
    rw [UInt64.toNat_ofNat_of_lt' hl]
  · rintro rfl
    exact ⟨w.toNat, rest, ⟨w.toNat_lt, rfl⟩, UInt64.ofNat_toNat, rfl⟩

@[simp] theorem avoids_readU8 : (readU8 tr r).Avoids fun _ => False := by
  simp only [readU8, avoids_iff, avoids_readBytes, Prod.forall, readBytes_eq_ok]
  rintro b rest ⟨hl, -⟩
  obtain ⟨x, rfl⟩ := length_eq_one_iff.mp hl
  rfl

@[simp] theorem avoids_readU16 : (readU16 tr r).Avoids fun _ => False := by
  simp [readU16, readLe]

@[simp] theorem avoids_readU32 : (readU32 tr r).Avoids fun _ => False := by
  simp [readU32, readLe]

@[simp] theorem avoids_readU64 : (readU64 tr r).Avoids fun _ => False := by
  simp [readU64, readLe]

/-! ## Text -/

/-- `s.as_bytes()`. -/
def asBytes (s : String) : List UInt8 := s.toByteArray.data.toList

/-- `String::from_utf8`. -/
def fromUtf8 (bytes : List UInt8) : Option String := String.fromUTF8? ⟨bytes.toArray⟩

theorem fromUtf8_eq_some {b : List UInt8} {s : String} : fromUtf8 b = some s ↔ b = asBytes s := by
  unfold fromUtf8 String.fromUTF8? asBytes
  split
  · rename_i hv
    rw [some.injEq, ← String.toByteArray_inj]
    constructor
    · intro h
      rw [← h]
      rfl
    · rintro rfl
      rfl
  · rename_i hi
    simp only [reduceCtorEq, false_iff]
    rintro rfl
    exact hi s.isValidUTF8

theorem asBytes_inj {s t : String} (h : asBytes s = asBytes t) : s = t :=
  Option.some.inj ((fromUtf8_eq_some.mpr rfl).symm.trans (fromUtf8_eq_some.mpr h))

/-! ## Sequences -/

/-- `for _ in 0..n`: `n` values in a row. -/
def readMany (p : List UInt8 → Res ε (α × List UInt8)) :
    Nat → List UInt8 → Res ε (List α × List UInt8)
  | 0, r => ok ([], r)
  | n + 1, r => do
    let (a, r) ← p r
    let (rest, r) ← readMany p n r
    return (a :: rest, r)

theorem Reads.many {p : List UInt8 → Res ε (α × List UInt8)} {w : α → List UInt8} {P : α → Prop}
    (h : Reads p w P) (n : Nat) :
    Reads (readMany p n) (fun as => as.flatMap w) fun as => as.length = n ∧ ∀ a ∈ as, P a := by
  induction n with
  | zero =>
    refine ⟨fun {input rest as} => ?_, fun _ => by simp [readMany]⟩
    simp only [readMany, ok.injEq, Prod.mk.injEq]
    constructor
    · rintro ⟨rfl, rfl⟩
      simp
    · rintro ⟨⟨hl, -⟩, rfl⟩
      obtain rfl := length_eq_zero_iff.mp hl
      exact ⟨rfl, rfl⟩
  | succ n ih =>
    constructor
    · intro input rest as
      simp only [readMany, bind_eq_ok, Prod.exists, h.eq_ok, ih.eq_ok, pure_eq_ok, Prod.mk.injEq]
      constructor
      · rintro ⟨a, _, ⟨ha, rfl⟩, as, _, ⟨⟨hl, has⟩, rfl⟩, rfl, rfl⟩
        refine ⟨⟨by rw [length_cons, hl], ?_⟩, by simp⟩
        simpa using ⟨ha, has⟩
      · rintro ⟨⟨hl, has⟩, rfl⟩
        obtain ⟨a, as, rfl⟩ := exists_cons_of_length_eq_add_one hl
        rw [forall_mem_cons] at has
        refine ⟨a, as.flatMap w ++ rest, ⟨has.1, by simp⟩, as, rest, ⟨⟨?_, has.2⟩, rfl⟩, rfl, rfl⟩
        simpa using hl
    · intro input
      simp only [readMany, avoids_bind, avoids_pure, h.total, ih.total, implies_true, and_self]

end Rust
