import Anka.Lib.Bytes
import Mathlib.Algebra.Order.Ring.Nat
import Mathlib.Tactic.Ring

/-!
# Little-endian words

A record of fixed width is a sequence of 64-bit words. `wordAt` reads one at a byte offset, and
`packWords` is the bytes of a list of them.

* `ofLeBytes_leBytes`, `leBytes_ofLeBytes`: the two round trips of one word of any width.
* `packWords_unpackWords`: the same for a sequence of words. A byte string of the right length
  therefore is its words.
* `wordAt_packWords`: reading inside a packed record.
-/

namespace Rust

open List Option

/-! ## One word -/

theorem ofLeBytes_lt (bytes : List UInt8) : ofLeBytes bytes < 256 ^ bytes.length := by
  induction bytes with
  | nil => simp [ofLeBytes]
  | cons b bytes ih =>
    have hb : b.toNat < 256 := b.toNat_lt
    simp only [ofLeBytes, foldr_cons, length_cons, pow_succ] at ih ⊢
    omega

theorem leBytes_succ (n word : Nat) :
    leBytes (n + 1) word = UInt8.ofNat word :: leBytes n (word / 256) := by
  simp only [leBytes, List.range_succ_eq_map, List.map_cons, List.map_map, pow_zero, Nat.div_one,
    List.cons.injEq, true_and]
  refine List.map_congr_left fun i _ => ?_
  simp only [Function.comp, Nat.div_div_eq_div_mul, pow_succ, Nat.mul_comm]

theorem ofLeBytes_leBytes {n word : Nat} (h : word < 256 ^ n) :
    ofLeBytes (leBytes n word) = word := by
  induction n generalizing word with
  | zero =>
    have hz : word = 0 := by simpa using h
    simp [leBytes, ofLeBytes, hz]
  | succ n ih =>
    have hd : word / 256 < 256 ^ n := Nat.div_lt_of_lt_mul (by rwa [pow_succ, Nat.mul_comm] at h)
    have hr := ih hd
    rw [leBytes_succ]
    simp only [ofLeBytes, foldr_cons] at hr ⊢
    rw [hr, UInt8.toNat_ofNat']
    omega

theorem leBytes_inj {n v w : Nat} (hv : v < 256 ^ n) (hw : w < 256 ^ n)
    (h : leBytes n v = leBytes n w) : v = w := by
  rw [← ofLeBytes_leBytes hv, h, ofLeBytes_leBytes hw]

theorem leBytes_ofLeBytes (bytes : List UInt8) :
    leBytes bytes.length (ofLeBytes bytes) = bytes := by
  induction bytes with
  | nil => rfl
  | cons b bytes ih =>
    have hb : b.toNat < 256 := b.toNat_lt
    have hc : ofLeBytes (b :: bytes) = b.toNat + 256 * ofLeBytes bytes := rfl
    rw [length_cons, leBytes_succ, hc]
    congr 1
    · apply UInt8.toNat_inj.mp
      rw [UInt8.toNat_ofNat']
      omega
    · have hd : (b.toNat + 256 * ofLeBytes bytes) / 256 = ofLeBytes bytes := by omega
      rw [hd, ih]

theorem ofLeBytes_append (a b : List UInt8) :
    ofLeBytes (a ++ b) = ofLeBytes a + 256 ^ a.length * ofLeBytes b := by
  induction a with
  | nil => simp [ofLeBytes]
  | cons x a ih =>
    have hc : ∀ l : List UInt8, ofLeBytes (x :: l) = x.toNat + 256 * ofLeBytes l := fun _ => rfl
    rw [cons_append, hc, hc, ih, length_cons, pow_succ]
    ring

/-! ## Words of 64 bits -/

/-- `w.to_le_bytes()`. -/
def wordBytes (w : UInt64) : List UInt8 := leBytes 8 w.toNat

/-- `u64::from_le_bytes(bytes[offset..offset + 8])`. -/
def wordAt (bytes : List UInt8) (offset : Nat) : UInt64 :=
  UInt64.ofNat (ofLeBytes (slice bytes offset 8))

/-- The bytes of a sequence of words. -/
def packWords (ws : List UInt64) : List UInt8 := ws.flatMap wordBytes

/-- The first `n` words of a byte string. -/
def unpackWords (n : Nat) (bytes : List UInt8) : List UInt64 :=
  (List.range n).map fun i => wordAt bytes (8 * i)

@[simp] theorem length_wordBytes (w : UInt64) : (wordBytes w).length = 8 := length_leBytes _ _

theorem ofNat_ofLeBytes_wordBytes (w : UInt64) : UInt64.ofNat (ofLeBytes (wordBytes w)) = w := by
  rw [wordBytes, ofLeBytes_leBytes (Nat.lt_of_lt_of_eq w.toNat_lt (by decide)), UInt64.ofNat_toNat]

variable {bytes : List UInt8} {a b : List UInt8} {offset : Nat}

theorem wordBytes_ofNat_ofLeBytes (h : bytes.length = 8) :
    wordBytes (UInt64.ofNat (ofLeBytes bytes)) = bytes := by
  have hl : ofLeBytes bytes < 2 ^ 64 := by
    have := ofLeBytes_lt bytes
    rw [h] at this
    exact Nat.lt_of_lt_of_eq this (by decide)
  rw [wordBytes, UInt64.toNat_ofNat_of_lt' hl, ← h, leBytes_ofLeBytes]

@[simp] theorem packWords_nil : packWords [] = [] := rfl

@[simp] theorem packWords_cons (w : UInt64) (ws : List UInt64) :
    packWords (w :: ws) = wordBytes w ++ packWords ws := rfl

@[simp] theorem length_packWords (ws : List UInt64) : (packWords ws).length = 8 * ws.length := by
  induction ws with
  | nil => rfl
  | cons w ws ih =>
    rw [packWords_cons, length_append, length_wordBytes, ih, length_cons]
    omega

theorem wordAt_append_left (h : offset + 8 ≤ a.length) :
    wordAt (a ++ b) offset = wordAt a offset := by
  rw [wordAt, wordAt, slice, slice, drop_append_of_le_length (by omega),
    take_append_of_le_length (by rw [length_drop]; omega)]

theorem wordAt_append_right : wordAt (a ++ b) (a.length + offset) = wordAt b offset := by
  rw [wordAt, wordAt, slice, slice, drop_append, drop_of_length_le (by omega),
    nil_append, Nat.add_sub_cancel_left]

theorem wordAt_wordBytes (w : UInt64) (rest : List UInt8) : wordAt (wordBytes w ++ rest) 0 = w := by
  rw [wordAt_append_left (by simp), wordAt, slice, drop_zero,
    take_of_length_le (by simp), ofNat_ofLeBytes_wordBytes]

theorem wordAt_packWords {ws : List UInt64} {i : Nat} {w : UInt64} (h : ws[i]? = some w) :
    wordAt (packWords ws) (8 * i) = w := by
  induction ws generalizing i with
  | nil => simp at h
  | cons v ws ih =>
    cases i with
    | zero =>
      rw [getElem?_cons_zero, some.injEq] at h
      rw [packWords_cons, Nat.mul_zero, h, wordAt_wordBytes]
    | succ i =>
      rw [getElem?_cons_succ] at h
      have ho : 8 * (i + 1) = (wordBytes v).length + 8 * i := by
        rw [length_wordBytes]
        omega
      rw [packWords_cons, ho, wordAt_append_right, ih h]

theorem unpackWords_succ (n : Nat) (bytes : List UInt8) :
    unpackWords (n + 1) bytes = wordAt bytes 0 :: unpackWords n (bytes.drop 8) := by
  simp only [unpackWords, List.range_succ_eq_map, List.map_cons, List.map_map, Nat.mul_zero,
    List.cons.injEq, true_and]
  refine List.map_congr_left fun i _ => ?_
  simp only [Function.comp, wordAt, slice, drop_drop]
  congr 4
  omega

theorem packWords_unpackWords {n : Nat} (h : bytes.length = 8 * n) :
    packWords (unpackWords n bytes) = bytes := by
  induction n generalizing bytes with
  | zero =>
    have hn : bytes = [] := length_eq_zero_iff.mp (by omega)
    simp [hn, unpackWords]
  | succ n ih =>
    rw [unpackWords_succ, packWords_cons, ih (by rw [length_drop]; omega), wordAt, slice,
      drop_zero, wordBytes_ofNat_ofLeBytes (by rw [length_take]; omega),
      take_append_drop]

/-! ## Masks -/

theorem and_high_mask {n k v : Nat} (h : v < 2 ^ (n + k)) :
    v &&& (2 ^ n - 1) * 2 ^ k = v / 2 ^ k * 2 ^ k := by
  have hl : v / 2 ^ k < 2 ^ n := Nat.div_lt_of_lt_mul (by rwa [← pow_add, Nat.add_comm k n])
  calc v &&& (2 ^ n - 1) * 2 ^ k
      = (v / 2 ^ k &&& (2 ^ n - 1)) * 2 ^ k := by
        refine Nat.eq_of_testBit_eq fun i => ?_
        simp only [Nat.testBit_and, Nat.testBit_mul_two_pow, Nat.testBit_div_two_pow]
        by_cases hi : k ≤ i
        · simp [hi]
        · simp [hi]
    _ = v / 2 ^ k * 2 ^ k := by rw [Nat.and_two_pow_sub_one_of_lt_two_pow hl]

/-! ## Counters -/

/-- `u64::checked_add(1)`. -/
def checkedSucc (w : UInt64) : Option UInt64 := if w.toNat + 1 < 2 ^ 64 then some (w + 1) else none

theorem checkedSucc_eq_some {w v : UInt64} : checkedSucc w = some v ↔ v.toNat = w.toNat + 1 := by
  unfold checkedSucc
  have hv := v.toNat_lt
  split
  · rename_i hl
    rw [some.injEq, ← UInt64.toNat_inj, UInt64.toNat_add, UInt64.toNat_one, Nat.mod_eq_of_lt hl]
    exact eq_comm
  · simp only [reduceCtorEq, false_iff]
    omega

end Rust
