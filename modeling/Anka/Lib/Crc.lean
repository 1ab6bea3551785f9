import Mathlib.Data.List.Basic
import Mathlib.Logic.Function.Iterate

/-!
# Cyclic redundancy checks

A register of `w` bits is multiplied by `x` modulo the generator `x ^ w + g` once for every bit of a
message, most significant bit first, each bit added at the top. The register of a message is linear
in the message (`times_xor`), and when `g` has a constant term only 0 is multiplied to 0
(`times_ne_zero`). Together they say what a checksum of `w` bits is for: no error within `w`
consecutive bits has the register 0 (`foldl_feed_burst`).
-/

namespace Crc

open List

variable {w : Nat} {g : BitVec w}

/-- Multiplication by `x` modulo `x ^ w + g`. -/
def times (g s : BitVec w) : BitVec w := if s.msb then (s <<< 1) ^^^ g else s <<< 1

/-- One bit at the top. -/
def bit (b : Bool) : BitVec w := if b then BitVec.intMin w else 0#w

/-- One bit of the message. -/
def feed (g s : BitVec w) (b : Bool) : BitVec w := times g (s ^^^ bit b)

/-- Bits as the register that has them at its top. -/
def block : List Bool → BitVec w
  | [] => 0#w
  | b :: bits => bit b ^^^ (block bits >>> 1)

theorem times_xor (a b : BitVec w) : times g (a ^^^ b) = times g a ^^^ times g b := by
  simp only [times, BitVec.msb_xor, BitVec.shiftLeft_xor_distrib]
  have hs : ∀ x y : BitVec w, x ^^^ (g ^^^ y) = g ^^^ (x ^^^ y) := fun x y => by
    rw [← BitVec.xor_assoc, BitVec.xor_comm x, BitVec.xor_assoc]
  have hse : ∀ x : BitVec w, g ^^^ (g ^^^ x) = x := fun x => by
    rw [← BitVec.xor_assoc, BitVec.xor_self, BitVec.zero_xor]
  cases a.msb <;> cases b.msb <;> simp [BitVec.xor_assoc, BitVec.xor_comm _ g, hs, hse]

theorem iterate_times_xor (n : Nat) (a b : BitVec w) :
    (times g)^[n] (a ^^^ b) = (times g)^[n] a ^^^ (times g)^[n] b := by
  induction n generalizing a b with
  | zero => rfl
  | succ n ih => rw [Function.iterate_succ_apply, times_xor, ih]; rfl

variable {s : BitVec w} {bits : List Bool}

theorem times_ne_zero (hg : g.getLsbD 0 = true) (h : s ≠ 0#w) : times g s ≠ 0#w := by
  intro hz
  have hb : ∀ i, (times g s).getLsbD i = false := by simp [hz]
  cases hm : s.msb with
  | true =>
    have hlo := hb 0
    simp [times, hm, hg] at hlo
  | false =>
    simp only [times, hm, Bool.false_eq_true, if_false] at hb
    refine h (BitVec.eq_of_getLsbD_eq fun i hi => ?_)
    rw [BitVec.getLsbD_zero]
    by_cases hl : i + 1 < w
    · rw [BitVec.getLsbD_eq_getElem hi]
      simpa [hl] using hb (i + 1)
    · obtain rfl : i = w - 1 := by omega
      rwa [BitVec.msb_eq_getLsbD_last] at hm

theorem iterate_times_ne_zero (hg : g.getLsbD 0 = true) (n : Nat) (h : s ≠ 0#w) :
    (times g)^[n] s ≠ 0#w := by
  induction n generalizing s with
  | zero => exact h
  | succ n ih => exact ih (times_ne_zero hg h)

theorem getMsbD_block {i : Nat} :
    (block bits : BitVec w).getMsbD i = (decide (i < w) && bits.getD i false) := by
  induction bits generalizing i with
  | nil => simp [block]
  | cons b bits ih =>
    have hb : (bit b : BitVec w).getMsbD i = (decide (i < w) && (decide (i = 0) && b)) := by
      cases b <;> cases i <;> simp [bit, BitVec.getMsbD_intMin]
    rw [block, BitVec.getMsbD_xor, hb, BitVec.getMsbD_ushiftRight, ih]
    cases i with
    | zero => simp
    | succ i =>
      by_cases hi : i + 1 < w
      · simp [hi, Nat.lt_of_succ_lt hi]
      · simp [hi]

theorem block_ne_zero (hl : bits.length ≤ w) (h : true ∈ bits) : (block bits : BitVec w) ≠ 0#w := by
  intro hz
  obtain ⟨i, hi⟩ := List.getElem?_of_mem h
  have hlt := (List.getElem?_eq_some_iff.mp hi).1
  have hb := @getMsbD_block w bits i
  rw [hz] at hb
  simp [Nat.lt_of_lt_of_le hlt hl, getD_eq_getElem?_getD, hi] at hb

theorem times_block (h : bits.length < w) : times g (block bits >>> 1) = block bits := by
  have hm : (block bits >>> 1 : BitVec w).msb = false := by
    simp [BitVec.msb_ushiftRight]
  rw [times, hm]
  refine BitVec.eq_of_getMsbD_eq fun i hi => ?_
  rw [if_neg Bool.false_ne_true, BitVec.getMsbD_shiftLeft, BitVec.getMsbD_ushiftRight,
    getMsbD_block,
    getMsbD_block]
  by_cases hn : i + 1 < w
  · simp [hn]
  · have hno : bits[i]? = none := getElem?_eq_none (by omega)
    simp [hn, hno]

theorem foldl_feed (h : bits.length ≤ w) (s : BitVec w) :
    bits.foldl (feed g) s = (times g)^[bits.length] (s ^^^ block bits) := by
  induction bits generalizing s with
  | nil => simp [block]
  | cons b bits ih =>
    have hl : bits.length < w := h
    rw [foldl_cons, ih (Nat.le_of_lt hl), feed, ← times_block hl, ← times_xor, length_cons,
      Function.iterate_succ_apply, block, BitVec.xor_assoc]

theorem foldl_feed_false (n : Nat) (s : BitVec w) :
    (List.replicate n false).foldl (feed g) s = (times g)^[n] s := by
  induction n generalizing s with
  | zero => rfl
  | succ n ih =>
    have hf : feed g s false = times g s := by simp [feed, bit]
    rw [replicate_succ, foldl_cons, ih, hf, Function.iterate_succ_apply]

/-- **A burst is detected.** The set bits of a message lie within `w` consecutive positions; then
its register is not 0. -/
theorem foldl_feed_burst {wi : List Bool} (hg : g.getLsbD 0 = true) (hw : wi.length ≤ w)
    (hs : true ∈ wi) (b af : Nat) :
    (List.replicate b false ++ wi ++ List.replicate af false).foldl (feed g) 0#w ≠ 0#w := by
  rw [foldl_append, foldl_append, foldl_feed_false, foldl_feed_false, foldl_feed hw]
  refine iterate_times_ne_zero hg _ (iterate_times_ne_zero hg _ ?_)
  rw [Function.iterate_fixed (by simp [times]), BitVec.zero_xor]
  exact block_ne_zero hw hs

end Crc
