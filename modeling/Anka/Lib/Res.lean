import Mathlib.Algebra.GroupWithZero.Nat
import Mathlib.Logic.Basic

/-!
# Outcomes of Rust calls

A call of a Rust function ends in a value, in an error value, or in a panic. `Res ε α` is the
monad of the three; `?`, `ok_or`, `unwrap`, `assert!` and the checks that return early are its
operations. The `…_eq_ok` lemmas take a successful chain apart into the facts its checks
established, and `Avoids bad` says that a call neither panics nor returns an error in `bad`; its
lemmas reduce that to one condition per check of the chain.

Machine integers are natural numbers here and the width is in the operations: `checkedAdd` is
`u64::checked_add`, `plus` and `minus` are the bare `+` and `-`, which panic out of range (a
release build would wrap there, so a proof that they do not panic excludes that too). `usize` is
64 bits wide, so the conversions between `usize` and `u64` are exact.
-/

namespace Rust

/-- How a call ends: with a value, with an error, or in a panic. -/
inductive Res (ε α : Type) where
  | ok (a : α)
  | err (e : ε)
  | panic
  deriving DecidableEq

namespace Res

variable {ε α β : Type} {c : Prop} {ε' : Type}

/-- Sequencing: an error or a panic ends the call. -/
protected def bind (x : Res ε α) (f : α → Res ε β) : Res ε β :=
  match x with
  | ok a => f a
  | err e => err e
  | panic => panic

instance : Monad (Res ε) where
  pure := ok
  bind := Res.bind

instance : LawfulMonad (Res ε) :=
  LawfulMonad.mk' (Res ε) (fun x => by cases x <;> rfl) (fun _ _ => rfl)
    (fun x _ _ => by cases x <;> rfl)

/-- An early `return Err(e)` unless the condition holds. -/
def require (c : Prop) [Decidable c] (e : ε) : Res ε Unit := if c then ok () else err e

/-- `assert!` and the conditions under which an index or slice expression does not panic. -/
def check (c : Prop) [Decidable c] : Res ε Unit := if c then ok () else panic

/-- `Option::ok_or`. -/
def okOr (o : Option α) (e : ε) : Res ε α :=
  match o with
  | some a => ok a
  | none => err e

/-- `unwrap` and `expect`. -/
def unwrap (o : Option α) : Res ε α :=
  match o with
  | some a => ok a
  | none => panic

/-- `Result::map_err`. -/
def mapErr {ε' : Type} (x : Res ε α) (f : ε → ε') : Res ε' α :=
  match x with
  | ok a => ok a
  | err e => err (f e)
  | panic => panic

/-- `expect` on a `Result`. -/
def expectOk {ε' : Type} (x : Res ε α) : Res ε' α :=
  match x with
  | ok a => ok a
  | _ => panic

/-- `Result::is_ok_and`. -/
def isOkAnd (x : Res ε α) (p : α → Bool) : Bool :=
  match x with
  | ok a => p a
  | _ => false

/-! ## The successful chain -/

variable {x : Res ε α} {f : α → Res ε β} {a : α} {o : Option α} {e : ε} {g : ε → ε'}
  {P : α → Prop}

@[simp] theorem pure_eq (a : α) : (pure a : Res ε α) = ok a := rfl

theorem pure_eq_ok {a b : α} : (pure a : Res ε α) = ok b ↔ a = b := by simp

@[simp] theorem ok_bind (a : α) (f : α → Res ε β) : (ok a >>= f) = f a := rfl

@[simp] theorem err_bind (e : ε) (f : α → Res ε β) : (err e >>= f) = err e := rfl

@[simp] theorem panic_bind (f : α → Res ε β) : ((panic : Res ε α) >>= f) = panic := rfl

@[simp] theorem bind_eq_ok {b : β} : (x >>= f) = ok b ↔ ∃ a, x = ok a ∧ f a = ok b := by
  cases x <;> simp

theorem bind_ne_ok {b : β} (h : ∀ a, x ≠ ok a) : (x >>= f) ≠ ok b := by
  rw [ne_eq, bind_eq_ok]
  rintro ⟨a, ha, -⟩
  exact h a ha

@[simp] theorem require_eq_ok [Decidable c] {u : Unit} : require c e = ok u ↔ c := by
  unfold require
  split <;> simp_all

@[simp] theorem check_eq_ok [Decidable c] {u : Unit} : (check c : Res ε Unit) = ok u ↔ c := by
  unfold check
  split <;> simp_all

@[simp] theorem okOr_eq_ok : okOr o e = ok a ↔ o = some a := by
  cases o <;> simp [okOr]

@[simp] theorem unwrap_eq_ok : (unwrap o : Res ε α) = ok a ↔ o = some a := by
  cases o <;> simp [unwrap]

@[simp] theorem mapErr_eq_ok : mapErr x g = ok a ↔ x = ok a := by
  cases x <;> simp [mapErr]

@[simp] theorem expectOk_eq_ok : (expectOk x : Res ε' α) = ok a ↔ x = ok a := by
  cases x <;> simp [expectOk]

theorem bind_congr {f g : α → Res ε β} (h : ∀ a, x = ok a → f a = g a) :
    (x >>= f) = (x >>= g) := by
  cases x with
  | ok a => exact h a rfl
  | err e => rfl
  | panic => rfl

theorem mapErr_bind (x : Res ε α) (f : α → Res ε β) (g : ε → ε') :
    mapErr (x >>= f) g = mapErr x g >>= fun a => mapErr (f a) g := by
  cases x <;> rfl

theorem mapErr_ok (a : α) (g : ε → ε') : mapErr (ok a : Res ε α) g = ok a := rfl

/-! ## The chain that ends in an error -/

@[simp] theorem bind_eq_err : (x >>= f) = err e ↔ x = err e ∨ ∃ a, x = ok a ∧ f a = err e := by
  cases x <;> simp

@[simp] theorem require_eq_err [Decidable c] {e e' : ε} : require c e = err e' ↔ ¬ c ∧ e = e' := by
  unfold require
  split <;> simp_all

@[simp] theorem check_ne_err [Decidable c] : (check c : Res ε Unit) ≠ err e := by
  unfold check
  split <;> simp

@[simp] theorem okOr_eq_err {e e' : ε} : okOr o e = err e' ↔ o = none ∧ e = e' := by
  cases o <;> simp [okOr]

@[simp] theorem unwrap_ne_err : (unwrap o : Res ε α) ≠ err e := by
  cases o <;> simp [unwrap]

@[simp] theorem mapErr_eq_err {e : ε'} : mapErr x g = err e ↔ ∃ e0, x = err e0 ∧ g e0 = e := by
  cases x <;> simp [mapErr]

@[simp] theorem expectOk_ne_err {e : ε'} : (expectOk x : Res ε' α) ≠ err e := by
  cases x <;> simp [expectOk]

theorem isOkAnd_eq_true {p : α → Bool} : x.isOkAnd p = true ↔ ∃ a, x = ok a ∧ p a = true := by
  cases x <;> simp [isOkAnd]

/-! ## What every result satisfies -/

/-- Every value the call can end with satisfies `P`. -/
def Yields (x : Res ε α) (P : α → Prop) : Prop := ∀ a, x = ok a → P a

theorem yields_ok (h : P a) : (ok a : Res ε α).Yields P :=
  fun _ hb => ok.inj hb ▸ h

theorem yields_err (e : ε) : (err e : Res ε α).Yields P := fun _ h => by cases h

theorem yields_panic : (panic : Res ε α).Yields P := fun _ h => by cases h

theorem Yields.bind {Q : β → Prop} (hx : x.Yields P) (hf : ∀ a, P a → (f a).Yields Q) :
    (x >>= f).Yields Q := by
  intro b hb
  obtain ⟨a, ha, hfa⟩ := bind_eq_ok.mp hb
  exact hf a (hx a ha) b hfa

theorem yields_seq {Q : β → Prop} (hf : ∀ a, (f a).Yields Q) : (x >>= f).Yields Q :=
  Yields.bind (P := fun _ => True) (fun _ _ => trivial) fun a _ => hf a

/-- Every error the call can end with satisfies `P`. -/
def Raises (x : Res ε α) (P : ε → Prop) : Prop := ∀ e, x = err e → P e

theorem raises_err {P : ε → Prop} (h : P e) : (err e : Res ε α).Raises P :=
  fun _ he => err.inj he ▸ h

theorem raises_of_ne_err {P : ε → Prop} (h : ∀ e, x ≠ err e) : x.Raises P :=
  fun e he => absurd he (h e)

theorem Raises.bind {P : ε → Prop} (hx : x.Raises P) (hf : ∀ a, x = ok a → (f a).Raises P) :
    (x >>= f).Raises P := by
  intro e he
  rcases bind_eq_err.mp he with hxe | ⟨a, ha, hfe⟩
  · exact hx e hxe
  · exact hf a ha e hfe

theorem raises_mapErr {P : ε' → Prop} (h : x.Raises fun e => P (g e)) : (mapErr x g).Raises P := by
  intro e he
  obtain ⟨e0, he0, rfl⟩ := mapErr_eq_err.mp he
  exact h e0 he0

theorem Raises.mono {P Q : ε → Prop} (h : x.Raises P) (hPQ : ∀ e, P e → Q e) :
    x.Raises Q := fun e he => hPQ e (h e he)

/-! ## How a call ends -/

/-- A value the call ends with satisfies `P`, an error `Q`. -/
def Ends (P : α → Prop) (Q : ε → Prop) : Res ε α → Prop
  | ok a => P a
  | err e => Q e
  | panic => True

variable {Q : ε → Prop}

theorem ends_of (hP : ∀ a, x = ok a → P a) (hQ : ∀ e, x = err e → Q e) : x.Ends P Q := by
  cases x with
  | ok a => exact hP a rfl
  | err e => exact hQ e rfl
  | panic => trivial

theorem Ends.ok (h : x.Ends P Q) (hx : x = ok a) : P a := by
  subst hx
  exact h

theorem Ends.err (h : x.Ends P Q) (hx : x = err e) : Q e := by
  subst hx
  exact h

theorem ends_iff :
    (∀ {ε α β} {P : β → Prop} {Q : ε → Prop} {x : Res ε α} {f : α → Res ε β},
      (x >>= f).Ends P Q ↔ x.Ends (fun a => (f a).Ends P Q) Q) ∧
    (∀ {ε α} {P : α → Prop} {Q : ε → Prop} {a : α}, (pure a : Res ε α).Ends P Q ↔ P a) ∧
    (∀ {ε} {P : Unit → Prop} {Q : ε → Prop} {c} [Decidable c] {e : ε},
      (require c e).Ends P Q ↔ (¬ c → Q e) ∧ (c → P ())) ∧
    (∀ {ε} {P : Unit → Prop} {Q : ε → Prop} {c} [Decidable c], (check c).Ends P Q ↔ (c → P ())) ∧
    (∀ {ε α} {P : α → Prop} {Q : ε → Prop} {o : Option α} {e : ε},
      (okOr o e).Ends P Q ↔ (o = none → Q e) ∧ ∀ a, o = some a → P a) ∧
    (∀ {ε α} {P : α → Prop} {Q : ε → Prop} {o : Option α},
      (unwrap o).Ends P Q ↔ ∀ a, o = some a → P a) ∧
    ∀ {ε ε' α} {P : α → Prop} {Q : ε' → Prop} {x : Res ε α} {g : ε → ε'},
      (mapErr x g).Ends P Q ↔ x.Ends P fun e => Q (g e) := by
  refine ⟨?_, Iff.rfl, ?_, ?_, ?_, ?_, ?_⟩
  · intro _ _ _ _ _ x _
    cases x <;> rfl
  · intro _ _ _ c _ _
    by_cases hc : c <;> simp [require, hc, Ends]
  · intro _ _ _ c _
    by_cases hc : c <;> simp [check, hc, Ends]
  · intro _ _ _ _ o _
    cases o <;> simp [okOr, Ends]
  · intro _ _ _ _ o
    cases o <;> simp [unwrap, Ends]
  · intro _ _ _ _ _ x _
    cases x <;> rfl

/-! ## Calls that avoid an error -/

/-- The call does not panic and returns no error in `bad`. -/
def Avoids (bad : ε → Prop) (x : Res ε α) : Prop :=
  match x with
  | ok _ => True
  | err e => ¬ bad e
  | panic => False

variable {bad : ε → Prop}

@[simp] theorem avoids_ok (a : α) : (ok a : Res ε α).Avoids bad := trivial

@[simp] theorem avoids_pure (a : α) : (pure a : Res ε α).Avoids bad := trivial

@[simp] theorem avoids_bind :
    (x >>= f).Avoids bad ↔ x.Avoids bad ∧ ∀ a, x = ok a → (f a).Avoids bad := by
  cases x with
  | ok a =>
    rw [ok_bind]
    refine ⟨fun h => ⟨trivial, fun b hb => ok.inj hb ▸ h⟩, fun h => h.2 a rfl⟩
  | err e => exact ⟨fun h => ⟨h, nofun⟩, fun h => h.1⟩
  | panic => exact ⟨fun h => ⟨h, nofun⟩, fun h => h.1⟩

@[simp] theorem avoids_require [Decidable c] : (require c e).Avoids bad ↔ (bad e → c) := by
  unfold require
  split
  · rename_i hc
    exact ⟨fun _ _ => hc, fun _ => trivial⟩
  · rename_i hc
    exact ⟨fun h he => absurd he h, fun h he => hc (h he)⟩

@[simp] theorem avoids_check [Decidable c] : (check c : Res ε Unit).Avoids bad ↔ c := by
  unfold check
  split
  · exact ⟨fun _ => ‹c›, fun _ => trivial⟩
  · exact ⟨False.elim, ‹¬ c›⟩

@[simp] theorem avoids_okOr : (okOr o e).Avoids bad ↔ (bad e → o.isSome = true) := by
  cases o with
  | none => exact ⟨fun h he => absurd he h, fun h he => absurd (h he) (by simp)⟩
  | some a => exact ⟨fun _ _ => rfl, fun _ => trivial⟩

@[simp] theorem avoids_unwrap : (unwrap o : Res ε α).Avoids bad ↔ o.isSome = true := by
  cases o with
  | none => exact ⟨False.elim, fun h => absurd h (by simp)⟩
  | some a => exact ⟨fun _ => rfl, fun _ => trivial⟩

@[simp] theorem avoids_mapErr {bad' : ε' → Prop} :
    (mapErr x g).Avoids bad' ↔ x.Avoids fun e => bad' (g e) := by
  cases x <;> exact Iff.rfl

theorem Avoids.map {f : α → β} (h : x.Avoids bad) : (x >>= fun a => pure (f a)).Avoids bad :=
  avoids_bind.mpr ⟨h, fun _ _ => avoids_pure _⟩

theorem Avoids.mono {bad' : ε → Prop} (h : x.Avoids bad) (hb : ∀ e, bad' e → bad e) :
    x.Avoids bad' := by
  cases x with
  | ok a => trivial
  | err e => exact fun he => h (hb e he)
  | panic => exact h

theorem Avoids.not_panic (h : x.Avoids bad) : x ≠ panic := by
  rintro rfl
  exact h

theorem Avoids.exists_ok (h : x.Avoids fun _ => True) : ∃ a, x = ok a := by
  cases x with
  | ok a => exact ⟨a, rfl⟩
  | err e => exact absurd trivial h
  | panic => exact h.elim

theorem Avoids.not_err (h : x.Avoids bad) (he : x = err e) : ¬ bad e := by
  subst he
  exact h

end Res

/-! ## Machine integers -/

/-- `u64::MAX`. -/
def u64Max : Nat := 2 ^ 64 - 1

/-- `u32::MAX`. -/
def u32Max : Nat := 2 ^ 32 - 1

/-- `i64::MAX as u64`. -/
def i64Max : Nat := 2 ^ 63 - 1

/-- On `u64`. -/
def checkedAdd (a b : Nat) : Option Nat := if a + b ≤ u64Max then some (a + b) else none

/-- On `u64`, with an `i64`. -/
def checkedAddSigned (a : Nat) (d : Int) : Option Nat :=
  if 0 ≤ (a : Int) + d ∧ (a : Int) + d ≤ u64Max then some ((a : Int) + d).toNat else none

/-- On `u64`. -/
def checkedSub (a b : Nat) : Option Nat := if b ≤ a then some (a - b) else none

/-- On `u64`. -/
def checkedMul (a b : Nat) : Option Nat := if a * b ≤ u64Max then some (a * b) else none

/-- On `u64`. -/
def wrappingAdd (a b : Nat) : Nat := (a + b) % 2 ^ 64

/-- `n as i64`. -/
def asI64 (n : Nat) : Int := (BitVec.ofNat 64 n).toInt

/-- `i as u64`. -/
def asU64 (i : Int) : Nat := (BitVec.ofInt 64 i).toNat

/-- On `u64`. -/
def saturatingAdd (a b : Nat) : Nat := min (a + b) u64Max

/-- `+` on `u64`. -/
def plus {ε : Type} (a b : Nat) : Res ε Nat := .unwrap (checkedAdd a b)

/-- `-` on `u64`. -/
def minus {ε : Type} (a b : Nat) : Res ε Nat := .unwrap (checkedSub a b)

variable {ε : Type} {bad : ε → Prop} {a b c : Nat}

theorem checkedAdd_eq_some : checkedAdd a b = some c ↔ a + b ≤ u64Max ∧ a + b = c := by
  unfold checkedAdd
  split <;> simp <;> omega

theorem checkedAdd_eq_none : checkedAdd a b = none ↔ u64Max < a + b := by
  unfold checkedAdd
  split <;> simp <;> omega

theorem checkedSub_eq_some : checkedSub a b = some c ↔ b ≤ a ∧ a - b = c := by
  unfold checkedSub
  split <;> simp <;> omega

theorem checkedMul_eq_some : checkedMul a b = some c ↔ a * b ≤ u64Max ∧ a * b = c := by
  unfold checkedMul
  split <;> simp <;> omega

@[simp] theorem plus_eq_ok : (plus a b : Res ε Nat) = .ok c ↔ a + b ≤ u64Max ∧ a + b = c := by
  rw [plus, Res.unwrap_eq_ok, checkedAdd_eq_some]

@[simp] theorem minus_eq_ok : (minus a b : Res ε Nat) = .ok c ↔ b ≤ a ∧ a - b = c := by
  rw [minus, Res.unwrap_eq_ok, checkedSub_eq_some]

@[simp] theorem avoids_plus : (plus a b : Res ε Nat).Avoids bad ↔ a + b ≤ u64Max := by
  rw [plus, Res.avoids_unwrap, Option.isSome_iff_ne_none, Ne, checkedAdd_eq_none]
  omega

@[simp] theorem avoids_minus : (minus a b : Res ε Nat).Avoids bad ↔ b ≤ a := by
  rw [minus, Res.avoids_unwrap]
  unfold checkedSub
  split <;> simp <;> omega

/-! ## The rules as two sets -/

namespace Res

theorem eq_ok :
    (∀ {ε α β} {x : Res ε α} {f : α → Res ε β} {b : β},
      (x >>= f) = ok b ↔ ∃ a, x = ok a ∧ f a = ok b) ∧
    (∀ {p : Unit → Prop}, (∃ u, p u) ↔ p ()) ∧
    (∀ {α β : Type} {p : α × β → Prop}, (∃ x, p x) ↔ ∃ a b, p (a, b)) ∧
    (∀ {ε α} {a b : α}, (pure a : Res ε α) = ok b ↔ a = b) ∧
    (∀ {ε α} {a b : α}, (ok a : Res ε α) = ok b ↔ a = b) ∧
    (∀ {α β : Type} {a a' : α} {b b' : β}, (a, b) = (a', b') ↔ a = a' ∧ b = b') ∧
    (∀ {ε} {c} [Decidable c] {e : ε} {u : Unit}, require c e = ok u ↔ c) ∧
    (∀ {ε} {c} [Decidable c] {u : Unit}, (check c : Res ε Unit) = ok u ↔ c) ∧
    (∀ {ε α} {o : Option α} {e : ε} {a : α}, okOr o e = ok a ↔ o = some a) ∧
    (∀ {ε α} {o : Option α} {a : α}, (unwrap o : Res ε α) = ok a ↔ o = some a) ∧
    (∀ {ε ε' α} {x : Res ε α} {g : ε → ε'} {a : α}, mapErr x g = ok a ↔ x = ok a) ∧
    (∀ {ε ε' α} {x : Res ε α} {a : α}, (expectOk x : Res ε' α) = ok a ↔ x = ok a) ∧
    (∀ {ε} {a b n : Nat}, (plus a b : Res ε Nat) = ok n ↔ a + b ≤ u64Max ∧ a + b = n) ∧
    (∀ {ε} {a b n : Nat}, (minus a b : Res ε Nat) = ok n ↔ b ≤ a ∧ a - b = n) ∧
    (∀ {a b n : Nat}, checkedAdd a b = some n ↔ a + b ≤ u64Max ∧ a + b = n) ∧
    ∀ {a b n : Nat}, checkedSub a b = some n ↔ b ≤ a ∧ a - b = n :=
  ⟨bind_eq_ok, ⟨fun h => h.elim fun _ h => h, fun h => ⟨(), h⟩⟩, Prod.exists, pure_eq_ok, by simp,
    by simp, require_eq_ok, check_eq_ok, okOr_eq_ok, unwrap_eq_ok, mapErr_eq_ok, expectOk_eq_ok,
    plus_eq_ok, minus_eq_ok, checkedAdd_eq_some, checkedSub_eq_some⟩

theorem avoids_iff :
    (∀ {ε α β} {bad : ε → Prop} {x : Res ε α} {f : α → Res ε β},
      (x >>= f).Avoids bad ↔ x.Avoids bad ∧ ∀ a, x = ok a → (f a).Avoids bad) ∧
    (∀ {ε α} {bad : ε → Prop} {a : α}, (pure a : Res ε α).Avoids bad) ∧
    (∀ {ε} {bad : ε → Prop} {c} [Decidable c] {e : ε}, (require c e).Avoids bad ↔ (bad e → c)) ∧
    (∀ {ε} {bad : ε → Prop} {c} [Decidable c], (check c : Res ε Unit).Avoids bad ↔ c) ∧
    (∀ {ε α} {bad : ε → Prop} {o : Option α} {e : ε},
      (okOr o e).Avoids bad ↔ (bad e → o.isSome = true)) ∧
    (∀ {ε α} {bad : ε → Prop} {o : Option α},
      (unwrap o : Res ε α).Avoids bad ↔ o.isSome = true) ∧
    (∀ {ε ε' α} {bad : ε' → Prop} {x : Res ε α} {g : ε → ε'},
      (mapErr x g).Avoids bad ↔ x.Avoids fun e => bad (g e)) ∧
    (∀ {ε} {bad : ε → Prop} {a b : Nat}, (plus a b : Res ε Nat).Avoids bad ↔ a + b ≤ u64Max) ∧
    (∀ {ε} {bad : ε → Prop} {a b : Nat}, (minus a b : Res ε Nat).Avoids bad ↔ b ≤ a) ∧
    (∀ {p : Prop}, (True ∧ p ↔ p) ∧ (p ∧ True ↔ p) ∧ ((False → p) ↔ True) ∧ ((p → True) ↔ True)) ∧
    ∀ {α : Type}, (α → True) ↔ True :=
  ⟨avoids_bind, avoids_pure _, avoids_require, avoids_check, avoids_okOr, avoids_unwrap,
    avoids_mapErr, avoids_plus, avoids_minus, by simp, by simp⟩

end Res

end Rust
