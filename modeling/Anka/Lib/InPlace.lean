import Anka.Lib.Res

/-!
# Calls that work in place

A Rust call through `&mut` leaves what it did before it failed: the error comes with the state at
that point. `InPlace σ ε α` is the monad of such calls. `ask` is a look through `&`, `modify` an
assignment.

`atomic x` is a call that does all of `x` or nothing: its error leaves the state it started from.
The rules turn a sequence of calls into an atomic one when it looks first and cannot fail after its
first assignment; a sequence that does not is left alone by them.
-/

namespace Rust

/-- A call on a state it may change, whatever way it ends. -/
def InPlace (σ ε α : Type) : Type := σ → Res (ε × σ) (α × σ)

namespace InPlace

open Res

variable {σ ε α β : Type}

/-- The second runs on the state the first leaves. -/
protected def bind (x : InPlace σ ε α) (f : α → InPlace σ ε β) : InPlace σ ε β := fun s =>
  match x s with
  | ok (a, s') => f a s'
  | err e => err e
  | .panic => .panic

instance : Monad (InPlace σ ε) where
  pure a := fun s => ok (a, s)
  bind := InPlace.bind

/-- A look at the state, which may refuse. -/
def ask (x : σ → Res ε α) : InPlace σ ε α := fun s =>
  match x s with
  | ok a => ok (a, s)
  | err e => err (e, s)
  | .panic => .panic

/-- An assignment. -/
def modify (g : σ → σ) : InPlace σ ε Unit := fun s => ok ((), g s)

/-- `map_err`. -/
def mapFail {ε' : Type} (x : InPlace σ ε α) (g : ε → ε') : InPlace σ ε' α := fun s =>
  Res.mapErr (x s) fun e => (g e.1, e.2)

/-- All of it or nothing. -/
def atomic (x : σ → Res ε (α × σ)) : InPlace σ ε α := fun s =>
  match x s with
  | ok r => ok r
  | err e => err (e, s)
  | .panic => .panic

/-! ## Sequences that are atomic -/

theorem bind_apply (x : InPlace σ ε α) (f : α → InPlace σ ε β) (s : σ) :
    (x >>= f) s = match x s with
      | ok (a, s') => f a s'
      | err e => err e
      | .panic => .panic := rfl

theorem pure_eq_atomic (a : α) : (pure a : InPlace σ ε α) = atomic fun s => ok (a, s) := rfl

theorem modify_eq_atomic (g : σ → σ) :
    (modify g : InPlace σ ε Unit) = atomic fun s => ok ((), g s) := rfl

theorem ask_bind_atomic (x : σ → Res ε α) (y : α → σ → Res ε (β × σ)) :
    (ask x >>= fun a => atomic (y a)) = atomic fun s => x s >>= fun a => y a s := by
  funext s
  rw [bind_apply]
  cases hx : x s <;> simp [ask, atomic, hx]

section

variable (x : σ → Res ε (α × σ))
include x

theorem atomic_bind_atomic {y : α → σ → Res ε (β × σ)} (hy : ∀ a s e, y a s ≠ err e) :
    (atomic x >>= fun a => atomic (y a)) = atomic fun s => x s >>= fun r => y r.1 r.2 := by
  funext s
  rw [bind_apply]
  cases hx : x s with
  | ok r =>
    cases hr : y r.1 r.2 with
    | err e => exact absurd hr (hy _ _ _)
    | ok r' => simp [atomic, hx, hr]
    | panic => simp [atomic, hx, hr]
  | err e => simp [atomic, hx]
  | panic => simp [atomic, hx]

theorem mapFail_atomic {ε' : Type} (g : ε → ε') :
    (atomic x).mapFail g = atomic fun s => mapErr (x s) g := by
  funext s
  cases hx : x s <;> simp [mapFail, atomic, hx, mapErr]

theorem atomic_apply (s : σ) : atomic x s = mapErr (x s) (·, s) := by
  cases hx : x s <;> simp [atomic, hx, mapErr]

end

end InPlace

end Rust
