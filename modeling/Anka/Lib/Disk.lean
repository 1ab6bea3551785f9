import Mathlib.Logic.Function.Basic
import Mathlib.Data.List.Basic

/-!
# Files that survive a loss of power

A directory as a program sees it and what a loss of power may leave of it. A file is safe once a
barrier on it succeeded; until then its bytes may come back as anything. A name is safe once a
barrier on the directory succeeded; until then it may be found as anything it was bound to since.
`past` keeps those possibilities, the current binding among them. A rename binds both of its names
at once.

A program is run against a list of answers of the host, one for each operation: it is done, it fails
after some part of it, or everything stops after some part of it. A program returns or is stopped
with the directory it leaves (`Ending`), and `Triple P p Q E C` says what holds when it returns
(`Q`), when it fails (`E`) and of the directory when it is stopped anywhere inside (`C`).

* `Keeps`: whatever happens to the power, a name is found as a safe file with bytes of a kind.
  `Keeps.loses` is that meaning; the other lemmas are the operations that keep it.
* `Triple.bind`, `Triple.op`, `Triple.look`: the rules of composition and of one operation.
-/

namespace Disk

/-- The bytes of a file as a reader sees them, and whether they are safe. -/
structure File where
  bytes : List UInt8
  synced : Bool

/-- Files by number; the names, and what each name has been. -/
structure Directory (N : Type) where
  files : Nat → File
  next : Nat
  entry : N → Option Nat
  past : N → List (Option Nat)
  locked : Bool

variable {N : Type} {v : Option Nat}

namespace Directory

variable {d d' : Directory N} {n m : N} {i : Nat} {P Q : List UInt8 → Prop}

/-! ## Files and barriers -/

/-- Appends to a file. -/
def append (d : Directory N) (i : Nat) (bytes : List UInt8) : Directory N :=
  { d with
    files := Function.update d.files i { bytes := (d.files i).bytes ++ bytes, synced := false } }

/-- A barrier on a file. -/
def syncFile (d : Directory N) (i : Nat) : Directory N :=
  { d with files := Function.update d.files i { d.files i with synced := true } }

/-- A barrier on the directory. -/
def syncNames (d : Directory N) : Directory N := { d with past := fun n => [d.entry n] }

/-- What a loss of power may leave. -/
structure Loses (d d' : Directory N) : Prop where
  entry : ∀ n, d'.entry n ∈ d.past n
  past : ∀ n, d'.past n = [d'.entry n]
  files : ∀ i, (d.files i).synced = true → d'.files i = d.files i
  next : d'.next = d.next
  locked : d'.locked = false

/-- The current binding of a name is among its possible ones, and file numbers are handed out in
order. -/
structure WellFormed (d : Directory N) : Prop where
  current : ∀ n, d.entry n ∈ d.past n
  fresh : ∀ n i, some i ∈ d.past n → i < d.next

theorem WellFormed.append {b : List UInt8} (h : d.WellFormed) :
    (d.append i b).WellFormed := ⟨h.current, h.fresh⟩

theorem WellFormed.syncFile (h : d.WellFormed) : (d.syncFile i).WellFormed := ⟨h.current, h.fresh⟩

theorem WellFormed.syncNames (h : d.WellFormed) : d.syncNames.WellFormed where
  current _ := List.mem_singleton_self _
  fresh m _ hi := h.fresh m _ (List.mem_singleton.mp hi ▸ h.current m)

theorem Loses.wellFormed (h : d.Loses d') (hd : d.WellFormed) : d'.WellFormed where
  current n := by
    rw [h.past n]
    exact List.mem_singleton_self _
  fresh n i hi := by
    rw [h.past n, List.mem_singleton] at hi
    rw [h.next]
    exact hd.fresh n i (hi ▸ h.entry n)

/-- However the name is found, it is a safe file with bytes of this kind. -/
def Keeps (d : Directory N) (n : N) (P : List UInt8 → Prop) : Prop :=
  ∀ v ∈ d.past n, ∃ i, v = some i ∧ (d.files i).synced = true ∧ P (d.files i).bytes

/-- However the name is found, it is bound. -/
def Found (d : Directory N) (n : N) : Prop := ∀ v ∈ d.past n, v.isSome = true

theorem Found.loses (h : d.Found n) (hl : d.Loses d') : d'.Found n := by
  intro v hv
  rw [hl.past n, List.mem_singleton] at hv
  exact hv ▸ h _ (hl.entry n)

theorem found_syncNames (h : (d.entry n).isSome = true) : d.syncNames.Found n := by
  intro v hv
  rwa [List.mem_singleton.mp hv]

/-- The file cannot be found under the name. -/
def Apart (d : Directory N) (n : N) (i : Nat) : Prop := some i ∉ d.past n

section

variable (h : d.Keeps n P)
include h

theorem Keeps.mono (hPQ : ∀ bytes, P bytes → Q bytes) : d.Keeps n Q := by
  intro v hv
  obtain ⟨i, hi, hs, hP⟩ := h v hv
  exact ⟨i, hi, hs, hPQ _ hP⟩

theorem Keeps.entry (hd : d.WellFormed) :
    ∃ i, d.entry n = some i ∧ (d.files i).synced = true ∧ P (d.files i).bytes :=
  h _ (hd.current n)

theorem Keeps.loses (hl : d.Loses d') : d'.Keeps n P := by
  intro v hv
  rw [hl.past n, List.mem_singleton] at hv
  obtain ⟨i, hi, hs, hP⟩ := h _ (hl.entry n)
  have hf := hl.files i hs
  exact ⟨i, hv.trans hi, hf ▸ hs, hf ▸ hP⟩

theorem Keeps.append {b : List UInt8} (ha : d.Apart n i) : (d.append i b).Keeps n P := by
  intro v hv
  obtain ⟨j, rfl, hs, hP⟩ := h v hv
  have hn : j ≠ i := fun hj => ha (hj ▸ hv)
  refine ⟨j, rfl, ?_⟩
  simp only [Directory.append, Function.update_of_ne hn]
  exact ⟨hs, hP⟩

theorem Keeps.syncFile : (d.syncFile i).Keeps n P := by
  intro v hv
  obtain ⟨j, rfl, hs, hP⟩ := h v hv
  refine ⟨j, rfl, ?_⟩
  by_cases hj : j = i
  · subst hj
    simp only [Directory.syncFile, Function.update_self]
    exact ⟨trivial, hP⟩
  · simp only [Directory.syncFile, Function.update_of_ne hj]
    exact ⟨hs, hP⟩

end

theorem keeps_syncNames (hen : d.entry n = some i) (hs : (d.files i).synced = true)
    (hP : P (d.files i).bytes) : d.syncNames.Keeps n P := by
  intro v hv
  exact ⟨i, (List.mem_singleton.mp hv).trans hen, hs, hP⟩

/-! ## Names -/

section Names

variable [DecidableEq N]

/-- A name is bound to a file, or to none. -/
def bind (d : Directory N) (n : N) (v : Option Nat) : Directory N :=
  { d with entry := Function.update d.entry n v, past := Function.update d.past n (v :: d.past n) }

/-- A new, empty file under a name. -/
def create (d : Directory N) (n : N) : Directory N :=
  { d.bind n (some d.next) with
    files := Function.update d.files d.next { bytes := [], synced := false }
    next := d.next + 1 }

/-- Unbinds a name. -/
def remove (d : Directory N) (n : N) : Directory N := d.bind n none

/-- The file of `a` becomes the file of `b`. -/
def rename (d : Directory N) (a b : N) : Directory N := (d.bind b (d.entry a)).bind a none

theorem mem_past_bind {w : Option Nat} :
    w ∈ (d.bind n v).past m ↔ m = n ∧ w = v ∨ w ∈ d.past m := by
  unfold bind
  by_cases hm : m = n
  · subst hm
    simp
  · simp [hm]

section

variable (h : d.WellFormed)
include h

theorem WellFormed.bind (hv : ∀ i, v = some i → i < d.next) : (d.bind n v).WellFormed where
  current m := by
    by_cases hm : m = n
    · subst hm
      exact mem_past_bind.mpr (.inl ⟨rfl, by simp [Directory.bind]⟩)
    · exact mem_past_bind.mpr (.inr (by simpa [Directory.bind, hm] using h.current m))
  fresh m i hi := by
    rcases mem_past_bind.mp hi with ⟨-, hi⟩ | hi
    · exact hv i hi.symm
    · exact h.fresh m i hi

theorem WellFormed.create : (d.create n).WellFormed where
  current m := by
    by_cases hm : m = n
    · subst hm
      exact mem_past_bind.mpr (.inl ⟨rfl, by simp [Directory.create, Directory.bind]⟩)
    · refine mem_past_bind.mpr (.inr ?_)
      simpa [Directory.create, Directory.bind, hm] using h.current m
  fresh m i hi := by
    have hl : i < d.next + 1 := by
      rcases mem_past_bind.mp hi with ⟨-, hi⟩ | hi
      · cases hi
        exact Nat.lt_succ_self _
      · exact Nat.lt_succ_of_lt (h.fresh m i hi)
    exact hl

theorem WellFormed.remove : (d.remove n).WellFormed := h.bind (by simp)

theorem WellFormed.rename : (d.rename n m).WellFormed :=
  (h.bind fun i hi => h.fresh n i (hi ▸ h.current n)).bind (by simp)

theorem WellFormed.apart_create (hne : n ≠ m) : (d.create m).Apart n d.next := by
  intro hm
  rcases mem_past_bind.mp hm with ⟨hn, -⟩ | hm
  · exact hne hn
  · exact Nat.lt_irrefl _ (h.fresh n _ hm)

end

theorem Keeps.bind_other (h : d.Keeps n P) (hne : n ≠ m) : (d.bind m v).Keeps n P := by
  intro w hw
  rcases mem_past_bind.mp hw with ⟨hn, -⟩ | hw
  · exact absurd hn hne
  · exact h w hw

theorem Found.bind_other (h : d.Found n) (hne : n ≠ m) : (d.bind m v).Found n := by
  intro w hw
  rcases mem_past_bind.mp hw with ⟨hn, -⟩ | hw
  · exact absurd hn hne
  · exact h w hw

theorem Keeps.create (h : d.Keeps n P) (hd : d.WellFormed) (hne : n ≠ m) :
    (d.create m).Keeps n P := by
  intro w hw
  rcases mem_past_bind.mp hw with ⟨hn, -⟩ | hw
  · exact absurd hn hne
  obtain ⟨i, rfl, hs, hP⟩ := h w hw
  have hne : i ≠ d.next := Nat.ne_of_lt (hd.fresh n i hw)
  refine ⟨i, rfl, ?_⟩
  simp only [Directory.create, Function.update_of_ne hne]
  exact ⟨hs, hP⟩

theorem Keeps.rename (h : d.Keeps n P) (hn : n ≠ m) (hen : d.entry m = some i)
    (hs : (d.files i).synced = true) (hQ : Q (d.files i).bytes) :
    (d.rename m n).Keeps n fun bytes => P bytes ∨ Q bytes := by
  refine Keeps.bind_other (fun v hv => ?_) hn
  rcases mem_past_bind.mp hv with ⟨-, rfl⟩ | hv
  · exact ⟨i, hen, hs, .inr hQ⟩
  · obtain ⟨j, hj, hjs, hP⟩ := h v hv
    exact ⟨j, hj, hjs, .inl hP⟩

theorem entry_rename (hn : n ≠ m) : (d.rename m n).entry n = d.entry m := by
  simp [Directory.rename, Directory.bind, hn]

theorem entry_create : (d.create n).entry n = some d.next := by
  simp [Directory.create, Directory.bind]

theorem entry_create_of_ne (hn : n ≠ m) : (d.create m).entry n = d.entry n := by
  simp [Directory.create, Directory.bind, hn]

end Names

end Directory

/-! ## Programs -/

/-- How the host answers an operation; the number says how much of it happened. -/
inductive Answer where
  | done
  | failed (part : Nat)
  | stopped (part : Nat)

/-- The directory, the answers to come and the state the program owns. -/
structure World (N σ : Type) where
  disk : Directory N
  answers : List Answer
  own : σ

/-- How a program ends. -/
inductive Ending (N σ ε α : Type) where
  | returned (result : Except ε α) (world : World N σ)
  | stopped (disk : Directory N)

namespace Ending

variable {σ ε α : Type}

/-- The directory a program leaves. -/
def disk : Ending N σ ε α → Directory N
  | .returned _ w => w.disk
  | .stopped d => d

/-- What it returned, if it did. -/
def result : Ending N σ ε α → Option (Except ε α)
  | .returned r _ => some r
  | .stopped _ => none

theorem eq_of_result {en : Ending N σ ε α} {r : Except ε α} (h : en.result = some r) :
    ∃ w, en = .returned r w := by
  cases en with
  | returned r' w =>
    cases h
    exact ⟨w, rfl⟩
  | stopped d => cases h

end Ending

/-- A program over a directory. A list of answers that has ended is a host that answers. -/
def Prog (N σ ε α : Type) : Type := World N σ → Ending N σ ε α

namespace Prog

variable {σ ε α β : Type}

/-- The second program runs on what the first returned. -/
def andThen (p : Prog N σ ε α) (f : α → Prog N σ ε β) : Prog N σ ε β := fun w =>
  match p w with
  | .returned (.ok a) w => f a w
  | .returned (.error e) w => .returned (.error e) w
  | .stopped d => .stopped d

instance : Monad (Prog N σ ε) where
  pure a := fun w => .returned (.ok a) w
  bind := andThen

@[simp] theorem bind_apply {p : Prog N σ ε α} {f : α → Prog N σ ε β} {w : World N σ} :
    (p >>= f) w = p.andThen f w := rfl

@[simp] theorem pure_apply {a : α} {w : World N σ} :
    (pure a : Prog N σ ε α) w = .returned (.ok a) w := rfl

/-- A value or an error that no operation is needed for. -/
def lift (result : Except ε α) : Prog N σ ε α := fun w => .returned result w

/-- One operation: what it does, and what a part of it does. -/
def op (e : ε) (perform : Directory N → Directory N) (part : Nat → Directory N → Directory N) :
    Prog N σ ε Unit := fun w =>
  match w.answers with
  | [] => .returned (.ok ()) { w with disk := perform w.disk }
  | .done :: rest => .returned (.ok ()) { w with disk := perform w.disk, answers := rest }
  | .failed n :: rest => .returned (.error e) { w with disk := part n w.disk, answers := rest }
  | .stopped n :: _ => .stopped (part n w.disk)

/-- An operation that happens as a whole or not at all. -/
def whole (e : ε) (perform : Directory N → Directory N) : Prog N σ ε Unit :=
  op e perform fun n d => if n = 0 then d else perform d

/-- An operation without an effect, and what it finds. -/
def look (e : ε) (f : Directory N → α) : Prog N σ ε α := fun w =>
  match w.answers with
  | [] => .returned (.ok (f w.disk)) w
  | .done :: rest => .returned (.ok (f w.disk)) { w with answers := rest }
  | .failed _ :: rest => .returned (.error e) { w with answers := rest }
  | .stopped _ :: _ => .stopped w.disk

/-- What is there, without an operation of its own. -/
def peek (f : Directory N → α) : Prog N σ ε α := fun w => .returned (.ok (f w.disk)) w

/-- A change of the state the program owns. -/
def modifyOwn (g : σ → σ) : Prog N σ ε Unit := fun w =>
  .returned (.ok ()) { w with own := g w.own }

/-- The state the program owns. -/
def getOwn : Prog N σ ε σ := fun w => .returned (.ok w.own) w

/-- What holds of the directory and the program's own state when it returns and when it fails, and
of the directory where it is stopped. -/
def Triple (P : Directory N → σ → Prop) (p : Prog N σ ε α) (Q : α → Directory N → σ → Prop)
    (E : ε → Directory N → σ → Prop) (C : Directory N → Prop) : Prop :=
  ∀ w, P w.disk w.own → match p w with
    | .returned (.ok a) w' => Q a w'.disk w'.own
    | .returned (.error e) w' => E e w'.disk w'.own
    | .stopped d => C d

namespace Triple

variable {P P' : Directory N → σ → Prop} {Q Q' : α → Directory N → σ → Prop}
  {E E' : ε → Directory N → σ → Prop} {C C' : Directory N → Prop} {p : Prog N σ ε α}

/-! ### What a run of the program shows -/

section Elim

variable {w w' : World N σ}

theorem ok {a : α} (h : Triple P p Q E C) (hw : P w.disk w.own)
    (hp : p w = .returned (.ok a) w') : Q a w'.disk w'.own := by
  have := h w hw
  rwa [hp] at this

theorem error {e : ε} (h : Triple P p Q E C) (hw : P w.disk w.own)
    (hp : p w = .returned (.error e) w') : E e w'.disk w'.own := by
  have := h w hw
  rwa [hp] at this

theorem stopped {d : Directory N} (h : Triple P p Q E C) (hw : P w.disk w.own)
    (hp : p w = .stopped d) : C d := by
  have := h w hw
  rwa [hp] at this

end Elim

/-! ### Rules -/

theorem bind {R : β → Directory N → σ → Prop} {f : α → Prog N σ ε β} (hp : Triple P p Q E C)
    (hf : ∀ a, Triple (Q a) (f a) R E C) : Triple P (p >>= f) R E C := by
  intro w hw
  have hfi := hp w hw
  change match p.andThen f w with
    | .returned (.ok b) w' => R b w'.disk w'.own
    | .returned (.error e) w' => E e w'.disk w'.own
    | .stopped d => C d
  unfold andThen
  split at hfi
  · exact hf _ _ hfi
  · exact hfi
  · exact hfi

theorem pure {a : α} (h : ∀ d own, P d own → Q a d own) :
    Triple P (Pure.pure a : Prog N σ ε α) Q E C := fun w hw => h w.disk w.own hw

theorem lift {r : Except ε α} (ho : ∀ a, r = .ok a → ∀ d own, P d own → Q a d own)
    (her : ∀ e, r = .error e → ∀ d own, P d own → E e d own) : Triple P (Prog.lift r) Q E C := by
  intro w hw
  cases r with
  | ok a => exact ho a rfl w.disk w.own hw
  | error e => exact her e rfl w.disk w.own hw

theorem fail {e : ε} (h : ∀ d own, P d own → E e d own) :
    Triple P (Prog.lift (.error e) : Prog N σ ε α) Q E C :=
  lift (fun _ h => nomatch h) fun _ he => by cases he; exact h

theorem given {φ : Prop} (h : φ → Triple P p Q E C) :
    Triple (fun d own => φ ∧ P d own) p Q E C := fun w hw => h hw.1 w hw.2

theorem conseq (h : Triple P p Q E C) (hP : ∀ d own, P' d own → P d own)
    (hQ : ∀ a d own, Q a d own → Q' a d own) (hE : ∀ e d own, E e d own → E' e d own)
    (hC : ∀ d, C d → C' d) : Triple P' p Q' E' C' := by
  intro w hw
  have hp := h w (hP _ _ hw)
  split at hp
  · exact hQ _ _ _ hp
  · exact hE _ _ _ hp
  · exact hC _ hp

variable {e : ε} {perform : Directory N → Directory N} {f : Directory N → α}

theorem op {Q : Unit → Directory N → σ → Prop}
    {part : Nat → Directory N → Directory N} (hd : ∀ d own, P d own → Q () (perform d) own)
    (hp : ∀ d own, P d own → ∀ n, C (part n d) ∧ E e (part n d) own) :
    Triple P (Prog.op e perform part) Q E C := by
  intro w hw
  unfold Prog.op
  rcases w with ⟨disk, an, own⟩
  cases an with
  | nil => exact hd disk own hw
  | cons ans rest =>
    cases ans with
    | done => exact hd disk own hw
    | failed n => exact (hp disk own hw n).2
    | stopped n => exact (hp disk own hw n).1

theorem whole {Q : Unit → Directory N → σ → Prop} (hd : ∀ d own, P d own → Q () (perform d) own)
    (hb : ∀ d own, P d own → C d ∧ E e d own)
    (ha : ∀ d own, P d own → C (perform d) ∧ E e (perform d) own) :
    Triple P (Prog.whole e perform) Q E C := by
  refine op hd fun d own hP n => ?_
  by_cases hn : n = 0
  · simpa only [hn, if_true] using hb d own hP
  · simpa only [hn, if_false] using ha d own hP

theorem look (hd : ∀ d own, P d own → Q (f d) d own)
    (hp : ∀ d own, P d own → C d ∧ E e d own) : Triple P (Prog.look e f) Q E C := by
  intro w hw
  unfold Prog.look
  rcases w with ⟨disk, an, own⟩
  cases an with
  | nil => exact hd disk own hw
  | cons ans rest =>
    cases ans with
    | done => exact hd disk own hw
    | failed n => exact (hp disk own hw).2
    | stopped n => exact (hp disk own hw).1

theorem peek (h : ∀ d own, P d own → Q (f d) d own) :
    Triple P (Prog.peek f : Prog N σ ε α) Q E C := fun w hw => h w.disk w.own hw

theorem getOwn {Q : σ → Directory N → σ → Prop} (h : ∀ d own, P d own → Q own d own) :
    Triple P (Prog.getOwn : Prog N σ ε σ) Q E C := fun w hw => h w.disk w.own hw

theorem modifyOwn {Q : Unit → Directory N → σ → Prop} {g : σ → σ}
    (h : ∀ d own, P d own → Q () d (g own)) :
    Triple P (Prog.modifyOwn g : Prog N σ ε Unit) Q E C := fun w hw => h w.disk w.own hw

end Triple

end Prog

end Disk
