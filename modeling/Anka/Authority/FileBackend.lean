import Anka.Authority.FileCodec
import Anka.Lib.Disk

/-!
# The file record and its crashes (`authority_persistence/file_backend.rs`)

`FileRecord` keeps the record in one file of a private directory. A commit writes the new record to
`pending`, passes a barrier on it, renames it over `record` and passes a barrier on the directory.
The programs here are the source's sequences of file operations, run against a host that may fail or
stop any of them, with or without its effect (`Lib/Disk`). Only the process that holds the lock
writes, and it makes regular files only, so the branches for other kinds of entry are left out; so
is the entry of the directory in its parent, without which nothing can be opened.

`Safe P d` is what survives everything: however the power is lost, `record` is found as a complete
record of a state in `P`.

* `readHead_triple`, `commit_triple`, `open_triple`, `create_triple`: one specification for each
  program, for every list of answers.
* `Recovers`: what may happen to the directory between two handles. `Safe.recovers` is its step
  lemma.
* `Safe.opens`: a safe record can be opened.
* `crash_consistent`: after any crash of a commit the record can be reopened, and a reopening finds
  exactly the state before it or exactly the state after it.
-/

namespace Anka.Authority.FileBackend

open Rust Disk List Option Directory
open Disk.Prog (Triple)

/-- `HEAD`, `PENDING` and `LOCK`. -/
inductive Name where
  | head
  | pending
  | lock
  deriving DecidableEq

/-- `FileRecord`; the lock it holds is part of the directory. -/
structure FileRecord where
  anchor : UInt64
  installation : UInt64
  poisoned : Bool
  deriving DecidableEq

/-! ## File operations -/

section Operations

variable {σ : Type}

/-- `file_barrier`, with the error its caller makes of a failure. -/
def fileBarrier (e : Error) (file : Nat) : Prog Name σ Error Unit :=
  Prog.op e (·.syncFile file) fun _ d => d

/-- `dir_barrier`, with the error its caller makes of a failure. -/
def dirBarrier (e : Error) : Prog Name σ Error Unit := Prog.op e (·.syncNames) fun _ d => d

/-- An operation that only has to succeed. -/
def succeed (e : Error) : Prog Name σ Error Unit := Prog.look e fun _ => ()

/-- The file of a name, if the host finds it: `regular`, `File::open`. -/
def find (n : Name) : Prog Name σ Error Nat := do
  let found ← Prog.look .backendUnavailable fun d => d.entry n
  match found with
  | some file => pure file
  | none => Prog.lift (.error .backendUnavailable)

/-- `create_new(true)`: a name that exists is refused. -/
def createNew (n : Name) : Prog Name σ Error Nat := do
  let found ← Prog.peek fun d => (d.entry n, d.next)
  match found with
  | (some _, _) => Prog.lift (.error .backendUnavailable)
  | (none, file) =>
    Prog.whole .backendUnavailable (·.create n)
    pure file

/-- `write_all`: a failed one may have written any part. -/
def writeAll (file : Nat) (bytes : List UInt8) : Prog Name σ Error Unit :=
  Prog.op .backendUnavailable (·.append file bytes) fun n d => d.append file (bytes.take n)

/-- `flock` with `LOCK_EX | LOCK_NB`. -/
def flock : Prog Name σ Error Unit := do
  let locked ← Prog.peek (·.locked)
  match locked with
  | true => Prog.lift (.error .backendBusy)
  | false => Prog.whole .backendUnavailable fun d => { d with locked := true }

/-- The lock file, made or found. -/
def openLock (create : Bool) : Prog Name σ Error Nat :=
  match create with
  | true => createNew .lock
  | false => do
    let _ ← find .lock
    find .lock

/-- Opens the lock file and takes the lock (38). -/
def lockFile (create : Bool) : Prog Name σ Error Nat := do
  let file ← openLock create
  flock
  pure file

/-- `rename(pending, head)`. -/
def renameHead (e : Error) : Prog Name σ Error Unit := do
  let found ← Prog.peek fun d => d.entry .pending
  match found with
  | some _ => Prog.whole e fun d => d.rename .pending .head
  | none => Prog.lift (.error e)

/-- The state of the file that is at the head (159). -/
def readHead (self : FileRecord) : Prog Name σ Error State := do
  let _ ← find .head
  let file ← find .head
  let bytes ← Prog.look .backendUnavailable fun d => (d.files file).bytes.take (RECORD_BYTES + 1)
  Prog.lift (decode bytes self.anchor self.installation)

/-- Removes a pending file if there is one (165). -/
def removePending : Prog Name σ Error Unit := do
  let found ← Prog.look .backendUnavailable fun d => d.entry .pending
  match found with
  | some _ => Prog.whole .backendUnavailable fun d => d.remove .pending
  | none => pure ()

/-! ### Rules for the operations -/

variable {Q : Unit → Directory Name → σ → Prop}

section Rules

variable {F : Directory Name → σ → Prop} {E : Error → Directory Name → σ → Prop}
  {C : Directory Name → Prop} {n : Name}

theorem succeed_rule {e : Error} (hp : ∀ d own, F d own → C d ∧ E e d own) :
    Triple F (succeed e) (fun _ => F) E C :=
  Triple.look (fun _ _ hF => hF) hp

theorem find_rule {Q : Nat → Directory Name → σ → Prop}
    (hd : ∀ d own file, F d own → d.entry n = some file → Q file d own)
    (hp : ∀ d own, F d own → C d ∧ E .backendUnavailable d own) : Triple F (find n) Q E C := by
  refine .bind (Q := fun found d own => F d own ∧ d.entry n = found)
    (.look (fun _ _ hF => ⟨hF, rfl⟩) hp) fun found => ?_
  cases found with
  | some file => exact .pure fun d own hF => hd d own file hF.1 hF.2
  | none => exact .fail fun d own hF => (hp d own hF.1).2

theorem createNew_rule {Q : Nat → Directory Name → σ → Prop}
    (hd : ∀ d own, F d own → d.entry n = none → Q d.next (d.create n) own)
    (hb : ∀ d own, F d own → C d ∧ E .backendUnavailable d own)
    (ha : ∀ d own, F d own → C (d.create n) ∧ E .backendUnavailable (d.create n) own) :
    Triple F (createNew n) Q E C := by
  refine .bind (Q := fun found d own => F d own ∧ (d.entry n, d.next) = found)
    (.peek fun _ _ hF => ⟨hF, rfl⟩) fun found => ?_
  obtain ⟨en, file⟩ := found
  cases en with
  | some o => exact .fail fun d own hF => (hb d own hF.1).2
  | none =>
    refine .bind (Q := fun _ => Q file) ?_ fun _ => .pure fun _ _ hQ => hQ
    refine .whole (fun d own hF => ?_) (fun d own hF => hb d own hF.1) fun d own hF => ha d own hF.1
    obtain ⟨hen, hn⟩ := Prod.mk.inj hF.2
    exact hn ▸ hd d own hF.1 hen

theorem flock_rule (hd : ∀ d own, F d own → Q () { d with locked := true } own)
    (hbu : ∀ d own, F d own → E .backendBusy d own)
    (hb : ∀ d own, F d own → C d ∧ E .backendUnavailable d own)
    (ha : ∀ d own, F d own → C { d with locked := true } ∧ E .backendUnavailable
      { d with locked := true } own) : Triple F flock Q E C := by
  refine .bind (Q := fun _ => F) (.peek fun _ _ hF => hF) fun locked => ?_
  cases locked with
  | true => exact .fail hbu
  | false => exact .whole hd hb ha

theorem renameHead_rule {e : Error} (hd : ∀ d own, F d own → Q () (d.rename .pending .head) own)
    (hb : ∀ d own, F d own → C d ∧ E e d own)
    (ha : ∀ d own, F d own → C (d.rename .pending .head) ∧ E e (d.rename .pending .head) own) :
    Triple F (renameHead e) Q E C := by
  refine .bind (Q := fun _ => F) (.peek fun _ _ hF => hF) fun found => ?_
  cases found with
  | some _ => exact .whole hd hb ha
  | none => exact .fail fun d own hF => (hb d own hF).2

theorem removePending_rule (hn : ∀ d own, F d own → d.entry .pending = none → Q () d own)
    (hd : ∀ d own, F d own → Q () (d.remove .pending) own)
    (hb : ∀ d own, F d own → C d ∧ E .backendUnavailable d own)
    (ha : ∀ d own, F d own → C (d.remove .pending) ∧
      E .backendUnavailable (d.remove .pending) own) :
    Triple F removePending Q E C := by
  refine .bind (Q := fun found d own => F d own ∧ d.entry .pending = found)
    (.look (fun _ _ hF => ⟨hF, rfl⟩) hb) fun found => ?_
  cases found with
  | some _ =>
    exact .whole (fun d own hF => hd d own hF.1) (fun d own hF => hb d own hF.1)
      fun d own hF => ha d own hF.1
  | none => exact .pure fun d own hF => hn d own hF.1 hF.2

end Rules

end Operations

/-! ## The record -/

namespace FileRecord

variable (anchor installation : UInt64)

/-- The record of a new anchor (123). -/
def create (initial : State) : Prog Name Unit Error FileRecord := do
  match initial.last with
  | some _ => Prog.lift (.error .invalidRequest)
  | none =>
    let bytes ← Prog.lift (encode anchor installation initial)
    -- the parent is resolved, the directory made
    succeed .backendUnavailable
    succeed .backendUnavailable
    let lock ← lockFile true
    fileBarrier .backendUnavailable lock
    let head ← createNew .head
    writeAll head bytes
    fileBarrier .backendUnavailable head
    dirBarrier .backendUnavailable
    -- the barrier on the parent
    succeed .backendUnavailable
    fileBarrier .backendUnavailable head
    pure { anchor, installation, poisoned := false }

/-- `open`. -/
def «open» : Prog Name Unit Error FileRecord :=
  if anchor = 0 ∨ installation = 0 then Prog.lift (.error .authority)
  else do
    -- the directory is there and its path resolves
    succeed .backendUnavailable
    succeed .backendUnavailable
    let _ ← lockFile false
    let s : FileRecord := { anchor, installation, poisoned := false }
    let _ ← readHead s
    let head ← find .head
    fileBarrier .backendUnavailable head
    dirBarrier .backendUnavailable
    fileBarrier .backendUnavailable head
    removePending
    pure s

/-- The record is the one this caller opened (154). -/
def bound (self : FileRecord) : Except Error Unit :=
  if ¬ (anchor = self.anchor ∧ installation = self.installation) then .error .authority
  else if self.poisoned = true then .error .commitUncertain
  else .ok ()

/-- The state at the head (183). -/
def load : Prog Name FileRecord Error State := do
  let self ← Prog.getOwn
  Prog.lift (bound anchor installation self)
  readHead self

/-- The new record is written to `pending` and made safe there. -/
def draft (bytes : List UInt8) : Prog Name FileRecord Error Nat := do
  removePending
  let file ← createNew .pending
  writeAll file (bytes.take (RECORD_BYTES / 2))
  writeAll file (bytes.drop (RECORD_BYTES / 2))
  fileBarrier .backendUnavailable file
  pure file

/-- From the rename on no failure is definite. -/
def publish (file : Nat) : Prog Name FileRecord Error Unit := do
  Prog.modifyOwn fun self => { self with poisoned := true }
  renameHead .commitUncertain
  dirBarrier .commitUncertain
  fileBarrier .commitUncertain file
  Prog.modifyOwn fun self => { self with poisoned := false }

/-- A pending file, renamed over the head (186). -/
def commit (before after : State) : Prog Name FileRecord Error Unit := do
  let self ← Prog.getOwn
  Prog.lift (bound anchor installation self)
  let head ← readHead self
  if head ≠ before then Prog.lift (.error .conflict)
  else if validSuccessor before after = false then Prog.lift (.error .invalidRequest)
  else do
    let bytes ← Prog.lift (encode anchor installation after)
    let file ← draft bytes
    publish file

end FileRecord

/-! ## What survives -/

/-- However the power is lost, the head is found as a complete record of a state in `P`, and the
lock file is there. -/
structure Safe (anchor installation : UInt64) (P : State → Prop) (d : Directory Name) : Prop where
  wellFormed : d.WellFormed
  lock : d.Found .lock
  keeps : d.Keeps .head fun bytes => ∃ s, P s ∧ decode bytes anchor installation = .ok s

/-- The head is this file now, and it is a safe record of the state. -/
structure Visible (anchor installation : UInt64) (file : Nat) (s : State) (d : Directory Name) :
    Prop where
  entry : d.entry .head = some file
  synced : (d.files file).synced = true
  decodes : decode (d.files file).bytes anchor installation = .ok s

/-- The handle may be used, and the state it serves is the only one that can be found. -/
structure Serves (anchor installation : UInt64) (s : State) (d : Directory Name)
    (own : FileRecord) : Prop where
  handle : own = { anchor, installation, poisoned := false }
  safe : Safe anchor installation (· = s) d

variable {before : State} {installation' anchor' : UInt64}

section Survival

variable {anchor installation : UInt64} {P : State → Prop} {d d' : Directory Name} {s after : State}
  {file : Nat}

namespace Safe

section

variable (h : Safe anchor installation P d)
include h

theorem mono {Q : State → Prop} (hPQ : ∀ s, P s → Q s) : Safe anchor installation Q d :=
  ⟨h.wellFormed, h.lock, h.keeps.mono fun _ ⟨s, hs, hd⟩ => ⟨s, hPQ s hs, hd⟩⟩

theorem visible : ∃ file s, P s ∧ Visible anchor installation file s d := by
  obtain ⟨file, hen, hsy, s, hs, hd⟩ := h.keeps.entry h.wellFormed
  exact ⟨file, s, hs, hen, hsy, hd⟩

theorem entry_lock : (d.entry .lock).isSome = true := h.lock _ (h.wellFormed.current .lock)

theorem loses (hl : d.Loses d') : Safe anchor installation P d' :=
  ⟨hl.wellFormed h.wellFormed, h.lock.loses hl, h.keeps.loses hl⟩

theorem setLocked (b : Bool) : Safe anchor installation P { d with locked := b } :=
  ⟨⟨h.wellFormed.current, h.wellFormed.fresh⟩, h.lock, h.keeps⟩

theorem syncFile : Safe anchor installation P (d.syncFile file) :=
  ⟨h.wellFormed.syncFile, h.lock, h.keeps.syncFile⟩

theorem removePending : Safe anchor installation P (d.remove .pending) :=
  ⟨h.wellFormed.remove, h.lock.bind_other (by decide), h.keeps.bind_other (by decide)⟩

theorem createPending : Safe anchor installation P (d.create .pending) :=
  ⟨h.wellFormed.create, h.lock.bind_other (m := Name.pending) (v := some d.next) (by decide),
    h.keeps.create h.wellFormed (by decide)⟩

theorem append {bytes : List UInt8}
    (ha : d.Apart .head file) : Safe anchor installation P (d.append file bytes) :=
  ⟨h.wellFormed.append, h.lock, h.keeps.append ha⟩

theorem rename (hen : d.entry .pending = some file) (hs : (d.files file).synced = true)
    (hd : decode (d.files file).bytes anchor installation = .ok s) :
    Safe anchor installation (fun t => P t ∨ t = s) (d.rename .pending .head) := by
  refine ⟨h.wellFormed.rename, (h.lock.bind_other (by decide)).bind_other (by decide), ?_⟩
  refine (h.keeps.rename (Q := fun bytes => decode bytes anchor installation = .ok s) (by decide)
    hen hs hd).mono fun bytes hb => ?_
  rcases hb with ⟨t, ht, hd⟩ | hd
  · exact ⟨t, .inl ht, hd⟩
  · exact ⟨s, .inr rfl, hd⟩

end

end Safe

namespace Visible

section

variable (h : Visible anchor installation file s d)
include h

theorem syncFile : Visible anchor installation file s (d.syncFile file) := by
  refine ⟨h.entry, ?_, ?_⟩
  · simp [Directory.syncFile]
  · simpa [Directory.syncFile] using h.decodes

theorem safe_syncNames (hd : d.WellFormed) (hl : (d.entry .lock).isSome = true) :
    Safe anchor installation (· = s) d.syncNames :=
  ⟨hd.syncNames, found_syncNames hl, keeps_syncNames h.entry h.synced ⟨s, rfl, h.decodes⟩⟩

theorem take : (d.files file).bytes.take (RECORD_BYTES + 1) = (d.files file).bytes :=
  take_of_length_le (by rw [length_of_decode h.decodes]; omega)

end

end Visible

/-! ## The programs -/

section Reading

variable {σ : Type} {F : Directory Name → σ → Prop} {E : Error → Directory Name → σ → Prop}
  {C : Directory Name → Prop}

theorem readHead_triple {self : FileRecord} {Q : State → Directory Name → σ → Prop}
    (hF : ∀ d own, F d own → Safe anchor installation P d)
    (hd : ∀ d own file s, F d own → P s → Visible anchor installation file s d →
      self.anchor = anchor → self.installation = installation → Q s d own)
    (hp : ∀ d own, F d own → C d ∧ E .backendUnavailable d own)
    (ho : ¬ (self.anchor = anchor ∧ self.installation = installation) →
      ∀ e d own, F d own → E e d own) : Triple F (readHead self) Q E C := by
  refine .bind (Q := fun _ => F) (find_rule (fun _ _ _ h _ => h) hp) fun _ => ?_
  refine .bind (Q := fun file d own => F d own ∧ d.entry .head = some file)
    (find_rule (fun _ _ _ h hen => ⟨h, hen⟩) hp) fun file => ?_
  refine .bind
    (Q := fun bytes d own => F d own ∧ ∃ s, P s ∧ Visible anchor installation file s d ∧
      bytes = (d.files file).bytes) (.look (fun d own h => ⟨h.1, ?_⟩)
      fun d own h => hp d own h.1) fun bytes => ?_
  · obtain ⟨file', s, hs, hv⟩ := (hF d own h.1).visible
    obtain rfl : file' = file := mem_unique hv.entry h.2
    exact ⟨s, hs, hv, hv.take⟩
  · refine .lift (fun s' hs' d own h => ?_) fun e he d own h => ?_
    · obtain ⟨hFd, s, hs, hv, rfl⟩ := h
      obtain ⟨ha, hi⟩ := decode_namespace hv.decodes hs'
      rw [ha, hi, hv.decodes] at hs'
      cases hs'
      exact hd d own file _ hFd hs hv ha hi
    · obtain ⟨hFd, s, hs, hv, rfl⟩ := h
      by_cases hse : self.anchor = anchor ∧ self.installation = installation
      · rw [hse.1, hse.2, hv.decodes] at he
        cases he
      · exact ho hse e d own hFd

end Reading

/-- `open` settles the state it finds; a failed or stopped one leaves what is safe as it was. -/
theorem open_triple :
    Triple (fun d _ => Safe anchor installation P d) (FileRecord.open anchor' installation')
      (fun handle d _ => ∃ s, P s ∧ handle = { anchor, installation, poisoned := false } ∧
        Safe anchor installation (· = s) d)
      (fun _ d _ => Safe anchor installation P d) (Safe anchor installation P) := by
  have hk : ∀ (d : Directory Name) (_ : Unit), Safe anchor installation P d →
      Safe anchor installation P d ∧ Safe anchor installation P d := fun _ _ h => ⟨h, h⟩
  unfold FileRecord.open
  split
  · exact .fail fun _ _ h => h
  refine .bind (succeed_rule hk) fun _ => ?_
  refine .bind (succeed_rule hk) fun _ => ?_
  refine .bind (Q := fun _ d _ => Safe anchor installation P d) ?_ fun _ => ?_
  · refine .bind (Q := fun _ d _ => Safe anchor installation P d) ?_ fun _ => ?_
    · refine .bind (Q := fun _ d _ => Safe anchor installation P d)
        (find_rule (fun _ _ _ h _ => h) hk) fun _ => find_rule (fun _ _ _ h _ => h) hk
    · refine .bind (Q := fun _ d _ => Safe anchor installation P d) ?_
        fun _ => .pure fun _ _ h => h
      exact flock_rule (fun _ _ h => h.setLocked true) (fun _ _ h => h) hk
        fun _ _ h => ⟨h.setLocked true, h.setLocked true⟩
  refine .bind
    (Q := fun s d _ => (anchor' = anchor ∧ installation' = installation ∧ P s) ∧
      Safe anchor installation P d ∧ ∃ file, Visible anchor installation file s d)
    (readHead_triple (fun _ _ h => h)
      (fun _ _ file _ h hs hv ha hi => ⟨⟨ha, hi, hs⟩, h, file, hv⟩) hk
      fun _ _ _ _ h => h) fun s => .given fun hr => ?_
  obtain ⟨rfl, rfl, hs⟩ := hr
  refine .bind
    (Q := fun file d _ => Safe anchor' installation' P d ∧ Visible anchor' installation' file s d)
    (find_rule (fun d _ file h hen => ⟨h.1, ?_⟩) fun d _ h => hk d () h.1) fun file => ?_
  · obtain ⟨file', hv⟩ := h.2
    exact mem_unique hv.entry hen ▸ hv
  refine .bind
    (Q := fun _ d _ => Safe anchor' installation' P d ∧ Visible anchor' installation' file s d)
    (.op (fun _ _ h => ⟨h.1.syncFile, h.2.syncFile⟩) fun d _ h _ => hk d () h.1)
    fun _ => ?_
  -- from the barrier on the directory on, the state that was read is the only one
  have hse : ∀ (d : Directory Name) (_ : Unit), Safe anchor' installation' (· = s) d →
      Safe anchor' installation' P d ∧ Safe anchor' installation' P d :=
    fun d _ h => hk d () (h.mono fun t ht => ht ▸ hs)
  refine .bind (Q := fun _ d _ => Safe anchor' installation' (· = s) d)
    (.op (fun _ _ h => h.2.safe_syncNames h.1.wellFormed h.1.entry_lock)
      fun d _ h _ => hk d () h.1) fun _ => ?_
  refine .bind (Q := fun _ d _ => Safe anchor' installation' (· = s) d)
    (.op (fun _ _ h => h.syncFile) fun d own h _ => hse d own h) fun _ => ?_
  refine .bind (Q := fun _ d _ => Safe anchor' installation' (· = s) d)
    (removePending_rule (fun _ _ h _ => h) (fun _ _ h => h.removePending) hse
      fun d own h => hse _ own h.removePending) fun _ => ?_
  exact .pure fun d _ h => ⟨s, hs, rfl, h⟩

/-! ### Commit -/

/-- The new record, as far as it is written to `pending`. -/
structure Draft (file : Nat) (bytes : List UInt8) (d : Directory Name) : Prop where
  entry : d.entry .pending = some file
  apart : d.Apart .head file
  bytes_eq : (d.files file).bytes = bytes

namespace Draft

variable {bytes more : List UInt8}

theorem create (h : d.WellFormed) : Draft d.next [] (d.create .pending) where
  entry := entry_create
  apart := h.apart_create (by decide)
  bytes_eq := by simp [Directory.create]

theorem append (h : Draft file bytes d) : Draft file (bytes ++ more) (d.append file more) where
  __ := h
  bytes_eq := by simp [Directory.append, h.bytes_eq]

theorem syncFile (h : Draft file bytes d) : Draft file bytes (d.syncFile file) where
  __ := h
  bytes_eq := by simpa [Directory.syncFile] using h.bytes_eq

end Draft

variable {handle : FileRecord} {bytes : List UInt8} {own : FileRecord} {w : World Name FileRecord}
  {answers : List Answer}

/-- Until the rename nothing but the safe record can be found. -/
theorem draft_triple :
    Triple (fun d own => Safe anchor installation P d ∧ own = handle) (FileRecord.draft bytes)
      (fun file d own => (Safe anchor installation P d ∧ own = handle) ∧ Draft file bytes d ∧
        (d.files file).synced = true)
      (fun e d own => e = .backendUnavailable ∧ Safe anchor installation P d ∧ own = handle)
      (Safe anchor installation P) := by
  have hk : ∀ d own, Safe anchor installation P d ∧ own = handle →
      Safe anchor installation P d ∧
        (.backendUnavailable = (.backendUnavailable : Error) ∧
          Safe anchor installation P d ∧ own = handle) :=
    fun _ _ h => ⟨h.1, rfl, h⟩
  -- a part of a write is as harmless as the whole
  have hw : ∀ {file : Nat} {wr more : List UInt8},
      Triple
        (fun d own => (Safe anchor installation P d ∧ own = handle) ∧ Draft file wr d)
        (writeAll file more)
        (fun _ d own => (Safe anchor installation P d ∧ own = handle) ∧ Draft file (wr ++ more) d)
        (fun e d own => e = .backendUnavailable ∧ Safe anchor installation P d ∧ own = handle)
        (Safe anchor installation P) := by
    intro file wr more
    refine .op (fun d own h => ⟨⟨h.1.1.append h.2.apart, h.1.2⟩, h.2.append⟩) ?_
    exact fun d own h n => hk _ own ⟨h.1.1.append h.2.apart, h.1.2⟩
  refine .bind (Q := fun _ d own => Safe anchor installation P d ∧ own = handle)
    (removePending_rule (fun _ _ h _ => h) (fun _ _ h => ⟨h.1.removePending, h.2⟩) hk
      fun _ own h => hk _ own ⟨h.1.removePending, h.2⟩) fun _ => ?_
  refine .bind
    (Q := fun file d own => (Safe anchor installation P d ∧ own = handle) ∧ Draft file [] d)
    (createNew_rule (fun _ _ h _ => ⟨⟨h.1.createPending, h.2⟩, .create h.1.wellFormed⟩) hk
      fun _ own h => hk _ own ⟨h.1.createPending, h.2⟩) fun file => ?_
  refine .bind hw fun _ => ?_
  refine .bind hw fun _ => ?_
  rw [nil_append, take_append_drop]
  refine .bind
    (Q := fun _ d own => (Safe anchor installation P d ∧ own = handle) ∧ Draft file bytes d ∧
      (d.files file).synced = true)
    (.op (fun d own h => ⟨⟨h.1.1.syncFile, h.1.2⟩, h.2.syncFile, ?_⟩)
      fun d own h _ => hk d own h.1) fun _ => .pure fun _ _ h => h
  simp [syncFile]

/-- From the rename on either state may be found, and the handle is poisoned until only the new one
can. -/
theorem publish_triple
    (hp : handle.poisoned = false) (hd : decode bytes anchor installation = .ok after) :
    Triple
      (fun d own => (Safe anchor installation P d ∧ own = handle) ∧ Draft file bytes d ∧
        (d.files file).synced = true)
      (FileRecord.publish file)
      (fun _ d own => Safe anchor installation (· = after) d ∧ own = handle)
      (fun e d own => e = .commitUncertain ∧ Safe anchor installation (fun t => P t ∨ t = after) d ∧
        own = { handle with poisoned := true })
      (Safe anchor installation fun t => P t ∨ t = after) := by
  have hk : ∀ d own, Safe anchor installation (fun t => P t ∨ t = after) d ∧
        own = { handle with poisoned := true } →
      Safe anchor installation (fun t => P t ∨ t = after) d ∧
        (.commitUncertain = (.commitUncertain : Error) ∧
          Safe anchor installation (fun t => P t ∨ t = after) d ∧
          own = { handle with poisoned := true }) :=
    fun _ _ h => ⟨h.1, rfl, h⟩
  refine .bind
    (Q := fun _ d own => (Safe anchor installation P d ∧ own = { handle with poisoned := true }) ∧
      Draft file bytes d ∧ (d.files file).synced = true)
    (.modifyOwn fun d own h => ⟨⟨h.1.1, by rw [h.1.2]⟩, h.2⟩) fun _ => ?_
  have hr : ∀ d own,
      (Safe anchor installation P d ∧ own = { handle with poisoned := true }) ∧
        Draft file bytes d ∧ (d.files file).synced = true →
      Safe anchor installation (fun t => P t ∨ t = after) (d.rename .pending .head) :=
    fun d own h => h.1.1.rename h.2.1.entry h.2.2 (h.2.1.bytes_eq ▸ hd)
  refine .bind
    (Q := fun _ d own => (Safe anchor installation (fun t => P t ∨ t = after) d ∧
      own = { handle with poisoned := true }) ∧ Visible anchor installation file after d)
    (renameHead_rule (fun d own h => ⟨⟨hr d own h, h.1.2⟩, ?_⟩)
      (fun d own h => hk d own ⟨h.1.1.mono fun _ => .inl, h.1.2⟩)
      fun d own h => hk _ own ⟨hr d own h, h.1.2⟩) fun _ => ?_
  · refine ⟨?_, h.2.2, ?_⟩
    · rw [entry_rename (by decide), h.2.1.entry]
    · exact h.2.1.bytes_eq ▸ hd
  refine .bind
    (Q := fun _ d own => Safe anchor installation (· = after) d ∧
      own = { handle with poisoned := true })
    (.op (fun d own h => ⟨h.2.safe_syncNames h.1.1.wellFormed h.1.1.entry_lock, h.1.2⟩)
      fun d own h _ => hk d own h.1) fun _ => ?_
  refine .bind
    (Q := fun _ d own => Safe anchor installation (· = after) d ∧
      own = { handle with poisoned := true })
    (.op (fun d own h => ⟨h.1.syncFile, h.2⟩)
      fun d own h _ => hk d own ⟨h.1.mono fun _ => .inr, h.2⟩) fun _ => ?_
  exact .modifyOwn fun d own h => ⟨h.1, by rw [h.2, ← hp]⟩

/-- Why a commit refuses without a doubt. -/
structure Refused (anchor installation : UInt64) (before after : State) (e : Error) : Prop where
  certain : e ≠ .commitUncertain
  invalidRequest : e = .invalidRequest → validSuccessor before after = false
  corruptRecord : e = .corruptRecord → validState anchor installation after = false

theorem refused_backendUnavailable :
    Refused anchor installation before after .backendUnavailable := ⟨nofun, nofun, nofun⟩

/-- A commit installs the new state, refuses and keeps the old one, or is uncertain and poisons the
handle. Stopped anywhere, it leaves one of the two. -/
theorem commit_triple : Triple (Serves anchor installation s)
      (FileRecord.commit anchor' installation' before after)
      (fun _ d own => before = s ∧ Serves anchor installation after d own)
      (fun e d own =>
        Refused anchor' installation' before after e ∧ Serves anchor installation s d own ∨
        e = .commitUncertain ∧ Safe anchor installation (fun t => t = s ∨ t = after) d ∧
          own = { anchor, installation, poisoned := true })
      (Safe anchor installation fun t => t = s ∨ t = after) := by
  have hbe : ∀ {d : Directory Name}, Safe anchor installation (· = s) d →
      Safe anchor installation (fun t => t = s ∨ t = after) d := fun h => h.mono fun _ => .inl
  refine .bind
    (Q := fun self d own => self = { anchor, installation, poisoned := false } ∧
      Serves anchor installation s d own)
    (.getOwn fun _ _ h => ⟨h.handle, h⟩) fun self => ?_
  refine .bind
    (Q := fun _ d own => (self = { anchor, installation, poisoned := false } ∧
      anchor' = anchor ∧ installation' = installation) ∧ Serves anchor installation s d own)
    (.lift (fun _ hb d own h => ⟨⟨h.1, ?_⟩, h.2⟩) fun e hb d own h => .inl ⟨?_, h.2⟩) fun _ => ?_
  · rw [h.1, FileRecord.bound] at hb
    split at hb
    · cases hb
    · exact not_not.mp ‹_›
  · rw [h.1, FileRecord.bound] at hb
    split at hb
    · cases hb
      exact ⟨nofun, nofun, nofun⟩
    · cases hb
  refine .bind
    (Q := fun head d own => (anchor' = anchor ∧ installation' = installation ∧ head = s) ∧
      Serves anchor installation s d own)
    (readHead_triple (P := (· = s)) (fun _ _ h => h.2.safe)
      (fun _ _ _ _ h hs _ _ _ => ⟨⟨h.1.2.1, h.1.2.2, hs⟩, h.2⟩)
      (fun _ _ h => ⟨hbe h.2.safe, .inl ⟨refused_backendUnavailable, h.2⟩⟩)
      fun hse e d own h => ?_) fun head => ?_
  · exact absurd ⟨by rw [h.1.1], by rw [h.1.1]⟩ hse
  split
  · exact .fail fun _ _ h => .inl ⟨⟨nofun, nofun, nofun⟩, h.2⟩
  rename_i hh
  split
  · rename_i hsu
    exact .fail fun _ _ h => .inl ⟨⟨nofun, fun _ => hsu, nofun⟩, h.2⟩
  refine .bind
    (Q := fun bytes d own => (before = s ∧ decode bytes anchor installation = .ok after) ∧
      Serves anchor installation s d own)
    (.lift (fun bytes hby d own h => ⟨?_, h.2⟩) fun e he d own h => .inl ⟨?_, h.2⟩)
    fun bytes => ?_
  · obtain ⟨⟨rfl, rfl, rfl⟩, -⟩ := h
    exact ⟨(not_not.mp hh).symm, decode_encode hby⟩
  · unfold encode at he
    split at he
    · cases he
    · cases he
      exact ⟨nofun, nofun, fun _ => Bool.eq_false_iff.mpr ‹_›⟩
  refine .given fun hby => ?_
  obtain ⟨rfl, hd⟩ := hby
  refine .bind (draft_triple.conseq (fun _ _ h => ⟨h.safe, h.handle⟩) (fun _ _ _ h => h)
      (fun e d own h => .inl ⟨h.1 ▸ refused_backendUnavailable, h.2.2, h.2.1⟩) fun _ h => hbe h)
    fun file => ?_
  exact (publish_triple rfl hd).conseq (fun _ _ h => h) (fun _ _ _ h => ⟨rfl, h.2, h.1⟩)
    (fun _ _ _ h => .inr h) fun _ h => h

/-- Provisioning leaves a safe record of the initial state. -/
theorem create_triple {i : State} :
    Triple (fun d _ => d.WellFormed) (FileRecord.create anchor installation i)
      (fun handle d _ => handle = { anchor, installation, poisoned := false } ∧
        Safe anchor installation (· = i) d)
      (fun _ _ _ => True) (fun _ => True) := by
  have ha : ∀ {F : Directory Name → Unit → Prop} (d : Directory Name) (own : Unit), F d own →
      True ∧ True := fun _ _ _ => ⟨trivial, trivial⟩
  unfold FileRecord.create
  split
  · exact .fail fun _ _ _ => trivial
  refine .bind
    (Q := fun bytes d _ => decode bytes anchor installation = .ok i ∧ d.WellFormed)
    (.lift (fun _ hb _ _ h => ⟨decode_encode hb, h⟩) fun _ _ _ _ _ => trivial)
    fun bytes => .given fun hd => ?_
  refine .bind (succeed_rule ha) fun _ => ?_
  refine .bind (succeed_rule ha) fun _ => ?_
  refine .bind (Q := fun _ d _ => d.WellFormed ∧ (d.entry .lock).isSome = true) ?_ fun lock => ?_
  · refine .bind (Q := fun _ d _ => d.WellFormed ∧ (d.entry .lock).isSome = true)
      (createNew_rule (fun _ _ h _ => ⟨h.create, by rw [entry_create, isSome_some]⟩) ha ha)
      fun _ => ?_
    refine .bind (Q := fun _ d _ => d.WellFormed ∧ (d.entry .lock).isSome = true) ?_
      fun _ => .pure fun _ _ h => h
    exact flock_rule (fun _ _ h => ⟨⟨h.1.current, h.1.fresh⟩, h.2⟩) (fun _ _ _ => trivial) ha ha
  refine .bind (Q := fun _ d _ => d.WellFormed ∧ (d.entry Name.lock).isSome = true)
    (.op (fun _ _ h => ⟨h.1.syncFile, h.2⟩) fun _ _ _ _ => ⟨trivial, trivial⟩) fun _ => ?_
  refine .bind
    (Q := fun file d _ => (d.WellFormed ∧ (d.entry Name.lock).isSome = true) ∧
      d.entry .head = some file ∧ (d.files file).bytes = [])
    (createNew_rule (fun _ _ h _ => ⟨⟨h.1.create, by rw [entry_create_of_ne (by decide), h.2]⟩,
      entry_create, by simp [create]⟩) ha ha) fun head => ?_
  refine .bind
    (Q := fun _ d _ => (d.WellFormed ∧ (d.entry Name.lock).isSome = true) ∧
      d.entry Name.head = some head ∧ (d.files head).bytes = bytes)
    (.op (fun _ _ h => ⟨⟨h.1.1.append, h.1.2⟩, h.2.1, by simp [append, h.2.2]⟩)
      fun _ _ _ _ => ⟨trivial, trivial⟩) fun _ => ?_
  refine .bind
    (Q := fun _ d _ => (d.WellFormed ∧ (d.entry Name.lock).isSome = true) ∧
      Visible anchor installation head i d)
    (.op (fun d _ h => ⟨⟨h.1.1.syncFile, h.1.2⟩, h.2.1, by simp [syncFile], ?_⟩)
      fun _ _ _ _ => ⟨trivial, trivial⟩) fun _ => ?_
  · have hb : ((d.syncFile head).files head).bytes = bytes := by
      simpa [syncFile] using h.2.2
    exact hb ▸ hd
  refine .bind (Q := fun _ d _ => Safe anchor installation (· = i) d)
    (.op (fun _ _ h => h.2.safe_syncNames h.1.1 h.1.2) fun _ _ _ _ => ⟨trivial, trivial⟩)
    fun _ => ?_
  refine .bind (succeed_rule ha) fun _ => ?_
  refine .bind (Q := fun _ d _ => Safe anchor installation (· = i) d)
    (.op (fun _ _ h => h.syncFile) fun _ _ _ _ => ⟨trivial, trivial⟩) fun _ => ?_
  exact .pure fun _ _ h => ⟨rfl, h⟩

/-! ## Between two handles -/

/-- What may happen to the directory while no handle is used: the process that held the lock is
gone, the power is lost, someone tries to open the record. -/
inductive Recovers : Directory Name → Directory Name → Prop
  | processEnds (d : Directory Name) : Recovers d { d with locked := false }
  | powerLoss {d d' : Directory Name} (h : d.Loses d') : Recovers d d'
  | opened {d : Directory Name} {anchor installation : UInt64} {answers : List Answer}
      {result : Except Error FileRecord} {w : World Name Unit}
      (h : FileRecord.open anchor installation { disk := d, answers, own := () } =
        .returned result w) : Recovers d w.disk
  | openStopped {d d' : Directory Name} {anchor installation : UInt64} {answers : List Answer}
      (h : FileRecord.open anchor installation { disk := d, answers, own := () } = .stopped d') :
      Recovers d d'

theorem Safe.recovers (h : Safe anchor installation P d) (hst : Recovers d d') :
    Safe anchor installation P d' := by
  cases hst with
  | processEnds => exact h.setLocked false
  | powerLoss hl => exact h.loses hl
  | @opened _ _ _ r w ho =>
    cases r with
    | ok handle =>
      obtain ⟨s, hs, -, hsa⟩ := open_triple.ok h ho
      exact hsa.mono fun t ht => ht ▸ hs
    | error e => exact open_triple.error h ho
  | openStopped ho => exact open_triple.stopped h ho

theorem Safe.recovered (h : Safe anchor installation P d)
    (hs : Relation.ReflTransGen Recovers d d') : Safe anchor installation P d' := by
  induction hs with
  | refl => exact h
  | tail _ hst ih => exact ih.recovers hst

theorem load_serves {t : State} (h : Serves anchor installation s d own)
    (hl : FileRecord.load anchor' installation' { disk := d, answers, own } = .returned (.ok t) w) :
    t = s ∧ w.disk = d ∧ w.own = own := by
  have htr : Triple (fun d' own' => d' = d ∧ own' = own)
      (FileRecord.load anchor' installation') (fun t d' own' => t = s ∧ d' = d ∧ own' = own)
      (fun _ _ _ => True) (fun _ => True) := by
    refine Triple.bind (Q := fun _ d' own' => d' = d ∧ own' = own)
      (Triple.getOwn fun _ _ h => h) fun self => ?_
    refine Triple.bind (Q := fun _ d' own' => d' = d ∧ own' = own)
      (Triple.lift (fun _ _ _ _ h => h) fun _ _ _ _ _ => trivial) fun _ => ?_
    refine readHead_triple (fun d' _ hd => hd.1 ▸ h.safe) (fun _ _ _ _ hd ht _ _ _ => ⟨ht, hd⟩)
      (fun _ _ _ => ⟨trivial, trivial⟩) fun _ _ _ _ _ => trivial
  exact htr.ok ⟨rfl, rfl⟩ hl

theorem rejects_of_poisoned (h : w.own.poisoned = true) (anchor installation : UInt64) :
    (∃ e, FileRecord.load anchor installation w = .returned (.error e) w) ∧
      ∀ before after, ∃ e,
        FileRecord.commit anchor installation before after w = .returned (.error e) w := by
  have hb : ∃ e, FileRecord.bound anchor installation w.own = .error e := by
    unfold FileRecord.bound
    rw [if_pos h]
    split
    · exact ⟨_, rfl⟩
    · exact ⟨_, rfl⟩
  obtain ⟨e, he⟩ := hb
  have hs : ∀ {α : Type} (f : FileRecord → Prog Name FileRecord Error α),
      (do let self ← Prog.getOwn; Prog.lift (FileRecord.bound anchor installation self); f self) w =
        .returned (.error e) w := by
    intro α f
    change Prog.andThen Prog.getOwn _ w = _
    simp only [Prog.andThen, Prog.getOwn]
    change Prog.andThen (Prog.lift (FileRecord.bound anchor installation w.own)) _ w = _
    simp only [Prog.andThen, Prog.lift, he]
  exact ⟨⟨e, hs _⟩, fun before after => ⟨e, hs _⟩⟩

theorem Safe.opens (h : Safe anchor installation P d) (hf : d.locked = false) :
    (FileRecord.open anchor installation { disk := d, answers := [], own := () }).result =
      some (.ok { anchor, installation, poisoned := false }) := by
  obtain ⟨lock, hl⟩ := isSome_iff_exists.mp h.entry_lock
  obtain ⟨file, s, -, hv⟩ := h.visible
  rw [FileRecord.open, if_neg (not_or.mpr (decode_nonzero hv.decodes))]
  -- every operation is done, so that the program can be evaluated
  cases hp : d.entry .pending <;>
    simp [Prog.andThen, Prog.look, Prog.peek, Prog.op, Prog.whole, Prog.lift, succeed, lockFile,
      openLock, find, flock, readHead, fileBarrier, dirBarrier, FileBackend.removePending,
      Directory.syncFile, Directory.syncNames, hl, hf, hp, hv.entry, hv.take, hv.decodes,
      Ending.result]

/-- Whatever happened since: a reopening serves a state in `P`, and there is one if the host answers
and nobody holds the lock. -/
def Reopens (anchor installation : UInt64) (P : State → Prop) (d : Directory Name) : Prop :=
  ∀ d', Relation.ReflTransGen Recovers d d' →
    (∀ (anchor' installation' : UInt64) (answers : List Answer) (handle : FileRecord)
        (w : World Name Unit),
      FileRecord.open anchor' installation' { disk := d', answers, own := () } =
        .returned (.ok handle) w → ∃ t, P t ∧ Serves anchor installation t w.disk handle) ∧
    (d'.locked = false →
      (FileRecord.open anchor installation { disk := d', answers := [], own := () }).result =
        some (.ok { anchor, installation, poisoned := false }))

theorem Safe.reopens (h : Safe anchor installation P d) : Reopens anchor installation P d := by
  intro d' hs
  refine ⟨fun anchor' installation' answers handle w ho => ?_, (h.recovered hs).opens⟩
  obtain ⟨t, ht, hh, hsa⟩ := open_triple.ok (h.recovered hs) ho
  exact ⟨t, ht, hh, hsa⟩

/-- What a commit may leave, by how it ended. -/
def CommitLeaves (s after : State) (ending : Ending Name FileRecord Error Unit)
    (t : State) : Prop :=
  (t = s ∨ t = after) ∧ (ending.result = some (.ok ()) → t = after) ∧
    ∀ e, ending.result = some (.error e) → e ≠ .commitUncertain → t = s

theorem commit_leaves (h : Serves anchor installation s d own) :
    let ending := FileRecord.commit anchor' installation' before after { disk := d, answers, own }
    Safe anchor installation (CommitLeaves s after ending) ending.disk := by
  intro ending
  cases hen : ending with
  | stopped d' =>
    have hsa := commit_triple.stopped h hen
    exact hsa.mono fun t ht => ⟨ht, nofun, nofun⟩
  | returned r w' =>
    cases r with
    | ok a =>
      have hs := (commit_triple.ok h hen).2
      exact hs.safe.mono fun t ht => ⟨.inr ht, fun _ => ht, nofun⟩
    | error e =>
      rcases commit_triple.error h hen with ⟨-, hs⟩ | ⟨rfl, hsa, -⟩
      · exact hs.safe.mono fun t ht => ⟨.inl ht, nofun, fun _ _ _ => ht⟩
      · refine hsa.mono fun t ht => ⟨ht, nofun, fun e he hn => ?_⟩
        cases he
        exact absurd rfl hn

end Survival

/-- The record is crash consistent. Provisioning serves the initial state. A handle that serves a
state reads exactly that state, and reopening finds it again. However a commit ends and whatever
happens afterwards, the record can be reopened once the host answers and the lock is free, and every
reopening finds the state before or the state after, the one after if the commit returned, the one
before if it failed with certainty. An uncertain handle rejects everything, and what `prepare`
decides to commit is never refused as invalid. -/
theorem crash_consistent (anchor installation : UInt64) :
    (∀ {initial : State} {d : Directory Name} {answers : List Answer} {handle : FileRecord}
        {w : World Name Unit}, d.WellFormed →
      FileRecord.create anchor installation initial { disk := d, answers, own := () } =
        .returned (.ok handle) w → Serves anchor installation initial w.disk handle) ∧
    ∀ {s : State} {d : Directory Name} {own : FileRecord}, Serves anchor installation s d own →
      (∀ {anchor' installation' : UInt64} {answers : List Answer} {t : State}
          {w : World Name FileRecord},
        FileRecord.load anchor' installation' { disk := d, answers, own } = .returned (.ok t) w →
        t = s ∧ w.disk = d ∧ w.own = own) ∧
      Reopens anchor installation (· = s) d ∧
      ∀ (anchor' installation' : UInt64) (before after : State) (answers : List Answer),
        let ending :=
          FileRecord.commit anchor' installation' before after { disk := d, answers, own }
        Reopens anchor installation (CommitLeaves s after ending) ending.disk ∧
        (∀ {w}, ending = .returned (.ok ()) w →
          before = s ∧ Serves anchor installation after w.disk w.own) ∧
        (∀ {e w}, ending = .returned (.error e) w → e ≠ .commitUncertain →
          Serves anchor installation s w.disk w.own) ∧
        (∀ {w later}, ending = .returned (.error .commitUncertain) w → later.own = w.own →
          ∀ a i, (∃ e, FileRecord.load a i later = .returned (.error e) later) ∧
            ∀ b b', ∃ e, FileRecord.commit a i b b' later = .returned (.error e) later) ∧
        ∀ {c : Context} {r : Request} {access : Access} {capacity : Bool},
          c.anchor = anchor' → c.installation = installation' →
          prepare c before r access capacity = .ok (.commit after) →
          validSuccessor before after = true ∧
            (∃ bytes, encode anchor' installation' after = .ok bytes) ∧
            ending.result ≠ some (.error .invalidRequest) ∧
            ending.result ≠ some (.error .corruptRecord) := by
  refine ⟨fun hd hcr => ?_, fun {s d own} hs => ⟨load_serves hs, hs.safe.reopens,
    fun anchor' installation' before after answers => ?_⟩⟩
  · obtain ⟨hh, hsa⟩ := create_triple.ok hd hcr
    exact ⟨hh, hsa⟩
  intro ending
  refine ⟨(commit_leaves hs).reopens, fun hok => commit_triple.ok hs hok,
    fun her hc => ?_, fun hu hl a i => ?_,
    fun ha hi hp => ?_⟩
  · rcases commit_triple.error hs her with ⟨-, hk⟩ | ⟨hun, -⟩
    · exact hk
    · exact absurd hun hc
  · rcases commit_triple.error hs hu with ⟨hr, -⟩ | ⟨-, -, ho⟩
    · exact absurd rfl hr.certain
    · exact rejects_of_poisoned (by rw [hl, ho]) a i
  · subst ha hi
    obtain ⟨hau, hex⟩ := prepare_eq_commit hp
    have hsu := validSuccessor_of_executes hex
    have hv := validState_of_executes hau hex
    refine ⟨hsu, ⟨_, if_pos hv⟩, fun hre => ?_, fun hre => ?_⟩
    · obtain ⟨w, hen⟩ := Ending.eq_of_result hre
      rcases commit_triple.error hs hen with ⟨hr, -⟩ | ⟨hn, -⟩
      · exact absurd (hr.invalidRequest rfl) (by simp [hsu])
      · cases hn
    · obtain ⟨w, hen⟩ := Ending.eq_of_result hre
      rcases commit_triple.error hs hen with ⟨hr, -⟩ | ⟨hn, -⟩
      · exact absurd (hr.corruptRecord rfl) (by simp [hv])
      · cases hn

/-- A directory with nothing in it. -/
def emptyDirectory : Directory Name :=
  { files := fun _ => { bytes := [], synced := false }, next := 0, entry := fun _ => none
    past := fun _ => [none], locked := false }

theorem emptyDirectory_wellFormed : emptyDirectory.WellFormed where
  current _ := mem_singleton_self _
  fresh _ _ h := nomatch mem_singleton.mp h

/-- A record is provisioned, the commit of a selection is stopped at its rename, and the next
process opens the record and serves one of the two states. -/
theorem crash_consistent_select :
    let created := FileRecord.create 1 2 provisioned
      { disk := emptyDirectory, answers := [], own := () }
    let handle : FileRecord := { anchor := 1, installation := 2, poisoned := false }
    let selected : State := { revision := 2, value := 9, boot := 0, last := some selectNine }
    let interrupted := FileRecord.commit 1 2 provisioned selected
      { disk := created.disk, answers := List.replicate 8 .done ++ [.stopped 1], own := handle }
    created.result = some (.ok handle) ∧ Serves 1 2 provisioned created.disk handle ∧
      (∃ w t, FileRecord.open 1 2
          { disk := { interrupted.disk with locked := false }, answers := [], own := () } =
        .returned (.ok handle) w ∧ (t = provisioned ∨ t = selected) ∧ Serves 1 2 t w.disk handle) ∧
      interrupted.result ≠ some (.error .invalidRequest) := by
  intro created handle selected interrupted
  have hr : created.result = some (.ok handle) := by decide
  obtain ⟨w, hc⟩ := Ending.eq_of_result hr
  have hs : Serves 1 2 provisioned created.disk handle := by
    rw [hc]
    exact (crash_consistent 1 2).1 emptyDirectory_wellFormed hc
  have hco := ((crash_consistent 1 2).2 hs).2.2 1 2 provisioned selected
    (List.replicate 8 .done ++ [.stopped 1])
  have hp : prepare selectContext provisioned selectNine selectAccess true =
      .ok (.commit selected) := by decide
  obtain ⟨hf, hop⟩ := hco.1 _ (.single (.processEnds _))
  obtain ⟨w, ho⟩ := Ending.eq_of_result (hop rfl)
  obtain ⟨t, ht, hfo⟩ := hf 1 2 [] handle w ho
  exact ⟨hr, hs, ⟨w, t, ho, ht.1, hfo⟩, (hco.2.2.2.2 rfl rfl hp).2.2.1⟩

end Anka.Authority.FileBackend
