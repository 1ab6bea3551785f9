import Anka.Core.Mutation
import Anka.Core.Returns
import Mathlib.Order.Fin.Basic

/-!
# Events are transparent to a protected program (`core.rs`, `core/heap.rs`)

A protected context moves its complete image aside when it enters an event. The handler then runs
arbitrary code on the same core, is itself interrupted, is parked and resumed by the kernel, and
hands out results.

* **The handler's run** (`Handling`): any calls on the core and on the Fabric during which the event
  stays open. The death path, which takes the frames out of every suspended image, is not part of
  one: no return follows it.
* **What was handed out** (`Answers`) is observed from the calls: the values given to
  `write_syscall_result` and the reply of `commit_heap_event` while the event is the innermost one.

`event_transparent` says what the matching return restores. `reserved_lane_not_exported` is the
boundary of it: a result for one of the three reserved registers is not handed to the program.

The invariant is `Suspended`: below the contexts of the nested events lies the context of this one,
changed by nothing but the answers.
-/

namespace Anka

open Rust Res List Option Anka64Core

/-! ## Answers -/

/-- The committed reply of an allocation syscall. -/
structure HeapReply where
  pointer : Option ScopedPointer
  status : Nat
  malloc : Bool

/-- What the kernel handed to an event: the last value of each lane, and the heap reply. -/
structure Answers where
  results : Register → Option Nat
  reply : Option HeapReply

namespace Answers

/-- Nothing is answered. -/
def none : Answers := { results := fun _ => .none, reply := .none }

/-- The lanes that can be exported. -/
def exported (a : Answers) (i : Fin 13) : Option Nat := a.results (i.castLE lanes_le)

/-- The first pair holds the pointer, and for `malloc` the second one the status. -/
def replyWord (reply : HeapReply) (before : Words) (register : Register) : Nat :=
  if register = 0 then ((reply.pointer.map (·.words)).getD (0, 0)).1
  else if register = 1 then ((reply.pointer.map (·.words)).getD (0, 0)).2
  else if register = 2 ∧ reply.malloc = true then reply.status
  else if register = 3 ∧ reply.malloc = true then 0
  else before register

/-- The pointer kinds after a reply. -/
def replyKind (reply : HeapReply) (before : Kinds) (pair : Fin 6) : Option ScopedPointer :=
  if pair = 0 then reply.pointer
  else if pair = 1 ∧ reply.malloc = true then .none
  else before pair

/-- The word of a register after a syscall with these answers. -/
def word (a : Answers) (before : Words) (register : Register) : Nat :=
  match a.reply with
  | some reply => replyWord reply before register
  | .none => if register.val ≤ 12 then (a.results register).getD (before register)
    else before register

/-- The kind of a pair after a syscall with these answers: a result in either lane takes it. -/
def kind (a : Answers) (before : Kinds) (pair : Fin 6) : Option ScopedPointer :=
  match a.reply with
  | some reply => replyKind reply before pair
  | .none =>
    if (a.exported ⟨2 * pair.val, by omega⟩).isSome = true ∨
        (a.exported ⟨2 * pair.val + 1, by omega⟩).isSome = true then .none
    else before pair

variable {reply : HeapReply} {a : Answers}

theorem word_of_reply (h : a.reply = some reply) (before : Words) :
    a.word before = replyWord reply before := by
  funext register
  simp only [word, h]

theorem kind_of_reply (h : a.reply = some reply) (before : Kinds) :
    a.kind before = replyKind reply before := by
  funext pair
  simp only [kind, h]

end Answers

/-! ## Handlers -/

/-- TRAP is the one instruction that enters an event; a delivery is never a syscall. -/
def CoreOp.isSyscall : CoreOp → Bool
  | .step => true
  | _ => false

/-- The death path. -/
def CoreOp.isTeardown : CoreOp → Bool
  | .retireAllPointerFrames => true
  | _ => false

/-- A system inside an event, and what the event was handed so far. -/
structure Handling where
  system : System
  answers : Answers

namespace Handling

/-- Whether the event that was entered at this depth is the innermost one. -/
def innermost (h : Handling) (depth : Nat) : Bool :=
  h.system.core.eventFrames.length == depth + 1

/-- What a call hands to the event entered at this depth. Nothing is handed out after a reply. -/
def observe (depth : Nat) (h : Handling) : CoreOp → Answers
  | .writeSyscallResult register value =>
    if h.innermost depth = true ∧ h.answers.reply.isNone = true then
      { h.answers with results := Function.update h.answers.results register (some value) }
    else h.answers
  | .commitHeapEvent permit pointer status malloc =>
    match (h.system.core.commitHeapEvent permit pointer status malloc : Res HeapError _) with
    | ok _ =>
      if h.innermost depth = true then
        { h.answers with reply := some { pointer, status, malloc } }
      else h.answers
    | _ => h.answers
  | _ => h.answers

/-- One call, observed. -/
def step (depth : Nat) (h : Handling) (op : CoreOp) : Option Handling :=
  (h.system.run op).map fun system => { system, answers := h.observe depth op }

/-- The calls of a handler: the event stays open, and the process is not torn down. -/
def Open (depth : Nat) (h : Handling) (op : CoreOp) : Prop :=
  op.isTeardown = false ∧
    ((h.system.run op).all fun s' => decide (depth < s'.core.eventFrames.length)) = true
  deriving Decidable

/-- Any run of a handler, with whatever nested events. -/
def Run (depth : Nat) : Handling → Handling → Prop := Machine.Run (step depth) (Open depth)

end Handling

namespace Anka64Core

variable {c c' : Anka64Core} {f f' : Fabric}

/-- The image an event moves aside. -/
def registerImage (c : Anka64Core) : EventRegisterImage :=
  { words := c.r, kinds := c.pointerPairs, flags := c.flags, returnStack := c.returnStack
    halted := c.halted, frames := c.pointerFrames }

/-- The core a return leaves: the state of `before`, and for a syscall the answers over it. -/
structure Resumes (before : Anka64Core) (resume : Nat) (syscall : Bool) (a : Answers)
    (c : Anka64Core) : Prop where
  words : c.r = if syscall = true then a.word before.r else before.r
  kinds : c.pointerPairs = if syscall = true then a.kind before.pointerPairs
    else before.pointerPairs
  flags : c.flags = before.flags
  returnStack : c.returnStack = before.returnStack
  halted : c.halted = before.halted
  frames : c.pointerFrames = before.pointerFrames
  privilege : c.privilege = before.privilege
  interrupts : c.interruptsEnabled = before.interruptsEnabled
  pc : c.pc = resume

/-! ## What a call does to the event stacks -/

/-- Nothing of the events changed, and a protected context stays one. -/
structure SameEvents (c c' : Anka64Core) : Prop where
  saved : c'.savedEventContexts = c.savedEventContexts
  frames : c'.eventFrames = c.eventFrames
  context : c'.contextId = c.contextId
  domain : c'.domain = c.domain
  privilege : c'.privilege = c.privilege
  addressMap : c'.addressMap = c.addressMap
  guarded : c.protectedContextEnabled = true → c'.protectedContextEnabled = true

theorem SameEvents.refl (c : Anka64Core) : c.SameEvents c := ⟨rfl, rfl, rfl, rfl, rfl, rfl, id⟩

/-- The context an event of a protected core pushes. -/
def savedBy (c : Anka64Core) (header : EventFrame) : SavedEventContext :=
  { eventId := c.nextEventId, resultConsumed := false, header, contextId := c.contextId
    domain := c.domain, image := some c.registerImage, scalarResults := fun _ => none }

/-- A protected core entered an event. -/
structure Enters (c : Anka64Core) (header : EventFrame) (c' : Anka64Core) : Prop where
  saved : c'.savedEventContexts = c.savedBy header :: c.savedEventContexts
  frames : c'.eventFrames = header :: c.eventFrames
  context : c'.contextId = c.contextId
  domain : c'.domain = c.domain
  privilege : c'.privilege = .supervisor
  guarded : c'.protectedContextEnabled = true

/-- What a call other than the two that hand something out does to the events of a protected core;
`syscall` says whether an event it enters is one. -/
inductive Turns (c : Anka64Core) (syscall : Bool) (c' : Anka64Core) : Observation → Prop
  | same {seen : Observation} (h : c.SameEvents c') (henter : ∀ resume, seen ≠ .enter resume)
      (hleave : seen ≠ .leave) : Turns c syscall c' seen
  | enters (resume : Nat) (cause : EventCause) (hcause : (cause = .syscall) = (syscall = true))
      (h : c.Enters (c.headerAt resume cause) c') : Turns c syscall c' (.enter resume)
  | leaves (h : c.eventReturn = some c') : Turns c syscall c' .leave

theorem Turns.quiet {sy : Bool} (h : c.SameEvents c') : c.Turns sy c' .quiet :=
  .same h nofun nofun

theorem enterEvent_enters (hdr : EventFrame) (hg : c.protectedContextEnabled = true) :
    c.Enters hdr (c.enterEvent hdr) where
  saved := by simp [enterEvent, savedBy, registerImage, hg]
  frames := rfl
  context := rfl
  domain := rfl
  privilege := rfl
  guarded := hg

theorem Rewrites.sameEvents (h : c.Rewrites c') : c.SameEvents c' := by
  obtain ⟨_, _, _, _, hen, rfl⟩ := h
  exact ⟨rfl, rfl, rfl, rfl, rfl, rfl, hen⟩

variable {next : Nat} {sem : Sem}

theorem SameEvents.withPc (h : c.SameEvents c') (next : Nat) :
    c.SameEvents { c' with pc := next } :=
  { h with }

theorem observeInsn_quiet (ht : sem ≠ .trap) (her : sem ≠ .eret) :
    (∀ resume, c.observeInsn f sem ≠ .enter resume) ∧ c.observeInsn f sem ≠ .leave := by
  cases sem <;> simp_all only [observeInsn, callSite, ne_eq, not_true, reduceCtorEq,
    not_false_eq_true, implies_true, and_self]
  -- a CALL shows its site, or nothing when it has none
  split
  · split <;> simp
  · simp

theorem Effect.events (h : c.Effect f sem c' f') :
    sem ≠ .trap ∧ sem ≠ .eret ∧ c.SameEvents c' ∨
    sem = .trap ∧ c' = { c.trapInsn (c.pc + 4) with pc := c.trapVector } ∨
    sem = .eret ∧ c.eventReturn = some c' := by
  have hp (hs : sem.movesControl = false) : sem ≠ .trap ∧ sem ≠ .eret := by
    constructor <;> (rintro rfl; cases hs)
  cases h with
  | scalar _ _ _ _ _ hs | quiet _ _ _ hs =>
    exact .inl ⟨(hp hs).1, (hp hs).2, rfl, rfl, rfl, rfl, rfl, rfl, id⟩
  | installed _ _ _ c1 next hs _ hi =>
    exact .inl ⟨(hp hs).1, (hp hs).2, (installPointer_rewrites _ _ c1 hi).sameEvents.withPc next⟩
  | stored | halted => exact .inl ⟨nofun, nofun, rfl, rfl, rfl, rfl, rfl, rfl, id⟩
  | framed i c1 next hf =>
    exact .inl ⟨nofun, nofun, (enterPointerFrame_rewrites i _ hf).sameEvents.withPc next⟩
  | unframed c1 next hf =>
    exact .inl ⟨nofun, nofun, (leavePointerFrame_rewrites _ hf).sameEvents.withPc next⟩
  | called _ c1 next hc =>
    obtain ⟨_, _, _, -, -, -, -, rfl⟩ := callInsn_eq_ok hc
    exact .inl ⟨nofun, nofun, rfl, rfl, rfl, rfl, rfl, rfl, id⟩
  | returned c1 next hre =>
    obtain ⟨_, _, -, -, -, -, rfl⟩ := retInsn_eq_ok hre
    exact .inl ⟨nofun, nofun, rfl, rfl, rfl, rfl, rfl, rfl, id⟩
  | trapped => exact .inr (.inl ⟨rfl, rfl⟩)
  | resumed _ hr => exact .inr (.inr ⟨rfl, hr⟩)

theorem Effect.turns (hg : c.protectedContextEnabled = true) (h : c.Effect f sem c' f') :
    c.Turns true c' (c.observeInsn f sem) := by
  obtain ⟨ht, her, hs⟩ | ⟨rfl, rfl⟩ | ⟨rfl, hr⟩ := h.events
  · exact .same hs (observeInsn_quiet ht her).1 (observeInsn_quiet ht her).2
  · have hen := enterEvent_enters (c.headerAt (c.pc + 4) .syscall) hg
    exact .enters _ .syscall (by simp) { hen with }
  · exact .leaves hr

theorem deliverPending_turns (hg : c.protectedContextEnabled = true) :
    c.Turns false c.deliverPending.2
      (if c.deliverPending.1 = true then .enter c.pc else .quiet) := by
  unfold deliverPending
  split
  · exact .same (.refl c) nofun nofun
  · split
    · exact .same (.refl c) nofun nofun
    · rename_i cause pending turn ha
      have hcause : cause ≠ .syscall := by
        unfold arbitrate at ha
        split at ha
        · cases ha
        · cases ha; nofun
        · cases ha; nofun
        · split at ha <;> cases ha <;> nofun
      have hen := @enterEvent_enters { c with pending := pending, interruptTurn := turn }
        (c.headerAt c.pc cause) hg
      exact .enters _ cause (by simp [hcause]) { hen with }

end Anka64Core

namespace System

variable {s s' : System}

theorem tryCore_eq_some {ε : Type} {x : Res ε (Anka64Core × Fabric)}
    (h : s.tryCore x = some s') : x = ok (s'.core, s'.fabric) ∨ s' = s := by
  unfold tryCore at h
  split at h
  · obtain rfl := some.inj h
    exact .inl rfl
  · exact .inr (some.inj h).symm
  · cases h

/-- The calls that hand something to an event, and the death path. -/
def handsOut : CoreOp → Bool
  | .writeSyscallResult _ _ | .commitHeapEvent _ _ _ _ | .retireAllPointerFrames => true
  | _ => false

theorem handsOut_of_observe (s : System) {op : CoreOp} (h : s.observe op ≠ .quiet) :
    handsOut op = false := by
  cases op <;> first | rfl | exact absurd rfl h

theorem run_turns {op : CoreOp} (hg : s.core.protectedContextEnabled = true)
    (hop : handsOut op = false) (h : s.run op = some s') :
    s.core.Turns op.isSyscall s'.core (s.observe op) := by
  cases op with
  | step =>
    rcases run_step h with ⟨ho, hc⟩ | ⟨r, insn, f, hex, ho⟩
    · rw [ho, hc]
      exact .quiet (.refl _)
    · rw [ho]
      exact (execute_effect hex).turns hg
  | deliverPending =>
    obtain rfl := some.inj h
    exact deliverPending_turns hg
  | eventReturn =>
    obtain rfl := some.inj h
    cases hr : s.core.eventReturn with
    | none =>
      simp only [observe, hr]
      exact .quiet (.refl _)
    | some core =>
      simp only [observe, hr]
      exact .leaves hr
  | postTimerInterrupt | postDeviceInterrupt | setHalted _ | bindHeapProcess _ =>
    obtain rfl := some.inj h
    exact .quiet ⟨rfl, rfl, rfl, rfl, rfl, rfl, id⟩
  | enableProtectedContext =>
    refine .quiet ?_
    obtain h | rfl := tryCore_eq_some h
    · simp only [enableProtectedContext, eq_ok] at h
      obtain ⟨_, ⟨-, rfl⟩, hc, -⟩ := h
      rw [← hc]
      exact ⟨rfl, rfl, rfl, rfl, rfl, rfl, fun _ => rfl⟩
    · exact .refl _
  | admitPointerProgram p co sta st =>
    refine .quiet ?_
    obtain h | rfl := tryCore_eq_some h
    · exact (Anka64Core.admitPointerProgram_rewrites _ _ _ _ _ h).sameEvents
    · exact .refl _
  | fabric op =>
    obtain ⟨fabric, -, rfl⟩ := map_eq_some_iff.mp h
    exact .quiet (.refl _)
  | writeSyscallResult _ _ | commitHeapEvent _ _ _ _ | retireAllPointerFrames => cases hop

end System

/-! ## What a return restores -/

namespace Anka64Core

variable {c c' c0 : Anka64Core}

section

variable (results : Fin 13 → Option Nat)
include results

theorem writeResult_words (c : Anka64Core) (i : Fin 13) (register : Register) :
    (writeResult results c i).r register =
      if register.val = i.val then (results i).getD (c.r register) else c.r register := by
  cases hr : results i <;>
    simp [writeResult, hr, writeRegister, Function.update_apply, Fin.ext_iff]

theorem foldl_writeResult_words (l : List (Fin 13)) (c : Anka64Core) (register : Register) :
    (l.foldl (writeResult results) c).r register =
      if h : register.val < 13 then
        if ⟨register.val, h⟩ ∈ l then (results ⟨register.val, h⟩).getD (c.r register)
        else c.r register
      else c.r register := by
  induction l generalizing c with
  | nil => simp
  | cons i l ih =>
    rw [foldl_cons, ih, writeResult_words]
    by_cases hi : register.val = i.val
    · -- the lane itself: the write is what a later occurrence would find
      cases hr : results i <;> simp [hi, hr]
    · simp [hi, Fin.ext_iff]

theorem writeResult_kinds (c : Anka64Core) (i : Fin 13)
    (pair : Fin 6) : (writeResult results c i).pointerPairs pair =
      if i.val / 2 = pair.val ∧ (results i).isSome = true then none else c.pointerPairs pair := by
  cases hr : results i with
  | none => simp [writeResult, hr]
  | some v =>
    simp only [writeResult, hr, writeRegister, isSome_some, and_true]
    by_cases hp : i.val / 2 = pair.val
    · have hl : (i.castLE (by decide) : Register).val < 12 := by simp; omega
      have heq : pairOf (i.castLE (by decide)) hl = pair := Fin.ext hp
      rw [dif_pos hl, heq, if_pos hp, Function.update_self]
    · rw [if_neg hp]
      by_cases hl : (i.castLE (by decide) : Register).val < 12
      · rw [dif_pos hl]
        exact Function.update_of_ne (fun h => hp (by rw [h]; rfl)) _ _
      · rw [dif_neg hl]

theorem foldl_writeResult_kinds (l : List (Fin 13)) (c : Anka64Core) (pair : Fin 6) :
    (l.foldl (writeResult results) c).pointerPairs pair =
      if ∃ i ∈ l, i.val / 2 = pair.val ∧ (results i).isSome = true then none
      else c.pointerPairs pair := by
  induction l generalizing c with
  | nil => simp
  | cons i l ih =>
    rw [foldl_cons, ih, writeResult_kinds]
    by_cases hr : ∃ j ∈ l, j.val / 2 = pair.val ∧ (results j).isSome = true
    · rw [if_pos hr, if_pos]
      obtain ⟨j, hj, hre⟩ := hr
      exact ⟨j, mem_cons_of_mem i hj, hre⟩
    · simp only [exists_mem_cons_iff, hr, or_false, if_false]

end

theorem writeResults_words (a : Answers) (ha : a.reply = none) :
    (c.writeResults a.exported).r = a.word c.r := by
  funext register
  rw [writeResults_eq_foldl, foldl_writeResult_words]
  simp only [Answers.word, ha, mem_finRange, if_true]
  by_cases hl : register.val < 13
  · rw [dif_pos hl, if_pos (by omega)]
    rfl
  · rw [dif_neg hl, if_neg (by omega)]

theorem writeResults_kinds (a : Answers) (ha : a.reply = none) :
    (c.writeResults a.exported).pointerPairs = a.kind c.pointerPairs := by
  funext pair
  rw [writeResults_eq_foldl, foldl_writeResult_kinds]
  simp only [Answers.kind, ha, mem_finRange, true_and]
  refine if_congr ⟨?_, ?_⟩ rfl rfl
  · rintro ⟨i, hp, hr⟩
    obtain hev | ho : i.val = 2 * pair.val ∨ i.val = 2 * pair.val + 1 := by omega
    · exact .inl (by rwa [← show i = ⟨2 * pair.val, by omega⟩ from Fin.ext hev])
    · exact .inr (by rwa [← show i = ⟨2 * pair.val + 1, by omega⟩ from Fin.ext ho])
  · rintro (hr | hr)
    · exact ⟨_, by simp, hr⟩
    · exact ⟨_, by simp; omega, hr⟩

theorem writeResults_none (results : Fin 13 → Option Nat) (h : ∀ i, results i = none) :
    c.writeResults results = c := by
  rw [writeResults_eq_foldl]
  refine List.foldlRecOn (motive := fun c1 : Anka64Core => c1 = c) (List.finRange 13) _ rfl
    fun c1 hc1 i _ => ?_
  rw [writeResult, h i]
  exact hc1

theorem withReply_words (i : EventRegisterImage) (reply : HeapReply) :
    (i.withReply reply.pointer reply.status reply.malloc).words =
      Answers.replyWord reply i.words := by
  funext register
  unfold EventRegisterImage.withReply Answers.replyWord
  cases reply.malloc <;> simp [Function.update_apply]
  · by_cases h1 : register = 1 <;> by_cases h0 : register = 0 <;> simp_all
  · by_cases h3 : register = 3 <;> by_cases h2 : register = 2 <;> by_cases h1 : register = 1 <;>
      by_cases h0 : register = 0 <;> simp_all

theorem withReply_kinds (i : EventRegisterImage) (reply : HeapReply) :
    (i.withReply reply.pointer reply.status reply.malloc).kinds =
      Answers.replyKind reply i.kinds := by
  funext pair
  unfold EventRegisterImage.withReply Answers.replyKind
  cases reply.malloc <;> simp [Function.update_apply]
  by_cases h1 : pair = 1 <;> by_cases h0 : pair = 0 <;> simp_all

variable {saved : SavedEventContext} {rest : List SavedEventContext}

theorem eventReturn_pops {hdr : EventFrame} {fr : List EventFrame} (h : c.eventReturn = some c')
    (hf : c.eventFrames = hdr :: fr) (hs : c.savedEventContexts = saved :: rest) :
    c'.eventFrames = fr ∧ c'.savedEventContexts = rest ∧ c'.contextId = c.contextId ∧
      c'.domain = c.domain ∧ c'.privilege = hdr.returnPrivilege ∧
      c'.addressMap = c.addressMap ∧ c'.protectedContextEnabled = c.protectedContextEnabled := by
  obtain ⟨_, _, _, _, hf', hs', -, -, rfl⟩ := eventReturn_eq_some h
  obtain ⟨rfl, rfl⟩ := List.cons.inj (hf.symm.trans hf')
  obtain ⟨rfl, rfl⟩ := List.cons.inj (hs.symm.trans hs')
  cases saved.image with
  | none => exact ⟨rfl, rfl, rfl, rfl, rfl, rfl, rfl⟩
  | some i =>
    simp only [restoreImage]
    split
    · -- the results are register writes
      rw [writeResults_eq_foldl]
      obtain ⟨w, k, heq⟩ := foldl_writeResult_frame saved.scalarResults (List.finRange 13)
        { c with
          savedEventContexts := rest, eventFrames := fr, r := i.words
          pointerPairs := i.kinds, flags := i.flags, returnStack := i.returnStack
          pointerFrames := i.frames, halted := i.halted }
      simp [heq]
    · simp

theorem eventReturn_addressMap (h : c.eventReturn = some c') : c'.addressMap = c.addressMap := by
  obtain ⟨_, _, _, _, hf, hs, -⟩ := eventReturn_eq_some h
  obtain ⟨-, -, -, -, -, hm, -⟩ := eventReturn_pops h hf hs
  exact hm

/-! ## The suspended event -/

/-- The context of an event after these answers. -/
def savedWith (c : Anka64Core) (header : EventFrame) (a : Answers) : SavedEventContext :=
  { c.savedBy header with
    image := some (match a.reply with
      | some reply => c.registerImage.withReply reply.pointer reply.status reply.malloc
      | none => c.registerImage)
    resultConsumed := a.reply.isSome
    scalarResults := if header.cause = .syscall then a.exported else fun _ => none }

/-- Inside an event of a protected core that was `c0`: its context lies below those of the nested
events, with the answers in it and otherwise as it was saved. -/
structure Suspended (c0 : Anka64Core) (header : EventFrame) (a : Answers) (c : Anka64Core) : Prop
    where
  layers : ∃ contexts frames,
    c.savedEventContexts = contexts ++ c0.savedWith header a :: c0.savedEventContexts ∧
    c.eventFrames = frames ++ header :: c0.eventFrames ∧ contexts.length = frames.length ∧
    ∀ nested ∈ frames, nested.returnPrivilege = .supervisor
  context : c.contextId = c0.contextId
  domain : c.domain = c0.domain
  privilege : c.privilege = .supervisor
  guarded : c.protectedContextEnabled = true
  /-- A reply is the answer to a syscall, and its only one. -/
  reply : a.reply.isSome = true → header.cause = .syscall ∧ ∀ i, a.exported i = none

variable {hdr : EventFrame} {a : Answers}

theorem Enters.suspended (h : c0.Enters hdr c) : c0.Suspended hdr .none c where
  __ := h
  layers := by
    refine ⟨[], [], ?_, h.frames, rfl, nofun⟩
    rw [h.saved, nil_append]
    refine congrArg (· :: _) ?_
    have hr : (if hdr.cause = .syscall then Answers.none.exported else fun _ => none) =
        (fun _ => none : Fin 13 → Option Nat) := by
      split <;> rfl
    simp only [savedWith, hr]
    rfl
  reply := nofun

theorem SameEvents.suspended (h : c.SameEvents c') (hc : c0.Suspended hdr a c) :
    c0.Suspended hdr a c' where
  layers := by
    rw [h.saved, h.frames]
    exact hc.layers
  context := h.context.trans hc.context
  domain := h.domain.trans hc.domain
  privilege := h.privilege.trans hc.privilege
  guarded := h.guarded hc.guarded
  reply := hc.reply

theorem Suspended.enter (hc : c0.Suspended hdr a c) {r : Nat} {ca : EventCause}
    (h : c.Enters (c.headerAt r ca) c') : c0.Suspended hdr a c' where
  layers := by
    obtain ⟨co, fr, hs, hf, hl, hn⟩ := hc.layers
    refine ⟨_ :: co, _ :: fr, by rw [h.saved, hs]; rfl, by rw [h.frames, hf]; rfl,
      congrArg (· + 1) hl, ?_⟩
    intro n hm
    obtain rfl | hm := mem_cons.mp hm
    · exact hc.privilege
    · exact hn n hm
  context := h.context.trans hc.context
  domain := h.domain.trans hc.domain
  privilege := h.privilege
  guarded := h.guarded
  reply := hc.reply

theorem Suspended.leave (hc : c0.Suspended hdr a c) (h : c.eventReturn = some c')
    (ho : c0.eventFrames.length < c'.eventFrames.length) : c0.Suspended hdr a c' := by
  obtain ⟨co, fr, hsa, hfr, hl, hn⟩ := hc.layers
  cases fr with
  | nil =>
    -- the return of the event itself would close it
    obtain rfl := length_eq_zero_iff.mp hl
    obtain ⟨hp, -⟩ := eventReturn_pops h hfr hsa
    rw [hp] at ho
    exact absurd ho (lt_irrefl _)
  | cons top fr =>
    cases co with
    | nil => cases hl
    | cons saved co =>
      obtain ⟨hf, hs, hco, hd, hpr, -, hg⟩ := eventReturn_pops h hfr hsa
      exact {
        layers := ⟨co, fr, hs, hf, Nat.succ.inj hl,
          fun nested hm => hn nested (mem_cons_of_mem _ hm)⟩
        context := hco.trans hc.context
        domain := hd.trans hc.domain
        privilege := hpr.trans (hn top mem_cons_self)
        guarded := hg.trans hc.guarded
        reply := hc.reply }

/-! ## Results and replies -/

theorem recorded_savedWith (hc : c.contextId = c0.contextId) (hd : c.domain = c0.domain)
    (hp : c.privilege = .supervisor) (hr : a.reply = none) (register : Register)
    (v : Nat) : c.recorded (c0.savedWith hdr a) register v =
      c0.savedWith hdr { a with results := Function.update a.results register (some v) } := by
  unfold recorded
  by_cases hl : register.val ≤ 12
  · rw [dif_pos hl]
    by_cases hcause : hdr.cause = .syscall
    · rw [if_pos ⟨hp, hc.symm, hd.symm, hcause, rfl, by simp [savedWith, hr]⟩]
      simp only [savedWith, hcause, if_true, SavedEventContext.mk.injEq, true_and]
      funext i
      unfold Answers.exported
      by_cases hi : i = ⟨register.val, by omega⟩
      · subst hi
        simp
      · have hn : (i.castLE (by decide) : Register) ≠ register :=
          fun h => hi (Fin.ext (by simp [← h]))
        simp [hi, hn]
    · rw [if_neg fun h => hcause h.2.2.2.1]
      simp [savedWith, hcause]
  · -- a reserved lane is not among the exported ones
    rw [dif_neg hl]
    have hex : Answers.exported { a with
        results := Function.update a.results register (some v) } = a.exported := by
      funext i
      refine Function.update_of_ne (fun h => hl ?_) _ _
      rw [← h, Fin.val_castLE]
      omega
    simp only [savedWith, hex]

end Anka64Core

/-! ## The run of a handler -/

namespace Handling

variable {h h' : Handling} {c0 : Anka64Core} {hdr : EventFrame}

/-- The state of a handler of the event that `c0` entered. -/
def Holds (c0 : Anka64Core) (header : EventFrame) (h : Handling) : Prop :=
  c0.Suspended header h.answers h.system.core

theorem innermost_iff {co : List SavedEventContext} {fr : List EventFrame}
    (hf : h.system.core.eventFrames = fr ++ hdr :: c0.eventFrames) (hl : co.length = fr.length) :
    h.innermost c0.eventFrames.length = true ↔ co = [] := by
  unfold innermost
  rw [hf, beq_iff_eq, ← length_eq_zero_iff, length_append, length_cons]
  omega

theorem Holds.result (hh : Holds c0 hdr h) (r : Register) (v : Nat) :
    c0.Suspended hdr (h.observe c0.eventFrames.length (.writeSyscallResult r v))
      (h.system.core.writeSyscallResult r v) := by
  obtain ⟨contexts, frames, hs, hf, hl, hn⟩ := hh.layers
  have hi := innermost_iff hf hl
  cases contexts with
  | cons top contexts =>
    -- the event of a nested context
    rw [cons_append] at hs
    simp only [observe, hi, reduceCtorEq, false_and, if_false, writeSyscallResult_eq hs]
    exact { hh with layers := ⟨_ :: contexts, frames, rfl, hf, hl, hn⟩ }
  | nil =>
    rw [nil_append] at hs
    obtain rfl := length_eq_zero_iff.mp hl.symm
    rw [writeSyscallResult_eq hs]
    cases hr : h.answers.reply with
    | none =>
      rw [recorded_savedWith hh.context hh.domain hh.privilege hr]
      simp only [observe, hi, hr, isNone_none, and_self, if_true]
      exact { hh with layers := ⟨[], [], rfl, hf, rfl, nofun⟩, reply := by simp }
    | some reply =>
      -- after a reply nothing is recorded any more
      have hre : h.system.core.recorded (c0.savedWith hdr h.answers) r v =
          c0.savedWith hdr h.answers := by
        unfold recorded
        split
        · rw [if_neg fun ho => by simp [savedWith, hr] at ho]
        · rfl
      simp only [observe, hr, isNone_some, Bool.false_eq_true, and_false, if_false, hre]
      exact { hh with layers := ⟨[], [], rfl, hf, rfl, nofun⟩ }

theorem Holds.commit (hh : Holds c0 hdr h) {p : HeapEventPermit} {pointer : Option ScopedPointer}
    {status : Nat} {malloc : Bool} {c' : Anka64Core}
    (hc : (h.system.core.commitHeapEvent p pointer status malloc : Res HeapError _) = ok c') :
    c0.Suspended hdr
      (h.observe c0.eventFrames.length (.commitHeapEvent p pointer status malloc)) c' := by
  obtain ⟨saved, rest, im, hs', him, hcause, hu, hn, rfl⟩ :=
    commitHeapEvent_eq_ok hc
  obtain ⟨contexts, frames, hs, hf, hl, hns⟩ := hh.layers
  have hin := innermost_iff hf hl
  have ho : h.observe c0.eventFrames.length (.commitHeapEvent p pointer status malloc) =
      if h.innermost c0.eventFrames.length = true then
        { h.answers with reply := some { pointer, status, malloc } } else h.answers := by
    simp only [observe, hc]
  rw [ho]
  cases contexts with
  | cons top contexts =>
    obtain ⟨rfl, rfl⟩ := List.cons.inj (hs'.symm.trans hs)
    rw [if_neg fun hi => by simpa using hin.mp hi]
    exact { hh with layers := ⟨_ :: contexts, frames, rfl, hf, hl, hns⟩ }
  | nil =>
    obtain ⟨rfl, rfl⟩ := List.cons.inj (hs'.symm.trans hs)
    obtain rfl := length_eq_zero_iff.mp hl.symm
    rw [if_pos (hin.mpr rfl)]
    have hcause' : hdr.cause = .syscall := hcause
    have hr : h.answers.reply = none := by
      simpa [savedWith] using hu
    have hex : ∀ i, h.answers.exported i = none := by
      simpa [savedWith, hcause'] using hn
    have him' : im = c0.registerImage := by
      simpa [savedWith, hr, eq_comm] using him
    refine { hh with
      layers := ⟨[], [], ?_, hf, rfl, nofun⟩, reply := fun _ => ⟨hcause', hex⟩ }
    rw [him']
    rfl

/-- **One call of a handler** keeps the event suspended, with what the call handed out. -/
theorem Holds.step {op : CoreOp} (hh : Holds c0 hdr h) (hop : h.Open c0.eventFrames.length op)
    (hs : h.step c0.eventFrames.length op = some h') : Holds c0 hdr h' := by
  obtain ⟨s', hr, rfl⟩ := map_eq_some_iff.mp hs
  have hd : c0.eventFrames.length < s'.core.eventFrames.length := by
    simpa [hr] using hop.2
  by_cases ho : System.handsOut op = true
  · cases op with
    | writeSyscallResult r v =>
      obtain rfl := some.inj hr
      exact hh.result r v
    | commitHeapEvent pe p st m =>
      unfold System.run at hr
      cases hc : (h.system.core.commitHeapEvent pe p st m : Res HeapError _) with
      | ok c' =>
        simp only [hc, ok_bind, System.tryCore, pure_eq, some.injEq] at hr
        subst hr
        exact hh.commit hc
      | err e =>
        simp only [hc, err_bind, System.tryCore, some.injEq] at hr
        subst hr
        simpa only [Holds, observe, hc] using hh
      | panic => simp [hc, System.tryCore] at hr
    | retireAllPointerFrames => cases hop.1
    | _ => cases ho
  · have ha : h.observe c0.eventFrames.length op = h.answers := by
      cases op <;> first | rfl | exact absurd rfl ho
    unfold Holds
    rw [ha]
    have ht := System.run_turns hh.guarded (by simpa using ho) hr
    generalize h.system.observe op = seen at ht
    cases ht with
    | same hsa => exact hsa.suspended hh
    | enters re ca _ hen => exact .enter hh hen
    | leaves hre => exact .leave hh hre hd

theorem Run.holds (hr : Run c0.eventFrames.length h h') (hh : Holds c0 hdr h) :
    Holds c0 hdr h' :=
  Machine.Run.invariant (fun _ _ _ hi ho hs => .step hi ho hs) hr hh

end Handling

/-- The return of the event itself: its image comes back, with the answers of a syscall. -/
theorem Anka64Core.Suspended.resumes {c0 c c' : Anka64Core} {r : Nat} {cause : EventCause}
    {a : Answers} (hc : c0.Suspended (c0.headerAt r cause) a c)
    (hi : c.eventFrames.length = c0.eventFrames.length + 1) (h : c.eventReturn = some c') :
    c0.Resumes r (decide (cause = .syscall)) a c' := by
  obtain ⟨co, fr, hsa, hf, hl, -⟩ := hc.layers
  have hz : fr.length = 0 := by
    rw [hf, length_append, length_cons] at hi
    omega
  obtain rfl := length_eq_zero_iff.mp hz
  obtain rfl := length_eq_zero_iff.mp hl
  obtain ⟨hdr, fr, saved, rest, hf', hsa', -, -, rfl⟩ := eventReturn_eq_some h
  obtain ⟨rfl, rfl⟩ := List.cons.inj (hf.symm.trans hf')
  obtain ⟨rfl, rfl⟩ := List.cons.inj (hsa.symm.trans hsa')
  have hcause : (c0.headerAt r cause).cause = cause := rfl
  cases hr : a.reply with
  | none =>
    simp only [savedWith, hr, hcause, restoreImage]
    by_cases hs : cause = .syscall
    · -- the results are written over the image
      simp only [hs, if_true, decide_true]
      have hw := fun c => @writeResults_words c a hr
      have hk := fun c => @writeResults_kinds c a hr
      have hfr := fun c => foldl_writeResult_frame a.exported (List.finRange 13) c
      simp only [← writeResults_eq_foldl] at hfr
      refine ⟨?_, ?_, ?_, ?_, ?_, ?_, rfl, rfl, rfl⟩
      · rw [hw]; rfl
      · rw [hk]; rfl
      all_goals
        obtain ⟨w, k, heq⟩ := hfr _
        rw [heq]
        rfl
    · simp only [hs, if_false, decide_false]
      exact ⟨rfl, rfl, rfl, rfl, rfl, rfl, rfl, rfl, rfl⟩
  | some reply =>
    obtain ⟨hs, hn⟩ := hc.reply (by simp [hr])
    obtain rfl : cause = .syscall := hs
    simp only [savedWith, hr, hcause, restoreImage, if_true, decide_true, writeResults_none _ hn]
    obtain ⟨w, k, heq⟩ := withReply_frame c0.registerImage reply.pointer reply.status reply.malloc
    refine ⟨?_, ?_, ?_, ?_, ?_, ?_, rfl, rfl, rfl⟩
    · rw [withReply_words, Answers.word_of_reply hr, if_pos rfl]; rfl
    · rw [withReply_kinds, Answers.kind_of_reply hr, if_pos rfl]; rfl
    all_goals
      rw [heq]
      rfl

/-- **Events are transparent to a protected program.** An event is entered, by TRAP or by a
delivery, the handler makes any calls with any nested events, and the matching return succeeds, by
ERET or by the call: then the program has the registers, kinds, flags, return stack, frames,
privilege and interrupt mask it was interrupted with, the answers of a syscall apart. A return that
is refused has changed nothing. -/
theorem event_transparent {s0 s1 s' : System} {entry exit : CoreOp} {resume : Nat} {h : Handling}
    (hguarded : s0.core.protectedContextEnabled = true) (hentry : s0.observe entry = .enter resume)
    (hs1 : s0.run entry = some s1) (hrun : Handling.Run s0.core.eventFrames.length ⟨s1, .none⟩ h)
    (hmatch : h.system.core.eventFrames.length = s0.core.eventFrames.length + 1)
    (hexit : h.system.observe exit = .leave) (hs' : h.system.run exit = some s') :
    s0.core.Resumes resume entry.isSyscall h.answers s'.core ∧
    ∀ (t t' : System) (u : Unit), Mut.eventReturn t = err (u, t') → t' = t := by
  refine ⟨?_, fun t t' u ht => ?_⟩
  · have htu := System.run_turns hguarded (System.handsOut_of_observe s0 (by simp [hentry]))
      hs1
    rw [hentry] at htu
    cases htu with
    | same _ henter => exact absurd rfl (henter resume)
    | enters _ cause hcause hen =>
      have hh := Handling.Run.holds hrun hen.suspended
      have hl := System.run_turns hh.guarded
        (System.handsOut_of_observe h.system (by simp [hexit])) hs'
      rw [hexit] at hl
      cases hl with
      | same _ _ hleave => exact absurd rfl hleave
      | leaves hr =>
        have hre := Suspended.resumes hh hmatch hr
        rwa [show decide (cause = .syscall) = entry.isSyscall by simp [hcause]] at hre
  · rw [Mut.eventReturn_eq] at ht
    unfold Mut.coreKept at ht
    cases hr : t.core.eventReturn with
    | some c' => simp [hr, okOr] at ht
    | none =>
      simp only [hr, okOr, err_bind, err.injEq, Prod.mk.injEq] at ht
      exact ht.2.symm

/-! ## Runs -/

/-- The core is at a TRAP; the handler's calls and the return of the event lead to the answers and
the system that `P` accepts. -/
def handled (c : Anka64Core) (ops : List CoreOp) (P : Handling → System → Bool)
    (f : Fabric) : Bool :=
  decide (System.observe ⟨c, f⟩ .step = .enter (c.pc + 4)) &&
  (System.run ⟨c, f⟩ .step).any fun s1 =>
    (Machine.replay (Handling.step c.eventFrames.length) (Handling.Open c.eventFrames.length)
      ops ⟨s1, .none⟩).any fun h =>
        decide (h.system.core.eventFrames.length = c.eventFrames.length + 1) &&
        decide (h.system.observe .eventReturn = .leave) && (h.system.run .eventReturn).any (P h)

theorem exists_handled {m : Nat} {se : List FabricOp} {c : Anka64Core} {ops : List CoreOp}
    {P : Handling → System → Bool} (hg : c.protectedContextEnabled = true)
    (h : Fabric.leadsTo m se (handled c ops P) = true) :
    ∃ (s0 s1 s' : System) (h : Handling), s0.core = c ∧
      s0.core.protectedContextEnabled = true ∧ s0.observe .step = .enter (c.pc + 4) ∧
      s0.run .step = some s1 ∧ Handling.Run s0.core.eventFrames.length ⟨s1, .none⟩ h ∧
      h.system.core.eventFrames.length = s0.core.eventFrames.length + 1 ∧
      h.system.observe .eventReturn = .leave ∧ h.system.run .eventReturn = some s' ∧
      P h s' = true := by
  obtain ⟨_, -, h⟩ := isOkAnd_eq_true.mp h
  obtain ⟨f, -, h⟩ := (any_eq_true _ _).mp h
  rw [handled, Bool.and_eq_true, decide_eq_true_eq] at h
  obtain ⟨s1, hs1, hh⟩ := (any_eq_true _ _).mp h.2
  obtain ⟨ha, hr, hh⟩ := (any_eq_true _ _).mp hh
  rw [Bool.and_eq_true, Bool.and_eq_true, decide_eq_true_eq, decide_eq_true_eq] at hh
  obtain ⟨s', hs', hP⟩ := (any_eq_true _ _).mp hh.2
  exact ⟨⟨c, f⟩, s1, s', ha, rfl, hg, h.1, hs1, Machine.run_of_replay hr, hh.1.1, hh.1.2, hs', hP⟩

/-- The TRAP of `Observed.callThenTrap`, in a protected context. -/
def atTrap : Anka64Core :=
  { Observed.userCore 12 with pc := 8, protectedContextEnabled := true }

/-- A handler that is interrupted by nothing and answers 7 in the first register. -/
theorem event_transparent_trap : ∃ (s' : System) (a : Answers),
    a.results 0 = some 7 ∧ atTrap.Resumes 12 true a s'.core ∧ s'.core.r 0 = 7 ∧
    ∀ (t t' : System) (u : Unit), Mut.eventReturn t = err (u, t') → t' = t := by
  have hru : Fabric.leadsTo 16 Observed.callThenTrap (handled atTrap
      [.writeSyscallResult 1 3, .writeSyscallResult 0 7] fun h s' =>
        decide (h.answers.results 0 = some 7) && decide (s'.core.r 0 = 7)) = true := by
    decide +kernel
  obtain ⟨s0, s1, s', h, hc, hg, hen, hs1, hh, hm, hex, hs', hP⟩ :=
    exists_handled rfl hru
  rw [Bool.and_eq_true, decide_eq_true_eq, decide_eq_true_eq] at hP
  obtain ⟨hr, hre⟩ :=
    event_transparent hg hen hs1 hh hm hex hs'
  rw [hc] at hr
  exact ⟨s', h.answers, hP.1, hr, hP.2, hre⟩

/-- **A reserved lane is not exported**: it is not so that every register the kernel passes to
`write_syscall_result` holds the value after the return. -/
theorem reserved_lane_not_exported : ¬ ∀ (s0 s1 s' : System) (resume : Nat) (h : Handling)
    (register : Register) (value : Nat), s0.core.protectedContextEnabled = true →
    s0.observe .step = .enter resume → s0.run .step = some s1 →
    Handling.Run s0.core.eventFrames.length ⟨s1, .none⟩ h →
    h.system.core.eventFrames.length = s0.core.eventFrames.length + 1 →
    h.system.observe .eventReturn = .leave → h.system.run .eventReturn = some s' →
    h.answers.reply.isNone = true → h.answers.results register = some value →
    s'.core.r register = value := by
  intro ha
  have hr : Fabric.leadsTo 16 Observed.callThenTrap (handled atTrap [.writeSyscallResult FP 7]
      fun h s' => h.answers.reply.isNone && decide (h.answers.results FP = some 7) &&
        decide (s'.core.r FP = 0)) = true := by
    decide +kernel
  obtain ⟨s0, s1, s', h, -, hg, hen, hs1, hh, hm, hex, hs', hP⟩ :=
    exists_handled rfl hr
  rw [Bool.and_eq_true, Bool.and_eq_true, decide_eq_true_eq, decide_eq_true_eq] at hP
  have hv := ha s0 s1 s' _ h FP 7 hg hen hs1 hh hm hex hs' hP.1.1 hP.1.2
  rw [hP.2] at hv
  cases hv

end Anka
