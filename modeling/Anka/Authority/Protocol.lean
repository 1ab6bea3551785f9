import Anka.Authority.Wire

/-!
# Dispatcher and client (`authority_persistence/protocol/{dispatch,client}.rs`)

`dispatch` answers one frame: it decodes, asks the verifier, transacts and asks the verifier again
before it releases the result. The client sends one envelope, closes its side, collects the reply
and accepts it only while its own verifier still recognizes the server.

The backend, the verifiers, the channel and the clock are arbitrary: each is a function of a state
of its own that it may change at every call, and the host of a client may change between calls. A
client's stream is there until it is terminal, so its option is left out.

* `dispatch_eq_ok`: what a success reply establishes.
* `acceptReply_eq_success`, `acceptReply_eq_rejected`: what the client accepts.
* `Session.Inv`: what the client's buffer is, kept by every step (`Session.Step.inv`) and so by
  every run.
* `protocol_truthful`: the chain from the bytes sent to the client's answer.
-/

namespace Anka.Authority

open Rust List Option

/-! ## The dispatcher -/

/-- `Verifier`, with the state each call leaves it in. -/
structure Verifier (V Peer : Type) where
  verify : V → Peer → Request → Option (Context × Access) × V

/-- What a server may spend on a request. -/
structure DispatchBudget where
  slots : UInt64
  slotLimit : UInt64
  bytes : UInt64
  byteLimit : UInt64
  work : UInt64
  now : UInt64
  deadline : UInt64

/-- The request is within the budget (dispatch.rs 22). -/
def DispatchBudget.admissible (b : DispatchBudget) : Prop :=
  0 < b.slotLimit ∧ b.slotLimit ≤ 64 ∧ b.slots < b.slotLimit ∧
    (b.bytes ≤ b.byteLimit ∧ 384 ≤ b.byteLimit - b.bytes) ∧
    0 < b.work ∧ b.work ≤ 512 ∧ b.now < b.deadline
  deriving Decidable

/-- The status that reports an error (dispatch.rs 32). -/
def status : Error → Status
  | .authority | .bootDenied => .denied
  | .conflict | .expiredRequest => .conflict
  | .capacity | .exhausted => .exhausted
  | .invalidRequest => .invalid
  | .commitUncertain => .uncertain
  | .backendUnavailable | .backendBusy | .corruptRecord => .unavailable

section Dispatch

variable {B V Peer : Type}

/-- The verifier's evidence, if it is for the request (dispatch.rs 28). -/
def checked (K : Verifier V Peer) (v : V) (peer : Peer) (r : Request) :
    Option (Context × Access) × V :=
  match K.verify v peer r with
  | (none, v) => (none, v)
  | (some (c, a), v) => (if authorized c r a then some (c, a) else none, v)

/-- `Reply::failure(e, status)?.encode()`. -/
def refuse (e : Envelope) (s : Status) : Except WireError (List UInt8) :=
  match Reply.failure e s with
  | .ok r => .ok r.encode
  | .error e => .error e

/-- The reply to a result that may be released. -/
def release (e : Envelope) (result : Except Error Outcome) : Except WireError (List UInt8) :=
  match result with
  | .ok o =>
    match Reply.success e o with
    | .ok r => .ok r.encode
    | .error _ => refuse e .uncertain
  | .error error => refuse e (status error)

/-- One request: decode, verify, transact, reply (dispatch.rs 43). -/
def dispatch (R : DurableRecord B) (K : Verifier V Peer) (b : B) (v : V) (peer : Peer)
    (bytes : List UInt8) (ended : Bool) (budget : DispatchBudget) (capacity : Bool) :
    Except WireError (List UInt8) × B × V :=
  match Envelope.decode bytes ended with
  | .error e => (.error e, b, v)
  | .ok e =>
    if ¬ budget.admissible then (refuse e .exhausted, b, v)
    else match checked K v peer e.request with
      | (none, v) => (refuse e .denied, b, v)
      | (some (c, a), v) =>
        match transact R b c e.request a capacity with
        | (result, b) =>
          match checked K v peer e.request with
          | (none, v) => (refuse e .denied, b, v)
          | (some _, v) => (release e result, b, v)

end Dispatch

/-! ## The client -/

/-- What a client knows about its server. -/
structure ClientEvidence where
  server : Verdict
  pendingCurrent : Bool

/-- What a client concludes. -/
inductive ClientResult where
  | success (outcome : Outcome)
  | rejected (status : Status)
  | unknown
  deriving DecidableEq

/-- The client's reading of a reply. -/
def Reply.clientResult (r : Reply) : ClientResult :=
  match r.status with
  | .success => (r.outcome.map ClientResult.success).getD .unknown
  | .uncertain => .unknown
  | s => .rejected s

/-- The conclusion from a reply (dispatch.rs 69). -/
def acceptReply (bytes : List UInt8) (ended : Bool) (expected : Envelope)
    (evidence : ClientEvidence) : ClientResult :=
  if evidence.server ≠ .valid ∨ evidence.pendingCurrent = false then .unknown
  else match Reply.decode bytes ended expected with
    | .error _ => .unknown
    | .ok r => r.clientResult

/-- `Binding`; `A` is the type of socket addresses. -/
structure Binding (A : Type) where
  connection : UInt64
  localAddr : A
  remote : A

/-- `io::Result`, by what the client makes of an error. -/
inductive Io (α : Type) where
  | done (a : α)
  | transient
  | failed

/-- Everything around a client: the clock, its verifier, its channel and the counter of
connections. A read answers a count and what it left in the buffer. -/
structure Host (W A : Type) where
  isLoopback : A → Bool
  now : W → Nat × W
  verify : W → Binding A → Envelope → Verdict × W
  prepare : W → Option (A × A) × W
  nextConnection : W → Option UInt64 × W
  write : W → List UInt8 → Io Nat × W
  halfClose : W → Io Unit × W
  read : W → Nat → (Io Nat × (Nat → UInt8)) × W

/-- Where a client stands. -/
inductive Phase where
  | send
  | halfClose
  | receive
  | terminal (result : ClientResult)

/-- One request of a client. -/
structure Client (A : Type) where
  binding : Binding A
  envelope : Envelope
  request : List UInt8
  reply : List UInt8
  sent : Nat
  received : Nat
  phase : Phase
  work : Nat
  deadline : Nat

section Client

variable {W A : Type}

/-- `bind`. -/
def bindStream (H : Host W A) (w : W) : Option (Binding A) × W :=
  match H.prepare w with
  | (none, w) => (none, w)
  | (some (localAddr, remote), w) =>
    if H.isLoopback localAddr = false ∨ H.isLoopback remote = false then (none, w)
    else match H.nextConnection w with
      | (none, w) => (none, w)
      | (some connection, w) => (some { connection, localAddr, remote }, w)

namespace Client

variable (H : Host W A) (c : Client A) (w : W) (envelope : Envelope)

/-- A client at the start of a connection. -/
def fresh (binding : Binding A) (envelope : Envelope) (request : List UInt8) (work deadline : Nat) :
    Client A :=
  { binding, envelope, request, reply := List.replicate (REPLY_BYTES + 1) 0,
    sent := 0, received := 0
    phase := .send, work, deadline }

/-- A client for a request that encodes (client.rs 60). -/
def startUntil (work deadline : Nat) : Option (Client A) × W :=
  match envelope.encode with
  | .error _ => (none, w)
  | .ok request =>
    if work = 0 then (none, w)
    else match H.now w with
      | (t, w) =>
        if deadline ≤ t then (none, w)
        else match bindStream H w with
          | (none, w) => (none, w)
          | (some binding, w) => (some (fresh binding envelope request (work - 1) deadline), w)

/-- The conclusion, once there is one (client.rs 68). -/
def result : Option ClientResult :=
  match c.phase with
  | .terminal r => some r
  | _ => none

/-- Ends with a conclusion (client.rs 69). -/
def finish (r : ClientResult) : Option ClientResult × Client A :=
  (some r, { c with phase := .terminal r })

/-- Ends without an answer (client.rs 70). -/
def cancel : ClientResult × Client A :=
  match c.result with
  | some r => (r, c)
  | none => (.unknown, { c with phase := .terminal .unknown })

/-- `retry`: whether it succeeded, and what it leaves. -/
def retry (correlation : UInt64) : Bool × Client A × W :=
  if c.result ≠ some .unknown ∨ correlation = 0 ∨ correlation = c.envelope.correlation ∨
      c.work = 0 then (false, c, w)
  else match H.now w with
    | (t, w) =>
      if c.deadline ≤ t then (false, c, w)
      else
        let c := { c with work := c.work - 1 }
        let envelope : Envelope := { correlation, request := c.envelope.request }
        match envelope.encode with
        | .error _ => (false, c, w)
        | .ok request =>
          match bindStream H w with
          | (none, w) => (false, c, w)
          | (some binding, w) => (true, fresh binding envelope request c.work c.deadline, w)

/-- The checks before an action of `poll`: work, time, the server's evidence, time again. -/
def precheck : Bool × Client A × W :=
  if c.work = 0 then (false, c, w)
  else match H.now w with
    | (t, w) =>
      if c.deadline ≤ t then (false, c, w)
      else
        let c := { c with work := c.work - 1 }
        match H.verify w c.binding c.envelope with
        | (verdict, w) =>
          if verdict ≠ .valid then (false, c, w)
          else match H.now w with
            | (t, w) => (decide (t < c.deadline), c, w)

/-- The action of `poll` while sending. -/
def pollSend : (Option ClientResult × Client A) × W :=
  match H.write w (c.request.drop c.sent) with
  | (.done n, w) =>
    if 0 < n ∧ n ≤ REQUEST_BYTES - c.sent then
      let phase := if c.sent + n = REQUEST_BYTES then .halfClose else c.phase
      ((none, { c with sent := c.sent + n, phase }), w)
    else (c.finish .unknown, w)
  | (.transient, w) => ((none, c), w)
  | (.failed, w) => (c.finish .unknown, w)

/-- The action of `poll` between sending and receiving. -/
def pollHalfClose : (Option ClientResult × Client A) × W :=
  match H.halfClose w with
  | (.done (), w) => ((none, { c with phase := .receive }), w)
  | (.transient, w) => ((none, c), w)
  | (.failed, w) => (c.finish .unknown, w)

/-- The end of the stream: the evidence is checked once more, then the reply. -/
def pollEnd : (Option ClientResult × Client A) × W :=
  match H.now w with
  | (t, w) =>
    if c.deadline ≤ t then (c.finish .unknown, w)
    else match H.verify w c.binding c.envelope with
      | (verdict, w) =>
        if verdict ≠ .valid then (c.finish .unknown, w)
        else
          (c.finish (acceptReply (c.reply.take c.received) true c.envelope
            { server := .valid, pendingCurrent := true }), w)

/-- The bytes a read leaves in the rest of the buffer. -/
def filled (content : Nat → UInt8) : List UInt8 :=
  c.reply.take c.received ++ (List.range (REPLY_BYTES + 1 - c.received)).map content

/-- The action of `poll` while receiving. -/
def pollReceive : (Option ClientResult × Client A) × W :=
  match H.read w (REPLY_BYTES + 1 - c.received) with
  | ((answer, content), w) =>
    let c := { c with reply := c.filled content }
    match answer with
    | .done n =>
      if n = 0 then pollEnd H c w
      else if n ≤ REPLY_BYTES + 1 - c.received then
        let c := { c with received := c.received + n }
        if REPLY_BYTES < c.received then (c.finish .unknown, w) else ((none, c), w)
      else (c.finish .unknown, w)
    | .transient => ((none, c), w)
    | .failed => (c.finish .unknown, w)

/-- One step, as far as the transport allows (client.rs 88). -/
def poll : (Option ClientResult × Client A) × W :=
  match c.phase with
  | .terminal r => ((some r, c), w)
  | phase =>
    match precheck H c w with
    | (false, c, w) => (c.finish .unknown, w)
    | (true, c, w) =>
      match phase with
      | .send => pollSend H c w
      | .halfClose => pollHalfClose H c w
      | .receive => pollReceive H c w
      | .terminal r => ((some r, c), w)

end Client

end Client

/-! ## What a reply establishes -/

variable {e : Envelope} {reply : List UInt8}

section Truth

variable {B V Peer : Type} {R : DurableRecord B} {K : Verifier V Peer} {b b' : B} {v v' : V}
  {peer : Peer} {bytes : List UInt8} {ended : Bool} {budget : DispatchBudget} {cap : Bool}

/-- The verifier vouches for the request, and is left in the second state. -/
def Vouches (K : Verifier V Peer) (v : V) (peer : Peer) (r : Request) (c : Context) (a : Access)
    (v' : V) : Prop := K.verify v peer r = (some (c, a), v') ∧ authorized c r a

theorem checked_eq_some {r : Request} {c : Context} {a : Access}
    (h : checked K v peer r = (some (c, a), v')) : Vouches K v peer r c a v' := by
  unfold checked at h
  split at h
  · cases h
  rename_i c' a' v1 hv
  obtain ⟨hs, rfl⟩ := Prod.mk.inj h
  split at hs
  · rename_i ha
    cases hs
    exact ⟨hv, ha⟩
  · cases hs

theorem refuse_eq_ok {s : Status} (h : refuse e s = .ok reply) :
    ∃ r : Reply, reply = r.encode ∧ r.envelope = e ∧ r.status = s ∧ s ≠ .success := by
  unfold refuse at h
  split at h
  · rename_i r hr
    cases h
    obtain ⟨hen, hs, hn, -⟩ := Reply.failure_eq_ok_iff.mp hr
    exact ⟨r, rfl, hen, hs, hn⟩
  · cases h

theorem release_eq_ok {re : Except Error Outcome} (h : release e re = .ok reply) :
    ∃ r : Reply, reply = r.encode ∧ r.envelope = e ∧
      (r.status = .success → ∃ o, re = .ok o ∧ r.outcome = some o) := by
  have hre : ∀ {s : Status}, refuse e s = .ok reply → ∃ r : Reply, reply = r.encode ∧
      r.envelope = e ∧ (r.status = .success → ∃ o, re = .ok o ∧ r.outcome = some o) := by
    intro s hs
    obtain ⟨r, hrp, hen, hst, hn⟩ := refuse_eq_ok hs
    exact ⟨r, hrp, hen, fun hsu => absurd (hst.symm.trans hsu) hn⟩
  unfold release at h
  split at h
  · split at h
    · rename_i o _ r hr
      cases h
      obtain ⟨hen, -, ho⟩ := Reply.success_eq_ok_iff.mp hr
      exact ⟨r, rfl, hen, fun _ => ⟨o, rfl, ho⟩⟩
    · exact hre h
  · exact hre h

/-- The request of a success was vouched for, executed with this outcome and vouched for again. -/
def Backed (R : DurableRecord B) (K : Verifier V Peer) (b : B) (v : V) (peer : Peer) (r : Request)
    (capacity : Bool) (o : Outcome) (b' : B) (v' : V) : Prop :=
  ∃ c a v1 c' a', Vouches K v peer r c a v1 ∧ transact R b c r a capacity = (.ok o, b') ∧
    Vouches K v1 peer r c' a' v'

theorem dispatch_eq_ok (h : dispatch R K b v peer bytes ended budget cap =
    (.ok reply, b', v')) :
    ∃ r : Reply, reply = r.encode ∧ Envelope.decode bytes ended = .ok r.envelope ∧
      ∀ o, r.status = .success → r.outcome = some o →
        Backed R K b v peer r.envelope.request cap o b' v' := by
  have hr : ∀ {e : Envelope} {s : Status}, Envelope.decode bytes ended = .ok e →
      refuse e s = .ok reply → ∃ r : Reply, reply = r.encode ∧
        Envelope.decode bytes ended = .ok r.envelope ∧
        ∀ o, r.status = .success → r.outcome = some o →
          Backed R K b v peer r.envelope.request cap o b' v' := by
    intro e s he hs
    obtain ⟨r, hre, rfl, rfl, hn⟩ := refuse_eq_ok hs
    exact ⟨r, hre, he, fun _ hsu => absurd hsu hn⟩
  unfold dispatch at h
  split at h
  · cases h
  rename_i e he
  split at h
  · exact hr he (Prod.mk.inj h).1
  split at h
  · exact hr he (Prod.mk.inj h).1
  rename_i c a v1 hf
  split at h
  rename_i result b1 ht
  split at h
  · exact hr he (Prod.mk.inj h).1
  rename_i ca v2 hse
  obtain ⟨hrl, hst⟩ := Prod.mk.inj h
  obtain ⟨rfl, rfl⟩ := Prod.mk.inj hst
  obtain ⟨r, hre, rfl, hsu⟩ := release_eq_ok hrl
  refine ⟨r, hre, he, fun o hsta hou => ?_⟩
  obtain ⟨o', rfl, ho'⟩ := hsu hsta
  obtain rfl : o' = o := mem_unique ho' hou
  exact ⟨c, a, v1, ca.1, ca.2, checked_eq_some hf, ht, checked_eq_some hse⟩

theorem dispatch_of_malformed {e : WireError} (h : Envelope.decode bytes ended = .error e) :
    dispatch R K b v peer bytes ended budget cap = (.error e, b, v) := by
  unfold dispatch
  rw [h]

theorem Backed.stored {st : B → State} {r : Request} {o : Outcome} (hR : R.Faithful st)
    (h : Backed R K b v peer r cap o b' v') : (st b').last = some r ∧ (st b').outcome = o := by
  obtain ⟨c, a, v1, c', a', -, ht, -⟩ := h
  have hc : Called st c r a b (transact R b c r a cap) := transact_called hR
  rw [ht] at hc
  generalize ho : ((.ok o, b') : Except Error Outcome × B) = out at hc
  cases hc with
  | refused e b1 _ => cases ho
  | uncertain b1 _ _ => cases ho
  | replayed b1 _ hl _ hs =>
    cases ho
    exact ⟨hs ▸ hl, hs ▸ rfl⟩
  | executed b1 _ hex =>
    cases ho
    exact ⟨hex.last, rfl⟩

end Truth

/-! ## What the client accepts -/

section Accept

variable {bytes : List UInt8} {ended : Bool} {exp : Envelope} {evidence : ClientEvidence}

/-- A success is a canonical reply to the client's own envelope whose outcome fits its request. -/
structure Confirms (bytes : List UInt8) (e : Envelope) (o : Outcome) : Prop where
  reply : ∃ r : Reply, bytes = r.encode ∧ r.envelope = e ∧ r.status = .success ∧ r.outcome = some o
  fits : validOutcome e o

/-- A rejection is a canonical reply with a definite status that is not a success. -/
structure Rejects (bytes : List UInt8) (e : Envelope) (s : Status) : Prop where
  reply : ∃ r : Reply, bytes = r.encode ∧ r.envelope = e ∧ r.status = s
  definite : s ≠ .success ∧ s ≠ .uncertain

variable {o : Outcome} {r : Reply} {s : Status}

theorem Reply.confirms (h : r.clientResult = .success o) : Confirms r.encode r.envelope o := by
  unfold clientResult at h
  split at h
  · rename_i hs
    rcases r.wellFormed with ⟨-, o', ho, hf⟩ | ⟨hn, -⟩
    · rw [ho] at h
      cases h
      exact ⟨⟨r, rfl, rfl, hs, ho⟩, hf⟩
    · exact absurd hs hn
  · cases h
  · cases h

theorem Reply.rejects (h : r.clientResult = .rejected s) : Rejects r.encode r.envelope s := by
  unfold clientResult at h
  split at h
  · cases ho : r.outcome <;> simp [ho] at h
  · cases h
  · rename_i hs hu
    cases h
    exact ⟨⟨r, rfl, rfl, rfl⟩, hs, hu⟩

theorem acceptReply_reply {result : ClientResult}
    (h : acceptReply bytes ended exp evidence = result) (hn : result ≠ .unknown) :
    ∃ r : Reply, bytes = r.encode ∧ r.envelope = exp ∧ r.clientResult = result := by
  unfold acceptReply at h
  split at h
  · exact absurd h.symm hn
  split at h
  · exact absurd h.symm hn
  rename_i r hr
  obtain ⟨-, hen, hb⟩ := Reply.decode_eq_ok_iff.mp hr
  exact ⟨r, hb, hen, h⟩

theorem acceptReply_eq_success (h : acceptReply bytes ended exp evidence = .success o) :
    Confirms bytes exp o := by
  obtain ⟨r, rfl, rfl, hr⟩ := acceptReply_reply h nofun
  exact Reply.confirms hr

theorem acceptReply_eq_rejected (h : acceptReply bytes ended exp evidence = .rejected s) :
    Rejects bytes exp s := by
  obtain ⟨r, rfl, rfl, hr⟩ := acceptReply_reply h nofun
  exact Reply.rejects hr

end Accept

/-! ## A client's runs -/

variable {deadline : Nat}

section Runs

variable {W A : Type}

/-- The bytes a read takes from the channel. -/
def Client.readBytes (H : Host W A) (c : Client A) (w : W) : List UInt8 :=
  match H.read w (REPLY_BYTES + 1 - c.received) with
  | ((.done n, content), _) =>
    if n ≤ REPLY_BYTES + 1 - c.received then (List.range n).map content else []
  | _ => []

/-- The bytes a call of `poll` takes from the channel. -/
def Client.taken (H : Host W A) (c : Client A) (w : W) : List UInt8 :=
  match c.phase with
  | .receive =>
    match Client.precheck H c w with
    | (true, c, w) => c.readBytes H w
    | (false, _, _) => []
  | _ => []

/-- A client, its host, and the bytes the channel has delivered on this connection. -/
structure Session (W A : Type) where
  client : Client A
  world : W
  delivered : List UInt8

/-- What can happen to a client: a call of one of its functions, or anything in its host. -/
inductive Session.Step (H : Host W A) : Session W A → Session W A → Prop
  | poll (c : Client A) (w : W) (delivered : List UInt8) :
      Step H ⟨c, w, delivered⟩ ⟨(c.poll H w).1.2, (c.poll H w).2, delivered ++ c.taken H w⟩
  | cancel (c : Client A) (w : W) (delivered : List UInt8) :
      Step H ⟨c, w, delivered⟩ ⟨c.cancel.2, w, delivered⟩
  | retried (c c' : Client A) (w w' : W) (delivered : List UInt8) (correlation : UInt64)
      (h : c.retry H w correlation = (true, c', w')) : Step H ⟨c, w, delivered⟩ ⟨c', w', []⟩
  | retryFailed (c c' : Client A) (w w' : W) (delivered : List UInt8) (correlation : UInt64)
      (h : c.retry H w correlation = (false, c', w')) : Step H ⟨c, w, delivered⟩ ⟨c', w', delivered⟩
  | host (c : Client A) (w w' : W) (delivered : List UInt8) :
      Step H ⟨c, w, delivered⟩ ⟨c, w', delivered⟩

/-- A result the client may report for these bytes. -/
def Truthful (delivered : List UInt8) (e : Envelope) : ClientResult → Prop
  | .success o => Confirms delivered e o
  | .rejected s => Rejects delivered e s
  | .unknown => True

/-- The buffer holds what was delivered, and a result is what the delivered bytes say. -/
structure Session.Inv (request : Request) (s : Session W A) : Prop where
  request_eq : s.client.envelope.request = request
  length_reply : s.client.reply.length = REPLY_BYTES + 1
  received_le : s.client.received ≤ REPLY_BYTES + 1
  buffer : (∀ r, s.client.phase ≠ .terminal r) →
    s.client.received ≤ REPLY_BYTES ∧ s.delivered = s.client.reply.take s.client.received
  result : ∀ r, s.client.phase = .terminal r → Truthful s.delivered s.client.envelope r

variable {s : Session W A}

namespace Session

variable {H : Host W A} {c : Client A} {w w' : W} {delivered : List UInt8} {request : Request}

/-- What a call of `poll` leaves: the invariant holds, the client holds what the call returned, and
the envelope is the same. -/
structure Polled (request : Request) (e : Envelope) (out : (Option ClientResult × Client A) × W)
    (delivered : List UInt8) : Prop where
  inv : Inv request ⟨out.1.2, out.2, delivered⟩
  result : out.1.1 = out.1.2.result
  envelope : out.1.2.envelope = e

namespace Inv

section

variable (h : Inv request ⟨c, w, delivered⟩)
include h

theorem setWorld : Inv request ⟨c, w', delivered⟩ :=
  { h with }

theorem finish_unknown {delivered' : List UInt8} :
    Polled request c.envelope (c.finish .unknown, w') delivered' where
  result := rfl
  envelope := rfl
  inv :=
    { h with
      buffer := fun hn => absurd rfl (hn .unknown)
      result := fun r hr => by
        cases hr
        trivial }

theorem proceed {c' : Client A} (hp : ∀ r, c.phase ≠ .terminal r)
    (hp' : ∀ r, c'.phase ≠ .terminal r) (hen : c'.envelope = c.envelope) (hre : c'.reply = c.reply)
    (hrc : c'.received = c.received) : Polled request c.envelope ((none, c'), w') delivered where
  envelope := hen
  result := by
    cases hc : c'.phase with
    | terminal r => exact absurd hc (hp' r)
    | _ => simp [Client.result, hc]
  inv :=
    { request_eq := hen ▸ h.request_eq
      length_reply := hre ▸ h.length_reply
      received_le := hrc ▸ h.received_le
      buffer := fun _ => by
        have hb := h.buffer hp
        dsimp only at hb ⊢
        rwa [hre, hrc]
      result := fun r hr => absurd hr (hp' r) }

end

end Inv

variable {content : Nat → UInt8} {work : Nat} {s' : Session W A}

theorem length_filled (hl : c.reply.length = REPLY_BYTES + 1)
    (hle : c.received ≤ REPLY_BYTES + 1) : (c.filled content).length = REPLY_BYTES + 1 := by
  rw [Client.filled, length_append, length_take, length_map, length_range, hl]
  omega

theorem take_filled {n : Nat} (hl : c.reply.length = REPLY_BYTES + 1)
    (hle : c.received ≤ REPLY_BYTES + 1) (hn : n ≤ REPLY_BYTES + 1 - c.received) :
    (c.filled content).take (c.received + n) =
      c.reply.take c.received ++ (List.range n).map content := by
  have hh : (c.reply.take c.received).length = c.received := by
    rw [length_take, hl]
    omega
  rw [Client.filled, take_append, hh, take_of_length_le (by rw [hh]; omega),
    Nat.add_sub_cancel_left, ← map_take, take_range, Nat.min_eq_left hn]

theorem precheck_client : ∃ work, (c.precheck H w).2.1 = { c with work } := by
  unfold Client.precheck
  split
  · exact ⟨c.work, rfl⟩
  split
  split
  · exact ⟨c.work, rfl⟩
  dsimp only
  split
  · exact ⟨c.work - 1, rfl⟩
  · exact ⟨c.work - 1, rfl⟩

section

variable (h : Inv request ⟨c, w, delivered⟩)
include h

theorem pollSend_polled (hp : c.phase = .send) :
    Polled request c.envelope (c.pollSend H w) delivered := by
  have hg : ∀ r, c.phase ≠ .terminal r := fun r => hp ▸ nofun
  unfold Client.pollSend
  split
  · split
    · refine h.proceed hg (fun r => ?_) rfl rfl rfl
      dsimp only
      split
      · exact nofun
      · exact hg r
    · exact h.finish_unknown
  · exact h.proceed hg hg rfl rfl rfl
  · exact h.finish_unknown

theorem pollHalfClose_polled (hp : c.phase = .halfClose) :
    Polled request c.envelope (c.pollHalfClose H w) delivered := by
  have hg : ∀ r, c.phase ≠ .terminal r := fun r => hp ▸ nofun
  unfold Client.pollHalfClose
  split
  · exact h.proceed hg (fun r => nofun) rfl rfl rfl
  · exact h.proceed hg hg rfl rfl rfl
  · exact h.finish_unknown

theorem pollEnd_polled (hp : ∀ r, c.phase ≠ .terminal r) :
    Polled request c.envelope (c.pollEnd H w) delivered := by
  unfold Client.pollEnd
  split
  split
  · exact h.finish_unknown
  split
  split
  · exact h.finish_unknown
  refine ⟨{ h with buffer := fun hn => absurd rfl (hn _), result := ?_ }, rfl, rfl⟩
  intro r hr
  have hd := (h.buffer hp).2
  dsimp only at hd
  obtain rfl := Phase.terminal.inj hr
  rw [← hd]
  generalize hre : acceptReply delivered true c.envelope
    { server := .valid, pendingCurrent := true } = result
  cases result with
  | success o => exact acceptReply_eq_success hre
  | rejected s => exact acceptReply_eq_rejected hre
  | unknown => trivial

theorem pollReceive_polled (hp : c.phase = .receive) :
    Polled request c.envelope (c.pollReceive H w) (delivered ++ c.readBytes H w) := by
  have hg : ∀ r, c.phase ≠ .terminal r := fun r => hp ▸ nofun
  obtain ⟨hl, hd⟩ := h.buffer hg
  dsimp only at hl hd
  unfold Client.pollReceive Client.readBytes
  rcases H.read w (REPLY_BYTES + 1 - c.received) with ⟨⟨answer, content⟩, w1⟩
  -- the client with the buffer as the read leaves it, before the count is looked at
  have hf : ∀ {n : Nat}, n ≤ REPLY_BYTES + 1 - c.received →
      delivered ++ (List.range n).map content = (c.filled content).take (c.received + n) := by
    intro n hn
    rw [take_filled h.length_reply h.received_le hn, hd]
  have hre : Inv request ⟨{ c with reply := c.filled content }, w1, delivered⟩ := by
    refine ⟨h.request_eq, length_filled h.length_reply h.received_le, h.received_le,
      fun _ => ⟨hl, ?_⟩, fun r hr => absurd hr (hg r)⟩
    have hno := @hf 0 (Nat.zero_le _)
    rwa [range_zero, map_nil, append_nil, Nat.add_zero] at hno
  cases answer with
  | done n =>
    dsimp only
    split
    · rename_i hz
      subst hz
      rw [if_pos (Nat.zero_le _), range_zero, map_nil, append_nil]
      exact pollEnd_polled hre hg
    split
    · rename_i hn
      split
      · exact ⟨⟨h.request_eq, hre.length_reply, by dsimp only [Client.finish]; omega,
          fun hne => absurd rfl (hne _), fun r hr => by cases hr; trivial⟩, rfl, rfl⟩
      · rename_i hrc
        have hnx : Inv request ⟨{ c with reply := c.filled content, received := c.received + n },
            w1, delivered ++ (List.range n).map content⟩ :=
          ⟨h.request_eq, hre.length_reply, by dsimp only at hrc ⊢; omega,
            fun _ => ⟨Nat.not_lt.mp hrc, hf hn⟩, fun r hr => absurd hr (hg r)⟩
        exact hnx.proceed hg hg rfl rfl rfl
    · exact hre.finish_unknown
  | transient =>
    rw [append_nil]
    exact hre.proceed hg hg rfl rfl rfl
  | failed => exact hre.finish_unknown

theorem poll_polled : Polled request c.envelope (c.poll H w) (delivered ++ c.taken H w) := by
  obtain ⟨work, hw⟩ := @precheck_client _ _ H c w
  unfold Client.poll Client.taken
  rcases hp : c.precheck H w with ⟨ad, c1, w1⟩
  rw [hp] at hw
  obtain rfl : c1 = { c with work } := hw
  have hs : Inv request ⟨{ c with work }, w1, delivered⟩ :=
    { h with }
  cases hph : c.phase with
  | terminal r =>
    rw [append_nil]
    exact ⟨h, by simp [Client.result, hph], rfl⟩
  | send =>
    rw [append_nil]
    cases ad with
    | false => exact hs.finish_unknown
    | true =>
      rw [hph] at hs
      exact pollSend_polled hs rfl
  | halfClose =>
    rw [append_nil]
    cases ad with
    | false => exact hs.finish_unknown
    | true =>
      rw [hph] at hs
      exact pollHalfClose_polled hs rfl
  | receive =>
    cases ad with
    | false => exact hs.finish_unknown
    | true =>
      rw [hph] at hs
      exact pollReceive_polled hs rfl

end

theorem fresh_inv {bi : Binding A} {bytes : List UInt8} :
    Inv e.request ⟨Client.fresh bi e bytes work deadline, w, []⟩ where
  request_eq := rfl
  length_reply := length_replicate
  received_le := Nat.zero_le _
  buffer _ := ⟨Nat.zero_le _, rfl⟩
  result _ hr := nomatch hr

theorem startUntil_inv (h : Client.startUntil H w e work deadline = (some c, w')) :
    Inv e.request ⟨c, w', []⟩ := by
  unfold Client.startUntil at h
  split at h
  · cases h
  split at h
  · cases h
  split at h
  split at h
  · cases h
  split at h
  · cases h
  · cases h
    exact fresh_inv

theorem retry_inv {c' : Client A} {correlation : UInt64} {ok : Bool}
    (h : Inv request ⟨c, w, delivered⟩) (hr : c.retry H w correlation = (ok, c', w')) :
    Inv request ⟨c', w', if ok = true then [] else delivered⟩ := by
  have hw : ∀ {work : Nat} {w1 : W}, Inv request ⟨{ c with work }, w1, delivered⟩ :=
    { h with }
  unfold Client.retry at hr
  split at hr
  · cases hr
    exact h
  split at hr
  split at hr
  · cases hr
    exact h.setWorld
  dsimp only at hr
  split at hr
  · cases hr
    exact hw
  split at hr
  · cases hr
    exact hw
  · cases hr
    obtain rfl : c.envelope.request = request := h.request_eq
    exact fresh_inv (e := { correlation, request := c.envelope.request })

theorem Step.inv (hs : Step H s s') (h : Inv request s) : Inv request s' := by
  cases hs with
  | poll c w delivered => exact (poll_polled h).inv
  | cancel c w delivered =>
    unfold Client.cancel
    split
    · exact h
    · exact h.finish_unknown.inv
  | retried c c' w w' delivered co hr => exact retry_inv h hr
  | retryFailed c c' w w' delivered co hr => exact retry_inv h hr
  | host c w w' delivered => exact h.setWorld

theorem inv_of_run (hr : Relation.ReflTransGen (Step H) s s') (h : Inv request s) :
    Inv request s' := by
  induction hr with
  | refl => exact h
  | tail _ hs ih => exact hs.inv ih

theorem Inv.truthful {r : ClientResult} (h : Inv request s) (hr : s.client.result = some r) :
    s.client.envelope.request = request ∧ Truthful s.delivered s.client.envelope r := by
  refine ⟨h.request_eq, h.result r ?_⟩
  unfold Client.result at hr
  split at hr
  · rename_i r' hp
    cases hr
    exact hp
  · cases hr

theorem result_truthful (hs : Client.startUntil H w e work deadline = (some c, w'))
    (hru : Relation.ReflTransGen (Step H) ⟨c, w', []⟩ s) :
    s.client.envelope.request = e.request ∧
      (∀ r, s.client.result = some r → Truthful s.delivered s.client.envelope r) ∧
      ∀ r, (s.client.poll H s.world).1.1 = some r →
        Truthful (s.delivered ++ s.client.taken H s.world) s.client.envelope r := by
  have hi := inv_of_run hru (startUntil_inv hs)
  refine ⟨hi.request_eq, fun r hr => (hi.truthful hr).2, fun r hr => ?_⟩
  have hp := @poll_polled _ _ H s.client s.world s.delivered _ hi
  have ht := (hp.inv.truthful (hp.result.symm.trans hr)).2
  rwa [hp.envelope] at ht

end Session

end Runs

/-! ## End to end -/

section EndToEnd

variable {B V Peer W A : Type}

/-- Replies are truthful. A success reply of the dispatcher was authorized before and after, and
`transact` returned its outcome for exactly that request; the client takes only a canonical reply to
its own envelope for an answer, however the bytes arrive; requests and replies are their encodings;
and malformed input reaches neither verifier nor backend. -/
theorem protocol_truthful (R : DurableRecord B) (K : Verifier V Peer) (H : Host W A) :
    -- the dispatcher
    (∀ b v peer bytes ended budget cap reply b' v',
      dispatch R K b v peer bytes ended budget cap = (.ok reply, b', v') →
      ∃ r : Reply, reply = r.encode ∧ Envelope.decode bytes ended = .ok r.envelope ∧
        ∀ o, r.status = .success → r.outcome = some o →
          Backed R K b v peer r.envelope.request cap o b' v' ∧
          ∀ stored : B → State, R.Faithful stored →
            (stored b').last = some r.envelope.request ∧ (stored b').outcome = o) ∧
    (∀ b v peer bytes ended budget cap,
      (bytes.length ≠ REQUEST_BYTES → Envelope.decode bytes ended = .error .length) ∧
      ∀ e, Envelope.decode bytes ended = .error e →
        dispatch R K b v peer bytes ended budget cap = (.error e, b, v)) ∧
    -- the client
    (∀ bytes ended e evidence,
      (∀ o, acceptReply bytes ended e evidence = .success o → Confirms bytes e o) ∧
      ∀ s, acceptReply bytes ended e evidence = .rejected s → Rejects bytes e s) ∧
    (∀ w e work deadline c w' s, Client.startUntil H w e work deadline = (some c, w') →
      Relation.ReflTransGen (Session.Step H) ⟨c, w', []⟩ s →
      s.client.envelope.request = e.request ∧
      (∀ r, s.client.result = some r → Truthful s.delivered s.client.envelope r) ∧
      ∀ r, (s.client.poll H s.world).1.1 = some r →
        Truthful (s.delivered ++ s.client.taken H s.world) s.client.envelope r) ∧
    -- both ends
    (∀ b v peer bytes ended budget cap reply b' v' e o evidence ended',
      dispatch R K b v peer bytes ended budget cap = (.ok reply, b', v') →
      acceptReply reply ended' e evidence = .success o →
      Backed R K b v peer e.request cap o b' v') ∧
    -- the encodings
    (∀ bytes ended e, Envelope.decode bytes ended = .ok e ↔ ended = true ∧ e.encode = .ok bytes) ∧
    (∀ bytes ended e r, Reply.decode bytes ended e = .ok r ↔
      ended = true ∧ r.envelope = e ∧ bytes = r.encode) ∧
    (∀ bytes bytes' ended ended' e, Envelope.decode bytes ended = .ok e →
      Envelope.decode bytes' ended' = .ok e → bytes = bytes') ∧
    ∀ bytes bytes' ended ended' e e' r, Reply.decode bytes ended e = .ok r →
      Reply.decode bytes' ended' e' = .ok r → bytes = bytes' := by
  refine ⟨?_, ?_, fun _ _ _ _ => ⟨fun _ => acceptReply_eq_success, fun _ =>
    acceptReply_eq_rejected⟩,
    fun _ _ _ _ _ _ _ => Session.result_truthful, ?_, fun _ _ _ => Envelope.decode_eq_ok_iff,
    fun _ _ _ _ => Reply.decode_eq_ok_iff, ?_, ?_⟩
  · intro b v peer bytes ended budget cap reply b' v' h
    obtain ⟨r, hr, hd, hb⟩ := dispatch_eq_ok h
    refine ⟨r, hr, hd, fun o hs ho => ?_⟩
    have hsu := hb o hs ho
    exact ⟨hsu, fun stored hR => hsu.stored hR⟩
  · intro b v peer bytes ended budget cap
    exact ⟨Envelope.decode_of_length_ne, fun e => dispatch_of_malformed⟩
  · intro b v peer bytes ended budget cap reply b' v' e o evidence ended' h ha
    obtain ⟨r, hr, -, hb⟩ := dispatch_eq_ok h
    obtain ⟨r', hr', rfl, hs, ho⟩ := (acceptReply_eq_success ha).reply
    obtain rfl : r = r' := Reply.encode_injective (hr.symm.trans hr')
    exact hb o hs ho
  · intro bytes bytes' ended ended' e h h'
    exact Except.ok.inj ((Envelope.encode_of_decode h).symm.trans (Envelope.encode_of_decode h'))
  · intro bytes bytes' ended ended' e e' r h h'
    exact (Reply.decode_eq_ok_iff.mp h).2.2.trans (Reply.decode_eq_ok_iff.mp h').2.2.symm

/-- A request to select, under a correlation. -/
def selectEnvelope : Envelope := { correlation := 1, request := selectNine }

/-- A verifier that always has the evidence for the selection. -/
def trusting : Verifier Unit Unit :=
  { verify := fun v _ _ => (some (selectContext, selectAccess), v) }

/-- A budget that admits one request. -/
def idleBudget : DispatchBudget :=
  { slots := 0, slotLimit := 1, bytes := 0, byteLimit := 384, work := 1, now := 0, deadline := 1 }

/-- A host that takes the request at once and delivers the reply in one read. -/
def delivering (reply : List UInt8) : Host Nat Unit where
  isLoopback _ := true
  now w := (0, w)
  verify w _ _ := (.valid, w)
  prepare w := (some ((), ()), w)
  nextConnection w := (some 1, w)
  write w bytes := (.done bytes.length, w)
  halfClose w := (.done (), w)
  read w _ :=
    if w = 0 then ((.done reply.length, fun i => reply.getD i 0), 1) else ((.done 0, fun _ => 0), w)

/-- The success of the selection. -/
def selectReply : Reply where
  envelope := selectEnvelope
  status := .success
  outcome := some { revision := 2, value := 9, boot := 0 }
  valid := by decide
  wellFormed := .inl ⟨rfl, _, rfl, by decide⟩

/-- The selection is sent, dispatched and answered, and the client polls four times to its success.
-/
theorem protocol_truthful_select :
    let H := delivering selectReply.encode
    ∃ bytes b' c w s, selectEnvelope.encode = .ok bytes ∧
      dispatch memoryRecord trusting provisioned () () bytes true idleBudget true =
        (.ok selectReply.encode, b', ()) ∧
      Client.startUntil H 0 selectEnvelope 5 1 = (some c, w) ∧
      Relation.ReflTransGen (Session.Step H) ⟨c, w, []⟩ s ∧
      (s.client.poll H s.world).1.1 = some (.success { revision := 2, value := 9, boot := 0 }) ∧
      Confirms (s.delivered ++ s.client.taken H s.world) s.client.envelope
        { revision := 2, value := 9, boot := 0 } ∧
      Backed memoryRecord trusting provisioned () () selectNine true
        { revision := 2, value := 9, boot := 0 } b' () := by
  intro H
  have hen : selectEnvelope.encode = .ok (REQUEST_MAGIC ++ packWords (bodyWords selectEnvelope)) :=
    Envelope.encode_eq_ok_iff.mpr ⟨by decide, rfl⟩
  have hd : dispatch memoryRecord trusting provisioned () ()
      (REQUEST_MAGIC ++ packWords (bodyWords selectEnvelope)) true idleBudget true =
        (.ok selectReply.encode,
          { revision := 2, value := 9, boot := 0, last := some selectNine }, ()) := by
    rw [dispatch, Envelope.decode_eq_ok_iff.mpr ⟨rfl, hen⟩]
    rfl
  have ha : acceptReply selectReply.encode true selectEnvelope
      { server := .valid, pendingCurrent := true } =
        .success { revision := 2, value := 9, boot := 0 } := by
    rw [acceptReply, if_neg (by decide), show Reply.decode selectReply.encode true selectEnvelope =
      .ok selectReply from Reply.decode_encode selectReply]
    rfl
  -- the client after its start and after three calls
  let c : Client Unit := .fresh ⟨1, (), ()⟩ selectEnvelope
    (REQUEST_MAGIC ++ packWords (bodyWords selectEnvelope)) 4 1
  let polled (s : Session Nat Unit) : Session Nat Unit :=
    ⟨(s.client.poll H s.world).1.2, (s.client.poll H s.world).2,
      s.delivered ++ s.client.taken H s.world⟩
  have hs : ∀ s, Session.Step H s (polled s) := fun s => .poll s.client s.world s.delivered
  have hst : Client.startUntil H 0 selectEnvelope 5 1 = (some c, 0) := by
    rw [Client.startUntil, hen]
    rfl
  have hr : Relation.ReflTransGen (Session.Step H) ⟨c, 0, []⟩
    (polled (polled (polled ⟨c, 0, []⟩))) :=
    ((Relation.ReflTransGen.single (hs _)).tail (hs _)).tail (hs _)
  have hp : ((polled (polled (polled ⟨c, 0, []⟩))).client.poll H
      (polled (polled (polled ⟨c, 0, []⟩))).world).1.1 =
        some (.success { revision := 2, value := 9, boot := 0 }) := by
    decide +kernel +zetaReduce
  have h := protocol_truthful memoryRecord trusting H
  exact ⟨_, _, c, 0, _, hen, hd, hst, hr, hp,
    (h.2.2.2.1 0 selectEnvelope 5 1 c 0 _ hst hr).2.2 _ hp,
    h.2.2.2.2.1 _ _ _ _ _ _ _ _ _ _ _ _ _ _ hd ha⟩

end EndToEnd

end Anka.Authority
