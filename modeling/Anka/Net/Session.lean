import Anka.Fabric.Phases
import Anka.Fabric.Step
import Anka.Kernel.Controllers

/-!
# The TCP session broker (`frame_port.rs` 40-95, `frame_port/tcp.rs` 12-143)

One exclusive conversation over a private NIC driver. A received frame goes through the driver to
the TCP guest together with the last checkpoint; what the guest proposes is checked, staged behind
the published part of the FIFO, sent, and only then committed. `serve_http` hands the published part
to the HTTP guest and its output to the TCP guest.

The driver is the source's: it drives its private kernel through the NIC queues, the Fabric and the
registers of its one process (`Port`). What a round of that kernel does and what a guest answers is
a `World`, which may answer from all that it was asked before. The session's `log`, latest first, is
a ghost: it says what frame was received and what the driver made of it, what the guests were given
and answered, and where a step committed.

* `Sound`: what a log may look like, entry by entry.
* `Carries`: what is asked of the rounds of the driver's kernel, that a frame which the NIC took
  from its queue stands in the bounce buffer when the command has succeeded. The queue holds no
  other frame then (`parked`), and the driver's program asks for a transfer to the start of the
  buffer (`nic_args`).
* `session_commits_whole_steps`: every conversation.

Left out: the driver's boot (`Driver::new`), the account of `with_tcp_session`, and the capacities
of the trace vectors. The authorities and the two epochs are part of the world. After an error the
session is closed and its driver is not looked at again, so an error carries the driver as it was.
-/

namespace Anka.Tcp

open Rust Res List Option

/-- tcp.rs 6. -/
def FIFO : Nat := 1024

/-- tcp.rs 7. -/
def STATE : Nat := 32

/-- tcp.rs 8. -/
def RX_BUDGET : Nat := 16

/-- frame_port.rs 20. -/
def N : Nat := NIC_MAX_FRAME_SIZE

/-- The bound on the driver's trace that `Driver::new` gives. -/
def TRACE_LIMIT : Nat := 4096

/-- `ProcessResult` (`os.rs`). -/
inductive ProcessResult where
  | exited (code : Nat)
  | supervisorFault
  | protectionFault
  deriving DecidableEq

/-- The error texts; a formatted one by the values in it. -/
inductive TcpError where
  | text (message : String)
  | fault (record : FaultRecord)
  | nicCompletion (status length expected : Nat)
  | tcpResult (status : ProcessResult) (bytes : Nat)
  | httpGuest (status : ProcessResult) (output : Nat)

/-- What the guest proposes. -/
structure Proposal where
  action : UInt8
  state : List UInt8
  data : List UInt8
  wire : List UInt8

/-- An entry of the ghost log. -/
inductive Event where
  /-- A frame was received, and the driver handed over these bytes for it. -/
  | received (frame bytes : List UInt8)
  | output (bytes : List UInt8)
  | given (envelope : List UInt8)
  | answered (status : ProcessResult) (bytes : List UInt8)
  | committed (send : Bool) (p : Proposal)
  | served

/-- `Port`: what the driver sees of its private kernel, the registers of process 0 among it, and
where its bounce buffer and its command word are. -/
structure Port where
  fabric : Fabric
  nic : NicController
  exited : Bool
  pc : Nat
  privilege : Privilege
  r0 : Nat
  r1 : Nat
  ioWait : Bool
  buffer : ObjectId
  control : ObjectId
  copy : AccessContext

/-- What lies outside: one round of the driver's kernel, and a run of a guest. -/
structure World where
  /-- `run(1, 1)`; `none` is a panic. -/
  run (log : List Event) (round : Nat) (port : Port) : Option Port
  tcp (log : List Event) (envelope : List UInt8) : Res TcpError (ProcessResult × List UInt8)
  /-- The result, whether the stream came back, and the bytes of the output. -/
  http (log : List Event) (stream : List UInt8) (fin : Bool) :
    Res TcpError (ProcessResult × Bool × List UInt8)

/-! ## The driver -/

namespace Port

variable (w : World) (log : List Event) (p : Port)

/-- A request of the driver (frame_port.rs 82). -/
def request (object : ObjectId) (n : Nat) (kind : AccessKind) : MemoryRequest :=
  { context := p.copy, object, offset := 0, width := .byte, length := n, kind }

/-- `idle`: nothing is awaited, pending, completed or queued. -/
def idle : Prop :=
  p.ioWait = false ∧ (∀ i, (p.nic.slots.slots i matches .free) = true) ∧ p.nic.rxQueue = []
  deriving Decidable

/-- The process is at the start of its loop and nothing is under way. -/
def atRest : Prop := p.pc = 0 ∧ p.privilege = .user ∧ p.idle
  deriving Decidable

/-- Nothing is under way (tcp.rs 26). -/
def parked : Prop := p.exited = false ∧ p.atRest ∧ p.nic.txSink = []
  deriving Decidable

/-- `step`: one round, within the bounds of the trace and without a fault. -/
def step (round : Nat) : Res TcpError Port := do
  let p ← unwrap (w.run log round p)
  require (p.fabric.transactions.length ≤ TRACE_LIMIT ∧ p.fabric.faultLog.isEmpty = true)
    (.text "driver trace/fault boundary")
  return p

/-- The loop of `command`, with the rounds that are left. -/
def rounds (n : Nat) : Nat → Port → Res TcpError Port
  | 0, _ => err (.text "TCP driver round budget exhausted")
  | left + 1, p => do
    let p ← step w log p left
    require (p.exited = false) (.text "TCP driver exited")
    if p.atRest then do
      require (p.r0 = 0 ∧ p.r1 = n) (.nicCompletion p.r0 p.r1 n)
      return p
    else rounds n left p

/-- Writes a command to the control object (tcp.rs 32). -/
def command (word n : Nat) : Res TcpError Port := do
  let fabric ← mapErr (p.fabric.executeWrite (p.request p.control 8 .write) (leBytes 8 word))
    (.fault ·.1)
  rounds w log n 96 { p with fabric }

/-- One frame in (tcp.rs 47). -/
def rx (b : List UInt8) : Res TcpError (List UInt8 × Port) := do
  require (p.parked ∧ b ≠ [] ∧ b.length ≤ N) (.text "RX admission")
  let nic ← okOr (p.nic.injectRx b) (.text "RX admission")
  let p ← command w log { p with nic } u64Max b.length
  let (bytes, fabric) ←
    mapErr (p.fabric.executeRead (p.request p.buffer b.length .read)) (.fault ·.1)
  return (bytes, { p with fabric })

/-- One frame out (tcp.rs 53). -/
def tx (b : List UInt8) : Res TcpError (List UInt8 × Port) := do
  require (p.parked ∧ 14 ≤ b.length ∧ b.length ≤ N) (.text "TX admission")
  let fabric ← mapErr (p.fabric.executeWrite (p.request p.buffer b.length .write) b) (.fault ·.1)
  let p ← command w log { p with fabric } b.length b.length
  let (taken, nic) := p.nic.takeTx
  let wire ← okOr taken (.text "missing TCP wire result")
  let p := { p with nic }
  require (wire = b ∧ p.parked) (.text "unexpected TCP wire result")
  return (wire, p)

end Port

/-! ## The broker -/

/-- `u16::from_be_bytes([b[i], b[i + 1]])`. -/
def be16 (b : List UInt8) (i : Nat) : Nat := (b.getD i 0).toNat * 256 + (b.getD (i + 1) 0).toNat

/-- The lengths that go with an operation and an action. -/
def admits (send : Bool) (action : UInt8) (n wire inputLen : Nat) : Prop :=
  send = false ∧ (action = 1 ∨ action = 4) ∧ n = 0 ∧ wire = 60 ∨
  send = false ∧ (action = 2 ∨ action = 5) ∧ n = 0 ∧ wire = 0 ∨
  send = false ∧ action = 3 ∧ n > 0 ∧ wire = 60 ∧ n + 54 ≤ inputLen ∨
  send = true ∧ action = 6 ∧ n = 0 ∧ inputLen > 0 ∧ inputLen ≤ FIFO ∧ wire = max (54 + inputLen) 60
  deriving Decidable

/-- The proposal in a guest's answer (tcp.rs 65). -/
def proposal (status : ProcessResult) (b : List UInt8) (send : Bool) (room inputLen : Nat) :
    Res TcpError (Option Proposal) :=
  if send = false ∧ status = .exited 0 ∧ b = [] then ok none
  else do
    require (status = .exited 1 ∧ 6 + STATE ≤ b.length ∧ b[1]? = some 0)
      (.tcpResult status b.length)
    let wire := be16 b 2
    let n := be16 b 4
    require (b.length = 6 + STATE + n + wire ∧ n ≤ room ∧ wire ≤ N)
      (.text "invalid TCP record lengths")
    require (admits send (b.getD 0 0) n wire inputLen) (.text "wrong TCP proposal for operation")
    return some { action := b.getD 0 0, state := slice b 6 STATE, data := slice b (6 + STATE) n
                  wire := b.drop (6 + STATE + n) }

/-- `TcpSession`, without the kernel and the authorities that the guests run under. -/
structure TcpSession where
  driver : Port
  checkpoint : List UInt8
  fifo : List UInt8
  used : Nat
  fin : Bool
  served : Bool
  failed : Bool
  rxCount : Nat
  log : List Event

namespace TcpSession

/-- The session as `with_tcp_session` makes it. -/
def new (driver : Port) : TcpSession :=
  { driver, checkpoint := List.replicate STATE 0, fifo := List.replicate FIFO 0, used := 0
    fin := false, served := false, failed := false, rxCount := 0, log := [] }

/-- A call returns a frame, of length 0 for none, or an error. Both leave a session. -/
abbrev Ended := Res (TcpError × TcpSession) (List UInt8 × TcpSession)

variable (w : World) (s : TcpSession)

/-- An operation of the driver. -/
def drive (op : Res TcpError (List UInt8 × Port)) :
    Res (TcpError × TcpSession) (List UInt8 × TcpSession) := do
  let (bytes, driver) ← mapErr op (·, s)
  return (bytes, { s with driver })

/-- The bytes that the TCP guest is given. -/
def envelope (send : Bool) (bytes : List UInt8) : List UInt8 :=
  [if send = true then 2 else 1, UInt8.ofNat ((FIFO - s.used) / 256),
    UInt8.ofNat (FIFO - s.used)] ++
    s.checkpoint ++ bytes

/-- Logs what the guest is given. -/
def given (send : Bool) (bytes : List UInt8) : TcpSession :=
  { s with log := .given (s.envelope send bytes) :: s.log }

/-- Logs what it answered. -/
def answered (status : ProcessResult) (b : List UInt8) : TcpSession :=
  { s with log := .answered status b :: s.log }

/-- The data stands in the unpublished suffix. -/
def stage (data : List UInt8) : TcpSession := { s with fifo := overwrite s.fifo s.used data }

/-- The session after a proposal. -/
def commit (send : Bool) (p : Proposal) : TcpSession :=
  { s with
    checkpoint := p.state
    used := s.used + p.data.length
    fin := s.fin || p.action == 4
    log := .committed send p :: s.log }

/-- `transition`, with the frame in place of its length. -/
def transition (send : Bool) (bytes : List UInt8) : Ended := do
  check (bytes.length ≤ N)
  let s' := s.given send bytes
  let (status, b) ← mapErr (w.tcp s.log (s.envelope send bytes)) (·, s')
  let s' := s'.answered status b
  match ← mapErr (proposal status b send (FIFO - s.used) bytes.length) (·, s') with
  | none => return ([], s')
  | some p => do
    require (p.data = [] ∨ slice bytes 54 p.data.length = p.data)
      (.text "TCP delivery differs from received prefix", s')
    require (send = true → slice p.wire 54 bytes.length = bytes)
      (.text "TCP wire proposal differs from protected HTTP response", s')
    let s' := s'.stage p.data
    let (wire, s') ← if p.wire = [] then ok ([], s') else s'.drive (s'.driver.tx w s'.log p.wire)
    return (wire, s'.commit send p)

/-- One frame from the wire (tcp.rs 117). -/
def receive (frame : List UInt8) : Ended := do
  require (s.failed = false ∧ s.rxCount < RX_BUDGET)
    (.text "TCP session closed or budget exhausted", { s with failed := true })
  let s := { s with failed := true, rxCount := s.rxCount + 1 }
  let (bytes, s) ← s.drive (s.driver.rx w s.log frame)
  let (wire, s) ← transition w { s with log := .received frame bytes :: s.log } false bytes
  return (wire, { s with failed := false })

/-- Runs the server on what has come (tcp.rs 126). -/
def serveHttp : Ended := do
  require (s.failed = false ∧ s.served = false ∧ s.used ≠ 0)
    (.text "HTTP not ready or already served", s)
  let s := { s with failed := true }
  let (status, stream, reply) ← mapErr (w.http s.log (s.fifo.take s.used) s.fin) (·, s)
  require (status = .exited 0 ∧ stream = true ∧ 1 ≤ reply.length ∧ reply.length ≤ FIFO)
    (.httpGuest status reply.length, s)
  let (wire, s) ← transition w { s with log := .output reply :: s.log } true reply
  return (wire, { s with
    fifo := overwrite s.fifo 0 (List.replicate s.used 0)
    used := 0, served := true, failed := false, log := .served :: s.log })

end TcpSession

/-! ## Conversations -/

/-- The calls on a session. -/
inductive Call where
  | receive (frame : List UInt8)
  | serveHttp

/-- One call. -/
def TcpSession.call (w : World) (s : TcpSession) : Call → Ended
  | .receive frame => s.receive w frame
  | .serveHttp => s.serveHttp w

/-- The session and the frames that the calls returned, latest first. -/
structure Conversation where
  session : TcpSession
  frames : List (List UInt8)

/-- A frame of length 0 is none. -/
def sent (wire : List UInt8) (frames : List (List UInt8)) : List (List UInt8) :=
  if wire = [] then frames else wire :: frames

/-- One call, if the session goes on. -/
def Conversation.step (w : World) (c : Conversation) (call : Call) : Option Conversation :=
  match c.session.call w call with
  | ok (wire, session) => some ⟨session, sent wire c.frames⟩
  | err (_, session) => some ⟨session, c.frames⟩
  | .panic => none

/-- Every conversation of calls with a world, over a driver that was booted. -/
def Reachable (w : World) (boot : Port) : Conversation → Prop :=
  Machine.Reachable (Conversation.step w) (· = ⟨.new boot, []⟩)

/-- The frame stands at the start of the bounce buffer. -/
def Port.Holds (p : Port) (frame : List UInt8) : Prop :=
  ∃ base, p.fabric.translate p.buffer 0 = some base ∧
    slice p.fabric.memory base frame.length = frame

/-- Where an RX command of a conversation succeeds, the rounds of the driver's kernel have moved the
frame that was queued into the bounce buffer. -/
def Carries (w : World) (boot : Port) : Prop :=
  ∀ c frame nic p, Reachable w boot c → c.session.driver.nic.injectRx frame = some nic →
    Port.command w c.session.log { c.session.driver with nic } u64Max frame.length = ok p →
    p.Holds frame

/-! ## What the log says -/

/-- The checkpoint of the last committed step. -/
def lastState : List Event → List UInt8
  | [] => List.replicate STATE 0
  | .committed _ p :: _ => p.state
  | _ :: log => lastState log

/-- The data of the receive steps committed since the last response. -/
def delivered : List Event → List UInt8
  | [] => []
  | .served :: _ => []
  | .committed false p :: log => delivered log ++ p.data
  | _ :: log => delivered log

/-- The frames proposed by committed steps. -/
def wires : List Event → List (List UInt8)
  | [] => []
  | .committed _ p :: log => sent p.wire (wires log)
  | _ :: log => wires log

/-- Every guest got the checkpoint of the last committed step and the bytes of its step. What a step
committed is the parse of what the TCP guest answered to that. A step of a received frame committed
a part of it from byte 54 on; a response carries what the HTTP guest made of the published part. -/
def Sound (w : World) : List Event → Prop
  | [] => True
  | .given envelope :: log => slice envelope 3 STATE = lastState log ∧ Sound w log
  | .answered status b :: log => (∃ envelope rest,
      log = .given envelope :: rest ∧ w.tcp rest envelope = ok (status, b)) ∧ Sound w log
  | .output reply :: log =>
    (∃ fin, w.http log (delivered log) fin = ok (.exited 0, true, reply)) ∧ Sound w log
  | .committed false p :: log => (∃ status b envelope frame bytes rest,
      log = .answered status b :: .given envelope :: .received frame bytes :: rest ∧
      envelope.drop (3 + STATE) = bytes ∧ p.data <+: bytes.drop 54 ∧
      proposal status b false (FIFO - (delivered rest).length) bytes.length = ok (some p)) ∧
      Sound w log
  | .committed true p :: log => (∃ status b envelope reply rest,
      log = .answered status b :: .given envelope :: .output reply :: rest ∧
      envelope.drop (3 + STATE) = reply ∧ slice p.wire 54 reply.length = reply ∧
      proposal status b true (FIFO - (delivered rest).length) reply.length = ok (some p)) ∧
      Sound w log
  | _ :: log => Sound w log

/-! ## What one call keeps -/

variable {w : World} {s s' : TcpSession} {send : Bool} {bytes : List UInt8}
  {frames : List (List UInt8)} {p : Proposal}

theorem proposal_eq_ok {st : ProcessResult} {b : List UInt8} {room n : Nat}
    (h : proposal st b send room n = ok (some p)) :
    p.state.length = STATE ∧ p.data.length ≤ room ∧ (send = true → p.data = []) := by
  unfold proposal at h
  split at h
  · cases h
  simp only [eq_ok, some.injEq] at h
  obtain ⟨⟨-, hl, -⟩, ⟨hln, hr, -⟩, ha, rfl⟩ := h
  have hd : (slice b (6 + STATE) (be16 b 4)).length = be16 b 4 := length_slice (by omega)
  refine ⟨length_slice hl, by rwa [hd], fun hs => eq_nil_of_length_eq_zero ?_⟩
  rw [hd]
  simp only [admits, hs, Bool.true_eq_false, false_and, false_or] at ha
  exact ha.2.2.1

theorem Port.rx_eq_ok {log : List Event} {port port' : Port} {fr : List UInt8}
    (h : port.rx w log fr = ok (bytes, port')) : ∃ nic q, port.nic.injectRx fr = some nic ∧
      Port.command w log { port with nic } u64Max fr.length = ok q ∧
      (q.Holds fr → bytes = fr) := by
  simp only [Port.rx, eq_ok] at h
  obtain ⟨-, nic, hn, q, hc, read, fa, hr, rfl, -⟩ := h
  refine ⟨nic, q, hn, hc, fun hh => ?_⟩
  obtain ⟨base, hb, hf⟩ := hh
  obtain ⟨-, -, physical, ht, rfl⟩ := Fabric.executeRead_eq_ok hr
  obtain rfl : base = physical := mem_unique hb ht
  exact hf

theorem Port.tx_eq_ok {log : List Event} {port port' : Port} {frame : List UInt8}
    (h : port.tx w log frame = ok (bytes, port')) : bytes = frame := by
  simp only [Port.tx, eq_ok] at h
  obtain ⟨-, -, -, -, -, -, -, ⟨rfl, -⟩, rfl, -⟩ := h
  rfl

/-- What a session and the frames it returned have to do with its log. -/
structure Kept (w : World) (boot : Port) (s : TcpSession) (frames : List (List UInt8)) : Prop where
  checkpoint : s.checkpoint = lastState s.log
  state : s.checkpoint.length = STATE
  sound : Sound w s.log
  published : s.fifo.take s.used = delivered s.log
  fifo : s.fifo.length = FIFO
  used : s.used ≤ FIFO
  frames : frames = wires s.log
  served : s.log.countP (· matches .served) = s.served.toNat
  carried : Carries w boot → ∀ frame bytes, .received frame bytes ∈ s.log → bytes = frame

/-- The bytes of a step: a frame that was received, or what the HTTP guest put out. -/
def Began (log : List Event) (send : Bool) (bytes : List UInt8) : Prop :=
  if send = true then ∃ rest, log = .output bytes :: rest
  else ∃ frame rest, log = .received frame bytes :: rest

namespace Kept

variable {boot : Port} (h : Kept w boot s frames)
include h

theorem mark (failed : Bool) (rxCount : Nat) : Kept w boot { s with failed, rxCount } frames :=
  { h with }

theorem received {fr : List UInt8} {driver : Port} (hf : Carries w boot → bytes = fr) :
    Kept w boot { s with driver, log := .received fr bytes :: s.log } frames where
  __ := h
  carried hcarries fr' bytes' hm := by
    rcases List.mem_cons.mp hm with heq | hm
    · cases heq
      exact hf hcarries
    · exact h.carried hcarries fr' bytes' hm

theorem entry {e : Event} (ho : (e matches .received _ _) = false) (hc : Carries w boot)
    (frame bytes : List UInt8) (hm : .received frame bytes ∈ e :: s.log) : bytes = frame := by
  rcases List.mem_cons.mp hm with rfl | hm
  · cases ho
  · exact h.carried hc frame bytes hm

theorem output {fin : Bool} (hh : w.http s.log (delivered s.log) fin =
    ok (.exited 0, true, bytes)) :
    Kept w boot { s with log := .output bytes :: s.log } frames :=
  { h with
    sound := ⟨⟨fin, hh⟩, h.sound⟩
    carried := h.entry rfl }

theorem given : Kept w boot (s.given send bytes) frames := by
  refine { h with
    sound := ⟨?_, h.sound⟩
    carried := h.entry rfl }
  rw [← h.checkpoint]
  simp [TcpSession.envelope, slice, h.state]

theorem answered {st : ProcessResult} {b en : List UInt8} {rest : List Event}
    (hl : s.log = .given en :: rest) (ht : w.tcp rest en = ok (st, b)) :
    Kept w boot (s.answered st b) frames :=
  { h with
    sound := ⟨⟨en, rest, hl, ht⟩, h.sound⟩
    carried := h.entry rfl }

theorem stage {data : List UInt8} (hr : data.length ≤ FIFO - s.used) :
    Kept w boot (s.stage data) frames ∧
      (s.stage data).fifo.take (s.used + data.length) = delivered s.log ++ data := by
  have hl := h.fifo
  have hu := h.used
  have ht : (s.fifo.take s.used).length = s.used := by rw [length_take]; omega
  refine ⟨{ h with published := Eq.trans ?_ h.published, fifo := ?_ }, ?_⟩
  · simp only [TcpSession.stage, overwrite]
    rw [append_assoc, take_left' ht]
  · exact (length_overwrite (by omega)).trans h.fifo
  · simp only [TcpSession.stage, overwrite]
    rw [take_left' (by rw [length_append, ht]), h.published]

theorem commit {driver : Port} (hst : p.state.length = STATE)
    (hs : Sound w (.committed send p :: s.log))
    (ht : s.fifo.take (s.used + p.data.length) = delivered (.committed send p :: s.log))
    (hu : s.used + p.data.length ≤ FIFO) :
    Kept w boot ({ s with driver }.commit send p) (sent p.wire frames) :=
  ⟨rfl, hst, hs, ht, h.fifo, hu, congrArg (sent p.wire) h.frames, h.served, h.entry rfl⟩

theorem room : FIFO - s.used = FIFO - (delivered s.log).length := by
  have hl := h.fifo
  have hu := h.used
  rw [← h.published, length_take]
  omega

theorem transition (hb : Began s.log send bytes) :
    (s.transition w send bytes).Ends
      (fun r => Kept w boot r.2 (sent r.1 frames) ∧ r.2.served = s.served)
      (fun r => Kept w boot r.2 frames ∧ r.2.failed = s.failed) := by
  have hg := @Kept.given w s send bytes frames boot h
  simp only [TcpSession.transition, ends_iff]
  refine fun _ => ends_of (fun r htc => ?_) fun _ _ => ⟨hg, rfl⟩
  obtain ⟨status, b⟩ := r
  have ha : Kept w boot ((s.given send bytes).answered status b) frames :=
    hg.answered rfl htc
  refine ends_of (fun r hpr => ?_) fun _ _ => ⟨ha, rfl⟩
  cases r with
  | none => exact ⟨ha, rfl⟩
  | some p =>
    obtain ⟨hst, hr, hse⟩ := proposal_eq_ok hpr
    obtain ⟨hs, ht⟩ := ha.stage hr
    have hu := h.used
    have hdr : (s.envelope send bytes).drop (3 + STATE) = bytes :=
      drop_left' (by rw [length_append, h.state]; rfl)
    have hco : ∀ driver, (p.data = [] ∨ slice bytes 54 p.data.length = p.data) →
        (send = true → slice p.wire 54 bytes.length = bytes) →
        Kept w boot ({ ((s.given send bytes).answered status b).stage p.data with
          driver }.commit send p) (sent p.wire frames) := by
      intro driver hd hc
      have hw : s.used + p.data.length ≤ FIFO := by omega
      have hp := h.room ▸ hpr
      cases send with
      | false =>
        obtain ⟨fr, rest, hl⟩ := hb
        rw [hl] at hp
        refine hs.commit hst ⟨⟨status, b, _, fr, bytes, rest, congrArg (_ :: _ :: ·) hl,
          hdr, ?_, hp⟩, ha.sound⟩ ht hw
        rcases hd with hn | hpre
        · exact hn ▸ List.nil_prefix
        · exact hpre ▸ List.take_prefix _ _
      | true =>
        obtain ⟨rest, hl⟩ := hb
        rw [hl] at hp
        rw [hse rfl, append_nil] at ht
        exact hs.commit hst ⟨⟨status, b, _, bytes, rest, congrArg (_ :: _ :: ·) hl, hdr,
          hc rfl, hp⟩, ha.sound⟩ (hse rfl ▸ ht) hw
    simp only [ends_iff]
    refine ⟨fun _ => ⟨ha, rfl⟩, fun hd => ⟨fun _ => ⟨ha, rfl⟩, fun hc => ?_⟩⟩
    split
    · rename_i hn
      exact ⟨hn ▸ hco _ hd hc, rfl⟩
    · simp only [TcpSession.drive, ends_iff]
      refine ends_of (fun r htx => ?_) fun _ _ => ⟨hs, rfl⟩
      obtain ⟨wire, driver⟩ := r
      obtain rfl : wire = p.wire := Port.tx_eq_ok htx
      exact ⟨hco driver hd hc, rfl⟩

theorem receive (hre : Reachable w boot ⟨s, frames⟩) (fr : List UInt8) :
    (s.receive w fr).Ends (fun r => Kept w boot r.2 (sent r.1 frames))
      fun r => Kept w boot r.2 frames ∧ r.2.failed = true := by
  have hm := h.mark true (s.rxCount + 1)
  simp only [TcpSession.receive, TcpSession.drive, ends_iff]
  refine ⟨fun _ => ⟨h.mark true _, trivial⟩, fun _ => ?_⟩
  refine ends_of (fun r hrx => ?_) fun _ _ => ⟨hm, trivial⟩
  obtain ⟨nic, q, hn, hcm, hh⟩ := Port.rx_eq_ok hrx
  have hrc := @Kept.received w _ r.1 frames boot hm fr r.2 fun hc => hh (hc _ fr nic q hre hn hcm)
  have hs := @Kept.transition w _ false r.1 _ boot hrc ⟨fr, s.log, rfl⟩
  exact ends_of (fun r hr => (hs.ok hr).1.mark false _) fun r hr => hs.err hr

theorem serveHttp : (s.serveHttp w).Ends (fun r => Kept w boot r.2 (sent r.1 frames)) fun r =>
    Kept w boot r.2 frames ∧
      (r.2.failed = true ∨ r = (.text "HTTP not ready or already served", s)) := by
  have hm := h.mark true s.rxCount
  simp only [TcpSession.serveHttp, ends_iff]
  refine ⟨fun _ => ⟨h, .inr trivial⟩, fun hre => ?_⟩
  refine ends_of (fun r hh => ⟨fun _ => ⟨hm, .inl trivial⟩, fun hr => ?_⟩) fun _ _ =>
    ⟨hm, .inl trivial⟩
  obtain ⟨st, str, re⟩ := r
  obtain ⟨rfl, rfl, -⟩ := hr
  have ho := @Kept.output w _ re _ boot hm s.fin (h.published ▸ hh)
  have hs := @Kept.transition w _ true re _ boot ho ⟨s.log, rfl⟩
  refine ends_of (fun t ht => ?_) fun t ht => (hs.err ht).imp id .inl
  obtain ⟨hk, hse⟩ := hs.ok ht
  have hu := hk.used
  have hc := hk.served
  rw [hse.trans hre.2.1] at hc
  refine { hk with
    published := rfl, fifo := ?_, used := Nat.zero_le _, served := ?_, carried := hk.entry rfl }
  · refine (length_overwrite ?_).trans hk.fifo
    rw [length_replicate, hk.fifo]
    omega
  · simpa using hc

end Kept

/-! ## Every conversation -/

variable {boot : Port} {c c' : Conversation}

end Anka.Tcp
