import Anka.Lib.Res

/-!
# The architectural state space (`state.rs`)

Identities, generations, permissions, capabilities, objects, domains, requests, transactions and
fault records, as `src/src/anka64/state.rs` declares them. Identities are newtypes over `u64`
there and over `Nat` here; a `u8` bitfield is a `BitVec 8`.

The algebra the authority results rest on is at the end: `contains` is a preorder on permission
sets (`Permissions.contains_trans`), and `Capability64.covers`, which the source writes in
subtraction form so that no sum can overflow, is containment of half-open ranges
(`covers_iff`).
-/

namespace Anka

open Rust

/-! ## Identities -/

/-- Identifies a CPU core. -/
structure CoreId where
  raw : Nat

/-- Identifies any bus master. -/
structure AgentId where
  raw : Nat
  deriving DecidableEq

/-- Identifies a protection domain. -/
structure DomainId where
  raw : Nat
  deriving DecidableEq

/-- Identifies a memory object. -/
structure ObjectId where
  raw : Nat
  deriving DecidableEq

/-- Identifies a fabric transaction. -/
structure TransactionId where
  raw : Nat

/-- Protected identity of one installed authority. -/
structure AuthorityId where
  raw : Nat
  deriving DecidableEq

/-- Object/capability generation counter. -/
structure Generation where
  raw : Nat
  deriving DecidableEq

/-- `Generation::next`: wrapping increment. -/
def Generation.next (g : Generation) : Generation := ⟨wrappingAdd g.raw 1⟩

/-- Generation-qualified process identity. -/
structure ProcessKey where
  slot : Nat
  generation : Nat
  deriving DecidableEq

/-! ## Permissions and rights -/

/-- Permission bitfield. -/
structure Permissions where
  bits : BitVec 8
  deriving DecidableEq

namespace Permissions

/-- Line 61. -/
def READ : Permissions := ⟨0x01⟩
/-- Line 62. -/
def WRITE : Permissions := ⟨0x02⟩
/-- Line 63. -/
def EXECUTE : Permissions := ⟨0x04⟩
/-- Line 64. -/
def ATOMIC : Permissions := ⟨0x08⟩
/-- Line 70. -/
def SEAL : Permissions := ⟨0x10⟩
/-- Line 71. -/
def RW : Permissions := ⟨0x03⟩

/-- Every required bit is set. -/
def contains (p required : Permissions) : Bool := p.bits &&& required.bits == required.bits

/-- No bit beyond `superset` (96). -/
def isSubsetOf (p superset : Permissions) : Bool := superset.contains p

/-- `from_bits_checked`: no bit outside R, W, X, ATOMIC and SEAL. -/
def fromBitsChecked (bits : Nat) : Option Permissions :=
  if bits ≤ 0x1F then some ⟨BitVec.ofNat 8 bits⟩ else none

end Permissions

/-- Permission bitfield for device objects. -/
structure DeviceRights where
  bits : BitVec 8
  deriving DecidableEq

namespace DeviceRights

/-- All required bits are set (700). -/
def contains (p required : DeviceRights) : Bool := p.bits &&& required.bits == required.bits

/-- No bit beyond `superset` (704). -/
def isSubsetOf (p superset : DeviceRights) : Bool := superset.contains p

end DeviceRights

/-! ## Capabilities and objects -/

/-- Authority over a range within an object. -/
structure Capability64 where
  object : ObjectId
  generation : Generation
  offset : Nat
  length : Nat
  permissions : Permissions
  deriving DecidableEq

/-- `Capability64::covers`: same object, sufficient permissions, range inside the window. The
generation is not checked here. -/
def Capability64.covers (c : Capability64) (object : ObjectId) (reqOffset reqWidth : Nat)
    (required : Permissions) : Bool :=
  decide (c.object = object) && decide (0 < reqWidth) && c.permissions.contains required &&
    decide (c.offset ≤ reqOffset) && decide (reqWidth ≤ c.length) &&
    decide (reqOffset - c.offset ≤ c.length - reqWidth)

/-- Object lifecycle. -/
inductive ObjectState where
  | active
  | sealed
  | revoked
  | freed
  deriving DecidableEq

/-- `matches!(state, Active | Sealed)`. -/
def ObjectState.isLive : ObjectState → Bool
  | active => true
  | sealed => true
  | revoked => false
  | freed => false

/-- What an object is. -/
inductive ObjectKind where
  | memory
  | device
  | ipc
  deriving DecidableEq

/-- A memory object; its placement belongs to the translation layer. -/
structure Object where
  id : ObjectId
  generation : Generation
  size : Nat
  state : ObjectState
  kind : ObjectKind
  name : String

/-- The two levels. -/
inductive Privilege where
  | user
  | supervisor
  deriving DecidableEq

/-- The CPU is one kind of bus master. -/
inductive AgentKind where
  | cpu (core : CoreId)
  | dma
  | gpu
  | storage
  | network

/-- `matches!(kind, AgentKind::Cpu(_))`. -/
def AgentKind.isCpu : AgentKind → Bool
  | cpu _ => true
  | _ => false

/-- Who makes requests. -/
structure AgentState where
  id : AgentId
  kind : AgentKind
  domain : DomainId

/-- A capability with its optional protected identity. -/
structure CapabilityEntry where
  cap : Capability64
  authorityId : Option AuthorityId

/-- Access to a device. -/
structure DeviceAuthorityEntry where
  object : ObjectId
  generation : Generation
  rights : DeviceRights
  authorityId : AuthorityId

/-- A protection domain: an authority container. -/
structure DomainState where
  id : DomainId
  capabilities : List CapabilityEntry
  deviceAuthorities : List DeviceAuthorityEntry

/-! ## Requests, transactions and faults -/

/-- The kinds of access. -/
inductive AccessKind where
  | fetch
  | read
  | write
  | atomic
  deriving DecidableEq

/-- What an access needs (298). -/
def AccessKind.requiredPermission : AccessKind → Permissions
  | fetch => .EXECUTE
  | read => .READ
  | write => .WRITE
  | atomic => .ATOMIC

/-- `matches!(kind, AccessKind::Write | AccessKind::Atomic)`. -/
def AccessKind.mutates : AccessKind → Bool
  | write => true
  | atomic => true
  | _ => false

/-- The widths of an access. -/
inductive Width where
  | byte
  | half
  | word
  | double
  deriving DecidableEq

/-- Its bytes (318). -/
def Width.bytes : Width → Nat
  | byte => 1
  | half => 2
  | word => 4
  | double => 8

/-- In whose name. -/
structure AccessContext where
  agent : AgentId
  domain : DomainId
  privilege : Privilege
  deriving DecidableEq

/-- One object and an explicit byte span. -/
structure MemoryRequest where
  context : AccessContext
  object : ObjectId
  offset : Nat
  width : Width
  length : Nat
  kind : AccessKind
  deriving DecidableEq

/-- Transaction lifecycle phase. -/
inductive TxState where
  | requested
  | authorized
  | prepared
  | committed
  | faulted
  deriving DecidableEq

/-- No phase follows (379). -/
def TxState.isTerminal : TxState → Bool
  | committed => true
  | faulted => true
  | _ => false

/-- Why an access is denied. -/
inductive FaultReason where
  | noCapability
  | staleGeneration
  | wrongPermission
  | invalidObject
  | translationFault
  | alignmentFault
  | controlFlowViolation
  | illegalInstruction
  | lengthMismatch
  | invalidSpan
  deriving DecidableEq

/-- One denial. -/
structure FaultRecord where
  agent : AgentId
  domain : DomainId
  privilege : Privilege
  transaction : TransactionId
  object : ObjectId
  generation : Option Generation
  offset : Nat
  width : Width
  length : Nat
  kind : AccessKind
  pc : Option Nat
  reason : FaultReason

/-- A fabric transaction with explicit lifecycle. -/
structure Transaction where
  id : TransactionId
  request : MemoryRequest
  state : TxState
  authGeneration : Option Generation
  physicalAddress : Option Nat
  writeData : Option (List UInt8)
  readData : Option (List UInt8)
  fault : Option FaultRecord

/-- A schedulable event of the deterministic scheduler. -/
inductive Event where
  | advance (idx : Nat)
  | revoke (id : ObjectId)
  | move (id : ObjectId) (base : Nat)

/-! ## Permission and range algebra -/

theorem Permissions.contains_iff {p q : Permissions} :
    p.contains q = true ↔ p.bits &&& q.bits = q.bits := by
  unfold contains
  exact beq_iff_eq

theorem Permissions.contains_trans {p q r : Permissions} (hp : p.contains q = true)
    (hq : q.contains r = true) : p.contains r = true := by
  rw [contains_iff] at *
  calc p.bits &&& r.bits = p.bits &&& (q.bits &&& r.bits) := by rw [hq]
    _ = (p.bits &&& q.bits) &&& r.bits := (BitVec.and_assoc _ _ _).symm
    _ = r.bits := by rw [hp, hq]

/-- **The subtraction form is range containment.** -/
theorem Capability64.covers_iff {c : Capability64} {ob : ObjectId} {o n : Nat} {r : Permissions} :
    c.covers ob o n r = true ↔
      c.object = ob ∧ 0 < n ∧ c.permissions.contains r = true ∧ c.offset ≤ o ∧
        o + n ≤ c.offset + c.length := by
  unfold covers
  simp only [Bool.and_eq_true, decide_eq_true_eq]
  constructor
  · rintro ⟨⟨⟨⟨⟨h1, h2⟩, h3⟩, h4⟩, h5⟩, h6⟩
    exact ⟨h1, h2, h3, h4, by omega⟩
  · rintro ⟨h1, h2, h3, h4, h5⟩
    exact ⟨⟨⟨⟨⟨h1, h2⟩, h3⟩, h4⟩, by omega⟩, by omega⟩

theorem ObjectState.isLive_iff {s : ObjectState} : s.isLive = true ↔ s = .active ∨ s = .sealed := by
  cases s <;> simp [isLive]

end Anka
