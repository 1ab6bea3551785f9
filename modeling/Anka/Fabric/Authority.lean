import Anka.Fabric.Objects

/-!
# The Fabric: capabilities and authorization (`fabric.rs`)

Capabilities are minted by `grant` and `grant_with_authority_id` from an object, and by `derive`
and `derive_from_authority_id` from a parent capability; the two DMA delegations derive into a
fresh domain. Entries of a domain are never purged when an object changes: `validate` makes them
stale by the generation instead.

The fields of a `Capability64` are private and its constructor has no caller but the four minting
functions, so the parent a caller can pass to `derive` is a capability some mint returned; the
history says which those are (`Minted`).
-/

namespace Anka.Fabric

open Rust Res

variable (f : Fabric)

/-- A mint returned this capability. -/
def Minted (cap : Capability64) : Prop :=
  ∃ domain, .granted domain cap ∈ f.history ∨ .derived domain cap ∈ f.history

/-- The effect minted this capability. -/
def mints (cap : Capability64) : Effect → Bool
  | .granted _ c => c == cap
  | .derived _ c => c == cap
  | _ => false

/-- `validate`: the object is alive, the generation is current, the range is inside. -/
def validate (cap : Capability64) : Bool :=
  !f.privateHeapObject cap.object && (f.objects.get cap.object).any fun obj =>
    obj.state.isLive && decide (cap.generation = obj.generation) &&
      decide (cap.length ≤ obj.size) && decide (cap.offset ≤ obj.size - cap.length)

/-- `has_authority_id`: over both authority collections. -/
def hasAuthorityId (domain : DomainId) (target : AuthorityId) : Bool :=
  (f.domains.get domain).any fun d => d.capabilities.any (fun e => e.authorityId == some target) ||
    d.deviceAuthorities.any (fun e => e.authorityId == target)

/-- The object is a protected pointer stack of another domain. -/
def foreignStack (object : ObjectId) (domain : DomainId) : Bool :=
  (f.pointerStackObjects.get object).any fun binding => binding.2 != domain

/-- The `match obj.state` of both grants: which permissions an object in this state gives out. -/
def grantable : ObjectState → Permissions → Bool
  | .active, perms => !perms.contains .EXECUTE
  | .sealed, perms =>
    !(perms.contains .WRITE || perms.contains .ATOMIC || perms.contains .SEAL)
  | _, _ => false

/-- `self.domains.get_mut(&domain)?.capabilities.push(entry)`. -/
def pushCapability (domain : DomainId) (entry : CapabilityEntry) (effect : Effect) :
    Res Unit Fabric := do
  let d ← okOr (f.domains.get domain) ()
  let d := { d with capabilities := d.capabilities ++ [entry] }
  return { f with domains := f.domains.insert domain d, history := effect :: f.history }

/-- What `grant` and `grant_with_authority_id` have in common after their own first checks. -/
def mintRoot (domain : DomainId) (obj : Object) (object : ObjectId) (offset length : Nat)
    (perms : Permissions) (authorityId : Option AuthorityId) :
    Res Unit (Capability64 × Fabric) := do
  require (grantable obj.state perms = true) ()
  require (length ≤ obj.size) ()
  require (offset ≤ obj.size - length) ()
  let cap : Capability64 :=
    { object, generation := obj.generation, offset, length, permissions := perms }
  let f ← f.pushCapability domain { cap, authorityId } (.granted domain cap)
  return (cap, f)

/-- A capability with a fresh authority (472). -/
def grant (domain : DomainId) (object : ObjectId) (offset length : Nat) (perms : Permissions) :
    Res Unit (Capability64 × Fabric) := do
  require (f.privateHeapObject object = false) ()
  require (f.foreignStack object domain = false) ()
  let obj ← okOr (f.objects.get object) ()
  require (obj.kind = .memory) ()
  f.mintRoot domain obj object offset length perms none

/-- `grant_with_authority_id`: the identity must be new to the domain. -/
def grantWithAuthorityId (domain : DomainId) (object : ObjectId) (offset length : Nat)
    (perms : Permissions) (authorityId : AuthorityId) : Res Unit (Capability64 × Fabric) := do
  require (f.privateHeapObject object = false) ()
  require (f.foreignStack object domain = false) ()
  let obj ← okOr (f.objects.get object) ()
  require (obj.kind = .memory) ()
  require (f.hasAuthorityId domain authorityId = false) ()
  f.mintRoot domain obj object offset length perms (some authorityId)

/-- `remove_by_authority_id`: one entry, memory authorities first. -/
def removeByAuthorityId (domain : DomainId) (target : AuthorityId) : Bool × Fabric :=
  match f.domains.get domain with
  | none => (false, f)
  | some d =>
    match d.capabilities.findIdx? fun e => e.authorityId == some target with
    | some pos =>
      let d := { d with capabilities := d.capabilities.eraseIdx pos }
      (true, { f with domains := f.domains.insert domain d })
    | none =>
      match d.deviceAuthorities.findIdx? fun e => e.authorityId == target with
      | some pos =>
        let d := { d with deviceAuthorities := d.deviceAuthorities.eraseIdx pos }
        (true, { f with domains := f.domains.insert domain d })
      | none => (false, f)

/-- The subset checks of a derivation, in the source's subtraction form. -/
def narrows (parent : Capability64) (childOffset childLength : Nat) (childPerms : Permissions) :
    Bool :=
  childPerms.isSubsetOf parent.permissions && decide (parent.offset ≤ childOffset) &&
    decide (childLength ≤ parent.length) &&
    decide (childOffset - parent.offset ≤ parent.length - childLength)

/-- The child capability of a derivation. -/
def childOf (parent : Capability64) (offset length : Nat) (permissions : Permissions) :
    Capability64 :=
  { object := parent.object, generation := parent.generation, offset, length, permissions }

/-- The entry of a domain that carries an authority identity. -/
def authorityEntry (domain : DomainId) (target : AuthorityId) : Option CapabilityEntry :=
  (f.domains.get domain).bind fun d => d.capabilities.find? fun e => e.authorityId == some target

/-- `derive_from_authority_id`: zero-length children are refused here and only here. -/
def deriveFromAuthorityId (srcDomain : DomainId) (sourceAuthorityId : AuthorityId)
    (dstDomain : DomainId) (childOffset childLength : Nat) (childPerms : Permissions)
    (newAuthorityId : AuthorityId) : Res Unit (Capability64 × Fabric) := do
  let entry ← okOr (f.authorityEntry srcDomain sourceAuthorityId) ()
  let parent := entry.cap
  require (f.foreignStack parent.object dstDomain = false) ()
  let obj ← okOr (f.objects.get parent.object) ()
  require (obj.kind = .memory) ()
  require (f.validate parent = true) ()
  require (childLength ≠ 0) ()
  require (narrows parent childOffset childLength childPerms = true) ()
  require (f.hasAuthorityId dstDomain newAuthorityId = false) ()
  let cap := childOf parent childOffset childLength childPerms
  let f ← f.pushCapability dstDomain { cap, authorityId := some newAuthorityId }
    (.derived dstDomain cap)
  return (cap, f)

/-- A narrower capability of the same object (749). -/
def derive (domain : DomainId) (parent : Capability64) (childOffset childLength : Nat)
    (childPerms : Permissions) : Res Unit (Capability64 × Fabric) := do
  require (f.foreignStack parent.object domain = false) ()
  let obj ← okOr (f.objects.get parent.object) ()
  require (obj.kind = .memory) ()
  require (f.validate parent = true) ()
  require (narrows parent childOffset childLength childPerms = true) ()
  let cap := childOf parent childOffset childLength childPerms
  let f ← f.pushCapability domain { cap, authorityId := none } (.derived domain cap)
  return (cap, f)

/-- `self.domains.get_mut(&domain)?.device_authorities.push(entry)`. -/
def pushDeviceAuthority (domain : DomainId) (entry : DeviceAuthorityEntry) :
    Res Unit Fabric := do
  let d ← okOr (f.domains.get domain) ()
  let d := { d with deviceAuthorities := d.deviceAuthorities ++ [entry] }
  return { f with domains := f.domains.insert domain d }

/-- `derive_device_from_authority_id`: presented and backing authority must be equal. -/
def deriveDeviceFromAuthorityId (srcDomain : DomainId) (sourceAuthorityId : AuthorityId)
    (expectedObject : ObjectId) (expectedGeneration : Generation) (exactSourceRights : DeviceRights)
    (dstDomain : DomainId) (childRights : DeviceRights) (newAuthorityId : AuthorityId) :
    Res Unit ((ObjectId × Generation × DeviceRights) × Fabric) := do
  let dom ← okOr (f.domains.get srcDomain) ()
  let entry ← okOr (dom.deviceAuthorities.find? fun e => e.authorityId == sourceAuthorityId) ()
  require (entry.object = expectedObject ∧ entry.generation = expectedGeneration ∧
    entry.rights = exactSourceRights) ()
  let obj ← okOr (f.objects.get expectedObject) ()
  require (obj.kind = .device ∧ obj.state = .active ∧ obj.generation = expectedGeneration) ()
  require (childRights.isSubsetOf exactSourceRights = true) ()
  require (f.hasAuthorityId dstDomain newAuthorityId = false) ()
  let f ← f.pushDeviceAuthority dstDomain
    { object := expectedObject, generation := expectedGeneration, rights := childRights
      authorityId := newAuthorityId }
  return ((expectedObject, expectedGeneration, childRights), f)

/-- Device authority under a given identity (828). -/
def grantDeviceWithAuthorityId (domain : DomainId) (object : ObjectId) (rights : DeviceRights)
    (authorityId : AuthorityId) : Res Unit Fabric := do
  require (f.privateHeapObject object = false) ()
  let obj ← okOr (f.objects.get object) ()
  require (obj.kind = .device) ()
  require (obj.state = .active) ()
  require (f.hasAuthorityId domain authorityId = false) ()
  f.pushDeviceAuthority domain { object, generation := obj.generation, rights, authorityId }

/-- `find_authorizing_cap`: the first valid capability that covers the range. -/
def findAuthorizingCap (domain : DomainId) (object : ObjectId) (offset length : Nat)
    (required : Permissions) : Option Capability64 :=
  (f.domains.get domain).bind fun d =>
    (d.capabilities.map (·.cap)).find? fun cap =>
      f.validate cap && cap.covers object offset length required

/-- A fresh domain with exactly one derived capability; the domain goes again when the derivation
fails, its number does not come back. -/
def deriveIntoFresh (parent : Capability64) (offset length : Nat) (perms : Permissions) :
    Res Fabric (DomainId × Fabric) := do
  let (dmaDomain, f) ← f.createDomain
  let (_, f) ← mapErr (f.derive dmaDomain parent offset length perms) fun _ =>
    f.destroyDomain dmaDomain
  return (dmaDomain, f)

/-- `delegate_dma_span`: an error carries the Fabric that the call leaves. -/
def delegateDmaSpan (sourceDomain : DomainId) (object : ObjectId) (offset length : Nat)
    (perms : Permissions) : Res Fabric (DomainId × Fabric) := do
  require ((f.pointerStackObjects.get object).isNone = true) f
  let obj ← okOr (f.objects.get object) f
  require (obj.kind = .memory) f
  let parent ← okOr (f.findAuthorizingCap sourceDomain object offset length perms) f
  f.deriveIntoFresh parent offset length perms

/-- `delegate_dma_span_from_authority_id`: the exact entry, re-verified independently. -/
def delegateDmaSpanFromAuthorityId (sourceDomain : DomainId) (sourceAuthorityId : AuthorityId)
    (object : ObjectId) (offset length : Nat) (perms : Permissions) :
    Res Fabric (DomainId × Fabric) := do
  require ((f.pointerStackObjects.get object).isNone = true) f
  let entry ← okOr (f.authorityEntry sourceDomain sourceAuthorityId) f
  let parent := entry.cap
  require (parent.object = object) f
  let obj ← okOr (f.objects.get object) f
  require (obj.kind = .memory) f
  require (parent.generation = obj.generation) f
  require (f.validate parent = true) f
  require (parent.covers object offset length perms = true) f
  f.deriveIntoFresh parent offset length perms

/-! ## Authorization -/

/-- A protected pointer stack answers its own domain's registered CPU only. -/
def stackAdmits (request : MemoryRequest) : Bool :=
  (f.pointerStackObjects.get request.object).all fun binding =>
    binding.2 == request.context.domain && (f.agents.get request.context.agent).any fun a =>
      a.domain == binding.2 && a.kind.isCpu

/-- The capability covers the request. -/
def grantsRequest (request : MemoryRequest) (cap : Capability64) : Bool :=
  cap.covers request.object request.offset request.length request.kind.requiredPermission

/-- Why a request that no capability authorizes is denied. -/
def denial (domain : DomainState) (request : MemoryRequest) : FaultReason :=
  if domain.capabilities.any fun e => grantsRequest request e.cap then .staleGeneration
  else if domain.capabilities.any fun e => e.cap.object == request.object && f.validate e.cap then
    .wrongPermission
  else .noCapability

/-- `authorize`: the generation of the first covering capability that validates, or the denial. -/
def authorize (request : MemoryRequest) : Res FaultReason Generation := do
  require (f.stackAdmits request = true) .wrongPermission
  let domain ← okOr (f.domains.get request.context.domain) .noCapability
  let entry ← okOr
    (domain.capabilities.find? fun e => grantsRequest request e.cap && f.validate e.cap)
    (f.denial domain request)
  return entry.cap.generation

/-- The physical address of an offset (1085). -/
def translate (object : ObjectId) (offset : Nat) : Option Nat :=
  if f.privateHeapObject object = true then none
  else ((f.placement.get object).bind fun base => checkedAdd base offset).filter fun physical =>
    !f.heapPoolOverlaps physical 1

/-! ## What the checks establish -/

variable {f}

/-- The object is live, of the capability's generation, and contains its range. -/
structure Current (f : Fabric) (cap : Capability64) (obj : Object) : Prop where
  object : f.objects.get cap.object = some obj
  live : obj.state.isLive = true
  generation : cap.generation = obj.generation
  range : cap.offset + cap.length ≤ obj.size

variable {cap : Capability64} {req : MemoryRequest} {g : Generation}

theorem validate_eq_true :
    f.validate cap = true ↔ f.privateHeapObject cap.object = false ∧ ∃ obj, Current f cap obj := by
  unfold validate
  simp only [Bool.and_eq_true, Bool.not_eq_true', Option.any_eq_true, decide_eq_true_eq]
  constructor
  · rintro ⟨hp, obj, ho, ⟨⟨⟨hl, hg⟩, hle⟩, hof⟩⟩
    exact ⟨hp, obj, ho, hl, hg, by omega⟩
  · rintro ⟨hp, obj, h⟩
    have hr := h.range
    exact ⟨hp, obj, h.object, ⟨⟨h.live, h.generation⟩, by omega⟩, by omega⟩

theorem minted_iff : f.history.any (mints cap) = true ↔ f.Minted cap := by
  rw [List.any_eq_true]
  constructor
  · rintro ⟨e, he, hm⟩
    cases e with
    | granted d c => exact ⟨d, .inl (eq_of_beq hm ▸ he)⟩
    | derived d c => exact ⟨d, .inr (eq_of_beq hm ▸ he)⟩
    | wrote | stored | placed => cases hm
  · rintro ⟨d, he | he⟩
    · exact ⟨_, he, beq_self_eq_true cap⟩
    · exact ⟨_, he, beq_self_eq_true cap⟩

/-- **The subtraction form of a derivation is containment.** -/
theorem narrows_iff {p : Capability64} {o l : Nat} {pe : Permissions} :
    narrows p o l pe = true ↔ p.permissions.contains pe = true ∧
      p.offset ≤ o ∧ o + l ≤ p.offset + p.length := by
  unfold narrows Permissions.isSubsetOf
  simp only [Bool.and_eq_true, decide_eq_true_eq]
  constructor
  · rintro ⟨⟨⟨hp, ho⟩, hl⟩, hen⟩
    exact ⟨hp, ho, by omega⟩
  · rintro ⟨hp, ho, hen⟩
    exact ⟨⟨⟨hp, ho⟩, by omega⟩, by omega⟩

/-- An entry of the requesting domain covers the request and validates. -/
def Authorizes (f : Fabric) (request : MemoryRequest) (cap : Capability64) : Prop :=
  ∃ d e, f.domains.get request.context.domain = some d ∧ e ∈ d.capabilities ∧ e.cap = cap ∧
    grantsRequest request cap = true ∧ f.validate cap = true

theorem authorize_eq_ok (h : f.authorize req = ok g) :
    ∃ cap, Authorizes f req cap ∧ g = cap.generation := by
  simp only [authorize, eq_ok] at h
  obtain ⟨-, d, hd, e, he, rfl⟩ := h
  obtain ⟨hc, hv⟩ := Bool.and_eq_true _ _ ▸ List.find?_some he
  exact ⟨e.cap, ⟨d, e, hd, List.mem_of_find?_eq_some he, rfl, hc, hv⟩, rfl⟩

theorem authorize_denied (h : ∀ g, f.authorize req ≠ ok g) :
    ∃ reason, f.authorize req = err reason := by
  have ht : (f.authorize req).Avoids fun _ => False := by simp [authorize]
  cases ha : f.authorize req with
  | ok g => exact absurd ha (h g)
  | err reason => exact ⟨reason, rfl⟩
  | panic => exact (Avoids.not_panic ht ha).elim

theorem authorize_object
    (h : f.authorize req = ok g) : ∃ obj, f.objects.get req.object = some obj ∧
      obj.state.isLive = true ∧ g = obj.generation ∧ 0 < req.length ∧
      req.offset + req.length ≤ obj.size := by
  obtain ⟨cap, ⟨d, e, -, -, -, hco, hv⟩, rfl⟩ := authorize_eq_ok h
  obtain ⟨ho, hp, -, hof, hen⟩ := Capability64.covers_iff.mp hco
  obtain ⟨-, obj, hc⟩ := validate_eq_true.mp hv
  have hr := hc.range
  exact ⟨obj, ho ▸ hc.object, hc.live, hc.generation, hp, by omega⟩

theorem translate_eq_some {o : ObjectId} {offset p : Nat} (h : f.translate o offset = some p) :
    ∃ base, f.placement.get o = some base ∧ base + offset ≤ u64Max ∧ p = base + offset := by
  unfold translate at h
  split at h
  · cases h
  · obtain ⟨h, -⟩ := Option.filter_eq_some_iff.mp h
    obtain ⟨base, hb, hs⟩ := Option.bind_eq_some_iff.mp h
    obtain ⟨hm, rfl⟩ := checkedAdd_eq_some.mp hs
    exact ⟨base, hb, hm, rfl⟩

end Anka.Fabric
