import Anka.Lib.Reader
import Mathlib

/-!
# Canonical source bundles

The `SourceBundle` of `source_bundle.rs` and the `canonical_bundle` of
`os/compiler_retry/service.rs`, the bytes under which the sources of a build are published. The
bytes of a member are arbitrary, so where a field ends is known only from the length in front of it.

* `canonicalBundle_eq_ok`: the bytes of a bundle are its encoding, and as many were reserved.
* `canonical_bundle_exact`: no two bundles have the same bytes.
-/

namespace Anka

open Rust Res List

/-! ## Bundles -/

/-- `SourceBundleError`, without the error of reading a host file. -/
inductive SourceBundleError
  | emptyBundle
  | emptyLogicalName
  | logicalNameTooLong
  | logicalNameNotRepresentable
  | duplicateLogicalName (name : String)
  | rootNotFound (name : String)
  deriving DecidableEq

/-- source_bundle.rs 37. -/
def SOURCE_BUNDLE_NAME_MAX : Nat := 127

/-- The names that are portable (source_bundle.rs 171). -/
def validateLogicalName (name : String) : Res SourceBundleError Unit := do
  require (name ≠ "") .emptyLogicalName
  require ((asBytes name).length ≤ SOURCE_BUNDLE_NAME_MAX) .logicalNameTooLong
  require (∀ b ∈ asBytes name, (33 ≤ b ∧ b ≤ 126) ∧ b ≠ 34) .logicalNameNotRepresentable

/-- A named file (source_bundle.rs 70). -/
@[ext] structure SourceBundleMember where
  logicalName : String
  bytes : List UInt8
  valid : validateLogicalName logicalName = ok ()

namespace SourceBundleMember

/-- A member with a valid name (source_bundle.rs 76). -/
def new (logicalName : String) (bytes : List UInt8) :
    Res SourceBundleError SourceBundleMember :=
  match h : validateLogicalName logicalName with
  | ok () => ok ⟨logicalName, bytes, h⟩
  | err e => err e
  | .panic => .panic

/-- The order of the keys. Rust compares strings by their bytes, which in UTF-8 is the order of the
characters. -/
abbrev Before (a b : SourceBundleMember) : Prop := a.logicalName < b.logicalName

end SourceBundleMember

open SourceBundleMember

/-- The values of a `BTreeMap<String, SourceBundleMember>`, in the order of `values()`. -/
abbrev ByName := { members : List SourceBundleMember // members.Pairwise Before }

theorem pairwise_orderedInsert {m : SourceBundleMember} {me : List SourceBundleMember}
    (h : me.Pairwise Before) (hn : ∀ a ∈ me, a.logicalName ≠ m.logicalName) :
    (me.orderedInsert Before m).Pairwise Before := by
  induction me with
  | nil => exact pairwise_singleton _ m
  | cons a me ih =>
    obtain ⟨ha, hr⟩ := pairwise_cons.mp h
    obtain ⟨hne, hn⟩ := forall_mem_cons.mp hn
    rw [orderedInsert_cons]
    split
    · rename_i hl
      refine pairwise_cons.mpr ⟨forall_mem_cons.mpr ⟨hl, fun b hb => ?_⟩, h⟩
      exact lt_trans hl (ha b hb)
    · rename_i hle
      refine pairwise_cons.mpr ⟨fun b hb => ?_, ih hr hn⟩
      rcases (mem_orderedInsert _).mp hb with rfl | hb
      · exact lt_of_le_of_ne (not_lt.mp hle) hne
      · exact ha b hb

/-- `by_name.insert(name, member)`, where a member of that name is an error. -/
def ByName.insert (byName : ByName) (m : SourceBundleMember) : Res SourceBundleError ByName :=
  if h : ∀ a ∈ byName.1, a.logicalName ≠ m.logicalName then
    ok ⟨byName.1.orderedInsert Before m, pairwise_orderedInsert byName.2 h⟩
  else err (.duplicateLogicalName m.logicalName)

/-- Members by name, in order (source_bundle.rs 104). -/
@[ext] structure SourceBundle where
  rootName : String
  members : List SourceBundleMember
  valid : validateLogicalName rootName = ok ()
  ordered : members.Pairwise Before
  rooted : ∃ m ∈ members, m.logicalName = rootName

/-- A bundle with distinct members (source_bundle.rs 110). -/
def SourceBundle.new (rootName : String) (members : List SourceBundleMember) :
    Res SourceBundleError SourceBundle :=
  match hroot : validateLogicalName rootName with
  | ok () => do
    let byName ← members.foldlM ByName.insert ⟨[], .nil⟩
    require (byName.1 ≠ []) .emptyBundle
    if hkey : ∃ m ∈ byName.1, m.logicalName = rootName then
      return ⟨rootName, byName.1, hroot, byName.2, hkey⟩
    else err (.rootNotFound rootName)
  | err e => err e
  | .panic => .panic

/-! ## Their bytes -/

/-- `field` of `canonical_bundle`. -/
def field (out b : List UInt8) : List UInt8 := out ++ leBytes 8 b.length ++ b

/-- One turn of the loop that adds up the length. -/
def addMember (n : Nat) (m : SourceBundleMember) : Res String Nat :=
  okOr (((checkedAdd n 16).bind fun n => checkedAdd n (asBytes m.logicalName).length).bind
    fun n => checkedAdd n m.bytes.length) "bundle overflow"

/-- The length that `canonical_bundle` reserves. -/
def reservedLength (bundle : SourceBundle) : Res String Nat := do
  let n ← okOr (checkedAdd 16 (asBytes bundle.rootName).length) "bundle overflow"
  bundle.members.foldlM addMember n

/-- `canonical_bundle`. The allocator answers a reservation with the capacity it grants or with an
error. -/
def canonicalBundle (reserve : Nat → Res String Nat) (bundle : SourceBundle) :
    Res String (List UInt8) := do
  let n ← reservedLength bundle
  require (¬ (bundle.members.length > 256 ∨ n > 1048576))
    "canonical bundle exceeds publication policy"
  let capacity ← reserve n
  require (capacity ≤ n) "bundle capacity exceeds reservation"
  let out := field [] (asBytes bundle.rootName) ++ leBytes 8 bundle.members.length
  return bundle.members.foldl (fun out m => field (field out (asBytes m.logicalName)) m.bytes) out

/-- The encoding of the members. -/
def encodeMembers (members : List SourceBundleMember) : List UInt8 :=
  members.flatMap fun m => field [] (asBytes m.logicalName) ++ field [] m.bytes

/-- The encoding of a bundle. -/
def SourceBundle.encode (bundle : SourceBundle) : List UInt8 :=
  field [] (asBytes bundle.rootName) ++
    (leBytes 8 bundle.members.length ++ encodeMembers bundle.members)

@[simp] theorem length_field (out b : List UInt8) :
    (field out b).length = out.length + (8 + b.length) := by
  simp [field]

@[simp] theorem length_encodeMembers_cons (m : SourceBundleMember) (ms : List SourceBundleMember) :
    (encodeMembers (m :: ms)).length =
      16 + (asBytes m.logicalName).length + m.bytes.length + (encodeMembers ms).length := by
  simp only [encodeMembers, flatMap_cons, length_append, length_field, length_nil]
  omega

@[simp] theorem length_encode (b : SourceBundle) : b.encode.length =
    16 + (asBytes b.rootName).length + (encodeMembers b.members).length := by
  simp only [SourceBundle.encode, length_append, length_field, length_nil, length_leBytes]
  omega

theorem foldl_field (members : List SourceBundleMember) (out : List UInt8) :
    members.foldl (fun out m => field (field out (asBytes m.logicalName)) m.bytes) out =
      out ++ encodeMembers members := by
  induction members generalizing out with
  | nil => simp [encodeMembers]
  | cons m members ih =>
    rw [foldl_cons, ih]
    simp [encodeMembers, field]

theorem foldlM_addMember {me : List SourceBundleMember} {k n : Nat}
    (h : me.foldlM addMember k = ok n) : n = k + (encodeMembers me).length := by
  induction me generalizing k with
  | nil => simpa [encodeMembers] using h.symm
  | cons m me ih =>
    simp only [foldlM_cons, addMember, bind_eq_ok, okOr_eq_ok, Option.bind_eq_some_iff,
      checkedAdd_eq_some] at h
    obtain ⟨_, ⟨_, ⟨_, ⟨-, rfl⟩, -, rfl⟩, -, rfl⟩, hr⟩ := h
    have hs := ih hr
    rw [length_encodeMembers_cons]
    omega

theorem canonicalBundle_eq_ok {r : Nat → Res String Nat} {b : SourceBundle}
    {out : List UInt8} (h : canonicalBundle r b = ok out) :
    out = b.encode ∧ reservedLength b = ok out.length ∧ b.members.length ≤ 256 ∧
      out.length ≤ 1048576 := by
  simp only [canonicalBundle, bind_eq_ok, require_eq_ok, pure_eq_ok, foldl_field, append_assoc] at h
  obtain ⟨n, hn, _, hp, _, -, _, -, rfl⟩ := h
  have hl : n = b.encode.length := by
    have hs := hn
    simp only [reservedLength, bind_eq_ok, okOr_eq_ok, checkedAdd_eq_some] at hs
    obtain ⟨_, ⟨-, rfl⟩, hs⟩ := hs
    rw [foldlM_addMember hs, length_encode]
  subst hl
  obtain ⟨hc, hli⟩ := not_or.mp hp
  exact ⟨rfl, hn, not_lt.mp hc, not_lt.mp hli⟩

/-! ## What they identify -/

theorem field_inj {a b r s : List UInt8} (ha : a.length < 2 ^ 64) (hb : b.length < 2 ^ 64)
    (h : field [] a ++ r = field [] b ++ s) : a = b ∧ r = s := by
  simp only [field, nil_append, append_assoc] at h
  obtain ⟨hl, h⟩ := append_inj h (by simp)
  exact append_inj h (leBytes_inj ha hb hl)

theorem encodeMembers_inj {as bs : List SourceBundleMember} (hl : as.length = bs.length)
    (ha : (encodeMembers as).length < 2 ^ 64) (h : encodeMembers as = encodeMembers bs) :
    as = bs := by
  induction as generalizing bs with
  | nil => exact (length_eq_zero_iff.mp hl.symm).symm
  | cons a as ih =>
    obtain ⟨b, bs, rfl⟩ := exists_cons_of_length_eq_add_one hl.symm
    have hb := h ▸ ha
    rw [length_encodeMembers_cons] at ha hb
    simp only [encodeMembers, flatMap_cons, append_assoc] at h
    obtain ⟨hn, h⟩ := field_inj (by omega) (by omega) h
    obtain ⟨hby, h⟩ := field_inj (by omega) (by omega) h
    rw [ih (by simpa using hl) (by omega) h, SourceBundleMember.ext (asBytes_inj hn) hby]

/-- **Canonical bundles.** Whatever the allocator grants, the bytes of a bundle are as many as were
reserved, and a bundle with the same bytes has the same root and the same members in the same
order. -/
theorem canonical_bundle_exact {reserve reserve' : Nat → Res String Nat} {a b : SourceBundle}
    {out : List UInt8} (ha : canonicalBundle reserve a = ok out) :
    reservedLength a = ok out.length ∧
      (canonicalBundle reserve' b = ok out → a.rootName = b.rootName ∧
        a.members.map (·.logicalName) = b.members.map (·.logicalName) ∧
        a.members.map (·.bytes) = b.members.map (·.bytes)) := by
  obtain ⟨rfl, hr, hc, hl⟩ := canonicalBundle_eq_ok ha
  refine ⟨hr, fun hb => ?_⟩
  obtain ⟨h, -, hc', -⟩ := canonicalBundle_eq_ok hb
  have hl' := h ▸ hl
  rw [length_encode] at hl hl'
  obtain ⟨hroot, h⟩ := field_inj (by omega) (by omega) h
  obtain ⟨hle, h⟩ := append_inj h (by simp)
  have hm := encodeMembers_inj (leBytes_inj (by omega) (by omega) hle) (by omega) h
  rw [hm]
  exact ⟨asBytes_inj hroot, rfl, rfl⟩

/-- The contents of a member may look like a field. -/
theorem canonical_bundle_exact_nested : ∃ a : SourceBundle,
    a.members.map (·.bytes) = [field [] [1], []] ∧
      (canonicalBundle ok a).isOkAnd (·.length == 60) = true ∧ reservedLength a = ok 60 := by
  let a : SourceBundle :=
    ⟨"a", [⟨"a", field [] [1], by decide +kernel⟩, ⟨"b", [], by decide +kernel⟩],
    by decide +kernel, by decide +kernel, by simp⟩
  have hru : (canonicalBundle ok a).isOkAnd (·.length == 60) = true := by decide +kernel
  obtain ⟨out, ho, hl⟩ := isOkAnd_eq_true.mp hru
  refine ⟨a, rfl, hru, ?_⟩
  have hr := (@canonical_bundle_exact _ ok _ a _ ho).1
  rwa [eq_of_beq hl] at hr

end Anka
