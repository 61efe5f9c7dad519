import ZeroTier.Wire.Buffer

namespace ZeroTier

def ZT_NETWORK_COM_MAX_QUALIFIERS : Nat := 8

/-- Modelled from the spec: C25519.hpp is not among the sources. A COM carries a detached
signature of fixed size; a C25519 signature is 96 bytes. -/
def ZT_C25519_SIGNATURE_LEN : Nat := 96

abbrev Signature := Mathlib.Vector UInt8 ZT_C25519_SIGNATURE_LEN

def COM_RESERVED_ID_TIMESTAMP : UInt64 := 0
def COM_RESERVED_ID_NETWORK_ID : UInt64 := 1
def COM_RESERVED_ID_ISSUED_TO : UInt64 := 2

structure Qualifier where
  id : UInt64
  value : UInt64
  maxDelta : UInt64
  deriving DecidableEq, Repr

-- The qualifiers in use, `_qualifiers[0 .. _qualifierCount)`. No member function reads a slot
-- past the count, so the slots beyond it are left out.
structure CertificateOfMembership where
  signedBy : Address
  qualifiers : List Qualifier
  signature : Signature
  qualifiers_length_le : qualifiers.length ≤ ZT_NETWORK_COM_MAX_QUALIFIERS
  deriving DecidableEq

namespace CertificateOfMembership

variable {C : Nat}

def qualifierCount (c : CertificateOfMembership) : Nat := c.qualifiers.length

-- `CertificateOfMembership()`: the memset to zero.
def empty : CertificateOfMembership :=
  ⟨0, [], ⟨List.replicate ZT_C25519_SIGNATURE_LEN 0, List.length_replicate _ _⟩, Nat.zero_le _⟩

def ofRequiredFields (timestamp timestampMaxDelta nwid : UInt64) (issuedTo : Address) :
    CertificateOfMembership :=
  ⟨0, [⟨COM_RESERVED_ID_TIMESTAMP, timestamp, timestampMaxDelta⟩,
    ⟨COM_RESERVED_ID_NETWORK_ID, nwid, 0⟩,
    ⟨COM_RESERVED_ID_ISSUED_TO, issuedTo.toInt, 0xffffffffffffffff⟩],
    ⟨List.replicate ZT_C25519_SIGNATURE_LEN 0, List.length_replicate _ _⟩,
    by simp [ZT_NETWORK_COM_MAX_QUALIFIERS]⟩

def isSigned (c : CertificateOfMembership) : Bool := c.signedBy ≠ 0

def qualifierValue (c : CertificateOfMembership) (id : UInt64) (dfl : UInt64) : UInt64 :=
  ((c.qualifiers.find? (·.id == id)).map (·.value)).getD dfl

def timestamp (c : CertificateOfMembership) : UInt64 :=
  c.qualifierValue COM_RESERVED_ID_TIMESTAMP 0

def issuedTo (c : CertificateOfMembership) : Address :=
  Address.ofInt (c.qualifierValue COM_RESERVED_ID_ISSUED_TO 0)

def networkId (c : CertificateOfMembership) : UInt64 :=
  c.qualifierValue COM_RESERVED_ID_NETWORK_ID 0

-- The qualifier ids in the order they are stored, each no smaller than those before it.
def IdsNondecreasing (c : CertificateOfMembership) : Prop :=
  (c.qualifiers.map (·.id)).Pairwise (· ≤ ·)

instance (c : CertificateOfMembership) : Decidable c.IdsNondecreasing :=
  inferInstanceAs (Decidable (List.Pairwise _ _))

-- serialize

def appendQualifiers : Buffer C → List Qualifier → Except ZtException (Buffer C)
  | b, [] => .ok b
  | b, q :: qs => do
      let b ← b.appendU64 q.id
      let b ← b.appendU64 q.value
      let b ← b.appendU64 q.maxDelta
      appendQualifiers b qs

def serialize (c : CertificateOfMembership) (b : Buffer C) : Except ZtException (Buffer C) := do
  let b ← b.appendU8 1
  let b ← b.appendU16 (UInt16.ofNat c.qualifierCount)
  let b ← appendQualifiers b c.qualifiers
  let b ← c.signedBy.appendTo b
  if c.signedBy ≠ 0 then b.append c.signature.toList else pure b

-- deserialize

def pushQualifier (c : CertificateOfMembership) (q : Qualifier)
    (h : c.qualifierCount < ZT_NETWORK_COM_MAX_QUALIFIERS) : CertificateOfMembership :=
  { c with
    qualifiers := c.qualifiers ++ [q]
    qualifiers_length_le := by simp only [qualifierCount] at h; simp; omega }

-- The loop over the `numq` qualifiers, from offset `p`, with the last id read so far.
def deserializeQualifiers (b : Buffer C) :
    Nat → Nat → UInt64 → CertificateOfMembership →
      Except ZtException (Nat × CertificateOfMembership)
  | 0, p, _, c => .ok (p, c)
  | numq + 1, p, lastId, c => do
      let qid ← b.atU64 p
      if qid < lastId then
        throw .badEncoding
      else if h : c.qualifierCount < ZT_NETWORK_COM_MAX_QUALIFIERS then
        let value ← b.atU64 (p + 8)
        let maxDelta ← b.atU64 (p + 16)
        deserializeQualifiers b numq (p + 24) qid (c.pushQualifier ⟨qid, value, maxDelta⟩ h)
      else
        throw .overflow

-- After the qualifiers: the signer's address and, when it is set, the signature.
def deserializeSignature (b : Buffer C) (startAt p : Nat) (c : CertificateOfMembership) :
    Except ZtException (Nat × CertificateOfMembership) := do
  let signer ← b.field p ZT_ADDRESS_LENGTH
  let c := { c with signedBy := Address.setTo signer.toList }
  let p := p + ZT_ADDRESS_LENGTH
  if c.signedBy ≠ 0 then
    let signature ← b.field p ZT_C25519_SIGNATURE_LEN
    pure (p + ZT_C25519_SIGNATURE_LEN - startAt, { c with signature := signature })
  else
    pure (p - startAt, c)

-- `deserialize` overwrites `c`; it returns the number of bytes read.
def deserialize (c : CertificateOfMembership) (b : Buffer C) (startAt : Nat) :
    Except ZtException (Nat × CertificateOfMembership) := do
  let c := { c with qualifiers := [], signedBy := 0, qualifiers_length_le := Nat.zero_le _ }
  let tag ← b.get startAt
  if tag ≠ 1 then
    throw .invalidType
  else
    let numq ← b.atU16 (startAt + 1)
    let (p, c) ← deserializeQualifiers b numq.toNat (startAt + 3) 0 c
    deserializeSignature b startAt p c

-- operator==

def qualifierEq (a b : Qualifier) : Bool :=
  a.id == b.id && a.value == b.value && a.maxDelta == b.maxDelta

def beq (a c : CertificateOfMembership) : Bool :=
  a.signedBy == c.signedBy && a.qualifierCount == c.qualifierCount &&
    (a.qualifiers.zip c.qualifiers).all (fun qs => qualifierEq qs.1 qs.2) &&
    a.signature == c.signature

theorem qualifierEq_iff (a b : Qualifier) : qualifierEq a b = true ↔ a = b := by
  cases a; cases b; simp [qualifierEq, and_assoc]

theorem all_zip_qualifierEq_iff :
    ∀ {as bs : List Qualifier}, as.length = bs.length →
      ((as.zip bs).all (fun qs => qualifierEq qs.1 qs.2) = true ↔ as = bs)
  | [], [], _ => by simp
  | a :: as, b :: bs, h => by
      simp only [List.length_cons, Nat.add_right_cancel_iff] at h
      simp [qualifierEq_iff, all_zip_qualifierEq_iff h]
  | [], _ :: _, h | _ :: _, [], h => by simp at h

-- `operator==` is equality of the modelled state.
theorem beq_true_iff (a c : CertificateOfMembership) : a.beq c = true ↔ a = c := by
  constructor
  · intro h
    simp only [beq, Bool.and_eq_true, beq_iff_eq, qualifierCount] at h
    obtain ⟨⟨⟨hs, hn⟩, hq⟩, hsig⟩ := h
    have hq' := (all_zip_qualifierEq_iff hn).mp hq
    cases a; cases c
    simp_all
  · rintro rfl
    simp [beq, (all_zip_qualifierEq_iff rfl).mpr rfl]

end CertificateOfMembership

end ZeroTier
