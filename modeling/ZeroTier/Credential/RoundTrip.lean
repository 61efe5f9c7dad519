import ZeroTier.Credential.CertificateOfMembership

namespace ZeroTier.CertificateOfMembership

variable {C : Nat}

def qualifierBytes (q : Qualifier) : List UInt8 :=
  bigEndian 8 q.id.toNat ++ bigEndian 8 q.value.toNat ++ bigEndian 8 q.maxDelta.toNat

-- The byte image `serialize` appends.
def image (c : CertificateOfMembership) : List UInt8 :=
  [1] ++ bigEndian 2 c.qualifierCount ++ c.qualifiers.flatMap qualifierBytes ++
    bigEndian ZT_ADDRESS_LENGTH c.signedBy.toNat ++
    (if c.signedBy ≠ 0 then c.signature.toList else [])

def serializedLength (c : CertificateOfMembership) : Nat :=
  1 + 2 + 24 * c.qualifierCount + ZT_ADDRESS_LENGTH +
    (if c.signedBy ≠ 0 then ZT_C25519_SIGNATURE_LEN else 0)

@[simp] theorem length_qualifierBytes (q : Qualifier) : (qualifierBytes q).length = 24 := by
  simp [qualifierBytes]

theorem length_flatMap_qualifierBytes (qs : List Qualifier) :
    (qs.flatMap qualifierBytes).length = 24 * qs.length := by
  induction qs with
  | nil => rfl
  | cons q qs ih => simp [ih]; omega

theorem length_image (c : CertificateOfMembership) : c.image.length = c.serializedLength := by
  simp only [image, serializedLength, List.length_append, length_flatMap_qualifierBytes,
    length_bigEndian, qualifierCount]
  split <;> simp

theorem qualifierCount_lt_size (c : CertificateOfMembership) :
    c.qualifierCount < UInt16.size := by
  calc c.qualifierCount ≤ ZT_NETWORK_COM_MAX_QUALIFIERS := c.qualifiers_length_le
    _ < UInt16.size := by decide

theorem appendQualifiers_eq (b : Buffer C) (qs : List Qualifier) :
    appendQualifiers b qs = b.append (qs.flatMap qualifierBytes) := by
  induction qs generalizing b with
  | nil => simp [appendQualifiers]
  | cons q qs ih =>
      simp only [appendQualifiers, ih, Buffer.appendU64, List.flatMap_cons, qualifierBytes,
        Buffer.append_bind_append, bind_assoc, List.append_assoc]

-- `serialize` is one append of the image: it writes all of it or throws.
theorem serialize_eq (c : CertificateOfMembership) (b : Buffer C) :
    c.serialize b = b.append c.image := by
  have hcount : (UInt16.ofNat c.qualifierCount).toNat = c.qualifierCount :=
    UInt16.toNat_ofNat_of_lt (qualifierCount_lt_size c)
  have htail : ∀ b' : Buffer C, (if c.signedBy ≠ 0 then b'.append c.signature.toList else pure b') =
      b'.append (if c.signedBy ≠ 0 then c.signature.toList else []) := by
    intro b'
    by_cases hs : c.signedBy = 0
    · simp only [hs, ne_eq, not_true_eq_false, ite_false, Buffer.append_nil]
      rfl
    · simp only [hs, ne_eq, not_false_eq_true, ite_true]
  simp only [serialize, htail, Buffer.appendU8, Buffer.appendU16, hcount, appendQualifiers_eq,
    Address.appendTo, Buffer.append_bind_append, image, List.append_assoc]

-- Over the qualifiers `qs` that the bytes hold, as long as the ids do not go down and the count
-- stays within the maximum, the loop stores `qs` and goes on after them with the last id read.
theorem deserializeQualifiers_of_prefix {b : Buffer C} {rest : List UInt8} :
    ∀ (qs : List Qualifier) (pre : List UInt8) (lastId : UInt64) (c : CertificateOfMembership)
      (m : Nat), b.data = pre ++ qs.flatMap qualifierBytes ++ rest →
      (lastId :: qs.map (·.id)).Pairwise (· ≤ ·) →
      c.qualifierCount + qs.length ≤ ZT_NETWORK_COM_MAX_QUALIFIERS →
      ∃ d, d.qualifiers = c.qualifiers ++ qs ∧ d.signedBy = c.signedBy ∧ d.signature = c.signature ∧
        deserializeQualifiers b (qs.length + m) pre.length lastId c =
          deserializeQualifiers b m (pre.length + 24 * qs.length) ((qs.map (·.id)).getLastD lastId) d
  | [], pre, lastId, c, m, _, _, _ => ⟨c, by simp, rfl, rfl, by simp [List.getLastD_nil]⟩
  | q :: qs, pre, lastId, c, m, h, hchain, hlen => by
      rw [List.map_cons, List.pairwise_cons] at hchain
      have hc : c.qualifierCount < ZT_NETWORK_COM_MAX_QUALIFIERS := by
        simp only [List.length_cons] at hlen; omega
      have h1 : b.data = pre ++ bigEndian 8 q.id.toNat ++ (bigEndian 8 q.value.toNat ++
          bigEndian 8 q.maxDelta.toNat ++ qs.flatMap qualifierBytes ++ rest) := by
        simp [h, qualifierBytes]
      have h2 : b.data = (pre ++ bigEndian 8 q.id.toNat) ++ bigEndian 8 q.value.toNat ++
          (bigEndian 8 q.maxDelta.toNat ++ qs.flatMap qualifierBytes ++ rest) := by
        simp [h, qualifierBytes]
      have h3 : b.data = (pre ++ bigEndian 8 q.id.toNat ++ bigEndian 8 q.value.toNat) ++
          bigEndian 8 q.maxDelta.toNat ++ (qs.flatMap qualifierBytes ++ rest) := by
        simp [h, qualifierBytes]
      have h4 : b.data = (pre ++ qualifierBytes q) ++ qs.flatMap qualifierBytes ++ rest := by
        simp [h]
      have hid := Buffer.atU64_of_data_eq h1
      have hval := Buffer.atU64_of_data_eq h2
      have hmd := Buffer.atU64_of_data_eq h3
      simp only [List.length_append, length_bigEndian, Nat.add_assoc] at hval hmd
      obtain ⟨d, hq, hs, hsig, hd⟩ := deserializeQualifiers_of_prefix qs (pre ++ qualifierBytes q)
        q.id (c.pushQualifier q hc) m h4 hchain.2
        (by simp [pushQualifier, qualifierCount] at hlen ⊢; omega)
      refine ⟨d, by simp [hq, pushQualifier], hs, hsig, ?_⟩
      have hle : ¬q.id < lastId := UInt64.not_lt.mpr (hchain.1 _ (List.mem_cons_self _ _))
      simp only [List.length_append, length_qualifierBytes] at hd
      rw [List.length_cons, show qs.length + 1 + m = qs.length + m + 1 by omega]
      simp only [deserializeQualifiers, hid, hval, hmd, dif_pos hc, bind, pure, Except.pure,
        Except.bind, hle, ↓reduceIte, List.map_cons, List.getLastD_cons]
      rw [hd, show pre.length + 24 * (qs.length + 1) = pre.length + 24 + 24 * qs.length by omega]

-- The qualifier loop reads back what `serialize` wrote.
theorem deserializeQualifiers_of_data_eq {b : Buffer C} {rest : List UInt8}
    (qs : List Qualifier) (pre : List UInt8) (lastId : UInt64) (c : CertificateOfMembership)
    (h : b.data = pre ++ qs.flatMap qualifierBytes ++ rest)
    (hchain : (lastId :: qs.map (·.id)).Pairwise (· ≤ ·))
    (hlen : c.qualifierCount + qs.length ≤ ZT_NETWORK_COM_MAX_QUALIFIERS) :
    ∃ d, deserializeQualifiers b qs.length pre.length lastId c =
        .ok (pre.length + 24 * qs.length, d) ∧
      d.qualifiers = c.qualifiers ++ qs ∧ d.signedBy = c.signedBy ∧ d.signature = c.signature := by
  obtain ⟨d, hq, hs, hsig, hd⟩ := deserializeQualifiers_of_prefix qs pre lastId c 0 h hchain hlen
  exact ⟨d, by rw [← Nat.add_zero qs.length, hd]; rfl, hq, hs, hsig⟩

theorem pairwise_zero_of_idsNondecreasing {c : CertificateOfMembership}
    (h : c.IdsNondecreasing) : (0 :: c.qualifiers.map (·.id)).Pairwise (· ≤ ·) :=
  List.pairwise_cons.mpr ⟨fun _ _ => by simp [UInt64.le_def, BitVec.le_def], h⟩

-- The tail of the image: the signer, then the signature when there is a signer.
theorem deserializeSignature_of_data_eq (c d : CertificateOfMembership) {b : Buffer C}
    {pre rest : List UInt8} (startAt : Nat)
    (h : b.data = pre ++ bigEndian ZT_ADDRESS_LENGTH c.signedBy.toNat ++
      (if c.signedBy ≠ 0 then c.signature.toList else []) ++ rest) :
    ∃ d', deserializeSignature b startAt pre.length d =
        .ok (pre.length + ZT_ADDRESS_LENGTH +
          (if c.signedBy ≠ 0 then ZT_C25519_SIGNATURE_LEN else 0) - startAt, d') ∧
      d'.qualifiers = d.qualifiers ∧ d'.signedBy = c.signedBy ∧
      d'.signature = (if c.signedBy ≠ 0 then c.signature else d.signature) := by
  have hsigner := Buffer.field_of_data_eq (h.trans (List.append_assoc _ _ _)) (length_bigEndian _ _)
  have hset := Address.setTo_bigEndian c.signedBy
  by_cases hs : c.signedBy ≠ 0
  · have h2 : b.data = (pre ++ bigEndian ZT_ADDRESS_LENGTH c.signedBy.toNat) ++
        c.signature.toList ++ rest := by
      rw [h, if_pos hs]
    have hsig := Buffer.field_of_data_eq h2 c.signature.toList_length
    simp only [List.length_append, length_bigEndian] at hsig
    refine ⟨{ d with signedBy := c.signedBy, signature := c.signature }, ?_, rfl, rfl,
      by rw [if_pos hs]⟩
    simp only [deserializeSignature, hsigner, hsig, bind, Except.bind, Mathlib.Vector.toList_mk,
      hset, if_pos hs, pure, Except.pure]
    rfl
  · refine ⟨{ d with signedBy := c.signedBy }, ?_, rfl, rfl, by rw [if_neg hs]⟩
    simp only [deserializeSignature, hsigner, bind, Except.bind, Mathlib.Vector.toList_mk, hset,
      if_neg hs, pure, Except.pure, Nat.add_zero]

-- `deserialize` reads back the image of `c` at any offset with anything after it. Only the
-- signature of an unsigned COM is not read: it keeps the one of the prior state.
theorem deserialize_of_data_eq (c prior : CertificateOfMembership) (hids : c.IdsNondecreasing)
    {b : Buffer C} {pre rest : List UInt8} (h : b.data = pre ++ c.image ++ rest) :
    ∃ d, prior.deserialize b pre.length = .ok (c.serializedLength, d) ∧
      d.qualifiers = c.qualifiers ∧ d.signedBy = c.signedBy ∧
      d.signature = (if c.signedBy ≠ 0 then c.signature else prior.signature) := by
  have hcount : (UInt16.ofNat c.qualifierCount).toNat = c.qualifierCount :=
    UInt16.toNat_ofNat_of_lt (qualifierCount_lt_size c)
  set Q := c.qualifiers.flatMap qualifierBytes
  set A := bigEndian ZT_ADDRESS_LENGTH c.signedBy.toNat
  set S := if c.signedBy ≠ 0 then c.signature.toList else []
  have e1 : b.data = pre ++ 1 :: (bigEndian 2 c.qualifierCount ++ Q ++ A ++ S ++ rest) := by
    simp [h, image, Q, A, S]
  have e2 : b.data = (pre ++ [1]) ++ bigEndian 2 (UInt16.ofNat c.qualifierCount).toNat ++
      (Q ++ A ++ S ++ rest) := by
    simp [h, hcount, image, Q, A, S]
  have e3 : b.data = (pre ++ [1] ++ bigEndian 2 c.qualifierCount) ++ Q ++ (A ++ S ++ rest) := by
    simp [h, image, Q, A, S]
  have e4 : b.data = (pre ++ [1] ++ bigEndian 2 c.qualifierCount ++ Q) ++ A ++ S ++ rest := by
    simp [h, image, Q, A, S]
  have htag := Buffer.get_of_data_eq e1
  have hnum := Buffer.atU16_of_data_eq e2
  simp only [List.length_append, List.length_singleton] at hnum
  obtain ⟨d, hd, hq, hs, hsig⟩ := deserializeQualifiers_of_data_eq c.qualifiers _ 0
    { prior with qualifiers := [], signedBy := 0, qualifiers_length_le := Nat.zero_le _ }
    e3 (pairwise_zero_of_idsNondecreasing hids) (by simpa [qualifierCount] using c.qualifiers_length_le)
  obtain ⟨d', hd', hq', hs', hsig'⟩ := deserializeSignature_of_data_eq c d pre.length e4
  refine ⟨d', ?_, by simpa [hq] using hq', hs', by simpa [hsig] using hsig'⟩
  simp only [Q, List.length_append, List.length_singleton, length_bigEndian,
    length_flatMap_qualifierBytes] at hd hd'
  change deserializeQualifiers b c.qualifierCount (pre.length + 3) 0 _ = _ at hd
  simp only [deserialize, htag, hnum, hcount, bind, Except.bind, ne_eq, not_true_eq_false,
    ↓reduceIte, hd]
  rw [hd']
  congr 2
  simp only [serializedLength, qualifierCount]
  omega

-- A COM serialized into a buffer with room for it is read back from where its image begins,
-- whatever was appended after it and whatever the reading COM held before.
theorem deserialize_serialize (c : CertificateOfMembership) (hids : c.IdsNondecreasing)
    (b : Buffer C) (hcap : b.size + c.serializedLength ≤ C) :
    ∃ b', c.serialize b = .ok b' ∧ b'.size = b.size + c.serializedLength ∧
      ∀ {C'} (b'' : Buffer C') (prior : CertificateOfMembership), b'.data <+: b''.data →
        ∃ d, prior.deserialize b'' b.size = .ok (c.serializedLength, d) ∧
          d.qualifierCount = c.qualifierCount ∧ d.qualifiers = c.qualifiers ∧
          d.signedBy = c.signedBy ∧ (c.signedBy ≠ 0 → d.signature = c.signature ∧ d.beq c = true) := by
  have hfit : b.data.length + c.image.length ≤ C := by rwa [length_image]
  refine ⟨_, (serialize_eq c b).trans (Buffer.append_of_le b c.image hfit),
    by simp [Buffer.size, length_image], ?_⟩
  rintro C' b'' prior ⟨rest, hrest⟩
  have hdata : b''.data = b.data ++ c.image ++ rest := hrest.symm
  obtain ⟨d, hd, hq, hs, hsig⟩ := deserialize_of_data_eq c prior hids hdata
  refine ⟨d, hd, by simp [qualifierCount, hq], hq, hs, fun hsigned => ?_⟩
  have hsig' : d.signature = c.signature := by rw [hsig, if_pos hsigned]
  refine ⟨hsig', (beq_true_iff d c).mpr ?_⟩
  cases d; cases c
  simp_all

theorem deserialize_serialize_requiredFields :
    (ofRequiredFields 1000 1000 0xdeadbeef00000001 1).IdsNondecreasing ∧
      (⟨[], Nat.zero_le _⟩ : Buffer 128).size +
        (ofRequiredFields 1000 1000 0xdeadbeef00000001 1).serializedLength ≤ 128 ∧
      ∃ b', (ofRequiredFields 1000 1000 0xdeadbeef00000001 1).serialize
          (⟨[], Nat.zero_le _⟩ : Buffer 128) = .ok b' ∧
        b'.size = 0 + (ofRequiredFields 1000 1000 0xdeadbeef00000001 1).serializedLength ∧
        ∀ {C'} (b'' : Buffer C') (prior : CertificateOfMembership), b'.data <+: b''.data →
          ∃ d, prior.deserialize b'' 0 =
              .ok ((ofRequiredFields 1000 1000 0xdeadbeef00000001 1).serializedLength, d) ∧
            d.qualifierCount = 3 ∧
            d.qualifiers = (ofRequiredFields 1000 1000 0xdeadbeef00000001 1).qualifiers ∧
            d.signedBy = 0 ∧
            ((0 : Address) ≠ 0 → d.signature = (ofRequiredFields 1000 1000 0xdeadbeef00000001 1).signature ∧
              d.beq (ofRequiredFields 1000 1000 0xdeadbeef00000001 1) = true) :=
  ⟨by decide, by decide, deserialize_serialize _ (by decide) ⟨[], Nat.zero_le _⟩ (by decide)⟩

end ZeroTier.CertificateOfMembership
