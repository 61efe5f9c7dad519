import ZeroTier.Credential.RoundTrip

namespace ZeroTier.CertificateOfMembership

variable {C : Nat} {b : Buffer C}

-- A loop that returns has read `k` qualifiers: their bytes are the slice it covered and their
-- ids never go below `lastId` or below one another.
theorem deserializeQualifiers_eq_ok :
    ∀ (k p : Nat) (lastId : UInt64) (c d : CertificateOfMembership) (p' : Nat),
      p ≤ b.size → deserializeQualifiers b k p lastId c = .ok (p', d) →
      ∃ qs : List Qualifier, qs.length = k ∧ d.qualifiers = c.qualifiers ++ qs ∧
        (lastId :: qs.map (·.id)).Pairwise (· ≤ ·) ∧ p' = p + 24 * k ∧ p + 24 * k ≤ b.size ∧
        b.slice p (24 * k) = qs.flatMap qualifierBytes ∧
        d.signedBy = c.signedBy ∧ d.signature = c.signature
  | 0, p, _, c, d, p', hp, h => by
      simp only [deserializeQualifiers, Except.ok.injEq, Prod.mk.injEq] at h
      obtain ⟨rfl, rfl⟩ := h
      exact ⟨[], rfl, by simp, by simp, by simp, by simpa using hp, by simp [Buffer.slice], rfl, rfl⟩
  | k + 1, p, lastId, c, d, p', hp, h => by
      simp only [deserializeQualifiers] at h
      obtain ⟨qid, hid, h⟩ := except_bind_eq_ok h
      split at h
      · cases h
      · rename_i hlt
        split at h
        · obtain ⟨value, hval, h⟩ := except_bind_eq_ok h
          obtain ⟨maxDelta, hmd, h⟩ := except_bind_eq_ok h
          obtain ⟨hid1, hid2⟩ := Buffer.atU64_eq_ok hid
          obtain ⟨hval1, hval2⟩ := Buffer.atU64_eq_ok hval
          obtain ⟨hmd1, hmd2⟩ := Buffer.atU64_eq_ok hmd
          obtain ⟨qs, hlen, hq, hpair, hp', hle, hslice, hs, hsig⟩ :=
            deserializeQualifiers_eq_ok k (p + 24) qid _ d p' (by omega) h
          have hle_id : lastId ≤ qid := UInt64.not_lt.mp hlt
          refine ⟨⟨qid, value, maxDelta⟩ :: qs, by simp [hlen], by simp [hq, pushQualifier],
            ?_, by rw [hp']; omega, by omega, ?_, hs, hsig⟩
          · refine List.pairwise_cons.mpr ⟨fun x hx => ?_, hpair⟩
            rcases List.mem_cons.mp hx with rfl | hx
            · exact hle_id
            · exact UInt64.le_trans hle_id (List.rel_of_pairwise_cons hpair hx)
          · rw [show 24 * (k + 1) = 8 + 8 + 8 + 24 * k by omega, Buffer.slice_add,
              Buffer.slice_add, Buffer.slice_add, hid2, hval2, hmd2, hslice]
            simp [qualifierBytes, Nat.add_assoc]
        · cases h

theorem deserializeSignature_eq_ok {s p k : Nat} {c d : CertificateOfMembership}
    (h : deserializeSignature b s p c = .ok (k, d)) :
    d.qualifiers = c.qualifiers ∧
      p + (ZT_ADDRESS_LENGTH + if d.signedBy ≠ 0 then ZT_C25519_SIGNATURE_LEN else 0) ≤ b.size ∧
      k = p + (ZT_ADDRESS_LENGTH + if d.signedBy ≠ 0 then ZT_C25519_SIGNATURE_LEN else 0) - s ∧
      b.slice p (ZT_ADDRESS_LENGTH + if d.signedBy ≠ 0 then ZT_C25519_SIGNATURE_LEN else 0) =
        bigEndian ZT_ADDRESS_LENGTH d.signedBy.toNat ++
          (if d.signedBy ≠ 0 then d.signature.toList else []) := by
  unfold deserializeSignature at h
  obtain ⟨signer, hsigner, h⟩ := except_bind_eq_ok h
  obtain ⟨hle, hslice⟩ := Buffer.field_eq_ok hsigner
  have hbytes := Address.bigEndian_setTo signer.toList_length
  dsimp only at h
  split at h
  · rename_i hs
    obtain ⟨signature, hsig, h⟩ := except_bind_eq_ok h
    obtain ⟨hle', hslice'⟩ := Buffer.field_eq_ok hsig
    simp only [pure, Except.pure, Except.ok.injEq, Prod.mk.injEq] at h
    obtain ⟨rfl, rfl⟩ := h
    dsimp only
    rw [if_pos hs, if_pos hs]
    refine ⟨rfl, by omega, by omega, ?_⟩
    rw [Buffer.slice_add, hslice, hslice', hbytes]
  · rename_i hs
    simp only [pure, Except.pure, Except.ok.injEq, Prod.mk.injEq] at h
    obtain ⟨rfl, rfl⟩ := h
    dsimp only
    rw [if_neg hs, if_neg hs, Nat.add_zero, List.append_nil]
    exact ⟨rfl, hle, rfl, by rw [hslice, hbytes]⟩

-- What `deserialize` accepts is the image of the COM it returns, and that COM's ids never
-- decrease.
theorem deserialize_eq_ok {prior d : CertificateOfMembership} {s k : Nat}
    (h : prior.deserialize b s = .ok (k, d)) :
    d.IdsNondecreasing ∧ k = d.serializedLength ∧ s + k ≤ b.size ∧ b.slice s k = d.image := by
  unfold deserialize at h
  obtain ⟨tag, htag, h⟩ := except_bind_eq_ok h
  split at h
  · cases h
  · rename_i ht
    obtain ⟨numq, hnum, h⟩ := except_bind_eq_ok h
    obtain ⟨⟨p, c⟩, hloop, h⟩ := except_bind_eq_ok h
    obtain ⟨hnum1, hnum2⟩ := Buffer.atU16_eq_ok hnum
    obtain ⟨qs, hlen, hq, hpair, hp', hle, hslice, -, -⟩ :=
      deserializeQualifiers_eq_ok numq.toNat (s + 3) 0 _ c p (by omega) hloop
    obtain ⟨hq', hle', hk, hslice'⟩ := deserializeSignature_eq_ok h
    have hqs : d.qualifiers = qs := by simpa using hq'.trans hq
    have hcount : d.qualifierCount = numq.toNat := by simp [qualifierCount, hqs, hlen]
    have htag1 : tag = 1 := by simpa using ht
    subst htag1
    refine ⟨by simpa [IdsNondecreasing, hqs] using hpair.of_cons, ?_, by omega, ?_⟩
    · simp only [serializedLength, hcount]; omega
    · rw [show k = 1 + 2 + 24 * numq.toNat +
          (ZT_ADDRESS_LENGTH + if d.signedBy ≠ 0 then ZT_C25519_SIGNATURE_LEN else 0) by omega,
        Buffer.slice_add, Buffer.slice_add, Buffer.slice_add, Buffer.slice_one b (Buffer.get_eq_ok htag),
        hnum2, hslice, show s + (1 + 2 + 24 * numq.toNat) = p by omega, hslice']
      simp [image, hcount, hqs, Nat.add_assoc]

theorem deserialize_ok_iff (prior : CertificateOfMembership) (s : Nat) :
    (∃ r, prior.deserialize b s = .ok r) ↔
      ∃ c : CertificateOfMembership, c.IdsNondecreasing ∧ s + c.serializedLength ≤ b.size ∧
        b.slice s c.serializedLength = c.image := by
  constructor
  · rintro ⟨⟨k, d⟩, h⟩
    obtain ⟨hids, rfl, hle, hslice⟩ := deserialize_eq_ok h
    exact ⟨d, hids, hle, hslice⟩
  · rintro ⟨c, hids, hle, hslice⟩
    have hdata := b.data_eq_slice s c.serializedLength
    rw [hslice] at hdata
    have hs : (b.data.take s).length = s := by simp [Buffer.size] at hle ⊢; omega
    obtain ⟨d, hd, -⟩ := deserialize_of_data_eq c prior hids hdata
    exact ⟨_, hs ▸ hd⟩

theorem deserialize_invalidType (prior : CertificateOfMembership) {s : Nat} {tag : UInt8}
    (htag : b.data[s]? = some tag) (hne : tag ≠ 1) :
    prior.deserialize b s = .error .invalidType := by
  have hget : b.get s = .ok tag := by simp [Buffer.get, htag]
  simp [deserialize, hget, hne, bind, Except.bind, throw, throwThe, MonadExceptOf.throw]

theorem deserializeSignature_eq_error {s p : Nat} {c : CertificateOfMembership} {e : ZtException}
    (h : deserializeSignature b s p c = .error e) : e = .outOfBounds := by
  unfold deserializeSignature at h
  rcases except_bind_eq_error h with hsigner | ⟨signer, -, h⟩
  · exact Buffer.field_eq_error hsigner
  dsimp only at h
  split at h
  · rcases except_bind_eq_error h with hsig | ⟨signature, -, h⟩
    · exact Buffer.field_eq_error hsig
    · cases h
  · cases h

-- The loop throws `overflow` only when it was asked for more qualifiers than fit.
theorem deserializeQualifiers_eq_overflow :
    ∀ (k p : Nat) (lastId : UInt64) (c : CertificateOfMembership),
      deserializeQualifiers b k p lastId c = .error .overflow →
      ZT_NETWORK_COM_MAX_QUALIFIERS < c.qualifierCount + k
  | 0, _, _, _, h => by cases h
  | k + 1, p, lastId, c, h => by
      simp only [deserializeQualifiers] at h
      rcases except_bind_eq_error h with hid | ⟨qid, -, h⟩
      · cases Buffer.atU64_eq_error hid
      split at h
      · cases h
      · split at h
        · rcases except_bind_eq_error h with hval | ⟨value, -, h⟩
          · cases Buffer.atU64_eq_error hval
          rcases except_bind_eq_error h with hmd | ⟨maxDelta, -, h⟩
          · cases Buffer.atU64_eq_error hmd
          have := deserializeQualifiers_eq_overflow k _ _ _ h
          simp only [pushQualifier, qualifierCount, List.length_append, List.length_singleton] at this ⊢
          omega
        · rename_i hc
          simp only [qualifierCount] at hc ⊢
          omega

-- The loop throws `badEncoding` only when an id it read is below the one before it.
theorem deserializeQualifiers_eq_badEncoding :
    ∀ (k p : Nat) (lastId : UInt64) (c : CertificateOfMembership),
      deserializeQualifiers b k p lastId c = .error .badEncoding →
      (0 < k ∧ ∃ y, b.atU64 p = .ok y ∧ y < lastId) ∨
        ∃ j, j + 1 < k ∧ ∃ x y, b.atU64 (p + 24 * j) = .ok x ∧
          b.atU64 (p + 24 * (j + 1)) = .ok y ∧ y < x
  | 0, _, _, _, h => by cases h
  | k + 1, p, lastId, c, h => by
      simp only [deserializeQualifiers] at h
      rcases except_bind_eq_error h with hid | ⟨qid, hid, h⟩
      · cases Buffer.atU64_eq_error hid
      split at h
      · exact .inl ⟨Nat.succ_pos _, qid, hid, ‹_›⟩
      · split at h
        · rcases except_bind_eq_error h with hval | ⟨value, -, h⟩
          · cases Buffer.atU64_eq_error hval
          rcases except_bind_eq_error h with hmd | ⟨maxDelta, -, h⟩
          · cases Buffer.atU64_eq_error hmd
          rcases deserializeQualifiers_eq_badEncoding k _ _ _ h with ⟨hk, y, hy, hlt⟩ | ⟨j, hj, x, y, hx, hy, hlt⟩
          · exact .inr ⟨0, by omega, qid, y, by simpa using hid, by simpa using hy, hlt⟩
          · refine .inr ⟨j + 1, by omega, x, y, ?_, ?_, hlt⟩
            · simpa [Nat.mul_succ, Nat.add_assoc, Nat.add_comm 24] using hx
            · simpa [Nat.mul_succ, Nat.add_assoc, Nat.add_comm 24] using hy
        · cases h

-- Past the tag, the count and the qualifiers: the signer and signature only run out of bytes.
theorem deserialize_eq_error {prior : CertificateOfMembership} {s : Nat} {e : ZtException}
    (h : prior.deserialize b s = .error e) (he : e ≠ .outOfBounds) (hi : e ≠ .invalidType) :
    ∃ n : UInt16, b.atU16 (s + 1) = .ok n ∧
      deserializeQualifiers b n.toNat (s + 3) 0
        { prior with qualifiers := [], signedBy := 0, qualifiers_length_le := Nat.zero_le _ } =
        .error e := by
  unfold deserialize at h
  rcases except_bind_eq_error h with htag | ⟨tag, -, h⟩
  · exact absurd (Buffer.get_eq_error htag) he
  split at h
  · simp only [throw, throwThe, MonadExceptOf.throw, Except.error.injEq] at h; exact absurd h.symm hi
  · rcases except_bind_eq_error h with hnum | ⟨numq, hnum, h⟩
    · exact absurd (Buffer.atU16_eq_error hnum) he
    refine ⟨numq, hnum, ?_⟩
    rcases except_bind_eq_error h with hloop | ⟨⟨p, c⟩, -, h⟩
    · exact hloop
    · exact absurd (deserializeSignature_eq_error h) he

-- Past the tag and the count `n`, a loop that throws makes `deserialize` throw the same.
theorem deserialize_of_loop_error (prior : CertificateOfMembership) {pre rest : List UInt8}
    {n : UInt16} (h : b.data = pre ++ [1] ++ bigEndian 2 n.toNat ++ rest) {e : ZtException}
    (hloop : deserializeQualifiers b n.toNat (pre.length + 3) 0
      { prior with qualifiers := [], signedBy := 0, qualifiers_length_le := Nat.zero_le _ } = .error e) :
    prior.deserialize b pre.length = .error e := by
  have htag := Buffer.get_of_data_eq (show b.data = pre ++ 1 :: (bigEndian 2 n.toNat ++ rest) by
    simp [h])
  have hnum := Buffer.atU16_of_data_eq (show b.data = (pre ++ [1]) ++ bigEndian 2 n.toNat ++ rest by
    simp [h])
  simp only [List.length_append, List.length_singleton] at hnum
  simp only [deserialize, htag, hnum, bind, Except.bind, ne_eq, not_true_eq_false, if_false,
    Nat.add_assoc]
  rw [hloop]

-- Past the tag, a count above `qs.length` and qualifiers `qs` whose ids do not go down, what
-- `deserialize` throws is decided at the id `y` after them: first the order check against the last
-- id of `qs`, then the overflow check with `qs` stored.
theorem deserialize_error_at_next_id (prior : CertificateOfMembership) {pre rest : List UInt8}
    {n : UInt16} {qs : List Qualifier} {y : UInt64}
    (h : b.data = pre ++ [1] ++ bigEndian 2 n.toNat ++ qs.flatMap qualifierBytes ++
      bigEndian 8 y.toNat ++ rest)
    (hids : (qs.map (·.id)).Pairwise (· ≤ ·)) (hlen : qs.length ≤ ZT_NETWORK_COM_MAX_QUALIFIERS)
    (hcount : qs.length < n.toNat) :
    ∃ d : CertificateOfMembership, d.qualifierCount = qs.length ∧ ∀ e : ZtException,
      (if y < (qs.map (·.id)).getLastD 0 then throw .badEncoding
        else if h : d.qualifierCount < ZT_NETWORK_COM_MAX_QUALIFIERS then do
          let value ← b.atU64 (pre.length + 3 + 24 * qs.length + 8)
          let maxDelta ← b.atU64 (pre.length + 3 + 24 * qs.length + 16)
          deserializeQualifiers b (n.toNat - qs.length - 1) (pre.length + 3 + 24 * qs.length + 24) y
            (d.pushQualifier ⟨y, value, maxDelta⟩ h)
        else throw .overflow) = .error e →
      prior.deserialize b pre.length = .error e := by
  have h' : b.data = (pre ++ [1] ++ bigEndian 2 n.toNat) ++ qs.flatMap qualifierBytes ++
      (bigEndian 8 y.toNat ++ rest) := by simp [h]
  obtain ⟨d, hq, -, -, hd⟩ := deserializeQualifiers_of_prefix qs _ 0
    { prior with qualifiers := [], signedBy := 0, qualifiers_length_le := Nat.zero_le _ }
    (n.toNat - qs.length) h' (List.pairwise_cons.mpr ⟨fun _ _ => by
      simp [UInt64.le_def, BitVec.le_def], hids⟩) (by simpa [qualifierCount] using hlen)
  have hread := Buffer.atU64_of_data_eq h
  simp only [List.length_append, List.length_singleton, length_bigEndian,
    length_flatMap_qualifierBytes, show pre.length + 1 + 2 = pre.length + 3 by omega] at hread
  simp only [List.length_append, List.length_singleton, length_bigEndian,
    show pre.length + 1 + 2 = pre.length + 3 by omega, Nat.add_sub_cancel' hcount.le] at hd
  refine ⟨d, by simp [qualifierCount, hq], fun e he => deserialize_of_loop_error prior
    (show b.data = pre ++ [1] ++ bigEndian 2 n.toNat ++
      (qs.flatMap qualifierBytes ++ bigEndian 8 y.toNat ++ rest) by simp [h]) ?_⟩
  rw [hd, show n.toNat - qs.length = n.toNat - qs.length - 1 + 1 by omega]
  show (b.atU64 _ >>= _) = _
  rw [hread]
  exact he

-- An id below the one before it, read within the count and no later than the ninth qualifier,
-- throws `BAD_ENCODING`.
theorem deserialize_badEncoding_of_decrease (prior : CertificateOfMembership)
    {pre rest : List UInt8} {n : UInt16} {qs : List Qualifier} {y : UInt64}
    (h : b.data = pre ++ [1] ++ bigEndian 2 n.toNat ++ qs.flatMap qualifierBytes ++
      bigEndian 8 y.toNat ++ rest)
    (hids : (qs.map (·.id)).Pairwise (· ≤ ·)) (hlen : qs.length ≤ ZT_NETWORK_COM_MAX_QUALIFIERS)
    (hcount : qs.length < n.toNat) (hy : y < (qs.map (·.id)).getLastD 0) :
    prior.deserialize b pre.length = .error .badEncoding := by
  obtain ⟨d, -, hdes⟩ := deserialize_error_at_next_id prior h hids hlen hcount
  exact hdes _ (if_pos hy)

-- A ninth qualifier whose id does not go below the eighth's throws `OVERFLOW`.
theorem deserialize_overflow_of_ninth (prior : CertificateOfMembership)
    {pre rest : List UInt8} {n : UInt16} {qs : List Qualifier} {y : UInt64}
    (h : b.data = pre ++ [1] ++ bigEndian 2 n.toNat ++ qs.flatMap qualifierBytes ++
      bigEndian 8 y.toNat ++ rest)
    (hids : (qs.map (·.id)).Pairwise (· ≤ ·)) (hlen : qs.length = ZT_NETWORK_COM_MAX_QUALIFIERS)
    (hcount : qs.length < n.toNat) (hy : (qs.map (·.id)).getLastD 0 ≤ y) :
    prior.deserialize b pre.length = .error .overflow := by
  obtain ⟨d, hd, hdes⟩ := deserialize_error_at_next_id prior h hids hlen.le hcount
  exact hdes _ ((if_neg (UInt64.not_lt.mpr hy)).trans (dif_neg (by omega)))

-- What `deserialize` accepts (the images of COMs whose ids never decrease: equal neighbours pass
-- `qid < lastId`) and when it throws each error, both ways: a ninth id out of order is
-- `BAD_ENCODING`, not `OVERFLOW`.
theorem deserialize_accepted_language (prior : CertificateOfMembership) (b : Buffer C) (s : Nat) :
    ((∃ r, prior.deserialize b s = .ok r) ↔
      ∃ c : CertificateOfMembership, c.IdsNondecreasing ∧ s + c.serializedLength ≤ b.size ∧
        b.slice s c.serializedLength = c.image) ∧
    (∀ k d, prior.deserialize b s = .ok (k, d) →
      d.qualifierCount ≤ ZT_NETWORK_COM_MAX_QUALIFIERS ∧ d.IdsNondecreasing ∧
        k = d.serializedLength) ∧
    (∀ tag, b.data[s]? = some tag → tag ≠ 1 → prior.deserialize b s = .error .invalidType) ∧
    (prior.deserialize b s = .error .overflow →
      ∃ n : UInt16, b.atU16 (s + 1) = .ok n ∧ ZT_NETWORK_COM_MAX_QUALIFIERS < n.toNat) ∧
    (prior.deserialize b s = .error .badEncoding →
      ∃ n : UInt16, b.atU16 (s + 1) = .ok n ∧ ∃ j, j + 1 < n.toNat ∧ ∃ x y,
        b.atU64 (s + 3 + 24 * j) = .ok x ∧ b.atU64 (s + 3 + 24 * (j + 1)) = .ok y ∧ y < x) ∧
    (∀ (pre rest : List UInt8) (n : UInt16) (qs : List Qualifier) (y : UInt64), pre.length = s →
      b.data = pre ++ [1] ++ bigEndian 2 n.toNat ++ qs.flatMap qualifierBytes ++
        bigEndian 8 y.toNat ++ rest →
      (qs.map (·.id)).Pairwise (· ≤ ·) → qs.length < n.toNat →
      (qs.length ≤ ZT_NETWORK_COM_MAX_QUALIFIERS → y < (qs.map (·.id)).getLastD 0 →
        prior.deserialize b s = .error .badEncoding) ∧
      (qs.length = ZT_NETWORK_COM_MAX_QUALIFIERS → (qs.map (·.id)).getLastD 0 ≤ y →
        prior.deserialize b s = .error .overflow)) := by
  refine ⟨deserialize_ok_iff prior s, fun k d h => ?_, fun tag => deserialize_invalidType prior,
    fun h => ?_, fun h => ?_, fun pre rest n qs y hs h hids hcount => ?_⟩
  · obtain ⟨hids, hk, -⟩ := deserialize_eq_ok h
    exact ⟨d.qualifiers_length_le, hids, hk⟩
  · obtain ⟨n, hn, hloop⟩ := deserialize_eq_error h (by decide) (by decide)
    have := deserializeQualifiers_eq_overflow _ _ _ _ hloop
    exact ⟨n, hn, by simpa [qualifierCount] using this⟩
  · obtain ⟨n, hn, hloop⟩ := deserialize_eq_error h (by decide) (by decide)
    rcases deserializeQualifiers_eq_badEncoding _ _ _ _ hloop with ⟨-, y, -, hy⟩ | hpair
    · exact absurd hy (UInt64.not_lt.mpr (by simp [UInt64.le_def, BitVec.le_def]))
    · exact ⟨n, hn, hpair⟩
  · subst hs
    exact ⟨fun hl => deserialize_badEncoding_of_decrease prior h hids hl hcount,
      fun hl => deserialize_overflow_of_ninth prior h hids hl hcount⟩

-- Eight qualifiers with ids 1 to 8 and a ninth with id 0: `BAD_ENCODING`, not `OVERFLOW`.
set_option maxRecDepth 8000 in
example : empty.deserialize (⟨[1] ++ bigEndian 2 9 ++
    (List.range 8).flatMap (fun i => qualifierBytes ⟨UInt64.ofNat (i + 1), 0, 0⟩) ++
    qualifierBytes ⟨0, 0, 0⟩, by decide⟩ : Buffer 219) 0 = .error .badEncoding := rfl

-- `qid < lastId` lets an id equal to the one before it through: an image whose ids never
-- decrease but repeat is accepted, and the COM decoded holds the repeated id twice, although the
-- class keeps its qualifiers as a sorted set.
theorem deserialize_accepts_repeated_id (prior c : CertificateOfMembership)
    (hids : c.IdsNondecreasing) (hrep : ¬(c.qualifiers.map (·.id)).Pairwise (· < ·))
    {pre rest : List UInt8} (h : b.data = pre ++ c.image ++ rest) :
    ∃ d, prior.deserialize b pre.length = .ok (c.serializedLength, d) ∧
      ¬(d.qualifiers.map (·.id)).Pairwise (· < ·) := by
  obtain ⟨d, hd, hq, -⟩ := deserialize_of_data_eq c prior hids h
  exact ⟨d, hd, hq ▸ hrep⟩

-- Two qualifiers with id 5, unsigned: the 56 bytes tag 1, count 2, (5, 0, 0) twice, signer 0.
def repeatedId : CertificateOfMembership :=
  ⟨0, [⟨5, 0, 0⟩, ⟨5, 0, 0⟩], empty.signature, by decide⟩

theorem deserialize_accepts_repeated_id_five :
    repeatedId.IdsNondecreasing ∧ ¬(repeatedId.qualifiers.map (·.id)).Pairwise (· < ·) ∧
      ∃ d, empty.deserialize (⟨repeatedId.image, le_refl _⟩ : Buffer repeatedId.image.length) 0 =
        .ok (repeatedId.serializedLength, d) ∧ ¬(d.qualifiers.map (·.id)).Pairwise (· < ·) :=
  ⟨by decide, by decide, @deserialize_accepts_repeated_id _ ⟨repeatedId.image, le_refl _⟩ empty
    repeatedId (by decide) (by decide) [] [] (by simp)⟩

-- `deserialize` clears `_qualifierCount` and `_signedBy` but not `_signature`: a COM decoded
-- without a signer keeps the signature the object held before.

-- The loop never reads or writes the signature.
theorem deserializeQualifiers_signature (σ : Signature) :
    ∀ (k p : Nat) (lastId : UInt64) (c : CertificateOfMembership),
      deserializeQualifiers b k p lastId { c with signature := σ } =
        (deserializeQualifiers b k p lastId c).map fun r => (r.1, { r.2 with signature := σ })
  | 0, _, _, _ => rfl
  | k + 1, p, lastId, c => by
    simp only [deserializeQualifiers]
    cases b.atU64 p with
    | error e => rfl
    | ok qid =>
      show (if qid < lastId then _ else
          if h : c.qualifierCount < ZT_NETWORK_COM_MAX_QUALIFIERS then _ else _) =
        Except.map _ (if qid < lastId then _ else
          if h : c.qualifierCount < ZT_NETWORK_COM_MAX_QUALIFIERS then _ else _)
      split
      · rfl
      · split
        · show (b.atU64 (p + 8) >>= _) = Except.map _ (b.atU64 (p + 8) >>= _)
          cases b.atU64 (p + 8) with
          | error e => rfl
          | ok value =>
            show (b.atU64 (p + 16) >>= _) = Except.map _ (b.atU64 (p + 16) >>= _)
            cases b.atU64 (p + 16) with
            | error e => rfl
            | ok maxDelta =>
              exact deserializeQualifiers_signature σ k (p + 24) qid
                (c.pushQualifier ⟨qid, value, maxDelta⟩ ‹_›)
        · rfl

-- The signer block sets the signature only when the signer is not null.
theorem deserializeSignature_signature (σ : Signature) (s p : Nat) (c : CertificateOfMembership) :
    deserializeSignature b s p { c with signature := σ } =
      (deserializeSignature b s p c).map fun r =>
        (r.1, if r.2.signedBy ≠ 0 then r.2 else { r.2 with signature := σ }) := by
  unfold deserializeSignature
  cases b.field p ZT_ADDRESS_LENGTH with
  | error e => rfl
  | ok signer =>
    show (if Address.setTo signer.toList ≠ 0 then _ else _) =
      Except.map _ (if Address.setTo signer.toList ≠ 0 then _ else _)
    split
    · next hs =>
      cases b.field (p + ZT_ADDRESS_LENGTH) ZT_C25519_SIGNATURE_LEN with
      | error e => rfl
      | ok signature => exact congrArg Except.ok (Prod.ext rfl (if_pos hs).symm)
    · next hs => exact congrArg Except.ok (Prod.ext rfl (if_neg hs).symm)

-- Decoding into one object is decoding into any other, with the first object's signature put
-- back when the decoded signer is null.
theorem deserialize_eq_map (b : Buffer C) (prior prior' : CertificateOfMembership) (s : Nat) :
    prior.deserialize b s = (prior'.deserialize b s).map fun r =>
      (r.1, if r.2.signedBy ≠ 0 then r.2 else { r.2 with signature := prior.signature }) := by
  unfold deserialize
  cases b.get s with
  | error e => rfl
  | ok tag =>
    show (if tag ≠ 1 then _ else _) = Except.map _ (if tag ≠ 1 then _ else _)
    split
    · rfl
    · show (b.atU16 (s + 1) >>= _) = Except.map _ (b.atU16 (s + 1) >>= _)
      cases b.atU16 (s + 1) with
      | error e => rfl
      | ok numq =>
        show (deserializeQualifiers b numq.toNat (s + 3) 0
            { ({ prior' with qualifiers := [], signedBy := 0, qualifiers_length_le := Nat.zero_le _ } :
                CertificateOfMembership) with signature := prior.signature } >>= fun r => match r with
                | (p, c) => deserializeSignature b s p c) =
          Except.map _ (deserializeQualifiers b numq.toNat (s + 3) 0
            { prior' with qualifiers := [], signedBy := 0, qualifiers_length_le := Nat.zero_le _ } >>=
              fun r => match r with
                | (p, c) => deserializeSignature b s p c)
        rw [deserializeQualifiers_signature]
        cases deserializeQualifiers b numq.toNat (s + 3) 0
            { prior' with qualifiers := [], signedBy := 0, qualifiers_length_le := Nat.zero_le _ } with
        | error e => rfl
        | ok r => exact deserializeSignature_signature prior.signature s r.1 r.2

-- Two objects that decode the same bytes reach the same verdict, byte count, qualifiers and
-- signer; the two COMs are `operator==` exactly when the signer is set or the two objects held
-- equal signatures before.
theorem deserialize_same_bytes (b : Buffer C) (prior prior' : CertificateOfMembership) (s : Nat) :
    (prior.deserialize b s).map Prod.fst = (prior'.deserialize b s).map Prod.fst ∧
      ∀ k d k' d', prior.deserialize b s = .ok (k, d) → prior'.deserialize b s = .ok (k', d') →
        k = k' ∧ d.qualifiers = d'.qualifiers ∧ d.signedBy = d'.signedBy ∧
          (d.beq d' = true ↔ d.signedBy ≠ 0 ∨ prior.signature = prior'.signature) := by
  have h := deserialize_eq_map b prior prior' s
  have h' := deserialize_eq_map b prior' prior' s
  refine ⟨by rw [h]; cases prior'.deserialize b s <;> rfl, fun k d k' d' hd hd' => ?_⟩
  rw [h, hd'] at hd
  rw [hd'] at h'
  simp only [Except.map, Except.ok.injEq, Prod.mk.injEq] at hd h'
  obtain ⟨rfl, rfl⟩ := hd
  by_cases hs : d'.signedBy ≠ 0
  · rw [if_pos hs]
    exact ⟨rfl, rfl, rfl, iff_of_true ((beq_true_iff _ _).2 rfl) (.inl hs)⟩
  · -- an unsigned COM carries the signature its object held
    rw [if_neg hs] at h' ⊢
    have hsig : d'.signature = prior'.signature := by
      have := congrArg CertificateOfMembership.signature h'.2
      exact this
    refine ⟨rfl, rfl, rfl, ?_⟩
    rw [beq_true_iff, or_iff_right hs, ← hsig]
    constructor
    · exact congrArg CertificateOfMembership.signature
    · intro heq
      cases d'
      simp_all

end ZeroTier.CertificateOfMembership
