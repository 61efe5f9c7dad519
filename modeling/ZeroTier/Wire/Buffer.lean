import Mathlib.Data.Vector.Basic

namespace ZeroTier

-- The exceptions the serialization code throws.
inductive ZtException where
  | outOfBounds
  | invalidType
  | overflow
  | badEncoding
  deriving DecidableEq, Repr

-- A computation that returns went through every bind before it; one that throws threw at a bind
-- or after it.
theorem except_bind_eq_ok {ε α β : Type} {x : Except ε α} {f : α → Except ε β} {r : β}
    (h : (x >>= f) = .ok r) : ∃ a, x = .ok a ∧ f a = .ok r := by
  cases x with
  | error e => cases h
  | ok a => exact ⟨a, rfl, h⟩

theorem except_bind_eq_error {ε α β : Type} {x : Except ε α} {f : α → Except ε β} {e : ε}
    (h : (x >>= f) = .error e) : x = .error e ∨ ∃ a, x = .ok a ∧ f a = .error e := by
  cases x with
  | error e' => exact .inl (by injection h with h; rw [h])
  | ok a => exact .inr ⟨a, rfl, h⟩

/-- Modelled from the spec: Buffer.hpp is not among the sources. Section 4.2 lays the COM image
out as `u16` and `u64` fields and a 5-byte address; a field of `n` bytes holds its value most
significant byte first, reduced modulo `256 ^ n`. -/
def bigEndian : Nat → Nat → List UInt8
  | 0, _ => []
  | n + 1, v => bigEndian n (v / 256) ++ [UInt8.ofNat v]

/-- Modelled from the spec: the value of a field read back, most significant byte first. -/
def ofBigEndian (bytes : List UInt8) : Nat :=
  bytes.foldl (fun acc byte => acc * 256 + byte.toNat) 0

@[simp] theorem length_bigEndian (n v : Nat) : (bigEndian n v).length = n := by
  induction n generalizing v with
  | zero => rfl
  | succ n ih => simp [bigEndian, ih]

theorem ofBigEndian_append_singleton (bytes : List UInt8) (byte : UInt8) :
    ofBigEndian (bytes ++ [byte]) = ofBigEndian bytes * 256 + byte.toNat := by
  simp [ofBigEndian, List.foldl_append]

private theorem toNat_uint8_ofNat (v : Nat) : (UInt8.ofNat v).toNat = v % 256 := by
  simp [UInt8.ofNat, UInt8.toNat, BitVec.toNat_ofNat]

-- Reading a field back gives the value modulo the field's range.
theorem ofBigEndian_bigEndian (n v : Nat) : ofBigEndian (bigEndian n v) = v % 256 ^ n := by
  induction n generalizing v with
  | zero => simp [bigEndian, ofBigEndian, Nat.mod_one]
  | succ n ih =>
      rw [bigEndian, ofBigEndian_append_singleton, ih, toNat_uint8_ofNat, Nat.pow_succ',
        Nat.mod_mul]
      omega

-- A field read back and written again gives the same bytes.
theorem bigEndian_ofBigEndian (bytes : List UInt8) :
    bigEndian bytes.length (ofBigEndian bytes) = bytes := by
  induction bytes using List.reverseRecOn with
  | nil => rfl
  | append_singleton bytes byte ih =>
      have hb := byte.toNat_lt_size
      change byte.toNat < 256 at hb
      have hdiv : (ofBigEndian bytes * 256 + byte.toNat) / 256 = ofBigEndian bytes := by omega
      have hbyte : UInt8.ofNat (ofBigEndian bytes * 256 + byte.toNat) = byte :=
        UInt8.toNat.inj (by rw [toNat_uint8_ofNat]; omega)
      simp only [List.length_append, List.length_singleton, bigEndian,
        ofBigEndian_append_singleton, hdiv, ih, hbyte]

theorem ofBigEndian_lt (bytes : List UInt8) : ofBigEndian bytes < 256 ^ bytes.length := by
  induction bytes using List.reverseRecOn with
  | nil => simp [ofBigEndian]
  | append_singleton bytes byte ih =>
      have hb := byte.toNat_lt_size
      simp only [ofBigEndian_append_singleton, List.length_append, List.length_singleton,
        Nat.pow_succ]
      change byte.toNat < 256 at hb
      omega

/-- Modelled from the spec: a `Buffer<C>` holds at most `C` bytes; `data` is its content up to
its current size. -/
structure Buffer (C : Nat) where
  data : List UInt8
  data_length_le : data.length ≤ C

namespace Buffer

variable {C : Nat}

def size (b : Buffer C) : Nat := b.data.length

-- Every `append` throws when the new bytes would pass the capacity.
def append (b : Buffer C) (bytes : List UInt8) : Except ZtException (Buffer C) :=
  if h : b.data.length + bytes.length ≤ C then
    .ok ⟨b.data ++ bytes, by simpa only [List.length_append] using h⟩
  else .error .outOfBounds

def appendU8 (b : Buffer C) (v : UInt8) : Except ZtException (Buffer C) := b.append [v]

def appendU16 (b : Buffer C) (v : UInt16) : Except ZtException (Buffer C) :=
  b.append (bigEndian 2 v.toNat)

def appendU32 (b : Buffer C) (v : UInt32) : Except ZtException (Buffer C) :=
  b.append (bigEndian 4 v.toNat)

def appendU64 (b : Buffer C) (v : UInt64) : Except ZtException (Buffer C) :=
  b.append (bigEndian 8 v.toNat)

def slice (b : Buffer C) (i len : Nat) : List UInt8 := (b.data.drop i).take len

-- `operator[]`: one byte, or an out-of-bounds exception past the size.
def get (b : Buffer C) (i : Nat) : Except ZtException UInt8 :=
  match b.data[i]? with
  | some v => .ok v
  | none => .error .outOfBounds

-- `at<T>`: a big-endian field of `width` bytes.
def atWidth (b : Buffer C) (i width : Nat) : Except ZtException Nat :=
  if i + width ≤ b.size then .ok (ofBigEndian (b.slice i width)) else .error .outOfBounds

def atU16 (b : Buffer C) (i : Nat) : Except ZtException UInt16 :=
  (b.atWidth i 2).map UInt16.ofNat

def atU64 (b : Buffer C) (i : Nat) : Except ZtException UInt64 :=
  (b.atWidth i 8).map UInt64.ofNat

-- `field`: `len` raw bytes.
def field (b : Buffer C) (i len : Nat) : Except ZtException (Mathlib.Vector UInt8 len) :=
  if h : i + len ≤ b.size then
    .ok ⟨b.slice i len, by simp only [slice, size] at h ⊢; simp; omega⟩
  else .error .outOfBounds

theorem append_of_le (b : Buffer C) (bytes : List UInt8) (h : b.data.length + bytes.length ≤ C) :
    b.append bytes = .ok ⟨b.data ++ bytes, by simpa only [List.length_append] using h⟩ := by
  simp [append, h]

theorem append_of_lt (b : Buffer C) (bytes : List UInt8) (h : C < b.data.length + bytes.length) :
    b.append bytes = .error .outOfBounds := by
  simp [append, show ¬b.data.length + bytes.length ≤ C by omega]

@[simp] theorem append_nil (b : Buffer C) : b.append [] = .ok b := by
  simp only [append_of_le b [] (by simpa using b.data_length_le), List.append_nil]

-- Two appends succeed exactly when their concatenation fits, so a writer made of appends is
-- one append of everything it writes.
theorem append_bind_append (b : Buffer C) (x y : List UInt8) :
    (b.append x >>= fun b' => b'.append y) = b.append (x ++ y) := by
  have hlen : (x ++ y).length = x.length + y.length := List.length_append x y
  by_cases hxy : b.data.length + x.length + y.length ≤ C
  · rw [append_of_le b x (by omega), append_of_le b (x ++ y) (by omega)]
    exact (append_of_le _ y (by simp; omega)).trans (by simp)
  · rw [append_of_lt b (x ++ y) (by omega)]
    by_cases hx : b.data.length + x.length ≤ C
    · rw [append_of_le b x hx]
      exact append_of_lt _ y (by simp; omega)
    · rw [append_of_lt b x (by omega)]
      rfl

-- The same inside a longer writer.
theorem append_bind_append_bind {β : Type} (b : Buffer C) (x y : List UInt8)
    (k : Buffer C → Except ZtException β) :
    (b.append x >>= fun b' => b'.append y >>= k) = b.append (x ++ y) >>= k := by
  rw [← bind_assoc, append_bind_append]

theorem slice_add (b : Buffer C) (i m n : Nat) :
    b.slice i (m + n) = b.slice i m ++ b.slice (i + m) n := by
  simp [slice, List.take_add, Nat.add_comm i m]

theorem length_slice (b : Buffer C) {i n : Nat} (h : i + n ≤ b.size) : (b.slice i n).length = n := by
  simp only [slice, size] at h ⊢; simp; omega

theorem slice_one (b : Buffer C) {i : Nat} {v : UInt8} (h : b.data[i]? = some v) :
    b.slice i 1 = [v] := by
  simp only [slice]
  rw [List.drop_eq_getElem_cons (List.getElem?_eq_some_iff.mp h).1]
  simp [(List.getElem?_eq_some_iff.mp h).2]

theorem data_eq_slice (b : Buffer C) (i n : Nat) :
    b.data = b.data.take i ++ b.slice i n ++ b.data.drop (i + n) := by
  simp only [slice, List.append_assoc, ← List.drop_drop]
  rw [List.take_append_drop, List.take_append_drop]

-- Reads that succeed: what was read, and that it lies within the size. Every read that fails
-- throws `outOfBounds`.
section Inversion

variable {b : Buffer C} {i n : Nat}

theorem get_eq_ok {v : UInt8} (h : b.get i = .ok v) : b.data[i]? = some v := by
  unfold get at h; split at h <;> simp_all

theorem atWidth_eq_ok {v : Nat} (h : b.atWidth i n = .ok v) :
    i + n ≤ b.size ∧ v < 256 ^ n ∧ b.slice i n = bigEndian n v := by
  unfold atWidth at h
  split at h
  · cases h
    have hlen := length_slice b ‹_›
    refine ⟨‹_›, by simpa only [hlen] using ofBigEndian_lt (b.slice i n), ?_⟩
    conv_lhs => rw [← bigEndian_ofBigEndian (b.slice i n)]
    rw [hlen]
  · cases h

theorem atU16_eq_ok {v : UInt16} (h : b.atU16 i = .ok v) :
    i + 2 ≤ b.size ∧ b.slice i 2 = bigEndian 2 v.toNat := by
  unfold atU16 at h
  cases hw : b.atWidth i 2 with
  | error e => simp [hw, Except.map] at h
  | ok w =>
      simp only [hw, Except.map, Except.ok.injEq] at h
      obtain ⟨hle, hlt, hs⟩ := atWidth_eq_ok hw
      subst h
      rw [UInt16.toNat_ofNat_of_lt (hlt.trans_eq (by decide))]
      exact ⟨hle, hs⟩

theorem atU64_eq_ok {v : UInt64} (h : b.atU64 i = .ok v) :
    i + 8 ≤ b.size ∧ b.slice i 8 = bigEndian 8 v.toNat := by
  unfold atU64 at h
  cases hw : b.atWidth i 8 with
  | error e => simp [hw, Except.map] at h
  | ok w =>
      simp only [hw, Except.map, Except.ok.injEq] at h
      obtain ⟨hle, hlt, hs⟩ := atWidth_eq_ok hw
      subst h
      rw [UInt64.toNat_ofNat_of_lt (hlt.trans_eq (by decide))]
      exact ⟨hle, hs⟩

theorem field_eq_ok {v : Mathlib.Vector UInt8 n} (h : b.field i n = .ok v) :
    i + n ≤ b.size ∧ b.slice i n = v.toList := by
  unfold field at h
  split at h
  · cases h; exact ⟨‹_›, rfl⟩
  · cases h

theorem get_eq_error {e : ZtException} (h : b.get i = .error e) : e = .outOfBounds := by
  unfold get at h; split at h <;> simp_all

theorem atWidth_eq_error {e : ZtException} (h : b.atWidth i n = .error e) : e = .outOfBounds := by
  unfold atWidth at h; split at h <;> simp_all

theorem atU16_eq_error {e : ZtException} (h : b.atU16 i = .error e) : e = .outOfBounds := by
  unfold atU16 at h
  cases hw : b.atWidth i 2 with
  | error e' => simp only [hw, Except.map, Except.error.injEq] at h; exact h ▸ atWidth_eq_error hw
  | ok w => simp [hw, Except.map] at h

theorem atU64_eq_error {e : ZtException} (h : b.atU64 i = .error e) : e = .outOfBounds := by
  unfold atU64 at h
  cases hw : b.atWidth i 8 with
  | error e' => simp only [hw, Except.map, Except.error.injEq] at h; exact h ▸ atWidth_eq_error hw
  | ok w => simp [hw, Except.map] at h

theorem field_eq_error {e : ZtException} (h : b.field i n = .error e) : e = .outOfBounds := by
  unfold field at h; split at h <;> simp_all

end Inversion

-- Reads from a buffer whose content is `pre ++ bytes ++ rest`, at the offset `pre.length`.
section Reads

variable {b : Buffer C} {pre bytes rest : List UInt8}

theorem slice_of_data_eq (h : b.data = pre ++ bytes ++ rest) :
    b.slice pre.length bytes.length = bytes := by
  simp [slice, h, List.drop_append_eq_append_drop, List.take_append_eq_append_take]

theorem le_size_of_data_eq (h : b.data = pre ++ bytes ++ rest) :
    pre.length + bytes.length ≤ b.size := by
  simp [size, h]

theorem get_of_data_eq {byte : UInt8} (h : b.data = pre ++ byte :: rest) :
    b.get pre.length = .ok byte := by
  simp only [get, h, List.getElem?_append_right (Nat.le_refl _), Nat.sub_self,
    List.getElem?_cons_zero]

theorem atWidth_of_data_eq (h : b.data = pre ++ bytes ++ rest) :
    b.atWidth pre.length bytes.length = .ok (ofBigEndian bytes) := by
  simp [atWidth, le_size_of_data_eq h, slice_of_data_eq h]

theorem atU16_of_data_eq {v : UInt16} (h : b.data = pre ++ bigEndian 2 v.toNat ++ rest) :
    b.atU16 pre.length = .ok v := by
  have hw := atWidth_of_data_eq h
  rw [length_bigEndian, ofBigEndian_bigEndian] at hw
  have hv : v.toNat % 256 ^ 2 = v.toNat := Nat.mod_eq_of_lt (v.toNat_lt_size.trans_eq (by decide))
  simp only [atU16, hw, Except.map, hv]
  congr
  exact UInt16.toNat.inj (UInt16.toNat_ofNat_of_lt v.toNat_lt_size)

theorem atU64_of_data_eq {v : UInt64} (h : b.data = pre ++ bigEndian 8 v.toNat ++ rest) :
    b.atU64 pre.length = .ok v := by
  have hw := atWidth_of_data_eq h
  rw [length_bigEndian, ofBigEndian_bigEndian] at hw
  have hv : v.toNat % 256 ^ 8 = v.toNat := Nat.mod_eq_of_lt (v.toNat_lt_size.trans_eq (by decide))
  simp only [atU64, hw, Except.map, hv]
  congr
  exact UInt64.toNat.inj (UInt64.toNat_ofNat_of_lt v.toNat_lt_size)

theorem field_of_data_eq {n : Nat} (h : b.data = pre ++ bytes ++ rest) (hn : bytes.length = n) :
    b.field pre.length n = .ok ⟨bytes, hn⟩ := by
  subst hn
  simp only [field, le_size_of_data_eq h, dite_true, slice_of_data_eq h]

end Reads

end Buffer

/-- Modelled from the spec: Constants.hpp is not among the sources; an address is 5 bytes on the
wire ("signer_address(5B)"). -/
def ZT_ADDRESS_LENGTH : Nat := 5

-- A ZeroTier address: a 40-bit node identifier (`Address` keeps the low 40 bits of a word).
abbrev Address := BitVec 40

namespace Address

def toInt (a : Address) : UInt64 := UInt64.ofNat a.toNat

-- `Address(uint64_t)`: the word masked to its low 40 bits.
def ofInt (v : UInt64) : Address := BitVec.ofNat 40 v.toNat

/-- Modelled from the spec: `appendTo` writes the address as a 5-byte big-endian field. -/
def appendTo {C : Nat} (a : Address) (b : Buffer C) : Except ZtException (Buffer C) :=
  b.append (bigEndian ZT_ADDRESS_LENGTH a.toNat)

/-- Modelled from the spec: `setTo` reads the address back from its 5-byte field. -/
def setTo (bytes : List UInt8) : Address := BitVec.ofNat 40 (ofBigEndian bytes)

theorem bigEndian_setTo {bytes : List UInt8} (h : bytes.length = ZT_ADDRESS_LENGTH) :
    bigEndian ZT_ADDRESS_LENGTH (setTo bytes).toNat = bytes := by
  have hlt := ofBigEndian_lt bytes
  rw [h] at hlt
  simp only [setTo, BitVec.toNat_ofNat, ZT_ADDRESS_LENGTH] at hlt ⊢
  rw [Nat.mod_eq_of_lt (hlt.trans_eq (by decide))]
  simpa [h, ZT_ADDRESS_LENGTH] using bigEndian_ofBigEndian bytes

theorem setTo_bigEndian (a : Address) : setTo (bigEndian ZT_ADDRESS_LENGTH a.toNat) = a := by
  apply BitVec.eq_of_toNat_eq
  have ha := a.isLt
  simp only [setTo, ofBigEndian_bigEndian, BitVec.toNat_ofNat, ZT_ADDRESS_LENGTH]
  omega

end Address

inductive AddressFamily where
  | inet
  | inet6
  | unspecified
  deriving DecidableEq, Repr

structure InetAddress where
  family : AddressFamily
  ip : List UInt8
  port : UInt16
  deriving DecidableEq, Repr

namespace InetAddress

def familyRank : AddressFamily → Nat
  | .unspecified => 0
  | .inet => 1
  | .inet6 => 2

/-- Modelled from the spec: `InetAddress::operator<` orders by family, then address bytes, then
port. -/
def lt (a b : InetAddress) : Bool :=
  familyRank a.family < familyRank b.family ∨
    (a.family = b.family ∧ (a.ip.map (·.toNat) < b.ip.map (·.toNat) ∨
      (a.ip = b.ip ∧ a.port < b.port)))

end InetAddress

-- Unsigned 64-bit comparisons, each moved to `toNat`.

theorem uint64_le_iff (a b : UInt64) : a ≤ b ↔ a.toNat ≤ b.toNat := Iff.rfl

theorem uint64_lt_iff (a b : UInt64) : a < b ↔ a.toNat < b.toNat := Iff.rfl

theorem uint64_toNat_add (a b : UInt64) : (a + b).toNat = (a.toNat + b.toNat) % 2 ^ 64 :=
  BitVec.toNat_add _ _

theorem uint64_toNat_max (a b : UInt64) : (max a b).toNat = max a.toNat b.toNat := by
  show (if a ≤ b then b else a).toNat = _
  split <;> rename_i h <;> rw [uint64_le_iff] at h <;> omega

theorem uint64_toNat_min (a b : UInt64) : (min a b).toNat = min a.toNat b.toNat := by
  show (if a ≤ b then a else b).toNat = _
  split <;> rename_i h <;> rw [uint64_le_iff] at h <;> omega

-- The order is symmetric in the two values, and `max` with 0 changes nothing.
theorem uint64_max_comm (a b : UInt64) : max a b = max b a :=
  UInt64.toNat.inj (by simp only [uint64_toNat_max]; omega)

theorem uint64_max_assoc (a b c : UInt64) : max (max a b) c = max a (max b c) :=
  UInt64.toNat.inj (by simp only [uint64_toNat_max]; omega)

theorem uint64_max_zero (a : UInt64) : max a 0 = a :=
  UInt64.toNat.inj (by simp only [uint64_toNat_max, UInt64.toNat_zero]; omega)

end ZeroTier
