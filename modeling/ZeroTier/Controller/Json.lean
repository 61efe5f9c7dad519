import ZeroTier.Wire.Buffer
import Mathlib.Data.Nat.Digits

namespace ZeroTier

/-- Modelled from the spec: nlohmann::json, its MessagePack codec and the OSUtils JSON helpers are
not among the sources. The controller store reaches them only through these operations; the
MessagePack vectors (`Packed`) and JSON texts (`Text`) it keeps are opaque to it. -/
structure JsonLib where
  Json : Type
  Packed : Type
  Text : Type
  -- a default-constructed `std::vector<uint8_t>`
  emptyPacked : Packed
  -- `nlohmann::json::object()`
  emptyObject : Json
  toMsgpack : Json → Packed
  -- `from_msgpack`, which throws on a vector that is not one encoded value
  fromMsgpack : Packed → Except Unit Json
  -- `nlohmann::json(std::vector<uint8_t>)`: the bytes as a JSON array
  ofPacked : Packed → Json
  -- `OSUtils::jsonDump(j, -1)` and `OSUtils::jsonParse`
  jsonDump : Json → Text
  jsonParse : Text → Except Unit Json
  -- `obj.length() > 0`
  textNonempty : Text → Bool
  isObject : Json → Bool
  isArray : Json → Bool
  -- the elements of an array, or the values of an object, in iteration order
  items : Json → List Json
  -- `j[key]` on a non-const value: the field, null when absent; throws unless `j` is an object
  -- or null
  index : Json → String → Except Unit Json
  -- `j[key]` on a const object
  get : Json → String → Json
  jsonBool : Json → Bool → Bool
  jsonInt : Json → UInt64 → UInt64
  jsonString : Json → String → String
  -- `InetAddress(const char *)`
  inetAddressOf : String → InetAddress

-- JSON values whose objects hold string fields, enough for the store's records in concrete runs.
inductive FieldJson where
  | null
  | string (s : String)
  | object (fields : List (String × String))
  deriving DecidableEq, Repr

-- An implementation of the interface by `FieldJson`: a value is packed and printed as itself, and
-- the empty vector does not decode.
def JsonLib.fieldJson : JsonLib where
  Json := FieldJson
  Packed := Option FieldJson
  Text := FieldJson
  emptyPacked := none
  emptyObject := .object []
  toMsgpack := some
  fromMsgpack p := match p with
    | some j => .ok j
    | none => .error ()
  ofPacked _ := .null
  jsonDump := id
  jsonParse := .ok
  textNonempty _ := true
  isObject j := match j with
    | .object _ => true
    | _ => false
  isArray _ := false
  items _ := []
  index j k := match j with
    | .object fs => .ok (((fs.lookup k).map .string).getD .null)
    | .null => .ok .null
    | .string _ => .error ()
  get j k := match j with
    | .object fs => ((fs.lookup k).map .string).getD .null
    | _ => .null
  jsonBool j d := match j with
    | .string s => s = "true"
    | _ => d
  jsonInt _ d := d
  jsonString j d := match j with
    | .string s => s
    | _ => d
  inetAddressOf _ := ⟨.unspecified, [], 0⟩

-- A lowercase hex digit.
def hexChar (d : Nat) : Char := if d < 10 then Char.ofNat (48 + d) else Char.ofNat (87 + d)

-- The `k` lowest hex digits of `v`, most significant first.
def hexDigits : Nat → Nat → List Char
  | 0, _ => []
  | k + 1, v => hexDigits k (v / 16) ++ [hexChar (v % 16)]

-- `snprintf` with `%.{width}llx`: lowercase hex, zero-padded to `width` digits.
def formatHex (width : Nat) (v : UInt64) : String :=
  ⟨hexDigits (max width (Nat.digits 16 v.toNat).length) v.toNat⟩

def hexValue (c : Char) : Option Nat :=
  if '0' ≤ c ∧ c ≤ '9' then some (c.toNat - 48)
  else if 'a' ≤ c ∧ c ≤ 'f' then some (c.toNat - 87)
  else if 'A' ≤ c ∧ c ≤ 'F' then some (c.toNat - 55)
  else none

-- The value of the leading hex digits of a string, after `acc`.
def hexPrefixValue : List Char → Nat → Nat
  | [], acc => acc
  | c :: cs, acc =>
      match hexValue c with
      | some d => hexPrefixValue cs (acc * 16 + d)
      | none => acc

/-- Utils::hexStrToU64 is not among the sources. The model takes the value of the leading hex
digits of `s` modulo 2^64: unlike `strtoull(s, 0, 16)` it skips no whitespace, sign or `0x`
prefix, and it wraps where `strtoull` saturates. The two agree on every id `formatHex` prints
(hexStrToU64_formatHex), the form in which the store writes its ids. -/
def hexStrToU64 (s : String) : UInt64 := UInt64.ofNat (hexPrefixValue s.toList 0)

theorem hexValue_hexChar : ∀ d < 16, hexValue (hexChar d) = some d := by decide

theorem utf8Size_hexChar : ∀ d < 16, (hexChar d).utf8Size = 1 := by decide

@[simp] theorem length_hexDigits (k v : Nat) : (hexDigits k v).length = k := by
  induction k generalizing v with
  | zero => rfl
  | succ k ih => simp [hexDigits, ih]

theorem hexPrefixValue_hexDigits (k v acc : Nat) (rest : List Char) :
    hexPrefixValue (hexDigits k v ++ rest) acc =
      hexPrefixValue rest (acc * 16 ^ k + v % 16 ^ k) := by
  induction k generalizing v acc rest with
  | zero => simp [hexDigits, Nat.mod_one]
  | succ k ih =>
    have hd := hexValue_hexChar (v % 16) (Nat.mod_lt _ (by decide))
    rw [hexDigits, List.append_assoc, ih, List.singleton_append, hexPrefixValue, hd]
    dsimp only
    have hacc : acc * 16 ^ (k + 1) = acc * 16 ^ k * 16 := by rw [pow_succ, Nat.mul_assoc]
    rw [hacc, pow_succ', Nat.mod_mul]
    congr 1
    omega

theorem hexStrToU64_formatHex (width : Nat) (v : UInt64) : hexStrToU64 (formatHex width v) = v := by
  have hlt : v.toNat < 16 ^ (max width (Nat.digits 16 v.toNat).length) :=
    (Nat.lt_base_pow_length_digits (by decide)).trans_le
      (Nat.pow_le_pow_right (by decide) (le_max_right _ _))
  have h := hexPrefixValue_hexDigits (max width (Nat.digits 16 v.toNat).length) v.toNat 0 []
  rw [List.append_nil] at h
  apply UInt64.toNat.inj
  simp only [hexStrToU64, formatHex, String.toList, h, hexPrefixValue, Nat.zero_mul, Nat.zero_add,
    Nat.mod_eq_of_lt hlt, UInt64.toNat_ofNat_of_lt v.toNat_lt_size]

theorem length_digits_le {width v : Nat} (h : v < 16 ^ width) :
    (Nat.digits 16 v).length ≤ width := by
  rcases Nat.eq_zero_or_pos v with rfl | hpos
  · simp
  · rw [Nat.digits_len 16 v (by decide) hpos.ne']
    exact Nat.log_lt_of_lt_pow hpos.ne' h

-- A value below `16 ^ width` prints in exactly `width` digits.
theorem formatHex_of_lt {width : Nat} {v : UInt64} (h : v.toNat < 16 ^ width) :
    formatHex width v = ⟨hexDigits width v.toNat⟩ := by
  rw [formatHex, max_eq_left (length_digits_le h)]

theorem utf8ByteSize_hexDigits (k v : Nat) : (String.mk (hexDigits k v)).utf8ByteSize = k := by
  show String.utf8ByteSize.go (hexDigits k v) = k
  induction k generalizing v with
  | zero => rfl
  | succ k ih =>
    have hgo : ∀ (l : List Char) (c : Char),
        String.utf8ByteSize.go (l ++ [c]) = String.utf8ByteSize.go l + c.utf8Size := by
      intro l c
      induction l with
      | nil => simp [String.utf8ByteSize.go]
      | cons x l ihl =>
        rw [List.cons_append, String.utf8ByteSize.go, String.utf8ByteSize.go, ihl]
        omega
    rw [hexDigits, hgo, ih, utf8Size_hexChar _ (Nat.mod_lt _ (by decide))]

end ZeroTier
