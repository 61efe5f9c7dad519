import ZeroTier.Node.Prng

namespace ZeroTier

-- Sending a network config (`Node::ncSendConfig`): one signed packet per chunk, `chunkIndex`
-- advancing by `chunkLen = min(totalSize - chunkIndex, L)` until it reaches `totalSize`.

-- The verbs of the packets `ncSendConfig` builds.
inductive Verb where
  | VERB_OK
  | VERB_NETWORK_CONFIG
  deriving DecidableEq, Repr

/-- Modelled from the spec: Packet.hpp, Constants.hpp, Dictionary.hpp and C25519.hpp are not among
the sources. The sizes `ncSendConfig` reads are parameters, with the relations between them that
the real values satisfy, and `header` is what `Packet(dest, source, verb)` writes before the
payload. -/
structure PacketConstants where
  ZT_UDP_DEFAULT_PAYLOAD_MTU : Nat
  ZT_PACKET_IDX_PAYLOAD : Nat
  ZT_PROTO_MAX_PACKET_LENGTH : Nat
  ZT_NETWORKCONFIG_DICT_CAPACITY : Nat
  ZT_C25519_SIGNATURE_LEN : Nat
  VERB_NETWORK_CONFIG_REQUEST : UInt8
  header : Address → Address → Verb → List UInt8
  length_header : ∀ dest source verb, (header dest source verb).length = ZT_PACKET_IDX_PAYLOAD
  -- 256 bytes of every packet are kept for what surrounds the chunk
  payload_room : ZT_PACKET_IDX_PAYLOAD + 256 < ZT_UDP_DEFAULT_PAYLOAD_MTU
  mtu_le_max : ZT_UDP_DEFAULT_PAYLOAD_MTU ≤ ZT_PROTO_MAX_PACKET_LENGTH
  mtu_lt_u16 : ZT_UDP_DEFAULT_PAYLOAD_MTU < 2 ^ 16
  dict_lt_u32 : ZT_NETWORKCONFIG_DICT_CAPACITY < 2 ^ 32
  signature_fits : ZT_C25519_SIGNATURE_LEN + 39 ≤ 256

-- A `Packet` is a `Buffer` of `ZT_PROTO_MAX_PACKET_LENGTH` bytes, header included.
abbrev Packet (P : PacketConstants) := Buffer P.ZT_PROTO_MAX_PACKET_LENGTH

namespace PacketConstants

variable (P : PacketConstants)

-- `ZT_UDP_DEFAULT_PAYLOAD_MTU - (ZT_PACKET_IDX_PAYLOAD + 256)`: the most dictionary bytes a packet
-- carries.
def chunkSize : Nat := P.ZT_UDP_DEFAULT_PAYLOAD_MTU - (P.ZT_PACKET_IDX_PAYLOAD + 256)

theorem chunkSize_pos : 0 < P.chunkSize := by
  have := P.payload_room
  unfold chunkSize
  omega

-- `Packet(dest, source, verb)`: the header, and nothing after it.
def newPacket (dest source : Address) (verb : Verb) : Packet P :=
  ⟨P.header dest source verb, by
    rw [P.length_header]
    have := P.payload_room
    have := P.mtu_le_max
    omega⟩

end PacketConstants

section Send

variable (P : PacketConstants) (self destination : Address)
  (sign : List UInt8 → Mathlib.Vector UInt8 P.ZT_C25519_SIGNATURE_LEN)
  (nwid requestPacketId configUpdateId : UInt64)

-- The body of the loop: the packet of the chunk of `chunkLen` bytes at `chunkIndex`, before
-- `compress()`. `sign` is `RR->identity.sign`.
def configChunk (dict : List UInt8) (totalSize chunkIndex chunkLen : Nat) :
    Except ZtException (Packet P) := do
  let outp := P.newPacket destination self
    (if requestPacketId ≠ 0 then .VERB_OK else .VERB_NETWORK_CONFIG)
  let outp ← (if requestPacketId ≠ 0 then
      outp.appendU8 P.VERB_NETWORK_CONFIG_REQUEST >>= (·.appendU64 requestPacketId)
    else pure outp)
  let sigStart := outp.size
  let outp ← outp.appendU64 nwid
  let outp ← outp.appendU16 (UInt16.ofNat chunkLen)
  let outp ← outp.append ((dict.drop chunkIndex).take chunkLen)
  let outp ← outp.appendU8 0
  let outp ← outp.appendU64 configUpdateId
  let outp ← outp.appendU32 (UInt32.ofNat totalSize)
  let outp ← outp.appendU32 (UInt32.ofNat chunkIndex)
  let sig := sign (outp.data.drop sigStart)
  let outp ← outp.appendU8 1
  let outp ← outp.appendU16 (UInt16.ofNat P.ZT_C25519_SIGNATURE_LEN)
  outp.append sig.toList

-- The `while (chunkIndex < totalSize)` loop: the packets sent, in order, and the exception that
-- ended it, if one did.
def sendChunks (dict : List UInt8) (totalSize chunkIndex : Nat) :
    List (Packet P) × Option ZtException :=
  if chunkIndex < totalSize then
    let chunkLen := min (totalSize - chunkIndex) P.chunkSize
    match configChunk P self destination sign nwid requestPacketId configUpdateId dict totalSize
      chunkIndex chunkLen with
    | .ok outp =>
        let rest := sendChunks dict totalSize (chunkIndex + chunkLen)
        (outp :: rest.1, rest.2)
    | .error e => ([], some e)
  else ([], none)
termination_by totalSize - chunkIndex
decreasing_by
  have := P.chunkSize_pos
  omega

end Send

-- What `ncSendConfig` hands to the other components.
inductive ConfigAction (P : PacketConstants) where
  -- `n->setConfiguration(tPtr, nc, true)` on the local network
  | setConfiguration (nwid : UInt64)
  -- `RR->sw->send(tPtr, outp, true)`, with the packet as built before `compress()`
  | send (outp : Packet P)

structure NcSendResult (P : PacketConstants) where
  actions : List (ConfigAction P)
  prngState : UInt64 × UInt64
  -- the exception `ncSendConfig` rethrows, if any
  error : Option ZtException

-- `Node::ncSendConfig`. `networkExists` is whether `network(nwid)` finds the network, and `dconf`
-- the dictionary `nc.toDictionary` fills, `none` when it returns false.
def ncSendConfig (P : PacketConstants) (self : Address)
    (sign : List UInt8 → Mathlib.Vector UInt8 P.ZT_C25519_SIGNATURE_LEN) (networkExists : Bool)
    (prngState : UInt64 × UInt64) (nwid requestPacketId : UInt64) (destination : Address)
    (dconf : Option (Buffer P.ZT_NETWORKCONFIG_DICT_CAPACITY)) : NcSendResult P :=
  if destination = self then
    ⟨if networkExists then [.setConfiguration nwid] else [], prngState, none⟩
  else
    match dconf with
    | none => ⟨[], prngState, none⟩
    | some dconf =>
        let (configUpdateId, prngState) := prng prngState
        let configUpdateId := if configUpdateId = 0 then configUpdateId + 1 else configUpdateId
        let (packets, error) := sendChunks P self destination sign nwid requestPacketId
          configUpdateId dconf.data dconf.size 0
        ⟨packets.map .send, prngState, error⟩

-- The chunks as the spec lays them out.

-- The bytes the OK framing puts after the header: the verb replied to and the request's packet
-- id; nothing for an unsolicited NETWORK_CONFIG.
def okPrefix (P : PacketConstants) (requestPacketId : UInt64) : List UInt8 :=
  if requestPacketId ≠ 0 then P.VERB_NETWORK_CONFIG_REQUEST :: bigEndian 8 requestPacketId.toNat
  else []

/-- Modelled from the spec: the fields of a chunk from `nwid` to `chunkIndex`, in the order the
spec lists them, each big-endian. They are what the signature covers. -/
def signedFields (nwid configUpdateId : UInt64) (chunk : List UInt8) (totalSize chunkIndex : Nat) :
    List UInt8 :=
  bigEndian 8 nwid.toNat ++ bigEndian 2 chunk.length ++ chunk ++ [0] ++
    bigEndian 8 configUpdateId.toNat ++ bigEndian 4 totalSize ++ bigEndian 4 chunkIndex

-- A chunk's packet: the header, the framing, the signed fields, then signature type 1, the
-- signature's length and the signature of the fields.
def chunkPacketBytes (P : PacketConstants) (self destination : Address)
    (sign : List UInt8 → Mathlib.Vector UInt8 P.ZT_C25519_SIGNATURE_LEN) (requestPacketId : UInt64)
    (fields : List UInt8) : List UInt8 :=
  P.header destination self (if requestPacketId ≠ 0 then .VERB_OK else .VERB_NETWORK_CONFIG) ++
    okPrefix P requestPacketId ++ fields ++ 1 :: bigEndian 2 P.ZT_C25519_SIGNATURE_LEN ++
    (sign fields).toList

theorem length_okPrefix_le (P : PacketConstants) (requestPacketId : UInt64) :
    (okPrefix P requestPacketId).length ≤ 9 := by
  unfold okPrefix
  split <;> simp

theorem except_ok_bind {ε α β : Type} (a : α) (f : α → Except ε β) : (Except.ok a >>= f) = f a :=
  rfl

section Chunk

variable (P : PacketConstants) (self destination : Address)
  (sign : List UInt8 → Mathlib.Vector UInt8 P.ZT_C25519_SIGNATURE_LEN)
  (nwid requestPacketId configUpdateId : UInt64)

-- A chunk that fits builds its packet without an exception: header, framing, the fields, and the
-- signature over exactly the fields.
theorem configChunk_eq {dict : List UInt8} {totalSize chunkIndex chunkLen : Nat}
    (hlen : chunkLen ≤ P.chunkSize) (htotal : totalSize < 2 ^ 32) (hindex : chunkIndex < 2 ^ 32)
    (hchunk : chunkIndex + chunkLen ≤ dict.length) :
    ∃ outp, configChunk P self destination sign nwid requestPacketId configUpdateId dict totalSize
        chunkIndex chunkLen = .ok outp ∧
      outp.data = chunkPacketBytes P self destination sign requestPacketId
        (signedFields nwid configUpdateId ((dict.drop chunkIndex).take chunkLen) totalSize
          chunkIndex) := by
  have hroom := P.payload_room
  have hmax := P.mtu_le_max
  have hsig := P.signature_fits
  have hpre := length_okPrefix_le P requestPacketId
  have hL : P.chunkSize < 2 ^ 16 := by have := P.mtu_lt_u16; unfold PacketConstants.chunkSize; omega
  have hchunkLen : ((dict.drop chunkIndex).take chunkLen).length = chunkLen := by simp; omega
  -- every cast keeps its value
  have h16 : (UInt16.ofNat chunkLen).toNat = chunkLen := UInt16.toNat_ofNat_of_lt (by
    show chunkLen < 65536; omega)
  have hsig16 : (UInt16.ofNat P.ZT_C25519_SIGNATURE_LEN).toNat = P.ZT_C25519_SIGNATURE_LEN :=
    UInt16.toNat_ofNat_of_lt (by show P.ZT_C25519_SIGNATURE_LEN < 65536; omega)
  have htotal32 : (UInt32.ofNat totalSize).toNat = totalSize := UInt32.toNat_ofNat_of_lt htotal
  have hindex32 : (UInt32.ofNat chunkIndex).toNat = chunkIndex := UInt32.toNat_ofNat_of_lt hindex
  -- the framing is one append
  have hframing : ∀ outp : Packet P, (if requestPacketId ≠ 0 then
      outp.appendU8 P.VERB_NETWORK_CONFIG_REQUEST >>= (·.appendU64 requestPacketId)
      else pure outp) = outp.append (okPrefix P requestPacketId) := by
    intro outp
    unfold okPrefix
    split
    · simp only [Buffer.appendU8, Buffer.appendU64, Buffer.append_bind_append, List.singleton_append]
    · exact (Buffer.append_nil outp).symm
  simp only [configChunk, hframing]
  rw [Buffer.append_of_le _ _ (by simp only [PacketConstants.newPacket, P.length_header]; omega)]
  simp only [except_ok_bind, Buffer.appendU8, Buffer.appendU16, Buffer.appendU32,
    Buffer.appendU64, h16, htotal32, hindex32, hsig16, Buffer.append_bind_append_bind,
    Buffer.append_bind_append]
  unfold PacketConstants.chunkSize at hlen
  rw [Buffer.append_of_le, except_ok_bind, Buffer.append_of_le]
  · refine ⟨_, rfl, ?_⟩
    simp only [Buffer.size, List.drop_left]
    simp only [List.append_assoc, chunkPacketBytes, signedFields, PacketConstants.newPacket,
      hchunkLen, List.cons_append, List.singleton_append, List.nil_append]
  all_goals
    simp only [PacketConstants.newPacket, List.length_append, P.length_header, length_bigEndian,
      hchunkLen, List.length_singleton, List.length_cons, List.length_nil, Mathlib.Vector.toList_length]
    omega

end Chunk

-- The loop: chunk `k` starts at `k * L` and holds `min L (totalSize - k * L)` bytes.

-- Chunk `k` starts inside the dictionary exactly when `k < ⌈totalSize / L⌉`.
theorem lt_ceilDiv_iff {T L k : Nat} (hL : 0 < L) : k < (T + L - 1) / L ↔ k * L < T := by
  rw [Nat.lt_iff_add_one_le, Nat.le_div_iff_mul_le hL, Nat.add_mul, Nat.one_mul]
  omega

-- Past the end the loop sends nothing.
theorem sendChunks_of_le (P : PacketConstants) (self destination : Address)
    (sign : List UInt8 → Mathlib.Vector UInt8 P.ZT_C25519_SIGNATURE_LEN)
    (nwid requestPacketId configUpdateId : UInt64) {dict : List UInt8} {totalSize chunkIndex : Nat}
    (h : totalSize ≤ chunkIndex) :
    sendChunks P self destination sign nwid requestPacketId configUpdateId dict totalSize
      chunkIndex = ([], none) := by
  rw [sendChunks, if_neg (Nat.not_lt.2 h)]

-- The chunk the source cuts, `chunkLen = min(totalSize - chunkIndex, L)` bytes, is the spec's
-- `L` bytes from `chunkIndex`, cut short by the end of the dictionary.
theorem take_min_drop (dict : List UInt8) (i L : Nat) :
    (dict.drop i).take (min (dict.length - i) L) = (dict.drop i).take L := by
  by_cases h : L ≤ dict.length - i
  · rw [Nat.min_eq_right h]
  · rw [Nat.min_eq_left (by omega), List.take_of_length_le (by simp),
      List.take_of_length_le (by simp; omega)]

-- The chunks from `k` on make up the dictionary from `k * L` on.
theorem flatten_chunks (dict : List UInt8) {L : Nat} (hL : 0 < L) :
    ∀ j k, k + j = (dict.length + L - 1) / L →
      ((List.range' k j).map fun i => (dict.drop (i * L)).take L).flatten = dict.drop (k * L)
  | 0, k, hk => by
    have : dict.length ≤ k * L := Nat.not_lt.1 fun h => by
      have := (lt_ceilDiv_iff hL).2 h
      omega
    simp [List.drop_eq_nil_of_le this]
  | j + 1, k, hk => by
    rw [List.range'_succ, List.map_cons, List.flatten_cons,
      flatten_chunks dict hL j (k + 1) (by omega), Nat.add_mul, Nat.one_mul, ← List.drop_drop,
      List.take_append_drop]

section Loop

variable (P : PacketConstants) (self destination : Address)
  (sign : List UInt8 → Mathlib.Vector UInt8 P.ZT_C25519_SIGNATURE_LEN)
  (nwid requestPacketId configUpdateId : UInt64)

-- The packet of chunk `k`: `L` bytes of the dictionary from `k * L`, fewer at its end.
def chunkBytes (dict : List UInt8) (k : Nat) : List UInt8 :=
  chunkPacketBytes P self destination sign requestPacketId
    (signedFields nwid configUpdateId ((dict.drop (k * P.chunkSize)).take P.chunkSize) dict.length
      (k * P.chunkSize))

-- From the start of chunk `k`, the loop sends the packets of chunks `k`, `k + 1`, ... to the last,
-- and throws nothing.
theorem sendChunks_from {dict : List UInt8} (hdict : dict.length < 2 ^ 32) :
    ∀ j k, k + j = (dict.length + P.chunkSize - 1) / P.chunkSize →
      (sendChunks P self destination sign nwid requestPacketId configUpdateId dict dict.length
          (k * P.chunkSize)).2 = none ∧
        (sendChunks P self destination sign nwid requestPacketId configUpdateId dict dict.length
          (k * P.chunkSize)).1.map (·.data) =
          (List.range' k j).map (chunkBytes P self destination sign nwid requestPacketId
            configUpdateId dict)
  | 0, k, hk => by
    have hend : dict.length ≤ k * P.chunkSize := Nat.not_lt.1 fun h => by
      have := (lt_ceilDiv_iff P.chunkSize_pos).2 h
      omega
    rw [sendChunks_of_le P self destination sign nwid requestPacketId configUpdateId hend]
    exact ⟨rfl, rfl⟩
  | j + 1, k, hk => by
    have hk' : k * P.chunkSize < dict.length := (lt_ceilDiv_iff P.chunkSize_pos).1 (by omega)
    obtain ⟨outp, hout, hdata⟩ := configChunk_eq P self destination sign nwid requestPacketId
      configUpdateId (Nat.min_le_right (dict.length - k * P.chunkSize) P.chunkSize) hdict
      (show k * P.chunkSize < 2 ^ 32 by omega)
      (show k * P.chunkSize + min (dict.length - k * P.chunkSize) P.chunkSize ≤ dict.length by omega)
    -- the next chunk starts at `(k + 1) * L`, or both that and where the loop goes are past the end
    have hnext : sendChunks P self destination sign nwid requestPacketId configUpdateId dict
        dict.length (k * P.chunkSize + min (dict.length - k * P.chunkSize) P.chunkSize) =
        sendChunks P self destination sign nwid requestPacketId configUpdateId dict dict.length
          ((k + 1) * P.chunkSize) := by
      rw [Nat.add_mul, Nat.one_mul]
      by_cases hfull : P.chunkSize ≤ dict.length - k * P.chunkSize
      · rw [Nat.min_eq_right hfull]
      · rw [sendChunks_of_le P self destination sign nwid requestPacketId configUpdateId
          (show dict.length ≤ _ by omega), sendChunks_of_le P self destination sign nwid
          requestPacketId configUpdateId (show dict.length ≤ _ by omega)]
    obtain ⟨herr, hpackets⟩ := sendChunks_from hdict j (k + 1) (by omega)
    rw [sendChunks, if_pos hk']
    simp only [hout, hnext, herr, hpackets, List.map_cons, hdata, List.range'_succ, chunkBytes,
      take_min_drop, true_and]

-- Every packet stays within the MTU: besides the signature the fields around the chunk take 39
-- bytes at most, and the chunk at most `L`.
theorem length_chunkBytes_le (dict : List UInt8) (k : Nat) :
    (chunkBytes P self destination sign nwid requestPacketId configUpdateId dict k).length ≤
      P.ZT_UDP_DEFAULT_PAYLOAD_MTU := by
  have := length_okPrefix_le P requestPacketId
  have := P.signature_fits
  have := P.payload_room
  simp only [chunkBytes, chunkPacketBytes, signedFields, List.length_append, List.length_cons,
    P.length_header, length_bigEndian, List.length_singleton, List.length_nil,
    Mathlib.Vector.toList_length, List.length_take, List.length_drop]
  unfold PacketConstants.chunkSize
  omega

-- The transfer as the spec describes it: one packet per chunk, in order; chunk `k` at `k * L`,
-- `min L (totalSize - k * L) > 0` bytes long; the chunks make up the dictionary; every packet
-- within the MTU.
def SendsConfigChunks (dict : List UInt8) (actions : List (ConfigAction P)) : Prop :=
  let count := (dict.length + P.chunkSize - 1) / P.chunkSize
  let chunk (k : Nat) := (dict.drop (k * P.chunkSize)).take P.chunkSize
  (∃ packets : List (Packet P), actions = packets.map .send ∧
    packets.map (·.data) = (List.range count).map
      (chunkBytes P self destination sign nwid requestPacketId configUpdateId dict)) ∧
  (∀ k < count, (chunk k).length = min P.chunkSize (dict.length - k * P.chunkSize) ∧
    0 < (chunk k).length ∧
    (chunkBytes P self destination sign nwid requestPacketId configUpdateId dict k).length ≤
      P.ZT_UDP_DEFAULT_PAYLOAD_MTU) ∧
  ((List.range count).map chunk).flatten = dict

end Loop

theorem ncSendConfig_chunks (P : PacketConstants) (self : Address)
    (sign : List UInt8 → Mathlib.Vector UInt8 P.ZT_C25519_SIGNATURE_LEN) (networkExists : Bool)
    (prngState : UInt64 × UInt64) (nwid requestPacketId : UInt64) (destination : Address)
    (dconf : Buffer P.ZT_NETWORKCONFIG_DICT_CAPACITY) (hremote : destination ≠ self) :
    let r := ncSendConfig P self sign networkExists prngState nwid requestPacketId destination
      (some dconf)
    let configUpdateId :=
      if (prng prngState).1 = 0 then (prng prngState).1 + 1 else (prng prngState).1
    configUpdateId ≠ 0 ∧ r.error = none ∧ r.prngState = (prng prngState).2 ∧
      SendsConfigChunks P self destination sign nwid requestPacketId configUpdateId dconf.data
        r.actions := by
  intro r configUpdateId
  have hL := P.chunkSize_pos
  have hdict : dconf.data.length < 2 ^ 32 :=
    Nat.lt_of_le_of_lt dconf.data_length_le P.dict_lt_u32
  obtain ⟨herr, hpackets⟩ := sendChunks_from P self destination sign nwid requestPacketId
    configUpdateId hdict _ 0 (Nat.zero_add _)
  rw [Nat.zero_mul] at herr hpackets
  rw [← List.range_eq_range'] at hpackets
  have hr : r = ⟨(sendChunks P self destination sign nwid requestPacketId configUpdateId dconf.data
      dconf.data.length 0).1.map .send, (prng prngState).2, (sendChunks P self destination sign nwid
      requestPacketId configUpdateId dconf.data dconf.data.length 0).2⟩ := by
    simp only [r, ncSendConfig, if_neg hremote]
    rfl
  refine ⟨?_, by rw [hr]; exact herr, by rw [hr], ⟨_, by rw [hr], hpackets⟩, fun k hk => ?_, ?_⟩
  · show (if (prng prngState).1 = 0 then (prng prngState).1 + 1 else (prng prngState).1) ≠ 0
    split
    · next h => rw [h]; decide
    · next h => exact h
  · have hstart := (lt_ceilDiv_iff hL).1 hk
    refine ⟨by simp, by simp; omega, length_chunkBytes_le ..⟩
  · have := flatten_chunks dconf.data hL _ 0 (Nat.zero_add _)
    rwa [← List.range_eq_range', Nat.zero_mul, List.drop_zero] at this

-- Constants for a concrete transfer: a 1444-byte payload MTU and a 28-byte header of zeros leave
-- 1160-byte chunks.
def samplePacketConstants : PacketConstants where
  ZT_UDP_DEFAULT_PAYLOAD_MTU := 1444
  ZT_PACKET_IDX_PAYLOAD := 28
  ZT_PROTO_MAX_PACKET_LENGTH := 2800
  ZT_NETWORKCONFIG_DICT_CAPACITY := 4096
  ZT_C25519_SIGNATURE_LEN := 96
  VERB_NETWORK_CONFIG_REQUEST := 11
  header _ _ _ := List.replicate 28 0
  length_header _ _ _ := List.length_replicate 28 0
  payload_room := by decide
  mtu_le_max := by decide
  mtu_lt_u16 := by decide
  dict_lt_u32 := by decide
  signature_fits := by decide

-- A three-byte dictionary sent unsolicited from node 1 to node 2: one packet.
theorem ncSendConfig_chunks_three_bytes :
    let r := ncSendConfig samplePacketConstants 1 (fun _ => Mathlib.Vector.replicate 96 0) true
      (1, 0) 7 0 2 (some ⟨[1, 2, 3], by decide⟩)
    let configUpdateId := if (prng (1, 0)).1 = 0 then (prng (1, 0)).1 + 1 else (prng (1, 0)).1
    configUpdateId ≠ 0 ∧ r.error = none ∧ r.prngState = (prng (1, 0)).2 ∧
      SendsConfigChunks samplePacketConstants 1 2 (fun _ => Mathlib.Vector.replicate 96 0) 7 0
        configUpdateId [1, 2, 3] r.actions :=
  ncSendConfig_chunks samplePacketConstants 1 _ true (1, 0) 7 0 2 ⟨[1, 2, 3], by decide⟩
    (by decide)

end ZeroTier
