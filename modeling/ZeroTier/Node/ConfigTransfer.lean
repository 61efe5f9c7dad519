import ZeroTier.Node.NetworkConfig
import Mathlib.Data.List.Sort

namespace ZeroTier

-- Receiving a network config. The member's side is not among the sources: it is modelled from the
-- spec's chunk fields, and the dictionary is rebuilt from the chunks in order of `chunkIndex`.

-- `n` bytes off the front of `bs`, handed with what follows them to the rest of the reader.
def takeBytes {α : Type} (n : Nat) (bs : List UInt8) (k : List UInt8 → List UInt8 → Option α) :
    Option α :=
  if n ≤ bs.length then k (bs.take n) (bs.drop n) else none

theorem takeBytes_append {α : Type} {n : Nat} {bs : List UInt8} (h : bs.length = n)
    (rest : List UInt8) (k : List UInt8 → List UInt8 → Option α) :
    takeBytes n (bs ++ rest) k = k bs rest := by
  subst h
  simp [takeBytes]

theorem takeBytes_length {α : Type} (bs : List UInt8)
    (k : List UInt8 → List UInt8 → Option α) : takeBytes bs.length bs k = k bs [] := by
  simpa using takeBytes_append (rfl : bs.length = bs.length) [] k

theorem takeBytes_one {α : Type} (b : UInt8) (rest : List UInt8)
    (k : List UInt8 → List UInt8 → Option α) : takeBytes 1 (b :: rest) k = k [b] rest := by
  simp [takeBytes]

/-- Modelled from the spec: one chunk as a member reads it, the fields in the order the spec lists
them. `signed` is the bytes from `nwid` to `chunkIndex`, which the signature covers. -/
structure ConfigChunk where
  nwid : Nat
  chunk : List UInt8
  flags : Nat
  configUpdateId : Nat
  totalSize : Nat
  chunkIndex : Nat
  signatureType : Nat
  signature : List UInt8
  signed : List UInt8
  deriving DecidableEq, Repr

/-- Modelled from the spec: a chunk's payload read field by field, each big-endian; none when it is
cut short or runs on past the signature. -/
def parseChunk (bs : List UInt8) : Option ConfigChunk :=
  takeBytes 8 bs fun nwid bs =>
  takeBytes 2 bs fun chunkLen bs =>
  takeBytes (ofBigEndian chunkLen) bs fun chunk bs =>
  takeBytes 1 bs fun flags bs =>
  takeBytes 8 bs fun configUpdateId bs =>
  takeBytes 4 bs fun totalSize bs =>
  takeBytes 4 bs fun chunkIndex bs =>
  takeBytes 1 bs fun signatureType bs =>
  takeBytes 2 bs fun signatureLen bs =>
  takeBytes (ofBigEndian signatureLen) bs fun signature bs =>
  if bs = [] then
    some ⟨ofBigEndian nwid, chunk, ofBigEndian flags, ofBigEndian configUpdateId,
      ofBigEndian totalSize, ofBigEndian chunkIndex, ofBigEndian signatureType, signature,
      nwid ++ chunkLen ++ chunk ++ flags ++ configUpdateId ++ totalSize ++ chunkIndex⟩
  else none

theorem ofBigEndian_bigEndian_of_lt {n v : Nat} (h : v < 256 ^ n) :
    ofBigEndian (bigEndian n v) = v := by
  rw [ofBigEndian_bigEndian, Nat.mod_eq_of_lt h]

-- The fields `ncSendConfig` writes, then the signature's type, length and bytes, read back.
theorem parseChunk_signedFields {nwid configUpdateId : UInt64} {chunk : List UInt8}
    {totalSize chunkIndex sigLen : Nat} {sig : List UInt8} (hchunk : chunk.length < 2 ^ 16)
    (htotal : totalSize < 2 ^ 32) (hindex : chunkIndex < 2 ^ 32) (hsig : sig.length = sigLen)
    (hsigLen : sigLen < 2 ^ 16) :
    parseChunk (signedFields nwid configUpdateId chunk totalSize chunkIndex ++
        1 :: bigEndian 2 sigLen ++ sig) =
      some ⟨nwid.toNat, chunk, 0, configUpdateId.toNat, totalSize, chunkIndex, 1, sig,
        signedFields nwid configUpdateId chunk totalSize chunkIndex⟩ := by
  subst hsig
  have hlen (n v : Nat) : (bigEndian n v).length = n := length_bigEndian n v
  have h64 (x : UInt64) : x.toNat < 256 ^ 8 := x.val.isLt
  simp only [parseChunk, signedFields, List.append_assoc, List.cons_append, List.singleton_append,
    List.nil_append, takeBytes_append (hlen _ _),
    ofBigEndian_bigEndian_of_lt (show chunk.length < 256 ^ 2 from hchunk),
    takeBytes_append (rfl : chunk.length = chunk.length), takeBytes_one,
    ofBigEndian_bigEndian_of_lt (show sig.length < 256 ^ 2 from hsigLen),
    takeBytes_length, ofBigEndian_bigEndian_of_lt (h64 _),
    ofBigEndian_bigEndian_of_lt (show totalSize < 256 ^ 4 from htotal),
    ofBigEndian_bigEndian_of_lt (show chunkIndex < 256 ^ 4 from hindex)]
  rfl

-- A chunk's packet read past its header and its OK framing.
theorem parseChunk_chunkPacketBytes (P : PacketConstants) (self destination : Address)
    (sign : List UInt8 → Mathlib.Vector UInt8 P.ZT_C25519_SIGNATURE_LEN)
    (requestPacketId : UInt64) {nwid configUpdateId : UInt64} {chunk : List UInt8} {totalSize chunkIndex : Nat}
    (hchunk : chunk.length < 2 ^ 16) (htotal : totalSize < 2 ^ 32) (hindex : chunkIndex < 2 ^ 32) :
    parseChunk ((chunkPacketBytes P self destination sign requestPacketId
        (signedFields nwid configUpdateId chunk totalSize chunkIndex)).drop
        (P.ZT_PACKET_IDX_PAYLOAD + (okPrefix P requestPacketId).length)) =
      some ⟨nwid.toNat, chunk, 0, configUpdateId.toNat, totalSize, chunkIndex, 1,
        (sign (signedFields nwid configUpdateId chunk totalSize chunkIndex)).toList,
        signedFields nwid configUpdateId chunk totalSize chunkIndex⟩ := by
  have hS := P.signature_fits
  have hsplit (fields : List UInt8) :
      chunkPacketBytes P self destination sign requestPacketId fields =
        (P.header destination self
            (if requestPacketId ≠ 0 then .VERB_OK else .VERB_NETWORK_CONFIG) ++
          okPrefix P requestPacketId) ++
        (fields ++ 1 :: bigEndian 2 P.ZT_C25519_SIGNATURE_LEN ++ (sign fields).toList) := by
    simp only [chunkPacketBytes, List.append_assoc]
  rw [hsplit, List.drop_left' (by rw [List.length_append, P.length_header])]
  exact parseChunk_signedFields hchunk htotal hindex (Mathlib.Vector.toList_length _) (by omega)

/-- Modelled from the spec: a member's receipt of the packets of one transfer, each read past the
header and the OK framing; none when one of them does not parse. -/
def receiveChunks (P : PacketConstants) (requestPacketId : UInt64) (packets : List (Packet P)) :
    Option (List ConfigChunk) :=
  packets.mapM fun p =>
    parseChunk (p.data.drop (P.ZT_PACKET_IDX_PAYLOAD + (okPrefix P requestPacketId).length))

/-- Modelled from the spec: the dictionary rebuilt from the chunks of one transfer, taken in order
of their chunkIndex. -/
def reassemble (chunks : List ConfigChunk) : List UInt8 :=
  ((chunks.insertionSort fun a b => a.chunkIndex ≤ b.chunkIndex).map (·.chunk)).flatten

-- Chunk `k` of the transfer of `dict`, as the member reads it.
def sentChunk (P : PacketConstants)
    (sign : List UInt8 → Mathlib.Vector UInt8 P.ZT_C25519_SIGNATURE_LEN)
    (nwid configUpdateId : UInt64) (dict : List UInt8) (k : Nat) : ConfigChunk :=
  let chunk := (dict.drop (k * P.chunkSize)).take P.chunkSize
  let fields := signedFields nwid configUpdateId chunk dict.length (k * P.chunkSize)
  ⟨nwid.toNat, chunk, 0, configUpdateId.toNat, dict.length, k * P.chunkSize, 1, (sign fields).toList,
    fields⟩

@[simp] theorem sentChunk_chunk (P : PacketConstants)
    (sign : List UInt8 → Mathlib.Vector UInt8 P.ZT_C25519_SIGNATURE_LEN)
    (nwid configUpdateId : UInt64) (dict : List UInt8) (k : Nat) :
    (sentChunk P sign nwid configUpdateId dict k).chunk =
      (dict.drop (k * P.chunkSize)).take P.chunkSize := by
  dsimp only [sentChunk]

theorem parseChunk_chunkBytes (P : PacketConstants) (self destination : Address)
    (sign : List UInt8 → Mathlib.Vector UInt8 P.ZT_C25519_SIGNATURE_LEN)
    (nwid requestPacketId configUpdateId : UInt64) {dict : List UInt8}
    (hdict : dict.length < 2 ^ 32) {k : Nat} (hk : k * P.chunkSize < dict.length) :
    parseChunk ((chunkBytes P self destination sign nwid requestPacketId configUpdateId dict k).drop
        (P.ZT_PACKET_IDX_PAYLOAD + (okPrefix P requestPacketId).length)) =
      some (sentChunk P sign nwid configUpdateId dict k) := by
  have := P.mtu_lt_u16
  have : P.chunkSize < P.ZT_UDP_DEFAULT_PAYLOAD_MTU := by
    have := P.payload_room; unfold PacketConstants.chunkSize; omega
  refine parseChunk_chunkPacketBytes P self destination sign requestPacketId ?_ hdict (by omega)
  simp only [List.length_take, List.length_drop]
  omega

-- When every element reads, `mapM` reads the list.
theorem mapM_eq_some_filterMap {α β : Type} {f : α → Option β} :
    ∀ {l : List α}, (∀ a ∈ l, (f a).isSome) → l.mapM f = some (l.filterMap f)
  | [], _ => rfl
  | a :: l, h => by
    obtain ⟨b, hb⟩ := Option.isSome_iff_exists.1 (h a (List.mem_cons_self a l))
    rw [List.mapM_cons, hb, mapM_eq_some_filterMap fun x hx => h x (List.mem_cons_of_mem a hx),
      List.filterMap_cons_some hb]
    rfl

theorem filterMap_of_map_eq_map_some {α β : Type} {f : α → Option β} :
    ∀ {l : List α} {l' : List β}, l.map f = l'.map some → l.filterMap f = l'
  | [], [], _ => rfl
  | a :: l, b :: l', h => by
    simp only [List.map_cons, List.cons.injEq] at h
    rw [List.filterMap_cons_some h.1, filterMap_of_map_eq_map_some h.2]

-- Sorting by a key in which the target strictly increases recovers it from any permutation.
theorem insertionSort_eq_of_perm_of_lt {α : Type} (key : α → Nat) {l l' : List α}
    (h : l.Perm l') (hs : l'.Sorted fun a b => key a < key b) :
    l.insertionSort (fun a b => key a ≤ key b) = l' := by
  haveI : IsTotal α fun a b => key a ≤ key b := ⟨fun a b => le_total _ _⟩
  haveI : IsTrans α fun a b => key a ≤ key b := ⟨fun _ _ _ => le_trans⟩
  haveI : IsAntisymm α fun a b => key a < key b :=
    ⟨fun _ _ h h' => absurd (h.trans h') (lt_irrefl _)⟩
  have hp := (List.perm_insertionSort (fun a b => key a ≤ key b) l).trans h
  have hne : (l.insertionSort fun a b => key a ≤ key b).Pairwise fun a b => key a ≠ key b :=
    (hp.pairwise_iff Ne.symm).2 (hs.imp ne_of_lt)
  exact List.eq_of_perm_of_sorted hp
    (((List.sorted_insertionSort (fun a b => key a ≤ key b) l).and hne).imp fun h =>
      lt_of_le_of_ne h.1 h.2) hs

-- The chunks of a transfer, read in the order sent, go up by `L` bytes.
theorem sorted_sentChunk (P : PacketConstants)
    (sign : List UInt8 → Mathlib.Vector UInt8 P.ZT_C25519_SIGNATURE_LEN)
    (nwid configUpdateId : UInt64) (dict : List UInt8) (count : Nat) :
    ((List.range count).map (sentChunk P sign nwid configUpdateId dict)).Sorted
      fun a b => a.chunkIndex < b.chunkIndex :=
  List.pairwise_map.2 ((List.pairwise_lt_range count).imp fun h =>
    Nat.mul_lt_mul_of_pos_right h P.chunkSize_pos)

-- The dictionary rebuilt from every chunk of its transfer.
theorem flatten_sentChunk (P : PacketConstants)
    (sign : List UInt8 → Mathlib.Vector UInt8 P.ZT_C25519_SIGNATURE_LEN)
    (nwid configUpdateId : UInt64) (dict : List UInt8) :
    (((List.range ((dict.length + P.chunkSize - 1) / P.chunkSize)).map
      (sentChunk P sign nwid configUpdateId dict)).map (·.chunk)).flatten = dict := by
  have := flatten_chunks dict P.chunkSize_pos _ 0 (Nat.zero_add _)
  rw [← List.range_eq_range', Nat.zero_mul, List.drop_zero] at this
  simpa only [List.map_map, Function.comp_def, sentChunk_chunk] using this

-- What a member makes of the packets of one transfer, in whatever order they arrive: each packet
-- reads as its chunk.
theorem receiveChunks_perm (P : PacketConstants) (self destination : Address)
    (sign : List UInt8 → Mathlib.Vector UInt8 P.ZT_C25519_SIGNATURE_LEN)
    (nwid requestPacketId configUpdateId : UInt64) {dict : List UInt8}
    (hdict : dict.length < 2 ^ 32) {packets arrived : List (Packet P)}
    (hdata : packets.map (·.data) =
      (List.range ((dict.length + P.chunkSize - 1) / P.chunkSize)).map
        (chunkBytes P self destination sign nwid requestPacketId configUpdateId dict))
    (harr : arrived.Perm packets) :
    ∃ chunks, receiveChunks P requestPacketId arrived = some chunks ∧
      chunks.Perm ((List.range ((dict.length + P.chunkSize - 1) / P.chunkSize)).map
        (sentChunk P sign nwid configUpdateId dict)) := by
  have hread : packets.map (fun p : Packet P =>
      parseChunk (p.data.drop (P.ZT_PACKET_IDX_PAYLOAD + (okPrefix P requestPacketId).length))) =
      ((List.range ((dict.length + P.chunkSize - 1) / P.chunkSize)).map
        (sentChunk P sign nwid configUpdateId dict)).map some := by
    have h := congrArg (List.map fun bs => parseChunk
      (bs.drop (P.ZT_PACKET_IDX_PAYLOAD + (okPrefix P requestPacketId).length))) hdata
    simp only [List.map_map, Function.comp_def] at h
    rw [h, List.map_map]
    refine List.map_congr_left fun k hk => ?_
    simp only [Function.comp_apply]
    exact parseChunk_chunkBytes P self destination sign nwid requestPacketId configUpdateId hdict
      ((lt_ceilDiv_iff P.chunkSize_pos).1 (List.mem_range.1 hk))
  refine ⟨_, mapM_eq_some_filterMap fun p hp => ?_, ?_⟩
  · obtain ⟨c, -, hc⟩ := List.mem_map.1 (hread ▸ List.mem_map_of_mem _ (harr.subset hp))
    rw [← hc]; rfl
  · exact (harr.filterMap _).trans (List.Perm.of_eq (filterMap_of_map_eq_map_some hread))

-- In whatever order they arrive, the packets `ncSendConfig` sends to a remote member read as the
-- chunks of one signed transfer, and taken in order of `chunkIndex` they make up the dictionary.
theorem ncSendConfig_arrives_whole (P : PacketConstants) (self : Address)
    (sign : List UInt8 → Mathlib.Vector UInt8 P.ZT_C25519_SIGNATURE_LEN) (networkExists : Bool)
    (prngState : UInt64 × UInt64) (nwid requestPacketId : UInt64) (destination : Address)
    (dconf : Buffer P.ZT_NETWORKCONFIG_DICT_CAPACITY) (hremote : destination ≠ self) :
    ∃ packets : List (Packet P),
      (ncSendConfig P self sign networkExists prngState nwid requestPacketId destination
        (some dconf)).actions = packets.map .send ∧
      ∃ configUpdateId, ∀ arrived : List (Packet P), arrived.Perm packets →
        ∃ chunks, receiveChunks P requestPacketId arrived = some chunks ∧
          reassemble chunks = dconf.data ∧
          ∀ c ∈ chunks, c.nwid = nwid.toNat ∧ c.flags = 0 ∧ c.configUpdateId = configUpdateId ∧
            c.totalSize = dconf.data.length ∧ c.signatureType = 1 ∧
            c.signature = (sign c.signed).toList := by
  have hdict : dconf.data.length < 2 ^ 32 :=
    Nat.lt_of_le_of_lt dconf.data_length_le P.dict_lt_u32
  obtain ⟨-, hdata⟩ := sendChunks_from P self destination sign nwid requestPacketId
    (if (prng prngState).1 = 0 then (prng prngState).1 + 1 else (prng prngState).1) hdict _ 0
    (Nat.zero_add _)
  rw [Nat.zero_mul, ← List.range_eq_range'] at hdata
  refine ⟨_, by simp only [ncSendConfig, if_neg hremote]; rfl,
    (if (prng prngState).1 = 0 then (prng prngState).1 + 1 else (prng prngState).1).toNat,
    fun arrived harr => ?_⟩
  obtain ⟨chunks, hrecv, hperm⟩ := receiveChunks_perm P self destination sign nwid
    requestPacketId _ hdict hdata harr
  refine ⟨chunks, hrecv, ?_, fun c hc => ?_⟩
  · rw [reassemble, insertionSort_eq_of_perm_of_lt (·.chunkIndex) hperm
      (sorted_sentChunk P sign nwid _ dconf.data _)]
    exact flatten_sentChunk P sign nwid _ dconf.data
  · obtain ⟨k, -, rfl⟩ := List.mem_map.1 (hperm.subset hc)
    dsimp only [sentChunk]
    exact ⟨rfl, rfl, rfl, rfl, rfl, rfl⟩

-- The three-byte transfer from node 1 to node 2 arrives whole.
theorem ncSendConfig_arrives_whole_three_bytes :
    (2 : Address) ≠ 1 ∧
      ∃ packets : List (Packet samplePacketConstants),
        (ncSendConfig samplePacketConstants 1 (fun _ => Mathlib.Vector.replicate 96 0) true (1, 0) 7
          0 2 (some ⟨[1, 2, 3], by decide⟩)).actions = packets.map .send ∧
        ∃ configUpdateId, ∀ arrived : List (Packet samplePacketConstants), arrived.Perm packets →
          ∃ chunks, receiveChunks samplePacketConstants 0 arrived = some chunks ∧
            reassemble chunks = [1, 2, 3] ∧
            ∀ c ∈ chunks, c.nwid = 7 ∧ c.flags = 0 ∧ c.configUpdateId = configUpdateId ∧
              c.totalSize = 3 ∧ c.signatureType = 1 ∧
              c.signature = (Mathlib.Vector.replicate 96 0).toList :=
  ⟨by decide, ncSendConfig_arrives_whole samplePacketConstants 1 _ true (1, 0) 7 0 2
    ⟨[1, 2, 3], by decide⟩ (by decide)⟩

end ZeroTier
