import ZeroTier.Wire.Buffer

namespace ZeroTier

inductive ResultCode where
  | ok
  | fatalErrorOutOfMemory
  | fatalErrorDataStoreFailed
  | fatalErrorInternal
  | errorNetworkNotFound
  | errorUnsupportedOperation
  | errorBadParameter
  deriving DecidableEq, Repr

inductive Event where
  | up
  | offline
  | online
  | down
  | fatalErrorIdentityCollision
  | trace
  | userMessage
  deriving DecidableEq, Repr

inductive StateObjectType where
  | identityPublic
  | identitySecret
  | planet
  | moon
  | peer
  | networkConfig
  deriving DecidableEq, Repr

-- The host's state objects, keyed by type and a two-word id.
def StateStore := StateObjectType × UInt64 × UInt64 → Option (List UInt8)

namespace StateStore

def empty : StateStore := fun _ => none

-- `stateObjectPut`
def put (σ : StateStore) (type : StateObjectType) (id0 id1 : UInt64) (data : List UInt8) :
    StateStore :=
  fun k => if k = (type, id0, id1) then some data else σ k

-- `stateObjectGet` into a buffer of `bufSize` bytes: the bytes read, `none` for a missing object.
def get (σ : StateStore) (type : StateObjectType) (id0 id1 : UInt64) (bufSize : Nat) :
    Option (List UInt8) :=
  (σ (type, id0, id1)).map (·.take bufSize)

@[simp] theorem put_same (σ : StateStore) (type : StateObjectType) (id0 id1 : UInt64)
    (data : List UInt8) : σ.put type id0 id1 data (type, id0, id1) = some data := by
  simp [put]

theorem put_other (σ : StateStore) {type : StateObjectType} {id0 id1 : UInt64}
    {data : List UInt8} {k : StateObjectType × UInt64 × UInt64} (h : k ≠ (type, id0, id1)) :
    σ.put type id0 id1 data k = σ k := by
  simp [put, h]

end StateStore

-- A C string: the bytes up to the first NUL.
def cString (bytes : List UInt8) : List UInt8 := bytes.takeWhile (· ≠ 0)

/-- Modelled from the spec: Identity.hpp is not among the sources. An identity has a text form
without and with its secret, a parser for that text, and a 40-bit address derived from it;
`toString` fills a buffer of `ZT_IDENTITY_STRING_BUFFER_LENGTH` bytes. -/
structure IdentityLib where
  Identity : Type
  toString : Identity → Bool → List UInt8
  fromString : List UInt8 → Option Identity
  address : Identity → Address
  ZT_IDENTITY_STRING_BUFFER_LENGTH : Nat

-- What `RuntimeEnvironment` holds of the identity.
structure IdentityState (L : IdentityLib) where
  identity : L.Identity
  publicIdentityStr : List UInt8
  secretIdentityStr : List UInt8

namespace IdentityState

variable {L : IdentityLib}

def ofIdentity (id : L.Identity) : IdentityState L :=
  ⟨id, L.toString id false, L.toString id true⟩

-- The `publicIdentityStr` buffer: the text, then the zeros it was cleared to.
def publicBuffer (s : IdentityState L) : List UInt8 :=
  s.publicIdentityStr ++ List.replicate (L.ZT_IDENTITY_STRING_BUFFER_LENGTH - s.publicIdentityStr.length) 0

end IdentityState

-- The identity part of `Node::Node`: read the secret identity, or generate one (`generated` is
-- what `Identity::generate` returns) and persist both forms; a loaded identity has its public
-- object rewritten when the stored bytes differ from the text.
def loadIdentity (L : IdentityLib) (generated : L.Identity) (σ : StateStore) :
    IdentityState L × StateStore :=
  let loaded : Option L.Identity :=
    match σ.get .identitySecret 0 0 2047 with
    | some data => if 0 < data.length then L.fromString (cString data) else none
    | none => none
  match loaded with
  | none =>
      let s := IdentityState.ofIdentity generated
      let id0 := (L.address generated).toInt
      let σ := σ.put .identitySecret id0 0 (cString s.secretIdentityStr)
      (s, σ.put .identityPublic id0 0 (cString s.publicIdentityStr))
  | some id =>
      let s := IdentityState.ofIdentity id
      let id0 := (L.address id).toInt
      match σ.get .identityPublic id0 0 2047 with
      | some data =>
          if 0 < data.length ∧ data.length < L.ZT_IDENTITY_STRING_BUFFER_LENGTH ∧ data.length < 2048 ∧
              data ≠ s.publicBuffer.take data.length then
            (s, σ.put .identityPublic id0 0 (cString s.publicIdentityStr))
          else (s, σ)
      | none => (s, σ)

-- The node's own state, as `processBackgroundTasks` and the membership calls read it.
structure Node where
  now : UInt64
  lastPingCheck : UInt64
  lastHousekeepingRun : UInt64
  online : Bool
  prngState : UInt64 × UInt64

-- The node as `Node::Node`'s initializers leave it: offline, with no ping check or housekeeping
-- run yet.
def Node.initial (now : UInt64) (prngSeed : UInt64 × UInt64) : Node := ⟨now, 0, 0, false, prngSeed⟩

-- `Node::Node`: the identity is loaded or generated, the node starts offline, and `EVENT_UP` is
-- posted once every subcomponent is built (`subcomponentsOk`). The identity objects are written
-- before the subcomponents, so the store keeps them when the constructor throws.
def construct (L : IdentityLib) (generated : L.Identity) (σ : StateStore) (now : UInt64)
    (prngSeed : UInt64 × UInt64) (subcomponentsOk : Bool) :
    StateStore × Option (IdentityState L × Node × List Event) :=
  let (s, σ) := loadIdentity L generated σ
  (σ, if subcomponentsOk then some (s, Node.initial now prngSeed, [.up]) else none)

end ZeroTier
