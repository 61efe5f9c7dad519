import ZeroTier.Node.Node

namespace ZeroTier

variable {L : IdentityLib}

-- Without a readable secret under `{0,0}` the constructor generates an identity and writes both
-- forms under `{address,0}`.
theorem loadIdentity_of_get_none (g : L.Identity) {σ : StateStore}
    (h : σ.get .identitySecret 0 0 2047 = none) :
    loadIdentity L g σ = (IdentityState.ofIdentity g,
      (σ.put .identitySecret (L.address g).toInt 0 (cString (L.toString g true))).put
        .identityPublic (L.address g).toInt 0 (cString (L.toString g false))) := by
  simp [loadIdentity, h, IdentityState.ofIdentity]

-- A secret that parses is the identity loaded; its public object is rewritten only when one is
-- stored, fits the buffer and differs from the text in its first bytes.
theorem loadIdentity_of_fromString {σ : StateStore} {data : List UInt8} {id : L.Identity}
    (g : L.Identity) (h : σ.get .identitySecret 0 0 2047 = some data) (hlen : 0 < data.length)
    (hparse : L.fromString (cString data) = some id) :
    (loadIdentity L g σ).1 = IdentityState.ofIdentity id ∧
      (σ.get .identityPublic (L.address id).toInt 0 2047 = none → (loadIdentity L g σ).2 = σ) := by
  constructor
  · simp only [loadIdentity, h, hlen, if_true, hparse]
    split <;> (try split) <;> rfl
  · intro hpub
    simp [loadIdentity, h, hlen, hparse, hpub]

-- From an empty store the secret identity is written under `{address,0}` and not under the
-- `{0,0}` the constructor reads it from; a second construction on that store then generates a
-- new identity instead of loading the first.
theorem loadIdentity_empty_secret_key (g : L.Identity) :
    (loadIdentity L g StateStore.empty).1.identity = g ∧
      (loadIdentity L g StateStore.empty).2 (.identitySecret, (L.address g).toInt, 0) =
        some (cString (L.toString g true)) ∧
      (loadIdentity L g StateStore.empty).2 (.identitySecret, 0, 0) =
        (if (L.address g).toInt = 0 then some (cString (L.toString g true)) else none) ∧
      ((L.address g).toInt ≠ 0 → ∀ g' : L.Identity,
        (loadIdentity L g' (loadIdentity L g StateStore.empty).2).1.identity = g') := by
  have hempty : StateStore.empty.get .identitySecret 0 0 2047 = none := rfl
  rw [loadIdentity_of_get_none g hempty]
  refine ⟨rfl, ?_, ?_, fun hne g' => ?_⟩
  · simp [StateStore.put]
  · by_cases h0 : (L.address g).toInt = 0
    · simp [StateStore.put, h0]
    · simp [StateStore.put, h0, Ne.symm h0, StateStore.empty, Prod.ext_iff]
  · have hget : ((StateStore.empty.put .identitySecret (L.address g).toInt 0
        (cString (L.toString g true))).put .identityPublic (L.address g).toInt 0
        (cString (L.toString g false))).get .identitySecret 0 0 2047 = none := by
      simp [StateStore.get, StateStore.put, Ne.symm hne, StateStore.empty, Prod.ext_iff]
    rw [loadIdentity_of_get_none g' hget]
    rfl

end ZeroTier
