import ZeroTier.Node.Online

namespace ZeroTier

-- The state update of `Node::prng` (xorshift128+). Each xorshift is undone by xoring back its
-- shifts, so the update has an inverse.

-- `x` from `x ^ (x >> 17)`.
def unxorShiftRight17 (y : UInt64) : UInt64 := y ^^^ (y >>> 17) ^^^ (y >>> 34) ^^^ (y >>> 51)

-- `x` from `x ^ (x << 23)`.
def unxorShiftLeft23 (y : UInt64) : UInt64 := y ^^^ (y <<< 23) ^^^ (y <<< 46)

-- The state `prng` was called on, from the state it left.
def prngInverse (s : UInt64 × UInt64) : UInt64 × UInt64 :=
  (unxorShiftLeft23 (unxorShiftRight17 (s.2 ^^^ (s.1 ^^^ (s.1 >>> 26)))), s.1)

theorem unxorShiftRight17_xorShiftRight (x : UInt64) :
    unxorShiftRight17 (x ^^^ (x >>> 17)) = x := by
  apply UInt64.eq_of_toBitVec_eq
  show let y := x.toBitVec ^^^ (x.toBitVec >>> 17)
    y ^^^ (y >>> 17) ^^^ (y >>> 34) ^^^ (y >>> 51) = x.toBitVec
  ext j
  simp only [BitVec.getLsbD_xor, BitVec.getLsbD_ushiftRight, ← Nat.add_assoc, Nat.reduceAdd]
  simp (disch := omega) only [BitVec.getLsbD_ge x.toBitVec (68 + j)]
  simp only [Bool.xor_assoc, Bool.xor_self, Bool.xor_false, Bool.xor_left_comm]

theorem xorShiftRight_unxorShiftRight17 (y : UInt64) :
    unxorShiftRight17 y ^^^ (unxorShiftRight17 y >>> 17) = y := by
  apply UInt64.eq_of_toBitVec_eq
  show let x := y.toBitVec ^^^ (y.toBitVec >>> 17) ^^^ (y.toBitVec >>> 34) ^^^ (y.toBitVec >>> 51)
    x ^^^ (x >>> 17) = y.toBitVec
  ext j
  simp only [BitVec.getLsbD_xor, BitVec.getLsbD_ushiftRight, ← Nat.add_assoc, Nat.reduceAdd]
  simp (disch := omega) only [BitVec.getLsbD_ge y.toBitVec (68 + j)]
  simp only [Bool.xor_assoc, Bool.xor_self, Bool.xor_false, Bool.xor_left_comm]

theorem unxorShiftLeft23_xorShiftLeft (x : UInt64) :
    unxorShiftLeft23 (x ^^^ (x <<< 23)) = x := by
  apply UInt64.eq_of_toBitVec_eq
  show let y := x.toBitVec ^^^ (x.toBitVec <<< 23)
    y ^^^ (y <<< 23) ^^^ (y <<< 46) = x.toBitVec
  ext j
  have hj := j.isLt
  simp only [BitVec.getLsbD_xor, BitVec.getLsbD_shiftLeft, Nat.sub_sub, Nat.reduceAdd]
  by_cases h₁ : (j : Nat) < 23
  · simp [h₁, hj, show (j : Nat) < 46 by omega]
  · by_cases h₂ : (j : Nat) < 46
    · simp [h₁, h₂, hj, show (j : Nat) - 23 < 23 by omega]
    · simp [h₁, h₂, hj, show ¬(j : Nat) - 23 < 23 by omega, show (j : Nat) - 46 < 23 by omega,
        show (j : Nat) - 23 < 64 by omega]

theorem xorShiftLeft_unxorShiftLeft23 (y : UInt64) :
    unxorShiftLeft23 y ^^^ (unxorShiftLeft23 y <<< 23) = y := by
  apply UInt64.eq_of_toBitVec_eq
  show let x := y.toBitVec ^^^ (y.toBitVec <<< 23) ^^^ (y.toBitVec <<< 46)
    x ^^^ (x <<< 23) = y.toBitVec
  ext j
  have hj := j.isLt
  simp only [BitVec.getLsbD_xor, BitVec.getLsbD_shiftLeft, Nat.sub_sub, Nat.reduceAdd]
  by_cases h₁ : (j : Nat) < 23
  · simp [h₁, hj, show (j : Nat) < 46 by omega]
  · by_cases h₂ : (j : Nat) < 46
    · simp [h₁, h₂, hj, show (j : Nat) - 23 < 23 by omega, show (j : Nat) - 23 < 46 by omega]
    · simp [h₁, h₂, hj, show ¬(j : Nat) - 23 < 23 by omega, show (j : Nat) - 46 < 23 by omega,
        show (j : Nat) - 23 < 46 by omega, show (j : Nat) - 23 < 64 by omega]

theorem xor_xor_cancel (u v : UInt64) : u ^^^ v ^^^ v = u := by
  apply UInt64.eq_of_toBitVec_eq
  show u.toBitVec ^^^ v.toBitVec ^^^ v.toBitVec = u.toBitVec
  rw [BitVec.xor_assoc, BitVec.xor_self, BitVec.xor_zero]

-- `z` splits into the xorshift of `x` and the xorshift of the old second word.
theorem prng_unmix (x s : UInt64) :
    x ^^^ s ^^^ (x >>> 17) ^^^ (s >>> 26) = (x ^^^ (x >>> 17)) ^^^ (s ^^^ (s >>> 26)) := by
  apply UInt64.eq_of_toBitVec_eq
  show x.toBitVec ^^^ s.toBitVec ^^^ (x.toBitVec >>> 17) ^^^ (s.toBitVec >>> 26) =
    (x.toBitVec ^^^ (x.toBitVec >>> 17)) ^^^ (s.toBitVec ^^^ (s.toBitVec >>> 26))
  ext j
  simp only [BitVec.getLsbD_xor, Bool.xor_assoc, Bool.xor_left_comm]

theorem prngInverse_prng (s : UInt64 × UInt64) : prngInverse (prng s).2 = s := by
  simp only [prng, prngInverse, prng_unmix, xor_xor_cancel, unxorShiftRight17_xorShiftRight,
    unxorShiftLeft23_xorShiftLeft]

theorem prng_prngInverse (s : UInt64 × UInt64) : (prng (prngInverse s)).2 = s := by
  simp only [prng, prngInverse, xorShiftLeft_unxorShiftLeft23, prng_unmix,
    xorShiftRight_unxorShiftRight17, xor_xor_cancel]

-- The update as a map on states.

-- What one `prng()` call does to `_prngState`.
def prngNext (s : UInt64 × UInt64) : UInt64 × UInt64 := (prng s).2

theorem prngNext_bijective : Function.Bijective prngNext :=
  ⟨Function.LeftInverse.injective (g := prngInverse) prngInverse_prng,
    Function.RightInverse.surjective (g := prngInverse) prng_prngInverse⟩

theorem prngNext_zero : prngNext (0, 0) = (0, 0) := rfl

-- Iterating an injective map with a fixed point never reaches the fixed point from elsewhere.
theorem iterate_prngNext_ne_zero {s : UInt64 × UInt64} (hs : s ≠ (0, 0)) (k : Nat) :
    prngNext^[k] s ≠ (0, 0) := by
  intro h
  rw [← Function.iterate_fixed prngNext_zero k] at h
  exact hs ((prngNext_bijective.1.iterate k) h)

-- Every function that touches `_prngState` only calls `prng()` on it some number of times.

theorem pingFamilyUpTo_prngState (limit : Option Nat) (p : Peer) (endpoints : List InetAddress)
    (family : AddressFamily) (pinged : Bool) (st : PingState) :
    ∃ k, (pingFamilyUpTo limit p endpoints family pinged st).1.prngState = prngNext^[k] st.prngState := by
  rcases pingFamilyUpTo_fst_cases limit p endpoints family pinged st with h | h | h <;> rw [h]
  · exact ⟨0, rfl⟩
  · exact ⟨0, rfl⟩
  · exact ⟨1, rfl⟩

@[simp] theorem prngState_call (limit : Option Nat) (st : PingState) (a : Action) :
    (st.call limit a).prngState = st.prngState := by
  unfold PingState.call; split <;> rfl

@[simp] theorem prngState_finishUpstream (limit : Option Nat) (best : Option (Int × InetAddress))
    (p : Peer) (contacted : Bool) (st : PingState) :
    (finishUpstream limit best p contacted st).prngState = st.prngState := by
  unfold finishUpstream; split <;> simp

theorem pingPeerUpTo_prngState (limit : Option Nat) (best : Option (Int × InetAddress))
    (st : PingState) (p : Peer) :
    ∃ k, (pingPeerUpTo limit best st p).prngState = prngNext^[k] st.prngState := by
  unfold pingPeerUpTo
  split
  · next endpoints _ =>
    obtain ⟨k₄, h₄⟩ := pingFamilyUpTo_prngState limit p endpoints .inet p.pingedInet st
    obtain ⟨k₆, h₆⟩ := pingFamilyUpTo_prngState limit p endpoints .inet6 p.pingedInet6
      (pingFamilyUpTo limit p endpoints .inet p.pingedInet st).1
    exact ⟨k₆ + k₄, by simp only [prngState_finishUpstream, Function.iterate_add_apply, ← h₄, ← h₆]⟩
  · exact ⟨0, by split <;> simp⟩

theorem pingPeersUpTo_prngState (limit : Option Nat) (env : TickEnv) (st : PingState) :
    ∃ k, (pingPeersUpTo limit env st).prngState = prngNext^[k] st.prngState := by
  unfold pingPeersUpTo
  induction env.peers generalizing st with
  | nil => exact ⟨0, rfl⟩
  | cons p ps ih =>
    obtain ⟨k₁, h₁⟩ := pingPeerUpTo_prngState limit env.bestUpstreamPath st p
    obtain ⟨k₂, h₂⟩ := ih (pingPeerUpTo limit env.bestUpstreamPath st p)
    exact ⟨k₂ + k₁, by rw [List.foldl_cons, h₂, h₁, Function.iterate_add_apply]⟩

-- The node a ping check leaves, whether it completes or throws, has called `prng()` some number of
-- times.
theorem pingCheck_prngState {K : Constants} {env : TickEnv} {now : UInt64} {n n' : Node}
    (h : (pingCheck K env now n).2 = .ok n' ∨ (pingCheck K env now n).2 = .error n') :
    ∃ k, n'.prngState = prngNext^[k] n.prngState := by
  unfold pingCheck at h
  dsimp only at h
  split at h <;> rcases h with h | h <;> cases h
  · exact pingPeersUpTo_prngState _ env _
  · exact pingPeersUpTo_prngState none env _

theorem housekeepingAndTimers_prngState (K : Constants) (env : TickEnv) (now t : UInt64)
    (actions : List Action) (n : Node) :
    (housekeepingAndTimers K env now t actions n).node.prngState = n.prngState := by
  unfold housekeepingAndTimers
  dsimp only
  split_ifs <;> rfl

theorem processBackgroundTasks_prngState (K : Constants) (env : TickEnv) (now : UInt64)
    (n : Node) : ∃ k, (processBackgroundTasks K env now n).node.prngState = prngNext^[k] n.prngState := by
  unfold processBackgroundTasks
  dsimp only
  split
  · split
    · next h =>
      exact @pingCheck_prngState K env now { n with now := now, lastPingCheck := now } _
        (.inr (congrArg Prod.snd h))
    · next h =>
      rw [housekeepingAndTimers_prngState]
      exact @pingCheck_prngState K env now { n with now := now, lastPingCheck := now } _
        (.inl (congrArg Prod.snd h))
  · exact ⟨0, housekeepingAndTimers_prngState ..⟩

theorem runBackgroundTasks_prngState (K : Constants) (n : Node) (ticks : List (TickEnv × UInt64)) :
    ∃ k, (runBackgroundTasks K n ticks).1.prngState = prngNext^[k] n.prngState := by
  induction ticks generalizing n with
  | nil => exact ⟨0, rfl⟩
  | cons tick ticks ih =>
    obtain ⟨k₁, h₁⟩ := processBackgroundTasks_prngState K tick.1 tick.2 n
    obtain ⟨k₂, h₂⟩ := ih (processBackgroundTasks K tick.1 tick.2 n).node
    exact ⟨k₂ + k₁, by rw [runBackgroundTasks, h₂, h₁, Function.iterate_add_apply]⟩

theorem prng_update_bijective :
    Function.Bijective prngNext ∧ prngNext (0, 0) = (0, 0) ∧
      (∀ s, s ≠ (0, 0) → ∀ k, prngNext^[k] s ≠ (0, 0)) ∧
      ∀ K n ticks, n.prngState ≠ (0, 0) → (runBackgroundTasks K n ticks).1.prngState ≠ (0, 0) := by
  refine ⟨prngNext_bijective, prngNext_zero, fun s hs k => iterate_prngNext_ne_zero hs k,
    fun K n ticks hn => ?_⟩
  obtain ⟨k, hk⟩ := runBackgroundTasks_prngState K n ticks
  exact hk ▸ iterate_prngNext_ne_zero hn k

end ZeroTier
