import ZeroTier.Node.Prng

namespace ZeroTier

-- The endpoint loop visits `ptr, ptr + 1, ...` modulo `|E|`, but `ptr` is an `unsigned long`:
-- once it wraps, some index is never visited unless `|E|` divides `2^64`.

-- Whatever the loop picks is an endpoint of the list, of the family asked for.
theorem selectEndpoint_mem {E : List InetAddress} {F : AddressFamily} {k : Nat} {ptr : UInt64}
    {a : InetAddress} (h : selectEndpoint E F k ptr = some a) : a ∈ E ∧ a.family = F := by
  induction k generalizing ptr with
  | zero => cases h
  | succ k ih =>
    unfold selectEndpoint at h
    split at h
    · next addr hget =>
      split_ifs at h with hf
      · cases h
        exact ⟨List.getElem?_mem hget, hf⟩
      · exact ih h
    · cases h

-- Without a wrap, the loop reaches every index `ptr + i` with `i < k` unless it stops earlier.
theorem selectEndpoint_isSome_of_index {E : List InetAddress} {F : AddressFamily} :
    ∀ (k : Nat) (ptr : UInt64) (i : Nat), i < k → ptr.toNat + k ≤ 2 ^ 64 →
      (∃ a, E[(ptr.toNat + i) % E.length]? = some a ∧ a.family = F) →
      (selectEndpoint E F k ptr).isSome
  | 0, _, _, hi, _, _ => absurd hi (Nat.not_lt_zero _)
  | k + 1, ptr, i, hi, hwrap, ⟨a, ha, hfa⟩ => by
    unfold selectEndpoint
    split
    · next addr hget =>
      split_ifs with hf
      · rfl
      · -- the first index holds another family, so the endpoint sits further on
        obtain ⟨i, rfl⟩ : ∃ i', i = i' + 1 := by
          refine Nat.exists_eq_succ_of_ne_zero fun hi0 => hf ?_
          subst hi0
          rw [Nat.add_zero, hget] at ha
          cases ha
          exact hfa
        have hnext : (ptr + 1).toNat = ptr.toNat + 1 := by
          rw [uint64_toNat_add]
          exact Nat.mod_eq_of_lt (by show ptr.toNat + 1 < 2 ^ 64; omega)
        refine selectEndpoint_isSome_of_index k (ptr + 1) i (by omega) (by omega) ⟨a, ?_, hfa⟩
        rwa [hnext, Nat.add_assoc, Nat.add_comm 1 i]
    · next hnone =>
      -- an empty list: no index holds an endpoint
      rw [List.getElem?_eq_none_iff] at hnone
      have hE : E.length = 0 := by
        by_contra hE
        exact absurd (Nat.mod_lt _ (Nat.pos_of_ne_zero hE)) (Nat.not_lt.2 hnone)
      rw [List.length_eq_zero.1 hE] at ha
      cases ha

-- Some offset below `|E|` brings `ptr` to any index `j` modulo `|E|`.
theorem exists_offset_mod (p j L : Nat) (hj : j < L) : ∃ i < L, (p + i) % L = j := by
  have hp := Nat.mod_add_div p L
  have hr := Nat.mod_lt p (by omega : 0 < L)
  by_cases hrj : p % L ≤ j
  · refine ⟨j - p % L, by omega, ?_⟩
    rw [show p + (j - p % L) = j + L * (p / L) by omega, Nat.add_mul_mod_self_left,
      Nat.mod_eq_of_lt hj]
  · refine ⟨L - p % L + j, by omega, ?_⟩
    rw [show p + (L - p % L + j) = j + L * (p / L + 1) by rw [Nat.mul_succ]; omega,
      Nat.add_mul_mod_self_left, Nat.mod_eq_of_lt hj]

-- Without a wrap of the pointer, the loop finds an endpoint of the family whenever there is one.
theorem selectEndpoint_found {E : List InetAddress} {F : AddressFamily} {ptr : UInt64}
    (hwrap : ptr.toNat + E.length ≤ 2 ^ 64) (hE : ∃ a ∈ E, a.family = F) :
    ∃ a, selectEndpoint E F E.length ptr = some a := by
  obtain ⟨a, haE, hfa⟩ := hE
  obtain ⟨j, hj⟩ := List.getElem?_of_mem haE
  have hjlt : j < E.length := (List.getElem?_eq_some_iff.1 hj).1
  obtain ⟨i, hi, hij⟩ := exists_offset_mod ptr.toNat j E.length hjlt
  exact Option.isSome_iff_exists.1
    (selectEndpoint_isSome_of_index E.length ptr i hi hwrap ⟨a, hij ▸ hj, hfa⟩)

-- When `doPingAndKeepalive` reports no activity and the pointer does not wrap inside the loop,
-- one HELLO goes out for the family if the list has an endpoint of it, to such an endpoint, and
-- none otherwise.
theorem pingFamily_hello_of_no_wrap (p : Peer) (E : List InetAddress) (F : AddressFamily)
    (st : PingState) (hwrap : (prng st.prngState).1.toNat + E.length ≤ 2 ^ 64) :
    ∃ hello : Option InetAddress,
      (pingFamily p E F false st).1.actions = st.actions ++
        .doPingAndKeepalive p.address (some F) :: (hello.map (Action.sendHello p.address (-1))).toList ∧
      (∀ a, hello = some a → a ∈ E ∧ a.family = F) ∧ (hello.isSome ↔ ∃ a ∈ E, a.family = F) := by
  refine ⟨_, congrArg PingState.actions (pingFamily_fst p E F false st), fun a ha =>
    selectEndpoint_mem ha, ?_⟩
  constructor
  · intro h
    obtain ⟨a, ha⟩ := Option.isSome_iff_exists.1 h
    exact ⟨a, selectEndpoint_mem ha⟩
  · intro hE
    obtain ⟨a, ha⟩ := selectEndpoint_found hwrap hE
    simp [ha]

-- With three endpoints, the pointer `2^64 - 1` visits indices 0, 0 and 1 and never index 2, where
-- the only IPv4 endpoint sits: no HELLO goes out for IPv4. The generator state is the one whose
-- next output is `2^64 - 1`.
theorem pingFamily_wrapped_pointer_misses_endpoint :
    let v4 : InetAddress := ⟨.inet, [10, 0, 0, 1], 9993⟩
    let v6 : InetAddress := ⟨.inet6, List.replicate 15 0 ++ [1], 9993⟩
    let st : PingState := ⟨prngInverse (0, 0xFFFFFFFFFFFFFFFF), 0, [], []⟩
    let p : Peer := ⟨1, 0, false, false, true⟩
    (prng st.prngState).1 = 0xFFFFFFFFFFFFFFFF ∧ v4 ∈ [v6, v6, v4] ∧
      pingFamily p [v6, v6, v4] .inet false st =
        (⟨(prng st.prngState).2, 0, [], [.doPingAndKeepalive p.address (some .inet)]⟩, false) :=
  ⟨by decide, by decide, rfl⟩

-- The online flag: `lastReceiveFromUpstream` is the max of `lastReceive()` over the peers visited
-- while their address is still among the upstreams to contact.

-- The peers `_PingPeersThatNeedPing` treats as upstreams, in the order `eachPeer` visits them.
def upstreamVisited : List (Address × List InetAddress) → List Peer → List Peer
  | _, [] => []
  | ups, p :: ps =>
      match ups.lookup p.address with
      | some _ => p :: upstreamVisited (ups.filter (·.1 ≠ p.address)) ps
      | none => upstreamVisited ups ps

-- `std::max(p->lastReceive(), m)` over a list of peers.
def maxLastReceive (m : UInt64) (ps : List Peer) : UInt64 :=
  ps.foldl (fun m p => max p.lastReceive m) m

-- `pfunc.lastReceiveFromUpstream` after the walk over the peers.
def upstreamLastReceive (env : TickEnv) : UInt64 :=
  maxLastReceive 0 (upstreamVisited env.upstreamsToContact env.peers)

theorem pingPeer_of_upstream {best : Option (Int × InetAddress)} {st : PingState} {p : Peer}
    {E : List InetAddress} (h : st.upstreamsToContact.lookup p.address = some E) :
    (pingPeer best st p).upstreamsToContact = st.upstreamsToContact.filter (·.1 ≠ p.address) ∧
      (pingPeer best st p).lastReceiveFromUpstream = max p.lastReceive st.lastReceiveFromUpstream := by
  rw [pingPeer_of_lookup_some h]
  simp only [pingFamily_fst, and_self]

theorem pingPeer_of_not_upstream {best : Option (Int × InetAddress)} {st : PingState} {p : Peer}
    (h : st.upstreamsToContact.lookup p.address = none) :
    (pingPeer best st p).upstreamsToContact = st.upstreamsToContact ∧
      (pingPeer best st p).lastReceiveFromUpstream = st.lastReceiveFromUpstream := by
  rw [pingPeer_of_lookup_none h]
  exact ⟨rfl, rfl⟩

-- The walk over the peers keeps the running `max` over the peers it visits as upstreams.
theorem foldl_pingPeer_lastReceiveFromUpstream (best : Option (Int × InetAddress))
    (ps : List Peer) (st : PingState) :
    (ps.foldl (pingPeer best) st).lastReceiveFromUpstream =
      maxLastReceive st.lastReceiveFromUpstream (upstreamVisited st.upstreamsToContact ps) := by
  induction ps generalizing st with
  | nil => rfl
  | cons p ps ih =>
    rw [List.foldl_cons, ih]
    cases h : st.upstreamsToContact.lookup p.address with
    | none =>
      obtain ⟨hu, hl⟩ := @pingPeer_of_not_upstream best _ _ h
      rw [hu, hl, upstreamVisited, h]
    | some E =>
      obtain ⟨hu, hl⟩ := @pingPeer_of_upstream best _ _ _ h
      rw [hu, hl, upstreamVisited, h]
      rfl

-- The ping check sets `_online` from the `max` over the upstreams it visits, and keeps
-- `_lastPingCheck`.
theorem pingCheck_node {K : Constants} {env : TickEnv} {now : UInt64} {n n' : Node}
    (h : (pingCheck K env now n).2 = .ok n') :
    n'.online = (decide (now - upstreamLastReceive env < K.ZT_PEER_ACTIVITY_TIMEOUT) || env.amRoot) ∧
      n'.lastPingCheck = n.lastPingCheck := by
  unfold pingCheck at h
  dsimp only at h
  split at h
  · cases h
  · cases h
    refine ⟨?_, rfl⟩
    show (decide (now - (env.peers.foldl (pingPeer env.bestUpstreamPath) _).lastReceiveFromUpstream <
      K.ZT_PEER_ACTIVITY_TIMEOUT) || env.amRoot) = _
    rw [foldl_pingPeer_lastReceiveFromUpstream]
    rfl

-- `max (min t T) G` is at least `G` and at most `max t G`, so at most `max I G` for `t ≤ I`.
theorem deadline_bounds {t I : UInt64} (T G : UInt64) (ht : t ≤ I) :
    G ≤ max (min t T) G ∧ max (min t T) G ≤ max I G ∧ max (min t T) G ≤ max t G := by
  simp only [uint64_le_iff, uint64_toNat_max, uint64_toNat_min] at ht ⊢
  omega

theorem housekeepingAndTimers_ok {K : Constants} {env : TickEnv} {now t : UInt64}
    {actions : List Action} {n : Node} (h : (housekeepingAndTimers K env now t actions n).result = .ok) :
    (housekeepingAndTimers K env now t actions n).nextBackgroundTaskDeadline =
      some (now + max (min t env.timerTasks) K.ZT_CORE_TIMER_TASK_GRANULARITY) := by
  unfold housekeepingAndTimers at h ⊢
  dsimp only at h ⊢
  split_ifs at h ⊢ <;> rfl

theorem housekeepingAndTimers_lastPingCheck (K : Constants) (env : TickEnv) (now t : UInt64)
    (actions : List Action) (n : Node) :
    (housekeepingAndTimers K env now t actions n).node.lastPingCheck = n.lastPingCheck := by
  unfold housekeepingAndTimers
  dsimp only
  split_ifs <;> rfl

theorem processBackgroundTasks_deadline_bounds (K : Constants) (env : TickEnv) (now : UInt64)
    (n : Node) (h : (processBackgroundTasks K env now n).result = .ok) :
    ∃ d, (processBackgroundTasks K env now n).nextBackgroundTaskDeadline = some (now + d) ∧
      K.ZT_CORE_TIMER_TASK_GRANULARITY ≤ d ∧
      d ≤ max K.ZT_PING_CHECK_INVERVAL K.ZT_CORE_TIMER_TASK_GRANULARITY ∧
      d ≤ max (K.ZT_PING_CHECK_INVERVAL - (now - (processBackgroundTasks K env now n).node.lastPingCheck))
        K.ZT_CORE_TIMER_TASK_GRANULARITY := by
  revert h
  unfold processBackgroundTasks
  dsimp only
  split
  · split
    · intro h
      cases h
    · next n' hpc =>
      intro h
      -- the ping check ran: the full interval, and `_lastPingCheck` is now `now`
      have hzero : K.ZT_PING_CHECK_INVERVAL - (now - now) = K.ZT_PING_CHECK_INVERVAL :=
        UInt64.eq_of_toBitVec_eq (by
          show K.ZT_PING_CHECK_INVERVAL.toBitVec - (now.toBitVec - now.toBitVec) = _
          simp)
      rw [housekeepingAndTimers_lastPingCheck, (pingCheck_node (congrArg Prod.snd hpc)).2, hzero]
      exact ⟨_, housekeepingAndTimers_ok h, deadline_bounds _ _ (UInt64.le_refl _)⟩
  · next hskip =>
    intro h
    -- no ping check: what is left of the interval, which the subtraction does not wrap
    rw [ge_iff_le, UInt64.not_le, uint64_lt_iff] at hskip
    have hleft : K.ZT_PING_CHECK_INVERVAL - (now - n.lastPingCheck) ≤ K.ZT_PING_CHECK_INVERVAL := by
      rw [uint64_le_iff, UInt64.toNat_sub_of_le _ _ ((uint64_le_iff _ _).2 (Nat.le_of_lt hskip))]
      omega
    rw [housekeepingAndTimers_lastPingCheck]
    exact ⟨_, housekeepingAndTimers_ok h, deadline_bounds _ _ hleft⟩

-- A tick two seconds after the last ping check, with the timer tasks due in three: the host is
-- told to come back when the ping check falls due, three seconds later.
theorem processBackgroundTasks_deadline_bounds_tick :
    let K : Constants := ⟨5000, 60000, 500000, 60000, 500⟩
    let env : TickEnv := ⟨[], [], [], none, false, 3000, false, 0, false, false⟩
    let r := processBackgroundTasks K env 102000 ⟨100000, 100000, 100000, true, (1, 0)⟩
    ∃ d, r.nextBackgroundTaskDeadline = some (102000 + d) ∧ 500 ≤ d ∧ d ≤ max 5000 500 ∧
      d ≤ max (5000 - (102000 - r.node.lastPingCheck)) 500 :=
  processBackgroundTasks_deadline_bounds _ _ 102000 _ rfl

-- The upstreams contacted: each one visited leaves `upstreamsToContact`, and the rest get a WHOIS.

section Upstreams

variable {best : Option (Int × InetAddress)}

-- What one visit does to the log: it only appends, never a WHOIS, and an upstream visited gets a
-- keepalive on both families.
theorem pingPeer_actions (st : PingState) (p : Peer) :
    st.actions <+: (pingPeer best st p).actions ∧
      (∀ a, Action.requestWhois a ∈ (pingPeer best st p).actions → Action.requestWhois a ∈ st.actions) ∧
      ((st.upstreamsToContact.lookup p.address).isSome →
        Action.doPingAndKeepalive p.address (some .inet) ∈ (pingPeer best st p).actions ∧
          Action.doPingAndKeepalive p.address (some .inet6) ∈ (pingPeer best st p).actions) := by
  cases h : st.upstreamsToContact.lookup p.address with
  | none =>
    rw [pingPeer_of_lookup_none h]
    refine ⟨List.prefix_append _ _, fun a ha => ?_, nofun⟩
    split at ha <;> simpa using ha
  | some E =>
    rw [pingPeer_of_lookup_some h]
    simp only [pingFamily_fst]
    refine ⟨(List.prefix_append _ _).trans ((List.prefix_append _ _).trans (List.prefix_append _ _)),
      fun a ha => ?_, fun _ =>
        ⟨List.mem_append_left _ (List.mem_append_left _ (List.mem_append_right _ (List.mem_cons_self _ _))),
          List.mem_append_left _ (List.mem_append_right _ (List.mem_cons_self _ _))⟩⟩
    simp only [List.mem_append, List.mem_cons] at ha
    rcases ha with ((ha | ha | ha) | ha | ha) | ha
    · exact ha
    all_goals first | cases ha | (split at ha <;> simp at ha)

theorem pingPeer_upstreamsToContact (st : PingState) (p : Peer) :
    (pingPeer best st p).upstreamsToContact = st.upstreamsToContact.filter (·.1 ≠ p.address) := by
  cases h : st.upstreamsToContact.lookup p.address with
  | none =>
    rw [(pingPeer_of_not_upstream h).1, eq_comm, List.filter_eq_self]
    intro u hu
    have hne := List.lookup_eq_none_iff.1 h u hu
    rw [bne_iff_ne] at hne
    simpa using Ne.symm hne
  | some E => exact (pingPeer_of_upstream h).1

-- After the walk, the upstreams left are those no peer visited has the address of.
theorem foldl_pingPeer_upstreamsToContact (ps : List Peer) (st : PingState) :
    (ps.foldl (pingPeer best) st).upstreamsToContact =
      st.upstreamsToContact.filter fun u => u.1 ∉ ps.map Peer.address := by
  induction ps generalizing st with
  | nil => simp
  | cons p ps ih =>
    rw [List.foldl_cons, ih, pingPeer_upstreamsToContact, List.filter_filter]
    congr 1
    funext u
    simp [Bool.and_comm]

theorem foldl_pingPeer_actions (ps : List Peer) (st : PingState) :
    st.actions <+: (ps.foldl (pingPeer best) st).actions ∧
      ∀ a, Action.requestWhois a ∈ (ps.foldl (pingPeer best) st).actions →
        Action.requestWhois a ∈ st.actions := by
  induction ps generalizing st with
  | nil => exact ⟨List.prefix_refl _, fun _ => id⟩
  | cons p ps ih =>
    obtain ⟨h₁, h₂, -⟩ := @pingPeer_actions best st p
    obtain ⟨h₁', h₂'⟩ := ih (pingPeer best st p)
    exact ⟨h₁.trans h₁', fun a ha => h₂ a (h₂' a ha)⟩

-- The first peer with an upstream's address gets the keepalives of both families.
theorem foldl_pingPeer_keepalive (ps : List Peer) (st : PingState) {a : Address}
    (hu : a ∈ st.upstreamsToContact.map Prod.fst) (hp : a ∈ ps.map Peer.address) :
    Action.doPingAndKeepalive a (some .inet) ∈ (ps.foldl (pingPeer best) st).actions ∧
      Action.doPingAndKeepalive a (some .inet6) ∈ (ps.foldl (pingPeer best) st).actions := by
  induction ps generalizing st with
  | nil => simp at hp
  | cons p ps ih =>
    rw [List.foldl_cons]
    by_cases e : p.address = a
    · subst e
      obtain ⟨u, hu, hua⟩ := List.mem_map.1 hu
      have hsome : (st.upstreamsToContact.lookup p.address).isSome :=
        List.lookup_isSome_iff.2 ⟨u, hu, by rw [hua, beq_self_eq_true]⟩
      have hrest := (@foldl_pingPeer_actions best ps (pingPeer best st p)).1.subset
      obtain ⟨h4, h6⟩ := (@pingPeer_actions best st p).2.2 hsome
      exact ⟨hrest h4, hrest h6⟩
    · refine ih (pingPeer best st p) ?_ (by simpa [Ne.symm e] using hp)
      obtain ⟨u, hu', rfl⟩ := List.mem_map.1 hu
      rw [pingPeer_upstreamsToContact]
      exact List.mem_map_of_mem _ (List.mem_filter.2 ⟨hu', by simpa using Ne.symm e⟩)

end Upstreams

-- In every ping check that does not throw, an upstream the topology asks to contact is reached
-- one way: through a peer with its address, which gets a keepalive on each family, or else by a
-- WHOIS. No other address is WHOIS-requested.
theorem pingCheck_contacts_every_upstream (K : Constants) (env : TickEnv) (now : UInt64)
    (n : Node) (hok : env.pingCheckThrows = false) (a : Address) :
    let actions := (pingCheck K env now n).1
    (Action.requestWhois a ∈ actions ↔
        a ∈ env.upstreamsToContact.map Prod.fst ∧ a ∉ env.peers.map Peer.address) ∧
      (a ∈ env.upstreamsToContact.map Prod.fst → a ∈ env.peers.map Peer.address →
        Action.doPingAndKeepalive a (some .inet) ∈ actions ∧
          Action.doPingAndKeepalive a (some .inet6) ∈ actions) := by
  have hU := @foldl_pingPeer_upstreamsToContact env.bestUpstreamPath env.peers
    ⟨n.prngState, 0, env.upstreamsToContact, []⟩
  have hW : Action.requestWhois a ∉ (env.peers.foldl (pingPeer env.bestUpstreamPath)
      ⟨n.prngState, 0, env.upstreamsToContact, []⟩).actions := fun h =>
    List.not_mem_nil _ ((@foldl_pingPeer_actions env.bestUpstreamPath env.peers
      ⟨n.prngState, 0, env.upstreamsToContact, []⟩).2 a h)
  have hK := @foldl_pingPeer_keepalive env.bestUpstreamPath env.peers
    ⟨n.prngState, 0, env.upstreamsToContact, []⟩ a
  unfold pingCheck
  simp only [hok, Bool.false_eq_true, if_false, pingPeers_eq]
  refine ⟨?_, fun hu hp => ?_⟩
  · have hwhois : Action.requestWhois a ∈ (List.foldl (pingPeer env.bestUpstreamPath)
        ⟨n.prngState, 0, env.upstreamsToContact, []⟩ env.peers).upstreamsToContact.map
          (fun u => Action.requestWhois u.1) ↔
        a ∈ env.upstreamsToContact.map Prod.fst ∧ a ∉ env.peers.map Peer.address := by
      rw [hU]
      simp only [List.mem_map, List.mem_filter, Action.requestWhois.injEq, decide_eq_true_eq]
      constructor
      · rintro ⟨u, ⟨hu, hnot⟩, rfl⟩; exact ⟨⟨u, hu, rfl⟩, hnot⟩
      · rintro ⟨⟨u, hu, rfl⟩, hnot⟩; exact ⟨u, ⟨hu, hnot⟩, rfl⟩
    rw [← hwhois]
    simp only [List.mem_append, List.mem_map, hW, reduceCtorEq, and_false, exists_false,
      false_or, or_false, List.mem_ite_nil_right, List.mem_singleton, false_and]
  · obtain ⟨h4, h6⟩ := hK hu hp
    simp only [List.mem_append, h4, h6, or_true, true_or, and_self]

-- Two upstreams to contact and one peer, with the first one's address: the first gets both
-- keepalives, and the second is WHOIS-requested.
theorem pingCheck_contacts_every_upstream_one_peer :
    let K : Constants := ⟨5000, 60000, 500000, 60000, 500⟩
    let env : TickEnv :=
      ⟨[], [(1, []), (2, [])], [⟨1, 0, false, false, true⟩], none, false, 0, false, 0, false, false⟩
    env.pingCheckThrows = false ∧
      (Action.requestWhois 2 ∈ (pingCheck K env 100000 (Node.initial 0 (1, 0))).1 ↔
          2 ∈ env.upstreamsToContact.map Prod.fst ∧ 2 ∉ env.peers.map Peer.address) ∧
        (2 ∈ env.upstreamsToContact.map Prod.fst → 2 ∈ env.peers.map Peer.address →
          Action.doPingAndKeepalive 2 (some .inet) ∈ (pingCheck K env 100000 (Node.initial 0 (1, 0))).1 ∧
            Action.doPingAndKeepalive 2 (some .inet6) ∈
              (pingCheck K env 100000 (Node.initial 0 (1, 0))).1) :=
  ⟨rfl, pingCheck_contacts_every_upstream _ _ 100000 _ rfl 2⟩

-- A check that throws makes the first calls of the check that completes.

namespace PingState

-- The walk cut at `m` calls against the walk that completes: the same while it runs, then
-- stopped after exactly `m` calls, which the completed walk starts with.
def CutAt (m : Nat) (a b : PingState) : Prop :=
  (a = b ∧ a.actions.length < m) ∨ (a.actions.length = m ∧ a.actions <+: b.actions)

theorem cutAt_self {m : Nat} {a : PingState} (h : a.actions.length ≤ m) : a.CutAt m a :=
  (Nat.lt_or_eq_of_le h).imp (⟨rfl, ·⟩) (⟨·, List.prefix_refl _⟩)

-- Once the cut walk has stopped it makes no more calls, while the completed one only adds calls.
theorem CutAt.stopped {m : Nat} {x y x' y' : PingState} (h : x.CutAt m y)
    (hx : ¬x.actions.length < m) (hx' : x'.actions = x.actions) (hy : y.actions <+: y'.actions) :
    x'.CutAt m y' := by
  rcases h with ⟨-, hlt⟩ | ⟨hlen, hpre⟩
  · exact absurd hlt hx
  · exact .inr ⟨hx' ▸ hlen, hx' ▸ hpre.trans hy⟩

end PingState

-- With room for both of its calls, a family does what it does in the completed walk.
theorem pingFamilyUpTo_of_room {m : Nat} {st : PingState} (h : st.actions.length + 2 ≤ m)
    (p : Peer) (E : List InetAddress) (f : AddressFamily) (pinged : Bool) :
    pingFamilyUpTo (some m) p E f pinged st = pingFamily p E f pinged st := by
  have h₁ : st.actions.length < m := by omega
  have h₂ : st.actions.length + 1 < m := by omega
  simp [pingFamily, pingFamilyUpTo, h₁, h₂]

-- With room for one call, the keepalive is the last.
theorem pingFamilyUpTo_of_last {m : Nat} {st : PingState} (h : st.actions.length + 1 = m)
    (p : Peer) (E : List InetAddress) (f : AddressFamily) (pinged : Bool) :
    pingFamilyUpTo (some m) p E f pinged st =
      ({ st with actions := st.actions ++ [.doPingAndKeepalive p.address (some f)] }, pinged) := by
  have h₁ : st.actions.length < m := by omega
  have h₂ : ¬st.actions.length + 1 < m := by omega
  cases pinged <;> simp [pingFamilyUpTo, h₁, h₂]

theorem pingFamilyUpTo_of_stopped {m : Nat} {st : PingState} (h : ¬st.actions.length < m)
    (p : Peer) (E : List InetAddress) (f : AddressFamily) (pinged : Bool) :
    pingFamilyUpTo (some m) p E f pinged st = (st, false) := by
  simp [pingFamilyUpTo, h]

theorem length_pingFamily_le (p : Peer) (E : List InetAddress) (f : AddressFamily) (pinged : Bool)
    (st : PingState) : (pingFamily p E f pinged st).1.actions.length ≤ st.actions.length + 2 := by
  rw [pingFamily_fst]
  split
  · simp
  · cases selectEndpoint E f E.length (prng st.prngState).1 <;> simp

theorem prefix_pingFamily (p : Peer) (E : List InetAddress) (f : AddressFamily) (pinged : Bool)
    (st : PingState) :
    (st.actions ++ [.doPingAndKeepalive p.address (some f)]) <+:
      (pingFamily p E f pinged st).1.actions := by
  rw [pingFamily_fst]
  exact ⟨_, (List.append_cons _ _ _).symm⟩

-- One family cut at `m` against the same family completed, from a walk that still runs.
theorem pingFamilyUpTo_cutAt {m : Nat} {st : PingState} (h : st.actions.length < m) (p : Peer)
    (E : List InetAddress) (f : AddressFamily) (pinged : Bool) :
    (pingFamilyUpTo (some m) p E f pinged st).1.CutAt m (pingFamily p E f pinged st).1 ∧
      ((pingFamilyUpTo (some m) p E f pinged st).1.actions.length < m →
        pingFamilyUpTo (some m) p E f pinged st = pingFamily p E f pinged st) := by
  by_cases hroom : st.actions.length + 2 ≤ m
  · rw [pingFamilyUpTo_of_room hroom]
    exact ⟨PingState.cutAt_self ((length_pingFamily_le p E f pinged st).trans hroom),
      fun _ => rfl⟩
  · have hlast : st.actions.length + 1 = m := by omega
    rw [pingFamilyUpTo_of_last hlast]
    exact ⟨.inr ⟨by simp [hlast], prefix_pingFamily p E f pinged st⟩,
      fun h' => by simp at h'; omega⟩

theorem finishUpstream_of_running {m : Nat} {st : PingState} (h : st.actions.length < m)
    (best : Option (Int × InetAddress)) (p : Peer) (contacted : Bool) :
    finishUpstream (some m) best p contacted st = finishUpstream none best p contacted st := by
  simp [finishUpstream, PingState.call, h]

theorem actions_finishUpstream_of_stopped {m : Nat} {st : PingState} (h : ¬st.actions.length < m)
    (best : Option (Int × InetAddress)) (p : Peer) (contacted : Bool) :
    (finishUpstream (some m) best p contacted st).actions = st.actions := by
  unfold finishUpstream
  split <;> simp [PingState.call, h]

theorem prefix_finishUpstream (best : Option (Int × InetAddress)) (p : Peer) (contacted : Bool)
    (st : PingState) : st.actions <+: (finishUpstream none best p contacted st).actions := by
  unfold finishUpstream
  split <;> simp

theorem length_finishUpstream_le (best : Option (Int × InetAddress)) (p : Peer) (contacted : Bool)
    (st : PingState) :
    (finishUpstream none best p contacted st).actions.length ≤ st.actions.length + 1 := by
  unfold finishUpstream
  split <;> simp

theorem actions_pingPeerUpTo_of_stopped {m : Nat} {st : PingState} (h : ¬st.actions.length < m)
    (best : Option (Int × InetAddress)) (p : Peer) :
    (pingPeerUpTo (some m) best st p).actions = st.actions := by
  unfold pingPeerUpTo
  split
  · simp only [pingFamilyUpTo_of_stopped h]
    exact actions_finishUpstream_of_stopped h best p _
  · split <;> simp [PingState.call, h]

-- One peer, cut at `m` calls against the same peer visited in full.
theorem pingPeerUpTo_cutAt {m : Nat} {a b : PingState} (h : a.CutAt m b)
    (best : Option (Int × InetAddress)) (p : Peer) :
    (pingPeerUpTo (some m) best a p).CutAt m (pingPeer best b p) := by
  rcases h with ⟨rfl, hlt⟩ | ⟨hlen, hpre⟩
  · cases hl : a.upstreamsToContact.lookup p.address with
    | none =>
      simp only [pingPeer, pingPeerUpTo, hl]
      split
      · rw [PingState.call_some_of_lt hlt]
        exact PingState.cutAt_self (by simpa using hlt)
      · exact PingState.cutAt_self hlt.le
    | some E =>
      simp only [pingPeer, pingPeerUpTo, hl]
      obtain ⟨hc₄, he₄⟩ := pingFamilyUpTo_cutAt hlt p E .inet p.pingedInet
      rcases hc₄ with ⟨-, hlt₄⟩ | ⟨hlen₄, hpre₄⟩
      · -- both families run as in full until the second one
        have e₄ := he₄ hlt₄
        rw [e₄] at hlt₄
        rw [e₄]
        obtain ⟨hc₆, he₆⟩ := pingFamilyUpTo_cutAt hlt₄ p E .inet6 p.pingedInet6
        rcases hc₆ with ⟨-, hlt₆⟩ | ⟨hlen₆, hpre₆⟩
        · have e₆ := he₆ hlt₆
          rw [e₆] at hlt₆
          rw [e₆, finishUpstream_of_running hlt₆]
          exact PingState.cutAt_self ((length_finishUpstream_le _ _ _ _).trans hlt₆)
        · exact PingState.CutAt.stopped (.inr ⟨hlen₆, hpre₆⟩) (by omega)
            (actions_finishUpstream_of_stopped (by omega) _ _ _) (prefix_finishUpstream _ _ _ _)
      · -- the throw comes within the first family
        have hs : ¬(pingFamilyUpTo (some m) p E .inet p.pingedInet a).1.actions.length < m := by
          omega
        rw [pingFamilyUpTo_of_stopped hs]
        dsimp only
        exact PingState.CutAt.stopped (.inr ⟨hlen₄, hpre₄⟩) (by omega)
          (actions_finishUpstream_of_stopped (by omega) _ _ _)
          (((List.prefix_append _ _).trans (prefix_pingFamily _ _ _ _ _)).trans
            (prefix_finishUpstream _ _ _ _))
  · exact PingState.CutAt.stopped (.inr ⟨hlen, hpre⟩) (by omega)
      (actions_pingPeerUpTo_of_stopped (by omega) best p) (pingPeer_actions b p).1

theorem pingPeersUpTo_cutAt {m : Nat} (env : TickEnv) {a b : PingState} (h : a.CutAt m b) :
    (pingPeersUpTo (some m) env a).CutAt m (pingPeers env b) := by
  unfold pingPeers pingPeersUpTo
  induction env.peers generalizing a b with
  | nil => exact h
  | cons p ps ih => exact ih (pingPeerUpTo_cutAt h _ p)

-- The calls before the walk, the walk cut at what is left of `k` calls, then anything: its first
-- `k` calls begin the completed walk's calls.
theorem take_prefix_of_cut {α : Type} {C A A' W W' E : List α} {k : Nat}
    (hlen : A'.length = k - C.length) (hpre : A' <+: A) :
    (C ++ A' ++ W').take k <+: C ++ A ++ W ++ E := by
  have hk : k ≤ (C ++ A').length := by simp only [List.length_append, hlen]; omega
  rw [List.take_append_of_le_length hk, List.append_assoc (C ++ A)]
  exact (List.take_prefix _ _).trans (((List.prefix_append_right_inj C).2 hpre).trans
    (List.prefix_append _ _))

-- A ping check that throws makes the first calls of the same check run to completion.
theorem pingCheck_throw_prefix (K : Constants) (env : TickEnv) (now : UInt64) (n : Node) :
    (pingCheck K env now n).1 <+: (pingCheck K { env with pingCheckThrows := false } now n).1 := by
  by_cases hthrow : env.pingCheckThrows
  · simp only [pingCheck, hthrow, if_true, Bool.false_eq_true, if_false]
    rcases pingPeersUpTo_cutAt env (PingState.cutAt_self (m := env.pingCheckThrowCall - _)
        (a := ⟨n.prngState, 0, env.upstreamsToContact, []⟩) (Nat.zero_le _)) with
      ⟨heq, -⟩ | ⟨hlen, hpre⟩
    · rw [heq]
      exact (List.take_prefix _ _).trans (List.prefix_append _ _)
    · exact take_prefix_of_cut hlen hpre
  · have henv : { env with pingCheckThrows := false } = env := by cases env; simp_all
    rw [henv]

end ZeroTier
