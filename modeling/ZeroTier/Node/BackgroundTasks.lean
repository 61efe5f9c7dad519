import ZeroTier.Node.Node

namespace ZeroTier

/-- Modelled from the spec: Constants.hpp is not among the sources; these are the intervals
`processBackgroundTasks` compares against, taken as parameters. -/
structure Constants where
  ZT_PING_CHECK_INVERVAL : UInt64
  ZT_NETWORK_AUTOCONF_DELAY : UInt64
  ZT_PEER_ACTIVITY_TIMEOUT : UInt64
  ZT_HOUSEKEEPING_PERIOD : UInt64
  ZT_CORE_TIMER_TASK_GRANULARITY : UInt64

-- What a peer answers during one visit of `_PingPeersThatNeedPing`: its address, `lastReceive()`,
-- whether `doPingAndKeepalive` reports recent activity per family, and `isActive(now)`.
structure Peer where
  address : Address
  lastReceive : UInt64
  pingedInet : Bool
  pingedInet6 : Bool
  isActive : Bool

-- A network as the ping check reads it.
structure NetworkStatus where
  nwid : UInt64
  lastConfigUpdate : UInt64
  hasConfig : Bool

-- Everything the other components answer during one call: the networks, the upstreams to contact,
-- the peers `eachPeer` visits in order, the best path of the best current upstream, `amRoot()`,
-- `doTimerTasks`, and the calls that throw. A ping check that throws stops at its
-- `pingCheckThrowCall`-th call recorded as an action, the one that throws; the reads of a peer's
-- state and the host's event callback are taken not to throw.
structure TickEnv where
  networks : List NetworkStatus
  upstreamsToContact : List (Address × List InetAddress)
  peers : List Peer
  bestUpstreamPath : Option (Int × InetAddress)
  amRoot : Bool
  timerTasks : UInt64
  pingCheckThrows : Bool
  pingCheckThrowCall : Nat
  housekeepingThrows : Bool
  timerTasksThrows : Bool

-- The calls `processBackgroundTasks` makes on the other components and on the host, in order.
inductive Action where
  | requestConfiguration (nwid : UInt64)
  | sendUpdatesToMembers (nwid : UInt64)
  | doPingAndKeepalive (peer : Address) (family : Option AddressFamily)
  | sendHello (peer : Address) (localSocket : Int) (addr : InetAddress)
  | requestWhois (addr : Address)
  | postEvent (e : Event)
  | housekeeping
  deriving DecidableEq, Repr

-- `Node::prng`: xorshift128+.
def prng (s : UInt64 × UInt64) : UInt64 × (UInt64 × UInt64) :=
  let x := s.1 ^^^ (s.1 <<< 23)
  let z := x ^^^ s.2 ^^^ (x >>> 17) ^^^ (s.2 >>> 26)
  (z + s.2, (s.2, z))

-- The endpoint loop: `k` steps left, index `ptr++ % size`, stopping at the first endpoint of
-- the family.
def selectEndpoint (endpoints : List InetAddress) (family : AddressFamily) :
    Nat → UInt64 → Option InetAddress
  | 0, _ => none
  | k + 1, ptr =>
      match endpoints[ptr.toNat % endpoints.length]? with
      | some addr => if addr.family = family then some addr
          else selectEndpoint endpoints family k (ptr + 1)
      | none => none

-- The state `_PingPeersThatNeedPing` threads through `eachPeer`.
structure PingState where
  prngState : UInt64 × UInt64
  lastReceiveFromUpstream : UInt64
  upstreamsToContact : List (Address × List InetAddress)
  actions : List Action

-- Whether the walk still runs: a ping check that throws stops it once it has made `limit` calls.
def PingState.running (limit : Option Nat) (st : PingState) : Bool :=
  limit.all (st.actions.length < ·)

-- A call the walk makes if it still runs.
def PingState.call (limit : Option Nat) (st : PingState) (a : Action) : PingState :=
  if st.running limit then { st with actions := st.actions ++ [a] } else st

@[simp] theorem PingState.running_none (st : PingState) : st.running none = true := rfl

@[simp] theorem PingState.call_none (st : PingState) (a : Action) :
    st.call none a = { st with actions := st.actions ++ [a] } := rfl

@[simp] theorem PingState.running_some (m : Nat) (st : PingState) :
    st.running (some m) = decide (st.actions.length < m) := rfl

theorem PingState.call_some_of_lt {m : Nat} {st : PingState} (h : st.actions.length < m)
    (a : Action) : st.call (some m) a = st.call none a := by
  simp [PingState.call, h]

-- One family of an upstream: nothing to do if `doPingAndKeepalive` reports activity, else a HELLO
-- to an endpoint of the family chosen from a fresh `prng()`. Returns whether it counts as contact.
-- Only what comes before a throw at `limit` calls is done.
def pingFamilyUpTo (limit : Option Nat) (p : Peer) (endpoints : List InetAddress)
    (family : AddressFamily) (pinged : Bool) (st : PingState) : PingState × Bool :=
  if st.running limit then
    let st := { st with actions := st.actions ++ [.doPingAndKeepalive p.address (some family)] }
    if pinged then (st, true)
    else if st.running limit then
      let (ptr, prngState) := prng st.prngState
      let st := { st with prngState := prngState }
      match selectEndpoint endpoints family endpoints.length ptr with
      | some addr => ({ st with actions := st.actions ++ [.sendHello p.address (-1) addr] }, true)
      | none => (st, false)
    else (st, false)
  else (st, false)

def pingFamily (p : Peer) (endpoints : List InetAddress) (family : AddressFamily) (pinged : Bool)
    (st : PingState) : PingState × Bool :=
  pingFamilyUpTo none p endpoints family pinged st

-- What one family does to the walk's state: the keepalive, and when it reports no activity one
-- `prng()` call and the HELLO to the endpoint the loop picks, if any.
theorem pingFamily_fst (p : Peer) (endpoints : List InetAddress) (family : AddressFamily)
    (pinged : Bool) (st : PingState) :
    (pingFamily p endpoints family pinged st).1 =
      { st with
        prngState := if pinged then st.prngState else (prng st.prngState).2
        actions := st.actions ++ .doPingAndKeepalive p.address (some family) ::
          if pinged then []
          else ((selectEndpoint endpoints family endpoints.length (prng st.prngState).1).map
            (Action.sendHello p.address (-1))).toList } := by
  unfold pingFamily pingFamilyUpTo
  simp only [PingState.running_none, if_true]
  cases pinged
  · simp only [Bool.false_eq_true, if_false]
    split <;> simp_all
  · simp

-- As far as the walk runs, one family does nothing, only the keepalive, or the keepalive, one
-- `prng()` call and the HELLO the loop picks.
theorem pingFamilyUpTo_fst_cases (limit : Option Nat) (p : Peer) (endpoints : List InetAddress)
    (family : AddressFamily) (pinged : Bool) (st : PingState) :
    (pingFamilyUpTo limit p endpoints family pinged st).1 = st ∨
      (pingFamilyUpTo limit p endpoints family pinged st).1 =
        { st with actions := st.actions ++ [.doPingAndKeepalive p.address (some family)] } ∨
      (pingFamilyUpTo limit p endpoints family pinged st).1 =
        { st with
          prngState := (prng st.prngState).2
          actions := st.actions ++ .doPingAndKeepalive p.address (some family) ::
            ((selectEndpoint endpoints family endpoints.length (prng st.prngState).1).map
              (Action.sendHello p.address (-1))).toList } := by
  unfold pingFamilyUpTo
  by_cases hrun : st.running limit
  · simp only [hrun, if_true]
    cases pinged
    · simp only [Bool.false_eq_true, if_false]
      split
      · right; right; split <;> simp_all
      · exact .inr (.inl rfl)
    · exact .inr (.inl rfl)
  · exact .inl (by simp [hrun])

-- The end of an upstream's visit: a HELLO over the best upstream's path when neither family made
-- contact, then the `max` of `lastReceive()` and the erase from the upstreams to contact.
def finishUpstream (limit : Option Nat) (bestUpstreamPath : Option (Int × InetAddress)) (p : Peer)
    (contacted : Bool) (st : PingState) : PingState :=
  let st :=
    match contacted, bestUpstreamPath with
    | false, some (localSocket, addr) => st.call limit (Action.sendHello p.address localSocket addr)
    | _, _ => st
  { st with
    lastReceiveFromUpstream := max p.lastReceive st.lastReceiveFromUpstream
    upstreamsToContact := st.upstreamsToContact.filter (·.1 ≠ p.address) }

-- `_PingPeersThatNeedPing::operator()` on one peer, as far as the walk runs.
def pingPeerUpTo (limit : Option Nat) (bestUpstreamPath : Option (Int × InetAddress))
    (st : PingState) (p : Peer) : PingState :=
  match st.upstreamsToContact.lookup p.address with
  | some endpoints =>
      let (st, contacted4) := pingFamilyUpTo limit p endpoints .inet p.pingedInet st
      let (st, contacted6) := pingFamilyUpTo limit p endpoints .inet6 p.pingedInet6 st
      finishUpstream limit bestUpstreamPath p (contacted4 || contacted6) st
  | none => if p.isActive then st.call limit (.doPingAndKeepalive p.address none) else st

def pingPeer (bestUpstreamPath : Option (Int × InetAddress)) (st : PingState) (p : Peer) :
    PingState :=
  pingPeerUpTo none bestUpstreamPath st p

-- An upstream visited: both families, a HELLO over the best upstream's path when neither made
-- contact, then the `max` of `lastReceive()` and the erase from the upstreams to contact.
theorem pingPeer_of_lookup_some {best : Option (Int × InetAddress)} {st : PingState} {p : Peer}
    {endpoints : List InetAddress} (h : st.upstreamsToContact.lookup p.address = some endpoints) :
    pingPeer best st p =
      let r₄ := pingFamily p endpoints .inet p.pingedInet st
      let r₆ := pingFamily p endpoints .inet6 p.pingedInet6 r₄.1
      { r₆.1 with
        lastReceiveFromUpstream := max p.lastReceive r₆.1.lastReceiveFromUpstream
        upstreamsToContact := r₆.1.upstreamsToContact.filter (·.1 ≠ p.address)
        actions := r₆.1.actions ++
          match r₄.2 || r₆.2, best with
          | false, some (localSocket, addr) => [Action.sendHello p.address localSocket addr]
          | _, _ => [] } := by
  simp only [pingPeer, pingPeerUpTo, finishUpstream, pingFamily, h]
  cases (pingFamilyUpTo none p endpoints .inet p.pingedInet st).2 ||
      (pingFamilyUpTo none p endpoints .inet6 p.pingedInet6
        (pingFamilyUpTo none p endpoints .inet p.pingedInet st).1).2 <;>
    rcases best with _ | ⟨localSocket, addr⟩ <;> simp

-- Any other peer: a keepalive when it is active.
theorem pingPeer_of_lookup_none {best : Option (Int × InetAddress)} {st : PingState} {p : Peer}
    (h : st.upstreamsToContact.lookup p.address = none) :
    pingPeer best st p =
      { st with
        actions := st.actions ++ if p.isActive then [.doPingAndKeepalive p.address none] else [] } := by
  simp only [pingPeer, pingPeerUpTo, h]
  split <;> simp_all

def pingPeersUpTo (limit : Option Nat) (env : TickEnv) (st : PingState) : PingState :=
  env.peers.foldl (pingPeerUpTo limit env.bestUpstreamPath) st

def pingPeers (env : TickEnv) (st : PingState) : PingState :=
  pingPeersUpTo none env st

theorem pingPeers_eq (env : TickEnv) (st : PingState) :
    pingPeers env st = env.peers.foldl (pingPeer env.bestUpstreamPath) st := rfl

-- Steps 1 to 3 of the ping check, on a node whose `_lastPingCheck` is already `now`: the calls
-- made, and the node, as an error when the check throws. A throw comes before `_online` is set
-- and stops the check after its first `pingCheckThrowCall` calls; the `prng()` calls made by then
-- stay made.
def pingCheck (K : Constants) (env : TickEnv) (now : UInt64) (n : Node) :
    List Action × Except Node Node :=
  let needConfig := env.networks.filter fun nw =>
    now - nw.lastConfigUpdate ≥ K.ZT_NETWORK_AUTOCONF_DELAY ∨ !nw.hasConfig
  let configActions := env.networks.map (Action.sendUpdatesToMembers ·.nwid) ++
    needConfig.map (Action.requestConfiguration ·.nwid)
  let start : PingState := ⟨n.prngState, 0, env.upstreamsToContact, []⟩
  let whois (pf : PingState) := pf.upstreamsToContact.map fun u => Action.requestWhois u.1
  if env.pingCheckThrows then
    let pf := pingPeersUpTo (some (env.pingCheckThrowCall - configActions.length)) env start
    ((configActions ++ pf.actions ++ whois pf).take env.pingCheckThrowCall,
      .error { n with prngState := pf.prngState })
  else
    let pf := pingPeers env start
    let online := decide (now - pf.lastReceiveFromUpstream < K.ZT_PEER_ACTIVITY_TIMEOUT) || env.amRoot
    let events := if n.online ≠ online then
      [Action.postEvent (if online then .online else .offline)] else []
    (configActions ++ pf.actions ++ whois pf ++ events,
      .ok { n with prngState := pf.prngState, online := online })

structure TickResult where
  result : ResultCode
  node : Node
  actions : List Action
  nextBackgroundTaskDeadline : Option UInt64

-- The rest of `Node::processBackgroundTasks` once the ping check is done or skipped: housekeeping
-- when due, then the timer tasks and the deadline, which is written only when the call returns
-- `OK`.
def housekeepingAndTimers (K : Constants) (env : TickEnv) (now timeUntilNextPingCheck : UInt64)
    (actions : List Action) (n : Node) : TickResult :=
  let housekeepingDue := now - n.lastHousekeepingRun ≥ K.ZT_HOUSEKEEPING_PERIOD
  let n := if housekeepingDue then { n with lastHousekeepingRun := now } else n
  let actions := if housekeepingDue then actions ++ [.housekeeping] else actions
  if housekeepingDue ∧ env.housekeepingThrows then ⟨.fatalErrorInternal, n, actions, none⟩
  else if env.timerTasksThrows then ⟨.fatalErrorInternal, n, actions, none⟩
  else
    ⟨.ok, n, actions, some (now + max (min timeUntilNextPingCheck env.timerTasks)
      K.ZT_CORE_TIMER_TASK_GRANULARITY)⟩

-- `Node::processBackgroundTasks`.
def processBackgroundTasks (K : Constants) (env : TickEnv) (now : UInt64) (n : Node) :
    TickResult :=
  let n := { n with now := now }
  let timeSinceLastPingCheck := now - n.lastPingCheck
  if timeSinceLastPingCheck ≥ K.ZT_PING_CHECK_INVERVAL then
    match pingCheck K env now { n with lastPingCheck := now } with
    | (actions, .error n) => ⟨.fatalErrorInternal, n, actions, none⟩
    | (actions, .ok n) => housekeepingAndTimers K env now K.ZT_PING_CHECK_INVERVAL actions n
  else housekeepingAndTimers K env now (K.ZT_PING_CHECK_INVERVAL - timeSinceLastPingCheck) [] n

end ZeroTier
