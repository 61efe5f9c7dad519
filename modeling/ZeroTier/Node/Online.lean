import ZeroTier.Node.BackgroundTasks

namespace ZeroTier

-- The ONLINE and OFFLINE events among a list of calls, in order.
def onlineEvents (actions : List Action) : List Event :=
  actions.filterMap fun
    | .postEvent e => if e = .online ∨ e = .offline then some e else none
    | _ => none

-- The events posted when `_online` goes from `before` to `after`.
def onlineTransition (before after : Bool) : List Event :=
  if before = after then [] else [if after then .online else .offline]

-- ONLINE, OFFLINE, ONLINE, ... of length `k`.
def alternating (k : Nat) : List Event :=
  (List.range k).map fun i => if i % 2 = 0 then .online else .offline

@[simp] theorem onlineEvents_nil : onlineEvents [] = [] := rfl

@[simp] theorem onlineEvents_append (xs ys : List Action) :
    onlineEvents (xs ++ ys) = onlineEvents xs ++ onlineEvents ys :=
  List.filterMap_append _ _ _

-- Calls other than `postEvent` post no event.
@[simp] theorem onlineEvents_map {α : Type} (f : α → Action) (hf : ∀ a e, f a ≠ .postEvent e)
    (xs : List α) : onlineEvents (xs.map f) = [] := by
  simp only [onlineEvents, List.filterMap_map, List.filterMap_eq_nil_iff, Function.comp_def]
  intro a _
  split
  · exact absurd ‹_› (hf a _)
  · rfl

@[simp] theorem onlineEvents_postEvent_ite (c : Prop) [Decidable c] :
    onlineEvents [.postEvent (if c then .online else .offline)] =
      [if c then .online else .offline] := by
  split <;> rfl

@[simp] theorem onlineEvents_singleton_of_ne (a : Action) (h : ∀ e, a ≠ .postEvent e) :
    onlineEvents [a] = [] := by
  cases a <;> first | rfl | exact absurd rfl (h _)

-- Pinging peers calls `doPingAndKeepalive` and sends HELLOs, and posts no event.
theorem onlineEvents_pingFamilyUpTo (limit : Option Nat) (p : Peer) (endpoints : List InetAddress)
    (family : AddressFamily) (pinged : Bool) (st : PingState) :
    onlineEvents (pingFamilyUpTo limit p endpoints family pinged st).1.actions =
      onlineEvents st.actions := by
  rcases pingFamilyUpTo_fst_cases limit p endpoints family pinged st with h | h | h <;> rw [h] <;>
    cases selectEndpoint endpoints family endpoints.length (prng st.prngState).1 <;> simp [onlineEvents]

theorem onlineEvents_call (limit : Option Nat) (st : PingState) {a : Action}
    (ha : ∀ e, a ≠ .postEvent e) : onlineEvents (st.call limit a).actions = onlineEvents st.actions := by
  unfold PingState.call
  split_ifs <;> simp [ha]

theorem onlineEvents_finishUpstream (limit : Option Nat) (best : Option (Int × InetAddress))
    (p : Peer) (contacted : Bool) (st : PingState) :
    onlineEvents (finishUpstream limit best p contacted st).actions = onlineEvents st.actions := by
  unfold finishUpstream
  split <;> simp [onlineEvents_call]

theorem onlineEvents_pingPeerUpTo (limit : Option Nat) (best : Option (Int × InetAddress))
    (st : PingState) (p : Peer) :
    onlineEvents (pingPeerUpTo limit best st p).actions = onlineEvents st.actions := by
  unfold pingPeerUpTo
  split
  · simp [onlineEvents_finishUpstream, onlineEvents_pingFamilyUpTo]
  · split_ifs <;> simp [onlineEvents_call]

theorem onlineEvents_pingPeersUpTo (limit : Option Nat) (env : TickEnv) (st : PingState) :
    onlineEvents (pingPeersUpTo limit env st).actions = onlineEvents st.actions := by
  unfold pingPeersUpTo
  induction env.peers generalizing st with
  | nil => rfl
  | cons p ps ih => rw [List.foldl_cons, ih, onlineEvents_pingPeerUpTo]

theorem onlineEvents_take {l : List Action} (h : onlineEvents l = []) (k : Nat) :
    onlineEvents (l.take k) = [] := by
  rw [← List.take_append_drop k l, onlineEvents_append] at h
  exact (List.append_eq_nil.1 h).1

-- The ping check posts exactly the transition of `_online`; one that throws posts nothing and
-- keeps `_online`.
theorem onlineEvents_pingCheck (K : Constants) (env : TickEnv) (now : UInt64) (n : Node) :
    (∀ n', (pingCheck K env now n).2 = .ok n' →
      onlineEvents (pingCheck K env now n).1 = onlineTransition n.online n'.online) ∧
    (∀ n', (pingCheck K env now n).2 = .error n' →
      onlineEvents (pingCheck K env now n).1 = [] ∧ n'.online = n.online) := by
  unfold pingCheck
  dsimp only
  split
  · refine ⟨nofun, fun n' h => ⟨onlineEvents_take ?_ _, by cases h; rfl⟩⟩
    simp [onlineEvents_pingPeersUpTo]
  · refine ⟨fun n' h => ?_, nofun⟩
    cases h
    simp only [onlineEvents_append, pingPeers, onlineEvents_pingPeersUpTo, onlineEvents_map, ne_eq,
      reduceCtorEq, not_false_eq_true, implies_true, List.nil_append]
    unfold onlineTransition
    split <;> simp_all

theorem onlineEvents_housekeepingAndTimers (K : Constants) (env : TickEnv)
    (now t : UInt64) (actions : List Action) (n : Node) :
    onlineEvents (housekeepingAndTimers K env now t actions n).actions = onlineEvents actions ∧
      (housekeepingAndTimers K env now t actions n).node.online = n.online := by
  unfold housekeepingAndTimers
  dsimp only
  split_ifs <;> simp

-- A call posts exactly the transition of `_online` from the node it starts on to the node it
-- leaves; housekeeping and the timer tasks post nothing.
theorem onlineEvents_processBackgroundTasks (K : Constants) (env : TickEnv) (now : UInt64)
    (n : Node) : onlineEvents (processBackgroundTasks K env now n).actions =
      onlineTransition n.online (processBackgroundTasks K env now n).node.online := by
  unfold processBackgroundTasks
  dsimp only
  split
  · obtain ⟨hok, herr⟩ := onlineEvents_pingCheck K env now { n with now := now, lastPingCheck := now }
    split
    · next actions n' h =>
      obtain ⟨he, ho⟩ := herr n' (congrArg Prod.snd h)
      rw [h] at he
      simp [he, ho, onlineTransition]
    · next actions n' h =>
      have he := hok n' (congrArg Prod.snd h)
      rw [h] at he
      simp [he, onlineEvents_housekeepingAndTimers]
  · simp [onlineEvents_housekeepingAndTimers, onlineTransition]

-- A run of `processBackgroundTasks` calls from a node: the node after the last call, and every
-- call's actions in order.
def runBackgroundTasks (K : Constants) : Node → List (TickEnv × UInt64) → Node × List Action
  | n, [] => (n, [])
  | n, (env, now) :: ticks =>
      let r := processBackgroundTasks K env now n
      ((runBackgroundTasks K r.node ticks).1, r.actions ++ (runBackgroundTasks K r.node ticks).2)

-- The events posted so far alternate from ONLINE, and the node is online after an odd number.
def OnlineLog (evs : List Event) (online : Bool) : Prop :=
  evs = alternating evs.length ∧ (online = true ↔ evs.length % 2 = 1)

theorem alternating_succ (k : Nat) :
    alternating (k + 1) = alternating k ++ [if k % 2 = 0 then .online else .offline] := by
  simp [alternating, List.range_succ]

@[simp] theorem length_alternating (k : Nat) : (alternating k).length = k := by
  simp [alternating]

theorem count_alternating (k : Nat) :
    (alternating k).count .online = (alternating k).count .offline + if k % 2 = 1 then 1 else 0 := by
  induction k with
  | zero => rfl
  | succ k ih =>
    rw [alternating_succ, List.count_append, List.count_append, ih]
    by_cases hk : k % 2 = 0
    · simp [hk, Nat.succ_mod_two_eq_one_iff.2 hk]
    · have hk1 : k % 2 = 1 := by omega
      simp [hk, hk1, Nat.succ_mod_two_eq_zero_iff.2 hk1]

-- One call keeps the log alternating: it posts nothing, or the event of the new status.
theorem OnlineLog.transition {evs : List Event} {before : Bool} (h : OnlineLog evs before)
    (after : Bool) : OnlineLog (evs ++ onlineTransition before after) after := by
  obtain ⟨hevs, hodd⟩ := h
  unfold onlineTransition
  by_cases hb : before = after
  · subst hb
    simpa using ⟨hevs, hodd⟩
  · have hafter : after = decide (evs.length % 2 = 0) := by
      revert hb hodd
      cases before <;> cases after <;> simp
    refine ⟨?_, ?_⟩
    · rw [if_neg hb, List.length_append, List.length_singleton, alternating_succ, ← hevs, hafter]
      simp
    · rw [if_neg hb, hafter, List.length_append, List.length_singleton]
      simp
      omega

theorem OnlineLog.run {evs : List Event} {n : Node} (h : OnlineLog evs n.online) (K : Constants)
    (ticks : List (TickEnv × UInt64)) :
    OnlineLog (evs ++ onlineEvents (runBackgroundTasks K n ticks).2)
      (runBackgroundTasks K n ticks).1.online := by
  induction ticks generalizing evs n with
  | nil => simpa [runBackgroundTasks] using h
  | cons tick ticks ih =>
    obtain ⟨env, now⟩ := tick
    have step := h.transition (processBackgroundTasks K env now n).node.online
    rw [← onlineEvents_processBackgroundTasks] at step
    simpa [runBackgroundTasks] using ih step

theorem online_events_alternate (K : Constants) :
    (∀ env now n, onlineEvents (processBackgroundTasks K env now n).actions =
      onlineTransition n.online (processBackgroundTasks K env now n).node.online) ∧
    ∀ now prngSeed ticks,
      onlineEvents (runBackgroundTasks K (Node.initial now prngSeed) ticks).2 =
          alternating (onlineEvents (runBackgroundTasks K (Node.initial now prngSeed) ticks).2).length ∧
        (onlineEvents (runBackgroundTasks K (Node.initial now prngSeed) ticks).2).count .online =
          (onlineEvents (runBackgroundTasks K (Node.initial now prngSeed) ticks).2).count .offline +
            if (runBackgroundTasks K (Node.initial now prngSeed) ticks).1.online then 1 else 0 := by
  refine ⟨onlineEvents_processBackgroundTasks K, fun now prngSeed ticks => ?_⟩
  have hinit : OnlineLog [] (Node.initial now prngSeed).online := by
    simp [OnlineLog, Node.initial, alternating]
  obtain ⟨hevs, hodd⟩ := hinit.run K ticks
  rw [List.nil_append] at hevs hodd
  refine ⟨hevs, ?_⟩
  rw [hevs, count_alternating]
  simp only [hodd]

end ZeroTier
