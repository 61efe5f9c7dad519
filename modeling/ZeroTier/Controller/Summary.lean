import ZeroTier.Controller.Persistence
import Mathlib.Data.List.Sort

namespace ZeroTier

namespace JSONDB

variable {L : JsonLib} (ZT_NETWORK_AUTOCONF_DELAY : UInt64)

-- The summary the worker computes.

-- `ns.allocatedIps` keeps the assignments that parse to an IPv4 or IPv6 address.
def isIpFamily (a : InetAddress) : Bool := a.family = .inet || a.family = .inet6

-- One member of the worker's loop: its record decoded, then the counts and lists it adds to. Each
-- inner `try` block that throws adds nothing; a throw outside them skips the member.
def summarizeMember (now : UInt64) (ns : NetworkSummaryInfo) (nodeId : UInt64) (bytes : L.Packed) :
    NetworkSummaryInfo :=
  match L.fromMsgpack bytes with
  | .error _ => ns
  | .ok member =>
      match L.index member "authorized" with
      | .error _ => ns
      | .ok authorized =>
          if L.jsonBool authorized false then
            let ns := { ns with authorizedMemberCount := ns.authorizedMemberCount + 1 }
            let ns := match L.index member "recentLog" with
              | .ok mlog =>
                  match L.isArray mlog, L.items mlog with
                  | true, mlog1 :: _ =>
                      if L.isObject mlog1 &&
                          decide (now - L.jsonInt (L.get mlog1 "ts") 0 < ZT_NETWORK_AUTOCONF_DELAY * 2)
                      then { ns with activeMemberCount := ns.activeMemberCount + 1 } else ns
                  | _, _ => ns
              | .error _ => ns
            let ns := match L.index member "activeBridge" with
              | .ok activeBridge =>
                  if L.jsonBool activeBridge false then
                    { ns with activeBridges := ns.activeBridges ++ [Address.ofInt nodeId] }
                  else ns
              | .error _ => ns
            let ns := match L.index member "ipAssignments" with
              | .ok mips =>
                  if L.isArray mips then
                    let mip := (L.items mips).map fun mip => L.inetAddressOf (L.jsonString mip "")
                    { ns with allocatedIps := ns.allocatedIps ++ mip.filter isIpFamily }
                  else ns
              | .error _ => ns
            { ns with totalMemberCount := ns.totalMemberCount + 1 }
          else
            let ns := match L.index member "lastDeauthorizedTime" with
              | .ok t => { ns with mostRecentDeauthTime := max ns.mostRecentDeauthTime (L.jsonInt t 0) }
              | .error _ => ns
            { ns with totalMemberCount := ns.totalMemberCount + 1 }

-- The summary of a member map at `now`: the fields cleared, every member folded in, and the two
-- lists sorted by `Address::operator<` and `InetAddress::operator<`.
def summarize (now : UInt64) (members : AList (fun _ : UInt64 => L.Packed)) : NetworkSummaryInfo :=
  let ns := members.entries.foldl (fun ns m => summarizeMember ZT_NETWORK_AUTOCONF_DELAY now ns m.1 m.2)
    NetworkSummaryInfo.empty
  { ns with
    activeBridges := ns.activeBridges.insertionSort (· ≤ ·)
    allocatedIps := ns.allocatedIps.insertionSort fun a b => ¬InetAddress.lt b a }

-- The worker's update of one network: the summary recomputed, stamped with `now`.
def recompute (now : UInt64) (nw : NW L) : NW L :=
  { nw with summaryInfo := summarize ZT_NETWORK_AUTOCONF_DELAY now nw.members
            summaryInfoLastComputed := now }

-- The worker's locked update of one network it took, skipped when the network is gone.
def recomputeNetwork (now : UInt64) (db : JSONDB L) (nwid : UInt64) : JSONDB L :=
  match db.networks.lookup nwid with
  | some nw => { db with networks := db.networks.insert nwid (recompute ZT_NETWORK_AUTOCONF_DELAY now nw) }
  | none => db

-- A round of the worker over the networks it took.
def summaryRound (now : UInt64) (todo : List UInt64) (db : JSONDB L) : JSONDB L :=
  todo.foldl (recomputeNetwork ZT_NETWORK_AUTOCONF_DELAY now) db

-- A network whose summary is the one the worker computes from its members at the time stamped.
def Fresh (nw : NW L) : Prop :=
  nw.summaryInfo = summarize ZT_NETWORK_AUTOCONF_DELAY nw.summaryInfoLastComputed nw.members

theorem fresh_recompute (now : UInt64) (nw : NW L) :
    Fresh ZT_NETWORK_AUTOCONF_DELAY (recompute ZT_NETWORK_AUTOCONF_DELAY now nw) := rfl

-- A network `_networks[nwid]` creates has the summary of no members.
theorem fresh_empty (config : L.Packed) :
    Fresh ZT_NETWORK_AUTOCONF_DELAY { NW.empty L with config := config } := rfl

@[simp] theorem recompute_recompute (now : UInt64) (nw : NW L) :
    recompute ZT_NETWORK_AUTOCONF_DELAY now (recompute ZT_NETWORK_AUTOCONF_DELAY now nw) =
      recompute ZT_NETWORK_AUTOCONF_DELAY now nw := rfl

theorem lookup_recomputeNetwork (now : UInt64) (db : JSONDB L) (nwid w : UInt64) :
    (recomputeNetwork ZT_NETWORK_AUTOCONF_DELAY now db nwid).networks.lookup w =
      if w = nwid then (db.networks.lookup w).map (recompute ZT_NETWORK_AUTOCONF_DELAY now)
      else db.networks.lookup w := by
  unfold recomputeNetwork
  by_cases e : w = nwid
  · subst e
    cases hl : db.networks.lookup w <;> simp [hl, AList.lookup_insert]
  · cases db.networks.lookup nwid <;> simp [e, AList.lookup_insert_ne e]

theorem lookup_summaryRound (now : UInt64) (todo : List UInt64) (db : JSONDB L) (w : UInt64) :
    (summaryRound ZT_NETWORK_AUTOCONF_DELAY now todo db).networks.lookup w =
      if w ∈ todo then (db.networks.lookup w).map (recompute ZT_NETWORK_AUTOCONF_DELAY now)
      else db.networks.lookup w := by
  induction todo generalizing db with
  | nil => simp [summaryRound]
  | cons nwid todo ih =>
    simp only [summaryRound, List.foldl_cons] at ih ⊢
    rw [ih, lookup_recomputeNetwork]
    by_cases e : w = nwid
    · subst e; cases db.networks.lookup w <;> simp
    · simp [e]

@[simp] theorem summaryThreadToDo_summaryRound (now : UInt64) (todo : List UInt64) (db : JSONDB L) :
    (summaryRound ZT_NETWORK_AUTOCONF_DELAY now todo db).summaryThreadToDo = db.summaryThreadToDo := by
  induction todo generalizing db with
  | nil => rfl
  | cons nwid todo ih =>
    simp only [summaryRound, List.foldl_cons] at ih ⊢
    rw [ih]
    unfold recomputeNetwork
    split <;> rfl

theorem mem_recomputeSummaryInfo (db : JSONDB L) (nwid w : UInt64) :
    w ∈ (db.recomputeSummaryInfo nwid).summaryThreadToDo ↔ w = nwid ∨ w ∈ db.summaryThreadToDo := by
  unfold recomputeSummaryInfo
  split
  · next h => exact ⟨Or.inr, fun h' => h'.elim (· ▸ h) id⟩
  · simp [or_comm]

-- The locked block of `eraseNetworkMember` keeps the queue, and with a recompute either leaves the
-- networks alone or queues the network.
theorem eraseMemberLocked_queue (db : JSONDB L) (nwid nodeId : UInt64) (recompute : Bool) :
    (∀ w, w ∈ db.summaryThreadToDo → w ∈ (db.eraseMemberLocked nwid nodeId recompute).1.summaryThreadToDo) ∧
      (recompute = false → (db.eraseMemberLocked nwid nodeId recompute).1.summaryThreadToDo =
        db.summaryThreadToDo) ∧
      (recompute = true → (db.eraseMemberLocked nwid nodeId recompute).1.networks = db.networks ∨
        nwid ∈ (db.eraseMemberLocked nwid nodeId recompute).1.summaryThreadToDo) := by
  unfold eraseMemberLocked
  dsimp only
  split
  · exact ⟨fun _ => id, fun _ => rfl, fun _ => .inl rfl⟩
  · split
    · exact ⟨fun _ => id, fun _ => rfl, fun _ => .inl rfl⟩
    · cases recompute
      · exact ⟨fun _ => id, fun _ => rfl, nofun⟩
      · refine ⟨fun w hw => (mem_recomputeSummaryInfo _ _ _).2 (.inr hw), nofun, fun _ => .inr ?_⟩
        exact (mem_recomputeSummaryInfo _ _ _).2 (.inl rfl)

-- The store with its callers and its worker.

-- Where a caller is in a call that updates the store: in none, between its locked update and
-- `_recomputeSummaryInfo(nwid)`, or in `eraseNetwork(nwid)` with the members `ids` still to erase
-- before its final locked block.
inductive CallerPc where
  | idle
  | queue (nwid : UInt64)
  | erasing (nwid : UInt64) (ids : List UInt64)
  deriving DecidableEq, Repr

def CallerPc.network : CallerPc → Option UInt64
  | .idle => none
  | .queue nwid | .erasing nwid _ => some nwid

-- The store, each caller's place, and the list the worker has swapped out of
-- `_summaryThreadToDo` and not yet processed.
structure System (L : JsonLib) where
  db : JSONDB L
  pc : Nat → CallerPc
  taken : List UInt64

-- One step of one thread: a caller's locked block or its `_recomputeSummaryInfo`, a record the
-- worker reads from the IPC stream, the worker's swap of the queue, or its locked round at `now`.
inductive SystemOp (L : JsonLib) where
  | saveNetwork (t : Nat) (nwid : UInt64) (j : L.Json)
  | saveNetworkMember (t : Nat) (nwid nodeId : UInt64) (j : L.Json)
  | eraseNetworkMember (t : Nat) (nwid nodeId : UInt64) (recompute : Bool)
  | eraseNetwork (t : Nat) (nwid : UInt64)
  | queue (t : Nat)
  | cascade (t : Nat)
  | finish (t : Nat)
  | add (j : L.Json)
  | swap
  | round (now : UInt64)

namespace System

def initial (db : JSONDB L) : System L := ⟨db, fun _ => .idle, []⟩

-- `none` when the thread is not at that step. The I/O each call makes outside the lock changes
-- no shadow and is left out.
def step (s : System L) : SystemOp L → Option (System L)
  | .saveNetwork t nwid j =>
      if s.pc t = .idle then
        some { s with db := s.db.setConfig nwid (L.toMsgpack j), pc := Function.update s.pc t (.queue nwid) }
      else none
  | .saveNetworkMember t nwid nodeId j =>
      if s.pc t = .idle then
        some { s with db := s.db.setMember nwid nodeId (L.toMsgpack j),
                      pc := Function.update s.pc t (.queue nwid) }
      else none
  | .eraseNetworkMember t nwid nodeId recompute =>
      if s.pc t = .idle then some { s with db := (s.db.eraseMemberLocked nwid nodeId recompute).1 }
      else none
  | .eraseNetwork t nwid =>
      if s.pc t ≠ .idle then none
      else if s.db.mode = .http then some { s with pc := Function.update s.pc t (.erasing nwid []) }
      else match s.db.memberIds nwid with
        | none => some s
        | some ids => some { s with pc := Function.update s.pc t (.erasing nwid ids) }
  | .queue t =>
      match s.pc t with
      | .queue nwid => some { s with db := s.db.recomputeSummaryInfo nwid, pc := Function.update s.pc t .idle }
      | _ => none
  | .cascade t =>
      match s.pc t with
      | .erasing nwid (nodeId :: ids) =>
          some { s with db := (s.db.eraseMemberLocked nwid nodeId false).1,
                        pc := Function.update s.pc t (.erasing nwid ids) }
      | _ => none
  | .finish t =>
      match s.pc t with
      | .erasing nwid [] =>
          some { s with db := (s.db.eraseNetworkLocked nwid).1, pc := Function.update s.pc t .idle }
      | _ => none
  | .add j =>
      if s.db.mode = .ipc ∧ s.taken = [] then some { s with db := (s.db.add j).1 } else none
  | .swap =>
      if s.taken = [] ∧ s.db.summaryThreadToDo ≠ [] then
        some { s with db := { s.db with summaryThreadToDo := [] }, taken := s.db.summaryThreadToDo }
      else none
  | .round now =>
      if s.taken ≠ [] then
        some { s with db := summaryRound ZT_NETWORK_AUTOCONF_DELAY now s.taken s.db, taken := [] }
      else none

def run (s : System L) : List (SystemOp L) → Option (System L)
  | [] => some s
  | op :: ops => (s.step ZT_NETWORK_AUTOCONF_DELAY op).bind (run · ops)

-- The states reached from `start` by steps the schedule `allowed` permits.
inductive Reach (allowed : System L → SystemOp L → Prop) (start : System L) : System L → Prop where
  | start : Reach allowed start start
  | step {s s' : System L} {op : SystemOp L} :
      Reach allowed start s → allowed s op → s.step ZT_NETWORK_AUTOCONF_DELAY op = some s' →
        Reach allowed start s'

-- Every interleaving.
def AnyStep (_ : System L) (_ : SystemOp L) : Prop := True

-- No member record comes in on the IPC stream, `eraseNetworkMember` is called with its recompute,
-- and no `eraseNetwork` throws in its final block.
def Recomputing (s : System L) : SystemOp L → Prop
  | .eraseNetworkMember _ _ _ recompute => recompute = true
  | .add j => ∀ nwid nodeId, addTarget L j ≠ some (.member nwid nodeId)
  | .finish t => ∀ nwid nw, s.pc t = .erasing nwid [] → s.db.networks.lookup nwid = some nw →
      ∃ config, L.fromMsgpack nw.config = .ok config
  | _ => True

-- No call in progress, and the worker between rounds with nothing queued.
def Quiescent (s : System L) : Prop := (∀ t, s.pc t = .idle) ∧ s.db.summaryThreadToDo = [] ∧ s.taken = []

theorem reach_of_run {allowed : System L → SystemOp L → Prop} {start s₀ s : System L}
    (ops : List (SystemOp L)) (hall : ∀ op ∈ ops, ∀ s, allowed s op)
    (h₀ : Reach ZT_NETWORK_AUTOCONF_DELAY allowed start s₀)
    (h : s₀.run ZT_NETWORK_AUTOCONF_DELAY ops = some s) : Reach ZT_NETWORK_AUTOCONF_DELAY allowed start s := by
  induction ops generalizing s₀ with
  | nil => cases h; exact h₀
  | cons op ops ih =>
    simp only [run, Option.bind_eq_some] at h
    obtain ⟨s₁, h₁, h⟩ := h
    exact ih (fun op' h' => hall op' (List.mem_cons_of_mem _ h'))
      (h₀.step (hall op (List.mem_cons_self _ _) _) h₁) h

-- Pending recomputes.

variable {s s' : System L} {w : UInt64}

-- Network `nwid` will be recomputed: it is queued, taken by the worker, or a caller is between
-- updating and queueing it, or is erasing it.
def Pending (s : System L) (nwid : UInt64) : Prop :=
  nwid ∈ s.db.summaryThreadToDo ∨ nwid ∈ s.taken ∨ ∃ t, (s.pc t).network = some nwid

-- Every network's summary is the worker's fold over its members, unless a recompute is pending.
def SummaryInv (s : System L) : Prop :=
  ∀ nwid nw, s.db.networks.lookup nwid = some nw → Fresh ZT_NETWORK_AUTOCONF_DELAY nw ∨ Pending s nwid

variable {ZT_NETWORK_AUTOCONF_DELAY}

theorem Pending.mono (hp : Pending s w)
    (htodo : ∀ w, w ∈ s.db.summaryThreadToDo → w ∈ s'.db.summaryThreadToDo)
    (htaken : s.taken = s'.taken) (hpc : s.pc = s'.pc) : Pending s' w :=
  hp.imp (htodo w) (Or.imp (htaken ▸ id) (hpc ▸ id))

-- A caller that moves from `t`'s place keeps the others' pending networks.
theorem exists_network_update {pc : Nat → CallerPc} {t : Nat} (p : CallerPc)
    (h : ∃ t', (pc t').network = some w) (hw : (pc t).network ≠ some w) :
    ∃ t', (Function.update pc t p t').network = some w := by
  obtain ⟨t', ht'⟩ := h
  refine ⟨t', ?_⟩
  rwa [Function.update_noteq]
  rintro rfl
  exact hw ht'

theorem SummaryInv.frame (h : SummaryInv ZT_NETWORK_AUTOCONF_DELAY s)
    (hnet : ∀ w nw, s'.db.networks.lookup w = some nw →
      (s.db.networks.lookup w = some nw ∧ (Pending s w → Pending s' w)) ∨
        Fresh ZT_NETWORK_AUTOCONF_DELAY nw ∨ Pending s' w) :
    SummaryInv ZT_NETWORK_AUTOCONF_DELAY s' := fun w nw hw => by
  rcases hnet w nw hw with ⟨hw₀, hp⟩ | hf | hp
  · exact (h w nw hw₀).imp_right hp
  · exact .inl hf
  · exact .inr hp

variable {t : Nat}

-- A caller's locked update of network `nwid`, which it will queue next.
theorem SummaryInv.update_queue (h : SummaryInv ZT_NETWORK_AUTOCONF_DELAY s) (hidle : s.pc t = .idle)
    {db : JSONDB L} {nwid : UInt64}
    (hne : ∀ w, w ≠ nwid → db.networks.lookup w = s.db.networks.lookup w)
    (htodo : db.summaryThreadToDo = s.db.summaryThreadToDo) :
    SummaryInv ZT_NETWORK_AUTOCONF_DELAY { s with db := db, pc := Function.update s.pc t (.queue nwid) } := by
  refine h.frame fun w nw hw => ?_
  by_cases e : w = nwid
  · exact .inr (.inr (.inr (.inr ⟨t, by simp [e, CallerPc.network]⟩)))
  · refine .inl ⟨(hne w e) ▸ hw, fun hp => ?_⟩
    rcases hp with hq | ht | hc
    · exact .inl (htodo ▸ hq)
    · exact .inr (.inl ht)
    · exact .inr (.inr (exists_network_update _ hc (by simp [hidle, CallerPc.network])))

-- A caller entering `eraseNetwork`.
theorem SummaryInv.set_pc (h : SummaryInv ZT_NETWORK_AUTOCONF_DELAY s) (hidle : s.pc t = .idle)
    (p : CallerPc) : SummaryInv ZT_NETWORK_AUTOCONF_DELAY { s with pc := Function.update s.pc t p } :=
  h.frame fun _ _ hw => .inl ⟨hw, fun hp => hp.imp_right (Or.imp_right fun hc =>
    exists_network_update _ hc (by simp [hidle, CallerPc.network]))⟩

theorem SummaryInv.eraseMemberLocked (h : SummaryInv ZT_NETWORK_AUTOCONF_DELAY s) (nwid nodeId : UInt64) :
    SummaryInv ZT_NETWORK_AUTOCONF_DELAY { s with db := (s.db.eraseMemberLocked nwid nodeId true).1 } := by
  obtain ⟨hsub, -, hq⟩ := eraseMemberLocked_queue s.db nwid nodeId true
  refine h.frame fun w nw hw => ?_
  have hkeep : Pending s w → Pending { s with db := (s.db.eraseMemberLocked nwid nodeId true).1 } w :=
    fun hp => hp.mono hsub rfl rfl
  rcases hq rfl with hnets | hmem
  · exact .inl ⟨by rwa [hnets] at hw, hkeep⟩
  · by_cases e : w = nwid
    · exact .inr (.inr (.inl (e ▸ hmem)))
    · exact .inl ⟨by rwa [lookup_eraseMemberLocked_ne _ _ _ e] at hw, hkeep⟩

theorem SummaryInv.queue (h : SummaryInv ZT_NETWORK_AUTOCONF_DELAY s) {nwid : UInt64}
    (hpc : s.pc t = .queue nwid) :
    SummaryInv ZT_NETWORK_AUTOCONF_DELAY
      { s with db := s.db.recomputeSummaryInfo nwid, pc := Function.update s.pc t .idle } := by
  refine h.frame fun w nw hw => .inl ⟨by simpa using hw, fun hp => ?_⟩
  rcases hp with hq | ht | hc
  · exact .inl ((mem_recomputeSummaryInfo _ _ _).2 (.inr hq))
  · exact .inr (.inl ht)
  · by_cases e : w = nwid
    · exact .inl ((mem_recomputeSummaryInfo _ _ _).2 (.inl e))
    · exact .inr (.inr (exists_network_update _ hc (by simp [hpc, CallerPc.network, Ne.symm e])))

theorem SummaryInv.cascade (h : SummaryInv ZT_NETWORK_AUTOCONF_DELAY s) {nwid nodeId : UInt64}
    {ids : List UInt64} (hpc : s.pc t = .erasing nwid (nodeId :: ids)) :
    SummaryInv ZT_NETWORK_AUTOCONF_DELAY
      { s with db := (s.db.eraseMemberLocked nwid nodeId false).1,
               pc := Function.update s.pc t (.erasing nwid ids) } := by
  have htodo := (eraseMemberLocked_queue s.db nwid nodeId false).2.1 rfl
  refine h.frame fun w nw hw => ?_
  by_cases e : w = nwid
  · exact .inr (.inr (.inr (.inr ⟨t, by simp [e, CallerPc.network]⟩)))
  · refine .inl ⟨by rwa [lookup_eraseMemberLocked_ne _ _ _ e] at hw, fun hp => ?_⟩
    rcases hp with hq | ht | hc
    · exact .inl (htodo ▸ hq)
    · exact .inr (.inl ht)
    · exact .inr (.inr (exists_network_update _ hc (by simp [hpc, CallerPc.network, Ne.symm e])))

-- The final block of an `eraseNetwork` that does not throw.
theorem SummaryInv.finish (h : SummaryInv ZT_NETWORK_AUTOCONF_DELAY s) {nwid : UInt64}
    (hpc : s.pc t = .erasing nwid [])
    (hdec : ∀ nw, s.db.networks.lookup nwid = some nw → ∃ config, L.fromMsgpack nw.config = .ok config) :
    SummaryInv ZT_NETWORK_AUTOCONF_DELAY
      { s with db := (s.db.eraseNetworkLocked nwid).1, pc := Function.update s.pc t .idle } := by
  have hdb : ∀ w, w ≠ nwid → (s.db.eraseNetworkLocked nwid).1.networks.lookup w = s.db.networks.lookup w ∧
      (s.db.eraseNetworkLocked nwid).1.summaryThreadToDo = s.db.summaryThreadToDo := fun w e => by
    unfold eraseNetworkLocked
    split
    · exact ⟨rfl, rfl⟩
    · split
      · exact ⟨AList.lookup_erase_ne e, rfl⟩
      · exact ⟨rfl, rfl⟩
  have hgone : (s.db.eraseNetworkLocked nwid).1.networks.lookup nwid = none := by
    unfold eraseNetworkLocked
    split
    · assumption
    · next nw hl =>
      obtain ⟨config, hc⟩ := hdec nw hl
      simp [hc, AList.lookup_erase]
  refine h.frame fun w nw hw => ?_
  have e : w ≠ nwid := by rintro rfl; simp [hgone] at hw
  refine .inl ⟨(hdb w e).1 ▸ hw, fun hp => ?_⟩
  rcases hp with hq | ht | hc
  · exact .inl ((hdb w e).2 ▸ hq)
  · exact .inr (.inl ht)
  · exact .inr (.inr (exists_network_update _ hc (by simp [hpc, CallerPc.network, Ne.symm e])))

-- A record of a network read from the IPC stream changes no member map.
theorem SummaryInv.add (h : SummaryInv ZT_NETWORK_AUTOCONF_DELAY s) {j : L.Json}
    (hj : ∀ nwid nodeId, addTarget L j ≠ some (.member nwid nodeId)) :
    SummaryInv ZT_NETWORK_AUTOCONF_DELAY { s with db := (s.db.add j).1 } := by
  unfold JSONDB.add
  split
  · next nwid ht =>
    refine h.frame fun w nw hw => ?_
    simp only [JSONDB.setConfig, lookup_modifyNetwork] at hw
    split at hw
    · next e =>
      subst e
      cases hl : s.db.networks.lookup w with
      | none =>
        rw [hl, Option.getD_none] at hw
        exact .inr (.inl (Option.some_inj.1 hw ▸ fresh_empty _ _))
      | some nw₀ =>
        rw [hl, Option.getD_some] at hw
        exact .inr (Option.some_inj.1 hw ▸ h w nw₀ hl)
    · exact .inl ⟨hw, id⟩
  · next nwid nodeId ht => exact absurd ht (hj nwid nodeId)
  · exact h

theorem SummaryInv.swap (h : SummaryInv ZT_NETWORK_AUTOCONF_DELAY s) (htaken : s.taken = []) :
    SummaryInv ZT_NETWORK_AUTOCONF_DELAY
      { s with db := { s.db with summaryThreadToDo := [] }, taken := s.db.summaryThreadToDo } :=
  h.frame fun _ _ hw => .inl ⟨hw, fun hp => by
    rcases hp with hq | ht | hc
    · exact .inr (.inl hq)
    · simp [htaken] at ht
    · exact .inr (.inr hc)⟩

theorem SummaryInv.round (h : SummaryInv ZT_NETWORK_AUTOCONF_DELAY s) (now : UInt64) :
    SummaryInv ZT_NETWORK_AUTOCONF_DELAY
      { s with db := summaryRound ZT_NETWORK_AUTOCONF_DELAY now s.taken s.db, taken := [] } := by
  refine h.frame fun w nw hw => ?_
  simp only [lookup_summaryRound] at hw
  split at hw
  · obtain ⟨nw₀, -, rfl⟩ := Option.map_eq_some'.1 hw
    exact .inr (.inl (fresh_recompute _ _ _))
  · next hw' =>
    refine .inl ⟨hw, fun hp => ?_⟩
    rcases hp with hq | ht | hc
    · exact .inl (by simpa using hq)
    · exact absurd ht hw'
    · exact .inr (.inr hc)

theorem SummaryInv.step (h : SummaryInv ZT_NETWORK_AUTOCONF_DELAY s) {op : SystemOp L}
    (ha : Recomputing s op) (hs : s.step ZT_NETWORK_AUTOCONF_DELAY op = some s') :
    SummaryInv ZT_NETWORK_AUTOCONF_DELAY s' := by
  cases op <;> simp only [System.step] at hs
  case saveNetwork t nwid j =>
    split_ifs at hs with hidle
    cases hs
    exact h.update_queue hidle (fun w e => by simp [JSONDB.setConfig, lookup_modifyNetwork, e]) rfl
  case saveNetworkMember t nwid nodeId j =>
    split_ifs at hs with hidle
    cases hs
    exact h.update_queue hidle (fun w e => by simp [JSONDB.setMember, lookup_modifyNetwork, e]) rfl
  case eraseNetworkMember t nwid nodeId recompute =>
    split_ifs at hs
    cases hs
    obtain rfl : recompute = true := ha
    exact h.eraseMemberLocked nwid nodeId
  case eraseNetwork t nwid =>
    split_ifs at hs with hbusy
    · cases hs; exact h.set_pc (not_not.1 hbusy) _
    · split at hs
      · cases hs; exact h
      · cases hs; exact h.set_pc (not_not.1 hbusy) _
  case queue t =>
    split at hs
    · cases hs; exact h.queue ‹_›
    · cases hs
  case cascade t =>
    split at hs
    · cases hs; exact h.cascade ‹_›
    · cases hs
  case finish t =>
    split at hs
    · next nwid hpc => cases hs; exact h.finish hpc (ha nwid · hpc)
    · cases hs
  case add j =>
    split_ifs at hs
    cases hs
    exact h.add ha
  case swap =>
    split_ifs at hs with hswap
    cases hs
    exact h.swap hswap.1
  case round now =>
    split_ifs at hs
    cases hs
    exact h.round now

theorem SummaryInv.start {db : JSONDB L} (h : ∀ nwid ∈ db.networks, nwid ∈ db.summaryThreadToDo) :
    SummaryInv ZT_NETWORK_AUTOCONF_DELAY (System.initial db) := fun nwid _ hl =>
  .inr (.inl (h nwid (AList.lookup_isSome.1 (Option.isSome_iff_exists.2 ⟨_, hl⟩))))

-- With nothing pending, every summary is fresh.
theorem SummaryInv.fresh (h : SummaryInv ZT_NETWORK_AUTOCONF_DELAY s) (hq : s.Quiescent)
    {nwid : UInt64} {nw : NW L} (hl : s.db.networks.lookup nwid = some nw) :
    Fresh ZT_NETWORK_AUTOCONF_DELAY nw :=
  (h nwid nw hl).resolve_right fun hp => by
    rcases hp with hq' | ht | ⟨t, ht⟩
    · simp [hq.2.1] at hq'
    · simp [hq.2.2] at ht
    · simp [hq.1 t, CallerPc.network] at ht

end System

-- The constructor queues every network it loads.
theorem queued_construct (basePath : List String) (files : AList (fun _ : List String => L.Text)) :
    ∀ nwid ∈ (construct basePath files).networks, nwid ∈ (construct basePath files).summaryThreadToDo :=
  fun _ h => AList.mem_keys.1 h

-- A member record read from the IPC stream lands in a network no call queues: with nothing left to
-- do, its summary still counts no member. No round runs, so the delay plays no part.
theorem streamed_member_leaves_summary_stale :
    ∃ s : System JsonLib.fieldJson,
      System.Reach 0 System.AnyStep (System.initial (fresh .ipc [])) s ∧ s.Quiescent ∧
        ∃ nw, s.db.networks.lookup 1 = some nw ∧
          ∀ D, nw.summaryInfo ≠ summarize D nw.summaryInfoLastComputed nw.members := by
  have ht : addTarget JsonLib.fieldJson (memberRecordJson 1 1) = some (.member 1 1) :=
    addTarget_of_memberRecord (@memberRecord_fieldJson 1 1 (by decide) (by decide) (by decide))
  refine ⟨⟨(fresh .ipc [] : JSONDB JsonLib.fieldJson).setMember 1 1 (some (memberRecordJson 1 1)),
      fun _ => .idle, []⟩, System.reach_of_run 0 [.add (memberRecordJson 1 1)] (fun _ _ _ => trivial)
      .start ?_, ⟨fun _ => rfl, rfl, rfl⟩,
    { NW.empty JsonLib.fieldJson with
      members := (NW.empty JsonLib.fieldJson).members.insert 1 (some (memberRecordJson 1 1)) },
    ?_, fun D h => ?_⟩
  · simp [System.run, System.step, System.initial, add, ht, fresh]
    rfl
  · simp [JSONDB.setMember, lookup_modifyNetwork, fresh, AList.lookup_empty]
  · have hauth : [("id", formatHex 10 1), ("nwid", formatHex 16 1), ("objtype", "member")].lookup
        "authorized" = none := by decide
    have hdeauth : [("id", formatHex 10 1), ("nwid", formatHex 16 1), ("objtype", "member")].lookup
        "lastDeauthorizedTime" = none := by decide
    have hcount := congrArg NetworkSummaryInfo.totalMemberCount h
    simp [summarize, summarizeMember, NW.empty, NetworkSummaryInfo.empty, JsonLib.fieldJson,
      memberRecordJson, hauth, hdeauth] at hcount

end JSONDB

end ZeroTier
