import ZeroTier.Controller.Json
import Mathlib.Data.List.AList
import Mathlib.Data.Finset.Basic

namespace ZeroTier

-- The three ways `JSONDB` runs, chosen by its base path: a directory, an `http://` harness, or
-- `-` for the IPC stream.
inductive Mode where
  | filesystem
  | http
  | ipc
  deriving DecidableEq, Repr

/-- Modelled from the spec: JSONDB.hpp is not among the sources. The summary the worker derives
for one network. -/
structure NetworkSummaryInfo where
  activeBridges : List Address
  allocatedIps : List InetAddress
  authorizedMemberCount : Nat
  activeMemberCount : Nat
  totalMemberCount : Nat
  mostRecentDeauthTime : UInt64
  deriving DecidableEq, Repr

def NetworkSummaryInfo.empty : NetworkSummaryInfo := ⟨[], [], 0, 0, 0, 0⟩

/-- Modelled from the spec: `_NW`, one network's shadow: its config and each member as
MessagePack, and the summary with the time it was computed. -/
structure NW (L : JsonLib) where
  config : L.Packed
  summaryInfo : NetworkSummaryInfo
  summaryInfoLastComputed : UInt64
  members : AList (fun _ : UInt64 => L.Packed)

-- A default-constructed `_NW`, as `_networks[nwid]` creates it.
def NW.empty (L : JsonLib) : NW L := ⟨L.emptyPacked, .empty, 0, ∅⟩

-- The store: its mode, `_basePath` as path components, `_networks`, `_members` (the networks
-- each member id belongs to) and `_summaryThreadToDo`.
structure JSONDB (L : JsonLib) where
  mode : Mode
  basePath : List String
  networks : AList (fun _ : UInt64 => NW L)
  members : UInt64 → Finset UInt64
  summaryThreadToDo : List UInt64

-- What persists outside the process: the files (filesystem mode) by path components, and the
-- harness's objects (HTTP mode) by name.
structure Store (L : JsonLib) where
  files : AList (fun _ : List String => L.Text)
  remote : List String → Option L.Text

-- The names `saveNetwork`, `saveNetworkMember` and the erasures pass to `writeRaw` and
-- `_genPath`, as the components `OSUtils::split(n, "/")` returns.
def networkName (nwid : UInt64) : List String := ["network", formatHex 16 nwid]

def memberName (nwid nodeId : UInt64) : List String :=
  ["network", formatHex 16 nwid, "member", formatHex 10 nodeId]

-- `_genPath(n, create)` outside HTTP mode: the base path, the name's directories, and its last
-- component with `.json` appended; `none` for an empty name.
def genPath (basePath n : List String) : Option (List String) :=
  n.getLast?.map fun last => basePath ++ n.dropLast ++ [last ++ ".json"]

namespace JSONDB

variable {L : JsonLib}

-- The store as its constructor starts, before anything is loaded.
def fresh (mode : Mode) (basePath : List String) : JSONDB L := ⟨mode, basePath, ∅, fun _ => ∅, []⟩

-- `_networks[nwid]` updated through `f`, created empty if absent.
def modifyNetwork (db : JSONDB L) (nwid : UInt64) (f : NW L → NW L) : JSONDB L :=
  { db with networks := db.networks.insert nwid (f ((db.networks.lookup nwid).getD (NW.empty L))) }

@[simp] theorem mode_modifyNetwork (db : JSONDB L) (nwid : UInt64) (f : NW L → NW L) :
    (db.modifyNetwork nwid f).mode = db.mode := rfl

@[simp] theorem basePath_modifyNetwork (db : JSONDB L) (nwid : UInt64) (f : NW L → NW L) :
    (db.modifyNetwork nwid f).basePath = db.basePath := rfl

@[simp] theorem members_modifyNetwork (db : JSONDB L) (nwid : UInt64) (f : NW L → NW L) :
    (db.modifyNetwork nwid f).members = db.members := rfl

theorem lookup_modifyNetwork (db : JSONDB L) (nwid : UInt64) (f : NW L → NW L) (w : UInt64) :
    (db.modifyNetwork nwid f).networks.lookup w =
      if w = nwid then some (f ((db.networks.lookup nwid).getD (NW.empty L)))
      else db.networks.lookup w := by
  by_cases h : w = nwid
  · subst h; simp [modifyNetwork, AList.lookup_insert]
  · simp [modifyNetwork, AList.lookup_insert_ne h, h]

-- `_networks[nwid].config = config`
def setConfig (db : JSONDB L) (nwid : UInt64) (config : L.Packed) : JSONDB L :=
  db.modifyNetwork nwid fun nw => { nw with config := config }

-- `_networks[nwid].members[nodeId] = bytes; _members[nodeId].insert(nwid);`
def setMember (db : JSONDB L) (nwid nodeId : UInt64) (bytes : L.Packed) : JSONDB L :=
  { db.modifyNetwork nwid (fun nw => { nw with members := nw.members.insert nodeId bytes }) with
    members := Function.update db.members nodeId (insert nwid (db.members nodeId)) }

@[simp] theorem mode_setMember (db : JSONDB L) (nwid nodeId : UInt64) (bytes : L.Packed) :
    (db.setMember nwid nodeId bytes).mode = db.mode := rfl

@[simp] theorem basePath_setMember (db : JSONDB L) (nwid nodeId : UInt64) (bytes : L.Packed) :
    (db.setMember nwid nodeId bytes).basePath = db.basePath := rfl

-- `_recomputeSummaryInfo`: queue the network once.
def recomputeSummaryInfo (db : JSONDB L) (nwid : UInt64) : JSONDB L :=
  if nwid ∈ db.summaryThreadToDo then db
  else { db with summaryThreadToDo := db.summaryThreadToDo ++ [nwid] }

@[simp] theorem networks_recomputeSummaryInfo (db : JSONDB L) (nwid : UInt64) :
    (db.recomputeSummaryInfo nwid).networks = db.networks := by
  unfold recomputeSummaryInfo; split <;> rfl

@[simp] theorem members_recomputeSummaryInfo (db : JSONDB L) (nwid : UInt64) :
    (db.recomputeSummaryInfo nwid).members = db.members := by
  unfold recomputeSummaryInfo; split <;> rfl

@[simp] theorem mode_recomputeSummaryInfo (db : JSONDB L) (nwid : UInt64) :
    (db.recomputeSummaryInfo nwid).mode = db.mode := by
  unfold recomputeSummaryInfo; split <;> rfl

@[simp] theorem basePath_recomputeSummaryInfo (db : JSONDB L) (nwid : UInt64) :
    (db.recomputeSummaryInfo nwid).basePath = db.basePath := by
  unfold recomputeSummaryInfo; split <;> rfl

def hasNetwork (db : JSONDB L) (nwid : UInt64) : Bool := (db.networks.lookup nwid).isSome

def getNetwork (db : JSONDB L) (nwid : UInt64) : Except Unit (Option L.Json) :=
  match db.networks.lookup nwid with
  | none => .ok none
  | some nw => some <$> L.fromMsgpack nw.config

def getNetworkSummaryInfo (db : JSONDB L) (nwid : UInt64) : Option NetworkSummaryInfo :=
  (db.networks.lookup nwid).map (·.summaryInfo)

-- `0`, `1` or `3`, with the two configs and the summary on `3`.
def getNetworkAndMember (db : JSONDB L) (nwid nodeId : UInt64) :
    Except Unit (Nat × Option (L.Json × L.Json × NetworkSummaryInfo)) :=
  match db.networks.lookup nwid with
  | none => .ok (0, none)
  | some nw =>
      match nw.members.lookup nodeId with
      | none => .ok (1, none)
      | some bytes => do
          let networkConfig ← L.fromMsgpack nw.config
          let memberConfig ← L.fromMsgpack bytes
          pure (3, some (networkConfig, memberConfig, nw.summaryInfo))

def getNetworkMember (db : JSONDB L) (nwid nodeId : UInt64) : Except Unit (Option L.Json) :=
  match db.networks.lookup nwid with
  | none => .ok none
  | some nw =>
      match nw.members.lookup nodeId with
      | none => .ok none
      | some bytes => some <$> L.fromMsgpack bytes

-- `writeRaw(n, obj)`; `ok` is whether the stream write, the PUT or the file write succeeds. What
-- the IPC stream carries is not kept.
def writeRaw (db : JSONDB L) (store : Store L) (n : List String) (obj : L.Text) (ok : Bool) :
    Store L × Bool :=
  match db.mode with
  | .ipc => (store, !L.textNonempty obj || ok)
  | .http => (if ok then { store with remote := Function.update store.remote n (some obj) } else store, ok)
  | .filesystem =>
      match genPath db.basePath n with
      | none => (store, false)
      | some path => (if ok then { store with files := store.files.insert path obj } else store, ok)

/-- Modelled from the spec: a DEL to the harness removes the object and, for a network, its
members ("in HTTP harness mode, the external system cascades"). -/
def harnessDelete (remote : List String → Option L.Text) (n : List String) :
    List String → Option L.Text :=
  fun k => if n <+: k then none else remote k

-- The removal the erasures make outside the lock: none in IPC mode, a DEL to the harness, or `rm`
-- of the file; `ok` is whether it succeeds.
def removeRaw (db : JSONDB L) (store : Store L) (n : List String) (ok : Bool) : Store L :=
  if !ok then store
  else match db.mode with
    | .ipc => store
    | .http => { store with remote := harnessDelete store.remote n }
    | .filesystem =>
        match genPath db.basePath n with
        | none => store
        | some path => { store with files := store.files.erase path }

def saveNetwork (db : JSONDB L) (store : Store L) (ok : Bool) (nwid : UInt64) (j : L.Json) :
    JSONDB L × Store L :=
  let (store, _) := db.writeRaw store (networkName nwid) (L.jsonDump j) ok
  ((db.setConfig nwid (L.toMsgpack j)).recomputeSummaryInfo nwid, store)

def saveNetworkMember (db : JSONDB L) (store : Store L) (ok : Bool) (nwid nodeId : UInt64)
    (j : L.Json) : JSONDB L × Store L :=
  let (store, _) := db.writeRaw store (memberName nwid nodeId) (L.jsonDump j) ok
  ((db.setMember nwid nodeId (L.toMsgpack j)).recomputeSummaryInfo nwid, store)

-- The locked block of `eraseNetworkMember`: the member as `nlohmann::json` built from its stored
-- vector, or the empty object.
def eraseMemberLocked (db : JSONDB L) (nwid nodeId : UInt64) (recompute : Bool) :
    JSONDB L × L.Json :=
  let db := { db with members := Function.update db.members nodeId ((db.members nodeId).erase nwid) }
  match db.networks.lookup nwid with
  | none => (db, L.emptyObject)
  | some nw =>
      match nw.members.lookup nodeId with
      | none => (db, L.emptyObject)
      | some bytes =>
          let db := { db with
            networks := db.networks.insert nwid { nw with members := nw.members.erase nodeId } }
          (if recompute then db.recomputeSummaryInfo nwid else db, L.ofPacked bytes)

-- What the locked block does to the maps: the member leaves its network if it is there, and the
-- network always leaves the member's entry of `_members`.
theorem networks_eraseMemberLocked (db : JSONDB L) (nwid nodeId : UInt64) (recompute : Bool) :
    (db.eraseMemberLocked nwid nodeId recompute).1.networks =
      match db.networks.lookup nwid with
      | some nw => if nodeId ∈ nw.members then
          db.networks.insert nwid { nw with members := nw.members.erase nodeId }
        else db.networks
      | none => db.networks := by
  unfold eraseMemberLocked
  dsimp only
  split
  · next h => simp [h]
  · next nw h =>
    rw [h]
    split
    · next hm => simp [AList.lookup_eq_none.1 hm]
    · next bytes hm =>
      have : nodeId ∈ nw.members := AList.lookup_isSome.1 (by simp [hm])
      split <;> simp [this]

theorem members_eraseMemberLocked (db : JSONDB L) (nwid nodeId : UInt64) (recompute : Bool) :
    (db.eraseMemberLocked nwid nodeId recompute).1.members =
      Function.update db.members nodeId ((db.members nodeId).erase nwid) := by
  unfold eraseMemberLocked
  dsimp only
  split
  · rfl
  · split
    · rfl
    · split <;> simp

@[simp] theorem mode_eraseMemberLocked (db : JSONDB L) (nwid nodeId : UInt64) (recompute : Bool) :
    (db.eraseMemberLocked nwid nodeId recompute).1.mode = db.mode := by
  unfold eraseMemberLocked
  dsimp only
  split
  · rfl
  · split
    · rfl
    · split <;> simp

@[simp] theorem basePath_eraseMemberLocked (db : JSONDB L) (nwid nodeId : UInt64)
    (recompute : Bool) : (db.eraseMemberLocked nwid nodeId recompute).1.basePath = db.basePath := by
  unfold eraseMemberLocked
  dsimp only
  split
  · rfl
  · split
    · rfl
    · split <;> simp

theorem lookup_eraseMemberLocked_ne (db : JSONDB L) {nwid w : UInt64} (nodeId : UInt64)
    (recompute : Bool) (h : w ≠ nwid) :
    (db.eraseMemberLocked nwid nodeId recompute).1.networks.lookup w = db.networks.lookup w := by
  rw [networks_eraseMemberLocked]
  split
  · split
    · exact AList.lookup_insert_ne h
    · rfl
  · rfl

theorem config_eraseMemberLocked (db : JSONDB L) (nwid nodeId : UInt64) (recompute : Bool) :
    ((db.eraseMemberLocked nwid nodeId recompute).1.networks.lookup nwid).map (·.config) =
      (db.networks.lookup nwid).map (·.config) := by
  rw [networks_eraseMemberLocked]
  split
  · next nw h =>
    split
    · simp [AList.lookup_insert, h]
    · rfl
  · rfl

def eraseNetworkMember (db : JSONDB L) (store : Store L) (ok : Bool) (nwid nodeId : UInt64)
    (recompute : Bool) : JSONDB L × Store L × L.Json :=
  let store := db.removeRaw store (memberName nwid nodeId) ok
  let (db, j) := db.eraseMemberLocked nwid nodeId recompute
  (db, store, j)

-- The member ids `eraseNetwork` collects under the lock; `none` when the network is absent.
def memberIds (db : JSONDB L) (nwid : UInt64) : Option (List UInt64) :=
  (db.networks.lookup nwid).map (·.members.keys)

-- The final locked block of `eraseNetwork`: the config is decoded, which may throw, before the
-- network is erased.
def eraseNetworkLocked (db : JSONDB L) (nwid : UInt64) : JSONDB L × Except Unit L.Json :=
  match db.networks.lookup nwid with
  | none => (db, .ok L.emptyObject)
  | some nw =>
      match L.fromMsgpack nw.config with
      | .ok tmp => ({ db with networks := db.networks.erase nwid }, .ok tmp)
      | .error e => (db, .error e)

-- `eraseNetworkMember(nwid, id, false)` for each id in turn, as `eraseNetwork` cascades.
def eraseMembers (db : JSONDB L) (store : Store L) (ok : List String → Bool) (nwid : UInt64)
    (ids : List UInt64) : JSONDB L × Store L :=
  ids.foldl (fun acc nodeId =>
    let r := acc.1.eraseNetworkMember acc.2 (ok (memberName nwid nodeId)) nwid nodeId false
    (r.1, r.2.1)) (db, store)

@[simp] theorem mode_eraseMembers (db : JSONDB L) (store : Store L) (ok : List String → Bool)
    (nwid : UInt64) (ids : List UInt64) : (db.eraseMembers store ok nwid ids).1.mode = db.mode := by
  induction ids generalizing db store with
  | nil => rfl
  | cons nodeId ids ih => simp [eraseMembers, List.foldl_cons, eraseNetworkMember] at ih ⊢; rw [ih]; simp

@[simp] theorem basePath_eraseMembers (db : JSONDB L) (store : Store L) (ok : List String → Bool)
    (nwid : UInt64) (ids : List UInt64) :
    (db.eraseMembers store ok nwid ids).1.basePath = db.basePath := by
  induction ids generalizing db store with
  | nil => rfl
  | cons nodeId ids ih => simp [eraseMembers, List.foldl_cons, eraseNetworkMember] at ih ⊢; rw [ih]; simp

theorem lookup_eraseMembers_ne (db : JSONDB L) (store : Store L) (ok : List String → Bool)
    {nwid w : UInt64} (ids : List UInt64) (h : w ≠ nwid) :
    (db.eraseMembers store ok nwid ids).1.networks.lookup w = db.networks.lookup w := by
  induction ids generalizing db store with
  | nil => rfl
  | cons nodeId ids ih =>
    simp only [eraseMembers, List.foldl_cons] at ih ⊢
    rw [ih, eraseNetworkMember, lookup_eraseMemberLocked_ne _ _ _ h]

theorem config_eraseMembers (db : JSONDB L) (store : Store L) (ok : List String → Bool)
    (nwid : UInt64) (ids : List UInt64) :
    ((db.eraseMembers store ok nwid ids).1.networks.lookup nwid).map (·.config) =
      (db.networks.lookup nwid).map (·.config) := by
  induction ids generalizing db store with
  | nil => rfl
  | cons nodeId ids ih =>
    simp only [eraseMembers, List.foldl_cons] at ih ⊢
    rw [ih, eraseNetworkMember, config_eraseMemberLocked]

@[simp] theorem mode_eraseNetworkLocked (db : JSONDB L) (nwid : UInt64) :
    (db.eraseNetworkLocked nwid).1.mode = db.mode := by
  unfold eraseNetworkLocked
  split
  · rfl
  · split <;> rfl

@[simp] theorem basePath_eraseNetworkLocked (db : JSONDB L) (nwid : UInt64) :
    (db.eraseNetworkLocked nwid).1.basePath = db.basePath := by
  unfold eraseNetworkLocked
  split
  · rfl
  · split <;> rfl

-- `eraseNetwork`; `ok` says which removals succeed. Outside HTTP mode the members are erased
-- first, each without a recompute. A throw leaves the state as it was at the throw.
def eraseNetwork (db : JSONDB L) (store : Store L) (ok : List String → Bool) (nwid : UInt64) :
    JSONDB L × Store L × Except Unit L.Json :=
  let cascade : Option (JSONDB L × Store L) :=
    if db.mode = .http then some (db, store)
    else (db.memberIds nwid).map (db.eraseMembers store ok nwid)
  match cascade with
  | none => (db, store, .ok L.emptyObject)
  | some (db', store') =>
      let store' := db'.removeRaw store' (networkName nwid) (ok (networkName nwid))
      let r := db'.eraseNetworkLocked nwid
      (r.1, store', r.2)

@[simp] theorem mode_eraseNetwork (db : JSONDB L) (store : Store L) (ok : List String → Bool)
    (nwid : UInt64) : (db.eraseNetwork store ok nwid).1.mode = db.mode := by
  unfold eraseNetwork
  by_cases hm : db.mode = .http
  · simp [hm]
  · cases hid : db.memberIds nwid <;> simp [hm, hid]

@[simp] theorem basePath_eraseNetwork (db : JSONDB L) (store : Store L) (ok : List String → Bool)
    (nwid : UInt64) : (db.eraseNetwork store ok nwid).1.basePath = db.basePath := by
  unfold eraseNetwork
  by_cases hm : db.mode = .http
  · simp [hm]
  · cases hid : db.memberIds nwid <;> simp [hm, hid]

-- Whatever the mode, `eraseNetwork` ends in its final locked block, on a state whose networks
-- differ from the start only in the members of `nwid`.
theorem eraseNetwork_eq (db : JSONDB L) (store : Store L) (ok : List String → Bool)
    (nwid : UInt64) :
    ∃ db' : JSONDB L, (∀ w, w ≠ nwid → db'.networks.lookup w = db.networks.lookup w) ∧
      (db'.networks.lookup nwid).map (·.config) = (db.networks.lookup nwid).map (·.config) ∧
      (db.eraseNetwork store ok nwid).1 = (db'.eraseNetworkLocked nwid).1 ∧
      (db.eraseNetwork store ok nwid).2.2 = (db'.eraseNetworkLocked nwid).2 := by
  by_cases hm : db.mode = .http
  · refine ⟨db, fun _ _ => rfl, rfl, ?_, ?_⟩ <;> simp [eraseNetwork, hm]
  · cases hid : db.memberIds nwid with
    | none =>
      have hn : db.networks.lookup nwid = none := by simpa [memberIds] using hid
      refine ⟨db, fun _ _ => rfl, rfl, ?_, ?_⟩ <;>
        simp [eraseNetwork, hm, hid, eraseNetworkLocked, hn]
    | some ids =>
      refine ⟨(db.eraseMembers store ok nwid ids).1,
        fun w hw => lookup_eraseMembers_ne _ _ _ _ hw, config_eraseMembers _ _ _ _ _, ?_, ?_⟩ <;>
        simp [eraseNetwork, hm, hid]

-- Where `_add` puts a record: a network by its 16-digit id, or a member by its 10-digit id and
-- `nwid`, each non-zero.
inductive AddTarget where
  | network (nwid : UInt64)
  | member (nwid nodeId : UInt64)
  deriving DecidableEq, Repr

-- The checks of `_add`.
def addTarget (L : JsonLib) (j : L.Json) : Option AddTarget :=
  if L.isObject j then
    let id := L.jsonString (L.get j "id") "0"
    let objtype := L.jsonString (L.get j "objtype") ""
    if id.utf8ByteSize = 16 ∧ objtype = "network" then
      let nwid := hexStrToU64 id
      if nwid ≠ 0 then some (.network nwid) else none
    else if id.utf8ByteSize = 10 ∧ objtype = "member" then
      let mid := hexStrToU64 id
      let nwid := hexStrToU64 (L.jsonString (L.get j "nwid") "0")
      if mid ≠ 0 ∧ nwid ≠ 0 then some (.member nwid mid) else none
    else none
  else none

-- `_add`, which schedules no recompute.
def add (db : JSONDB L) (j : L.Json) : JSONDB L × Bool :=
  match addTarget L j with
  | some (.network nwid) => (db.setConfig nwid (L.toMsgpack j), true)
  | some (.member nwid nodeId) => (db.setMember nwid nodeId (L.toMsgpack j), true)
  | none => (db, false)

-- The public calls of the store, each as one step of one caller.
inductive Call (L : JsonLib) where
  | hasNetwork (nwid : UInt64)
  | getNetwork (nwid : UInt64)
  | getNetworkAndMember (nwid nodeId : UInt64)
  | getNetworkMember (nwid nodeId : UInt64)
  | saveNetwork (nwid : UInt64) (j : L.Json)
  | saveNetworkMember (nwid nodeId : UInt64) (j : L.Json)
  | eraseNetwork (nwid : UInt64)
  | eraseNetworkMember (nwid nodeId : UInt64) (recompute : Bool)
  | add (j : L.Json)

-- What a call returns: a flag, an optional record, the tri-state with both configs, an erased
-- record, or nothing.
inductive Reply (L : JsonLib) where
  | flag (b : Bool)
  | json (j : Option L.Json)
  | networkAndMember (code : Nat) (configs : Option (L.Json × L.Json))
  | erased (j : L.Json)
  | done

-- One call; `ok` says which of its writes and removals succeed, and a throw is an error reply.
def call (db : JSONDB L) (store : Store L) (ok : List String → Bool) :
    Call L → JSONDB L × Store L × Except Unit (Reply L)
  | .hasNetwork nwid => (db, store, .ok (.flag (db.hasNetwork nwid)))
  | .getNetwork nwid => (db, store, Reply.json <$> db.getNetwork nwid)
  | .getNetworkAndMember nwid nodeId =>
      (db, store, (fun r => .networkAndMember r.1 (r.2.map fun c => (c.1, c.2.1))) <$>
        db.getNetworkAndMember nwid nodeId)
  | .getNetworkMember nwid nodeId => (db, store, Reply.json <$> db.getNetworkMember nwid nodeId)
  | .saveNetwork nwid j =>
      let r := db.saveNetwork store (ok (networkName nwid)) nwid j
      (r.1, r.2, .ok .done)
  | .saveNetworkMember nwid nodeId j =>
      let r := db.saveNetworkMember store (ok (memberName nwid nodeId)) nwid nodeId j
      (r.1, r.2, .ok .done)
  | .eraseNetwork nwid =>
      let r := db.eraseNetwork store ok nwid
      (r.1, r.2.1, Reply.erased <$> r.2.2)
  | .eraseNetworkMember nwid nodeId recompute =>
      let r := db.eraseNetworkMember store (ok (memberName nwid nodeId)) nwid nodeId recompute
      (r.1, r.2.1, .ok (.erased r.2.2))
  | .add j => ((db.add j).1, store, .ok (.flag (db.add j).2))

@[simp] theorem mode_call (db : JSONDB L) (store : Store L) (ok : List String → Bool) (c : Call L) :
    (db.call store ok c).1.mode = db.mode := by
  cases c with
  | add j =>
    show (db.add j).1.mode = db.mode
    unfold add
    split <;> rfl
  | _ => simp [call, saveNetwork, saveNetworkMember, eraseNetworkMember] <;> rfl

@[simp] theorem basePath_call (db : JSONDB L) (store : Store L) (ok : List String → Bool)
    (c : Call L) : (db.call store ok c).1.basePath = db.basePath := by
  cases c with
  | add j =>
    show (db.add j).1.basePath = db.basePath
    unfold add
    split <;> rfl
  | _ => simp [call, saveNetwork, saveNetworkMember, eraseNetworkMember] <;> rfl

-- A sequence of calls, each with its I/O outcomes: the final state and every reply.
def run (db : JSONDB L) (store : Store L) :
    List (Call L × (List String → Bool)) → JSONDB L × Store L × List (Except Unit (Reply L))
  | [] => (db, store, [])
  | (c, ok) :: calls =>
      let s := db.call store ok c
      let rest := run s.1 s.2.1 calls
      (rest.1, rest.2.1, s.2.2 :: rest.2.2)

end JSONDB

end ZeroTier
