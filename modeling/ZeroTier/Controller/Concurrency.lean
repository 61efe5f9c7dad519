import ZeroTier.Controller.Persistence

namespace ZeroTier

namespace JSONDB

variable {L : JsonLib}

-- The keys of the store and what storage holds under them.

-- A network's config or one member's record.
inductive Key where
  | network (nwid : UInt64)
  | member (nwid nodeId : UInt64)
  deriving DecidableEq, Repr

-- The name `writeRaw` and the erasures pass for a key.
def Key.name : Key → List String
  | .network nwid => networkName nwid
  | .member nwid nodeId => memberName nwid nodeId

def Key.nwid : Key → UInt64
  | .network nwid | .member nwid _ => nwid

@[simp] theorem Key.nwid_network (nwid : UInt64) : (Key.network nwid).nwid = nwid := rfl

@[simp] theorem Key.nwid_member (nwid nodeId : UInt64) : (Key.member nwid nodeId).nwid = nwid := rfl

-- The file `_genPath` gives a key.
def Key.path (basePath : List String) : Key → List String
  | .network nwid => networkPath basePath nwid
  | .member nwid nodeId => memberPath basePath nwid nodeId

@[simp] theorem genPath_name (basePath : List String) (k : Key) :
    genPath basePath k.name = some (k.path basePath) := by
  cases k <;> simp [Key.name, Key.path]

theorem Key.path_inj (basePath : List String) {k k' : Key} :
    k.path basePath = k'.path basePath ↔ k = k' := by
  cases k <;> cases k' <;> simp [Key.path]

theorem Key.name_inj {k k' : Key} : k.name = k'.name ↔ k = k' := by
  cases k <;> cases k' <;>
    simp [Key.name, networkName, memberName, (formatHex_injective 16).eq_iff,
      (formatHex_injective 10).eq_iff]

end JSONDB

namespace AbstractStore

variable {L : JsonLib} (M : AbstractStore L)

-- The abstract store's content under a key.
def atKey : JSONDB.Key → Option L.Json
  | .network nwid => (M.lookup nwid).map (·.config)
  | .member nwid nodeId => M.member nwid nodeId

theorem atKey_congr {M' : AbstractStore L} {k : JSONDB.Key}
    (h : M'.lookup k.nwid = M.lookup k.nwid) : M'.atKey k = M.atKey k := by
  cases k <;> simp_all [atKey, member, JSONDB.Key.nwid]

theorem atKey_saveConfig (nwid : UInt64) (j : L.Json) (k : JSONDB.Key) :
    (M.saveConfig nwid j).atKey k = if k = .network nwid then some j else M.atKey k := by
  cases k with
  | network w =>
    by_cases e : w = nwid
    · subst e; simp [atKey, saveConfig, AList.lookup_insert]
    · simp [atKey, e, lookup_saveConfig_ne M nwid j e]
  | member w m => simp [atKey, member_saveConfig]

theorem atKey_saveMember {nwid : UInt64} (hmem : nwid ∈ M) (nodeId : UInt64) (j : L.Json)
    (k : JSONDB.Key) :
    (M.saveMember nwid nodeId j).atKey k =
      if k = .member nwid nodeId then some j else M.atKey k := by
  cases k <;> simp [atKey, config_saveMember, member_saveMember M hmem]

theorem atKey_eraseMember (nwid nodeId : UInt64) (k : JSONDB.Key) :
    (M.eraseMember nwid nodeId).atKey k = if k = .member nwid nodeId then none else M.atKey k := by
  cases k <;> simp [atKey, config_eraseMember, member_eraseMember]

theorem atKey_erase (nwid : UInt64) (k : JSONDB.Key) :
    atKey (M.erase nwid) k = if k.nwid = nwid then none else M.atKey k := by
  by_cases e : k.nwid = nwid
  · cases k <;> simp only [JSONDB.Key.nwid] at e <;> subst e <;>
      simp [atKey, member, AList.lookup_erase]
  · rw [if_neg e]
    exact atKey_congr M (AList.lookup_erase_ne e)

end AbstractStore

namespace JSONDB

variable {L : JsonLib}

-- What storage holds under a key: the file in filesystem mode, the harness's object in HTTP mode.
def readKey (db : JSONDB L) (store : Store L) (k : Key) : Option L.Text :=
  match db.mode with
  | .filesystem => store.files.lookup (k.path db.basePath)
  | .http => store.remote k.name
  | .ipc => none

-- The shadow's content under a key.
def shadowKey (db : JSONDB L) : Key → Option L.Packed
  | .network nwid => (db.networks.lookup nwid).map (·.config)
  | .member nwid nodeId => (db.networks.lookup nwid).bind (·.members.lookup nodeId)

section Storage

variable {db : JSONDB L} (store : Store L)

theorem readKey_writeRaw (hmode : db.mode ≠ .ipc) (k : Key) (obj : L.Text) (k' : Key) :
    readKey db (db.writeRaw store k.name obj true).1 k' =
      if k' = k then some obj else readKey db store k' := by
  unfold readKey writeRaw
  cases hm : db.mode with
  | ipc => exact absurd hm hmode
  | http =>
    by_cases e : k' = k
    · simp [e]
    · simp [e, Function.update_noteq (mt Key.name_inj.1 e)]
  | filesystem =>
    by_cases e : k' = k
    · subst e; simp [AList.lookup_insert]
    · simp [e, AList.lookup_insert_ne (mt (Key.path_inj _).1 e)]

theorem readKey_removeRaw_member (hmode : db.mode ≠ .ipc) (nwid nodeId : UInt64) (k' : Key) :
    readKey db (db.removeRaw store (memberName nwid nodeId) true) k' =
      if k' = .member nwid nodeId then none else readKey db store k' := by
  unfold readKey removeRaw
  cases hm : db.mode with
  | ipc => exact absurd hm hmode
  | http =>
    by_cases e : k' = .member nwid nodeId
    · subst e; simp [harnessDelete, Key.name]
    · simp only [e, if_false, Bool.not_true, Bool.false_eq_true, harnessDelete]
      rw [if_neg]
      intro hp
      cases k' with
      | network w => simpa [Key.name, networkName, memberName] using hp.length_le
      | member w m =>
        have := hp.eq_of_length (by simp [Key.name, memberName])
        exact e (Key.name_inj.1
          (show Key.name (.member w m) = Key.name (.member nwid nodeId) from this.symm))
  | filesystem =>
    have hgen := genPath_name db.basePath (.member nwid nodeId)
    simp only [Key.name] at hgen
    by_cases e : k' = .member nwid nodeId
    · subst e; simp [hgen, Key.path, AList.lookup_erase]
    · simp only [hgen, if_neg e, Bool.not_true, Bool.false_eq_true, if_false]
      exact AList.lookup_erase_ne (mt (Key.path_inj db.basePath).1 e)

theorem networkName_prefix_name (nwid : UInt64) (k : Key) :
    networkName nwid <+: k.name ↔ k.nwid = nwid := by
  cases k <;> simp [Key.name, Key.nwid, networkName, memberName, List.cons_prefix_cons,
    (formatHex_injective 16).eq_iff, eq_comm]

-- Removing a network's object: its file, or in HTTP mode the harness's objects of the network and
-- all its members.
theorem readKey_removeRaw_network (nwid : UInt64) (k' : Key) :
    readKey db (db.removeRaw store (networkName nwid) true) k' =
      if k' = .network nwid ∨ (db.mode = .http ∧ k'.nwid = nwid) then none
      else readKey db store k' := by
  unfold readKey removeRaw
  cases hm : db.mode with
  | ipc => simp
  | http =>
    by_cases e : k'.nwid = nwid
    · simp [harnessDelete, networkName_prefix_name, e]
    · have hk : k' ≠ .network nwid := by rintro rfl; exact e rfl
      simp [harnessDelete, networkName_prefix_name, e, hk]
  | filesystem =>
    have hgen := genPath_name db.basePath (.network nwid)
    simp only [Key.name] at hgen
    by_cases e : k' = .network nwid
    · subst e; simp [hgen, Key.path, AList.lookup_erase]
    · simp only [hgen, e, false_or, reduceCtorEq, false_and, if_false, Bool.not_true,
        Bool.false_eq_true]
      exact AList.lookup_erase_ne (mt (Key.path_inj db.basePath).1 e)

end Storage

theorem readKey_congr {db db' : JSONDB L} (hm : db'.mode = db.mode)
    (hb : db'.basePath = db.basePath) (store : Store L) : readKey db' store = readKey db store := by
  funext k
  unfold readKey
  rw [hm, hb]

-- A shadow that packs the abstract store holds its content under every key.
theorem Refines.shadowKey {db : JSONDB L} {M : AbstractStore L} (h : Refines db.networks M)
    (k : Key) : shadowKey db k = (M.atKey k).map L.toMsgpack := by
  rcases h.lookup k.nwid with ⟨nw, n, hnw, hn, hp⟩ | ⟨hnw, hn⟩ <;> cases k <;>
    simp_all [JSONDB.shadowKey, AbstractStore.atKey, AbstractStore.member, Key.nwid, Packs]

theorem Refines.eraseNetworkLocked (hround : ∀ j, L.fromMsgpack (L.toMsgpack j) = .ok j)
    {db : JSONDB L} {M : AbstractStore L} (h : Refines db.networks M) (nwid : UInt64) :
    Refines (db.eraseNetworkLocked nwid).1.networks (M.erase nwid) := by
  unfold JSONDB.eraseNetworkLocked
  rcases h.lookup nwid with ⟨nw, n, hnw, -, hp⟩ | ⟨hnw, -⟩
  · simp only [hnw, hp.1, hround]
    exact h.erase nwid
  · simp only [hnw]
    exact h.erase_right hnw

-- Calls interleaved step by step: each call's write or removal runs outside `_networks_m`, then
-- its locked block, and any other thread may run between the two.

-- Where a caller is in a call.
inductive StorePc (L : JsonLib) where
  | idle
  | saveNetwork (nwid : UInt64) (j : L.Json)
  | saveNetworkMember (nwid nodeId : UInt64) (j : L.Json)
  | eraseNetworkMember (nwid nodeId : UInt64) (recompute : Bool)
  -- the members `ids` are still to be removed
  | eraseMembers (nwid : UInt64) (ids : List UInt64)
  -- member `nodeId` is removed from storage, its locked block is next
  | eraseMemberLocked (nwid nodeId : UInt64) (ids : List UInt64)
  | eraseNetworkLocked (nwid : UInt64)

def StorePc.network : StorePc L → Option UInt64
  | .idle => none
  | .saveNetwork nwid _ | .saveNetworkMember nwid _ _ | .eraseNetworkMember nwid _ _
  | .eraseMembers nwid _ | .eraseMemberLocked nwid _ _ | .eraseNetworkLocked nwid => some nwid

@[simp] theorem StorePc.network_eq_none {pc : StorePc L} : pc.network = none ↔ pc = .idle := by
  cases pc <;> simp [StorePc.network]

structure Calls (L : JsonLib) where
  db : JSONDB L
  store : Store L
  pc : Nat → StorePc L

-- A thread starts a call with its write or removal, goes on with the removals of a cascade, or
-- runs its next locked block; `ok` is whether the I/O succeeds.
inductive StoreOp (L : JsonLib) where
  | saveNetwork (t : Nat) (nwid : UInt64) (j : L.Json) (ok : Bool)
  | saveNetworkMember (t : Nat) (nwid nodeId : UInt64) (j : L.Json) (ok : Bool)
  | eraseNetworkMember (t : Nat) (nwid nodeId : UInt64) (recompute ok : Bool)
  | eraseNetwork (t : Nat) (nwid : UInt64)
  | remove (t : Nat) (ok : Bool)
  | locked (t : Nat)

namespace Calls

def initial (db : JSONDB L) (store : Store L) : Calls L := ⟨db, store, fun _ => .idle⟩

def setPc (s : Calls L) (t : Nat) (pc : StorePc L) : Calls L :=
  { s with pc := Function.update s.pc t pc }

def step (s : Calls L) : StoreOp L → Option (Calls L)
  | .saveNetwork t nwid j ok =>
      if (s.pc t).network = none then
        some { s.setPc t (.saveNetwork nwid j) with
          store := (s.db.writeRaw s.store (networkName nwid) (L.jsonDump j) ok).1 }
      else none
  | .saveNetworkMember t nwid nodeId j ok =>
      if (s.pc t).network = none then
        some { s.setPc t (.saveNetworkMember nwid nodeId j) with
          store := (s.db.writeRaw s.store (memberName nwid nodeId) (L.jsonDump j) ok).1 }
      else none
  | .eraseNetworkMember t nwid nodeId recompute ok =>
      if (s.pc t).network = none then
        some { s.setPc t (.eraseNetworkMember nwid nodeId recompute) with
          store := s.db.removeRaw s.store (memberName nwid nodeId) ok }
      else none
  | .eraseNetwork t nwid =>
      if (s.pc t).network = none then
        if s.db.mode = .http then some (s.setPc t (.eraseMembers nwid []))
        else match s.db.memberIds nwid with
          | none => some s
          | some ids => some (s.setPc t (.eraseMembers nwid ids))
      else none
  | .remove t ok =>
      match s.pc t with
      | .eraseMembers nwid (nodeId :: ids) =>
          some { s.setPc t (.eraseMemberLocked nwid nodeId ids) with
            store := s.db.removeRaw s.store (memberName nwid nodeId) ok }
      | .eraseMembers nwid [] =>
          some { s.setPc t (.eraseNetworkLocked nwid) with
            store := s.db.removeRaw s.store (networkName nwid) ok }
      | _ => none
  | .locked t =>
      match s.pc t with
      | .saveNetwork nwid j =>
          some { s.setPc t .idle with
            db := (s.db.setConfig nwid (L.toMsgpack j)).recomputeSummaryInfo nwid }
      | .saveNetworkMember nwid nodeId j =>
          some { s.setPc t .idle with
            db := (s.db.setMember nwid nodeId (L.toMsgpack j)).recomputeSummaryInfo nwid }
      | .eraseNetworkMember nwid nodeId recompute =>
          some { s.setPc t .idle with db := (s.db.eraseMemberLocked nwid nodeId recompute).1 }
      | .eraseMemberLocked nwid nodeId ids =>
          some { s.setPc t (.eraseMembers nwid ids) with
            db := (s.db.eraseMemberLocked nwid nodeId false).1 }
      | .eraseNetworkLocked nwid =>
          some { s.setPc t .idle with db := (s.db.eraseNetworkLocked nwid).1 }
      | _ => none

def run (s : Calls L) : List (StoreOp L) → Option (Calls L)
  | [] => some s
  | op :: ops => (s.step op).bind (·.run ops)

inductive Reach (allowed : Calls L → StoreOp L → Prop) (start : Calls L) : Calls L → Prop
  | start : Reach allowed start start
  | step {s s' : Calls L} {op : StoreOp L} :
      Reach allowed start s → allowed s op → s.step op = some s' → Reach allowed start s'

def AnyStep (_ : Calls L) (_ : StoreOp L) : Prop := True

-- No call starts on a network another call is working on.
def NetworkFree (s : Calls L) (nwid : UInt64) : Prop := ∀ t, (s.pc t).network ≠ some nwid

-- Calls on one network do not overlap, every write and removal succeeds, and a member is saved
-- only into a network the shadow holds.
def Serialized (s : Calls L) : StoreOp L → Prop
  | .saveNetwork _ nwid _ ok | .eraseNetworkMember _ nwid _ _ ok => ok ∧ NetworkFree s nwid
  | .saveNetworkMember _ nwid _ _ ok => ok ∧ NetworkFree s nwid ∧ nwid ∈ s.db.networks
  | .eraseNetwork _ nwid => NetworkFree s nwid
  | .remove _ ok => ok
  | .locked _ => True

def Quiescent (s : Calls L) : Prop := ∀ t, s.pc t = .idle

theorem reach_of_run {allowed : Calls L → StoreOp L → Prop} {start s : Calls L}
    (hs : Reach allowed start s) :
    ∀ {ops : List (StoreOp L)} {s' : Calls L}, (∀ s op, op ∈ ops → allowed s op) →
      s.run ops = some s' → Reach allowed start s'
  | [], _, _, h => by cases h; exact hs
  | op :: ops, s', hall, h => by
    simp only [run, Option.bind_eq_some] at h
    obtain ⟨s₁, h₁, h₂⟩ := h
    exact reach_of_run (.step hs (hall s op (List.mem_cons_self _ _)) h₁)
      (fun s op' hop => hall s op' (List.mem_cons_of_mem _ hop)) h₂

end Calls

-- Storage runs ahead of the shadow by what the callers in progress have done.

-- What a caller's write or removal has left in storage that its locked block has not yet done to
-- the shadow, key by key.
def StorePc.override : StorePc L → Key → Option (Option L.Json)
  | .saveNetwork nwid j, k => if k = .network nwid then some (some j) else none
  | .saveNetworkMember nwid nodeId j, k => if k = .member nwid nodeId then some (some j) else none
  | .eraseNetworkMember nwid nodeId _, k | .eraseMemberLocked nwid nodeId _, k =>
      if k = .member nwid nodeId then some none else none
  | .eraseNetworkLocked nwid, k => if k.nwid = nwid then some none else none
  | _, _ => none

theorem StorePc.override_eq_none {pc : StorePc L} {k : Key} (h : pc.network ≠ some k.nwid) :
    pc.override k = none := by
  cases pc <;> simp only [StorePc.override] <;> (try split) <;> simp_all [StorePc.network]

-- What storage holds under `k` while the caller on its network is at `pc`.
def expected (pc : StorePc L) (M : AbstractStore L) (k : Key) : Option L.Text :=
  ((pc.override k).getD (M.atKey k)).map L.jsonDump

@[simp] theorem expected_idle (M : AbstractStore L) (k : Key) :
    expected .idle M k = (M.atKey k).map L.jsonDump := rfl

-- What a caller's position needs of the abstract store: a member is saved into a network that
-- exists, and outside HTTP mode a cascade lists every member the network still has.
def StorePc.Fits (M : AbstractStore L) (mode : Mode) : StorePc L → Prop
  | .saveNetworkMember nwid _ _ => nwid ∈ M
  | .eraseMembers nwid ids => mode = .http ∨ ∀ m, (M.member nwid m).isSome → m ∈ ids
  | .eraseMemberLocked nwid nodeId ids =>
      mode = .http ∨ ∀ m, (M.member nwid m).isSome → m = nodeId ∨ m ∈ ids
  | _ => True

theorem StorePc.Fits.congr {pc : StorePc L} {M M' : AbstractStore L} {mode : Mode}
    (h : pc.Fits M mode) (hM : ∀ w, pc.network = some w → M'.lookup w = M.lookup w) :
    pc.Fits M' mode := by
  cases pc <;>
    simp_all [StorePc.Fits, StorePc.network, AbstractStore.member, ← AList.lookup_isSome]

-- The shadow packs an abstract store `M`; storage holds `M` except where a caller in progress has
-- run ahead; at most one caller works on a network.
structure Inv (s : Calls L) (M : AbstractStore L) : Prop where
  mode : s.db.mode ≠ .ipc
  refines : Refines s.db.networks M
  serial : ∀ {t t' nwid}, (s.pc t).network = some nwid → (s.pc t').network = some nwid →
    t = t'
  owned : ∀ {t k}, (s.pc t).network = some k.nwid →
    readKey s.db s.store k = expected (s.pc t) M k
  free : ∀ {k}, Calls.NetworkFree s k.nwid →
    readKey s.db s.store k = (M.atKey k).map L.jsonDump
  fits : ∀ t, (s.pc t).Fits M s.db.mode

section Steps

variable {s : Calls L} {M : AbstractStore L} {t : Nat} {w : UInt64}

-- Before a step of caller `t` on network `w`, storage holds what `t`'s position says.
theorem Inv.current (h : Inv s M)
    (hown : (s.pc t).network = some w ∨ (s.pc t = .idle ∧ s.NetworkFree w)) {k : Key}
    (hk : k.nwid = w) : readKey s.db s.store k = expected (s.pc t) M k := by
  subst hk
  rcases hown with hown | ⟨hidle, hfree⟩
  · exact h.owned hown
  · rw [hidle, expected_idle]; exact h.free hfree

theorem StorePc.eq_of_network {pc : StorePc L} {w w' : UInt64}
    (hp : pc.network = some w ∨ pc = .idle) (h : pc.network = some w') : w' = w := by
  rcases hp with hp | rfl
  · exact Option.some_injective _ (h.symm.trans hp)
  · cases h

-- A step of caller `t` on network `w` keeps the invariant when it keeps every other network as it
-- was and leaves network `w` as `t`'s new position says.
theorem Inv.transfer (h : Inv s M) {s' : Calls L} {M' : AbstractStore L} {p' : StorePc L}
    (hpc : s'.pc = Function.update s.pc t p')
    (hown : (s.pc t).network = some w ∨ (s.pc t = .idle ∧ s.NetworkFree w))
    (hp' : p'.network = some w ∨ p' = .idle) (hmode : s'.db.mode = s.db.mode)
    (hrefines : Refines s'.db.networks M') (hM : ∀ w', w' ≠ w → M'.lookup w' = M.lookup w')
    (hR : ∀ k, k.nwid ≠ w → readKey s'.db s'.store k = readKey s.db s.store k)
    (hlocal : ∀ k, k.nwid = w → readKey s'.db s'.store k = expected p' M' k)
    (hfits : p'.Fits M' s.db.mode) : Inv s' M' := by
  have hother : ∀ t', t' ≠ t → (s.pc t').network ≠ some w := fun t' ht' hw => by
    rcases hown with hown | ⟨-, hfree⟩
    · exact ht' (h.serial hw hown)
    · exact hfree t' hw
  have hnet : ∀ w', (s.pc t).network = some w' → w' = w := fun _ =>
    StorePc.eq_of_network (hown.imp_right And.left)
  have hnet' : ∀ w', p'.network = some w' → w' = w := fun _ => StorePc.eq_of_network hp'
  have hpc' : ∀ t', s'.pc t' = if t' = t then p' else s.pc t' := fun t' => by
    rw [hpc, Function.update_apply]
  refine ⟨hmode ▸ h.mode, hrefines, fun {t₁ t₂ w₁} h₁ h₂ => ?_, fun {t' k} hk => ?_,
    fun {k} hk => ?_, fun t' => ?_⟩
  · rw [hpc'] at h₁ h₂
    by_cases e₁ : t₁ = t <;> by_cases e₂ : t₂ = t <;>
      simp only [e₁, e₂, if_true, if_false] at h₁ h₂
    · exact e₁.trans e₂.symm
    · exact absurd (hnet' _ h₁ ▸ h₂) (hother t₂ e₂)
    · exact absurd (hnet' _ h₂ ▸ h₁) (hother t₁ e₁)
    · exact h.serial h₁ h₂
  · rw [hpc'] at hk ⊢
    by_cases e : t' = t
    · simp only [e, if_true] at hk ⊢
      exact hlocal k (hnet' _ hk)
    · simp only [e, if_false] at hk ⊢
      have hkw : k.nwid ≠ w := fun hkw => hother t' e (hkw ▸ hk)
      rw [hR k hkw, h.owned hk, expected, expected, AbstractStore.atKey_congr M (hM _ hkw)]
  · by_cases hkw : k.nwid = w
    · have hidle : p' = .idle := by
        rcases hp' with hp' | hp'
        · exact absurd (by rw [hpc', if_pos rfl, hkw]; exact hp') (hk t)
        · exact hp'
      rw [hlocal k hkw, hidle, expected_idle]
    · have hfree : s.NetworkFree k.nwid := fun t' ht' => by
        by_cases e : t' = t
        · subst e; exact hkw (hnet _ ht')
        · exact hk t' (by rw [hpc', if_neg e]; exact ht')
      rw [hR k hkw, h.free hfree, AbstractStore.atKey_congr M (hM _ hkw)]
  · rw [hpc', hmode]
    by_cases e : t' = t
    · rw [if_pos e]; exact hfits
    · rw [if_neg e]
      exact (h.fits t').congr fun w' hw' => hM w' fun e' => hother t' e (e' ▸ hw')

-- An I/O step of caller `t` on network `w`: the shadow and the abstract store stay.
theorem Inv.unlocked (h : Inv s M)
    (hown : (s.pc t).network = some w ∨ (s.pc t = .idle ∧ s.NetworkFree w)) (p' : StorePc L)
    (hp' : p'.network = some w) (hfits : p'.Fits M s.db.mode) {store' : Store L}
    (hR : ∀ k, k.nwid ≠ w → readKey s.db store' k = readKey s.db s.store k)
    (hlocal : ∀ k, k.nwid = w → readKey s.db s.store k = expected (s.pc t) M k →
      readKey s.db store' k = expected p' M k) :
    Inv { s.setPc t p' with store := store' } M :=
  h.transfer rfl hown (.inl hp') rfl h.refines (fun _ _ => rfl) hR
    (fun k hk => hlocal k hk (h.current hown hk)) hfits

-- A locked block of caller `t` on network `w`: storage stays, and the shadow catches up with it.
theorem Inv.locked (h : Inv s M) (hown : (s.pc t).network = some w) {db' : JSONDB L}
    {M' : AbstractStore L} {p' : StorePc L} (hp' : p'.network = some w ∨ p' = .idle)
    (hmode : db'.mode = s.db.mode) (hbase : db'.basePath = s.db.basePath)
    (hrefines : Refines db'.networks M') (hM : ∀ w', w' ≠ w → M'.lookup w' = M.lookup w')
    (hexp : ∀ k, expected (s.pc t) M k = expected p' M' k) (hfits : p'.Fits M' s.db.mode) :
    Inv { s.setPc t p' with db := db' } M' :=
  h.transfer rfl (.inl hown) hp' hmode hrefines hM
    (fun k _ => congrFun (readKey_congr hmode hbase s.store) k)
    (fun k hk => (congrFun (readKey_congr hmode hbase s.store) k).trans
      ((h.current (.inl hown) hk).trans (hexp k))) hfits

-- A caller starts a call on a free network with its write or removal, which sets the keys its
-- new position overrides and leaves the others.
theorem Inv.begin (h : Inv s M) (hidle : s.pc t = .idle) (hfree : s.NetworkFree w)
    (p' : StorePc L) (hp' : p'.network = some w) (hfits : p'.Fits M s.db.mode) {store' : Store L}
    (hstore : ∀ k, readKey s.db store' k =
      ((p'.override k).map (·.map L.jsonDump)).getD (readKey s.db s.store k)) :
    Inv { s.setPc t p' with store := store' } M :=
  h.unlocked (.inr ⟨hidle, hfree⟩) p' hp' hfits
    (fun k hk => by
      rw [hstore, StorePc.override_eq_none (hp' ▸ fun e => hk (Option.some_injective _ e).symm)]
      rfl)
    (fun k _ hcur => by
      rw [hstore, hcur, hidle, expected_idle, expected]
      cases p'.override k <;> rfl)

end Steps

-- What each locked block does to the abstract store.

-- The call of the abstract store that a caller's next locked block performs: a cascade's member
-- erasures are `eraseNetworkMember`s, its last block the `eraseNetwork`.
def StorePc.lockedCall : StorePc L → Option (Call L)
  | .saveNetwork nwid j => some (.saveNetwork nwid j)
  | .saveNetworkMember nwid nodeId j => some (.saveNetworkMember nwid nodeId j)
  | .eraseNetworkMember nwid nodeId recompute => some (.eraseNetworkMember nwid nodeId recompute)
  | .eraseMemberLocked nwid nodeId _ => some (.eraseNetworkMember nwid nodeId false)
  | .eraseNetworkLocked nwid => some (.eraseNetwork nwid)
  | _ => none

-- The calls of the abstract store one step performs: one for a locked block, none otherwise.
def Calls.lockedCalls (s : Calls L) : StoreOp L → List (Call L)
  | .locked t => (s.pc t).lockedCall.toList
  | _ => []

section Expected

variable (M : AbstractStore L) (k : Key)

theorem expected_saveNetwork (nwid : UInt64) (j : L.Json) :
    expected (.saveNetwork nwid j) M k = expected .idle (M.saveConfig nwid j) k := by
  by_cases e : k = .network nwid <;>
    simp [expected, StorePc.override, AbstractStore.atKey_saveConfig, e]

theorem expected_saveNetworkMember {nwid : UInt64} (hmem : nwid ∈ M) (nodeId : UInt64)
    (j : L.Json) :
    expected (.saveNetworkMember nwid nodeId j) M k =
      expected .idle (M.saveMember nwid nodeId j) k := by
  by_cases e : k = .member nwid nodeId <;>
    simp [expected, StorePc.override, AbstractStore.atKey_saveMember M hmem, e]

theorem expected_eraseNetworkMember (nwid nodeId : UInt64) (recompute : Bool) :
    expected (.eraseNetworkMember nwid nodeId recompute) M k =
      expected .idle (M.eraseMember nwid nodeId) k := by
  by_cases e : k = .member nwid nodeId <;>
    simp [expected, StorePc.override, AbstractStore.atKey_eraseMember, e]

theorem expected_eraseMemberLocked (nwid nodeId : UInt64) (ids : List UInt64) :
    expected (.eraseMemberLocked nwid nodeId ids) M k =
      expected (.eraseMembers nwid ids) (M.eraseMember nwid nodeId) k := by
  by_cases e : k = .member nwid nodeId <;>
    simp [expected, StorePc.override, AbstractStore.atKey_eraseMember, e]

theorem expected_eraseNetworkLocked (nwid : UInt64) :
    expected (.eraseNetworkLocked nwid) M k = expected .idle (AList.erase nwid M) k := by
  by_cases e : k.nwid = nwid <;>
    simp [expected, StorePc.override, AbstractStore.atKey_erase, e]

end Expected

-- Every serialized step keeps the invariant.

section Run

variable {s s' : Calls L} {M : AbstractStore L} {t : Nat}

theorem Inv.saveNetwork (h : Inv s M) {nwid : UInt64} {j : L.Json} (hfree : s.NetworkFree nwid)
    (hstep : s.step (.saveNetwork t nwid j true) = some s') : Inv s' M := by
  rw [Calls.step] at hstep
  split at hstep
  · next hidle =>
    cases hstep
    have hw := readKey_writeRaw s.store h.mode (.network nwid) (L.jsonDump j)
    exact h.begin (StorePc.network_eq_none.1 hidle) hfree (.saveNetwork nwid j) rfl trivial
      fun k => (hw k).trans
      (by by_cases e : k = .network nwid <;> simp [StorePc.override, e])
  · cases hstep

theorem Inv.saveNetworkMember (h : Inv s M) {nwid nodeId : UInt64} {j : L.Json}
    (hfree : s.NetworkFree nwid) (hmem : nwid ∈ s.db.networks)
    (hstep : s.step (.saveNetworkMember t nwid nodeId j true) = some s') : Inv s' M := by
  rw [Calls.step] at hstep
  split at hstep
  · next hidle =>
    cases hstep
    have hw := readKey_writeRaw s.store h.mode (.member nwid nodeId) (L.jsonDump j)
    refine h.begin (StorePc.network_eq_none.1 hidle) hfree (.saveNetworkMember nwid nodeId j) rfl ?_
      fun k => (hw k).trans
      (by by_cases e : k = .member nwid nodeId <;> simp [StorePc.override, e])
    exact AList.lookup_isSome.1 ((h.refines.isSome_eq nwid).symm.trans (AList.lookup_isSome.2 hmem))
  · cases hstep

theorem Inv.eraseNetworkMember (h : Inv s M) {nwid nodeId : UInt64} {recompute : Bool}
    (hfree : s.NetworkFree nwid)
    (hstep : s.step (.eraseNetworkMember t nwid nodeId recompute true) = some s') : Inv s' M := by
  rw [Calls.step] at hstep
  split at hstep
  · next hidle =>
    cases hstep
    have hr := readKey_removeRaw_member s.store h.mode nwid nodeId
    exact h.begin (StorePc.network_eq_none.1 hidle) hfree
      (.eraseNetworkMember nwid nodeId recompute) rfl trivial fun k => (hr k).trans
      (by by_cases e : k = .member nwid nodeId <;> simp [StorePc.override, e])
  · cases hstep

-- `eraseNetwork` takes the member ids under the lock; in HTTP mode it takes none.
theorem Inv.eraseNetwork (h : Inv s M) {nwid : UInt64} (hfree : s.NetworkFree nwid)
    (hstep : s.step (.eraseNetwork t nwid) = some s') : Inv s' M := by
  rw [Calls.step] at hstep
  split at hstep
  · next hidle =>
    have hidle := StorePc.network_eq_none.1 hidle
    have hnone : ∀ ids, (StorePc.eraseMembers nwid ids).Fits M s.db.mode →
        Inv (s.setPc t (.eraseMembers nwid ids)) M := fun ids hf =>
      h.begin hidle hfree (.eraseMembers nwid ids) rfl hf fun k => rfl
    split at hstep
    · next hmode => cases hstep; exact hnone [] (.inl hmode)
    · split at hstep
      · cases hstep; exact h
      · next ids hids =>
        cases hstep
        refine hnone ids (.inr fun m hm => ?_)
        simp only [memberIds, Option.map_eq_some'] at hids
        obtain ⟨nw, hnw, rfl⟩ := hids
        rcases h.refines.lookup nwid with ⟨nw', n, hnw', hn, hp⟩ | ⟨hnw', -⟩ <;>
          rw [hnw] at hnw'
        · cases hnw'
          have hm' : (nw.members.lookup m).isSome := by
            simpa [hp.2, AbstractStore.member, hn] using hm
          exact AList.mem_keys.2 (AList.lookup_isSome.1 hm')
        · cases hnw'
  · cases hstep

-- The removals of a cascade: a member's file, then the network's.
theorem Inv.remove (h : Inv s M) (hstep : s.step (.remove t true) = some s') : Inv s' M := by
  rw [Calls.step] at hstep
  split at hstep
  · next nwid nodeId ids heq =>
    cases hstep
    have hf := h.fits t
    rw [heq] at hf
    have hr := readKey_removeRaw_member s.store h.mode nwid nodeId
    refine h.unlocked (.inl (by rw [heq]; rfl)) (.eraseMemberLocked nwid nodeId ids) rfl
      (hf.imp id fun H m hm => List.mem_cons.1 (H m hm)) (fun k hk => ?_)
      (fun k _ hcur => ?_)
    · exact (hr k).trans (if_neg (by rintro rfl; exact hk rfl))
    · refine (hr k).trans ?_
      split
      · next e => subst e; simp [expected, StorePc.override]
      · next e => rw [hcur, heq]; simp [expected, StorePc.override, e]
  · next nwid heq =>
    cases hstep
    have hf := h.fits t
    rw [heq] at hf
    have hr := @readKey_removeRaw_network L s.db s.store nwid
    refine h.unlocked (.inl (by rw [heq]; rfl)) (.eraseNetworkLocked nwid) rfl trivial
      (fun k hk => ?_) (fun k hk hcur => ?_)
    · exact (hr k).trans (if_neg (by rintro (rfl | ⟨-, e⟩) <;> simp_all))
    · refine (hr k).trans ?_
      rw [show expected (.eraseNetworkLocked nwid) M k = none by
        simp [expected, StorePc.override, hk]]
      split
      · rfl
      · next e =>
        simp only [not_or, not_and] at e
        cases k with
        | network w => exact absurd (by rw [← hk]; rfl) e.1
        | member w m =>
          simp only [Key.nwid_member] at hk
          subst hk
          have hnone : M.member w m = none := Option.not_isSome_iff_eq_none.1 fun hm =>
            List.not_mem_nil _ (hf.resolve_left (fun hh => e.2 hh rfl) m hm)
          rw [hcur, heq]
          simp [expected, StorePc.override, AbstractStore.atKey, hnone]
  · cases hstep

-- The locked blocks: the shadow does what storage already holds, and the abstract store does the
-- call the block performs.
theorem Inv.lockedStep (hround : ∀ j, L.fromMsgpack (L.toMsgpack j) = .ok j) (h : Inv s M)
    (hstep : s.step (.locked t) = some s') :
    ∃ c, (s.pc t).lockedCall = some c ∧ Inv s' (M.call c).1 := by
  rw [Calls.step] at hstep
  split at hstep <;> cases hstep
  · next nwid j heq =>
    refine ⟨.saveNetwork nwid j, by rw [heq]; rfl,
      h.locked (by rw [heq]; rfl) (.inr rfl) (by simp [JSONDB.setConfig])
      (by simp [JSONDB.setConfig]) ?_ (fun w hw => AbstractStore.lookup_saveConfig_ne M nwid j hw)
      (fun k => by rw [heq, expected_saveNetwork]; rfl) trivial⟩
    rw [networks_recomputeSummaryInfo]
    exact h.refines.setConfig nwid j
  · next nwid nodeId j heq =>
    have hmem : nwid ∈ M := by simpa [heq, StorePc.Fits] using h.fits t
    refine ⟨.saveNetworkMember nwid nodeId j, by rw [heq]; rfl,
      h.locked (by rw [heq]; rfl) (.inr rfl) (by simp) (by simp) ?_
      (fun w hw => AbstractStore.lookup_saveMember_ne M nwid nodeId j hw)
      (fun k => by rw [heq, expected_saveNetworkMember M k hmem]; rfl) trivial⟩
    rw [networks_recomputeSummaryInfo]
    exact h.refines.setMember hmem nodeId j
  · next nwid nodeId recompute heq =>
    exact ⟨.eraseNetworkMember nwid nodeId recompute, by rw [heq]; rfl,
      h.locked (by rw [heq]; rfl) (.inr rfl) (by simp) (by simp)
      (h.refines.eraseMemberLocked nwid nodeId recompute)
      (fun w hw => AbstractStore.lookup_eraseMember_ne M nwid nodeId hw)
      (fun k => by rw [heq, expected_eraseNetworkMember]; rfl) trivial⟩
  · next nwid nodeId ids heq =>
    have hf := h.fits t
    rw [heq] at hf
    refine ⟨.eraseNetworkMember nwid nodeId false, by rw [heq]; rfl,
      h.locked (by rw [heq]; rfl) (.inl rfl) (by simp) (by simp)
      (h.refines.eraseMemberLocked nwid nodeId false)
      (fun w hw => AbstractStore.lookup_eraseMember_ne M nwid nodeId hw)
      (fun k => by rw [heq, expected_eraseMemberLocked]; rfl) (hf.imp id fun H m hm => ?_)⟩
    have e := AbstractStore.atKey_eraseMember M nwid nodeId (.member nwid m)
    simp only [AbstractStore.atKey, Key.member.injEq, true_and] at e
    change ((M.eraseMember nwid nodeId).member nwid m).isSome at hm
    rw [e] at hm
    split at hm
    · cases hm
    · next hne => exact (H m hm).resolve_left hne
  · next nwid heq =>
    exact ⟨.eraseNetwork nwid, by rw [heq]; rfl,
      h.locked (by rw [heq]; rfl) (.inr rfl) (by simp) (by simp)
      (h.refines.eraseNetworkLocked hround nwid) (fun w hw => AList.lookup_erase_ne hw)
      (fun k => by rw [heq, expected_eraseNetworkLocked]; rfl) trivial⟩

theorem Inv.step (hround : ∀ j, L.fromMsgpack (L.toMsgpack j) = .ok j) (h : Inv s M)
    {op : StoreOp L} (hop : Calls.Serialized s op) (hstep : s.step op = some s') :
    Inv s' (M.run (s.lockedCalls op)).1 := by
  cases op with
  | saveNetwork t nwid j ok =>
    obtain ⟨rfl, hfree⟩ := hop
    exact h.saveNetwork hfree hstep
  | saveNetworkMember t nwid nodeId j ok =>
    obtain ⟨rfl, hfree, hmem⟩ := hop
    exact h.saveNetworkMember hfree hmem hstep
  | eraseNetworkMember t nwid nodeId recompute ok =>
    obtain ⟨rfl, hfree⟩ := hop
    exact h.eraseNetworkMember hfree hstep
  | eraseNetwork t nwid => exact h.eraseNetwork hop hstep
  | remove t ok =>
    cases (show ok = true from hop)
    exact h.remove hstep
  | locked t =>
    obtain ⟨c, hc, h'⟩ := h.lockedStep hround hstep
    simpa only [Calls.lockedCalls, hc, Option.toList_some] using h'

theorem Inv.reach (hround : ∀ j, L.fromMsgpack (L.toMsgpack j) = .ok j) {start : Calls L}
    (h : Inv start M) (hs : Calls.Reach Calls.Serialized start s) : ∃ M', Inv s M' := by
  induction hs with
  | start => exact ⟨M, h⟩
  | step _ hop hstep ih =>
    obtain ⟨M', h'⟩ := ih
    exact ⟨_, h'.step hround hop hstep⟩

end Run

-- Serialized runs are linearizable at the locked blocks.

-- Every step of a run is serialized.
def Calls.RunSerialized (s : Calls L) : List (StoreOp L) → Prop
  | [] => True
  | op :: ops => Calls.Serialized s op ∧ ∀ s', s.step op = some s' → s'.RunSerialized ops

-- The calls whose locked blocks a run executes, in the order it executes them.
def Calls.linearize (s : Calls L) : List (StoreOp L) → List (Call L)
  | [] => []
  | op :: ops => s.lockedCalls op ++
      match s.step op with
      | some s' => s'.linearize ops
      | none => []

theorem AbstractStore.run_append_fst (M : AbstractStore L) (cs cs' : List (Call L)) :
    (M.run (cs ++ cs')).1 = ((M.run cs).1.run cs').1 := by
  induction cs generalizing M with
  | nil => rfl
  | cons c cs ih => exact ih (M.call c).1

theorem Inv.run (hround : ∀ j, L.fromMsgpack (L.toMsgpack j) = .ok j) (ops : List (StoreOp L)) :
    ∀ {s s' : Calls L} {M : AbstractStore L}, Inv s M → s.RunSerialized ops →
      s.run ops = some s' → Inv s' (M.run (s.linearize ops)).1 := by
  induction ops with
  | nil => intro s s' M h _ hrun; cases hrun; exact h
  | cons op ops ih =>
    intro s s' M h ⟨hop, hrest⟩ hrun
    obtain ⟨s₁, h₁, h₂⟩ := Option.bind_eq_some.1 hrun
    rw [Calls.linearize, h₁, AbstractStore.run_append_fst]
    exact ih (h.step hround hop h₁) (hrest s₁ h₁) h₂

-- A run whose every step is serialized reaches its end state.
theorem Calls.reach_of_runSerialized {start : Calls L} :
    ∀ {ops : List (StoreOp L)} {s s' : Calls L}, Calls.Reach Calls.Serialized start s →
      s.RunSerialized ops → s.run ops = some s' → Calls.Reach Calls.Serialized start s'
  | [], _, _, hs, _, h => by cases h; exact hs
  | _ :: _, _, _, hs, ⟨hop, hrest⟩, h => by
    obtain ⟨s₁, h₁, h₂⟩ := Option.bind_eq_some.1 h
    exact Calls.reach_of_runSerialized (.step hs hop h₁) (hrest s₁ h₁) h₂

theorem Inv.initial {mode : Mode} (hmode : mode ≠ .ipc) (basePath : List String) :
    Inv (Calls.initial (fresh mode basePath : JSONDB L) ⟨∅, fun _ => none⟩) ∅ := by
  refine ⟨hmode, fun w => ?_, fun h => ?_, fun h => ?_, fun {k} _ => ?_, fun _ => trivial⟩
  · simp only [JSONDB.fresh, AList.lookup_empty]; exact .none
  · simp [Calls.initial, StorePc.network] at h
  · simp [Calls.initial, StorePc.network] at h
  · cases mode <;> cases k <;>
      simp_all [readKey, Calls.initial, JSONDB.fresh, AbstractStore.atKey, AbstractStore.member]

-- A controller started on files that hold an abstract store's records, with the shadow packing
-- the same store and no call in progress, keeps the invariant from its first step.
theorem Inv.initial_of_mirrors {db : JSONDB L} {store : Store L} {M : AbstractStore L}
    (hmode : db.mode = .filesystem) (hr : Refines db.networks M)
    (hfiles : Mirrors db.basePath store.files M) : Inv (Calls.initial db store) M := by
  refine ⟨by simp [Calls.initial, hmode], hr, fun h => ?_, fun h => ?_, fun {k} _ => ?_,
    fun _ => trivial⟩
  · simp [Calls.initial, StorePc.network] at h
  · simp [Calls.initial, StorePc.network] at h
  · cases k <;>
      simp [readKey, hmode, Calls.initial, Key.path, hfiles.network, hfiles.member,
        AbstractStore.atKey]

-- With no call in progress, storage holds the abstract store as text and the shadow holds it
-- packed, so the two hold one save under every key.
theorem Inv.agrees_of_quiescent {s : Calls L} {M : AbstractStore L} (h : Inv s M)
    (hq : s.Quiescent) (k : Key) :
    (readKey s.db s.store k = none ∧ shadowKey s.db k = none) ∨
      ∃ j, readKey s.db s.store k = some (L.jsonDump j) ∧ shadowKey s.db k = some (L.toMsgpack j) := by
  have hfree : s.NetworkFree k.nwid := fun t => by simp [hq t, StorePc.network]
  rw [h.free hfree, h.refines.shadowKey k]
  cases M.atKey k with
  | none => exact .inl ⟨rfl, rfl⟩
  | some j => exact .inr ⟨j, rfl, rfl⟩

-- Two callers on networks 1 and 2, whose locked blocks run in the opposite order to their writes.
def twoSaves : List (StoreOp JsonLib.fieldJson) :=
  [.saveNetwork 0 1 (FieldJson.string "a") true, .saveNetwork 1 2 (FieldJson.string "b") true,
    .locked 1, .locked 0]

theorem twoSaves_runSerialized (db : JSONDB JsonLib.fieldJson) (store : Store JsonLib.fieldJson) :
    (Calls.initial db store).RunSerialized twoSaves := by
  refine ⟨⟨rfl, fun t => by simp [Calls.initial, StorePc.network]⟩, fun s₁ h₁ => ?_⟩
  cases h₁
  refine ⟨⟨rfl, fun t => ?_⟩,
    fun _ _ => ⟨trivial, fun _ _ => ⟨trivial, fun _ _ => trivial⟩⟩⟩
  by_cases e : t = 0 <;>
    simp [Calls.setPc, Calls.initial, Function.update_apply, e, StorePc.network]

theorem twoSaves_quiescent (db : JSONDB JsonLib.fieldJson) (store : Store JsonLib.fieldJson)
    {s : Calls JsonLib.fieldJson} (h : (Calls.initial db store).run twoSaves = some s) :
    s.Quiescent := by
  cases h
  intro t
  by_cases e₀ : t = 0 <;> by_cases e₁ : t = 1 <;>
    simp [Calls.setPc, Calls.initial, Function.update_apply, e₀, e₁]

-- Once no call is in progress, storage and the shadow agree on every network and member key:
-- absent in both, or the JSON of one save, as long as calls on one network do not overlap, every
-- write and removal succeeds, and members are saved only into networks the shadow holds.
theorem storage_agrees_with_shadow (hround : ∀ j, L.fromMsgpack (L.toMsgpack j) = .ok j)
    {mode : Mode} (hmode : mode ≠ .ipc) (basePath : List String) {s : Calls L}
    (hs : Calls.Reach Calls.Serialized (Calls.initial (fresh mode basePath) ⟨∅, fun _ => none⟩) s)
    (hq : s.Quiescent) (k : Key) :
    (readKey s.db s.store k = none ∧ shadowKey s.db k = none) ∨
      ∃ j, readKey s.db s.store k = some (L.jsonDump j) ∧ shadowKey s.db k = some (L.toMsgpack j) := by
  obtain ⟨M, h⟩ := (Inv.initial hmode basePath).reach hround hs
  exact h.agrees_of_quiescent hq k

theorem storage_agrees_with_shadow_interleaved_saves :
    ∃ s : Calls JsonLib.fieldJson,
      (Calls.initial (fresh .filesystem []) ⟨∅, fun _ => none⟩).run twoSaves = some s ∧
      s.Quiescent ∧ ∀ k,
        (readKey s.db s.store k = none ∧ shadowKey s.db k = none) ∨
          ∃ j, readKey s.db s.store k = some (JsonLib.fieldJson.jsonDump j) ∧
            shadowKey s.db k = some (JsonLib.fieldJson.toMsgpack j) := by
  obtain ⟨s, hrun⟩ : ∃ s, (Calls.initial (fresh .filesystem [] : JSONDB JsonLib.fieldJson)
      ⟨∅, fun _ => none⟩).run twoSaves = some s := ⟨_, rfl⟩
  have hq := twoSaves_quiescent _ _ hrun
  exact ⟨s, hrun, hq, storage_agrees_with_shadow (fun _ => rfl) (by decide) []
    (Calls.reach_of_runSerialized .start (twoSaves_runSerialized _ _) hrun) hq⟩

-- A restarted controller: the constructor loads files that hold an abstract store's well-formed
-- records, and from there storage and the shadow agree whenever no call is in progress, under the
-- same conditions as from empty storage.
theorem storage_agrees_with_shadow_after_restart
    (hround : ∀ j, L.fromMsgpack (L.toMsgpack j) = .ok j)
    (hparse : ∀ j, L.jsonParse (L.jsonDump j) = .ok j) (basePath : List String)
    (remote : List String → Option L.Text) {M : AbstractStore L} (hM : Filed M)
    {files : AList (fun _ : List String => L.Text)} (hfiles : Mirrors basePath files M)
    {s : Calls L}
    (hs : Calls.Reach Calls.Serialized (Calls.initial (construct basePath files) ⟨files, remote⟩) s)
    (hq : s.Quiescent) (k : Key) :
    (readKey s.db s.store k = none ∧ shadowKey s.db k = none) ∨
      ∃ j, readKey s.db s.store k = some (L.jsonDump j) ∧ shadowKey s.db k = some (L.toMsgpack j) := by
  have h₀ : Inv (Calls.initial (construct basePath files) ⟨files, remote⟩) M :=
    Inv.initial_of_mirrors (mode_construct basePath) (construct_refines hparse hM hfiles)
      (by rw [basePath_construct]; exact hfiles)
  obtain ⟨M', h⟩ := h₀.reach hround hs
  exact h.agrees_of_quiescent hq k

-- The files a first controller leaves after saving network 1 and its member 2.
def restartFiles : AList (fun _ : List String => JsonLib.fieldJson.Text) :=
  ((fresh .filesystem ["controller.d"] : JSONDB JsonLib.fieldJson).run ⟨∅, fun _ => none⟩
    (saveNetworkThenMember.map (·, fun _ => true))).2.1.files

theorem storage_agrees_with_shadow_after_restart_two_saves :
    ∃ s : Calls JsonLib.fieldJson,
      (Calls.initial (construct ["controller.d"] restartFiles) ⟨restartFiles, fun _ => none⟩).run
        twoSaves = some s ∧ s.Quiescent ∧ ∀ k,
        (readKey s.db s.store k = none ∧ shadowKey s.db k = none) ∨
          ∃ j, readKey s.db s.store k = some (JsonLib.fieldJson.jsonDump j) ∧
            shadowKey s.db k = some (JsonLib.fieldJson.toMsgpack j) := by
  have hp := (Persisted.start ["controller.d"] (fun _ => none)).run (fun _ => rfl)
    saveNetworkThenMember saveNetworkThenMember_records.1 saveNetworkThenMember_records.2
  obtain ⟨s, hrun⟩ : ∃ s, (Calls.initial (construct ["controller.d"] restartFiles)
      ⟨restartFiles, fun _ => none⟩).run twoSaves = some s := ⟨_, rfl⟩
  have hq := twoSaves_quiescent _ _ hrun
  exact ⟨s, hrun, hq, storage_agrees_with_shadow_after_restart (fun _ => rfl) (fun _ => rfl) _ _
    hp.filed hp.mirrors
    (Calls.reach_of_runSerialized .start (twoSaves_runSerialized _ _) hrun) hq⟩

-- Serialized calls are linearizable at their locked blocks. At every state a run reaches, the
-- shadow that the reads answer from holds, under every key, what the abstract store holds after the
-- calls whose locked blocks have run, in the order they ran; once no call is in progress, storage
-- holds the same.
theorem serialized_calls_linearize (hround : ∀ j, L.fromMsgpack (L.toMsgpack j) = .ok j)
    {mode : Mode} (hmode : mode ≠ .ipc) (basePath : List String) {ops : List (StoreOp L)}
    {s : Calls L}
    (hser : (Calls.initial (fresh mode basePath) ⟨∅, fun _ => none⟩).RunSerialized ops)
    (hrun : (Calls.initial (fresh mode basePath) ⟨∅, fun _ => none⟩).run ops = some s) :
    (∀ k, shadowKey s.db k = ((AbstractStore.run ∅
        ((Calls.initial (fresh mode basePath) ⟨∅, fun _ => none⟩).linearize ops)).1.atKey k).map
        L.toMsgpack) ∧
      (s.Quiescent → ∀ k, readKey s.db s.store k = ((AbstractStore.run ∅
        ((Calls.initial (fresh mode basePath) ⟨∅, fun _ => none⟩).linearize ops)).1.atKey k).map
        L.jsonDump) := by
  have h := Inv.run hround ops (Inv.initial hmode basePath) hser hrun
  exact ⟨h.refines.shadowKey, fun hq k =>
    h.free fun t => by simp [hq t, StorePc.network]⟩

theorem serialized_calls_linearize_two_saves :
    ∃ s : Calls JsonLib.fieldJson,
      (Calls.initial (fresh .filesystem []) ⟨∅, fun _ => none⟩).run twoSaves = some s ∧
      (Calls.initial (fresh .filesystem []) ⟨∅, fun _ => none⟩).RunSerialized twoSaves ∧
      (∀ k, shadowKey s.db k = ((AbstractStore.run ∅
        ((Calls.initial (fresh .filesystem []) ⟨∅, fun _ => none⟩).linearize twoSaves)).1.atKey
          k).map JsonLib.fieldJson.toMsgpack) ∧
      (s.Quiescent → ∀ k, readKey s.db s.store k = ((AbstractStore.run ∅
        ((Calls.initial (fresh .filesystem []) ⟨∅, fun _ => none⟩).linearize twoSaves)).1.atKey
          k).map JsonLib.fieldJson.jsonDump) := by
  have hser := twoSaves_runSerialized (fresh .filesystem []) ⟨∅, fun _ => none⟩
  exact ⟨_, rfl, hser, serialized_calls_linearize (fun _ => rfl) (by decide) [] hser rfl⟩

-- Two saves of one network whose writes and locked blocks land in opposite orders: the file keeps
-- the second save and the shadow the first.
theorem saves_in_opposite_orders (L : JsonLib) (basePath : List String) (ja jb : L.Json) :
    ∃ s : Calls L, (Calls.initial (fresh .filesystem basePath) ⟨∅, fun _ => none⟩).run
        [.saveNetwork 0 1 ja true, .saveNetwork 1 1 jb true, .locked 1, .locked 0] = some s ∧
      s.Quiescent ∧ readKey s.db s.store (.network 1) = some (L.jsonDump jb) ∧
      shadowKey s.db (.network 1) = some (L.toMsgpack ja) :=
  ⟨_, rfl, fun t => by
    by_cases e₀ : t = 0 <;> by_cases e₁ : t = 1 <;>
      simp [Calls.setPc, Calls.initial, Function.update_apply, e₀, e₁],
    by simp [readKey, Calls.setPc, Calls.initial, JSONDB.fresh, JSONDB.setConfig,
      JSONDB.recomputeSummaryInfo, JSONDB.modifyNetwork, writeRaw, Key.path, networkPath,
      AList.lookup_insert, -AList.insert_empty],
    by simp [shadowKey, Calls.setPc, Calls.initial, JSONDB.setConfig, lookup_modifyNetwork]⟩

theorem overlapping_saves_diverge :
    ∃ s : Calls JsonLib.fieldJson,
      Calls.Reach Calls.AnyStep (Calls.initial (fresh .filesystem []) ⟨∅, fun _ => none⟩) s ∧
      s.Quiescent ∧
      ¬((readKey s.db s.store (.network 1) = none ∧ shadowKey s.db (.network 1) = none) ∨
        ∃ j, readKey s.db s.store (.network 1) = some (JsonLib.fieldJson.jsonDump j) ∧
          shadowKey s.db (.network 1) = some (JsonLib.fieldJson.toMsgpack j)) := by
  obtain ⟨s, hrun, hq, hfile, hshadow⟩ :=
    saves_in_opposite_orders JsonLib.fieldJson [] (.string "a") (.string "b")
  refine ⟨s, Calls.reach_of_run .start (fun _ _ _ => trivial) hrun, hq, ?_⟩
  rw [hfile, hshadow]
  rintro (⟨h, -⟩ | ⟨j, h₁, h₂⟩)
  · cases h
  · have e : FieldJson.string "b" = FieldJson.string "a" :=
      (Option.some.inj h₁).trans (Option.some.inj (Option.some.inj h₂)).symm
    exact absurd e (by decide)

end JSONDB

end ZeroTier
