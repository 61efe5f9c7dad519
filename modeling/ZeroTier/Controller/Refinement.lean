import ZeroTier.Controller.JSONDB

namespace ZeroTier

-- What the store is for: each network's config with its members' records, as last saved.
structure AbstractNetwork (L : JsonLib) where
  config : L.Json
  members : AList (fun _ : UInt64 => L.Json)

abbrev AbstractStore (L : JsonLib) := AList (fun _ : UInt64 => AbstractNetwork L)

namespace AbstractStore

variable {L : JsonLib}

def saveConfig (M : AbstractStore L) (nwid : UInt64) (j : L.Json) : AbstractStore L :=
  M.insert nwid ⟨j, ((M.lookup nwid).map (·.members)).getD ∅⟩

-- A member of a network that does not exist is not kept.
def saveMember (M : AbstractStore L) (nwid nodeId : UInt64) (j : L.Json) : AbstractStore L :=
  match M.lookup nwid with
  | some n => M.insert nwid { n with members := n.members.insert nodeId j }
  | none => M

def eraseMember (M : AbstractStore L) (nwid nodeId : UInt64) : AbstractStore L :=
  match M.lookup nwid with
  | some n => M.insert nwid { n with members := n.members.erase nodeId }
  | none => M

def member (M : AbstractStore L) (nwid nodeId : UInt64) : Option L.Json :=
  (M.lookup nwid).bind (·.members.lookup nodeId)

-- The calls as the spec describes them; `_add` files a record where its checks say.
def call (M : AbstractStore L) : JSONDB.Call L → AbstractStore L × JSONDB.Reply L
  | .hasNetwork nwid => (M, .flag (M.lookup nwid).isSome)
  | .getNetwork nwid => (M, .json ((M.lookup nwid).map (·.config)))
  | .getNetworkAndMember nwid nodeId => (M,
      match M.lookup nwid with
      | none => .networkAndMember 0 none
      | some n =>
          match n.members.lookup nodeId with
          | none => .networkAndMember 1 none
          | some j => .networkAndMember 3 (some (n.config, j)))
  | .getNetworkMember nwid nodeId => (M, .json (M.member nwid nodeId))
  | .saveNetwork nwid j => (M.saveConfig nwid j, .done)
  | .saveNetworkMember nwid nodeId j => (M.saveMember nwid nodeId j, .done)
  | .eraseNetwork nwid =>
      (M.erase nwid, .erased (((M.lookup nwid).map (·.config)).getD L.emptyObject))
  | .eraseNetworkMember nwid nodeId _ =>
      (M.eraseMember nwid nodeId, .erased ((M.member nwid nodeId).getD L.emptyObject))
  | .add j =>
      match JSONDB.addTarget L j with
      | some (.network nwid) => (M.saveConfig nwid j, .flag true)
      | some (.member nwid nodeId) => (M.saveMember nwid nodeId j, .flag true)
      | none => (M, .flag false)

def run (M : AbstractStore L) : List (JSONDB.Call L) → AbstractStore L × List (JSONDB.Reply L)
  | [] => (M, [])
  | c :: calls =>
      let s := M.call c
      let rest := run s.1 calls
      (rest.1, s.2 :: rest.2)

-- The network a call puts a member into.
def memberNetwork (L : JsonLib) : JSONDB.Call L → Option UInt64
  | .saveNetworkMember nwid _ _ => some nwid
  | .add j =>
      match JSONDB.addTarget L j with
      | some (.member nwid _) => some nwid
      | _ => none
  | _ => none

-- Every member is put into a network that exists at that point.
def MembersIntoExisting : AbstractStore L → List (JSONDB.Call L) → Prop
  | _, [] => True
  | M, c :: calls =>
      (∀ nwid, memberNetwork L c = some nwid → nwid ∈ M) ∧ MembersIntoExisting (M.call c).1 calls

section Updates

variable (M : AbstractStore L)

theorem lookup_saveConfig_ne (nwid : UInt64) (j : L.Json) {w : UInt64} (hw : w ≠ nwid) :
    (M.saveConfig nwid j).lookup w = M.lookup w :=
  AList.lookup_insert_ne hw

theorem lookup_saveMember_ne (nwid nodeId : UInt64) (j : L.Json) {w : UInt64} (hw : w ≠ nwid) :
    (M.saveMember nwid nodeId j).lookup w = M.lookup w := by
  unfold saveMember; split <;> simp [AList.lookup_insert_ne hw]

theorem lookup_eraseMember_ne (nwid nodeId : UInt64) {w : UInt64} (hw : w ≠ nwid) :
    (M.eraseMember nwid nodeId).lookup w = M.lookup w := by
  unfold eraseMember; split <;> simp [AList.lookup_insert_ne hw]

-- Saving or erasing a member keeps every config.
theorem config_saveMember (nwid nodeId : UInt64) (j : L.Json) (w : UInt64) :
    ((M.saveMember nwid nodeId j).lookup w).map (·.config) = (M.lookup w).map (·.config) := by
  by_cases e : w = nwid
  · subst e; unfold saveMember; split <;> simp_all [AList.lookup_insert]
  · rw [lookup_saveMember_ne M _ _ _ e]

theorem config_eraseMember (nwid nodeId : UInt64) (w : UInt64) :
    ((M.eraseMember nwid nodeId).lookup w).map (·.config) = (M.lookup w).map (·.config) := by
  by_cases e : w = nwid
  · subst e; unfold eraseMember; split <;> simp_all [AList.lookup_insert]
  · rw [lookup_eraseMember_ne M _ _ e]

theorem member_saveConfig (nwid : UInt64) (j : L.Json) (w m : UInt64) :
    (M.saveConfig nwid j).member w m = M.member w m := by
  by_cases e : w = nwid
  · subst e; cases hl : M.lookup w <;> simp [saveConfig, member, hl, AList.lookup_insert]
  · simp [saveConfig, member, AList.lookup_insert_ne e]

theorem member_saveMember {nwid : UInt64} (hmem : nwid ∈ M) (nodeId : UInt64) (j : L.Json)
    (w m : UInt64) :
    (M.saveMember nwid nodeId j).member w m =
      if w = nwid ∧ m = nodeId then some j else M.member w m := by
  obtain ⟨n, hn⟩ := Option.isSome_iff_exists.1 (AList.lookup_isSome.2 hmem)
  by_cases e : w = nwid
  · subst e
    by_cases em : m = nodeId
    · subst em; simp [saveMember, member, hn, AList.lookup_insert]
    · simp [saveMember, member, hn, AList.lookup_insert, AList.lookup_insert_ne em, em]
  · simp [member, lookup_saveMember_ne M _ _ _ e, e]

theorem member_eraseMember (nwid nodeId : UInt64) (w m : UInt64) :
    (M.eraseMember nwid nodeId).member w m =
      if w = nwid ∧ m = nodeId then none else M.member w m := by
  by_cases e : w = nwid
  · subst e
    cases hn : M.lookup w with
    | none => simp [eraseMember, member, hn]
    | some n =>
      by_cases em : m = nodeId
      · subst em; simp [eraseMember, member, hn, AList.lookup_insert]
      · simp [eraseMember, member, hn, AList.lookup_insert, AList.lookup_erase_ne em, em]
  · simp [member, lookup_eraseMember_ne M _ _ e, e]

end Updates

end AbstractStore

namespace JSONDB

variable {L : JsonLib}

-- A shadow network holds an abstract one packed: its config and every member as MessagePack.
def Packs (nw : NW L) (n : AbstractNetwork L) : Prop :=
  nw.config = L.toMsgpack n.config ∧ ∀ m, nw.members.lookup m = (n.members.lookup m).map L.toMsgpack

def Refines (networks : AList (fun _ : UInt64 => NW L)) (M : AbstractStore L) : Prop :=
  ∀ nwid, Option.Rel Packs (networks.lookup nwid) (M.lookup nwid)

-- A concrete reply agrees with the abstract one: returned normally and equal, except that what
-- `eraseNetworkMember` returns is not compared (Refines.eraseMemberLocked_reply says what it is).
def Agrees (c : Call L) (r : Except Unit (Reply L)) (r' : Reply L) : Prop :=
  match c with
  | .eraseNetworkMember .. => ∃ j, r = .ok (.erased j)
  | _ => r = .ok r'

section Refinement

variable {networks : AList (fun _ : UInt64 => NW L)} {M : AbstractStore L}

theorem Refines.insert (h : Refines networks M) {nwid : UInt64} {nw : NW L}
    {n : AbstractNetwork L} (hp : Packs nw n) : Refines (networks.insert nwid nw) (M.insert nwid n) := by
  intro w
  by_cases hw : w = nwid
  · subst hw; rw [AList.lookup_insert, AList.lookup_insert]; exact .some hp
  · rw [AList.lookup_insert_ne hw, AList.lookup_insert_ne hw]; exact h w

theorem Refines.erase (h : Refines networks M) (nwid : UInt64) :
    Refines (networks.erase nwid) (M.erase nwid) := by
  intro w
  by_cases hw : w = nwid
  · subst hw; rw [AList.lookup_erase, AList.lookup_erase]; exact .none
  · rw [AList.lookup_erase_ne hw, AList.lookup_erase_ne hw]; exact h w

theorem Refines.lookup (h : Refines networks M) (nwid : UInt64) :
    (∃ nw n, networks.lookup nwid = some nw ∧ M.lookup nwid = some n ∧ Packs nw n) ∨
      (networks.lookup nwid = none ∧ M.lookup nwid = none) := by
  have hr := h nwid
  generalize networks.lookup nwid = a at hr ⊢
  generalize M.lookup nwid = b at hr ⊢
  cases hr with
  | some hp => exact .inl ⟨_, _, rfl, rfl, hp⟩
  | none => exact .inr ⟨rfl, rfl⟩

theorem Refines.isSome_eq (h : Refines networks M) (nwid : UInt64) :
    (networks.lookup nwid).isSome = (M.lookup nwid).isSome := by
  rcases h.lookup nwid with ⟨_, _, hnw, hn, _⟩ | ⟨hnw, hn⟩ <;> simp [hnw, hn]

-- Changing the abstract network where the shadow already packs the new one.
theorem Refines.insert_right (h : Refines networks M) {nwid : UInt64} {nw : NW L}
    {n : AbstractNetwork L} (hnw : networks.lookup nwid = some nw) (hp : Packs nw n) :
    Refines networks (M.insert nwid n) := by
  intro w
  by_cases hw : w = nwid
  · subst hw; rw [AList.lookup_insert, hnw]; exact .some hp
  · rw [AList.lookup_insert_ne hw]; exact h w

theorem Refines.erase_right (h : Refines networks M) {nwid : UInt64}
    (hnw : networks.lookup nwid = none) : Refines networks (M.erase nwid) := by
  intro w
  by_cases hw : w = nwid
  · subst hw; rw [AList.lookup_erase, hnw]; exact .none
  · rw [AList.lookup_erase_ne hw]; exact h w

theorem packs_config_empty (j : L.Json) :
    Packs { NW.empty L with config := L.toMsgpack j } ⟨j, ∅⟩ := by
  simp [Packs, NW.empty]

theorem Packs.insert {nw : NW L} {n : AbstractNetwork L} (h : Packs nw n) (nodeId : UInt64)
    (j : L.Json) :
    Packs { nw with members := nw.members.insert nodeId (L.toMsgpack j) }
      { n with members := n.members.insert nodeId j } := by
  refine ⟨h.1, fun m => ?_⟩
  by_cases hm : m = nodeId
  · subst hm; simp [AList.lookup_insert]
  · simp [AList.lookup_insert_ne hm, h.2 m]

theorem Packs.erase {nw : NW L} {n : AbstractNetwork L} (h : Packs nw n) (nodeId : UInt64) :
    Packs { nw with members := nw.members.erase nodeId }
      { n with members := n.members.erase nodeId } := by
  refine ⟨h.1, fun m => ?_⟩
  by_cases hm : m = nodeId
  · subst hm; simp [AList.lookup_erase]
  · simp [AList.lookup_erase_ne hm, h.2 m]

theorem Packs.erase_absent {nw : NW L} {n : AbstractNetwork L} (h : Packs nw n) {nodeId : UInt64}
    (hm : nodeId ∉ nw.members) : Packs nw { n with members := n.members.erase nodeId } := by
  refine ⟨h.1, fun m => ?_⟩
  by_cases e : m = nodeId
  · subst e; simp [AList.lookup_erase, AList.lookup_eq_none.2 hm]
  · simp [AList.lookup_erase_ne e, h.2 m]

theorem Refines.setConfig {db : JSONDB L} (h : Refines db.networks M) (nwid : UInt64)
    (j : L.Json) : Refines (db.setConfig nwid (L.toMsgpack j)).networks (M.saveConfig nwid j) := by
  simp only [JSONDB.setConfig, modifyNetwork, AbstractStore.saveConfig]
  rcases h.lookup nwid with ⟨nw, n, hnw, hn, hp⟩ | ⟨hnw, hn⟩
  · rw [hnw, hn]; exact h.insert ⟨rfl, hp.2⟩
  · rw [hnw, hn]; exact h.insert (packs_config_empty j)

theorem Refines.setMember {db : JSONDB L} (h : Refines db.networks M) {nwid : UInt64}
    (hmem : nwid ∈ M) (nodeId : UInt64) (j : L.Json) :
    Refines (db.setMember nwid nodeId (L.toMsgpack j)).networks (M.saveMember nwid nodeId j) := by
  rcases h.lookup nwid with ⟨nw, n, hnw, hn, hp⟩ | ⟨hnw, hn⟩
  · simp only [JSONDB.setMember, modifyNetwork, AbstractStore.saveMember, hnw, hn, Option.getD_some]
    exact h.insert (hp.insert nodeId j)
  · exact absurd (AList.lookup_isSome.2 hmem) (by simp [hn])

theorem Refines.eraseMemberLocked {db : JSONDB L} (h : Refines db.networks M) (nwid nodeId : UInt64)
    (recompute : Bool) :
    Refines (db.eraseMemberLocked nwid nodeId recompute).1.networks (M.eraseMember nwid nodeId) := by
  rw [networks_eraseMemberLocked]
  rcases h.lookup nwid with ⟨nw, n, hnw, hn, hp⟩ | ⟨hnw, hn⟩
  · simp only [hnw, AbstractStore.eraseMember, hn]
    split
    · exact h.insert (hp.erase nodeId)
    · exact h.insert_right hnw (hp.erase_absent ‹_›)
  · simp only [hnw, AbstractStore.eraseMember, hn]
    exact h

section Calls

variable (hround : ∀ j, L.fromMsgpack (L.toMsgpack j) = .ok j)
include hround

theorem Refines.eraseNetwork {db : JSONDB L} (h : Refines db.networks M) (store : Store L)
    (ok : List String → Bool) (nwid : UInt64) :
    Refines (db.eraseNetwork store ok nwid).1.networks (M.erase nwid) ∧
      (db.eraseNetwork store ok nwid).2.2 =
        .ok (((M.lookup nwid).map (·.config)).getD L.emptyObject) := by
  obtain ⟨db', hne, hcfg, h1, h2⟩ := eraseNetwork_eq db store ok nwid
  rw [h1, h2]
  rcases h.lookup nwid with ⟨nw, n, hnw, hn, hp⟩ | ⟨hnw, hn⟩
  · rw [hnw] at hcfg
    obtain ⟨nw', hnw', hc'⟩ : ∃ nw', db'.networks.lookup nwid = some nw' ∧ nw'.config = nw.config := by
      cases e : db'.networks.lookup nwid <;> simp_all
    simp only [eraseNetworkLocked, hnw', hc', hp.1, hround, hn, Option.map_some', Option.getD_some]
    refine ⟨fun w => ?_, by simp⟩
    by_cases hw : w = nwid
    · rw [hw, AList.lookup_erase, AList.lookup_erase]; exact .none
    · rw [AList.lookup_erase_ne hw, AList.lookup_erase_ne hw, hne w hw]; exact h w
  · rw [hnw, Option.map_none', Option.map_eq_none'] at hcfg
    simp only [eraseNetworkLocked, hcfg, hn, Option.map_none', Option.getD_none]
    refine ⟨fun w => ?_, by simp⟩
    by_cases hw : w = nwid
    · rw [hw, AList.lookup_erase, hcfg]; exact .none
    · rw [AList.lookup_erase_ne hw, hne w hw]; exact h w

-- One call keeps the shadow packing the abstract store, and replies as it does.
theorem call_refines {db : JSONDB L} (h : Refines db.networks M) (store : Store L)
    (ok : List String → Bool) (c : Call L)
    (hc : ∀ nwid, AbstractStore.memberNetwork L c = some nwid → nwid ∈ M) :
    Refines (db.call store ok c).1.networks (M.call c).1 ∧
      Agrees c (db.call store ok c).2.2 (M.call c).2 := by
  cases c with
  | hasNetwork nwid =>
    exact ⟨h, by simp [call, AbstractStore.call, Agrees, hasNetwork, h.isSome_eq nwid]⟩
  | getNetwork nwid =>
    refine ⟨h, ?_⟩
    rcases h.lookup nwid with ⟨nw, n, hnw, hn, hp⟩ | ⟨hnw, hn⟩
    · simp [call, AbstractStore.call, Agrees, getNetwork, hnw, hn, hp.1, hround]
    · simp [call, AbstractStore.call, Agrees, getNetwork, hnw, hn]
  | getNetworkAndMember nwid nodeId =>
    refine ⟨h, ?_⟩
    rcases h.lookup nwid with ⟨nw, n, hnw, hn, hp⟩ | ⟨hnw, hn⟩
    · cases hm : n.members.lookup nodeId <;>
        simp [call, AbstractStore.call, Agrees, getNetworkAndMember, hnw, hn, hp.1, hp.2, hm, hround,
          bind, Except.bind, pure, Except.pure]
    · simp [call, AbstractStore.call, Agrees, getNetworkAndMember, hnw, hn]
  | getNetworkMember nwid nodeId =>
    refine ⟨h, ?_⟩
    rcases h.lookup nwid with ⟨nw, n, hnw, hn, hp⟩ | ⟨hnw, hn⟩
    · cases hm : n.members.lookup nodeId <;>
        simp [call, AbstractStore.call, AbstractStore.member, Agrees, getNetworkMember, hnw, hn,
          hp.2, hm, hround]
    · simp [call, AbstractStore.call, AbstractStore.member, Agrees, getNetworkMember, hnw, hn]
  | saveNetwork nwid j =>
    exact ⟨by simpa [call, AbstractStore.call, saveNetwork] using h.setConfig nwid j,
      by simp [call, AbstractStore.call, Agrees]⟩
  | saveNetworkMember nwid nodeId j =>
    exact ⟨by simpa [call, AbstractStore.call, saveNetworkMember] using
      h.setMember (hc nwid rfl) nodeId j, by simp [call, AbstractStore.call, Agrees]⟩
  | eraseNetwork nwid =>
    obtain ⟨hr, hreply⟩ := h.eraseNetwork hround store ok nwid
    exact ⟨hr, by simp [call, AbstractStore.call, Agrees, hreply]⟩
  | eraseNetworkMember nwid nodeId recompute =>
    exact ⟨h.eraseMemberLocked nwid nodeId recompute, by simp [call, Agrees]⟩
  | add j =>
    simp only [call, AbstractStore.call, Agrees, add]
    cases ht : addTarget L j with
    | none => exact ⟨h, rfl⟩
    | some t =>
      cases t with
      | network nwid => exact ⟨h.setConfig nwid j, rfl⟩
      | member nwid nodeId =>
        exact ⟨h.setMember (hc nwid (by simp [AbstractStore.memberNetwork, ht])) nodeId j, rfl⟩

end Calls

end Refinement

end JSONDB

end ZeroTier
