import ZeroTier.Controller.JSONDB

namespace ZeroTier

namespace JSONDB

variable {L : JsonLib}

-- `nodeId` is a member of network `nwid`.
def MemberOf (networks : AList (fun _ : UInt64 => NW L)) (nwid nodeId : UInt64) : Prop :=
  ∃ nw, networks.lookup nwid = some nw ∧ nodeId ∈ nw.members

theorem memberOf_setConfig (db : JSONDB L) (nwid : UInt64) (config : L.Packed) (w m : UInt64) :
    MemberOf (db.setConfig nwid config).networks w m ↔ MemberOf db.networks w m := by
  simp only [MemberOf, JSONDB.setConfig, lookup_modifyNetwork]
  by_cases hw : w = nwid
  · subst hw; cases hl : db.networks.lookup w <;> simp [hl, NW.empty]
  · simp [hw]

theorem memberOf_setMember (db : JSONDB L) (nwid nodeId : UInt64) (bytes : L.Packed)
    (w m : UInt64) :
    MemberOf (db.setMember nwid nodeId bytes).networks w m ↔
      MemberOf db.networks w m ∨ (w = nwid ∧ m = nodeId) := by
  simp only [MemberOf, JSONDB.setMember, lookup_modifyNetwork]
  by_cases hw : w = nwid
  · subst hw
    cases hl : db.networks.lookup w with
    | none => simp [hl, NW.empty, AList.mem_keys, AList.keys_singleton]
    | some nw => simp [hl, AList.mem_insert, or_comm]
  · simp [hw]

theorem memberOf_eraseMemberLocked (db : JSONDB L) (nwid nodeId : UInt64) (recompute : Bool)
    (w m : UInt64) :
    MemberOf (db.eraseMemberLocked nwid nodeId recompute).1.networks w m ↔
      MemberOf db.networks w m ∧ ¬(w = nwid ∧ m = nodeId) := by
  rw [networks_eraseMemberLocked]
  cases hl : db.networks.lookup nwid with
  | none =>
    by_cases hw : w = nwid
    · subst hw; simp [MemberOf, hl]
    · simp [hw]
  | some nw =>
    dsimp only
    split
    · by_cases hw : w = nwid
      · subst hw; simp [MemberOf, AList.lookup_insert, AList.mem_erase, and_comm, hl]
      · simp [MemberOf, AList.lookup_insert_ne hw, hw]
    · next hmem =>
      by_cases h : w = nwid ∧ m = nodeId
      · obtain ⟨rfl, rfl⟩ := h; simp [MemberOf, hl, hmem]
      · simp [h]

-- `_members` is the reverse of the member maps: network `nwid` is listed for `nodeId` exactly
-- when `nodeId` is a member of network `nwid`.
def IndexAgrees (db : JSONDB L) : Prop :=
  ∀ nwid nodeId, nwid ∈ db.members nodeId ↔ MemberOf db.networks nwid nodeId

variable {db : JSONDB L}

theorem IndexAgrees.fresh (mode : Mode) (basePath : List String) :
    IndexAgrees (fresh mode basePath : JSONDB L) := by
  intro nwid nodeId
  simp [JSONDB.fresh, MemberOf, AList.lookup_empty]

theorem IndexAgrees.recomputeSummaryInfo (h : IndexAgrees db) (nwid : UInt64) :
    IndexAgrees (db.recomputeSummaryInfo nwid) := by
  intro w m
  rw [members_recomputeSummaryInfo, networks_recomputeSummaryInfo]
  exact h w m

theorem IndexAgrees.setConfig (h : IndexAgrees db) (nwid : UInt64) (config : L.Packed) :
    IndexAgrees (db.setConfig nwid config) := fun w m => by
  rw [memberOf_setConfig, ← h w m]; rfl

theorem IndexAgrees.setMember (h : IndexAgrees db) (nwid nodeId : UInt64) (bytes : L.Packed) :
    IndexAgrees (db.setMember nwid nodeId bytes) := fun w m => by
  rw [memberOf_setMember, ← h w m]
  show w ∈ Function.update db.members nodeId (insert nwid (db.members nodeId)) m ↔ _
  rw [Function.update_apply]
  by_cases hm : m = nodeId
  · subst hm; simp [Finset.mem_insert, or_comm]
  · simp [hm]

theorem IndexAgrees.eraseMemberLocked (h : IndexAgrees db) (nwid nodeId : UInt64)
    (recompute : Bool) : IndexAgrees (db.eraseMemberLocked nwid nodeId recompute).1 := fun w m => by
  rw [memberOf_eraseMemberLocked, members_eraseMemberLocked, ← h w m, Function.update_apply]
  by_cases hm : m = nodeId
  · subst hm; simp [Finset.mem_erase, and_comm]
  · simp [hm]

theorem IndexAgrees.eraseMembers (h : IndexAgrees db) (store : Store L) (ok : List String → Bool)
    (nwid : UInt64) (ids : List UInt64) : IndexAgrees (db.eraseMembers store ok nwid ids).1 := by
  induction ids generalizing db store with
  | nil => exact h
  | cons nodeId ids ih =>
    simp only [eraseMembers, List.foldl_cons] at ih ⊢
    exact ih (h.eraseMemberLocked nwid nodeId false) _

-- The cascade leaves network `nwid` with the members it had that were not listed.
theorem members_eraseMembers (store : Store L) (ok : List String → Bool) {nwid : UInt64}
    (ids : List UInt64) {nw : NW L} (hl : db.networks.lookup nwid = some nw) :
    ∃ nw', (db.eraseMembers store ok nwid ids).1.networks.lookup nwid = some nw' ∧
      ∀ m, m ∈ nw'.members ↔ m ∈ nw.members ∧ m ∉ ids := by
  induction ids generalizing db store nw with
  | nil => exact ⟨nw, hl, fun m => by simp⟩
  | cons nodeId ids ih =>
    simp only [eraseMembers, List.foldl_cons] at ih ⊢
    have hstep : ∃ nw₁, (db.eraseMemberLocked nwid nodeId false).1.networks.lookup nwid = some nw₁ ∧
        ∀ m, m ∈ nw₁.members ↔ m ∈ nw.members ∧ m ≠ nodeId := by
      rw [networks_eraseMemberLocked, hl]
      dsimp only
      split
      · exact ⟨_, AList.lookup_insert _, fun m => by simp [AList.mem_erase, and_comm]⟩
      · exact ⟨nw, hl, fun m => ⟨fun hm => ⟨hm, by rintro rfl; contradiction⟩, And.left⟩⟩
    obtain ⟨nw₁, hl₁, hm₁⟩ := hstep
    obtain ⟨nw', hl', hm'⟩ := ih _ hl₁
    exact ⟨nw', hl', fun m => by rw [hm', hm₁]; simp [List.mem_cons, not_or, and_assoc]⟩

-- The final block keeps the index when the network it erases has no members left.
theorem IndexAgrees.eraseNetworkLocked (h : IndexAgrees db) (nwid : UInt64)
    (hempty : ∀ nw, db.networks.lookup nwid = some nw → ∀ m, m ∉ nw.members) :
    IndexAgrees (db.eraseNetworkLocked nwid).1 := by
  unfold JSONDB.eraseNetworkLocked
  split
  · exact h
  · next nw hl =>
    split
    · intro w m
      rw [h w m]
      by_cases hw : w = nwid
      · subst hw; simp [MemberOf, AList.lookup_erase, hl, hempty nw hl m]
      · simp [MemberOf, AList.lookup_erase_ne hw]
    · exact h

-- Outside HTTP mode `eraseNetwork` erases every member first, so the index stays exact.
theorem IndexAgrees.eraseNetwork (h : IndexAgrees db) (hmode : db.mode ≠ .http) (store : Store L)
    (ok : List String → Bool) (nwid : UInt64) : IndexAgrees (db.eraseNetwork store ok nwid).1 := by
  cases hl : db.networks.lookup nwid with
  | none => simp [JSONDB.eraseNetwork, hmode, memberIds, hl, h]
  | some nw =>
    have hcascade := h.eraseMembers store ok nwid nw.members.keys
    obtain ⟨nw', hl', hm'⟩ := members_eraseMembers store ok nw.members.keys hl
    simp only [JSONDB.eraseNetwork, hmode, if_false, memberIds, hl, Option.map_some']
    refine hcascade.eraseNetworkLocked nwid fun nw'' hl'' m hm => ?_
    rw [hl'] at hl''
    cases hl''
    exact ((hm' m).1 hm).2 (AList.mem_keys.1 ((hm' m).1 hm).1)

theorem IndexAgrees.add (h : IndexAgrees db) (j : L.Json) : IndexAgrees (db.add j).1 := by
  unfold JSONDB.add
  split
  · exact h.setConfig _ _
  · exact h.setMember _ _ _
  · exact h

theorem IndexAgrees.call (h : IndexAgrees db) (hmode : db.mode ≠ .http) (store : Store L)
    (ok : List String → Bool) (c : Call L) : IndexAgrees (db.call store ok c).1 := by
  cases c with
  | saveNetwork nwid j => exact (h.setConfig nwid _).recomputeSummaryInfo nwid
  | saveNetworkMember nwid nodeId j => exact (h.setMember nwid nodeId _).recomputeSummaryInfo nwid
  | eraseNetwork nwid => exact h.eraseNetwork hmode store ok nwid
  | eraseNetworkMember nwid nodeId recompute => exact h.eraseMemberLocked nwid nodeId recompute
  | add j => exact h.add j
  | _ => exact h

-- In filesystem and IPC mode every run of calls keeps the index exact.
theorem IndexAgrees.run (h : IndexAgrees db) (hmode : db.mode ≠ .http) (store : Store L)
    (calls : List (Call L × (List String → Bool))) : IndexAgrees (db.run store calls).1 := by
  induction calls generalizing db store with
  | nil => exact h
  | cons c calls ih =>
    exact ih (h.call hmode store c.2 c.1) (by rwa [mode_call]) _

-- In HTTP mode `eraseNetwork` leaves the members to the harness and skips the cascade, so a
-- member saved into a network loaded by `_add` keeps the network in its reverse entry after the
-- network is erased.
theorem eraseNetwork_http_keeps_reverse_entry (hround : ∀ j, L.fromMsgpack (L.toMsgpack j) = .ok j)
    (hmode : db.mode = .http) (store : Store L) (ok : List String → Bool) (p j : L.Json)
    {nwid : UInt64} (hp : addTarget L p = some (.network nwid)) (nodeId : UInt64) :
    let db' := (db.run store [(.add p, ok), (.saveNetworkMember nwid nodeId j, ok),
      (.eraseNetwork nwid, ok)]).1
    nwid ∈ db'.members nodeId ∧ db'.networks.lookup nwid = none := by
  simp [JSONDB.run, JSONDB.call, JSONDB.add, hp, JSONDB.saveNetworkMember, JSONDB.eraseNetwork,
    hmode, JSONDB.eraseNetworkLocked, JSONDB.setMember, JSONDB.setConfig, lookup_modifyNetwork,
    hround, AList.lookup_erase]

theorem eraseNetwork_http_keeps_reverse_entry_harness :
    addTarget JsonLib.fieldJson
        (FieldJson.object [("id", "0000000000000001"), ("objtype", "network")]) =
          some (.network 1) ∧
      let db' := ((fresh .http [] : JSONDB JsonLib.fieldJson).run ⟨∅, fun _ => none⟩
        [(.add (FieldJson.object [("id", "0000000000000001"), ("objtype", "network")]),
            fun _ => true),
          (.saveNetworkMember 1 1 (FieldJson.object []), fun _ => true),
          (.eraseNetwork 1, fun _ => true)]).1
      1 ∈ db'.members 1 ∧ db'.networks.lookup 1 = none :=
  ⟨by decide, @eraseNetwork_http_keeps_reverse_entry JsonLib.fieldJson (fresh .http []) (fun _ => rfl)
    rfl ⟨∅, fun _ => none⟩ (fun _ => true)
    (FieldJson.object [("id", "0000000000000001"), ("objtype", "network")]) (FieldJson.object []) 1
    (by decide) 1⟩

end JSONDB

end ZeroTier
