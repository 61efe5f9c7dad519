import ZeroTier.Controller.Load
import ZeroTier.Controller.Refinement

namespace ZeroTier

namespace JSONDB

variable {L : JsonLib}

-- Where `_genPath` puts the records.

def networkPath (basePath : List String) (nwid : UInt64) : List String :=
  basePath ++ ["network", formatHex 16 nwid ++ ".json"]

def memberPath (basePath : List String) (nwid nodeId : UInt64) : List String :=
  basePath ++ ["network", formatHex 16 nwid, "member", formatHex 10 nodeId ++ ".json"]

@[simp] theorem genPath_networkName (basePath : List String) (nwid : UInt64) :
    genPath basePath (networkName nwid) = some (networkPath basePath nwid) := by
  simp [genPath, networkName, networkPath]

@[simp] theorem genPath_memberName (basePath : List String) (nwid nodeId : UInt64) :
    genPath basePath (memberName nwid nodeId) = some (memberPath basePath nwid nodeId) := by
  simp [genPath, memberName, memberPath]

theorem formatHex_injective (width : Nat) : Function.Injective (formatHex width) := fun a b h => by
  rw [← hexStrToU64_formatHex width a, h, hexStrToU64_formatHex]

theorem append_json_inj {s t : String} : s ++ ".json" = t ++ ".json" ↔ s = t := by
  refine ⟨fun h => String.ext ?_, fun h => h ▸ rfl⟩
  have hd := congrArg String.data h
  rw [String.data_append, String.data_append] at hd
  exact List.append_cancel_right hd

@[simp] theorem networkPath_inj {basePath : List String} {nwid nwid' : UInt64} :
    networkPath basePath nwid = networkPath basePath nwid' ↔ nwid = nwid' := by
  simp [networkPath, append_json_inj, (formatHex_injective 16).eq_iff]

@[simp] theorem memberPath_inj {basePath : List String} {nwid nwid' nodeId nodeId' : UInt64} :
    memberPath basePath nwid nodeId = memberPath basePath nwid' nodeId' ↔
      nwid = nwid' ∧ nodeId = nodeId' := by
  simp [memberPath, append_json_inj, (formatHex_injective 16).eq_iff,
    (formatHex_injective 10).eq_iff]

@[simp] theorem networkPath_ne_memberPath (basePath : List String) (nwid nwid' nodeId : UInt64) :
    networkPath basePath nwid ≠ memberPath basePath nwid' nodeId := fun h => by
  simpa [networkPath, memberPath] using congrArg List.length h

@[simp] theorem memberPath_ne_networkPath (basePath : List String) (nwid nwid' nodeId : UInt64) :
    memberPath basePath nwid' nodeId ≠ networkPath basePath nwid :=
  (networkPath_ne_memberPath _ _ _ _).symm

-- The walk reads both kinds of file.

theorem hexChar_ne_dot : ∀ d < 16, hexChar d ≠ '.' := by decide

theorem dot_not_mem_hexDigits (k v : Nat) : '.' ∉ hexDigits k v := by
  induction k generalizing v with
  | zero => exact List.not_mem_nil _
  | succ k ih =>
    rw [hexDigits, List.mem_append, List.mem_singleton, not_or]
    exact ⟨ih _, (hexChar_ne_dot _ (Nat.mod_lt _ (by decide))).symm⟩

theorem isJsonName_of_dot_not_mem {s : String} (h : '.' ∉ s.data) : isJsonName s = false := by
  have hdrop : s.toList.drop (s.length - 5) ≠ ".json".toList := fun e => by
    have hmem : '.' ∈ s.toList.drop (s.length - 5) := by rw [e]; decide
    exact h (List.mem_of_mem_drop hmem)
  simp only [isJsonName, Bool.and_eq_false_iff, beq_eq_false_iff_ne]
  exact Or.inr hdrop

theorem isJsonName_formatHex (width : Nat) (v : UInt64) : isJsonName (formatHex width v) = false :=
  isJsonName_of_dot_not_mem (dot_not_mem_hexDigits _ _)

theorem isJsonName_append_json {s : String} (h : 0 < s.length) : isJsonName (s ++ ".json") := by
  have hdata : (s ++ ".json").data = s.data ++ ".json".data := String.data_append _ _
  have hlen : (s ++ ".json").length = s.data.length + 5 := by
    rw [String.length, hdata, List.length_append]; rfl
  have h' : 0 < s.data.length := h
  unfold isJsonName
  rw [hlen, String.toList, hdata, Nat.add_sub_cancel, List.drop_left]
  simp only [Bool.and_eq_true, decide_eq_true_eq]
  exact ⟨by omega, by decide⟩

theorem length_formatHex_pos {width : Nat} (h : 0 < width) (v : UInt64) :
    0 < (formatHex width v).length := by
  show 0 < (hexDigits _ _).length
  rw [length_hexDigits]
  exact lt_max_of_lt_left h

theorem walks_networkPath (nwid : UInt64) :
    walks ["network", formatHex 16 nwid ++ ".json"] := by
  simp [walks, isJsonName_append_json (length_formatHex_pos (by decide : 0 < 16) nwid)]
  decide

theorem walks_memberPath (nwid nodeId : UInt64) :
    walks ["network", formatHex 16 nwid, "member", formatHex 10 nodeId ++ ".json"] := by
  simp [walks, isJsonName_formatHex, isJsonName_append_json (length_formatHex_pos (by decide : 0 < 10) nodeId)]
  decide

-- The records `_add` files.

theorem utf8ByteSize_formatHex {width : Nat} {v : UInt64} (h : v.toNat < 16 ^ width) :
    (formatHex width v).utf8ByteSize = width := by
  rw [formatHex_of_lt h, utf8ByteSize_hexDigits]

-- A network record as `_add` reads it: an object whose `id` is the network id in 16 hex digits.
structure NetworkRecord (L : JsonLib) (nwid : UInt64) (j : L.Json) : Prop where
  nonzero : nwid ≠ 0
  object : L.isObject j
  id : L.jsonString (L.get j "id") "0" = formatHex 16 nwid
  objtype : L.jsonString (L.get j "objtype") "" = "network"

-- A member record: `id` the member id in 10 hex digits, `nwid` its network's id in 16.
structure MemberRecord (L : JsonLib) (nwid nodeId : UInt64) (j : L.Json) : Prop where
  nonzero : nwid ≠ 0
  member_nonzero : nodeId ≠ 0
  member_lt : nodeId.toNat < 2 ^ 40
  object : L.isObject j
  id : L.jsonString (L.get j "id") "0" = formatHex 10 nodeId
  network : L.jsonString (L.get j "nwid") "0" = formatHex 16 nwid
  objtype : L.jsonString (L.get j "objtype") "" = "member"

theorem addTarget_of_networkRecord {nwid : UInt64} {j : L.Json} (h : NetworkRecord L nwid j) :
    addTarget L j = some (.network nwid) := by
  have h16 : nwid.toNat < 16 ^ 16 := lt_of_lt_of_eq nwid.toNat_lt_size (by norm_num)
  simp [addTarget, h.object, h.id, h.objtype, utf8ByteSize_formatHex h16, hexStrToU64_formatHex,
    h.nonzero]

theorem addTarget_of_memberRecord {nwid nodeId : UInt64} {j : L.Json}
    (h : MemberRecord L nwid nodeId j) : addTarget L j = some (.member nwid nodeId) := by
  have h10 : nodeId.toNat < 16 ^ 10 := lt_of_lt_of_eq h.member_lt (by norm_num)
  simp [addTarget, h.object, h.id, h.objtype, h.network, utf8ByteSize_formatHex h10,
    hexStrToU64_formatHex, h.nonzero, h.member_nonzero]

-- The records a controller saves, as `FieldJson` values.
def networkRecordJson (nwid : UInt64) : FieldJson :=
  .object [("id", formatHex 16 nwid), ("objtype", "network")]

def memberRecordJson (nwid nodeId : UInt64) : FieldJson :=
  .object [("id", formatHex 10 nodeId), ("nwid", formatHex 16 nwid), ("objtype", "member")]

theorem networkRecord_fieldJson {nwid : UInt64} (h : nwid ≠ 0) :
    NetworkRecord JsonLib.fieldJson nwid (networkRecordJson nwid) := ⟨h, rfl, rfl, rfl⟩

theorem memberRecord_fieldJson {nwid nodeId : UInt64} (h : nwid ≠ 0) (hm : nodeId ≠ 0)
    (hlt : nodeId.toNat < 2 ^ 40) :
    MemberRecord JsonLib.fieldJson nwid nodeId (memberRecordJson nwid nodeId) :=
  ⟨h, hm, hlt, rfl, rfl, rfl, rfl⟩

-- Network `nwid`'s records are filed where `_add` files them.
def FiledAt (nwid : UInt64) (n : AbstractNetwork L) : Prop :=
  addTarget L n.config = some (.network nwid) ∧
    ∀ nodeId j, n.members.lookup nodeId = some j → addTarget L j = some (.member nwid nodeId)

def Filed (M : AbstractStore L) : Prop := ∀ nwid n, M.lookup nwid = some n → FiledAt nwid n

section Filed

variable {M : AbstractStore L}

theorem Filed.insert (h : Filed M) {nwid : UInt64} {n : AbstractNetwork L} (hn : FiledAt nwid n) :
    Filed (M.insert nwid n) := fun w n' hw => by
  by_cases e : w = nwid
  · subst e
    rw [AList.lookup_insert] at hw
    exact Option.some_inj.1 hw ▸ hn
  · rw [AList.lookup_insert_ne e] at hw
    exact h w n' hw

theorem Filed.erase (h : Filed M) (nwid : UInt64) : Filed (M.erase nwid) := fun w n' hw => by
  by_cases e : w = nwid
  · subst e; simp at hw
  · rw [AList.lookup_erase_ne e] at hw
    exact h w n' hw

-- A save of a well-formed record, or an erasure.
def RecordCall (L : JsonLib) : Call L → Prop
  | .saveNetwork nwid j => NetworkRecord L nwid j
  | .saveNetworkMember nwid nodeId j => MemberRecord L nwid nodeId j
  | .eraseNetwork _ => True
  | .eraseNetworkMember .. => True
  | _ => False

theorem Filed.call (h : Filed M) {c : Call L} (hc : RecordCall L c) : Filed (M.call c).1 := by
  cases c with
  | saveNetwork nwid j =>
    refine h.insert ⟨addTarget_of_networkRecord hc, fun nodeId j' hj' => ?_⟩
    cases hl : M.lookup nwid with
    | none => simp [hl] at hj'
    | some n => exact (h nwid n hl).2 nodeId j' (by simpa [hl] using hj')
  | saveNetworkMember nwid nodeId j =>
    show Filed (M.saveMember nwid nodeId j)
    unfold AbstractStore.saveMember
    split
    · next n hl =>
      refine h.insert ⟨(h nwid n hl).1, fun m j' hj' => ?_⟩
      by_cases e : m = nodeId
      · subst e
        rw [AList.lookup_insert] at hj'
        exact Option.some_inj.1 hj' ▸ addTarget_of_memberRecord hc
      · exact (h nwid n hl).2 m j' (by rwa [AList.lookup_insert_ne e] at hj')
    · exact h
  | eraseNetwork nwid => exact h.erase nwid
  | eraseNetworkMember nwid nodeId _ =>
    show Filed (M.eraseMember nwid nodeId)
    unfold AbstractStore.eraseMember
    split
    · next n hl =>
      refine h.insert ⟨(h nwid n hl).1, fun m j' hj' => ?_⟩
      by_cases e : m = nodeId
      · subst e; simp at hj'
      · exact (h nwid n hl).2 m j' (by rwa [AList.lookup_erase_ne e] at hj')
    · exact h
  | _ => exact hc.elim

end Filed

-- The files under `basePath` are the abstract store's records as JSON text, and nothing else.
structure Mirrors (basePath : List String) (files : AList (fun _ : List String => L.Text))
    (M : AbstractStore L) : Prop where
  network : ∀ nwid,
    files.lookup (networkPath basePath nwid) = ((M.lookup nwid).map (·.config)).map L.jsonDump
  member : ∀ nwid nodeId,
    files.lookup (memberPath basePath nwid nodeId) = (M.member nwid nodeId).map L.jsonDump
  only : ∀ path ∈ files,
    (∃ nwid, path = networkPath basePath nwid) ∨ ∃ nwid nodeId, path = memberPath basePath nwid nodeId

section Calls

variable {basePath : List String} {files : AList (fun _ : List String => L.Text)}
  {M : AbstractStore L}

-- Only the lookups of the files count, not the order the directory lists them in.
theorem Mirrors.congr (h : Mirrors basePath files M) {files' : AList (fun _ : List String => L.Text)}
    (hfiles : ∀ path, files'.lookup path = files.lookup path) : Mirrors basePath files' M :=
  ⟨fun nwid => (hfiles _).trans (h.network nwid), fun nwid nodeId => (hfiles _).trans (h.member nwid nodeId),
    fun path hp => h.only path (AList.lookup_isSome.1 (hfiles path ▸ AList.lookup_isSome.2 hp))⟩

theorem Mirrors.saveConfig (h : Mirrors basePath files M) (nwid : UInt64) (j : L.Json) :
    Mirrors basePath (files.insert (networkPath basePath nwid) (L.jsonDump j)) (M.saveConfig nwid j) where
  network w := by
    by_cases e : w = nwid
    · subst e; simp [AbstractStore.saveConfig, AList.lookup_insert]
    · rw [AList.lookup_insert_ne (by simpa using e), h.network]
      simp [AbstractStore.saveConfig, AList.lookup_insert_ne e]
  member w m := by
    rw [AList.lookup_insert_ne (networkPath_ne_memberPath _ _ _ _).symm, h.member,
      AbstractStore.member_saveConfig]
  only path hp := by
    rcases (AList.mem_insert _).1 hp with rfl | hp
    · exact .inl ⟨nwid, rfl⟩
    · exact h.only path hp

theorem Mirrors.saveMember (h : Mirrors basePath files M) {nwid : UInt64} (hmem : nwid ∈ M)
    (nodeId : UInt64) (j : L.Json) :
    Mirrors basePath (files.insert (memberPath basePath nwid nodeId) (L.jsonDump j))
      (M.saveMember nwid nodeId j) where
  network w := by
    rw [AList.lookup_insert_ne (networkPath_ne_memberPath _ _ _ _), h.network,
      AbstractStore.config_saveMember]
  member w m := by
    rw [AbstractStore.member_saveMember M hmem]
    by_cases e : w = nwid ∧ m = nodeId
    · obtain ⟨rfl, rfl⟩ := e; simp [AList.lookup_insert]
    · rw [AList.lookup_insert_ne (by simpa using e), h.member, if_neg e]
  only path hp := by
    rcases (AList.mem_insert _).1 hp with rfl | hp
    · exact .inr ⟨nwid, nodeId, rfl⟩
    · exact h.only path hp

theorem Mirrors.eraseMember (h : Mirrors basePath files M) (nwid nodeId : UInt64) :
    Mirrors basePath (files.erase (memberPath basePath nwid nodeId)) (M.eraseMember nwid nodeId) where
  network w := by
    rw [AList.lookup_erase_ne (networkPath_ne_memberPath _ _ _ _), h.network,
      AbstractStore.config_eraseMember]
  member w m := by
    rw [AbstractStore.member_eraseMember]
    by_cases e : w = nwid ∧ m = nodeId
    · obtain ⟨rfl, rfl⟩ := e; simp [AList.lookup_erase]
    · rw [AList.lookup_erase_ne (by simpa using e), h.member, if_neg e]
  only path hp := h.only path (AList.mem_erase.1 hp).2

-- Erasing a network: its file and the files of the members listed in `ids`, which are all it has,
-- are gone, and the rest stay.
theorem Mirrors.erase (h : Mirrors basePath files M) {files' : AList (fun _ : List String => L.Text)}
    {nwid : UInt64} {ids : List UInt64}
    (hfiles' : ∀ path, files'.lookup path =
      if path = networkPath basePath nwid ∨ ∃ m ∈ ids, path = memberPath basePath nwid m then none
      else files.lookup path)
    (hids : ∀ m, M.member nwid m ≠ none → m ∈ ids) : Mirrors basePath files' (M.erase nwid) := by
  refine ⟨fun w => ?_, fun w m => ?_, fun path hp => ?_⟩
  · rw [hfiles']
    by_cases e : w = nwid
    · subst e; simp
    · simp [e, h.network, AList.lookup_erase_ne e]
  · rw [hfiles']
    by_cases e : w = nwid
    · subst e
      by_cases hm : m ∈ ids
      · simp [AbstractStore.member, hm]
      · have hnone : M.member w m = none := not_not.1 (mt (hids m) hm)
        rw [if_neg (by simp [hm]), h.member, hnone]
        simp [AbstractStore.member]
    · simp [e, h.member, AbstractStore.member, AList.lookup_erase_ne e]
  · have hl := AList.lookup_isSome.2 hp
    rw [hfiles'] at hl
    split at hl
    · cases hl
    · exact h.only path (AList.lookup_isSome.1 hl)

section Filesystem

variable {db : JSONDB L} (hmode : db.mode = .filesystem) (store : Store L)
include hmode

theorem files_removeRaw {n path : List String} (h : genPath db.basePath n = some path) :
    (db.removeRaw store n true).files = store.files.erase path := by
  simp [removeRaw, hmode, h]

-- Each removal of the cascade takes one member file.
theorem lookup_files_eraseMembers (nwid : UInt64) (ids : List UInt64) (path : List String) :
    (db.eraseMembers store (fun _ => true) nwid ids).2.files.lookup path =
      if ∃ m ∈ ids, path = memberPath db.basePath nwid m then none else store.files.lookup path := by
  induction ids generalizing db store with
  | nil => simp [eraseMembers]
  | cons m ids ih =>
    simp only [eraseMembers, List.foldl_cons] at ih ⊢
    rw [ih (by simp [eraseNetworkMember, hmode])]
    simp only [eraseNetworkMember, basePath_eraseMemberLocked,
      files_removeRaw hmode _ (genPath_memberName _ _ _), List.mem_cons, exists_eq_or_imp]
    by_cases e : path = memberPath db.basePath nwid m
    · subst e; simp [AList.lookup_erase]
    · simp [e, AList.lookup_erase_ne e]

theorem lookup_files_eraseNetwork {nwid : UInt64} {nw : NW L}
    (hl : db.networks.lookup nwid = some nw) (path : List String) :
    (db.eraseNetwork store (fun _ => true) nwid).2.1.files.lookup path =
      if path = networkPath db.basePath nwid ∨
          ∃ m ∈ nw.members.keys, path = memberPath db.basePath nwid m then none
      else store.files.lookup path := by
  have hm : db.mode ≠ .http := by simp [hmode]
  simp only [eraseNetwork, hm, if_false, memberIds, hl, Option.map_some']
  rw [files_removeRaw (by simp [hmode]) _ (by rw [basePath_eraseMembers, genPath_networkName])]
  by_cases e : path = networkPath db.basePath nwid
  · subst e; simp [AList.lookup_erase]
  · rw [AList.lookup_erase_ne e, lookup_files_eraseMembers hmode]
    simp [e]

end Filesystem

end Calls

-- Loading the files rebuilds the abstract store.

section Loading

variable {basePath : List String} {rest : List (List String)} {path : List String}
  {nwid : UInt64} {n : AbstractNetwork L}

-- How far the walk has loaded network `nwid` while the files `rest` are still to be read: not at
-- all, with its files still to read, or with its config and each member loaded or still to read.
def PartlyLoaded (basePath : List String) (rest : List (List String)) (nwid : UInt64)
    (n : AbstractNetwork L) : Option (NW L) → Prop
  | none => networkPath basePath nwid ∈ rest ∧
      ∀ nodeId ∈ n.members, memberPath basePath nwid nodeId ∈ rest
  | some nw =>
      (nw.config = L.toMsgpack n.config ∨
          networkPath basePath nwid ∈ rest ∧ nw.config = L.emptyPacked) ∧
        ∀ nodeId, nw.members.lookup nodeId = (n.members.lookup nodeId).map L.toMsgpack ∨
          memberPath basePath nwid nodeId ∈ rest ∧ nw.members.lookup nodeId = none

structure Loading (basePath : List String) (M : AbstractStore L) (rest : List (List String))
    (db : JSONDB L) : Prop where
  absent : ∀ nwid, M.lookup nwid = none → db.networks.lookup nwid = none
  present : ∀ nwid n, M.lookup nwid = some n →
    PartlyLoaded basePath rest nwid n (db.networks.lookup nwid)

-- A network not yet loaded is as good as the empty one `_networks[nwid]` creates.
theorem PartlyLoaded.getD {o : Option (NW L)} (h : PartlyLoaded basePath rest nwid n o) :
    PartlyLoaded basePath rest nwid n (some (o.getD (NW.empty L))) := by
  cases o with
  | some nw => exact h
  | none =>
    refine ⟨.inr ⟨h.1, rfl⟩, fun m => ?_⟩
    cases hm : n.members.lookup m with
    | none => exact .inl (by simp [NW.empty])
    | some j => exact .inr ⟨h.2 m (AList.lookup_isSome.1 (by simp [hm])), by simp [NW.empty]⟩

-- Reading a file of another key leaves what is still to read of `nwid` in the rest.
theorem PartlyLoaded.drop {o : Option (NW L)} (h : PartlyLoaded basePath (path :: rest) nwid n o)
    (hnet : networkPath basePath nwid ≠ path) (hmem : ∀ m, memberPath basePath nwid m ≠ path) :
    PartlyLoaded basePath rest nwid n o := by
  cases o with
  | none =>
    exact ⟨List.mem_of_ne_of_mem hnet h.1, fun m hm => List.mem_of_ne_of_mem (hmem m) (h.2 m hm)⟩
  | some nw =>
    exact ⟨h.1.imp_right fun h' => ⟨List.mem_of_ne_of_mem hnet h'.1, h'.2⟩,
      fun m => (h.2 m).imp_right fun h' => ⟨List.mem_of_ne_of_mem (hmem m) h'.1, h'.2⟩⟩

variable {M : AbstractStore L} {db : JSONDB L}

theorem Loading.setConfig (h : Loading basePath M (networkPath basePath nwid :: rest) db)
    (hn : M.lookup nwid = some n) :
    Loading basePath M rest (db.setConfig nwid (L.toMsgpack n.config)) := by
  refine ⟨fun w hw => ?_, fun w n' hw => ?_⟩
  · have e : w ≠ nwid := by rintro rfl; simp [hn] at hw
    simpa [JSONDB.setConfig, lookup_modifyNetwork, e] using h.absent w hw
  · by_cases e : w = nwid
    · subst e
      obtain rfl := Option.some_inj.1 (hw.symm.trans hn)
      have hold := (h.present w n' hw).getD
      simp only [JSONDB.setConfig, lookup_modifyNetwork, if_true]
      exact ⟨.inl rfl, fun m => (hold.2 m).imp_right fun h' =>
        ⟨List.mem_of_ne_of_mem (networkPath_ne_memberPath _ _ _ _).symm h'.1, h'.2⟩⟩
    · simp only [JSONDB.setConfig, lookup_modifyNetwork, e, if_false]
      exact (h.present w n' hw).drop (by simpa using e) fun m => (networkPath_ne_memberPath _ _ _ _).symm

theorem Loading.setMember {nodeId : UInt64} {j : L.Json}
    (h : Loading basePath M (memberPath basePath nwid nodeId :: rest) db)
    (hn : M.lookup nwid = some n) (hj : n.members.lookup nodeId = some j) :
    Loading basePath M rest (db.setMember nwid nodeId (L.toMsgpack j)) := by
  refine ⟨fun w hw => ?_, fun w n' hw => ?_⟩
  · have e : w ≠ nwid := by rintro rfl; simp [hn] at hw
    simpa [JSONDB.setMember, lookup_modifyNetwork, e] using h.absent w hw
  · by_cases e : w = nwid
    · subst e
      obtain rfl := Option.some_inj.1 (hw.symm.trans hn)
      have hold := (h.present w n' hw).getD
      simp only [JSONDB.setMember, lookup_modifyNetwork, if_true]
      refine ⟨hold.1.imp_right fun h' =>
        ⟨List.mem_of_ne_of_mem (networkPath_ne_memberPath _ _ _ _) h'.1, h'.2⟩, fun m => ?_⟩
      by_cases em : m = nodeId
      · subst em; exact .inl (by simp [AList.lookup_insert, hj])
      · rw [AList.lookup_insert_ne em]
        exact (hold.2 m).imp_right fun h' => ⟨List.mem_of_ne_of_mem (by simp [em]) h'.1, h'.2⟩
    · simp only [JSONDB.setMember, lookup_modifyNetwork, e, if_false]
      exact (h.present w n' hw).drop (networkPath_ne_memberPath _ _ _ _) fun m => by simp [e]

theorem Loading.start {files : AList (fun _ : List String => L.Text)}
    (hfiles : Mirrors basePath files M) :
    Loading basePath M (visited files (maxDepth files) basePath) (fresh .filesystem basePath) := by
  have hreach : ∀ rest, basePath ++ rest ∈ files → walks rest →
      basePath ++ rest ∈ visited files (maxDepth files) basePath := fun rest h hw =>
    mem_visited_of_walks files h hw
      ((by simp : rest.length ≤ (basePath ++ rest).length).trans (length_le_maxDepth h))
  refine ⟨fun _ _ => AList.lookup_empty _, fun nwid n hn => ?_⟩
  rw [show (fresh .filesystem basePath : JSONDB L).networks.lookup nwid = none from
    AList.lookup_empty _]
  have hnet : networkPath basePath nwid ∈ files :=
    AList.lookup_isSome.1 (by simp [hfiles.network, hn])
  refine ⟨hreach _ hnet (walks_networkPath nwid), fun m hm => ?_⟩
  obtain ⟨j, hj⟩ := Option.isSome_iff_exists.1 (AList.lookup_isSome.2 hm)
  have hmem : memberPath basePath nwid m ∈ files :=
    AList.lookup_isSome.1 (by simp [hfiles.member, AbstractStore.member, hn, hj])
  exact hreach _ hmem (walks_memberPath nwid m)

-- With nothing left to read, every network is back whole.
theorem Loading.refines (h : Loading basePath M [] db) : Refines db.networks M := fun nwid => by
  cases hn : M.lookup nwid with
  | none => rw [h.absent nwid hn]; exact .none
  | some n =>
    have hp := h.present nwid n hn
    cases hl : db.networks.lookup nwid with
    | none => rw [hl] at hp; exact absurd hp.1 (List.not_mem_nil _)
    | some nw =>
      rw [hl] at hp
      exact .some ⟨hp.1.resolve_right fun h' => List.not_mem_nil _ h'.1,
        fun m => (hp.2 m).resolve_right fun h' => List.not_mem_nil _ h'.1⟩

section Files

variable {files : AList (fun _ : List String => L.Text)}
  (hparse : ∀ j, L.jsonParse (L.jsonDump j) = .ok j)
include hparse

-- Reading one file of the store puts its record back where it was saved.
theorem Loading.loadFile (hM : Filed M) (hfiles : Mirrors basePath files M)
    (h : Loading basePath M (path :: rest) db) (hpath : path ∈ files) :
    Loading basePath M rest (loadFile files path db) := by
  obtain ⟨text, ht⟩ := Option.isSome_iff_exists.1 (AList.lookup_isSome.2 hpath)
  rcases hfiles.only path hpath with ⟨nwid, rfl⟩ | ⟨nwid, nodeId, rfl⟩
  · rw [hfiles.network] at ht
    obtain ⟨_, hc, -⟩ := Option.map_eq_some'.1 ht
    obtain ⟨n, hn, -⟩ := Option.map_eq_some'.1 hc
    have hload : JSONDB.loadFile files (networkPath basePath nwid) db =
        db.setConfig nwid (L.toMsgpack n.config) := by
      simp only [JSONDB.loadFile, hfiles.network, hn, Option.map_some', hparse, add, (hM nwid n hn).1]
    exact hload ▸ h.setConfig hn
  · rw [hfiles.member] at ht
    obtain ⟨j, hj, -⟩ := Option.map_eq_some'.1 ht
    obtain ⟨n, hn, hjn⟩ := Option.bind_eq_some.1 hj
    have hload : JSONDB.loadFile files (memberPath basePath nwid nodeId) db =
        db.setMember nwid nodeId (L.toMsgpack j) := by
      simp only [JSONDB.loadFile, hfiles.member, hj, Option.map_some', hparse, add,
        (hM nwid n hn).2 nodeId j hjn]
    exact hload ▸ h.setMember hn hjn

theorem Loading.foldl (hM : Filed M) (hfiles : Mirrors basePath files M)
    (h : Loading basePath M rest db) (hrest : ∀ path ∈ rest, path ∈ files) :
    Loading basePath M [] (rest.foldl (fun db path => JSONDB.loadFile files path db) db) := by
  induction rest generalizing db with
  | nil => exact h
  | cons path rest ih =>
    exact ih (h.loadFile hparse hM hfiles (hrest path (List.mem_cons_self _ _)))
      fun p hp => hrest p (List.mem_cons_of_mem _ hp)

-- The constructor on files that hold the abstract store rebuilds it, whatever the order of the walk.
theorem construct_refines (hM : Filed M) (hfiles : Mirrors basePath files M) :
    Refines (construct basePath files).networks M := by
  rw [networks_construct, load_eq_foldl]
  exact ((Loading.start hfiles).foldl hparse hM hfiles fun _ hp => (mem_visited files hp).1).refines

end Files

end Loading

-- A run in filesystem mode, then a restart.

section Restart

variable {basePath : List String} {db : JSONDB L} {store : Store L} {M : AbstractStore L}

theorem Mirrors.call (h : Mirrors db.basePath store.files M) (hmode : db.mode = .filesystem)
    (hr : Refines db.networks M) {c : Call L} (hc : RecordCall L c)
    (hexist : ∀ nwid, AbstractStore.memberNetwork L c = some nwid → nwid ∈ M) :
    Mirrors db.basePath (db.call store (fun _ => true) c).2.1.files (M.call c).1 := by
  cases c with
  | saveNetwork nwid j =>
    have hfiles : (db.call store (fun _ => true) (.saveNetwork nwid j)).2.1.files =
        store.files.insert (networkPath db.basePath nwid) (L.jsonDump j) := by
      simp [JSONDB.call, saveNetwork, writeRaw, hmode]
    rw [hfiles]
    exact h.saveConfig nwid j
  | saveNetworkMember nwid nodeId j =>
    have hfiles : (db.call store (fun _ => true) (.saveNetworkMember nwid nodeId j)).2.1.files =
        store.files.insert (memberPath db.basePath nwid nodeId) (L.jsonDump j) := by
      simp [JSONDB.call, saveNetworkMember, writeRaw, hmode]
    rw [hfiles]
    exact h.saveMember (hexist nwid rfl) nodeId j
  | eraseNetworkMember nwid nodeId recompute =>
    have hfiles : (db.call store (fun _ => true) (.eraseNetworkMember nwid nodeId recompute)).2.1.files =
        store.files.erase (memberPath db.basePath nwid nodeId) :=
      files_removeRaw hmode store (genPath_memberName _ _ _)
    rw [hfiles]
    exact h.eraseMember nwid nodeId
  | eraseNetwork nwid =>
    show Mirrors db.basePath (db.eraseNetwork store (fun _ => true) nwid).2.1.files (M.erase nwid)
    rcases hr.lookup nwid with ⟨nw, n, hnw, hn, hp⟩ | ⟨hnw, hn⟩
    · refine h.erase (lookup_files_eraseNetwork hmode store hnw) fun m hm => ?_
      have hsome : (n.members.lookup m).isSome := by
        simpa [AbstractStore.member, hn, Option.ne_none_iff_isSome] using hm
      rw [← AList.mem_keys, ← AList.lookup_isSome, hp.2 m]
      simpa using hsome
    · have hstore : (db.eraseNetwork store (fun _ => true) nwid).2.1 = store := by
        simp [eraseNetwork, hmode, memberIds, hnw]
      rw [hstore]
      refine h.erase (fun path => ?_) (show ∀ m, M.member nwid m ≠ none → m ∈ ([] : List UInt64)
        from fun m hm => absurd (by simp [AbstractStore.member, hn]) hm)
      by_cases e : path = networkPath db.basePath nwid
      · subst e; simp [h.network, hn]
      · simp [e]
  | _ => exact hc.elim

-- What a run in filesystem mode keeps while every write and removal succeeds: the shadow packs
-- the abstract store, and the files under the base path hold it.
structure Persisted (basePath : List String) (db : JSONDB L)
    (files : AList (fun _ : List String => L.Text)) (M : AbstractStore L) : Prop where
  mode : db.mode = .filesystem
  base : db.basePath = basePath
  refines : Refines db.networks M
  mirrors : Mirrors basePath files M
  filed : Filed M

theorem Persisted.start (basePath : List String) (remote : List String → Option L.Text) :
    Persisted basePath (fresh .filesystem basePath : JSONDB L) (⟨∅, remote⟩ : Store L).files ∅ where
  mode := rfl
  base := rfl
  refines nwid := by
    rw [show (fresh .filesystem basePath : JSONDB L).networks = ∅ from rfl, AList.lookup_empty,
      AList.lookup_empty]
    exact .none
  mirrors := ⟨fun _ => by simp, fun _ _ => by simp [AbstractStore.member], fun _ hp => by simp at hp⟩
  filed _ _ h := by simp at h

variable (hround : ∀ j, L.fromMsgpack (L.toMsgpack j) = .ok j)
include hround

theorem Persisted.call (h : Persisted basePath db store.files M) {c : Call L} (hc : RecordCall L c)
    (hexist : ∀ nwid, AbstractStore.memberNetwork L c = some nwid → nwid ∈ M) :
    Persisted basePath (db.call store (fun _ => true) c).1 (db.call store (fun _ => true) c).2.1.files
      (M.call c).1 where
  mode := by rw [mode_call]; exact h.mode
  base := by rw [basePath_call]; exact h.base
  refines := (call_refines hround h.refines store _ c hexist).1
  mirrors := h.base ▸ (h.base ▸ h.mirrors : Mirrors db.basePath store.files M).call h.mode h.refines hc hexist
  filed := h.filed.call hc

theorem Persisted.run (h : Persisted basePath db store.files M) (calls : List (Call L))
    (hrec : ∀ c ∈ calls, RecordCall L c) (hexist : AbstractStore.MembersIntoExisting M calls) :
    Persisted basePath (db.run store (calls.map (·, fun _ => true))).1
      (db.run store (calls.map (·, fun _ => true))).2.1.files (M.run calls).1 := by
  induction calls generalizing db store M with
  | nil => exact h
  | cons c calls ih =>
    exact ih (h.call hround (hrec c (List.mem_cons_self _ _)) hexist.1)
      (fun c' hc' => hrec c' (List.mem_cons_of_mem _ hc')) hexist.2

end Restart

-- A first controller's calls: network 1 saved, then its member 2, both well-formed records.
def saveNetworkThenMember : List (Call JsonLib.fieldJson) :=
  [.saveNetwork 1 (networkRecordJson 1), .saveNetworkMember 1 2 (memberRecordJson 1 2)]

theorem saveNetworkThenMember_records :
    (∀ c ∈ saveNetworkThenMember, RecordCall JsonLib.fieldJson c) ∧
      AbstractStore.MembersIntoExisting ∅ saveNetworkThenMember := by
  refine ⟨fun c hc => ?_, by simp [AbstractStore.memberNetwork], by simp [AbstractStore.memberNetwork,
    AbstractStore.call, AbstractStore.saveConfig, AList.mem_keys], trivial⟩
  simp only [saveNetworkThenMember, List.mem_cons, List.mem_singleton, List.not_mem_nil,
    or_false] at hc
  rcases hc with rfl | rfl
  · exact networkRecord_fieldJson (by decide)
  · exact memberRecord_fieldJson (by decide) (by decide) (by decide)

end JSONDB

end ZeroTier
