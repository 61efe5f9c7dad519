import ZeroTier.Controller.Summary

namespace ZeroTier

namespace JSONDB

variable {L : JsonLib}

-- The reverse index under interleaved calls stays exact as long as no member enters a network
-- between eraseNetwork's snapshot of its members and its last locked block.

-- The last block of `eraseNetwork` adds no member anywhere.
theorem memberOf_of_eraseNetworkLocked {db : JSONDB L} {nwid w m : UInt64}
    (h : MemberOf (db.eraseNetworkLocked nwid).1.networks w m) : MemberOf db.networks w m := by
  unfold eraseNetworkLocked at h
  split at h
  · exact h
  · split at h
    · obtain ⟨nw, hl, hm⟩ := h
      by_cases e : w = nwid
      · subst e; simp [AList.lookup_erase] at hl
      · exact ⟨nw, by rwa [AList.lookup_erase_ne e] at hl, hm⟩
    · exact h

-- A record `_add` reads adds at most the member it names.
theorem memberOf_add {db : JSONDB L} {j : L.Json} {w m : UInt64}
    (h : MemberOf (db.add j).1.networks w m) :
    MemberOf db.networks w m ∨ addTarget L j = some (.member w m) := by
  unfold JSONDB.add at h
  split at h
  · exact .inl ((memberOf_setConfig _ _ _ _ _).1 h)
  · next nwid nodeId ht =>
    rcases (memberOf_setMember _ _ _ _ _ _).1 h with h | ⟨rfl, rfl⟩
    · exact .inl h
    · exact .inr ht
  · exact .inl h

variable {ZT_NETWORK_AUTOCONF_DELAY : UInt64}

-- A round of the worker rewrites summaries only.
theorem summaryRound_mode_members (now : UInt64) (todo : List UInt64) (db : JSONDB L) :
    (summaryRound ZT_NETWORK_AUTOCONF_DELAY now todo db).mode = db.mode ∧
      (summaryRound ZT_NETWORK_AUTOCONF_DELAY now todo db).members = db.members := by
  induction todo generalizing db with
  | nil => exact ⟨rfl, rfl⟩
  | cons nwid todo ih =>
    simp only [summaryRound, List.foldl_cons] at ih ⊢
    refine (ih _).imp (·.trans ?_) (·.trans ?_) <;> unfold recomputeNetwork <;> split <;> rfl

theorem memberOf_summaryRound (now : UInt64) (todo : List UInt64) (db : JSONDB L) (w m : UInt64) :
    MemberOf (summaryRound ZT_NETWORK_AUTOCONF_DELAY now todo db).networks w m ↔
      MemberOf db.networks w m := by
  simp only [MemberOf, lookup_summaryRound]
  split <;> simp [recompute]

namespace System

variable {s s' : System L}

-- Some caller is inside `eraseNetwork(nwid)`, past its snapshot of the member ids.
def Erasing (s : System L) (nwid : UInt64) : Prop := ∃ t ids, s.pc t = .erasing nwid ids

-- No member is saved into, or read from the IPC stream into, a network a caller is erasing.
def NoJoinWhileErasing (s : System L) : SystemOp L → Prop
  | .saveNetworkMember _ nwid _ _ => ¬s.Erasing nwid
  | .add j => ∀ nwid nodeId, addTarget L j = some (.member nwid nodeId) → ¬s.Erasing nwid
  | _ => True

-- The index is exact, the store is not in HTTP mode, and each caller inside `eraseNetwork` still
-- has every current member of its network to erase.
structure IndexInv (s : System L) : Prop where
  agrees : IndexAgrees s.db
  notHttp : s.db.mode ≠ .http
  covered : ∀ t nwid ids, s.pc t = .erasing nwid ids →
    ∀ nodeId, MemberOf s.db.networks nwid nodeId → nodeId ∈ ids

theorem IndexInv.initial {db : JSONDB L} (h : IndexAgrees db) (hmode : db.mode ≠ .http) :
    IndexInv (initial db) :=
  ⟨h, hmode, fun _ _ _ hpc => nomatch hpc⟩

-- A locked update that keeps the index exact and adds members only to networks no caller is
-- erasing.
theorem IndexInv.update (h : IndexInv s) (hpc : s'.pc = s.pc) (hagrees : IndexAgrees s'.db)
    (hmode : s'.db.mode = s.db.mode)
    (hnew : ∀ w m, MemberOf s'.db.networks w m → MemberOf s.db.networks w m ∨ ¬s.Erasing w) :
    IndexInv s' := by
  refine ⟨hagrees, hmode ▸ h.notHttp, fun t w ids ht m hm => ?_⟩
  rw [hpc] at ht
  exact (hnew w m hm).elim (h.covered t w ids ht m) fun hne => absurd ⟨t, ids, ht⟩ hne

-- Such an update by caller `t`, which moves to `p`: if `p` is inside `eraseNetwork`, every member
-- its network has after the update is still to erase.
theorem IndexInv.move (h : IndexInv s) {db : JSONDB L} (hagrees : IndexAgrees db)
    (hmode : db.mode = s.db.mode)
    (hnew : ∀ w m, MemberOf db.networks w m → MemberOf s.db.networks w m ∨ ¬s.Erasing w)
    (t : Nat) (p : CallerPc)
    (hp : ∀ w ids, p = .erasing w ids → ∀ m, MemberOf db.networks w m → m ∈ ids) :
    IndexInv { s with db := db, pc := Function.update s.pc t p } := by
  have h' : IndexInv { s with db := db } := h.update rfl hagrees hmode hnew
  refine ⟨hagrees, h'.notHttp, fun t' w ids ht => ?_⟩
  by_cases e : t' = t
  · subst e; exact hp w ids (by simpa using ht)
  · exact h'.covered t' w ids (by simpa [e] using ht)

variable {t : Nat}

theorem IndexInv.eraseNetwork (h : IndexInv s) (hidle : s.pc t = .idle) (nwid : UInt64)
    (hs : s.step ZT_NETWORK_AUTOCONF_DELAY (.eraseNetwork t nwid) = some s') : IndexInv s' := by
  simp only [step, hidle, ne_eq, not_true_eq_false, if_false, h.notHttp] at hs
  split at hs
  · cases hs; exact h
  · next ids hids =>
    cases hs
    refine h.move h.agrees rfl (fun _ _ => .inl) t _ ?_
    rintro w ids' ⟨⟩ m ⟨nw, hl, hm⟩
    simp only [memberIds, hl, Option.map_some', Option.some_inj] at hids
    exact hids ▸ AList.mem_keys.2 hm

theorem IndexInv.cascade (h : IndexInv s) {nwid nodeId : UInt64} {ids : List UInt64}
    (hpc : s.pc t = .erasing nwid (nodeId :: ids)) :
    IndexInv { s with db := (s.db.eraseMemberLocked nwid nodeId false).1,
                      pc := Function.update s.pc t (.erasing nwid ids) } := by
  refine h.move (h.agrees.eraseMemberLocked nwid nodeId false) (mode_eraseMemberLocked _ _ _ _)
    (fun w m hm => .inl ((memberOf_eraseMemberLocked _ _ _ _ _ _).1 hm).1) t _ ?_
  rintro w ids' ⟨⟩ m hm
  obtain ⟨hmem, hne⟩ := (memberOf_eraseMemberLocked _ _ _ _ _ _).1 hm
  exact (List.mem_cons.1 (h.covered t _ _ hpc m hmem)).resolve_left fun e => hne ⟨rfl, e⟩

-- The last block finds the network with no member left, so erasing it keeps the index exact.
theorem IndexInv.finish (h : IndexInv s) {nwid : UInt64} (hpc : s.pc t = .erasing nwid []) :
    IndexInv { s with db := (s.db.eraseNetworkLocked nwid).1, pc := Function.update s.pc t .idle } :=
  h.move (h.agrees.eraseNetworkLocked nwid fun nw hl m hm =>
      List.not_mem_nil m (h.covered t nwid [] hpc m ⟨nw, hl, hm⟩))
    (mode_eraseNetworkLocked _ _) (fun _ _ hm => .inl (memberOf_of_eraseNetworkLocked hm)) t _ nofun

theorem IndexInv.step (h : IndexInv s) {op : SystemOp L} (ha : NoJoinWhileErasing s op)
    (hs : s.step ZT_NETWORK_AUTOCONF_DELAY op = some s') : IndexInv s' := by
  cases op
  case eraseNetwork t nwid =>
    by_cases hidle : s.pc t = .idle
    · exact h.eraseNetwork hidle nwid hs
    · simp [System.step, hidle] at hs
  all_goals simp only [System.step] at hs
  case saveNetwork t nwid j =>
    split_ifs at hs
    cases hs
    exact h.move (h.agrees.setConfig _ _) rfl (fun _ _ hm => .inl ((memberOf_setConfig _ _ _ _ _).1 hm))
      t _ nofun
  case saveNetworkMember t nwid nodeId j =>
    split_ifs at hs
    cases hs
    exact h.move (h.agrees.setMember _ _ _) rfl
      (fun _ _ hm => ((memberOf_setMember _ _ _ _ _ _).1 hm).imp_right fun ⟨e, _⟩ => e ▸ ha) t _ nofun
  case eraseNetworkMember t nwid nodeId recompute =>
    split_ifs at hs
    cases hs
    exact h.update rfl (h.agrees.eraseMemberLocked _ _ _) (mode_eraseMemberLocked _ _ _ _)
      fun _ _ hm => .inl ((memberOf_eraseMemberLocked _ _ _ _ _ _).1 hm).1
  case queue t =>
    split at hs <;> cases hs
    exact h.move (h.agrees.recomputeSummaryInfo _) (mode_recomputeSummaryInfo _ _)
      (fun _ _ hm => .inl (by rwa [networks_recomputeSummaryInfo] at hm)) t _ nofun
  case cascade t =>
    split at hs <;> cases hs
    exact h.cascade ‹_›
  case finish t =>
    split at hs <;> cases hs
    exact h.finish ‹_›
  case add j =>
    split_ifs at hs
    cases hs
    exact h.update rfl (h.agrees.add j) (mode_add _ _) fun w m hm => (memberOf_add hm).imp_right (ha w m)
  case swap =>
    split_ifs at hs
    cases hs
    exact h.update rfl h.agrees rfl fun _ _ => .inl
  case round now =>
    split_ifs at hs
    cases hs
    obtain ⟨hmode, hmembers⟩ := summaryRound_mode_members now s.taken s.db
    exact h.update rfl (fun w m => by rw [hmembers, memberOf_summaryRound]; exact h.agrees w m) hmode
      fun w m hm => .inl ((memberOf_summaryRound _ _ _ w m).1 hm)

end System

variable (ZT_NETWORK_AUTOCONF_DELAY)

-- A member record read from the IPC stream after `eraseNetwork(nwid)` took its snapshot of the
-- member ids is never erased: once every call has returned, the network is gone and the node's
-- `_members` entry still lists it.
theorem streamed_member_during_erase_keeps_reverse_entry :
    ∃ s : System JsonLib.fieldJson,
      System.Reach 0 System.AnyStep (System.initial (fresh .ipc [])) s ∧ s.Quiescent ∧
        1 ∈ s.db.members 2 ∧ s.db.networks.lookup 1 = none := by
  have hrun : (System.initial (fresh .ipc [] : JSONDB JsonLib.fieldJson)).run 0
      [.add (FieldJson.object [("id", "0000000000000001"), ("objtype", "network")]),
        .eraseNetwork 0 1,
        .add (FieldJson.object [("id", "0000000002"), ("nwid", "0000000000000001"),
          ("objtype", "member")]),
        .finish 0] = some _ := rfl
  refine ⟨_, System.reach_of_run 0 _ (fun _ _ _ => trivial) .start hrun, ⟨fun t => ?_, rfl, rfl⟩,
    by decide, rfl⟩
  by_cases e : t = 0 <;> simp [Function.update_apply, System.initial, e]

end JSONDB

end ZeroTier
