import ZeroTier.Controller.Summary
import Mathlib.Data.Prod.Lex

namespace ZeroTier

-- The worker's member loop gives one summary whatever order the `unordered_map` yields: each
-- member only adds to it, and both lists are sorted afterwards.

-- The two sort orders are total on these lists, so a sorted list is determined by its elements.

instance bitVec_le_total (n : Nat) : IsTotal (BitVec n) (· ≤ ·) := ⟨BitVec.le_total⟩

instance bitVec_le_trans (n : Nat) : IsTrans (BitVec n) (· ≤ ·) := ⟨fun _ _ _ => BitVec.le_trans⟩

instance bitVec_le_antisymm (n : Nat) : IsAntisymm (BitVec n) (· ≤ ·) :=
  ⟨fun _ _ => BitVec.le_antisymm⟩

namespace InetAddress

-- What `operator<` compares: the family's rank, then the address bytes, then the port.
def sortKey (a : InetAddress) : ℕ ×ₗ (List ℕ ×ₗ ℕ) :=
  toLex (familyRank a.family, toLex (a.ip.map (·.toNat), a.port.toNat))

theorem familyRank_inj {f g : AddressFamily} : familyRank f = familyRank g ↔ f = g := by
  cases f <;> cases g <;> simp [familyRank]

theorem sortKey_injective : Function.Injective sortKey := by
  rintro ⟨f, ip, port⟩ ⟨f', ip', port'⟩ h
  simp only [sortKey, toLex_inj, Prod.mk.injEq] at h
  obtain ⟨hf, hip, hport⟩ := h
  rw [familyRank_inj.1 hf, (List.map_injective_iff.2 fun _ _ => UInt8.toNat.inj) hip,
    UInt16.toNat.inj hport]

theorem lt_iff_sortKey_lt (a b : InetAddress) : lt a b = true ↔ a.sortKey < b.sortKey := by
  simp only [lt, sortKey, decide_eq_true_eq, Prod.Lex.lt_iff, familyRank_inj,
    (List.map_injective_iff.2 fun _ _ => UInt8.toNat.inj).eq_iff]
  rfl

-- The order `std::sort` is given for `allocatedIps`, as `insertionSort` takes it.
theorem not_lt_iff_sortKey_le (a b : InetAddress) : ¬lt b a = true ↔ a.sortKey ≤ b.sortKey := by
  rw [lt_iff_sortKey_lt, not_lt]

theorem not_lt_total (a b : InetAddress) : ¬lt b a = true ∨ ¬lt a b = true := by
  simp only [not_lt_iff_sortKey_le]; exact le_total _ _

theorem not_lt_trans {a b c : InetAddress} (hab : ¬lt b a = true) (hbc : ¬lt c b = true) :
    ¬lt c a = true := by
  rw [not_lt_iff_sortKey_le] at *; exact le_trans hab hbc

theorem eq_of_not_lt {a b : InetAddress} (hab : ¬lt b a = true) (hba : ¬lt a b = true) : a = b :=
  sortKey_injective (le_antisymm ((not_lt_iff_sortKey_le a b).1 hab)
    ((not_lt_iff_sortKey_le b a).1 hba))

instance sortOrder_total : IsTotal InetAddress fun a b => ¬lt b a = true := ⟨not_lt_total⟩

instance sortOrder_trans : IsTrans InetAddress fun a b => ¬lt b a = true :=
  ⟨fun _ _ _ => not_lt_trans⟩

instance sortOrder_antisymm : IsAntisymm InetAddress fun a b => ¬lt b a = true :=
  ⟨fun _ _ => eq_of_not_lt⟩

end InetAddress

-- Sorting with a total antisymmetric order forgets the order of the input.
theorem insertionSort_eq_of_perm {α : Type} (r : α → α → Prop) [DecidableRel r] [IsTotal α r]
    [IsTrans α r] [IsAntisymm α r] {l l' : List α} (h : l.Perm l') :
    l.insertionSort r = l'.insertionSort r :=
  List.eq_of_perm_of_sorted (((List.perm_insertionSort r l).trans h).trans
    (List.perm_insertionSort r l').symm) (List.sorted_insertionSort r l) (List.sorted_insertionSort r l')

-- One member as something added to the summary.

-- Two summaries added: counts summed, lists appended, the later deauthorization kept.
def NetworkSummaryInfo.combine (a b : NetworkSummaryInfo) : NetworkSummaryInfo :=
  ⟨a.activeBridges ++ b.activeBridges, a.allocatedIps ++ b.allocatedIps,
    a.authorizedMemberCount + b.authorizedMemberCount, a.activeMemberCount + b.activeMemberCount,
    a.totalMemberCount + b.totalMemberCount, max a.mostRecentDeauthTime b.mostRecentDeauthTime⟩

namespace NetworkSummaryInfo

@[simp] theorem combine_empty (a : NetworkSummaryInfo) : a.combine empty = a := by
  simp [combine, empty, uint64_max_zero]

@[simp] theorem empty_combine (a : NetworkSummaryInfo) : empty.combine a = a := by
  simp [combine, empty, uint64_max_comm 0, uint64_max_zero]

theorem combine_assoc (a b c : NetworkSummaryInfo) :
    (a.combine b).combine c = a.combine (b.combine c) := by
  simp [combine, Nat.add_assoc, uint64_max_assoc]

end NetworkSummaryInfo

namespace JSONDB

variable {L : JsonLib} (ZT_NETWORK_AUTOCONF_DELAY : UInt64)

open NetworkSummaryInfo

-- The blocks of the loop body for an authorized member, each a `try` of its own, and the one for
-- a member that is not.
def activeBlock (now : UInt64) (member : L.Json) (ns : NetworkSummaryInfo) : NetworkSummaryInfo :=
  match L.index member "recentLog" with
  | .ok mlog =>
      match L.isArray mlog, L.items mlog with
      | true, mlog1 :: _ =>
          if L.isObject mlog1 &&
              decide (now - L.jsonInt (L.get mlog1 "ts") 0 < ZT_NETWORK_AUTOCONF_DELAY * 2)
          then { ns with activeMemberCount := ns.activeMemberCount + 1 } else ns
      | _, _ => ns
  | .error _ => ns

def bridgeBlock (member : L.Json) (nodeId : UInt64) (ns : NetworkSummaryInfo) :
    NetworkSummaryInfo :=
  match L.index member "activeBridge" with
  | .ok activeBridge =>
      if L.jsonBool activeBridge false then
        { ns with activeBridges := ns.activeBridges ++ [Address.ofInt nodeId] }
      else ns
  | .error _ => ns

def ipBlock (member : L.Json) (ns : NetworkSummaryInfo) : NetworkSummaryInfo :=
  match L.index member "ipAssignments" with
  | .ok mips =>
      if L.isArray mips then
        let mip := (L.items mips).map fun mip => L.inetAddressOf (L.jsonString mip "")
        { ns with allocatedIps := ns.allocatedIps ++ mip.filter isIpFamily }
      else ns
  | .error _ => ns

def deauthBlock (member : L.Json) (ns : NetworkSummaryInfo) : NetworkSummaryInfo :=
  match L.index member "lastDeauthorizedTime" with
  | .ok t => { ns with mostRecentDeauthTime := max ns.mostRecentDeauthTime (L.jsonInt t 0) }
  | .error _ => ns

theorem summarizeMember_eq (now : UInt64) (ns : NetworkSummaryInfo) (nodeId : UInt64)
    (bytes : L.Packed) :
    summarizeMember ZT_NETWORK_AUTOCONF_DELAY now ns nodeId bytes =
      match L.fromMsgpack bytes with
      | .error _ => ns
      | .ok member =>
          match L.index member "authorized" with
          | .error _ => ns
          | .ok authorized =>
              if L.jsonBool authorized false then
                let ns := ipBlock member (bridgeBlock member nodeId (activeBlock
                  ZT_NETWORK_AUTOCONF_DELAY now member
                  { ns with authorizedMemberCount := ns.authorizedMemberCount + 1 }))
                { ns with totalMemberCount := ns.totalMemberCount + 1 }
              else
                let ns := deauthBlock member ns
                { ns with totalMemberCount := ns.totalMemberCount + 1 } := rfl

variable (now : UInt64) (member : L.Json) (ns d : NetworkSummaryInfo)

-- Each block adds the same thing whatever summary it is given.
theorem activeBlock_combine :
    activeBlock ZT_NETWORK_AUTOCONF_DELAY now member (ns.combine d) =
      ns.combine (activeBlock ZT_NETWORK_AUTOCONF_DELAY now member d) := by
  unfold activeBlock
  split
  · split
    · split <;> rfl
    · rfl
  · rfl

theorem bridgeBlock_combine (nodeId : UInt64) :
    bridgeBlock member nodeId (ns.combine d) = ns.combine (bridgeBlock member nodeId d) := by
  unfold bridgeBlock
  split
  · split
    · simp [combine]
    · rfl
  · rfl

theorem ipBlock_combine : ipBlock member (ns.combine d) = ns.combine (ipBlock member d) := by
  unfold ipBlock
  split
  · split
    · simp [combine]
    · rfl
  · rfl

theorem deauthBlock_combine : deauthBlock member (ns.combine d) = ns.combine (deauthBlock member d) := by
  unfold deauthBlock
  split
  · simp [combine, uint64_max_assoc]
  · rfl

theorem summarizeMember_combine (nodeId : UInt64) (bytes : L.Packed) :
    summarizeMember ZT_NETWORK_AUTOCONF_DELAY now (ns.combine d) nodeId bytes =
      ns.combine (summarizeMember ZT_NETWORK_AUTOCONF_DELAY now d nodeId bytes) := by
  rw [summarizeMember_eq, summarizeMember_eq]
  split
  · rfl
  · split
    · rfl
    · split
      · rw [show { ns.combine d with authorizedMemberCount := (ns.combine d).authorizedMemberCount + 1 } =
            ns.combine { d with authorizedMemberCount := d.authorizedMemberCount + 1 } from rfl,
          activeBlock_combine, bridgeBlock_combine, ipBlock_combine]
        rfl
      · rw [deauthBlock_combine]
        rfl

-- So one member adds what it adds to an empty summary.
theorem summarizeMember_eq_combine (nodeId : UInt64) (bytes : L.Packed) :
    summarizeMember ZT_NETWORK_AUTOCONF_DELAY now ns nodeId bytes =
      ns.combine (summarizeMember ZT_NETWORK_AUTOCONF_DELAY now empty nodeId bytes) := by
  simpa using summarizeMember_combine ZT_NETWORK_AUTOCONF_DELAY now ns empty nodeId bytes

-- The loop over the members.

variable {ZT_NETWORK_AUTOCONF_DELAY now}

-- The loop from any summary adds what it adds from an empty one.
theorem foldl_summarizeMember (l : List ((_ : UInt64) × L.Packed)) (ns : NetworkSummaryInfo) :
    l.foldl (fun ns m => summarizeMember ZT_NETWORK_AUTOCONF_DELAY now ns m.1 m.2) ns =
      ns.combine (l.foldl (fun ns m => summarizeMember ZT_NETWORK_AUTOCONF_DELAY now ns m.1 m.2)
        empty) := by
  induction l generalizing ns with
  | nil => exact (combine_empty ns).symm
  | cons m l ih =>
    rw [List.foldl_cons, List.foldl_cons, ih, ih (summarizeMember _ _ empty m.1 m.2),
      summarizeMember_eq_combine _ _ ns, combine_assoc]

theorem foldl_summarizeMember_cons (m : (_ : UInt64) × L.Packed) (l : List ((_ : UInt64) × L.Packed)) :
    (m :: l).foldl (fun ns m => summarizeMember ZT_NETWORK_AUTOCONF_DELAY now ns m.1 m.2) empty =
      (summarizeMember ZT_NETWORK_AUTOCONF_DELAY now empty m.1 m.2).combine
        (l.foldl (fun ns m => summarizeMember ZT_NETWORK_AUTOCONF_DELAY now ns m.1 m.2) empty) := by
  rw [List.foldl_cons, foldl_summarizeMember]

end JSONDB

-- Two summaries equal apart from the order of their two lists.
structure SameUpToOrder (a b : NetworkSummaryInfo) : Prop where
  activeBridges : a.activeBridges.Perm b.activeBridges
  allocatedIps : a.allocatedIps.Perm b.allocatedIps
  authorizedMemberCount : a.authorizedMemberCount = b.authorizedMemberCount
  activeMemberCount : a.activeMemberCount = b.activeMemberCount
  totalMemberCount : a.totalMemberCount = b.totalMemberCount
  mostRecentDeauthTime : a.mostRecentDeauthTime = b.mostRecentDeauthTime

namespace SameUpToOrder

variable {a b c : NetworkSummaryInfo}

theorem refl (a : NetworkSummaryInfo) : SameUpToOrder a a :=
  ⟨.refl _, .refl _, rfl, rfl, rfl, rfl⟩

theorem trans (h : SameUpToOrder a b) (h' : SameUpToOrder b c) : SameUpToOrder a c :=
  ⟨h.1.trans h'.1, h.2.trans h'.2, h.3.trans h'.3, h.4.trans h'.4, h.5.trans h'.5, h.6.trans h'.6⟩

theorem combine_right (h : SameUpToOrder a b) (c : NetworkSummaryInfo) :
    SameUpToOrder (a.combine c) (b.combine c) :=
  ⟨h.1.append_right _, h.2.append_right _, congrArg (· + c.authorizedMemberCount) h.3,
    congrArg (· + c.activeMemberCount) h.4, congrArg (· + c.totalMemberCount) h.5,
    congrArg (max · c.mostRecentDeauthTime) h.6⟩

theorem combine_left (c : NetworkSummaryInfo) (h : SameUpToOrder a b) :
    SameUpToOrder (c.combine a) (c.combine b) :=
  ⟨h.1.append_left _, h.2.append_left _, congrArg (c.authorizedMemberCount + ·) h.3,
    congrArg (c.activeMemberCount + ·) h.4, congrArg (c.totalMemberCount + ·) h.5,
    congrArg (max c.mostRecentDeauthTime ·) h.6⟩

theorem combine_comm (a b : NetworkSummaryInfo) : SameUpToOrder (a.combine b) (b.combine a) :=
  ⟨List.perm_append_comm, List.perm_append_comm, Nat.add_comm _ _, Nat.add_comm _ _,
    Nat.add_comm _ _, uint64_max_comm _ _⟩

-- After the two sorts nothing of the order is left.
theorem sort_eq (h : SameUpToOrder a b) :
    ({ a with
        activeBridges := a.activeBridges.insertionSort (· ≤ ·)
        allocatedIps := a.allocatedIps.insertionSort fun x y => ¬InetAddress.lt y x } :
      NetworkSummaryInfo) =
      { b with
        activeBridges := b.activeBridges.insertionSort (· ≤ ·)
        allocatedIps := b.allocatedIps.insertionSort fun x y => ¬InetAddress.lt y x } := by
  rw [insertionSort_eq_of_perm _ h.activeBridges, insertionSort_eq_of_perm _ h.allocatedIps,
    h.authorizedMemberCount, h.activeMemberCount, h.totalMemberCount, h.mostRecentDeauthTime]

end SameUpToOrder

namespace JSONDB

variable {L : JsonLib} {ZT_NETWORK_AUTOCONF_DELAY now : UInt64}

open NetworkSummaryInfo

-- Members taken in any order give the same summary up to the order of its lists.
theorem foldl_summarizeMember_perm {l l' : List ((_ : UInt64) × L.Packed)} (h : l.Perm l') :
    SameUpToOrder
      (l.foldl (fun ns m => summarizeMember ZT_NETWORK_AUTOCONF_DELAY now ns m.1 m.2) empty)
      (l'.foldl (fun ns m => summarizeMember ZT_NETWORK_AUTOCONF_DELAY now ns m.1 m.2) empty) := by
  induction h with
  | nil => exact .refl _
  | cons m _ ih =>
    rw [foldl_summarizeMember_cons, foldl_summarizeMember_cons]
    exact ih.combine_left _
  | swap m m' l =>
    rw [foldl_summarizeMember_cons, foldl_summarizeMember_cons, foldl_summarizeMember_cons,
      foldl_summarizeMember_cons, ← combine_assoc, ← combine_assoc]
    exact (SameUpToOrder.combine_comm _ _).combine_right _
  | trans _ _ ih ih' => exact ih.trans ih'

-- Whatever order `std::unordered_map` yields the members in, the loop and the two sorts give the
-- summary `summarize` computes.
theorem summarize_of_perm (ZT_NETWORK_AUTOCONF_DELAY now : UInt64)
    (members : AList (fun _ : UInt64 => L.Packed))
    {l : List ((_ : UInt64) × L.Packed)} (hl : l.Perm members.entries) :
    (let ns := l.foldl (fun ns m => summarizeMember ZT_NETWORK_AUTOCONF_DELAY now ns m.1 m.2)
      NetworkSummaryInfo.empty
    { ns with
      activeBridges := ns.activeBridges.insertionSort (· ≤ ·)
      allocatedIps := ns.allocatedIps.insertionSort fun a b => ¬InetAddress.lt b a }) =
      summarize ZT_NETWORK_AUTOCONF_DELAY now members :=
  (foldl_summarizeMember_perm hl).sort_eq

-- The counts.

-- What each block adds to an empty summary: one field, at most one to a count or a bridge.
theorem activeBlock_empty (ZT_NETWORK_AUTOCONF_DELAY now : UInt64) (member : L.Json) :
    ∃ k ≤ 1, activeBlock ZT_NETWORK_AUTOCONF_DELAY now member empty =
      { empty with activeMemberCount := k } := by
  unfold activeBlock
  split
  · split
    · split
      · exact ⟨1, le_rfl, rfl⟩
      · exact ⟨0, Nat.zero_le _, rfl⟩
    · exact ⟨0, Nat.zero_le _, rfl⟩
  · exact ⟨0, Nat.zero_le _, rfl⟩

theorem bridgeBlock_empty (member : L.Json) (nodeId : UInt64) :
    ∃ bridges : List Address, bridges.length ≤ 1 ∧
      bridgeBlock member nodeId empty = { empty with activeBridges := bridges } := by
  unfold bridgeBlock
  split
  · split
    · exact ⟨[Address.ofInt nodeId], le_rfl, rfl⟩
    · exact ⟨[], Nat.zero_le _, rfl⟩
  · exact ⟨[], Nat.zero_le _, rfl⟩

theorem ipBlock_empty (member : L.Json) :
    ∃ ips : List InetAddress, ipBlock member empty = { empty with allocatedIps := ips } := by
  unfold ipBlock
  split
  · split
    · exact ⟨_, rfl⟩
    · exact ⟨[], rfl⟩
  · exact ⟨[], rfl⟩

theorem deauthBlock_empty (member : L.Json) :
    ∃ t : UInt64, deauthBlock member empty = { empty with mostRecentDeauthTime := t } := by
  unfold deauthBlock
  split
  · exact ⟨_, rfl⟩
  · exact ⟨0, rfl⟩

-- The counts of a summary of `n` members: activity and bridges only among the authorized, the
-- authorized among the counted, at most one count per member.
structure CountsWithin (ns : NetworkSummaryInfo) (n : Nat) : Prop where
  active_le : ns.activeMemberCount ≤ ns.authorizedMemberCount
  authorized_le : ns.authorizedMemberCount ≤ ns.totalMemberCount
  total_le : ns.totalMemberCount ≤ n
  bridges_le : ns.activeBridges.length ≤ ns.authorizedMemberCount

theorem CountsWithin.combine {a b : NetworkSummaryInfo} {n m : Nat} (ha : CountsWithin a n)
    (hb : CountsWithin b m) : CountsWithin (a.combine b) (n + m) := by
  obtain ⟨_, _, _, _⟩ := ha
  obtain ⟨_, _, _, _⟩ := hb
  constructor <;> simp only [NetworkSummaryInfo.combine, List.length_append] <;> omega

-- A block that adds the same whatever it is given adds what it adds to an empty summary.
theorem eq_combine_of_combine (f : NetworkSummaryInfo → NetworkSummaryInfo)
    (hf : ∀ ns d : NetworkSummaryInfo, f (ns.combine d) = ns.combine (f d)) (ns : NetworkSummaryInfo) :
    f ns = ns.combine (f empty) := by
  simpa using hf ns empty

-- One member adds at most one to each count.
theorem countsWithin_summarizeMember (nodeId : UInt64) (bytes : L.Packed) :
    CountsWithin (summarizeMember ZT_NETWORK_AUTOCONF_DELAY now empty nodeId bytes) 1 := by
  rw [summarizeMember_eq]
  split
  · exact ⟨le_rfl, le_rfl, Nat.zero_le _, le_rfl⟩
  · next member _ =>
    split
    · exact ⟨le_rfl, le_rfl, Nat.zero_le _, le_rfl⟩
    · split
      · -- authorized: the blocks' shares added after the authorization
        obtain ⟨k, hk, hA⟩ := activeBlock_empty ZT_NETWORK_AUTOCONF_DELAY now member
        obtain ⟨bridges, hb, hB⟩ := bridgeBlock_empty member nodeId
        obtain ⟨ips, hI⟩ := ipBlock_empty member
        rw [eq_combine_of_combine _ (activeBlock_combine ZT_NETWORK_AUTOCONF_DELAY now member), hA,
          eq_combine_of_combine _ fun ns d => bridgeBlock_combine member ns d nodeId, hB,
          eq_combine_of_combine _ (ipBlock_combine member), hI]
        constructor <;> simp only [combine, empty, List.length_append, List.length_nil] <;> omega
      · obtain ⟨t, hD⟩ := deauthBlock_empty member
        rw [hD]
        exact ⟨le_rfl, Nat.zero_le _, le_rfl, le_rfl⟩

theorem countsWithin_foldl (l : List ((_ : UInt64) × L.Packed)) :
    CountsWithin
      (l.foldl (fun ns m => summarizeMember ZT_NETWORK_AUTOCONF_DELAY now ns m.1 m.2) empty)
      l.length := by
  induction l with
  | nil => exact ⟨le_rfl, le_rfl, le_rfl, le_rfl⟩
  | cons m l ih =>
    rw [foldl_summarizeMember_cons, List.length_cons, Nat.add_comm]
    exact (countsWithin_summarizeMember m.1 m.2).combine ih

-- In every summary the worker computes, the active members are among the authorized ones, the
-- authorized among those counted, which are at most the members, and there is at most one bridge
-- per authorized member.
theorem summarize_counts (ZT_NETWORK_AUTOCONF_DELAY now : UInt64)
    (members : AList (fun _ : UInt64 => L.Packed)) :
    (summarize ZT_NETWORK_AUTOCONF_DELAY now members).activeMemberCount ≤
        (summarize ZT_NETWORK_AUTOCONF_DELAY now members).authorizedMemberCount ∧
      (summarize ZT_NETWORK_AUTOCONF_DELAY now members).authorizedMemberCount ≤
        (summarize ZT_NETWORK_AUTOCONF_DELAY now members).totalMemberCount ∧
      (summarize ZT_NETWORK_AUTOCONF_DELAY now members).totalMemberCount ≤ members.entries.length ∧
      (summarize ZT_NETWORK_AUTOCONF_DELAY now members).activeBridges.length ≤
        (summarize ZT_NETWORK_AUTOCONF_DELAY now members).authorizedMemberCount :=
  have h := @countsWithin_foldl L ZT_NETWORK_AUTOCONF_DELAY now members.entries
  ⟨h.active_le, h.authorized_le, h.total_le,
    (List.perm_insertionSort _ _).length_eq.trans_le h.bridges_le⟩

-- Two authorized active bridges, visited in the order opposite to the map's.
def bridgeRecord : JsonLib.fieldJson.Packed :=
  some (.object [("authorized", "true"), ("activeBridge", "true")])

def bridgePair : AList (fun _ : UInt64 => JsonLib.fieldJson.Packed) :=
  ((∅ : AList fun _ : UInt64 => JsonLib.fieldJson.Packed).insert 1 bridgeRecord).insert 2 bridgeRecord

def bridgeOrder : List ((_ : UInt64) × JsonLib.fieldJson.Packed) :=
  [⟨1, bridgeRecord⟩, ⟨2, bridgeRecord⟩]

theorem summarize_of_perm_bridgePair :
    bridgeOrder.Perm bridgePair.entries ∧
      (let ns := bridgeOrder.foldl (fun ns m => summarizeMember 60000 100000 ns m.1 m.2)
        NetworkSummaryInfo.empty
      { ns with
        activeBridges := ns.activeBridges.insertionSort (· ≤ ·)
        allocatedIps := ns.allocatedIps.insertionSort fun a b => ¬InetAddress.lt b a }) =
        summarize 60000 100000 bridgePair :=
  have hl : bridgeOrder.Perm bridgePair.entries := List.Perm.swap _ _ []
  ⟨hl, summarize_of_perm 60000 100000 bridgePair hl⟩

end JSONDB

end ZeroTier
