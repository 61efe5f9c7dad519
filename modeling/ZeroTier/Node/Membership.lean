import ZeroTier.Node.Node

namespace ZeroTier

-- What happens to a `Network` object: `destroy()`, the `CONFIG_DESTROY` host callback, and its
-- removal from `_networks`.
inductive Lifecycle where
  | destroy (obj : Nat)
  | configDestroy (obj : Nat)
  | remove (obj : Nat)
  deriving DecidableEq, Repr

def Lifecycle.obj : Lifecycle → Nat
  | .destroy o | .configDestroy o | .remove o => o

-- The events of a log about one object, in order.
def eventsOf (log : List Lifecycle) (o : Nat) : List Lifecycle := log.filter (·.obj = o)

@[simp] theorem eventsOf_append (l l' : List Lifecycle) (o : Nat) :
    eventsOf (l ++ l') o = eventsOf l o ++ eventsOf l' o :=
  List.filter_append _ _

theorem eventsOf_push_other (l : List Lifecycle) {e : Lifecycle} {o : Nat} (h : e.obj ≠ o) :
    eventsOf (l ++ [e]) o = eventsOf l o := by
  simp [eventsOf, h]

theorem eventsOf_push_self (l : List Lifecycle) {e : Lifecycle} {o : Nat} (h : e.obj = o) :
    eventsOf (l ++ [e]) o = eventsOf l o ++ [e] := by
  simp [eventsOf, h]

-- Where a host thread is inside `Node::leave`: not in it, past the first locked block (the object
-- looked up and destroyed), or past the `CONFIG_DESTROY` callback.
inductive LeavePc where
  | idle
  | destroyed (nwid : UInt64) (obj : Nat)
  | notified (nwid : UInt64) (obj : Nat)
  deriving DecidableEq, Repr

def LeavePc.target : LeavePc → Option (UInt64 × Nat)
  | .idle => none
  | .destroyed n o | .notified n o => some (n, o)

-- `_networks`, each `Network` object named by the number it was created under, the next such
-- number, every host thread's place in `leave`, and the lifecycle log.
structure Membership where
  networks : UInt64 → Option Nat
  nextObject : Nat
  pc : Nat → LeavePc
  log : List Lifecycle

-- One step of one host thread: `join` is one locked block; `leave` is its first locked block,
-- the `CONFIG_DESTROY` callback, and the locked `erase`.
inductive MembershipOp where
  | join (thread : Nat) (nwid : UInt64)
  | leaveLock (thread : Nat) (nwid : UInt64)
  | leaveCallback (thread : Nat)
  | leaveErase (thread : Nat)
  deriving DecidableEq, Repr

namespace Membership

def initial : Membership := ⟨fun _ => none, 0, fun _ => .idle, []⟩

-- `none` when the thread is not at that step. `nUserPtr` is the address of the object's user
-- pointer, never null, so the callback is always made.
def step (s : Membership) : MembershipOp → Option Membership
  | .join t nwid =>
      if s.pc t ≠ .idle then none
      else match s.networks nwid with
        | some _ => some s
        | none => some { s with
            networks := Function.update s.networks nwid (some s.nextObject)
            nextObject := s.nextObject + 1 }
  | .leaveLock t nwid =>
      if s.pc t ≠ .idle then none
      else match s.networks nwid with
        | none => some s
        | some o => some { s with
            pc := Function.update s.pc t (.destroyed nwid o)
            log := s.log ++ [.destroy o] }
  | .leaveCallback t =>
      match s.pc t with
      | .destroyed nwid o => some { s with
          pc := Function.update s.pc t (.notified nwid o)
          log := s.log ++ [.configDestroy o] }
      | _ => none
  | .leaveErase t =>
      match s.pc t with
      | .notified nwid _ => some { s with
          networks := Function.update s.networks nwid none
          pc := Function.update s.pc t .idle
          log := s.log ++ (s.networks nwid).toList.map .remove }
      | _ => none

def run (s : Membership) : List MembershipOp → Option Membership
  | [] => some s
  | op :: ops => (s.step op).bind (run · ops)

-- The states reached from a fresh node by steps the schedule `allowed` permits.
inductive Reach (allowed : Membership → MembershipOp → Prop) : Membership → Prop where
  | initial : Reach allowed initial
  | step {s s' : Membership} {op : MembershipOp} :
      Reach allowed s → allowed s op → s.step op = some s' → Reach allowed s'

-- Every interleaving of the host threads.
def AnyOrder (_ : Membership) (_ : MembershipOp) : Prop := True

-- The host never calls `leave(n)` while another `leave(n)` is past its first locked block.
def LeavesSerialized (s : Membership) : MembershipOp → Prop
  | .leaveLock _ nwid => ∀ t o, (s.pc t).target ≠ some (nwid, o)
  | _ => True

theorem reach_of_run (ops : List MembershipOp) {s₀ s : Membership} (h₀ : Reach AnyOrder s₀)
    (h : s₀.run ops = some s) : Reach AnyOrder s := by
  induction ops generalizing s₀ with
  | nil => cases h; exact h₀
  | cons op ops ih =>
    simp only [run, Option.bind_eq_some] at h
    obtain ⟨s₁, h₁, h⟩ := h
    exact ih (h₀.step trivial h₁) h

-- Two overlapping `leave(1)` calls destroy the object and call the host twice; a `join(1)` after
-- the first erase creates a new object that the second erase removes untouched.
theorem overlapping_leaves_destroy_twice :
    ∃ s, Reach AnyOrder s ∧ s.log =
      [.destroy 0, .destroy 0, .configDestroy 0, .configDestroy 0, .remove 0, .remove 1] :=
  ⟨_, reach_of_run [.join 0 1, .leaveLock 0 1, .leaveLock 1 1, .leaveCallback 0,
    .leaveCallback 1, .leaveErase 0, .join 2 1, .leaveErase 1] .initial rfl, rfl⟩

-- With leaves serialized, each object's events come in order: none while it lives, `destroy` and
-- `configDestroy` while one `leave` holds it, then `remove`.
structure Inv (s : Membership) : Prop where
  map_lt : ∀ {n o}, s.networks n = some o → o < s.nextObject
  map_inj : ∀ {n n' o}, s.networks n = some o → s.networks n' = some o → n = n'
  target_map : ∀ {t n o}, (s.pc t).target = some (n, o) → s.networks n = some o
  target_unique : ∀ {t t' n o o'}, (s.pc t).target = some (n, o) →
    (s.pc t').target = some (n, o') → t = t'
  events_fresh : ∀ {o}, s.nextObject ≤ o → eventsOf s.log o = []
  events_live : ∀ {n o}, s.networks n = some o → (∀ t n', (s.pc t).target ≠ some (n', o)) →
    eventsOf s.log o = []
  events_destroyed : ∀ {t n o}, s.pc t = .destroyed n o → eventsOf s.log o = [.destroy o]
  events_notified : ∀ {t n o}, s.pc t = .notified n o →
    eventsOf s.log o = [.destroy o, .configDestroy o]
  events_removed : ∀ {o}, o < s.nextObject → (∀ n, s.networks n ≠ some o) →
    eventsOf s.log o = [.destroy o, .configDestroy o, .remove o]

theorem inv_initial : Inv initial where
  map_lt h := by simp [initial] at h
  map_inj h := by simp [initial] at h
  target_map h := by simp [initial, LeavePc.target] at h
  target_unique h := by simp [initial, LeavePc.target] at h
  events_fresh _ := rfl
  events_live h := by simp [initial] at h
  events_destroyed h := by simp [initial] at h
  events_notified h := by simp [initial] at h
  events_removed h := by simp [initial] at h

variable {s : Membership}

-- Two threads inside `leave` never hold the same object.
theorem Inv.obj_unique (hs : Inv s) {t₁ t₂ : Nat} {n₁ n₂ : UInt64} {o : Nat}
    (h₁ : (s.pc t₁).target = some (n₁, o)) (h₂ : (s.pc t₂).target = some (n₂, o)) : t₁ = t₂ := by
  obtain rfl := hs.map_inj (hs.target_map h₁) (hs.target_map h₂)
  exact hs.target_unique h₁ h₂

theorem Inv.target_lt (hs : Inv s) {t : Nat} {n : UInt64} {o : Nat}
    (h : (s.pc t).target = some (n, o)) : o < s.nextObject :=
  hs.map_lt (hs.target_map h)

-- An event of the object one thread holds leaves the events of what another thread holds alone.
theorem Inv.eventsOf_push_held (hs : Inv s) {t t' : Nat} {n n' : UInt64} {o o' : Nat}
    (hheld : (s.pc t).target = some (n, o)) (ht : (s.pc t').target = some (n', o')) (e : t' ≠ t)
    (ev : Lifecycle) (hev : ev.obj = o) : eventsOf (s.log ++ [ev]) o' = eventsOf s.log o' :=
  eventsOf_push_other _ (hev ▸ fun eo => e (hs.obj_unique ht (eo ▸ hheld)))

theorem update_eq_cases {α β : Type} [DecidableEq α] {f : α → β} {a a' : α} {b c : β}
    (h : Function.update f a b a' = c) : (a' = a ∧ b = c) ∨ (a' ≠ a ∧ f a' = c) := by
  rwa [Function.update_apply, ite_eq_iff] at h

theorem target_update_cases {pc : Nat → LeavePc} {t t' : Nat} {p : LeavePc} {n : UInt64} {o : Nat}
    (h : (Function.update pc t p t').target = some (n, o)) :
    (t' = t ∧ p.target = some (n, o)) ∨ (t' ≠ t ∧ (pc t').target = some (n, o)) := by
  rwa [Function.update_apply, apply_ite LeavePc.target, ite_eq_iff] at h

-- `join` of an absent network adds a fresh object, with no events yet.
theorem Inv.join_new (hs : Inv s) {nwid : UInt64} (hn : s.networks nwid = none) :
    Inv { s with networks := Function.update s.networks nwid (some s.nextObject)
                 nextObject := s.nextObject + 1 } := by
  have hnot : ∀ {o}, s.networks nwid ≠ some o := by simp [hn]
  constructor <;> dsimp only
  · intro n o h
    rcases update_eq_cases h with ⟨-, h⟩ | ⟨-, h⟩
    · cases h; exact Nat.lt_succ_self _
    · exact Nat.lt_succ_of_lt (hs.map_lt h)
  · intro n n' o h h'
    rcases update_eq_cases h with ⟨e, hv⟩ | ⟨-, h₁⟩ <;>
      rcases update_eq_cases h' with ⟨e', hv'⟩ | ⟨-, h₂⟩
    · exact e.trans e'.symm
    · cases hv; exact absurd (hs.map_lt h₂) (lt_irrefl _)
    · cases hv'; exact absurd (hs.map_lt h₁) (lt_irrefl _)
    · exact hs.map_inj h₁ h₂
  · intro t n o h
    have h' := hs.target_map h
    rwa [Function.update_noteq (by rintro rfl; exact hnot h')]
  · exact hs.target_unique
  · intro o h
    exact hs.events_fresh (Nat.le_of_succ_le h)
  · intro n o h hfree
    rcases update_eq_cases h with ⟨-, h⟩ | ⟨-, h⟩
    · cases h; exact hs.events_fresh le_rfl
    · exact hs.events_live h hfree
  · exact hs.events_destroyed
  · exact hs.events_notified
  · intro o h hgone
    refine hs.events_removed ?_ fun n hno => ?_
    · rcases Nat.lt_succ_iff_lt_or_eq.1 h with h | rfl
      · exact h
      · exact absurd (Function.update_same _ _ _) (hgone nwid)
    · by_cases e : n = nwid
      · subst e; exact hnot hno
      · exact hgone n (by rwa [Function.update_noteq e])

-- The first locked block of a `leave` that finds object `o` destroys it.
theorem Inv.leaveLock (hs : Inv s) {t : Nat} {nwid : UInt64} {o : Nat} (hidle : s.pc t = .idle)
    (hn : s.networks nwid = some o) (hg : ∀ t' o', (s.pc t').target ≠ some (nwid, o')) :
    Inv { s with pc := Function.update s.pc t (.destroyed nwid o)
                 log := s.log ++ [.destroy o] } := by
  have hfree : ∀ t' n', (s.pc t').target ≠ some (n', o) := fun t' n' h =>
    hg t' o (by rw [h, hs.map_inj (hs.target_map h) hn])
  have other : ∀ {o'}, o' ≠ o → eventsOf (s.log ++ [.destroy o]) o' = eventsOf s.log o' :=
    fun h => eventsOf_push_other _ (Ne.symm h)
  constructor <;> dsimp only
  · exact hs.map_lt
  · exact hs.map_inj
  · intro t' n' o' h
    rcases target_update_cases h with ⟨-, h⟩ | ⟨-, h⟩
    · cases h; exact hn
    · exact hs.target_map h
  · intro t₁ t₂ n' o₁ o₂ h₁ h₂
    rcases target_update_cases h₁ with ⟨e₁, hv₁⟩ | ⟨-, h₁⟩ <;>
      rcases target_update_cases h₂ with ⟨e₂, hv₂⟩ | ⟨-, h₂⟩
    · exact e₁.trans e₂.symm
    · cases hv₁; exact absurd h₂ (hg _ _)
    · cases hv₂; exact absurd h₁ (hg _ _)
    · exact hs.target_unique h₁ h₂
  · intro o' h
    rw [other (by have := hs.map_lt hn; omega)]
    exact hs.events_fresh h
  · intro n' o' h hfree'
    have hne : o' ≠ o := by
      rintro rfl; exact hfree' t nwid (by simp [LeavePc.target])
    rw [other hne]
    refine hs.events_live h fun t' n'' ht => ?_
    by_cases e : t' = t
    · subst e; rw [hidle] at ht; cases ht
    · exact hfree' t' n'' (by rwa [Function.update_noteq e])
  · intro t' n' o' h
    rcases update_eq_cases h with ⟨-, h⟩ | ⟨-, h⟩
    · cases h
      rw [eventsOf_push_self s.log (show (Lifecycle.destroy o).obj = o from rfl),
        hs.events_live hn hfree]
      rfl
    · rw [other fun e => hfree t' n' (by rw [h, e]; rfl)]
      exact hs.events_destroyed h
  · intro t' n' o' h
    rcases update_eq_cases h with ⟨-, h⟩ | ⟨-, h⟩
    · cases h
    · rw [other fun e => hfree t' n' (by rw [h, e]; rfl)]
      exact hs.events_notified h
  · intro o' h hgone
    rw [other fun e => hgone nwid (by rw [e]; exact hn)]
    exact hs.events_removed h hgone

-- The `CONFIG_DESTROY` callback of the thread holding object `o`.
theorem Inv.leaveCallback (hs : Inv s) {t : Nat} {nwid : UInt64} {o : Nat}
    (hpc : s.pc t = .destroyed nwid o) :
    Inv { s with pc := Function.update s.pc t (.notified nwid o)
                 log := s.log ++ [.configDestroy o] } := by
  have htgt : ∀ t', (Function.update s.pc t (.notified nwid o) t').target = (s.pc t').target := by
    intro t'
    by_cases e : t' = t
    · subst e; simp [hpc, LeavePc.target]
    · rw [Function.update_noteq e]
  have hheld : (s.pc t).target = some (nwid, o) := by rw [hpc]; rfl
  have other : ∀ {o'}, o' ≠ o → eventsOf (s.log ++ [.configDestroy o]) o' = eventsOf s.log o' :=
    fun h => eventsOf_push_other _ (Ne.symm h)
  constructor <;> dsimp only
  · exact hs.map_lt
  · exact hs.map_inj
  · intro t' n' o' h
    exact hs.target_map (by rwa [htgt] at h)
  · intro t₁ t₂ n' o₁ o₂ h₁ h₂
    exact hs.target_unique (by rwa [htgt] at h₁) (by rwa [htgt] at h₂)
  · intro o' h
    rw [other (by have := hs.target_lt hheld; omega)]
    exact hs.events_fresh h
  · intro n' o' h hfree
    have hne : o' ≠ o := by rintro rfl; exact hfree t nwid (by rw [htgt, hheld])
    rw [other hne]
    exact hs.events_live h fun t' n'' ht => hfree t' n'' (by rwa [htgt])
  · intro t' n' o' h
    rcases update_eq_cases h with ⟨-, h⟩ | ⟨e, h⟩
    · cases h
    · rw [hs.eventsOf_push_held hheld (by rw [h]; rfl) e (.configDestroy o) rfl]
      exact hs.events_destroyed h
  · intro t' n' o' h
    rcases update_eq_cases h with ⟨-, h⟩ | ⟨e, h⟩
    · cases h
      rw [eventsOf_push_self s.log (show (Lifecycle.configDestroy o).obj = o from rfl),
        hs.events_destroyed hpc]
      rfl
    · rw [hs.eventsOf_push_held hheld (by rw [h]; rfl) e (.configDestroy o) rfl]
      exact hs.events_notified h
  · intro o' h hgone
    rw [other fun e => hgone nwid (by rw [e]; exact hs.target_map hheld)]
    exact hs.events_removed h hgone

-- The locked `erase` of the thread holding object `o` removes exactly that object.
theorem Inv.leaveErase (hs : Inv s) {t : Nat} {nwid : UInt64} {o : Nat}
    (hpc : s.pc t = .notified nwid o) :
    Inv { s with networks := Function.update s.networks nwid none
                 pc := Function.update s.pc t .idle
                 log := s.log ++ (s.networks nwid).toList.map .remove } := by
  have hheld : (s.pc t).target = some (nwid, o) := by rw [hpc]; rfl
  have hn : s.networks nwid = some o := hs.target_map hheld
  rw [hn, Option.toList_some, List.map_cons, List.map_nil]
  have other : ∀ {o'}, o' ≠ o → eventsOf (s.log ++ [.remove o]) o' = eventsOf s.log o' :=
    fun h => eventsOf_push_other _ (Ne.symm h)
  have hmap : ∀ {n' o'}, Function.update s.networks nwid none n' = some o' →
      n' ≠ nwid ∧ s.networks n' = some o' := fun h => by
    rcases update_eq_cases h with ⟨-, h⟩ | h
    · cases h
    · exact h
  have hpcs : ∀ {t' n' o'}, (Function.update s.pc t .idle t').target = some (n', o') →
      t' ≠ t ∧ (s.pc t').target = some (n', o') := fun h => by
    rcases target_update_cases h with ⟨-, h⟩ | h
    · cases h
    · exact h
  constructor <;> dsimp only
  · exact fun h => hs.map_lt (hmap h).2
  · exact fun h h' => hs.map_inj (hmap h).2 (hmap h').2
  · intro t' n' o' h
    obtain ⟨e, h⟩ := hpcs h
    have hn' : n' ≠ nwid := by rintro rfl; exact e (hs.target_unique h hheld)
    rw [Function.update_noteq hn']
    exact hs.target_map h
  · exact fun h₁ h₂ => hs.target_unique (hpcs h₁).2 (hpcs h₂).2
  · intro o' h
    rw [other (by have := hs.target_lt hheld; omega)]
    exact hs.events_fresh h
  · intro n' o' h hfree
    obtain ⟨hn', h⟩ := hmap h
    have hne : o' ≠ o := by rintro rfl; exact hn' (hs.map_inj h hn)
    rw [other hne]
    refine hs.events_live h fun t' n'' ht => ?_
    by_cases e : t' = t
    · subst e; rw [hheld] at ht; cases ht; exact hne rfl
    · exact hfree t' n'' (by rwa [Function.update_noteq e])
  · intro t' n' o' h
    rcases update_eq_cases h with ⟨-, h⟩ | ⟨e, h⟩
    · cases h
    · rw [hs.eventsOf_push_held hheld (by rw [h]; rfl) e (.remove o) rfl]
      exact hs.events_destroyed h
  · intro t' n' o' h
    rcases update_eq_cases h with ⟨-, h⟩ | ⟨e, h⟩
    · cases h
    · rw [hs.eventsOf_push_held hheld (by rw [h]; rfl) e (.remove o) rfl]
      exact hs.events_notified h
  · intro o' h hgone
    by_cases e : o' = o
    · subst e
      rw [eventsOf_push_self s.log (show (Lifecycle.remove o').obj = o' from rfl),
        hs.events_notified hpc]
      rfl
    · rw [other e]
      refine hs.events_removed h fun n' hno => ?_
      by_cases en : n' = nwid
      · subst en; rw [hn] at hno; exact e (Option.some.inj hno).symm
      · exact hgone n' (by rwa [Function.update_noteq en])

theorem Inv.step (hs : Inv s) {op : MembershipOp} {s' : Membership}
    (hg : LeavesSerialized s op) (h : s.step op = some s') : Inv s' := by
  cases op with
  | join t nwid =>
    simp only [Membership.step] at h
    split_ifs at h
    split at h <;> cases h
    · exact hs
    · exact hs.join_new ‹_›
  | leaveLock t nwid =>
    simp only [Membership.step] at h
    split_ifs at h with hidle
    split at h <;> cases h
    · exact hs
    · exact hs.leaveLock (not_not.1 hidle) ‹_› hg
  | leaveCallback t =>
    simp only [Membership.step] at h
    split at h <;> cases h
    exact hs.leaveCallback ‹_›
  | leaveErase t =>
    simp only [Membership.step] at h
    split at h <;> cases h
    exact hs.leaveErase ‹_›

theorem Reach.inv {s : Membership} (h : Reach LeavesSerialized s) : Inv s := by
  induction h with
  | initial => exact inv_initial
  | step _ hg hs ih => exact ih.step hg hs

-- Each object's events are a prefix of its one lifecycle.
theorem Inv.events_prefix (hs : Inv s) (o : Nat) :
    eventsOf s.log o <+: [.destroy o, .configDestroy o, .remove o] := by
  by_cases hlt : o < s.nextObject
  · by_cases hin : ∃ n, s.networks n = some o
    · obtain ⟨n, hn⟩ := hin
      by_cases held : ∃ t n', (s.pc t).target = some (n', o)
      · obtain ⟨t, n', ht⟩ := held
        cases hp : s.pc t with
        | idle => rw [hp] at ht; cases ht
        | destroyed n'' o' =>
          rw [hp] at ht; cases ht
          rw [hs.events_destroyed hp]; exact ⟨[.configDestroy o, .remove o], rfl⟩
        | notified n'' o' =>
          rw [hp] at ht; cases ht
          rw [hs.events_notified hp]; exact ⟨[.remove o], rfl⟩
      · push_neg at held
        rw [hs.events_live hn held]; exact List.nil_prefix
    · push_neg at hin
      rw [hs.events_removed hlt hin]
  · rw [hs.events_fresh (by omega)]; exact List.nil_prefix

theorem count_eventsOf (log : List Lifecycle) {e : Lifecycle} {o : Nat} (h : e.obj = o) :
    (eventsOf log o).count e = log.count e :=
  List.count_filter (by simpa using h)

theorem count_le_one_of_events_prefix {log : List Lifecycle} {o : Nat}
    (h : eventsOf log o <+: [.destroy o, .configDestroy o, .remove o]) :
    log.count (.destroy o) ≤ 1 ∧ log.count (.configDestroy o) ≤ 1 := by
  have hd := h.sublist.count_le (.destroy o)
  have hc := h.sublist.count_le (.configDestroy o)
  rw [count_eventsOf log (show (Lifecycle.destroy o).obj = o from rfl)] at hd
  rw [count_eventsOf log (show (Lifecycle.configDestroy o).obj = o from rfl)] at hc
  simp_all

theorem count_before_remove_of_events_prefix {pre post : List Lifecycle} {o : Nat}
    (h : eventsOf (pre ++ .remove o :: post) o <+: [.destroy o, .configDestroy o, .remove o]) :
    pre.count (.destroy o) = 1 ∧ pre.count (.configDestroy o) = 1 := by
  have hpre : eventsOf pre o = [.destroy o, .configDestroy o] := by
    obtain ⟨rest, h⟩ := h
    simp only [eventsOf_append, eventsOf_push_self] at h
    rw [show eventsOf (.remove o :: post) o = .remove o :: eventsOf post o by simp [eventsOf,
      Lifecycle.obj]] at h
    rcases hE : eventsOf pre o with _ | ⟨x, _ | ⟨y, _ | ⟨z, zs⟩⟩⟩ <;> simp_all
  rw [← count_eventsOf pre (show (Lifecycle.destroy o).obj = o from rfl),
    ← count_eventsOf pre (show (Lifecycle.configDestroy o).obj = o from rfl), hpre]
  simp

-- With `leave(n)` calls on one network never overlapping, every object is destroyed and called
-- back at most once, and every object removed from `_networks` had both, once, before.
theorem leave_lifecycle_serialized {s : Membership} (h : Reach LeavesSerialized s) :
    (∀ o, s.log.count (.destroy o) ≤ 1 ∧ s.log.count (.configDestroy o) ≤ 1) ∧
      ∀ pre post o, s.log = pre ++ .remove o :: post →
        pre.count (.destroy o) = 1 ∧ pre.count (.configDestroy o) = 1 := by
  have hs := h.inv
  refine ⟨fun o => count_le_one_of_events_prefix (hs.events_prefix o), fun pre post o hlog => ?_⟩
  have hp := hs.events_prefix o
  rw [hlog] at hp
  exact count_before_remove_of_events_prefix hp

-- While thread 0 is inside leave(1), between its locked blocks, thread 1 joins network 1 (still
-- there, so nothing is created) and joins and leaves network 2.
theorem leave_lifecycle_serialized_join_leave_in_gap :
    ∃ s, Reach LeavesSerialized s ∧
      s.log = [.destroy 0, .destroy 1, .configDestroy 1, .configDestroy 0, .remove 1, .remove 0] ∧
      (∀ o, s.log.count (.destroy o) ≤ 1 ∧ s.log.count (.configDestroy o) ≤ 1) ∧
      ∀ pre post o, s.log = pre ++ .remove o :: post →
        pre.count (.destroy o) = 1 ∧ pre.count (.configDestroy o) = 1 := by
  have r₁ := Reach.step Reach.initial (show LeavesSerialized initial (.join 0 1) from trivial) rfl
  have r₂ := Reach.step r₁ (show LeavesSerialized _ (.leaveLock 0 1) from
    fun _ _ => Option.noConfusion) rfl
  have r₃ := Reach.step r₂ (show LeavesSerialized _ (.join 1 1) from trivial) rfl
  have r₄ := Reach.step r₃ (show LeavesSerialized _ (.join 1 2) from trivial) rfl
  have r₅ := Reach.step r₄ (show LeavesSerialized _ (.leaveLock 1 2) from fun t o => by
    by_cases e : t = 0 <;> simp [e, Function.update_apply, LeavePc.target, initial]) rfl
  have r₆ := Reach.step r₅ (show LeavesSerialized _ (.leaveCallback 1) from trivial) rfl
  have r₇ := Reach.step r₆ (show LeavesSerialized _ (.leaveCallback 0) from trivial) rfl
  have r₈ := Reach.step r₇ (show LeavesSerialized _ (.leaveErase 1) from trivial) rfl
  have r₉ := Reach.step r₈ (show LeavesSerialized _ (.leaveErase 0) from trivial) rfl
  exact ⟨_, r₉, rfl, leave_lifecycle_serialized r₉⟩

end Membership

end ZeroTier
