import ZeroTier.Wire.Buffer
import Mathlib.Data.Finset.Card

namespace ZeroTier

-- `_directPaths`: each call holds `_directPaths_m` for all it does to the vector, so any
-- interleaving of host threads is a sequence of whole calls.

/-- Modelled from the spec: Path.hpp is not among the sources, so `Path::isAddressValidForPath` is
a parameter; `InetAddress::operator==` is the equality of the modelled address. -/
def addLocalInterfaceAddress (isAddressValidForPath : InetAddress → Bool)
    (directPaths : List InetAddress) (addr : InetAddress) : List InetAddress × Int :=
  if isAddressValidForPath addr then
    if addr ∉ directPaths then (directPaths ++ [addr], 1) else (directPaths, 0)
  else (directPaths, 0)

def clearLocalInterfaceAddresses (_directPaths : List InetAddress) : List InetAddress := []

-- The calls the host makes on the direct paths.
inductive PathCall where
  | add (addr : InetAddress)
  | clear
  deriving DecidableEq, Repr

-- `_directPaths` after a sequence of calls, and what each `addLocalInterfaceAddress` returned.
def runPathCalls (valid : InetAddress → Bool) :
    List InetAddress → List PathCall → List InetAddress × List Int
  | paths, [] => (paths, [])
  | paths, .add addr :: calls =>
      let r := addLocalInterfaceAddress valid paths addr
      let rest := runPathCalls valid r.1 calls
      (rest.1, r.2 :: rest.2)
  | paths, .clear :: calls => runPathCalls valid (clearLocalInterfaceAddresses paths) calls

section Invariant

variable {valid : InetAddress → Bool}

-- An address is added exactly when it is valid for a path and not there yet.
theorem addLocalInterfaceAddress_added (paths : List InetAddress) (addr : InetAddress) :
    (addLocalInterfaceAddress valid paths addr).2 = 1 ↔ valid addr = true ∧ addr ∉ paths := by
  unfold addLocalInterfaceAddress
  split_ifs <;> simp_all

theorem addLocalInterfaceAddress_paths (paths : List InetAddress) (addr : InetAddress) :
    (addLocalInterfaceAddress valid paths addr).1 =
      if (addLocalInterfaceAddress valid paths addr).2 = 1 then paths ++ [addr] else paths := by
  unfold addLocalInterfaceAddress
  split_ifs <;> simp_all

theorem addLocalInterfaceAddress_nodup {paths : List InetAddress} (h : paths.Nodup)
    (addr : InetAddress) : (addLocalInterfaceAddress valid paths addr).1.Nodup := by
  rw [addLocalInterfaceAddress_paths]
  split
  · next hadd =>
    exact List.nodup_append.2 ⟨h, List.nodup_singleton addr, List.disjoint_singleton.2
      ((addLocalInterfaceAddress_added paths addr).1 hadd).2⟩
  · exact h

theorem addLocalInterfaceAddress_valid {paths : List InetAddress}
    (h : ∀ a ∈ paths, valid a = true) (addr : InetAddress) :
    ∀ a ∈ (addLocalInterfaceAddress valid paths addr).1, valid a = true := by
  rw [addLocalInterfaceAddress_paths]
  split
  · next hadd =>
    intro a ha
    rcases List.mem_append.1 ha with ha | ha
    · exact h a ha
    · rw [List.mem_singleton.1 ha]
      exact ((addLocalInterfaceAddress_added paths addr).1 hadd).1
  · exact h

end Invariant

-- `_directPaths` as every call leaves it: no address twice, and only addresses valid for a path.
structure DirectPaths (valid : InetAddress → Bool) where
  paths : List InetAddress
  nodup : paths.Nodup
  allValid : ∀ a ∈ paths, valid a = true

namespace DirectPaths

variable {valid : InetAddress → Bool}

def empty : DirectPaths valid := ⟨[], List.nodup_nil, fun _ h => absurd h (List.not_mem_nil _)⟩

def add (d : DirectPaths valid) (addr : InetAddress) : DirectPaths valid :=
  ⟨(addLocalInterfaceAddress valid d.paths addr).1, addLocalInterfaceAddress_nodup d.nodup addr,
    addLocalInterfaceAddress_valid d.allValid addr⟩

def run : DirectPaths valid → List PathCall → DirectPaths valid
  | d, [] => d
  | d, .add addr :: calls => (d.add addr).run calls
  | _, .clear :: calls => empty.run calls

-- The faithful run on vectors is the run on values that carry the invariant.
theorem runPathCalls_eq (d : DirectPaths valid) (calls : List PathCall) :
    (runPathCalls valid d.paths calls).1 = (d.run calls).paths := by
  induction calls generalizing d with
  | nil => rfl
  | cons call calls ih =>
    cases call with
    | add addr => exact ih (d.add addr)
    | clear => exact ih empty

-- The set the vector stands for is its `toFinset`, whose size is its length: it has no duplicates.

-- The abstract direct-path set: valid addresses inserted, everything dropped on clear.
def pathSet (valid : InetAddress → Bool) : Finset InetAddress → List PathCall → Finset InetAddress
  | s, [] => s
  | s, .add addr :: calls => pathSet valid (if valid addr then insert addr s else s) calls
  | _, .clear :: calls => pathSet valid ∅ calls

theorem add_toFinset (d : DirectPaths valid) (addr : InetAddress) :
    (d.add addr).paths.toFinset =
      if valid addr then insert addr d.paths.toFinset else d.paths.toFinset := by
  show (addLocalInterfaceAddress valid d.paths addr).1.toFinset = _
  unfold addLocalInterfaceAddress
  split_ifs with hv hold
  · exact (Finset.insert_eq_of_mem (List.mem_toFinset.2 hold)).symm
  · dsimp only
    rw [List.toFinset_append, List.toFinset_cons, List.toFinset_nil, insert_emptyc_eq,
      Finset.union_comm, ← Finset.insert_eq]
  · rfl

theorem run_toFinset (d : DirectPaths valid) (calls : List PathCall) :
    (d.run calls).paths.toFinset = pathSet valid d.paths.toFinset calls := by
  induction calls generalizing d with
  | nil => rfl
  | cons call calls ih =>
    cases call with
    | add addr => rw [run, ih, pathSet, add_toFinset]
    | clear => exact ih empty

theorem length_eq_card (d : DirectPaths valid) : d.paths.length = d.paths.toFinset.card :=
  (List.toFinset_card_of_nodup d.nodup).symm

end DirectPaths

-- From a fresh node, the vector is the abstract set, one entry per member.
theorem runPathCalls_set (valid : InetAddress → Bool) (calls : List PathCall) :
    (runPathCalls valid [] calls).1.toFinset = DirectPaths.pathSet valid ∅ calls ∧
      (runPathCalls valid [] calls).1.length = (DirectPaths.pathSet valid ∅ calls).card := by
  have hpaths : (runPathCalls valid [] calls).1 = (DirectPaths.empty.run calls).paths :=
    @DirectPaths.runPathCalls_eq valid DirectPaths.empty calls
  rw [hpaths]
  exact ⟨DirectPaths.run_toFinset _ calls,
    (DirectPaths.length_eq_card _).trans (congrArg Finset.card (DirectPaths.run_toFinset _ calls))⟩

theorem directPaths_nodup_valid (valid : InetAddress → Bool) (calls : List PathCall) :
    let paths := (runPathCalls valid [] calls).1
    paths.Nodup ∧ (∀ a ∈ paths, valid a = true) ∧
      ∀ addr, ((addLocalInterfaceAddress valid paths addr).2 = 1 ↔
          valid addr = true ∧ addr ∉ paths) ∧
        (addLocalInterfaceAddress valid paths addr).1 =
          if (addLocalInterfaceAddress valid paths addr).2 = 1 then paths ++ [addr] else paths := by
  intro paths
  have hpaths : paths = (DirectPaths.empty.run calls).paths :=
    @DirectPaths.runPathCalls_eq valid DirectPaths.empty calls
  rw [hpaths]
  exact ⟨DirectPaths.nodup _, DirectPaths.allValid _, fun addr =>
    ⟨addLocalInterfaceAddress_added _ addr, addLocalInterfaceAddress_paths _ addr⟩⟩


end ZeroTier
