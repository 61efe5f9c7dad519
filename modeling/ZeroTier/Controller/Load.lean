import ZeroTier.Controller.ReverseIndex
import Mathlib.Data.List.Dedup

namespace ZeroTier

namespace JSONDB

variable {L : JsonLib}

-- `di->length() > 5 && di->substr(di->length() - 5) == ".json"`
def isJsonName (di : String) : Bool :=
  5 < di.length && di.toList.drop (di.length - 5) == ".json".toList

-- `OSUtils::listDirectory(p, true)` on the files: the names in directory `p`, each once, in the
-- order the map lists the files; the listing order of the directory is not specified, so results
-- about the constructor hold for every map with the same lookups.
def listDirectory (files : AList (fun _ : List String => L.Text)) (p : List String) :
    List String :=
  (files.keys.filterMap fun path => if p.isPrefixOf path then (path.drop p.length).head? else none).dedup

-- One file of the walk: read, parsed and `_add`ed; a file that cannot be read or parsed is skipped.
def loadFile (files : AList (fun _ : List String => L.Text)) (path : List String) (db : JSONDB L) :
    JSONDB L :=
  match files.lookup path with
  | none => db
  | some buf =>
      match L.jsonParse buf with
      | .ok j => (db.add j).1
      | .error _ => db

-- `_load(p)` outside HTTP mode: an entry whose name is a JSON file name is read, any other entry
-- is walked into. `depth` bounds the walk.
def load (files : AList (fun _ : List String => L.Text)) : Nat → List String → JSONDB L → JSONDB L
  | 0, _, db => db
  | depth + 1, p, db =>
      (listDirectory files p).foldl (fun db di =>
        if isJsonName di then loadFile files (p ++ [di]) db else load files depth (p ++ [di]) db) db

-- `_load` in HTTP mode, on the body of a reply with status 200: every value of the image is
-- `_add`ed. `none` is the `false` that makes the constructor try again.
def loadImage (db : JSONDB L) (body : L.Text) : Option (JSONDB L) :=
  match L.jsonParse body with
  | .ok img => if L.isObject img then some ((L.items img).foldl (fun db j => (db.add j).1) db) else none
  | .error _ => none

-- The longest file path; no walk from a prefix of the files goes deeper.
def maxDepth (files : AList (fun _ : List String => L.Text)) : Nat :=
  files.keys.foldr (fun path d => max path.length d) 0

-- The constructor in filesystem mode: `_load(_basePath)`, which returns true there, and every
-- loaded network queued for its summary.
def construct (basePath : List String) (files : AList (fun _ : List String => L.Text)) :
    JSONDB L :=
  let db := load files (maxDepth files) basePath (fresh .filesystem basePath)
  { db with summaryThreadToDo := db.networks.keys }

@[simp] theorem networks_construct (basePath : List String)
    (files : AList (fun _ : List String => L.Text)) :
    (construct basePath files).networks =
      (load files (maxDepth files) basePath (fresh .filesystem basePath)).networks := rfl

theorem length_le_maxDepth {files : AList (fun _ : List String => L.Text)} {path : List String}
    (h : path ∈ files) : path.length ≤ maxDepth files := by
  rw [AList.mem_keys] at h
  unfold maxDepth
  generalize files.keys = ks at h
  induction ks with
  | nil => cases h
  | cons q qs ih =>
    rcases List.mem_cons.1 h with rfl | h
    · exact le_max_left _ _
    · exact (ih h).trans (le_max_right _ _)

-- The files the walk reads.

section Walk

variable (files : AList (fun _ : List String => L.Text))

-- The files the walk from `p` reads, in the order it reads them.
def visited : Nat → List String → List (List String)
  | 0, _ => []
  | depth + 1, p => (listDirectory files p).flatMap fun di =>
      if isJsonName di then (if p ++ [di] ∈ files then [p ++ [di]] else []) else visited depth (p ++ [di])

theorem load_eq_foldl (depth : Nat) (p : List String) (db : JSONDB L) :
    load files depth p db = (visited files depth p).foldl (fun db path => loadFile files path db) db := by
  induction depth generalizing p db with
  | zero => rfl
  | succ depth ih =>
    simp only [load, visited]
    induction listDirectory files p generalizing db with
    | nil => rfl
    | cons di ds ihd =>
      rw [List.foldl_cons, List.flatMap_cons, List.foldl_append, ihd]
      congr 1
      split
      · split
        · rfl
        · simp [loadFile, AList.lookup_eq_none.2 ‹_›]
      · exact ih _ _

theorem mem_visited {depth : Nat} {p path : List String} (h : path ∈ visited files depth p) :
    path ∈ files ∧ p <+: path := by
  induction depth generalizing p with
  | zero => cases h
  | succ depth ih =>
    obtain ⟨di, -, hdi⟩ := List.mem_flatMap.1 h
    split at hdi
    · split at hdi
      · rw [List.mem_singleton.1 hdi]
        exact ⟨‹_›, List.prefix_append _ _⟩
      · cases hdi
    · obtain ⟨hf, hp⟩ := ih hdi
      exact ⟨hf, (List.prefix_append _ _).trans hp⟩

-- A path below a directory that the walk reads: directory names that are not JSON file names,
-- then a JSON file name.
def walks : List String → Bool
  | [] => false
  | c :: cs => if isJsonName c then cs.isEmpty else walks cs

theorem mem_listDirectory {p : List String} {c : String} {cs : List String}
    (h : p ++ c :: cs ∈ files) : c ∈ listDirectory files p := by
  refine List.mem_dedup.2 (List.mem_filterMap.2 ⟨_, AList.mem_keys.1 h, ?_⟩)
  simp [List.isPrefixOf_iff_prefix]

-- The walk reads every file it can reach within its depth.
theorem mem_visited_of_walks {depth : Nat} {p rest : List String} (h : p ++ rest ∈ files)
    (hw : walks rest) (hlen : rest.length ≤ depth) : p ++ rest ∈ visited files depth p := by
  induction depth generalizing p rest with
  | zero => cases rest <;> simp_all [walks]
  | succ depth ih =>
    cases rest with
    | nil => cases hw
    | cons c cs =>
      refine List.mem_flatMap.2 ⟨c, mem_listDirectory files h, ?_⟩
      by_cases hc : isJsonName c
      · have hcs : cs = [] := List.isEmpty_iff.1 (by simpa [walks, hc] using hw)
        subst hcs
        simp [hc, h]
      · have hrest : p ++ c :: cs = p ++ [c] ++ cs := by simp
        rw [if_neg hc, hrest]
        simp only [walks, hc, if_false, Bool.false_eq_true] at hw
        exact ih (hrest ▸ h) hw (Nat.le_of_succ_le_succ hlen)

end Walk

-- What the constructor leaves in the reverse index.

section Construct

variable {files : AList (fun _ : List String => L.Text)}

theorem mode_add (db : JSONDB L) (j : L.Json) : (db.add j).1.mode = db.mode := by
  unfold add
  split <;> rfl

-- Induction along the walk: what every `_add` keeps, `_load` keeps.
theorem load_induction (P : JSONDB L → Prop) (hadd : ∀ db j, P db → P (db.add j).1)
    (depth : Nat) (p : List String) {db : JSONDB L} (h : P db) : P (load files depth p db) := by
  rw [load_eq_foldl]
  induction visited files depth p generalizing db with
  | nil => exact h
  | cons path paths ih =>
    refine ih (show P (loadFile files path db) from ?_)
    unfold loadFile
    split
    · exact h
    · split
      · exact hadd _ _ h
      · exact h

theorem mode_construct (basePath : List String) :
    (construct basePath files : JSONDB L).mode = .filesystem :=
  load_induction (fun db => db.mode = .filesystem) (fun db j h => (mode_add db j).trans h) _ _ rfl

theorem basePath_add (db : JSONDB L) (j : L.Json) : (db.add j).1.basePath = db.basePath := by
  unfold add
  split <;> rfl

theorem basePath_construct (basePath : List String) :
    (construct basePath files : JSONDB L).basePath = basePath :=
  load_induction (fun db => db.basePath = basePath) (fun db j h => (basePath_add db j).trans h) _ _ rfl

theorem IndexAgrees.construct (basePath : List String) :
    IndexAgrees (construct basePath files : JSONDB L) :=
  load_induction IndexAgrees (fun _ _ h => h.add _) _ _ (IndexAgrees.fresh _ _)

-- In filesystem mode the reverse index is exact over the constructor's load and every run of
-- calls after it: `_members[nodeId]` holds `nwid` exactly when network `nwid` has member `nodeId`.
theorem construct_run_members_exact (basePath : List String)
    (files : AList (fun _ : List String => L.Text)) (store : Store L)
    (calls : List (Call L × (List String → Bool))) (nwid nodeId : UInt64) :
    nwid ∈ ((construct basePath files).run store calls).1.members nodeId ↔
      ∃ nw, ((construct basePath files).run store calls).1.networks.lookup nwid = some nw ∧
        nodeId ∈ nw.members :=
  (IndexAgrees.construct basePath).run (by rw [mode_construct]; decide) store calls nwid nodeId

end Construct

end JSONDB

end ZeroTier
