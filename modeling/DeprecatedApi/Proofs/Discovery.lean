import DeprecatedApi.Analysis
import DeprecatedApi.Proofs.Paths
import DeprecatedApi.Proofs.StableSort
import Mathlib.Data.List.Lex
import Mathlib.Data.List.Nodup
import Mathlib.Data.String.Basic

/-!
# What discovery finds

In a tree that a file system can hold, discovery finds files under their own paths: what
it finds is what reading the path gives, no path is found twice, and the paths come in
order.

* `FileTree.WellFormed`: trees that a file system can hold.
* `Discovery.AllReadable`: every directory can be opened under its path.
* `Discovery.Locates`: the place of a fact file below the root.
* `Discovery.exists_locates`: every fact file that is found has its place.
* `Discovery.pairwise_sources`: the paths of what is found strictly increase.
* `Discovery.load_of_mem_sources`: what is found is what reading gives.
-/

namespace DeprecatedApi

/-! ## Trees that a file system can hold -/

/-- The entries of each directory have proper names, all of them different. -/
inductive FileTree.WellFormed : FileTree → Prop
  | file (content : ByteArray) : WellFormed (.file content)
  | dir {entries : List (String × FileTree)} (distinct : (entries.map Prod.fst).Nodup)
      (named : ∀ entry ∈ entries, IsName entry.1)
      (inner : ∀ entry ∈ entries, WellFormed entry.2) : WellFormed (.dir entries)

/-- Among different names, an entry is found by its name. -/
theorem lookup_of_mem {entries : List (String × FileTree)}
    (distinct : (entries.map Prod.fst).Nodup) {name : String} {tree : FileTree}
    (h : (name, tree) ∈ entries) : entries.lookup name = some tree := by
  obtain ⟨before, after, rfl⟩ := List.append_of_mem h
  refine List.lookup_eq_some_iff.mpr ⟨before, after, rfl, fun entry hentry => ?_⟩
  rw [List.map_append, List.map_cons, List.nodup_append] at distinct
  have hne := distinct.2.2 entry.1 (List.mem_map_of_mem hentry) name List.mem_cons_self
  simpa using Ne.symm hne

/-- What stands in a well-formed tree is well formed. -/
theorem FileTree.WellFormed.get? {tree : FileTree} (h : tree.WellFormed) {way : List String}
    {found : FileTree} (hfound : tree.get? way = some found) : found.WellFormed := by
  induction way generalizing tree with
  | nil => exact Option.some.inj hfound ▸ h
  | cons name way ih =>
    cases h with
    | file content => cases hfound
    | dir distinct named inner =>
      obtain ⟨next, hnext, hrest⟩ := Option.bind_eq_some_iff.mp hfound
      obtain ⟨before, after, rfl, -⟩ := List.lookup_eq_some_iff.mp hnext
      exact ih (inner (name, next) (by simp)) hrest

namespace Discovery

/-! ## Entries that are followed -/

/-- The files that are reached from one entry of a directory. -/
def reachedFrom (excludes : List String) (entry : String × FileTree) :
    List (List String × ByteArray) :=
  if isFollowed excludes entry.1 entry.2 then
    (reached excludes entry.2).map fun found => (entry.1 :: found.1, found.2)
  else []

/-- The files reached from some entries are those reached from each of them. -/
theorem walk_eq_flatMap (excludes : List String) (entries : List (String × FileTree)) :
    walk excludes entries = entries.flatMap (reachedFrom excludes) := by
  induction entries with
  | nil => rfl
  | cons entry rest ih =>
    obtain ⟨name, tree⟩ := entry
    rw [walk, ih, List.flatMap_cons]
    rfl

/-- The way to a file that is reached from an entry goes through the entry. -/
theorem exists_of_mem_reachedFrom {excludes : List String} {entry : String × FileTree}
    {found : List String × ByteArray} (h : found ∈ reachedFrom excludes entry) :
    isFollowed excludes entry.1 entry.2 ∧
      ∃ rest, (rest, found.2) ∈ reached excludes entry.2 ∧ found.1 = entry.1 :: rest := by
  rw [reachedFrom] at h
  split at h
  next hfollowed =>
    obtain ⟨⟨rest, content⟩, hreached, rfl⟩ := List.mem_map.mp h
    exact ⟨hfollowed, rest, hreached, rfl⟩
  · cases h

theorem enteredBelow_eq_flatMap (excludes : List String) (entries : List (String × FileTree)) :
    enteredBelow excludes entries = entries.flatMap fun entry =>
      if isFollowed excludes entry.1 entry.2 then
        (entered excludes entry.2).map (entry.1 :: ·)
      else [] := by
  induction entries with
  | nil => rfl
  | cons entry rest ih =>
    obtain ⟨name, tree⟩ := entry
    rw [enteredBelow, ih, List.flatMap_cons]

/-! ## Places of fact files -/

/-- The place of a fact file below the root: it stands there, under proper names, and if
it is not the root itself, its own name is that of a fact file. -/
structure Locates (tree : FileTree) (names : List String) (content : ByteArray) : Prop where
  stands : tree.get? names = some (.file content)
  named : ∀ name ∈ names, IsName name
  isFact : ∀ name, names.getLast? = some name → isFactName name

/-- Every file that is reached stands in the tree where it is reached. -/
theorem locates_of_mem_reached {excludes : List String} {tree : FileTree} (h : tree.WellFormed)
    {found : List String × ByteArray} (hfound : found ∈ reached excludes tree) :
    Locates tree found.1 found.2 := by
  induction h generalizing found with
  | file content =>
    rw [reached, List.mem_singleton] at hfound
    subst hfound
    exact ⟨rfl, by simp, by simp⟩
  | @dir entries distinct named inner ih =>
    rw [reached, walk_eq_flatMap] at hfound
    obtain ⟨⟨name, tree⟩, hentry, hmem⟩ := List.mem_flatMap.mp hfound
    obtain ⟨hfollowed, rest, hreached, hway⟩ := exists_of_mem_reachedFrom hmem
    have hrest := ih (name, tree) hentry hreached
    refine ⟨?_, ?_, ?_⟩
    · rw [hway, FileTree.get?, lookup_of_mem distinct hentry]
      exact hrest.stands
    · rw [hway, List.forall_mem_cons]
      exact ⟨named (name, tree) hentry, hrest.named⟩
    · intro last hlast
      rw [hway] at hlast
      cases rest with
      | nil =>
        -- the entry itself is the file, and it was followed for its name
        rw [← Option.some.inj hlast]
        have hfile : tree = .file found.2 := Option.some.inj hrest.stands
        rw [hfile] at hfollowed
        exact hfollowed
      | cons second rest =>
        rw [List.getLast?_cons_cons] at hlast
        exact hrest.isFact last hlast

/-- Every directory that is entered stands in the tree. -/
theorem get?_of_mem_entered {excludes : List String} {tree : FileTree} (h : tree.WellFormed)
    {way : List String} (hway : way ∈ entered excludes tree) :
    ∃ entries, tree.get? way = some (.dir entries) := by
  induction h generalizing way with
  | file content => cases hway
  | @dir entries distinct named inner ih =>
    rw [entered, List.mem_cons, enteredBelow_eq_flatMap] at hway
    rcases hway with rfl | hway
    · exact ⟨entries, rfl⟩
    · obtain ⟨⟨name, tree⟩, hentry, hmem⟩ := List.mem_flatMap.mp hway
      split at hmem
      · obtain ⟨rest, hrest, rfl⟩ := List.mem_map.mp hmem
        rw [FileTree.get?, lookup_of_mem distinct hentry]
        exact ih (name, tree) hentry hrest
      · cases hmem

/-- No way is reached twice. -/
theorem nodup_reached {excludes : List String} {tree : FileTree} (h : tree.WellFormed) :
    ((reached excludes tree).map Prod.fst).Nodup := by
  induction h with
  | file content => exact List.nodup_singleton _
  | @dir entries distinct named inner ih =>
    rw [reached, walk_eq_flatMap, List.map_flatMap, List.nodup_flatMap]
    constructor
    · intro entry hentry
      rw [reachedFrom]
      split
      · rw [List.map_map]
        have hcons := (ih entry hentry).map (List.cons_injective (a := entry.1))
        rwa [List.map_map] at hcons
      · exact List.nodup_nil
    · -- ways from different entries begin with different names
      refine (List.pairwise_map.mp distinct).imp fun {a b} hne way ha hb => hne ?_
      obtain ⟨found, hfound, rfl⟩ := List.mem_map.mp ha
      obtain ⟨found', hfound', hsame⟩ := List.mem_map.mp hb
      obtain ⟨-, rest, -, hway⟩ := exists_of_mem_reachedFrom hfound
      obtain ⟨-, rest', -, hway'⟩ := exists_of_mem_reachedFrom hfound'
      rw [hway, hway'] at hsame
      exact (List.cons.inj hsame).1.symm

/-! ## The order of paths -/

/-- Paths are ordered like lists of names, lexicographically. -/
theorem componentsLe_iff (as bs : List String) : Path.componentsLe as bs ↔ as ≤ bs := by
  rw [← not_lt]
  induction as generalizing bs with
  | nil => simp [Path.componentsLe]
  | cons a as ih =>
    cases bs with
    | nil => simp [Path.componentsLe]
    | cons b bs =>
      have hcons : b :: bs < a :: as ↔ b < a ∨ b = a ∧ bs < as := List.cons_lex_cons_iff
      rw [Path.componentsLe, hcons]
      by_cases h : a = b
      · simp [h, ih]
      · simp [h, Ne.symm h, lt_iff_le_and_ne]

/-- Of a sorted list of files, no way comes after a greater one. -/
theorem pairwise_sorted (found : List (List String × ByteArray)) :
    (sorted found).Pairwise fun a b => a.1 ≤ b.1 :=
  StableSort.pairwise_key_mergeSort (fun a b => componentsLe_iff a.1 b.1) found

/-- Sorted ways without repeats strictly increase. -/
theorem pairwise_lt_sorted {found : List (List String × ByteArray)}
    (h : (found.map Prod.fst).Nodup) : (sorted found).Pairwise fun a b => a.1 < b.1 := by
  have hperm : (sorted found).Perm found := List.mergeSort_perm _ _
  have hnodup : ((sorted found).map Prod.fst).Nodup := (hperm.map Prod.fst).nodup_iff.mpr h
  exact (pairwise_sorted _).imp₂ (fun a b hle hne => lt_of_le_of_ne hle hne)
    (List.pairwise_map.mp hnodup)

/-- The ways to the files below a directory strictly increase. -/
theorem pairwise_lt_sorted_walk {excludes : List String} {entries : List (String × FileTree)}
    (h : (FileTree.dir entries).WellFormed) :
    (sorted (walk excludes entries)).Pairwise fun a b => a.1 < b.1 :=
  pairwise_lt_sorted (nodup_reached h)

/-! ## Sources -/

/-- Every fact file that is found has its place below the root. -/
theorem exists_locates {root : String} {excludes : List String} {target : FileTree}
    (h : target.WellFormed) {source : Source} (hsource : source ∈ sources root excludes target) :
    ∃ names, source.path = Path.below root names ∧ Locates target names source.content := by
  cases target with
  | file content =>
    rw [sources] at hsource
    split at hsource
    · rw [List.mem_singleton.mp hsource]
      exact ⟨[], rfl, rfl, by simp, by simp⟩
    · cases hsource
  | dir entries =>
    obtain ⟨found, hfound, rfl⟩ := List.mem_map.mp hsource
    exact ⟨found.1, rfl, locates_of_mem_reached h (List.mem_mergeSort.mp hfound)⟩

/-- The paths of the fact files that are found strictly increase. -/
theorem pairwise_sources {root : String} {excludes : List String} {target : FileTree}
    (h : target.WellFormed) :
    (sources root excludes target).Pairwise fun a b =>
      Path.components a.path < Path.components b.path := by
  cases target with
  | file content =>
    rw [sources]
    split
    · exact List.pairwise_singleton _ _
    · exact .nil
  | dir entries =>
    rw [sources, List.pairwise_map]
    refine (pairwise_lt_sorted_walk h).imp_of_mem fun {a b} ha hb hlt => ?_
    have hnames := fun found (hfound : found ∈ sorted (walk excludes entries)) =>
      (locates_of_mem_reached h (List.mem_mergeSort.mp hfound)).named
    rw [Path.components_below (hnames a ha), Path.components_below (hnames b hb)]
    exact List.Lex.append_left _ hlt _

/-- What is found under a path stands there. -/
theorem find_of_mem_sources {ws : Workspace} {root : String} {excludes : List String}
    {target : FileTree} (h : target.WellFormed) (hroot : ws.find root = .ok target)
    {source : Source} (hsource : source ∈ sources root excludes target)
    (hpath : ReadFault.ofPath? source.path = none) :
    ws.find source.path = .ok (.file source.content) := by
  obtain ⟨names, hnames, hplace⟩ := exists_locates h hsource
  rw [hnames] at hpath ⊢
  exact Workspace.find_below hplace.named hroot hplace.stands hpath

/-- What is found under a path is what reading the path gives. -/
theorem load_of_mem_sources {ws : Workspace} {root : String} {excludes : List String}
    {target : FileTree} (h : target.WellFormed) (hroot : ws.find root = .ok target)
    {source : Source} (hsource : source ∈ sources root excludes target) :
    FactFile.load ws source.path = source.load := by
  cases hpath : ReadFault.ofPath? source.path with
  | some fault => simp [FactFile.load, Source.load, Source.text, Workspace.readText,
      Workspace.find, hpath]
  | none =>
    -- the path can be followed, so it leads to the content that was found
    have hfind := find_of_mem_sources h hroot hsource hpath
    simp [FactFile.load, Source.load, Source.text, Workspace.readText, hfind, hpath]

/-! ## Readable directories -/

/-- Every directory at or below the root can be opened under its path. -/
def AllReadable (root : String) (target : FileTree) : Prop :=
  ∀ way entries, target.get? way = some (.dir entries) →
    ReadFault.ofPath? (Path.below root way) = none

theorem allReadable_file (root : String) (content : ByteArray) :
    AllReadable root (.file content) := by
  intro way entries h
  cases way with
  | nil => cases h
  | cons name way => cases h

/-- A directory is readable throughout if it can be opened and its entries are. -/
theorem allReadable_dir {root : String} {entries : List (String × FileTree)}
    (hroot : ReadFault.ofPath? root = none)
    (h : ∀ entry ∈ entries, AllReadable (Path.join root entry.1) entry.2) :
    AllReadable root (.dir entries) := by
  intro way found hfound
  cases way with
  | nil => exact hroot
  | cons name way =>
    obtain ⟨inner, hinner, hrest⟩ := Option.bind_eq_some_iff.mp hfound
    obtain ⟨before, after, rfl, -⟩ := List.lookup_eq_some_iff.mp hinner
    exact h (name, inner) (by simp) way found hrest

/-- If every directory can be opened, discovery finds the fact files. -/
theorem discover_of_allReadable {root : String} {target : FileTree} (h : target.WellFormed)
    (hread : AllReadable root target) (excludes : List String) :
    discover root excludes target = .ok (sources root excludes target) := by
  have hnone : unreadable? root excludes target = none := by
    rw [unreadable?, List.findSome?_eq_none_iff]
    intro way hway
    obtain ⟨entries, hentries⟩ := get?_of_mem_entered h hway
    rw [hread way entries hentries, Option.map_none]
  rw [discover, hnone]

theorem gather_of_allReadable {ws : Workspace} {root : String} {target : FileTree}
    (h : target.WellFormed) (hroot : ws.find root = .ok target) (hread : AllReadable root target)
    (excludes : List String) :
    gather ws root excludes = .ok (sources root excludes target) := by
  rw [gather, hroot]
  exact discover_of_allReadable h hread excludes

end Discovery

end DeprecatedApi
