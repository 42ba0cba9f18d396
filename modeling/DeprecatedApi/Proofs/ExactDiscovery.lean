import DeprecatedApi.Proofs.ContentChange

/-!
# Exactness of discovery

Discovery finds the fact files below a root, all of them and nothing else, whatever the order
in which directories list their entries and in which the walk delivers what it finds. The way
to a fact file must not go through a directory that is passed over; all other names on the way,
that of the root and that of the file itself, play no part in this.

* `Discovery.IsFactPlace`: the places of the fact files that are to be found.
* `Discovery.CanEnter`: every directory that is not passed over can be opened.
* `Discovery.exists_gather_iff`: this is when discovery succeeds.
* `Discovery.mem_reached_iff`, `Discovery.mem_entered_iff`: the files and the directories that
  the walk comes to.
* `Discovery.mem_sources_iff`, `Discovery.sources_congr`: what is found, and what it depends on.
* `Discovery.gather_is_exact`: the result of discovery, and what it does not depend on.
-/

namespace DeprecatedApi

/-- An entry that is found by its name is one of the entries. -/
theorem mem_of_lookup {entries : List (String × FileTree)} {name : String} {tree : FileTree}
    (h : entries.lookup name = some tree) : (name, tree) ∈ entries := by
  obtain ⟨before, after, rfl, -⟩ := List.lookup_eq_some_iff.mp h
  simp

/-- The names on the way to something in a well-formed tree are proper names. -/
theorem FileTree.WellFormed.isName {tree found : FileTree} (h : tree.WellFormed)
    {way : List String} (hfound : tree.get? way = some found) : ∀ name ∈ way, IsName name := by
  induction way generalizing tree with
  | nil => simp
  | cons name way ih =>
    obtain ⟨entries, inner, rfl, hlookup, hinner⟩ := exists_lookup_of_get?_cons hfound
    cases h with
    | dir distinct named inside =>
      have hentry := mem_of_lookup hlookup
      exact List.forall_mem_cons.mpr ⟨named _ hentry, ih (inside _ hentry) hinner⟩

/-! ## Names -/

/-- The name of a fact file is something with the suffix behind it. -/
theorem isFactName_iff {name : String} :
    isFactName name ↔ ∃ stem, stem ≠ "" ∧ name = stem ++ ".facts.json" := by
  unfold isFactName
  rw [Bool.and_eq_true, List.isSuffixOf_iff_suffix, bne_iff_ne]
  constructor
  · rintro ⟨⟨stem, hstem⟩, hne⟩
    have hname : name = String.ofList stem ++ ".facts.json" := by
      apply String.toList_inj.mp
      rw [String.toList_append, String.toList_ofList]
      exact hstem.symm
    refine ⟨String.ofList stem, ?_, hname⟩
    intro hempty
    rw [hempty, String.empty_append] at hname
    exact hne hname
  · rintro ⟨stem, hstem, rfl⟩
    refine ⟨⟨stem.toList, String.toList_append.symm⟩, ?_⟩
    intro hsame
    have hlength := congrArg String.length hsame
    rw [String.length_append] at hlength
    have hzero : stem.length = 0 := by
      have hsuffix : factFileSuffix.length = (".facts.json" : String).length := rfl
      omega
    exact hstem (String.length_eq_zero_iff.mp hzero)

namespace Discovery

/-- Directories of four names are always passed over, and those of the given names. -/
theorem not_isExcluded_iff {excludes : List String} {name : String} :
    ¬ isExcluded excludes name ↔
      name ∉ excludes ∧ name ∉ [".git", "node_modules", ".gradle", ".idea"] := by
  unfold isExcluded
  rw [Bool.or_eq_true, List.contains_iff_mem, List.contains_iff_mem, not_or, and_comm]
  rfl

/-- What is not passed over under more names is not passed over under fewer. -/
theorem not_isExcluded_mono {excludes more : List String} (h : excludes ⊆ more) {name : String}
    (hname : ¬ isExcluded more name) : ¬ isExcluded excludes name := by
  have hnot := not_isExcluded_iff.mp hname
  exact not_isExcluded_iff.mpr ⟨fun hmem => hnot.1 (h hmem), hnot.2⟩

/-! ## Places -/

/-- The place of a fact file that is to be found below a directory: a file stands there, its
name is something before `.facts.json`, and no directory on the way to it is passed over. -/
structure IsFactPlace (excludes : List String) (tree : FileTree) (names : List String)
    (content : ByteArray) : Prop where
  stands : tree.get? names = some (.file content)
  named : ∃ stem, stem ≠ "" ∧ names.getLast? = some (stem ++ ".facts.json")
  notPassedOver : ∀ dir ∈ names.dropLast,
    dir ∉ excludes ∧ dir ∉ [".git", "node_modules", ".gradle", ".idea"]

/-- An entry on the way to a file is followed for its name: the file itself if this is the name
of a fact file, a directory unless directories of the name are passed over. -/
theorem isFollowed_iff {excludes : List String} {name : String} {tree : FileTree}
    {rest : List String} {content : ByteArray} (h : tree.get? rest = some (.file content)) :
    isFollowed excludes name tree ↔
      (rest = [] → isFactName name) ∧ (rest ≠ [] → ¬ isExcluded excludes name) := by
  cases tree with
  | file found =>
    cases rest with
    | nil => simp [isFollowed]
    | cons next rest => cases h
  | dir entries =>
    cases rest with
    | nil => cases h
    | cons next rest => simp [isFollowed]

section Steps

variable {excludes : List String} {entries : List (String × FileTree)}

/-- One step of the walk: what it comes to under a name is what it comes to in the entry of this
name. -/
theorem mem_walk_cons_iff (distinct : (entries.map Prod.fst).Nodup) {name : String}
    {rest : List String} {content : ByteArray} :
    (name :: rest, content) ∈ walk excludes entries ↔
      ∃ tree, entries.lookup name = some tree ∧ isFollowed excludes name tree ∧
        (rest, content) ∈ reached excludes tree := by
  rw [walk_eq_flatMap, List.mem_flatMap]
  constructor
  · rintro ⟨⟨name', tree⟩, hentry, hmem⟩
    obtain ⟨hfollowed, rest', hrest, hway⟩ := exists_of_mem_reachedFrom hmem
    obtain ⟨rfl, rfl⟩ := List.cons.inj hway
    exact ⟨tree, lookup_of_mem distinct hentry, hfollowed, hrest⟩
  · rintro ⟨tree, hlookup, hfollowed, hrest⟩
    refine ⟨(name, tree), mem_of_lookup hlookup, ?_⟩
    unfold reachedFrom
    rw [if_pos hfollowed]
    exact List.mem_map.mpr ⟨(rest, content), hrest, rfl⟩

theorem nil_not_mem_walk {content : ByteArray} : ([], content) ∉ walk excludes entries := by
  rw [walk_eq_flatMap, List.mem_flatMap]
  rintro ⟨entry, -, hmem⟩
  obtain ⟨-, rest, -, hway⟩ := exists_of_mem_reachedFrom hmem
  cases hway

/-- The directories that the walk enters under a name are those that it enters in the entry. -/
theorem mem_enteredBelow_cons_iff (distinct : (entries.map Prod.fst).Nodup) {name : String}
    {rest : List String} :
    name :: rest ∈ enteredBelow excludes entries ↔
      ∃ tree, entries.lookup name = some tree ∧ isFollowed excludes name tree ∧
        rest ∈ entered excludes tree := by
  rw [enteredBelow_eq_flatMap, List.mem_flatMap]
  constructor
  · rintro ⟨⟨name', tree⟩, hentry, hmem⟩
    split at hmem
    · rename_i hfollowed
      obtain ⟨rest', hrest, hway⟩ := List.mem_map.mp hmem
      obtain ⟨rfl, rfl⟩ := List.cons.inj hway
      exact ⟨tree, lookup_of_mem distinct hentry, hfollowed, hrest⟩
    · cases hmem
  · rintro ⟨tree, hlookup, hfollowed, hrest⟩
    refine ⟨(name, tree), mem_of_lookup hlookup, ?_⟩
    rw [if_pos hfollowed]
    exact List.mem_map.mpr ⟨rest, hrest, rfl⟩

end Steps

/-- **The files that the walk comes to** are those that stand in the tree under the name of a fact
file, behind directories that are not passed over. -/
theorem mem_reached_iff {excludes : List String} {tree : FileTree} (h : tree.WellFormed)
    {names : List String} {content : ByteArray} :
    (names, content) ∈ reached excludes tree ↔
      tree.get? names = some (.file content) ∧
        (∀ name, names.getLast? = some name → isFactName name) ∧
        ∀ dir ∈ names.dropLast, ¬ isExcluded excludes dir := by
  induction h generalizing names with
  | file found =>
    cases names with
    | nil =>
      constructor
      · intro hmem
        obtain ⟨-, rfl⟩ := Prod.mk.inj (List.mem_singleton.mp hmem)
        exact ⟨rfl, by simp, by simp⟩
      · rintro ⟨hstands, -, -⟩
        cases hstands
        exact List.mem_singleton_self _
    | cons name rest => simp [reached, FileTree.get?]
  | @dir entries distinct named inner ih =>
    cases names with
    | nil => simp [reached, FileTree.get?, nil_not_mem_walk]
    | cons name rest =>
      rw [reached, mem_walk_cons_iff distinct, FileTree.get?, Option.bind_eq_some_iff]
      constructor
      · rintro ⟨tree, hlookup, hfollowed, hrest⟩
        obtain ⟨hstands, hfact, hdirs⟩ := (ih _ (mem_of_lookup hlookup)).mp hrest
        rw [isFollowed_iff hstands] at hfollowed
        refine ⟨⟨tree, hlookup, hstands⟩, ?_⟩
        cases rest with
        | nil => simpa using hfollowed
        | cons next rest =>
          rw [List.getLast?_cons_cons, List.dropLast_cons_cons, List.forall_mem_cons]
          exact ⟨hfact, hfollowed.2 (List.cons_ne_nil _ _), hdirs⟩
      · rintro ⟨⟨tree, hlookup, hstands⟩, hfact, hdirs⟩
        refine ⟨tree, hlookup, ?_, ?_⟩
        · rw [isFollowed_iff hstands]
          cases rest with
          | nil => simpa using hfact
          | cons next rest =>
            rw [List.dropLast_cons_cons, List.forall_mem_cons] at hdirs
            simpa using hdirs.1
        · refine (ih _ (mem_of_lookup hlookup)).mpr ⟨hstands, ?_⟩
          cases rest with
          | nil => simp
          | cons next rest =>
            rw [List.getLast?_cons_cons] at hfact
            rw [List.dropLast_cons_cons, List.forall_mem_cons] at hdirs
            exact ⟨hfact, hdirs.2⟩

/-- **The directories that the walk enters** are all of the tree that are not passed over, nor
lie below one that is. -/
theorem mem_entered_iff {excludes : List String} {tree : FileTree} (h : tree.WellFormed)
    {way : List String} :
    way ∈ entered excludes tree ↔
      (∃ inner, tree.get? way = some (.dir inner)) ∧ ∀ name ∈ way, ¬ isExcluded excludes name := by
  induction h generalizing way with
  | file found =>
    cases way with
    | nil => simp [entered, FileTree.get?]
    | cons name rest => simp [entered, FileTree.get?]
  | @dir entries distinct named inner ih =>
    cases way with
    | nil => simp [entered, FileTree.get?]
    | cons name rest =>
      have hmem : name :: rest ∈ entered excludes (.dir entries)
          ↔ name :: rest ∈ enteredBelow excludes entries := by
        simp [entered]
      rw [hmem, mem_enteredBelow_cons_iff distinct, FileTree.get?, List.forall_mem_cons]
      constructor
      · rintro ⟨tree, hlookup, hfollowed, hrest⟩
        obtain ⟨⟨below, hdir⟩, hnames⟩ := (ih _ (mem_of_lookup hlookup)).mp hrest
        refine ⟨⟨below, Option.bind_eq_some_iff.mpr ⟨tree, hlookup, hdir⟩⟩, ?_, hnames⟩
        cases tree with
        | file content => cases hrest
        | dir listed => simpa [isFollowed] using hfollowed
      · rintro ⟨⟨below, hbelow⟩, hname, hnames⟩
        obtain ⟨tree, hlookup, hdir⟩ := Option.bind_eq_some_iff.mp hbelow
        refine ⟨tree, hlookup, ?_, (ih _ (mem_of_lookup hlookup)).mpr ⟨⟨below, hdir⟩, hnames⟩⟩
        cases tree with
        | file content =>
          cases rest with
          | nil => cases hdir
          | cons next rest => cases hdir
        | dir listed => simpa [isFollowed] using hname

/-- A fact file that is found below a directory on the way is found below the tree as well. -/
theorem IsFactPlace.append {excludes : List String} {tree inner : FileTree}
    {way rest : List String} {content : ByteArray} (h : IsFactPlace excludes inner rest content)
    (hinner : tree.get? way = some inner) (hway : ∀ name ∈ way, ¬ isExcluded excludes name) :
    IsFactPlace excludes tree (way ++ rest) content := by
  obtain ⟨stem, hstem, hlast⟩ := h.named
  have hne : rest ≠ [] := by
    rintro rfl
    cases hlast
  refine ⟨?_, ⟨stem, hstem, ?_⟩, ?_⟩
  · rw [FileTree.get?_append, hinner]
    exact h.stands
  · rw [List.getLast?_append, hlast]
    rfl
  · rw [List.dropLast_append_of_ne_nil hne]
    intro dir hdir
    rcases List.mem_append.mp hdir with hbefore | hafter
    · exact not_isExcluded_iff.mp (hway dir hbefore)
    · exact h.notPassedOver dir hafter

/-! ## Directories that can be opened -/

/-- Every directory that the walk is to enter can be opened under its path. -/
def CanEnter (root : String) (excludes : List String) (target : FileTree) : Prop :=
  ∀ way inner, target.get? way = some (.dir inner) → (∀ name ∈ way, ¬ isExcluded excludes name) →
    ReadFault.ofPath? (Path.below root way) = none

theorem CanEnter.mono {root : String} {excludes more : List String} {target : FileTree}
    (h : CanEnter root excludes target) (hmore : excludes ⊆ more) : CanEnter root more target := by
  intro way inner hdir hway
  exact h way inner hdir fun name hname => not_isExcluded_mono hmore (hway name hname)

theorem unreadable?_eq_none_iff {root : String} {excludes : List String} {target : FileTree}
    (h : target.WellFormed) :
    unreadable? root excludes target = none ↔ CanEnter root excludes target := by
  unfold unreadable?
  rw [List.findSome?_eq_none_iff]
  constructor
  · intro hnone way inner hdir hway
    simpa using hnone way ((mem_entered_iff h).mpr ⟨⟨inner, hdir⟩, hway⟩)
  · intro henter way hmem
    obtain ⟨⟨inner, hdir⟩, hway⟩ := (mem_entered_iff h).mp hmem
    rw [henter way inner hdir hway]
    rfl

/-- Discovery has a result exactly if it can open the directories that it is to enter. -/
theorem toOption_discover {root : String} {excludes : List String} {target : FileTree}
    (h : target.WellFormed) [Decidable (CanEnter root excludes target)] :
    (discover root excludes target).toOption
      = if CanEnter root excludes target then some (sources root excludes target) else none := by
  unfold discover
  by_cases henter : CanEnter root excludes target
  · rw [(unreadable?_eq_none_iff h).mpr henter, if_pos henter]
    rfl
  · rw [if_neg henter]
    cases hfault : unreadable? root excludes target with
    | none => exact absurd ((unreadable?_eq_none_iff h).mp hfault) henter
    | some fault => rfl

theorem gather_of_canEnter {ws : Workspace} {root : String} {excludes : List String}
    {target : FileTree} (h : target.WellFormed) (hroot : ws.find root = .ok target)
    (henter : CanEnter root excludes target) :
    gather ws root excludes = .ok (sources root excludes target) := by
  unfold gather discover
  rw [hroot]
  simp only [(unreadable?_eq_none_iff h).mpr henter]

theorem exists_gather_iff {ws : Workspace} {root : String} {excludes : List String}
    {target : FileTree} (h : target.WellFormed) (hroot : ws.find root = .ok target) :
    (∃ files, gather ws root excludes = .ok files) ↔ CanEnter root excludes target := by
  constructor
  · rintro ⟨files, hgather⟩
    rw [← unreadable?_eq_none_iff h]
    unfold gather discover at hgather
    rw [hroot] at hgather
    cases hfault : unreadable? root excludes target with
    | none => rfl
    | some fault =>
      simp only [hfault] at hgather
      cases hgather
  · intro henter
    exact ⟨_, gather_of_canEnter h hroot henter⟩

/-! ## What is found -/

section Sources

variable {root : String} {excludes : List String} {entries : List (String × FileTree)}

/-- The walk comes to the places of fact files. -/
theorem mem_walk_iff (h : (FileTree.dir entries).WellFormed) {names : List String}
    {content : ByteArray} :
    (names, content) ∈ walk excludes entries ↔
      IsFactPlace excludes (.dir entries) names content := by
  have hreached : (names, content) ∈ walk excludes entries ↔ _ := mem_reached_iff h
  rw [hreached]
  constructor
  · rintro ⟨hstands, hfact, hdirs⟩
    refine ⟨hstands, ?_, fun dir hdir => not_isExcluded_iff.mp (hdirs dir hdir)⟩
    -- the way is not empty, for a directory stands at its beginning
    cases hlast : names.getLast? with
    | none =>
      rw [List.getLast?_eq_none_iff.mp hlast] at hstands
      cases hstands
    | some name =>
      obtain ⟨stem, hstem, rfl⟩ := isFactName_iff.mp (hfact name hlast)
      exact ⟨stem, hstem, rfl⟩
  · rintro ⟨hstands, ⟨stem, hstem, hlast⟩, hdirs⟩
    refine ⟨hstands, ?_, fun dir hdir => not_isExcluded_iff.mpr (hdirs dir hdir)⟩
    intro name hname
    rw [hlast] at hname
    exact isFactName_iff.mpr ⟨stem, hstem, (Option.some.inj hname).symm⟩

/-- What is found below a directory is what stands at the places of fact files. -/
theorem mem_sources_iff (h : (FileTree.dir entries).WellFormed) {source : Source} :
    source ∈ sources root excludes (.dir entries) ↔
      ∃ names, source.path = Path.below root names ∧
        IsFactPlace excludes (.dir entries) names source.content := by
  rw [sources, List.mem_map]
  constructor
  · rintro ⟨⟨names, content⟩, hfound, rfl⟩
    exact ⟨names, rfl, (mem_walk_iff h).mp (List.mem_mergeSort.mp hfound)⟩
  · rintro ⟨names, hpath, hnames⟩
    refine ⟨(names, source.content), List.mem_mergeSort.mpr ((mem_walk_iff h).mpr hnames), ?_⟩
    rw [← hpath]

/-- Fewer places, fewer findings: if all places of fact files in one directory are such in
another, then what is found in the one is found in the other, in the same order. -/
theorem sublist_sources {excludes' : List String} {entries' : List (String × FileTree)}
    (h : (FileTree.dir entries).WellFormed) (h' : (FileTree.dir entries').WellFormed)
    (hplaces : ∀ names content, IsFactPlace excludes' (.dir entries') names content →
      IsFactPlace excludes (.dir entries) names content) :
    (sources root excludes' (.dir entries')).Sublist (sources root excludes (.dir entries)) := by
  have hirrefl : Std.Irrefl fun a b : Source => Path.components a.path < Path.components b.path :=
    ⟨fun a => lt_irrefl _⟩
  have hantisymm : Std.Antisymm fun a b : Source =>
      Path.components a.path < Path.components b.path :=
    ⟨fun a b hab hba => absurd (hab.trans hba) (lt_irrefl _)⟩
  have hsubset : sources root excludes' (.dir entries') ⊆ sources root excludes (.dir entries) := by
    intro source hsource
    obtain ⟨names, hpath, hplace⟩ := (mem_sources_iff h').mp hsource
    exact (mem_sources_iff h).mpr ⟨names, hpath, hplaces _ _ hplace⟩
  have hnodup : (sources root excludes' (.dir entries')).Nodup := (pairwise_sources h').nodup
  exact List.sublist_of_subperm_of_pairwise (List.subperm_of_subset hnodup hsubset)
    (pairwise_sources h') (pairwise_sources h)

/-- The places of the fact files are all that matters. -/
theorem sources_congr {excludes' : List String} {entries' : List (String × FileTree)}
    (h : (FileTree.dir entries).WellFormed) (h' : (FileTree.dir entries').WellFormed)
    (hplaces : ∀ names content, IsFactPlace excludes' (.dir entries') names content ↔
      IsFactPlace excludes (.dir entries) names content) :
    sources root excludes' (.dir entries') = sources root excludes (.dir entries) :=
  (sublist_sources h h' fun names content => (hplaces names content).mp).antisymm
    (sublist_sources h' h fun names content => (hplaces names content).mpr)

end Sources

/-! ## Order -/

/-- The order in which the walk delivers what it finds does not matter. -/
theorem sorted_eq_of_perm {found delivered : List (List String × ByteArray)}
    (h : (found.map Prod.fst).Nodup) (hperm : delivered.Perm found) :
    sorted delivered = sorted found := by
  have hnodup : (delivered.map Prod.fst).Nodup := (hperm.map Prod.fst).nodup_iff.mpr h
  have hsorted : (sorted delivered).Perm (sorted found) :=
    ((List.mergeSort_perm _ _).trans hperm).trans (List.mergeSort_perm _ _).symm
  refine hsorted.eq_of_pairwise ?_ (pairwise_lt_sorted hnodup) (pairwise_lt_sorted h)
  intro a b _ _ hab hba
  exact absurd (hab.trans hba) (lt_irrefl _)

end Discovery

namespace FileTree

/-- Two trees hold the same files and directories at the same places. The order in which their
directories list them may differ. -/
def HoldsSame (tree other : FileTree) : Prop :=
  ∀ way, (other.get? way).map content? = (tree.get? way).map content?

theorem map_content?_eq_file_iff {found : Option FileTree} {content : ByteArray} :
    found.map content? = some (some content) ↔ found = some (.file content) := by
  rcases found with _ | stored | entries
  · simp
  · simp [content?]
  · simp [content?]

theorem map_content?_eq_dir_iff {found : Option FileTree} :
    found.map content? = some none ↔ ∃ entries, found = some (.dir entries) := by
  rcases found with _ | stored | entries
  · simp
  · simp [content?]
  · simp [content?]

end FileTree

namespace Discovery

/-- A place of a fact file in one tree is such in another that holds the same there. -/
theorem IsFactPlace.congr {excludes : List String} {tree other : FileTree} {names : List String}
    {content : ByteArray} (h : IsFactPlace excludes tree names content)
    (hsame : (other.get? names).map FileTree.content? = (tree.get? names).map FileTree.content?) :
    IsFactPlace excludes other names content := by
  refine ⟨?_, h.named, h.notPassedOver⟩
  rw [← FileTree.map_content?_eq_file_iff, hsame, FileTree.map_content?_eq_file_iff]
  exact h.stands

/-- Directories that can be entered in one tree can be entered in another that has no others. -/
theorem CanEnter.congr {root : String} {excludes : List String} {tree other : FileTree}
    (h : CanEnter root excludes tree)
    (hsame : ∀ way, (other.get? way).map FileTree.content? = some none →
      (tree.get? way).map FileTree.content? = some none) : CanEnter root excludes other := by
  intro way inner hdir hway
  have hthere := hsame way (FileTree.map_content?_eq_dir_iff.mpr ⟨inner, hdir⟩)
  obtain ⟨inner', hdir'⟩ := FileTree.map_content?_eq_dir_iff.mp hthere
  exact h way inner' hdir' hway

/-- A name that no directory has changes nothing when it is excluded as well. -/
theorem isFactPlace_cons_iff {excludes : List String} {tree : FileTree} {name : String}
    (h : ∀ way inner, tree.get? (way ++ [name]) ≠ some (.dir inner)) {names : List String}
    {content : ByteArray} :
    IsFactPlace (name :: excludes) tree names content ↔
      IsFactPlace excludes tree names content := by
  constructor
  · rintro ⟨hstands, hnamed, hdirs⟩
    refine ⟨hstands, hnamed, fun dir hdir => ⟨?_, (hdirs dir hdir).2⟩⟩
    exact fun hmem => (hdirs dir hdir).1 (List.mem_cons_of_mem _ hmem)
  · rintro ⟨hstands, hnamed, hdirs⟩
    refine ⟨hstands, hnamed, fun dir hdir => ⟨?_, (hdirs dir hdir).2⟩⟩
    rw [List.mem_cons, not_or]
    refine ⟨?_, (hdirs dir hdir).1⟩
    -- what stands on the way to a file is a directory
    rintro rfl
    obtain ⟨before, after, hsplit⟩ := List.append_of_mem hdir
    have hne : names ≠ [] := by
      rintro rfl
      cases hdir
    rw [← List.dropLast_append_getLast hne, hsplit, List.append_assoc, List.cons_append,
      ← List.singleton_append, ← List.append_assoc, FileTree.get?_append] at hstands
    obtain ⟨found, hfound, hrest⟩ := Option.bind_eq_some_iff.mp hstands
    cases found with
    | dir inner => exact h before inner hfound
    | file stored =>
      cases after with
      | nil => cases hrest
      | cons next after => cases hrest

/-! ## Main result -/

/-- **Discovery is exact.** Take a directory, and names of directories to pass over. Discovery
succeeds exactly if every directory that is not passed over can be opened. Then it returns a list
of strictly increasing paths, which are those of the fact files below the directory that are not
behind a directory that is passed over. It does not depend on the order in which the walk delivers
them, nor on the order in which directories list their entries. A directory is never returned,
whatever its name, and one that is not passed over is searched. An excluded name that only the root
itself or files have changes nothing, and more excluded names only take files away. -/
theorem gather_is_exact {ws : Workspace} {root : String} {entries : List (String × FileTree)}
    {excludes : List String} (hwf : ws.root.WellFormed)
    (hroot : ws.find root = .ok (.dir entries)) :
    ((∃ files, gather ws root excludes = .ok files) ↔ CanEnter root excludes (.dir entries)) ∧
    (CanEnter root excludes (.dir entries) → ∃ files, gather ws root excludes = .ok files ∧
      (files.Pairwise fun a b => Path.components a.path < Path.components b.path) ∧
      (∀ path content, ⟨path, content⟩ ∈ files ↔ ∃ names, path = Path.below root names ∧
        IsFactPlace excludes (.dir entries) names content) ∧
      (∀ delivered, delivered.Perm (walk excludes entries) →
        ((sorted delivered).map fun found => (⟨Path.below root found.1, found.2⟩ : Source))
          = files) ∧
      (∀ (other : Workspace) (listed : List (String × FileTree)), other.root.WellFormed →
        other.find root = .ok (.dir listed) → FileTree.HoldsSame (.dir entries) (.dir listed) →
        gather other root excludes = .ok files) ∧
      (∀ way inner, FileTree.get? way (.dir entries) = some (.dir inner) →
        Path.below root way ∉ files.map Source.path ∧
        ((∀ name ∈ way, ¬ isExcluded excludes name) → ∀ rest content,
          IsFactPlace excludes (.dir inner) rest content →
          ⟨Path.below root (way ++ rest), content⟩ ∈ files)) ∧
      (∀ name, (∀ way inner, FileTree.get? (way ++ [name]) (.dir entries) ≠ some (.dir inner)) →
        gather ws root (name :: excludes) = .ok files) ∧
      ∀ more, ∃ fewer, gather ws root (excludes ++ more) = .ok fewer ∧ fewer.Sublist files) := by
  have htarget : (FileTree.dir entries).WellFormed := hwf.get? (Workspace.get?_of_find hroot)
  refine ⟨exists_gather_iff htarget hroot, fun henter => ?_⟩
  refine ⟨_, gather_of_canEnter htarget hroot henter, pairwise_sources htarget,
    fun path content => mem_sources_iff htarget, ?_, ?_, ?_, ?_, ?_⟩
  · intro delivered hperm
    rw [sorted_eq_of_perm (nodup_reached htarget) hperm]
    rfl
  · intro other listed hother hlisted hsame
    have htarget' : (FileTree.dir listed).WellFormed :=
      hother.get? (Workspace.get?_of_find hlisted)
    have henter' : CanEnter root excludes (.dir listed) :=
      henter.congr fun way hdir => (hsame way).symm.trans hdir
    rw [gather_of_canEnter htarget' hlisted henter', sources_congr htarget htarget' ?_]
    intro names content
    exact ⟨fun hplace => hplace.congr (hsame names).symm, fun hplace => hplace.congr (hsame names)⟩
  · intro way inner hdir
    constructor
    · intro hmem
      obtain ⟨source, hsource, hpath⟩ := List.mem_map.mp hmem
      obtain ⟨names, hnames, hplace⟩ := (mem_sources_iff htarget).mp hsource
      -- the paths are the same only if the ways are, and a file is no directory
      have hsame : names = way := Path.below_inj (htarget.isName hplace.stands)
        (htarget.isName hdir) (hnames.symm.trans hpath)
      have hstands := hplace.stands
      rw [hsame, hdir] at hstands
      cases hstands
    · intro hway rest content hplace
      exact (mem_sources_iff htarget).mpr ⟨way ++ rest, rfl, hplace.append hdir hway⟩
  · intro name hname
    rw [gather_of_canEnter htarget hroot (henter.mono (List.subset_cons_self _ _)),
      sources_congr htarget htarget fun names content => isFactPlace_cons_iff hname]
  · intro more
    refine ⟨_, gather_of_canEnter htarget hroot (henter.mono (List.subset_append_left _ _)),
      sublist_sources htarget htarget ?_⟩
    rintro names content ⟨hstands, hnamed, hdirs⟩
    refine ⟨hstands, hnamed, fun dir hdir => ⟨fun hmem => ?_, (hdirs dir hdir).2⟩⟩
    exact (hdirs dir hdir).1 (List.mem_append_left _ hmem)

/-- A directory with fact files beside and behind directories of many names. -/
def clashTarget : FileTree :=
  .dir [("z.facts.json", .file ⟨#[]⟩), ("d.facts.json", .dir [("y.facts.json", .file ⟨#[]⟩)]),
    ("a-b", .dir [("x.facts.json", .file ⟨#[]⟩)]), ("a", .dir [(".facts.json", .file ⟨#[]⟩)]),
    ("out", .dir [("x.facts.json", .file ⟨#[]⟩)])]

/-- This directory under a name that is excluded below. -/
def clashWorkspace : Workspace :=
  ⟨.dir [("out", clashTarget)], []⟩

/-- The name of the directory, of a directory in it, and of a file in it. -/
def clashExcludes : List String :=
  ["out", "x.facts.json"]

theorem clashWorkspace_wellFormed : clashWorkspace.root.WellFormed := by
  have hone : ∀ name content, IsName name → (FileTree.dir [(name, .file content)]).WellFormed := by
    intro name content hname
    exact .dir (by simp) (by simpa using hname) (by simpa using FileTree.WellFormed.file content)
  have htarget : clashTarget.WellFormed := by
    refine .dir (by decide) (by decide) ?_
    simp only [List.forall_mem_cons, List.not_mem_nil, IsEmpty.forall_iff, implies_true, and_true]
    exact ⟨.file _, hone _ _ (by decide), hone _ _ (by decide), hone _ _ (by decide),
      hone _ _ (by decide)⟩
  exact .dir (by decide) (by decide) (by simpa using htarget)

theorem clashTarget_canEnter : CanEnter "out" clashExcludes clashTarget := by
  have hone : ∀ root name content, ReadFault.ofPath? root = none →
      AllReadable root (.dir [(name, .file content)]) := by
    intro root name content hroot
    exact allReadable_dir hroot (by simpa using allReadable_file _ content)
  have hread : AllReadable "out" clashTarget := by
    refine allReadable_dir (by decide) ?_
    simp only [List.forall_mem_cons, List.not_mem_nil, IsEmpty.forall_iff, implies_true, and_true]
    exact ⟨allReadable_file _ _, hone _ _ _ (by decide), hone _ _ _ (by decide),
      hone _ _ _ (by decide), hone _ _ _ (by decide)⟩
  exact fun way inner hdir _ => hread way inner hdir

/-- The excluded name of the root and that of a file do no harm; a directory that is named like a
fact file is searched and not returned; one of an excluded name is not searched. -/
theorem gather_clashWorkspace :
    ∃ files, gather clashWorkspace "out" clashExcludes = .ok files ∧
      ⟨"out/a-b/x.facts.json", ⟨#[]⟩⟩ ∈ files ∧
      ⟨"out/d.facts.json/y.facts.json", ⟨#[]⟩⟩ ∈ files ∧
      "out/d.facts.json" ∉ files.map Source.path ∧
      ⟨"out/out/x.facts.json", ⟨#[]⟩⟩ ∉ files := by
  obtain ⟨files, hgather, -, hmem, -, -, hdirs, -, -⟩ :=
    (gather_is_exact clashWorkspace_wellFormed
      (rfl : clashWorkspace.find "out" = .ok clashTarget)).2 clashTarget_canEnter
  refine ⟨files, hgather, ?_, ?_, ?_, ?_⟩
  · exact (hmem _ _).mpr ⟨["a-b", "x.facts.json"], rfl, rfl, ⟨"x", by decide, rfl⟩, by decide⟩
  · exact (hmem _ _).mpr
      ⟨["d.facts.json", "y.facts.json"], rfl, rfl, ⟨"y", by decide, rfl⟩, by decide⟩
  · exact (hdirs ["d.facts.json"] _ rfl).1
  · intro hfound
    obtain ⟨names, hpath, hplace⟩ := (hmem _ _).mp hfound
    have htarget : clashTarget.WellFormed :=
      clashWorkspace_wellFormed.get? (rfl : clashWorkspace.root.get? ["out"] = some clashTarget)
    have hsame : Path.below "out" names = Path.below "out" ["out", "x.facts.json"] := hpath.symm
    have hnames := Path.below_inj (htarget.isName hplace.stands) (by decide) hsame
    have hout := hplace.notPassedOver "out"
    rw [hnames] at hout
    exact (hout (by decide)).1 (by decide)

end Discovery

end DeprecatedApi
