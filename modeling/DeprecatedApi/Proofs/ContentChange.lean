import DeprecatedApi.Proofs.Discovery

/-!
# Other content in a file

Writing other content to a file that exists changes what is read there, and nothing
else: every path still leads to what it led to before, and discovery finds the same fact
files in the same order, one of them with its new content.

* `FileTree.content?`: what there is to read of a tree itself.
* `FileTree.map_content?_get?_insert`: what stands in a tree after the change.
* `Workspace.put_of_find`: writing to a file that exists makes no directories.
* `Workspace.outline`: what there is to read at a path.
* `Workspace.withContent`: a workspace with other content in one file.
* `Workspace.readText_withContent`: texts at other places are the same as before.
* `Discovery.sources_insert`: the fact files that are found after the change.
-/

namespace DeprecatedApi

/-- The value of a name is changed in its place. -/
theorem Assoc.set_append_cons {α : Type} {name : String} {before : List (String × α)}
    (h : ∀ entry ∈ before, entry.1 ≠ name) (old new : α) (after : List (String × α)) :
    set name new (before ++ (name, old) :: after) = before ++ (name, new) :: after := by
  induction before with
  | nil => simp [set]
  | cons entry before ih =>
    rw [List.forall_mem_cons] at h
    rw [List.cons_append, set, if_neg h.1, ih h.2]
    rfl

/-- An entry that is found by its name, and no entry of that name before it. -/
theorem exists_split_of_lookup {α : Type} {name : String} {value : α}
    {entries : List (String × α)} (h : entries.lookup name = some value) :
    ∃ before after, entries = before ++ (name, value) :: after ∧
      ∀ entry ∈ before, entry.1 ≠ name := by
  obtain ⟨before, after, rfl, hbefore⟩ := List.lookup_eq_some_iff.mp h
  exact ⟨before, after, rfl, fun entry hentry => Ne.symm (by simpa using hbefore entry hentry)⟩

namespace FileTree

/-! ## Trees -/

/-- The content of a file; a directory has none. -/
def content? : FileTree → Option ByteArray
  | .file content => some content
  | .dir _ => none

/-- What stands at the end of a way stands below an entry of a directory. -/
theorem exists_lookup_of_get?_cons {tree found : FileTree} {name : String} {way : List String}
    (h : tree.get? (name :: way) = some found) :
    ∃ entries inner, tree = .dir entries ∧ entries.lookup name = some inner ∧
      inner.get? way = some found := by
  cases tree with
  | file content => cases h
  | dir entries =>
    obtain ⟨inner, hinner, hrest⟩ := Option.bind_eq_some_iff.mp h
    exact ⟨entries, inner, rfl, hinner, hrest⟩

/-- A change below an entry changes the entry. -/
theorem insert_cons_of_lookup {entries : List (String × FileTree)} {name : String}
    {inner : FileTree} (h : entries.lookup name = some inner) (way : List String)
    (new : FileTree) :
    (FileTree.dir entries).insert (name :: way) new
      = .dir (Assoc.set name (inner.insert way new) entries) := by
  rw [insert, FileTree.entries, h, Option.getD_some]

/-- On the way to a change stands what stood there, changed further on. -/
theorem get?_insert_append {tree found : FileTree} {way : List String}
    (h : tree.get? way = some found) (rest : List String) (new : FileTree) :
    (tree.insert (way ++ rest) new).get? way = some (found.insert rest new) := by
  induction way generalizing tree with
  | nil => exact congrArg some (congrArg (insert rest · new) (Option.some.inj h))
  | cons name way ih =>
    obtain ⟨entries, inner, rfl, hlookup, hinner⟩ := exists_lookup_of_get?_cons h
    rw [List.cons_append, insert_cons_of_lookup hlookup, get?, Assoc.lookup_set_self,
      Option.bind_some]
    exact ih hinner

/-- Where other content was written to a file, it stands; elsewhere there is to read what
there was before. -/
theorem map_content?_get?_insert {tree : FileTree} {place : List String} {old : ByteArray}
    (h : tree.get? place = some (.file old)) (new : ByteArray) (way : List String) :
    ((tree.insert place (.file new)).get? way).map content?
      = if way = place then some (some new) else (tree.get? way).map content? := by
  induction place generalizing tree way with
  | nil =>
    -- nothing lies below a file, neither before nor after
    rw [Option.some.inj h]
    cases way with
    | nil => rfl
    | cons name way => rfl
  | cons name place ih =>
    obtain ⟨entries, inner, rfl, hlookup, hinner⟩ := exists_lookup_of_get?_cons h
    rw [insert_cons_of_lookup hlookup]
    cases way with
    | nil => rfl
    | cons first way =>
      -- the way enters the changed entry, or one that is as it was
      by_cases hfirst : first = name
      · subst hfirst
        rw [get?, Assoc.lookup_set_self, get?, hlookup, Option.bind_some, Option.bind_some,
          ih hinner way]
        simp
      · rw [get?, Assoc.lookup_set_of_ne hfirst, get?, if_neg (by simp [hfirst])]

/-- A tree stays a file or a directory when other content is written to a file in it. -/
theorem isSome_content?_insert {tree : FileTree} {place : List String} {old : ByteArray}
    (h : tree.get? place = some (.file old)) (new : ByteArray) :
    (tree.insert place (.file new)).content?.isSome = tree.content?.isSome := by
  cases place with
  | nil =>
    rw [Option.some.inj h]
    rfl
  | cons name place =>
    obtain ⟨entries, inner, rfl, hlookup, -⟩ := exists_lookup_of_get?_cons h
    rw [insert_cons_of_lookup hlookup]
    rfl

/-- Writing to a place where something stands keeps a tree well formed. -/
theorem WellFormed.insert {tree found new : FileTree} (h : tree.WellFormed)
    (hnew : new.WellFormed) {place : List String} (hfound : tree.get? place = some found) :
    (tree.insert place new).WellFormed := by
  induction place generalizing tree with
  | nil => exact hnew
  | cons name place ih =>
    obtain ⟨entries, inner, rfl, hlookup, hinner⟩ := exists_lookup_of_get?_cons hfound
    rw [insert_cons_of_lookup hlookup]
    obtain ⟨before, after, rfl, hbefore⟩ := exists_split_of_lookup hlookup
    rw [Assoc.set_append_cons hbefore]
    cases h with
    | dir distinct named inside =>
      -- the names stay, and only the entry on the way has another tree
      simp only [List.forall_mem_append, List.forall_mem_cons] at named inside
      refine .dir ?_ ?_ ?_
      · simpa using distinct
      · simp only [List.forall_mem_append, List.forall_mem_cons]
        exact named
      · simp only [List.forall_mem_append, List.forall_mem_cons]
        exact ⟨inside.1, ih inside.2.1 hinner, inside.2.2⟩

end FileTree

namespace Workspace

/-! ## Paths -/

/-- What there is to read at a path: the content of a file, or a directory. -/
def outline (ws : Workspace) (path : String) : Except ReadFault (Option ByteArray) :=
  (ws.find path).map FileTree.content?

theorem isPresent_eq_outline (ws : Workspace) (path : String) :
    ws.isPresent path = (ws.outline path).isOk := by
  rw [isPresent, outline]
  cases ws.find path with
  | error fault => rfl
  | ok tree => rfl

theorem isDir_eq_outline (ws : Workspace) (path : String) :
    ws.isDir path = ((ws.outline path).toOption == some none) := by
  rw [isDir, outline]
  rcases ws.find path with fault | content | entries
  · rfl
  · rfl
  · rfl

theorem readText_eq_outline (ws : Workspace) (path : String) :
    ws.readText path = (ws.outline path).bind fun
      | none => .error .isDirectory
      | some content => decode content := by
  rw [readText, outline]
  rcases ws.find path with fault | content | entries
  · rfl
  · rfl
  · rfl

/-- A workspace with other content in the file at a place. -/
def withContent (ws : Workspace) (place : List String) (new : ByteArray) : Workspace :=
  { ws with root := ws.root.insert place (.file new) }

/-- Going through places that exist makes no directories. -/
theorem foldl_makeDir_of_walk {tree found : FileTree} {way segments : List String}
    (h : walk tree way segments = .ok found) :
    segments.foldl (fun (tree, way) segment => (FileTree.makeDir way tree, follow way segment))
      (tree, way) = (tree, segments.foldl follow way) := by
  induction segments generalizing way with
  | nil => rfl
  | cons segment rest ih =>
    obtain ⟨⟨entries, hdir⟩, -, hrest⟩ := walk_cons_eq_ok_iff.mp h
    -- a directory stands there, or walking would have stopped
    have hmade : tree.makeDir way = tree := by simp [FileTree.makeDir, hdir]
    simp only [List.foldl_cons, hmade]
    exact ih hrest

/-- What is put at a path where something stands takes its place. -/
theorem put_of_find {ws : Workspace} {path : String} {found : FileTree}
    (h : ws.find path = .ok found) (new : ByteArray) :
    ws.put path (.file new) = ws.withContent (ws.locate path) new := by
  rw [put, approach, foldl_makeDir_of_walk (find_eq_ok_iff.mp h).2]
  rfl

/-- Only what there is to read on the way matters to walking. -/
theorem map_content?_walk_nil (tree : FileTree) (way : List String) :
    (walk tree way []).map FileTree.content?
      = match (tree.get? way).map FileTree.content? with
        | none => .error .notFound
        | some found => .ok found := by
  rw [walk]
  cases tree.get? way with
  | none => rfl
  | some found => rfl

theorem map_content?_walk_cons (tree : FileTree) (way : List String) (segment : String)
    (rest : List String) :
    (walk tree way (segment :: rest)).map FileTree.content?
      = match (tree.get? way).map FileTree.content? with
        | none => .error .notFound
        | some (some _) => .error .notDirectory
        | some none =>
          match ReadFault.ofName? segment with
          | some fault => .error fault
          | none => (walk tree (follow way segment) rest).map FileTree.content? := by
  rw [walk]
  rcases tree.get? way with _ | content | entries
  · rfl
  · rfl
  · cases ReadFault.ofName? segment with
    | none => rfl
    | some fault => rfl

/-- Walking leads to the new content where it was written, and elsewhere to what there
was before. -/
theorem map_content?_walk_insert {tree : FileTree} {place : List String} {old : ByteArray}
    (h : tree.get? place = some (.file old)) (new : ByteArray) (way segments : List String) :
    (walk (tree.insert place (.file new)) way segments).map FileTree.content?
      = if (walk tree way segments).isOk ∧ segments.foldl follow way = place then .ok (some new)
        else (walk tree way segments).map FileTree.content? := by
  induction segments generalizing way with
  | nil =>
    rw [map_content?_walk_nil, map_content?_walk_nil, FileTree.map_content?_get?_insert h]
    by_cases hplace : way = place
    · have hok : (walk tree place []).isOk := by
        rw [walk_nil_eq_ok_iff.mpr h]
        rfl
      simp [hplace, hok]
    · simp [hplace]
  | cons segment rest ih =>
    rw [map_content?_walk_cons, map_content?_walk_cons, FileTree.map_content?_get?_insert h]
    by_cases hplace : way = place
    · -- a file has nothing below it, whatever its content
      subst hplace
      simp [walk, h, FileTree.content?, Except.isOk, Except.toBool]
    · rw [if_neg hplace]
      rcases hget : tree.get? way with _ | content | entries
      · simp [walk, hget, Except.isOk, Except.toBool]
      · simp [walk, hget, FileTree.content?, Except.isOk, Except.toBool]
      · cases hname : ReadFault.ofName? segment with
        | some fault => simp [walk, hget, hname, FileTree.content?, Except.isOk, Except.toBool]
        | none => simp [walk, hget, hname, FileTree.content?, ih]

section Change

variable {ws : Workspace} {place : List String} {old : ByteArray}

/-- At a path that leads to the place of the change there is the new content to read, at
all other paths what there was before. -/
theorem outline_withContent (h : ws.root.get? place = some (.file old)) (new : ByteArray)
    (path : String) :
    (ws.withContent place new).outline path
      = if ws.isPresent path ∧ ws.locate path = place then .ok (some new)
        else ws.outline path := by
  have hpresent : ws.isPresent path = (ws.find path).isOk := by
    rw [isPresent]
    cases ws.find path with
    | error fault => rfl
    | ok tree => rfl
  rw [hpresent, outline, outline, find, find]
  cases hfault : ReadFault.ofPath? path with
  | some fault => simp [Except.isOk, Except.toBool]
  | none => exact map_content?_walk_insert h new (ws.start path) (Path.segments path)

/-- The content is all that there was to read at the place of the change. -/
theorem outline_of_locate (h : ws.root.get? place = some (.file old)) {path : String}
    (hpresent : ws.isPresent path) (hplace : ws.locate path = place) :
    ws.outline path = .ok (some old) := by
  rw [isPresent] at hpresent
  split at hpresent
  next found hfound =>
    have hsame := get?_of_find hfound
    rw [hplace, h] at hsame
    rw [outline, hfound, ← Option.some.inj hsame]
    rfl
  · cases hpresent

theorem isPresent_withContent (h : ws.root.get? place = some (.file old)) (new : ByteArray)
    (path : String) :
    (ws.withContent place new).isPresent path
      = ws.isPresent path := by
  rw [isPresent_eq_outline, outline_withContent h]
  split
  next hthere =>
    rw [isPresent_eq_outline, outline_of_locate h hthere.1 hthere.2]
    rfl
  · exact (isPresent_eq_outline ws path).symm

theorem isDir_withContent (h : ws.root.get? place = some (.file old)) (new : ByteArray)
    (path : String) :
    (ws.withContent place new).isDir path
      = ws.isDir path := by
  rw [isDir_eq_outline, outline_withContent h]
  split
  next hthere =>
    rw [isDir_eq_outline, outline_of_locate h hthere.1 hthere.2]
    rfl
  · exact (isDir_eq_outline ws path).symm

/-- The text at a path that does not lead to the place of the change is as before. -/
theorem readText_withContent (h : ws.root.get? place = some (.file old)) (new : ByteArray)
    {path : String} (hother : ws.isPresent path → ws.locate path ≠ place) :
    (ws.withContent place new).readText path
      = ws.readText path := by
  rw [readText_eq_outline, readText_eq_outline, outline_withContent h,
    if_neg fun hthere => hother hthere.1 hthere.2]

/-- A tree around the place of the change is found with the change in it. -/
theorem find_withContent {path : String} {target : FileTree} (hfind : ws.find path = .ok target)
    {names : List String} (h : target.get? names = some (.file old)) (new : ByteArray) :
    (ws.withContent (ws.locate path ++ names) new).find path
      = .ok (target.insert names (.file new)) := by
  have hplace : ws.root.get? (ws.locate path ++ names) = some (.file old) := by
    rw [FileTree.get?_append, get?_of_find hfind]
    exact h
  -- something is found as before; the tree tells what it is
  have hpresent : ws.isPresent path := by simp [isPresent, hfind]
  rw [← isPresent_withContent hplace new path, isPresent] at hpresent
  split at hpresent
  next found hfound =>
    have hthere := get?_of_find hfound
    have hchanged := FileTree.get?_insert_append (get?_of_find hfind) names (.file new)
    have hsame : some found = some (target.insert names (.file new)) := hthere.symm.trans hchanged
    rw [hfound, Option.some.inj hsame]
  · cases hpresent

end Change

end Workspace

namespace Discovery

/-! ## Discovery -/

/-- Whether an entry is followed depends on its name and on whether it is a file. -/
theorem isFollowed_congr (excludes : List String) (name : String) {tree tree' : FileTree}
    (h : tree'.content?.isSome = tree.content?.isSome) :
    isFollowed excludes name tree' = isFollowed excludes name tree := by
  cases tree with
  | file content =>
    cases tree' with
    | file content' => rfl
    | dir entries' => cases h
  | dir entries =>
    cases tree' with
    | file content' => cases h
    | dir entries' => rfl

/-- A found file, with other content if it stands at the given place. -/
def changeAt (place : List String) (new : ByteArray) (found : List String × ByteArray) :
    List String × ByteArray :=
  (found.1, if found.1 = place then new else found.2)

/-- Files below entries of other names are not at the place of a change. -/
theorem map_changeAt_flatMap {excludes : List String} {entries : List (String × FileTree)}
    {name : String} (h : ∀ entry ∈ entries, entry.1 ≠ name) {place : List String}
    {new : ByteArray} :
    (entries.flatMap (reachedFrom excludes)).map (changeAt (name :: place) new)
      = entries.flatMap (reachedFrom excludes) := by
  refine (List.map_congr_left fun found hfound => ?_).trans (List.map_id _)
  obtain ⟨entry, hentry, hmem⟩ := List.mem_flatMap.mp hfound
  obtain ⟨-, rest, -, hway⟩ := exists_of_mem_reachedFrom hmem
  have hne : found.1 ≠ name :: place := by
    rw [hway]
    exact fun heq => h entry hentry (List.cons.inj heq).1
  rw [changeAt, if_neg hne, id]

/-- After a change of content the same files are reached. -/
theorem reached_insert (excludes : List String) {tree : FileTree} (h : tree.WellFormed)
    {place : List String} {old : ByteArray} (hplace : tree.get? place = some (.file old))
    (new : ByteArray) :
    reached excludes (tree.insert place (.file new))
      = (reached excludes tree).map (changeAt place new) := by
  induction place generalizing tree with
  | nil =>
    rw [Option.some.inj hplace]
    rfl
  | cons name place ih =>
    obtain ⟨entries, inner, rfl, hlookup, hinner⟩ := FileTree.exists_lookup_of_get?_cons hplace
    rw [FileTree.insert_cons_of_lookup hlookup]
    obtain ⟨before, after, rfl, hbefore⟩ := exists_split_of_lookup hlookup
    rw [Assoc.set_append_cons hbefore]
    cases h with
    | dir distinct named inside =>
      have hrest := ih (inside (name, inner) (by simp)) hinner
      have hfollowed := isFollowed_congr excludes name (FileTree.isSome_content?_insert hinner new)
      have hhere : reachedFrom excludes (name, inner.insert place (.file new))
          = (reachedFrom excludes (name, inner)).map (changeAt (name :: place) new) := by
        rw [reachedFrom, reachedFrom, hfollowed]
        split
        · rw [hrest, List.map_map, List.map_map]
          exact List.map_congr_left fun found _ => by simp [changeAt]
        · rfl
      rw [List.map_append, List.map_cons, List.nodup_append, List.nodup_cons] at distinct
      have hafter : ∀ entry ∈ after, entry.1 ≠ name := fun entry hentry heq =>
        distinct.2.1.1 (List.mem_map.mpr ⟨entry, hentry, heq⟩)
      simp only [reached, walk_eq_flatMap, List.flatMap_append, List.flatMap_cons, List.map_append]
      rw [hhere, map_changeAt_flatMap hbefore, map_changeAt_flatMap hafter]

/-- Sorting fact files looks at the ways to them only. -/
theorem sorted_map_changeAt (place : List String) (new : ByteArray)
    (found : List (List String × ByteArray)) :
    sorted (found.map (changeAt place new)) = (sorted found).map (changeAt place new) := by
  rw [sorted, sorted, List.map_mergeSort]
  exact fun a _ b _ => rfl

/-- After a change of content the same fact files are found in the same order. -/
theorem sources_insert (root : String) (excludes : List String) {target : FileTree}
    (h : target.WellFormed) {names : List String} {old : ByteArray}
    (hplace : target.get? names = some (.file old)) (hnames : ∀ name ∈ names, IsName name)
    (new : ByteArray) :
    sources root excludes (target.insert names (.file new))
      = (sources root excludes target).map fun source =>
        if source.path = Path.below root names then ⟨source.path, new⟩ else source := by
  cases names with
  | nil =>
    rw [Option.some.inj hplace]
    simp only [FileTree.insert, sources, Path.below]
    split
    · simp
    · rfl
  | cons name names =>
    have hreached := reached_insert excludes h hplace new
    obtain ⟨entries, inner, rfl, hlookup, -⟩ := FileTree.exists_lookup_of_get?_cons hplace
    rw [FileTree.insert_cons_of_lookup hlookup] at hreached ⊢
    simp only [reached] at hreached
    rw [sources, hreached, sorted_map_changeAt, sources, List.map_map, List.map_map]
    refine List.map_congr_left fun found hfound => ?_
    have hplaced := locates_of_mem_reached h (List.mem_mergeSort.mp hfound)
    -- different ways are different paths
    have hsame : found.1 = name :: names
        ↔ Path.below root found.1 = Path.below root (name :: names) :=
      ⟨fun heq => by rw [heq], fun heq => Path.below_inj hplaced.named hnames heq⟩
    simp only [Function.comp, changeAt, ← hsame]
    split
    · rfl
    · rfl

/-- A change of content leaves the directories readable. -/
theorem allReadable_insert {root : String} {target : FileTree} (h : AllReadable root target)
    {names : List String} {old : ByteArray} (hplace : target.get? names = some (.file old))
    (new : ByteArray) : AllReadable root (target.insert names (.file new)) := by
  intro way entries hdir
  have hsame := FileTree.map_content?_get?_insert hplace new way
  rw [hdir] at hsame
  split at hsame
  · -- at the place itself there is a file
    cases hsame
  · obtain ⟨tree, hget, hcontent⟩ := Option.map_eq_some_iff.mp hsame.symm
    cases tree with
    | file content => cases hcontent
    | dir entries' => exact h way entries' hget

end Discovery

end DeprecatedApi
