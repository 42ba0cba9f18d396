import DeprecatedApi.Proofs.ExactDiscovery

/-!
# Changes to files that are no fact files

Files other than fact files may come, go, or get other content. Then every path that does not
lead to one of them leads to what it led to before, and discovery finds the same fact files.

* `Workspace.FilesChange`: two workspaces that differ in some files.
* `Workspace.FilesChange.toOption_outline`: what there is to read at other paths.
* `Path.fileName?_of_find`: a path to a file ends in the name of the file.
* `Workspace.FilesChange.toOption_discover`: what discovery finds.
-/

namespace DeprecatedApi

/-- Some files of a workspace change, none of them a fact file. Each of them may be there before
the change, after it, both or neither, and with any content. -/
structure Workspace.FilesChange (changed : List String → Prop) (root : String)
    (ws ws' : Workspace) : Prop where
  wellFormed : ws.root.WellFormed
  wellFormed' : ws'.root.WellFormed
  cwd : ws'.cwd = ws.cwd
  /-- At all other places there is the same, a file with its content or a directory. -/
  others : ∀ way, ¬ changed way →
    (ws'.root.get? way).map FileTree.content? = (ws.root.get? way).map FileTree.content?
  /-- What changes is no directory, neither before nor after. -/
  files : ∀ way, changed way → (ws.root.get? way).map FileTree.content? ≠ some none ∧
    (ws'.root.get? way).map FileTree.content? ≠ some none
  noFacts : ∀ way name, changed way → way.getLast? = some name → ¬ isFactName name
  /-- If the root itself changes, then it is a file that is there before and after. -/
  root : changed (ws.locate root) → ws.isPresent root ∧ ws'.isPresent root

/-! ## Paths to files -/

/-- Only a name leads from a directory to a file. -/
theorem Workspace.follow_to_file {tree : FileTree} {way : List String} {segment : String}
    {entries : List (String × FileTree)} {content : ByteArray}
    (hdir : tree.get? way = some (.dir entries))
    (hfile : tree.get? (follow way segment) = some (.file content)) :
    segment ≠ "" ∧ segment ≠ "." ∧ segment ≠ ".." := by
  unfold follow at hfile
  by_cases hhere : segment = "" ∨ segment = "."
  · rw [if_pos hhere, hdir] at hfile
    cases hfile
  rw [if_neg hhere] at hfile
  by_cases habove : segment = ".."
  · rw [if_pos habove] at hfile
    -- a directory does not lie below a file
    rcases List.eq_nil_or_concat way with rfl | ⟨before, name, rfl⟩
    · rw [List.dropLast_nil, hdir] at hfile
      cases hfile
    · rw [List.concat_eq_append, List.dropLast_concat] at hfile
      rw [List.concat_eq_append, FileTree.get?_append, hfile] at hdir
      cases hdir
  · exact ⟨fun h => hhere (.inl h), fun h => hhere (.inr h), habove⟩

/-- A path to a file ends in the name of the file. -/
theorem Path.fileName?_of_find {ws : Workspace} {path : String} {content : ByteArray}
    (h : ws.find path = .ok (.file content)) :
    ∃ name, Path.fileName? path = some name ∧ (ws.locate path).getLast? = some name := by
  obtain ⟨-, hwalk⟩ := Workspace.find_eq_ok_iff.mp h
  have hne : Path.segments path ≠ [] := by
    unfold segments
    simpa using splitSlash_ne_nil path.toList
  obtain ⟨init, last, hsplit⟩ : ∃ init last, Path.segments path = init ++ [last] :=
    ⟨_, _, (List.dropLast_append_getLast hne).symm⟩
  rw [hsplit, Workspace.walk_append_eq_ok_iff, Workspace.walk_cons_eq_ok_iff,
    Workspace.walk_nil_eq_ok_iff] at hwalk
  obtain ⟨-, ⟨entries, hdir⟩, -, hfile⟩ := hwalk
  obtain ⟨hempty, hhere, habove⟩ := Workspace.follow_to_file hdir hfile
  refine ⟨last, ?_, ?_⟩
  · unfold fileName? components
    rw [hsplit, List.filter_append]
    simp [hempty, hhere, habove]
  · unfold Workspace.locate
    rw [hsplit, List.foldl_append]
    simp [Workspace.follow, hempty, hhere, habove]

namespace Workspace

/-! ## Reading -/

theorem isPresent_eq_isSome (ws : Workspace) (path : String) :
    ws.isPresent path = (ws.outline path).toOption.isSome := by
  rw [isPresent_eq_outline]
  cases ws.outline path with
  | error fault => rfl
  | ok found => rfl

theorem toOption_readText_eq (ws : Workspace) (path : String) :
    (ws.readText path).toOption = (ws.outline path).toOption.bind fun found =>
      found.bind fun content => (decode content).toOption := by
  rw [readText_eq_outline]
  rcases ws.outline path with fault | _ | content
  · rfl
  · rfl
  · rfl

theorem isDir_of_not_dir {ws : Workspace} {path : String}
    (h : (ws.root.get? (ws.locate path)).map FileTree.content? ≠ some none) :
    ws.isDir path = false := by
  unfold isDir
  rcases hfind : ws.find path with fault | content | entries
  · rfl
  · rfl
  · rw [get?_of_find hfind] at h
    exact absurd rfl h

end Workspace

namespace Workspace.FilesChange

variable {changed : List String → Prop} {root : String} {ws ws' : Workspace}

theorem start_eq (h : FilesChange changed root ws ws') (path : String) :
    ws'.start path = ws.start path := by
  unfold start
  rw [h.cwd]

/-- Paths lead to the places that they led to. -/
theorem locate_eq (h : FilesChange changed root ws ws') (path : String) :
    ws'.locate path = ws.locate path := by
  unfold locate
  rw [h.start_eq]

/-- Walking that does not end at a changed file leads to what it led to before, if anywhere. -/
theorem toOption_walk (h : FilesChange changed root ws ws') {way segments : List String}
    (hplace : ¬ changed (segments.foldl follow way)) :
    ((walk ws'.root way segments).map FileTree.content?).toOption
      = ((walk ws.root way segments).map FileTree.content?).toOption := by
  induction segments generalizing way with
  | nil => rw [map_content?_walk_nil, map_content?_walk_nil, h.others way hplace]
  | cons segment rest ih =>
    rw [map_content?_walk_cons, map_content?_walk_cons]
    by_cases hway : changed way
    · -- there is no way on, neither before nor after
      obtain ⟨hbefore, hafter⟩ := h.files way hway
      rcases hget : (ws.root.get? way).map FileTree.content? with _ | _ | content
      · rcases hget' : (ws'.root.get? way).map FileTree.content? with _ | _ | content'
        · rfl
        · exact absurd hget' hafter
        · rfl
      · exact absurd hget hbefore
      · rcases hget' : (ws'.root.get? way).map FileTree.content? with _ | _ | content'
        · rfl
        · exact absurd hget' hafter
        · rfl
    · rw [h.others way hway]
      rcases (ws.root.get? way).map FileTree.content? with _ | _ | content
      · rfl
      · cases ReadFault.ofName? segment with
        | some fault => rfl
        | none => exact ih hplace
      · rfl

/-- At a path that does not lead to a changed file there is to read what there was before. -/
theorem toOption_outline (h : FilesChange changed root ws ws') {path : String}
    (hplace : ¬ changed (ws.locate path)) :
    (ws'.outline path).toOption = (ws.outline path).toOption := by
  unfold outline find
  rw [h.start_eq]
  cases ReadFault.ofPath? path with
  | some fault => rfl
  | none => exact h.toOption_walk hplace

theorem toOption_readText (h : FilesChange changed root ws ws') {path : String}
    (hplace : ¬ changed (ws.locate path)) :
    (ws'.readText path).toOption = (ws.readText path).toOption := by
  rw [toOption_readText_eq, toOption_readText_eq, h.toOption_outline hplace]

theorem isPresent_eq (h : FilesChange changed root ws ws') {path : String}
    (hplace : ¬ changed (ws.locate path)) : ws'.isPresent path = ws.isPresent path := by
  rw [isPresent_eq_isSome, isPresent_eq_isSome, h.toOption_outline hplace]

/-- Directories are where they were. -/
theorem isDir_eq (h : FilesChange changed root ws ws') (path : String) :
    ws'.isDir path = ws.isDir path := by
  by_cases hplace : changed (ws.locate path)
  · -- no directory stands at the place of a changed file
    obtain ⟨hbefore, hafter⟩ := h.files _ hplace
    rw [← h.locate_eq] at hafter
    rw [isDir_of_not_dir hbefore, isDir_of_not_dir hafter]
  · rw [isDir_eq_outline, isDir_eq_outline, h.toOption_outline hplace]

/-- The root is there after the change exactly if it was there before. -/
theorem isPresent_root (h : FilesChange changed root ws ws') :
    ws'.isPresent root = ws.isPresent root := by
  by_cases hplace : changed (ws.locate root)
  · obtain ⟨hbefore, hafter⟩ := h.root hplace
    rw [hbefore, hafter]
  · exact h.isPresent_eq hplace

/-! ## Discovery -/

variable {entries entries' : List (String × FileTree)} {excludes : List String}

/-- Below a directory, there is the same at all places that do not change. -/
theorem map_content?_get?_below (h : FilesChange changed root ws ws')
    (hroot : ws.find root = .ok (.dir entries)) (hroot' : ws'.find root = .ok (.dir entries'))
    {names : List String} (hplace : ¬ changed (ws.locate root ++ names)) :
    (FileTree.get? names (.dir entries')).map FileTree.content?
      = (FileTree.get? names (.dir entries)).map FileTree.content? := by
  have hsame := h.others _ hplace
  have hthere' := get?_of_find hroot'
  rw [h.locate_eq] at hthere'
  rw [FileTree.get?_append, FileTree.get?_append, get?_of_find hroot, hthere'] at hsame
  exact hsame

/-- A fact file does not change. -/
theorem not_changed_of_isFactPlace (h : FilesChange changed root ws ws') {tree : FileTree}
    {names : List String} {content : ByteArray}
    (hplace : Discovery.IsFactPlace excludes tree names content) (way : List String) :
    ¬ changed (way ++ names) := by
  intro hchanged
  obtain ⟨stem, hstem, hlast⟩ := hplace.named
  refine h.noFacts (way ++ names) (stem ++ ".facts.json") hchanged ?_
    (isFactName_iff.mpr ⟨stem, hstem, rfl⟩)
  rw [List.getLast?_append, hlast]
  rfl

/-- Below a directory, discovery finds the same fact files as before. -/
theorem toOption_discover_dir (h : FilesChange changed root ws ws')
    (hroot : ws.find root = .ok (.dir entries)) (hroot' : ws'.find root = .ok (.dir entries')) :
    (Discovery.discover root excludes (.dir entries')).toOption
      = (Discovery.discover root excludes (.dir entries)).toOption := by
  classical
  have hwf : (FileTree.dir entries).WellFormed := h.wellFormed.get? (get?_of_find hroot)
  have hwf' : (FileTree.dir entries').WellFormed := h.wellFormed'.get? (get?_of_find hroot')
  have hsources : Discovery.sources root excludes (.dir entries')
      = Discovery.sources root excludes (.dir entries) := by
    refine Discovery.sources_congr hwf hwf' fun names content => ⟨?_, ?_⟩
    · intro hplace
      exact hplace.congr
        (h.map_content?_get?_below hroot hroot' (h.not_changed_of_isFactPlace hplace _)).symm
    · intro hplace
      exact hplace.congr
        (h.map_content?_get?_below hroot hroot' (h.not_changed_of_isFactPlace hplace _))
  -- what changes is no directory, so the directories are the same
  have hdirs : ∀ way, (FileTree.get? way (.dir entries')).map FileTree.content? = some none ↔
      (FileTree.get? way (.dir entries)).map FileTree.content? = some none := by
    intro way
    by_cases hplace : changed (ws.locate root ++ way)
    · have hnone := h.files _ hplace
      have hthere' := get?_of_find hroot'
      rw [h.locate_eq] at hthere'
      rw [FileTree.get?_append, FileTree.get?_append, get?_of_find hroot, hthere'] at hnone
      exact ⟨fun hdir => absurd hdir hnone.2, fun hdir => absurd hdir hnone.1⟩
    · rw [h.map_content?_get?_below hroot hroot' hplace]
  have henter : Discovery.CanEnter root excludes (.dir entries')
      ↔ Discovery.CanEnter root excludes (.dir entries) :=
    ⟨fun henter => henter.congr fun way => (hdirs way).mpr,
      fun henter => henter.congr fun way => (hdirs way).mp⟩
  rw [Discovery.toOption_discover hwf, Discovery.toOption_discover hwf', hsources]
  simp only [henter]

/-- **Discovery finds the same fact files as before.** -/
theorem toOption_discover (h : FilesChange changed root ws ws') {target target' : FileTree}
    (hroot : ws.find root = .ok target) (hroot' : ws'.find root = .ok target') :
    (Discovery.discover root excludes target').toOption
      = (Discovery.discover root excludes target).toOption := by
  have hdir := h.isDir_eq root
  unfold isDir at hdir
  rw [hroot, hroot'] at hdir
  cases target with
  | dir entries =>
    cases target' with
    | dir entries' => exact h.toOption_discover_dir hroot hroot'
    | file content' => cases hdir
  | file content =>
    cases target' with
    | dir entries' => cases hdir
    | file content' =>
      by_cases hplace : changed (ws.locate root)
      · -- the root is a file, but no fact file
        obtain ⟨name, hname, hlast⟩ := Path.fileName?_of_find hroot
        have hfact : isFactFile root = false := by
          unfold isFactFile
          rw [hname]
          simpa using h.noFacts _ name hplace hlast
        simp [Discovery.discover, Discovery.unreadable?, Discovery.entered, Discovery.sources,
          hfact]
      · have houtline := h.toOption_outline hplace
        unfold outline at houtline
        rw [hroot, hroot'] at houtline
        cases houtline
        rfl

end Workspace.FilesChange

end DeprecatedApi
