import DeprecatedApi.Workspace
import Mathlib.Data.List.Basic

/-!
# Where paths lead

A path leads to a place in the tree of files, given by the names on the way. Below a
place, each further name leads one step further.

* `IsName`: what a file or a directory can be called.
* `Path.components_below`: the components of a path below another one.
* `Workspace.locate`: the place that a path leads to.
* `Workspace.find_below`: what stands below a found place.
-/

namespace DeprecatedApi

/-- What a file or a directory can be called. -/
structure IsName (name : String) : Prop where
  nonempty : name ≠ ""
  notHere : name ≠ "."
  notAbove : name ≠ ".."
  noSlash : '/' ∉ name.toList
  short : ReadFault.ofName? name = none

instance (name : String) : Decidable (IsName name) :=
  decidable_of_iff (name ≠ "" ∧ name ≠ "." ∧ name ≠ ".." ∧ '/' ∉ name.toList ∧
      ReadFault.ofName? name = none)
    ⟨fun ⟨hne, hhere, habove, hslash, hshort⟩ => ⟨hne, hhere, habove, hslash, hshort⟩,
      fun h => ⟨h.nonempty, h.notHere, h.notAbove, h.noSlash, h.short⟩⟩

/-- What stands at the end of a way is what stands at the end of its second part, seen
from the end of its first part. -/
theorem FileTree.get?_append (tree : FileTree) (way rest : List String) :
    tree.get? (way ++ rest) = (tree.get? way).bind (get? rest) := by
  induction way generalizing tree with
  | nil => rfl
  | cons name way ih =>
    cases tree with
    | file content => rfl
    | dir entries =>
      rw [List.cons_append, get?, get?, Option.bind_assoc]
      exact congrArg _ (funext fun tree => ih tree)

namespace Path

/-! ## Segments -/

theorem splitSlash_ne_nil (cs : List Char) : splitSlash cs ≠ [] := by
  cases cs with
  | nil => simp [splitSlash]
  | cons c cs =>
    rw [splitSlash]
    split
    · simp
    · split <;> simp

theorem splitSlash_append_slash (as bs : List Char) :
    splitSlash (as ++ '/' :: bs) = splitSlash as ++ splitSlash bs := by
  induction as with
  | nil => simp [splitSlash]
  | cons a as ih =>
    rw [List.cons_append, splitSlash, splitSlash, ih]
    by_cases ha : a = '/'
    · simp [ha]
    · obtain ⟨segment, later, hsplit⟩ := List.exists_cons_of_ne_nil (splitSlash_ne_nil as)
      simp [ha, hsplit]

theorem splitSlash_of_noSlash {cs : List Char} (h : '/' ∉ cs) : splitSlash cs = [cs] := by
  induction cs with
  | nil => rfl
  | cons c cs ih =>
    rw [List.mem_cons, not_or] at h
    rw [splitSlash, if_neg (Ne.symm h.1), ih h.2]

/-- A name below a path is one more segment, in the place of an empty last one. -/
theorem segments_join {name : String} (h : '/' ∉ name.toList) (base : String) :
    ∃ init, segments (join base name) = init ++ [name] ∧
      (segments base = init ∨ segments base = init ++ [""]) := by
  have hname : splitSlash name.toList = [name.toList] := splitSlash_of_noSlash h
  have habsolute : ¬ isAbsolute name := by
    intro habs
    rw [isAbsolute, beq_iff_eq] at habs
    exact h (List.mem_of_head? habs)
  rw [join, if_neg habsolute]
  by_cases hempty : base = ""
  · -- nothing stands before the name
    subst hempty
    refine ⟨[], ?_, .inr rfl⟩
    simp [segments, hname]
  · by_cases hslash : base.toList.getLast? = some '/'
    · -- the base ends in a slash already
      obtain ⟨init, hinit⟩ := List.getLast?_eq_some_iff.mp hslash
      refine ⟨(splitSlash init).map String.ofList, ?_, .inr ?_⟩
      · rw [if_pos (by simp [hslash]), segments, String.toList_append, hinit, List.append_assoc,
          List.singleton_append, splitSlash_append_slash, hname]
        simp
      · rw [segments, hinit, splitSlash_append_slash]
        simp [splitSlash]
    · -- a slash is written between base and name
      refine ⟨segments base, ?_, .inl rfl⟩
      rw [if_neg (by simp [hempty, hslash]), segments, String.toList_append, String.toList_append]
      show (splitSlash (base.toList ++ ['/'] ++ name.toList)).map String.ofList = _
      rw [List.append_assoc, List.singleton_append, splitSlash_append_slash, hname]
      simp [segments]

/-! ## Components -/

theorem components_join {name : String} (h : IsName name) (base : String) :
    components (join base name) = components base ++ [name] := by
  obtain ⟨init, hjoin, hbase⟩ := segments_join h.noSlash base
  have hkept : [name].filter (fun segment => segment != "" && segment != ".") = [name] := by
    simp [h.nonempty, h.notHere]
  rw [components, components, hjoin, List.filter_append, hkept]
  rcases hbase with hbase | hbase
  · rw [hbase]
  · simp [hbase]

/-- The components of a path below another one are those of the other one and the names. -/
theorem components_below {names : List String} (h : ∀ name ∈ names, IsName name)
    (base : String) : components (below base names) = components base ++ names := by
  induction names generalizing base with
  | nil => simp [below]
  | cons name names ih =>
    rw [List.forall_mem_cons] at h
    have hstep : below base (name :: names) = below (join base name) names := rfl
    rw [hstep, ih h.2, components_join h.1, List.append_assoc, List.singleton_append]

/-- Different names lead to different paths. -/
theorem below_inj {names others : List String} (h : ∀ name ∈ names, IsName name)
    (h' : ∀ name ∈ others, IsName name) {base : String}
    (heq : below base names = below base others) : names = others := by
  have hcomponents := congrArg components heq
  rw [components_below h, components_below h'] at hcomponents
  exact List.append_cancel_left hcomponents

end Path

/-! ## Paths that can be followed -/

/-- A name below a path is written after it. -/
theorem Path.exists_join_eq_append {name : String} (h : '/' ∉ name.toList) (base : String) :
    ∃ rest, Path.join base name = base ++ rest := by
  have habsolute : ¬ isAbsolute name := by
    intro habs
    rw [isAbsolute, beq_iff_eq] at habs
    exact h (List.mem_of_head? habs)
  rw [join, if_neg habsolute]
  split
  · exact ⟨name, rfl⟩
  · exact ⟨"/" ++ name, String.append_assoc⟩

theorem ReadFault.ofPath?_eq_none_iff {path : String} :
    ofPath? path = none ↔
      '\x00' ∉ path.toList ∧ path ≠ "" ∧ path.utf8ByteSize ≤ maxPathSize := by
  rw [ofPath?]
  by_cases hnul : '\x00' ∈ path.toList
  · simp [hnul]
  · by_cases hempty : path = ""
    · simp [hempty]
    · simp [hnul, hempty]

/-- What a path begins with can be followed if the path can. -/
theorem ReadFault.ofPath?_of_append {base rest : String} (hne : base ≠ "")
    (h : ofPath? (base ++ rest) = none) : ofPath? base = none := by
  rw [ofPath?_eq_none_iff, String.toList_append, String.utf8ByteSize_append] at h
  rw [ofPath?_eq_none_iff]
  refine ⟨fun hmem => h.1 (List.mem_append_left _ hmem), hne, ?_⟩
  exact Nat.le_trans (Nat.le_add_right _ _) h.2.2

theorem Path.join_ne_empty {name : String} (h : IsName name) (base : String) :
    join base name ≠ "" := by
  intro heq
  have hcomponents := components_join h base
  rw [heq] at hcomponents
  have hempty : components "" = [] := by decide
  simp [hempty] at hcomponents

/-- The beginning of a path below another one can be followed if the path can. -/
theorem ReadFault.ofPath?_of_below {names : List String} (h : ∀ name ∈ names, IsName name)
    {base : String} (hne : base ≠ "") (hbelow : ofPath? (Path.below base names) = none) :
    ofPath? base = none := by
  induction names generalizing base with
  | nil => exact hbelow
  | cons name names ih =>
    rw [List.forall_mem_cons] at h
    have hjoin : ofPath? (Path.join base name) = none :=
      ih h.2 (Path.join_ne_empty h.1 base) hbelow
    obtain ⟨rest, hrest⟩ := Path.exists_join_eq_append h.1.noSlash base
    rw [hrest] at hjoin
    exact ofPath?_of_append hne hjoin

namespace Workspace

/-! ## Walking -/

theorem walk_nil_eq_ok_iff {tree found : FileTree} {way : List String} :
    walk tree way [] = .ok found ↔ tree.get? way = some found := by
  rw [walk]
  cases tree.get? way with
  | none => simp
  | some t => simp

theorem walk_cons_eq_ok_iff {tree found : FileTree} {way rest : List String} {segment : String} :
    walk tree way (segment :: rest) = .ok found ↔
      (∃ entries, tree.get? way = some (.dir entries)) ∧ ReadFault.ofName? segment = none ∧
        walk tree (follow way segment) rest = .ok found := by
  rw [walk]
  cases tree.get? way with
  | none => simp
  | some t =>
    cases t with
    | file content => simp
    | dir entries =>
      cases ReadFault.ofName? segment with
      | none => simp
      | some fault => simp

/-- What is found by walking stands at the place the segments lead to. -/
theorem get?_of_walk {tree found : FileTree} {way segments : List String}
    (h : walk tree way segments = .ok found) :
    tree.get? (segments.foldl follow way) = some found := by
  induction segments generalizing way with
  | nil => exact walk_nil_eq_ok_iff.mp h
  | cons segment rest ih => exact ih (walk_cons_eq_ok_iff.mp h).2.2

/-- Walking on: first some segments, then some more. -/
theorem walk_append_eq_ok_iff {tree found : FileTree} {way xs ys : List String} :
    walk tree way (xs ++ ys) = .ok found ↔
      (∃ place, walk tree way xs = .ok place) ∧
        walk tree (xs.foldl follow way) ys = .ok found := by
  induction xs generalizing way with
  | nil =>
    refine ⟨fun h => ⟨?_, h⟩, fun h => h.2⟩
    cases ys with
    | nil => exact ⟨found, h⟩
    | cons segment rest =>
      -- a place from which one can go on exists
      obtain ⟨⟨entries, hget⟩, -, -⟩ := walk_cons_eq_ok_iff.mp h
      exact ⟨_, walk_nil_eq_ok_iff.mpr hget⟩
  | cons segment rest ih =>
    rw [List.cons_append, walk_cons_eq_ok_iff, ih, List.foldl_cons]
    constructor
    · rintro ⟨hdir, hname, ⟨place, hplace⟩, hfound⟩
      exact ⟨⟨place, walk_cons_eq_ok_iff.mpr ⟨hdir, hname, hplace⟩⟩, hfound⟩
    · rintro ⟨⟨place, hplace⟩, hfound⟩
      obtain ⟨hdir, hname, hrest⟩ := walk_cons_eq_ok_iff.mp hplace
      exact ⟨hdir, hname, ⟨place, hrest⟩, hfound⟩

/-! ## Places of paths -/

/-- The place that a path leads to, whether or not something stands there. -/
def locate (ws : Workspace) (path : String) : List String :=
  (Path.segments path).foldl follow (ws.start path)

theorem find_eq_ok_iff {ws : Workspace} {path : String} {found : FileTree} :
    ws.find path = .ok found ↔ ReadFault.ofPath? path = none ∧
      walk ws.root (ws.start path) (Path.segments path) = .ok found := by
  rw [find]
  cases ReadFault.ofPath? path with
  | none => simp
  | some fault => simp

theorem get?_of_find {ws : Workspace} {path : String} {found : FileTree}
    (h : ws.find path = .ok found) : ws.root.get? (ws.locate path) = some found :=
  get?_of_walk (find_eq_ok_iff.mp h).2

theorem start_append {ws : Workspace} {base rest : String} (h : base ≠ "") :
    ws.start (base ++ rest) = ws.start base := by
  have hne : base.toList ≠ [] := fun hnil => h (String.toList_eq_nil_iff.mp hnil)
  rw [start, start, Path.isAbsolute, Path.isAbsolute, String.toList_append,
    List.head?_append_of_ne_nil _ hne]

theorem follow_of_isName {name : String} (h : IsName name) (way : List String) :
    follow way name = way ++ [name] := by
  simp [follow, h.nonempty, h.notHere, h.notAbove]

/-- A name below a path leads one step further. -/
theorem locate_join {ws : Workspace} {base name : String} (hb : base ≠ "") (hn : IsName name) :
    ws.locate (Path.join base name) = ws.locate base ++ [name] := by
  obtain ⟨rest, hrest⟩ := Path.exists_join_eq_append hn.noSlash base
  obtain ⟨init, hjoin, hbase⟩ := Path.segments_join hn.noSlash base
  have hinit : (Path.segments base).foldl follow (ws.start base)
      = init.foldl follow (ws.start base) := by
    rcases hbase with hbase | hbase
    · rw [hbase]
    · rw [hbase, List.foldl_append]
      rfl
  rw [locate, locate, hjoin, hinit, hrest, start_append hb, List.foldl_append]
  exact follow_of_isName hn _

/-- The names below a path lead further, one after the other. -/
theorem locate_below {ws : Workspace} {names : List String} (h : ∀ name ∈ names, IsName name)
    {base : String} (hb : base ≠ "") :
    ws.locate (Path.below base names) = ws.locate base ++ names := by
  induction names generalizing base with
  | nil => exact (List.append_nil _).symm
  | cons name names ih =>
    rw [List.forall_mem_cons] at h
    have hstep := ih h.2 (Path.join_ne_empty h.1 base)
    rw [locate_join hb h.1, List.append_assoc, List.singleton_append] at hstep
    exact hstep

/-- What stands at a name below a found directory is found there. -/
theorem find_join {ws : Workspace} {base name : String} {entries : List (String × FileTree)}
    {found : FileTree} (hbase : ws.find base = .ok (.dir entries)) (hn : IsName name)
    (hfound : entries.lookup name = some found)
    (hpath : ReadFault.ofPath? (Path.join base name) = none) :
    ws.find (Path.join base name) = .ok found := by
  obtain ⟨hbasePath, hwalk⟩ := find_eq_ok_iff.mp hbase
  have hb : base ≠ "" := (ReadFault.ofPath?_eq_none_iff.mp hbasePath).2.1
  obtain ⟨rest, hrest⟩ := Path.exists_join_eq_append hn.noSlash base
  obtain ⟨init, hjoin, hsegments⟩ := Path.segments_join hn.noSlash base
  -- an empty last segment of `base` leads nowhere
  have hinit : walk ws.root (ws.start base) init = .ok (.dir entries) := by
    rcases hsegments with hsegments | hsegments
    · rwa [hsegments] at hwalk
    · rw [hsegments, walk_append_eq_ok_iff] at hwalk
      obtain ⟨⟨place, hplace⟩, hlast⟩ := hwalk
      have hsame := walk_nil_eq_ok_iff.mp (walk_cons_eq_ok_iff.mp hlast).2.2
      have hthere : ws.root.get? (init.foldl follow (ws.start base)) = some (.dir entries) := hsame
      rw [get?_of_walk hplace] at hthere
      rw [hplace, Option.some.inj hthere]
  have hdir := get?_of_walk hinit
  refine find_eq_ok_iff.mpr ⟨hpath, ?_⟩
  rw [hjoin, hrest, start_append hb, walk_append_eq_ok_iff]
  refine ⟨⟨_, hinit⟩, walk_cons_eq_ok_iff.mpr ⟨⟨entries, hdir⟩, hn.short, ?_⟩⟩
  rw [walk_nil_eq_ok_iff, follow_of_isName hn, FileTree.get?_append, hdir]
  simp [FileTree.get?, hfound]

/-- What stands below a found place is found there. -/
theorem find_below {ws : Workspace} {names : List String} (h : ∀ name ∈ names, IsName name)
    {base : String} {tree found : FileTree} (hbase : ws.find base = .ok tree)
    (hfound : tree.get? names = some found)
    (hpath : ReadFault.ofPath? (Path.below base names) = none) :
    ws.find (Path.below base names) = .ok found := by
  induction names generalizing base tree with
  | nil => rw [← Option.some.inj hfound]; exact hbase
  | cons name names ih =>
    rw [List.forall_mem_cons] at h
    cases tree with
    | file content => cases hfound
    | dir entries =>
      obtain ⟨inner, hinner, hrest⟩ := Option.bind_eq_some_iff.mp hfound
      have hjoin : ReadFault.ofPath? (Path.join base name) = none :=
        ReadFault.ofPath?_of_below h.2 (Path.join_ne_empty h.1 base) hpath
      exact ih h.2 (find_join hbase h.1 hinner hjoin) hrest hpath

end Workspace

end DeprecatedApi
