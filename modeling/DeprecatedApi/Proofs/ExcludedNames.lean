import DeprecatedApi.Proofs.ExactDiscovery
import Mathlib.Data.List.Flatten

/-!
# Names of directories to pass over

The names of directories to pass over act as a set. Whatever the tree is like, the walk under some
names comes to the files that it comes to without them, in the same order, but for those behind a
directory of such a name. So neither the order of the names nor repeats matter, and more names
only take files away.

* `Discovery.IsClear`: a way through directories that are not passed over.
* `Discovery.reached_eq_filter`, `Discovery.entered_eq_filter`: the walk, by the walk without
  further names.
* `Discovery.discover_congr`: discovery depends on the set of names alone.
* `Discovery.discover_of_subset`: more names take fact files away, and no fault comes up.
-/

namespace DeprecatedApi

namespace Discovery

/-! ## Ways that are not passed over -/

/-- None of some directories is passed over. -/
def IsClear (excludes dirs : List String) : Prop :=
  ∀ dir ∈ dirs, ¬ isExcluded excludes dir

instance (excludes dirs : List String) : Decidable (IsClear excludes dirs) :=
  inferInstanceAs (Decidable (∀ dir ∈ dirs, ¬ isExcluded excludes dir))

variable {excludes more : List String}

theorem isClear_cons {name : String} {dirs : List String} :
    IsClear excludes (name :: dirs) ↔ ¬ isExcluded excludes name ∧ IsClear excludes dirs :=
  List.forall_mem_cons

/-- Fewer ways are clear if more names are passed over. -/
theorem IsClear.mono {dirs : List String} (h : IsClear more dirs) (hmore : excludes ⊆ more) :
    IsClear excludes dirs :=
  fun dir hdir => not_isExcluded_mono hmore (h dir hdir)

/-- Which ways are clear depends on the set of names. -/
theorem isClear_congr {other : List String} (h : ∀ name, name ∈ other ↔ name ∈ excludes)
    (dirs : List String) : IsClear other dirs ↔ IsClear excludes dirs :=
  ⟨fun hclear => hclear.mono fun name => (h name).mpr,
    fun hclear => hclear.mono fun name => (h name).mp⟩

/-- What comes out of a directory, if the directory is followed: names to pass over can be looked
at within the directory and at its own name, or at the whole ways afterwards. -/
theorem filter_followed {α β : Type} {f : α → β} {p : β → Prop} {q : α → Prop}
    [DecidablePred p] [DecidablePred q] {name : String} {entries : List (String × FileTree)}
    {items : List α}
    (h : ∀ item ∈ items, p (f item) ↔ ¬ isExcluded excludes name ∧ q item) :
    (if isFollowed excludes name (.dir entries) then (items.filter fun item => q item).map f
      else [])
      = (if isFollowed [] name (.dir entries) then items.map f else []).filter fun b => p b := by
  rw [isFollowed, isFollowed]
  by_cases hname : isExcluded excludes name
  · rw [hname, if_neg (by decide)]
    symm
    rw [List.filter_eq_nil_iff]
    intro b hb
    split at hb
    · obtain ⟨item, hitem, rfl⟩ := List.mem_map.mp hb
      simp [h item hitem, hname]
    · cases hb
  · have hstandard : ¬ isExcluded [] name := not_isExcluded_mono (List.nil_subset _) hname
    rw [if_pos (by simpa using hname), if_pos (by simpa using hstandard), List.filter_map]
    congr 1
    refine List.filter_congr fun item hitem => ?_
    simp [h item hitem, hname]

/-! ## Files -/

/-- The way to a file below a directory is clear if the directory is not passed over and the way
within it is clear. -/
theorem isClear_dropLast_cons_iff {others : List String} {entries : List (String × FileTree)}
    {found : List String × ByteArray} (hfound : found ∈ reached others (.dir entries))
    (name : String) :
    IsClear excludes (name :: found.1).dropLast ↔
      ¬ isExcluded excludes name ∧ IsClear excludes found.1.dropLast := by
  have hne : found.1 ≠ [] := by
    intro hnil
    obtain ⟨way, content⟩ := found
    obtain rfl : way = [] := hnil
    exact nil_not_mem_walk hfound
  rw [List.dropLast_cons_of_ne_nil hne, isClear_cons]

/-- **Step**: the files that are reached from an entry, if this is so within the entry. -/
theorem reachedFrom_eq_filter {tree : FileTree}
    (h : reached excludes tree
      = (reached [] tree).filter fun found => IsClear excludes found.1.dropLast)
    (name : String) :
    reachedFrom excludes (name, tree)
      = (reachedFrom [] (name, tree)).filter fun found => IsClear excludes found.1.dropLast := by
  unfold reachedFrom
  cases tree with
  | file content =>
    -- a file is followed for its own name, and there is no directory on the way to it
    by_cases hfact : isFactName name
    · simp [isFollowed, reached, hfact, IsClear]
    · simp [isFollowed, hfact]
  | dir entries =>
    rw [h]
    exact filter_followed fun found hfound => isClear_dropLast_cons_iff hfound name

mutual

/-- **The files that the walk comes to** are those that it comes to without further names, but
for those behind a directory that is passed over. -/
theorem reached_eq_filter (excludes : List String) : (tree : FileTree) →
    reached excludes tree
      = (reached [] tree).filter fun found => IsClear excludes found.1.dropLast
  | .file content => by
    rw [reached, reached, List.filter_cons_of_pos (by simp [IsClear]), List.filter_nil]
  | .dir entries => walk_eq_filter excludes entries

theorem walk_eq_filter (excludes : List String) : (entries : List (String × FileTree)) →
    walk excludes entries
      = (walk [] entries).filter fun found => IsClear excludes found.1.dropLast
  | [] => rfl
  | (name, tree) :: rest => by
    have hentry := reachedFrom_eq_filter (reached_eq_filter excludes tree) name
    unfold reachedFrom at hentry
    rw [walk, walk, List.filter_append, ← hentry, walk_eq_filter excludes rest]

end

/-! ## Directories -/

/-- **Step**: the directories that are read from an entry, if this is so within the entry. -/
theorem enteredFrom_eq_filter {name : String} {tree : FileTree}
    (h : entered excludes tree = (entered [] tree).filter fun way => IsClear excludes way) :
    (if isFollowed excludes name tree then (entered excludes tree).map (name :: ·) else [])
      = (if isFollowed [] name tree then (entered [] tree).map (name :: ·) else []).filter
          fun way => IsClear excludes way := by
  cases tree with
  | file content => simp [entered]
  | dir entries =>
    rw [h]
    exact filter_followed fun way _ => isClear_cons

mutual

/-- **The directories that the walk reads** are those that it reads without further names, but
for those that are passed over and what is behind them. -/
theorem entered_eq_filter (excludes : List String) : (tree : FileTree) →
    entered excludes tree = (entered [] tree).filter fun way => IsClear excludes way
  | .file content => rfl
  | .dir entries => by
    rw [entered, entered, List.filter_cons_of_pos (by simp [IsClear]),
      enteredBelow_eq_filter excludes entries]

theorem enteredBelow_eq_filter (excludes : List String) : (entries : List (String × FileTree)) →
    enteredBelow excludes entries
      = (enteredBelow [] entries).filter fun way => IsClear excludes way
  | [] => rfl
  | (name, tree) :: rest => by
    rw [enteredBelow, enteredBelow, List.filter_append,
      enteredFrom_eq_filter (entered_eq_filter excludes tree), enteredBelow_eq_filter excludes rest]

end

/-! ## What is found -/

/-- Discovery depends on the set of names alone. -/
theorem discover_congr {other : List String} (h : ∀ name, name ∈ other ↔ name ∈ excludes)
    (root : String) (target : FileTree) :
    discover root other target = discover root excludes target := by
  have hentered : entered other target = entered excludes target := by
    rw [entered_eq_filter other, entered_eq_filter excludes]
    simp only [isClear_congr h]
  have hsources : sources root other target = sources root excludes target := by
    cases target with
    | file content => rfl
    | dir entries =>
      rw [sources, sources, walk_eq_filter other, walk_eq_filter excludes]
      simp only [isClear_congr h]
  unfold discover unreadable?
  rw [hentered, hsources]

/-- **More names take fact files away**, and leave the others in order. -/
theorem sources_sublist (h : excludes ⊆ more) (root : String) (target : FileTree) :
    (sources root more target).Sublist (sources root excludes target) := by
  cases target with
  | file content => exact List.Sublist.refl _
  | dir entries =>
    have hwalk : (walk more entries).Sublist (walk excludes entries) := by
      rw [walk_eq_filter more, walk_eq_filter excludes]
      refine List.monotone_filter_right _ fun found hclear => ?_
      exact decide_eq_true ((of_decide_eq_true hclear).mono h)
    have hsorted : (sorted (walk more entries)).Sublist (sorted (walk excludes entries)) :=
      StableSort.sublist_mergeSort_mergeSort (fun a b => componentsLe_iff a.1 b.1) hwalk
    exact hsorted.map _

/-- If discovery succeeds, it does so with more names as well. -/
theorem discover_of_subset (h : excludes ⊆ more) {root : String} {target : FileTree}
    {files : List Source} (hfiles : discover root excludes target = .ok files) :
    ∃ fewer, discover root more target = .ok fewer ∧ fewer.Sublist files := by
  unfold discover at hfiles ⊢
  cases hfault : unreadable? root excludes target with
  | some fault =>
    rw [hfault] at hfiles
    cases hfiles
  | none =>
    rw [hfault] at hfiles
    have hnone : unreadable? root more target = none := by
      unfold unreadable? at hfault ⊢
      rw [List.findSome?_eq_none_iff] at hfault ⊢
      intro way hway
      refine hfault way ?_
      rw [entered_eq_filter, List.mem_filter, decide_eq_true_iff] at hway ⊢
      exact ⟨hway.1, hway.2.mono h⟩
    rw [hnone, ← Except.ok.inj hfiles]
    exact ⟨_, rfl, sources_sublist h root target⟩

end Discovery

end DeprecatedApi
