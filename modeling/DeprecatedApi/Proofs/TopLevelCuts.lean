import DeprecatedApi.Proofs.ArgumentLists

/-!
# Where a list is cut

Splitting carries the nesting depth along the text, and cuts at the commas that it comes to at
depth zero. The angle brackets need not be balanced: a `>` that closes nothing changes nothing,
and behind a `<` that is never closed nothing is cut any more. What is added behind a text
changes none of its parts but the last one, and that is all the other results need.

* `ArgumentList.CountsDepth`: what it means to count the depth along a text.
* `ArgumentList.CutsAt`: the comma between two texts separates parts.
* `ArgumentList.intercalate_splitFrom`: nothing is lost.
* `ArgumentList.exists_splitFrom_append`: the key lemma, about a text with another behind it.
* `ArgumentList.cutsAt_splitTopLevel_iff`: the cuts are the commas of depth zero.
* `ArgumentList.cuts_are_the_top_level_commas`: all of this.
-/

namespace DeprecatedApi

namespace ArgumentList

/-! ## Depth -/

/-- A function gives the depth behind every text: it counts from zero, up at a `<` and down at
a `>`, but never below zero. -/
structure CountsDepth (depth : List Char → Nat) : Prop where
  start : depth [] = 0
  opening : ∀ before, depth (before ++ ['<']) = depth before + 1
  closing : ∀ before, 0 < depth before → depth (before ++ ['>']) + 1 = depth before
  stray : ∀ before, depth before = 0 → depth (before ++ ['>']) = 0
  other : ∀ before c, c ≠ '<' → c ≠ '>' → depth (before ++ [c]) = depth before

theorem countsDepth_depthFrom : CountsDepth (depthFrom 0) where
  start := rfl
  opening before := by
    rw [depthFrom_append]
    rfl
  closing before hpos := by
    rw [depthFrom_append]
    show depthFrom 0 before - 1 + 1 = depthFrom 0 before
    omega
  stray before hzero := by
    rw [depthFrom_append, hzero]
    rfl
  other before c hlt hgt := by
    rw [depthFrom_append, depthFrom_cons, depthFrom_nil, depthAfter, if_neg hlt, if_neg hgt]

/-- Without a `>`, the depth does not fall. -/
theorem le_depthFrom_of_not_mem {cs : List Char} (h : '>' ∉ cs) (depth : Nat) :
    depth ≤ depthFrom depth cs := by
  induction cs generalizing depth with
  | nil => exact Nat.le_refl depth
  | cons c cs ih =>
    rw [List.mem_cons, not_or] at h
    have hstep : depth ≤ depthAfter depth c := by
      rw [depthAfter, if_neg (Ne.symm h.1)]
      split <;> omega
    exact hstep.trans (ih h.2 (depthAfter depth c))

/-- Inside type arguments that are not closed, nothing is cut. -/
theorem isUncut_of_not_mem {cs : List Char} {depth : Nat} (hpos : 0 < depth) (h : '>' ∉ cs) :
    IsUncut depth cs := by
  intro before after heq
  have hbefore : '>' ∉ before := by
    intro hmem
    exact h (heq ▸ List.mem_append_left _ hmem)
  have hle := le_depthFrom_of_not_mem hbefore depth
  omega

/-! ## Parts -/

theorem splitFrom_ne_nil (depth : Nat) (cs : List Char) : splitFrom depth cs ≠ [] := by
  cases cs with
  | nil => exact List.cons_ne_nil _ _
  | cons c cs =>
    rw [splitFrom]
    split
    · exact List.cons_ne_nil _ _
    · cases splitFrom (depthAfter depth c) cs <;> exact List.cons_ne_nil _ _

/-- A character that is no cut goes to the front of the first part. -/
theorem exists_splitFrom_cons {c : Char} {depth : Nat} (hcut : ¬ (c = ',' ∧ depth = 0))
    (cs : List Char) :
    ∃ first parts, splitFrom (depthAfter depth c) cs = first :: parts ∧
      splitFrom depth (c :: cs) = (c :: first) :: parts := by
  obtain ⟨first, parts, hsplit⟩ :=
    List.exists_cons_of_ne_nil (splitFrom_ne_nil (depthAfter depth c) cs)
  refine ⟨first, parts, hsplit, ?_⟩
  rw [splitFrom, if_neg hcut, hsplit]
  rfl

/-- A comma of depth zero is a cut. -/
theorem splitFrom_comma (cs : List Char) : splitFrom 0 (',' :: cs) = [] :: splitFrom 0 cs := by
  rw [splitFrom, if_pos ⟨rfl, rfl⟩]

/-- Nothing is lost: the parts with commas between them are the text. -/
theorem intercalate_splitFrom (depth : Nat) (cs : List Char) :
    [','].intercalate (splitFrom depth cs) = cs := by
  induction cs generalizing depth with
  | nil => rfl
  | cons c cs ih =>
    by_cases hcut : c = ',' ∧ depth = 0
    · obtain ⟨rfl, rfl⟩ := hcut
      rw [splitFrom_comma, List.intercalate_cons_of_ne_nil (splitFrom_ne_nil 0 cs), ih]
      rfl
    · obtain ⟨first, parts, hrest, hsplit⟩ := exists_splitFrom_cons hcut cs
      rw [hsplit, List.intercalate_cons_cons_left, ← hrest, ih]

/-- What stands behind a text is split at the depth that the text ends with. It leaves the parts
of the text as they are, up to the last one, which its own first part continues. -/
theorem exists_splitFrom_append (depth : Nat) (cs rest : List Char) :
    ∃ parts last, splitFrom depth cs = parts ++ [last] ∧
      splitFrom depth (cs ++ rest)
        = parts ++ last.foldr consHead (splitFrom (depthFrom depth cs) rest) := by
  induction cs generalizing depth with
  | nil => exact ⟨[], [], rfl, rfl⟩
  | cons c cs ih =>
    by_cases hcut : c = ',' ∧ depth = 0
    · obtain ⟨rfl, rfl⟩ := hcut
      obtain ⟨parts, last, hsplit, happend⟩ := ih 0
      refine ⟨[] :: parts, last, ?_, ?_⟩
      · rw [splitFrom_comma, hsplit, List.cons_append]
      · rw [List.cons_append, splitFrom_comma, happend]
        rfl
    · obtain ⟨parts, last, hsplit, happend⟩ := ih (depthAfter depth c)
      rw [List.cons_append, splitFrom, splitFrom, if_neg hcut, if_neg hcut, hsplit, happend]
      -- the first part is the last one exactly if there are no others
      cases parts with
      | nil => exact ⟨[], c :: last, rfl, rfl⟩
      | cons first parts => exact ⟨(c :: first) :: parts, last, rfl, rfl⟩

/-- A text without commas of depth zero is left whole. -/
theorem IsUncut.splitFrom_eq {cs : List Char} {depth : Nat} (h : IsUncut depth cs) :
    splitFrom depth cs = [cs] := by
  have hsplit := h.splitFrom_append []
  rw [List.append_nil, splitFrom, foldr_consHead, List.append_nil] at hsplit
  exact hsplit

/-- At depth zero, a comma keeps the parts before it and behind it apart. -/
theorem splitFrom_append_comma {cs : List Char} {depth : Nat} (h : depthFrom depth cs = 0)
    (rest : List Char) :
    splitFrom depth (cs ++ ',' :: rest) = splitFrom depth cs ++ splitFrom 0 rest := by
  obtain ⟨parts, last, hsplit, happend⟩ := exists_splitFrom_append depth cs (',' :: rest)
  rw [happend, hsplit, h, splitFrom_comma, foldr_consHead, List.append_nil, List.append_assoc,
    List.singleton_append]

/-- What is not cut stays in the last part of the text before it. -/
theorem exists_splitFrom_append_of_isUncut {cs rest : List Char} {depth : Nat}
    (h : IsUncut (depthFrom depth cs) rest) :
    ∃ parts last, splitFrom depth cs = parts ++ [last] ∧
      splitFrom depth (cs ++ rest) = parts ++ [last ++ rest] := by
  obtain ⟨parts, last, hsplit, happend⟩ := exists_splitFrom_append depth cs rest
  refine ⟨parts, last, hsplit, ?_⟩
  rw [happend, h.splitFrom_eq, foldr_consHead]

/-! ## Cuts -/

/-- The comma between two texts separates the parts: the first of them write what is before it,
and the others what is behind it. -/
def CutsAt (parts : List (List Char)) (before after : List Char) : Prop :=
  ∃ earlier later, earlier ≠ [] ∧ later ≠ [] ∧ parts = earlier ++ later ∧
    [','].intercalate earlier = before ∧ [','].intercalate later = after

/-- Parts that are not the last ones end at depth zero. -/
theorem depthFrom_intercalate {cs : List Char} {depth : Nat} {earlier later : List (List Char)}
    (hearlier : earlier ≠ []) (hlater : later ≠ []) (h : splitFrom depth cs = earlier ++ later) :
    depthFrom depth ([','].intercalate earlier) = 0 := by
  induction cs generalizing depth earlier with
  | nil =>
    -- a single part cannot be shared out
    have hlength : 1 = earlier.length + later.length := by
      simpa [splitFrom] using congrArg List.length h
    have hone := List.length_pos_of_ne_nil hearlier
    have htwo := List.length_pos_of_ne_nil hlater
    omega
  | cons c cs ih =>
    obtain ⟨part, others, rfl⟩ := List.exists_cons_of_ne_nil hearlier
    by_cases hcut : c = ',' ∧ depth = 0
    · obtain ⟨rfl, rfl⟩ := hcut
      rw [splitFrom_comma, List.cons_append] at h
      obtain ⟨rfl, hrest⟩ := List.cons.inj h
      by_cases hothers : others = []
      · subst hothers
        rfl
      · rw [List.intercalate_cons_of_ne_nil hothers]
        exact ih hothers hrest
    · obtain ⟨first, parts, hfirst, hsplit⟩ := exists_splitFrom_cons hcut cs
      rw [hsplit, List.cons_append] at h
      obtain ⟨rfl, rfl⟩ := List.cons.inj h
      rw [List.intercalate_cons_cons_left, depthFrom_cons]
      exact ih (List.cons_ne_nil _ _) hfirst

/-- **The cuts are the commas of depth zero.** -/
theorem cutsAt_splitTopLevel_iff {before after : List Char} :
    CutsAt (splitTopLevel (before ++ ',' :: after)) before after ↔ depthFrom 0 before = 0 := by
  constructor
  · rintro ⟨earlier, later, hearlier, hlater, hparts, rfl, rfl⟩
    exact depthFrom_intercalate hearlier hlater hparts
  · intro hzero
    exact ⟨splitTopLevel before, splitTopLevel after, splitFrom_ne_nil 0 before,
      splitFrom_ne_nil 0 after, splitFrom_append_comma hzero after,
      intercalate_splitFrom 0 before, intercalate_splitFrom 0 after⟩

/-! ## Main result -/

/-- **Lists are cut exactly at their top level.** The parts of a text, with commas between them,
are the text, and a comma separates parts exactly if the depth before it is zero. So a comma at
depth zero keeps the parts of the texts around it apart; and behind type arguments that are not
closed, a comma and what follows it stay in the last part. -/
theorem cuts_are_the_top_level_commas :
    CountsDepth (depthFrom 0) ∧
    (∀ cs, [','].intercalate (splitTopLevel cs) = cs) ∧
    (∀ before after, CutsAt (splitTopLevel (before ++ ',' :: after)) before after ↔
      depthFrom 0 before = 0) ∧
    (∀ as bs, depthFrom 0 as = 0 →
      splitTopLevel (as ++ ',' :: bs) = splitTopLevel as ++ splitTopLevel bs) ∧
    ∀ as bs, 0 < depthFrom 0 as → '>' ∉ bs →
      ∃ parts last, splitTopLevel as = parts ++ [last] ∧
        splitTopLevel (as ++ ',' :: bs) = parts ++ [last ++ ',' :: bs] := by
  refine ⟨countsDepth_depthFrom, intercalate_splitFrom 0, fun _ _ => cutsAt_splitTopLevel_iff,
    fun _ bs hzero => splitFrom_append_comma hzero bs, ?_⟩
  intro as bs hpos hopen
  refine exists_splitFrom_append_of_isUncut (isUncut_of_not_mem hpos ?_)
  rw [List.mem_cons, not_or]
  exact ⟨by decide, hopen⟩

/-- A text that ends at depth zero: it begins with a cut, a `>` in it closes nothing, and one of
its commas is inside type arguments. -/
def strayAngles : List Char :=
  ",>é,Map<K,V>".toList

/-- A text that ends inside type arguments. -/
def openAngles : List Char :=
  "a,List<é".toList

/-- The comma between the two texts is a cut; behind the second one there are no more cuts. -/
theorem cuts_of_strayAngles_and_openAngles :
    splitTopLevel (strayAngles ++ ',' :: openAngles)
      = [[], ">é".toList, "Map<K,V>".toList, "a".toList, "List<é".toList] ∧
    splitTopLevel (openAngles ++ ',' :: "T,<".toList) = ["a".toList, "List<é,T,<".toList] := by
  obtain ⟨-, -, -, happend, hopen⟩ := cuts_are_the_top_level_commas
  constructor
  · rw [happend strayAngles openAngles (by decide)]
    decide
  · obtain ⟨parts, last, hparts, hwhole⟩ :=
      hopen openAngles "T,<".toList (by decide) (by decide)
    have hknown : splitTopLevel openAngles = ["a".toList] ++ ["List<é".toList] := by
      decide
    obtain ⟨rfl, hlast⟩ := List.append_inj' (hparts.symm.trans hknown) rfl
    obtain rfl := List.singleton_inj.mp hlast
    exact hwhole

end ArgumentList

end DeprecatedApi
