import DeprecatedApi.Text.Blank
import Mathlib.Data.List.DropRight

/-!
# Trimming

What trimming keeps and what it takes away.

* `trimChars_subset`: trimming adds no characters.
* `trimChars_pad`: blank characters around a text do not matter.
* `exists_eq_pad`: a text is what trimming leaves, with blank characters around it.
* `trimChars_eq_self`: a text whose ends are not blank is left alone.
* `not_blank_of_getLast?_trimEnd`: a trimmed text does not end in a blank character.
-/

namespace DeprecatedApi

namespace Text

/-- Trimming at the end is Mathlib's `rdropWhile`. -/
theorem trimEnd_eq_rdropWhile (cs : List Char) : trimEnd cs = cs.rdropWhile isBlank := rfl

theorem trimEnd_subset (cs : List Char) : trimEnd cs ⊆ cs :=
  (List.rdropWhile_prefix isBlank cs).subset

theorem trimChars_subset (cs : List Char) : trimChars cs ⊆ cs :=
  List.Subset.trans (trimEnd_subset _) (List.dropWhile_subset isBlank)

theorem trimStart_blank_append {before : List Char} (h : ∀ c ∈ before, isBlank c)
    (cs : List Char) : trimStart (before ++ cs) = trimStart cs :=
  List.dropWhile_append_of_pos h

/-- What stands behind a text that is not blank is not trimmed at its start. -/
theorem trimStart_append_of_not_blank {cs : List Char} (h : ¬ ∀ c ∈ cs, isBlank c)
    (after : List Char) : trimStart (cs ++ after) = trimStart cs ++ after := by
  have hsome : ¬ (cs.dropWhile isBlank).isEmpty := fun hnil =>
    h (List.dropWhile_eq_nil_iff.mp (List.isEmpty_iff.mp hnil))
  rw [trimStart, List.dropWhile_append, if_neg hsome]
  rfl

theorem trimEnd_append_blank {after : List Char} (h : ∀ c ∈ after, isBlank c)
    (cs : List Char) : trimEnd (cs ++ after) = trimEnd cs := by
  have hrev : ∀ c ∈ after.reverse, isBlank c := by simpa using h
  rw [trimEnd, List.reverse_append, List.dropWhile_append_of_pos hrev]
  rfl

/-- Blank characters around a text do not matter. -/
theorem trimChars_pad {before after : List Char} (hb : ∀ c ∈ before, isBlank c)
    (ha : ∀ c ∈ after, isBlank c) (cs : List Char) :
    trimChars (before ++ cs ++ after) = trimChars cs := by
  rw [trimChars, trimChars, List.append_assoc, trimStart_blank_append hb]
  -- the text itself may be blank, and then its trimming eats into `after`
  by_cases hcs : ∀ c ∈ cs, isBlank c
  · have hnil : trimStart cs = [] := List.dropWhile_eq_nil_iff.mpr hcs
    have hnil' : trimStart (cs ++ after) = [] := by
      rw [trimStart_blank_append hcs]
      exact List.dropWhile_eq_nil_iff.mpr ha
    rw [hnil, hnil']
  · rw [trimStart_append_of_not_blank hcs, trimEnd_append_blank ha]

/-- A text is what trimming leaves of it, with blank characters around. -/
theorem exists_eq_pad (cs : List Char) :
    ∃ before after, (∀ c ∈ before, isBlank c) ∧ (∀ c ∈ after, isBlank c) ∧
      cs = before ++ trimChars cs ++ after := by
  refine ⟨cs.takeWhile isBlank, (trimStart cs).rtakeWhile isBlank, ?_, ?_, ?_⟩
  · intro c hc
    exact List.mem_takeWhile_imp hc
  · intro c hc
    exact List.mem_rtakeWhile_imp hc
  · have hstart : cs.takeWhile isBlank ++ trimStart cs = cs := List.takeWhile_append_dropWhile
    have hend : trimChars cs ++ (trimStart cs).rtakeWhile isBlank = trimStart cs :=
      List.rdropWhile_append_rtakeWhile
    rw [List.append_assoc, hend, hstart]

theorem trimChars_trimChars (cs : List Char) : trimChars (trimChars cs) = trimChars cs := by
  obtain ⟨before, after, hb, ha, hcs⟩ := exists_eq_pad cs
  have hpad := trimChars_pad hb ha (trimChars cs)
  rw [← hcs] at hpad
  exact hpad.symm

/-- Trimming leaves nothing of blank texts only. -/
theorem trimChars_eq_nil_iff {cs : List Char} : trimChars cs = [] ↔ ∀ c ∈ cs, isBlank c := by
  constructor
  · intro h
    obtain ⟨before, after, hb, ha, hcs⟩ := exists_eq_pad cs
    rw [h, List.append_nil] at hcs
    intro c hc
    rw [hcs, List.mem_append] at hc
    exact hc.elim (hb c) (ha c)
  · intro h
    have hpad := trimChars_pad h (List.forall_mem_nil _) []
    rwa [List.append_nil, List.append_nil] at hpad

/-- A text whose first and last characters are not blank is left alone. -/
theorem trimChars_eq_self {first last : Char} (hf : ¬ isBlank first) (hl : ¬ isBlank last)
    (inner : List Char) : trimChars (first :: inner ++ [last]) = first :: inner ++ [last] := by
  have hstart : trimStart (first :: inner ++ [last]) = first :: inner ++ [last] :=
    List.dropWhile_cons_of_neg hf
  rw [trimChars, hstart, trimEnd_eq_rdropWhile]
  exact List.rdropWhile_concat_neg isBlank _ _ hl

/-- A trimmed text does not end in a blank character. -/
theorem not_blank_of_getLast?_trimEnd {cs : List Char} {c : Char}
    (h : (trimEnd cs).getLast? = some c) : ¬ isBlank c := by
  have hne : trimEnd cs ≠ [] := fun hnil => by simp [hnil] at h
  rw [List.getLast?_eq_some_getLast hne] at h
  rw [← Option.some.inj h]
  exact List.rdropWhile_last_not isBlank _ hne

end Text

end DeprecatedApi
