import DeprecatedApi.Descriptor.ArgumentList
import DeprecatedApi.Proofs.TypeNames
import Mathlib.Data.List.Forall2
import Mathlib.Data.List.Infix

/-!
# How argument lists are written

A list of type names is written in parentheses, with commas between the names and blank
characters around them. A name may hold commas of its own, inside type arguments.

* `ArgumentList.BalancedAngles`, `ArgumentList.CommasNested`: type arguments that do not
  disturb the list around them.
* `ArgumentList.depthFrom`, `ArgumentList.IsUncut`: the depth along a text, and texts that
  are not cut anywhere.
* `ArgumentList.splitFrom_append`: a name is passed over whole.
* `ArgumentList.WritesInner`, `ArgumentList.Writes`: texts that write a list of names.
* `ArgumentList.parse_of_writes`: reading such a text gives the types of the names.
-/

namespace DeprecatedApi

namespace ArgumentList

/-! ## Type arguments -/

/-- Every `>` closes a `<` before it, and every `<` is closed. -/
structure BalancedAngles (cs : List Char) : Prop where
  closed : cs.count '<' = cs.count '>'
  opened : ∀ before, before <+: cs → before.count '>' ≤ before.count '<'

/-- Every comma stands inside some `<…>`. -/
def CommasNested (cs : List Char) : Prop :=
  ∀ before after, cs = before ++ ',' :: after → before.count '>' < before.count '<'

instance (cs : List Char) : Decidable (BalancedAngles cs) :=
  decidable_of_iff
    (cs.count '<' = cs.count '>' ∧ ∀ before ∈ cs.inits, before.count '>' ≤ before.count '<')
    ⟨fun h => ⟨h.1, fun before hb => h.2 before ((List.mem_inits _ _).mpr hb)⟩,
     fun h => ⟨h.closed, fun before hb => h.opened before ((List.mem_inits _ _).mp hb)⟩⟩

instance (cs : List Char) : Decidable (CommasNested cs) :=
  decidable_of_iff
    (∀ before ∈ cs.inits, before ++ [','] <+: cs → before.count '>' < before.count '<')
    ⟨fun h before after heq => h before ((List.mem_inits _ _).mpr ⟨_, heq.symm⟩)
       ⟨after, by rw [heq, List.append_assoc, List.singleton_append]⟩,
     fun h before _ hb => by
       obtain ⟨after, rfl⟩ := hb
       exact h before after (by rw [List.append_assoc, List.singleton_append])⟩

/-- Where no `>` comes too early, the depth is the number of open type arguments. -/
theorem depthAfter_add_count {depth : Nat} {c : Char}
    (h : [c].count '>' ≤ depth + [c].count '<') :
    depthAfter depth c + [c].count '>' = depth + [c].count '<' := by
  by_cases hlt : c = '<'
  · subst hlt
    rfl
  · by_cases hgt : c = '>'
    · subst hgt
      have hpos : 1 ≤ depth := h
      show depth - 1 + 1 = depth + 0
      omega
    · simp [depthAfter, hlt, hgt]

/-- The depth behind a text that begins at depth `depth`. -/
def depthFrom (depth : Nat) (cs : List Char) : Nat :=
  cs.foldl depthAfter depth

@[simp] theorem depthFrom_nil (depth : Nat) : depthFrom depth [] = depth := rfl

@[simp] theorem depthFrom_cons (depth : Nat) (c : Char) (cs : List Char) :
    depthFrom depth (c :: cs) = depthFrom (depthAfter depth c) cs := rfl

@[simp] theorem depthFrom_append (depth : Nat) (as bs : List Char) :
    depthFrom depth (as ++ bs) = depthFrom (depthFrom depth as) bs :=
  List.foldl_append

theorem depthFrom_add_count {cs : List Char} {depth : Nat}
    (hopened : ∀ before, before <+: cs → before.count '>' ≤ depth + before.count '<') :
    depthFrom depth cs + cs.count '>' = depth + cs.count '<' := by
  induction cs generalizing depth with
  | nil => rfl
  | cons c cs ih =>
    have hdepth := depthAfter_add_count (hopened [c] ⟨cs, rfl⟩)
    have hcount : ∀ (mark : Char) (ds : List Char),
        (c :: ds).count mark = [c].count mark + ds.count mark := by
      intro mark ds
      rw [← List.count_append, List.singleton_append]
    have hrest : depthFrom (depthAfter depth c) cs + cs.count '>'
        = depthAfter depth c + cs.count '<' := by
      -- a beginning of the rest is a beginning of the whole without `c`
      refine ih fun before hbefore => ?_
      have h := hopened (c :: before) (List.cons_prefix_cons.mpr ⟨rfl, hbefore⟩)
      rw [hcount '>' before, hcount '<' before] at h
      omega
    rw [hcount '>' cs, hcount '<' cs, depthFrom_cons]
    omega

/-! ## Cuts -/

/-- No comma of a text that begins at depth `depth` stands at depth zero. -/
def IsUncut (depth : Nat) (cs : List Char) : Prop :=
  ∀ before after, cs = before ++ ',' :: after → depthFrom depth before ≠ 0

theorem isUncut_nil (depth : Nat) : IsUncut depth [] := by
  intro before after heq
  simp at heq

theorem isUncut_cons_iff {depth : Nat} {c : Char} {cs : List Char} :
    IsUncut depth (c :: cs) ↔ ¬ (c = ',' ∧ depth = 0) ∧ IsUncut (depthAfter depth c) cs := by
  constructor
  · intro h
    constructor
    · rintro ⟨rfl, rfl⟩
      exact h [] cs rfl rfl
    · intro before after heq
      exact h (c :: before) after (by rw [heq]; rfl)
  · rintro ⟨hcut, hrest⟩ before after heq
    cases before with
    | nil =>
      obtain ⟨rfl, rfl⟩ := List.cons.inj heq
      intro hzero
      exact hcut ⟨rfl, hzero⟩
    | cons d before =>
      obtain ⟨rfl, rfl⟩ := List.cons.inj heq
      exact hrest before after rfl

theorem foldr_consHead (cs part : List Char) (parts : List (List Char)) :
    cs.foldr consHead (part :: parts) = (cs ++ part) :: parts := by
  induction cs with
  | nil => rfl
  | cons c cs ih => rw [List.foldr_cons, ih]; rfl

/-- A text without commas of depth zero is passed over whole, and what follows begins at
the depth that the text ends with. -/
theorem IsUncut.splitFrom_append {cs : List Char} {depth : Nat} (h : IsUncut depth cs)
    (rest : List Char) :
    splitFrom depth (cs ++ rest)
      = cs.foldr consHead (splitFrom (depthFrom depth cs) rest) := by
  induction cs generalizing depth with
  | nil => rfl
  | cons c cs ih =>
    obtain ⟨hcut, hrest⟩ := isUncut_cons_iff.mp h
    rw [List.cons_append, splitFrom, if_neg hcut, ih hrest, List.foldr_cons, depthFrom_cons]

/-- A text is passed over whole if no `>` in it comes too early and its commas are nested. -/
theorem splitFrom_append {cs : List Char} {depth : Nat}
    (hopened : ∀ before, before <+: cs → before.count '>' ≤ depth + before.count '<')
    (hcommas : ∀ before after, cs = before ++ ',' :: after →
      before.count '>' < depth + before.count '<')
    (rest : List Char) :
    splitFrom depth (cs ++ rest)
      = cs.foldr consHead (splitFrom (depth + cs.count '<' - cs.count '>') rest) := by
  have huncut : IsUncut depth cs := by
    intro before after heq
    have hcomma := hcommas before after heq
    have hdepth : depthFrom depth before + before.count '>' = depth + before.count '<' := by
      refine depthFrom_add_count fun start hstart => hopened start ?_
      rw [heq]
      exact hstart.trans (List.prefix_append _ _)
    omega
  have hend : depthFrom depth cs = depth + cs.count '<' - cs.count '>' := by
    have hdepth := depthFrom_add_count hopened
    omega
  rw [huncut.splitFrom_append, hend]

/-! ## Names in a list -/

/-- A type name that can stand in a list: not blank, and its type arguments do not disturb
the list around it. -/
structure IsListable (name : List Char) : Prop where
  notBlank : ¬ ∀ c ∈ name, Text.isBlank c
  balanced : BalancedAngles name
  commasNested : CommasNested name

instance (name : List Char) : Decidable (IsListable name) :=
  decidable_of_iff
    (¬ name.all Text.isBlank ∧ BalancedAngles name ∧ CommasNested name)
    ⟨fun h => ⟨fun hblank => h.1 (List.all_eq_true.mpr hblank), h.2.1, h.2.2⟩,
     fun h => ⟨fun hblank => h.notBlank (List.all_eq_true.mp hblank), h.balanced, h.commasNested⟩⟩

/-- A name with blank characters around it. -/
def Pads (name part : List Char) : Prop :=
  ∃ before after, (∀ c ∈ before, Text.isBlank c) ∧ (∀ c ∈ after, Text.isBlank c) ∧
    part = before ++ name ++ after

/-- The texts between the parentheses that write a list of names: blank characters if
there are no names, and else the padded names with commas between them. -/
inductive WritesInner : List (List Char) → List Char → Prop
  | none {blanks : List Char} : (∀ c ∈ blanks, Text.isBlank c) → WritesInner [] blanks
  | one {name part : List Char} : Pads name part → WritesInner [name] part
  | cons {name part second inner : List Char} {names : List (List Char)} :
    Pads name part → WritesInner (second :: names) inner →
      WritesInner (name :: second :: names) (part ++ ',' :: inner)

/-- The texts that write a list of names: in parentheses, with blank characters around. -/
def Writes (names : List String) (text : String) : Prop :=
  ∃ before inner after, (∀ c ∈ before, Text.isBlank c) ∧ (∀ c ∈ after, Text.isBlank c) ∧
    WritesInner (names.map String.toList) inner ∧
    text.toList = before ++ ('(' :: inner ++ [')']) ++ after

/-! ## Reading a written list -/

theorem splitFrom_listable {name : List Char} (h : IsListable name) (rest : List Char) :
    splitFrom 0 (name ++ rest) = name.foldr consHead (splitFrom 0 rest) := by
  rw [splitFrom_append, h.balanced.closed, Nat.zero_add, Nat.sub_self]
  · simpa using h.balanced.opened
  · simp only [Nat.zero_add]
    exact h.commasNested

theorem splitFrom_blank {blanks : List Char} (h : ∀ c ∈ blanks, Text.isBlank c)
    (rest : List Char) :
    splitFrom 0 (blanks ++ rest) = blanks.foldr consHead (splitFrom 0 rest) := by
  have hclear : ∀ before, before <+: blanks → ∀ mark, ¬ Text.isBlank mark →
      before.count mark = 0 := by
    intro before hbefore mark hmark
    exact List.count_eq_zero.mpr fun hmem => hmark (h mark (hbefore.subset hmem))
  rw [splitFrom_append, hclear blanks (List.prefix_refl _) '<' (by decide),
    hclear blanks (List.prefix_refl _) '>' (by decide)]
  · intro before hbefore
    rw [hclear before hbefore '>' (by decide)]
    exact Nat.zero_le _
  · intro before after heq
    have hcomma : Text.isBlank ',' := h ',' (by rw [heq]; simp)
    exact absurd hcomma (by decide)

theorem splitFrom_pads {name part : List Char} (hn : IsListable name) (hp : Pads name part)
    (rest : List Char) : splitFrom 0 (part ++ rest) = part.foldr consHead (splitFrom 0 rest) := by
  obtain ⟨before, after, hb, ha, rfl⟩ := hp
  simp only [List.append_assoc, List.foldr_append, splitFrom_blank hb, splitFrom_listable hn,
    splitFrom_blank ha]

theorem Pads.not_blank {name part : List Char} (hn : IsListable name) (hp : Pads name part) :
    ¬ ∀ c ∈ part, Text.isBlank c := by
  obtain ⟨before, after, -, -, rfl⟩ := hp
  intro h
  exact hn.notBlank fun c hc => h c (by simp [hc])

theorem Pads.fieldType_eq {name part : List Char} (hp : Pads name part) :
    TypeName.fieldType part 0 = TypeName.fieldType name 0 := by
  obtain ⟨before, after, hb, ha, rfl⟩ := hp
  exact TypeName.fieldType_pad hb ha name 0

theorem not_blank_of_forall₂_pads {names parts : List (List Char)}
    (h : List.Forall₂ Pads names parts) (hn : ∀ name ∈ names, IsListable name) :
    ∀ part ∈ parts, ¬ ∀ c ∈ part, Text.isBlank c := by
  induction h with
  | nil => simp
  | cons hp _ ih =>
    rw [List.forall_mem_cons] at hn ⊢
    exact ⟨hp.not_blank hn.1, ih hn.2⟩

theorem map_fieldType_of_forall₂_pads {names parts : List (List Char)}
    (h : List.Forall₂ Pads names parts) :
    parts.map (fun part => TypeDescriptor.field (TypeName.fieldType part 0))
      = names.map fun name => .field (TypeName.fieldType name 0) := by
  induction h with
  | nil => rfl
  | cons hp _ ih => rw [List.map_cons, List.map_cons, ih, hp.fieldType_eq]

/-- The cuts of a written list are exactly the commas between its names. -/
theorem forall₂_pads_splitTopLevel {names : List (List Char)} {inner : List Char}
    (h : WritesInner names inner) (hne : names ≠ []) (hn : ∀ name ∈ names, IsListable name) :
    List.Forall₂ Pads names (splitTopLevel inner) := by
  induction h with
  | none => exact absurd rfl hne
  | @one name part hp =>
    have hsplit := splitFrom_pads (hn name List.mem_cons_self) hp []
    rw [List.append_nil, splitFrom, foldr_consHead, List.append_nil] at hsplit
    rw [splitTopLevel, hsplit]
    exact .cons hp .nil
  | @cons name part second inner names hp _ ih =>
    rw [List.forall_mem_cons] at hn
    have hsplit := splitFrom_pads hn.1 hp (',' :: inner)
    rw [splitFrom, if_pos ⟨rfl, rfl⟩, foldr_consHead, List.append_nil] at hsplit
    rw [splitTopLevel, hsplit]
    exact .cons hp (ih (List.cons_ne_nil _ _) hn.2)

/-- The parts of a written list are its names, padded. -/
theorem forall₂_pads_parts {names : List (List Char)} {inner : List Char}
    (h : WritesInner names inner) (hn : ∀ name ∈ names, IsListable name) :
    List.Forall₂ Pads names (parts inner) := by
  rw [parts]
  by_cases hne : names = []
  · subst hne
    obtain ⟨hblank⟩ := h
    rw [if_pos (List.all_eq_true.mpr hblank)]
    exact .nil
  · -- the first name is not blank, so neither is the text
    have hnot : ¬ inner.all Text.isBlank := by
      rw [List.all_eq_true]
      intro hblank
      cases h with
      | none => exact hne rfl
      | one hp => exact hp.not_blank (hn _ List.mem_cons_self) hblank
      | cons hp _ =>
        exact hp.not_blank (hn _ List.mem_cons_self)
          fun c hc => hblank c (List.mem_append_left _ hc)
    rw [if_neg hnot]
    exact forall₂_pads_splitTopLevel h hne hn

/-- Nothing stands around the parentheses of a written list but blank characters. -/
theorem inner?_parenthesized {before after : List Char} (hb : ∀ c ∈ before, Text.isBlank c)
    (ha : ∀ c ∈ after, Text.isBlank c) (inner : List Char) :
    inner? (before ++ ('(' :: inner ++ [')']) ++ after) = some inner := by
  rw [inner?, Text.trimChars_pad hb ha, Text.trimChars_eq_self (by decide) (by decide)]
  simp

/-- Reading a written list gives the types of its names. -/
theorem parse_of_writes {names : List String} {text : String} (h : Writes names text)
    (hn : ∀ name ∈ names, IsListable name.toList) :
    parse text = .ok
      ⟨names.map fun name => .field (TypeName.fieldType name.toList 0), none⟩ := by
  obtain ⟨before, inner, after, hb, ha, hinner, htext⟩ := h
  have hlistable : ∀ name ∈ names.map String.toList, IsListable name := by
    simpa using hn
  have hparts := forall₂_pads_parts hinner hlistable
  -- no part is blank
  have hempty : ¬ (parts inner).any (·.all Text.isBlank) := by
    intro hany
    obtain ⟨part, hmem, hblank⟩ := List.any_eq_true.mp hany
    exact not_blank_of_forall₂_pads hparts hlistable part hmem (List.all_eq_true.mp hblank)
  have htypes : (parts inner).map (fun part => TypeDescriptor.field (TypeName.fieldType part 0))
      = names.map fun name => .field (TypeName.fieldType name.toList 0) := by
    rw [map_fieldType_of_forall₂_pads hparts, List.map_map]
    rfl
  rw [parse, htext, inner?_parenthesized hb ha]
  show (if (parts inner).any (·.all Text.isBlank) then _ else _) = _
  rw [if_neg hempty, htypes]

end ArgumentList

end DeprecatedApi
