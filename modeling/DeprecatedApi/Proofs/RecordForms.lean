import DeprecatedApi.Json.Decode
import Mathlib.Data.List.Nodup

/-!
# Records written in many ways

The same record can be written as an object in many ways: its members may stand in any
order, a field that holds its default may be left out, and members that nobody asks for may
be added. What the fields hold does not depend on the way.

* `FieldForm`: how one field may be written.
* `Record.Presents`: the members of an object write some fields.
* `Record.Presents.exists_record`: decoding finds the fields.
* `Record.Holds.need?`, `Record.Holds.get?`: and what they hold.
-/

namespace DeprecatedApi

/-! ## Forms -/

/-- How one field of a record may be written. -/
structure FieldForm where
  key : String
  /-- The values that write what the field holds. -/
  Writes : Json → Prop
  /-- Whether the field may be left out. -/
  MayOmit : Prop

namespace FieldForm

/-- A field that must be given. -/
def required (key : String) (writes : Json → Prop) : FieldForm :=
  ⟨key, writes, False⟩

/-- A field that may be left out if it holds its default. -/
def defaulted {α : Type} (key : String) (writes : Json → Prop) (held default : α) : FieldForm :=
  ⟨key, writes, held = default⟩

/-- The values given for a field: one that writes it, or none if it may be left out. -/
inductive Admits (form : FieldForm) : List Json → Prop
  | omitted (h : form.MayOmit) : Admits form []
  | given {value : Json} (h : form.Writes value) : Admits form [value]

theorem Admits.length_le_one {form : FieldForm} {values : List Json} (h : form.Admits values) :
    values.length ≤ 1 := by
  cases h with
  | omitted _ => exact Nat.zero_le 1
  | given _ => exact Nat.le_refl 1

end FieldForm

/-! ## Objects that write fields -/

namespace Record

/-- The values that the members of an object give for a key. -/
def valuesOf (key : String) (members : List (StringValue × Json)) : List Json :=
  (members.filter fun member => member.1 == some key).map Prod.snd

/-- The members of an object write the fields of some forms: every key is a text, each field
is given as its form asks, and all other values are ones that may be ignored. The order of the
members plays no part. -/
structure Presents (forms : List FieldForm) (Ignored : Json → Prop)
    (members : List (StringValue × Json)) : Prop where
  keys : ∀ member ∈ members, member.1.isSome
  fields : ∀ form ∈ forms, form.Admits (valuesOf form.key members)
  ignored : ∀ member ∈ members, (∀ form ∈ forms, member.1 ≠ some form.key) → Ignored member.2

variable {forms : List FieldForm} {Ignored : Json → Prop} {members : List (StringValue × Json)}

/-- Every member writes a field or is ignored. -/
theorem Presents.forall_mem (h : Presents forms Ignored members) {P : Json → Prop}
    (hforms : ∀ form ∈ forms, ∀ value, form.Writes value → P value)
    (hignored : ∀ value, Ignored value → P value) : ∀ member ∈ members, P member.2 := by
  intro member hmember
  by_cases hkey : ∀ form ∈ forms, member.1 ≠ some form.key
  · exact hignored _ (h.ignored member hmember hkey)
  · push Not at hkey
    obtain ⟨form, hform, heq⟩ := hkey
    have hvalue : member.2 ∈ valuesOf form.key members :=
      List.mem_map_of_mem (List.mem_filter.mpr ⟨hmember, by simp [heq]⟩)
    generalize hvalues : valuesOf form.key members = values at hvalue
    have hadmits := h.fields form hform
    rw [hvalues] at hadmits
    cases hadmits with
    | omitted _ => cases hvalue
    | given hwrites =>
      rw [List.mem_singleton.mp hvalue]
      exact hforms form hform _ hwrites

theorem valuesOf_eq_nil {key : String} (h : ∀ member ∈ members, member.1 ≠ some key) :
    valuesOf key members = [] := by
  have hnone : members.filter (fun member => member.1 == some key) = [] :=
    List.filter_eq_nil_iff.mpr fun member hmember => by simpa using h member hmember
  rw [valuesOf, hnone, List.map_nil]

/-- One more field, written in front. -/
theorem Presents.cons {form : FieldForm} {value : Json} (hwrites : form.Writes value)
    (hfresh : ∀ other ∈ forms, other.key ≠ form.key)
    (habsent : ∀ member ∈ members, member.1 ≠ some form.key)
    (h : Presents forms Ignored members) :
    Presents (form :: forms) Ignored ((some form.key, value) :: members) where
  keys := List.forall_mem_cons.mpr ⟨rfl, h.keys⟩
  fields := by
    refine List.forall_mem_cons.mpr ⟨?_, fun other hother => ?_⟩
    · have hone : valuesOf form.key ((some form.key, value) :: members) = [value] := by
        rw [valuesOf, List.filter_cons_of_pos (by simp), List.map_cons, ← valuesOf,
          valuesOf_eq_nil habsent]
      rw [hone]
      exact .given hwrites
    · have hskip : valuesOf other.key ((some form.key, value) :: members)
          = valuesOf other.key members := by
        have hne := hfresh other hother
        rw [valuesOf, List.filter_cons_of_neg (by simpa using hne.symm), ← valuesOf]
      rw [hskip]
      exact h.fields other hother
  ignored := by
    refine List.forall_mem_cons.mpr ⟨fun hkey => ?_, fun member hmember hkey => ?_⟩
    · exact absurd rfl (hkey form List.mem_cons_self)
    · exact h.ignored member hmember fun other hother => hkey other (List.mem_cons_of_mem _ hother)

/-- Fields written one after the other, each with a value that writes it. -/
theorem presents_of_forall₂ {fields : List (String × Json)}
    (hkeys : (forms.map FieldForm.key).Nodup)
    (h : List.Forall₂ (fun form field => field.1 = form.key ∧ form.Writes field.2) forms fields) :
    Presents forms Ignored (fields.map fun field => (some field.1, field.2)) := by
  induction h with
  | nil => exact ⟨by simp, by simp, by simp⟩
  | cons hfield hrest ih =>
    rename_i form field forms fields
    obtain ⟨hkey, hwrites⟩ := hfield
    rw [List.map_cons, List.nodup_cons] at hkeys
    have hsame : List.Forall₂ Eq (fields.map Prod.fst) (forms.map FieldForm.key) :=
      List.forall₂_map_left_iff.mpr (List.forall₂_map_right_iff.mpr
        (hrest.flip.imp fun _ _ h => h.1))
    rw [List.forall₂_eq_eq_eq] at hsame
    rw [List.map_cons, hkey]
    refine (ih hkeys.2).cons hwrites (fun other hother heq => ?_) fun member hmember heq => ?_
    · exact hkeys.1 (heq ▸ List.mem_map_of_mem hother)
    · obtain ⟨field', hfield', rfl⟩ := List.mem_map.mp hmember
      rw [← hsame, ← Option.some.inj heq] at hkeys
      exact hkeys.1 (List.mem_map_of_mem hfield')

/-! ## Decoding -/

/-- The fields of an object whose keys are texts. -/
theorem exists_fields_of_keys (h : ∀ member ∈ members, member.1.isSome) :
    ∃ fields : List (String × Json),
      members = fields.map fun field => (some field.1, field.2) := by
  induction members with
  | nil => exact ⟨[], rfl⟩
  | cons member members ih =>
    rw [List.forall_mem_cons] at h
    obtain ⟨fields, rfl⟩ := ih h.2
    obtain ⟨key, hkey⟩ := Option.isSome_iff_exists.mp h.1
    exact ⟨(key, member.2) :: fields, by rw [List.map_cons, ← hkey]⟩

/-- Reading members back as fields, with a function that does so for each of them. -/
theorem mapM_map_eq_some {f : StringValue × Json → Option (String × Json)}
    (hf : ∀ field : String × Json, f (some field.1, field.2) = some field)
    (fields : List (String × Json)) :
    (fields.map fun field => (some field.1, field.2)).mapM f = some fields := by
  induction fields with
  | nil => rfl
  | cons field fields ih =>
    rw [List.map_cons, List.mapM_cons, hf, ih]
    rfl

theorem ofMembers?_map (known : List String) (fields : List (String × Json)) :
    ofMembers? known (fields.map fun field => (some field.1, field.2))
      = if ((fields.filter fun field => known.contains field.1).map Prod.fst).Nodup then
          some (fields.filter fun field => known.contains field.1)
        else none := by
  rw [ofMembers?, mapM_map_eq_some fun _ => rfl]
  rfl

theorem valuesOf_map (key : String) (fields : List (String × Json)) :
    valuesOf key (fields.map fun field => (some field.1, field.2))
      = (fields.filter fun field => field.1 == key).map Prod.snd := by
  rw [valuesOf, List.filter_map, List.map_map]
  rfl

theorem lookup_eq_head? (key : String) (fields : List (String × Json)) :
    fields.lookup key = ((fields.filter fun field => field.1 == key).map Prod.snd).head? := by
  induction fields with
  | nil => rfl
  | cons field fields ih =>
    rw [List.lookup_cons, List.filter_cons, Bool.beq_comm]
    cases hkey : field.1 == key with
    | true => simp
    | false => simpa using ih

/-- Looking only at known keys, the values given for one of them are the same. -/
theorem map_snd_filter_known {known : List String} {key : String} (hkey : key ∈ known)
    (fields : List (String × Json)) :
    ((fields.filter fun field => known.contains field.1).filter fun field =>
        field.1 == key).map Prod.snd
      = valuesOf key (fields.map fun field => (some field.1, field.2)) := by
  rw [valuesOf_map, List.filter_filter]
  refine congrArg _ (List.filter_congr fun field _ => ?_)
  cases heq : field.1 == key with
  | false => rfl
  | true =>
    rw [beq_iff_eq.mp heq]
    simpa using hkey

/-- No known key is repeated if at most one value is given for each of them. -/
theorem nodup_filter_known {known : List String} {fields : List (String × Json)}
    (h : ∀ key ∈ known,
      (valuesOf key (fields.map fun field => (some field.1, field.2))).length ≤ 1) :
    ((fields.filter fun field => known.contains field.1).map Prod.fst).Nodup := by
  rw [List.nodup_iff_count_le_one]
  intro key
  by_cases hkey : key ∈ known
  · have hlength := h key hkey
    rw [← map_snd_filter_known hkey, List.length_map, ← List.countP_eq_length_filter] at hlength
    rwa [List.count, List.countP_map]
  · have habsent : key ∉ (fields.filter fun field => known.contains field.1).map Prod.fst := by
      intro hmem
      obtain ⟨field, hfield, rfl⟩ := List.mem_map.mp hmem
      exact hkey (by simpa using (List.mem_filter.mp hfield).2)
    rw [List.count_eq_zero_of_not_mem habsent]
    exact Nat.zero_le 1

/-- What a record holds for a field is as the form asks. -/
def Holds (r : Record) (form : FieldForm) : Prop :=
  form.Admits (List.lookup form.key r).toList

/-- **Decoding finds the fields**, wherever they stand and whatever stands between them. -/
theorem Presents.exists_record (h : Presents forms Ignored members) (known : List String)
    (hknown : known ⊆ forms.map FieldForm.key) :
    ∃ r, ofMembers? known members = some r ∧
      ∀ form ∈ forms, form.key ∈ known → r.Holds form := by
  obtain ⟨fields, rfl⟩ := exists_fields_of_keys h.keys
  have hnodup : ((fields.filter fun field => known.contains field.1).map Prod.fst).Nodup := by
    refine nodup_filter_known fun key hkey => ?_
    obtain ⟨form, hform, rfl⟩ := List.mem_map.mp (hknown hkey)
    exact (h.fields form hform).length_le_one
  refine ⟨_, by rw [ofMembers?_map, if_pos hnodup], fun form hform hkey => ?_⟩
  rw [Holds, lookup_eq_head?, map_snd_filter_known hkey]
  -- at most one value is given, and it is the first
  generalize hvalues : valuesOf form.key _ = values
  have hadmits := h.fields form hform
  rw [hvalues] at hadmits
  cases hadmits with
  | omitted homit => exact .omitted homit
  | given hwrites => exact .given hwrites

/-- Decoding finds all fields if it looks for all of them. -/
theorem Presents.exists_holds (h : Presents forms Ignored members) {known : List String}
    (hknown : forms.map FieldForm.key = known) :
    ∃ r, ofMembers? known members = some r ∧ forms.Forall r.Holds := by
  subst hknown
  obtain ⟨r, hr, hholds⟩ := h.exists_record _ (List.Subset.refl _)
  refine ⟨r, hr, List.forall_iff_forall_mem.mpr fun form hform => ?_⟩
  exact hholds form hform (List.mem_map_of_mem hform)

/-! ## Held values -/

variable {r : Record} {key : String} {writes : Json → Prop} {α : Type} {decode : Json → Option α}
  {a : α}

theorem Holds.need? (h : r.Holds (.required key writes))
    (hdecode : ∀ value, writes value → decode value = some a) : r.need? key decode = some a := by
  rw [Holds] at h
  rw [Record.need?]
  cases hlookup : List.lookup key r with
  | none =>
    simp only [FieldForm.required, hlookup] at h
    cases h with
    | omitted hfalse => exact hfalse.elim
  | some value =>
    simp only [FieldForm.required, hlookup] at h
    cases h with
    | given hwrites => exact hdecode value hwrites

theorem Holds.get? {default : α} (h : r.Holds (.defaulted key writes a default))
    (hdecode : ∀ value, writes value → decode value = some a) :
    r.get? key decode default = some a := by
  rw [Holds] at h
  rw [Record.get?]
  cases hlookup : List.lookup key r with
  | none =>
    simp only [FieldForm.defaulted, hlookup] at h
    cases h with
    | omitted hdefault => exact congrArg some hdefault.symm
  | some value =>
    simp only [FieldForm.defaulted, hlookup] at h
    cases h with
    | given hwrites => exact hdecode value hwrites

end Record

end DeprecatedApi
