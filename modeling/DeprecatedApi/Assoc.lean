/-!
# Association lists

Named values in order, as directories and tables hold them; `List.lookup` finds the
value of a name.

* `Assoc.set`: changes the value of a name, in its place.
* `Assoc.remove`: without a name.
-/

namespace DeprecatedApi

namespace Assoc

variable {α : Type}

/-- Puts a value in the place of the one with its name, or at the end. -/
def set (name : String) (value : α) : List (String × α) → List (String × α)
  | [] => [(name, value)]
  | entry :: rest =>
    if entry.1 = name then (name, value) :: rest else entry :: set name value rest

/-- Removes all values with a name. -/
def remove (name : String) (entries : List (String × α)) : List (String × α) :=
  entries.filter fun entry => entry.1 != name

@[simp] theorem lookup_set_self (name : String) (value : α) (entries : List (String × α)) :
    (set name value entries).lookup name = some value := by
  induction entries with
  | nil => simp [set]
  | cons entry rest ih =>
    obtain ⟨key, old⟩ := entry
    by_cases h : key = name
    · simp [set, h]
    · have hne : (name == key) = false := by simpa using Ne.symm h
      simp [set, h, List.lookup_cons, hne, ih]

theorem lookup_set_of_ne {name other : String} (h : other ≠ name) (value : α)
    (entries : List (String × α)) :
    (set name value entries).lookup other = entries.lookup other := by
  have hne : (other == name) = false := by simpa using h
  induction entries with
  | nil => simp [set, List.lookup_cons, hne]
  | cons entry rest ih =>
    obtain ⟨key, old⟩ := entry
    by_cases he : key = name
    · subst he
      simp [set, List.lookup_cons, hne]
    · simp only [set, he, if_false, List.lookup_cons, ih]

end Assoc

end DeprecatedApi
