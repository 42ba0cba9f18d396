import DeprecatedApi.Proofs.RuleLoading
import Mathlib.Data.List.Forall2
import Mathlib.Data.Nat.Find

/-!
# The first bad entry

Loading a list of entries gives a rule for each of them, or none at all. Entries are looked at
in turn, and the first bad one ends the loading: it is the one that is blamed, and what there
was to tell about the entries before it has been told by then.

* `Entry.IsBad`, `Entry.Reports`: what makes an entry bad, and which of its faults is reported.
* `Entry.toldFrom`: what there is to tell about a list of entries.
* `Entry.Carries`: the rule of an entry.
* `Entry.load_eq_error_iff`: an entry is refused exactly for the fault that is reported of it.
* `Entry.loadFrom_append`: loading past entries that are not bad.
* `RuleSet.Blames`: the first bad entry of a list, and its fault.
* `loading_is_all_or_nothing`: from the text of the rules to the entry that is blamed.
-/

namespace DeprecatedApi

namespace Entry

/-! ## Bad entries -/

/-- A field is not set: it is absent, or its text is empty. -/
def IsUnset (field : Option String) : Prop :=
  field = none ∨ field = some ""

theorem nonEmpty_eq_none_iff {field : Option String} : nonEmpty field = none ↔ IsUnset field := by
  cases field with
  | none => simp [nonEmpty, IsUnset]
  | some text => simp [nonEmpty, IsUnset]

theorem nonEmpty_eq_some_iff {field : Option String} {text : String} :
    nonEmpty field = some text ↔ field = some text ∧ text ≠ "" := by
  rw [nonEmpty, Option.filter_eq_some_iff]
  simp

/-- An entry is bad if it names no owner or no member, or if its arguments are all that it has
for a signature and they are no argument list. -/
def IsBad (e : Entry) : Prop :=
  e.fqcn = "" ∨ e.member = "" ∨
    (IsUnset e.signature ∧ ∃ list fault,
      e.arguments = some list ∧ list ≠ "" ∧ sourceArguments list = .error fault)

/-- What is reported of a bad entry: a missing owner before a missing member, and that before
bad arguments. -/
inductive Reports (e : Entry) : EntryFault → Prop where
  | emptyOwner (owner : e.fqcn = "") : Reports e .emptyOwner
  | emptyMember (owner : e.fqcn ≠ "") (member : e.member = "") : Reports e .emptyMember
  | badArguments {list : String} {fault : ArgumentList.Fault} (owner : e.fqcn ≠ "")
    (member : e.member ≠ "") (signature : IsUnset e.signature)
    (arguments : e.arguments = some list) (nonempty : list ≠ "")
    (refused : sourceArguments list = .error fault) : Reports e (.badArguments fault)

/-- Something is reported of the bad entries, and of no others. -/
theorem isBad_iff_exists_reports {e : Entry} : e.IsBad ↔ ∃ fault, e.Reports fault := by
  constructor
  · intro h
    by_cases howner : e.fqcn = ""
    · exact ⟨_, .emptyOwner howner⟩
    by_cases hmember : e.member = ""
    · exact ⟨_, .emptyMember howner hmember⟩
    rcases h with h | h | ⟨hsignature, list, fault, hlist, hne, hrefused⟩
    · exact absurd h howner
    · exact absurd h hmember
    · exact ⟨_, .badArguments howner hmember hsignature hlist hne hrefused⟩
  · rintro ⟨fault, h⟩
    cases h with
    | emptyOwner howner => exact .inl howner
    | emptyMember _ hmember => exact .inr (.inl hmember)
    | badArguments _ _ hsignature hlist hne hrefused =>
      exact .inr (.inr ⟨hsignature, _, _, hlist, hne, hrefused⟩)

/-! ## Loading one entry -/

/-- There is no signature only for arguments that stand alone and are no argument list. -/
theorem ruleSignature_eq_error_iff {e : Entry} {fault : ArgumentList.Fault} :
    e.ruleSignature = .error fault ↔ IsUnset e.signature ∧ ∃ list,
      e.arguments = some list ∧ list ≠ "" ∧ sourceArguments list = .error fault := by
  rw [ruleSignature, ← nonEmpty_eq_none_iff]
  cases hsignature : nonEmpty e.signature with
  | some signature => simp
  | none =>
    simp only [← and_assoc, ← nonEmpty_eq_some_iff]
    cases hlist : nonEmpty e.arguments with
    | none => simp
    | some list => cases hread : sourceArguments list <;> simp [hread, Except.map]

/-- **Step**: an entry is refused exactly for the fault that is reported of it. -/
theorem load_eq_error_iff {e : Entry} {index : Nat} {fault : EntryFault} :
    e.load index = .error fault ↔ e.Reports fault := by
  rw [load]
  by_cases howner : e.fqcn = ""
  · rw [if_pos howner]
    constructor
    · rintro ⟨⟩
      exact .emptyOwner howner
    · intro h
      cases h with
      | emptyOwner => rfl
      | emptyMember hne => exact absurd howner hne
      | badArguments hne => exact absurd howner hne
  rw [if_neg howner]
  by_cases hmember : e.member = ""
  · rw [if_pos hmember]
    constructor
    · rintro ⟨⟩
      exact .emptyMember howner hmember
    · intro h
      cases h with
      | emptyOwner h => exact absurd h howner
      | emptyMember => rfl
      | badArguments _ hne => exact absurd hmember hne
  rw [if_neg hmember]
  constructor
  · intro h
    split at h
    · rename_i refused hrefused
      cases h
      obtain ⟨hsignature, list, hlist, hne, hread⟩ := ruleSignature_eq_error_iff.mp hrefused
      exact .badArguments howner hmember hsignature hlist hne hread
    · cases h
  · intro h
    cases h with
    | emptyOwner h => exact absurd h howner
    | emptyMember _ h => exact absurd h hmember
    | badArguments _ _ hsignature hlist hne hread =>
      rw [ruleSignature_eq_error_iff.mpr ⟨hsignature, _, hlist, hne, hread⟩]

/-- The rule of an entry: all but the signature is as the entry has it. -/
structure Carries (e : Entry) (rule : Rule) : Prop where
  owner : rule.owner = e.fqcn
  member : rule.member = e.member
  migration : rule.migration = e.migration
  note : rule.note = e.note
  signature : e.ruleSignature = .ok rule.signature

/-- What there is to tell about the entry with the given index. -/
def told (index : Nat) (e : Entry) : List Event :=
  match e.ruleSignature with
  | .ok signature => e.events index signature
  | .error _ => []

/-- **Step**: an entry that is not bad has a rule, and all there is to tell about it is told. -/
theorem exists_load_of_not_isBad {e : Entry} (h : ¬ e.IsBad) (index : Nat) :
    ∃ rule, e.load index = .ok (rule, e.told index) ∧ e.Carries rule := by
  cases hload : e.load index with
  | error fault =>
    exact absurd (isBad_iff_exists_reports.mpr ⟨fault, load_eq_error_iff.mp hload⟩) h
  | ok loaded =>
    obtain ⟨rule, events⟩ := loaded
    obtain ⟨-, -, signature, hsignature, rfl, rfl⟩ := load_eq_ok_iff.mp hload
    have hcarries : e.Carries ⟨e.fqcn, e.member, signature, e.migration, e.note⟩ :=
      ⟨rfl, rfl, rfl, rfl, hsignature⟩
    refine ⟨_, ?_, hcarries⟩
    rw [told, hsignature]

/-! ## Loading entries in turn -/

/-- What there is to tell about entries, the first of which has the given index. -/
def toldFrom (index : Nat) : List Entry → List Event
  | [] => []
  | e :: rest => e.told index ++ toldFrom (index + 1) rest

/-- **Run**: entries that are not bad have their rules, and loading goes on behind them. -/
theorem loadFrom_append {entries : List Entry} (h : ∀ e ∈ entries, ¬ e.IsBad) (index : Nat) :
    ∃ rules : RuleSet, List.Forall₂ Carries entries rules ∧ ∀ rest : List Entry,
      (loadFrom index (entries ++ rest)).value
        = (loadFrom (index + entries.length) rest).value.map (rules ++ ·) ∧
      (loadFrom index (entries ++ rest)).events
        = toldFrom index entries ++ (loadFrom (index + entries.length) rest).events := by
  -- each entry moves the index on, so the claim is about all indices
  induction entries generalizing index with
  | nil =>
    refine ⟨[], .nil, fun rest => ⟨?_, rfl⟩⟩
    show (loadFrom index rest).value = (loadFrom index rest).value.map id
    cases (loadFrom index rest).value <;> rfl
  | cons e entries ih =>
    rw [List.forall_mem_cons] at h
    obtain ⟨rule, hload, hcarries⟩ := exists_load_of_not_isBad h.1 index
    obtain ⟨rules, hrules, hrest⟩ := ih h.2 (index + 1)
    refine ⟨rule :: rules, .cons hcarries hrules, fun rest => ?_⟩
    obtain ⟨hvalue, hevents⟩ := hrest rest
    have hindex : index + (e :: entries).length = index + 1 + entries.length := by
      rw [List.length_cons]
      omega
    rw [List.cons_append, loadFrom, hload, hindex]
    show Except.map _ (loadFrom (index + 1) (entries ++ rest)).value = _ ∧
      e.told index ++ (loadFrom (index + 1) (entries ++ rest)).events = _
    rw [hvalue, hevents, toldFrom, List.append_assoc]
    refine ⟨?_, rfl⟩
    cases (loadFrom (index + 1 + entries.length) rest).value <;> rfl

end Entry

/-! ## The entry that is blamed -/

namespace RuleSet

/-- The first bad entry of a list stands at the given index, and this is what is reported
of it. -/
structure Blames (entries : List Entry) (index : Nat) (fault : EntryFault) : Prop where
  reported : ∃ e, entries[index]? = some e ∧ e.Reports fault
  first : ∀ earlier < index, ∀ e, entries[earlier]? = some e → ¬ e.IsBad

/-- Unless all entries are good, one is blamed. -/
theorem exists_blames {entries : List Entry} (h : ¬ ∀ e ∈ entries, ¬ e.IsBad) :
    ∃ index fault, Blames entries index fault := by
  classical
  have hbad : ∃ (index : Nat) (e : Entry), entries[index]? = some e ∧ e.IsBad := by
    simp only [not_forall, not_not] at h
    obtain ⟨e, hmem, hbad⟩ := h
    obtain ⟨index, hindex⟩ := List.mem_iff_getElem?.mp hmem
    exact ⟨index, e, hindex, hbad⟩
  obtain ⟨e, hindex, hbad'⟩ := Nat.find_spec hbad
  obtain ⟨fault, hfault⟩ := Entry.isBad_iff_exists_reports.mp hbad'
  refine ⟨Nat.find hbad, fault, ⟨e, hindex, hfault⟩, ?_⟩
  intro earlier hearlier other hother hotherBad
  exact Nat.find_min hbad hearlier ⟨other, hother, hotherBad⟩

/-- The entries before the one that is blamed are not bad. -/
theorem Blames.forall_mem_take {entries : List Entry} {index : Nat} {fault : EntryFault}
    (h : Blames entries index fault) : ∀ e ∈ entries.take index, ¬ e.IsBad := by
  intro e he
  obtain ⟨earlier, hget⟩ := List.mem_iff_getElem?.mp he
  rw [List.getElem?_take] at hget
  split at hget
  · rename_i hlt
    exact h.first earlier hlt e hget
  · cases hget

/-- Entries that are all good are loaded, and told of one after the other. -/
theorem loadFrom_of_forall_not_isBad {entries : List Entry} (h : ∀ e ∈ entries, ¬ e.IsBad) :
    ∃ rules : RuleSet, List.Forall₂ Entry.Carries entries rules ∧
      (Entry.loadFrom 0 entries).value = .ok rules ∧
      (Entry.loadFrom 0 entries).events = Entry.toldFrom 0 entries := by
  obtain ⟨rules, hrules, hrest⟩ := Entry.loadFrom_append h 0
  obtain ⟨hvalue, hevents⟩ := hrest []
  rw [List.append_nil] at hvalue hevents
  refine ⟨rules, hrules, ?_, ?_⟩
  · rw [hvalue]
    show Except.ok (rules ++ []) = _
    rw [List.append_nil]
  · rw [hevents]
    exact List.append_nil _

/-- The entry that is blamed ends the loading, and nothing is told of it or of later ones. -/
theorem Blames.loadFrom {entries : List Entry} {index : Nat} {fault : EntryFault}
    (h : Blames entries index fault) :
    (Entry.loadFrom 0 entries).value = .error (.badEntry index fault) ∧
      (Entry.loadFrom 0 entries).events = Entry.toldFrom 0 (entries.take index) := by
  obtain ⟨e, hget, hreports⟩ := h.reported
  obtain ⟨hlt, hentry⟩ := List.getElem?_eq_some_iff.mp hget
  have hsplit : entries = entries.take index ++ e :: entries.drop (index + 1) := by
    rw [← hentry, List.getElem_cons_drop, List.take_append_drop]
  have hlength : (entries.take index).length = index := by
    rw [List.length_take]
    omega
  have hload : Entry.loadFrom index (e :: entries.drop (index + 1))
      = ⟨.error (.badEntry index fault), []⟩ := by
    rw [Entry.loadFrom, Entry.load_eq_error_iff.mpr hreports]
    rfl
  obtain ⟨rules, -, hrest⟩ := Entry.loadFrom_append h.forall_mem_take 0
  obtain ⟨hvalue, hevents⟩ := hrest (e :: entries.drop (index + 1))
  rw [← hsplit, hlength, Nat.zero_add, hload] at hvalue hevents
  exact ⟨hvalue, hevents.trans (List.append_nil _)⟩

/-! ## Texts -/

/-- **Success**: entries that are all good give their rules, in order, and what is told of them
is followed by their number. -/
theorem parse_of_forall_not_isBad {text : String} {entries : List Entry}
    (h : entries? text = some entries) (hgood : ∀ e ∈ entries, ¬ e.IsBad) :
    ∃ rules : RuleSet, List.Forall₂ Entry.Carries entries rules ∧
      (parse text).value = .ok rules ∧
      (parse text).events = Entry.toldFrom 0 entries ++ [.rulesLoaded entries.length] := by
  obtain ⟨rules, hcarries, hvalue, hevents⟩ := loadFrom_of_forall_not_isBad hgood
  refine ⟨rules, hcarries, ?_, ?_⟩
  · rw [parse_eq_load h, load, Logged.value_bind, hvalue]
    rfl
  · rw [parse_eq_load h, load, Logged.events_bind, hvalue, hevents, hcarries.length_eq]
    rfl

/-- **Failure**: the first bad entry is the error, and only the entries before it are told of. -/
theorem parse_of_blames {text : String} {entries : List Entry} (h : entries? text = some entries)
    {index : Nat} {fault : EntryFault} (hblames : Blames entries index fault) :
    (parse text).value = .error (.badEntry index fault) ∧
      (parse text).events = Entry.toldFrom 0 (entries.take index) := by
  obtain ⟨hvalue, hevents⟩ := hblames.loadFrom
  constructor
  · rw [parse_eq_load h, load, Logged.value_bind, hvalue]
    rfl
  · rw [parse_eq_load h, load, Logged.events_bind, hvalue, hevents]
    exact List.append_nil _

theorem parseOrEmpty_of_ok {text : String} {rules : RuleSet}
    (h : (parse text).value = .ok rules) :
    (parseOrEmpty (some text)).value = rules ∧
      (parseOrEmpty (some text)).events = (parse text).events := by
  rw [parseOrEmpty, Logged.value_bind, Logged.events_bind, h]
  exact ⟨rfl, List.append_nil _⟩

theorem parseOrEmpty_of_error {text : String} {fault : RuleFault}
    (h : (parse text).value = .error fault) :
    (parseOrEmpty (some text)).value = [] ∧
      (parseOrEmpty (some text)).events = (parse text).events ++ [.rulesRefused fault.toError] := by
  rw [parseOrEmpty, Logged.value_bind, Logged.events_bind, h]
  exact ⟨rfl, rfl⟩

end RuleSet

/-! ## Main result -/

/-- **Loading is all or nothing, and blames the first bad entry.** Take a text that decodes to
entries. It loads exactly if none of them is bad. Then it has one rule for each entry, in order,
with owner, member, migration and note of the entry, and what is told of the entries, one after
the other, is followed by their number. Otherwise the error names the index of the first bad
entry and what is reported of it, and only the entries before that one have been told of. Whoever
makes do without rules gets the same, or no rules and one more warning, which holds the error. -/
theorem loading_is_all_or_nothing {text : String} {entries : List Entry}
    (h : RuleSet.entries? text = some entries) :
    ((∃ rules, (RuleSet.parse text).value = .ok rules) ↔ ∀ e ∈ entries, ¬ e.IsBad) ∧
    (∀ rules, (RuleSet.parse text).value = .ok rules →
      List.Forall₂ Entry.Carries entries rules ∧
      (RuleSet.parse text).events = Entry.toldFrom 0 entries ++ [.rulesLoaded entries.length] ∧
      (RuleSet.parseOrEmpty (some text)).value = rules ∧
      (RuleSet.parseOrEmpty (some text)).events = (RuleSet.parse text).events) ∧
    (∀ error, (RuleSet.parse text).value = .error error →
      ∃ index fault, RuleSet.Blames entries index fault ∧ error = .badEntry index fault ∧
        error.toError.message = "Invalid deprecated API configuration: "
          ++ ("entry " ++ toString index ++ ": " ++ fault.message) ∧
        (RuleSet.parse text).events = Entry.toldFrom 0 (entries.take index) ∧
        (RuleSet.parseOrEmpty (some text)).value = [] ∧
        ∃ warning : Event, warning.level = .warn ∧
          warning.fields = [("error", .text error.toError.message)] ∧
          (RuleSet.parseOrEmpty (some text)).events = (RuleSet.parse text).events ++ [warning]) := by
  by_cases hgood : ∀ e ∈ entries, ¬ e.IsBad
  · obtain ⟨rules, hcarries, hvalue, hevents⟩ := RuleSet.parse_of_forall_not_isBad h hgood
    refine ⟨⟨fun _ => hgood, fun _ => ⟨rules, hvalue⟩⟩, ?_, ?_⟩
    · intro loaded hloaded
      obtain rfl : rules = loaded := Except.ok.inj (hvalue.symm.trans hloaded)
      exact ⟨hcarries, hevents, RuleSet.parseOrEmpty_of_ok hvalue⟩
    · intro error herror
      cases hvalue.symm.trans herror
  · obtain ⟨index, fault, hblames⟩ := RuleSet.exists_blames hgood
    obtain ⟨hvalue, hevents⟩ := RuleSet.parse_of_blames h hblames
    refine ⟨⟨?_, fun hall => absurd hall hgood⟩, ?_, ?_⟩
    · rintro ⟨rules, hrules⟩
      cases hvalue.symm.trans hrules
    · intro rules hrules
      cases hvalue.symm.trans hrules
    · intro error herror
      obtain rfl : .badEntry index fault = error := Except.error.inj (hvalue.symm.trans herror)
      obtain ⟨hempty, hwarned⟩ := RuleSet.parseOrEmpty_of_error hvalue
      exact ⟨index, fault, hblames, rfl, rfl, hevents, hempty, _, rfl, rfl, hwarned⟩

/-- A rule that can be loaded, with something to tell about it, and two that cannot: one without
a member whose arguments are no list either, and one without an owner. -/
def twoBadEntriesText : String :=
  "[\x7b\"fqcn\":\"a.B\",\"member\":\"m\",\"signature\":\"m(int)\"\x7d,"
    ++ "\x7b\"fqcn\":\"a.B\",\"member\":\"\",\"arguments\":\"int\"\x7d,"
    ++ "\x7b\"fqcn\":\"\",\"member\":\"m\",\"signature\":\"n\"\x7d]"

/-- The second entry is blamed for its missing member; the first has been told of, the third has
not. -/
theorem second_entry_is_blamed_of_twoBadEntriesText :
    ∃ entries : List Entry, RuleSet.entries? twoBadEntriesText = some entries ∧
      RuleSet.Blames entries 1 .emptyMember ∧
      (RuleSet.parse twoBadEntriesText).events = [.deadSignature 0 "m(int)"] ∧
      (RuleSet.parseOrEmpty (some twoBadEntriesText)).value = [] := by
  let entries : List Entry := [⟨"a.B", "m", some "m(int)", none, none, none⟩,
    ⟨"a.B", "", none, some "int", none, none⟩, ⟨"", "m", some "n", none, none, none⟩]
  have hentries : RuleSet.entries? twoBadEntriesText = some entries := by
    decide +kernel
  have hparse : (RuleSet.parse twoBadEntriesText).value = .error (.badEntry 1 .emptyMember) := by
    rw [RuleSet.value_parse hentries]
    decide
  obtain ⟨-, -, hfailure⟩ := loading_is_all_or_nothing hentries
  obtain ⟨index, fault, hblames, herror, -, hevents, hempty, -⟩ := hfailure _ hparse
  obtain ⟨rfl, rfl⟩ : 1 = index ∧ .emptyMember = fault := RuleFault.badEntry.inj herror
  have htold : Entry.toldFrom 0 (entries.take 1) = [.deadSignature 0 "m(int)"] := by
    decide
  exact ⟨entries, hentries, hblames, hevents.trans htold, hempty⟩

end DeprecatedApi
