import DeprecatedApi.Proofs.DescriptorGrammar
import DeprecatedApi.Rule.Loading
import Mathlib.Data.List.Basic

/-!
# Loading rules, entry by entry

* `RuleSet.entries?_of_allBlank`: a blank text has no entries at all.
* `RuleSet.parse_eq_load`, `RuleSet.value_parse`: a text is loaded as its entries are.
* `Entry.load_eq_ok_iff`: when an entry loads, its rule and what is told about it.
* `Entry.mem_events_cases`: what can be told about an entry.
* `Entry.getElem?_of_loadFrom`: the rule of an entry stands at the place of the entry.
-/

namespace DeprecatedApi

/-! ## Blank texts -/

/-- The code points of blank characters lie outside those of the digits. -/
theorem Text.isDigit_of_isBlank {c : Char} (h : isBlank c) : c.isDigit = false := by
  rw [Bool.eq_false_iff]
  intro hdigit
  rw [Char.isDigit, Bool.and_eq_true, decide_eq_true_eq, decide_eq_true_eq] at hdigit
  have hlow : 48 ≤ c.toNat := hdigit.1
  have hhigh : c.toNat ≤ 57 := hdigit.2
  obtain ⟨range, hrange, hin⟩ := List.any_eq_true.mp h
  rw [Bool.and_eq_true, decide_eq_true_eq, decide_eq_true_eq] at hin
  -- no range of blank characters reaches into the digits
  have hapart : ∀ range ∈ blankRanges, range.2 < 48 ∨ 57 < range.1 := by decide
  have := hapart range hrange
  omega

/-- A blank character begins neither a number nor a name. -/
theorem Scalar.ofWord?_of_isBlank {c : Char} (h : Text.isBlank c) (rest : List Char) :
    Scalar.ofWord? (c :: rest) = none := by
  have hne : ∀ d : Char, ¬ Text.isBlank d → c ≠ d := fun d hd heq => hd (heq ▸ h)
  have hnull : c :: rest ≠ "null".toList := fun heq =>
    hne 'n' (by decide) (List.cons.inj heq).1
  have htrue : c :: rest ≠ "true".toList := fun heq =>
    hne 't' (by decide) (List.cons.inj heq).1
  have hfalse : c :: rest ≠ "false".toList := fun heq =>
    hne 'f' (by decide) (List.cons.inj heq).1
  have hminus : c ≠ '-' := hne '-' (by decide)
  have hnumber : Number.parse? (c :: rest) = none := by
    simp [Number.parse?, hminus, Text.isDigit_of_isBlank h, Number.isWhole]
  rw [Scalar.ofWord?, if_neg hnull, if_neg htrue, if_neg hfalse, hnumber, Option.map_none]

namespace Lexer

/-- What a reader of blank characters is left with: no token, and at most a word that
begins with a blank character. -/
def State.IsIdle (s : State) : Prop :=
  s.tokens = [] ∧
    (s.mode = .between ∨ ∃ c rest, s.mode = .word (rest ++ [c]) ∧ Text.isBlank c)

theorem endWord_of_isBlank {c : Char} (h : Text.isBlank c) (tokens : List Token)
    (rest : List Char) : endWord tokens (rest ++ [c]) = none := by
  rw [endWord, List.reverse_append, List.reverse_singleton, List.singleton_append,
    Scalar.ofWord?_of_isBlank h, Option.map_none]

theorem punctuation?_of_isBlank {c : Char} (h : Text.isBlank c) : punctuation? c = none := by
  have hne : ∀ d : Char, ¬ Text.isBlank d → c ≠ d := fun d hd heq => hd (heq ▸ h)
  simp [punctuation?, hne '[' (by decide), hne ']' (by decide), hne '\x7b' (by decide),
    hne '\x7d' (by decide), hne ',' (by decide), hne ':' (by decide)]

/-- A blank character leaves the reader idle, or stops it. -/
theorem State.IsIdle.step {s t : State} {c : Char} (hs : s.IsIdle) (hc : Text.isBlank c)
    (h : Lexer.step s c = some t) : t.IsIdle := by
  obtain ⟨tokens, mode⟩ := s
  obtain ⟨rfl, rfl | ⟨d, rest, rfl, hd⟩⟩ : tokens = [] ∧
      (mode = .between ∨ ∃ d rest, mode = .word (rest ++ [d]) ∧ Text.isBlank d) := hs
  · have hquote : c ≠ '"' := fun heq => absurd (heq ▸ hc) (by decide)
    simp only [Lexer.step, fromBetween, punctuation?_of_isBlank hc, if_neg hquote,
      Option.some.injEq] at h
    split at h
    · exact h ▸ ⟨rfl, .inl rfl⟩
    · exact h ▸ ⟨rfl, .inr ⟨c, [], rfl, hc⟩⟩
  · simp only [Lexer.step, endWord_of_isBlank hd, Option.map_none] at h
    split at h
    · cases h
    · rw [← Option.some.inj h]
      exact ⟨rfl, .inr ⟨d, c :: rest, rfl, hd⟩⟩

/-- Blank characters leave the reader idle, or stop it. -/
theorem State.IsIdle.foldlM {cs : List Char} (hcs : ∀ c ∈ cs, Text.isBlank c) {s t : State}
    (hs : s.IsIdle) (h : cs.foldlM Lexer.step s = some t) : t.IsIdle := by
  induction cs generalizing s with
  | nil => exact Option.some.inj h ▸ hs
  | cons c cs ih =>
    rw [List.forall_mem_cons] at hcs
    rw [List.foldlM_cons] at h
    obtain ⟨u, hu, hrest⟩ := Option.bind_eq_some_iff.mp h
    exact ih hcs.2 (hs.step hcs.1 hu) hrest

/-- An idle reader has no tokens to show. -/
theorem State.IsIdle.result? {s : State} (hs : s.IsIdle) {tokens : List Token}
    (h : Lexer.result? s = some tokens) : tokens = [] := by
  obtain ⟨read, mode⟩ := s
  obtain ⟨rfl, rfl | ⟨c, rest, rfl, hc⟩⟩ : read = [] ∧
      (mode = .between ∨ ∃ c rest, mode = .word (rest ++ [c]) ∧ Text.isBlank c) := hs
  · exact (Option.some.inj h).symm
  · simp only [Lexer.result?, endWord_of_isBlank hc, Option.map_none] at h
    cases h

end Lexer

/-- A blank text has no entries. -/
theorem RuleSet.entries?_of_allBlank {text : String} (h : Text.allBlank text) :
    entries? text = none := by
  rw [entries?]
  cases hscan : Token.scan? text.toList with
  | none => rw [Json.parse?, hscan]; rfl
  | some tokens =>
    obtain ⟨s, hs, hresult⟩ := Option.bind_eq_some_iff.mp hscan
    have hidle : s.IsIdle :=
      Lexer.State.IsIdle.foldlM (List.all_eq_true.mp h) ⟨rfl, .inl rfl⟩ hs
    have hnil : tokens = [] := hidle.result? hresult
    rw [Json.parse?, hscan, hnil]
    rfl

/-! ## One entry -/

namespace Entry

/-- An entry loads if it names an owner and a member and its argument list, if it has to be
read, is one. -/
theorem load_eq_ok_iff {e : Entry} {index : Nat} {rule : Rule} {events : List Event} :
    e.load index = .ok (rule, events) ↔
      e.fqcn ≠ "" ∧ e.member ≠ "" ∧ ∃ signature, e.ruleSignature = .ok signature ∧
        rule = ⟨e.fqcn, e.member, signature, e.migration, e.note⟩ ∧
        events = e.events index signature := by
  rw [load]
  by_cases howner : e.fqcn = ""
  · simp [howner]
  by_cases hmember : e.member = ""
  · simp [howner, hmember]
  rw [if_neg howner, if_neg hmember]
  cases hsignature : e.ruleSignature with
  | error fault => simp
  | ok signature => simp [howner, hmember, eq_comm]

/-- What can be told about an entry: that it has both forms, that its signature was an argument
list, or that its signature is no descriptor. -/
theorem mem_events_cases {e : Entry} {index : Nat} {signature : Option String} {event : Event}
    (h : event ∈ e.events index signature) :
    event = .bothForms index e.fqcn e.member ∨
      (∃ source target, event = .converted index source target) ∨
      ∃ text, signature = some text ∧ isDescriptor text = false ∧
        event = .deadSignature index text := by
  rw [events, List.mem_append, List.mem_append] at h
  rcases h with (hboth | hconverted) | hdead
  · rw [bothFormsEvents] at hboth
    split at hboth
    · exact .inl (List.mem_singleton.mp hboth)
    · cases hboth
  · cases hsignature : nonEmpty e.signature with
    | none => simp [hsignature] at hconverted
    | some text =>
      rw [hsignature, Option.map_some, Option.getD_some, conversionEvents] at hconverted
      split at hconverted
      · cases hconverted
      · split at hconverted
        · exact .inr (.inl ⟨_, _, List.mem_singleton.mp hconverted⟩)
        · cases hconverted
  · rw [deadSignatureEvents.eq_def] at hdead
    split at hdead
    · cases hdead
    · split at hdead
      · cases hdead
      · rename_i text hform
        exact .inr (.inr ⟨text, rfl, by simpa using hform, List.mem_singleton.mp hdead⟩)

/-- What an argument list becomes is not empty. -/
theorem ne_empty_of_sourceArguments {list descriptor : String}
    (h : sourceArguments list = .ok descriptor) : descriptor ≠ "" := by
  rw [sourceArguments] at h
  cases hparse : ArgumentList.parse list with
  | error fault =>
    rw [hparse] at h
    cases h
  | ok m =>
    rw [hparse] at h
    cases h
    exact m.render_ne_empty

theorem ne_empty_of_nonEmpty {given : Option String} {text : String}
    (h : nonEmpty given = some text) : text ≠ "" := by
  have hkept := (Option.filter_eq_some_iff.mp h).2
  simpa using hkept

theorem normalize_ne_empty {signature : String} (h : signature ≠ "") :
    normalize signature ≠ "" := by
  rw [normalize]
  split
  · exact h
  · split
    · rename_i descriptor hlist
      exact ne_empty_of_sourceArguments hlist
    · exact h

/-- The signature of a loaded rule is not empty. -/
theorem ruleSignature_ne_empty {e : Entry} {signature : String}
    (h : e.ruleSignature = .ok (some signature)) : signature ≠ "" := by
  rw [ruleSignature] at h
  cases hgiven : nonEmpty e.signature with
  | some given =>
    rw [hgiven] at h
    cases h
    exact normalize_ne_empty (ne_empty_of_nonEmpty hgiven)
  | none =>
    rw [hgiven] at h
    cases hlist : nonEmpty e.arguments with
    | none =>
      rw [hlist] at h
      cases h
    | some list =>
      rw [hlist] at h
      cases hsource : sourceArguments list with
      | error fault => simp [hsource, Except.map] at h
      | ok descriptor =>
        simp only [hsource, Except.map, Except.ok.injEq, Option.some.injEq] at h
        exact h ▸ ne_empty_of_sourceArguments hsource

end Entry

/-! ## Places -/

/-- A text with entries is not blank, and is loaded as its entries are. -/
theorem RuleSet.parse_eq_load {text : String} {entries : List Entry} (h : entries? text = some entries) :
    parse text = load entries := by
  have hblank : ¬ Text.allBlank text := by
    intro hb
    rw [entries?_of_allBlank hb] at h
    cases h
  rw [parse, if_neg hblank, h]

/-- The rules of a text are those of its entries. -/
theorem RuleSet.value_parse {text : String} {entries : List Entry}
    (h : entries? text = some entries) :
    (parse text).value = (Entry.loadFrom 0 entries).value := by
  rw [parse_eq_load h, load, Logged.value_bind]
  cases (Entry.loadFrom 0 entries).value with
  | error fault => rfl
  | ok rules => rfl

/-- Loading succeeds on a list if it does on the first entry and on the others. -/
theorem Entry.value_loadFrom_cons_eq_ok_iff {first : Entry} {rest : List Entry} {index : Nat}
    {rules : RuleSet} :
    (loadFrom index (first :: rest)).value = .ok rules ↔
      ∃ rule events later, first.load index = .ok (rule, events) ∧
        (loadFrom (index + 1) rest).value = .ok later ∧ rules = rule :: later := by
  rw [loadFrom]
  cases hload : first.load index with
  | error fault => simp
  | ok loaded =>
    obtain ⟨rule, events⟩ := loaded
    cases hlater : (loadFrom (index + 1) rest).value with
    | error fault => simp [hlater, Except.map]
    | ok later => simp [hlater, Except.map, eq_comm]

/-- Each rule is that of an entry. -/
theorem Entry.exists_of_mem_loadFrom {entries : List Entry} {index : Nat} {rules : RuleSet}
    (h : (loadFrom index entries).value = .ok rules) {rule : Rule} (hrule : rule ∈ rules) :
    ∃ e ∈ entries, ∃ i events, e.load i = .ok (rule, events) := by
  induction entries generalizing index rules with
  | nil =>
    cases h
    cases hrule
  | cons first rest ih =>
    obtain ⟨head, events, later, hload, hlater, rfl⟩ := value_loadFrom_cons_eq_ok_iff.mp h
    rcases List.mem_cons.mp hrule with rfl | hrule
    · exact ⟨first, List.mem_cons_self, index, events, hload⟩
    · obtain ⟨e, he, found⟩ := ih hlater hrule
      exact ⟨e, List.mem_cons_of_mem _ he, found⟩

/-- The rule of an entry stands at the place of the entry. -/
theorem Entry.getElem?_of_loadFrom {entries : List Entry} {index : Nat} {rules : RuleSet}
    (h : (loadFrom index entries).value = .ok rules) {i : Nat} {e : Entry}
    (hi : entries[i]? = some e) :
    ∃ rule events, e.load (index + i) = .ok (rule, events) ∧ rules[i]? = some rule := by
  induction entries generalizing index rules i with
  | nil => simp at hi
  | cons first rest ih =>
    obtain ⟨rule, events, later, hload, hlater, rfl⟩ := value_loadFrom_cons_eq_ok_iff.mp h
    cases i with
    | zero =>
      rw [List.getElem?_cons_zero] at hi
      exact ⟨rule, events, Option.some.inj hi ▸ hload, rfl⟩
    | succ i =>
      rw [List.getElem?_cons_succ] at hi ⊢
      rw [Nat.add_comm i 1, ← Nat.add_assoc]
      exact ih hlater hi

end DeprecatedApi
