import DeprecatedApi.Analysis
import DeprecatedApi.Proofs.RuleLoading

/-!
# What is told before the first fact file

An analysis first reads its configuration and its rules. Whatever goes wrong there, it
tells of the configuration and the rules only: a fact file that is skipped, a use that is
found and the end of an analysis are told later.

* `Event.isPreparation`: events about the configuration or the rules.
* `Logged.Prepares`: computations that tell of nothing else.
* `Settings.prepares_config`, `Settings.prepares_rulesUnder`: the first steps of an
  analysis are such.
-/

namespace DeprecatedApi

/-! ## Events about the configuration and the rules -/

/-- Whether an event tells of the configuration or of the rules. -/
def Event.isPreparation : Event → Bool
  | .factFileSkipped .. | .usage .. | .analysisComplete .. => false
  | _ => true

namespace Logged

variable {α β : Type}

/-- All that a computation tells is about the configuration or the rules. -/
def Prepares (x : Logged α) : Prop :=
  ∀ event ∈ x.events, event.isPreparation

theorem prepares_pure (a : α) : (pure a : Logged α).Prepares := by
  intro event h
  cases h

theorem prepares_bind {x : Logged α} {f : α → Logged β} (hx : x.Prepares)
    (hf : (f x.value).Prepares) : (x >>= f).Prepares := by
  intro event h
  rw [events_bind, List.mem_append] at h
  exact h.elim (hx event) (hf event)

theorem prepares_tell {event : Event} (h : event.isPreparation) (a : α) :
    (tell event >>= fun _ => pure a).Prepares := by
  intro told htold
  rw [List.mem_singleton.mp htold]
  exact h

end Logged

/-! ## Configuration and rule source -/

theorem Settings.prepares_config (settings : Settings) (ws : Workspace) (root : String) :
    (settings.config ws root).Prepares := by
  rw [config]
  split
  · split
    · exact Logged.prepares_pure _
    · exact Logged.prepares_tell rfl _
  · exact Logged.prepares_pure _

theorem Config.prepares_rulesText (config : Config) (ws : Workspace) (root : String) :
    (config.rulesText ws root).Prepares := by
  rw [rulesText.eq_def]
  split
  · exact Logged.prepares_pure _
  · exact Logged.prepares_pure _
  · split
    · exact Logged.prepares_pure _
    · exact Logged.prepares_tell rfl _

theorem Settings.prepares_rulesSource (settings : Settings) (config : Option Config)
    (ws : Workspace) (root : String) : (settings.rulesSource config ws root).Prepares := by
  rw [rulesSource.eq_def]
  split
  · exact Logged.prepares_pure _
  · split
    · exact Logged.prepares_pure _
    · exact Logged.prepares_tell rfl _
  · exact Config.prepares_rulesText _ ws root
  · exact Logged.prepares_pure _

/-! ## Rules -/

/-- What is told about an entry is about rules. -/
theorem Entry.isPreparation_of_mem_events {entry : Entry} {index : Nat} {signature : Option String}
    {event : Event} (h : event ∈ entry.events index signature) : event.isPreparation := by
  rcases mem_events_cases h with rfl | ⟨_, _, rfl⟩ | ⟨_, _, _, rfl⟩ <;> rfl

theorem Entry.prepares_loadFrom (index : Nat) (entries : List Entry) :
    (loadFrom index entries).Prepares := by
  induction entries generalizing index with
  | nil => exact Logged.prepares_pure _
  | cons entry rest ih =>
    rw [loadFrom]
    split
    · exact Logged.prepares_pure _
    next rule events hload =>
      obtain ⟨-, -, signature, -, -, rfl⟩ := load_eq_ok_iff.mp hload
      intro event h
      rcases List.mem_append.mp h with hhere | hlater
      · exact isPreparation_of_mem_events hhere
      · exact ih (index + 1) event hlater

theorem RuleSet.prepares_parse (text : String) : (parse text).Prepares := by
  rw [parse]
  split
  · exact Logged.prepares_pure _
  · split
    · exact Logged.prepares_pure _
    · refine Logged.prepares_bind (Entry.prepares_loadFrom 0 _) ?_
      split
      · exact Logged.prepares_pure _
      · exact Logged.prepares_tell rfl _

theorem RuleSet.prepares_parseOrEmpty (text : Option String) : (parseOrEmpty text).Prepares := by
  cases text with
  | none => exact Logged.prepares_pure _
  | some text =>
    refine Logged.prepares_bind (prepares_parse text) ?_
    split
    · exact Logged.prepares_pure _
    · exact Logged.prepares_tell rfl _

/-- All that is told while the rules are loaded is about rules. -/
theorem Settings.prepares_rulesUnder (settings : Settings) (config : Option Config)
    (ws : Workspace) (root : String) : (settings.rulesUnder config ws root).Prepares :=
  Logged.prepares_bind (settings.prepares_rulesSource config ws root)
    (RuleSet.prepares_parseOrEmpty _)

end DeprecatedApi
