import DeprecatedApi.Proofs.ArgumentPieces
import DeprecatedApi.Proofs.DeadSignatures

/-!
# Descriptors that are emitted

Descriptors are written from types and from argument lists, and recognized by a reader of
their own. The reader accepts all that is written, and finds the end of the parameters where
the writer put it, as long as no class path holds a character that ends it.

* `MethodDescriptor.IsWellFormed.isDescriptor_render`: the text of a well-formed descriptor is
  recognized.
* `ArgumentList.isWellFormed_of_parse`: an argument list denotes a well-formed descriptor.
* `emitted_descriptors_are_recognized`: what types and argument lists are written as.
-/

namespace DeprecatedApi

/-- The text of a well-formed descriptor is recognized. -/
theorem MethodDescriptor.IsWellFormed.isDescriptor_render {m : MethodDescriptor}
    (h : m.IsWellFormed) : isDescriptor m.render = true := by
  rw [isDescriptor, parse?_render h]
  rfl

/-- An argument list has no result, and its parameters are well-formed if the element names of
its pieces do not hold the characters that end a class path. -/
theorem ArgumentList.isWellFormed_of_parse {text : String} {inner : List Char}
    {m : MethodDescriptor} (hinner : Text.trimChars text.toList = '(' :: inner ++ [')'])
    (hpieces : ∀ piece, IsPiece inner piece → ∀ c ∈ TypeName.elementName piece, isPathChar c)
    (h : parse text = .ok m) : m.IsWellFormed ∧ m.result = none := by
  obtain ⟨inner', hinner', -, rfl⟩ := parse_eq_ok_iff.mp h
  obtain rfl : inner = inner' := by
    rw [hinner, List.cons_append, List.cons_append, List.cons.injEq] at hinner'
    exact List.append_cancel_right hinner'.2
  refine ⟨⟨?_, by simp⟩, rfl⟩
  intro t ht
  obtain ⟨part, hpart, rfl⟩ := List.mem_map.mp ht
  have hpath := hpieces part (mem_parts_iff.mp hpart).2
  exact ⟨TypeDescriptor.noConfusion, TypeName.isWellFormed_fieldType hpath 0⟩

/-- **What is written is recognized.** The descriptors of methods, constructors and parameter
lists with legal types are recognized as such. The parameter section of a method's descriptor is
the descriptor of its parameters, which names no result, while that of the method does. The
descriptor of an argument list is recognized too, and names no result. -/
theorem emitted_descriptors_are_recognized :
    (∀ (parameters : List HostType) (result : HostType), (∀ t ∈ parameters, t.IsLegal) →
      result.IsLegal ∨ result.descriptor = .void →
      isDescriptor (methodDescriptor parameters result) ∧
      isDescriptor (constructorDescriptor parameters) ∧
      isDescriptor (parameterDescriptor parameters) ∧
      parameterSection? (methodDescriptor parameters result)
        = some (parameterDescriptor parameters) ∧
      isParameterOnly (parameterDescriptor parameters) ∧
      ¬ isParameterOnly (methodDescriptor parameters result)) ∧
    (∀ (text descriptor : String) (inner : List Char),
      Text.trimChars text.toList = '(' :: inner ++ [')'] →
      (∀ piece, ArgumentList.IsPiece inner piece →
        ∀ c ∈ TypeName.elementName piece, isPathChar c) →
      sourceArguments text = .ok descriptor →
      isDescriptor descriptor ∧ isParameterOnly descriptor) := by
  constructor
  · intro parameters result hparameters hresult
    have hmethod := MethodDescriptor.isWellFormed_ofHost hparameters hresult
    have hconstructor :=
      MethodDescriptor.isWellFormed_ofHost hparameters (.inr rfl : HostType.void.IsLegal ∨ _)
    refine ⟨hmethod.isDescriptor_render, hconstructor.isDescriptor_render,
      hmethod.parametersOnly.isDescriptor_render,
      MethodDescriptor.parameterSection?_render hmethod.not_mem_path, ?_, ?_⟩
    · exact MethodDescriptor.isParameterOnly_render _
    · rw [methodDescriptor, MethodDescriptor.isParameterOnly_render]
      exact Bool.false_ne_true
  · intro text descriptor inner hinner hpieces h
    obtain ⟨m, hparse, rfl⟩ := sourceArguments_eq_ok_iff.mp h
    obtain ⟨hwell, hresult⟩ := ArgumentList.isWellFormed_of_parse hinner hpieces hparse
    refine ⟨hwell.isDescriptor_render, ?_⟩
    rw [MethodDescriptor.isParameterOnly_render, hresult]
    rfl

/-- Parameters without a name, with nothing but markers for a name, with an array of `void`, and
with type arguments that hold a semicolon. -/
def oddParameters : List HostType :=
  [.unknown, .named none (some "[]...") 0, .named (some "void") none 1,
    .named (some "a.B<C;D>[]") none 2]

/-- An array of `void`, and a type whose arguments hold all that could end a class path. -/
def oddList : String :=
  " ( void[], a.B<(;[,)>... ) "

theorem oddParameters_isLegal : ∀ t ∈ oddParameters, t.IsLegal := by
  simp only [oddParameters, List.forall_mem_cons, List.not_mem_nil, IsEmpty.forall_iff,
    implies_true, and_true]
  exact ⟨trivial, ⟨by decide, List.all_eq_true.mp (by decide)⟩,
    ⟨by decide, List.all_eq_true.mp (by decide)⟩, ⟨by decide, List.all_eq_true.mp (by decide)⟩⟩

/-- The descriptors of odd names are recognized. -/
theorem emitted_descriptors_of_odd_names :
    isDescriptor (methodDescriptor oddParameters (.named (some " void ") none 0)) ∧
    parameterDescriptor oddParameters
      = "(Ljava/lang/Object;[[Ljava/lang/Object;[Lvoid;[[[La/B;)" ∧
    sourceArguments oddList = .ok "([Lvoid;[La/B;)" ∧ isDescriptor "([Lvoid;[La/B;)" := by
  have hlist : sourceArguments oddList = .ok "([Lvoid;[La/B;)" := by decide
  have hpieces : ∀ piece, ArgumentList.IsPiece " void[], a.B<(;[,)>... ".toList piece →
      ∀ c ∈ TypeName.elementName piece, isPathChar c := by
    have hall : (ArgumentList.splitTopLevel " void[], a.B<(;[,)>... ".toList).all
        fun piece => (TypeName.elementName piece).all isPathChar := by
      decide
    intro piece hpiece
    have hmem := ArgumentList.mem_splitTopLevel_iff.mpr hpiece
    exact List.all_eq_true.mp (List.all_eq_true.mp hall piece hmem)
  refine ⟨?_, by decide, hlist, ?_⟩
  · exact (emitted_descriptors_are_recognized.1 _ _ oddParameters_isLegal (.inr (by decide))).1
  · exact (emitted_descriptors_are_recognized.2 _ _ _ (by decide) hpieces hlist).1

end DeprecatedApi
