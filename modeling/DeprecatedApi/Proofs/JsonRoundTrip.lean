import DeprecatedApi.Json.Parser
import DeprecatedApi.Proofs.JsonTokens

/-!
# Reading back written JSON

A written value is read back as it was.

* `Json.separable_tokens`: no two scalars follow each other in the tokens of a value.
* `Json.foldlM_tokens`: the tokens of a value are read as the value.
* `Json.parse?_compact`, `Json.parse?_pretty_newline`: the value of a written text, without
  and with layout.
-/

namespace DeprecatedApi

/-! ## The tokens of a value -/

namespace Json

theorem separable_cons {t : Token} (h : t.isMark = true) {ts : List Token}
    (hts : Token.Separable ts) : Token.Separable (t :: ts) :=
  List.isChain_cons.mpr ⟨fun _ _ => .inl h, hts⟩

theorem separable_append {first second : List Token} (hfirst : Token.Separable first)
    (hsecond : Token.Separable second) (h : ∀ t ∈ second.head?, t.isMark = true) :
    Token.Separable (first ++ second) :=
  List.isChain_append.mpr ⟨hfirst, hsecond, fun _ _ t ht => .inr (h t ht)⟩

theorem isMark_of_head?_laterItems {items : List Json} {t : Token}
    (h : t ∈ (laterItems items).head?) : t.isMark = true := by
  cases items with
  | nil =>
    obtain rfl : Token.closeArray = t := Option.some.inj h
    rfl
  | cons item items =>
    obtain rfl : Token.comma = t := Option.some.inj h
    rfl

theorem isMark_of_head?_laterMembers {members : List (StringValue × Json)} {t : Token}
    (h : t ∈ (laterMembers members).head?) : t.isMark = true := by
  cases members with
  | nil =>
    obtain rfl : Token.closeObject = t := Option.some.inj h
    rfl
  | cons member members =>
    obtain rfl : Token.comma = t := Option.some.inj h
    rfl

/-- A key is between two marks. -/
theorem separable_key (key : StringValue) {ts : List Token} (h : Token.Separable ts) :
    Token.Separable (.scalar (.string key) :: .colon :: ts) :=
  List.isChain_cons.mpr ⟨fun t ht => .inr (by rw [← Option.some.inj ht]; rfl),
    separable_cons rfl h⟩

mutual

/-- No two scalars follow each other in the tokens of a value. -/
theorem separable_tokens : (j : Json) → Token.Separable j.tokens
  | .scalar s => by
    rw [tokens]
    exact List.isChain_singleton _
  | .array [] => by
    rw [tokens]
    exact separable_cons rfl (List.isChain_singleton _)
  | .array (item :: rest) => by
    rw [tokens]
    exact separable_cons rfl (separable_append (separable_tokens item)
      (separable_laterItems rest) fun _ => isMark_of_head?_laterItems)
  | .object [] => by
    rw [tokens]
    exact separable_cons rfl (List.isChain_singleton _)
  | .object ((key, value) :: rest) => by
    rw [tokens]
    exact separable_cons rfl (separable_key key (separable_append (separable_tokens value)
      (separable_laterMembers rest) fun _ => isMark_of_head?_laterMembers))

theorem separable_laterItems : (items : List Json) → Token.Separable (laterItems items)
  | [] => by
    rw [laterItems]
    exact List.isChain_singleton _
  | item :: rest => by
    rw [laterItems]
    exact separable_cons rfl (separable_append (separable_tokens item)
      (separable_laterItems rest) fun _ => isMark_of_head?_laterItems)

theorem separable_laterMembers :
    (members : List (StringValue × Json)) → Token.Separable (laterMembers members)
  | [] => by
    rw [laterMembers]
    exact List.isChain_singleton _
  | (key, value) :: rest => by
    rw [laterMembers]
    exact separable_cons rfl (separable_key key (separable_append (separable_tokens value)
      (separable_laterMembers rest) fun _ => isMark_of_head?_laterMembers))

end

/-! ## Values -/

/-- A value may stand here: an item or the value of a member is expected. -/
def Progress.AwaitsValue (p : Progress) : Prop :=
  p.place = .beforeValue ∨ p.place = .arrayStart

theorem Progress.step_of_awaitsValue {p : Progress} (h : p.AwaitsValue) {t : Token}
    (ht : t ≠ .closeArray) : p.step t = beginValue p.stack t := by
  obtain ⟨stack, place⟩ := p
  rcases h with rfl | rfl
  · rfl
  · cases t with
    | closeArray => exact absurd rfl ht
    | openArray => rfl
    | openObject => rfl
    | closeObject => rfl
    | comma => rfl
    | colon => rfl
    | scalar s => rfl

mutual

/-- **One value.** Where a value may stand, its tokens are read as the value. -/
theorem foldlM_tokens {p : Progress} (h : p.AwaitsValue) :
    (j : Json) → j.tokens.foldlM Progress.step p = some ⟨p.stack, .afterValue j⟩
  | .scalar s => by
    rw [tokens, List.foldlM_cons, Progress.step_of_awaitsValue h (by simp)]
    rfl
  | .array [] => by
    rw [tokens, List.foldlM_cons, Progress.step_of_awaitsValue h (by simp)]
    rfl
  | .array (item :: rest) => by
    rw [tokens, List.foldlM_cons, Progress.step_of_awaitsValue h (by simp)]
    show (item.tokens ++ laterItems rest).foldlM Progress.step ⟨.array [] :: p.stack, .arrayStart⟩
      = _
    rw [List.foldlM_append, foldlM_tokens (.inr rfl) item]
    exact foldlM_laterItems p.stack [] item rest
  | .object [] => by
    rw [tokens, List.foldlM_cons, Progress.step_of_awaitsValue h (by simp)]
    rfl
  | .object ((key, value) :: rest) => by
    rw [tokens, List.foldlM_cons, Progress.step_of_awaitsValue h (by simp)]
    show (value.tokens ++ laterMembers rest).foldlM Progress.step
      ⟨.object [] key :: p.stack, .beforeValue⟩ = _
    rw [List.foldlM_append, foldlM_tokens (.inl rfl) value]
    exact foldlM_laterMembers p.stack [] key value rest

/-- After an item the rest of its array is read; `items` came before, the latest first. -/
theorem foldlM_laterItems (stack : List Frame) (items : List Json) (item : Json) :
    (rest : List Json) →
      (laterItems rest).foldlM Progress.step ⟨.array items :: stack, .afterValue item⟩
        = some ⟨stack, .afterValue (.array (items.reverse ++ item :: rest))⟩
  | [] => by
    rw [laterItems, ← List.reverse_cons]
    rfl
  | next :: rest => by
    rw [laterItems, List.foldlM_cons]
    show (next.tokens ++ laterItems rest).foldlM Progress.step
      ⟨.array (item :: items) :: stack, .beforeValue⟩ = _
    rw [List.foldlM_append, foldlM_tokens (.inl rfl) next]
    show (laterItems rest).foldlM Progress.step
      ⟨.array (item :: items) :: stack, .afterValue next⟩ = _
    rw [foldlM_laterItems stack (item :: items) next rest, List.reverse_cons, List.append_assoc,
      List.singleton_append]

/-- After a member the rest of its object is read. -/
theorem foldlM_laterMembers (stack : List Frame) (members : List (StringValue × Json))
    (key : StringValue) (value : Json) : (rest : List (StringValue × Json)) →
      (laterMembers rest).foldlM Progress.step ⟨.object members key :: stack, .afterValue value⟩
        = some ⟨stack, .afterValue (.object (members.reverse ++ (key, value) :: rest))⟩
  | [] => by
    rw [laterMembers, ← List.reverse_cons]
    rfl
  | (key', next) :: rest => by
    rw [laterMembers, List.foldlM_cons]
    show (next.tokens ++ laterMembers rest).foldlM Progress.step
      ⟨.object ((key, value) :: members) key' :: stack, .beforeValue⟩ = _
    rw [List.foldlM_append, foldlM_tokens (.inl rfl) next]
    show (laterMembers rest).foldlM Progress.step
      ⟨.object ((key, value) :: members) key' :: stack, .afterValue next⟩ = _
    rw [foldlM_laterMembers stack ((key, value) :: members) key' next rest, List.reverse_cons,
      List.append_assoc, List.singleton_append]

end

theorem ofTokens?_tokens (j : Json) : ofTokens? j.tokens = some j := by
  rw [ofTokens?, foldlM_tokens (.inl rfl)]
  rfl

/-! ## Written texts -/

/-- The digits of every number in a value are digits. -/
def IsWritable (j : Json) : Prop :=
  ∀ t ∈ j.tokens, t.IsWritable

namespace IsWritable

theorem null : IsWritable .null := by
  simp [IsWritable, tokens, Token.IsWritable]

theorem bool (value : Bool) : IsWritable (.bool value) := by
  simp [IsWritable, tokens, Token.IsWritable]

theorem string (text : String) : IsWritable (.string text) := by
  simp [IsWritable, tokens, Token.IsWritable]

theorem number {n : Number} (h : n.HasDigits) : IsWritable (.number n) := by
  simpa [IsWritable, tokens, Token.IsWritable] using h

theorem ofNat (n : Nat) : IsWritable (.ofNat n) :=
  number (List.forall_mem_nil _)

theorem ofOption {α : Type} {encode : α → Json} (h : ∀ a, (encode a).IsWritable) :
    (value : Option α) → IsWritable (.ofOption encode value)
  | none => null
  | some a => h a

theorem laterItems {items : List Json} (h : ∀ item ∈ items, item.IsWritable) :
    ∀ t ∈ Json.laterItems items, t.IsWritable := by
  induction items with
  | nil => simp [Json.laterItems, Token.IsWritable]
  | cons item rest ih =>
    rw [List.forall_mem_cons] at h
    rw [Json.laterItems, List.forall_mem_cons, List.forall_mem_append]
    exact ⟨trivial, h.1, ih h.2⟩

theorem array {items : List Json} (h : ∀ item ∈ items, item.IsWritable) :
    IsWritable (.array items) := by
  cases items with
  | nil => simp [IsWritable, tokens, Token.IsWritable]
  | cons item rest =>
    rw [List.forall_mem_cons] at h
    rw [IsWritable, tokens, List.forall_mem_cons, List.forall_mem_append]
    exact ⟨trivial, h.1, laterItems h.2⟩

theorem laterMembers {members : List (StringValue × Json)}
    (h : ∀ member ∈ members, member.2.IsWritable) :
    ∀ t ∈ Json.laterMembers members, t.IsWritable := by
  induction members with
  | nil => simp [Json.laterMembers, Token.IsWritable]
  | cons member rest ih =>
    rw [List.forall_mem_cons] at h
    rw [Json.laterMembers, List.forall_mem_cons, List.forall_mem_cons, List.forall_mem_cons,
      List.forall_mem_append]
    exact ⟨trivial, trivial, trivial, h.1, ih h.2⟩

theorem object {members : List (StringValue × Json)}
    (h : ∀ member ∈ members, member.2.IsWritable) : IsWritable (.object members) := by
  cases members with
  | nil => simp [IsWritable, tokens, Token.IsWritable]
  | cons member rest =>
    rw [List.forall_mem_cons] at h
    rw [IsWritable, tokens, List.forall_mem_cons, List.forall_mem_cons, List.forall_mem_cons,
      List.forall_mem_append]
    exact ⟨trivial, trivial, trivial, h.1, laterMembers h.2⟩

theorem ofFields {fields : List (String × Json)}
    (h : fields.Forall fun field => field.2.IsWritable) : IsWritable (.ofFields fields) := by
  refine object fun member hmember => ?_
  obtain ⟨field, hfield, rfl⟩ := List.mem_map.mp hmember
  exact List.forall_iff_forall_mem.mp h field hfield

end IsWritable

/-- **Round trip.** A written value is read back as it was. -/
theorem parse?_compact {j : Json} (h : j.IsWritable) : parse? j.compact = some j := by
  rw [parse?, compact, String.toList_ofList,
    Token.scan?_flatMap_chars h (separable_tokens j)]
  exact ofTokens?_tokens j

/-! ## Layout -/

mutual

/-- But for its layout, the indented form of a value is its tokens. -/
theorem filterMap_pieces (level : Nat) :
    (j : Json) → (j.pieces level).filterMap Piece.token? = j.tokens
  | .scalar s => by
    rw [pieces, tokens]
    rfl
  | .array [] => by
    rw [pieces, tokens]
    rfl
  | .array (item :: rest) => by
    rw [pieces, tokens, ← filterMap_pieces (level + 1) item,
      ← filterMap_laterItemPieces level rest, ← List.filterMap_append]
    rfl
  | .object [] => by
    rw [pieces, tokens]
    rfl
  | .object ((key, value) :: rest) => by
    rw [pieces, tokens, ← filterMap_pieces (level + 1) value,
      ← filterMap_laterMemberPieces level rest, ← List.filterMap_append]
    rfl

theorem filterMap_laterItemPieces (level : Nat) : (items : List Json) →
    (laterItemPieces level items).filterMap Piece.token? = laterItems items
  | [] => by
    rw [laterItemPieces, laterItems]
    rfl
  | item :: rest => by
    rw [laterItemPieces, laterItems, ← filterMap_pieces (level + 1) item,
      ← filterMap_laterItemPieces level rest, ← List.filterMap_append]
    rfl

theorem filterMap_laterMemberPieces (level : Nat) : (members : List (StringValue × Json)) →
    (laterMemberPieces level members).filterMap Piece.token? = laterMembers members
  | [] => by
    rw [laterMemberPieces, laterMembers]
    rfl
  | (key, value) :: rest => by
    rw [laterMemberPieces, laterMembers, ← filterMap_pieces (level + 1) value,
      ← filterMap_laterMemberPieces level rest, ← List.filterMap_append]
    rfl

end

/-- A value in the indented form is read back as it was, also with a line break behind it. -/
theorem parse?_pretty_newline {j : Json} (h : j.IsWritable) :
    parse? (j.pretty ++ "\n") = some j := by
  -- the line break is one more piece of layout
  have htext : (j.pretty ++ "\n").toList = (j.pieces 0 ++ [Piece.newline 0]).flatMap Piece.chars := by
    rw [String.toList_append, pretty, String.toList_ofList, List.flatMap_append]
    rfl
  have htokens : (j.pieces 0 ++ [Piece.newline 0]).filterMap Piece.token? = j.tokens := by
    rw [List.filterMap_append, filterMap_pieces]
    exact List.append_nil _
  have hscan : Token.scan? (j.pretty ++ "\n").toList = some j.tokens := by
    rw [htext, ← htokens]
    refine Token.scan?_pieces _ ?_ ?_
    · rw [htokens]
      exact h
    · rw [htokens]
      exact separable_tokens j
  rw [parse?, hscan]
  exact ofTokens?_tokens j

end Json

end DeprecatedApi
