import DeprecatedApi.Proofs.JsonNumbers
import Mathlib.Data.List.Chain

/-!
# Reading back written tokens

The characters of tokens are read as the tokens, whatever layout stands between them, if of
two neighbouring tokens at least one is a punctuation mark.

* `Lexer.foldlM_quoted`: a string can follow anything.
* `Lexer.readsToken`: one token.
* `Lexer.foldlM_pieces`, `Token.scan?_pieces`: tokens with layout between them.
-/

namespace DeprecatedApi

/-! ## Strings -/

theorem quoted_none : quoted none = ['"', '\\', 'u', 'd', '8', '0', '0', '"'] :=
  rfl

theorem quoted_some (text : String) :
    quoted (some text) = '"' :: (text.toList.flatMap escaped ++ ['"']) :=
  rfl

theorem hexDigit?_digitChar {d : Nat} (h : d < 16) : hexDigit? d.digitChar = some d := by
  interval_cases d <;> decide

/-- Characters are not halves of surrogate pairs. -/
theorem Surrogate.not_isHigh_toNat (c : Char) :
    isHigh c.toNat = false ∧ isLow c.toNat = false := by
  have hvalid : c.toNat < 0xD800 ∨ (0xDFFF < c.toNat ∧ c.toNat < 0x110000) := c.valid
  constructor
  · simp only [isHigh, Bool.and_eq_false_iff, decide_eq_false_iff_not]
    omega
  · simp only [isLow, Bool.and_eq_false_iff, decide_eq_false_iff_not]
    omega

theorem Surrogate.decode_map_toNat (cs : List Char) : decode (cs.map Char.toNat) = some cs := by
  induction cs with
  | nil => rfl
  | cons c cs ih =>
    obtain ⟨hhigh, hlow⟩ := not_isHigh_toNat c
    rw [List.map_cons, decode.eq_def]
    simp [hhigh, hlow, ih]

namespace Lexer

/-- An escaped character is read as the character. -/
theorem foldlM_escaped (tokens : List Token) (units : List Nat) (c : Char) :
    (escaped c).foldlM step ⟨tokens, .string units⟩
      = some ⟨tokens, .string (c.toNat :: units)⟩ := by
  rw [escaped]
  -- seven characters have a short escape
  iterate 7
    split
    · subst c
      rfl
  split
  · -- the two last digits of a numeric escape are those of the code point
    rename_i hlt
    have hhigh := hexDigit?_digitChar (by omega : c.toNat / 16 < 16)
    have hlow := hexDigit?_digitChar (by omega : c.toNat % 16 < 16)
    have hvalue : 16 * (16 * 0 + c.toNat / 16) + c.toNat % 16 = c.toNat := by omega
    show (step ⟨tokens, .code units 2 0⟩ (c.toNat / 16).digitChar).bind
      (fun s => (step s (c.toNat % 16).digitChar).bind pure) = _
    simp only [step, hhigh, hlow, hvalue, Option.map_some, Option.bind_some, Nat.reduceLeDiff,
      if_false, if_true, Nat.reduceSub, Nat.le_refl]
    rfl
  · rename_i hquote hback _ _ _ _ _ hge
    show (step ⟨tokens, .string units⟩ c).bind pure = _
    simp only [step, if_neg hquote, if_neg hback, if_neg hge]
    rfl

theorem foldlM_flatMap_escaped (tokens : List Token) (units : List Nat) (cs : List Char) :
    (cs.flatMap escaped).foldlM step ⟨tokens, .string units⟩
      = some ⟨tokens, .string ((cs.map Char.toNat).reverse ++ units)⟩ := by
  induction cs generalizing units with
  | nil => rfl
  | cons c cs ih =>
    rw [List.flatMap_cons, List.foldlM_append, foldlM_escaped]
    show (cs.flatMap escaped).foldlM step ⟨tokens, .string (c.toNat :: units)⟩ = _
    rw [ih, List.map_cons, List.reverse_cons, List.append_assoc, List.singleton_append]

/-! ## Between tokens -/

/-- A character that ends a word is read as if nothing were unfinished. -/
theorem step_of_endsWord {s : State} {ts : List Token} (h : result? s = some ts) {c : Char}
    (hc : endsWord c = true) : step s c = some (fromBetween ts.reverse c) := by
  obtain ⟨tokens, mode⟩ := s
  cases mode with
  | between =>
    obtain rfl : tokens.reverse = ts := Option.some.inj h
    rw [List.reverse_reverse]
    rfl
  | word chars =>
    obtain ⟨ended, hended, rfl⟩ := Option.map_eq_some_iff.mp h
    simp only [step, hc, if_true, hended, Option.map_some, List.reverse_reverse]
  | string units => cases h
  | escape units => cases h
  | code units left value => cases h

/-- Layout ends a word and is skipped. -/
theorem foldlM_gap {gap : List Char} (hgap : ∀ c ∈ gap, isGap c = true) {s : State}
    {ts : List Token} (h : result? s = some ts) :
    ∃ t, gap.foldlM step s = some t ∧ result? t = some ts ∧
      (s.mode = .between ∨ gap ≠ [] → t.mode = .between) := by
  induction gap generalizing s with
  | nil => exact ⟨s, rfl, h, by simp⟩
  | cons c gap ih =>
    rw [List.forall_mem_cons] at hgap
    have hends : endsWord c = true := by simp [endsWord, hgap.1]
    have hstep : step s c = some ⟨ts.reverse, .between⟩ := by
      rw [step_of_endsWord h hends, fromBetween, if_pos hgap.1]
    obtain ⟨t, ht, hresult, hmode⟩ :=
      ih hgap.2 (s := ⟨ts.reverse, .between⟩) (by simp [result?])
    refine ⟨t, ?_, hresult, fun _ => hmode (.inl rfl)⟩
    rw [List.foldlM_cons, hstep]
    exact ht

/-- The text of half a surrogate pair, after its opening quote. -/
theorem foldlM_half (tokens : List Token) :
    ['\\', 'u', 'd', '8', '0', '0', '"'].foldlM step ⟨tokens, .string []⟩
      = some ⟨.scalar (.string none) :: tokens, .between⟩ :=
  rfl

/-- A string can follow anything. -/
theorem foldlM_quoted {s : State} {ts : List Token} (h : result? s = some ts) (v : StringValue) :
    (quoted v).foldlM step s = some ⟨.scalar (.string v) :: ts.reverse, .between⟩ := by
  have hquote : step s '"' = some ⟨ts.reverse, .string []⟩ := step_of_endsWord h rfl
  have hrest : ∀ rest : List Char, ('"' :: rest).foldlM step s
      = rest.foldlM step ⟨ts.reverse, .string []⟩ := by
    intro rest
    rw [List.foldlM_cons, hquote]
    rfl
  cases v with
  | none => rw [quoted_none, hrest, foldlM_half]
  | some text =>
    rw [quoted_some, hrest, List.foldlM_append, foldlM_flatMap_escaped, List.append_nil]
    show some (State.mk (endString ts.reverse (text.toList.map Char.toNat).reverse) .between) = _
    rw [endString, List.reverse_reverse, Surrogate.decode_map_toNat, Option.map_some,
      String.ofList_toList]

/-- Between two tokens a word is read to its end. -/
theorem foldlM_word {cs : List Char} (h : ∀ c ∈ cs, endsWord c = false) (tokens : List Token)
    (before : List Char) :
    cs.foldlM step ⟨tokens, .word before⟩ = some ⟨tokens, .word (cs.reverse ++ before)⟩ := by
  induction cs generalizing before with
  | nil => rfl
  | cons c cs ih =>
    rw [List.forall_mem_cons] at h
    have hstep : step ⟨tokens, .word before⟩ c = some ⟨tokens, .word (c :: before)⟩ := by
      simp [step, h.1]
    rw [List.foldlM_cons, hstep]
    show cs.foldlM step ⟨tokens, .word (c :: before)⟩ = _
    rw [ih h.2, List.reverse_cons, List.append_assoc, List.singleton_append]

theorem foldlM_word_between {cs : List Char} (hne : cs ≠ []) (h : ∀ c ∈ cs, endsWord c = false)
    (tokens : List Token) :
    cs.foldlM step ⟨tokens, .between⟩ = some ⟨tokens, .word cs.reverse⟩ := by
  obtain ⟨c, rest, rfl⟩ := List.exists_cons_of_ne_nil hne
  rw [List.forall_mem_cons] at h
  have hends := h.1
  rw [endsWord, Bool.or_eq_false_iff, Bool.or_eq_false_iff] at hends
  obtain ⟨⟨hgap, hmark⟩, hquote⟩ := hends
  have hstep : step ⟨tokens, .between⟩ c = some ⟨tokens, .word [c]⟩ := by
    have hnone : punctuation? c = none := by simpa using hmark
    have hne : c ≠ '"' := by simpa using hquote
    simp [step, fromBetween, hgap, hnone, hne]
  rw [List.foldlM_cons, hstep]
  show rest.foldlM step ⟨tokens, .word [c]⟩ = _
  rw [foldlM_word h.2, List.reverse_cons]

end Lexer

/-! ## One token -/

/-- Whether a token is a punctuation mark. -/
def Token.isMark : Token → Bool
  | .scalar _ => false
  | _ => true

/-- The fractions of numbers have digits. -/
def Token.IsWritable : Token → Prop
  | .scalar (.number n) => n.HasDigits
  | _ => True

theorem Lexer.endsWord_of_isDigit {c : Char} (h : c.isDigit = true) : endsWord c = false := by
  have hne : ∀ d : Char, d.isDigit = false → c ≠ d := by
    rintro d hd rfl
    rw [h] at hd
    cases hd
  simp [endsWord, isGap, punctuation?, hne ' ' rfl, hne '\t' rfl, hne '\n' rfl, hne '\r' rfl,
    hne '[' rfl, hne ']' rfl, hne '\x7b' rfl, hne '\x7d' rfl, hne ',' rfl, hne ':' rfl, hne '"' rfl]

theorem Number.endsWord_of_mem_exponentText {e : Option Int} {c : Char}
    (hc : c ∈ exponentText e) : Lexer.endsWord c = false := by
  cases e with
  | none => cases hc
  | some e =>
    rcases List.mem_cons.mp hc with rfl | hmem
    · rfl
    · cases e with
      | ofNat m => exact Lexer.endsWord_of_isDigit (isDigit_of_mem_toDigits hmem)
      | negSucc m =>
        rcases List.mem_cons.mp hmem with rfl | hdigit
        · rfl
        · exact Lexer.endsWord_of_isDigit (isDigit_of_mem_toDigits hdigit)

theorem Number.endsWord_of_mem_chars {n : Number} (h : n.HasDigits) {c : Char}
    (hc : c ∈ n.chars) : Lexer.endsWord c = false := by
  rw [chars_eq, List.mem_append, List.mem_append, List.mem_append] at hc
  rcases hc with hsign | hwhole | hfraction | hexponent
  · obtain rfl : c = '-' := by
      split at hsign
      · exact List.mem_singleton.mp hsign
      · cases hsign
    rfl
  · exact Lexer.endsWord_of_isDigit (isDigit_of_mem_toDigits hwhole)
  · rw [fractionText] at hfraction
    split at hfraction
    · cases hfraction
    · rcases List.mem_cons.mp hfraction with rfl | hdigit
      · rfl
      · obtain ⟨d, hd, rfl⟩ := List.mem_map.mp hdigit
        exact Lexer.endsWord_of_isDigit (digitChar_spec (h d hd)).1
  · exact endsWord_of_mem_exponentText hexponent

/-- A written number is none of the three names. -/
theorem Scalar.ofWord?_number {n : Number} (h : n.HasDigits) :
    ofWord? n.chars = some (.number n) := by
  have hread := Number.parse?_chars h
  have hne : ∀ word : List Char, Number.parse? word = none → n.chars ≠ word := by
    intro word hword heq
    rw [heq, hword] at hread
    cases hread
  rw [ofWord?, if_neg (hne _ rfl), if_neg (hne _ rfl), if_neg (hne _ rfl), hread]
  rfl

namespace Lexer

/-- From a state with the tokens `ts`, the characters of one more token are read as this token;
a mark leaves nothing unfinished. -/
def ReadsToken (s : State) (ts : List Token) (t : Token) : Prop :=
  ∃ s', t.chars.foldlM step s = some s' ∧ result? s' = some (ts ++ [t]) ∧
    (t.isMark = true → s'.mode = .between)

/-- A mark can follow anything. -/
theorem readsToken_mark {s : State} {ts : List Token} {t : Token} {c : Char}
    (h : result? s = some ts) (hends : endsWord c = true)
    (hfrom : fromBetween ts.reverse c = ⟨t :: ts.reverse, .between⟩) (hchars : t.chars = [c]) :
    ReadsToken s ts t := by
  refine ⟨⟨t :: ts.reverse, .between⟩, ?_, by simp [result?], fun _ => rfl⟩
  rw [hchars, List.foldlM_cons, step_of_endsWord h hends, hfrom]
  rfl

/-- A word can stand where nothing is unfinished. -/
theorem readsToken_word {v : Scalar} (word : List Char) (hchars : v.chars = word)
    (hends : ∀ c ∈ word, endsWord c = false) (hword : Scalar.ofWord? word = some v)
    (ts : List Token) : ReadsToken ⟨ts.reverse, .between⟩ ts (.scalar v) := by
  subst hchars
  have hne : v.chars ≠ [] := by
    intro hnil
    rw [hnil] at hword
    cases hword
  refine ⟨_, foldlM_word_between hne hends _, ?_, by simp [Token.isMark]⟩
  simp only [result?, endWord, List.reverse_reverse, hword, Option.map_some, List.reverse_cons]

/-- **One token.** A mark can follow anything; any other token is read where nothing is
unfinished. -/
theorem readsToken {t : Token} (ht : t.IsWritable) {s : State} {ts : List Token}
    (h : result? s = some ts) (hnext : s.mode = .between ∨ t.isMark = true) :
    ReadsToken s ts t := by
  cases t with
  | openArray => exact readsToken_mark (c := '[') h rfl rfl rfl
  | closeArray => exact readsToken_mark (c := ']') h rfl rfl rfl
  | openObject => exact readsToken_mark (c := '\x7b') h rfl rfl rfl
  | closeObject => exact readsToken_mark (c := '\x7d') h rfl rfl rfl
  | comma => exact readsToken_mark (c := ',') h rfl rfl rfl
  | colon => exact readsToken_mark (c := ':') h rfl rfl rfl
  | scalar v =>
    have hbetween : s = ⟨ts.reverse, .between⟩ := by
      obtain ⟨tokens, mode⟩ := s
      obtain rfl : mode = .between := hnext.resolve_right (by simp [Token.isMark])
      obtain rfl : tokens.reverse = ts := Option.some.inj h
      rw [List.reverse_reverse]
    subst hbetween
    cases v with
    | null =>
      exact readsToken_word ['n', 'u', 'l', 'l'] rfl
        (List.forall_iff_forall_mem.mp ⟨rfl, rfl, rfl, rfl⟩) rfl ts
    | bool b =>
      cases b with
      | true =>
        exact readsToken_word ['t', 'r', 'u', 'e'] rfl
          (List.forall_iff_forall_mem.mp ⟨rfl, rfl, rfl, rfl⟩) rfl ts
      | false =>
        exact readsToken_word ['f', 'a', 'l', 's', 'e'] rfl
          (List.forall_iff_forall_mem.mp ⟨rfl, rfl, rfl, rfl, rfl⟩) rfl ts
    | number n =>
      exact readsToken_word n.chars rfl (fun c hc => Number.endsWord_of_mem_chars ht hc)
        (Scalar.ofWord?_number ht) ts
    | string text =>
      refine ⟨_, foldlM_quoted h text, ?_, fun _ => rfl⟩
      simp [result?]

end Lexer

/-! ## Tokens with layout between them -/

/-- The token of a piece, if it is none of layout. -/
def Json.Piece.token? : Json.Piece → Option Token
  | .token t => some t
  | _ => none

/-- Of two neighbouring tokens at least one must be a mark. -/
abbrev Token.Separable (ts : List Token) : Prop :=
  ts.IsChain fun first second => first.isMark = true ∨ second.isMark = true

namespace Lexer

theorem isGap_of_mem_layout {p : Json.Piece} (h : p.token? = none) :
    p.chars ≠ [] ∧ ∀ c ∈ p.chars, isGap c = true := by
  cases p with
  | token t => cases h
  | newline level =>
    refine ⟨List.cons_ne_nil _ _, fun c hc => ?_⟩
    rcases List.mem_cons.mp hc with rfl | hspace
    · rfl
    · rw [List.eq_of_mem_replicate hspace]
      rfl
  | space => exact ⟨List.cons_ne_nil _ _, List.forall_mem_singleton.mpr rfl⟩

/-- Pieces are read as their tokens, from anything that their first token can follow. -/
theorem foldlM_pieces {ps : List Json.Piece}
    (hwritable : ∀ t ∈ ps.filterMap Json.Piece.token?, t.IsWritable)
    (hseparable : Token.Separable (ps.filterMap Json.Piece.token?)) {s : State}
    {ts : List Token} (h : result? s = some ts)
    (hnext : s.mode = .between ∨
      ∀ t ∈ (ps.filterMap Json.Piece.token?).head?, t.isMark = true) :
    ∃ s', (ps.flatMap Json.Piece.chars).foldlM step s = some s' ∧
      result? s' = some (ts ++ ps.filterMap Json.Piece.token?) := by
  induction ps generalizing s ts with
  | nil => exact ⟨s, rfl, by rw [List.filterMap_nil, List.append_nil, h]⟩
  | cons p ps ih =>
    rw [List.flatMap_cons, List.foldlM_append]
    cases hp : p.token? with
    | none =>
      rw [List.filterMap_cons_none hp] at hwritable hseparable ⊢
      obtain ⟨hne, hgap⟩ := isGap_of_mem_layout hp
      obtain ⟨mid, hmid, hresult, hmode⟩ := foldlM_gap hgap h
      rw [hmid]
      exact ih hwritable hseparable hresult (.inl (hmode (.inr hne)))
    | some t =>
      obtain rfl : p = .token t := by
        cases p with
        | token t' => rw [Option.some.inj hp]
        | newline level => cases hp
        | space => cases hp
      rw [List.filterMap_cons_some hp] at hwritable hseparable hnext ⊢
      rw [List.forall_mem_cons] at hwritable
      obtain ⟨hfollows, hseparable⟩ := List.isChain_cons.mp hseparable
      obtain ⟨mid, hmid, hresult, hmode⟩ :=
        readsToken hwritable.1 h (hnext.imp_right fun hhead => hhead t rfl)
      -- after a mark anything can follow; after another token a mark does
      have hnext' : mid.mode = .between ∨
          ∀ t' ∈ (ps.filterMap Json.Piece.token?).head?, t'.isMark = true := by
        cases hmark : t.isMark with
        | true => exact .inl (hmode hmark)
        | false =>
          refine .inr fun t' ht' => (hfollows t' ht').resolve_left ?_
          rw [hmark]
          exact Bool.false_ne_true
      obtain ⟨s', hs', hresult'⟩ := ih hwritable.2 hseparable hresult hnext'
      refine ⟨s', ?_, ?_⟩
      · show (t.chars.foldlM step s).bind _ = _
        rw [hmid]
        exact hs'
      · rw [hresult', List.append_assoc, List.singleton_append]

end Lexer

/-- Layout between tokens does not matter. -/
theorem Token.scan?_pieces (ps : List Json.Piece)
    (hwritable : ∀ t ∈ ps.filterMap Json.Piece.token?, t.IsWritable)
    (hseparable : Separable (ps.filterMap Json.Piece.token?)) :
    scan? (ps.flatMap Json.Piece.chars) = some (ps.filterMap Json.Piece.token?) := by
  have hstart : Lexer.result? .start = some [] := rfl
  obtain ⟨s, hs, hresult⟩ := Lexer.foldlM_pieces hwritable hseparable hstart (.inl rfl)
  rw [scan?, hs]
  exact hresult

theorem Token.scan?_flatMap_chars {ts : List Token} (hwritable : ∀ t ∈ ts, t.IsWritable)
    (hseparable : Separable ts) : scan? (ts.flatMap Token.chars) = some ts := by
  have htokens : (ts.map Json.Piece.token).filterMap Json.Piece.token? = ts := by
    rw [List.filterMap_map]
    exact List.filterMap_some
  have hscan := scan?_pieces (ts.map .token) (by rwa [htokens]) (by rwa [htokens])
  rw [List.flatMap_map, htokens] at hscan
  exact hscan

end DeprecatedApi
