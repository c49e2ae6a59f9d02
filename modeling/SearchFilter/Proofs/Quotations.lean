import SearchFilter.Proofs.Recognition

/-! # What errors quote

Reading goes wrong at one of the tokens or behind the last one.  `Filter.Failure` lists all errors
that can come of it, each with what it says of the tokens: an assertion that spells nothing is one
of them, and a token is unexpected only if a closing parenthesis stands in front of it.

A token is a piece of the text that it is taken from.  Of a text that has been put in parentheses,
all tokens but the first and the last are tokens of the text itself (`tokens_parenthesized`).  The
first is never quoted; the last is a closing parenthesis, and quoted only if the text has one of its
own.  So errors quote nothing but the text as it was given, less the blanks at its ends
(`quotes_of_parse`). -/

namespace SearchFilter

/-- What an error may tell of a text: a fragment is the whole of it, or a piece of a run without
parentheses; an unexpected token is a piece of it; and only negations have too many clauses. -/
def FilterError.Quotes (text : Text) : FilterError → Prop
  | emptyExpression => text = []
  | expression fragment =>
    fragment ≠ [] ∧ fragment.Trimmed ∧ (fragment = text ∨ (fragment.Plain ∧ fragment <:+: text))
  | unexpectedEnd => True
  | unexpectedToken token => token ≠ [] ∧ token <:+: text
  | argumentCount combinator found => combinator = .not ∧ 2 ≤ found
  | nestingTooDeep limit => limit = Filter.maxDepth
  | unknownCombinator .. | invalidAttribute _ | bareList | invalidLiteral _ => False

/-! ### How reading goes wrong -/

namespace Filter

/-- `Failure source tokens error`: the error may come of reading the tokens. -/
inductive Failure (source : Text) (tokens : List Token) : FilterError → Prop
  | whole : Failure source tokens (.expression source)
  | ending : Failure source tokens .unexpectedEnd
  | depth : Failure source tokens (.nestingTooDeep maxDepth)
  | count {found : Nat} : 2 ≤ found → Failure source tokens (.argumentCount .not found)
  | assertion {text : Text} : .assertion text ∈ tokens →
      Failure source tokens (.expression text.trim)
  | behind {before after : List Token} {token : Token} :
      tokens = before ++ .closeParen :: token :: after →
      Failure source tokens (.unexpectedToken token.text)

end Filter

section failures

variable {source : Text} {tokens : List Token} {error : FilterError}

theorem Combinator.two_le_of_apply {combinator : Combinator} {fs : List Filter} (hne : fs ≠ [])
    (h : combinator.apply fs = .error error) :
    2 ≤ fs.length ∧ error = .argumentCount .not fs.length := by
  match combinator, fs with
  | .and, _ :: _ | .or, _ :: _ | .not, [_] => cases h
  | .not, _ :: _ :: _ =>
      cases h
      exact ⟨by simp, rfl⟩

theorem OpenGroup.failure_of_finish {group : OpenGroup} (h : group.finish source = .error error) :
    Filter.Failure source tokens error := by
  unfold finish at h
  split at h
  · cases h
    exact .whole
  · rename_i clauses hne
    obtain ⟨hcount, rfl⟩ := Combinator.two_le_of_apply (by simpa using hne) h
    exact .count hcount

theorem ReadState.failure_of_openFilter {outer : List OpenGroup}
    (h : openFilter outer = .error error) : Filter.Failure source tokens error := by
  unfold openFilter at h
  split at h
  · cases h
  · cases h
    exact .depth

/-- **A step that fails**, after tokens that led the reader to the state. -/
theorem ReadState.Reached.failure_of_step {before after : List Token} {state : ReadState}
    {token : Token} (hreached : Reached source before state)
    (h : ReadState.step source state token = .error error) :
    Filter.Failure source (before ++ token :: after) error := by
  cases state with
  | start =>
      cases token with
      | openParen => exact failure_of_openFilter h
      | _ => cases h; exact .whole
  | opened outer =>
      cases token with
      | assertion text =>
          simp only [ReadState.step] at h
          cases hsplit : Assertion.split? text with
          | none =>
              rw [hsplit] at h
              cases h
              exact .assertion (by simp)
          | some assertion => rw [hsplit] at h; cases h
      | openParen => cases h; exact .whole
      | closeParen => cases h; exact .whole
      | _ => cases h
  | asserted filter outer =>
      cases token with
      | closeParen => cases h
      | _ => cases h; exact .whole
  -- A token in a group that cannot end there is only looked at after the group is finished.
  | grouped group outer =>
      cases token with
      | openParen => exact failure_of_openFilter h
      | closeParen =>
          rcases bind_eq_error_iff.mp h with h | ⟨filter, -, h⟩
          · exact OpenGroup.failure_of_finish h
          · cases h
      | _ =>
          rcases bind_eq_error_iff.mp h with h | ⟨filter, -, h⟩
          · exact OpenGroup.failure_of_finish h
          · cases h
            exact .whole
  | done filter =>
      cases h
      obtain ⟨s, -, rfl⟩ := hreached
      -- The tokens so far are those of a sketch, so the last of them closes a parenthesis.
      obtain ⟨front, e⟩ := s.exists_tokens_eq
      rw [e, List.append_assoc]
      exact .behind rfl

theorem ReadState.failure_of_finish {state : ReadState}
    (h : state.finish source = .error error) : Filter.Failure source tokens error := by
  cases state with
  | grouped group outer =>
      rcases bind_eq_error_iff.mp h with h | ⟨filter, -, h⟩
      · exact OpenGroup.failure_of_finish h
      · cases h
        exact .ending
  | done filter => cases h
  | _ => cases h; exact .ending

/-- **All errors of reading tokens.** -/
theorem Filter.failure_of_ofTokens (h : ofTokens source tokens = .error error) :
    Filter.Failure source tokens error := by
  rcases bind_eq_error_iff.mp h with h | ⟨state, -, h⟩
  · obtain ⟨before, token, after, state, rfl, hbefore, hfails⟩ := exists_of_foldlM_eq_error h
    have hstart : ReadState.Reached source [] .start := rfl
    exact (hstart.run hbefore).failure_of_step hfails
  · exact ReadState.failure_of_finish h

end failures

/-! ### Tokens are pieces of their text -/

theorem mem_of_concat_eq_append {α : Type} {l before after : List α} {a b : α}
    (h : l ++ [a] = before ++ a :: b :: after) : b ∈ l := by
  rcases List.eq_nil_or_concat' after with rfl | ⟨after, c, rfl⟩
  · have h' : l ++ [a] = (before ++ [a]) ++ [b] := by simpa using h
    obtain ⟨rfl, hab⟩ := List.append_inj' h' rfl
    cases hab
    simp
  · have h' : l ++ [a] = (before ++ a :: b :: after) ++ [c] := by simpa using h
    obtain ⟨rfl, -⟩ := List.append_inj' h' rfl
    simp

namespace Token

theorem exists_stands_of_mem : ∀ {tokens : List Token} {afterOpen : Bool} {s : Text}
    {token : Token}, scan afterOpen s = tokens → token ∈ tokens →
      token.text <:+: s ∧ ∃ afterOpen' rest, token.Stands afterOpen' rest
  | first :: tokens, afterOpen, s, token, h, hmem => by
      obtain ⟨w, rest, hw, rfl, hstands, hlater⟩ := scan_eq_cons_iff.mp h
      rcases List.mem_cons.mp hmem with rfl | hmem
      · exact ⟨⟨w, rest, by simp⟩, afterOpen, rest, hstands⟩
      · obtain ⟨hpiece, hstands'⟩ := exists_stands_of_mem hlater hmem
        exact ⟨hpiece.trans ⟨w ++ first.text, [], by simp⟩, hstands'⟩

theorem scan_append_closeParen : ∀ {tokens : List Token} {afterOpen : Bool} {s : Text},
    scan afterOpen s = tokens → scan afterOpen (s ++ [')']) = tokens ++ [.closeParen]
  | [], afterOpen, s, h => by
      rw [scan_blank_append (scan_eq_nil_iff.mp h)]
      exact (scan_closeParen afterOpen Text.blank_nil).trans (by rw [scan_nil]; rfl)
  | token :: tokens, afterOpen, s, h => by
      obtain ⟨w, rest, hw, rfl, hstands, hlater⟩ := scan_eq_cons_iff.mp h
      have hstands' : token.Stands afterOpen (rest ++ [')']) := by
        cases rest with
        | nil => exact hstands.before_paren rfl
        | cons c rest => exact hstands.of_head? rfl
      rw [List.append_assoc, List.append_assoc, scan_blank_append hw, scan_text_append hstands',
        scan_append_closeParen hlater, List.cons_append]

/-- **The tokens of a text that has been put in parentheses** are its own between two more. -/
theorem tokens_parenthesized {t : Text} (h : t.head? ≠ some '(') :
    tokens (Filter.parenthesized t) = .openParen :: (scan true t ++ [.closeParen]) := by
  rw [Filter.parenthesized, if_neg h, tokens, List.cons_append, ← scan_append_closeParen rfl]
  exact scan_openParen false Text.blank_nil

theorem exists_mem_of_assertion {t text : Text}
    (h : .assertion text ∈ tokens (Filter.parenthesized t)) :
    ∃ afterOpen, .assertion text ∈ scan afterOpen t := by
  by_cases hhead : t.head? = some '('
  · rw [Filter.parenthesized, if_pos hhead] at h
    exact ⟨false, h⟩
  · rw [tokens_parenthesized hhead] at h
    exact ⟨true, by simpa using h⟩

/-- What follows a closing parenthesis there is a token of the text as well: if it is the
parenthesis at the end, then the one in front of it is a parenthesis of the text. -/
theorem exists_mem_of_behind {t : Text} {before after : List Token} {token : Token}
    (h : tokens (Filter.parenthesized t) = before ++ .closeParen :: token :: after) :
    ∃ afterOpen, token ∈ scan afterOpen t := by
  by_cases hhead : t.head? = some '('
  · rw [Filter.parenthesized, if_pos hhead] at h
    exact ⟨false, by rw [← tokens, h]; simp⟩
  · rw [tokens_parenthesized hhead] at h
    cases before with
    | nil => cases h
    | cons first before =>
        exact ⟨true, mem_of_concat_eq_append (List.cons.inj h).2⟩

end Token

/-! ### What is quoted -/

namespace FilterError

variable {t : Text} {afterOpen : Bool}

theorem quotes_assertion {piece : Text} (h : .assertion piece ∈ Token.scan afterOpen t) :
    (expression piece.trim).Quotes t := by
  obtain ⟨hpiece, _, _, hstands⟩ := Token.exists_stands_of_mem rfl h
  have hblank : ¬ Text.Blank (piece ++ []) := hstands.not_blank []
  rw [List.append_nil] at hblank
  obtain ⟨-, -, hplain, -, -⟩ := hstands
  have htrim : piece.trim <:+: piece := Text.trim_infix piece
  exact ⟨mt Text.blank_of_trim_eq_nil hblank, Text.trimmed_trim piece,
    .inr ⟨hplain.of_infix htrim, htrim.trans hpiece⟩⟩

theorem quotes_token {token : Token} (h : token ∈ Token.scan afterOpen t) :
    (unexpectedToken token.text).Quotes t := by
  obtain ⟨hpiece, _, _, hstands⟩ := Token.exists_stands_of_mem rfl h
  obtain ⟨c, rest, e, -⟩ := hstands.text_eq_cons
  exact ⟨by rw [e]; exact List.cons_ne_nil _ _, hpiece⟩

end FilterError

namespace Filter

/-- **Errors quote only what was written**: whatever goes wrong with a text, the error quotes pieces
of the text as it was given, and never a parenthesis that was put around it. -/
theorem quotes_of_parse {text : Text} {error : FilterError} (h : parse text = .error error) :
    error.Quotes text.trim := by
  rw [parse_eq] at h
  split at h
  · rename_i hnil
    cases h
    exact List.isEmpty_iff.mp hnil
  · rename_i hne
    cases failure_of_ofTokens h with
    | whole => exact ⟨by simpa using hne, Text.trimmed_trim text, .inl rfl⟩
    | ending => trivial
    | depth => rfl
    | count hcount => exact ⟨rfl, hcount⟩
    | assertion hmem =>
        obtain ⟨_, hmem⟩ := Token.exists_mem_of_assertion hmem
        exact FilterError.quotes_assertion hmem
    | behind hsplit =>
        obtain ⟨_, hmem⟩ := Token.exists_mem_of_behind hsplit
        exact FilterError.quotes_token hmem

/-- Two texts without outer parentheses.  The first has one too many of its own, so that the one put
at its end is left over; the second holds an assertion that spells nothing. -/
theorem quotes_of_bare_texts :
    parse " a=1 ) " = .error (.unexpectedToken ")") ∧
      (FilterError.unexpectedToken ")").Quotes "a=1 )" ∧
      parse "& (?x ) (b) " = .error (.expression "?x") ∧
      (FilterError.expression "?x").Quotes "& (?x ) (b)" := by
  have htoken : parse " a=1 ) " = .error (.unexpectedToken ")") := by decide +kernel
  have hpiece : parse "& (?x ) (b) " = .error (.expression "?x") := by decide +kernel
  exact ⟨htoken, quotes_of_parse htoken, hpiece, quotes_of_parse hpiece⟩

end Filter
end SearchFilter
