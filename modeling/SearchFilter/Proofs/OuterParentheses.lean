import SearchFilter.Proofs.Recognition

/-! # The outer parentheses of a filter

Outer parentheses may be left out: a text is read as it is read in parentheses
(`Filter.parse_parenthesized`).  The tokens are the same then, and all that differs is the text that
errors about the whole input quote.  Two runs of the reader that differ in that text only take the
same steps, and stop alike (`sameUpTo_ofTokens`).

In particular the fragment of a filter, which is its canonical string without the outer parentheses,
is read as that string is.  For this it has to be shown that a fragment has no blank at its ends and
does not begin with a parenthesis itself (`bare_fragment`). -/

namespace SearchFilter

/-- Two results are the same, or both are the error about a whole text, each about its own. -/
def SameUpTo {α : Type} (source source' : Text) (result result' : Except FilterError α) : Prop :=
  result = result' ∨
    (result = .error (.expression source) ∧ result' = .error (.expression source'))

section runs

variable {source source' : Text}

theorem SameUpTo.refl {α : Type} (result : Except FilterError α) :
    SameUpTo source source' result result := .inl rfl

theorem SameUpTo.whole {α : Type} :
    SameUpTo source source' (.error (.expression source) : Except FilterError α)
      (.error (.expression source')) := .inr ⟨rfl, rfl⟩

theorem SameUpTo.bind {α β : Type} {first first' : Except FilterError α}
    {second second' : α → Except FilterError β} (h : SameUpTo source source' first first')
    (h' : ∀ a, SameUpTo source source' (second a) (second' a)) :
    SameUpTo source source' (first >>= second) (first' >>= second') := by
  rcases h with rfl | ⟨rfl, rfl⟩
  · cases first with
    | error error => exact .refl _
    | ok a => exact h' a
  · exact .whole

theorem OpenGroup.sameUpTo_finish (group : OpenGroup) :
    SameUpTo source source' (group.finish source) (group.finish source') := by
  unfold finish
  split
  · exact .whole
  · exact .refl _

/-- **One step of two runs** that differ in the text that errors quote. -/
theorem ReadState.sameUpTo_step (state : ReadState) (token : Token) :
    SameUpTo source source' (step source state token) (step source' state token) := by
  cases state with
  | start =>
      cases token with
      | openParen => exact .refl _
      | _ => exact .whole
  | opened outer =>
      cases token with
      | openParen => exact .whole
      | closeParen => exact .whole
      | _ => exact .refl _
  | asserted filter outer =>
      cases token with
      | closeParen => exact .refl _
      | _ => exact .whole
  | grouped group outer =>
      cases token with
      | openParen => exact .refl _
      | closeParen => exact group.sameUpTo_finish.bind fun _ => .refl _
      | _ => exact group.sameUpTo_finish.bind fun _ => .whole
  | done filter => exact .refl _

theorem ReadState.sameUpTo_run : ∀ (tokens : List Token) (state : ReadState),
    SameUpTo source source' (tokens.foldlM (step source) state)
      (tokens.foldlM (step source') state)
  | [], _ => .refl _
  | token :: tokens, state => by
      rw [List.foldlM_cons, List.foldlM_cons]
      exact (sameUpTo_step state token).bind (sameUpTo_run tokens)

theorem ReadState.sameUpTo_finish (state : ReadState) :
    SameUpTo source source' (state.finish source) (state.finish source') := by
  cases state with
  | grouped group outer => exact group.sameUpTo_finish.bind fun _ => .refl _
  | _ => exact .refl _

/-- **Reading the same tokens** gives the same, whatever text is quoted. -/
theorem Filter.sameUpTo_ofTokens (source source' : Text) (tokens : List Token) :
    SameUpTo source source' (ofTokens source tokens) (ofTokens source' tokens) :=
  (ReadState.sameUpTo_run tokens .start).bind ReadState.sameUpTo_finish

end runs

/-! ### Texts without outer parentheses -/

/-- The text may stand for a filter that has lost its outer parentheses. -/
structure Text.Bare (t : Text) : Prop where
  trimmed : t.Trimmed
  ne_nil : t ≠ []
  head?_ne : t.head? ≠ some '('

namespace Filter

theorem sameUpTo_parse {t : Text} (ht : t.Bare) :
    SameUpTo t ('(' :: t ++ [')']) (parse t) (parse ('(' :: t ++ [')'])) := by
  have htrimmed : Text.Trimmed ('(' :: t ++ [')']) :=
    ⟨Text.flush_cons.mpr (by decide), Text.notBlank_getLast?_concat (by decide)⟩
  have hne : t.isEmpty = false := by simpa using ht.ne_nil
  have hbare : parenthesized t = '(' :: t ++ [')'] := if_neg ht.head?_ne
  have hwhole : parenthesized ('(' :: t ++ [')']) = '(' :: t ++ [')'] := if_pos rfl
  rw [parse_eq, parse_eq, Text.trim_eq_self ht.trimmed, Text.trim_eq_self htrimmed, hne, hbare,
    hwhole]
  exact sameUpTo_ofTokens _ _ _

/-! ### Fragments -/

theorem bare_test {attr value : Text} (op : Comparison) (hattr : isAttribute attr = true)
    (hvalue : value.Trimmed) : Text.Bare (attr ++ op.symbol ++ value) := by
  obtain ⟨hne, hall⟩ := isAttribute_iff.mp hattr
  obtain ⟨c, rest, rfl⟩ := List.exists_cons_of_ne_nil hne
  have hc : isAttributeChar c = true := hall c List.mem_cons_self
  refine ⟨⟨Text.flush_cons.mpr (isBlank_of_isAttributeChar hc), ?_⟩, by simp, ?_⟩
  · intro d hd
    cases hlast : value.getLast? with
    | none =>
        rw [List.getLast?_append, hlast, List.getLast?_append, Assertion.symbol_getLast?] at hd
        cases hd
        decide
    | some e =>
        rw [List.getLast?_append, hlast] at hd
        cases hd
        exact hvalue.2 d hlast
  · intro hhead
    cases hhead
    exact absurd hc (by decide)

theorem fragment_of_makes {combinator : Combinator} {clauses : List Filter} {f : Filter}
    (h : combinator.Makes clauses f) :
    f.fragment = combinator.operator :: clauses.flatMap render := by
  have hrender := render_of_makes h
  rw [render] at hrender
  exact List.append_cancel_right (List.cons.inj hrender).2

theorem bare_group {combinator : Combinator} {clauses : List Filter} {f : Filter}
    (h : combinator.Makes clauses f) : Text.Bare f.fragment := by
  rw [fragment_of_makes h]
  obtain ⟨before, last, rfl⟩ := (List.eq_nil_or_concat' clauses).resolve_left h.ne_nil
  have hend : combinator.operator :: (before ++ [last]).flatMap render =
      (combinator.operator :: (before.flatMap render ++ '(' :: last.fragment)) ++ [')'] := by
    simp [render]
  rw [hend]
  refine ⟨⟨?_, Text.notBlank_getLast?_concat (by decide)⟩, by simp, ?_⟩
  · cases combinator <;> exact Text.flush_cons.mpr (by decide)
  · cases combinator <;> simp [Combinator.operator]

/-- **A fragment has no blank at its ends and no parenthesis in front**, if the filter is classified
and its texts are legible. -/
theorem bare_fragment {f : Filter} (hclassified : f.Classified) (htexts : f.HasCleanTexts) :
    f.fragment.Bare := by
  obtain ⟨hattr, hvalue⟩ := htexts
  cases f with
  | presence attr =>
      have hstar : Text.Trimmed ['*'] := by decide
      have h := bare_test .equal (hattr attr rfl) hstar
      simpa [fragment, Comparison.symbol] using h
  | item attr op value => exact bare_test op (hattr attr rfl) (hvalue value rfl).2
  | substring attr pattern =>
      have h := bare_test .equal (hattr attr rfl) (hvalue pattern rfl).2
      simpa [fragment, Comparison.symbol] using h
  | and clauses => exact bare_group (.and hclassified)
  | or clauses => exact bare_group (.or hclassified)
  | not inner => exact bare_group .not

/-- **Outer parentheses are optional.**  A text without them is read as it is read in parentheses,
be it a filter or not; only an error about the whole of it quotes the one or the other.  A filter
that has been read is read again from its fragment. -/
theorem parse_parenthesized :
    (∀ text : Text, text.trim ≠ [] → text.trim.head? ≠ some '(' →
      SameUpTo text.trim ('(' :: text.trim ++ [')']) (parse text)
        (parse ('(' :: text.trim ++ [')']))) ∧
    ∀ (text : Text) (f : Filter), parse text = .ok f → parse f.fragment = .ok f := by
  refine ⟨fun text hne hhead => ?_, fun text f h => ?_⟩
  · have htrimmed := Text.trimmed_trim text
    have hsame := sameUpTo_parse ⟨htrimmed, hne, hhead⟩
    rwa [parse_eq, Text.trim_eq_self htrimmed, ← parse_eq] at hsame
  · obtain ⟨hderives, hdepth⟩ := derives_of_parse h
    obtain ⟨hregular, hlegible⟩ := hderives.regular_legible
    have hrender : parse f.render = .ok f := by
      rw [parse_derived (derives_render hregular hlegible), if_pos hdepth]
    have hsame := sameUpTo_parse (bare_fragment hregular.here hlegible.here)
    rw [← render, hrender] at hsame
    rcases hsame with hsame | ⟨-, hfails⟩
    · exact hsame
    · cases hfails

/-- A text that is wrong as a whole, and one that is read with a value of blanks and a pattern. -/
theorem parse_of_bare_texts :
    parse " & a" = .error (.expression "& a") ∧
      SameUpTo "& a" "(& a)" (parse " & a") (parse "(& a)") ∧
      parse " |(cn= ) (uid = b* )" = .ok (or [item "cn" .equal [], substring "uid" "b*"]) ∧
      parse "|(cn=)(uid=b*)" = .ok (or [item "cn" .equal [], substring "uid" "b*"]) := by
  have hread : parse " |(cn= ) (uid = b* )" =
      .ok (or [item "cn" .equal [], substring "uid" "b*"]) := by decide +kernel
  exact ⟨by decide +kernel, parse_parenthesized.1 " & a" (by decide) (by decide), hread,
    parse_parenthesized.2 _ _ hread⟩

end Filter
end SearchFilter
