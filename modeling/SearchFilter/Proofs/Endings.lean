import SearchFilter.Proofs.Recognition

/-! # Texts that end too early and texts that go on

Of a text that is read as a filter in its parentheses, no part in front of one of its tokens is
read (`Filter.parse_of_cut`): it either breaks off, or stops at an operator that has nothing to
combine.  Nor is the text read with anything but blanks behind it (`Filter.parse_append`): what
follows is reported by its first token.

Both go over the tokens.  A text cut behind a token has the tokens in front of the cut
(`Cut.scan_front`), and tokens behind a whole filter do not change those of the filter
(`exists_sketch_of_parse`).  The reader has moved over the tokens in front of the cut as it does on
the whole text.  That the groups which it has open there may end is something only the tokens behind
the cut tell, so `Moves.viable` goes back from the end of the run. -/

namespace SearchFilter

/-! ### Cutting a text behind a token -/

namespace Token

/-- `Cut afterOpen s tokens rest`: when the tokens have been taken off the text `s`, there is left
`rest`. -/
inductive Cut : Bool → Text → List Token → Text → Prop
  | nil (afterOpen : Bool) (s : Text) : Cut afterOpen s [] s
  | cons {afterOpen : Bool} {s more rest : Text} {token : Token} {tokens : List Token} :
      next? afterOpen s = some (token, more) → Cut (token == openParen) more tokens rest →
      Cut afterOpen s (token :: tokens) rest

/-- The error about a text that ends behind the token. -/
def endError (source : Text) : Token → FilterError
  | and | or | not => .expression source
  | openParen | closeParen | assertion _ => .unexpectedEnd

namespace Cut

variable {afterOpen : Bool} {s rest : Text} {before : List Token} {last : Token}

theorem exists_append {tokens : List Token} (h : Cut afterOpen s tokens rest) :
    ∃ p, s = p ++ rest := by
  induction h with
  | nil => exact ⟨[], rfl⟩
  | @cons afterOpen s more rest token tokens hnext _ ih =>
      obtain ⟨p, rfl⟩ := ih
      obtain ⟨w, -, rfl, -⟩ := exists_of_next? hnext
      exact ⟨w ++ (token.text ++ p), by simp only [List.append_assoc]⟩

theorem scan_eq : ∀ {before : List Token} {afterOpen : Bool} {s : Text},
    Cut afterOpen s (before ++ [last]) rest →
      scan afterOpen s = before ++ last :: scan (last == openParen) rest
  | [], _, _, .cons hnext (.nil _ _) => scan_of_next? hnext
  | token :: before, _, _, .cons hnext hlater => by
      rw [scan_of_next? hnext, scan_eq hlater, List.cons_append]

/-- The first token of a text is the first token of its part in front of a cut. -/
theorem exists_front {p q : Text} {token : Token}
    (hnext : next? afterOpen (p ++ rest) = some (token, q ++ rest)) :
    ∃ w : Text, w.Blank ∧ p = w ++ (token.text ++ q) ∧ token.Stands afterOpen (q ++ rest) := by
  obtain ⟨w, hw, e, hstands⟩ := exists_of_next? hnext
  rw [← List.append_assoc, ← List.append_assoc] at e
  have e' := List.append_cancel_right e
  exact ⟨w, hw, by rw [e', List.append_assoc], hstands⟩

/-- **The text in front of the cut** has the tokens in front of the cut. -/
theorem scan_front : ∀ {before : List Token} {afterOpen : Bool} {p : Text},
    Cut afterOpen (p ++ rest) (before ++ [last]) rest → scan afterOpen p = before ++ [last]
  | [], afterOpen, p, .cons hnext (.nil _ _) => by
      obtain ⟨w, hw, rfl, hstands⟩ := @exists_front _ _ _ [] _ hnext
      rw [scan_blank_append hw, scan_text_append hstands.at_end, scan_nil, List.nil_append]
  | token :: before, afterOpen, p, .cons hnext hlater => by
      obtain ⟨q, rfl⟩ := hlater.exists_append
      obtain ⟨w, hw, rfl, hstands⟩ := exists_front hnext
      have hq := scan_front hlater
      have hne : q ≠ [] := by
        rintro rfl
        simp at hq
      have hstands' : token.Stands afterOpen q :=
        hstands.of_head? (List.head?_append_of_ne_nil _ hne).symm
      rw [scan_blank_append hw, scan_text_append hstands', hq, List.cons_append]

end Cut
end Token

/-! ### Groups that can still be closed -/

theorem OpenGroup.exists_makes {group : OpenGroup} (hne : group.clauses ≠ [])
    (hcount : group.combinator = .not → group.clauses.length ≤ 1) :
    ∃ f, group.combinator.Makes group.clauses.reverse f := by
  obtain ⟨combinator, clauses⟩ := group
  have hne' : clauses.reverse ≠ [] := by simpa using hne
  cases combinator with
  | and => exact ⟨_, .and hne'⟩
  | or => exact ⟨_, .or hne'⟩
  | not =>
      match clauses, hne, hcount rfl with
      | [f], _, _ => exact ⟨_, .not⟩

namespace ReadState

/-- The groups that are open. -/
def groups : ReadState → List OpenGroup
  | start | done _ => []
  | opened outer | asserted _ outer => outer
  | grouped group outer => group :: outer

/-- No open negation has more than the one clause that it can be closed with. -/
def Viable (state : ReadState) : Prop :=
  ∀ group ∈ state.groups, group.combinator = .not → group.clauses.length ≤ 1

variable {source : Text} {state state' : ReadState} {token : Token}

theorem groups_awaiting (outer : List OpenGroup) : (awaiting outer).groups = outer := by
  cases outer <;> rfl

theorem viable_of_complete {filter : Filter} {outer : List OpenGroup}
    (h : (complete filter outer).Viable) :
    ∀ group ∈ outer, group.combinator = .not → group.clauses.length ≤ 1 := by
  cases outer with
  | nil => simp
  | cons group outer =>
      obtain ⟨hgroup, houter⟩ := List.forall_mem_cons.mp h
      refine List.forall_mem_cons.mpr ⟨fun hnot => ?_, houter⟩
      exact (Nat.le_succ _).trans (hgroup hnot)

/-- **Where a step leads to viable groups**, they were viable before. -/
theorem Moves.viable (h : Moves state token state') (h' : state'.Viable) : state.Viable := by
  cases h with
  | openParen hlt =>
      rw [Viable, groups_awaiting]
      exact h'
  | operator combinator outer => exact (List.forall_mem_cons.mp h').2
  | assertion outer hsplit => exact h'
  | closeAssertion filter outer => exact viable_of_complete h'
  | @closeGroup group filter outer hmakes =>
      refine List.forall_mem_cons.mpr ⟨fun hnot => ?_, viable_of_complete h'⟩
      rw [hnot] at hmakes
      generalize hclauses : group.clauses.reverse = clauses at hmakes
      cases hmakes with
      | not => rw [← List.length_reverse, hclauses, List.length_singleton]

theorem viable_of_run : ∀ {tokens : List Token} {state : ReadState},
    tokens.foldlM (step source) state = .ok state' → state'.Viable → state.Viable
  | [], _, h, h' => by
      cases h
      exact h'
  | token :: tokens, _, h, h' => by
      rw [List.foldlM_cons] at h
      obtain ⟨next, hstep, h⟩ := bind_eq_ok_iff.mp h
      exact (step_eq_ok_iff.mp hstep).viable (viable_of_run h h')

/-- The reader may move over a token without its blank end as well. -/
theorem Moves.trimEnd (h : Moves state token state') : Moves state token.trimEnd state' := by
  cases h with
  | openParen hlt => exact .openParen hlt
  | operator combinator outer =>
      have htoken : combinator.token.trimEnd = combinator.token := by cases combinator <;> rfl
      rw [htoken]
      exact .operator combinator outer
  | assertion outer hsplit =>
      exact .assertion outer ((Assertion.split?_congr (Text.trim_trimEnd _)).trans hsplit)
  | closeAssertion filter outer => exact .closeAssertion filter outer
  | closeGroup outer hmakes => exact .closeGroup outer hmakes

/-! ### Ending early -/

theorem finish_complete {filter : Filter} {outer : List OpenGroup}
    (hviable : (complete filter outer).Viable) (hopen : ∀ f, complete filter outer ≠ done f) :
    (complete filter outer).finish source = .error .unexpectedEnd := by
  cases outer with
  | nil => exact absurd rfl (hopen filter)
  | cons group outer =>
      obtain ⟨hgroup, -⟩ := List.forall_mem_cons.mp hviable
      obtain ⟨f, hmakes⟩ := OpenGroup.exists_makes (List.cons_ne_nil _ _) hgroup
      rw [complete_cons, finish, OpenGroup.finish_eq_ok_iff.mpr hmakes]
      rfl

/-- **The error where a text ends behind a token**, if the groups might have been closed. -/
theorem Moves.finish_eq (h : Moves state token state') (hviable : state'.Viable)
    (hopen : ∀ f, state' ≠ done f) : state'.finish source = .error (token.endError source) := by
  cases h with
  | openParen hlt => rfl
  | operator combinator outer => cases combinator <;> rfl
  | assertion outer hsplit => rfl
  | closeAssertion filter outer => exact finish_complete hviable hopen
  | closeGroup outer hmakes => exact finish_complete hviable hopen

end ReadState

/-- **Of tokens that make a filter, no part in front makes one**: the last token there says what is
wrong, be it with or without its blank end. -/
theorem Filter.ofTokens_of_run {source : Text} {before after : List Token} {last : Token}
    {f : Filter} (hne : after ≠ [])
    (h : (before ++ last :: after).foldlM (ReadState.step source) .start = .ok (.done f)) :
    ofTokens source (before ++ [last.trimEnd]) = .error (last.endError source) := by
  rw [List.foldlM_append] at h
  obtain ⟨state, hbefore, h⟩ := bind_eq_ok_iff.mp h
  rw [List.foldlM_cons] at h
  obtain ⟨state', hlast, hafter⟩ := bind_eq_ok_iff.mp h
  have hmoves := ReadState.step_eq_ok_iff.mp hlast
  have hopen : ∀ g, state' ≠ .done g := by
    rintro g rfl
    obtain ⟨token, later, rfl⟩ := List.exists_cons_of_ne_nil hne
    cases hafter
  -- The whole run ends with all groups closed; that they can be closed is traced back from there.
  have hviable : state'.Viable :=
    ReadState.viable_of_run hafter (by simp [ReadState.Viable, ReadState.groups])
  have hlast' := hmoves.trimEnd.step_eq source
  rw [ofTokens, List.foldlM_append, hbefore]
  simp only [bind, Except.bind, List.foldlM_cons, List.foldlM_nil, hlast']
  exact hmoves.finish_eq hviable hopen

/-! ### Texts in parentheses -/

/-- The token at the start of a text where no operator may stand: a parenthesis, or everything up to
the next one. -/
def Text.firstPiece : Text → Text
  | [] => []
  | c :: t => if Token.isParen c then [c] else (c :: t).takeWhile fun d => !Token.isParen d

theorem Token.text_eq_firstPiece {t : Text} {token : Token} {later : List Token}
    (h : tokens t = token :: later) (ht : t.Flush) : token.text = t.firstPiece := by
  obtain ⟨w, rest, hw, rfl, hstands, -⟩ := scan_eq_cons_iff.mp h
  obtain rfl := hw.eq_nil_of_flush_append ht
  cases token with
  | openParen => rfl
  | closeParen => rfl
  | assertion text =>
      obtain ⟨hne, -, hplain, hrest, -⟩ := hstands
      obtain ⟨c, u, rfl⟩ := List.exists_cons_of_ne_nil hne
      have hrun : ((c :: u) ++ rest).takeWhile (fun d => !isParen d) = c :: u := by
        apply takeWhile_append_of_head
        · intro d hd
          simp [hplain d hd]
        · intro d hd
          simp [hrest d hd]
      have hc : isParen c = false := hplain c List.mem_cons_self
      change c :: u = if isParen c then [c] else ((c :: u) ++ rest).takeWhile fun d => !isParen d
      rw [hc, hrun]
      rfl
  | _ => cases hstands

namespace Filter

variable {f : Filter}

/-- A text in parentheses that is read has the tokens of a sketch, whatever follows it. -/
theorem exists_sketch_of_parse {s : Text} (h : parse s = .ok f)
    (hhead : s.trim.head? = some '(') :
    ∃ sketch : Sketch, (∀ source, sketch.read source maxDepth = .ok f) ∧
      ∀ rest, Token.tokens (s ++ rest) = sketch.tokens ++ Token.tokens rest := by
  obtain ⟨hderives, hdepth⟩ := derives_of_parse h
  rw [parenthesized, if_pos hhead] at hderives
  obtain ⟨sketch, hmeans, htokens⟩ := hderives.exists_sketch
  refine ⟨sketch, fun source => by rw [hmeans, if_pos hdepth], fun rest => ?_⟩
  obtain ⟨w, w', hw, hw', e⟩ := Text.exists_trim s
  rw [e, List.append_assoc, List.append_assoc, Token.tokens, Token.scan_blank_append hw, htokens,
    Token.scan_blank_append hw']
  rfl

/-- **A text in parentheses that is read is not read when it is cut behind one of its tokens**: it
breaks off, or what is there has no clause behind its last operator. -/
theorem parse_of_cut {p rest : Text} {before : List Token} {last : Token}
    (hread : parse (p ++ rest) = .ok f) (hhead : (p ++ rest).trim.head? = some '(')
    (hcut : Token.Cut false (p ++ rest) (before ++ [last]) rest)
    (hmore : Token.scan (last == .openParen) rest ≠ []) :
    parse p = .error (last.endError p.trim) := by
  obtain ⟨sketch, hsketch, htokens⟩ := exists_sketch_of_parse hread hhead
  have hall : sketch.tokens = before ++ last :: Token.scan (last == .openParen) rest := by
    rw [← hcut.scan_eq]
    simpa [Token.tokens] using (htokens []).symm
  have hrun := ReadState.run_tokens (hsketch p.trim)
  have hfirst := sketch.head?_tokens_append []
  rw [hall] at hrun
  rw [List.append_nil, hall] at hfirst
  have hfirst' : (before ++ [last]).head? = some .openParen := by
    cases before <;> exact hfirst
  rw [parse_eq_ofTokens hcut.scan_front hfirst']
  exact ofTokens_of_run hmore hrun

/-- Cut behind the operator, and behind the only clause of the negation. -/
theorem parse_of_cut_of_negation :
    let s : Text := " ( ! (a=1 ) )"
    Token.Cut false s [.openParen, .not] " (a=1 ) )" ∧
      parse " ( !" = .error (.expression "( !") ∧
      Token.Cut false s [.openParen, .not, .openParen, .assertion "a=1 ", .closeParen] " )" ∧
      parse " ( ! (a=1 )" = .error .unexpectedEnd := by
  intro s
  have hread : parse s = .ok (not (item "a" .equal "1")) := by decide +kernel
  have hhead : s.trim.head? = some '(' := by decide
  have hoperator : Token.Cut false s [.openParen, .not] " (a=1 ) )" :=
    .cons rfl (.cons rfl (.nil ..))
  have hclause :
      Token.Cut false s [.openParen, .not, .openParen, .assertion "a=1 ", .closeParen] " )" :=
    .cons rfl (.cons rfl (.cons rfl (.cons rfl (.cons rfl (.nil ..)))))
  have hmore : ∀ rest ∈ ([" (a=1 ) )", " )"] : List Text), Token.scan false rest ≠ [] := by
    simp only [ne_eq, Token.scan_eq_nil_iff]
    decide
  refine ⟨hoperator, ?_, hclause, ?_⟩
  · exact @parse_of_cut _ " ( !" " (a=1 ) )" [.openParen] .not hread hhead hoperator
      (hmore _ (by simp))
  · exact @parse_of_cut _ " ( ! (a=1 )" " )" [.openParen, .not, .openParen, .assertion "a=1 "]
      .closeParen hread hhead hclause (hmore _ (by simp))

/-- **A text in parentheses that is read is not read with anything but blanks behind it**: the error
names the first token of what follows. -/
theorem parse_append {s t : Text} (hread : parse s = .ok f) (hhead : s.trim.head? = some '(')
    (ht : ¬ t.Blank) : parse (s ++ t) = .error (.unexpectedToken t.trim.firstPiece) := by
  obtain ⟨sketch, hsketch, htokens⟩ := exists_sketch_of_parse hread hhead
  have hne : Token.tokens t ≠ [] := mt Token.scan_eq_nil_iff.mp ht
  obtain ⟨front, last, e⟩ := (List.eq_nil_or_concat' (Token.tokens t)).resolve_left hne
  have htrim : Token.tokens t.trim = front ++ [last.trimEnd] := Token.scan_trim e
  have hall : Token.tokens (s ++ t) = (sketch.tokens ++ front) ++ [last] := by
    rw [htokens, e, List.append_assoc]
  have hfirst := sketch.head?_tokens_append (front ++ [last])
  rw [← List.append_assoc] at hfirst
  obtain ⟨token, later, hnext⟩ : ∃ token later, Token.tokens t.trim = token :: later :=
    List.exists_cons_of_ne_nil (by simp [htrim])
  have htext := Token.text_eq_firstPiece hnext (Text.trimmed_trim t).1
  rw [parse_eq_ofTokens hall hfirst, List.append_assoc, ← htrim, hnext, ofTokens,
    List.foldlM_append, ReadState.run_tokens (hsketch _), ← htext]
  rfl

/-- An operator character is part of the text behind a whole filter, and so are the blanks before
the next parenthesis. -/
theorem parse_append_of_operator :
    parse ("(a=1) " ++ " & (b=2) " : Text) = .error (.unexpectedToken "& ") ∧
      parse ("(a=1) " ++ " (b=2) " : Text) = .error (.unexpectedToken "(") := by
  have hread : parse "(a=1) " = .ok (item "a" .equal "1") := by decide +kernel
  have hhead : (Text.trim "(a=1) ").head? = some '(' := by decide
  exact ⟨parse_append hread hhead (by decide), parse_append hread hhead (by decide)⟩

end Filter
end SearchFilter
