import SearchFilter.Filter.Reader
import SearchFilter.Proofs.AssertionText
import SearchFilter.Proofs.Steps

/-! # The reader and the tree it follows

A `Sketch` is the shape of a written filter: which parentheses belong together and which texts
stand between them, before any assertion has been taken apart.  `Sketch.read` reads it by
recursion, level by level, while the reader proper goes over the tokens with a stack of open
groups.  The two agree on the tokens of a sketch, errors included (`ofTokens_tokens`), and whatever
token list the reader accepts is the token list of a sketch (`exists_sketch_of_ofTokens`).

The first is an induction on the sketch, over any stack.  The second is an induction on the tokens,
for which `ReadState.Reached` says what the tokens read so far must have been. -/

namespace SearchFilter

def Combinator.token : Combinator → Token
  | and => .and
  | or => .or
  | not => .not

/-- A filter as it is written, before its assertions are taken apart. -/
inductive Sketch where
  | leaf (text : Text)
  | group (combinator : Combinator) (members : List Sketch)

namespace Sketch

mutual

def tokens : Sketch → List Token
  | leaf text => [.openParen, .assertion text, .closeParen]
  | group combinator members =>
    .openParen :: combinator.token :: (tokensAll members ++ [.closeParen])

def tokensAll : List Sketch → List Token
  | [] => []
  | s :: ss => s.tokens ++ tokensAll ss

end

mutual

/-- The filter of a sketch, with so many levels left.  A group is finished as the reader does. -/
def read (source : Text) : Nat → Sketch → Except FilterError Filter
  | 0, _ => .error (.nestingTooDeep Filter.maxDepth)
  | _ + 1, leaf text =>
    match Assertion.split? text with
    | some assertion => .ok assertion.filter
    | none => .error (.expression text.trim)
  | n + 1, group combinator members => do
    let filters ← readAll source n members
    OpenGroup.finish source ⟨combinator, filters.reverse⟩

def readAll (source : Text) (n : Nat) : List Sketch → Except FilterError (List Filter)
  | [] => .ok []
  | s :: ss => do
    let filter ← s.read source n
    let filters ← readAll source n ss
    .ok (filter :: filters)

end

variable {source : Text}

theorem tokensAll_append : ∀ (ss ts : List Sketch),
    tokensAll (ss ++ ts) = tokensAll ss ++ tokensAll ts
  | [], _ => rfl
  | s :: ss, ts => by
      rw [List.cons_append, tokensAll, tokensAll, tokensAll_append ss ts, List.append_assoc]

theorem head?_tokens_append (s : Sketch) (later : List Token) :
    (s.tokens ++ later).head? = some .openParen := by
  cases s <;> rfl

theorem exists_tokens_eq (s : Sketch) : ∃ before, s.tokens = before ++ [.closeParen] := by
  cases s with
  | leaf text => exact ⟨[.openParen, .assertion text], rfl⟩
  | group combinator members =>
      exact ⟨.openParen :: combinator.token :: tokensAll members, rfl⟩

theorem readAll_cons_eq_ok {n : Nat} {s : Sketch} {ss : List Sketch} {fs : List Filter}
    (h : readAll source n (s :: ss) = .ok fs) :
    ∃ g gs, s.read source n = .ok g ∧ readAll source n ss = .ok gs ∧ fs = g :: gs := by
  rw [readAll] at h
  obtain ⟨g, hs, h⟩ := bind_eq_ok_iff.mp h
  obtain ⟨gs, hss, h⟩ := bind_eq_ok_iff.mp h
  cases h
  exact ⟨g, gs, hs, hss, rfl⟩

theorem readAll_append {n : Nat} {s : Sketch} {f : Filter} (hs : s.read source n = .ok f) :
    ∀ {ss : List Sketch} {fs : List Filter}, readAll source n ss = .ok fs →
      readAll source n (ss ++ [s]) = .ok (fs ++ [f])
  | [], fs, h => by
      cases h
      rw [List.nil_append, readAll, hs]
      rfl
  | t :: ss, fs, h => by
      obtain ⟨g, gs, ht, hss, rfl⟩ := readAll_cons_eq_ok h
      rw [List.cons_append, readAll, ht, readAll_append hs hss]
      rfl

end Sketch

/-! ### The reader on the tokens of a sketch -/

namespace ReadState

/-- The state in which the next filter inside some open groups may begin. -/
def awaiting : List OpenGroup → ReadState
  | [] => start
  | group :: outer => grouped group outer

theorem step_awaiting_openParen (source : Text) (outer : List OpenGroup) :
    step source (awaiting outer) .openParen = openFilter outer := by
  cases outer <;> rfl

theorem step_opened_operator (source : Text) (outer : List OpenGroup) (combinator : Combinator) :
    step source (opened outer) combinator.token = .ok (grouped ⟨combinator, []⟩ outer) := by
  cases combinator <;> rfl

theorem openFilter_of_le {outer : List OpenGroup} (h : Filter.maxDepth - outer.length = 0) :
    openFilter outer = .error (.nestingTooDeep Filter.maxDepth) := by
  unfold openFilter
  rw [if_neg]
  omega

theorem openFilter_of_lt {outer : List OpenGroup} {n : Nat}
    (h : Filter.maxDepth - outer.length = n + 1) : openFilter outer = .ok (opened outer) := by
  unfold openFilter
  rw [if_pos]
  omega

theorem complete_cons (filter : Filter) (group : OpenGroup) (outer : List OpenGroup) :
    complete filter (group :: outer) =
      grouped { group with clauses := filter :: group.clauses } outer := rfl

variable {source : Text}

mutual

/-- **The reader follows the sketch**: its tokens complete the filter that reading it level by
level gives, or fail as that does. -/
theorem foldlM_tokens : ∀ (s : Sketch) (outer : List OpenGroup),
    s.tokens.foldlM (step source) (awaiting outer) =
      (s.read source (Filter.maxDepth - outer.length)).map (complete · outer)
  | .leaf text, outer => by
      rw [Sketch.tokens, List.foldlM_cons, step_awaiting_openParen]
      cases hn : Filter.maxDepth - outer.length with
      | zero =>
          rw [openFilter_of_le hn]
          rfl
      | succ n =>
          rw [openFilter_of_lt hn, Sketch.read]
          simp only [bind, Except.bind, List.foldlM_cons, step]
          cases Assertion.split? text with
          | none => rfl
          | some a => rfl
  | .group combinator members, outer => by
      rw [Sketch.tokens, List.foldlM_cons, step_awaiting_openParen]
      cases hn : Filter.maxDepth - outer.length with
      | zero =>
          rw [openFilter_of_le hn]
          rfl
      | succ n =>
          -- Once the group is open, its members are left one level less.
          have hn' : Filter.maxDepth - (outer.length + 1) = n := by omega
          have hmembers := foldlM_tokensAll members ⟨combinator, []⟩ outer
          rw [hn'] at hmembers
          rw [openFilter_of_lt hn, Sketch.read]
          simp only [bind, Except.bind, List.foldlM_cons, step_opened_operator, List.foldlM_append,
            hmembers]
          cases Sketch.readAll source n members with
          | error e => rfl
          | ok fs =>
              simp only [Except.map, List.append_nil, List.foldlM_nil, step, bind, Except.bind]
              cases OpenGroup.finish source ⟨combinator, fs.reverse⟩ with
              | error e => rfl
              | ok f => rfl

theorem foldlM_tokensAll : ∀ (ss : List Sketch) (group : OpenGroup) (outer : List OpenGroup),
    (Sketch.tokensAll ss).foldlM (step source) (grouped group outer) =
      (Sketch.readAll source (Filter.maxDepth - (outer.length + 1)) ss).map fun fs =>
        grouped { group with clauses := fs.reverse ++ group.clauses } outer
  | [], group, outer => rfl
  | s :: ss, group, outer => by
      rw [Sketch.tokensAll, Sketch.readAll, List.foldlM_append]
      have hs := foldlM_tokens s (group :: outer)
      rw [List.length_cons] at hs
      change s.tokens.foldlM (step source) (grouped group outer) = _ at hs
      rw [hs]
      cases s.read source (Filter.maxDepth - (outer.length + 1)) with
      | error e => rfl
      | ok f =>
          simp only [Except.map, complete_cons, bind, Except.bind]
          rw [foldlM_tokensAll ss]
          cases Sketch.readAll source (Filter.maxDepth - (outer.length + 1)) ss with
          | error e => rfl
          | ok fs => simp [Except.map]

end

end ReadState

theorem ReadState.run_tokens {source : Text} {s : Sketch} {f : Filter}
    (h : s.read source Filter.maxDepth = .ok f) :
    s.tokens.foldlM (step source) start = .ok (done f) :=
  (foldlM_tokens s []).trans (congrArg _ h)

namespace Filter

theorem ofTokens_tokens (source : Text) (s : Sketch) :
    ofTokens source s.tokens = s.read source maxDepth := by
  unfold ofTokens
  have h := @ReadState.foldlM_tokens source s []
  change s.tokens.foldlM (ReadState.step source) .start = _ at h
  rw [h]
  cases s.read source (maxDepth - ([] : List OpenGroup).length) with
  | error e => rfl
  | ok f => rfl

end Filter

/-! ### The steps that succeed -/

theorem OpenGroup.finish_eq_ok_iff {source : Text} {group : OpenGroup} {f : Filter} :
    group.finish source = .ok f ↔ group.combinator.Makes group.clauses.reverse f := by
  obtain ⟨combinator, clauses⟩ := group
  cases clauses with
  | nil =>
      constructor
      · intro h
        cases h
      · intro h
        exact absurd rfl h.ne_nil
  | cons clause clauses => exact Combinator.apply_eq_ok_iff

namespace ReadState

/-- `Moves state token state'`: the token takes the reader from one state to the other.  Which text
errors quote plays no part in that. -/
inductive Moves : ReadState → Token → ReadState → Prop
  | openParen {outer : List OpenGroup} : outer.length < Filter.maxDepth →
      Moves (awaiting outer) .openParen (opened outer)
  | operator (combinator : Combinator) (outer : List OpenGroup) :
      Moves (opened outer) combinator.token (grouped ⟨combinator, []⟩ outer)
  | assertion {text : Text} {assertion : Assertion} (outer : List OpenGroup) :
      Assertion.split? text = some assertion →
      Moves (opened outer) (.assertion text) (asserted assertion.filter outer)
  | closeAssertion (filter : Filter) (outer : List OpenGroup) :
      Moves (asserted filter outer) .closeParen (complete filter outer)
  | closeGroup {group : OpenGroup} {filter : Filter} (outer : List OpenGroup) :
      group.combinator.Makes group.clauses.reverse filter →
      Moves (grouped group outer) .closeParen (complete filter outer)

variable {source : Text} {state state' : ReadState} {token : Token}

theorem moves_of_openFilter (outer : List OpenGroup) (h : openFilter outer = .ok state') :
    Moves (awaiting outer) .openParen state' := by
  unfold openFilter at h
  split at h
  · rename_i hlt
    cases h
    exact .openParen hlt
  · cases h

theorem moves_of_step (h : step source state token = .ok state') : Moves state token state' := by
  cases state with
  | start =>
      cases token with
      | openParen => exact moves_of_openFilter [] h
      | _ => cases h
  | opened outer =>
      cases token with
      | and => cases h; exact .operator .and outer
      | or => cases h; exact .operator .or outer
      | not => cases h; exact .operator .not outer
      | assertion text =>
          simp only [step] at h
          cases hsplit : Assertion.split? text with
          | none => rw [hsplit] at h; cases h
          | some assertion => rw [hsplit] at h; cases h; exact .assertion outer hsplit
      | openParen => cases h
      | closeParen => cases h
  | asserted filter outer =>
      cases token with
      | closeParen => cases h; exact .closeAssertion filter outer
      | _ => cases h
  | grouped group outer =>
      cases token with
      | openParen => exact moves_of_openFilter (group :: outer) h
      | closeParen =>
          obtain ⟨filter, hfinish, h⟩ := bind_eq_ok_iff.mp h
          cases h
          exact .closeGroup outer (OpenGroup.finish_eq_ok_iff.mp hfinish)
      | _ =>
          obtain ⟨filter, -, h⟩ := bind_eq_ok_iff.mp h
          cases h
  | done filter => cases h

theorem Moves.step_eq (h : Moves state token state') (source : Text) :
    step source state token = .ok state' := by
  cases h with
  | openParen hlt => rw [step_awaiting_openParen, openFilter, if_pos hlt]
  | operator combinator outer => exact step_opened_operator source outer combinator
  | assertion outer hsplit => simp only [step, hsplit]
  | closeAssertion filter outer => rfl
  | closeGroup outer hmakes =>
      simp only [step, OpenGroup.finish_eq_ok_iff.mpr hmakes]
      rfl

/-- **The steps of the reader that succeed.** -/
theorem step_eq_ok_iff : step source state token = .ok state' ↔ Moves state token state' :=
  ⟨moves_of_step, fun h => h.step_eq source⟩

end ReadState

/-! ### What an accepted token list is -/

/-- `Opening source tokens groups`: the tokens open the groups and give each its clauses so far,
so that the next clause of the innermost group may follow. -/
inductive Opening (source : Text) : List Token → List OpenGroup → Prop
  | nil : Opening source [] []
  | group {tokens : List Token} {outer : List OpenGroup} {members : List Sketch}
      {filters : List Filter} (combinator : Combinator) :
      Opening source tokens outer → outer.length < Filter.maxDepth →
      Sketch.readAll source (Filter.maxDepth - (outer.length + 1)) members = .ok filters →
      Opening source (tokens ++ .openParen :: combinator.token :: Sketch.tokensAll members)
        (⟨combinator, filters.reverse⟩ :: outer)

namespace ReadState

variable {source : Text}

/-- `Reached source tokens state`: what the tokens may be that led the reader to the state. -/
def Reached (source : Text) (tokens : List Token) : ReadState → Prop
  | start => tokens = []
  | opened outer =>
    outer.length < Filter.maxDepth ∧
      ∃ before, Opening source before outer ∧ tokens = before ++ [.openParen]
  | asserted filter outer =>
    outer.length < Filter.maxDepth ∧
      ∃ before text assertion, Opening source before outer ∧
        Assertion.split? text = some assertion ∧ assertion.filter = filter ∧
        tokens = before ++ [.openParen, .assertion text]
  | grouped group outer => Opening source tokens (group :: outer)
  | done filter =>
    ∃ s : Sketch, s.read source Filter.maxDepth = .ok filter ∧ tokens = s.tokens

/-- A whole filter behind the tokens that opened some groups is a clause, or the end. -/
theorem reached_complete {before : List Token} {outer : List OpenGroup} {s : Sketch}
    {filter : Filter} (hopen : Opening source before outer)
    (hs : s.read source (Filter.maxDepth - outer.length) = .ok filter) :
    Reached source (before ++ s.tokens) (complete filter outer) := by
  cases hopen with
  | nil => exact ⟨s, hs, rfl⟩
  | @group tokens outer members filters combinator hopen hlt hmembers =>
      have hsnoc := Sketch.readAll_append hs hmembers
      have h := Opening.group combinator hopen hlt hsnoc
      rw [Sketch.tokensAll_append, List.reverse_append] at h
      simpa [complete, Reached, Sketch.tokensAll] using h

theorem reached_awaiting {tokens : List Token} {outer : List OpenGroup}
    (h : Reached source tokens (awaiting outer)) : Opening source tokens outer := by
  cases outer with
  | nil =>
      cases (h : tokens = [])
      exact .nil
  | cons group outer => exact h

theorem reached_operator {before : List Token} {outer : List OpenGroup} (combinator : Combinator)
    (hlt : outer.length < Filter.maxDepth) (hopen : Opening source before outer) :
    Reached source (before ++ [.openParen] ++ [combinator.token])
      (grouped ⟨combinator, []⟩ outer) := by
  rw [List.append_assoc]
  exact @Opening.group _ _ _ [] [] combinator hopen hlt rfl

/-- **One step of the reader** keeps the account of the tokens. -/
theorem Reached.step {tokens : List Token} {state state' : ReadState} {token : Token}
    (h : Reached source tokens state) (hstep : ReadState.step source state token = .ok state') :
    Reached source (tokens ++ [token]) state' := by
  cases step_eq_ok_iff.mp hstep with
  | openParen hlt => exact ⟨hlt, tokens, reached_awaiting h, rfl⟩
  | operator combinator outer =>
      obtain ⟨hlt, before, hopen, rfl⟩ := h
      exact reached_operator combinator hlt hopen
  | assertion outer hsplit =>
      obtain ⟨hlt, before, hopen, rfl⟩ := h
      exact ⟨hlt, before, _, _, hopen, hsplit, rfl, List.append_assoc ..⟩
  | closeAssertion filter outer =>
      obtain ⟨hlt, before, text, assertion, hopen, hsplit, rfl, rfl⟩ := h
      rw [List.append_assoc]
      apply reached_complete (s := .leaf text) hopen
      -- There was a level left for the leaf when its parenthesis was opened.
      obtain ⟨n, hn⟩ := Nat.exists_eq_succ_of_ne_zero (Nat.sub_ne_zero_of_lt hlt)
      rw [hn, Sketch.read, hsplit]
  | closeGroup outer hmakes =>
      cases h with
      | @group before outer members filters combinator hopen hlt hmembers =>
          rw [List.append_assoc]
          apply reached_complete (s := .group combinator members) hopen
          obtain ⟨n, hn⟩ := Nat.exists_eq_succ_of_ne_zero (Nat.sub_ne_zero_of_lt hlt)
          have hn' : Filter.maxDepth - (outer.length + 1) = n := by omega
          rw [hn'] at hmembers
          rw [hn, Sketch.read, hmembers]
          exact OpenGroup.finish_eq_ok_iff.mpr hmakes

theorem Reached.run : ∀ {later tokens : List Token} {state state' : ReadState},
    Reached source tokens state → later.foldlM (ReadState.step source) state = .ok state' →
      Reached source (tokens ++ later) state'
  | [], tokens, state, state', h, hrun => by
      cases hrun
      rwa [List.append_nil]
  | token :: later, tokens, state, state', h, hrun => by
      rw [List.foldlM_cons] at hrun
      obtain ⟨next, hstep, hrun⟩ := bind_eq_ok_iff.mp hrun
      have := (h.step hstep).run hrun
      rwa [List.append_assoc] at this

end ReadState

namespace Filter

/-- **An accepted token list is the token list of a sketch.** -/
theorem exists_sketch_of_ofTokens {source : Text} {tokens : List Token} {f : Filter}
    (h : ofTokens source tokens = .ok f) :
    ∃ s : Sketch, s.tokens = tokens ∧ s.read source maxDepth = .ok f := by
  obtain ⟨state, hrun, hfinish⟩ := bind_eq_ok_iff.mp h
  have hstart : ReadState.Reached source [] .start := rfl
  have hreached := hstart.run hrun
  cases state with
  | done g =>
      obtain ⟨s, hs, e⟩ := hreached
      cases hfinish
      exact ⟨s, e.symm, hs⟩
  | grouped group outer =>
      obtain ⟨g, -, hend⟩ := bind_eq_ok_iff.mp hfinish
      cases hend
  | _ => cases hfinish

end Filter
end SearchFilter
