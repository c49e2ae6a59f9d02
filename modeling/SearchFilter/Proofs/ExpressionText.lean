import SearchFilter.Proofs.ExpressionDepth

/-! # The filter string of an expression

An expression can be written as a filter string: a group as its operator and the strings of its
clauses, a mapping as one test after the other, and a filter string as it is, in parentheses
(`Expression.render`).  If all parts of the expression are legible (`Expression.Legible`), the
grammar derives from that string the filter that is built of the expression.

The proof goes clause by clause.  What a clause is written as falls into pieces, one for each filter
that it stands for; `Agree` says that each piece derives its filter, and that the filters are the
ones that are built. -/

namespace SearchFilter

namespace Expression

/-! ### Writing expressions -/

def renderPresence (attr : Text) : Text := '(' :: (attr ++ "=*") ++ [')']

def renderTest (attr value : Text) : Text := '(' :: (attr ++ '=' :: value) ++ [')']

/-- The operator that a symbol stands for; a symbol that names no combinator is left as it is. -/
def renderSymbol (symbol : Text) : Text :=
  match Combinator.ofSymbol symbol with
  | .ok combinator => [combinator.operator]
  | .error _ => symbol

mutual

/-- The filter string of an expression.  That of the empty expression is the filter that every entry
passes, and that of a mapping is a run of tests. -/
def render : Expression → Text
  | empty => renderPresence objectClass
  | literal text => Filter.parenthesized text.trim
  | presence attr => renderPresence attr
  | pair attr value => renderTest attr value
  | nested symbol clauses => '(' :: (renderSymbol symbol ++ renderAll clauses) ++ [')']
  | mapping attr values => values.flatMap (renderTest attr)

def renderAll : List Expression → Text
  | [] => []
  | e :: es => e.render ++ renderAll es

end

/-! ### Legible expressions -/

/-- How many clauses an expression stands for in a group. -/
def width : Expression → Nat
  | mapping _ values => values.length
  | empty | literal _ | presence _ | pair .. | nested .. => 1

def widthAll : List Expression → Nat
  | [] => 0
  | e :: es => e.width + widthAll es

mutual

/-- The filter strings of the expression can be read, its attributes are attribute descriptions, its
values are clean, its symbols name combinators, and each combinator takes as many clauses as it is
given. -/
def Legible : Expression → Prop
  | empty => True
  | literal text => ∃ f, Filter.parse text = .ok f
  | presence attr => isAttribute attr = true
  | pair attr value => isAttribute attr = true ∧ value.Clean
  | nested symbol clauses =>
    (∃ combinator, Combinator.ofSymbol symbol = .ok combinator ∧
      combinator.Takes (widthAll clauses)) ∧ LegibleAll clauses
  | mapping attr values => isAttribute attr = true ∧ ∀ value ∈ values, value.Clean

def LegibleAll : List Expression → Prop
  | [] => True
  | e :: es => e.Legible ∧ LegibleAll es

end

mutual

theorem reach_le_depth : ∀ {e : Expression}, e.Legible → e.reach ≤ e.depth
  | empty, _ | presence _, _ | pair .., _ => Nat.le_refl 1
  | literal text, ⟨f, hf⟩ => by
      rw [reach, depth, literalDepth_of_parse hf, Filter.depth_eq]
      omega
  | nested symbol clauses, ⟨_, hclauses⟩ => by
      have h := reachAll_le_depthAll hclauses
      rw [reach, depth]
      omega
  | mapping attr values, _ => Nat.zero_le _

theorem reachAll_le_depthAll : ∀ {es : List Expression}, LegibleAll es → reachAll es ≤ depthAll es
  | [], _ => Nat.le_refl 0
  | e :: es, ⟨he, hes⟩ => by
      have h := reach_le_depth he
      have hs := reachAll_le_depthAll hes
      rw [reachAll, depthAll]
      omega

end

/-! ### The clauses of a group -/

/-- `Agree text count reach build pieces`: the pieces are texts from which the grammar derives
filters.  There are `count` of them, the texts make up `text`, and the filters are what is built at
every level below which there is room for `reach` levels. -/
structure Agree (text : Text) (count reach : Nat) (build : Nat → Except FilterError (List Filter))
    (pieces : List (Text × Filter)) : Prop where
  derives : ∀ p ∈ pieces, Derives p.1 p.2
  text_eq : pieces.flatMap Prod.fst = text
  count_eq : pieces.length = count
  build_eq : ∀ level, level + reach ≤ Filter.maxDepth + 1 →
    build level = .ok (pieces.map Prod.snd)

theorem Agree.append {t t' : Text} {n n' r r' : Nat}
    {build build' : Nat → Except FilterError (List Filter)} {pieces pieces' : List (Text × Filter)}
    (h : Agree t n r build pieces) (h' : Agree t' n' r' build' pieces') :
    Agree (t ++ t') (n + n') (max r r')
      (fun level => do
        let filters ← build level
        let rest ← build' level
        return filters ++ rest) (pieces ++ pieces') where
  derives p hp := (List.mem_append.mp hp).elim (h.derives p) (h'.derives p)
  text_eq := by rw [List.flatMap_append, h.text_eq, h'.text_eq]
  count_eq := by rw [List.length_append, h.count_eq, h'.count_eq]
  build_eq level hlevel := by
    rw [h.build_eq level (by omega), h'.build_eq level (by omega), List.map_append]
    rfl

theorem agree_of_derives {e : Expression} {f : Filter} (he : ∀ attr values, e ≠ mapping attr values)
    (hderives : Derives e.render f)
    (hbuild : ∀ level, level + e.reach ≤ Filter.maxDepth + 1 → e.filterAt level = .ok f) :
    Agree e.render 1 e.reach (clauseFilters · e) [(e.render, f)] where
  derives p hp := by
    rw [List.mem_singleton.mp hp]
    exact hderives
  text_eq := by simp
  count_eq := rfl
  build_eq level hlevel := by
    rw [clauseFilters_eq_map he, hbuild level hlevel]
    rfl

theorem derives_renderTest {attr value : Text} (hattr : isAttribute attr = true)
    (hvalue : value.Clean) :
    Derives (renderTest attr value) (Filter.assertion attr .equal value) := by
  have hdenotes : Denotes attr .equal value.trim (Filter.assertion attr .equal value) := by
    rw [Text.trim_eq_self hvalue.2]
    exact denotes_iff.mpr rfl
  have h := Filter.derives_comparison hattr hvalue.1 hdenotes
  simpa [renderTest, Comparison.symbol] using h

theorem derives_renderPresence {attr : Text} (hattr : isAttribute attr = true) :
    Derives (renderPresence attr) (.presence attr) := by
  have hstar : Text.Clean ['*'] := by decide
  have h := derives_renderTest hattr hstar
  simpa [renderPresence, renderTest, Filter.assertion] using h

theorem filterAt_pair {level : Nat} (hlevel : level ≤ Filter.maxDepth) (attr value : Text) :
    (pair attr value).filterAt level =
      (checkAttribute attr).map fun _ => Filter.assertion attr .equal value := by
  rw [filterAt, if_neg (Nat.not_lt.mpr hlevel)]
  cases checkAttribute attr <;> rfl

theorem agree_mapping {attr : Text} {values : List Text} (hattr : isAttribute attr = true)
    (hvalues : ∀ value ∈ values, value.Clean) :
    Agree (mapping attr values).render values.length 0
      (clauseFilters · (mapping attr values))
      (values.map fun value => (renderTest attr value, Filter.assertion attr .equal value)) where
  derives p hp := by
    obtain ⟨value, hvalue, rfl⟩ := List.mem_map.mp hp
    exact derives_renderTest hattr (hvalues value hvalue)
  text_eq := by rw [render, List.flatMap_map]
  count_eq := List.length_map _
  build_eq level _ := by
    rw [clauseFilters, checkAttribute_eq_ok hattr, List.map_map]
    rfl

mutual

/-- **A legible clause is built of what it is written as**, piece by piece. -/
theorem exists_agree : ∀ {e : Expression}, e.Legible →
    ∃ pieces, Agree e.render e.width e.reach (clauseFilters · e) pieces
  | empty, _ => by
      have hattr : isAttribute objectClass = true := by decide
      refine ⟨_, agree_of_derives (by simp) (derives_renderPresence hattr) fun level hlevel => ?_⟩
      rw [reach] at hlevel
      rw [filterAt, if_neg (by omega)]
      rfl
  | literal text, ⟨f, hf⟩ => by
      have hderives : Derives (literal text).render f := (Filter.derives_of_parse hf).1
      refine ⟨_, agree_of_derives (by simp) hderives fun level hlevel => ?_⟩
      rw [reach] at hlevel
      rw [filterAt, if_neg (by omega)]
      exact hf
  | presence attr, hattr => by
      refine ⟨_, agree_of_derives (by simp) (derives_renderPresence hattr) fun level hlevel => ?_⟩
      rw [reach] at hlevel
      rw [filterAt, if_neg (by omega), checkAttribute_eq_ok hattr]
      rfl
  | pair attr value, ⟨hattr, hvalue⟩ => by
      have hderives : Derives (pair attr value).render _ := derives_renderTest hattr hvalue
      refine ⟨_, agree_of_derives (by simp) hderives fun level hlevel => ?_⟩
      rw [reach] at hlevel
      rw [filterAt, if_neg (by omega), checkAttribute_eq_ok hattr]
      rfl
  | nested symbol clauses, ⟨⟨combinator, hsymbol, htakes⟩, hclauses⟩ => by
      obtain ⟨pieces, h⟩ := exists_agree_all hclauses
      -- What the combinator takes is stated of the width; the pieces are as many.
      rw [← h.count_eq, ← List.length_map Prod.snd] at htakes
      obtain ⟨f, hmakes⟩ := htakes.exists_makes
      have hderives : Derives (nested symbol clauses).render f := by
        have hgroup := Derives.group Text.blank_nil Text.blank_nil Text.blank_nil h.derives hmakes
        simpa [render, renderSymbol, hsymbol, h.text_eq] using hgroup
      refine ⟨_, agree_of_derives (by simp) hderives fun level hlevel => ?_⟩
      rw [reach] at hlevel
      rw [filterAt, if_neg (by omega)]
      simp only [hsymbol, h.build_eq (level + 1) (by omega)]
      exact Combinator.apply_eq_ok_iff.mpr hmakes
  | mapping attr values, ⟨hattr, hvalues⟩ => ⟨_, agree_mapping hattr hvalues⟩

theorem exists_agree_all : ∀ {es : List Expression}, LegibleAll es →
    ∃ pieces, Agree (renderAll es) (widthAll es) (reachAll es) (filtersAt · es) pieces
  | [], _ => ⟨[], by simp, rfl, rfl, fun level _ => rfl⟩
  | e :: es, ⟨he, hes⟩ => by
      obtain ⟨pieces, h⟩ := exists_agree he
      obtain ⟨pieces', h'⟩ := exists_agree_all hes
      refine ⟨pieces ++ pieces', ?_⟩
      simp only [renderAll, widthAll, reachAll, filtersAt_cons]
      exact h.append h'

end

/-! ### Both ways to a filter -/

/-- The filter string of a legible expression derives the filter that is built of it. -/
theorem exists_derives {e : Expression} (he : e.Legible)
    (hmapping : ∀ attr values, e ≠ mapping attr values) :
    ∃ f, Derives e.render f ∧ (e.reach ≤ Filter.maxDepth → e.filter = .ok f) := by
  obtain ⟨pieces, h⟩ := exists_agree he
  have hwidth : e.width = 1 := by
    cases e with
    | mapping attr values => exact absurd rfl (hmapping attr values)
    | _ => rfl
  obtain ⟨⟨t, f⟩, rfl⟩ := List.length_eq_one_iff.mp (h.count_eq.trans hwidth)
  have htext : t = e.render := by simpa using h.text_eq
  refine ⟨f, htext ▸ h.derives (t, f) List.mem_cons_self, fun hreach => ?_⟩
  have hbuild := h.build_eq 1 (by omega)
  rw [clauseFilters_eq_map hmapping] at hbuild
  cases hfilter : e.filterAt 1 with
  | error error =>
      rw [hfilter] at hbuild
      cases hbuild
  | ok g =>
      rw [hfilter] at hbuild
      cases hbuild
      exact hfilter

/-- **Building a legible expression and reading its filter string give the same filter**, unless
that is too deep.  It is as deep as the expression. -/
theorem filter_eq_parse_render {e : Expression} (he : e.Legible)
    (hmapping : ∀ attr values, e ≠ mapping attr values) (hdepth : e.depth ≤ Filter.maxDepth) :
    ∃ f, e.filter = .ok f ∧ Filter.parse e.render = .ok f ∧ f.depth = e.depth := by
  obtain ⟨f, hderives, hbuild⟩ := exists_derives he hmapping
  have hfilter := hbuild ((reach_le_depth he).trans hdepth)
  have hf : f.depth = e.depth := (measured_of_filterAt hfilter).depth_eq
  refine ⟨f, hfilter, ?_, hf⟩
  rw [Filter.parse_derived hderives, hf, if_pos hdepth]

/-- A filter string with blanks and without its parentheses, mappings of two values, of none and of
one, and symbols of both spellings. -/
theorem filter_eq_parse_render_of_mixed :
    let e := nested ":and" [literal " | ( cn = a b ) (mail) ", mapping "uid" ["lar", "b*"],
      mapping "sn" [], nested "!" [mapping "o" ["*"]], empty]
    e.render = "(&(| ( cn = a b ) (mail))(uid=lar)(uid=b*)(!(o=*))(objectClass=*))" ∧
      ∃ f, e.filter = .ok f ∧ Filter.parse e.render = .ok f ∧ f.depth = 3 := by
  intro e
  have hliteral : Filter.parse " | ( cn = a b ) (mail) " =
      .ok (.or [.item "cn" .equal "a b", .presence "mail"]) := by decide +kernel
  have hnot : (nested "!" [mapping "o" ["*"]]).Legible :=
    ⟨⟨.not, rfl, by decide⟩, ⟨by decide, by decide⟩, trivial⟩
  have he : e.Legible :=
    ⟨⟨.and, rfl, by decide⟩, ⟨_, hliteral⟩, ⟨by decide, by decide⟩,
      ⟨by decide, by decide⟩, hnot, trivial, trivial⟩
  have hdepth : e.depth = 3 := by decide +kernel
  refine ⟨by decide +kernel, ?_⟩
  obtain ⟨f, hfilter, hread, hf⟩ := filter_eq_parse_render he (by simp [e]) (by rw [hdepth]; decide)
  exact ⟨f, hfilter, hread, hf.trans hdepth⟩

end Expression
end SearchFilter
