import SearchFilter.Proofs.Defects
import SearchFilter.Proofs.ExpressionText

/-! # Which defect of an expression is reported

An expression may hold filter strings that cannot be read, attributes that are no attribute
descriptions, symbols that name no combinator, and combinators with the wrong number of clauses.
`Expression.defects` lists them in the order in which they are looked at: the symbol of a group, its
clauses one after the other, then how many filters they stand for.  Building reports the first of
them, and succeeds if there are none (`Expression.reports_filter`); then the filter is what the
expression stands for.

This is so as long as all parts that are built by themselves are within the limit on levels.  The
filters of a group's clauses are counted as they are, a mapping once for each of its values, so
that the count goes by what the clauses expand to (`length_of_filtersAt`). -/

namespace SearchFilter

namespace Expression

/-! ### Defects -/

def attributeDefects (attr : Text) : List FilterError :=
  if isAttribute attr then [] else [.invalidAttribute attr]

mutual

/-- What is wrong with an expression, in the order in which it is looked at: the symbol of a group,
its clauses, and the number of filters that they stand for.  The values of a mapping or a pair may
be any texts. -/
def defects : Expression → List FilterError
  | empty => []
  | literal text =>
    match Filter.parse text with
    | .ok _ => []
    | .error error => [error]
  | presence attr | pair attr _ | mapping attr _ => attributeDefects attr
  | nested symbol clauses =>
    match Combinator.ofName? (symbolName symbol) with
    | some combinator => defectsAll clauses ++ combinator.miscount (widthAll clauses)
    | none => Combinator.unknown symbol :: defectsAll clauses

def defectsAll : List Expression → List FilterError
  | [] => []
  | e :: es => e.defects ++ defectsAll es

end

/-! ### Expressions that are in order -/

theorem le_of_reach {level : Nat} {e : Expression} (he : ∀ attr values, e ≠ mapping attr values)
    (hlevel : level + e.reach ≤ Filter.maxDepth + 1) : level ≤ Filter.maxDepth := by
  have hreach : 1 ≤ e.reach := by
    cases e with
    | mapping attr values => exact absurd rfl (he attr values)
    | _ => simp [reach]
  omega

theorem filtersAt_of_pieces : ∀ {pieces : List (Expression × List Filter)} {level : Nat},
    (∀ p ∈ pieces, level + p.1.reach ≤ Filter.maxDepth + 1 → p.1.clauseFilters level = .ok p.2) →
      level + reachAll (pieces.map Prod.fst) ≤ Filter.maxDepth + 1 →
        filtersAt level (pieces.map Prod.fst) = .ok (pieces.flatMap Prod.snd)
  | [], _, _, _ => rfl
  | p :: pieces, level, h, hlevel => by
      obtain ⟨hp, hpieces⟩ := List.forall_mem_cons.mp h
      rw [List.map_cons, reachAll] at hlevel
      rw [List.map_cons, filtersAt_cons, hp (by omega), filtersAt_of_pieces hpieces (by omega)]
      rfl

theorem clauseFilters_of_filterAt {level : Nat} {e : Expression} {f : Filter}
    (he : ∀ attr values, e ≠ mapping attr values) (hlevel : level + e.reach ≤ Filter.maxDepth + 1)
    (h : level ≤ Filter.maxDepth → e.filterAt level = .ok f) : e.clauseFilters level = .ok [f] := by
  rw [clauseFilters_eq_map he, h (le_of_reach he hlevel)]
  rfl

/-- **An expression builds what it stands for**, at every level below which there is room for its
own. -/
theorem clauseFilters_of_expands {e : Expression} {fs : List Filter} (h : e.Expands fs) :
    ∀ level, level + e.reach ≤ Filter.maxDepth + 1 → e.clauseFilters level = .ok fs := by
  induction h with
  | empty =>
      intro level hlevel
      refine clauseFilters_of_filterAt (by simp) hlevel fun hle => ?_
      rw [filterAt, if_neg (Nat.not_lt.mpr hle)]
  | literal hread =>
      intro level hlevel
      refine clauseFilters_of_filterAt (by simp) hlevel fun hle => ?_
      rw [filterAt, if_neg (Nat.not_lt.mpr hle), hread]
  | presence hattr =>
      intro level hlevel
      refine clauseFilters_of_filterAt (by simp) hlevel fun hle => ?_
      rw [filterAt, if_neg (Nat.not_lt.mpr hle), checkAttribute_eq_ok hattr]
      rfl
  | pair value hattr =>
      intro level hlevel
      refine clauseFilters_of_filterAt (by simp) hlevel fun hle => ?_
      rw [filterAt_pair hle, checkAttribute_eq_ok hattr]
      rfl
  | nested hsymbol _ hmakes ih =>
      intro level hlevel
      refine clauseFilters_of_filterAt (by simp) hlevel fun hle => ?_
      rw [reach] at hlevel
      -- The clauses are one level further down and reach one level less.
      have hclauses := filtersAt_of_pieces (fun p hp => ih p hp (level + 1)) (by omega)
      rw [filterAt, if_neg (Nat.not_lt.mpr hle)]
      simp only [hsymbol, hclauses]
      exact Combinator.apply_eq_ok_iff.mpr hmakes
  | mapping values hattr =>
      intro level _
      rw [clauseFilters, checkAttribute_eq_ok hattr]
      rfl

theorem filterAt_eq_ok_iff {level : Nat} {e : Expression} {f : Filter}
    (he : ∀ attr values, e ≠ mapping attr values) (hlevel : level + e.reach ≤ Filter.maxDepth + 1) :
    e.filterAt level = .ok f ↔ e.Expands [f] := by
  refine ⟨expands_of_filterAt, fun h => ?_⟩
  have hclause := clauseFilters_of_expands h level hlevel
  rw [clauseFilters_eq_map he] at hclause
  cases hfilter : e.filterAt level with
  | error error =>
      rw [hfilter] at hclause
      cases hclause
  | ok g =>
      rw [hfilter] at hclause
      cases hclause
      rfl

/-! ### Counts -/

theorem Expands.length_eq {e : Expression} {fs : List Filter} (h : e.Expands fs) :
    fs.length = e.width := by
  cases h with
  | mapping values _ => exact List.length_map _
  | _ => rfl

theorem length_of_pieces : ∀ {pieces : List (Expression × List Filter)},
    (∀ p ∈ pieces, p.1.Expands p.2) →
      (pieces.flatMap Prod.snd).length = widthAll (pieces.map Prod.fst)
  | [], _ => rfl
  | p :: pieces, h => by
      obtain ⟨hp, hpieces⟩ := List.forall_mem_cons.mp h
      rw [List.flatMap_cons, List.length_append, hp.length_eq, length_of_pieces hpieces,
        List.map_cons, widthAll]

theorem length_of_filtersAt {level : Nat} {es : List Expression} {fs : List Filter}
    (h : filtersAt level es = .ok fs) : fs.length = widthAll es := by
  obtain ⟨pieces, rfl, hpieces, rfl⟩ := exists_pieces_of_filtersAt h
  exact length_of_pieces hpieces

/-! ### The first defect -/

theorem reports_checkAttribute (attr : Text) :
    Reports (checkAttribute attr) (attributeDefects attr) := by
  unfold checkAttribute attributeDefects
  split
  · exact ⟨(), rfl⟩
  · rfl

theorem reports_literal (text : Text) : Reports (Filter.parse text) (literal text).defects := by
  rw [defects]
  cases Filter.parse text with
  | ok f => exact ⟨f, rfl⟩
  | error error => rfl

mutual

/-- **Building an expression by itself** reports its first defect, if there is room for its
levels. -/
theorem reports_filterAt : ∀ {level : Nat} {e : Expression},
    (∀ attr values, e ≠ mapping attr values) → level + e.reach ≤ Filter.maxDepth + 1 →
      Reports (e.filterAt level) e.defects
  | level, e, he, hlevel => by
      have hle := le_of_reach he hlevel
      unfold filterAt
      rw [if_neg (Nat.not_lt.mpr hle)]
      cases e with
      | empty => exact ⟨_, rfl⟩
      | literal text => exact reports_literal text
      | presence attr => exact (reports_checkAttribute attr).bind_pure _
      | pair attr value => exact (reports_checkAttribute attr).bind_pure _
      | nested symbol clauses =>
          rw [reach] at hlevel
          simp only [Combinator.ofSymbol, defects]
          cases Combinator.ofName? (symbolName symbol) with
          | none => rfl
          | some combinator =>
              apply (reports_filtersAt (by omega)).bind
              intro filters hfilters
              rw [← length_of_filtersAt hfilters]
              exact combinator.reports_apply filters
      | mapping attr values => exact absurd rfl (he attr values)

theorem reports_filtersAt : ∀ {level : Nat} {es : List Expression},
    level + reachAll es ≤ Filter.maxDepth + 1 → Reports (filtersAt level es) (defectsAll es)
  | level, [], _ => ⟨[], rfl⟩
  | level, e :: es, hlevel => by
      rw [reachAll] at hlevel
      have hclause : Reports (e.clauseFilters level) e.defects := by
        cases e with
        | mapping attr values => exact (reports_checkAttribute attr).bind_pure _
        | _ => exact (reports_filterAt (by simp) (by omega)).bind_pure _
      rw [filtersAt_cons, defectsAll]
      exact hclause.bind fun filters _ => (reports_filtersAt (by omega)).bind_pure _

end

/-- **Building an expression succeeds exactly if nothing is wrong with it**, and then makes what it
stands for; otherwise the first defect is reported.  A mapping by itself is no filter, whatever is
wrong with it.  No part of the expression may be below the last level, mappings apart. -/
theorem reports_filter {e : Expression} (hreach : e.reach ≤ Filter.maxDepth) :
    ((∃ f, e.filter = .ok f) ↔ e.defects = [] ∧ ∀ attr values, e ≠ mapping attr values) ∧
    (∀ f, e.filter = .ok f ↔ e.Expands [f] ∧ ∀ attr values, e ≠ mapping attr values) ∧
    (∀ attr values, e = mapping attr values →
      e.filter = .error (.invalidLiteral (.mappingOutsideGroup attr))) ∧
    (∀ defect later, (∀ attr values, e ≠ mapping attr values) → e.defects = defect :: later →
      e.filter = .error defect) := by
  have hreports : (∀ attr values, e ≠ mapping attr values) → Reports e.filter e.defects :=
    fun he => reports_filterAt he (by omega)
  have hsingle : ∀ f, e.filter = .ok f → ∀ attr values, e ≠ mapping attr values := by
    rintro f h attr values rfl
    cases h
  refine ⟨⟨?_, ?_⟩, fun f => ⟨fun h => ⟨expands_of_filterAt h, hsingle f h⟩, ?_⟩, ?_, ?_⟩
  · rintro ⟨f, h⟩
    have he := hsingle f h
    refine ⟨?_, he⟩
    cases hdefects : e.defects with
    | nil => rfl
    | cons defect later =>
        have hfails := hreports he
        rw [hdefects, h] at hfails
        cases hfails
  · rintro ⟨hdefects, he⟩
    have hbuilt := hreports he
    rwa [hdefects] at hbuilt
  · rintro ⟨hexpands, he⟩
    exact (filterAt_eq_ok_iff he (by omega)).mpr hexpands
  · rintro attr values rfl
    rfl
  · intro defect later he hdefects
    have hfails := hreports he
    rwa [hdefects] at hfails

/-- A negation of no value is over before the attribute and the symbol behind it; one of a single
value is in order, and so is a mapping without values that is not alone. -/
theorem reports_filter_of_negations :
    let bad := nested ":or" [mapping "uid" ["lar", "b*"], nested "!" [mapping "o" []],
      pair "?x" "1", nested ":xor" []]
    let good := nested ":and" [nested ":not" [mapping "o" ["*"]], mapping "sn" []]
    bad.defects = [.argumentCount .not 0, .invalidAttribute "?x",
        .unknownCombinator ":xor" (some ":or")] ∧
      bad.filter = .error (.argumentCount .not 0) ∧
      ∃ f, good.filter = .ok f ∧ good.Expands [f] := by
  intro bad good
  have hbad : bad.defects = [.argumentCount .not 0, .invalidAttribute "?x",
      .unknownCombinator ":xor" (some ":or")] := by decide +kernel
  have hgood : good.defects = [] := by decide +kernel
  obtain ⟨-, -, -, hfirst⟩ := reports_filter (e := bad) (by decide)
  obtain ⟨hbuilt, hexpands, -, -⟩ := reports_filter (e := good) (by decide)
  obtain ⟨f, hf⟩ := hbuilt.mpr ⟨hgood, by simp [good]⟩
  exact ⟨hbad, hfirst _ _ (by simp [bad]) hbad, f, hf, ((hexpands f).mp hf).1⟩

end Expression
end SearchFilter
