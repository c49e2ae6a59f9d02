import SearchFilter.Proofs.Recognition
import SearchFilter.Symbolic.Literal

/-! # What an expression stands for

As a clause of a group, an expression stands for filters: a mapping for one equality test per value,
and any other expression for one filter.  `Expands` says for which, and that every part of the
expression is in order: filter strings can be read, attributes are attribute descriptions, symbols
name combinators, and each combinator takes the clauses that it is given.  On what levels the parts
stand plays no role there.

What is built of an expression at any level is what it stands for (`expands_of_filterAt`), the
clauses of a group being what its parts stand for, one after the other.  So there are four ways only
in which a part gets into a filter, and a property that passes through them holds of all that is
built (`Expands.forall_mem`); that every attribute is an attribute description is one
(`attributes_of_filter`). -/

namespace SearchFilter

namespace Expression

/-! ### The clauses of a group -/

/-- The filters that one clause of a group stands for. -/
def clauseFilters (depth : Nat) : Expression → Except FilterError (List Filter)
  | mapping attr values => do
    checkAttribute attr
    return values.map (Filter.assertion attr .equal)
  | e => do
    let filter ← e.filterAt depth
    return [filter]

theorem filtersAt_cons (depth : Nat) (e : Expression) (es : List Expression) :
    filtersAt depth (e :: es) = do
      let filters ← e.clauseFilters depth
      let rest ← filtersAt depth es
      return filters ++ rest := by
  cases e with
  | mapping attr values =>
      rw [filtersAt, clauseFilters]
      cases checkAttribute attr <;> rfl
  | _ =>
      rw [filtersAt, clauseFilters]
      · simp only [bind, Except.bind]
        split <;> rfl
      all_goals simp

theorem clauseFilters_eq_map {e : Expression} (he : ∀ attr values, e ≠ mapping attr values)
    (level : Nat) : e.clauseFilters level = (e.filterAt level).map fun f => [f] := by
  cases e with
  | mapping attr values => exact absurd rfl (he attr values)
  | _ =>
      simp only [clauseFilters, bind, Except.bind]
      split <;> simp [*, Except.map, pure, Except.pure]

theorem filtersAt_cons_of_ne_mapping {e : Expression} (he : ∀ attr values, e ≠ mapping attr values)
    (level : Nat) (es : List Expression) :
    filtersAt level (e :: es) = do
      let filter ← e.filterAt level
      let filters ← filtersAt level es
      return filter :: filters := by
  rw [filtersAt_cons, clauseFilters_eq_map he]
  cases e.filterAt level <;> rfl

theorem checkAttribute_eq_ok {attr : Text} (hattr : isAttribute attr = true) :
    checkAttribute attr = .ok () := by
  rw [checkAttribute, if_pos hattr]

theorem isAttribute_of_checkAttribute {attr : Text} {u : Unit} (h : checkAttribute attr = .ok u) :
    isAttribute attr = true := by
  unfold checkAttribute at h
  split at h
  · assumption
  · cases h

/-! ### Expansion -/

/-- `Expands e fs`: as a clause the expression stands for the filters, and all its parts are in
order.  The pieces of a group are its clauses, each with the filters that it stands for. -/
inductive Expands : Expression → List Filter → Prop
  | empty : Expands empty [Filter.everything]
  | literal {text : Text} {f : Filter} : Filter.parse text = .ok f → Expands (literal text) [f]
  | presence {attr : Text} : isAttribute attr = true → Expands (presence attr) [.presence attr]
  | pair {attr : Text} (value : Text) : isAttribute attr = true →
      Expands (pair attr value) [.assertion attr .equal value]
  | nested {symbol : Text} {combinator : Combinator} {pieces : List (Expression × List Filter)}
      {f : Filter} : Combinator.ofSymbol symbol = .ok combinator →
      (∀ p ∈ pieces, Expands p.1 p.2) → combinator.Makes (pieces.flatMap Prod.snd) f →
      Expands (nested symbol (pieces.map Prod.fst)) [f]
  | mapping {attr : Text} (values : List Text) : isAttribute attr = true →
      Expands (mapping attr values) (values.map (Filter.assertion attr .equal))

mutual

/-- **What is built of an expression** is what it stands for. -/
theorem expands_of_filterAt : ∀ {level : Nat} {e : Expression} {f : Filter},
    e.filterAt level = .ok f → e.Expands [f]
  | level, e, f, h => by
      unfold filterAt at h
      split at h
      · cases h
      · cases e with
        | empty => cases h; exact .empty
        | literal text => exact .literal h
        | presence attr =>
            obtain ⟨_, hattr, h⟩ := bind_eq_ok_iff.mp h
            cases h
            exact .presence (isAttribute_of_checkAttribute hattr)
        | pair attr value =>
            obtain ⟨_, hattr, h⟩ := bind_eq_ok_iff.mp h
            cases h
            exact .pair value (isAttribute_of_checkAttribute hattr)
        | nested symbol clauses =>
            obtain ⟨combinator, hsymbol, h⟩ := bind_eq_ok_iff.mp h
            obtain ⟨filters, hfilters, h⟩ := bind_eq_ok_iff.mp h
            obtain ⟨pieces, rfl, hpieces, rfl⟩ := exists_pieces_of_filtersAt hfilters
            exact .nested hsymbol hpieces (Combinator.apply_eq_ok_iff.mp h)
        | mapping attr values => cases h

theorem exists_pieces_of_filtersAt : ∀ {level : Nat} {es : List Expression} {fs : List Filter},
    filtersAt level es = .ok fs → ∃ pieces : List (Expression × List Filter),
      pieces.map Prod.fst = es ∧ (∀ p ∈ pieces, p.1.Expands p.2) ∧ pieces.flatMap Prod.snd = fs
  | level, [], fs, h => by
      cases h
      exact ⟨[], rfl, by simp, rfl⟩
  | level, e :: es, fs, h => by
      rw [filtersAt_cons] at h
      obtain ⟨filters, hfilters, h⟩ := bind_eq_ok_iff.mp h
      obtain ⟨rest, hrest, h⟩ := bind_eq_ok_iff.mp h
      cases h
      have hclause : e.Expands filters := by
        cases e with
        | mapping attr values =>
            obtain ⟨_, hattr, h⟩ := bind_eq_ok_iff.mp hfilters
            cases h
            exact .mapping values (isAttribute_of_checkAttribute hattr)
        | _ =>
            obtain ⟨f, hf, h⟩ := bind_eq_ok_iff.mp hfilters
            cases h
            exact expands_of_filterAt hf
      obtain ⟨pieces, rfl, hpieces, rfl⟩ := exists_pieces_of_filtersAt hrest
      exact ⟨(e, filters) :: pieces, rfl, List.forall_mem_cons.mpr ⟨hclause, hpieces⟩, rfl⟩

end

/-- A property of what is read, of presence and equality tests of attribute descriptions, and of
what combinators make of filters with the property, holds of all that an expression stands for. -/
theorem Expands.forall_mem {P : Filter → Prop}
    (hparse : ∀ {text f}, Filter.parse text = .ok f → P f)
    (hpresence : ∀ {attr}, isAttribute attr = true → P (.presence attr))
    (htest : ∀ {attr} value, isAttribute attr = true → P (.assertion attr .equal value))
    (hmakes : ∀ {combinator : Combinator} {clauses f}, combinator.Makes clauses f →
      (∀ g ∈ clauses, P g) → P f)
    {e : Expression} {fs : List Filter} (h : e.Expands fs) : ∀ f ∈ fs, P f := by
  induction h with
  | empty => exact List.forall_mem_singleton.mpr (hpresence (by decide))
  | literal hread => exact List.forall_mem_singleton.mpr (hparse hread)
  | presence hattr => exact List.forall_mem_singleton.mpr (hpresence hattr)
  | pair value hattr => exact List.forall_mem_singleton.mpr (htest value hattr)
  | nested _ _ hclauses ih =>
      refine List.forall_mem_singleton.mpr (hmakes hclauses fun g hg => ?_)
      obtain ⟨p, hp, hg⟩ := List.mem_flatMap.mp hg
      exact ih p hp g hg
  | mapping values hattr =>
      intro f hf
      obtain ⟨value, -, rfl⟩ := List.mem_map.mp hf
      exact htest value hattr

end Expression

/-! ### Attributes -/

namespace Filter

/-- The attribute of the filter's own assertion is an attribute description. -/
def HasAttribute (f : Filter) : Prop := ∀ attr ∈ f.attr?, isAttribute attr = true

theorem attr?_assertion (attr : Text) (op : Comparison) (value : Text) :
    (assertion attr op value).attr? = some attr := by
  unfold assertion
  split
  · split
    · rfl
    · split <;> rfl
  · rfl

theorem hasAttribute_of_attr? {f : Filter} {attr : Text} (hf : f.attr? = some attr)
    (hattr : isAttribute attr = true) : f.HasAttribute := by
  intro attr' h
  rw [hf] at h
  cases h
  exact hattr

end Filter

theorem Combinator.Makes.hasAttribute {combinator : Combinator} {clauses : List Filter} {f : Filter}
    (h : combinator.Makes clauses f) : f.HasAttribute := by
  cases h <;> simp [Filter.HasAttribute, Filter.attr?]

namespace Expression

theorem Expands.everywhere_hasAttribute {e : Expression} {fs : List Filter} (h : e.Expands fs) :
    ∀ f ∈ fs, Filter.Everywhere Filter.HasAttribute f := by
  refine h.forall_mem ?_ ?_ ?_ ?_
  · intro text f hread g hg
    exact ((Filter.derives_of_parse hread).1.regular_legible.2 g hg).1
  · intro attr hattr
    exact Filter.everywhere_iff.mpr ⟨Filter.hasAttribute_of_attr? rfl hattr, by simp⟩
  · intro attr value hattr
    have htest := Filter.hasAttribute_of_attr? (Filter.attr?_assertion attr .equal value) hattr
    exact Filter.everywhere_iff.mpr ⟨htest, by simp [Filter.members_assertion]⟩
  · intro combinator clauses f hmakes hclauses
    exact Filter.everywhere_iff.mpr ⟨hmakes.hasAttribute, hmakes.members_eq ▸ hclauses⟩

/-- **No attribute gets into a filter unchecked**: whatever is built of an expression, be it written
as a symbolic literal, every attribute in it is an attribute description, on every level. -/
theorem attributes_of_filter :
    (∀ (e : Expression) (f : Filter), e.filter = .ok f →
      ∀ g, Filter.Within g f → ∀ attr ∈ g.attr?,
        attr ≠ [] ∧ ∀ c ∈ attr, isAttributeChar c = true) ∧
    ∀ (text : Text) (f : Filter), (do let e ← read text; e.filter) = .ok f →
      ∀ g, Filter.Within g f → ∀ attr ∈ g.attr?,
        attr ≠ [] ∧ ∀ c ∈ attr, isAttributeChar c = true := by
  have hbuilt : ∀ {e : Expression} {f : Filter}, e.filter = .ok f →
      ∀ g, Filter.Within g f → ∀ attr ∈ g.attr?,
        attr ≠ [] ∧ ∀ c ∈ attr, isAttributeChar c = true := by
    intro e f h g hg attr hattr
    have hall := (expands_of_filterAt h).everywhere_hasAttribute f List.mem_cons_self
    exact isAttribute_iff.mp (hall g hg attr hattr)
  refine ⟨fun e f h => hbuilt h, fun text f h => ?_⟩
  obtain ⟨e, -, h⟩ := bind_eq_ok_iff.mp h
  exact hbuilt h

/-- A literal with attributes in a filter string, in a pair and in a mapping.  An attribute that
would have closed the parentheses of its test and opened new ones is refused. -/
theorem attributes_of_literal :
    let literal : Text :=
      "[\":or\", \"!(cn>=x)\", [\"uid;x-1\", \"b*\"], \x7b\"2.5.4\": [\"*\"]\x7d]"
    let f := Filter.or
      [.not (.item "cn" .greater "x"), .substring "uid;x-1" "b*", .presence "2.5.4"]
    (do let e ← read literal; e.filter) = .ok f ∧
      (∀ g, Filter.Within g f → ∀ attr ∈ g.attr?,
        attr ≠ [] ∧ ∀ c ∈ attr, isAttributeChar c = true) ∧
      (nested ":or" [mapping "a)(b" ["1"]]).filter = .error (.invalidAttribute "a)(b") := by
  intro literal f
  have h : (do let e ← read literal; e.filter) = .ok f := by decide +kernel
  exact ⟨h, attributes_of_filter.2 literal f h, by decide⟩

end Expression
end SearchFilter
