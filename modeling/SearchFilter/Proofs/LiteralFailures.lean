import SearchFilter.Proofs.ExpressionDefects
import SearchFilter.Proofs.LiteralShapes
import SearchFilter.Proofs.Quotations

/-! # How the filter of a literal can fail

A JSON value that has been taken for an expression may still give no filter.  Both steps look at the
symbols, and both at the mappings, each on its own; so there are errors of the second step that the
first one should have ruled out.

`Expression.Failure` lists all that can go wrong with an expression, part by part
(`failure_of_filterAt`).  In an expression that a literal stands for every symbol names a
combinator, so there remain wrong attributes, wrong numbers of clauses, too many levels and filter
strings that cannot be read (`Json.StandsFor.buildFails`).  Only a mapping by itself is no filter,
and a literal stands for one only if it is an object (`failure_of_ofJson`). -/

namespace SearchFilter

namespace Expression

/-! ### All failures of building -/

/-- `Failure e error`: some part of the expression can make building fail with the error.  That a
mapping is no filter by itself is left out here. -/
inductive Failure : Expression → FilterError → Prop
  | depth (e : Expression) : Failure e (.nestingTooDeep Filter.maxDepth)
  | literal {text : Text} {error : FilterError} : Filter.parse text = .error error →
      Failure (literal text) error
  | presence {attr : Text} : isAttribute attr = false →
      Failure (presence attr) (.invalidAttribute attr)
  | pair {attr : Text} (value : Text) : isAttribute attr = false →
      Failure (pair attr value) (.invalidAttribute attr)
  | mapping {attr : Text} (values : List Text) : isAttribute attr = false →
      Failure (mapping attr values) (.invalidAttribute attr)
  | symbol {symbol : Text} (clauses : List Expression) :
      Combinator.ofName? (symbolName symbol) = none →
      Failure (nested symbol clauses) (Combinator.unknown symbol)
  | clause {symbol : Text} {clauses : List Expression} {e : Expression} {error : FilterError} :
      e ∈ clauses → Failure e error → Failure (nested symbol clauses) error
  | count (symbol : Text) {combinator : Combinator} {clauses : List Expression} :
      ¬ combinator.Takes (widthAll clauses) →
      Failure (nested symbol clauses) (.argumentCount combinator (widthAll clauses))

theorem not_isAttribute_of_checkAttribute {attr : Text} {error : FilterError}
    (h : checkAttribute attr = .error error) :
    isAttribute attr = false ∧ error = .invalidAttribute attr := by
  unfold checkAttribute at h
  split at h
  · cases h
  · rename_i hattr
    cases h
    exact ⟨by simpa using hattr, rfl⟩

theorem not_isAttribute_of_bind_pure {α : Type} {attr : Text} {error : FilterError} {a : α}
    (h : (do checkAttribute attr; return a) = .error error) :
    isAttribute attr = false ∧ error = .invalidAttribute attr := by
  rcases bind_eq_error_iff.mp h with h | ⟨_, -, h⟩
  · exact not_isAttribute_of_checkAttribute h
  · cases h

theorem ofName?_of_ofSymbol {symbol : Text} {error : FilterError}
    (h : Combinator.ofSymbol symbol = .error error) :
    Combinator.ofName? (symbolName symbol) = none ∧ error = Combinator.unknown symbol := by
  unfold Combinator.ofSymbol at h
  split at h
  · cases h
  · rename_i hname
    cases h
    exact ⟨hname, rfl⟩

mutual

/-- **All failures of building an expression** at some level. -/
theorem failure_of_filterAt : ∀ {level : Nat} {e : Expression} {error : FilterError},
    e.filterAt level = .error error →
      (∃ attr values, e = mapping attr values ∧
        error = .invalidLiteral (.mappingOutsideGroup attr)) ∨ e.Failure error
  | level, e, error, h => by
      unfold filterAt at h
      split at h
      · cases h
        exact .inr (.depth e)
      · cases e with
        | empty => cases h
        | literal text => exact .inr (.literal h)
        | presence attr =>
            obtain ⟨hattr, rfl⟩ := not_isAttribute_of_bind_pure h
            exact .inr (.presence hattr)
        | pair attr value =>
            obtain ⟨hattr, rfl⟩ := not_isAttribute_of_bind_pure h
            exact .inr (.pair value hattr)
        | nested symbol clauses =>
            -- In the order of building: the symbol, the clauses, and their number.
            rcases bind_eq_error_iff.mp h with h | ⟨combinator, -, h⟩
            · obtain ⟨hname, rfl⟩ := ofName?_of_ofSymbol h
              exact .inr (.symbol clauses hname)
            rcases bind_eq_error_iff.mp h with h | ⟨filters, hfilters, h⟩
            · obtain ⟨c, hc, hfails⟩ := exists_failure_of_filtersAt h
              exact .inr (.clause hc hfails)
            · obtain ⟨htakes, rfl⟩ := Combinator.not_takes_of_apply h
              rw [length_of_filtersAt hfilters] at htakes ⊢
              exact .inr (.count symbol htakes)
        | mapping attr values =>
            cases h
            exact .inl ⟨attr, values, rfl, rfl⟩

theorem exists_failure_of_filtersAt : ∀ {level : Nat} {es : List Expression} {error : FilterError},
    filtersAt level es = .error error → ∃ e ∈ es, e.Failure error
  | level, [], error, h => by cases h
  | level, e :: es, error, h => by
      have hclause : ∀ {error}, e.clauseFilters level = .error error → e.Failure error := by
        intro error h
        cases e with
        | mapping attr values =>
            obtain ⟨hattr, rfl⟩ := not_isAttribute_of_bind_pure h
            exact .mapping values hattr
        | _ =>
            rcases bind_eq_error_iff.mp h with h | ⟨_, -, h⟩
            · rcases failure_of_filterAt h with ⟨_, _, he, -⟩ | hfails
              · cases he
              · exact hfails
            · cases h
      rw [filtersAt_cons] at h
      rcases bind_eq_error_iff.mp h with h | ⟨filters, -, h⟩
      · exact ⟨e, List.mem_cons_self, hclause h⟩
      rcases bind_eq_error_iff.mp h with h | ⟨rest, -, h⟩
      · obtain ⟨c, hc, hfails⟩ := exists_failure_of_filtersAt h
        exact ⟨c, List.mem_cons_of_mem e hc, hfails⟩
      · cases h

end

/-! ### Parts -/

/-- `Part d e`: `d` is the expression `e`, or a clause inside it at some level. -/
inductive Part : Expression → Expression → Prop
  | self (e : Expression) : Part e e
  | clause {d e : Expression} {symbol : Text} {clauses : List Expression} : e ∈ clauses →
      Part d e → Part d (nested symbol clauses)

end Expression

/-! ### Failures of a literal -/

namespace Json

/-- The text is a filter string of the literal, at some level. -/
inductive HoldsText (text : Text) : Json → Prop
  | here : text.head? ≠ some ':' → HoldsText text (.string text)
  | item {head : Text} {items : List Json} {u : Json} : head ∈ groupHeads → u ∈ items →
      HoldsText text u → HoldsText text (.array (.string head :: items))

/-- `BuildFails v error`: the error can come of building the filter of the literal, which is no
mapping. -/
inductive BuildFails (v : Json) : FilterError → Prop
  | invalid {attr : Text} : isAttribute attr = false → BuildFails v (.invalidAttribute attr)
  | count {combinator : Combinator} {found : Nat} : ¬ combinator.Takes found →
      BuildFails v (.argumentCount combinator found)
  | depth : BuildFails v (.nestingTooDeep Filter.maxDepth)
  | text {text : Text} {error : FilterError} : v.HoldsText text →
      Filter.parse text = .error error → BuildFails v error

variable {v : Json} {e : Expression} {error : FilterError}

theorem BuildFails.group {u : Json} {head : Text} {items : List Json} (hhead : head ∈ groupHeads)
    (hu : u ∈ items) (h : u.BuildFails error) :
    (array (string head :: items)).BuildFails error := by
  cases h with
  | invalid hattr => exact .invalid hattr
  | count htakes => exact .count htakes
  | depth => exact .depth
  | text htext hparse => exact .text (.item hhead hu htext) hparse

/-- No failure is about a symbol, a bare list or the shape of the literal: such errors do not come
of filter strings either. -/
theorem BuildFails.excludes (h : v.BuildFails error) :
    (∀ symbol suggestion, error ≠ .unknownCombinator symbol suggestion) ∧ error ≠ .bareList ∧
      ∀ fault, error ≠ .invalidLiteral fault := by
  cases h with
  | text _ hparse =>
      have hquotes := Filter.quotes_of_parse hparse
      refine ⟨?_, ?_, ?_⟩
      · rintro symbol suggestion rfl
        exact hquotes
      · rintro rfl
        exact hquotes
      · rintro fault rfl
        exact hquotes
  | _ => simp

/-- **An expression that a literal stands for cannot fail on a symbol.** -/
theorem StandsFor.buildFails (hfails : e.Failure error) (h : v.StandsFor e) :
    v.BuildFails error := by
  induction hfails generalizing v with
  | depth e => exact .depth
  | literal hparse =>
      cases h with
      | text hhead => exact .text (.here hhead) hparse
  | presence hattr => exact .invalid hattr
  | pair value hattr => exact .invalid hattr
  | mapping values hattr => exact .invalid hattr
  | symbol clauses hname =>
      cases h with
      | group hhead hpieces =>
          have hsome := (mem_groupHeads_iff.mp hhead).2
          rw [hname] at hsome
          cases hsome
  | clause hmem _ ih =>
      cases h with
      | group hhead hpieces =>
          obtain ⟨p, hp, rfl⟩ := List.mem_map.mp hmem
          exact (ih (hpieces p hp)).group hhead (List.mem_map_of_mem hp)
  | count symbol htakes => exact .count htakes

theorem StandsFor.part {d : Expression} (hpart : d.Part e) (h : v.StandsFor e) :
    ∃ u : Json, u.StandsFor d := by
  induction hpart generalizing v with
  | self => exact ⟨v, h⟩
  | clause hmem _ ih =>
      cases h with
      | group hhead hpieces =>
          obtain ⟨p, hp, rfl⟩ := List.mem_map.mp hmem
          exact ih (hpieces p hp)

theorem StandsFor.mapping_iff (h : v.StandsFor e) :
    (∃ attr values, e = .mapping attr values) ↔ ∃ members, v = .object members := by
  cases h <;> simp

end Json

/-- **What can go wrong after a JSON value has been taken for an expression.**  No part of the
expression fails on a symbol or as a bare list, at any level; only a mapping by itself is still
refused as a literal, and then the value is an object; all other errors are about an attribute, a
number of clauses, the levels or a filter string of the value. -/
theorem Expression.failure_of_ofJson {v : Json} {e : Expression} (h : ofJson v = .ok e) :
    (∀ d : Expression, d.Part e → ∀ level error, d.filterAt level = .error error →
      (∀ symbol suggestion, error ≠ .unknownCombinator symbol suggestion) ∧ error ≠ .bareList) ∧
    ∀ error, e.filter = .error error →
      (∃ attr values members, e = mapping attr values ∧ v = .object members ∧
        error = .invalidLiteral (.mappingOutsideGroup attr)) ∨
      ((∀ fault, error ≠ .invalidLiteral fault) ∧ v.BuildFails error) := by
  have hv := ((ofJson_eq_iff v).1 e).mp h
  refine ⟨fun d hpart level error hfails => ?_, fun error hfails => ?_⟩
  · obtain ⟨u, hu⟩ := hv.part hpart
    rcases failure_of_filterAt hfails with ⟨attr, values, -, rfl⟩ | hfails
    · simp
    · obtain ⟨hsymbol, hlist, -⟩ := (Json.StandsFor.buildFails hfails hu).excludes
      exact ⟨hsymbol, hlist⟩
  · rcases failure_of_filterAt hfails with ⟨attr, values, rfl, rfl⟩ | hfails
    · obtain ⟨members, rfl⟩ := hv.mapping_iff.mp ⟨attr, values, rfl⟩
      exact .inl ⟨attr, values, members, rfl, rfl, rfl⟩
    · have hbuild := Json.StandsFor.buildFails hfails hv
      obtain ⟨-, -, hfault⟩ := hbuild.excludes
      exact .inr ⟨hfault, hbuild⟩

/-- A filter string that breaks off, inside a negation of two clauses of which the second has a
wrong attribute; and a mapping that is in order but for standing alone. -/
theorem Expression.failure_of_broken_text :
    let u := Json.object [("uid", .array [.string "lar"])]
    let v := Json.array [.string ":or", u,
      .array [.string "!", .string "(a=1", .array [.string "?b"]]]
    let e := nested ":or" [mapping "uid" ["lar"], nested "!" [literal "(a=1", presence "?b"]]
    ofJson v = .ok e ∧ e.filter = .error .unexpectedEnd ∧ v.BuildFails .unexpectedEnd ∧
      ofJson u = .ok (mapping "uid" ["lar"]) ∧
      (mapping "uid" ["lar"]).filter = .error (.invalidLiteral (.mappingOutsideGroup "uid")) := by
  intro u v e
  have hv : ofJson v = .ok e := rfl
  have hfails : e.filter = .error .unexpectedEnd := by decide +kernel
  rcases (failure_of_ofJson hv).2 _ hfails with ⟨_, _, _, he, -⟩ | ⟨-, hbuild⟩
  · simp [e] at he
  · exact ⟨hv, hfails, hbuild, rfl, rfl⟩

end SearchFilter
