import SearchFilter.Proofs.ExpressionText
import SearchFilter.Proofs.LiteralShapes
import SearchFilter.Proofs.Calls

/-! # Filters written as symbolic literals

Every filter with legible texts can be written as a symbolic literal in JSON (`Filter.literal`): a
presence test as `[attr]`, an equality or a pattern as `[attr, value]`, any other comparison as a
filter string, and a combination as an array with the symbol of its combinator in front.

The literal is taken in two steps, and so is the proof.  The JSON value stands for an expression of
the same shape (`ofJson_literal`), where what matters is that no attribute description is taken for
a symbol; and the filter that is built of that expression is the one that was written
(`filterAt_expression`), where it matters that the filter is classified. -/

namespace SearchFilter

/-- The symbol by which a combinator goes in a literal. -/
def Combinator.symbol (combinator : Combinator) : Text := ':' :: combinator.name

theorem Combinator.ofSymbol_symbol (combinator : Combinator) :
    ofSymbol combinator.symbol = .ok combinator := by
  cases combinator <;> rfl

namespace Filter

/-! ### Both forms -/

mutual

/-- The symbolic literal of a filter. -/
def literal : Filter → Json
  | presence attr => .array [.string attr]
  | item attr .equal value => .array [.string attr, .string value]
  | item attr op value => .string ('(' :: (attr ++ op.symbol ++ value) ++ [')'])
  | substring attr pattern => .array [.string attr, .string pattern]
  | and clauses => .array (.string Combinator.and.symbol :: literalAll clauses)
  | or clauses => .array (.string Combinator.or.symbol :: literalAll clauses)
  | not inner => .array [.string Combinator.not.symbol, inner.literal]

def literalAll : List Filter → List Json
  | [] => []
  | f :: fs => f.literal :: literalAll fs

end

mutual

/-- The symbolic expression that the literal of a filter stands for. -/
def expression : Filter → Expression
  | presence attr => .presence attr
  | item attr .equal value => .pair attr value
  | item attr op value => .literal (item attr op value).render
  | substring attr pattern => .pair attr pattern
  | and clauses => .nested Combinator.and.symbol (expressionAll clauses)
  | or clauses => .nested Combinator.or.symbol (expressionAll clauses)
  | not inner => .nested Combinator.not.symbol [inner.expression]

def expressionAll : List Filter → List Expression
  | [] => []
  | f :: fs => f.expression :: expressionAll fs

end

theorem expression_item {attr value : Text} {op : Comparison} (hop : op ≠ .equal) :
    (item attr op value).expression = .literal (item attr op value).render := by
  cases op with
  | equal => exact absurd rfl hop
  | _ => rfl

theorem expression_ne_mapping (f : Filter) :
    ∀ attr values, f.expression ≠ .mapping attr values := by
  cases f with
  | item attr op value => cases op <;> simp [expression]
  | _ => simp [expression]

end Filter

/-! ### Attributes are no symbols -/

section attributes

variable {attr : Text}

theorem exists_attributeChar (h : isAttribute attr = true) :
    ∃ c rest, attr = c :: rest ∧ c ≠ ':' ∧ c ≠ '&' ∧ c ≠ '|' ∧ c ≠ '!' := by
  obtain ⟨hne, hall⟩ := isAttribute_iff.mp h
  obtain ⟨c, rest, rfl⟩ := List.exists_cons_of_ne_nil hne
  have hc : isAttributeChar c = true := hall c List.mem_cons_self
  refine ⟨c, rest, rfl, ?_, ?_, ?_, ?_⟩ <;> rintro rfl <;> exact absurd hc (by decide)

theorem notMem_groupHeads_of_isAttribute (h : isAttribute attr = true) : attr ∉ groupHeads := by
  obtain ⟨c, rest, rfl, hcolon, hand, hor, hnot⟩ := exists_attributeChar h
  simp [groupHeads, hcolon, hand, hor, hnot]

theorem symbolName_of_isAttribute (h : isAttribute attr = true) : symbolName attr = attr := by
  obtain ⟨c, rest, rfl, hcolon, -⟩ := exists_attributeChar h
  simp [symbolName, hcolon]

end attributes

/-! ### From the literal to the expression -/

namespace Expression

/-- An array that begins with an attribute description is no combination, even if the attribute is
called `and`. -/
theorem ofJson_attribute {attr : Text} (hattr : isAttribute attr = true) (items : List Json) :
    ofJson (.array (.string attr :: items)) = ofItems attr items :=
  ofJson_of_notMem_groupHeads (notMem_groupHeads_of_isAttribute hattr) items

theorem ofJson_presence {attr : Text} (hattr : isAttribute attr = true) :
    ofJson (.array [.string attr]) = .ok (presence attr) := by
  rw [ofJson_attribute hattr, ofItems, symbolName_of_isAttribute hattr]

theorem ofJson_pair {attr : Text} (hattr : isAttribute attr = true) (value : Text) :
    ofJson (.array [.string attr, .string value]) = .ok (pair attr value) := by
  rw [ofJson_attribute hattr, ofItems, symbolName_of_isAttribute hattr]

theorem ofJson_group (combinator : Combinator) (items : List Json) :
    ofJson (.array (.string combinator.symbol :: items)) =
      (ofJsonAll items).map (nested combinator.symbol) := by
  have hhead : combinator.symbol ∈ groupHeads := by cases combinator <;> decide
  rw [ofJson_of_mem_groupHeads hhead, ← ofJsonAll_eq_mapM]
  cases ofJsonAll items <;> rfl

theorem ofJsonAll_literalAll : ∀ {fs : List Filter},
    (∀ f ∈ fs, ofJson f.literal = .ok f.expression) →
      ofJsonAll (Filter.literalAll fs) = .ok (Filter.expressionAll fs)
  | [], _ => rfl
  | f :: fs, h => by
      obtain ⟨hf, hfs⟩ := List.forall_mem_cons.mp h
      rw [Filter.literalAll, ofJsonAll, hf, ofJsonAll_literalAll hfs]
      rfl

/-- **The literal of a legible filter stands for its expression.** -/
theorem ofJson_literal {f : Filter} (hlegible : f.Legible) :
    ofJson f.literal = .ok f.expression := by
  induction f using Filter.induct with
  | step f ih =>
      have hattr := hlegible.here.1
      have hmembers : ∀ g ∈ f.members, ofJson g.literal = .ok g.expression :=
        fun g hg => ih g hg (hlegible.member hg)
      cases f with
      | presence attr => exact ofJson_presence (hattr attr rfl)
      | item attr op value =>
          cases op with
          | equal => exact ofJson_pair (hattr attr rfl) value
          | _ => rfl
      | substring attr pattern => exact ofJson_pair (hattr attr rfl) pattern
      | and clauses =>
          have hclauses := ofJsonAll_literalAll hmembers
          rw [Filter.members_and] at hclauses
          rw [Filter.literal, ofJson_group, hclauses]
          rfl
      | or clauses =>
          have hclauses := ofJsonAll_literalAll hmembers
          rw [Filter.members_or] at hclauses
          rw [Filter.literal, ofJson_group, hclauses]
          rfl
      | not inner =>
          have hinner : ofJsonAll [inner.literal] = .ok [inner.expression] :=
            ofJsonAll_literalAll hmembers
          rw [Filter.literal, ofJson_group, hinner]
          rfl

/-! ### From the expression to the filter -/

theorem filterAt_group {depth : Nat} {combinator : Combinator} {es : List Expression}
    {clauses : List Filter} {f : Filter} (hdepth : depth ≤ Filter.maxDepth)
    (hclauses : filtersAt (depth + 1) es = .ok clauses) (hmakes : combinator.Makes clauses f) :
    (nested combinator.symbol es).filterAt depth = .ok f := by
  rw [filterAt, if_neg (Nat.not_lt.mpr hdepth)]
  simp only [Combinator.ofSymbol_symbol, hclauses]
  exact Combinator.apply_eq_ok_iff.mpr hmakes

theorem filtersAt_expressionAll {depth : Nat} : ∀ {fs : List Filter},
    (∀ f ∈ fs, depth + f.depth ≤ Filter.maxDepth + 1 → f.expression.filterAt depth = .ok f) →
      depth + Filter.depthAll fs ≤ Filter.maxDepth + 1 →
        filtersAt depth (Filter.expressionAll fs) = .ok fs
  | [], _, _ => rfl
  | f :: fs, h, hdepth => by
      obtain ⟨hf, hfs⟩ := List.forall_mem_cons.mp h
      rw [Filter.depthAll] at hdepth
      rw [Filter.expressionAll, filtersAt_cons_of_ne_mapping f.expression_ne_mapping,
        hf (by omega), filtersAt_expressionAll hfs (by omega)]
      rfl

/-- **The filter built of the expression of a filter is that filter**, if its texts are legible, it
is classified at every level, and there is room for its levels. -/
theorem filterAt_expression {f : Filter} (hregular : f.Regular) (hlegible : f.Legible) {depth : Nat}
    (hdepth : depth + f.depth ≤ Filter.maxDepth + 1) : f.expression.filterAt depth = .ok f := by
  induction f using Filter.induct generalizing depth with
  | step f ih =>
      have hmembers : ∀ g ∈ f.members, (depth + 1) + g.depth ≤ Filter.maxDepth + 1 →
          g.expression.filterAt (depth + 1) = .ok g :=
        fun g hg => ih g hg (hregular.member hg) (hlegible.member hg)
      have hattr := hlegible.here.1
      have hclassified := hregular.here
      rw [Filter.depth_eq] at hdepth
      have hlevel : depth ≤ Filter.maxDepth := by omega
      have hroom : (depth + 1) + Filter.depthAll f.members ≤ Filter.maxDepth + 1 := by omega
      have hclauses := filtersAt_expressionAll hmembers hroom
      cases f with
      | presence attr =>
          rw [Filter.expression, filterAt, if_neg (Nat.not_lt.mpr hlevel),
            checkAttribute_eq_ok (hattr attr rfl)]
          rfl
      | item attr op value =>
          -- An equality is written as a pair; any other comparison is a filter string of its own.
          by_cases hop : op = .equal
          · subst hop
            rw [Filter.expression, filterAt_pair hlevel, checkAttribute_eq_ok (hattr attr rfl)]
            exact congrArg Except.ok (Filter.assertion_of_classified hclassified)
          · rw [Filter.expression_item hop, filterAt, if_neg (Nat.not_lt.mpr hlevel)]
            exact Filter.parse_derived (Filter.derives_render hregular hlegible)
      | substring attr pattern =>
          obtain ⟨hstar, hne⟩ := hclassified
          rw [Filter.expression, filterAt_pair hlevel, checkAttribute_eq_ok (hattr attr rfl)]
          exact congrArg Except.ok (denotes_iff.mp (.substring hstar hne)).symm
      | and clauses => exact filterAt_group hlevel hclauses (.and hclassified)
      | or clauses => exact filterAt_group hlevel hclauses (.or hclassified)
      | not inner => exact filterAt_group hlevel hclauses .not

end Expression

/-! ### Every filter has a literal -/

/-- **Every filter with legible texts can be written as a symbolic literal**, unless it is too deep:
its literal stands for an expression of which the very filter is built. -/
theorem Filter.filter_of_literal {f : Filter} (hf : f.Reachable) (hlegible : f.Legible)
    (hdepth : f.depth ≤ Filter.maxDepth) :
    ∃ e, Expression.ofJson f.literal = .ok e ∧ e.filter = .ok f := by
  have hroom : 1 + f.depth ≤ Filter.maxDepth + 1 := by omega
  exact ⟨f.expression, Expression.ofJson_literal hlegible,
    Expression.filterAt_expression hf.regular hlegible hroom⟩

/-- Tests of attributes that are called like combinators, with all kinds of operators. -/
theorem Filter.filter_of_literal_of_named_attributes :
    let f := or [presence "and", not (and [item "or" .equal ":not", substring "not" "&*"]),
      item "and" .approx "or"]
    f.literal = .array [.string ":or", .array [.string "and"],
        .array [.string ":not", .array [.string ":and",
          .array [.string "or", .string ":not"], .array [.string "not", .string "&*"]]],
        .string "(and~=or)"] ∧
      ∃ e, Expression.ofJson f.literal = .ok e ∧ e.filter = .ok f := by
  intro f
  have hread : parse f.render = .ok f := by decide +kernel
  exact ⟨rfl, filter_of_literal ⟨[.parse f.render], by decide +kernel⟩ (legible_of_parse hread)
    (by decide)⟩

end SearchFilter
