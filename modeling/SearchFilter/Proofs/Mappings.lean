import SearchFilter.Proofs.ExpressionText

/-! # Mappings and the pairs that they stand for

A mapping among the clauses of a group stands for one equality test per value, and so do as many
pairs.  On every level that the limit allows both are built alike, filter for filter and error for
error (`filter_fill_pairs`).  One level further down they are not: a pair is built by itself and its
level is checked, while the tests of a mapping are made by the group around it.

A `Place` is a place among the clauses of some group in an expression.  What is built depends on
what is built of the clauses there (`filterAt_fill_congr`), and what goes wrong up to that place,
the clauses there included, is what goes wrong with the expression (`filterAt_fill_of_error`). -/

namespace SearchFilter.Expression

/-! ### Places -/

/-- A place for clauses in an expression. -/
inductive Place where
  /-- Among the clauses of the outermost group. -/
  | clause (symbol : Text) (before after : List Expression)
  /-- Inside one of its clauses. -/
  | inside (symbol : Text) (before : List Expression) (inner : Place) (after : List Expression)

namespace Place

/-- The expression with some clauses at the place. -/
def fill (clauses : List Expression) : Place → Expression
  | clause symbol before after => nested symbol (before ++ clauses ++ after)
  | inside symbol before inner after => nested symbol (before ++ [inner.fill clauses] ++ after)

def groups : Place → Nat
  | clause .. => 1
  | inside _ _ inner _ => inner.groups + 1

/-- The level of the clauses at the place. -/
def level (C : Place) : Nat := C.groups + 1

end Place

/-- A group at some depth is entered, and its first clauses are built. -/
def enter (depth : Nat) (symbol : Text) (first : List Expression) : Except FilterError Unit :=
  if Filter.maxDepth < depth then .error (.nestingTooDeep Filter.maxDepth)
  else do
    let _ ← Combinator.ofSymbol symbol
    let _ ← filtersAt (depth + 1) first
    return ()

/-- All that is done before the clauses at the place are built: the groups around it are entered
one after the other, each up to the clause where the place is. -/
def Place.approach (depth : Nat) : Place → Except FilterError Unit
  | clause symbol before _ => enter depth symbol before
  | inside symbol before inner _ => do
    enter depth symbol before
    inner.approach (depth + 1)

/-! ### What is built around a place -/

theorem filtersAt_append (depth : Nat) : ∀ es es' : List Expression,
    filtersAt depth (es ++ es') = do
      let filters ← filtersAt depth es
      let rest ← filtersAt depth es'
      return filters ++ rest
  | [], es' => by
      rw [List.nil_append, filtersAt]
      cases filtersAt depth es' <;> rfl
  | e :: es, es' => by
      rw [List.cons_append, filtersAt_cons, filtersAt_cons, filtersAt_append depth es es']
      simp only [bind_assoc, pure_bind, List.append_assoc]

theorem filtersAt_singleton {e : Expression} (he : ∀ attr values, e ≠ mapping attr values)
    (depth : Nat) : filtersAt depth [e] = (e.filterAt depth).map fun f => [f] := by
  rw [filtersAt_cons_of_ne_mapping he]
  cases e.filterAt depth <;> rfl

section group

variable {depth : Nat} {symbol : Text} {before middle middle' after : List Expression}

theorem filterAt_group_congr (h : filtersAt (depth + 1) middle = filtersAt (depth + 1) middle') :
    (nested symbol (before ++ middle ++ after)).filterAt depth =
      (nested symbol (before ++ middle' ++ after)).filterAt depth := by
  simp only [filterAt, filtersAt_append, h]

theorem filterAt_group_of_error {error : FilterError}
    (h : (do enter depth symbol before; filtersAt (depth + 1) middle) = .error error) :
    (nested symbol (before ++ middle ++ after)).filterAt depth = .error error := by
  by_cases hdepth : Filter.maxDepth < depth
  · rw [enter, if_pos hdepth] at h
    rw [filterAt, if_pos hdepth]
    cases h
    rfl
  · rw [enter, if_neg hdepth] at h
    rw [filterAt, if_neg hdepth]
    simp only [filtersAt_append]
    cases hsymbol : Combinator.ofSymbol symbol with
    | error e =>
        rw [hsymbol] at h
        cases h
        rfl
    | ok combinator =>
        rw [hsymbol] at h
        cases hbefore : filtersAt (depth + 1) before with
        | error e =>
            rw [hbefore] at h
            cases h
            rfl
        | ok filters =>
            rw [hbefore] at h
            have hmiddle : filtersAt (depth + 1) middle = .error error := h
            rw [hmiddle]
            rfl

theorem le_of_enter (h : enter depth symbol before = .ok ()) : depth ≤ Filter.maxDepth := by
  unfold enter at h
  split at h
  · cases h
  · omega

end group

namespace Place

theorem fill_ne_mapping (C : Place) (clauses : List Expression) :
    ∀ attr values, C.fill clauses ≠ mapping attr values := by
  cases C <;> simp [fill]

/-- **What is built depends on what is built of the clauses at the place**, and not on their
form. -/
theorem filterAt_fill_congr {es es' : List Expression} : ∀ {C : Place} {depth : Nat},
    filtersAt (depth + C.groups) es = filtersAt (depth + C.groups) es' →
      (C.fill es).filterAt depth = (C.fill es').filterAt depth
  | clause symbol before after, depth, h => filterAt_group_congr h
  | inside symbol before inner after, depth, h => by
      have hinner :
          (inner.fill es).filterAt (depth + 1) = (inner.fill es').filterAt (depth + 1) := by
        apply filterAt_fill_congr
        rwa [Nat.add_right_comm]
      apply filterAt_group_congr
      rw [filtersAt_singleton (inner.fill_ne_mapping es),
        filtersAt_singleton (inner.fill_ne_mapping es'), hinner]

/-- **What goes wrong up to the place is what goes wrong with the expression**, be it in front of
the clauses there or in them. -/
theorem filterAt_fill_of_error {es : List Expression} {error : FilterError} :
    ∀ {C : Place} {depth : Nat},
      (do C.approach depth; filtersAt (depth + C.groups) es) = .error error →
        (C.fill es).filterAt depth = .error error
  | clause symbol before after, depth, h => filterAt_group_of_error h
  | inside symbol before inner after, depth, h => by
      apply filterAt_group_of_error
      rw [filtersAt_singleton (inner.fill_ne_mapping es)]
      cases henter : enter depth symbol before with
      | error e =>
          rw [approach, henter] at h
          cases h
          rfl
      | ok _ =>
          have hgroups : depth + (inner.groups + 1) = depth + 1 + inner.groups := by omega
          rw [approach, henter, groups, hgroups] at h
          have hinner : (inner.fill es).filterAt (depth + 1) = .error error :=
            filterAt_fill_of_error h
          rw [hinner]
          rfl

theorem le_of_approach : ∀ {C : Place} {depth : Nat},
    C.approach depth = .ok () → depth + C.groups ≤ Filter.maxDepth + 1
  | clause symbol before after, depth, h => by
      rw [groups]
      have := le_of_enter h
      omega
  | inside symbol before inner after, depth, h => by
      obtain ⟨_, -, h⟩ := bind_eq_ok_iff.mp h
      have := le_of_approach h
      rw [groups]
      omega

end Place

/-! ### Pairs in place of a mapping -/

/-- The pairs that stand for a mapping. -/
def pairs (attr : Text) (values : List Text) : List Expression := values.map (pair attr)

section pairs

variable {depth : Nat} {attr : Text} {values : List Text}

theorem filtersAt_mapping (depth : Nat) (attr : Text) (values : List Text) :
    filtersAt depth [mapping attr values] =
      (checkAttribute attr).map fun _ => values.map (Filter.assertion attr .equal) := by
  rw [filtersAt_cons, clauseFilters]
  cases checkAttribute attr with
  | error e => rfl
  | ok _ => exact congrArg Except.ok (List.append_nil _)

theorem filtersAt_pairs_cons (depth : Nat) (attr value : Text) (values : List Text) :
    filtersAt depth (pairs attr (value :: values)) = do
      let filter ← (pair attr value).filterAt depth
      let filters ← filtersAt depth (pairs attr values)
      return filter :: filters := by
  rw [pairs, List.map_cons, filtersAt_cons_of_ne_mapping (by simp)]
  rfl

/-- Where the limit allows a clause, the pairs give the tests of the mapping.  With no values at all
the attribute would not be looked at. -/
theorem filtersAt_pairs (hdepth : depth ≤ Filter.maxDepth) (hvalues : values ≠ []) :
    filtersAt depth (pairs attr values) = filtersAt depth [mapping attr values] := by
  rw [filtersAt_mapping]
  cases hattr : checkAttribute attr with
  | error e =>
      obtain ⟨value, values, rfl⟩ := List.exists_cons_of_ne_nil hvalues
      rw [filtersAt_pairs_cons, filterAt_pair hdepth, hattr]
      rfl
  | ok _ =>
      clear hvalues
      induction values with
      | nil => rfl
      | cons value values ih =>
          rw [filtersAt_pairs_cons, filterAt_pair hdepth, hattr, ih]
          rfl

theorem filtersAt_pairs_of_lt (hdepth : Filter.maxDepth < depth) (hvalues : values ≠ []) :
    filtersAt depth (pairs attr values) = .error (.nestingTooDeep Filter.maxDepth) := by
  obtain ⟨value, values, rfl⟩ := List.exists_cons_of_ne_nil hvalues
  rw [filtersAt_pairs_cons, filterAt, if_pos hdepth]
  rfl

/-- **A mapping among the clauses of a group means the pairs that stand for it**, wherever the limit
allows its tests: the filter is the same or the error is the same.  It is the same error anywhere if
something goes wrong in front of the mapping.  If nothing does and its tests are below the limit,
they are just one level below it, and the pairs are refused for that. -/
theorem filter_fill_pairs {C : Place} (hvalues : values ≠ []) :
    (C.level ≤ Filter.maxDepth →
      (C.fill (pairs attr values)).filter = (C.fill [mapping attr values]).filter) ∧
    (∀ error, C.approach 1 = .error error →
      (C.fill (pairs attr values)).filter = .error error ∧
      (C.fill [mapping attr values]).filter = .error error) ∧
    (Filter.maxDepth < C.level → C.approach 1 = .ok () →
      C.level = Filter.maxDepth + 1 ∧
      (C.fill (pairs attr values)).filter = .error (.nestingTooDeep Filter.maxDepth)) := by
  have hlevel : 1 + C.groups = C.level := Nat.add_comm 1 C.groups
  refine ⟨fun hle => ?_, fun error h => ?_, fun hlt h => ?_⟩
  · apply Place.filterAt_fill_congr
    exact filtersAt_pairs (hlevel ▸ hle) hvalues
  · have hfails : ∀ clauses, (C.fill clauses).filter = .error error := by
      intro clauses
      apply Place.filterAt_fill_of_error
      rw [h]
      rfl
    exact ⟨hfails _, hfails _⟩
  -- The groups around the place are within the limit, so its level is the first one past it.
  · have hle := Place.le_of_approach h
    refine ⟨by omega, Place.filterAt_fill_of_error ?_⟩
    rw [h, hlevel]
    exact filtersAt_pairs_of_lt hlt hvalues

/-- Three values of three kinds on the third level, among other clauses. -/
theorem filter_fill_pairs_of_group :
    let C := Place.inside ":and" [literal " ! (cn = x) "]
      (.clause "|" [pair "sn" "y"] [mapping "o" []]) [empty]
    let values : List Text := ["lar", "*", "b*"]
    (C.fill (pairs "uid" values)).filter = (C.fill [mapping "uid" values]).filter ∧
      (C.fill [mapping "uid" values]).filter = .ok (.and [.not (.item "cn" .equal "x"),
        .or [.item "sn" .equal "y", .item "uid" .equal "lar", .presence "uid",
          .substring "uid" "b*"], .presence "objectClass"]) := by
  intro C values
  exact ⟨(filter_fill_pairs (List.cons_ne_nil _ _)).1 (by decide), by decide +kernel⟩

/-- In the innermost of as many groups as the limit allows, a mapping of two values is built and the
two pairs that stand for it are refused. -/
theorem filter_fill_pairs_past_limit :
    let C := (fun C => Place.inside ":or" [] C [])^[127] (.clause ":or" [] [])
    let f := (fun f => Filter.or [f])^[127]
      (.or [.item "uid" .equal "lar", .item "uid" .equal "bin"])
    C.level = 129 ∧
      (C.fill [mapping "uid" ["lar", "bin"]]).filter = .ok f ∧
      (C.fill (pairs "uid" ["lar", "bin"])).filter = .error (.nestingTooDeep 128) := by
  decide +kernel

end pairs

end SearchFilter.Expression
