import Mathlib.Logic.Function.Iterate
import SearchFilter.Proofs.Calls

/-! # How deep the filter of an expression is

Building an expression checks the level of every part that is built by itself.  Two kinds of parts
make filters below the last level that is checked: the tests of a mapping are made by the group
around it, and a filter string is read with levels of its own.  So three numbers belong to an
expression:

* `depth`, how deep its filter is;
* `reach`, how many levels are checked when it is built;
* `overhang`, how far a part may go beyond its own level unchecked.

What is built has that depth, and the limit holds for the reach (`measured_of_filterAt`).  The depth
is at most reach and overhang together (`depth_le_reach_add_overhang`). -/

namespace SearchFilter.Expression

/-! ### Measures -/

/-- How deep the filter is that a filter string stands for. -/
def literalDepth (text : Text) : Nat :=
  match Filter.parse text with
  | .ok f => f.depth
  | .error _ => 0

theorem literalDepth_of_parse {text : Text} {f : Filter} (h : Filter.parse text = .ok f) :
    literalDepth text = f.depth := by
  rw [literalDepth, h]

mutual

/-- How many filters are nested inside each other in what an expression stands for: a mapping
without values stands for no filter at all. -/
def depth : Expression → Nat
  | empty | presence _ | pair .. => 1
  | literal text => literalDepth text
  | nested _ clauses => depthAll clauses + 1
  | mapping _ values => min 1 values.length

def depthAll : List Expression → Nat
  | [] => 0
  | e :: es => max e.depth (depthAll es)

end

mutual

/-- How many levels of an expression are checked: a mapping is not built by itself. -/
def reach : Expression → Nat
  | empty | presence _ | pair .. | literal _ => 1
  | nested _ clauses => reachAll clauses + 1
  | mapping .. => 0

def reachAll : List Expression → Nat
  | [] => 0
  | e :: es => max e.reach (reachAll es)

end

mutual

/-- How many levels lie below the last one that is checked, at most. -/
def overhang : Expression → Nat
  | empty | presence _ | pair .. => 0
  | literal text => literalDepth text - 1
  | nested _ clauses => overhangAll clauses
  | mapping _ values => min 1 values.length

def overhangAll : List Expression → Nat
  | [] => 0
  | e :: es => max e.overhang (overhangAll es)

end

mutual

theorem depth_le_reach_add_overhang : ∀ e : Expression, e.depth ≤ e.reach + e.overhang
  | empty | presence _ | pair .. => by simp [depth, reach]
  | literal text => by
      simp only [depth, reach, overhang]
      omega
  | nested symbol clauses => by
      have h := depthAll_le_reachAll_add_overhangAll clauses
      simp only [depth, reach, overhang]
      omega
  | mapping attr values => by simp [depth, reach, overhang]

theorem depthAll_le_reachAll_add_overhangAll :
    ∀ es : List Expression, depthAll es ≤ reachAll es + overhangAll es
  | [] => by simp [depthAll]
  | e :: es => by
      have h := depth_le_reach_add_overhang e
      have hs := depthAll_le_reachAll_add_overhangAll es
      simp only [depthAll, reachAll, overhangAll]
      omega

end

/-! ### What is built -/

/-- At a level, something `built` deep was built of what has these three measures. -/
structure Measured (level built depth reach overhang : Nat) : Prop where
  depth_eq : built = depth
  reach_le : level + reach ≤ Filter.maxDepth + 1
  overhang_lt : overhang < Filter.maxDepth

namespace Measured

variable {level b b' d d' r r' o o' : Nat}

theorem assertion (hlevel : level ≤ Filter.maxDepth) : Measured level 1 1 1 0 :=
  ⟨rfl, by omega, by decide⟩

theorem nil (hlevel : level ≤ Filter.maxDepth + 1) : Measured level 0 0 0 0 :=
  ⟨rfl, hlevel, by decide⟩

theorem append (h : Measured level b d r o) (h' : Measured level b' d' r' o') :
    Measured level (max b b') (max d d') (max r r') (max o o') where
  depth_eq := by rw [h.depth_eq, h'.depth_eq]
  reach_le := by
    have := h.reach_le
    have := h'.reach_le
    omega
  overhang_lt := Nat.max_lt.mpr ⟨h.overhang_lt, h'.overhang_lt⟩

theorem group (h : Measured (level + 1) b d r o) : Measured level (b + 1) (d + 1) (r + 1) o where
  depth_eq := by rw [h.depth_eq]
  reach_le := by
    have := h.reach_le
    omega
  overhang_lt := h.overhang_lt

end Measured

theorem depthAll_map_assertion (attr : Text) (op : Comparison) (values : List Text) :
    Filter.depthAll (values.map (Filter.assertion attr op)) = min 1 values.length := by
  induction values with
  | nil => rfl
  | cons value values ih =>
      rw [List.map_cons, Filter.depthAll, Filter.depth_assertion, ih, List.length_cons]
      omega

/-- The tests of a mapping hang over, whatever the level of the group around it. -/
theorem measured_mapping {level : Nat} (hlevel : level ≤ Filter.maxDepth + 1) (attr : Text)
    (values : List Text) :
    Measured level (Filter.depthAll (values.map (Filter.assertion attr .equal)))
      (min 1 values.length) 0 (min 1 values.length) where
  depth_eq := depthAll_map_assertion attr .equal values
  reach_le := hlevel
  overhang_lt := by
    simp only [Filter.maxDepth]
    omega

/-- A filter string is read with levels of its own. -/
theorem measured_literal {level : Nat} (hlevel : level ≤ Filter.maxDepth) {text : Text} {f : Filter}
    (h : Filter.parse text = .ok f) :
    Measured level f.depth (literalDepth text) 1 (literalDepth text - 1) where
  depth_eq := (literalDepth_of_parse h).symm
  reach_le := by omega
  overhang_lt := by
    have hdepth : f.depth ≤ Filter.maxDepth := (Filter.derives_of_parse h).2
    rw [literalDepth_of_parse h]
    simp only [Filter.maxDepth] at hdepth ⊢
    omega

mutual

/-- **What is built at a level** is as deep as the expression, and the expression reaches no further
than the limit. -/
theorem measured_of_filterAt : ∀ {level : Nat} {e : Expression} {f : Filter},
    e.filterAt level = .ok f → Measured level f.depth e.depth e.reach e.overhang
  | level, e, f, h => by
      unfold filterAt at h
      split at h
      · cases h
      · rename_i hlevel
        have hlevel : level ≤ Filter.maxDepth := Nat.not_lt.mp hlevel
        cases e with
        | empty => cases h; exact .assertion hlevel
        | literal text => exact measured_literal hlevel h
        | presence attr =>
            obtain ⟨_, -, h⟩ := bind_eq_ok_iff.mp h
            cases h
            exact .assertion hlevel
        | pair attr value =>
            obtain ⟨_, -, h⟩ := bind_eq_ok_iff.mp h
            cases h
            rw [Filter.depth_assertion]
            exact .assertion hlevel
        | nested symbol clauses =>
            obtain ⟨combinator, -, h⟩ := bind_eq_ok_iff.mp h
            obtain ⟨filters, hfilters, h⟩ := bind_eq_ok_iff.mp h
            rw [Filter.depth_eq, (Combinator.apply_eq_ok_iff.mp h).members_eq]
            exact (measured_of_filtersAt (by omega) hfilters).group
        | mapping attr values => cases h

/-- The clauses of a group are built one level further down, which may be past the last one if none
of them is built by itself. -/
theorem measured_of_filtersAt : ∀ {level : Nat} {es : List Expression} {fs : List Filter},
    level ≤ Filter.maxDepth + 1 → filtersAt level es = .ok fs →
      Measured level (Filter.depthAll fs) (depthAll es) (reachAll es) (overhangAll es)
  | level, [], fs, hlevel, h => by
      cases h
      exact .nil hlevel
  | level, e :: es, fs, hlevel, h => by
      rw [filtersAt_cons] at h
      obtain ⟨filters, hfilters, h⟩ := bind_eq_ok_iff.mp h
      obtain ⟨rest, hrest, h⟩ := bind_eq_ok_iff.mp h
      cases h
      -- A mapping is the only clause that is not built by itself.
      have hclause : Measured level (Filter.depthAll filters) e.depth e.reach e.overhang := by
        cases e with
        | mapping attr values =>
            obtain ⟨_, -, h⟩ := bind_eq_ok_iff.mp hfilters
            cases h
            exact measured_mapping hlevel attr values
        | _ =>
            obtain ⟨f, hf, h⟩ := bind_eq_ok_iff.mp hfilters
            cases h
            simpa [Filter.depthAll] using measured_of_filterAt hf
      rw [Filter.depthAll_append]
      exact hclause.append (measured_of_filtersAt hlevel hrest)

end

/-- **The limit holds for the levels of an expression, and not for its filter.**  The filter is as
deep as `depth` says.  The expression reaches no further than the limit; the filter is deeper than
that only by what hangs over, which is less than the limit again.  If nothing hangs over, no more
filters are nested than the limit allows. -/
theorem depth_of_filter {e : Expression} {f : Filter} (h : e.filter = .ok f) :
    f.depth = e.depth ∧ e.reach ≤ Filter.maxDepth ∧ e.overhang < Filter.maxDepth ∧
      f.depth ≤ e.reach + e.overhang ∧ (e.overhang = 0 → f.depth ≤ Filter.maxDepth) := by
  obtain ⟨hdepth, hreach, hover⟩ := measured_of_filterAt h
  have hle := depth_le_reach_add_overhang e
  exact ⟨hdepth, by omega, hover, by omega, by omega⟩

/-- A group whose deepest part is a filter string: two levels are checked, and one hangs over. -/
theorem depth_of_filter_group :
    let e := nested ":or" [mapping "uid" ["lar", "b*"], pair "cn" "x", literal " ! (mail) "]
    ∃ f, e.filter = .ok f ∧ f.depth = 3 ∧ e.reach = 2 ∧ e.overhang = 1 := by
  intro e
  have h : e.filter = .ok (.or [.item "uid" .equal "lar", .substring "uid" "b*",
      .item "cn" .equal "x", .not (.presence "mail")]) := by decide +kernel
  obtain ⟨hdepth, -, -, -, -⟩ := depth_of_filter h
  exact ⟨_, h, hdepth.trans (by decide +kernel), by decide, by decide +kernel⟩

def negated (n : Nat) (e : Expression) : Expression := (fun e => nested ":not" [e])^[n] e

/-- A filter that is one level too deep to be read, and to be built of a pair in negations, is built
of a mapping in the same negations, and of a filter string in one negation less. -/
theorem depth_of_negated_mapping :
    let f := Filter.not^[128] (.item "a" .equal "1")
    f.depth = 129 ∧
      Filter.parse f.render = .error (.nestingTooDeep 128) ∧
      (negated 128 (pair "a" "1")).filter = .error (.nestingTooDeep 128) ∧
      (negated 128 (mapping "a" ["1"])).filter = .ok f ∧
      (negated 127 (literal "!(a=1)")).filter = .ok f := by
  decide +kernel

end SearchFilter.Expression
