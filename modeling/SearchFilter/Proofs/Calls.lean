import SearchFilter.Proofs.Expansion
import SearchFilter.Rdn

/-! # Runs of calls

A caller makes filters by calls and uses the filters of earlier calls in later ones.  A `Call` is
one such step, `Call.run` carries out a list of them and keeps all filters that were made, and a
filter is `Reachable` if some run makes it.  Any text may be given to a call, but a filter or a
clause list only if it is there: calls name the filters made before by their numbers.

Every operation makes regular filters out of regular filters (`Call.regular_of_result`), so all
filters of a run are regular (`Call.regular_of_mem_run`): none of them, and no filter within one,
is of a form that reading or building would have made another filter of.

A filter made by calls may hold any texts.  Its canonical string gives the filter back exactly if
all its attributes are attribute descriptions, all its values and patterns are clean, and it is not
deeper than the limit (`parse_render_eq_ok_iff`). -/

namespace SearchFilter

/-! ### Calls -/

/-- A component as a caller can put it together.  A clause list cannot be made; it has to be the
clause list of a filter that is there. -/
inductive Parts where
  | presence (attr : Text)
  | item (attr : Text) (op : Comparison) (value : Text)
  | substring (attr pattern : Text)
  /-- The comparison of a filter that is there, with another operator. -/
  | retyped (source : Nat) (op : Comparison)
  /-- The clause list of a filter that is there, under `and`, under `or`, or by itself. -/
  | and (source : Nat)
  | or (source : Nat)
  | list (source : Nat)
  | not (inner : Nat)

/-- One call. -/
inductive Call where
  /-- Read a text, be it an argument or a serialized filter. -/
  | parse (text : Text)
  | presence (attr : Text)
  /-- An equality, a comparison or a pattern. -/
  | assertion (attr : Text) (op : Comparison) (value : Text)
  | negate (f : Nat)
  /-- A combination with its clauses counted, through `and`, `or`, `not` or a symbol. -/
  | apply (combinator : Combinator) (fs : List Nat)
  | combine (f g : Nat)
  | all (fs : List Nat)
  | expression (e : Expression)
  | rdn (name : Text)
  | component (parts : Parts)
  /-- Take a filter out of the clause list of a filter. -/
  | clause (source index : Nat)
  /-- Take the inner filter out of a negation. -/
  | inner (source : Nat)

/-- The component, if the filters that it is made of are there. -/
def Parts.component? (made : List Filter) : Parts → Option Component
  | presence attr => some (.presence attr)
  | item attr op value => some (.item attr op value)
  | substring attr pattern => some (.substring attr pattern)
  | retyped source op =>
    match made[source]? with
    | some (.item attr _ value) => some (.item attr op value)
    | _ => none
  | and source => (made[source]?.bind Filter.clauses?).map .and
  | or source => (made[source]?.bind Filter.clauses?).map .or
  | list source => (made[source]?.bind Filter.clauses?).map .list
  | not inner => made[inner]?.map .not

namespace Call

/-- What a call gives, if the filters that it names are there.  Numbers in a list of arguments that
name no filter are passed over. -/
def result (made : List Filter) : Call → Option (Except FilterError Filter)
  | parse text => some (Filter.parse text)
  | presence attr => some (.ok (.presence attr))
  | assertion attr op value => some (.ok (.assertion attr op value))
  | negate f => made[f]?.map fun f => .ok (.not f)
  | apply combinator fs => some (combinator.apply (fs.filterMap (made[·]?)))
  | combine f g => made[f]?.bind fun f => made[g]?.map fun g => .ok (f.combine g)
  | all fs => some (.ok (Filter.all (fs.filterMap (made[·]?))))
  | expression e => some e.filter
  | rdn name => some (Rdn.filter name)
  | component parts => (parts.component? made).map Filter.ofComponent
  | clause source index =>
    (made[source]?.bind Filter.clauses?).bind fun clauses => clauses[index]?.map .ok
  | inner source =>
    match made[source]? with
    | some (.not f) => some (.ok f)
    | _ => none

/-- The filters after a call: a call that fails makes none. -/
def step (made : List Filter) (call : Call) : List Filter :=
  match call.result made with
  | some (.ok f) => made ++ [f]
  | _ => made

/-- The filters that a list of calls makes, one after the other. -/
def run (calls : List Call) : List Filter := calls.foldl step []

end Call

/-- Some run makes the filter. -/
def Filter.Reachable (f : Filter) : Prop := ∃ calls : List Call, f ∈ Call.run calls

/-! ### Each operation keeps filters regular -/

namespace Filter

theorem regular_of_parse {text : Text} {f : Filter} (h : parse text = .ok f) : f.Regular :=
  (derives_of_parse h).1.regular_legible.1

theorem regular_of_apply {combinator : Combinator} {clauses : List Filter} {f : Filter}
    (h : combinator.apply clauses = .ok f) (hclauses : ∀ g ∈ clauses, g.Regular) : f.Regular :=
  (Combinator.apply_eq_ok_iff.mp h).regular hclauses

theorem regular_not {f : Filter} (h : f.Regular) : (not f).Regular :=
  Combinator.Makes.not.regular (by simpa using h)

theorem Regular.clauses {f : Filter} {fs : List Filter} (h : f.Regular)
    (hfs : f.clauses? = some fs) : fs ≠ [] ∧ ∀ g ∈ fs, g.Regular := by
  cases f with
  | and clauses => cases hfs; exact ⟨h.here, fun g hg => h.member hg⟩
  | or clauses => cases hfs; exact ⟨h.here, fun g hg => h.member hg⟩
  | _ => cases hfs

end Filter

namespace Expression

/-- **Whatever an expression builds is regular.** -/
theorem regular_of_filterAt {depth : Nat} {e : Expression} {f : Filter}
    (h : e.filterAt depth = .ok f) : f.Regular := by
  have hall : ∀ g ∈ [f], g.Regular :=
    (expands_of_filterAt h).forall_mem Filter.regular_of_parse
      (fun _ => Filter.regular_presence _) (fun _ _ => Filter.regular_assertion _ _ _)
      (fun hmakes hclauses => hmakes.regular hclauses)
  exact hall f List.mem_cons_self

end Expression

namespace Rdn

theorem regular_of_conjunction {pairs : List (Text × Text)} {f : Filter}
    (h : conjunction pairs = .ok f) : f.Regular := by
  have htests : ∀ g ∈ pairs.map fun p => Filter.assertion p.1 .equal p.2, g.Regular := by
    intro g hg
    obtain ⟨p, -, rfl⟩ := List.mem_map.mp hg
    exact Filter.regular_assertion p.1 .equal p.2
  unfold conjunction at h
  split at h
  · rename_i test e
    cases h
    have hmem : f ∈ [f] := List.mem_singleton_self f
    rw [← e] at hmem
    exact htests f hmem
  · exact Filter.regular_of_apply h htests

theorem regular_of_filter {name : Text} {f : Filter} (h : filter name = .ok f) : f.Regular := by
  obtain ⟨pairs, -, h⟩ := bind_eq_ok_iff.mp h
  exact regular_of_conjunction h

end Rdn

/-! ### Runs keep filters regular -/

section runs

variable {made : List Filter}

theorem Parts.regular_of_component? (hmade : ∀ f ∈ made, f.Regular) {parts : Parts}
    {c : Component} {f : Filter} (hc : parts.component? made = some c)
    (hf : Filter.ofComponent c = .ok f) : f.Regular := by
  have hclauses : ∀ {source : Nat} {fs : List Filter},
      made[source]?.bind Filter.clauses? = some fs → fs ≠ [] ∧ ∀ g ∈ fs, g.Regular := by
    intro source fs h
    obtain ⟨g, hg, hfs⟩ := Option.bind_eq_some_iff.mp h
    exact (hmade g (List.mem_of_getElem? hg)).clauses hfs
  cases parts with
  | presence attr => cases hc; cases hf; exact Filter.regular_presence attr
  | item attr op value => cases hc; cases hf; exact Filter.regular_assertion attr op value
  | substring attr pattern => cases hc; cases hf; exact Filter.regular_assertion attr .equal pattern
  | retyped source op =>
      simp only [component?] at hc
      split at hc
      · cases hc
        cases hf
        exact Filter.regular_assertion _ _ _
      · cases hc
  | and source =>
      obtain ⟨fs, hfs, rfl⟩ := Option.map_eq_some_iff.mp hc
      cases hf
      exact (Combinator.Makes.and (hclauses hfs).1).regular (hclauses hfs).2
  | or source =>
      obtain ⟨fs, hfs, rfl⟩ := Option.map_eq_some_iff.mp hc
      cases hf
      exact (Combinator.Makes.or (hclauses hfs).1).regular (hclauses hfs).2
  | list source =>
      obtain ⟨fs, -, rfl⟩ := Option.map_eq_some_iff.mp hc
      cases hf
  | not inner =>
      obtain ⟨g, hg, rfl⟩ := Option.map_eq_some_iff.mp hc
      cases hf
      exact Filter.regular_not (hmade g (List.mem_of_getElem? hg))

namespace Call

/-- **What one call makes is regular**, if the filters made before are. -/
theorem regular_of_result (hmade : ∀ f ∈ made, f.Regular) {call : Call} {f : Filter}
    (h : call.result made = some (.ok f)) : f.Regular := by
  have hat : ∀ {i : Nat} {g : Filter}, made[i]? = some g → g.Regular :=
    fun hg => hmade _ (List.mem_of_getElem? hg)
  have hargs : ∀ is : List Nat, ∀ g ∈ is.filterMap (made[·]?), g.Regular := by
    intro is g hg
    obtain ⟨i, -, hi⟩ := List.mem_filterMap.mp hg
    exact hat hi
  cases call with
  | parse text => exact Filter.regular_of_parse (Option.some.inj h)
  | presence attr => cases h; exact Filter.regular_presence attr
  | assertion attr op value => cases h; exact Filter.regular_assertion attr op value
  | negate i =>
      obtain ⟨g, hg, e⟩ := Option.map_eq_some_iff.mp h
      cases e
      exact Filter.regular_not (hat hg)
  | apply combinator is => exact Filter.regular_of_apply (Option.some.inj h) (hargs is)
  | combine i j =>
      obtain ⟨g, hg, h⟩ := Option.bind_eq_some_iff.mp h
      obtain ⟨g', hg', e⟩ := Option.map_eq_some_iff.mp h
      cases e
      exact Filter.everywhere_combine (fun _ _ => List.cons_ne_nil _ _) (hat hg) (hat hg')
  | all is =>
      cases h
      exact Filter.everywhere_all (fun _ _ => List.cons_ne_nil _ _) trivial (hargs is)
  | expression e => exact Expression.regular_of_filterAt (Option.some.inj h)
  | rdn name => exact Rdn.regular_of_filter (Option.some.inj h)
  | component parts =>
      obtain ⟨c, hc, hf⟩ := Option.map_eq_some_iff.mp h
      exact Parts.regular_of_component? hmade hc hf
  | clause i j =>
      obtain ⟨clauses, hclauses, h⟩ := Option.bind_eq_some_iff.mp h
      obtain ⟨g, hg, hclauses⟩ := Option.bind_eq_some_iff.mp hclauses
      obtain ⟨g', hg', e⟩ := Option.map_eq_some_iff.mp h
      cases e
      exact ((hat hg).clauses hclauses).2 _ (List.mem_of_getElem? hg')
  | inner i =>
      simp only [result] at h
      split at h
      · rename_i g hg
        cases h
        exact (hat hg).member List.mem_cons_self
      · cases h

theorem regular_of_mem_step (hmade : ∀ f ∈ made, f.Regular) (call : Call) :
    ∀ f ∈ step made call, f.Regular := by
  unfold step
  split
  · rename_i f h
    intro g hg
    rcases List.mem_append.mp hg with hg | hg
    · exact hmade g hg
    · rw [List.mem_singleton.mp hg]
      exact regular_of_result hmade h
  · exact hmade

/-- **All filters of a run are regular.** -/
theorem regular_of_mem_run (calls : List Call) : ∀ f ∈ run calls, f.Regular := by
  induction calls using List.reverseRecOn with
  | nil => simp [run]
  | append_singleton calls call ih =>
      rw [run, List.foldl_append]
      exact regular_of_mem_step ih call

theorem eq_error_of_result_list {source : Nat} {result : Except FilterError Filter}
    (h : (component (.list source)).result made = some result) : result = .error .bareList := by
  obtain ⟨c, hc, rfl⟩ := Option.map_eq_some_iff.mp h
  obtain ⟨fs, -, rfl⟩ := Option.map_eq_some_iff.mp hc
  rfl

/-- **Every filter of a run is well formed, and so is every filter within it**: it is no bare list,
and a call that makes a component of one is refused; a group has a clause, no equality holds a `*`,
a pattern holds one and is not just that; so its own component makes it again. -/
theorem wellFormed_of_mem_run {calls : List Call} {f g : Filter} (hf : f ∈ run calls)
    (hg : Filter.Within g f) :
    (∀ fs, g.component ≠ .list fs) ∧
    (∀ source result, (component (.list source)).result (run calls) = some result →
      result = .error .bareList) ∧
    (∀ clauses, g = .and clauses ∨ g = .or clauses → clauses ≠ []) ∧
    (∀ attr value, g = .item attr .equal value → '*' ∉ value) ∧
    (∀ attr pattern, g = .substring attr pattern → '*' ∈ pattern ∧ pattern ≠ ['*']) ∧
    Filter.ofComponent g.component = .ok g := by
  have hclassified : g.Classified := regular_of_mem_run calls f hf g hg
  refine ⟨?_, fun _ _ => eq_error_of_result_list, ?_, ?_, ?_,
    Filter.ofComponent_component hclassified⟩
  · intro fs h
    cases g <;> cases h
  · rintro clauses (rfl | rfl)
    · exact hclassified
    · exact hclassified
  · rintro attr value rfl
    exact hclassified rfl
  · rintro attr pattern rfl
    exact hclassified

/-- A run that takes a comparison out of a filter, makes it an equality, which turns it into a
pattern, and regroups the clauses. -/
theorem wellFormed_of_regrouping :
    let pattern := Filter.substring "cn" "b*"
    let calls := [.parse "|(uid=*)(cn>=b*)", .clause 0 1, .component (.retyped 1 .equal),
      .component (.and 0), .apply .or [2, 3]]
    let f := Filter.or [pattern, .and [.presence "uid", .item "cn" .greater "b*"]]
    f ∈ run calls ∧ Filter.Within pattern f ∧
      Filter.ofComponent pattern.component = .ok pattern := by
  intro pattern calls f
  have hf : f ∈ run calls := by decide +kernel
  have hpattern : Filter.Within pattern f := .member List.mem_cons_self (.self pattern)
  obtain ⟨-, -, -, -, -, hmade⟩ := wellFormed_of_mem_run hf hpattern
  exact ⟨hf, hpattern, hmade⟩

end Call

theorem Filter.Reachable.regular {f : Filter} (h : f.Reachable) : f.Regular := by
  obtain ⟨calls, hf⟩ := h
  exact Call.regular_of_mem_run calls f hf

end runs

/-! ### The round trip -/

namespace Filter

theorem legible_of_parse {text : Text} {f : Filter} (h : parse text = .ok f) : f.Legible :=
  (derives_of_parse h).1.regular_legible.2

/-- **A filter made by calls is read back from its canonical string** exactly if its texts are
legible and it is not too deep.  If it is only too deep, reading says so. -/
theorem parse_render_eq_ok_iff {f : Filter} (hf : f.Reachable) :
    (parse f.render = .ok f ↔ f.Legible ∧ f.depth ≤ maxDepth) ∧
    (f.Legible → maxDepth < f.depth → parse f.render = .error (.nestingTooDeep maxDepth)) := by
  have hread : f.Legible → parse f.render =
      if f.depth ≤ maxDepth then .ok f else .error (.nestingTooDeep maxDepth) :=
    fun hlegible => parse_derived (derives_render hf.regular hlegible)
  refine ⟨⟨?_, ?_⟩, ?_⟩
  · intro h
    exact ⟨legible_of_parse h, (derives_of_parse h).2⟩
  · rintro ⟨hlegible, hdepth⟩
    rw [hread hlegible, if_pos hdepth]
  · intro hlegible hdepth
    rw [hread hlegible, if_neg (Nat.not_le.mpr hdepth)]

/-- A filter put together by four calls is read back; one whose value holds parentheses is not, so
it is not legible. -/
theorem parse_render_of_calls :
    let good := not (and [item "uid" .equal "a b", presence "mail"])
    let bad := item "uid" .equal "a)(b"
    good.Reachable ∧ good.Legible ∧ parse good.render = .ok good ∧
      bad.Reachable ∧ ¬ bad.Legible := by
  intro good bad
  have hgood : good.Reachable :=
    ⟨[.assertion "uid" .equal "a b", .presence "mail", .apply .and [0, 1], .negate 2],
      by decide +kernel⟩
  have hbad : bad.Reachable := ⟨[.assertion "uid" .equal "a)(b"], by decide +kernel⟩
  have hread : parse good.render = .ok good := by decide +kernel
  have hfails : parse bad.render ≠ .ok bad := by decide +kernel
  refine ⟨hgood, ((parse_render_eq_ok_iff hgood).1.mp hread).1, hread, hbad, fun hlegible => ?_⟩
  exact hfails ((parse_render_eq_ok_iff hbad).1.mpr ⟨hlegible, by decide⟩)

end Filter
end SearchFilter
