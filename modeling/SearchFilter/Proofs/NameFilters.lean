import SearchFilter.Proofs.Classification
import SearchFilter.Proofs.NamePairs

/-! # Filters of names

The filter that looks an entry up by its name has one test for each pair, in order: what the pair
denotes where it stands in a filter.  There a `*` stands for any text, while in a name it is a
character like any other.  So the filter tests for equality with the values of the name, and for
nothing else, exactly if no value holds a `*` (`filter_of_pairs`).

There is a filter wherever there are pairs.  It can be read back from its canonical string unless a
value holds a parenthesis, since attributes and values are in order otherwise
(`parse_render_filter_iff`). -/

namespace SearchFilter

namespace Filter

variable {attr value : Text}

theorem assertion_equal_eq_item_iff :
    assertion attr .equal value = item attr .equal value ↔ '*' ∉ value := by
  constructor
  · intro h
    have hclassified : (item attr .equal value).Classified :=
      h ▸ classified_assertion attr .equal value
    exact hclassified rfl
  · intro hstar
    exact assertion_of_classified fun _ => hstar

theorem legible_iff_of_denotes {op : Comparison} {f : Filter} (hattr : isAttribute attr = true)
    (hvalue : value.Trimmed) (h : Denotes attr op value f) : f.Legible ↔ value.Plain := by
  rw [Legible, everywhere_iff]
  cases h with
  | presence =>
      have hplain : Text.Plain ['*'] := by decide
      simp [HasCleanTexts, attr?, value?, hattr, hplain]
  | substring _ _ => simp [HasCleanTexts, attr?, value?, hattr, Text.Clean, hvalue]
  | item _ => simp [HasCleanTexts, attr?, value?, hattr, Text.Clean, hvalue]

end Filter

namespace Rdn

/-! ### Tests put together -/

/-- Tests put together: a single one as it is, more of them as the clauses of an `and`. -/
def together : List Filter → Filter
  | [test] => test
  | tests => .and tests

theorem together_inj : ∀ {fs gs : List Filter}, fs.length = gs.length →
    (together fs = together gs ↔ fs = gs)
  | [], [], _ => by simp
  | [f], [g], _ => by simp [together]
  | _ :: _ :: _, _ :: _ :: _, _ => by simp [together]

theorem legible_together_iff : ∀ {fs : List Filter},
    (together fs).Legible ↔ ∀ f ∈ fs, f.Legible
  | [f] => by simp [together]
  | [] => by
      rw [Filter.Legible, Filter.everywhere_iff]
      simp [together, Filter.HasCleanTexts, Filter.attr?, Filter.value?]
  | f :: g :: fs => by
      rw [Filter.Legible, Filter.everywhere_iff]
      simp [together, Filter.HasCleanTexts, Filter.attr?, Filter.value?]

theorem depth_together_le {fs : List Filter} (h : ∀ f ∈ fs, f.depth ≤ 1) :
    (together fs).depth ≤ 2 := by
  have hle : Filter.depthAll fs + 1 ≤ 2 := Nat.succ_le_succ (Filter.depthAll_le h)
  match fs, h with
  | [f], h => exact (h f List.mem_cons_self).trans (by decide)
  | [], _ => exact hle
  | _ :: _ :: _, _ => exact hle

/-! ### The filter of a name -/

/-- The test for a pair. -/
def test (p : Text × Text) : Filter := .assertion p.1 .equal p.2

theorem conjunction_eq_ok : ∀ {ps : List (Text × Text)}, ps ≠ [] →
    conjunction ps = .ok (together (ps.map test))
  | [_], _ => rfl
  | _ :: _ :: _, _ => rfl

theorem filter_eq_ok {name : Text} {ps : List (Text × Text)} (h : pairs name = .ok ps) :
    filter name = .ok (together (ps.map test)) :=
  bind_eq_ok_iff.mpr ⟨ps, h, conjunction_eq_ok (wellFormed_of_pairs h).1⟩

theorem filter_eq_error_iff {name : Text} {e : FilterError} :
    filter name = .error e ↔ pairs name = .error e := by
  cases h : pairs name with
  | error e' =>
      have hfilter : filter name = .error e' := by
        rw [filter, h]
        rfl
      simp [hfilter]
  | ok ps => simp [filter_eq_ok h]

theorem isPromiscuous_together_iff : ∀ {ps : List (Text × Text)},
    (together (ps.map test)).isPromiscuous = true ↔ ps = [(objectClass, ['*'])]
  | [] => by simp [together, Filter.isPromiscuous]
  | [(attr, value)] => by
      simp [together, test, Filter.isPromiscuous_assertion_iff, and_comm]
  | _ :: _ :: _ => by simp [together, Filter.isPromiscuous]

/-- **A name with pairs has a filter**, with one test for each pair, in order: what the pair denotes
in a filter.  These are the equality tests exactly if no value holds a `*`.  The filter passes every
entry if the name is `objectClass=*`, and only then. -/
theorem filter_of_pairs {name : Text} {ps : List (Text × Text)} (h : pairs name = .ok ps) :
    ps ≠ [] ∧ ∃ tests, filter name = .ok (together tests) ∧
      List.Forall₂ (fun p f => Denotes p.1 .equal p.2 f) ps tests ∧
      (together tests = together (ps.map fun p => .item p.1 .equal p.2) ↔
        ∀ p ∈ ps, '*' ∉ p.2) ∧
      ((together tests).isPromiscuous = true ↔ ps = [(objectClass, ['*'])]) := by
  refine ⟨(wellFormed_of_pairs h).1, ps.map test, filter_eq_ok h, ?_, ?_,
    isPromiscuous_together_iff⟩
  · rw [List.forall₂_map_right_iff, List.forall₂_same]
    exact fun _ _ => denotes_iff.mpr rfl
  · rw [together_inj (by simp), List.map_inj_left]
    simp only [test, Filter.assertion_equal_eq_item_iff]

/-- Without a `*` the tests are plain, blanks around attributes and values notwithstanding. -/
theorem filter_of_plain_name :
    let name : Text := " cn = J. Smith+uid=js"
    pairs name = .ok [("cn", "J. Smith"), ("uid", "js")] ∧
      filter name = .ok (.and [.item "cn" .equal "J. Smith", .item "uid" .equal "js"]) := by
  intro name
  have hpairs : pairs name = .ok [("cn", "J. Smith"), ("uid", "js")] := by decide +kernel
  obtain ⟨-, tests, hfilter, -, hplain, -⟩ := filter_of_pairs hpairs
  rw [hplain.mpr (by decide)] at hfilter
  exact ⟨hpairs, hfilter⟩

/-- The name of an entry whose class is called `*` looks up every entry. -/
theorem filter_of_star_name :
    let name : Text := "objectClass=*"
    pairs name = .ok [(objectClass, "*")] ∧
      filter name = .ok (.presence objectClass) ∧
      filter name ≠ .ok (.item objectClass .equal "*") ∧
      (Filter.presence objectClass).isPromiscuous = true := by
  intro name
  have hfilter : filter name = .ok (.presence objectClass) := by decide +kernel
  refine ⟨by decide +kernel, hfilter, ?_, rfl⟩
  rw [hfilter]
  rintro ⟨⟩

/-! ### Reading the filter of a name back -/

theorem reachable_of_filter {name : Text} {f : Filter} (h : filter name = .ok f) :
    f.Reachable :=
  ⟨[.rdn name], by simp [Call.run, Call.step, Call.result, h]⟩

/-- **A name has a filter wherever it has pairs**, and fails with the same error otherwise, which is
never about a number of clauses.  The filter is read back from its canonical string exactly if no
value holds a parenthesis. -/
theorem parse_render_filter_iff (name : Text) :
    (∀ e, filter name = .error e ↔ pairs name = .error e) ∧
    (∀ combinator found, filter name ≠ .error (.argumentCount combinator found)) ∧
    ∀ ps, pairs name = .ok ps → ∃ f, filter name = .ok f ∧
      (Filter.parse f.render = .ok f ↔ ∀ p ∈ ps, '(' ∉ p.2 ∧ ')' ∉ p.2) := by
  refine ⟨fun _ => filter_eq_error_iff, ?_, ?_⟩
  · intro combinator found h
    rcases error_of_pairs (filter_eq_error_iff.mp h) with he | ⟨_, -, he⟩
    · cases he
    · cases he
  · intro ps h
    have hfilter := filter_eq_ok h
    have hwell := (wellFormed_of_pairs h).2
    have hdepth : (together (ps.map test)).depth ≤ Filter.maxDepth := by
      refine (depth_together_le fun f hf => ?_).trans (by decide)
      obtain ⟨p, -, rfl⟩ := List.mem_map.mp hf
      exact (Filter.depth_assertion p.1 .equal p.2).le
    have hlegible : (together (ps.map test)).Legible ↔ ∀ p ∈ ps, p.2.Plain := by
      rw [legible_together_iff, List.forall_mem_map]
      refine forall₂_congr fun p hp => ?_
      exact Filter.legible_iff_of_denotes (hwell p hp).1 (hwell p hp).2 (denotes_iff.mpr rfl)
    refine ⟨_, hfilter, ?_⟩
    rw [(Filter.parse_render_eq_ok_iff (reachable_of_filter hfilter)).1, hlegible,
      and_iff_left hdepth]
    simp only [Text.plain_iff]

/-- Escaped parentheses can be read back, even where the tests are no plain ones; parentheses by
themselves cannot. -/
theorem parse_render_filter_of_parentheses :
    let read : Text := "cn=a\\28b*\\29+uid=\\+"
    let unread : Text := "cn=a (b)+uid=c"
    (∃ f, filter read = .ok f ∧ Filter.parse f.render = .ok f) ∧
      (∃ f, filter unread = .ok f ∧ Filter.parse f.render ≠ .ok f) ∧
      filter "cn=a+b" = .error (.expression "b") := by
  intro read unread
  have hread : pairs read = .ok [("cn", "a\\28b*\\29"), ("uid", "\\+")] := by decide +kernel
  have hunread : pairs unread = .ok [("cn", "a (b)"), ("uid", "c")] := by decide +kernel
  obtain ⟨f, hf, hiff⟩ := (parse_render_filter_iff read).2.2 _ hread
  obtain ⟨g, hg, hiff'⟩ := (parse_render_filter_iff unread).2.2 _ hunread
  refine ⟨⟨f, hf, hiff.mpr (by decide)⟩, ⟨g, hg, fun h => absurd (hiff'.mp h) (by decide)⟩, ?_⟩
  exact ((parse_render_filter_iff "cn=a+b").1 _).mpr (by decide +kernel)

end Rdn
end SearchFilter
