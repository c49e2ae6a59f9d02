import SearchFilter.Proofs.Calls

/-! # Classified before trimming and after

An assertion is classified by its value as it is given; what is written for it is classified by the
value that reading finds, which has lost the blanks at its ends (`parse_render_trim`).  Blanks
matter to one value only: a `*` with blanks around it is a pattern as it is given, and a presence
test once it is read (`kind_trim_eq_iff`).  With any other value, and with any other operator than
equality, the two kinds are the same. -/

namespace SearchFilter

namespace Text

/-- A `*` by itself, but for blanks at its ends, of which there are some. -/
def PaddedStar (value : Text) : Prop := value.trim = ['*'] ∧ value ≠ ['*']

theorem mem_trim_iff {t : Text} {c : Char} (hc : isBlank c = false) : c ∈ t.trim ↔ c ∈ t := by
  obtain ⟨w, w', hw, hw', e⟩ := exists_trim t
  have hnot : ∀ {u : Text}, u.Blank → c ∉ u := by
    intro u hu hmem
    have hblank := hu c hmem
    rw [hc] at hblank
    cases hblank
  conv_rhs => rw [e]
  simp [hnot hw, hnot hw']

end Text

namespace Filter

variable {attr value : Text}

theorem fragment_assertion (attr : Text) (op : Comparison) (value : Text) :
    (assertion attr op value).fragment = attr ++ op.symbol ++ value := by
  unfold assertion
  split
  · split
    · rename_i hvalue
      subst hvalue
      simp [fragment, Comparison.symbol]
    · split
      · simp [fragment, Comparison.symbol]
      · rfl
  · rfl

/-- **What is written for an assertion is read as the assertion with the trimmed value.** -/
theorem parse_render_trim (hattr : isAttribute attr = true) (op : Comparison)
    (hvalue : value.Plain) :
    parse (assertion attr op value).render = .ok (assertion attr op value.trim) := by
  have hderives : Derives (assertion attr op value).render (assertion attr op value.trim) := by
    rw [render, fragment_assertion]
    exact derives_comparison hattr hvalue (denotes_iff.mpr rfl)
  rw [parse_derived hderives, depth_assertion]
  rfl

/-! ### Kinds -/

/-- Trimming the value changes the kind of an assertion only if a padded `*` is compared for
equality. -/
theorem kind_trim_eq_iff (attr : Text) (op : Comparison) (value : Text) :
    (assertion attr op value.trim).kind = (assertion attr op value).kind ↔
      ¬ (op = .equal ∧ value.PaddedStar) := by
  unfold Text.PaddedStar
  cases op with
  | equal =>
      have hmem : '*' ∈ value.trim ↔ '*' ∈ value := Text.mem_trim_iff (by decide)
      by_cases htrim : value.trim = ['*']
      · have hstar : '*' ∈ value := hmem.mp (by simp [htrim])
        by_cases hvalue : value = ['*']
        · subst hvalue
          simp [htrim]
        · simp [assertion, kind, htrim, hvalue, hstar]
      · have hvalue : value ≠ ['*'] := by
          rintro rfl
          exact htrim rfl
        by_cases hstar : '*' ∈ value <;> simp [assertion, kind, htrim, hvalue, hstar, hmem]
  | _ => simp [assertion, kind]

theorem isPromiscuous_assertion_iff (attr : Text) (op : Comparison) (value : Text) :
    (assertion attr op value).isPromiscuous = true ↔
      op = .equal ∧ value = ['*'] ∧ attr = objectClass := by
  cases op with
  | equal =>
      by_cases hvalue : value = ['*']
      · simp [assertion, isPromiscuous, hvalue]
      · by_cases hstar : '*' ∈ value <;> simp [assertion, isPromiscuous, hvalue, hstar]
  | _ => simp [assertion, isPromiscuous]

/-- **An assertion and what is read of its canonical string are of one kind**, and both or neither
of them pass every entry, except where a padded `*` is compared for equality.  Reading succeeds
there too, with another kind. -/
theorem kind_of_parse_render_assertion (hattr : isAttribute attr = true) (op : Comparison)
    (hvalue : value.Plain) :
    let f := assertion attr op value
    let g := assertion attr op value.trim
    parse f.render = .ok g ∧
      (g.kind = f.kind ↔ ¬ (op = .equal ∧ value.PaddedStar)) ∧
      (g.isPromiscuous = f.isPromiscuous ↔
        ¬ (op = .equal ∧ value.PaddedStar ∧ attr = objectClass)) := by
  intro f g
  refine ⟨parse_render_trim hattr op hvalue, kind_trim_eq_iff attr op value, ?_⟩
  have hself : value = ['*'] → value.trim = ['*'] := by
    rintro rfl
    rfl
  rw [Bool.eq_iff_iff, isPromiscuous_assertion_iff, isPromiscuous_assertion_iff, Text.PaddedStar]
  tauto

/-- A pattern that begins and ends with a `*` keeps its kind, blanks inside and outside. -/
theorem kind_of_padded_pattern :
    ∃ f, parse (assertion "cn" .equal " * a* ").render = .ok f ∧ f.kind = .substring := by
  obtain ⟨hread, hkind, -⟩ := @kind_of_parse_render_assertion "cn" " * a* " (by decide) .equal
    (by decide)
  exact ⟨_, hread, hkind.mpr fun h => absurd h.2.1 (by decide)⟩

/-- A `*` behind a blank is built as a pattern, which does not pass every entry, and its canonical
string is read as the presence test that does. -/
theorem kind_of_padded_star :
    let f := assertion objectClass .equal " *"
    isAttribute objectClass = true ∧ Text.Plain " *" ∧
      f.kind = .substring ∧ f.isPromiscuous = false ∧
      parse f.render = .ok everything ∧
      everything.kind = .presence ∧ everything.isPromiscuous = true := by
  refine ⟨by decide, by decide, rfl, by decide, ?_, rfl, rfl⟩
  decide +kernel

end Filter
end SearchFilter
