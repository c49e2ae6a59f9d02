import SearchFilter.Proofs.EscapedText
import SearchFilter.Proofs.Calls

/-! # Values inside a filter

A context is a filter with a hole in it.  If a caller fills the hole with a comparison whose value
comes from outside and was escaped, the canonical string is read as the same context around a
comparison with the same attribute and the same operator, whatever the value is. -/

namespace SearchFilter

/-- A filter with one hole. -/
inductive Context where
  | hole
  | and (before : List Filter) (inner : Context) (after : List Filter)
  | or (before : List Filter) (inner : Context) (after : List Filter)
  | not (inner : Context)

namespace Context

/-- The filter with another filter in the hole. -/
def fill (leaf : Filter) : Context → Filter
  | hole => leaf
  | and before inner after => .and (before ++ inner.fill leaf :: after)
  | or before inner after => .or (before ++ inner.fill leaf :: after)
  | not inner => .not (inner.fill leaf)

/-- The filters beside the hole, at all levels. -/
def siblings : Context → List Filter
  | hole => []
  | and before inner after | or before inner after => before ++ after ++ inner.siblings
  | not inner => inner.siblings

/-- What a caller makes of an attribute, an operator and a value from outside, which is escaped, in
the place of the hole. -/
def withValue (C : Context) (attr : Text) (op : Comparison) (value : Text) : Filter :=
  C.fill (.assertion attr op (Escape.escape value))

/-! ### Contexts and the grammar -/

theorem forall₂_around {R : Filter → Filter → Prop} {before after : List Filter} {f g : Filter}
    (hbefore : ∀ s ∈ before, R s s) (hafter : ∀ s ∈ after, R s s) (h : R f g) :
    List.Forall₂ R (before ++ f :: after) (before ++ g :: after) :=
  List.rel_append (List.forall₂_same.mpr hbefore) (.cons h (List.forall₂_same.mpr hafter))

/-- If the siblings are derived from their own strings, what is derived in the hole is derived in
the context. -/
theorem derives_render_fill {C : Context} {f g : Filter}
    (hsiblings : ∀ s ∈ C.siblings, Derives s.render s) (h : Derives f.render g) :
    Derives (C.fill f).render (C.fill g) := by
  induction C with
  | hole => exact h
  | and before inner after ih =>
      simp only [siblings, List.forall_mem_append] at hsiblings
      obtain ⟨⟨hbefore, hafter⟩, hinner⟩ := hsiblings
      have hclauses := forall₂_around hbefore hafter (ih hinner)
      exact Filter.derives_group (.and (by simp)) (.and (by simp)) hclauses
  | or before inner after ih =>
      simp only [siblings, List.forall_mem_append] at hsiblings
      obtain ⟨⟨hbefore, hafter⟩, hinner⟩ := hsiblings
      have hclauses := forall₂_around hbefore hafter (ih hinner)
      exact Filter.derives_group (.or (by simp)) (.or (by simp)) hclauses
  | not inner ih =>
      have hclauses : List.Forall₂ (fun f g => Derives f.render g) [inner.fill f] [inner.fill g] :=
        .cons (ih hsiblings) .nil
      exact Filter.derives_group .not .not hclauses

theorem depth_fill_congr {f g : Filter} (h : f.depth = g.depth) (C : Context) :
    (C.fill f).depth = (C.fill g).depth := by
  induction C with
  | hole => exact h
  | and before inner after ih =>
      simp only [fill, Filter.depth, Filter.depthAll_append, Filter.depthAll, ih]
  | or before inner after ih =>
      simp only [fill, Filter.depth, Filter.depthAll_append, Filter.depthAll, ih]
  | not inner ih => simp only [fill, Filter.depth, ih]

/-! ### Values from outside -/

theorem assertion_escape (attr : Text) (op : Comparison) (value : Text) :
    Filter.assertion attr op (Escape.escape value) = .item attr op (Escape.escape value) :=
  Filter.assertion_of_classified fun _ => Escape.star_notMem_escape value

theorem derives_render_escape {attr : Text} (hattr : isAttribute attr = true) (op : Comparison)
    (value : Text) :
    Derives (Filter.item attr op (Escape.escape value)).render
      (.item attr op (Escape.escape value).trim) := by
  have hdenotes : Denotes attr op (Escape.escape value).trim
      (.item attr op (Escape.escape value).trim) := by
    apply Denotes.item
    intro _
    rw [Escape.trim_escape]
    exact Escape.star_notMem_escape value.trim
  exact Filter.derives_comparison hattr (Escape.plain_escape value) hdenotes

theorem withValue_eq (C : Context) (attr : Text) (op : Comparison) (value : Text) :
    C.withValue attr op value = C.fill (.item attr op (Escape.escape value)) := by
  rw [withValue, assertion_escape]

theorem depth_withValue (C : Context) (attr : Text) (op : Comparison) (value other : Text) :
    (C.withValue attr op value).depth = (C.fill (.item attr op other)).depth := by
  rw [withValue_eq]
  apply depth_fill_congr
  rfl

section reading

variable {C : Context} {attr : Text}

theorem parse_render_fill_escape (hsiblings : ∀ s ∈ C.siblings, s.Reachable ∧ s.Legible)
    (hattr : isAttribute attr = true) (op : Comparison) (value : Text)
    (hdepth : (C.withValue attr op value).depth ≤ Filter.maxDepth) :
    Filter.parse (C.withValue attr op value).render =
      .ok (C.fill (.item attr op (Escape.escape value).trim)) := by
  have hderives : ∀ s ∈ C.siblings, Derives s.render s := by
    intro s hs
    obtain ⟨hreachable, hlegible⟩ := hsiblings s hs
    exact Filter.derives_render hreachable.regular hlegible
  rw [depth_withValue C attr op value (Escape.escape value).trim] at hdepth
  rw [withValue_eq, Filter.parse_derived
    (derives_render_fill hderives (derives_render_escape hattr op value)), if_pos hdepth]

/-- **A value from outside cannot change the structure of a filter.**  It makes a comparison with
the operator that was meant; the string is read as the same context around that comparison, with
the blanks at the ends of the value dropped; any two values give the same context around the same
attribute and operator; and a value without blanks at its ends gives the very filter. -/
theorem parse_render_withValue (hsiblings : ∀ s ∈ C.siblings, s.Reachable ∧ s.Legible)
    (hattr : isAttribute attr = true) (op : Comparison) (value : Text)
    (hdepth : (C.withValue attr op value).depth ≤ Filter.maxDepth) :
    Filter.assertion attr op (Escape.escape value) = .item attr op (Escape.escape value) ∧
    Filter.parse (C.withValue attr op value).render =
      .ok (C.fill (.item attr op (Escape.escape value).trim)) ∧
    (∀ other, ∃ v w,
      Filter.parse (C.withValue attr op value).render = .ok (C.fill (.item attr op v)) ∧
      Filter.parse (C.withValue attr op other).render = .ok (C.fill (.item attr op w))) ∧
    (value.Trimmed →
      Filter.parse (C.withValue attr op value).render = .ok (C.withValue attr op value)) := by
  have hread := parse_render_fill_escape hsiblings hattr op value hdepth
  refine ⟨assertion_escape attr op value, hread, fun other => ?_, fun htrimmed => ?_⟩
  · have hother : (C.withValue attr op other).depth ≤ Filter.maxDepth := by
      rw [depth_withValue C attr op other (Escape.escape value), ← withValue_eq]
      exact hdepth
    exact ⟨_, _, hread, parse_render_fill_escape hsiblings hattr op other hother⟩
  · rw [hread, withValue_eq, Text.trim_eq_self (Escape.trimmed_escape htrimmed)]

/-- A value that would close the filter and open another one, with blanks around it. -/
theorem parse_render_of_hostile_value :
    let C := Context.and [.presence "mail"] (.not (.or [] .hole [.item "cn" .equal "b"])) []
    let value : Text := " *)(uid=*\\ "
    Filter.parse (C.withValue "uid" .equal value).render =
      .ok (C.fill (.item "uid" .equal "\\2a\\29\\28uid=\\2a\\5c")) := by
  intro C value
  have hmail : Filter.parse "mail" = .ok (.presence "mail") := by decide +kernel
  have hcn : Filter.parse "cn=b" = .ok (.item "cn" .equal "b") := by decide +kernel
  have hsiblings : ∀ s ∈ C.siblings, s.Reachable ∧ s.Legible := by
    intro s hs
    have hs : s = .presence "mail" ∨ s = .item "cn" .equal "b" := by
      simpa [C, siblings] using hs
    rcases hs with rfl | rfl
    · exact ⟨⟨[.parse "mail"], by decide +kernel⟩, Filter.legible_of_parse hmail⟩
    · exact ⟨⟨[.parse "cn=b"], by decide +kernel⟩, Filter.legible_of_parse hcn⟩
  exact (parse_render_withValue hsiblings (by decide) .equal value (by decide)).2.1

end reading

end Context
end SearchFilter
