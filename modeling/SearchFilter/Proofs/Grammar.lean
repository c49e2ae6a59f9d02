import Mathlib.Data.List.Forall2
import SearchFilter.Proofs.AssertionText

/-! # The grammar of filter strings

With `W` for any run of blanks,

```text
filter ::= "(" W comp ")" W
comp   ::= "&" W filter+ | "|" W filter+ | "!" W filter | item
item   ::= attr W | attr W op W value W
```

`Item` and `Derives` are these rules over characters, with the filter that each text denotes.  What
the grammar derives is always a regular and legible filter (`Derives.regular_legible`), and
it derives the canonical string of every such filter (`derives_render`). -/

namespace SearchFilter

/-- What an attribute, an operator and a value denote. -/
inductive Denotes (attr : Text) : Comparison → Text → Filter → Prop
  | presence : Denotes attr .equal ['*'] (.presence attr)
  | substring {pattern : Text} : '*' ∈ pattern → pattern ≠ ['*'] →
      Denotes attr .equal pattern (.substring attr pattern)
  | item {op : Comparison} {value : Text} : (op = .equal → '*' ∉ value) →
      Denotes attr op value (.item attr op value)

/-- The texts of an assertion inside its parentheses, from its first character that is not blank. -/
inductive Item : Text → Filter → Prop
  | bare {attr w : Text} : isAttribute attr = true → w.Blank → Item (attr ++ w) (.presence attr)
  | compare {attr w w₁ value w₂ : Text} {op : Comparison} {f : Filter} :
      isAttribute attr = true → w.Blank → w₁.Blank → value.Clean → w₂.Blank →
      Denotes attr op value f → Item (attr ++ w ++ op.symbol ++ w₁ ++ value ++ w₂) f

/-- The texts of a filter, from its parenthesis to the blanks behind it.  The pieces of a group are
the texts of its clauses, each with the filter that it derives. -/
inductive Derives : Text → Filter → Prop
  | item {w body w' : Text} {f : Filter} :
      w.Blank → Item body f → w'.Blank → Derives ('(' :: (w ++ body ++ ')' :: w')) f
  | and {w w₁ w' : Text} {pieces : List (Text × Filter)} :
      w.Blank → w₁.Blank → w'.Blank → pieces ≠ [] → (∀ p ∈ pieces, Derives p.1 p.2) →
      Derives ('(' :: (w ++ '&' :: (w₁ ++ pieces.flatMap Prod.fst) ++ ')' :: w'))
        (.and (pieces.map Prod.snd))
  | or {w w₁ w' : Text} {pieces : List (Text × Filter)} :
      w.Blank → w₁.Blank → w'.Blank → pieces ≠ [] → (∀ p ∈ pieces, Derives p.1 p.2) →
      Derives ('(' :: (w ++ '|' :: (w₁ ++ pieces.flatMap Prod.fst) ++ ')' :: w'))
        (.or (pieces.map Prod.snd))
  | not {w w₁ w' piece : Text} {f : Filter} :
      w.Blank → w₁.Blank → w'.Blank → Derives piece f →
      Derives ('(' :: (w ++ '!' :: (w₁ ++ piece) ++ ')' :: w')) (.not f)

/-! ### Items -/

theorem denotes_iff {attr value : Text} {op : Comparison} {f : Filter} :
    Denotes attr op value f ↔ f = Filter.assertion attr op value := by
  constructor
  · rintro (_ | ⟨hstar, hne⟩ | hitem)
    · simp [Filter.assertion]
    · simp [Filter.assertion, hstar, hne]
    · exact (Filter.assertion_of_classified hitem).symm
  · rintro rfl
    unfold Filter.assertion
    split
    · split
      · rename_i hvalue
        exact hvalue ▸ .presence
      · split
        · rename_i hne hstar
          exact .substring hstar hne
        · rename_i hstar
          exact .item fun _ => hstar
    · rename_i hop
      exact .item fun h => absurd h hop

namespace Text

theorem plain_append {t u : Text} : Plain (t ++ u) ↔ t.Plain ∧ u.Plain := by
  simp [Plain, or_imp, forall_and]

theorem Blank.plain {w : Text} (hw : w.Blank) : w.Plain := by
  rw [plain_iff]
  constructor
  · intro hopen
    exact absurd (hw _ hopen) (by decide)
  · intro hclose
    exact absurd (hw _ hclose) (by decide)

end Text

namespace Item

variable {body : Text} {f : Filter}

theorem exists_cons (h : Item body f) :
    ∃ c t, body = c :: t ∧ isAttributeChar c = true := by
  have key : ∀ {attr : Text} (u : Text), isAttribute attr = true →
      ∃ c t, attr ++ u = c :: t ∧ isAttributeChar c = true := by
    intro attr u hattr
    obtain ⟨hne, hall⟩ := isAttribute_iff.mp hattr
    obtain ⟨c, t, rfl⟩ := List.exists_cons_of_ne_nil hne
    exact ⟨c, t ++ u, rfl, hall c List.mem_cons_self⟩
  cases h with
  | bare hattr _ => exact key _ hattr
  | compare hattr _ _ _ _ _ =>
      simp only [List.append_assoc]
      exact key _ hattr

theorem flush (h : Item body f) : body.Flush := by
  obtain ⟨c, t, rfl, hc⟩ := h.exists_cons
  exact Text.flush_cons.mpr (isBlank_of_isAttributeChar hc)

theorem plain (h : Item body f) : body.Plain := by
  cases h with
  | bare hattr hw => exact Text.plain_append.mpr ⟨plain_of_isAttribute hattr, hw.plain⟩
  | compare hattr hw hw₁ hvalue hw₂ _ =>
      simp only [Text.plain_append]
      exact ⟨⟨⟨⟨⟨plain_of_isAttribute hattr, hw.plain⟩, Assertion.plain_symbol _⟩, hw₁.plain⟩,
        hvalue.1⟩, hw₂.plain⟩

theorem exists_spells (h : Item body f) :
    ∃ a : Assertion, a.Spells body ∧ a.filter = f := by
  cases h with
  | @bare attr w hattr hw =>
      exact ⟨.bare attr, ⟨[], w, Text.blank_nil, hw, hattr, rfl⟩, rfl⟩
  | @compare attr w w₁ value w₂ op f hattr hw hw₁ hvalue hw₂ hf =>
      refine ⟨.compare attr op value, ⟨[], w, w₁, w₂, Text.blank_nil, hw, hw₁, hw₂, hattr,
        hvalue.2, ?_⟩, (denotes_iff.mp hf).symm⟩
      simp only [List.append_assoc, List.nil_append]

theorem of_spells {a : Assertion} (h : a.Spells body) (hflush : body.Flush)
    (hplain : body.Plain) : Item body a.filter := by
  cases a with
  | bare attr =>
      obtain ⟨w, w', hw, hw', hattr, rfl⟩ := h
      rw [List.append_assoc] at hflush
      obtain rfl := hw.eq_nil_of_flush_append hflush
      exact .bare hattr hw'
  | compare attr op value =>
      obtain ⟨w, w₁, w₂, w₃, hw, hw₁, hw₂, hw₃, hattr, hvalue, rfl⟩ := h
      obtain rfl := hw.eq_nil_of_flush_append hflush
      simp only [Text.plain_append] at hplain
      have hdenotes : Denotes attr op value (Assertion.compare attr op value).filter :=
        denotes_iff.mpr rfl
      have h := Item.compare hattr hw₁ hw₂ ⟨hplain.2.2.2.2.1.2, hvalue⟩ hw₃ hdenotes
      simpa only [List.append_assoc, List.nil_append] using h

theorem facts (h : Item body f) : f.Classified ∧ f.HasCleanTexts ∧ f.members = [] := by
  cases h with
  | bare hattr _ =>
      exact ⟨trivial, ⟨by simpa [Filter.attr?] using hattr, by simp [Filter.value?]⟩, rfl⟩
  | compare hattr _ _ hvalue _ hf =>
      cases hf with
      | presence =>
          exact ⟨trivial, ⟨by simpa [Filter.attr?] using hattr, by simp [Filter.value?]⟩, rfl⟩
      | substring hstar hne =>
          exact ⟨⟨hstar, hne⟩,
            ⟨by simpa [Filter.attr?] using hattr, by simpa [Filter.value?] using hvalue⟩, rfl⟩
      | item hitem =>
          exact ⟨hitem,
            ⟨by simpa [Filter.attr?] using hattr, by simpa [Filter.value?] using hvalue⟩, rfl⟩

end Item

/-! ### Groups of all kinds -/

namespace Derives

variable {t : Text} {f : Filter}

/-- The three rules for groups in one. -/
theorem group {w w₁ w' : Text} {pieces : List (Text × Filter)} {combinator : Combinator}
    (hw : w.Blank) (hw₁ : w₁.Blank) (hw' : w'.Blank) (hpieces : ∀ p ∈ pieces, Derives p.1 p.2)
    (hmakes : combinator.Makes (pieces.map Prod.snd) f) :
    Derives ('(' :: (w ++ combinator.operator :: (w₁ ++ pieces.flatMap Prod.fst) ++ ')' :: w'))
      f := by
  generalize hfs : pieces.map Prod.snd = fs at hmakes
  cases hmakes with
  | and hne =>
      subst hfs
      exact .and hw hw₁ hw' (by simpa using hne) hpieces
  | or hne =>
      subst hfs
      exact .or hw hw₁ hw' (by simpa using hne) hpieces
  | not =>
      obtain ⟨p, rfl, rfl⟩ := List.map_eq_singleton_iff.mp hfs
      have hp := hpieces p List.mem_cons_self
      simpa [Combinator.operator] using Derives.not hw hw₁ hw' hp

/-- Induction on derivations, with one case for all groups. -/
@[elab_as_elim]
theorem groupInduction {motive : Text → Filter → Prop} (h : Derives t f)
    (item : ∀ {w body w' : Text} {f : Filter}, w.Blank → Item body f → w'.Blank →
      motive ('(' :: (w ++ body ++ ')' :: w')) f)
    (group : ∀ {w w₁ w' : Text} {pieces : List (Text × Filter)} {combinator : Combinator}
      {f : Filter}, w.Blank → w₁.Blank → w'.Blank → (∀ p ∈ pieces, motive p.1 p.2) →
      combinator.Makes (pieces.map Prod.snd) f →
      motive ('(' :: (w ++ combinator.operator :: (w₁ ++ pieces.flatMap Prod.fst) ++ ')' :: w'))
        f) :
    motive t f := by
  induction h with
  | item hw hitem hw' => exact item hw hitem hw'
  | and hw hw₁ hw' hne _ ih => exact group hw hw₁ hw' ih (.and (by simpa using hne))
  | or hw hw₁ hw' hne _ ih => exact group hw hw₁ hw' ih (.or (by simpa using hne))
  | @not w w₁ w' piece f hw hw₁ hw' _ ih =>
      have h := @group w w₁ w' [(piece, f)] .not _ hw hw₁ hw' (by simpa using ih) .not
      simpa [Combinator.operator] using h

theorem head?_eq (h : Derives t f) : t.head? = some '(' := by
  cases h <;> rfl

/-! ### What the grammar derives -/

theorem regular_legible (h : Derives t f) : f.Regular ∧ f.Legible := by
  refine h.groupInduction ?_ ?_
  · intro w body w' f _ hitem _
    obtain ⟨hclassified, hclean, hmembers⟩ := hitem.facts
    exact ⟨Filter.everywhere_iff.mpr ⟨hclassified, by simp [hmembers]⟩,
      Filter.everywhere_iff.mpr ⟨hclean, by simp [hmembers]⟩⟩
  · intro w w₁ w' pieces combinator f _ _ _ ih hmakes
    have hmem : ∀ g ∈ pieces.map Prod.snd, g.Regular ∧ g.Legible := by
      intro g hg
      obtain ⟨p, hp, rfl⟩ := List.mem_map.mp hg
      exact ih p hp
    exact ⟨hmakes.regular fun g hg => (hmem g hg).1, hmakes.legible fun g hg => (hmem g hg).2⟩

end Derives

/-! ### Canonical strings -/

namespace Filter

theorem renderAll_eq_flatMap : ∀ fs : List Filter, renderAll fs = fs.flatMap render
  | [] => rfl
  | f :: fs => by
      rw [renderAll, List.flatMap_cons, ← renderAll_eq_flatMap fs, render]
      simp

theorem derives_parenthesized {body : Text} {f : Filter} (h : Item body f) :
    Derives ('(' :: body ++ [')']) f := by
  simpa using Derives.item Text.blank_nil h Text.blank_nil

/-- A comparison is read with the blanks taken off the ends of its value. -/
theorem derives_comparison {attr value : Text} {op : Comparison} {f : Filter}
    (hattr : isAttribute attr = true) (hvalue : value.Plain) (hf : Denotes attr op value.trim f) :
    Derives ('(' :: (attr ++ op.symbol ++ value) ++ [')']) f := by
  obtain ⟨w, w', hw, hw', e⟩ := Text.exists_trim value
  have hclean : value.trim.Clean := by
    rw [e, Text.plain_append, Text.plain_append] at hvalue
    exact ⟨hvalue.1.2, Text.trimmed_trim value⟩
  apply derives_parenthesized
  have hitem := Item.compare hattr Text.blank_nil hw hclean hw' hf
  rw [List.append_nil] at hitem
  rw [e]
  simpa only [List.append_assoc] using hitem

theorem render_of_makes {combinator : Combinator} {clauses : List Filter} {f : Filter}
    (h : combinator.Makes clauses f) :
    f.render = '(' :: combinator.operator :: clauses.flatMap render ++ [')'] := by
  rw [← renderAll_eq_flatMap]
  cases h with
  | and => rfl
  | or => rfl
  | not => simp [render, fragment, renderAll, Combinator.operator]

theorem exists_pieces {fs gs : List Filter}
    (h : List.Forall₂ (fun f g => Derives f.render g) fs gs) :
    ∃ pieces : List (Text × Filter), (∀ p ∈ pieces, Derives p.1 p.2) ∧
      pieces.flatMap Prod.fst = fs.flatMap render ∧ pieces.map Prod.snd = gs := by
  induction h with
  | nil => exact ⟨[], by simp, rfl, rfl⟩
  | @cons f g fs gs hf _ ih =>
      obtain ⟨pieces, hpieces, hfst, hsnd⟩ := ih
      exact ⟨(f.render, g) :: pieces, List.forall_mem_cons.mpr ⟨hf, hpieces⟩,
        by rw [List.flatMap_cons, List.flatMap_cons, hfst], by rw [List.map_cons, hsnd]⟩

theorem derives_group {combinator : Combinator} {fs gs : List Filter} {f g : Filter}
    (hf : combinator.Makes fs f) (hg : combinator.Makes gs g)
    (hclauses : List.Forall₂ (fun f g => Derives f.render g) fs gs) : Derives f.render g := by
  obtain ⟨pieces, hpieces, hfst, rfl⟩ := exists_pieces hclauses
  have hgroup := Derives.group Text.blank_nil Text.blank_nil Text.blank_nil hpieces hg
  rw [render_of_makes hf, ← hfst]
  simpa using hgroup

/-- **The grammar derives the canonical string** of a regular and legible filter. -/
theorem derives_render {f : Filter} (hregular : f.Regular) (hlegible : f.Legible) :
    Derives f.render f := by
  induction f using induct with
  | step f ih =>
      have hclauses : List.Forall₂ (fun f g => Derives f.render g) f.members f.members :=
        List.forall₂_same.mpr fun g hg => ih g hg (hregular.member hg) (hlegible.member hg)
      have hclassified := hregular.here
      obtain ⟨hattr, hvalue⟩ := hlegible.here
      -- An assertion is derived as the comparison that it was, a group from its members.
      cases f with
      | presence attr =>
          have hplain : Text.Plain ['*'] := by simp [Text.Plain, Token.isParen]
          have htrim : Text.trim ['*'] = ['*'] := by decide
          have hdenotes : Denotes attr .equal (Text.trim ['*']) (presence attr) := by
            rw [htrim]
            exact .presence
          have h := derives_comparison (hattr attr rfl) hplain hdenotes
          simpa [render, fragment, Comparison.symbol] using h
      | item attr op value =>
          obtain ⟨hplain, htrimmed⟩ := hvalue value rfl
          have hdenotes : Denotes attr op value.trim (item attr op value) := by
            rw [Text.trim_eq_self htrimmed]
            exact .item hclassified
          exact derives_comparison (hattr attr rfl) hplain hdenotes
      | substring attr pattern =>
          obtain ⟨hplain, htrimmed⟩ := hvalue pattern rfl
          have hdenotes : Denotes attr .equal pattern.trim (substring attr pattern) := by
            rw [Text.trim_eq_self htrimmed]
            exact .substring hclassified.1 hclassified.2
          have h := derives_comparison (hattr attr rfl) hplain hdenotes
          simpa [render, fragment, Comparison.symbol] using h
      | and clauses => exact derives_group (.and hclassified) (.and hclassified) hclauses
      | or clauses => exact derives_group (.or hclassified) (.or hclassified) hclauses
      | not inner => exact derives_group .not .not hclauses

end Filter
end SearchFilter
