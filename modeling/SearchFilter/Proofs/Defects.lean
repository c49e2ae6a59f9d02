import SearchFilter.Proofs.Recognition

/-! # Which defect is reported

A text whose parentheses and operators are in order may still hold assertions that are spelled
wrong and negations of several filters.  `Sketch.defects` lists them in reading order, a group
behind its members.  Reading reports the first of them, and succeeds if there are none
(`Filter.reports_parse`).

What reading a group reports is put together from what reading its members reports
(`Reports.bind`), along the recursion of `Sketch.read`.  The blanks between the tokens of the text
end up in its assertions, where they make no difference (`Shows.exists_sketch`). -/

namespace SearchFilter

/-! ### Defects -/

/-- The text spells some assertion. -/
def Assertion.Valid (text : Text) : Prop := ∃ a, Spells text a

theorem Assertion.valid_iff {text : Text} : Valid text ↔ (split? text).isSome = true := by
  rw [Option.isSome_iff_exists]
  exact exists_congr fun a => split?_eq_some_iff.symm

instance (text : Text) : Decidable (Assertion.Valid text) :=
  decidable_of_iff _ Assertion.valid_iff.symm

/-- What is wrong with a group of so many members: a negation takes one only. -/
def Combinator.countDefects : Combinator → Nat → List FilterError
  | .not, count => if 2 ≤ count then [.argumentCount .not count] else []
  | _, _ => []

namespace Sketch

mutual

/-- What is wrong with a sketch, in reading order: a group is complete after its members. -/
def defects : Sketch → List FilterError
  | leaf text => if Assertion.Valid text then [] else [.expression text.trim]
  | group combinator members =>
    defectsAll members ++ combinator.countDefects members.length

def defectsAll : List Sketch → List FilterError
  | [] => []
  | s :: ss => s.defects ++ defectsAll ss

end

mutual

/-- How many levels of parentheses a sketch has. -/
def depth : Sketch → Nat
  | leaf _ => 1
  | group _ members => depthAll members + 1

def depthAll : List Sketch → Nat
  | [] => 0
  | s :: ss => max s.depth (depthAll ss)

end

/-- The sketch is one that the text in its parentheses shows: every group has a member, and every
leaf holds something that is neither a parenthesis nor an operator. -/
inductive Skeleton : Sketch → Prop
  | leaf {text : Text} : text.Plain → ¬ text.Blank →
      (∀ c ∈ text.trim.head?, Token.operator? c = none) → Skeleton (.leaf text)
  | group {combinator : Combinator} {members : List Sketch} : members ≠ [] →
      (∀ s ∈ members, Skeleton s) → Skeleton (.group combinator members)

end Sketch

/-! ### The first defect -/

/-- The result is the first of some defects, or a success if there are none. -/
def Reports {α : Type} (result : Except FilterError α) : List FilterError → Prop
  | [] => ∃ a, result = .ok a
  | defect :: _ => result = .error defect

/-- Defects of a first step come before those of a second one. -/
theorem Reports.bind {α β : Type} {first : Except FilterError α}
    {second : α → Except FilterError β} {ds es : List FilterError} (h : Reports first ds)
    (h' : ∀ a, first = .ok a → Reports (second a) es) : Reports (first >>= second) (ds ++ es) := by
  cases ds with
  | nil =>
      obtain ⟨a, rfl⟩ := h
      exact h' a rfl
  | cons d ds =>
      cases (h : first = .error d)
      rfl

theorem Reports.bind_pure {α β : Type} {first : Except FilterError α} {ds : List FilterError}
    (h : Reports first ds) (f : α → β) : Reports (do let a ← first; return f a) ds := by
  have hlast : ∀ a, first = .ok a → Reports (pure (f a) : Except FilterError β) [] :=
    fun a _ => ⟨f a, rfl⟩
  have hboth := h.bind hlast
  rwa [List.append_nil] at hboth

/-- What is wrong with a combinator over so many clauses. -/
def Combinator.miscount (combinator : Combinator) (count : Nat) : List FilterError :=
  if combinator.Takes count then [] else [.argumentCount combinator count]

theorem Combinator.reports_apply (combinator : Combinator) (fs : List Filter) :
    Reports (combinator.apply fs) (combinator.miscount fs.length) := by
  match combinator, fs with
  | .and, [] | .or, [] | .not, [] => rfl
  | .and, _ :: _ | .or, _ :: _ => simp [miscount, Takes, Reports, apply]
  | .not, [_] => simp [miscount, Takes, Reports, apply]
  | .not, _ :: _ :: _ => simp [miscount, Takes, Reports, apply]

theorem Combinator.not_takes_of_apply {combinator : Combinator} {fs : List Filter}
    {error : FilterError} (h : combinator.apply fs = .error error) :
    ¬ combinator.Takes fs.length ∧ error = .argumentCount combinator fs.length := by
  have hreports := combinator.reports_apply fs
  rw [h, miscount] at hreports
  split at hreports
  · obtain ⟨f, hf⟩ := hreports
    cases hf
  · rename_i htakes
    cases hreports
    exact ⟨htakes, rfl⟩

theorem Combinator.countDefects_eq_miscount (combinator : Combinator) {count : Nat}
    (hcount : count ≠ 0) : combinator.countDefects count = combinator.miscount count := by
  have hpos : 1 ≤ count := Nat.one_le_iff_ne_zero.mpr hcount
  cases combinator with
  | and => exact (if_pos hpos).symm
  | or => exact (if_pos hpos).symm
  | not =>
      by_cases htwo : 2 ≤ count
      · have hne : count ≠ 1 := by omega
        simp [countDefects, miscount, Takes, htwo, hne]
      · have hone : count = 1 := by omega
        simp [countDefects, miscount, Takes, hone]

theorem OpenGroup.finish_eq_apply {source : Text} {combinator : Combinator} {fs : List Filter}
    (hne : fs ≠ []) : OpenGroup.finish source ⟨combinator, fs.reverse⟩ = combinator.apply fs := by
  unfold finish
  split
  · rename_i h
    exact absurd (List.reverse_eq_nil_iff.mp h) hne
  · rw [List.reverse_reverse]

namespace Sketch

variable {source : Text}

theorem length_of_readAll {n : Nat} : ∀ {ss : List Sketch} {fs : List Filter},
    readAll source n ss = .ok fs → fs.length = ss.length
  | [], fs, h => by
      cases h
      rfl
  | s :: ss, fs, h => by
      obtain ⟨g, gs, -, hss, rfl⟩ := readAll_cons_eq_ok h
      rw [List.length_cons, List.length_cons, length_of_readAll hss]

mutual

/-- **Reading a sketch** that is not too deep reports its first defect. -/
theorem reports_read : ∀ {n : Nat} {s : Sketch}, s.Skeleton → s.depth ≤ n →
    Reports (s.read source n) s.defects
  | 0, .leaf _, _, hn | 0, .group _ _, _, hn => by simp [depth] at hn
  | n + 1, .leaf text, _, _ => by
      rw [read, defects]
      cases hsplit : Assertion.split? text with
      | some a => simp [Assertion.valid_iff, hsplit, Reports]
      | none => simp [Assertion.valid_iff, hsplit, Reports]
  | n + 1, .group combinator members, .group hne hmembers, hn => by
      rw [depth, Nat.add_le_add_iff_right] at hn
      rw [read, defects]
      -- A group is finished behind its members, so theirs are the first defects.
      apply (reports_readAll hmembers hn).bind
      intro fs hfs
      have hlength := length_of_readAll hfs
      have hne' : fs ≠ [] := by
        rintro rfl
        exact hne (List.length_eq_zero_iff.mp hlength.symm)
      rw [OpenGroup.finish_eq_apply hne', ← hlength,
        combinator.countDefects_eq_miscount (mt List.length_eq_zero_iff.mp hne')]
      exact combinator.reports_apply fs

theorem reports_readAll : ∀ {n : Nat} {ss : List Sketch}, (∀ s ∈ ss, s.Skeleton) →
    depthAll ss ≤ n → Reports (readAll source n ss) (defectsAll ss)
  | _, [], _, _ => ⟨[], rfl⟩
  | n, s :: ss, hall, hn => by
      obtain ⟨hs, hss⟩ := List.forall_mem_cons.mp hall
      obtain ⟨hn, hn'⟩ := Nat.max_le.mp hn
      rw [readAll, defectsAll]
      apply (reports_read hs hn).bind
      intro f _
      exact (reports_readAll hss hn').bind_pure _

end

end Sketch

/-! ### Texts that show a sketch -/

/-- `Shows t s`: the text is the sketch written out, with any blanks between the tokens. -/
inductive Shows : Text → Sketch → Prop
  | leaf {w text w₁ w' : Text} : w.Blank → w₁.Blank → w'.Blank →
      Shows ('(' :: (w ++ (text ++ w₁) ++ ')' :: w')) (.leaf text)
  | group {w w₁ w' : Text} {combinator : Combinator} {pieces : List (Text × Sketch)} :
      w.Blank → w₁.Blank → w'.Blank → (∀ p ∈ pieces, Shows p.1 p.2) →
      Shows ('(' :: (w ++ combinator.operator :: (w₁ ++ pieces.flatMap Prod.fst) ++ ')' :: w'))
        (.group combinator (pieces.map Prod.snd))

open Token

/-- `Alike s s'`: reading makes no difference between the sketches. -/
def Sketch.Alike (s s' : Sketch) : Prop := ∀ source n, s.read source n = s'.read source n

theorem Sketch.alike_leaf {t u : Text} (h : t.trim = u.trim) : (leaf t).Alike (leaf u) := by
  intro source n
  cases n with
  | zero => rfl
  | succ n => simp only [read, Assertion.split?_congr h, h]

theorem Sketch.alike_group {combinator : Combinator} {ss ss' : List Sketch}
    (h : List.Forall₂ Alike ss ss') : (group combinator ss).Alike (group combinator ss') := by
  have hall : ∀ source n, readAll source n ss = readAll source n ss' := by
    intro source n
    induction h with
    | nil => rfl
    | cons hs _ ih => rw [readAll, readAll, hs, ih]
  intro source n
  cases n with
  | zero => rfl
  | succ n => simp only [read, hall]

theorem stands_leaf {text w : Text} (hs : (Sketch.leaf text).Skeleton) (hw : w.Blank)
    (rest : Text) : (Token.assertion (text.trim ++ w)).Stands true (')' :: rest) := by
  cases hs with
  | leaf hplain hblank hop =>
      have hne : text.trim ≠ [] := mt Text.blank_of_trim_eq_nil hblank
      refine ⟨by simp [hne], (Text.trimmed_trim text).1.append_of_ne_nil hne, ?_, ?_, ?_⟩
      · exact Text.plain_append.mpr ⟨hplain.of_infix (Text.trim_infix text), hw.plain⟩
      · intro c hc
        cases hc
        rfl
      · intro _
        rw [List.head?_append_of_ne_nil _ hne]
        exact hop

/-- **The tokens of a text that shows a sketch** are those of a sketch that reads alike: its leaves
have the blanks around them as the tokens have them. -/
theorem Shows.exists_sketch {t : Text} {s : Sketch} (h : Shows t s) (hs : s.Skeleton) :
    ∃ s' : Sketch, s'.Alike s ∧
      ∀ afterOpen rest, scan afterOpen (t ++ rest) = s'.tokens ++ scan false rest := by
  induction h with
  | @leaf w text w₁ w' hw hw₁ hw' =>
      obtain ⟨v, v', hv, hv', e⟩ := Text.exists_trim text
      have hblank : Text.Blank (v' ++ w₁) := hv'.append hw₁
      have htrim : Text.trim (text.trim ++ (v' ++ w₁)) = text.trim := by
        simpa using Text.trim_append Text.blank_nil (Text.trimmed_trim text) hblank
      -- The token of a leaf takes the blanks behind the text, and leaves those in front of it.
      refine ⟨.leaf (text.trim ++ (v' ++ w₁)), Sketch.alike_leaf htrim, ?_⟩
      intro afterOpen rest
      have htext : '(' :: (w ++ (text ++ w₁) ++ ')' :: w') ++ rest =
          '(' :: ((w ++ v) ++ (text.trim ++ (v' ++ w₁) ++ ')' :: (w' ++ rest))) := by
        conv_lhs => rw [e]
        simp only [List.cons_append, List.append_assoc]
      rw [htext, scan_openParen _ (hw.append hv)]
      have hassertion := scan_text_append (stands_leaf hs hblank (w' ++ rest))
      rw [Token.text] at hassertion
      rw [hassertion, show (Token.assertion _ == .openParen) = false from rfl,
        scan_closeParen _ hw']
      rfl
  | @group w w₁ w' combinator pieces hw hw₁ hw' _ ih =>
      cases hs with
      | group _ hmembers =>
          have hpieces : ∀ p ∈ pieces, ∃ s' : Sketch, s'.Alike p.2 ∧
              ∀ afterOpen rest, scan afterOpen (p.1 ++ rest) = s'.tokens ++ scan false rest :=
            fun p hp => ih p hp (hmembers p.2 (List.mem_map_of_mem hp))
          obtain ⟨ss, hss, htokens⟩ := exists_sketches hpieces
          refine ⟨.group combinator ss, Sketch.alike_group hss, ?_⟩
          intro afterOpen rest
          simp only [List.cons_append, List.append_assoc]
          rw [scan_openParen _ hw, scan_operator _ hw₁, htokens, scan_closeParen _ hw',
            Sketch.tokens]
          simp only [List.cons_append, List.append_assoc, List.nil_append]

namespace Filter

/-- **Reading reports the first defect**: a text that shows a sketch, no deeper than the limit, is
read if the sketch has no defects, and otherwise the error is the first one in reading order. -/
theorem reports_parse {t : Text} {s : Sketch} (ht : Shows t s) (hs : s.Skeleton)
    (hdepth : s.depth ≤ maxDepth) : Reports (parse t) s.defects := by
  obtain ⟨s', halike, htokens⟩ := ht.exists_sketch hs
  rw [parse_of_tokens (tokens_of_scan_append htokens), halike]
  exact Sketch.reports_read hs hdepth

/-- A negation of two filters is over before the assertion behind it that spells nothing. -/
theorem reports_parse_of_two_defects :
    let s := Sketch.group .and [.group .not [.leaf "b", .leaf " c=1"], .leaf "?x "]
    s.defects = [.argumentCount .not 2, .expression "?x"] ∧
      parse "( & (! (b)( c=1) ) (?x ))" = .error (.argumentCount .not 2) := by
  intro s
  have hb : Shows "(b)" (.leaf "b") :=
    @Shows.leaf [] "b" [] [] (by decide) (by decide) (by decide)
  have hc : Shows "( c=1) " (.leaf " c=1") :=
    @Shows.leaf [] " c=1" [] " " (by decide) (by decide) (by decide)
  have hx : Shows "(?x )" (.leaf "?x ") :=
    @Shows.leaf [] "?x " [] [] (by decide) (by decide) (by decide)
  have hnot : Shows "(! (b)( c=1) ) " (.group .not [.leaf "b", .leaf " c=1"]) :=
    @Shows.group [] " " " " .not [("(b)", .leaf "b"), ("( c=1) ", .leaf " c=1")]
      (by decide) (by decide) (by decide)
      (List.forall_mem_cons.mpr ⟨hb, List.forall_mem_singleton.mpr hc⟩)
  have hs : Shows "( & (! (b)( c=1) ) (?x ))" s :=
    @Shows.group " " " " [] .and
      [("(! (b)( c=1) ) ", .group .not [.leaf "b", .leaf " c=1"]), ("(?x )", .leaf "?x ")]
      (by decide) (by decide) (by decide)
      (List.forall_mem_cons.mpr ⟨hnot, List.forall_mem_singleton.mpr hx⟩)
  have hskeleton : s.Skeleton := by
    have hleaves : ∀ u ∈ [Sketch.leaf "b", .leaf " c=1"], u.Skeleton := by
      refine List.forall_mem_cons.mpr ⟨?_, List.forall_mem_singleton.mpr ?_⟩
      all_goals exact .leaf (by decide) (by decide) (by rintro _ ⟨⟩; rfl)
    refine .group (List.cons_ne_nil _ _) (List.forall_mem_cons.mpr ⟨?_, ?_⟩)
    · exact .group (List.cons_ne_nil _ _) hleaves
    · exact List.forall_mem_singleton.mpr (.leaf (by decide) (by decide) (by rintro _ ⟨⟩; rfl))
  have hdefects : s.defects = [.argumentCount .not 2, .expression "?x"] := by decide +kernel
  have h := reports_parse hs hskeleton (by decide)
  rw [hdefects] at h
  exact ⟨hdefects, h⟩

end Filter
end SearchFilter
