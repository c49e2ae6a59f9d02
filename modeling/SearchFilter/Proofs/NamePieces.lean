import SearchFilter.Rdn

/-! # The pieces of a name

A name is read from its start in units: a backslash together with the character that it escapes, or
a character by itself that is neither a backslash nor the separator.  Splitting goes from unit to
unit (`splitUnescaped_unit_append`), so a text of units is never cut, whatever stands behind it
(`splitUnescaped_spell_append`), and a separator behind it ends its piece
(`splitUnescaped_spell_separator`).

What the pieces of a text are can be said without splitting it (`Pieces`): joined by the separator
they are the text; each of them, read from its own start, has none but escaped separators in it
(`Uncut`); and none but the last ends in the middle of an escape (`endsInEscape`).  Splitting gives
such pieces (`pieces_splitUnescaped`), one unit after the other, since a unit leaves no escape open
and so does not matter to what is read behind it.  There are no others
(`splitUnescaped_of_pieces`). -/

namespace SearchFilter.Rdn

/-! ### Units -/

/-- A unit of a text that is scanned for a separator. -/
inductive TextUnit (separator : Char) where
  /-- A backslash and the character that it escapes, which may be any. -/
  | escaped (c : Char)
  /-- A character by itself. -/
  | bare (c : Char) (h : c ≠ '\\' ∧ c ≠ separator)

variable {separator : Char}

def TextUnit.text : TextUnit separator → Text
  | escaped c => ['\\', c]
  | bare c _ => [c]

/-- Units written one after the other. -/
def spell (units : List (TextUnit separator)) : Text := units.flatMap TextUnit.text

@[simp] theorem spell_nil : spell ([] : List (TextUnit separator)) = [] := rfl

theorem spell_cons (u : TextUnit separator) (us : List (TextUnit separator)) :
    spell (u :: us) = u.text ++ spell us := rfl

theorem spell_append (us vs : List (TextUnit separator)) :
    spell (us ++ vs) = spell us ++ spell vs :=
  List.flatMap_append

theorem exists_spell_eq : ∀ {t : Text}, (∀ c ∈ t, c ≠ '\\' ∧ c ≠ separator) →
    ∃ us : List (TextUnit separator), spell us = t
  | [], _ => ⟨[], rfl⟩
  | c :: t, h => by
      obtain ⟨hc, ht⟩ := List.forall_mem_cons.mp h
      obtain ⟨us, rfl⟩ := exists_spell_eq ht
      exact ⟨.bare c hc :: us, rfl⟩

/-! ### Splitting -/

/-- **One unit is scanned.** -/
theorem splitUnescaped_unit_append (u : TextUnit separator) (rest : Text) :
    splitUnescaped separator (u.text ++ rest) = prepend u.text (splitUnescaped separator rest) := by
  cases u with
  | escaped c => rfl
  | bare c h => exact (splitUnescaped_bare h.1 rest).trans (if_neg h.2)

/-- **Units are scanned**: they stay together, in front of the first piece of what follows. -/
theorem splitUnescaped_spell_append (rest : Text) : ∀ us : List (TextUnit separator),
    splitUnescaped separator (spell us ++ rest) =
      prepend (spell us) (splitUnescaped separator rest)
  | [] => (prepend_nil (splitUnescaped_ne_nil separator rest)).symm
  | u :: us => by
      rw [spell_cons, List.append_assoc, splitUnescaped_unit_append,
        splitUnescaped_spell_append rest us, prepend_append]

theorem splitUnescaped_spell (us : List (TextUnit separator)) :
    splitUnescaped separator (spell us) = [spell us] := by
  simpa [splitUnescaped, prepend] using splitUnescaped_spell_append [] us

/-- A backslash that the text ends in escapes nothing and belongs to the piece. -/
theorem splitUnescaped_spell_backslash (us : List (TextUnit separator)) :
    splitUnescaped separator (spell us ++ ['\\']) = [spell us ++ ['\\']] :=
  splitUnescaped_spell_append ['\\'] us

theorem splitUnescaped_spell_separator (h : separator ≠ '\\') (us : List (TextUnit separator))
    (rest : Text) : splitUnescaped separator (spell us ++ separator :: rest) =
      spell us :: splitUnescaped separator rest := by
  rw [splitUnescaped_spell_append, splitUnescaped_bare h, if_pos rfl, prepend, List.append_nil]

/-! ### Induction on units -/

variable {t s piece : Text} {pieces : List Text}

/-- Induction on a text as it is scanned: its end, a unit, or a separator. -/
@[elab_as_elim]
theorem unitInduct (separator : Char) {P : Text → Prop} (nil : P []) (backslash : P ['\\'])
    (unit : ∀ (u : TextUnit separator) (t : Text), P t → P (u.text ++ t))
    (cut : ∀ t, P t → P (separator :: t)) (t : Text) : P t := by
  fun_induction splitUnescaped separator t with
  | case1 => exact nil
  | case2 => exact backslash
  | case3 c rest ih => exact unit (.escaped c) rest ih
  | case4 rest _ _ ih => exact cut rest ih
  | case5 c rest hlast hmore hc ih =>
      have hbare : c ≠ '\\' := by
        intro h
        cases rest with
        | nil => exact hlast h rfl
        | cons d rest => exact hmore d rest h rfl
      exact unit (.bare c ⟨hbare, hc⟩) rest ih

/-! ### Escapes -/

/-- Does the text, read from its start, end in a backslash that escapes the next character? -/
def endsInEscape (t : Text) : Bool := t.foldl (fun escaped c => !escaped && c == '\\') false

/-- Every separator in the text is escaped. -/
def Uncut (separator : Char) (t : Text) : Prop :=
  ∀ before after, t = before ++ separator :: after → endsInEscape before = true

theorem endsInEscape_unit_append (u : TextUnit separator) (t : Text) :
    endsInEscape (u.text ++ t) = endsInEscape t := by
  cases u with
  | escaped c => simp [endsInEscape, TextUnit.text]
  | bare c h =>
      have hc : (c == '\\') = false := beq_false_of_ne h.1
      simp [endsInEscape, TextUnit.text, hc]

theorem endsInEscape_spell_append (t : Text) : ∀ us : List (TextUnit separator),
    endsInEscape (spell us ++ t) = endsInEscape t
  | [] => rfl
  | u :: us => by
      rw [spell_cons, List.append_assoc, endsInEscape_unit_append, endsInEscape_spell_append t us]

theorem uncut_nil : Uncut separator [] := by
  intro before after h
  cases before <;> cases h

theorem uncut_backslash (hsep : separator ≠ '\\') : Uncut separator ['\\'] := by
  intro before after h
  cases before with
  | nil => exact absurd (List.cons.inj h).1.symm hsep
  | cons c before => cases before <;> cases h

theorem not_uncut_cons : ¬ Uncut separator (separator :: t) := by
  intro h
  cases h [] t rfl

theorem uncut_text (hsep : separator ≠ '\\') :
    ∀ (u : TextUnit separator), Uncut separator u.text
  | .escaped _, [], _, h => absurd (List.cons.inj h).1.symm hsep
  | .escaped _, [_], _, h => by rw [← (List.cons.inj h).1]; rfl
  | .escaped _, _ :: _ :: _, _, h => by simp [TextUnit.text] at h
  | .bare _ hc, [], _, h => absurd (List.cons.inj h).1 hc.2
  | .bare _ _, _ :: _, _, h => by simp [TextUnit.text] at h

/-- **A unit makes no cut**, neither in itself nor behind it. -/
theorem uncut_unit_append (hsep : separator ≠ '\\') (u : TextUnit separator) :
    Uncut separator (u.text ++ t) ↔ Uncut separator t := by
  constructor
  · rintro h before after rfl
    rw [← endsInEscape_unit_append u]
    exact h _ after (List.append_assoc ..).symm
  · intro h before after e
    rcases List.append_eq_append_iff.mp e with ⟨middle, rfl, ht⟩ | ⟨middle, hu, ht⟩
    · rw [endsInEscape_unit_append]
      exact h middle after ht
    · cases middle with
      | nil =>
          rw [List.nil_append] at ht
          rw [← ht] at h
          exact absurd h not_uncut_cons
      | cons c middle =>
          rw [← (List.cons.inj ht).1] at hu
          exact uncut_text hsep u before middle hu

/-- A text without a cut consists of units, and perhaps a backslash at the end. -/
theorem exists_spell_of_uncut (hsep : separator ≠ '\\') (h : Uncut separator t) :
    ∃ us : List (TextUnit separator), t = spell us ∨ t = spell us ++ ['\\'] := by
  induction t using unitInduct separator with
  | nil => exact ⟨[], .inl rfl⟩
  | backslash => exact ⟨[], .inr rfl⟩
  | unit u t ih =>
      obtain ⟨us, rfl | rfl⟩ := ih ((uncut_unit_append hsep u).mp h)
      · exact ⟨u :: us, .inl rfl⟩
      · exact ⟨u :: us, .inr (List.append_assoc ..).symm⟩
  | cut t => exact absurd h not_uncut_cons

/-! ### Pieces -/

/-- `Pieces separator pieces s`: the pieces are those of the text between its unescaped
separators. -/
structure Pieces (separator : Char) (pieces : List Text) (s : Text) : Prop where
  ne_nil : pieces ≠ []
  joined : Text.join [separator] pieces = s
  uncut : ∀ piece ∈ pieces, Uncut separator piece
  closed : ∀ piece ∈ pieces.dropLast, endsInEscape piece = false

theorem pieces_singleton (h : Uncut separator t) : Pieces separator [t] t where
  ne_nil := List.cons_ne_nil _ _
  joined := Text.join_singleton [separator] t
  uncut := List.forall_mem_singleton.mpr h
  closed := by simp

theorem Pieces.cut (h : Pieces separator pieces s) :
    Pieces separator ([] :: pieces) (separator :: s) where
  ne_nil := List.cons_ne_nil _ _
  joined := by
    obtain ⟨piece, pieces, rfl⟩ := List.exists_cons_of_ne_nil h.ne_nil
    rw [Text.join_cons_cons, h.joined, List.nil_append]
  uncut := List.forall_mem_cons.mpr ⟨uncut_nil, h.uncut⟩
  closed := by
    rw [List.dropLast_cons_of_ne_nil h.ne_nil]
    exact List.forall_mem_cons.mpr ⟨rfl, h.closed⟩

theorem Pieces.unit (hsep : separator ≠ '\\') (u : TextUnit separator)
    (h : Pieces separator pieces s) : Pieces separator (prepend u.text pieces) (u.text ++ s) := by
  obtain ⟨hne, rfl, huncut, hclosed⟩ := h
  match pieces, hne with
  | [piece], _ =>
      have hpiece := (uncut_unit_append hsep u).mpr (huncut piece List.mem_cons_self)
      simpa [prepend] using pieces_singleton hpiece
  | piece :: next :: pieces, _ =>
      obtain ⟨hpiece, hpieces⟩ := List.forall_mem_cons.mp huncut
      obtain ⟨hend, hends⟩ := List.forall_mem_cons.mp hclosed
      refine ⟨List.cons_ne_nil _ _, ?_, ?_, ?_⟩
      · rw [prepend, Text.join_cons_cons, Text.join_cons_cons, List.append_assoc]
      · exact List.forall_mem_cons.mpr ⟨(uncut_unit_append hsep u).mpr hpiece, hpieces⟩
      · exact List.forall_mem_cons.mpr ⟨(endsInEscape_unit_append u piece).trans hend, hends⟩

/-- **Splitting gives the pieces of a text.** -/
theorem pieces_splitUnescaped (hsep : separator ≠ '\\') (s : Text) :
    Pieces separator (splitUnescaped separator s) s := by
  induction s using unitInduct separator with
  | nil => exact pieces_singleton uncut_nil
  | backslash => exact pieces_singleton (uncut_backslash hsep)
  | unit u s ih =>
      rw [splitUnescaped_unit_append]
      exact ih.unit hsep u
  | cut s ih =>
      rw [splitUnescaped_bare hsep, if_pos rfl]
      exact ih.cut

theorem splitUnescaped_of_uncut (hsep : separator ≠ '\\') (h : Uncut separator piece) :
    splitUnescaped separator piece = [piece] := by
  obtain ⟨us, rfl | rfl⟩ := exists_spell_of_uncut hsep h
  · exact splitUnescaped_spell us
  · exact splitUnescaped_spell_backslash us

theorem splitUnescaped_uncut_append (hsep : separator ≠ '\\') (h : Uncut separator piece)
    (hend : endsInEscape piece = false) (rest : Text) :
    splitUnescaped separator (piece ++ separator :: rest) =
      piece :: splitUnescaped separator rest := by
  obtain ⟨us, rfl | rfl⟩ := exists_spell_of_uncut hsep h
  · exact splitUnescaped_spell_separator hsep us rest
  · rw [endsInEscape_spell_append] at hend
    cases hend

/-- **A text has no other pieces** than those that splitting gives. -/
theorem splitUnescaped_of_pieces (hsep : separator ≠ '\\') : ∀ {pieces : List Text} {s : Text},
    Pieces separator pieces s → splitUnescaped separator s = pieces
  | [], _, h => absurd rfl h.ne_nil
  | [piece], _, h => by
      rw [← h.joined, Text.join_singleton]
      exact splitUnescaped_of_uncut hsep (h.uncut piece List.mem_cons_self)
  | piece :: next :: pieces, _, ⟨_, hjoined, huncut, hclosed⟩ => by
      obtain ⟨hpiece, hpieces⟩ := List.forall_mem_cons.mp huncut
      obtain ⟨hend, hends⟩ := List.forall_mem_cons.mp hclosed
      have hlater : Pieces separator (next :: pieces)
          (Text.join [separator] (next :: pieces)) := ⟨List.cons_ne_nil _ _, rfl, hpieces, hends⟩
      rw [← hjoined, Text.join_cons_cons, splitUnescaped_uncut_append hsep hpiece hend,
        splitUnescaped_of_pieces hsep hlater]

/-- **Splitting at `+` is lossless, and it cuts exactly at the unescaped separators**: the pieces are
those texts that make the text when they are joined, have none but escaped separators in them, and
do not, the last one apart, end in the middle of an escape. -/
theorem splitUnescaped_eq_iff (s : Text) (pieces : List Text) :
    splitUnescaped '+' s = pieces ↔
      pieces ≠ [] ∧ Text.join ['+'] pieces = s ∧
        (∀ piece ∈ pieces, ∀ before after, piece = before ++ '+' :: after →
          endsInEscape before = true) ∧
        ∀ piece ∈ pieces.dropLast, endsInEscape piece = false := by
  have hsep : '+' ≠ '\\' := by decide
  constructor
  · rintro rfl
    obtain ⟨hne, hjoined, huncut, hclosed⟩ := pieces_splitUnescaped hsep s
    exact ⟨hne, hjoined, huncut, hclosed⟩
  · rintro ⟨hne, hjoined, huncut, hclosed⟩
    exact splitUnescaped_of_pieces hsep ⟨hne, hjoined, huncut, hclosed⟩

/-- Two backslashes in front of a separator do not escape it. -/
example : splitUnescaped '+' "cn=a\\+b\\\\+c\\" = (["cn=a\\+b\\\\", "c\\"] : List Text) := by decide

end SearchFilter.Rdn
