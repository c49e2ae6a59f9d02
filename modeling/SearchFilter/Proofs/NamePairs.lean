import SearchFilter.Proofs.NamePieces
import SearchFilter.Proofs.Sketch

/-! # Pairs of a name

The pairs of a name are there if every piece is an equality; attributes are attribute descriptions
then, and values have no blanks at their ends (`pairs_eq_ok_iff`, `wellFormed_of_pairs`).

In the other direction a name can be put together (`compose`) from attributes and values that are
written in units, with no blank by itself at either end.  Trimming does not know of escapes, though:
a value that ends in an escaped blank loses that blank and keeps the backslash.  So its pairs are
the ones that it was put together from exactly if no value ends in an escaped blank
(`pairs_compose`). -/

namespace SearchFilter

namespace Rdn

/-! ### The pairs of any name -/

theorem pair_eq_ok_iff {piece attr value : Text} :
    pair piece = .ok (attr, value) ↔ Assertion.Spells piece (.compare attr .equal value) := by
  rw [← Assertion.split?_eq_some_iff, pair]
  constructor
  · intro h
    split at h
    · rename_i hsplit
      cases h
      exact hsplit
    · cases h
  · intro h
    rw [h]

theorem pairs_eq_ok_iff {name : Text} {ps : List (Text × Text)} :
    pairs name = .ok ps ↔ name.trim ≠ [] ∧
      List.Forall₂ (fun piece p => pair piece = .ok p) (splitUnescaped '+' name.trim) ps := by
  unfold pairs
  dsimp only
  rw [← mapM_eq_ok_iff]
  split
  · rename_i hempty
    exact ⟨fun h => (by cases h), fun h => absurd (List.isEmpty_iff.mp hempty) h.1⟩
  · rename_i hne
    exact ⟨fun h => ⟨fun hnil => hne (by rw [hnil]; rfl), h⟩, And.right⟩

theorem wellFormed_of_pairs {name : Text} {ps : List (Text × Text)} (h : pairs name = .ok ps) :
    ps ≠ [] ∧ ∀ p ∈ ps, isAttribute p.1 = true ∧ p.2.Trimmed := by
  obtain ⟨-, hpieces⟩ := pairs_eq_ok_iff.mp h
  constructor
  · rintro rfl
    exact splitUnescaped_ne_nil '+' name.trim (List.forall₂_nil_right_iff.mp hpieces)
  · have hwell : List.Forall₂ (fun p piece => (isAttribute p.1 = true ∧ p.2.Trimmed) ∧
        pair piece = .ok p) ps (splitUnescaped '+' name.trim) := by
      refine (hpieces.imp fun piece p hpair => ?_).flip
      obtain ⟨_, _, _, _, -, -, -, -, hattr, hvalue, -⟩ := pair_eq_ok_iff.mp hpair
      exact ⟨⟨hattr, hvalue⟩, hpair⟩
    exact ((List.forall₂_and_left _ _).mp hwell).1

theorem error_of_pairs {name : Text} {e : FilterError} (h : pairs name = .error e) :
    e = .emptyExpression ∨ ∃ piece ∈ splitUnescaped '+' name.trim, e = .expression piece.trim := by
  unfold pairs at h
  dsimp only at h
  split at h
  · cases h
    exact .inl rfl
  · obtain ⟨before, piece, later, hpieces, -, hfails⟩ := mapM_eq_error_iff.mp h
    refine .inr ⟨piece, by simp [hpieces], ?_⟩
    unfold pair at hfails
    split at hfails
    · cases hfails
    · cases hfails
      rfl

theorem pair_of_isAttribute {attr : Text} (hattr : isAttribute attr = true) (value : Text) :
    pair (attr ++ '=' :: value) = .ok (attr, value.trim) := by
  obtain ⟨w, w', hw, hw', e⟩ := Text.exists_trim value
  refine pair_eq_ok_iff.mpr ⟨[], [], w, w', Text.blank_nil, Text.blank_nil, hw, hw', hattr,
    Text.trimmed_trim value, ?_⟩
  rw [← e]
  rfl

/-! ### Values as they are written -/

namespace TextUnit

variable {separator : Char}

def isBareBlank : TextUnit separator → Bool
  | escaped _ => false
  | bare c _ => isBlank c

def isEscapedBlank : TextUnit separator → Bool
  | escaped c => isBlank c
  | bare _ _ => false

theorem text_ne_nil (u : TextUnit separator) : u.text ≠ [] := by
  cases u <;> exact List.cons_ne_nil _ _

theorem getLast?_text_notBlank {u : TextUnit separator} (hbare : u.isBareBlank = false)
    (hescaped : u.isEscapedBlank = false) : ∀ c ∈ u.text.getLast?, isBlank c = false := by
  intro c hc
  cases u with
  | escaped d =>
      cases hc
      exact hescaped
  | bare d _ =>
      cases hc
      exact hbare

end TextUnit

/-- A value as it is written in a name: units, of which neither the first nor the last is a blank by
itself. -/
structure WrittenValue where
  units : List (TextUnit '+')
  head_notBlank : ∀ u ∈ units.head?, u.isBareBlank = false
  last_notBlank : ∀ u ∈ units.getLast?, u.isBareBlank = false

namespace WrittenValue

def text (value : WrittenValue) : Text := spell value.units

/-- Is the last unit of the value an escaped blank? -/
def endsInEscapedBlank (value : WrittenValue) : Bool :=
  value.units.getLast?.any TextUnit.isEscapedBlank

/-- What trimming leaves of the value: an escaped blank at its end is lost, the backslash is not. -/
def kept (value : WrittenValue) : Text :=
  if value.endsInEscapedBlank then value.text.dropLast else value.text

theorem flush_text (value : WrittenValue) : value.text.Flush := by
  obtain ⟨units, hhead, _⟩ := value
  cases units with
  | nil => exact Text.flush_nil
  | cons u us =>
      cases u with
      | escaped c => exact Text.flush_cons.mpr (by decide)
      | bare c h => exact Text.flush_cons.mpr (hhead _ rfl)

theorem endsInEscapedBlank_iff {value : WrittenValue} :
    value.endsInEscapedBlank = true ↔
      ∃ us c, isBlank c = true ∧ value.units = us ++ [.escaped c] := by
  unfold endsInEscapedBlank
  constructor
  · intro h
    obtain ⟨u, hlast, hu⟩ := (Option.any_eq_true _ _).mp h
    obtain ⟨us, hus⟩ := List.getLast?_eq_some_iff.mp hlast
    cases u with
    | escaped c => exact ⟨us, c, hu, hus⟩
    | bare c _ => cases hu
  · rintro ⟨us, c, hc, hus⟩
    rw [hus, List.getLast?_concat]
    exact hc

theorem getLast?_text {value : WrittenValue} (h : value.endsInEscapedBlank = false) :
    ∀ c ∈ value.text.getLast?, isBlank c = false := by
  obtain ⟨units, _, hlast⟩ := value
  rcases List.eq_nil_or_concat' units with rfl | ⟨us, u, rfl⟩
  · intro c hc
    cases hc
  · have hbare : u.isBareBlank = false := hlast u List.getLast?_concat
    have hescaped : u.isEscapedBlank = false := by
      simpa [endsInEscapedBlank, List.getLast?_concat] using h
    have htext : text ⟨us ++ [u], ‹_›, hlast⟩ = spell us ++ u.text := by
      rw [text, spell_append, spell_cons, spell_nil, List.append_nil]
    rw [htext, List.getLast?_append_of_ne_nil _ u.text_ne_nil]
    exact u.getLast?_text_notBlank hbare hescaped

/-- A value is kept as it is written, or it is something that ends in a backslash, and a blank. -/
theorem kept_cases (value : WrittenValue) :
    value.endsInEscapedBlank = false ∧ value.kept = value.text ∨
      ∃ (us : List (TextUnit '+')) (c : Char), value.endsInEscapedBlank = true ∧
        isBlank c = true ∧ value.kept = spell us ++ ['\\'] ∧
        value.text = spell us ++ ['\\'] ++ [c] := by
  cases h : value.endsInEscapedBlank with
  | false => exact .inl ⟨rfl, by rw [kept, h]; rfl⟩
  | true =>
      obtain ⟨us, c, hc, hus⟩ := endsInEscapedBlank_iff.mp h
      have htext : value.text = spell us ++ ['\\'] ++ [c] := by
        rw [text, hus, spell_append, List.append_assoc]
        rfl
      refine .inr ⟨us, c, rfl, hc, ?_, htext⟩
      rw [kept, h, htext, if_pos rfl, List.dropLast_concat]

theorem trimEnd_text (value : WrittenValue) : value.text.trimEnd = value.kept := by
  rcases value.kept_cases with ⟨hend, hkept⟩ | ⟨us, c, -, hc, hkept, htext⟩
  · rw [hkept]
    simpa using Text.trimEnd_append Text.blank_nil (getLast?_text hend)
  · rw [htext, hkept]
    exact Text.trimEnd_append (by simpa [Text.Blank] using hc)
      (Text.notBlank_getLast?_concat (by decide))

theorem trim_text (value : WrittenValue) : value.text.trim = value.kept := by
  rw [Text.trim, Text.trimStart_eq_self value.flush_text, trimEnd_text]

theorem trim_kept (value : WrittenValue) : value.kept.trim = value.kept := by
  rw [← trim_text]
  exact Text.trim_eq_self (Text.trimmed_trim _)

theorem splitUnescaped_kept (us : List (TextUnit '+')) (value : WrittenValue) :
    splitUnescaped '+' (spell us ++ value.kept) = [spell us ++ value.kept] := by
  rcases value.kept_cases with ⟨-, hkept⟩ | ⟨vs, c, -, -, hkept, -⟩
  · rw [hkept, text, ← spell_append, splitUnescaped_spell]
  · rw [hkept, ← List.append_assoc, ← spell_append, splitUnescaped_spell_backslash]

theorem kept_eq_text_iff {value : WrittenValue} :
    value.kept = value.text ↔ value.endsInEscapedBlank = false := by
  rcases value.kept_cases with ⟨hend, hkept⟩ | ⟨us, c, hend, -, hkept, htext⟩
  · exact ⟨fun _ => hend, fun _ => hkept⟩
  · simp [hend, hkept, htext]

end WrittenValue

/-! ### Names put together from pairs -/

def written (p : Text × WrittenValue) : Text := p.1 ++ '=' :: p.2.text

/-- The name that is put together from pairs. -/
def compose (ps : List (Text × WrittenValue)) : Text := Text.join ['+'] (ps.map written)

theorem compose_singleton (p : Text × WrittenValue) : compose [p] = written p :=
  Text.join_singleton ['+'] (written p)

theorem compose_cons_cons (p q : Text × WrittenValue) (ps : List (Text × WrittenValue)) :
    compose (p :: q :: ps) = written p ++ '+' :: compose (q :: ps) :=
  Text.join_cons_cons '+' (written p) (written q) (ps.map written)

theorem exists_spell_attribute {attr : Text} (hattr : isAttribute attr = true) :
    ∃ us : List (TextUnit '+'), spell us = attr ++ ['='] := by
  apply exists_spell_eq
  intro c hc
  rcases List.mem_append.mp hc with hc | hc
  · have hchar := (isAttribute_iff.mp hattr).2 c hc
    constructor
    · rintro rfl
      exact absurd hchar (by decide)
    · rintro rfl
      exact absurd hchar (by decide)
  · rw [List.mem_singleton.mp hc]
    decide

theorem flush_compose {p : Text × WrittenValue} (hattr : isAttribute p.1 = true)
    (ps : List (Text × WrittenValue)) : (compose (p :: ps)).Flush := by
  have hflush : p.1.Flush := (trimmed_of_isAttribute hattr).1
  have hwritten : (written p).Flush := hflush.append_of_ne_nil (isAttribute_iff.mp hattr).1
  cases ps with
  | nil => rwa [compose_singleton]
  | cons q ps =>
      rw [compose_cons_cons]
      exact hwritten.append_of_ne_nil (by simp [written])

/-- **The pieces of a composed name give its pairs back**, with the values that are kept.  What
trimming takes off the end of the name is what it would take off the last value anyway. -/
theorem mapM_pair_compose : ∀ {ps : List (Text × WrittenValue)}, ps ≠ [] →
    (∀ p ∈ ps, isAttribute p.1 = true) →
    (splitUnescaped '+' (compose ps).trimEnd).mapM pair = .ok (ps.map fun p => (p.1, p.2.kept))
  | [(attr, value)], _, hps => by
      have hattr : isAttribute attr = true := hps (attr, value) List.mem_cons_self
      obtain ⟨us, hus⟩ := exists_spell_attribute hattr
      have hname : (compose [(attr, value)]).trimEnd = attr ++ '=' :: value.kept := by
        rw [compose_singleton, written, Text.trimEnd_append_cons (by decide), value.trimEnd_text]
      have hpiece : splitUnescaped '+' (attr ++ '=' :: value.kept) =
          [attr ++ '=' :: value.kept] := by
        have hsplit := value.splitUnescaped_kept us
        rwa [hus, List.append_assoc] at hsplit
      rw [hname, hpiece, List.mapM_cons, pair_of_isAttribute hattr, value.trim_kept]
      rfl
  | (attr, value) :: q :: ps, _, hps => by
      obtain ⟨hattr, hps⟩ := List.forall_mem_cons.mp hps
      obtain ⟨us, hus⟩ := exists_spell_attribute hattr
      -- Trimming stops at the last separator, and so does not reach this pair.
      have hname : (compose ((attr, value) :: q :: ps)).trimEnd =
          attr ++ '=' :: value.text ++ '+' :: (compose (q :: ps)).trimEnd := by
        rw [compose_cons_cons, Text.trimEnd_append_cons (by decide), written]
      have hpiece : attr ++ '=' :: value.text = spell (us ++ value.units) := by
        rw [spell_append, hus, List.append_assoc]
        rfl
      rw [hname, hpiece, splitUnescaped_spell_separator (by decide), ← hpiece, List.mapM_cons,
        pair_of_isAttribute hattr, mapM_pair_compose (List.cons_ne_nil q ps) hps, value.trim_text]
      rfl

/-- **A composed name has the pairs that it was put together from**, but that an escaped blank at
the end of a value is lost: so it has the very pairs exactly if no value ends in one. -/
theorem pairs_compose {ps : List (Text × WrittenValue)} (hne : ps ≠ [])
    (hattrs : ∀ p ∈ ps, isAttribute p.1 = true) :
    pairs (compose ps) = .ok (ps.map fun p => (p.1, p.2.kept)) ∧
      (pairs (compose ps) = .ok (ps.map fun p => (p.1, p.2.text)) ↔
        ∀ p ∈ ps, p.2.endsInEscapedBlank = false) := by
  have hpairs : pairs (compose ps) = .ok (ps.map fun p => (p.1, p.2.kept)) := by
    have hpieces := mapM_pair_compose hne hattrs
    obtain ⟨p, rest, rfl⟩ := List.exists_cons_of_ne_nil hne
    have htrim : (compose (p :: rest)).trim = (compose (p :: rest)).trimEnd := by
      have hflush := flush_compose (hattrs p List.mem_cons_self) rest
      rw [Text.trim, Text.trimStart_eq_self hflush]
    rw [pairs_eq_ok_iff, htrim]
    refine ⟨fun hnil => ?_, mapM_eq_ok_iff.mp hpieces⟩
    rw [hnil] at hpieces
    cases hpieces
  refine ⟨hpairs, ?_⟩
  rw [hpairs, Except.ok.injEq, List.map_inj_left]
  simp only [Prod.mk.injEq, true_and, WrittenValue.kept_eq_text_iff]

/-- Values with an escaped blank at the start, an escaped separator, a blank and an escaped
backslash at the end, and an operator. -/
theorem pairs_compose_of_escapes :
    let first : WrittenValue := ⟨[.escaped ' ', .bare 'a' (by decide), .escaped '+',
      .bare ' ' (by decide), .escaped '\\'], by decide, by decide⟩
    let second : WrittenValue := ⟨[.bare '<' (by decide), .bare '=' (by decide), .escaped '*'],
      by decide, by decide⟩
    let ps : List (Text × WrittenValue) := [("cn", first), ("uid", second)]
    ps ≠ [] ∧ (∀ p ∈ ps, isAttribute p.1 = true) ∧ compose ps = "cn=\\ a\\+ \\\\+uid=<=\\*" ∧
      pairs (compose ps) = .ok [("cn", "\\ a\\+ \\\\"), ("uid", "<=\\*")] := by
  intro first second ps
  have hattrs : ∀ p ∈ ps, isAttribute p.1 = true := by decide
  have hends : ∀ p ∈ ps, p.2.endsInEscapedBlank = false := by decide
  have hne : ps ≠ [] := List.cons_ne_nil _ _
  exact ⟨hne, hattrs, rfl, (pairs_compose hne hattrs).2.mpr hends⟩

/-- The first value is written `a\ ` and loses the blank that its backslash escapes. -/
theorem pairs_compose_of_escaped_blank :
    let first : WrittenValue := ⟨[.bare 'a' (by decide), .escaped ' '], by decide, by decide⟩
    let second : WrittenValue := ⟨[.bare 'b' (by decide)], by decide, by decide⟩
    let ps : List (Text × WrittenValue) := [("cn", first), ("uid", second)]
    (∀ p ∈ ps, isAttribute p.1 = true) ∧ compose ps = "cn=a\\ +uid=b" ∧
      pairs (compose ps) = .ok [("cn", "a\\"), ("uid", "b")] ∧
      pairs (compose ps) ≠ .ok (ps.map fun p => (p.1, p.2.text)) := by
  intro first second ps
  have hpairs : pairs (compose ps) = .ok [("cn", "a\\"), ("uid", "b")] := by decide +kernel
  refine ⟨by decide, rfl, hpairs, ?_⟩
  rw [hpairs]
  decide

end Rdn
end SearchFilter
