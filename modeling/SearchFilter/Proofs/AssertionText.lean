import SearchFilter.Proofs.Nesting

/-! # How assertions are spelled

`Assertion.Spells` lists the texts of an assertion: the attribute, the operator and the value with
blanks around each of them.  Taking a text apart gives an assertion exactly for the texts that
spell it (`split?_eq_some_iff`). -/

namespace SearchFilter

/-! ### Attribute descriptions -/

theorem isBlank_of_isAttributeChar {c : Char} (h : isAttributeChar c = true) :
    isBlank c = false := by
  unfold isAttributeChar Char.isAlphanum Char.isAlpha Char.isUpper Char.isLower Char.isDigit at h
  simp only [Bool.or_eq_true, Bool.and_eq_true, decide_eq_true_eq, beq_iff_eq,
    UInt32.le_iff_toNat_le] at h
  have hrange : 45 ≤ c.toNat ∧ c.toNat ≤ 122 := by
    rcases h with ((h | rfl) | rfl) | rfl
    · have : c.toNat = c.val.toNat := rfl
      simp at h
      omega
    all_goals decide
  simp only [isBlank, blankRanges, List.any_cons, List.any_nil, Bool.or_false, Bool.or_eq_false_iff,
    Bool.and_eq_false_iff, decide_eq_false_iff_not]
  omega

theorem isAttribute_iff {attr : Text} :
    isAttribute attr = true ↔ attr ≠ [] ∧ ∀ c ∈ attr, isAttributeChar c = true := by
  simp [isAttribute]

theorem isAttributeChar_eq_false_of_isBlank {c : Char} (h : isBlank c = true) :
    isAttributeChar c = false := by
  cases hc : isAttributeChar c with
  | false => rfl
  | true =>
      rw [isBlank_of_isAttributeChar hc] at h
      cases h

theorem plain_of_isAttribute {attr : Text} (h : isAttribute attr = true) : attr.Plain := by
  have hall := (isAttribute_iff.mp h).2
  rw [Text.plain_iff]
  constructor
  · intro hopen
    exact absurd (hall _ hopen) (by decide)
  · intro hclose
    exact absurd (hall _ hclose) (by decide)

theorem trimmed_of_isAttribute {attr : Text} (h : isAttribute attr = true) : attr.Trimmed := by
  have hall := (isAttribute_iff.mp h).2
  constructor
  · intro c hc
    exact isBlank_of_isAttributeChar (hall c (List.mem_of_mem_head? hc))
  · intro c hc
    exact isBlank_of_isAttributeChar (hall c (List.mem_of_getLast? hc))

/-! ### Operators -/

namespace Assertion

theorem operator?_eq_some_iff {t rest : Text} {op : Comparison} :
    operator? t = some (op, rest) ↔ t = op.symbol ++ rest := by
  constructor
  · intro h
    unfold operator? at h
    split at h <;> cases h <;> rfl
  · rintro rfl
    cases op <;> rfl

theorem symbol_eq_cons (op : Comparison) :
    ∃ c t, op.symbol = c :: t ∧ isAttributeChar c = false ∧ isBlank c = false := by
  cases op with
  | equal => exact ⟨'=', [], rfl, by decide, by decide⟩
  | approx => exact ⟨'~', ['='], rfl, by decide, by decide⟩
  | greater => exact ⟨'>', ['='], rfl, by decide, by decide⟩
  | less => exact ⟨'<', ['='], rfl, by decide, by decide⟩

theorem symbol_getLast? (op : Comparison) : op.symbol.getLast? = some '=' := by
  cases op <;> rfl

theorem plain_symbol (op : Comparison) : op.symbol.Plain := by
  cases op <;> simp [Text.Plain, Comparison.symbol, Token.isParen]

/-! ### The texts of an assertion -/

/-- The text is a spelling of the assertion. -/
def Spells (t : Text) : Assertion → Prop
  | bare attr =>
    ∃ w w' : Text, w.Blank ∧ w'.Blank ∧ isAttribute attr = true ∧ t = w ++ attr ++ w'
  | compare attr op value =>
    ∃ w w₁ w₂ w₃ : Text, w.Blank ∧ w₁.Blank ∧ w₂.Blank ∧ w₃.Blank ∧ isAttribute attr = true ∧
      value.Trimmed ∧ t = w ++ (attr ++ (w₁ ++ (op.symbol ++ (w₂ ++ value ++ w₃))))

theorem split?_congr {t u : Text} (h : t.trim = u.trim) : split? t = split? u := by
  simp only [split?, h]

theorem split?_of_trim {t attr rest : Text} (ht : t.trim = attr ++ rest)
    (hattr : isAttribute attr = true) (hrest : ∀ c ∈ rest.head?, isAttributeChar c = false) :
    split? t =
      if rest.trimStart.isEmpty then some (bare attr)
      else (operator? rest.trimStart).map fun (op, value) => compare attr op value.trim := by
  obtain ⟨hne, hall⟩ := isAttribute_iff.mp hattr
  have hne' : attr.isEmpty = false := by simpa using hne
  simp only [split?]
  rw [ht, takeWhile_append_of_head hall hrest, dropWhile_append_of_head hall hrest, hne']
  rfl

/-- Trimming an assertion with a value reaches no further than its operator. -/
theorem trim_append_symbol {w attr w₁ u : Text} (hw : w.Blank) (hattr : isAttribute attr = true)
    (op : Comparison) :
    Text.trim (w ++ (attr ++ (w₁ ++ (op.symbol ++ u)))) =
      attr ++ (w₁ ++ (op.symbol ++ u.trimEnd)) := by
  have hne := (isAttribute_iff.mp hattr).1
  have hlast : ∀ c ∈ (attr ++ (w₁ ++ op.symbol)).getLast?, isBlank c = false := by
    intro c hc
    have hc' : c = '=' := by
      simpa [List.getLast?_append, symbol_getLast?, eq_comm] using hc
    rw [hc']
    decide
  unfold Text.trim
  rw [Text.trimStart_append hw, Text.trimStart_eq_self]
  · simpa only [List.append_assoc] using Text.trimEnd_append_of_trimmed hlast
  · exact (trimmed_of_isAttribute hattr).1.append_of_ne_nil hne

theorem split?_of_spells {t : Text} {a : Assertion} (h : Spells t a) : split? t = some a := by
  cases a with
  | bare attr =>
      obtain ⟨w, w', hw, hw', hattr, rfl⟩ := h
      have htrim : Text.trim (w ++ attr ++ w') = attr ++ [] := by
        rw [Text.trim_append hw (trimmed_of_isAttribute hattr) hw', List.append_nil]
      rw [split?_of_trim htrim hattr (by simp)]
      rfl
  | compare attr op value =>
      obtain ⟨w, w₁, w₂, w₃, hw, hw₁, hw₂, hw₃, hattr, hvalue, rfl⟩ := h
      obtain ⟨c, s, hsym, hcattr, hcblank⟩ := symbol_eq_cons op
      have hhead : ∀ d ∈ (w₁ ++ (op.symbol ++ Text.trimEnd (w₂ ++ value ++ w₃))).head?,
          isAttributeChar d = false := by
        intro d hd
        cases w₁ with
        | nil =>
            rw [hsym] at hd
            cases hd
            exact hcattr
        | cons b w₁ =>
            cases hd
            exact isAttributeChar_eq_false_of_isBlank (hw₁ d List.mem_cons_self)
      have hstart : Text.trimStart (w₁ ++ (op.symbol ++ Text.trimEnd (w₂ ++ value ++ w₃))) =
          op.symbol ++ Text.trimEnd (w₂ ++ value ++ w₃) := by
        rw [Text.trimStart_append hw₁, hsym]
        exact Text.trimStart_eq_self (Text.flush_cons.mpr hcblank)
      have hval : Text.trim (Text.trimEnd (w₂ ++ value ++ w₃)) = value := by
        rw [Text.trim_trimEnd, Text.trim_append hw₂ hvalue hw₃]
      rw [split?_of_trim (trim_append_symbol hw hattr op) hattr hhead, hstart,
        operator?_eq_some_iff.mpr rfl, hsym, List.cons_append, List.isEmpty_cons,
        if_neg Bool.false_ne_true, Option.map_some]
      exact congrArg (fun v => some (compare attr op v)) hval

theorem spells_of_split? {t : Text} {a : Assertion} (h : split? t = some a) : Spells t a := by
  obtain ⟨w, w', hw, hw', e⟩ := Text.exists_trim t
  obtain ⟨w₁, hw₁, e₁⟩ := Text.exists_trimStart (t.trim.dropWhile isAttributeChar)
  have hsplit : t.trim = t.trim.takeWhile isAttributeChar ++ t.trim.dropWhile isAttributeChar :=
    List.takeWhile_append_dropWhile.symm
  simp only [split?] at h
  generalize hattr : t.trim.takeWhile isAttributeChar = attr at h hsplit
  generalize t.trim.dropWhile isAttributeChar = rest at *
  have hall : ∀ c ∈ attr, isAttributeChar c = true :=
    fun c hc => List.mem_takeWhile_imp (hattr ▸ hc)
  split at h
  · cases h
  · rename_i hne
    have hisattr : isAttribute attr = true := isAttribute_iff.mpr ⟨by simpa using hne, hall⟩
    split at h
    · rename_i hnil
      cases h
      refine ⟨w, w₁ ++ w', hw, hw₁.append hw', hisattr, ?_⟩
      rw [List.isEmpty_iff.mp hnil, List.append_nil] at e₁
      rw [e, hsplit, e₁]
      simp only [List.append_assoc]
    · obtain ⟨⟨op, value⟩, hop, rfl⟩ := Option.map_eq_some_iff.mp h
      obtain ⟨w₂, w₃, hw₂, hw₃, e₂⟩ := Text.exists_trim value
      refine ⟨w, w₁, w₂, w₃ ++ w', hw, hw₁, hw₂, hw₃.append hw', hisattr,
        Text.trimmed_trim value, ?_⟩
      rw [operator?_eq_some_iff.mp hop] at e₁
      conv_lhs => rw [e, hsplit, e₁, e₂]
      simp only [List.append_assoc]

/-- **Taking a text apart gives the assertion that it spells.** -/
theorem split?_eq_some_iff {t : Text} {a : Assertion} : split? t = some a ↔ Spells t a :=
  ⟨spells_of_split?, split?_of_spells⟩

end Assertion
end SearchFilter
