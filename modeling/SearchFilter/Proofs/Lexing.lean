import SearchFilter.Filter.Token
import SearchFilter.Proofs.Trimming

/-! # Tokens and the text they stand in

`Token.Stands` says where a token may stand: which flag it needs, and what may follow it.  A text
has `token :: tokens` exactly if it consists of blanks, the token's own text in such a place, and
a rest that has `tokens` (`scan_eq_cons_iff`); it has no tokens exactly if it is blank
(`scan_eq_nil_iff`).  All that is proved of the tokens of a text goes through these two; so does
what becomes of the tokens when the text is trimmed (`scan_trim`). -/

namespace SearchFilter

/-- The text holds no parenthesis. -/
def Text.Plain (t : Text) : Prop := ∀ c ∈ t, Token.isParen c = false

instance (t : Text) : Decidable t.Plain :=
  List.decidableBAll (fun c => Token.isParen c = false) t

theorem Text.Plain.of_infix {t u : Text} (hu : u.Plain) (h : t <:+: u) : t.Plain :=
  fun c hc => hu c (h.subset hc)

theorem Text.plain_iff {t : Text} : t.Plain ↔ '(' ∉ t ∧ ')' ∉ t := by
  simp only [Plain, Token.isParen, Bool.or_eq_false_iff, beq_eq_false_iff_ne]
  constructor
  · intro h
    exact ⟨fun hmem => (h _ hmem).1 rfl, fun hmem => (h _ hmem).2 rfl⟩
  · rintro ⟨hopen, hclose⟩ c hc
    constructor
    · rintro rfl
      exact hopen hc
    · rintro rfl
      exact hclose hc

namespace Token

/-- The token may be the first one of a text that goes on with `rest`. -/
def Stands (afterOpen : Bool) (rest : Text) : Token → Prop
  | openParen | closeParen => True
  | and | or | not => afterOpen = true
  | assertion text =>
    text ≠ [] ∧ text.Flush ∧ text.Plain ∧ (∀ c ∈ rest.head?, isParen c = true) ∧
      (afterOpen = true → ∀ c ∈ text.head?, operator? c = none)

theorem text_of_operator? {c : Char} {token : Token} (h : operator? c = some token) :
    token.text = [c] ∧ ∀ rest, token.Stands true rest := by
  unfold operator? at h
  split at h <;> cases h <;> exact ⟨rfl, fun _ => rfl⟩

theorem isParen_eq_false {c : Char} : isParen c = false ↔ c ≠ '(' ∧ c ≠ ')' := by
  simp [isParen]

theorem Stands.text_eq_cons {afterOpen : Bool} {rest : Text} {token : Token}
    (h : token.Stands afterOpen rest) : ∃ c t, token.text = c :: t ∧ isBlank c = false := by
  cases token with
  | openParen => exact ⟨'(', [], rfl, by decide⟩
  | closeParen => exact ⟨')', [], rfl, by decide⟩
  | and => exact ⟨'&', [], rfl, by decide⟩
  | or => exact ⟨'|', [], rfl, by decide⟩
  | not => exact ⟨'!', [], rfl, by decide⟩
  | assertion text =>
      obtain ⟨hne, hflush, -⟩ := h
      obtain ⟨c, t, rfl⟩ := List.exists_cons_of_ne_nil hne
      exact ⟨c, t, rfl, Text.flush_cons.mp hflush⟩

/-! ### The first token -/

theorem next?_blank_append {afterOpen : Bool} {w s : Text} (hw : w.Blank) :
    next? afterOpen (w ++ s) = next? afterOpen s := by
  unfold next?
  rw [Text.trimStart_append hw]

theorem next?_of_stands {afterOpen : Bool} {rest : Text} {token : Token}
    (h : token.Stands afterOpen rest) :
    next? afterOpen (token.text ++ rest) = some (token, rest) := by
  obtain ⟨c, t, e, hc⟩ := h.text_eq_cons
  have htrim : Text.trimStart (token.text ++ rest) = token.text ++ rest := by
    apply Text.trimStart_eq_self
    rw [e]
    exact Text.flush_cons.mpr hc
  unfold next?
  rw [htrim]
  cases token with
  | openParen => rfl
  | closeParen => rfl
  | and => cases h; rfl
  | or => cases h; rfl
  | not => cases h; rfl
  | assertion text =>
      obtain ⟨-, -, hplain, hrest, hop⟩ := h
      change text = c :: t at e
      subst e
      have hparen := isParen_eq_false.mp (hplain c List.mem_cons_self)
      have hnone : (if afterOpen then operator? c else none) = none := by
        cases afterOpen with
        | false => rfl
        | true => exact hop rfl c rfl
      have htail : ∀ d ∈ t, (!isParen d) = true := by
        intro d hd
        simp [hplain d (List.mem_cons_of_mem _ hd)]
      have hhead : ∀ d ∈ rest.head?, (!isParen d) = false := by
        intro d hd
        simp [hrest d hd]
      -- Of the cases of `next?`, `c` leaves the last one, and there `hnone` rules out an operator.
      simp only [text, List.cons_append]
      split
      · rename_i e'; cases e'
      · rename_i e'; exact absurd (List.cons.inj e').1 hparen.1
      · rename_i e'; exact absurd (List.cons.inj e').1 hparen.2
      · rename_i e'
        obtain ⟨rfl, rfl⟩ := List.cons.inj e'
        rw [hnone, takeWhile_append_of_head htail hhead, dropWhile_append_of_head htail hhead]

theorem stands_of_next? {afterOpen : Bool} {s rest : Text} {token : Token}
    (h : next? afterOpen s = some (token, rest)) :
    s.trimStart = token.text ++ rest ∧ token.Stands afterOpen rest := by
  have hflush := Text.flush_trimStart s
  unfold next? at h
  split at h
  · cases h
  · rename_i e; cases h; exact ⟨e, trivial⟩
  · rename_i e; cases h; exact ⟨e, trivial⟩
  · rename_i c tail hopen hclose e
    rw [e] at hflush ⊢
    split at h
    · rename_i operator hop
      cases h
      cases afterOpen with
      | false => cases hop
      | true =>
          obtain ⟨htext, hstands⟩ := text_of_operator? hop
          rw [htext]
          exact ⟨rfl, hstands _⟩
    · rename_i hop
      cases h
      have hc : isParen c = false := isParen_eq_false.mpr ⟨hopen, hclose⟩
      refine ⟨?_, by simp, by simpa using hflush, ?_, ?_, ?_⟩
      · simp only [text, List.cons_append]
        rw [List.takeWhile_append_dropWhile]
      · intro d hd
        rcases List.mem_cons.mp hd with rfl | hd
        · exact hc
        · simpa using List.mem_takeWhile_imp hd
      · intro d hd
        simpa using head?_dropWhile_eq_false d hd
      · rintro rfl d hd
        cases hd
        exact hop

theorem exists_of_next? {afterOpen : Bool} {s rest : Text} {token : Token}
    (h : next? afterOpen s = some (token, rest)) :
    ∃ w : Text, w.Blank ∧ s = w ++ (token.text ++ rest) ∧ token.Stands afterOpen rest := by
  obtain ⟨e, hstands⟩ := stands_of_next? h
  obtain ⟨w, hw, e'⟩ := Text.exists_trimStart s
  exact ⟨w, hw, by rw [← e, ← e'], hstands⟩

theorem next?_eq_none_iff {afterOpen : Bool} {s : Text} :
    next? afterOpen s = none ↔ s.Blank := by
  have hs : s.Blank ↔ s.trimStart = [] := List.dropWhile_eq_nil_iff.symm
  rw [hs]
  unfold next?
  split
  · rename_i e; simp [e]
  · rename_i e; simp [e]
  · rename_i e; simp [e]
  · rename_i e
    rw [e]
    split <;> simp

/-! ### All tokens -/

theorem scan_of_next? {afterOpen : Bool} {s rest : Text} {token : Token}
    (h : next? afterOpen s = some (token, rest)) :
    scan afterOpen s = token :: scan (token == openParen) rest := by
  rw [scan]
  split
  · rename_i e; rw [h] at e; cases e
  · rename_i e; rw [h] at e; cases e; rfl

theorem scan_eq_nil_iff {afterOpen : Bool} {s : Text} : scan afterOpen s = [] ↔ s.Blank := by
  rw [← @next?_eq_none_iff afterOpen, scan]
  split
  · rename_i e; simp [e]
  · rename_i e; simp [e]

@[simp] theorem scan_nil (afterOpen : Bool) : scan afterOpen [] = [] :=
  scan_eq_nil_iff.mpr Text.blank_nil

/-- **The tokens of a text**: blanks, a token in a place where it may stand, and the tokens of the
rest. -/
theorem scan_eq_cons_iff {afterOpen : Bool} {s : Text} {token : Token} {tokens : List Token} :
    scan afterOpen s = token :: tokens ↔
      ∃ w rest : Text, w.Blank ∧ s = w ++ (token.text ++ rest) ∧ token.Stands afterOpen rest ∧
        scan (token == openParen) rest = tokens := by
  constructor
  · intro h
    cases hn : next? afterOpen s with
    | none =>
        rw [scan_eq_nil_iff.mpr (next?_eq_none_iff.mp hn)] at h
        cases h
    | some p =>
        obtain ⟨token', rest⟩ := p
        rw [scan_of_next? hn] at h
        obtain ⟨rfl, rfl⟩ := List.cons.inj h
        obtain ⟨w, hw, e, hstands⟩ := exists_of_next? hn
        exact ⟨w, rest, hw, e, hstands, rfl⟩
  · rintro ⟨w, rest, hw, rfl, hstands, rfl⟩
    apply scan_of_next?
    rw [next?_blank_append hw, next?_of_stands hstands]

theorem scan_text_append {afterOpen : Bool} {rest : Text} {token : Token}
    (h : token.Stands afterOpen rest) :
    scan afterOpen (token.text ++ rest) = token :: scan (token == openParen) rest :=
  scan_eq_cons_iff.mpr ⟨[], rest, Text.blank_nil, rfl, h, rfl⟩

theorem scan_blank_append {afterOpen : Bool} {w s : Text} (hw : w.Blank) :
    scan afterOpen (w ++ s) = scan afterOpen s := by
  cases h : scan afterOpen s with
  | nil => exact scan_eq_nil_iff.mpr (hw.append (scan_eq_nil_iff.mp h))
  | cons token tokens =>
      obtain ⟨w', rest, hw', rfl, hstands, e⟩ := scan_eq_cons_iff.mp h
      exact scan_eq_cons_iff.mpr
        ⟨w ++ w', rest, hw.append hw', (List.append_assoc ..).symm, hstands, e⟩

theorem scan_trimStart (afterOpen : Bool) (s : Text) :
    scan afterOpen s.trimStart = scan afterOpen s := by
  obtain ⟨w, hw, e⟩ := Text.exists_trimStart s
  conv_rhs => rw [e]
  rw [scan_blank_append hw]

/-! ### Blanks at the end -/

/-- The token without the blanks at its end, which only an assertion can have. -/
def trimEnd : Token → Token
  | assertion text => assertion text.trimEnd
  | token => token

theorem text_trimEnd (token : Token) : token.trimEnd.text = token.text.trimEnd := by
  cases token <;> rfl

theorem Stands.not_blank {afterOpen : Bool} {rest : Text} {token : Token}
    (h : token.Stands afterOpen rest) (u : Text) : ¬ Text.Blank (token.text ++ u) := by
  obtain ⟨c, t, e, hc⟩ := h.text_eq_cons
  intro hblank
  have hc' : isBlank c = true := hblank c (by simp [e])
  rw [hc] at hc'
  cases hc'

/-- Where a token stands depends on the next character only. -/
theorem Stands.of_head? {afterOpen : Bool} {rest rest' : Text} {token : Token}
    (h : token.Stands afterOpen rest) (hhead : rest'.head? = rest.head?) :
    token.Stands afterOpen rest' := by
  cases token with
  | assertion text =>
      obtain ⟨hne, hflush, hplain, hrest, hop⟩ := h
      exact ⟨hne, hflush, hplain, hhead ▸ hrest, hop⟩
  | _ => exact h

theorem Stands.at_end {afterOpen : Bool} {rest : Text} {token : Token}
    (h : token.Stands afterOpen rest) : token.Stands afterOpen [] := by
  cases token with
  | assertion text =>
      obtain ⟨hne, hflush, hplain, -, hop⟩ := h
      exact ⟨hne, hflush, hplain, by simp, hop⟩
  | _ => exact h

theorem Stands.before_paren {afterOpen : Bool} {rest rest' : Text} {token : Token} {c : Char}
    (h : token.Stands afterOpen rest) (hc : isParen c = true) :
    token.Stands afterOpen (c :: rest') := by
  cases token with
  | assertion text =>
      obtain ⟨hne, hflush, hplain, -, hop⟩ := h
      exact ⟨hne, hflush, hplain, by simpa using hc, hop⟩
  | _ => exact h

theorem Stands.trimEnd {afterOpen : Bool} {rest : Text} {token : Token}
    (h : token.Stands afterOpen rest) : token.trimEnd.Stands afterOpen [] := by
  cases token with
  | assertion text =>
      have hblank : ¬ Text.Blank (text ++ []) := h.not_blank []
      rw [List.append_nil] at hblank
      obtain ⟨-, hflush, hplain, -, hop⟩ := h
      obtain ⟨w, -, e⟩ := Text.exists_trimEnd text
      refine ⟨mt Text.trimEnd_eq_nil_iff.mp hblank, hflush.trimEnd, ?_, by simp, ?_⟩
      · intro c hc
        exact hplain c (by rw [e]; exact List.mem_append_left w hc)
      · rw [Text.head?_trimEnd hblank]
        exact hop
  | _ => exact h

/-- A text without its blank end has the same tokens, but for the end of the last one. -/
theorem scan_trimEnd : ∀ {before : List Token} {afterOpen : Bool} {s : Text} {last : Token},
    scan afterOpen s = before ++ [last] → scan afterOpen s.trimEnd = before ++ [last.trimEnd]
  | [], afterOpen, s, last, h => by
      obtain ⟨w, rest, hw, rfl, hstands, hnil⟩ := scan_eq_cons_iff.mp h
      have hscan := scan_text_append hstands.trimEnd
      rw [List.append_nil, text_trimEnd, scan_nil] at hscan
      rw [Text.trimEnd_append_of_not_blank (hstands.not_blank rest), scan_blank_append hw,
        Text.trimEnd_append_blank (scan_eq_nil_iff.mp hnil), hscan, List.nil_append]
  | token :: before, afterOpen, s, last, h => by
      obtain ⟨w, rest, hw, rfl, hstands, hlater⟩ := scan_eq_cons_iff.mp h
      have hrest : ¬ rest.Blank := by
        intro hblank
        rw [scan_eq_nil_iff.mpr hblank] at hlater
        simp at hlater
      have hstands' : token.Stands afterOpen rest.trimEnd :=
        hstands.of_head? (Text.head?_trimEnd hrest)
      rw [Text.trimEnd_append_of_not_blank (hstands.not_blank rest),
        Text.trimEnd_append_of_not_blank hrest, scan_blank_append hw, scan_text_append hstands',
        scan_trimEnd hlater, List.cons_append]

/-- **The tokens of a trimmed text** are those of the text itself, but for the end of the last
one. -/
theorem scan_trim {before : List Token} {afterOpen : Bool} {s : Text} {last : Token}
    (h : scan afterOpen s = before ++ [last]) :
    scan afterOpen s.trim = before ++ [last.trimEnd] := by
  rw [Text.trim]
  apply scan_trimEnd
  rw [scan_trimStart, h]

theorem head?_trim_of_tokens {s : Text} (h : (tokens s).head? = some .openParen) :
    s.trim.head? = some '(' := by
  obtain ⟨later, h⟩ := List.head?_eq_some_iff.mp h
  obtain ⟨w, rest, hw, rfl, -, -⟩ := scan_eq_cons_iff.mp h
  have hopen : isBlank '(' = false := by decide
  have hflush : Text.trimStart ('(' :: rest) = '(' :: rest :=
    Text.trimStart_eq_self (Text.flush_cons.mpr hopen)
  change (Text.trim (w ++ '(' :: rest)).head? = _
  rw [Text.trim, Text.trimStart_append hw, hflush]
  exact congrArg List.head? (Text.trimEnd_append_cons hopen [] rest)

end Token
end SearchFilter
