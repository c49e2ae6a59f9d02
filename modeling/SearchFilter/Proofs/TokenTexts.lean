import SearchFilter.Proofs.Lexing

/-! # Tokens put back together

Which token may stand behind which can be told from the tokens alone (`Token.Fits`), and so can where
blanks may stand between their texts (`Token.Gap`).  That is all there is to the tokens of a text: it
has certain tokens exactly if each of them fits and the text consists of their texts with such gaps
in between (`tokens_eq_iff`).  The gaps may as well be empty, so the texts of the tokens one after
the other have the same tokens again. -/

namespace SearchFilter.Token

variable {previous : Option Token} {token : Token} {tokens : List Token} {s w rest : Text}

/-! ### Neighbours -/

/-- The token may be the next one behind `previous`, or the first one. -/
def Fits (previous : Option Token) : Token → Prop
  | openParen | closeParen => True
  | and | or | not => previous = some openParen
  | assertion text =>
    (∀ other, previous ≠ some (assertion other)) ∧ text ≠ [] ∧ text.Plain ∧ text.Flush ∧
      (previous = some openParen → ∀ c ∈ text.head?, c ≠ '&' ∧ c ≠ '|' ∧ c ≠ '!')

/-- Each of the tokens fits the one in front of it, and the first one fits `previous`. -/
def Fitting : Option Token → List Token → Prop
  | _, [] => True
  | previous, token :: tokens => token.Fits previous ∧ Fitting (some token) tokens

/-- Behind an assertion the text ends or goes on with a parenthesis. -/
def Delimits (previous : Option Token) (s : Text) : Prop :=
  ∀ text, previous = some (assertion text) → ∀ c ∈ s.head?, isParen c = true

theorem operator?_eq_none_iff {c : Char} : operator? c = none ↔ c ≠ '&' ∧ c ≠ '|' ∧ c ≠ '!' := by
  unfold operator?
  split <;> simp_all

theorem Stands.fits (h : token.Stands (previous == some openParen) rest)
    (hprevious : Delimits previous (token.text ++ rest)) : token.Fits previous := by
  cases token with
  | openParen => trivial
  | closeParen => trivial
  | and => exact eq_of_beq h
  | or => exact eq_of_beq h
  | not => exact eq_of_beq h
  | assertion text =>
      obtain ⟨hne, hflush, hplain, -, hop⟩ := h
      refine ⟨?_, hne, hplain, hflush, ?_⟩
      · rintro other rfl
        obtain ⟨c, t, rfl⟩ := List.exists_cons_of_ne_nil hne
        have hparen : isParen c = true := hprevious other rfl c rfl
        rw [hplain c List.mem_cons_self] at hparen
        cases hparen
      · rintro rfl c hc
        exact operator?_eq_none_iff.mp (hop rfl c hc)

theorem Fits.stands (h : token.Fits previous) (hrest : Delimits (some token) rest) :
    token.Stands (previous == some openParen) rest := by
  cases token with
  | openParen => trivial
  | closeParen => trivial
  | and => exact beq_of_eq h
  | or => exact beq_of_eq h
  | not => exact beq_of_eq h
  | assertion text =>
      obtain ⟨-, hne, hplain, hflush, hop⟩ := h
      refine ⟨hne, hflush, hplain, hrest text rfl, fun hopen c hc => ?_⟩
      exact operator?_eq_none_iff.mpr (hop (eq_of_beq hopen) c hc)

theorem Stands.delimits {afterOpen : Bool} (h : token.Stands afterOpen rest) :
    Delimits (some token) rest := by
  rintro text ⟨⟩
  exact h.2.2.2.1

theorem Fits.delimits (h : token.Fits previous) (rest : Text) :
    Delimits previous (token.text ++ rest) := by
  rintro text rfl c hc
  cases token with
  | openParen => cases hc; rfl
  | closeParen => cases hc; rfl
  | assertion other => exact absurd rfl (h.1 text)
  | _ => cases h

theorem Fitting.fits : ∀ {before : List Token} {previous : Option Token} {token : Token}
    {after : List Token}, Fitting previous (before ++ token :: after) →
    token.Fits (before.getLast?.or previous)
  | [], _, _, _, h => h.1
  | other :: before, _, token, _, h => by
      have hlater : token.Fits (before.getLast?.or (some other)) := Fitting.fits h.2
      simpa [List.getLast?_cons] using hlater

/-! ### Gaps -/

/-- The blanks may stand behind `previous`, or at the start.  An assertion takes the blanks behind it
as its own. -/
def Gap (previous : Option Token) (w : Text) : Prop :=
  w.Blank ∧ ∀ text, previous = some (assertion text) → w = []

/-- `Spaced previous tokens s`: the text consists of the texts of the tokens, with gaps in front of
each of them and at the end. -/
inductive Spaced : Option Token → List Token → Text → Prop
  | stop {previous : Option Token} {w : Text} : Gap previous w → Spaced previous [] w
  | token {previous : Option Token} {w rest : Text} {token : Token} {tokens : List Token} :
      Gap previous w → Spaced (some token) tokens rest →
      Spaced previous (token :: tokens) (w ++ (token.text ++ rest))

def texts (tokens : List Token) : Text := tokens.flatMap text

theorem gap_nil : Gap previous [] := ⟨Text.blank_nil, fun _ _ => rfl⟩

theorem spaced_texts : ∀ (previous : Option Token) (tokens : List Token),
    Spaced previous tokens (texts tokens)
  | _, [] => .stop gap_nil
  | _, token :: tokens => .token gap_nil (spaced_texts (some token) tokens)

theorem isBlank_of_isParen {c : Char} (h : isParen c = true) : isBlank c = false := by
  rcases (by simpa [isParen] using h : c = '(' ∨ c = ')') with rfl | rfl <;> decide

theorem Delimits.gap (h : Delimits previous (w ++ s)) (hw : w.Blank) : Gap previous w := by
  refine ⟨hw, fun text e => ?_⟩
  cases w with
  | nil => rfl
  | cons c w =>
      have hblank : isBlank c = true := hw c List.mem_cons_self
      rw [isBlank_of_isParen (h text e c rfl)] at hblank
      cases hblank

theorem Spaced.delimits (h : Spaced previous tokens s) (hfitting : Fitting previous tokens) :
    Delimits previous s := by
  rintro text rfl
  cases h with
  | stop hgap => simp [hgap.2 text rfl]
  | token hgap hlater =>
      rw [hgap.2 text rfl]
      exact hfitting.1.delimits _ text rfl

/-! ### Tokens and texts -/

/-- The tokens of a text fit and make up the text. -/
theorem fitting_of_scan : ∀ {tokens : List Token} {previous : Option Token} {s : Text},
    Delimits previous s → scan (previous == some openParen) s = tokens →
    Fitting previous tokens ∧ Spaced previous tokens s
  | [], _, s, hdelimits, h => by
      rw [← List.append_nil s] at hdelimits
      exact ⟨trivial, .stop (hdelimits.gap (scan_eq_nil_iff.mp h))⟩
  | token :: tokens, previous, _, hdelimits, h => by
      obtain ⟨w, rest, hw, rfl, hstands, hlater⟩ := scan_eq_cons_iff.mp h
      have hgap := hdelimits.gap hw
      have hhere : Delimits previous (token.text ++ rest) := by
        intro text e
        have hhead := hdelimits text e
        rwa [hgap.2 text e, List.nil_append] at hhead
      obtain ⟨hfitting, hspaced⟩ := fitting_of_scan hstands.delimits hlater
      exact ⟨⟨hstands.fits hhere, hfitting⟩, .token hgap hspaced⟩

/-- Fitting tokens are found again in a text that they make up. -/
theorem scan_of_spaced (h : Spaced previous tokens s) (hfitting : Fitting previous tokens) :
    scan (previous == some openParen) s = tokens := by
  induction h with
  | stop hgap => exact scan_eq_nil_iff.mpr hgap.1
  | token hgap hlater ih =>
      obtain ⟨hfits, hfitting⟩ := hfitting
      have hstands := hfits.stands (hlater.delimits hfitting)
      exact scan_eq_cons_iff.mpr ⟨_, _, hgap.1, rfl, hstands, ih hfitting⟩

/-- **The tokens of a text** are those that fit and make up the text. -/
theorem tokens_eq_iff : Token.tokens s = tokens ↔ Fitting none tokens ∧ Spaced none tokens s := by
  have hstart : Delimits none s := by
    intro text h
    cases h
  exact ⟨fitting_of_scan hstart, fun ⟨hfitting, hspaced⟩ => scan_of_spaced hspaced hfitting⟩

/-- **Tokens lose nothing but blanks, and they are stable**: the text is made up of their texts with
blanks in front of each and at the end, each token fits the one in front of it, and their texts
alone have the same tokens again. -/
theorem tokens_texts_tokens (s : Text) :
    Spaced none (Token.tokens s) s ∧
      (∀ before token after, Token.tokens s = before ++ token :: after →
        token.Fits before.getLast?) ∧
      Token.tokens (texts (Token.tokens s)) = Token.tokens s := by
  obtain ⟨hfitting, hspaced⟩ := tokens_eq_iff.mp (Eq.refl (Token.tokens s))
  refine ⟨hspaced, fun before token after h => ?_, tokens_eq_iff.mpr ⟨hfitting, spaced_texts _ _⟩⟩
  rw [h] at hfitting
  simpa using hfitting.fits

end SearchFilter.Token
