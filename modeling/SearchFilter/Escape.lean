import SearchFilter.Text.Basic

/-! # Escaping values

Five characters have a meaning of their own in an assertion value: `*`, the parentheses, the
backslash and NUL.  Each is written as a backslash and its code in two hexadecimal digits, so
that a value taken from outside cannot change what a filter means. -/

namespace SearchFilter.Escape

/-- Must the character be escaped in a value? -/
def isReserved (c : Char) : Bool :=
  c == '*' || c == '(' || c == ')' || c == '\\' || c == '\x00'

theorem isReserved_iff {c : Char} :
    isReserved c = true ↔ c = '*' ∨ c = '(' ∨ c = ')' ∨ c = '\\' ∨ c = '\x00' := by
  simp [isReserved, or_assoc]

/-- One character of a value, escaped if need be. -/
def escapeChar : Char → Text
  | '*' => "\\2a"
  | '(' => "\\28"
  | ')' => "\\29"
  | '\\' => "\\5c"
  | '\x00' => "\\00"
  | c => [c]

theorem escapeChar_eq_self {c : Char} (h : isReserved c = false) : escapeChar c = [c] := by
  simp only [isReserved, Bool.or_eq_false_iff, beq_eq_false_iff_ne] at h
  obtain ⟨⟨⟨⟨hstar, hopen⟩, hclose⟩, hbackslash⟩, hnul⟩ := h
  unfold escapeChar
  split
  · exact absurd rfl hstar
  · exact absurd rfl hopen
  · exact absurd rfl hclose
  · exact absurd rfl hbackslash
  · exact absurd rfl hnul
  · rfl

theorem exists_escapeChar {c : Char} (h : isReserved c = true) :
    ∃ d e, escapeChar c = ['\\', d, e] ∧
      isReserved d = false ∧ isReserved e = false ∧ isBlank e = false := by
  rcases isReserved_iff.mp h with rfl | rfl | rfl | rfl | rfl
  · exact ⟨'2', 'a', rfl, by decide⟩
  · exact ⟨'2', '8', rfl, by decide⟩
  · exact ⟨'2', '9', rfl, by decide⟩
  · exact ⟨'5', 'c', rfl, by decide⟩
  · exact ⟨'0', '0', rfl, by decide⟩

theorem escapeChar_ne_nil (c : Char) : escapeChar c ≠ [] := by
  cases hc : isReserved c with
  | false =>
      rw [escapeChar_eq_self hc]
      exact List.cons_ne_nil _ _
  | true =>
      obtain ⟨x, y, e, -⟩ := exists_escapeChar hc
      rw [e]
      exact List.cons_ne_nil _ _

/-- The value with its reserved characters escaped. -/
def escape (value : Text) : Text := value.flatMap escapeChar

@[simp] theorem escape_nil : escape [] = [] := rfl

theorem escape_cons (c : Char) (v : Text) : escape (c :: v) = escapeChar c ++ escape v :=
  List.flatMap_cons

@[simp] theorem escape_append (v w : Text) : escape (v ++ w) = escape v ++ escape w :=
  List.flatMap_append

end SearchFilter.Escape
