import SearchFilter.Filter.Token
import SearchFilter.Filter.Component

/-! # Relative distinguished names

A relative distinguished name, such as `cn=Barbara Jensen+uid=bjensen`, names an entry by
attributes and their values.  The pairs are joined by `+`; a backslash keeps the character after
it from being a separator, and stays in the value. -/

namespace SearchFilter.Rdn

/-- The characters in front of the first piece. -/
def prepend (start : Text) : List Text → List Text
  | [] => [start]
  | piece :: pieces => (start ++ piece) :: pieces

theorem prepend_nil {pieces : List Text} (h : pieces ≠ []) : prepend [] pieces = pieces := by
  obtain ⟨piece, pieces, rfl⟩ := List.exists_cons_of_ne_nil h
  rfl

theorem prepend_append (s t : Text) (pieces : List Text) :
    prepend (s ++ t) pieces = prepend s (prepend t pieces) := by
  cases pieces with
  | nil => rfl
  | cons piece pieces => simp only [prepend, List.append_assoc]

theorem prepend_ne_nil (start : Text) (pieces : List Text) : prepend start pieces ≠ [] := by
  cases pieces <;> exact List.cons_ne_nil _ _

/-- The pieces of a text between the separators that no backslash escapes. -/
def splitUnescaped (separator : Char) : Text → List Text
  | [] => [[]]
  | ['\\'] => [['\\']]
  | '\\' :: c :: rest => prepend ['\\', c] (splitUnescaped separator rest)
  | c :: rest =>
    if c = separator then [] :: splitUnescaped separator rest
    else prepend [c] (splitUnescaped separator rest)

theorem splitUnescaped_ne_nil (separator : Char) (t : Text) : splitUnescaped separator t ≠ [] := by
  unfold splitUnescaped
  split
  · exact List.cons_ne_nil _ _
  · exact List.cons_ne_nil _ _
  · exact prepend_ne_nil _ _
  · split
    · exact List.cons_ne_nil _ _
    · exact prepend_ne_nil _ _

theorem splitUnescaped_bare {separator c : Char} (h : c ≠ '\\') (rest : Text) :
    splitUnescaped separator (c :: rest) =
      if c = separator then [] :: splitUnescaped separator rest
      else prepend [c] (splitUnescaped separator rest) := by
  rw [splitUnescaped]
  · exact fun hc _ => h hc
  · exact fun _ _ hc _ => h hc

/-- The attribute and the value of one piece, which must be an equality. -/
def pair (piece : Text) : Except FilterError (Text × Text) :=
  match Assertion.split? piece with
  | some (.compare attr .equal value) => .ok (attr, value)
  | _ => .error (.expression piece.trim)

/-- The attributes and values of a name, in order. -/
def pairs (name : Text) : Except FilterError (List (Text × Text)) :=
  let name := name.trim
  if name.isEmpty then .error .emptyExpression
  else (splitUnescaped '+' name).mapM pair

/-- The filter for some pairs: one equality test, or all of them together. -/
def conjunction (pairs : List (Text × Text)) : Except FilterError Filter :=
  match pairs.map fun (attr, value) => Filter.assertion attr .equal value with
  | [test] => .ok test
  | tests => Combinator.and.apply tests

/-- The filter that looks an entry up by its name. -/
def filter (name : Text) : Except FilterError Filter := do
  conjunction (← pairs name)

end SearchFilter.Rdn
