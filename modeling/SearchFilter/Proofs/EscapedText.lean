import SearchFilter.Escape
import SearchFilter.Proofs.Lexing

/-! # Escaped texts

A reserved character is escaped to a backslash and two hexadecimal digits; every other character
stands for itself.  So an escaped value holds no parenthesis and no `*` (`plain_escape`,
`star_notMem_escape`), and the blanks at its ends are those of the value (`trim_escape`).

The backslash is escaped too, and so every backslash in an escaped value begins a code
(`exists_code_of_escape_eq`).  From its start on, what a character is escaped to can be told from
whatever follows (`escapeChar_append_inj`), so that no two values are escaped alike (`lossless`). -/

namespace SearchFilter.Escape

/-! ### One character -/

/-- The escapes of the reserved characters. -/
def codes : List Text := ["\\2a", "\\28", "\\29", "\\5c", "\\00"]

theorem escapeChar_mem_codes {c : Char} (h : isReserved c = true) : escapeChar c ∈ codes := by
  rcases isReserved_iff.mp h with rfl | rfl | rfl | rfl | rfl <;> decide

theorem eq_of_escapeChar_eq {c d : Char} (hc : isReserved c = true) (hd : isReserved d = true)
    (h : escapeChar c = escapeChar d) : c = d := by
  rcases isReserved_iff.mp hc with rfl | rfl | rfl | rfl | rfl <;>
    rcases isReserved_iff.mp hd with rfl | rfl | rfl | rfl | rfl <;> revert h <;> decide

theorem eq_backslash_of_mem_escapeChar {c d : Char} (hd : d ∈ escapeChar c)
    (h : isReserved d = true) : d = '\\' := by
  cases hc : isReserved c with
  | false =>
      rw [escapeChar_eq_self hc, List.mem_singleton] at hd
      rw [hd, hc] at h
      cases h
  | true =>
      obtain ⟨x, y, e, hx, hy, -⟩ := exists_escapeChar hc
      rw [e] at hd
      have hne : d ≠ x ∧ d ≠ y := by
        constructor
        · rintro rfl
          rw [hx] at h
          cases h
        · rintro rfl
          rw [hy] at h
          cases h
      simpa [hne] using hd

theorem trimmed_escapeChar {c : Char} (h : isBlank c = false) : Text.Trimmed (escapeChar c) := by
  cases hc : isReserved c with
  | false =>
      rw [escapeChar_eq_self hc]
      simp [Text.Trimmed, h]
  | true =>
      obtain ⟨x, y, e, -, -, hy⟩ := exists_escapeChar hc
      have hbackslash : isBlank '\\' = false := by decide
      rw [e]
      simp [Text.Trimmed, hbackslash, hy]

theorem escapeChar_append_inj {c d : Char} {s t : Text}
    (h : escapeChar c ++ s = escapeChar d ++ t) : c = d ∧ s = t := by
  cases hc : isReserved c with
  | false =>
      rw [escapeChar_eq_self hc] at h
      cases hd : isReserved d with
      | false =>
          rw [escapeChar_eq_self hd] at h
          exact List.cons.inj h
      | true =>
          obtain ⟨x, y, e, -⟩ := exists_escapeChar hd
          rw [e] at h
          cases h
          cases hc
  | true =>
      cases hd : isReserved d with
      | false =>
          obtain ⟨x, y, e, -⟩ := exists_escapeChar hc
          rw [escapeChar_eq_self hd, e] at h
          cases h
          cases hd
      | true =>
          have hlength : (escapeChar c).length = (escapeChar d).length := by
            obtain ⟨x, y, e, -⟩ := exists_escapeChar hc
            obtain ⟨x', y', e', -⟩ := exists_escapeChar hd
            rw [e, e']
            rfl
          obtain ⟨hcode, hrest⟩ := List.append_inj h hlength
          exact ⟨eq_of_escapeChar_eq hc hd hcode, hrest⟩

/-! ### Values -/

/-- **The backslash is the only reserved character in an escaped value.** -/
theorem eq_backslash_of_mem_escape {value : Text} {d : Char} (hd : d ∈ escape value)
    (h : isReserved d = true) : d = '\\' := by
  obtain ⟨c, -, hd⟩ := List.mem_flatMap.mp hd
  exact eq_backslash_of_mem_escapeChar hd h

theorem star_notMem_escape (value : Text) : '*' ∉ escape value := by
  intro h
  exact absurd (eq_backslash_of_mem_escape h rfl) (by decide)

theorem plain_escape (value : Text) : (escape value).Plain := by
  rw [Text.plain_iff]
  constructor
  · intro hopen
    exact absurd (eq_backslash_of_mem_escape hopen rfl) (by decide)
  · intro hclose
    exact absurd (eq_backslash_of_mem_escape hclose rfl) (by decide)

theorem escape_eq_self {v : Text} (h : ∀ c ∈ v, isReserved c = false) : escape v = v := by
  induction v with
  | nil => rfl
  | cons c v ih =>
      obtain ⟨hc, hv⟩ := List.forall_mem_cons.mp h
      rw [escape_cons, escapeChar_eq_self hc, ih hv]
      rfl

theorem length_le_length_escape (v : Text) : v.length ≤ (escape v).length := by
  induction v with
  | nil => exact Nat.le_refl 0
  | cons c v ih =>
      have hpos : 0 < (escapeChar c).length := List.length_pos_iff.mpr (escapeChar_ne_nil c)
      rw [escape_cons, List.length_append, List.length_cons]
      omega

/-- **Only a value without reserved characters is left alone**: any other one gets longer. -/
theorem escape_eq_self_iff {v : Text} : escape v = v ↔ ∀ c ∈ v, isReserved c = false := by
  refine ⟨fun h => ?_, escape_eq_self⟩
  induction v with
  | nil => simp
  | cons c v ih =>
      rw [escape_cons] at h
      cases hc : isReserved c with
      | false =>
          rw [escapeChar_eq_self hc] at h
          exact List.forall_mem_cons.mpr ⟨hc, ih (List.cons.inj h).2⟩
      | true =>
          obtain ⟨x, y, e, -⟩ := exists_escapeChar hc
          have hlength := congrArg List.length h
          have hle := length_le_length_escape v
          rw [e] at hlength
          simp only [List.length_append, List.length_cons, List.length_nil] at hlength
          omega

theorem eq_nil_of_escapeChar_eq {c : Char} (hc : isReserved c = true) {before after : Text}
    (h : escapeChar c = before ++ '\\' :: after) : before = [] := by
  obtain ⟨x, y, e, hx, hy, -⟩ := exists_escapeChar hc
  rw [e] at h
  cases before with
  | nil => rfl
  | cons b before =>
      have hmem : '\\' ∈ [x, y] := by
        rw [(List.cons.inj h).2]
        simp
      have hcode : ∀ d ∈ [x, y], isReserved d = false := by simp [hx, hy]
      exact absurd (hcode _ hmem) (by decide)

/-- **Every backslash in an escaped value begins a code.** -/
theorem exists_code_of_escape_eq : ∀ {v before after : Text},
    escape v = before ++ '\\' :: after → ∃ code ∈ codes, code <+: '\\' :: after
  | [], before, after, h => by simp at h
  | c :: v, before, after, h => by
      rw [escape_cons] at h
      -- Either the backslash stands behind the escape of `c`, or it belongs to it.
      rcases List.append_eq_append_iff.mp h with ⟨middle, -, hv⟩ | ⟨middle, hc, hv⟩
      · exact exists_code_of_escape_eq hv
      · cases middle with
        | nil =>
            have hstart : escape v = [] ++ '\\' :: after := hv.symm
            exact exists_code_of_escape_eq hstart
        | cons d middle =>
            cases hv
            -- In the escape of `c` it can only be the first character.
            cases hreserved : isReserved c with
            | false =>
                have hmem : '\\' ∈ escapeChar c := by simp [hc]
                rw [escapeChar_eq_self hreserved, List.mem_singleton] at hmem
                cases hmem
                cases hreserved
            | true =>
                have hbefore : before = [] := eq_nil_of_escapeChar_eq hreserved hc
                refine ⟨escapeChar c, escapeChar_mem_codes hreserved, escape v, ?_⟩
                rw [hc, hbefore]
                rfl

theorem escape_injective : ∀ {v w : Text}, escape v = escape w → v = w
  | [], [], _ => rfl
  | [], d :: w, h => by simp [escape_cons, escapeChar_ne_nil] at h
  | c :: v, [], h => by simp [escape_cons, escapeChar_ne_nil] at h
  | c :: v, d :: w, h => by
      rw [escape_cons, escape_cons] at h
      obtain ⟨rfl, hrest⟩ := escapeChar_append_inj h
      rw [escape_injective hrest]

/-- **Escaping loses nothing and touches only what it must.**  Values can be escaped piece by piece,
and a value without reserved characters may be passed over; no two values are escaped alike; of the
reserved characters only the backslash is left, at the start of each code; and a value stays as it
is only if it holds none of them. -/
theorem lossless (v w : Text) :
    (escape v = escape w ↔ v = w) ∧
    escape (v ++ w) = escape v ++ escape w ∧
    escape v = (if v.any isReserved then v.flatMap escapeChar else v) ∧
    (∀ c ∈ escape v, c ≠ '*' ∧ c ≠ '(' ∧ c ≠ ')' ∧ c ≠ '\x00') ∧
    (∀ before after, escape v = before ++ '\\' :: after → ∃ code ∈ codes, code <+: '\\' :: after) ∧
    (escape v = v ↔ ∀ c ∈ v, c ∉ (['*', '(', ')', '\\', '\x00'] : Text)) := by
  have hself : escape v = v ↔ ∀ c ∈ v, c ∉ (['*', '(', ')', '\\', '\x00'] : Text) := by
    simp only [escape_eq_self_iff, List.mem_cons, List.not_mem_nil, or_false, ← isReserved_iff,
      Bool.not_eq_true]
  refine ⟨⟨escape_injective, congrArg escape⟩, escape_append v w, ?_, fun c hc => ?_,
    fun _ _ => exists_code_of_escape_eq, hself⟩
  · split
    · rfl
    · rename_i hany
      exact escape_eq_self (by simpa using hany)
  · have hbackslash := eq_backslash_of_mem_escape hc
    refine ⟨?_, ?_, ?_, ?_⟩ <;> rintro rfl <;> exact absurd (hbackslash rfl) (by decide)

/-! ### Blanks at the ends -/

theorem isReserved_of_isBlank {c : Char} (h : isBlank c = true) : isReserved c = false := by
  cases hr : isReserved c with
  | false => rfl
  | true =>
      rcases isReserved_iff.mp hr with rfl | rfl | rfl | rfl | rfl <;> exact absurd h (by decide)

theorem escape_of_blank {w : Text} (hw : w.Blank) : escape w = w :=
  escape_eq_self fun c hc => isReserved_of_isBlank (hw c hc)

theorem trimmed_escape {value : Text} (h : value.Trimmed) : (escape value).Trimmed := by
  constructor
  · cases value with
    | nil => simp
    | cons c t =>
        have hc := trimmed_escapeChar (Text.flush_cons.mp h.1)
        exact hc.1.append_of_ne_nil (escapeChar_ne_nil c)
  · cases value using List.reverseRecOn with
    | nil => simp
    | append_singleton t c =>
        have hc := trimmed_escapeChar (h.2 c (by simp))
        have e : escape [c] = escapeChar c := by simp [escape]
        intro d hd
        rw [escape_append, e, List.getLast?_append_of_ne_nil _ (escapeChar_ne_nil c)] at hd
        exact hc.2 d hd

/-- **Escaping and trimming can be done in either order.** -/
theorem trim_escape (value : Text) : (escape value).trim = escape value.trim := by
  obtain ⟨w, w', hw, hw', e⟩ := Text.exists_trim value
  conv_lhs => rw [e, escape_append, escape_append, escape_of_blank hw, escape_of_blank hw']
  exact Text.trim_append hw (trimmed_escape (Text.trimmed_trim value)) hw'

end SearchFilter.Escape
