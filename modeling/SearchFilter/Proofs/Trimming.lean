import Mathlib.Data.List.DropRight
import Mathlib.Data.List.TakeWhile
import SearchFilter.Text.Basic

/-! # Blanks at the ends of a text

Trimming takes a text apart into blanks, a text without blanks at its ends, and blanks again
(`exists_trim`), and there is only one way to do so (`trim_append`).  Hence a text is what trimming
leaves of it exactly when neither its first nor its last character is blank (`trim_eq_self`). -/

namespace SearchFilter

/-! ### Runs of characters -/

section runs

variable {α : Type} {p : α → Bool}

theorem takeWhile_append_of_head {run rest : List α} (hrun : ∀ c ∈ run, p c = true)
    (hrest : ∀ c ∈ rest.head?, p c = false) : (run ++ rest).takeWhile p = run := by
  rw [List.takeWhile_append_of_pos hrun]
  cases rest with
  | nil => simp
  | cons c rest =>
      have hc : p c = false := hrest c rfl
      simp [hc]

theorem dropWhile_append_of_head {run rest : List α} (hrun : ∀ c ∈ run, p c = true)
    (hrest : ∀ c ∈ rest.head?, p c = false) : (run ++ rest).dropWhile p = rest := by
  rw [List.dropWhile_append_of_pos hrun]
  cases rest with
  | nil => rfl
  | cons c rest =>
      have hc : p c = false := hrest c rfl
      simp [hc]

theorem run_append_inj {run run' rest rest' : List α} (hrun : ∀ c ∈ run, p c = true)
    (hrun' : ∀ c ∈ run', p c = true) (hrest : ∀ c ∈ rest.head?, p c = false)
    (hrest' : ∀ c ∈ rest'.head?, p c = false) (h : run ++ rest = run' ++ rest') :
    run = run' ∧ rest = rest' := by
  have htake := congrArg (List.takeWhile p) h
  have hdrop := congrArg (List.dropWhile p) h
  rw [takeWhile_append_of_head hrun hrest, takeWhile_append_of_head hrun' hrest'] at htake
  rw [dropWhile_append_of_head hrun hrest, dropWhile_append_of_head hrun' hrest'] at hdrop
  exact ⟨htake, hdrop⟩

theorem head?_dropWhile_eq_false {l : List α} : ∀ c ∈ (l.dropWhile p).head?, p c = false := by
  intro c hc
  have h := List.head?_dropWhile_not p l
  rw [Option.mem_def.mp hc] at h
  simpa using h

end runs

namespace Text

/-! ### Blank texts and trimmed texts -/

/-- The text holds nothing but blanks. -/
def Blank (t : Text) : Prop := ∀ c ∈ t, isBlank c = true

/-- The text does not start with a blank. -/
def Flush (t : Text) : Prop := ∀ c ∈ t.head?, isBlank c = false

/-- The text has no blank at its start nor at its end. -/
def Trimmed (t : Text) : Prop := t.Flush ∧ ∀ c ∈ t.getLast?, isBlank c = false

instance (t : Text) : Decidable t.Blank := List.decidableBAll (fun c => isBlank c = true) t

instance (t : Text) : Decidable t.Trimmed :=
  @instDecidableAnd t.Flush _ (Option.decidableForallMem t.head?)
    (Option.decidableForallMem t.getLast?)

@[simp] theorem blank_nil : Blank [] := by simp [Blank]

theorem Blank.append {v w : Text} (hv : v.Blank) (hw : w.Blank) : Blank (v ++ w) := by
  intro c hc
  rcases List.mem_append.mp hc with hc | hc
  · exact hv c hc
  · exact hw c hc

@[simp] theorem flush_nil : Flush [] := by simp [Flush]

@[simp] theorem flush_cons {c : Char} {t : Text} : Flush (c :: t) ↔ isBlank c = false := by
  simp [Flush]

theorem Flush.append_of_ne_nil {t u : Text} (ht : t.Flush) (hne : t ≠ []) : Flush (t ++ u) := by
  obtain ⟨c, t, rfl⟩ := List.exists_cons_of_ne_nil hne
  simpa using ht

theorem Blank.eq_nil {w : Text} (hw : w.Blank) (hf : w.Flush) : w = [] := by
  cases w with
  | nil => rfl
  | cons c w =>
      have h1 : isBlank c = true := hw c List.mem_cons_self
      have h2 : isBlank c = false := flush_cons.mp hf
      rw [h1] at h2
      cases h2

theorem Blank.eq_nil_of_flush_append {w t : Text} (hw : w.Blank) (h : Flush (w ++ t)) : w = [] := by
  cases w with
  | nil => rfl
  | cons c w => exact Blank.eq_nil hw (flush_cons.mpr (flush_cons.mp h))

/-! ### The start -/

theorem flush_trimStart (t : Text) : t.trimStart.Flush := head?_dropWhile_eq_false

theorem trimStart_append {w t : Text} (hw : w.Blank) : trimStart (w ++ t) = t.trimStart :=
  List.dropWhile_append_of_pos hw

theorem Blank.trimStart_eq_nil {w : Text} (hw : w.Blank) : w.trimStart = [] := by
  have e : trimStart (w ++ []) = [] := trimStart_append hw
  rwa [List.append_nil] at e

theorem trimStart_eq_self {t : Text} (ht : t.Flush) : t.trimStart = t := by
  cases t with
  | nil => rfl
  | cons c t =>
      have hc : isBlank c = false := flush_cons.mp ht
      exact List.dropWhile_cons_of_neg (by simp [hc])

theorem exists_trimStart (t : Text) : ∃ w : Text, w.Blank ∧ t = w ++ t.trimStart :=
  ⟨t.takeWhile isBlank, fun _ hc => List.mem_takeWhile_imp hc,
    List.takeWhile_append_dropWhile.symm⟩

/-! ### Both ends -/

theorem trimEnd_append {t w : Text} (hw : w.Blank) (ht : ∀ c ∈ t.getLast?, isBlank c = false) :
    trimEnd (t ++ w) = t := by
  unfold trimEnd
  rw [List.reverse_append, dropWhile_append_of_head, List.reverse_reverse]
  · intro c hc
    exact hw c (List.mem_reverse.mp hc)
  · rw [List.head?_reverse]
    exact ht

theorem exists_trimEnd (t : Text) : ∃ w : Text, w.Blank ∧ t = t.trimEnd ++ w := by
  obtain ⟨w, hw, e⟩ := exists_trimStart t.reverse
  refine ⟨w.reverse, fun c hc => hw c (List.mem_reverse.mp hc), ?_⟩
  have := congrArg List.reverse e
  rwa [List.reverse_reverse, List.reverse_append] at this

theorem getLast?_trimEnd (t : Text) : ∀ c ∈ t.trimEnd.getLast?, isBlank c = false := by
  unfold trimEnd
  rw [List.getLast?_reverse]
  exact head?_dropWhile_eq_false

theorem notBlank_getLast?_concat {t : Text} {c : Char} (hc : isBlank c = false) :
    ∀ d ∈ (t ++ [c]).getLast?, isBlank d = false := by
  intro d hd
  rw [List.getLast?_concat] at hd
  cases hd
  exact hc

theorem Flush.trimEnd {t : Text} (ht : t.Flush) : t.trimEnd.Flush := by
  obtain ⟨w, -, e⟩ := exists_trimEnd t
  intro c hc
  apply ht c
  rw [e, List.head?_append, Option.mem_def.mp hc]
  rfl

theorem trimmed_trim (t : Text) : t.trim.Trimmed :=
  ⟨(flush_trimStart t).trimEnd, getLast?_trimEnd _⟩

/-- Blanks around a trimmed text are all that trimming takes away. -/
theorem trim_append {w t w' : Text} (hw : w.Blank) (ht : t.Trimmed) (hw' : w'.Blank) :
    trim (w ++ t ++ w') = t := by
  unfold trim
  rw [List.append_assoc, trimStart_append hw]
  cases t with
  | nil =>
      rw [List.nil_append, hw'.trimStart_eq_nil]
      rfl
  | cons c t =>
      rw [trimStart_eq_self, trimEnd_append hw' ht.2]
      simpa using ht.1

theorem trim_eq_self {t : Text} (ht : t.Trimmed) : t.trim = t := by
  simpa using trim_append blank_nil ht blank_nil

/-- Every text is a trimmed text between blanks. -/
theorem exists_trim (t : Text) :
    ∃ w w' : Text, w.Blank ∧ w'.Blank ∧ t = w ++ t.trim ++ w' := by
  obtain ⟨w, hw, e⟩ := exists_trimStart t
  obtain ⟨w', hw', e'⟩ := exists_trimEnd t.trimStart
  refine ⟨w, w', hw, hw', ?_⟩
  rw [List.append_assoc]
  unfold trim
  rw [← e', ← e]

theorem trim_infix (t : Text) : t.trim <:+: t := by
  obtain ⟨w, w', -, -, e⟩ := exists_trim t
  exact ⟨w, w', e.symm⟩

theorem blank_of_trim_eq_nil {t : Text} (h : t.trim = []) : t.Blank := by
  obtain ⟨w, w', hw, hw', e⟩ := exists_trim t
  rw [e, h, List.append_nil]
  exact hw.append hw'

/-! ### The end of a longer text -/

theorem trimEnd_append_of_trimmed {t u : Text} (hlast : ∀ c ∈ t.getLast?, isBlank c = false) :
    trimEnd (t ++ u) = t ++ u.trimEnd := by
  obtain ⟨w, hw, e⟩ := exists_trimEnd u
  conv_lhs => rw [e, ← List.append_assoc]
  apply trimEnd_append hw
  intro c hc
  rw [List.getLast?_append] at hc
  cases hu : u.trimEnd.getLast? with
  | none =>
      rw [hu] at hc
      exact hlast c hc
  | some d =>
      rw [hu] at hc
      cases hc
      exact getLast?_trimEnd u c hu

theorem trimEnd_append_cons {c : Char} (hc : isBlank c = false) (t u : Text) :
    trimEnd (t ++ c :: u) = t ++ c :: u.trimEnd := by
  have hlast : ∀ d ∈ (t ++ [c]).getLast?, isBlank d = false := notBlank_getLast?_concat hc
  simpa using trimEnd_append_of_trimmed (u := u) hlast

theorem trimEnd_eq_nil_iff {t : Text} : t.trimEnd = [] ↔ t.Blank := by
  obtain ⟨w, hw, e⟩ := exists_trimEnd t
  constructor
  · intro h
    rw [e, h]
    exact hw
  · intro h
    simpa using trimEnd_append (t := []) h (by simp)

/-- What follows a text keeps its blank end to itself. -/
theorem trimEnd_append_of_not_blank {u : Text} (hu : ¬ u.Blank) (t : Text) :
    trimEnd (t ++ u) = t ++ u.trimEnd := by
  obtain ⟨w, hw, e⟩ := exists_trimEnd u
  conv_lhs => rw [e, ← List.append_assoc]
  apply trimEnd_append hw
  rw [List.getLast?_append_of_ne_nil _ (mt trimEnd_eq_nil_iff.mp hu)]
  exact getLast?_trimEnd u

theorem trimEnd_append_blank {w : Text} (hw : w.Blank) (t : Text) :
    trimEnd (t ++ w) = t.trimEnd := by
  obtain ⟨w', hw', e⟩ := exists_trimEnd t
  conv_lhs => rw [e, List.append_assoc]
  exact trimEnd_append (hw'.append hw) (getLast?_trimEnd t)

theorem head?_trimEnd {t : Text} (ht : ¬ t.Blank) : t.trimEnd.head? = t.head? := by
  obtain ⟨w, -, e⟩ := exists_trimEnd t
  conv_rhs => rw [e]
  rw [List.head?_append_of_ne_nil _ (mt trimEnd_eq_nil_iff.mp ht)]

theorem trim_trimEnd (t : Text) : t.trimEnd.trim = t.trim := by
  obtain ⟨w, w', hw, hw', e⟩ := exists_trim t
  cases hc : t.trim with
  | nil =>
      rw [hc, List.append_nil] at e
      have hnil : t.trimEnd = [] := by
        have := trimEnd_append (t := []) (hw.append hw') (by simp)
        rwa [List.nil_append, ← e] at this
      rw [hnil]
      rfl
  | cons c u =>
      have ht : Trimmed (c :: u) := hc ▸ trimmed_trim t
      have hend : t.trimEnd = w ++ (c :: u) := by
        rw [e, hc]
        apply trimEnd_append hw'
        rw [List.getLast?_append_of_ne_nil _ (List.cons_ne_nil c u)]
        exact ht.2
      rw [hend]
      have := trim_append hw ht blank_nil
      rwa [List.append_nil] at this

end Text
end SearchFilter
