import Mathlib.Data.List.Forall2

/-! # Steps that may fail

A computation in `Except` goes from step to step and stops at the first one that fails.  What two
steps, a step for each element of a list, and a run over a list give is said here once, for any
error and any result. -/

namespace SearchFilter

variable {ε α β : Type}

/-! ### Two steps -/

theorem bind_eq_ok_iff {first : Except ε α} {second : α → Except ε β} {b : β} :
    first >>= second = .ok b ↔ ∃ a, first = .ok a ∧ second a = .ok b := by
  cases first with
  | error e => exact ⟨fun h => (by cases h), fun ⟨_, h, _⟩ => (by cases h)⟩
  | ok a => exact ⟨fun h => ⟨a, rfl, h⟩, fun ⟨_, h, h'⟩ => (by cases h; exact h')⟩

theorem bind_eq_error_iff {first : Except ε α} {second : α → Except ε β} {error : ε} :
    first >>= second = .error error ↔
      first = .error error ∨ ∃ a, first = .ok a ∧ second a = .error error := by
  cases first with
  | error e =>
      refine ⟨fun h => .inl (by cases h; rfl), ?_⟩
      rintro (h | ⟨_, h, -⟩) <;> cases h
      rfl
  | ok a =>
      refine ⟨fun h => .inr ⟨a, rfl, h⟩, ?_⟩
      rintro (h | ⟨_, h, hsecond⟩) <;> cases h
      exact hsecond

/-! ### A step for each element -/

section mapM

variable {step : α → Except ε β}

theorem mapM_eq_ok_iff : ∀ {as : List α} {bs : List β},
    as.mapM step = .ok bs ↔ List.Forall₂ (fun a b => step a = .ok b) as bs
  | [], bs => by
      rw [List.mapM_nil, List.forall₂_nil_left_iff]
      exact ⟨fun h => (by cases h; rfl), fun h => h ▸ rfl⟩
  | a :: as, bs => by
      rw [List.mapM_cons, bind_eq_ok_iff, List.forall₂_cons_left_iff]
      constructor
      · rintro ⟨b, hb, h⟩
        obtain ⟨bs', hbs, h⟩ := bind_eq_ok_iff.mp h
        cases h
        exact ⟨b, bs', hb, mapM_eq_ok_iff.mp hbs, rfl⟩
      · rintro ⟨b, bs', hb, hbs, rfl⟩
        exact ⟨b, hb, bind_eq_ok_iff.mpr ⟨bs', mapM_eq_ok_iff.mpr hbs, rfl⟩⟩

/-- A list of steps fails with the first of them that does. -/
theorem mapM_eq_error_iff {error : ε} : ∀ {as : List α},
    as.mapM step = .error error ↔ ∃ before a later, as = before ++ a :: later ∧
      (∀ b ∈ before, ∃ c, step b = .ok c) ∧ step a = .error error
  | [] => by
      refine ⟨fun h => (by cases h), ?_⟩
      rintro ⟨before, a, later, h, -⟩
      simp at h
  | a :: as => by
      rw [List.mapM_cons, bind_eq_error_iff]
      constructor
      · rintro (hfails | ⟨b, hb, h⟩)
        · exact ⟨[], a, as, rfl, by simp, hfails⟩
        · rcases bind_eq_error_iff.mp h with h | ⟨bs, -, h⟩
          · obtain ⟨before, a', later, rfl, hbefore, hfails⟩ := mapM_eq_error_iff.mp h
            exact ⟨a :: before, a', later, rfl, List.forall_mem_cons.mpr ⟨⟨b, hb⟩, hbefore⟩, hfails⟩
          · cases h
      · rintro ⟨before, a', later, h, hbefore, hfails⟩
        cases before with
        | nil =>
            cases h
            exact .inl hfails
        | cons first before =>
            cases h
            obtain ⟨⟨b, hb⟩, hbefore⟩ := List.forall_mem_cons.mp hbefore
            have hlater := mapM_eq_error_iff.mpr ⟨before, a', later, rfl, hbefore, hfails⟩
            exact .inr ⟨b, hb, bind_eq_error_iff.mpr (.inl hlater)⟩

end mapM

/-! ### A run -/

/-- A run that fails does so at one of its steps, and the steps in front of it succeed. -/
theorem exists_of_foldlM_eq_error {σ : Type} {step : σ → α → Except ε σ} {error : ε} :
    ∀ {as : List α} {s : σ}, as.foldlM step s = .error error →
      ∃ before a after s', as = before ++ a :: after ∧ before.foldlM step s = .ok s' ∧
        step s' a = .error error
  | [], s, h => by cases h
  | a :: as, s, h => by
      rw [List.foldlM_cons] at h
      rcases bind_eq_error_iff.mp h with hfails | ⟨s₁, hstep, h⟩
      · exact ⟨[], a, as, s, rfl, rfl, hfails⟩
      · obtain ⟨before, b, after, s', rfl, hbefore, hfails⟩ := exists_of_foldlM_eq_error h
        refine ⟨a :: before, b, after, s', rfl, ?_, hfails⟩
        rw [List.foldlM_cons]
        exact bind_eq_ok_iff.mpr ⟨s₁, hstep, hbefore⟩

end SearchFilter
