import Mathlib.Data.List.Forall2
import SearchFilter.Proofs.LiteralFailures
import SearchFilter.Proofs.LiteralForm

/-! # Suggestions

For a symbol that names no combinator the error suggests the name that takes the fewest edits, the
first of equally near ones, if two edits are enough (`ofSymbol_eq_error`).

An `Edit` inserts, deletes or replaces one character, anywhere in a text, and `Edits n s t` says that
at most `n` edits turn `s` into `t`.  The edit distance is the least such number
(`editDistance_le_iff`).  The rows by which the distance is computed give the usual recursion on both
texts (`editDistance_cons_cons`).  From that recursion edits are read off at the start of the text;
and an edit anywhere changes a distance by one at most, because it does so at the start of a text
and because a character in front makes no difference to that (`near_cons`).

The symbol is compared in lower case.  Which small sigma a capital one becomes depends on its place
in a word.  It does not matter here, as no name holds either of them (`editDistance_name`). -/

namespace SearchFilter

namespace Text

/-! ### Edits -/

/-- One character is inserted, deleted or replaced. -/
inductive Edit : Text → Text → Prop
  | insert (before after : Text) (c : Char) : Edit (before ++ after) (before ++ c :: after)
  | delete (before after : Text) (c : Char) : Edit (before ++ c :: after) (before ++ after)
  | replace (before after : Text) (c d : Char) :
      Edit (before ++ c :: after) (before ++ d :: after)

/-- At most so many edits turn one text into the other. -/
inductive Edits : Nat → Text → Text → Prop
  | done {n : Nat} {t : Text} : Edits n t t
  | edit {n : Nat} {s u t : Text} : Edit s u → Edits n u t → Edits (n + 1) s t

variable {n : Nat} {s t u : Text} {c d : Char}

theorem Edit.cons (h : Edit s t) (c : Char) : Edit (c :: s) (c :: t) := by
  cases h with
  | insert before after d => exact .insert (c :: before) after d
  | delete before after d => exact .delete (c :: before) after d
  | replace before after d e => exact .replace (c :: before) after d e

theorem Edits.mono (h : Edits n s t) {m : Nat} (hle : n ≤ m) : Edits m s t := by
  induction h generalizing m with
  | done => exact .done
  | edit hstep _ ih =>
      obtain ⟨k, rfl⟩ : ∃ k, m = k + 1 := ⟨m - 1, by omega⟩
      exact .edit hstep (ih (Nat.le_of_succ_le_succ hle))

theorem Edits.cons (h : Edits n s t) (c : Char) : Edits n (c :: s) (c :: t) := by
  induction h with
  | done => exact .done
  | edit hstep _ ih => exact .edit (hstep.cons c) ih

theorem Edits.insert (h : Edits n s t) (c : Char) : Edits (n + 1) s (c :: t) :=
  .edit (.insert [] s c) (h.cons c)

theorem Edits.delete (h : Edits n s t) (c : Char) : Edits (n + 1) (c :: s) t :=
  .edit (.delete [] s c) h

theorem Edits.replace (h : Edits n s t) (c d : Char) : Edits (n + 1) (c :: s) (d :: t) :=
  .edit (.replace [] s c d) (h.cons d)

/-! ### The recursion on both texts -/

/-- The distances from a text to the tails of another. -/
def distances (source target : Text) : List Nat :=
  source.foldr (fun c row => extendRow c target row) (emptyRow target)

theorem editDistance_eq (source target : Text) :
    editDistance source target = (distances source target).headD 0 := rfl

/-- The row of a tail is the tail of the row. -/
theorem distances_cons (s : Text) (b : Char) (t : Text) :
    distances s (b :: t) = editDistance s (b :: t) :: distances s t := by
  induction s with
  | nil => rfl
  | cons c s ih =>
      have hrow : distances (c :: s) (b :: t) = extendRow c (b :: t) (distances s (b :: t)) := rfl
      rw [editDistance_eq, hrow, ih]
      rfl

theorem editDistance_nil (t : Text) : editDistance [] t = t.length := by
  cases t <;> rfl

theorem editDistance_cons_nil (c : Char) (s : Text) :
    editDistance (c :: s) [] = editDistance s [] + 1 := rfl

theorem editDistance_cons_cons (c : Char) (s : Text) (b : Char) (t : Text) :
    editDistance (c :: s) (b :: t) =
      min (min (editDistance s (b :: t) + 1) (editDistance (c :: s) t + 1))
        (editDistance s t + if c = b then 0 else 1) := by
  have hrow : editDistance (c :: s) (b :: t) =
      (extendRow c (b :: t) (distances s (b :: t))).headD 0 := rfl
  rw [hrow, distances_cons]
  rfl

/-- **As many edits as the distance**: deletions, insertions and replacements at the start of the
text. -/
theorem edits_editDistance : ∀ s t : Text, Edits (editDistance s t) s t
  | [], [] => .done
  | [], b :: t => by
      have hrest := edits_editDistance [] t
      rw [editDistance_nil] at hrest ⊢
      exact hrest.insert b
  | c :: s, [] => (edits_editDistance s []).delete c
  | c :: s, b :: t => by
      have hmin := editDistance_cons_cons c s b t
      -- Each of the three candidates for the minimum tells the edit to begin with.
      have hcases : editDistance (c :: s) (b :: t) = editDistance s (b :: t) + 1 ∨
          editDistance (c :: s) (b :: t) = editDistance (c :: s) t + 1 ∨
          editDistance (c :: s) (b :: t) = editDistance s t + if c = b then 0 else 1 := by
        omega
      rcases hcases with h | h | h
      · rw [h]
        exact (edits_editDistance s (b :: t)).delete c
      · rw [h]
        exact (edits_editDistance (c :: s) t).insert b
      · rw [h]
        split
        · rename_i hc
          subst hc
          exact (edits_editDistance s t).cons c
        · exact (edits_editDistance s t).replace c b
termination_by s t => s.length + t.length

/-! ### One edit, one step of distance -/

theorem editDistance_self : ∀ t : Text, editDistance t t = 0
  | [] => rfl
  | c :: t => by
      rw [editDistance_cons_cons, editDistance_self t, if_pos rfl]
      omega

theorem editDistance_target_le (s : Text) (b : Char) (t : Text) :
    editDistance s (b :: t) ≤ editDistance s t + 1 := by
  cases s with
  | nil => simp [editDistance_nil]
  | cons c s =>
      rw [editDistance_cons_cons]
      omega

/-- `Near s u`: from `s` it is at most one edit further to any text than from `u`. -/
def Near (s u : Text) : Prop := ∀ t, editDistance s t ≤ editDistance u t + 1

theorem near_delete (c : Char) (s : Text) : Near (c :: s) s := by
  intro t
  cases t with
  | nil => exact Nat.le_of_eq (editDistance_cons_nil c s)
  | cons b t =>
      rw [editDistance_cons_cons]
      omega

theorem near_insert (c : Char) (s : Text) : Near s (c :: s) := by
  intro t
  induction t with
  | nil =>
      rw [editDistance_cons_nil]
      omega
  | cons b t ih =>
      have htarget := editDistance_target_le s b t
      rw [editDistance_cons_cons]
      omega

theorem near_replace (c d : Char) (s : Text) : Near (c :: s) (d :: s) := by
  intro t
  induction t with
  | nil => exact Nat.le_succ _
  | cons b t ih =>
      rw [editDistance_cons_cons, editDistance_cons_cons]
      split <;> split <;> omega

/-- **A character in front makes no difference.** -/
theorem near_cons (h : Near s u) (c : Char) : Near (c :: s) (c :: u) := by
  -- Induction on the target: an insertion in front leads to a shorter one with the same texts.
  intro t
  induction t with
  | nil =>
      rw [editDistance_cons_nil, editDistance_cons_nil]
      exact Nat.succ_le_succ (h [])
  | cons b t ih =>
      have hdelete := h (b :: t)
      have hboth := h t
      rw [editDistance_cons_cons, editDistance_cons_cons]
      omega

theorem near_append (h : Near s u) : ∀ before : Text, Near (before ++ s) (before ++ u)
  | [] => h
  | c :: before => near_cons (near_append h before) c

theorem Edit.near (h : Edit s u) : Near s u := by
  cases h with
  | insert before after c => exact near_append (near_insert c after) before
  | delete before after c => exact near_append (near_delete c after) before
  | replace before after c d => exact near_append (near_replace c d after) before

theorem Edits.editDistance_le (h : Edits n s t) : editDistance s t ≤ n := by
  induction h with
  | @done n t =>
      rw [editDistance_self]
      exact Nat.zero_le n
  | @edit n s u t hedit _ ih => exact Nat.le_trans (hedit.near t) (Nat.succ_le_succ ih)

/-- **The edit distance is the least number of edits.** -/
theorem editDistance_le_iff : editDistance s t ≤ n ↔ Edits n s t :=
  ⟨(edits_editDistance s t).mono, Edits.editDistance_le⟩

/-! ### Characters that the target does not tell apart -/

variable {target : Text}

/-- `LowerCase t n`: `n` is the lower case of `t`, whichever of the two small sigmas stands where. -/
def LowerCase (t n : Text) : Prop :=
  List.Forall₂ (fun c d => c = d ∨ c = 'σ' ∧ d = 'ς') t.lowercase n

theorem extendRow_congr : ∀ {target : Text} (row : List Nat), (∀ b ∈ target, c = b ↔ d = b) →
    extendRow c target row = extendRow d target row
  | [], _, _ => rfl
  | b :: target, row, h => by
      obtain ⟨hb, htarget⟩ := List.forall_mem_cons.mp h
      simp only [extendRow, extendRow_congr row.tail htarget, hb]

/-- Characters can be exchanged if the target holds neither. -/
theorem editDistance_congr
    (h : List.Forall₂ (fun c d => ∀ b ∈ target, c = b ↔ d = b) s u) :
    editDistance s target = editDistance u target := by
  have hrows : distances s target = distances u target := by
    induction h with
    | nil => rfl
    | @cons c d s u hcd _ ih =>
        change extendRow c target (distances s target) = extendRow d target (distances u target)
        rw [ih, extendRow_congr _ hcd]
  rw [editDistance_eq, editDistance_eq, hrows]

end Text

namespace Combinator

variable {n s t : Text}

theorem sigma_notMem_name (c : Combinator) : 'σ' ∉ c.name ∧ 'ς' ∉ c.name := by
  cases c <;> decide

theorem editDistance_name (hn : t.LowerCase n) (c : Combinator) :
    Text.editDistance t.lowercase c.name = Text.editDistance n c.name := by
  obtain ⟨hsigma, hfinal⟩ := c.sigma_notMem_name
  refine Text.editDistance_congr (hn.imp ?_)
  rintro d e (rfl | ⟨rfl, rfl⟩) b hb
  · exact Iff.rfl
  · have hsigma' : 'σ' ≠ b := fun h => hsigma (h ▸ hb)
    have hfinal' : 'ς' ≠ b := fun h => hfinal (h ▸ hb)
    simp [hsigma', hfinal']

/-! ### The nearest name -/

theorem nearest_cases (n : Text) :
    (nearest n = and ∧ Text.editDistance n and.name ≤ Text.editDistance n or.name ∧
      Text.editDistance n and.name ≤ Text.editDistance n not.name) ∨
    (nearest n = or ∧ Text.editDistance n or.name < Text.editDistance n and.name ∧
      Text.editDistance n or.name ≤ Text.editDistance n not.name) ∨
    (nearest n = not ∧ Text.editDistance n not.name < Text.editDistance n and.name ∧
      Text.editDistance n not.name < Text.editDistance n or.name) := by
  by_cases hor : Text.editDistance n or.name ≤ Text.editDistance n not.name
  · by_cases hand : Text.editDistance n and.name ≤ Text.editDistance n or.name
    · exact .inl ⟨by simp [nearest, hor, hand], hand, hand.trans hor⟩
    · exact .inr (.inl ⟨by simp [nearest, hor, hand], not_le.mp hand, hor⟩)
  · by_cases hand : Text.editDistance n and.name ≤ Text.editDistance n not.name
    · exact .inl ⟨by simp [nearest, hor, hand], by omega, hand⟩
    · exact .inr (.inr ⟨by simp [nearest, hor, hand], not_le.mp hand, not_le.mp hor⟩)

theorem nearest_le (n : Text) (d : Combinator) :
    Text.editDistance n (nearest n).name ≤ Text.editDistance n d.name := by
  rcases nearest_cases n with ⟨e, h, h'⟩ | ⟨e, h, h'⟩ | ⟨e, h, h'⟩ <;> rw [e] <;> cases d <;> omega

theorem nearest_lt (n : Text) {d : Combinator} (hd : list.idxOf d < list.idxOf (nearest n)) :
    Text.editDistance n (nearest n).name < Text.editDistance n d.name := by
  rcases nearest_cases n with ⟨e, h, h'⟩ | ⟨e, h, h'⟩ | ⟨e, h, h'⟩
  · rw [e] at hd
    cases d <;> cases hd
  · rw [e] at hd ⊢
    cases d with
    | and => exact h
    | or => exact absurd hd (by decide)
    | not => exact absurd hd (by decide)
  · rw [e] at hd ⊢
    cases d with
    | and => exact h
    | or => exact h'
    | not => exact absurd hd (by decide)

theorem suggestion?_eq (hn : (symbolName s).LowerCase n) :
    suggestion? s =
      if Text.editDistance n (nearest n).name ≤ suggestionDistance then some (nearest n).symbol
      else none := by
  have hnearest : nearest (symbolName s).lowercase = nearest n := by
    simp only [nearest, editDistance_name hn]
  simp only [suggestion?, hnearest, editDistance_name hn, symbol]

/-- **The error for a wrong symbol** quotes it and may suggest another.  What it suggests is a symbol,
and of all combinators the first one with the nearest name; and it suggests one exactly if two
edits turn the text into a name. -/
theorem ofSymbol_eq_error {error : FilterError} (h : ofSymbol s = .error error)
    (hn : (symbolName s).LowerCase n) :
    ∃ suggestion, error = .unknownCombinator s suggestion ∧
      (∀ t, suggestion = some t → ∃ c : Combinator, t = ':' :: c.name ∧ ofSymbol t = .ok c ∧
        (∀ (d : Combinator) (k : Nat), Text.Edits k n d.name → Text.Edits k n c.name) ∧
        ∀ d : Combinator, list.idxOf d < list.idxOf c →
          ∃ k, Text.Edits k n c.name ∧ ¬ Text.Edits k n d.name) ∧
      (suggestion.isSome = true ↔ ∃ c : Combinator, Text.Edits 2 n c.name) := by
  obtain ⟨-, rfl⟩ := Expression.ofName?_of_ofSymbol h
  refine ⟨suggestion? s, rfl, ?_, ?_⟩
  · intro t ht
    rw [suggestion?_eq hn, Option.ite_none_right_eq_some] at ht
    obtain rfl := Option.some.inj ht.2
    refine ⟨nearest n, rfl, ofSymbol_symbol _, fun d k hk => ?_, fun d hd => ?_⟩
    · rw [← Text.editDistance_le_iff] at hk ⊢
      exact (nearest_le n d).trans hk
    · refine ⟨Text.editDistance n (nearest n).name, Text.edits_editDistance n _, ?_⟩
      rw [← Text.editDistance_le_iff]
      exact not_le.mpr (nearest_lt n hd)
  · have hsome : (suggestion? s).isSome = true ↔
        Text.editDistance n (nearest n).name ≤ 2 := by
      rw [suggestion?_eq hn]
      split <;> simp_all [suggestionDistance]
    rw [hsome]
    constructor
    · intro hle
      exact ⟨nearest n, Text.editDistance_le_iff.mp hle⟩
    · rintro ⟨c, hc⟩
      exact (nearest_le n c).trans (Text.editDistance_le_iff.mpr hc)

/-- A symbol with a sigma at its end, which becomes the final form of the letter. -/
theorem ofSymbol_eq_error_of_sigma :
    ofSymbol ":ORΣ" = .error (.unknownCombinator ":ORΣ" (some ":or")) ∧
      Text.LowerCase (symbolName ":ORΣ") "orς" ∧
      (∀ (d : Combinator) (k : Nat), Text.Edits k "orς" d.name → Text.Edits k "orς" or.name) ∧
      ∃ c : Combinator, Text.Edits 2 "orς" c.name := by
  have h : ofSymbol ":ORΣ" = .error (.unknownCombinator ":ORΣ" (some ":or")) := by decide +kernel
  have hlowercase : Text.lowercase (symbolName ":ORΣ") = "orσ" := by decide +kernel
  have hn : Text.LowerCase (symbolName ":ORΣ") "orς" := by
    rw [Text.LowerCase, hlowercase]
    exact .cons (.inl rfl) (.cons (.inl rfl) (.cons (.inr ⟨rfl, rfl⟩) .nil))
  obtain ⟨suggestion, e, hbest, hsome⟩ := ofSymbol_eq_error h hn
  obtain ⟨-, rfl⟩ := FilterError.unknownCombinator.inj e
  obtain ⟨c, hc, -, hnearest, -⟩ := hbest _ rfl
  have hor : c = or := by
    cases c with
    | or => rfl
    | and => cases hc
    | not => cases hc
  exact ⟨h, hn, hor ▸ hnearest, hsome.mp rfl⟩

end Combinator
end SearchFilter
