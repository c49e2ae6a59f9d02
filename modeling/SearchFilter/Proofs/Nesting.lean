import Mathlib.Order.Basic
import SearchFilter.Filter.Token
import SearchFilter.Filter.Component
import SearchFilter.Proofs.Lexing

/-! # Filters inside filters

`Filter.members` are the filters directly inside a filter, `Within` reaches those at any level, and
`Everywhere P` says that `P` holds of a filter and of all filters within it; it unfolds one level
at a time (`everywhere_iff`), which is what proofs by induction on a filter (`Filter.induct`) need.

Two such properties are used throughout.  A `Regular` filter is one that reading could have made:
its assertions are classified and its groups are not empty.  A `Legible` filter has texts that
reading can take off a string again: attribute descriptions and clean values. -/

namespace SearchFilter

namespace Filter

/-! ### Members -/

/-- The filters directly inside a filter. -/
def members : Filter → List Filter
  | and clauses | or clauses => clauses
  | not inner => [inner]
  | presence _ | item .. | substring .. => []

@[simp] theorem members_presence (attr : Text) : (presence attr).members = [] := rfl
@[simp] theorem members_item (attr : Text) (op : Comparison) (value : Text) :
    (item attr op value).members = [] := rfl
@[simp] theorem members_substring (attr pattern : Text) : (substring attr pattern).members = [] :=
  rfl
@[simp] theorem members_and (clauses : List Filter) : (and clauses).members = clauses := rfl
@[simp] theorem members_or (clauses : List Filter) : (or clauses).members = clauses := rfl
@[simp] theorem members_not (inner : Filter) : (not inner).members = [inner] := rfl

/-- Induction on filters: a property passes from the members of a filter to the filter. -/
@[elab_as_elim]
theorem induct {P : Filter → Prop} (step : ∀ f, (∀ g ∈ f.members, P g) → P f) (f : Filter) : P f :=
  @Filter.rec P (fun fs => ∀ f ∈ fs, P f)
    (fun attr => step (presence attr) (by simp))
    (fun attr op value => step (item attr op value) (by simp))
    (fun attr pattern => step (substring attr pattern) (by simp))
    (fun clauses ih => step (and clauses) ih)
    (fun clauses ih => step (or clauses) ih)
    (fun inner ih => step (not inner) (by simpa using ih))
    (by simp)
    (fun f fs hf hfs => List.forall_mem_cons.mpr ⟨hf, hfs⟩) f

/-! ### All levels -/

/-- `Within g f`: `g` is `f`, or a filter inside `f` at some level. -/
inductive Within : Filter → Filter → Prop
  | self (f : Filter) : Within f f
  | member {g h f : Filter} : h ∈ f.members → Within g h → Within g f

theorem Within.trans {g h f : Filter} (hgh : Within g h) (hhf : Within h f) : Within g f := by
  induction hhf with
  | self => exact hgh
  | member hmem _ ih => exact .member hmem ih

/-- The property holds of the filter and of every filter within it. -/
def Everywhere (P : Filter → Prop) (f : Filter) : Prop := ∀ g, Within g f → P g

section everywhere

variable {P : Filter → Prop} {f g : Filter}

theorem Everywhere.here (h : Everywhere P f) : P f := h f (.self f)

theorem Everywhere.within (h : Everywhere P f) (hg : Within g f) : Everywhere P g :=
  fun _ hk => h _ (hk.trans hg)

theorem Everywhere.member (h : Everywhere P f) (hg : g ∈ f.members) : Everywhere P g :=
  h.within (.member hg (.self g))

theorem everywhere_iff : Everywhere P f ↔ P f ∧ ∀ g ∈ f.members, Everywhere P g := by
  constructor
  · intro h
    exact ⟨h.here, fun _ hg => h.member hg⟩
  · rintro ⟨hf, hmem⟩ g hg
    cases hg with
    | self => exact hf
    | member hm hg => exact hmem _ hm g hg

end everywhere

/-! ### Combined filters -/

section combined

variable {P : Filter → Prop}

theorem everywhere_combine (hpair : ∀ f g, P (and [f, g])) {f g : Filter} (hf : Everywhere P f)
    (hg : Everywhere P g) : Everywhere P (f.combine g) := by
  unfold combine
  split
  · exact hg
  · split
    · exact hf
    · exact everywhere_iff.mpr ⟨hpair f g, by simp [hf, hg]⟩

theorem everywhere_foldl_combine (hpair : ∀ f g, P (and [f, g])) :
    ∀ {fs : List Filter} {start : Filter}, Everywhere P start → (∀ f ∈ fs, Everywhere P f) →
      Everywhere P (fs.foldl combine start)
  | [], _, hstart, _ => hstart
  | f :: fs, start, hstart, hfs => by
      obtain ⟨hf, hfs⟩ := List.forall_mem_cons.mp hfs
      rw [List.foldl_cons]
      exact everywhere_foldl_combine hpair (everywhere_combine hpair hstart hf) hfs

theorem everywhere_all (hpair : ∀ f g, P (and [f, g])) (heverything : P everything)
    {fs : List Filter} (hfs : ∀ f ∈ fs, Everywhere P f) : Everywhere P (all fs) := by
  have hstart : Everywhere P everything :=
    everywhere_iff.mpr ⟨heverything, by simp [everything]⟩
  exact everywhere_foldl_combine hpair hstart hfs

end combined

/-! ### Depth -/

theorem depthAll_append :
    ∀ fs gs : List Filter, depthAll (fs ++ gs) = max (depthAll fs) (depthAll gs)
  | [], gs => by simp [depthAll]
  | f :: fs, gs => by
      rw [List.cons_append, depthAll, depthAll, depthAll_append fs gs, Nat.max_assoc]

theorem depthAll_le {n : Nat} : ∀ {fs : List Filter}, (∀ f ∈ fs, f.depth ≤ n) → depthAll fs ≤ n
  | [], _ => Nat.zero_le n
  | _ :: _, h => by
      obtain ⟨hf, hfs⟩ := List.forall_mem_cons.mp h
      exact max_le hf (depthAll_le hfs)

theorem depth_eq (f : Filter) : f.depth = depthAll f.members + 1 := by
  cases f <;> simp [depth, depthAll]

end Filter

/-! ### Regular filters -/

namespace Filter

/-- The filter is classified, if it is an assertion, and has a clause, if it is a group. -/
def Classified : Filter → Prop
  | presence _ => True
  | item _ op value => op = .equal → '*' ∉ value
  | substring _ pattern => '*' ∈ pattern ∧ pattern ≠ ['*']
  | and clauses | or clauses => clauses ≠ []
  | not _ => True

/-- Every filter within is classified. -/
def Regular : Filter → Prop := Everywhere Classified

theorem classified_assertion (attr : Text) (op : Comparison) (value : Text) :
    (assertion attr op value).Classified := by
  unfold assertion
  split
  · split
    · trivial
    · split
      · rename_i hne hstar
        exact ⟨hstar, hne⟩
      · rename_i hstar
        exact fun _ => hstar
  · rename_i hop
    exact fun h => absurd h hop

theorem members_assertion (attr : Text) (op : Comparison) (value : Text) :
    (assertion attr op value).members = [] := by
  unfold assertion
  split
  · split
    · rfl
    · split <;> rfl
  · rfl

theorem depth_assertion (attr : Text) (op : Comparison) (value : Text) :
    (assertion attr op value).depth = 1 := by
  rw [depth_eq, members_assertion]
  rfl

theorem assertion_of_classified {attr : Text} {op : Comparison} {value : Text}
    (h : (item attr op value).Classified) : assertion attr op value = item attr op value := by
  cases op with
  | equal =>
      have hstar : '*' ∉ value := h rfl
      have hne : value ≠ ['*'] := by
        rintro rfl
        simp at hstar
      simp [assertion, hne, hstar]
  | approx => rfl
  | greater => rfl
  | less => rfl

/-- **A classified filter is the filter that its own component makes.** -/
theorem ofComponent_component {f : Filter} (h : f.Classified) :
    ofComponent f.component = .ok f := by
  cases f with
  | presence attr => rfl
  | item attr op value => rw [component, ofComponent, assertion_of_classified h]
  | substring attr pattern =>
      obtain ⟨hstar, hne⟩ := h
      simp [component, ofComponent, assertion, hne, hstar]
  | and clauses => rfl
  | or clauses => rfl
  | not inner => rfl

theorem regular_assertion (attr : Text) (op : Comparison) (value : Text) :
    (assertion attr op value).Regular :=
  everywhere_iff.mpr ⟨classified_assertion attr op value, by simp [members_assertion]⟩

theorem regular_presence (attr : Text) : (presence attr).Regular :=
  everywhere_iff.mpr ⟨trivial, by simp⟩

end Filter

/-- `Makes combinator clauses f`: the combinator takes the clauses, and `f` is what it makes. -/
inductive Combinator.Makes : Combinator → List Filter → Filter → Prop
  | and {clauses : List Filter} : clauses ≠ [] → Makes .and clauses (.and clauses)
  | or {clauses : List Filter} : clauses ≠ [] → Makes .or clauses (.or clauses)
  | not {inner : Filter} : Makes .not [inner] (.not inner)

theorem Combinator.apply_eq_ok_iff {combinator : Combinator} {clauses : List Filter} {f : Filter} :
    combinator.apply clauses = .ok f ↔ combinator.Makes clauses f := by
  constructor
  · intro h
    cases combinator with
    | and => cases clauses <;> cases h; exact .and (List.cons_ne_nil _ _)
    | or => cases clauses <;> cases h; exact .or (List.cons_ne_nil _ _)
    | not =>
        match clauses, h with
        | [inner], h => cases h; exact .not
  · rintro (hne | hne | _)
    · cases clauses with
      | nil => exact absurd rfl hne
      | cons => rfl
    · cases clauses with
      | nil => exact absurd rfl hne
      | cons => rfl
    · rfl

namespace Combinator.Makes

variable {combinator : Combinator} {clauses : List Filter} {f : Filter}

theorem ne_nil (h : combinator.Makes clauses f) : clauses ≠ [] := by
  cases h with
  | and hne => exact hne
  | or hne => exact hne
  | not => exact List.cons_ne_nil _ _

theorem members_eq (h : combinator.Makes clauses f) : f.members = clauses := by
  cases h <;> rfl

theorem classified (h : combinator.Makes clauses f) : f.Classified := by
  cases h with
  | and hne => exact hne
  | or hne => exact hne
  | not => trivial

theorem regular (h : combinator.Makes clauses f) (hall : ∀ g ∈ clauses, g.Regular) : f.Regular :=
  Filter.everywhere_iff.mpr ⟨h.classified, h.members_eq ▸ hall⟩

end Combinator.Makes

/-- The combinator takes so many clauses. -/
def Combinator.Takes : Combinator → Nat → Prop
  | and, n | or, n => 1 ≤ n
  | not, n => n = 1

instance : (combinator : Combinator) → (n : Nat) → Decidable (combinator.Takes n)
  | .and, n | .or, n => inferInstanceAs (Decidable (1 ≤ n))
  | .not, n => inferInstanceAs (Decidable (n = 1))

theorem Combinator.Takes.exists_makes {combinator : Combinator} {clauses : List Filter}
    (h : combinator.Takes clauses.length) : ∃ f, combinator.Makes clauses f := by
  cases combinator with
  | and => exact ⟨_, .and (List.length_pos_iff.mp h)⟩
  | or => exact ⟨_, .or (List.length_pos_iff.mp h)⟩
  | not =>
      obtain ⟨inner, rfl⟩ := List.length_eq_one_iff.mp h
      exact ⟨_, .not⟩

/-! ### Legible filters -/

/-- A clean value holds no parenthesis and has no blank at its ends. -/
def Text.Clean (t : Text) : Prop := t.Plain ∧ t.Trimmed

instance (t : Text) : Decidable t.Clean := inferInstanceAs (Decidable (t.Plain ∧ t.Trimmed))

namespace Filter

def attr? : Filter → Option Text
  | presence attr | item attr .. | substring attr _ => some attr
  | and _ | or _ | not _ => none

/-- The value or the pattern of an assertion, if it has one. -/
def value? : Filter → Option Text
  | item _ _ value => some value
  | substring _ pattern => some pattern
  | presence _ | and _ | or _ | not _ => none

/-- The texts of the filter's own assertion are an attribute description and a clean value. -/
def HasCleanTexts (f : Filter) : Prop :=
  (∀ attr ∈ f.attr?, isAttribute attr = true) ∧ ∀ value ∈ f.value?, value.Clean

/-- Every attribute within is an attribute description, every value and pattern is clean. -/
def Legible : Filter → Prop := Everywhere HasCleanTexts

end Filter

theorem Combinator.Makes.legible {combinator : Combinator} {clauses : List Filter} {f : Filter}
    (h : combinator.Makes clauses f) (hall : ∀ g ∈ clauses, g.Legible) : f.Legible := by
  refine Filter.everywhere_iff.mpr ⟨?_, h.members_eq ▸ hall⟩
  cases h <;> exact ⟨by simp [Filter.attr?], by simp [Filter.value?]⟩

end SearchFilter
