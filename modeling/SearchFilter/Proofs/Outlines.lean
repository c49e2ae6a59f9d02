import Mathlib.Data.List.Lex
import SearchFilter.Proofs.AssertionText
import SearchFilter.Proofs.Steps
import SearchFilter.Tree

/-! # Outlines

The outline of a filter lists the filters inside it with their levels.  Where one of them stands is
told by an address: for each level the number of the member to go to (`at?`).  In lexicographic
order addresses go through a filter in front of its members, and through one member with all that is
inside it in front of the next.  The outline holds each filter once, in this order, at the level
that is the length of its address (`exists_listing_outline`).

Levels and headings are enough to get the filter back (`recoverable`): inside a member is all that
follows it on deeper levels.  So a member can be told in front of any rest that does not begin on a
deeper level itself, which is what the induction is about. -/

namespace SearchFilter.Filter

theorem outline_eq (level : Nat) (f : Filter) :
    f.outline level = (level, f) :: outlineAll (level + 1) f.members := by
  cases f <;> simp [outline, outlineAll]

theorem mem_outlineAll {level : Nat} {entry : Nat × Filter} : ∀ {fs : List Filter},
    entry ∈ outlineAll level fs ↔ ∃ f ∈ fs, entry ∈ f.outline level
  | [] => by simp [outlineAll]
  | f :: fs => by
      rw [outlineAll, List.mem_append, mem_outlineAll]
      simp

theorem within_of_mem_outline {level : Nat} {f : Filter} {entry : Nat × Filter}
    (h : entry ∈ f.outline level) : Within entry.2 f := by
  induction f using induct generalizing level with
  | step f ih =>
      rw [outline_eq] at h
      rcases List.mem_cons.mp h with rfl | h
      · exact .self f
      · obtain ⟨g, hg, h⟩ := mem_outlineAll.mp h
        exact .member hg (ih g hg h)

/-! ### Addresses -/

/-- The filter at an address: on each level, the number of the member to go to. -/
def at? (f : Filter) : List Nat → Option Filter
  | [] => some f
  | i :: address => f.members[i]?.bind fun g => g.at? address

/-- The filter at an address in a list of filters that are numbered from `start` on. -/
def memberAt? (start : Nat) (fs : List Filter) : List Nat → Option Filter
  | [] => none
  | i :: address => if start ≤ i then fs[i - start]?.bind fun g => g.at? address else none

theorem at?_cons (f : Filter) (i : Nat) (address : List Nat) :
    f.at? (i :: address) = memberAt? 0 f.members (i :: address) := by
  simp [at?, memberAt?]

theorem memberAt?_cons (start : Nat) (f : Filter) (fs : List Filter) (i : Nat)
    (address : List Nat) :
    memberAt? start (f :: fs) (i :: address) =
      if i = start then f.at? address else memberAt? (start + 1) fs (i :: address) := by
  rcases Nat.lt_trichotomy i start with hlt | rfl | hgt
  · have hne : i ≠ start := by omega
    have hle : ¬ start ≤ i := by omega
    have hle' : ¬ start + 1 ≤ i := by omega
    simp [memberAt?, hne, hle, hle']
  · simp [memberAt?]
  · obtain ⟨n, rfl⟩ : ∃ n, i = start + 1 + n := ⟨i - (start + 1), by omega⟩
    have hne : start + 1 + n ≠ start := by omega
    have hle : start ≤ start + 1 + n := by omega
    have hle' : start + 1 ≤ start + 1 + n := by omega
    have hindex : start + 1 + n - start = n + 1 := by omega
    have hindex' : start + 1 + n - (start + 1) = n := by omega
    rw [if_neg hne, memberAt?, memberAt?, if_pos hle, if_pos hle', hindex, hindex',
      List.getElem?_cons_succ]

theorem exists_of_memberAt? {start : Nat} {fs : List Filter} {address : List Nat}
    (h : (memberAt? start fs address).isSome = true) :
    ∃ i rest, address = i :: rest ∧ start ≤ i := by
  cases address with
  | nil => cases h
  | cons i rest =>
      refine ⟨i, rest, rfl, ?_⟩
      by_contra hle
      simp [memberAt?, hle] at h

/-- `Listing lookup level addresses entries`: the addresses are all at which something is found, in
lexicographic order, and the entries tell what is found there and on which level. -/
structure Listing (lookup : List Nat → Option Filter) (level : Nat) (addresses : List (List Nat))
    (entries : List (Nat × Filter)) : Prop where
  ordered : addresses.Pairwise (· < ·)
  mem_iff : ∀ address, address ∈ addresses ↔ (lookup address).isSome = true
  found : List.Forall₂
    (fun address entry => lookup address = some entry.2 ∧ entry.1 = level + address.length)
    addresses entries

theorem listing_nil (start level : Nat) : Listing (memberAt? start []) level [] [] where
  ordered := .nil
  mem_iff address := by cases address <;> simp [memberAt?]
  found := .nil

/-- One more filter in front of some: its addresses come first. -/
theorem Listing.cons {f : Filter} {fs : List Filter} {start level : Nat}
    {as bs : List (List Nat)} {entries later : List (Nat × Filter)}
    (hf : Listing f.at? (level + 1) as entries)
    (hfs : Listing (memberAt? (start + 1) fs) level bs later) :
    Listing (memberAt? start (f :: fs)) level (as.map (start :: ·) ++ bs) (entries ++ later) where
  ordered := by
    refine List.pairwise_append.mpr ⟨?_, hfs.ordered, ?_⟩
    · refine List.pairwise_map.mpr (hf.ordered.imp fun h => ?_)
      exact List.cons_lt_cons_iff.mpr (.inr ⟨rfl, h⟩)
    · intro a ha b hb
      obtain ⟨address, -, rfl⟩ := List.mem_map.mp ha
      obtain ⟨i, rest, rfl, hi⟩ := exists_of_memberAt? ((hfs.mem_iff b).mp hb)
      exact List.cons_lt_cons_iff.mpr (.inl hi)
  mem_iff address := by
    rw [List.mem_append, hfs.mem_iff]
    cases address with
    | nil => simp [memberAt?]
    | cons i address =>
        rw [memberAt?_cons]
        by_cases hi : i = start
        · subst hi
          have hlater : (memberAt? (i + 1) fs (i :: address)).isSome = false := by
            simp [memberAt?]
          simp [hlater, hf.mem_iff]
        · simp [hi, Ne.symm hi]
  found := by
    refine List.rel_append ?_ (hfs.found.imp fun address entry h => ?_)
    · refine List.forall₂_map_left_iff.mpr (hf.found.imp fun address entry h => ?_)
      obtain ⟨hat, hlevel⟩ := h
      rw [memberAt?_cons, if_pos rfl, List.length_cons]
      exact ⟨hat, by omega⟩
    · obtain ⟨hat, hlevel⟩ := h
      obtain ⟨i, rest, rfl, hi⟩ := exists_of_memberAt? (by rw [hat]; rfl)
      rw [memberAt?_cons, if_neg (by omega)]
      exact ⟨hat, hlevel⟩

theorem Listing.root {f : Filter} {level : Nat} {addresses : List (List Nat)}
    {entries : List (Nat × Filter)}
    (h : Listing (memberAt? 0 f.members) level addresses entries) :
    Listing f.at? level ([] :: addresses) ((level, f) :: entries) where
  ordered := by
    refine List.pairwise_cons.mpr ⟨fun address hmem => ?_, h.ordered⟩
    obtain ⟨i, rest, rfl, -⟩ := exists_of_memberAt? ((h.mem_iff address).mp hmem)
    exact List.nil_lt_cons i rest
  mem_iff address := by
    rw [List.mem_cons, h.mem_iff]
    cases address with
    | nil => simp [at?]
    | cons i rest => simp [at?_cons]
  found := by
    refine .cons ⟨rfl, rfl⟩ (h.found.imp fun address entry hentry => ?_)
    obtain ⟨i, rest, rfl, -⟩ := exists_of_memberAt? (by rw [hentry.1]; rfl)
    rw [at?_cons]
    exact hentry

theorem exists_listing_outlineAll {level : Nat} : ∀ {fs : List Filter} {start : Nat},
    (∀ f ∈ fs, ∃ addresses, Listing f.at? (level + 1) addresses (f.outline (level + 1))) →
      ∃ addresses, Listing (memberAt? start fs) level addresses (outlineAll (level + 1) fs)
  | [], start, _ => ⟨[], listing_nil start level⟩
  | f :: fs, start, h => by
      obtain ⟨⟨as, hf⟩, hfs⟩ := List.forall_mem_cons.mp h
      obtain ⟨bs, hlater⟩ := exists_listing_outlineAll hfs
      exact ⟨_, hf.cons hlater⟩

/-- **The outline lists every filter inside a filter once**, in the order of the addresses. -/
theorem exists_listing_outline (f : Filter) (level : Nat) :
    ∃ addresses, Listing f.at? level addresses (f.outline level) := by
  induction f using induct generalizing level with
  | step f ih =>
      obtain ⟨addresses, h⟩ := exists_listing_outlineAll fun g hg => ih g hg (level + 1)
      rw [outline_eq]
      exact ⟨_, h.root⟩

/-! ### Headings -/

/-- What the line of a filter tells: the level, the kind, and the detail behind it. -/
def heading (entry : Nat × Filter) : Nat × Kind × Text := (entry.1, entry.2.kind, entry.2.detail)

theorem head?_symbol_append (op : Comparison) (value : Text) :
    ∀ c ∈ (op.symbol ++ value).head?, isAttributeChar c = false := by
  obtain ⟨c, t, e, hc, -⟩ := Assertion.symbol_eq_cons op
  rw [e]
  rintro _ ⟨⟩
  exact hc

theorem comparison_inj {attr attr' value value' : Text} (op : Comparison)
    (hattr : isAttribute attr = true) (hattr' : isAttribute attr' = true)
    (h : attr ++ op.symbol ++ value = attr' ++ op.symbol ++ value') :
    attr = attr' ∧ value = value' := by
  rw [List.append_assoc, List.append_assoc] at h
  obtain ⟨rfl, hrest⟩ := run_append_inj (isAttribute_iff.mp hattr).2 (isAttribute_iff.mp hattr').2
    (head?_symbol_append op value) (head?_symbol_append op value') h
  exact ⟨rfl, List.append_cancel_left hrest⟩

/-- Two filters of the same kind, side by side. -/
inductive SameKind : Filter → Filter → Prop
  | presence (attr attr' : Text) : SameKind (.presence attr) (.presence attr')
  | item (attr attr' : Text) (op : Comparison) (value value' : Text) :
      SameKind (.item attr op value) (.item attr' op value')
  | substring (attr attr' pattern pattern' : Text) :
      SameKind (.substring attr pattern) (.substring attr' pattern')
  | and (clauses clauses' : List Filter) : SameKind (.and clauses) (.and clauses')
  | or (clauses clauses' : List Filter) : SameKind (.or clauses) (.or clauses')
  | not (inner inner' : Filter) : SameKind (.not inner) (.not inner')

theorem sameKind_of_kind_eq {f g : Filter} (h : f.kind = g.kind) : SameKind f g := by
  cases f with
  | presence attr =>
      cases g with
      | presence attr' => exact .presence attr attr'
      | _ => cases h
  | item attr op value =>
      cases g with
      | item attr' op' value' =>
          cases h
          exact .item attr attr' op value value'
      | _ => cases h
  | substring attr pattern =>
      cases g with
      | substring attr' pattern' => exact .substring attr attr' pattern pattern'
      | _ => cases h
  | and clauses =>
      cases g with
      | and clauses' => exact .and clauses clauses'
      | _ => cases h
  | or clauses =>
      cases g with
      | or clauses' => exact .or clauses clauses'
      | _ => cases h
  | not inner =>
      cases g with
      | not inner' => exact .not inner inner'
      | _ => cases h

/-- **Kind, detail and members make a filter.** -/
theorem eq_of_heading {f g : Filter} (hf : f.HasCleanTexts) (hg : g.HasCleanTexts)
    (hkind : f.kind = g.kind) (hdetail : f.detail = g.detail) (hmembers : f.members = g.members) :
    f = g := by
  cases sameKind_of_kind_eq hkind with
  | presence attr attr' => rw [(List.cons.inj hdetail).2]
  | item attr attr' op value value' =>
      obtain ⟨rfl, rfl⟩ :=
        comparison_inj op (hf.1 attr rfl) (hg.1 attr' rfl) (List.cons.inj hdetail).2
      rfl
  | substring attr attr' pattern pattern' =>
      have hfragment : attr ++ '=' :: pattern = attr' ++ '=' :: pattern' :=
        (List.cons.inj hdetail).2
      obtain ⟨rfl, rfl⟩ := comparison_inj .equal (hf.1 attr rfl) (hg.1 attr' rfl)
        (by simpa [Comparison.symbol] using hfragment)
      rfl
  | and clauses clauses' => exact congrArg and hmembers
  | or clauses clauses' => exact congrArg or hmembers
  | not inner inner' => rw [(List.cons.inj hmembers).1]

/-! ### Getting the filter back -/

/-- The filter can be told from the headings of its outline, whatever follows them on the same level
or further out. -/
def Recoverable (f : Filter) : Prop :=
  ∀ {level : Nat} {g : Filter} {rest rest' : List (Nat × Kind × Text)}, g.Legible →
    (∀ h ∈ rest.head?, h.1 ≤ level) → (∀ h ∈ rest'.head?, h.1 ≤ level) →
    (f.outline level).map heading ++ rest = (g.outline level).map heading ++ rest' →
    f = g ∧ rest = rest'

variable {level : Nat} {rest rest' : List (Nat × Kind × Text)}

theorem head?_outlineAll_append (fs : List Filter) (hrest : ∀ h ∈ rest.head?, h.1 < level) :
    ∀ h ∈ ((outlineAll level fs).map heading ++ rest).head?, h.1 ≤ level := by
  cases fs with
  | nil => exact fun h hh => Nat.le_of_lt (hrest h hh)
  | cons f fs =>
      rw [outlineAll, outline_eq]
      rintro _ ⟨⟩
      exact Nat.le_refl level

/-- A list of filters ends where a level further out begins. -/
theorem eq_of_outlineAll : ∀ {fs gs : List Filter} {rest rest' : List (Nat × Kind × Text)},
    (∀ f ∈ fs, f.Recoverable) → (∀ g ∈ gs, g.Legible) → (∀ h ∈ rest.head?, h.1 < level) →
    (∀ h ∈ rest'.head?, h.1 < level) →
    (outlineAll level fs).map heading ++ rest = (outlineAll level gs).map heading ++ rest' →
    fs = gs ∧ rest = rest'
  | [], [], _, _, _, _, _, _, h => ⟨rfl, h⟩
  | [], g :: gs, rest, rest', _, _, hrest, _, h => by
      -- Then `rest` would begin with the heading of `g`, which is not further out.
      rw [outlineAll, outlineAll, outline_eq] at h
      have hhead : rest.head? = some (heading (level, g)) := by
        rw [List.map_nil, List.nil_append] at h
        rw [h]
        rfl
      exact absurd (hrest _ hhead) (Nat.lt_irrefl level)
  | f :: fs, [], rest, rest', _, _, _, hrest', h => by
      rw [outlineAll, outlineAll, outline_eq] at h
      have hhead : rest'.head? = some (heading (level, f)) := by
        rw [List.map_nil, List.nil_append] at h
        rw [← h]
        rfl
      exact absurd (hrest' _ hhead) (Nat.lt_irrefl level)
  | f :: fs, g :: gs, rest, rest', hrecover, hlegible, hrest, hrest', h => by
      obtain ⟨hf, hfs⟩ := List.forall_mem_cons.mp hrecover
      obtain ⟨hg, hgs⟩ := List.forall_mem_cons.mp hlegible
      rw [outlineAll, outlineAll, List.map_append, List.map_append, List.append_assoc,
        List.append_assoc] at h
      obtain ⟨rfl, hlater⟩ := hf hg (head?_outlineAll_append fs hrest)
        (head?_outlineAll_append gs hrest') h
      obtain ⟨rfl, hrest⟩ := eq_of_outlineAll hfs hgs hrest hrest' hlater
      exact ⟨rfl, hrest⟩

/-- **A legible filter can be told from the headings of its outline.** -/
theorem recoverable {f : Filter} (hf : f.Legible) : f.Recoverable := by
  induction f using induct with
  | step f ih =>
      intro level g rest rest' hg hrest hrest' h
      rw [outline_eq, outline_eq] at h
      obtain ⟨hhead, hlater⟩ := List.cons.inj h
      obtain ⟨-, hkind, hdetail⟩ : level = level ∧ f.kind = g.kind ∧ f.detail = g.detail := by
        simpa [heading] using hhead
      -- The members stand one level further in, so what follows them is further out.
      obtain ⟨hmembers, hrest⟩ := eq_of_outlineAll (fun d hd => ih d hd (hf.member hd))
        (fun d hd => hg.member hd) (fun d hd => Nat.lt_succ_of_le (hrest d hd))
        (fun d hd => Nat.lt_succ_of_le (hrest' d hd)) hlater
      exact ⟨eq_of_heading hf.here hg.here hkind hdetail hmembers, hrest⟩

end SearchFilter.Filter
