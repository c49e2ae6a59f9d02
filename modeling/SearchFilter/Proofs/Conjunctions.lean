import SearchFilter.Proofs.Calls

/-! # Conjunctions of many filters

`Filter.all` combines filters from the left.  A promiscuous filter is the neutral element of
combining (`everything_combine`, `combine_everything`) and leaves no trace, and what two other
filters are combined to is never promiscuous.  So a conjunction is the left-nested chain of the
filters that count (`all_eq_chain`), each of which puts one more level around the ones before it.
Hence the depth of a conjunction of assertions is the number of those that count (`depth_all`), and
a conjunction of more of them than levels can be read is written, but not read back. -/

namespace SearchFilter

namespace Filter

/-! ### The neutral element -/

theorem isPromiscuous_iff {f : Filter} : f.isPromiscuous = true ↔ f = everything := by
  cases f <;> simp [isPromiscuous, everything]

theorem everything_combine (f : Filter) : everything.combine f = f := by
  rw [combine, if_pos (isPromiscuous_iff.mpr rfl)]

theorem combine_everything (f : Filter) : f.combine everything = f := by
  unfold combine
  split
  · rename_i hf
    exact (isPromiscuous_iff.mp hf).symm
  · rw [if_pos (isPromiscuous_iff.mpr rfl)]

theorem combine_of_not_promiscuous {f g : Filter} (hf : f.isPromiscuous = false)
    (hg : g.isPromiscuous = false) : f.combine g = and [f, g] := by
  simp [combine, hf, hg]

/-! ### The filters that count -/

/-- The filters that are not promiscuous, in order. -/
def effective (fs : List Filter) : List Filter := fs.filter fun f => !f.isPromiscuous

theorem effective_cons_of_promiscuous {f : Filter} (hf : f.isPromiscuous = true)
    (fs : List Filter) : effective (f :: fs) = effective fs := by
  simp [effective, hf]

theorem effective_cons_of_not_promiscuous {f : Filter} (hf : f.isPromiscuous = false)
    (fs : List Filter) : effective (f :: fs) = f :: effective fs := by
  simp [effective, hf]

/-- Groups of two, nested to the left: `chain f [g, h]` is written `(&(&fg)h)`. -/
def chain (f : Filter) : List Filter → Filter
  | [] => f
  | g :: gs => chain (and [f, g]) gs

theorem foldl_combine_eq_chain : ∀ (fs : List Filter) {start : Filter},
    start.isPromiscuous = false → fs.foldl combine start = chain start (effective fs)
  | [], _, _ => rfl
  | f :: fs, start, hstart => by
      rw [List.foldl_cons]
      cases hf : f.isPromiscuous with
      | true =>
          rw [isPromiscuous_iff.mp hf, combine_everything, foldl_combine_eq_chain fs hstart,
            effective_cons_of_promiscuous (isPromiscuous_iff.mpr rfl)]
      | false =>
          -- What carries the induction is that a group is not promiscuous again.
          have hgroup : (and [start, f]).isPromiscuous = false := rfl
          rw [combine_of_not_promiscuous hstart hf, foldl_combine_eq_chain fs hgroup,
            effective_cons_of_not_promiscuous hf, chain]

theorem all_eq : ∀ fs : List Filter, all fs =
    match effective fs with
    | [] => everything
    | g :: gs => chain g gs
  | [] => rfl
  | f :: fs => by
      cases hf : f.isPromiscuous with
      | true =>
          rw [effective_cons_of_promiscuous hf, ← all_eq fs, isPromiscuous_iff.mp hf, all,
            List.foldl_cons, everything_combine, all]
      | false =>
          rw [effective_cons_of_not_promiscuous hf, all, List.foldl_cons, everything_combine,
            foldl_combine_eq_chain fs hf]

/-- **A conjunction keeps every filter that counts, once and in order**: it is their left-nested
chain, or the filter that every entry passes if there are none.  So promiscuous filters make no
difference wherever they stand, and further filters are combined with what there is. -/
theorem all_eq_chain :
    (∀ fs : List Filter, all fs =
      match effective fs with
      | [] => everything
      | g :: gs => chain g gs) ∧
    (∀ before skipped after : List Filter, (∀ f ∈ skipped, f.isPromiscuous = true) →
      all (before ++ skipped ++ after) = all (before ++ after)) ∧
    ∀ fs gs : List Filter, all (fs ++ gs) = gs.foldl combine (all fs) := by
  refine ⟨all_eq, ?_, fun fs gs => List.foldl_append⟩
  intro before skipped after hskipped
  have hnone : effective skipped = [] := by
    simpa [effective, List.filter_eq_nil_iff] using hskipped
  have hsame : effective (before ++ skipped ++ after) = effective (before ++ after) := by
    unfold effective at hnone ⊢
    rw [List.filter_append, List.filter_append, hnone, List.append_nil, List.filter_append]
  rw [all_eq, all_eq, hsame]

/-- Four filters, of which two count, with more promiscuous ones put between them. -/
theorem all_eq_chain_of_interleaved :
    let f := item "uid" .equal "a"
    let g := and [presence "mail", presence "cn"]
    all ([everything, f] ++ [everything, everything] ++ [everything, g]) = and [f, g] := by
  intro f g
  obtain ⟨hchain, hskip, -⟩ := all_eq_chain
  have hskipped : ∀ h ∈ [everything, everything], h.isPromiscuous = true := by decide
  rw [hskip _ _ _ hskipped, hchain]
  rfl

/-! ### Depth -/

/-- How many of some filters are not promiscuous. -/
def selective (fs : List Filter) : Nat := fs.countP fun f => !f.isPromiscuous

theorem selective_eq_length (fs : List Filter) : selective fs = (effective fs).length :=
  List.countP_eq_length_filter

theorem selective_cons_of_promiscuous {f : Filter} (hf : f.isPromiscuous = true)
    (fs : List Filter) : selective (f :: fs) = selective fs := by
  simp [selective, hf]

theorem depth_chain : ∀ {gs : List Filter} {f : Filter}, 1 ≤ f.depth → (∀ g ∈ gs, g.depth = 1) →
    (chain f gs).depth = f.depth + gs.length
  | [], _, _, _ => rfl
  | g :: gs, f, hpos, hgs => by
      obtain ⟨hg, hgs⟩ := List.forall_mem_cons.mp hgs
      have hdepth : (and [f, g]).depth = f.depth + 1 := by
        simp only [depth, depthAll, hg]
        omega
      rw [chain, depth_chain (by omega) hgs, hdepth, List.length_cons]
      omega

/-- **The depth of a conjunction of assertions** is the number of those that are not promiscuous;
if there are none, it is the one assertion that passes every entry. -/
theorem depth_all {fs : List Filter} (hfs : ∀ f ∈ fs, f.depth = 1) :
    (all fs).depth = max 1 (selective fs) := by
  have heffective : ∀ f ∈ effective fs, f.depth = 1 :=
    fun f hf => hfs f (List.mem_of_mem_filter hf)
  rw [all_eq, selective_eq_length]
  cases h : effective fs with
  | nil => rfl
  | cons g gs =>
      rw [h] at heffective
      obtain ⟨hg, hgs⟩ := List.forall_mem_cons.mp heffective
      have hdepth := depth_chain hg.ge hgs
      simp only [List.length_cons]
      rw [hdepth, hg]
      omega

/-! ### Reading conjunctions back -/

/-- The filters are assertions, each of which some text is read as. -/
def ReadAssertions (fs : List Filter) : Prop :=
  ∀ f ∈ fs, f.members = [] ∧ ∃ text, parse text = .ok f

theorem ReadAssertions.depth_eq_one {fs : List Filter} (h : ReadAssertions fs) :
    ∀ f ∈ fs, f.depth = 1 := by
  intro f hf
  rw [depth_eq, (h f hf).1]
  rfl

theorem ReadAssertions.derives_render_all {fs : List Filter} (h : ReadAssertions fs) :
    Derives (all fs).render (all fs) := by
  have hregular : (all fs).Regular := by
    refine everywhere_all (fun f g => List.cons_ne_nil _ _) trivial fun f hf => ?_
    obtain ⟨text, htext⟩ := (h f hf).2
    exact regular_of_parse htext
  have hlegible : (all fs).Legible := by
    refine everywhere_all (fun f g => ?_) ?_ fun f hf => ?_
    · exact ⟨by simp [attr?], by simp [value?]⟩
    · have hattr : isAttribute objectClass = true := by decide
      exact ⟨by simpa [attr?, everything] using hattr, by simp [value?, everything]⟩
    · obtain ⟨text, htext⟩ := (h f hf).2
      exact legible_of_parse htext
  exact derives_render hregular hlegible

/-- **A conjunction of assertions is read back** from what is written for it exactly if no more of
them are not promiscuous than filters may be nested; if there are more, reading says so. -/
theorem parse_render_all {fs : List Filter} (h : ReadAssertions fs) :
    parse (all fs).render =
      if selective fs ≤ maxDepth then .ok (all fs) else .error (.nestingTooDeep maxDepth) := by
  have hle : max 1 (selective fs) ≤ maxDepth ↔ selective fs ≤ maxDepth := by
    simp only [maxDepth]
    omega
  rw [parse_derived h.derives_render_all, depth_all h.depth_eq_one]
  simp only [hle]

section limit

theorem readAssertions_replicate (n : Nat) :
    ReadAssertions (List.replicate n (item "a" .equal "1")) := by
  intro f hf
  rw [List.eq_of_mem_replicate hf]
  exact ⟨rfl, "a=1", by decide +kernel⟩

theorem selective_replicate (n : Nat) :
    selective (List.replicate n (item "a" .equal "1")) = n := by
  simp [selective, List.countP_replicate, isPromiscuous]

/-- As many assertions as levels, with a promiscuous one in front of them. -/
theorem parse_render_all_of_limit :
    let fs := everything :: List.replicate 128 (item "a" .equal "1")
    parse (all fs).render = .ok (all fs) := by
  intro fs
  have hfs : ReadAssertions fs := by
    refine List.forall_mem_cons.mpr ⟨⟨rfl, "objectClass", by decide +kernel⟩, ?_⟩
    exact readAssertions_replicate 128
  have hselective : selective fs = 128 := by
    rw [selective_cons_of_promiscuous (isPromiscuous_iff.mpr rfl), selective_replicate]
  rw [parse_render_all hfs, hselective]
  rfl

/-- One assertion more than levels: each of them is read, and their conjunction is not. -/
theorem parse_render_all_past_limit :
    let fs := List.replicate 129 (item "a" .equal "1")
    fs ≠ [] ∧ ReadAssertions fs ∧
      parse (all fs).render = .error (.nestingTooDeep maxDepth) ∧
      parse (all fs).render ≠ .ok (all fs) := by
  intro fs
  have hfs : ReadAssertions fs := readAssertions_replicate 129
  have hread : parse (all fs).render = .error (.nestingTooDeep maxDepth) := by
    rw [parse_derived hfs.derives_render_all, depth_all hfs.depth_eq_one, selective_replicate]
    rfl
  refine ⟨List.cons_ne_nil _ _, hfs, hread, ?_⟩
  rw [hread]
  rintro ⟨⟩

end limit

end Filter
end SearchFilter
