import SearchFilter.Proofs.Outlines
import SearchFilter.Proofs.Calls

/-! # What the views of a filter show

As text, the tree of a filter has a line for each filter inside it: two blanks for each level, the
label, and the assertion or nothing.  If no value runs over the end of a line, the lines can be told
from the text (`split_treeText`), and a line tells the level, the kind and the detail
(`treeLine_inj`): blanks end at the label, which begins with a letter, and the label ends at the
next blank.  So the tree of a filter that has been read shows that filter and nothing else
(`treeText_of_parse`).

The JSON tree of a filter is an object, and all that makes up the filter can be looked up in it: the
kind under `type`, the attribute, the value or the pattern, and the trees of the filters directly
inside it.  A filter has no other parts (`eq_of_parts`), so two filters with the same tree agree on
each level (`eq_of_treeJson`), whatever their texts are.  The canonical string tells filters apart
only if their texts are valid.  A pattern with parentheses may be written just as a group is, and a
caller can make both (`treeJson_eq_iff`). -/

namespace SearchFilter

/-! ### Splitting what was joined -/

namespace Text

variable {separator : Char}

theorem split_of_notMem : ∀ {part : Text}, separator ∉ part → split separator part = [part]
  | [], _ => rfl
  | c :: part, h => by
      rw [List.mem_cons, not_or] at h
      obtain ⟨hc, hpart⟩ := h
      rw [split, if_neg (Ne.symm hc), split_of_notMem hpart]

theorem split_append_separator (t : Text) : ∀ {part : Text}, separator ∉ part →
    split separator (part ++ separator :: t) = part :: split separator t
  | [], _ => by rw [List.nil_append, split, if_pos rfl]
  | c :: part, h => by
      rw [List.mem_cons, not_or] at h
      obtain ⟨hc, hpart⟩ := h
      rw [List.cons_append, split, if_neg (Ne.symm hc), split_append_separator t hpart]

theorem split_join : ∀ {parts : List Text}, parts ≠ [] → (∀ part ∈ parts, separator ∉ part) →
    split separator (join [separator] parts) = parts
  | [], hne, _ => absurd rfl hne
  | [part], _, h => by
      rw [join_singleton, split_of_notMem (h part List.mem_cons_self)]
  | part :: next :: parts, _, h => by
      obtain ⟨hpart, hparts⟩ := List.forall_mem_cons.mp h
      rw [join_cons_cons, split_append_separator _ hpart,
        split_join (List.cons_ne_nil _ _) hparts]

end Text

theorem Style.newline_notMem_paint (style : Style) {t : Text} (h : '\n' ∉ t) :
    '\n' ∉ style.paint t := by
  cases style <;> simp [Style.paint, boldIn, escapeSequence, h]

namespace Filter

/-! ### Labels -/

def Kind.list : List Kind := [presence, substring, and, or, not] ++ Comparison.list.map item

theorem Kind.mem_list (k : Kind) : k ∈ list := by
  cases k with
  | item op => cases op <;> decide
  | _ => decide

theorem Kind.name_inj {k k' : Kind} (h : k.name = k'.name) : k = k' := by
  have hall : ∀ k ∈ list, ∀ k' ∈ list, k.name = k'.name → k = k' := by decide
  exact hall k k.mem_list k' k'.mem_list h

theorem Kind.notMem_name (k : Kind) : ' ' ∉ k.name ∧ '\n' ∉ k.name ∧ k.name ≠ [] := by
  have hall : ∀ k ∈ list, ' ' ∉ k.name ∧ '\n' ∉ k.name ∧ k.name ≠ [] := by decide
  exact hall k k.mem_list

theorem head?_detail (f : Filter) : ∀ c ∈ f.detail.head?, c = ' ' := by
  cases f <;> simp [detail]

/-! ### Lines -/

theorem treeLine_plain (level : Nat) (f : Filter) :
    treeLine .plain level f = List.replicate (2 * level) ' ' ++ (f.kind.name ++ f.detail) := by
  rw [treeLine, Style.paint, List.append_assoc]

/-- **A line tells the level, the kind and the detail.** -/
theorem treeLine_inj {level level' : Nat} {f g : Filter}
    (h : treeLine .plain level f = treeLine .plain level' g) :
    heading (level, f) = heading (level', g) := by
  rw [treeLine_plain, treeLine_plain] at h
  -- The blanks of the indentation end at the label, and the label ends at the next blank.
  have hlabel : ∀ f : Filter, ∀ c ∈ (f.kind.name ++ f.detail).head?, (c == ' ') = false := by
    intro f c hc
    obtain ⟨hblank, -, hne⟩ := f.kind.notMem_name
    rw [List.head?_append_of_ne_nil _ hne] at hc
    rw [beq_eq_false_iff_ne]
    rintro rfl
    exact hblank (List.mem_of_mem_head? hc)
  obtain ⟨hindent, hline⟩ := run_append_inj (p := (· == ' ')) (by simp) (by simp) (hlabel f)
    (hlabel g) h
  have hname : ∀ k : Kind, ∀ c ∈ k.name, (c != ' ') = true := by
    intro k c hc
    rw [bne_iff_ne]
    rintro rfl
    exact k.notMem_name.1 hc
  have hdetail : ∀ f : Filter, ∀ c ∈ f.detail.head?, (c != ' ') = false := by
    intro f c hc
    rw [f.head?_detail c hc]
    rfl
  obtain ⟨hkind, hrest⟩ :=
    run_append_inj (hname f.kind) (hname g.kind) (hdetail f) (hdetail g) hline
  have hlevel : 2 * level = 2 * level' := by simpa using congrArg List.length hindent
  have hlevel' : level = level' := by omega
  rw [heading, heading, hlevel', Kind.name_inj hkind, hrest]

/-- Every value and every pattern inside the filter is a single line. -/
def SingleLine : Filter → Prop := Everywhere fun f => ∀ value ∈ f.value?, '\n' ∉ value

theorem newline_notMem_detail {f : Filter} (hf : f.HasCleanTexts)
    (hvalue : ∀ value ∈ f.value?, '\n' ∉ value) : '\n' ∉ f.detail := by
  have hattr : ∀ attr ∈ f.attr?, '\n' ∉ attr := fun attr h hmem =>
    absurd ((isAttribute_iff.mp (hf.1 attr h)).2 _ hmem) (by decide)
  cases f with
  | presence attr => simpa [detail] using hattr attr rfl
  | item attr op value =>
      have hsymbol : '\n' ∉ op.symbol := by cases op <;> decide
      simpa [detail, fragment, hsymbol] using ⟨hattr attr rfl, hvalue value rfl⟩
  | substring attr pattern =>
      simpa [detail, fragment] using ⟨hattr attr rfl, hvalue pattern rfl⟩
  | _ => simp [detail]

theorem newline_notMem_treeLine (style : Style) (level : Nat) {f : Filter} (hf : f.HasCleanTexts)
    (hvalue : ∀ value ∈ f.value?, '\n' ∉ value) : '\n' ∉ treeLine style level f := by
  simp [treeLine, style.newline_notMem_paint f.kind.notMem_name.2.1,
    newline_notMem_detail hf hvalue]

/-- **The lines can be told from the text of the tree.** -/
theorem split_treeText {f : Filter} (hf : f.Legible) (hline : f.SingleLine) (style : Style) :
    (f.treeText style).split '\n' = f.treeLines style := by
  refine Text.split_join ?_ fun line hmem => ?_
  · rw [treeLines, outline_eq]
    exact List.cons_ne_nil _ _
  · obtain ⟨entry, hentry, rfl⟩ := List.mem_map.mp hmem
    have hwithin := within_of_mem_outline hentry
    exact newline_notMem_treeLine style entry.1 (hf _ hwithin) (hline _ hwithin)

/-- The line of the filter at an address: two blanks for each level, the label between the two given
texts, and the detail. -/
def LineAt (f : Filter) (start stop : Text) (address : List Nat) (line : Text) : Prop :=
  ∃ g, f.at? address = some g ∧
    line = List.replicate (2 * address.length) ' ' ++ (start ++ g.kind.name ++ stop) ++ g.detail

theorem Listing.forall₂_lineAt {f : Filter} {addresses : List (List Nat)}
    (h : Listing f.at? 0 addresses (f.outline 0)) {style : Style} {start stop : Text}
    (hpaint : ∀ t, style.paint t = start ++ t ++ stop) :
    List.Forall₂ (f.LineAt start stop) addresses (f.treeLines style) := by
  rw [treeLines, List.forall₂_map_right_iff]
  refine h.found.imp ?_
  rintro address ⟨level, g⟩ ⟨hat, rfl⟩
  refine ⟨g, hat, ?_⟩
  simp only [treeLine, hpaint, Nat.zero_add]

theorem eq_of_treeText {f g : Filter} (hf : f.Legible) (hg : g.Legible) (hf' : f.SingleLine)
    (hg' : g.SingleLine) (h : f.treeText .plain = g.treeText .plain) : f = g := by
  have hlines : f.treeLines .plain = g.treeLines .plain := by
    rw [← split_treeText hf hf', ← split_treeText hg hg', h]
  have hheadings : (f.outline 0).map heading = (g.outline 0).map heading := by
    rw [treeLines, treeLines, ← List.forall₂_eq_eq_eq, List.forall₂_map_left_iff,
      List.forall₂_map_right_iff] at hlines
    rw [← List.forall₂_eq_eq_eq, List.forall₂_map_left_iff, List.forall₂_map_right_iff]
    exact hlines.imp fun _ _ => treeLine_inj
  have hnone : ∀ h ∈ ([] : List (Nat × Kind × Text)).head?, h.1 ≤ 0 := by simp
  exact (recoverable hf hg hnone hnone (congrArg (· ++ []) hheadings)).1

/-- **The tree shows the filter and nothing else.**  For a filter that has been read, whose values
and patterns are single lines: the lines of its tree are those of the filters inside it, each once
and in order, a filter in front of its members; colours change nothing but the labels; and the tree
of another such filter is another text. -/
theorem treeText_of_parse {text : Text} {f : Filter} (hf : parse text = .ok f)
    (hline : f.SingleLine) :
    (∃ addresses : List (List Nat), addresses.Pairwise (· < ·) ∧
      (∀ address, address ∈ addresses ↔ (f.at? address).isSome = true) ∧
      List.Forall₂ (f.LineAt [] []) addresses ((f.treeText .plain).split '\n') ∧
      List.Forall₂ (f.LineAt "\x1b[1m\x1b[36m" "\x1b[39m\x1b[0m") addresses
        ((f.treeText .label).split '\n')) ∧
    ∀ {text' : Text} {g : Filter}, parse text' = .ok g → g.SingleLine →
      (f.treeText .plain = g.treeText .plain ↔ f = g) := by
  have hlegible := legible_of_parse hf
  obtain ⟨addresses, hlisting⟩ := exists_listing_outline f 0
  refine ⟨⟨addresses, hlisting.ordered, hlisting.mem_iff, ?_, ?_⟩, fun hg hline' => ⟨?_, ?_⟩⟩
  · rw [split_treeText hlegible hline]
    exact hlisting.forall₂_lineAt fun t => by simp [Style.paint]
  · rw [split_treeText hlegible hline]
    exact hlisting.forall₂_lineAt fun t => by simp [Style.paint, boldIn, escapeSequence]
  · exact eq_of_treeText hlegible (legible_of_parse hg) hline hline'
  · rintro rfl
    rfl

/-- Two filters whose trees differ only in how far one line is indented. -/
theorem treeText_of_regrouped_clauses :
    let f := and [or [item "a" .equal "1"], substring "b" "2 x*"]
    let g := and [or [item "a" .equal "1", substring "b" "2 x*"]]
    parse "(&(|(a=1)) (b= 2 x*))" = .ok f ∧ parse "(&(|(a=1)(b=2 x*)))" = .ok g ∧
      (∃ addresses : List (List Nat), addresses.Pairwise (· < ·) ∧
        List.Forall₂ (f.LineAt [] []) addresses
          ["and", "  or", "    equal a=1", "  substring b=2 x*"]) ∧
      f.treeText .plain ≠ g.treeText .plain := by
  intro f g
  have hf : parse "(&(|(a=1)) (b= 2 x*))" = .ok f := by decide +kernel
  have hg : parse "(&(|(a=1)(b=2 x*)))" = .ok g := by decide +kernel
  have ha : (item "a" .equal "1").SingleLine := everywhere_iff.mpr ⟨by simp [value?], by simp⟩
  have hb : (substring "b" "2 x*").SingleLine := everywhere_iff.mpr ⟨by simp [value?], by simp⟩
  have hboth := List.forall_mem_cons.mpr ⟨ha, List.forall_mem_singleton.mpr hb⟩
  have hor : (or [item "a" .equal "1"]).SingleLine :=
    everywhere_iff.mpr ⟨by simp [value?], List.forall_mem_singleton.mpr ha⟩
  have hor' : (or [item "a" .equal "1", substring "b" "2 x*"]).SingleLine :=
    everywhere_iff.mpr ⟨by simp [value?], hboth⟩
  have hfline : f.SingleLine := everywhere_iff.mpr
    ⟨by simp [f, value?], List.forall_mem_cons.mpr ⟨hor, List.forall_mem_singleton.mpr hb⟩⟩
  have hgline : g.SingleLine :=
    everywhere_iff.mpr ⟨by simp [g, value?], List.forall_mem_singleton.mpr hor'⟩
  have hlines : (f.treeText .plain).split '\n' =
      ["and", "  or", "    equal a=1", "  substring b=2 x*"] := by decide
  obtain ⟨⟨addresses, hordered, -, hshown, -⟩, hsame⟩ := treeText_of_parse hf hfline
  rw [hlines] at hshown
  have hne : f ≠ g := by decide
  exact ⟨hf, hg, ⟨addresses, hordered, hshown⟩, fun h => hne ((hsame hg hgline).mp h)⟩

end Filter

/-! ### Looking up the parts of a JSON tree -/

namespace Json

def member? (key : Text) : Json → Option Json
  | object members => members.lookup key
  | _ => none

def items : Json → List Json
  | array items => items
  | _ => []

/-- The trees directly inside the tree of a filter: the items of a group's `clauses`, or the
`clause` of a negation. -/
def subtrees (tree : Json) : List Json :=
  ((tree.member? "clauses").map items).getD [] ++ (tree.member? "clause").toList

end Json

namespace Filter

theorem treeJsonAll_eq_map : ∀ fs : List Filter, treeJsonAll fs = fs.map treeJson
  | [] => rfl
  | f :: fs => by rw [treeJsonAll, treeJsonAll_eq_map fs, List.map_cons]

theorem member?_type (f : Filter) : f.treeJson.member? "type" = some (.string f.kind.name) := by
  cases f <;> rfl

theorem member?_attribute (f : Filter) :
    f.treeJson.member? "attribute" = f.attr?.map .string := by
  cases f <;> rfl

theorem member?_value (f : Filter) :
    (f.treeJson.member? "value").or (f.treeJson.member? "pattern") = f.value?.map .string := by
  cases f <;> rfl

theorem subtrees_treeJson (f : Filter) : f.treeJson.subtrees = f.members.map treeJson := by
  cases f with
  | and clauses => exact (List.append_nil _).trans (treeJsonAll_eq_map clauses)
  | or clauses => exact (List.append_nil _).trans (treeJsonAll_eq_map clauses)
  | _ => rfl

/-! ### The JSON tree determines the filter -/

variable {f g : Filter}

theorem eq_of_parts (hkind : f.kind = g.kind) (hattr : f.attr? = g.attr?)
    (hvalue : f.value? = g.value?) (hmembers : f.members = g.members) : f = g := by
  cases sameKind_of_kind_eq hkind with
  | presence attr attr' => rw [Option.some.inj hattr]
  | item attr attr' op value value' => rw [Option.some.inj hattr, Option.some.inj hvalue]
  | substring attr attr' pattern pattern' =>
      rw [Option.some.inj hattr, Option.some.inj hvalue]
  | and clauses clauses' => exact congrArg and hmembers
  | or clauses clauses' => exact congrArg or hmembers
  | not inner inner' => rw [(List.cons.inj hmembers).1]

theorem parts_of_treeJson (h : f.treeJson = g.treeJson) :
    f.kind = g.kind ∧ f.attr? = g.attr? ∧ f.value? = g.value? ∧
      f.members.map treeJson = g.members.map treeJson := by
  have hstring : Function.Injective Json.string := fun _ _ => Json.string.inj
  refine ⟨Kind.name_inj (hstring (Option.some.inj ?_)), Option.map_injective hstring ?_,
    Option.map_injective hstring ?_, ?_⟩
  · rw [← member?_type, ← member?_type, h]
  · rw [← member?_attribute, ← member?_attribute, h]
  · rw [← member?_value, ← member?_value, h]
  · rw [← subtrees_treeJson, ← subtrees_treeJson, h]

theorem eq_of_map_treeJson : ∀ {fs gs : List Filter},
    (∀ f ∈ fs, ∀ {g : Filter}, f.treeJson = g.treeJson → f = g) →
    fs.map treeJson = gs.map treeJson → fs = gs
  | [], [], _, _ => rfl
  | f :: fs, g :: gs, ih, h => by
      obtain ⟨hf, hfs⟩ := List.forall_mem_cons.mp ih
      obtain ⟨hhead, htail⟩ := List.cons.inj h
      rw [hf hhead, eq_of_map_treeJson hfs htail]

/-- **Filters with the same JSON tree are the same.** -/
theorem eq_of_treeJson (h : f.treeJson = g.treeJson) : f = g := by
  induction f using induct generalizing g with
  | step f ih =>
      obtain ⟨hkind, hattr, hvalue, htrees⟩ := parts_of_treeJson h
      exact eq_of_parts hkind hattr hvalue (eq_of_map_treeJson ih htrees)

/-- **The JSON tree determines the filter**, for any texts and any nesting; the canonical string does
not, even among the filters that a caller can make. -/
theorem treeJson_eq_iff :
    (∀ f g : Filter, f.treeJson = g.treeJson ↔ f = g) ∧
      ∃ f g : Filter, f.Reachable ∧ g.Reachable ∧ f.render = g.render ∧
        f.treeJson ≠ g.treeJson := by
  refine ⟨fun f g => ⟨eq_of_treeJson, congrArg treeJson⟩, ?_⟩
  have hgroup : (and [presence "uid", presence "mail"]).Reachable :=
    ⟨[.parse "(&(uid=*)(mail=*))"], by decide +kernel⟩
  have hpattern : (substring "&(uid" "*)(mail=*)").Reachable :=
    ⟨[.assertion "&(uid" .equal "*)(mail=*)"], by decide +kernel⟩
  exact ⟨_, _, hgroup, hpattern, rfl, mt eq_of_treeJson (by decide)⟩

end Filter
end SearchFilter
