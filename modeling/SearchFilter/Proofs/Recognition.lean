import SearchFilter.Proofs.Grammar
import SearchFilter.Proofs.Sketch

/-! # The reader recognises the grammar

Between the grammar and the reader stands the sketch.  A derived text has the tokens of a sketch
that stands for the derived filter (`Derives.exists_sketch`); a text with the tokens of a sketch
that can be read is derived, up to blanks in front and whatever follows (`derives_of_scan`).  With
what the reader does on the tokens of a sketch this gives the value of `Filter.parse` on every text
that the grammar derives (`parse_of_derives`), that it accepts no other text (`derives_of_parse`),
and that no text denotes two filters (`Derives.unique`). -/

namespace SearchFilter

/-! ### Sketches that stand for a filter -/

namespace Sketch

/-- The sketch stands for the filter: reading it fails only for want of levels. -/
def Means (s : Sketch) (f : Filter) : Prop :=
  ∀ source n, s.read source n =
    if f.depth ≤ n then .ok f else .error (.nestingTooDeep Filter.maxDepth)

def MeansAll (ss : List Sketch) (fs : List Filter) : Prop :=
  ∀ source n, readAll source n ss =
    if Filter.depthAll fs ≤ n then .ok fs else .error (.nestingTooDeep Filter.maxDepth)

theorem Means.eq {s : Sketch} {f g : Filter} (hf : s.Means f) (hg : s.Means g) : f = g := by
  have h := (hf [] (max f.depth g.depth)).symm.trans (hg [] (max f.depth g.depth))
  rw [if_pos (Nat.le_max_left ..), if_pos (Nat.le_max_right ..)] at h
  exact Except.ok.inj h

theorem meansAll_nil : MeansAll [] [] := by
  intro source n
  rfl

theorem Means.cons {s : Sketch} {f : Filter} {ss : List Sketch} {fs : List Filter}
    (hs : s.Means f) (hss : MeansAll ss fs) : MeansAll (s :: ss) (f :: fs) := by
  intro source n
  rw [readAll, hs, hss, Filter.depthAll]
  by_cases hf : f.depth ≤ n
  · by_cases hfs : Filter.depthAll fs ≤ n
    · rw [if_pos hf, if_pos hfs, if_pos (Nat.max_le.mpr ⟨hf, hfs⟩)]
      rfl
    · rw [if_pos hf, if_neg hfs, if_neg fun h => hfs (Nat.max_le.mp h).2]
      rfl
  · rw [if_neg hf, if_neg fun h => hf (Nat.max_le.mp h).1]
    rfl

theorem meansAll_of_forall₂ {ss : List Sketch} {fs : List Filter}
    (h : List.Forall₂ Means ss fs) : MeansAll ss fs := by
  induction h with
  | nil => exact meansAll_nil
  | cons hs _ ih => exact hs.cons ih

theorem means_leaf {text : Text} {a : Assertion} (h : Assertion.split? text = some a) :
    (leaf text).Means a.filter := by
  have hdepth : a.filter.depth = 1 := by
    cases a with
    | bare attr => rfl
    | compare attr op value => exact Filter.depth_assertion attr op value
  intro source n
  rw [hdepth]
  cases n with
  | zero => rfl
  | succ n =>
      rw [read, h, if_pos (by omega)]

theorem means_group {combinator : Combinator} {ss : List Sketch} {fs : List Filter} {f : Filter}
    (hss : MeansAll ss fs) (hmakes : combinator.Makes fs f) : (group combinator ss).Means f := by
  intro source n
  rw [Filter.depth_eq, hmakes.members_eq]
  cases n with
  | zero =>
      rw [if_neg (by omega)]
      rfl
  | succ n =>
      rw [read, hss]
      by_cases h : Filter.depthAll fs ≤ n
      · rw [if_pos h, if_pos (by omega)]
        exact OpenGroup.finish_eq_ok_iff.mpr (by simpa using hmakes)
      · rw [if_neg h, if_neg (by omega)]
        rfl

/-! ### Sketches that can be read -/

variable {source : Text}

theorem split?_of_read {n : Nat} {text : Text} {f : Filter}
    (h : (leaf text).read source n = .ok f) :
    ∃ a, Assertion.split? text = some a ∧ a.filter = f := by
  cases n with
  | zero => cases h
  | succ n =>
      rw [read] at h
      cases hsplit : Assertion.split? text with
      | none => rw [hsplit] at h; cases h
      | some a =>
          rw [hsplit] at h
          cases h
          exact ⟨a, rfl, rfl⟩

theorem makes_of_read {n : Nat} {combinator : Combinator} {ss : List Sketch} {f : Filter}
    (h : (group combinator ss).read source n = .ok f) :
    ∃ m fs, readAll source m ss = .ok fs ∧ combinator.Makes fs f := by
  cases n with
  | zero => cases h
  | succ n =>
      rw [read] at h
      obtain ⟨fs, hss, hfinish⟩ := bind_eq_ok_iff.mp h
      have hmakes := OpenGroup.finish_eq_ok_iff.mp hfinish
      exact ⟨n, fs, hss, by simpa using hmakes⟩

mutual

theorem means_of_read : ∀ {n : Nat} {s : Sketch} {f : Filter}, s.read source n = .ok f → s.Means f
  | _, .leaf text, f, h => by
      obtain ⟨a, hsplit, rfl⟩ := split?_of_read h
      exact means_leaf hsplit
  | _, .group combinator ss, f, h => by
      obtain ⟨m, fs, hss, hmakes⟩ := makes_of_read h
      exact means_group (meansAll_of_readAll hss) hmakes

theorem meansAll_of_readAll : ∀ {n : Nat} {ss : List Sketch} {fs : List Filter},
    readAll source n ss = .ok fs → MeansAll ss fs
  | _, [], fs, h => by
      cases h
      exact meansAll_nil
  | _, s :: ss, fs, h => by
      obtain ⟨g, gs, hs, hss, rfl⟩ := readAll_cons_eq_ok h
      exact (means_of_read hs).cons (meansAll_of_readAll hss)

end

theorem depth_le_of_read {n : Nat} {s : Sketch} {f : Filter} (h : s.read source n = .ok f) :
    f.depth ≤ n := by
  by_contra hlt
  rw [means_of_read h, if_neg hlt] at h
  cases h

/-! ### Different sketches have different tokens -/

theorem token_ne_assertion (combinator : Combinator) (text : Text) :
    combinator.token ≠ .assertion text := by
  cases combinator <;> simp [Combinator.token]

theorem token_injective {c d : Combinator} (h : c.token = d.token) : c = d := by
  cases c <;> cases d <;> first | rfl | cases h

mutual

/-- No token list of a sketch is the start of another one's. -/
theorem tokens_append_inj : ∀ {s t : Sketch} {u v : List Token},
    s.tokens ++ u = t.tokens ++ v → s = t ∧ u = v
  | .leaf text, .leaf text', u, v, h => by
      simp only [tokens, List.cons_append, List.nil_append, List.cons.injEq, true_and,
        Token.assertion.injEq] at h
      exact ⟨by rw [h.1], h.2⟩
  | .leaf text, .group d ts, u, v, h => by
      simp only [tokens, List.cons_append, List.cons.injEq] at h
      exact absurd h.2.1.symm (token_ne_assertion d text)
  | .group c ss, .leaf text, u, v, h => by
      simp only [tokens, List.cons_append, List.cons.injEq] at h
      exact absurd h.2.1 (token_ne_assertion c text)
  | .group c ss, .group d ts, u, v, h => by
      simp only [tokens, List.cons_append, List.append_assoc, List.nil_append,
        List.cons.injEq, true_and] at h
      obtain ⟨hss, huv⟩ := tokensAll_append_inj h.2
      exact ⟨by rw [token_injective h.1, hss], huv⟩

theorem tokensAll_append_inj : ∀ {ss ts : List Sketch} {u v : List Token},
    tokensAll ss ++ .closeParen :: u = tokensAll ts ++ .closeParen :: v → ss = ts ∧ u = v
  | [], [], u, v, h => ⟨rfl, (List.cons.inj h).2⟩
  | [], t :: ts, u, v, h => by
      cases t <;> simp [tokensAll, tokens] at h
  | s :: ss, [], u, v, h => by
      cases s <;> simp [tokensAll, tokens] at h
  | s :: ss, t :: ts, u, v, h => by
      simp only [tokensAll, List.append_assoc] at h
      obtain ⟨hst, hrest⟩ := tokens_append_inj h
      obtain ⟨hsts, huv⟩ := tokensAll_append_inj hrest
      exact ⟨by rw [hst, hsts], huv⟩

end

end Sketch

/-! ### Tokens of a derived text -/

open Token

theorem text_token (combinator : Combinator) : combinator.token.text = [combinator.operator] := by
  cases combinator <;> rfl

theorem stands_token (combinator : Combinator) (rest : Text) :
    combinator.token.Stands true rest := by
  cases combinator <;> exact rfl

theorem token_ne_openParen (combinator : Combinator) :
    (combinator.token == .openParen) = false := by
  cases combinator <;> rfl

theorem scan_openParen (afterOpen : Bool) {w rest : Text} (hw : w.Blank) :
    scan afterOpen ('(' :: (w ++ rest)) = .openParen :: scan true rest := by
  have hstands : Token.openParen.Stands afterOpen (w ++ rest) := trivial
  have h := scan_text_append hstands
  rwa [show (Token.openParen == .openParen) = true from rfl, scan_blank_append hw] at h

theorem scan_closeParen (afterOpen : Bool) {w rest : Text} (hw : w.Blank) :
    scan afterOpen (')' :: (w ++ rest)) = .closeParen :: scan false rest := by
  have hstands : Token.closeParen.Stands afterOpen (w ++ rest) := trivial
  have h := scan_text_append hstands
  rwa [show (Token.closeParen == .openParen) = false from rfl, scan_blank_append hw] at h

theorem scan_operator (combinator : Combinator) {w rest : Text} (hw : w.Blank) :
    scan true (combinator.operator :: (w ++ rest)) = combinator.token :: scan false rest := by
  have h := scan_text_append (stands_token combinator (w ++ rest))
  rwa [text_token, token_ne_openParen, scan_blank_append hw] at h

theorem scan_item {body rest : Text} {f : Filter} (h : Item body f) :
    scan true (body ++ ')' :: rest) = .assertion body :: scan false (')' :: rest) := by
  obtain ⟨c, t, e, hc⟩ := h.exists_cons
  have hstands : (Token.assertion body).Stands true (')' :: rest) := by
    refine ⟨by rw [e]; exact List.cons_ne_nil _ _, h.flush, h.plain, ?_, ?_⟩
    · intro d hd
      cases hd
      rfl
    · intro _ d hd
      rw [e] at hd
      cases hd
      unfold operator?
      split
      all_goals first | rfl | exact absurd hc (by decide)
  exact scan_text_append hstands

/-- The sketches of the pieces of a group, once each piece has one that fits what it comes with. -/
theorem exists_sketches {α : Type} {Fits : Sketch → α → Prop} : ∀ {pieces : List (Text × α)},
    (∀ p ∈ pieces, ∃ s : Sketch, Fits s p.2 ∧
      ∀ afterOpen rest, scan afterOpen (p.1 ++ rest) = s.tokens ++ scan false rest) →
    ∃ ss : List Sketch, List.Forall₂ Fits ss (pieces.map Prod.snd) ∧
      ∀ rest, scan false (pieces.flatMap Prod.fst ++ rest) =
        Sketch.tokensAll ss ++ scan false rest
  | [], _ => ⟨[], .nil, fun _ => rfl⟩
  | p :: pieces, h => by
      obtain ⟨s, hs, htokens⟩ := h p List.mem_cons_self
      obtain ⟨ss, hss, htokensAll⟩ :=
        exists_sketches fun q hq => h q (List.mem_cons_of_mem p hq)
      refine ⟨s :: ss, .cons hs hss, fun rest => ?_⟩
      rw [List.flatMap_cons, List.append_assoc, htokens, htokensAll, Sketch.tokensAll,
        List.append_assoc]

/-- **The tokens of a derived text**, in front of any other text, are those of a sketch that stands
for the derived filter. -/
theorem Derives.exists_sketch {t : Text} {f : Filter} (h : Derives t f) :
    ∃ s : Sketch, s.Means f ∧
      ∀ afterOpen rest, scan afterOpen (t ++ rest) = s.tokens ++ scan false rest := by
  refine h.groupInduction ?_ ?_
  · intro w body w' f hw hitem hw'
    obtain ⟨a, hspells, rfl⟩ := hitem.exists_spells
    refine ⟨.leaf body, Sketch.means_leaf (Assertion.split?_of_spells hspells), ?_⟩
    intro afterOpen rest
    simp only [List.cons_append, List.append_assoc]
    rw [scan_openParen _ hw, scan_item hitem, scan_closeParen _ hw']
    rfl
  · intro w w₁ w' pieces combinator f hw hw₁ hw' ih hmakes
    obtain ⟨ss, hss, htokens⟩ := exists_sketches ih
    refine ⟨.group combinator ss,
      Sketch.means_group (Sketch.meansAll_of_forall₂ hss) hmakes, ?_⟩
    intro afterOpen rest
    simp only [List.cons_append, List.append_assoc]
    rw [scan_openParen _ hw, scan_operator _ hw₁, htokens, scan_closeParen _ hw', Sketch.tokens]
    simp only [List.cons_append, List.append_assoc, List.nil_append]

theorem tokens_of_scan_append {t : Text} {s : Sketch}
    (h : ∀ afterOpen rest, scan afterOpen (t ++ rest) = s.tokens ++ scan false rest) :
    tokens t = s.tokens := by
  have := h false []
  rwa [List.append_nil, scan_nil, List.append_nil] at this

theorem Derives.exists_tokens {t : Text} {f : Filter} (h : Derives t f) :
    ∃ s : Sketch, s.Means f ∧ tokens t = s.tokens := by
  obtain ⟨s, hs, htokens⟩ := h.exists_sketch
  exact ⟨s, hs, tokens_of_scan_append htokens⟩

/-! ### Texts with the tokens of a sketch -/

theorem exists_of_scan_eq_cons {afterOpen : Bool} {t : Text} {token : Token} {tokens : List Token}
    (h : scan afterOpen t = token :: tokens) :
    ∃ w w' rest : Text, w.Blank ∧ w'.Blank ∧ rest.Flush ∧ t = w ++ (token.text ++ (w' ++ rest)) ∧
      scan (token == .openParen) rest = tokens := by
  obtain ⟨w, rest, hw, rfl, -, htokens⟩ := scan_eq_cons_iff.mp h
  obtain ⟨w', hw', e⟩ := Text.exists_trimStart rest
  refine ⟨w, w', rest.trimStart, hw, hw', Text.flush_trimStart rest, by rw [← e], ?_⟩
  rw [scan_trimStart, htokens]

theorem exists_of_scan_flush {afterOpen : Bool} {t : Text} {token : Token} {tokens : List Token}
    (h : scan afterOpen t = token :: tokens) (ht : t.Flush) :
    ∃ w' rest : Text, w'.Blank ∧ rest.Flush ∧ t = token.text ++ (w' ++ rest) ∧
      scan (token == .openParen) rest = tokens := by
  obtain ⟨w, w', rest, hw, hw', hrest, rfl, htokens⟩ := exists_of_scan_eq_cons h
  obtain rfl := hw.eq_nil_of_flush_append ht
  exact ⟨w', rest, hw', hrest, rfl, htokens⟩

theorem item_of_scan {t text : Text} {a : Assertion} {later : List Token}
    (h : scan true t = .assertion text :: .closeParen :: later) (ht : t.Flush)
    (ha : a.Spells text) :
    ∃ w rest : Text, Item text a.filter ∧ w.Blank ∧ rest.Flush ∧ t = text ++ ')' :: (w ++ rest) ∧
      scan false rest = later := by
  obtain ⟨w, rest, hw, rfl, ⟨-, hflush, hplain, hhead, -⟩, hclose⟩ := scan_eq_cons_iff.mp h
  obtain rfl := hw.eq_nil_of_flush_append ht
  have hrest : rest.Flush := by
    intro c hc
    have hparen := hhead c hc
    simp only [isParen, Bool.or_eq_true, beq_iff_eq] at hparen
    rcases hparen with rfl | rfl <;> decide
  obtain ⟨w', rest', hw', hrest', rfl, hlater⟩ := exists_of_scan_flush hclose hrest
  exact ⟨w', rest', .of_spells ha hflush hplain, hw', hrest', rfl, hlater⟩

section scanned

variable {source : Text}

mutual

/-- **A text with the tokens of a sketch** that can be read is derived, up to the blanks in front
of it and what follows it. -/
theorem derives_of_scan : ∀ {n : Nat} {s : Sketch} {f : Filter} {afterOpen : Bool} {t : Text}
    {later : List Token}, s.read source n = .ok f → scan afterOpen t = s.tokens ++ later →
    ∃ w t₁ rest : Text, w.Blank ∧ Derives t₁ f ∧ rest.Flush ∧ t = w ++ (t₁ ++ rest) ∧
      scan false rest = later
  | _, .leaf text, f, afterOpen, t, later, hread, h => by
      obtain ⟨a, hsplit, rfl⟩ := Sketch.split?_of_read hread
      obtain ⟨w, w₁, r, hw, hw₁, hr, rfl, hassertion⟩ := exists_of_scan_eq_cons h
      obtain ⟨w', rest, hitem, hw', hrest, rfl, hlater⟩ :=
        item_of_scan hassertion hr (Assertion.spells_of_split? hsplit)
      refine ⟨w, _, rest, hw, .item hw₁ hitem hw', hrest, ?_, hlater⟩
      simp [Token.text]
  | _, .group combinator ss, f, afterOpen, t, later, hread, h => by
      obtain ⟨m, fs, hss, hmakes⟩ := Sketch.makes_of_read hread
      simp only [Sketch.tokens, List.cons_append, List.append_assoc, List.nil_append] at h
      obtain ⟨w, w₁, r, hw, hw₁, hr, rfl, hoperator⟩ := exists_of_scan_eq_cons h
      obtain ⟨w₂, r₂, hw₂, hr₂, rfl, hmembers⟩ := exists_of_scan_flush hoperator hr
      rw [token_ne_openParen] at hmembers
      obtain ⟨w₃, pieces, r₃, hw₃, hpieces, rfl, hr₃, rfl, hclose⟩ :=
        pieces_of_scan hss hmembers
      obtain ⟨w', rest, hw', hrest, rfl, hlater⟩ := exists_of_scan_flush hclose hr₃
      refine ⟨w, _, rest, hw, .group hw₁ (hw₂.append hw₃) hw' hpieces hmakes, hrest, ?_, hlater⟩
      rw [text_token]
      simp [Token.text]

theorem pieces_of_scan : ∀ {n : Nat} {ss : List Sketch} {fs : List Filter} {t : Text}
    {later : List Token}, Sketch.readAll source n ss = .ok fs →
    scan false t = Sketch.tokensAll ss ++ later →
    ∃ (w : Text) (pieces : List (Text × Filter)) (rest : Text), w.Blank ∧
      (∀ p ∈ pieces, Derives p.1 p.2) ∧ pieces.map Prod.snd = fs ∧ rest.Flush ∧
      t = w ++ (pieces.flatMap Prod.fst ++ rest) ∧ scan false rest = later
  | _, [], fs, t, later, hread, h => by
      cases hread
      obtain ⟨w, hw, e⟩ := Text.exists_trimStart t
      exact ⟨w, [], t.trimStart, hw, by simp, rfl, Text.flush_trimStart t, e,
        (scan_trimStart false t).trans h⟩
  | _, s :: ss, fs, t, later, hread, h => by
      obtain ⟨g, gs, hs, hss, rfl⟩ := Sketch.readAll_cons_eq_ok hread
      rw [Sketch.tokensAll, List.append_assoc] at h
      obtain ⟨w, t₁, r, hw, hderives, hr, rfl, hmembers⟩ := derives_of_scan hs h
      obtain ⟨w', pieces, rest, hw', hpieces, rfl, hrest, rfl, hlater⟩ :=
        pieces_of_scan hss hmembers
      obtain rfl := hw'.eq_nil_of_flush_append hr
      refine ⟨w, (t₁, g) :: pieces, rest, hw, List.forall_mem_cons.mpr ⟨hderives, hpieces⟩, rfl,
        hrest, ?_, hlater⟩
      simp

end

end scanned

theorem Derives.unique {t : Text} {f g : Filter} (hf : Derives t f) (hg : Derives t g) : f = g := by
  obtain ⟨s, hs, hstokens⟩ := hf.exists_tokens
  obtain ⟨s', hs', hstokens'⟩ := hg.exists_tokens
  have h : s.tokens ++ [] = s'.tokens ++ [] := by rw [← hstokens, ← hstokens']
  obtain rfl := (Sketch.tokens_append_inj h).1
  exact hs.eq hs'

/-! ### Whole texts -/

namespace Filter

/-- **What the reader makes of a derived text**: the derived filter, unless it is too deep. -/
theorem ofTokens_of_derives {t : Text} {f : Filter} (h : Derives t f) (source : Text) :
    ofTokens source (Token.tokens t) =
      if f.depth ≤ maxDepth then .ok f else .error (.nestingTooDeep maxDepth) := by
  obtain ⟨s, hs, htokens⟩ := h.exists_tokens
  rw [htokens, ofTokens_tokens, hs]

theorem derives_of_ofTokens {source t : Text} {f : Filter} (ht : t.Flush)
    (h : ofTokens source (Token.tokens t) = .ok f) : Derives t f ∧ f.depth ≤ maxDepth := by
  obtain ⟨s, htokens, hread⟩ := exists_sketch_of_ofTokens h
  have hscan : scan false t = s.tokens ++ [] := by
    rw [List.append_nil, htokens]
    rfl
  -- The derived part is the whole text: it starts where the text does, and no token is left.
  obtain ⟨w, t₁, rest, hw, hderives, hrest, rfl, hnil⟩ := derives_of_scan hread hscan
  obtain rfl := hw.eq_nil_of_flush_append ht
  obtain rfl := (scan_eq_nil_iff.mp hnil).eq_nil hrest
  rw [List.nil_append, List.append_nil]
  exact ⟨hderives, Sketch.depth_le_of_read hread⟩

theorem parenthesized_eq_cons (t : Text) : ∃ u, parenthesized t = '(' :: u := by
  unfold parenthesized
  split
  · rename_i h
    exact ⟨t.tail, List.eq_cons_of_mem_head? h⟩
  · exact ⟨t ++ [')'], rfl⟩

theorem not_derives_empty (f : Filter) : ¬ Derives (parenthesized []) f := by
  intro h
  change Derives ['(', ')'] f at h
  obtain ⟨s, -, htokens⟩ := h.exists_tokens
  have hscan : tokens ['(', ')'] = [.openParen, .closeParen] := by
    have hopen := @scan_openParen false [] [')'] Text.blank_nil
    have hclose := @scan_closeParen true [] [] Text.blank_nil
    simp only [List.nil_append] at hopen hclose
    rw [tokens, hopen, hclose, scan_nil]
  rw [hscan] at htokens
  cases s with
  | leaf text => simp [Sketch.tokens] at htokens
  | group combinator ss => cases combinator <;> simp [Sketch.tokens, Combinator.token] at htokens

theorem parse_eq (text : Text) :
    parse text =
      if text.trim.isEmpty then .error .emptyExpression
      else ofTokens text.trim (Token.tokens (parenthesized text.trim)) := rfl

/-- **Reading goes over the tokens of the text itself**, if the first one is a parenthesis; only the
last one loses the blanks at its end. -/
theorem parse_eq_ofTokens {text : Text} {before : List Token} {last : Token}
    (h : Token.tokens text = before ++ [last])
    (hfirst : (before ++ [last]).head? = some .openParen) :
    parse text = ofTokens text.trim (before ++ [last.trimEnd]) := by
  have hhead : text.trim.head? = some '(' := head?_trim_of_tokens (h ▸ hfirst)
  have hne : text.trim.isEmpty = false := by
    cases hnil : text.trim with
    | nil => rw [hnil] at hhead; cases hhead
    | cons c t => rfl
  rw [parse_eq, hne, if_neg Bool.false_ne_true, parenthesized, if_pos hhead]
  exact congrArg (ofTokens text.trim) (scan_trim h)

/-- **Reading a text with the tokens of a sketch** is reading the sketch. -/
theorem parse_of_tokens {text : Text} {s : Sketch} (h : Token.tokens text = s.tokens) :
    parse text = s.read text.trim maxDepth := by
  obtain ⟨before, e⟩ := s.exists_tokens_eq
  have hfirst := s.head?_tokens_append []
  rw [List.append_nil, e] at hfirst
  rw [parse_eq_ofTokens (h.trans e) hfirst, ← ofTokens_tokens, e]
  rfl

/-- **Reading a text that the grammar derives**, after trimming and in parentheses. -/
theorem parse_of_derives {text : Text} {f : Filter} (h : Derives (parenthesized text.trim) f) :
    parse text = if f.depth ≤ maxDepth then .ok f else .error (.nestingTooDeep maxDepth) := by
  have hne : text.trim.isEmpty = false := by
    cases hnil : text.trim with
    | nil =>
        rw [hnil] at h
        exact absurd h (not_derives_empty f)
    | cons c t => rfl
  rw [parse_eq, hne]
  exact ofTokens_of_derives h text.trim

/-- **Reading a derived text itself**: it stands in parentheses, and blanks behind it do not
matter. -/
theorem parse_derived {t : Text} {f : Filter} (h : Derives t f) :
    parse t = if f.depth ≤ maxDepth then .ok f else .error (.nestingTooDeep maxDepth) := by
  obtain ⟨s, hs, htokens⟩ := h.exists_tokens
  rw [parse_of_tokens htokens, hs]

/-- **Reading succeeds only on texts that the grammar derives.** -/
theorem derives_of_parse {text : Text} {f : Filter} (h : parse text = .ok f) :
    Derives (parenthesized text.trim) f ∧ f.depth ≤ maxDepth := by
  rw [parse_eq] at h
  split at h
  · cases h
  · obtain ⟨u, e⟩ := parenthesized_eq_cons text.trim
    refine derives_of_ofTokens ?_ h
    rw [e]
    exact Text.flush_cons.mpr (by decide)

/-- The trimmed text denotes the filter as it is, or in parentheses if it does not start with
one. -/
def Writes (text : Text) (f : Filter) : Prop :=
  Derives text.trim f ∨ (text.trim.head? ≠ some '(' ∧ Derives ('(' :: text.trim ++ [')']) f)

theorem writes_iff {text : Text} {f : Filter} :
    Writes text f ↔ Derives (parenthesized text.trim) f := by
  unfold Writes parenthesized
  split
  · rename_i hhead
    simp [hhead]
  · rename_i hhead
    constructor
    · rintro (h | ⟨-, h⟩)
      · exact absurd h.head?_eq hhead
      · exact h
    · intro h
      exact .inr ⟨hhead, h⟩

/-- **Reading accepts exactly the grammar**, up to the greatest depth, and the grammar gives a text
one filter at most, of whatever depth. -/
theorem parse_eq_ok_iff_writes :
    (∀ (text : Text) (f : Filter),
      parse text = .ok f ↔ f.depth ≤ maxDepth ∧ Writes text f) ∧
    ∀ (text : Text) (f g : Filter), Writes text f → Writes text g → f = g := by
  constructor
  · intro text f
    rw [writes_iff]
    constructor
    · intro h
      obtain ⟨hderives, hdepth⟩ := derives_of_parse h
      exact ⟨hdepth, hderives⟩
    · rintro ⟨hdepth, hderives⟩
      rw [parse_of_derives hderives, if_pos hdepth]
  · intro text f g hf hg
    exact (writes_iff.mp hf).unique (writes_iff.mp hg)

/-- Blanks around every part, and the outer parentheses left out. -/
theorem writes_of_spaced_text :
    Writes " & ( uid ~=  a b ) (cn= a*b) ( mail ) "
      (and [item "uid" .approx "a b", substring "cn" "a*b", presence "mail"]) :=
  ((parse_eq_ok_iff_writes.1 _ _).mp (by decide +kernel)).2

end Filter

end SearchFilter
