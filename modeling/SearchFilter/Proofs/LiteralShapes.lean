import Mathlib.Data.Set.List
import SearchFilter.Proofs.Steps
import SearchFilter.Symbolic.Literal

/-! # Which JSON values are symbolic literals

`Json.StandsFor` lists the shapes of a symbolic literal, each with the expression that it stands
for, and `Json.Fails` says of every other value what is wrong with it.  Reading a JSON value gives
exactly the one or the other (`Expression.ofJson_eq_iff`).

Two shapes overlap: an array whose head names a combinator may be as short as an array with an
attribute.  The nine texts that make a group are listed (`groupHeads`), and with any other text in
front an array is an attribute or a pair, be it called `and`.

Only the items of a group are literals themselves, so a failure is that of the first item of a group
that is none, or it is made at the value itself. -/

namespace SearchFilter

/-! ### Heads of groups -/

/-- The texts at the head of an array that make it a group. -/
def groupHeads : List Text := [":and", ":or", ":not", ":&", ":|", ":!", "&", "|", "!"]

/-- The name is the text, less a colon in front of it. -/
def DropsColon (text name : Text) : Prop :=
  text = ':' :: name ∨ (text.head? ≠ some ':' ∧ text = name)

theorem dropsColon_iff {text name : Text} : DropsColon text name ↔ name = symbolName text := by
  unfold DropsColon symbolName
  split
  · simp [eq_comm]
  · rename_i hne
    have hhead : text.head? ≠ some ':' := by
      intro h
      obtain ⟨rest, rfl⟩ := List.head?_eq_some_iff.mp h
      exact hne rest rfl
    constructor
    · rintro (h | ⟨-, h⟩)
      · exact absurd h (hne name)
      · exact h.symm
    · rintro rfl
      exact .inr ⟨hhead, rfl⟩

theorem Combinator.isSome_ofName?_iff {name : Text} :
    (ofName? name).isSome = true ↔ name ∈ (["and", "&", "or", "|", "not", "!"] : List Text) := by
  simp [ofName?, list, Combinator.name, operator, or_assoc]

theorem mem_groupHeads_iff {head : Text} :
    head ∈ groupHeads ↔
      isSymbol head = true ∧ (Combinator.ofName? (symbolName head)).isSome = true := by
  rw [Combinator.isSome_ofName?_iff]
  constructor
  · intro h
    simp only [groupHeads, List.mem_cons, List.not_mem_nil, or_false] at h
    rcases h with rfl | rfl | rfl | rfl | rfl | rfl | rfl | rfl | rfl <;> decide
  · rintro ⟨hsymbol, hname⟩
    simp only [isSymbol, Bool.or_eq_true, beq_iff_eq] at hsymbol
    rcases hsymbol with ((hcolon | rfl) | rfl) | rfl
    · obtain ⟨name, rfl⟩ := List.head?_eq_some_iff.mp hcolon
      rw [symbolName] at hname
      simp only [List.mem_cons, List.not_mem_nil, or_false] at hname
      rcases hname with rfl | rfl | rfl | rfl | rfl | rfl <;> decide
    all_goals decide

theorem isSymbol_iff {head : Text} (h : head ∉ groupHeads) :
    isSymbol head = true ↔ head.head? = some ':' := by
  simp only [isSymbol, Bool.or_eq_true, beq_iff_eq]
  refine ⟨?_, fun hcolon => .inl (.inl (.inl hcolon))⟩
  rintro (((hcolon | rfl) | rfl) | rfl)
  · exact hcolon
  all_goals exact absurd (by decide) h

namespace Json

/-! ### Shapes -/

/-- `StandsFor v e`: the JSON value is a symbolic literal and stands for the expression.  The pieces
of a group are its items, each with the clause that it stands for. -/
inductive StandsFor : Json → Expression → Prop
  | null : StandsFor .null .empty
  | nothing : StandsFor (.array []) .empty
  | symbol (attr : Text) : StandsFor (.string (':' :: attr)) (.presence attr)
  | text {text : Text} : text.head? ≠ some ':' → StandsFor (.string text) (.literal text)
  | group {head : Text} {pieces : List (Json × Expression)} : head ∈ groupHeads →
      (∀ p ∈ pieces, StandsFor p.1 p.2) →
      StandsFor (.array (.string head :: pieces.map Prod.fst)) (.nested head (pieces.map Prod.snd))
  | single {head attr : Text} : head ∉ groupHeads → DropsColon head attr →
      StandsFor (.array [.string head]) (.presence attr)
  | pair {head attr : Text} (value : Text) : head ∉ groupHeads → DropsColon head attr →
      StandsFor (.array [.string head, .string value]) (.pair attr value)
  | mapping {key attr : Text} (values : List Text) : DropsColon key attr →
      StandsFor (.object [(key, .array (values.map .string))]) (.mapping attr values)

/-- The items behind the head of an array leave it an attribute or a pair. -/
def IsShort (items : List Json) : Prop := items = [] ∨ ∃ value, items = [.string value]

/-- `Malformed v fault`: the value by itself has no shape that a symbolic literal can have. -/
inductive Malformed : Json → LiteralFault → Prop
  | boolean (value : Bool) :
      Malformed (.boolean value) (.unexpectedValue (compact (.boolean value)))
  | number (value : Number) : Malformed (.number value) (.unexpectedValue (compact (.number value)))
  | headless {item : Json} (items : List Json) : (∀ head, item ≠ .string head) →
      Malformed (.array (item :: items)) .headlessSequence
  | long {head : Text} {items : List Json} : head ∉ groupHeads → head.head? ≠ some ':' →
      ¬ IsShort items → Malformed (.array (.string head :: items)) (.neitherGroupNorPair head)
  | size {members : List (Text × Json)} : members.length ≠ 1 →
      Malformed (.object members) (.mappingSize members.length)
  | values {key : Text} {value : Json} : (∀ items, value ≠ .array items) →
      Malformed (.object [(key, value)]) (.valuesNotArray key)
  | value {key : Text} (values : List Text) {item : Json} (later : List Json) :
      (∀ value, item ≠ .string value) →
      Malformed (.object [(key, .array (values.map .string ++ item :: later))])
        (.valueNotString item.compact key)

/-- `Fails v error`: the value is no symbolic literal, for the reason that the error gives. -/
inductive Fails : Json → FilterError → Prop
  | item {head : Text} {before : List Json} {item : Json} (later : List Json)
      {error : FilterError} : head ∈ groupHeads → (∀ u ∈ before, ∃ e, StandsFor u e) →
      Fails item error → Fails (.array (.string head :: (before ++ item :: later))) error
  | symbol {head : Text} {items : List Json} : head ∉ groupHeads → head.head? = some ':' →
      ¬ IsShort items → Fails (.array (.string head :: items))
        (.unknownCombinator head (Combinator.suggestion? head))
  | malformed {v : Json} {fault : LiteralFault} : Malformed v fault →
      Fails v (.invalidLiteral fault)

/-- Induction on JSON values through the items of arrays, which is as far as literals go. -/
@[elab_as_elim]
theorem induct {P : Json → Prop} (array : ∀ items, (∀ u ∈ items, P u) → P (.array items))
    (other : ∀ v, (∀ items, v ≠ .array items) → P v) (v : Json) : P v :=
  @Json.rec P (fun items => ∀ u ∈ items, P u) (fun _ => True) (fun _ => True)
    (other .null (by simp)) (fun value => other (.boolean value) (by simp))
    (fun value => other (.number value) (by simp)) (fun value => other (.string value) (by simp))
    array (fun members _ => other (.object members) (by simp)) (by simp)
    (fun _ _ hitem hitems => List.forall_mem_cons.mpr ⟨hitem, hitems⟩) trivial
    (fun _ _ _ _ => trivial) (fun _ _ _ => trivial) v

end Json

/-! ### Reading the parts -/

namespace Expression

theorem ofJsonAll_eq_mapM : ∀ items : List Json, ofJsonAll items = items.mapM ofJson
  | [] => rfl
  | item :: items => by
      rw [ofJsonAll, List.mapM_cons, ofJsonAll_eq_mapM items]

theorem ofJson_of_mem_groupHeads {head : Text} (h : head ∈ groupHeads) (items : List Json) :
    ofJson (.array (.string head :: items)) = (do
      let clauses ← items.mapM ofJson
      return nested head clauses) := by
  obtain ⟨hsymbol, hname⟩ := mem_groupHeads_iff.mp h
  rw [ofJson, hsymbol, hname, ofJsonAll_eq_mapM]
  rfl

theorem ofJson_of_notMem_groupHeads {head : Text} (h : head ∉ groupHeads) (items : List Json) :
    ofJson (.array (.string head :: items)) = ofItems head items := by
  rw [ofJson]
  refine if_neg fun hgroup => h (mem_groupHeads_iff.mpr ?_)
  simpa using hgroup

theorem ofItems_of_not_isShort {head : Text} {items : List Json} (h : ¬ Json.IsShort items) :
    ofItems head items =
      .error (if isSymbol head then Combinator.unknown head
        else .invalidLiteral (.neitherGroupNorPair head)) := by
  unfold ofItems
  split
  · exact absurd (.inl rfl) h
  · exact absurd (.inr ⟨_, rfl⟩) h
  · rfl

theorem mappedValue_eq_ok_iff {key : Text} {item : Json} {value : Text} :
    mappedValue key item = .ok value ↔ item = .string value := by
  cases item <;> simp [mappedValue]

theorem mappedValue_of_ne_string {key : Text} {item : Json} (h : ∀ value, item ≠ .string value) :
    mappedValue key item = .error (.invalidLiteral (.valueNotString item.compact key)) := by
  cases item with
  | string value => exact absurd rfl (h value)
  | _ => rfl

theorem mapM_mappedValue_eq_ok_iff {key : Text} {items : List Json} {values : List Text} :
    items.mapM (mappedValue key) = .ok values ↔ items = values.map .string := by
  simp only [mapM_eq_ok_iff, mappedValue_eq_ok_iff]
  rw [← List.forall₂_eq_eq_eq, List.forall₂_map_right_iff]

/-- **A value is read as the expression that it stands for.** -/
theorem ofJson_of_standsFor {v : Json} {e : Expression} (h : v.StandsFor e) : ofJson v = .ok e := by
  induction h with
  | null => rfl
  | nothing => rfl
  | symbol attr => rfl
  | @text text hhead =>
      rw [ofJson]
      rintro attr rfl
      exact hhead rfl
  | @group head pieces hhead _ ih =>
      have hclauses : (pieces.map Prod.fst).mapM ofJson = .ok (pieces.map Prod.snd) := by
        rw [mapM_eq_ok_iff, List.forall₂_map_left_iff, List.forall₂_map_right_iff]
        exact List.forall₂_same.mpr ih
      rw [ofJson_of_mem_groupHeads hhead, hclauses]
      rfl
  | single hhead hname =>
      rw [ofJson_of_notMem_groupHeads hhead, ofItems, dropsColon_iff.mp hname]
  | pair value hhead hname =>
      rw [ofJson_of_notMem_groupHeads hhead, ofItems, dropsColon_iff.mp hname]
  | mapping values hname =>
      rw [ofJson, ofMembers, mapM_mappedValue_eq_ok_iff.mpr rfl, dropsColon_iff.mp hname]
      rfl

theorem ofJson_of_malformed {v : Json} {fault : LiteralFault} (h : v.Malformed fault) :
    ofJson v = .error (.invalidLiteral fault) := by
  cases h with
  | boolean value => rfl
  | number value => rfl
  | @headless item items hitem =>
      cases item with
      | string head => exact absurd rfl (hitem head)
      | _ => rfl
  | @long head items hhead hcolon hshort =>
      rw [ofJson_of_notMem_groupHeads hhead, ofItems_of_not_isShort hshort,
        if_neg (mt (isSymbol_iff hhead).mp hcolon)]
  | @size members hsize =>
      match members, hsize with
      | [], _ => rfl
      | _ :: _ :: _, _ => rw [ofJson, ofMembers] <;> simp
  | @values key value hvalue =>
      cases value with
      | array items => exact absurd rfl (hvalue items)
      | _ => rfl
  | @value key values item later hitem =>
      have hvalues : ∀ u ∈ values.map Json.string, ∃ t, mappedValue key u = .ok t := by
        intro u hu
        obtain ⟨t, -, rfl⟩ := List.mem_map.mp hu
        exact ⟨t, rfl⟩
      have hfails := mapM_eq_error_iff.mpr
        ⟨_, item, later, rfl, hvalues, mappedValue_of_ne_string hitem⟩
      rw [ofJson, ofMembers, hfails]
      rfl

/-- **A value that is no literal is refused** for the reason there is. -/
theorem ofJson_of_fails {v : Json} {error : FilterError} (h : v.Fails error) :
    ofJson v = .error error := by
  induction h with
  | item later hhead hbefore _ ih =>
      have hread : ∀ u ∈ _, ∃ e, ofJson u = .ok e := fun u hu =>
        (hbefore u hu).imp fun _ => ofJson_of_standsFor
      rw [ofJson_of_mem_groupHeads hhead, mapM_eq_error_iff.mpr ⟨_, _, later, rfl, hread, ih⟩]
      rfl
  | symbol hhead hcolon hshort =>
      rw [ofJson_of_notMem_groupHeads hhead, ofItems_of_not_isShort hshort,
        if_pos ((isSymbol_iff hhead).mpr hcolon)]
      rfl
  | malformed h => exact ofJson_of_malformed h

end Expression

/-! ### All values -/

/-- Of elements that are in order or at fault, either all are in order, or some one is the first
that is not. -/
theorem forall_or_exists_first {α : Type} {Good Bad : α → Prop} : ∀ {as : List α},
    (∀ a ∈ as, Good a ∨ Bad a) → (∀ a ∈ as, Good a) ∨
      ∃ before a later, as = before ++ a :: later ∧ (∀ b ∈ before, Good b) ∧ Bad a
  | [], _ => .inl (by simp)
  | a :: as, h => by
      obtain ⟨ha, has⟩ := List.forall_mem_cons.mp h
      rcases ha with hgood | hbad
      · rcases forall_or_exists_first has with hall | ⟨before, b, later, rfl, hbefore, hb⟩
        · exact .inl (List.forall_mem_cons.mpr ⟨hgood, hall⟩)
        · exact .inr ⟨a :: before, b, later, rfl, List.forall_mem_cons.mpr ⟨hgood, hbefore⟩, hb⟩
      · exact .inr ⟨[], a, as, rfl, by simp, hbad⟩

namespace Json

theorem exists_pieces_of_forall : ∀ {items : List Json}, (∀ u ∈ items, ∃ e, StandsFor u e) →
    ∃ pieces : List (Json × Expression), pieces.map Prod.fst = items ∧
      ∀ p ∈ pieces, StandsFor p.1 p.2
  | [], _ => ⟨[], rfl, by simp⟩
  | u :: items, h => by
      obtain ⟨⟨e, he⟩, hitems⟩ := List.forall_mem_cons.mp h
      obtain ⟨pieces, rfl, hpieces⟩ := exists_pieces_of_forall hitems
      exact ⟨(u, e) :: pieces, rfl, List.forall_mem_cons.mpr ⟨he, hpieces⟩⟩

theorem exists_map_string {items : List Json} (h : ∀ u ∈ items, ∃ value, u = string value) :
    ∃ values : List Text, items = values.map string := by
  have hrange : items ∈ Set.range (List.map string) := by
    rw [Set.range_list_map]
    exact fun u hu => (h u hu).imp fun _ => Eq.symm
  exact hrange.imp fun _ => Eq.symm

/-- The value is a literal, or it fails to be one for some reason. -/
def Settled (v : Json) : Prop := (∃ e, v.StandsFor e) ∨ ∃ error, v.Fails error

theorem settled_group {head : Text} {items : List Json} (hhead : head ∈ groupHeads)
    (hitems : ∀ u ∈ items, u.Settled) : (array (string head :: items)).Settled := by
  rcases forall_or_exists_first hitems with hall | ⟨before, u, later, rfl, hbefore, error, herror⟩
  · obtain ⟨pieces, rfl, hpieces⟩ := exists_pieces_of_forall hall
    exact .inl ⟨_, .group hhead hpieces⟩
  · exact .inr ⟨error, .item later hhead hbefore herror⟩

theorem settled_items {head : Text} (hhead : head ∉ groupHeads) (items : List Json) :
    (array (string head :: items)).Settled := by
  have hname : DropsColon head (symbolName head) := dropsColon_iff.mpr rfl
  by_cases hshort : IsShort items
  · rcases hshort with rfl | ⟨value, rfl⟩
    · exact .inl ⟨_, .single hhead hname⟩
    · exact .inl ⟨_, .pair value hhead hname⟩
  · by_cases hcolon : head.head? = some ':'
    · exact .inr ⟨_, .symbol hhead hcolon hshort⟩
    · exact .inr ⟨_, .malformed (.long hhead hcolon hshort)⟩

theorem settled_object (members : List (Text × Json)) : (object members).Settled := by
  match members with
  | [] => exact .inr ⟨_, .malformed (.size (by simp))⟩
  | _ :: _ :: _ => exact .inr ⟨_, .malformed (.size (by simp))⟩
  | [(key, value)] =>
      cases value with
      | array items =>
          have hitems : ∀ u ∈ items, (∃ value, u = string value) ∨ ∀ value, u ≠ string value :=
            fun u _ => by rw [← not_exists]; exact em _
          rcases forall_or_exists_first hitems with hall | ⟨before, u, later, rfl, hbefore, hu⟩
          · obtain ⟨values, rfl⟩ := exists_map_string hall
            exact .inl ⟨_, .mapping values (dropsColon_iff.mpr rfl)⟩
          · obtain ⟨values, rfl⟩ := exists_map_string hbefore
            exact .inr ⟨_, .malformed (.value values later hu)⟩
      | _ => exact .inr ⟨_, .malformed (.values (by simp))⟩

/-- **The shapes and the failures together cover every value.** -/
theorem settled (v : Json) : v.Settled := by
  -- Only the items of an array are literals in their turn.
  induction v using induct with
  | array items ih =>
      match items with
      | [] => exact .inl ⟨_, .nothing⟩
      | item :: items =>
          cases item with
          | string head =>
              by_cases hhead : head ∈ groupHeads
              · exact settled_group hhead fun u hu => ih u (List.mem_cons_of_mem _ hu)
              · exact settled_items hhead items
          | _ => exact .inr ⟨_, .malformed (.headless items (by simp))⟩
  | other v hv =>
      cases v with
      | null => exact .inl ⟨_, .null⟩
      | boolean value => exact .inr ⟨_, .malformed (.boolean value)⟩
      | number value => exact .inr ⟨_, .malformed (.number value)⟩
      | string text =>
          by_cases hcolon : text.head? = some ':'
          · obtain ⟨attr, rfl⟩ := List.head?_eq_some_iff.mp hcolon
            exact .inl ⟨_, .symbol attr⟩
          · exact .inl ⟨_, .text hcolon⟩
      | array items => exact absurd rfl (hv items)
      | object members => exact settled_object members

end Json

/-- **Reading a JSON value accepts exactly the shapes of a symbolic literal**, at every level, and
each of them as the expression that it stands for.  Of any other value it tells what is wrong: the
first item of a group that is no literal, a symbol that names no combinator in front of items that
make no attribute and no pair, or a value that has no shape at all. -/
theorem Expression.ofJson_eq_iff (v : Json) :
    (∀ e, ofJson v = .ok e ↔ v.StandsFor e) ∧ ∀ error, ofJson v = .error error ↔ v.Fails error := by
  refine ⟨fun e => ⟨fun h => ?_, ofJson_of_standsFor⟩, fun error => ⟨fun h => ?_, ofJson_of_fails⟩⟩
  · rcases v.settled with ⟨e', he'⟩ | ⟨error, herror⟩
    · cases h.symm.trans (ofJson_of_standsFor he')
      exact he'
    · cases h.symm.trans (ofJson_of_fails herror)
  · rcases v.settled with ⟨e, he⟩ | ⟨error', herror'⟩
    · cases h.symm.trans (ofJson_of_standsFor he)
    · cases h.symm.trans (ofJson_of_fails herror')
      exact herror'

end SearchFilter
