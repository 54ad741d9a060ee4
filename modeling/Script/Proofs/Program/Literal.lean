import Script.Proofs.Program.Sequence
import Script.Text.Quoted

namespace Script

namespace Source

/-- Where an operand is due, the text is read as these lexemes. Behind it the source ends, or a
character follows that cannot go on with it. -/
def SpellsOperand (text : String) (ls : List Lexeme) : Prop :=
  ∀ before rest, closesOperand before = false → (∀ c ∈ rest.head?, c ∈ [',', ']', ' ']) →
    Spells before text.toList ls rest

def Denotes {α : Type} (derives : List Lexeme → α → Prop) (text : String) (a : α) : Prop :=
  ∃ ls, derives ls a ∧ SpellsOperand text ls

theorem ends_operand {c : Char} (hc : c ∈ [',', ']', ' ']) :
    Text.isAlphabetic c = false ∧ c.isDigit = false ∧ c ≠ '.' := by
  simp only [List.mem_cons, List.not_mem_nil, or_false] at hc
  rcases hc with rfl | rfl | rfl <;> decide

theorem denotes_name {name : String} (h : IsName name) :
    Denotes (Derives .assignment) name (.name name) := by
  have hname : Derives .primary [⟨.identifier, name⟩] (.name name) := .name rfl
  refine ⟨_, hname.toAssignment, fun before rest _ hrest => ?_⟩
  exact spells_name h fun c hc => (ends_operand (hrest c hc)).1

theorem denotes_number {text : String} {x : Float} (h : IsNumber text.toList)
    (hread : Number.read? text = some x) : Denotes (Derives .assignment) text (.number x) := by
  have hnumber : Derives .primary [⟨.number, text⟩] (.number x) := .number rfl hread
  refine ⟨_, hnumber.toAssignment, fun before rest hbefore hrest => ?_⟩
  exact spells_number h (fun _ => hbefore) fun c hc => (ends_operand (hrest c hc)).2

theorem denotes_quoted {text : String}
    (h : ∀ c ∈ text.toList, Stretch.Conveys '"' c (Text.escape '"' c)) :
    Denotes (Derives .assignment) (Text.quoted text) (.string text) := by
  have hstring : Derives .primary [⟨.string, text⟩] (.string text) := .string rfl
  refine ⟨_, hstring.toAssignment, fun before rest _ _ => ?_⟩
  rw [Text.quoted, Text.quotedWith, String.toList_ofList]
  exact spells_quoted h

theorem spellsOperand_intercalate {texts : List String} {parts : List (List Lexeme)}
    (h : List.Forall₂ SpellsOperand texts parts) :
    SpellsOperand (", ".intercalate texts) (separated parts) := by
  induction h with
  | nil => exact fun _ _ _ _ => Spells.nil
  | @cons text part texts parts hpart hparts ih =>
    cases hparts with
    | nil => simpa [separated_singleton] using hpart
    | @cons next part' texts parts =>
      intro before rest hbefore hrest
      have htext : (", ".intercalate (text :: next :: texts)).toList =
          text.toList ++ ([','] ++ ([' '] ++ (", ".intercalate (next :: texts)).toList)) := by
        simp [String.intercalate_cons_cons]
      rw [htext, separated_cons_cons]
      refine (hpart before _ hbefore (by simp)).append ?_
      refine (spells_single (by decide : (',', Kind.comma) ∈ Stretch.singles)).append ?_
      exact (spells_blank (by decide)).append (ih _ rest rfl hrest)

/-- What the texts of a row denote, one after the other. -/
theorem exists_parts {α : Type} {derives : List Lexeme → α → Prop} {texts : List String}
    {as : List α} (h : List.Forall₂ (Denotes derives) texts as) :
    ∃ parts, List.Forall₂ derives parts as ∧
      SpellsOperand (", ".intercalate texts) (separated parts) := by
  have hparts : ∃ parts, List.Forall₂ derives parts as ∧
      List.Forall₂ SpellsOperand texts parts := by
    induction h with
    | nil => exact ⟨[], .nil, .nil⟩
    | cons hfirst _ ih =>
      obtain ⟨part, hderives, hspells⟩ := hfirst
      obtain ⟨parts, hall, hallSpell⟩ := ih
      exact ⟨part :: parts, .cons hderives hall, .cons hspells hallSpell⟩
  obtain ⟨parts, hderives, hspells⟩ := hparts
  exact ⟨parts, hderives, spellsOperand_intercalate hspells⟩

theorem denotes_array {texts : List String} {es : List Expr}
    (h : List.Forall₂ (Denotes (Derives .assignment)) texts es) :
    Denotes (Derives .assignment) ("[" ++ ", ".intercalate texts ++ "]") (.array es) := by
  obtain ⟨parts, hderives, hspells⟩ := exists_parts h
  have harray : Derives .primary
      (Kind.openBracket.mark :: separated parts ++ [Kind.closeBracket.mark]) (.array es) :=
    .array rfl (.of_parts hderives) rfl
  refine ⟨_, harray.toAssignment, fun before rest _ _ => ?_⟩
  have htext : ("[" ++ ", ".intercalate texts ++ "]").toList =
      ['['] ++ ((", ".intercalate texts).toList ++ [']']) := by simp
  rw [htext, List.cons_append]
  refine (spells_single (by decide : ('[', Kind.openBracket) ∈ Stretch.singles)).append ?_
  refine (hspells _ _ rfl (by simp)).append ?_
  exact spells_single (by decide : (']', Kind.closeBracket) ∈ Stretch.singles)

theorem denotes_property {key text : String} {e : Expr} (hkey : IsName key)
    (h : Denotes (Derives .assignment) text e) :
    Denotes DerivesProperty (key ++ ": " ++ text) (.given key e) := by
  obtain ⟨ls, hderives, hspells⟩ := h
  have hproperty : DerivesProperty (⟨.identifier, key⟩ :: Kind.colon.mark :: ls) (.given key e) :=
    .given rfl rfl hderives
  refine ⟨_, hproperty, fun before rest hbefore hrest => ?_⟩
  have htext : (key ++ ": " ++ text).toList = key.toList ++ ([':'] ++ ([' '] ++ text.toList)) := by
    simp
  rw [htext]
  refine (spells_name hkey (by simp; decide)).append ?_
  refine (spells_single (by decide : (':', Kind.colon) ∈ Stretch.singles)).append ?_
  exact (spells_blank (by decide)).append (hspells _ rest rfl hrest)

theorem denotes_braces : Denotes (Derives .assignment) "\x7b\x7d" (.object []) := by
  have hobject : Derives .object [Kind.openBrace.mark, Kind.closeBrace.mark] (.object []) :=
    .object rfl .nil rfl
  refine ⟨_, hobject.toAssignment, fun before rest _ _ => ?_⟩
  exact (spells_single (by decide : ('\x7b', Kind.openBrace) ∈ Stretch.singles)).append
    (spells_single (by decide : ('\x7d', Kind.closeBrace) ∈ Stretch.singles))

theorem denotes_object {texts : List String} {ps : List Property}
    (h : List.Forall₂ (Denotes DerivesProperty) texts ps) :
    Denotes (Derives .assignment) ("\x7b " ++ ", ".intercalate texts ++ " \x7d") (.object ps) := by
  obtain ⟨parts, hderives, hspells⟩ := exists_parts h
  have hobject : Derives .object
      (Kind.openBrace.mark :: separated parts ++ [Kind.closeBrace.mark]) (.object ps) :=
    .object rfl (.of_parts hderives) rfl
  refine ⟨_, hobject.toAssignment, fun before rest _ _ => ?_⟩
  have htext : ("\x7b " ++ ", ".intercalate texts ++ " \x7d").toList =
      ['\x7b'] ++ ([' '] ++ ((", ".intercalate texts).toList ++ ([' '] ++ ['\x7d']))) := by simp
  rw [htext, List.cons_append]
  refine (spells_single (by decide : ('\x7b', Kind.openBrace) ∈ Stretch.singles)).append ?_
  refine (spells_blank (by decide)).append ?_
  refine (hspells _ _ rfl (by simp)).append ?_
  refine (spells_blank (by decide)).append ?_
  exact spells_single (by decide : ('\x7d', Kind.closeBrace) ∈ Stretch.singles)

end Source

/-- A source that denotes an expression is a program of that expression alone. -/
theorem Program.parse_of_denotes {source : String} {e : Expr}
    (h : Source.Denotes (Derives .assignment) source e) : parse source = .ok [.expr e] := by
  obtain ⟨ls, hderives, hspells⟩ := h
  have hall := (hspells [] [] rfl (by simp)).lexemes_eq
  rw [String.ofList_toList] at hall
  exact parse_expression hall hderives

end Script
