import Mathlib.Data.List.Forall2
import Script.Proofs.Program.Completeness
import Script.Proofs.Token.Writing

namespace Script

def Kind.mark (kind : Kind) : Lexeme :=
  ⟨kind, kind.spelling?.getD ""⟩

/-- The level of the right operand. The left one may be of the operator's own level. -/
def Operator.operand : Operator → Level
  | add | subtract => .multiplicative
  | multiply | divide | remainder => .linked
  | greater | greaterEqual | less | lessEqual | equal | notEqual => .additive

theorem Operator.operand?_level (operator : Operator) :
    operator.level.operand? = some operator.operand := by
  cases operator <;> rfl

def Expr.level : Expr → Level
  | number _ | string _ | name _ | array _ => .primary
  | member _ _ _ | call _ _ => .linked
  | binary operator _ _ => operator.level
  | object _ => .object
  | assign _ _ => .assignment

/-- Lexemes of an expression at a place for the given level: in parentheses if its own is lower. -/
def Level.enclose (place : Level) (e : Expr) (ls : List Lexeme) : List Lexeme :=
  if e.level.rank < place.rank then Kind.openParen.mark :: ls ++ [Kind.closeParen.mark] else ls

def separated (parts : List (List Lexeme)) : List Lexeme :=
  [Kind.comma.mark].intercalate parts

theorem separated_cons_cons (part next : List Lexeme) (parts : List (List Lexeme)) :
    separated (part :: next :: parts) = part ++ Kind.comma.mark :: separated (next :: parts) := by
  rw [separated, List.intercalate_cons_cons, List.append_assoc]
  rfl

theorem separated_singleton (part : List Lexeme) : separated [part] = part := by
  simp [separated]

section Print

variable (numeral : Float → String)

mutual

def Expr.print : Expr → List Lexeme
  | .number value => [⟨.number, numeral value⟩]
  | .string text => [⟨.string, text⟩]
  | .name id => [⟨.identifier, id⟩]
  | .binary operator left right =>
    operator.level.enclose left left.print ++
      operator.sign :: operator.operand.enclose right right.print
  | .assign target value =>
    Level.object.enclose target target.print ++ Kind.equals.mark :: value.print
  | .object properties =>
    Kind.openBrace.mark :: separated (printProperties properties) ++ [Kind.closeBrace.mark]
  | .array elements =>
    Kind.openBracket.mark :: separated (printEach elements) ++ [Kind.closeBracket.mark]
  | .member object property false =>
    Level.linked.enclose object object.print ++ Kind.dot.mark :: property.print
  | .member object property true =>
    Level.linked.enclose object object.print ++
      (Kind.openBracket.mark :: property.print ++ [Kind.closeBracket.mark])
  | .call callee arguments =>
    Level.linked.enclose callee callee.print ++
      (Kind.openParen.mark :: separated (printEach arguments) ++ [Kind.closeParen.mark])

def printEach : List Expr → List (List Lexeme)
  | [] => []
  | e :: es => e.print :: printEach es

def printProperties : List Property → List (List Lexeme)
  | [] => []
  | property :: properties => property.print :: printProperties properties

def Property.print : Property → List Lexeme
  | .copied key => [⟨.identifier, key⟩]
  | .given key value => ⟨.identifier, key⟩ :: Kind.colon.mark :: value.print

end

theorem printEach_eq (es : List Expr) : printEach numeral es = es.map (Expr.print numeral) := by
  induction es with
  | nil => rfl
  | cons e es ih => rw [printEach, ih, List.map_cons]

theorem printProperties_eq (properties : List Property) :
    printProperties numeral properties = properties.map (Property.print numeral) := by
  induction properties with
  | nil => rfl
  | cons property properties ih => rw [printProperties, ih, List.map_cons]

mutual

def Stmt.print : Stmt → List Lexeme
  | .declare constant name value? =>
    (if constant then Kind.constWord else .letWord).mark :: ⟨.identifier, name⟩ ::
      match value? with
      | none => []
      | some value => Kind.equals.mark :: value.print numeral
  | .function name parameters body =>
    Kind.funcWord.mark :: ⟨.identifier, name⟩ :: Kind.openParen.mark ::
      separated (parameters.map fun parameter => [⟨.identifier, parameter⟩]) ++
      (Kind.closeParen.mark :: Kind.openBrace.mark :: printBody body ++ [Kind.closeBrace.mark])
  | .expr e => e.print numeral

def printBody : List Stmt → List Lexeme
  | [] => []
  | stmt :: stmts => stmt.print ++ Kind.semicolon.mark :: printBody stmts

end

def Program.print (program : Program) : String :=
  Lexeme.writeAll (printBody numeral program)

end Print

def Number.IsLiteral (text : String) (value : Float) : Prop :=
  IsNumber text.toList ∧ Number.read? text = some value

def Number.Writes (numeral : Float → String) : Prop :=
  ∀ value, (∃ text, IsLiteral text value) → IsLiteral (numeral value) value

theorem Number.exists_writes : ∃ numeral, Writes numeral := by
  have h : ∀ value, ∃ text, (∃ text, IsLiteral text value) → IsLiteral text value := by
    intro value
    by_cases hliteral : ∃ text, IsLiteral text value
    · obtain ⟨text, htext⟩ := hliteral
      exact ⟨text, fun _ => htext⟩
    · exact ⟨"", fun h => absurd h hliteral⟩
  exact Classical.skolem.mp h

mutual

inductive Expr.Plain : Expr → Prop
  | number {value : Float} (h : ∃ text, Number.IsLiteral text value) : Expr.Plain (.number value)
  | string {text : String} : Expr.Plain (.string text)
  | name {id : String} (h : IsName id) : Expr.Plain (.name id)
  | binary {operator : Operator} {left right : Expr} (hleft : left.Plain) (hright : right.Plain) :
      Expr.Plain (.binary operator left right)
  | assign {target value : Expr} (htarget : target.Plain) (hvalue : value.Plain) :
      Expr.Plain (.assign target value)
  | object {properties : List Property} (h : ∀ property ∈ properties, property.Plain) :
      Expr.Plain (.object properties)
  | array {elements : List Expr} (h : ∀ e ∈ elements, e.Plain) : Expr.Plain (.array elements)
  | member {object : Expr} {id : String} (hobject : object.Plain) (hid : IsName id) :
      Expr.Plain (.member object (.name id) false)
  | index {object property : Expr} (hobject : object.Plain) (hproperty : property.Plain) :
      Expr.Plain (.member object property true)
  | call {callee : Expr} {arguments : List Expr} (hcallee : callee.Plain)
      (harguments : ∀ e ∈ arguments, e.Plain) : Expr.Plain (.call callee arguments)

inductive Property.Plain : Property → Prop
  | copied {key : String} (hkey : IsName key) : Property.Plain (.copied key)
  | given {key : String} {value : Expr} (hkey : IsName key) (hvalue : value.Plain) :
      Property.Plain (.given key value)

end

/-- Besides, every constant has a value. -/
inductive Stmt.Plain : Stmt → Prop
  | bare {name : String} (hname : IsName name) : Stmt.Plain (.declare false name none)
  | declare {constant : Bool} {name : String} {value : Expr} (hname : IsName name)
      (hvalue : value.Plain) : Stmt.Plain (.declare constant name (some value))
  | function {name : String} {parameters : List String} {body : List Stmt} (hname : IsName name)
      (hparameters : ∀ parameter ∈ parameters, IsName parameter)
      (hbody : ∀ stmt ∈ body, stmt.Plain) : Stmt.Plain (.function name parameters body)
  | expr {e : Expr} (h : e.Plain) : Stmt.Plain (.expr e)

theorem Level.rank_injective {a b : Level} (h : a.rank = b.rank) : a = b := by
  cases a <;> cases b <;> simp_all [rank]

theorem Level.exists_rank_succ {place level : Level} (h : place.rank < level.rank) :
    ∃ next : Level, next.rank = place.rank + 1 := by
  cases place with
  | assignment => exact ⟨.object, rfl⟩
  | object => exact ⟨.comparison, rfl⟩
  | comparison => exact ⟨.additive, rfl⟩
  | additive => exact ⟨.multiplicative, rfl⟩
  | multiplicative => exact ⟨.linked, rfl⟩
  | linked => exact ⟨.primary, rfl⟩
  | primary => cases level <;> simp [rank] at h

namespace Derives

variable {level place operand : Level} {ls ms : List Lexeme} {e e' : Expr}

theorem loosen_succ (h : Derives level ls e) (hrank : level.rank = place.rank + 1) :
    Derives place ls e := by
  have hchain : place.operand? = some level → Derives place ls e := by
    intro hlevel
    have hchain := Derives.chain hlevel h .nil
    rwa [List.append_nil] at hchain
  cases place with
  | assignment =>
    obtain rfl : level = .object := Level.rank_injective hrank
    exact .value h
  | object =>
    obtain rfl : level = .comparison := Level.rank_injective hrank
    exact .operand h
  | primary => cases level <;> simp [Level.rank] at hrank
  | comparison | additive | multiplicative | linked =>
    exact hchain (congrArg some (Level.rank_injective hrank.symm))

/-- An expression of a level is one of every looser level. -/
theorem loosen (h : Derives level ls e) (hrank : place.rank ≤ level.rank) :
    Derives place ls e := by
  induction hk : level.rank - place.rank generalizing place with
  | zero =>
    obtain rfl : place = level := Level.rank_injective (by omega)
    exact h
  | succ k ih =>
    obtain ⟨next, hnext⟩ := Level.exists_rank_succ (by omega : place.rank < level.rank)
    have hderives : Derives next ls e := ih (by omega) (by omega)
    exact hderives.loosen_succ hnext

theorem toAssignment (h : Derives level ls e) : Derives .assignment ls e :=
  h.loosen (Nat.zero_le _)

theorem enclose (h : Derives e.level ls e) : Derives place (place.enclose e ls) e := by
  rw [Level.enclose]
  split
  case isTrue =>
    have hparen : Derives .primary (Kind.openParen.mark :: ls ++ [Kind.closeParen.mark]) e :=
      .paren rfl h.toAssignment rfl
    apply hparen.loosen
    cases place <;> decide
  case isFalse hrank => exact h.loosen (not_lt.mp hrank)

end Derives

theorem DerivesLinks.append {level : Level} {ls ms : List Lexeme} {e e' e'' : Expr} :
    DerivesLinks level e ls e' → DerivesLinks level e' ms e'' → DerivesLinks level e (ls ++ ms) e''
  | .nil, h => h
  | .binary hlevel hright hlinks, h => by
    simpa using DerivesLinks.binary hlevel hright (hlinks.append h)
  | .member hdot hname hlinks, h => by
    simpa using DerivesLinks.member hdot hname (hlinks.append h)
  | .index hopener hproperty hcloser hlinks, h => by
    simpa using DerivesLinks.index hopener hproperty hcloser (hlinks.append h)
  | .call hopener hitems hcloser hlinks, h => by
    simpa using DerivesLinks.call hopener hitems hcloser (hlinks.append h)

/-- Links at the end of an expression go on with it. -/
theorem Derives.append {level operand : Level} {ls ms : List Lexeme} {e e' : Expr}
    (h : Derives level ls e) (hlevel : level.operand? = some operand)
    (hlinks : DerivesLinks level e ms e') : Derives level (ls ++ ms) e' := by
  cases h with
  | chain hoperand hfirst hlinks' =>
    rw [List.append_assoc]
    exact .chain hoperand hfirst (hlinks'.append hlinks)
  | _ => simp [Level.operand?] at hlevel

/-- Expressions with commas between them. -/
theorem DerivesItems.of_parts {parts : List (List Lexeme)} {es : List Expr}
    (h : List.Forall₂ (Derives .assignment) parts es) : DerivesItems (separated parts) es := by
  induction h with
  | nil => exact .nil
  | @cons part e parts es hpart hparts ih =>
    cases hparts with
    | nil =>
      rw [separated_singleton]
      exact .last hpart
    | cons =>
      rw [separated_cons_cons]
      exact .cons hpart rfl ih

/-- Properties with commas between them. -/
theorem DerivesProperties.of_parts {parts : List (List Lexeme)} {ps : List Property}
    (h : List.Forall₂ DerivesProperty parts ps) : DerivesProperties (separated parts) ps := by
  induction h with
  | nil => exact .nil
  | @cons part p parts ps hpart hparts ih =>
    cases hparts with
    | nil =>
      rw [separated_singleton]
      exact .last hpart
    | cons =>
      rw [separated_cons_cons]
      exact .cons hpart rfl ih

theorem derivesItems_separated {es : List Expr} {print : Expr → List Lexeme}
    (h : ∀ e ∈ es, Derives .assignment (print e) e) :
    DerivesItems (separated (es.map print)) es :=
  .of_parts (List.forall₂_map_left_iff.mpr (List.forall₂_same.mpr h))

theorem derivesProperties_separated {ps : List Property} {print : Property → List Lexeme}
    (h : ∀ p ∈ ps, DerivesProperty (print p) p) :
    DerivesProperties (separated (ps.map print)) ps :=
  .of_parts (List.forall₂_map_left_iff.mpr (List.forall₂_same.mpr h))

theorem derivesNames_separated (name : String) (names : List String) :
    DerivesNames (separated ((name :: names).map fun id => [⟨.identifier, id⟩]))
      (name :: names) := by
  induction names generalizing name with
  | nil =>
    rw [List.map_singleton, separated_singleton]
    exact .last rfl
  | cons next names ih =>
    rw [List.map_cons, List.map_cons, separated_cons_cons]
    exact .cons rfl rfl (ih next)

namespace Derives

variable {ls ms : List Lexeme} {e e' : Expr}

theorem binary (operator : Operator) (hleft : Derives operator.level ls e)
    (hright : Derives operator.operand ms e') :
    Derives operator.level (ls ++ operator.sign :: ms) (.binary operator e e') := by
  have hlink : DerivesLinks operator.level e (operator.sign :: ms ++ []) (.binary operator e e') :=
    .binary operator.operand?_level hright .nil
  rw [List.append_nil] at hlink
  exact hleft.append operator.operand?_level hlink

theorem member (h : Derives .linked ls e) (id : String) :
    Derives .linked (ls ++ [Kind.dot.mark, ⟨.identifier, id⟩]) (.member e (.name id) false) :=
  h.append rfl (.member rfl rfl .nil)

theorem index (h : Derives .linked ls e) (hproperty : Derives .assignment ms e') :
    Derives .linked (ls ++ (Kind.openBracket.mark :: ms ++ [Kind.closeBracket.mark]))
      (.member e e' true) :=
  h.append rfl (.index rfl hproperty rfl .nil)

theorem call {arguments : List Expr} (h : Derives .linked ls e)
    (harguments : DerivesItems ms arguments) :
    Derives .linked (ls ++ (Kind.openParen.mark :: ms ++ [Kind.closeParen.mark]))
      (.call e arguments) :=
  h.append rfl (.call rfl harguments rfl .nil)

end Derives

mutual

theorem Expr.derives_print {numeral : Float → String} (hnumeral : Number.Writes numeral)
    {e : Expr} : e.Plain → Derives e.level (e.print numeral) e
  | .number h => .number rfl (hnumeral _ h).2
  | .string => .string rfl
  | .name _ => .name rfl
  | .binary hleft hright =>
    .binary _ (Expr.derives_print hnumeral hleft).enclose
      (Expr.derives_print hnumeral hright).enclose
  | .assign htarget hvalue =>
    .assign (Expr.derives_print hnumeral htarget).enclose rfl
      (Expr.derives_print hnumeral hvalue).toAssignment
  | .object h => by
    rw [Expr.print, printProperties_eq]
    exact .object rfl (derivesProperties_separated fun p hp =>
      Property.derives_print hnumeral (h p hp)) rfl
  | .array h => by
    rw [Expr.print, printEach_eq]
    exact .array rfl (derivesItems_separated fun e he =>
      (Expr.derives_print hnumeral (h e he)).toAssignment) rfl
  | .member hobject _ => (Expr.derives_print hnumeral hobject).enclose.member _
  | .index hobject hproperty =>
    (Expr.derives_print hnumeral hobject).enclose.index
      (Expr.derives_print hnumeral hproperty).toAssignment
  | .call hcallee harguments => by
    rw [Expr.print, printEach_eq]
    exact (Expr.derives_print hnumeral hcallee).enclose.call (derivesItems_separated fun e he =>
      (Expr.derives_print hnumeral (harguments e he)).toAssignment)

theorem Property.derives_print {numeral : Float → String} (hnumeral : Number.Writes numeral)
    {property : Property} : property.Plain → DerivesProperty (property.print numeral) property
  | .copied _ => .copied rfl
  | .given _ hvalue =>
    .given rfl rfl (Expr.derives_print hnumeral hvalue).toAssignment

end

end Script
